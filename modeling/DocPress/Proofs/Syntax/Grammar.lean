import DocPress.Proofs.Highlight

/-!
Code that is split. Grammars push and pop scopes, but put none of them aside. They have nothing to put
back then, so that the standard highlighter splits all code whose language it knows.

Tokens are the runs of a code. Each character has the class of the scopes that are on the stack at its
place, the characters that stand next to each other and have the same class are one token, also across
the ends of lines, and so nothing of the code is lost and no token is empty. All of this holds whatever
a grammar says, in whatever order it names the places of a line.
-/

namespace DocPress.Syntax

/-- Whether a change pushes or pops scopes. -/
def ScopeOp.isPushOrPop : ScopeOp → Bool
  | .push _ | .pop _ => true
  | _ => false

/-- Whether what happens in a line is that scopes are pushed and popped. -/
def PushesAndPops (ops : LineOps) : Prop :=
  ∀ op ∈ ops, op.2.isPushOrPop = true

namespace Grammar

variable {grammar : Grammar}

theorem pushesAndPops_pushAll (index : Nat) (scopes : List String) :
    PushesAndPops (pushAll index scopes) := by
  intro op member
  obtain ⟨scope, -, rfl⟩ := List.mem_map.1 member
  rfl

/-- Popping a number of scopes pushes and pops only. -/
theorem pushesAndPops_popCount (index count : Nat) : PushesAndPops (popCount index count) := by
  rw [popCount]
  split
  · exact fun _ member => absurd member List.not_mem_nil
  · exact List.forall_mem_singleton.2 rfl

theorem pushesAndPops_append {first second : LineOps} (head : PushesAndPops first)
    (tail : PushesAndPops second) : PushesAndPops (first ++ second) :=
  List.forall_mem_append.2 ⟨head, tail⟩

/-- The groups of a match push and pop only. -/
theorem pushesAndPops_groupOps (found : RuleMatch) : PushesAndPops (groupOps found) := by
  intro op member
  obtain ⟨event, sorted, rfl⟩ := List.mem_map.1 member
  rw [List.mem_mergeSort] at sorted
  obtain ⟨⟨start, stop, scopes⟩, -, event⟩ := List.mem_flatMap.1 sorted
  rcases List.mem_append.1 event with pushed | popped
  · obtain ⟨scope, -, rfl⟩ := List.mem_map.1 pushed
    rfl
  · obtain rfl := List.mem_singleton.1 popped
    rfl

/-- A match pushes and pops only. -/
theorem pushesAndPops_matchOps (current : Context) (found : RuleMatch) :
    PushesAndPops (grammar.matchOps current found) := by
  have own (start stop : Nat) (scopes : List String) :
      PushesAndPops (pushAll start scopes ++ groupOps found ++ popCount stop scopes.length) :=
    pushesAndPops_append (pushesAndPops_append (pushesAndPops_pushAll _ _)
      (pushesAndPops_groupOps found)) (pushesAndPops_popCount _ _)
  have pushes := pushesAndPops_pushAll
  have pops := pushesAndPops_popCount
  unfold matchOps
  split
  · exact own _ _ _
  · exact pushesAndPops_append (pushesAndPops_append (pops _ _) (own _ _ _)) (pops _ _)
  · exact pushesAndPops_append (pushesAndPops_append (pushesAndPops_append (pushes _ _) (own _ _ _))
      (pops _ _)) (pushes _ _)
  · exact pushesAndPops_append (pushesAndPops_append (pushesAndPops_append (pushes _ _) (own _ _ _))
      (pops _ _)) (pushes _ _)

/-- Reading on in a line pushes and pops only. -/
theorem pushesAndPops_readFrom (fuel : Nat) (stack : List String) (entered : Option (Nat × Nat))
    (spot : Spot) : PushesAndPops (grammar.readFrom fuel stack entered spot).2 := by
  have nothing : PushesAndPops [] := fun _ member => absurd member List.not_mem_nil
  induction fuel generalizing stack entered spot with
  | zero => exact nothing
  | succ fuel ih =>
      rw [readFrom]
      split
      · exact nothing
      · next found _ =>
          split
          · split
            · split
              · exact nothing
              · exact ih _ _ _
            · exact nothing
          · exact pushesAndPops_append (pushesAndPops_matchOps _ found) (ih _ _ _)

/-- A grammar pushes and pops scopes in every line. -/
theorem pushesAndPops_readLines (stack : List String) (lines : List (List Char)) :
    ∀ ops ∈ grammar.readLines stack lines, PushesAndPops ops := by
  induction lines generalizing stack with
  | nil => exact fun _ member => absurd member List.not_mem_nil
  | cons line rest ih =>
      have first := @pushesAndPops_readFrom grammar (8 * line.length + 16) stack none ⟨[], line, 0, []⟩
      exact List.forall_mem_cons.2 ⟨first, ih _⟩

/-- Whatever lines a grammar reads, it pushes and pops only. -/
theorem pushesAndPops_read (lines : List (List Char)) :
    ∀ ops ∈ grammar.read lines, PushesAndPops ops := by
  have each := @pushesAndPops_readLines grammar
    [(grammar.contexts.head?.map (·.name)).getD ""] lines
  rw [read]
  split
  · exact fun _ member => absurd member List.not_mem_nil
  · next ops more read =>
      rw [read, List.forall_mem_cons] at each
      exact List.forall_mem_cons.2 ⟨List.forall_mem_cons.2 ⟨rfl, each.1⟩, each.2⟩

end Grammar

/-! ### Splitting code -/

theorem exists_after? {op : ScopeOp} (pushesOrPops : op.isPushOrPop = true) (stack : ScopeStack) :
    ∃ next, stack.after? op = some next := by
  cases op <;> first | exact ⟨_, rfl⟩ | cases pushesOrPops

/-- A line with pushes and pops only can be split at any stack. -/
theorem exists_splitLine {ops : LineOps} (pushesAndPops : PushesAndPops ops) (stack : ScopeStack)
    (tokens : List Token) (done : Nat) (rest : List Char) :
    ∃ result, splitLine stack tokens done rest ops = .ok result := by
  induction ops generalizing stack tokens done rest with
  | nil => exact ⟨_, rfl⟩
  | cons op ops ih =>
      obtain ⟨place, op⟩ := op
      obtain ⟨here, behind⟩ := List.forall_mem_cons.1 pushesAndPops
      obtain ⟨next, after⟩ := exists_after? here stack
      simp only [splitLine, after]
      exact ih behind _ _ _ _

/-- Lines with pushes and pops only can be split at any stack. -/
theorem exists_splitLines {lines : List (List Char × LineOps)}
    (pushesAndPops : ∀ line ∈ lines, PushesAndPops line.2) (stack : ScopeStack)
    (tokens : List Token) : ∃ result, splitLines stack tokens lines = .ok result := by
  induction lines generalizing stack tokens with
  | nil => exact ⟨_, rfl⟩
  | cons line rest ih =>
      obtain ⟨text, ops⟩ := line
      rw [List.forall_mem_cons] at pushesAndPops
      obtain ⟨⟨next, more⟩, split⟩ := exists_splitLine pushesAndPops.1 stack tokens 0 text
      simp only [splitLines, split, bind, Except.bind]
      exact ih pushesAndPops.2 _ _

/-- Lines paired with pushes and pops only are such lines. -/
theorem pushesAndPops_pairLines (lines : List (List Char)) {ops : List LineOps}
    (each : ∀ line ∈ ops, PushesAndPops line) :
    ∀ line ∈ pairLines lines ops, PushesAndPops line.2 := by
  induction lines generalizing ops with
  | nil => exact fun _ member => absurd member List.not_mem_nil
  | cons line rest ih =>
      cases ops with
      | nil =>
          have nothing : PushesAndPops [] := fun _ member => absurd member List.not_mem_nil
          exact List.forall_mem_cons.2 ⟨nothing, ih fun _ member => absurd member List.not_mem_nil⟩
      | cons first more =>
          rw [List.forall_mem_cons] at each
          exact List.forall_mem_cons.2 ⟨each.1, ih each.2⟩

/-- The grammar of every language pushes and pops only. -/
theorem pushesAndPops_grammarOf (language : Language) (lines : List (List Char)) :
    ∀ ops ∈ grammarOf language lines, PushesAndPops ops := by
  rw [grammarOf]
  cases grammars.find? (·.1 = language.name) with
  | some found => exact found.2.pushesAndPops_read lines
  | none =>
      intro ops member
      obtain ⟨line, -, rfl⟩ := List.mem_map.1 member
      exact fun _ member => absurd member List.not_mem_nil

/-- The standard highlighter splits all code in a language with a grammar. -/
theorem exists_tokenize_standard {language : String} (known : standard.supports language = true)
    (code : String) : ∃ tokens, standard.tokenize code language = .ok tokens := by
  obtain ⟨read, grammar⟩ := Option.isSome_iff_exists.1 known
  obtain ⟨found, -, rfl⟩ := Option.map_eq_some_iff.1 grammar
  obtain ⟨tokens, split⟩ := exists_splitLines (pushesAndPops_pairLines
    (Text.linesWithEnds code.toList) (pushesAndPops_grammarOf found _)) .empty []
  refine ⟨tokens.reverse, ?_⟩
  rw [Highlighter.tokenize, grammar]
  dsimp only [tokenizeWith, tokensOf]
  rw [split]
  rfl

/-- The standard highlighter fails only on a language that it does not know. -/
theorem not_failsOn_standard (language code : String) :
    ¬Highlight.FailsOn standard language code := by
  intro fails
  rw [Highlight.FailsOn] at fails
  cases known : standard.supports language with
  | true =>
      obtain ⟨tokens, split⟩ := exists_tokenize_standard known code
      rw [split] at fails
      cases fails
  | false =>
      rw [Highlighter.supports, Option.isSome_eq_false_iff, Option.isNone_iff_eq_none] at known
      rw [Highlighter.tokenize, known] at fails
      cases fails

/-! ### Classes of characters -/

/-- The stack after changes of it. Putting back what is not put aside changes nothing. -/
def ScopeStack.afterAll (stack : ScopeStack) (ops : LineOps) : ScopeStack :=
  ops.foldl (fun stack op => (stack.after? op.2).getD stack) stack

/-- The class at a place of a line, which is that of the stack after all changes listed in front of the
first one that happens behind the place. -/
def classAt? (stack : ScopeStack) (ops : LineOps) (place : Nat) : Option String :=
  (stack.afterAll (ops.takeWhile (·.1 ≤ place))).class?

/-- The characters of a text that starts at a place of a line, with their classes. -/
def classedFrom (stack : ScopeStack) (ops : LineOps) (start : Nat) (text : List Char) :
    List (Option String × Char) :=
  (text.zipIdx start).map fun entry => (classAt? stack ops entry.2, entry.1)

/-- The characters of lines with their classes. A line starts with the scopes that the one before it
leaves. -/
def classed (stack : ScopeStack) : List (List Char × LineOps) → List (Option String × Char)
  | [] => []
  | (line, ops) :: rest => classedFrom stack ops 0 line ++ classed (stack.afterAll ops) rest

/-- The characters of tokens, each with the class of its token. -/
def charsOf (tokens : List Token) : List (Option String × Char) :=
  tokens.flatMap fun token => token.text.map (token.cls, ·)

/-- A token adds its characters, each with its class. -/
theorem charsOf_addToken (cls : Option String) (text : List Char) (tokens : List Token) :
    charsOf (addToken cls text tokens).reverse = charsOf tokens.reverse ++ text.map (cls, ·) := by
  unfold addToken
  split
  · next empty => simp [List.isEmpty_iff.1 empty]
  · cases tokens with
    | nil => simp [charsOf]
    | cons token rest =>
        dsimp only
        split
        · next same => simp [charsOf, same]
        · simp [charsOf]

/-- Where nothing happens any more the class is that of the stack. -/
theorem classedFrom_nil (stack : ScopeStack) (start : Nat) (text : List Char) :
    classedFrom stack [] start text = text.map (stack.class?, ·) := by
  rw [classedFrom, ← List.zipIdx_map_fst start text, List.map_map, List.zipIdx_map_fst]
  rfl

/-- Up to the place of a change the class is that of the stack, and behind it that of the stack after the
change. -/
theorem classedFrom_cons {stack next : ScopeStack} {op : ScopeOp} (changes : stack.after? op = some next)
    (place start : Nat) (ops : LineOps) (text : List Char) :
    classedFrom stack ((place, op) :: ops) start text =
      (text.take (place - start)).map (stack.class?, ·) ++
        classedFrom next ops (max start place) (text.drop (place - start)) := by
  have before : ∀ entry ∈ (text.take (place - start)).zipIdx start,
      classAt? stack ((place, op) :: ops) entry.2 = stack.class? := by
    rintro ⟨c, index⟩ member
    obtain ⟨le, lt, -⟩ := List.mem_zipIdx member
    have ahead : ¬place ≤ index := by
      rw [List.length_take] at lt
      omega
    rw [classAt?, List.takeWhile_cons_of_neg (by simpa using ahead)]
    rfl
  have behind : ∀ entry ∈ (text.drop (place - start)).zipIdx (max start place),
      classAt? stack ((place, op) :: ops) entry.2 = classAt? next ops entry.2 := by
    rintro ⟨c, index⟩ member
    obtain ⟨le, -, -⟩ := List.mem_zipIdx member
    have passed : place ≤ index := by omega
    rw [classAt?, List.takeWhile_cons_of_pos (by simpa using passed), ScopeStack.afterAll,
      List.foldl_cons, changes]
    rfl
  -- Where the change is behind the text, there is nothing left of it and no matter where that starts.
  have starts : (text.drop (place - start)).zipIdx (start + (text.take (place - start)).length) =
      (text.drop (place - start)).zipIdx (max start place) := by
    by_cases short : text.length ≤ place - start
    · rw [List.drop_eq_nil_of_le short, List.zipIdx_nil, List.zipIdx_nil]
    · rw [List.length_take]
      congr 1
      omega
  calc classedFrom stack ((place, op) :: ops) start text
    _ = ((text.take (place - start) ++ text.drop (place - start)).zipIdx start).map
          fun entry => (classAt? stack ((place, op) :: ops) entry.2, entry.1) := by
      rw [List.take_append_drop, classedFrom]
    _ = ((text.take (place - start)).zipIdx start).map (fun entry => (stack.class?, entry.1)) ++
          classedFrom next ops (max start place) (text.drop (place - start)) := by
      rw [List.zipIdx_append, List.map_append, starts, classedFrom]
      congr 1
      · exact List.map_congr_left fun entry member => by rw [before entry member]
      · exact List.map_congr_left fun entry member => by rw [behind entry member]
    _ = _ := by
      congr 1
      rw [← List.zipIdx_map_fst start (text.take (place - start)), List.map_map,
        List.zipIdx_map_fst]
      rfl

/-- Splitting a line classes what is left of it. -/
theorem charsOf_splitLine {ops : LineOps} :
    ∀ {stack after : ScopeStack} {tokens more : List Token} {done : Nat} {rest : List Char},
      splitLine stack tokens done rest ops = .ok (after, more) →
        charsOf more.reverse = charsOf tokens.reverse ++ classedFrom stack ops done rest ∧
          after = stack.afterAll ops := by
  induction ops with
  | nil =>
      intro stack after tokens more done rest split
      cases split
      exact ⟨by rw [charsOf_addToken, classedFrom_nil], rfl⟩
  | cons op ops ih =>
      intro stack after tokens more done rest split
      obtain ⟨place, op⟩ := op
      rw [splitLine] at split
      cases changes : stack.after? op with
      | none => simp only [changes] at split; cases split
      | some next =>
          simp only [changes] at split
          obtain ⟨chars, rfl⟩ := ih split
          refine ⟨?_, ?_⟩
          · rw [chars, charsOf_addToken, classedFrom_cons changes, List.append_assoc]
          · simp only [ScopeStack.afterAll, List.foldl_cons, changes, Option.getD_some]

/-- Splitting lines into tokens gives every character the class of the scopes around it. -/
theorem charsOf_splitLines {lines : List (List Char × LineOps)} :
    ∀ {stack : ScopeStack} {tokens more : List Token}, splitLines stack tokens lines = .ok more →
      charsOf more.reverse = charsOf tokens.reverse ++ classed stack lines := by
  induction lines with
  | nil =>
      intro stack tokens more split
      cases split
      rw [classed, List.append_nil]
  | cons line lines ih =>
      intro stack tokens more split
      obtain ⟨line, ops⟩ := line
      rw [splitLines, bind_eq_ok_iff] at split
      obtain ⟨⟨after, next⟩, first, behind⟩ := split
      obtain ⟨chars, rfl⟩ := charsOf_splitLine first
      rw [ih behind, chars, classed, List.append_assoc]

/-! ### Runs -/

/-- Whether tokens are runs: none of them is empty, and those side by side have different classes. -/
structure AreRuns (tokens : List Token) : Prop where
  filled : ∀ token ∈ tokens, token.text ≠ []
  apart : tokens.IsChain fun first next => first.cls ≠ next.cls

theorem areRuns_nil : AreRuns [] :=
  ⟨nofun, .nil⟩

theorem AreRuns.reverse {tokens : List Token} (runs : AreRuns tokens) : AreRuns tokens.reverse where
  filled token member := runs.filled token (List.mem_reverse.1 member)
  apart := List.isChain_reverse.2 (runs.apart.imp fun _ _ => Ne.symm)

/-- A stretch of code goes to the last token if it has its class, and is a token of its own if not. -/
theorem AreRuns.addToken {tokens : List Token} (runs : AreRuns tokens) (cls : Option String)
    (text : List Char) : AreRuns (addToken cls text tokens) := by
  unfold Syntax.addToken
  split
  case isTrue => exact runs
  case isFalse filled =>
    have some_text : text ≠ [] := by simpa using filled
    cases tokens with
    | nil => exact ⟨List.forall_mem_singleton.2 some_text, .singleton _⟩
    | cons token rest =>
        obtain ⟨here, behind⟩ := List.forall_mem_cons.1 runs.filled
        dsimp only
        split
        case isTrue same =>
          refine ⟨List.forall_mem_cons.2 ⟨by simp [some_text], behind⟩, ?_⟩
          cases rest with
          | nil => exact .singleton _
          | cons next rest =>
              obtain ⟨differs, apart⟩ := List.isChain_cons_cons.1 runs.apart
              exact List.isChain_cons_cons.2 ⟨differs, apart⟩
        case isFalse differs =>
          exact ⟨List.forall_mem_cons.2 ⟨some_text, runs.filled⟩,
            List.isChain_cons_cons.2 ⟨Ne.symm differs, runs.apart⟩⟩

/-- Splitting a line adds to runs and leaves runs. -/
theorem AreRuns.splitLine {ops : LineOps} :
    ∀ {stack after : ScopeStack} {tokens more : List Token} {done : Nat} {rest : List Char},
      AreRuns tokens → splitLine stack tokens done rest ops = .ok (after, more) → AreRuns more := by
  induction ops with
  | nil =>
      intro stack after tokens more done rest runs split
      cases split
      exact runs.addToken _ _
  | cons op ops ih =>
      intro stack after tokens more done rest runs split
      rw [Syntax.splitLine] at split
      cases changes : stack.after? op.2 with
      | none => simp only [changes] at split; cases split
      | some next =>
          simp only [changes] at split
          exact ih (runs.addToken _ _) split

/-- Splitting lines adds to runs and leaves runs. -/
theorem AreRuns.splitLines {lines : List (List Char × LineOps)} :
    ∀ {stack : ScopeStack} {tokens more : List Token}, AreRuns tokens →
      splitLines stack tokens lines = .ok more → AreRuns more := by
  induction lines with
  | nil =>
      intro stack tokens more runs split
      cases split
      exact runs
  | cons line lines ih =>
      intro stack tokens more runs split
      rw [Syntax.splitLines, bind_eq_ok_iff] at split
      obtain ⟨⟨after, next⟩, first, behind⟩ := split
      exact ih (runs.splitLine first) behind

/-- The tokens of a code are its runs under the grammar of the language, whatever that says: their texts
make up the code, none of them is empty, those side by side have different classes, and each character
is in a token of its class. -/
theorem Highlighter.tokenize_runs {highlighter : Highlighter} {code language : String}
    {tokens : List Token} (split : highlighter.tokenize code language = .ok tokens) :
    codeOf tokens = code.toList ∧ (∀ token ∈ tokens, token.text ≠ []) ∧
      (tokens.IsChain fun first next => first.cls ≠ next.cls) ∧
      ∃ read, highlighter.grammar? language = some read ∧
        charsOf tokens = classed .empty
          (pairLines (Text.linesWithEnds code.toList) (read (Text.linesWithEnds code.toList))) := by
  have whole := codeOf_tokenize split
  rw [tokenize] at split
  cases known : highlighter.grammar? language with
  | none => rw [known] at split; cases split
  | some read =>
      rw [known] at split
      dsimp only at split
      rw [tokenizeWith, tokensOf, map_eq_ok_iff] at split
      obtain ⟨reversed, lines, rfl⟩ := split
      have runs := (areRuns_nil.splitLines lines).reverse
      exact ⟨whole, runs.filled, runs.apart, read, rfl, charsOf_splitLines lines⟩

/-- A highlighter that names the places of the first line out of order and leaves its scope open. -/
def unordered : Highlighter :=
  ⟨fun _ => some fun _ =>
    [[(2, .push "keyword"), (1, .push "string"), (4, .pop 1), (4, .noop)], [(1, .push "comment")]]⟩

/-- The tokens of two lines, of which the second one goes on with the keyword at the end of the first. -/
def acrossLines : List Token :=
  [⟨none, ['a', ' ']⟩, ⟨some "string", ['=', ' ']⟩, ⟨some "keyword", ['b', '\n', 'c']⟩,
    ⟨some "comment", [' ', 'd']⟩]

/-- Operations out of order: the code is kept, and no two neighbours have the same class. -/
theorem tokenize_runs_unordered :
    unordered.tokenize "a = b\nc d" "any" = .ok acrossLines ∧
      codeOf acrossLines = "a = b\nc d".toList ∧ (∀ token ∈ acrossLines, token.text ≠ []) ∧
      acrossLines.IsChain fun first next => first.cls ≠ next.cls := by
  have split : unordered.tokenize "a = b\nc d" "any" = .ok acrossLines := by decide +kernel
  obtain ⟨whole, filled, apart, -⟩ := Highlighter.tokenize_runs split
  exact ⟨split, whole, filled, apart⟩

end DocPress.Syntax
