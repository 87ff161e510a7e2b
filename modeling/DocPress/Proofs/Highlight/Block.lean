import Mathlib.Data.List.Forall2
import DocPress.Proofs.Highlight
import DocPress.Proofs.Syntax.Grammar

/-!
What highlighting does to the blocks of a tree. It refuses a tree only when it is strict, for the first
block whose language has no grammar. Otherwise the blocks whose language has one get their code in pieces,
and nothing else is changed.
-/

namespace DocPress.Highlight

open Node
open Syntax (Highlighter Token standard)

/-! ### Blocks -/

/-- Whether a node is a code block without children that names a language. -/
inductive IsBareBlock (language code : String) : Node → Prop
  | untitled (info : Option String) :
      IsBareBlock language code ⟨.codeBlock (some language) info code, []⟩
  | titled (title : String) :
      IsBareBlock language code ⟨.codeBlockWithTitle title (some language) code, []⟩

/-- What is to be highlighted is a code block with a language and no children. -/
theorem target?_eq_some_iff {node : Node} {language code : String} :
    target? node = some (language, code) ↔ IsBareBlock language code node := by
  constructor
  · intro target
    unfold target? at target
    split at target
    · cases target
      exact .untitled _
    · cases target
      exact .titled _
    · cases target
  · intro bare
    cases bare <;> rfl

/-- Whether a node is a code block without children in a language without a grammar. -/
def IsUnknown (highlighter : Highlighter) (language : String) (node : Node) : Prop :=
  highlighter.supports language = false ∧ ∃ code, IsBareBlock language code node

/-- Whether a node is a piece of code: a text, or a token around one. -/
inductive IsPiece : Node → Prop
  | plain (text : String) : IsPiece (.text text)
  | token (className text : String) : IsPiece ⟨.token className, [.text text]⟩

/-- The node of a token is a piece of code. -/
theorem isPiece_tokenNode (token : Token) : IsPiece (tokenNode token) := by
  obtain ⟨cls, text⟩ := token
  cases cls with
  | none => exact .plain _
  | some className => exact .token _ _

/-- Whether a tree is another one in which the code of blocks whose language has a grammar has been put
into pieces below them. -/
inductive IsHighlighted (highlighter : Highlighter) : Node → Node → Prop
  | block {kind : NodeKind} {language code : String} {pieces : List Node}
      (bare : IsBareBlock language code ⟨kind, []⟩) (known : highlighter.supports language = true)
      (each : ∀ piece ∈ pieces, IsPiece piece) (whole : textContentAll pieces = code) :
      IsHighlighted highlighter ⟨kind, []⟩ ⟨kind, pieces⟩
  | other {kind : NodeKind} {old new : List Node}
      (unknown : ∀ language code, IsBareBlock language code ⟨kind, old⟩ →
        highlighter.supports language = false)
      (below : List.Forall₂ (IsHighlighted highlighter) old new) :
      IsHighlighted highlighter ⟨kind, old⟩ ⟨kind, new⟩

/-! ### Languages -/

/-- Whether the grammars of a highlighter split all code. -/
def Succeeds (highlighter : Highlighter) : Prop :=
  ∀ language code, highlighter.supports language = true →
    ∃ tokens, highlighter.tokenize code language = .ok tokens

theorem succeeds_standard : Succeeds standard :=
  fun _ code known => Syntax.exists_tokenize_standard known code

variable {highlighter : Highlighter} {strict : Bool} {language code : String}

/-- Nothing is done to a code in a language without a grammar, unless it is refused. -/
theorem tokenNodes_unknown (unknown : highlighter.supports language = false) :
    tokenNodes highlighter strict language code =
      if strict then .error (.unsupportedLanguage language) else .ok [] := by
  have missing : highlighter.grammar? language = none := by
    rwa [Highlighter.supports, Option.isSome_eq_false_iff, Option.isNone_iff_eq_none] at unknown
  rw [tokenNodes, Highlighter.tokenize, missing]

/-- The code in a language with a grammar is put into pieces. -/
theorem exists_tokenNodes (succeeds : Succeeds highlighter)
    (known : highlighter.supports language = true) :
    ∃ pieces, tokenNodes highlighter strict language code = .ok pieces ∧
      (∀ piece ∈ pieces, IsPiece piece) ∧ textContentAll pieces = code := by
  obtain ⟨tokens, split⟩ := succeeds language code known
  refine ⟨tokens.map tokenNode, by rw [tokenNodes, split], ?_, ?_⟩
  · intro piece member
    obtain ⟨token, -, rfl⟩ := List.mem_map.1 member
    exact isPiece_tokenNode token
  · rw [textContentAll_tokenNodes, Syntax.Highlighter.codeOf_tokenize split, String.ofList_toList]

/-! ### Refusals -/

/-- The language of a code block without children that has no grammar. -/
def unknown? (highlighter : Highlighter) (node : Node) : Option String :=
  match target? node with
  | some (language, _) => if highlighter.supports language then none else some language
  | none => none

/-- A language is found unknown exactly when the block is one of an unknown language. -/
theorem unknown?_eq_some_iff {node : Node} :
    unknown? highlighter node = some language ↔ IsUnknown highlighter language node := by
  rw [unknown?]
  cases target : target? node with
  | none =>
      constructor
      · intro found
        cases found
      · rintro ⟨-, code, bare⟩
        rw [target?_eq_some_iff.2 bare] at target
        cases target
  | some found =>
      obtain ⟨own, code⟩ := found
      constructor
      · intro same
        dsimp only at same
        split at same
        · cases same
        · next unknown =>
            cases same
            exact ⟨Bool.eq_false_iff.2 unknown, code, target?_eq_some_iff.1 target⟩
      · rintro ⟨unknown, code', bare⟩
        rw [target?_eq_some_iff.2 bare] at target
        cases target
        exact if_neg (Bool.eq_false_iff.1 unknown)

/-- The refusal that the first of the nodes for which there is one leads to. -/
def refusal? (highlighter : Highlighter) (strict : Bool) (nodes : List Node) : Option StageError :=
  if strict then (nodes.findSome? (unknown? highlighter)).map .unsupportedLanguage else none

/-- The stage refuses the first block of an unknown language, if it is strict. -/
theorem refusal?_eq_some_iff {nodes : List Node} {fault : StageError} :
    refusal? highlighter strict nodes = some fault ↔
      strict = true ∧ ∃ language, nodes.findSome? (unknown? highlighter) = some language ∧
        .unsupportedLanguage language = fault := by
  rw [refusal?]
  cases strict with
  | false => simp
  | true => simp only [if_true, Option.map_eq_some_iff, true_and]

theorem refusal?_append (first second : List Node) :
    refusal? highlighter strict (first ++ second) =
      (refusal? highlighter strict first).or (refusal? highlighter strict second) := by
  rw [refusal?, refusal?, refusal?, List.findSome?_append]
  cases strict with
  | false => rfl
  | true => exact Option.map_or

theorem refusal?_singleton (node : Node) :
    refusal? highlighter strict [node] =
      if strict then (unknown? highlighter node).map .unsupportedLanguage else none := by
  rw [refusal?, List.findSome?_cons]
  cases unknown? highlighter node <;> rfl

/-- Whether a step gives a result unless there is a refusal, and what that is. -/
def Refuses {α : Type} (refusal : Option StageError) (step : Except StageError α) : Prop :=
  ∀ fault, step = .error fault ↔ refusal = some fault

/-- A step with its result changed refuses the same. -/
theorem Refuses.map {α β : Type} {refusal : Option StageError} {step : Except StageError α}
    (refuses : Refuses refusal step) (f : α → β) : Refuses refusal (step.map f) := by
  intro fault
  rw [map_eq_error_iff]
  exact refuses fault

/-- A block is refused when its language is unknown and gets its tokens otherwise. -/
theorem refuses_tokenNodes (succeeds : Succeeds highlighter) (strict : Bool) {node : Node}
    (bare : IsBareBlock language code node) :
    Refuses (refusal? highlighter strict [node]) (tokenNodes highlighter strict language code) := by
  intro fault
  rw [refusal?_singleton, unknown?, target?_eq_some_iff.2 bare]
  cases known : highlighter.supports language with
  | true =>
      obtain ⟨pieces, split, -⟩ := exists_tokenNodes succeeds known
      rw [split]
      simp [known]
  | false =>
      rw [tokenNodes_unknown known]
      cases strict with
      | false => simp
      | true => simp [known]

mutual

/-- A tree is refused for the first of its blocks whose language has no grammar. -/
theorem refuses_apply (succeeds : Succeeds highlighter) (strict : Bool) :
    ∀ node, Refuses (refusal? highlighter strict node.walk) (apply highlighter strict node)
  | ⟨kind, children⟩ => by
      cases target : target? ⟨kind, children⟩ with
      | some found =>
          have bare := target?_eq_some_iff.1 target
          obtain ⟨-, rfl, -⟩ := isTarget_of_target? target
          rw [apply_target target]
          exact (refuses_tokenNodes succeeds strict bare).map _
      | none =>
          have own : refusal? highlighter strict [⟨kind, children⟩] = none := by
            rw [refusal?_singleton, unknown?, target]
            exact ite_self _
          rw [apply_other target, walk, ← List.singleton_append, refusal?_append, own, Option.none_or]
          exact (refuses_applyAll succeeds strict children).map _

/-- Trees are refused for the first block among all their nodes. -/
theorem refuses_applyAll (succeeds : Succeeds highlighter) (strict : Bool) :
    ∀ nodes, Refuses (refusal? highlighter strict (walkAll nodes)) (applyAll highlighter strict nodes)
  | [] => by
      intro fault
      cases strict <;> simp [walkAll, refusal?, applyAll]
  | node :: rest => by
      have head := refuses_apply succeeds strict node
      have tail := refuses_applyAll succeeds strict rest
      intro fault
      rw [walkAll, refusal?_append, applyAll]
      cases here : apply highlighter strict node with
      | error cause =>
          rw [(head cause).1 here, Option.some_or]
          exact ⟨fun same => by cases same; rfl, fun same => by cases same; rfl⟩
      | ok first =>
          have passed : refusal? highlighter strict node.walk = none := by
            rw [Option.eq_none_iff_forall_ne_some]
            intro cause refused
            rw [(head cause).2 refused] at here
            cases here
          rw [passed, Option.none_or, ← tail fault]
          cases applyAll highlighter strict rest with
          | error cause => exact Iff.rfl
          | ok others => exact ⟨fun same => (by cases same), fun same => (by cases same)⟩

end

/-! ### Results -/

mutual

/-- A tree that is not refused is highlighted. -/
theorem isHighlighted_apply (succeeds : Succeeds highlighter) : ∀ {node tree : Node},
    apply highlighter strict node = .ok tree → IsHighlighted highlighter node tree
  | ⟨kind, children⟩, tree, done => by
      obtain ⟨language, code, target, tokens, split, rfl⟩ | ⟨target, nodes, below, rfl⟩ :=
        apply_cases done
      · have bare := target?_eq_some_iff.1 target
        obtain ⟨-, rfl, -⟩ := isTarget_of_target? target
        cases known : highlighter.supports language with
        | true =>
            obtain ⟨pieces, split', each, whole⟩ := exists_tokenNodes succeeds known
            rw [Except.ok.inj (split.symm.trans split')]
            exact .block bare known each whole
        | false =>
            rw [tokenNodes_unknown known] at split
            have none : tokens.map tokenNode = [] := by
              cases strict with
              | true => cases split
              | false => exact (Except.ok.inj split).symm
            rw [none]
            refine .other (fun other code' bare' => ?_) .nil
            rw [target?_eq_some_iff.2 bare'] at target
            cases target
            exact known
      · refine .other (fun other code bare => ?_) (isHighlighted_applyAll succeeds below)
        rw [target?_eq_some_iff.2 bare] at target
        cases target

theorem isHighlighted_applyAll (succeeds : Succeeds highlighter) : ∀ {nodes trees : List Node},
    applyAll highlighter strict nodes = .ok trees →
      List.Forall₂ (IsHighlighted highlighter) nodes trees
  | [], trees, done => by
      cases done
      exact .nil
  | node :: rest, trees, done => by
      obtain ⟨first, others, here, behind, rfl⟩ := applyAll_cons_eq_ok.1 done
      exact .cons (isHighlighted_apply succeeds here) (isHighlighted_applyAll succeeds behind)

end

/-- The highlighted nodes stand at the places of the nodes. -/
theorem exists_getElem?_applyAll {nodes trees : List Node} {node : Node}
    (done : applyAll highlighter strict nodes = .ok trees) {index : Nat}
    (there : nodes[index]? = some node) :
    ∃ tree, trees[index]? = some tree ∧ apply highlighter strict node = .ok tree := by
  induction nodes generalizing trees index with
  | nil => cases there
  | cons first rest ih =>
      obtain ⟨tree, others, here, behind, rfl⟩ := applyAll_cons_eq_ok.1 done
      cases index with
      | zero =>
          cases there
          exact ⟨tree, rfl, here⟩
      | succ index => exact ih behind there

/-- At every place of a tree, highlighting the tree is highlighting what is there. -/
theorem exists_at?_apply {path : List Nat} : ∀ {node tree inner : Node},
    apply highlighter strict node = .ok tree → node.at? path = some inner →
      ∃ later, tree.at? path = some later ∧ apply highlighter strict inner = .ok later := by
  induction path with
  | nil =>
      intro node tree inner done there
      cases there
      exact ⟨tree, rfl, done⟩
  | cons index path ih =>
      intro node tree inner done there
      obtain ⟨kind, children⟩ := node
      obtain ⟨child, here, inside⟩ := at?_cons_eq_some_iff.1 there
      obtain ⟨language, code, target, -⟩ | ⟨-, nodes, below, rfl⟩ := apply_cases done
      · obtain ⟨-, rfl, -⟩ := isTarget_of_target? target
        cases here
      · obtain ⟨next, found, applied⟩ := exists_getElem?_applyAll below here
        obtain ⟨later, place, same⟩ := ih applied inside
        exact ⟨later, at?_cons_eq_some_iff.2 ⟨next, found, place⟩, same⟩

/-! ### Highlighting twice -/

theorem applyAll_tokenNodes (tokens : List Token) :
    applyAll highlighter strict (tokens.map tokenNode) = .ok (tokens.map tokenNode) := by
  induction tokens with
  | nil => rfl
  | cons token rest ih =>
      have own : apply highlighter strict (tokenNode token) = .ok (tokenNode token) := by
        obtain ⟨cls, text⟩ := token
        cases cls <;> rfl
      rw [List.map_cons, applyAll_cons_eq_ok]
      exact ⟨_, _, own, ih, rfl⟩

mutual

/-- A tree that has been highlighted stays as it is. -/
theorem apply_apply : ∀ {node tree : Node}, apply highlighter strict node = .ok tree →
    apply highlighter strict tree = .ok tree
  | ⟨kind, children⟩, tree, done => by
      obtain ⟨language, code, target, tokens, -, rfl⟩ | ⟨target, nodes, below, rfl⟩ := apply_cases done
      · obtain ⟨-, rfl, -⟩ := isTarget_of_target? target
        -- A block whose code came to no tokens is still to be split, and comes to none again.
        cases tokens with
        | nil => exact done
        | cons token rest =>
            have split : target? ⟨kind, (token :: rest).map tokenNode⟩ = none := target?_cons _ _ _
            rw [apply_other split, map_eq_ok_iff]
            exact ⟨_, applyAll_tokenNodes (token :: rest), rfl⟩
      · have still := target?_eq_none_of_isEmpty (isEmpty_applyAll below).symm target
        rw [apply_other still, map_eq_ok_iff]
        exact ⟨nodes, applyAll_applyAll below, rfl⟩

theorem applyAll_applyAll : ∀ {nodes trees : List Node},
    applyAll highlighter strict nodes = .ok trees → applyAll highlighter strict trees = .ok trees
  | [], trees, done => by
      cases done
      rfl
  | node :: rest, trees, done => by
      obtain ⟨first, others, here, behind, rfl⟩ := applyAll_cons_eq_ok.1 done
      exact applyAll_cons_eq_ok.2 ⟨first, others, apply_apply here, applyAll_applyAll behind, rfl⟩

end

/-- Where no grammar fails, a tree is refused exactly when the stage is strict and there is a block without
children whose language has no grammar, and the refusal names the language of the first such block in
document order. In every other tree the blocks without children whose language has a grammar get children
whose text is their code, and nothing else is changed. So the text at every place stays, and highlighting
the result changes nothing. -/
theorem apply_blocks (succeeds : Succeeds highlighter) (strict : Bool) (tree : Node) :
    ((∃ fault, apply highlighter strict tree = .error fault) ↔
      strict = true ∧ ∃ block ∈ tree.walk, ∃ language, IsUnknown highlighter language block) ∧
    (∀ fault, apply highlighter strict tree = .error fault →
      ∃ before block behind language, tree.walk = before ++ block :: behind ∧
        IsUnknown highlighter language block ∧
        (∀ earlier ∈ before, ∀ other, ¬IsUnknown highlighter other earlier) ∧
        fault = .unsupportedLanguage language) ∧
    ∀ done, apply highlighter strict tree = .ok done →
      IsHighlighted highlighter tree done ∧
      (∀ path inner, tree.at? path = some inner →
        ∃ later, done.at? path = some later ∧ later.textContent = inner.textContent) ∧
      apply highlighter strict done = .ok done := by
  have refuses := refuses_apply succeeds strict tree
  refine ⟨?_, fun fault refused => ?_, fun done applied => ?_⟩
  · simp only [refuses _, refusal?_eq_some_iff]
    constructor
    · rintro ⟨fault, strictly, language, found, -⟩
      obtain ⟨block, member, unknown⟩ := List.exists_of_findSome?_eq_some found
      exact ⟨strictly, block, member, language, unknown?_eq_some_iff.1 unknown⟩
    · rintro ⟨strictly, block, member, language, unknown⟩
      have isSome := List.findSome?_isSome_iff.2
        ⟨block, member, Option.isSome_iff_exists.2 ⟨language, unknown?_eq_some_iff.2 unknown⟩⟩
      obtain ⟨first, found⟩ := Option.isSome_iff_exists.1 isSome
      exact ⟨_, strictly, first, found, rfl⟩
  · obtain ⟨-, language, found, same⟩ := refusal?_eq_some_iff.1 ((refuses fault).1 refused)
    obtain ⟨before, block, behind, order, unknown, clear⟩ := List.findSome?_eq_some_iff.1 found
    refine ⟨before, block, behind, language, order, unknown?_eq_some_iff.1 unknown, ?_, same.symm⟩
    intro earlier member other unknown
    have found := unknown?_eq_some_iff.2 unknown
    rw [clear earlier member] at found
    cases found
  · refine ⟨isHighlighted_apply succeeds applied, fun path inner there => ?_, apply_apply applied⟩
    obtain ⟨later, place, same⟩ := exists_at?_apply applied there
    exact ⟨later, place, textContent_apply same⟩

/-- A document with settings in YAML and a text in no language. -/
def settings : Node :=
  document [leaf (.codeBlock (some "yaml") none "a: 1\n"), leaf (.codeBlock none none "a: 1\n")]

/-- The strict stage highlights a document whose only language has a grammar. -/
theorem apply_blocks_settings :
    Succeeds standard ∧ ∃ done, apply standard true settings = .ok done ∧
      IsHighlighted standard settings done ∧ apply standard true done = .ok done := by
  have known : standard.supports "yaml" = true := by decide +kernel
  obtain ⟨fails, -, succeeds⟩ := apply_blocks succeeds_standard true settings
  refine ⟨succeeds_standard, ?_⟩
  cases applied : apply standard true settings with
  | error fault =>
      obtain ⟨-, block, member, language, unknown, code, bare⟩ := fails.1 ⟨fault, applied⟩
      rcases List.mem_cons.1 member with rfl | member
      · cases bare
      rcases List.mem_cons.1 member with rfl | member
      · cases bare
        rw [known] at unknown
        cases unknown
      · obtain rfl := List.mem_singleton.1 member
        cases bare
  | ok done =>
      obtain ⟨highlighted, -, again⟩ := succeeds done applied
      exact ⟨done, rfl, highlighted, again⟩

end DocPress.Highlight
