import DocPress.HeadingId
import DocPress.Highlight
import DocPress.Proofs.Node
import DocPress.Proofs.Result
import DocPress.Proofs.Text

/-!
Highlighting and the ids of headings. The tokens of a code make up the code, so that highlighting
changes no text; and since it touches no heading either, headings get the same ids before it and after
it.
-/

namespace DocPress

/-! ### Tokens -/

namespace Syntax

/-- The code that tokens make up. -/
def codeOf (tokens : List Token) : List Char :=
  tokens.flatMap (·.text)

/-- A token adds its text to the code. -/
theorem codeOf_addToken (cls : Option String) (text : List Char) (tokens : List Token) :
    codeOf (addToken cls text tokens).reverse = codeOf tokens.reverse ++ text := by
  unfold addToken
  split
  · next empty => simp [List.isEmpty_iff.1 empty]
  · cases tokens with
    | nil => simp [codeOf]
    | cons token rest =>
        dsimp only
        split <;> simp [codeOf]

/-- The tokens of a line make up the line. -/
theorem codeOf_splitLine {ops : LineOps} :
    ∀ {stack after : ScopeStack} {tokens more : List Token} {done : Nat} {rest : List Char},
      splitLine stack tokens done rest ops = .ok (after, more) →
        codeOf more.reverse = codeOf tokens.reverse ++ rest := by
  induction ops with
  | nil =>
      intro stack after tokens more done rest split
      cases split
      exact codeOf_addToken _ _ _
  | cons op ops ih =>
      intro stack after tokens more done rest split
      obtain ⟨place, op⟩ := op
      rw [splitLine] at split
      cases next : stack.after? op with
      | none => simp only [next] at split; cases split
      | some scopes =>
          simp only [next] at split
          rw [ih split, codeOf_addToken, List.append_assoc, List.take_append_drop]

/-- Splitting lines into tokens keeps their code. -/
theorem codeOf_splitLines {lines : List (List Char × LineOps)} :
    ∀ {stack : ScopeStack} {tokens more : List Token}, splitLines stack tokens lines = .ok more →
      codeOf more.reverse = codeOf tokens.reverse ++ (lines.map (·.1)).flatten := by
  induction lines with
  | nil =>
      intro stack tokens more split
      cases split
      simp
  | cons line lines ih =>
      intro stack tokens more split
      rw [splitLines, bind_eq_ok_iff] at split
      obtain ⟨⟨after, next⟩, first, behind⟩ := split
      rw [ih behind, codeOf_splitLine first]
      simp

/-- Pairing lines with their operations keeps the lines. -/
theorem map_fst_pairLines (lines : List (List Char)) (ops : List LineOps) :
    (pairLines lines ops).map (·.1) = lines := by
  induction lines generalizing ops with
  | nil => rfl
  | cons line lines ih => cases ops <;> simp [pairLines, ih]

/-- The tokens of a code make up the code, whatever the grammar is. -/
theorem Highlighter.codeOf_tokenize {highlighter : Highlighter} {code language : String}
    {tokens : List Token} (split : highlighter.tokenize code language = .ok tokens) :
    codeOf tokens = code.toList := by
  rw [tokenize] at split
  cases known : highlighter.grammar? language with
  | none => rw [known] at split; cases split
  | some read =>
      rw [known] at split
      dsimp only at split
      rw [tokenizeWith, tokensOf, map_eq_ok_iff] at split
      obtain ⟨reversed, lines, rfl⟩ := split
      rw [codeOf_splitLines lines, map_fst_pairLines, Text.flatten_linesWithEnds]
      rfl

end Syntax

namespace Highlight

open Node
open Syntax (Highlighter Token codeOf)

/-! ### Text -/

/-- The text of a token's node is that of the token. -/
theorem textContent_tokenNode (token : Token) :
    (tokenNode token).textContent = String.ofList token.text := by
  obtain ⟨cls, text⟩ := token
  cases cls <;> simp [tokenNode, Node.text, leaf, textContent, textContentAll, ownText]

theorem textContentAll_tokenNodes (tokens : List Token) :
    textContentAll (tokens.map tokenNode) = String.ofList (codeOf tokens) := by
  induction tokens with
  | nil => rfl
  | cons token rest ih =>
      rw [List.map_cons, textContentAll, textContent_tokenNode, ih, codeOf, codeOf,
        List.flatMap_cons, String.ofList_append]

/-- A block that is to be split is code without children, and its code is its text as long as it has
none. -/
structure IsTarget (kind : NodeKind) (children : List Node) (code : String) : Prop where
  isCode : kind.isCode = true
  bare : children = []
  ownText : ∀ nodes, ownText ⟨kind, nodes⟩ = if nodes.isEmpty then code else ""

/-- A node that is found to be highlighted is a code block with a language that shows its own code. -/
theorem isTarget_of_target? {kind : NodeKind} {children : List Node} {language code : String}
    (target : target? ⟨kind, children⟩ = some (language, code)) : IsTarget kind children code := by
  unfold target? at target
  split at target
  · next same =>
      cases same
      cases target
      exact ⟨rfl, rfl, fun nodes => by cases nodes <;> rfl⟩
  · next same =>
      cases same
      cases target
      exact ⟨rfl, rfl, fun nodes => by cases nodes <;> rfl⟩
  · cases target

/-- Blocks with children are not to be split. -/
theorem target?_cons (kind : NodeKind) (child : Node) (rest : List Node) :
    target? ⟨kind, child :: rest⟩ = none := by
  unfold target?
  split
  · next same => cases same
  · next same => cases same
  · rfl

/-- Whether a block is to be split depends on whether it has children, not on them. -/
theorem target?_eq_none_of_isEmpty {kind : NodeKind} {children others : List Node}
    (same : children.isEmpty = others.isEmpty) (none : target? ⟨kind, children⟩ = none) :
    target? ⟨kind, others⟩ = .none := by
  cases others with
  | nil => rwa [List.isEmpty_iff.1 same] at none
  | cons other more => exact target?_cons kind other more

/-- The nodes that a code is split into have it as their text, and they are none for a code of an
unknown language. -/
theorem tokenNodes_eq_ok {highlighter : Highlighter} {strict : Bool} {language code : String}
    {nodes : List Node} (split : tokenNodes highlighter strict language code = .ok nodes) :
    ∃ tokens : List Token, nodes = tokens.map tokenNode ∧
      (nodes = [] ∨ textContentAll nodes = code) := by
  rw [tokenNodes] at split
  split at split
  · next tokens found =>
      cases split
      refine ⟨tokens, rfl, .inr ?_⟩
      rw [textContentAll_tokenNodes, Highlighter.codeOf_tokenize found, String.ofList_toList]
  · split at split
    · cases split
    · cases split
      exact ⟨[], rfl, .inl rfl⟩
  · cases split

/-- A code block to be highlighted gets its tokens as children. -/
theorem apply_target {highlighter : Highlighter} {strict : Bool} {kind : NodeKind}
    {children : List Node} {language code : String}
    (target : target? ⟨kind, children⟩ = some (language, code)) :
    apply highlighter strict ⟨kind, children⟩ =
      (tokenNodes highlighter strict language code).map (⟨kind, ·⟩) := by
  simp only [apply, target]
  cases tokenNodes highlighter strict language code <;> rfl

/-- Any other node is highlighted in its children. -/
theorem apply_other {highlighter : Highlighter} {strict : Bool} {kind : NodeKind}
    {children : List Node} (other : target? ⟨kind, children⟩ = none) :
    apply highlighter strict ⟨kind, children⟩ =
      (applyAll highlighter strict children).map (⟨kind, ·⟩) := by
  simp only [apply, other]
  cases applyAll highlighter strict children <;> rfl

variable {highlighter : Highlighter} {strict : Bool}

/-- Highlighting puts the tokens of code below it, and below any other node what was there, highlighted. -/
theorem apply_cases {kind : NodeKind} {children : List Node} {tree : Node}
    (done : apply highlighter strict ⟨kind, children⟩ = .ok tree) :
    (∃ language code, target? ⟨kind, children⟩ = some (language, code) ∧
      ∃ tokens : List Token, tokenNodes highlighter strict language code = .ok (tokens.map tokenNode) ∧
        tree = ⟨kind, tokens.map tokenNode⟩) ∨
    (target? ⟨kind, children⟩ = none ∧
      ∃ nodes, applyAll highlighter strict children = .ok nodes ∧ tree = ⟨kind, nodes⟩) := by
  cases target : target? ⟨kind, children⟩ with
  | some found =>
      rw [apply_target target, map_eq_ok_iff] at done
      obtain ⟨nodes, split, rfl⟩ := done
      obtain ⟨tokens, rfl, -⟩ := tokenNodes_eq_ok split
      exact .inl ⟨_, _, rfl, tokens, split, rfl⟩
  | none =>
      rw [apply_other target, map_eq_ok_iff] at done
      obtain ⟨nodes, below, rfl⟩ := done
      exact .inr ⟨rfl, nodes, below, rfl⟩

theorem applyAll_cons_eq_ok {node : Node} {rest nodes : List Node} :
    applyAll highlighter strict (node :: rest) = .ok nodes ↔
      ∃ first others, apply highlighter strict node = .ok first ∧
        applyAll highlighter strict rest = .ok others ∧ nodes = first :: others := by
  rw [applyAll, bind_eq_ok_iff]
  simp only [bind_eq_ok_iff, pure_eq_ok_iff]
  constructor
  · rintro ⟨first, here, others, behind, same⟩
    exact ⟨first, others, here, behind, same.symm⟩
  · rintro ⟨first, others, here, behind, same⟩
    exact ⟨first, here, others, behind, same.symm⟩

theorem isEmpty_applyAll {children nodes : List Node}
    (done : applyAll highlighter strict children = .ok nodes) :
    nodes.isEmpty = children.isEmpty := by
  cases children with
  | nil => cases done; rfl
  | cons child rest =>
      obtain ⟨first, others, -, -, rfl⟩ := applyAll_cons_eq_ok.1 done
      rfl

/-- What a node adds to the text of its tree depends on whether it has children, not on them. -/
theorem ownText_congr {kind : NodeKind} {children others : List Node}
    (same : children.isEmpty = others.isEmpty) :
    ownText ⟨kind, children⟩ = ownText ⟨kind, others⟩ := by
  cases children with
  | nil => rw [List.isEmpty_iff.1 same.symm]
  | cons child rest =>
      cases others with
      | nil => cases same
      | cons other more => cases kind <;> rfl

mutual

/-- Highlighting changes no text. -/
theorem textContent_apply : ∀ {node tree : Node}, apply highlighter strict node = .ok tree →
    tree.textContent = node.textContent
  | ⟨kind, children⟩, tree, done => by
      obtain ⟨language, code, target, tokens, split, rfl⟩ | ⟨-, nodes, below, rfl⟩ := apply_cases done
      · obtain ⟨-, rfl, own⟩ := isTarget_of_target? target
        obtain ⟨-, -, none | text⟩ := tokenNodes_eq_ok split
        · rw [none]
        · cases tokens with
          | nil => rfl
          | cons first rest =>
              rw [textContent, textContent, own, own, text]
              simp [textContentAll]
      · rw [textContent, textContent, textContentAll_apply below,
          ownText_congr (isEmpty_applyAll below)]

theorem textContentAll_apply : ∀ {nodes trees : List Node},
    applyAll highlighter strict nodes = .ok trees → textContentAll trees = textContentAll nodes
  | [], trees, done => by
      cases done
      rfl
  | node :: rest, trees, done => by
      obtain ⟨first, others, here, behind, rfl⟩ := applyAll_cons_eq_ok.1 done
      rw [textContentAll, textContentAll, textContent_apply here, textContentAll_apply behind]

end

/-! ### Failures -/

/-- Whether a grammar of the highlighter fails on a code. -/
def FailsOn (highlighter : Highlighter) (language code : String) : Prop :=
  highlighter.tokenize code language = .error .nothingToRestore

/-- A stage that is not strict fails only where a grammar does. -/
theorem tokenNodes_eq_error {language code : String} {fault : StageError}
    (failed : tokenNodes highlighter false language code = .error fault) :
    FailsOn highlighter language code := by
  rw [tokenNodes] at failed
  split at failed
  · cases failed
  · cases failed
  · next cause other found =>
      cases cause with
      | unknownLanguage language => exact absurd rfl (other language)
      | nothingToRestore => exact found

mutual

/-- Without strictness only the highlighter itself can fail, at some code block of the tree. -/
theorem exists_failsOn : ∀ {node : Node} {fault : StageError},
    apply highlighter false node = .error fault → ∃ language code, FailsOn highlighter language code
  | ⟨kind, children⟩, fault, failed => by
      cases target : target? ⟨kind, children⟩ with
      | some found =>
          rw [apply_target target, map_eq_error_iff] at failed
          exact ⟨_, _, tokenNodes_eq_error failed⟩
      | none =>
          rw [apply_other target, map_eq_error_iff] at failed
          exact exists_failsOn_all failed

theorem exists_failsOn_all : ∀ {nodes : List Node} {fault : StageError},
    applyAll highlighter false nodes = .error fault → ∃ language code, FailsOn highlighter language code
  | [], fault, failed => by cases failed
  | node :: rest, fault, failed => by
      rw [applyAll] at failed
      cases here : apply highlighter false node with
      | error cause => exact exists_failsOn here
      | ok first =>
          cases behind : applyAll highlighter false rest with
          | error cause => exact exists_failsOn_all behind
          | ok others => rw [here, behind] at failed; cases failed

end

end Highlight

/-! ### Ids -/

/-- Whether the kind is a heading without an id. -/
def NodeKind.isUnnamedHeading : NodeKind → Bool
  | .heading _ none => true
  | _ => false

/-- The id of a heading. -/
def NodeKind.headingId? : NodeKind → Option String
  | .heading _ id => id
  | _ => none

namespace HeadingId

open Node Highlight
open Syntax (Highlighter Token)

variable {highlighter : Highlighter} {strict : Bool}

/-- A node that is no heading without an id stays, with ids below it. -/
theorem assign_other {kind : NodeKind} (other : kind.isUnnamedHeading = false) (taken : List String)
    (children : List Node) :
    assign taken ⟨kind, children⟩ =
      (⟨kind, (assignAll taken children).1⟩, (assignAll taken children).2) := by
  unfold assign
  split
  · next same => cases same; cases other
  · next same => cases same; rfl

theorem isEmpty_assignAll (taken : List String) (nodes : List Node) :
    (assignAll taken nodes).1.isEmpty = nodes.isEmpty := by
  cases nodes <;> rfl

/-- Tokens have no ids. -/
theorem assignAll_tokenNodes (taken : List String) (tokens : List Token) :
    assignAll taken (tokens.map tokenNode) = (tokens.map tokenNode, taken) := by
  induction tokens with
  | nil => rfl
  | cons token rest ih =>
      have own : assign taken (tokenNode token) = (tokenNode token, taken) := by
        obtain ⟨cls, text⟩ := token
        cases cls <;> rfl
      simp only [List.map_cons, assignAll, own, ih]

theorem isUnnamedHeading_of_isCode {kind : NodeKind} (code : kind.isCode = true) :
    kind.isUnnamedHeading = false := by
  cases kind <;> first | rfl | cases code

theorem target?_heading (level : UInt8) (id : Option String) (children : List Node) :
    target? ⟨.heading level id, children⟩ = none := rfl

/-- A heading gets an id from its text. -/
theorem assign_heading (level : UInt8) (taken : List String) (children : List Node) :
    let id := unique taken (Node.mk (.heading level none) children).textContent
    assign taken ⟨.heading level none, children⟩ =
      (⟨.heading level (some id), (assignAll (id :: taken) children).1⟩,
        (assignAll (id :: taken) children).2) := rfl

/-- Whether giving ids before highlighting has the same result as giving them to what highlighting
makes of a tree, and takes the same ids. -/
def Commutes {α : Type} (assign : α → α × List String) (highlight : α → Except StageError α)
    (tree : α) : Prop :=
  highlight (assign tree).1 = (highlight tree).map (fun done => (assign done).1) ∧
    ∀ done, highlight tree = .ok done → (assign done).2 = (assign tree).2

/-- Ids are given below a node with its tokens as if it had none. -/
theorem commutes_of_target? {kind : NodeKind} {children : List Node} {found : String × String}
    (target : target? ⟨kind, children⟩ = some found) (taken : List String) :
    Commutes (assign taken) (Highlight.apply highlighter strict) ⟨kind, children⟩ := by
  obtain ⟨code, rfl, -⟩ := isTarget_of_target? target
  have other := isUnnamedHeading_of_isCode code
  have stays (tokens : List Token) :
      assign taken ⟨kind, tokens.map tokenNode⟩ = (⟨kind, tokens.map tokenNode⟩, taken) := by
    rw [assign_other other, assignAll_tokenNodes]
  have bare : assign taken ⟨kind, []⟩ = (⟨kind, []⟩, taken) := stays []
  rw [Commutes, bare, apply_target target]
  cases split : tokenNodes highlighter strict found.1 found.2 with
  | error cause => exact ⟨rfl, by rintro _ ⟨⟩⟩
  | ok nodes =>
      obtain ⟨tokens, rfl, -⟩ := tokenNodes_eq_ok split
      refine ⟨by simp [Except.map, stays], ?_⟩
      rintro _ ⟨⟩
      rw [stays]

/-- Ids are given to a heading and below it as if nothing were highlighted. -/
theorem commutes_heading (level : UInt8) {children : List Node}
    (below : ∀ taken, Commutes (assignAll taken) (applyAll highlighter strict) children)
    (taken : List String) :
    Commutes (assign taken) (Highlight.apply highlighter strict) ⟨.heading level none, children⟩ := by
  have inside := below (unique taken (Node.mk (.heading level none) children).textContent :: taken)
  rw [Commutes, assign_heading, apply_other (target?_heading _ _ _),
    apply_other (target?_heading _ _ _), inside.1]
  cases done : applyAll highlighter strict children with
  | error cause => exact ⟨rfl, by rintro _ ⟨⟩⟩
  | ok nodes =>
      have text : (Node.mk (.heading level none) nodes).textContent =
          (Node.mk (.heading level none) children).textContent := by
        rw [textContent, textContent, textContentAll_apply done]
        rfl
      have same := inside.2 nodes done
      refine ⟨?_, ?_⟩
      · simp [Except.map, assign_heading, text]
      · rintro _ ⟨⟩
        simp [assign_heading, text, same]

/-- Ids are given below any other node as if nothing were highlighted. -/
theorem commutes_other {kind : NodeKind} {children : List Node}
    (other : kind.isUnnamedHeading = false) (none : target? ⟨kind, children⟩ = none)
    (below : ∀ taken, Commutes (assignAll taken) (applyAll highlighter strict) children)
    (taken : List String) :
    Commutes (assign taken) (Highlight.apply highlighter strict) ⟨kind, children⟩ := by
  have still := target?_eq_none_of_isEmpty (isEmpty_assignAll taken children).symm none
  rw [Commutes, assign_other other, apply_other none, apply_other still, (below taken).1]
  cases done : applyAll highlighter strict children with
  | error cause => exact ⟨rfl, by rintro _ ⟨⟩⟩
  | ok nodes =>
      have same := (below taken).2 nodes done
      refine ⟨?_, ?_⟩
      · simp [Except.map, assign_other other]
      · rintro _ ⟨⟩
        simp [assign_other other, same]

mutual

/-- Headings get the same ids before highlighting and after it. -/
theorem assign_commutes : ∀ (node : Node) (taken : List String),
    Commutes (assign taken) (Highlight.apply highlighter strict) node
  | ⟨kind, children⟩, taken => by
      cases target : target? ⟨kind, children⟩ with
      | some found => exact commutes_of_target? target taken
      | none =>
          cases unnamed : kind.isUnnamedHeading with
          | false => exact commutes_other unnamed target (assignAll_commutes children) taken
          | true =>
              unfold NodeKind.isUnnamedHeading at unnamed
              split at unnamed
              · exact commutes_heading _ (assignAll_commutes children) taken
              · cases unnamed

/-- Giving ids to trees and highlighting them commute. -/
theorem assignAll_commutes : ∀ (nodes : List Node) (taken : List String),
    Commutes (assignAll taken) (applyAll highlighter strict) nodes
  | [], taken => ⟨rfl, by rintro _ ⟨⟩; rfl⟩
  | node :: rest, taken => by
      have head := assign_commutes node taken
      have tail := assignAll_commutes rest (assign taken node).2
      rw [Commutes] at head tail ⊢
      simp only [assignAll, applyAll, head.1, tail.1]
      cases here : Highlight.apply highlighter strict node with
      | error cause => exact ⟨rfl, by rintro _ ⟨⟩⟩
      | ok first =>
          have same := head.2 first here
          cases behind : applyAll highlighter strict rest with
          | error cause => exact ⟨rfl, by rintro _ ⟨⟩⟩
          | ok others =>
              have more := tail.2 others behind
              refine ⟨?_, ?_⟩
              · simp [Except.map, bind, Except.bind, pure, Except.pure, assignAll, same]
              · rintro _ ⟨⟩
                simp [assignAll, same, more]

end

/-! ### Given ids -/

theorem given_eq (node : Node) : given node = node.kinds.filterMap NodeKind.headingId? := rfl

/-- There are no headings among tokens. -/
theorem headingIds_tokenNodes (tokens : List Token) :
    (kindsAll (tokens.map tokenNode)).filterMap NodeKind.headingId? = [] := by
  induction tokens with
  | nil => rfl
  | cons token rest ih =>
      have own : (tokenNode token).kinds.filterMap NodeKind.headingId? = [] := by
        obtain ⟨cls, text⟩ := token
        cases cls <;> rfl
      rw [List.map_cons, kindsAll_cons, List.filterMap_append, own, ih, List.append_nil]

mutual

/-- Highlighting changes no id of a heading. -/
theorem headingIds_apply : ∀ {node tree : Node}, Highlight.apply highlighter strict node = .ok tree →
    tree.kinds.filterMap NodeKind.headingId? = node.kinds.filterMap NodeKind.headingId?
  | ⟨kind, children⟩, tree, done => by
      obtain ⟨language, code, target, tokens, -, rfl⟩ | ⟨-, nodes, below, rfl⟩ := apply_cases done
      · obtain ⟨-, rfl, -⟩ := isTarget_of_target? target
        rw [kinds_mk, kinds_mk, List.filterMap_cons, List.filterMap_cons, headingIds_tokenNodes]
        rfl
      · rw [kinds_mk, kinds_mk, List.filterMap_cons, List.filterMap_cons, headingIds_applyAll below]

theorem headingIds_applyAll : ∀ {nodes trees : List Node},
    applyAll highlighter strict nodes = .ok trees →
      (kindsAll trees).filterMap NodeKind.headingId? =
        (kindsAll nodes).filterMap NodeKind.headingId?
  | [], trees, done => by
      cases done
      rfl
  | node :: rest, trees, done => by
      obtain ⟨first, others, here, behind, rfl⟩ := applyAll_cons_eq_ok.1 done
      rw [kindsAll_cons, kindsAll_cons, List.filterMap_append, List.filterMap_append,
        headingIds_apply here, headingIds_applyAll behind]

end

theorem given_apply {node tree : Node} (done : Highlight.apply highlighter strict node = .ok tree) :
    given tree = given node := by
  rw [given_eq, given_eq, headingIds_apply done]

/-- Ids may be given before highlighting or after it: the trees and the warnings are the same, and so
is the failure of a grammar. -/
theorem apply_highlight (highlighter : Highlighter) (strict : Bool) (node : Node) :
    (Highlight.apply highlighter strict (HeadingId.apply node).1).map (·, (HeadingId.apply node).2) =
      (Highlight.apply highlighter strict node).map HeadingId.apply := by
  have same : Highlight.apply highlighter strict (assign (given node) node).1 = _ :=
    (assign_commutes node (given node)).1
  rw [HeadingId.apply, same]
  cases done : Highlight.apply highlighter strict node with
  | error cause => rfl
  | ok tree => simp [Except.map, HeadingId.apply, given_apply done]

end HeadingId

end DocPress
