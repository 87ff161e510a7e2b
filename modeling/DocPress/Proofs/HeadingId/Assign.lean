import Mathlib.Data.List.Forall2
import DocPress.Proofs.HeadingId

/-!
The ids that headings get. Giving ids to a tree is giving them to the headings in it one after the
other. Those that have ids keep them. Every other one gets its slug, or the slug with the smallest
number behind it, that is neither an id in the document nor one made for a heading before it.
-/

namespace DocPress.HeadingId

open Node

/-! ### The first free id -/

/-- Whether an id is the first one that is free: a text, or if that is taken, the text with the smallest
number from 2 on behind it. -/
inductive IsFirstFree (taken : List String) (base : String) : String → Prop
  | plain (free : base ∉ taken) : IsFirstFree taken base base
  | suffixed {n : Nat} (used : base ∈ taken) (two : 2 ≤ n) (free : numbered base n ∉ taken)
      (least : ∀ k, 2 ≤ k → k < n → numbered base k ∈ taken) : IsFirstFree taken base (numbered base n)

section

variable {taken taken' : List String} {base id : String}

/-- Which ids are taken matters, not where. -/
theorem IsFirstFree.congr (first : IsFirstFree taken base id)
    (same : ∀ other, other ∈ taken ↔ other ∈ taken') : IsFirstFree taken' base id := by
  cases first with
  | plain free => exact .plain (mt (same _).2 free)
  | suffixed used two free least =>
      exact .suffixed ((same _).1 used) two (mt (same _).2 free)
        fun k above below => (same _).1 (least k above below)

end

/-! ### Headings one after the other -/

/-- A heading as it is for giving ids: the id it has, if any, and its text. -/
structure Heading where
  id : Option String
  text : String

/-- The heading that a node is. -/
def heading? (node : Node) : Option Heading :=
  match node.kind with
  | .heading _ id => some ⟨id, node.textContent⟩
  | _ => none

/-- The headings of a tree in document order. -/
def headings (node : Node) : List Heading :=
  node.walk.filterMap heading?

/-- The headings of trees in document order. -/
def headingsAll (nodes : List Node) : List Heading :=
  (walkAll nodes).filterMap heading?

/-- The ids at the headings that have none. -/
def made (headings : List Heading) (ids : List String) : List String :=
  (headings.zip ids).filterMap fun item => if item.1.id.isNone then some item.2 else none

/-- The ids for headings. -/
def names (taken : List String) : List Heading → List String
  | [] => []
  | ⟨some id, _⟩ :: rest => id :: names taken rest
  | ⟨none, text⟩ :: rest => unique taken text :: names (unique taken text :: taken) rest

/-- The ids that are taken when headings have got theirs. -/
def takenAfter (taken : List String) : List Heading → List String
  | [] => taken
  | ⟨some _, _⟩ :: rest => takenAfter taken rest
  | ⟨none, text⟩ :: rest => takenAfter (unique taken text :: taken) rest

section

variable {taken ids : List String} {rest : List Heading} {id text : String}

theorem names_append (taken : List String) (first second : List Heading) :
    names taken (first ++ second) = names taken first ++ names (takenAfter taken first) second := by
  induction first generalizing taken with
  | nil => rfl
  | cons heading rest ih =>
      obtain ⟨_ | id, text⟩ := heading <;> exact congrArg (List.cons _) (ih _)

theorem takenAfter_append (taken : List String) (first second : List Heading) :
    takenAfter taken (first ++ second) = takenAfter (takenAfter taken first) second := by
  induction first generalizing taken with
  | nil => rfl
  | cons heading rest ih => obtain ⟨_ | id, text⟩ := heading <;> exact ih _

end

/-! ### Headings in trees -/

section

theorem headings_mk (kind : NodeKind) (children : List Node) : headings ⟨kind, children⟩ =
    (heading? ⟨kind, children⟩).toList ++ headingsAll children := by
  rw [headings, walk, headingsAll]
  cases here : heading? ⟨kind, children⟩ with
  | none => exact List.filterMap_cons_none here
  | some heading => exact List.filterMap_cons_some here

theorem headingsAll_cons (node : Node) (rest : List Node) :
    headingsAll (node :: rest) = headings node ++ headingsAll rest := by
  rw [headingsAll, walkAll, List.filterMap_append]
  rfl

/-- The ids of the headings of trees. -/
def givenAll (nodes : List Node) : List String :=
  (kindsAll nodes).filterMap NodeKind.headingId?

theorem given_mk (kind : NodeKind) (children : List Node) :
    given ⟨kind, children⟩ = kind.headingId?.toList ++ givenAll children := by
  rw [given_eq, kinds_mk, givenAll]
  cases here : kind.headingId? with
  | none => exact List.filterMap_cons_none here
  | some id => exact List.filterMap_cons_some here

theorem givenAll_cons (node : Node) (rest : List Node) :
    givenAll (node :: rest) = given node ++ givenAll rest := by
  rw [givenAll, kindsAll_cons, List.filterMap_append]
  rfl

mutual

/-- A tree gets the ids that its headings get. -/
theorem given_assign : ∀ (node : Node) (taken : List String),
    given (assign taken node).1 = names taken (headings node) ∧
      (assign taken node).2 = takenAfter taken (headings node)
  | ⟨kind, children⟩, taken => by
      cases unnamed : kind.isUnnamedHeading with
      | false =>
          obtain ⟨ids, after⟩ := given_assignAll children taken
          have own : names taken (heading? ⟨kind, children⟩).toList = kind.headingId?.toList ∧
              takenAfter taken (heading? ⟨kind, children⟩).toList = taken := by
            cases kind with
            | heading level id =>
                cases id with
                | none => cases unnamed
                | some id => exact ⟨rfl, rfl⟩
            | _ => exact ⟨rfl, rfl⟩
          rw [assign_other unnamed, given_mk, headings_mk, names_append, takenAfter_append, own.1,
            own.2]
          exact ⟨congrArg _ ids, after⟩
      | true =>
          unfold NodeKind.isUnnamedHeading at unnamed
          split at unnamed
          · next level =>
              obtain ⟨ids, after⟩ := given_assignAll children
                (unique taken (Node.mk (.heading level none) children).textContent :: taken)
              rw [assign_heading, given_mk, headings_mk]
              exact ⟨congrArg (List.cons _) ids, after⟩
          · cases unnamed

theorem given_assignAll : ∀ (nodes : List Node) (taken : List String),
    givenAll (assignAll taken nodes).1 = names taken (headingsAll nodes) ∧
      (assignAll taken nodes).2 = takenAfter taken (headingsAll nodes)
  | [], taken => ⟨rfl, rfl⟩
  | node :: rest, taken => by
      obtain ⟨ids, after⟩ := given_assign node taken
      obtain ⟨others, later⟩ := given_assignAll rest (assign taken node).2
      rw [assignAll, givenAll_cons, headingsAll_cons, names_append, takenAfter_append, ids, ← after]
      exact ⟨congrArg _ others, later⟩

end

/-- Whether a tree is another one whose headings have got ids where they had none. -/
inductive IsNamed : Node → Node → Prop
  | heading {level : UInt8} {id : String} {old new : List Node} (below : List.Forall₂ IsNamed old new) :
      IsNamed ⟨.heading level none, old⟩ ⟨.heading level (some id), new⟩
  | other {kind : NodeKind} {old new : List Node} (named : kind.isUnnamedHeading = false)
      (below : List.Forall₂ IsNamed old new) : IsNamed ⟨kind, old⟩ ⟨kind, new⟩

mutual

/-- Giving ids changes nothing else. -/
theorem isNamed_assign : ∀ (node : Node) (taken : List String), IsNamed node (assign taken node).1
  | ⟨kind, children⟩, taken => by
      cases unnamed : kind.isUnnamedHeading with
      | false =>
          rw [assign_other unnamed]
          exact .other unnamed (isNamed_assignAll children taken)
      | true =>
          unfold NodeKind.isUnnamedHeading at unnamed
          split at unnamed
          · rw [assign_heading]
            exact .heading (isNamed_assignAll children _)
          · cases unnamed

theorem isNamed_assignAll : ∀ (nodes : List Node) (taken : List String),
    List.Forall₂ IsNamed nodes (assignAll taken nodes).1
  | [], _ => .nil
  | node :: rest, taken => .cons (isNamed_assign node taken) (isNamed_assignAll rest _)

end

mutual

/-- No heading is left without an id. -/
theorem IsNamed.every : ∀ {node tree : Node}, IsNamed node tree →
    Every (fun kind => kind.isUnnamedHeading = false) tree
  | ⟨_, _⟩, _, .heading below => every_mk.2 ⟨rfl, everyAll_of_isNamed below⟩
  | ⟨_, _⟩, _, .other named below => every_mk.2 ⟨named, everyAll_of_isNamed below⟩

theorem everyAll_of_isNamed : ∀ {nodes trees : List Node}, List.Forall₂ IsNamed nodes trees →
    EveryAll (fun kind => kind.isUnnamedHeading = false) trees
  | [], _, .nil => everyAll_nil
  | _ :: _, _, .cons here behind => everyAll_cons.2 ⟨here.every, everyAll_of_isNamed behind⟩

end

mutual

/-- Where all headings have ids, there is nothing to do. -/
theorem assign_eq_self : ∀ {node : Node}, Every (fun kind => kind.isUnnamedHeading = false) node →
    ∀ taken, assign taken node = (node, taken)
  | ⟨kind, children⟩, named, taken => by
      obtain ⟨own, below⟩ := every_mk.1 named
      rw [assign_other own, assignAll_eq_self below]

theorem assignAll_eq_self : ∀ {nodes : List Node},
    EveryAll (fun kind => kind.isUnnamedHeading = false) nodes →
      ∀ taken, assignAll taken nodes = (nodes, taken)
  | [], _, _ => rfl
  | node :: rest, named, taken => by
      obtain ⟨here, behind⟩ := everyAll_cons.1 named
      rw [assignAll, assign_eq_self here]
      dsimp only
      rw [assignAll_eq_self behind]

end

end

/-! ### Repeated ids -/

example :
    let heading id := leaf (.heading 2 id)
    given (apply (document [heading none, heading none, heading (some "heading-2"), heading none])).1 =
      ["heading", "heading-3", "heading-2", "heading-4"] := by
  cbv

end DocPress.HeadingId
