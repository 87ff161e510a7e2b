import Mathlib.Data.List.TakeWhile
import DocPress.Proofs.Node
import DocPress.Proofs.Page

/-!
The sections of a page. Opened up, they are the nodes they have been made of in the same order. A
section starts with its heading, deeper sections come last in it, and every other node is in the
section of the nearest heading before it, unless a list of footnotes stands between the two.
-/

namespace DocPress

namespace NodeKind

/-- The level of a heading. -/
def level? : NodeKind → Option UInt8
  | .heading level _ => some level
  | _ => none

/-- The depth of a section. -/
def depth? : NodeKind → Option UInt8
  | .section depth => some depth
  | _ => none

/-- Whether no section goes on behind a node of the kind, other than one that it starts. -/
def endsSection : NodeKind → Bool
  | .heading .. | .footnoteList => true
  | _ => false

end NodeKind

namespace Page

open Node

/-! ### What sections hold -/

mutual

/-- A node, or what is in it if it is a section, with what is in the sections there. -/
def opened : Node → List Node
  | ⟨.section _, children⟩ => openedAll children
  | node => [node]

/-- Nodes with what is in sections in place of the sections. -/
def openedAll : List Node → List Node
  | [] => []
  | node :: rest => opened node ++ openedAll rest

end

mutual

/-- A section and the sections directly in it, at every depth. -/
def sectionsOf : Node → List Node
  | ⟨.section depth, children⟩ => ⟨.section depth, children⟩ :: sectionsOfAll children
  | _ => []

/-- The sections among nodes and those directly in them, at every depth. -/
def sectionsOfAll : List Node → List Node
  | [] => []
  | node :: rest => sectionsOf node ++ sectionsOfAll rest

end

mutual

/-- The section that a node is directly in, for each of the nodes of an opened tree. A section goes by
the place of its first node; `home` is the section around the tree, and `start` the place of the first
node of the tree. -/
def homes (home : Option Nat) (start : Nat) : Node → List (Option Nat)
  | ⟨.section _, children⟩ => homesAll (some start) start children
  | _ => [home]

/-- The section that a node is directly in, for each of the nodes of opened trees. -/
def homesAll (home : Option Nat) (start : Nat) : List Node → List (Option Nat)
  | [] => []
  | node :: rest => homes home start node ++ homesAll home (start + (opened node).length) rest

end

/-- Whether nodes are what a section holds: a heading of its level, then nodes that are neither headings
nor sections, then deeper sections. -/
def IsSectionOf (depth : UInt8) (nodes : List Node) : Prop :=
  ∃ heading own inner, nodes = heading :: (own ++ inner) ∧ heading.kind.level? = some depth ∧
    (∀ node ∈ own, node.kind.level? = none ∧ node.kind.depth? = none) ∧
    ∀ node ∈ inner, ∃ deeper ∈ node.kind.depth?, depth < deeper

/-- Whether the nearest heading before a place is at another one, and no list of footnotes is between
the two. -/
structure IsUnderHeading (nodes : List Node) (place heading : Nat) : Prop where
  before : heading < place
  isHeading : ∃ node, nodes[heading]? = some node ∧ node.kind.level? ≠ none
  between : ∀ other node, heading < other → other < place → nodes[other]? = some node →
    node.kind.endsSection = false

/-- Whether trees are nodes put into sections. -/
structure IsSectioned (nodes page : List Node) : Prop where
  opened : openedAll page = nodes
  holds : ∀ node ∈ sectionsOfAll page, ∀ depth, node.kind = .section depth →
    IsSectionOf depth node.children
  /-- There are no sections but these, unless there are sections inside the nodes. -/
  whole : (∀ kind ∈ kindsAll nodes, kind.depth? = none) →
    ∀ node ∈ walkAll page, node.kind.depth? ≠ none → node ∈ sectionsOfAll page
  headings : ∀ (place : Nat) (node : Node), nodes[place]? = some node → node.kind.level? ≠ none →
    (homesAll none 0 page)[place]? = some (some place)
  under : ∀ (place : Nat) (node : Node), nodes[place]? = some node → node.kind.endsSection = false →
    ∃ home, (homesAll none 0 page)[place]? = some home ∧
      ∀ heading, home = some heading ↔ IsUnderHeading nodes place heading
  footnotes : ∀ (place : Nat) (node : Node), nodes[place]? = some node → node.kind = .footnoteList →
    (homesAll none 0 page)[place]? = some none

theorem walkAll_append (first second : List Node) :
    walkAll (first ++ second) = walkAll first ++ walkAll second := by
  induction first with
  | nil => rfl
  | cons node rest ih => rw [List.cons_append, walkAll, walkAll, ih, List.append_assoc]

section

variable {node : Node} {nodes : List Node} {home : Option Nat} {start : Nat}

theorem opened_of_depth? (plain : node.kind.depth? = none) : opened node = [node] := by
  obtain ⟨kind, children⟩ := node
  cases kind <;> first | rfl | cases plain

theorem sectionsOf_of_depth? (plain : node.kind.depth? = none) : sectionsOf node = [] := by
  obtain ⟨kind, children⟩ := node
  cases kind <;> first | rfl | cases plain

theorem homes_of_depth? (plain : node.kind.depth? = none) : homes home start node = [home] := by
  obtain ⟨kind, children⟩ := node
  cases kind <;> first | rfl | cases plain

theorem opened_section (depth : UInt8) (children : List Node) :
    opened ⟨.section depth, children⟩ = openedAll children := by
  rw [opened]

theorem sectionsOf_section (depth : UInt8) (children : List Node) :
    sectionsOf ⟨.section depth, children⟩ = ⟨.section depth, children⟩ :: sectionsOfAll children := by
  rw [sectionsOf]

theorem homes_section (depth : UInt8) (children : List Node) :
    homes home start ⟨.section depth, children⟩ = homesAll (some start) start children := by
  rw [homes]

/-- A kind with a depth is a section. -/
theorem eq_section_of_depth? {kind : NodeKind} {depth : UInt8} (found : kind.depth? = some depth) :
    kind = .section depth := by
  cases kind with
  | «section» other => exact congrArg _ (Option.some.inj found)
  | _ => cases found

theorem endsSection_of_level? {kind : NodeKind} (heading : kind.level? ≠ none) :
    kind.endsSection = true := by
  cases kind <;> first | rfl | exact absurd rfl heading

/-- What ends a section and is no heading is the list of footnotes. -/
theorem eq_footnoteList {kind : NodeKind} (ends : kind.endsSection = true) (other : kind.level? = none) :
    kind = .footnoteList := by
  cases kind with
  | footnoteList => rfl
  | heading => cases other
  | _ => cases ends

theorem level?_eq_none_iff {kind : NodeKind} :
    kind.level? = none ↔ ∀ level id, kind = .heading level id → False := by
  cases kind <;> simp [NodeKind.level?]

/-- What comes behind the nodes under a heading ends its section. -/
theorem endsSection_of_not_isUnder {level : UInt8} (other : isUnder level node = false) :
    node.kind.endsSection = true := by
  unfold isUnder at other
  split at other
  · next kind => rw [kind]; rfl
  · next kind => rw [kind]; rfl
  · cases other

/-- Of the nodes under a heading, only headings end a section. -/
theorem level?_of_isUnder {level : UInt8} (under : isUnder level node = true)
    (ends : node.kind.endsSection = true) : node.kind.level? ≠ none := by
  obtain ⟨kind, children⟩ := node
  cases kind with
  | heading => nofun
  | footnoteList => cases under
  | _ => cases ends

theorem endsSection_head?_dropWhile {level : UInt8} :
    ∀ node ∈ (nodes.dropWhile (isUnder level)).head?, node.kind.endsSection = true := by
  intro node member
  have other := List.head?_dropWhile_not (isUnder level) nodes
  rw [Option.mem_def.1 member] at other
  exact endsSection_of_not_isUnder (by simpa using other)

end

/-- What is so of all nodes is so of those up to a place and of those from there on. -/
theorem forall_mem_span {p : Node → Prop} (q : Node → Bool) {nodes : List Node}
    (each : ∀ node ∈ nodes, p node) :
    (∀ node ∈ nodes.takeWhile q, p node) ∧ ∀ node ∈ nodes.dropWhile q, p node := by
  rwa [← List.takeWhile_append_dropWhile (p := q) (l := nodes), List.forall_mem_append] at each

/-! ### Opening sections -/

theorem openedAll_append (first second : List Node) :
    openedAll (first ++ second) = openedAll first ++ openedAll second := by
  induction first with
  | nil => rfl
  | cons node rest ih => rw [List.cons_append, openedAll, openedAll, ih, List.append_assoc]

theorem openedAll_eq_self {nodes : List Node} (plain : ∀ node ∈ nodes, node.kind.depth? = none) :
    openedAll nodes = nodes := by
  induction nodes with
  | nil => rfl
  | cons node rest ih =>
      obtain ⟨here, later⟩ := List.forall_mem_cons.1 plain
      rw [openedAll, opened_of_depth? here, ih later]
      rfl

/-- Opened up, sections are what the nodes are that they have been made of. -/
theorem openedAll_sections (nodes : List Node) : openedAll (sections nodes) = openedAll nodes := by
  fun_induction sections nodes with
  | case1 => rfl
  | case2 node rest level id kind under behind =>
      rw [openedAll, opened_section, openedAll, under, behind, List.append_assoc, ← openedAll_append,
        List.takeWhile_append_dropWhile, openedAll]
  | case3 node rest other ih => rw [openedAll, ih, openedAll]

/-! ### What a section holds -/

/-- Nodes that start with a heading and are under one become sections, and those are deeper. -/
theorem deeper_of_mem_sections {level : UInt8} {nodes : List Node}
    (start : ∀ node ∈ nodes.head?, node.kind.level? ≠ none)
    (under : ∀ node ∈ nodes, isUnder level node = true) :
    ∀ node ∈ sections nodes, ∃ deeper ∈ node.kind.depth?, level < deeper := by
  fun_induction sections nodes with
  | case1 => exact List.forall_mem_nil _
  | case2 node rest other id kind _ behind =>
      obtain ⟨here, later⟩ := List.forall_mem_cons.1 under
      have underBehind := (forall_mem_span (isUnder other) later).2
      refine List.forall_mem_cons.2 ⟨⟨other, rfl, ?_⟩, behind ?_ underBehind⟩
      · simpa [isUnder, kind] using here
      · intro next member
        exact level?_of_isUnder (underBehind next (List.mem_of_head? member))
          (endsSection_head?_dropWhile next member)
  | case3 node rest other ih =>
      exact absurd (level?_eq_none_iff.2 other) (start node rfl)

/-- Nodes that are no headings stay in front of the sections. -/
theorem sections_append {own : List Node} (plain : ∀ node ∈ own, node.kind.level? = none)
    (nodes : List Node) : sections (own ++ nodes) = own ++ sections nodes := by
  induction own with
  | nil => rfl
  | cons node rest ih =>
      obtain ⟨here, later⟩ := List.forall_mem_cons.1 plain
      rw [List.cons_append, sections]
      split
      · next level id kind =>
          rw [kind] at here
          cases here
      · rw [ih later, List.cons_append]

/-- A heading with the sections of what is under it is a section of its level. -/
theorem isSectionOf_sections {level : UInt8} {heading : Node} {nodes : List Node}
    (kind : heading.kind.level? = some level) (plain : ∀ node ∈ nodes, node.kind.depth? = none)
    (under : ∀ node ∈ nodes, isUnder level node = true) :
    IsSectionOf level (heading :: sections nodes) := by
  let isOwn (node : Node) : Bool := node.kind.level?.isNone
  have own : ∀ node ∈ nodes.takeWhile isOwn, node.kind.level? = none := fun node member =>
    Option.isNone_iff_eq_none.1 (List.mem_takeWhile_imp (p := isOwn) member)
  refine ⟨heading, nodes.takeWhile isOwn, sections (nodes.dropWhile isOwn), ?_, kind, ?_, ?_⟩
  · rw [← sections_append own, List.takeWhile_append_dropWhile]
  · exact fun node member => ⟨own node member, (forall_mem_span isOwn plain).1 node member⟩
  · refine deeper_of_mem_sections (fun node member => ?_) (forall_mem_span isOwn under).2
    have other := List.head?_dropWhile_not isOwn nodes
    rw [Option.mem_def.1 member] at other
    simpa [isOwn, Option.isSome_iff_ne_none] using other

/-- Every section that is made holds what a section of its depth holds. -/
theorem isSectionOf_of_mem {nodes : List Node} (plain : ∀ node ∈ nodes, node.kind.depth? = none) :
    ∀ node ∈ sectionsOfAll (sections nodes), ∀ depth, node.kind = .section depth →
      IsSectionOf depth node.children := by
  fun_induction sections nodes with
  | case1 => exact List.forall_mem_nil _
  | case2 node rest level id kind under behind =>
      obtain ⟨here, later⟩ := List.forall_mem_cons.1 plain
      obtain ⟨plainUnder, plainBehind⟩ := forall_mem_span (isUnder level) later
      rw [sectionsOfAll, sectionsOf_section, sectionsOfAll, sectionsOf_of_depth? here,
        List.nil_append, List.cons_append, List.forall_mem_cons, List.forall_mem_append]
      refine ⟨fun depth same => ?_, under plainUnder, behind plainBehind⟩
      obtain rfl := NodeKind.section.inj same
      exact isSectionOf_sections (by rw [kind]; rfl) plainUnder fun node => List.mem_takeWhile_imp
  | case3 node rest other ih =>
      obtain ⟨here, later⟩ := List.forall_mem_cons.1 plain
      rw [sectionsOfAll, sectionsOf_of_depth? here, List.nil_append]
      exact ih later

/-- If there are no sections inside nodes, there are none but those that they are put into. -/
theorem mem_sectionsOfAll {nodes : List Node}
    (plain : ∀ node ∈ walkAll nodes, node.kind.depth? = none) :
    ∀ node ∈ walkAll (sections nodes), node.kind.depth? ≠ none →
      node ∈ sectionsOfAll (sections nodes) := by
  fun_induction sections nodes with
  | case1 => exact List.forall_mem_nil _
  | case2 node rest level id kind under behind =>
      rw [walkAll, List.forall_mem_append,
        ← List.takeWhile_append_dropWhile (p := isUnder level) (l := rest), walkAll_append,
        List.forall_mem_append] at plain
      obtain ⟨here, inside, others⟩ := plain
      intro inner member isSection
      rw [walkAll, walk, walkAll, List.cons_append, List.mem_cons, List.mem_append,
        List.mem_append] at member
      rw [sectionsOfAll, sectionsOf_section, sectionsOfAll, List.cons_append, List.mem_cons,
        List.mem_append, List.mem_append]
      rcases member with rfl | (heading | below) | later
      · exact .inl rfl
      · exact absurd (here inner heading) isSection
      · exact .inr (.inl (.inr (under inside inner below isSection)))
      · exact .inr (.inr (behind others inner later isSection))
  | case3 node rest other ih =>
      rw [walkAll, List.forall_mem_append] at plain
      intro inner member isSection
      rw [walkAll, List.mem_append] at member
      rw [sectionsOfAll, List.mem_append]
      exact .inr (member.elim (fun here => absurd (plain.1 inner here) isSection)
        fun later => ih plain.2 inner later isSection)

/-! ### Where nodes are -/

/-- The section of a node of the kind at a place, where `home` is the section before it. -/
def homeAt (home : Option Nat) (place : Nat) : NodeKind → Option Nat
  | .heading .. => some place
  | .footnoteList => none
  | _ => home

/-- The sections of nodes that stand one behind the other from a place on. -/
def homesFrom (home : Option Nat) (start : Nat) : List Node → List (Option Nat)
  | [] => []
  | node :: rest =>
    homeAt home start node.kind :: homesFrom (homeAt home start node.kind) (start + 1) rest

theorem homeAt_of_endsSection {kind : NodeKind} (ends : kind.endsSection = true)
    (home other : Option Nat) (place : Nat) : homeAt home place kind = homeAt other place kind := by
  cases kind <;> first | rfl | cases ends

theorem homeAt_of_not_endsSection {kind : NodeKind} (goesOn : kind.endsSection = false)
    (home : Option Nat) (place : Nat) : homeAt home place kind = home := by
  cases kind <;> first | rfl | cases goesOn

theorem homeAt_of_level? {kind : NodeKind} (heading : kind.level? ≠ none) (home : Option Nat)
    (place : Nat) : homeAt home place kind = some place := by
  cases kind <;> first | rfl | exact absurd rfl heading

/-- Behind other nodes, what ends their section starts anew. -/
theorem homesFrom_append {first second : List Node}
    (ends : ∀ node ∈ second.head?, node.kind.endsSection = true) (home other : Option Nat)
    (start : Nat) : homesFrom home start (first ++ second) =
      homesFrom home start first ++ homesFrom other (start + first.length) second := by
  induction first generalizing home start with
  | nil =>
      cases second with
      | nil => rfl
      | cons node rest =>
          rw [List.nil_append, homesFrom, homesFrom, homeAt_of_endsSection (ends node rfl) home other]
          rfl
  | cons node rest ih =>
      rw [List.cons_append, homesFrom, homesFrom, ih, List.length_cons, Nat.add_right_comm,
        Nat.add_assoc start]
      rfl

/-- In the sections of nodes, each is where it is to be. Inside a section there are no lists of
footnotes, and so those that there are stay out of all of them. -/
theorem homesAll_sections {home : Option Nat} {start : Nat} {nodes : List Node}
    (plain : ∀ node ∈ nodes, node.kind.depth? = none)
    (apart : home = none ∨ ∀ node ∈ nodes, node.kind ≠ .footnoteList) :
    homesAll home start (sections nodes) = homesFrom home start nodes := by
  fun_induction sections nodes generalizing home start with
  | case1 => rfl
  | case2 node rest level id kind under behind =>
      obtain ⟨here, later⟩ := List.forall_mem_cons.1 plain
      obtain ⟨plainUnder, plainBehind⟩ := forall_mem_span (isUnder level) later
      -- The list of notes ends every section, so it is in none.
      have noList : ∀ node ∈ rest.takeWhile (isUnder level), node.kind ≠ .footnoteList := by
        intro node member list
        have inside := List.mem_takeWhile_imp member
        rw [isUnder, list] at inside
        cases inside
      have inside := @under (some start) (start + 1) plainUnder (.inr noList)
      have others := @behind home (start + (1 + (rest.takeWhile (isUnder level)).length)) plainBehind
        (apart.imp_right fun none =>
          (forall_mem_span (isUnder level) (List.forall_mem_cons.1 none).2).2)
      have whole := @homesFrom_append (rest.takeWhile (isUnder level)) (rest.dropWhile (isUnder level))
        endsSection_head?_dropWhile (some start) home (start + 1)
      rw [List.takeWhile_append_dropWhile] at whole
      rw [homesAll, homes_section, opened_section, homesAll, homes_of_depth? here, openedAll,
        opened_of_depth? here, openedAll_sections, openedAll_eq_self plainUnder, List.length_append,
        List.length_singleton, inside, others, homesFrom,
        homeAt_of_level? (by rw [kind]; exact Option.some_ne_none level), whole, Nat.add_assoc start]
      rfl
  | case3 node rest other ih =>
      obtain ⟨here, later⟩ := List.forall_mem_cons.1 plain
      -- Besides headings only the list of notes changes the home, and outside sections there is none.
      have same : homeAt home start node.kind = home := by
        cases ends : node.kind.endsSection with
        | false => exact homeAt_of_not_endsSection ends home start
        | true =>
            have list := eq_footnoteList ends (level?_eq_none_iff.2 other)
            rw [apart.resolve_right fun none => none node List.mem_cons_self list, list]
            rfl
      rw [homesAll, homes_of_depth? here, opened_of_depth? here, homesFrom, same, ih later
        (apart.imp_right fun none => (List.forall_mem_cons.1 none).2)]
      rfl

/-- Whether no section ends at the first nodes. -/
def GoesOn (nodes : List Node) (place : Nat) : Prop :=
  ∀ (other : Nat) (node : Node), other < place → nodes[other]? = some node →
    node.kind.endsSection = false

theorem goesOn_succ {first : Node} {rest : List Node} {place : Nat} :
    GoesOn (first :: rest) (place + 1) ↔ first.kind.endsSection = false ∧ GoesOn rest place := by
  constructor
  · exact fun goesOn => ⟨goesOn 0 first (Nat.succ_pos place) rfl,
      fun other node before found => goesOn (other + 1) node (Nat.succ_lt_succ before) found⟩
  · rintro ⟨here, later⟩ (_ | other) node before found
    · obtain rfl := Option.some.inj found
      exact here
    · exact later other node (Nat.lt_of_succ_lt_succ before) found

theorem isUnderHeading_zero {first : Node} {rest : List Node} {place : Nat} :
    IsUnderHeading (first :: rest) (place + 1) 0 ↔ first.kind.level? ≠ none ∧ GoesOn rest place := by
  constructor
  · rintro ⟨-, ⟨node, found, heading⟩, between⟩
    obtain rfl := Option.some.inj found
    exact ⟨heading, fun other node before found =>
      between (other + 1) node (Nat.succ_pos other) (Nat.succ_lt_succ before) found⟩
  · rintro ⟨heading, later⟩
    refine ⟨Nat.succ_pos place, ⟨first, rfl, heading⟩, ?_⟩
    rintro (_ | other) node behind before found
    · exact absurd behind (Nat.lt_irrefl 0)
    · exact later other node (Nat.lt_of_succ_lt_succ before) found

theorem isUnderHeading_succ {first : Node} {rest : List Node} {place heading : Nat} :
    IsUnderHeading (first :: rest) (place + 1) (heading + 1) ↔ IsUnderHeading rest place heading := by
  constructor
  · rintro ⟨before, isHeading, between⟩
    exact ⟨Nat.lt_of_succ_lt_succ before, isHeading, fun other node behind front found =>
      between (other + 1) node (Nat.succ_lt_succ behind) (Nat.succ_lt_succ front) found⟩
  · rintro ⟨before, isHeading, between⟩
    refine ⟨Nat.succ_lt_succ before, isHeading, ?_⟩
    rintro (_ | other) node behind front found
    · exact absurd behind (Nat.not_lt_zero _)
    · exact between other node (Nat.lt_of_succ_lt_succ behind) (Nat.lt_of_succ_lt_succ front) found

theorem exists_isUnderHeading_succ {first : Node} {rest : List Node} {start place heading : Nat} :
    (∃ other, heading = start + other ∧ IsUnderHeading (first :: rest) (place + 1) other) ↔
      heading = start ∧ first.kind.level? ≠ none ∧ GoesOn rest place ∨
        ∃ other, heading = start + 1 + other ∧ IsUnderHeading rest place other := by
  constructor
  · rintro ⟨_ | other, rfl, under⟩
    · exact .inl ⟨rfl, isUnderHeading_zero.1 under⟩
    · exact .inr ⟨other, by omega, isUnderHeading_succ.1 under⟩
  · rintro (⟨rfl, under⟩ | ⟨other, rfl, under⟩)
    · exact ⟨0, rfl, isUnderHeading_zero.2 under⟩
    · exact ⟨other + 1, by omega, isUnderHeading_succ.2 under⟩

/-- The section at a place is that of the nearest heading before it, or else the one around all nodes if
none of them ends a section. -/
theorem homesFrom_eq_some_iff {home : Option Nat} {start place : Nat} {nodes : List Node} {node : Node}
    (found : nodes[place]? = some node) :
    ∃ before, (homesFrom home start nodes)[place]? = some (homeAt before (start + place) node.kind) ∧
      ∀ heading, before = some heading ↔
        (∃ other, heading = start + other ∧ IsUnderHeading nodes place other) ∨
          home = some heading ∧ GoesOn nodes place := by
  induction nodes generalizing home start place with
  | nil => cases found
  | cons first rest ih =>
      cases place with
      | zero =>
          obtain rfl := Option.some.inj found
          refine ⟨home, rfl, fun heading => ⟨fun same => .inr ⟨same, nofun⟩, ?_⟩⟩
          rintro (⟨other, -, under⟩ | ⟨same, -⟩)
          · exact absurd under.before (Nat.not_lt_zero other)
          · exact same
      | succ place =>
          obtain ⟨before, here, told⟩ := @ih (homeAt home start first.kind) (start + 1) place found
          refine ⟨before, ?_, fun heading => (told heading).trans ?_⟩
          · rw [Nat.add_assoc, Nat.add_comm 1] at here
            exact here
          · rw [exists_isUnderHeading_succ, goesOn_succ, or_comm (a := heading = start ∧ _), or_assoc]
            refine or_congr_right ?_
            cases ends : first.kind.endsSection with
            | false =>
                have plain : first.kind.level? = none :=
                  of_not_not fun heading => by simp [endsSection_of_level? heading] at ends
                simp [homeAt_of_not_endsSection ends, plain]
            | true =>
                cases level : first.kind.level? with
                | none => simp [eq_footnoteList ends level, homeAt]
                | some _ => simp [homeAt_of_level? (level ▸ Option.some_ne_none _), eq_comm]

/-- Nodes that hold no sections are put into sections. -/
theorem isSectioned_sections {nodes : List Node} (plain : ∀ node ∈ nodes, node.kind.depth? = none) :
    IsSectioned nodes (sections nodes) := by
  have same : homesAll none 0 (sections nodes) = homesFrom none 0 nodes :=
    homesAll_sections plain (.inl rfl)
  refine ⟨(openedAll_sections nodes).trans (openedAll_eq_self plain), isSectionOf_of_mem plain,
    fun none => ?_, ?_, ?_, ?_⟩
  · exact mem_sectionsOfAll fun node member => none node.kind (List.mem_map_of_mem member)
  all_goals
    intro place node found
    obtain ⟨before, here, told⟩ := @homesFrom_eq_some_iff none 0 place nodes node found
    rw [same, here, Nat.zero_add]
  · intro heading
    rw [homeAt_of_level? heading]
  · intro goesOn
    rw [homeAt_of_not_endsSection goesOn]
    refine ⟨before, rfl, fun heading => (told heading).trans ?_⟩
    simp
  · intro list
    rw [list]
    rfl

/-- Levels may be left out and come down in steps, and text behind the footnotes is in no section. -/
theorem isSectioned_sections_report :
    let heading level := leaf (.heading level none)
    let nodes := [text "lead", heading 2, text "one", heading 4, text "two", heading 3, heading 1,
      text "three", leaf .footnoteList, text "end"]
    (∀ node ∈ nodes, node.kind.depth? = none) ∧ IsSectioned nodes (sections nodes) ∧
      sections nodes = [text "lead",
        ⟨.section 2, [heading 2, text "one", ⟨.section 4, [heading 4, text "two"]⟩,
          ⟨.section 3, [heading 3]⟩]⟩,
        ⟨.section 1, [heading 1, text "three"]⟩, leaf .footnoteList, text "end"] := by
  intro heading nodes
  have plain : ∀ node ∈ nodes, node.kind.depth? = none := by decide
  exact ⟨plain, isSectioned_sections plain, by cbv⟩

end Page

end DocPress
