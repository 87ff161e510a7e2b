import DocPress.Proofs.Landmark

/-!
What is read off a tree when it is tidied up. A reading puts side by side what the nodes of a tree
contribute; texts that are joined contribute what the parts did, and a fragment contributes what its
children do. So a reading is kept, up to a form in which white space does not matter, as soon as each
node keeps it when its children do.
-/

namespace DocPress

/-- The code of a code block. -/
def NodeKind.code? : NodeKind → Option String
  | .codeBlock _ _ code | .codeBlockWithTitle _ _ code => some code
  | _ => none

namespace Node

variable {p : Node → Prop}

/-- All nodes of a tree satisfy `p`. -/
def Holds (p : Node → Prop) (node : Node) : Prop :=
  ∀ inner ∈ node.walk, p inner

/-- All nodes of a list of trees satisfy `p`. -/
def HoldsAll (p : Node → Prop) (nodes : List Node) : Prop :=
  ∀ inner ∈ walkAll nodes, p inner

theorem holds_mk {kind : NodeKind} {children : List Node} :
    Holds p ⟨kind, children⟩ ↔ p ⟨kind, children⟩ ∧ HoldsAll p children := by
  simp [Holds, HoldsAll, walk]

theorem holdsAll_cons {node : Node} {rest : List Node} :
    HoldsAll p (node :: rest) ↔ Holds p node ∧ HoldsAll p rest := by
  simp [Holds, HoldsAll, walkAll, or_imp, forall_and]

/-- Whether a text has nothing below it, and whether the code of a block, if there is anything below the
block, is what the text there is. -/
def KeepsText (node : Node) : Prop :=
  (node.kind.isText = true → node.children = []) ∧
    ∀ code ∈ node.kind.code?, node.children = [] ∨ textContentAll node.children = code

instance : DecidablePred KeepsText := fun _ => inferInstanceAs (Decidable (_ ∧ _))

end Node

namespace Minify

open Node

variable {α : Type}

/-! ### Forms -/

/-- Whether the form of a list is settled by the forms of its parts. -/
def IsSettled (form : List α → List α) : Prop :=
  ∀ first second, form (first ++ second) = form (form first ++ form second)

variable {form : List α → List α}

theorem isSettled_id : IsSettled (id : List α → List α) :=
  fun _ _ => rfl

theorem isSettled_filter (p : α → Bool) : IsSettled (List.filter p) := by
  intro first second
  simp [List.filter_append, List.filter_filter]

theorem IsSettled.append (settled : IsSettled form) {first first' second second' : List α}
    (same : form first = form first') (same' : form second = form second') :
    form (first ++ second) = form (first' ++ second') := by
  rw [settled first, same, same', ← settled first']

/-- Nodes may be changed one by one where what they contribute keeps its form. -/
theorem IsSettled.flatMap_map (settled : IsSettled form) {f : Node → List α} {change : Node → Node}
    {nodes : List Node} (same : ∀ node ∈ nodes, form (f (change node)) = form (f node)) :
    form ((nodes.map change).flatMap f) = form (nodes.flatMap f) := by
  induction nodes with
  | nil => rfl
  | cons node rest ih =>
      rw [List.forall_mem_cons] at same
      exact settled.append same.1 (ih same.2)

/-- Collapsed text may be collapsed again behind a run of white space or not. -/
theorem collapseFrom_collapseFrom_append {inRun before : Bool} (weaker : before = true → inRun = true)
    (first second : List Char) :
    collapseFrom inRun (collapseFrom before first ++ second) =
      collapseFrom inRun (first ++ second) := by
  induction first generalizing inRun before with
  | nil => rfl
  | cons c rest ih =>
      by_cases space : isSpace c = true
      · cases before with
        | true =>
            obtain rfl := weaker rfl
            simpa [collapseFrom, space] using ih fun _ => rfl
        | false =>
            have blank : isSpace ' ' = true := by decide
            have inside := @ih true true fun _ => rfl
            simp [collapseFrom, space, blank, inside]
      · have inside := @ih false false id
        simp [collapseFrom, space, inside]

theorem collapseFrom_append_collapseFrom (inRun : Bool) (first second : List Char) :
    collapseFrom inRun (first ++ collapseFrom false second) =
      collapseFrom inRun (first ++ second) := by
  induction first generalizing inRun with
  | nil =>
      simpa using @collapseFrom_collapseFrom_append inRun false (fun free => nomatch free) second []
  | cons c rest ih => simp only [List.cons_append, collapseFrom, ih]

/-- Runs of white space may be collapsed before texts are joined. -/
theorem isSettled_collapseFrom : IsSettled (collapseFrom false) := by
  intro first second
  rw [collapseFrom_collapseFrom_append id, collapseFrom_append_collapseFrom]

theorem collapseFrom_collapseFrom (text : List Char) :
    collapseFrom false (collapseFrom false text) = collapseFrom false text :=
  collapseFrom_append_collapseFrom false [] text

theorem toList_collapse (value : String) : (collapse value).toList = collapseFrom false value.toList :=
  String.toList_ofList

/-- Collapsing changes nothing but white space. -/
theorem filter_collapseFrom (inRun : Bool) (text : List Char) :
    (collapseFrom inRun text).filter (!isSpace ·) = text.filter (!isSpace ·) := by
  induction text generalizing inRun with
  | nil => rfl
  | cons c rest ih =>
      have blank : isSpace ' ' = true := by decide
      by_cases space : isSpace c = true <;> cases inRun <;> simp [collapseFrom, space, blank, ih]

/-- The form in which readings are compared: outside code they may be changed, inside they may not. -/
def outside (form : List α → List α) (inCode : Bool) : List α → List α :=
  if inCode then id else form

theorem outside_id (inCode : Bool) : outside (id : List α → List α) inCode = id := by
  cases inCode <;> rfl

/-- A form that is settled is settled outside code too. -/
theorem IsSettled.outside (settled : IsSettled form) (inCode : Bool) :
    IsSettled (outside form inCode) := by
  cases inCode with
  | true => exact isSettled_id
  | false => exact settled

/-- What is the same inside a node of a kind is the same around it. -/
theorem outside_of_or {inCode code : Bool} {first second : List α}
    (same : outside form (inCode || code) first = outside form (inCode || code) second) :
    outside form inCode first = outside form inCode second := by
  cases inCode <;> cases code
  · exact same
  · exact congrArg form same
  all_goals exact same

/-- What agrees inside code has the same form everywhere. -/
theorem form_of_outside {inCode : Bool} {first second : List α}
    (same : outside form inCode first = outside form inCode second) : form first = form second := by
  cases inCode with
  | true => exact congrArg form same
  | false => exact same

/-! ### Readings -/

/-- A reading of nodes by `f`, where a text contributes what `g` makes of it. -/
structure IsReading (f : Node → List α) (g : String → List α) : Prop where
  text : ∀ value, f ⟨.text value, []⟩ = g value
  fragment : ∀ children, f ⟨.fragment, children⟩ = children.flatMap f
  append : ∀ first second, g (first ++ second) = g first ++ g second

variable {f : Node → List α} {g : String → List α}

theorem IsReading.empty (reading : IsReading f g) : g "" = [] := by
  have twice := congrArg List.length (reading.append "" "")
  rw [String.append_empty, List.length_append] at twice
  exact List.length_eq_zero_iff.1 (by omega)

/-- Whether the texts among nodes have nothing below them. -/
def AreLeaves (nodes : List Node) : Prop :=
  ∀ node ∈ nodes, node.kind.isText = true → node.children = []

theorem areLeaves_cons {node : Node} {rest : List Node} :
    AreLeaves (node :: rest) ↔ (node.kind.isText = true → node.children = []) ∧ AreLeaves rest :=
  List.forall_mem_cons

/-- Merged texts have nothing below them if that was so before. -/
theorem areLeaves_mergeTexts {nodes : List Node} (leaves : AreLeaves nodes) :
    AreLeaves (mergeTexts nodes) := by
  fun_induction mergeTexts nodes with
  | case1 => exact leaves
  | case2 rest value children next other more merged ih =>
      rw [areLeaves_cons] at leaves
      have behind := ih leaves.2
      rw [merged, areLeaves_cons] at behind
      exact areLeaves_cons.2 ⟨leaves.1, behind.2⟩
  | case3 rest node other ih =>
      rw [areLeaves_cons] at leaves ⊢
      exact ⟨leaves.1, ih leaves.2⟩

/-- Collapsing texts gives them no children. -/
theorem areLeaves_collapse {nodes : List Node} (leaves : AreLeaves nodes) :
    AreLeaves (nodes.map collapseText) := by
  intro node member
  obtain ⟨node, inside, rfl⟩ := List.mem_map.1 member
  have leaf := leaves node inside
  unfold collapseText
  split
  · next value children => exact fun _ => leaf rfl
  · exact leaf

/-- Texts still have nothing below them when their list is tidied up. -/
theorem areLeaves_tidy (parent : NodeKind) (inCode : Bool) {nodes : List Node}
    (leaves : AreLeaves nodes) : AreLeaves (tidy parent inCode nodes) := by
  intro node member
  have inside := (keep_sublist _ _ _ _).subset member
  split at inside
  · exact areLeaves_mergeTexts leaves node inside
  · exact areLeaves_collapse (areLeaves_mergeTexts leaves) node inside

/-- Merging neighbouring texts does not change how nodes are read. -/
theorem flatMap_mergeTexts (reading : IsReading f g) {nodes : List Node} (leaves : AreLeaves nodes) :
    (mergeTexts nodes).flatMap f = nodes.flatMap f := by
  fun_induction mergeTexts nodes with
  | case1 => rfl
  | case2 rest value children next other more merged ih =>
      rw [areLeaves_cons] at leaves
      have behind := areLeaves_mergeTexts leaves.2
      rw [merged, areLeaves_cons] at behind
      obtain rfl : children = [] := leaves.1 rfl
      obtain rfl : other = [] := behind.1 rfl
      rw [List.flatMap_cons, List.flatMap_cons, ← ih leaves.2, merged, List.flatMap_cons,
        reading.text, reading.text, reading.text, reading.append, List.append_assoc]
  | case3 rest node other ih =>
      rw [List.flatMap_cons, List.flatMap_cons, ih (areLeaves_cons.1 leaves).2]

/-- A collapsed text is read with the same form if collapsing its characters keeps that. -/
theorem form_collapseText (reading : IsReading f g)
    (collapsed : ∀ value, form (g (collapse value)) = form (g value)) {node : Node}
    (leaf : node.kind.isText = true → node.children = []) :
    form (f (collapseText node)) = form (f node) := by
  unfold collapseText
  split
  · next value children =>
      obtain rfl : children = [] := leaf rfl
      rw [reading.text, reading.text, collapsed]
  · rfl

/-- Whether there is a block among the children of a node or around all of them, where blanks at the
edges do not count. -/
def MeetsBlock (parent : NodeKind) (nodes : List Node) : Prop :=
  parent.isBlock = true ∧ holdsRunningText parent = false ∨ ∃ node ∈ nodes, node.kind.isBlock = true

/-- What goes is an empty text or, outside code and beside a block, a blank one. -/
theorem eq_text_of_not_stays {parent : NodeKind} {inCode : Bool} {before : Option Node} {child : Node}
    {rest : List Node} (goes : ¬stays parent inCode before rest.head? child = true) :
    ∃ value, child.kind = .text value ∧
      (value = "" ∨ inCode = false ∧ isBlankText value = true ∧
        MeetsBlock parent (before.toList ++ child :: rest)) := by
  unfold stays at goes
  split at goes
  · next value same =>
      refine ⟨value, same, ?_⟩
      split at goes
      · next empty => exact .inl (String.isEmpty_iff.1 empty)
      · split at goes
        · next blank =>
            rw [Bool.and_eq_true, Bool.not_eq_true'] at blank
            refine .inr ⟨blank.1, blank.2, ?_⟩
            simp only [Bool.not_eq_true', Bool.not_eq_false, Bool.or_eq_true, Bool.and_eq_true,
              Option.any_eq_true] at goes
            rcases goes with (⟨node, beside, block⟩ | ⟨node, beside, block⟩) | ⟨⟨block, -⟩, other⟩
            · exact .inr ⟨node, by simp [beside], block⟩
            · exact .inr ⟨node, by simp [List.mem_of_head? beside], block⟩
            · exact .inl ⟨block, other⟩
        · exact absurd rfl goes
  · exact absurd rfl goes

/-- Leaving out texts is not seen where blanks contribute nothing beside blocks. -/
theorem form_keep (settled : IsSettled form) (reading : IsReading f g) (parent : NodeKind)
    (inCode : Bool) (before : Option Node) {nodes : List Node} (leaves : AreLeaves nodes)
    (quiet : inCode = false → MeetsBlock parent (before.toList ++ nodes) →
      ∀ value, isBlankText value = true → form (g value) = form []) :
    form ((keep parent inCode before nodes).flatMap f) = form (nodes.flatMap f) := by
  induction nodes generalizing before with
  | nil => rfl
  | cons child rest ih =>
      rw [areLeaves_cons] at leaves
      have behind := ih (some child) leaves.2 fun outside meets =>
        quiet outside (meets.imp_right fun ⟨node, member, block⟩ =>
          ⟨node, List.mem_append_right _ member, block⟩)
      rw [keep]
      split
      · exact settled.append rfl behind
      · next goes =>
          obtain ⟨kind, children⟩ := child
          obtain ⟨value, same, why⟩ := eq_text_of_not_stays goes
          obtain rfl : kind = .text value := same
          obtain rfl : children = [] := leaves.1 rfl
          have nothing : form [] = form (f ⟨.text value, []⟩) := by
            rw [reading.text]
            rcases why with rfl | ⟨outside, blank, meets⟩
            · rw [reading.empty]
            · exact (quiet outside meets value blank).symm
          exact settled.append nothing behind

/-! ### The kinds of a tree -/

/-- Whether the kind stays in its place when a tree is tidied up. -/
def isFixed : NodeKind → Bool
  | .text _ | .fragment => false
  | _ => true

/-- The kinds of a tree in document order, without those of texts and fragments. -/
def fixedKinds (node : Node) : List NodeKind :=
  node.kinds.filter isFixed

/-- The kinds that stay in place are a part of all kinds. -/
theorem flatMap_fixedKinds (nodes : List Node) :
    nodes.flatMap fixedKinds = (kindsAll nodes).filter isFixed := by
  induction nodes with
  | nil => rfl
  | cons node rest ih =>
      rw [List.flatMap_cons, ih, kindsAll_cons, List.filter_append]
      rfl

theorem fixedKinds_mk (kind : NodeKind) (children : List Node) :
    fixedKinds ⟨kind, children⟩ = [kind].filter isFixed ++ children.flatMap fixedKinds := by
  rw [fixedKinds, kinds_mk, flatMap_fixedKinds]
  exact List.filter_append [kind] (kindsAll children)

/-- Texts and fragments contribute no kinds that stay in place. -/
theorem isReading_fixedKinds : IsReading fixedKinds fun _ => [] where
  text _ := rfl
  fragment children := fixedKinds_mk .fragment children
  append _ _ := rfl

/-- Whether there are no blocks in trees. -/
def AreInline (nodes : List Node) : Prop :=
  ∀ kind ∈ nodes.flatMap fixedKinds, kind.isBlock = false

theorem areInline_append {first second : List Node} :
    AreInline (first ++ second) ↔ AreInline first ∧ AreInline second := by
  simp [AreInline, or_imp, forall_and]

theorem isFixed_of_isBlock {kind : NodeKind} (block : kind.isBlock = true) : isFixed kind = true := by
  cases kind <;> first | rfl | cases block

/-- There are no blocks in trees when none of their kinds is that of a block. -/
theorem areInline_iff {nodes : List Node} :
    AreInline nodes ↔ ∀ kind ∈ kindsAll nodes, kind.isBlock = false := by
  simp only [AreInline, flatMap_fixedKinds, List.mem_filter]
  constructor
  · intro fixed kind member
    rw [Bool.eq_false_iff]
    intro block
    rw [fixed kind ⟨member, isFixed_of_isBlock block⟩] at block
    cases block
  · exact fun every kind member => every kind member.1

theorem areInline_mk {kind : NodeKind} {children : List Node} :
    AreInline [⟨kind, children⟩] ↔ kind.isBlock = false ∧ AreInline children := by
  simp only [areInline_iff, kindsAll_cons, kinds_mk, kindsAll_nil, List.append_nil,
    List.forall_mem_cons]

/-- Nodes without blocks that run on in their parent meet no block. -/
theorem not_meetsBlock {parent : NodeKind} {nodes : List Node}
    (running : parent.isBlock = true → holdsRunningText parent = true) (inLine : AreInline nodes) :
    ¬MeetsBlock parent nodes := by
  rintro (⟨block, other⟩ | ⟨⟨kind, children⟩, member, block⟩)
  · rw [running block] at other
    cases other
  · have inside : kind ∈ kindsAll nodes := mem_kindsAll member (by simp)
    rw [areInline_iff.1 inLine kind inside] at block
    cases block

/-! ### Tidying up -/

/-- Whether blank texts contribute nothing to a form of a reading. -/
def BlanksVanish (form : List α → List α) (g : String → List α) : Prop :=
  ∀ value, isBlankText value = true → form (g value) = form []

/-- Tidying up is not seen in a form of a reading that does not tell a text from the collapsed one, where
blanks contribute nothing or there are no blocks. -/
theorem form_tidy (settled : IsSettled form) (reading : IsReading f g)
    (collapsed : ∀ value, form (g (collapse value)) = form (g value)) (parent : NodeKind)
    (inCode : Bool) {nodes : List Node} (leaves : AreLeaves nodes)
    (quiet : BlanksVanish form g ∨
      (parent.isBlock = true → holdsRunningText parent = true) ∧ AreInline nodes) :
    outside form inCode ((tidy parent inCode nodes).flatMap f) =
      outside form inCode (nodes.flatMap f) := by
  have merged := areLeaves_mergeTexts leaves
  cases inCode with
  | true =>
      have kept := form_keep isSettled_id reading parent true none merged fun free => nomatch free
      rwa [flatMap_mergeTexts reading leaves] at kept
  | false =>
      have kept := form_keep settled reading parent false none (areLeaves_collapse merged)
        fun _ meets => by
          rcases quiet with vanish | ⟨running, inLine⟩
          · exact vanish
          · refine absurd meets (not_meetsBlock running ?_)
            have same := isSettled_id.flatMap_map fun node member =>
              form_collapseText isReading_fixedKinds (fun _ => rfl) (merged node member)
            rw [id, id, flatMap_mergeTexts isReading_fixedKinds leaves] at same
            rwa [Option.toList_none, List.nil_append, AreInline, same]
      refine kept.trans ?_
      rw [settled.flatMap_map fun node member => form_collapseText reading collapsed (merged node member),
        flatMap_mergeTexts reading leaves]
      rfl

/-- A form of a reading that a node keeps when it is tidied up, as soon as what is below it does. -/
structure IsStable (form : List α → List α) (f : Node → List α) (g : String → List α) : Prop where
  settled : IsSettled form
  reading : IsReading f g
  collapse : ∀ value, form (g (collapse value)) = form (g value)
  node : ∀ (inCode : Bool) (kind : NodeKind) (children nodes : List Node),
    Holds KeepsText ⟨kind, children⟩ →
    nodes = tidy kind (inCode || kind.isCode) (spliced (inCode || kind.isCode) children) →
    outside form (inCode || kind.isCode) (nodes.flatMap f) =
      outside form (inCode || kind.isCode) (children.flatMap f) →
    outside form inCode (f ⟨kind, nodes⟩) = outside form inCode (f ⟨kind, children⟩)

theorem minify_mk (inCode : Bool) (kind : NodeKind) (children : List Node) :
    minify inCode ⟨kind, children⟩ =
      ⟨kind, tidy kind (inCode || kind.isCode) (spliced (inCode || kind.isCode) children)⟩ := by
  rw [minify]

/-- The nodes that a node becomes among the children of its parent. -/
theorem spliced_cons (inCode : Bool) (node : Node) (rest : List Node) :
    spliced inCode (node :: rest) =
      spliced inCode [node] ++ spliced inCode rest := by
  rw [spliced, spliced, spliced, List.append_nil]

theorem spliced_singleton (inCode : Bool) (node : Node) :
    spliced inCode [node] = if (minify inCode node).kind = .fragment then (minify inCode node).children
      else [minify inCode node] := by
  rw [spliced, spliced, List.append_nil]

theorem flatMap_spliced_singleton (reading : IsReading f g) (inCode : Bool) (node : Node) :
    (spliced inCode [node]).flatMap f = f (minify inCode node) := by
  rw [spliced_singleton]
  split
  · next fragment =>
      generalize minify inCode node = tidied at fragment
      obtain ⟨kind, children⟩ := tidied
      obtain rfl : kind = .fragment := fragment
      exact (reading.fragment children).symm
  · rw [List.flatMap_singleton]

theorem tidied_nil (kind : NodeKind) (inCode : Bool) : tidy kind inCode (spliced inCode []) = [] := by
  cases inCode <;> rfl

mutual

theorem areLeaves_spliced_singleton : ∀ (inCode : Bool) (node : Node), Holds KeepsText node →
    AreLeaves (spliced inCode [node])
  | inCode, ⟨kind, children⟩, keeps => by
      obtain ⟨here, below⟩ := holds_mk.1 keeps
      have inside := areLeaves_spliced (inCode || kind.isCode) children below
      rw [spliced_singleton, minify_mk]
      split
      · exact areLeaves_tidy _ _ inside
      · refine areLeaves_cons.2 ⟨fun isText => ?_, fun _ member => nomatch member⟩
        obtain rfl : children = [] := here.1 isText
        exact tidied_nil kind _

/-- Texts among the children that are put in place have nothing below them. -/
theorem areLeaves_spliced : ∀ (inCode : Bool) (nodes : List Node), HoldsAll KeepsText nodes →
    AreLeaves (spliced inCode nodes)
  | _, [], _ => fun _ member => nomatch member
  | inCode, node :: rest, keeps => by
      obtain ⟨first, others⟩ := holdsAll_cons.1 keeps
      rw [spliced_cons]
      exact List.forall_mem_append.2
        ⟨areLeaves_spliced_singleton inCode node first, areLeaves_spliced inCode rest others⟩

end

theorem areInline_spliced_singleton {inCode : Bool} {node : Node} :
    AreInline (spliced inCode [node]) ↔ AreInline [minify inCode node] := by
  rw [AreInline, AreInline, flatMap_spliced_singleton isReading_fixedKinds, List.flatMap_singleton]

/-- Tidying up does not change whether there are blocks among nodes. -/
theorem areInline_tidy {parent : NodeKind} {inCode : Bool} {nodes : List Node}
    (leaves : AreLeaves nodes) : AreInline (tidy parent inCode nodes) ↔ AreInline nodes := by
  have same := form_tidy isSettled_id isReading_fixedKinds (fun _ => rfl) parent inCode leaves
    (.inl fun _ _ => rfl)
  rw [outside_id, id, id] at same
  rw [AreInline, AreInline, same]

section

variable (stable : IsStable form f g)
include stable

mutual

/-- Tidying up is not seen in a stable form where blanks contribute nothing or there are no blocks. -/
theorem form_minify : ∀ (inCode : Bool) (node : Node), Holds KeepsText node →
    (BlanksVanish form g ∨ AreInline [minify inCode node]) →
    outside form inCode (f (minify inCode node)) = outside form inCode (f node)
  | inCode, ⟨kind, children⟩, keeps, quiet => by
      have below := (holds_mk.1 keeps).2
      have leaves := areLeaves_spliced (inCode || kind.isCode) children below
      rw [minify_mk] at quiet ⊢
      refine stable.node inCode kind children _ keeps rfl ?_
      rw [areInline_mk, areInline_tidy leaves] at quiet
      rw [form_tidy stable.settled stable.reading stable.collapse kind _ leaves
        (quiet.imp_right fun found => ⟨fun block => absurd block (by rw [found.1]; decide), found.2⟩)]
      exact form_spliced _ children below (quiet.imp_right And.right)

/-- Children that are put in place are read with the same form outside code, if blanks do not count or no
blocks are there. -/
theorem form_spliced : ∀ (inCode : Bool) (nodes : List Node), HoldsAll KeepsText nodes →
    (BlanksVanish form g ∨ AreInline (spliced inCode nodes)) →
    outside form inCode ((spliced inCode nodes).flatMap f) = outside form inCode (nodes.flatMap f)
  | _, [], _, _ => rfl
  | inCode, node :: rest, keeps, quiet => by
      obtain ⟨first, others⟩ := holdsAll_cons.1 keeps
      rw [spliced_cons, areInline_append, areInline_spliced_singleton] at quiet
      rw [spliced_cons, List.flatMap_append, List.flatMap_cons,
        flatMap_spliced_singleton stable.reading]
      exact (stable.settled.outside inCode).append
        (form_minify inCode node first (quiet.imp_right And.left))
        (form_spliced inCode rest others (quiet.imp_right And.right))

end

/-- What is below a node is the same in a stable form once it is tidied up. -/
theorem form_tidied (kind : NodeKind) (inCode : Bool) {children : List Node}
    (keeps : HoldsAll KeepsText children)
    (quiet : BlanksVanish form g ∨ (kind.isBlock = true → holdsRunningText kind = true) ∧
      AreInline (spliced inCode children)) :
    outside form inCode ((tidy kind inCode (spliced inCode children)).flatMap f) =
      outside form inCode (children.flatMap f) := by
  rw [form_tidy stable.settled stable.reading stable.collapse kind inCode
    (areLeaves_spliced inCode children keeps) quiet]
  exact form_spliced stable inCode children keeps (quiet.imp_right And.right)

end

/-! ### Kinds and texts -/

/-- The kinds that stay in place are kept. -/
theorem isStable_fixedKinds : IsStable id fixedKinds fun _ => [] where
  settled := isSettled_id
  reading := isReading_fixedKinds
  collapse _ := rfl
  node inCode kind children nodes _ _ same := by
    rw [outside_id, id, id] at same ⊢
    rw [fixedKinds_mk, fixedKinds_mk, same]

/-- The kinds of a tree stay what they are, those of texts and fragments apart. -/
theorem fixedKinds_minify (inCode : Bool) {node : Node} (keeps : Holds KeepsText node) :
    fixedKinds (minify inCode node) = fixedKinds node := by
  have same := form_minify isStable_fixedKinds inCode node keeps (.inl fun _ _ => rfl)
  rwa [outside_id, id, id] at same

/-- There are blocks among the children that are put in place when there were before. -/
theorem areInline_spliced (inCode : Bool) {nodes : List Node} (keeps : HoldsAll KeepsText nodes) :
    AreInline (spliced inCode nodes) ↔ AreInline nodes := by
  have same := form_spliced isStable_fixedKinds inCode nodes keeps (.inl fun _ _ => rfl)
  rw [outside_id, id, id] at same
  rw [AreInline, AreInline, same]

/-- The characters of the text of a tree. -/
def textChars (node : Node) : List Char :=
  node.textContent.toList

/-- The characters of nodes are those of their text. -/
theorem flatMap_textChars (nodes : List Node) :
    nodes.flatMap textChars = (textContentAll nodes).toList := by
  induction nodes with
  | nil => rfl
  | cons node rest ih => rw [List.flatMap_cons, ih, textContentAll, String.toList_append, textChars]

theorem textChars_mk (kind : NodeKind) (children : List Node) :
    textChars ⟨kind, children⟩ = (ownText ⟨kind, children⟩).toList ++ children.flatMap textChars := by
  rw [textChars, textContent, String.toList_append, flatMap_textChars]

/-- A text contributes its characters. -/
theorem isReading_textChars : IsReading textChars String.toList where
  text value := by simp [textChars, textContent, textContentAll, ownText]
  fragment children := textChars_mk .fragment children
  append _ _ := String.toList_append

theorem ownText_congr {kind : NodeKind} (plain : kind.code? = none) (children nodes : List Node) :
    ownText ⟨kind, nodes⟩ = ownText ⟨kind, children⟩ := by
  cases kind <;> first | rfl | cases plain

/-- The text of a code block is its code, be it in pieces below it or not. -/
theorem textChars_of_code? {kind : NodeKind} {code : String} (isBlock : kind.code? = some code)
    {children : List Node} (keeps : children = [] ∨ textContentAll children = code) :
    textChars ⟨kind, children⟩ = code.toList := by
  cases children with
  | nil => cases kind <;> cases isBlock <;> simp [textChars, textContent, textContentAll, ownText]
  | cons child rest =>
      have inside := keeps.resolve_left (List.cons_ne_nil child rest)
      cases kind <;> cases isBlock <;> simp [textChars, textContent, ownText, inside]

/-- What is below a code block is tidied up to its code. -/
theorem keeps_code {kind : NodeKind} {code : String} (isBlock : kind.code? = some code)
    {inCode : Bool} {children nodes : List Node} (keeps : Holds KeepsText ⟨kind, children⟩)
    (tidied : nodes = tidy kind (inCode || kind.isCode) (spliced (inCode || kind.isCode) children))
    (same : nodes.flatMap textChars = children.flatMap textChars) :
    nodes = [] ∨ textContentAll nodes = code := by
  rcases (holds_mk.1 keeps).1.2 code isBlock with rfl | inside
  · exact .inl (tidied.trans (tidied_nil kind _))
  · rw [flatMap_textChars, flatMap_textChars, String.toList_inj, inside] at same
    exact .inr same

theorem isCode_of_code? {kind : NodeKind} {code : String} (isBlock : kind.code? = some code) :
    kind.isCode = true := by
  cases kind <;> first | rfl | cases isBlock

/-- A form of the text that does not see how blanks are collapsed is kept. -/
theorem isStable_textChars {form : List Char → List Char} (settled : IsSettled form)
    (collapsed : ∀ value, form (collapse value).toList = form value.toList) :
    IsStable form textChars String.toList where
  settled := settled
  reading := isReading_textChars
  collapse := collapsed
  node inCode kind children nodes keeps tidied same := by
    cases isBlock : kind.code? with
    | none =>
        rw [textChars_mk, textChars_mk, ownText_congr isBlock children nodes]
        exact (settled.outside inCode).append rfl (outside_of_or same)
    | some code =>
        have exact : nodes.flatMap textChars = children.flatMap textChars := by
          rwa [isCode_of_code? isBlock, Bool.or_true] at same
        rw [textChars_of_code? isBlock (keeps_code isBlock keeps tidied exact),
          textChars_of_code? isBlock ((holds_mk.1 keeps).1.2 code isBlock)]

end Minify

end DocPress
