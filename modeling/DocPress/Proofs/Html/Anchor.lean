import DocPress.Proofs.Html.Sound
import DocPress.Proofs.Landmark

/-!
Links within a page. The elements with ids and the references to footnotes in the markup of a tree are
those of its landmarks, in the same order.
-/

namespace DocPress

namespace Html

/-! ### Ids and references of a page -/

/-- An element with an id. -/
structure Anchor where
  element : String
  id : String
  deriving DecidableEq

/-- The id in attributes. -/
def idOf (attributes : List Attribute) : Option String :=
  attributes.findSome? fun a => if a.name = "id" then a.value else none

/-- The element with an id that starts with a piece. -/
def Markup.anchor? : Markup → Option Anchor
  | .opening name attributes | .empty name attributes => (idOf attributes).map (⟨name, ·⟩)
  | _ => none

/-- The elements with ids of a page, in order. -/
def anchors (page : List Markup) : List Anchor :=
  page.filterMap Markup.anchor?

/-- The ids of a page, in order. -/
def ids (page : List Markup) : List String :=
  (anchors page).map (·.id)

/-- A reference to a footnote: the address that it leads to and the number that it shows. -/
structure Reference where
  target : String
  number : String
  deriving DecidableEq

/-- The reference to a footnote at the start of a page. -/
def reference? : List Markup → Option Reference
  | .opening "sup" [⟨"class", some "footnote-ref"⟩] :: .opening "a" [⟨"href", some target⟩] ::
      .text number :: _ => some ⟨target, number⟩
  | _ => none

/-- The references to footnotes of a page, in order. -/
def references : List Markup → List Reference
  | [] => []
  | piece :: rest => (reference? (piece :: rest)).toList ++ references rest

variable {first second : List Markup}

@[simp] theorem anchors_nil : anchors [] = [] := rfl

@[simp] theorem anchors_append (first second : List Markup) :
    anchors (first ++ second) = anchors first ++ anchors second :=
  List.filterMap_append

theorem anchors_cons (piece : Markup) (rest : List Markup) :
    anchors (piece :: rest) = piece.anchor?.toList ++ anchors rest :=
  anchors_append [piece] rest |>.trans (by rw [anchors, List.filterMap_cons]; cases piece.anchor? <;> rfl)

/-- Whether a piece starts an element in which a reference may be. -/
def Markup.isSup : Markup → Bool
  | .opening name _ => name = "sup"
  | _ => false

/-- A piece that is no superscript starts no reference. -/
theorem references_cons_of_not_sup {piece : Markup} (other : piece.isSup = false)
    (rest : List Markup) : references (piece :: rest) = references rest := by
  have none : reference? (piece :: rest) = .none := by
    unfold reference?
    split
    · next same =>
        obtain ⟨rfl, -⟩ := List.cons.inj same
        cases other
    · rfl
  rw [references, none]
  rfl

/-- Markup without superscripts holds no reference. -/
theorem references_append_of_not_sup {front : List Markup}
    (others : ∀ piece ∈ front, piece.isSup = false) (rest : List Markup) :
    references (front ++ rest) = references rest := by
  induction front with
  | nil => rfl
  | cons piece front ih =>
      rw [List.forall_mem_cons] at others
      rw [List.cons_append, references_cons_of_not_sup others.1, ih others.2]

/-! ### Attributes -/

theorem idOf_optionalAttribute {name : String} (other : name ≠ "id") (value : Option String) :
    idOf (optionalAttribute name value) = none := by
  cases value <;> simp [idOf, optionalAttribute, attr, other]

theorem idOf_titleAttribute (title : String) : idOf (titleAttribute title) = none := by
  rw [titleAttribute]
  split <;> simp [idOf, attr]

theorem idOf_append (first second : List Attribute) :
    idOf (first ++ second) = (idOf first).or (idOf second) :=
  List.findSome?_append

theorem idOf_cons_of_ne {name : String} (other : name ≠ "id") (value : String)
    (rest : List Attribute) : idOf (attr name value :: rest) = idOf rest := by
  simp [idOf, attr, other]

theorem idOf_id (value : Option String) : idOf (optionalAttribute "id" value) = value := by
  cases value <;> simp [idOf, optionalAttribute, attr]

end Html

open Html

/-! ### Ids and references of kinds -/

namespace NodeKind

/-- The element with an id that a node of the kind becomes. -/
def anchor? : NodeKind → Option Anchor
  | .heading level id => id.map (⟨"h" ++ toString level.toNat, ·⟩)
  | .footnoteDefinition label => some ⟨"div", "fn-" ++ label⟩
  | .footnoteItem _ ordinal => some ⟨"li", "fn-" ++ toString ordinal.toNat⟩
  | _ => none

/-- The reference that a node of the kind becomes. -/
def reference? : NodeKind → Option Reference
  | .footnoteCrossReference _ ordinal =>
    some ⟨"#fn-" ++ toString ordinal.toNat, toString ordinal.toNat⟩
  | _ => none

/-- Whether the kind is a code block. -/
def isCodeBlock : NodeKind → Bool
  | .codeBlock .. | .codeBlockWithTitle .. => true
  | _ => false

/-- Whether the kind is that of an element with a name of its own. -/
def isCustom : NodeKind → Bool
  | .custom .. => true
  | _ => false

/-- The id of a landmark is that of its kind. -/
theorem filterMap_landmark_anchor? (kind : NodeKind) :
    kind.landmark?.toList.filterMap anchor? = kind.anchor?.toList := by
  cases kind with
  | heading level id => cases id <;> rfl
  | _ => rfl

/-- A kind whose landmarks are none of custom elements is no custom element. -/
theorem isCustom_of_landmark {kind : NodeKind}
    (known : ∀ other ∈ kind.landmark?.toList, other.isCustom = false) : kind.isCustom = false := by
  cases kind with
  | custom name attributes => exact known _ List.mem_cons_self
  | _ => rfl

/-- A kind that shows its children is no reference. -/
theorem reference?_of_shows {kind : NodeKind} (shows : kind.hidesChildren = false) :
    kind.reference? = none := by
  cases kind <;> first | rfl | cases shows

theorem anchor?_of_isCodeBlock {kind : NodeKind} (code : kind.isCodeBlock = true) :
    kind.anchor? = none := by
  cases kind <;> first | rfl | cases code

/-- The reference of a landmark is that of its kind. -/
theorem filterMap_landmark_reference? (kind : NodeKind) :
    kind.landmark?.toList.filterMap reference? = kind.reference?.toList := by
  cases kind <;> rfl

end NodeKind

namespace Html

/-! ### Elements -/

/-- Whether markup stands around content. Only the elements that are `found`, in front of the content,
have ids, and no reference is in the markup. -/
def Frames (found : List Anchor) (f : List Markup → List Markup) : Prop :=
  ∃ front back, (∀ content, f content = front ++ content ++ back) ∧
    anchors front = found ∧ anchors back = [] ∧ ∀ piece ∈ front ++ back, piece.isSup = false

/-- Whether pieces have no ids and are no references. -/
def AreQuiet (page : List Markup) : Prop :=
  anchors page = [] ∧ ∀ piece ∈ page, piece.isSup = false

variable {found : List Anchor} {f : List Markup → List Markup}

theorem frames_content : Frames [] fun content => content :=
  ⟨[], [], fun content => (List.append_nil content).symm, rfl, rfl, by simp⟩

/-- An element other than a superscript frames its content under the id among its attributes. -/
theorem frames_wrap {name : String} (other : name ≠ "sup") {attributes : List Attribute}
    {id : Option String} (same : idOf attributes = id) :
    Frames (id.map (Anchor.mk name)).toList (wrap name attributes) := by
  refine ⟨[.opening name attributes], [.closing name], fun content => rfl, ?_, rfl, ?_⟩
  · rw [anchors_cons, anchors_nil, List.append_nil, ← same]
    rfl
  · simp [Markup.isSup, other]

/-- Quiet markup may stand around markup. -/
theorem Frames.around (frames : Frames found f) {before after : List Markup}
    (early : AreQuiet before) (late : AreQuiet after) :
    Frames found fun content => before ++ f content ++ after := by
  obtain ⟨front, back, around, ids, none, plain⟩ := frames
  refine ⟨before ++ front, back ++ after, fun content => ?_, ?_, ?_, ?_⟩
  · dsimp only
    rw [around content]
    simp
  · rw [anchors_append, early.1, ids, List.nil_append]
  · rw [anchors_append, none, late.1, List.nil_append]
  · rw [List.forall_mem_append] at plain ⊢
    exact ⟨List.forall_mem_append.2 ⟨early.2, plain.1⟩, List.forall_mem_append.2 ⟨plain.2, late.2⟩⟩

/-- Quiet markup may stand in front of content. -/
theorem Frames.under (frames : Frames found f) {before : List Markup} (early : AreQuiet before) :
    Frames found fun content => f (before ++ content) := by
  obtain ⟨front, back, around, ids, none, plain⟩ := frames
  refine ⟨front ++ before, back, fun content => ?_, ?_, none, ?_⟩
  · dsimp only
    rw [around]
    simp
  · rw [anchors_append, ids, early.1, List.append_nil]
  · rw [List.forall_mem_append] at plain ⊢
    exact ⟨List.forall_mem_append.2 ⟨plain.1, early.2⟩, plain.2⟩

theorem areQuiet_nil : AreQuiet [] :=
  ⟨rfl, by simp⟩

theorem areQuiet_layout (value : String) : AreQuiet [.layout value] :=
  ⟨rfl, by simp [Markup.isSup]⟩

theorem areQuiet_text (value : String) : AreQuiet [.text value] :=
  ⟨rfl, by simp [Markup.isSup]⟩

/-- Markup around quiet content is quiet but for the ids in it. -/
theorem Frames.of_quiet (frames : Frames found f) {content : List Markup} (quiet : AreQuiet content) :
    anchors (f content) = found ∧ ∀ rest, references (f content ++ rest) = references rest := by
  obtain ⟨front, back, around, ids, none, plain⟩ := frames
  rw [List.forall_mem_append] at plain
  constructor
  · rw [around, anchors_append, anchors_append, ids, quiet.1, none, List.append_nil, List.append_nil]
  · intro rest
    rw [around]
    refine references_append_of_not_sup ?_ rest
    exact List.forall_mem_append.2 ⟨List.forall_mem_append.2 ⟨plain.1, quiet.2⟩, plain.2⟩

/-- A checkbox has no id and is no reference. -/
theorem areQuiet_checkbox (checked : Bool) : AreQuiet (checkbox checked) := by
  cases checked with
  | true => exact ⟨by decide, by decide⟩
  | false => exact ⟨by decide, by decide⟩

/-- An element on a line of its own frames its content like any other. -/
theorem frames_wrapLine {name : String} (other : name ≠ "sup") {attributes : List Attribute}
    {id : Option String} (same : idOf attributes = id) :
    Frames (id.map (Anchor.mk name)).toList (wrapLine name attributes) :=
  (frames_wrap other same).around areQuiet_nil (areQuiet_layout "\n")

/-- An element with its content on lines of their own frames it like any other. -/
theorem frames_wrapLines {name : String} (other : name ≠ "sup") {attributes : List Attribute}
    {id : Option String} (same : idOf attributes = id) :
    Frames (id.map (Anchor.mk name)).toList (wrapLines name attributes) :=
  (frames_wrapLine other same).under (areQuiet_layout "\n")

/-- Code frames its content without an id. -/
theorem frames_codeMarkup (language : Option String) : Frames [] (codeMarkup language) := by
  have class_ : idOf (languageClass language) = none := idOf_optionalAttribute (by decide) _
  have inner : Frames [] (wrap "code" (languageClass language)) :=
    @frames_wrap "code" (by decide) _ none class_
  have start : AreQuiet [.opening "pre" (languageClass language)] := by
    constructor
    · rw [anchors_cons, Markup.anchor?, class_]
      rfl
    · simp [Markup.isSup]
  exact inner.around start ⟨by decide, by decide⟩

theorem frames_codeBlock (language : Option String) :
    Frames [] fun content => [] ++ codeMarkup language content ++ [.layout "\n"] :=
  (frames_codeMarkup language).around areQuiet_nil (areQuiet_layout "\n")

/-- A code block with a title frames its content without an id. -/
theorem frames_titledCode (title : String) (language : Option String) :
    Frames [] fun content => wrapLine "div" [attr "class" "code-block"]
      (wrap "div" [attr "class" "code-title"] [.text title] ++ codeMarkup language content) := by
  have start : AreQuiet (.opening "div" [attr "class" "code-block"] ::
      wrap "div" [attr "class" "code-title"] [.text title]) :=
    ⟨rfl, by simp [wrap, Markup.isSup]⟩
  have stop : AreQuiet [.closing "div"] := ⟨rfl, by simp [Markup.isSup]⟩
  exact ((frames_codeMarkup language).around start stop).around areQuiet_nil (areQuiet_layout "\n")

/-- What the markup of a node puts around that of its children. A code block without children has
its code in their place. -/
theorem frames_kindMarkup {kind : NodeKind} (shows : kind.hidesChildren = false)
    (known : kind.isCustom = false) {children : List Node}
    (inside : kind.isCodeBlock = true → children ≠ []) :
    Frames kind.anchor?.toList (kindMarkup ⟨kind, children⟩) := by
  cases kind with
  | custom _ _ => cases known
  | document | fragment => exact frames_content
  | paragraph | tableRow => exact frames_wrapLine (by decide) rfl
  | emphasis | strong | strikethrough => exact frames_wrap (by decide) rfl
  | blockQuote | tableHead | tableBody => exact frames_wrapLines (by decide) rfl
  | table alignments => exact frames_wrapLines (by decide) rfl
  | heading level id =>
      have other : "h" ++ toString level.toNat ≠ "sup" := by
        intro same
        have first := congrArg (fun name : String => name.toList.head?) same
        rw [String.toList_append] at first
        cases first
      exact frames_wrapLine other (idOf_id id)
  | token className => exact frames_wrap (by decide) (idOf_cons_of_ne (by decide) _ [])
  | link url title =>
      exact frames_wrap (by decide)
        ((idOf_cons_of_ne (by decide) url _).trans (idOf_titleAttribute title))
  | inlineNote label => exact frames_wrap (by decide) (idOf_cons_of_ne (by decide) _ [])
  | tableCell header align =>
      cases header with
      | true => exact frames_wrap (by decide) (idOf_optionalAttribute (by decide) _)
      | false => exact frames_wrap (by decide) (idOf_optionalAttribute (by decide) _)
  | «section» depth => exact frames_wrapLines (by decide) (idOf_cons_of_ne (by decide) _ [])
  | list ordered start =>
      cases ordered with
      | false => exact frames_wrapLines (by decide) rfl
      | true =>
          have frames {attributes : List Attribute} (none : idOf attributes = .none) :
              Frames [] (wrapLines "ol" attributes) := @frames_wrapLines "ol" (by decide) _ .none none
          cases start with
          | none => exact frames rfl
          | some n =>
              refine frames ?_
              dsimp only
              split
              · rfl
              · exact idOf_cons_of_ne (by decide) _ []
  | listItem checked =>
      have item : Frames [] (wrapLine "li" []) := @frames_wrapLine "li" (by decide) [] none rfl
      refine item.under ?_
      cases checked with
      | none => exact areQuiet_nil
      | some checked => exact areQuiet_checkbox checked
  | footnoteDefinition label =>
      exact @frames_wrapLine "div" (by decide) _ (some _)
        ((idOf_cons_of_ne (by decide) "footnote-definition" _).trans (idOf_id (some _)))
  | footnoteItem label ordinal =>
      exact @frames_wrapLine "li" (by decide) _ (some _) (idOf_id (some _))
  | footnoteList =>
      have inner : Frames [] (wrapLines "ol" []) := @frames_wrapLines "ol" (by decide) [] none rfl
      have start : AreQuiet [.opening "section" [attr "class" "footnotes"], .layout "\n"] :=
        ⟨by decide, by decide⟩
      have stop : AreQuiet [.closing "section"] := ⟨by decide, by decide⟩
      exact (inner.around start stop).around areQuiet_nil (areQuiet_layout "\n")
  | codeBlock language info code =>
      obtain ⟨child, rest, rfl⟩ := List.exists_cons_of_ne_nil (inside rfl)
      exact frames_codeBlock language
  | codeBlockWithTitle title language code =>
      obtain ⟨child, rest, rfl⟩ := List.exists_cons_of_ne_nil (inside rfl)
      exact frames_titledCode title language
  | _ => cases shows

/-- An image without an id among its attributes has none. -/
theorem anchors_image {attributes : List Attribute} (none : idOf attributes = .none) :
    anchors [.empty "img" attributes] = [] := by
  rw [anchors_cons, Markup.anchor?, none]
  rfl

/-- A node that hides what is below it becomes markup without ids, and a reference at most. -/
theorem kindMarkup_of_hides {kind : NodeKind} (hides : kind.hidesChildren = true)
    (children : List Node) (content : List Markup) :
    anchors (kindMarkup ⟨kind, children⟩ content) = [] ∧ kind.anchor? = none ∧
      ∀ rest, references (kindMarkup ⟨kind, children⟩ content ++ rest) =
        kind.reference?.toList ++ references rest := by
  cases kind with
  | text _ | inlineCode _ | thematicBreak | softBreak | hardBreak | html _ | expression _ =>
      exact ⟨rfl, rfl, fun rest => rfl⟩
  | footnoteReference label | brokenReference label => exact ⟨rfl, rfl, fun rest => rfl⟩
  | footnoteCrossReference label ordinal => exact ⟨rfl, rfl, fun rest => rfl⟩
  | image url title =>
      refine ⟨anchors_image ?_, rfl, fun rest => references_cons_of_not_sup rfl _⟩
      rw [idOf_append, idOf_titleAttribute]
      rfl
  | imageComponent url alt width height =>
      refine ⟨anchors_image ?_, rfl, fun rest => references_cons_of_not_sup rfl _⟩
      rw [idOf_append, idOf_append, idOf_append, idOf_optionalAttribute (by decide),
        idOf_optionalAttribute (by decide)]
      rfl
  | _ => cases hides

/-- A code block without children has no ids and no references. -/
theorem kindMarkup_codeBlock {kind : NodeKind} (code : kind.isCodeBlock = true)
    (content : List Markup) :
    anchors (kindMarkup ⟨kind, []⟩ content) = [] ∧
      ∀ rest, references (kindMarkup ⟨kind, []⟩ content ++ rest) = references rest := by
  cases kind with
  | codeBlock language info value => exact (frames_codeBlock language).of_quiet (areQuiet_text value)
  | codeBlockWithTitle title language value =>
      exact (frames_titledCode title language).of_quiet (areQuiet_text value)
  | _ => cases code

mutual

/-- The ids and the references in the markup of a tree are those of its landmarks. -/
theorem links_markup : ∀ node : Node, (∀ kind ∈ node.landmarks, kind.isCustom = false) →
    anchors (markup node) = node.landmarks.filterMap NodeKind.anchor? ∧
      ∀ rest, references (markup node ++ rest) =
        node.landmarks.filterMap NodeKind.reference? ++ references rest
  | ⟨kind, children⟩, known => by
      rw [Node.landmarks_mk] at known ⊢
      rw [markup, List.filterMap_append, List.filterMap_append, NodeKind.filterMap_landmark_anchor?,
        NodeKind.filterMap_landmark_reference?]
      cases hides : kind.hidesChildren with
      | true =>
          obtain ⟨anchors, none, references⟩ := kindMarkup_of_hides hides children (markupAll children)
          rw [anchors, none]
          exact ⟨rfl, fun rest => by rw [references, if_pos rfl, List.filterMap_nil, List.append_nil]⟩
      | false =>
          rw [hides, List.forall_mem_append] at known
          have here := NodeKind.isCustom_of_landmark known.1
          have none : kind.reference? = .none := NodeKind.reference?_of_shows hides
          obtain ⟨inside, further⟩ := links_markupAll children known.2
          rw [none, if_neg Bool.false_ne_true]
          by_cases bare : kind.isCodeBlock = true ∧ children = []
          · obtain ⟨code, rfl⟩ := bare
            obtain ⟨quiet, same⟩ := kindMarkup_codeBlock code (markupAll [])
            have unnamed : kind.anchor? = .none := NodeKind.anchor?_of_isCodeBlock code
            rw [quiet, unnamed]
            exact ⟨rfl, same⟩
          · obtain ⟨front, back, around, ids, rest, plain⟩ :=
              frames_kindMarkup hides here fun code empty => bare ⟨code, empty⟩
            rw [List.forall_mem_append] at plain
            rw [around]
            constructor
            · rw [anchors_append, anchors_append, ids, inside, rest, List.append_nil]
            · intro behind
              rw [List.append_assoc, List.append_assoc, references_append_of_not_sup plain.1, further,
                references_append_of_not_sup plain.2]
              rfl

/-- The ids and references on a page are those of the landmarks of its trees, in order. -/
theorem links_markupAll : ∀ nodes : List Node,
    (∀ kind ∈ Node.landmarksAll nodes, kind.isCustom = false) →
      anchors (markupAll nodes) = (Node.landmarksAll nodes).filterMap NodeKind.anchor? ∧
        ∀ rest, references (markupAll nodes ++ rest) =
          (Node.landmarksAll nodes).filterMap NodeKind.reference? ++ references rest
  | [], _ => ⟨rfl, fun _ => rfl⟩
  | node :: rest, known => by
      rw [Node.landmarksAll_cons] at known ⊢
      rw [List.forall_mem_append] at known
      obtain ⟨anchors, references⟩ := links_markup node known.1
      obtain ⟨others, further⟩ := links_markupAll rest known.2
      rw [markupAll, List.filterMap_append, List.filterMap_append, anchors_append, anchors, others]
      refine ⟨rfl, fun behind => ?_⟩
      rw [List.append_assoc, references, further, List.append_assoc]

end

variable {node : Node} (known : ∀ kind ∈ node.landmarks, kind.isCustom = false)
include known

theorem anchors_markup : anchors (markup node) = node.landmarks.filterMap NodeKind.anchor? :=
  (links_markup node known).1

/-- The references in the markup of a tree are those of its landmarks, in order. -/
theorem references_markup :
    references (markup node) = node.landmarks.filterMap NodeKind.reference? := by
  have whole := (links_markup node known).2 []
  rwa [List.append_nil, show references [] = [] from rfl, List.append_nil] at whole

end Html

end DocPress
