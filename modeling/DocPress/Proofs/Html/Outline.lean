import DocPress.Proofs.Caption
import DocPress.Proofs.Html.Tag

/-!
The outline of a page. Its tags are nested and they are told by the kinds of the nodes of its tree: no
string of the document, no number but the level of a heading and no value that is filled in makes a
tag or loses one.
-/

namespace DocPress.Html

/-! ### Nested tags -/

/-- The open elements after a tag, innermost one first; there are none if the tag closes another element
than the innermost one. -/
def Tag.nest? (stack : List String) : Tag → Option (List String)
  | .opening name => some (name :: stack)
  | .closing name => if stack.head? = some name then some stack.tail else none
  | .empty _ => some stack

/-- The open elements after tags in order. -/
def openAfter : List String → List Tag → Option (List String)
  | stack, [] => some stack
  | stack, tag :: rest => (tag.nest? stack).bind fun stack => openAfter stack rest

/-- Whether every tag that opens an element is closed by one of the same name, and these are nested. -/
def AreNested (found : List Tag) : Prop :=
  openAfter [] found = some []

/-- Whether tags leave the elements open that are open before them. -/
def AreBalanced (found : List Tag) : Prop :=
  ∀ stack, openAfter stack found = some stack

theorem openAfter_append (stack : List String) (first second : List Tag) :
    openAfter stack (first ++ second) =
      (openAfter stack first).bind fun stack => openAfter stack second := by
  induction first generalizing stack with
  | nil => rfl
  | cons tag rest ih =>
      rw [List.cons_append, openAfter, openAfter, Option.bind_assoc]
      simp only [ih]

theorem AreBalanced.append {first second : List Tag} (head : AreBalanced first)
    (tail : AreBalanced second) : AreBalanced (first ++ second) := by
  intro stack
  rw [openAfter_append, head stack]
  exact tail stack

/-- Balanced tags between a tag and its end are balanced. -/
theorem AreBalanced.wrap {inside : List Tag} (balanced : AreBalanced inside) (name : String) :
    AreBalanced (.opening name :: inside ++ [.closing name]) := by
  intro stack
  rw [openAfter_append, openAfter, Tag.nest?, Option.bind_some, balanced]
  simp [openAfter, Tag.nest?]

/-! ### Properties of pages -/

/-- Whether pages have a property when the ones that they are put together of have it. -/
structure Composes (p : List Markup → Prop) : Prop where
  nil : p []
  append : ∀ {first second : List Markup}, p first → p second → p (first ++ second)
  text : ∀ value : String, p [.text value]
  layout : ∀ {value : String}, '<' ∉ value.toList → p [.layout value]
  placeholder : ∀ {name : String}, Recognizer.isName name.toList = true → p [.placeholder name]
  empty : ∀ {name : String} {attributes : List Attribute}, IsLegal name attributes →
    p [.empty name attributes]
  wrap : ∀ {name : String} {attributes : List Attribute} {content : List Markup},
    IsLegal name attributes → p content → p (wrap name attributes content)

variable {p : List Markup → Prop} {name : String} {attributes : List Attribute} {content : List Markup}

theorem Composes.line (composes : Composes p) : p [.layout "\n"] :=
  composes.layout (by decide)

theorem Composes.wrapLine (composes : Composes p) (legal : IsLegal name attributes)
    (inside : p content) : p (wrapLine name attributes content) :=
  composes.append (composes.wrap legal inside) composes.line

theorem Composes.wrapLines (composes : Composes p) (legal : IsLegal name attributes)
    (inside : p content) : p (wrapLines name attributes content) :=
  composes.wrapLine legal (composes.append composes.line inside)

theorem isLegal_nil (legal : isElementName name = true) : IsLegal name [] :=
  ⟨legal, fun _ member => nomatch member⟩

theorem IsLegal.attr (legal : IsLegal name attributes) {key : String}
    (named : isElementName key = true) (value : String) : IsLegal name (attr key value :: attributes) :=
  ⟨legal.1, List.forall_mem_cons.2 ⟨named, legal.2⟩⟩

theorem IsLegal.append (legal : IsLegal name attributes) {others : List Attribute}
    (others' : IsLegal name others) : IsLegal name (attributes ++ others) :=
  ⟨legal.1, List.forall_mem_append.2 ⟨legal.2, others'.2⟩⟩

/-- An optional attribute with a proper name is legal. -/
theorem isLegal_optional (legal : isElementName name = true) {key : String}
    (named : isElementName key = true) (value : Option String) :
    IsLegal name (optionalAttribute key value) := by
  cases value with
  | none => exact isLegal_nil legal
  | some value => exact (isLegal_nil legal).attr named value

/-- A title is a legal attribute. -/
theorem isLegal_title (legal : isElementName name = true) (title : String) :
    IsLegal name (titleAttribute title) := by
  unfold titleAttribute
  split
  · exact isLegal_nil legal
  · exact (isLegal_nil legal).attr (by decide) title

/-- Headings have proper element names. -/
theorem isElementName_heading (level : Nat) : isElementName ("h" ++ toString level) = true := by
  have digits : (toString level).toList.all (fun c => c.isAlphanum || c = '-') = true := by
    rw [List.all_eq_true]
    intro c member
    rw [Nat.toString_eq_ofList_toDigits, String.toList_ofList] at member
    have digit := Nat.isDigit_of_mem_toDigits (by decide) (by decide) member
    simp [Char.isAlphanum, digit]
  rw [isElementName, String.toList_append]
  exact digits

/-- Code has the property when its content does. -/
theorem Composes.codeMarkup (composes : Composes p) (language : Option String) (inside : p content) :
    p (codeMarkup language content) :=
  composes.wrap (isLegal_optional (by decide) (by decide) _)
    (composes.wrap (isLegal_optional (by decide) (by decide) _) inside)

/-- A checkbox has every property that is put together. -/
theorem Composes.checkbox (composes : Composes p) (checked : Bool) : p (checkbox checked) := by
  have box : p [.empty "input" (attr "type" "checkbox" ::
      (if checked then [Attribute.mk "checked" none] else []) ++ [⟨"disabled", none⟩])] := by
    refine composes.empty ?_
    cases checked <;> exact ⟨by decide, by decide⟩
  exact composes.append box (composes.layout (by decide))

/-- Whether what a node of the kind shows of the document is escaped: there is no raw HTML, and an
expression has a name that the recognizer accepts. -/
def isEscapedKind : NodeKind → Bool
  | .expression name => Recognizer.isName name.toList
  | .html _ => false
  | _ => true

/-- Whether all that a tree shows of the document is escaped. -/
def IsEscaped (tree : Node) : Prop :=
  tree.Every fun kind => isEscapedKind kind = true

/-- A node of code has the property whether it shows its own text or its children. -/
theorem Composes.code (composes : Composes p) (children : List Node) (code : String) (inside : p content) :
    p (if children.isEmpty then [.text code] else content) := by
  split
  · exact composes.text code
  · exact inside

/-- The markup of a node is put together of elements, texts and that of its children. -/
theorem Composes.kindMarkup (composes : Composes p) {kind : NodeKind} (escaped : isEscapedKind kind = true)
    (children : List Node) (inside : p content) : p (kindMarkup ⟨kind, children⟩ content) := by
  cases kind with
  | document | fragment => exact inside
  | html value => cases escaped
  | expression name => exact composes.placeholder escaped
  | text value => exact composes.text value
  | softBreak => exact composes.line
  | heading level id =>
      exact composes.wrapLine (isLegal_optional (isElementName_heading _) (by decide) id) inside
  | paragraph | tableRow => exact composes.wrapLine (isLegal_nil (by decide)) inside
  | emphasis | strong | strikethrough => exact composes.wrap (isLegal_nil (by decide)) inside
  | blockQuote | tableHead | tableBody => exact composes.wrapLines (isLegal_nil (by decide)) inside
  | table alignments => exact composes.wrapLines (isLegal_nil (by decide)) inside
  | inlineCode value => exact composes.wrap (isLegal_nil (by decide)) (composes.text value)
  | codeBlock language info code =>
      exact composes.append (composes.codeMarkup language (composes.code children code inside))
        composes.line
  | codeBlockWithTitle title language code =>
      exact composes.wrapLine ((isLegal_nil (by decide)).attr (by decide) _)
        (composes.append (composes.wrap ((isLegal_nil (by decide)).attr (by decide) _)
          (composes.text title)) (composes.codeMarkup language (composes.code children code inside)))
  | token className => exact composes.wrap ((isLegal_nil (by decide)).attr (by decide) _) inside
  | inlineNote label => exact composes.wrap ((isLegal_nil (by decide)).attr (by decide) _) inside
  | image url title =>
      exact composes.empty ((((isLegal_nil (by decide)).attr (by decide) _).attr (by decide) _).append
        (isLegal_title (by decide) title))
  | imageComponent url alt width height =>
      have sized (key : String) (named : isElementName key = true) (value : Option String) :
          IsLegal "img" (optionalAttribute key value) := isLegal_optional (by decide) named value
      have start : IsLegal "img" [Html.attr "src" url, Html.attr "alt" alt] :=
        ((isLegal_nil (by decide)).attr (by decide) _).attr (by decide) _
      exact composes.empty (((start.append (sized "width" (by decide) _)).append
        (sized "height" (by decide) _)).append
          (((isLegal_nil (by decide)).attr (by decide) _).attr (by decide) _))
  | link url title => exact composes.wrap ((isLegal_title (by decide) title).attr (by decide) _) inside
  | list ordered start =>
      cases ordered with
      | false => exact composes.wrapLines (isLegal_nil (by decide)) inside
      | true =>
          refine composes.wrapLines ?_ inside
          cases start with
          | none => exact isLegal_nil (by decide)
          | some n =>
              dsimp only
              split
              · exact isLegal_nil (by decide)
              · exact (isLegal_nil (by decide)).attr (by decide) _
  | listItem checked =>
      refine composes.wrapLine (isLegal_nil (by decide)) (composes.append ?_ inside)
      cases checked with
      | none => exact composes.nil
      | some checked => exact composes.checkbox checked
  | tableCell header align =>
      refine composes.wrap (isLegal_optional ?_ (by decide) _) inside
      cases header <;> decide
  | thematicBreak | hardBreak =>
      exact composes.append (composes.empty (isLegal_nil (by decide))) composes.line
  | footnoteReference label | brokenReference label =>
      exact composes.wrap ((isLegal_nil (by decide)).attr (by decide) _) (composes.text _)
  | footnoteDefinition label =>
      exact composes.wrapLine (((isLegal_nil (by decide)).attr (by decide) _).attr (by decide) _) inside
  | footnoteCrossReference label ordinal =>
      exact composes.wrap ((isLegal_nil (by decide)).attr (by decide) _)
        (composes.wrap ((isLegal_nil (by decide)).attr (by decide) _) (composes.text _))
  | footnoteList =>
      exact composes.wrapLines ((isLegal_nil (by decide)).attr (by decide) _)
        (composes.wrapLines (isLegal_nil (by decide)) inside)
  | footnoteItem label ordinal =>
      exact composes.wrapLine ((isLegal_nil (by decide)).attr (by decide) _) inside
  | «section» depth => exact composes.wrapLines ((isLegal_nil (by decide)).attr (by decide) _) inside
  | custom name attributes =>
      by_cases element : isElementName name = true
      · have kept : IsLegal name ((attributes.entries.filter fun entry => isElementName entry.1).map
            fun entry => Html.attr entry.1 entry.2) := by
          refine ⟨element, fun a member => ?_⟩
          obtain ⟨entry, inEntries, rfl⟩ := List.mem_map.1 member
          exact (List.mem_filter.1 inEntries).2
        simpa only [Html.kindMarkup, element, if_true] using composes.wrap kept inside
      · simpa only [Html.kindMarkup, element, Bool.false_eq_true, if_false] using inside

mutual

/-- The markup of a tree has a property when the pages that it is put together of have it. -/
theorem Composes.markup (composes : Composes p) : ∀ {node : Node}, IsEscaped node → p (markup node)
  | ⟨kind, children⟩, escaped => by
      obtain ⟨here, below⟩ := Node.every_mk.1 escaped
      rw [Html.markup]
      exact composes.kindMarkup here children (composes.markupAll below)

theorem Composes.markupAll (composes : Composes p) : ∀ {nodes : List Node},
    Node.EveryAll (fun kind => isEscapedKind kind = true) nodes → p (markupAll nodes)
  | [], _ => composes.nil
  | node :: rest, escaped => by
      obtain ⟨first, others⟩ := Node.everyAll_cons.1 escaped
      exact composes.append (composes.markup first) (composes.markupAll others)

end

/-! ### Tags of pages -/

@[simp] theorem tagsOf_nil : tagsOf [] = [] := rfl

@[simp] theorem tagsOf_append (first second : List Markup) :
    tagsOf (first ++ second) = tagsOf first ++ tagsOf second :=
  List.filterMap_append

@[simp] theorem tagsOf_cons (piece : Markup) (rest : List Markup) :
    tagsOf (piece :: rest) = piece.tag?.toList ++ tagsOf rest := by
  rw [tagsOf, List.filterMap_cons]
  cases piece.tag? <;> rfl

@[simp] theorem tagsOf_wrap (name : String) (attributes : List Attribute) (content : List Markup) :
    tagsOf (wrap name attributes content) = .opening name :: tagsOf content ++ [.closing name] := by
  simp [wrap, Markup.tag?]

/-- Balanced tags are a property that is put together. -/
theorem composes_balanced : Composes fun page => AreBalanced (tagsOf page) where
  nil := fun _ => rfl
  append head tail := by
    rw [tagsOf_append]
    exact head.append tail
  text _ := fun _ => rfl
  layout _ := fun _ => rfl
  placeholder _ := fun _ => rfl
  empty _ := fun _ => rfl
  wrap _ inside := by
    rw [tagsOf_wrap]
    exact inside.wrap _

/-- Whether all pieces of a page are regular. -/
def IsRegularPage (page : List Markup) : Prop :=
  ∀ piece ∈ page, piece.IsRegular

theorem isRegularPage_singleton {piece : Markup} (regular : piece.IsRegular) :
    IsRegularPage [piece] :=
  List.forall_mem_singleton.2 regular

theorem not_mem_placeholderChars (named : Recognizer.isName name.toList = true) :
    '<' ∉ placeholderChars name := by
  rw [Recognizer.isName, Bool.and_eq_true, List.all_eq_true] at named
  have absent : '<' ∉ name.toList := fun member => absurd (named.2 '<' member) (by decide)
  simp [placeholderChars, absent]

/-- Being regular is a property that is put together. -/
theorem composes_regular : Composes IsRegularPage where
  nil := fun _ member => nomatch member
  append head tail := List.forall_mem_append.2 ⟨head, tail⟩
  text value := isRegularPage_singleton (not_mem_mark_escapeChars value.toList).2
  layout free := isRegularPage_singleton free
  placeholder named := isRegularPage_singleton (not_mem_placeholderChars named)
  empty legal := isRegularPage_singleton legal
  wrap legal inside :=
    List.forall_mem_append.2 ⟨List.forall_mem_cons.2 ⟨legal, inside⟩, isRegularPage_singleton legal.1⟩

/-- Filling in a page neither makes a tag nor loses one. -/
theorem tagsOf_fill (props : Props) (page : List Markup) :
    tagsOf (page.map (Markup.fill props)) = tagsOf page := by
  rw [tagsOf, List.filterMap_map, tagsOf]
  congr 1
  funext piece
  cases piece <;> rfl

/-- What is filled in is escaped. -/
theorem isRegularPage_fill (props : Props) {page : List Markup} (regular : IsRegularPage page) :
    IsRegularPage (page.map (Markup.fill props)) := by
  intro piece member
  obtain ⟨piece, inPage, rfl⟩ := List.mem_map.1 member
  cases piece with
  | placeholder name =>
      intro mark
      have guarded := (not_mem_mark_escapeChars ((props.get? name).getD "").toList).2
      rw [Markup.fill, Markup.chars, escape, String.toList_ofList,
        guardChars_eq_self (not_mem_escapeChars _)] at mark
      exact guarded mark
  | _ => exact regular _ inPage

/-! ### Outlines -/

/-- What the tags of a node are told by: its kind with the level of a heading, whether a list is ordered,
the state of a task, whether a cell is in a head and the name of an element. -/
def outline : NodeKind → NodeKind
  | .heading level _ => .heading level none
  | .text _ => .text ""
  | .inlineCode _ => .inlineCode ""
  | .codeBlock .. => .codeBlock none none ""
  | .codeBlockWithTitle .. => .codeBlockWithTitle "" none ""
  | .token _ => .token ""
  | .image .. => .image "" ""
  | .imageComponent .. => .imageComponent "" "" none none
  | .link .. => .link "" ""
  | .list ordered _ => .list ordered none
  | .table _ => .table []
  | .tableCell header _ => .tableCell header none
  | .html _ => .html ""
  | .footnoteReference _ => .footnoteReference ""
  | .footnoteDefinition _ => .footnoteDefinition ""
  | .footnoteCrossReference .. => .footnoteCrossReference "" 0
  | .brokenReference _ => .brokenReference ""
  | .inlineNote _ => .inlineNote ""
  | .footnoteItem .. => .footnoteItem "" 0
  | .section _ => .section 0
  | .expression _ => .expression ""
  | .custom name _ => .custom name .empty
  | kind => kind

/-- The tags of a node are those of its outline around the tags of its content. -/
theorem tagsOf_kindMarkup_outline (kind : NodeKind) {children nodes : List Node}
    {content content' : List Markup} (bare : nodes.isEmpty = children.isEmpty)
    (same : tagsOf content' = tagsOf content) :
    tagsOf (kindMarkup ⟨outline kind, nodes⟩ content') =
      tagsOf (kindMarkup ⟨kind, children⟩ content) := by
  have code (code : String) : tagsOf (if nodes.isEmpty then [.text ""] else content') =
      tagsOf (if children.isEmpty then [.text code] else content) := by
    rw [bare]
    split
    · rfl
    · exact same
  simp only [List.isEmpty_iff] at code
  cases kind with
  | codeBlock language info value =>
      simp [kindMarkup, outline, codeMarkup, Markup.tag?, code value]
  | codeBlockWithTitle title language value =>
      simp [kindMarkup, outline, wrapLine, codeMarkup, Markup.tag?, code value]
  | list ordered start =>
      cases ordered <;> simp [kindMarkup, outline, wrapLine, wrapLines, Markup.tag?, same]
  | listItem checked =>
      cases checked <;> simp [kindMarkup, outline, wrapLine, Markup.tag?, same]
  | custom name attributes =>
      by_cases element : isElementName name = true <;> simp [kindMarkup, outline, element, same]
  | _ => simp [kindMarkup, outline, wrapLine, wrapLines, Markup.tag?, same]

mutual

/-- The tags of a tree are those of its outline. -/
theorem tagsOf_markup_outline : ∀ node : Node,
    tagsOf (markup (node.mapKinds outline)) = tagsOf (markup node)
  | ⟨kind, children⟩ => by
      rw [Node.mapKinds_mk, markup, markup]
      exact tagsOf_kindMarkup_outline kind (List.isEmpty_map) (tagsOf_markupAll_outline children)

theorem tagsOf_markupAll_outline : ∀ nodes : List Node,
    tagsOf (markupAll (nodes.map (Node.mapKinds outline))) = tagsOf (markupAll nodes)
  | [] => rfl
  | node :: rest => by
      rw [List.map_cons, markupAll, markupAll, tagsOf_append, tagsOf_append,
        tagsOf_markup_outline node, tagsOf_markupAll_outline rest]

end

/-! ### Tags of templates and pages -/

variable {tree : Node}

theorem IsEscaped.plain (escaped : IsEscaped tree) : IsPlainPage (markup tree) := by
  refine isPlainPage_markup (escaped.mono fun kind here => ?_)
  cases kind <;> trivial

theorem tags_emit (escaped : IsEscaped tree) : tags (emit tree) = tagsOf (markup tree) :=
  tags_write (composes_regular.markup escaped)

/-- A page shows the tags of its template, whatever is filled in. -/
theorem exists_invoke_tags (escaped : IsEscaped tree) (props : Props) :
    ∃ shown, invoke (emit tree) props = .ok shown ∧ tags shown = tags (emit tree) := by
  refine ⟨_, invoke_write escaped.plain, ?_⟩
  rw [tags_write (isRegularPage_fill props (composes_regular.markup escaped)), tagsOf_fill,
    tags_emit escaped]

/-- The tags of a page are nested, and trees with the same outline have the same ones, in their templates
and in their pages with any values. -/
theorem nested_tags_of_outline (escaped : IsEscaped tree) :
    AreNested (tags (emit tree)) ∧
      (∀ props, ∃ shown, invoke (emit tree) props = .ok shown ∧ tags shown = tags (emit tree)) ∧
      ∀ other, IsEscaped other → other.mapKinds outline = tree.mapKinds outline →
        tags (emit other) = tags (emit tree) ∧
          ∀ props props', ∃ shown shown', invoke (emit tree) props = .ok shown ∧
            invoke (emit other) props' = .ok shown' ∧ tags shown' = tags shown := by
  refine ⟨?_, exists_invoke_tags escaped, fun other otherEscaped alike => ?_⟩
  · rw [tags_emit escaped]
    exact composes_balanced.markup escaped []
  · have same : tags (emit other) = tags (emit tree) := by
      rw [tags_emit escaped, tags_emit otherEscaped, ← tagsOf_markup_outline other, alike,
        tagsOf_markup_outline]
    refine ⟨same, fun props props' => ?_⟩
    obtain ⟨shown, here, tagsHere⟩ := exists_invoke_tags escaped props
    obtain ⟨shown', there, tagsThere⟩ := exists_invoke_tags otherEscaped props'
    exact ⟨shown, shown', here, there, by rw [tagsThere, same, tagsHere]⟩

/-- Quotes and tags in the strings of a document and in a value are no tags of its page. -/
theorem nested_tags_of_outline_quotes :
    let tree := Node.document [⟨.paragraph, [⟨.link "\"><i a=\"" "", [.text "</a><b>"]⟩,
      .leaf (.codeBlock (some "'\">") none "</pre>"), .leaf (.expression "name")]⟩]
    let other := Node.document [⟨.paragraph, [⟨.link "/" "home", [.text "home"]⟩,
      .leaf (.codeBlock none none "x"), .leaf (.expression "other")]⟩]
    let found : List Tag := [.opening "p", .opening "a", .closing "a", .opening "pre",
      .opening "code", .closing "code", .closing "pre", .closing "p"]
    IsEscaped tree ∧ IsEscaped other ∧ other.mapKinds outline = tree.mapKinds outline ∧
      tags (emit tree) = found ∧ AreNested (tags (emit tree)) ∧ tags (emit other) = found ∧
      ∃ shown shown', invoke (emit tree) (Props.ofList [("name", "<script>")]) = .ok shown ∧
        invoke (emit other) (Props.ofList []) = .ok shown' ∧ tags shown' = tags shown := by
  intro tree other found
  have escaped : IsEscaped tree := by
    unfold IsEscaped Node.Every
    decide +kernel
  have otherEscaped : IsEscaped other := by
    unfold IsEscaped Node.Every
    decide +kernel
  have alike : other.mapKinds outline = tree.mapKinds outline := by decide +kernel
  have read : tags (emit tree) = found := by
    rw [tags_emit escaped]
    decide +kernel
  obtain ⟨nested, -, outlined⟩ := nested_tags_of_outline escaped
  obtain ⟨same, shown⟩ := outlined other otherEscaped alike
  exact ⟨escaped, otherEscaped, alike, read, nested, same.trans read, shown _ _⟩

end DocPress.Html
