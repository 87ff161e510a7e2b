import DocPress.Presentation
import DocPress.Proofs.Html.Markup

/-!
What the template of a tree shows. Its placeholders are the expressions of the tree in document
order, and filling it in is the same as emitting the tree with its expressions filled in.
-/

namespace DocPress.Html

/-! ### Expressions -/

/-- Whether the markup of a node of this kind holds that of its children. -/
def showsChildren : NodeKind → Bool
  | .text _ | .inlineCode _ | .image .. | .imageComponent .. | .thematicBreak | .softBreak
  | .hardBreak | .html _ | .footnoteReference _ | .brokenReference _ | .footnoteCrossReference ..
  | .expression _ => false
  | _ => true

mutual

/-- The names of the expressions that a tree shows, in document order. -/
def expressions : Node → List String
  | ⟨.expression name, _⟩ => [name]
  | ⟨kind, children⟩ => if showsChildren kind then expressionsAll children else []

/-- The names of the expressions that trees show, in document order. -/
def expressionsAll : List Node → List String
  | [] => []
  | node :: rest => expressions node ++ expressionsAll rest

end

/-- The name of a piece that is a placeholder. -/
def Markup.placeholderName? : Markup → Option String
  | .placeholder name => some name
  | _ => none

/-- The names of the placeholders of a page in order. -/
def placeholderNames (page : List Markup) : List String :=
  page.filterMap Markup.placeholderName?

@[simp] theorem placeholderNames_nil : placeholderNames [] = [] := rfl

@[simp] theorem placeholderNames_cons (piece : Markup) (rest : List Markup) :
    placeholderNames (piece :: rest) = piece.placeholderName?.toList ++ placeholderNames rest := by
  cases named : piece.placeholderName? <;> simp [placeholderNames, named]

@[simp] theorem placeholderNames_append (first second : List Markup) :
    placeholderNames (first ++ second) = placeholderNames first ++ placeholderNames second :=
  List.filterMap_append

@[simp] theorem placeholderNames_wrap (name : String) (attributes : List Attribute)
    (content : List Markup) :
    placeholderNames (wrap name attributes content) = placeholderNames content := by
  simp [wrap, Markup.placeholderName?]

@[simp] theorem placeholderNames_wrapLine (name : String) (attributes : List Attribute)
    (content : List Markup) :
    placeholderNames (wrapLine name attributes content) = placeholderNames content := by
  simp [wrapLine, Markup.placeholderName?]

@[simp] theorem placeholderNames_wrapLines (name : String) (attributes : List Attribute)
    (content : List Markup) :
    placeholderNames (wrapLines name attributes content) = placeholderNames content := by
  simp [wrapLines, Markup.placeholderName?]

@[simp] theorem placeholderNames_codeMarkup (language : Option String) (content : List Markup) :
    placeholderNames (codeMarkup language content) = placeholderNames content := by
  simp [codeMarkup]

/-- The placeholders of a page are those of its parts as a template. -/
theorem namesOf_segments (page : List Markup) :
    Template.namesOf (page.map Markup.segment) = placeholderNames page := by
  rw [Template.namesOf, Template.placeholders, List.filterMap_map, placeholderNames]
  congr 1
  funext piece
  cases piece <;> simp [Markup.segment, Markup.placeholderName?]

mutual

/-- The placeholders of the markup of a tree are the expressions that it shows. -/
theorem placeholderNames_markup : ∀ node : Node, placeholderNames (markup node) = expressions node
  | ⟨kind, children⟩ => by
      have below := placeholderNames_markupAll children
      rw [markup]
      cases kind with
      | codeBlock language info code =>
          cases children with
          | nil => rfl
          | cons child rest =>
              simpa [kindMarkup, expressions, showsChildren, Markup.placeholderName?] using below
      | codeBlockWithTitle title language code =>
          cases children with
          | nil =>
              simp [kindMarkup, expressions, showsChildren, Markup.placeholderName?, expressionsAll]
          | cons child rest =>
              simpa [kindMarkup, expressions, showsChildren, Markup.placeholderName?] using below
      | list ordered start =>
          cases ordered <;> simp [kindMarkup, expressions, showsChildren, below]
      | listItem checked =>
          rcases checked with _ | checked <;>
            simp [kindMarkup, checkbox, expressions, showsChildren, Markup.placeholderName?, below]
      | custom name attributes =>
          by_cases element : isElementName name = true <;>
            simp [kindMarkup, element, expressions, showsChildren, below]
      | _ => simp [kindMarkup, expressions, showsChildren, Markup.placeholderName?, below]

/-- The placeholders of the markup of trees are the expressions that they show. -/
theorem placeholderNames_markupAll :
    ∀ nodes : List Node, placeholderNames (markupAll nodes) = expressionsAll nodes
  | [] => rfl
  | node :: rest => by
      rw [markupAll, placeholderNames_append, placeholderNames_markup node,
        placeholderNames_markupAll rest, expressionsAll]

end

/-! ### Filling in -/

/-- The kind with an expression replaced by the escaped value of its name, or by nothing when the
name has no value. -/
def fillKind (props : Props) : NodeKind → NodeKind
  | .expression name => .html (escape ((props.get? name).getD ""))
  | kind => kind

mutual

/-- A tree with every expression replaced by its escaped value. -/
def fill (props : Props) : Node → Node
  | ⟨kind, children⟩ => ⟨fillKind props kind, fillAll props children⟩

/-- Trees with every expression replaced by its escaped value. -/
def fillAll (props : Props) : List Node → List Node
  | [] => []
  | node :: rest => fill props node :: fillAll props rest

end

variable {props : Props}

/-- A piece with a placeholder replaced by its escaped value. -/
def Markup.fill (props : Props) : Markup → Markup
  | .placeholder name => .raw (escape ((props.get? name).getD ""))
  | piece => piece

mutual

/-- An expression adds nothing to the text of a tree, whether it is filled in or not. -/
theorem textContent_fill : ∀ node : Node, (fill props node).textContent = node.textContent
  | ⟨kind, children⟩ => by
      rw [fill, Node.textContent, Node.textContent, textContentAll_fillAll children]
      congr 1
      cases kind <;> cases children <;> rfl

theorem textContentAll_fillAll :
    ∀ nodes : List Node, Node.textContentAll (fillAll props nodes) = Node.textContentAll nodes
  | [] => rfl
  | node :: rest => by
      rw [fillAll, Node.textContentAll, Node.textContentAll, textContent_fill node,
        textContentAll_fillAll rest]

end

@[simp] theorem map_fill_wrap (name : String) (attributes : List Attribute)
    (content : List Markup) :
    (wrap name attributes content).map (Markup.fill props) =
      wrap name attributes (content.map (Markup.fill props)) := by
  simp [wrap, Markup.fill]

/-- The markup of a filled node is the filled markup of the node. -/
theorem kindMarkup_fill (kind : NodeKind) (children : List Node) (content : List Markup) :
    kindMarkup ⟨fillKind props kind, fillAll props children⟩ (content.map (Markup.fill props)) =
      (kindMarkup ⟨kind, children⟩ content).map (Markup.fill props) := by
  cases kind with
  | codeBlock language info code =>
      cases children <;> simp [kindMarkup, fillKind, fillAll, codeMarkup, Markup.fill]
  | codeBlockWithTitle title language code =>
      cases children <;> simp [kindMarkup, fillKind, fillAll, wrapLine, codeMarkup, Markup.fill]
  | image url title =>
      have alt : (fill props ⟨.image url title, children⟩).textContent =
          (Node.mk (.image url title) children).textContent := textContent_fill _
      rw [fill] at alt
      simpa [kindMarkup, fillKind, Markup.fill] using congrArg (attr "alt") alt
  | list ordered start =>
      cases ordered <;> simp [kindMarkup, fillKind, wrapLines, wrapLine, Markup.fill]
  | listItem checked =>
      rcases checked with _ | checked <;>
        simp [kindMarkup, fillKind, wrapLine, checkbox, Markup.fill]
  | custom name attributes =>
      by_cases element : isElementName name = true <;> simp [kindMarkup, fillKind, element]
  | _ => simp [kindMarkup, fillKind, wrapLine, wrapLines, Markup.fill]

mutual

/-- The markup of a filled tree is the filled markup of the tree. -/
theorem markup_fill :
    ∀ node : Node, markup (fill props node) = (markup node).map (Markup.fill props)
  | ⟨kind, children⟩ => by
      rw [fill, markup, markupAll_fillAll children, markup]
      exact kindMarkup_fill kind children (markupAll children)

theorem markupAll_fillAll :
    ∀ nodes : List Node, markupAll (fillAll props nodes) = (markupAll nodes).map (Markup.fill props)
  | [] => rfl
  | node :: rest => by
      rw [fillAll, markupAll, markup_fill node, markupAll_fillAll rest, markupAll, List.map_append]

end

/-- Changing all values changes the value of every name. -/
theorem get?_mapValues (f : String → String) (name : String) :
    (props.mapValues f).get? name = (props.get? name).map f := by
  rw [Props.get?, Props.mapValues, List.find?_map, Option.map_map, Props.get?, Option.map_map]
  rfl

/-- A part of the template shows what its filled piece is written as. -/
theorem chars_fill (piece : Markup) :
    (piece.fill props).chars = Template.segmentText (props.mapValues escape) piece.segment := by
  cases piece with
  | placeholder name =>
      have escaped (text : String) : guardChars (escape text).toList = (escape text).toList := by
        refine guardChars_eq_self ?_
        rw [escape, String.toList_ofList]
        exact not_mem_escapeChars text.toList
      have same : (escape ((props.get? name).getD "")) =
          ((props.get? name).map escape).getD "" := by
        cases props.get? name <;> rfl
      rw [Markup.fill, Markup.chars, escaped, Markup.segment, Template.segmentText,
        String.ofList_toList, get?_mapValues, same]
  | _ => rfl

/-! ### Templates of trees -/

/-- A page whose parts can be told from their source is a template of these parts. -/
theorem parse_write_of_areReadable {page : List Markup}
    (readable : Template.AreReadable [] (page.map Markup.segment)) :
    Template.parse (write page) = .ok ⟨Template.joinLiterals [] (page.map Markup.segment)⟩ := by
  have source : write page =
      String.ofList ((page.map Markup.segment).flatMap Template.segmentSource) := by
    rw [write, List.flatMap_map]
    simp only [Markup.segmentSource_segment]
  rw [source]
  exact Template.parse_source readable

/-- A page of plain pieces is a template whose parts are its pieces. -/
theorem parse_write {page : List Markup} (plain : IsPlainPage page) :
    Template.parse (write page) = .ok ⟨Template.joinLiterals [] (page.map Markup.segment)⟩ := by
  refine parse_write_of_areReadable (Template.areReadable_of_isWritable ?_ trivial)
  intro segment member
  obtain ⟨piece, inPage, rfl⟩ := List.mem_map.1 member
  exact (plain piece inPage).isWritable

/-- A page of plain pieces shows itself with the placeholders filled in. -/
theorem invoke_write {page : List Markup} (plain : IsPlainPage page) :
    invoke (write page) props = .ok (write (page.map (Markup.fill props))) := by
  have optional : ∀ name, .placeholder name false ∉ page.map Markup.segment := by
    intro name member
    obtain ⟨piece, -, same⟩ := List.mem_map.1 member
    cases piece <;> simp [Markup.segment] at same
  have shown : (page.map (Markup.fill props)).flatMap Markup.chars =
      (page.map Markup.segment).flatMap (Template.segmentText (props.mapValues escape)) := by
    rw [List.flatMap_map, List.flatMap_map]
    simp only [chars_fill]
  rw [invoke, parse_write plain, write, shown]
  exact congrArg (Except.mapError PresentError.invoke) (Template.render_source _ optional)

/-- Filling in the template of a tree is emitting the tree with its expressions filled in; the
placeholders of the template are the expressions of the tree. -/
theorem invoke_emit {tree : Node}
    (names : ∀ name, .expression name ∈ tree.kinds → Recognizer.isName name.toList = true)
    (raw : ∀ value, .html value ∈ tree.kinds → value.toList.getLast? ≠ some '{')
    (props : Props) :
    invoke (emit tree) props = .ok (emit (fill props tree)) ∧
      ∃ template, Template.parse (emit tree) = .ok template ∧
        template.placeholders = expressions tree := by
  have plainKinds : Node.Every IsPlainKind tree := by
    intro kind member
    cases kind with
    | expression name => exact names name member
    | html value => exact raw value member
    | _ => trivial
  have plain := isPlainPage_markup plainKinds
  constructor
  · rw [emit, invoke_write plain, emit, markup_fill]
  · refine ⟨_, parse_write plain, ?_⟩
    have joined := Template.namesOf_joinLiterals [] ((markup tree).map Markup.segment)
    rw [namesOf_segments, placeholderNames_markup] at joined
    exact joined

/-- Braces around an expression, in a text before it and in raw HTML behind it, neither hide it nor
make another one. -/
theorem invoke_emit_braces :
    let tree := Node.document [⟨.paragraph,
      [.text "\x7b\x7b", .leaf (.expression "name"), .leaf (.html "\x7b\x7b name \x7d\x7d")]⟩]
    let props := Props.ofList [("name", "<a>")]
    invoke (emit tree) props = .ok (emit (fill props tree)) ∧
      emit (fill props tree) =
        "<p>&#123;&#123;&lt;a&gt;&#123;\x7b name \x7d\x7d</p>\n" ∧
      ∃ template, Template.parse (emit tree) = .ok template ∧ template.placeholders = ["name"] := by
  intro tree props
  have names : ∀ name, .expression name ∈ tree.kinds → Recognizer.isName name.toList = true := by
    intro name member
    have same : name = "name" := by
      simpa [tree, Node.document, Node.leaf, Node.text, Node.kinds, Node.walk, Node.walkAll]
        using member
    rw [same]
    decide
  have raw : ∀ value, .html value ∈ tree.kinds → value.toList.getLast? ≠ some '{' := by
    intro value member
    have same : value = "\x7b\x7b name \x7d\x7d" := by
      simpa [tree, Node.document, Node.leaf, Node.text, Node.kinds, Node.walk, Node.walkAll]
        using member
    rw [same]
    decide
  obtain ⟨shown, placeholders⟩ := invoke_emit names raw props
  exact ⟨shown, by decide, placeholders⟩

end DocPress.Html
