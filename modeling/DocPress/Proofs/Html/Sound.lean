import DocPress.Proofs.Html.Expression
import DocPress.Proofs.Node.Sound

/-!
The templates of sound trees. Raw HTML of a page may end in a brace in front of a tag and at the end of
the page: no placeholder opens there, so that the page is a template still.
-/

namespace DocPress

namespace Html

/-! ### Pages -/

/-- Whether a piece is a tag. -/
def Markup.isTag : Markup → Bool
  | .opening .. | .closing _ | .empty .. => true
  | _ => false

/-- Whether a piece is raw HTML. -/
def Markup.isRaw : Markup → Bool
  | .raw _ => true
  | _ => false

/-- Whether raw HTML that ends in a brace may stand in front of pieces: they start with a tag, or there
are none and this is the end of the page. -/
def Tolerates (last : Bool) : List Markup → Prop
  | [] => last = true
  | piece :: _ => piece.isTag = true

/-- Whether the pieces of a page are plain, apart from raw HTML where it may end in a brace; `last` says
whether it may do so at the end of the pieces. -/
def IsSoundPage (last : Bool) : List Markup → Prop
  | [] => True
  | piece :: rest =>
    (piece.IsPlain ∨ piece.isRaw = true ∧ Tolerates last rest) ∧ IsSoundPage last rest

variable {last : Bool} {page first second content : List Markup}

/-- A plain page is sound anywhere. -/
theorem IsPlainPage.isSoundPage (plain : IsPlainPage page) : IsSoundPage last page := by
  induction page with
  | nil => trivial
  | cons piece rest ih =>
      rw [isPlainPage_cons] at plain
      exact ⟨.inl plain.1, ih plain.2⟩

/-- Pages side by side are sound when the second one tolerates what the first one may end in. -/
theorem IsSoundPage.append {free : Bool} (head : IsSoundPage free first)
    (tail : IsSoundPage last second) (meets : free = true → Tolerates last second) :
    IsSoundPage last (first ++ second) := by
  induction first with
  | nil => exact tail
  | cons piece rest ih =>
      refine ⟨head.1.imp_right fun ⟨raw, ends⟩ => ⟨raw, ?_⟩, ih head.2⟩
      cases rest with
      | nil => exact meets ends
      | cons next rest => exact ends

/-! ### Elements -/

/-- Whether markup puts a tag somewhere behind its content, if it shows it. -/
def Closes (f : List Markup → List Markup) : Prop :=
  (∀ content, f content = f []) ∨
    ∃ before tag after, tag.isTag = true ∧ ∀ content, f content = before ++ content ++ tag :: after

variable {f : List Markup → List Markup}

theorem closes_wrap (name : String) (attributes : List Attribute) : Closes (wrap name attributes) :=
  .inr ⟨[.opening name attributes], .closing name, [], rfl, fun _ => rfl⟩

theorem closes_const (page : List Markup) : Closes fun _ => page :=
  .inl fun _ => rfl

/-- Markup that closes what it opens does so with more around it. -/
theorem Closes.around (closes : Closes f) (front back : List Markup) :
    Closes fun content => front ++ f content ++ back := by
  rcases closes with hidden | ⟨before, tag, after, isTag, shown⟩
  · exact .inl fun content => congrArg (front ++ · ++ back) (hidden content)
  · exact .inr ⟨front ++ before, tag, after ++ back, isTag, fun content => by simp [shown content]⟩

/-- Markup that closes what it opens does so with more in front of the content. -/
theorem Closes.under (closes : Closes f) (front : List Markup) :
    Closes fun content => f (front ++ content) := by
  rcases closes with hidden | ⟨before, tag, after, isTag, shown⟩
  · exact .inl fun content => (hidden (front ++ content)).trans (hidden (front ++ [])).symm
  · exact .inr ⟨before ++ front, tag, after, isTag, fun content => by simp [shown]⟩

theorem closes_wrapLine (name : String) (attributes : List Attribute) :
    Closes (wrapLine name attributes) :=
  (closes_wrap name attributes).around [] [.layout "\n"]

theorem closes_wrapLines (name : String) (attributes : List Attribute) :
    Closes (wrapLines name attributes) :=
  (closes_wrapLine name attributes).under [.layout "\n"]

theorem closes_codeMarkup (language : Option String) : Closes (codeMarkup language) :=
  (closes_wrap "code" _).around [.opening "pre" _] [.closing "pre"]

/-- Code that shows its own text or its children closes what it opens. -/
theorem closes_codeMarkup_code (language : Option String) (children : List Node) (code : String) :
    Closes fun content =>
      codeMarkup language (if children.isEmpty then [.text code] else content) := by
  cases children with
  | nil => exact closes_const (codeMarkup language [.text code])
  | cons child rest => exact closes_codeMarkup language

/-- The markup of a kind that is no raw HTML and not that of its children alone puts a tag behind
them. -/
theorem closes_kindMarkup {kind : NodeKind} (closed : kind.isClosed = true) (children : List Node) :
    Closes (kindMarkup ⟨kind, children⟩) := by
  cases kind with
  | document | fragment | custom _ _ | html _ => cases closed
  | heading level id => exact closes_wrapLine _ _
  | paragraph | tableRow => exact closes_wrapLine _ _
  | footnoteDefinition label => exact closes_wrapLine _ _
  | footnoteItem label ordinal => exact closes_wrapLine _ _
  | emphasis | strong | strikethrough => exact closes_wrap _ _
  | token className => exact closes_wrap _ _
  | link url title => exact closes_wrap _ _
  | inlineNote label => exact closes_wrap _ _
  | tableCell header align => exact closes_wrap _ _
  | blockQuote | tableHead | tableBody => exact closes_wrapLines _ _
  | table alignments => exact closes_wrapLines _ _
  | «section» depth => exact closes_wrapLines _ _
  | list ordered start => cases ordered <;> exact closes_wrapLines _ _
  | listItem checked => exact (closes_wrapLine "li" []).under _
  | footnoteList =>
      exact ((closes_wrapLines "ol" []).around [.opening "section" _, .layout "\n"]
        [.closing "section"]).around [] [.layout "\n"]
  | codeBlock language info code => exact (closes_codeMarkup_code language children code).around [] [.layout "\n"]
  | codeBlockWithTitle title language code =>
      exact ((closes_codeMarkup_code language children code).around
        (.opening "div" _ :: wrap "div" _ [.text title]) [.closing "div"]).around [] [.layout "\n"]
  | _ => exact closes_const _

/-! ### Sound trees -/

theorem IsSoundPage.mono {more : Bool} (sound : IsSoundPage last page)
    (allows : last = true → more = true) : IsSoundPage more page := by
  induction page with
  | nil => trivial
  | cons piece rest ih =>
      refine ⟨sound.1.imp_right fun ⟨raw, ends⟩ => ⟨raw, ?_⟩, ih sound.2⟩
      cases rest with
      | nil => exact allows ends
      | cons next rest => exact ends

/-- Content may end in a brace where a tag closes it. -/
theorem Closes.isSoundPage (closes : Closes f) (plain : IsPlainPage (f []))
    (inside : IsSoundPage true content) : IsSoundPage last (f content) := by
  rcases closes with hidden | ⟨before, tag, after, isTag, shown⟩
  · rw [hidden content]
    exact plain.isSoundPage
  · rw [shown, List.append_nil, isPlainPage_append] at plain
    rw [shown]
    have front : IsSoundPage true (before ++ content) :=
      (plain.1.isSoundPage : IsSoundPage false before).append inside fun free => nomatch free
    exact front.append plain.2.isSoundPage fun _ => isTag

theorem isPlainKind_of_isClosed {kind : NodeKind} (sound : kind.IsSound last)
    (closed : kind.isClosed = true) : IsPlainKind kind := by
  cases kind <;> trivial

/-- The markup of a node is sound when its kind is and the markup of its children is. -/
theorem isSoundPage_kindMarkup {kind : NodeKind} {children : List Node} (sound : kind.IsSound last)
    (inside : IsSoundPage (last || !kind.isTransparent) content) :
    IsSoundPage last (kindMarkup ⟨kind, children⟩ content) := by
  cases closed : kind.isClosed with
  | true =>
      have plain : IsPlainPage (kindMarkup ⟨kind, children⟩ []) :=
        isPlainPage_kindMarkup (isPlainKind_of_isClosed sound closed) isPlainPage_nil
      exact (closes_kindMarkup closed children).isSoundPage plain (inside.mono fun _ => rfl)
  | false =>
      cases kind with
      | document | fragment => exact inside.mono fun free => by simpa [NodeKind.isTransparent] using free
      | html value =>
          refine ⟨?_, trivial⟩
          rcases sound with free | ends
          · exact .inr ⟨rfl, free⟩
          · exact .inl ends
      | custom name attributes =>
          cases element : isElementName name with
          | true =>
              have plain : IsPlainPage (kindMarkup ⟨.custom name attributes, children⟩ []) :=
                isPlainPage_kindMarkup trivial isPlainPage_nil
              simp only [kindMarkup, element, if_true] at plain ⊢
              exact (closes_wrap _ _).isSoundPage plain (inside.mono fun _ => rfl)
          | false =>
              simp only [kindMarkup, element]
              exact inside.mono fun free => by simpa [NodeKind.isTransparent] using free
      | _ => cases closed

theorem tolerates_markupAll {nodes : List Node}
    (free : (last && nodes.all Node.isFootnoteList) = true) : Tolerates last (markupAll nodes) := by
  rw [Bool.and_eq_true] at free
  cases nodes with
  | nil => exact free.1
  | cons node rest =>
      obtain ⟨kind, children⟩ := node
      rw [List.all_cons, Bool.and_eq_true] at free
      cases kind <;> first | rfl | cases free.2.1

variable {written : Bool}

mutual

/-- The markup of a sound tree is sound. -/
theorem isSoundPage_markup : ∀ {node : Node} {last : Bool}, Node.IsSound written last node →
    IsSoundPage last (markup node)
  | ⟨kind, children⟩, last, sound => by
      obtain ⟨here, -, inside⟩ := Node.isSound_mk.1 sound
      rw [markup]
      exact isSoundPage_kindMarkup here (isSoundPage_markupAll inside)

theorem isSoundPage_markupAll : ∀ {nodes : List Node} {last : Bool},
    Node.AreSound written last nodes → IsSoundPage last (markupAll nodes)
  | [], _, _ => trivial
  | node :: rest, last, sound => by
      rw [Node.areSound_cons] at sound
      exact (isSoundPage_markup sound.1).append (isSoundPage_markupAll sound.2) tolerates_markupAll

end

/-! ### Templates -/

theorem Markup.segment_eq_literal {piece : Markup} (shown : piece.placeholderName? = none) :
    piece.segment = .literal piece.chars := by
  cases piece <;> first | rfl | cases shown

/-- A piece with the name of a placeholder is that placeholder. -/
theorem Markup.eq_placeholder {piece : Markup} {name : String}
    (named : piece.placeholderName? = some name) : piece = .placeholder name := by
  cases piece <;> cases named
  rfl

/-- The text of a piece that is no placeholder can be told from its source, up to its end. -/
theorem Markup.isApart_chars {piece : Markup} (shown : piece.placeholderName? = none)
    (sound : piece.IsPlain ∨ piece.isRaw = true) : Text.IsApart '{' piece.chars := by
  rcases sound with plain | raw
  · have writable := plain.isWritable
    rw [segment_eq_literal shown] at writable
    exact (Text.isClear_iff.1 writable).1
  · cases piece <;> first | exact isApart_guardChars _ | cases raw

theorem Markup.IsPlain.getLast?_chars {piece : Markup} (plain : piece.IsPlain)
    (shown : piece.placeholderName? = none) : piece.chars.getLast? ≠ some '{' := by
  have writable := plain.isWritable
  rw [segment_eq_literal shown] at writable
  exact (Text.isClear_iff.1 writable).2

theorem Markup.head?_chars {piece : Markup} (isTag : piece.isTag = true) :
    piece.chars.head? = some '<' := by
  cases piece <;> first | rfl | cases isTag

/-- The parts of a sound page can be told from their source, also behind text that ends in a brace if
the page tolerates that. -/
theorem IsSoundPage.areReadable (sound : IsSoundPage last page) {before : List Char}
    (apart : Text.IsApart '{' before)
    (meets : before.getLast? = some '{' → Tolerates last page) :
    Template.AreReadable before (page.map Markup.segment) := by
  induction page generalizing before with
  | nil => exact apart
  | cons piece rest ih =>
      obtain ⟨here, below⟩ := sound
      rw [List.map_cons]
      cases named : piece.placeholderName? with
      | some name =>
          obtain rfl := Markup.eq_placeholder named
          obtain named | ⟨raw, -⟩ := here
          · have clear : Text.IsClear '{' before :=
              Text.isClear_iff.2 ⟨apart, fun last => nomatch meets last⟩
            exact ⟨clear, isPlainName_of_isName named, ih below .nil fun last => nomatch last⟩
          · cases raw
      | none =>
          have inside := Markup.isApart_chars named (here.imp_right And.left)
          rw [Markup.segment_eq_literal named]
          refine ih below (apart.append inside fun last => ?_) fun last => ?_
          · rw [Markup.head?_chars (meets last)]
            decide
          · cases ends : piece.chars.getLast? with
            | none =>
                rw [List.getLast?_append, ends, Option.none_or] at last
                have start := Markup.head?_chars (meets last)
                rw [List.getLast?_eq_none_iff.1 ends] at start
                cases start
            | some c =>
                rw [List.getLast?_append, ends, Option.some_or] at last
                exact here.elim (fun plain => absurd (ends.trans last) (plain.getLast?_chars named))
                  And.right

end Html

/-- A sound tree can be compiled. -/
theorem exists_compile {written last : Bool} {tree : Node} (sound : tree.IsSound written last)
    (strategy : Strategy) (identifier : String) (metadata : Metadata) :
    ∃ artifact, Artifact.compile strategy identifier metadata tree = .ok artifact := by
  cases strategy with
  | onDemand => exact ⟨_, rfl⟩
  | precompiled =>
      have readable := (Html.isSoundPage_markup sound).areReadable .nil fun last => nomatch last
      refine ⟨⟨identifier, metadata, .precompiled, Html.emit tree⟩, ?_⟩
      rw [Artifact.compile, compileCode, Html.emit, Html.parse_write_of_areReadable readable]
      rfl

end DocPress
