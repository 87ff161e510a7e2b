import DocPress.Proofs.Html.Anchor
import DocPress.Proofs.Minify

/-!
What a tidied tree shows. Its page is that of the tree but for white space, its code blocks are shown as
they were, and the text of a run of inline content reads as it did.
-/

namespace DocPress

open Node Html

namespace Html

open Minify (isSpace)

/-! ### Escaping -/

/-- White space is not escaped. -/
theorem escapeChar_of_isSpace {c : Char} (space : isSpace c = true) : escapeChar c = [c] := by
  simp only [isSpace, Bool.or_eq_true, decide_eq_true_eq] at space
  rcases space with (((rfl | rfl) | rfl) | rfl) | feed
  · decide
  · decide
  · decide
  · decide
  · obtain rfl : c = Char.ofNat 12 := Char.toNat_inj.1 feed
    decide

theorem not_isSpace_of_all {text : List Char} {c : Char} (none : text.all (!isSpace ·) = true)
    (member : c ∈ text) : isSpace c = false := by
  simpa using List.all_eq_true.1 none c member

theorem not_isSpace_of_mem_escapeChar {c d : Char} (other : isSpace c = false)
    (member : d ∈ escapeChar c) : isSpace d = false := by
  unfold escapeChar at member
  repeat' split at member
  all_goals first
    | exact List.mem_singleton.1 member ▸ other
    | exact not_isSpace_of_all (by decide) member

/-- Escaping neither makes nor loses white space. -/
theorem filter_escapeChars (text : List Char) :
    (escapeChars text).filter (!isSpace ·) = escapeChars (text.filter (!isSpace ·)) := by
  induction text with
  | nil => rfl
  | cons c rest ih =>
      rw [escapeChars, List.flatMap_cons, List.filter_append]
      cases space : isSpace c with
      | true => simpa [escapeChars, escapeChar_of_isSpace space, space] using ih
      | false =>
          have kept : (escapeChar c).filter (!isSpace ·) = escapeChar c :=
            List.filter_eq_self.2 fun d member => by
              rw [not_isSpace_of_mem_escapeChar space member]
              rfl
          rw [kept, List.filter_cons_of_pos (by simp [space])]
          exact congrArg (escapeChar c ++ ·) ih

/-! ### Markup around content -/

/-- Whether markup stands around content, or is the same for any. -/
def Surrounds (f : List Markup → List Markup) : Prop :=
  (∀ content, f content = f []) ∨ ∃ before after, ∀ content, f content = before ++ content ++ after

/-- Markup that closes what it opens surrounds its content. -/
theorem Closes.surrounds {f : List Markup → List Markup} (closes : Closes f) : Surrounds f := by
  refine closes.imp_right ?_
  rintro ⟨before, tag, after, -, shown⟩
  exact ⟨before, tag :: after, shown⟩

/-- The markup of any kind surrounds that of the children. -/
theorem surrounds_kindMarkup (kind : NodeKind) (children : List Node) :
    Surrounds (kindMarkup ⟨kind, children⟩) := by
  cases closed : kind.isClosed with
  | true => exact (closes_kindMarkup closed children).surrounds
  | false =>
      have plain : Surrounds fun content => content :=
        .inr ⟨[], [], fun content => (List.append_nil content).symm⟩
      cases kind with
      | document | fragment => exact plain
      | html value => exact .inl fun _ => rfl
      | custom name attributes =>
          change Surrounds fun content => if isElementName name then wrap name _ content else content
          cases isElementName name with
          | true => exact (closes_wrap _ _).surrounds
          | false => exact plain
      | _ => cases closed

/-- What is below a node matters to its own markup only in a code block and an image. -/
theorem kindMarkup_congr {kind : NodeKind} (plain : kind.code? = none)
    (other : ∀ url title, kind ≠ .image url title) (children nodes : List Node) :
    kindMarkup ⟨kind, nodes⟩ = kindMarkup ⟨kind, children⟩ := by
  funext content
  cases kind with
  | codeBlock _ _ _ | codeBlockWithTitle _ _ _ => cases plain
  | image url title => exact absurd rfl (other url title)
  | list ordered start => cases ordered <;> rfl
  | _ => rfl

/-- A code block shows what is below it, or else its code. -/
theorem kindMarkup_of_code? {kind : NodeKind} {code : String} (isBlock : kind.code? = some code) :
    ∃ f, Surrounds f ∧ ∀ children content,
      kindMarkup ⟨kind, children⟩ content = f (if children.isEmpty then [.text code] else content) := by
  cases kind with
  | codeBlock language info value =>
      cases isBlock
      exact ⟨fun content => codeMarkup language content ++ [.layout "\n"],
        ((closes_codeMarkup language).around [] [.layout "\n"]).surrounds, fun _ _ => rfl⟩
  | codeBlockWithTitle title language value =>
      cases isBlock
      exact ⟨fun content => wrapLine "div" [attr "class" "code-block"]
          (wrap "div" [attr "class" "code-title"] [.text title] ++ codeMarkup language content),
        (((closes_codeMarkup language).around (.opening "div" _ :: wrap "div" _ [.text title])
          [.closing "div"]).around [] [.layout "\n"]).surrounds, fun _ _ => rfl⟩
  | _ => cases isBlock

end Html

namespace Minify

variable {α : Type} {form : List Char → List Char}

/-! ### The source of a tree -/

/-- The source of a tree. -/
def source (node : Node) : List Char :=
  (markup node).flatMap Markup.chars

theorem toList_emit (node : Node) : (emit node).toList = source node :=
  String.toList_ofList

/-- The sources of trees make up that of their page. -/
theorem flatMap_source (nodes : List Node) :
    nodes.flatMap source = (markupAll nodes).flatMap Markup.chars := by
  induction nodes with
  | nil => rfl
  | cons node rest ih => rw [List.flatMap_cons, ih, markupAll, List.flatMap_append, source]

theorem source_mk (kind : NodeKind) (children : List Node) :
    source ⟨kind, children⟩ =
      (kindMarkup ⟨kind, children⟩ (markupAll children)).flatMap Markup.chars := by
  rw [source, markup]

/-- The source of a tree is one way of reading it. -/
theorem isReading_source : IsReading source fun value => escapeChars value.toList where
  text value := by simp [source_mk, kindMarkup, Markup.chars]
  fragment children := by rw [flatMap_source, source_mk, kindMarkup]
  append first second := by rw [String.toList_append, escapeChars, List.flatMap_append]; rfl

/-- The source of markup is told by that of its content. -/
theorem form_surrounds (settled : IsSettled form) {f : List Markup → List Markup}
    (surrounds : Surrounds f) {content content' : List Markup}
    (same : form (content.flatMap Markup.chars) = form (content'.flatMap Markup.chars)) :
    form ((f content).flatMap Markup.chars) = form ((f content').flatMap Markup.chars) := by
  rcases surrounds with hidden | ⟨before, after, shown⟩
  · rw [hidden content, hidden content']
  · rw [shown, shown, List.flatMap_append, List.flatMap_append, List.flatMap_append,
      List.flatMap_append]
    exact settled.append (settled.append rfl same) rfl

/-- The source of a code block, be its code in pieces below it or not. -/
theorem source_code_congr {kind : NodeKind} {code : String} (isBlock : kind.code? = some code)
    {children nodes : List Node} (keeps : children = [] ∨ textContentAll children = code)
    (bare : children = [] → nodes = [])
    (text : nodes.flatMap textChars = children.flatMap textChars)
    (same : nodes.flatMap source = children.flatMap source) :
    source ⟨kind, nodes⟩ = source ⟨kind, children⟩ := by
  obtain ⟨f, surrounds, shown⟩ := kindMarkup_of_code? isBlock
  rw [source_mk, source_mk, shown, shown]
  refine form_surrounds isSettled_id surrounds ?_
  rw [flatMap_source, flatMap_source] at same
  cases children with
  | nil => rw [bare rfl]
  | cons child rest =>
      cases nodes with
      | cons node others => exact same
      | nil =>
          -- All that was below the block were empty texts and fragments, so its code is empty.
          have whole := keeps.resolve_left (List.cons_ne_nil child rest)
          rw [flatMap_textChars (child :: rest), whole] at text
          rw [id, id, List.isEmpty_nil, if_pos rfl, List.isEmpty_cons, if_neg Bool.false_ne_true, ← same,
            List.flatMap_singleton, Markup.chars, ← text]
          rfl

/-- The source of an image shows the text below it. -/
theorem source_image (url title : String) :
    ∃ before after, ∀ children, source ⟨.image url title, children⟩ =
      before ++ escapeChars (textChars ⟨.image url title, children⟩) ++ after := by
  refine ⟨'<' :: "img".toList ++ (attr "src" url).chars ++ " alt=".toList ++ ['"'],
    '"' :: (titleAttribute title).flatMap Attribute.chars ++ [' ', '/', '>'], fun children => ?_⟩
  simp [source_mk, kindMarkup, Markup.chars, Attribute.chars, attr, textChars]

/-- White space vanishes from the characters of a text. -/
theorem blanksVanish_toList : BlanksVanish (List.filter (!isSpace ·)) String.toList := by
  intro value blank
  rw [isBlankText, List.all_eq_true] at blank
  exact List.filter_eq_nil_iff.2 fun c member => by simp [blank c member]

/-- White space vanishes from the escaped characters of a text. -/
theorem blanksVanish_escapeChars :
    BlanksVanish (List.filter (!isSpace ·)) fun value => escapeChars value.toList := by
  intro value blank
  dsimp only
  rw [filter_escapeChars, blanksVanish_toList value blank]
  rfl

/-- White space apart, the text of a tree is kept. -/
theorem isStable_text : IsStable (List.filter (!isSpace ·)) textChars String.toList :=
  isStable_textChars (isSettled_filter _) fun value => by
    rw [toList_collapse, filter_collapseFrom]

/-- Texts that are the same outside of code are the same when they are escaped. -/
theorem outside_escapeChars {inCode : Bool} {first second : List Char}
    (same : outside (List.filter (!isSpace ·)) inCode first =
      outside (List.filter (!isSpace ·)) inCode second) :
    outside (List.filter (!isSpace ·)) inCode (escapeChars first) =
      outside (List.filter (!isSpace ·)) inCode (escapeChars second) := by
  cases inCode with
  | true => exact congrArg escapeChars same
  | false =>
      change (escapeChars first).filter (!isSpace ·) = (escapeChars second).filter (!isSpace ·)
      rw [filter_escapeChars, filter_escapeChars]
      exact congrArg escapeChars same

/-- White space apart, the source of a tree is kept. -/
theorem isStable_source :
    IsStable (List.filter (!isSpace ·)) source fun value => escapeChars value.toList where
  settled := isSettled_filter _
  reading := isReading_source
  collapse value := by
    rw [toList_collapse, filter_escapeChars, filter_collapseFrom, filter_escapeChars]
  node inCode kind children nodes keeps tidied same := by
    obtain ⟨here, below⟩ := holds_mk.1 keeps
    cases isBlock : kind.code? with
    | some code =>
        rw [isCode_of_code? isBlock, Bool.or_true] at tidied same
        have text := form_tidied isStable_text kind true below (.inl blanksVanish_toList)
        rw [← tidied] at text
        refine congrArg _ (source_code_congr isBlock (here.2 code isBlock) ?_ text same)
        rintro rfl
        exact tidied.trans (tidied_nil kind true)
    | none =>
        by_cases image : ∃ url title, kind = .image url title
        · obtain ⟨url, title, rfl⟩ := image
          obtain ⟨before, after, shown⟩ := source_image url title
          have text := form_minify isStable_text inCode _ keeps (.inl blanksVanish_toList)
          rw [minify_mk, ← tidied] at text
          have settled := (isSettled_filter (!isSpace ·)).outside inCode
          rw [shown, shown]
          refine settled.append (settled.append rfl ?_) rfl
          exact outside_escapeChars text
        · have other : ∀ url title, kind ≠ .image url title := fun url title same =>
            image ⟨url, title, same⟩
          rw [source_mk, source_mk, kindMarkup_congr isBlock other children nodes]
          refine form_surrounds ((isSettled_filter _).outside inCode)
            (surrounds_kindMarkup kind children) ?_
          rw [← flatMap_source, ← flatMap_source]
          exact outside_of_or same

/-! ### Nodes of a tree -/

/-- What `show` makes of the nodes of a tree that are `wanted`, in document order. -/
def readWhere (wanted : Node → Bool) (view : Node → α) (node : Node) : List α :=
  (node.walk.filter wanted).map view

variable {wanted : Node → Bool} {view : Node → α}

theorem readWhere_mk (kind : NodeKind) (children : List Node) :
    readWhere wanted view ⟨kind, children⟩ =
      ([⟨kind, children⟩].filter wanted).map view ++ children.flatMap (readWhere wanted view) := by
  have below (nodes : List Node) :
      nodes.flatMap (readWhere wanted view) = ((walkAll nodes).filter wanted).map view := by
    induction nodes with
    | nil => rfl
    | cons node rest ih =>
        rw [List.flatMap_cons, ih, walkAll, List.filter_append, List.map_append, readWhere]
  rw [readWhere, walk, below, ← List.map_append, ← List.filter_append]
  rfl

/-- What is read off wanted nodes is kept, where a wanted node stays one and reads the same. -/
theorem isStable_readWhere (text : ∀ value, wanted ⟨.text value, []⟩ = false)
    (fragment : ∀ children, wanted ⟨.fragment, children⟩ = false)
    (stays : ∀ inCode node, Holds KeepsText node → wanted (minify inCode node) = wanted node)
    (reads : ∀ inCode node, Holds KeepsText node → wanted node = true →
      view (minify inCode node) = view node) :
    IsStable id (readWhere wanted view) fun _ => [] where
  settled := isSettled_id
  reading := {
    text := fun value => by
      rw [readWhere_mk, List.filter_cons_of_neg (by rw [text value]; decide)]
      rfl
    fragment := fun children => by
      rw [readWhere_mk, List.filter_cons_of_neg (by rw [fragment children]; decide)]
      rfl
    append := fun _ _ => rfl }
  collapse _ := rfl
  node inCode kind children nodes keeps tidied same := by
    rw [outside_id, id, id] at same ⊢
    have stays := stays inCode _ keeps
    have reads := reads inCode _ keeps
    rw [minify_mk, ← tidied] at stays reads
    rw [readWhere_mk, readWhere_mk, same, List.filter_cons, List.filter_cons, stays]
    congr 1
    split
    · next isWanted => exact congrArg (· :: []) (reads isWanted)
    · rfl

theorem kind_minify (inCode : Bool) (node : Node) : (minify inCode node).kind = node.kind := by
  obtain ⟨kind, children⟩ := node
  rw [minify_mk]

/-- Whether a node is a code block. -/
def isCodeBlock (node : Node) : Bool :=
  node.kind.isCodeBlock

/-- The sources of the code blocks of a tree are kept to the letter. -/
theorem isStable_codeBlocks : IsStable id (readWhere isCodeBlock emit) fun _ => [] := by
  refine isStable_readWhere (fun _ => rfl) (fun _ => rfl) (fun inCode node _ => ?_) ?_
  · rw [isCodeBlock, kind_minify, isCodeBlock]
  · rintro inCode ⟨kind, children⟩ keeps isBlock
    have isCode : kind.isCode = true := by
      cases kind <;> first | rfl | cases isBlock
    -- What is in a code block is tidied up as code, whether the block is in code or not.
    have same := form_minify isStable_source true ⟨kind, children⟩ keeps (.inl blanksVanish_escapeChars)
    rw [minify_mk] at same ⊢
    rw [isCode, Bool.or_true] at same ⊢
    rw [← String.toList_inj, toList_emit, toList_emit]
    exact same

/-- Whether a node is a run of inline content: a paragraph, a heading or a table cell without blocks
below it. -/
def isRun (node : Node) : Bool :=
  holdsRunningText node.kind && (kindsAll node.children).all (!·.isBlock)

theorem isRun_iff {node : Node} :
    isRun node = true ↔ holdsRunningText node.kind = true ∧ AreInline node.children := by
  simp [isRun, areInline_iff]

/-- Minifying makes no children inline and takes none out of the line. -/
theorem areInline_children_minify {inCode : Bool} {node : Node} (keeps : Holds KeepsText node) :
    AreInline (minify inCode node).children ↔ AreInline node.children := by
  obtain ⟨kind, children⟩ := node
  have below := (holds_mk.1 keeps).2
  rw [minify_mk]
  exact (areInline_tidy (areLeaves_spliced _ children below)).trans (areInline_spliced _ below)

/-- Runs of white space collapsed, the text of a run of inline content is kept: no blank at its edges or
between its parts goes. -/
theorem collapse_textContent_minify {inCode : Bool} {node : Node} (keeps : Holds KeepsText node)
    (run : isRun node = true) :
    collapse (minify inCode node).textContent = collapse node.textContent := by
  obtain ⟨kind, children⟩ := node
  obtain ⟨running, inLine⟩ := isRun_iff.1 run
  have below := (holds_mk.1 keeps).2
  have stable : IsStable (collapseFrom false) textChars String.toList :=
    isStable_textChars isSettled_collapseFrom fun value => by
      rw [toList_collapse, collapseFrom_collapseFrom]
  have inside := form_tidied stable kind (inCode || kind.isCode) below
    (.inr ⟨fun _ => running, (areInline_spliced _ below).2 inLine⟩)
  have whole := stable.node inCode kind children _ keeps rfl inside
  rw [← minify_mk] at whole
  exact congrArg String.ofList (form_of_outside whole)

/-- The running text of a tree, collapsed, is the same after minifying. -/
theorem isStable_runs : IsStable id (readWhere isRun (collapse ·.textContent)) fun _ => [] := by
  refine isStable_readWhere (fun _ => rfl) (fun _ => rfl) (fun inCode node keeps => ?_)
    fun inCode node keeps run => collapse_textContent_minify keeps run
  rw [Bool.eq_iff_iff, isRun_iff, isRun_iff, kind_minify, areInline_children_minify keeps]

/-! ### Meaning -/

/-- Whether a tidied tree means what the tree did. -/
structure MeansSame (tree tidied : Node) : Prop where
  /-- White space apart, the page is the same. -/
  page : (emit tidied).toList.filter (!isSpace ·) = (emit tree).toList.filter (!isSpace ·)
  /-- The kinds are the same in document order, those of texts and fragments apart. -/
  kinds : tidied.kinds.filter isFixed = tree.kinds.filter isFixed
  /-- The source of each code block is the same. -/
  codeBlocks : (tidied.walk.filter isCodeBlock).map emit = (tree.walk.filter isCodeBlock).map emit
  /-- The text of each run of inline content is the same, with a space for every run of white space. -/
  runs : (tidied.walk.filter isRun).map (collapse ·.textContent) =
    (tree.walk.filter isRun).map (collapse ·.textContent)

/-- Tidying up keeps what a tree means. -/
theorem meansSame_apply {tree : Node} (keeps : ∀ node ∈ tree.walk, node.KeepsText) :
    MeansSame tree (apply tree) where
  page := by
    rw [toList_emit, toList_emit]
    exact form_minify isStable_source false tree keeps (.inl blanksVanish_escapeChars)
  kinds := fixedKinds_minify false keeps
  codeBlocks := form_minify isStable_codeBlocks false tree keeps (.inl fun _ _ => rfl)
  runs := form_minify isStable_runs false tree keeps (.inl fun _ _ => rfl)

/-- Blanks in a fragment and beside a list go, the one between two words and those in code stay. -/
theorem meansSame_apply_blanks :
    let tree := Node.document [.text "\n",
      ⟨.paragraph, [⟨.emphasis, [.text "one"]⟩, ⟨.fragment, [.text " \n", .text ""]⟩, .text "\ttwo  "]⟩,
      ⟨.codeBlock none none "x  y", [⟨.token "name", [.text "x"]⟩, .text "  ", .text "y"]⟩]
    (∀ node ∈ tree.walk, node.KeepsText) ∧ MeansSame tree (apply tree) ∧
      apply tree = Node.document [
        ⟨.paragraph, [⟨.emphasis, [.text "one"]⟩, .text " two "]⟩,
        ⟨.codeBlock none none "x  y", [⟨.token "name", [.text "x"]⟩, .text "  y"]⟩] := by
  intro tree
  have keeps : ∀ node ∈ tree.walk, node.KeepsText := by decide +kernel
  exact ⟨keeps, meansSame_apply keeps, by decide +kernel⟩

end Minify

end DocPress
