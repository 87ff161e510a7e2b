import DocPress.Proofs.Backends
import DocPress.Proofs.Footnote.Landmark
import DocPress.Proofs.Html.Anchor
import DocPress.Proofs.Landmark.Page
import DocPress.Proofs.Syntax.Grammar

/-!
Links within the pages of the default backends. The items of the list of notes have the ids with their
numbers, each once, references lead to them, and the ids of headings are distinct. An id is there twice
exactly when a heading has the id of an item.
-/

namespace DocPress

open Html

namespace Pipeline

/-! ### Pages of the default backends -/

theorem mem_keys_of_backend {config : Config} {name : String} {backend : Backend}
    (known : config.backend name = .ok backend) : name ∈ config.backends.keys := by
  rw [Config.backend] at known
  cases found : config.backends.get? name with
  | none =>
      rw [found] at known
      cases known
  | some other =>
      rw [Catalog.get?, Option.map_eq_some_iff] at found
      obtain ⟨entry, first, -⟩ := found
      have same : entry.1 = name := by simpa using List.find?_some first
      exact same ▸ List.mem_map_of_mem (List.mem_of_find?_eq_some first)

/-- There are three default backends. -/
theorem eq_of_ofConfig_default {name : String} {pipeline : Pipeline}
    (made : ofConfig .default name = .ok pipeline) :
    pipeline = mdxBundler ∨ pipeline = nextMdxRemote ∨ pipeline = contentlayer := by
  have known := made
  rw [ofConfig, bind_eq_ok_iff] at known
  obtain ⟨backend, known, -⟩ := known
  have keys : Config.default.backends.keys = ["contentlayer", "mdx-bundler", "next-mdx-remote"] := by
    decide
  have member := mem_keys_of_backend known
  rw [keys] at member
  simp only [List.mem_cons, List.not_mem_nil, or_false] at member
  rcases member with rfl | rfl | rfl
  · exact .inr (.inr (Except.ok.inj (made.symm.trans ofConfig_contentlayer)))
  · exact .inl (Except.ok.inj (made.symm.trans ofConfig_mdxBundler))
  · exact .inr (.inl (Except.ok.inj (made.symm.trans ofConfig_nextMdxRemote)))

/-- The tree that the default backends make a page of. -/
def prepared (tree : Node) : Node :=
  Picture.apply .empty (Caption.apply (Footnote.apply {} tree).1)

variable {pipeline : Pipeline} {name : String} {tree : Node}

/-- What the default backends do before the page. -/
theorem exists_run_pre (made : ofConfig .default name = .ok pipeline) (root : tree.kind = .document) :
    ∃ diagnostics, pipeline.pre.run pipeline.highlighter tree = .ok (prepared tree, diagnostics) := by
  have run : ∃ diagnostics, Stage.runAll Syntax.standard
      [.footnotes {}, .codeTitle, .imageComponent .empty] tree = .ok (prepared tree, diagnostics) := by
    rw [Stage.runAll_cons_of_ok (Stage.apply_footnotes {} root)]
    exact ⟨_, rfl⟩
  rcases eq_of_ofConfig_default made with rfl | rfl | rfl
  · exact run
  · obtain ⟨diagnostics, done⟩ := run
    exact ⟨diagnostics, (Stage.runAll_codeTitle_footnotes _ _ {} root).trans done⟩
  · obtain ⟨diagnostics, done⟩ := run
    exact ⟨diagnostics, (Stage.runAll_codeTitle_footnotes _ _ {} root).trans done⟩

/-- The default backends finish a document in the same way. -/
theorem finish_default (made : ofConfig .default name = .ok pipeline) (root : tree.kind = .document) :
    pipeline.finish tree = mdxBundler.finish tree := by
  have first : mdxBundler.finish tree = contentlayer.finish tree := finish_mdxBundler Syntax.standard root
  rcases eq_of_ofConfig_default made with rfl | rfl | rfl
  · rfl
  · exact (finish_nextMdxRemote Syntax.standard tree).trans first.symm
  · exact first.symm

/-- The default backends make a page of a document unless its tables are malformed, and split the code
in it, give ids to its headings and tidy it up. -/
theorem exists_finish_default (made : ofConfig .default name = .ok pipeline)
    (root : tree.kind = .document) :
    (∃ cause, pipeline.finish tree = .error (.page cause)) ∨
      ∃ page highlighted diagnostics, Page.render false (prepared tree) = .ok page ∧
        Highlight.apply Syntax.standard false page = .ok highlighted ∧
        pipeline.finish tree =
          .ok (Minify.apply (HeadingId.apply highlighted).1, diagnostics) := by
  obtain ⟨before, run⟩ := exists_run_pre ofConfig_mdxBundler root
  rw [finish_default made root]
  cases finished : mdxBundler.finish tree with
  | error fault =>
      -- No stage of this pipeline is strict, so only the page can fail.
      have lax : ∀ stage ∈ mdxBundler.post.stages, stage.IsLax := by
        change ∀ stage ∈ [Stage.highlight false, .headingSlug, .minify], stage.IsLax
        decide
      rcases finish_eq_error lax root finished with ⟨cause, rfl⟩ | ⟨language, code, fails⟩
      · exact .inl ⟨cause, rfl⟩
      · exact absurd fails (Syntax.not_failsOn_standard language code)
  | ok result =>
      rw [finish, run, bind_eq_ok_iff] at finished
      obtain ⟨_, staged, finished⟩ := finished
      cases staged
      rw [bind_eq_ok_iff] at finished
      obtain ⟨page, rendered, finished⟩ := finished
      rw [bind_eq_ok_iff] at finished
      obtain ⟨last, staged, made⟩ := finished
      rw [mapError_eq_ok_iff] at rendered staged
      change Stage.runAll Syntax.standard [.highlight false, .headingSlug, .minify] page = .ok last
        at staged
      cases highlighted : Highlight.apply Syntax.standard false page with
      | error cause =>
          obtain ⟨language, code, fails⟩ := Highlight.exists_failsOn highlighted
          exact absurd fails (Syntax.not_failsOn_standard language code)
      | ok split =>
          have done : (Stage.highlight false).apply Syntax.standard page = .ok (split, []) := by
            rw [Stage.apply_highlight, highlighted]
            rfl
          rw [Stage.runAll_cons_of_ok done, Stage.runAll_cons_of_ok Stage.apply_headingSlug] at staged
          cases staged
          obtain rfl := pure_eq_ok_iff.1 made
          exact .inr ⟨page, split, _, rendered, highlighted, rfl⟩

/-- The ids of headings on the page are distinct, and its other landmarks are those of the numbered
document. -/
theorem landmarks_finish {page highlighted : Node}
    (rendered : Page.render false (prepared tree) = .ok page)
    (split : Highlight.apply Syntax.standard false page = .ok highlighted)
    (distinct : (HeadingId.given (Footnote.apply {} tree).1).Nodup) :
    let final := (Minify.apply (HeadingId.apply highlighted).1).landmarks
    (final.filterMap NodeKind.headingId?).Nodup ∧
      (final.filter (!·.isHeading)).Perm
        ((Footnote.apply {} tree).1.landmarks.filter (!·.isHeading)) := by
  intro final
  have same : highlighted.landmarks.Perm (Footnote.apply {} tree).1.landmarks := by
    rw [Highlight.landmarks_apply split, ← Caption.landmarks_apply (Footnote.apply {} tree).1,
      ← Picture.landmarks_apply .empty (Caption.apply (Footnote.apply {} tree).1)]
    exact Page.perm_render rendered
  constructor
  · rw [show final = _ from Minify.landmarks_apply _]
    refine HeadingId.nodup_shown_apply ?_
    have shown := distinct.sublist (HeadingId.shown_sublist_given (Footnote.apply {} tree).1)
    exact (same.filterMap NodeKind.headingId?).nodup_iff.2 shown
  · rw [show final = _ from Minify.landmarks_apply _, HeadingId.others_apply]
    exact same.filter _

end Pipeline

/-! ### Links -/

namespace Html

/-- The id of the item with a number. -/
def itemId (n : Nat) : String :=
  "fn-" ++ toString n

/-- The ids of the items of lists on a page. -/
def itemIds (page : List Markup) : List String :=
  ((anchors page).filter (·.element == "li")).map (·.id)

/-- The ids of the other elements of a page. -/
def headingIds (page : List Markup) : List String :=
  ((anchors page).filter (·.element != "li")).map (·.id)

/-- Whether the links within a page are those of `n` notes: only headings and items have ids, there is
an item for each number up to `n`, headings have distinct ids, and references show a number and lead to
its item. -/
structure IsLinked (page : List Markup) (n : Nat) : Prop where
  elements : ∀ anchor ∈ anchors page,
    anchor.element = "li" ∨ ∃ level : Nat, anchor.element = "h" ++ toString level
  items : (itemIds page).Perm ((List.range' 1 n).map itemId)
  headings : (headingIds page).Nodup
  references : ∀ reference ∈ references page,
    ∃ k, 1 ≤ k ∧ k ≤ n ∧ reference = ⟨"#" ++ itemId k, toString k⟩

variable {page : List Markup} {n : Nat}

theorem perm_ids (page : List Markup) : (ids page).Perm (headingIds page ++ itemIds page) := by
  have parts := (List.filter_append_perm (·.element == "li") (anchors page)).map (·.id)
  rw [List.map_append] at parts
  exact parts.symm.trans List.perm_append_comm

example :
    let page := [Markup.opening "li" [⟨"id", some "fn-1"⟩], .opening "h2" [⟨"id", some "a"⟩]]
    ids page = ["fn-1", "a"] ∧ headingIds page = ["a"] ∧ itemIds page = ["fn-1"] := by
  decide +kernel

theorem eq_of_itemId_eq {m n : Nat} (same : itemId m = itemId n) : m = n := by
  have behind := congrArg String.toList same
  simp only [itemId, String.toList_append] at behind
  exact Text.eq_of_toString_eq (String.toList_inj.1 (List.append_cancel_left behind))

/-- No id is there twice exactly when no heading has the id of an item. -/
theorem IsLinked.nodup_iff (linked : IsLinked page n) :
    (ids page).Nodup ↔ ∀ k, 1 ≤ k → k ≤ n → itemId k ∉ headingIds page := by
  have itemsDistinct : (itemIds page).Nodup := by
    rw [linked.items.nodup_iff]
    exact (List.nodup_range' 1).map fun _ _ => eq_of_itemId_eq
  rw [(perm_ids page).nodup_iff, List.nodup_append']
  constructor
  · rintro ⟨-, -, apart⟩ k low high member
    refine apart member (linked.items.mem_iff.2 (List.mem_map_of_mem ?_))
    rw [List.mem_range'_1]
    omega
  · intro apart
    refine ⟨linked.headings, itemsDistinct, fun id heading item => ?_⟩
    obtain ⟨k, range, rfl⟩ := List.mem_map.1 (linked.items.mem_iff.1 item)
    rw [List.mem_range'_1] at range
    exact apart k range.1 (by omega) heading

/-! ### Landmarks with ids -/

theorem heading_ne_li (level : Nat) : "h" ++ toString level ≠ "li" := by
  intro same
  have first := congrArg (fun name : String => name.toList.head?) same
  rw [String.toList_append] at first
  cases first

variable {landmarks : List NodeKind}

/-- The ids of items are made of their numbers. -/
theorem itemIds_of_landmarks (anchored : anchors page = landmarks.filterMap NodeKind.anchor?) :
    itemIds page =
      (landmarks.filterMap NodeKind.itemNumber?).map fun number => itemId number.toNat := by
  rw [itemIds, anchored, List.filter_filterMap, List.map_filterMap, List.map_filterMap]
  refine List.filterMap_congr fun kind _ => ?_
  cases kind with
  | heading level id =>
      cases id with
      | none => rfl
      | some id =>
          simpa [NodeKind.anchor?, NodeKind.itemNumber?, Option.filter] using heading_ne_li level.toNat
  | footnoteDefinition label => rfl
  | footnoteItem label number => rfl
  | _ => rfl

/-- Where no definitions are left, the other ids are those of headings. -/
theorem headingIds_of_landmarks (anchored : anchors page = landmarks.filterMap NodeKind.anchor?)
    (none : ∀ kind ∈ landmarks, kind.isDefinition = false) :
    headingIds page = landmarks.filterMap NodeKind.headingId? := by
  rw [headingIds, anchored, List.filter_filterMap, List.map_filterMap]
  refine List.filterMap_congr fun kind member => ?_
  cases kind with
  | heading level id =>
      cases id with
      | none => rfl
      | some id =>
          simpa [NodeKind.anchor?, NodeKind.headingId?, Option.filter] using heading_ne_li level.toNat
  | footnoteDefinition label => cases none _ member
  | footnoteItem label number => rfl
  | _ => rfl

theorem element_of_landmarks (anchored : anchors page = landmarks.filterMap NodeKind.anchor?)
    (none : ∀ kind ∈ landmarks, kind.isDefinition = false) {anchor : Anchor}
    (member : anchor ∈ anchors page) :
    anchor.element = "li" ∨ ∃ level : Nat, anchor.element = "h" ++ toString level := by
  rw [anchored, List.mem_filterMap] at member
  obtain ⟨kind, shown, found⟩ := member
  cases kind with
  | heading level id =>
      obtain ⟨given, -, rfl⟩ := Option.map_eq_some_iff.1 found
      exact .inr ⟨level.toNat, rfl⟩
  | footnoteItem label number =>
      obtain rfl := Option.some.inj found
      exact .inl rfl
  | footnoteDefinition label => cases none _ shown
  | _ => cases found

end Html

open Node

/-- What headings have no part in is read off the other landmarks. -/
theorem filterMap_others {α : Type} {f : NodeKind → Option α}
    (none : ∀ level id, f (.heading level id) = none) (landmarks : List NodeKind) :
    (landmarks.filter (!·.isHeading)).filterMap f = landmarks.filterMap f := by
  rw [List.filterMap_filter]
  refine List.filterMap_congr fun kind _ => ?_
  cases kind with
  | heading level id => exact (none level id).symm
  | _ => rfl

/-- Where a numbered document has its cross references, they have the numbers of its labels. -/
theorem Footnote.Numbered.exists_number {document : Node} {body items : List Node}
    {labels : List String} (numbered : Numbered document body items labels) {label : String}
    {number : UInt64} (member : NodeKind.footnoteCrossReference label number ∈ document.kinds) :
    ∃ k, 1 ≤ k ∧ k ≤ labels.length ∧ number = UInt64.ofNat k := by
  have known : (label, number) ∈ document.crossReferences :=
    List.mem_filterMap.2 ⟨_, member, rfl⟩
  rw [← List.mem_eraseDups, numbered.references] at known
  obtain ⟨i, bound, same⟩ := List.mem_mapIdx.1 known
  exact ⟨i + 1, Nat.succ_pos i, bound, (Prod.mk.inj same).2.symm⟩

/-- Every default backend that makes a page of a document without numbers and custom elements gives
its links: only headings and items have ids, there is one item for each number, headings have distinct
ids, and references lead to the items of their numbers. Ids are distinct exactly when no heading has
the id of an item. There is no page only if tables are malformed. -/
theorem default_page_ids_nodup_iff {name : String} {pipeline : Pipeline}
    (made : Pipeline.ofConfig .default name = .ok pipeline) {tree : Node}
    (root : tree.kind = .document)
    (fresh : tree.Every fun kind => kind.isListing = false ∧ kind.crossReference? = none)
    (known : tree.Every fun kind => kind.isCustom = false)
    (distinct : (HeadingId.given tree).Nodup)
    (few : (Footnote.noteLabels {} tree).length < UInt64.size) :
    (∃ cause, pipeline.finish tree = .error (.page cause)) ∨
      ∃ page diagnostics n, pipeline.finish tree = .ok (page, diagnostics) ∧
        IsLinked (markup page) n ∧
        ((ids (markup page)).Nodup ↔
          ∀ k, 1 ≤ k → k ≤ n → itemId k ∉ headingIds (markup page)) := by
  rcases Pipeline.exists_finish_default made root with failed | found
  · exact .inl failed
  obtain ⟨page, highlighted, diagnostics, rendered, split, finished⟩ := found
  obtain ⟨body, items, labels, numbered, text, contents, inside⟩ := Footnote.exists_settled {} root fresh
  have short : labels.length < UInt64.size :=
    Nat.lt_of_le_of_lt (numbered.distinct.subperm inside).length_le few
  obtain ⟨headings, others⟩ := Pipeline.landmarks_finish rendered split
    (Footnote.nodup_given_apply rfl root fresh distinct)
  have apart : Footnote.IsApart NodeKind.isCustom := fun kind part => by
    cases kind <;> first | rfl | cases part
  have long : ({} : FootnoteOptions).inlineShort = false := rfl
  have noCustom := Footnote.every_apply apart long root fresh known
  let final := Minify.apply (HeadingId.apply highlighted).1
  -- A landmark that is no heading was there when footnotes had been numbered.
  have old : ∀ kind ∈ final.landmarks, kind.isHeading = false →
      kind ∈ (Footnote.apply {} tree).1.kinds := by
    intro kind member other
    have stays : kind ∈ final.landmarks.filter (!·.isHeading) :=
      List.mem_filter.2 ⟨member, by rw [other]; rfl⟩
    have shown := List.mem_of_mem_filter (others.mem_iff.1 stays)
    exact (landmarks_sublist _).subset shown
  have plain : ∀ kind ∈ final.landmarks, kind.isCustom = false := by
    intro kind member
    cases kind with
    | custom _ _ => exact noCustom _ (old _ member rfl)
    | _ => rfl
  have resolved : ∀ kind ∈ final.landmarks, kind.isDefinition = false := by
    intro kind member
    cases kind with
    | footnoteDefinition _ => exact (numbered.resolved _ (old _ member rfl)).2
    | _ => rfl
  have anchored := anchors_markup plain
  have linked : IsLinked (markup final) labels.length :=
    { elements := fun anchor member => element_of_landmarks anchored resolved member
      items := by
        have numbers := others.filterMap NodeKind.itemNumber?
        rw [filterMap_others fun _ _ => rfl, filterMap_others fun _ _ => rfl,
          Footnote.itemNumbers_numbered numbered ((Footnote.kind_apply {} tree).trans root) text contents]
          at numbers
        rw [itemIds_of_landmarks anchored]
        refine (numbers.map _).trans (List.Perm.of_eq ?_)
        rw [List.map_map]
        refine List.map_congr_left fun k member => ?_
        rw [List.mem_range'_1] at member
        rw [Function.comp_apply, UInt64.toNat_ofNat_of_lt' (by omega)]
      headings := by
        rw [headingIds_of_landmarks anchored resolved]
        exact headings
      references := by
        intro reference member
        rw [references_markup plain, List.mem_filterMap] at member
        obtain ⟨kind, shown, found⟩ := member
        cases kind with
        | footnoteCrossReference label number =>
            obtain ⟨k, low, high, rfl⟩ := numbered.exists_number (old _ shown rfl)
            obtain rfl := Option.some.inj found
            refine ⟨k, low, high, ?_⟩
            rw [UInt64.toNat_ofNat_of_lt' (Nat.lt_of_le_of_lt high short), itemId, ← String.append_assoc]
            rfl
        | _ => cases found }
  exact .inr ⟨final, diagnostics, labels.length, finished, linked, linked.nodup_iff⟩

/-- A document with a heading and a note that is referred to. -/
def headedDocument (heading : String) : Node :=
  .document
    [⟨.heading 1 none, [.text heading]⟩,
      ⟨.paragraph, [.text "x", .leaf (.footnoteReference "a")]⟩,
      ⟨.footnoteDefinition "a", [⟨.paragraph, [.text "A."]⟩]⟩]

theorem every_headedDocument (heading : String) :
    (headedDocument heading).Every
        (fun kind => kind.isListing = false ∧ kind.crossReference? = none) ∧
      (headedDocument heading).Every (fun kind => kind.isCustom = false) ∧
      (HeadingId.given (headedDocument heading)).Nodup := by
  refine ⟨?_, ?_, List.nodup_nil⟩
  · simp [headedDocument, Node.document, Node.text, leaf, NodeKind.isListing, NodeKind.crossReference?]
  · simp [headedDocument, Node.document, Node.text, leaf, NodeKind.isCustom]

/-- The page of the document with the heading "Notes" is made, and has its links. -/
theorem default_page_ids_nodup_notes :
    ∃ pipeline, Pipeline.ofConfig .default "contentlayer" = .ok pipeline ∧
      (headedDocument "Notes").kind = .document ∧
      (headedDocument "Notes").Every
        (fun kind => kind.isListing = false ∧ kind.crossReference? = none) ∧
      (headedDocument "Notes").Every (fun kind => kind.isCustom = false) ∧
      (HeadingId.given (headedDocument "Notes")).Nodup ∧
      (Footnote.noteLabels {} (headedDocument "Notes")).length < UInt64.size ∧
      ∃ page diagnostics n, pipeline.finish (headedDocument "Notes") = .ok (page, diagnostics) ∧
        IsLinked (markup page) n ∧
        ((ids (markup page)).Nodup ↔
          ∀ k, 1 ≤ k → k ≤ n → itemId k ∉ headingIds (markup page)) := by
  obtain ⟨fresh, known, distinct⟩ := every_headedDocument "Notes"
  have few : (Footnote.noteLabels {} (headedDocument "Notes")).length < UInt64.size := by
    decide +kernel
  obtain ⟨made, finished, -⟩ : ∃ made,
      Pipeline.contentlayer.finish (headedDocument "Notes") = .ok made ∧ true = true :=
    exists_ok_of_any (by decide +kernel)
  refine ⟨_, Pipeline.ofConfig_contentlayer, rfl, fresh, known, distinct, few, ?_⟩
  rcases default_page_ids_nodup_iff Pipeline.ofConfig_contentlayer rfl fresh known distinct few with
    ⟨cause, failed⟩ | found
  · rw [finished] at failed
    cases failed
  · exact found

/-- The page of that document, with an id of the heading or without. -/
def headedPage (heading : String) (id : Option String) : Node :=
  .document
    [⟨.section 1,
        [⟨.heading 1 id, [.text heading]⟩,
          ⟨.paragraph, [.text "x", .leaf (.footnoteCrossReference "a" 1)]⟩]⟩,
      ⟨.footnoteList, [⟨.footnoteItem "a" 1, [⟨.paragraph, [.text "A."]⟩]⟩]⟩]

theorem assign_headedPage (heading : String) :
    (HeadingId.apply (headedPage heading none)).1 =
      headedPage heading (some (HeadingId.slug heading)) := by
  have free : HeadingId.given (headedPage heading none) = [] := by
    simp [HeadingId.given, headedPage, Node.document, Node.text, leaf]
  rw [HeadingId.apply, free]
  simp [headedPage, Node.document, Node.text, leaf, HeadingId.assign, HeadingId.assignAll,
    HeadingId.unique, textContent, textContentAll, ownText]

theorem slug_numbered : HeadingId.slug "fn 1" = "fn-1" := by
  have lower : Text.toLower "fn 1".toList = ['f', 'n', ' ', '1'] := by decide +kernel
  have blank : Text.isAlphanumeric ' ' = false := by
    rw [Text.isAlphanumeric_eq_any]
    decide +kernel
  have digit : Text.isAlphanumeric '1' = true := by
    rw [Text.isAlphanumeric_eq_any]
    decide +kernel
  have keeps {c : Char} (letter : Text.isAlphanumeric c = true) : slugChar? c = some c :=
    if_pos letter
  have hyphen : slugChar? ' ' = some '-' := by
    rw [slugChar?, if_neg (by simp [blank]), if_pos (by decide)]
  have kept : (Text.toLower "fn 1".toList).filterMap slugChar? = ['f', 'n', '-', '1'] := by
    rw [lower, List.filterMap_cons_some (keeps (by decide +kernel)),
      List.filterMap_cons_some (keeps (by decide +kernel)), List.filterMap_cons_some hyphen,
      List.filterMap_cons_some (keeps digit), List.filterMap_nil]
  rw [HeadingId.slug, slugify, kept]
  decide +kernel

/-- The id that the heading "fn 1" gets is that of the first item. -/
theorem default_page_ids_twice :
    (headedDocument "fn 1").kind = .document ∧
      (headedDocument "fn 1").Every
        (fun kind => kind.isListing = false ∧ kind.crossReference? = none) ∧
      (headedDocument "fn 1").Every (fun kind => kind.isCustom = false) ∧
      (HeadingId.given (headedDocument "fn 1")).Nodup ∧
      ∃ page diagnostics,
        Pipeline.contentlayer.finish (headedDocument "fn 1") = .ok (page, diagnostics) ∧
          ¬(ids (markup page)).Nodup := by
  obtain ⟨fresh, known, distinct⟩ := every_headedDocument "fn 1"
  refine ⟨rfl, fresh, known, distinct, ?_⟩
  have done : (Pipeline.contentlayer.finish (headedDocument "fn 1")).isOk = true := by
    decide +kernel
  have first : Page.render false (Pipeline.prepared (headedDocument "fn 1")) =
      .ok (headedPage "fn 1" none) := by decide +kernel
  have second : Highlight.apply Syntax.standard false (headedPage "fn 1" none) =
      .ok (headedPage "fn 1" none) := by decide +kernel
  have root : (headedDocument "fn 1").kind = .document := rfl
  rcases Pipeline.exists_finish_default Pipeline.ofConfig_contentlayer root with
    ⟨cause, failed⟩ | ⟨page, highlighted, diagnostics, rendered, split, finished⟩
  · rw [failed] at done
    cases done
  · cases first.symm.trans rendered
    cases second.symm.trans split
    refine ⟨_, _, finished, ?_⟩
    have same : ids (markup (Minify.apply (headedPage "fn 1" (some "fn-1")))) =
        ["fn-1", "fn-1"] := by decide +kernel
    rw [assign_headedPage, slug_numbered, same]
    decide

end DocPress
