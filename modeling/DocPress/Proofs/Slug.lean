import DocPress.Slug
import DocPress.Proofs.Text
import DocPress.Proofs.Text.LetterCase

/-!
Slugs. The slug of a text is made of the letters and numerals of its words, in lower case, with a hyphen
between one word and the next; the slug of an identifier is made of the slugs of its segments. Slugs stay
as they are when they are made into slugs again.
-/

namespace DocPress

open Text (IsLower IsApart isAlphanumeric isBlank splitOn toLower)

/-! ### Letters -/

/-- Whether a text is a slug: letters, numerals and hyphens, and every hyphen alone between two
others. -/
structure IsSlug (text : List Char) : Prop where
  chars : ∀ c ∈ text, isAlphanumeric c = true ∨ c = '-'
  starts : text.head? ≠ some '-'
  ends : text.getLast? ≠ some '-'
  apart : ¬['-', '-'] <:+: text

/-- Whether a text is a word of slugs: letters and numerals in lower case. -/
structure IsSlugWord (word : List Char) : Prop where
  filled : word ≠ []
  letters : ∀ c ∈ word, isAlphanumeric c = true
  lower : ∀ c ∈ word, IsLower c

theorem not_isAlphanumeric_hyphen : isAlphanumeric '-' = false := by
  rw [Text.isAlphanumeric_eq_any]
  decide +kernel

theorem not_isAlphanumeric_underscore : isAlphanumeric '_' = false := by
  rw [Text.isAlphanumeric_eq_any]
  decide +kernel

theorem not_isAlphanumeric_slash : isAlphanumeric '/' = false := by
  rw [Text.isAlphanumeric_eq_any]
  decide +kernel

theorem isLower_hyphen : IsLower '-' :=
  Text.isLower_of_forall (by decide +kernel)

/-- The code points of blanks. -/
def blankCodes : List Nat :=
  [9, 10, 11, 12, 13, 0x20, 0x85, 0xA0, 0x1680, 0x2000, 0x2001, 0x2002, 0x2003, 0x2004, 0x2005, 0x2006,
    0x2007, 0x2008, 0x2009, 0x200A, 0x2028, 0x2029, 0x202F, 0x205F, 0x3000]

/-- No blank is a letter. -/
theorem not_isAlphanumeric_of_isBlank {c : Char} (blank : isBlank c = true) :
    isAlphanumeric c = false := by
  have none : ∀ code ∈ blankCodes, isAlphanumeric (Char.ofNat code) = false := by
    simp only [Text.isAlphanumeric_eq_any]
    decide +kernel
  have listed : c.toNat ∈ blankCodes := by
    simp only [isBlank, Bool.or_eq_true, Bool.and_eq_true, decide_eq_true_eq, beq_iff_eq] at blank
    simp only [blankCodes, List.mem_cons, List.not_mem_nil, or_false]
    omega
  simpa using none c.toNat listed

/-- Whether a character keeps words apart. -/
def isGap (c : Char) : Bool :=
  isBlank c || c = '-' || c = '_'

/-- A gap becomes a hyphen. -/
theorem slugChar?_of_gap {c : Char} (gap : isGap c = true) : slugChar? c = some '-' := by
  have notLetter : isAlphanumeric c = false := by
    simp only [isGap, Bool.or_eq_true, decide_eq_true_eq] at gap
    rcases gap with (blank | rfl) | rfl
    · exact not_isAlphanumeric_of_isBlank blank
    · exact not_isAlphanumeric_hyphen
    · exact not_isAlphanumeric_underscore
  rw [slugChar?, notLetter, if_neg Bool.false_ne_true]
  exact if_pos gap

theorem slugChar?_of_not_gap {c : Char} (solid : isGap c = false) :
    slugChar? c = if isAlphanumeric c then some c else none := by
  rw [slugChar?]
  split
  · rfl
  · exact if_neg (by simpa [isGap] using solid)

theorem slugChar?_of_isAlphanumeric {c : Char} (letter : isAlphanumeric c = true) :
    slugChar? c = some c := by
  rw [slugChar?, if_pos letter]

/-! ### Words -/

/-- The letters and numerals of the words of a text, in lower case. -/
def slugWords (text : List Char) : List (List Char) :=
  ((splitOn isGap (toLower text)).map (·.filter isAlphanumeric)).filter (!·.isEmpty)

/-- Between hyphens there is what stays of the text between gaps. -/
theorem splitOn_filterMap_slugChar? (text : List Char) :
    splitOn (· = '-') (text.filterMap slugChar?) =
      (splitOn isGap text).map (·.filter isAlphanumeric) := by
  induction text with
  | nil => rfl
  | cons c rest ih =>
      rw [splitOn]
      cases gap : isGap c with
      | true =>
          rw [List.filterMap_cons_some (slugChar?_of_gap gap), splitOn, if_pos (by decide), if_pos rfl,
            ih]
          rfl
      | false =>
          rw [if_neg Bool.false_ne_true]
          cases parts : splitOn isGap rest with
          | nil => exact absurd parts (Text.splitOn_ne_nil rest)
          | cons first more =>
              rw [parts] at ih
              have kept := slugChar?_of_not_gap gap
              cases letter : isAlphanumeric c with
              | true =>
                  rw [letter, if_pos rfl] at kept
                  have noHyphen : c ≠ '-' := by
                    rintro rfl
                    rw [not_isAlphanumeric_hyphen] at letter
                    cases letter
                  rw [List.filterMap_cons_some kept, splitOn, if_neg (by simpa using noHyphen), ih]
                  simp [letter]
              | false =>
                  rw [letter, if_neg Bool.false_ne_true] at kept
                  rw [List.filterMap_cons_none kept, ih]
                  simp [letter]

/-- A slug is its words with hyphens in between. -/
theorem slugify_eq (text : List Char) : slugify text = ['-'].intercalate (slugWords text) := by
  rw [slugify, splitOn_filterMap_slugChar?]
  rfl

theorem isSlugWord_of_mem_slugWords {text word : List Char} (member : word ∈ slugWords text) :
    IsSlugWord word := by
  obtain ⟨listed, filled⟩ := List.mem_filter.1 member
  obtain ⟨part, cut, rfl⟩ := List.mem_map.1 listed
  refine ⟨by simpa using filled, fun c inside => (List.mem_filter.1 inside).2, fun c inside => ?_⟩
  exact Text.isLower_of_mem_toLower (Text.of_mem_splitOn cut c (List.mem_filter.1 inside).1).1

/-! ### Slugs of words -/

/-- A word of a slug holds no hyphen. -/
theorem IsSlugWord.no_hyphen {word : List Char} (proper : IsSlugWord word) : '-' ∉ word := by
  intro hyphen
  have letter := proper.letters _ hyphen
  rw [not_isAlphanumeric_hyphen] at letter
  cases letter

/-- Words with hyphens in between start and end with letters, and have no two hyphens side by side. -/
theorem hyphens_apart {words : List (List Char)} (each : ∀ word ∈ words, word ≠ [] ∧ '-' ∉ word) :
    (['-'].intercalate words).head? ≠ some '-' ∧ (['-'].intercalate words).getLast? ≠ some '-' ∧
      IsApart '-' (['-'].intercalate words) := by
  induction words with
  | nil => exact ⟨nofun, nofun, .nil⟩
  | cons word rest ih =>
      rw [List.forall_mem_cons] at each
      obtain ⟨⟨filled, clear⟩, behind⟩ := each
      have starts : word.head? ≠ some '-' := fun head => clear (List.mem_of_head? head)
      have ends : word.getLast? ≠ some '-' := fun last => clear (List.mem_of_getLast? last)
      have solid : IsApart '-' word := (Text.isClear_iff.1 (Text.isClear_of_not_mem clear)).1
      by_cases last : rest = []
      · subst last
        rw [List.intercalate_singleton]
        exact ⟨starts, ends, solid⟩
      · obtain ⟨starts', ends', apart⟩ := ih behind
        have some_rest : ['-'].intercalate rest ≠ [] := by
          obtain ⟨first, more, rfl⟩ := List.exists_cons_of_ne_nil last
          have filled' := (behind first List.mem_cons_self).1
          by_cases single : more = []
          · rw [single, List.intercalate_singleton]
            exact filled'
          · rw [List.intercalate_cons_of_ne_nil single]
            simp [filled']
        rw [List.intercalate_cons_of_ne_nil last, List.append_assoc, List.singleton_append]
        refine ⟨?_, ?_, ?_⟩
        · rwa [List.head?_append_of_ne_nil _ filled]
        · rw [List.getLast?_append_of_ne_nil _ (List.cons_ne_nil _ _), ← List.singleton_append,
            List.getLast?_append_of_ne_nil _ some_rest]
          exact ends'
        · refine solid.append ?_ fun last => absurd last ends
          have hyphen : IsApart '-' ['-'] := .singleton _
          exact hyphen.append apart fun _ => starts'

/-- Words with hyphens between them are a slug. -/
theorem isSlug_intercalate {words : List (List Char)} (each : ∀ word ∈ words, IsSlugWord word) :
    IsSlug (['-'].intercalate words) := by
  obtain ⟨starts, ends, apart⟩ := hyphens_apart fun word member =>
    ⟨(each word member).filled, (each word member).no_hyphen⟩
  refine ⟨fun c member => ?_, starts, ends, Text.isApart_iff_infix.1 apart⟩
  rcases Text.mem_intercalate member with rfl | ⟨word, listed, inside⟩
  · exact .inr rfl
  · exact .inl ((each word listed).letters c inside)

/-- Words that are put together are the words of what they make. -/
theorem slugify_intercalate {words : List (List Char)} (each : ∀ word ∈ words, IsSlugWord word) :
    slugify (['-'].intercalate words) = ['-'].intercalate words := by
  have lower : toLower (['-'].intercalate words) = ['-'].intercalate words := by
    refine Text.toLower_eq_self fun c member => ?_
    rcases Text.mem_intercalate member with rfl | ⟨word, listed, inside⟩
    · exact isLower_hyphen
    · exact (each word listed).lower c inside
  have kept : (['-'].intercalate words).filterMap slugChar? = ['-'].intercalate words := by
    refine (List.filterMap_congr (g := some) fun c member => ?_).trans List.filterMap_some
    rcases Text.mem_intercalate member with rfl | ⟨word, listed, inside⟩
    · exact slugChar?_of_gap (by decide)
    · exact slugChar?_of_isAlphanumeric ((each word listed).letters c inside)
  rw [slugify, lower, kept, joinNonempty]
  by_cases none : words = []
  · subst none
    rfl
  · rw [Text.splitOn_intercalate (by decide) none fun word member =>
        Text.decide_eq_false_of_not_mem (each word member).no_hyphen,
      List.filter_eq_self.2 fun word member => by simpa using (each word member).filled]

theorem slugify_slugify (text : List Char) : slugify (slugify text) = slugify text := by
  rw [slugify_eq text, slugify_intercalate fun _ => isSlugWord_of_mem_slugWords]

theorem isSlug_slugify (text : List Char) : IsSlug (slugify text) := by
  rw [slugify_eq]
  exact isSlug_intercalate fun _ => isSlugWord_of_mem_slugWords

/-! ### Slugs of identifiers -/

/-- The slugs of the segments of an identifier, without those that are empty. -/
def segmentSlugs (identifier : List Char) : List (List Char) :=
  ((splitOn (· = '/') identifier).map slugify).filter (!·.isEmpty)

theorem deriveSlug_eq (identifier : List Char) :
    deriveSlug identifier = ['/'].intercalate (segmentSlugs identifier) := rfl

theorem of_mem_segmentSlugs {identifier slug : List Char} (member : slug ∈ segmentSlugs identifier) :
    slug ≠ [] ∧ IsSlug slug ∧ slugify slug = slug := by
  obtain ⟨listed, filled⟩ := List.mem_filter.1 member
  obtain ⟨segment, -, rfl⟩ := List.mem_map.1 listed
  exact ⟨by simpa using filled, isSlug_slugify segment, slugify_slugify segment⟩

/-- A slug of one segment holds no slash. -/
theorem IsSlug.no_slash {slug : List Char} (proper : IsSlug slug) : '/' ∉ slug := by
  intro slash
  rcases proper.chars _ slash with letter | hyphen
  · rw [not_isAlphanumeric_slash] at letter
    cases letter
  · cases hyphen

/-- Deriving a slug from a slug changes nothing. -/
theorem deriveSlug_deriveSlug (identifier : List Char) :
    deriveSlug (deriveSlug identifier) = deriveSlug identifier := by
  have each := @of_mem_segmentSlugs identifier
  rw [deriveSlug_eq identifier]
  generalize segmentSlugs identifier = slugs at each
  by_cases none : slugs = []
  · subst none
    rfl
  · have segments : splitOn (· = '/') (['/'].intercalate slugs) = slugs :=
      Text.splitOn_intercalate (by decide) none fun slug member =>
        Text.decide_eq_false_of_not_mem (each member).2.1.no_slash
    rw [deriveSlug, segments, joinNonempty, List.map_congr_left fun slug member => (each member).2.2,
      List.map_id', List.filter_eq_self.2 fun slug member => by simpa using (each member).1]

/-- The slug of a text consists of letters, numerals and hyphens, no hyphen is at its start, at its end
or next to another one, and it is its own slug; it is made of the words of the text in lower case. The slug
of an identifier consists of such slugs that are not empty, with slashes in between, and is its own slug
as well. -/
theorem slugs_of_texts_and_identifiers :
    (∀ text, IsSlug (slugify text) ∧ slugify (slugify text) = slugify text ∧
      slugify text = ['-'].intercalate (slugWords text)) ∧
    ∀ identifier, (∃ slugs, deriveSlug identifier = ['/'].intercalate slugs ∧
        ∀ slug ∈ slugs, slug ≠ [] ∧ IsSlug slug ∧ slugify slug = slug) ∧
      deriveSlug (deriveSlug identifier) = deriveSlug identifier :=
  ⟨fun text => ⟨isSlug_slugify text, slugify_slugify text, slugify_eq text⟩,
    fun identifier => ⟨⟨_, deriveSlug_eq identifier, fun _ => of_mem_segmentSlugs⟩,
      deriveSlug_deriveSlug identifier⟩⟩

end DocPress
