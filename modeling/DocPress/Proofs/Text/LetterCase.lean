import DocPress.Text.LetterCase

/-!
Lower case. The lower-case form of a character consists of characters that are their own lower-case form,
as the runs of the table lead to none of the runs. So a text in lower case stays as it is, and it holds no
capital sigma, whose form would depend on what is around it.
-/

namespace DocPress.Text

/-- Whether a character is its own lower-case form. -/
def IsLower (c : Char) : Prop :=
  lowerChar c = [c]

instance : DecidablePred IsLower := fun c =>
  inferInstanceAs (Decidable (lowerChar c = [c]))

/-! ### Runs -/

/-- The code point that the first one of a run is led to. -/
def CaseRun.low (run : CaseRun) : Nat :=
  (run.first + run.shift).toNat

/-- The code point that the last one of a run is led to. -/
def CaseRun.high (run : CaseRun) : Nat :=
  (run.last + run.shift).toNat

/-- Whether a run leads to code points of characters. -/
def CaseRun.leadsToChars (run : CaseRun) : Bool :=
  0 ≤ run.first + run.shift &&
    (run.high < 0xD800 || (0xDFFF < run.low && run.high < 0x110000))

/-- Whether a run leads to no code point of another one: they are apart, or every second code point is
on the other one and those in between are led to. -/
def CaseRun.avoids (run other : CaseRun) : Bool :=
  Nat.blt run.high other.first || Nat.blt other.last run.low ||
    ((run.step == 2 || run.first == run.last) && other.step == 2 &&
      (run.first + run.shift - other.first) % 2 == 1)

theorem CaseRun.image?_eq_some {run : CaseRun} {code image : Nat}
    (leads : run.image? code = some image) :
    run.first ≤ code ∧ code ≤ run.last ∧ (code - run.first) % run.step = 0 ∧
      image = (code + run.shift).toNat := by
  simp only [image?, Bool.and_eq_true, decide_eq_true_eq, beq_iff_eq] at leads
  split at leads
  case isFalse => cases leads
  case isTrue on => exact ⟨on.1.1, on.1.2, on.2, (Option.some.inj leads).symm⟩

/-- A run that leads to characters leads to the character with the code point. -/
theorem CaseRun.toNat_ofNat_of_image? {run : CaseRun} {code image : Nat}
    (sound : run.leadsToChars = true) (leads : run.image? code = some image) :
    (Char.ofNat image).toNat = image := by
  simp only [leadsToChars, Bool.and_eq_true, Bool.or_eq_true, decide_eq_true_eq] at sound
  simp only [low, high] at sound
  obtain ⟨from_first, to_last, -, value⟩ := image?_eq_some leads
  have valid : image.isValidChar := by
    simp only [Nat.isValidChar]
    omega
  rw [Char.ofNat, dif_pos valid]
  rfl

theorem CaseRun.image?_eq_none {run other : CaseRun} {code image : Nat}
    (sound : run.leadsToChars = true) (avoids : run.avoids other = true)
    (leads : run.image? code = some image) : other.image? image = none := by
  simp only [leadsToChars, Bool.and_eq_true, decide_eq_true_eq] at sound
  simp only [CaseRun.avoids, low, high, Bool.and_eq_true, Bool.or_eq_true, Nat.blt_eq,
    beq_iff_eq] at avoids
  obtain ⟨from_first, to_last, steps, value⟩ := image?_eq_some leads
  rw [Option.eq_none_iff_forall_ne_some]
  intro later leads'
  obtain ⟨from_first', to_last', steps', -⟩ := image?_eq_some leads'
  rcases avoids with (below | above) | ⟨⟨two | single, two'⟩, odd⟩
  · omega
  · omega
  · rw [two] at steps
    rw [two'] at steps'
    omega
  · rw [two'] at steps'
    omega

/-! ### The table -/

/-- The dotted capital I, whose lower-case form is not in the table, as a run of its own. -/
def dottedCapitalI : CaseRun :=
  ⟨304, 304, 1, 0⟩

/-- The runs lead to no code point that a run or the dotted capital I has. -/
theorem lowerRuns_avoid : (lowerRuns.toList.all fun run =>
    run.leadsToChars && (dottedCapitalI :: lowerRuns.toList).all run.avoids) = true := by
  decide +kernel

/-- A character stays as it is, or a run leads from it to another one. -/
theorem applyRuns_cases (runs : Array CaseRun) (c : Char) :
    ((∀ run ∈ runs.toList, run.image? c.toNat = none) ∧ applyRuns runs c = c) ∨
      ∃ run ∈ runs.toList, ∃ image, run.image? c.toNat = some image ∧
        applyRuns runs c = Char.ofNat image := by
  rw [applyRuns, ← Array.findSome?_toList]
  cases found : runs.toList.findSome? (CaseRun.image? · c.toNat) with
  | none => exact .inl ⟨List.findSome?_eq_none_iff.1 found, rfl⟩
  | some image =>
      obtain ⟨run, listed, leads⟩ := List.exists_of_findSome?_eq_some found
      exact .inr ⟨run, listed, image, leads, rfl⟩

/-- A character that no run holds is in lower case. -/
theorem isLower_of_forall {c : Char} (none : ∀ run ∈ dottedCapitalI :: lowerRuns.toList,
    run.image? c.toNat = none) : IsLower c := by
  obtain ⟨dotted, none⟩ := List.forall_mem_cons.1 none
  have undotted : ¬(c.toNat == 304) = true := by
    rw [beq_iff_eq]
    intro same
    rw [same] at dotted
    exact absurd dotted (by decide)
  rw [IsLower, lowerChar, if_neg undotted]
  rcases applyRuns_cases lowerRuns c with ⟨-, same⟩ | ⟨run, listed, image, leads, -⟩
  · rw [same]
  · rw [none run listed] at leads
    cases leads

/-- A code point that a run leads to is on no run, and is not that of the dotted capital I. -/
theorem image?_of_image? {run other : CaseRun} {code image : Nat} (listed : run ∈ lowerRuns.toList)
    (leads : run.image? code = some image) (listed' : other ∈ dottedCapitalI :: lowerRuns.toList) :
    (Char.ofNat image).toNat = image ∧ other.image? image = none := by
  have entry := List.all_eq_true.1 lowerRuns_avoid run listed
  rw [Bool.and_eq_true, List.all_eq_true] at entry
  exact ⟨run.toNat_ofNat_of_image? entry.1 leads,
    CaseRun.image?_eq_none entry.1 (entry.2 other listed') leads⟩

/-- The lower-case form of a character is in lower case. -/
theorem isLower_of_mem_lowerChar {c d : Char} (member : c ∈ lowerChar d) : IsLower c := by
  rw [lowerChar] at member
  split at member
  case isTrue =>
    simp only [List.mem_cons, List.not_mem_nil, or_false] at member
    rcases member with rfl | rfl
    · exact isLower_of_forall (by decide +kernel)
    · exact isLower_of_forall (by decide +kernel)
  case isFalse undotted =>
    rw [List.mem_singleton.1 member]
    rcases applyRuns_cases lowerRuns d with ⟨none, same⟩ | ⟨run, listed, image, leads, same⟩
    · rw [same, IsLower, lowerChar, if_neg undotted, same]
    · refine isLower_of_forall fun other listed' => ?_
      obtain ⟨code, apart⟩ := image?_of_image? listed leads listed'
      rw [same, code]
      exact apart

/-- A character in lower case is on no run. -/
theorem IsLower.image?_eq_none {c : Char} (lower : IsLower c) {run : CaseRun}
    (listed : run ∈ lowerRuns.toList) : run.image? c.toNat = none := by
  rw [IsLower, lowerChar] at lower
  split at lower
  case isTrue => cases lower
  case isFalse =>
    rcases applyRuns_cases lowerRuns c with ⟨none, -⟩ | ⟨other, listed', image, leads, same⟩
    · exact none run listed
    · obtain ⟨code, apart⟩ := image?_of_image? listed' leads (List.mem_cons_of_mem _ listed)
      rw [← same.symm.trans (List.cons.inj lower).1, code]
      exact apart

/-! ### Texts -/

/-- Both lower-case forms of the capital sigma are in lower case. -/
theorem isLower_sigma : IsLower (Char.ofNat 962) ∧ IsLower (Char.ofNat 963) :=
  ⟨isLower_of_forall (by decide +kernel), isLower_of_forall (by decide +kernel)⟩

theorem isLower_of_mem_toLowerAfter {c : Char} {text : List Char} :
    ∀ {before : List Char}, c ∈ toLowerAfter before text → IsLower c := by
  induction text with
  | nil => exact nofun
  | cons d rest ih =>
      intro before member
      rw [toLowerAfter] at member
      rcases List.mem_append.1 member with here | behind
      · split at here
        case isTrue =>
          split at here
          case isTrue => exact List.mem_singleton.1 here ▸ isLower_sigma.1
          case isFalse => exact List.mem_singleton.1 here ▸ isLower_sigma.2
        case isFalse => exact isLower_of_mem_lowerChar here
      · exact ih behind

/-- The lower-case form of a text is in lower case. -/
theorem isLower_of_mem_toLower {c : Char} {text : List Char} (member : c ∈ toLower text) :
    IsLower c :=
  isLower_of_mem_toLowerAfter member

/-- The capital sigma is not in lower case. -/
theorem IsLower.toNat_ne {c : Char} (lower : IsLower c) : c.toNat ≠ 931 := by
  intro sigma
  have held : (lowerRuns.toList.any fun run => (run.image? 931).isSome) = true := by
    decide +kernel
  obtain ⟨run, listed, some⟩ := List.any_eq_true.1 held
  rw [← sigma, lower.image?_eq_none listed] at some
  cases some

theorem toLowerAfter_eq_self {text : List Char} (lower : ∀ c ∈ text, IsLower c) :
    ∀ before : List Char, toLowerAfter before text = text := by
  induction text with
  | nil => exact fun _ => rfl
  | cons c rest ih =>
      intro before
      rw [List.forall_mem_cons] at lower
      rw [toLowerAfter, if_neg (by simpa using lower.1.toNat_ne), ih lower.2, lower.1]
      rfl

/-- A text in lower case stays as it is. -/
theorem toLower_eq_self {text : List Char} (lower : ∀ c ∈ text, IsLower c) : toLower text = text :=
  toLowerAfter_eq_self lower []

end DocPress.Text
