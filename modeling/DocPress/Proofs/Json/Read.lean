import DocPress.Proofs.Json.Scalar
import DocPress.Proofs.Json.Value

/-!
Reading back the text of a value. The text of a value whose numbers fit is read as the value when as
many brackets may be opened as the value nests, and breaks off when fewer may be. What is read of any
text nests no deeper than brackets may be opened.
-/

namespace DocPress.Json

/-! ### Single steps -/

/-- Whether a text goes on with what follows a value: nothing, a comma or a closing bracket. -/
def EndsValue (rest : List Char) : Prop :=
  ∀ c, rest.head? = some c → c = ',' ∨ c = ']' ∨ c = '}'

theorem EndsValue.endsNumber {rest : List Char} (ends : EndsValue rest) : EndsNumber rest := by
  intro c first
  rcases ends c first with rfl | rfl | rfl <;> decide

theorem endsValue_cons {c : Char} (delimiter : c = ',' ∨ c = ']' ∨ c = '}') (rest : List Char) :
    EndsValue (c :: rest) := by
  rintro first same
  exact (Option.some.inj same) ▸ delimiter

/-- There are no blanks to skip in front of a solid character. -/
theorem blanks_of_solid {scan : Scan} {c : Char} {more : List Char} (text : scan.rest = c :: more)
    (solid : c ∉ [' ', '\t', '\n', '\r']) : scan.blanks = scan := by
  obtain ⟨rest, place⟩ := scan
  subst text
  simp only [List.mem_cons, List.not_mem_nil, or_false, not_or] at solid
  simp [Scan.blanks, skipBlanks, solid]

variable {fuel depth : Nat} {scan : Scan} {more : List Char}

/-- At an opening bracket the items of an array are read. -/
theorem readValue_array (text : scan.rest = '[' :: more) :
    readValue (fuel + 1) (depth + 1) scan =
      let read := readItems fuel depth true ⟨more, scan.place.along 1⟩
      (.array scan.place read.1 read.2.1, read.2.2) := by
  obtain ⟨line, place⟩ := scan
  obtain rfl : line = '[' :: more := text
  rfl

/-- At an opening brace the fields of an object are read. -/
theorem readValue_object (text : scan.rest = '{' :: more) :
    readValue (fuel + 1) (depth + 1) scan =
      let read := readFields fuel depth true ⟨more, scan.place.along 1⟩
      (.object scan.place read.1 read.2.1, read.2.2) := by
  obtain ⟨line, place⟩ := scan
  obtain rfl : line = '{' :: more := text
  rfl

/-- A bracket too many cuts the reading off. -/
theorem readValue_bracket {c : Char} (bracket : c = '[' ∨ c = '{') (text : scan.rest = c :: more) :
    (readValue (fuel + 1) 0 scan).1.isCut = true := by
  obtain ⟨line, place⟩ := scan
  obtain rfl : line = c :: more := text
  rcases bracket with rfl | rfl <;> rfl

/-- At a digit a number is read. -/
theorem readValue_digit {c : Char} (digit : c.isDigit = true) (text : scan.rest = c :: more) :
    readValue (fuel + 1) depth scan =
      ofScalar ((readNumber false scan).map fun read => (.number read.1, read.2)) := by
  have solid : c ∉ [' ', '\t', '\n', '\r'] := by
    intro member
    simp only [List.mem_cons, List.not_mem_nil, or_false] at member
    rcases member with rfl | rfl | rfl | rfl <;> exact absurd digit (by decide)
  rw [readValue, blanks_of_solid text solid]
  simp only [text]
  split
  case h_8 => simp [digit]
  all_goals exact absurd digit (by decide)

/-- What reading a scalar comes to: the scalar and the place behind it. -/
def ReadsScalar (value : Json) (rest : List Char) (read : Located × Scan) : Prop :=
  (∃ stop, read.1 = .scalar value stop) ∧ read.2.rest = rest

theorem readsScalar_ofScalar {value : Json} {stop : Scan} :
    ReadsScalar value stop.rest (ofScalar (.ok (value, stop))) :=
  ⟨⟨stop.place, rfl⟩, rfl⟩

variable {rest : List Char}

/-- The words for null and the truth values are read back. -/
theorem readValue_word {value : Json} (word : value = .null ∨ ∃ b, value = .bool b)
    (text : scan.rest = value.chars ++ rest) :
    ReadsScalar value rest (readValue (fuel + 1) depth scan) := by
  obtain ⟨line, place⟩ := scan
  rcases word with rfl | ⟨b, rfl⟩
  · obtain rfl : line = 'n' :: 'u' :: 'l' :: 'l' :: rest := text
    exact readsScalar_ofScalar
  · cases b with
    | true =>
        obtain rfl : line = 't' :: 'r' :: 'u' :: 'e' :: rest := text
        exact readsScalar_ofScalar
    | false =>
        obtain rfl : line = 'f' :: 'a' :: 'l' :: 's' :: 'e' :: rest := text
        exact readsScalar_ofScalar

/-- A quoted text is read back. -/
theorem readValue_string {letters : String} (text : scan.rest = quote letters.toList ++ rest) :
    ReadsScalar (.string letters) rest (readValue (fuel + 1) depth scan) := by
  obtain ⟨line, quoted, reads⟩ := exists_readText letters.toList rest
  rw [quoted] at text
  obtain ⟨stop, read⟩ := reads (scan.place.along 1)
  rw [readValue, blanks_of_solid text (by decide)]
  simp only [text, read]
  exact ⟨⟨stop, by simp [ofScalar, Except.map]⟩, rfl⟩

/-- A negative number is written as a minus sign and its digits. -/
theorem toList_negSucc (n : Nat) :
    (toString (Int.negSucc n)).toList = '-' :: Nat.toDigits 10 (n + 1) := by
  rw [← Nat.toList_repr]
  simp [toString, Int.repr]

/-- A number that fits into 64 bits is read back. -/
theorem readValue_number {n : Int} (fits : -(1 <<< 63 : Nat) ≤ n ∧ n < UInt64.size)
    (ends : EndsValue rest) (text : scan.rest = (toString n).toList ++ rest) :
    ReadsScalar (.number (.int n)) rest (readValue (fuel + 1) depth scan) := by
  obtain ⟨line, place⟩ := scan
  cases n with
  | ofNat n =>
      obtain rfl : line = Nat.toDigits 10 n ++ rest := by
        rw [← Nat.toList_repr]
        exact text
      have small : FitsWord false n := by
        have bound : (n : Int) < UInt64.size := fits.2
        simp only [FitsWord, Bool.false_eq_true, if_false]
        omega
      obtain ⟨stop, read⟩ := readNumber_toDigits small ends.endsNumber place
      obtain ⟨first, others, digits, digit⟩ := exists_toDigits n
      rw [digits] at read ⊢
      rw [readValue_digit digit rfl, read]
      exact ⟨⟨stop, rfl⟩, rfl⟩
  | negSucc n =>
      obtain rfl : line = '-' :: (Nat.toDigits 10 (n + 1) ++ rest) := by
        rw [← List.cons_append, ← toList_negSucc]
        exact text
      have small : FitsWord true (n + 1) := by
        have bound := fits.1
        simp only [FitsWord, if_true]
        omega
      obtain ⟨stop, read⟩ := readNumber_toDigits small ends.endsNumber (place.along 1)
      change ReadsScalar _ _ (ofScalar ((readNumber true ⟨_, place.along 1⟩).map _))
      rw [read]
      exact ⟨⟨stop, rfl⟩, rfl⟩

/-- What is read from the start of an item on. -/
def readItemsFrom (fuel depth : Nat) (scan : Scan) : List Located × Except Break Place × Scan :=
  let read := readValue fuel depth scan
  if read.1.isCut then ([read.1], .error ⟨.endInList, read.2.place⟩, read.2)
  else
    let others := readItems fuel depth false read.2
    (read.1 :: others.1, others.2.1, others.2.2)

/-- The first item of an array is read at once. -/
theorem readItems_first {c : Char} (solid : c ∉ [' ', '\t', '\n', '\r', ',', ']', '}'])
    (text : scan.rest = c :: more) :
    readItems (fuel + 1) depth true scan = readItemsFrom fuel depth scan := by
  simp only [List.mem_cons, List.not_mem_nil, or_false, not_or] at solid
  rw [readItems, blanks_of_solid text (by simp [solid])]
  simp only [text]
  split
  · contradiction
  · next same => exact absurd (List.cons.inj same).1 solid.2.2.2.2.2.1
  · rfl

/-- Every other item of an array is read behind a comma. -/
theorem readItems_next {c : Char} (solid : c ∉ [' ', '\t', '\n', '\r', ',', ']', '}'])
    (text : scan.rest = ',' :: c :: more) :
    readItems (fuel + 1) depth false scan =
      readItemsFrom fuel depth ⟨c :: more, scan.place.along 1⟩ := by
  obtain ⟨line, place⟩ := scan
  obtain rfl : line = ',' :: c :: more := text
  simp only [List.mem_cons, List.not_mem_nil, or_false, not_or] at solid
  have behind : (Scan.mk (c :: more) (place.along 1)).blanks = ⟨c :: more, place.along 1⟩ :=
    blanks_of_solid rfl (by simp [solid])
  have comma : ',' ≠ ']' := by decide
  rw [readItems, blanks_of_solid rfl (by decide)]
  simp [behind]
  split
  · contradiction
  · next same => exact absurd (List.cons.inj same).1 solid.2.2.2.2.2.1
  · rfl

/-- A closing bracket ends the items. -/
theorem readItems_end {first : Bool} (text : scan.rest = ']' :: more) :
    readItems (fuel + 1) depth first scan =
      ([], .ok (scan.place.along 1), ⟨more, scan.place.along 1⟩) := by
  obtain ⟨line, place⟩ := scan
  obtain rfl : line = ']' :: more := text
  rfl

/-- What is read from the key of a field on, after its opening quote. -/
def readFieldsFrom (fuel depth : Nat) (key : String) (place : Place) (scan : Scan) :
    List (String × Place × Located) × Except Break Place × Scan :=
  let read := readValue fuel depth scan
  if read.1.isCut then ([(key, place, read.1)], .error ⟨.endInObject, read.2.place⟩, read.2)
  else
    let others := readFields fuel depth false read.2
    ((key, place, read.1) :: others.1, others.2.1, others.2.2)

/-- The first field of an object is read from its key on. -/
theorem readFields_first {key : String} (fuel depth : Nat)
    (text : scan.rest = quote key.toList ++ ':' :: more) :
    ∃ place start, readFields (fuel + 1) depth true scan =
      readFieldsFrom fuel depth key place ⟨more, start⟩ := by
  obtain ⟨line, quoted, reads⟩ := exists_readText key.toList (':' :: more)
  rw [quoted] at text
  obtain ⟨stop, read⟩ := reads (scan.place.along 1)
  have colon : (Scan.mk (':' :: more) stop).blanks = ⟨':' :: more, stop⟩ :=
    blanks_of_solid rfl (by decide)
  refine ⟨stop, stop.along 1, ?_⟩
  rw [readFields, blanks_of_solid text (by decide)]
  simp [text, read, colon]
  rfl

/-- A field behind a comma is read from its key on. -/
theorem readFields_next {key : String} (fuel depth : Nat)
    (text : scan.rest = ',' :: (quote key.toList ++ ':' :: more)) :
    ∃ place start, readFields (fuel + 1) depth false scan =
      readFieldsFrom fuel depth key place ⟨more, start⟩ := by
  obtain ⟨line, quoted, reads⟩ := exists_readText key.toList (':' :: more)
  rw [quoted] at text
  obtain ⟨stop, read⟩ := reads ((scan.place.along 1).along 1)
  have colon : (Scan.mk (':' :: more) stop).blanks = ⟨':' :: more, stop⟩ :=
    blanks_of_solid rfl (by decide)
  have behind : (Scan.mk ('"' :: line) (scan.place.along 1)).blanks =
      ⟨'"' :: line, scan.place.along 1⟩ := blanks_of_solid rfl (by decide)
  refine ⟨stop, stop.along 1, ?_⟩
  rw [readFields, blanks_of_solid text (by decide)]
  simp [text, behind, read, colon]
  rfl

/-- A closing brace ends the fields. -/
theorem readFields_end {first : Bool} (text : scan.rest = '}' :: more) :
    readFields (fuel + 1) depth first scan =
      ([], .ok (scan.place.along 1), ⟨more, scan.place.along 1⟩) := by
  obtain ⟨line, place⟩ := scan
  obtain rfl : line = '}' :: more := text
  rfl

/-! ### Whole values -/

/-- What comes of reading a value: the value, when enough brackets may be opened, and a break
otherwise. -/
def ReadsValue (value : Json) (depth : Nat) (rest : List Char) (read : Located × Scan) : Prop :=
  if value.depth ≤ depth then Shows value read.1 ∧ read.2.rest = rest else read.1.isCut = true

/-- What comes of reading items up to the end of their array. -/
def ReadsItems (items : List Json) (depth : Nat) (rest : List Char)
    (read : List Located × Except Break Place × Scan) : Prop :=
  if depthAll items ≤ depth then
    ShowsAll items read.1 ∧ (∃ close, read.2.1 = .ok close) ∧ read.2.2.rest = rest
  else ∃ reason, read.2.1 = .error reason

/-- What comes of reading fields up to the end of their object. -/
def ReadsFields (fields : List (String × Json)) (depth : Nat) (rest : List Char)
    (read : List (String × Place × Located) × Except Break Place × Scan) : Prop :=
  if depthFields fields ≤ depth then
    ShowsFields fields read.1 ∧ (∃ close, read.2.1 = .ok close) ∧ read.2.2.rest = rest
  else ∃ reason, read.2.1 = .error reason

/-- The texts of items that stand behind another one. -/
def itemsBehind (items : List Json) : List Char :=
  items.flatMap fun item => ',' :: item.chars

theorem itemChars_cons (item : Json) (rest : List Json) :
    itemChars (item :: rest) = item.chars ++ itemsBehind rest := by
  induction rest generalizing item with
  | nil => simp [itemChars, itemsBehind]
  | cons next rest ih => simp [itemChars, ih next, itemsBehind]

/-- The text of a field. -/
def keyed (key : String) (value : Json) : List Char :=
  quote key.toList ++ ':' :: value.chars

/-- The texts of fields that stand behind another one. -/
def fieldsBehind (fields : List (String × Json)) : List Char :=
  fields.flatMap fun field => ',' :: keyed field.1 field.2

theorem fieldChars_cons (key : String) (value : Json) (rest : List (String × Json)) :
    fieldChars ((key, value) :: rest) = keyed key value ++ fieldsBehind rest := by
  induction rest generalizing key value with
  | nil => simp [fieldChars, fieldsBehind, keyed]
  | cons next rest ih => simp [fieldChars, ih next.1 next.2, fieldsBehind, keyed]

/-- What follows an item ends its value. -/
theorem endsValue_itemsBehind (items : List Json) (rest : List Char) :
    EndsValue (itemsBehind items ++ ']' :: rest) := by
  cases items with
  | nil => exact endsValue_cons (by simp) rest
  | cons item items => exact endsValue_cons (by simp) _

/-- What follows a field ends its value. -/
theorem endsValue_fieldsBehind (fields : List (String × Json)) (rest : List Char) :
    EndsValue (fieldsBehind fields ++ '}' :: rest) := by
  cases fields with
  | nil => exact endsValue_cons (by simp) rest
  | cons field fields => exact endsValue_cons (by simp) _

/-- A digit is no blank, comma or bracket. -/
theorem solid_of_isDigit {c : Char} (digit : c.isDigit = true) :
    c ∉ [' ', '\t', '\n', '\r', ',', ']', '}'] := by
  intro member
  simp only [List.mem_cons, List.not_mem_nil, or_false] at member
  rcases member with rfl | rfl | rfl | rfl | rfl | rfl | rfl <;> exact absurd digit (by decide)

/-- The text of a value starts with something that is no white space, comma or closing bracket. -/
theorem exists_solid {value : Json} (readable : IsReadable value) :
    ∃ c more, value.chars = c :: more ∧ c ∉ [' ', '\t', '\n', '\r', ',', ']', '}'] := by
  cases value with
  | null => exact ⟨'n', _, rfl, by decide⟩
  | bool b => cases b <;> exact ⟨_, _, rfl, by decide⟩
  | number n =>
      cases n with
      | float x => exact absurd readable id
      | int n =>
          cases n with
          | ofNat n =>
              have written : (Json.number (.int (.ofNat n))).chars = Nat.toDigits 10 n := by
                rw [← Nat.toList_repr]
                rfl
              obtain ⟨first, others, digits, digit⟩ := exists_toDigits n
              exact ⟨first, others, written.trans digits, solid_of_isDigit digit⟩
          | negSucc n => exact ⟨'-', _, toList_negSucc n, by decide⟩
  | string letters => exact ⟨'"', _, rfl, by decide⟩
  | array items => exact ⟨'[', _, rfl, by decide⟩
  | object fields => exact ⟨'{', _, rfl, by decide⟩

/-- A first item and those behind it. -/
theorem readItemsFrom_reads {item : Json} {items : List Json}
    (first : ReadsValue item depth (itemsBehind items ++ ']' :: rest) (readValue fuel depth scan))
    (others : ∀ {scan : Scan}, scan.rest = itemsBehind items ++ ']' :: rest →
      ReadsItems items depth rest (readItems fuel depth false scan)) :
    ReadsItems (item :: items) depth rest (readItemsFrom fuel depth scan) := by
  by_cases shallow : item.depth ≤ depth
  · rw [ReadsValue, if_pos shallow] at first
    have behind := others first.2
    rw [readItemsFrom, first.1.isCut]
    by_cases all : depthAll items ≤ depth
    · rw [ReadsItems, if_pos all] at behind
      have fits : depthAll (item :: items) ≤ depth := Nat.max_le.2 ⟨shallow, all⟩
      rw [ReadsItems, if_pos fits]
      exact ⟨⟨_, _, rfl, first.1, behind.1⟩, behind.2⟩
    · rw [ReadsItems, if_neg all] at behind
      have deep : ¬depthAll (item :: items) ≤ depth := fun both => all (Nat.max_le.1 both).2
      rw [ReadsItems, if_neg deep]
      exact behind
  · rw [ReadsValue, if_neg shallow] at first
    have deep : ¬depthAll (item :: items) ≤ depth := fun both => shallow (Nat.max_le.1 both).1
    rw [readItemsFrom, first, ReadsItems, if_neg deep]
    exact ⟨_, rfl⟩

/-- A first field and those behind it. -/
theorem readFieldsFrom_reads {key : String} {place : Place} {value : Json}
    {fields : List (String × Json)}
    (first : ReadsValue value depth (fieldsBehind fields ++ '}' :: rest)
      (readValue fuel depth scan))
    (others : ∀ {scan : Scan}, scan.rest = fieldsBehind fields ++ '}' :: rest →
      ReadsFields fields depth rest (readFields fuel depth false scan)) :
    ReadsFields ((key, value) :: fields) depth rest (readFieldsFrom fuel depth key place scan) := by
  by_cases shallow : value.depth ≤ depth
  · rw [ReadsValue, if_pos shallow] at first
    have behind := others first.2
    rw [readFieldsFrom, first.1.isCut]
    by_cases all : depthFields fields ≤ depth
    · rw [ReadsFields, if_pos all] at behind
      have fits : depthFields ((key, value) :: fields) ≤ depth := Nat.max_le.2 ⟨shallow, all⟩
      rw [ReadsFields, if_pos fits]
      exact ⟨⟨_, _, _, rfl, first.1, behind.1⟩, behind.2⟩
    · rw [ReadsFields, if_neg all] at behind
      have deep : ¬depthFields ((key, value) :: fields) ≤ depth :=
        fun both => all (Nat.max_le.1 both).2
      rw [ReadsFields, if_neg deep]
      exact behind
  · rw [ReadsValue, if_neg shallow] at first
    have deep : ¬depthFields ((key, value) :: fields) ≤ depth :=
      fun both => shallow (Nat.max_le.1 both).1
    rw [readFieldsFrom, first, ReadsFields, if_neg deep]
    exact ⟨_, rfl⟩

/-- A value without brackets is read at any depth. -/
theorem readsValue_of_scalar {value : Json} {read : Located × Scan} (flat : value.depth = 0)
    (shows : ∀ stop, Shows value (.scalar value stop)) (reads : ReadsScalar value rest read) :
    ReadsValue value depth rest read := by
  obtain ⟨⟨stop, shown⟩, left⟩ := reads
  rw [ReadsValue, if_pos (by omega), shown]
  exact ⟨shows stop, left⟩

theorem readsValue_zero {value : Json} {read : Located × Scan} (nested : 0 < value.depth)
    (cut : read.1.isCut = true) : ReadsValue value 0 rest read := by
  rw [ReadsValue, if_neg (Nat.not_le.2 nested)]
  exact cut

/-- An array is read when its items are. -/
theorem readsValue_array {items : List Json} {start : Place}
    {read : List Located × Except Break Place × Scan} (reads : ReadsItems items depth rest read) :
    ReadsValue (.array items) (depth + 1) rest (.array start read.1 read.2.1, read.2.2) := by
  by_cases shallow : depthAll items ≤ depth
  · rw [ReadsItems, if_pos shallow] at reads
    obtain ⟨shows, ⟨close, closed⟩, left⟩ := reads
    have fits : (Json.array items).depth ≤ depth + 1 := Nat.succ_le_succ shallow
    rw [ReadsValue, if_pos fits, closed]
    exact ⟨⟨start, _, close, rfl, shows⟩, left⟩
  · rw [ReadsItems, if_neg shallow] at reads
    obtain ⟨reason, broken⟩ := reads
    have deep : ¬(Json.array items).depth ≤ depth + 1 := fun fits =>
      shallow (Nat.le_of_succ_le_succ fits)
    rw [ReadsValue, if_neg deep, broken]
    rfl

/-- An object is read when its fields are. -/
theorem readsValue_object {fields : List (String × Json)} {start : Place}
    {read : List (String × Place × Located) × Except Break Place × Scan}
    (reads : ReadsFields fields depth rest read) :
    ReadsValue (.object fields) (depth + 1) rest (.object start read.1 read.2.1, read.2.2) := by
  by_cases shallow : depthFields fields ≤ depth
  · rw [ReadsFields, if_pos shallow] at reads
    obtain ⟨shows, ⟨close, closed⟩, left⟩ := reads
    have fits : (Json.object fields).depth ≤ depth + 1 := Nat.succ_le_succ shallow
    rw [ReadsValue, if_pos fits, closed]
    exact ⟨⟨start, _, close, rfl, shows⟩, left⟩
  · rw [ReadsFields, if_neg shallow] at reads
    obtain ⟨reason, broken⟩ := reads
    have deep : ¬(Json.object fields).depth ≤ depth + 1 := fun fits =>
      shallow (Nat.le_of_succ_le_succ fits)
    rw [ReadsValue, if_neg deep, broken]
    rfl

mutual

/-- The text of a value is read as the value, or breaks off where too many brackets are open. -/
theorem readValue_chars : ∀ {value : Json}, IsReadable value →
    ∀ {fuel depth : Nat} {scan : Scan} {rest : List Char}, value.chars.length ≤ fuel →
      EndsValue rest → scan.rest = value.chars ++ rest →
      ReadsValue value depth rest (readValue fuel depth scan)
  | value, readable, 0, _, _, _, enough, _, _ => by
      obtain ⟨c, more, written, -⟩ := exists_solid readable
      simp [written] at enough
  | .null, _, fuel + 1, _, _, _, _, _, text =>
      readsValue_of_scalar rfl (fun stop => ⟨stop, rfl⟩) (readValue_word (.inl rfl) text)
  | .bool b, _, fuel + 1, _, _, _, _, _, text =>
      readsValue_of_scalar rfl (fun stop => ⟨stop, rfl⟩) (readValue_word (.inr ⟨b, rfl⟩) text)
  | .number (.int n), fits, fuel + 1, _, _, _, _, ends, text =>
      readsValue_of_scalar rfl (fun stop => ⟨stop, rfl⟩) (readValue_number fits ends text)
  | .string letters, _, fuel + 1, _, _, _, _, _, text =>
      readsValue_of_scalar rfl (fun stop => ⟨stop, rfl⟩) (readValue_string text)
  | .array items, _, fuel + 1, 0, _, _, _, _, text =>
      readsValue_zero (Nat.succ_pos _) (readValue_bracket (.inl rfl) text)
  | .object fields, _, fuel + 1, 0, _, _, _, _, text =>
      readsValue_zero (Nat.succ_pos _) (readValue_bracket (.inr rfl) text)
  | .array items, readable, fuel + 1, depth + 1, scan, rest, enough, _, text => by
      have opened : scan.rest = '[' :: (itemChars items ++ ']' :: rest) := by
        simp [text, chars]
      have size : (itemChars items).length + 2 ≤ fuel + 1 := by
        simpa [chars] using enough
      rw [readValue_array opened]
      exact readsValue_array (readItems_chars readable (by omega) rfl)
  | .object fields, readable, fuel + 1, depth + 1, scan, rest, enough, _, text => by
      have opened : scan.rest = '{' :: (fieldChars fields ++ '}' :: rest) := by
        simp [text, chars]
      have size : (fieldChars fields).length + 2 ≤ fuel + 1 := by
        simpa [chars] using enough
      rw [readValue_object opened]
      exact readsValue_object (readFields_chars readable (by omega) rfl)

/-- The texts of items behind an opening bracket are read as the items. -/
theorem readItems_chars : ∀ {items : List Json}, AreReadable items →
    ∀ {fuel depth : Nat} {scan : Scan} {rest : List Char}, (itemChars items).length < fuel →
      scan.rest = itemChars items ++ ']' :: rest →
      ReadsItems items depth rest (readItems fuel depth true scan)
  | _, _, 0, _, _, _, enough, _ => absurd enough (Nat.not_lt_zero _)
  | [], _, fuel + 1, _, _, _, _, text => by
      rw [readItems_end text]
      exact ⟨rfl, ⟨_, rfl⟩, rfl⟩
  | item :: items, ⟨first, others⟩, fuel + 1, _, scan, rest, enough, text => by
      obtain ⟨c, more, written, solid⟩ := exists_solid first
      have longer : item.chars.length = more.length + 1 := by simp [written]
      have next : scan.rest = c :: (more ++ (itemsBehind items ++ ']' :: rest)) := by
        simp [text, itemChars_cons, written]
      rw [itemChars_cons, List.length_append] at enough
      rw [readItems_first solid next]
      refine readItemsFrom_reads ?_ fun text => readItems_behind others (by omega) text
      exact readValue_chars first (by omega) (endsValue_itemsBehind items rest) (by simp [next, written])

/-- The texts of fields behind an opening bracket are read as the fields. -/
theorem readFields_chars : ∀ {fields : List (String × Json)}, AreReadableFields fields →
    ∀ {fuel depth : Nat} {scan : Scan} {rest : List Char}, (fieldChars fields).length < fuel →
      scan.rest = fieldChars fields ++ '}' :: rest →
      ReadsFields fields depth rest (readFields fuel depth true scan)
  | _, _, 0, _, _, _, enough, _ => absurd enough (Nat.not_lt_zero _)
  | [], _, fuel + 1, _, _, _, _, text => by
      rw [readFields_end text]
      exact ⟨rfl, ⟨_, rfl⟩, rfl⟩
  | (key, value) :: fields, ⟨first, others⟩, fuel + 1, depth, scan, rest, enough, text => by
      have longer : (keyed key value).length =
          (quote key.toList).length + value.chars.length + 1 := by
        simp [keyed]
        omega
      have next : scan.rest = quote key.toList ++ ':' ::
          (value.chars ++ (fieldsBehind fields ++ '}' :: rest)) := by
        simp [text, fieldChars_cons, keyed]
      rw [fieldChars_cons, List.length_append] at enough
      obtain ⟨place, start, read⟩ := readFields_first fuel depth next
      rw [read]
      refine readFieldsFrom_reads ?_ fun text => readFields_behind others (by omega) text
      exact readValue_chars first (by omega) (endsValue_fieldsBehind fields rest) rfl

/-- The texts of items behind another one are read as the items. -/
theorem readItems_behind : ∀ {items : List Json}, AreReadable items →
    ∀ {fuel depth : Nat} {scan : Scan} {rest : List Char}, (itemsBehind items).length < fuel →
      scan.rest = itemsBehind items ++ ']' :: rest →
      ReadsItems items depth rest (readItems fuel depth false scan)
  | _, _, 0, _, _, _, enough, _ => absurd enough (Nat.not_lt_zero _)
  | [], _, fuel + 1, depth, scan, rest, _, text => by
      rw [readItems_end text]
      exact ⟨rfl, ⟨_, rfl⟩, rfl⟩
  | item :: items, ⟨first, others⟩, fuel + 1, depth, scan, rest, enough, text => by
      obtain ⟨c, more, written, solid⟩ := exists_solid first
      have size : (itemsBehind (item :: items)).length =
          1 + item.chars.length + (itemsBehind items).length := by
        simp [itemsBehind]
        omega
      have next : scan.rest = ',' :: c :: (more ++ (itemsBehind items ++ ']' :: rest)) := by
        simp [text, itemsBehind, written]
      rw [readItems_next solid next]
      refine readItemsFrom_reads ?_ fun text => readItems_behind others (by omega) text
      exact readValue_chars first (by omega) (endsValue_itemsBehind items rest) (by simp [written])

/-- The texts of fields behind another one are read as the fields. -/
theorem readFields_behind : ∀ {fields : List (String × Json)}, AreReadableFields fields →
    ∀ {fuel depth : Nat} {scan : Scan} {rest : List Char}, (fieldsBehind fields).length < fuel →
      scan.rest = fieldsBehind fields ++ '}' :: rest →
      ReadsFields fields depth rest (readFields fuel depth false scan)
  | _, _, 0, _, _, _, enough, _ => absurd enough (Nat.not_lt_zero _)
  | [], _, fuel + 1, depth, scan, rest, _, text => by
      rw [readFields_end text]
      exact ⟨rfl, ⟨_, rfl⟩, rfl⟩
  | (key, value) :: fields, ⟨first, others⟩, fuel + 1, depth, scan, rest, enough, text => by
      have size : (fieldsBehind ((key, value) :: fields)).length =
          2 + (quote key.toList).length + value.chars.length + (fieldsBehind fields).length := by
        simp [fieldsBehind, keyed]
        omega
      have next : scan.rest = ',' :: (quote key.toList ++ ':' ::
          (value.chars ++ (fieldsBehind fields ++ '}' :: rest))) := by
        simp [text, fieldsBehind, keyed]
      obtain ⟨place, start, read⟩ := readFields_next fuel depth next
      rw [read]
      refine readFieldsFrom_reads ?_ fun text => readFields_behind others (by omega) text
      exact readValue_chars first (by omega) (endsValue_fieldsBehind fields rest) rfl

end

/-- A text that holds a value and nothing else is read as the value, or breaks off where too many
brackets are open. -/
theorem locate_chars {value : Json} (readable : IsReadable value) (depth : Nat) :
    if value.depth ≤ depth then
      Shows value (locate depth value.chars).1 ∧ (locate depth value.chars).2 = none
    else (locate depth value.chars).1.isCut = true := by
  have enough : value.chars.length ≤ 2 * value.chars.length + 2 := by omega
  have ends : EndsValue [] := by simp [EndsValue]
  have reads : ReadsValue value depth []
      (readValue (2 * value.chars.length + 2) depth ⟨value.chars, .start⟩) :=
    readValue_chars readable enough ends (List.append_nil value.chars).symm
  rcases read : readValue (2 * value.chars.length + 2) depth ⟨value.chars, .start⟩
    with ⟨located, ⟨left, place⟩⟩
  rw [read] at reads
  have first : (locate depth value.chars).1 = located := by
    rw [locate, read]
    dsimp only
    split <;> rfl
  rw [first]
  by_cases shallow : value.depth ≤ depth
  · rw [ReadsValue, if_pos shallow] at reads
    obtain ⟨shows, rfl⟩ := reads
    rw [if_pos shallow, locate, read]
    exact ⟨shows, rfl⟩
  · rw [ReadsValue, if_neg shallow] at reads
    rw [if_neg shallow]
    exact reads

/-- A value whose numbers fit, without repeated keys, is read back from its text when the text opens no
more brackets at once than are read. -/
theorem parse_write {value : Json} (readable : IsReadable value)
    (distinct : HasDistinctKeys value) (shallow : value.depth ≤ usualDepth) :
    parse value.write = .ok value := by
  have located := locate_chars readable usualDepth
  rw [if_pos shallow] at located
  obtain ⟨shows, rest⟩ := located
  have erased := shows.erase distinct
  rw [parse, parseWithin, write, String.toList_ofList]
  rcases read : locate usualDepth value.chars with ⟨whole, trailing⟩
  rw [read] at erased rest
  simp only at erased rest
  simp only [erased, rest]
  rfl

/-! ### Depth of what is read -/

/-- A scalar has no depth. -/
theorem depth_ofScalar_le {α : Type} {value : α → Json × Scan} {result : Except Break α}
    {depth : Nat} (flat : ∀ read, (value read).1.depth = 0) :
    (ofScalar (result.map value)).1.depth ≤ depth := by
  cases result with
  | error reason => exact Nat.zero_le depth
  | ok read => exact Nat.le_trans (Nat.le_of_eq (flat read)) (Nat.zero_le depth)

/-- Whether nothing that is read, where `depth` more brackets may be opened, opens more at once. -/
structure KeepsDepth (fuel depth : Nat) : Prop where
  value : ∀ scan, (readValue fuel depth scan).1.depth ≤ depth
  items : ∀ first scan, itemsDepth (readItems fuel depth first scan).1 ≤ depth
  fields : ∀ first scan, fieldsDepth (readFields fuel depth first scan).1 ≤ depth

/-- Each bracket that is opened takes one of those that may be. -/
theorem depth_readValue_le {fuel : Nat} (keeps : ∀ depth, KeepsDepth fuel depth) (depth : Nat)
    (scan : Scan) : (readValue (fuel + 1) depth scan).1.depth ≤ depth := by
  unfold readValue
  dsimp only
  split
  · exact Nat.zero_le depth
  · split
    case h_6 =>
      cases depth with
      | zero => exact Nat.zero_le 0
      | succ depth => exact Nat.succ_le_succ ((keeps depth).items true _)
    case h_7 =>
      cases depth with
      | zero => exact Nat.zero_le 0
      | succ depth => exact Nat.succ_le_succ ((keeps depth).fields true _)
    case h_8 =>
      split
      · exact depth_ofScalar_le fun _ => rfl
      · exact Nat.zero_le depth
    all_goals exact depth_ofScalar_le fun _ => rfl

/-- No item that is read is deeper than may be. -/
theorem itemsDepth_readItems_le {fuel depth : Nat} (keeps : KeepsDepth fuel depth) (first : Bool)
    (scan : Scan) : itemsDepth (readItems (fuel + 1) depth first scan).1 ≤ depth := by
  have item : ∀ scan, itemsDepth (readItemsFrom fuel depth scan).1 ≤ depth := by
    intro scan
    rw [readItemsFrom]
    split
    · exact Nat.max_le.2 ⟨keeps.value scan, Nat.zero_le _⟩
    · exact Nat.max_le.2 ⟨keeps.value scan, keeps.items false _⟩
  unfold readItems
  dsimp only
  split
  · exact Nat.zero_le depth
  · exact Nat.zero_le depth
  · split
    · exact item _
    · split
      · split
        · exact Nat.zero_le depth
        · exact Nat.zero_le depth
        · exact item _
      · exact Nat.zero_le depth

/-- What is read from behind the opening quote of a key on. -/
def readFieldsNamed (fuel depth : Nat) (scan : Scan) :
    List (String × Place × Located) × Except Break Place × Scan :=
  match readText (scan.rest.length + 1) scan with
  | .error reason => ([], .error reason, scan)
  | .ok (key, stop) =>
    let key := String.ofList key
    let stop := stop.blanks
    match stop.rest with
    | [] => ([(key, stop.place, .broken ⟨.endInObject, stop.place⟩)],
        .error ⟨.endInObject, stop.place⟩, stop)
    | ':' :: rest => readFieldsFrom fuel depth key stop.place ⟨rest, stop.place.along 1⟩
    | _ => ([(key, stop.place, .broken (stop.fault .expectedColon))],
        .error (stop.fault .expectedColon), stop)

/-- No field that is read behind its name is deeper than may be. -/
theorem fieldsDepth_readFieldsNamed_le {fuel depth : Nat} (keeps : KeepsDepth fuel depth)
    (scan : Scan) : fieldsDepth (readFieldsNamed fuel depth scan).1 ≤ depth := by
  have field : ∀ key place scan,
      fieldsDepth (readFieldsFrom fuel depth key place scan).1 ≤ depth := by
    intro key place scan
    rw [readFieldsFrom]
    split
    · exact Nat.max_le.2 ⟨keeps.value scan, Nat.zero_le _⟩
    · exact Nat.max_le.2 ⟨keeps.value scan, keeps.fields false _⟩
  rw [readFieldsNamed]
  dsimp only
  split
  · exact Nat.zero_le depth
  · split
    · exact Nat.zero_le depth
    · exact field _ _ _
    · exact Nat.zero_le depth

/-- No field that is read is deeper than may be. -/
theorem fieldsDepth_readFields_le {fuel depth : Nat} (keeps : KeepsDepth fuel depth)
    (first : Bool) (scan : Scan) :
    fieldsDepth (readFields (fuel + 1) depth first scan).1 ≤ depth := by
  unfold readFields
  dsimp only
  split
  · exact Nat.zero_le depth
  · exact Nat.zero_le depth
  · split
    · split
      · exact fieldsDepth_readFieldsNamed_le keeps ⟨_, _⟩
      · exact Nat.zero_le depth
    · split
      · split
        · exact Nat.zero_le depth
        · exact fieldsDepth_readFieldsNamed_le keeps ⟨_, _⟩
        · exact Nat.zero_le depth
        · exact Nat.zero_le depth
      · exact Nat.zero_le depth

/-- No value that is read is deeper than the brackets that may be opened. -/
theorem keepsDepth (fuel : Nat) : ∀ depth, KeepsDepth fuel depth := by
  induction fuel with
  | zero =>
      intro depth
      exact ⟨fun _ => Nat.zero_le _, fun _ _ => Nat.zero_le _, fun _ _ => Nat.zero_le _⟩
  | succ fuel ih =>
      intro depth
      exact ⟨depth_readValue_le ih depth, itemsDepth_readItems_le (ih depth),
        fieldsDepth_readFields_le (ih depth)⟩

/-- Of a whole text nothing is read that opens more brackets at once than may be opened. -/
theorem depth_locate_le (depth : Nat) (text : List Char) : (locate depth text).1.depth ≤ depth := by
  have within := (keepsDepth (2 * text.length + 2) depth).value ⟨text, .start⟩
  rw [locate]
  dsimp only
  split
  · exact within
  · exact within

end DocPress.Json
