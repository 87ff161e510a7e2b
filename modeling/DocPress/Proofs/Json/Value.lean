import DocPress.Json.Located
import DocPress.Proofs.Result

/-!
Values and the places at which they were read. How deep a value nests, and when a value with places
is a given value; such a value gives the value back when no key occurs twice in one object.
-/

namespace DocPress.Json

mutual

/-- How many brackets are open at once in the text of a value. -/
def depth : Json → Nat
  | .array items => depthAll items + 1
  | .object fields => depthFields fields + 1
  | _ => 0

/-- How many brackets are open at once in the texts of values. -/
def depthAll : List Json → Nat
  | [] => 0
  | item :: rest => max item.depth (depthAll rest)

/-- How many brackets are open at once in the texts of the values of fields. -/
def depthFields : List (String × Json) → Nat
  | [] => 0
  | (_, value) :: rest => max value.depth (depthFields rest)

end

theorem depthAll_le {bound : Nat} {items : List Json} (each : ∀ item ∈ items, item.depth ≤ bound) :
    depthAll items ≤ bound := by
  induction items with
  | nil => exact Nat.zero_le bound
  | cons item items ih =>
      rw [List.forall_mem_cons] at each
      exact Nat.max_le.2 ⟨each.1, ih each.2⟩

/-- Fields are no deeper than the deepest one. -/
theorem depthFields_le {bound : Nat} {fields : List (String × Json)}
    (each : ∀ field ∈ fields, field.2.depth ≤ bound) : depthFields fields ≤ bound := by
  induction fields with
  | nil => exact Nat.zero_le bound
  | cons field fields ih =>
      rw [List.forall_mem_cons] at each
      exact Nat.max_le.2 ⟨each.1, ih each.2⟩

theorem depthFields_append (fields others : List (String × Json)) :
    depthFields (fields ++ others) = max (depthFields fields) (depthFields others) := by
  induction fields with
  | nil => exact (Nat.zero_max _).symm
  | cons field fields ih =>
      rw [List.cons_append, depthFields, depthFields, ih, Nat.max_assoc]

/-- A field is no deeper than the fields it is among. -/
theorem depth_le_depthFields {field : String × Json} {fields : List (String × Json)}
    (member : field ∈ fields) : field.2.depth ≤ depthFields fields := by
  induction fields with
  | nil => cases member
  | cons first fields ih =>
      rw [depthFields]
      cases member with
      | head => exact Nat.le_max_left _ _
      | tail _ later => exact Nat.le_trans (ih later) (Nat.le_max_right _ _)

mutual

/-- Whether all numbers in a value are whole and fit in 64 bits. -/
def IsReadable : Json → Prop
  | .number (.int n) => -(1 <<< 63 : Nat) ≤ n ∧ n < UInt64.size
  | .number (.float _) => False
  | .array items => AreReadable items
  | .object fields => AreReadableFields fields
  | _ => True

/-- Whether all numbers in values are whole and fit in 64 bits. -/
def AreReadable : List Json → Prop
  | [] => True
  | item :: rest => IsReadable item ∧ AreReadable rest

/-- Whether all numbers in the values of fields are whole and fit in 64 bits. -/
def AreReadableFields : List (String × Json) → Prop
  | [] => True
  | (_, value) :: rest => IsReadable value ∧ AreReadableFields rest

end

/-- Items can be read when each one can. -/
theorem areReadable_iff {items : List Json} :
    AreReadable items ↔ ∀ item ∈ items, IsReadable item := by
  induction items with
  | nil => simp [AreReadable]
  | cons item rest ih => simp [AreReadable, ih]

/-- Fields can be read when each one can. -/
theorem areReadableFields_iff {fields : List (String × Json)} :
    AreReadableFields fields ↔ ∀ field ∈ fields, IsReadable field.2 := by
  induction fields with
  | nil => simp [AreReadableFields]
  | cons field rest ih => rw [AreReadableFields, ih, List.forall_mem_cons]

/-- A natural number of 64 bits fits. -/
theorem isReadable_ofNat {n : Nat} (small : n < UInt64.size) : IsReadable (.ofNat n) := by
  have below : (n : Int) < UInt64.size := Int.ofNat_lt.2 small
  exact ⟨by omega, below⟩

mutual

/-- Whether a value with places is the given value, closed to its end. -/
def Shows : Json → Located → Prop
  | .array items, located =>
    ∃ start parts close, located = .array start parts (.ok close) ∧ ShowsAll items parts
  | .object fields, located =>
    ∃ start parts close, located = .object start parts (.ok close) ∧ ShowsFields fields parts
  | value, located => ∃ stop, located = .scalar value stop

/-- Whether values with places are the given values. -/
def ShowsAll : List Json → List Located → Prop
  | [], parts => parts = []
  | item :: rest, parts =>
    ∃ first others, parts = first :: others ∧ Shows item first ∧ ShowsAll rest others

/-- Whether fields with places are the given fields. -/
def ShowsFields : List (String × Json) → List (String × Place × Located) → Prop
  | [], parts => parts = []
  | (key, value) :: rest, parts =>
    ∃ place first others, parts = (key, place, first) :: others ∧ Shows value first ∧
      ShowsFields rest others

end

/-- A value that was read to its end did not break off. -/
theorem Shows.isCut {value : Json} {located : Located} (shows : Shows value located) :
    located.isCut = false := by
  cases value with
  | array items =>
      obtain ⟨start, parts, close, rfl, -⟩ := shows
      rfl
  | object fields =>
      obtain ⟨start, parts, close, rfl, -⟩ := shows
      rfl
  | _ =>
      obtain ⟨stop, rfl⟩ := shows
      rfl

/-! ### Taking the places away -/

mutual

/-- Whether no key occurs twice in an object inside a value. -/
def HasDistinctKeys : Json → Prop
  | .array items => HaveDistinctKeys items
  | .object fields => (fields.map (·.1)).Nodup ∧ FieldsHaveDistinctKeys fields
  | _ => True

/-- Whether no key occurs twice in an object inside values. -/
def HaveDistinctKeys : List Json → Prop
  | [] => True
  | item :: rest => HasDistinctKeys item ∧ HaveDistinctKeys rest

/-- Whether no key occurs twice in an object inside the values of fields. -/
def FieldsHaveDistinctKeys : List (String × Json) → Prop
  | [] => True
  | (_, value) :: rest => HasDistinctKeys value ∧ FieldsHaveDistinctKeys rest

end

/-- Items have distinct keys when each one has. -/
theorem haveDistinctKeys_iff {items : List Json} :
    HaveDistinctKeys items ↔ ∀ item ∈ items, HasDistinctKeys item := by
  induction items with
  | nil => simp [HaveDistinctKeys]
  | cons item rest ih => simp [HaveDistinctKeys, ih]

/-- The values of fields have distinct keys when each one has. -/
theorem fieldsHaveDistinctKeys_iff {fields : List (String × Json)} :
    FieldsHaveDistinctKeys fields ↔ ∀ field ∈ fields, HasDistinctKeys field.2 := by
  induction fields with
  | nil => simp [FieldsHaveDistinctKeys]
  | cons field rest ih => rw [FieldsHaveDistinctKeys, ih, List.forall_mem_cons]

/-- A new key is put at the end. -/
theorem setField_of_not_mem {key : String} {value : Json} {fields : List (String × Json)}
    (absent : key ∉ fields.map (·.1)) : setField key value fields = fields ++ [(key, value)] := by
  induction fields with
  | nil => rfl
  | cons field fields ih =>
      rw [List.map_cons, List.mem_cons, not_or] at absent
      rw [setField, if_neg (Ne.symm absent.1), ih absent.2, List.cons_append]

/-- Fields whose keys differ are put together as they stand. -/
theorem foldl_setField {fields done : List (String × Json)}
    (distinct : ((done ++ fields).map (·.1)).Nodup) :
    fields.foldl (fun done field => setField field.1 field.2 done) done = done ++ fields := by
  induction fields generalizing done with
  | nil => simp
  | cons field fields ih =>
      have absent : field.1 ∉ done.map (·.1) := by
        intro member
        rw [List.map_append, List.nodup_append] at distinct
        exact distinct.2.2 field.1 member field.1 (by simp) rfl
      rw [List.foldl_cons, setField_of_not_mem absent, ih (by simpa using distinct)]
      simp

mutual

/-- Without its places a value that was read is the value. -/
theorem Shows.erase : ∀ {value : Json} {located : Located}, Shows value located →
    HasDistinctKeys value → located.erase = .ok value
  | .null, _, ⟨_, same⟩, _ | .bool _, _, ⟨_, same⟩, _ | .number _, _, ⟨_, same⟩, _
  | .string _, _, ⟨_, same⟩, _ => by
      rw [same]
      rfl
  | .array items, _, ⟨start, parts, close, same, inner⟩, distinct => by
      rw [same, Located.erase, ShowsAll.erase inner distinct]
      rfl
  | .object fields, _, ⟨start, parts, close, same, inner⟩, distinct => by
      rw [same, Located.erase, ShowsFields.erase inner distinct.2]
      have whole : fields.foldl (fun done field => setField field.1 field.2 done) [] = fields :=
        foldl_setField distinct.1
      exact congrArg (fun fields => Except.ok (Json.object fields)) whole

/-- Parts that show items with distinct keys are these items when the places are left out. -/
theorem ShowsAll.erase : ∀ {items : List Json} {parts : List Located}, ShowsAll items parts →
    HaveDistinctKeys items → eraseItems parts = .ok items
  | [], _, same, _ => by
      rw [show _ = [] from same]
      rfl
  | item :: items, _, ⟨first, others, same, here, behind⟩, distinct => by
      rw [same, eraseItems, Shows.erase here distinct.1, ShowsAll.erase behind distinct.2]
      rfl

/-- Parts that show fields with distinct keys are these fields when the places are left out. -/
theorem ShowsFields.erase : ∀ {fields : List (String × Json)}
    {parts : List (String × Place × Located)}, ShowsFields fields parts →
    FieldsHaveDistinctKeys fields → eraseFields parts = .ok fields
  | [], _, same, _ => by
      rw [show _ = [] from same]
      rfl
  | (key, value) :: fields, _, ⟨place, first, others, same, here, behind⟩, distinct => by
      rw [same, eraseFields, Shows.erase here distinct.1, ShowsFields.erase behind distinct.2]
      rfl

end

mutual

/-- Without its places a value that was read is the value, also when a key occurs twice in it and
all its values stay. -/
theorem Shows.unplaced : ∀ {value : Json} {located : Located}, Shows value located →
    located.unplaced = .ok value
  | .null, _, ⟨_, same⟩ | .bool _, _, ⟨_, same⟩ | .number _, _, ⟨_, same⟩
  | .string _, _, ⟨_, same⟩ => by
      rw [same]
      rfl
  | .array items, _, ⟨start, parts, close, same, inner⟩ => by
      rw [same, Located.unplaced, ShowsAll.unplaced inner]
      rfl
  | .object fields, _, ⟨start, parts, close, same, inner⟩ => by
      rw [same, Located.unplaced, ShowsFields.unplaced inner]
      rfl

/-- Parts that show items are these items when the places are left out, keys that stand twice included. -/
theorem ShowsAll.unplaced : ∀ {items : List Json} {parts : List Located}, ShowsAll items parts →
    unplacedItems parts = .ok items
  | [], _, same => by
      rw [show _ = [] from same]
      rfl
  | item :: items, _, ⟨first, others, same, here, behind⟩ => by
      rw [same, unplacedItems, Shows.unplaced here, ShowsAll.unplaced behind]
      rfl

/-- Parts that show fields are these fields when the places are left out, keys that stand twice included.
-/
theorem ShowsFields.unplaced : ∀ {fields : List (String × Json)}
    {parts : List (String × Place × Located)}, ShowsFields fields parts →
    unplacedFields parts = .ok fields
  | [], _, same => by
      rw [show _ = [] from same]
      rfl
  | (key, value) :: fields, _, ⟨place, first, others, same, here, behind⟩ => by
      rw [same, unplacedFields, Shows.unplaced here, ShowsFields.unplaced behind]
      rfl

end

/-! ### Depth of values with places -/

mutual

/-- How many brackets a value with places opens at once. -/
def Located.depth : Located → Nat
  | .scalar value _ => value.depth
  | .array _ items _ => itemsDepth items + 1
  | .object _ fields _ => fieldsDepth fields + 1
  | .broken _ => 0

/-- How many brackets items with places open at once. -/
def itemsDepth : List Located → Nat
  | [] => 0
  | item :: rest => max item.depth (itemsDepth rest)

/-- How many brackets the values of fields with places open at once. -/
def fieldsDepth : List (String × Place × Located) → Nat
  | [] => 0
  | (_, _, value) :: rest => max value.depth (fieldsDepth rest)

end

mutual

/-- A value nests as deep as it does with its places. -/
theorem depth_of_unplaced : ∀ {located : Located} {value : Json},
    located.unplaced = .ok value → value.depth = located.depth
  | .scalar _ _, _, same => by
      obtain rfl := Except.ok.inj same
      rfl
  | .array _ parts _, _, same => by
      rw [Located.unplaced] at same
      obtain ⟨items, inner, same⟩ := bind_eq_ok_iff.1 same
      obtain ⟨_, -, same⟩ := bind_eq_ok_iff.1 same
      obtain rfl := Except.ok.inj same
      rw [depth, Located.depth, depthAll_of_unplaced inner]
  | .object _ parts _, _, same => by
      rw [Located.unplaced] at same
      obtain ⟨fields, inner, same⟩ := bind_eq_ok_iff.1 same
      obtain ⟨_, -, same⟩ := bind_eq_ok_iff.1 same
      obtain rfl := Except.ok.inj same
      rw [depth, Located.depth, depthFields_of_unplaced inner]
  | .broken _, _, same => by cases same

theorem depthAll_of_unplaced : ∀ {parts : List Located} {items : List Json},
    unplacedItems parts = .ok items → depthAll items = itemsDepth parts
  | [], _, same => by
      obtain rfl := Except.ok.inj same
      rfl
  | part :: parts, _, same => by
      rw [unplacedItems] at same
      obtain ⟨first, here, same⟩ := bind_eq_ok_iff.1 same
      obtain ⟨others, behind, same⟩ := bind_eq_ok_iff.1 same
      obtain rfl := Except.ok.inj same
      rw [depthAll, itemsDepth, depth_of_unplaced here, depthAll_of_unplaced behind]

/-- Fields are as deep as they are with their places. -/
theorem depthFields_of_unplaced : ∀ {parts : List (String × Place × Located)}
    {fields : List (String × Json)}, unplacedFields parts = .ok fields →
    depthFields fields = fieldsDepth parts
  | [], _, same => by
      obtain rfl := Except.ok.inj same
      rfl
  | (_, _, part) :: parts, _, same => by
      rw [unplacedFields] at same
      obtain ⟨first, here, same⟩ := bind_eq_ok_iff.1 same
      obtain ⟨others, behind, same⟩ := bind_eq_ok_iff.1 same
      obtain rfl := Except.ok.inj same
      rw [depthFields, fieldsDepth, depth_of_unplaced here, depthFields_of_unplaced behind]

end

end DocPress.Json
