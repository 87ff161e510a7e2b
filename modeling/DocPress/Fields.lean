/-!
Fields: values under names, in the order in which the names were first set. No name occurs twice.
-/

namespace DocPress

/-- Values under distinct names, in order. -/
structure Fields (α : Type) where
  entries : List (String × α)
  distinct : (entries.map (·.1)).Nodup := by simp

namespace Fields

variable {α : Type}

/-- No fields. -/
def empty : Fields α := ⟨[], by simp⟩

instance : Inhabited (Fields α) := ⟨empty⟩

instance [DecidableEq α] : DecidableEq (Fields α) := fun a b =>
  match decEq a.entries b.entries with
  | isTrue h => isTrue (by cases a; cases b; simp_all)
  | isFalse h => isFalse (by intro e; exact h (by rw [e]))

/-- The names in order. -/
def keys (fields : Fields α) : List String :=
  fields.entries.map (·.1)

/-- The values in order. -/
def values (fields : Fields α) : List α :=
  fields.entries.map (·.2)

/-- The value under a name. -/
def get? (name : String) (fields : Fields α) : Option α :=
  (fields.entries.find? (·.1 == name)).map (·.2)

/-- Whether there is a value under the name. -/
def contains (name : String) (fields : Fields α) : Bool :=
  fields.keys.contains name

/-- The number of fields. -/
def size (fields : Fields α) : Nat :=
  fields.entries.length

/-- Whether there are no fields. -/
def isEmpty (fields : Fields α) : Bool :=
  fields.entries.isEmpty

/-- Sets the value under a name in place, or at the end for a new name. -/
def set (name : String) (value : α) : List (String × α) → List (String × α)
  | [] => [(name, value)]
  | entry :: rest =>
    if entry.1 = name then (name, value) :: rest else entry :: set name value rest

theorem mem_keys_set {name x : String} {value : α} {entries : List (String × α)}
    (h : x ∈ (set name value entries).map (·.1)) : x = name ∨ x ∈ entries.map (·.1) := by
  induction entries with
  | nil => simpa [set] using h
  | cons entry rest ih =>
    simp only [set] at h
    split at h
    · rcases List.mem_cons.1 h with h | h
      · exact .inl h
      · exact .inr (List.mem_cons_of_mem _ h)
    · rcases List.mem_cons.1 h with h | h
      · exact .inr (h ▸ List.mem_cons_self)
      · exact (ih h).imp id (List.mem_cons_of_mem _)

theorem nodup_set (name : String) (value : α) {entries : List (String × α)}
    (distinct : (entries.map (·.1)).Nodup) : ((set name value entries).map (·.1)).Nodup := by
  induction entries with
  | nil => simp [set]
  | cons entry rest ih =>
    have tail : (rest.map (·.1)).Nodup := (List.nodup_cons.1 distinct).2
    have head : entry.1 ∉ rest.map (·.1) := (List.nodup_cons.1 distinct).1
    simp only [set]
    split
    · next h => exact List.nodup_cons.2 ⟨h ▸ head, tail⟩
    · next h =>
      refine List.nodup_cons.2 ⟨fun hx => ?_, ih tail⟩
      exact (mem_keys_set hx).elim h head

/-- Sets the value under a name. A name that is there keeps its place; a new one comes last. -/
def insert (name : String) (value : α) (fields : Fields α) : Fields α :=
  ⟨set name value fields.entries, nodup_set name value fields.distinct⟩

/-- The fields without the one under a name; the others keep their order. -/
def erase (name : String) (fields : Fields α) : Fields α :=
  ⟨fields.entries.filter (·.1 != name),
    fields.distinct.sublist (List.filter_sublist.map _)⟩

/-- Sets the value under a name, at the end also when the name is there already. -/
def append (name : String) (value : α) (fields : Fields α) : Fields α :=
  (fields.erase name).insert name value

/-- The fields that come of inserting entries one after the other. -/
def ofList (entries : List (String × α)) : Fields α :=
  entries.foldl (fun fields entry => fields.insert entry.1 entry.2) empty

end Fields

end DocPress
