/-!
Catalogs: values under names, in increasing order of the names.
-/

namespace DocPress

/-- Values under names, in increasing order of the names. -/
structure Catalog (α : Type) where
  entries : List (String × α)
  sorted : entries.Pairwise (fun a b => a.1 < b.1) := by simp

namespace Catalog

variable {α : Type}

/-- The catalog without entries. -/
def empty : Catalog α := ⟨[], by simp⟩

instance : Inhabited (Catalog α) := ⟨empty⟩

instance [DecidableEq α] : DecidableEq (Catalog α) := fun a b =>
  match decEq a.entries b.entries with
  | isTrue h => isTrue (by cases a; cases b; simp_all)
  | isFalse h => isFalse (by intro e; exact h (by rw [e]))

/-- Puts an entry into a list that is sorted by names. -/
def place (name : String) (value : α) : List (String × α) → List (String × α)
  | [] => [(name, value)]
  | entry :: rest =>
    if name < entry.1 then (name, value) :: entry :: rest
    else if name = entry.1 then (name, value) :: rest
    else entry :: place name value rest

theorem mem_place {name : String} {value : α} {entries : List (String × α)}
    {x : String × α} (h : x ∈ place name value entries) :
    x = (name, value) ∨ x ∈ entries := by
  induction entries with
  | nil => simp_all [place]
  | cons entry rest ih =>
    simp only [place] at h
    split at h
    · simpa using h
    · split at h
      · rcases List.mem_cons.1 h with h | h
        · exact .inl h
        · exact .inr (List.mem_cons_of_mem _ h)
      · rcases List.mem_cons.1 h with h | h
        · exact .inr (h ▸ List.mem_cons_self)
        · exact (ih h).imp id (List.mem_cons_of_mem _)

theorem pairwise_place (name : String) (value : α) {entries : List (String × α)}
    (sorted : entries.Pairwise (fun a b => a.1 < b.1)) :
    (place name value entries).Pairwise (fun a b => a.1 < b.1) := by
  induction entries with
  | nil => simp [place]
  | cons entry rest ih =>
    have tail := List.Pairwise.of_cons sorted
    have head : ∀ {x}, x ∈ rest → entry.1 < x.1 := List.rel_of_pairwise_cons sorted
    simp only [place]
    split
    · next h =>
      refine List.pairwise_cons.2 ⟨fun x hx => ?_, sorted⟩
      rcases List.mem_cons.1 hx with rfl | hx
      · exact h
      · exact String.lt_trans h (head hx)
    · split
      · next _ h =>
        subst h
        exact List.pairwise_cons.2 ⟨fun x hx => head hx, tail⟩
      · next below different =>
        refine List.pairwise_cons.2 ⟨fun x hx => ?_, ih tail⟩
        rcases mem_place hx with rfl | hx
        · rcases Std.le_total (a := name) (b := entry.1) with h | h
          · exact absurd (Std.lt_of_le_of_ne h different) below
          · exact Std.lt_of_le_of_ne h (Ne.symm different)
        · exact head hx

/-- Sets an entry. -/
def insert (name : String) (value : α) (catalog : Catalog α) : Catalog α :=
  ⟨place name value catalog.entries, pairwise_place name value catalog.sorted⟩

/-- The catalog of the given entries, later ones replacing earlier ones of the same name. -/
def ofList (entries : List (String × α)) : Catalog α :=
  entries.foldl (fun done entry => done.insert entry.1 entry.2) empty

/-- An entry whose name is greater than all others is put at the end. -/
theorem place_of_forall_lt {name : String} {value : α} {entries : List (String × α)}
    (greater : ∀ entry ∈ entries, entry.1 < name) :
    place name value entries = entries ++ [(name, value)] := by
  induction entries with
  | nil => rfl
  | cons entry rest ih =>
    have below := greater entry List.mem_cons_self
    have notBelow : ¬name < entry.1 := Std.not_lt.2 (Std.le_of_lt below)
    have different : name ≠ entry.1 := (Std.ne_of_lt below).symm
    rw [place, if_neg notBelow, if_neg different,
      ih fun other member => greater other (List.mem_cons_of_mem _ member), List.cons_append]

/-- A catalog is its entries. -/
theorem eq_of_entries {a b : Catalog α} (same : a.entries = b.entries) : a = b := by
  cases a
  cases b
  cases same
  rfl

/-- Entries that are greater than those before them are put at the end one by one. -/
theorem entries_foldl_insert {rest : List (String × α)} {done : Catalog α}
    (sorted : (done.entries ++ rest).Pairwise (fun a b => a.1 < b.1)) :
    (rest.foldl (fun done entry => done.insert entry.1 entry.2) done).entries =
      done.entries ++ rest := by
  induction rest generalizing done with
  | nil => simp
  | cons entry rest ih =>
    have greater : ∀ other ∈ done.entries, other.1 < entry.1 := fun other member =>
      (List.pairwise_append.1 sorted).2.2 other member entry List.mem_cons_self
    have next : (done.insert entry.1 entry.2).entries = done.entries ++ [entry] :=
      place_of_forall_lt greater
    rw [List.foldl_cons, ih (by simpa [next] using sorted), next]
    simp

/-- The entries of a catalog make the same catalog again. -/
theorem ofList_entries (catalog : Catalog α) : ofList catalog.entries = catalog := by
  have sorted : ((empty : Catalog α).entries ++ catalog.entries).Pairwise
      (fun a b => a.1 < b.1) := catalog.sorted
  exact eq_of_entries (entries_foldl_insert sorted)

/-- Whether there is no entry. -/
def isEmpty (catalog : Catalog α) : Bool :=
  catalog.entries.isEmpty

/-- The names in increasing order. -/
def keys (catalog : Catalog α) : List String :=
  catalog.entries.map (·.1)

/-- The value under a name. -/
def get? (name : String) (catalog : Catalog α) : Option α :=
  (catalog.entries.find? (·.1 == name)).map (·.2)

end Catalog

end DocPress
