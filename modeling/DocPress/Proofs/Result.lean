/-!
Steps that may fail. A run of steps succeeds exactly when each of them does, on what the one before
gave.
-/

namespace DocPress

variable {ε ε' α β : Type}

/-- Two steps succeed when the first one does and the second one does with its result. -/
theorem bind_eq_ok_iff {first : Except ε α} {next : α → Except ε β} {result : β} :
    (first >>= next) = .ok result ↔ ∃ middle, first = .ok middle ∧ next middle = .ok result := by
  cases first with
  | error fault => simp [bind, Except.bind]
  | ok middle => simp [bind, Except.bind]

/-- Another wording of its errors does not change when a step succeeds. -/
theorem mapError_eq_ok_iff {step : Except ε α} {wrap : ε → ε'} {result : α} :
    step.mapError wrap = .ok result ↔ step = .ok result := by
  constructor
  · intro done
    cases step with
    | error cause => cases done
    | ok value => exact congrArg Except.ok (Except.ok.inj done)
  · rintro rfl
    rfl

theorem map_eq_ok_iff {step : Except ε α} {f : α → β} {result : β} :
    step.map f = .ok result ↔ ∃ value, step = .ok value ∧ f value = result := by
  cases step <;> simp [Except.map]

theorem map_eq_error_iff {step : Except ε α} {f : α → β} {fault : ε} :
    step.map f = .error fault ↔ step = .error fault := by
  cases step <;> simp [Except.map]

/-- A step with its errors changed fails with the change of the step's error. -/
theorem mapError_eq_error_iff {step : Except ε α} {wrap : ε → ε'} {fault : ε'} :
    step.mapError wrap = .error fault ↔ ∃ cause, step = .error cause ∧ wrap cause = fault := by
  constructor
  · intro failed
    cases step with
    | error cause => exact ⟨cause, rfl, Except.error.inj failed⟩
    | ok value => cases failed
  · rintro ⟨cause, rfl, rfl⟩
    rfl

/-- Two steps fail when the first one does, or the second one does with its result. -/
theorem bind_eq_error_iff {first : Except ε α} {next : α → Except ε β} {fault : ε} :
    (first >>= next) = .error fault ↔
      first = .error fault ∨ ∃ middle, first = .ok middle ∧ next middle = .error fault := by
  cases first with
  | error cause => simp [bind, Except.bind]
  | ok middle => simp [bind, Except.bind]

theorem pure_eq_ok_iff {value result : α} :
    (pure value : Except ε α) = .ok result ↔ value = result := by
  simp [pure, Except.pure]

theorem toOption_eq_some_iff {step : Except ε α} {value : α} :
    step.toOption = some value ↔ step = .ok value := by
  cases step <;> simp [Except.toOption]

/-- What a step gives if a check of it succeeds. -/
theorem exists_ok_of_any {step : Except ε α} {check : α → Bool}
    (checked : step.toOption.any check = true) : ∃ value, step = .ok value ∧ check value = true := by
  cases step with
  | error fault => cases checked
  | ok value => exact ⟨value, rfl, checked⟩

/-- Results are gathered exactly when all of them are there. -/
theorem mapM_id_eq_ok_iff {results : List (Except ε α)} {values : List α} :
    results.mapM id = .ok values ↔ results = values.map .ok := by
  induction results generalizing values with
  | nil => cases values <;> simp [pure, Except.pure]
  | cons result rest ih =>
      rw [List.mapM_cons, bind_eq_ok_iff]
      simp only [bind_eq_ok_iff, pure_eq_ok_iff, id_eq, ih]
      constructor
      · rintro ⟨first, rfl, others, rfl, rfl⟩
        rfl
      · intro same
        cases values with
        | nil => cases same
        | cons first others =>
            obtain ⟨rfl, rfl⟩ := List.cons.inj same
            exact ⟨first, rfl, others, rfl, rfl⟩

/-- Results that are all values are the results of these values. -/
theorem exists_map_ok {results : List (Except ε α)}
    (each : ∀ result ∈ results, ∃ value, result = .ok value) : ∃ values : List α, results = values.map .ok := by
  induction results with
  | nil => exact ⟨[], rfl⟩
  | cons result rest ih =>
      rw [List.forall_mem_cons] at each
      obtain ⟨value, rfl⟩ := each.1
      obtain ⟨values, rfl⟩ := ih each.2
      exact ⟨value :: values, rfl⟩

/-- Steps that change nothing change nothing together. -/
theorem mapM_eq_self {step : α → Except ε α} {values : List α}
    (same : ∀ value ∈ values, step value = .ok value) : values.mapM step = .ok values := by
  induction values with
  | nil => rfl
  | cons value rest ih =>
      rw [List.forall_mem_cons] at same
      rw [List.mapM_cons, same.1, ih same.2]
      rfl

/-- Steps that fail together fail at one of them. -/
theorem exists_of_mapM_eq_error {step : α → Except ε β} {values : List α} {fault : ε}
    (failed : values.mapM step = .error fault) : ∃ value ∈ values, step value = .error fault := by
  induction values with
  | nil => cases failed
  | cons value rest ih =>
      rw [List.mapM_cons] at failed
      rcases bind_eq_error_iff.1 failed with here | ⟨first, -, behind⟩
      · exact ⟨value, List.mem_cons_self, here⟩
      · rcases bind_eq_error_iff.1 behind with later | ⟨others, -, none⟩
        · obtain ⟨other, member, there⟩ := ih later
          exact ⟨other, List.mem_cons_of_mem _ member, there⟩
        · cases none

/-- What steps give together comes of each of them. -/
theorem exists_of_mapM_eq_ok {step : α → Except ε β} {values : List α} {results : List β}
    (done : values.mapM step = .ok results) :
    ∀ result ∈ results, ∃ value ∈ values, step value = .ok result := by
  induction values generalizing results with
  | nil =>
      cases done
      exact fun _ no => absurd no List.not_mem_nil
  | cons value rest ih =>
      rw [List.mapM_cons] at done
      obtain ⟨first, here, done⟩ := bind_eq_ok_iff.1 done
      obtain ⟨others, later, done⟩ := bind_eq_ok_iff.1 done
      obtain rfl := pure_eq_ok_iff.1 done
      refine List.forall_mem_cons.2 ⟨⟨value, List.mem_cons_self, here⟩, fun result member => ?_⟩
      obtain ⟨other, inside, there⟩ := ih later result member
      exact ⟨other, List.mem_cons_of_mem _ inside, there⟩

/-! ### What steps meet -/

/-- Whether a step, if it fails, fails as is expected of it, and gives what is wanted otherwise. -/
def Meets (expected : ε → Prop) (wanted : α → Prop) : Except ε α → Prop
  | .ok value => wanted value
  | .error fault => expected fault

section Meets

variable {expected : ε → Prop} {wanted : α → Prop} {wanted' : β → Prop}

theorem Meets.ok {value : α} (holds : wanted value) : Meets expected wanted (.ok value) :=
  holds

/-- Two steps meet what is wanted when the first one does and the second one does with its result. -/
theorem Meets.bind {first : Except ε α} {next : α → Except ε β} (meets : Meets expected wanted first)
    (goesOn : ∀ value, wanted value → Meets expected wanted' (next value)) :
    Meets expected wanted' (first >>= next) := by
  cases first with
  | error fault => exact meets
  | ok value => exact goesOn value meets

theorem Meets.mono {step : Except ε α} {weaker : α → Prop} (meets : Meets expected wanted step)
    (implies : ∀ value, wanted value → weaker value) : Meets expected weaker step := by
  cases step with
  | error fault => exact meets
  | ok value => exact implies value meets

/-- A choice meets what is wanted when both sides do. -/
theorem Meets.ite {condition : Prop} [Decidable condition] {yes no : Except ε α}
    (holds : condition → Meets expected wanted yes) (fails : ¬condition → Meets expected wanted no) :
    Meets expected wanted (if condition then yes else no) := by
  split
  case isTrue true => exact holds true
  case isFalse false => exact fails false

/-- A step for each element of a list. -/
theorem Meets.mapM {step : α → Except ε β} {list : List α}
    (meets : ∀ element ∈ list, Meets expected wanted' (step element)) :
    Meets expected (fun results => ∀ result ∈ results, wanted' result) (list.mapM step) := by
  induction list with
  | nil => exact nofun
  | cons element rest ih =>
      obtain ⟨first, later⟩ := List.forall_mem_cons.1 meets
      rw [List.mapM_cons]
      exact first.bind fun result here => (ih later).bind fun results there =>
        List.forall_mem_cons.2 ⟨here, there⟩

theorem Meets.of_ok {step : Except ε α} {value : α} (meets : Meets expected wanted step)
    (done : step = .ok value) : wanted value := by
  rwa [done] at meets

/-- Whether a step gives what is wanted, if it does not fail. -/
abbrev Brings (wanted : α → Prop) (step : Except ε α) : Prop :=
  Meets (fun _ => True) wanted step

/-- It may not matter what a first step gives. -/
theorem Meets.after {first : Except ε α} {next : α → Except ε β}
    (goesOn : ∀ value, Brings wanted' (next value)) : Brings wanted' (first >>= next) := by
  cases first with
  | error fault => trivial
  | ok value => exact goesOn value

/-- A step brings what its change always brings. -/
theorem Meets.map {step : Except ε α} {f : α → β} (always : ∀ value, wanted' (f value)) :
    Brings wanted' (step.map f) := by
  cases step with
  | error fault => trivial
  | ok value => exact always value

/-- Other errors do not change what a step brings. -/
theorem Meets.mapError {step : Except ε α} {wrap : ε → ε'} (brings : Brings wanted step) :
    Brings wanted (step.mapError wrap) := by
  cases step with
  | error fault => trivial
  | ok value => exact brings

end Meets

end DocPress
