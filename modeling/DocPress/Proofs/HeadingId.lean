import Mathlib.Data.List.Nodup
import Mathlib.Data.List.Perm.Subperm
import DocPress.Proofs.Landmark
import DocPress.Proofs.Text

/-!
The ids of headings are distinct. An id that is made of a text is one that is not taken, and all ids
that headings have are taken from the start, so that those given by hand stay apart from the others.
Only the headings that are shown matter for a page, but the others take ids too.
-/

namespace DocPress

/-- Whether the kind is a heading. -/
def NodeKind.isHeading : NodeKind → Bool
  | .heading .. => true
  | _ => false

namespace HeadingId

open Node

/-! ### Free ids -/

/-- Numbered ids of one base differ when their numbers do. -/
theorem eq_of_numbered_eq {base : String} {m n : Nat} (same : numbered base m = numbered base n) :
    m = n := by
  have behind := congrArg String.toList same
  simp only [numbered, String.toList_append] at behind
  exact Text.eq_of_toString_eq (String.toList_inj.1 (List.append_cancel_left behind))

/-- A search passes over taken texts alone, and it ends at a free one or with the last one to try. -/
theorem exists_firstFree (taken : List String) (base : String) (fuel n : Nat) :
    ∃ k, firstFree taken base fuel n = numbered base (n + k) ∧
      (∀ j, j < k → numbered base (n + j) ∈ taken) ∧ (numbered base (n + k) ∉ taken ∨ k = fuel) := by
  induction fuel generalizing n with
  | zero => exact ⟨0, rfl, fun j before => absurd before (Nat.not_lt_zero j), .inr rfl⟩
  | succ fuel ih =>
      rw [firstFree]
      split
      · next used =>
          obtain ⟨k, found, passed, last⟩ := ih (n + 1)
          have onward : n + 1 + k = n + (k + 1) := by rw [Nat.add_assoc, Nat.add_comm 1]
          rw [onward] at found last
          refine ⟨k + 1, found, ?_, last.imp_right (congrArg Nat.succ)⟩
          rintro (_ | j) before
          · exact List.contains_iff_mem.1 used
          · rw [Nat.add_comm j 1, ← Nat.add_assoc]
            exact passed j (Nat.lt_of_succ_lt_succ before)
      · next free =>
          refine ⟨0, rfl, fun j before => absurd before (Nat.not_lt_zero j), .inl ?_⟩
          exact fun member => free (List.contains_iff_mem.2 member)

/-- There are more texts to try than taken ones. -/
theorem firstFree_not_mem (taken : List String) (base : String) (n : Nat) :
    firstFree taken base taken.length n ∉ taken := by
  obtain ⟨k, found, passed, last⟩ := exists_firstFree taken base taken.length n
  rw [found]
  intro used
  have all : k = taken.length := last.resolve_left (not_not_intro used)
  let tried := (List.range (k + 1)).map fun j => numbered base (n + j)
  have distinct : tried.Nodup :=
    List.nodup_range.map fun i j same => Nat.add_left_cancel (eq_of_numbered_eq same)
  have inside : tried ⊆ taken := by
    intro text member
    obtain ⟨j, bound, rfl⟩ := List.mem_map.1 member
    rcases Nat.lt_succ_iff_lt_or_eq.1 (List.mem_range.1 bound) with before | rfl
    · exact passed j before
    · exact used
  have few := (distinct.subperm inside).length_le
  rw [List.length_map, List.length_range, all] at few
  exact Nat.not_succ_le_self _ few

/-- The id that is made is not taken. -/
theorem unique_not_mem (taken : List String) (text : String) : unique taken text ∉ taken := by
  unfold unique
  dsimp only
  split
  · exact firstFree_not_mem taken (slug text) 2
  · next free => exact fun member => free (List.contains_iff_mem.2 member)

/-! ### Giving ids -/

/-- Where the ids `taken` are taken, headings with the ids `old` have the distinct ids `new`, and then
the ids `after` are taken: the ids that are new have not been taken before. -/
structure Gives (taken old new after : List String) : Prop where
  distinct : new.Nodup
  made : ∀ id ∈ new, id ∈ old ∨ id ∉ taken
  grows : taken ⊆ after
  entered : new ⊆ after

namespace Gives

variable {taken middle after old old' new new' : List String}

/-- Ids that are distinct and taken stay. -/
theorem refl (known : old ⊆ taken) (distinct : old.Nodup) : Gives taken old old taken :=
  ⟨distinct, fun _ member => .inl member, List.Subset.refl taken, known⟩

/-- Headings that are not shown get ids as well. -/
theorem hidden (grows : taken ⊆ after) : Gives taken [] [] after :=
  ⟨List.nodup_nil, fun _ => .inl, grows, List.nil_subset _⟩

/-- An id is made. -/
theorem unique (taken : List String) (text : String) :
    Gives taken [] [HeadingId.unique taken text] (HeadingId.unique taken text :: taken) where
  distinct := List.nodup_singleton _
  made := List.forall_mem_singleton.2 (.inr (unique_not_mem taken text))
  grows := List.subset_cons_self _ _
  entered := List.cons_subset_cons _ (List.nil_subset _)

/-- Ids are given to headings one after the other. -/
theorem append (one : Gives taken old new middle) (two : Gives middle old' new' after)
    (known : old' ⊆ taken) (apart : List.Disjoint old old') :
    Gives taken (old ++ old') (new ++ new') after where
  distinct := by
    refine List.Nodup.append one.distinct two.distinct fun id first second => ?_
    rcases two.made id second with later | fresh
    · rcases one.made id first with earlier | fresh
      · exact apart earlier later
      · exact fresh (known later)
    · exact fresh (one.entered first)
  made := by
    intro id member
    rcases List.mem_append.1 member with first | second
    · exact (one.made id first).imp_left (List.mem_append_left _)
    · rcases two.made id second with later | fresh
      · exact .inl (List.mem_append_right _ later)
      · exact .inr fun member => fresh (one.grows member)
  grows := List.Subset.trans one.grows two.grows
  entered := List.append_subset.2 ⟨List.Subset.trans one.entered two.grows, two.entered⟩

end Gives

/-- The ids of the headings that are shown of a tree. -/
def shown (node : Node) : List String :=
  node.landmarks.filterMap NodeKind.headingId?

/-- The ids of the headings that are shown of trees. -/
def shownAll (nodes : List Node) : List String :=
  (landmarksAll nodes).filterMap NodeKind.headingId?

theorem shown_mk (kind : NodeKind) (children : List Node) :
    shown ⟨kind, children⟩ =
      kind.headingId?.toList ++ if kind.hidesChildren then [] else shownAll children := by
  have own : (kind.landmark?.toList.filterMap NodeKind.headingId?) = kind.headingId?.toList := by
    cases kind with
    | heading level id => cases id <;> rfl
    | _ => rfl
  rw [shown, landmarks_mk, List.filterMap_append, own]
  split <;> rfl

theorem shownAll_cons (node : Node) (rest : List Node) :
    shownAll (node :: rest) = shown node ++ shownAll rest := by
  rw [shownAll, landmarksAll_cons, List.filterMap_append]
  rfl

theorem shown_sublist_given (node : Node) : (shown node).Sublist (given node) := by
  rw [given_eq]
  exact (landmarks_sublist node).filterMap _

mutual

/-- Giving ids to a tree frees none that is taken. -/
theorem grows_assign : ∀ (node : Node) (taken : List String), taken ⊆ (assign taken node).2
  | ⟨kind, children⟩, taken => by
      cases unnamed : kind.isUnnamedHeading with
      | false =>
          rw [assign_other unnamed]
          exact grows_assignAll children taken
      | true =>
          unfold NodeKind.isUnnamedHeading at unnamed
          split at unnamed
          · rw [assign_heading]
            exact List.Subset.trans (List.subset_cons_self _ _) (grows_assignAll children _)
          · cases unnamed

theorem grows_assignAll : ∀ (nodes : List Node) (taken : List String),
    taken ⊆ (assignAll taken nodes).2
  | [], taken => List.Subset.refl taken
  | node :: rest, taken =>
      List.Subset.trans (grows_assign node taken) (grows_assignAll rest _)

end

mutual

/-- Giving ids to a tree gives ids that are not taken, each once. -/
theorem gives_assign : ∀ (node : Node) (taken : List String), shown node ⊆ taken →
    (shown node).Nodup → Gives taken (shown node) (shown (assign taken node).1) (assign taken node).2
  | ⟨kind, children⟩, taken, known, distinct => by
      rw [shown_mk] at known distinct ⊢
      obtain ⟨here, below⟩ := List.append_subset.1 known
      obtain ⟨own, inside, apart⟩ := List.nodup_append'.1 distinct
      cases unnamed : kind.isUnnamedHeading with
      | false =>
          rw [assign_other unnamed, shown_mk]
          refine (Gives.refl here own).append ?_ below apart
          cases hides : kind.hidesChildren with
          | false =>
              rw [hides] at below inside
              exact gives_assignAll children taken below inside
          | true => exact .hidden (grows_assignAll children taken)
      | true =>
          unfold NodeKind.isUnnamedHeading at unnamed
          split at unnamed
          · next level =>
              have first := Gives.unique taken (Node.mk (.heading level none) children).textContent
              have children := gives_assignAll children _ (List.Subset.trans below first.grows) inside
              rw [assign_heading, shown_mk]
              exact first.append children below apart
          · cases unnamed

theorem gives_assignAll : ∀ (nodes : List Node) (taken : List String), shownAll nodes ⊆ taken →
    (shownAll nodes).Nodup →
      Gives taken (shownAll nodes) (shownAll (assignAll taken nodes).1) (assignAll taken nodes).2
  | [], taken, known, distinct => .refl known distinct
  | node :: rest, taken, known, distinct => by
      rw [shownAll_cons] at known distinct ⊢
      obtain ⟨here, behind⟩ := List.append_subset.1 known
      obtain ⟨own, others, apart⟩ := List.nodup_append'.1 distinct
      have first := gives_assign node taken here own
      have later := gives_assignAll rest _ (List.Subset.trans behind first.grows) others
      rw [assignAll, shownAll_cons]
      exact first.append later behind apart

end

/-- If the ids of the headings that are shown are distinct, so are those that they get. -/
theorem nodup_shown_apply {node : Node} (distinct : (shown node).Nodup) :
    (shown (apply node).1).Nodup :=
  (gives_assign node (given node) (shown_sublist_given node).subset distinct).distinct

/-! ### Other landmarks -/

mutual

/-- Giving ids changes headings alone. -/
theorem others_assign : ∀ (taken : List String) (node : Node),
    (assign taken node).1.landmarks.filter (!·.isHeading) = node.landmarks.filter (!·.isHeading)
  | taken, ⟨kind, children⟩ => by
      cases unnamed : kind.isUnnamedHeading with
      | false =>
          rw [assign_other unnamed, landmarks_mk, landmarks_mk, List.filter_append, List.filter_append]
          split
          · rfl
          · rw [others_assignAll taken children]
      | true =>
          unfold NodeKind.isUnnamedHeading at unnamed
          split at unnamed
          · exact others_assignAll _ children
          · cases unnamed

theorem others_assignAll : ∀ (taken : List String) (nodes : List Node),
    (landmarksAll (assignAll taken nodes).1).filter (!·.isHeading) =
      (landmarksAll nodes).filter (!·.isHeading)
  | _, [] => rfl
  | taken, node :: rest => by
      rw [assignAll, landmarksAll_cons, landmarksAll_cons, List.filter_append, List.filter_append,
        others_assign taken node, others_assignAll _ rest]

end

theorem others_apply (node : Node) :
    (apply node).1.landmarks.filter (!·.isHeading) = node.landmarks.filter (!·.isHeading) :=
  others_assign (given node) node

end HeadingId

end DocPress
