import Mathlib.Data.List.Destutter
import Mathlib.Data.List.Nodup

/-! What `unique` leaves of a list.

        1 1 2 2 1   ──destutter──▶   1 2 1        of equal neighbours the first one stays
                    ──eraseDups──▶   1 2          of equal elements the first one stays

    The two agree on the elements whose occurrences stand together. -/

namespace Lib
open List

section
variable {α : Type} [DecidableEq α]

/-- The occurrences of `a` stand together: behind its first ones there are no others. -/
def Together (a : α) (l : List α) : Prop := a ∉ (l.dropWhile (· ≠ a)).dropWhile (· = a)

instance (a : α) (l : List α) : Decidable (Together a l) := by
  unfold Together
  infer_instance

/-! ### Runs of an element -/

/-- The run that starts with `a` is left as one `a`. -/
theorem count_destutter'_self (a : α) (l : List α) :
    (l.destutter' (· ≠ ·) a).count a = ((l.dropWhile (· = a)).destutter (· ≠ ·)).count a + 1 := by
  induction l with
  | nil => simp
  | cons b l ih =>
    by_cases hab : b = a
    · subst hab
      rw [destutter'_cons_neg (R := (· ≠ ·)) l (by simp), ih]
      simp
    · rw [destutter'_cons_pos (R := (· ≠ ·)) l (Ne.symm hab), count_cons_self,
        dropWhile_cons_of_neg (by simpa using hab), destutter_cons']

/-- What stands before the first `a` does not count. -/
theorem count_destutter' {a b : α} (hb : b ≠ a) (l : List α) :
    (l.destutter' (· ≠ ·) b).count a = ((l.dropWhile (· ≠ a)).destutter (· ≠ ·)).count a := by
  induction l generalizing b with
  | nil => simp [hb]
  | cons c l ih =>
    by_cases hbc : b = c
    · subst hbc
      rw [destutter'_cons_neg (R := (· ≠ ·)) l (by simp), ih hb]
      simp [hb]
    · rw [destutter'_cons_pos (R := (· ≠ ·)) l hbc, count_cons_of_ne hb]
      by_cases hca : c = a
      · rw [dropWhile_cons_of_neg (by simpa using hca), destutter_cons']
      · rw [ih hca, dropWhile_cons_of_pos (by simpa using hca)]

theorem count_destutter (a : α) (l : List α) :
    (l.destutter (· ≠ ·)).count a = ((l.dropWhile (· ≠ a)).destutter (· ≠ ·)).count a := by
  cases l with
  | nil => rfl
  | cons b l =>
    by_cases hb : b = a
    · simp [hb]
    · rw [destutter_cons', count_destutter' hb]
      simp [hb]

/-- The list from the first `a` on, if there is one. -/
theorem dropWhile_ne_cases (a : α) (l : List α) :
    (l.dropWhile (· ≠ a) = [] ∧ a ∉ l) ∨ ∃ rest, l.dropWhile (· ≠ a) = a :: rest := by
  induction l with
  | nil => exact Or.inl ⟨rfl, not_mem_nil⟩
  | cons b l ih =>
    by_cases hb : b = a
    · subst hb
      exact Or.inr ⟨l, by simp⟩
    · rw [dropWhile_cons_of_pos (by simpa using hb)]
      refine ih.imp_left fun ⟨hnil, hmem⟩ => ⟨hnil, fun h => ?_⟩
      exact (mem_cons.mp h).elim (fun h => hb h.symm) hmem

theorem mem_destutter {a : α} {l : List α} : a ∈ l.destutter (· ≠ ·) ↔ a ∈ l := by
  refine ⟨fun h => (destutter_sublist _ l).subset h, fun h => ?_⟩
  obtain ⟨-, hno⟩ | ⟨rest, hrest⟩ := dropWhile_ne_cases a l
  · exact absurd h hno
  · rw [← count_pos_iff, count_destutter, hrest, destutter_cons', count_destutter'_self]
    omega

theorem count_destutter_le_one {a : α} {l : List α} :
    (l.destutter (· ≠ ·)).count a ≤ 1 ↔ Together a l := by
  unfold Together
  rw [count_destutter]
  obtain ⟨hnil, -⟩ | ⟨rest, hrest⟩ := dropWhile_ne_cases a l
  · rw [hnil]
    simp
  · rw [hrest, destutter_cons', count_destutter'_self, dropWhile_cons_of_pos (by simp)]
    rw [← mem_destutter, ← count_eq_zero]
    omega

/-! ### Order of first appearance -/

theorem nodup_eraseDups (l : List α) : l.eraseDups.Nodup := by
  induction hlen : l.length using Nat.strong_induction_on generalizing l with
  | _ n ih =>
    cases l with
    | nil => exact nodup_nil
    | cons a l =>
      rw [eraseDups_cons, nodup_cons]
      refine ⟨by simp, ih _ ?_ _ rfl⟩
      have hle := length_filter_le (fun b => !b == a) l
      rw [length_cons] at hlen
      omega

theorem eraseDups_of_nodup {l : List α} (h : l.Nodup) : l.eraseDups = l := by
  induction l with
  | nil => rfl
  | cons a l ih =>
    obtain ⟨ha, hl⟩ := nodup_cons.mp h
    rw [eraseDups_cons, filter_eq_self.mpr, ih hl]
    intro b hb
    have hne : b ≠ a := fun hba => ha (hba ▸ hb)
    simpa using hne

theorem eraseDups_filter_destutter' (p : α → Bool) (a : α) (l : List α) :
    ((l.destutter' (· ≠ ·) a).filter p).eraseDups = ((a :: l).filter p).eraseDups := by
  induction l generalizing a p with
  | nil => simp
  | cons b l ih =>
    by_cases hab : a = b
    · subst hab
      rw [destutter'_cons_neg (R := (· ≠ ·)) l (by simp), ih]
      by_cases hp : p a = true
      · simp [hp, eraseDups_cons]
      · simp [hp]
    · rw [destutter'_cons_pos (R := (· ≠ ·)) l hab]
      by_cases hp : p a = true
      · rw [filter_cons_of_pos hp, filter_cons_of_pos hp, eraseDups_cons, eraseDups_cons,
          filter_filter, filter_filter, ih]
      · rw [filter_cons_of_neg hp, filter_cons_of_neg hp, ih]

theorem eraseDups_filter_destutter (p : α → Bool) (l : List α) :
    ((l.destutter (· ≠ ·)).filter p).eraseDups = (l.filter p).eraseDups := by
  cases l with
  | nil => rfl
  | cons a l => exact eraseDups_filter_destutter' p a l

/-- `unique` leaves the elements with `p` in the order of their first appearance exactly if the
    occurrences of each of them stand together. -/
theorem filter_destutter_iff {p : α → Bool} {l : List α} :
    (l.destutter (· ≠ ·)).filter p = (l.filter p).eraseDups ↔
      ∀ a ∈ l, p a = true → Together a l := by
  rw [← eraseDups_filter_destutter]
  constructor
  · intro h a _ hp
    have hnodup : ((l.destutter (· ≠ ·)).filter p).Nodup := h ▸ nodup_eraseDups _
    have hcount := nodup_iff_count_le_one.mp hnodup a
    rw [count_filter hp] at hcount
    exact count_destutter_le_one.mp hcount
  · intro h
    refine (eraseDups_of_nodup (nodup_iff_count_le_one.mpr fun a => ?_)).symm
    by_cases ha : a ∈ (l.destutter (· ≠ ·)).filter p
    · obtain ⟨hmem, hp⟩ := mem_filter.mp ha
      rw [count_filter hp]
      exact count_destutter_le_one.mpr (h a (mem_destutter.mp hmem) hp)
    · rw [count_eq_zero.mpr ha]
      exact Nat.zero_le 1

end

end Lib
