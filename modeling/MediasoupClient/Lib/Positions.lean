import MediasoupClient.Lib.StdMap
import Mathlib.Tactic.Common

/-! A map that keeps the positions of the elements of a list.

    `Positions m l`: `m` maps exactly the elements of `l`, each to its position.
    `Covers m l`: it maps the elements so, and may map other keys somewhere.

    Either implies that no element occurs twice. Both survive the two ways the list changes: a new
    element is appended, or takes the place of an old one. -/

namespace Lib
variable {κ : Type*} [LinearOrder κ]

/-- Every element is mapped to its position. -/
def Covers (m : StdMap κ ℕ) (l : List κ) : Prop := ∀ i k, l[i]? = some k → m.get k = some i

/-- Exactly the elements are mapped, each to its position. -/
def Positions (m : StdMap κ ℕ) (l : List κ) : Prop := ∀ k i, m.get k = some i ↔ l[i]? = some k

theorem Positions.covers {m : StdMap κ ℕ} {l : List κ} (h : Positions m l) : Covers m l :=
  fun i k hk => (h k i).mpr hk

theorem positions_empty : Positions (StdMap.empty : StdMap κ ℕ) [] := fun k i => by simp

/-- An element has one position. -/
theorem Covers.unique {m : StdMap κ ℕ} {l : List κ} (h : Covers m l) {i j : ℕ} {k : κ}
    (hi : l[i]? = some k) (hj : l[j]? = some k) : i = j :=
  Option.some.inj ((h i k hi).symm.trans (h j k hj))

omit [LinearOrder κ] in
theorem getElem?_append_singleton (l : List κ) (k : κ) (i : ℕ) :
    (l ++ [k])[i]? = if i = l.length then some k else l[i]? := by grind

theorem Covers.append {m : StdMap κ ℕ} {l : List κ} (h : Covers m l) {k : κ} (hk : k ∉ l) :
    Covers (m.insert k l.length) (l ++ [k]) := by
  intro i k' hi
  rw [getElem?_append_singleton] at hi
  rw [StdMap.get_insert]
  split_ifs at hi with hil
  · cases hi; rw [if_pos rfl, hil]
  · have hne : k' ≠ k := by rintro rfl; exact hk (List.mem_of_getElem? hi)
    rw [if_neg hne, h i k' hi]

/-- Looking an unknown key up, which inserts it, keeps the elements mapped. -/
theorem Covers.index {m : StdMap κ ℕ} {l : List κ} (h : Covers m l) (k : κ) (d : ℕ) :
    Covers (m.index k d).2 l := by
  intro i k' hi
  have hget := h i k' hi
  cases hk : m.get k with
  | some v => rw [StdMap.index_of_get hk]; exact hget
  | none =>
    have hne : k' ≠ k := by rintro rfl; rw [hk] at hget; cases hget
    rw [StdMap.index_of_none hk, StdMap.get_insert_of_ne _ _ hne, hget]

theorem Positions.append {m : StdMap κ ℕ} {l : List κ} (h : Positions m l) {k : κ} (hk : k ∉ l) :
    Positions (m.insert k l.length) (l ++ [k]) := by
  intro k' i
  refine ⟨fun hget => ?_, h.covers.append hk i k'⟩
  rw [getElem?_append_singleton]
  rw [StdMap.get_insert] at hget
  split_ifs at hget with heq
  · cases hget; rw [if_pos rfl, heq]
  · have hi := (h k' i).mp hget
    have hlt : i < l.length := (List.getElem?_eq_some_iff.mp hi).1
    rw [if_neg hlt.ne, hi]

/-- `k` takes the place of `old`: it is `old` again, or it is new. -/
theorem Covers.set {m : StdMap κ ℕ} {l : List κ} (h : Covers m l) {i : ℕ} {k old : κ}
    (hi : l[i]? = some old) (hk : k = old ∨ k ∉ l) :
    Covers ((m.erase old).insert k i) (l.set i k) := by
  intro j k' hj
  rw [List.getElem?_set] at hj
  rw [StdMap.get_insert, StdMap.get_erase]
  split_ifs at hj with hij hlt
  · cases hj; rw [if_pos rfl, hij]
  · have hold : k' ≠ old := by rintro rfl; exact hij (h.unique hi hj)
    have hne : k' ≠ k := by
      rcases hk with rfl | hk
      · exact hold
      · rintro rfl; exact hk (List.mem_of_getElem? hj)
    rw [if_neg hne, if_neg hold, h j k' hj]

theorem Positions.set {m : StdMap κ ℕ} {l : List κ} (h : Positions m l) {i : ℕ} {k old : κ}
    (hi : l[i]? = some old) (hk : k = old ∨ k ∉ l) :
    Positions ((m.erase old).insert k i) (l.set i k) := by
  intro k' j
  refine ⟨fun hget => ?_, h.covers.set hi hk j k'⟩
  have hlt : i < l.length := (List.getElem?_eq_some_iff.mp hi).1
  rw [List.getElem?_set]
  rw [StdMap.get_insert, StdMap.get_erase] at hget
  split_ifs at hget with hnew hold
  · cases hget; rw [if_pos rfl, if_pos hlt, hnew]
  · have hj := (h k' j).mp hget
    have hij : i ≠ j := by
      rintro rfl
      exact hold (Option.some.inj (hj.symm.trans hi))
    rw [if_neg hij, hj]

end Lib
