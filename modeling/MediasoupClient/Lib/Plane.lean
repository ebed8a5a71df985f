import Mathlib.Data.Nat.Notation
import Mathlib.Tactic.Common

/-! Planes of a picture in a buffer.

        offset ─▶ ■ ■ ■ ■ ■ ■          row 0
                        ■ ■ ■ ■ ■ ■    row 1, a stride behind
                        └─ stride

    A plane whose rows are no shorter than its stride covers every byte from its offset to its stop,
    so it can be treated as an interval. -/

namespace Lib

/-- The bytes of a plane: `rows` times `cols` of them, the rows a stride apart. -/
structure Plane where
  offset : ℕ
  stride : ℕ
  cols : ℕ
  rows : ℕ
  deriving DecidableEq, Repr

namespace Plane

def byte (p : Plane) (r c : ℕ) : ℕ := p.offset + r * p.stride + c

/-- Every byte of the plane has an index below the size of the buffer. -/
def Inside (p : Plane) (size : ℕ) : Prop := ∀ r < p.rows, ∀ c < p.cols, p.byte r c < size

/-- Two planes have no byte in common. -/
def Apart (p q : Plane) : Prop :=
  ∀ r < p.rows, ∀ c < p.cols, ∀ r' < q.rows, ∀ c' < q.cols, p.byte r c ≠ q.byte r' c'

instance (p : Plane) (size : ℕ) : Decidable (p.Inside size) :=
  inferInstanceAs (Decidable (∀ r < p.rows, ∀ c < p.cols, p.byte r c < size))

instance (p q : Plane) : Decidable (p.Apart q) :=
  inferInstanceAs (Decidable (∀ r < p.rows, ∀ c < p.cols, ∀ r' < q.rows, ∀ c' < q.cols,
    p.byte r c ≠ q.byte r' c'))

/-- The index behind the last byte. -/
def stop (p : Plane) : ℕ := p.offset + (p.rows - 1) * p.stride + p.cols

/-- There are bytes, and none are left out between the rows. -/
structure Gapless (p : Plane) : Prop where
  rows : 1 ≤ p.rows
  cols : 1 ≤ p.cols
  stride : p.stride ≤ p.cols

theorem offset_le_byte (p : Plane) (r c : ℕ) : p.offset ≤ p.byte r c := by
  unfold byte
  omega

theorem byte_lt_stop {p : Plane} {r c : ℕ} (hr : r < p.rows) (hc : c < p.cols) :
    p.byte r c < p.stop := by
  have hrow : r * p.stride ≤ (p.rows - 1) * p.stride := Nat.mul_le_mul_right _ (by omega)
  unfold byte stop
  omega

/-- A number below the last row's end is in some row. -/
theorem exists_row {stride cols n : ℕ} (hstride : stride ≤ cols) (rows : ℕ)
    (h : n < rows * stride + cols) : ∃ r ≤ rows, ∃ c < cols, n = r * stride + c := by
  induction rows with
  | zero => exact ⟨0, Nat.le_refl 0, n, by omega, by omega⟩
  | succ rows ih =>
    rw [Nat.succ_mul] at h
    rcases Nat.lt_or_ge n (rows * stride + cols) with hlt | hge
    · obtain ⟨r, hr, c, hc, hn⟩ := ih hlt
      exact ⟨r, by omega, c, hc, hn⟩
    · refine ⟨rows + 1, Nat.le_refl _, n - (rows + 1) * stride, ?_, ?_⟩
      · rw [Nat.succ_mul]
        omega
      · rw [Nat.succ_mul]
        omega

theorem Gapless.exists_byte {p : Plane} (h : p.Gapless) {i : ℕ} (hlo : p.offset ≤ i)
    (hhi : i < p.stop) : ∃ r < p.rows, ∃ c < p.cols, p.byte r c = i := by
  have hrows := h.rows
  obtain ⟨r, hr, c, hc, hi⟩ := exists_row (n := i - p.offset) h.stride (p.rows - 1) (by
    unfold stop at hhi
    omega)
  refine ⟨r, by omega, c, hc, ?_⟩
  unfold byte
  omega

theorem Gapless.offset_lt_stop {p : Plane} (h : p.Gapless) : p.offset < p.stop := by
  have hcols := h.cols
  unfold stop
  omega

theorem Gapless.inside_iff {p : Plane} (h : p.Gapless) {size : ℕ} :
    p.Inside size ↔ p.stop ≤ size := by
  have hlt := h.offset_lt_stop
  constructor
  · intro hin
    obtain ⟨r, hr, c, hc, hlast⟩ := h.exists_byte (i := p.stop - 1) (by omega) (by omega)
    have hsize := hin r hr c hc
    omega
  · intro hle r hr c hc
    exact Nat.lt_of_lt_of_le (byte_lt_stop hr hc) hle

theorem Gapless.apart_iff {p q : Plane} (hp : p.Gapless) (hq : q.Gapless) :
    p.Apart q ↔ p.stop ≤ q.offset ∨ q.stop ≤ p.offset := by
  have hlt := hp.offset_lt_stop
  have hlt' := hq.offset_lt_stop
  constructor
  · intro h
    by_contra hnot
    -- the larger of the two offsets is in both
    obtain ⟨r, hr, c, hc, hi⟩ := hp.exists_byte (i := max p.offset q.offset) (by omega) (by omega)
    obtain ⟨r', hr', c', hc', hi'⟩ :=
      hq.exists_byte (i := max p.offset q.offset) (by omega) (by omega)
    exact h r hr c hc r' hr' c' hc' (hi.trans hi'.symm)
  · intro h r hr c hc r' hr' c' hc'
    have hstop := byte_lt_stop hr hc
    have hstop' := byte_lt_stop hr' hc'
    have hoffset := p.offset_le_byte r c
    have hoffset' := q.offset_le_byte r' c'
    omega

end Plane
end Lib
