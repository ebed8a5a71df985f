import MediasoupClient.Lib.Json
import Mathlib.Algebra.Order.Floor.Ring
import Mathlib.Order.Iterate
import Mathlib.Tactic.Linarith
import Mathlib.Tactic.NormNum
import Mathlib.Tactic.Ring
import Mathlib.Tactic.FieldSimp

/-! Rounding to a grid whose unit depends on how large the number is.

        unit      b ^ f e       where  b ^ e ≤ |q| < b ^ (e + 1)
        rounded   the multiple of the unit that is nearest to q, ties to even

    A binary format of `p` bits has `f e = max (e - (p - 1)) emin`, and `p` significant decimal digits
    have `f e = e - (p - 1)`. When a larger number never has a finer grid, and the power of `b` where
    the grid gets coarser is on it, rounding keeps the order: a number that is rounded again and again
    only goes one way. -/

namespace Lib
namespace Json

/-! ### To an integer -/

theorem roundEven_intCast (i : ℤ) : roundEven (i : ℚ) = i := by
  have hlt : (i : ℚ) - (⌊(i : ℚ)⌋ : ℤ) < 1 / 2 := by
    rw [Int.floor_intCast, sub_self]
    norm_num
  simp only [roundEven]
  rw [if_pos hlt, Int.floor_intCast]

theorem floor_le_roundEven (q : ℚ) : ⌊q⌋ ≤ roundEven q := by
  simp only [roundEven]
  split_ifs <;> omega

theorem roundEven_le_floor (q : ℚ) : roundEven q ≤ ⌊q⌋ + 1 := by
  simp only [roundEven]
  split_ifs <;> omega

/-- Rounding to an integer keeps the order. -/
theorem roundEven_mono {x y : ℚ} (h : x ≤ y) : roundEven x ≤ roundEven y := by
  have hfloor : ⌊x⌋ ≤ ⌊y⌋ := Int.floor_le_floor h
  rcases hfloor.eq_or_lt with heq | hlt
  · -- in one unit interval the distances to its left end are compared
    simp only [roundEven]
    rw [heq]
    split_ifs <;> first | omega | linarith
  · have hx := roundEven_le_floor x
    have hy := floor_le_roundEven y
    omega

theorem roundEven_neg (q : ℚ) : roundEven (-q) = -roundEven q := by
  rcases (Int.floor_le q).eq_or_lt with hint | hfrac
  · rw [← hint, ← Int.cast_neg, roundEven_intCast, roundEven_intCast]
  · have hfloor : ⌊-q⌋ = -⌊q⌋ - 1 := by
      rw [Int.floor_eq_iff]
      push_cast
      have hlt := Int.lt_floor_add_one q
      constructor <;> linarith
    have hdist : -q - ((-⌊q⌋ - 1 : ℤ) : ℚ) = 1 - (q - ⌊q⌋) := by
      push_cast
      ring
    simp only [roundEven]
    rw [hfloor, hdist]
    split_ifs <;> first | omega | linarith

/-- The integer that is nearer than all others. -/
theorem roundEven_near {q : ℚ} {n : ℤ} (h : |q - n| < 1 / 2) : roundEven q = n := by
  obtain ⟨hlo, hhi⟩ := abs_lt.mp h
  simp only [roundEven]
  rcases le_or_gt (n : ℚ) q with hle | hgt
  · have hfloor : ⌊q⌋ = n := by
      rw [Int.floor_eq_iff]
      exact ⟨hle, by linarith⟩
    rw [hfloor, if_pos hhi]
  · have hfloor : ⌊q⌋ = n - 1 := by
      rw [Int.floor_eq_iff]
      push_cast
      exact ⟨by linarith, by linarith⟩
    rw [hfloor]
    push_cast
    rw [if_neg (by linarith), if_pos (by linarith)]
    ring

/-! ### To a grid -/

/-- The nearest multiple of the unit that numbers of this size have. -/
def roundAt (b : ℕ) (f : ℤ → ℤ) (q : ℚ) : ℚ :=
  if q = 0 then 0
  else roundEven (q / (b : ℚ) ^ f (Int.log b |q|)) * (b : ℚ) ^ f (Int.log b |q|)

/-- A larger number has no finer grid, and where the grid gets coarser its unit is not larger than the
    number. -/
def Coarsens (f : ℤ → ℤ) : Prop := ∀ {d e : ℤ}, d ≤ e → f d ≤ f e ∧ (f d = f e ∨ f e ≤ e)

section
variable {b : ℕ} {f : ℤ → ℤ}

theorem roundAt_zero : roundAt b f 0 = 0 := if_pos rfl

theorem roundAt_of_ne {q : ℚ} (hq : q ≠ 0) : roundAt b f q =
    roundEven (q / (b : ℚ) ^ f (Int.log b |q|)) * (b : ℚ) ^ f (Int.log b |q|) := if_neg hq

theorem roundAt_neg (q : ℚ) : roundAt b f (-q) = -roundAt b f q := by
  by_cases hq : q = 0
  · rw [hq, neg_zero, roundAt_zero, neg_zero]
  · rw [roundAt_of_ne hq, roundAt_of_ne (neg_ne_zero.mpr hq), abs_neg, neg_div, roundEven_neg]
    push_cast
    ring

/-- A number on its grid stays. -/
theorem roundAt_multiple (hb : 1 < b) {q : ℚ} {i : ℤ}
    (h : q = i * (b : ℚ) ^ f (Int.log b |q|)) : roundAt b f q = q := by
  by_cases hq : q = 0
  · rw [hq, roundAt_zero]
  · have hunit : (b : ℚ) ^ f (Int.log b |q|) ≠ 0 :=
      zpow_ne_zero _ (by exact_mod_cast (by omega : b ≠ 0))
    have hdiv : q / (b : ℚ) ^ f (Int.log b |q|) = i := by
      rw [div_eq_iff hunit]
      exact h
    rw [roundAt_of_ne hq, hdiv, roundEven_intCast]
    exact h.symm

/-- A power on a grid bounds what is rounded to the grid. -/
theorem power_multiple (hb : 1 < b) {d e : ℤ} (h : d ≤ e) :
    ∃ i : ℤ, (b : ℚ) ^ e = i * (b : ℚ) ^ d := by
  have hb0 : (b : ℚ) ≠ 0 := by exact_mod_cast (by omega : b ≠ 0)
  obtain ⟨n, hn⟩ := Int.eq_ofNat_of_zero_le (sub_nonneg.mpr h)
  refine ⟨(b : ℤ) ^ n, ?_⟩
  rw [eq_add_of_sub_eq hn, zpow_add₀ hb0]
  simp

theorem rounded_le {d : ℤ} {x : ℚ} {i : ℤ} (hb : 1 < b)
    (h : x ≤ i * (b : ℚ) ^ d) : roundEven (x / (b : ℚ) ^ d) * (b : ℚ) ^ d ≤ i * (b : ℚ) ^ d := by
  have hpos : (0 : ℚ) < (b : ℚ) ^ d := zpow_pos (by exact_mod_cast (by omega : 0 < b)) d
  have hle : roundEven (x / (b : ℚ) ^ d) ≤ i := by
    have hmono := roundEven_mono ((div_le_iff₀ hpos).mpr h)
    rwa [roundEven_intCast] at hmono
  exact mul_le_mul_of_nonneg_right (by exact_mod_cast hle) hpos.le

theorem le_rounded {d : ℤ} {x : ℚ} {i : ℤ} (hb : 1 < b)
    (h : i * (b : ℚ) ^ d ≤ x) : i * (b : ℚ) ^ d ≤ roundEven (x / (b : ℚ) ^ d) * (b : ℚ) ^ d := by
  have hpos : (0 : ℚ) < (b : ℚ) ^ d := zpow_pos (by exact_mod_cast (by omega : 0 < b)) d
  have hle : i ≤ roundEven (x / (b : ℚ) ^ d) := by
    have hmono := roundEven_mono ((le_div_iff₀ hpos).mpr h)
    rwa [roundEven_intCast] at hmono
  exact mul_le_mul_of_nonneg_right (by exact_mod_cast hle) hpos.le

theorem roundAt_nonneg (hb : 1 < b) {q : ℚ} (hq : 0 ≤ q) : 0 ≤ roundAt b f q := by
  rcases hq.eq_or_lt with rfl | hpos
  · rw [roundAt_zero]
  · rw [roundAt_of_ne hpos.ne']
    have h := le_rounded (b := b) (d := f (Int.log b |q|)) (x := q) (i := 0) hb (by simpa using hq)
    simpa using h

/-- Positive numbers: either they have one grid, or a power of the base is between them. -/
theorem roundAt_mono_pos (hb : 1 < b) (hf : Coarsens f) {x y : ℚ} (hx : 0 < x) (h : x ≤ y) :
    roundAt b f x ≤ roundAt b f y := by
  have hy : 0 < y := hx.trans_le h
  have hlog : Int.log b x ≤ Int.log b y := Int.log_mono_right hx h
  rw [roundAt_of_ne hx.ne', roundAt_of_ne hy.ne', abs_of_pos hx, abs_of_pos hy]
  obtain ⟨hle, hsame | hpower⟩ := hf hlog
  · rw [hsame]
    have hpos : (0 : ℚ) < (b : ℚ) ^ f (Int.log b y) :=
      zpow_pos (by exact_mod_cast (by omega : 0 < b)) _
    have hmono := roundEven_mono ((div_le_div_iff_of_pos_right hpos).mpr h)
    exact mul_le_mul_of_nonneg_right (by exact_mod_cast hmono) hpos.le
  · rcases hlog.eq_or_lt with heq | hlt
    · rw [heq]
      have hpos : (0 : ℚ) < (b : ℚ) ^ f (Int.log b y) :=
        zpow_pos (by exact_mod_cast (by omega : 0 < b)) _
      have hmono := roundEven_mono ((div_le_div_iff_of_pos_right hpos).mpr h)
      exact mul_le_mul_of_nonneg_right (by exact_mod_cast hmono) hpos.le
    · have hbelow : x ≤ (b : ℚ) ^ Int.log b y := ((Int.lt_zpow_iff_log_lt hb hx).mpr hlt).le
      have habove : (b : ℚ) ^ Int.log b y ≤ y := Int.zpow_log_le_self hb hy
      obtain ⟨i, hi⟩ := power_multiple hb (hle.trans hpower)
      obtain ⟨j, hj⟩ := power_multiple hb hpower
      calc _ ≤ (b : ℚ) ^ Int.log b y := by rw [hi] at hbelow ⊢; exact rounded_le hb hbelow
        _ ≤ _ := by rw [hj] at habove ⊢; exact le_rounded hb habove

/-- Rounding keeps the order. -/
theorem roundAt_mono (hb : 1 < b) (hf : Coarsens f) : Monotone (roundAt b f) := by
  intro x y h
  rcases lt_trichotomy x 0 with hx | rfl | hx
  · rcases lt_or_ge y 0 with hy | hy
    · have hneg := roundAt_mono_pos hb hf (neg_pos.mpr hy) (neg_le_neg h)
      rw [roundAt_neg, roundAt_neg] at hneg
      linarith
    · have hneg := roundAt_nonneg (f := f) hb (neg_pos.mpr hx).le
      rw [roundAt_neg] at hneg
      have hpos := roundAt_nonneg (f := f) hb hy
      linarith
  · rw [roundAt_zero]
    exact roundAt_nonneg hb h
  · exact roundAt_mono_pos hb hf hx h

/-- A positive number whose unit is not larger than it is not rounded below the power of the base
    that it begins with. -/
theorem power_le_roundAt (hb : 1 < b) {q : ℚ} (hq : 0 < q) (hf : f (Int.log b q) ≤ Int.log b q) :
    (b : ℚ) ^ Int.log b q ≤ roundAt b f q := by
  have habove : (b : ℚ) ^ Int.log b q ≤ q := Int.zpow_log_le_self hb hq
  obtain ⟨i, hi⟩ := power_multiple hb hf
  rw [roundAt_of_ne hq.ne', abs_of_pos hq]
  rw [hi] at habove ⊢
  exact le_rounded hb habove

end

/-! ### Binary formats and decimal digits -/

theorem roundBinary_eq (p : ℕ) (emin : ℤ) (q : ℚ) :
    roundBinary p emin q = roundAt 2 (fun e => max (e - (p - 1)) emin) q := by
  simp only [roundBinary, roundAt]
  rfl

theorem coarsens_binary {p : ℕ} (hp : 1 ≤ p) (emin : ℤ) :
    Coarsens fun e => max (e - (p - 1)) emin := by
  intro d e h
  have hp' : (1 : ℤ) ≤ p := by exact_mod_cast hp
  dsimp only
  omega

theorem roundBinary_mono {p : ℕ} (hp : 1 ≤ p) (emin : ℤ) : Monotone (roundBinary p emin) := by
  intro x y h
  rw [roundBinary_eq, roundBinary_eq]
  exact roundAt_mono (by decide) (coarsens_binary hp emin) h

theorem roundBinary_zero (p : ℕ) (emin : ℤ) : roundBinary p emin 0 = 0 := if_pos rfl

theorem roundBinary_neg (p : ℕ) (emin : ℤ) (q : ℚ) :
    roundBinary p emin (-q) = -roundBinary p emin q := by
  rw [roundBinary_eq, roundBinary_eq, roundAt_neg]

/-- A multiple of the unit between two powers of two is one of the numbers of a format. -/
theorem roundBinary_exact {p : ℕ} {emin : ℤ} {q : ℚ} {e i : ℤ} (hlo : (2 : ℚ) ^ e ≤ q)
    (hhi : q < (2 : ℚ) ^ (e + 1)) (h : q = i * 2 ^ max (e - (p - 1)) emin) :
    roundBinary p emin q = q := by
  have hpos : 0 < q := (zpow_pos (by norm_num) e).trans_le hlo
  have hlog : Int.log 2 |q| = e := by
    rw [abs_of_pos hpos]
    refine le_antisymm (Int.lt_add_one_iff.mp ?_) ?_
    · rw [← Int.lt_zpow_iff_log_lt (by decide) hpos]
      exact_mod_cast hhi
    · rw [← Int.zpow_le_iff_le_log (by decide) hpos]
      exact_mod_cast hlo
  rw [roundBinary_eq]
  refine roundAt_multiple (i := i) (by decide) ?_
  rw [hlog]
  exact_mod_cast h

/-- What is not rounded to zero is not smaller than the smallest unit. -/
theorem le_abs_roundBinary {p : ℕ} {emin : ℤ} {q : ℚ} (h : roundBinary p emin q ≠ 0) :
    (2 : ℚ) ^ emin ≤ |roundBinary p emin q| := by
  by_cases hq : q = 0
  · rw [hq, roundBinary_zero] at h
    exact absurd rfl h
  · rw [roundBinary_eq, roundAt_of_ne hq] at h ⊢
    push_cast at h ⊢
    have hunit : (2 : ℚ) ^ emin ≤ 2 ^ max (Int.log 2 |q| - (p - 1)) emin :=
      zpow_le_zpow_right₀ (by norm_num) (le_max_right _ _)
    have hpos : (0 : ℚ) < 2 ^ max (Int.log 2 |q| - (p - 1)) emin := zpow_pos (by norm_num) _
    have hne := left_ne_zero_of_mul h
    generalize hn : roundEven (q / 2 ^ max (Int.log 2 |q| - (p - 1)) emin) = n at hne
    have hone : (1 : ℚ) ≤ |(n : ℚ)| := by
      have hint : n ≠ 0 := fun hzero => hne (by rw [hzero, Int.cast_zero])
      exact_mod_cast Int.one_le_abs hint
    rw [abs_mul, abs_of_pos hpos]
    calc (2 : ℚ) ^ emin ≤ 1 * 2 ^ max (Int.log 2 |q| - (p - 1)) emin := by rwa [one_mul]
      _ ≤ _ := mul_le_mul_of_nonneg_right hone hpos.le

/-- A power of two that is not below the smallest unit is on the grid. -/
theorem roundBinary_power {p : ℕ} (hp : 1 ≤ p) {emin e : ℤ} (he : emin ≤ e) :
    roundBinary p emin ((2 : ℚ) ^ e) = 2 ^ e := by
  have hp' : (1 : ℤ) ≤ p := by exact_mod_cast hp
  have hpos : (0 : ℚ) < 2 ^ e := zpow_pos (by norm_num) e
  have hlog : Int.log 2 |(2 : ℚ) ^ e| = e := by
    rw [abs_of_pos hpos]
    exact_mod_cast Int.log_zpow (R := ℚ) (b := 2) (by decide) e
  obtain ⟨i, hi⟩ := power_multiple (b := 2) (d := max (e - (p - 1)) emin) (e := e) (by decide)
    (by omega)
  rw [roundBinary_eq]
  refine roundAt_multiple (i := i) (by decide) ?_
  rw [hlog]
  exact_mod_cast hi

/-- Below a power of two the numbers of a format end one unit in front of it. -/
theorem roundBinary_le_of_lt {p : ℕ} (hp : 1 ≤ p) {emin e : ℤ} (he : emin ≤ e - p) {q : ℚ}
    (h : roundBinary p emin q < 2 ^ e) : roundBinary p emin q ≤ 2 ^ e - 2 ^ (e - p) := by
  have hp' : (1 : ℤ) ≤ p := by exact_mod_cast hp
  have hhalf : (2 : ℚ) ^ e = 2 * 2 ^ (e - 1) := by
    rw [← zpow_one_add₀ (by norm_num)]
    congr 1
    omega
  have hlast : (2 : ℚ) ^ (e - p) ≤ 2 ^ (e - 1) := zpow_le_zpow_right₀ (by norm_num) (by omega)
  rcases le_or_gt q (2 ^ (e - 1)) with hq | hq
  · have hmono := roundBinary_mono hp emin hq
    rw [roundBinary_power hp (by omega)] at hmono
    linarith
  · have hpos : 0 < q := (zpow_pos (by norm_num) (e - 1)).trans hq
    have hlog : e - 1 ≤ Int.log 2 q := by
      rw [← Int.zpow_le_iff_le_log (by decide) hpos]
      exact_mod_cast hq.le
    obtain ⟨i, hi⟩ := power_multiple (b := 2) (d := e - p)
      (e := max (Int.log 2 q - (p - 1)) emin) (by decide) (by omega)
    rw [roundBinary_eq, roundAt_of_ne hpos.ne', abs_of_pos hpos, hi] at h ⊢
    push_cast at h ⊢
    rw [← mul_assoc] at h ⊢
    generalize roundEven _ = r at h ⊢
    have hinteger : (r : ℚ) * (i : ℚ) = ((r * i : ℤ) : ℚ) := by push_cast; rfl
    rw [hinteger] at h ⊢
    generalize r * i = j at h ⊢
    have hunit : (0 : ℚ) < 2 ^ (e - p) := zpow_pos (by norm_num) _
    have hpower : (2 : ℚ) ^ e = ((2 ^ p : ℤ) : ℚ) * 2 ^ (e - p) := by
      push_cast
      rw [← zpow_natCast, ← zpow_add₀ (by norm_num)]
      congr 1
      omega
    rw [hpower] at h ⊢
    have hlt : j < 2 ^ p := by exact_mod_cast lt_of_mul_lt_mul_right h hunit.le
    have hle : (j : ℚ) ≤ ((2 ^ p : ℤ) : ℚ) - 1 := by exact_mod_cast Int.le_sub_one_of_lt hlt
    calc (j : ℚ) * 2 ^ (e - p) ≤ (((2 ^ p : ℤ) : ℚ) - 1) * 2 ^ (e - p) :=
          mul_le_mul_of_nonneg_right hle hunit.le
      _ = _ := by ring

/-- So many significant decimal digits. -/
def roundDigits (p : ℕ) (q : ℚ) : ℚ := roundAt 10 (fun e => e - (p - 1)) q

theorem coarsens_digits {p : ℕ} (hp : 1 ≤ p) : Coarsens fun e => e - (p - 1) := by
  intro d e h
  have hp' : (1 : ℤ) ≤ p := by exact_mod_cast hp
  dsimp only
  omega

theorem roundDigits_mono {p : ℕ} (hp : 1 ≤ p) : Monotone (roundDigits p) := by
  intro x y h
  unfold roundDigits
  exact roundAt_mono (by decide) (coarsens_digits hp) h

theorem roundDigits_neg (p : ℕ) (q : ℚ) : roundDigits p (-q) = -roundDigits p q := roundAt_neg q

/-- Rounding a positive number to decimal digits does not leave less than a tenth of it. -/
theorem lt_roundDigits {p : ℕ} (hp : 1 ≤ p) {q : ℚ} (hq : 0 < q) : q < 10 * roundDigits p q := by
  have hp' : (1 : ℤ) ≤ p := by exact_mod_cast hp
  have hlt : q < (10 : ℚ) ^ (Int.log 10 q + 1) := by
    have := Int.lt_zpow_succ_log_self (b := 10) (by decide) q
    exact_mod_cast this
  have hle := power_le_roundAt (b := 10) (f := fun e => e - (p - 1)) (by decide) hq (by omega)
  rw [zpow_add_one₀ (by norm_num)] at hlt
  push_cast at hle
  unfold roundDigits
  linarith

/-- The digits of a number between two powers of ten. -/
theorem roundDigits_at {p : ℕ} {q : ℚ} {e n : ℤ} (hlo : (10 : ℚ) ^ e ≤ q)
    (hhi : q < (10 : ℚ) ^ (e + 1)) (hnear : |q / 10 ^ (e - (p - 1)) - n| < 1 / 2) :
    roundDigits p q = n * 10 ^ (e - (p - 1)) := by
  have hpos : 0 < q := (zpow_pos (by norm_num) e).trans_le hlo
  have hlog : Int.log 10 q = e := by
    refine le_antisymm (Int.lt_add_one_iff.mp ?_) ?_
    · rw [← Int.lt_zpow_iff_log_lt (by decide) hpos]
      exact_mod_cast hhi
    · rw [← Int.zpow_le_iff_le_log (by decide) hpos]
      exact_mod_cast hlo
  have hbase : ((10 : ℕ) : ℚ) = 10 := by norm_num
  rw [roundDigits, roundAt_of_ne hpos.ne', abs_of_pos hpos, hlog, hbase, roundEven_near hnear]

/-! ### Rounding again and again -/

/-- What keeps the order and comes back has not moved. -/
theorem fixed_of_iterate {α : Type*} [LinearOrder α] {F : α → α} (hF : Monotone F) {x : α} {n : ℕ}
    (hn : n ≠ 0) (h : F^[n] x = x) : F x = x := by
  obtain ⟨m, rfl⟩ := Nat.exists_eq_succ_of_ne_zero hn
  rcases le_total x (F x) with hup | hdown
  · have hle := Monotone.monotone_iterate_of_le_map hF hup (Nat.le_add_left 1 m)
    exact le_antisymm (by simpa [h] using hle) hup
  · have hle := Monotone.antitone_iterate_of_map_le hF hdown (Nat.le_add_left 1 m)
    exact le_antisymm hdown (by simpa [h] using hle)

end Json
end Lib
