import MediasoupClient.Sdp.FmtpTurn

/-! Which values are read back as 0 or 1 (sdputil/sdputil.cpp, json/parser.cpp).

        decimal       six digits     as a double, and its six digits
        0.9999996     1
        0.9999994     0.999999       0.999999      always below 1
        1.000004      1
        1.000006      1.00001        1.00001       always above 1

    A value that is not printed as 0 or 1 the first time is not printed so later: next to 1, and to
    0, there are numbers that no rounding passes. -/

namespace MediasoupClient.Sdp
open Lib

/-! ### Numbers that no rounding passes -/

theorem roundDigits_below : Json.roundDigits 6 (1 - 2 ^ (-20 : ℤ)) = 999999 * 10 ^ (-6 : ℤ) := by
  have hdigits := Json.roundDigits_at (p := 6) (q := 1 - 2 ^ (-20 : ℤ)) (e := -1) (n := 999999)
    (by norm_num) (by norm_num) (by norm_num [abs_lt])
  rw [hdigits]
  norm_num

theorem roundDigits_above : Json.roundDigits 6 (1 + 2 ^ (-17 : ℤ)) = 100001 * 10 ^ (-5 : ℤ) := by
  have hdigits := Json.roundDigits_at (p := 6) (q := 1 + 2 ^ (-17 : ℤ)) (e := 0) (n := 100001)
    (by norm_num) (by norm_num) (by norm_num [abs_lt])
  rw [hdigits]
  norm_num

/-- The smallest positive float. -/
theorem roundDigits_least : Json.roundDigits 6 (2 ^ (-149 : ℤ)) = 140130 * 10 ^ (-50 : ℤ) := by
  have hdigits := Json.roundDigits_at (p := 6) (q := 2 ^ (-149 : ℤ)) (e := -45) (n := 140130)
    (by norm_num) (by norm_num) (by norm_num [abs_lt])
  rw [hdigits]
  norm_num

/-- A number of both formats with six digits of its own. -/
structure Between (c : ℚ) : Prop where
  float : Json.roundBinary 24 (-149) c = c
  double : Json.roundBinary 53 (-1074) c = c

theorem between_below : Between (1 - 2 ^ (-20 : ℤ)) :=
  ⟨Json.roundBinary_exact (e := -1) (i := (2 ^ 20 - 1) * 2 ^ 4) (by norm_num) (by norm_num)
      (by norm_num),
    Json.roundBinary_exact (e := -1) (i := (2 ^ 20 - 1) * 2 ^ 33) (by norm_num) (by norm_num)
      (by norm_num)⟩

theorem between_above : Between (1 + 2 ^ (-17 : ℤ)) :=
  ⟨Json.roundBinary_exact (e := 0) (i := (2 ^ 17 + 1) * 2 ^ 6) (by norm_num) (by norm_num)
      (by norm_num),
    Json.roundBinary_exact (e := 0) (i := (2 ^ 17 + 1) * 2 ^ 35) (by norm_num) (by norm_num)
      (by norm_num)⟩

theorem between_least : Between (2 ^ (-149 : ℤ)) :=
  ⟨Json.roundBinary_power (by decide) (by decide), Json.roundBinary_power (by decide) (by decide)⟩

/-- What is printed stays on its side of such a number when it is read back and printed again. -/
theorem Between.le {c : ℚ} (h : Between c) {q : ℚ} (hq : shortened q ≤ c) :
    shortened (throughText q) ≤ Json.roundDigits 6 c := by
  have hdouble := Json.roundBinary_mono (p := 53) (by decide) (-1074) hq
  rw [h.double] at hdouble
  have hfloat := Json.roundBinary_mono (p := 24) (by decide) (-149) hdouble
  rw [h.float] at hfloat
  exact Json.roundDigits_mono (by decide) hfloat

theorem Between.ge {c : ℚ} (h : Between c) {q : ℚ} (hq : c ≤ shortened q) :
    Json.roundDigits 6 c ≤ shortened (throughText q) := by
  have hdouble := Json.roundBinary_mono (p := 53) (by decide) (-1074) hq
  rw [h.double] at hdouble
  have hfloat := Json.roundBinary_mono (p := 24) (by decide) (-149) hdouble
  rw [h.float] at hfloat
  exact Json.roundDigits_mono (by decide) hfloat

/-! ### Six digits next to 0 and 1 -/

theorem shortened_nonpos {q : ℚ} (h : Json.roundBinary 24 (-149) q ≤ 0) : shortened q ≤ 0 := by
  have hmono := Json.roundDigits_mono (p := 6) (by decide) h
  rwa [Json.roundDigits, Json.roundDigits, Json.roundAt_zero] at hmono

theorem shortened_neg (q : ℚ) : shortened (-q) = -shortened q := by
  rw [shortened, shortened, Json.roundBinary_neg, Json.roundDigits_neg]

theorem throughText_neg (q : ℚ) : throughText (-q) = -throughText q := by
  rw [throughText, throughText, shortened_neg, Json.roundBinary_neg]

/-- The decimals of six digits around 1. -/
theorem sixDigits_around {x : ℚ} (hx : 0 < x) :
    (Json.roundDigits 6 x < 1 → Json.roundDigits 6 x ≤ 999999 * 10 ^ (-6 : ℤ)) ∧
      (1 < Json.roundDigits 6 x → 100001 * 10 ^ (-5 : ℤ) ≤ Json.roundDigits 6 x) ∧
      (Json.roundDigits 6 x = 1 → Json.printPositive x = "1") := by
  obtain ⟨e, n, hlo, hhi, hprint, hdigits⟩ := printPositive_eq hx
  have hlow : ((10 ^ 5 : ℕ) : ℚ) ≤ n := by exact_mod_cast hlo
  have hhigh : (n : ℚ) ≤ ((999999 : ℕ) : ℚ) := by exact_mod_cast Nat.le_of_lt_succ hhi
  push_cast at hlow hhigh
  rw [hdigits, hprint]
  have hunit : (0 : ℚ) < 10 ^ (e - 5) := zpow_pos (by norm_num) _
  rcases lt_trichotomy e 0 with he | rfl | he
  · -- below 1
    have hscale : (10 : ℚ) ^ (e - 5) ≤ 10 ^ (-6 : ℤ) :=
      zpow_le_zpow_right₀ (by norm_num) (by omega)
    have hle : (n : ℚ) * 10 ^ (e - 5) ≤ 999999 * 10 ^ (-6 : ℤ) :=
      mul_le_mul hhigh hscale hunit.le (by norm_num)
    have hlt : (999999 : ℚ) * 10 ^ (-6 : ℤ) < 1 := by norm_num
    refine ⟨fun _ => hle, fun h => ?_, fun h => ?_⟩
    · linarith
    · linarith
  · -- from 1 on, five digits behind the point
    have hscale : (10 : ℚ) ^ ((0 : ℤ) - 5) = 10 ^ (-5 : ℤ) := by norm_num
    have hpos : (0 : ℚ) < 10 ^ (-5 : ℤ) := by norm_num
    have hone : (1 : ℚ) = ((10 ^ 5 : ℕ) : ℚ) * 10 ^ (-5 : ℤ) := by norm_num
    rw [hscale]
    refine ⟨fun h => ?_, fun h => ?_, fun h => ?_⟩
    · rw [hone] at h
      have hlt : n < 10 ^ 5 := by exact_mod_cast lt_of_mul_lt_mul_right h hpos.le
      omega
    · rw [hone] at h
      have hlt : 10 ^ 5 < n := by exact_mod_cast lt_of_mul_lt_mul_right h hpos.le
      have hle : ((100001 : ℕ) : ℚ) ≤ n := by exact_mod_cast hlt
      push_cast at hle
      exact mul_le_mul_of_nonneg_right hle hpos.le
    · rw [hone] at h
      have heq : n = 10 ^ 5 := by exact_mod_cast mul_right_cancel₀ hpos.ne' h
      rw [heq]
      rfl
  · -- ten and more
    have hscale : (10 : ℚ) ^ (-4 : ℤ) ≤ 10 ^ (e - 5) :=
      zpow_le_zpow_right₀ (by norm_num) (by omega)
    have hge : (10 : ℚ) ^ 5 * 10 ^ (-4 : ℤ) ≤ n * 10 ^ (e - 5) :=
      mul_le_mul hlow hscale (by norm_num) (Nat.cast_nonneg n)
    have hten : (10 : ℚ) ^ 5 * 10 ^ (-4 : ℤ) = 10 := by norm_num
    rw [hten] at hge
    refine ⟨fun h => ?_, fun _ => ?_, fun h => ?_⟩
    · linarith
    · refine le_trans ?_ hge
      norm_num
    · linarith

/-! ### What comes back as 0 or 1 has been 0 or 1 -/

theorem shortened_below {q : ℚ} (h : shortened q < 1) : shortened (throughText q) < 1 := by
  have hle : shortened q ≤ 1 - 2 ^ (-20 : ℤ) := by
    by_cases hq : Json.roundBinary 24 (-149) q ≤ 0
    · refine (shortened_nonpos hq).trans ?_
      norm_num
    · refine ((sixDigits_around (not_le.mp hq)).1 h).trans ?_
      norm_num
  have hnext := between_below.le hle
  rw [roundDigits_below] at hnext
  refine hnext.trans_lt ?_
  norm_num

theorem shortened_above {q : ℚ} (h : 1 < shortened q) : 1 < shortened (throughText q) := by
  have hpos : 0 < Json.roundBinary 24 (-149) q := by
    by_contra hq
    have hle := shortened_nonpos (not_lt.mp hq)
    linarith
  have hge : 1 + 2 ^ (-17 : ℤ) ≤ shortened q := by
    refine le_trans ?_ ((sixDigits_around hpos).2.1 h)
    norm_num
  have hnext := between_above.ge hge
  rw [roundDigits_above] at hnext
  refine lt_of_lt_of_le ?_ hnext
  norm_num

theorem shortened_pos {q : ℚ} (h : 0 < shortened q) : 0 < shortened (throughText q) := by
  have hpos : 0 < Json.roundBinary 24 (-149) q := by
    by_contra hq
    exact absurd (shortened_nonpos (not_lt.mp hq)) (not_le.mpr h)
  have hleast := Json.le_abs_roundBinary hpos.ne'
  rw [abs_of_pos hpos] at hleast
  have hdigits := Json.roundDigits_mono (p := 6) (by decide) hleast
  rw [roundDigits_least] at hdigits
  have hge : (2 : ℚ) ^ (-149 : ℤ) ≤ shortened q := by
    refine le_trans ?_ hdigits
    norm_num
  have hnext := between_least.ge hge
  rw [roundDigits_least] at hnext
  refine lt_of_lt_of_le ?_ hnext
  norm_num

theorem shortened_flag {q : ℚ} {flag : ℤ} (hflag : flag = 0 ∨ flag = 1)
    (h : shortened (throughText q) = flag) : shortened q = flag := by
  rcases hflag with rfl | rfl
  · rw [Int.cast_zero] at h ⊢
    rcases lt_trichotomy (shortened q) 0 with hneg | hzero | hpos
    · have hnext : 0 < shortened (throughText (-q)) := by
        refine shortened_pos ?_
        rw [shortened_neg]
        exact neg_pos.mpr hneg
      rw [throughText_neg, shortened_neg, h, neg_zero] at hnext
      exact absurd hnext (lt_irrefl 0)
    · exact hzero
    · exact absurd (shortened_pos hpos) (by rw [h]; exact lt_irrefl 0)
  · rw [Int.cast_one] at h ⊢
    rcases lt_trichotomy (shortened q) 1 with hlt | hone | hgt
    · exact absurd (shortened_below hlt) (by rw [h]; exact lt_irrefl 1)
    · exact hone
    · exact absurd (shortened_above hgt) (by rw [h]; exact lt_irrefl 1)

/-- A value of 0 or 1 is printed as an integer. -/
theorem printFloat_flag {q : ℚ} {flag : ℤ} (hflag : flag = 0 ∨ flag = 1)
    (hfinite : |Json.roundBinary 24 (-149) q| < 2 ^ 128) (h : shortened q = flag) :
    signedDecimal (Json.printFloat q).toList = some flag := by
  rcases hflag with rfl | rfl
  · rw [shortened_eq_zero (by rw [h, Int.cast_zero])]
    rfl
  · rw [Int.cast_one] at h
    have hpos : 0 < Json.roundBinary 24 (-149) q := by
      by_contra hq
      have hle := shortened_nonpos (not_lt.mp hq)
      linarith
    have hprint : Json.printFloat q = "1" := by
      have hone := (sixDigits_around hpos).2.2 h
      simp only [Json.printFloat]
      rw [if_neg hpos.ne', if_neg (not_lt.mpr hpos.le), if_neg (not_le.mpr hfinite),
        abs_of_pos hpos, hone]
      rfl
    rw [hprint]
    rfl

/-- A double that is an integer of 0 or 1 in the end is one after the first turn. -/
theorem rereads_decimal_flag {flag : ℤ} (hflag : flag = 0 ∨ flag = 1) (n : ℕ) :
    ∀ q : ℚ, rereads (n + 1) (some (.float q)) = some (.int flag) →
      reread (.float q) = some (.int flag) := by
  induction n with
  | zero => exact fun _ h => h
  | succ n ih =>
    intro q h
    rw [rereads_first] at h
    by_cases hfinite : |Json.roundBinary 24 (-149) q| < 2 ^ 128
    · rw [reread, if_pos hfinite] at h ⊢
      cases hread : signedDecimal (Json.printFloat q).toList with
      | some i =>
        rw [hread] at h
        rw [rereads_integer] at h
        obtain ⟨-, hi⟩ := printFloat_integer hfinite hread
        obtain ⟨hlo, hhi⟩ := abs_lt.mp hi
        rwa [(bmod_eq_iff_fits i).mpr ⟨by omega, by omega⟩] at h
      | none =>
        -- the double that is read back is printed as the flag, so this one has been
        rw [hread] at h
        have hnext := ih (throughText q) h
        rw [reread] at hnext
        have hfinite' : |Json.roundBinary 24 (-149) (throughText q)| < 2 ^ 128 := by
          by_contra hlarge
          rw [if_neg hlarge] at hnext
          cases hnext
        rw [if_pos hfinite'] at hnext
        cases hread' : signedDecimal (Json.printFloat (throughText q)).toList with
        | none =>
          rw [hread'] at hnext
          cases hnext
        | some i =>
          rw [hread'] at hnext
          cases hnext
          obtain ⟨hvalue, -⟩ := printFloat_integer hfinite' hread'
          have hflagged := printFloat_flag hflag hfinite (shortened_flag hflag hvalue.symm)
          rw [hread] at hflagged
          cases hflagged
    · rw [reread, if_neg hfinite, rereads_text (printFloat_infinite_ne hfinite)] at h
      cases h

/-- Whether a value is 0 or 1 in the end is settled by the first turn. -/
theorem rereads_flag {pf : Platform} {param : String} {v : Json} (hv : ParamValue pf param v)
    {flag : ℤ} (hflag : flag = 0 ∨ flag = 1) (n : ℕ) :
    rereads (n + 1) (some v) = some (.int flag) ↔ reread v = some (.int flag) := by
  constructor
  · intro h
    cases hv with
    | text s _ _ =>
      by_cases hs : s = ""
      · rw [rereads_first, reread, if_pos hs, rereads_none] at h
        cases h
      · rw [rereads_text hs] at h
        cases h
    | number i _ =>
      rw [rereads_integer] at h
      exact h
    | decimal q _ => exact rereads_decimal_flag hflag n q h
  · intro h
    rw [rereads_first, h]
    cases n with
    | zero => rfl
    | succ n =>
      rw [rereads_integer, (bmod_eq_iff_fits flag).mpr (by omega)]

end MediasoupClient.Sdp
