import MediasoupClient.Lib.Rounding
import MediasoupClient.Sdp.SdpUtil
import Mathlib.Data.List.TakeWhile

/-! Numbers in the text of a parameter, as iostreams read and print them.

        text      [+-] digits [. digits] [e [+-] digits]      read up to the end of the text
        decimal   digits · 10 ^ exponent, with its sign

    A float is printed with six significant digits, without the zeros at the end. What is printed is
    read as the decimal of those six digits, in each of its three forms:

        d.ddddde±xx        e < -4 or 6 ≤ e
        0.000dddddd        e < 0
        ddd.ddd            otherwise -/

namespace MediasoupClient.Sdp
open Lib

/-! ### Reading -/

/-- Whether there is a minus, and what comes behind the sign. -/
def sign : List Char → Bool × List Char
  | '-' :: text => (true, text)
  | '+' :: text => (false, text)
  | text => (false, text)

/-- `[0-9]+`. -/
def isDigits (text : List Char) : Bool := !text.isEmpty && text.all Char.isDigit

/-- The integer of digits behind a sign. -/
def signedDecimal (text : List Char) : Option ℤ :=
  if isDigits (sign text).2 then
    some (if (sign text).1 then -(decimal (sign text).2 : ℤ) else decimal (sign text).2)
  else none

/-- `stream >> i` up to the end of the text, for an integer type of so many bits. -/
def readInteger (bits : ℕ) (text : List Char) : Option ℤ :=
  (signedDecimal text).filter fun i => -2 ^ (bits - 1) ≤ i ∧ i < 2 ^ (bits - 1)

/-- The exponent that ends a decimal. -/
def readExponent : List Char → Option ℤ
  | [] => some 0
  | c :: text => if c = 'e' ∨ c = 'E' then signedDecimal text else none

/-- The digits behind a point, and what comes behind them. -/
def fraction : List Char → List Char × List Char
  | '.' :: text => (text.takeWhile Char.isDigit, text.dropWhile Char.isDigit)
  | text => ([], text)

/-- A decimal without a sign. -/
def readMagnitude (text : List Char) : Option ℚ :=
  let whole := text.takeWhile Char.isDigit
  let (frac, rest) := fraction (text.dropWhile Char.isDigit)
  if whole ++ frac = [] then none
  else (readExponent rest).map fun e => (decimal (whole ++ frac) : ℚ) / 10 ^ frac.length * 10 ^ e

/-- `stream >> f` up to the end of the text: the decimal, before it is rounded. -/
def readDecimal (text : List Char) : Option ℚ :=
  (readMagnitude (sign text).2).map fun q => if (sign text).1 then -q else q

/-! ### Digits -/

theorem decimal_append (xs ys : List Char) :
    decimal (xs ++ ys) = decimal xs * 10 ^ ys.length + decimal ys := by
  induction ys using List.reverseRecOn with
  | nil => simp [decimal]
  | append_singleton ys c ih =>
    have hstep : ∀ (zs : List Char) (c : Char),
        decimal (zs ++ [c]) = 10 * decimal zs + (c.toNat - 48) := fun zs c => by simp [decimal]
    rw [← List.append_assoc, hstep, hstep, ih, List.length_append, List.length_singleton, pow_succ]
    ring

theorem decimal_zeros (k : ℕ) : decimal (List.replicate k '0') = 0 := by
  induction k with
  | zero => rfl
  | succ k ih =>
    rw [List.replicate_succ', decimal_append, ih]
    rfl

theorem decimal_append_zeros (xs : List Char) (k : ℕ) :
    decimal (xs ++ List.replicate k '0') = decimal xs * 10 ^ k := by
  rw [decimal_append, decimal_zeros, List.length_replicate, Nat.add_zero]

theorem decimal_zeros_append (k : ℕ) (xs : List Char) :
    decimal (List.replicate k '0' ++ xs) = decimal xs := by
  rw [decimal_append, decimal_zeros, Nat.zero_mul, Nat.zero_add]

theorem isDigits_iff {text : List Char} :
    isDigits text = true ↔ text ≠ [] ∧ ∀ c ∈ text, c.isDigit = true := by
  simp [isDigits]

/-- A number as it is printed. -/
theorem toString_digits (n : ℕ) : isDigits (toString n).toList = true ∧
    decimal (toString n).toList = n := by
  have hlist : (toString n).toList = Nat.toDigits 10 n := Nat.toList_repr
  rw [hlist]
  refine ⟨isDigits_iff.mpr ⟨Nat.toDigits_ne_nil, fun c hc => ?_⟩, Nat.ofDigitChars_ten_toDigits⟩
  exact Nat.isDigit_of_mem_toDigits (by decide) (by decide) hc

theorem length_toString {n k : ℕ} (hlo : 10 ^ k ≤ n) (hhi : n < 10 ^ (k + 1)) :
    (toString n).toList.length = k + 1 := by
  have hlist : (toString n).toList = Nat.toDigits 10 n := Nat.toList_repr
  rw [hlist]
  have hle := (Nat.length_toDigits_le_iff (b := 10) (by decide) (Nat.succ_pos k)).mpr hhi
  rcases hle.eq_or_lt with heq | hlt
  · exact heq
  · cases k with
    | zero =>
      have hpos : 0 < (Nat.toDigits 10 n).length := Nat.length_toDigits_pos
      omega
    | succ k =>
      have hle' := (Nat.length_toDigits_le_iff (b := 10) (n := n) (by decide)
        (Nat.succ_pos k)).mp (Nat.lt_succ_iff.mp hlt)
      omega

/-! ### An integer is read back -/

theorem sign_digits {text : List Char} (h : isDigits text = true) : sign text = (false, text) := by
  obtain ⟨hne, hdigits⟩ := isDigits_iff.mp h
  cases text with
  | nil => exact absurd rfl hne
  | cons c cs =>
    have hc := hdigits c (List.mem_cons_self ..)
    unfold sign
    split
    · rename_i heq
      cases heq
      exact absurd hc (by decide)
    · rename_i heq
      cases heq
      exact absurd hc (by decide)
    · rfl

theorem signedDecimal_digits {text : List Char} (h : isDigits text = true) :
    signedDecimal text = some (decimal text : ℤ) := by
  simp [signedDecimal, sign_digits h, h]

theorem signedDecimal_minus {text : List Char} (h : isDigits text = true) :
    signedDecimal ('-' :: text) = some (-(decimal text : ℤ)) := by
  simp [signedDecimal, sign, h]

theorem signedDecimal_plus {text : List Char} (h : isDigits text = true) :
    signedDecimal ('+' :: text) = some (decimal text : ℤ) := by
  simp [signedDecimal, sign, h]

/-- An integer as it is printed. -/
theorem signedDecimal_toString (i : ℤ) : signedDecimal (toString i).toList = some i := by
  cases i with
  | ofNat n =>
    obtain ⟨hdigits, hvalue⟩ := toString_digits n
    have htext : toString (Int.ofNat n) = toString n := rfl
    rw [htext, signedDecimal_digits hdigits, hvalue]
    rfl
  | negSucc n =>
    obtain ⟨hdigits, hvalue⟩ := toString_digits (n + 1)
    have htext : (toString (Int.negSucc n)).toList = '-' :: (toString (n + 1)).toList := by
      change ("-" ++ toString (n + 1)).toList = _
      rw [String.toList_append]
      rfl
    rw [htext, signedDecimal_minus hdigits, hvalue]
    rfl

theorem readInteger_toString {bits : ℕ} {i : ℤ} (hlo : -2 ^ (bits - 1) ≤ i)
    (hhi : i < 2 ^ (bits - 1)) : readInteger bits (toString i).toList = some i := by
  rw [readInteger, signedDecimal_toString]
  simp [hlo, hhi]

/-! ### A decimal is read back -/

theorem takeWhile_digits {xs rest : List Char} (h : ∀ c ∈ xs, c.isDigit = true)
    (hrest : ∀ c ∈ rest.head?, c.isDigit = false) :
    (xs ++ rest).takeWhile Char.isDigit = xs ∧ (xs ++ rest).dropWhile Char.isDigit = rest := by
  have hstop : rest.takeWhile Char.isDigit = [] ∧ rest.dropWhile Char.isDigit = rest := by
    cases rest with
    | nil => exact ⟨rfl, rfl⟩
    | cons c cs => simp [hrest c rfl]
  rw [List.takeWhile_append_of_pos h, List.dropWhile_append_of_pos h, hstop.1, hstop.2,
    List.append_nil]
  exact ⟨rfl, rfl⟩

/-- Digits, a point and digits, and the exponent. -/
theorem readMagnitude_point {whole frac rest : List Char} (hwhole : ∀ c ∈ whole, c.isDigit = true)
    (hne : whole ≠ []) (hfrac : ∀ c ∈ frac, c.isDigit = true)
    (hrest : ∀ c ∈ rest.head?, c.isDigit = false) :
    readMagnitude (whole ++ '.' :: (frac ++ rest)) = (readExponent rest).map fun e =>
      (decimal (whole ++ frac) : ℚ) / 10 ^ frac.length * 10 ^ e := by
  have hpoint : ∀ c ∈ ('.' :: (frac ++ rest)).head?, c.isDigit = false := by
    intro c hc
    cases hc
    decide
  obtain ⟨htake, hdrop⟩ := takeWhile_digits hwhole hpoint
  obtain ⟨htake', hdrop'⟩ := takeWhile_digits hfrac hrest
  simp [readMagnitude, htake, hdrop, fraction, htake', hdrop', hne]

/-- Digits and the exponent. -/
theorem readMagnitude_whole {whole rest : List Char} (hwhole : ∀ c ∈ whole, c.isDigit = true)
    (hne : whole ≠ []) (hrest : ∀ c ∈ rest.head?, c.isDigit = false ∧ c ≠ '.') :
    readMagnitude (whole ++ rest) = (readExponent rest).map fun e =>
      (decimal whole : ℚ) * 10 ^ e := by
  obtain ⟨htake, hdrop⟩ := takeWhile_digits hwhole fun c hc => (hrest c hc).1
  have hfraction : fraction rest = ([], rest) := by
    unfold fraction
    split
    · exact absurd rfl (hrest '.' rfl).2
    · rfl
  simp [readMagnitude, htake, hdrop, hfraction, hne]

theorem signedDecimal_some {text : List Char} {i : ℤ} (h : signedDecimal text = some i) :
    isDigits (sign text).2 = true ∧
      i = if (sign text).1 then -(decimal (sign text).2 : ℤ) else decimal (sign text).2 := by
  unfold signedDecimal at h
  by_cases hdigits : isDigits (sign text).2 = true
  · rw [if_pos hdigits] at h
    exact ⟨hdigits, (Option.some.inj h).symm⟩
  · rw [if_neg hdigits] at h
    cases h

/-- The text of an integer is the one of a decimal, too. -/
theorem readDecimal_of_integer {text : List Char} {i : ℤ} (h : signedDecimal text = some i) :
    readDecimal text = some (i : ℚ) := by
  obtain ⟨hdigits, rfl⟩ := signedDecimal_some h
  obtain ⟨hne, hall⟩ := isDigits_iff.mp hdigits
  have hread : readMagnitude ((sign text).2 ++ []) = _ :=
    readMagnitude_whole hall hne fun c hc => by cases hc
  rw [List.append_nil] at hread
  rw [readDecimal, hread]
  simp only [readExponent, Option.map_some, zpow_zero, mul_one]
  split_ifs <;> push_cast <;> rfl

/-- Digits without the zeros at the end have the same value. -/
theorem readMagnitude_trimZeros {whole frac rest : List Char}
    (hwhole : ∀ c ∈ whole, c.isDigit = true) (hne : whole ≠ [])
    (hfrac : ∀ c ∈ frac, c.isDigit = true)
    (hrest : ∀ c ∈ rest.head?, c.isDigit = false ∧ c ≠ '.') :
    readMagnitude ((Json.trimZeros whole frac).toList ++ rest) = (readExponent rest).map fun e =>
      (decimal (whole ++ frac) : ℚ) / 10 ^ frac.length * 10 ^ e := by
  obtain ⟨k, hk⟩ : ∃ k, frac =
      (frac.reverse.dropWhile (· = '0')).reverse ++ List.replicate k '0' := by
    have hsplit := congrArg List.reverse
      (List.takeWhile_append_dropWhile (p := fun c => decide (c = '0')) (l := frac.reverse))
    rw [List.reverse_append, List.reverse_reverse] at hsplit
    refine ⟨(frac.reverse.takeWhile (· = '0')).length, hsplit.symm.trans ?_⟩
    congr 1
    refine List.eq_replicate_iff.mpr ⟨List.length_reverse, fun c hc => ?_⟩
    have hzero := List.mem_takeWhile_imp (p := fun a => decide (a = '0')) (List.mem_reverse.mp hc)
    exact of_decide_eq_true hzero
  generalize hkept : (frac.reverse.dropWhile (· = '0')).reverse = kept at hk
  have hvalue : (decimal (whole ++ frac) : ℚ) / 10 ^ frac.length =
      decimal (whole ++ kept) / 10 ^ kept.length := by
    rw [hk, ← List.append_assoc, decimal_append_zeros, List.length_append, List.length_replicate,
      pow_add]
    push_cast
    field_simp
  have hdigits : ∀ c ∈ kept, c.isDigit = true := fun c hc =>
    hfrac c (hk ▸ List.mem_append_left _ hc)
  rw [hvalue]
  simp only [Json.trimZeros]
  rw [hkept]
  cases kept with
  | nil =>
    rw [String.toList_ofList, readMagnitude_whole hwhole hne hrest, List.append_nil]
    simp
  | cons c cs =>
    have htext : (String.ofList whole ++ "." ++ String.ofList (c :: cs)).toList ++ rest =
        whole ++ '.' :: ((c :: cs) ++ rest) := by
      simp
    rw [htext, readMagnitude_point hwhole hne hdigits fun c hc => (hrest c hc).1]

/-! ### Six digits -/

/-- How the six digits of `n · 10 ^ (e - 5)` are printed. -/
def sixDigits (e : ℤ) (n : ℕ) : String :=
  let digits := (toString n).toList
  if e < -4 ∨ 6 ≤ e then
    Json.trimZeros (digits.take 1) (digits.drop 1) ++ (if e < 0 then "e-" else "e+") ++
      (if e.natAbs < 10 then "0" else "") ++ toString e.natAbs
  else if e < 0 then Json.trimZeros ['0'] (List.replicate (e.natAbs - 1) '0' ++ digits)
  else Json.trimZeros (digits.take (e.toNat + 1)) (digits.drop (e.toNat + 1))

/-- The exponent, of two digits at least. -/
theorem readExponent_padded (e : ℤ) :
    readExponent (((if e < 0 then "e-" else "e+") ++ (if e.natAbs < 10 then "0" else "") ++
      toString e.natAbs : String).toList) = some e := by
  obtain ⟨hdigits, hvalue⟩ := toString_digits e.natAbs
  obtain ⟨zeros, hzeros⟩ : ∃ k, (if e.natAbs < 10 then "0" else "" : String).toList =
      List.replicate k '0' := by
    split_ifs
    · exact ⟨1, rfl⟩
    · exact ⟨0, rfl⟩
  have hpadded : isDigits (List.replicate zeros '0' ++ (toString e.natAbs).toList) = true := by
    obtain ⟨hne, hall⟩ := isDigits_iff.mp hdigits
    refine isDigits_iff.mpr ⟨List.append_ne_nil_of_right_ne_nil _ hne, fun c hc => ?_⟩
    rcases List.mem_append.mp hc with hc | hc
    · rw [(List.mem_replicate.mp hc).2]
      decide
    · exact hall c hc
  have hnumber : decimal (List.replicate zeros '0' ++ (toString e.natAbs).toList) = e.natAbs := by
    rw [decimal_zeros_append, hvalue]
  rw [String.toList_append, String.toList_append, hzeros, List.append_assoc]
  split_ifs with he
  · have htext : ("e-" : String).toList = ['e', '-'] := rfl
    rw [htext]
    simp only [List.cons_append, List.nil_append, readExponent, true_or, if_true]
    rw [signedDecimal_minus hpadded, hnumber]
    congr 1
    omega
  · have htext : ("e+" : String).toList = ['e', '+'] := rfl
    rw [htext]
    simp only [List.cons_append, List.nil_append, readExponent, true_or, if_true]
    rw [signedDecimal_plus hpadded, hnumber]
    congr 1
    omega

theorem readMagnitude_sixDigits (e : ℤ) {n : ℕ} (hlo : 10 ^ 5 ≤ n) (hhi : n < 10 ^ 6) :
    readMagnitude (sixDigits e n).toList = some ((n : ℚ) * 10 ^ (e - 5)) := by
  obtain ⟨hdigits, hvalue⟩ := toString_digits n
  have hlength : (toString n).toList.length = 6 := length_toString hlo hhi
  generalize hds : (toString n).toList = digits at hdigits hvalue hlength
  obtain ⟨hne, hall⟩ := isDigits_iff.mp hdigits
  have htake : ∀ k, ∀ c ∈ digits.take k, c.isDigit = true := fun k c hc =>
    hall c (List.mem_of_mem_take hc)
  have hdrop : ∀ k, ∀ c ∈ digits.drop k, c.isDigit = true := fun k c hc =>
    hall c (List.mem_of_mem_drop hc)
  have hnonempty : ∀ k, digits.take (k + 1) ≠ [] := fun k hnil => by
    have := congrArg List.length hnil
    simp [hlength] at this
  have hnil : ∀ c ∈ ([] : List Char).head?, c.isDigit = false ∧ c ≠ '.' := fun c hc => by cases hc
  have hscale : ∀ {k : ℕ}, (k : ℤ) = 5 - e →
      (n : ℚ) / 10 ^ k * 10 ^ (0 : ℤ) = (n : ℚ) * 10 ^ (e - 5) := fun {k} hk => by
    have hexp : e - 5 = -(k : ℤ) := by omega
    rw [hexp, zpow_zero, mul_one, zpow_neg, zpow_natCast, div_eq_mul_inv]
  simp only [sixDigits]
  rw [hds]
  by_cases hsci : e < -4 ∨ 6 ≤ e
  · rw [if_pos hsci]
    have hrest : ∀ c ∈ ((if e < 0 then "e-" else "e+") ++ (if e.natAbs < 10 then "0" else "") ++
        toString e.natAbs : String).toList.head?, c.isDigit = false ∧ c ≠ '.' := by
      intro c hc
      have hfirst : c = 'e' := by
        split_ifs at hc <;> simpa [eq_comm] using hc
      rw [hfirst]
      decide
    rw [String.append_assoc, String.append_assoc, String.toList_append, ← String.append_assoc,
      readMagnitude_trimZeros (htake 1) (hnonempty 0) (hdrop 1) hrest, readExponent_padded,
      List.take_append_drop, hvalue, List.length_drop, hlength]
    have hexp : e - 5 = e + -5 := rfl
    simp only [Option.map_some, hexp]
    rw [zpow_add₀ (by norm_num)]
    norm_num
    ring
  rw [if_neg hsci]
  by_cases hneg : e < 0
  · rw [if_pos hneg]
    have hfrac : ∀ c ∈ List.replicate (e.natAbs - 1) '0' ++ digits, c.isDigit = true := by
      intro c hc
      rcases List.mem_append.mp hc with hc | hc
      · rw [(List.mem_replicate.mp hc).2]
        decide
      · exact hall c hc
    have hzero : ∀ c ∈ ['0'], c.isDigit = true := by simp
    have hread := readMagnitude_trimZeros hzero (List.cons_ne_nil _ _) hfrac hnil
    rw [List.append_nil] at hread
    have hnumber : decimal (['0'] ++ (List.replicate (e.natAbs - 1) '0' ++ digits)) = n := by
      rw [decimal_append, decimal_zeros_append, hvalue]
      simp [decimal]
    rw [hread, hnumber, List.length_append, List.length_replicate, hlength]
    simp only [readExponent, Option.map_some]
    rw [hscale (by omega)]
  · rw [if_neg hneg]
    have hread := readMagnitude_trimZeros (htake (e.toNat + 1)) (hnonempty _) (hdrop (e.toNat + 1))
      hnil
    rw [List.append_nil] at hread
    rw [hread, List.take_append_drop, hvalue, List.length_drop, hlength]
    simp only [readExponent, Option.map_some]
    rw [hscale (by omega)]

/-- A positive float is printed by its six digits. -/
theorem printPositive_eq {q : ℚ} (hq : 0 < q) : ∃ (e : ℤ) (n : ℕ), 10 ^ 5 ≤ n ∧ n < 10 ^ 6 ∧
    Json.printPositive q = sixDigits e n ∧ Json.roundDigits 6 q = (n : ℚ) * 10 ^ (e - 5) := by
  have hlo : (10 : ℚ) ^ Int.log 10 q ≤ q := by
    exact_mod_cast Int.zpow_log_le_self (b := 10) (by decide) hq
  have hhi : q < (10 : ℚ) ^ (Int.log 10 q + 1) := by
    exact_mod_cast Int.lt_zpow_succ_log_self (b := 10) (by decide) q
  generalize he : Int.log 10 q = e at hlo hhi
  have hten : (0 : ℚ) < 10 ^ (5 - e) := zpow_pos (by norm_num) _
  have hdigits : Json.roundDigits 6 q =
      (Json.roundEven (q * 10 ^ (5 - e)) : ℚ) * 10 ^ (e - 5) := by
    have hdiv : q / 10 ^ (e - 5) = q * 10 ^ (5 - e) := by
      rw [div_eq_mul_inv, ← zpow_neg, neg_sub]
    have hunit : e - (((6 : ℕ) : ℤ) - 1) = e - 5 := by norm_num
    have hbase : ((10 : ℕ) : ℚ) = 10 := by norm_num
    rw [Json.roundDigits, Json.roundAt_of_ne hq.ne', abs_of_pos hq, he, hunit, hbase, hdiv]
  have hscaled : (((10 : ℤ) ^ 5 : ℤ) : ℚ) ≤ q * 10 ^ (5 - e) ∧
      q * 10 ^ (5 - e) ≤ (((10 : ℤ) ^ 6 : ℤ) : ℚ) := by
    have hfive : (((10 : ℤ) ^ 5 : ℤ) : ℚ) = 10 ^ e * 10 ^ (5 - e) := by
      rw [← zpow_add₀ (by norm_num)]
      norm_num
    have hsix : (((10 : ℤ) ^ 6 : ℤ) : ℚ) = 10 ^ (e + 1) * 10 ^ (5 - e) := by
      rw [← zpow_add₀ (by norm_num), show e + 1 + (5 - e) = 6 by ring]
      norm_num
    rw [hfive, hsix]
    exact ⟨mul_le_mul_of_nonneg_right hlo hten.le, mul_le_mul_of_nonneg_right hhi.le hten.le⟩
  have hmin := Json.roundEven_mono hscaled.1
  have hmax := Json.roundEven_mono hscaled.2
  rw [Json.roundEven_intCast] at hmin hmax
  generalize hn : Json.roundEven (q * 10 ^ (5 - e)) = n at hdigits hmin hmax
  by_cases hcarry : n = 10 ^ 6
  · -- the six digits are carried into a seventh
    refine ⟨e + 1, 10 ^ 5, le_refl _, by norm_num, ?_, ?_⟩
    · simp only [Json.printPositive, he, hn, hcarry, if_true]
      rfl
    · rw [hdigits, hcarry, show e + 1 - 5 = (e - 5) + 1 by ring, zpow_add_one₀ (by norm_num)]
      norm_num
      ring
  · obtain ⟨m, rfl⟩ := Int.eq_ofNat_of_zero_le (show 0 ≤ n by omega)
    refine ⟨e, m, by omega, by omega, ?_, hdigits⟩
    simp only [Json.printPositive, he, hn, if_neg hcarry]
    rfl

/-- What is printed is read as the decimal of these digits. -/
theorem readMagnitude_printPositive {q : ℚ} (hq : 0 < q) :
    readMagnitude (Json.printPositive q).toList = some (Json.roundDigits 6 q) := by
  obtain ⟨e, n, hlo, hhi, hprint, hdigits⟩ := printPositive_eq hq
  rw [hprint, hdigits, readMagnitude_sixDigits e hlo hhi]

/-- What a float is printed as: its single precision, with six significant digits. -/
def shortened (q : ℚ) : ℚ := Json.roundDigits 6 (Json.roundBinary 24 (-149) q)

theorem readMagnitude_minus (text : List Char) : readMagnitude ('-' :: text) = none := by
  simp [readMagnitude, fraction, show Char.isDigit '-' = false from rfl]

/-- A finite float is read back as what it is printed as. -/
theorem readDecimal_printFloat {q : ℚ} (h : |Json.roundBinary 24 (-149) q| < 2 ^ 128) :
    readDecimal (Json.printFloat q).toList = some (shortened q) := by
  unfold shortened
  simp only [Json.printFloat]
  generalize Json.roundBinary 24 (-149) q = f at h
  by_cases hzero : f = 0
  · rw [if_pos hzero, hzero, Json.roundDigits, Json.roundAt_zero]
    exact readDecimal_of_integer (i := 0) rfl
  · have hread := readMagnitude_printPositive (abs_pos.mpr hzero)
    rw [if_neg hzero, if_neg (not_le.mpr h)]
    by_cases hneg : f < 0
    · have htext : ("-" ++ Json.printPositive |f|).toList =
          '-' :: (Json.printPositive |f|).toList := by
        rw [String.toList_append]
        rfl
      rw [if_pos hneg, htext]
      simp only [readDecimal, sign]
      rw [hread, abs_of_neg hneg, Json.roundDigits_neg]
      simp
    · have hsign : sign (Json.printPositive |f|).toList =
          (false, (Json.printPositive |f|).toList) := by
        unfold sign
        split
        · rename_i text heq
          rw [heq, readMagnitude_minus] at hread
          cases hread
        · rename_i text heq
          rw [heq] at hread
          simp [readMagnitude, fraction, show Char.isDigit '+' = false from rfl] at hread
        · rfl
      rw [if_neg hneg, String.empty_append]
      simp only [readDecimal, hsign]
      rw [hread, abs_of_nonneg (not_lt.mp hneg)]
      rfl

/-! ### What a number looks like -/

theorem sign_cases (text : List Char) : text = (sign text).2 ∨
    (∃ c, (c = '-' ∨ c = '+') ∧ text = c :: (sign text).2) := by
  unfold sign
  split
  · exact Or.inr ⟨'-', Or.inl rfl, rfl⟩
  · exact Or.inr ⟨'+', Or.inr rfl, rfl⟩
  · exact Or.inl rfl

/-- The characters that numbers are made of. -/
def isNumberChar (c : Char) : Bool := c.isDigit || ['+', '-', '.', 'e', 'E'].contains c

theorem numberChar_sign {text : List Char} (h : ∀ c ∈ (sign text).2, isNumberChar c = true) :
    ∀ c ∈ text, isNumberChar c = true := by
  rcases sign_cases text with heq | ⟨c, hc, heq⟩
  · rw [heq]
    exact h
  · rw [heq]
    refine List.forall_mem_cons.mpr ⟨?_, h⟩
    rcases hc with rfl | rfl <;> decide

theorem isNumberChar_digit {c : Char} (h : c.isDigit = true) : isNumberChar c = true := by
  simp [isNumberChar, h]

theorem numberChar_exponent {text : List Char} {e : ℤ} (h : readExponent text = some e) :
    ∀ c ∈ text, isNumberChar c = true := by
  cases text with
  | nil => exact fun c hc => absurd hc List.not_mem_nil
  | cons c text =>
    rw [readExponent] at h
    split_ifs at h with hc
    obtain ⟨hdigits, -⟩ := signedDecimal_some h
    obtain ⟨-, hall⟩ := isDigits_iff.mp hdigits
    refine List.forall_mem_cons.mpr ⟨?_, numberChar_sign fun d hd => isNumberChar_digit (hall d hd)⟩
    rcases hc with rfl | rfl <;> decide

theorem fraction_cases (text : List Char) : (fraction text).1 ++ (fraction text).2 = text ∨
    '.' :: ((fraction text).1 ++ (fraction text).2) = text := by
  unfold fraction
  split
  · exact Or.inr (by rw [List.takeWhile_append_dropWhile])
  · exact Or.inl rfl

theorem fraction_digits {text : List Char} : ∀ c ∈ (fraction text).1, c.isDigit = true := by
  unfold fraction
  split
  · exact fun c hc => List.mem_takeWhile_imp hc
  · exact fun c hc => absurd hc List.not_mem_nil

/-- What is read as a decimal is not empty, and made of such characters. -/
theorem numberChar_decimal {text : List Char} {q : ℚ} (h : readDecimal text = some q) :
    text ≠ [] ∧ ∀ c ∈ text, isNumberChar c = true := by
  obtain ⟨m, hm, -⟩ := Option.map_eq_some_iff.mp h
  constructor
  · rintro rfl
    cases hm
  · refine numberChar_sign fun c hc => ?_
    generalize (sign text).2 = text at hm hc
    simp only [readMagnitude] at hm
    split_ifs at hm
    obtain ⟨e, he, -⟩ := Option.map_eq_some_iff.mp hm
    rw [← List.takeWhile_append_dropWhile (p := Char.isDigit) (l := text)] at hc
    rcases List.mem_append.mp hc with hc | hc
    · exact isNumberChar_digit (List.mem_takeWhile_imp hc)
    · have hrest : ∀ c ∈ (fraction (text.dropWhile Char.isDigit)).1 ++
          (fraction (text.dropWhile Char.isDigit)).2, isNumberChar c = true := by
        intro c hc
        rcases List.mem_append.mp hc with hc | hc
        · exact isNumberChar_digit (fraction_digits c hc)
        · exact numberChar_exponent he c hc
      rcases fraction_cases (text.dropWhile Char.isDigit) with heq | heq
      · rw [← heq] at hc
        exact hrest c hc
      · rw [← heq] at hc
        rcases List.mem_cons.mp hc with rfl | hc
        · decide
        · exact hrest c hc

/-! ### What is read back again -/

/-- The largest float, and its six digits. -/
theorem roundDigits_largest :
    Json.roundDigits 6 (2 ^ (128 : ℤ) - 2 ^ (104 : ℤ)) = 340282 * 10 ^ (33 : ℤ) := by
  have hdigits := Json.roundDigits_at (p := 6) (q := 2 ^ (128 : ℤ) - 2 ^ (104 : ℤ)) (e := 38)
    (n := 340282) (by norm_num) (by norm_num) (by norm_num [abs_lt])
  rw [hdigits]
  norm_num

theorem roundBinary_largest : Json.roundBinary 24 (-149) (2 ^ (128 : ℤ) - 2 ^ (104 : ℤ)) =
    2 ^ (128 : ℤ) - 2 ^ (104 : ℤ) :=
  Json.roundBinary_exact (e := 127) (i := 2 ^ 24 - 1) (by norm_num) (by norm_num) (by norm_num)

/-- The six digits of a positive float stay in the range of floats. -/
theorem roundDigits_inRange {q : ℚ} (h : Json.roundBinary 24 (-149) q < 2 ^ (128 : ℤ)) :
    Json.roundBinary 24 (-149) (Json.roundDigits 6 (Json.roundBinary 24 (-149) q)) <
      2 ^ (128 : ℤ) := by
  have hle : Json.roundBinary 24 (-149) q ≤ 2 ^ (128 : ℤ) - 2 ^ ((128 : ℤ) - ((24 : ℕ) : ℤ)) :=
    Json.roundBinary_le_of_lt (by decide) (by norm_num) h
  have hmono := Json.roundDigits_mono (p := 6) (by decide) hle
  have hdigits : (340282 : ℚ) * 10 ^ (33 : ℤ) ≤ 2 ^ (128 : ℤ) - 2 ^ (104 : ℤ) := by norm_num
  have hexp : (128 : ℤ) - ((24 : ℕ) : ℤ) = 104 := by norm_num
  rw [hexp, roundDigits_largest] at hmono
  have hround := Json.roundBinary_mono (p := 24) (by decide) (-149) (hmono.trans hdigits)
  rw [roundBinary_largest] at hround
  have hlast : (0 : ℚ) < 2 ^ (104 : ℤ) := by norm_num
  linarith

/-- What is printed of a finite float is one again. -/
theorem shortened_finite {q : ℚ} (h : |Json.roundBinary 24 (-149) q| < 2 ^ 128) :
    |Json.roundBinary 24 (-149) (shortened q)| < 2 ^ 128 := by
  have hpower : ((2 : ℚ) ^ 128) = 2 ^ (128 : ℤ) := by norm_num
  rw [hpower] at h ⊢
  obtain ⟨hlo, hhi⟩ := abs_lt.mp h
  have hneg : Json.roundBinary 24 (-149) (-q) < 2 ^ (128 : ℤ) := by
    rw [Json.roundBinary_neg]
    linarith
  have hup := roundDigits_inRange hhi
  have hdown := roundDigits_inRange hneg
  rw [Json.roundBinary_neg, Json.roundDigits_neg, Json.roundBinary_neg] at hdown
  exact abs_lt.mpr ⟨by unfold shortened; linarith, hup⟩

/-- It is far from underflow as a double. -/
theorem le_abs_shortened {q : ℚ} (h : shortened q ≠ 0) : (2 : ℚ) ^ (-1022 : ℤ) ≤ |shortened q| := by
  unfold shortened at h ⊢
  by_cases hzero : Json.roundBinary 24 (-149) q = 0
  · rw [hzero, Json.roundDigits, Json.roundAt_zero] at h
    exact absurd rfl h
  · have hmin := Json.le_abs_roundBinary hzero
    generalize Json.roundBinary 24 (-149) q = f at hzero hmin
    have habs : |Json.roundDigits 6 f| = Json.roundDigits 6 |f| := by
      rcases abs_cases f with ⟨heq, hf⟩ | ⟨heq, hf⟩
      · rw [heq]
        exact abs_of_nonneg (Json.roundAt_nonneg (by decide) hf)
      · rw [heq, Json.roundDigits_neg]
        have hneg := Json.roundAt_nonneg (b := 10) (f := fun e => e - (((6 : ℕ) : ℤ) - 1)) (by decide)
          (neg_nonneg.mpr hf.le)
        rw [Json.roundAt_neg] at hneg
        exact abs_of_nonpos (neg_nonneg.mp hneg)
    have hlt := Json.lt_roundDigits (p := 6) (by decide) (abs_pos.mpr hzero)
    have hsmall : (2 : ℚ) ^ (-1022 : ℤ) ≤ 2 ^ (-153 : ℤ) :=
      zpow_le_zpow_right₀ (by norm_num) (by norm_num)
    have htenth : 10 * (2 : ℚ) ^ (-153 : ℤ) ≤ 2 ^ (-149 : ℤ) := by norm_num
    rw [habs]
    linarith

/-- A text with an exponent is not the one of an integer. -/
theorem not_integer_of_exponent {text : List Char} (h : 'e' ∈ text) : signedDecimal text = none := by
  cases hread : signedDecimal text with
  | none => rfl
  | some i =>
    obtain ⟨hdigits, -⟩ := signedDecimal_some hread
    obtain ⟨-, hall⟩ := isDigits_iff.mp hdigits
    have hmem : 'e' ∈ (sign text).2 := by
      rcases sign_cases text with heq | ⟨c, hc, heq⟩
      · rwa [← heq]
      · rw [heq] at h
        rcases List.mem_cons.mp h with rfl | h
        · rcases hc with hc | hc <;> cases hc
        · exact h
    exact absurd (hall 'e' hmem) (by decide)

/-- A float that is printed like an integer has at most six digits. -/
theorem printPositive_integer {q : ℚ} (hq : 0 < q) {i : ℤ}
    (h : signedDecimal (Json.printPositive q).toList = some i) : Json.roundDigits 6 q < 10 ^ 6 := by
  obtain ⟨e, n, -, hhi, hprint, hdigits⟩ := printPositive_eq hq
  by_cases hlarge : 6 ≤ e
  · have hexp : 'e' ∈ (Json.printPositive q).toList := by
      rw [hprint]
      simp only [sixDigits]
      rw [if_pos (Or.inr hlarge), if_neg (show ¬ e < 0 by omega)]
      simp [String.toList_append]
    rw [not_integer_of_exponent hexp] at h
    cases h
  · have hscale : (10 : ℚ) ^ (e - 5) ≤ 1 := by
      have hle := zpow_le_zpow_right₀ (a := (10 : ℚ)) (by norm_num) (show e - 5 ≤ 0 by omega)
      rwa [zpow_zero] at hle
    have hn : (n : ℚ) < 10 ^ 6 := by exact_mod_cast hhi
    rw [hdigits]
    calc (n : ℚ) * 10 ^ (e - 5) ≤ n * 1 := mul_le_mul_of_nonneg_left hscale (Nat.cast_nonneg n)
      _ < 10 ^ 6 := by rwa [mul_one]

theorem printFloat_integer {q : ℚ} (hfinite : |Json.roundBinary 24 (-149) q| < 2 ^ 128) {i : ℤ}
    (h : signedDecimal (Json.printFloat q).toList = some i) : (i : ℚ) = shortened q ∧
      |i| < 10 ^ 6 := by
  have hvalue : (i : ℚ) = shortened q := by
    have hread := readDecimal_of_integer h
    rw [readDecimal_printFloat hfinite] at hread
    exact (Option.some.inj hread).symm
  refine ⟨hvalue, ?_⟩
  suffices hlt : |(i : ℚ)| < 10 ^ 6 by exact_mod_cast hlt
  rw [hvalue]
  unfold shortened
  simp only [Json.printFloat] at h
  generalize Json.roundBinary 24 (-149) q = f at h hfinite
  by_cases hzero : f = 0
  · rw [hzero, Json.roundDigits, Json.roundAt_zero]
    norm_num
  rw [if_neg hzero, if_neg (not_le.mpr hfinite)] at h
  have hpos : 0 < |f| := abs_pos.mpr hzero
  have hnonneg : 0 ≤ Json.roundDigits 6 |f| := Json.roundAt_nonneg (by decide) hpos.le
  by_cases hneg : f < 0
  · have htext : ("-" ++ Json.printPositive |f|).toList =
        '-' :: (Json.printPositive |f|).toList := by
      rw [String.toList_append]
      rfl
    rw [if_pos hneg, htext] at h
    obtain ⟨hdigits, -⟩ := signedDecimal_some h
    have hlt := printPositive_integer hpos (signedDecimal_digits hdigits)
    rw [abs_of_neg hneg, Json.roundDigits_neg] at hlt hnonneg
    rw [abs_of_nonpos (by linarith)]
    exact hlt
  · rw [if_neg hneg, String.empty_append] at h
    have hlt := printPositive_integer hpos h
    rw [abs_of_nonneg (not_lt.mp hneg)] at hlt hnonneg
    rw [abs_of_nonneg hnonneg]
    exact hlt

end MediasoupClient.Sdp
