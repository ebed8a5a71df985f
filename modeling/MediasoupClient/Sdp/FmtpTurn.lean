import MediasoupClient.Sdp.AnswerSection
import MediasoupClient.Sdp.CodecsMap
import MediasoupClient.Sdp.ParseParams

/-! The turn of one codec over a fmtp line (sdputil/sdputil.cpp, applyCodecParameters).

        a=fmtp:111 minptime=10;cbr;x=0.5
                     │        │    │
                     10       ""   0.5        read
                     10       cbr=  0.5       printed
                     10       –    0.5        read again

    Every turn reads the parameters and prints them, whether or not there is something to write into
    them. A value stays what it is if printing it and reading it does not change it; nothing is lost
    later that is not lost the first time. -/

namespace MediasoupClient.Sdp
open Lib

/-! ### Values that are read back again and again -/

/-- What is left of a value after so many turns. -/
def rereads (n : ℕ) (o : Option Json) : Option Json := (fun o => o.bind reread)^[n] o

/-- Values of one key that are equal, or both missing. -/
def SameValue : Option Json → Option Json → Prop
  | none, none => True
  | some v, some w => v.eqv w = true
  | _, _ => False

/-- The double that a double is read back as. -/
def throughText (q : ℚ) : ℚ := Json.roundBinary 53 (-1074) (shortened q)

/-- A value that printing does not change: a text that is not empty, an integer of 32 bits, or the
    double of a decimal of six digits in the range of a float. -/
def Lasting : Json → Prop
  | .str s => s ≠ ""
  | .int i => -2 ^ 31 ≤ i ∧ i < 2 ^ 31
  | .float q => |Json.roundBinary 24 (-149) q| < 2 ^ 128 ∧ throughText q = q
  | _ => True

theorem rereads_succ (n : ℕ) (o : Option Json) : rereads (n + 1) o = (rereads n o).bind reread :=
  Function.iterate_succ_apply' _ n o

theorem rereads_first (n : ℕ) (v : Json) : rereads (n + 1) (some v) = rereads n (reread v) :=
  Function.iterate_succ_apply _ n (some v)

theorem rereads_none (n : ℕ) : rereads n none = none := by
  induction n with
  | zero => rfl
  | succ n ih => rw [rereads_succ, ih, Option.bind_none]

theorem rereads_text {s : String} (hs : s ≠ "") (n : ℕ) :
    rereads n (some (.str s)) = some (.str s) := by
  induction n with
  | zero => rfl
  | succ n ih => rw [rereads_succ, ih, Option.bind_some, reread, if_neg hs]

theorem rereads_integer (i : ℤ) (n : ℕ) :
    rereads (n + 1) (some (.int i)) = some (.int (Int.bmod i (2 ^ 32))) := by
  induction n with
  | zero => rfl
  | succ n ih => rw [rereads_succ, ih, Option.bind_some, reread, Int.bmod_bmod]

theorem bmod_eq_iff_fits (i : ℤ) : Int.bmod i (2 ^ 32) = i ↔ -2 ^ 31 ≤ i ∧ i < 2 ^ 31 := by
  constructor
  · intro h
    have hlo := Int.le_bmod (x := i) (m := 2 ^ 32) (by decide)
    have hhi := Int.bmod_lt (x := i) (m := 2 ^ 32) (by decide)
    omega
  · rintro ⟨hlo, hhi⟩
    exact Int.bmod_eq_of_le (by omega) (by omega)

theorem printFloat_infinite_ne {q : ℚ} (h : ¬ |Json.roundBinary 24 (-149) q| < 2 ^ 128) :
    Json.printFloat q ≠ "" := by
  rcases printFloat_infinite h with heq | heq
  · rw [heq]
    decide
  · rw [heq]
    decide

theorem throughText_mono : Monotone throughText := fun _ _ h =>
  Json.roundBinary_mono (by decide) _
    (Json.roundDigits_mono (by decide) (Json.roundBinary_mono (by decide) _ h))

/-- A double stays a number: a double, or an integer that is as a double the same. If it is a text
    in the end, it has been too large for a float. -/
theorem rereads_decimal (q : ℚ) (n : ℕ) : ∃ w, rereads n (some (.float q)) = some w ∧
    (w = .float (throughText^[n] q) ∨
      (∃ i j, w = .int i ∧ |i| < 10 ^ 6 ∧ j ≠ 0 ∧ Json.toDouble i = throughText^[j] q) ∨
      ∃ s j, w = .str s ∧ s ≠ "" ∧
        ¬ |Json.roundBinary 24 (-149) (throughText^[j] q)| < 2 ^ 128) := by
  induction n with
  | zero => exact ⟨.float q, rfl, Or.inl rfl⟩
  | succ n ih =>
    obtain ⟨w, hw, hcases⟩ := ih
    rw [rereads_succ, hw, Option.bind_some]
    rcases hcases with rfl | ⟨i, j, rfl, hi, hj, hdouble⟩ | ⟨s, j, rfl, hs, hlarge⟩
    · by_cases hfinite : |Json.roundBinary 24 (-149) (throughText^[n] q)| < 2 ^ 128
      · rw [reread, if_pos hfinite]
        cases hread : signedDecimal (Json.printFloat (throughText^[n] q)).toList with
        | none =>
          refine ⟨_, rfl, Or.inl ?_⟩
          rw [Function.iterate_succ_apply', throughText]
        | some i =>
          obtain ⟨hvalue, hi⟩ := printFloat_integer hfinite hread
          refine ⟨_, rfl, Or.inr (Or.inl ⟨i, n + 1, rfl, hi, n.succ_ne_zero, ?_⟩)⟩
          rw [Function.iterate_succ_apply', throughText, Json.toDouble, hvalue]
      · rw [reread, if_neg hfinite]
        exact ⟨_, rfl, Or.inr (Or.inr ⟨_, n, rfl, printFloat_infinite_ne hfinite, hfinite⟩)⟩
    · have hfits : Int.bmod i (2 ^ 32) = i := by
        obtain ⟨hlo, hhi⟩ := abs_lt.mp hi
        exact (bmod_eq_iff_fits i).mpr ⟨by omega, by omega⟩
      refine ⟨.int i, ?_, Or.inr (Or.inl ⟨i, j, rfl, hi, hj, hdouble⟩)⟩
      rw [reread, hfits]
    · refine ⟨.str s, ?_, Or.inr (Or.inr ⟨s, j, rfl, hs, hlarge⟩)⟩
      rw [reread, if_neg hs]

/-- A double is kept if it comes back, after however many turns. -/
theorem rereads_decimal_same (q : ℚ) (n : ℕ) :
    SameValue (rereads (n + 1) (some (.float q))) (some (.float q)) ↔ Lasting (.float q) := by
  constructor
  · intro hsame
    have hfinite : |Json.roundBinary 24 (-149) q| < 2 ^ 128 := by
      by_contra hlarge
      rw [rereads_first, reread, if_neg hlarge, rereads_text (printFloat_infinite_ne hlarge)] at hsame
      cases hsame
    refine ⟨hfinite, ?_⟩
    obtain ⟨w, hw, hcases⟩ := rereads_decimal q (n + 1)
    rw [hw] at hsame
    rcases hcases with rfl | ⟨i, j, rfl, -, hj, hdouble⟩ | ⟨s, j, rfl, -, -⟩
    · exact Json.fixed_of_iterate throughText_mono n.succ_ne_zero (eq_of_beq hsame)
    · refine Json.fixed_of_iterate throughText_mono hj ?_
      rw [← hdouble]
      exact eq_of_beq hsame
    · cases hsame
  · rintro ⟨hfinite, hfixed⟩
    have hiterate : ∀ j, throughText^[j] q = q := fun j => Function.iterate_fixed hfixed j
    obtain ⟨w, hw, hcases⟩ := rereads_decimal q (n + 1)
    rw [hw]
    rcases hcases with rfl | ⟨i, j, rfl, -, -, hdouble⟩ | ⟨s, j, rfl, -, hlarge⟩
    · rw [hiterate]
      exact beq_self_eq_true q
    · rw [hiterate] at hdouble
      change (Json.toDouble i == q) = true
      rw [hdouble]
      exact beq_self_eq_true q
    · rw [hiterate] at hlarge
      exact absurd hfinite hlarge

/-- A value that has been read is kept if it comes back, after however many turns. -/
theorem rereads_same {pf : Platform} {param : String} {v : Json} (h : ParamValue pf param v)
    (n : ℕ) : SameValue (rereads (n + 1) (some v)) (some v) ↔ Lasting v := by
  cases h with
  | text s _ _ =>
    by_cases hs : s = ""
    · rw [rereads_first, reread, if_pos hs, rereads_none]
      exact iff_of_false id fun hkept => hkept hs
    · rw [rereads_text hs]
      exact iff_of_true (beq_self_eq_true s) hs
  | number i _ =>
    rw [rereads_integer]
    change (Int.bmod i (2 ^ 32) == i) = true ↔ _
    rw [beq_iff_eq, bmod_eq_iff_fits]
    rfl
  | decimal q _ => exact rereads_decimal_same q n

/-! ### The lines of a payload type -/

/-- A line whose payload type, if there is one, is a number. -/
structure NumberedLine (line : Json) : Prop where
  isObject : line.isObject = true
  payload : ∀ v, line.find "payload" = some v → ∃ i, integer v = some i ∧ i < 2 ^ 63

/-- Whether a line has this payload type. -/
def isLineOf (p : ℤ) (line : Json) : Bool := decide (numberOf line = some p)

/-- The first line of a payload type. -/
def lineOf (p : ℤ) (lines : List Json) : Option Json := lines.find? (isLineOf p)

/-- The search for a payload type meets no line without one. -/
def Scanned (p : ℤ) (lines : List Json) : Prop :=
  UpToFirst (isLineOf p) (fun line => (numberOf line).isSome = true) lines

theorem wrap64_of_lt {n : ℕ} (h : (n : ℤ) < 2 ^ 63) : Json.wrap64 n = n :=
  Int.bmod_eq_of_le (by omega) (by omega)

/-- Integers are compared by their values, unless one of them is too large for a signed one. -/
theorem eqv_integer {v w : Json} {i j : ℤ} (hv : integer v = some i) (hw : integer w = some j)
    (hi : i < 2 ^ 63) (hj : j < 2 ^ 63) : v.eqv w = decide (i = j) := by
  cases v with
  | int a =>
    cases hv
    cases w with
    | int b => cases hw; rfl
    | uint b =>
      cases hw
      change (i == Json.wrap64 b) = _
      rw [wrap64_of_lt hj]
      rfl
    | _ => cases hw
  | uint a =>
    cases hv
    cases w with
    | int b =>
      cases hw
      change (Json.wrap64 a == j) = _
      rw [wrap64_of_lt hi]
      rfl
    | uint b =>
      cases hw
      change (a == b) = _
      rw [Bool.eq_iff_iff, beq_iff_eq, decide_eq_true_iff, Nat.cast_inj]
    | _ => cases hw
  | _ => cases hv

theorem hasPayload_absent (payloadType : Json) {line : Json} (h : NumberedLine line)
    (hnumber : numberOf line = none) : hasPayload payloadType line = .error .undefined := by
  unfold hasPayload numberOf at *
  rw [read_of_object h.isObject]
  cases hv : line.find "payload" with
  | none => rfl
  | some v =>
    obtain ⟨i, hi, -⟩ := h.payload v hv
    rw [hv, Option.bind_some, hi] at hnumber
    cases hnumber

section
variable {payloadType : Json} {p : ℤ} (hp : integer payloadType = some p) (hfits : p < 2 ^ 63)
include hp hfits

theorem hasPayload_numbered {line : Json} (h : NumberedLine line)
    (hnumber : (numberOf line).isSome = true) :
    hasPayload payloadType line = .ok (isLineOf p line) := by
  unfold hasPayload isLineOf numberOf at *
  rw [read_of_object h.isObject]
  cases hv : line.find "payload" with
  | none =>
    rw [hv] at hnumber
    cases hnumber
  | some v =>
    obtain ⟨i, hi, hlt⟩ := h.payload v hv
    rw [Option.bind_some, hi]
    change Except.ok (v.eqv payloadType) = _
    rw [eqv_integer hi hp hlt hfits]
    simp

/-- The search ends, unless it meets a line without a payload type. -/
theorem findPayload_cases {lines : List Json} (h : ∀ line ∈ lines, NumberedLine line) :
    Scanned p lines ∧ findIdx (hasPayload payloadType) lines = .ok (lines.findIdx? (isLineOf p)) ∨
      ¬ Scanned p lines ∧ findIdx (hasPayload payloadType) lines = .error .undefined := by
  induction lines with
  | nil => exact Or.inl ⟨trivial, rfl⟩
  | cons line lines ih =>
    obtain ⟨hline, hlines⟩ := List.forall_mem_cons.mp h
    cases hnumber : numberOf line with
    | none =>
      refine Or.inr ⟨fun hscan => ?_, findIdx_fails (hasPayload_absent _ hline hnumber) _⟩
      have hsome : (numberOf line).isSome = true := hscan.1
      rw [hnumber] at hsome
      cases hsome
    | some i =>
      have hsome : (numberOf line).isSome = true := by rw [hnumber]; rfl
      have htest := hasPayload_numbered hp hfits hline hsome
      have hscanned : Scanned p (line :: lines) ↔ (isLineOf p line = false → Scanned p lines) :=
        and_iff_right hsome
      rw [hscanned, List.findIdx?_cons]
      cases hfound : isLineOf p line with
      | true =>
        rw [hfound] at htest
        exact Or.inl ⟨fun hne => (by cases hne), findIdx_found htest _⟩
      | false =>
        rw [hfound] at htest
        rw [findIdx_next htest]
        rcases ih hlines with ⟨hscan, hidx⟩ | ⟨hscan, hidx⟩
        · exact Or.inl ⟨fun _ => hscan, by rw [hidx]; rfl⟩
        · exact Or.inr ⟨fun hc => hscan (hc rfl), by rw [hidx]; rfl⟩

end

/-- The first line with a property, and what stands around it. -/
theorem findIdx?_split {q : Json → Bool} {lines : List Json} {idx : ℕ}
    (h : lines.findIdx? q = some idx) : ∃ before line after, lines = before ++ line :: after ∧
      idx = before.length ∧ q line = true ∧ ∀ l ∈ before, q l = false := by
  induction lines generalizing idx with
  | nil => cases h
  | cons line lines ih =>
    rw [List.findIdx?_cons] at h
    cases hq : q line with
    | true =>
      rw [hq] at h
      cases h
      exact ⟨[], line, lines, rfl, rfl, hq, fun l hl => absurd hl List.not_mem_nil⟩
    | false =>
      rw [hq] at h
      obtain ⟨j, hj, rfl⟩ := Option.map_eq_some_iff.mp h
      obtain ⟨before, found, after, rfl, rfl, hfound, hbefore⟩ := ih hj
      exact ⟨line :: before, found, after, rfl, rfl, hfound, List.forall_mem_cons.mpr ⟨hq, hbefore⟩⟩

/-- The line that is made for a payload type without one. -/
def newLine (payloadType : Json) : Json :=
  Json.object [("payload", payloadType), ("config", .str "")]

/-- A line takes the place of the first one of its payload type, or stands behind the others. -/
structure PutInPlace (p : ℤ) (line : Json) (lines lines' : List Json) : Prop where
  own : lineOf p lines' = some line
  others : ∀ q, q ≠ p → lineOf q lines' = lineOf q lines
  scanned : ∀ q, Scanned q lines' ↔ Scanned q lines
  numbered : ∀ l ∈ lines', NumberedLine l

theorem lineOf_other {p q : ℤ} {line : Json} (hline : numberOf line = some p) (hne : q ≠ p)
    (before after : List Json) :
    lineOf q (before ++ line :: after) = lineOf q (before ++ after) := by
  have hother : isLineOf q line = false := by
    rw [isLineOf, hline]
    simpa using Ne.symm hne
  unfold lineOf
  rw [List.find?_append, List.find?_append, List.find?_cons, hother]

theorem lineOf_own {p : ℤ} {line : Json} (hline : numberOf line = some p) {before : List Json}
    (hbefore : ∀ l ∈ before, isLineOf p l = false) (after : List Json) :
    lineOf p (before ++ line :: after) = some line := by
  have hown : isLineOf p line = true := decide_eq_true hline
  have hnone : before.find? (isLineOf p) = none :=
    List.find?_eq_none.mpr fun l hl => by rw [hbefore l hl]; decide
  unfold lineOf
  rw [List.find?_append, hnone, Option.none_or, List.find?_cons, hown]

theorem scanned_replace {q : ℤ} {line line' : Json} (h : numberOf line' = numberOf line)
    (before after : List Json) :
    Scanned q (before ++ line' :: after) ↔ Scanned q (before ++ line :: after) := by
  have hsame : ∀ lines : List Json,
      List.Forall₂ (fun l l' => numberOf l' = numberOf l) lines lines := fun lines =>
    List.forall₂_same.mpr fun _ _ => rfl
  refine upToFirst_congr (List.rel_append (hsame before) (.cons h (hsame after))) ?_ ?_
  · intro l l' hl
    rw [isLineOf, isLineOf, hl]
  · intro l l' hl
    rw [hl]

theorem scanned_none {p : ℤ} {lines : List Json} (hnone : ∀ l ∈ lines, isLineOf p l = false)
    (h : Scanned p lines) : ∀ l ∈ lines, (numberOf l).isSome = true :=
  (upToFirst_iff_forall hnone).mp h

theorem find_newLine (payloadType : Json) :
    (newLine payloadType).find "payload" = some payloadType ∧
      (newLine payloadType).find "config" = some (.str "") := by
  simp [newLine, Json.object, Json.find, get_put]

/-- The fmtp line of a payload type, and what the lines are when it is changed. -/
theorem fmtpLineOf_placed {payloadType : Json} {p : ℤ} (hp : integer payloadType = some p)
    (hfits : p < 2 ^ 63) {lines : List Json} (h : ∀ line ∈ lines, NumberedLine line)
    (hscan : Scanned p lines) : ∃ idx lines', fmtpLineOf payloadType lines = .ok (idx, lines') ∧
      lines'.getD idx .null = (lineOf p lines).getD (newLine payloadType) ∧
      ∀ line, NumberedLine line → numberOf line = some p →
        PutInPlace p line lines (lines'.set idx line) := by
  obtain ⟨-, hidx⟩ := (findPayload_cases hp hfits h).resolve_right fun hc => hc.1 hscan
  unfold fmtpLineOf
  rw [hidx, ok_bind]
  cases hfind : lines.findIdx? (isLineOf p) with
  | some idx =>
    obtain ⟨before, found, after, rfl, rfl, hfound, hbefore⟩ := findIdx?_split hfind
    have hnumber : numberOf found = some p := of_decide_eq_true hfound
    refine ⟨before.length, _, rfl, ?_, fun line hline hown => ?_⟩
    · rw [lineOf_own hnumber hbefore]
      simp
    · have hset : (before ++ found :: after).set before.length line = before ++ line :: after := by
        simp
      rw [hset]
      refine ⟨lineOf_own hown hbefore _, fun q hq => ?_, fun q => ?_, fun l hl => ?_⟩
      · rw [lineOf_other hown hq, lineOf_other hnumber hq]
      · exact scanned_replace (hown.trans hnumber.symm) _ _
      · rcases List.mem_append.mp hl with hl | hl
        · exact h l (List.mem_append_left _ hl)
        · rcases List.mem_cons.mp hl with rfl | hl
          · exact hline
          · exact h l (List.mem_append_right _ (List.mem_cons_of_mem _ hl))
  | none =>
    have hnone : ∀ l ∈ lines, isLineOf p l = false := List.findIdx?_eq_none_iff.mp hfind
    refine ⟨lines.length, _, rfl, ?_, fun line hline hown => ?_⟩
    · have hmissing : lineOf p lines = none :=
        List.find?_eq_none.mpr fun l hl => by rw [hnone l hl]; decide
      rw [hmissing]
      simp [newLine]
    · have hset : (lines ++ [Json.object [("payload", payloadType), ("config", .str "")]]).set
          lines.length line = lines ++ [line] := by
        simp
      have hall := scanned_none hnone hscan
      rw [hset]
      refine ⟨lineOf_own hown hnone _, fun q hq => ?_, fun q => ?_, fun l hl => ?_⟩
      · rw [lineOf_other hown hq, List.append_nil]
      · -- every line has a payload type, so every search goes through
        refine iff_of_true (UpToFirst.of_forall fun l hl => ?_) (UpToFirst.of_forall hall)
        rcases List.mem_append.mp hl with hl | hl
        · exact hall l hl
        · rw [List.mem_singleton.mp hl, hown]
          rfl
      · rcases List.mem_append.mp hl with hl | hl
        · exact h l hl
        · rwa [List.mem_singleton.mp hl]

/-! ### One codec -/

/-- What is read of a codec of the offer is there. -/
structure OfferCodec (codec : Json) : Prop where
  mimeType : ∃ s, codec.find "mimeType" = some (.str s)
  payloadType : ∃ v p, codec.find "payloadType" = some v ∧ integer v = some p ∧ p < 2 ^ 63
  parameters : (codec.find "parameters").isSome = true

def isOpus (codec : Json) : Bool :=
  match codec.find "mimeType" with
  | some (.str mimeType) => lower mimeType = "audio/opus"
  | _ => false

/-- The payload type of a codec of the offer. -/
def codecNumber (codec : Json) : Option ℤ := (codec.find "payloadType").bind integer

def spropStereo (codec : Json) : Option Json :=
  (codec.find "parameters").bind fun parameters => parameters.find "sprop-stereo"

/-- What is written as `stereo`. -/
def writtenStereo (codec : Json) : Option ℤ :=
  match spropStereo codec with
  | some (.bool spropStereo) => some (if spropStereo then 1 else 0)
  | _ => none

/-- The parameters as they are printed in the turn of a codec. -/
def withStereo (codec : Json) (m : Members) : Members :=
  match writtenStereo codec with
  | some stereo => put "stereo" (.int stereo) m
  | none => m

/-- The value of a key after the turn of a codec. -/
def turned (k : String) (o : Option Json) (codec : Json) : Option Json :=
  ((if k = "stereo" then (writtenStereo codec).map .int else none).or o).bind reread

section
variable (pf : Platform)

/-- The parameters of a payload type; none if there is no config. -/
def fmtpParameters (p : ℤ) (fmtps : List Json) : Except Invalid Members :=
  match (lineOf p fmtps).bind fun line => line.find "config" with
  | some (.str config) => parseParams pf config
  | _ => .ok []

/-- The fmtp line of a payload type, if there is one, has parameters that can be read. -/
def ParametersRead (p : ℤ) (fmtps : List Json) : Prop :=
  ∀ line, lineOf p fmtps = some line → ∃ config m, line.find "config" = some (.str config) ∧
    parseParams pf config = .ok m

/-- The searches for a payload type end, and its parameters can be read. -/
def Turnable (rtps fmtps : List Json) (p : ℤ) : Prop :=
  Scanned p rtps ∧ ((lineOf p rtps).isSome = true → Scanned p fmtps ∧ ParametersRead pf p fmtps)

end

section
variable {pf : Platform} {codec : Json}

theorem keyText_stereo : KeyText "stereo".toList :=
  ⟨by decide, by decide, fun c hc => Option.some.inj hc ▸ rfl⟩

theorem ParamValue.stereo (pf : Platform) (i : ℤ) : ParamValue pf "stereo" (.int i) :=
  .number i (by decide)

theorem withStereo_params {m : Members} (h : Params pf m) : Params pf (withStereo codec m) := by
  unfold withStereo
  split
  · exact h.put keyText_stereo (.stereo pf _)
  · exact h

theorem get_withStereo (m : Members) (k : String) : get k (withStereo codec m) =
    (if k = "stereo" then (writtenStereo codec).map .int else none).or (get k m) := by
  unfold withStereo
  cases writtenStereo codec with
  | none => simp
  | some stereo =>
    simp only [get_put]
    split_ifs
    · rfl
    · rfl

theorem applyOpus_eq {fmtp : Json} {config : String} {m : Members}
    (hparameters : (codec.find "parameters").isSome = true) (hfmtp : fmtp.isObject = true)
    (hconfig : fmtp.find "config" = some (.str config)) (hread : parseParams pf config = .ok m) :
    applyOpus (parseParams pf) codec fmtp = (do
      let config ← answerConfig (.obj (withStereo codec m))
      fmtp.write "config" (.str config)) := by
  obtain ⟨parameters, hparameters⟩ := Option.isSome_iff_exists.mp hparameters
  have hvalue : (liftM (fmtp.readOrNull "config") : Except Invalid Json) = .ok (.str config) := by
    rw [lift_ok, readOrNull_of_isObject hfmtp, hconfig]
    rfl
  have htext : (liftM (Json.str config).toStr : Except Invalid String) = .ok config := rfl
  have hfound : (liftM (codec.read "parameters") : Except Invalid Json) = .ok parameters :=
    lift_ok.mpr (Json.read_ok.mpr hparameters)
  have hstereo : spropStereo codec = parameters.find "sprop-stereo" := by
    rw [spropStereo, hparameters, Option.bind_some]
  unfold applyOpus withStereo writtenStereo
  rw [hvalue, ok_bind, htext, ok_bind, hread, ok_bind, hfound, ok_bind, hstereo]
  cases parameters.find "sprop-stereo" with
  | none => rfl
  | some value => cases value <;> rfl

/-- The turn of an opus codec over a line whose parameters can be read. -/
theorem applyOpus_turned {fmtp : Json} {config : String} {m : Members}
    (hparameters : (codec.find "parameters").isSome = true) (hfmtp : fmtp.isObject = true)
    (hconfig : fmtp.find "config" = some (.str config)) (hread : parseParams pf config = .ok m) :
    ∃ fmtp' config' m', applyOpus (parseParams pf) codec fmtp = .ok fmtp' ∧ fmtp'.isObject = true ∧
      (∀ k, k ≠ "config" → fmtp'.find k = fmtp.find k) ∧
      fmtp'.find "config" = some (.str config') ∧ parseParams pf config' = .ok m' ∧
      ∀ k, get k m' = turned k (get k m) codec := by
  have hparams : Params pf (withStereo codec m) := withStereo_params (parseParams_params hread)
  obtain ⟨config', m', hprint, hread', hget⟩ := parseParams_answerConfig hparams
  obtain ⟨fields, rfl⟩ : ∃ fields, fmtp = .obj fields := by
    cases fmtp with
    | obj fields => exact ⟨fields, rfl⟩
    | _ => cases hfmtp
  refine ⟨.obj (put "config" (.str config') fields), config', m', ?_, rfl, fun k hk => ?_, ?_,
    hread', fun k => ?_⟩
  · rw [applyOpus_eq hparameters hfmtp hconfig hread, hprint]
    rfl
  · exact get_put_of_ne _ hk _
  · exact get_put_self _ _ _
  · rw [hget, get_withStereo, turned]

/-- It can be read if the turn returns. -/
theorem applyOpus_reads {fmtp fmtp' : Json}
    (h : applyOpus (parseParams pf) codec fmtp = .ok fmtp') :
    ∃ config m, fmtp.find "config" = some (.str config) ∧ parseParams pf config = .ok m := by
  unfold applyOpus at h
  obtain ⟨value, hvalue, h⟩ := bind_ok.mp h
  obtain ⟨config, hconfig, h⟩ := bind_ok.mp h
  obtain ⟨m, hread, -⟩ := bind_ok.mp h
  cases Json.toStr_ok.mp (lift_ok.mp hconfig)
  have hfound := Json.readOrNull_ok (lift_ok.mp hvalue)
  refine ⟨config, m, ?_, hread⟩
  cases hfind : fmtp.find "config" with
  | none =>
    rw [hfind] at hfound
    cases hfound
  | some v =>
    rw [hfind] at hfound
    rw [hfound, Option.getD_some]

end

end MediasoupClient.Sdp
