import MediasoupClient.Sdp.NumberText

/-! The parameters of a fmtp line (json/parser.cpp, parseParams).

        minptime=10; useinbandfec = 1;cbr   ──▶   { cbr: "", minptime: 10, useinbandfec: 1 }

    A value is a number if all of its text is one, and a text otherwise; a key without a value has the
    empty text. `applyCodecParameters` prints the members again, each as `key=value`:

        integer   through int            4294967297   ──▶   1
        decimal   six digits of a float  48000.0      ──▶   48000, which is an integer now
        empty     nothing                cbr=         ──▶   no parameter at all -/

namespace MediasoupClient.Sdp
open Lib

/-- What the parser leaves to the platform: the size of `long`, and which decimals `std::stod` takes
    for an underflow. -/
structure Platform where
  longBits : ℕ
  underflows : ℚ → Bool
  longBits_range : 32 ≤ longBits ∧ longBits ≤ 64
  underflows_tiny : ∀ q, underflows q = true → |q| < 2 ^ (-1022 : ℤ)

/-! ### The parser -/

/-- The text without the blanks at its ends. -/
def trim (str : List Char) : List Char := ((str.dropWhile isSpace).reverse.dropWhile isSpace).reverse

/-- `^\\s*([^= ]+)(?:\\s*=\\s*([^ ]+))?$` of a trimmed text: the key, and the value or nothing. -/
def keyValue (str : List Char) : Option (String × String) :=
  let key := str.takeWhile fun c => c ≠ '=' && c ≠ ' '
  let rest := str.dropWhile fun c => c ≠ '=' && c ≠ ' '
  if key = [] then none
  else if rest = [] then some (String.ofList key, "")
  else
    match rest.dropWhile isSpace with
    | '=' :: rest =>
      let value := rest.dropWhile isSpace
      if value = [] ∨ ' ' ∈ value then none else some (String.ofList key, String.ofList value)
    | _ => none

/-- The types of parameters: `s`, `d` and `f`. -/
inductive ParamType where
  | text
  | number
  | decimal
  deriving DecidableEq

def WellKnownParameters : List (String × ParamType) :=
  [("profile-level-id", .text), ("packetization-mode", .number), ("profile-id", .text)]

section
variable (pf : Platform)

def isInt (str : String) : Bool := (readInteger pf.longBits str.toList).isSome

def isFloat (str : String) : Bool :=
  (readDecimal str.toList).any fun q => |Json.roundBinary 24 (-149) q| < 2 ^ 128

def paramType (param value : String) : ParamType :=
  match get param WellKnownParameters with
  | some type => type
  | none => if isInt pf value then .number else if isFloat value then .decimal else .text

/-- `toType`, of these types. -/
def toParam (str : String) : ParamType → Except Invalid Json
  | .text => .ok (.str str)
  | .number => .ok (.int ((readInteger 64 str.toList).getD 0))
  | .decimal =>
    match readDecimal str.toList with
    | none => .ok (.float 0)
    | some q =>
      if pf.underflows q then .error (.exception "stod")
      else .ok (.float (Json.roundBinary 53 (-1074) q))

def insertParam (o : Members) (str : List Char) : Except Invalid Members :=
  match keyValue str with
  | none => .ok o
  | some (param, value) => do
    return put param (← toParam pf value (paramType pf param value)) o

/-- `parseParams`: the members of its object. -/
def parseParams (str : String) : Except Invalid Members :=
  (split str ';').foldlM (fun obj param =>
    if trim param.toList = [] then .ok obj else insertParam pf obj (trim param.toList)) []

end

/-! ### What is read -/

/-- The text of a value: it is not empty, has no blanks at its ends, and none of the delimiters. -/
structure ValueText (text : List Char) : Prop where
  filled : text ≠ []
  delimiters : ' ' ∉ text ∧ ';' ∉ text
  first : ∀ c ∈ text.head?, isSpace c = false
  last : ∀ c ∈ text.getLast?, isSpace c = false

/-- The text of a key. -/
structure KeyText (text : List Char) : Prop where
  filled : text ≠ []
  delimiters : '=' ∉ text ∧ ' ' ∉ text ∧ ';' ∉ text
  first : ∀ c ∈ text.head?, isSpace c = false

/-- A value under a key: a text that stays one, or a number under a key whose values are no texts. -/
inductive ParamValue (pf : Platform) (param : String) : Json → Prop
  | text (s : String) (h : s = "" ∨ ValueText s.toList)
      (htype : toParam pf s (paramType pf param s) = .ok (.str s)) : ParamValue pf param (.str s)
  | number (i : ℤ) (h : get param WellKnownParameters ≠ some .text) : ParamValue pf param (.int i)
  | decimal (q : ℚ) (h : get param WellKnownParameters = none) : ParamValue pf param (.float q)

/-- Parameters as they are read. -/
structure Params (pf : Platform) (m : Members) : Prop where
  sorted : Sorted m
  members : ∀ kv ∈ m, KeyText kv.1.toList ∧ ParamValue pf kv.1 kv.2

theorem params_nil (pf : Platform) : Params pf [] :=
  ⟨List.Pairwise.nil, fun _ hkv => absurd hkv List.not_mem_nil⟩

theorem Params.put {pf : Platform} {m : Members} (h : Params pf m) {param : String} {v : Json}
    (hkey : KeyText param.toList) (hv : ParamValue pf param v) : Params pf (Lib.put param v m) := by
  refine ⟨sorted_put _ _ h.sorted, fun kv hkv => ?_⟩
  rcases mem_put hkv with rfl | hkv
  · exact ⟨hkey, hv⟩
  · exact h.members kv hkv

/-! ### Trimmed texts -/

theorem head_dropWhile {p : Char → Bool} {text : List Char} :
    ∀ c ∈ (text.dropWhile p).head?, p c = false := by
  induction text with
  | nil => exact fun c hc => by cases hc
  | cons x xs ih =>
    intro c hc
    by_cases hx : p x = true
    · rw [List.dropWhile_cons_of_pos hx] at hc
      exact ih c hc
    · rw [List.dropWhile_cons_of_neg hx] at hc
      cases hc
      simpa using hx

theorem dropWhile_of_head {p : Char → Bool} {text : List Char}
    (h : ∀ c ∈ text.head?, p c = false) : text.dropWhile p = text := by
  cases text with
  | nil => rfl
  | cons c cs => exact List.dropWhile_cons_of_neg (by simp [h c rfl])

/-- A text without blanks at its ends is trimmed already. -/
theorem trim_id {text : List Char} (hfirst : ∀ c ∈ text.head?, isSpace c = false)
    (hlast : ∀ c ∈ text.getLast?, isSpace c = false) : trim text = text := by
  unfold trim
  rw [dropWhile_of_head hfirst, dropWhile_of_head (by rwa [List.head?_reverse]),
    List.reverse_reverse]

theorem trim_ends (text : List Char) : (∀ c ∈ (trim text).head?, isSpace c = false) ∧
    ∀ c ∈ (trim text).getLast?, isSpace c = false := by
  unfold trim
  constructor
  · -- the reversed rest is a prefix of what the blanks in front were taken from
    intro c hc
    rw [List.head?_reverse] at hc
    have hmem : c ∈ ((text.dropWhile isSpace).reverse).getLast? := by
      obtain ⟨before, hbefore⟩ := List.dropWhile_suffix (p := isSpace)
        (l := (text.dropWhile isSpace).reverse)
      rw [← hbefore, List.getLast?_append, hc]
      rfl
    rw [List.getLast?_reverse] at hmem
    exact head_dropWhile c hmem
  · intro c hc
    rw [List.getLast?_reverse] at hc
    exact head_dropWhile c hc

theorem mem_trim {text : List Char} {c : Char} (h : c ∈ trim text) : c ∈ text := by
  unfold trim at h
  have hmem := (List.dropWhile_suffix isSpace).subset (List.mem_reverse.mp h)
  exact (List.dropWhile_suffix isSpace).subset (List.mem_reverse.mp hmem)

/-- No token contains the delimiter. -/
theorem not_mem_split {s : String} {d : Char} : ∀ token ∈ split s d, d ∉ token.toList := by
  have hloop : ∀ (text token : List Char), d ∉ token →
      ∀ t ∈ splitChars d token text, d ∉ t.toList := by
    intro text
    induction text with
    | nil =>
      intro token htoken t ht
      cases token with
      | nil => cases ht
      | cons c cs =>
        obtain rfl := List.mem_singleton.mp ht
        rwa [String.toList_ofList]
    | cons c text ih =>
      intro token htoken t ht
      rw [splitChars] at ht
      split_ifs at ht with hc
      · rcases List.mem_cons.mp ht with rfl | ht
        · rwa [String.toList_ofList]
        · exact ih [] List.not_mem_nil t ht
      · refine ih (token ++ [c]) (fun hmem => ?_) t ht
        rcases List.mem_append.mp hmem with hmem | hmem
        · exact htoken hmem
        · exact hc (List.mem_singleton.mp hmem).symm
  exact hloop s.toList [] List.not_mem_nil

/-- The key and the value of a trimmed parameter. -/
theorem keyValue_texts {text : List Char} {param value : String}
    (hfirst : ∀ c ∈ text.head?, isSpace c = false) (hlast : ∀ c ∈ text.getLast?, isSpace c = false)
    (hfree : ';' ∉ text) (h : keyValue text = some (param, value)) :
    KeyText param.toList ∧ (value = "" ∨ ValueText value.toList) := by
  have hsplit := List.takeWhile_append_dropWhile (p := fun c => c ≠ '=' && c ≠ ' ') (l := text)
  have hkeychars : ∀ c ∈ text.takeWhile (fun c => c ≠ '=' && c ≠ ' '), c ≠ '=' ∧ c ≠ ' ' := by
    intro c hc
    simpa using List.mem_takeWhile_imp hc
  unfold keyValue at h
  simp only at h
  generalize text.takeWhile (fun c => c ≠ '=' && c ≠ ' ') = key at h hsplit hkeychars
  generalize text.dropWhile (fun c => c ≠ '=' && c ≠ ' ') = rest at h hsplit
  by_cases hnil : key = []
  · rw [if_pos hnil] at h
    cases h
  rw [if_neg hnil] at h
  have hkey : KeyText key := by
    refine ⟨hnil, ⟨fun hmem => (hkeychars _ hmem).1 rfl, fun hmem => (hkeychars _ hmem).2 rfl,
      fun hmem => hfree ?_⟩, fun c hc => hfirst c ?_⟩
    · rw [← hsplit]
      exact List.mem_append_left _ hmem
    · rw [← hsplit, List.head?_append, hc]
      rfl
  by_cases hrest : rest = []
  · rw [if_pos hrest] at h
    cases h
    exact ⟨by rwa [String.toList_ofList], Or.inl rfl⟩
  rw [if_neg hrest] at h
  split at h
  · rename_i tail hassign
    split_ifs at h with hvalue
    cases h
    obtain ⟨hfilled, hblank⟩ := not_or.mp hvalue
    obtain ⟨front, hfront⟩ := List.dropWhile_suffix (p := isSpace) (l := rest)
    obtain ⟨front', hfront'⟩ := List.dropWhile_suffix (p := isSpace) (l := tail)
    have htext : text = key ++ front ++ '=' :: front' ++ tail.dropWhile isSpace := by
      rw [← hsplit, ← hfront, hassign]
      conv_lhs => rw [← hfront']
      simp
    refine ⟨by rwa [String.toList_ofList], Or.inr ?_⟩
    rw [String.toList_ofList]
    refine ⟨hfilled, ⟨hblank, fun hmem => hfree ?_⟩, head_dropWhile, fun c hc => hlast c ?_⟩
    · rw [htext]
      exact List.mem_append_right _ hmem
    · rw [htext, List.getLast?_append, hc]
      rfl
  · cases h

/-- What a text is read as under its key. -/
theorem toParam_value {pf : Platform} {param value : String} {v : Json}
    (hvalue : value = "" ∨ ValueText value.toList)
    (h : toParam pf value (paramType pf param value) = .ok v) : ParamValue pf param v := by
  cases htype : paramType pf param value with
  | text =>
    have htext := h
    rw [htype] at htext
    cases htext
    exact .text value hvalue h
  | number =>
    rw [htype] at h
    cases h
    refine .number _ fun hwell => ?_
    rw [paramType, hwell] at htype
    cases htype
  | decimal =>
    have hwell : get param WellKnownParameters = none := by
      cases hget : get param WellKnownParameters with
      | none => rfl
      | some type =>
        rw [paramType, hget] at htype
        have hmem := mem_of_get hget
        rw [show type = .decimal from htype] at hmem
        simp [WellKnownParameters] at hmem
    rw [htype] at h
    simp only [toParam] at h
    cases hread : readDecimal value.toList with
    | none =>
      rw [hread] at h
      cases h
      exact .decimal 0 hwell
    | some q =>
      rw [hread] at h
      simp only at h
      split_ifs at h
      cases h
      exact .decimal _ hwell

theorem insertParam_params {pf : Platform} {m m' : Members} {token : String} (h : Params pf m)
    (hfree : ';' ∉ token.toList) (hinsert : insertParam pf m (trim token.toList) = .ok m') :
    Params pf m' := by
  obtain ⟨hfirst, hlast⟩ := trim_ends token.toList
  unfold insertParam at hinsert
  cases hkv : keyValue (trim token.toList) with
  | none =>
    rw [hkv] at hinsert
    cases hinsert
    exact h
  | some kv =>
    obtain ⟨param, value⟩ := kv
    rw [hkv] at hinsert
    obtain ⟨v, hv, hinsert⟩ := bind_ok.mp hinsert
    cases hinsert
    obtain ⟨hkey, hvalue⟩ := keyValue_texts hfirst hlast (fun hmem => hfree (mem_trim hmem)) hkv
    exact h.put hkey (toParam_value hvalue hv)

/-- All parameters that are read are such ones. -/
theorem parseParams_params {pf : Platform} {str : String} {m : Members}
    (h : parseParams pf str = .ok m) : Params pf m := by
  have hloop : ∀ (tokens : List String) (m m' : Members), (∀ t ∈ tokens, ';' ∉ t.toList) →
      Params pf m → tokens.foldlM (fun obj param =>
        if trim param.toList = [] then .ok obj else insertParam pf obj (trim param.toList)) m = .ok m' →
      Params pf m' := by
    intro tokens
    induction tokens with
    | nil =>
      intro m m' _ hm hrun
      cases hrun
      exact hm
    | cons token tokens ih =>
      intro m m' hfree hm hrun
      obtain ⟨htoken, hfree⟩ := List.forall_mem_cons.mp hfree
      rw [List.foldlM_cons] at hrun
      obtain ⟨m₁, hstep, hrun⟩ := bind_ok.mp hrun
      refine ih m₁ m' hfree ?_ hrun
      split_ifs at hstep
      · cases hstep
        exact hm
      · exact insertParam_params hm htoken hstep
  exact hloop _ [] m not_mem_split (params_nil pf) h

/-! ### What is printed and read back -/

/-- What is read back of a value, if anything. -/
def reread : Json → Option Json
  | .str s => if s = "" then none else some (.str s)
  | .int i => some (.int (Int.bmod i (2 ^ 32)))
  | .float q =>
    if |Json.roundBinary 24 (-149) q| < 2 ^ 128 then
      match signedDecimal (Json.printFloat q).toList with
      | some i => some (.int i)
      | none => some (.float (Json.roundBinary 53 (-1074) (shortened q)))
    else some (.str (Json.printFloat q))
  | v => some v

/-- A value under a key is printed, and read back under the same key. -/
structure ReadBackAs (pf : Platform) (param text : String) (v w : Json) : Prop where
  plain : ValueText text.toList
  reread : reread v = some w
  value : toParam pf text (paramType pf param text) = .ok w

theorem numberChar_plain {c : Char} (h : isNumberChar c = true) :
    isSpace c = false ∧ c ≠ ' ' ∧ c ≠ ';' := by
  have hcases : c.isDigit = true ∨ c = '+' ∨ c = '-' ∨ c = '.' ∨ c = 'e' ∨ c = 'E' := by
    simpa [isNumberChar] using h
  rcases hcases with hdigit | rfl | rfl | rfl | rfl | rfl
  · have hrange : 48 ≤ c.toNat := by
      simp only [Char.isDigit, Bool.and_eq_true, decide_eq_true_eq, ge_iff_le] at hdigit
      exact_mod_cast hdigit.1
    have hspace : c ≠ ' ' := by
      rintro rfl
      exact absurd hrange (by decide)
    refine ⟨?_, hspace, ?_⟩
    · simp only [isSpace, hspace, decide_false, Bool.false_or, decide_eq_false_iff_not]
      omega
    · rintro rfl
      exact absurd hdigit (by decide)
  all_goals decide

/-- The text of a number is one of a value. -/
theorem valueText_decimal {text : List Char} {q : ℚ} (h : readDecimal text = some q) :
    ValueText text := by
  obtain ⟨hne, hall⟩ := numberChar_decimal h
  refine ⟨hne, ⟨fun hmem => (numberChar_plain (hall _ hmem)).2.1 rfl,
    fun hmem => (numberChar_plain (hall _ hmem)).2.2 rfl⟩, fun c hc => ?_, fun c hc => ?_⟩
  · exact (numberChar_plain (hall c (List.mem_of_mem_head? hc))).1
  · exact (numberChar_plain (hall c (List.mem_of_mem_getLast? hc))).1

section
variable {pf : Platform} {param : String}

theorem wellKnown_not_decimal : get param WellKnownParameters ≠ some .decimal := fun h => by
  have hmem := mem_of_get h
  simp [WellKnownParameters] at hmem

/-- The text of an integer that is not too long is read as one. -/
theorem integer_readBack (hwell : get param WellKnownParameters ≠ some .text) {text : String} {i : ℤ}
    (hread : signedDecimal text.toList = some i) (hlo : -2 ^ 31 ≤ i) (hhi : i < 2 ^ 31) :
    toParam pf text (paramType pf param text) = .ok (.int i) := by
  have hfits : ∀ {bits}, 32 ≤ bits → readInteger bits text.toList = some i := fun {bits} hbits => by
    have hpow : (2 : ℤ) ^ 31 ≤ 2 ^ (bits - 1) := by
      exact_mod_cast Nat.pow_le_pow_right (n := 2) (by decide) (by omega)
    rw [readInteger, hread]
    refine Option.filter_some_pos ?_
    exact decide_eq_true ⟨by omega, by omega⟩
  have hnumber : paramType pf param text = .number := by
    unfold paramType
    cases hget : get param WellKnownParameters with
    | none =>
      have hint : isInt pf text = true := by
        rw [isInt, hfits pf.longBits_range.1]
        rfl
      simp only [hint, if_true]
    | some type =>
      cases type with
      | number => rfl
      | text => exact absurd hget hwell
      | decimal => exact absurd hget wellKnown_not_decimal
  rw [hnumber, toParam, hfits (by decide)]
  rfl

theorem shortened_eq_zero {q : ℚ} (h : shortened q = 0) : Json.printFloat q = "0" := by
  have hzero : Json.roundBinary 24 (-149) q = 0 := by
    unfold shortened at h
    by_contra hne
    rcases lt_or_gt_of_ne hne with hneg | hpos
    · have hlt := Json.lt_roundDigits (p := 6) (by decide) (neg_pos.mpr hneg)
      rw [Json.roundDigits_neg, h] at hlt
      linarith
    · have hlt := Json.lt_roundDigits (p := 6) (by decide) hpos
      rw [h] at hlt
      linarith
  simp [Json.printFloat, hzero]

/-- What a value that is too large for a float is printed as. -/
theorem printFloat_infinite {q : ℚ} (h : ¬ |Json.roundBinary 24 (-149) q| < 2 ^ 128) :
    Json.printFloat q = "inf" ∨ Json.printFloat q = "-inf" := by
  have hne : Json.roundBinary 24 (-149) q ≠ 0 := by
    rintro hzero
    rw [hzero, abs_zero] at h
    exact h (by norm_num)
  simp only [Json.printFloat]
  rw [if_neg hne, if_pos (not_lt.mp h)]
  split_ifs
  · exact Or.inr rfl
  · exact Or.inl rfl

section
variable (hwell : get param WellKnownParameters = none) {q : ℚ}
include hwell

/-- A double that is printed as an integer. -/
theorem readBackAs_integer (hfinite : |Json.roundBinary 24 (-149) q| < 2 ^ 128) {i : ℤ}
    (hread : signedDecimal (Json.printFloat q).toList = some i) :
    ReadBackAs pf param (Json.printFloat q) (.float q) (.int i) := by
  obtain ⟨-, habs⟩ := printFloat_integer hfinite hread
  obtain ⟨hlo, hhi⟩ := abs_lt.mp habs
  refine ⟨valueText_decimal (readDecimal_of_integer hread), ?_, ?_⟩
  · simp only [reread, if_pos hfinite, hread]
  · exact integer_readBack (by rw [hwell]; simp) hread (by omega) (by omega)

/-- A double that is printed with a point or an exponent. -/
theorem readBackAs_decimal (hfinite : |Json.roundBinary 24 (-149) q| < 2 ^ 128)
    (hread : signedDecimal (Json.printFloat q).toList = none) :
    ReadBackAs pf param (Json.printFloat q) (.float q)
      (.float (Json.roundBinary 53 (-1074) (shortened q))) := by
  have hdecimal := readDecimal_printFloat hfinite
  refine ⟨valueText_decimal hdecimal, by simp only [reread, if_pos hfinite, hread], ?_⟩
  have htype : paramType pf param (Json.printFloat q) = .decimal := by
    have hint : isInt pf (Json.printFloat q) = false := by
      rw [isInt, readInteger, hread]
      rfl
    have hfloat : isFloat (Json.printFloat q) = true := by
      rw [isFloat, hdecimal]
      exact decide_eq_true (shortened_finite hfinite)
    simp only [paramType, hwell, hint, hfloat, if_true]
    rfl
  have hnormal : pf.underflows (shortened q) = false := by
    by_contra hunder
    have htiny := pf.underflows_tiny _ (by simpa using hunder)
    by_cases hzero : shortened q = 0
    · rw [shortened_eq_zero hzero] at hread
      cases hread
    · exact absurd htiny (not_lt.mpr (le_abs_shortened hzero))
  rw [htype]
  simp only [toParam, hdecimal, hnormal]
  rfl

/-- A double that is too large for a float. -/
theorem readBackAs_infinite (hlarge : ¬ |Json.roundBinary 24 (-149) q| < 2 ^ 128) :
    ReadBackAs pf param (Json.printFloat q) (.float q) (.str (Json.printFloat q)) := by
  have hinf := printFloat_infinite hlarge
  refine ⟨?_, by simp only [reread, if_neg hlarge], ?_⟩
  · rcases hinf with heq | heq
    · rw [heq]
      exact ⟨by decide, ⟨by decide, by decide⟩, fun c hc => Option.some.inj hc ▸ rfl,
        fun c hc => Option.some.inj hc ▸ rfl⟩
    · rw [heq]
      exact ⟨by decide, ⟨by decide, by decide⟩, fun c hc => Option.some.inj hc ▸ rfl,
        fun c hc => Option.some.inj hc ▸ rfl⟩
  · have hnone : signedDecimal (Json.printFloat q).toList = none ∧
        readDecimal (Json.printFloat q).toList = none := by
      rcases hinf with heq | heq
      · rw [heq]
        exact ⟨rfl, rfl⟩
      · rw [heq]
        exact ⟨rfl, rfl⟩
    have htype : paramType pf param (Json.printFloat q) = .text := by
      have hint : isInt pf (Json.printFloat q) = false := by
        rw [isInt, readInteger, hnone.1]
        rfl
      have hfloat : isFloat (Json.printFloat q) = false := by
        rw [isFloat, hnone.2]
        rfl
      simp only [paramType, hwell, hint, hfloat]
      rfl
    rw [htype]
    rfl

end

/-- Every value is read back, but the empty text. -/
theorem ParamValue.readBack {v : Json} (h : ParamValue pf param v) :
    ∃ text, answerText v = .ok text ∧
      (text = "" ∧ reread v = none ∨ ∃ w, ReadBackAs pf param text v w) := by
  cases h with
  | text s hs htype =>
    refine ⟨s, rfl, ?_⟩
    by_cases hempty : s = ""
    · exact Or.inl ⟨hempty, if_pos hempty⟩
    · exact Or.inr ⟨.str s, hs.resolve_left hempty, if_neg hempty, htype⟩
  | number i hwell =>
    have hread := signedDecimal_toString (Int.bmod i (2 ^ 32))
    refine ⟨toString (Int.bmod i (2 ^ 32)), rfl, Or.inr ⟨.int (Int.bmod i (2 ^ 32)), ?_, rfl, ?_⟩⟩
    · exact valueText_decimal (readDecimal_of_integer hread)
    · have hlo := Int.le_bmod (x := i) (m := 2 ^ 32) (by decide)
      have hhi := Int.bmod_lt (x := i) (m := 2 ^ 32) (by decide)
      exact integer_readBack hwell hread (by omega) (by omega)
  | decimal q hwell =>
    refine ⟨Json.printFloat q, rfl, Or.inr ?_⟩
    by_cases hfinite : |Json.roundBinary 24 (-149) q| < 2 ^ 128
    · cases hread : signedDecimal (Json.printFloat q).toList with
      | some i => exact ⟨.int i, readBackAs_integer hwell hfinite hread⟩
      | none => exact ⟨_, readBackAs_decimal hwell hfinite hread⟩
    · exact ⟨_, readBackAs_infinite hwell hfinite⟩

end

/-- A member as it is printed. -/
def answerEntry (item : String × Json) : String :=
  item.1 ++ "=" ++ (answerText item.2).toOption.getD ""

/-- Members with what is read back of their values. -/
def addReread (obj : Members) (item : String × Json) : Members :=
  match reread item.2 with
  | none => obj
  | some w => put item.1 w obj

section
variable {pf : Platform}

theorem toList_answerEntry (item : String × Json) : (answerEntry item).toList =
    item.1.toList ++ '=' :: ((answerText item.2).toOption.getD "").toList := by
  rw [answerEntry, String.toList_append, String.toList_append, List.append_assoc]
  rfl

theorem keyValue_entry {key value : List Char} (hkey : KeyText key)
    (hvalue : value = [] ∨ ValueText value) : keyValue (key ++ '=' :: value) =
      if value = [] then none else some (String.ofList key, String.ofList value) := by
  have hall : ∀ c ∈ key, (c ≠ '=' && c ≠ ' ') = true := fun c hc => by
    have hne : c ≠ '=' := fun h => hkey.delimiters.1 (h ▸ hc)
    have hne' : c ≠ ' ' := fun h => hkey.delimiters.2.1 (h ▸ hc)
    simp [hne, hne']
  have htake : (key ++ '=' :: value).takeWhile (fun c => c ≠ '=' && c ≠ ' ') = key := by
    rw [List.takeWhile_append_of_pos hall]
    simp
  have hdrop : (key ++ '=' :: value).dropWhile (fun c => c ≠ '=' && c ≠ ' ') = '=' :: value := by
    rw [List.dropWhile_append_of_pos hall]
    simp
  have hassign : ('=' :: value).dropWhile isSpace = '=' :: value :=
    dropWhile_of_head fun c hc => by
      cases hc
      decide
  have htrim : value.dropWhile isSpace = value := by
    rcases hvalue with rfl | htext
    · rfl
    · exact dropWhile_of_head htext.first
  unfold keyValue
  simp only [htake, hdrop, hassign, htrim, if_neg hkey.filled]
  rw [if_neg (List.cons_ne_nil _ _)]
  rcases hvalue with rfl | htext
  · simp
  · rw [if_neg htext.filled, if_neg (not_or.mpr ⟨htext.filled, htext.delimiters.1⟩)]

/-- An entry is a token of its own, and read as what its value is read back as. -/
theorem answerEntry_read {item : String × Json} (hkey : KeyText item.1.toList)
    (hvalue : ParamValue pf item.1 item.2) :
    (';' ∉ (answerEntry item).toList ∧ (answerEntry item).toList ≠ []) ∧
      trim (answerEntry item).toList = (answerEntry item).toList ∧
      ∀ obj, insertParam pf obj (answerEntry item).toList = .ok (addReread obj item) := by
  obtain ⟨text, htext, hread⟩ := hvalue.readBack
  have hlist : (answerEntry item).toList = item.1.toList ++ '=' :: text.toList := by
    rw [toList_answerEntry, htext]
    rfl
  have hplain : text.toList = [] ∨ ValueText text.toList := by
    rcases hread with ⟨rfl, -⟩ | ⟨w, hw⟩
    · exact Or.inl rfl
    · exact Or.inr hw.plain
  rw [hlist]
  refine ⟨⟨fun hmem => ?_, by simp⟩, trim_id (fun c hc => ?_) (fun c hc => ?_), fun obj => ?_⟩
  · rcases List.mem_append.mp hmem with hmem | hmem
    · exact hkey.delimiters.2.2 hmem
    · rcases List.mem_cons.mp hmem with heq | hmem
      · cases heq
      · rcases hplain with hnil | hplain
        · rw [hnil] at hmem
          cases hmem
        · exact hplain.delimiters.2 hmem
  · refine hkey.first c ?_
    cases hfirst : item.1.toList with
    | nil => exact absurd hfirst hkey.filled
    | cons d ds =>
      rw [hfirst] at hc
      exact hc
  · rcases hplain with hnil | hplain
    · rw [hnil, List.getLast?_append] at hc
      cases hc
      decide
    · refine hplain.last c ?_
      rw [List.getLast?_append, List.getLast?_cons] at hc
      cases hlast : text.toList.getLast? with
      | none => exact absurd (List.getLast?_eq_none_iff.mp hlast) hplain.filled
      | some d =>
        rw [hlast] at hc
        exact hc
  · rw [insertParam, keyValue_entry hkey hplain]
    rcases hread with ⟨rfl, hnone⟩ | ⟨w, hw⟩
    · rw [addReread, hnone]
      rfl
    · rw [if_neg hw.plain.filled, addReread, hw.reread]
      simp only [String.ofList_toList, hw.value]
      rfl

/-- No key is there twice, so every member is the one read back of its value. -/
theorem get_foldl_addReread (k : String) : ∀ (m obj : Members), Sorted m →
    (∀ item ∈ m, get item.1 obj = none) →
    get k (m.foldl addReread obj) = ((get k m).bind reread).or (get k obj)
  | [], obj, _, _ => rfl
  | (key, v) :: m, obj, hsorted, hnew => by
    obtain ⟨hfirst, hrest⟩ := List.pairwise_cons.mp hsorted
    obtain ⟨hkey, hnew⟩ := List.forall_mem_cons.mp hnew
    have hnext : ∀ item ∈ m, get item.1 (addReread obj (key, v)) = none := by
      intro item hitem
      unfold addReread
      cases reread v with
      | none => exact hnew item hitem
      | some w =>
        rw [get_put_of_ne _ (ne_of_gt (hfirst item hitem))]
        exact hnew item hitem
    rw [List.foldl_cons, get_foldl_addReread k m _ hrest hnext, Lib.get]
    by_cases hk : k = key
    · subst hk
      have hnone : get k m = none := by
        cases hget : get k m with
        | none => rfl
        | some w => exact absurd (hfirst _ (mem_of_get hget)) (lt_irrefl k)
      rw [hnone, if_pos rfl, Option.bind_none, Option.none_or, Option.bind_some, addReread]
      cases reread v with
      | none => rfl
      | some w => rw [get_put_self, Option.some_or]
    · rw [if_neg hk]
      congr 1
      unfold addReread
      cases reread v with
      | none => rfl
      | some w => rw [get_put_of_ne _ hk]

/-- Parameters that are printed are read back member by member. -/
theorem parseParams_answerConfig {m : Members} (h : Params pf m) : ∃ config m',
    answerConfig (.obj m) = .ok config ∧ parseParams pf config = .ok m' ∧
      ∀ k, get k m' = (get k m).bind reread := by
  have htexts : ∀ item ∈ m, answerText item.2 = .ok ((answerText item.2).toOption.getD "") := by
    intro item hitem
    obtain ⟨text, htext, -⟩ := (h.members item hitem).2.readBack
    rw [htext]
    rfl
  have hread := fun item hitem => answerEntry_read (h.members item hitem).1 (h.members item hitem).2
  have hne : ∀ item ∈ m, answerEntry item ≠ "" := fun item hitem hempty => by
    obtain ⟨⟨-, hfilled⟩, -⟩ := hread item hitem
    rw [hempty] at hfilled
    exact hfilled rfl
  have hconfig : answerConfig (.obj m) = .ok (";".intercalate (m.map answerEntry)) := by
    unfold answerConfig
    change m.foldlM _ "" = _
    rw [← foldl_join ";" hne]
    refine foldlM_eq_foldl (fun item hitem config => ?_) ""
    rw [htexts item hitem]
    simp only [answerEntry, String.append_assoc]
    rfl
  have hstep : ∀ token ∈ m.map answerEntry, ';' ∉ token.toList ∧ token.toList ≠ [] := by
    intro token htoken
    obtain ⟨item, hitem, rfl⟩ := List.mem_map.mp htoken
    exact (hread item hitem).1
  have hsplit : split (";".intercalate (m.map answerEntry)) ';' = m.map answerEntry := by
    by_cases hnil : m.map answerEntry = []
    · rw [hnil]
      rfl
    · exact split_intercalate hnil hstep
  refine ⟨_, m.foldl addReread [], hconfig, ?_, fun k => ?_⟩
  · unfold parseParams
    rw [hsplit, List.foldlM_map]
    refine foldlM_eq_foldl (fun item hitem obj => ?_) []
    obtain ⟨⟨-, hfilled⟩, htrim, hinsert⟩ := hread item hitem
    rw [htrim, if_neg hfilled, hinsert]
  · rw [get_foldl_addReread k m [] h.sorted fun _ _ => rfl]
    exact Option.or_none

end

end MediasoupClient.Sdp
