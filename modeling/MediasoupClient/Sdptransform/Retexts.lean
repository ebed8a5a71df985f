import MediasoupClient.Sdptransform.Roundtrip

/-! What is read of a text is printed as a text of the same kind, which is read as the same.

        "007"                     ──▶  7                    ──▶  "7"
        "99999999999999999999"    ──▶  0, out of range      ──▶  "0"
        "opus"                    ──▶  "opus"               ──▶  "opus"

    A group that is read as an integer has only digits, with each of the kinds of groups that the
    grammar has: the printed number is again one that the group can hold (`Numeral`). When a line
    comes again, its texts replace those that an object has, and none is lost (`merged`). -/

namespace MediasoupClient.Sdptransform
open Lib Lib.Regex Sdp

section
variable (pf : Platform) (dump : Json → String)

/-- The text that is printed of what a text is read as. -/
def retext (type : ValueType) (t : List Char) : List Char :=
  match toType pf t type with
  | .ok v => argText dump v
  | .error _ => []

/-- The text of a member that had one, or none, when another is read. -/
def merge (type : ValueType) (t₀ t : List Char) : List Char :=
  if t = [] then t₀ else retext pf dump type t

/-- The texts of an object. -/
def merged : List ValueType → List (List Char) → List (List Char) → List (List Char)
  | type :: types, t₀ :: g₀, t :: g => merge pf dump type t₀ t :: merged types g₀ g
  | _, _, _ => []

/-- A kind of texts of which what is printed is one of them, and is read as the same. -/
structure Stable (type : ValueType) (P : List Char → Prop) : Prop where
  again : ∀ t, P t → ∃ v, toType pf t type = .ok v ∧ toType pf (retext pf dump type t) type = .ok v
  kind : ∀ t, P t → P (retext pf dump type t)
  filled : ∀ t, P t → t ≠ [] → retext pf dump type t ≠ []
  same : ∀ t, P t → retext pf dump type t = t ∨ ∀ c ∈ retext pf dump type t, c.isDigit = true

end

variable {pf : Platform} {dump : Json → String} {P : List Char → Prop}

/-! ### Texts and numbers -/

@[simp] theorem retext_text (t : List Char) : retext pf dump .s t = t := String.toList_ofList

/-- A text stays what it is. -/
theorem stable_text : Stable pf dump .s P where
  again t _ := ⟨.str (String.ofList t), rfl, by rw [retext_text]; rfl⟩
  kind t h := by rwa [retext_text]
  filled t _ hne := by rwa [retext_text]
  same t _ := Or.inl (retext_text t)

/-- Texts of digits, with the number of each of them. -/
structure Numeral (P : List Char → Prop) : Prop where
  digits : ∀ t, P t → ∀ c ∈ t, c.isDigit = true
  printed : ∀ t, P t → P (toString (decimal t)).toList
  zero : P ['0']

theorem numeral_many : Numeral (Lang (.many Char.isDigit)) where
  digits _ h := lang_many.mp h
  printed t _ := lang_many.mpr (isDigits_iff.mp (toString_digits (decimal t)).1).2
  zero := lang_many.mpr (List.all_eq_true.mp (by decide))

theorem numeral_many1 : Numeral (Lang (many1 Char.isDigit)) where
  digits _ h := (lang_many1.mp h).2
  printed t _ := lang_many1.mpr (isDigits_iff.mp (toString_digits (decimal t)).1)
  zero := lang_many1.mpr ⟨by decide, List.all_eq_true.mp (by decide)⟩

/-- One digit is printed as one. -/
theorem numeral_char : Numeral (Lang (.char Char.isDigit)) where
  digits t h := by
    obtain ⟨c, rfl, hc⟩ := lang_char.mp h
    exact List.forall_mem_singleton.mpr hc
  printed t h := by
    obtain ⟨c, rfl, hc⟩ := lang_char.mp h
    obtain ⟨hdigits, -⟩ := toString_digits (decimal [c])
    have hsmall : decimal [c] < 10 := by
      have hrange : c.toNat ≤ 57 := by
        simp only [Char.isDigit, Bool.and_eq_true, decide_eq_true_eq] at hc
        exact UInt32.le_iff_toNat_le.mp hc.2
      simp only [decimal, List.foldl_cons, List.foldl_nil]
      omega
    have hlen : (toString (decimal [c])).toList.length ≤ 1 := by
      have hlist : (toString (decimal [c])).toList = Nat.toDigits 10 (decimal [c]) :=
        Nat.toList_repr
      rw [hlist]
      exact (Nat.length_toDigits_le_iff (by decide) (by decide)).mpr hsmall
    obtain ⟨hne, hall⟩ := isDigits_iff.mp hdigits
    obtain ⟨d, hd⟩ := List.length_eq_one_iff.mp
      (le_antisymm hlen (List.length_pos_iff.mpr hne))
    exact lang_char.mpr ⟨d, hd, hall d (hd ▸ List.mem_singleton_self d)⟩
  zero := lang_char.mpr ⟨'0', rfl, by decide⟩

theorem numeral_opt (h : Numeral P) : Numeral fun t => t = [] ∨ P t where
  digits t ht := ht.elim (fun hnil c hc => absurd (hnil ▸ hc) List.not_mem_nil) (h.digits t)
  printed t ht := by
    rcases ht with rfl | ht
    · exact Or.inr h.zero
    · exact Or.inr (h.printed t ht)
  zero := Or.inr h.zero

theorem signedDecimal_numeral {t : List Char} (h : ∀ c ∈ t, c.isDigit = true) :
    signedDecimal t = if t = [] then none else some (decimal t : ℤ) := by
  split_ifs with hne
  · rw [hne]
    rfl
  · exact signedDecimal_digits (isDigits_iff.mpr ⟨hne, h⟩)

/-- An integer that is in range comes back. -/
theorem toType_int {n : ℕ} (h : n < 2 ^ 63) :
    toType pf (toString n).toList .d = .ok (.int n) := by
  have hread : readInteger 64 (toString (n : ℤ)).toList = some (n : ℤ) :=
    readInteger_toString (by omega) (by omega)
  exact congrArg (fun i : Option ℤ => Except.ok (Json.int (i.getD 0))) hread

theorem toType_uint {n : ℕ} (h : n < 2 ^ 64) :
    toType pf (toString n).toList .u = .ok (.uint n) := by
  have hread : (signedDecimal (toString (n : ℤ)).toList).filter
      (fun i => -2 ^ 64 < i ∧ i < 2 ^ 64) = some (n : ℤ) := by
    rw [signedDecimal_toString, Option.filter_some, if_pos (decide_eq_true ⟨by omega, by omega⟩)]
  have hmod : ((n : ℤ) % 2 ^ 64).toNat = n := by omega
  have htext : (toString (n : ℤ)).toList = (toString n).toList := rfl
  rw [toType, ← htext, hread]
  exact congrArg (fun n => Except.ok (Json.uint n)) hmod

/-- An integer of digits, or 0. -/
theorem toType_number {t : List Char} (h : ∀ c ∈ t, c.isDigit = true) {type : ValueType}
    (htype : type = .d ∨ type = .u) :
    ∃ n v, (n = decimal t ∨ n = 0) ∧ toType pf t type = .ok v ∧
      argText dump v = (toString n).toList ∧ toType pf (toString n).toList type = .ok v := by
  have hsigned := signedDecimal_numeral h
  rcases htype with rfl | rfl
  · have hread : ∃ n : ℕ, (n = decimal t ∨ n = 0) ∧ n < 2 ^ 63 ∧
        (readInteger 64 t).getD 0 = (n : ℤ) := by
      rw [readInteger, hsigned]
      split_ifs with hne
      · exact ⟨0, Or.inr rfl, by decide, rfl⟩
      · by_cases hrange : decimal t < 2 ^ 63
        · refine ⟨decimal t, Or.inl rfl, hrange, ?_⟩
          rw [Option.filter_some, if_pos (decide_eq_true ⟨by omega, by omega⟩), Option.getD_some]
        · refine ⟨0, Or.inr rfl, by decide, ?_⟩
          rw [Option.filter_some, if_neg]
          · rfl
          · simp only [decide_eq_true_eq]
            omega
    obtain ⟨n, hn, hrange, hread⟩ := hread
    exact ⟨n, .int n, hn, congrArg (fun i => Except.ok (Json.int i)) hread, rfl,
      toType_int hrange⟩
  · have hread : ∃ n : ℕ, (n = decimal t ∨ n = 0) ∧ n < 2 ^ 64 ∧
        toType pf t .u = .ok (.uint n) := by
      rw [toType, hsigned]
      split_ifs with hne
      · exact ⟨0, Or.inr rfl, by decide, rfl⟩
      · by_cases hrange : decimal t < 2 ^ 64
        · refine ⟨decimal t, Or.inl rfl, hrange, ?_⟩
          rw [Option.filter_some, if_pos (decide_eq_true ⟨by omega, by omega⟩)]
          have hmod : ((decimal t : ℤ) % 2 ^ 64).toNat = decimal t := by omega
          exact congrArg (fun n => Except.ok (Json.uint n)) hmod
        · refine ⟨0, Or.inr rfl, by decide, ?_⟩
          rw [Option.filter_some, if_neg]
          simp only [decide_eq_true_eq]
          omega
    obtain ⟨n, hn, hrange, hread⟩ := hread
    exact ⟨n, .uint n, hn, hread, rfl, toType_uint hrange⟩

/-- The numbers that are printed are again of the kind. -/
theorem stable_number (h : Numeral P) {type : ValueType} (htype : type = .d ∨ type = .u) :
    Stable pf dump type P := by
  have hall : ∀ t, P t → ∃ n v, (n = decimal t ∨ n = 0) ∧ toType pf t type = .ok v ∧
      retext pf dump type t = (toString n).toList ∧
      toType pf (toString n).toList type = .ok v := by
    intro t ht
    have hnumber : ∃ n v, (n = decimal t ∨ n = 0) ∧ toType pf t type = .ok v ∧
        argText dump v = (toString n).toList ∧ toType pf (toString n).toList type = .ok v :=
      toType_number (h.digits t ht) htype
    obtain ⟨n, v, hn, hread, hprint, hback⟩ := hnumber
    exact ⟨n, v, hn, hread, by rw [retext, hread]; exact hprint, hback⟩
  refine ⟨fun t ht => ?_, fun t ht => ?_, fun t ht _ => ?_, fun t ht => ?_⟩ <;>
    obtain ⟨n, v, hn, hread, hprint, hback⟩ := hall t ht <;> rw [hprint]
  · exact ⟨v, hread, hback⟩
  · rcases hn with rfl | rfl
    · exact h.printed t ht
    · exact h.zero
  · exact (isDigits_iff.mp (toString_digits n).1).1
  · exact Or.inr (isDigits_iff.mp (toString_digits n).1).2

/-! ### The groups of the grammar -/

/-- The types of the groups of a rule. -/
def Rule.fields (rule : Rule) : List ValueType :=
  if rule.names = [] then [rule.types.headD .s] else (rule.names.zip rule.types).map (·.2)

/-- What is read of each group of a rule is printed as such a group. -/
def Rule.Stable (pf : Platform) (dump : Json → String) (rule : Rule) : Prop :=
  List.Forall₂ (Sdptransform.Stable pf dump) rule.fields rule.reg.body.classes

theorem stable_int : Sdptransform.Stable pf dump .d (Lang (.many Char.isDigit)) :=
  stable_number numeral_many (Or.inl rfl)

theorem stable_maybe : Sdptransform.Stable pf dump .d fun t => t = [] ∨ Lang (.many Char.isDigit) t :=
  stable_number (numeral_opt numeral_many) (Or.inl rfl)

theorem attributes_stable : ∀ rule ∈ attributeRules, ValueType.f ∉ rule.types →
    rule.Stable pf dump := by
  simp only [attributeRules, List.forall_mem_cons]
  exact ⟨fun _ => .cons stable_int (.cons stable_text (.cons stable_maybe (.cons stable_text .nil))),
    fun _ => .cons stable_int (.cons stable_text .nil),
    fun _ => .cons stable_text .nil,
    fun _ => .cons stable_int (.cons stable_text (.cons (stable_number (numeral_opt numeral_char)
      (Or.inl rfl)) (.cons stable_text .nil))),
    fun _ => .cons stable_text (.cons stable_int .nil),
    fun _ => .cons stable_text (.cons stable_text (.cons stable_text .nil)),
    fun _ => .cons (stable_number numeral_many1 (Or.inl rfl)) (.cons stable_text (.cons stable_text
      (.cons stable_text (.cons stable_text .nil)))),
    fun _ => .cons stable_text .nil,
    fun _ => .cons stable_int (.cons stable_text (.cons stable_text (.cons stable_text .nil))),
    fun _ => .cons stable_text .nil,
    fun _ => .cons stable_text .nil,
    fun _ => .cons stable_text .nil,
    fun _ => .cons stable_int .nil,
    fun _ => .cons stable_int .nil,
    fun _ => .cons stable_text .nil,
    fun _ => .cons stable_text .nil,
    fun _ => .cons stable_text .nil,
    fun _ => .cons stable_text .nil,
    fun _ => .cons stable_text (.cons stable_text .nil),
    fun _ => .cons stable_text (.cons stable_int (.cons stable_text (.cons stable_int
      (.cons stable_text (.cons stable_int (.cons stable_text (.cons stable_text (.cons stable_maybe
      (.cons stable_text (.cons stable_maybe (.cons stable_maybe (.cons stable_maybe .nil)))))))))))),
    fun _ => .cons stable_text .nil,
    fun _ => .cons stable_text .nil,
    fun _ => .cons stable_text .nil,
    fun _ => .cons stable_int (.cons stable_text (.cons stable_text .nil)),
    fun _ => .cons stable_text (.cons stable_text .nil),
    fun _ => .cons stable_text (.cons stable_text .nil),
    fun _ => .cons stable_text (.cons stable_text .nil),
    fun _ => .cons stable_text .nil,
    fun _ => .cons stable_text .nil,
    fun _ => .cons (stable_number numeral_many1 (Or.inl rfl)) (.cons stable_text
      (.cons stable_maybe .nil)),
    fun _ => .cons stable_text .nil,
    fun _ => .cons stable_text (.cons stable_text (.cons stable_text .nil)),
    fun _ => .cons stable_text (.cons stable_text (.cons stable_text (.cons stable_text
      (.cons stable_text .nil)))),
    fun _ => .cons stable_text (.cons stable_text (.cons stable_text (.cons stable_text .nil))),
    fun _ => .cons stable_text .nil,
    fun h => absurd (by decide) h,
    fun _ => .cons stable_text (.cons stable_text (.cons stable_text (.cons stable_text
      (.cons stable_text .nil)))),
    fun _ => .cons stable_text .nil,
    fun _ => .cons stable_text .nil,
    fun _ => .cons stable_text .nil, fun _ h => absurd h List.not_mem_nil⟩

theorem rulesMap_stable {type : Char} {rule : Rule} (hrule : rule ∈ rulesMap type)
    (hf : ValueType.f ∉ rule.types) : rule.Stable pf dump := by
  unfold rulesMap at hrule
  split at hrule
  · exact List.mem_singleton.mp hrule ▸ .cons stable_int .nil
  · exact List.mem_singleton.mp hrule ▸ .cons stable_text (.cons
      (stable_number numeral_many (Or.inr rfl)) (.cons (stable_number numeral_many (Or.inr rfl))
      (.cons stable_text (.cons (stable_number numeral_char (Or.inl rfl))
      (.cons stable_text .nil)))))
  · exact List.mem_singleton.mp hrule ▸ .cons stable_text .nil
  · exact List.mem_singleton.mp hrule ▸ .cons stable_text .nil
  · exact List.mem_singleton.mp hrule ▸ .cons stable_text .nil
  · exact List.mem_singleton.mp hrule ▸ .cons stable_text .nil
  · exact List.mem_singleton.mp hrule ▸ .cons stable_text .nil
  · exact List.mem_singleton.mp hrule ▸ .cons stable_text .nil
  · exact List.mem_singleton.mp hrule ▸ .cons stable_text .nil
  · exact List.mem_singleton.mp hrule ▸ .cons stable_int (.cons stable_int .nil)
  · exact List.mem_singleton.mp hrule ▸ .cons (stable_number numeral_char (Or.inl rfl))
      (.cons stable_text (.cons stable_maybe .nil))
  · exact List.mem_singleton.mp hrule ▸ .cons stable_text (.cons stable_int .nil)
  · exact List.mem_singleton.mp hrule ▸ .cons stable_text (.cons stable_int (.cons stable_maybe
      (.cons stable_text (.cons stable_text .nil))))
  · exact attributes_stable rule hrule hf
  · exact absurd hrule List.not_mem_nil

/-! ### The members of a line -/

/-- A property that texts of digits have. -/
theorem Stable.and {type : ValueType} {Q : List Char → Prop} (h : Stable pf dump type P)
    (hQ : ∀ t, (∀ c ∈ t, c.isDigit = true) → Q t) : Stable pf dump type fun t => P t ∧ Q t where
  again t ht := h.again t ht.1
  kind t ht := by
    refine ⟨h.kind t ht.1, ?_⟩
    rcases h.same t ht.1 with heq | hdigits
    · rw [heq]
      exact ht.2
    · exact hQ _ hdigits
  filled t ht := h.filled t ht.1
  same t ht := h.same t ht.1

/-- A text that is there, and what is stored of it. -/
theorem Stable.holds {type : ValueType} (h : Stable pf dump type P) {t : List Char} (ht : P t)
    (hne : t ≠ []) : ∃ v, toType pf t type = .ok v ∧
      Holds pf dump type (some v) (retext pf dump type t) := by
  obtain ⟨v, hread, hback⟩ := h.again t ht
  refine ⟨v, hread, h.filled t ht hne, ?_, hback⟩
  rw [retext, hread]

/-- The texts of a location are those of one with the same members. -/
theorem holds_congr {fields : List (String × ValueType)} {a b : Json} {g : List (List Char)}
    (h : List.Forall₂ (fun nt t => Holds pf dump nt.2 (a.find nt.1) t) fields g)
    (hsame : ∀ nt ∈ fields, b.find nt.1 = a.find nt.1) :
    List.Forall₂ (fun nt t => Holds pf dump nt.2 (b.find nt.1) t) fields g := by
  induction h with
  | nil => exact .nil
  | cons hmember _ ih =>
    obtain ⟨hhead, htail⟩ := List.forall_mem_cons.mp hsame
    refine .cons ?_ (ih htail)
    rw [hhead]
    exact hmember

/-- The texts of a line are merged into what a location has. -/
theorem attachNames_merged {names : List String} {types : List ValueType}
    (hnodup : names.Nodup) {Ps : List (List Char → Prop)}
    (hstable : List.Forall₂ (fun nt P => Stable pf dump nt.2 P) (names.zip types) Ps)
    (hlen : names.length ≤ types.length) {g g₀ : List (List Char)}
    (hg : List.Forall₂ (fun P t => P t) Ps g) {location : Members} (hsorted : Sorted location)
    (hlocation : List.Forall₂ (fun nt t => Holds pf dump nt.2 ((Json.obj location).find nt.1) t)
      (names.zip types) g₀)
    (hg₀ : List.Forall₂ (fun P t => t = [] ∨ P t) Ps g₀) :
    ∃ location', attachNames pf names types g location = .ok location' ∧ Sorted location' ∧
      List.Forall₂ (fun nt t => Holds pf dump nt.2 ((Json.obj location').find nt.1) t) (names.zip types)
        (merged pf dump types g₀ g) ∧
      List.Forall₂ (fun P t => P t) Ps (merged pf dump types g₀ g) ∧
      ∀ k ∉ names, get k location' = get k location := by
  induction names generalizing types Ps g g₀ location with
  | nil =>
    cases hstable
    cases hg
    cases hg₀
    refine ⟨location, by cases types <;> rfl, hsorted, ?_, ?_, fun _ _ => rfl⟩
    · cases types <;> exact .nil
    · cases types <;> exact .nil
  | cons name names ih =>
    cases types with
    | nil => cases hlen
    | cons type types =>
      obtain ⟨hname, hnodup⟩ := List.nodup_cons.mp hnodup
      rcases hstable with _ | ⟨hP, hstable⟩
      rcases hg with _ | ⟨ht, hg⟩
      rcases hlocation with _ | ⟨hmember, hlocation⟩
      rcases hg₀ with _ | ⟨ht₀, hg₀⟩
      rename_i P Ps t g t₀ g₀
      have hlen := Nat.le_of_succ_le_succ hlen
      by_cases hne : t = []
      · obtain ⟨location', hok, hsorted', hholds, hkinds, hother⟩ :=
          ih hnodup hstable hlen hg hsorted hlocation hg₀
        have hmerge : merge pf dump type t₀ t = t₀ := if_pos hne
        refine ⟨location', by rw [attachNames, if_pos hne, hok], hsorted', ?_, ?_, fun k hk => ?_⟩
        · have hkept : (Json.obj location').find name = (Json.obj location).find name :=
            hother name hname
          refine .cons ?_ hholds
          rw [hmerge, hkept]
          exact hmember
        · refine .cons ?_ hkinds
          rw [hmerge]
          exact ht₀.elim (fun hnil => hnil ▸ hne ▸ ht) id
        · exact hother k fun h => hk (List.mem_cons_of_mem name h)
      · obtain ⟨v, hread, hv⟩ := hP.holds ht hne
        have hkept : List.Forall₂ (fun nt t => Holds pf dump nt.2
            ((Json.obj (put name v location)).find nt.1) t) (names.zip types) g₀ := by
          refine holds_congr (a := .obj location) hlocation fun nt hnt => ?_
          have hne : nt.1 ≠ name := by
            rintro rfl
            exact hname (List.of_mem_zip hnt).1
          exact get_put_of_ne v hne location
        obtain ⟨location', hok, hsorted', hholds, hkinds, hother⟩ :=
          ih hnodup hstable hlen hg (sorted_put name v hsorted) hkept hg₀
        have hmerge : merge pf dump type t₀ t = retext pf dump type t := if_neg hne
        refine ⟨location', ?_, hsorted', ?_, ?_, fun k hk => ?_⟩
        · rw [attachNames, if_neg hne, hread]
          exact hok
        · have hstored : (Json.obj location').find name = some v :=
            (hother name hname).trans (get_put_self ..)
          refine .cons ?_ hholds
          rw [hmerge, hstored]
          exact hv
        · refine .cons ?_ hkinds
          rw [hmerge]
          exact hP.kind t ht
        · obtain ⟨hk, hks⟩ := List.ne_and_not_mem_of_not_mem_cons hk
          rw [hother k hks, get_put_of_ne v hk]

end MediasoupClient.Sdptransform
