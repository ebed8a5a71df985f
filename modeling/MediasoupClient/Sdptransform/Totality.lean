import MediasoupClient.Sdptransform.CapabilityParse
import MediasoupClient.Sdptransform.Reprint

/-! Which texts are read at all.

        a=framerate:29.97           29.97
        a=framerate:0.000...0001    std::stod throws std::out_of_range, and so does parse

    Whatever the lines are, no other value is refused: a text that is no number is 0, a line that
    no rule reads is skipped, and a group without a text makes no member. -/

namespace MediasoupClient.Sdptransform
open Lib Lib.Regex Sdp

variable {pf : Platform} {content : List Char} {g : List (List Char)}

/-- A loop over items of which each one fails or not, whatever came before. -/
theorem foldlM_ok_iff {ε α β : Type} {f : β → α → Except ε β} {good : α → Prop}
    (hstep : ∀ b x, (∃ b', f b x = .ok b') ↔ good x) (xs : List α) (b : β) :
    (∃ r, xs.foldlM f b = .ok r) ↔ ∀ x ∈ xs, good x := by
  induction xs generalizing b with
  | nil => exact ⟨fun _ x hx => absurd hx List.not_mem_nil, fun _ => ⟨b, rfl⟩⟩
  | cons x xs ih =>
    rw [List.forall_mem_cons, List.foldlM_cons]
    constructor
    · rintro ⟨r, hr⟩
      obtain ⟨b', hb', hrest⟩ := bind_ok.mp hr
      exact ⟨(hstep b x).mp ⟨b', hb'⟩, (ih b').mp ⟨r, hrest⟩⟩
    · rintro ⟨hx, hxs⟩
      obtain ⟨b', hb'⟩ := (hstep b x).mpr hx
      obtain ⟨r, hr⟩ := (ih b').mpr hxs
      exact ⟨r, bind_ok.mpr ⟨b', hb', hr⟩⟩

/-! ### Values -/

/-- A framerate that `std::stod` refuses. -/
def Underflows (pf : Platform) (t : List Char) : Prop :=
  ∃ q, readDouble t = some q ∧ pf.underflows q = true

theorem toType_returns (pf : Platform) (t : List Char) {type : ValueType} (htype : type ≠ .f) :
    ∃ v, toType pf t type = .ok v := by
  cases type with
  | s => exact ⟨_, rfl⟩
  | u =>
    simp only [toType]
    split
    · exact ⟨_, rfl⟩
    · exact ⟨_, rfl⟩
  | d => exact ⟨_, rfl⟩
  | f => exact absurd rfl htype

theorem toType_float_iff (t : List Char) :
    (∃ v, toType pf t .f = .ok v) ↔ ¬ Underflows pf t := by
  unfold toType Underflows
  cases hread : readDouble t with
  | none => simp
  | some q =>
    by_cases hsmall : pf.underflows q = true
    · simp [hsmall]
    · simp [hsmall]

/-! ### Lines -/

theorem attachNames_returns (pf : Platform) (names : List String) {types : List ValueType}
    (htypes : ValueType.f ∉ types) (g : List (List Char)) (location : Members) :
    ∃ m, attachNames pf names types g location = .ok m := by
  induction names generalizing types g location with
  | nil => exact ⟨location, rfl⟩
  | cons name names ih =>
    cases types with
    | nil => exact ⟨location, rfl⟩
    | cons type types =>
      obtain ⟨htype, htypes⟩ := not_or.mp fun h => htypes (List.mem_cons.mpr h)
      cases g with
      | nil => exact ⟨location, rfl⟩
      | cons t g =>
        rw [attachNames]
        split_ifs
        · exact ih htypes g location
        · obtain ⟨v, hv⟩ := toType_returns pf t (Ne.symm htype)
          obtain ⟨m, hm⟩ := ih htypes g (put name v location)
          exact ⟨m, bind_ok.mpr ⟨v, hv, hm⟩⟩

theorem storeReg_returns {rule : Rule} (htypes : ValueType.f ∉ rule.types) (location : Members) :
    ∃ m, storeReg pf rule g location = .ok m := by
  unfold storeReg
  split_ifs with hpush hname hnames
  · obtain ⟨object, hobject⟩ := attachNames_returns pf rule.names htypes g []
    exact ⟨_, bind_ok.mpr ⟨object, hobject, rfl⟩⟩
  · exact attachNames_returns pf rule.names htypes g location
  · have htype : rule.types.headD .s ≠ .f := by
      cases hrule : rule.types with
      | nil => decide
      | cons type types => exact fun hf => htypes (hrule ▸ hf ▸ List.mem_cons_self ..)
    obtain ⟨v, hv⟩ := toType_returns pf (g.headD []) htype
    exact ⟨_, bind_ok.mpr ⟨v, hv, rfl⟩⟩
  · obtain ⟨members, hmembers⟩ := attachNames_returns pf rule.names htypes g _
    exact ⟨_, bind_ok.mpr ⟨members, hmembers, rfl⟩⟩

/-- The rule with a number of type `f`. -/
theorem float_rule {type : Char} {rule : Rule} (hrule : rule ∈ rulesMap type)
    (hf : ValueType.f ∈ rule.types) : rule = framerateRule := by
  by_cases hm : type = 'm'
  · subst hm
    rw [List.mem_singleton.mp hrule] at hf
    exact absurd hf (by decide)
  · exact outerRules_of outerRules_float (mem_outerRules hm hrule) (decide_eq_true hf)

theorem framerate_returns_iff (location : Members) :
    (∃ m, storeReg pf framerateRule g location = .ok m) ↔ ¬ Underflows pf (g.headD []) := by
  rw [← toType_float_iff]
  have hread : storeReg pf framerateRule g location =
      (toType pf (g.headD []) .f >>= fun v => .ok (put "framerate" v location)) := rfl
  rw [hread]
  constructor
  · rintro ⟨m, hm⟩
    obtain ⟨v, hv, -⟩ := bind_ok.mp hm
    exact ⟨v, hv⟩
  · rintro ⟨v, hv⟩
    exact ⟨_, bind_ok.mpr ⟨v, hv, rfl⟩⟩

/-- A line that is read as a framerate, and refused. -/
def Refused (pf : Platform) (line : List Char) : Prop :=
  ∃ type content g, line = type :: '=' :: content ∧ type.isLower = true ∧
    findRule content (rulesMap type) = some (framerateRule, g) ∧ Underflows pf (g.headD [])

theorem storeRules_returns_iff (type : Char) (content : List Char) (location : Members) :
    (∃ m, storeRules pf type content location = .ok m) ↔
      ∀ g, findRule content (rulesMap type) = some (framerateRule, g) →
        ¬ Underflows pf (g.headD []) := by
  unfold storeRules
  cases hfind : findRule content (rulesMap type) with
  | none => exact ⟨fun _ g hg => (nomatch hg), fun _ => ⟨location, rfl⟩⟩
  | some found =>
    obtain ⟨rule, g⟩ := found
    by_cases hf : ValueType.f ∈ rule.types
    · obtain rfl := float_rule (search_of_findRule hfind).1 hf
      refine (framerate_returns_iff location).trans ⟨fun h g' hg' => ?_, fun h => h g rfl⟩
      cases hg'
      exact h
    · refine ⟨fun _ g' hg' => ?_, fun _ => storeReg_returns hf location⟩
      cases hg'
      exact absurd (List.mem_singleton_self _) hf

theorem storeLine_returns_iff (st : Parsing) (line : List Char) :
    (∃ st', storeLine pf st line = .ok st') ↔ ¬ Refused pf line := by
  by_cases hvalid : ∃ type content, line = type :: '=' :: content ∧ type.isLower = true
  swap
  · refine ⟨fun _ => ?_, fun _ => ⟨st, storeLine_invalid hvalid st⟩⟩
    rintro ⟨type, content, g, hline, hlower, -⟩
    exact hvalid ⟨type, content, hline, hlower⟩
  obtain ⟨type, content, rfl, hlower⟩ := hvalid
  have hrefused : ¬ Refused pf (type :: '=' :: content) ↔
      ∀ g, findRule content (rulesMap type) = some (framerateRule, g) →
        ¬ Underflows pf (g.headD []) := by
    refine ⟨fun h g hfind hsmall => h ⟨type, content, g, rfl, hlower, hfind, hsmall⟩, fun h => ?_⟩
    rintro ⟨type', content', g, hline, -, hfind, hsmall⟩
    cases hline
    exact h g hfind hsmall
  have hmap : ∀ {α β : Type} {f : α → β} {x : Except Invalid α},
      (∃ r, x.map f = .ok r) ↔ ∃ a, x = .ok a := by
    intro α β f x
    refine ⟨fun ⟨r, hr⟩ => ?_, fun ⟨a, ha⟩ => ⟨f a, ha ▸ rfl⟩⟩
    obtain ⟨a, ha, -⟩ := except_map_ok hr
    exact ⟨a, ha⟩
  obtain ⟨session, media⟩ := st
  by_cases hm : type = 'm'
  · subst hm
    rw [storeLine_media, hmap, hrefused]
    exact storeRules_returns_iff 'm' content blankMedia
  · cases media with
    | nil =>
      rw [storeLine_session hlower hm, hmap, hrefused]
      exact storeRules_returns_iff type content session
    | cons m rest =>
      rw [storeLine_section hlower hm, hmap, hrefused]
      exact storeRules_returns_iff type content m

/-- CORRECT: a text is read exactly if none of its lines is a framerate that is refused. -/
theorem parse_returns_iff (sdp : String) :
    (∃ v, parse pf sdp = .ok v) ↔ ∀ line ∈ split sdp '\n', ¬ Refused pf (withoutCr line) := by
  rw [parse_eq]
  have hlines : (∃ st, (split sdp '\n').foldlM (fun st line => storeLine pf st (withoutCr line))
      ⟨[], []⟩ = .ok st) ↔ ∀ line ∈ split sdp '\n', ¬ Refused pf (withoutCr line) :=
    foldlM_ok_iff (fun st line => storeLine_returns_iff st (withoutCr line)) _ _
  rw [← hlines]
  constructor
  · rintro ⟨v, hv⟩
    obtain ⟨st, hst, -⟩ := bind_ok.mp hv
    exact ⟨st, hst⟩
  · rintro ⟨st, hst⟩
    exact ⟨_, bind_ok.mpr ⟨st, hst, rfl⟩⟩

end MediasoupClient.Sdptransform
