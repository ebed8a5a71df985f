import MediasoupClient.Sdptransform.CapabilityRules
import MediasoupClient.Sdptransform.Shapes

/-! The members that the capabilities are read from, of any text.

        text   ──parse──▶      { media: [ { type, rtp, fmtp, mid, setup, candidates, ... } ], origin, ... }
               ──Sdp.parse──▶  { media: [ { type, rtp, fmtp } ] }

    `Sdp.parse` follows six of the rules. Of every other rule the full grammar stores under another
    key, so that both have the same sections with the same members (`Same`). -/

namespace MediasoupClient.Sdptransform
open Lib Lib.Regex Sdp

variable {pf : Platform} {content : List Char} {g : List (List Char)} {keys arrays : List String}

/-- The arrays that `Sdp.parse` fills, and the members of the line of a section. -/
def capabilityArrays : List String := ["rtp", "fmtp", "rtcpFbTrrInt", "rtcpFb", "ext"]

def capabilityKeys : List String :=
  ["type", "port", "numPorts", "protocol", "payloads"] ++ capabilityArrays

/-- The same members under some keys, and nothing but arrays where there are arrays. -/
structure SameMembers (keys arrays : List String) (a b : Members) : Prop where
  member : ∀ key ∈ keys, get key a = get key b
  array : ∀ key ∈ arrays, ∀ v, get key b = some v → ∃ es, v = .arr es

/-- The same members for the capabilities. -/
abbrev Same : Members → Members → Prop := SameMembers capabilityKeys capabilityArrays

/-- The types of the members of `Sdp.parse`. -/
def typeOf : FieldType → ValueType
  | .text => .s
  | .number => .d

/-! ### One line -/

/-- A text, or a number of digits. -/
theorem toType_same {t : List Char} (hne : t ≠ []) {type : FieldType}
    (hdigits : type = .number → ∀ c ∈ t, c.isDigit = true) :
    toType pf t (typeOf type) = .ok (Sdp.toType (String.ofList t) type) := by
  cases type with
  | text => rfl
  | number =>
    have hsigned := signedDecimal_digits (isDigits_iff.mpr ⟨hne, hdigits rfl⟩)
    have hread : (readInteger 64 t).getD 0 = if decimal t < 2 ^ 63 then (decimal t : ℤ) else 0 := by
      rw [readInteger, hsigned, Option.filter_some]
      by_cases hsmall : decimal t < 2 ^ 63
      · rw [if_pos hsmall, if_pos (decide_eq_true ⟨by omega, by omega⟩), Option.getD_some]
      · rw [if_neg hsmall, if_neg, Option.getD_none]
        simp only [decide_eq_true_eq]
        omega
    rw [Sdp.toType, String.toList_ofList]
    refine congrArg Except.ok ((congrArg Json.int hread).trans ?_)
    split_ifs <;> rfl

/-- The members of a line. -/
theorem attachNames_same {fields : List (String × FieldType)}
    (h : List.Forall₂ (fun f t => f.2 = .number → ∀ c ∈ t, c.isDigit = true) fields g)
    (location : Members) :
    attachNames pf (fields.map (·.1)) (fields.map fun f => typeOf f.2) g location =
      .ok (Sdp.attachProperties fields (g.map String.ofList) location) := by
  induction h generalizing location with
  | nil => rfl
  | @cons f t fields g hdigits _ ih =>
    rw [List.map_cons, List.map_cons, attachNames, Sdp.attachProperties, List.map_cons,
      List.zip_cons_cons, List.foldl_cons]
    by_cases hne : t = []
    · rw [if_pos hne, hne, if_pos rfl]
      exact ih location
    · rw [if_neg hne, toType_same hne hdigits, if_neg (ofList_ne_empty hne)]
      exact ih _

/-- A field whose texts are digits, if it is a number. -/
def DigitField (f : String × FieldType) (P : List Char → Prop) : Prop :=
  f.2 = .number → ∀ t, P t → ∀ c ∈ t, c.isDigit = true

/-- A rule of the grammar, and the same one of `Sdp.parse`. -/
structure SameRule (rule : Rule) (rule' : Sdp.Rule) : Prop where
  push : rule.push = rule'.push
  names : rule.names = rule'.fields.map (·.1)
  types : rule.types = rule'.fields.map fun f => typeOf f.2
  reads : SameReads rule'.reg rule
  digits : List.Forall₂ DigitField rule'.fields rule.reg.body.classes

theorem text_field {name : String} {P : List Char → Prop} : DigitField (name, .text) P :=
  fun h => nomatch h

theorem number_field {name : String} : DigitField (name, .number) (Lang (.many Char.isDigit)) :=
  fun _ _ h => lang_many.mp h

theorem number_maybe {name : String} :
    DigitField (name, .number) fun t => t = [] ∨ Lang (.many Char.isDigit) t := fun _ _ h => chars_of h

theorem rtpRule_same : SameRule rtpRule ⟨"rtp", rtpmapReg, [("payload", .number),
    ("codec", .text), ("rate", .number), ("encoding", .text)]⟩ :=
  ⟨rfl, rfl, rfl, rtpmap_same, .cons number_field (.cons text_field
    (.cons number_maybe (.cons text_field .nil)))⟩

theorem fmtpRule_same : SameRule fmtpRule ⟨"fmtp", fmtpReg, [("payload", .number),
    ("config", .text)]⟩ :=
  ⟨rfl, rfl, rfl, fmtp_same, .cons number_field (.cons text_field .nil)⟩

theorem rtcpFbTrrIntRule_same : SameRule rtcpFbTrrIntRule ⟨"rtcpFbTrrInt", trrIntReg,
    [("payload", .text), ("value", .number)]⟩ :=
  ⟨rfl, rfl, rfl, trrInt_same, .cons text_field (.cons number_field .nil)⟩

theorem rtcpFbRule_same : SameRule rtcpFbRule ⟨"rtcpFb", rtcpFbReg, [("payload", .text),
    ("type", .text), ("subtype", .text)]⟩ :=
  ⟨rfl, rfl, rfl, rtcpFb_same, .cons text_field (.cons text_field
    (.cons text_field .nil))⟩

theorem extRule_same : SameRule extRule ⟨"ext", extmapReg, [("value", .number),
    ("direction", .text), ("encrypt-uri", .text), ("uri", .text), ("config", .text)]⟩ :=
  ⟨rfl, rfl, rfl, ext_same, .cons (fun _ _ h => (lang_many1.mp h).2) (.cons text_field
    (.cons text_field (.cons text_field (.cons text_field .nil))))⟩

theorem mediaRule_same : SameRule mediaRule ⟨"", mediaReg, [("type", .text), ("port", .number),
    ("numPorts", .number), ("protocol", .text), ("payloads", .text)]⟩ :=
  ⟨rfl, rfl, rfl, media_same, .cons text_field (.cons number_field
    (.cons number_maybe (.cons text_field (.cons text_field .nil))))⟩

/-- An array in place of one. -/
theorem SameMembers.put {a b : Members} (h : SameMembers keys arrays a b) (key : String)
    (es : List Json) : SameMembers keys arrays (put key (.arr es) a) (put key (.arr es) b) where
  member := by
    intro k hk
    rw [get_put, get_put, h.member k hk]
  array := by
    intro k hk v hv
    rw [get_put] at hv
    split_ifs at hv
    · cases hv
      exact ⟨es, rfl⟩
    · exact h.array k hk v hv

theorem SameRule.attach {rule : Rule} {rule' : Sdp.Rule} (h : SameRule rule rule')
    (hg : rule.reg.body.Fits g) (location : Members) :
    attachNames pf rule.names rule.types g location =
      .ok (Sdp.attachProperties rule'.fields (g.map String.ofList) location) := by
  have hdigits : List.Forall₂ (fun f t => f.2 = FieldType.number → ∀ c ∈ t, c.isDigit = true)
      rule'.fields g := by
    have hclasses := h.digits
    unfold Fits at hg
    generalize rule.reg.body.classes = Ps at hclasses hg
    generalize rule'.fields = fields at hclasses ⊢
    clear h
    induction hclasses generalizing g with
    | nil =>
      cases hg
      exact .nil
    | cons hP _ ih =>
      rcases hg with _ | ⟨ht, hg⟩
      exact .cons (fun hnumber => hP hnumber _ ht) (ih hg)
  rw [h.names, h.types]
  exact attachNames_same hdigits location

/-- A line of the same rule pushes the same. -/
theorem SameRule.pushes {rule : Rule} {rule' : Sdp.Rule} (h : SameRule rule rule')
    (hg : rule.reg.body.Fits g) {a b : Members} (hsame : SameMembers keys arrays a b)
    (hpush : rule.push ≠ "") (hkey : rule.push ∈ keys) (harray : rule.push ∈ arrays) :
    ∃ a', storeReg pf rule g a = .ok a' ∧
      SameMembers keys arrays a' (Sdp.parseReg rule' (g.map String.ofList) b) := by
  have hpushed : Sdp.parseReg rule' (g.map String.ofList) b = put rule.push
      (.arr (((get rule.push a).getD .null).elems ++
        [.obj (Sdp.attachProperties rule'.fields (g.map String.ofList) [])])) b := by
    unfold Sdp.parseReg
    rw [← h.push, if_neg hpush, hsame.member rule.push hkey]
    cases hget : get rule.push b with
    | none => rfl
    | some v =>
      obtain ⟨es, rfl⟩ := hsame.array rule.push harray v hget
      rfl
  unfold storeReg
  rw [if_pos hpush, h.attach hg [], hpushed]
  exact ⟨_, rfl, hsame.put _ _⟩

/-- Any other line is stored elsewhere. -/
theorem storeReg_other {type : Char} (htype : type ≠ 'm') {rule : Rule}
    (hrule : rule ∈ rulesMap type) (hkey : rule.key ∉ keys) {a a' b : Members}
    (hsame : SameMembers keys arrays a b) (hok : storeReg pf rule g a = .ok a') :
    SameMembers keys arrays a' b := by
  have hput : ∃ v, a' = put rule.key v a := by
    have hform := rulesMap_wellFormed htype hrule
    unfold storeReg at hok
    by_cases hpush : rule.push = ""
    · rw [if_neg (not_not.mpr hpush), if_neg (Rule.named hform hpush).1] at hok
      have hname : rule.key = rule.name := if_pos hpush
      rw [hname]
      split_ifs at hok
      · obtain ⟨v, -, hput⟩ := bind_ok.mp hok
        exact ⟨v, (Except.ok.inj hput).symm⟩
      · obtain ⟨members, -, hput⟩ := bind_ok.mp hok
        exact ⟨_, (Except.ok.inj hput).symm⟩
    · rw [if_pos hpush] at hok
      have hname : rule.key = rule.push := if_neg hpush
      obtain ⟨object, -, hput⟩ := bind_ok.mp hok
      exact ⟨_, hname ▸ (Except.ok.inj hput).symm⟩
  obtain ⟨v, rfl⟩ := hput
  refine ⟨fun k hk => ?_, hsame.array⟩
  have hne : k ≠ rule.key := fun heq => hkey (heq ▸ hk)
  rw [get_put_of_ne v hne, hsame.member k hk]

/-! ### The rule of a line -/

/-- The rules for attributes that the capabilities are read with. -/
def capabilityRules : List Rule := [rtpRule, fmtpRule, rtcpFbTrrIntRule, rtcpFbRule, extRule]

theorem capabilityRules_attributes :
    attributeRules.filter (fun r => r.key ∈ capabilityKeys) = capabilityRules := rfl

/-- If one of them matches, it is the first rule that does. -/
theorem findRule_capability {rule : Rule} (hrule : rule ∈ capabilityRules)
    (hsearch : rule.reg.search content = some g)
    (hfirst : rule = rtcpFbRule → rtcpFbTrrIntRule.reg.search content = none) :
    findRule content attributeRules = some (rule, g) := by
  have hall : ∀ rule ∈ capabilityRules, rule.reg.anchored = true ∧ behindFlag rule = false ∧
      rule.push ≠ "invalid" := by decide
  obtain ⟨hanchored, hbehind, hinvalid⟩ := hall _ hrule
  have hattribute : rule ∈ attributeRules :=
    List.mem_of_mem_filter (capabilityRules_attributes ▸ hrule)
  have hread : rule.Reads content g := by
    rw [Reg.search, if_pos hanchored] at hsearch
    obtain ⟨⟨g', rest⟩, hmatch, rfl⟩ := Option.map_eq_some_iff.mp hsearch
    exact ⟨rest, hmatch⟩
  refine findRule_of_tellable attributes_tellable hattribute hread fun r hr htexts => ?_
  simp only [byTexts, hbehind, Bool.and_false, Bool.or_false, Bool.or_eq_true, Bool.and_eq_true,
    decide_eq_true_eq] at htexts
  obtain ⟨hinterval, hfeedback⟩ := htexts.resolve_left hinvalid
  obtain rfl : r = rtcpFbTrrIntRule :=
    eq_of_filter (p := fun r => r.push = "rtcpFbTrrInt") rfl hr (decide_eq_true hinterval)
  exact Or.inr (hfirst (eq_of_filter (p := fun r => r.push = "rtcpFb") rfl hattribute
    (decide_eq_true hfeedback)))

/-- What `Sdp.parse` does with a line. -/
def capabilityLine (content : List Char) (b : Members) : Members :=
  match (Sdp.rulesMap 'a').findSome? fun rule => (rule.reg content).map fun groups => (rule, groups)
    with
  | some (rule, groups) => Sdp.parseReg rule groups b
  | none => b

/-- A line that one of the rules reads. -/
theorem attribute_read {rule : Rule} {rule' : Sdp.Rule} (h : SameRule rule rule')
    (hrule : rule ∈ capabilityRules) (hsearch : rule.reg.search content = some g)
    (hfirst : rule = rtcpFbRule → rtcpFbTrrIntRule.reg.search content = none) {a a' b : Members}
    (hsame : Same a b) (hok : storeRules pf 'a' content a = .ok a') :
    Same a' (Sdp.parseReg rule' (g.map String.ofList) b) := by
  have hpushes : ∀ rule ∈ capabilityRules, rule.push ≠ "" ∧ rule.push ∈ capabilityKeys ∧
      rule.push ∈ capabilityArrays := by decide
  obtain ⟨hpush, hkey, harray⟩ := hpushes rule hrule
  have hpushed : ∃ a', storeReg pf rule g a = .ok a' ∧
      Same a' (Sdp.parseReg rule' (g.map String.ofList) b) :=
    h.pushes (fits_of_search hsearch) hsame hpush hkey harray
  obtain ⟨a'', hread, hsame'⟩ := hpushed
  have hfind : findRule content (rulesMap 'a') = some (rule, g) :=
    findRule_capability hrule hsearch hfirst
  rw [storeRules, hfind] at hok
  cases hread.symm.trans hok
  exact hsame'

theorem attribute_same {a a' b : Members} (hsame : Same a b)
    (hok : storeRules pf 'a' content a = .ok a') : Same a' (capabilityLine content b) := by
  unfold capabilityLine
  simp only [Sdp.rulesMap, List.findSome?_cons, List.findSome?_nil, rtpmap_same content,
    fmtp_same content, trrInt_same content, rtcpFb_same content, ext_same content]
  have hother : ∀ rule ∈ capabilityRules, rule.push ≠ "rtcpFb" → rule = rtcpFbRule →
      rtcpFbTrrIntRule.reg.search content = none := fun _ _ hpush h => absurd (h ▸ rfl) hpush
  cases h₁ : rtpRule.reg.search content with
  | some g =>
    exact attribute_read rtpRule_same (.head _) h₁ (hother _ (.head _) (by decide)) hsame hok
  | none =>
  cases h₂ : fmtpRule.reg.search content with
  | some g =>
    exact attribute_read fmtpRule_same (.tail _ (.head _)) h₂
      (hother _ (.tail _ (.head _)) (by decide)) hsame hok
  | none =>
  cases h₃ : rtcpFbTrrIntRule.reg.search content with
  | some g =>
    exact attribute_read rtcpFbTrrIntRule_same (.tail _ (.tail _ (.head _))) h₃
      (hother _ (.tail _ (.tail _ (.head _))) (by decide)) hsame hok
  | none =>
  cases h₄ : rtcpFbRule.reg.search content with
  | some g =>
    exact attribute_read rtcpFbRule_same (.tail _ (.tail _ (.tail _ (.head _)))) h₄
      (fun _ => h₃) hsame hok
  | none =>
  cases h₅ : extRule.reg.search content with
  | some g =>
    exact attribute_read extRule_same (.tail _ (.tail _ (.tail _ (.tail _ (.head _))))) h₅
      (hother _ (.tail _ (.tail _ (.tail _ (.tail _ (.head _))))) (by decide)) hsame hok
  | none =>
    unfold storeRules at hok
    split at hok
    · rename_i rule g hfind
      obtain ⟨hrule, hsearch⟩ := search_of_findRule hfind
      refine storeReg_other (by decide) hrule (fun hkey => ?_) hsame hok
      have hmem : rule ∈ capabilityRules :=
        capabilityRules_attributes ▸ List.mem_filter.mpr ⟨hrule, decide_eq_true hkey⟩
      simp only [capabilityRules, List.mem_cons, List.not_mem_nil, or_false] at hmem
      rcases hmem with rfl | rfl | rfl | rfl | rfl
      · cases h₁.symm.trans hsearch
      · cases h₂.symm.trans hsearch
      · cases h₃.symm.trans hsearch
      · cases h₄.symm.trans hsearch
      · cases h₅.symm.trans hsearch
    · cases hok
      exact hsame

/-! ### The text -/

theorem storeRules_findSome (content : List Char) (st : Parsing) (rules : List Sdp.Rule) :
    Sdp.applyRules content st rules = match rules.findSome? fun rule =>
        (rule.reg content).map fun groups => (rule, groups) with
      | some (rule, groups) => st.locate (Sdp.parseReg rule groups)
      | none => st := by
  induction rules with
  | nil => rfl
  | cons rule rules ih =>
    rw [Sdp.applyRules, List.findSome?_cons]
    cases rule.reg content with
    | some groups => rfl
    | none => exact ih

/-- The same session and the same sections, as far as the capabilities are read from them. -/
structure SameParsing (st st' : Parsing) : Prop where
  session : Same st.session st'.session
  media : List.Forall₂ Same st.media st'.media

theorem storeRules_capability (content : List Char) (st : Parsing) :
    Sdp.applyRules content st (Sdp.rulesMap 'a') = st.locate (capabilityLine content) := by
  rw [storeRules_findSome]
  unfold capabilityLine
  cases (Sdp.rulesMap 'a').findSome? fun rule =>
      (rule.reg content).map fun groups => (rule, groups) with
  | none =>
    unfold Parsing.locate
    cases st with
    | mk session media => cases media <;> rfl
  | some found => rfl

/-- The line of a section. -/
theorem media_line_same {a : Members} (hok : storeRules pf 'm' content blankMedia = .ok a)
    (st : Parsing) : Sdp.applyRules content { st with media := blankMedia :: st.media }
      (Sdp.rulesMap 'm') = { st with media := a :: st.media } := by
  rw [storeRules_findSome]
  simp only [Sdp.rulesMap, List.findSome?_cons, List.findSome?_nil, media_same content]
  have hfind : findRule content (rulesMap 'm') =
      (mediaRule.reg.search content).map fun groups => (mediaRule, groups) := by
    rw [rulesMap, findRule, List.findSome?_cons, List.findSome?_nil]
    cases mediaRule.reg.search content <;> rfl
  unfold storeRules at hok
  rw [hfind] at hok
  cases hsearch : mediaRule.reg.search content with
  | none =>
    rw [hsearch] at hok
    cases hok
    rfl
  | some g =>
    rw [hsearch] at hok
    cases (mediaRule_same.attach (fits_of_search hsearch) blankMedia).symm.trans hok
    rfl

/-- What is there in a section that begins. -/
theorem opened_same (hother : ∀ key ∈ arrays, key ∉ mediaRule.names) {a : Members}
    (hok : storeRules pf 'm' content blankMedia = .ok a) : SameMembers keys arrays a a := by
  have hkept : ∀ key ∈ arrays, get key a = get key blankMedia := by
    intro key hkey
    unfold storeRules at hok
    split at hok
    · rename_i rule g hfind
      obtain ⟨hrule, hsearch⟩ := search_of_findRule hfind
      obtain rfl := List.mem_singleton.mp hrule
      cases (mediaRule_same.attach (fits_of_search hsearch) blankMedia).symm.trans hok
      exact get_attachProperties (hother key hkey) blankMedia
    · cases hok
      rfl
  refine ⟨fun _ _ => rfl, fun key hkey v hv => ?_⟩
  rw [hkept key hkey, get_blankMedia] at hv
  split_ifs at hv
  exact ⟨[], (Option.some.inj hv).symm⟩

/-- The keys of the rules for other lines than those of attributes and sections. -/
def lineKeys : List String := ["version", "origin", "name", "description", "uri", "email", "phone",
  "timezones", "repeats", "timing", "connection", "bandwidth"]

theorem line_key {type : Char} (htype : type ≠ 'm') (hattribute : type ≠ 'a') {rule : Rule}
    (hrule : rule ∈ rulesMap type) : rule.key ∈ lineKeys := by
  unfold rulesMap at hrule
  split at hrule <;> first
    | exact absurd rfl htype
    | exact absurd rfl hattribute
    | exact absurd hrule List.not_mem_nil
    | exact List.mem_singleton.mp hrule ▸ by decide

/-- Other lines are stored elsewhere. -/
theorem other_line_same (hkeys : ∀ key ∈ lineKeys, key ∉ keys) {type : Char} (htype : type ≠ 'm')
    (hattribute : type ≠ 'a') {a a' b : Members} (hsame : SameMembers keys arrays a b)
    (hok : storeRules pf type content a = .ok a') : SameMembers keys arrays a' b := by
  unfold storeRules at hok
  split at hok
  · rename_i rule g hfind
    have hrule := (search_of_findRule hfind).1
    exact storeReg_other htype hrule (hkeys _ (line_key htype hattribute hrule)) hsame hok
  · cases hok
    exact hsame

theorem except_map_ok {ε α β : Type} {f : α → β} {x : Except ε α} {r : β}
    (h : x.map f = .ok r) : ∃ a, x = .ok a ∧ f a = r := by
  cases x with
  | error e => cases h
  | ok a =>
    cases h
    exact ⟨a, rfl, rfl⟩

/-- What a line adds to the location it belongs to. -/
theorem locate_same {f : Members → Members} {type : Char} (htype : type ≠ 'm')
    (hf : ∀ {a a' b}, Same a b → storeRules pf type content a = .ok a' → Same a' (f b))
    {st st₁ st' : Parsing} (h : SameParsing st st') (hlower : type.isLower = true)
    (hok : storeLine pf st (type :: '=' :: content) = .ok st₁) : SameParsing st₁ (st'.locate f) := by
  obtain ⟨session, media⟩ := st
  obtain ⟨session', media'⟩ := st'
  rcases h with ⟨hsession, _ | ⟨hm, hrest⟩⟩
  · rw [storeLine_session hlower htype] at hok
    obtain ⟨a, hread, rfl⟩ := except_map_ok hok
    exact ⟨hf hsession hread, .nil⟩
  · rename_i m m' rest rest'
    rw [storeLine_section hlower htype] at hok
    obtain ⟨a, hread, rfl⟩ := except_map_ok hok
    exact ⟨hsession, .cons (hf hm hread) hrest⟩

/-- A line that is none adds nothing. -/
theorem storeLine_invalid {line : List Char}
    (h : ¬ ∃ type content, line = type :: '=' :: content ∧ type.isLower = true) (st : Parsing) :
    storeLine pf st line = .ok st := by
  have hvalid : validLine line = none := by
    unfold validLine
    split
    · rename_i type content
      exact if_neg fun hlower => h ⟨type, content, rfl, hlower⟩
    · rfl
  rw [storeLine, hvalid]

theorem capability_storeLine_invalid {line : List Char}
    (h : ¬ ∃ type content, line = type :: '=' :: content ∧ type.isLower = true) (st : Parsing) :
    Sdp.parseLine st line = st := by
  unfold Sdp.parseLine
  split
  · rename_i type content
    exact if_neg fun hlower => h ⟨type, content, rfl, hlower⟩
  · rfl

theorem storeLine_same {st st₁ st' : Parsing} {line : List Char} (h : SameParsing st st')
    (hok : storeLine pf st line = .ok st₁) : SameParsing st₁ (Sdp.parseLine st' line) := by
  by_cases hvalid : ∃ type content, line = type :: '=' :: content ∧ type.isLower = true
  swap
  · cases (storeLine_invalid hvalid st).symm.trans hok
    rw [capability_storeLine_invalid hvalid st']
    exact h
  obtain ⟨type, content, rfl, hlower⟩ := hvalid
  have hline : Sdp.parseLine st' (type :: '=' :: content) = Sdp.applyRules content
      (if type = 'm' then { st' with media := blankMedia :: st'.media } else st')
      (Sdp.rulesMap type) := if_pos hlower
  rw [hline]
  by_cases hm : type = 'm'
  · subst hm
    rw [storeLine_media] at hok
    obtain ⟨a, hread, rfl⟩ := except_map_ok hok
    rw [if_pos rfl, media_line_same hread]
    exact ⟨h.session, .cons (opened_same (by decide) hread) h.media⟩
  rw [if_neg hm]
  by_cases ha : type = 'a'
  · subst ha
    rw [storeRules_capability]
    exact locate_same hm attribute_same h hlower hok
  · have hnil : Sdp.rulesMap type = [] := by
      unfold Sdp.rulesMap
      split
      · exact absurd rfl hm
      · exact absurd rfl ha
      · rfl
    have hnone : Sdp.applyRules content st' [] = st'.locate id := by
      unfold Parsing.locate
      cases st' with
      | mk session media => cases media <;> rfl
    rw [hnil, hnone]
    exact locate_same hm (fun hsame hread =>
      other_line_same (by decide) hm ha hsame hread) h hlower hok

/-- The lines in turn. -/
theorem storeLines_same {lines : List String} {st st₁ st' : Parsing} (h : SameParsing st st')
    (hok : lines.foldlM (fun st line => storeLine pf st (withoutCr line)) st = .ok st₁) :
    SameParsing st₁
      (lines.foldl (fun st line => Sdp.parseLine st (withoutCr line)) st') := by
  induction lines generalizing st st' with
  | nil =>
    cases hok
    exact h
  | cons line lines ih =>
    rw [List.foldlM_cons] at hok
    obtain ⟨st₂, hline, hrest⟩ := bind_ok.mp hok
    exact ih (storeLine_same h hline) hrest

/-- CORRECT: of any text, the members that the capabilities are read from are those of the grammar. -/
theorem parse_same {sdp : String} {v : Json} (hok : parse pf sdp = .ok v) :
    ∃ st st' : Parsing, SameParsing st st' ∧
      v = .obj (put "media" (.arr (st.media.reverse.map .obj)) st.session) ∧
      Sdp.parse sdp = .obj (put "media" (.arr (st'.media.reverse.map .obj)) st'.session) := by
  rw [parse_eq] at hok
  obtain ⟨st, hfold, hput⟩ := bind_ok.mp hok
  have hblank : Same [] [] := ⟨fun _ _ => rfl, fun _ _ v hv => nomatch hv⟩
  exact ⟨st, _, storeLines_same ⟨hblank, .nil⟩ hfold, (Except.ok.inj hput).symm, rfl⟩

end MediasoupClient.Sdptransform
