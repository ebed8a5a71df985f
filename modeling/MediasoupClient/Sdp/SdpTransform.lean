import MediasoupClient.Sdp.SdpUtil

/-! How a description becomes a session (json/parser.cpp, json/grammar.cpp).

        m=audio 9 RTP/SAVPF 111   ──▶   media: [ { type: "audio", ...,
        a=rtpmap:111 opus/48000/2                  rtp:    [ { payload: 111, codec: "opus", ... } ],
        a=fmtp:111 minptime=10                     fmtp:   [ { payload: 111, config: "minptime=10" } ],
        a=rtcp-fb:* nack                           rtcpFb: [ { payload: "*", type: "nack" } ] } ]

    `rtp` and `fmtp` are there from the start, every other array comes with its first line, and what a
    line does not say is no member of its object. Only the rules for what the capabilities are read
    from are followed: the others begin with other words and fill other members. -/

namespace MediasoupClient.Sdp
open Lib

/-! ### The grammar -/

/-- The types of the members: `s` and `d`. -/
inductive FieldType where
  | text
  | number
  deriving DecidableEq

/-- `toType`: a number that does not fit is 0. -/
def toType (str : String) : FieldType → Json
  | .text => .str str
  | .number =>
    if decimal str.toList < 2 ^ 63 then .int (decimal str.toList) else .int 0

/-- `grammar::Rule`: a match is the list of its groups, a group that is not matched is empty. -/
structure Rule where
  push : String
  reg : List Char → Option (List String)
  fields : List (String × FieldType)

/-- The longest token of a class, and what comes behind it. -/
def token (p : Char → Bool) (content : List Char) : String × List Char :=
  (String.ofList (content.takeWhile p), content.dropWhile p)

/-- A text that has to come next. -/
def literal (text : String) (content : List Char) : Option (List Char) :=
  content.dropPrefix? text.toList

/-- `\w`. -/
def isWord (c : Char) : Bool := c.isAlphanum || c = '_'

/-- `(?:\s*\/(...))?`. -/
def slashed (p : Char → Bool) (content : List Char) : String × List Char :=
  match content.dropWhile isSpace with
  | '/' :: rest => token p rest
  | _ => ("", content)

/-- `(\*|\d*)`. -/
def payloadToken : List Char → String × List Char
  | '*' :: rest => ("*", rest)
  | content => token Char.isDigit content

/-- `(?: (...))?` at the end. -/
def spaced (p : Char → Bool) (content : List Char) : String :=
  match content with
  | ' ' :: rest => (token p rest).1
  | _ => ""

/-- `^rtpmap:(\d*) ([\w\-\.]*)(?:\s*\/(\d*)(?:\s*\/(\S*))?)?` -/
def rtpmapReg (content : List Char) : Option (List String) := do
  let rest ← literal "rtpmap:" content
  let payload := token Char.isDigit rest
  let rest ← literal " " payload.2
  let codec := token (fun c => isWord c || c = '-' || c = '.') rest
  let rate := slashed Char.isDigit codec.2
  let encoding := slashed (fun c => !isSpace c) rate.2
  return [payload.1, codec.1, rate.1, encoding.1]

/-- `^fmtp:(\d*) (.*)` -/
def fmtpReg (content : List Char) : Option (List String) := do
  let rest ← literal "fmtp:" content
  let payload := token Char.isDigit rest
  let rest ← literal " " payload.2
  return [payload.1, (token (fun c => c ≠ '\n' ∧ c ≠ '\r') rest).1]

/-- `^rtcp-fb:(\*|\d*) trr-int (\d*)` -/
def trrIntReg (content : List Char) : Option (List String) := do
  let rest ← literal "rtcp-fb:" content
  let payload := payloadToken rest
  let rest ← literal " trr-int " payload.2
  return [payload.1, (token Char.isDigit rest).1]

/-- `^rtcp-fb:(\*|\d*) ([\w\-_]*)(?: ([\w\-_]*))?` -/
def rtcpFbReg (content : List Char) : Option (List String) := do
  let rest ← literal "rtcp-fb:" content
  let payload := payloadToken rest
  let rest ← literal " " payload.2
  let type := token (fun c => isWord c || c = '-') rest
  return [payload.1, type.1, spaced (fun c => isWord c || c = '-') type.2]

/-- `(?:\/(\w+))?`: one character at least. -/
def directionToken (content : List Char) : String × List Char :=
  match content with
  | '/' :: rest => if (token isWord rest).1 = "" then ("", content) else token isWord rest
  | _ => ("", content)

/-- `^extmap:(\d+)(?:\/(\w+))?(?: (urn:ietf:params:rtp-hdrext:encrypt))? (\S*)(?: (\S*))?` -/
def extmapReg (content : List Char) : Option (List String) := do
  let rest ← literal "extmap:" content
  let value := token Char.isDigit rest
  if value.1 = "" then none
  else
    let direction := directionToken value.2
    let rest ← literal " " direction.2
    -- the first word is the uri if there is no other one behind it
    let (encryptUri, rest) :=
      match literal "urn:ietf:params:rtp-hdrext:encrypt " rest with
      | some rest => ("urn:ietf:params:rtp-hdrext:encrypt", rest)
      | none => ("", rest)
    let uri := token (fun c => !isSpace c) rest
    return [value.1, direction.1, encryptUri, uri.1, spaced (fun c => !isSpace c) uri.2]

/-- `(?:/(\d*))?`. -/
def numPortsToken : List Char → String × List Char
  | '/' :: rest => token Char.isDigit rest
  | content => ("", content)

/-- `^(\w*) (\d*)(?:/(\d*))? ([\w\/]*)(?: (.*))?` -/
def mediaReg (content : List Char) : Option (List String) := do
  let type := token isWord content
  let rest ← literal " " type.2
  let port := token Char.isDigit rest
  let numPorts := numPortsToken port.2
  let rest ← literal " " numPorts.2
  let protocol := token (fun c => isWord c || c = '/') rest
  return [type.1, port.1, numPorts.1, protocol.1,
    spaced (fun c => c ≠ '\n' ∧ c ≠ '\r') protocol.2]

/-- `grammar::rulesMap`. -/
def rulesMap : Char → List Rule
  | 'm' => [⟨"", mediaReg, [("type", .text), ("port", .number), ("numPorts", .number),
      ("protocol", .text), ("payloads", .text)]⟩]
  | 'a' => [
      ⟨"rtp", rtpmapReg,
        [("payload", .number), ("codec", .text), ("rate", .number), ("encoding", .text)]⟩,
      ⟨"fmtp", fmtpReg, [("payload", .number), ("config", .text)]⟩,
      ⟨"rtcpFbTrrInt", trrIntReg, [("payload", .text), ("value", .number)]⟩,
      ⟨"rtcpFb", rtcpFbReg, [("payload", .text), ("type", .text), ("subtype", .text)]⟩,
      ⟨"ext", extmapReg, [("value", .number), ("direction", .text), ("encrypt-uri", .text),
        ("uri", .text), ("config", .text)]⟩]
  | _ => []

/-! ### The session -/

/-- A group that has a text is a member. -/
def attachProperties (fields : List (String × FieldType)) (groups : List String)
    (location : Members) : Members :=
  (fields.zip groups).foldl (fun location field =>
    if field.2 = "" then location else put field.1.1 (toType field.2 field.1.2) location) location

/-- `parseReg`: a blank object that is pushed, or the members of the location itself. -/
def parseReg (rule : Rule) (groups : List String) (location : Members) : Members :=
  if rule.push = "" then attachProperties rule.fields groups location
  else
    let pushed :=
      match get rule.push location with
      | some (.arr items) => items
      | _ => []
    put rule.push (.arr (pushed ++ [.obj (attachProperties rule.fields groups [])])) location

/-- The session, and its media sections: the latest one comes first. -/
structure Parsing where
  session : Members
  media : List Members

/-- Change what `location` points at. -/
def Parsing.locate (f : Members → Members) (st : Parsing) : Parsing :=
  match st.media with
  | [] => { st with session := f st.session }
  | m :: rest => { st with media := f m :: rest }

/-- A media section before its lines. -/
def blankMedia : Members := [("fmtp", .arr []), ("rtp", .arr [])]

/-- The first rule that matches. -/
def applyRules (content : List Char) (st : Parsing) : List Rule → Parsing
  | [] => st
  | rule :: rules =>
    match rule.reg content with
    | some groups => st.locate (parseReg rule groups)
    | none => applyRules content st rules

/-- A line, `^([a-z])=(.*)`. -/
def parseLine (st : Parsing) (line : List Char) : Parsing :=
  match line with
  | type :: '=' :: content =>
    if type.isLower then
      let st := if type = 'm' then { st with media := blankMedia :: st.media } else st
      applyRules content st (rulesMap type)
    else st
  | _ => st

/-- A line without the carriage return at its end. -/
def withoutCr (line : String) : List Char :=
  if line.toList.getLast? = some '\r' then line.toList.dropLast else line.toList

/-- `sdptransform::parse`. -/
def parse (sdp : String) : Json :=
  let st := (split sdp '\n').foldl (fun st line => parseLine st (withoutCr line)) ⟨[], []⟩
  .obj (put "media" (.arr (st.media.reverse.map .obj)) st.session)

/-- What `sdptransform::write` does to a section before it prints it: one without payloads gets an
    empty text for them. -/
def withPayloads (mLine : Json) : Except Fault Json :=
  match mLine.find "payloads" with
  | some _ => .ok mLine
  | none => mLine.write "payloads" (.str "")

/-! ### What a session has -/

/-- Members that are there are of these types. -/
def FieldsTyped (fields : List (String × FieldType)) (m : Members) : Prop :=
  ∀ f ∈ fields, ∀ v, get f.1 m = some v → ∃ text, v = toType text f.2

/-- An object with such members. -/
def Typed (fields : List (String × FieldType)) (line : Json) : Prop :=
  ∃ m, line = .obj m ∧ FieldsTyped fields m

/-- What a media section has after whatever lines. -/
structure MediaShape (m : Members) : Prop where
  type : ∀ v, get "type" m = some v → ∃ kind, v = .str kind
  lines : ∀ rule ∈ rulesMap 'a', ∀ v, get rule.push m = some v →
    ∃ items, v = .arr items ∧ ∀ line ∈ items, Typed rule.fields line
  rtp : (get "rtp" m).isSome = true
  fmtp : (get "fmtp" m).isSome = true

theorem get_attachProperties {fields : List (String × FieldType)} {groups : List String} {k : String}
    (hk : k ∉ fields.map (·.1)) (location : Members) :
    get k (attachProperties fields groups location) = get k location := by
  unfold attachProperties
  induction fields generalizing groups location with
  | nil => rfl
  | cons f fields ih =>
    cases groups with
    | nil => rfl
    | cons g groups =>
      rw [List.map_cons, List.mem_cons, not_or] at hk
      rw [List.zip_cons_cons, List.foldl_cons, ih hk.2]
      split_ifs
      · rfl
      · exact get_put_of_ne _ hk.1 _

/-- No key has two types. -/
theorem attachProperties_typed {fields : List (String × FieldType)} {groups : List String}
    (hnodup : (fields.map (·.1)).Nodup) {location : Members} (h : FieldsTyped fields location) :
    FieldsTyped fields (attachProperties fields groups location) := by
  have hstep : ∀ (pairs : List ((String × FieldType) × String)) (m : Members),
      (∀ p ∈ pairs, p.1 ∈ fields) → FieldsTyped fields m →
      FieldsTyped fields (pairs.foldl (fun location field =>
        if field.2 = "" then location
        else put field.1.1 (toType field.2 field.1.2) location) m) := by
    intro pairs
    induction pairs with
    | nil => exact fun _ _ hm => hm
    | cons p pairs ih =>
      intro m hp hm
      refine ih _ (fun q hq => hp q (List.mem_cons_of_mem _ hq)) ?_
      dsimp only
      split_ifs
      · exact hm
      · intro f hf v hv
        rw [get_put] at hv
        split_ifs at hv with hkey
        · have heq : f = p.1 :=
            List.inj_on_of_nodup_map hnodup hf (hp p List.mem_cons_self) hkey
          cases hv
          exact ⟨p.2, by rw [heq]⟩
        · exact hm f hf v hv
  exact hstep _ _ (fun p hp => (List.of_mem_zip hp).1) h

theorem fieldsTyped_nil (fields : List (String × FieldType)) : FieldsTyped fields [] :=
  fun _ _ _ hv => by cases hv

/-- The rules for attributes push, and no two of them to the same array. -/
theorem attribute_rules : ∀ rule ∈ rulesMap 'a', rule.push ≠ "" ∧ rule.push ≠ "type" ∧
    (rule.fields.map (·.1)).Nodup ∧
      ∀ rule' ∈ rulesMap 'a', rule'.push = rule.push → rule'.fields = rule.fields := by
  simp [rulesMap]

/-- The rule for media sections changes no array. -/
theorem media_rules : ∀ rule ∈ rulesMap 'm', rule.push = "" ∧ ("type", FieldType.text) ∈ rule.fields ∧
    (rule.fields.map (·.1)).Nodup ∧
      ∀ k ∈ ["rtp", "fmtp", "rtcpFbTrrInt", "rtcpFb", "ext"], k ∉ rule.fields.map (·.1) := by
  simp [rulesMap]

theorem attribute_push : ∀ rule ∈ rulesMap 'a',
    rule.push ∈ ["rtp", "fmtp", "rtcpFbTrrInt", "rtcpFb", "ext"] := by
  simp [rulesMap]

theorem blankMedia_shape : MediaShape blankMedia := by
  refine ⟨fun v hv => ?_, fun rule hrule v hv => ?_, rfl, rfl⟩
  · simp [blankMedia, Lib.get] at hv
  · have hpush := attribute_push rule hrule
    unfold blankMedia at hv
    rw [Lib.get, Lib.get] at hv
    split_ifs at hv with h₁ h₂
    · cases hv
      exact ⟨[], rfl, fun line hline => absurd hline List.not_mem_nil⟩
    · cases hv
      exact ⟨[], rfl, fun line hline => absurd hline List.not_mem_nil⟩
    · cases hv

/-- A line of an attribute keeps the shape. -/
theorem MediaShape.attribute {m : Members} (h : MediaShape m) {rule : Rule}
    (hrule : rule ∈ rulesMap 'a') (groups : List String) : MediaShape (parseReg rule groups m) := by
  obtain ⟨hpush, htype, hnodup, hsame⟩ := attribute_rules rule hrule
  unfold parseReg
  rw [if_neg hpush]
  have hsome : ∀ k v, (get k m).isSome = true → (get k (put rule.push v m)).isSome = true := by
    intro k v hk
    rw [get_put]
    split_ifs
    · rfl
    · exact hk
  refine ⟨fun v hv => ?_, fun rule' hrule' v hv => ?_, hsome _ _ h.rtp, hsome _ _ h.fmtp⟩
  · rw [get_put_of_ne _ (Ne.symm htype)] at hv
    exact h.type v hv
  · rw [get_put] at hv
    split_ifs at hv with hkey
    · cases hv
      refine ⟨_, rfl, fun line hline => ?_⟩
      rw [hsame rule' hrule' hkey]
      rcases List.mem_append.mp hline with hold | hnew
      · split at hold
        · rename_i items hitems
          obtain ⟨items', heq, hall⟩ := h.lines rule hrule _ hitems
          cases heq
          exact hall line hold
        · exact absurd hold List.not_mem_nil
      · obtain rfl := List.mem_singleton.mp hnew
        exact ⟨_, rfl, attachProperties_typed hnodup (fieldsTyped_nil _)⟩
    · exact h.lines rule' hrule' v hv

/-- So does the line a section begins with. -/
theorem media_shape {rule : Rule} (hrule : rule ∈ rulesMap 'm') (groups : List String) :
    MediaShape (parseReg rule groups blankMedia) := by
  obtain ⟨hpush, htype, hnodup, hother⟩ := media_rules rule hrule
  have hblank : FieldsTyped rule.fields blankMedia := by
    intro f hf v hv
    have hmem : ∀ k ∈ ["rtp", "fmtp"], f.1 ≠ k := by
      intro k hk heq
      refine hother k ?_ (heq ▸ List.mem_map_of_mem hf)
      exact List.mem_append_left ["rtcpFbTrrInt", "rtcpFb", "ext"] hk
    simp [blankMedia, Lib.get, hmem "rtp" (by simp), hmem "fmtp" (by simp)] at hv
  unfold parseReg
  rw [if_pos hpush]
  have hkeep : ∀ k ∈ ["rtp", "fmtp", "rtcpFbTrrInt", "rtcpFb", "ext"],
      get k (attachProperties rule.fields groups blankMedia) = get k blankMedia :=
    fun k hk => get_attachProperties (hother k hk) _
  refine ⟨fun v hv => ?_, fun rule' hrule' v hv => ?_, ?_, ?_⟩
  · obtain ⟨text, rfl⟩ := attachProperties_typed hnodup hblank _ htype v hv
    exact ⟨text, rfl⟩
  · rw [hkeep _ (attribute_push rule' hrule')] at hv
    exact blankMedia_shape.lines rule' hrule' v hv
  · rw [hkeep _ (by simp)]
    rfl
  · rw [hkeep _ (by simp)]
    rfl

/-! ### Sections of any text -/

theorem applyRules_cases (content : List Char) (st : Parsing) (rules : List Rule) :
    applyRules content st rules = st ∨ ∃ rule ∈ rules, ∃ groups,
      applyRules content st rules = st.locate (parseReg rule groups) := by
  induction rules with
  | nil => exact Or.inl rfl
  | cons rule rules ih =>
    rw [applyRules]
    split
    · rename_i groups _
      exact Or.inr ⟨rule, List.mem_cons_self, groups, rfl⟩
    · refine ih.imp_right ?_
      rintro ⟨rule', hrule', groups, heq⟩
      exact ⟨rule', List.mem_cons_of_mem _ hrule', groups, heq⟩

/-- Every section has the shape. -/
def Parsing.Shaped (st : Parsing) : Prop := ∀ m ∈ st.media, MediaShape m

theorem parseLine_shaped {st : Parsing} (h : st.Shaped) (line : List Char) :
    (parseLine st line).Shaped := by
  unfold parseLine
  split
  · rename_i type content
    split_ifs with hlower hm
    · -- a section begins
      subst hm
      have hnew : ∀ m ∈ blankMedia :: st.media, MediaShape m :=
        List.forall_mem_cons.mpr ⟨blankMedia_shape, h⟩
      obtain heq | ⟨rule, hrule, groups, heq⟩ :=
        applyRules_cases content { st with media := blankMedia :: st.media } (rulesMap 'm')
      · rw [heq]
        exact hnew
      · rw [heq]
        exact List.forall_mem_cons.mpr ⟨media_shape hrule groups, h⟩
    · obtain heq | ⟨rule, hrule, groups, heq⟩ := applyRules_cases content st (rulesMap type)
      · rw [heq]
        exact h
      · rw [heq]
        have hattr : rule ∈ rulesMap 'a' := by
          unfold rulesMap at hrule
          split at hrule
          · exact absurd rfl hm
          · exact hrule
          · exact absurd hrule List.not_mem_nil
        unfold Parsing.locate
        cases hmedia : st.media with
        | nil => exact fun m hmem => by simp at hmem
        | cons m rest =>
          unfold Parsing.Shaped at h
          rw [hmedia] at h
          obtain ⟨hfirst, hrest⟩ := List.forall_mem_cons.mp h
          exact List.forall_mem_cons.mpr ⟨hfirst.attribute hattr groups, hrest⟩
    · exact h
  · exact h

/-- The sections of a session. -/
def sectionsOf (sdpObject : Json) : List Json := ((sdpObject.find "media").getD .null).elems

/-- A session that a text is parsed to: its sections have the shape. -/
structure SessionShape (sdpObject : Json) : Prop where
  media : ∃ sections, sdpObject.find "media" = some (.arr sections)
  shape : ∀ m ∈ sectionsOf sdpObject, ∃ members, m = .obj members ∧ MediaShape members

theorem parse_session (sdp : String) : SessionShape (parse sdp) := by
  have hloop : ∀ (lines : List String) (st : Parsing), st.Shaped →
      (lines.foldl (fun st line => parseLine st (withoutCr line)) st).Shaped := by
    intro lines
    induction lines with
    | nil => exact fun _ h => h
    | cons line lines ih => exact fun st h => ih _ (parseLine_shaped h _)
  have hshaped := hloop (split sdp '\n') ⟨[], []⟩ fun m hm => absurd hm List.not_mem_nil
  have hmedia : (parse sdp).find "media" = some (.arr _) := get_put_self _ _ _
  refine ⟨⟨_, hmedia⟩, fun m hm => ?_⟩
  rw [sectionsOf, hmedia] at hm
  obtain ⟨members, hmembers, rfl⟩ := List.mem_map.mp hm
  exact ⟨members, rfl, hshaped members (List.mem_reverse.mp hmembers)⟩

end MediasoupClient.Sdp
