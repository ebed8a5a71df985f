import MediasoupClient.Sdp.Ortc

/-! Which codecs are paired.

        remote codecs   r₀     r₁     r₂(rtx)  r₃          without the rtx codecs, in this order
                         │      ╳               │
                         ▼                      ▼
        local codecs    l₂                     l₀          the first that matches strictly

    The scan writes profile-level-ids into both lists. What the later comparisons read of a codec is
    kept by that (`Kept`), as long as the answer keeps the profile, so the pairs are those of the
    lists before the scan. -/

namespace MediasoupClient.Sdp
open Lib

/-! ### What is read of a codec -/

/-- The codec parameter `key`, as it is read by `f`; `none` if there are no parameters. -/
def readParameter {β : Type} (f : Option Json → Option β) (key : String) (codec : Json) :
    Option β :=
  (codec.find "parameters").bind fun parameters => f (parameters.find key)

/-- An integer as a byte, and 0 for everything else. -/
def asByte (v : Option Json) : Option ℕ :=
  match v with
  | some v => if v.isNumberInteger then (v.toUInt 8).toOption else some 0
  | none => some 0

/-- A text, a number as it is printed, and the default. -/
def asText (default : String) (v : Option Json) : Option String :=
  match v with
  | some v => if v.isNumber then v.toInt32.toOption.map toString else v.toStr.toOption
  | none => some default

/-- The mime type without its case. -/
def mimeTypeOf (codec : Json) : Option String :=
  (codec.find "mimeType").bind fun mimeType => mimeType.toStr.toOption.map lower

/-- The packetization mode of an H264 codec. -/
def packetizationModeOf : Json → Option ℕ := readParameter asByte "packetization-mode"

/-- The profile-level-id of an H264 codec. -/
def profileLevelIdOf : Json → Option String := readParameter (asText "") "profile-level-id"

/-- The profile-id of a VP9 codec. -/
def profileIdOf : Json → Option String := readParameter (asText "0") "profile-id"

/-- The payload type of a codec. -/
def payloadTypeOf (codec : Json) : Json := (codec.find "preferredPayloadType").getD .null

theorem byteParameter_toOption (key : String) (codec : Json) :
    (byteParameter key codec).toOption = readParameter asByte key codec := by
  unfold byteParameter readParameter
  rw [toOption_bind, Json.read_toOption]
  congr 1
  funext parameters
  cases parameters.find key with
  | none => rfl
  | some v => simp only [asByte]; split_ifs <;> rfl

theorem textParameter_toOption (key default : String) (codec : Json) :
    (textParameter key default codec).toOption = readParameter (asText default) key codec := by
  unfold textParameter readParameter
  rw [toOption_bind, Json.read_toOption]
  congr 1
  funext parameters
  cases parameters.find key with
  | none => rfl
  | some v =>
    simp only [asText]
    split_ifs
    · rw [toOption_bind]
      cases v.toInt32 <;> rfl
    · rfl

/-! ### The specification -/

/-- Both readings succeed, with the same value. -/
def bothSame {β : Type} [DecidableEq β] : Option β → Option β → Bool
  | some x, some y => x = y
  | _, _ => false

theorem bothSame_iff {β : Type} [DecidableEq β] {x y : Option β} :
    bothSame x y = true ↔ ∃ b, x = some b ∧ y = some b := by
  cases x <;> cases y <;> simp [bothSame, eq_comm]

section
variable {P : Type} (profile : String → Option P)

/-- The profile of an H264 codec, if its profile-level-id has one. -/
def profileOf (codec : Json) : Option P := (profileLevelIdOf codec).bind profile

/-- The strict match of two codecs. -/
def strictlyMatches [DecidableEq P] (aCodec bCodec : Json) : Bool :=
  bothSame (mimeTypeOf aCodec) (mimeTypeOf bCodec) &&
  ((aCodec.find "clockRate").getD .null).eqv ((bCodec.find "clockRate").getD .null) &&
  sameChannels aCodec bCodec &&
  (mimeTypeOf aCodec ≠ some "video/h264" ||
    (bothSame (packetizationModeOf aCodec) (packetizationModeOf bCodec) &&
      bothSame (profileOf profile aCodec) (profileOf profile bCodec))) &&
  (mimeTypeOf aCodec ≠ some "video/vp9" || bothSame (profileIdOf aCodec) (profileIdOf bCodec))

/-- Whether a codec is an rtx codec. -/
def isRtx (codec : Json) : Bool :=
  (mimeTypeOf codec).any fun mimeType => mimeType ∈ ["audio/rtx", "video/rtx"]

/-- The pairs: each remote codec that is no rtx codec, with the first local codec that matches it. -/
def matchedPairs [DecidableEq P] (localCodecs remoteCodecs : List Json) : List (Json × Json) :=
  (remoteCodecs.filter fun remoteCodec => !isRtx remoteCodec).filterMap fun remoteCodec =>
    (localCodecs.find? (strictlyMatches profile · remoteCodec)).map fun localCodec =>
      (localCodec, remoteCodec)

/-- The rtx codec of a payload type. -/
def isRtxOf (payloadType codec : Json) : Bool :=
  isRtx codec && (readParameter id "apt" codec).any fun apt => apt.eqv payloadType

/-- What is assumed of WebRTC: two profile-level-ids have the same profile if both have one and they
    are equal, and the answer to two of the same profile has that profile. -/
structure WebRtc.Lawful (webrtc : WebRtc) : Prop where
  same : ∀ a b, webrtc.h264IsSameProfile a b = true ↔
    ∃ p, profile a.profileLevelId = some p ∧ profile b.profileLevelId = some p
  answer : ∀ a b, webrtc.h264IsSameProfile a b = true →
    ∃ id, webrtc.h264GenerateProfileLevelIdForAnswer a b = .ok id ∧
      profile (id.getD "") = profile a.profileLevelId

end

/-- An extended codec made of a pair. -/
structure ExtendedCodec.Of (ext : ExtendedCodec) (localCodec remoteCodec : Json) : Prop where
  mimeType : ext.mimeType = (localCodec.find "mimeType").getD .null
  kind : ext.kind = (localCodec.find "kind").getD .null
  clockRate : ext.clockRate = (localCodec.find "clockRate").getD .null
  localPayloadType : ext.localPayloadType = payloadTypeOf localCodec
  remotePayloadType : ext.remotePayloadType = payloadTypeOf remoteCodec
  localParameters : ∀ k ≠ "profile-level-id",
    ext.localParameters.find k = readParameter id k localCodec
  remoteParameters : ∀ k ≠ "profile-level-id",
    ext.remoteParameters.find k = readParameter id k remoteCodec
  channels : ext.channels = localCodec.find "channels"

/-- The rtx payload types: both null, unless both sides have an rtx codec for the pair. -/
def ExtendedCodec.RtxPaired (ext : ExtendedCodec) (localCodecs remoteCodecs : List Json) : Prop :=
  match localCodecs.find? (isRtxOf ext.localPayloadType),
    remoteCodecs.find? (isRtxOf ext.remotePayloadType) with
  | some localRtx, some remoteRtx =>
    ext.localRtxPayloadType = payloadTypeOf localRtx ∧ payloadTypeOf localRtx ≠ .null ∧
      ext.remoteRtxPayloadType = payloadTypeOf remoteRtx ∧ payloadTypeOf remoteRtx ≠ .null
  | _, _ => ext.localRtxPayloadType = .null ∧ ext.remoteRtxPayloadType = .null

/-- The rtx payload types as they are read: null if the rtx codec has none. -/
def ExtendedCodec.RtxMatched (ext : ExtendedCodec) (localCodecs remoteCodecs : List Json) : Prop :=
  match localCodecs.find? (isRtxOf ext.localPayloadType),
    remoteCodecs.find? (isRtxOf ext.remotePayloadType) with
  | some localRtx, some remoteRtx =>
    ext.localRtxPayloadType = payloadTypeOf localRtx ∧
      ext.remoteRtxPayloadType = payloadTypeOf remoteRtx
  | _, _ => ext.localRtxPayloadType = .null ∧ ext.remoteRtxPayloadType = .null

/-! ### What the scan keeps -/

section
variable {P : Type} {profile : String → Option P}

/-- What is kept of a codec when its profile-level-id is written. -/
structure Kept (profile : String → Option P) (codec codec' : Json) : Prop where
  others : ∀ k ≠ "parameters", codec'.find k = codec.find k
  parameter : ∀ {β : Type} (f : Option Json → Option β), ∀ k ≠ "profile-level-id",
    readParameter f k codec' = readParameter f k codec
  profile : profileOf profile codec' = profileOf profile codec

theorem Kept.refl (codec : Json) : Kept profile codec codec := ⟨fun _ _ => rfl, fun _ _ _ => rfl, rfl⟩

theorem Kept.trans {a b c : Json} (hab : Kept profile a b) (hbc : Kept profile b c) :
    Kept profile a c :=
  ⟨fun k hk => (hbc.others k hk).trans (hab.others k hk),
    fun f k hk => (hbc.parameter f k hk).trans (hab.parameter f k hk),
    hbc.profile.trans hab.profile⟩

theorem Kept.mimeTypeOf {a a' : Json} (h : Kept profile a a') : mimeTypeOf a' = mimeTypeOf a := by
  unfold Sdp.mimeTypeOf
  rw [h.others _ (by decide)]

theorem Kept.payloadTypeOf {a a' : Json} (h : Kept profile a a') :
    payloadTypeOf a' = payloadTypeOf a := by
  unfold Sdp.payloadTypeOf
  rw [h.others _ (by decide)]

theorem Kept.isRtxOf {a a' : Json} (h : Kept profile a a') (payloadType : Json) :
    isRtxOf payloadType a' = isRtxOf payloadType a := by
  unfold Sdp.isRtxOf isRtx
  rw [h.mimeTypeOf, h.parameter _ _ (by decide)]

/-- The strict match does not see what the scan writes. -/
theorem Kept.strictlyMatches [DecidableEq P] {a a' b b' : Json} (ha : Kept profile a a')
    (hb : Kept profile b b') : strictlyMatches profile a' b' = strictlyMatches profile a b := by
  have hsc : sameChannels a' b' = sameChannels a b := by
    unfold sameChannels
    rw [ha.others _ (by decide), hb.others _ (by decide)]
  unfold Sdp.strictlyMatches packetizationModeOf profileIdOf
  rw [ha.mimeTypeOf, hb.mimeTypeOf, ha.others "clockRate" (by decide),
    hb.others "clockRate" (by decide), hsc, ha.parameter _ _ (by decide),
    hb.parameter _ _ (by decide), ha.profile, hb.profile, ha.parameter _ "profile-id" (by decide),
    hb.parameter _ "profile-id" (by decide)]

/-- What `setProfileLevelId` writes: the parameters, and in them the profile-level-id. -/
theorem setProfileLevelId_ok {id : Option String} {codec codec' : Json}
    (h : setProfileLevelId id codec = .ok codec') :
    ∃ parameters, codec.write "parameters" parameters = .ok codec' ∧
      ∀ k, parameters.find k = if k = "profile-level-id" then id.map .str
        else ((codec.find "parameters").getD .null).find k := by
  obtain ⟨parameters, hread, h⟩ := bind_ok.mp h
  cases Json.readOrNull_ok hread
  cases id with
  | some id =>
    obtain ⟨parameters', hwrite, h⟩ := bind_ok.mp h
    exact ⟨parameters', h, fun k => Json.find_write hwrite k⟩
  | none =>
    obtain ⟨parameters', herase, h⟩ := bind_ok.mp h
    exact ⟨parameters', h, fun k => Json.find_eraseKey herase k⟩

/-- Writing a profile-level-id of the same profile. -/
theorem setProfileLevelId_kept {id : Option String} {codec codec' : Json} {text : String}
    (h : setProfileLevelId id codec = .ok codec') (hread : profileLevelIdOf codec = some text)
    (hid : profile (id.getD "") = profile text) : Kept profile codec codec' := by
  obtain ⟨parameters, hwrite, hfind⟩ := setProfileLevelId_ok h
  have hcodec := Json.find_write hwrite
  have hparams : codec'.find "parameters" = some parameters := by rw [hcodec, if_pos rfl]
  obtain ⟨old, hold, -⟩ := Option.bind_eq_some_iff.mp hread
  rw [hold] at hfind
  refine ⟨fun k hk => by rw [hcodec, if_neg hk], fun f k hk => ?_, ?_⟩
  · unfold readParameter
    rw [hparams, hold]
    change f (parameters.find k) = f (old.find k)
    rw [hfind, if_neg hk]
    rfl
  · have htext : profileLevelIdOf codec' = some (id.getD "") := by
      unfold profileLevelIdOf readParameter
      rw [hparams]
      change asText "" (parameters.find "profile-level-id") = _
      rw [hfind, if_pos rfl]
      cases id <;> rfl
    unfold profileOf
    rw [htext, hread]
    exact hid

end

/-! ### One comparison -/

theorem packetizationMode_read {codec : Json} {mode : ℕ}
    (h : getH264PacketizationMode codec = .ok mode) : packetizationModeOf codec = some mode := by
  rw [packetizationModeOf, ← byteParameter_toOption]
  exact toOption_eq_some.mpr h

theorem profileLevelId_read {codec : Json} {text : String}
    (h : getH264ProfileLevelId codec = .ok text) : profileLevelIdOf codec = some text := by
  rw [profileLevelIdOf, ← textParameter_toOption]
  exact toOption_eq_some.mpr h

theorem profileId_read {codec : Json} {text : String} (h : getVP9ProfileId codec = .ok text) :
    profileIdOf codec = some text := by
  rw [profileIdOf, ← textParameter_toOption]
  exact toOption_eq_some.mpr h

theorem mimeType_read {codec mimeType : Json} {text : String}
    (h : codec.find "mimeType" = some mimeType) (ht : mimeType.toStr = .ok text) :
    mimeTypeOf codec = some (lower text) := by
  rw [mimeTypeOf, h]
  change mimeType.toStr.toOption.map lower = _
  rw [ht]
  rfl

section
variable {P : Type} [DecidableEq P] {profile : String → Option P} {webrtc : WebRtc}

/-- What a comparison says, and what it leaves of the two codecs. -/
structure Compared (profile : String → Option P) (a b : Json) (r : Bool × Json × Json) : Prop where
  matched : r.1 = strictlyMatches profile a b
  unchanged : r.1 = false → r.2.1 = a ∧ r.2.2 = b
  first : Kept profile a r.2.1
  second : Kept profile b r.2.2

/-- A comparison that changes nothing. -/
theorem Compared.of_eq {a b : Json} {m : Bool} (h : m = strictlyMatches profile a b) :
    Compared profile a b (m, a, b) := ⟨h, fun _ => ⟨rfl, rfl⟩, .refl a, .refl b⟩

/-- The H264 branch: the codecs have the same packetization mode and profile, or do not match. -/
theorem matchH264_ok (hw : webrtc.Lawful profile) {a b : Json} {r : Bool × Json × Json}
    (h : matchH264 webrtc a b true = .ok r) :
    r.1 = (bothSame (packetizationModeOf a) (packetizationModeOf b) &&
        bothSame (profileOf profile a) (profileOf profile b)) ∧
      (r.1 = false → r.2.1 = a ∧ r.2.2 = b) ∧ Kept profile a r.2.1 ∧ Kept profile b r.2.2 := by
  obtain ⟨am, ham, h⟩ := bind_ok.mp h
  obtain ⟨bm, hbm, h⟩ := bind_ok.mp h
  rw [packetizationMode_read ham, packetizationMode_read hbm]
  by_cases hmode : am = bm
  · subst hmode
    rw [if_neg fun hne => hne rfl] at h
    obtain ⟨al, -, h⟩ := bind_ok.mp h
    obtain ⟨ap, hap, h⟩ := bind_ok.mp h
    obtain ⟨bl, -, h⟩ := bind_ok.mp h
    obtain ⟨bp, hbp, h⟩ := bind_ok.mp h
    have hsame := hw.same ⟨toString al, toString am, ap⟩ ⟨toString bl, toString am, bp⟩
    have hprofiles : bothSame (profileOf profile a) (profileOf profile b) =
        webrtc.h264IsSameProfile ⟨toString al, toString am, ap⟩ ⟨toString bl, toString am, bp⟩ := by
      rw [Bool.eq_iff_iff, hsame, bothSame_iff, profileOf, profileOf, profileLevelId_read hap,
        profileLevelId_read hbp]
      rfl
    rw [hprofiles]
    cases hs : webrtc.h264IsSameProfile ⟨toString al, toString am, ap⟩
        ⟨toString bl, toString am, bp⟩ with
    | false =>
      simp only [hs] at h
      cases h
      exact ⟨by simp, fun _ => ⟨rfl, rfl⟩, .refl a, .refl b⟩
    | true =>
      obtain ⟨id, hid, hkeep⟩ := hw.answer _ _ hs
      obtain ⟨p, hpa, hpb⟩ := hsame.mp hs
      simp only [hs, hid] at h
      obtain ⟨a', ha', h⟩ := bind_ok.mp h
      obtain ⟨b', hb', h⟩ := bind_ok.mp h
      cases h
      refine ⟨by simp [bothSame], fun hc => (by cases hc),
        setProfileLevelId_kept ha' (profileLevelId_read hap) hkeep,
        setProfileLevelId_kept hb' (profileLevelId_read hbp) ?_⟩
      exact hkeep.trans (hpa.trans hpb.symm)
  · rw [if_pos hmode] at h
    cases h
    refine ⟨?_, fun _ => ⟨rfl, rfl⟩, .refl a, .refl b⟩
    simp [bothSame, hmode]

theorem member_ok {codec v : Json} {key : String} (h : member codec key = .ok v) :
    codec.find key = some v := by
  unfold member at h
  split at h
  · cases h; assumption
  · cases h

theorem matchCodecs_ok (hw : webrtc.Lawful profile) {a b : Json} {r : Bool × Json × Json}
    (h : matchCodecs webrtc a b true true = .ok r) : Compared profile a b r := by
  obtain ⟨av, hav, h⟩ := bind_ok.mp h
  obtain ⟨at', hat, h⟩ := bind_ok.mp h
  obtain ⟨bv, hbv, h⟩ := bind_ok.mp h
  obtain ⟨bt, hbt, h⟩ := bind_ok.mp h
  have ha := mimeType_read (member_ok hav) hat
  have hb := mimeType_read (member_ok hbv) hbt
  by_cases hmime : lower at' = lower bt
  · rw [if_neg fun hne => hne hmime] at h
    obtain ⟨ac, hac, h⟩ := bind_ok.mp h
    obtain ⟨bc, hbc, h⟩ := bind_ok.mp h
    cases Json.readOrNull_ok hac
    cases Json.readOrNull_ok hbc
    cases hclock : ((a.find "clockRate").getD .null).eqv ((b.find "clockRate").getD .null) with
    | false =>
      simp only [hclock] at h
      cases h
      exact Compared.of_eq (by simp [strictlyMatches, hclock])
    | true =>
      cases hchannels : sameChannels a b with
      | false =>
        simp only [hclock, hchannels] at h
        cases h
        exact Compared.of_eq (by simp [strictlyMatches, hchannels])
      | true =>
        have hspec : strictlyMatches profile a b =
            ((lower at' ≠ "video/h264" ||
              (bothSame (packetizationModeOf a) (packetizationModeOf b) &&
                bothSame (profileOf profile a) (profileOf profile b))) &&
            (lower at' ≠ "video/vp9" || bothSame (profileIdOf a) (profileIdOf b))) := by
          simp [strictlyMatches, ha, hb, hmime, hclock, hchannels, bothSame]
        simp only [hclock, hchannels, Bool.not_true, Bool.false_eq_true, if_false, and_true] at h
        by_cases h264 : lower at' = "video/h264"
        · rw [if_pos h264] at h
          obtain ⟨hm, hun, hka, hkb⟩ := matchH264_ok hw h
          refine ⟨?_, hun, hka, hkb⟩
          rw [hm, hspec, h264]
          simp
        · rw [if_neg h264] at h
          by_cases hvp9 : lower at' = "video/vp9"
          · rw [if_pos hvp9] at h
            obtain ⟨ap, hap, h⟩ := bind_ok.mp h
            obtain ⟨bp, hbp, h⟩ := bind_ok.mp h
            cases h
            refine Compared.of_eq ?_
            rw [hspec, hvp9, profileId_read hap, profileId_read hbp]
            simp [bothSame]
          · rw [if_neg hvp9] at h
            cases h
            exact Compared.of_eq (by rw [hspec]; simp [h264, hvp9])
  · rw [if_pos hmime] at h
    cases h
    refine Compared.of_eq ?_
    simp [strictlyMatches, ha, hb, bothSame, hmime]

/-! ### The scan -/

/-- The scan for one remote codec finds the first local codec that matches. -/
theorem findMatchingCodec_ok (hw : webrtc.Lawful profile) {localCodecs : List Json}
    {remoteCodec : Json} {r : Option ℕ × List Json × Json}
    (h : findMatchingCodec webrtc localCodecs remoteCodec = .ok r) :
    r.1 = localCodecs.findIdx? (strictlyMatches profile · remoteCodec) ∧
      List.Forall₂ (Kept profile) localCodecs r.2.1 ∧ Kept profile remoteCodec r.2.2 := by
  induction localCodecs generalizing r with
  | nil => cases h; exact ⟨rfl, .nil, .refl _⟩
  | cons localCodec localCodecs ih =>
    obtain ⟨⟨m, a, b⟩, hcmp, h⟩ := bind_ok.mp h
    have hc := matchCodecs_ok hw hcmp
    have hm : m = strictlyMatches profile localCodec remoteCodec := hc.matched
    cases m with
    | true =>
      cases h
      refine ⟨?_, .cons hc.first (List.forall₂_same.mpr fun c _ => .refl c), hc.second⟩
      rw [List.findIdx?_cons, ← hm]
      rfl
    | false =>
      obtain ⟨ha, hb⟩ := hc.unchanged rfl
      obtain ⟨⟨idx, ls, r'⟩, hrest, h⟩ := bind_ok.mp h
      cases h
      have hb' : b = remoteCodec := hb
      subst hb'
      obtain ⟨hidx, hls, hr⟩ := ih hrest
      have hidx' : idx = localCodecs.findIdx? (strictlyMatches profile · b) := hidx
      refine ⟨?_, .cons hc.first hls, hr⟩
      rw [List.findIdx?_cons, ← hm, hidx']
      rfl

end

/-! ### The first pass -/

section
variable {P : Type} {profile : String → Option P}

/-- Lists of which the same is read give the same position. -/
theorem findIdx?_kept {p : Json → Bool} {cs cs' : List Json}
    (h : List.Forall₂ (Kept profile) cs cs') (hp : ∀ {c c'}, Kept profile c c' → p c' = p c) :
    cs'.findIdx? p = cs.findIdx? p := by
  induction h with
  | nil => rfl
  | cons hc _ ih => rw [List.findIdx?_cons, List.findIdx?_cons, hp hc, ih]

theorem forall₂_trans {as bs cs : List Json} (hab : List.Forall₂ (Kept profile) as bs)
    (hbc : List.Forall₂ (Kept profile) bs cs) : List.Forall₂ (Kept profile) as cs := by
  induction hab generalizing cs with
  | nil => exact hbc
  | cons hab _ ih =>
    cases hbc with
    | cons hbc hrest => exact .cons (hab.trans hbc) (ih hrest)

/-- The codec at a position that has been found. -/
theorem kept_getD {cs cs' : List Json} (h : List.Forall₂ (Kept profile) cs cs') {i : ℕ} {c : Json}
    (hi : cs[i]? = some c) : Kept profile c (cs'.getD i .null) := by
  induction h generalizing i with
  | nil => cases hi
  | cons hc _ ih =>
    cases i with
    | zero => cases hi; exact hc
    | succ i => exact ih hi

/-- The first element that satisfies `p`, by its position. -/
theorem find?_of_findIdx? {cs : List Json} {p : Json → Bool} {i : ℕ} (h : cs.findIdx? p = some i) :
    ∃ c, cs.find? p = some c ∧ cs[i]? = some c := by
  obtain ⟨hi, -, -⟩ := List.findIdx?_eq_some_iff_getElem.mp h
  have hget : cs[i]? = some cs[i] := List.getElem?_eq_getElem hi
  refine ⟨cs[i], ?_, hget⟩
  rw [List.find?_eq_bind_findIdx?_getElem?, h]
  exact hget

/-- A codec without parameters has no parameter. -/
theorem find_parameters (codec : Json) (k : String) :
    ((codec.find "parameters").getD .null).find k = readParameter id k codec := by
  unfold readParameter
  cases codec.find "parameters" <;> rfl

theorem extendCodec_ok {a b : Json} {ext : ExtendedCodec} (h : extendCodec a b = .ok ext) :
    ext.Of a b ∧ ext.localRtxPayloadType = .null ∧ ext.remoteRtxPayloadType = .null := by
  obtain ⟨mimeType, hmime, h⟩ := bind_ok.mp h
  obtain ⟨kind, hkind, h⟩ := bind_ok.mp h
  obtain ⟨clockRate, hclock, h⟩ := bind_ok.mp h
  obtain ⟨localPayloadType, hlpt, h⟩ := bind_ok.mp h
  obtain ⟨remotePayloadType, hrpt, h⟩ := bind_ok.mp h
  obtain ⟨localParameters, hlp, h⟩ := bind_ok.mp h
  obtain ⟨remoteParameters, hrp, h⟩ := bind_ok.mp h
  obtain ⟨rtcpFeedback, -, h⟩ := bind_ok.mp h
  cases h
  refine ⟨⟨Json.readOrNull_ok hmime, Json.readOrNull_ok hkind, Json.readOrNull_ok hclock,
    Json.readOrNull_ok hlpt, Json.readOrNull_ok hrpt, fun k _ => ?_, fun k _ => ?_, rfl⟩, rfl, rfl⟩
  · cases Json.readOrNull_ok hlp
    exact find_parameters a k
  · cases Json.readOrNull_ok hrp
    exact find_parameters b k

/-- An extended codec is made of what the two codecs were before the scan. -/
theorem ExtendedCodec.Of.kept {ext : ExtendedCodec} {a a' b b' : Json} (h : ext.Of a' b')
    (ha : Kept profile a a') (hb : Kept profile b b') : ext.Of a b := by
  refine ⟨?_, ?_, ?_, ?_, ?_, fun k hk => ?_, fun k hk => ?_, ?_⟩
  · rw [h.mimeType, ha.others _ (by decide)]
  · rw [h.kind, ha.others _ (by decide)]
  · rw [h.clockRate, ha.others _ (by decide)]
  · rw [h.localPayloadType, ha.payloadTypeOf]
  · rw [h.remotePayloadType, hb.payloadTypeOf]
  · rw [h.localParameters k hk, ha.parameter _ k hk]
  · rw [h.remoteParameters k hk, hb.parameter _ k hk]
  · rw [h.channels, ha.others _ (by decide)]

theorem isRtxCodec_ok {codec : Json} {b : Bool} (h : isRtxCodec codec = .ok b) :
    b = isRtx codec := by
  obtain ⟨v, hv, h⟩ := bind_ok.mp h
  obtain ⟨mimeType, ht, h⟩ := bind_ok.mp h
  cases h
  rw [isRtx, mimeType_read (Json.read_ok.mp hv) ht]
  rfl

/-- Every match of the first pass is made of its pair, and has no rtx payload types yet. -/
def Paired (m : Match) (pair : Json × Json) : Prop :=
  m.extended.Of pair.1 pair.2 ∧ m.extended.localRtxPayloadType = .null ∧
    m.extended.remoteRtxPayloadType = .null

/-- The first pass makes one extended codec of each pair. The local codecs have been changed by the
    remote codecs before. -/
theorem matchMediaCodecs_ok [DecidableEq P] {webrtc : WebRtc} (hw : webrtc.Lawful profile)
    {original localCodecs remoteCodecs : List Json} {idx : ℕ}
    {r : List Match × List Json × List Json}
    (h : matchMediaCodecs webrtc localCodecs idx remoteCodecs = .ok r)
    (hlocal : List.Forall₂ (Kept profile) original localCodecs) :
    List.Forall₂ Paired r.1 (matchedPairs profile original remoteCodecs) ∧
      List.Forall₂ (Kept profile) original r.2.1 ∧
      List.Forall₂ (Kept profile) remoteCodecs r.2.2 := by
  induction remoteCodecs generalizing localCodecs idx r with
  | nil => cases h; exact ⟨.nil, hlocal, .nil⟩
  | cons remoteCodec remoteCodecs ih =>
    obtain ⟨rtx, hrtx, h⟩ := bind_ok.mp h
    have hrtx' := isRtxCodec_ok hrtx
    cases rtx with
    | true =>
      obtain ⟨⟨ms, ls, rs⟩, hrest, h⟩ := bind_ok.mp h
      cases h
      obtain ⟨hms, hls, hrs⟩ := ih hrest hlocal
      refine ⟨?_, hls, .cons (.refl _) hrs⟩
      rw [matchedPairs, List.filter_cons_of_neg (by simp [← hrtx'])]
      exact hms
    | false =>
      obtain ⟨⟨localIdx, ls, remoteCodec'⟩, hscan, h⟩ := bind_ok.mp h
      obtain ⟨hidx, hls, hr⟩ := findMatchingCodec_ok hw hscan
      have hlocal' := forall₂_trans hlocal hls
      have hidx' : localIdx = original.findIdx? (strictlyMatches profile · remoteCodec) :=
        hidx.trans (findIdx?_kept hlocal fun hc => hc.strictlyMatches (.refl _))
      rw [matchedPairs, List.filter_cons_of_pos (by simp [← hrtx']), List.filterMap_cons]
      cases localIdx with
      | none =>
        obtain ⟨first, hfirst, h⟩ := bind_ok.mp h
        cases hfirst
        obtain ⟨⟨ms, ls', rs⟩, hrest, h⟩ := bind_ok.mp h
        cases h
        obtain ⟨hms, hls', hrs⟩ := ih hrest hlocal'
        rw [List.find?_eq_bind_findIdx?_getElem?, ← hidx']
        exact ⟨hms, hls', .cons hr hrs⟩
      | some i =>
        obtain ⟨ext, hext, h⟩ := bind_ok.mp h
        obtain ⟨first, hfirst, h⟩ := bind_ok.mp h
        cases hfirst
        obtain ⟨⟨ms, ls', rs⟩, hrest, h⟩ := bind_ok.mp h
        cases h
        obtain ⟨hms, hls', hrs⟩ := ih hrest hlocal'
        obtain ⟨localCodec, hfind, hget⟩ := find?_of_findIdx? hidx'.symm
        obtain ⟨hof, hnull⟩ := extendCodec_ok hext
        rw [hfind]
        exact ⟨.cons ⟨hof.kept (kept_getD hlocal' hget) hr, hnull⟩ hms, hls', .cons hr hrs⟩

end

/-! ### The second pass -/

section
variable {P : Type} {profile : String → Option P}

theorem isRtxCodecOf_ok {payloadType codec : Json} {b : Bool}
    (h : isRtxCodecOf payloadType codec = .ok b) : b = isRtxOf payloadType codec := by
  obtain ⟨rtx, hrtx, h⟩ := bind_ok.mp h
  rw [isRtxOf, ← isRtxCodec_ok hrtx]
  cases rtx with
  | true =>
    obtain ⟨parameters, hp, h⟩ := bind_ok.mp h
    obtain ⟨apt, hapt, h⟩ := bind_ok.mp h
    cases h
    rw [readParameter, Json.read_ok.mp hp]
    change _ = (true && (parameters.find "apt").any fun apt => apt.eqv payloadType)
    rw [Json.read_ok.mp hapt]
    rfl
  | false => cases h; rfl

/-- A search that succeeds has found the first element. -/
theorem findIdx_ok {p : Json → Except Fault Bool} {q : Json → Bool}
    (hp : ∀ {c b}, p c = .ok b → b = q c) {cs : List Json} {idx : Option ℕ}
    (h : findIdx p cs = .ok idx) : idx = cs.findIdx? q := by
  induction cs generalizing idx with
  | nil => cases h; rfl
  | cons c cs ih =>
    obtain ⟨b, hb, h⟩ := bind_ok.mp h
    rw [List.findIdx?_cons, ← hp hb]
    cases b with
    | true => cases h; rfl
    | false =>
      obtain ⟨rest, hrest, h⟩ := bind_ok.mp h
      cases h
      rw [ih hrest]
      rfl

/-- Every codec of a list has a payload type. -/
def HavePayloadTypes (codecs : List Json) : Prop := ∀ c ∈ codecs, payloadTypeOf c ≠ .null

/-- Codecs that all have a payload type are paired. -/
theorem ExtendedCodec.RtxMatched.paired {ext : ExtendedCodec} {localCodecs remoteCodecs : List Json}
    (h : ext.RtxMatched localCodecs remoteCodecs) (hlpt : HavePayloadTypes localCodecs)
    (hrpt : HavePayloadTypes remoteCodecs) : ext.RtxPaired localCodecs remoteCodecs := by
  unfold RtxMatched at h
  unfold RtxPaired
  split at h
  · rename_i localRtx remoteRtx hl hr
    exact ⟨h.1, hlpt _ (List.mem_of_find?_eq_some hl), h.2, hrpt _ (List.mem_of_find?_eq_some hr)⟩
  · exact h

/-- The second pass, with the codecs as they were before the first one. -/
theorem matchRtxCodecs_ok {originalL originalR localCodecs remoteCodecs : List Json}
    {ext ext' : ExtendedCodec} (h : matchRtxCodecs localCodecs remoteCodecs ext = .ok ext')
    (hl : List.Forall₂ (Kept profile) originalL localCodecs)
    (hr : List.Forall₂ (Kept profile) originalR remoteCodecs)
    (hlnull : ext.localRtxPayloadType = .null) (hrnull : ext.remoteRtxPayloadType = .null) :
    ext'.RtxMatched originalL originalR ∧ ∀ a b, ext.Of a b → ext'.Of a b := by
  obtain ⟨localIdx, hlidx, h⟩ := bind_ok.mp h
  have hlidx' : localIdx = originalL.findIdx? (isRtxOf ext.localPayloadType) :=
    (findIdx_ok isRtxCodecOf_ok hlidx).trans (findIdx?_kept hl fun hc => hc.isRtxOf _)
  cases localIdx with
  | none =>
    cases h
    refine ⟨?_, fun _ _ hof => hof⟩
    rw [ExtendedCodec.RtxMatched, List.find?_eq_bind_findIdx?_getElem?, ← hlidx']
    exact ⟨hlnull, hrnull⟩
  | some li =>
    obtain ⟨remoteIdx, hridx, h⟩ := bind_ok.mp h
    have hridx' : remoteIdx = originalR.findIdx? (isRtxOf ext.remotePayloadType) :=
      (findIdx_ok isRtxCodecOf_ok hridx).trans (findIdx?_kept hr fun hc => hc.isRtxOf _)
    obtain ⟨localRtx, hlfind, hlget⟩ := find?_of_findIdx? hlidx'.symm
    cases remoteIdx with
    | none =>
      cases h
      refine ⟨?_, fun _ _ hof => hof⟩
      rw [ExtendedCodec.RtxMatched, hlfind, List.find?_eq_bind_findIdx?_getElem?, ← hridx']
      exact ⟨hlnull, hrnull⟩
    | some ri =>
      obtain ⟨remoteRtx, hrfind, hrget⟩ := find?_of_findIdx? hridx'.symm
      obtain ⟨lpt, hlread, h⟩ := bind_ok.mp h
      obtain ⟨rpt, hrread, h⟩ := bind_ok.mp h
      cases h
      have hlpt' : lpt = payloadTypeOf localRtx :=
        (Json.readOrNull_ok hlread).trans (kept_getD hl hlget).payloadTypeOf
      have hrpt' : rpt = payloadTypeOf remoteRtx :=
        (Json.readOrNull_ok hrread).trans (kept_getD hr hrget).payloadTypeOf
      refine ⟨?_, fun a b hof => ⟨hof.mimeType, hof.kind, hof.clockRate, hof.localPayloadType,
        hof.remotePayloadType, hof.localParameters, hof.remoteParameters, hof.channels⟩⟩
      simp only [ExtendedCodec.RtxMatched, hlfind, hrfind]
      exact ⟨hlpt', hrpt'⟩

end

/-! ### The capabilities -/

/-- The codecs of capabilities. -/
def codecsOf (caps : Json) : List Json := ((caps.find "codecs").getD .null).elems

/-- The second pass keeps what the first one made of each pair, and adds the rtx payload types. -/
theorem rtxPass_ok {P : Type} {profile : String → Option P}
    {originalL originalR localCodecs remoteCodecs : List Json} {ms ms' : List Match}
    {pairs : List (Json × Json)}
    (h : List.Forall₂ (fun (m m' : Match) => (do
      return { m with extended := ← matchRtxCodecs localCodecs remoteCodecs m.extended } :
        Except Fault Match) = .ok m') ms ms')
    (hpairs : List.Forall₂ Paired ms pairs)
    (hl : List.Forall₂ (Kept profile) originalL localCodecs)
    (hr : List.Forall₂ (Kept profile) originalR remoteCodecs) :
    List.Forall₂ (fun m pair => m.extended.Of pair.1 pair.2 ∧
      m.extended.RtxMatched originalL originalR) ms' pairs := by
  induction hpairs generalizing ms' with
  | nil => cases h; exact .nil
  | cons hpair _ ih =>
    cases h with
    | cons hm hrest =>
      obtain ⟨ext, hext, hm⟩ := bind_ok.mp hm
      cases hm
      obtain ⟨hof, hlnull, hrnull⟩ := hpair
      obtain ⟨hrtx, hkeep⟩ := matchRtxCodecs_ok hext hl hr hlnull hrnull
      exact .cons ⟨hkeep _ _ hof, hrtx⟩ (ih hrest)

section
variable {P : Type} [DecidableEq P] {profile : String → Option P} {webrtc : WebRtc}

theorem matchCapabilities_ok (hw : webrtc.Lawful profile) {localCaps remoteCaps : Json}
    {matched : List Match} (h : matchCapabilities webrtc localCaps remoteCaps = .ok matched) :
    List.Forall₂ (fun m pair => m.extended.Of pair.1 pair.2 ∧
        m.extended.RtxMatched (codecsOf localCaps) (codecsOf remoteCaps))
      matched (matchedPairs profile (codecsOf localCaps) (codecsOf remoteCaps)) := by
  obtain ⟨ls, hls, h⟩ := bind_ok.mp h
  obtain ⟨rs, hrs, h⟩ := bind_ok.mp h
  obtain ⟨⟨ms, ls', rs'⟩, hms, h⟩ := bind_ok.mp h
  have hloop := mapM_ok h
  cases Json.readOrNull_ok hls
  cases Json.readOrNull_ok hrs
  obtain ⟨hpairs, hl, hr⟩ := matchMediaCodecs_ok hw hms (List.forall₂_same.mpr fun c _ => .refl c)
  exact rtxPass_ok hloop hpairs hl hr

/-- The codecs of validated capabilities are validated codecs. -/
theorem codecsOf_validated {caps caps' : Json} (h : validateRtpCapabilities caps = .ok caps') :
    List.Forall₂ (fun c c' => validateRtpCodecCapability c = .ok c') (codecsOf caps)
      (codecsOf caps') := by
  obtain ⟨m, m', codecs, codecs', exts, exts', rfl, rfl, hc, hmap, hget, -⟩ :=
    validateRtpCapabilities_ok h
  have hbefore : codecsOf (.obj m) = codecs := by
    rw [codecsOf]
    change ((get "codecs" m).getD .null).elems = codecs
    cases hm : get "codecs" m with
    | none => rw [hm] at hc; cases hc; rfl
    | some v => rw [hm] at hc; cases hc; rfl
  have hafter : codecsOf (.obj m') = codecs' := by
    rw [codecsOf]
    change ((get "codecs" m').getD .null).elems = codecs'
    rw [hget]
    rfl
  rw [hbefore, hafter]
  exact mapM_ok hmap

theorem validated_payloadType {c c' : Json} (h : validateRtpCodecCapability c = .ok c')
    (hpt : (c.find "preferredPayloadType").isSome) : payloadTypeOf c' ≠ .null := by
  obtain ⟨codec, kind, codec', rfl, -, rfl, hint, hrest⟩ := validateRtpCodecCapability_ok h
  have hget : get "preferredPayloadType" codec' = get "preferredPayloadType" codec := by
    rw [hrest.others _ (by decide), get_put_of_ne _ (by decide)]
  change ((get "preferredPayloadType" codec').getD .null) ≠ .null
  rw [hget]
  rw [hasOrLacks] at hint
  change (get "preferredPayloadType" codec).isSome = true at hpt
  cases hv : get "preferredPayloadType" codec with
  | none => rw [hv] at hpt; cases hpt
  | some v =>
    rw [hv] at hint
    rintro rfl
    cases hint

theorem validated_payloadTypes {caps caps' : Json} (h : validateRtpCapabilities caps = .ok caps')
    (hpt : ∀ c ∈ codecsOf caps, (c.find "preferredPayloadType").isSome) :
    HavePayloadTypes (codecsOf caps') := by
  intro c' hc'
  obtain ⟨c, hc, hval⟩ := mem_of_forall₂ (codecsOf_validated h) hc'
  exact validated_payloadType hval (hpt c hc)

/-- CORRECT: the extended codecs are the pairs, in the order of the remote codecs, each with the
    payload types of its two codecs, and with their rtx payload types if both sides have one. -/
theorem extended_codecs_matched (hw : webrtc.Lawful profile)
    {localCaps remoteCaps validLocal validRemote : Json} {result : ExtendedRtpCapabilities}
    (hl : validateRtpCapabilities localCaps = .ok validLocal)
    (hr : validateRtpCapabilities remoteCaps = .ok validRemote)
    (hlpt : ∀ c ∈ codecsOf localCaps, (c.find "preferredPayloadType").isSome)
    (hrpt : ∀ c ∈ codecsOf remoteCaps, (c.find "preferredPayloadType").isSome)
    (h : getExtendedRtpCapabilities webrtc localCaps remoteCaps = .ok result) :
    List.Forall₂ (fun ext pair => ext.Of pair.1 pair.2 ∧
        ext.RtxPaired (codecsOf validLocal) (codecsOf validRemote))
      result.codecs (matchedPairs profile (codecsOf validLocal) (codecsOf validRemote)) := by
  obtain ⟨_, hl', h⟩ := bind_ok.mp h
  obtain ⟨_, hr', h⟩ := bind_ok.mp h
  cases hl.symm.trans hl'
  cases hr.symm.trans hr'
  obtain ⟨matched, hmatched, h⟩ := bind_ok.mp h
  obtain ⟨lexts, -, h⟩ := bind_ok.mp h
  obtain ⟨rexts, -, h⟩ := bind_ok.mp h
  obtain ⟨exts, -, h⟩ := bind_ok.mp h
  cases h
  have hpairs := matchCapabilities_ok hw (lift_ok.mp hmatched)
  refine List.forall₂_map_left_iff.mpr (hpairs.imp fun m pair hm => ⟨hm.1, hm.2.paired ?_ ?_⟩)
  · exact validated_payloadTypes hl hlpt
  · exact validated_payloadTypes hr hrpt

end

/-! ### Runs -/

/-- The profile of a profile-level-id of six digits: all but the level. -/
def sampleProfile (id : String) : Option (List Char) :=
  if id.toList.length = 6 then some (id.toList.take 4) else none

/-- WebRTC, for two sides of the same level. -/
def sampleWebRtc : WebRtc where
  h264IsSameProfile a b :=
    bothSame (sampleProfile a.profileLevelId) (sampleProfile b.profileLevelId)
  h264GenerateProfileLevelIdForAnswer a _ := .ok (some a.profileLevelId)

theorem sampleWebRtc_lawful : sampleWebRtc.Lawful sampleProfile where
  same _ _ := bothSame_iff
  answer a _ _ := ⟨some a.profileLevelId, rfl, rfl⟩

/-- Capabilities with one H264 codec and its rtx codec. -/
def h264Capabilities (payloadType packetizationMode : ℕ) : Json :=
  .object [("codecs", .arr [
    .object [("mimeType", .str "video/H264"), ("preferredPayloadType", .uint payloadType),
      ("clockRate", .uint 90000), ("parameters", .object [
        ("packetization-mode", .uint packetizationMode), ("profile-level-id", .str "42e01f")])],
    .object [("mimeType", .str "video/rtx"), ("preferredPayloadType", .uint (payloadType + 1)),
      ("clockRate", .uint 90000), ("parameters", .object [("apt", .uint payloadType)])]])]

theorem extended_codecs_matched_h264 :
    ∃ validLocal validRemote result,
      getExtendedRtpCapabilities sampleWebRtc (h264Capabilities 96 1) (h264Capabilities 101 1) =
          .ok result ∧
        result.codecs.length = 1 ∧
        List.Forall₂ (fun ext pair => ext.Of pair.1 pair.2 ∧
            ext.RtxPaired (codecsOf validLocal) (codecsOf validRemote))
          result.codecs
          (matchedPairs sampleProfile (codecsOf validLocal) (codecsOf validRemote)) := by
  obtain ⟨validLocal, hl, -⟩ := exists_of_map (fun _ => ())
    (show (validateRtpCapabilities (h264Capabilities 96 1)).toOption.map _ = some () from rfl)
  obtain ⟨validRemote, hr, -⟩ := exists_of_map (fun _ => ())
    (show (validateRtpCapabilities (h264Capabilities 101 1)).toOption.map _ = some () from rfl)
  obtain ⟨result, h, hlength⟩ := exists_of_map (fun r => r.codecs.length)
    (show (getExtendedRtpCapabilities sampleWebRtc (h264Capabilities 96 1)
      (h264Capabilities 101 1)).toOption.map _ = some 1 from rfl)
  exact ⟨validLocal, validRemote, result, h, hlength,
    extended_codecs_matched sampleWebRtc_lawful hl hr (by decide) (by decide) h⟩

/-- The packetization modes 256 and 0 match. -/
theorem matched_packetization_modes_differ :
    sampleWebRtc.Lawful sampleProfile ∧
      (∃ result, getExtendedRtpCapabilities sampleWebRtc (h264Capabilities 96 256)
          (h264Capabilities 101 0) = .ok result ∧ result.codecs.length = 1) ∧
      ∀ localCodec ∈ codecsOf (h264Capabilities 96 256),
        ∀ remoteCodec ∈ codecsOf (h264Capabilities 101 0),
          ((readParameter id "packetization-mode" localCodec).any fun a =>
            (readParameter id "packetization-mode" remoteCodec).any fun b => a.eqv b) = false := by
  refine ⟨sampleWebRtc_lawful, ?_, by decide⟩
  exact exists_of_map (fun r => r.codecs.length)
    (show (getExtendedRtpCapabilities sampleWebRtc (h264Capabilities 96 256)
      (h264Capabilities 101 0)).toOption.map _ = some 1 from rfl)

end MediasoupClient.Sdp
