import MediasoupClient.Lib.Scan
import MediasoupClient.Sdp.MatchingReads

/-! When a negotiation goes through.

        validated codecs ──▶ comparisons ──▶ rtx codecs ──▶ extended capabilities
                                 │               │
                                 ▼               ▼
                         a profile that      an rtx codec
                         cannot be read      without apt

    Validation leaves two things to chance: the profile-level-id (or profile-id) of a codec may be a
    null or a number that is none, and an rtx codec may lack its apt. Either is met only by a scan that
    gets that far. -/

namespace MediasoupClient.Sdp
open Lib

/-! ### Validated codecs -/

/-- A feedback with the two texts that are compared. -/
def FeedbackText (fb : Json) : Prop :=
  ∃ m, fb = .obj m ∧ has m "type" Json.isString = true ∧ has m "parameter" Json.isString = true

/-- What validation leaves of a codec, and a scan keeps. -/
structure CodecShape (c : Json) : Prop where
  isObject : c.isObject = true
  kind : ∃ mimeType kind, c.find "mimeType" = some (.str mimeType) ∧
    mimeKind mimeType = some kind ∧ c.find "kind" = some (.str kind)
  clockRate : ∃ v, c.find "clockRate" = some v ∧ v.isNumberInteger = true
  payloadType : ∀ v, c.find "preferredPayloadType" = some v → v.isNumberInteger = true
  parameters : ∃ p, c.find "parameters" = some (.obj p) ∧
    ∀ kv ∈ p, validateParameter kv = .ok ()
  rtcpFeedback : ∃ feedback, c.find "rtcpFeedback" = some (.arr feedback) ∧
    ∀ fb ∈ feedback, FeedbackText fb

theorem validateRtcpFeedback_ok {fb fb' : Json} (h : validateRtcpFeedback fb = .ok fb') :
    FeedbackText fb' := by
  cases fb with
  | obj m =>
    obtain ⟨_, htype, h⟩ := bind_ok.mp h
    cases h
    obtain ⟨type, ht, hs⟩ := has_iff.mp (require_ok.mp htype)
    refine ⟨_, rfl, has_iff.mpr ⟨type, ?_, hs⟩, ?_⟩
    · rw [get_orDefault, if_neg fun hd => absurd hd.1 (by decide), ht]
    · unfold orDefault
      cases hp : has m "parameter" Json.isString with
      | true => exact hp
      | false => exact has_iff.mpr ⟨_, get_put_self _ _ m, rfl⟩
  | _ => cases h

theorem CodecShape.of_validated {c c' : Json} (h : validateRtpCodecCapability c = .ok c') :
    CodecShape c' := by
  obtain ⟨m, kind, m', rfl, hkind, rfl, hpt, hrest⟩ := validateRtpCodecCapability_ok h
  obtain ⟨mimeType, hmime, hk⟩ := codecKind_ok hkind
  obtain ⟨clockRate, hclock, hint⟩ := has_iff.mp hrest.clockRate
  obtain ⟨feedback, hmap, hfb⟩ := hrest.rtcpFeedback
  have hother : ∀ k ∉ ["parameters", "rtcpFeedback", "channels"],
      Lib.get k m' = Lib.get k (put "kind" (.str kind) m) := hrest.others
  refine ⟨rfl, ⟨mimeType, kind, ?_, hk, ?_⟩, ⟨clockRate, ?_, hint⟩, fun v hv => ?_,
    ⟨_, hrest.parameters, forM_ok hrest.valid⟩, ⟨feedback, hfb, fun fb hmem => ?_⟩⟩
  · change Lib.get "mimeType" m' = _
    rw [hother _ (by decide), get_put_of_ne _ (by decide), hmime]
  · change Lib.get "kind" m' = _
    rw [hother _ (by decide), get_put_self]
  · change Lib.get "clockRate" m' = _
    rw [hother _ (by decide), hclock]
  · change Lib.get "preferredPayloadType" m' = _ at hv
    rw [hother _ (by decide), get_put_of_ne _ (by decide)] at hv
    exact hasOrLacks_iff.mp hpt v hv
  · obtain ⟨_, -, hval⟩ := mem_of_forall₂ (mapM_ok hmap) hmem
    exact validateRtcpFeedback_ok hval

/-- The codecs of validated capabilities. -/
theorem codecShape_validated {caps caps' : Json} (h : validateRtpCapabilities caps = .ok caps') :
    ∀ c ∈ codecsOf caps', CodecShape c := fun _ hc => by
  obtain ⟨_, -, hval⟩ := mem_of_forall₂ (codecsOf_validated h) hc
  exact .of_validated hval

section
variable {c : Json}

theorem CodecShape.feedbackOk (h : CodecShape c) : FeedbackOk c := by
  obtain ⟨feedback, hfb, hall⟩ := h.rtcpFeedback
  refine ⟨feedback, hfb, fun fb hmem => ?_⟩
  obtain ⟨m, rfl, htype, hparameter⟩ := hall fb hmem
  obtain ⟨type, ht, -⟩ := has_iff.mp htype
  obtain ⟨parameter, hp, -⟩ := has_iff.mp hparameter
  exact ⟨type, parameter, read_of_find ht, read_of_find hp⟩

theorem CodecShape.isRtxCodec (h : CodecShape c) : isRtxCodec c = .ok (isRtx c) := by
  obtain ⟨mimeType, kind, hmime, -⟩ := h.kind
  unfold Sdp.isRtxCodec isRtx
  rw [read_of_find hmime, mimeType_read hmime rfl]
  rfl

/-- A parameter of a validated codec is a text, a number or null. -/
theorem CodecShape.parameter (h : CodecShape c) {p : Members}
    (hp : c.find "parameters" = some (.obj p)) {k : String} {v : Json} (hv : get k p = some v) :
    (v.isString || v.isNumber || v.isNull) = true ∧ (k = "apt" → v.isNumberInteger = true) := by
  obtain ⟨p', hp', hvalid⟩ := h.parameters
  cases hp.symm.trans hp'
  obtain ⟨_, htype, hapt⟩ := bind_ok.mp (hvalid _ (mem_of_get hv))
  refine ⟨require_ok.mp htype, fun hk => ?_⟩
  have hreq := require_ok.mp hapt
  subst hk
  simpa using hreq

/-- The payload type of a validated codec is an integer, if there is one. -/
theorem CodecShape.payloadTypeOf (h : CodecShape c) :
    payloadTypeOf c = .null ∨ (payloadTypeOf c).isNumberInteger = true := by
  unfold Sdp.payloadTypeOf
  cases hpt : c.find "preferredPayloadType" with
  | none => exact Or.inl rfl
  | some v => exact Or.inr (h.payloadType v hpt)

theorem toUInt_of_integer {v : Json} (h : v.isNumberInteger = true) (w : ℕ) :
    ∃ n, v.toUInt w = .ok n := by
  cases v with
  | int i => exact ⟨_, rfl⟩
  | uint n => exact ⟨_, rfl⟩
  | _ => cases h

/-- A parameter that is read as a byte is 0 if it is no integer. -/
theorem CodecShape.byteParameter (h : CodecShape c) (k : String) :
    ∃ n, byteParameter k c = .ok n := by
  obtain ⟨p, hp, -⟩ := h.parameters
  have hread : ∃ n, readParameter asByte k c = some n := by
    rw [readParameter, hp]
    change ∃ n, asByte (Lib.get k p) = some n
    cases Lib.get k p with
    | none => exact ⟨0, rfl⟩
    | some v =>
      unfold asByte
      simp only
      split_ifs with hv
      · obtain ⟨n, hn⟩ := toUInt_of_integer hv 8
        exact ⟨n, by rw [hn]; rfl⟩
      · exact ⟨0, rfl⟩
  obtain ⟨n, hn⟩ := hread
  exact ⟨n, toOption_eq_some.mp ((byteParameter_toOption k c).trans hn)⟩

theorem CodecShape.packetizationModeOf (h : CodecShape c) :
    ∃ mode, getH264PacketizationMode c = .ok mode ∧ packetizationModeOf c = some mode := by
  obtain ⟨mode, hmode⟩ := h.byteParameter "packetization-mode"
  exact ⟨mode, hmode, packetizationMode_read hmode⟩

/-- The profile-level-id can be written. -/
theorem CodecShape.setProfileLevelId (h : CodecShape c) (id : Option String) :
    ∃ c', setProfileLevelId id c = .ok c' ∧ CodecShape c' := by
  obtain ⟨p, hp, hvalid⟩ := h.parameters
  obtain ⟨m, rfl⟩ : ∃ m, c = .obj m := by
    cases c with
    | obj m => exact ⟨m, rfl⟩
    | _ => exact absurd h.isObject (by simp [Json.isObject])
  change Lib.get "parameters" m = some (.obj p) at hp
  -- whatever is written into the parameters, the other members stay
  have hwrite : ∀ p' : Members, (∀ kv ∈ p', validateParameter kv = .ok ()) →
      CodecShape (.obj (put "parameters" (.obj p') m)) := fun p' hp' => by
    have hkeep : ∀ k ≠ "parameters", (Json.obj (put "parameters" (.obj p') m)).find k =
        (Json.obj m).find k := fun k hk => get_put_of_ne _ hk m
    obtain ⟨mimeType, kind, hmime, hk, hkind⟩ := h.kind
    obtain ⟨clockRate, hclock, hint⟩ := h.clockRate
    obtain ⟨feedback, hfb, hall⟩ := h.rtcpFeedback
    refine ⟨rfl, ⟨mimeType, kind, ?_, hk, ?_⟩, ⟨clockRate, ?_, hint⟩, fun v hv => ?_,
      ⟨p', get_put_self _ _ m, hp'⟩, ⟨feedback, ?_, hall⟩⟩
    · rw [hkeep _ (by decide), hmime]
    · rw [hkeep _ (by decide), hkind]
    · rw [hkeep _ (by decide), hclock]
    · rw [hkeep _ (by decide)] at hv
      exact h.payloadType v hv
    · rw [hkeep _ (by decide), hfb]
  have hread : (Json.obj m).readOrNull "parameters" = .ok (.obj p) := by
    change Except.ok ((Lib.get "parameters" m).getD .null) = _
    rw [hp]
    rfl
  unfold Sdp.setProfileLevelId
  rw [hread]
  cases id with
  | some id =>
    refine ⟨_, rfl, hwrite _ fun kv hkv => ?_⟩
    rcases mem_put hkv with rfl | hkv
    · rfl
    · exact hvalid kv hkv
  | none => exact ⟨_, rfl, hwrite _ fun kv hkv => hvalid kv (mem_del hkv)⟩

end

/-! ### Comparing two of them -/

/-- What is compared of two codecs whatever they are. -/
def alike (a b : Json) : Bool :=
  bothSame (mimeTypeOf a) (mimeTypeOf b) &&
  ((a.find "clockRate").getD .null).eqv ((b.find "clockRate").getD .null) && sameChannels a b

/-- The profiles that are compared can be read: those of two H264 codecs of one packetization mode,
    and those of two VP9 codecs. -/
structure Comparable (a b : Json) : Prop where
  h264 : alike a b = true → mimeTypeOf a = some "video/h264" →
    packetizationModeOf a = packetizationModeOf b →
    (profileLevelIdOf a).isSome = true ∧ (profileLevelIdOf b).isSome = true
  vp9 : alike a b = true → mimeTypeOf a = some "video/vp9" →
    (profileIdOf a).isSome = true ∧ (profileIdOf b).isSome = true

section
variable {webrtc : WebRtc} {a b : Json}

/-- The comparison of two validated codecs, without what always succeeds. -/
theorem matchCodecs_validated (ha : CodecShape a) (hb : CodecShape b) :
    matchCodecs webrtc a b true true =
      if alike a b = false then .ok (false, a, b)
      else if mimeTypeOf a = some "video/h264" then matchH264 webrtc a b true
      else if mimeTypeOf a = some "video/vp9" then do
        let aProfileId ← getVP9ProfileId a
        let bProfileId ← getVP9ProfileId b
        return (aProfileId = bProfileId, a, b)
      else .ok (true, a, b) := by
  obtain ⟨s, -, hs, -⟩ := ha.kind
  obtain ⟨t, -, ht, -⟩ := hb.kind
  have hma : Sdp.member a "mimeType" = .ok (.str s) := by rw [Sdp.member, hs]
  have hmb : Sdp.member b "mimeType" = .ok (.str t) := by rw [Sdp.member, ht]
  have has : mimeTypeOf a = some (lower s) := mimeType_read hs rfl
  have hbt : mimeTypeOf b = some (lower t) := mimeType_read ht rfl
  unfold matchCodecs alike
  simp only [hma, hmb, has, hbt, Json.toStr, ok_bind, readOrNull_of_isObject ha.isObject,
    readOrNull_of_isObject hb.isObject, bothSame, Option.some.injEq]
  by_cases hst : lower s = lower t
  · rw [if_neg fun hne => hne hst]
    cases ((a.find "clockRate").getD .null).eqv ((b.find "clockRate").getD .null) with
    | false => simp; rfl
    | true =>
      cases sameChannels a b with
      | false => simp; rfl
      | true => simp [hst]; rfl
  · rw [if_pos hst]
    simp [hst]
    rfl

/-- A profile-level-id that is read. -/
theorem profileLevelId_returns (c : Json) :
    (∃ id, getH264ProfileLevelId c = .ok id) ↔ (profileLevelIdOf c).isSome = true := by
  rw [profileLevelIdOf, ← textParameter_toOption, Option.isSome_iff_exists]
  simp only [toOption_eq_some]
  rfl

theorem profileId_returns (c : Json) :
    (∃ id, getVP9ProfileId c = .ok id) ↔ (profileIdOf c).isSome = true := by
  rw [profileIdOf, ← textParameter_toOption, Option.isSome_iff_exists]
  simp only [toOption_eq_some]
  rfl

/-- The H264 branch returns exactly if the profiles can be read, unless the packetization modes
    differ. -/
theorem matchH264_returns (ha : CodecShape a) (hb : CodecShape b) :
    (∃ r, matchH264 webrtc a b true = .ok r) ↔
      (packetizationModeOf a = packetizationModeOf b →
        (profileLevelIdOf a).isSome = true ∧ (profileLevelIdOf b).isSome = true) := by
  obtain ⟨am, ham, ham'⟩ := ha.packetizationModeOf
  obtain ⟨bm, hbm, hbm'⟩ := hb.packetizationModeOf
  obtain ⟨al, hal⟩ := ha.byteParameter "level-asymmetry-allowed"
  obtain ⟨bl, hbl⟩ := hb.byteParameter "level-asymmetry-allowed"
  change getH264LevelAssimetryAllowed a = .ok al at hal
  change getH264LevelAssimetryAllowed b = .ok bl at hbl
  rw [ham', hbm', Option.some.injEq, ← profileLevelId_returns, ← profileLevelId_returns]
  unfold matchH264
  simp only [ham, hbm, hal, hbl, ok_bind]
  by_cases hmode : am = bm
  · subst hmode
    rw [if_neg fun hne => hne rfl]
    constructor
    · rintro ⟨r, h⟩ -
      obtain ⟨ap, hap, h⟩ := bind_ok.mp h
      obtain ⟨bp, hbp, -⟩ := bind_ok.mp h
      exact ⟨⟨ap, hap⟩, ⟨bp, hbp⟩⟩
    · intro h
      obtain ⟨⟨ap, hap⟩, ⟨bp, hbp⟩⟩ := h rfl
      simp only [hap, hbp, ok_bind]
      split_ifs
      · exact ⟨_, rfl⟩
      · split
        · exact ⟨_, rfl⟩
        · rename_i id _
          obtain ⟨a', ha', -⟩ := ha.setProfileLevelId id
          obtain ⟨b', hb', -⟩ := hb.setProfileLevelId id
          simp only [ha', hb', ok_bind]
          exact ⟨_, rfl⟩
  · rw [if_pos hmode]
    exact iff_of_true ⟨_, rfl⟩ fun hc => absurd hc hmode

/-- A comparison of validated codecs returns exactly if the profiles it compares can be read. -/
theorem matchCodecs_returns (ha : CodecShape a) (hb : CodecShape b) :
    (∃ r, matchCodecs webrtc a b true true = .ok r) ↔ Comparable a b := by
  rw [matchCodecs_validated ha hb]
  cases halike : alike a b with
  | false =>
    refine iff_of_true ⟨_, rfl⟩ ⟨fun h => ?_, fun h => ?_⟩
    · exact absurd (halike.symm.trans h) (by decide)
    · exact absurd (halike.symm.trans h) (by decide)
  | true =>
    rw [if_neg (by decide)]
    by_cases h264 : mimeTypeOf a = some "video/h264"
    · rw [if_pos h264, matchH264_returns ha hb]
      refine ⟨fun h => ⟨fun _ _ => h, fun _ hvp9 => ?_⟩, fun h => h.h264 halike h264⟩
      exact absurd (h264.symm.trans hvp9) (by decide)
    · rw [if_neg h264]
      by_cases hvp9 : mimeTypeOf a = some "video/vp9"
      · rw [if_pos hvp9]
        constructor
        · rintro ⟨r, h⟩
          obtain ⟨ap, hap, h⟩ := bind_ok.mp h
          obtain ⟨bp, hbp, -⟩ := bind_ok.mp h
          exact ⟨fun _ hc => absurd hc h264, fun _ _ =>
            ⟨(profileId_returns a).mp ⟨ap, hap⟩, (profileId_returns b).mp ⟨bp, hbp⟩⟩⟩
        · intro h
          obtain ⟨hap, hbp⟩ := h.vp9 halike hvp9
          obtain ⟨ap, hap⟩ := (profileId_returns a).mpr hap
          obtain ⟨bp, hbp⟩ := (profileId_returns b).mpr hbp
          exact ⟨_, bind_ok.mpr ⟨ap, hap, bind_ok.mpr ⟨bp, hbp, rfl⟩⟩⟩
      · rw [if_neg hvp9]
        exact iff_of_true ⟨_, rfl⟩
          ⟨fun _ hc => absurd hc h264, fun _ hc => absurd hc hvp9⟩

/-- The H264 branch leaves both codecs as they are, or writes one profile-level-id into both. -/
theorem matchH264_changes {r : Bool × Json × Json} (h : matchH264 webrtc a b true = .ok r) :
    (r.2.1 = a ∧ r.2.2 = b) ∨
      ∃ id, setProfileLevelId id a = .ok r.2.1 ∧ setProfileLevelId id b = .ok r.2.2 := by
  obtain ⟨am, -, h⟩ := bind_ok.mp h
  obtain ⟨bm, -, h⟩ := bind_ok.mp h
  by_cases hmode : am = bm
  · rw [if_neg fun hne => hne hmode] at h
    obtain ⟨al, -, h⟩ := bind_ok.mp h
    obtain ⟨ap, -, h⟩ := bind_ok.mp h
    obtain ⟨bl, -, h⟩ := bind_ok.mp h
    obtain ⟨bp, -, h⟩ := bind_ok.mp h
    simp only [if_true] at h
    split_ifs at h
    · cases h; exact Or.inl ⟨rfl, rfl⟩
    · split at h
      · cases h; exact Or.inl ⟨rfl, rfl⟩
      · obtain ⟨a', ha', h⟩ := bind_ok.mp h
        obtain ⟨b', hb', h⟩ := bind_ok.mp h
        cases h
        exact Or.inr ⟨_, ha', hb'⟩
  · rw [if_pos hmode] at h
    cases h
    exact Or.inl ⟨rfl, rfl⟩

theorem matchCodecs_changes {r : Bool × Json × Json} (ha : CodecShape a) (hb : CodecShape b)
    (h : matchCodecs webrtc a b true true = .ok r) : (r.2.1 = a ∧ r.2.2 = b) ∨
      (mimeTypeOf a = some "video/h264" ∧
        ∃ id, setProfileLevelId id a = .ok r.2.1 ∧ setProfileLevelId id b = .ok r.2.2) := by
  rw [matchCodecs_validated ha hb] at h
  split_ifs at h with halike h264 hvp9
  · cases h; exact Or.inl ⟨rfl, rfl⟩
  · exact (matchH264_changes h).imp_right fun hid => ⟨h264, hid⟩
  · obtain ⟨ap, -, h⟩ := bind_ok.mp h
    obtain ⟨bp, -, h⟩ := bind_ok.mp h
    cases h
    exact Or.inl ⟨rfl, rfl⟩
  · cases h; exact Or.inl ⟨rfl, rfl⟩

end

/-! ### The scan -/

section
variable {P : Type} {profile : String → Option P}

/-- What a scan leaves of a validated codec: itself, or a codec of the same profile, if it has
    one. -/
def Rewritten (profile : String → Option P) (c c' : Json) : Prop :=
  c' = c ∨ (Kept profile c c' ∧ (profileOf profile c).isSome = true ∧ CodecShape c')

theorem Rewritten.refl (c : Json) : Rewritten profile c c := Or.inl rfl

theorem Rewritten.kept {c c' : Json} (h : Rewritten profile c c') : Kept profile c c' := by
  rcases h with rfl | ⟨h, -⟩
  · exact .refl _
  · exact h

theorem Rewritten.shape {c c' : Json} (h : Rewritten profile c c') (hc : CodecShape c) :
    CodecShape c' := by
  rcases h with rfl | ⟨-, -, h⟩
  · exact hc
  · exact h

theorem Rewritten.trans {a b c : Json} (hab : Rewritten profile a b)
    (hbc : Rewritten profile b c) : Rewritten profile a c := by
  rcases hab with rfl | ⟨hkept, hsome, hshape⟩
  · exact hbc
  · exact Or.inr ⟨hkept.trans hbc.kept, hsome, hbc.shape hshape⟩

/-- A profile-level-id that cannot be read is never written. -/
theorem Rewritten.readable {c c' : Json} (h : Rewritten profile c c') :
    (profileLevelIdOf c').isSome = (profileLevelIdOf c).isSome := by
  rcases h with rfl | ⟨hkept, hsome, -⟩
  · rfl
  · have hread : ∀ {c : Json}, (profileOf profile c).isSome = true →
        (profileLevelIdOf c).isSome = true := fun {c} h => by
      unfold profileOf at h
      cases hid : profileLevelIdOf c with
      | none => rw [hid] at h; cases h
      | some id => rfl
    have hsome' : (profileOf profile c').isSome = true := by rw [hkept.profile, hsome]
    rw [hread hsome, hread hsome']

theorem Rewritten.alike {a a' b b' : Json} (ha : Rewritten profile a a')
    (hb : Rewritten profile b b') : alike a' b' = alike a b := by
  have hsc : sameChannels a' b' = sameChannels a b := by
    unfold sameChannels
    rw [ha.kept.others _ (by decide), hb.kept.others _ (by decide)]
  unfold Sdp.alike
  rw [ha.kept.mimeTypeOf, hb.kept.mimeTypeOf, ha.kept.others "clockRate" (by decide),
    hb.kept.others "clockRate" (by decide), hsc]

theorem Rewritten.comparable {a a' b b' : Json} (ha : Rewritten profile a a')
    (hb : Rewritten profile b b') : Comparable a' b' ↔ Comparable a b := by
  have hmode : ∀ {c c' : Json}, Rewritten profile c c' →
      packetizationModeOf c' = packetizationModeOf c :=
    fun h => h.kept.parameter _ _ (by decide)
  have hid : ∀ {c c' : Json}, Rewritten profile c c' → profileIdOf c' = profileIdOf c :=
    fun h => h.kept.parameter _ _ (by decide)
  constructor
  · intro h
    have h264 := h.h264
    have hvp9 := h.vp9
    rw [ha.alike hb, ha.kept.mimeTypeOf, hmode ha, hmode hb, ha.readable, hb.readable] at h264
    rw [ha.alike hb, ha.kept.mimeTypeOf, hid ha, hid hb] at hvp9
    exact ⟨h264, hvp9⟩
  · intro h
    refine ⟨?_, ?_⟩
    · rw [ha.alike hb, ha.kept.mimeTypeOf, hmode ha, hmode hb, ha.readable, hb.readable]
      exact h.h264
    · rw [ha.alike hb, ha.kept.mimeTypeOf, hid ha, hid hb]
      exact h.vp9

end

section
variable {P : Type} [DecidableEq P] {profile : String → Option P} {webrtc : WebRtc}

/-- Codecs that match have the same mime type. -/
theorem strictlyMatches_mimeType {a b : Json} (h : strictlyMatches profile a b = true) :
    mimeTypeOf a = mimeTypeOf b := by
  simp only [strictlyMatches, Bool.and_eq_true] at h
  obtain ⟨mimeType, ha, hb⟩ := bothSame_iff.mp h.1.1.1.1
  rw [ha, hb]

/-- H264 codecs that match have the same profile. -/
theorem strictlyMatches_profile {a b : Json} (h : strictlyMatches profile a b = true)
    (h264 : mimeTypeOf a = some "video/h264") :
    ∃ p, profileOf profile a = some p ∧ profileOf profile b = some p := by
  simp only [strictlyMatches, h264, Bool.and_eq_true] at h
  have hmodes : (bothSame (packetizationModeOf a) (packetizationModeOf b) &&
      bothSame (profileOf profile a) (profileOf profile b)) = true := by simpa using h.1.2
  exact bothSame_iff.mp (Bool.and_eq_true_iff.mp hmodes).2

theorem matchCodecs_rewritten (hw : webrtc.Lawful profile) {a b : Json} {r : Bool × Json × Json}
    (ha : CodecShape a) (hb : CodecShape b) (h : matchCodecs webrtc a b true true = .ok r) :
    Rewritten profile a r.2.1 ∧ Rewritten profile b r.2.2 := by
  have hc := matchCodecs_ok hw h
  rcases matchCodecs_changes ha hb h with ⟨hra, hrb⟩ | ⟨h264, id, hseta, hsetb⟩
  · exact ⟨Or.inl hra, Or.inl hrb⟩
  · cases hm : r.1 with
    | false =>
      obtain ⟨hra, hrb⟩ := hc.unchanged hm
      exact ⟨Or.inl hra, Or.inl hrb⟩
    | true =>
      obtain ⟨p, hpa, hpb⟩ := strictlyMatches_profile (hc.matched.symm.trans hm) h264
      obtain ⟨a', ha', hsa⟩ := ha.setProfileLevelId id
      obtain ⟨b', hb', hsb⟩ := hb.setProfileLevelId id
      cases ha'.symm.trans hseta
      cases hb'.symm.trans hsetb
      exact ⟨Or.inr ⟨hc.first, by rw [hpa]; rfl, hsa⟩, Or.inr ⟨hc.second, by rw [hpb]; rfl, hsb⟩⟩

/-- The scan for one remote codec returns exactly if it can be compared with every local codec up to
    the first that matches. -/
theorem findMatchingCodec_returns (hw : webrtc.Lawful profile) {ls : List Json} {r : Json}
    (hls : ∀ l ∈ ls, CodecShape l) (hr : CodecShape r) :
    (∃ x, findMatchingCodec webrtc ls r = .ok x) ↔
      UpToFirst (strictlyMatches profile · r) (Comparable · r) ls := by
  induction ls with
  | nil => exact iff_of_true ⟨_, rfl⟩ trivial
  | cons l ls ih =>
    have hl := hls l (List.mem_cons_self ..)
    have ih := ih fun x hx => hls x (List.mem_cons_of_mem _ hx)
    have hcmp : (∃ x, matchCodecs webrtc l r true true = .ok x) ↔ Comparable l r :=
      matchCodecs_returns hl hr
    unfold UpToFirst
    rw [← hcmp, ← ih]
    constructor
    · rintro ⟨x, h⟩
      obtain ⟨⟨m, l', r'⟩, hcmp, h⟩ := bind_ok.mp h
      refine ⟨⟨_, hcmp⟩, fun hno => ?_⟩
      have hc := matchCodecs_ok hw hcmp
      have hm : m = false := hc.matched.trans hno
      obtain ⟨-, hr'⟩ := hc.unchanged hm
      obtain rfl : r' = r := hr'
      subst hm
      obtain ⟨y, hy, -⟩ := bind_ok.mp h
      exact ⟨y, hy⟩
    · rintro ⟨⟨⟨m, l', r'⟩, hcmp⟩, hrest⟩
      have hc := matchCodecs_ok hw hcmp
      cases m with
      | true => exact ⟨_, bind_ok.mpr ⟨_, hcmp, rfl⟩⟩
      | false =>
        obtain ⟨-, hr'⟩ := hc.unchanged rfl
        obtain rfl : r' = r := hr'
        obtain ⟨y, hy⟩ := hrest hc.matched.symm
        exact ⟨_, bind_ok.mpr ⟨_, hcmp, bind_ok.mpr ⟨y, hy, rfl⟩⟩⟩

theorem findMatchingCodec_rewritten (hw : webrtc.Lawful profile) {ls : List Json} {r : Json}
    {x : Option ℕ × List Json × Json} (hls : ∀ l ∈ ls, CodecShape l) (hr : CodecShape r)
    (h : findMatchingCodec webrtc ls r = .ok x) :
    List.Forall₂ (Rewritten profile) ls x.2.1 ∧ Rewritten profile r x.2.2 := by
  induction ls generalizing r x with
  | nil => cases h; exact ⟨.nil, .refl r⟩
  | cons l ls ih =>
    obtain ⟨⟨m, l', r'⟩, hcmp, h⟩ := bind_ok.mp h
    obtain ⟨hl', hr'⟩ := matchCodecs_rewritten hw (hls l (List.mem_cons_self ..)) hr hcmp
    cases m with
    | true => cases h; exact ⟨.cons hl' (List.forall₂_same.mpr fun c _ => .refl c), hr'⟩
    | false =>
      obtain ⟨⟨idx, ls', r₂⟩, hrest, h⟩ := bind_ok.mp h
      cases h
      obtain ⟨hls', hr₂⟩ := ih (fun c hc => hls c (List.mem_cons_of_mem _ hc)) (hr'.shape hr) hrest
      exact ⟨.cons hl' hls', hr'.trans hr₂⟩

end

/-! ### Extended codecs -/

/-- What the two passes make of validated codecs. -/
structure ExtendedShape (ext : ExtendedCodec) : Prop where
  kind : ∃ mimeType kind, ext.mimeType = .str mimeType ∧ mimeKind mimeType = some kind ∧
    ext.kind = .str kind ∧ lower mimeType ∉ ["audio/rtx", "video/rtx"]
  clockRate : ext.clockRate.isNumberInteger = true
  localPayloadType : ext.localPayloadType = .null ∨ ext.localPayloadType.isNumberInteger = true
  remotePayloadType : ext.remotePayloadType = .null ∨ ext.remotePayloadType.isNumberInteger = true
  localRtx : ext.localRtxPayloadType = .null ∨
    (ext.localRtxPayloadType.isNumberInteger = true ∧ ext.localPayloadType.isNumberInteger = true)
  remoteRtx : ext.remoteRtxPayloadType = .null ∨
    (ext.remoteRtxPayloadType.isNumberInteger = true ∧
      ext.remotePayloadType.isNumberInteger = true)
  localParameters : ∃ p, ext.localParameters = .obj p ∧ ∀ kv ∈ p, validateParameter kv = .ok ()
  remoteParameters : ∃ p, ext.remoteParameters = .obj p ∧ ∀ kv ∈ p, validateParameter kv = .ok ()
  rtcpFeedback : ∃ feedback, ext.rtcpFeedback = .arr feedback ∧ ∀ fb ∈ feedback, FeedbackText fb

/-- The element a search has found. -/
theorem findIdx_get {p : Json → Except Fault Bool} {cs : List Json} {i : ℕ}
    (h : findIdx p cs = .ok (some i)) : ∃ c, cs[i]? = some c ∧ p c = .ok true := by
  induction cs generalizing i with
  | nil => cases h
  | cons c cs ih =>
    obtain ⟨b, hb, h⟩ := bind_ok.mp h
    cases b with
    | true => cases h; exact ⟨c, rfl, hb⟩
    | false =>
      obtain ⟨rest, hrest, h⟩ := bind_ok.mp h
      cases rest with
      | none => cases h
      | some j => cases h; exact ih hrest

/-- Reduced feedback is feedback of the second codec. -/
theorem reduceRtcpFeedback_mem {a b fb : Json} (hb : CodecShape b)
    (h : reduceRtcpFeedback a b = .ok fb) :
    ∃ feedback, fb = .arr feedback ∧ ∀ x ∈ feedback, FeedbackText x := by
  obtain ⟨fa, -, h⟩ := bind_ok.mp h
  obtain ⟨fbs, hfbs, h⟩ := bind_ok.mp h
  obtain ⟨reduced, hreduced, h⟩ := bind_ok.mp h
  cases h
  obtain ⟨feedback, hfind, hall⟩ := hb.rtcpFeedback
  cases (member_ok hfbs).symm.trans hfind
  refine ⟨reduced, rfl, foldlM_keeps (I := fun acc => ∀ x ∈ acc, FeedbackText x) ?_ hreduced
    fun x hx => absurd hx List.not_mem_nil⟩
  intro acc aFb acc' hstep hacc
  obtain ⟨idx, hidx, hstep⟩ := bind_ok.mp hstep
  cases idx with
  | none => cases hstep; exact hacc
  | some i =>
    cases hstep
    intro x hx
    rcases List.mem_append.mp hx with hx | hx
    · exact hacc x hx
    · rw [List.mem_singleton.mp hx]
      obtain ⟨y, hy, -⟩ := findIdx_get hidx
      change feedback[i]? = some y at hy
      change FeedbackText (feedback.getD i .null)
      rw [List.getD_eq_getElem?_getD, hy]
      exact hall y (List.mem_of_getElem? hy)

theorem extendCodec_shape {a b : Json} {ext : ExtendedCodec} (ha : CodecShape a)
    (hb : CodecShape b) (hrtx : isRtx a = false) (h : extendCodec a b = .ok ext) :
    ExtendedShape ext := by
  obtain ⟨mime, hmime, h⟩ := bind_ok.mp h
  obtain ⟨kind, hkind, h⟩ := bind_ok.mp h
  obtain ⟨clockRate, hclock, h⟩ := bind_ok.mp h
  obtain ⟨lpt, hlpt, h⟩ := bind_ok.mp h
  obtain ⟨rpt, hrpt, h⟩ := bind_ok.mp h
  obtain ⟨lp, hlp, h⟩ := bind_ok.mp h
  obtain ⟨rp, hrp, h⟩ := bind_ok.mp h
  obtain ⟨fb, hfb, h⟩ := bind_ok.mp h
  cases h
  obtain ⟨mimeType, k, hm, hk, hkd⟩ := ha.kind
  obtain ⟨v, hv, hint⟩ := ha.clockRate
  obtain ⟨p, hp, hvalid⟩ := ha.parameters
  obtain ⟨q, hq, hvalid'⟩ := hb.parameters
  cases Json.readOrNull_ok hlpt
  cases Json.readOrNull_ok hrpt
  have hno : lower mimeType ∉ ["audio/rtx", "video/rtx"] := by
    intro hmem
    rw [isRtx, mimeType_read hm rfl] at hrtx
    simp only [Option.any_some, decide_eq_false_iff_not] at hrtx
    exact hrtx hmem
  refine ⟨⟨mimeType, k, ?_, hk, ?_, hno⟩, ?_, ha.payloadTypeOf, hb.payloadTypeOf, Or.inl rfl,
    Or.inl rfl, ⟨p, ?_, hvalid⟩, ⟨q, ?_, hvalid'⟩, reduceRtcpFeedback_mem hb hfb⟩
  · rw [Json.readOrNull_ok hmime, hm]
    rfl
  · rw [Json.readOrNull_ok hkind, hkd]
    rfl
  · rw [Json.readOrNull_ok hclock, hv]
    exact hint
  · rw [Json.readOrNull_ok hlp, hp]
    rfl
  · rw [Json.readOrNull_ok hrp, hq]
    rfl

/-- Lists related to a list of validated codecs are lists of validated codecs. -/
theorem Rewritten.shapes {P : Type} {profile : String → Option P} {cs cs' : List Json}
    (h : List.Forall₂ (Rewritten profile) cs cs') (hcs : ∀ c ∈ cs, CodecShape c) :
    ∀ c ∈ cs', CodecShape c := fun c' hc' => by
  obtain ⟨c, hc, hr⟩ := mem_of_forall₂ h hc'
  exact hr.shape (hcs c hc)

theorem rewritten_trans {P : Type} {profile : String → Option P} {as bs cs : List Json}
    (hab : List.Forall₂ (Rewritten profile) as bs) (hbc : List.Forall₂ (Rewritten profile) bs cs) :
    List.Forall₂ (Rewritten profile) as cs := by
  induction hab generalizing cs with
  | nil => exact hbc
  | cons hab _ ih =>
    cases hbc with
    | cons hbc hrest => exact .cons (hab.trans hbc) (ih hrest)

/-- The codecs a remote codec has been matched with. -/
theorem findMatchingCodec_pair {P : Type} [DecidableEq P] {profile : String → Option P}
    {webrtc : WebRtc} (hw : webrtc.Lawful profile) {ls ls' : List Json} {r r' : Json} {i : ℕ}
    (hls : ∀ l ∈ ls, CodecShape l) (hr : CodecShape r)
    (h : findMatchingCodec webrtc ls r = .ok (some i, ls', r')) :
    ∃ l, CodecShape (ls'.getD i .null) ∧ CodecShape r' ∧ ls[i]? = some l ∧
      strictlyMatches profile l r = true ∧ mimeTypeOf (ls'.getD i .null) = mimeTypeOf r := by
  obtain ⟨hidx, hkept, -⟩ := findMatchingCodec_ok hw h
  obtain ⟨hls', hr'⟩ := findMatchingCodec_rewritten hw hls hr h
  obtain ⟨l, hfind, hget⟩ := find?_of_findIdx? hidx.symm
  have hl' := kept_getD hkept hget
  have hmatch : strictlyMatches profile l r = true :=
    List.find?_some (p := fun l => strictlyMatches profile l r) hfind
  refine ⟨l, ?_, hr'.shape hr, hget, hmatch, ?_⟩
  · obtain ⟨hi, -⟩ := List.getElem?_eq_some_iff.mp hget
    have hi' : i < ls'.length := hls'.length_eq ▸ hi
    change CodecShape (ls'.getD i .null)
    rw [List.getD_eq_getElem?_getD, List.getElem?_eq_getElem hi']
    exact Rewritten.shapes hls' hls _ (List.getElem_mem hi')
  · rw [hl'.mimeTypeOf, strictlyMatches_mimeType hmatch]

theorem isRtx_of_mimeType {a b : Json} (h : mimeTypeOf a = mimeTypeOf b) : isRtx a = isRtx b := by
  rw [isRtx, isRtx, h]

section
variable {P : Type} [DecidableEq P] {profile : String → Option P} {webrtc : WebRtc}

/-- The first pass returns exactly if every scan does, over the local codecs as they were before it:
    what has been written since then does not matter. -/
theorem matchMediaCodecs_returns (hw : webrtc.Lawful profile) {original ls rs : List Json} {i : ℕ}
    (horiginal : ∀ l ∈ original, CodecShape l) (hls : List.Forall₂ (Rewritten profile) original ls)
    (hrs : ∀ r ∈ rs, CodecShape r) :
    (∃ x, matchMediaCodecs webrtc ls i rs = .ok x) ↔ ∀ r ∈ rs, isRtx r = false →
      UpToFirst (strictlyMatches profile · r) (Comparable · r) original := by
  induction rs generalizing ls i with
  | nil => exact iff_of_true ⟨_, rfl⟩ fun r hr => absurd hr List.not_mem_nil
  | cons r rs ih =>
    have hr := hrs r (List.mem_cons_self ..)
    have hrs' : ∀ x ∈ rs, CodecShape x := fun x hx => hrs x (List.mem_cons_of_mem _ hx)
    have hshapes := Rewritten.shapes hls horiginal
    have hscan := findMatchingCodec_returns hw hshapes hr
    rw [upToFirst_congr hls (fun h => h.kept.strictlyMatches (.refl r))
      (fun h => h.comparable (.refl r))] at hscan
    rw [List.forall_mem_cons, ← hscan]
    unfold matchMediaCodecs
    rw [hr.isRtxCodec, ok_bind]
    cases hrtx : isRtx r with
    | true =>
      simp only [if_true, Bool.true_eq_false, false_imp_iff, true_and]
      refine ⟨fun ⟨x, h⟩ => ?_, fun hrest => ?_⟩
      · obtain ⟨y, hy, -⟩ := bind_ok.mp h
        exact (ih hls hrs').mp ⟨y, hy⟩
      · obtain ⟨y, hy⟩ := (ih (i := i + 1) hls hrs').mpr hrest
        exact ⟨_, bind_ok.mpr ⟨y, hy, rfl⟩⟩
    | false =>
      simp only [Bool.false_eq_true, if_false, forall_const]
      constructor
      · rintro ⟨x, h⟩
        obtain ⟨⟨idx, ls', r'⟩, hfind, h⟩ := bind_ok.mp h
        refine ⟨⟨_, hfind⟩, ?_⟩
        have hls' := rewritten_trans hls (findMatchingCodec_rewritten hw hshapes hr hfind).1
        cases idx with
        | none =>
          obtain ⟨first, -, h⟩ := bind_ok.mp h
          obtain ⟨y, hy, -⟩ := bind_ok.mp h
          exact (ih hls' hrs').mp ⟨y, hy⟩
        | some j =>
          obtain ⟨ext, -, h⟩ := bind_ok.mp h
          obtain ⟨first, -, h⟩ := bind_ok.mp h
          obtain ⟨y, hy, -⟩ := bind_ok.mp h
          exact (ih hls' hrs').mp ⟨y, hy⟩
      · rintro ⟨⟨⟨idx, ls', r'⟩, hfind⟩, hrest⟩
        have hls' := rewritten_trans hls (findMatchingCodec_rewritten hw hshapes hr hfind).1
        obtain ⟨y, hy⟩ := (ih (i := i + 1) hls' hrs').mpr hrest
        cases idx with
        | none => exact ⟨_, bind_ok.mpr ⟨_, hfind, bind_ok.mpr ⟨[], rfl, bind_ok.mpr ⟨y, hy, rfl⟩⟩⟩⟩
        | some j =>
          obtain ⟨_, hl', hr', -⟩ := findMatchingCodec_pair hw hshapes hr hfind
          obtain ⟨ext, hext⟩ :=
            extendCodec_total hl'.isObject hr'.isObject hl'.feedbackOk hr'.feedbackOk
          exact ⟨_, bind_ok.mpr ⟨_, hfind, bind_ok.mpr ⟨ext, hext, bind_ok.mpr ⟨_, rfl,
            bind_ok.mpr ⟨y, hy, rfl⟩⟩⟩⟩⟩

/-- What the first pass leaves: validated codecs, and extended codecs made of them. -/
theorem matchMediaCodecs_shapes (hw : webrtc.Lawful profile) {ls rs : List Json} {i : ℕ}
    {x : List Match × List Json × List Json} (hls : ∀ l ∈ ls, CodecShape l)
    (hrs : ∀ r ∈ rs, CodecShape r) (h : matchMediaCodecs webrtc ls i rs = .ok x) :
    List.Forall₂ (Rewritten profile) ls x.2.1 ∧ List.Forall₂ (Rewritten profile) rs x.2.2 ∧
      ∀ m ∈ x.1, ExtendedShape m.extended := by
  induction rs generalizing ls i x with
  | nil =>
    cases h
    exact ⟨List.forall₂_same.mpr fun c _ => .refl c, .nil, fun m hm => absurd hm List.not_mem_nil⟩
  | cons r rs ih =>
    have hr := hrs r (List.mem_cons_self ..)
    have hrs' : ∀ x ∈ rs, CodecShape x := fun x hx => hrs x (List.mem_cons_of_mem _ hx)
    unfold matchMediaCodecs at h
    rw [hr.isRtxCodec, ok_bind] at h
    cases hrtx : isRtx r with
    | true =>
      simp only [hrtx, if_true] at h
      obtain ⟨⟨ms, ls', rs'⟩, hrest, h⟩ := bind_ok.mp h
      cases h
      obtain ⟨hls', hrs'', hms⟩ := ih hls hrs' hrest
      exact ⟨hls', .cons (.refl r) hrs'', hms⟩
    | false =>
      simp only [hrtx, Bool.false_eq_true, if_false] at h
      obtain ⟨⟨idx, ls', r'⟩, hfind, h⟩ := bind_ok.mp h
      obtain ⟨hl₁, hr₁⟩ := findMatchingCodec_rewritten hw hls hr hfind
      have hshapes := Rewritten.shapes hl₁ hls
      cases idx with
      | none =>
        obtain ⟨first, hfirst, h⟩ := bind_ok.mp h
        cases hfirst
        obtain ⟨⟨ms, ls₂, rs₂⟩, hrest, h⟩ := bind_ok.mp h
        cases h
        obtain ⟨hl₂, hr₂, hms⟩ := ih hshapes hrs' hrest
        exact ⟨rewritten_trans hl₁ hl₂, .cons hr₁ hr₂, hms⟩
      | some j =>
        obtain ⟨ext, hext, h⟩ := bind_ok.mp h
        obtain ⟨first, hfirst, h⟩ := bind_ok.mp h
        cases hfirst
        obtain ⟨⟨ms, ls₂, rs₂⟩, hrest, h⟩ := bind_ok.mp h
        cases h
        obtain ⟨hl₂, hr₂, hms⟩ := ih hshapes hrs' hrest
        refine ⟨rewritten_trans hl₁ hl₂, .cons hr₁ hr₂, List.forall_mem_cons.mpr ⟨?_, hms⟩⟩
        obtain ⟨l, hl', hr', -, -, hmime⟩ := findMatchingCodec_pair hw hls hr hfind
        exact extendCodec_shape hl' hr' ((isRtx_of_mimeType hmime).trans hrtx) hext

end

/-! ### The rtx codecs -/

/-- An rtx codec has an apt. -/
def HasApt (c : Json) : Prop := isRtx c = true → (readParameter id "apt" c).isSome = true

theorem CodecShape.isRtxCodecOf_returns {c : Json} (h : CodecShape c) (payloadType : Json) :
    (∃ b, isRtxCodecOf payloadType c = .ok b) ↔ HasApt c := by
  obtain ⟨p, hp, -⟩ := h.parameters
  unfold isRtxCodecOf HasApt
  rw [h.isRtxCodec, ok_bind, read_of_find hp]
  cases isRtx c with
  | false => exact iff_of_true ⟨false, rfl⟩ fun hc => by cases hc
  | true =>
    rw [readParameter, hp]
    change (∃ b, ((Json.obj p).read "apt" >>= fun apt => pure (apt.eqv payloadType)) = .ok b) ↔
      (true = true → (Lib.get "apt" p).isSome = true)
    constructor
    · rintro ⟨b, hb⟩ -
      obtain ⟨apt, hapt, -⟩ := bind_ok.mp hb
      rw [show Lib.get "apt" p = some apt from Json.read_ok.mp hapt]
      rfl
    · intro hsome
      obtain ⟨apt, hapt⟩ := Option.isSome_iff_exists.mp (hsome rfl)
      exact ⟨_, bind_ok.mpr ⟨apt, read_of_find hapt, rfl⟩⟩

/-- The search for the rtx codec of a payload type. -/
theorem findRtx_returns {cs : List Json} (hcs : ∀ c ∈ cs, CodecShape c) (payloadType : Json) :
    (∃ idx, findIdx (isRtxCodecOf payloadType) cs = .ok idx) ↔
      UpToFirst (isRtxOf payloadType) HasApt cs := by
  induction cs with
  | nil => exact iff_of_true ⟨none, rfl⟩ trivial
  | cons c cs ih =>
    have hc := hcs c (List.mem_cons_self ..)
    unfold UpToFirst
    rw [← hc.isRtxCodecOf_returns payloadType, ← ih fun x hx => hcs x (List.mem_cons_of_mem _ hx)]
    constructor
    · rintro ⟨idx, h⟩
      obtain ⟨b, hb, h⟩ := bind_ok.mp h
      refine ⟨⟨b, hb⟩, fun hno => ?_⟩
      rw [isRtxCodecOf_ok hb, hno] at h
      obtain ⟨rest, hrest, -⟩ := bind_ok.mp h
      exact ⟨rest, hrest⟩
    · rintro ⟨⟨b, hb⟩, hrest⟩
      cases b with
      | true => exact ⟨some 0, bind_ok.mpr ⟨true, hb, rfl⟩⟩
      | false =>
        obtain ⟨rest, hrest⟩ := hrest (isRtxCodecOf_ok hb).symm
        exact ⟨_, bind_ok.mpr ⟨false, hb, bind_ok.mpr ⟨rest, hrest, rfl⟩⟩⟩

/-- The rtx codec of a payload type names an integer. -/
theorem CodecShape.integer_of_isRtxOf {c payloadType : Json} (h : CodecShape c)
    (hpt : payloadType = .null ∨ payloadType.isNumberInteger = true)
    (hrtx : isRtxOf payloadType c = true) : payloadType.isNumberInteger = true := by
  rcases hpt with rfl | hpt
  · obtain ⟨p, hp, -⟩ := h.parameters
    rw [isRtxOf, Bool.and_eq_true, readParameter, hp] at hrtx
    obtain ⟨apt, hapt, heqv⟩ := (Option.any_eq_true _ _).mp hrtx.2
    have hint := (h.parameter hp hapt).2 rfl
    cases apt with
    | int i => cases heqv
    | uint n => cases heqv
    | _ => cases hint
  · exact hpt

theorem Kept.hasApt {P : Type} {profile : String → Option P} {c c' : Json}
    (h : Kept profile c c') : HasApt c' ↔ HasApt c := by
  unfold HasApt isRtx
  rw [h.mimeTypeOf, h.parameter _ _ (by decide)]

section
variable {P : Type} {profile : String → Option P} {originalL originalR ls rs : List Json}
variable (hol : ∀ c ∈ originalL, CodecShape c) (hor : ∀ c ∈ originalR, CodecShape c)
variable (hl : List.Forall₂ (Rewritten profile) originalL ls)
variable (hr : List.Forall₂ (Rewritten profile) originalR rs)
include hol hor hl hr

/-- Every rtx codec that is looked at has an apt: those of the local codecs, and those of the remote
    ones if there is a local one. -/
theorem matchRtxCodecs_returns (ext : ExtendedCodec) :
    (∃ ext', matchRtxCodecs ls rs ext = .ok ext') ↔
      UpToFirst (isRtxOf ext.localPayloadType) HasApt originalL ∧
        ((originalL.find? (isRtxOf ext.localPayloadType)).isSome = true →
          UpToFirst (isRtxOf ext.remotePayloadType) HasApt originalR) := by
  have hls := Rewritten.shapes hl hol
  have hrs := Rewritten.shapes hr hor
  have hkl := hl.imp fun _ _ h => h.kept
  have hlocal := findRtx_returns hls ext.localPayloadType
  have hremote := findRtx_returns hrs ext.remotePayloadType
  rw [upToFirst_congr hl (fun h => h.kept.isRtxOf _) fun h => h.kept.hasApt] at hlocal
  rw [upToFirst_congr hr (fun h => h.kept.isRtxOf _) fun h => h.kept.hasApt] at hremote
  rw [← hlocal, ← hremote]
  -- the local rtx codec that is found is one of the codecs before the first pass
  have hfound : ∀ {idx}, findIdx (isRtxCodecOf ext.localPayloadType) ls = .ok idx →
      (originalL.find? (isRtxOf ext.localPayloadType)).isSome = idx.isSome := fun {idx} h => by
    have hidx : idx = originalL.findIdx? (isRtxOf ext.localPayloadType) :=
      (findIdx_ok isRtxCodecOf_ok h).trans (findIdx?_kept hkl fun hc => hc.isRtxOf _)
    rw [hidx, List.findIdx?_isSome, Bool.eq_iff_iff, List.find?_isSome, List.any_eq_true]
  constructor
  · rintro ⟨ext', h⟩
    obtain ⟨idx, hidx, h⟩ := bind_ok.mp h
    refine ⟨⟨idx, hidx⟩, fun hsome => ?_⟩
    rw [hfound hidx] at hsome
    cases idx with
    | none => cases hsome
    | some i =>
      obtain ⟨idx', hidx', -⟩ := bind_ok.mp h
      exact ⟨idx', hidx'⟩
  · rintro ⟨⟨idx, hidx⟩, hrest⟩
    have hsome := hfound hidx
    cases idx with
    | none => exact ⟨ext, bind_ok.mpr ⟨none, hidx, rfl⟩⟩
    | some i =>
      obtain ⟨idx', hidx'⟩ := hrest hsome
      cases idx' with
      | none => exact ⟨ext, bind_ok.mpr ⟨some i, hidx, bind_ok.mpr ⟨none, hidx', rfl⟩⟩⟩
      | some j =>
        obtain ⟨l, hget, -⟩ := findIdx_get hidx
        obtain ⟨r, hget', -⟩ := findIdx_get hidx'
        have hlget : ls.getD i .null = l := by rw [List.getD_eq_getElem?_getD, hget]; rfl
        have hrget : rs.getD j .null = r := by rw [List.getD_eq_getElem?_getD, hget']; rfl
        have hlobj := (hls l (List.mem_of_getElem? hget)).isObject
        have hrobj := (hrs r (List.mem_of_getElem? hget')).isObject
        have hlread := readOrNull_of_isObject hlobj "preferredPayloadType"
        have hrread := readOrNull_of_isObject hrobj "preferredPayloadType"
        rw [← hlget] at hlread
        rw [← hrget] at hrread
        exact ⟨_, bind_ok.mpr ⟨some i, hidx, bind_ok.mpr ⟨some j, hidx',
          bind_ok.mpr ⟨_, hlread, bind_ok.mpr ⟨_, hrread, rfl⟩⟩⟩⟩⟩

omit hol hor hl hr in
/-- The rtx codec that a search has found: its payload type, and that of the codec it belongs to. -/
theorem rtxPayloadType_found {cs : List Json} (hcs : ∀ c ∈ cs, CodecShape c) {pt rtxPt : Json}
    (hpt : pt = .null ∨ pt.isNumberInteger = true) {i : ℕ}
    (hidx : findIdx (isRtxCodecOf pt) cs = .ok (some i))
    (hread : (cs.getD i .null).readOrNull "preferredPayloadType" = .ok rtxPt) :
    rtxPt = .null ∨ (rtxPt.isNumberInteger = true ∧ pt.isNumberInteger = true) := by
  obtain ⟨c, hget, hrtx⟩ := findIdx_get hidx
  have hc := hcs c (List.mem_of_getElem? hget)
  rw [List.getD_eq_getElem?_getD, hget] at hread
  have hrtxPt : rtxPt = payloadTypeOf c := Json.readOrNull_ok hread
  rw [hrtxPt]
  exact hc.payloadTypeOf.imp_right fun h => ⟨h, hc.integer_of_isRtxOf hpt (isRtxCodecOf_ok hrtx).symm⟩

/-- The second pass, over the matches of the first one. -/
theorem rtxPass_returns {ms : List Match} {pairs : List (Json × Json)}
    (hpairs : List.Forall₂ Paired ms pairs) :
    (∃ ms', ms.mapM (fun m => do
      return { m with extended := ← matchRtxCodecs ls rs m.extended }) =
        (.ok ms' : Except Fault (List Match))) ↔
      ∀ pair ∈ pairs, UpToFirst (isRtxOf (payloadTypeOf pair.1)) HasApt originalL ∧
        ((originalL.find? (isRtxOf (payloadTypeOf pair.1))).isSome = true →
          UpToFirst (isRtxOf (payloadTypeOf pair.2)) HasApt originalR) := by
  rw [mapM_returns]
  induction hpairs with
  | nil => simp
  | @cons m pair _ _ hpair _ ih =>
    rw [List.forall_mem_cons, List.forall_mem_cons, ih,
      ← hpair.1.localPayloadType, ← hpair.1.remotePayloadType,
      ← matchRtxCodecs_returns hol hor hl hr m.extended]
    refine and_congr_left' ⟨fun ⟨m', h⟩ => ?_, fun ⟨ext', h⟩ => ⟨_, bind_ok.mpr ⟨ext', h, rfl⟩⟩⟩
    obtain ⟨ext', h, -⟩ := bind_ok.mp h
    exact ⟨ext', h⟩

theorem matchRtxCodecs_shape {ext ext' : ExtendedCodec} (hext : ExtendedShape ext)
    (h : matchRtxCodecs ls rs ext = .ok ext') : ExtendedShape ext' := by
  obtain ⟨localIdx, hlidx, h⟩ := bind_ok.mp h
  cases localIdx with
  | none => cases h; exact hext
  | some i =>
    obtain ⟨remoteIdx, hridx, h⟩ := bind_ok.mp h
    cases remoteIdx with
    | none => cases h; exact hext
    | some j =>
      obtain ⟨lpt, hlpt, h⟩ := bind_ok.mp h
      obtain ⟨rpt, hrpt, h⟩ := bind_ok.mp h
      cases h
      exact { hext with
        localRtx := rtxPayloadType_found (Rewritten.shapes hl hol) hext.localPayloadType hlidx hlpt
        remoteRtx :=
          rtxPayloadType_found (Rewritten.shapes hr hor) hext.remotePayloadType hridx hrpt }

end

/-! ### The matches -/

/-- The capabilities can be negotiated: what the comparisons and the searches for rtx codecs read is
    there. -/
structure Negotiable {P : Type} [DecidableEq P] (profile : String → Option P)
    (localCodecs remoteCodecs : List Json) : Prop where
  comparable : ∀ r ∈ remoteCodecs, isRtx r = false →
    UpToFirst (strictlyMatches profile · r) (Comparable · r) localCodecs
  apts : ∀ pair ∈ matchedPairs profile localCodecs remoteCodecs,
    UpToFirst (isRtxOf (payloadTypeOf pair.1)) HasApt localCodecs ∧
      ((localCodecs.find? (isRtxOf (payloadTypeOf pair.1))).isSome = true →
        UpToFirst (isRtxOf (payloadTypeOf pair.2)) HasApt remoteCodecs)

section
variable {P : Type} [DecidableEq P] {profile : String → Option P} {webrtc : WebRtc}
variable {localCaps remoteCaps : Json}

/-- The matching returns exactly if the capabilities can be negotiated. -/
theorem matchCapabilities_returns (hw : webrtc.Lawful profile) (hlobj : localCaps.isObject = true)
    (hrobj : remoteCaps.isObject = true) (hl : ∀ c ∈ codecsOf localCaps, CodecShape c)
    (hr : ∀ c ∈ codecsOf remoteCaps, CodecShape c) :
    (∃ ms, matchCapabilities webrtc localCaps remoteCaps = .ok ms) ↔
      Negotiable profile (codecsOf localCaps) (codecsOf remoteCaps) := by
  have hrefl : ∀ cs : List Json, List.Forall₂ (Rewritten profile) cs cs :=
    fun cs => List.forall₂_same.mpr fun c _ => .refl c
  have hfirst := matchMediaCodecs_returns (i := 0) hw hl (hrefl _) hr
  have hls : localCaps.readOrNull "codecs" = .ok ((localCaps.find "codecs").getD .null) :=
    readOrNull_of_isObject hlobj _
  have hrs : remoteCaps.readOrNull "codecs" = .ok ((remoteCaps.find "codecs").getD .null) :=
    readOrNull_of_isObject hrobj _
  constructor
  · rintro ⟨ms, h⟩
    obtain ⟨_, hl', h⟩ := bind_ok.mp h
    obtain ⟨_, hr', h⟩ := bind_ok.mp h
    cases hls.symm.trans hl'
    cases hrs.symm.trans hr'
    obtain ⟨⟨ms₁, ls, rs⟩, hms, h⟩ := bind_ok.mp h
    obtain ⟨hls', hrs', -⟩ := matchMediaCodecs_shapes hw hl hr hms
    obtain ⟨hpairs, -⟩ := matchMediaCodecs_ok hw hms (List.forall₂_same.mpr fun c _ => .refl c)
    exact ⟨hfirst.mp ⟨_, hms⟩, (rtxPass_returns hl hr hls' hrs' hpairs).mp ⟨ms, h⟩⟩
  · intro h
    obtain ⟨⟨ms₁, ls, rs⟩, hms⟩ := hfirst.mpr h.comparable
    obtain ⟨hls', hrs', -⟩ := matchMediaCodecs_shapes hw hl hr hms
    obtain ⟨hpairs, -⟩ := matchMediaCodecs_ok hw hms (List.forall₂_same.mpr fun c _ => .refl c)
    obtain ⟨ms, hloop⟩ := (rtxPass_returns hl hr hls' hrs' hpairs).mpr h.apts
    exact ⟨ms, bind_ok.mpr ⟨_, hls, bind_ok.mpr ⟨_, hrs, bind_ok.mpr ⟨_, hms, hloop⟩⟩⟩⟩

/-- The extended codecs of the matches of validated codecs. -/
theorem matchCapabilities_shapes (hw : webrtc.Lawful profile)
    (hl : ∀ c ∈ codecsOf localCaps, CodecShape c) (hr : ∀ c ∈ codecsOf remoteCaps, CodecShape c)
    {ms : List Match} (h : matchCapabilities webrtc localCaps remoteCaps = .ok ms) :
    ∀ m ∈ ms, ExtendedShape m.extended := by
  obtain ⟨_, hls, h⟩ := bind_ok.mp h
  obtain ⟨_, hrs, h⟩ := bind_ok.mp h
  obtain ⟨⟨ms₁, ls, rs⟩, hms, h⟩ := bind_ok.mp h
  have hloop := mapM_ok h
  cases Json.readOrNull_ok hls
  cases Json.readOrNull_ok hrs
  obtain ⟨hl', hr', hshapes⟩ := matchMediaCodecs_shapes hw hl hr hms
  intro m hm
  obtain ⟨m₁, hm₁, hstep⟩ := mem_of_forall₂ hloop hm
  obtain ⟨ext, hext, hstep⟩ := bind_ok.mp hstep
  cases hstep
  exact matchRtxCodecs_shape hl hr hl' hr' (hshapes m₁ hm₁) hext

end

end MediasoupClient.Sdp
