import MediasoupClient.Sdp.CodecMatching

/-! What the matching reads of a remote codec.

        remote codecs    r₀  r₁  r₂          SameRead, one by one          r₀' r₁' r₂'
                          │   │   │                                         │   │   │
                          ▼   ▼   ▼                                         ▼   ▼   ▼
        matches          the same positions, payload types and rtx payload types

    Two remote codecs of which the same is read are compared with a local codec in the same way, and
    leave the same local codec. -/

namespace MediasoupClient.Sdp
open Lib

/-- The codec parameters that are read. -/
def matchingParameters : List String :=
  ["packetization-mode", "profile-level-id", "level-asymmetry-allowed", "profile-id", "apt"]

/-- The other members that are read. -/
def matchingMembers : List String := ["mimeType", "clockRate", "channels", "preferredPayloadType"]

/-- The feedback of a codec can be compared. -/
def FeedbackOk (codec : Json) : Prop :=
  ∃ feedback, codec.find "rtcpFeedback" = some (.arr feedback) ∧
    ∀ fb ∈ feedback, ∃ type parameter, fb.read "type" = .ok type ∧
      fb.read "parameter" = .ok parameter

/-- The matching reads the same of two codecs. -/
structure SameRead (c c' : Json) : Prop where
  isObject : c.isObject = true
  isObject' : c'.isObject = true
  member : ∀ k ∈ matchingMembers, c'.find k = c.find k
  parameters : ∃ p p', c.find "parameters" = some (.obj p) ∧
    c'.find "parameters" = some (.obj p') ∧ ∀ k ∈ matchingParameters, get k p' = get k p
  feedback : FeedbackOk c
  feedback' : FeedbackOk c'

theorem SameRead.symm {c c' : Json} (h : SameRead c c') : SameRead c' c := by
  obtain ⟨p, p', hp, hp', hsame⟩ := h.parameters
  exact ⟨h.isObject', h.isObject, fun k hk => (h.member k hk).symm,
    ⟨p', p, hp', hp, fun k hk => (hsame k hk).symm⟩, h.feedback', h.feedback⟩

/-! ### Reading -/

theorem read_of_find {c v : Json} {k : String} (h : c.find k = some v) : c.read k = .ok v :=
  Json.read_ok.mpr h

theorem readOrNull_of_isObject {c : Json} (h : c.isObject = true) (k : String) :
    c.readOrNull k = .ok ((c.find k).getD .null) := by
  cases c with
  | obj m => rfl
  | _ => cases h

theorem SameRead.readOrNull {c c' : Json} (h : SameRead c c') {k : String}
    (hk : k ∈ matchingMembers) : c'.readOrNull k = c.readOrNull k := by
  rw [readOrNull_of_isObject h.isObject, readOrNull_of_isObject h.isObject', h.member k hk]

theorem SameRead.memberOf {c c' : Json} (h : SameRead c c') {k : String}
    (hk : k ∈ matchingMembers) : Sdp.member c' k = Sdp.member c k := by
  unfold Sdp.member
  rw [h.member k hk]

theorem SameRead.byteParameter {c c' : Json} (h : SameRead c c') {k : String}
    (hk : k ∈ matchingParameters) : byteParameter k c' = byteParameter k c := by
  obtain ⟨p, p', hp, hp', hsame⟩ := h.parameters
  unfold Sdp.byteParameter
  rw [read_of_find hp, read_of_find hp']
  simp only [ok_bind, Json.find, hsame k hk]

theorem SameRead.textParameter {c c' : Json} (h : SameRead c c') {k : String}
    (hk : k ∈ matchingParameters) (default : String) :
    textParameter k default c' = textParameter k default c := by
  obtain ⟨p, p', hp, hp', hsame⟩ := h.parameters
  unfold Sdp.textParameter
  rw [read_of_find hp, read_of_find hp']
  simp only [ok_bind, Json.find, hsame k hk]

theorem SameRead.isRtxCodec {c c' : Json} (h : SameRead c c') : isRtxCodec c' = isRtxCodec c := by
  have hread : c'.read "mimeType" = c.read "mimeType" := by
    have hm := h.member "mimeType" (by decide)
    cases hc : c with
    | obj m =>
      cases hc' : c' with
      | obj m' =>
        rw [hc, hc'] at hm
        change get "mimeType" m' = get "mimeType" m at hm
        simp only [Json.read, hm]
      | _ => exact absurd h.isObject' (by rw [hc']; simp [Json.isObject])
    | _ => exact absurd h.isObject (by rw [hc]; simp [Json.isObject])
  unfold Sdp.isRtxCodec
  rw [hread]

theorem SameRead.isRtxCodecOf {c c' : Json} (h : SameRead c c') (payloadType : Json) :
    isRtxCodecOf payloadType c' = isRtxCodecOf payloadType c := by
  obtain ⟨p, p', hp, hp', hsame⟩ := h.parameters
  have hread : (Json.obj p').read "apt" = (Json.obj p).read "apt" := by
    simp only [Json.read, hsame "apt" (by decide)]
  unfold Sdp.isRtxCodecOf
  rw [h.isRtxCodec, read_of_find hp, read_of_find hp']
  refine congrArg (fun f => Sdp.isRtxCodec c >>= f) (funext fun rtx => ?_)
  cases rtx with
  | false => rfl
  | true =>
    change ((Json.obj p').read "apt" >>= fun apt => pure (apt.eqv payloadType)) =
      ((Json.obj p).read "apt" >>= fun apt => pure (apt.eqv payloadType))
    rw [hread]

/-! ### Writing -/

/-- Writing the profile-level-id of a codec that has parameters. -/
theorem setProfileLevelId_spec {c : Json} (hobj : c.isObject = true) {p : Members}
    (hp : c.find "parameters" = some (.obj p)) (id : Option String) :
    ∃ c₁ p₁, setProfileLevelId id c = .ok c₁ ∧ c₁.isObject = true ∧
      (∀ k ≠ "parameters", c₁.find k = c.find k) ∧ c₁.find "parameters" = some (.obj p₁) ∧
      ∀ k, get k p₁ = if k = "profile-level-id" then id.map .str else get k p := by
  cases c with
  | obj m =>
    change get "parameters" m = some (.obj p) at hp
    have hread : (Json.obj m).readOrNull "parameters" = .ok (.obj p) := by
      change Except.ok ((get "parameters" m).getD .null) = _
      rw [hp]
      rfl
    unfold setProfileLevelId
    rw [hread]
    cases id with
    | some id =>
      exact ⟨.obj (put "parameters" (.obj (put "profile-level-id" (.str id) p)) m), _, rfl, rfl,
        fun k hk => get_put_of_ne _ hk m, get_put_self "parameters" _ m, fun k => get_put _ k _ p⟩
    | none =>
      exact ⟨.obj (put "parameters" (.obj (del "profile-level-id" p)) m), _, rfl, rfl,
        fun k hk => get_put_of_ne _ hk m, get_put_self "parameters" _ m, fun k => get_del _ k p⟩
  | _ => cases hobj

theorem FeedbackOk.of_find {c c' : Json} (h : FeedbackOk c)
    (hf : c'.find "rtcpFeedback" = c.find "rtcpFeedback") : FeedbackOk c' := by
  obtain ⟨feedback, hfb, hall⟩ := h
  exact ⟨feedback, hf.trans hfb, hall⟩

/-- The profile-level-id can be written into both, and the same is read of them afterwards. -/
theorem SameRead.setProfileLevelId {c c' : Json} (h : SameRead c c') (id : Option String) :
    ∃ c₁ c₁', setProfileLevelId id c = .ok c₁ ∧ setProfileLevelId id c' = .ok c₁' ∧
      SameRead c₁ c₁' := by
  obtain ⟨p, p', hp, hp', hsame⟩ := h.parameters
  obtain ⟨c₁, p₁, hset, hobj, hother, hp₁, hget⟩ := setProfileLevelId_spec h.isObject hp id
  obtain ⟨c₁', p₁', hset', hobj', hother', hp₁', hget'⟩ := setProfileLevelId_spec h.isObject' hp' id
  have hne : ∀ k ∈ matchingMembers, k ≠ "parameters" := by decide
  refine ⟨c₁, c₁', hset, hset', hobj, hobj', fun k hk => ?_, ⟨p₁, p₁', hp₁, hp₁', fun k hk => ?_⟩,
    h.feedback.of_find (hother _ (by decide)), h.feedback'.of_find (hother' _ (by decide))⟩
  · rw [hother' k (hne k hk), hother k (hne k hk), h.member k hk]
  · rw [hget', hget, hsame k hk]

/-! ### Comparing -/

section
variable {webrtc : WebRtc}

theorem SameRead.matchH264 {a a₁ c c' c₁ : Json} {m : Bool} (hs : SameRead c c')
    (h : matchH264 webrtc a c true = .ok (m, a₁, c₁)) :
    ∃ c₁', matchH264 webrtc a c' true = .ok (m, a₁, c₁') ∧ SameRead c₁ c₁' ∧
      ∀ k ≠ "parameters", a₁.find k = a.find k := by
  obtain ⟨am, ham, h⟩ := bind_ok.mp h
  obtain ⟨cm, hcm, h⟩ := bind_ok.mp h
  have hcm' : getH264PacketizationMode c' = .ok cm := (hs.byteParameter (by decide)).trans hcm
  unfold Sdp.matchH264
  rw [ham, hcm']
  change ∃ c₁', (if am ≠ cm then _ else _) = _ ∧ _
  by_cases hmode : am = cm
  · subst hmode
    rw [if_neg fun hne => hne rfl] at h ⊢
    obtain ⟨al, hal, h⟩ := bind_ok.mp h
    obtain ⟨ap, hap, h⟩ := bind_ok.mp h
    obtain ⟨cl, hcl, h⟩ := bind_ok.mp h
    obtain ⟨cp, hcp, h⟩ := bind_ok.mp h
    have hcl' : getH264LevelAssimetryAllowed c' = .ok cl :=
      (hs.byteParameter (by decide)).trans hcl
    have hcp' : getH264ProfileLevelId c' = .ok cp := (hs.textParameter (by decide) "").trans hcp
    rw [hal, hap, hcl', hcp']
    change ∃ c₁', (if (!webrtc.h264IsSameProfile ⟨toString al, toString am, ap⟩
      ⟨toString cl, toString am, cp⟩) = true then _ else _) = _ ∧ _
    cases hsame : webrtc.h264IsSameProfile ⟨toString al, toString am, ap⟩
        ⟨toString cl, toString am, cp⟩ with
    | false =>
      simp only [hsame] at h
      cases h
      exact ⟨c', rfl, hs, fun _ _ => rfl⟩
    | true =>
      cases hgen : webrtc.h264GenerateProfileLevelIdForAnswer ⟨toString al, toString am, ap⟩
          ⟨toString cl, toString am, cp⟩ with
      | error _ =>
        simp only [hsame, hgen] at h
        cases h
        exact ⟨c', rfl, hs, fun _ _ => rfl⟩
      | ok id =>
        simp only [hsame, hgen] at h
        obtain ⟨a₂, ha, h⟩ := bind_ok.mp h
        obtain ⟨c₂, hc, h⟩ := bind_ok.mp h
        cases h
        obtain ⟨c₃, c₃', hset, hset', hs₃⟩ := hs.setProfileLevelId id
        cases hc.symm.trans hset
        obtain ⟨parameters, hwrite, -⟩ := setProfileLevelId_ok ha
        refine ⟨c₃', ?_, hs₃, fun k hk => by rw [Json.find_write hwrite, if_neg hk]⟩
        simp only [Bool.not_true, Bool.false_eq_true, if_false, if_true, ha, hset', ok_bind]
        rfl
  · rw [if_pos hmode] at h ⊢
    cases h
    exact ⟨c', rfl, hs, fun _ _ => rfl⟩

/-- A comparison with a codec of which the same is read. -/
theorem SameRead.matchCodecs {a a₁ c c' c₁ : Json} {m : Bool} (hs : SameRead c c')
    (h : matchCodecs webrtc a c true true = .ok (m, a₁, c₁)) :
    ∃ c₁', matchCodecs webrtc a c' true true = .ok (m, a₁, c₁') ∧ SameRead c₁ c₁' ∧
      ∀ k ≠ "parameters", a₁.find k = a.find k := by
  obtain ⟨av, hav, h⟩ := bind_ok.mp h
  obtain ⟨at', hat, h⟩ := bind_ok.mp h
  obtain ⟨cv, hcv, h⟩ := bind_ok.mp h
  obtain ⟨ct, hct, h⟩ := bind_ok.mp h
  have hcv' : Sdp.member c' "mimeType" = .ok cv := (hs.memberOf (by decide)).trans hcv
  have hchannels : sameChannels a c' = sameChannels a c := by
    unfold sameChannels
    rw [hs.member "channels" (by decide)]
  have hclock := hs.readOrNull (k := "clockRate") (by decide)
  unfold Sdp.matchCodecs
  simp only [hav, hat, hcv', hct, ok_bind]
  by_cases hmime : lower at' = lower ct
  · rw [if_neg fun hne => hne hmime] at h ⊢
    obtain ⟨ac, hac, h⟩ := bind_ok.mp h
    obtain ⟨cc, hcc, h⟩ := bind_ok.mp h
    simp only [hac, hclock, hcc, ok_bind, hchannels]
    cases heqv : ac.eqv cc with
    | false =>
      simp only [heqv] at h
      cases h
      exact ⟨c', rfl, hs, fun _ _ => rfl⟩
    | true =>
      cases hch : sameChannels a c with
      | false =>
        simp only [heqv, hch] at h
        cases h
        exact ⟨c', rfl, hs, fun _ _ => rfl⟩
      | true =>
        simp only [heqv, hch, Bool.not_true, Bool.false_eq_true, if_false, and_true] at h ⊢
        by_cases h264 : lower at' = "video/h264"
        · rw [if_pos h264] at h ⊢
          exact hs.matchH264 h
        · rw [if_neg h264] at h ⊢
          by_cases hvp9 : lower at' = "video/vp9"
          · rw [if_pos hvp9] at h ⊢
            obtain ⟨ap, hap, h⟩ := bind_ok.mp h
            obtain ⟨cp, hcp, h⟩ := bind_ok.mp h
            have hcp' : getVP9ProfileId c' = .ok cp := (hs.textParameter (by decide) "0").trans hcp
            cases h
            rw [hap, hcp']
            exact ⟨c', rfl, hs, fun _ _ => rfl⟩
          · rw [if_neg hvp9] at h ⊢
            cases h
            exact ⟨c', rfl, hs, fun _ _ => rfl⟩
  · rw [if_pos hmime] at h ⊢
    cases h
    exact ⟨c', rfl, hs, fun _ _ => rfl⟩

/-- The scan for a codec of which the same is read. -/
theorem SameRead.findMatchingCodec {ls ls₁ : List Json} {c c' c₁ : Json} {idx : Option ℕ}
    (hs : SameRead c c') (h : findMatchingCodec webrtc ls c = .ok (idx, ls₁, c₁)) :
    ∃ c₁', findMatchingCodec webrtc ls c' = .ok (idx, ls₁, c₁') ∧ SameRead c₁ c₁' ∧
      ((∀ l ∈ ls, FeedbackOk l) → ∀ l ∈ ls₁, FeedbackOk l) := by
  induction ls generalizing c c' c₁ idx ls₁ with
  | nil => cases h; exact ⟨c', rfl, hs, fun h => h⟩
  | cons l ls ih =>
    obtain ⟨⟨m, l₁, c₂⟩, hcmp, h⟩ := bind_ok.mp h
    obtain ⟨c₂', hcmp', hs₂, hother⟩ := hs.matchCodecs hcmp
    have hl : FeedbackOk l → FeedbackOk l₁ := fun hf => hf.of_find (hother _ (by decide))
    unfold Sdp.findMatchingCodec
    rw [hcmp', ok_bind]
    cases m with
    | true =>
      cases h
      refine ⟨c₂', rfl, hs₂, fun hall => List.forall_mem_cons.mpr ?_⟩
      exact ⟨hl (hall l (List.mem_cons_self ..)), fun l hl => hall l (List.mem_cons_of_mem _ hl)⟩
    | false =>
      obtain ⟨⟨idx₁, ls₂, c₃⟩, hrest, h⟩ := bind_ok.mp h
      obtain ⟨c₃', hrest', hs₃, hls⟩ := ih hs₂ hrest
      cases h
      refine ⟨c₃', ?_, hs₃, fun hall => List.forall_mem_cons.mpr ?_⟩
      · simp only [hrest', ok_bind]
        rfl
      · exact ⟨hl (hall l (List.mem_cons_self ..)),
          hls fun l hl => hall l (List.mem_cons_of_mem _ hl)⟩

/-! ### Extended codecs -/

/-- A search succeeds if every test does. -/
theorem findIdx_total {p : Json → Except Fault Bool} {cs : List Json}
    (h : ∀ c ∈ cs, ∃ b, p c = .ok b) : ∃ idx, findIdx p cs = .ok idx := by
  induction cs with
  | nil => exact ⟨none, rfl⟩
  | cons c cs ih =>
    obtain ⟨b, hb⟩ := h c (List.mem_cons_self ..)
    obtain ⟨idx, hidx⟩ := ih fun c hc => h c (List.mem_cons_of_mem _ hc)
    unfold findIdx
    rw [hb, hidx]
    cases b with
    | true => exact ⟨some 0, rfl⟩
    | false => exact ⟨idx.map (· + 1), rfl⟩

/-- Feedback that can be compared can be reduced. -/
theorem reduceRtcpFeedback_total {a b : Json} (ha : FeedbackOk a) (hb : FeedbackOk b) :
    ∃ fb, reduceRtcpFeedback a b = .ok fb := by
  obtain ⟨as, has, hall⟩ := ha
  obtain ⟨bs, hbs, hbsok⟩ := hb
  have hma : Sdp.member a "rtcpFeedback" = .ok (.arr as) := by rw [Sdp.member, has]
  have hmb : Sdp.member b "rtcpFeedback" = .ok (.arr bs) := by rw [Sdp.member, hbs]
  unfold reduceRtcpFeedback
  rw [hma, hmb, ok_bind, ok_bind]
  refine bind_total (foldlM_total (fun aFb haFb reduced => ?_) []) fun _ => ⟨_, rfl⟩
  obtain ⟨at', ap, hat, hap⟩ := hall aFb haFb
  refine bind_total (findIdx_total fun bFb hbFb => ?_) fun idx => ?_
  · obtain ⟨bt, bp, hbt, hbp⟩ := hbsok bFb hbFb
    simp only [hat, hap, hbt, hbp, ok_bind]
    split_ifs
    · exact ⟨_, rfl⟩
    · exact ⟨_, rfl⟩
  · cases idx with
    | none => exact ⟨reduced, rfl⟩
    | some i => exact ⟨_, rfl⟩

/-- Extended codecs with the same payload types. -/
structure SameExtended (ext ext' : ExtendedCodec) : Prop where
  localPayloadType : ext'.localPayloadType = ext.localPayloadType
  remotePayloadType : ext'.remotePayloadType = ext.remotePayloadType
  localRtxPayloadType : ext'.localRtxPayloadType = ext.localRtxPayloadType
  remoteRtxPayloadType : ext'.remoteRtxPayloadType = ext.remoteRtxPayloadType

theorem SameRead.extendCodec {a c c' : Json} {ext : ExtendedCodec} (hs : SameRead c c')
    (ha : FeedbackOk a) (h : extendCodec a c = .ok ext) :
    ∃ ext', extendCodec a c' = .ok ext' ∧ SameExtended ext ext' := by
  obtain ⟨mimeType, hmime, h⟩ := bind_ok.mp h
  obtain ⟨kind, hkind, h⟩ := bind_ok.mp h
  obtain ⟨clockRate, hclock, h⟩ := bind_ok.mp h
  obtain ⟨localPayloadType, hlpt, h⟩ := bind_ok.mp h
  obtain ⟨remotePayloadType, hrpt, h⟩ := bind_ok.mp h
  obtain ⟨localParameters, hlp, h⟩ := bind_ok.mp h
  obtain ⟨remoteParameters, hrp, h⟩ := bind_ok.mp h
  obtain ⟨rtcpFeedback, -, h⟩ := bind_ok.mp h
  cases h
  obtain ⟨fb, hfb⟩ := reduceRtcpFeedback_total ha hs.feedback'
  have hrpt' := (hs.readOrNull (k := "preferredPayloadType") (by decide)).trans hrpt
  unfold Sdp.extendCodec
  rw [hmime, hkind, hclock, hlpt, hrpt', hlp, readOrNull_of_isObject hs.isObject', hfb]
  exact ⟨_, rfl, rfl, rfl, rfl, rfl⟩

/-- Matches at the same positions with the same payload types. -/
structure SameMatch (m m' : Match) : Prop where
  remoteIdx : m'.remoteIdx = m.remoteIdx
  localIdx : m'.localIdx = m.localIdx
  extended : SameExtended m.extended m'.extended

theorem feedbackOk_getD {ls : List Json} (h : ∀ l ∈ ls, FeedbackOk l) {i : ℕ} {a : Json}
    {ext : ExtendedCodec} {c : Json} (ha : ls.getD i .null = a) (hext : Sdp.extendCodec a c = .ok ext) :
    FeedbackOk a := by
  cases hi : ls[i]? with
  | some l =>
    rw [List.getD_eq_getElem?_getD, hi] at ha
    exact ha ▸ h l (List.mem_of_getElem? hi)
  | none =>
    rw [List.getD_eq_getElem?_getD, hi] at ha
    subst ha
    obtain ⟨_, -, hext⟩ := bind_ok.mp hext
    obtain ⟨_, -, hext⟩ := bind_ok.mp hext
    obtain ⟨_, -, hext⟩ := bind_ok.mp hext
    obtain ⟨_, -, hext⟩ := bind_ok.mp hext
    obtain ⟨_, -, hext⟩ := bind_ok.mp hext
    obtain ⟨_, -, hext⟩ := bind_ok.mp hext
    obtain ⟨_, -, hext⟩ := bind_ok.mp hext
    obtain ⟨_, hfb, -⟩ := bind_ok.mp hext
    cases hfb

/-- The first pass over remote codecs of which the same is read. -/
theorem matchMediaCodecs_same {ls ls₁ rs rs' rs₁ : List Json} {idx : ℕ} {ms : List Match}
    (hs : List.Forall₂ SameRead rs rs') (hls : ∀ l ∈ ls, FeedbackOk l)
    (h : matchMediaCodecs webrtc ls idx rs = .ok (ms, ls₁, rs₁)) :
    ∃ ms' rs₁', matchMediaCodecs webrtc ls idx rs' = .ok (ms', ls₁, rs₁') ∧
      List.Forall₂ SameMatch ms ms' ∧ List.Forall₂ SameRead rs₁ rs₁' := by
  induction hs generalizing ls ls₁ rs₁ idx ms with
  | nil => cases h; exact ⟨[], [], rfl, .nil, .nil⟩
  | @cons r r' rs rs' hr hrs ih =>
    obtain ⟨rtx, hrtx, h⟩ := bind_ok.mp h
    unfold matchMediaCodecs
    rw [hr.isRtxCodec, hrtx, ok_bind]
    cases rtx with
    | true =>
      obtain ⟨⟨ms₂, ls₂, rs₂⟩, hrest, h⟩ := bind_ok.mp h
      cases h
      obtain ⟨ms', rs₁', hrest', hms, hrs'⟩ := ih hls hrest
      simp only [if_true, hrest', ok_bind]
      exact ⟨_, _, rfl, hms, .cons hr hrs'⟩
    | false =>
      obtain ⟨⟨localIdx, ls₂, r₂⟩, hscan, h⟩ := bind_ok.mp h
      obtain ⟨r₂', hscan', hr₂, hls₂⟩ := hr.findMatchingCodec hscan
      simp only [Bool.false_eq_true, if_false, hscan', ok_bind]
      cases localIdx with
      | none =>
        obtain ⟨first, hfirst, h⟩ := bind_ok.mp h
        cases hfirst
        obtain ⟨⟨ms₂, ls₃, rs₂⟩, hrest, h⟩ := bind_ok.mp h
        cases h
        obtain ⟨ms', rs₁', hrest', hms, hrs'⟩ := ih (hls₂ hls) hrest
        simp only [pure_bind, hrest', ok_bind]
        exact ⟨_, _, rfl, hms, .cons hr₂ hrs'⟩
      | some i =>
        obtain ⟨ext, hext, h⟩ := bind_ok.mp h
        obtain ⟨first, hfirst, h⟩ := bind_ok.mp h
        cases hfirst
        obtain ⟨⟨ms₂, ls₃, rs₂⟩, hrest, h⟩ := bind_ok.mp h
        cases h
        obtain ⟨ms', rs₁', hrest', hms, hrs'⟩ := ih (hls₂ hls) hrest
        obtain ⟨ext', hext', hse⟩ := hr₂.extendCodec (feedbackOk_getD (hls₂ hls) rfl hext) hext
        simp only [hext', pure_bind, hrest', ok_bind]
        exact ⟨_, _, rfl, .cons ⟨rfl, rfl, hse⟩ hms, .cons hr₂ hrs'⟩

/-- A search over codecs of which the same is read. -/
theorem findIdx_same {p : Json → Except Fault Bool} {cs cs' : List Json}
    (hs : List.Forall₂ SameRead cs cs') (hp : ∀ {c c'}, SameRead c c' → p c' = p c) :
    findIdx p cs' = findIdx p cs := by
  induction hs with
  | nil => rfl
  | cons hc _ ih =>
    unfold findIdx
    rw [hp hc, ih]

theorem sameRead_getD {cs cs' : List Json} (hs : List.Forall₂ SameRead cs cs') (i : ℕ) :
    SameRead (cs.getD i .null) (cs'.getD i .null) ∨
      (cs.getD i .null = .null ∧ cs'.getD i .null = .null) := by
  induction hs generalizing i with
  | nil => exact Or.inr ⟨rfl, rfl⟩
  | cons hc _ ih =>
    cases i with
    | zero => exact Or.inl hc
    | succ i => exact ih i

/-- The second pass over remote codecs of which the same is read. -/
theorem matchRtxCodecs_same {ls rs rs' : List Json} {ext ext' ext₁ : ExtendedCodec}
    (hs : List.Forall₂ SameRead rs rs') (he : SameExtended ext ext')
    (h : matchRtxCodecs ls rs ext = .ok ext₁) :
    ∃ ext₁', matchRtxCodecs ls rs' ext' = .ok ext₁' ∧ SameExtended ext₁ ext₁' := by
  obtain ⟨localIdx, hl, h⟩ := bind_ok.mp h
  unfold matchRtxCodecs
  rw [he.localPayloadType, he.remotePayloadType, hl, ok_bind]
  cases localIdx with
  | none => cases h; exact ⟨ext', rfl, he⟩
  | some li =>
    obtain ⟨remoteIdx, hr, h⟩ := bind_ok.mp h
    have hr' := (findIdx_same hs fun hc => hc.isRtxCodecOf ext.remotePayloadType).trans hr
    simp only [hr', ok_bind]
    cases remoteIdx with
    | none => cases h; exact ⟨ext', rfl, he⟩
    | some ri =>
      obtain ⟨lpt, hlpt, h⟩ := bind_ok.mp h
      obtain ⟨rpt, hrpt, h⟩ := bind_ok.mp h
      cases h
      have hrpt' : (rs'.getD ri .null).readOrNull "preferredPayloadType" = .ok rpt := by
        rcases sameRead_getD hs ri with hc | ⟨hnull, hnull'⟩
        · exact (hc.readOrNull (by decide)).trans hrpt
        · rw [hnull'] at *
          rwa [hnull] at hrpt
      simp only [hlpt, hrpt', ok_bind]
      exact ⟨_, rfl, rfl, rfl, rfl, rfl⟩

/-- The loop over the matches, for the second pass. -/
theorem rtxPass_same {ls rs rs' : List Json} {ms ms' ms₁ : List Match}
    (hs : List.Forall₂ SameRead rs rs') (hm : List.Forall₂ SameMatch ms ms')
    (h : ms.mapM (fun m => do
      return { m with extended := ← matchRtxCodecs ls rs m.extended }) = .ok ms₁) :
    ∃ ms₁', ms'.mapM (fun m => do
      return { m with extended := ← matchRtxCodecs ls rs' m.extended }) = .ok ms₁' ∧
      List.Forall₂ SameMatch ms₁ ms₁' := by
  induction hm generalizing ms₁ with
  | nil => cases h; exact ⟨[], rfl, .nil⟩
  | cons hmm _ ih =>
    rw [List.mapM_cons] at h ⊢
    obtain ⟨m₁, hm₁, h⟩ := bind_ok.mp h
    obtain ⟨ext, hext, hm₁⟩ := bind_ok.mp hm₁
    cases hm₁
    obtain ⟨rest, hrest, h⟩ := bind_ok.mp h
    cases h
    obtain ⟨ext', hext', hse⟩ := matchRtxCodecs_same hs hmm.extended hext
    obtain ⟨rest', hrest', hsame⟩ := ih hrest
    simp only [hext', hrest', ok_bind]
    exact ⟨_, rfl, .cons ⟨hmm.remoteIdx, hmm.localIdx, hse⟩ hsame⟩

/-- The matches with two remote capabilities of which the same is read. -/
theorem matchCapabilities_same {localCaps remoteCaps remoteCaps' : Json} {ms : List Match}
    (hobj : remoteCaps'.isObject = true)
    (hs : List.Forall₂ SameRead (codecsOf remoteCaps) (codecsOf remoteCaps'))
    (hls : ∀ l ∈ codecsOf localCaps, FeedbackOk l)
    (h : matchCapabilities webrtc localCaps remoteCaps = .ok ms) :
    ∃ ms', matchCapabilities webrtc localCaps remoteCaps' = .ok ms' ∧
      List.Forall₂ SameMatch ms ms' := by
  obtain ⟨ls, hl, h⟩ := bind_ok.mp h
  obtain ⟨rs, hr, h⟩ := bind_ok.mp h
  obtain ⟨⟨ms₁, ls₁, rs₁⟩, hfirst, hsecond⟩ := bind_ok.mp h
  cases Json.readOrNull_ok hr
  have hls' : ∀ l ∈ ls.elems, FeedbackOk l := by
    rw [Json.readOrNull_ok hl]
    exact hls
  obtain ⟨ms₁', rs₁', hfirst', hm, hrs⟩ := matchMediaCodecs_same hs hls' hfirst
  obtain ⟨ms', hsecond', hsame⟩ := rtxPass_same hrs hm hsecond
  refine ⟨ms', ?_, hsame⟩
  exact bind_ok.mpr ⟨ls, hl, bind_ok.mpr ⟨_, readOrNull_of_isObject hobj "codecs",
    bind_ok.mpr ⟨_, hfirst', hsecond'⟩⟩⟩

end

/-! ### The pairing -/

/-- What `getExtendedRtpCapabilities` pairs: the positions of the two codecs, and their rtx payload
    types. -/
def pairing (webrtc : WebRtc) (localCaps remoteCaps : Json) :
    Except Invalid (List (ℕ × ℕ × Json × Json)) := do
  let localCaps ← validateRtpCapabilities localCaps
  let remoteCaps ← validateRtpCapabilities remoteCaps
  let matched ← matchCapabilities webrtc localCaps remoteCaps
  return matched.map fun m =>
    (m.remoteIdx, m.localIdx, m.extended.localRtxPayloadType, m.extended.remoteRtxPayloadType)

theorem pairing_ok {webrtc : WebRtc} {localCaps remoteCaps : Json}
    {pairs : List (ℕ × ℕ × Json × Json)} (h : pairing webrtc localCaps remoteCaps = .ok pairs) :
    ∃ validLocal validRemote ms, validateRtpCapabilities localCaps = .ok validLocal ∧
      validateRtpCapabilities remoteCaps = .ok validRemote ∧
      matchCapabilities webrtc validLocal validRemote = .ok ms ∧
      pairs = ms.map fun m => (m.remoteIdx, m.localIdx, m.extended.localRtxPayloadType,
        m.extended.remoteRtxPayloadType) := by
  obtain ⟨validLocal, hl, h⟩ := bind_ok.mp h
  obtain ⟨validRemote, hr, h⟩ := bind_ok.mp h
  obtain ⟨ms, hms, h⟩ := bind_ok.mp h
  cases h
  exact ⟨validLocal, validRemote, ms, hl, hr, lift_ok.mp hms, rfl⟩

/-- The feedback of a validated codec can be compared. -/
theorem feedbackOk_validated {c c' : Json} (h : validateRtpCodecCapability c = .ok c') :
    FeedbackOk c' := by
  obtain ⟨codec, kind, codec', rfl, -, rfl, -, hrest⟩ := validateRtpCodecCapability_ok h
  obtain ⟨feedback, hmap, hget⟩ := hrest.rtcpFeedback
  refine ⟨feedback, hget, fun fb hfb => ?_⟩
  obtain ⟨raw, -, hraw⟩ := mem_of_forall₂ (mapM_ok hmap) hfb
  cases raw with
  | obj m =>
    obtain ⟨_, htype, hraw⟩ := bind_ok.mp hraw
    cases hraw
    obtain ⟨type, ht, -⟩ := has_iff.mp (require_ok.mp htype)
    have hparameter : ∃ v, get "parameter" (orDefault "parameter" Json.isString (.str "") m) =
        some v := by
      rw [get_orDefault]
      split_ifs with hd
      · exact ⟨_, rfl⟩
      · have hhas : has m "parameter" Json.isString = true := by simpa using hd
        obtain ⟨v, hv, -⟩ := has_iff.mp hhas
        exact ⟨v, hv⟩
    obtain ⟨parameter, hp⟩ := hparameter
    refine ⟨type, parameter, read_of_find ?_, read_of_find hp⟩
    change get "type" (orDefault "parameter" Json.isString (.str "") m) = some type
    rw [get_orDefault, if_neg fun hd => absurd hd.1 (by decide), ht]
  | _ => cases hraw

theorem validateRtpCapabilities_isObject {c c' : Json} (h : validateRtpCapabilities c = .ok c') :
    c'.isObject = true := by
  obtain ⟨_, m, _, _, _, _, -, rfl, -⟩ := validateRtpCapabilities_ok h
  rfl

theorem pairing_forward {webrtc : WebRtc} {localCaps remote remote' valid valid' : Json}
    {pairs : List (ℕ × ℕ × Json × Json)} (hv : validateRtpCapabilities remote = .ok valid)
    (hv' : validateRtpCapabilities remote' = .ok valid')
    (hs : List.Forall₂ SameRead (codecsOf valid) (codecsOf valid'))
    (h : pairing webrtc localCaps remote = .ok pairs) :
    pairing webrtc localCaps remote' = .ok pairs := by
  obtain ⟨validLocal, validRemote, ms, hl, hr, hms, rfl⟩ := pairing_ok h
  cases hv.symm.trans hr
  have hobj := validateRtpCapabilities_isObject hv'
  have hlocal : ∀ l ∈ codecsOf validLocal, FeedbackOk l := fun l hmem => by
    obtain ⟨_, -, hval⟩ := mem_of_forall₂ (codecsOf_validated hl) hmem
    exact feedbackOk_validated hval
  obtain ⟨ms', hms', hsame⟩ := matchCapabilities_same hobj hs hlocal hms
  refine bind_ok.mpr ⟨validLocal, hl, bind_ok.mpr ⟨valid', hv', bind_ok.mpr ⟨ms',
    lift_ok.mpr hms', ?_⟩⟩⟩
  refine congrArg Except.ok ?_
  clear hms hms' h
  induction hsame with
  | nil => rfl
  | cons hm _ ih =>
    rw [List.map_cons, List.map_cons, ih, hm.remoteIdx, hm.localIdx,
      hm.extended.localRtxPayloadType, hm.extended.remoteRtxPayloadType]

/-- Remote capabilities of whose codecs the same is read are paired in the same way. -/
theorem pairing_same {webrtc : WebRtc} {remote remote' valid valid' : Json}
    (hv : validateRtpCapabilities remote = .ok valid)
    (hv' : validateRtpCapabilities remote' = .ok valid')
    (hs : List.Forall₂ SameRead (codecsOf valid) (codecsOf valid')) (localCaps : Json) :
    (pairing webrtc localCaps remote').toOption = (pairing webrtc localCaps remote).toOption := by
  ext pairs
  rw [toOption_eq_some, toOption_eq_some]
  constructor
  · exact pairing_forward hv' hv (hs.flip.imp fun _ _ h => SameRead.symm h)
  · exact pairing_forward hv hv' hs

/-! ### Local capabilities of one codec -/

section
variable {webrtc : WebRtc}

/-- Remote codecs that no local codec matches leave everything as it is. -/
theorem matchMediaCodecs_none {ls rs : List Json} {i : ℕ}
    (h : ∀ r ∈ rs, (∃ rtx, isRtxCodec r = .ok rtx) ∧
      findMatchingCodec webrtc ls r = .ok (none, ls, r)) :
    matchMediaCodecs webrtc ls i rs = .ok ([], ls, rs) := by
  induction rs generalizing i with
  | nil => rfl
  | cons r rs ih =>
    obtain ⟨⟨rtx, hrtx⟩, hscan⟩ := h r (List.mem_cons_self ..)
    have hrest := ih (i := i + 1) fun r hr => h r (List.mem_cons_of_mem _ hr)
    unfold matchMediaCodecs
    rw [hrtx, ok_bind]
    cases rtx with
    | true => simp only [if_true, hrest, ok_bind]; rfl
    | false =>
      simp only [Bool.false_eq_true, if_false, hscan, ok_bind, pure_bind, hrest]
      rfl

theorem extendCodec_total {a c : Json} (ha : a.isObject = true) (hc : c.isObject = true)
    (hfa : FeedbackOk a) (hfc : FeedbackOk c) : ∃ ext, extendCodec a c = .ok ext := by
  obtain ⟨fb, hfb⟩ := reduceRtcpFeedback_total hfa hfc
  unfold extendCodec
  simp only [readOrNull_of_isObject ha, readOrNull_of_isObject hc, hfb, ok_bind]
  exact ⟨_, rfl⟩

/-- A local codec that is compared without being changed is matched with every remote codec it is
    equal to. -/
theorem matchMediaCodecs_single {l : Json} {rs : List Json} {i : ℕ} (hobj : l.isObject = true)
    (hfb : FeedbackOk l)
    (h : ∀ r ∈ rs, (∃ rtx, isRtxCodec r = .ok rtx) ∧ r.isObject = true ∧ FeedbackOk r ∧
      ∃ m, matchCodecs webrtc l r true true = .ok (m, l, r)) :
    ∃ ms, matchMediaCodecs webrtc [l] i rs = .ok (ms, [l], rs) ∧
      ((∃ r ∈ rs, isRtxCodec r = .ok false ∧
        matchCodecs webrtc l r true true = .ok (true, l, r)) → ms ≠ []) := by
  induction rs generalizing i with
  | nil => exact ⟨[], rfl, fun ⟨r, hr, _⟩ => absurd hr List.not_mem_nil⟩
  | cons r rs ih =>
    obtain ⟨⟨rtx, hrtx⟩, hrobj, hrfb, m, hm⟩ := h r (List.mem_cons_self ..)
    obtain ⟨ms, hms, hne⟩ := ih (i := i + 1) fun r hr => h r (List.mem_cons_of_mem _ hr)
    unfold matchMediaCodecs
    rw [hrtx, ok_bind]
    cases rtx with
    | true =>
      simp only [if_true, hms, ok_bind]
      refine ⟨ms, rfl, fun ⟨r', hr', hno, hyes⟩ => hne ⟨r', ?_, hno, hyes⟩⟩
      rcases List.mem_cons.mp hr' with rfl | hr'
      · cases hrtx.symm.trans hno
      · exact hr'
    | false =>
      cases m with
      | true =>
        obtain ⟨ext, hext⟩ := extendCodec_total hobj hrobj hfb hrfb
        have hscan : findMatchingCodec webrtc [l] r = .ok (some 0, [l], r) := by
          unfold findMatchingCodec
          rw [hm]
          rfl
        simp only [Bool.false_eq_true, if_false, hscan, ok_bind, List.getD_cons_zero, hext,
          pure_bind, hms]
        exact ⟨_, rfl, fun _ => List.cons_ne_nil _ _⟩
      | false =>
        have hscan : findMatchingCodec webrtc [l] r = .ok (none, [l], r) := by
          unfold findMatchingCodec
          rw [hm]
          rfl
        simp only [Bool.false_eq_true, if_false, hscan, ok_bind, pure_bind, hms]
        refine ⟨ms, rfl, fun ⟨r', hr', hno, hyes⟩ => hne ⟨r', ?_, hno, hyes⟩⟩
        rcases List.mem_cons.mp hr' with rfl | hr'
        · cases hm.symm.trans hyes
        · exact hr'

/-- Codecs of different mime types do not match. -/
theorem matchCodecs_of_ne {a b : Json} {s t : String} (ha : a.find "mimeType" = some (.str s))
    (hb : b.find "mimeType" = some (.str t)) (hne : lower s ≠ lower t) :
    matchCodecs webrtc a b true true = .ok (false, a, b) := by
  have hma : Sdp.member a "mimeType" = .ok (.str s) := by rw [Sdp.member, ha]
  have hmb : Sdp.member b "mimeType" = .ok (.str t) := by rw [Sdp.member, hb]
  unfold matchCodecs
  simp only [hma, hmb, Json.toStr, ok_bind]
  rw [if_pos hne]
  rfl

/-- Outside of H264 and VP9 a comparison changes nothing, and the mime type, the clock rate and the
    channels decide. -/
theorem matchCodecs_plain {a b : Json} {s t : String} (haobj : a.isObject = true)
    (hbobj : b.isObject = true) (ha : a.find "mimeType" = some (.str s))
    (hb : b.find "mimeType" = some (.str t)) (h264 : lower s ≠ "video/h264")
    (hvp9 : lower s ≠ "video/vp9") :
    matchCodecs webrtc a b true true = .ok (decide (lower s = lower t) &&
      ((a.find "clockRate").getD .null).eqv ((b.find "clockRate").getD .null) &&
      sameChannels a b, a, b) := by
  by_cases hst : lower s = lower t
  · have hma : Sdp.member a "mimeType" = .ok (.str s) := by rw [Sdp.member, ha]
    have hmb : Sdp.member b "mimeType" = .ok (.str t) := by rw [Sdp.member, hb]
    unfold matchCodecs
    simp only [hma, hmb, Json.toStr, ok_bind, readOrNull_of_isObject haobj,
      readOrNull_of_isObject hbobj]
    rw [if_neg fun hne => hne hst]
    cases ((a.find "clockRate").getD .null).eqv ((b.find "clockRate").getD .null) with
    | false => simp; rfl
    | true =>
      cases sameChannels a b with
      | false => simp; rfl
      | true => simp [hst]; rw [if_neg (hst ▸ h264), if_neg (hst ▸ hvp9)]; rfl
  · rw [matchCodecs_of_ne ha hb hst]
    simp [hst]

/-- What validation says of the mime type and the numbers of a codec. -/
theorem validated_members {c c' : Json} (h : validateRtpCodecCapability c = .ok c') :
    c'.isObject = true ∧ (∃ s, c.find "mimeType" = some (.str s) ∧
        c'.find "mimeType" = some (.str s) ∧ isRtxCodec c' =
          .ok (decide (lower s ∈ ["audio/rtx", "video/rtx"]))) ∧
      (∃ v, c'.find "clockRate" = some v ∧ v.isNumberInteger = true) ∧
      ∀ v, c'.find "channels" = some v → v.isNumberInteger = true := by
  obtain ⟨m, kind, m', rfl, hkind, rfl, -, hrest⟩ := validateRtpCodecCapability_ok h
  obtain ⟨mimeType, hget, -⟩ := codecKind_ok hkind
  have hmime : get "mimeType" m' = some (.str mimeType) := by
    rw [hrest.others _ (by decide), get_put_of_ne _ (by decide), hget]
  obtain ⟨clockRate, hclock, hint⟩ := has_iff.mp hrest.clockRate
  refine ⟨rfl, ⟨mimeType, hget, hmime, ?_⟩, ⟨clockRate, ?_, hint⟩, fun v hv => ?_⟩
  · unfold isRtxCodec
    rw [read_of_find (show (Json.obj m').find "mimeType" = _ from hmime)]
    rfl
  · change get "clockRate" m' = some clockRate
    rw [hrest.others _ (by decide), hclock]
  · change get "channels" m' = some v at hv
    rw [hrest.channels] at hv
    unfold codecChannels at hv
    split_ifs at hv
    · rw [get_orDefault] at hv
      split_ifs at hv with hd
      · cases hv; rfl
      · obtain ⟨x, hx, hint⟩ := has_iff.mp (by simpa using hd)
        rw [hx] at hv
        cases hv
        exact hint
    · rw [get_del, if_pos rfl] at hv
      cases hv

theorem eqv_self_of_integer {v : Json} (h : v.isNumberInteger = true) : v.eqv v = true := by
  cases v with
  | int i => simp [Json.eqv]
  | uint n => simp [Json.eqv]
  | _ => cases h

/-- Nothing is paired if no local codec matches a remote one. -/
theorem pairing_none {localCaps remote validLocal valid : Json}
    (hl : validateRtpCapabilities localCaps = .ok validLocal)
    (hr : validateRtpCapabilities remote = .ok valid)
    (h : ∀ r ∈ codecsOf valid,
      findMatchingCodec webrtc (codecsOf validLocal) r = .ok (none, codecsOf validLocal, r)) :
    pairing webrtc localCaps remote = .ok [] := by
  have hrtx : ∀ r ∈ codecsOf valid, ∃ rtx, isRtxCodec r = .ok rtx := fun r hr' => by
    obtain ⟨_, -, hval⟩ := mem_of_forall₂ (codecsOf_validated hr) hr'
    obtain ⟨-, ⟨_, -, -, hrtx⟩, -⟩ := validated_members hval
    exact ⟨_, hrtx⟩
  have hfirst : matchMediaCodecs webrtc (codecsOf validLocal) 0 (codecsOf valid) =
      .ok ([], codecsOf validLocal, codecsOf valid) :=
    matchMediaCodecs_none fun r hr' => ⟨hrtx r hr', h r hr'⟩
  have hmatch : matchCapabilities webrtc validLocal valid = .ok [] :=
    bind_ok.mpr ⟨_, readOrNull_of_isObject (validateRtpCapabilities_isObject hl) "codecs",
      bind_ok.mpr ⟨_, readOrNull_of_isObject (validateRtpCapabilities_isObject hr) "codecs",
        bind_ok.mpr ⟨_, hfirst, rfl⟩⟩⟩
  exact bind_ok.mpr ⟨_, hl, bind_ok.mpr ⟨_, hr, bind_ok.mpr ⟨_, lift_ok.mpr hmatch, rfl⟩⟩⟩

/-- A local codec of a plain mime type is paired with a remote codec equal to it. -/
theorem pairing_self {c v remote valid localCaps validLocal : Json} {s : String}
    (hl : validateRtpCapabilities localCaps = .ok validLocal) (hsingle : codecsOf validLocal = [v])
    (hr : validateRtpCapabilities remote = .ok valid) (hv : validateRtpCodecCapability c = .ok v)
    (hmem : v ∈ codecsOf valid) (hs : c.find "mimeType" = some (.str s))
    (hplain : lower s ∉ ["audio/rtx", "video/rtx", "video/h264", "video/vp9"]) :
    ∃ pairs, pairing webrtc localCaps remote = .ok pairs ∧ pairs ≠ [] := by
  obtain ⟨hobj, ⟨s', hs', hmime, hrtx⟩, ⟨clockRate, hclock, hint⟩, hchannels⟩ :=
    validated_members hv
  cases hs.symm.trans hs'
  simp only [List.mem_cons, List.not_mem_nil, or_false, not_or] at hplain
  obtain ⟨hrtx₁, hrtx₂, h264, hvp9⟩ := hplain
  have hno : isRtxCodec v = .ok false := by simp [hrtx, hrtx₁, hrtx₂]
  -- the comparison with itself
  have hself : matchCodecs webrtc v v true true = .ok (true, v, v) := by
    rw [matchCodecs_plain hobj hobj hmime hmime h264 hvp9]
    have hch : sameChannels v v = true := by
      unfold sameChannels
      cases hc : v.find "channels" with
      | none => rfl
      | some x => exact eqv_self_of_integer (hchannels x hc)
    simp [hclock, eqv_self_of_integer hint, hch]
  obtain ⟨ms, hfirst, hne⟩ : ∃ ms,
      matchMediaCodecs webrtc [v] 0 (codecsOf valid) = .ok (ms, [v], codecsOf valid) ∧
        ((∃ r ∈ codecsOf valid, isRtxCodec r = .ok false ∧
          matchCodecs webrtc v r true true = .ok (true, v, r)) → ms ≠ []) :=
    matchMediaCodecs_single hobj (feedbackOk_validated hv) fun r hr' => by
      obtain ⟨raw, -, hval⟩ := mem_of_forall₂ (codecsOf_validated hr) hr'
      obtain ⟨hrobj, ⟨t, -, hrmime, hrrtx⟩, -⟩ := validated_members hval
      exact ⟨⟨_, hrrtx⟩, hrobj, feedbackOk_validated hval, _,
        matchCodecs_plain hobj hrobj hmime hrmime h264 hvp9⟩
  have hsecond : ms.mapM (fun m => do
      return { m with extended := ← matchRtxCodecs [v] (codecsOf valid) m.extended }) =
        (.ok ms : Except Fault (List Match)) := by
    have hkeep : ∀ ext, matchRtxCodecs [v] (codecsOf valid) ext = .ok ext := fun ext => by
      have hnone : findIdx (isRtxCodecOf ext.localPayloadType) [v] = .ok none := by
        unfold findIdx isRtxCodecOf
        rw [hno]
        rfl
      unfold matchRtxCodecs
      rw [hnone]
      rfl
    clear hfirst hne
    induction ms with
    | nil => rfl
    | cons m ms ih =>
      rw [List.mapM_cons, ih, hkeep]
      rfl
  have hmatch : matchCapabilities webrtc validLocal valid = .ok ms := by
    refine bind_ok.mpr ⟨_, readOrNull_of_isObject (validateRtpCapabilities_isObject hl) "codecs",
      bind_ok.mpr ⟨_, readOrNull_of_isObject (validateRtpCapabilities_isObject hr) "codecs", ?_⟩⟩
    have hcodecs : ((validLocal.find "codecs").getD .null).elems = [v] := hsingle
    rw [hcodecs]
    exact bind_ok.mpr ⟨_, hfirst, hsecond⟩
  refine ⟨_, bind_ok.mpr ⟨_, hl, bind_ok.mpr ⟨_, hr, bind_ok.mpr ⟨_, lift_ok.mpr hmatch, rfl⟩⟩⟩,
    fun hc => hne ⟨v, hmem, hno, hself⟩ (List.map_eq_nil_iff.mp hc)⟩

end
end MediasoupClient.Sdp
