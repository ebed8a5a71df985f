import MediasoupClient.Api.Validated

/-! Loading of the capabilities (mssignal/msapi.cpp).

        router ok?  native ──▶ extended ──▶ receive ──▶ receive ok? ──▶ sctp ──▶ can_produce, loaded
                      ✎           ✎            ✎            ✎            ✎              ✎

    The members are assigned one by one, each as soon as it is there. A step that throws leaves those
    before it assigned. -/

namespace MediasoupClient.Api
open Lib Signaling Sdp Call

/-- The capabilities of `t` are those of `s`. -/
structure MediaSoupAPI.SameCapabilities (s t : MediaSoupAPI) : Prop where
  nativeRtpCapabilities : t.nativeRtpCapabilities = s.nativeRtpCapabilities
  extendRtpCapabilities : t.extendRtpCapabilities = s.extendRtpCapabilities
  recvRtpCapabilities : t.recvRtpCapabilities = s.recvRtpCapabilities
  sctpCapabilities : t.sctpCapabilities = s.sctpCapabilities
  canProduce : t.canProduce = s.canProduce
  loaded : t.loaded = s.loaded

/-- The capabilities of `t` are those that the steps of loading give. -/
structure Loaded (webrtc : WebRtc) (native : Except Invalid Json) (router : Json)
    (t : MediaSoupAPI) : Prop where
  steps : ∃ nativeCaps valid ext recv valid' sctp audio video,
    validateRtpCapabilities router = .ok valid ∧ native = .ok nativeCaps ∧
    getExtendedRtpCapabilities webrtc nativeCaps valid = .ok ext ∧
    getRecvRtpCapabilities ext = .ok recv ∧ validateRtpCapabilities recv = .ok valid' ∧
    validateSctpCapabilities nativeSctpCapabilities = .ok sctp ∧
    canSend "audio" ext = .ok audio ∧ canSend "video" ext = .ok video ∧
    t.nativeRtpCapabilities = localCapsLeft webrtc nativeCaps valid ∧
    t.extendRtpCapabilities = some ext ∧ t.recvRtpCapabilities = valid' ∧
    t.sctpCapabilities = sctp ∧ t.canProduce.get "audio" = some audio ∧
    t.canProduce.get "video" = some video ∧ t.loaded = true

/-- Loading is atomic: from every state it loads what these capabilities give, or else leaves the
    capabilities as they are. -/
def LoadsAtomically (webrtc : WebRtc) (native : Except Invalid Json) (router : Json) : Prop :=
  ∀ s t, (loadCapabilities webrtc native router s = .ok () t → Loaded webrtc native router t) ∧
    ∀ stop, loadCapabilities webrtc native router s = .error stop t → s.SameCapabilities t

/-! ### A step that throws -/

section
variable {webrtc : WebRtc} {native : Except Invalid Json} {router : Json} {s t : MediaSoupAPI}
variable {stop : Stop Invalid}

/-- A body stops at a computation, in the state it is in, or goes on with it. -/
theorem lift_bind_eq_error {σ α β : Type} {x : Except Invalid α} {f : α → Call Invalid σ β}
    {s t : σ} {stop : Stop Invalid}
    (h : ((liftM x : Call Invalid σ α) >>= f) s = .error stop t) :
    t = s ∨ ∃ a, x = .ok a ∧ f a s = .error stop t := by
  cases x with
  | ok a => exact Or.inr ⟨a, rfl, h⟩
  | error e =>
    left
    cases e with
    | exception text => cases h; rfl
    | fault f => cases f <;> cases h <;> rfl

/-- From the native capabilities on, a load that stops has replaced them. -/
theorem loadCapabilities_error {valid nativeCaps : Json}
    (hvalid : validateRtpCapabilities router = .ok valid) (hnative : native = .ok nativeCaps)
    (h : loadCapabilities webrtc native router s = .error stop t) :
    t.nativeRtpCapabilities = localCapsLeft webrtc nativeCaps valid := by
  subst hnative
  rw [loadCapabilities, hvalid] at h
  change ((liftM (getExtendedRtpCapabilities webrtc nativeCaps valid) : ApiCall _) >>= _) _ = _ at h
  rcases lift_bind_eq_error h with rfl | ⟨ext, -, h⟩
  · rfl
  rw [modify_bind] at h
  rcases lift_bind_eq_error h with rfl | ⟨recv, -, h⟩
  · rfl
  rw [modify_bind] at h
  rcases lift_bind_eq_error h with rfl | ⟨recv', -, h⟩
  · rfl
  rw [modify_bind] at h
  rcases lift_bind_eq_error h with rfl | ⟨sctp, -, h⟩
  · rfl
  rw [modify_bind] at h
  rcases lift_bind_eq_error h with rfl | ⟨audio, -, h⟩
  · rfl
  rw [modify_bind] at h
  rcases lift_bind_eq_error h with rfl | ⟨video, -, h⟩
  · rfl
  cases h

/-- A load that stops before that has changed nothing. -/
theorem loadCapabilities_error_early
    (hearly : (∀ valid, validateRtpCapabilities router ≠ .ok valid) ∨ ∀ caps, native ≠ .ok caps)
    (h : loadCapabilities webrtc native router s = .error stop t) : t = s := by
  rcases lift_bind_eq_error h with rfl | ⟨valid, hvalid, h⟩
  · rfl
  rcases lift_bind_eq_error h with rfl | ⟨nativeCaps, hnative, -⟩
  · rfl
  rcases hearly with hrouter | hno
  · exact absurd hvalid (hrouter valid)
  · exact absurd hnative (hno nativeCaps)

theorem loadCapabilities_loaded (h : loadCapabilities webrtc native router s = .ok () t) :
    Loaded webrtc native router t := by
  simp only [loadCapabilities, lift_bind_eq_ok, modify_bind, modify_eq_ok] at h
  obtain ⟨valid, hvalid, nativeCaps, hnative, ext, hext, recv, hrecv, valid', hvalid', sctp, hsctp,
    audio, haudio, video, hvideo, rfl⟩ := h
  have hget : ∀ m : StdMap String Bool, ((m.insert "audio" audio).insert "video" video).get "audio" =
      some audio := fun m => by
    rw [StdMap.get_insert_of_ne _ _ (by decide), StdMap.get_insert_self]
  exact ⟨nativeCaps, valid, ext, recv, valid', sctp, audio, video, hvalid, hnative, hext,
    lift_ok.mp hrecv, hvalid', hsctp, lift_ok.mp haudio, lift_ok.mp hvideo, rfl, rfl, rfl, rfl,
    hget _, StdMap.get_insert_self _ _ _, rfl⟩

end

/-- CORRECT: loading is atomic exactly if it fails before the first member is assigned, or does not fail
    at all: the router's capabilities are not valid, or there are no native ones, or the native ones
    are valid too and the two can be loaded. -/
theorem loads_atomically_iff {P : Type} [DecidableEq P] {profile : String → Option P}
    {webrtc : WebRtc} (hw : webrtc.Lawful profile) (native : Except Invalid Json) (router : Json) :
    LoadsAtomically webrtc native router ↔
      (∀ valid, validateRtpCapabilities router ≠ .ok valid) ∨ (∀ caps, native ≠ .ok caps) ∨
      ∃ nativeCaps localCaps valid remoteCaps, native = .ok nativeCaps ∧
        validateRtpCapabilities nativeCaps = .ok localCaps ∧
        validateRtpCapabilities router = .ok valid ∧
        validateRtpCapabilities valid = .ok remoteCaps ∧ Loadable profile localCaps remoteCaps := by
  rw [← loads_iff hw, ← or_assoc]
  constructor
  · intro h
    by_contra hno
    obtain ⟨hlate, hloads⟩ := not_or.mp hno
    obtain ⟨hrouter, hcaps⟩ := not_or.mp hlate
    push Not at hrouter hcaps
    obtain ⟨valid, hvalid⟩ := hrouter
    obtain ⟨nativeCaps, hnative⟩ := hcaps
    -- some other native capabilities have been loaded before
    have hother : ∃ before : Json, before ≠ localCapsLeft webrtc nativeCaps valid := by
      by_cases hnull : localCapsLeft webrtc nativeCaps valid = .null
      · exact ⟨.bool true, by rw [hnull]; exact fun hc => by cases hc⟩
      · exact ⟨.null, fun hc => hnull hc.symm⟩
    obtain ⟨before, hbefore⟩ := hother
    cases hrun : loadCapabilities webrtc native router { nativeRtpCapabilities := before } with
    | ok u t => exact hloads (loadCapabilities_ok hrun).1
    | error stop t =>
      have hsame := ((h _ t).2 stop hrun).nativeRtpCapabilities
      rw [loadCapabilities_error hvalid hnative hrun] at hsame
      exact hbefore hsame.symm
  · intro h s t
    refine ⟨loadCapabilities_loaded, fun stop hrun => ?_⟩
    rcases h with hearly | hloads
    · rw [loadCapabilities_error_early hearly hrun]
      exact ⟨rfl, rfl, rfl, rfl, rfl, rfl⟩
    · obtain ⟨t', hok⟩ := hloads.returns s
      rw [hok] at hrun
      cases hrun

theorem loads_atomically_vp8 :
    LoadsAtomically sampleWebRtc (.ok (vp8Capabilities "sendrecv")) (vp8Capabilities "sendrecv") ↔
      (∀ valid, validateRtpCapabilities (vp8Capabilities "sendrecv") ≠ .ok valid) ∨
      (∀ caps, (Except.ok (vp8Capabilities "sendrecv") : Except Invalid Json) ≠ .ok caps) ∨
      ∃ nativeCaps localCaps valid remoteCaps,
        (Except.ok (vp8Capabilities "sendrecv") : Except Invalid Json) = .ok nativeCaps ∧
        validateRtpCapabilities nativeCaps = .ok localCaps ∧
        validateRtpCapabilities (vp8Capabilities "sendrecv") = .ok valid ∧
        validateRtpCapabilities valid = .ok remoteCaps ∧
        Loadable sampleProfile localCaps remoteCaps :=
  loads_atomically_iff sampleWebRtc_lawful _ _

/-- Capabilities with one codec, without a payload type. -/
def untypedCapabilities : Json :=
  .object [("codecs", .arr [.object [("mimeType", .str "video/VP8"), ("clockRate", .uint 90000)]])]

/-- If the receive capabilities are not accepted, the extended ones have been replaced. -/
theorem extended_before_receive : ¬ ∀ (webrtc : WebRtc) (native : Except Invalid Json) (router : Json),
    LoadsAtomically webrtc native router := by
  intro h
  have hatomic := h sampleWebRtc (.ok (vp8Capabilities "sendrecv")) untypedCapabilities {}
  cases hrun : loadCapabilities sampleWebRtc (.ok (vp8Capabilities "sendrecv")) untypedCapabilities {}
  with
  | ok u t => cases hrun
  | error stop t =>
    have hsame := ((hatomic t).2 stop hrun).extendRtpCapabilities
    cases hrun
    cases hsame

end MediasoupClient.Api
