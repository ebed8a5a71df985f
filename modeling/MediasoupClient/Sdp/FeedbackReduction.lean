import MediasoupClient.Sdp.HeaderExtensions

/-! Which congestion control is used (sdputil/jsonvalidate.cpp).

        header extension of the result        feedback that is left out
        transport-wide-cc                     goog-remb
        abs-send-time, and not the first      transport-cc
        neither                               both

    Each codec keeps the rest of its feedback, in its order. -/

namespace MediasoupClient.Sdp
open Lib

/-! ### What is to be kept -/

/-- The feedback of a codec. -/
def rtcpFeedbackOf (codec : Json) : List Json := ((codec.find "rtcpFeedback").getD .null).elems

/-- The text of the type of a feedback. -/
def feedbackType (fb : Json) : Option String := (fb.find "type").bind fun type => type.toStr.toOption

/-- One of the header extensions has this uri. -/
def hasExtension (uri : String) (headerExtensions : List Json) : Bool :=
  headerExtensions.any fun ext => ((ext.find "uri").bind fun u => u.toStr.toOption) = some uri

/-- The feedback without what is not used. -/
def reducedFeedback (headerExtensions feedback : List Json) : List Json :=
  if hasExtension "http://www.ietf.org/id/draft-holmer-rmcat-transport-wide-cc-extensions-01"
      headerExtensions then
    feedback.filter fun fb => feedbackType fb ≠ some "goog-remb"
  else if hasExtension "http://www.webrtc.org/experiments/rtp-hdrext/abs-send-time"
      headerExtensions then
    feedback.filter fun fb => feedbackType fb ≠ some "transport-cc"
  else feedback.filter fun fb =>
    feedbackType fb ≠ some "transport-cc" ∧ feedbackType fb ≠ some "goog-remb"

/-- The parameters are made, and the feedback of every codec is reduced as their header extensions
    say. -/
def FeedbackReduced (kind : String) (ext : ExtendedRtpCapabilities) : Prop :=
  ∃ codecs params, ext.codecs.mapM (sendingRemoteCodecs kind) = .ok codecs ∧
    getSendingRemoteRtpParameters kind ext = .ok params ∧
    List.Forall₂ (fun before after => SameButFeedback before after ∧ rtcpFeedbackOf after =
      reducedFeedback (headerExtensionsOf params) (rtcpFeedbackOf before))
        codecs.flatten (codecsOf params)

/-! ### What is kept -/

theorem feedbackType_eq {fb : Json} (h : FeedbackText fb) :
    ∃ s, fb.readOrNull "type" = .ok (.str s) ∧ feedbackType fb = some s := by
  obtain ⟨m, rfl, htype, -⟩ := h
  obtain ⟨type, ht, hs⟩ := has_iff.mp htype
  cases type with
  | str s =>
    refine ⟨s, ?_, ?_⟩
    · change Except.ok ((Lib.get "type" m).getD .null) = _
      rw [ht]
      rfl
    · change ((Lib.get "type" m).bind _) = _
      rw [ht]
      rfl
  | _ => cases hs

/-- The feedback of a sent codec is filtered by its types. -/
theorem withoutFeedback_eq {c : Json} (h : FeedbackListed c) (types : List String) :
    ∃ c', withoutFeedback types c = .ok c' ∧ SameButFeedback c c' ∧ rtcpFeedbackOf c' =
      (rtcpFeedbackOf c).filter fun fb => (feedbackType fb).all (· ∉ types) := by
  obtain ⟨c', hc', hsame⟩ := withoutFeedback_total h types
  refine ⟨c', hc', hsame, ?_⟩
  obtain ⟨hobj, feedback, hfb, hall⟩ := h
  have hfilter := filterM_eq
    (p := fun fb => do return decide ((← (← fb.readOrNull "type").toStr) ∉ types))
    (q := fun fb => (feedbackType fb).all (· ∉ types)) fun fb hmem => by
      obtain ⟨s, hread, htype⟩ := feedbackType_eq (hall fb hmem)
      rw [hread, htype]
      rfl
  have hread : c.readOrNull "rtcpFeedback" = .ok (.arr feedback) := by
    rw [readOrNull_of_isObject hobj, hfb]
    rfl
  obtain ⟨v, hv, hc'⟩ := bind_ok.mp hc'
  obtain ⟨kept, hkept, hc'⟩ := bind_ok.mp hc'
  cases hread.symm.trans hv
  cases hfilter.symm.trans hkept
  rw [rtcpFeedbackOf, Json.find_write hc', if_pos rfl, rtcpFeedbackOf, hfb]
  rfl

/-- Header extensions whose uris are texts. -/
theorem hasUri_eq (uri : String) {exts : List Json}
    (h : ∀ x ∈ exts, ∃ u, x.isObject = true ∧ x.find "uri" = some (.str u)) :
    hasUri uri exts = .ok (hasExtension uri exts) := by
  have htest : ∀ x ∈ exts,
      (do return decide ((← (← x.readOrNull "uri").toStr) = uri) : Except Fault Bool) =
        .ok (decide (((x.find "uri").bind fun u => u.toStr.toOption) = some uri)) := by
    intro x hx
    obtain ⟨u, hobj, hu⟩ := h x hx
    rw [readOrNull_of_isObject hobj, hu]
    change Except.ok (decide (u = uri)) = .ok (decide (some u = some uri))
    rw [decide_eq_decide.mpr Option.some_inj]
  unfold hasUri
  rw [findIdx_eq htest, ok_bind, List.findIdx?_isSome]
  rfl

/-- The types that are left out are those that are not used. -/
theorem reducedFeedback_eq {exts : List Json}
    (h : ∀ x ∈ exts, ∃ u, x.isObject = true ∧ x.find "uri" = some (.str u)) :
    ∃ types, unusedFeedback exts = .ok types ∧ ∀ feedback, reducedFeedback exts feedback =
      feedback.filter fun fb => (feedbackType fb).all (· ∉ types) := by
  have hall : ∀ (types : List String) (used : Json → Bool), (∀ fb,
      used fb = (feedbackType fb).all (· ∉ types)) → ∀ feedback : List Json,
        feedback.filter used = feedback.filter fun fb => (feedbackType fb).all (· ∉ types) :=
    fun types used heq feedback => by rw [funext heq]
  unfold unusedFeedback reducedFeedback
  rw [hasUri_eq _ h, hasUri_eq _ h, ok_bind, ok_bind]
  split_ifs
  · refine ⟨_, rfl, hall ["goog-remb"] _ fun fb => ?_⟩
    cases feedbackType fb <;> simp
  · refine ⟨_, rfl, hall ["transport-cc"] _ fun fb => ?_⟩
    cases feedbackType fb <;> simp
  · refine ⟨_, rfl, hall ["transport-cc", "goog-remb"] _ fun fb => ?_⟩
    cases feedbackType fb <;> simp

/-! ### The remote sending parameters -/

section
variable {P : Type} [DecidableEq P] {profile : String → Option P} {webrtc : WebRtc}
variable {localCaps remoteCaps validLocal validRemote : Json} {ext : ExtendedRtpCapabilities}

/-- If the header extensions are made, the feedback is reduced. -/
theorem feedback_reduced {kind : String} {outs : List (List Json)}
    (hcodecs : ∀ e ∈ ext.codecs, ExtendedShape e)
    (hexts : ∀ e ∈ ext.headerExtensions, HeaderExtended e)
    (houts : ext.headerExtensions.mapM (sendingExtension kind) = .ok outs) :
    FeedbackReduced kind ext := by
  obtain ⟨codecs, hmade⟩ := mapM_total (f := sendingRemoteCodecs kind) fun e he => by
    obtain ⟨out, hout, -⟩ := answeredCodecs_total (hcodecs e he) kind
    exact ⟨out, (sendingRemoteCodecs_eq (hcodecs e he) kind).trans hout⟩
  have hlisted : ∀ c ∈ codecs.flatten, FeedbackListed c := fun c hc => by
    obtain ⟨out, hout, hc⟩ := List.mem_flatten.mp hc
    obtain ⟨e, he, heout⟩ := mem_of_forall₂ (mapM_ok hmade) hout
    obtain ⟨out', hout', hall, -⟩ := answeredCodecs_total (hcodecs e he) kind
    rw [sendingRemoteCodecs_eq (hcodecs e he)] at heout
    cases hout'.symm.trans heout
    exact hall c hc
  have huris : ∀ x ∈ outs.flatten, ∃ u, x.isObject = true ∧ x.find "uri" = some (.str u) :=
    fun x hx => by
      obtain ⟨out, hout, hx⟩ := List.mem_flatten.mp hx
      obtain ⟨e, he, heout⟩ := mem_of_forall₂ (mapM_ok houts) hout
      exact sendingExtension_uri (hexts e he) heout x hx
  obtain ⟨types, htypes, hreduced⟩ := reducedFeedback_eq huris
  obtain ⟨codecs', hfiltered⟩ := mapM_total (f := withoutFeedback types) fun c hc => by
    obtain ⟨c', hc', -⟩ := withoutFeedback_eq (hlisted c hc) types
    exact ⟨c', hc'⟩
  refine ⟨codecs, _, hmade, bind_ok.mpr ⟨codecs, hmade, bind_ok.mpr ⟨outs, houts,
    bind_ok.mpr ⟨types, htypes, bind_ok.mpr ⟨codecs', hfiltered, rfl⟩⟩⟩⟩, ?_⟩
  rw [headerExtensionsOf_params]
  have hpairs : List.Forall₂ (fun before after => SameButFeedback before after ∧
      rtcpFeedbackOf after = reducedFeedback outs.flatten (rtcpFeedbackOf before))
      codecs.flatten codecs' :=
    ((List.forall₂_and_left _ _).mpr ⟨hlisted, mapM_ok hfiltered⟩).imp fun c c' hc => by
      obtain ⟨c'', hc'', hsame, hfeedback⟩ := withoutFeedback_eq hc.1 types
      cases hc''.symm.trans hc.2
      exact ⟨hsame, hfeedback.trans (hreduced _).symm⟩
  simpa [codecsOf, Json.object, Json.find, get_put, Json.elems] using hpairs

/-- CORRECT: the feedback is reduced as the header extensions say exactly if the matched ones of the
    kind have one of the four directions. -/
theorem feedback_reduced_iff (hw : webrtc.Lawful profile)
    (hl : validateRtpCapabilities localCaps = .ok validLocal)
    (hr : validateRtpCapabilities remoteCaps = .ok validRemote)
    (h : getExtendedRtpCapabilities webrtc localCaps remoteCaps = .ok ext) (kind : String) :
    FeedbackReduced kind ext ↔
      DirectionsKnown kind (headerExtensionsOf validLocal) (headerExtensionsOf validRemote) := by
  have hn := getExtended_ok hw hl hr h
  have hheaders := headerShape_validated hr
  constructor
  · rintro ⟨_, params, -, hparams, -⟩
    exact (hn.sendingRemote_returns hheaders kind).mp ⟨params, hparams⟩
  · intro hknown
    obtain ⟨outs, houts⟩ := (sendingExtensions_returns hn.extended).mpr
      ((hn.haveDirections_iff hheaders kind).mpr hknown)
    exact feedback_reduced hn.codecs hn.extended houts

end

/-- Next to transport-wide-cc each goog-remb of the two codecs goes, and the rest stays. -/
theorem feedback_reduced_video : ∃ validLocal validRemote ext params,
    validateRtpCapabilities (vp8Vp9Capabilities 96 "sendrecv") = .ok validLocal ∧
      validateRtpCapabilities (vp8Vp9Capabilities 101 "sendrecv") = .ok validRemote ∧
      getExtendedRtpCapabilities sampleWebRtc (vp8Vp9Capabilities 96 "sendrecv")
        (vp8Vp9Capabilities 101 "sendrecv") = .ok ext ∧
      (ext.codecs.map fun e => e.rtcpFeedback.elems.map feedbackType) =
        [[some "goog-remb", some "goog-remb", some "transport-cc", some "nack", some "goog-remb"],
          [some "transport-cc", some "goog-remb", some "goog-remb"]] ∧
      getSendingRemoteRtpParameters "video" ext = .ok params ∧
      ((codecsOf params).map fun c => (rtcpFeedbackOf c).map feedbackType) =
        [[some "transport-cc", some "nack"], [], [some "transport-cc"], []] ∧
      FeedbackReduced "video" ext := by
  obtain ⟨validLocal, hl, -⟩ := exists_of_map (fun _ => ())
    (show (validateRtpCapabilities (vp8Vp9Capabilities 96 "sendrecv")).toOption.map _ = some () from rfl)
  obtain ⟨validRemote, hr, hdirs⟩ := exists_of_map (fun caps => (headerExtensionsOf caps).map directionOf)
    (show (validateRtpCapabilities (vp8Vp9Capabilities 101 "sendrecv")).toOption.map _ =
      some ["sendrecv", "sendrecv"] from rfl)
  obtain ⟨ext, h, hrun⟩ := exists_of_map (fun ext =>
      (ext.codecs.map fun e => e.rtcpFeedback.elems.map feedbackType,
        (getSendingRemoteRtpParameters "video" ext).toOption.map fun params =>
          (codecsOf params).map fun c => (rtcpFeedbackOf c).map feedbackType))
    (show (getExtendedRtpCapabilities sampleWebRtc (vp8Vp9Capabilities 96 "sendrecv")
      (vp8Vp9Capabilities 101 "sendrecv")).toOption.map _ =
      some ([[some "goog-remb", some "goog-remb", some "transport-cc", some "nack", some "goog-remb"],
          [some "transport-cc", some "goog-remb", some "goog-remb"]],
        some [[some "transport-cc", some "nack"], [], [some "transport-cc"], []]) from rfl)
  obtain ⟨hbefore, hmade⟩ := Prod.mk.inj hrun
  obtain ⟨params, hparams, hafter⟩ := exists_of_map _ hmade
  refine ⟨validLocal, validRemote, ext, params, hl, hr, h, hbefore, hparams, hafter, ?_⟩
  refine (feedback_reduced_iff sampleWebRtc_lawful hl hr h "video").mpr fun r hmem _ _ => ?_
  exact directions_of_map hdirs (by decide) r hmem

/-- A header extension of a fifth direction stops the parameters from being made. -/
theorem feedback_not_reduced :
    ¬ ∀ (webrtc : WebRtc) (localCaps remoteCaps : Json) (ext : ExtendedRtpCapabilities) (kind : String),
      getExtendedRtpCapabilities webrtc localCaps remoteCaps = .ok ext → FeedbackReduced kind ext := by
  intro h
  obtain ⟨ext, hext, hmade⟩ := exists_of_map
    (fun ext => (getSendingRemoteRtpParameters "video" ext).toOption.isNone)
    (show (getExtendedRtpCapabilities sampleWebRtc (vp8Capabilities "sendrecv")
      (vp8Capabilities "both")).toOption.map _ = some true from rfl)
  obtain ⟨_, params, -, hparams, -⟩ := h _ _ _ ext "video" hext
  rw [hparams] at hmade
  cases hmade

end MediasoupClient.Sdp
