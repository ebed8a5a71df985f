import MediasoupClient.Api.MediaSoupApi
import MediasoupClient.Api.TransportParameters

/-! Responses that are handled safely (mssignal/msapi.cpp).

        text ──▶ response ──▶ refused: -1
                     │
                     └──────▶ kept, as it is: an absent member is read, or the parameters are not valid

    The transport parameters of a response are not validated: `parser_transport_param` would do it, and
    nobody calls it. So whatever is kept is what the server sent. -/

namespace MediasoupClient.Api
open Lib Signaling Sdp Call

/-! ### Kept transports -/

/-- The validators accept what is kept, there is a fingerprint, and a description can be made. -/
structure JsonTransportParam.Valid (tp : JsonTransportParam) : Prop where
  iceParams : ∃ v, validateIceParameters tp.iceParams = .ok v
  iceCandidates : ∃ v, validateIceCandidates tp.iceCandidates = .ok v
  dtlsParams : ∃ v, validateDtlsParameters tp.dtlsParams = .ok v
  fingerprints : ∃ first rest, tp.dtlsParams.find "fingerprints" = some (.arr (first :: rest))
  sctpParams : ∃ v, validateSctpParameters tp.sctpParams = .ok v
  sdp : ∃ sdp, RemoteSdp.new tp.iceParams tp.iceCandidates tp.dtlsParams tp.sctpParams = .ok sdp

/-- Every transport of the list is valid. -/
def MediaSoupAPI.TransportsValid (s : MediaSoupAPI) : Prop :=
  ∀ id tp, s.transportList.byId.get id = some tp → tp.Valid

/-- The data of a transport has all that the validators want. -/
structure CreateWebRtcTransportResponse.Data.Complete
    (data : CreateWebRtcTransportResponse.Data) : Prop where
  ice : ∃ ice, data.iceParameters = some ice ∧ IceComplete ice
  candidates : ∃ candidates, data.iceCandidates = some candidates ∧
    ∀ candidate ∈ candidates, CandidateComplete candidate
  dtls : ∃ dtls, data.dtlsParameters = some dtls ∧ FingerprintsComplete dtls
  sctp : ∃ sctp, data.sctpParameters = some sctp ∧ SctpComplete sctp

/-- What is kept is valid exactly if the data was complete. -/
theorem transportParam_valid {data : CreateWebRtcTransportResponse.Data}
    {ext : Option ExtendedRtpCapabilities} {b : Bool} {tp : JsonTransportParam}
    (h : transportParam data ext b = .ok tp) : tp.Valid ↔ data.Complete := by
  obtain ⟨ice, candidates, dtls, sctp, hice, hcandidates, hdtls, hsctp, -, -, hiceParams,
    hiceCandidates, hdtlsParams, hsctpParams⟩ := transportParam_ok h
  constructor
  · intro hv
    refine ⟨⟨ice, hice, ?_⟩, ⟨candidates, hcandidates, ?_⟩, ⟨dtls, hdtls, ?_⟩, ⟨sctp, hsctp, ?_⟩⟩
    · exact (iceParameters_valid ice).mp (hiceParams ▸ hv.iceParams)
    · exact (iceCandidates_valid candidates).mp (hiceCandidates ▸ hv.iceCandidates)
    · exact (dtlsParameters_valid dtls).mp (hdtlsParams ▸ hv.dtlsParams)
    · exact (sctpParameters_valid sctp).mp (hsctpParams ▸ hv.sctpParams)
  · rintro ⟨⟨ice', hice', hiceOk⟩, ⟨candidates', hcandidates', hcandidatesOk⟩,
      ⟨dtls', hdtls', hdtlsOk⟩, ⟨sctp', hsctp', hsctpOk⟩⟩
    cases hice.symm.trans hice'
    cases hcandidates.symm.trans hcandidates'
    cases hdtls.symm.trans hdtls'
    cases hsctp.symm.trans hsctp'
    refine ⟨?_, ?_, ?_, ?_, ?_, ?_⟩
    · rw [hiceParams]
      exact (iceParameters_valid ice).mpr hiceOk
    · rw [hiceCandidates]
      exact (iceCandidates_valid candidates).mpr hcandidatesOk
    · rw [hdtlsParams]
      exact (dtlsParameters_valid dtls).mpr hdtlsOk
    · rw [hdtlsParams]
      exact fingerprints_written hdtlsOk
    · rw [hsctpParams]
      exact (sctpParameters_valid sctp).mpr hsctpOk
    · rw [hdtlsParams]
      exact remoteSdp_total hdtlsOk _ _ _

/-- Complete data is kept. -/
theorem CreateWebRtcTransportResponse.Data.Complete.kept {data : CreateWebRtcTransportResponse.Data}
    (h : data.Complete) (ext : Option ExtendedRtpCapabilities) (b : Bool) :
    ∃ tp, transportParam data ext b = .ok tp := by
  obtain ⟨⟨ice, hice, -⟩, ⟨candidates, hcandidates, -⟩, ⟨dtls, hdtls, -⟩, ⟨sctp, hsctp, -⟩⟩ := h
  exact ⟨_, bind_ok.mpr ⟨ice, deref_ok.mpr hice, bind_ok.mpr ⟨candidates, value_ok.mpr hcandidates,
    bind_ok.mpr ⟨dtls, deref_ok.mpr hdtls, bind_ok.mpr ⟨sctp, deref_ok.mpr hsctp, rfl⟩⟩⟩⟩⟩

/-- The validation that is left out would accept complete data, and no other. -/
theorem parserTransportParam_returns {data : CreateWebRtcTransportResponse.Data} :
    (∃ params, parserTransportParam data = .ok params) ↔ data.Complete := by
  constructor
  · rintro ⟨params, h⟩
    obtain ⟨tp, htp, h⟩ := bind_ok.mp h
    obtain ⟨ice, candidates, dtls, sctp, hice, hcandidates, hdtls, hsctp, -, -, hiceParams,
      hiceCandidates, hdtlsParams, hsctpParams⟩ := transportParam_ok htp
    rw [hiceParams, hiceCandidates, hdtlsParams, hsctpParams] at h
    obtain ⟨_, hiceOk, h⟩ := bind_ok.mp h
    obtain ⟨_, hcandidatesOk, h⟩ := bind_ok.mp h
    obtain ⟨_, hdtlsOk, h⟩ := bind_ok.mp h
    rw [ofValue_jserialize sctp, if_neg (show ¬(Json.obj _).isNull = true from Bool.false_ne_true)] at h
    obtain ⟨_, hsctpOk, -⟩ := bind_ok.mp h
    exact ⟨⟨ice, hice, (iceParameters_valid ice).mp ⟨_, hiceOk⟩⟩,
      ⟨candidates, hcandidates, (iceCandidates_valid candidates).mp ⟨_, hcandidatesOk⟩⟩,
      ⟨dtls, hdtls, (dtlsParameters_valid dtls).mp ⟨_, hdtlsOk⟩⟩,
      ⟨sctp, hsctp, (sctpParameters_valid sctp).mp ⟨_, hsctpOk⟩⟩⟩
  · intro h
    obtain ⟨tp, htp⟩ := h.kept none false
    obtain ⟨⟨_, hice⟩, ⟨_, hcandidates⟩, ⟨_, hdtls⟩, -, ⟨_, hsctp⟩, -⟩ :=
      (transportParam_valid htp).mpr h
    unfold parserTransportParam
    rw [htp, ok_bind, hice, ok_bind, hcandidates, ok_bind, hdtls, ok_bind]
    split_ifs
    · exact ⟨_, rfl⟩
    · exact ⟨_, bind_ok.mpr ⟨_, hsctp, rfl⟩⟩

/-! ### Capabilities of the router -/

/-- The capabilities that are needed to load those of the router. -/
structure Loadable {P : Type} [DecidableEq P] (profile : String → Option P)
    (localCaps remoteCaps : Json) : Prop
    extends Negotiable profile (codecsOf localCaps) (codecsOf remoteCaps) where
  directions : ∀ kind ∈ ["audio", "video"],
    DirectionsKnown kind (headerExtensionsOf localCaps) (headerExtensionsOf remoteCaps)
  payloadTypes : ∀ pair ∈ matchedPairs profile (codecsOf localCaps) (codecsOf remoteCaps),
    payloadTypeOf pair.2 ≠ .null

section
variable {P : Type} [DecidableEq P] {profile : String → Option P} {webrtc : WebRtc}

theorem negotiated_remoteTypes {localCaps remoteCaps : Json} {ext : ExtendedRtpCapabilities}
    (h : Negotiated profile localCaps remoteCaps ext) :
    (∀ e ∈ ext.codecs, e.remotePayloadType ≠ .null) ↔
      ∀ pair ∈ matchedPairs profile (codecsOf localCaps) (codecsOf remoteCaps),
        payloadTypeOf pair.2 ≠ .null := by
  constructor
  · intro hall pair hpair
    obtain ⟨e, he, hof, -⟩ := mem_of_forall₂ h.pairs hpair
    exact hof.remotePayloadType ▸ hall e he
  · intro hall e he
    obtain ⟨pair, hpair, hof, -⟩ := mem_of_forall₂ h.pairs.flip he
    exact hof.remotePayloadType ▸ hall pair hpair

/-- The steps of loading go through exactly for capabilities that can be loaded. -/
theorem loads_iff (hw : webrtc.Lawful profile) {native : Except Invalid Json} {router : Json} :
    Loads webrtc native router ↔ ∃ nativeCaps localCaps valid remoteCaps,
      native = .ok nativeCaps ∧ validateRtpCapabilities nativeCaps = .ok localCaps ∧
      validateRtpCapabilities router = .ok valid ∧ validateRtpCapabilities valid = .ok remoteCaps ∧
      Loadable profile localCaps remoteCaps := by
  constructor
  · rintro ⟨nativeCaps, valid, ext, recv, valid', audio, video, hvalid, hnative, hext, hrecv,
      haccepted, -⟩
    obtain ⟨localCaps, hl, hrest⟩ := bind_ok.mp hext
    obtain ⟨remoteCaps, hr, -⟩ := bind_ok.mp hrest
    have hn := getExtended_ok hw hl hr hext
    refine ⟨nativeCaps, localCaps, valid, remoteCaps, hnative, hl, hvalid, hr,
      (getExtended_returns hw hl hr).mp ⟨ext, hext⟩, ?_, ?_⟩
    · exact (hn.recv_returns (headerShape_validated hr)).mp ⟨recv, hrecv⟩
    · exact (negotiated_remoteTypes hn).mp
        ((getRecv_accepted_iff hn.codecs hn.extended hrecv).mp ⟨valid', haccepted⟩)
  · rintro ⟨nativeCaps, localCaps, valid, remoteCaps, hnative, hl, hvalid, hr, h⟩
    obtain ⟨ext, hext⟩ := (getExtended_returns hw hl hr).mpr h.toNegotiable
    have hn := getExtended_ok hw hl hr hext
    obtain ⟨recv, hrecv⟩ := (hn.recv_returns (headerShape_validated hr)).mpr h.directions
    obtain ⟨valid', haccepted⟩ := (getRecv_accepted_iff hn.codecs hn.extended hrecv).mpr
      ((negotiated_remoteTypes hn).mpr h.payloadTypes)
    exact ⟨nativeCaps, valid, ext, recv, valid', _, _, hvalid, hnative, hext, hrecv, haccepted,
      canSend_eq hn.codecs, canSend_eq hn.codecs⟩

end

/-! ### Responses -/

/-- A response that comes in, with the native capabilities at that time. -/
inductive Response where
  | routerRtpCapabilities (native : Except Invalid Json) (text : String)
  | createSendTransport (text : String)
  | createRecvTransport (text : String)
  | join (text : String)

def Response.handle (webrtc : WebRtc) (parse : String → Option Value) : Response → ApiCall ℤ
  | .routerRtpCapabilities native text => onRouterRtpCapabilitiesResponse webrtc parse native text
  | .createSendTransport text => onCreateSendTransportResponse parse text
  | .createRecvTransport text => onCreateRecvTransportResponse parse text
  | .join text => onJoinResponse parse text

/-- The data of a transport is not looked at, or it is complete. -/
def TransportAcceptable (parse : String → Option Value) (text : String) : Prop :=
  ∀ (response : CreateWebRtcTransportResponse) (err : Option JsonError),
    fromJsonString parse text = (response, err) → err.isSome = true ∨ response.ok = none ∨
      ∃ data, response.data = some data ∧ data.Complete

/-- What the responses have to be like. -/
def Response.Acceptable {P : Type} [DecidableEq P] (profile : String → Option P)
    (parse : String → Option Value) : Response → Prop
  | .routerRtpCapabilities native text =>
    ∀ (response : GetRouterRtpCapabilitiesResponse) (err : Option JsonError),
      fromJsonString parse text = (response, err) → err.isSome = true ∨
      ∃ data nativeCaps localCaps valid remoteCaps, response.data = some data ∧ native = .ok nativeCaps ∧
        validateRtpCapabilities nativeCaps = .ok localCaps ∧
        validateRtpCapabilities (ofValue (jserialize data)) = .ok valid ∧
        validateRtpCapabilities valid = .ok remoteCaps ∧ Loadable profile localCaps remoteCaps
  | .createSendTransport text => TransportAcceptable parse text
  | .createRecvTransport text => TransportAcceptable parse text
  | .join text => ∀ (response : JoinResponse) (err : Option JsonError),
    fromJsonString parse text = (response, err) → ∃ data, response.data = some data ∧
      ∀ peer ∈ data.peers.getD [], peer.device.isSome = true

/-- A response is handled safely: the handler returns, the transports are valid, and a response that
    is refused has not changed them. -/
def Response.Safe (webrtc : WebRtc) (parse : String → Option Value) (s : MediaSoupAPI)
    (r : Response) (t : MediaSoupAPI) : Prop :=
  ∃ code, r.handle webrtc parse s = .ok code t ∧ t.TransportsValid ∧
    (code < 0 → t.transportList = s.transportList)

section
variable {P : Type} [DecidableEq P] {profile : String → Option P} {webrtc : WebRtc}
variable {parse : String → Option Value} {s : MediaSoupAPI}

theorem transportsValid_of_eq {t : MediaSoupAPI} (hs : s.TransportsValid)
    (h : t.transportList = s.transportList) : t.TransportsValid := fun id tp htp =>
  hs id tp (h ▸ htp)

/-- One more transport. -/
theorem transportsValid_store {tp : JsonTransportParam} (hs : s.TransportsValid) :
    MediaSoupAPI.TransportsValid { s with transportList := s.transportList.store tp } ↔
      tp.Valid := by
  constructor
  · exact fun h => h tp.id tp (StdMap.get_insert_self _ _ _)
  · intro htp id tp' hget
    change (s.transportList.byId.insert tp.id tp).get id = some tp' at hget
    rw [StdMap.get_insert] at hget
    split_ifs at hget with hid
    · cases hget
      exact htp
    · exact hs id tp' hget

/-- A response about a transport is handled safely exactly if its data is complete, or not kept. -/
theorem transport_safe_iff (hs : s.TransportsValid) (b : Bool) (text : String) :
    (∃ t code, onCreateTransportResponse parse b text s = .ok code t ∧ t.TransportsValid ∧
      (code < 0 → t.transportList = s.transportList)) ↔ TransportAcceptable parse text := by
  cases hresp : (fromJsonString parse text : CreateWebRtcTransportResponse × _) with
  | mk response err =>
    simp only [onCreateTransport_returns hresp, TransportAcceptable, hresp, Prod.mk.injEq]
    constructor
    · rintro ⟨t, code, (⟨hrefused, -, -⟩ | ⟨-, data, tp, hdata, htp, -, rfl⟩), hvalid, -⟩ _ _ ⟨rfl, rfl⟩
      · exact hrefused.imp_right Or.inl
      · exact Or.inr (Or.inr ⟨data, hdata,
          (transportParam_valid htp).mp ((transportsValid_store hs).mp hvalid)⟩)
    · intro h
      rcases h response err ⟨rfl, rfl⟩ with herr | hok | ⟨data, hdata, hcomplete⟩
      · exact ⟨s, -1, Or.inl ⟨Or.inl herr, rfl, rfl⟩, hs, fun _ => rfl⟩
      · exact ⟨s, -1, Or.inl ⟨Or.inr hok, rfl, rfl⟩, hs, fun _ => rfl⟩
      · by_cases hrefused : err.isSome = true ∨ response.ok = none
        · exact ⟨s, -1, Or.inl ⟨hrefused, rfl, rfl⟩, hs, fun _ => rfl⟩
        · obtain ⟨tp, htp⟩ := hcomplete.kept (if b then s.extendRtpCapabilities else none) b
          rw [not_or, Option.isSome_iff_ne_none, not_not, ← ne_eq, ← Option.isSome_iff_ne_none]
            at hrefused
          refine ⟨_, 0, Or.inr ⟨hrefused, data, tp, hdata, htp, rfl, rfl⟩,
            (transportsValid_store hs).mpr ((transportParam_valid htp).mpr hcomplete), ?_⟩
          exact fun hneg => absurd hneg (by decide)

/-- The capabilities of the router are handled safely exactly if they can be loaded, or are not
    read. -/
theorem router_safe_iff (hw : webrtc.Lawful profile) (hs : s.TransportsValid)
    (native : Except Invalid Json) (text : String) :
    (∃ t, Response.Safe webrtc parse s (.routerRtpCapabilities native text) t) ↔
      (Response.routerRtpCapabilities native text).Acceptable profile parse := by
  cases hresp : (fromJsonString parse text : GetRouterRtpCapabilitiesResponse × _) with
  | mk response err =>
    simp only [Response.Safe, Response.handle, Response.Acceptable,
      onRouterRtpCapabilities_returns hresp, hresp, Prod.mk.injEq]
    constructor
    · rintro ⟨t, code, (⟨hrefused, -, -⟩ | ⟨-, data, hdata, -, hload⟩), -, -⟩ _ _ ⟨rfl, rfl⟩
      · exact Or.inl hrefused
      · obtain ⟨hloads, -⟩ := loadCapabilities_ok hload
        obtain ⟨nativeCaps, localCaps, valid, remoteCaps, hload⟩ := (loads_iff hw).mp hloads
        exact Or.inr ⟨data, nativeCaps, localCaps, valid, remoteCaps, hdata, hload⟩
    · intro h
      rcases h response err ⟨rfl, rfl⟩ with herr | ⟨data, nativeCaps, localCaps, valid, remoteCaps,
        hdata, hload⟩
      · exact ⟨s, -1, Or.inl ⟨herr, rfl, rfl⟩, hs, fun _ => rfl⟩
      · cases herr : err with
        | some e => exact ⟨s, -1, Or.inl ⟨rfl, rfl, rfl⟩, hs, fun _ => rfl⟩
        | none =>
          obtain ⟨t, ht⟩ := ((loads_iff hw).mpr ⟨nativeCaps, localCaps, valid, remoteCaps,
            hload⟩).returns s
          have hkept := (loadCapabilities_ok ht).2
          exact ⟨t, 0, Or.inr ⟨rfl, data, hdata, rfl, ht⟩, transportsValid_of_eq hs hkept,
            fun _ => hkept⟩

/-- The peers of a room are read safely exactly if the data is there, and every peer has a device. -/
theorem join_safe_iff (hs : s.TransportsValid) (text : String) :
    (∃ t, Response.Safe webrtc parse s (.join text) t) ↔
      (Response.join text).Acceptable profile parse := by
  cases hresp : (fromJsonString parse text : JoinResponse × _) with
  | mk response err =>
    simp only [Response.Safe, Response.handle, Response.Acceptable, onJoinResponse_returns hresp,
      hresp, Prod.mk.injEq]
    constructor
    · rintro ⟨t, code, ⟨data, hdata, -, hpeers⟩, -, -⟩ _ _ ⟨rfl, rfl⟩
      exact ⟨data, hdata, (forM_returns addPeer_returns _ s).mp ⟨t, hpeers⟩⟩
    · intro h
      obtain ⟨data, hdata, hdevices⟩ := h response err ⟨rfl, rfl⟩
      obtain ⟨t, ht⟩ := (forM_returns addPeer_returns _ s).mpr hdevices
      have hkept := forM_keeps addPeer_keeps _ ht
      exact ⟨t, 0, ⟨data, hdata, rfl, ht⟩, transportsValid_of_eq hs hkept, fun _ => hkept⟩

/-- One response. -/
theorem safe_iff (hw : webrtc.Lawful profile) (hs : s.TransportsValid) (r : Response) :
    (∃ t, r.Safe webrtc parse s t) ↔ r.Acceptable profile parse := by
  cases r with
  | routerRtpCapabilities native text => exact router_safe_iff hw hs native text
  | createSendTransport text => exact transport_safe_iff hs true text
  | createRecvTransport text => exact transport_safe_iff hs false text
  | join text => exact join_safe_iff hs text

end

/-- Responses that come in one after another are all handled safely. -/
def SafeRun (webrtc : WebRtc) (parse : String → Option Value) : MediaSoupAPI → List Response → Prop
  | _, [] => True
  | s, r :: rs => ∃ t, r.Safe webrtc parse s t ∧ SafeRun webrtc parse t rs

/-- CORRECT: responses are handled safely, and only valid transports are kept, exactly if every
    response is acceptable. -/
theorem responses_safe_iff {P : Type} [DecidableEq P] {profile : String → Option P}
    {webrtc : WebRtc} (hw : webrtc.Lawful profile) (parse : String → Option Value) :
    ∀ (rs : List Response) {s : MediaSoupAPI}, s.TransportsValid →
      (SafeRun webrtc parse s rs ↔ ∀ r ∈ rs, r.Acceptable profile parse)
  | [], _, _ => iff_of_true trivial fun _ h => absurd h List.not_mem_nil
  | r :: rs, s, hs => by
    rw [List.forall_mem_cons, ← safe_iff hw hs r]
    constructor
    · rintro ⟨t, hsafe, hrun⟩
      obtain ⟨_, -, ht, -⟩ := id hsafe
      exact ⟨⟨t, hsafe⟩, (responses_safe_iff hw parse rs ht).mp hrun⟩
    · rintro ⟨⟨t, hsafe⟩, hall⟩
      obtain ⟨_, -, ht, -⟩ := id hsafe
      exact ⟨t, hsafe, (responses_safe_iff hw parse rs ht).mpr hall⟩

/-! ### A response about a transport -/

/-- A response with these fingerprints, as it is parsed. -/
def transportResponse (fingerprints : List Value) : Value :=
  .object [("response", .bool true), ("id", .int 1), ("ok", .bool true), ("data", .object [
    ("id", .string "t"),
    ("iceParameters", .object [("usernameFragment", .string "ufrag"), ("password", .string "pwd")]),
    ("iceCandidates", .array []),
    ("dtlsParameters", .object [("fingerprints", .array fingerprints)]),
    ("sctpParameters", .object [("port", .int 5000), ("OS", .int 1024), ("MIS", .int 1024),
      ("maxMessageSize", .int 262144)])])]

/-- Nothing is kept in the beginning. -/
theorem transportsValid_start : MediaSoupAPI.TransportsValid {} := fun _ _ h => by cases h

theorem responses_safe_transport :
    SafeRun sampleWebRtc (fun _ => some (transportResponse [.object [
        ("algorithm", .string "sha-256"), ("value", .string "5A:7C")]])) {}
        [.createSendTransport ""] ↔
      ∀ r ∈ [Response.createSendTransport ""], r.Acceptable sampleProfile
        (fun _ => some (transportResponse [.object [
          ("algorithm", .string "sha-256"), ("value", .string "5A:7C")]])) :=
  responses_safe_iff sampleWebRtc_lawful _ _ transportsValid_start

/-- A transport without a fingerprint is kept. -/
theorem transport_without_fingerprint :
    ¬ ∀ (webrtc : WebRtc) (parse : String → Option Value) (rs : List Response),
      SafeRun webrtc parse {} rs := by
  intro h
  obtain ⟨t, hsafe, -⟩ := h sampleWebRtc (fun _ => some (transportResponse []))
    [.createSendTransport ""]
  have hacceptable : TransportAcceptable (fun _ => some (transportResponse [])) "" :=
    (transport_safe_iff transportsValid_start true "").mp ⟨t, hsafe⟩
  rcases hacceptable _ _ rfl with herr | hok | ⟨data, hdata, hcomplete⟩
  · cases herr
  · cases hok
  · cases hdata
    obtain ⟨dtls, hdtls, fingerprints, hfingerprints, hne, -⟩ := hcomplete.dtls
    cases hdtls
    cases hfingerprints
    exact hne rfl

end MediasoupClient.Api
