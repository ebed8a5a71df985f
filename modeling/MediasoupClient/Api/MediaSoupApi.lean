import MediasoupClient.Api.Responses
import MediasoupClient.Sdp.Leftover
import MediasoupClient.Sdp.Queries

/-! The calls to the server (mssignal/msapi.cpp).

        get_router_rtp_capabilities ──▶ load_capabilities         extended and receive capabilities
        create_send_transport  ──┐
        create_recv_transport  ──┴────▶ transport_list_[id]
        join                   ───────▶ peer_list_[peer id]
        connect_webrtc_transport, produce                         nothing

    A call sends its request and waits for the response, a text. What is read of it is an object whose
    members are all optional, and an error. Logging is left out. -/

namespace MediasoupClient.Api
open Lib Signaling Sdp Call

/-- `vi::peer_info`. -/
structure PeerInfo where
  roomId : String := ""
  displayName : String := ""
  peerId : String := ""
  deviceFlag : String := ""
  deviceName : String := ""
  version : String := ""

/-- The members of MediaSoupAPI. Until they are loaded, the capabilities are null. -/
structure MediaSoupAPI where
  nativeRtpCapabilities : Json := .null
  extendRtpCapabilities : Option ExtendedRtpCapabilities := none
  recvRtpCapabilities : Json := .null
  sctpCapabilities : Json := .null
  canProduce : StdMap String Bool := (StdMap.empty.insert "audio" false).insert "video" false
  loaded : Bool := false
  userInfo : Option PeerInfo := none
  peerList : StdMap String PeerInfo := .empty
  transportList : TransportList := ⟨.empty, fun _ _ h => by cases h⟩

/-- A body of a member function. -/
abbrev ApiCall := Call Invalid MediaSoupAPI

/-- `*o`, and `o->`. -/
def deref {α : Type} (o : Option α) : Except Invalid α :=
  match o with
  | some a => .ok a
  | none => .error (.fault .undefined)

/-- `o.value()`. -/
def value {α : Type} (o : Option α) : Except Invalid α :=
  match o with
  | some a => .ok a
  | none => .error (.exception "bad_optional_access")

/-- `transport_list_[tp->id] = tp`. -/
def TransportList.store (list : TransportList) (tp : JsonTransportParam) : TransportList where
  byId := list.byId.insert tp.id tp
  keyed := by
    intro id tp' h
    rw [StdMap.get_insert] at h
    split_ifs at h with hid
    · cases h
      exact hid.symm
    · exact list.keyed id tp' h

/-! ### The capabilities of the router -/

/-- `GetNativeSctpCapabilities`. -/
def nativeSctpCapabilities : Json :=
  .object [("numStreams", .object [("OS", .uint 1024), ("MIS", .uint 1024)])]

section
variable (webrtc : WebRtc) (parse : String → Option Value)

/-- `load_capabilities`, with the native capabilities that WebRTC gives. The native and the receive
    capabilities are changed in place, so what is left of them is kept before it is known whether a
    function throws. -/
def loadCapabilities (native : Except Invalid Json) (routerRtpCapabilities : Json) :
    ApiCall Unit := do
  let routerRtpCapabilities ← validateRtpCapabilities routerRtpCapabilities
  let nativeCaps ← native
  modify fun s => { s with
    nativeRtpCapabilities := localCapsLeft webrtc nativeCaps routerRtpCapabilities }
  let ext ← getExtendedRtpCapabilities webrtc nativeCaps routerRtpCapabilities
  modify fun s => { s with extendRtpCapabilities := some ext }
  let recv ← (getRecvRtpCapabilities ext : Except Invalid Json)
  modify fun s => { s with recvRtpCapabilities := whatIsLeft (capabilitiesLeft recv) }
  let recv ← validateRtpCapabilities recv
  modify fun s => { s with recvRtpCapabilities := recv, sctpCapabilities := nativeSctpCapabilities }
  let sctp ← validateSctpCapabilities nativeSctpCapabilities
  modify fun s => { s with sctpCapabilities := sctp }
  let audio ← (canSend "audio" ext : Except Invalid Bool)
  modify fun s => { s with canProduce := s.canProduce.insert "audio" audio }
  let video ← (canSend "video" ext : Except Invalid Bool)
  modify fun s => { s with canProduce := s.canProduce.insert "video" video, loaded := true }

/-- `on_router_rtp_capabilities_response`: whether it is ok is not looked at. -/
def onRouterRtpCapabilitiesResponse (native : Except Invalid Json) (resp : String) :
    ApiCall ℤ := do
  let (response, err) := (fromJsonString parse resp : GetRouterRtpCapabilitiesResponse × _)
  if err.isSome then return -1
  let data ← deref response.data
  loadCapabilities webrtc native (ofValue (jserialize data))
  return 0

/-! ### Transports -/

/-- What is kept of the data of a response. The DTLS role is set anew. -/
def transportParam (data : CreateWebRtcTransportResponse.Data)
    (extendRtpCapabilities : Option ExtendedRtpCapabilities) (bsendTransport : Bool) :
    Except Invalid JsonTransportParam := do
  let iceParameters ← deref data.iceParameters
  let iceCandidates ← value data.iceCandidates
  let dtlsParameters ← deref data.dtlsParameters
  let sctpParameters ← deref data.sctpParameters
  return {
    id := data.id.getD ""
    iceParams := ofValue (jserialize iceParameters)
    iceCandidates := .arr (iceCandidates.map fun candidate => ofValue (jserialize candidate))
    dtlsParams := ofValue (jserialize { dtlsParameters with role := some "auto" })
    sctpParams := ofValue (jserialize sctpParameters)
    extendRtpCapabilities := extendRtpCapabilities
    bsendTransport := bsendTransport
    iceWritten := ⟨iceParameters, rfl⟩ }

/-- `parser_transport_param`: the same, validated. Nobody calls it. -/
def parserTransportParam (data : CreateWebRtcTransportResponse.Data) :
    Except Invalid (Json × Json × Json × Json) := do
  let tp ← transportParam data none false
  let iceParams ← validateIceParameters tp.iceParams
  let iceCandidates ← validateIceCandidates tp.iceCandidates
  let dtlsParams ← validateDtlsParameters tp.dtlsParams
  if tp.sctpParams.isNull then return (iceParams, iceCandidates, dtlsParams, tp.sctpParams)
  return (iceParams, iceCandidates, dtlsParams, ← validateSctpParameters tp.sctpParams)

/-- What the two handlers have in common. A response is refused if it does not say whether it is
    ok. -/
def onCreateTransportResponse (bsendTransport : Bool) (resp : String) : ApiCall ℤ := do
  let (response, err) := (fromJsonString parse resp : CreateWebRtcTransportResponse × _)
  if err.isSome then return -1
  if response.ok.isNone then return -1
  let data ← deref response.data
  let s ← get
  let tp ← transportParam data (if bsendTransport then s.extendRtpCapabilities else none)
    bsendTransport
  modify fun s => { s with transportList := s.transportList.store tp }
  return 0

/-- `on_create_send_transport_response`: a send transport has the extended capabilities. -/
def onCreateSendTransportResponse (resp : String) : ApiCall ℤ :=
  onCreateTransportResponse parse true resp

/-- `on_create_recv_transport_response`. -/
def onCreateRecvTransportResponse (resp : String) : ApiCall ℤ :=
  onCreateTransportResponse parse false resp

/-- Once the capabilities are loaded, the request has the SCTP capabilities: they have to be
    accepted. -/
def createRequestSent (s : MediaSoupAPI) : Bool :=
  !s.loaded || (jdeserialize (toValue s.sctpCapabilities) :
    CreateWebRtcTransportRequest.SCTPCapabilities × _).2.isNone

/-- `create_webrtc_transport`, with the responses to its requests. -/
def createWebrtcTransport (bproduce bconsuming : Bool) (sendResp recvResp : String) :
    ApiCall ℤ := do
  if !createRequestSent (← get) then return -1
  if bproduce then
    let ret ← onCreateSendTransportResponse parse sendResp
    if ret ≠ 0 then return ret
  if bconsuming then
    let ret ← onCreateRecvTransportResponse parse recvResp
    if ret ≠ 0 then return ret
  return 0

def createSendTransport (resp : String) : ApiCall ℤ := createWebrtcTransport parse true false resp ""

def createRecvTransport (resp : String) : ApiCall ℤ := createWebrtcTransport parse false true "" resp

/-! ### The room -/

/-- A peer of the response, with the room of the user. -/
def peerInfo (userInfo : Option PeerInfo) (peer : JoinResponse.Peer) : Except Invalid PeerInfo := do
  let device ← deref peer.device
  return {
    roomId := (userInfo.map (·.roomId)).getD ""
    peerId := peer.id.getD ""
    displayName := peer.displayName.getD ""
    deviceFlag := device.flag.getD ""
    deviceName := device.name.getD ""
    version := device.version.getD "" }

def addPeer (peer : JoinResponse.Peer) : ApiCall Unit := do
  let ui ← peerInfo (← get).userInfo peer
  modify fun s => { s with peerList := s.peerList.insert ui.peerId ui }

/-- `on_join_response`: neither an error nor whether it is ok is looked at. -/
def onJoinResponse (resp : String) : ApiCall ℤ := do
  let (joinResp, _) := (fromJsonString parse resp : JoinResponse × _)
  let data ← deref joinResp.data
  (data.peers.getD []).forM addPeer
  return 0

/-- `join`: the receive capabilities are validated in place before they are sent. -/
def join (resp : String) : ApiCall ℤ := do
  let s ← get
  modify fun s => { s with recvRtpCapabilities := whatIsLeft (capabilitiesLeft s.recvRtpCapabilities) }
  let recv ← validateRtpCapabilities s.recvRtpCapabilities
  modify fun s => { s with recvRtpCapabilities := recv }
  onJoinResponse parse resp

/-! ### Requests about a transport -/

/-- `connect_webrtc_transport`: the response is waited for, and not looked at. -/
def connectWebrtcTransport (id : String) (dtlsParameters : Json) (_resp : String) : ApiCall ℤ := do
  match (← get).transportList.connectRequest id dtlsParameters with
  | none => return -1
  | some _ => return 0

/-- `MSC_CHECK_RESPONSE`: a response has to say whether it is ok. -/
def onProduceResponse (resp : String) : ApiCall ℤ := do
  let (resphdr, err) := (fromJsonString parse resp : ResponseHeader × _)
  if err.isSome then return -1
  if resphdr.ok.isNone then return -1
  return 0

/-- `produce`. -/
def produce (id _kind : String) (rtpParam : Json) (resp : String) : ApiCall ℤ := do
  match (← get).transportList.produceRequest id rtpParam with
  | none => return -1
  | some _ => onProduceResponse parse resp

end

/-! ### What a call that returns has done -/

theorem deref_ok {α : Type} {o : Option α} {a : α} : deref o = .ok a ↔ o = some a := by
  cases o <;> simp [deref]

theorem value_ok {α : Type} {o : Option α} {a : α} : value o = .ok a ↔ o = some a := by
  cases o <;> simp [value]

section
variable {webrtc : WebRtc} {parse : String → Option Value}
variable {s t : MediaSoupAPI} {code : ℤ} {resp : String}

/-- What the capabilities of the router are loaded from. -/
structure Loads (webrtc : WebRtc) (native : Except Invalid Json) (router : Json) : Prop where
  steps : ∃ nativeCaps valid ext recv valid' audio video,
    validateRtpCapabilities router = .ok valid ∧ native = .ok nativeCaps ∧
    getExtendedRtpCapabilities webrtc nativeCaps valid = .ok ext ∧
    getRecvRtpCapabilities ext = .ok recv ∧ validateRtpCapabilities recv = .ok valid' ∧
    canSend "audio" ext = .ok audio ∧ canSend "video" ext = .ok video

/-- Loading goes through step by step, and changes nothing of the transports. -/
theorem loadCapabilities_ok {native : Except Invalid Json} {router : Json} {u : Unit}
    (h : loadCapabilities webrtc native router s = .ok u t) :
    Loads webrtc native router ∧ t.transportList = s.transportList := by
  simp only [loadCapabilities, lift_bind_eq_ok, modify_bind, modify_eq_ok] at h
  obtain ⟨valid, hvalid, nativeCaps, hnative, ext, hext, recv, hrecv, valid', hvalid', sctp, -, audio,
    haudio, video, hvideo, rfl⟩ := h
  exact ⟨⟨nativeCaps, valid, ext, recv, valid', audio, video, hvalid, hnative, hext,
    lift_ok.mp hrecv, hvalid', lift_ok.mp haudio, lift_ok.mp hvideo⟩, rfl⟩

theorem Loads.returns {native : Except Invalid Json} {router : Json}
    (h : Loads webrtc native router) (s : MediaSoupAPI) :
    ∃ t, loadCapabilities webrtc native router s = .ok () t := by
  obtain ⟨nativeCaps, valid, ext, recv, valid', audio, video, hvalid, hnative, hext, hrecv, hvalid',
    haudio, hvideo⟩ := h.steps
  have hsctp : ∃ sctp, validateSctpCapabilities nativeSctpCapabilities = .ok sctp := ⟨_, rfl⟩
  obtain ⟨sctp, hsctp⟩ := hsctp
  simp only [loadCapabilities, lift_bind_eq_ok, modify_bind, modify_eq_ok]
  exact ⟨_, valid, hvalid, nativeCaps, hnative, ext, hext, recv, lift_ok.mpr hrecv, valid', hvalid',
    sctp, hsctp, audio, lift_ok.mpr haudio, video, lift_ok.mpr hvideo, rfl⟩

/-- A response is refused, or the capabilities in it are loaded. -/
theorem onRouterRtpCapabilities_returns {native : Except Invalid Json}
    {response : GetRouterRtpCapabilitiesResponse} {err : Option JsonError}
    (hresp : fromJsonString parse resp = (response, err)) :
    onRouterRtpCapabilitiesResponse webrtc parse native resp s = .ok code t ↔
      err.isSome = true ∧ code = -1 ∧ t = s ∨
      err = none ∧ ∃ data, response.data = some data ∧ code = 0 ∧
        loadCapabilities webrtc native (ofValue (jserialize data)) s = .ok () t := by
  unfold onRouterRtpCapabilitiesResponse
  simp only [hresp]
  cases err with
  | some e => simp [pure_eq_ok]
  | none =>
    simp only [Option.isSome_none, Bool.false_eq_true, if_false, lift_bind_eq_ok, deref_ok]
    simp only [bind_eq_ok, pure_eq_ok, false_and, true_and, false_or]
    constructor
    · rintro ⟨data, hdata, _, _, hload, rfl, rfl⟩
      exact ⟨data, hdata, rfl, hload⟩
    · rintro ⟨data, hdata, rfl, hload⟩
      exact ⟨data, hdata, (), t, hload, rfl, rfl⟩

theorem transportParam_ok {data : CreateWebRtcTransportResponse.Data}
    {ext : Option ExtendedRtpCapabilities} {b : Bool} {tp : JsonTransportParam}
    (h : transportParam data ext b = .ok tp) :
    ∃ ice candidates dtls sctp, data.iceParameters = some ice ∧
      data.iceCandidates = some candidates ∧ data.dtlsParameters = some dtls ∧
      data.sctpParameters = some sctp ∧ tp.id = data.id.getD "" ∧ tp.bsendTransport = b ∧
      tp.iceParams = ofValue (jserialize ice) ∧
      tp.iceCandidates = .arr (candidates.map fun candidate => ofValue (jserialize candidate)) ∧
      tp.dtlsParams = ofValue (jserialize { dtls with role := some "auto" }) ∧
      tp.sctpParams = ofValue (jserialize sctp) := by
  obtain ⟨ice, hice, h⟩ := bind_ok.mp h
  obtain ⟨candidates, hcandidates, h⟩ := bind_ok.mp h
  obtain ⟨dtls, hdtls, h⟩ := bind_ok.mp h
  obtain ⟨sctp, hsctp, h⟩ := bind_ok.mp h
  cases h
  exact ⟨ice, candidates, dtls, sctp, deref_ok.mp hice, value_ok.mp hcandidates, deref_ok.mp hdtls,
    deref_ok.mp hsctp, rfl, rfl, rfl, rfl, rfl, rfl⟩

/-- A response is refused, or the transport in it is kept. -/
theorem onCreateTransport_returns {b : Bool} {response : CreateWebRtcTransportResponse}
    {err : Option JsonError} (hresp : fromJsonString parse resp = (response, err)) :
    onCreateTransportResponse parse b resp s = .ok code t ↔
      (err.isSome = true ∨ response.ok = none) ∧ code = -1 ∧ t = s ∨
      (err = none ∧ response.ok.isSome = true) ∧ ∃ data tp, response.data = some data ∧
        transportParam data (if b then s.extendRtpCapabilities else none) b = .ok tp ∧ code = 0 ∧
        t = { s with transportList := s.transportList.store tp } := by
  unfold onCreateTransportResponse
  simp only [hresp]
  cases err with
  | some e => simp [pure_eq_ok]
  | none =>
    cases hok : response.ok with
    | none => simp [pure_eq_ok]
    | some ok =>
      simp only [Option.isSome_none, Option.isSome_some, Option.isNone_some, Bool.false_eq_true,
        if_false, lift_bind_eq_ok, get_bind, deref_ok, modify_bind, pure_eq_ok]
      constructor
      · rintro ⟨data, hdata, tp, htp, rfl, rfl⟩
        exact Or.inr ⟨⟨trivial, trivial⟩, data, tp, hdata, htp, rfl, rfl⟩
      · rintro (⟨h, -⟩ | ⟨-, data, tp, hdata, htp, rfl, rfl⟩)
        · simp at h
        · exact ⟨data, hdata, tp, htp, rfl, rfl⟩

theorem peerInfo_returns (userInfo : Option PeerInfo) (peer : JoinResponse.Peer) :
    (∃ ui, peerInfo userInfo peer = .ok ui) ↔ peer.device.isSome = true := by
  unfold peerInfo
  cases peer.device with
  | none => exact iff_of_false (fun ⟨_, h⟩ => by cases h) (by decide)
  | some device => exact iff_of_true ⟨_, rfl⟩ rfl

theorem addPeer_returns (peer : JoinResponse.Peer) (s : MediaSoupAPI) :
    (∃ t, addPeer peer s = .ok () t) ↔ peer.device.isSome = true := by
  rw [← peerInfo_returns s.userInfo peer]
  simp only [addPeer, get_bind, lift_bind_eq_ok, modify_eq_ok]
  constructor
  · rintro ⟨_, ui, hui, -⟩
    exact ⟨ui, hui⟩
  · rintro ⟨ui, hui⟩
    exact ⟨_, ui, hui, rfl⟩

theorem addPeer_keeps (peer : JoinResponse.Peer) (s t : MediaSoupAPI)
    (h : addPeer peer s = .ok () t) : t.transportList = s.transportList := by
  simp only [addPeer, get_bind, lift_bind_eq_ok, modify_eq_ok] at h
  obtain ⟨_, -, rfl⟩ := h
  rfl

/-- A response whose data is there adds its peers. -/
theorem onJoinResponse_returns {response : JoinResponse} {err : Option JsonError}
    (hresp : fromJsonString parse resp = (response, err)) :
    onJoinResponse parse resp s = .ok code t ↔ ∃ data, response.data = some data ∧ code = 0 ∧
      (data.peers.getD []).forM addPeer s = .ok () t := by
  unfold onJoinResponse
  simp only [hresp, lift_bind_eq_ok, deref_ok]
  simp only [bind_eq_ok, pure_eq_ok]
  constructor
  · rintro ⟨data, hdata, _, _, hpeers, rfl, rfl⟩
    exact ⟨data, hdata, rfl, hpeers⟩
  · rintro ⟨data, hdata, rfl, hpeers⟩
    exact ⟨data, hdata, (), t, hpeers, rfl, rfl⟩

theorem join_returns : join parse resp s = .ok code t ↔
    ∃ recv, validateRtpCapabilities s.recvRtpCapabilities = .ok recv ∧
      onJoinResponse parse resp { s with recvRtpCapabilities := recv } = .ok code t := by
  simp only [join, get_bind, modify_bind, lift_bind_eq_ok]

/-- `lbcheck_result(ret)`, and then the same code. -/
theorem checked_returns {x : ApiCall ℤ} :
    (∃ ret s', x s = .ok ret s' ∧
      (if ret = 0 then pure 0 else pure ret : ApiCall ℤ) s' = .ok code t) ↔ x s = .ok code t := by
  have hcode : ∀ ret : ℤ, (if ret = 0 then pure 0 else pure ret : ApiCall ℤ) = pure ret := by
    intro ret
    split_ifs with h
    · rw [h]
    · rfl
  simp only [hcode, pure_eq_ok]
  constructor
  · rintro ⟨_, _, hx, rfl, rfl⟩
    exact hx
  · exact fun hx => ⟨code, t, hx, rfl, rfl⟩

/-- A call that makes a transport: nothing is sent, or its response is handled. -/
theorem createSendTransport_returns : createSendTransport parse resp s = .ok code t ↔
    createRequestSent s = false ∧ code = -1 ∧ t = s ∨
      createRequestSent s = true ∧ onCreateTransportResponse parse true resp s = .ok code t := by
  simp only [createSendTransport, createWebrtcTransport, get_bind]
  cases createRequestSent s with
  | false => simp [pure_eq_ok]
  | true => simp [bind_eq_ok, onCreateSendTransportResponse, checked_returns]

theorem createRecvTransport_returns : createRecvTransport parse resp s = .ok code t ↔
    createRequestSent s = false ∧ code = -1 ∧ t = s ∨
      createRequestSent s = true ∧ onCreateTransportResponse parse false resp s = .ok code t := by
  simp only [createRecvTransport, createWebrtcTransport, get_bind]
  cases createRequestSent s with
  | false => simp [pure_eq_ok]
  | true => simp [bind_eq_ok, onCreateRecvTransportResponse, checked_returns]

theorem onProduceResponse_returns {response : ResponseHeader} {err : Option JsonError}
    (hresp : fromJsonString parse resp = (response, err)) :
    onProduceResponse parse resp s = .ok code t ↔
      (err.isSome = true ∨ response.ok = none) ∧ code = -1 ∧ t = s ∨
      (err = none ∧ response.ok.isSome = true) ∧ code = 0 ∧ t = s := by
  unfold onProduceResponse
  simp only [hresp]
  cases err with
  | some e => simp [pure_eq_ok]
  | none => cases response.ok <;> simp [pure_eq_ok]

/-- A call about a transport changes nothing. -/
theorem connect_state {id : String} {dtlsParameters : Json}
    (h : connectWebrtcTransport id dtlsParameters resp s = .ok code t) : t = s := by
  simp only [connectWebrtcTransport, get_bind] at h
  cases hreq : s.transportList.connectRequest id dtlsParameters with
  | none => rw [hreq] at h; exact (pure_eq_ok.mp h).2
  | some data => rw [hreq] at h; exact (pure_eq_ok.mp h).2

theorem produce_state {id kind : String} {rtpParam : Json}
    (h : produce parse id kind rtpParam resp s = .ok code t) : t = s := by
  simp only [produce, get_bind] at h
  cases hreq : s.transportList.produceRequest id rtpParam with
  | none => rw [hreq] at h; exact (pure_eq_ok.mp h).2
  | some rtpParameters =>
    rw [hreq] at h
    rcases (onProduceResponse_returns Prod.mk.eta.symm).mp h with ⟨-, -, ht⟩ | ⟨-, -, ht⟩
    · exact ht
    · exact ht

end
end MediasoupClient.Api
