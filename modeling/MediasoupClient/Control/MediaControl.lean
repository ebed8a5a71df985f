import MediasoupClient.Api.Produce
import MediasoupClient.Api.Transports
import MediasoupClient.Control.Consumer
import MediasoupClient.Lib.Call
import MediasoupClient.Lib.Lts
import MediasoupClient.Sdp.SdpUtil

/-! Publishing and subscribing (peerconnection/media_control.cpp).

        publish      new peer connection ──▶ enable_audio ──▶ enable_video
                          connect (audio only)  │     one section of remote_sdp_ each
                                                ▼
                     produce, answer printed from remote_sdp_

        newConsumer  consumer_list_[peer][kind] = request
        subscribe    new peer connection and remote description ──▶ one section per stored request

    `remote_sdp_` outlives the peer connections that its sections were made for. What WebRTC does is
    given with each call: the descriptions it makes, and whether it throws. A peer connection has
    one section for each transceiver, in the order in which they were added. -/

namespace MediasoupClient.Control
open Lib Signaling Sdp Api Call

/-- `vi::PublishStreamType`, in its order. -/
inductive PublishStreamType where
  | PublishMainStream
  | publishScreenStream
  deriving DecidableEq, Repr

def PublishStreamType.value : PublishStreamType → ℕ
  | .PublishMainStream => 0
  | .publishScreenStream => 1

/-- What is followed of a peer connection: the kinds of its transceivers, and its remote
    description. -/
structure PeerConnection where
  transceivers : List String := []
  remoteDescription : Option SdpObject := none

/-- What is seen of a call, in order. -/
inductive Event where
  /-- A request is sent. -/
  | connectWebRtcTransport (data : ConnectWebRtcTransportRequest.Data)
  | produce (transportId kind : String) (rtpParameters : ProduceRequest.RTPParameters)
  /-- `localSdpObject["media"][idx]`, when the section of the transceiver added last is at `own`. -/
  | localMedia (idx own : ℕ)
  /-- An answer of that many sections, to an offer of that many. -/
  | answer (sections offered : ℕ)
  /-- `send_base_response`. -/
  | response (id : ℤ) (ok : Bool)

/-! ### The settings of a video track -/

/-- `webrtc::RtpEncodingParameters`; the type of the priority is WebRTC's own. -/
structure RtpEncodingParameters where
  rid : String
  active : Bool := true
  maxBitrateBps : Option ℤ := none
  maxFramerate : Option Json := none
  scaleResolutionDownBy : Option ℚ := none
  scalabilityMode : Option String := none
  networkPriority : Json

/-- `fillJsonRtpEncodingParameters`. -/
def RtpEncodingParameters.toJson (encoding : RtpEncodingParameters) : Json :=
  Json.object ([("active", .bool encoding.active)] ++
    (if encoding.rid = "" then [] else [("rid", .str encoding.rid)]) ++
    (encoding.maxBitrateBps.toList.map fun bps => ("maxBitrate", .int bps)) ++
    (encoding.maxFramerate.toList.map fun rate => ("maxFramerate", rate)) ++
    (encoding.scaleResolutionDownBy.toList.map fun q => ("scaleResolutionDownBy", .float q)) ++
    (encoding.scalabilityMode.toList.map fun mode => ("scalabilityMode", .str mode)) ++
    [("networkPriority", encoding.networkPriority)])

/-- More than one encoding: the code for a single one is not reached. -/
structure Encodings where
  list : List RtpEncodingParameters
  several : 1 < list.length

/-- `configVideoEncodings`. -/
def configVideoEncodings (networkPriority : Json) : Encodings where
  list := [
    { rid := "h", maxBitrateBps := some 1300000, scaleResolutionDownBy := some 1,
      scalabilityMode := some "L1T3", networkPriority := networkPriority },
    { rid := "m", maxBitrateBps := some 500000, scaleResolutionDownBy := some 2,
      scalabilityMode := some "L1T3", networkPriority := networkPriority },
    { rid := "l", maxBitrateBps := some 150000, scaleResolutionDownBy := some 4,
      scalabilityMode := some "L1T3", networkPriority := networkPriority }]
  several := by simp

/-- The rids are numbered anew: r0, r1, ... -/
def Encodings.numbered (encodings : Encodings) : Encodings where
  list := encodings.list.mapIdx fun idx encoding => { encoding with rid := "r" ++ toString idx }
  several := by rw [List.length_mapIdx]; exact encodings.several

/-! ### The object -/

/-- The members of MediaControl, with those of its MediaSoupAPI that are used: `transport_list_` and
    the keys of `peer_list_`. -/
structure MediaControl where
  transportList : TransportList
  peerList : StdMap String Unit
  encodings : Encodings
  remoteSdp : Option RemoteSdp := none
  publishPcs : StdMap ℕ PeerConnection := .empty
  subPcs : StdMap String PeerConnection := .empty
  consumerList : StdMap String (StdMap String NewConsumerRequest) := .empty
  events : List Event := []

/-- A call under way: the object, and the peer connection the call has made. -/
structure Session extends MediaControl where
  pc : PeerConnection := {}

/-- A body of a member function that works on a peer connection. -/
abbrev Body := Call Invalid Session

/-- A call on a local description. -/
def ofOutcome {σ τ : Type} : Outcome Fault τ → Call Invalid σ τ
  | .returned t => pure t
  | .threw e _ => throw (.threw (.fault e))
  | .undefined => throw .undefined

def say (event : Event) : Body Unit := modify fun s => { s with events := s.events ++ [event] }

/-! ### What publishing a track is made of -/

/-- What WebRTC does while a track is published. The offer and the local description are parsed
    already; of the latter the sections are given by their positions. -/
structure Negotiation where
  track : Bool
  transceiver : Bool
  offer : Except Invalid Json
  setLocalDescription : Except Invalid Unit
  mid : Option String
  localDescription : Except Invalid (ℕ → Json)
  setRemoteDescription : Except Invalid Unit

/-- `transceiver->mid().value()`. -/
def Negotiation.midValue (env : Negotiation) : Except Invalid String :=
  match env.mid with
  | some mid => .ok mid
  | none => .error (.exception "bad_optional_access")

def addTransceiver (kind : String) : Body Unit :=
  modify fun s => { s with pc := { s.pc with transceivers := s.pc.transceivers ++ [kind] } }

/-- `get_send_transport_param()`, or -1. -/
def sendTransport : Body JsonTransportParam := do
  check (-1) (← get).transportList.getSendTransportParam

/-- `extendedRtpCapabilities["codecs"]` throws when there are none. -/
def extended (tp : JsonTransportParam) : Except Fault ExtendedRtpCapabilities :=
  match tp.extendRtpCapabilities with
  | some ext => .ok ext
  | none => .error (.typeError 305)

/-- `remote_sdp_`, made from the transport when there is none yet. -/
def MediaControl.sdpFor (s : MediaControl) (tp : JsonTransportParam) : Except Fault RemoteSdp :=
  match s.remoteSdp with
  | some sdp => .ok sdp
  | none => RemoteSdp.new tp.iceParams tp.iceCandidates tp.dtlsParams tp.sctpParams

def openRemoteSdp (tp : JsonTransportParam) : Body Unit := do
  let sdp ← (← get).sdpFor tp
  modify fun s => { s with remoteSdp := some sdp }

/-- `*remote_sdp_`. -/
def remoteSdpValue : Body RemoteSdp := do
  match (← get).remoteSdp with
  | some sdp => pure sdp
  | none => throw .undefined

def nextMediaSectionIdx : Body MediaSectionIdx := do
  (← remoteSdpValue).getNextMediaSectionIdx

/-- A call on `remote_sdp_`. It keeps what was done to it when it throws. -/
def onRemoteSdp (f : RemoteSdp → Outcome Fault RemoteSdp) : Body Unit := do
  match f (← remoteSdpValue) with
  | .returned sdp => modify fun s => { s with remoteSdp := some sdp }
  | .threw e sdp => do
    modify fun s => { s with remoteSdp := some sdp }
    throw (.threw (.fault e))
  | .undefined => throw .undefined

/-- The client is the server of the DTLS handshake, unless the transport has a fixed role. -/
def localDtlsRole (dtlsParams : Json) : Except Fault String := do
  match dtlsParams.find "role" with
  | none => return "server"
  | some role =>
    let role ← role.toStr
    if role = "auto" then return "server"
    else if role = "server" then return "client"
    else return "server"

def remoteDtlsRole (localDtlsRole : String) : String :=
  if localDtlsRole = "client" then "server" else "client"

/-- `connect_webrtc_transport`. -/
def connectWebrtcTransport (id : String) (dtlsParameters : Json) : Body ℤ := do
  match (← get).transportList.connectRequest id dtlsParameters with
  | none => return -1
  | some data => do
    say (.connectWebRtcTransport data)
    return 0

/-- `produce`. Its code is not looked at. -/
def produce (id kind : String) (rtpParam : Json) : Body Unit := do
  match (← get).transportList.produceRequest id rtpParam with
  | none => pure ()
  | some rtpParameters => say (.produce id kind rtpParameters)

/-- `localSdpObject["media"][idx]`: an array that is too short is filled up with null. -/
def localMedia (sections : ℕ → Json) (idx : ℕ) : Body Json := do
  let transceivers := (← get).pc.transceivers
  say (.localMedia idx (transceivers.length - 1))
  return ((List.range transceivers.length).map sections).getD idx .null

/-- From `Send` on: the section is added, its parameters are produced, and the answer is printed. -/
def answerOffer (env : Negotiation) (tp : JsonTransportParam) (kind : String)
    (offerMediaObject : Json) (reuseMid : String) (rtpParam remoteRtpParam codecOptions : Json) :
    Body Unit := do
  let sdp ← remoteSdpValue
  onRemoteSdp (·.send offerMediaObject reuseMid rtpParam remoteRtpParam (some codecOptions))
  let rtpParam ← validSendRtpParam sdp offerMediaObject rtpParam remoteRtpParam (some codecOptions)
  produce tp.id kind rtpParam
  onRemoteSdp (·.getSdp)
  let answer := (← remoteSdpValue).sdpObject
  say (.answer answer.media.length (← get).pc.transceivers.length)
  modify fun s => { s with pc := { s.pc with remoteDescription := some answer } }
  env.setRemoteDescription

/-! ### The two kinds of tracks -/

/-- `enable_audio`. -/
def enableAudio (env : Negotiation) (enable : Bool) : Body ℤ := do
  ensure (-1) enable
  ensure (-1) env.track
  ensure (-1) env.transceiver
  addTransceiver "audio"
  let tp ← sendTransport
  let dtlsParameters ← extractDtlsParameters (← env.offer)
  openRemoteSdp tp
  let msidx ← nextMediaSectionIdx
  let role ← localDtlsRole tp.dtlsParams
  let dtlsParameters ← dtlsParameters.write "role" (.str role)
  let ret ← connectWebrtcTransport tp.id dtlsParameters
  ensure ret (decide (ret = 0))
  onRemoteSdp (·.updateDtlsRole (remoteDtlsRole role))
  let ext ← extended tp
  let rtpParam ← reducedCodecs (← getSendingRtpParameters "audio" ext)
  let remoteRtpParam ← reducedCodecs (← getSendingRemoteRtpParameters "audio" ext)
  env.setLocalDescription
  let localId ← env.midValue
  let offerMediaObject ← localMedia (← env.localDescription) msidx.idx
  let cname ← getCname offerMediaObject
  let encodings ← getRtpEncodings offerMediaObject
  let rtpParam ← completeRtpParam rtpParam localId cname encodings
  answerOffer env tp "audio" offerMediaObject msidx.reuseMid rtpParam remoteRtpParam opusSettings
  return 0

/-- `send_rtp_param["codecs"][0]["mimeType"]`, as a string. -/
def firstMimeType (rtpParam : Json) : Except Fault String := do
  let codecs ← rtpParam.readOrNull "codecs"
  (← (codecs.elems.getD 0 .null).readOrNull "mimeType").toStr

/-- The video settings. -/
def videoSettings : Json := .object [("videoGoogleStartBitrate", .int 1000)]

/-- `enable_video`, enabled: it does not connect the transport. -/
def enableVideo (env : Negotiation) : Body ℤ := do
  ensure (-1) env.track
  modify fun s => { s with encodings := s.encodings.numbered }
  ensure (-1) env.transceiver
  addTransceiver "video"
  let tp ← sendTransport
  let offer ← env.offer
  openRemoteSdp tp
  let msidx ← nextMediaSectionIdx
  let role ← localDtlsRole tp.dtlsParams
  let _ ← extractDtlsParameters offer
  let ext ← extended tp
  let rtpParam ← getSendingRtpParameters "video" ext
  onRemoteSdp (·.updateDtlsRole (remoteDtlsRole role))
  let rtpParam ← reducedCodecs rtpParam
  let remoteRtpParam ← reducedCodecs (← getSendingRemoteRtpParameters "video" ext)
  env.setLocalDescription
  let localId ← env.midValue
  let sections ← env.localDescription
  let _ ← firstMimeType rtpParam
  let offerMediaObject ← localMedia sections msidx.idx
  let cname ← getCname offerMediaObject
  -- several encodings are given to the server as they are
  let encodings := (← get).encodings.list.map (·.toJson)
  let rtpParam ← completeRtpParam rtpParam localId cname encodings
  answerOffer env tp "video" offerMediaObject msidx.reuseMid rtpParam remoteRtpParam videoSettings
  return 0

/-! ### Subscribing -/

/-- What WebRTC does with the offer of a consumer. -/
structure Answering where
  setRemoteDescription : Except Invalid Unit
  answer : Except Invalid Json
  setLocalDescription : Except Invalid Unit

/-- What is outside of a subscribe: the answers, whether a video transceiver comes of them, and
    `sdptransform::parseParams`. -/
structure Subscription where
  consumer : ℕ → Answering
  videoTransceiver : Bool
  parseParams : String → Except Invalid Members

/-- `*con_req->data` and its rtpParameters. -/
def dataOf (req : NewConsumerRequest) :
    Except Fault (NewConsumerRequest.Data × NewConsumerRequest.RTPParameters) :=
  match req.data with
  | none => .error .undefined
  | some data =>
    match data.rtpParameters with
    | none => .error .undefined
    | some rtpParameters => .ok (data, rtpParameters)

/-- The section of the answer under a mid, which has to be there. -/
def answerMediaOf (mid : String) (localSdpObject : Json) : Except Fault Json := do
  let media := (← localSdpObject.readOrNull "media").elems
  match ← findIdx (fun m => return (← (← m.read "mid").toStr) = mid) media with
  | some idx => return media.getD idx .null
  | none => .error .undefined

/-- One turn of the loop over the consumers: the transport is connected in the first one. -/
def receiveConsumer (env : Subscription) (tp : JsonTransportParam) (i : ℕ)
    (req : NewConsumerRequest) (rsdp : RemoteSdp) : Body RemoteSdp := do
  let (data, rtpParameters) ← dataOf req
  let mid := consumerMid rtpParameters
  let rtpParam := toJson rtpParameters
  let cname ← consumerCname rtpParam
  let rsdp ← ofOutcome (rsdp.receive mid (data.kind.getD "") rtpParam cname tp.id)
  let rsdp ← ofOutcome rsdp.getSdp
  modify fun s => { s with pc := { s.pc with remoteDescription := some rsdp.sdpObject } }
  (env.consumer i).setRemoteDescription
  let localSdpObject ← (env.consumer i).answer
  let dtlsParameters ← extractDtlsParameters localSdpObject
  let _ ← applyCodecParameters env.parseParams rtpParam (← answerMediaOf mid localSdpObject)
  let ret ← if i = 0 then connectWebrtcTransport tp.id dtlsParameters else pure 0
  ensure ret (decide (ret = 0))
  (env.consumer i).setLocalDescription
  return rsdp

/-- The loop over the consumers, from the one at `i` on. -/
def receiveConsumers (env : Subscription) (tp : JsonTransportParam) :
    ℕ → List NewConsumerRequest → RemoteSdp → Body RemoteSdp
  | _, [], rsdp => pure rsdp
  | i, req :: reqs, rsdp => do
    let rsdp ← receiveConsumer env tp i req rsdp
    receiveConsumers env tp (i + 1) reqs rsdp

/-- The stored requests of a peer, if there are any. -/
def MediaControl.consumersOf (s : MediaControl) (uid : String) : Option (List NewConsumerRequest) :=
  match s.consumerList.get uid with
  | none => none
  | some byKind => if byKind.entries.isEmpty then none else some (byKind.entries.map (·.2))

/-- The peer that is meant: the first one when the id is empty. -/
def MediaControl.peerOf (s : MediaControl) (uid : String) : Option String :=
  if uid = "" then s.peerList.entries.head?.map (·.1) else some uid

/-- `subscribe` up to the end of its loop: the peer, and the remote description that was built. -/
def subscribeStreams (env : Subscription) (uid : String) : Body (String × RemoteSdp) := do
  let s ← get
  let uid ← check (-1) (s.peerOf uid)
  let reqs ← check (-1) (s.consumersOf uid)
  let tp ← check (-1) s.transportList.getRecvTransportParam
  let rsdp ← RemoteSdp.new tp.iceParams tp.iceCandidates tp.dtlsParams tp.sctpParams
  let rsdp ← ofOutcome (rsdp.updateDtlsRole "server")
  return (uid, ← receiveConsumers env tp 0 reqs rsdp)

/-! ### The public operations -/

/-- A member function that makes a peer connection. -/
def withPeerConnection (body : Body ℤ) : Call Invalid MediaControl ℤ :=
  inside (fun s => { toMediaControl := s }) (·.toMediaControl) body

def publish (audio video : Negotiation) (streamType : PublishStreamType) (benableAudio : Bool) :
    Call Invalid MediaControl ℤ :=
  withPeerConnection do
    let _ ← enter (enableAudio audio benableAudio)
    let _ ← enter (enableVideo video)
    modify fun s => { s with publishPcs := s.publishPcs.insert streamType.value s.pc }
    return 0

def unpublish (streamType : PublishStreamType) : Call Invalid MediaControl ℤ := do
  let _ ← check (-1) ((← get).publishPcs.get streamType.value)
  modify fun s => { s with publishPcs := s.publishPcs.erase streamType.value }
  return 0

def subscribe (env : Subscription) (uid : String) : Call Invalid MediaControl ℤ :=
  withPeerConnection do
    let (uid, _) ← subscribeStreams env uid
    let _ ← (if env.videoTransceiver then .ok ()
      else .error (.exception "video transceiver not found") : Except Invalid Unit)
    modify fun s => { s with subPcs := s.subPcs.insert uid s.pc }
    return 0

def unsubscribe (uid : String) : Call Invalid MediaControl ℤ := do
  modify fun s => { s with subPcs := s.subPcs.erase uid }
  return 0

/-- `from_json_string`. -/
def requestOf (parse : String → Option Value) (text : String) :
    Except Invalid NewConsumerRequest :=
  match (fromJsonString parse text : NewConsumerRequest × _) with
  | (req, none) => .ok req
  | (_, some _) => .error (.exception "parser json failed")

/-- `consumer_list_[peerid][kind] = new_consumer_req`. -/
def MediaControl.store (s : MediaControl) (data : NewConsumerRequest.Data)
    (req : NewConsumerRequest) : MediaControl :=
  let peerid := data.peerId.getD ""
  let byKind := (s.consumerList.get peerid).getD .empty
  { s with consumerList :=
      s.consumerList.insert peerid (byKind.insert (data.kind.getD "") req) }

/-- `on_new_consumer`: the request is stored and answered; nothing is received yet. -/
def onNewConsumer (parse : String → Option Value) (text : String) :
    Call Invalid MediaControl ℤ := do
  let req ← requestOf parse text
  match req.data with
  | none => throw .undefined
  | some data => do
    modify fun s => s.store data req
    modify fun s => { s with events := s.events ++ [.response (req.id.getD (-1)) true] }
    return 0

/-- A call, with what WebRTC does during it. -/
inductive Label where
  | publish (audio video : Negotiation) (streamType : PublishStreamType) (benableAudio : Bool)
  | unpublish (streamType : PublishStreamType)
  | subscribe (env : Subscription) (uid : String)
  | unsubscribe (uid : String)
  | newConsumer (text : String)

def Label.call (parse : String → Option Value) : Label → Call Invalid MediaControl ℤ
  | .publish audio video streamType benableAudio =>
    Control.publish audio video streamType benableAudio
  | .unpublish streamType => Control.unpublish streamType
  | .subscribe env uid => Control.subscribe env uid
  | .unsubscribe uid => Control.unsubscribe uid
  | .newConsumer text => onNewConsumer parse text

/-- Calls one after another. A call that throws leaves the object for the next one. -/
def mediaControl (parse : String → Option Value) : Lts MediaControl Label :=
  ⟨fun s l => ((l.call parse).outcome s).state?⟩

/-- The object after a join. -/
def joined (transportList : TransportList) (peerList : StdMap String Unit)
    (networkPriority : Json) : MediaControl where
  transportList := transportList
  peerList := peerList
  encodings := configVideoEncodings networkPriority

/-! ### A room

The object that the runs on concrete input start from. -/

def transport₀ (id : String) (bsendTransport : Bool) : JsonTransportParam where
  id := id
  iceParams := ofValue (jserialize
    ({ password := some "pwd", usernameFragment := some "ufrag" } :
      ConnectWebRtcTransportRequest.ICEParameters))
  iceCandidates := .arr []
  dtlsParams := dtlsParameters₀
  sctpParams := sctpParameters₀
  extendRtpCapabilities := some (avCapabilities .null .null)
  bsendTransport := bsendTransport
  iceWritten := ⟨_, rfl⟩

def transportList₀ : TransportList where
  byId := (StdMap.empty.insert "recv" (transport₀ "recv" false)).insert "send"
    (transport₀ "send" true)
  keyed := by
    intro id tp h
    rw [StdMap.get_insert, StdMap.get_insert] at h
    split_ifs at h with hsend hrecv
    · cases h
      exact hsend.symm
    · cases h
      exact hrecv.symm
    · cases h

def room₀ : MediaControl := joined transportList₀ (StdMap.empty.insert "peer" ()) (.float 1)

/-- A section of the local description. -/
def localSection₀ (type : String) : Json :=
  .object [("type", .str type), ("mid", .str "0"), ("protocol", .str "UDP/TLS/RTP/SAVPF"),
    ("ssrcs", .arr [.object [("id", .uint 1), ("attribute", .str "cname"), ("value", .str "c")]])]

/-- WebRTC goes along, with these types of sections. -/
def negotiation₀ (typeOf : ℕ → String) : Negotiation where
  track := true
  transceiver := true
  offer := .ok (.object [("media", .arr [])])
  setLocalDescription := .ok ()
  mid := some "0"
  localDescription := .ok fun idx => localSection₀ (typeOf idx)
  setRemoteDescription := .ok ()

/-- Audio first, and then video. -/
def audioVideo₀ : Label :=
  .publish (negotiation₀ fun _ => "audio")
    (negotiation₀ fun idx => if idx = 0 then "audio" else "video") .PublishMainStream true

/-- Video alone. -/
def videoOnly₀ : Label :=
  .publish (negotiation₀ fun _ => "audio") (negotiation₀ fun _ => "video") .PublishMainStream false

end MediasoupClient.Control
