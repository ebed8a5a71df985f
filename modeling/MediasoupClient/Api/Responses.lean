import MediasoupClient.Api.Transports

/-! The responses of the server (mssignal/signaling_models.h).

        getRouterRtpCapabilities  ◀──  RTP capabilities
        createWebRtcTransport     ◀──  id, ICE, DTLS and SCTP parameters
        join                      ◀──  the peers of the room
        connect, produce          ◀──  ok

    Every member is optional, ok among them. -/

namespace MediasoupClient.Api
open Lib Signaling Sdp

/-- `ResponseHeader`: it has the members of `BasicResponse`. -/
abbrev ResponseHeader := BasicResponse

/-! ### `getRouterRtpCapabilities` -/

structure GetRouterRtpCapabilitiesResponse where
  response : Option Bool := none
  id : Option ℤ := none
  ok : Option Bool := none
  data : Option (RTPCapabilities GetRouterRtpCapabilitiesResponse.Parameters) := none

instance : Model GetRouterRtpCapabilitiesResponse where
  init := {}
  fields := [
    optional "response" bool (·.response) fun a v => { a with response := v },
    optional "id" int64 (·.id) fun a v => { a with id := v },
    optional "ok" bool (·.ok) fun a v => { a with ok := v },
    optional "data" (model (RTPCapabilities GetRouterRtpCapabilitiesResponse.Parameters)) (·.data)
      fun a v => { a with data := v }]

/-! ### `createWebRtcTransport` -/

open ConnectWebRtcTransportRequest (Fingerprint ICEParameters DTLSParameters)

namespace CreateWebRtcTransportRequest

structure NumStreams where
  MIS : Option ℤ := none
  OS : Option ℤ := none

instance : Model NumStreams where
  init := {}
  fields := [
    optional "MIS" int32 (·.MIS) fun a v => { a with MIS := v },
    optional "OS" int32 (·.OS) fun a v => { a with OS := v }]

structure SCTPCapabilities where
  numStreams : Option NumStreams := none

instance : Model SCTPCapabilities where
  init := {}
  fields := [optional "numStreams" (model NumStreams) (·.numStreams)
    fun a v => { a with numStreams := v }]

end CreateWebRtcTransportRequest

namespace CreateWebRtcTransportResponse

structure ICECandidate where
  type : Option String := none
  protocol : Option String := none
  foundation : Option String := none
  address : Option String := none
  port : Option ℤ := none
  priority : Option ℤ := none

instance : Model ICECandidate where
  init := {}
  fields := [
    optional "type" string (·.type) fun a v => { a with type := v },
    optional "protocol" string (·.protocol) fun a v => { a with protocol := v },
    optional "foundation" string (·.foundation) fun a v => { a with foundation := v },
    optional "address" string (·.address) fun a v => { a with address := v },
    optional "port" int32 (·.port) fun a v => { a with port := v },
    optional "priority" int32 (·.priority) fun a v => { a with priority := v }]

structure SCTPParameters where
  MIS : Option ℤ := none
  OS : Option ℤ := none
  isDataChannel : Option Bool := none
  port : Option ℤ := none
  maxMessageSize : Option ℤ := none
  sctpBufferedAmount : Option ℤ := none
  sendBufferSize : Option ℤ := none

instance : Model SCTPParameters where
  init := {}
  fields := [
    optional "MIS" int32 (·.MIS) fun a v => { a with MIS := v },
    optional "OS" int32 (·.OS) fun a v => { a with OS := v },
    optional "isDataChannel" bool (·.isDataChannel) fun a v => { a with isDataChannel := v },
    optional "port" int32 (·.port) fun a v => { a with port := v },
    optional "maxMessageSize" int32 (·.maxMessageSize) fun a v => { a with maxMessageSize := v },
    optional "sctpBufferedAmount" int32 (·.sctpBufferedAmount)
      fun a v => { a with sctpBufferedAmount := v },
    optional "sendBufferSize" int32 (·.sendBufferSize) fun a v => { a with sendBufferSize := v }]

structure Data where
  id : Option String := none
  dtlsParameters : Option DTLSParameters := none
  iceCandidates : Option (List ICECandidate) := none
  iceParameters : Option ICEParameters := none
  sctpParameters : Option SCTPParameters := none

instance : Model Data where
  init := {}
  fields := [
    optional "id" string (·.id) fun a v => { a with id := v },
    optional "dtlsParameters" (model DTLSParameters) (·.dtlsParameters)
      fun a v => { a with dtlsParameters := v },
    optional "iceCandidates" (vector (model ICECandidate)) (·.iceCandidates)
      fun a v => { a with iceCandidates := v },
    optional "iceParameters" (model ICEParameters) (·.iceParameters)
      fun a v => { a with iceParameters := v },
    optional "sctpParameters" (model SCTPParameters) (·.sctpParameters)
      fun a v => { a with sctpParameters := v }]

end CreateWebRtcTransportResponse

/-- The response. Its defaults are those of a request; nobody reads its id. -/
structure CreateWebRtcTransportResponse where
  request : Option Bool := some true
  id : Option ℤ := none
  ok : Option Bool := none
  data : Option CreateWebRtcTransportResponse.Data := none

instance : Model CreateWebRtcTransportResponse where
  init := {}
  fields := [
    optional "request" bool (·.request) fun a v => { a with request := v },
    optional "id" int64 (·.id) fun a v => { a with id := v },
    optional "ok" bool (·.ok) fun a v => { a with ok := v },
    optional "data" (model CreateWebRtcTransportResponse.Data) (·.data)
      fun a v => { a with data := v }]

/-! ### `join` -/

namespace JoinResponse

structure Device where
  flag : Option String := none
  name : Option String := none
  version : Option String := none

instance : Model Device where
  init := {}
  fields := [
    optional "flag" string (·.flag) fun a v => { a with flag := v },
    optional "name" string (·.name) fun a v => { a with name := v },
    optional "version" string (·.version) fun a v => { a with version := v }]

structure Peer where
  id : Option String := none
  displayName : Option String := none
  device : Option Device := none

instance : Model Peer where
  init := {}
  fields := [
    optional "id" string (·.id) fun a v => { a with id := v },
    optional "displayName" string (·.displayName) fun a v => { a with displayName := v },
    optional "device" (model Device) (·.device) fun a v => { a with device := v }]

structure Data where
  peers : Option (List Peer) := none

instance : Model Data where
  init := {}
  fields := [optional "peers" (vector (model Peer)) (·.peers) fun a v => { a with peers := v }]

end JoinResponse

structure JoinResponse where
  response : Option Bool := none
  id : Option ℤ := none
  ok : Option Bool := none
  data : Option JoinResponse.Data := none

instance : Model JoinResponse where
  init := {}
  fields := [
    optional "response" bool (·.response) fun a v => { a with response := v },
    optional "id" int64 (·.id) fun a v => { a with id := v },
    optional "ok" bool (·.ok) fun a v => { a with ok := v },
    optional "data" (model JoinResponse.Data) (·.data) fun a v => { a with data := v }]

/-! ### Written members -/

theorem get_forward {α β : Type} (k name : String) (S : Serializer β) (g : α → Option β)
    (set : α → Option β → α) (a : α) :
    get k ((optional name S g set).forward a) = if k = name then (g a).map S.forward else none := by
  simp only [Signaling.optional]
  cases g a with
  | none => split_ifs <;> rfl
  | some b => rfl

end MediasoupClient.Api
