import MediasoupClient.Sdp.Ortc
import MediasoupClient.Signaling.RtpModels

/-! The transports of a room (mssignal/msapi.cpp).

        createWebRtcTransport  ──▶  transport_list_[id] = JsonTransportParam
                                         │
        connectWebRtcTransport ◀─────────┤  its ICE parameters, the DTLS parameters of the caller
        produce                ◀─────────┘  its id

    The list is a map, so "the send transport" is the first one in the order of the ids. The
    response to a connect request is not looked at. -/

namespace MediasoupClient.Api
open Lib Signaling Sdp

/-! ### The models of a connect request -/

namespace ConnectWebRtcTransportRequest

structure Fingerprint where
  algorithm : Option String := none
  value : Option String := none

instance : Model Fingerprint where
  init := {}
  fields := [
    optional "algorithm" string (·.algorithm) fun a v => { a with algorithm := v },
    optional "value" string (·.value) fun a v => { a with value := v }]

/-- `ICEParameters`, also of `CreateWebRtcTransportResponse`. -/
structure ICEParameters where
  iceLite : Option Bool := none
  password : Option String := none
  usernameFragment : Option String := none

instance : Model ICEParameters where
  init := {}
  fields := [
    optional "iceLite" bool (·.iceLite) fun a v => { a with iceLite := v },
    optional "password" string (·.password) fun a v => { a with password := v },
    optional "usernameFragment" string (·.usernameFragment)
      fun a v => { a with usernameFragment := v }]

structure DTLSParameters where
  fingerprints : Option (List Fingerprint) := none
  role : Option String := none

instance : Model DTLSParameters where
  init := {}
  fields := [
    optional "fingerprints" (vector (model Fingerprint)) (·.fingerprints)
      fun a v => { a with fingerprints := v },
    optional "role" string (·.role) fun a v => { a with role := v }]

/-- The data of the request: all its members are set. -/
structure Data where
  transportId : String
  iceParameters : ICEParameters
  dtlsParameters : DTLSParameters

end ConnectWebRtcTransportRequest

open ConnectWebRtcTransportRequest (ICEParameters)

/-- ICE parameters written and read again are accepted. -/
theorem iceParameters_accepted (ice : ICEParameters) : ∃ ice',
    (jdeserialize (toValue (ofValue (jserialize ice))) : ICEParameters × _) = (ice', none) := by
  obtain ⟨iceLite, password, usernameFragment⟩ := ice
  cases iceLite <;> cases password <;> cases usernameFragment <;> exact ⟨_, rfl⟩

/-! ### The list -/

/-- What is kept of a transport. Its ICE parameters were written by the model of the response. -/
structure JsonTransportParam where
  id : String
  iceParams : Json
  iceCandidates : Json
  dtlsParams : Json
  sctpParams : Json
  extendRtpCapabilities : Option ExtendedRtpCapabilities
  bsendTransport : Bool
  iceWritten : ∃ ice : ICEParameters, iceParams = ofValue (jserialize ice)

/-- `transport_list_`: every transport is under its own id. -/
structure TransportList where
  byId : StdMap String JsonTransportParam
  keyed : ∀ id tp, byId.get id = some tp → tp.id = id

namespace TransportList

/-- The first transport in the order of the ids with this flag. -/
def firstWhere (list : TransportList) (bsendTransport : Bool) : Option JsonTransportParam :=
  (list.byId.entries.find? fun entry => entry.2.bsendTransport == bsendTransport).map (·.2)

def getSendTransportParam (list : TransportList) : Option JsonTransportParam :=
  list.firstWhere true

def getRecvTransportParam (list : TransportList) : Option JsonTransportParam :=
  list.firstWhere false

/-- The request that `connect_webrtc_transport` sends; none if it returns -1 instead. An error in the
    DTLS parameters is not looked at. -/
def connectRequest (list : TransportList) (id : String) (dtlsParameters : Json) :
    Option ConnectWebRtcTransportRequest.Data :=
  match list.byId.get id with
  | none => none
  | some tp =>
    match (jdeserialize (toValue tp.iceParams) : ICEParameters × _) with
    | (_, some _) => none
    | (iceParameters, none) => some {
        transportId := tp.id
        iceParameters := iceParameters
        dtlsParameters := (jdeserialize (toValue dtlsParameters)).1 }

/-- The parameters that `produce` sends; none if it returns -1 instead. -/
def produceRequest (list : TransportList) (id : String) (rtpParam : Json) :
    Option ProduceRequest.RTPParameters :=
  match list.byId.get id with
  | none => none
  | some _ =>
    match (jdeserialize (toValue rtpParam) : ProduceRequest.RTPParameters × _) with
    | (_, some _) => none
    | (rtpParameters, none) => some rtpParameters

/-- A transport that is found is in the list, under its id. -/
theorem firstWhere_get {list : TransportList} {b : Bool} {tp : JsonTransportParam}
    (h : list.firstWhere b = some tp) : list.byId.get tp.id = some tp := by
  obtain ⟨⟨id, tp'⟩, hfind, rfl⟩ := Option.map_eq_some_iff.mp h
  have hget : list.byId.get id = some tp' :=
    (mem_iff_get list.byId.sorted).mp (List.mem_of_find?_eq_some hfind)
  rw [list.keyed id tp' hget]
  exact hget

/-- A transport of the list is never refused. -/
theorem connectRequest_sent {list : TransportList} {tp : JsonTransportParam}
    (h : list.byId.get tp.id = some tp) (dtlsParameters : Json) :
    ∃ data, list.connectRequest tp.id dtlsParameters = some data ∧ data.transportId = tp.id := by
  obtain ⟨ice, hice⟩ := tp.iceWritten
  obtain ⟨ice', haccepted⟩ := iceParameters_accepted ice
  refine ⟨⟨tp.id, ice', (jdeserialize (toValue dtlsParameters)).1⟩, ?_, rfl⟩
  rw [connectRequest, h]
  simp only [hice, haccepted]

end TransportList
end MediasoupClient.Api
