import MediasoupClient.Api.MediaSoupApi

/-! Refusals of the server (mssignal/msapi.cpp, mssignal/microdef.h).

                                  an error    no ok    not ok
        router capabilities          -1         0         0
        create transport             -1        -1         0
        join                          0         0         0
        connect                       0         0         0
        produce                      -1        -1         0

    A response may say that it is not ok, or not say whether it is, or not be one at all. Two calls ask
    whether it says, and none asks what. -/

namespace MediasoupClient.Api
open Lib Signaling Sdp Call

/-- A call of the client, with what it is given. -/
inductive Request where
  | getRouterRtpCapabilities (native : Except Invalid Json)
  | createSendTransport
  | createRecvTransport
  | join
  | connectWebrtcTransport (id : String) (dtlsParameters : Json)
  | produce (id kind : String) (rtpParam : Json)

namespace Request
variable (webrtc : WebRtc) (parse : String → Option Value)

/-- The call, with the response to its request. -/
def call (resp : String) : Request → ApiCall ℤ
  | getRouterRtpCapabilities native => onRouterRtpCapabilitiesResponse webrtc parse native resp
  | createSendTransport => Api.createSendTransport parse resp
  | createRecvTransport => Api.createRecvTransport parse resp
  | join => Api.join parse resp
  | connectWebrtcTransport id dtlsParameters => Api.connectWebrtcTransport id dtlsParameters resp
  | produce id kind rtpParam => Api.produce parse id kind rtpParam resp

/-- The ok member of the response to a request of this kind, and the error it is read with. -/
def heard (resp : String) : Request → Option Bool × Option JsonError
  | getRouterRtpCapabilities _ =>
    (fromJsonString parse resp : GetRouterRtpCapabilitiesResponse × _).map (·.ok) id
  | createSendTransport => (fromJsonString parse resp : CreateWebRtcTransportResponse × _).map (·.ok) id
  | createRecvTransport => (fromJsonString parse resp : CreateWebRtcTransportResponse × _).map (·.ok) id
  | join => (fromJsonString parse resp : JoinResponse × _).map (·.ok) id
  | connectWebrtcTransport _ _ => (fromJsonString parse resp : ResponseHeader × _).map (·.ok) id
  | produce _ _ _ => (fromJsonString parse resp : ResponseHeader × _).map (·.ok) id

/-- The text is a response, and it is ok. -/
def Accepted (resp : String) (req : Request) : Prop := req.heard parse resp = (some true, none)

/-- A request is sent for the call. -/
def Sent (s : MediaSoupAPI) : Request → Prop
  | getRouterRtpCapabilities _ => True
  | createSendTransport => createRequestSent s = true
  | createRecvTransport => createRequestSent s = true
  | join => True
  | connectWebrtcTransport id dtlsParameters =>
    (s.transportList.connectRequest id dtlsParameters).isSome = true
  | produce id _ rtpParam => (s.transportList.produceRequest id rtpParam).isSome = true

/-- The calls that ask whether the response says if it is ok. -/
def AsksOk : Request → Prop
  | createSendTransport => True
  | createRecvTransport => True
  | produce _ _ _ => True
  | _ => False

/-- The calls that ask whether the response is one. -/
def AsksError : Request → Prop
  | join => False
  | connectWebrtcTransport _ _ => False
  | _ => True

end Request

/-- A refusal is noticed: the call returns a negative code and changes nothing. -/
def Noticed (webrtc : WebRtc) (parse : String → Option Value) (s : MediaSoupAPI) (resp : String)
    (req : Request) : Prop :=
  ¬req.Accepted parse resp → ∃ code < 0, req.call webrtc parse resp s = .ok code s

/-! ### The calls

What each of them refuses: it returns a negative code, and leaves everything as it was. -/

section
variable {webrtc : WebRtc} {parse : String → Option Value} {s : MediaSoupAPI} {resp : String}

theorem router_refuses {native : Except Invalid Json} {response : GetRouterRtpCapabilitiesResponse}
    {err : Option JsonError} (hresp : fromJsonString parse resp = (response, err)) :
    (∃ code < 0, onRouterRtpCapabilitiesResponse webrtc parse native resp s = .ok code s) ↔
      err.isSome = true := by
  simp only [onRouterRtpCapabilities_returns hresp]
  constructor
  · rintro ⟨code, hneg, ⟨herr, -⟩ | ⟨-, data, -, rfl, -⟩⟩
    · exact herr
    · exact absurd hneg (by decide)
  · exact fun herr => ⟨-1, by decide, Or.inl ⟨herr, rfl, trivial⟩⟩

theorem transport_refuses {b : Bool} {response : CreateWebRtcTransportResponse}
    {err : Option JsonError} (hresp : fromJsonString parse resp = (response, err)) :
    (∃ code < 0, onCreateTransportResponse parse b resp s = .ok code s) ↔
      err.isSome = true ∨ response.ok = none := by
  simp only [onCreateTransport_returns hresp]
  constructor
  · rintro ⟨code, hneg, ⟨hrefused, -⟩ | ⟨-, data, tp, -, -, rfl, -⟩⟩
    · exact hrefused
    · exact absurd hneg (by decide)
  · exact fun hrefused => ⟨-1, by decide, Or.inl ⟨hrefused, rfl, trivial⟩⟩

/-- A call that may not send its request refuses what its handler refuses. -/
theorem sent_refuses {x y : ApiCall ℤ} {sent : Bool}
    (h : ∀ code t, x s = .ok code t ↔
      sent = false ∧ code = -1 ∧ t = s ∨ sent = true ∧ y s = .ok code t) :
    (∃ code < 0, x s = .ok code s) ↔ ¬sent = true ∨ ∃ code < 0, y s = .ok code s := by
  cases sent with
  | false =>
    refine iff_of_true ⟨-1, by decide, (h _ _).mpr (Or.inl ⟨rfl, rfl, rfl⟩)⟩ (Or.inl ?_)
    exact Bool.false_ne_true
  | true =>
    have hsame : ∀ code, x s = .ok code s ↔ y s = .ok code s := fun code => by
      rw [h]
      simp
    simp only [hsame, not_true_eq_false, false_or]

theorem join_refuses : ¬∃ code < 0, join parse resp s = .ok code s := by
  rintro ⟨code, hneg, h⟩
  obtain ⟨recv, -, h⟩ := join_returns.mp h
  cases hresp : (fromJsonString parse resp : JoinResponse × _) with
  | mk response err =>
    obtain ⟨data, -, rfl, -⟩ := (onJoinResponse_returns hresp).mp h
    exact absurd hneg (by decide)

theorem connect_refuses (id : String) (dtlsParameters : Json) (resp : String) :
    (∃ code < 0, connectWebrtcTransport id dtlsParameters resp s = .ok code s) ↔
      ¬(s.transportList.connectRequest id dtlsParameters).isSome = true := by
  simp only [connectWebrtcTransport, get_bind]
  cases s.transportList.connectRequest id dtlsParameters with
  | none => exact iff_of_true ⟨-1, by decide, rfl⟩ (by decide)
  | some data =>
    refine iff_of_false ?_ fun h => h rfl
    rintro ⟨code, hneg, h⟩
    cases h
    exact absurd hneg (by decide)

theorem produce_refuses (kind : String) {id : String} {rtpParam : Json} {response : ResponseHeader}
    {err : Option JsonError} (hresp : fromJsonString parse resp = (response, err)) :
    (∃ code < 0, produce parse id kind rtpParam resp s = .ok code s) ↔
      ¬(s.transportList.produceRequest id rtpParam).isSome = true ∨
        err.isSome = true ∨ response.ok = none := by
  simp only [produce, get_bind]
  cases s.transportList.produceRequest id rtpParam with
  | none => exact iff_of_true ⟨-1, by decide, rfl⟩ (Or.inl (by decide))
  | some rtpParameters =>
    simp only [onProduceResponse_returns hresp, Option.isSome_some, not_true_eq_false, false_or]
    constructor
    · rintro ⟨code, hneg, ⟨hrefused, -⟩ | ⟨-, rfl, -⟩⟩
      · exact hrefused
      · exact absurd hneg (by decide)
    · exact fun hrefused => ⟨-1, by decide, Or.inl ⟨hrefused, rfl, trivial⟩⟩

/-- What a call refuses: it sends nothing, or it asks for what is wrong with the response. -/
theorem call_refuses (req : Request) : (∃ code < 0, req.call webrtc parse resp s = .ok code s) ↔
    ¬req.Sent s ∨ (req.AsksError ∧ (req.heard parse resp).2.isSome = true) ∨
      (req.AsksOk ∧ (req.heard parse resp).1 = none) := by
  cases req with
  | getRouterRtpCapabilities native =>
    refine (router_refuses Prod.mk.eta.symm).trans ?_
    simp [Request.Sent, Request.AsksError, Request.AsksOk, Request.heard]
  | createSendTransport =>
    refine (sent_refuses fun _ _ => createSendTransport_returns).trans ?_
    rw [transport_refuses Prod.mk.eta.symm]
    simp [Request.Sent, Request.AsksError, Request.AsksOk, Request.heard]
  | createRecvTransport =>
    refine (sent_refuses fun _ _ => createRecvTransport_returns).trans ?_
    rw [transport_refuses Prod.mk.eta.symm]
    simp [Request.Sent, Request.AsksError, Request.AsksOk, Request.heard]
  | join =>
    refine iff_of_false join_refuses ?_
    simp [Request.Sent, Request.AsksError, Request.AsksOk]
  | connectWebrtcTransport id dtlsParameters =>
    refine (connect_refuses id dtlsParameters resp).trans ?_
    simp [Request.Sent, Request.AsksError, Request.AsksOk]
  | produce id kind rtpParam =>
    refine (produce_refuses kind Prod.mk.eta.symm).trans ?_
    simp [Request.Sent, Request.AsksError, Request.AsksOk, Request.heard]

end

/-- CORRECT: a response that is not an ok one is noticed exactly if none is waited for, or the call asks
    for an error and there is one, or it asks whether the response says it is ok and it does not. -/
theorem refusal_noticed_iff (webrtc : WebRtc) (parse : String → Option Value) (s : MediaSoupAPI)
    (resp : String) (req : Request) :
    Noticed webrtc parse s resp req ↔ req.Accepted parse resp ∨ ¬req.Sent s ∨
      (req.AsksError ∧ (req.heard parse resp).2.isSome = true) ∨
      (req.AsksOk ∧ (req.heard parse resp).1 = none) := by
  rw [Noticed, call_refuses, Classical.or_iff_not_imp_left (a := req.Accepted parse resp)]

/-- A transport, and nothing else. -/
def connectable : MediaSoupAPI where
  transportList := TransportList.store ⟨.empty, fun _ _ h => by cases h⟩ {
    id := "t"
    iceParams := ofValue (jserialize ({} : ConnectWebRtcTransportRequest.ICEParameters))
    iceCandidates := .arr []
    dtlsParams := .obj []
    sctpParams := .obj []
    extendRtpCapabilities := none
    bsendTransport := true
    iceWritten := ⟨_, rfl⟩ }

/-- A refusal. -/
def refusal : Value := .object [("response", .bool true), ("id", .int 1), ("ok", .bool false)]

/-- A transport whose producer is refused is taken for one that produces. -/
theorem produce_refused_unnoticed :
    ¬ ∀ (webrtc : WebRtc) (parse : String → Option Value) (s : MediaSoupAPI) (resp : String)
      (req : Request), Noticed webrtc parse s resp req := by
  intro h
  have hno : ¬(Request.produce "t" "audio" (.obj [])).Accepted (fun _ => some refusal) "" :=
    fun haccepted => by cases haccepted
  obtain ⟨code, hneg, hcall⟩ := h sampleWebRtc (fun _ => some refusal) connectable ""
    (.produce "t" "audio" (.obj [])) hno
  have hrun : Request.call sampleWebRtc (fun _ => some refusal) "" (.produce "t" "audio" (.obj []))
      connectable = .ok 0 connectable := rfl
  rw [hrun] at hcall
  cases hcall
  exact absurd hneg (by decide)

end MediasoupClient.Api
