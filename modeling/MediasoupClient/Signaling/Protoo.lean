import MediasoupClient.Signaling.Dispatch

/-! How MediaSoupAPI and MediaControl answer server requests (mssignal/msapi.cpp,
    peerconnection/media_control.cpp).

        recv text ──▶ an entry under the id in ack_list_ gives the message its method ──▶ erase
        dispatch  ──▶ on_recv_request ──▶ method_handle_list_
                                            ──▶ on_new_consumer       ──▶ send_base_response
                                            ──▶ on_new_data_consumer  ──▶ send_base_response
                                            ──▶ nothing registered:        no response

    A handler decodes the whole request again and throws when it does not fit; it looks into
    `data` without asking whether it is there. A response is put into `send_list_` like any other
    message, and so it is moved into `ack_list_` when it has been sent, with an empty method. -/

namespace MediasoupClient.Signaling
open Lib

/-- What can be thrown out of a handler. -/
inductive Escape where
  | lazyException (json : String) (reason : JsonError)
  | badOptionalAccess
  | futureError
  deriving DecidableEq, Repr

/-- What MediaControl and MediaSoupAPI keep: the lists of consumers, and whether `promise_` was made
    and is satisfied. -/
structure Control where
  consumerList : StdMap String (StdMap String NewConsumerRequest) := .empty
  dataConsumerList : StdMap String NewDataConsumerRequest := .empty
  promise : Option Bool := none

/-- MSSignal with the control behind it, and a record of what `on_text_message` found in `ack_list_`
    under the id of the frame it is working on. -/
structure Session where
  signal : State := .init
  control : Control := {}
  entry : Option MSMessage := none

/-- How a call ends: it returns, an exception leaves it, or the behaviour is undefined (an empty
    optional dereferenced, an assertion that fails). -/
inductive Outcome where
  | returned (s : Session)
  | escaped (e : Escape) (s : Session)
  | undefined

/-- The handlers `MediaControl::init` registers. -/
inductive MethodHandle where
  | onNewConsumer
  | onNewDataConsumer
  deriving DecidableEq, Repr

def methodHandleList : StdMap String MethodHandle :=
  (StdMap.empty.insert "newConsumer" .onNewConsumer).insert "newDataConsumer" .onNewDataConsumer

section
variable (parse : String → Option Value) (write : Value → String)

/-- `toJsonStr` of a response. -/
def BasicResponse.toJsonStr (response : BasicResponse) : String := cstr (write (jserialize response))

/-- `send_base_response`. -/
def sendBaseResponse (s : Session) (id : ℤ) (ok : Bool) : Session :=
  let response : BasicResponse := { response := some true, id := some id, ok := some ok }
  { s with signal := send parse s.signal (response.toJsonStr write) none }

/-- `on_new_consumer`. -/
def onNewConsumer (s : Session) (req : String) : Outcome :=
  match (fromJsonString parse req : NewConsumerRequest × Option JsonError) with
  | (_, some reason) => .escaped (.lazyException req reason) s
  | (newConsumerReq, none) =>
    match newConsumerReq.data with
    | none => .undefined
    | some data =>
      let peerid := data.peerId.getD ""
      let kind := data.kind.getD ""
      let kinds := (s.control.consumerList.get peerid).getD .empty
      let s := { s with control := { s.control with
        consumerList := s.control.consumerList.insert peerid (kinds.insert kind newConsumerReq) } }
      .returned (sendBaseResponse parse write s (newConsumerReq.id.getD (-1)) true)

/-- `on_new_data_consumer`, up to its first return. The stream parameters it validates are an
    integer and `true`, which always pass. -/
def onNewDataConsumer (s : Session) (req : String) : Outcome :=
  match (fromJsonString parse req : NewDataConsumerRequest × Option JsonError) with
  | (_, some reason) => .escaped (.lazyException req reason) s
  | (newDataConsumerReq, none) =>
    match newDataConsumerReq.data with
    | none => .undefined
    | some data =>
      let peerid := data.peerId.getD ""
      let s := { s with control := { s.control with
        dataConsumerList := s.control.dataConsumerList.insert peerid newDataConsumerReq } }
      match data.protocol, data.sctpStreamParameters with
      | none, _ => .escaped .badOptionalAccess s
      | some _, none => .undefined
      | some _, some params =>
        match params.streamId with
        | none => .escaped .badOptionalAccess s
        | some _ =>
          .returned (sendBaseResponse parse write s (newDataConsumerReq.id.getD (-1)) true)

/-- `on_recv_notify`: a second `mediasoup-version` sets a satisfied promise. -/
def onRecvNotify (s : Session) (msg : MSMessage) : Outcome :=
  if s.control.promise.isSome ∧ msg.method = "mediasoup-version" then
    if s.control.promise = some true then .escaped .futureError s
    else .returned { s with control := { s.control with promise := some true } }
  else .returned s

/-- `on_recv_msg`, with `on_recv_request` calling the registered handler. -/
def onRecvMsg (s : Session) (msg : MSMessage) : Outcome :=
  match msg.msgType with
  | .request =>
    match onRecvRequest methodHandleList msg with
    | some .onNewConsumer => onNewConsumer parse write s msg.json
    | some .onNewDataConsumer => onNewDataConsumer parse write s msg.json
    | none => .returned s
  | .response => .returned s
  | .notify => onRecvNotify s msg
  | .unknow => .undefined

/-- A step of MSSignal, in which the message that is handed on reaches the control. What a handler
    sends waits for `mutex_`, which the sender thread has unless it is idle. Nothing more is handled
    once an exception has left a handler or the behaviour is undefined. -/
def controlStep (s : Session) : Label → Option (Option Session)
  | .recv text =>
    (step parse s.signal (.recv text)).map fun signal =>
      some { s with signal := signal, entry := s.signal.ackList.get (messageFromJson parse text).id }
  | .dispatch =>
    match s.signal.handler with
    | .dispatching msg =>
      let signal := { s.signal with
        handler := .idle, dispatched := s.signal.dispatched ++ [msg] }
      match onRecvMsg parse write { s with signal := signal } msg with
      | .returned s' =>
        if s.signal.sender = .idle ∨ s'.signal.accepted = s.signal.accepted then some (some s')
        else none
      | _ => some none
    | _ => none
  | l => (step parse s.signal l).map fun signal => some { s with signal := signal }

/-- The callers, the sender thread and the network thread, with the control behind it. -/
def control : Lts (Option Session) Label where
  step
    | some s, l => controlStep parse write s l
    | none, _ => none

/-- The id of the request, as its document has it. -/
def requestId (json : String) : ℤ := ((parse (cstr json)).bind (member int64 "id")).getD (-1)

/-- A request is answered by exactly one response under its id, which is put into `send_list_`, and
    nothing else happens to the lists unless it is ok; no exception leaves the handling of a request
    or a notification. A `close` does not take the entry away that is about to be erased, as no
    message would be handed on then. -/
def Disciplined : Option Session → Label → Prop
  | some s, .dispatch => ∀ msg, s.signal.handler = .dispatching msg →
    match msg.msgType with
    | .request => ∃ s' m r,
        (control parse write).step (some s) .dispatch = some (some s') ∧
        s'.signal.accepted = s.signal.accepted ++ [m] ∧
        s'.signal.sendList = s.signal.sendList.insert m.id m ∧
        m.json = BasicResponse.toJsonStr write r ∧ r.response = some true ∧
        r.id = some (requestId parse msg.json) ∧
        (r.ok ≠ some true → s'.control.consumerList = s.control.consumerList ∧
          s'.control.dataConsumerList = s.control.dataConsumerList)
    | .notify => ∃ s', (control parse write).step (some s) .dispatch = some (some s')
    | _ => True
  | some s, .close => ∀ it msg, s.signal.handler ≠ .erasing it msg
  | _, _ => True

/-- A `newConsumer` request that decodes and has `data`. -/
def NewConsumerFits (json : String) : Prop :=
  ∃ req data, fromJsonString parse json = ((req : NewConsumerRequest), none) ∧ req.data = some data

/-- A `newDataConsumer` request that decodes and has `data`, a protocol and a stream id. -/
def NewDataConsumerFits (json : String) : Prop :=
  ∃ req data params, fromJsonString parse json = ((req : NewDataConsumerRequest), none) ∧
    req.data = some data ∧ data.protocol.isSome ∧ data.sctpStreamParameters = some params ∧
    params.streamId.isSome

/-- The request is of one of the two methods and fits it. -/
def Fits (method json : String) : Prop :=
  (method = "newConsumer" ∧ NewConsumerFits parse json) ∨
    (method = "newDataConsumer" ∧ NewDataConsumerFits parse json)

/-- The method a frame is handled under: that of the entry under its id, if there is one. -/
def methodOf (s : Session) (json : String) : String :=
  (s.entry.map (·.method)).getD (messageFromJson parse json).method

/-- A request is handled under one of the two methods and fits it; a `mediasoup-version` notification
    comes before the promise is satisfied; `close` does not come between lookup and erasure. -/
def Answerable : Option Session → Label → Prop
  | some s, .dispatch => ∀ msg, s.signal.handler = .dispatching msg →
    match (header parse msg.json).msgType with
    | .request => Fits parse (methodOf parse s msg.json) msg.json
    | .notify =>
      ¬ (methodOf parse s msg.json = "mediasoup-version" ∧ s.control.promise = some true)
    | _ => True
  | some s, .close => ∀ it msg, s.signal.handler ≠ .erasing it msg
  | _, _ => True

/-- The message of the network thread is that of its frame, under the method of the entry found. -/
def Tracked : Option Session → Prop
  | some s => ∀ msg, s.signal.handler.msg = some msg →
    msg.msgType = (header parse msg.json).msgType ∧ msg.method = methodOf parse s msg.json
  | none => True

end

variable {parse : String → Option Value} {write : Value → String}

/-! ### The message that is handed on -/

theorem tracked_recv (s : Session) (text : String) :
    Tracked parse (some { s with
      signal := onTextMessage parse s.signal text
      entry := s.signal.ackList.get (messageFromJson parse text).id }) := by
  intro msg hmsg
  obtain ⟨msg', hmsg', hjson, htype, hmethod⟩ := @onTextMessage_msg parse s.signal text
  obtain rfl := Option.some.inj (hmsg'.symm.trans hmsg)
  rw [hjson]
  exact ⟨htype, hmethod⟩

/-- A step that leaves the network thread with no other message. -/
theorem Tracked.keep {s s' : Session} (h : Tracked parse (some s)) (hentry : s'.entry = s.entry)
    (hmsg : ∀ msg, s'.signal.handler.msg = some msg → s.signal.handler.msg = some msg) :
    Tracked parse (some s') := by
  intro msg hmsg'
  obtain ⟨htype, hmethod⟩ := h msg (hmsg msg hmsg')
  refine ⟨htype, ?_⟩
  rw [methodOf, hentry]
  exact hmethod

/-- The handlers leave the network thread alone. -/
theorem handler_onRecvMsg {s s' : Session} {msg : MSMessage}
    (h : onRecvMsg parse write s msg = .returned s') : s'.signal.handler = s.signal.handler := by
  have hsent : ∀ (s : Session) (id : ℤ) (ok : Bool),
      (sendBaseResponse parse write s id ok).signal.handler = s.signal.handler := fun _ _ _ => rfl
  unfold onRecvMsg at h
  split at h
  · split at h
    · unfold onNewConsumer at h
      split at h
      · cases h
      split at h
      · cases h
      · cases h
        exact hsent _ _ _
    · unfold onNewDataConsumer at h
      split at h
      · cases h
      split at h
      · cases h
      simp only at h
      split at h
      · cases h
      · cases h
      split at h
      · cases h
      · cases h
        exact hsent _ _ _
    · cases h
      rfl
  · cases h
    rfl
  · unfold onRecvNotify at h
    split_ifs at h <;> cases h <;> rfl
  · cases h

/-- How a message is handed on. -/
theorem step_control_dispatch {s : Session} {c : Option Session}
    (h : (control parse write).step (some s) .dispatch = some c) :
    ∃ msg, s.signal.handler = .dispatching msg ∧
      ((c = none ∧ ∀ s', onRecvMsg parse write { s with signal := { s.signal with
          handler := .idle, dispatched := s.signal.dispatched ++ [msg] } } msg ≠ .returned s') ∨
        ∃ s', c = some s' ∧ onRecvMsg parse write { s with signal := { s.signal with
          handler := .idle, dispatched := s.signal.dispatched ++ [msg] } } msg = .returned s') := by
  have h : controlStep parse write s .dispatch = some c := h
  simp only [controlStep] at h
  split at h
  · rename_i msg hmsg
    refine ⟨msg, hmsg, ?_⟩
    split at h
    · rename_i s' hret
      split_ifs at h
      cases h
      exact Or.inr ⟨s', rfl, hret⟩
    · rename_i hnot
      cases h
      exact Or.inl ⟨rfl, hnot⟩
  · cases h

theorem tracked_step {c c' : Option Session} {l : Label} (ht : Tracked parse c)
    (h : (control parse write).step c l = some c') : Tracked parse c' := by
  cases c with
  | none => cases h
  | some s =>
    have hother : ∀ {l : Label} {signal : State}, step parse s.signal l = some signal →
        (∀ msg, signal.handler.msg = some msg → s.signal.handler.msg = some msg) →
        Tracked parse (some { s with signal := signal }) := fun _ hmsg => ht.keep rfl hmsg
    cases l with
    | recv text =>
      obtain ⟨signal, hstep, rfl⟩ := Option.map_eq_some_iff.mp h
      obtain ⟨-, rfl⟩ := step_recv hstep
      exact tracked_recv s text
    | dispatch =>
      obtain ⟨msg, -, ⟨rfl, -⟩ | ⟨s', rfl, hret⟩⟩ := step_control_dispatch h
      · trivial
      · intro msg' hmsg'
        rw [handler_onRecvMsg hret] at hmsg'
        cases hmsg'
    | send msg =>
      obtain ⟨signal, hstep, rfl⟩ := Option.map_eq_some_iff.mp h
      obtain ⟨-, rfl⟩ := step_send hstep
      exact hother hstep fun _ hmsg => hmsg
    | sendRequest request =>
      obtain ⟨signal, hstep, rfl⟩ := Option.map_eq_some_iff.mp h
      obtain ⟨-, rfl⟩ := step_sendRequest hstep
      exact hother hstep fun _ hmsg => hmsg
    | getMsg key =>
      obtain ⟨signal, hstep, rfl⟩ := Option.map_eq_some_iff.mp h
      obtain ⟨-, _, -, rfl⟩ := step_getMsg hstep
      exact hother hstep fun _ hmsg => hmsg
    | sendText =>
      obtain ⟨signal, hstep, rfl⟩ := Option.map_eq_some_iff.mp h
      obtain ⟨_, -, rfl⟩ := step_sendText hstep
      exact hother hstep fun _ hmsg => hmsg
    | register =>
      obtain ⟨signal, hstep, rfl⟩ := Option.map_eq_some_iff.mp h
      obtain ⟨_, -, rfl⟩ := step_register hstep
      exact hother hstep fun _ hmsg => hmsg
    | erase =>
      obtain ⟨signal, hstep, rfl⟩ := Option.map_eq_some_iff.mp h
      obtain ⟨_, _, hhandler, rfl⟩ := step_erase hstep
      exact hother hstep fun _ hmsg => hhandler ▸ hmsg
    | close =>
      obtain ⟨signal, hstep, rfl⟩ := Option.map_eq_some_iff.mp h
      obtain ⟨-, rfl⟩ := step_close hstep
      refine hother hstep fun msg hmsg => ?_
      cases hh : s.signal.handler with
      | erasing it pmsg => simp [close, hh, Handler.msg] at hmsg
      | idle => simp [close, hh, Handler.msg] at hmsg
      | dispatching pmsg => simpa [close, hh, Handler.msg] using hmsg
      | dangling => simp [close, hh, Handler.msg] at hmsg

/-! ### The handlers answer under the id of the request -/

theorem newConsumerRequest_id {j : Value} {req : NewConsumerRequest}
    (h : jdeserialize j = (req, none)) : req.id = member int64 "id" j := by
  have h₁ := readFields_optional_none rfl h
  have h₂ := readFields_optional_none rfl h₁
  have h₃ := readFields_optional_none rfl h₂
  cases readFields_optional_none rfl h₃
  rfl

theorem newDataConsumerRequest_id {j : Value} {req : NewDataConsumerRequest}
    (h : jdeserialize j = (req, none)) : req.id = member int64 "id" j := by
  have h₁ := readFields_optional_none rfl h
  have h₂ := readFields_optional_none rfl h₁
  have h₃ := readFields_optional_none rfl h₂
  cases readFields_optional_none rfl h₃
  rfl

/-- A text that decodes without an error is a document. -/
theorem fromJsonString_ok {α : Type} [Model α] {text : String} {a : α}
    (h : fromJsonString parse text = (a, none)) :
    ∃ j, parse (cstr text) = some j ∧ jdeserialize j = (a, none) := by
  rw [fromJsonString] at h
  split at h
  · cases h
  · rename_i j hj
    exact ⟨j, hj, h⟩

theorem requestId_eq {text : String} {j : Value} (hj : parse (cstr text) = some j) :
    requestId parse text = (member int64 "id" j).getD (-1) := by
  rw [requestId, hj, Option.bind_some]

/-- The channel with one more message to be sent, a response under this id. -/
def Answered (write : Value → String) (s s' : Session) (id : ℤ) : Prop :=
  ∃ m r, s'.signal.accepted = s.signal.accepted ++ [m] ∧
    s'.signal.sendList = s.signal.sendList.insert m.id m ∧
    m.json = BasicResponse.toJsonStr write r ∧ r.response = some true ∧ r.id = some id ∧
    r.ok = some true

/-- `on_new_consumer` returns exactly when the request fits, and then it has answered. -/
theorem onNewConsumer_fits {s : Session} {text : String} (hfit : NewConsumerFits parse text) :
    ∃ s', onNewConsumer parse write s text = .returned s' ∧
      Answered write s s' (requestId parse text) := by
  obtain ⟨req, data, hdec, hdata⟩ := hfit
  obtain ⟨j, hj, hreq⟩ := fromJsonString_ok hdec
  simp only [onNewConsumer, hdec, hdata]
  refine ⟨_, rfl, _, _, rfl, rfl, rfl, rfl, ?_, rfl⟩
  rw [requestId_eq hj, ← newConsumerRequest_id hreq]

theorem newConsumerFits_of_returned {s s' : Session} {text : String}
    (h : onNewConsumer parse write s text = .returned s') : NewConsumerFits parse text := by
  unfold onNewConsumer at h
  split at h
  · cases h
  · rename_i req hdec
    split at h
    · cases h
    · rename_i data hdata
      exact ⟨req, data, hdec, hdata⟩

/-- The same for `on_new_data_consumer`. -/
theorem onNewDataConsumer_fits {s : Session} {text : String}
    (hfit : NewDataConsumerFits parse text) :
    ∃ s', onNewDataConsumer parse write s text = .returned s' ∧
      Answered write s s' (requestId parse text) := by
  obtain ⟨req, data, params, hdec, hdata, hprot, hparams, hstream⟩ := hfit
  obtain ⟨j, hj, hreq⟩ := fromJsonString_ok hdec
  obtain ⟨protocol, hprot⟩ := Option.isSome_iff_exists.mp hprot
  obtain ⟨streamId, hstream⟩ := Option.isSome_iff_exists.mp hstream
  simp only [onNewDataConsumer, hdec, hdata, hprot, hparams, hstream]
  refine ⟨_, rfl, _, _, rfl, rfl, rfl, rfl, ?_, rfl⟩
  rw [requestId_eq hj, ← newDataConsumerRequest_id hreq]

theorem newDataConsumerFits_of_returned {s s' : Session} {text : String}
    (h : onNewDataConsumer parse write s text = .returned s') : NewDataConsumerFits parse text := by
  unfold onNewDataConsumer at h
  split at h
  · cases h
  rename_i req hdec
  split at h
  · cases h
  rename_i data hdata
  simp only at h
  split at h
  · cases h
  · cases h
  rename_i protocol params hprot hparams
  split at h
  · cases h
  rename_i streamId hstream
  exact ⟨req, data, params, hdec, hdata, by rw [hprot]; rfl, hparams, by rw [hstream]; rfl⟩

theorem onRecvRequest_methodHandleList (msg : MSMessage) :
    onRecvRequest methodHandleList msg =
      if msg.method = "newDataConsumer" then some .onNewDataConsumer
      else if msg.method = "newConsumer" then some .onNewConsumer else none := by
  simp only [onRecvRequest, methodHandleList, StdMap.get_insert, StdMap.get_empty]

theorem answered_of_fits {s : Session} {msg : MSMessage} (htype : msg.msgType = .request)
    (hfit : Fits parse msg.method msg.json) :
    ∃ s', onRecvMsg parse write s msg = .returned s' ∧
      Answered write s s' (requestId parse msg.json) := by
  simp only [onRecvMsg, htype, onRecvRequest_methodHandleList]
  rcases hfit with ⟨hm, hfit⟩ | ⟨hm, hfit⟩
  · obtain ⟨s', hret, hanswered⟩ := @onNewConsumer_fits parse write s msg.json hfit
    refine ⟨s', ?_, hanswered⟩
    rw [if_neg (by rw [hm]; decide), if_pos hm]
    exact hret
  · obtain ⟨s', hret, hanswered⟩ := @onNewDataConsumer_fits parse write s msg.json hfit
    refine ⟨s', ?_, hanswered⟩
    rw [if_pos hm]
    exact hret

/-- A request that is of neither method sends nothing. -/
theorem fits_of_returned {s s' : Session} {msg : MSMessage} (htype : msg.msgType = .request)
    (hret : onRecvMsg parse write s msg = .returned s')
    (hsent : s'.signal.accepted ≠ s.signal.accepted) : Fits parse msg.method msg.json := by
  simp only [onRecvMsg, htype, onRecvRequest_methodHandleList] at hret
  split_ifs at hret with hdata hcons
  · exact Or.inr ⟨hdata, newDataConsumerFits_of_returned hret⟩
  · exact Or.inl ⟨hcons, newConsumerFits_of_returned hret⟩
  · cases hret
    exact absurd rfl hsent

/-! ### The discipline -/

/-- One message that is handed on. -/
theorem disciplined_dispatch {s : Session} {c : Option Session} (ht : Tracked parse (some s))
    (h : (control parse write).step (some s) .dispatch = some c) :
    Disciplined parse write (some s) .dispatch ↔ Answerable parse (some s) .dispatch := by
  obtain ⟨msg, hmsg, hcase⟩ := step_control_dispatch h
  obtain ⟨htype, hmethod⟩ := ht msg (congrArg Handler.msg hmsg)
  have hone : ∀ msg', s.signal.handler = .dispatching msg' → msg' = msg := fun msg' hmsg' =>
    Handler.dispatching.inj (hmsg'.symm.trans hmsg)
  have hstepped : ∀ {s'}, (control parse write).step (some s) .dispatch = some (some s') →
      onRecvMsg parse write { s with signal := { s.signal with
        handler := .idle, dispatched := s.signal.dispatched ++ [msg] } } msg = .returned s' := by
    intro s' hstep
    rw [h] at hstep
    obtain rfl := Option.some.inj hstep
    rcases hcase with ⟨hnone, -⟩ | ⟨s'', heq, hret⟩
    · cases hnone
    · cases heq
      exact hret
  have hreturned : ∀ {s'}, onRecvMsg parse write { s with signal := { s.signal with
      handler := .idle, dispatched := s.signal.dispatched ++ [msg] } } msg = .returned s' →
      (control parse write).step (some s) .dispatch = some (some s') := by
    intro s' hret
    rcases hcase with ⟨-, hnot⟩ | ⟨s'', rfl, hret'⟩
    · exact absurd hret (hnot s')
    · cases hret'.symm.trans hret
      exact h
  have hall : (∀ {P : MSMessage → Prop}, (∀ msg', s.signal.handler = .dispatching msg' → P msg') ↔
      P msg) := ⟨fun hP => hP msg hmsg, fun hP msg' hmsg' => hone msg' hmsg' ▸ hP⟩
  simp only [Disciplined, Answerable]
  rw [hall, hall, ← htype, ← hmethod]
  cases hkind : msg.msgType with
  | request =>
    simp only
    constructor
    · rintro ⟨s', m, r, hstep, haccepted, -⟩
      refine fits_of_returned hkind (hstepped hstep) fun heq => ?_
      have hlength := congrArg List.length (haccepted.symm.trans heq)
      simp only [List.length_append, List.length_singleton] at hlength
      omega
    · intro hfit
      obtain ⟨s', hret, m, r, haccepted, hsend, hjson, hresponse, hid, hok⟩ :=
        answered_of_fits (s := { s with signal := { s.signal with
          handler := .idle, dispatched := s.signal.dispatched ++ [msg] } }) hkind hfit
      exact ⟨s', m, r, hreturned hret, haccepted, hsend, hjson, hresponse, hid,
        fun hnot => absurd hok hnot⟩
  | notify =>
    simp only
    have hnotify : (∃ s', onRecvMsg parse write { s with signal := { s.signal with
        handler := .idle, dispatched := s.signal.dispatched ++ [msg] } } msg = .returned s') ↔
        ¬ (msg.method = "mediasoup-version" ∧ s.control.promise = some true) := by
      simp only [onRecvMsg, hkind, onRecvNotify]
      constructor
      · rintro ⟨s', hret⟩ ⟨hm, hp⟩
        rw [if_pos ⟨by rw [hp]; rfl, hm⟩, if_pos hp] at hret
        cases hret
      · intro hn
        split_ifs with hver hset
        · exact absurd ⟨hver.2, hset⟩ hn
        · exact ⟨_, rfl⟩
        · exact ⟨_, rfl⟩
    rw [← hnotify]
    exact ⟨fun ⟨s', hstep⟩ => ⟨s', hstepped hstep⟩, fun ⟨s', hret⟩ => ⟨s', hreturned hret⟩⟩
  | response => exact Iff.rfl
  | unknow => exact Iff.rfl

theorem disciplined_iff {c c' : Option Session} {l : Label} (ht : Tracked parse c)
    (h : (control parse write).step c l = some c') :
    Disciplined parse write c l ↔ Answerable parse c l := by
  cases c with
  | none => cases h
  | some s =>
    cases l with
    | dispatch => exact disciplined_dispatch ht h
    | _ => exact Iff.rfl

/-- CORRECT: along any interleaving every request is answered once and under its id, and nothing
    escapes, exactly when every request fits the method that it is handled under, and
    `mediasoup-version` is notified once. -/
theorem requests_answered (s : Control) (ls : List Label) :
    (control parse write).Along (Disciplined parse write) (some { control := s }) ls ↔
      (control parse write).Along (Answerable parse) (some { control := s }) ls :=
  (control parse write).along_iff_along (Tracked parse) (fun _ _ _ ht h => tracked_step ht h)
    (fun _ _ _ ht h => disciplined_iff ht h) ls _ fun _ hmsg => by cases hmsg

/-- A request of a method that nobody handles is never answered. -/
theorem request_unanswered : ¬ (control frames fun _ => "").Along
    (Disciplined frames fun _ => "") (some {}) [.recv joinRequest, .dispatch] := by
  intro hal
  rw [Lts.along_cons _ rfl, Lts.along_cons _ rfl] at hal
  obtain ⟨s', m, r, hstep, haccepted, -⟩ := hal.2.1 _ rfl
  cases hstep
  cases haccepted

end MediasoupClient.Signaling
