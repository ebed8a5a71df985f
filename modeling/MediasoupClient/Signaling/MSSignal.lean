import MediasoupClient.Lib.Lts
import MediasoupClient.Signaling.Models

/-! The signaling channel MSSignal (mssignal/mssignal.cpp) as a transition system.

    Any number of callers put messages into `send_list_`, the sender thread (`ThreadProc`) moves
    them over the socket into `ack_list_`, and the network thread (`on_text_message`) matches
    inbound text frames against `ack_list_`. One label is one access of the shared lists, so a run
    is an interleaving of the three parties.

        callers      send / sendRequest ──▶ send_list_
        sender       getMsg k ──▶ sendText ──▶ register            (under mutex_)
        network      recv text ──▶ erase ──▶ dispatch              (not under mutex_)

    `mutex_` is held by the sender thread from `getMsg` to `register`; `send` and `close` take it
    and so wait for the sender to be idle. The iteration order of an `unordered_map` is arbitrary:
    `getMsg k` takes the entry of any key `k`. -/

namespace MediasoupClient.Signaling
open Lib

/-- `MSMessage`. A promise is named by the order in which the promises were created. No caller
    passes a callback, so `func` is left out. -/
structure MSMessage where
  id : ℤ
  method : String
  msgType : MSGTYPE
  json : String
  msgPromise : Option ℕ := none
  deriving DecidableEq, Repr

/-- Where the sender thread is in `ThreadProc`: before `get_msg`, before `send_text`, or before
    the insertion into `ack_list_`. -/
inductive Sender where
  | idle
  | got (pmsg : MSMessage)
  | sent (pmsg : MSMessage)
  deriving DecidableEq, Repr

/-- The local message of the sender thread. -/
def Sender.msg : Sender → Option MSMessage
  | .idle => none
  | .got pmsg => some pmsg
  | .sent pmsg => some pmsg

/-- Where the network thread is in `on_text_message`: `erasing it pmsg` is between the lookup and
    `ack_list_.erase(it)`, `dispatching pmsg` before `on_recv_msg`. A `close` in between clears the
    list under the iterator: `dangling`, from where the behaviour is undefined. -/
inductive Handler where
  | idle
  | erasing (it : ℤ) (pmsg : MSMessage)
  | dispatching (pmsg : MSMessage)
  | dangling
  deriving DecidableEq, Repr

/-- The message the network thread is working on. -/
def Handler.msg : Handler → Option MSMessage
  | .erasing _ pmsg => some pmsg
  | .dispatching pmsg => some pmsg
  | _ => none

/-- The shared state, and a record of what happened: the `set_value` calls, the messages accepted
    by `send`, those handed to `send_text`, the inbound frames and the messages dispatched. -/
structure State where
  sendList : StdMap ℤ MSMessage := .empty
  ackList : StdMap ℤ MSMessage := .empty
  sender : Sender := .idle
  handler : Handler := .idle
  promises : ℕ := 0
  fulfilled : List (ℕ × String) := []
  accepted : List MSMessage := []
  sent : List MSMessage := []
  inbound : List String := []
  dispatched : List MSMessage := []

/-- Nothing sent, nothing received. -/
def State.init : State := {}

inductive Label where
  | send (msg : String)
  | sendRequest (request : String)
  | getMsg (key : ℤ)
  | sendText
  | register
  | recv (text : String)
  | erase
  | dispatch
  | close
  deriving DecidableEq, Repr

section
variable (parse : String → Option Value)

/-- The common header of a text, as far as it decodes. -/
def header (json : String) : CommonHeader := (fromJsonString parse json).1

/-- `message_from_json`. -/
def messageFromJson (json : String) : MSMessage where
  id := (header parse json).id.getD (-1)
  method := (header parse json).method.getD ""
  msgType := (header parse json).msgType
  json := json

/-- `send(request, msg_promise)`: store under the id, over whatever waits there. -/
def send (s : State) (request : String) (msgPromise : Option ℕ) : State :=
  let pmsg := { messageFromJson parse request with msgPromise := msgPromise }
  { s with
    sendList := s.sendList.insert pmsg.id pmsg
    accepted := s.accepted ++ [pmsg] }

/-- `send_request_and_recv_response` up to `future.get()`, with a new promise. -/
def sendRequest (s : State) (request : String) : State :=
  send parse { s with promises := s.promises + 1 } request (some s.promises)

/-- The insertion of the transmitted message into `ack_list_`. -/
def registerAck (s : State) (pmsg : MSMessage) : State :=
  { s with
    sender := .idle
    ackList := if pmsg.id ≠ 0 then s.ackList.insert pmsg.id pmsg else s.ackList }

/-- `on_text_message` up to `ack_list_.erase(it)`: an entry under the id of the frame gives it its
    method and its promise, and the promise is set to the text. -/
def onTextMessage (s : State) (text : String) : State :=
  let pmsg := messageFromJson parse text
  match s.ackList.get pmsg.id with
  | some req =>
    { s with
      inbound := s.inbound ++ [text]
      fulfilled := s.fulfilled ++ (req.msgPromise.map fun n => (n, text)).toList
      handler := .erasing pmsg.id { pmsg with method := req.method, msgPromise := req.msgPromise } }
  | none => { s with inbound := s.inbound ++ [text], handler := .dispatching pmsg }

/-- `close`. -/
def close (s : State) : State :=
  { s with
    sendList := .empty
    ackList := .empty
    handler := match s.handler with
      | .erasing _ _ => .dangling
      | h => h }

/-- One step of one party. -/
def step (s : State) : Label → Option State
  | .send msg => if s.sender = .idle then some (send parse s msg none) else none
  | .sendRequest request => if s.sender = .idle then some (sendRequest parse s request) else none
  | .getMsg key =>
    match s.sender, s.sendList.get key with
    | .idle, some pmsg => some { s with sendList := s.sendList.erase key, sender := .got pmsg }
    | _, _ => none
  | .sendText =>
    match s.sender with
    | .got pmsg => some { s with sender := .sent pmsg, sent := s.sent ++ [pmsg] }
    | _ => none
  | .register =>
    match s.sender with
    | .sent pmsg => some (registerAck s pmsg)
    | _ => none
  | .recv text => if s.handler = .idle then some (onTextMessage parse s text) else none
  | .erase =>
    match s.handler with
    | .erasing it pmsg =>
      some { s with ackList := s.ackList.erase it, handler := .dispatching pmsg }
    | _ => none
  | .dispatch =>
    match s.handler with
    | .dispatching pmsg => some { s with handler := .idle, dispatched := s.dispatched ++ [pmsg] }
    | _ => none
  | .close => if s.sender = .idle then some (close s) else none

/-- MSSignal with its callers, its sender thread and its network thread. -/
def signal : Lts State Label := ⟨step parse⟩

end

/-! ### A few frames

The texts and documents of the runs on concrete input below. -/

def joinRequest : String := "\x7b\"request\":true,\"id\":0,\"method\":\"join\"\x7d"

def produceRequest : String := "\x7b\"request\":true,\"id\":1,\"method\":\"produce\"\x7d"

def produceResponse : String := "\x7b\"response\":true,\"id\":1,\"ok\":true\x7d"

/-- A server request under the id of the client's own one. -/
def newConsumerRequest : String := "\x7b\"request\":true,\"id\":1,\"method\":\"newConsumer\"\x7d"

def frames (text : String) : Option Value :=
  Lib.get text [
    (joinRequest, .object [("request", .bool true), ("id", .int 0), ("method", .string "join")]),
    (produceRequest,
      .object [("request", .bool true), ("id", .int 1), ("method", .string "produce")]),
    (produceResponse, .object [("response", .bool true), ("id", .int 1), ("ok", .bool true)]),
    (newConsumerRequest,
      .object [("request", .bool true), ("id", .int 1), ("method", .string "newConsumer")])]

/-! ### What a step says about the state before it -/

variable {parse : String → Option Value}

theorem step_send {s s' : State} {msg : String} (h : step parse s (.send msg) = some s') :
    s.sender = .idle ∧ s' = send parse s msg none := by
  simp only [step] at h
  split_ifs at h with hi
  exact ⟨hi, (Option.some.inj h).symm⟩

theorem step_sendRequest {s s' : State} {request : String}
    (h : step parse s (.sendRequest request) = some s') :
    s.sender = .idle ∧ s' = sendRequest parse s request := by
  simp only [step] at h
  split_ifs at h with hi
  exact ⟨hi, (Option.some.inj h).symm⟩

theorem step_getMsg {s s' : State} {key : ℤ} (h : step parse s (.getMsg key) = some s') :
    s.sender = .idle ∧ ∃ pmsg, s.sendList.get key = some pmsg ∧
      s' = { s with sendList := s.sendList.erase key, sender := .got pmsg } := by
  simp only [step] at h
  split at h
  · rename_i pmsg hi hk
    exact ⟨hi, pmsg, hk, (Option.some.inj h).symm⟩
  · cases h

theorem step_sendText {s s' : State} (h : step parse s .sendText = some s') :
    ∃ pmsg, s.sender = .got pmsg ∧
      s' = { s with sender := .sent pmsg, sent := s.sent ++ [pmsg] } := by
  simp only [step] at h
  split at h
  · rename_i pmsg hg
    exact ⟨pmsg, hg, (Option.some.inj h).symm⟩
  · cases h

theorem step_register {s s' : State} (h : step parse s .register = some s') :
    ∃ pmsg, s.sender = .sent pmsg ∧ s' = registerAck s pmsg := by
  simp only [step] at h
  split at h
  · rename_i pmsg hg
    exact ⟨pmsg, hg, (Option.some.inj h).symm⟩
  · cases h

theorem step_recv {s s' : State} {text : String} (h : step parse s (.recv text) = some s') :
    s.handler = .idle ∧ s' = onTextMessage parse s text := by
  simp only [step] at h
  split_ifs at h with hi
  exact ⟨hi, (Option.some.inj h).symm⟩

theorem step_erase {s s' : State} (h : step parse s .erase = some s') :
    ∃ it pmsg, s.handler = .erasing it pmsg ∧
      s' = { s with ackList := s.ackList.erase it, handler := .dispatching pmsg } := by
  simp only [step] at h
  split at h
  · rename_i it pmsg hg
    exact ⟨it, pmsg, hg, (Option.some.inj h).symm⟩
  · cases h

theorem step_dispatch {s s' : State} (h : step parse s .dispatch = some s') :
    ∃ pmsg, s.handler = .dispatching pmsg ∧
      s' = { s with handler := .idle, dispatched := s.dispatched ++ [pmsg] } := by
  simp only [step] at h
  split at h
  · rename_i pmsg hg
    exact ⟨pmsg, hg, (Option.some.inj h).symm⟩
  · cases h

theorem step_close {s s' : State} (h : step parse s .close = some s') :
    s.sender = .idle ∧ s' = close s := by
  simp only [step] at h
  split_ifs at h with hi
  exact ⟨hi, (Option.some.inj h).symm⟩

/-! ### What a frame changes

The record of frames, the promises and the local state of the network thread, nothing else. -/

@[simp] theorem onTextMessage_sendList (s : State) (text : String) :
    (onTextMessage parse s text).sendList = s.sendList := by
  unfold onTextMessage; simp only; split <;> rfl

@[simp] theorem onTextMessage_ackList (s : State) (text : String) :
    (onTextMessage parse s text).ackList = s.ackList := by
  unfold onTextMessage; simp only; split <;> rfl

@[simp] theorem onTextMessage_sender (s : State) (text : String) :
    (onTextMessage parse s text).sender = s.sender := by
  unfold onTextMessage; simp only; split <;> rfl

@[simp] theorem onTextMessage_promises (s : State) (text : String) :
    (onTextMessage parse s text).promises = s.promises := by
  unfold onTextMessage; simp only; split <;> rfl

@[simp] theorem onTextMessage_accepted (s : State) (text : String) :
    (onTextMessage parse s text).accepted = s.accepted := by
  unfold onTextMessage; simp only; split <;> rfl

@[simp] theorem onTextMessage_sent (s : State) (text : String) :
    (onTextMessage parse s text).sent = s.sent := by
  unfold onTextMessage; simp only; split <;> rfl

@[simp] theorem onTextMessage_dispatched (s : State) (text : String) :
    (onTextMessage parse s text).dispatched = s.dispatched := by
  unfold onTextMessage; simp only; split <;> rfl

@[simp] theorem onTextMessage_inbound (s : State) (text : String) :
    (onTextMessage parse s text).inbound = s.inbound ++ [text] := by
  unfold onTextMessage; simp only; split <;> rfl

/-- A frame sets the promise of the entry it hits, if there is one. -/
theorem onTextMessage_fulfilled (s : State) (text : String) :
    (onTextMessage parse s text).fulfilled = s.fulfilled ++
      (((s.ackList.get (messageFromJson parse text).id).bind (·.msgPromise)).map
        fun n => (n, text)).toList := by
  unfold onTextMessage
  simp only
  split
  · rename_i req h; rw [h]; rfl
  · rename_i h; rw [h]; simp

end MediasoupClient.Signaling
