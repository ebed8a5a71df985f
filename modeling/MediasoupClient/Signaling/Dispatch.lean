import MediasoupClient.Signaling.MSSignal
import Mathlib.Tactic.Common

/-! Under which method an inbound request or notification is dispatched.

    `on_recv_request` and `on_recv_notify` go by the `method` of the message they are handed, and
    `on_text_message` takes that from the frame or, when an entry is left in `ack_list_` under the
    id of the frame, from the entry:

        frame {request, id: k, method: m}
          ack_list_[k] = req   ──▶  on_recv_request (method: req.method)
          nothing under k      ──▶  on_recv_request (method: m)

    The client's own replies are put into `ack_list_` too, with an empty method. -/

namespace MediasoupClient.Signaling
open Lib
variable {parse : String → Option Value}

/-- A flag of a document: present and true. -/
def Value.flag (name : String) (j : Value) : Bool :=
  match j.findMember name with
  | some (.bool b) => b
  | _ => false

/-- The document is a server request, or a notification, of method `m`. -/
def Calls (j : Value) (m : String) : MSGTYPE → Prop
  | .request => j.findMember "method" = some (.string m) ∧ j.flag "request" = true
  | .notify => j.findMember "method" = some (.string m) ∧ j.flag "notification" = true ∧
      j.flag "request" = false ∧ j.flag "response" = false
  | _ => False

/-- `on_recv_request`: the handler registered under the method of the message. -/
def onRecvRequest {β : Type} (methodHandleList : StdMap String β) (msg : MSMessage) : Option β :=
  methodHandleList.get msg.method

/-- The message of a frame that calls `m` is routed by the kind of the frame, carries `m`, and runs
    the handler registered for `m`. -/
def OwnMethod (parse : String → Option Value) (msg : MSMessage) : Prop :=
  ∀ j m kind, parse (cstr msg.json) = some j → Calls j m kind →
    msg.msgType = kind ∧ msg.method = m ∧
      ∀ (β : Type) (methodHandleList : StdMap String β),
        onRecvRequest methodHandleList msg = methodHandleList.get m

/-- Every message handed to `on_recv_msg`, or about to be, goes under its own method. -/
def OwnDispatch (parse : String → Option Value) (s : State) : Prop :=
  ∀ msg, s.handler.msg = some msg ∨ msg ∈ s.dispatched → OwnMethod parse msg

/-- The header decodes to the kind of the frame, and the method left under its id in `ack_list_`,
    or else the decoded one, is the method of the frame. -/
def MethodKept (parse : String → Option Value) (s : State) : Label → Prop
  | .recv text => ∀ j m kind, parse (cstr text) = some j → Calls j m kind →
    (header parse text).msgType = kind ∧
      ((s.ackList.get (messageFromJson parse text).id).map (·.method)).getD
        (messageFromJson parse text).method = m
  | _ => True

/-- A flag is true exactly when the member decodes to `true`. -/
theorem member_flag (name : String) (j : Value) :
    member bool name j = some true ↔ j.flag name = true := by
  cases h : j.findMember name with
  | none => simp [member, Value.flag, h]
  | some v => cases v <;> simp [member, Value.flag, h, bool, Except.toOption]

/-- What the header says when decoding got as far as the method. -/
theorem header_of_method {j : Value} {m : String}
    (h : (jdeserialize j : CommonHeader × Option JsonError).1.method = some m) :
    ∃ ok, (jdeserialize j : CommonHeader × Option JsonError).1 =
        { request := member bool "request" j, response := member bool "response" j,
          notification := member bool "notification" j, id := member int64 "id" j,
          method := some m, ok := ok } ∧ member string "method" j = some m := by
  simp only [jdeserialize, Model.fields, Model.init, readFields] at h ⊢
  split at h
  · cases h
  rename_i a₁ h₁
  obtain rfl := optional_eq_set rfl h₁
  split at h
  · cases h
  rename_i a₂ h₂
  obtain rfl := optional_eq_set rfl h₂
  split at h
  · cases h
  rename_i a₃ h₃
  obtain rfl := optional_eq_set rfl h₃
  split at h
  · cases h
  rename_i a₄ h₄
  obtain rfl := optional_eq_set rfl h₄
  split at h
  · cases h
  rename_i a₅ h₅
  obtain rfl := optional_eq_set rfl h₅
  simp only at h ⊢
  split at h
  · exact ⟨none, by rw [← h], h⟩
  · rename_i a₆ h₆
    obtain rfl := optional_eq_set rfl h₆
    exact ⟨_, by rw [← h], h⟩

/-- The message on_text_message makes of a frame. -/
theorem onTextMessage_msg (s : State) (text : String) :
    ∃ msg, (onTextMessage parse s text).handler.msg = some msg ∧ msg.json = text ∧
      msg.msgType = (header parse text).msgType ∧
      msg.method = ((s.ackList.get (messageFromJson parse text).id).map (·.method)).getD
        (messageFromJson parse text).method := by
  unfold onTextMessage
  simp only
  split
  · rename_i req h
    rw [h]
    exact ⟨_, rfl, rfl, rfl, rfl⟩
  · rename_i h
    rw [h]
    exact ⟨_, rfl, rfl, rfl, rfl⟩

/-- A step that hands on no new message. -/
theorem OwnDispatch.keep {s s' : State} (ho : OwnDispatch parse s)
    (h : ∀ msg, s'.handler.msg = some msg ∨ msg ∈ s'.dispatched →
      s.handler.msg = some msg ∨ msg ∈ s.dispatched) : OwnDispatch parse s' :=
  fun msg hmsg => ho msg (h msg hmsg)

/-- A frame goes under its own method exactly when nothing left in `ack_list_` changes it. -/
theorem ownDispatch_recv {s : State} (ho : OwnDispatch parse s) (text : String) :
    OwnDispatch parse (onTextMessage parse s text) ↔ MethodKept parse s (.recv text) := by
  obtain ⟨msg, hmsg, hjson, htype, hmethod⟩ := @onTextMessage_msg parse s text
  have hone : OwnDispatch parse (onTextMessage parse s text) ↔ OwnMethod parse msg := by
    constructor
    · exact fun ho' => ho' msg (Or.inl hmsg)
    · rintro hown msg' (hh | hd)
      · obtain rfl := Option.some.inj (hmsg.symm.trans hh)
        exact hown
      · rw [onTextMessage_dispatched] at hd
        exact ho msg' (Or.inr hd)
  rw [hone, OwnMethod, MethodKept, hjson, ← htype, ← hmethod]
  constructor
  · intro hown j m kind hj hc
    obtain ⟨hk, hm, _⟩ := hown j m kind hj hc
    exact ⟨hk, hm⟩
  · intro hkept j m kind hj hc
    obtain ⟨hk, hm⟩ := hkept j m kind hj hc
    exact ⟨hk, hm, fun β hl => by rw [onRecvRequest, hm]⟩

theorem ownDispatch_step {s s' : State} {l : Label} (ho : OwnDispatch parse s)
    (h : step parse s l = some s') : OwnDispatch parse s' ↔ MethodKept parse s l := by
  cases l with
  | send msg =>
    obtain ⟨_, rfl⟩ := step_send h
    exact iff_of_true (ho.keep fun _ hm => hm) trivial
  | sendRequest request =>
    obtain ⟨_, rfl⟩ := step_sendRequest h
    exact iff_of_true (ho.keep fun _ hm => hm) trivial
  | getMsg key =>
    obtain ⟨_, pmsg, _, rfl⟩ := step_getMsg h
    exact iff_of_true (ho.keep fun _ hm => hm) trivial
  | sendText =>
    obtain ⟨pmsg, _, rfl⟩ := step_sendText h
    exact iff_of_true (ho.keep fun _ hm => hm) trivial
  | register =>
    obtain ⟨pmsg, _, rfl⟩ := step_register h
    exact iff_of_true (ho.keep fun _ hm => hm) trivial
  | recv text =>
    obtain ⟨_, rfl⟩ := step_recv h
    exact ownDispatch_recv ho text
  | erase =>
    obtain ⟨it, pmsg, hg, rfl⟩ := step_erase h
    refine iff_of_true (ho.keep fun msg hm => ?_) trivial
    rw [hg]
    exact hm
  | dispatch =>
    obtain ⟨pmsg, hg, rfl⟩ := step_dispatch h
    refine iff_of_true (ho.keep fun msg hm => ?_) trivial
    rw [hg]
    rcases hm with hm | hm
    · cases hm
    · rcases List.mem_append.mp hm with hold | hnew
      · exact Or.inr hold
      · exact Or.inl (congrArg some (List.mem_singleton.mp hnew).symm)
  | close =>
    obtain ⟨_, rfl⟩ := step_close h
    refine iff_of_true (ho.keep fun msg hm => ?_) trivial
    rcases hm with hm | hm
    · left
      cases hh : s.handler with
      | erasing it pmsg => simp [close, hh, Handler.msg] at hm
      | idle => simp [close, hh, Handler.msg] at hm
      | dispatching pmsg => simpa [close, hh, Handler.msg] using hm
      | dangling => simp [close, hh, Handler.msg] at hm
    · exact Or.inr hm

/-- A frame whose header decodes as far as the method keeps it when nothing is left under its
    id. -/
theorem methodKept_of_fresh {s : State} {text : String} {m : String}
    (hm : (header parse text).method = some m)
    (hnone : s.ackList.get (messageFromJson parse text).id = none)
    (hnul : ∀ j m', parse (cstr text) = some j → j.findMember "method" = some (.string m') →
      cstr m' = m') : MethodKept parse s (.recv text) := by
  intro j m' kind hj hc
  have hh : header parse text = (jdeserialize j : CommonHeader × Option JsonError).1 := by
    rw [header, fromJsonString, hj]
  rw [hh] at hm
  obtain ⟨ok, hfields, hmem⟩ := header_of_method hm
  have hmethod : j.findMember "method" = some (.string m') := by
    cases kind with
    | request => exact hc.1
    | notify => exact hc.1
    | unknow => exact hc.elim
    | response => exact hc.elim
  have hm' : m = m' := by
    rw [member, hmethod] at hmem
    exact (Option.some.inj hmem).symm.trans (hnul j m' hj hmethod)
  refine ⟨?_, ?_⟩
  · rw [hh, hfields, CommonHeader.msgType]
    simp only [member_flag]
    cases kind with
    | request => rw [if_pos hc.2]
    | notify =>
      obtain ⟨_, hn, hreq, hresp⟩ := hc
      rw [if_neg (by simp [hreq]), if_neg (by simp [hresp]), if_pos hn]
    | unknow => exact hc.elim
    | response => exact hc.elim
  · rw [hnone, Option.map_none, Option.getD_none, messageFromJson, hh, hfields]
    exact hm'

/-- CORRECT: along any interleaving requests and notifications are dispatched under their own
    method exactly when no frame finds an entry of another method under its id. -/
theorem dispatched_under_own_method (ls : List Label) :
    (signal parse).Always (OwnDispatch parse) State.init ls ↔
      (signal parse).Along (MethodKept parse) State.init ls :=
  (signal parse).always_iff_along (fun _ => True) (fun _ _ _ _ _ => trivial)
    (fun _ _ _ _ ho h => ownDispatch_step ho h) ls State.init trivial
    (fun msg hm => by rcases hm with hm | hm <;> cases hm)

/-- A server request under the id of a client request is dispatched under the client's method. -/
theorem dispatched_under_other_method : ¬ (signal frames).Always (OwnDispatch frames) State.init
    [.sendRequest produceRequest, .getMsg 1, .sendText, .register, .recv newConsumerRequest] := by
  intro hal
  obtain ⟨_, hm, _⟩ := (signal frames).always_exec hal rfl _ (Or.inl rfl) _ "newConsumer" .request
    rfl ⟨rfl, rfl⟩
  exact absurd hm (by decide)

end MediasoupClient.Signaling
