import MediasoupClient.Signaling.MSSignal
import Mathlib.Tactic.Common

/-! Callers blocked in `send_request_and_recv_response`.

    A message can be in three places: in `send_list_`, with the sender thread, in `ack_list_`. A
    step moves it from one place to the next, so a promise is in at most one of them (`Inv.uniq`),
    and once it is set only in the entry the network thread is about to erase (`Inv.done`).

        send_list_[k] ──getMsg──▶ thread ──register──▶ ack_list_[k] ──recv, erase──▶ gone

    `NoOrphan` says that no blocked caller's message is lost. It holds along a run exactly when no
    step writes over, drops or clears a message somebody waits for (`KeepsWaiters`). -/

namespace MediasoupClient.Signaling
open Lib
variable {parse : String → Option Value}

/-- Where a message can be. -/
inductive Loc where
  | queue (key : ℤ)
  | thread
  | ack (key : ℤ)
  deriving DecidableEq, Repr

/-- The key an entry sits under. -/
def Loc.key : Loc → Option ℤ
  | .queue key => some key
  | .thread => none
  | .ack key => some key

/-- The message in a place. -/
def State.at (s : State) : Loc → Option MSMessage
  | .queue key => s.sendList.get key
  | .thread => s.sender.msg
  | .ack key => s.ackList.get key

/-- What every reachable state satisfies: entries sit under the id of their message, promises are
    numbered below `promises` and owned by one accepted message that is in at most one place, and
    a promise is set at most once. -/
structure Inv (s : State) : Prop where
  keyed : ∀ l m k, s.at l = some m → l.key = some k → m.id = k
  acc : ∀ l m, s.at l = some m → m ∈ s.accepted
  bound : ∀ m ∈ s.accepted, ∀ n, m.msgPromise = some n → n < s.promises
  owner : ∀ m ∈ s.accepted, ∀ m' ∈ s.accepted, ∀ n, m.msgPromise = some n →
    m'.msgPromise = some n → m = m'
  uniq : ∀ l l' m m' n, s.at l = some m → s.at l' = some m' → m.msgPromise = some n →
    m'.msgPromise = some n → l = l'
  known : ∀ n t, (n, t) ∈ s.fulfilled → n < s.promises
  done : ∀ l m n t, s.at l = some m → m.msgPromise = some n → (n, t) ∈ s.fulfilled →
    ∃ pmsg, l = .ack m.id ∧ s.handler = .erasing m.id pmsg
  once : (s.fulfilled.map Prod.fst).Nodup

/-! ### Where the messages are after a step -/

theorem at_init (l : Loc) : State.init.at l = none := by cases l <;> rfl

theorem at_send (s : State) (r : String) (p : Option ℕ) (l : Loc) :
    (send parse s r p).at l =
      if l = .queue (messageFromJson parse r).id
      then some { messageFromJson parse r with msgPromise := p } else s.at l := by
  cases l <;> simp [send, State.at, StdMap.get_insert]

theorem at_getMsg (s : State) (key : ℤ) (pmsg : MSMessage) (l : Loc) :
    ({ s with sendList := s.sendList.erase key, sender := .got pmsg } : State).at l =
      if l = .thread then some pmsg else if l = .queue key then none else s.at l := by
  cases l <;> simp [State.at, StdMap.get_erase, Sender.msg]

theorem at_registerAck (s : State) (pmsg : MSMessage) (l : Loc) :
    (registerAck s pmsg).at l =
      if l = .thread then none
      else if l = .ack pmsg.id ∧ pmsg.id ≠ 0 then some pmsg else s.at l := by
  cases l with
  | queue k => rfl
  | thread => rfl
  | ack k =>
    by_cases h0 : pmsg.id = 0
    · simp [registerAck, State.at, h0]
    · simp [registerAck, State.at, h0, StdMap.get_insert]

theorem at_onTextMessage (s : State) (text : String) (l : Loc) :
    (onTextMessage parse s text).at l = s.at l := by
  unfold onTextMessage
  simp only
  split <;> cases l <;> rfl

theorem at_erase (s : State) (it : ℤ) (pmsg : MSMessage) (l : Loc) :
    ({ s with ackList := s.ackList.erase it, handler := .dispatching pmsg } : State).at l =
      if l = .ack it then none else s.at l := by
  cases l <;> simp [State.at, StdMap.get_erase]

theorem at_close (s : State) (l : Loc) :
    (close s).at l = if l = .thread then s.sender.msg else none := by
  cases l <;> simp [close, State.at]

/-! ### The invariant -/

theorem inv_init : Inv State.init where
  keyed l m k h := by rw [at_init] at h; cases h
  acc l m h := by rw [at_init] at h; cases h
  bound m hm := absurd hm List.not_mem_nil
  owner m hm := absurd hm List.not_mem_nil
  uniq l l' m m' n h := by rw [at_init] at h; cases h
  known n t h := absurd h List.not_mem_nil
  done l m n t h := by rw [at_init] at h; cases h
  once := List.nodup_nil

/-- Accepting a message whose promise, if any, is new. -/
theorem inv_send {s : State} (hs : Inv s) (r : String) (p : Option ℕ)
    (hp : ∀ n, p = some n → n < s.promises ∧ (∀ m ∈ s.accepted, m.msgPromise ≠ some n) ∧
      ∀ t, (n, t) ∉ s.fulfilled) : Inv (send parse s r p) := by
  obtain ⟨hkey, hacc, hbound, howner, huniq, hknown, hdone, honce⟩ := hs
  have hnew : (send parse s r p).accepted =
      s.accepted ++ [{ messageFromJson parse r with msgPromise := p }] := rfl
  refine ⟨?_, ?_, ?_, ?_, ?_, hknown, ?_, honce⟩
  · intro l m k; rw [at_send]; grind [Loc.key]
  · intro l m; rw [at_send, hnew]; grind
  · intro m; rw [hnew]; show _ → ∀ n, _ → n < s.promises; grind
  · intro m; rw [hnew]; grind
  · intro l l' m m' n; rw [at_send, at_send]; grind
  · intro l m n t; rw [at_send]
    show _ → _ → (n, t) ∈ s.fulfilled → ∃ pmsg, _ ∧ s.handler = _
    grind

theorem inv_sendRequest {s : State} (hs : Inv s) (r : String) : Inv (sendRequest parse s r) := by
  have hs' : Inv { s with promises := s.promises + 1 } :=
    { hs with
      bound := fun m hm n hn => Nat.lt_succ_of_lt (hs.bound m hm n hn)
      known := fun n t h => Nat.lt_succ_of_lt (hs.known n t h) }
  refine inv_send hs' r _ ?_
  rintro n hn
  cases hn
  exact ⟨Nat.lt_succ_self _, fun m hm hn => absurd (hs.bound m hm _ hn) (lt_irrefl _),
    fun t h => absurd (hs.known _ t h) (lt_irrefl _)⟩

/-- A step that only moves messages, each to a place of its own, and sets no promise. -/
theorem Inv.relocate {s s' : State} (hs : Inv s) (f : Loc → Loc)
    (hat : ∀ l m, s'.at l = some m → s.at (f l) = some m)
    (hinj : ∀ l l' m m', s'.at l = some m → s'.at l' = some m' → f l = f l' → l = l')
    (hkey : ∀ l m k, s'.at l = some m → l.key = some k → m.id = k)
    (hacc : s'.accepted = s.accepted) (hpr : s'.promises = s.promises)
    (hful : s'.fulfilled = s.fulfilled)
    (hdone : ∀ l m n t, s'.at l = some m → m.msgPromise = some n → (n, t) ∈ s.fulfilled →
      ∃ pmsg, l = .ack m.id ∧ s'.handler = .erasing m.id pmsg) : Inv s' := by
  refine ⟨hkey, ?_, ?_, ?_, ?_, ?_, ?_, ?_⟩
  · intro l m h; rw [hacc]; exact hs.acc _ m (hat l m h)
  · rw [hacc, hpr]; exact hs.bound
  · rw [hacc]; exact hs.owner
  · intro l l' m m' n h h' hn hn'
    exact hinj l l' m m' h h' (hs.uniq _ _ m m' n (hat l m h) (hat l' m' h') hn hn')
  · rw [hful, hpr]; exact hs.known
  · rw [hful]; exact hdone
  · rw [hful]; exact hs.once

/-- A step after which every place holds what it held, or nothing. -/
theorem Inv.shrink {s s' : State} (hs : Inv s)
    (hat : ∀ l m, s'.at l = some m → s.at l = some m)
    (hacc : s'.accepted = s.accepted) (hpr : s'.promises = s.promises)
    (hful : s'.fulfilled = s.fulfilled)
    (hdone : ∀ k m pmsg, s'.at (.ack k) = some m → s.handler = .erasing k pmsg →
      s'.handler = s.handler) : Inv s' := by
  refine hs.relocate id hat (fun _ _ _ _ _ _ h => h)
    (fun l m k h hk => hs.keyed l m k (hat l m h) hk) hacc hpr hful ?_
  intro l m n t h hn ht
  obtain ⟨pmsg, rfl, hh⟩ := hs.done l m n t (hat l m h) hn ht
  exact ⟨pmsg, rfl, (hdone _ m pmsg h hh).trans hh⟩

theorem inv_getMsg {s : State} (hs : Inv s) {key : ℤ} {pmsg : MSMessage}
    (hk : s.sendList.get key = some pmsg) :
    Inv { s with sendList := s.sendList.erase key, sender := .got pmsg } := by
  have hq : s.at (.queue key) = some pmsg := hk
  refine hs.relocate (fun l => if l = .thread then .queue key else l) ?_ ?_ ?_ rfl rfl rfl ?_
  · intro l m; rw [at_getMsg]; grind
  · intro l l' m m'; rw [at_getMsg, at_getMsg]; grind
  · intro l m k; rw [at_getMsg]; have := hs.keyed l m k; grind [Loc.key]
  · intro l m n t; rw [at_getMsg]
    have h₁ := hs.done (.queue key) pmsg n t hq
    have h₂ := hs.done l m n t
    show _ → _ → _ → ∃ p, _ ∧ s.handler = _
    grind

theorem inv_register {s : State} (hs : Inv s) {pmsg : MSMessage} (hi : s.sender = .sent pmsg) :
    Inv (registerAck s pmsg) := by
  have ht : s.at .thread = some pmsg := by simp [State.at, hi, Sender.msg]
  refine hs.relocate (fun l => if l = .ack pmsg.id ∧ pmsg.id ≠ 0 then .thread else l)
    ?_ ?_ ?_ rfl rfl rfl ?_
  · intro l m; rw [at_registerAck]; grind
  · intro l l' m m'; rw [at_registerAck, at_registerAck]; grind
  · intro l m k; rw [at_registerAck]; have := hs.keyed l m k; grind [Loc.key]
  · intro l m n t; rw [at_registerAck]
    have h₁ := hs.done .thread pmsg n t ht
    have h₂ := hs.done l m n t
    show _ → _ → _ → ∃ p, _ ∧ s.handler = _
    grind

theorem onTextMessage_handler {s : State} {text : String} {req : MSMessage}
    (h : s.ackList.get (messageFromJson parse text).id = some req) :
    ∃ pmsg, (onTextMessage parse s text).handler =
      .erasing (messageFromJson parse text).id pmsg := by
  simp only [onTextMessage, h]
  exact ⟨_, rfl⟩

theorem inv_recv {s : State} (hs : Inv s) (hi : s.handler = .idle) (text : String) :
    Inv (onTextMessage parse s text) := by
  have hacc : (onTextMessage parse s text).accepted = s.accepted := onTextMessage_accepted ..
  have hpr : (onTextMessage parse s text).promises = s.promises := onTextMessage_promises ..
  -- while the network thread is idle no message in place has its promise set
  have hnone : ∀ l m n t, s.at l = some m → m.msgPromise = some n → (n, t) ∉ s.fulfilled := by
    intro l m n t h hn ht
    obtain ⟨pmsg, _, hh⟩ := hs.done l m n t h hn ht
    rw [hi] at hh; cases hh
  set k := (messageFromJson parse text).id with hk
  cases hget : (s.ackList.get k).bind (·.msgPromise) with
  | none =>
    have hful : (onTextMessage parse s text).fulfilled = s.fulfilled := by
      rw [onTextMessage_fulfilled, ← hk, hget]; simp
    refine hs.relocate id (fun l m => by rw [at_onTextMessage]; exact fun h => h)
      (fun _ _ _ _ _ _ h => h) (fun l m k => by rw [at_onTextMessage]; exact hs.keyed l m k)
      hacc hpr hful (fun l m n t h hn ht => ?_)
    rw [at_onTextMessage] at h
    exact absurd ht (hnone l m n t h hn)
  | some n =>
    obtain ⟨req, hreq, hn⟩ := Option.bind_eq_some_iff.mp hget
    have hat : s.at (.ack k) = some req := hreq
    have hful : (onTextMessage parse s text).fulfilled = s.fulfilled ++ [(n, text)] := by
      rw [onTextMessage_fulfilled, ← hk, hget]; rfl
    refine ⟨?_, ?_, ?_, ?_, ?_, ?_, ?_, ?_⟩
    · intro l m k; rw [at_onTextMessage]; exact hs.keyed l m k
    · intro l m; rw [at_onTextMessage, hacc]; exact hs.acc l m
    · rw [hacc, hpr]; exact hs.bound
    · rw [hacc]; exact hs.owner
    · intro l l' m m' n'; rw [at_onTextMessage, at_onTextMessage]; exact hs.uniq l l' m m' n'
    · intro n' t ht
      rw [hpr]
      rw [hful, List.mem_append, List.mem_singleton] at ht
      rcases ht with ht | ht
      · exact hs.known n' t ht
      · cases ht; exact hs.bound req (hs.acc _ _ hat) n hn
    · intro l m n' t h hn' ht
      rw [at_onTextMessage] at h
      rw [hful, List.mem_append, List.mem_singleton] at ht
      rcases ht with ht | ht
      · exact absurd ht (hnone l m n' t h hn')
      · cases ht
        obtain rfl := hs.uniq l (.ack k) m req n h hat hn' hn
        have hm : m.id = k := hs.keyed _ m k h rfl
        rw [hm]
        obtain ⟨pmsg, hp⟩ := @onTextMessage_handler parse s text req hreq
        exact ⟨pmsg, rfl, hp⟩
    · rw [hful, List.map_append, List.nodup_append]
      refine ⟨hs.once, by simp, ?_⟩
      intro a ha b hb hab
      rw [List.map_singleton, List.mem_singleton] at hb
      obtain ⟨⟨n', t⟩, ht, rfl⟩ := List.mem_map.mp ha
      have : n' = n := hab.trans hb
      subst this
      exact hnone _ req n' t hat hn ht

theorem inv_step {s s' : State} {l : Label} (hs : Inv s) (h : step parse s l = some s') :
    Inv s' := by
  cases l with
  | send msg =>
    obtain ⟨_, rfl⟩ := step_send h
    exact inv_send hs msg none (fun n hn => by cases hn)
  | sendRequest request =>
    obtain ⟨_, rfl⟩ := step_sendRequest h
    exact inv_sendRequest hs request
  | getMsg key =>
    obtain ⟨_, pmsg, hk, rfl⟩ := step_getMsg h
    exact inv_getMsg hs hk
  | sendText =>
    obtain ⟨pmsg, hg, rfl⟩ := step_sendText h
    refine hs.shrink (fun l m hl => ?_) rfl rfl rfl (fun _ _ _ _ _ => rfl)
    cases l with
    | queue k => exact hl
    | thread => simpa [State.at, hg, Sender.msg] using hl
    | ack k => exact hl
  | register =>
    obtain ⟨pmsg, hg, rfl⟩ := step_register h
    exact inv_register hs hg
  | recv text =>
    obtain ⟨hi, rfl⟩ := step_recv h
    exact inv_recv hs hi text
  | erase =>
    obtain ⟨it, pmsg, hg, rfl⟩ := step_erase h
    refine hs.shrink (fun l m hl => ?_) rfl rfl rfl (fun k m p hk hh => ?_)
    · rw [at_erase] at hl; split_ifs at hl; exact hl
    · rw [hg] at hh; cases hh
      rw [at_erase, if_pos rfl] at hk; cases hk
  | dispatch =>
    obtain ⟨pmsg, hg, rfl⟩ := step_dispatch h
    refine hs.shrink (fun l m hl => ?_) rfl rfl rfl (fun k m p _ hh => ?_)
    · cases l <;> exact hl
    · rw [hg] at hh; cases hh
  | close =>
    obtain ⟨hi, rfl⟩ := step_close h
    refine hs.shrink (fun l m hl => ?_) rfl rfl rfl (fun k m p hk _ => ?_)
    · rw [at_close] at hl; split_ifs at hl with hl'; subst hl'; exact hl
    · rw [at_close] at hk; cases hk

/-! ### Blocked callers -/

/-- The caller that owns promise `n` has called `send_request_and_recv_response` and waits. -/
def State.Blocked (s : State) (n : ℕ) : Prop := n < s.promises ∧ ∀ t, (n, t) ∉ s.fulfilled

/-- A caller waits for the answer to `m`. -/
def State.Waits (s : State) (m : MSMessage) : Prop := ∃ n, m.msgPromise = some n ∧ s.Blocked n

/-- The promise can still be reached: from `send_list_`, from the local message of the sender
    thread, or from `ack_list_`, each time in the entry of the id it was sent under. -/
def State.Held (s : State) (n : ℕ) : Prop :=
  ∃ m : MSMessage, m.msgPromise = some n ∧
    (s.sendList.get m.id = some m ∨ s.sender.msg = some m ∨ s.ackList.get m.id = some m)

/-- Every blocked caller can still be answered. -/
def NoOrphan (s : State) : Prop := ∀ n, s.Blocked n → s.Held n

/-- A step that loses no message somebody waits for: a message is not stored over one in
    `send_list_`, not registered over one in `ack_list_` nor dropped for its id 0, the entry erased
    is the answered one, and `close` finds nobody waiting. -/
def KeepsWaiters (parse : String → Option Value) (s : State) : Label → Prop
  | .send text | .sendRequest text =>
    ∀ m, s.sendList.get (messageFromJson parse text).id = some m → ¬ s.Waits m
  | .register => ∀ pmsg, s.sender = .sent pmsg →
    (s.Waits pmsg → pmsg.id ≠ 0) ∧
      (pmsg.id ≠ 0 → ∀ m, s.ackList.get pmsg.id = some m → ¬ s.Waits m)
  | .erase => ∀ it pmsg, s.handler = .erasing it pmsg →
    ∀ m, s.ackList.get it = some m → ¬ s.Waits m
  | .close => ∀ n, ¬ s.Blocked n
  | _ => True

theorem held_iff {s : State} (hs : Inv s) (n : ℕ) :
    s.Held n ↔ ∃ l m, s.at l = some m ∧ m.msgPromise = some n := by
  constructor
  · rintro ⟨m, hn, h | h | h⟩
    · exact ⟨.queue m.id, m, h, hn⟩
    · exact ⟨.thread, m, h, hn⟩
    · exact ⟨.ack m.id, m, h, hn⟩
  · rintro ⟨l, m, h, hn⟩
    refine ⟨m, hn, ?_⟩
    cases l with
    | queue k => obtain rfl := hs.keyed _ m k h rfl; exact Or.inl h
    | thread => exact Or.inr (Or.inl h)
    | ack k => obtain rfl := hs.keyed _ m k h rfl; exact Or.inr (Or.inr h)

/-- A step orphans nobody exactly when every message somebody waits for is still in some place. -/
theorem noOrphan_iff {s s' : State} (hs : Inv s) (hs' : Inv s') (hno : NoOrphan s)
    (hacc : ∀ m ∈ s.accepted, m ∈ s'.accepted) (hkeep : ∀ n, s.Blocked n → s'.Blocked n)
    (hnew : ∀ n, s'.Blocked n → s.Blocked n ∨ s'.Held n) :
    NoOrphan s' ↔ ∀ l m, s.at l = some m → s.Waits m → ∃ l', s'.at l' = some m := by
  constructor
  · rintro hno' l m hl ⟨n, hn, hb⟩
    obtain ⟨l', m', hl', hn'⟩ := (held_iff hs' n).mp (hno' n (hkeep n hb))
    have hm : m' = m :=
      hs'.owner m' (hs'.acc _ _ hl') m (hacc m (hs.acc _ _ hl)) n hn' hn
    exact ⟨l', hm ▸ hl'⟩
  · intro hpl n hb
    rcases hnew n hb with hb | hh
    · obtain ⟨l, m, hl, hn⟩ := (held_iff hs n).mp (hno n hb)
      obtain ⟨l', hl'⟩ := hpl l m hl ⟨n, hn, hb⟩
      exact (held_iff hs' n).mpr ⟨l', m, hl', hn⟩
    · exact hh

/-- A step that leaves every message where it is but those of one place orphans nobody exactly
    when nobody waits for the message in that place. -/
theorem noOrphan_iff_of_at {s s' : State} (hs : Inv s) (hs' : Inv s') (hno : NoOrphan s) (p : Loc)
    (hat : ∀ l, l ≠ p → s'.at l = s.at l)
    (hp : ∀ m, s.Waits m → m ∈ s.accepted → s'.at p ≠ some m)
    (hacc : ∀ m ∈ s.accepted, m ∈ s'.accepted) (hkeep : ∀ n, s.Blocked n → s'.Blocked n)
    (hnew : ∀ n, s'.Blocked n → s.Blocked n ∨ s'.Held n) :
    NoOrphan s' ↔ ∀ m, s.at p = some m → ¬ s.Waits m := by
  rw [noOrphan_iff hs hs' hno hacc hkeep hnew]
  constructor
  · intro hpl m hm hw
    obtain ⟨l', hl'⟩ := hpl p m hm hw
    by_cases hlp : l' = p
    · subst hlp; exact hp m hw (hs.acc _ _ hm) hl'
    · rw [hat l' hlp] at hl'
      obtain ⟨n, hn, _⟩ := hw
      exact hlp (hs.uniq l' p m m n hl' hm hn hn)
  · intro hfree l m hl hw
    have hlp : l ≠ p := by rintro rfl; exact hfree m hl hw
    exact ⟨l, by rw [hat l hlp]; exact hl⟩

theorem noOrphan_send {s : State} (hs : Inv s) (hno : NoOrphan s) (text : String) :
    NoOrphan (send parse s text none) ↔
      ∀ m, s.sendList.get (messageFromJson parse text).id = some m → ¬ s.Waits m := by
  refine noOrphan_iff_of_at hs (inv_send hs text none (fun n hn => by cases hn)) hno
    (.queue (messageFromJson parse text).id) (fun l hl => ?_) (fun m hw _ hm => ?_)
    (fun m hm => List.mem_append_left _ hm) (fun n hb => hb) (fun n hb => Or.inl hb)
  · rw [at_send, if_neg hl]
  · rw [at_send, if_pos rfl] at hm
    obtain ⟨n, hn, _⟩ := hw
    cases hm; cases hn

theorem noOrphan_sendRequest {s : State} (hs : Inv s) (hno : NoOrphan s) (text : String) :
    NoOrphan (sendRequest parse s text) ↔
      ∀ m, s.sendList.get (messageFromJson parse text).id = some m → ¬ s.Waits m := by
  have hpr : (sendRequest parse s text).promises = s.promises + 1 := rfl
  have hful : (sendRequest parse s text).fulfilled = s.fulfilled := rfl
  refine noOrphan_iff_of_at hs (inv_sendRequest hs text) hno
    (.queue (messageFromJson parse text).id) (fun l hl => ?_) (fun m hw hacc hm => ?_)
    (fun m hm => List.mem_append_left _ hm) (fun n hb => ?_) (fun n hb => ?_)
  · rw [sendRequest, at_send, if_neg hl]; cases l <;> rfl
  · rw [sendRequest, at_send, if_pos rfl] at hm
    obtain ⟨n, hn, hb⟩ := hw
    cases hm; cases hn
    exact absurd hb.1 (lt_irrefl _)
  · exact ⟨by rw [hpr]; exact Nat.lt_succ_of_lt hb.1, hb.2⟩
  · -- the new promise is in the message just stored
    rcases Nat.lt_succ_iff_lt_or_eq.mp (hpr ▸ hb.1) with hlt | rfl
    · exact Or.inl ⟨hlt, hful ▸ hb.2⟩
    · exact Or.inr ⟨_, rfl, Or.inl (StdMap.get_insert_self ..)⟩

theorem noOrphan_register {s : State} (hs : Inv s) (hno : NoOrphan s) {pmsg : MSMessage}
    (hi : s.sender = .sent pmsg) :
    NoOrphan (registerAck s pmsg) ↔ (s.Waits pmsg → pmsg.id ≠ 0) ∧
      (pmsg.id ≠ 0 → ∀ m, s.ackList.get pmsg.id = some m → ¬ s.Waits m) := by
  have ht : s.at .thread = some pmsg := by simp [State.at, hi, Sender.msg]
  rw [noOrphan_iff hs (inv_register hs hi) hno (fun m hm => hm) (fun n hb => hb)
    (fun n hb => Or.inl hb)]
  constructor
  · intro hpl
    refine ⟨fun hw h0 => ?_, fun h0 m hm hw => ?_⟩
    · obtain ⟨l', hl'⟩ := hpl .thread pmsg ht hw
      obtain ⟨n, hn, _⟩ := hw
      rw [at_registerAck] at hl'
      split_ifs at hl' with h₁ h₂
      · exact h₂.2 h0
      · exact h₁ (hs.uniq l' .thread pmsg pmsg n hl' ht hn hn)
    · have hm' : s.at (.ack pmsg.id) = some m := hm
      obtain ⟨l', hl'⟩ := hpl _ m hm' hw
      obtain ⟨n, hn, _⟩ := hw
      rw [at_registerAck] at hl'
      split_ifs at hl' with h₁ h₂
      · cases hl'
        cases hs.uniq .thread (.ack pmsg.id) pmsg pmsg n ht hm' hn hn
      · exact h₂ ⟨hs.uniq l' _ m m n hl' hm' hn hn, h0⟩
  · rintro ⟨h₁, h₂⟩ l m hl hw
    by_cases hlt : l = .thread
    · subst hlt
      obtain rfl : pmsg = m := Option.some.inj (ht.symm.trans hl)
      refine ⟨.ack pmsg.id, ?_⟩
      rw [at_registerAck, if_neg (by simp), if_pos ⟨rfl, h₁ hw⟩]
    · refine ⟨l, ?_⟩
      rw [at_registerAck, if_neg hlt, if_neg, hl]
      rintro ⟨rfl, h0⟩
      exact h₂ h0 m hl hw

theorem noOrphan_erase {s s' : State} (hs : Inv s) (hs' : Inv s') (hno : NoOrphan s) {it : ℤ}
    {pmsg : MSMessage}
    (he : s' = { s with ackList := s.ackList.erase it, handler := .dispatching pmsg }) :
    NoOrphan s' ↔ ∀ m, s.ackList.get it = some m → ¬ s.Waits m := by
  subst he
  refine noOrphan_iff_of_at hs hs' hno (.ack it) (fun l hl => ?_) (fun m _ _ hm => ?_)
    (fun m hm => hm) (fun n hb => hb) (fun n hb => Or.inl hb)
  · rw [at_erase, if_neg hl]
  · rw [at_erase, if_pos rfl] at hm; cases hm

theorem noOrphan_close {s : State} (hs : Inv s) (hs' : Inv (close s)) (hno : NoOrphan s)
    (hi : s.sender = .idle) : NoOrphan (close s) ↔ ∀ n, ¬ s.Blocked n := by
  have hat : ∀ l, (close s).at l = none := by
    intro l; rw [at_close, hi]; simp [Sender.msg]
  rw [noOrphan_iff hs hs' hno (fun m hm => hm) (fun n hb => hb) (fun n hb => Or.inl hb)]
  constructor
  · intro hpl n hb
    obtain ⟨l, m, hl, hn⟩ := (held_iff hs n).mp (hno n hb)
    obtain ⟨l', hl'⟩ := hpl l m hl ⟨n, hn, hb⟩
    rw [hat] at hl'; cases hl'
  · rintro hfree l m _ ⟨n, _, hb⟩
    exact absurd hb (hfree n)

/-- An inbound frame moves no message, and it can only release callers. -/
theorem noOrphan_recv {s : State} (hno : NoOrphan s) (text : String) :
    NoOrphan (onTextMessage parse s text) := by
  rintro n ⟨hlt, hb⟩
  rw [onTextMessage_promises] at hlt
  rw [onTextMessage_fulfilled] at hb
  have hheld := hno n ⟨hlt, fun t ht => hb t (List.mem_append_left _ ht)⟩
  rw [State.Held, onTextMessage_sendList, onTextMessage_sender, onTextMessage_ackList]
  exact hheld

theorem noOrphan_step {s s' : State} {l : Label} (hs : Inv s) (hno : NoOrphan s)
    (h : step parse s l = some s') : NoOrphan s' ↔ KeepsWaiters parse s l := by
  have hs' := inv_step hs h
  cases l with
  | send msg =>
    obtain ⟨_, rfl⟩ := step_send h
    exact noOrphan_send hs hno msg
  | sendRequest request =>
    obtain ⟨_, rfl⟩ := step_sendRequest h
    exact noOrphan_sendRequest hs hno request
  | getMsg key =>
    obtain ⟨hi, pmsg, hk, rfl⟩ := step_getMsg h
    refine iff_of_true ?_ trivial
    refine (noOrphan_iff hs hs' hno (fun m hm => hm) (fun n hb => hb)
      (fun n hb => Or.inl hb)).mpr fun l m hl _ => ?_
    by_cases hlq : l = .queue key
    · subst hlq
      refine ⟨.thread, ?_⟩
      rw [at_getMsg, if_pos rfl]
      exact hk.symm.trans hl
    · have hlt : l ≠ .thread := by
        rintro rfl; simp [State.at, hi, Sender.msg] at hl
      exact ⟨l, by rw [at_getMsg, if_neg hlt, if_neg hlq, hl]⟩
  | sendText =>
    obtain ⟨pmsg, hg, rfl⟩ := step_sendText h
    refine iff_of_true ?_ trivial
    refine (noOrphan_iff hs hs' hno (fun m hm => hm) (fun n hb => hb)
      (fun n hb => Or.inl hb)).mpr fun l m hl _ => ⟨l, ?_⟩
    cases l with
    | queue k => exact hl
    | thread => simpa [State.at, hg, Sender.msg] using hl
    | ack k => exact hl
  | register =>
    obtain ⟨pmsg, hg, rfl⟩ := step_register h
    rw [noOrphan_register hs hno hg, KeepsWaiters, hg]
    exact ⟨fun hw p hp => by cases hp; exact hw, fun hw => hw pmsg rfl⟩
  | recv text =>
    obtain ⟨_, rfl⟩ := step_recv h
    exact iff_of_true (noOrphan_recv hno text) trivial
  | erase =>
    obtain ⟨it, pmsg, hg, he⟩ := step_erase h
    rw [noOrphan_erase hs hs' hno he, KeepsWaiters, hg]
    exact ⟨fun hw i p hp => by cases hp; exact hw, fun hw => hw it pmsg rfl⟩
  | dispatch =>
    obtain ⟨pmsg, _, rfl⟩ := step_dispatch h
    exact iff_of_true (fun n hb => hno n hb) trivial
  | close =>
    obtain ⟨hi, rfl⟩ := step_close h
    exact noOrphan_close hs hs' hno hi

/-- CORRECT: along any interleaving nobody is orphaned exactly when every step keeps the messages
    that callers wait for. -/
theorem no_orphaned_waiter (ls : List Label) :
    (signal parse).Always NoOrphan State.init ls ↔
      (signal parse).Along (KeepsWaiters parse) State.init ls :=
  (signal parse).always_iff_along Inv (fun _ _ _ hs h => inv_step hs h)
    (fun _ _ _ hs hno h => noOrphan_step hs hno h) ls State.init inv_init
    (fun _ hb => absurd hb.1 (Nat.not_lt_zero _))

/-- `generateID` may return 0: the request is transmitted, but `id != 0` keeps it out of
    `ack_list_`. -/
theorem orphaned_waiter : ¬ (signal frames).Always NoOrphan State.init
    [.sendRequest joinRequest, .getMsg 0, .sendText, .register] := by
  intro hal
  have hblocked : ∀ t, ((0 : ℕ), t) ∉ State.init.fulfilled := fun t => List.not_mem_nil
  obtain ⟨m, _, hm⟩ := (signal frames).always_exec hal rfl 0 ⟨Nat.lt_succ_self 0, hblocked⟩
  have hempty : ¬ (StdMap.empty : StdMap ℤ MSMessage).get m.id = some m := by
    rw [StdMap.get_empty]; exact fun h => by cases h
  rcases hm with hm | hm | hm
  · exact hempty hm
  · cases hm
  · exact hempty hm

end MediasoupClient.Signaling
