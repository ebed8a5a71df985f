import MediasoupClient.Signaling.Waiters

/-! The order in which accepted messages are transmitted.

    `send_list_` stands for a queue, but it is a map keyed by the message id: a message waits under
    its own id, over one that waits there already, and `get_msg` takes whichever entry comes first
    in the iteration.

        accepted   = transmitted ++ (the message in hand) ++ queue
        send_list_ = {m.id ↦ m | m ∈ queue}

    `Fifo` is these equations. It holds along a run exactly when the map is used like a queue:
    `InOrder`. -/

namespace MediasoupClient.Signaling
open Lib
variable {parse : String → Option Value}

/-- The message the sender thread has taken but not transmitted. -/
def Sender.inHand : Sender → List MSMessage
  | .idle => []
  | .got pmsg => [pmsg]
  | .sent _ => []

/-- `send_list_` holds the messages of `queue`, each under an id of its own, and no other. -/
structure Waiting (s : State) (queue : List MSMessage) : Prop where
  held : ∀ m ∈ queue, s.sendList.get m.id = some m
  only : ∀ k m, s.sendList.get k = some m → m ∈ queue
  distinct : (queue.map (·.id)).Nodup

/-- What was transmitted is a prefix of what was accepted, and the rest is still to be transmitted,
    each message once. -/
def Fifo (s : State) : Prop :=
  ∃ queue, s.accepted = s.sent ++ s.sender.inHand ++ queue ∧ Waiting s queue

/-- A message is accepted only when none waits under its id, `get_msg` comes upon the oldest
    waiting message first, and nothing waits at a `close`. -/
def InOrder (parse : String → Option Value) (s : State) : Label → Prop
  | .send text | .sendRequest text => s.sendList.get (messageFromJson parse text).id = none
  | .getMsg key => s.accepted[s.sent.length]? = s.sendList.get key
  | .close => ∀ k, s.sendList.get k = none
  | _ => True

theorem fifo_init : Fifo State.init :=
  ⟨[], rfl, fun _ hm => absurd hm List.not_mem_nil, fun _ _ h => (by cases h), List.nodup_nil⟩

/-- The queue of an idle sender is what was accepted after the last transmitted message. -/
theorem Fifo.of_idle {s : State} (hi : s.sender = .idle) (hf : Fifo s) :
    ∃ queue, s.accepted = s.sent ++ queue ∧ Waiting s queue := by
  obtain ⟨queue, hacc, hw⟩ := hf
  rw [hi, Sender.inHand, List.append_nil] at hacc
  exact ⟨queue, hacc, hw⟩

/-- Accepting a message appends it to the queue, unless it displaces one. -/
theorem fifo_insert {s s' : State} (hs : Inv s) (hf : Fifo s) (pmsg : MSMessage)
    (hi : s.sender = .idle) (hi' : s'.sender = .idle) (hsent : s'.sent = s.sent)
    (hacc' : s'.accepted = s.accepted ++ [pmsg])
    (hlist : s'.sendList = s.sendList.insert pmsg.id pmsg) :
    Fifo s' ↔ s.sendList.get pmsg.id = none := by
  obtain ⟨queue, hacc, hheld, honly, hdist⟩ := hf.of_idle hi
  constructor
  · intro hf'
    obtain ⟨queue', heq, _, _, hdist'⟩ := hf'.of_idle hi'
    rw [hsent, hacc', hacc, List.append_assoc] at heq
    have hq : queue ++ [pmsg] = queue' := List.append_cancel_left heq
    rw [← hq, List.map_append, List.nodup_append] at hdist'
    cases hget : s.sendList.get pmsg.id with
    | none => rfl
    | some m =>
      -- the displaced message is in the queue, under the id of the new one
      have hid : m.id = pmsg.id := hs.keyed (.queue pmsg.id) m pmsg.id hget rfl
      have hm : m.id ∈ queue.map (·.id) := List.mem_map_of_mem (honly _ m hget)
      exact absurd hid (hdist'.2.2 m.id hm pmsg.id (List.mem_singleton_self _))
  · intro hnone
    have hfresh : ∀ m ∈ queue, m.id ≠ pmsg.id := by
      intro m hm hid
      have hget := hheld m hm
      rw [hid, hnone] at hget
      cases hget
    refine ⟨queue ++ [pmsg], ?_, ?_, ?_, ?_⟩
    · rw [hi', Sender.inHand, List.append_nil, hsent, hacc', hacc, List.append_assoc]
    · intro m hm
      rw [hlist]
      rcases List.mem_append.mp hm with hold | hnew
      · rw [StdMap.get_insert_of_ne _ _ (hfresh m hold)]
        exact hheld m hold
      · obtain rfl := List.mem_singleton.mp hnew
        exact StdMap.get_insert_self ..
    · intro k m hget
      rw [hlist, StdMap.get_insert] at hget
      split_ifs at hget with hk
      · cases hget; exact List.mem_append_right _ (List.mem_singleton_self _)
      · exact List.mem_append_left _ (honly k m hget)
    · rw [List.map_append, List.nodup_append]
      refine ⟨hdist, by simp, ?_⟩
      intro a ha b hb hab
      obtain ⟨m, hm, rfl⟩ := List.mem_map.mp ha
      exact hfresh m hm (hab.trans (List.mem_singleton.mp hb))

/-- Taking a message keeps the order exactly when it is the oldest one. -/
theorem fifo_getMsg {s : State} (hs : Inv s) (hf : Fifo s) {key : ℤ} {pmsg : MSMessage}
    (hi : s.sender = .idle) (hk : s.sendList.get key = some pmsg) :
    Fifo { s with sendList := s.sendList.erase key, sender := .got pmsg } ↔
      s.accepted[s.sent.length]? = s.sendList.get key := by
  obtain ⟨queue, hacc, hheld, honly, hdist⟩ := hf.of_idle hi
  have hhead : s.accepted[s.sent.length]? = queue.head? := by
    rw [hacc, List.getElem?_append_right le_rfl, Nat.sub_self, List.head?_eq_getElem?]
  rw [hhead, hk]
  constructor
  · rintro ⟨queue', heq, _⟩
    simp only [Sender.inHand] at heq
    rw [hacc, List.append_assoc] at heq
    rw [List.append_cancel_left heq]
    rfl
  · intro hq
    obtain ⟨queue', rfl⟩ := List.head?_eq_some_iff.mp hq
    rw [List.map_cons, List.nodup_cons] at hdist
    have hid : pmsg.id = key := hs.keyed (.queue key) pmsg key hk rfl
    refine ⟨queue', ?_, ?_, ?_, hdist.2⟩
    · rw [Sender.inHand]
      simp only [hacc, List.append_assoc, List.singleton_append]
    · intro m hm
      have hne : m.id ≠ key := by
        rintro rfl
        exact hdist.1 (hid ▸ List.mem_map_of_mem hm)
      exact (StdMap.get_erase_of_ne _ hne).trans (hheld m (List.mem_cons_of_mem _ hm))
    · intro k m hget
      rw [StdMap.get_erase] at hget
      split_ifs at hget with hkk
      rcases List.mem_cons.mp (honly k m hget) with rfl | hm
      · exact absurd ((hs.keyed (.queue k) m k hget rfl).symm.trans hid) hkk
      · exact hm

/-- Clearing the map loses what waits in it. -/
theorem fifo_close {s : State} (hf : Fifo s) (hi : s.sender = .idle) :
    Fifo (close s) ↔ ∀ k, s.sendList.get k = none := by
  obtain ⟨queue, hacc, hheld, honly, hdist⟩ := hf.of_idle hi
  constructor
  · rintro ⟨queue', heq, hheld', _, _⟩ k
    have heq : s.accepted = s.sent ++ s.sender.inHand ++ queue' := heq
    rw [hi, Sender.inHand, List.append_nil, hacc] at heq
    obtain rfl := List.append_cancel_left heq
    cases hget : s.sendList.get k with
    | none => rfl
    | some m =>
      have hnil := hheld' m (honly k m hget)
      rw [close, StdMap.get_empty] at hnil
      cases hnil
  · intro hnone
    have hnil : queue = [] := by
      refine List.eq_nil_iff_forall_not_mem.mpr fun m hm => ?_
      have hget := hheld m hm
      rw [hnone] at hget
      cases hget
    subst hnil
    refine ⟨[], ?_, fun m hm => absurd hm List.not_mem_nil, fun k m hget => ?_, List.nodup_nil⟩
    · show s.accepted = s.sent ++ s.sender.inHand ++ []
      rw [hi, hacc, Sender.inHand, List.append_nil, List.append_nil]
    · rw [close, StdMap.get_empty] at hget
      cases hget

/-- A step that touches neither the map nor the record of what was accepted and taken. -/
theorem Fifo.keep {s s' : State} (hf : Fifo s) (hacc : s'.accepted = s.accepted)
    (hlist : s'.sendList = s.sendList)
    (hsent : s'.sent ++ s'.sender.inHand = s.sent ++ s.sender.inHand) : Fifo s' := by
  obtain ⟨queue, heq, hheld, honly, hdist⟩ := hf
  exact ⟨queue, by rw [hacc, hsent]; exact heq, by rw [hlist]; exact hheld,
    by rw [hlist]; exact honly, hdist⟩

theorem fifo_step {s s' : State} {l : Label} (hs : Inv s) (hf : Fifo s)
    (h : step parse s l = some s') : Fifo s' ↔ InOrder parse s l := by
  cases l with
  | send msg =>
    obtain ⟨hi, rfl⟩ := step_send h
    exact fifo_insert hs hf (messageFromJson parse msg) hi hi rfl rfl rfl
  | sendRequest request =>
    obtain ⟨hi, rfl⟩ := step_sendRequest h
    exact fifo_insert hs hf { messageFromJson parse request with msgPromise := some s.promises }
      hi hi rfl rfl rfl
  | getMsg key =>
    obtain ⟨hi, pmsg, hk, rfl⟩ := step_getMsg h
    exact fifo_getMsg hs hf hi hk
  | sendText =>
    obtain ⟨pmsg, hg, rfl⟩ := step_sendText h
    refine iff_of_true (hf.keep rfl rfl ?_) trivial
    simp only [hg, Sender.inHand, List.append_nil]
  | register =>
    obtain ⟨pmsg, hg, rfl⟩ := step_register h
    refine iff_of_true (hf.keep rfl rfl ?_) trivial
    simp only [registerAck, hg, Sender.inHand]
  | recv text =>
    obtain ⟨_, rfl⟩ := step_recv h
    exact iff_of_true (hf.keep (by simp) (by simp) (by simp)) trivial
  | erase =>
    obtain ⟨it, pmsg, _, rfl⟩ := step_erase h
    exact iff_of_true (hf.keep rfl rfl rfl) trivial
  | dispatch =>
    obtain ⟨pmsg, _, rfl⟩ := step_dispatch h
    exact iff_of_true (hf.keep rfl rfl rfl) trivial
  | close =>
    obtain ⟨hi, rfl⟩ := step_close h
    exact fifo_close hf hi

/-- CORRECT: along any interleaving the messages are transmitted in the order they were accepted,
    each once, exactly when the map is used like a queue. -/
theorem transmitted_in_order (ls : List Label) :
    (signal parse).Always Fifo State.init ls ↔
      (signal parse).Along (InOrder parse) State.init ls :=
  (signal parse).always_iff_along Inv (fun _ _ _ hs h => inv_step hs h)
    (fun _ _ _ hs hf h => fifo_step hs hf h) ls State.init inv_init fifo_init

/-- Two messages wait, and the iteration comes upon the second one first. -/
theorem transmitted_out_of_order : ¬ (signal frames).Always Fifo State.init
    [.send joinRequest, .send produceRequest, .getMsg 1, .sendText] := by
  intro hal
  obtain ⟨queue, heq, _⟩ := (signal frames).always_exec hal rfl
  have hhead : some (0 : ℤ) = some 1 := congrArg (fun ms => ms.head?.map MSMessage.id) heq
  exact absurd hhead (by decide)

end MediasoupClient.Signaling
