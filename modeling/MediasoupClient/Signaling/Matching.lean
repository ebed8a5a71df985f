import MediasoupClient.Signaling.Waiters

/-! Which frame answers which request.

    A request is answered by a frame whose header says `response: true` and carries its id.
    `on_text_message` looks the id up before it looks at the kind of the frame, and the sender
    thread registers a request only after it has handed its text to `send_text`:

        sendText ──▶ (the answer may arrive here) ──▶ register ──▶ (a server request under
                                                                    the same id may arrive here)

    The first window loses an answer, the second hands a caller a frame that is none. -/

namespace MediasoupClient.Signaling
open Lib
variable {parse : String → Option Value}

/-- The frame answers the request of id `k`. -/
def ResponseTo (parse : String → Option Value) (text : String) (k : ℤ) : Prop :=
  (header parse text).msgType = .response ∧ (header parse text).id = some k

/-! ### Only answers fulfil promises -/

/-- A promise is set at most once, and only to an inbound answer to the request it was sent
    with. -/
def Matched (parse : String → Option Value) (s : State) : Prop :=
  (s.fulfilled.map Prod.fst).Nodup ∧
    ∀ n t, (n, t) ∈ s.fulfilled → t ∈ s.inbound ∧
      ∀ m ∈ s.accepted, m.msgPromise = some n → ResponseTo parse t m.id

/-- An inbound frame is a response with an id, or nobody waits under the id it is looked up by. -/
def NoCrossTalk (parse : String → Option Value) (s : State) : Label → Prop
  | .recv text =>
    ((header parse text).msgType = .response ∧ (header parse text).id.isSome) ∨
      ∀ m, s.ackList.get (messageFromJson parse text).id = some m → m.msgPromise = none
  | _ => True

theorem messageFromJson_id {text : String} {k : ℤ} (h : ResponseTo parse text k) :
    (messageFromJson parse text).id = k := by
  simp only [messageFromJson, h.2, Option.getD_some]

/-- A response with an id answers whatever request it is looked up as. -/
theorem responseTo_messageFromJson {text : String} (ht : (header parse text).msgType = .response)
    (hid : (header parse text).id.isSome) :
    ResponseTo parse text (messageFromJson parse text).id := by
  obtain ⟨k, hk⟩ := Option.isSome_iff_exists.mp hid
  exact ⟨ht, by simp only [messageFromJson, hk, Option.getD_some]⟩

/-- A step that sets no promise keeps the answers matched. -/
theorem Matched.keep {s s' : State} (hs : Inv s) (hm : Matched parse s)
    (hful : s'.fulfilled = s.fulfilled) (hin : s'.inbound = s.inbound)
    (hacc : ∀ m ∈ s'.accepted, m ∈ s.accepted ∨ ∀ n, m.msgPromise = some n → s.promises ≤ n) :
    Matched parse s' := by
  obtain ⟨hnd, hmem⟩ := hm
  refine ⟨by rw [hful]; exact hnd, fun n t ht => ?_⟩
  rw [hful] at ht
  obtain ⟨htin, hresp⟩ := hmem n t ht
  refine ⟨by rw [hin]; exact htin, fun m hm hn => ?_⟩
  rcases hacc m hm with hold | hnew
  · exact hresp m hold hn
  · exact absurd (hs.known n t ht) (not_lt.mpr (hnew n hn))

/-- A frame keeps the answers matched exactly when it is a response to what it hits. -/
theorem matched_recv {s : State} (hs : Inv s) (hm : Matched parse s) (hi : s.handler = .idle)
    (text : String) :
    Matched parse (onTextMessage parse s text) ↔ NoCrossTalk parse s (.recv text) := by
  have hs' : Inv (onTextMessage parse s text) := inv_recv hs hi text
  have hful := @onTextMessage_fulfilled parse s text
  constructor
  · rintro ⟨_, hmem⟩
    rw [NoCrossTalk, or_iff_not_imp_right]
    intro hwait
    push Not at hwait
    obtain ⟨req, hreq, hp⟩ := hwait
    obtain ⟨n, hn⟩ := Option.ne_none_iff_exists'.mp hp
    have hin : (n, text) ∈ (onTextMessage parse s text).fulfilled := by
      rw [hful, hreq, Option.bind_some, hn]
      exact List.mem_append_right _ (List.mem_singleton_self _)
    have hacc : req ∈ (onTextMessage parse s text).accepted := by
      rw [onTextMessage_accepted]; exact hs.acc (.ack _) req hreq
    obtain ⟨ht, hid⟩ := (hmem n text hin).2 req hacc hn
    exact ⟨ht, by rw [hid]; rfl⟩
  · intro hg
    refine ⟨hs'.once, fun n t ht => ?_⟩
    rw [onTextMessage_inbound, onTextMessage_accepted]
    rw [hful, List.mem_append] at ht
    rcases ht with ht | ht
    · obtain ⟨htin, hresp⟩ := hm.2 n t ht
      exact ⟨List.mem_append_left _ htin, hresp⟩
    · -- the promise the frame sets is the one of the entry it hits
      rw [Option.mem_toList, Option.map_eq_some_iff] at ht
      obtain ⟨n', hget, heq⟩ := ht
      cases heq
      obtain ⟨req, hreq, hn⟩ := Option.bind_eq_some_iff.mp hget
      refine ⟨List.mem_append_right _ (List.mem_singleton_self _), fun m hmacc hmn => ?_⟩
      have hat : s.at (.ack (messageFromJson parse text).id) = some req := hreq
      obtain rfl := hs.owner req (hs.acc _ _ hat) m hmacc n hn hmn
      rcases hg with ⟨ht, hid⟩ | hnone
      · rw [hs.keyed _ req _ hat rfl]
        exact responseTo_messageFromJson ht hid
      · rw [hnone req hreq] at hn; cases hn

theorem matched_step {s s' : State} {l : Label} (hs : Inv s) (hm : Matched parse s)
    (h : step parse s l = some s') : Matched parse s' ↔ NoCrossTalk parse s l := by
  cases l with
  | send msg =>
    obtain ⟨_, rfl⟩ := step_send h
    refine iff_of_true (hm.keep hs rfl rfl fun m hacc => ?_) trivial
    rcases List.mem_append.mp hacc with hold | hnew
    · exact Or.inl hold
    · obtain rfl := List.mem_singleton.mp hnew
      exact Or.inr fun n hn => by cases hn
  | sendRequest request =>
    obtain ⟨_, rfl⟩ := step_sendRequest h
    refine iff_of_true (hm.keep hs rfl rfl fun m hacc => ?_) trivial
    rcases List.mem_append.mp hacc with hold | hnew
    · exact Or.inl hold
    · obtain rfl := List.mem_singleton.mp hnew
      exact Or.inr fun n hn => (Option.some.inj hn).le
  | getMsg key =>
    obtain ⟨_, pmsg, _, rfl⟩ := step_getMsg h
    exact iff_of_true (hm.keep hs rfl rfl fun m hacc => Or.inl hacc) trivial
  | sendText =>
    obtain ⟨pmsg, _, rfl⟩ := step_sendText h
    exact iff_of_true (hm.keep hs rfl rfl fun m hacc => Or.inl hacc) trivial
  | register =>
    obtain ⟨pmsg, _, rfl⟩ := step_register h
    exact iff_of_true (hm.keep hs rfl rfl fun m hacc => Or.inl hacc) trivial
  | recv text =>
    obtain ⟨hi, rfl⟩ := step_recv h
    exact matched_recv hs hm hi text
  | erase =>
    obtain ⟨it, pmsg, _, rfl⟩ := step_erase h
    exact iff_of_true (hm.keep hs rfl rfl fun m hacc => Or.inl hacc) trivial
  | dispatch =>
    obtain ⟨pmsg, _, rfl⟩ := step_dispatch h
    exact iff_of_true (hm.keep hs rfl rfl fun m hacc => Or.inl hacc) trivial
  | close =>
    obtain ⟨_, rfl⟩ := step_close h
    exact iff_of_true (hm.keep hs rfl rfl fun m hacc => Or.inl hacc) trivial

theorem matched_init : Matched parse State.init :=
  ⟨List.nodup_nil, fun _ _ ht => absurd ht List.not_mem_nil⟩

/-- CORRECT: along any interleaving promises are set at most once and to answers only, exactly
    when no frame that is no response hits an entry somebody waits under. -/
theorem answers_matched (ls : List Label) :
    (signal parse).Always (Matched parse) State.init ls ↔
      (signal parse).Along (NoCrossTalk parse) State.init ls :=
  (signal parse).always_iff_along Inv (fun _ _ _ hs h => inv_step hs h)
    (fun _ _ _ hs hm h => matched_step hs hm h) ls State.init inv_init matched_init

/-- A server request under the id of a waiting client request is handed to the client as its
    answer. -/
theorem server_request_as_answer : ¬ (signal frames).Always (Matched frames) State.init
    [.sendRequest produceRequest, .getMsg 1, .sendText, .register, .recv newConsumerRequest] := by
  intro hal
  obtain ⟨_, hm⟩ := (signal frames).always_exec hal rfl
  have hresp := (hm 0 newConsumerRequest (List.mem_singleton_self _)).2 _
    (List.mem_singleton_self _) rfl
  exact absurd hresp.1 (by decide)

/-! ### No answer is lost -/

/-- A frame that answers a transmitted request sets its promise, if it has not been answered
    before. -/
def Delivered (parse : String → Option Value) (s : State) : Label → Prop
  | .recv text => ∀ m ∈ s.sent, ∀ n, m.msgPromise = some n → ResponseTo parse text m.id →
    (n, text) ∈ (onTextMessage parse s text).fulfilled ∨
      ∃ t, (n, t) ∈ s.fulfilled ∧ ResponseTo parse t m.id
  | _ => True

/-- No answer arrives between `send_text` and the insertion into `ack_list_`, no frame but an
    answer hits the entry of a waiting request, and such an entry is not left out for its id 0, not
    overwritten, and erased or cleared only once it is answered. -/
def RaceFree (parse : String → Option Value) (s : State) : Label → Prop
  | .register => ∀ pmsg, s.sender = .sent pmsg →
    (s.Waits pmsg → pmsg.id ≠ 0) ∧
      (pmsg.id ≠ 0 → ∀ m, s.ackList.get pmsg.id = some m → ¬ s.Waits m)
  | .recv text => NoCrossTalk parse s (.recv text) ∧
    ∀ pmsg, s.sender = .sent pmsg → s.Waits pmsg → ¬ ResponseTo parse text pmsg.id
  | .erase => ∀ it pmsg, s.handler = .erasing it pmsg →
    ∀ m, s.ackList.get it = some m → ¬ s.Waits m
  | .close => ∀ k m, s.ackList.get k = some m → ¬ s.Waits m
  | _ => True

/-- Every transmitted request that waits is about to be registered, or is registered. -/
structure Registered (parse : String → Option Value) (s : State) : Prop where
  inv : Inv s
  matched : Matched parse s
  sentAcc : ∀ m ∈ s.sent, m ∈ s.accepted
  waiting : ∀ m ∈ s.sent, s.Waits m → s.sender = .sent m ∨ s.ackList.get m.id = some m

theorem registered_init : Registered parse State.init where
  inv := inv_init
  matched := matched_init
  sentAcc _ hm := absurd hm List.not_mem_nil
  waiting _ hm := absurd hm List.not_mem_nil

/-- A request that waits after the step, and was accepted before it, waited before. -/
theorem waits_of_step {s s' : State} {m : MSMessage} (hs : Inv s) (hm : m ∈ s.accepted)
    (hw : s'.Waits m) (hful : ∀ n t, (n, t) ∈ s.fulfilled → (n, t) ∈ s'.fulfilled) :
    s.Waits m := by
  obtain ⟨n, hn, _, hb⟩ := hw
  exact ⟨n, hn, hs.bound m hm n hn, fun t ht => hb t (hful n t ht)⟩

theorem noCrossTalk_of_raceFree {s : State} {l : Label} (hg : RaceFree parse s l) :
    NoCrossTalk parse s l := by
  cases l with
  | recv text => exact hg.1
  | _ => trivial

/-- What is transmitted was accepted. -/
theorem sentAcc_step {s s' : State} {l : Label} (hs : Inv s) (hacc : ∀ m ∈ s.sent, m ∈ s.accepted)
    (h : step parse s l = some s') : ∀ m ∈ s'.sent, m ∈ s'.accepted := by
  intro m hmem
  cases l with
  | send msg =>
    obtain ⟨_, rfl⟩ := step_send h
    exact List.mem_append_left _ (hacc m hmem)
  | sendRequest request =>
    obtain ⟨_, rfl⟩ := step_sendRequest h
    exact List.mem_append_left _ (hacc m hmem)
  | getMsg key =>
    obtain ⟨_, pmsg, _, rfl⟩ := step_getMsg h
    exact hacc m hmem
  | sendText =>
    obtain ⟨pmsg, hg, rfl⟩ := step_sendText h
    rcases List.mem_append.mp hmem with hold | hnew
    · exact hacc m hold
    · obtain rfl := List.mem_singleton.mp hnew
      exact hs.acc .thread m (by simp [State.at, hg, Sender.msg])
  | register =>
    obtain ⟨pmsg, _, rfl⟩ := step_register h
    exact hacc m hmem
  | recv text =>
    obtain ⟨_, rfl⟩ := step_recv h
    rw [onTextMessage_accepted]
    exact hacc m (by rwa [onTextMessage_sent] at hmem)
  | erase =>
    obtain ⟨it, pmsg, _, rfl⟩ := step_erase h
    exact hacc m hmem
  | dispatch =>
    obtain ⟨pmsg, _, rfl⟩ := step_dispatch h
    exact hacc m hmem
  | close =>
    obtain ⟨_, rfl⟩ := step_close h
    exact hacc m hmem

/-- A race-free step keeps the transmitted requests that wait with the sender thread or in
    `ack_list_`. -/
theorem waiting_step {s s' : State} {l : Label} (hr : Registered parse s)
    (hg : RaceFree parse s l) (h : step parse s l = some s') :
    ∀ m ∈ s'.sent, s'.Waits m → s'.sender = .sent m ∨ s'.ackList.get m.id = some m := by
  obtain ⟨hs, _, hacc, hw⟩ := hr
  intro m hmem hwait
  cases l with
  | send msg =>
    obtain ⟨_, rfl⟩ := step_send h
    exact hw m hmem (waits_of_step hs (hacc m hmem) hwait fun _ _ ht => ht)
  | sendRequest request =>
    obtain ⟨_, rfl⟩ := step_sendRequest h
    have hsent : m ∈ s.sent := hmem
    exact hw m hsent (waits_of_step hs (hacc m hsent) hwait fun _ _ ht => ht)
  | getMsg key =>
    obtain ⟨hi, pmsg, _, rfl⟩ := step_getMsg h
    rcases hw m hmem hwait with hsend | hack
    · rw [hi] at hsend; cases hsend
    · exact Or.inr hack
  | sendText =>
    obtain ⟨pmsg, hgot, rfl⟩ := step_sendText h
    rcases List.mem_append.mp hmem with hold | hnew
    · rcases hw m hold hwait with hsend | hack
      · rw [hgot] at hsend; cases hsend
      · exact Or.inr hack
    · obtain rfl := List.mem_singleton.mp hnew
      exact Or.inl rfl
  | register =>
    obtain ⟨pmsg, hsent, rfl⟩ := step_register h
    obtain ⟨h0, hover⟩ := hg pmsg hsent
    have hat := at_registerAck s pmsg (.ack m.id)
    refine Or.inr (hat.trans ?_)
    rcases hw m hmem hwait with hsend | hack
    · obtain rfl : pmsg = m := by rw [hsent] at hsend; cases hsend; rfl
      rw [if_neg (by simp), if_pos ⟨rfl, h0 hwait⟩]
    · rw [if_neg (by simp), if_neg, State.at, hack]
      rintro ⟨hid, hne⟩
      have hid : m.id = pmsg.id := Loc.ack.inj hid
      exact hover hne m (hid ▸ hack) hwait
  | recv text =>
    obtain ⟨_, rfl⟩ := step_recv h
    rw [onTextMessage_sent] at hmem
    have hwait' : s.Waits m := by
      refine waits_of_step hs (hacc m hmem) hwait fun n t ht => ?_
      rw [onTextMessage_fulfilled]
      exact List.mem_append_left _ ht
    rw [onTextMessage_sender, onTextMessage_ackList]
    exact hw m hmem hwait'
  | erase =>
    obtain ⟨it, pmsg, hera, rfl⟩ := step_erase h
    rcases hw m hmem hwait with hsend | hack
    · exact Or.inl hsend
    · refine Or.inr ?_
      have hne : m.id ≠ it := by rintro rfl; exact hg m.id pmsg hera m hack hwait
      exact (StdMap.get_erase_of_ne _ hne).trans hack
  | dispatch =>
    obtain ⟨pmsg, _, rfl⟩ := step_dispatch h
    exact hw m hmem hwait
  | close =>
    obtain ⟨hi, rfl⟩ := step_close h
    rcases hw m hmem hwait with hsend | hack
    · rw [hi] at hsend; cases hsend
    · exact absurd hwait (hg m.id m hack)

theorem registered_step {s s' : State} {l : Label} (hr : Registered parse s)
    (hg : RaceFree parse s l) (h : step parse s l = some s') : Registered parse s' where
  inv := inv_step hr.inv h
  matched := (matched_step hr.inv hr.matched h).mpr (noCrossTalk_of_raceFree hg)
  sentAcc := sentAcc_step hr.inv hr.sentAcc h
  waiting := waiting_step hr hg h

/-- The frame of a race-free step is delivered. -/
theorem delivered_of_registered {s : State} (hr : Registered parse s) {text : String}
    (hg : RaceFree parse s (.recv text)) : Delivered parse s (.recv text) := by
  obtain ⟨hs, hm, hacc, hw⟩ := hr
  intro m hmem n hn hresp
  by_cases hb : ∃ t, (n, t) ∈ s.fulfilled
  · obtain ⟨t, ht⟩ := hb
    exact Or.inr ⟨t, ht, (hm.2 n t ht).2 m (hacc m hmem) hn⟩
  · have hwait : s.Waits m :=
      ⟨n, hn, hs.bound m (hacc m hmem) n hn, fun t ht => hb ⟨t, ht⟩⟩
    rcases hw m hmem hwait with hsend | hack
    · exact absurd hresp (hg.2 m hsend hwait)
    · left
      rw [onTextMessage_fulfilled, messageFromJson_id hresp, hack, Option.bind_some, hn]
      exact List.mem_append_right _ (List.mem_singleton_self _)

/-- CORRECT: in a run without those races every answer to a transmitted request is delivered. -/
theorem answers_delivered (ls : List Label) :
    (signal parse).Along (RaceFree parse) State.init ls →
      (signal parse).Along (Delivered parse) State.init ls := by
  refine (signal parse).along_of_along (Registered parse)
    (fun _ _ _ hr hg h => registered_step hr hg h) (fun s l s' hr hg h => ?_) ls State.init
    registered_init
  cases l with
  | recv text => exact delivered_of_registered hr hg
  | _ => trivial

/-- A request that is registered before its answer comes gets it. -/
theorem answer_delivered : (signal frames).Along (Delivered frames) State.init
    [.sendRequest produceRequest, .getMsg 1, .sendText, .register, .recv produceResponse] := by
  refine answers_delivered _ ?_
  rw [Lts.along_cons _ rfl, Lts.along_cons _ rfl, Lts.along_cons _ rfl, Lts.along_cons _ rfl,
    Lts.along_cons _ rfl]
  refine ⟨trivial, trivial, trivial, ?_, ⟨Or.inl ⟨by decide, by decide⟩, ?_⟩, trivial⟩
  · rintro pmsg hp
    cases hp
    exact ⟨fun _ => by decide, fun _ m hm => by cases hm⟩
  · rintro pmsg hp
    cases hp

/-- The answer that arrives before the request is registered is dropped. -/
theorem answer_lost : ¬ (signal frames).Along (Delivered frames) State.init
    ([.sendRequest produceRequest, .getMsg 1, .sendText] ++ [.recv produceResponse]) := by
  intro hal
  have hlast := (signal frames).along_exec hal rfl
  rw [Lts.along_cons _ rfl] at hlast
  have hdel := hlast.1 _ (List.mem_singleton_self _) 0 rfl ⟨by decide, by decide⟩
  rcases hdel with hin | ⟨t, hin, _⟩
  · exact absurd hin List.not_mem_nil
  · exact absurd hin List.not_mem_nil

end MediasoupClient.Signaling
