import MediasoupClient.Control.Rules
import MediasoupClient.Sdp.Sections

/-! What a subscribe makes of the consumers that were acknowledged.

        newConsumer   ──▶  consumer_list_[peer][kind] = request        answered with ok
                                     │
        subscribe     ──▶  a section for each stored request, under its mid or "0"

    A second consumer of a kind takes the place of the first. Two consumers without a mid have
    sections with the same one. -/

namespace MediasoupClient.Control
open Lib Signaling Sdp Api Call

/-! ### What is stored -/

/-- `data->peerId.value_or("")`. -/
def peerIdOf (req : NewConsumerRequest) : String := (req.data.bind (·.peerId)).getD ""

/-- `data->kind.value_or("")`. -/
def kindOf (req : NewConsumerRequest) : String := (req.data.bind (·.kind)).getD ""

/-- The mid that the server gave, if it gave one. -/
def givenMid (req : NewConsumerRequest) : Option String :=
  req.data.bind fun data => data.rtpParameters.bind (·.mid)

/-- The request that is acknowledged in a call. -/
def Label.acknowledged (parse : String → Option Value) : Label → Option NewConsumerRequest
  | .newConsumer text => (requestOf parse text).toOption
  | .publish .. | .unpublish _ | .subscribe .. | .unsubscribe _ => none

/-- The acknowledged requests of a run. -/
def acknowledged (parse : String → Option Value) (ls : List Label) : List NewConsumerRequest :=
  ls.filterMap (·.acknowledged parse)

/-- The acknowledged requests of a peer. -/
def acknowledgedOf (parse : String → Option Value) (ls : List Label) (peer : String) :
    List NewConsumerRequest :=
  (acknowledged parse ls).filter fun req => decide (peerIdOf req = peer)

/-- What the list should be: for each peer its last request of each kind. -/
def Stored (reqs : List NewConsumerRequest)
    (consumerList : StdMap String (StdMap String NewConsumerRequest)) : Prop :=
  ∀ peer, consumerList.get peer =
    if reqs.filter (fun req => decide (peerIdOf req = peer)) = [] then none
    else some (StdMap.lastBy kindOf (reqs.filter fun req => decide (peerIdOf req = peer)))

theorem stored_nil : Stored [] .empty := fun _ => rfl

/-- One more request. -/
theorem Stored.store {reqs : List NewConsumerRequest} {s : MediaControl}
    (h : Stored reqs s.consumerList) {req : NewConsumerRequest} {data : NewConsumerRequest.Data}
    (hdata : req.data = some data) :
    Stored (reqs ++ [req]) (s.store data req).consumerList := by
  have hpeer : peerIdOf req = data.peerId.getD "" := by rw [peerIdOf, hdata]; rfl
  have hkind : kindOf req = data.kind.getD "" := by rw [kindOf, hdata]; rfl
  intro peer
  rw [MediaControl.store, ← hpeer, ← hkind, StdMap.get_insert, List.filter_append]
  split_ifs with hsame hnil hnil
  · rw [hsame, List.filter_cons_of_pos (by simp)] at hnil
    exact absurd hnil (List.append_ne_nil_of_right_ne_nil _ (List.cons_ne_nil _ _))
  · subst hsame
    rw [List.filter_cons_of_pos (by simp), List.filter_nil, StdMap.lastBy_concat, h (peerIdOf req)]
    split_ifs with hnone
    · rw [hnone]
      rfl
    · rfl
  · rw [List.append_eq_nil_iff] at hnil
    rw [h peer, if_pos hnil.1]
  · have hother : [req].filter (fun req => decide (peerIdOf req = peer)) = [] :=
      List.filter_cons_of_neg (by simpa using fun heq : peerIdOf req = peer => hsame heq.symm)
    rw [hother, List.append_nil] at hnil ⊢
    rw [h peer, if_neg hnil]

/-- One call. -/
theorem stored_step {parse : String → Option Value} {s s' : MediaControl} {l : Label}
    {reqs : List NewConsumerRequest} (h : Stored reqs s.consumerList)
    (hstep : (mediaControl parse).step s l = some s') :
    Stored (reqs ++ (l.acknowledged parse).toList) s'.consumerList := by
  refine outcome_rule (P := fun s' => Stored (reqs ++ (l.acknowledged parse).toList)
    s'.consumerList) ?_ hstep
  cases l with
  | newConsumer text =>
    rw [Label.acknowledged]
    cases hreq : requestOf parse text with
    | error e =>
      rw [Except.toOption, Option.toList_none, List.append_nil]
      exact spec_bind (spec_lift h fun req hok => by cases hreq.symm.trans hok)
    | ok req =>
      change Spec (onNewConsumer parse text) s _ _ _
      rw [onNewConsumer, hreq]
      refine spec_bind (spec_pure ?_)
      cases hdata : req.data with
      | none => trivial
      | some data => exact spec_bind (spec_modify (spec_bind (spec_modify (h.store hdata))))
  | publish audio video streamType benableAudio =>
    rw [Label.acknowledged, Option.toList_none, List.append_nil]
    exact preserves_publish ⟨fun _ _ hs => hs, fun _ _ hs => hs, fun _ _ hs => hs,
      fun _ _ hs => hs⟩ audio video streamType benableAudio s h
  | unpublish streamType =>
    rw [Label.acknowledged, Option.toList_none, List.append_nil]
    exact spec_bind (spec_get (spec_bind (spec_check (fun _ => h) fun _ _ =>
      spec_bind (spec_modify h))))
  | subscribe env uid =>
    rw [Label.acknowledged, Option.toList_none, List.append_nil]
    exact preserves_subscribe (fun _ _ hs => hs) (fun _ _ hs => hs) env uid s h
  | unsubscribe uid =>
    rw [Label.acknowledged, Option.toList_none, List.append_nil]
    exact spec_bind (spec_modify h)

/-- A run. -/
theorem stored_run {parse : String → Option Value} : ∀ {ls : List Label} {s t : MediaControl}
    {reqs : List NewConsumerRequest}, Stored reqs s.consumerList →
    (mediaControl parse).exec s ls = some t → Stored (reqs ++ acknowledged parse ls) t.consumerList
  | [], s, t, reqs, h, hexec => by
    cases hexec
    rw [acknowledged, List.filterMap_nil, List.append_nil]
    exact h
  | l :: ls, s, t, reqs, h, hexec => by
    cases hstep : (mediaControl parse).step s l with
    | none =>
      rw [Lts.exec, hstep] at hexec
      cases hexec
    | some s' =>
      rw [(mediaControl parse).exec_cons hstep] at hexec
      have hrest := stored_run (stored_step h hstep) hexec
      have hcons : acknowledged parse (l :: ls) =
          (l.acknowledged parse).toList ++ acknowledged parse ls := by
        rw [acknowledged, List.filterMap_cons]
        cases l.acknowledged parse <;> rfl
      rw [hcons, ← List.append_assoc]
      exact hrest

/-- The stored requests of a peer: the last one of each kind. -/
theorem Stored.consumersOf {reqs : List NewConsumerRequest} {s : MediaControl}
    (h : Stored reqs s.consumerList) {peer : String} {stored : List NewConsumerRequest}
    (hstored : s.consumersOf peer = some stored) :
    stored = (StdMap.lastBy kindOf (reqs.filter fun req => decide (peerIdOf req = peer))).values := by
  rw [MediaControl.consumersOf, h peer] at hstored
  split_ifs at hstored with hnil
  simp only at hstored
  split_ifs at hstored
  exact (Option.some.inj hstored).symm

/-! ### What is built -/

/-- The section that is built for a request. -/
def SectionFor (tp : JsonTransportParam) (req : NewConsumerRequest) (sec : MediaSection) : Prop :=
  ∃ data, req.data = some data ∧
    consumerSection tp.iceParams tp.iceCandidates tp.id data = .ok sec

/-- A description that only receives over this transport. -/
structure Receiving (tp : JsonTransportParam) (rsdp : RemoteSdp) : Prop where
  iceParameters : rsdp.iceParameters = tp.iceParams
  iceCandidates : rsdp.iceCandidates = tp.iceCandidates
  unclosed : ∀ sec ∈ rsdp.mediaSections, sec.isClosed = false

theorem dataOf_ok {req : NewConsumerRequest} {data : NewConsumerRequest.Data}
    {rtpParameters : NewConsumerRequest.RTPParameters} (h : dataOf req = .ok (data, rtpParameters)) :
    req.data = some data ∧ data.rtpParameters = some rtpParameters := by
  unfold dataOf at h
  cases hdata : req.data with
  | none => rw [hdata] at h; cases h
  | some data' =>
    rw [hdata] at h
    cases hrtp : data'.rtpParameters with
    | none => simp only [hrtp] at h; cases h
    | some rtpParameters' =>
      simp only [hrtp] at h
      cases h
      exact ⟨rfl, hrtp⟩

/-- `Receive` puts its section behind all others. -/
theorem Receiving.receive {tp : JsonTransportParam} {rsdp received : RemoteSdp}
    (h : Receiving tp rsdp) {mid kind : String} {rtpParam : Json} {streamId trackId : String}
    (hreceive : rsdp.receive mid kind rtpParam streamId trackId = .returned received) :
    ∃ sec, offerMediaSection tp.iceParams tp.iceCandidates .null mid kind rtpParam streamId trackId =
        .ok sec ∧ received.mediaSections = rsdp.mediaSections ++ [sec] ∧ Receiving tp received := by
  obtain ⟨sec, hsec, hadd⟩ := attempt_returned hreceive
  have hclosed : rsdp.closedIdx = none := List.findIdx?_eq_none_iff.mpr h.unclosed
  rw [hclosed] at hadd
  obtain ⟨firstMid, -, hadd⟩ := attempt_returned hadd
  obtain ⟨mid', -, hadd⟩ := attempt_returned hadd
  obtain ⟨mids, -, hadd⟩ := attempt_returned hadd
  cases hadd
  rw [h.iceParameters, h.iceCandidates] at hsec
  refine ⟨sec, hsec, rfl, h.iceParameters, h.iceCandidates, fun t ht => ?_⟩
  rcases List.mem_append.mp ht with ht | ht
  · exact h.unclosed t ht
  · rw [List.mem_singleton.mp ht]
    exact (offerMediaSection_ok hsec).1

/-- One turn of the loop: the section of its request. -/
theorem receiveConsumer_section {env : Subscription} {tp : JsonTransportParam} {i : ℕ}
    {req : NewConsumerRequest} {rsdp : RemoteSdp} (h : Receiving tp rsdp) (s : Session) :
    Spec (receiveConsumer env tp i req rsdp) s
      (fun rsdp' _ => Receiving tp rsdp' ∧
        ∃ sec, SectionFor tp req sec ∧ rsdp'.mediaSections = rsdp.mediaSections ++ [sec])
      (fun _ _ => True) fun _ => True := by
  refine spec_bind (spec_fault trivial fun ⟨data, rtpParameters⟩ hdata => ?_)
  refine spec_bind (spec_fault trivial fun cname hcname => ?_)
  refine spec_bind (spec_ofOutcome trivial fun received hreceived => ?_)
  refine spec_bind (spec_ofOutcome trivial fun printed hprinted => ?_)
  have hbuilt : Receiving tp printed ∧
      ∃ sec, SectionFor tp req sec ∧ printed.mediaSections = rsdp.mediaSections ++ [sec] := by
    obtain ⟨hreq, hrtp⟩ := dataOf_ok hdata
    obtain ⟨sec, hsec, hsections, hreceiving⟩ := h.receive hreceived
    have hstate : received.getSdp.state? = some printed := by rw [hprinted]; rfl
    obtain ⟨media, _, rfl⟩ := RemoteSdp.getSdp_state hstate
    refine ⟨⟨hreceiving.iceParameters, hreceiving.iceCandidates, hreceiving.unclosed⟩, sec,
      ⟨data, hreq, ?_⟩, hsections⟩
    rw [consumerSection, hrtp]
    simp only [hcname, ok_bind, hsec]
  -- the rest does not change it
  refine spec_bind (spec_modify ?_)
  refine spec_bind (spec_lift trivial fun _ _ => ?_)
  refine spec_bind (spec_lift trivial fun localSdpObject _ => ?_)
  refine spec_bind (spec_fault trivial fun dtlsParameters _ => ?_)
  refine spec_bind (spec_fault trivial fun answerMedia _ => ?_)
  refine spec_bind (spec_lift trivial fun _ _ => ?_)
  have hrest : ∀ (ret : ℤ) (s' : Session), Spec (do
      ensure ret (decide (ret = 0))
      (env.consumer i).setLocalDescription
      return printed : Body RemoteSdp) s'
      (fun rsdp' _ => Receiving tp rsdp' ∧
        ∃ sec, SectionFor tp req sec ∧ rsdp'.mediaSections = rsdp.mediaSections ++ [sec])
      (fun _ _ => True) fun _ => True := fun ret s' =>
    spec_bind (spec_ensure (fun _ => trivial) fun _ => spec_bind (spec_lift trivial fun _ _ =>
      spec_pure hbuilt))
  split_ifs
  · exact spec_bind (spec_connectWebrtcTransport (fun _ => hrest _ _) fun _ _ => hrest _ _)
  · exact spec_bind (spec_pure (hrest 0 _))

/-- The loop: a section for each request, in their order. -/
theorem receiveConsumers_sections {env : Subscription} {tp : JsonTransportParam} :
    ∀ (reqs : List NewConsumerRequest) (i : ℕ) (rsdp : RemoteSdp) (s : Session),
      Receiving tp rsdp →
      Spec (receiveConsumers env tp i reqs rsdp) s
        (fun rsdp' _ => ∃ secs, List.Forall₂ (SectionFor tp) reqs secs ∧
          rsdp'.mediaSections = rsdp.mediaSections ++ secs)
        (fun _ _ => True) fun _ => True
  | [], _, rsdp, _, _ => spec_pure ⟨[], .nil, (List.append_nil _).symm⟩
  | req :: reqs, i, rsdp, s, h => by
    refine spec_bind (spec_mono (receiveConsumer_section h s) (fun rsdp' s' hturn => ?_)
      (fun _ _ h => h) fun _ h => h)
    obtain ⟨hreceiving, sec, hsec, hsections⟩ := hturn
    refine spec_mono (receiveConsumers_sections reqs (i + 1) rsdp' s' hreceiving)
      (fun rsdp'' _ hloop => ?_) (fun _ _ h => h) fun _ h => h
    obtain ⟨secs, hsecs, hrest⟩ := hloop
    refine ⟨sec :: secs, .cons hsec hsecs, ?_⟩
    rw [hrest, hsections, List.append_assoc]
    rfl

/-- A description that has no section yet. -/
structure Opened (tp : JsonTransportParam) (rsdp : RemoteSdp) : Prop where
  iceParameters : rsdp.iceParameters = tp.iceParams
  iceCandidates : rsdp.iceCandidates = tp.iceCandidates
  empty : rsdp.mediaSections = []

theorem opened_new {tp : JsonTransportParam} {rsdp : RemoteSdp}
    (h : RemoteSdp.new tp.iceParams tp.iceCandidates tp.dtlsParams tp.sctpParams = .ok rsdp) :
    Opened tp rsdp := by
  refine ⟨?_, ?_, (RemoteSdp.new_empty h).1⟩
  all_goals
    obtain ⟨_, -, h⟩ := bind_ok.mp h
    obtain ⟨_, -, h⟩ := bind_ok.mp h
    obtain ⟨_, -, h⟩ := bind_ok.mp h
    obtain ⟨_, -, h⟩ := bind_ok.mp h
    cases h
    rfl

theorem Opened.updateDtlsRole {tp : JsonTransportParam} {rsdp rsdp' : RemoteSdp} {role : String}
    (h : Opened tp rsdp) (hrole : (rsdp.updateDtlsRole role).state? = some rsdp') :
    Opened tp rsdp' := by
  refine RemoteSdp.updateDtlsRole_rule (fun t idx sec hsec ht => ?_) h (fun d => ?_) hrole
  · rw [ht.empty] at hsec
    cases hsec
  · unfold RemoteSdp.markIceLite
    split_ifs <;> exact ⟨h.iceParameters, h.iceCandidates, h.empty⟩

/-- A subscribe that gets to the end of its loop has a section for each stored request. -/
theorem subscribeStreams_sections {env : Subscription} {uid : String} {s : Session}
    {tp : JsonTransportParam} (htp : s.transportList.getRecvTransportParam = some tp) :
    Spec (subscribeStreams env uid) s
      (fun built _ => ∃ stored, s.consumersOf built.1 = some stored ∧
        List.Forall₂ (SectionFor tp) stored built.2.mediaSections)
      (fun _ _ => True) fun _ => True := by
  refine spec_bind (spec_get ?_)
  refine spec_bind (spec_check (fun _ => trivial) fun peer hpeer => ?_)
  refine spec_bind (spec_check (fun _ => trivial) fun stored hstored => ?_)
  refine spec_bind (spec_check (fun _ => trivial) fun tp' htp' => ?_)
  obtain rfl : tp = tp' := Option.some.inj (htp.symm.trans htp')
  refine spec_bind (spec_fault trivial fun rsdp hnew => ?_)
  refine spec_bind (spec_ofOutcome trivial fun rsdp' hrole => ?_)
  have hopened : Opened tp rsdp' := (opened_new hnew).updateDtlsRole (by rw [hrole]; rfl)
  have hreceiving : Receiving tp rsdp' :=
    ⟨hopened.iceParameters, hopened.iceCandidates, fun sec hsec => by
      rw [hopened.empty] at hsec
      cases hsec⟩
  refine spec_bind (spec_mono (receiveConsumers_sections stored 0 rsdp' s hreceiving)
    (fun built _ hloop => ?_) (fun _ _ h => h) fun _ h => h)
  obtain ⟨secs, hsecs, hsections⟩ := hloop
  rw [hopened.empty, List.nil_append] at hsections
  exact spec_pure ⟨stored, hstored, hsections ▸ hsecs⟩

/-! ### What is lost -/

/-- There is a section for each acknowledged request, and the mids of the sections differ if those
    that were given do. -/
structure NoneLost (tp : JsonTransportParam) (reqs : List NewConsumerRequest) (rsdp : RemoteSdp) :
    Prop where
  sections : ∃ reqs', reqs'.Perm reqs ∧ List.Forall₂ (SectionFor tp) reqs' rsdp.mediaSections
  mids : (reqs.filterMap givenMid).Nodup → (mids rsdp.mediaSections).Nodup

/-- The kinds differ; and if the given mids do, then one request at most has none, and then none was
    given "0". -/
structure Distinguishable (reqs : List NewConsumerRequest) : Prop where
  kinds : (reqs.map kindOf).Nodup
  absent : (reqs.filterMap givenMid).Nodup → (reqs.map givenMid).count none ≤ 1 ∧
    (none ∈ reqs.map givenMid → some "0" ∉ reqs.map givenMid)

/-- The mid of a section is the given one or "0". -/
theorem SectionFor.mid {tp : JsonTransportParam} {req : NewConsumerRequest} {sec : MediaSection}
    (h : SectionFor tp req sec) : sec.mid = (givenMid req).getD "0" := by
  obtain ⟨data, hdata, hsec⟩ := h
  rw [consumerSection] at hsec
  cases hrtp : data.rtpParameters with
  | none => rw [hrtp] at hsec; cases hsec
  | some rtpParameters =>
    rw [hrtp] at hsec
    obtain ⟨cname, -, hsec⟩ := bind_ok.mp hsec
    rw [givenMid, hdata]
    simp only [Option.bind_some, hrtp]
    exact (offer_mid hsec).2

theorem mem_map_getD {α : Type*} {d a : α} {l : List (Option α)} :
    a ∈ l.map (·.getD d) ↔ some a ∈ l ∨ a = d ∧ none ∈ l := by
  constructor
  · intro hmem
    obtain ⟨o, ho, heq⟩ := List.mem_map.mp hmem
    cases o with
    | none => exact .inr ⟨heq.symm, ho⟩
    | some b => exact .inl ((heq : b = a) ▸ ho)
  · rintro (ha | ⟨rfl, hnone⟩)
    · exact List.mem_map.mpr ⟨some a, ha, rfl⟩
    · exact List.mem_map.mpr ⟨none, hnone, rfl⟩

/-- Names, of which some are not given: with a default for these they differ if it is used once at
    most, and not given. -/
theorem nodup_getD_iff {α : Type*} [DecidableEq α] (d : α) : ∀ {l : List (Option α)},
    (l.filterMap id).Nodup →
    ((l.map (·.getD d)).Nodup ↔ l.count none ≤ 1 ∧ (none ∈ l → some d ∉ l))
  | [], _ => by simp
  | none :: l, h => by
    have ih := nodup_getD_iff d (l := l) h
    rw [List.map_cons, List.nodup_cons, Option.getD_none, mem_map_getD, ih, List.count_cons_self,
      List.mem_cons]
    constructor
    · rintro ⟨hnew, hcount, -⟩
      rw [not_or] at hnew
      have hnone : none ∉ l := fun hmem => hnew.2 ⟨rfl, hmem⟩
      rw [List.count_eq_zero.mpr hnone]
      exact ⟨le_rfl, fun _ hmem => hnew.1 (List.mem_of_ne_of_mem (by simp) hmem)⟩
    · rintro ⟨hcount, hdefault⟩
      have hnone : none ∉ l := List.count_eq_zero.mp (by omega)
      have hsome : some d ∉ l := fun hmem =>
        hdefault (.inl rfl) (List.mem_cons_of_mem _ hmem)
      refine ⟨fun hmem => ?_, by omega, fun hmem => absurd hmem hnone⟩
      rcases hmem with hmem | ⟨-, hmem⟩
      · exact hsome hmem
      · exact hnone hmem
  | some a :: l, h => by
    rw [List.filterMap_cons_some (f := id) rfl, List.nodup_cons] at h
    have hnew : some a ∉ l := fun hmem => h.1 (List.mem_filterMap.mpr ⟨some a, hmem, rfl⟩)
    rw [List.map_cons, List.nodup_cons, Option.getD_some, mem_map_getD, nodup_getD_iff d h.2,
      List.count_cons_of_ne (by simp), List.mem_cons, List.mem_cons]
    constructor
    · rintro ⟨hdiffer, hcount, hdefault⟩
      refine ⟨hcount, fun hnone hmem => ?_⟩
      have hnone : none ∈ l := hnone.resolve_left (by simp)
      rcases hmem with heq | hmem
      · exact hdiffer (.inr ⟨(Option.some.inj heq).symm, hnone⟩)
      · exact hdefault hnone hmem
    · rintro ⟨hcount, hdefault⟩
      refine ⟨fun hmem => ?_, hcount, fun hnone hmem => hdefault (.inr hnone) (.inr hmem)⟩
      rcases hmem with hmem | ⟨rfl, hnone⟩
      · exact hnew hmem
      · exact hdefault (.inr hnone) (.inl rfl)

theorem filterMap_givenMid (reqs : List NewConsumerRequest) :
    (reqs.map givenMid).filterMap id = reqs.filterMap givenMid := List.filterMap_map ..

/-- The mids of the sections, when all requests have one. -/
theorem nodup_mids_iff {tp : JsonTransportParam} {stored reqs : List NewConsumerRequest}
    {sections : List MediaSection} (hsections : List.Forall₂ (SectionFor tp) stored sections)
    (hperm : stored.Perm reqs) :
    ((reqs.filterMap givenMid).Nodup → (mids sections).Nodup) ↔
      ((reqs.filterMap givenMid).Nodup → (reqs.map givenMid).count none ≤ 1 ∧
        (none ∈ reqs.map givenMid → some "0" ∉ reqs.map givenMid)) := by
  have hmids : mids sections = (stored.map givenMid).map (·.getD "0") := by
    rw [mids, List.map_map]
    exact (List.forall₂_eq_eq_eq ▸ (List.forall₂_map_left_iff.mpr (List.forall₂_map_right_iff.mpr
      (hsections.imp fun req sec h => h.mid.symm))) : _ = _).symm
  refine forall_congr' fun hgiven => ?_
  rw [hmids, ((hperm.map givenMid).map _).nodup_iff]
  exact nodup_getD_iff "0" (filterMap_givenMid reqs ▸ hgiven)

/-- CORRECT: no acknowledged consumer of a peer is lost by a subscribe that builds its description,
    and the mids of the sections differ if those given do, exactly if the consumers are of different
    kinds, and one of them at most has no mid, and then none has "0". -/
theorem none_lost_iff {parse : String → Option Value} {list : TransportList}
    {peerList : StdMap String Unit} {networkPriority : Json} {ls : List Label} {s : MediaControl}
    (hrun : (mediaControl parse).exec (joined list peerList networkPriority) ls = some s)
    {env : Subscription} {uid peer : String} {rsdp : RemoteSdp} {s' : Session}
    (hsubscribe : subscribeStreams env uid { toMediaControl := s } = .ok (peer, rsdp) s')
    {tp : JsonTransportParam} (htp : s.transportList.getRecvTransportParam = some tp) :
    NoneLost tp (acknowledgedOf parse ls peer) rsdp ↔
      Distinguishable (acknowledgedOf parse ls peer) := by
  have hstored : Stored ([] ++ acknowledged parse ls) s.consumerList := stored_run stored_nil hrun
  rw [List.nil_append] at hstored
  obtain ⟨stored, hconsumers, hsections⟩ : ∃ stored, s.consumersOf peer = some stored ∧
      List.Forall₂ (SectionFor tp) stored rsdp.mediaSections := by
    have hbuilt : Spec (subscribeStreams env uid) { toMediaControl := s } _ _ _ :=
      subscribeStreams_sections htp
    rw [Spec, hsubscribe] at hbuilt
    exact hbuilt
  have hvalues : stored = (StdMap.lastBy kindOf (acknowledgedOf parse ls peer)).values :=
    hstored.consumersOf hconsumers
  constructor
  · rintro ⟨⟨reqs, hperm, hall⟩, hdistinct⟩
    have hlength : (StdMap.lastBy kindOf (acknowledgedOf parse ls peer)).entries.length =
        (acknowledgedOf parse ls peer).length := by
      rw [← hperm.length_eq, hall.length_eq, ← hsections.length_eq, hvalues, StdMap.values,
        List.length_map]
    have hkinds := StdMap.nodup_of_length_lastBy hlength
    have hstoredperm := hvalues ▸ StdMap.values_lastBy hkinds
    exact ⟨hkinds, (nodup_mids_iff hsections hstoredperm).mp hdistinct⟩
  · rintro ⟨hkinds, habsent⟩
    have hperm : stored.Perm (acknowledgedOf parse ls peer) := hvalues ▸ StdMap.values_lastBy hkinds
    exact ⟨⟨stored, hperm, hsections⟩, (nodup_mids_iff hsections hperm).mpr habsent⟩

/-- A request for a consumer of "peer". -/
def newConsumerRequest₀ (kind mid : String) : NewConsumerRequest where
  id := some 1
  data := some {
    peerId := some "peer"
    kind := some kind
    rtpParameters := some (jdeserialize (toValue (.object [("mid", .str mid), ("codecs", .arr []),
      ("headerExtensions", .arr []), ("encodings", .arr [.object [("ssrc", .uint 1)]]),
      ("rtcp", .object [("cname", .str "c")])]))).1 }

/-- WebRTC goes along, and answers with sections of these mids. -/
def subscription₀ (mids : List String) : Subscription where
  consumer := fun _ => {
    setRemoteDescription := .ok ()
    answer := .ok (.object [("media", .arr (mids.map fun mid => .object [("mid", .str mid)]))])
    setLocalDescription := .ok () }
  videoTransceiver := true
  parseParams := fun _ => .ok []

/-- The number of sections that a subscribe builds over the receive transport. -/
def builtSections (env : Subscription) (uid : String) (s : MediaControl) :
    Option (Bool × String × ℕ) :=
  match subscribeStreams env uid { toMediaControl := s } with
  | .ok (peer, rsdp) _ =>
    some (s.transportList.getRecvTransportParam.isSome, peer, rsdp.mediaSections.length)
  | .error _ _ => none

theorem builtSections_eq {env : Subscription} {uid peer : String} {s : MediaControl} {n : ℕ}
    (h : builtSections env uid s = some (true, peer, n)) : ∃ tp rsdp s',
      s.transportList.getRecvTransportParam = some tp ∧
      subscribeStreams env uid { toMediaControl := s } = .ok (peer, rsdp) s' ∧
      rsdp.mediaSections.length = n := by
  rw [builtSections] at h
  cases hbuilt : subscribeStreams env uid { toMediaControl := s } with
  | error stop s' => rw [hbuilt] at h; cases h
  | ok built s' =>
    obtain ⟨peer', rsdp⟩ := built
    rw [hbuilt] at h
    obtain ⟨htp, hrest⟩ := Prod.mk.inj (Option.some.inj h)
    obtain ⟨rfl, hlength⟩ := Prod.mk.inj hrest
    obtain ⟨tp, htp⟩ := Option.isSome_iff_exists.mp htp
    exact ⟨tp, rsdp, s', htp, rfl, hlength⟩

/-- An audio and a video consumer of one peer. -/
theorem none_lost_audio_video : ∃ s tp rsdp s',
    (mediaControl fun kind => some (jserialize (newConsumerRequest₀ kind kind))).exec room₀
      [.newConsumer "audio", .newConsumer "video"] = some s ∧
    s.transportList.getRecvTransportParam = some tp ∧
    subscribeStreams (subscription₀ ["audio", "video"]) "peer" { toMediaControl := s } =
      .ok ("peer", rsdp) s' ∧
    NoneLost tp (acknowledgedOf (fun kind => some (jserialize (newConsumerRequest₀ kind kind)))
      [.newConsumer "audio", .newConsumer "video"] "peer") rsdp := by
  have hrun : ((mediaControl fun kind => some (jserialize (newConsumerRequest₀ kind kind))).exec
      room₀ [.newConsumer "audio", .newConsumer "video"]).bind
        (builtSections (subscription₀ ["audio", "video"]) "peer") = some (true, "peer", 2) := by
    decide +kernel
  obtain ⟨s, hs, hbuilt⟩ := Option.bind_eq_some_iff.mp hrun
  obtain ⟨tp, rsdp, s', htp, hsubscribe, -⟩ := builtSections_eq hbuilt
  have hkinds : ((acknowledgedOf (fun kind => some (jserialize (newConsumerRequest₀ kind kind)))
      [.newConsumer "audio", .newConsumer "video"] "peer").map kindOf).Nodup := by decide +kernel
  have habsent : ((acknowledgedOf (fun kind => some (jserialize (newConsumerRequest₀ kind kind)))
      [.newConsumer "audio", .newConsumer "video"] "peer").map givenMid).count none = 0 := by
    decide +kernel
  refine ⟨s, tp, rsdp, s', hs, htp, hsubscribe, (none_lost_iff hs hsubscribe htp).mpr ⟨hkinds,
    fun _ => ⟨habsent.le.trans (Nat.zero_le 1), fun hnone => ?_⟩⟩⟩
  exact absurd hnone (List.count_eq_zero.mp habsent)

/-- Of two video consumers of one peer the first is lost. -/
theorem second_video_replaces_first : ∃ s tp rsdp s',
    (mediaControl fun mid => some (jserialize (newConsumerRequest₀ "video" mid))).exec room₀
      [.newConsumer "0", .newConsumer "1"] = some s ∧
    s.transportList.getRecvTransportParam = some tp ∧
    subscribeStreams (subscription₀ ["0", "1"]) "peer" { toMediaControl := s } =
      .ok ("peer", rsdp) s' ∧
    ¬NoneLost tp (acknowledgedOf (fun mid => some (jserialize (newConsumerRequest₀ "video" mid)))
      [.newConsumer "0", .newConsumer "1"] "peer") rsdp := by
  have hrun : ((mediaControl fun mid => some (jserialize (newConsumerRequest₀ "video" mid))).exec
      room₀ [.newConsumer "0", .newConsumer "1"]).bind
        (builtSections (subscription₀ ["0", "1"]) "peer") = some (true, "peer", 1) := by
    decide +kernel
  have hacknowledged : (acknowledgedOf
      (fun mid => some (jserialize (newConsumerRequest₀ "video" mid)))
      [.newConsumer "0", .newConsumer "1"] "peer").length = 2 := by decide +kernel
  obtain ⟨s, hs, hbuilt⟩ := Option.bind_eq_some_iff.mp hrun
  obtain ⟨tp, rsdp, s', htp, hsubscribe, hlength⟩ := builtSections_eq hbuilt
  refine ⟨s, tp, rsdp, s', hs, htp, hsubscribe, fun hnone => ?_⟩
  obtain ⟨reqs, hperm, hall⟩ := hnone.sections
  have htwo := hperm.length_eq.symm.trans hall.length_eq
  rw [hacknowledged, hlength] at htwo
  cases htwo

end MediasoupClient.Control
