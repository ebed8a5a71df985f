import MediasoupClient.Api.Refusals
import MediasoupClient.Lib.Lts

/-! The transport that is looked up (mssignal/msapi.cpp).

        created, one after another     s "c"   r "b"   s "a"   s "d"
        transport_list_                s "a"   r "b"   s "c"   s "d"      ordered by the ids
                                         │
        get_send_transport_param  ◀──────┘

    The list has the transports of both directions and of all joins, nothing is taken out of it, and
    the first one of a direction is taken for the current one. -/

namespace MediasoupClient.Api
open Lib Signaling Sdp Call

/-- Calls one after another that all succeed, each with its response. -/
def successes (webrtc : WebRtc) (parse : String → Option Value) :
    Lts MediaSoupAPI (Request × String) :=
  ⟨fun s l =>
    match l.1.call webrtc parse l.2 s with
    | .ok code t => if code = 0 then some t else none
    | .error _ _ => none⟩

/-- The transport in a response. -/
def transportIn (parse : String → Option Value) (s : MediaSoupAPI) (bsendTransport : Bool)
    (resp : String) : Option JsonTransportParam :=
  (fromJsonString parse resp : CreateWebRtcTransportResponse × _).1.data.bind fun data =>
    (transportParam data (if bsendTransport then s.extendRtpCapabilities else none)
      bsendTransport).toOption

/-- The transport that a call has created. -/
def createdBy (parse : String → Option Value) (s : MediaSoupAPI) (resp : String) :
    Request → Option JsonTransportParam
  | .createSendTransport => transportIn parse s true resp
  | .createRecvTransport => transportIn parse s false resp
  | _ => none

/-- The transports that have been created, in the order of the calls. -/
def creations (webrtc : WebRtc) (parse : String → Option Value) :
    MediaSoupAPI → List (Request × String) → List JsonTransportParam
  | _, [] => []
  | s, l :: ls =>
    match (successes webrtc parse).step s l with
    | none => []
    | some t => (createdBy parse s l.2 l.1).toList ++ creations webrtc parse t ls

/-- The most recent transport of a direction. -/
def latest (bsendTransport : Bool) (created : List JsonTransportParam) : Option JsonTransportParam :=
  (created.filter fun tp => tp.bsendTransport == bsendTransport).getLast?

/-! ### The list -/

section
variable {webrtc : WebRtc} {parse : String → Option Value} {s t : MediaSoupAPI}

theorem success_iff {l : Request × String} :
    (successes webrtc parse).step s l = some t ↔ l.1.call webrtc parse l.2 s = .ok 0 t := by
  simp only [successes]
  cases h : l.1.call webrtc parse l.2 s with
  | ok code s' =>
    by_cases hc : code = 0
    · subst hc
      simp
    · simp [hc]
  | error stop s' => simp

/-- A transport that is created is stored under its id. -/
theorem transport_created {b : Bool} {resp : String}
    (h : onCreateTransportResponse parse b resp s = .ok 0 t) :
    ∃ tp, transportIn parse s b resp = some tp ∧
      t.transportList = s.transportList.store tp := by
  rcases (onCreateTransport_returns Prod.mk.eta.symm).mp h with
    ⟨-, hcode, -⟩ | ⟨-, data, tp, hdata, htp, -, rfl⟩
  · cases hcode
  · exact ⟨tp, by rw [transportIn, hdata, Option.bind_some, htp]; rfl, rfl⟩

/-- A call that succeeds stores the transport it creates, if any, and keeps the others. -/
theorem success_stores {req : Request} {resp : String}
    (h : req.call webrtc parse resp s = .ok 0 t) :
    t.transportList = (createdBy parse s resp req).elim s.transportList s.transportList.store := by
  cases req with
  | getRouterRtpCapabilities native =>
    rcases (onRouterRtpCapabilities_returns Prod.mk.eta.symm).mp h with
      ⟨-, hcode, -⟩ | ⟨-, data, -, -, hload⟩
    · cases hcode
    · exact (loadCapabilities_ok hload).2
  | createSendTransport =>
    rcases createSendTransport_returns.mp h with ⟨-, hcode, -⟩ | ⟨-, hcreate⟩
    · cases hcode
    · obtain ⟨tp, htp, ht⟩ := transport_created hcreate
      rw [createdBy, htp, ht]
      rfl
  | createRecvTransport =>
    rcases createRecvTransport_returns.mp h with ⟨-, hcode, -⟩ | ⟨-, hcreate⟩
    · cases hcode
    · obtain ⟨tp, htp, ht⟩ := transport_created hcreate
      rw [createdBy, htp, ht]
      rfl
  | join =>
    obtain ⟨recv, -, hjoin⟩ := join_returns.mp h
    obtain ⟨data, -, -, hpeers⟩ := (onJoinResponse_returns Prod.mk.eta.symm).mp hjoin
    have hkept := forM_keeps addPeer_keeps (data.peers.getD []) hpeers
    exact hkept
  | connectWebrtcTransport id dtlsParameters =>
    cases @connect_state s t 0 resp id dtlsParameters h
    rfl
  | produce id kind rtpParam =>
    cases @produce_state parse s t 0 resp id kind rtpParam h
    rfl

/-- A run: the list has the created transports, each under its id. -/
theorem list_of_creations : ∀ {ls : List (Request × String)} {s t : MediaSoupAPI}
    {tps : List JsonTransportParam}, s.transportList.byId = StdMap.lastBy (·.id) tps →
    (successes webrtc parse).exec s ls = some t →
      t.transportList.byId = StdMap.lastBy (·.id) (tps ++ creations webrtc parse s ls)
  | [], s, t, tps, h, hexec => by
    cases hexec
    rw [creations, List.append_nil]
    exact h
  | l :: ls, s, t, tps, h, hexec => by
    cases hstep : (successes webrtc parse).step s l with
    | none => rw [Lts.exec, hstep] at hexec; cases hexec
    | some s' =>
      rw [Lts.exec_cons _ hstep] at hexec
      have hstored := success_stores (success_iff.mp hstep)
      rw [creations, hstep, ← List.append_assoc]
      refine list_of_creations ?_ hexec
      rw [hstored]
      cases createdBy parse s l.2 l.1 with
      | none =>
        rw [Option.toList_none, List.append_nil]
        exact h
      | some tp =>
        rw [Option.toList_some, StdMap.lastBy_concat, ← h]
        rfl

/-- What is looked up: the transport of the direction with the least id. -/
theorem firstWhere_iff {list : TransportList} {b : Bool} {tp : JsonTransportParam} :
    list.firstWhere b = some tp ↔ tp ∈ list.byId.values ∧ tp.bsendTransport = b ∧
      ∀ tp' ∈ list.byId.values, tp'.bsendTransport = b → tp.id ≤ tp'.id := by
  have hkeyed : ∀ e ∈ list.byId.entries, e.2.id = e.1 := fun e he =>
    list.keyed e.1 e.2 ((mem_iff_get list.byId.sorted).mp he)
  rw [TransportList.firstWhere, Option.map_eq_some_iff]
  simp only [find?_least list.byId.sorted, StdMap.values, List.mem_map, beq_iff_eq]
  constructor
  · rintro ⟨e, ⟨he, hb, hleast⟩, rfl⟩
    refine ⟨⟨e, he, rfl⟩, hb, ?_⟩
    rintro _ ⟨e', he', rfl⟩ hb'
    rw [hkeyed e he, hkeyed e' he']
    exact hleast e' he' hb'
  · rintro ⟨⟨e, he, rfl⟩, hb, hleast⟩
    refine ⟨e, ⟨he, hb, fun e' he' hb' => ?_⟩, rfl⟩
    have hle := hleast e'.2 ⟨e', he', rfl⟩ hb'
    rw [hkeyed e he, hkeyed e' he'] at hle
    exact hle

/-- Nothing is looked up exactly if there is no transport of the direction. -/
theorem firstWhere_none {list : TransportList} {b : Bool} :
    list.firstWhere b = none ↔ ∀ tp ∈ list.byId.values, tp.bsendTransport ≠ b := by
  rw [TransportList.firstWhere, Option.map_eq_none_iff, List.find?_eq_none]
  simp only [StdMap.values, List.forall_mem_map, beq_iff_eq, ne_eq]

/-! ### The most recent one -/

theorem latest_mem {b : Bool} {created : List JsonTransportParam} {tp : JsonTransportParam}
    (h : latest b created = some tp) : tp ∈ created ∧ tp.bsendTransport = b := by
  obtain ⟨hmem, hb⟩ := List.mem_filter.mp (List.mem_of_getLast? h)
  exact ⟨hmem, beq_iff_eq.mp hb⟩

theorem latest_none {b : Bool} {created : List JsonTransportParam} :
    latest b created = none ↔ ∀ tp ∈ created, tp.bsendTransport ≠ b := by
  simp only [latest, List.getLast?_eq_none_iff, List.filter_eq_nil_iff, beq_iff_eq, ne_eq]

/-- In a list with these transports, the most recent one of a direction is looked up exactly if its id
    is the least. -/
theorem firstWhere_latest {list : TransportList} {created : List JsonTransportParam}
    (h : list.byId.values.Perm created) (b : Bool) : list.firstWhere b = latest b created ↔
      ∀ tp, latest b created = some tp → ∀ tp' ∈ created, tp'.bsendTransport = b → tp.id ≤ tp'.id := by
  have hmem : ∀ tp, tp ∈ list.byId.values ↔ tp ∈ created := fun tp => h.mem_iff
  cases hlatest : latest b created with
  | none =>
    refine iff_of_true (firstWhere_none.mpr fun tp htp => ?_) fun tp htp => by cases htp
    exact latest_none.mp hlatest tp ((hmem tp).mp htp)
  | some tp =>
    obtain ⟨htp, hb⟩ := latest_mem hlatest
    simp only [firstWhere_iff, hmem]
    constructor
    · rintro ⟨-, -, hleast⟩ _ ⟨⟩
      exact hleast
    · exact fun hleast => ⟨htp, hb, hleast tp rfl⟩

end

/-- CORRECT: after transports with different ids have been created, the current ones are looked up
    exactly if the most recent one of each direction has the least id of its direction. -/
theorem current_transports_iff {webrtc : WebRtc} {parse : String → Option Value}
    {s t : MediaSoupAPI} {ls : List (Request × String)} (hs : s.transportList.byId = .empty)
    (hexec : (successes webrtc parse).exec s ls = some t)
    (hids : ((creations webrtc parse s ls).map (·.id)).Nodup) :
    (t.transportList.getSendTransportParam = latest true (creations webrtc parse s ls) ∧
      t.transportList.getRecvTransportParam = latest false (creations webrtc parse s ls)) ↔
    ∀ b tp, latest b (creations webrtc parse s ls) = some tp →
      ∀ tp' ∈ creations webrtc parse s ls, tp'.bsendTransport = b → tp.id ≤ tp'.id := by
  have hstart : s.transportList.byId = StdMap.lastBy (·.id) [] := hs
  have hlist := list_of_creations hstart hexec
  rw [List.nil_append] at hlist
  have hperm : t.transportList.byId.values.Perm (creations webrtc parse s ls) := by
    rw [hlist]
    exact StdMap.values_lastBy hids
  rw [TransportList.getSendTransportParam, TransportList.getRecvTransportParam,
    firstWhere_latest hperm, firstWhere_latest hperm, Bool.forall_bool, and_comm]

/-! ### Transports with these ids -/

/-- A response with a transport of this id, as it is parsed. -/
def transportNamed (id : String) : Value :=
  .object [("response", .bool true), ("id", .int 1), ("ok", .bool true), ("data", .object [
    ("id", .string id), ("iceParameters", .object []), ("iceCandidates", .array []),
    ("dtlsParameters", .object []), ("sctpParameters", .object [])])]

/-- Send transports that are created one after another. -/
def sendTransports (ids : List String) : List (Request × String) :=
  ids.map fun id => (.createSendTransport, id)

theorem current_transports_later_first :
    ∃ t, (successes sampleWebRtc (fun id => some (transportNamed id))).exec {}
        (sendTransports ["b", "a"]) = some t ∧
      ((t.transportList.getSendTransportParam =
          latest true (creations sampleWebRtc (fun id => some (transportNamed id)) {}
            (sendTransports ["b", "a"])) ∧
        t.transportList.getRecvTransportParam =
          latest false (creations sampleWebRtc (fun id => some (transportNamed id)) {}
            (sendTransports ["b", "a"]))) ↔
      ∀ b tp, latest b (creations sampleWebRtc (fun id => some (transportNamed id)) {}
          (sendTransports ["b", "a"])) = some tp →
        ∀ tp' ∈ creations sampleWebRtc (fun id => some (transportNamed id)) {}
          (sendTransports ["b", "a"]), tp'.bsendTransport = b → tp.id ≤ tp'.id) := by
  refine ⟨_, rfl, current_transports_iff rfl rfl ?_⟩
  change ["b", "a"].Nodup
  decide

/-- Of two send transports the older one is taken for the current one. -/
theorem older_transport_found :
    ¬ ∀ (webrtc : WebRtc) (parse : String → Option Value) (ls : List (Request × String))
      (t : MediaSoupAPI), (successes webrtc parse).exec {} ls = some t →
      ((creations webrtc parse {} ls).map (·.id)).Nodup →
        t.transportList.getSendTransportParam = latest true (creations webrtc parse {} ls) ∧
        t.transportList.getRecvTransportParam = latest false (creations webrtc parse {} ls) := by
  intro h
  have hids : ["a", "b"].Nodup := by decide
  have hfound := (h sampleWebRtc (fun id => some (transportNamed id)) (sendTransports ["a", "b"]) _ rfl
    hids).1
  have hsame : some "a" = some "b" := congrArg (Option.map JsonTransportParam.id) hfound
  exact absurd hsame (by decide)

end MediasoupClient.Api
