import MediasoupClient.Control.Rules

/-! In which order a transport is connected and produced on.

        publish with audio     connect, produce, produce
        publish without            –    produce
        subscribe              connect

    The connect request is part of publishing audio, so it is missing when the first publish is
    without audio, and sent again by every later one that is with audio. Every subscribe connects
    the receive transport. -/

namespace MediasoupClient.Control
open Lib Signaling Sdp Api Call

/-- The transports connected so far. -/
def connects (events : List Event) : List String :=
  events.filterMap fun
    | .connectWebRtcTransport data => some data.transportId
    | _ => none

/-- The transports produced on so far. -/
def produces (events : List Event) : List String :=
  events.filterMap fun
    | .produce transportId _ _ => some transportId
    | _ => none

/-- Every produce request comes after a connect request for its transport, and no transport is
    connected twice. -/
structure TransportOrder (events : List Event) : Prop where
  connected : ∀ before id kind rtpParameters after,
    events = before ++ .produce id kind rtpParameters :: after → id ∈ connects before
  once : (connects events).Nodup

/-- What can come next. -/
def Allowed (events : List Event) : Event → Prop
  | .connectWebRtcTransport data => data.transportId ∉ connects events
  | .produce id _ _ => id ∈ connects events
  | _ => True

theorem connects_append (events events' : List Event) :
    connects (events ++ events') = connects events ++ connects events' :=
  List.filterMap_append

theorem connects_localMedia (events : List Event) (idx own : ℕ) :
    connects (events ++ [.localMedia idx own]) = connects events := by
  rw [connects_append]
  exact List.append_nil _

/-- A transport that is produced on is connected. -/
theorem TransportOrder.produced {events : List Event} (ho : TransportOrder events) {id : String}
    (h : id ∈ produces events) : id ∈ connects events := by
  obtain ⟨event, hmem, hid⟩ := List.mem_filterMap.mp h
  cases event with
  | produce transportId kind rtpParameters =>
    cases hid
    obtain ⟨before, after, rfl⟩ := List.append_of_mem hmem
    rw [connects_append]
    exact List.mem_append_left _ (ho.connected before id kind rtpParameters after rfl)
  | _ => cases hid

theorem transportOrder_nil : TransportOrder [] :=
  ⟨fun before _ _ _ _ h => by simp at h, List.nodup_nil⟩

/-- The order is kept by every event that is allowed. -/
theorem TransportOrder.said {events : List Event} (ho : TransportOrder events) {e : Event}
    (ha : Allowed events e) : TransportOrder (events ++ [e]) := by
  constructor
  · intro before id kind rtpParameters after heq
    rcases List.eq_nil_or_concat after with rfl | ⟨after, last, rfl⟩
    · obtain ⟨rfl, hlast⟩ := List.append_inj' heq rfl
      rw [List.singleton_inj.mp hlast] at ha
      exact ha
    · rw [List.concat_eq_append, ← List.cons_append, ← List.append_assoc] at heq
      obtain ⟨rfl, -⟩ := List.append_inj' heq rfl
      exact ho.connected before id kind rtpParameters after rfl
  · rw [connects_append]
    cases e with
    | connectWebRtcTransport data =>
      exact List.nodup_append.mpr ⟨ho.once, List.nodup_singleton _, fun a hmem b hb => by
        rw [List.mem_singleton.mp hb]
        exact fun heq => ha (heq ▸ hmem)⟩
    | _ => exact (List.append_nil (connects events)).symm ▸ ho.once

/-! ### What a body keeps -/

/-- The order so far, over these transports. -/
structure Ordered (list : TransportList) (s : MediaControl) : Prop where
  transports : s.transportList = list
  order : TransportOrder s.events

/-- The same, and under a condition the transport is connected already. -/
structure Connected (list : TransportList) (id : String) (c : Prop) (s : MediaControl) : Prop
    extends Ordered list s where
  connected : c → id ∈ connects s.events

section
variable {list : TransportList} {id : String} {c : Prop} {s : Session}

theorem Ordered.said (hs : Ordered list s.toMediaControl) {e : Event}
    (ha : Allowed s.events e) : Ordered list (s.said e).toMediaControl :=
  ⟨hs.transports, hs.order.said ha⟩

theorem Connected.said (hs : Connected list id c s.toMediaControl) {e : Event}
    (ha : Allowed s.events e) : Connected list id c (s.said e).toMediaControl := by
  refine ⟨hs.toOrdered.said ha, fun hc => ?_⟩
  change id ∈ connects (s.events ++ [e])
  rw [connects_append]
  exact List.mem_append_left _ (hs.connected hc)

/-- A connect request for a transport that is not connected yet. -/
theorem Ordered.connect (hs : Ordered list s.toMediaControl)
    {data : ConnectWebRtcTransportRequest.Data} (hid : data.transportId = id)
    (hnew : id ∉ connects s.events) :
    Connected list id True (s.said (.connectWebRtcTransport data)).toMediaControl := by
  refine ⟨hs.said (hid.symm ▸ hnew : data.transportId ∉ connects s.events), fun _ => ?_⟩
  change id ∈ connects (s.events ++ [.connectWebRtcTransport data])
  rw [connects_append]
  exact List.mem_append_right _ (hid ▸ List.mem_singleton_self _)

/-- What the statements after that keep. -/
abbrev KeepsConnected (list : TransportList) (id : String) (c : Prop) {α : Type} (x : Body α) :
    Prop :=
  Keeps (fun s => Connected list id c s.toMediaControl) x

theorem keeps_onRemoteSdp (f : RemoteSdp → Outcome Fault RemoteSdp) :
    KeepsConnected list id c (onRemoteSdp f) := fun _ hs =>
  spec_onRemoteSdp (fun _ _ _ _ _ => ⟨⟨hs.transports, hs.order⟩, hs.connected⟩)
    fun _ _ _ _ => ⟨⟨hs.transports, hs.order⟩, hs.connected⟩

theorem keeps_remoteSdpValue : KeepsConnected list id c remoteSdpValue := fun _ hs =>
  spec_remoteSdpValue fun _ _ => hs

theorem keeps_localMedia (sections : ℕ → Json) (idx : ℕ) :
    KeepsConnected list id c (localMedia sections idx) := fun _ hs =>
  spec_localMedia (hs.said trivial)

theorem keeps_produce {kind : String} {rtpParam : Json}
    (h : (list.produceRequest id rtpParam).isSome → c) :
    KeepsConnected list id c (produce id kind rtpParam) := fun s hs =>
  spec_produce hs fun rtpParameters hsent => by
    rw [hs.transports] at hsent
    exact hs.said (hs.connected (h (by rw [hsent]; rfl)))

/-- From `Send` on, the order is kept if there is something to produce only under the condition. -/
theorem answerOffer_order {env : Negotiation} {tp : JsonTransportParam} {kind : String}
    {offerMediaObject : Json} {reuseMid : String} {rtpParam remoteRtpParam codecOptions : Json}
    (hs : Connected list tp.id c s.toMediaControl)
    (h : ∀ sdp valid, s.remoteSdp = some sdp →
      validSendRtpParam sdp offerMediaObject rtpParam remoteRtpParam (some codecOptions) =
        .ok valid → (list.produceRequest tp.id valid).isSome → c) :
    Spec (answerOffer env tp kind offerMediaObject reuseMid rtpParam remoteRtpParam codecOptions) s
      (fun _ s' => Connected list tp.id c s'.toMediaControl) (fun _ _ => False)
      fun s' => Connected list tp.id c s'.toMediaControl := by
  refine spec_bind (spec_remoteSdpValue fun sdp hsdp => ?_)
  refine keeps_bind (keeps_onRemoteSdp _) (fun _ => fun s hs => ?_) s hs
  refine spec_bind (spec_lift hs fun valid hvalid => ?_)
  refine keeps_bind (keeps_produce (h sdp valid hsdp hvalid)) (fun _ => ?_) s hs
  refine keeps_bind (keeps_onRemoteSdp _) fun _ => ?_
  refine keeps_bind keeps_remoteSdpValue fun answer => ?_
  refine keeps_bind keeps_get fun s => ?_
  refine keeps_bind (fun s hs => spec_say (hs.said trivial)) fun _ => ?_
  refine keeps_bind (keeps_modify fun s hs => ⟨⟨hs.transports, hs.order⟩, hs.connected⟩) fun _ => ?_
  exact keeps_lift _

end

/-! ### Publishing audio -/

/-- The audio part of a publish is not left out, and there is a track. -/
structure AudioStarts (env : Negotiation) (enable : Bool) : Prop where
  enabled : enable = true
  track : env.track = true
  transceiver : env.transceiver = true

/-- It gets as far as its connect request. -/
structure AudioConnects (s : MediaControl) (tp : JsonTransportParam) (env : Negotiation)
    (enable : Bool) : Prop extends AudioStarts env enable where
  transport : s.transportList.getSendTransportParam = some tp
  remoteSdp : ∃ sdp idx, s.sdpFor tp = .ok sdp ∧ sdp.getNextMediaSectionIdx = .ok idx
  parameters : ∃ offer dtlsParameters role written, env.offer = .ok offer ∧
    extractDtlsParameters offer = .ok dtlsParameters ∧ localDtlsRole tp.dtlsParams = .ok role ∧
    dtlsParameters.write "role" (.str role) = .ok written

/-- Publishing audio connects the transport first, if it gets that far. If it ends before, the
    object is as it was. -/
theorem enableAudio_order {list : TransportList} {s : Session} {env : Negotiation} {enable : Bool}
    (hs : Ordered list s.toMediaControl)
    (hguard : ∀ tp, AudioConnects s.toMediaControl tp env enable → tp.id ∉ connects s.events) :
    Spec (enableAudio env enable) s
      (fun _ s' => ∃ tp, list.getSendTransportParam = some tp ∧
        Connected list tp.id True s'.toMediaControl)
      (fun _ s' => s'.toMediaControl = s.toMediaControl ∧
        (list.getSendTransportParam = none ∨ s'.pc = s.pc ∧ ¬AudioStarts env enable))
      (fun s' => Ordered list s'.toMediaControl) := by
  refine spec_bind (spec_ensure (fun hno => ⟨rfl, .inr ⟨rfl, fun hc => ?_⟩⟩) fun henabled => ?_)
  · rw [hc.enabled] at hno
    cases hno
  refine spec_bind (spec_ensure (fun hno => ⟨rfl, .inr ⟨rfl, fun hc => ?_⟩⟩) fun htrack => ?_)
  · rw [hc.track] at hno
    cases hno
  refine spec_bind (spec_ensure (fun hno => ⟨rfl, .inr ⟨rfl, fun hc => ?_⟩⟩)
    fun htransceiver => ?_)
  · rw [hc.transceiver] at hno
    cases hno
  refine spec_bind (spec_modify ?_)
  refine spec_bind (spec_sendTransport (fun hno => ⟨rfl, .inl ?_⟩) fun tp htp => ?_)
  · rw [← hs.transports]
    exact hno
  have htp' : list.getSendTransportParam = some tp := by rw [← hs.transports]; exact htp
  refine spec_bind (spec_lift ⟨hs.transports, hs.order⟩ fun offer hoffer => ?_)
  refine spec_bind (spec_fault ⟨hs.transports, hs.order⟩ fun dtlsParameters hdtls => ?_)
  refine spec_bind (spec_openRemoteSdp ⟨hs.transports, hs.order⟩ fun sdp hsdp => ?_)
  refine spec_bind (spec_nextMediaSectionIdx ⟨hs.transports, hs.order⟩
    fun sdp' msidx hsdp' hidx => ?_)
  obtain rfl : sdp = sdp' := Option.some.inj hsdp'
  refine spec_bind (spec_fault ⟨hs.transports, hs.order⟩ fun role hrole => ?_)
  refine spec_bind (spec_fault ⟨hs.transports, hs.order⟩ fun written hwritten => ?_)
  have hconnects : AudioConnects s.toMediaControl tp env enable :=
    ⟨⟨henabled, htrack, htransceiver⟩, htp, ⟨sdp, msidx, hsdp, hidx⟩,
      ⟨offer, dtlsParameters, role, written, hoffer, hdtls, hrole, hwritten⟩⟩
  obtain ⟨data, hdata, hid⟩ := TransportList.connectRequest_sent
    (TransportList.firstWhere_get htp) written
  refine spec_bind (spec_connectWebrtcTransport (fun hno => ?_) fun data' hdata' => ?_)
  · cases hdata.symm.trans hno
  obtain rfl : data = data' := Option.some.inj (hdata.symm.trans hdata')
  -- from here on the transport is connected
  refine Keeps.spec ?_
    (Ordered.connect (s := Session.withSdp _ sdp) ⟨hs.transports, hs.order⟩ hid
      (hguard tp hconnects))
    (fun _ _ h => ⟨tp, htp', h⟩) fun _ h => h.toOrdered
  refine keeps_bind (fun s hs => hs) fun _ => ?_
  refine keeps_bind (keeps_onRemoteSdp _) fun _ => ?_
  refine keeps_bind (keeps_fault _) fun ext => ?_
  refine keeps_bind (keeps_fault _) fun sending => ?_
  refine keeps_bind (keeps_fault _) fun rtpParam => ?_
  refine keeps_bind (keeps_fault _) fun sendingRemote => ?_
  refine keeps_bind (keeps_fault _) fun remoteRtpParam => ?_
  refine keeps_bind (keeps_lift _) fun _ => ?_
  refine keeps_bind (keeps_lift _) fun localId => ?_
  refine keeps_bind (keeps_lift _) fun sections => ?_
  refine keeps_bind (keeps_localMedia sections msidx.idx) fun offerMediaObject => ?_
  refine keeps_bind (keeps_fault _) fun cname => ?_
  refine keeps_bind (keeps_lift _) fun encodings => ?_
  refine keeps_bind (keeps_fault _) fun rtpParam => ?_
  exact keeps_bind (fun s hs => answerOffer_order hs fun _ _ _ _ _ => trivial) fun _ => keeps_pure 0

/-! ### Publishing video -/

/-- The MIME type of the codec that is offered. -/
def videoMimeType (ext : ExtendedRtpCapabilities) : Except Fault String := do
  firstMimeType (← reducedCodecs (← getSendingRtpParameters "video" ext))

/-- The video part of a publish, on its own, gets as far as its produce request: the offer is
    answered up to the section of the track, and there are parameters to be sent. -/
structure VideoProduces (s : MediaControl) (tp : JsonTransportParam) (env : Negotiation) :
    Prop where
  track : env.track = true
  transceiver : env.transceiver = true
  transport : s.transportList.getSendTransportParam = some tp
  offer : ∃ offer dtlsParameters, env.offer = .ok offer ∧
    extractDtlsParameters offer = .ok dtlsParameters
  setLocalDescription : env.setLocalDescription = .ok ()
  parameters : ∃ sdp msidx role sdp' sections ext mid mimeType cname rtpParam,
    s.sdpFor tp = .ok sdp ∧ sdp.getNextMediaSectionIdx = .ok msidx ∧
    localDtlsRole tp.dtlsParams = .ok role ∧
    sdp.updateDtlsRole (remoteDtlsRole role) = .returned sdp' ∧
    env.localDescription = .ok sections ∧ extended tp = .ok ext ∧ env.midValue = .ok mid ∧
    videoMimeType ext = .ok mimeType ∧
    getCname ([sections 0].getD msidx.idx .null) = .ok cname ∧
    producedRtpParam sdp' ([sections 0].getD msidx.idx .null) "video" ext mid cname
      (s.encodings.numbered.list.map (·.toJson)) (some videoSettings) = .ok rtpParam ∧
    (s.transportList.produceRequest tp.id rtpParam).isSome

/-- Publishing video keeps the order if the transport is connected, or the video is on its own and
    there is nothing to produce. -/
theorem enableVideo_order {list : TransportList} {s : Session} {env : Negotiation}
    (hs : Ordered list s.toMediaControl)
    (hguard : ∀ tp, list.getSendTransportParam = some tp → tp.id ∈ connects s.events ∨
      s.pc.transceivers = [] ∧ ¬VideoProduces s.toMediaControl tp env) :
    Spec (enableVideo env) s (fun _ s' => Ordered list s'.toMediaControl)
      (fun _ s' => Ordered list s'.toMediaControl) fun s' => Ordered list s'.toMediaControl := by
  refine spec_bind (spec_ensure (fun _ => hs) fun htrack => ?_)
  refine spec_bind (spec_modify ?_)
  refine spec_bind (spec_ensure (fun _ => ⟨hs.transports, hs.order⟩) fun htransceiver => ?_)
  refine spec_bind (spec_modify ?_)
  refine spec_bind (spec_sendTransport (fun _ => ⟨hs.transports, hs.order⟩) fun tp htp => ?_)
  refine spec_bind (spec_lift ⟨hs.transports, hs.order⟩ fun offer hoffer => ?_)
  refine spec_bind (spec_openRemoteSdp ⟨hs.transports, hs.order⟩ fun sdp hsdp => ?_)
  refine spec_bind (spec_nextMediaSectionIdx ⟨hs.transports, hs.order⟩
    fun sdp' msidx hsdp' hidx => ?_)
  obtain rfl : sdp = sdp' := Option.some.inj hsdp'
  refine spec_bind (spec_fault ⟨hs.transports, hs.order⟩ fun role hrole => ?_)
  refine spec_bind (spec_fault ⟨hs.transports, hs.order⟩ fun dtlsParameters hdtls => ?_)
  refine spec_bind (spec_fault ⟨hs.transports, hs.order⟩ fun ext hext => ?_)
  refine spec_bind (spec_fault ⟨hs.transports, hs.order⟩ fun sending hsending => ?_)
  refine spec_bind (spec_onRemoteSdp (fun _ _ _ _ _ => ⟨hs.transports, hs.order⟩)
    fun sdp' updated hsdp' hupdated => ?_)
  obtain rfl : sdp = sdp' := Option.some.inj hsdp'
  refine spec_bind (spec_fault ⟨hs.transports, hs.order⟩ fun reduced hreduced => ?_)
  refine spec_bind (spec_fault ⟨hs.transports, hs.order⟩ fun remote hremote => ?_)
  refine spec_bind (spec_fault ⟨hs.transports, hs.order⟩ fun remoteRtpParam hremoteRtp => ?_)
  refine spec_bind (spec_lift ⟨hs.transports, hs.order⟩ fun _ hset => ?_)
  refine spec_bind (spec_lift ⟨hs.transports, hs.order⟩ fun localId hmid => ?_)
  refine spec_bind (spec_lift ⟨hs.transports, hs.order⟩ fun sections hsections => ?_)
  refine spec_bind (spec_fault ⟨hs.transports, hs.order⟩ fun mimeType hmime => ?_)
  have hmimeType : videoMimeType ext = .ok mimeType := by
    simp only [videoMimeType, hsending, ok_bind, hreduced, hmime]
  refine spec_bind (spec_localMedia ?_)
  have hsaid : ∀ own, Ordered list (s.said (.localMedia msidx.idx own)).toMediaControl :=
    fun _ => hs.said trivial
  refine spec_bind (spec_fault ⟨hs.transports, (hsaid _).order⟩ fun cname hcname => ?_)
  refine spec_bind (spec_get ?_)
  refine spec_bind (spec_fault ⟨hs.transports, (hsaid _).order⟩ fun rtpParam hcomplete => ?_)
  refine spec_bind (spec_mono (answerOffer_order
      (c := tp.id ∈ connects s.events)
      ⟨⟨hs.transports, (hsaid _).order⟩, fun hconnected => ?_⟩ fun sdp' valid hsdp' hvalid hsent => ?_)
    (fun _ _ h => h.toOrdered) (fun _ _ h => h.elim) fun _ h => h.toOrdered)
  · exact (connects_localMedia s.events msidx.idx _).symm ▸ hconnected
  · obtain rfl : updated = sdp' := Option.some.inj hsdp'
    rcases hguard tp (hs.transports ▸ htp) with hconnected | ⟨hnone, hno⟩
    · exact hconnected
    · rw [hnone] at hcname hvalid
      rw [← producedRtpParam_eq hsending hreduced hremote hremoteRtp hcomplete] at hvalid
      exact (hno ⟨htrack, htransceiver, htp, ⟨offer, dtlsParameters, hoffer, hdtls⟩, hset, sdp,
        msidx, role, updated, sections, ext, localId, mimeType, cname, valid, hsdp, hidx, hrole, hupdated,
        hsections, hext, hmid, hmimeType, hcname, hvalid, hs.transports ▸ hsent⟩).elim

/-! ### Subscribing -/

/-- The turn of a consumer gets past the codecs of its answer, where the transport is connected. -/
def ConsumerConnects (env : Subscription) (tp : JsonTransportParam) (i : ℕ)
    (req : NewConsumerRequest) (rsdp : RemoteSdp) : Prop :=
  ∃ data rtpParameters cname received printed localSdpObject dtlsParameters answerMedia applied,
    dataOf req = .ok (data, rtpParameters) ∧
    consumerCname (toJson rtpParameters) = .ok cname ∧
    rsdp.receive (consumerMid rtpParameters) (data.kind.getD "") (toJson rtpParameters) cname tp.id =
      .returned received ∧
    received.getSdp = .returned printed ∧
    (env.consumer i).setRemoteDescription = .ok () ∧
    (env.consumer i).answer = .ok localSdpObject ∧
    extractDtlsParameters localSdpObject = .ok dtlsParameters ∧
    answerMediaOf (consumerMid rtpParameters) localSdpObject = .ok answerMedia ∧
    applyCodecParameters env.parseParams (toJson rtpParameters) answerMedia = .ok applied

/-- A subscribe gets as far as its connect request. -/
structure SubscribeConnects (s : MediaControl) (tp : JsonTransportParam) (env : Subscription)
    (uid : String) : Prop where
  transport : s.transportList.getRecvTransportParam = some tp
  first : ∃ peer req reqs rsdp rsdp', s.peerOf uid = some peer ∧
    s.consumersOf peer = some (req :: reqs) ∧
    RemoteSdp.new tp.iceParams tp.iceCandidates tp.dtlsParams tp.sctpParams = .ok rsdp ∧
    rsdp.updateDtlsRole "server" = .returned rsdp' ∧ ConsumerConnects env tp 0 req rsdp'

/-- Only the first turn connects. -/
theorem receiveConsumer_order {list : TransportList} {s : Session} {env : Subscription}
    {tp : JsonTransportParam} {i : ℕ} {req : NewConsumerRequest} {rsdp : RemoteSdp}
    (hs : Ordered list s.toMediaControl) (htp : list.getRecvTransportParam = some tp)
    (hguard : i = 0 → ConsumerConnects env tp i req rsdp → tp.id ∉ connects s.events) :
    Spec (receiveConsumer env tp i req rsdp) s (fun _ s' => Ordered list s'.toMediaControl)
      (fun _ s' => Ordered list s'.toMediaControl) fun s' => Ordered list s'.toMediaControl := by
  refine spec_bind (spec_fault hs fun ⟨data, rtpParameters⟩ hdata => ?_)
  refine spec_bind (spec_fault hs fun cname hcname => ?_)
  refine spec_bind (spec_ofOutcome hs fun received hreceived => ?_)
  refine spec_bind (spec_ofOutcome hs fun printed hprinted => ?_)
  refine spec_bind (spec_modify ?_)
  refine spec_bind (spec_lift ⟨hs.transports, hs.order⟩ fun _ hset => ?_)
  refine spec_bind (spec_lift ⟨hs.transports, hs.order⟩ fun localSdpObject hanswer => ?_)
  refine spec_bind (spec_fault ⟨hs.transports, hs.order⟩ fun dtlsParameters hdtls => ?_)
  refine spec_bind (spec_fault ⟨hs.transports, hs.order⟩ fun answerMedia hmedia => ?_)
  refine spec_bind (spec_lift ⟨hs.transports, hs.order⟩ fun applied happlied => ?_)
  have hconnects : ConsumerConnects env tp i req rsdp :=
    ⟨data, rtpParameters, cname, received, printed, localSdpObject, dtlsParameters, answerMedia,
      applied, hdata, hcname, hreceived, hprinted, hset, hanswer, hdtls, hmedia, happlied⟩
  have hrest : ∀ s' : Session, Ordered list s'.toMediaControl → ∀ ret : ℤ,
      Spec (do
          ensure ret (decide (ret = 0))
          (env.consumer i).setLocalDescription
          return printed : Body RemoteSdp) s' (fun _ s' => Ordered list s'.toMediaControl)
        (fun _ s' => Ordered list s'.toMediaControl) fun s' => Ordered list s'.toMediaControl :=
    fun s' hs' ret => spec_bind (spec_ensure (fun _ => hs') fun _ =>
      spec_bind (spec_lift hs' fun _ _ => hs'))
  split_ifs with hi
  · have htp' : s.transportList.getRecvTransportParam = some tp := by rw [hs.transports]; exact htp
    obtain ⟨data', hdata', hid⟩ := TransportList.connectRequest_sent
      (TransportList.firstWhere_get htp') dtlsParameters
    refine spec_bind (spec_connectWebrtcTransport (fun hno => ?_) fun sent hsent => hrest _ ?_ 0)
    · cases hdata'.symm.trans hno
    · obtain rfl : data' = sent := Option.some.inj (hdata'.symm.trans hsent)
      exact ⟨hs.transports, hs.order.said (e := .connectWebRtcTransport data')
        (hid.symm ▸ hguard hi hconnects : data'.transportId ∉ connects s.events)⟩
  · refine spec_bind (spec_pure (hrest _ ?_ 0))
    exact ⟨hs.transports, hs.order⟩

/-- The loop connects in its first turn, or not at all. -/
theorem receiveConsumers_order {list : TransportList} {env : Subscription}
    {tp : JsonTransportParam} (htp : list.getRecvTransportParam = some tp) :
    ∀ (reqs : List NewConsumerRequest) (i : ℕ) (rsdp : RemoteSdp) (s : Session),
      Ordered list s.toMediaControl →
      (i = 0 → ∀ req rest, reqs = req :: rest → ConsumerConnects env tp 0 req rsdp →
        tp.id ∉ connects s.events) →
      Spec (receiveConsumers env tp i reqs rsdp) s (fun _ s' => Ordered list s'.toMediaControl)
        (fun _ s' => Ordered list s'.toMediaControl) fun s' => Ordered list s'.toMediaControl
  | [], _, _, _, hs, _ => spec_pure hs
  | req :: reqs, i, rsdp, s, hs, hguard => by
    refine spec_bind (spec_mono (receiveConsumer_order hs htp fun hi hconnects => ?_)
      (fun rsdp' s' hs' => ?_) (fun _ _ h => h) fun _ h => h)
    · exact hguard hi req reqs rfl (hi ▸ hconnects)
    · exact receiveConsumers_order htp reqs (i + 1) rsdp' s' hs' fun hi => absurd hi (by omega)

/-- Subscribing keeps the order if the transport is not connected yet. -/
theorem subscribe_order {list : TransportList} {s : MediaControl} {env : Subscription}
    {uid : String} (hs : Ordered list s)
    (hguard : ∀ tp, SubscribeConnects s tp env uid → tp.id ∉ connects s.events) :
    Spec (subscribe env uid) s (fun _ => Ordered list) (fun _ => Ordered list) (Ordered list) := by
  refine spec_inside (spec_bind (spec_mono (?_ : Spec (subscribeStreams env uid) _
    (fun _ s' => Ordered list s'.toMediaControl) (fun _ s' => Ordered list s'.toMediaControl)
    fun s' => Ordered list s'.toMediaControl) (fun _ s' hs' => ?_) (fun _ _ h => h) fun _ h => h))
  · refine spec_bind (spec_get ?_)
    refine spec_bind (spec_check (fun _ => hs) fun peer hpeer => ?_)
    refine spec_bind (spec_check (fun _ => hs) fun reqs hreqs => ?_)
    refine spec_bind (spec_check (fun _ => hs) fun tp htp => ?_)
    refine spec_bind (spec_fault hs fun rsdp hnew => ?_)
    refine spec_bind (spec_ofOutcome hs fun rsdp' hrole => ?_)
    refine spec_bind (spec_mono (receiveConsumers_order (hs.transports ▸ htp) reqs 0 rsdp' _ hs
      fun _ req rest heq hconnects => ?_) (fun _ _ h => h) (fun _ _ h => h) fun _ h => h)
    subst heq
    exact hguard tp ⟨htp, peer, req, rest, rsdp, rsdp', hpeer, hreqs, hnew, hrole, hconnects⟩
  · refine spec_bind (spec_lift hs' fun _ _ => ?_)
    exact spec_bind (spec_modify ⟨hs'.transports, hs'.order⟩)

/-! ### Publishing -/

/-- Publishing keeps the order if audio does not connect the transport again, and video on its own
    is produced over a transport that is connected. -/
theorem publish_order {list : TransportList} {s : MediaControl} {audio video : Negotiation}
    {streamType : PublishStreamType} {benableAudio : Bool} (hs : Ordered list s)
    (haudio : ∀ tp, AudioConnects s tp audio benableAudio → tp.id ∉ connects s.events)
    (hvideo : ∀ tp, ¬AudioStarts audio benableAudio → VideoProduces s tp video →
      tp.id ∈ connects s.events) :
    Spec (publish audio video streamType benableAudio) s (fun _ => Ordered list)
      (fun _ => Ordered list) (Ordered list) := by
  have hrest : ∀ s' : Session, Ordered list s'.toMediaControl →
      (∀ tp, list.getSendTransportParam = some tp → tp.id ∈ connects s'.events ∨
        s'.pc.transceivers = [] ∧ ¬VideoProduces s'.toMediaControl tp video) →
      Spec (do
          let _ ← enter (enableVideo video)
          modify fun s => { s with publishPcs := s.publishPcs.insert streamType.value s.pc }
          return 0 : Body ℤ) s' (fun _ s' => Ordered list s'.toMediaControl)
        (fun _ s' => Ordered list s'.toMediaControl) fun s' => Ordered list s'.toMediaControl :=
    fun s' hs' hguard => spec_bind (spec_enter (spec_mono (enableVideo_order hs' hguard)
      (fun _ _ h => spec_bind (spec_modify ⟨h.transports, h.order⟩))
      (fun _ _ h => spec_bind (spec_modify ⟨h.transports, h.order⟩)) fun _ h => h))
  refine spec_inside (spec_bind (spec_enter (spec_mono
    (enableAudio_order (s := { toMediaControl := s }) hs haudio)
    (fun _ s' h => ?_) (fun _ s' h => ?_) fun _ h => h)))
  · obtain ⟨tp, htp, hconnected⟩ := h
    refine hrest s' hconnected.toOrdered fun tp' htp' => .inl ?_
    obtain rfl : tp = tp' := Option.some.inj (htp.symm.trans htp')
    exact hconnected.connected trivial
  · obtain ⟨heq, hcase⟩ := h
    refine hrest s' (heq.symm ▸ hs) fun tp htp => ?_
    rcases hcase with hnone | ⟨hpc, hno⟩
    · cases hnone.symm.trans htp
    · by_cases hconnected : tp.id ∈ connects s.events
      · exact .inl (heq.symm ▸ hconnected)
      · refine .inr ⟨hpc.symm ▸ rfl, fun hproduces => ?_⟩
        rw [heq] at hproduces
        exact hconnected (hvideo tp hno hproduces)

/-! ### Runs -/

/-- The calls that keep the order. A publish with audio finds the transport not yet connected, one
    that starts with video finds it connected, and a subscribe is the first. -/
def InOrder (s : MediaControl) : Label → Prop
  | .publish audio video _ benableAudio =>
    (∀ tp, AudioConnects s tp audio benableAudio → tp.id ∉ connects s.events) ∧
      ∀ tp, ¬AudioStarts audio benableAudio → VideoProduces s tp video → tp.id ∈ connects s.events
  | .subscribe env uid => ∀ tp, SubscribeConnects s tp env uid → tp.id ∉ connects s.events
  | .unpublish _ | .unsubscribe _ | .newConsumer _ => True

/-- One call. -/
theorem ordered_step {list : TransportList} {parse : String → Option Value} {s s' : MediaControl}
    {l : Label} (hs : Ordered list s) (hin : InOrder s l)
    (hstep : (mediaControl parse).step s l = some s') : Ordered list s' := by
  refine outcome_rule ?_ hstep
  cases l with
  | publish audio video streamType benableAudio => exact publish_order hs hin.1 hin.2
  | unpublish streamType =>
    exact spec_bind (spec_get (spec_bind (spec_check (fun _ => hs) fun _ _ =>
      spec_bind (spec_modify ⟨hs.transports, hs.order⟩))))
  | subscribe env uid => exact subscribe_order hs hin
  | unsubscribe uid => exact spec_bind (spec_modify ⟨hs.transports, hs.order⟩)
  | newConsumer text =>
    refine spec_bind (spec_lift hs fun req _ => ?_)
    cases req.data with
    | none => trivial
    | some data =>
      exact spec_bind (spec_modify (spec_bind (spec_modify
        ⟨hs.transports, hs.order.said (e := .response _ true) trivial⟩)))

/-- CORRECT: in every run whose calls are in order, every produce request comes after a connect
    request for its transport, and no transport is connected twice. -/
theorem connected_once_before_produce {parse : String → Option Value} {list : TransportList}
    {peerList : StdMap String Unit} {networkPriority : Json} {ls : List Label}
    (h : (mediaControl parse).Along InOrder (joined list peerList networkPriority) ls) :
    (mediaControl parse).Always (fun s => TransportOrder s.events)
      (joined list peerList networkPriority) ls :=
  (mediaControl parse).always_of_inv (Ordered list)
    (fun _ _ _ hs hin hstep => ordered_step hs hin hstep) (fun _ hs => hs.order)
    ⟨rfl, transportOrder_nil⟩ h

theorem inOrder_audioVideo₀ : InOrder room₀ audioVideo₀ := by
  unfold audioVideo₀ InOrder
  exact ⟨fun _ _ => List.not_mem_nil, fun _ hno => (hno ⟨rfl, rfl, rfl⟩).elim⟩

theorem connected_once_before_produce_audio : ∃ s,
    (mediaControl fun _ => none).exec room₀ [audioVideo₀] = some s ∧
      connects s.events = ["send"] ∧ produces s.events = ["send", "send"] ∧
      TransportOrder s.events := by
  have hrun : ((mediaControl fun _ => none).exec room₀ [audioVideo₀]).map
      (fun s => (connects s.events, produces s.events)) = some (["send"], ["send", "send"]) := by
    decide +kernel
  obtain ⟨s, hs, hread⟩ := Option.map_eq_some_iff.mp hrun
  obtain ⟨hconnects, hproduces⟩ := Prod.mk.inj hread
  refine ⟨s, hs, hconnects, hproduces, ?_⟩
  clear hrun
  -- the run is not evaluated again
  have hin := inOrder_audioVideo₀
  generalize audioVideo₀ = l at hs hin
  exact (mediaControl fun _ => none).always_exec
    (connected_once_before_produce ((mediaControl fun _ => none).along_singleton hin)) hs

/-- Video on its own is produced over a transport that was never connected. -/
theorem video_produced_unconnected : ∃ s,
    (mediaControl fun _ => none).exec room₀ [videoOnly₀] = some s ∧ ¬TransportOrder s.events := by
  have hrun : ((mediaControl fun _ => none).exec room₀ [videoOnly₀]).map
      (fun s => (connects s.events, produces s.events)) = some ([], ["send"]) := by
    decide +kernel
  obtain ⟨s, hs, hread⟩ := Option.map_eq_some_iff.mp hrun
  obtain ⟨hconnects, hproduces⟩ := Prod.mk.inj hread
  refine ⟨s, hs, fun ho => ?_⟩
  have hmem := ho.produced (hproduces ▸ List.mem_singleton_self "send")
  rw [hconnects] at hmem
  cases hmem

end MediasoupClient.Control
