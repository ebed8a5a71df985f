import MediasoupClient.Control.MediaControl

/-! What each statement of a body can leave.

    A statement that computes something leaves the object as it is, whether it throws or goes on.
    The rest change one member each:

        say              events
        openRemoteSdp    remoteSdp, if there is none
        onRemoteSdp      remoteSdp
        localMedia       events
        connect, produce events, if a request is sent -/

namespace MediasoupClient.Control
open Lib Signaling Sdp Api Call

section
variable {σ α τ : Type} {s : σ} {Q : α → σ → Prop} {R : ℤ → σ → Prop} {E : σ → Prop}

theorem spec_lift {x : Except Invalid α} (hE : E s) (hQ : ∀ a, x = .ok a → Q a s) :
    Spec (liftM x : Call Invalid σ α) s Q R E := by
  cases x with
  | ok a => exact hQ a rfl
  | error e =>
    cases e with
    | exception text => exact hE
    | fault f =>
      cases f with
      | typeError id => exact hE
      | undefined => trivial

theorem spec_fault {x : Except Fault α} (hE : E s) (hQ : ∀ a, x = .ok a → Q a s) :
    Spec (liftM x : Call Invalid σ α) s Q R E := by
  cases x with
  | ok a => exact hQ a rfl
  | error e =>
    cases e with
    | typeError id => exact hE
    | undefined => trivial

theorem spec_ofOutcome {o : Outcome Fault α} (hE : E s) (hQ : ∀ a, o = .returned a → Q a s) :
    Spec (ofOutcome o : Call Invalid σ α) s Q R E := by
  cases o with
  | returned a => exact hQ a rfl
  | threw e a => exact hE
  | undefined => trivial

theorem keeps_lift {P : σ → Prop} (x : Except Invalid α) :
    Keeps P (liftM x : Call Invalid σ α) := fun _ hs => spec_lift hs fun _ _ => hs

theorem keeps_fault {P : σ → Prop} (x : Except Fault α) :
    Keeps P (liftM x : Call Invalid σ α) := fun _ hs => spec_fault hs fun _ _ => hs

theorem keeps_ofOutcome {P : σ → Prop} (o : Outcome Fault α) :
    Keeps P (ofOutcome o : Call Invalid σ α) := fun _ hs => spec_ofOutcome hs fun _ _ => hs

end

section
variable {α : Type} {s : Session} {R : ℤ → Session → Prop} {E : Session → Prop}

/-- The session after an event. -/
def Session.said (s : Session) (event : Event) : Session :=
  { s with events := s.events ++ [event] }

/-- The session with this remote description. -/
def Session.withSdp (s : Session) (sdp : RemoteSdp) : Session := { s with remoteSdp := some sdp }

theorem spec_say {event : Event} {Q : Unit → Session → Prop} (h : Q () (s.said event)) :
    Spec (say event) s Q R E := h

theorem spec_sendTransport {Q : JsonTransportParam → Session → Prop}
    (hnone : s.transportList.getSendTransportParam = none → R (-1) s)
    (hsome : ∀ tp, s.transportList.getSendTransportParam = some tp → Q tp s) :
    Spec sendTransport s Q R E := spec_bind (spec_get (spec_check hnone hsome))

theorem spec_openRemoteSdp {tp : JsonTransportParam} {Q : Unit → Session → Prop} (hE : E s)
    (hQ : ∀ sdp, s.sdpFor tp = .ok sdp → Q () (s.withSdp sdp)) :
    Spec (openRemoteSdp tp) s Q R E :=
  spec_bind (spec_get (spec_bind (spec_fault hE fun sdp hsdp => spec_modify (hQ sdp hsdp))))

theorem spec_remoteSdpValue {Q : RemoteSdp → Session → Prop}
    (hQ : ∀ sdp, s.remoteSdp = some sdp → Q sdp s) : Spec remoteSdpValue s Q R E := by
  refine spec_bind (spec_get ?_)
  cases hs : s.remoteSdp with
  | none => trivial
  | some sdp => exact hQ sdp hs

theorem spec_nextMediaSectionIdx {Q : MediaSectionIdx → Session → Prop} (hE : E s)
    (hQ : ∀ sdp idx, s.remoteSdp = some sdp → sdp.getNextMediaSectionIdx = .ok idx → Q idx s) :
    Spec nextMediaSectionIdx s Q R E :=
  spec_bind (spec_remoteSdpValue fun sdp hsdp => spec_fault hE fun idx hidx => hQ sdp idx hsdp hidx)

theorem spec_onRemoteSdp {f : RemoteSdp → Outcome Fault RemoteSdp} {Q : Unit → Session → Prop}
    (hE : ∀ sdp e sdp', s.remoteSdp = some sdp → f sdp = .threw e sdp' → E (s.withSdp sdp'))
    (hQ : ∀ sdp sdp', s.remoteSdp = some sdp → f sdp = .returned sdp' → Q () (s.withSdp sdp')) :
    Spec (onRemoteSdp f) s Q R E := by
  refine spec_bind (spec_remoteSdpValue fun sdp hsdp => ?_)
  cases hf : f sdp with
  | returned sdp' => exact hQ sdp sdp' hsdp hf
  | threw e sdp' => exact hE sdp e sdp' hsdp hf
  | undefined => trivial

theorem spec_connectWebrtcTransport {id : String} {dtlsParameters : Json}
    {Q : ℤ → Session → Prop}
    (hno : s.transportList.connectRequest id dtlsParameters = none → Q (-1) s)
    (hyes : ∀ data, s.transportList.connectRequest id dtlsParameters = some data →
      Q 0 (s.said (.connectWebRtcTransport data))) :
    Spec (connectWebrtcTransport id dtlsParameters) s Q R E := by
  refine spec_bind (spec_get ?_)
  cases h : s.transportList.connectRequest id dtlsParameters with
  | none => exact hno h
  | some data => exact hyes data h

theorem spec_produce {id kind : String} {rtpParam : Json} {Q : Unit → Session → Prop}
    (hno : Q () s)
    (hyes : ∀ rtpParameters, s.transportList.produceRequest id rtpParam = some rtpParameters →
      Q () (s.said (.produce id kind rtpParameters))) :
    Spec (produce id kind rtpParam) s Q R E := by
  refine spec_bind (spec_get ?_)
  cases h : s.transportList.produceRequest id rtpParam with
  | none => exact hno
  | some rtpParameters => exact hyes rtpParameters h

theorem spec_localMedia {sections : ℕ → Json} {idx : ℕ} {Q : Json → Session → Prop}
    (hQ : Q (((List.range s.pc.transceivers.length).map sections).getD idx .null)
      (s.said (.localMedia idx (s.pc.transceivers.length - 1)))) :
    Spec (localMedia sections idx) s Q R E := spec_bind (spec_get (spec_bind (spec_say hQ)))

end

/-! ### What a subscribe preserves

Of the object it changes the events, by a connect request, and the peer connections of the
subscriptions. -/

section
variable {P : MediaControl → Prop}

theorem preserves_connectWebrtcTransport
    (hsaid : ∀ s data, P s → P { s with events := s.events ++ [.connectWebRtcTransport data] })
    (id : String) (dtlsParameters : Json) :
    Preserves (fun s : Session => P s.toMediaControl)
      (connectWebrtcTransport id dtlsParameters) := fun s hs =>
  spec_connectWebrtcTransport (fun _ => hs) fun data _ => hsaid s.toMediaControl data hs

theorem preserves_receiveConsumer
    (hsaid : ∀ s data, P s → P { s with events := s.events ++ [.connectWebRtcTransport data] })
    (env : Subscription) (tp : JsonTransportParam) (i : ℕ) (req : NewConsumerRequest)
    (rsdp : RemoteSdp) :
    Preserves (fun s : Session => P s.toMediaControl) (receiveConsumer env tp i req rsdp) := by
  refine preserves_bind (keeps_fault _).preserves fun ⟨data, rtpParameters⟩ => ?_
  refine preserves_bind (keeps_fault _).preserves fun cname => ?_
  refine preserves_bind (keeps_ofOutcome _).preserves fun received => ?_
  refine preserves_bind (keeps_ofOutcome _).preserves fun printed => ?_
  refine preserves_bind (fun _ hs => spec_modify hs) fun _ => ?_
  refine preserves_bind (keeps_lift _).preserves fun _ => ?_
  refine preserves_bind (keeps_lift _).preserves fun localSdpObject => ?_
  refine preserves_bind (keeps_fault _).preserves fun dtlsParameters => ?_
  refine preserves_bind (keeps_fault _).preserves fun answerMedia => ?_
  refine preserves_bind (keeps_lift _).preserves fun _ => ?_
  have hrest : ∀ ret : ℤ, Preserves (fun s : Session => P s.toMediaControl) (do
      ensure ret (decide (ret = 0))
      (env.consumer i).setLocalDescription
      return printed : Body RemoteSdp) := fun ret =>
    preserves_bind (preserves_ensure ret _) fun _ =>
      preserves_bind (keeps_lift _).preserves fun _ => (keeps_pure printed).preserves
  split_ifs
  · exact preserves_bind (preserves_connectWebrtcTransport hsaid tp.id dtlsParameters) hrest
  · exact preserves_bind (keeps_pure 0).preserves hrest

theorem preserves_receiveConsumers
    (hsaid : ∀ s data, P s → P { s with events := s.events ++ [.connectWebRtcTransport data] })
    (env : Subscription) (tp : JsonTransportParam) : ∀ (reqs : List NewConsumerRequest) (i : ℕ)
      (rsdp : RemoteSdp),
      Preserves (fun s : Session => P s.toMediaControl) (receiveConsumers env tp i reqs rsdp)
  | [], _, rsdp => (keeps_pure rsdp).preserves
  | req :: reqs, i, rsdp =>
    preserves_bind (preserves_receiveConsumer hsaid env tp i req rsdp) fun rsdp' =>
      preserves_receiveConsumers hsaid env tp reqs (i + 1) rsdp'

theorem preserves_subscribe
    (hsaid : ∀ s data, P s → P { s with events := s.events ++ [.connectWebRtcTransport data] })
    (hpcs : ∀ s pcs, P s → P { s with subPcs := pcs }) (env : Subscription) (uid : String) :
    Preserves P (subscribe env uid) := by
  refine preserves_inside (fun _ => rfl) ?_
  refine preserves_bind ?_ fun ⟨peer, _⟩ => ?_
  · refine preserves_bind keeps_get.preserves fun s => ?_
    refine preserves_bind (preserves_check _ _) fun peer => ?_
    refine preserves_bind (preserves_check _ _) fun reqs => ?_
    refine preserves_bind (preserves_check _ _) fun tp => ?_
    refine preserves_bind (keeps_fault _).preserves fun rsdp => ?_
    refine preserves_bind (keeps_ofOutcome _).preserves fun rsdp' => ?_
    exact preserves_bind (preserves_receiveConsumers hsaid env tp reqs 0 rsdp') fun _ =>
      (keeps_pure _).preserves
  · refine preserves_bind (keeps_lift _).preserves fun _ => ?_
    exact preserves_bind (fun s hs => spec_modify (hpcs s.toMediaControl _ hs)) fun _ =>
      (keeps_pure 0).preserves

end

/-! ### What a publish preserves

Of the object it changes the remote description, the settings, the events and the peer connections
of the publishes. -/

/-- Nothing that a publish changes matters. -/
structure PublishStable (P : MediaControl → Prop) : Prop where
  remoteSdp : ∀ s sdp, P s → P { s with remoteSdp := sdp }
  encodings : ∀ s encodings, P s → P { s with encodings := encodings }
  events : ∀ s events, P s → P { s with events := events }
  publishPcs : ∀ s pcs, P s → P { s with publishPcs := pcs }

section
variable {P : MediaControl → Prop} (hP : PublishStable P)
include hP

/-- The statements of both kinds of tracks. -/
abbrev PreservesPublish (P : MediaControl → Prop) {α : Type} (x : Body α) : Prop :=
  Preserves (fun s : Session => P s.toMediaControl) x

theorem preserves_openRemoteSdp (tp : JsonTransportParam) :
    PreservesPublish P (openRemoteSdp tp) := fun s hs =>
  spec_openRemoteSdp hs fun sdp _ => hP.remoteSdp s.toMediaControl (some sdp) hs

theorem preserves_onRemoteSdp (f : RemoteSdp → Outcome Fault RemoteSdp) :
    PreservesPublish P (onRemoteSdp f) := fun s hs =>
  spec_onRemoteSdp (fun _ _ sdp _ _ => hP.remoteSdp s.toMediaControl (some sdp) hs)
    fun _ sdp _ _ => hP.remoteSdp s.toMediaControl (some sdp) hs

omit hP in
theorem preserves_remoteSdpValue : PreservesPublish P remoteSdpValue := fun _ hs =>
  spec_remoteSdpValue fun _ _ => hs

omit hP in
theorem preserves_nextMediaSectionIdx : PreservesPublish P nextMediaSectionIdx := fun _ hs =>
  spec_nextMediaSectionIdx hs fun _ _ _ _ => hs

omit hP in
theorem preserves_sendTransport : PreservesPublish P sendTransport := fun _ hs =>
  spec_sendTransport (fun _ => hs) fun _ _ => hs

theorem preserves_localMedia (sections : ℕ → Json) (idx : ℕ) :
    PreservesPublish P (localMedia sections idx) := fun s hs =>
  spec_localMedia (hP.events s.toMediaControl _ hs)

theorem preserves_answerOffer (env : Negotiation) (tp : JsonTransportParam) (kind : String)
    (offerMediaObject : Json) (reuseMid : String) (rtpParam remoteRtpParam codecOptions : Json) :
    PreservesPublish P
      (answerOffer env tp kind offerMediaObject reuseMid rtpParam remoteRtpParam codecOptions) := by
  refine preserves_bind preserves_remoteSdpValue fun sdp => ?_
  refine preserves_bind (preserves_onRemoteSdp hP _) fun _ => ?_
  refine preserves_bind (keeps_lift _).preserves fun valid => ?_
  refine preserves_bind (fun s hs => spec_produce hs fun _ _ =>
    hP.events s.toMediaControl _ hs) fun _ => ?_
  refine preserves_bind (preserves_onRemoteSdp hP _) fun _ => ?_
  refine preserves_bind preserves_remoteSdpValue fun answer => ?_
  refine preserves_bind keeps_get.preserves fun s => ?_
  refine preserves_bind (fun s hs => spec_say (hP.events s.toMediaControl _ hs)) fun _ => ?_
  exact preserves_bind (fun _ hs => spec_modify hs) fun _ => (keeps_lift _).preserves

theorem preserves_enableAudio (env : Negotiation) (enable : Bool) :
    PreservesPublish P (enableAudio env enable) := by
  refine preserves_bind (preserves_ensure _ _) fun _ => ?_
  refine preserves_bind (preserves_ensure _ _) fun _ => ?_
  refine preserves_bind (preserves_ensure _ _) fun _ => ?_
  refine preserves_bind (fun _ hs => spec_modify hs) fun _ => ?_
  refine preserves_bind preserves_sendTransport fun tp => ?_
  refine preserves_bind (keeps_lift _).preserves fun offer => ?_
  refine preserves_bind (keeps_fault _).preserves fun dtlsParameters => ?_
  refine preserves_bind (preserves_openRemoteSdp hP tp) fun _ => ?_
  refine preserves_bind preserves_nextMediaSectionIdx fun msidx => ?_
  refine preserves_bind (keeps_fault _).preserves fun role => ?_
  refine preserves_bind (keeps_fault _).preserves fun written => ?_
  refine preserves_bind (preserves_connectWebrtcTransport
    (fun s _ hs => hP.events s _ hs) tp.id written) fun ret => ?_
  refine preserves_bind (preserves_ensure _ _) fun _ => ?_
  refine preserves_bind (preserves_onRemoteSdp hP _) fun _ => ?_
  refine preserves_bind (keeps_fault _).preserves fun ext => ?_
  refine preserves_bind (keeps_fault _).preserves fun sending => ?_
  refine preserves_bind (keeps_fault _).preserves fun rtpParam => ?_
  refine preserves_bind (keeps_fault _).preserves fun remote => ?_
  refine preserves_bind (keeps_fault _).preserves fun remoteRtpParam => ?_
  refine preserves_bind (keeps_lift _).preserves fun _ => ?_
  refine preserves_bind (keeps_lift _).preserves fun localId => ?_
  refine preserves_bind (keeps_lift _).preserves fun sections => ?_
  refine preserves_bind (preserves_localMedia hP sections msidx.idx) fun media => ?_
  refine preserves_bind (keeps_fault _).preserves fun cname => ?_
  refine preserves_bind (keeps_lift _).preserves fun encodings => ?_
  refine preserves_bind (keeps_fault _).preserves fun rtpParam => ?_
  exact preserves_bind (preserves_answerOffer hP _ _ _ _ _ _ _ _) fun _ =>
    (keeps_pure 0).preserves

theorem preserves_enableVideo (env : Negotiation) : PreservesPublish P (enableVideo env) := by
  refine preserves_bind (preserves_ensure _ _) fun _ => ?_
  refine preserves_bind (fun s hs => spec_modify (hP.encodings s.toMediaControl _ hs)) fun _ => ?_
  refine preserves_bind (preserves_ensure _ _) fun _ => ?_
  refine preserves_bind (fun _ hs => spec_modify hs) fun _ => ?_
  refine preserves_bind preserves_sendTransport fun tp => ?_
  refine preserves_bind (keeps_lift _).preserves fun offer => ?_
  refine preserves_bind (preserves_openRemoteSdp hP tp) fun _ => ?_
  refine preserves_bind preserves_nextMediaSectionIdx fun msidx => ?_
  refine preserves_bind (keeps_fault _).preserves fun role => ?_
  refine preserves_bind (keeps_fault _).preserves fun dtlsParameters => ?_
  refine preserves_bind (keeps_fault _).preserves fun ext => ?_
  refine preserves_bind (keeps_fault _).preserves fun sending => ?_
  refine preserves_bind (preserves_onRemoteSdp hP _) fun _ => ?_
  refine preserves_bind (keeps_fault _).preserves fun rtpParam => ?_
  refine preserves_bind (keeps_fault _).preserves fun remote => ?_
  refine preserves_bind (keeps_fault _).preserves fun remoteRtpParam => ?_
  refine preserves_bind (keeps_lift _).preserves fun _ => ?_
  refine preserves_bind (keeps_lift _).preserves fun localId => ?_
  refine preserves_bind (keeps_lift _).preserves fun sections => ?_
  refine preserves_bind (keeps_fault _).preserves fun mimeType => ?_
  refine preserves_bind (preserves_localMedia hP sections msidx.idx) fun media => ?_
  refine preserves_bind (keeps_fault _).preserves fun cname => ?_
  refine preserves_bind keeps_get.preserves fun s => ?_
  refine preserves_bind (keeps_fault _).preserves fun rtpParam => ?_
  exact preserves_bind (preserves_answerOffer hP _ _ _ _ _ _ _ _) fun _ =>
    (keeps_pure 0).preserves

theorem preserves_publish (audio video : Negotiation) (streamType : PublishStreamType)
    (benableAudio : Bool) : Preserves P (publish audio video streamType benableAudio) := by
  refine preserves_inside (fun _ => rfl) ?_
  refine preserves_bind (preserves_enter (preserves_enableAudio hP audio benableAudio)) fun _ => ?_
  refine preserves_bind (preserves_enter (preserves_enableVideo hP video)) fun _ => ?_
  exact preserves_bind (fun s hs => spec_modify (hP.publishPcs s.toMediaControl _ hs)) fun _ =>
    (keeps_pure 0).preserves

end

end MediasoupClient.Control
