import MediasoupClient.Control.TransportOrder
import MediasoupClient.Sdp.Sections

/-! The index of a section of `remote_sdp_`, and that of the local description.

        remote_sdp_            s₀  s₁  s₂  …        kept from publish to publish
        local description      m₀  m₁               of the peer connection of this publish

    `enable_audio` and `enable_video` take the index behind the last section of `remote_sdp_`, and
    read the local description at it. Both are in step while the sections are those of this
    publish, so only until one has added a section. -/

namespace MediasoupClient.Control
open Lib Signaling Sdp Api Call

/-- The index is that of the transceiver added last; the answer has the sections of the offer. -/
def Agrees : Event → Prop
  | .localMedia idx own => idx = own
  | .answer sections offered => sections = offered
  | _ => True

instance : DecidablePred Agrees := fun
  | .localMedia idx own => inferInstanceAs (Decidable (idx = own))
  | .answer sections offered => inferInstanceAs (Decidable (sections = offered))
  | .connectWebRtcTransport _ | .produce .. | .response .. => inferInstanceAs (Decidable True)

/-- All of them. -/
def IndicesAgree (events : List Event) : Prop := ∀ event ∈ events, Agrees event

theorem IndicesAgree.said {events : List Event} (h : IndicesAgree events) {e : Event}
    (hevent : Agrees e) : IndicesAgree (events ++ [e]) := by
  intro e' he
  rcases List.mem_append.mp he with he | he
  · exact h e' he
  · rw [List.mem_singleton.mp he]
    exact hevent

/-! ### A remote description nothing was closed in -/

/-- That many sections, all of them open and printed. -/
structure Plain (n : ℕ) (sdp : RemoteSdp) : Prop where
  sections : sdp.mediaSections.length = n
  printed : sdp.sdpObject.media.length = n
  unclosed : ∀ sec ∈ sdp.mediaSections, sec.isClosed = false

/-- Nothing is printed of a description without sections. -/
def Blank (sdp : RemoteSdp) : Prop := sdp.mediaSections = [] → sdp.sdpObject.media = []

theorem Plain.blank {n : ℕ} {sdp : RemoteSdp} (h : Plain n sdp) : Blank sdp := fun hnil => by
  have hn : 0 = n := by rw [← h.sections, hnil]; rfl
  exact List.eq_nil_of_length_eq_zero (h.printed.trans hn.symm)

theorem Blank.plain {sdp : RemoteSdp} (h : Blank sdp) (hnil : sdp.mediaSections = []) :
    Plain 0 sdp := by
  refine ⟨by rw [hnil]; rfl, by rw [h hnil]; rfl, fun sec hsec => ?_⟩
  rw [hnil] at hsec
  cases hsec

theorem plain_new {iceParameters iceCandidates dtlsParameters sctpParameters : Json}
    {sdp : RemoteSdp}
    (h : RemoteSdp.new iceParameters iceCandidates dtlsParameters sctpParameters = .ok sdp) :
    Plain 0 sdp := by
  obtain ⟨hsections, -, -, hmedia, -⟩ := RemoteSdp.new_empty h
  exact Blank.plain (fun _ => hmedia) hsections

/-- The next section goes behind all others. -/
theorem Plain.next {n : ℕ} {sdp : RemoteSdp} (h : Plain n sdp) :
    sdp.getNextMediaSectionIdx = .ok ⟨n, ""⟩ := by
  have hclosed : sdp.closedIdx = none := List.findIdx?_eq_none_iff.mpr h.unclosed
  rw [RemoteSdp.getNextMediaSectionIdx, hclosed, ← h.sections]
  rfl

theorem Plain.updated {n idx : ℕ} {sdp : RemoteSdp} {sec sec' : MediaSection} (h : Plain n sdp)
    (hsec : sdp.mediaSections[idx]? = some sec) (hclosed : sec'.isClosed = sec.isClosed) :
    Plain n (sdp.updated idx sec') := by
  have hlt : idx < sdp.mediaSections.length := (List.getElem?_eq_some_iff.mp hsec).1
  refine ⟨?_, ?_, fun t ht => ?_⟩
  · change (sdp.mediaSections.set idx sec').length = n
    rw [List.length_set, h.sections]
  · change (Json.setFill sdp.sdpObject.media idx sec'.getObject).length = n
    rw [Json.setFill_eq_set _ (h.printed.trans h.sections.symm ▸ hlt), List.length_set, h.printed]
  · rcases List.mem_or_eq_of_mem_set ht with ht | rfl
    · exact h.unclosed t ht
    · rw [hclosed]
      exact h.unclosed sec (List.mem_of_getElem? hsec)

theorem Plain.markIceLite {n : ℕ} {sdp : RemoteSdp} (h : Plain n sdp) :
    Plain n sdp.markIceLite := by
  unfold RemoteSdp.markIceLite
  split_ifs
  · exact ⟨h.sections, h.printed, h.unclosed⟩
  · exact h

/-- Printing keeps the sections and the number of their entries. -/
theorem Plain.getSdp {n : ℕ} {sdp sdp' : RemoteSdp} (h : Plain n sdp)
    (hprinted : sdp.getSdp.state? = some sdp') : Plain n sdp' := by
  obtain ⟨media, hmedia, rfl⟩ := RemoteSdp.getSdp_state hprinted
  exact ⟨h.sections, hmedia.length_eq.symm.trans h.printed, h.unclosed⟩

theorem Plain.updateDtlsRole {n : ℕ} {sdp sdp' : RemoteSdp} {role : String} (h : Plain n sdp)
    (hrole : (sdp.updateDtlsRole role).state? = some sdp') : Plain n sdp' := by
  refine RemoteSdp.updateDtlsRole_rule (fun t idx sec hsec ht => ?_) h (fun d => ?_) hrole
  · exact ht.updated hsec (sec.isClosed_setDtlsRole role)
  · exact Plain.markIceLite ⟨h.sections, h.printed, h.unclosed⟩

/-- The role of any description is updated: it prints nothing new. -/
theorem Blank.updateDtlsRole {sdp sdp' : RemoteSdp} {role : String} (h : Blank sdp)
    (hrole : (sdp.updateDtlsRole role).state? = some sdp') : Blank sdp' := by
  have hslots := (RemoteSdp.similar_updateDtlsRole hrole).slots
  intro hnil
  have hsections : sdp.mediaSections = [] := by
    rw [hnil] at hslots
    exact List.map_eq_nil_iff.mp hslots.symm
  exact ((h.plain hsections).updateDtlsRole hrole).blank hnil

/-- After a section was added there are sections. -/
theorem Blank.addMediaSection {sdp sdp' : RemoteSdp} {new : MediaSection} (h : Blank sdp)
    (hadd : (sdp.addMediaSection new).state? = some sdp') : Blank sdp' := by
  have hsome : ∀ sdp' : RemoteSdp, sdp'.mediaSections = sdp.mediaSections ++ [new] → Blank sdp' :=
    fun sdp' hsections hnil => by
      rw [hsections] at hnil
      exact (List.append_ne_nil_of_right_ne_nil _ (List.cons_ne_nil new []) hnil).elim
  rcases attempt_state hadd with rfl | ⟨firstMid, -, hadd⟩
  · exact h
  rcases attempt_state hadd with rfl | ⟨mid, -, hadd⟩
  · exact hsome _ rfl
  · obtain ⟨mids, rfl⟩ := RemoteSdp.regenerateBundleMids_state hadd
    exact hsome _ rfl

theorem Blank.send {sdp sdp' : RemoteSdp} {offerMediaObject offered answered : Json}
    {codecOptions : Option Json} (h : Blank sdp)
    (hsend : (sdp.send offerMediaObject "" offered answered codecOptions).state? = some sdp') :
    Blank sdp' := by
  rcases attempt_state hsend with rfl | ⟨⟨new, _⟩, -, hadd⟩
  · exact h
  · simp only [ne_eq, not_true_eq_false, if_false] at hadd
    exact h.addMediaSection hadd

/-- `Send` adds a section. -/
theorem Plain.send {n : ℕ} {sdp sdp' : RemoteSdp} {offerMediaObject offered answered : Json}
    {codecOptions : Option Json} (h : Plain n sdp)
    (hsend : sdp.send offerMediaObject "" offered answered codecOptions = .returned sdp') :
    Plain (n + 1) sdp' := by
  obtain ⟨⟨new, params⟩, hnew, hadd⟩ := attempt_returned hsend
  simp only [ne_eq, not_true_eq_false, if_false] at hadd
  obtain ⟨firstMid, -, hadd⟩ := attempt_returned hadd
  obtain ⟨mid, -, hadd⟩ := attempt_returned hadd
  obtain ⟨mids, -, hadd⟩ := attempt_returned hadd
  cases hadd
  refine ⟨?_, ?_, fun sec hsec => ?_⟩
  · change (sdp.mediaSections ++ [new]).length = n + 1
    rw [List.length_append, h.sections, List.length_singleton]
  · change (sdp.sdpObject.media ++ [new.getObject]).length = n + 1
    rw [List.length_append, h.printed, List.length_singleton]
  · rcases List.mem_append.mp hsec with hsec | hsec
    · exact h.unclosed sec hsec
    · rw [List.mem_singleton.mp hsec]
      exact (answerMediaSection_ok hnew).1

/-! ### What a publish keeps -/

/-- What holds between the calls. -/
structure Agreed (s : MediaControl) : Prop where
  agree : IndicesAgree s.events
  blank : ∀ sdp, s.remoteSdp = some sdp → Blank sdp

/-- The remote description has `n` sections, and the peer connection `k` transceivers. -/
structure InStep (n k : ℕ) (s : Session) : Prop where
  agree : IndicesAgree s.events
  transceivers : s.pc.transceivers.length = k
  remoteSdp : ∃ sdp, s.remoteSdp = some sdp ∧ Plain n sdp

theorem agreed_of_blank {s : MediaControl} {sdp : RemoteSdp} (hblank : Blank sdp)
    (hagree : IndicesAgree s.events) (hsdp : s.remoteSdp = some sdp) : Agreed s :=
  ⟨hagree, fun _ h => Option.some.inj (hsdp.symm.trans h) ▸ hblank⟩

section
variable {n k : ℕ} {s : Session}

theorem InStep.agreed (h : InStep n k s) : Agreed s.toMediaControl := by
  obtain ⟨sdp, hsdp, hplain⟩ := h.remoteSdp
  exact agreed_of_blank hplain.blank h.agree hsdp

theorem InStep.said (h : InStep n k s) {e : Event} (hevent : Agrees e) :
    InStep n k (s.said e) := ⟨h.agree.said hevent, h.transceivers, h.remoteSdp⟩

theorem keeps_produce_inStep (id kind : String) (rtpParam : Json) :
    Keeps (InStep n k) (produce id kind rtpParam) := fun _ hs =>
  spec_produce hs fun _ _ => hs.said trivial

theorem InStep.getSdp (hs : InStep n k s) {sdp sdp' : RemoteSdp} (hsdp : s.remoteSdp = some sdp)
    (h : sdp.getSdp.state? = some sdp') : InStep n k (s.withSdp sdp') := by
  obtain ⟨sdp₀, hsdp₀, hplain⟩ := hs.remoteSdp
  obtain rfl : sdp₀ = sdp := Option.some.inj (hsdp₀.symm.trans hsdp)
  exact ⟨hs.agree, hs.transceivers, sdp', rfl, hplain.getSdp h⟩

theorem keeps_getSdp_inStep : Keeps (InStep n k) (onRemoteSdp (·.getSdp)) := fun _ hs =>
  spec_onRemoteSdp (fun _ _ _ hsdp hthrew => hs.getSdp hsdp (by rw [hthrew]; rfl))
    fun _ _ hsdp hprinted => hs.getSdp hsdp (by rw [hprinted]; rfl)

/-- From `Send` on: the new section is the one of the transceiver added last. -/
theorem answerOffer_inStep {env : Negotiation} {tp : JsonTransportParam} {kind : String}
    {offerMediaObject rtpParam remoteRtpParam codecOptions : Json} (hs : InStep n (n + 1) s) :
    Spec (answerOffer env tp kind offerMediaObject "" rtpParam remoteRtpParam codecOptions) s
      (fun _ s' => InStep (n + 1) (n + 1) s') (fun _ _ => False)
      fun s' => Agreed s'.toMediaControl := by
  refine spec_bind (spec_remoteSdpValue fun sdp hsdp => ?_)
  obtain ⟨sdp', hsdp', hplain⟩ := hs.remoteSdp
  obtain rfl : sdp = sdp' := Option.some.inj (hsdp.symm.trans hsdp')
  refine spec_bind (spec_onRemoteSdp (fun sdp' _ left hsdp' hthrew => ?_)
    fun sdp' sent hsdp' hsent => ?_)
  · obtain rfl : sdp = sdp' := Option.some.inj (hsdp.symm.trans hsdp')
    exact agreed_of_blank (hplain.blank.send (by rw [hthrew]; rfl)) hs.agree rfl
  obtain rfl : sdp = sdp' := Option.some.inj (hsdp.symm.trans hsdp')
  have hsent : InStep (n + 1) (n + 1) (s.withSdp sent) :=
    ⟨hs.agree, hs.transceivers, sent, rfl, hplain.send hsent⟩
  refine Keeps.spec ?_ hsent (fun _ _ h => h) fun _ h => h.agreed
  refine keeps_bind (keeps_lift _) fun valid => ?_
  refine keeps_bind (keeps_produce_inStep _ _ _) fun _ => ?_
  refine keeps_bind keeps_getSdp_inStep fun _ => fun s hs => ?_
  refine spec_bind (spec_remoteSdpValue fun sdp hsdp => ?_)
  obtain ⟨sdp', hsdp', hplain⟩ := hs.remoteSdp
  obtain rfl : sdp = sdp' := Option.some.inj (hsdp.symm.trans hsdp')
  refine spec_bind (spec_get (spec_bind (spec_say (spec_bind (spec_modify ?_)))))
  have hanswered := hs.said (e := .answer sdp.sdpObject.media.length s.pc.transceivers.length)
    (hplain.printed.trans hs.transceivers.symm)
  exact keeps_lift _ _ ⟨hanswered.agree, hanswered.transceivers, hanswered.remoteSdp⟩

end

/-! ### Publishing a track -/

/-- The parameters of both sides can be made, and there is a local description. -/
structure Offers (s : MediaControl) (tp : JsonTransportParam) (env : Negotiation) (kind : String) :
    Prop where
  remoteSdp : ∃ sdp msidx role updated, s.sdpFor tp = .ok sdp ∧
    sdp.getNextMediaSectionIdx = .ok msidx ∧ localDtlsRole tp.dtlsParams = .ok role ∧
    sdp.updateDtlsRole (remoteDtlsRole role) = .returned updated
  parameters : ∃ ext sending rtpParam remote remoteRtpParam, extended tp = .ok ext ∧
    getSendingRtpParameters kind ext = .ok sending ∧ reducedCodecs sending = .ok rtpParam ∧
    getSendingRemoteRtpParameters kind ext = .ok remote ∧
    reducedCodecs remote = .ok remoteRtpParam
  setLocalDescription : env.setLocalDescription = .ok ()
  mid : ∃ mid, env.midValue = .ok mid
  localDescription : ∃ sections, env.localDescription = .ok sections

/-- The audio part of a publish gets as far as its section of the local description. -/
structure AudioReads (s : MediaControl) (tp : JsonTransportParam) (env : Negotiation)
    (enable : Bool) : Prop extends AudioConnects s tp env enable where
  offers : Offers s tp env "audio"

/-- The video part of a publish, on its own, gets as far as its section. -/
structure VideoReads (s : MediaControl) (tp : JsonTransportParam) (env : Negotiation) : Prop where
  track : env.track = true
  transceiver : env.transceiver = true
  transport : s.transportList.getSendTransportParam = some tp
  offer : ∃ offer dtlsParameters, env.offer = .ok offer ∧
    extractDtlsParameters offer = .ok dtlsParameters
  offers : Offers s tp env "video"
  mimeType : ∃ ext mimeType, extended tp = .ok ext ∧ videoMimeType ext = .ok mimeType

/-- The description that is used next is in good order, whether there is one already or not. -/
theorem Agreed.sdpFor {s : MediaControl} (hs : Agreed s) {tp : JsonTransportParam}
    {sdp : RemoteSdp} (h : s.sdpFor tp = .ok sdp) : Blank sdp := by
  cases hsdp : s.remoteSdp with
  | none =>
    simp only [MediaControl.sdpFor, hsdp] at h
    exact (plain_new h).blank
  | some sdp' =>
    simp only [MediaControl.sdpFor, hsdp] at h
    cases h
    exact hs.blank sdp hsdp

/-- Audio comes first, so it agrees if it finds no section. -/
theorem enableAudio_index {s : Session} {env : Negotiation} {enable : Bool}
    (hs : Agreed s.toMediaControl) (hpc : s.pc.transceivers = [])
    (hguard : ∀ tp, AudioReads s.toMediaControl tp env enable →
      ∀ sdp, s.sdpFor tp = .ok sdp → Plain 0 sdp) :
    Spec (enableAudio env enable) s (fun _ s' => InStep 1 1 s')
      (fun _ s' => s'.toMediaControl = s.toMediaControl ∧
        (s.transportList.getSendTransportParam = none ∨ s'.pc = s.pc ∧ ¬AudioStarts env enable))
      (fun s' => Agreed s'.toMediaControl) := by
  refine spec_bind (spec_ensure (fun hno => ⟨rfl, .inr ⟨rfl, fun hc => ?_⟩⟩) fun henabled => ?_)
  · rw [hc.enabled] at hno
    cases hno
  refine spec_bind (spec_ensure (fun hno => ⟨rfl, .inr ⟨rfl, fun hc => ?_⟩⟩) fun htrack => ?_)
  · rw [hc.track] at hno
    cases hno
  refine spec_bind (spec_ensure (fun hno => ⟨rfl, .inr ⟨rfl, fun hc => ?_⟩⟩)
    fun htransceiver => ?_)
  · rw [hc.transceiver] at hno
    cases hno
  refine spec_bind (spec_modify ?_)
  refine spec_bind (spec_sendTransport (fun hno => ⟨rfl, .inl hno⟩) fun tp htp => ?_)
  refine spec_bind (spec_lift ⟨hs.agree, hs.blank⟩ fun offer hoffer => ?_)
  refine spec_bind (spec_fault ⟨hs.agree, hs.blank⟩ fun dtlsParameters hdtls => ?_)
  refine spec_bind (spec_openRemoteSdp ⟨hs.agree, hs.blank⟩ fun sdp hsdp => ?_)
  have hblank : Blank sdp := hs.sdpFor hsdp
  refine spec_bind (spec_nextMediaSectionIdx (agreed_of_blank hblank hs.agree rfl)
    fun sdp' msidx hsdp' hidx => ?_)
  obtain rfl : sdp = sdp' := Option.some.inj hsdp'
  refine spec_bind (spec_fault (agreed_of_blank hblank hs.agree rfl) fun role hrole => ?_)
  refine spec_bind (spec_fault (agreed_of_blank hblank hs.agree rfl) fun written hwritten => ?_)
  have hconnects : AudioConnects s.toMediaControl tp env enable :=
    ⟨⟨henabled, htrack, htransceiver⟩, htp, ⟨sdp, msidx, hsdp, hidx⟩,
      ⟨offer, dtlsParameters, role, written, hoffer, hdtls, hrole, hwritten⟩⟩
  obtain ⟨data, hdata, -⟩ := TransportList.connectRequest_sent
    (TransportList.firstWhere_get htp) written
  refine spec_bind (spec_connectWebrtcTransport (fun hno => ?_) fun data' hdata' => ?_)
  · cases hdata.symm.trans hno
  have hagree : IndicesAgree (s.events ++ [.connectWebRtcTransport data']) := hs.agree.said trivial
  refine spec_bind (spec_ensure (fun hno => by cases hno) fun _ => ?_)
  refine spec_bind (spec_onRemoteSdp (fun sdp' _ left hsdp' hthrew => ?_)
    fun sdp' updated hsdp' hupdated => ?_)
  · obtain rfl : sdp = sdp' := Option.some.inj hsdp'
    exact agreed_of_blank (hblank.updateDtlsRole (by rw [hthrew]; rfl)) hagree rfl
  obtain rfl : sdp = sdp' := Option.some.inj hsdp'
  have hupd : Blank updated := hblank.updateDtlsRole (by rw [hupdated]; rfl)
  refine spec_bind (spec_fault (agreed_of_blank hupd hagree rfl) fun ext hext => ?_)
  refine spec_bind (spec_fault (agreed_of_blank hupd hagree rfl) fun sending hsending => ?_)
  refine spec_bind (spec_fault (agreed_of_blank hupd hagree rfl) fun rtpParam hrtpParam => ?_)
  refine spec_bind (spec_fault (agreed_of_blank hupd hagree rfl) fun remote hremote => ?_)
  refine spec_bind (spec_fault (agreed_of_blank hupd hagree rfl)
    fun remoteRtpParam hremoteRtpParam => ?_)
  refine spec_bind (spec_lift (agreed_of_blank hupd hagree rfl) fun _ hset => ?_)
  refine spec_bind (spec_lift (agreed_of_blank hupd hagree rfl) fun localId hmid => ?_)
  refine spec_bind (spec_lift (agreed_of_blank hupd hagree rfl) fun sections hsections => ?_)
  have hplain := hguard tp ⟨hconnects, ⟨sdp, msidx, role, updated, hsdp, hidx, hrole, hupdated⟩,
    ⟨ext, sending, rtpParam, remote, remoteRtpParam, hext, hsending, hrtpParam, hremote,
      hremoteRtpParam⟩, hset, ⟨localId, hmid⟩, ⟨sections, hsections⟩⟩ sdp hsdp
  obtain rfl : msidx = ⟨0, ""⟩ := Except.ok.inj (hidx.symm.trans hplain.next)
  refine spec_bind (spec_localMedia ?_)
  refine (?_ : ∀ t, InStep 0 1 t → Spec _ t _ _ _) _ ⟨hagree.said ?_, ?_, updated, rfl, ?_⟩
  · intro t ht
    refine spec_bind (spec_fault ht.agreed fun cname _ => ?_)
    refine spec_bind (spec_lift ht.agreed fun encodings _ => ?_)
    refine spec_bind (spec_fault ht.agreed fun rtpParam _ => ?_)
    exact spec_bind (spec_mono (answerOffer_inStep ht) (fun _ _ h => h) (fun _ _ h => h.elim)
      fun _ h => h)
  · change 0 = (s.pc.transceivers ++ ["audio"]).length - 1
    rw [hpc]
    rfl
  · change (s.pc.transceivers ++ ["audio"]).length = 1
    rw [hpc]
    rfl
  · exact hplain.updateDtlsRole (by rw [hupdated]; rfl)

/-- Video agrees if it finds one section for each transceiver. -/
theorem enableVideo_index {s : Session} {env : Negotiation} (hs : Agreed s.toMediaControl)
    (hguard : ∀ tp sdp, s.transportList.getSendTransportParam = some tp → s.sdpFor tp = .ok sdp →
      VideoReads s.toMediaControl tp env → Plain s.pc.transceivers.length sdp) :
    Spec (enableVideo env) s (fun _ s' => Agreed s'.toMediaControl)
      (fun _ s' => Agreed s'.toMediaControl) fun s' => Agreed s'.toMediaControl := by
  refine spec_bind (spec_ensure (fun _ => hs) fun htrack => ?_)
  refine spec_bind (spec_modify ?_)
  refine spec_bind (spec_ensure (fun _ => ⟨hs.agree, hs.blank⟩) fun htransceiver => ?_)
  refine spec_bind (spec_modify ?_)
  refine spec_bind (spec_sendTransport (fun _ => ⟨hs.agree, hs.blank⟩) fun tp htp => ?_)
  refine spec_bind (spec_lift ⟨hs.agree, hs.blank⟩ fun offer hoffer => ?_)
  refine spec_bind (spec_openRemoteSdp ⟨hs.agree, hs.blank⟩ fun sdp hsdp => ?_)
  have hblank : Blank sdp := hs.sdpFor hsdp
  refine spec_bind (spec_nextMediaSectionIdx (agreed_of_blank hblank hs.agree rfl)
    fun sdp' msidx hsdp' hidx => ?_)
  obtain rfl : sdp = sdp' := Option.some.inj hsdp'
  refine spec_bind (spec_fault (agreed_of_blank hblank hs.agree rfl) fun role hrole => ?_)
  refine spec_bind (spec_fault (agreed_of_blank hblank hs.agree rfl) fun dtlsParameters hdtls => ?_)
  refine spec_bind (spec_fault (agreed_of_blank hblank hs.agree rfl) fun ext hext => ?_)
  refine spec_bind (spec_fault (agreed_of_blank hblank hs.agree rfl) fun sending hsending => ?_)
  refine spec_bind (spec_onRemoteSdp (fun sdp' _ left hsdp' hthrew => ?_)
    fun sdp' updated hsdp' hupdated => ?_)
  · obtain rfl : sdp = sdp' := Option.some.inj hsdp'
    exact agreed_of_blank (hblank.updateDtlsRole (by rw [hthrew]; rfl)) hs.agree rfl
  obtain rfl : sdp = sdp' := Option.some.inj hsdp'
  have hupd : Blank updated := hblank.updateDtlsRole (by rw [hupdated]; rfl)
  refine spec_bind (spec_fault (agreed_of_blank hupd hs.agree rfl) fun rtpParam hrtpParam => ?_)
  refine spec_bind (spec_fault (agreed_of_blank hupd hs.agree rfl) fun remote hremote => ?_)
  refine spec_bind (spec_fault (agreed_of_blank hupd hs.agree rfl)
    fun remoteRtpParam hremoteRtpParam => ?_)
  refine spec_bind (spec_lift (agreed_of_blank hupd hs.agree rfl) fun _ hset => ?_)
  refine spec_bind (spec_lift (agreed_of_blank hupd hs.agree rfl) fun localId hmid => ?_)
  refine spec_bind (spec_lift (agreed_of_blank hupd hs.agree rfl) fun sections hsections => ?_)
  refine spec_bind (spec_fault (agreed_of_blank hupd hs.agree rfl) fun mimeType hmime => ?_)
  have hmimeType : videoMimeType ext = .ok mimeType := by
    simp only [videoMimeType, hsending, ok_bind, hrtpParam, hmime]
  have hplain := hguard tp sdp htp hsdp ⟨htrack, htransceiver, htp,
    ⟨offer, dtlsParameters, hoffer, hdtls⟩,
    ⟨⟨sdp, msidx, role, updated, hsdp, hidx, hrole, hupdated⟩,
      ⟨ext, sending, rtpParam, remote, remoteRtpParam, hext, hsending, hrtpParam, hremote,
        hremoteRtpParam⟩, hset, ⟨localId, hmid⟩, ⟨sections, hsections⟩⟩,
    ⟨ext, mimeType, hext, hmimeType⟩⟩
  obtain rfl : msidx = ⟨s.pc.transceivers.length, ""⟩ :=
    Except.ok.inj (hidx.symm.trans hplain.next)
  have hlength : (s.pc.transceivers ++ ["video"]).length = s.pc.transceivers.length + 1 :=
    List.length_append
  refine spec_bind (spec_localMedia ?_)
  refine (?_ : ∀ t, InStep s.pc.transceivers.length (s.pc.transceivers.length + 1) t →
    Spec _ t _ _ _) _ ⟨hs.agree.said ?_, hlength, updated, rfl, ?_⟩
  · intro t ht
    refine spec_bind (spec_fault ht.agreed fun cname _ => ?_)
    refine spec_bind (spec_get ?_)
    refine spec_bind (spec_fault ht.agreed fun rtpParam _ => ?_)
    exact spec_bind (spec_mono (answerOffer_inStep ht) (fun _ _ h => h.agreed)
      (fun _ _ h => h.elim) fun _ h => h)
  · change s.pc.transceivers.length = (s.pc.transceivers ++ ["video"]).length - 1
    rw [hlength, Nat.add_sub_cancel]
  · exact hplain.updateDtlsRole (by rw [hupdated]; rfl)

/-! ### Publishing -/

/-- The remote description has no section yet. -/
def Unused (s : MediaControl) : Prop := ∀ sdp, s.remoteSdp = some sdp → sdp.mediaSections = []

theorem Agreed.plain {s : MediaControl} (hs : Agreed s) (hunused : Unused s)
    {tp : JsonTransportParam} {sdp : RemoteSdp} (h : s.sdpFor tp = .ok sdp) : Plain 0 sdp := by
  cases hsdp : s.remoteSdp with
  | none =>
    simp only [MediaControl.sdpFor, hsdp] at h
    exact plain_new h
  | some sdp' =>
    simp only [MediaControl.sdpFor, hsdp] at h
    cases h
    exact (hs.blank sdp hsdp).plain (hunused sdp hsdp)

/-- A publish agrees if the remote description has no section yet when it gets that far. -/
theorem publish_index {s : MediaControl} {audio video : Negotiation}
    {streamType : PublishStreamType} {benableAudio : Bool} (hs : Agreed s)
    (haudio : ∀ tp, AudioReads s tp audio benableAudio → Unused s)
    (hvideo : ∀ tp, ¬AudioStarts audio benableAudio → VideoReads s tp video → Unused s) :
    Spec (publish audio video streamType benableAudio) s (fun _ => Agreed) (fun _ => Agreed)
      Agreed := by
  have hrest : ∀ s' : Session, Agreed s'.toMediaControl →
      (∀ tp sdp, s'.transportList.getSendTransportParam = some tp → s'.sdpFor tp = .ok sdp →
        VideoReads s'.toMediaControl tp video → Plain s'.pc.transceivers.length sdp) →
      Spec (do
          let _ ← enter (enableVideo video)
          modify fun s => { s with publishPcs := s.publishPcs.insert streamType.value s.pc }
          return 0 : Body ℤ) s' (fun _ s' => Agreed s'.toMediaControl)
        (fun _ s' => Agreed s'.toMediaControl) fun s' => Agreed s'.toMediaControl :=
    fun s' hs' hguard => spec_bind (spec_enter (spec_mono (enableVideo_index hs' hguard)
      (fun _ _ h => spec_bind (spec_modify ⟨h.agree, h.blank⟩))
      (fun _ _ h => spec_bind (spec_modify ⟨h.agree, h.blank⟩)) fun _ h => h))
  refine spec_inside (spec_bind (spec_enter (spec_mono
    (enableAudio_index (s := { toMediaControl := s }) hs rfl
      fun tp hreads _ hsdp => hs.plain (haudio tp hreads) hsdp)
    (fun _ s' h => ?_) (fun _ s' h => ?_) fun _ h => h)))
  · obtain ⟨sdp, hsdp, hplain⟩ := h.remoteSdp
    refine hrest s' h.agreed fun tp sdp' _ hsdp' _ => ?_
    rw [MediaControl.sdpFor, hsdp] at hsdp'
    cases hsdp'
    rw [h.transceivers]
    exact hplain
  · obtain ⟨heq, hcase⟩ := h
    refine hrest s' (heq.symm ▸ hs) fun tp sdp htp hsdp hreads => ?_
    rw [heq] at htp hsdp hreads
    rcases hcase with hnone | ⟨hpc, hno⟩
    · cases hnone.symm.trans htp
    · rw [hpc]
      exact hs.plain (hvideo tp hno hreads) hsdp

/-! ### Runs -/

/-- The calls that keep the indices: a publish gets to a section of the local description only while
    the remote description has none. -/
def First (s : MediaControl) : Label → Prop
  | .publish audio video _ benableAudio =>
    (∀ tp, AudioReads s tp audio benableAudio → Unused s) ∧
      ∀ tp, ¬AudioStarts audio benableAudio → VideoReads s tp video → Unused s
  | .unpublish _ | .subscribe _ _ | .unsubscribe _ | .newConsumer _ => True

/-- One call. -/
theorem agreed_step {parse : String → Option Value} {s s' : MediaControl} {l : Label}
    (hs : Agreed s) (hfirst : First s l) (hstep : (mediaControl parse).step s l = some s') :
    Agreed s' := by
  refine outcome_rule ?_ hstep
  cases l with
  | publish audio video streamType benableAudio => exact publish_index hs hfirst.1 hfirst.2
  | unpublish streamType =>
    exact spec_bind (spec_get (spec_bind (spec_check (fun _ => hs) fun _ _ =>
      spec_bind (spec_modify ⟨hs.agree, hs.blank⟩))))
  | subscribe env uid =>
    exact preserves_subscribe (fun _ _ h => ⟨h.agree.said trivial, h.blank⟩)
      (fun _ _ h => ⟨h.agree, h.blank⟩) env uid s hs
  | unsubscribe uid => exact spec_bind (spec_modify ⟨hs.agree, hs.blank⟩)
  | newConsumer text =>
    refine spec_bind (spec_lift hs fun req _ => ?_)
    cases req.data with
    | none => trivial
    | some data =>
      exact spec_bind (spec_modify (spec_bind (spec_modify
        ⟨hs.agree.said (e := .response _ true) trivial, hs.blank⟩)))

/-- CORRECT: in every run whose publishes find no section of an earlier one, every index taken from
    the remote description is that of the transceiver added last, and every answer has as many
    sections as the offer. -/
theorem indices_agree {parse : String → Option Value} {list : TransportList}
    {peerList : StdMap String Unit} {networkPriority : Json} {ls : List Label}
    (h : (mediaControl parse).Along First (joined list peerList networkPriority) ls) :
    (mediaControl parse).Always (fun s => IndicesAgree s.events)
      (joined list peerList networkPriority) ls := by
  have hjoined : Agreed (joined list peerList networkPriority) :=
    ⟨fun _ hmem => absurd hmem List.not_mem_nil, fun _ hsdp => by cases hsdp⟩
  exact (mediaControl parse).always_of_inv Agreed
    (fun _ _ _ hs hfirst hstep => agreed_step hs hfirst hstep) (fun _ hs => hs.agree) hjoined h

theorem first_audioVideo₀ : First room₀ audioVideo₀ := by
  unfold audioVideo₀ First
  exact ⟨fun _ _ _ hsdp => (by cases hsdp), fun _ _ _ _ hsdp => (by cases hsdp)⟩

theorem indices_agree_audio_video : ∃ s,
    (mediaControl fun _ => none).exec room₀ [audioVideo₀] = some s ∧ s.events.length = 7 ∧
      IndicesAgree s.events := by
  have hrun : ((mediaControl fun _ => none).exec room₀ [audioVideo₀]).map (·.events.length) =
      some 7 := by decide +kernel
  obtain ⟨s, hs, hlength⟩ := Option.map_eq_some_iff.mp hrun
  refine ⟨s, hs, hlength, ?_⟩
  clear hrun
  -- the run is not evaluated again
  have hfirst := first_audioVideo₀
  generalize audioVideo₀ = l at hs hfirst
  exact (mediaControl fun _ => none).always_exec
    (indices_agree ((mediaControl fun _ => none).along_singleton hfirst)) hs

/-- A second publish takes the index behind the section of the first. -/
theorem index_of_second_publish : ∃ s,
    (mediaControl fun _ => none).exec room₀ [videoOnly₀, .unpublish .PublishMainStream, videoOnly₀] =
      some s ∧ ¬IndicesAgree s.events := by
  have hrun : ((mediaControl fun _ => none).exec room₀
      [videoOnly₀, .unpublish .PublishMainStream, videoOnly₀]).map
        (·.events.all fun event => decide (Agrees event)) = some false := by
    decide +kernel
  obtain ⟨s, hs, hall⟩ := Option.map_eq_some_iff.mp hrun
  refine ⟨s, hs, fun hagree => ?_⟩
  rw [List.all_eq_true.mpr fun event hmem => decide_eq_true (hagree event hmem)] at hall
  cases hall

end MediasoupClient.Control
