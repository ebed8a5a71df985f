import MediasoupClient.Sdp.Sections

/-! The printed media entries mirror the sections.

        mediaSections          sdpObject["media"]
          s₀       ──────▶       s₀.getObject
          s₁       ──────▶       s₁.getObject
          ...

    Every call changes the sections and the entries separately. Four ways lead out of step: a
    section is disabled, which leaves its entry alone; a closed section with the empty mid is
    recycled, which writes the last entry; a section without a mid is made, which ends the call
    between the two; a section without payloads is printed, which adds them to its entry. -/

namespace MediasoupClient.Sdp
open Lib RemoteSdp

/-- The printed object has the current sections, and no others. -/
def Mirror (s : RemoteSdp) : Prop :=
  s.sdpObject.toJson.find "media" = some (.arr (s.mediaSections.map (·.getObject)))

/-- The mid of the offered section, if it has one, is a string. -/
def TextMid (offerMediaObject : Json) : Prop :=
  ∀ mid, offerMediaObject.find "mid" = some mid → ∃ text, mid = .str text

/-- The calls after which the entries are current. A section without a mid does no harm as the
    first one, since the call then ends before it is added. -/
def Refreshes (s : RemoteSdp) : Op → Prop
  | .send offerMediaObject reuseMid _ _ _ =>
    TextMid offerMediaObject ∨ (reuseMid = "" ∧ s.firstMid = "")
  | .sendSctpAssociation offerMediaObject => TextMid offerMediaObject ∨ s.firstMid = ""
  | .receive mid _ _ _ _ => ∀ idx, s.closedIdx = some idx → s.midAt idx = .ok "" →
      (s.midToIndex.index mid 0).1 + 1 = s.mediaSections.length
  | .disableMediaSection mid =>
    ∀ sec, s.mediaSections[(s.midToIndex.index mid 0).1]? = some sec → sec.Disabled
  | .getSdp => ∀ sec ∈ s.mediaSections, (sec.getObject.find "payloads").isSome
  | _ => True

theorem toJson_media (o : SdpObject) : o.toJson.find "media" = some (.arr o.media) := by
  cases hi : o.icelite <;> simp [SdpObject.toJson, hi, Json.object, Json.find, get_put]

theorem mirror_iff {s : RemoteSdp} :
    Mirror s ↔ s.sdpObject.media = s.mediaSections.map (·.getObject) := by
  rw [Mirror, toJson_media, Option.some.injEq, Json.arr.injEq]

/-- In step, and all sections have mids, so that no call stops half way. -/
structure Mirrored (s : RemoteSdp) : Prop where
  mirror : Mirror s
  named : Named s.mediaSections

/-! ### The entries stay current -/

theorem mirrored_new {iceParameters iceCandidates dtlsParameters sctpParameters : Json}
    {s : RemoteSdp} (h : RemoteSdp.new iceParameters iceCandidates dtlsParameters sctpParameters =
      .ok s) : Mirrored s := by
  obtain ⟨hsec, _, _, hmedia, _⟩ := new_empty h
  refine ⟨mirror_iff.mpr (by rw [hmedia, hsec]; rfl), ?_⟩
  rw [hsec]
  exact fun _ ht => absurd ht List.not_mem_nil

/-- A section is put in the place of another and printed there. -/
theorem Mirrored.set {s s' : RemoteSdp} (hs : Mirrored s) {idx : ℕ} {old new : MediaSection}
    (hidx : s.mediaSections[idx]? = some old) (hmid : new.getMid = .ok new.mid)
    (hsec : s'.mediaSections = s.mediaSections.set idx new)
    (hmedia : s'.sdpObject.media = Json.setFill s.sdpObject.media idx new.getObject) :
    Mirrored s' := by
  have hmirror := mirror_iff.mp hs.mirror
  have hlt : idx < s.sdpObject.media.length := by
    rw [hmirror, List.length_map]
    exact (List.getElem?_eq_some_iff.mp hidx).1
  refine ⟨mirror_iff.mpr ?_, hsec ▸ hs.named.set hmid idx⟩
  rw [hmedia, hsec, Json.setFill_eq_set _ hlt, hmirror, List.map_set]

theorem Mirrored.updated {s : RemoteSdp} (hs : Mirrored s) {idx : ℕ} {old sec : MediaSection}
    (hidx : s.mediaSections[idx]? = some old) (hmid : sec.getMid = old.getMid) :
    Mirrored (s.updated idx sec) := by
  have hold := hs.named old (List.mem_of_getElem? hidx)
  exact hs.set hidx (MediaSection.getMid_of_ok (hmid.trans hold)) rfl rfl

theorem Mirrored.markIceLite {s : RemoteSdp} (hs : Mirrored s) : Mirrored s.markIceLite := by
  have hmirror := mirror_iff.mp hs.mirror
  unfold RemoteSdp.markIceLite
  split_ifs
  · exact ⟨mirror_iff.mpr hmirror, hs.named⟩
  · exact hs

theorem mirrored_add {s s' : RemoteSdp} (hs : Mirrored s) {new : MediaSection}
    (hnew : new.getMid = .ok new.mid ∨ s.firstMid = "")
    (h : (s.addMediaSection new).state? = some s') : Mirrored s' := by
  cases hmid : new.getMid with
  | ok mid =>
    have hmid := MediaSection.getMid_of_ok hmid
    rw [addMediaSection_eq hs.named hmid] at h
    cases h
    refine ⟨mirror_iff.mpr ?_, hs.named.append hmid⟩
    show s.sdpObject.media ++ [new.getObject] = (s.mediaSections ++ [new]).map _
    rw [mirror_iff.mp hs.mirror, List.map_append, List.map_singleton]
  | error e =>
    have hfirst : s.firstMid = "" := hnew.resolve_left fun hok => by
      rw [hmid] at hok; cases hok
    rw [addMediaSection_error hmid, if_pos hfirst] at h
    cases h
    exact hs

theorem mirrored_replace {s s' : RemoteSdp} (hs : Mirrored s) {new : MediaSection}
    {reuseMid : String} (hmid : new.getMid = .ok new.mid) (hreuse : reuseMid ≠ "")
    (h : (s.replaceMediaSection new reuseMid).state? = some s') : Mirrored s' := by
  obtain ⟨idx, m, old, _, hold, rfl⟩ := replaceMediaSection_state hs.named hmid hreuse h
  exact hs.set hold hmid rfl rfl

/-- Without a mid to reuse, the entry that is written is the last one. -/
theorem mirrored_replace_empty {s s' : RemoteSdp} (hs : Mirrored s) {new : MediaSection}
    (hmid : new.getMid = .ok new.mid)
    (hlast : (s.midToIndex.index new.mid 0).1 + 1 = s.mediaSections.length)
    (h : (s.replaceMediaSection new "").state? = some s') : Mirrored s' := by
  rcases hidx : s.midToIndex.index new.mid 0 with ⟨idx, m⟩
  rw [hidx] at hlast
  rw [replaceMediaSection, if_neg (not_not.mpr rfl), hmid] at h
  simp only [attempt, hidx] at h
  cases hold : s.mediaSections[idx]? with
  | none => simp only [hold] at h; cases h
  | some old =>
    simp only [hold, List.length_set, ← hlast, Nat.add_sub_cancel] at h
    cases h
    exact hs.set hold hmid rfl rfl

/-- The mid of a new answer, if the offered section has a string for one. -/
theorem answer_mid_of_text {iceParameters iceCandidates dtlsParameters sctpParameters
    offerMediaObject offerRtpParameters answerRtpParameters : Json} {codecOptions : Option Json}
    {new : MediaSection} {o : Json}
    (h : answerMediaSection iceParameters iceCandidates dtlsParameters sctpParameters
      offerMediaObject offerRtpParameters answerRtpParameters codecOptions = .ok (new, o))
    (ht : TextMid offerMediaObject) : new.getMid = .ok new.mid := by
  obtain ⟨mid, hmid⟩ := Option.isSome_iff_exists.mp new.hasMid
  have hfind : offerMediaObject.find "mid" = some mid :=
    (answerMediaSection_ok h).2.symm.trans hmid
  obtain ⟨text, rfl⟩ := ht mid hfind
  exact (answer_mid h hfind).1

/-- One call that refreshes what it changes. -/
theorem mirrored_step {s s' : RemoteSdp} {op : Op} (hs : Mirrored s) (hw : Refreshes s op)
    (h : remoteSdp.step s op = some s') : Mirrored s' := by
  have hstale : ∀ t : RemoteSdp, t.mediaSections = s.mediaSections →
      t.sdpObject.media = s.sdpObject.media → Mirrored t := fun t hsec hmedia =>
    ⟨mirror_iff.mpr (by rw [hsec, hmedia, mirror_iff.mp hs.mirror]), hsec ▸ hs.named⟩
  cases op with
  | updateIceParameters iceParameters =>
    refine updateIceParameters_rule (fun t idx sec sec' hsec hf ht => ?_) ?_ h
    · exact ht.updated hsec (MediaSection.setIceParameters_ok hf).1
    · exact Mirrored.markIceLite (hstale _ rfl rfl)
  | updateDtlsRole role =>
    refine updateDtlsRole_rule (fun t idx sec hsec ht => ?_) hs (fun d => ?_) h
    · exact ht.updated hsec (sec.getMid_setDtlsRole role)
    · exact Mirrored.markIceLite (hstale _ rfl rfl)
  | send offerMediaObject reuseMid offerRtpParameters answerRtpParameters codecOptions =>
    rcases attempt_state h with rfl | ⟨⟨new, o⟩, hctor, hrest⟩
    · exact hs
    rcases hw with ht | ⟨rfl, hfirst⟩
    · have hmid := answer_mid_of_text hctor ht
      simp only at hrest
      split_ifs at hrest with hreuse
      · exact mirrored_replace hs hmid hreuse hrest
      · exact mirrored_add hs (Or.inl hmid) hrest
    · exact mirrored_add hs (Or.inr hfirst) hrest
  | sendSctpAssociation offerMediaObject =>
    rcases attempt_state h with rfl | ⟨⟨new, o⟩, hctor, hrest⟩
    · exact hs
    · exact mirrored_add hs (hw.imp_left (answer_mid_of_text hctor)) hrest
  | recvSctpAssociation =>
    rcases attempt_state h with rfl | ⟨new, hctor, hrest⟩
    · exact hs
    · exact mirrored_add hs (Or.inl (offer_mid hctor).1) hrest
  | receive mid kind offerRtpParameters streamId trackId =>
    rcases attempt_state h with rfl | ⟨new, hctor, hrest⟩
    · exact hs
    obtain ⟨hmid, heq⟩ := offer_mid hctor
    cases hc : s.closedIdx with
    | none =>
      rw [hc] at hrest
      exact mirrored_add hs (Or.inl hmid) hrest
    | some idx =>
      obtain ⟨⟨old, hidx, _⟩, _⟩ := closedIdx_some hc
      have hold : s.midAt idx = .ok old.mid :=
        (midAt_eq hidx).trans (hs.named old (List.mem_of_getElem? hidx))
      rw [hc] at hrest
      simp only [hold, attempt] at hrest
      by_cases hreuse : old.mid = ""
      · rw [hreuse] at hold hrest
        exact mirrored_replace_empty hs hmid (heq ▸ hw idx hc hold) hrest
      · exact mirrored_replace hs hmid hreuse hrest
  | disableMediaSection mid =>
    obtain ⟨idx, m, sec, hidx, hsec, rfl⟩ := disableMediaSection_state h
    have hdisabled : sec.Disabled := hw sec (by rw [hidx]; exact hsec)
    obtain ⟨hnamed, _⟩ := hs.named.set_of_mid hsec sec.getMid_disable
    refine ⟨mirror_iff.mpr ?_, hnamed⟩
    show s.sdpObject.media = (s.mediaSections.set idx sec.disable).map _
    rw [(set_eq_self_iff hsec).mpr (sec.disable_eq_self_iff.mpr hdisabled),
      mirror_iff.mp hs.mirror]
  | closeMediaSection mid =>
    obtain ⟨idx, m, sec, _, hsec, rfl⟩ := closeMediaSection_state hs.named h
    have hget := hs.named sec (List.mem_of_getElem? hsec)
    exact hs.set hsec (MediaSection.getMid_of_ok ((getMid_closing s mid sec).trans hget)) rfl rfl
  | getSdp =>
    have hprinted : ∀ mLine ∈ s.sdpObject.media, (mLine.find "payloads").isSome := by
      rw [mirror_iff.mp hs.mirror]
      exact List.forall_mem_map.mpr hw
    have hget : s.getSdp.state? = some s' := h
    rw [getSdp_eq hprinted] at hget
    cases hget
    exact hstale _ rfl rfl

/-- CORRECT: over every run of calls that refresh what they change, from a new description, the
    printed entries are the current sections. -/
theorem mirrored {iceParameters iceCandidates dtlsParameters sctpParameters : Json}
    {s : RemoteSdp} (h : RemoteSdp.new iceParameters iceCandidates dtlsParameters sctpParameters =
      .ok s) (ops : List Op) (hw : remoteSdp.Along Refreshes s ops) :
    remoteSdp.Always Mirror s ops :=
  remoteSdp.always_of_inv Mirrored (fun _ _ _ hs hw h => mirrored_step hs hw h)
    (fun _ hs => hs.mirror) (mirrored_new h) hw

/-- The data channel is added and printed, closed, and disabled once more. -/
theorem mirrored_datachannel : remoteSdp.Always Mirror remoteSdp₀
    [.recvSctpAssociation, .getSdp, .closeMediaSection "datachannel",
      .disableMediaSection "datachannel"] := by
  refine mirrored new_remoteSdp₀ _ ?_
  rw [Lts.along_cons _ rfl, Lts.along_cons _ rfl, Lts.along_cons _ rfl, Lts.along_cons _ rfl]
  refine ⟨trivial, fun sec hsec => ?_, trivial, fun sec hsec => ?_, trivial⟩
  · rw [List.mem_singleton.mp hsec]
    rfl
  · cases hsec
    exact ⟨rfl, by decide⟩

/-- Disabling the data channel leaves the entry that is printed as it was. -/
theorem mirror_lost :
    RemoteSdp.new iceParameters₀ (.arr []) dtlsParameters₀ sctpParameters₀ = .ok remoteSdp₀ ∧
      ∃ s, remoteSdp.exec remoteSdp₀
        [.recvSctpAssociation, .disableMediaSection "datachannel"] = some s ∧
      s.mediaSections.map (·.getMid) = [.ok "datachannel"] ∧ ¬ Mirror s := by
  refine ⟨new_remoteSdp₀, _, rfl, rfl, fun h => ?_⟩
  have hdir := congrArg (fun media => media.head?.bind (·.find "direction")) (mirror_iff.mp h)
  cases hdir

end MediasoupClient.Sdp
