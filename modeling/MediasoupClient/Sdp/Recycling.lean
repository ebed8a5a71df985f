import MediasoupClient.Sdp.Representation

/-! Recycling a closed section leaves the others where they are.

        sections   [ s₀   s₁   s₂ (closed)   s₃   s₄ (closed) ]
        next             ↓
                   [ s₀   s₁   new           s₃   s₄ (closed) ]

    The replacement does not get the index but looks the mid of the closed section up in the map,
    so it finds the right one only while the map covers the sections. That needs new mids to be new
    and nothing else: unknown mids may be closed, disabled and reused in between. -/

namespace MediasoupClient.Sdp
open Lib RemoteSdp

/-- Every section is found by its mid, and printed. -/
structure Indexed (s : RemoteSdp) : Prop where
  named : Named s.mediaSections
  nonempty : "" ∉ mids s.mediaSections
  covers : Covers s.midToIndex (mids s.mediaSections)
  printed : s.sdpObject.media.length = s.mediaSections.length

/-- The section that `Send` replaces. -/
def reusedIdx (s : RemoteSdp) (reuseMid : String) : Option ℕ :=
  if reuseMid = "" then none else some (s.midToIndex.index reuseMid 0).1

/-- A call that adds or recycles a section gives it a new mid. -/
def FreshMid (s : RemoteSdp) : Op → Prop
  | .send offerMediaObject reuseMid _ _ _ =>
    ∃ mid, offerMediaObject.find "mid" = some (.str mid) ∧ NewMid s mid (reusedIdx s reuseMid)
  | .sendSctpAssociation offerMediaObject =>
    ∃ mid, offerMediaObject.find "mid" = some (.str mid) ∧ NewMid s mid none
  | .recvSctpAssociation => NewMid s "datachannel" none
  | .receive mid _ _ _ _ => NewMid s mid s.closedIdx
  | _ => True

/-- `new` is put behind all sections when none of them is closed, and at the index of the first
    closed one when there is one: the index and the sections afterwards. -/
inductive Placed (s : RemoteSdp) (new : MediaSection) : ℕ → List MediaSection → Prop where
  | append (hopen : ∀ sec ∈ s.mediaSections, sec.isClosed = false) :
      Placed s new s.mediaSections.length (s.mediaSections ++ [new])
  | replace (idx : ℕ) (old : MediaSection) (hidx : s.mediaSections[idx]? = some old)
      (hclosed : old.isClosed = true)
      (hfirst : ∀ j < idx, ∀ sec, s.mediaSections[j]? = some sec → sec.isClosed = false) :
      Placed s new idx (s.mediaSections.set idx new)

/-- The sections that are not closed keep their index, their mid and all else, and are printed as
    before. -/
def LiveKept (s s' : RemoteSdp) : Prop :=
  ∀ (j : ℕ) (sec : MediaSection), s.mediaSections[j]? = some sec → sec.isClosed = false →
    s'.mediaSections[j]? = some sec ∧ s'.sdpObject.media[j]? = s.sdpObject.media[j]?

/-- What becomes of the section `new` that a call made: it is placed at `idx` if it has a mid. One
    without a mid ends the call with an exception, before or after that. Either way the open
    sections are kept. -/
structure Recycled (s : RemoteSdp) (idx : ℕ) (new : MediaSection) (o : Outcome Fault RemoteSdp) :
    Prop where
  returned : ∀ mid, new.getMid = .ok mid →
    ∃ s', o = .returned s' ∧ Placed s new idx s'.mediaSections
  defined : o ≠ .undefined
  leaves : o.Leaves fun s' =>
    (s'.mediaSections = s.mediaSections ∨ Placed s new idx s'.mediaSections) ∧ LiveKept s s'

/-! ### The sections stay indexed -/

theorem indexed_new {iceParameters iceCandidates dtlsParameters sctpParameters : Json}
    {s : RemoteSdp} (h : RemoteSdp.new iceParameters iceCandidates dtlsParameters sctpParameters =
      .ok s) : Indexed s := by
  obtain ⟨hnamed, hne, hpos, _, _, _⟩ := repInv_new h
  obtain ⟨hsec, _, _, hmedia, _⟩ := new_empty h
  exact ⟨hnamed, hne, hpos.covers, by rw [hmedia, hsec]; rfl⟩

/-- The lookup of a section by its mid. -/
theorem Indexed.index_mid {s : RemoteSdp} (h : Indexed s) {i : ℕ} {sec : MediaSection}
    (hi : s.mediaSections[i]? = some sec) : s.midToIndex.index sec.mid 0 = (i, s.midToIndex) :=
  StdMap.index_of_get (h.covers i sec.mid (getElem?_mids hi)) 0

theorem Indexed.setFill {s : RemoteSdp} (h : Indexed s) {idx : ℕ} {old : MediaSection}
    (hidx : s.mediaSections[idx]? = some old) (v : Json) :
    Json.setFill s.sdpObject.media idx v = s.sdpObject.media.set idx v :=
  Json.setFill_eq_set v (h.printed ▸ (List.getElem?_eq_some_iff.mp hidx).1)

theorem Indexed.appended {s : RemoteSdp} (h : Indexed s) {new : MediaSection}
    (hmid : new.getMid = .ok new.mid) (hnew : NewMid s new.mid none) :
    Indexed (s.appended new) := by
  refine ⟨h.named.append hmid, nonempty_append h.nonempty hnew.1, ?_, ?_⟩
  · show Covers (s.midToIndex.insert new.mid s.mediaSections.length)
      (mids (s.mediaSections ++ [new]))
    rw [mids_append, ← length_mids]
    exact h.covers.append (hnew.not_mem h.named)
  · show (s.sdpObject.media ++ [new.getObject]).length = (s.mediaSections ++ [new]).length
    rw [List.length_append, List.length_append, h.printed, List.length_singleton,
      List.length_singleton]

/-- Replacing the section under a key, known or not, whose lookup left the map `m`. -/
theorem Indexed.replaced {s : RemoteSdp} (h : Indexed s) {new old : MediaSection} {idx : ℕ}
    {m : StdMap String ℕ} (hm : Covers m (mids s.mediaSections))
    (hmid : new.getMid = .ok new.mid) (hidx : s.mediaSections[idx]? = some old)
    (hnew : NewMid s new.mid (some idx)) : Indexed (s.replaced idx (m.erase old.mid) new) := by
  refine ⟨h.named.set hmid idx, nonempty_set h.nonempty hnew.1 idx, ?_, ?_⟩
  · show Covers ((m.erase old.mid).insert new.mid idx) (mids (s.mediaSections.set idx new))
    rw [mids_set]
    exact hm.set (getElem?_mids hidx) (hnew.eq_or_not_mem h.named hidx)
  · show (Json.setFill s.sdpObject.media idx new.getObject).length =
      (s.mediaSections.set idx new).length
    rw [h.setFill hidx, List.length_set, List.length_set, h.printed]

/-- A section is changed, but not its mid, and the map is left as after a lookup. -/
theorem Indexed.changed {s s' : RemoteSdp} (h : Indexed s) {idx : ℕ} {old sec : MediaSection}
    (hidx : s.mediaSections[idx]? = some old) (hmid : sec.getMid = old.getMid)
    (hsec : s'.mediaSections = s.mediaSections.set idx sec)
    (hmap : Covers s'.midToIndex (mids s.mediaSections))
    (hmedia : s'.sdpObject.media.length = s.sdpObject.media.length) : Indexed s' := by
  obtain ⟨hnamed, hmids⟩ := h.named.set_of_mid hidx hmid
  refine ⟨hsec ▸ hnamed, ?_, ?_, ?_⟩
  · rw [hsec, hmids]; exact h.nonempty
  · rw [hsec, hmids]; exact hmap
  · rw [hsec, hmedia, List.length_set, h.printed]

theorem Indexed.updated {s : RemoteSdp} (h : Indexed s) {idx : ℕ} {old sec : MediaSection}
    (hidx : s.mediaSections[idx]? = some old) (hmid : sec.getMid = old.getMid) :
    Indexed (s.updated idx sec) := by
  refine h.changed hidx hmid rfl h.covers ?_
  show (Json.setFill s.sdpObject.media idx sec.getObject).length = _
  rw [h.setFill hidx, List.length_set]

theorem Indexed.markIceLite {s : RemoteSdp} (h : Indexed s) : Indexed s.markIceLite := by
  unfold RemoteSdp.markIceLite
  split_ifs <;> exact ⟨h.named, h.nonempty, h.covers, h.printed⟩

theorem indexed_add {s s' : RemoteSdp} (hs : Indexed s) {new : MediaSection}
    (hmid : new.getMid = .ok new.mid) (hnew : NewMid s new.mid none)
    (h : (s.addMediaSection new).state? = some s') : Indexed s' := by
  rw [addMediaSection_eq hs.named hmid] at h
  cases h
  exact hs.appended hmid hnew

theorem indexed_replace {s s' : RemoteSdp} (hs : Indexed s) {new : MediaSection}
    {reuseMid : String} (hmid : new.getMid = .ok new.mid) (hreuse : reuseMid ≠ "")
    (hnew : NewMid s new.mid (some (s.midToIndex.index reuseMid 0).1))
    (h : (s.replaceMediaSection new reuseMid).state? = some s') : Indexed s' := by
  obtain ⟨idx, m, old, hidx, hold, rfl⟩ := replaceMediaSection_state hs.named hmid hreuse h
  have hcovers := hs.covers.index reuseMid 0
  rw [hidx] at hcovers hnew
  exact hs.replaced hcovers hmid hold hnew

/-- One call with a new mid, whatever else is done in it. -/
theorem indexed_step {s s' : RemoteSdp} {op : Op} (hs : Indexed s) (hw : FreshMid s op)
    (h : remoteSdp.step s op = some s') : Indexed s' := by
  cases op with
  | updateIceParameters iceParameters =>
    refine updateIceParameters_rule (fun t idx sec sec' hsec hf ht => ?_) ?_ h
    · exact ht.updated hsec (MediaSection.setIceParameters_ok hf).1
    · exact Indexed.markIceLite ⟨hs.named, hs.nonempty, hs.covers, hs.printed⟩
  | updateDtlsRole role =>
    refine updateDtlsRole_rule (fun t idx sec hsec ht => ?_) hs (fun d => ?_) h
    · exact ht.updated hsec (sec.getMid_setDtlsRole role)
    · exact Indexed.markIceLite ⟨hs.named, hs.nonempty, hs.covers, hs.printed⟩
  | send offerMediaObject reuseMid offerRtpParameters answerRtpParameters codecOptions =>
    obtain ⟨mid, hfind, hnew⟩ := hw
    rcases attempt_state h with rfl | ⟨⟨new, o⟩, hctor, hrest⟩
    · exact hs
    obtain ⟨hmid, rfl⟩ := answer_mid hctor hfind
    rw [reusedIdx] at hnew
    split_ifs at hnew with hreuse
    · simp only [hreuse, ne_eq, not_true_eq_false, if_false] at hrest
      exact indexed_add hs hmid hnew hrest
    · simp only [ne_eq, hreuse, not_false_eq_true, if_true] at hrest
      exact indexed_replace hs hmid hreuse hnew hrest
  | sendSctpAssociation offerMediaObject =>
    obtain ⟨mid, hfind, hnew⟩ := hw
    rcases attempt_state h with rfl | ⟨⟨new, o⟩, hctor, hrest⟩
    · exact hs
    obtain ⟨hmid, rfl⟩ := answer_mid hctor hfind
    exact indexed_add hs hmid hnew hrest
  | recvSctpAssociation =>
    rcases attempt_state h with rfl | ⟨new, hctor, hrest⟩
    · exact hs
    obtain ⟨hmid, heq⟩ := offer_mid hctor
    exact indexed_add hs hmid (heq ▸ hw) hrest
  | receive mid kind offerRtpParameters streamId trackId =>
    have hnew : NewMid s mid s.closedIdx := hw
    rcases attempt_state h with rfl | ⟨new, hctor, hrest⟩
    · exact hs
    obtain ⟨hmid, rfl⟩ := offer_mid hctor
    cases hc : s.closedIdx with
    | none =>
      rw [hc] at hrest hnew
      exact indexed_add hs hmid hnew hrest
    | some idx =>
      rw [hc] at hrest hnew
      obtain ⟨⟨old, hidx, _⟩, _⟩ := closedIdx_some hc
      have hold : old.getMid = .ok old.mid := hs.named old (List.mem_of_getElem? hidx)
      simp only [midAt_eq hidx, hold, attempt] at hrest
      refine indexed_replace hs hmid (mid_ne_of_nonempty hs.nonempty hidx) ?_ hrest
      rw [hs.index_mid hidx]
      exact hnew
  | disableMediaSection mid =>
    obtain ⟨idx, m, sec, hidx, hsec, rfl⟩ := disableMediaSection_state h
    have hcovers := hs.covers.index mid 0
    rw [hidx] at hcovers
    exact hs.changed hsec sec.getMid_disable rfl hcovers rfl
  | closeMediaSection mid =>
    obtain ⟨idx, m, sec, hidx, hsec, rfl⟩ := closeMediaSection_state hs.named h
    have hcovers := hs.covers.index mid 0
    rw [hidx] at hcovers
    refine hs.changed hsec (getMid_closing s mid sec) rfl hcovers ?_
    show (Json.setFill s.sdpObject.media idx _).length = _
    rw [hs.setFill hsec, List.length_set]
  | getSdp =>
    obtain ⟨media, hmedia, rfl⟩ := getSdp_state h
    exact ⟨hs.named, hs.nonempty, hs.covers, hmedia.length_eq.symm.trans hs.printed⟩

/-! ### Where the new section goes -/

theorem liveKept_append {s s' : RemoteSdp} (hs : Indexed s) {new : MediaSection}
    (hsec : s'.mediaSections = s.mediaSections ++ [new]) {l : List Json}
    (hmedia : s'.sdpObject.media = s.sdpObject.media ++ l) : LiveKept s s' := by
  intro j sec hj _
  have hlt : j < s.mediaSections.length := (List.getElem?_eq_some_iff.mp hj).1
  rw [hsec, hmedia, List.getElem?_append_left hlt,
    List.getElem?_append_left (hs.printed.symm ▸ hlt)]
  exact ⟨hj, rfl⟩

theorem liveKept_set {s s' : RemoteSdp} {new old : MediaSection} {idx : ℕ}
    (hidx : s.mediaSections[idx]? = some old) (hclosed : old.isClosed = true)
    (hsec : s'.mediaSections = s.mediaSections.set idx new)
    (hmedia : ∀ j, idx ≠ j → s'.sdpObject.media[j]? = s.sdpObject.media[j]?) : LiveKept s s' := by
  intro j sec hj hopen
  have hne : idx ≠ j := by
    rintro rfl
    rw [hidx] at hj
    cases hj
    rw [hclosed] at hopen
    cases hopen
  rw [hsec, List.getElem?_set_ne hne]
  exact ⟨hj, hmedia j hne⟩

theorem recycled_add {s : RemoteSdp} (hs : Indexed s) (hc : s.closedIdx = none)
    (new : MediaSection) :
    Recycled s s.mediaSections.length new (s.addMediaSection new) := by
  have hplaced : Placed s new s.mediaSections.length (s.mediaSections ++ [new]) :=
    .append (closedIdx_none hc)
  cases hmid : new.getMid with
  | ok mid =>
    have heq := addMediaSection_eq hs.named (MediaSection.getMid_of_ok hmid)
    rw [heq]
    refine ⟨fun _ _ => ⟨_, rfl, hplaced⟩, by simp, fun s' h => ?_⟩
    cases h
    exact ⟨Or.inr hplaced, liveKept_append hs rfl rfl⟩
  | error e =>
    rw [addMediaSection_error hmid]
    refine ⟨fun _ h => ?_, by simp, fun s' h => ?_⟩
    · rw [hmid] at h; cases h
    · cases h
      split_ifs
      · exact ⟨Or.inl rfl, fun j sec hj _ => ⟨hj, rfl⟩⟩
      · exact ⟨Or.inr hplaced, liveKept_append hs rfl (List.append_nil _).symm⟩

theorem recycled_replace {s : RemoteSdp} (hs : Indexed s) {idx : ℕ} (hc : s.closedIdx = some idx)
    {old : MediaSection} (hidx : s.mediaSections[idx]? = some old) (new : MediaSection) :
    Recycled s idx new (s.replaceMediaSection new old.mid) := by
  obtain ⟨⟨old', hidx', hclosed⟩, hfirst⟩ := closedIdx_some hc
  obtain rfl : old = old' := Option.some.inj (hidx.symm.trans hidx')
  have hplaced : Placed s new idx (s.mediaSections.set idx new) :=
    .replace idx old hidx hclosed hfirst
  have hne : old.mid ≠ "" := mid_ne_of_nonempty hs.nonempty hidx
  cases hmid : new.getMid with
  | ok mid =>
    rw [replaceMediaSection_eq hs.named (MediaSection.getMid_of_ok hmid) hne (hs.index_mid hidx)
      hidx]
    refine ⟨fun _ _ => ⟨_, rfl, hplaced⟩, by simp, fun s' h => ?_⟩
    cases h
    refine ⟨Or.inr hplaced, liveKept_set hidx hclosed rfl fun j hj => ?_⟩
    show (Json.setFill s.sdpObject.media idx new.getObject)[j]? = _
    rw [hs.setFill hidx, List.getElem?_set_ne hj]
  | error e =>
    rw [replaceMediaSection_error hs.named hmid hne (hs.index_mid hidx) hidx]
    refine ⟨fun _ h => ?_, by simp, fun s' h => ?_⟩
    · rw [hmid] at h; cases h
    · cases h
      exact ⟨Or.inr hplaced, liveKept_set hidx hclosed rfl fun _ _ => rfl⟩

/-- Recycling through the mid that `GetNextMediaSectionIdx` returned. -/
theorem recycled_next {s : RemoteSdp} (hs : Indexed s) {next : MediaSectionIdx}
    (hnext : s.getNextMediaSectionIdx = .ok next) (new : MediaSection) :
    Recycled s next.idx new (if next.reuseMid ≠ "" then s.replaceMediaSection new next.reuseMid
      else s.addMediaSection new) := by
  obtain ⟨hc, heq⟩ | ⟨idx, old, hc, hidx, _, heq⟩ := getNextMediaSectionIdx_eq hs.named
  · cases hnext.symm.trans heq
    exact recycled_add hs hc new
  · cases hnext.symm.trans heq
    rw [if_pos (mid_ne_of_nonempty hs.nonempty hidx)]
    exact recycled_replace hs hc hidx new

/-! ### The number of sections -/

theorem length_add {s s' : RemoteSdp} {new : MediaSection}
    (h : (s.addMediaSection new).state? = some s') :
    s.mediaSections.length ≤ s'.mediaSections.length := by
  have happend : s.mediaSections.length ≤ (s.mediaSections ++ [new]).length := by
    rw [List.length_append]; exact Nat.le_add_right ..
  rcases attempt_state h with rfl | ⟨firstMid, _, h⟩
  · exact le_rfl
  rcases attempt_state h with rfl | ⟨mid, _, h⟩
  · exact happend
  · obtain ⟨mids, rfl⟩ := regenerateBundleMids_state h
    exact happend

theorem length_replace {s s' : RemoteSdp} {new : MediaSection} {reuseMid : String}
    (h : (s.replaceMediaSection new reuseMid).state? = some s') :
    s'.mediaSections.length = s.mediaSections.length := by
  rw [replaceMediaSection] at h
  split_ifs at h with hreuse
  · rcases hidx : s.midToIndex.index reuseMid 0 with ⟨idx, m⟩
    rw [hidx] at h
    cases hold : s.mediaSections[idx]? with
    | none => simp only [hold] at h; cases h
    | some old =>
      simp only [hold] at h
      rcases attempt_state h with rfl | ⟨oldMid, _, h⟩
      · exact List.length_set
      rcases attempt_state h with rfl | ⟨mid, _, h⟩
      · exact List.length_set
      · obtain ⟨mids, rfl⟩ := regenerateBundleMids_state h
        exact List.length_set
  · rcases attempt_state h with rfl | ⟨mid, _, h⟩
    · rfl
    rcases hidx : s.midToIndex.index mid 0 with ⟨idx, m⟩
    rw [hidx] at h
    cases hold : s.mediaSections[idx]? with
    | none => simp only [hold] at h; cases h
    | some old => simp only [hold] at h; cases h; exact List.length_set

theorem length_close {s s' : RemoteSdp} {mid : String}
    (h : (s.closeMediaSection mid).state? = some s') :
    s'.mediaSections.length = s.mediaSections.length := by
  rcases hidx : s.midToIndex.index mid 0 with ⟨idx, m⟩
  rw [closeMediaSection, hidx] at h
  cases hsec : s.mediaSections[idx]? with
  | none => simp only [hsec] at h; cases h
  | some sec =>
    simp only [hsec] at h
    obtain ⟨mids, rfl⟩ := regenerateBundleMids_state h
    exact List.length_set

theorem length_similar {s s' : RemoteSdp} (h : Similar s s') :
    s'.mediaSections.length = s.mediaSections.length := by
  have hlen := congrArg List.length h.slots
  rwa [List.length_map, List.length_map] at hlen

/-- No call takes a section away, whatever its arguments and the state are. -/
theorem length_step {s s' : RemoteSdp} {op : Op} (h : remoteSdp.step s op = some s') :
    s.mediaSections.length ≤ s'.mediaSections.length := by
  cases op with
  | updateIceParameters _ => exact (length_similar (similar_updateIceParameters h)).ge
  | updateDtlsRole _ => exact (length_similar (similar_updateDtlsRole h)).ge
  | send _ reuseMid _ _ _ =>
    rcases attempt_state h with rfl | ⟨⟨new, o⟩, _, h⟩
    · exact le_rfl
    · simp only at h
      split_ifs at h with hreuse
      · exact (length_replace h).ge
      · exact length_add h
  | sendSctpAssociation _ =>
    rcases attempt_state h with rfl | ⟨⟨new, o⟩, _, h⟩
    · exact le_rfl
    · exact length_add h
  | recvSctpAssociation =>
    rcases attempt_state h with rfl | ⟨new, _, h⟩
    · exact le_rfl
    · exact length_add h
  | receive _ _ _ _ _ =>
    rcases attempt_state h with rfl | ⟨new, _, h⟩
    · exact le_rfl
    · split at h
      · rcases attempt_state h with rfl | ⟨reuseMid, _, h⟩
        · exact le_rfl
        · exact (length_replace h).ge
      · exact length_add h
  | disableMediaSection _ =>
    obtain ⟨idx, m, sec, _, _, rfl⟩ := disableMediaSection_state h
    exact List.length_set.ge
  | closeMediaSection _ => exact (length_close h).ge
  | getSdp => obtain ⟨media, _, rfl⟩ := getSdp_state h; exact le_rfl

/-! ### The calls -/

/-- CORRECT: in every state that calls with new mids lead to, and any other calls in between, a
    `Send` with the mid that `GetNextMediaSectionIdx` returned and a `Receive` put the new section
    at the end or in place of the first closed one, and keep all open sections; no run of calls
    ever takes a section away. -/
theorem recycling {iceParameters iceCandidates dtlsParameters sctpParameters : Json}
    {s₀ s : RemoteSdp} (hnew : RemoteSdp.new iceParameters iceCandidates dtlsParameters
      sctpParameters = .ok s₀) {ops : List Op} (hfresh : remoteSdp.Along FreshMid s₀ ops)
    (hrun : remoteSdp.exec s₀ ops = some s) :
    (∀ (idx : ℕ) (reuseMid : String), s.getNextMediaSectionIdx = .ok ⟨idx, reuseMid⟩ →
      ∀ (offerMediaObject offerRtpParameters answerRtpParameters : Json)
        (codecOptions : Option Json),
      match answerMediaSection s.iceParameters s.iceCandidates s.dtlsParameters s.sctpParameters
        offerMediaObject offerRtpParameters answerRtpParameters codecOptions with
      | .ok (new, _) => Recycled s idx new (s.send offerMediaObject reuseMid offerRtpParameters
          answerRtpParameters codecOptions)
      | .error _ => (s.send offerMediaObject reuseMid offerRtpParameters answerRtpParameters
          codecOptions).Leaves (· = s)) ∧
    (∀ (mid kind : String) (offerRtpParameters : Json) (streamId trackId : String),
      match offerMediaSection s.iceParameters s.iceCandidates .null mid kind offerRtpParameters
        streamId trackId with
      | .ok new => ∃ next, s.getNextMediaSectionIdx = .ok next ∧
          Recycled s next.idx new (s.receive mid kind offerRtpParameters streamId trackId)
      | .error _ => (s.receive mid kind offerRtpParameters streamId trackId).Leaves (· = s)) ∧
    ∀ (s t : RemoteSdp) (ops : List Op), remoteSdp.exec s ops = some t →
      s.mediaSections.length ≤ t.mediaSections.length := by
  have hs : Indexed s := remoteSdp.exec_of_along Indexed
    (fun _ _ _ hs hw h => indexed_step hs hw h) ops s₀ s (indexed_new hnew) hfresh hrun
  refine ⟨fun idx reuseMid hnext offerMediaObject offerRtpParameters answerRtpParameters
    codecOptions => ?_, fun mid kind offerRtpParameters streamId trackId => ?_, fun s t ops h => ?_⟩
  · split
    · rename_i new o hctor
      rw [send, hctor]
      exact recycled_next hs hnext new
    · rename_i e hctor
      exact attempt_error_leaves hctor _
  · split
    · rename_i new hctor
      obtain ⟨next, hnext, heq⟩ :=
        receive_eq hs.named hs.nonempty mid kind offerRtpParameters streamId trackId
      rw [heq, hctor]
      exact ⟨next, hnext, recycled_next hs hnext new⟩
    · rename_i e hctor
      exact attempt_error_leaves hctor _
  · exact remoteSdp.exec_le (fun s t => s.mediaSections.length ≤ t.mediaSections.length)
      (fun _ => le_rfl) (fun _ _ _ => le_trans) (fun _ _ _ => length_step) ops s t h

/-- The data channel is closed under a mid that does not exist, and an audio track recycles it. -/
theorem recycling_datachannel : ∃ s new next,
    remoteSdp.exec remoteSdp₀ [.recvSctpAssociation, .closeMediaSection "x"] = some s ∧
      offerMediaSection s.iceParameters s.iceCandidates .null "1" "audio" audioParameters₀ "stream"
        "track" = .ok new ∧
      s.getNextMediaSectionIdx = .ok next ∧
      Recycled s next.idx new (s.receive "1" "audio" audioParameters₀ "stream" "track") := by
  have hfresh : remoteSdp.Along FreshMid remoteSdp₀
      [.recvSctpAssociation, .closeMediaSection "x"] := by
    rw [Lts.along_cons _ rfl, Lts.along_cons _ rfl]
    refine ⟨⟨by decide, fun i sec hi => ?_⟩, trivial, trivial⟩
    cases hi
  obtain ⟨next, hnext, hrecycled⟩ := (recycling new_remoteSdp₀ hfresh rfl).2.1 "1" "audio"
    audioParameters₀ "stream" "track"
  exact ⟨_, _, next, rfl, rfl, hnext, hrecycled⟩

end MediasoupClient.Sdp
