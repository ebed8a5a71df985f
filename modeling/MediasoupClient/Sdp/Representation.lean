import MediasoupClient.Sdp.Sections

/-! The four representations of the sections agree.

    Used as intended (new mids are new, a section is reused only where
    `GetNextMediaSectionIdx` says so, existing mids are closed), the description keeps its map, its
    first mid and its bundle line in step with its sections, and never closes section 0. -/

namespace MediasoupClient.Sdp
open Lib RemoteSdp

/-- The map, the first mid and the bundle line describe the sections. -/
structure RepInv (s : RemoteSdp) : Prop where
  named : Named s.mediaSections
  nonempty : "" ∉ mids s.mediaSections
  positions : Positions s.midToIndex (mids s.mediaSections)
  first : ∀ sec, s.mediaSections[0]? = some sec → sec.mid = s.firstMid ∧ sec.isClosed = false
  unset : s.mediaSections = [] → s.firstMid = ""
  bundle : s.sdpObject.mids = " ".intercalate (openMids s.mediaSections)

/-- The mid is not empty, and no section has it but, possibly, the one to be recycled. -/
def NewMid (s : RemoteSdp) (mid : String) (recycled : Option ℕ) : Prop :=
  mid ≠ "" ∧ ∀ i sec, s.mediaSections[i]? = some sec → recycled ≠ some i → sec.getMid ≠ .ok mid

/-- A call that adds or recycles a section gives it a new mid, `Send` reuses what
    `GetNextMediaSectionIdx` returns in this state, and the mids to be disabled and closed exist. -/
def WellUsed (s : RemoteSdp) : Op → Prop
  | .send offerMediaObject reuseMid _ _ _ =>
    (∃ idx, s.getNextMediaSectionIdx = .ok ⟨idx, reuseMid⟩) ∧
      ∃ mid, offerMediaObject.find "mid" = some (.str mid) ∧ NewMid s mid s.closedIdx
  | .sendSctpAssociation offerMediaObject =>
    ∃ mid, offerMediaObject.find "mid" = some (.str mid) ∧ NewMid s mid none
  | .recvSctpAssociation => NewMid s "datachannel" none
  | .receive mid _ _ _ _ => NewMid s mid s.closedIdx
  | .disableMediaSection mid | .closeMediaSection mid =>
    ∃ sec ∈ s.mediaSections, sec.getMid = .ok mid
  | _ => True

/-- The calls that make a section. -/
def Op.MakesSection : Op → Prop
  | .send .. | .sendSctpAssociation _ | .recvSctpAssociation | .receive .. => True
  | _ => False

/-- Once there is a section 0 the first mid stays, and section 0 is not recycled. -/
def FirstKept (s : RemoteSdp) (op : Op) : Prop :=
  ∀ s', remoteSdp.step s op = some s' → s.mediaSections ≠ [] →
    s'.firstMid = s.firstMid ∧ (op.MakesSection → s'.mediaSections[0]? = s.mediaSections[0]?)

/-- How a call that makes a section ends: its constructor throws, the section is appended, or it
    takes the place of the first closed one. -/
inductive Made (s : RemoteSdp) : RemoteSdp → Prop where
  | threw : Made s s
  | append (new : MediaSection) (hmid : new.getMid = .ok new.mid) (hopen : new.isClosed = false)
      (hnew : NewMid s new.mid none) : Made s (s.appended new)
  | recycle (new old : MediaSection) (idx : ℕ) (hmid : new.getMid = .ok new.mid)
      (hopen : new.isClosed = false) (hidx : s.mediaSections[idx]? = some old)
      (hclosed : old.isClosed = true) (hnew : NewMid s new.mid (some idx)) :
      Made s (s.replaced idx (s.midToIndex.erase old.mid) new)

/-! ### The invariant survives -/

theorem repInv_new {iceParameters iceCandidates dtlsParameters sctpParameters : Json}
    {s : RemoteSdp} (h : RemoteSdp.new iceParameters iceCandidates dtlsParameters sctpParameters =
      .ok s) : RepInv s := by
  obtain ⟨hsec, hmap, hfirst, _, hmids⟩ := new_empty h
  refine ⟨?_, ?_, ?_, fun sec ht => ?_, fun _ => hfirst, ?_⟩
  · rw [hsec]; exact fun _ ht => absurd ht List.not_mem_nil
  · rw [hsec]; exact List.not_mem_nil
  · rw [hsec, hmap]; exact positions_empty
  · rw [hsec] at ht; cases ht
  · rw [hmids, hsec]; exact String.intercalate_nil.symm

/-- A call that changes neither mids nor which sections are closed. -/
theorem RepInv.similar {s s' : RemoteSdp} (h : RepInv s) (hs : Similar s s') : RepInv s' := by
  obtain ⟨hnamed, hne, hpos, hfirst, hunset, hbundle⟩ := h
  refine ⟨hnamed.congr hs.slots, ?_, ?_, fun sec hsec => ?_, fun hnil => ?_, ?_⟩
  · rw [mids_congr hs.slots]; exact hne
  · rw [mids_congr hs.slots, hs.midToIndex]; exact hpos
  · have hslot := congrArg (·[0]?) hs.slots
    simp only [List.getElem?_map, hsec, Option.map_some] at hslot
    obtain ⟨sec₀, hsec₀, heq⟩ := Option.map_eq_some_iff.mp hslot.symm
    obtain ⟨hmid, hclosed⟩ := Prod.ext_iff.mp heq
    obtain ⟨hm, hc⟩ := hfirst sec₀ hsec₀
    refine ⟨?_, hclosed.symm.trans hc⟩
    have hget : sec₀.getMid = sec.getMid := hmid
    rw [hs.firstMid, ← hm, MediaSection.mid, MediaSection.mid, ← hget]
  · rw [hs.firstMid]
    refine hunset (List.eq_nil_of_length_eq_zero ?_)
    have hlen := congrArg List.length hs.slots
    rw [hnil, List.map_nil, List.length_map, List.length_nil] at hlen
    exact hlen.symm
  · rw [hs.bundle, openMids_congr hs.slots]; exact hbundle

/-- The bundle line of sections whose mids are not empty. -/
theorem bundle_eq_intercalate {l : List MediaSection} (h : "" ∉ mids l) :
    Sdp.bundle l = " ".intercalate (openMids l) := by
  refine foldl_appendMid_empty fun hmem => h ?_
  obtain ⟨sec, hsec, heq⟩ := List.mem_map.mp hmem
  exact List.mem_map.mpr ⟨sec, List.mem_of_mem_filter hsec, heq⟩

/-- A mid that no section has is not among the mids. -/
theorem NewMid.not_mem {s : RemoteSdp} {mid : String} (h : NewMid s mid none)
    (hs : Named s.mediaSections) : mid ∉ mids s.mediaSections := by
  intro hmem
  obtain ⟨sec, hsec, rfl⟩ := List.mem_map.mp hmem
  obtain ⟨i, hi⟩ := List.mem_iff_getElem?.mp hsec
  exact h.2 i sec hi (by simp) (hs sec hsec)

/-- The mid of a recycled section is its own again, or new. -/
theorem NewMid.eq_or_not_mem {s : RemoteSdp} {mid : String} {idx : ℕ} {old : MediaSection}
    (h : NewMid s mid (some idx)) (hs : Named s.mediaSections)
    (hidx : s.mediaSections[idx]? = some old) : mid = old.mid ∨ mid ∉ mids s.mediaSections := by
  rw [or_iff_not_imp_left]
  intro hneq hmem
  obtain ⟨sec, hsec, heq⟩ := List.mem_map.mp hmem
  obtain ⟨i, hi⟩ := List.mem_iff_getElem?.mp hsec
  by_cases hii : idx = i
  · subst hii
    rw [hidx] at hi
    cases hi
    exact hneq heq.symm
  · exact h.2 i sec hi (fun hs => hii (Option.some.inj hs)) (heq ▸ hs sec hsec)

theorem nonempty_append {l : List MediaSection} (h : "" ∉ mids l) {new : MediaSection}
    (hnew : new.mid ≠ "") : "" ∉ mids (l ++ [new]) := by
  rw [mids_append, List.mem_append, List.mem_singleton]
  rintro (hmem | heq)
  · exact h hmem
  · exact hnew heq.symm

theorem nonempty_set {l : List MediaSection} (h : "" ∉ mids l) {new : MediaSection}
    (hnew : new.mid ≠ "") (i : ℕ) : "" ∉ mids (l.set i new) := by
  rw [mids_set]
  intro hmem
  rcases List.mem_or_eq_of_mem_set hmem with hmem | heq
  · exact h hmem
  · exact hnew heq.symm

theorem RepInv.mid_ne {s : RemoteSdp} (h : RepInv s) {i : ℕ} {sec : MediaSection}
    (hi : s.mediaSections[i]? = some sec) : sec.mid ≠ "" := mid_ne_of_nonempty h.nonempty hi

/-- The map finds a section by its mid. -/
theorem RepInv.get_mid {s : RemoteSdp} (h : RepInv s) {i : ℕ} {sec : MediaSection}
    (hi : s.mediaSections[i]? = some sec) : s.midToIndex.get sec.mid = some i :=
  (h.positions sec.mid i).mpr (getElem?_mids hi)

/-- An existing mid is looked up under the index of its section. -/
theorem RepInv.index_of_exists {s : RemoteSdp} (h : RepInv s) {mid : String}
    (hmid : ∃ sec ∈ s.mediaSections, sec.getMid = .ok mid) :
    ∃ (sec : MediaSection) (i : ℕ), s.mediaSections[i]? = some sec ∧ sec.mid = mid ∧
      s.midToIndex.index mid 0 = (i, s.midToIndex) := by
  obtain ⟨sec, hsec, hmid⟩ := hmid
  obtain ⟨i, hi⟩ := List.mem_iff_getElem?.mp hsec
  have heq := MediaSection.mid_eq hmid
  exact ⟨sec, i, hi, heq, StdMap.index_of_get (heq ▸ h.get_mid hi) 0⟩

theorem RepInv.appended {s : RemoteSdp} (h : RepInv s) {new : MediaSection}
    (hmid : new.getMid = .ok new.mid) (hopen : new.isClosed = false)
    (hnew : NewMid s new.mid none) : RepInv (s.appended new) := by
  have hne : "" ∉ mids (s.mediaSections ++ [new]) := nonempty_append h.nonempty hnew.1
  refine ⟨h.named.append hmid, hne, ?_, fun sec hsec => ?_, fun hnil => ?_,
    bundle_eq_intercalate hne⟩
  · show Positions (s.midToIndex.insert new.mid s.mediaSections.length)
      (mids (s.mediaSections ++ [new]))
    rw [mids_append, ← length_mids]
    exact h.positions.append (hnew.not_mem h.named)
  · have hsec : (s.mediaSections ++ [new])[0]? = some sec := hsec
    show sec.mid = (if s.firstMid = "" then new.mid else s.firstMid) ∧ _
    cases hl : s.mediaSections with
    | nil =>
      rw [hl] at hsec
      cases hsec
      exact ⟨by rw [if_pos (h.unset hl)], hopen⟩
    | cons t l =>
      rw [hl] at hsec
      have ht : s.mediaSections[0]? = some sec := by rw [hl]; exact hsec
      obtain ⟨hm, hc⟩ := h.first sec ht
      have hfirst : s.firstMid ≠ "" := hm ▸ h.mid_ne ht
      exact ⟨by rw [if_neg hfirst, hm], hc⟩
  · exact absurd hnil (List.append_ne_nil_of_right_ne_nil _ (List.cons_ne_nil _ _))

/-- A closed section is not section 0. -/
theorem RepInv.closed_ne_zero {s : RemoteSdp} (h : RepInv s) {idx : ℕ} {old : MediaSection}
    (hidx : s.mediaSections[idx]? = some old) (hclosed : old.isClosed = true) : idx ≠ 0 := by
  rintro rfl
  rw [(h.first old hidx).2] at hclosed
  cases hclosed

theorem RepInv.replaced {s : RemoteSdp} (h : RepInv s) {new old : MediaSection} {idx : ℕ}
    (hmid : new.getMid = .ok new.mid) (hidx : s.mediaSections[idx]? = some old)
    (hclosed : old.isClosed = true) (hnew : NewMid s new.mid (some idx)) :
    RepInv (s.replaced idx (s.midToIndex.erase old.mid) new) := by
  have hne : "" ∉ mids (s.mediaSections.set idx new) := nonempty_set h.nonempty hnew.1 idx
  refine ⟨h.named.set hmid idx, hne, ?_, fun sec hsec => ?_,
    fun hnil => h.unset ((List.set_eq_nil_iff ..).mp hnil), bundle_eq_intercalate hne⟩
  · show Positions ((s.midToIndex.erase old.mid).insert new.mid idx)
      (mids (s.mediaSections.set idx new))
    rw [mids_set]
    exact h.positions.set (getElem?_mids hidx) (hnew.eq_or_not_mem h.named hidx)
  · have hsec : (s.mediaSections.set idx new)[0]? = some sec := hsec
    rw [List.getElem?_set_ne (h.closed_ne_zero hidx hclosed)] at hsec
    exact h.first sec hsec

/-- Closing a section by its mid; section 0, whose mid is the first one, is only disabled. -/
theorem RepInv.closed {s : RemoteSdp} (h : RepInv s) {idx : ℕ} {sec : MediaSection}
    (hidx : s.mediaSections[idx]? = some sec) :
    RepInv (s.closed idx s.midToIndex (s.closing sec.mid sec)) := by
  have hget : (s.closing sec.mid sec).getMid = sec.getMid := getMid_closing ..
  have hmid : (s.closing sec.mid sec).mid = sec.mid := by
    rw [MediaSection.mid, hget, ← MediaSection.mid]
  obtain ⟨hnamed, hmids⟩ := h.named.set_of_mid hidx hget
  have hne : "" ∉ mids (s.mediaSections.set idx (s.closing sec.mid sec)) := by
    rw [hmids]; exact h.nonempty
  have hlt : idx < s.mediaSections.length := (List.getElem?_eq_some_iff.mp hidx).1
  refine ⟨hnamed, hne, ?_, fun t ht => ?_,
    fun hnil => h.unset ((List.set_eq_nil_iff ..).mp hnil), bundle_eq_intercalate hne⟩
  · show Positions s.midToIndex (mids (s.mediaSections.set idx (s.closing sec.mid sec)))
    rw [hmids]
    exact h.positions
  · have ht : (s.mediaSections.set idx (s.closing sec.mid sec))[0]? = some t := ht
    by_cases h0 : idx = 0
    · subst h0
      rw [List.getElem?_set_self hlt] at ht
      cases ht
      obtain ⟨hm, hc⟩ := h.first sec hidx
      refine ⟨hmid.trans hm, ?_⟩
      rw [closing, if_pos hm, MediaSection.isClosed_disable, hc]
    · rw [List.getElem?_set_ne h0] at ht
      exact h.first t ht

theorem RepInv.made {s s' : RemoteSdp} (h : RepInv s) (hm : Made s s') : RepInv s' := by
  cases hm with
  | threw => exact h
  | append new hmid hopen hnew => exact h.appended hmid hopen hnew
  | recycle new old idx hmid _ hidx hclosed hnew => exact h.replaced hmid hidx hclosed hnew

/-- Making a section keeps the first mid and section 0, once there is one. -/
theorem RepInv.made_first {s s' : RemoteSdp} (h : RepInv s) (hm : Made s s')
    (hne : s.mediaSections ≠ []) :
    s'.firstMid = s.firstMid ∧ s'.mediaSections[0]? = s.mediaSections[0]? := by
  cases hm with
  | threw => exact ⟨rfl, rfl⟩
  | append new hmid hopen hnew =>
    obtain ⟨t, l, hl⟩ := List.exists_cons_of_ne_nil hne
    have ht : s.mediaSections[0]? = some t := by rw [hl]; rfl
    have hfirst : s.firstMid ≠ "" := (h.first t ht).1 ▸ h.mid_ne ht
    refine ⟨if_neg hfirst, ?_⟩
    show (s.mediaSections ++ [new])[0]? = _
    rw [hl]
    rfl
  | recycle new old idx hmid _ hidx hclosed hnew =>
    exact ⟨rfl, List.getElem?_set_ne (h.closed_ne_zero hidx hclosed)⟩

/-! ### The calls -/

theorem made_add {s s' : RemoteSdp} (hs : RepInv s) {new : MediaSection}
    (hmid : new.getMid = .ok new.mid) (hopen : new.isClosed = false)
    (hnew : NewMid s new.mid none) (h : (s.addMediaSection new).state? = some s') : Made s s' := by
  rw [addMediaSection_eq hs.named hmid] at h
  cases h
  exact .append new hmid hopen hnew

theorem made_replace {s s' : RemoteSdp} (hs : RepInv s) {new old : MediaSection} {idx : ℕ}
    (hmid : new.getMid = .ok new.mid) (hopen : new.isClosed = false)
    (hidx : s.mediaSections[idx]? = some old) (hclosed : old.isClosed = true)
    (hnew : NewMid s new.mid (some idx))
    (h : (s.replaceMediaSection new old.mid).state? = some s') : Made s s' := by
  rw [replaceMediaSection_eq hs.named hmid (hs.mid_ne hidx)
    (StdMap.index_of_get (hs.get_mid hidx) 0) hidx] at h
  cases h
  exact .recycle new old idx hmid hopen hidx hclosed hnew

theorem made_next {s s' : RemoteSdp} (hs : RepInv s) {next : MediaSectionIdx}
    (hnext : s.getNextMediaSectionIdx = .ok next) {new : MediaSection}
    (hmid : new.getMid = .ok new.mid) (hopen : new.isClosed = false)
    (hnew : NewMid s new.mid s.closedIdx)
    (h : (if next.reuseMid ≠ "" then s.replaceMediaSection new next.reuseMid
      else s.addMediaSection new).state? = some s') : Made s s' := by
  obtain ⟨hc, heq⟩ | ⟨idx, old, hc, hidx, hclosed, heq⟩ := getNextMediaSectionIdx_eq hs.named
  · cases hnext.symm.trans heq
    rw [hc] at hnew
    exact made_add hs hmid hopen hnew h
  · cases hnext.symm.trans heq
    rw [hc] at hnew
    rw [if_pos (hs.mid_ne hidx)] at h
    exact made_replace hs hmid hopen hidx hclosed hnew h

theorem made_send {s s' : RemoteSdp} (hs : RepInv s)
    {offerMediaObject offerRtpParameters answerRtpParameters : Json} {reuseMid : String}
    {codecOptions : Option Json}
    (hw : WellUsed s (.send offerMediaObject reuseMid offerRtpParameters answerRtpParameters
      codecOptions))
    (h : (s.send offerMediaObject reuseMid offerRtpParameters answerRtpParameters
      codecOptions).state? = some s') : Made s s' := by
  obtain ⟨⟨idx, hnext⟩, mid, hfind, hnew⟩ := hw
  rcases attempt_state h with rfl | ⟨⟨new, o⟩, hctor, h⟩
  · exact .threw
  have hopen := (answerMediaSection_ok hctor).1
  obtain ⟨hmid, rfl⟩ := answer_mid hctor hfind
  exact made_next hs hnext hmid hopen hnew h

theorem made_sendSctpAssociation {s s' : RemoteSdp} (hs : RepInv s) {offerMediaObject : Json}
    (hw : WellUsed s (.sendSctpAssociation offerMediaObject))
    (h : (s.sendSctpAssociation offerMediaObject).state? = some s') : Made s s' := by
  obtain ⟨mid, hfind, hnew⟩ := hw
  rcases attempt_state h with rfl | ⟨⟨new, o⟩, hctor, h⟩
  · exact .threw
  have hopen := (answerMediaSection_ok hctor).1
  obtain ⟨hmid, rfl⟩ := answer_mid hctor hfind
  exact made_add hs hmid hopen hnew h

theorem made_recvSctpAssociation {s s' : RemoteSdp} (hs : RepInv s)
    (hw : WellUsed s .recvSctpAssociation) (h : s.recvSctpAssociation.state? = some s') :
    Made s s' := by
  rcases attempt_state h with rfl | ⟨new, hctor, h⟩
  · exact .threw
  have hopen := (offerMediaSection_ok hctor).1
  obtain ⟨hmid, heq⟩ := offer_mid hctor
  exact made_add hs hmid hopen (heq ▸ hw) h

theorem made_receive {s s' : RemoteSdp} (hs : RepInv s) {mid kind : String}
    {offerRtpParameters : Json} {streamId trackId : String}
    (hw : WellUsed s (.receive mid kind offerRtpParameters streamId trackId))
    (h : (s.receive mid kind offerRtpParameters streamId trackId).state? = some s') :
    Made s s' := by
  obtain ⟨next, hnext, heq⟩ :=
    receive_eq hs.named hs.nonempty mid kind offerRtpParameters streamId trackId
  rw [heq] at h
  rcases attempt_state h with rfl | ⟨new, hctor, h⟩
  · exact .threw
  have hopen := (offerMediaSection_ok hctor).1
  obtain ⟨hmid, hmid'⟩ := offer_mid hctor
  exact made_next hs hnext hmid hopen (hmid' ▸ hw) h

/-- One well used call. -/
theorem repInv_step {s s' : RemoteSdp} {op : Op} (hs : RepInv s) (hw : WellUsed s op)
    (h : remoteSdp.step s op = some s') :
    RepInv s' ∧ (s.mediaSections ≠ [] → s'.firstMid = s.firstMid ∧
      (op.MakesSection → s'.mediaSections[0]? = s.mediaSections[0]?)) := by
  have hmade : Made s s' → RepInv s' ∧ (s.mediaSections ≠ [] → s'.firstMid = s.firstMid ∧
      (op.MakesSection → s'.mediaSections[0]? = s.mediaSections[0]?)) := by
    intro hm
    refine ⟨hs.made hm, fun hne => ?_⟩
    obtain ⟨hfirst, hzero⟩ := hs.made_first hm hne
    exact ⟨hfirst, fun _ => hzero⟩
  have hsimilar : Similar s s' → ¬ op.MakesSection →
      RepInv s' ∧ (s.mediaSections ≠ [] → s'.firstMid = s.firstMid ∧
        (op.MakesSection → s'.mediaSections[0]? = s.mediaSections[0]?)) :=
    fun hsim hno => ⟨hs.similar hsim, fun _ => ⟨hsim.firstMid, fun hyes => absurd hyes hno⟩⟩
  cases op with
  | updateIceParameters iceParameters => exact hsimilar (similar_updateIceParameters h) id
  | updateDtlsRole role => exact hsimilar (similar_updateDtlsRole h) id
  | send => exact hmade (made_send hs hw h)
  | sendSctpAssociation => exact hmade (made_sendSctpAssociation hs hw h)
  | recvSctpAssociation => exact hmade (made_recvSctpAssociation hs hw h)
  | receive => exact hmade (made_receive hs hw h)
  | disableMediaSection mid =>
    obtain ⟨sec, i, hi, rfl, hget⟩ := hs.index_of_exists hw
    obtain ⟨idx, m, sec', hidx, hsec, rfl⟩ := disableMediaSection_state h
    cases hget.symm.trans hidx
    have hslot : slot sec'.disable = slot sec' :=
      Prod.ext sec'.getMid_disable sec'.isClosed_disable
    exact hsimilar ⟨map_set_of_eq slot hsec hslot, rfl, rfl, rfl⟩ id
  | closeMediaSection mid =>
    obtain ⟨sec, i, hi, rfl, hget⟩ := hs.index_of_exists hw
    obtain ⟨idx, m, sec', hidx, hsec, rfl⟩ := closeMediaSection_state hs.named h
    cases hget.symm.trans hidx
    cases hi.symm.trans hsec
    exact ⟨hs.closed hi, fun _ => ⟨rfl, fun hyes => absurd hyes id⟩⟩
  | getSdp =>
    obtain ⟨media, _, rfl⟩ := getSdp_state h
    exact hsimilar ⟨rfl, rfl, rfl, rfl⟩ id

/-- CORRECT: over every well used run from a new description the map, the first mid and the bundle
    line describe the sections, and section 0 keeps its mid and is neither closed nor recycled. -/
theorem representation {iceParameters iceCandidates dtlsParameters sctpParameters : Json}
    {s : RemoteSdp} (h : RemoteSdp.new iceParameters iceCandidates dtlsParameters sctpParameters =
      .ok s) (ops : List Op) (hw : remoteSdp.Along WellUsed s ops) :
    remoteSdp.Always RepInv s ops ∧ remoteSdp.Along FirstKept s ops := by
  have hs := repInv_new h
  have hstep : ∀ s op s', RepInv s → WellUsed s op → remoteSdp.step s op = some s' → RepInv s' :=
    fun _ _ _ hs hw h => (repInv_step hs hw h).1
  refine ⟨remoteSdp.always_of_along RepInv hstep ops s hs hw,
    remoteSdp.along_of_along RepInv hstep (fun s op s' hs hw h t ht hne => ?_) ops s hs hw⟩
  obtain rfl : s' = t := Option.some.inj (h.symm.trans ht)
  exact (repInv_step hs hw h).2 hne

/-- The mids of the sections, and where the next one goes. -/
def placesOf (s : RemoteSdp) : List (Option String) × Option MediaSectionIdx :=
  (s.mediaSections.map fun sec => sec.getMid.toOption, s.getNextMediaSectionIdx.toOption)

theorem newMid_of_places {s : RemoteSdp} {mid : String} {recycled : Option ℕ} (hne : mid ≠ "")
    (h : some mid ∉ (placesOf s).1) : NewMid s mid recycled := by
  refine ⟨hne, fun _ sec hi _ hmid => h (List.mem_map.mpr ⟨sec, List.mem_of_getElem? hi, ?_⟩)⟩
  rw [hmid]
  rfl

theorem exists_of_places {s : RemoteSdp} {mid : String} (h : some mid ∈ (placesOf s).1) :
    ∃ sec ∈ s.mediaSections, sec.getMid = .ok mid := by
  obtain ⟨sec, hsec, hmid⟩ := List.mem_map.mp h
  exact ⟨sec, hsec, toOption_eq_some.mp hmid⟩

/-- An offered data channel. -/
def applicationOffer₀ : Json := Json.object [
  ("type", .str "application"), ("mid", .str "2"), ("protocol", .str "UDP/DTLS/SCTP")]

/-- A data channel, and a track behind it. -/
def trackRun : List Op :=
  [.recvSctpAssociation] ++ [.receive "1" "audio" audioParameters₀ "stream" "track"]

/-- The track is closed, and its section recycled. -/
def recyclingRun : List Op :=
  trackRun ++ [.closeMediaSection "1"] ++ [.send applicationOffer₀ "1" .null .null none]

/-- The run is well used if every call finds the places that it should. -/
theorem wellUsed_recycling {s : RemoteSdp} (hnone : placesOf s = ([], some ⟨0, ""⟩))
    (hone : (remoteSdp.exec s [.recvSctpAssociation]).map placesOf =
      some ([some "datachannel"], some ⟨1, ""⟩))
    (htwo : (remoteSdp.exec s trackRun).map placesOf =
      some ([some "datachannel", some "1"], some ⟨2, ""⟩))
    (hthree : (remoteSdp.exec s (trackRun ++ [.closeMediaSection "1"])).map placesOf =
      some ([some "datachannel", some "1"], some ⟨1, "1"⟩)) :
    remoteSdp.Along WellUsed s recyclingRun := by
  have hadd : remoteSdp.Along WellUsed s [.recvSctpAssociation] :=
    Lts.along_singleton _ (newMid_of_places (by decide) (by rw [hnone]; decide))
  have hreceive : remoteSdp.Along WellUsed s trackRun := by
    refine Lts.along_concat _ hadd fun t ht => ?_
    rw [ht] at hone
    exact newMid_of_places (by decide) (by rw [Option.some.inj hone]; decide)
  have hclose : remoteSdp.Along WellUsed s (trackRun ++ [.closeMediaSection "1"]) := by
    refine Lts.along_concat _ hreceive fun t ht => ?_
    rw [ht] at htwo
    exact exists_of_places (by rw [Option.some.inj htwo]; decide)
  refine Lts.along_concat _ hclose fun t ht => ?_
  rw [ht] at hthree
  have hplaces : placesOf t = _ := Option.some.inj hthree
  exact ⟨⟨1, toOption_eq_some.mp (congrArg Prod.snd hplaces)⟩, "2", rfl,
    newMid_of_places (by decide) (by rw [hplaces]; decide)⟩

theorem representation_recycled :
    remoteSdp.Always RepInv remoteSdp₀ recyclingRun ∧
      remoteSdp.Along FirstKept remoteSdp₀ recyclingRun := by
  have hused := wellUsed_recycling (s := remoteSdp₀) (by decide) (by decide +kernel)
    (by decide +kernel) (by decide +kernel)
  -- any other step would evaluate the run
  refine representation new_remoteSdp₀ recyclingRun ?_
  assumption

end MediasoupClient.Sdp
