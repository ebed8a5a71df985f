import MediasoupClient.Sdp.Sections

/-! Calls that name a mid no section has.

        midToIndex[mid]     known     ──▶  the index of its section
                            unknown   ──▶  mid ↦ 0 is inserted, and section 0 meant

    A mid that is not in the map always leaves a trace: at least the new key stays. A mid can also
    be in the map and name no section any more, from an earlier lookup or because the section it
    was inserted for has been recycled. Then the call does nothing only where there is nothing left
    to do to the section it means. -/

namespace MediasoupClient.Sdp
open Lib RemoteSdp

/-- No section has the mid. -/
def Unknown (s : RemoteSdp) (mid : String) : Prop := ∀ sec ∈ s.mediaSections, sec.getMid ≠ .ok mid

/-- The same sections, map, first mid and printed object. -/
structure Same (s s' : RemoteSdp) : Prop where
  mediaSections : s'.mediaSections = s.mediaSections
  midToIndex : s'.midToIndex = s.midToIndex
  firstMid : s'.firstMid = s.firstMid
  sdpObject : s'.sdpObject = s.sdpObject

/-- The call returns or throws, and leaves these as they were. -/
def Untouched (s : RemoteSdp) (o : Outcome Fault RemoteSdp) : Prop :=
  ∃ s', o.state? = some s' ∧ Same s s'

/-- The bundle line is what the bundle loop computes, if that does not throw. -/
def BundleCurrent (s : RemoteSdp) : Prop :=
  ∀ mids, bundleMids s.mediaSections = .ok mids → mids = s.sdpObject.mids

/-- The mid is in the map, and of the section under its index `P` holds. -/
def Meant (s : RemoteSdp) (mid : String) (P : ℕ → MediaSection → Prop) : Prop :=
  ∃ i sec, s.midToIndex.get mid = some i ∧ s.mediaSections[i]? = some sec ∧ P i sec

/-- The section is printed as it is, and so is the bundle line. -/
def PrintedAs (s : RemoteSdp) (i : ℕ) (sec : MediaSection) : Prop :=
  s.sdpObject.media[i]? = some sec.getObject ∧ BundleCurrent s

/-- The section that is meant is disabled. -/
def DisableKeeps (s : RemoteSdp) (mid : String) : Prop := Meant s mid fun _ sec => sec.Disabled

/-- The section that is meant is closed (or disabled, if the mid is the first one) and printed. -/
def CloseKeeps (s : RemoteSdp) (mid : String) : Prop :=
  Meant s mid fun i sec =>
    (if mid = s.firstMid then sec.Disabled else sec.Closed) ∧ PrintedAs s i sec

/-- The section that is meant is the same as the new one. If it has a mid, that is mapped to its
    index, and it is printed. -/
def ReuseKeeps (s : RemoteSdp) (mid : String) (new : MediaSection) : Prop :=
  Meant s mid fun i sec => new = sec ∧
    ∀ newMid, new.getMid = .ok newMid → s.midToIndex.get newMid = some i ∧ PrintedAs s i new

/-- The section cannot be made; or there is no mid to reuse, the new section has none either, and
    the first mid is to be set; or the reuse changes nothing. -/
def SendKeeps (s : RemoteSdp) (mid : String) (made : Except Fault (MediaSection × Json)) : Prop :=
  match made with
  | .error e => e ≠ .undefined
  | .ok (new, _) =>
    if mid = "" then s.firstMid = "" ∧ ∀ newMid, new.getMid ≠ .ok newMid
    else ReuseKeeps s mid new

/-! ### Comparing the state before and after -/

theorem bundleMids_error {l : List MediaSection} {e : Fault} (h : bundleMids l = .error e) :
    e = .typeError 302 := by
  have hloop : ∀ (l : List MediaSection) (acc : String),
      (l.foldlM (fun mids s =>
        if s.isClosed then return mids else return appendMid mids (← s.getMid)) acc
        : Except Fault String) = .error e → e = .typeError 302 := by
    intro l
    induction l with
    | nil => intro acc h; cases h
    | cons s l ih =>
      intro acc h
      rw [List.foldlM_cons] at h
      cases hc : s.isClosed with
      | true =>
        simp only [hc, if_true, pure_bind] at h
        exact ih acc h
      | false =>
        cases hmid : s.getMid with
        | ok mid =>
          simp only [hc, hmid] at h
          exact ih _ h
        | error e' =>
          simp only [hc, hmid] at h
          cases h
          exact MediaSection.getMid_error hmid
  exact hloop l "" h

theorem untouched_returned {s t : RemoteSdp} : Untouched s (.returned t) ↔ Same s t := by
  simp only [Untouched, Outcome.state?_returned, Option.some.injEq, exists_eq_left']

theorem untouched_threw {s t : RemoteSdp} {e : Fault} : Untouched s (.threw e t) ↔ Same s t := by
  simp only [Untouched, Outcome.state?_threw, Option.some.injEq, exists_eq_left']

theorem not_untouched_undefined {s : RemoteSdp} : ¬ Untouched s .undefined := by
  rintro ⟨_, h, _⟩
  cases h

/-- Looking the mid up shows whether it is in the map: if not, the map is changed. -/
theorem meant_iff {s : RemoteSdp} {mid : String} {idx : ℕ} {m : StdMap String ℕ}
    {P : ℕ → MediaSection → Prop} (hidx : s.midToIndex.index mid 0 = (idx, m)) :
    Meant s mid P ↔ m = s.midToIndex ∧ ∃ sec, s.mediaSections[idx]? = some sec ∧ P idx sec := by
  cases hget : s.midToIndex.get mid with
  | none =>
    rw [StdMap.index_of_none hget] at hidx
    cases hidx
    refine iff_of_false ?_ ?_
    · rintro ⟨i, sec, hi, _⟩
      cases hget.symm.trans hi
    · rintro ⟨hm, _⟩
      have hself := congrArg (·.get mid) hm
      simp only [StdMap.get_insert_self, hget] at hself
      cases hself
  | some i =>
    rw [StdMap.index_of_get hget] at hidx
    cases hidx
    constructor
    · rintro ⟨j, sec, hj, hsec, hP⟩
      cases hget.symm.trans hj
      exact ⟨rfl, sec, hsec, hP⟩
    · rintro ⟨_, sec, hsec, hP⟩
      exact ⟨_, sec, hget, hsec, hP⟩

theorem setFill_eq_self_iff {l : List Json} {i : ℕ} {v : Json} :
    Json.setFill l i v = l ↔ l[i]? = some v := by
  by_cases hlt : i < l.length
  · have hi : l[i]? = some l[i] := List.getElem?_eq_getElem hlt
    rw [Json.setFill_eq_set v hlt, set_eq_self_iff hi, hi, Option.some.injEq]
    exact eq_comm
  · rw [List.getElem?_eq_none (not_lt.mp hlt), Json.setFill, if_neg hlt]
    constructor
    · intro h
      have hlen := congrArg List.length h
      simp only [List.length_append, List.length_replicate, List.length_singleton] at hlen
      omega
    · intro h
      cases h

/-- An entry is printed and the bundle line made anew, after other changes. -/
theorem untouched_regenerate {s t : RemoteSdp} (ht : t.sdpObject = s.sdpObject) (idx : ℕ)
    (v : Json) :
    Untouched s (t.setMedia idx v).regenerateBundleMids ↔ t.mediaSections = s.mediaSections ∧
      t.midToIndex = s.midToIndex ∧ t.firstMid = s.firstMid ∧
      s.sdpObject.media[idx]? = some v ∧ BundleCurrent s := by
  have hobj : ∀ mids,
      { s.sdpObject with media := Json.setFill s.sdpObject.media idx v, mids := mids } =
        s.sdpObject ↔ s.sdpObject.media[idx]? = some v ∧ mids = s.sdpObject.mids := by
    intro mids
    rw [← setFill_eq_self_iff]
    obtain ⟨_, _, _, media, mids'⟩ := s.sdpObject
    simp only [SdpObject.mk.injEq, true_and]
  rw [regenerateBundleMids]
  simp only [setMedia, ht]
  cases hb : bundleMids t.mediaSections with
  | error e =>
    obtain rfl := bundleMids_error hb
    simp only [attempt]
    rw [untouched_threw]
    constructor
    · rintro ⟨hsec, hmap, hfirst, hsdp⟩
      have hsec : t.mediaSections = s.mediaSections := hsec
      refine ⟨hsec, hmap, hfirst, ((hobj _).mp hsdp).1, fun mids hmids => ?_⟩
      rw [← hsec, hb] at hmids
      cases hmids
    · rintro ⟨hsec, hmap, hfirst, hmedia, _⟩
      exact ⟨hsec, hmap, hfirst, (hobj _).mpr ⟨hmedia, rfl⟩⟩
  | ok mids =>
    simp only [attempt]
    rw [untouched_returned]
    constructor
    · rintro ⟨hsec, hmap, hfirst, hsdp⟩
      have hsec : t.mediaSections = s.mediaSections := hsec
      obtain ⟨hmedia, hmids⟩ := (hobj mids).mp hsdp
      refine ⟨hsec, hmap, hfirst, hmedia, fun mids' hmids' => ?_⟩
      rw [← hsec, hb] at hmids'
      cases hmids'
      exact hmids
    · rintro ⟨hsec, hmap, hfirst, hmedia, hbundle⟩
      exact ⟨hsec, hmap, hfirst, (hobj mids).mpr ⟨hmedia, hbundle mids (hsec ▸ hb)⟩⟩

/-! ### The calls -/

theorem untouched_disable (s : RemoteSdp) (mid : String) :
    Untouched s (s.disableMediaSection mid) ↔ DisableKeeps s mid := by
  rcases hidx : s.midToIndex.index mid 0 with ⟨idx, m⟩
  rw [disableMediaSection, hidx, DisableKeeps, meant_iff hidx]
  cases hsec : s.mediaSections[idx]? with
  | none =>
    simp only [hsec]
    refine iff_of_false not_untouched_undefined ?_
    rintro ⟨_, sec, h, _⟩
    cases h
  | some sec =>
    simp only [hsec, Option.some.injEq, exists_eq_left']
    rw [untouched_returned, ← sec.disable_eq_self_iff, ← set_eq_self_iff hsec]
    constructor
    · rintro ⟨hset, hm, _, _⟩
      exact ⟨hm, hset⟩
    · rintro ⟨hm, hset⟩
      exact ⟨hset, hm, rfl, rfl⟩

theorem closing_eq_self_iff (s : RemoteSdp) (mid : String) (sec : MediaSection) :
    s.closing mid sec = sec ↔ if mid = s.firstMid then sec.Disabled else sec.Closed := by
  unfold closing
  split_ifs
  · exact sec.disable_eq_self_iff
  · exact sec.close_eq_self_iff

theorem untouched_close (s : RemoteSdp) (mid : String) :
    Untouched s (s.closeMediaSection mid) ↔ CloseKeeps s mid := by
  rcases hidx : s.midToIndex.index mid 0 with ⟨idx, m⟩
  rw [closeMediaSection, hidx, CloseKeeps, meant_iff hidx]
  cases hsec : s.mediaSections[idx]? with
  | none =>
    simp only [hsec]
    refine iff_of_false not_untouched_undefined ?_
    rintro ⟨_, sec, h, _⟩
    cases h
  | some sec =>
    simp only [hsec, Option.some.injEq, exists_eq_left']
    rw [← closing_eq_self_iff, PrintedAs]
    change Untouched s (regenerateBundleMids ({ s with
      midToIndex := m
      mediaSections := s.mediaSections.set idx (s.closing mid sec) }.setMedia idx
        (s.closing mid sec).getObject)) ↔ _
    refine (untouched_regenerate ?_ idx _).trans ?_
    · rfl
    constructor
    · rintro ⟨hset, hm, _, hmedia, hbundle⟩
      have hself : s.closing mid sec = sec := (set_eq_self_iff hsec).mp hset
      rw [hself] at hmedia
      exact ⟨hm, hself, hmedia, hbundle⟩
    · rintro ⟨hm, hself, hmedia, hbundle⟩
      exact ⟨(set_eq_self_iff hsec).mpr hself, hm, rfl, by rw [hself]; exact hmedia, hbundle⟩

/-- Without a mid to reuse a section is appended, and the call that is to leave no trace has to
    throw before that. -/
theorem untouched_add (s : RemoteSdp) (new : MediaSection) :
    Untouched s (s.addMediaSection new) ↔ s.firstMid = "" ∧ ∀ newMid, new.getMid ≠ .ok newMid := by
  have happend : ∀ t : RemoteSdp, t.mediaSections = s.mediaSections ++ [new] → ¬ Same s t := by
    intro t ht hsame
    have hlen := congrArg List.length (ht.symm.trans hsame.mediaSections)
    rw [List.length_append, List.length_singleton] at hlen
    omega
  cases hmid : new.getMid with
  | ok mid =>
    refine iff_of_false ?_ fun h => h.2 mid rfl
    rintro ⟨t, ht, hsame⟩
    have hfirst : (if s.firstMid = "" then new.getMid else .ok s.firstMid) =
        .ok (if s.firstMid = "" then mid else s.firstMid) := by
      split_ifs
      · exact hmid
      · rfl
    rw [addMediaSection, hfirst, hmid] at ht
    simp only [attempt] at ht
    obtain ⟨mids, rfl⟩ := regenerateBundleMids_state ht
    exact happend _ rfl hsame
  | error e =>
    rw [addMediaSection_error hmid, untouched_threw]
    split_ifs with hfirst
    · exact iff_of_true ⟨rfl, rfl, rfl, rfl⟩ ⟨hfirst, fun _ h => (by cases h)⟩
    · exact iff_of_false (happend _ rfl) fun h => hfirst h.1

/-- Erasing a key and inserting one changes nothing when it is the same key, and was mapped so. -/
theorem insert_erase_eq_self_iff {m : StdMap String ℕ} {k : String} {i : ℕ} :
    (m.erase k).insert k i = m ↔ m.get k = some i := by
  constructor
  · intro h
    rw [← h, StdMap.get_insert_self]
  · intro h
    refine StdMap.ext_get fun k' => ?_
    rw [StdMap.get_insert, StdMap.get_erase]
    split_ifs with hk
    · rw [hk, h]
    · rfl

/-- Whatever section is replaced, a mid that was not in the map is afterwards. -/
theorem replace_inserts {s t : RemoteSdp} {mid : String} {new : MediaSection} (hu : Unknown s mid)
    (hmid : mid ≠ "") (hget : s.midToIndex.get mid = none)
    (h : (s.replaceMediaSection new mid).state? = some t) : t.midToIndex ≠ s.midToIndex := by
  have hinserted : t.midToIndex.get mid = some 0 := by
    rw [replaceMediaSection, if_pos hmid, StdMap.index_of_none hget] at h
    cases hold : s.mediaSections[0]? with
    | none => simp only [hold] at h; cases h
    | some old =>
      simp only [hold] at h
      rcases attempt_state h with rfl | ⟨oldMid, holdMid, h⟩
      · exact StdMap.get_insert_self ..
      have hne : mid ≠ oldMid := by
        rintro rfl
        exact hu old (List.mem_of_getElem? hold) holdMid
      have herased : ((s.midToIndex.insert mid 0).erase oldMid).get mid = some 0 := by
        rw [StdMap.get_erase_of_ne _ hne, StdMap.get_insert_self]
      rcases attempt_state h with rfl | ⟨newMid, _, h⟩
      · exact herased
      · obtain ⟨mids, rfl⟩ := regenerateBundleMids_state h
        show (((s.midToIndex.insert mid 0).erase oldMid).insert newMid 0).get mid = some 0
        rw [StdMap.get_insert]
        split_ifs
        · rfl
        · exact herased
  intro heq
  rw [heq, hget] at hinserted
  cases hinserted

theorem untouched_replace {s : RemoteSdp} {mid : String} (hu : Unknown s mid) (hmid : mid ≠ "")
    (new : MediaSection) :
    Untouched s (s.replaceMediaSection new mid) ↔ ReuseKeeps s mid new := by
  cases hget : s.midToIndex.get mid with
  | none =>
    refine iff_of_false ?_ ?_
    · rintro ⟨t, ht, hsame⟩
      exact replace_inserts hu hmid hget ht hsame.midToIndex
    · rintro ⟨i, sec, hi, _⟩
      cases hget.symm.trans hi
  | some i =>
    have hidx := StdMap.index_of_get hget 0
    rw [replaceMediaSection, if_pos hmid, hidx, ReuseKeeps, meant_iff hidx]
    cases hold : s.mediaSections[i]? with
    | none =>
      simp only [hold]
      refine iff_of_false not_untouched_undefined ?_
      rintro ⟨_, sec, h, _⟩
      cases h
    | some old =>
      simp only [hold, Option.some.injEq, exists_eq_left', true_and]
      have hset := @set_eq_self_iff _ _ _ _ new hold
      by_cases heq : new = old
      · subst heq
        cases hnew : new.getMid with
        | error e =>
          obtain rfl := MediaSection.getMid_error hnew
          simp only [attempt]
          rw [untouched_threw]
          exact iff_of_true ⟨hset.mpr rfl, rfl, rfl, rfl⟩ ⟨trivial, fun _ h => (by cases h)⟩
        | ok newMid =>
          simp only [attempt]
          refine (untouched_regenerate ?_ i _).trans ?_
          · rfl
          constructor
          · rintro ⟨_, hmap, _, hmedia, hbundle⟩
            refine ⟨trivial, fun newMid' h => ?_⟩
            cases h
            exact ⟨insert_erase_eq_self_iff.mp hmap, hmedia, hbundle⟩
          · rintro ⟨_, h⟩
            obtain ⟨hi, hmedia, hbundle⟩ := h newMid rfl
            exact ⟨hset.mpr rfl, insert_erase_eq_self_iff.mpr hi, rfl, hmedia, hbundle⟩
      · refine iff_of_false ?_ fun h => heq h.1
        rintro ⟨t, ht, hsame⟩
        refine heq (hset.mp (Eq.trans ?_ hsame.mediaSections))
        rcases attempt_state ht with rfl | ⟨oldMid, _, ht⟩
        · rfl
        rcases attempt_state ht with rfl | ⟨newMid, _, ht⟩
        · rfl
        · obtain ⟨mids, rfl⟩ := regenerateBundleMids_state ht
          rfl

theorem untouched_send {s : RemoteSdp} {mid : String} (hu : Unknown s mid)
    (offerMediaObject offerRtpParameters answerRtpParameters : Json) (codecOptions : Option Json) :
    Untouched s (s.send offerMediaObject mid offerRtpParameters answerRtpParameters codecOptions) ↔
      SendKeeps s mid (answerMediaSection s.iceParameters s.iceCandidates s.dtlsParameters
        s.sctpParameters offerMediaObject offerRtpParameters answerRtpParameters codecOptions) := by
  rw [send]
  cases answerMediaSection s.iceParameters s.iceCandidates s.dtlsParameters s.sctpParameters
    offerMediaObject offerRtpParameters answerRtpParameters codecOptions with
  | error e =>
    cases e with
    | undefined => exact iff_of_false not_untouched_undefined fun h => h rfl
    | typeError id =>
      refine iff_of_true (untouched_threw.mpr ⟨rfl, rfl, rfl, rfl⟩) ?_
      exact Fault.noConfusion
  | ok made =>
    simp only [attempt, SendKeeps]
    by_cases hmid : mid = ""
    · rw [if_neg (not_not.mpr hmid), if_pos hmid]
      exact untouched_add s made.1
    · rw [if_pos hmid, if_neg hmid]
      exact untouched_replace hu hmid made.1

/-- CORRECT: a call that names a mid no section has leaves no trace exactly where the section that
    is looked up under the mid is already as the call would leave it. -/
theorem unknown_mid (s : RemoteSdp) (mid : String) (hu : Unknown s mid) :
    (Untouched s (s.closeMediaSection mid) ↔ CloseKeeps s mid) ∧
    (Untouched s (s.disableMediaSection mid) ↔ DisableKeeps s mid) ∧
    ∀ (offerMediaObject offerRtpParameters answerRtpParameters : Json)
      (codecOptions : Option Json),
      (Untouched s (s.send offerMediaObject mid offerRtpParameters answerRtpParameters
          codecOptions) ↔
        SendKeeps s mid (answerMediaSection s.iceParameters s.iceCandidates s.dtlsParameters
          s.sctpParameters offerMediaObject offerRtpParameters answerRtpParameters
          codecOptions)) :=
  ⟨untouched_close s mid, untouched_disable s mid, untouched_send hu⟩

theorem unknown_datachannel {s : RemoteSdp}
    (h : remoteSdp.exec remoteSdp₀ [.recvSctpAssociation] = some s) : Unknown s "x" := by
  cases h
  intro sec hsec hmid
  obtain rfl := List.mem_singleton.mp hsec
  have hmid : (.ok "datachannel" : Except Fault String) = .ok "x" := hmid
  exact absurd (Except.ok.inj hmid) (by decide)

/-- Disabling an unknown mid, in a description that has a data channel and nothing else. -/
theorem unknown_mid_datachannel : ∃ s,
    remoteSdp.exec remoteSdp₀ [.recvSctpAssociation] = some s ∧
      (Untouched s (s.disableMediaSection "x") ↔ DisableKeeps s "x") :=
  ⟨_, rfl, (unknown_mid _ "x" (unknown_datachannel rfl)).2.1⟩

/-- Closing a mid that no section has closes section 0, and leaves the mid in the map. -/
theorem unknown_mid_closes :
    RemoteSdp.new iceParameters₀ (.arr []) dtlsParameters₀ sctpParameters₀ = .ok remoteSdp₀ ∧
      ∃ s s', remoteSdp.exec remoteSdp₀ [.recvSctpAssociation] = some s ∧ Unknown s "x" ∧
        s.closeMediaSection "x" = .returned s' ∧
        s.mediaSections.map (·.isClosed) = [false] ∧ s'.mediaSections.map (·.isClosed) = [true] ∧
        s.midToIndex.get "x" = none ∧ s'.midToIndex.get "x" = some 0 ∧
        ¬ Untouched s (s.closeMediaSection "x") := by
  refine ⟨new_remoteSdp₀, _, _, rfl, unknown_datachannel rfl, rfl, rfl, rfl, rfl, rfl, ?_⟩
  rintro ⟨t, ht, hsame⟩
  cases ht
  have hmap := congrArg (·.get "x") hsame.midToIndex
  cases hmap

end MediasoupClient.Sdp
