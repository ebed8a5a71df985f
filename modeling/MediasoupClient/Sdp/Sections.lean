import Mathlib.Data.List.Forall2
import MediasoupClient.Lib.Positions
import MediasoupClient.Sdp.RemoteSdp

/-! What the operations do when all mids are strings.

    `GetMid` throws on a mid that is none, and the operations call it between their updates. On
    sections whose mids are strings none of them throws, and each is one assignment of the whole
    state: `appended`, `replaced`, `closed`, `disabled`. -/

namespace MediasoupClient.Sdp
open Lib

/-- The mid of a section that has one. -/
def MediaSection.mid (s : MediaSection) : String := s.getMid.toOption.getD ""

/-- All sections have mids. -/
def Named (l : List MediaSection) : Prop := ∀ s ∈ l, s.getMid = .ok s.mid

/-- The mids, in section order. -/
def mids (l : List MediaSection) : List String := l.map (·.mid)

/-- The mids of the open sections, in section order. -/
def openMids (l : List MediaSection) : List String := (l.filter fun s => !s.isClosed).map (·.mid)

theorem length_mids (l : List MediaSection) : (mids l).length = l.length := List.length_map ..

theorem mids_append (l : List MediaSection) (s : MediaSection) :
    mids (l ++ [s]) = mids l ++ [s.mid] := by
  simp only [mids, List.map_append, List.map_cons, List.map_nil]

theorem mids_set (l : List MediaSection) (i : ℕ) (s : MediaSection) :
    mids (l.set i s) = (mids l).set i s.mid := by simp only [mids, List.map_set]

theorem getElem?_mids {l : List MediaSection} {i : ℕ} {s : MediaSection} (h : l[i]? = some s) :
    (mids l)[i]? = some s.mid := by rw [mids, List.getElem?_map, h]; rfl

/-- The mid of a section is not empty. -/
theorem mid_ne_of_nonempty {l : List MediaSection} (h : "" ∉ mids l) {i : ℕ} {sec : MediaSection}
    (hi : l[i]? = some sec) : sec.mid ≠ "" := fun heq =>
  h (List.mem_map.mpr ⟨sec, List.mem_of_getElem? hi, heq⟩)

theorem MediaSection.mid_eq {s : MediaSection} {mid : String} (h : s.getMid = .ok mid) :
    s.mid = mid := by rw [MediaSection.mid, h]; rfl

theorem MediaSection.getMid_of_ok {s : MediaSection} {mid : String} (h : s.getMid = .ok mid) :
    s.getMid = .ok s.mid := by rw [mid_eq h, h]

/-- The mid of a new answer, as the offered section has it. -/
theorem answer_mid {iceParameters iceCandidates dtlsParameters sctpParameters offerMediaObject
    offerRtpParameters answerRtpParameters : Json} {codecOptions : Option Json}
    {new : MediaSection} {o : Json} {mid : String}
    (h : answerMediaSection iceParameters iceCandidates dtlsParameters sctpParameters
      offerMediaObject offerRtpParameters answerRtpParameters codecOptions = .ok (new, o))
    (hfind : offerMediaObject.find "mid" = some (.str mid)) :
    new.getMid = .ok new.mid ∧ new.mid = mid := by
  have hmid : new.getMid = .ok mid :=
    MediaSection.getMid_ok.mpr ((answerMediaSection_ok h).2.trans hfind)
  exact ⟨MediaSection.getMid_of_ok hmid, MediaSection.mid_eq hmid⟩

/-- The mid of a new offer, as given. -/
theorem offer_mid {iceParameters iceCandidates sctpParameters : Json} {mid kind : String}
    {offerRtpParameters : Json} {streamId trackId : String} {new : MediaSection}
    (h : offerMediaSection iceParameters iceCandidates sctpParameters mid kind offerRtpParameters
      streamId trackId = .ok new) : new.getMid = .ok new.mid ∧ new.mid = mid := by
  have hmid := (offerMediaSection_ok h).2
  exact ⟨MediaSection.getMid_of_ok hmid, MediaSection.mid_eq hmid⟩

theorem Named.set {l : List MediaSection} (h : Named l) {s : MediaSection}
    (hs : s.getMid = .ok s.mid) (i : ℕ) : Named (l.set i s) := by
  intro t ht
  rcases List.mem_or_eq_of_mem_set ht with ht | rfl
  · exact h t ht
  · exact hs

theorem Named.append {l : List MediaSection} (h : Named l) {s : MediaSection}
    (hs : s.getMid = .ok s.mid) : Named (l ++ [s]) := by
  intro t ht
  rcases List.mem_append.mp ht with ht | ht
  · exact h t ht
  · rw [List.mem_singleton.mp ht]; exact hs

/-- Appending mids to one that is not empty puts a blank before each. -/
theorem foldl_appendMid : ∀ (l : List String) (mid : String), mid ≠ "" →
    l.foldl RemoteSdp.appendMid mid = " ".intercalate (mid :: l)
  | [], _, _ => String.intercalate_singleton.symm
  | mid' :: l, mid, h => by
      have hne : mid ++ " " ++ mid' ≠ "" := by simp
      rw [List.foldl_cons, RemoteSdp.appendMid, if_neg h, foldl_appendMid l _ hne,
        String.intercalate_cons_cons, String.intercalate_cons_append]

/-- Non-empty mids are joined with one blank between any two. -/
theorem foldl_appendMid_empty {l : List String} (h : "" ∉ l) :
    l.foldl RemoteSdp.appendMid "" = " ".intercalate l := by
  cases l with
  | nil => exact String.intercalate_nil.symm
  | cons mid l =>
    have hne : mid ≠ "" := by rintro rfl; exact h (List.mem_cons_self ..)
    rw [List.foldl_cons, RemoteSdp.appendMid, if_pos rfl, foldl_appendMid l mid hne]

/-- What the bundle loop computes on sections with mids. -/
def bundle (l : List MediaSection) : String := (openMids l).foldl RemoteSdp.appendMid ""

theorem bundleMids_eq {l : List MediaSection} (h : Named l) :
    RemoteSdp.bundleMids l = .ok (bundle l) := by
  have hloop : ∀ (l : List MediaSection) (acc : String), Named l →
      (l.foldlM (fun mids s =>
        if s.isClosed then return mids else return RemoteSdp.appendMid mids (← s.getMid)) acc
        : Except Fault String) = .ok ((openMids l).foldl RemoteSdp.appendMid acc) := by
    intro l
    induction l with
    | nil => intro acc _; rfl
    | cons s l ih =>
      intro acc hl
      have htail : Named l := fun t ht => hl t (List.mem_cons_of_mem _ ht)
      have hhead : s.getMid = .ok s.mid := hl s (List.mem_cons_self ..)
      rw [List.foldlM_cons]
      cases hc : s.isClosed with
      | true =>
        have hopen : openMids (s :: l) = openMids l := by simp [openMids, hc]
        rw [hopen]
        exact ih acc htail
      | false =>
        have hopen : openMids (s :: l) = s.mid :: openMids l := by simp [openMids, hc]
        rw [hopen, hhead]
        exact ih _ htail
  exact hloop l "" h

/-! ### Adding, replacing and closing -/

namespace RemoteSdp

/-- The state with the bundle line made anew. -/
def bundled (s : RemoteSdp) : RemoteSdp :=
  { s with sdpObject := { s.sdpObject with mids := bundle s.mediaSections } }

theorem regenerateBundleMids_eq {s : RemoteSdp} (h : Named s.mediaSections) :
    s.regenerateBundleMids = .returned s.bundled := by
  rw [regenerateBundleMids, bundleMids_eq h]
  rfl

/-- Whatever the mids are, only the bundle line is changed. -/
theorem regenerateBundleMids_state {s s' : RemoteSdp}
    (h : s.regenerateBundleMids.state? = some s') :
    ∃ mids, s' = { s with sdpObject := { s.sdpObject with mids := mids } } := by
  rcases attempt_state h with rfl | ⟨mids, _, h⟩
  · exact ⟨s'.sdpObject.mids, rfl⟩
  · cases h
    exact ⟨mids, rfl⟩

/-- The state after a section was appended. -/
def appended (s : RemoteSdp) (new : MediaSection) : RemoteSdp :=
  bundled { s with
    firstMid := if s.firstMid = "" then new.mid else s.firstMid
    mediaSections := s.mediaSections ++ [new]
    midToIndex := s.midToIndex.insert new.mid s.mediaSections.length
    sdpObject := { s.sdpObject with media := s.sdpObject.media ++ [new.getObject] } }

theorem addMediaSection_eq {s : RemoteSdp} {new : MediaSection} (hs : Named s.mediaSections)
    (hnew : new.getMid = .ok new.mid) : s.addMediaSection new = .returned (s.appended new) := by
  have hfirst : (if s.firstMid = "" then new.getMid else .ok s.firstMid) =
      .ok (if s.firstMid = "" then new.mid else s.firstMid) := by
    split_ifs
    · exact hnew
    · rfl
  rw [addMediaSection, hfirst]
  simp only [attempt, hnew]
  rw [regenerateBundleMids_eq (hs.append hnew)]
  simp only [List.length_append, List.length_singleton, Nat.add_sub_cancel]
  rfl

/-- A section without a mid: it is in the vector when its mid is asked for the second time. -/
theorem addMediaSection_error {s : RemoteSdp} {new : MediaSection} {e : Fault}
    (hnew : new.getMid = .error e) :
    s.addMediaSection new = .threw (.typeError 302)
      (if s.firstMid = "" then s else { s with mediaSections := s.mediaSections ++ [new] }) := by
  obtain rfl := MediaSection.getMid_error hnew
  rw [addMediaSection]
  split_ifs
  · simp only [hnew, attempt]
  · simp only [hnew, attempt]

/-- The state after section `idx` was replaced by a section that is looked up, with its mid, in
    `midToIndex`. -/
def replaced (s : RemoteSdp) (idx : ℕ) (midToIndex : StdMap String ℕ) (new : MediaSection) :
    RemoteSdp :=
  bundled ({ s with
    midToIndex := midToIndex.insert new.mid idx
    mediaSections := s.mediaSections.set idx new }.setMedia idx new.getObject)

theorem replaceMediaSection_eq {s : RemoteSdp} {new old : MediaSection} {reuseMid : String}
    {idx : ℕ} {midToIndex : StdMap String ℕ} (hs : Named s.mediaSections)
    (hnew : new.getMid = .ok new.mid) (hreuse : reuseMid ≠ "")
    (hidx : s.midToIndex.index reuseMid 0 = (idx, midToIndex))
    (hold : s.mediaSections[idx]? = some old) :
    s.replaceMediaSection new reuseMid =
      .returned (s.replaced idx (midToIndex.erase old.mid) new) := by
  have hmid : old.getMid = .ok old.mid := hs old (List.mem_of_getElem? hold)
  rw [replaceMediaSection, if_pos hreuse, hidx]
  simp only [hold, attempt, hmid, hnew]
  exact regenerateBundleMids_eq (hs.set hnew idx)

theorem replaceMediaSection_error {s : RemoteSdp} {new old : MediaSection} {reuseMid : String}
    {idx : ℕ} {midToIndex : StdMap String ℕ} {e : Fault} (hs : Named s.mediaSections)
    (hnew : new.getMid = .error e) (hreuse : reuseMid ≠ "")
    (hidx : s.midToIndex.index reuseMid 0 = (idx, midToIndex))
    (hold : s.mediaSections[idx]? = some old) :
    s.replaceMediaSection new reuseMid = .threw (.typeError 302) { s with
      midToIndex := midToIndex.erase old.mid
      mediaSections := s.mediaSections.set idx new } := by
  obtain rfl := MediaSection.getMid_error hnew
  have hmid : old.getMid = .ok old.mid := hs old (List.mem_of_getElem? hold)
  rw [replaceMediaSection, if_pos hreuse, hidx]
  simp only [hold, attempt, hmid, hnew]

/-- A replacement that ends found a section under the mid. -/
theorem replaceMediaSection_state {s s' : RemoteSdp} {new : MediaSection} {reuseMid : String}
    (hs : Named s.mediaSections) (hnew : new.getMid = .ok new.mid) (hreuse : reuseMid ≠ "")
    (h : (s.replaceMediaSection new reuseMid).state? = some s') :
    ∃ idx midToIndex old, s.midToIndex.index reuseMid 0 = (idx, midToIndex) ∧
      s.mediaSections[idx]? = some old ∧ s' = s.replaced idx (midToIndex.erase old.mid) new := by
  rcases hidx : s.midToIndex.index reuseMid 0 with ⟨idx, midToIndex⟩
  cases hold : s.mediaSections[idx]? with
  | none =>
    rw [replaceMediaSection, if_pos hreuse, hidx] at h
    simp only [hold] at h
    cases h
  | some old =>
    rw [replaceMediaSection_eq hs hnew hreuse hidx hold] at h
    cases h
    exact ⟨idx, midToIndex, old, rfl, hold, rfl⟩

/-- The state after section `idx` was disabled or closed. -/
def closed (s : RemoteSdp) (idx : ℕ) (midToIndex : StdMap String ℕ) (section' : MediaSection) :
    RemoteSdp :=
  bundled ({ s with
    midToIndex := midToIndex
    mediaSections := s.mediaSections.set idx section' }.setMedia idx section'.getObject)

/-- What closing does to a section: the first one is only disabled. -/
def closing (s : RemoteSdp) (mid : String) (mediaSection : MediaSection) : MediaSection :=
  if mid = s.firstMid then mediaSection.disable else mediaSection.close

@[simp] theorem getMid_closing (s : RemoteSdp) (mid : String) (mediaSection : MediaSection) :
    (s.closing mid mediaSection).getMid = mediaSection.getMid := by
  unfold closing; split_ifs <;> simp

theorem closeMediaSection_eq {s : RemoteSdp} {mid : String} {idx : ℕ}
    {midToIndex : StdMap String ℕ} {mediaSection : MediaSection} (hs : Named s.mediaSections)
    (hidx : s.midToIndex.index mid 0 = (idx, midToIndex))
    (hsec : s.mediaSections[idx]? = some mediaSection) :
    s.closeMediaSection mid =
      .returned (s.closed idx midToIndex (s.closing mid mediaSection)) := by
  have hmid := hs mediaSection (List.mem_of_getElem? hsec)
  have hclosing : (s.closing mid mediaSection).getMid = .ok (s.closing mid mediaSection).mid := by
    rw [MediaSection.mid, getMid_closing, hmid]; rfl
  rw [closeMediaSection, hidx]
  simp only [hsec]
  exact regenerateBundleMids_eq (hs.set hclosing idx)

theorem closeMediaSection_state {s s' : RemoteSdp} {mid : String} (hs : Named s.mediaSections)
    (h : (s.closeMediaSection mid).state? = some s') :
    ∃ idx midToIndex sec, s.midToIndex.index mid 0 = (idx, midToIndex) ∧
      s.mediaSections[idx]? = some sec ∧ s' = s.closed idx midToIndex (s.closing mid sec) := by
  rcases hidx : s.midToIndex.index mid 0 with ⟨idx, midToIndex⟩
  cases hsec : s.mediaSections[idx]? with
  | none =>
    rw [closeMediaSection, hidx] at h
    simp only [hsec] at h
    cases h
  | some sec =>
    rw [closeMediaSection_eq hs hidx hsec] at h
    cases h
    exact ⟨idx, midToIndex, sec, rfl, hsec, rfl⟩

/-- The state after section `idx` was disabled. -/
def disabled (s : RemoteSdp) (idx : ℕ) (midToIndex : StdMap String ℕ) (section' : MediaSection) :
    RemoteSdp :=
  { s with midToIndex := midToIndex, mediaSections := s.mediaSections.set idx section' }

theorem disableMediaSection_state {s s' : RemoteSdp} {mid : String}
    (h : (s.disableMediaSection mid).state? = some s') :
    ∃ idx midToIndex sec, s.midToIndex.index mid 0 = (idx, midToIndex) ∧
      s.mediaSections[idx]? = some sec ∧ s' = s.disabled idx midToIndex sec.disable := by
  rcases hidx : s.midToIndex.index mid 0 with ⟨idx, midToIndex⟩
  rw [disableMediaSection, hidx] at h
  cases hsec : s.mediaSections[idx]? with
  | none => simp only [hsec] at h; cases h
  | some sec =>
    simp only [hsec] at h
    cases h
    exact ⟨idx, midToIndex, sec, rfl, hsec, rfl⟩

/-- The closed section that comes first. -/
theorem closedIdx_some {s : RemoteSdp} {idx : ℕ} (h : s.closedIdx = some idx) :
    (∃ old, s.mediaSections[idx]? = some old ∧ old.isClosed = true) ∧
      ∀ j < idx, ∀ t, s.mediaSections[j]? = some t → t.isClosed = false := by
  obtain ⟨hlt, hclosed, hbefore⟩ := List.findIdx?_eq_some_iff_getElem.mp h
  refine ⟨⟨_, List.getElem?_eq_getElem hlt, hclosed⟩, fun j hj t ht => ?_⟩
  obtain ⟨_, rfl⟩ := List.getElem?_eq_some_iff.mp ht
  exact Bool.eq_false_iff.mpr (hbefore j hj)

theorem closedIdx_none {s : RemoteSdp} (h : s.closedIdx = none) :
    ∀ t ∈ s.mediaSections, t.isClosed = false := by
  intro t ht
  exact List.findIdx?_eq_none_iff.mp h t ht

theorem midAt_eq {s : RemoteSdp} {idx : ℕ} {sec : MediaSection}
    (h : s.mediaSections[idx]? = some sec) : s.midAt idx = sec.getMid := by
  rw [midAt, h]

/-- The next section goes behind all others, or where the first closed one is. -/
theorem getNextMediaSectionIdx_eq {s : RemoteSdp} (hs : Named s.mediaSections) :
    (s.closedIdx = none ∧ s.getNextMediaSectionIdx = .ok ⟨s.mediaSections.length, ""⟩) ∨
      ∃ (idx : ℕ) (old : MediaSection), s.closedIdx = some idx ∧
        s.mediaSections[idx]? = some old ∧ old.isClosed = true ∧
        s.getNextMediaSectionIdx = .ok ⟨idx, old.mid⟩ := by
  unfold getNextMediaSectionIdx
  cases hc : s.closedIdx with
  | none => exact Or.inl ⟨rfl, rfl⟩
  | some idx =>
    obtain ⟨⟨old, hidx, hclosed⟩, _⟩ := closedIdx_some hc
    have hold : old.getMid = .ok old.mid := hs old (List.mem_of_getElem? hidx)
    refine Or.inr ⟨idx, old, rfl, hidx, hclosed, ?_⟩
    simp only [midAt_eq hidx, hold]
    rfl

/-- `Receive` scans for a closed section itself, and comes to the same one. -/
theorem receive_eq {s : RemoteSdp} (hs : Named s.mediaSections) (hne : "" ∉ mids s.mediaSections)
    (mid kind : String) (offerRtpParameters : Json) (streamId trackId : String) :
    ∃ next, s.getNextMediaSectionIdx = .ok next ∧
      s.receive mid kind offerRtpParameters streamId trackId =
        attempt s (offerMediaSection s.iceParameters s.iceCandidates .null mid kind
          offerRtpParameters streamId trackId) fun mediaSection =>
        if next.reuseMid ≠ "" then s.replaceMediaSection mediaSection next.reuseMid
        else s.addMediaSection mediaSection := by
  obtain ⟨hc, hnext⟩ | ⟨idx, old, hc, hidx, _, hnext⟩ := getNextMediaSectionIdx_eq hs
  · refine ⟨_, hnext, ?_⟩
    rw [receive, hc]
    simp only [ne_eq, not_true_eq_false, if_false]
  · have hold : old.getMid = .ok old.mid := hs old (List.mem_of_getElem? hidx)
    refine ⟨_, hnext, ?_⟩
    rw [receive, hc]
    simp only [midAt_eq hidx, hold, attempt, if_pos (mid_ne_of_nonempty hne hidx)]

/-! ### Updating every section -/

/-- The state after section `idx` was changed and printed again. -/
def updated (s : RemoteSdp) (idx : ℕ) (mediaSection : MediaSection) : RemoteSdp :=
  { s with mediaSections := s.mediaSections.set idx mediaSection }.setMedia idx
    mediaSection.getObject

/-- What every single update keeps is kept by the loop, wherever it stops. -/
theorem updateEach_rule {P : RemoteSdp → Prop} {f : MediaSection → Except Fault MediaSection}
    (hstep : ∀ s idx sec sec', s.mediaSections[idx]? = some sec → f sec = .ok sec' → P s →
      P (s.updated idx sec')) :
    ∀ (rest : List MediaSection) (s s' : RemoteSdp) (idx : ℕ),
      (∀ j sec, rest[j]? = some sec → s.mediaSections[idx + j]? = some sec) → P s →
      (updateEach f s idx rest).state? = some s' → P s'
  | [], s, s', idx, _, hs, h => by cases h; exact hs
  | sec :: rest, s, s', idx, hrest, hs, h => by
      have hsec : s.mediaSections[idx]? = some sec := hrest 0 sec rfl
      rcases attempt_state h with rfl | ⟨sec', hf, h⟩
      · exact hs
      · refine updateEach_rule hstep rest (s.updated idx sec') s' (idx + 1) (fun j t ht => ?_)
          (hstep s idx sec sec' hsec hf hs) h
        -- the sections still to be visited are those behind `idx`
        have hne : idx ≠ idx + 1 + j := by omega
        have hset : (s.updated idx sec').mediaSections[idx + 1 + j]? =
            s.mediaSections[idx + 1 + j]? := List.getElem?_set_ne hne
        rw [hset, Nat.add_assoc, Nat.add_comm 1 j]
        exact hrest (j + 1) t ht

theorem updateIceParameters_rule {P : RemoteSdp → Prop} {s s' : RemoteSdp} {iceParameters : Json}
    (hstep : ∀ s idx sec sec', s.mediaSections[idx]? = some sec →
      sec.setIceParameters iceParameters = .ok sec' → P s → P (s.updated idx sec'))
    (hs : P (markIceLite { s with iceParameters := iceParameters }))
    (h : (s.updateIceParameters iceParameters).state? = some s') : P s' :=
  updateEach_rule hstep _ _ s' 0 (fun j sec hj => by rw [Nat.zero_add]; exact hj) hs h

theorem updateDtlsRole_rule {P : RemoteSdp → Prop} {s s' : RemoteSdp} {role : String}
    (hstep : ∀ s idx sec, s.mediaSections[idx]? = some sec → P s →
      P (s.updated idx (sec.setDtlsRole role)))
    (hs : P s) (hmark : ∀ dtlsParameters,
      P (markIceLite { s with dtlsParameters := dtlsParameters }))
    (h : (s.updateDtlsRole role).state? = some s') : P s' := by
  rcases attempt_state h with rfl | ⟨dtlsParameters, _, h⟩
  · exact hs
  · refine updateEach_rule (fun s idx sec sec' hsec hf hp => ?_) _ _ s' 0
      (fun j sec hj => by rw [Nat.zero_add]; exact hj) (hmark dtlsParameters) h
    cases hf
    exact hstep s idx sec hsec hp

/-- What the bookkeeping depends on: the mid of a section, and whether it is closed. -/
def slot (s : MediaSection) : Except Fault String × Bool := (s.getMid, s.isClosed)

/-- The same slots and the same bookkeeping. -/
structure Similar (s s' : RemoteSdp) : Prop where
  slots : s'.mediaSections.map slot = s.mediaSections.map slot
  midToIndex : s'.midToIndex = s.midToIndex
  firstMid : s'.firstMid = s.firstMid
  bundle : s'.sdpObject.mids = s.sdpObject.mids

theorem Similar.refl (s : RemoteSdp) : Similar s s := ⟨rfl, rfl, rfl, rfl⟩

theorem map_set_of_eq {α β : Type*} (f : α → β) {l : List α} {i : ℕ} {a b : α}
    (ha : l[i]? = some a) (hf : f b = f a) : (l.set i b).map f = l.map f := by
  refine List.ext_getElem? fun j => ?_
  rw [List.getElem?_map, List.getElem?_map, List.getElem?_set]
  split_ifs with hij hlt
  · subst hij; rw [ha, Option.map_some, Option.map_some, hf]
  · subst hij; rw [List.getElem?_eq_none (not_lt.mp hlt)]
  · rfl

/-- Setting an element changes nothing exactly when it is there already. -/
theorem set_eq_self_iff {α : Type*} {l : List α} {i : ℕ} {a b : α} (ha : l[i]? = some a) :
    l.set i b = l ↔ b = a := by
  have hlt : i < l.length := (List.getElem?_eq_some_iff.mp ha).1
  constructor
  · intro h
    have hi := congrArg (·[i]?) h
    simp only [List.getElem?_set_self hlt, ha] at hi
    exact Option.some.inj hi
  · rintro rfl
    simpa using map_set_of_eq id ha rfl

theorem Similar.updated {s t : RemoteSdp} (h : Similar s t) {idx : ℕ} {sec sec' : MediaSection}
    (hsec : t.mediaSections[idx]? = some sec) (hslot : slot sec' = slot sec) :
    Similar s (t.updated idx sec') :=
  ⟨(map_set_of_eq slot hsec hslot).trans h.slots, h.midToIndex, h.firstMid, h.bundle⟩

theorem Similar.markIceLite {s t : RemoteSdp} (h : Similar s t) : Similar s t.markIceLite := by
  unfold RemoteSdp.markIceLite
  split_ifs <;> exact ⟨h.slots, h.midToIndex, h.firstMid, h.bundle⟩

theorem similar_updateIceParameters {s s' : RemoteSdp} {iceParameters : Json}
    (h : (s.updateIceParameters iceParameters).state? = some s') : Similar s s' := by
  refine updateIceParameters_rule (fun t idx sec sec' hsec hf ht => ?_) ?_ h
  · obtain ⟨hmid, hclosed⟩ := MediaSection.setIceParameters_ok hf
    exact ht.updated hsec (Prod.ext hmid hclosed)
  · exact Similar.markIceLite ⟨rfl, rfl, rfl, rfl⟩

theorem similar_updateDtlsRole {s s' : RemoteSdp} {role : String}
    (h : (s.updateDtlsRole role).state? = some s') : Similar s s' := by
  refine updateDtlsRole_rule (fun t idx sec hsec ht => ?_) (Similar.refl s) (fun d => ?_) h
  · exact ht.updated hsec (Prod.ext (sec.getMid_setDtlsRole role) (sec.isClosed_setDtlsRole role))
  · exact Similar.markIceLite ⟨rfl, rfl, rfl, rfl⟩

/-! ### Printing -/

/-- An entry as it was set, or as it was printed since. -/
def Shown (entry shown : Json) : Prop := shown = entry ∨ withPayloads entry = .ok shown

theorem withPayloads_of_find {mLine : Json} (h : (mLine.find "payloads").isSome) :
    withPayloads mLine = .ok mLine := by
  obtain ⟨payloads, hfind⟩ := Option.isSome_iff_exists.mp h
  simp only [withPayloads, hfind]

theorem find_withPayloads {mLine shown : Json} (h : withPayloads mLine = .ok shown) :
    (shown.find "payloads").isSome := by
  unfold withPayloads at h
  cases hfind : mLine.find "payloads" with
  | some payloads =>
    simp only [hfind] at h
    cases h
    rw [hfind]
    rfl
  | none =>
    simp only [hfind] at h
    rw [Json.find_write h, if_pos rfl]
    rfl

/-- Printing once more changes nothing more. -/
theorem Shown.again {entry shown shown' : Json} (h : Shown entry shown)
    (hw : withPayloads shown = .ok shown') : Shown entry shown' := by
  rcases h with rfl | h
  · exact Or.inr hw
  · obtain rfl : shown = shown' :=
      Except.ok.inj ((withPayloads_of_find (find_withPayloads h)).symm.trans hw)
    exact Or.inr h

/-- Every entry stays as it is, or gets its payloads, also when one of them makes the call throw. -/
theorem eachWithPayloads_state : ∀ {media media' : List Json},
    (eachWithPayloads media).state? = some media' → List.Forall₂ Shown media media'
  | [], media', h => by cases h; exact .nil
  | mLine :: rest, media', h => by
      unfold eachWithPayloads at h
      cases hw : withPayloads mLine with
      | ok mLine' =>
        simp only [hw, Outcome.state?_map, Option.map_eq_some_iff] at h
        obtain ⟨rest', hrest, rfl⟩ := h
        exact .cons (Or.inr hw) (eachWithPayloads_state hrest)
      | error e =>
        simp only [hw] at h
        cases h
        exact List.forall₂_same.mpr fun _ _ => Or.inl rfl

theorem eachWithPayloads_eq : ∀ {media : List Json},
    (∀ mLine ∈ media, (mLine.find "payloads").isSome) → eachWithPayloads media = .returned media
  | [], _ => rfl
  | mLine :: rest, h => by
      rw [eachWithPayloads, withPayloads_of_find (h mLine (List.mem_cons_self ..))]
      simp only [eachWithPayloads_eq fun m hm => h m (List.mem_cons_of_mem _ hm), Outcome.map]

/-- The state after the entries were printed. -/
def printed (s : RemoteSdp) (media : List Json) : RemoteSdp :=
  { s with sdpObject := { s.sdpObject with
      sessionVersion := (s.sdpObject.sessionVersion + 1) % 2 ^ 32
      media := media } }

theorem getSdp_state {s s' : RemoteSdp} (h : s.getSdp.state? = some s') :
    ∃ media, List.Forall₂ Shown s.sdpObject.media media ∧ s' = s.printed media := by
  rw [getSdp, Outcome.state?_map, Option.map_eq_some_iff] at h
  obtain ⟨media, hmedia, rfl⟩ := h
  exact ⟨media, eachWithPayloads_state hmedia, rfl⟩

/-- Entries that have their payloads are printed as they are. -/
theorem getSdp_eq {s : RemoteSdp}
    (h : ∀ mLine ∈ s.sdpObject.media, (mLine.find "payloads").isSome) :
    s.getSdp = .returned (s.printed s.sdpObject.media) := by
  rw [getSdp, eachWithPayloads_eq h]
  rfl

end RemoteSdp

/-! ### The slots decide the bookkeeping -/

open RemoteSdp

theorem mids_eq_map_slot (l : List MediaSection) :
    mids l = (l.map slot).map fun p => p.1.toOption.getD "" := by
  rw [List.map_map]; rfl

theorem openMids_eq_map_slot (l : List MediaSection) :
    openMids l = ((l.map slot).filter fun p => !p.2).map fun p => p.1.toOption.getD "" := by
  rw [List.filter_map, List.map_map]; rfl

theorem named_iff_slot (l : List MediaSection) :
    Named l ↔ ∀ p ∈ l.map slot, p.1 = .ok (p.1.toOption.getD "") := by
  simp only [List.forall_mem_map]
  rfl

theorem mids_congr {l l' : List MediaSection} (h : l'.map slot = l.map slot) :
    mids l' = mids l := by rw [mids_eq_map_slot, mids_eq_map_slot, h]

theorem openMids_congr {l l' : List MediaSection} (h : l'.map slot = l.map slot) :
    openMids l' = openMids l := by rw [openMids_eq_map_slot, openMids_eq_map_slot, h]

/-- Changing a section, but not its mid. -/
theorem Named.set_of_mid {l : List MediaSection} (h : Named l) {i : ℕ} {old sec : MediaSection}
    (hi : l[i]? = some old) (hmid : sec.getMid = old.getMid) :
    Named (l.set i sec) ∧ mids (l.set i sec) = mids l := by
  have heq : sec.mid = old.mid := by rw [MediaSection.mid, hmid, ← MediaSection.mid]
  have hget : sec.getMid = .ok sec.mid := by
    rw [heq, hmid]; exact h old (List.mem_of_getElem? hi)
  exact ⟨h.set hget i, map_set_of_eq MediaSection.mid hi heq⟩

theorem Named.congr {l l' : List MediaSection} (hl : Named l) (h : l'.map slot = l.map slot) :
    Named l' := by rw [named_iff_slot, h, ← named_iff_slot]; exact hl

end MediasoupClient.Sdp
