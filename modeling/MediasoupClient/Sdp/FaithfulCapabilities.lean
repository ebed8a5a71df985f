import MediasoupClient.Sdp.CodecsMap

/-! When the capabilities say what the lines say.

        session  ──extractRtpCapabilities──▶  codecs, by key
           │                                     ║
           └── payload types, in order ──────────╝   if keys and payload types are in the same order -/

namespace MediasoupClient.Sdp
open Lib

section
variable {parseParams : String → Except Invalid Members}

/-- Lines that say the same make the same codec. -/
theorem IsCodec.congr {e : Section} {fs fs' bs bs' : List Json} {codec : Json}
    (h : IsCodec parseParams e fs bs codec)
    (hfs : lastParameters parseParams fs = lastParameters parseParams fs')
    (hbs : feedbackEntries bs = feedbackEntries bs') : IsCodec parseParams e fs' bs' codec :=
  h.of_find h.isObject (fun _ _ _ => rfl) (h.parameters.trans hfs)
    (h.rtcpFeedback.trans (by rw [hbs]))

/-- The payload type of a codec. -/
def payloadOf (codec : Json) : Option ℤ := (codec.find "preferredPayloadType").bind integer

theorem IsCodec.payloadOf {e : Section} {fs bs : List Json} {codec : Json}
    (h : IsCodec parseParams e fs bs codec) : payloadOf codec = numberOf e.2 := by
  unfold Sdp.payloadOf numberOf
  rw [h.preferredPayloadType]

theorem lastWith_mem {k : ℕ} {entries : List Section} {e : Section} (h : lastWith k entries = some e) :
    e ∈ entries ∧ hasKey numberOf k e.2 = true :=
  List.mem_filter.mp (List.mem_of_getLast? h)

theorem hasKey_iff {number : Json → Option ℤ} {k : ℕ} {line : Json} :
    hasKey number k line = true ↔ ∃ p, number line = some p ∧ toKey p = k := by
  unfold hasKey
  rw [decide_eq_true_eq, Option.map_eq_some_iff]

variable {used : List Section} {st : Extraction}

/-- An entry of the map: a payload type with this key, declared by a line, and its codec. -/
theorem Collected.entry (h : Collected parseParams used st) {kc : ℕ × Json}
    (hkc : kc ∈ st.codecsMap.entries) : ∃ e p, lastWith kc.1 (rtpEntries used) = some e ∧
      e ∈ rtpEntries used ∧ numberOf e.2 = some p ∧ toKey p = kc.1 ∧ payloadOf kc.2 = some p ∧
      IsCodec parseParams e (kept "fmtp" numberOf kc.1 used) (kept "rtcpFb" fbNumberOf kc.1 used)
        kc.2 := by
  obtain ⟨-, e, hlast, his⟩ := Described.stored h ((mem_iff_get st.codecsMap.sorted).mp hkc)
  obtain ⟨hmem, hkey⟩ := lastWith_mem hlast
  obtain ⟨p, hp, hpk⟩ := hasKey_iff.mp hkey
  exact ⟨e, p, hlast, hmem, hp, hpk, his.payloadOf.trans hp, his⟩

/-- Every payload type that is declared has an entry. -/
theorem Collected.declared (h : Collected parseParams used st) {p : ℤ} (hp : Declared used p) :
    ∃ codec, (toKey p, codec) ∈ st.codecsMap.entries := by
  obtain ⟨e, he, hnum⟩ := hp
  have hknown : Known (rtpEntries used) (toKey p) := ⟨e, he, hasKey_iff.mpr ⟨p, hnum, rfl⟩⟩
  cases hget : st.codecsMap.get (toKey p) with
  | none => exact absurd hknown (h.get_none.mp hget)
  | some codec => exact ⟨codec, (mem_iff_get st.codecsMap.sorted).mpr hget⟩

theorem KeysOrdered.injective (h : KeysOrdered used) {p q : ℤ} (hp : Declared used p)
    (hq : Declared used q) (hkey : toKey p = toKey q) : p = q := by
  rcases lt_trichotomy p q with hlt | heq | hgt
  · exact absurd hkey (h p q hp hq hlt).ne
  · exact heq
  · exact absurd hkey (h q p hq hp hgt).ne'

/-- The last line of a payload type is that of its key. -/
theorem KeysOrdered.entryFor (h : KeysOrdered used) {p : ℤ} (hp : Declared used p) :
    entryFor used p = lastWith (toKey p) (rtpEntries used) := by
  unfold Sdp.entryFor lastWith
  congr 1
  refine List.filter_congr fun e he => Bool.eq_iff_iff.mpr ?_
  rw [decide_eq_true_eq, hasKey_iff]
  constructor
  · exact fun hnum => ⟨p, hnum, rfl⟩
  · rintro ⟨q, hq, hkey⟩
    rw [hq, h.injective ⟨e, he, hq⟩ hp hkey]

/-- A codec that a payload type is given is the one of its key. -/
theorem Collected.entry_of (h : Collected parseParams used st) {kc : ℕ × Json}
    (hkc : kc ∈ st.codecsMap.entries) {p : ℤ} {entry : Section}
    (hentry : entryFor used p = some entry)
    (his : IsCodec parseParams entry (fmtpsFor used p) (fbsFor used p) kc.2) :
    toKey p = kc.1 ∧ ∃ e, IsCodec parseParams e (kept "fmtp" numberOf (toKey p) used)
      (kept "rtcpFb" fbNumberOf (toKey p) used) kc.2 := by
  obtain ⟨e, q, -, -, -, hkey, hq, his'⟩ := h.entry hkc
  have hp : numberOf entry.2 = some p :=
    of_decide_eq_true (List.mem_filter.mp (List.mem_of_getLast? hentry)).2
  rw [his.payloadOf, hp] at hq
  cases hq
  rw [← hkey] at his'
  exact ⟨hkey, e, his'⟩

/-- Two lists in order, one the images of the other: the function keeps the order. -/
theorem lt_of_pairwise_map {f : ℤ → ℕ} {ps : List ℤ} (hps : ps.Pairwise (· < ·))
    (hfs : (ps.map f).Pairwise (· < ·)) {p q : ℤ} (hp : p ∈ ps) (hq : q ∈ ps) (hlt : p < q) :
    f p < f q := by
  have hboth := List.pairwise_iff_getElem.mp (hps.and (List.pairwise_map.mp hfs))
  obtain ⟨i, hi, rfl⟩ := List.getElem_of_mem hp
  obtain ⟨j, hj, rfl⟩ := List.getElem_of_mem hq
  rcases lt_trichotomy i j with hij | rfl | hji
  · exact (hboth i j hi hj hij).2
  · exact absurd hlt (lt_irrefl _)
  · exact absurd hlt (hboth j i hj hi hji).1.asymm

/-- The codecs are those of the keys: faithful ones have lost no line. -/
theorem Collected.linesKept (h : Collected parseParams used st) {caps : Json}
    (hcaps : caps.find "codecs" = some (.arr st.codecsMap.values))
    (hfaithful : Faithful parseParams used caps) : LinesKept parseParams used := by
  obtain ⟨payloads, codecs, hcodecs, hsorted, hdeclared, hall⟩ := hfaithful
  cases hcaps.symm.trans hcodecs
  have hkeys : List.Forall₂ (fun p (kc : ℕ × Json) => toKey p = kc.1) payloads
      st.codecsMap.entries := by
    have hpairs := List.forall₂_map_right_iff.mp hall
    refine (((List.forall₂_and_left _ _).mpr ⟨fun kc hkc => hkc, hpairs.flip⟩).imp
      fun kc p hp => ?_).flip
    obtain ⟨hkc, entry, hentry, his⟩ := hp
    exact (h.entry_of hkc hentry his).1
  have hsortedKeys : (payloads.map toKey).Pairwise (· < ·) := by
    have hmap : payloads.map toKey = st.codecsMap.entries.map (·.1) := map_eq_of_forall₂ hkeys
    rw [hmap]
    exact List.pairwise_map.mpr st.codecsMap.sorted
  -- the codec of a payload type is described twice
  have htwice : ∀ p, Declared used p → ∃ entry e codec,
      IsCodec parseParams entry (fmtpsFor used p) (fbsFor used p) codec ∧
      IsCodec parseParams e (kept "fmtp" numberOf (toKey p) used)
        (kept "rtcpFb" fbNumberOf (toKey p) used) codec := by
    intro p hp
    obtain ⟨codec, hcodec, entry, hentry, his⟩ := mem_of_forall₂ hall.flip ((hdeclared p).mpr hp)
    obtain ⟨kc, hkc, rfl⟩ := List.mem_map.mp hcodec
    obtain ⟨-, e, his'⟩ := h.entry_of hkc hentry his
    exact ⟨entry, e, kc.2, his, his'⟩
  refine ⟨fun p q hp hq hlt => ?_, fun p hp => ?_, fun p hp => ?_⟩
  · exact lt_of_pairwise_map hsorted hsortedKeys ((hdeclared p).mpr hp) ((hdeclared q).mpr hq) hlt
  · obtain ⟨_, _, _, his, his'⟩ := htwice p hp
    exact his'.parameters.symm.trans his.parameters
  · obtain ⟨_, _, _, his, his'⟩ := htwice p hp
    exact Json.arr.inj (Option.some.inj (his'.rtcpFeedback.symm.trans his.rtcpFeedback))

/-- Where no line is lost the codecs are faithful. -/
theorem Collected.faithful (h : Collected parseParams used st) {caps : Json}
    (hcaps : caps.find "codecs" = some (.arr st.codecsMap.values))
    (hkept : LinesKept parseParams used) : Faithful parseParams used caps := by
  -- the payload type that each entry was declared with
  have hpayload : ∀ kc ∈ st.codecsMap.entries, Declared used ((payloadOf kc.2).getD 0) ∧
      toKey ((payloadOf kc.2).getD 0) = kc.1 := by
    intro kc hkc
    obtain ⟨e, p, -, he, hp, hkey, hpl, -⟩ := h.entry hkc
    rw [hpl]
    exact ⟨⟨e, he, hp⟩, hkey⟩
  refine ⟨st.codecsMap.entries.map fun kc => (payloadOf kc.2).getD 0, _, hcaps, ?_,
    fun p => ⟨?_, ?_⟩, ?_⟩
  · refine List.pairwise_map.mpr (st.codecsMap.sorted.imp_of_mem fun {a b} ha hb hlt => ?_)
    obtain ⟨hdecl₁, hkey₁⟩ := hpayload a ha
    obtain ⟨hdecl₂, hkey₂⟩ := hpayload b hb
    rw [← hkey₁, ← hkey₂] at hlt
    rcases lt_trichotomy ((payloadOf a.2).getD 0) ((payloadOf b.2).getD 0) with hab | hab | hba
    · exact hab
    · rw [hab] at hlt
      exact absurd hlt (lt_irrefl _)
    · exact absurd hlt (hkept.ordered _ _ hdecl₂ hdecl₁ hba).asymm
  · intro hp
    obtain ⟨kc, hkc, rfl⟩ := List.mem_map.mp hp
    exact (hpayload kc hkc).1
  · intro hp
    obtain ⟨codec, hcodec⟩ := h.declared hp
    obtain ⟨hdecl, hkey⟩ := hpayload _ hcodec
    exact List.mem_map.mpr ⟨_, hcodec, hkept.ordered.injective hdecl hp hkey⟩
  · refine List.forall₂_map_left_iff.mpr (List.forall₂_map_right_iff.mpr
      (List.forall₂_same.mpr fun kc hkc => ?_))
    obtain ⟨hdecl, hkey⟩ := hpayload kc hkc
    obtain ⟨e, -, hlast, -, -, -, -, his⟩ := h.entry hkc
    rw [← hkey] at hlast his
    exact ⟨e, (hkept.ordered.entryFor hdecl).trans hlast,
      his.congr (hkept.fmtp _ hdecl) (hkept.rtcpFb _ hdecl)⟩

variable (parseParams) in
/-- The capabilities of a session are extracted exactly if it can be read, and then they are those of
    the map. -/
theorem extract_returns {sdpObject : Json} (h : SessionShape sdpObject) :
    ((∃ caps, extractRtpCapabilities parseParams sdpObject = .ok caps) ↔
      (∀ m ∈ sectionsOf sdpObject, (kindOf m).isSome = true) ∧
        Readable parseParams (usedSections [] (sectionsOf sdpObject))) ∧
    ∀ caps, extractRtpCapabilities parseParams sdpObject = .ok caps → ∃ st,
      Collected parseParams (usedSections [] (sectionsOf sdpObject)) st ∧
        caps.find "codecs" = some (.arr st.codecsMap.values) := by
  obtain ⟨sections, hmedia⟩ := h.media
  have hsections : sectionsOf sdpObject = sections := by rw [sectionsOf, hmedia]; rfl
  have hread : (liftM (sdpObject.read "media") : Except Invalid Json) = .ok (.arr sections) :=
    lift_ok.mpr (Json.read_ok.mpr hmedia)
  have hshape : ∀ m ∈ sections, SectionLines m := by
    intro m hm
    obtain ⟨members, rfl, hmembers⟩ := h.shape m (hsections ▸ hm)
    exact hmembers.sectionLines
  have hinit : Collected parseParams [] ⟨.empty, [], false, false⟩ := fun k => rfl
  have hseen : KindsSeen ⟨.empty, [], false, false⟩ [] := ⟨by simp, by simp⟩
  obtain ⟨hiff, hall⟩ := extract_loop hshape hseen hinit
  rw [hsections]
  unfold extractRtpCapabilities
  rw [hread, ok_bind]
  refine ⟨Iff.trans ⟨?_, ?_⟩ hiff, fun caps hrun => ?_⟩
  · rintro ⟨caps, hrun⟩
    obtain ⟨st, hst, -⟩ := bind_ok.mp hrun
    exact ⟨st, hst⟩
  · rintro ⟨st, hst⟩
    exact ⟨_, bind_ok.mpr ⟨st, hst, rfl⟩⟩
  · obtain ⟨st, hst, hrun⟩ := bind_ok.mp hrun
    cases hrun
    refine ⟨st, hall st hst, ?_⟩
    simp [Json.object, Json.find, get_put]

variable (parseParams) in
/-- CORRECT: the capabilities of a parsed text are extracted faithfully exactly if all that is read is
    there and no line is lost or taken for another payload type's. -/
theorem extracts_faithfully_iff (sdp : String) :
    ExtractsFaithfully parseParams (parse sdp) ↔ Extractable parseParams (parse sdp) := by
  obtain ⟨hiff, hall⟩ := extract_returns parseParams (parse_session sdp)
  constructor
  · rintro ⟨caps, hrun, hfaithful⟩
    obtain ⟨st, hst, hcaps⟩ := hall caps hrun
    obtain ⟨htyped, hreadable⟩ := hiff.mp ⟨caps, hrun⟩
    exact ⟨htyped, hreadable, hst.linesKept hcaps hfaithful⟩
  · rintro ⟨htyped, hreadable, hkept⟩
    obtain ⟨caps, hrun⟩ := hiff.mpr ⟨htyped, hreadable⟩
    obtain ⟨st, hst, hcaps⟩ := hall caps hrun
    exact ⟨caps, hrun, hst.faithful hcaps hkept⟩

end

/-- A text without a rtcp-fb line: its section has no `rtcpFb`, which is read. -/
theorem missing_rtcpFb_fails :
    ¬ ∃ parseParams, ∀ sdp, ExtractsFaithfully parseParams (parse sdp) := by
  rintro ⟨parseParams, h⟩
  obtain ⟨caps, hrun, -⟩ := h "m=audio 9 UDP/TLS/RTP/SAVPF 111\r\na=rtpmap:111 opus/48000/2\r\n"
  have hfails : (extractRtpCapabilities parseParams
      (parse "m=audio 9 UDP/TLS/RTP/SAVPF 111\r\na=rtpmap:111 opus/48000/2\r\n")).toOption = none :=
    rfl
  rw [hrun] at hfails
  cases hfails

end MediasoupClient.Sdp
