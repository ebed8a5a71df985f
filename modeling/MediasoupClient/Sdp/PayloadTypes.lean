import MediasoupClient.Sdp.Queries
import Mathlib.Data.List.Nodup

/-! The payload types of what is received and answered.

        remote codecs     101 VP8   102 rtx(101)   103 H264   104 rtx(103)   105 rtx(103)
                            │           │             │           │
        received          101        102 ──▶101     103        104 ──▶103

    Each media codec is followed by the first rtx codec that names it. Different codecs of a list have
    different payload types, and one rtx codec names one of them, so nothing is listed twice: unless
    two remote codecs have been matched with one local codec, whose payload type the answer then has
    twice. -/

namespace MediasoupClient.Sdp
open Lib

/-! ### Payload types -/

/-- A payload type in 0..127. -/
def rtpNumber : Json → Option ℕ
  | .uint n => if n ≤ 127 then some n else none
  | .int i => if 0 ≤ i ∧ i ≤ 127 then some i.toNat else none
  | _ => none

/-- Every codec has a payload type in 0..127, and no two have the same. -/
structure DistinctTypes (codecs : List Json) : Prop where
  present : ∀ c ∈ codecs, (rtpNumber (payloadTypeOf c)).isSome = true
  distinct : (codecs.map fun c => rtpNumber (payloadTypeOf c)).Nodup

/-- Every rtx codec stands behind the media codec whose payload type is its apt. -/
def RtxFollows (codecs : List Json) : Prop :=
  ∀ i rtx, codecs[i]? = some rtx → isRtx rtx = true →
    ∃ j codec apt, i = j + 1 ∧ codecs[j]? = some codec ∧ isRtx codec = false ∧
      readParameter id "apt" rtx = some apt ∧ (payloadTypeOf codec).eqv apt = true

theorem wrap64_small {n : ℕ} (h : n ≤ 127) : Json.wrap64 n = n := by
  unfold Json.wrap64
  rw [Int.bmod_eq_of_le] <;> omega

/-- The byte of a payload type is the payload type. -/
theorem rtpNumber_byte {v : Json} {n : ℕ} (h : rtpNumber v = some n) :
    v.toUInt 8 = .ok n ∧ v.eqv (.uint n) = true ∧ v ≠ .null := by
  unfold rtpNumber at h
  split at h
  · split_ifs at h with hle
    cases h
    refine ⟨?_, ?_, fun hc => by cases hc⟩
    · rw [Json.toUInt, Nat.mod_eq_of_lt (by omega)]
    · simp [Json.eqv]
  · split_ifs at h with hle
    cases h
    refine ⟨?_, ?_, fun hc => by cases hc⟩
    · rw [Json.toUInt, Int.emod_eq_of_lt (by omega) (by omega)]
    · rw [Json.eqv, wrap64_small (by omega)]
      simp [Int.toNat_of_nonneg hle.1]
  · cases h

/-- The signed value an integer is compared by. -/
def signedValue : Json → ℤ
  | .uint n => Json.wrap64 n
  | .int i => i
  | _ => 0

/-- An integer that is equal to a payload type has its value. -/
theorem signedValue_of_eqv {apt v : Json} {n : ℕ} (hint : apt.isNumberInteger = true)
    (hv : rtpNumber v = some n) (h : apt.eqv v = true) : signedValue apt = n := by
  unfold rtpNumber at hv
  split at hv
  · split_ifs at hv with hle
    cases hv
    cases apt with
    | uint a =>
      have ha : a = n := by simpa [Json.eqv] using h
      rw [signedValue, ha, wrap64_small hle]
    | int a => simpa [Json.eqv, signedValue, wrap64_small hle] using h
    | _ => cases hint
  · split_ifs at hv with hle
    cases hv
    rw [Int.toNat_of_nonneg hle.1]
    cases apt with
    | uint a => simpa [Json.eqv, signedValue] using h
    | int a => simpa [Json.eqv, signedValue] using h
    | _ => cases hint
  · cases hv

/-! ### What is listed of a list of codecs -/

/-- The payload types an extended codec is listed with. -/
def listedTypes (payloadType rtxPayloadType : Json) : List Json :=
  payloadType :: if rtxPayloadType.isNull then [] else [rtxPayloadType]

theorem Emitted.types {key : String} {payloadType rtxPayloadType : Json} {out : List Json}
    (h : Emitted key payloadType rtxPayloadType out) :
    out.map (fun c => (c.find key).getD .null) = listedTypes payloadType rtxPayloadType := by
  obtain ⟨codec, hpt, -, hcase⟩ := h
  rcases hcase with ⟨rfl, rfl⟩ | ⟨hne, rtx, apt, hrpt, -, -, -, rfl⟩
  · rw [List.map_singleton, hpt]
    rfl
  · have hnull : rtxPayloadType.isNull = false := by
      cases hn : rtxPayloadType.isNull with
      | false => rfl
      | true => exact absurd (isNull_iff.mp hn) hne
    rw [List.map_cons, List.map_singleton, hpt, hrpt, listedTypes, hnull]
    rfl

/-- Both payload types are those of codecs of the list: a media codec, and an rtx codec of it. -/
def Drawn (codecs : List Json) (payloadType rtxPayloadType : Json) : Prop :=
  ∃ codec ∈ codecs, isRtx codec = false ∧ payloadTypeOf codec = payloadType ∧
    (rtxPayloadType = .null ∨
      ∃ rtx ∈ codecs, isRtxOf payloadType rtx = true ∧ payloadTypeOf rtx = rtxPayloadType)

section
variable {codecs : List Json} (hd : DistinctTypes codecs) (hcs : ∀ c ∈ codecs, CodecShape c)
include hd

/-- The payload type tells the codec. -/
theorem DistinctTypes.inj {a b : Json} (ha : a ∈ codecs) (hb : b ∈ codecs)
    (h : rtpNumber (payloadTypeOf a) = rtpNumber (payloadTypeOf b)) : a = b :=
  List.inj_on_of_nodup_map hd.distinct ha hb h

/-- Listed payload types are in 0..127. -/
theorem Drawn.present {pt rtxPt : Json} (h : Drawn codecs pt rtxPt) :
    ∀ t ∈ listedTypes pt rtxPt, (rtpNumber t).isSome = true := by
  obtain ⟨codec, hc, -, rfl, hrtx⟩ := h
  intro t ht
  rcases List.mem_cons.mp ht with rfl | ht
  · exact hd.present codec hc
  · split_ifs at ht with hnull
    · cases ht
    · rw [List.mem_singleton.mp ht]
      obtain ⟨rtx, hr, -, rfl⟩ := hrtx.resolve_left fun hc => hnull (isNull_iff.mpr hc)
      exact hd.present rtx hr

/-- A media codec and its rtx codec have different payload types. -/
theorem Drawn.nodup {pt rtxPt : Json} (h : Drawn codecs pt rtxPt) :
    ((listedTypes pt rtxPt).map rtpNumber).Nodup := by
  obtain ⟨codec, hc, hno, rfl, hrtx⟩ := h
  unfold listedTypes
  split_ifs with hnull
  · simp
  · obtain ⟨rtx, hr, hyes, rfl⟩ := hrtx.resolve_left fun hc => hnull (isNull_iff.mpr hc)
    have hne : rtpNumber (payloadTypeOf codec) ≠ rtpNumber (payloadTypeOf rtx) := fun heq => by
      have hsame := hd.inj hc hr heq
      subst hsame
      rw [isRtxOf, hno] at hyes
      cases hyes
    simpa using hne

include hcs

omit hd in
/-- One rtx codec belongs to one payload type. -/
theorem rtx_of_one {pt pt' rtx : Json} (hr : rtx ∈ codecs) (h : isRtxOf pt rtx = true)
    (h' : isRtxOf pt' rtx = true) (hpt : (rtpNumber pt).isSome = true)
    (hpt' : (rtpNumber pt').isSome = true) : rtpNumber pt = rtpNumber pt' := by
  obtain ⟨n, hn⟩ := Option.isSome_iff_exists.mp hpt
  obtain ⟨m, hm⟩ := Option.isSome_iff_exists.mp hpt'
  rw [isRtxOf, Bool.and_eq_true] at h h'
  obtain ⟨apt, hapt, heqv⟩ := (Option.any_eq_true _ _).mp h.2
  obtain ⟨apt', hapt', heqv'⟩ := (Option.any_eq_true _ _).mp h'.2
  cases hapt.symm.trans hapt'
  obtain ⟨p, hp, -⟩ := (hcs rtx hr).parameters
  rw [readParameter, hp] at hapt
  have hint := ((hcs rtx hr).parameter hp hapt).2 rfl
  rw [hn, hm]
  have hvalue := (signedValue_of_eqv hint hn heqv).symm.trans (signedValue_of_eqv hint hm heqv')
  exact congrArg some (Int.ofNat.inj hvalue)

/-- Two extended codecs with different payload types have no payload type in common. -/
theorem Drawn.disjoint {pt rtxPt pt' rtxPt' : Json} (h : Drawn codecs pt rtxPt)
    (h' : Drawn codecs pt' rtxPt') (hne : rtpNumber pt ≠ rtpNumber pt') :
    List.Disjoint ((listedTypes pt rtxPt).map rtpNumber)
      ((listedTypes pt' rtxPt').map rtpNumber) := by
  obtain ⟨codec, hc, hno, rfl, hrtx⟩ := h
  obtain ⟨codec', hc', hno', rfl, hrtx'⟩ := h'
  -- what is listed is the codec itself, or an rtx codec of it
  have hlisted : ∀ {codec rtxPt : Json}, codec ∈ codecs →
      (rtxPt = .null ∨ ∃ rtx ∈ codecs, isRtxOf (payloadTypeOf codec) rtx = true ∧
        payloadTypeOf rtx = rtxPt) →
      ∀ n ∈ (listedTypes (payloadTypeOf codec) rtxPt).map rtpNumber,
        ∃ c ∈ codecs, rtpNumber (payloadTypeOf c) = n ∧
          (c = codec ∨ isRtxOf (payloadTypeOf codec) c = true) := by
    intro codec rtxPt hc hrtx n hn
    obtain ⟨t, ht, rfl⟩ := List.mem_map.mp hn
    rcases List.mem_cons.mp ht with rfl | ht
    · exact ⟨codec, hc, rfl, Or.inl rfl⟩
    · split_ifs at ht with hnull
      · cases ht
      · rw [List.mem_singleton.mp ht]
        obtain ⟨rtx, hr, hyes, rfl⟩ := hrtx.resolve_left fun hc => hnull (isNull_iff.mpr hc)
        exact ⟨rtx, hr, rfl, Or.inr hyes⟩
  have hmedia : ∀ {a b : Json}, isRtx a = false → ¬ isRtxOf b a = true := fun h hc => by
    rw [isRtxOf, h] at hc
    cases hc
  intro n hn hn'
  obtain ⟨a, ha, han, hacase⟩ := hlisted hc hrtx n hn
  obtain ⟨b, hb, hbn, hbcase⟩ := hlisted hc' hrtx' n hn'
  obtain rfl := hd.inj ha hb (han.trans hbn.symm)
  rcases hacase with rfl | harel
  · rcases hbcase with rfl | hbrel
    · exact hne rfl
    · exact hmedia hno hbrel
  · rcases hbcase with rfl | hbrel
    · exact hmedia hno' harel
    · exact hne (rtx_of_one hcs ha harel hbrel (hd.present _ hc) (hd.present _ hc'))

/-- Drawn payload types are all different exactly if those of the media codecs are. -/
theorem drawn_nodup_iff {es : List (Json × Json)} (h : ∀ e ∈ es, Drawn codecs e.1 e.2) :
    ((es.flatMap fun e => listedTypes e.1 e.2).map rtpNumber).Nodup ↔
      es.Pairwise fun a b => rtpNumber a.1 ≠ rtpNumber b.1 := by
  rw [List.map_flatMap, List.nodup_flatMap]
  constructor
  · rintro ⟨-, hdisjoint⟩
    refine hdisjoint.imp fun {a b} hab heq => ?_
    have ha : rtpNumber a.1 ∈ (listedTypes a.1 a.2).map rtpNumber :=
      List.mem_map_of_mem (List.mem_cons_self ..)
    have hb : rtpNumber b.1 ∈ (listedTypes b.1 b.2).map rtpNumber :=
      List.mem_map_of_mem (List.mem_cons_self ..)
    exact hab ha (heq ▸ hb)
  · intro hpairwise
    refine ⟨fun e he => Drawn.nodup hd (h e he), ?_⟩
    refine hpairwise.imp_of_mem fun {a b} ha hb hne => ?_
    exact Drawn.disjoint hd hcs (h a ha) (h b hb) hne

end

/-! ### What is drawn from which list -/

theorem pairwise_of_distinct {codecs : List Json} (hd : DistinctTypes codecs) :
    codecs.Pairwise fun a b => rtpNumber (payloadTypeOf a) ≠ rtpNumber (payloadTypeOf b) :=
  List.pairwise_map.mp hd.distinct

section
variable {P : Type} [DecidableEq P] {profile : String → Option P} {ls rs : List Json}

/-- The members of a pair. -/
theorem mem_matchedPairs {pair : Json × Json} (h : pair ∈ matchedPairs profile ls rs) :
    pair.1 ∈ ls ∧ pair.2 ∈ rs ∧ isRtx pair.1 = false ∧ isRtx pair.2 = false ∧
      ls.find? (strictlyMatches profile · pair.2) = some pair.1 := by
  obtain ⟨r, hr, hmap⟩ := List.mem_filterMap.mp h
  obtain ⟨l, hfind, rfl⟩ := Option.map_eq_some_iff.mp hmap
  obtain ⟨hr, hno⟩ := List.mem_filter.mp hr
  have hmatch : strictlyMatches profile l r = true :=
    List.find?_some (p := fun l => strictlyMatches profile l r) hfind
  have hno' : isRtx r = false := by simpa using hno
  exact ⟨List.mem_of_find?_eq_some hfind, hr,
    (isRtx_of_mimeType (strictlyMatches_mimeType hmatch)).trans hno', hno', hfind⟩

/-- The remote codecs of the pairs are different. -/
theorem matchedPairs_remote (hd : DistinctTypes rs) :
    (matchedPairs profile ls rs).Pairwise fun a b =>
      rtpNumber (payloadTypeOf a.2) ≠ rtpNumber (payloadTypeOf b.2) := by
  unfold matchedPairs
  rw [List.pairwise_filterMap]
  refine ((pairwise_of_distinct hd).filter _).imp fun {r r'} hne a ha b hb => ?_
  obtain ⟨_, -, rfl⟩ := Option.map_eq_some_iff.mp ha
  obtain ⟨_, -, rfl⟩ := Option.map_eq_some_iff.mp hb
  exact hne

/-- The remote payload types of an extended codec. -/
theorem drawn_remote {e : ExtendedCodec} {pair : Json × Json}
    (hpair : pair ∈ matchedPairs profile ls rs) (hof : e.Of pair.1 pair.2)
    (hrtx : e.RtxMatched ls rs) : Drawn rs e.remotePayloadType e.remoteRtxPayloadType := by
  obtain ⟨-, hr, -, hno, -⟩ := mem_matchedPairs hpair
  refine ⟨pair.2, hr, hno, hof.remotePayloadType.symm, ?_⟩
  unfold ExtendedCodec.RtxMatched at hrtx
  split at hrtx
  · rename_i localRtx remoteRtx _ hfind
    exact Or.inr ⟨remoteRtx, List.mem_of_find?_eq_some hfind, List.find?_some hfind, hrtx.2.symm⟩
  · exact Or.inl hrtx.2

/-- The local payload types of an extended codec. -/
theorem drawn_local {e : ExtendedCodec} {pair : Json × Json}
    (hpair : pair ∈ matchedPairs profile ls rs) (hof : e.Of pair.1 pair.2)
    (hrtx : e.RtxMatched ls rs) : Drawn ls e.localPayloadType e.localRtxPayloadType := by
  obtain ⟨hl, -, hno, -⟩ := mem_matchedPairs hpair
  refine ⟨pair.1, hl, hno, hof.localPayloadType.symm, ?_⟩
  unfold ExtendedCodec.RtxMatched at hrtx
  split at hrtx
  · rename_i localRtx remoteRtx hfind _
    exact Or.inr ⟨localRtx, List.mem_of_find?_eq_some hfind, List.find?_some hfind, hrtx.1.symm⟩
  · exact Or.inl hrtx.1

end

/-! ### The received codecs -/

/-- The codecs that are emitted one after the other. -/
theorem emitted_types {key : String} {α : Type} {es : List α} {pt rtxPt : α → Json}
    {outs : List (List Json)}
    (h : List.Forall₂ (fun e out => Emitted key (pt e) (rtxPt e) out) es outs) :
    outs.flatten.map (fun c => (c.find key).getD .null) =
      es.flatMap fun e => listedTypes (pt e) (rtxPt e) := by
  induction h with
  | nil => rfl
  | cons hout _ ih => rw [List.flatten_cons, List.map_append, hout.types, ih, List.flatMap_cons]

/-- In what is emitted of codecs in 0..127, the rtx codecs follow their codecs. -/
theorem emitted_follows {es : List ExtendedCodec} {outs : List (List Json)}
    (h : List.Forall₂ (fun e out =>
      Emitted "preferredPayloadType" e.remotePayloadType e.remoteRtxPayloadType out) es outs)
    (hpt : ∀ e ∈ es, (rtpNumber e.remotePayloadType).isSome = true) :
    RtxFollows outs.flatten := by
  induction h with
  | nil => exact fun i rtx hi => by simp at hi
  | @cons e out es outs hout _ ih =>
    have hrest := ih fun x hx => hpt x (List.mem_cons_of_mem _ hx)
    obtain ⟨n, hn⟩ := Option.isSome_iff_exists.mp (hpt e (List.mem_cons_self ..))
    obtain ⟨hbyte, heqv, -⟩ := rtpNumber_byte hn
    intro i rtx hi hrtx
    rw [List.flatten_cons] at hi ⊢
    by_cases hlt : i < out.length
    · rw [List.getElem?_append_left hlt] at hi
      obtain ⟨codec, hkey, hno, hcase⟩ := hout
      have hno' := (isRtxCodec_ok hno).symm
      rcases hcase with ⟨-, rfl⟩ | ⟨-, c, apt, -, -, hapt, hread, rfl⟩
      · obtain rfl : i = 0 := by simpa using hlt
        cases hi
        rw [hno'] at hrtx
        cases hrtx
      · cases i with
        | zero =>
          cases hi
          rw [hno'] at hrtx
          cases hrtx
        | succ i =>
          obtain rfl : i = 0 := by simp at hlt; omega
          cases hi
          cases hapt.symm.trans hbyte
          refine ⟨0, codec, .uint n, rfl, rfl, hno', hread, ?_⟩
          rw [payloadTypeOf, hkey]
          exact heqv
    · rw [List.getElem?_append_right (Nat.le_of_not_lt hlt)] at hi
      obtain ⟨j, codec, apt, hij, hj, hno, hread, heq⟩ := hrest _ rtx hi hrtx
      refine ⟨out.length + j, codec, apt, by omega, ?_, hno, hread, heq⟩
      rw [List.getElem?_append_right (Nat.le_add_right ..), Nat.add_sub_cancel_left]
      exact hj

section
variable {P : Type} [DecidableEq P] {profile : String → Option P} {webrtc : WebRtc}
variable {localCaps remoteCaps validLocal validRemote : Json}

/-- Codecs whose rtx codecs all have an apt are negotiated exactly if they can be compared. -/
theorem negotiable_iff {ls rs : List Json} (hl : ∀ c ∈ ls, HasApt c) (hr : ∀ c ∈ rs, HasApt c) :
    Negotiable profile ls rs ↔ ∀ r ∈ rs, isRtx r = false →
      UpToFirst (strictlyMatches profile · r) (Comparable · r) ls :=
  ⟨fun h => h.comparable, fun h => ⟨h, fun _ _ => ⟨.of_forall hl, fun _ => .of_forall hr⟩⟩⟩

/-- The receive capabilities of remote codecs with different payload types. -/
theorem recv_closed {ext : ExtendedRtpCapabilities} {recv : Json}
    (hn : Negotiated profile validLocal validRemote ext)
    (hcs : ∀ c ∈ codecsOf validRemote, CodecShape c) (hd : DistinctTypes (codecsOf validRemote))
    (hrecv : getRecvRtpCapabilities ext = .ok recv) :
    DistinctTypes (codecsOf recv) ∧ RtxFollows (codecsOf recv) := by
  obtain ⟨outs, -, houts, -, -, hlist⟩ := getRecv_ok hrecv
  have hemit : List.Forall₂ (fun e out => Emitted "preferredPayloadType" e.remotePayloadType
      e.remoteRtxPayloadType out) ext.codecs outs :=
    ((List.forall₂_and_left _ _).mpr ⟨hn.codecs, houts⟩).imp fun e out he => by
      obtain ⟨out', hout', hout⟩ := recvCodecs_emitted he.1
      cases hout'.symm.trans he.2
      exact hout
  have hdrawn : ∀ e ∈ ext.codecs,
      Drawn (codecsOf validRemote) e.remotePayloadType e.remoteRtxPayloadType := fun e he => by
    obtain ⟨pair, hpair, hof, hrtx⟩ := mem_of_forall₂ hn.pairs.flip he
    exact drawn_remote hpair hof hrtx
  have htypes := emitted_types hemit
  have hpairs : (ext.codecs.map fun e => (e.remotePayloadType, e.remoteRtxPayloadType)).Pairwise
      fun a b => rtpNumber a.1 ≠ rtpNumber b.1 := by
    have hmap : ext.codecs.map (·.remotePayloadType) =
        (matchedPairs profile (codecsOf validLocal) (codecsOf validRemote)).map fun pair =>
          payloadTypeOf pair.2 := map_eq_of_forall₂ (hn.pairs.imp fun _ _ h => h.1.remotePayloadType)
    have hdistinct : (ext.codecs.map (·.remotePayloadType)).Pairwise
        fun a b => rtpNumber a ≠ rtpNumber b := by
      rw [hmap, List.pairwise_map]
      exact matchedPairs_remote hd
    rw [List.pairwise_map] at hdistinct ⊢
    exact hdistinct
  refine ⟨⟨fun c hc => ?_, ?_⟩, ?_⟩
  · have hmem : payloadTypeOf c ∈ ext.codecs.flatMap fun e =>
        listedTypes e.remotePayloadType e.remoteRtxPayloadType := by
      rw [← htypes, ← hlist]
      exact List.mem_map_of_mem hc
    obtain ⟨e, he, ht⟩ := List.mem_flatMap.mp hmem
    exact Drawn.present hd (hdrawn e he) _ ht
  · have hall : ∀ x ∈ ext.codecs.map fun e => (e.remotePayloadType, e.remoteRtxPayloadType),
        Drawn (codecsOf validRemote) x.1 x.2 := fun x hx => by
      obtain ⟨e, he, rfl⟩ := List.mem_map.mp hx
      exact hdrawn e he
    have hnodup := (drawn_nodup_iff hd hcs hall).mpr hpairs
    rw [List.flatMap_map, ← htypes, List.map_map, ← hlist] at hnodup
    exact hnodup
  · rw [hlist]
    exact emitted_follows hemit fun e he =>
      Drawn.present hd (hdrawn e he) _ (List.mem_cons_self ..)

/-- CORRECT: for remote codecs with different payload types in 0..127 and rtx codecs that have an apt,
    the receive capabilities are closed under rtx exactly if they are made: the compared profiles can
    be read, and the matched header extensions have one of the four directions. -/
theorem recv_closed_iff (hw : webrtc.Lawful profile)
    (hl : validateRtpCapabilities localCaps = .ok validLocal)
    (hr : validateRtpCapabilities remoteCaps = .ok validRemote)
    (hd : DistinctTypes (codecsOf validRemote)) (hlapt : ∀ c ∈ codecsOf validLocal, HasApt c)
    (hrapt : ∀ c ∈ codecsOf validRemote, HasApt c) :
    (∃ ext recv, getExtendedRtpCapabilities webrtc localCaps remoteCaps = .ok ext ∧
        getRecvRtpCapabilities ext = .ok recv ∧ DistinctTypes (codecsOf recv) ∧
        RtxFollows (codecsOf recv)) ↔
      (∀ r ∈ codecsOf validRemote, isRtx r = false →
          UpToFirst (strictlyMatches profile · r) (Comparable · r) (codecsOf validLocal)) ∧
        ∀ kind ∈ ["audio", "video"],
          DirectionsKnown kind (headerExtensionsOf validLocal) (headerExtensionsOf validRemote) := by
  rw [← negotiable_iff hlapt hrapt, ← getExtended_returns hw hl hr]
  have hheaders := headerShape_validated hr
  constructor
  · rintro ⟨ext, recv, h, hrecv, -⟩
    exact ⟨⟨ext, h⟩, ((getExtended_ok hw hl hr h).recv_returns hheaders).mp ⟨recv, hrecv⟩⟩
  · rintro ⟨⟨ext, h⟩, hknown⟩
    have hn := getExtended_ok hw hl hr h
    obtain ⟨recv, hrecv⟩ := (hn.recv_returns hheaders).mpr hknown
    exact ⟨ext, recv, h, hrecv, recv_closed hn (codecShape_validated hr) hd hrecv⟩

/-! ### The answered codecs -/

/-- No two remote codecs are matched first with the same local codec of the kind. -/
def NoneShared (profile : String → Option P) (kind : String) (localCodecs remoteCodecs : List Json) :
    Prop :=
  (remoteCodecs.filter fun r => !isRtx r).Pairwise fun r r' => ∀ l,
    localCodecs.find? (strictlyMatches profile · r) = some l →
      l.find "kind" = some (.str kind) →
        localCodecs.find? (strictlyMatches profile · r') ≠ some l

/-- The payload types of the answer are those of the extended codecs of the kind. -/
theorem answered_types {kind : String} {ext : ExtendedRtpCapabilities} {params : Json}
    (h : ∀ e ∈ ext.codecs, ExtendedShape e)
    (hparams : getSendingRemoteRtpParameters kind ext = .ok params) :
    (codecsOf params).map sentType = ((ext.codecs.filter (ofKind kind)).map fun e =>
      (e.localPayloadType, e.localRtxPayloadType)).flatMap fun p => listedTypes p.1 p.2 := by
  obtain ⟨outs, houts, hsame⟩ := getSendingRemote_ok h hparams
  have htypes : outs.flatten.map sentType = (codecsOf params).map sentType :=
    map_eq_of_forall₂ (hsame.imp fun c c' hc => by
      rw [sentType, sentType, hc _ (by decide)])
  rw [← htypes]
  clear htypes hsame
  generalize ext.codecs = codecs at h houts
  induction houts with
  | nil => rfl
  | @cons e out codecs outs hout _ ih =>
    obtain ⟨out', hout', -, hyes, hno⟩ := answeredCodecs_total (h e (List.mem_cons_self ..)) kind
    cases hout'.symm.trans hout
    have ih := ih fun x hx => h x (List.mem_cons_of_mem _ hx)
    cases hof : ofKind kind e with
    | true =>
      rw [List.filter_cons_of_pos hof, List.map_cons, List.flatMap_cons, ← ih, List.flatten_cons,
        List.map_append, ← (hyes hof).types]
      rfl
    | false => rw [List.filter_cons_of_neg (by simp [hof]), ← ih, hno hof, List.flatten_cons,
        List.nil_append]

/-- The kind of an extended codec is that of its local codec. -/
theorem ofKind_iff {e : ExtendedCodec} {l r : Json} (h : e.Of l r) (hl : CodecShape l)
    (kind : String) : ofKind kind e = true ↔ l.find "kind" = some (.str kind) := by
  obtain ⟨-, k, -, -, hk⟩ := hl.kind
  rw [ofKind, h.kind, hk, decide_eq_true_iff]
  change some k = some kind ↔ _
  rw [Option.some.injEq, Option.some.injEq, Json.str.injEq]

/-- The local payload types of the extended codecs of a kind are different exactly if their codecs
    are. -/
theorem local_distinct_iff {kind : String} {ext : ExtendedRtpCapabilities}
    (hn : Negotiated profile validLocal validRemote ext)
    (hcs : ∀ c ∈ codecsOf validLocal, CodecShape c) (hd : DistinctTypes (codecsOf validLocal)) :
    ((ext.codecs.filter (ofKind kind)).Pairwise fun a b =>
        rtpNumber a.localPayloadType ≠ rtpNumber b.localPayloadType) ↔
      NoneShared profile kind (codecsOf validLocal) (codecsOf validRemote) := by
  have hpairs : List.Forall₂ (fun e pair => pair ∈ matchedPairs profile (codecsOf validLocal)
      (codecsOf validRemote) ∧ e.Of pair.1 pair.2) ext.codecs
        (matchedPairs profile (codecsOf validLocal) (codecsOf validRemote)) :=
    ((List.forall₂_and_left _ _).mpr ⟨fun _ h => h, hn.pairs.flip⟩).flip.imp
      fun _ _ h => ⟨h.1, h.2.1⟩
  rw [List.pairwise_filter, pairwise_iff_of_forall₂ hpairs
    (T := fun a b => a.1.find "kind" = some (.str kind) → b.1.find "kind" = some (.str kind) →
      a.1 ∈ codecsOf validLocal ∧ b.1 ∈ codecsOf validLocal ∧ a.1 ≠ b.1) ?_]
  · unfold NoneShared matchedPairs
    rw [List.pairwise_filterMap]
    refine List.Pairwise.iff fun {r r'} => ⟨fun h l hfind hk hfind' => ?_, fun h a ha b hb hka hkb => ?_⟩
    · exact (h (l, r) (by rw [hfind]; rfl) (l, r') (by rw [hfind']; rfl) hk hk).2.2 rfl
    · obtain ⟨l, hfind, rfl⟩ := Option.map_eq_some_iff.mp ha
      obtain ⟨l', hfind', rfl⟩ := Option.map_eq_some_iff.mp hb
      refine ⟨List.mem_of_find?_eq_some hfind, List.mem_of_find?_eq_some hfind', ?_⟩
      rintro rfl
      exact h _ hfind hka hfind'
  · rintro e pair e' pair' ⟨hmem, hof⟩ ⟨hmem', hof'⟩
    obtain ⟨hl, -⟩ := mem_matchedPairs hmem
    obtain ⟨hl', -⟩ := mem_matchedPairs hmem'
    rw [ofKind_iff hof (hcs _ hl), ofKind_iff hof' (hcs _ hl'), hof.localPayloadType,
      hof'.localPayloadType]
    constructor
    · intro h hk hk'
      exact ⟨hl, hl', fun heq => h hk hk' (by rw [heq])⟩
    · intro h hk hk' heq
      exact (h hk hk').2.2 (hd.inj hl hl' heq)

/-- CORRECT: for codecs with different payload types in 0..127 and rtx codecs that have an apt, the
    answer has different payload types exactly if it is made, and no two remote codecs have been
    matched with one local codec. -/
theorem answer_types_distinct_iff {kind : String} (hw : webrtc.Lawful profile)
    (hl : validateRtpCapabilities localCaps = .ok validLocal)
    (hr : validateRtpCapabilities remoteCaps = .ok validRemote)
    (hd : DistinctTypes (codecsOf validLocal)) (hlapt : ∀ c ∈ codecsOf validLocal, HasApt c)
    (hrapt : ∀ c ∈ codecsOf validRemote, HasApt c) :
    (∃ ext params, getExtendedRtpCapabilities webrtc localCaps remoteCaps = .ok ext ∧
        getSendingRemoteRtpParameters kind ext = .ok params ∧
        ((codecsOf params).map fun c => rtpNumber (sentType c)).Nodup) ↔
      (∀ r ∈ codecsOf validRemote, isRtx r = false →
          UpToFirst (strictlyMatches profile · r) (Comparable · r) (codecsOf validLocal)) ∧
        DirectionsKnown kind (headerExtensionsOf validLocal) (headerExtensionsOf validRemote) ∧
        NoneShared profile kind (codecsOf validLocal) (codecsOf validRemote) := by
  rw [← negotiable_iff hlapt hrapt, ← getExtended_returns hw hl hr]
  have hlocal := codecShape_validated hl
  -- an answer that is made is judged by the local codecs
  have hmade : ∀ {ext params}, Negotiated profile validLocal validRemote ext →
      getSendingRemoteRtpParameters kind ext = .ok params →
      (((codecsOf params).map fun c => rtpNumber (sentType c)).Nodup ↔
        NoneShared profile kind (codecsOf validLocal) (codecsOf validRemote)) :=
    fun {ext params} hn hparams => by
      have hdrawn : ∀ p ∈ (ext.codecs.filter (ofKind kind)).map fun e =>
          (e.localPayloadType, e.localRtxPayloadType),
          Drawn (codecsOf validLocal) p.1 p.2 := fun p hp => by
        obtain ⟨e, he, rfl⟩ := List.mem_map.mp hp
        obtain ⟨pair, hpair, hof, hrtx⟩ :=
          mem_of_forall₂ hn.pairs.flip (List.mem_filter.mp he).1
        exact drawn_local hpair hof hrtx
      have hsplit : (codecsOf params).map (fun c => rtpNumber (sentType c)) =
          ((codecsOf params).map sentType).map rtpNumber := by
        rw [List.map_map]
        rfl
      rw [hsplit, answered_types hn.codecs hparams, drawn_nodup_iff hd hlocal hdrawn,
        List.pairwise_map]
      exact local_distinct_iff hn hlocal hd
  have hheaders := headerShape_validated hr
  constructor
  · rintro ⟨ext, params, h, hparams, hnodup⟩
    have hn := getExtended_ok hw hl hr h
    exact ⟨⟨ext, h⟩, (hn.sendingRemote_returns hheaders kind).mp ⟨params, hparams⟩,
      (hmade hn hparams).mp hnodup⟩
  · rintro ⟨⟨ext, h⟩, hknown, hnone⟩
    have hn := getExtended_ok hw hl hr h
    obtain ⟨params, hparams⟩ := (hn.sendingRemote_returns hheaders kind).mpr hknown
    exact ⟨ext, params, h, hparams, (hmade hn hparams).mpr hnone⟩

end

/-! ### Runs -/

theorem DistinctTypes.of_list {codecs : List Json} {ns : List ℕ} (hns : ns.Nodup)
    (h : (codecs.map fun c => rtpNumber (payloadTypeOf c)) = ns.map some) : DistinctTypes codecs := by
  constructor
  · intro c hc
    have hmem := List.mem_map_of_mem (f := fun c => rtpNumber (payloadTypeOf c)) hc
    rw [h] at hmem
    obtain ⟨n, -, hn⟩ := List.mem_map.mp hmem
    rw [← hn]
    rfl
  · rw [h]
    exact hns.map (Option.some_injective _)

theorem hasApt_of_all {codecs : List Json}
    (h : (codecs.all fun c => !isRtx c || (readParameter id "apt" c).isSome) = true) :
    ∀ c ∈ codecs, HasApt c := by
  intro c hc hrtx
  have := List.all_eq_true.mp h c hc
  rwa [hrtx, Bool.not_true, Bool.false_or] at this

/-- A VP8 codec and its rtx codec. -/
def vp8WithRtx (payloadType rtxPayloadType : ℕ) : Json :=
  .object [("codecs", .arr [
    .object [("mimeType", .str "video/VP8"), ("preferredPayloadType", .uint payloadType),
      ("clockRate", .uint 90000)],
    .object [("mimeType", .str "video/rtx"), ("preferredPayloadType", .uint rtxPayloadType),
      ("clockRate", .uint 90000), ("parameters", .object [("apt", .uint payloadType)])]])]

/-- What the hypotheses ask of validated capabilities. -/
def typesAndApts (caps : Json) : List (Option ℕ) × Bool :=
  ((codecsOf caps).map fun c => rtpNumber (payloadTypeOf c),
    (codecsOf caps).all fun c => !isRtx c || (readParameter id "apt" c).isSome)

theorem recv_closed_vp8 : ∃ validLocal validRemote,
    validateRtpCapabilities (vp8WithRtx 96 97) = .ok validLocal ∧
      validateRtpCapabilities (vp8WithRtx 101 102) = .ok validRemote ∧
      ((∃ ext recv, getExtendedRtpCapabilities sampleWebRtc (vp8WithRtx 96 97)
            (vp8WithRtx 101 102) = .ok ext ∧ getRecvRtpCapabilities ext = .ok recv ∧
          DistinctTypes (codecsOf recv) ∧ RtxFollows (codecsOf recv)) ↔
        (∀ r ∈ codecsOf validRemote, isRtx r = false →
          UpToFirst (strictlyMatches sampleProfile · r) (Comparable · r) (codecsOf validLocal)) ∧
        ∀ kind ∈ ["audio", "video"],
          DirectionsKnown kind (headerExtensionsOf validLocal) (headerExtensionsOf validRemote)) := by
  obtain ⟨validLocal, hl, hlrun⟩ := exists_of_map typesAndApts
    (show (validateRtpCapabilities (vp8WithRtx 96 97)).toOption.map _ =
      some ([some 96, some 97], true) from rfl)
  obtain ⟨validRemote, hr, hrrun⟩ := exists_of_map typesAndApts
    (show (validateRtpCapabilities (vp8WithRtx 101 102)).toOption.map _ =
      some ([some 101, some 102], true) from rfl)
  obtain ⟨-, hlapt⟩ := Prod.mk.inj hlrun
  obtain ⟨htypes, hrapt⟩ := Prod.mk.inj hrrun
  have hd : DistinctTypes (codecsOf validRemote) :=
    .of_list (show List.Nodup [101, 102] by decide) htypes
  exact ⟨validLocal, validRemote, hl, hr,
    recv_closed_iff sampleWebRtc_lawful hl hr hd (hasApt_of_all hlapt) (hasApt_of_all hrapt)⟩

/-- A codec that is negotiated, and receive capabilities that are not made. -/
theorem recv_not_made : ∃ validLocal validRemote ext,
    validateRtpCapabilities (vp8Capabilities "sendrecv") = .ok validLocal ∧
      validateRtpCapabilities (vp8Capabilities "both") = .ok validRemote ∧
      DistinctTypes (codecsOf validRemote) ∧ (∀ c ∈ codecsOf validLocal, HasApt c) ∧
      (∀ c ∈ codecsOf validRemote, HasApt c) ∧
      getExtendedRtpCapabilities sampleWebRtc (vp8Capabilities "sendrecv")
        (vp8Capabilities "both") = .ok ext ∧
      ¬ ∃ recv, getRecvRtpCapabilities ext = .ok recv ∧ DistinctTypes (codecsOf recv) ∧
        RtxFollows (codecsOf recv) := by
  obtain ⟨validLocal, hl, hlrun⟩ := exists_of_map typesAndApts
    (show (validateRtpCapabilities (vp8Capabilities "sendrecv")).toOption.map _ =
      some ([some 96], true) from rfl)
  obtain ⟨validRemote, hr, hrrun⟩ := exists_of_map typesAndApts
    (show (validateRtpCapabilities (vp8Capabilities "both")).toOption.map _ =
      some ([some 96], true) from rfl)
  obtain ⟨ext, h, hnone⟩ := exists_of_map (fun r => (getRecvRtpCapabilities r).toOption.isNone)
    (show (getExtendedRtpCapabilities sampleWebRtc (vp8Capabilities "sendrecv")
      (vp8Capabilities "both")).toOption.map _ = some true from rfl)
  obtain ⟨-, hlapt⟩ := Prod.mk.inj hlrun
  obtain ⟨htypes, hrapt⟩ := Prod.mk.inj hrrun
  refine ⟨validLocal, validRemote, ext, hl, hr, .of_list (show List.Nodup [96] by decide) htypes,
    hasApt_of_all hlapt, hasApt_of_all hrapt, h, ?_⟩
  rintro ⟨recv, hrecv, -⟩
  rw [hrecv] at hnone
  cases hnone

theorem answer_types_distinct_vp8 : ∃ validLocal validRemote,
    validateRtpCapabilities (vp8WithRtx 96 97) = .ok validLocal ∧
      validateRtpCapabilities (vp8WithRtx 101 102) = .ok validRemote ∧
      ((∃ ext params, getExtendedRtpCapabilities sampleWebRtc (vp8WithRtx 96 97)
            (vp8WithRtx 101 102) = .ok ext ∧
          getSendingRemoteRtpParameters "video" ext = .ok params ∧
          ((codecsOf params).map fun c => rtpNumber (sentType c)).Nodup) ↔
        (∀ r ∈ codecsOf validRemote, isRtx r = false →
          UpToFirst (strictlyMatches sampleProfile · r) (Comparable · r) (codecsOf validLocal)) ∧
        DirectionsKnown "video" (headerExtensionsOf validLocal) (headerExtensionsOf validRemote) ∧
        NoneShared sampleProfile "video" (codecsOf validLocal) (codecsOf validRemote)) := by
  obtain ⟨validLocal, hl, hlrun⟩ := exists_of_map typesAndApts
    (show (validateRtpCapabilities (vp8WithRtx 96 97)).toOption.map _ =
      some ([some 96, some 97], true) from rfl)
  obtain ⟨validRemote, hr, hrrun⟩ := exists_of_map typesAndApts
    (show (validateRtpCapabilities (vp8WithRtx 101 102)).toOption.map _ =
      some ([some 101, some 102], true) from rfl)
  obtain ⟨htypes, hlapt⟩ := Prod.mk.inj hlrun
  obtain ⟨-, hrapt⟩ := Prod.mk.inj hrrun
  have hd : DistinctTypes (codecsOf validLocal) := .of_list (show List.Nodup [96, 97] by decide) htypes
  exact ⟨validLocal, validRemote, hl, hr,
    answer_types_distinct_iff sampleWebRtc_lawful hl hr hd (hasApt_of_all hlapt)
      (hasApt_of_all hrapt)⟩

/-- Two VP8 codecs. -/
def vp8Twice (payloadType payloadType' : ℕ) : Json :=
  .object [("codecs", .arr [
    .object [("mimeType", .str "video/VP8"), ("preferredPayloadType", .uint payloadType),
      ("clockRate", .uint 90000)],
    .object [("mimeType", .str "video/VP8"), ("preferredPayloadType", .uint payloadType'),
      ("clockRate", .uint 90000)]])]

/-- Two remote codecs are answered with one local payload type. -/
theorem answer_types_repeated : ∃ validLocal validRemote ext params,
    validateRtpCapabilities (vp8WithRtx 96 97) = .ok validLocal ∧
      validateRtpCapabilities (vp8Twice 101 103) = .ok validRemote ∧
      DistinctTypes (codecsOf validLocal) ∧ DistinctTypes (codecsOf validRemote) ∧
      (∀ c ∈ codecsOf validLocal, HasApt c) ∧ (∀ c ∈ codecsOf validRemote, HasApt c) ∧
      getExtendedRtpCapabilities sampleWebRtc (vp8WithRtx 96 97) (vp8Twice 101 103) = .ok ext ∧
      getSendingRemoteRtpParameters "video" ext = .ok params ∧
      ¬ ((codecsOf params).map fun c => rtpNumber (sentType c)).Nodup := by
  obtain ⟨validLocal, hl, hlrun⟩ := exists_of_map typesAndApts
    (show (validateRtpCapabilities (vp8WithRtx 96 97)).toOption.map _ =
      some ([some 96, some 97], true) from rfl)
  obtain ⟨validRemote, hr, hrrun⟩ := exists_of_map typesAndApts
    (show (validateRtpCapabilities (vp8Twice 101 103)).toOption.map _ =
      some ([some 101, some 103], true) from rfl)
  obtain ⟨ext, h, hrun⟩ := exists_of_map (fun r => (getSendingRemoteRtpParameters "video" r).toOption.map
      fun params => (codecsOf params).map fun c => rtpNumber (sentType c))
    (show (getExtendedRtpCapabilities sampleWebRtc (vp8WithRtx 96 97)
      (vp8Twice 101 103)).toOption.map _ = some (some [some 96, some 96]) from rfl)
  obtain ⟨params, hparams, htwice⟩ := exists_of_map _ hrun
  obtain ⟨hltypes, hlapt⟩ := Prod.mk.inj hlrun
  obtain ⟨hrtypes, hrapt⟩ := Prod.mk.inj hrrun
  refine ⟨validLocal, validRemote, ext, params, hl, hr,
    .of_list (show List.Nodup [96, 97] by decide) hltypes,
    .of_list (show List.Nodup [101, 103] by decide) hrtypes, hasApt_of_all hlapt,
    hasApt_of_all hrapt, h, hparams, ?_⟩
  rw [htwice]
  decide

end MediasoupClient.Sdp
