import MediasoupClient.Sdp.Encodings
import Mathlib.Data.List.Find

/-! Several streams in one offered section (sdputil/sdputil.cpp, addLegacySimulcast).

        a=ssrc:s cname:c              a=ssrc-group:SIM s s+1
        a=ssrc:s msid:y z      ──▶    a=ssrc:s cname:c         a=ssrc-group:FID s x
        a=ssrc-group:FID s x          a=ssrc:s msid:y z        a=ssrc-group:FID s+1 x+1
                                      a=ssrc:s+1 ..  a=ssrc:x ..  a=ssrc:x+1 ..

    The ssrcs of the streams are counted on from the first one, those of the retransmissions too, both
    modulo 2^32. Neither looks at the other: a retransmission can get the ssrc of a stream, and the
    reader then takes the stream for a retransmission. -/

namespace MediasoupClient.Sdp
open Lib

/-- Whether the attribute of an ssrc line is this one. -/
def hasAttribute (name : String) (line : Json) : Bool :=
  match line.find "attribute" with
  | some (.str s) => s = name
  | _ => false

/-- The line the cname is taken from. -/
def isCnameLine (line : Json) : Bool :=
  hasAttribute "cname" line && (line.find "id").any Json.isNumber

/-- The ssrc of the retransmission: the second member of the first group whose first member is the ssrc,
    whatever the semantics. -/
def firstRtxSsrc (firstSsrc : ℕ) : List Json → Except Invalid ℕ
  | [] => .ok 0
  | line :: lines =>
    match line.find "semantics", line.find "ssrcs" with
    | some (.str _), some (.str ssrcs) =>
      match split ssrcs ' ' with
      | [] => .error (.fault .undefined)
      | ssrc :: members => do
        if (← stoull ssrc) = firstSsrc then
          match members with
          | [] => .error (.fault .undefined)
          | rtxSsrc :: _ => return (← stoull rtxSsrc) % 2 ^ 32
        else firstRtxSsrc firstSsrc lines
    | _, _ => firstRtxSsrc firstSsrc lines

/-- The ssrcs that are counted on from the first one. -/
def streamSsrcs (first n : ℕ) : List ℕ := (List.range n).map fun i => (first + i) % 2 ^ 32

/-- The lines of an ssrc. -/
def streamLines (cname msidValue : String) (ssrc : ℕ) : List Json := [
  Json.object [("id", .uint ssrc), ("attribute", .str "cname"), ("value", .str cname)],
  Json.object [("id", .uint ssrc), ("attribute", .str "msid"), ("value", .str msidValue)]]

/-- `Utils::join`. -/
def joinSsrcs (ssrcs : List ℕ) : String := " ".intercalate (ssrcs.map toString)

def simGroup (ssrcs : List ℕ) : Json :=
  Json.object [("semantics", .str "SIM"), ("ssrcs", .str (joinSsrcs ssrcs))]

def fidOf (ssrc rtxSsrc : ℕ) : Json :=
  Json.object [("semantics", .str "FID"),
    ("ssrcs", .str (toString ssrc ++ " " ++ toString rtxSsrc))]

/-- The ids of the stream and the track in an msid line. -/
def msidOf (ssrcMsidLine : Json) : Except Invalid String := do
  match split (← (← ssrcMsidLine.readOrNull "value").toStr) ' ' with
  | streamId :: trackId :: _ => return streamId ++ " " ++ trackId
  | _ => .error (.fault .undefined)

/-- The new lines of the section. -/
def writeStreams (offerMediaObject : Json) (ssrcs rtxSsrcs : List ℕ) (cname msidValue : String) :
    Except Fault Json := do
  let offerMediaObject ← offerMediaObject.write "ssrcGroups"
    (.arr (simGroup ssrcs :: List.zipWith fidOf ssrcs rtxSsrcs))
  offerMediaObject.write "ssrcs" (.arr ((ssrcs ++ rtxSsrcs).flatMap (streamLines cname msidValue)))

/-- `addLegacySimulcast`: the section with its new lines. -/
def addLegacySimulcast (offerMediaObject : Json) (numStreams : UInt8) : Except Invalid Json := do
  if numStreams ≤ 1 then return offerMediaObject
  else
    let mSsrcs ← offerMediaObject.readOrNull "ssrcs"
    match mSsrcs.elems.find? (hasAttribute "msid") with
    | none => .error (.exception "a=ssrc line with msid information not found")
    | some ssrcMsidLine =>
      let msidValue ← msidOf ssrcMsidLine
      let first ← (← ssrcMsidLine.readOrNull "id").toUInt 32
      let firstRtx ← firstRtxSsrc first ((offerMediaObject.find "ssrcGroups").getD .null).elems
      match mSsrcs.elems.find? isCnameLine with
      | none => .error (.exception "CNAME line not found")
      | some cnameLine =>
        let cname ← (← cnameLine.readOrNull "value").toStr
        writeStreams offerMediaObject (streamSsrcs first numStreams.toNat)
          (if firstRtx ≠ 0 then streamSsrcs firstRtx numStreams.toNat else []) cname msidValue

/-! ### What is read back -/

/-- An offered section with one stream: its first line is of the ssrc `s`, the other ones too or of the
    ssrc of the retransmission, which a FID group ties to it. -/
structure OneStream (media : Json) (s : ℕ) (x : Option ℕ) (cname : String) : Prop where
  lines : ∃ lines, media.find "ssrcs" = some (.arr lines) ∧ (lines.head?.bind idOf) = some (s : ℤ) ∧
    (∀ line ∈ lines, idOf line = some (s : ℤ) ∨ ∃ r ∈ x, idOf line = some (r : ℤ)) ∧
    (∃ line ∈ lines, hasAttribute "msid" line = true) ∧
    (lines.find? (hasAttribute "cname")).bind (·.find "value") = some (.str cname)
  range : s < 2 ^ 32 ∧ ∀ r ∈ x, r < 2 ^ 32
  groups : ∀ group ∈ ssrcGroupsOf media, SsrcGroup group ∧ isFid group = true
  members : fidMembers media = x.toList.map fun r => [s, r]

/-- The streams are read back: their ssrcs, those of the retransmissions, each ssrc once, and the
    cname. -/
structure ReadBack (media : Json) (s : ℕ) (x : Option ℕ) (n : ℕ) (cname : String) : Prop where
  encodings : ∃ encodings, getRtpEncodings media = .ok encodings ∧
    encodings.map ssrcOf = (streamSsrcs s n).map (fun ssrc : ℕ => some (ssrc : ℤ)) ∧
    encodings.map rtxSsrcOf = (List.range n).map fun i =>
      x.map fun r : ℕ => (((r + i) % 2 ^ 32 : ℕ) : ℤ)
  distinct : (streamSsrcs s n ++ x.elim [] (streamSsrcs · n)).Nodup
  cname : getCname media = .ok cname

/-- The first line with an msid. -/
def msidLine (media : Json) : Option Json :=
  ((media.find "ssrcs").getD .null).elems.find? (hasAttribute "msid")

/-- The ssrcs that are counted on from both are different, modulo 2^32. -/
def Separate (s r n : ℕ) : Prop :=
  r ≠ 0 ∧ n ≤ (r + (2 ^ 32 - s)) % 2 ^ 32 ∧ n ≤ (s + (2 ^ 32 - r)) % 2 ^ 32

instance (s r n : ℕ) : Decidable (Separate s r n) := inferInstanceAs (Decidable (_ ∧ _ ∧ _))

/-! ### Numbers -/

theorem mem_streamSsrcs {first n ssrc : ℕ} :
    ssrc ∈ streamSsrcs first n ↔ ∃ i < n, (first + i) % 2 ^ 32 = ssrc := by
  simp [streamSsrcs]

theorem length_streamSsrcs (first n : ℕ) : (streamSsrcs first n).length = n := by
  simp [streamSsrcs]

/-- Fewer than 2^32 ssrcs do not meet themselves. -/
theorem nodup_streamSsrcs (first : ℕ) {n : ℕ} (hn : n ≤ 2 ^ 32) : (streamSsrcs first n).Nodup := by
  refine List.nodup_range.map_on fun i hi j hj heq => ?_
  rw [List.mem_range] at hi hj
  omega

/-- Two of them meet exactly if one begins among the other ones. -/
theorem disjoint_iff {s r n : ℕ} (hs : s < 2 ^ 32) (hr : r < 2 ^ 32) (hn : n ≤ 2 ^ 31) :
    (streamSsrcs s n).Disjoint (streamSsrcs r n) ↔
      n ≤ (r + (2 ^ 32 - s)) % 2 ^ 32 ∧ n ≤ (s + (2 ^ 32 - r)) % 2 ^ 32 := by
  constructor
  · intro h
    by_contra hnot
    rcases not_and_or.mp hnot with hlt | hlt
    · refine h (a := r) (mem_streamSsrcs.mpr ⟨(r + (2 ^ 32 - s)) % 2 ^ 32, by omega, by omega⟩)
        (mem_streamSsrcs.mpr ⟨0, by omega, by omega⟩)
    · refine h (a := s) (mem_streamSsrcs.mpr ⟨0, by omega, by omega⟩)
        (mem_streamSsrcs.mpr ⟨(s + (2 ^ 32 - r)) % 2 ^ 32, by omega, by omega⟩)
  · rintro ⟨hle, hle'⟩ ssrc hssrc hrtx
    obtain ⟨i, hi, rfl⟩ := mem_streamSsrcs.mp hssrc
    obtain ⟨j, hj, heq⟩ := mem_streamSsrcs.mp hrtx
    omega

/-- A number as it is written. -/
theorem isSsrc_toString {n : ℕ} (hn : n < 2 ^ 32) :
    IsSsrc (toString n) ∧ tokenValue (toString n) = n := by
  have hlist : (toString n).toList = Nat.toDigits 10 n := Nat.toList_repr
  have hvalue : tokenValue (toString n) = n := by
    unfold tokenValue decimal
    rw [hlist]
    exact Nat.ofDigitChars_ten_toDigits
  refine ⟨⟨?_, ?_, hvalue.trans_lt hn⟩, hvalue⟩
  · rw [hlist]
    exact fun c hc => Nat.isDigit_of_mem_toDigits (by decide) (by decide) hc
  · rw [hlist]
    exact Nat.toDigits_ne_nil

/-! ### Tokens -/

/-- Written numbers are tokens. -/
theorem split_numbers (ns : List ℕ) (hne : ns ≠ []) (h : ∀ n ∈ ns, n < 2 ^ 32) :
    split (" ".intercalate (ns.map toString)) ' ' = ns.map toString := by
  refine split_intercalate (d := ' ') (by simpa using hne) fun token htoken => ?_
  obtain ⟨n, hn, rfl⟩ := List.mem_map.mp htoken
  obtain ⟨hssrc, -⟩ := isSsrc_toString (h n hn)
  refine ⟨fun hmem => ?_, hssrc.filled⟩
  have hdigit := hssrc.digits ' ' hmem
  exact absurd hdigit (by decide)

/-! ### The new section -/

/-- What the section is left with. -/
structure Written (media : Json) (ssrcs rtxSsrcs : List ℕ) (cname msidValue : String) : Prop where
  lines : media.find "ssrcs" =
    some (.arr ((ssrcs ++ rtxSsrcs).flatMap (streamLines cname msidValue)))
  groups : media.find "ssrcGroups" =
    some (.arr (simGroup ssrcs :: List.zipWith fidOf ssrcs rtxSsrcs))

theorem idOf_streamLines {cname msidValue : String} {ssrc : ℕ} :
    ∀ line ∈ streamLines cname msidValue ssrc, idOf line = some (ssrc : ℤ) := by
  simp [streamLines, idOf, Json.object, Json.find, get_put, integer]

theorem ids_flatMap (cname msidValue : String) (ssrcs : List ℕ) :
    (ssrcs.flatMap (streamLines cname msidValue)).filterMap idOf =
      (ssrcs.flatMap fun ssrc => [ssrc, ssrc]).map (Nat.cast : ℕ → ℤ) := by
  induction ssrcs with
  | nil => rfl
  | cons ssrc ssrcs ih =>
    rw [List.flatMap_cons, List.filterMap_append, ih, List.flatMap_cons, List.map_append]
    congr 1
    simp [streamLines, idOf, Json.object, Json.find, get_put, integer]

/-- Of the two lines of an ssrc one is left. -/
theorem destutter_doubled {xs : List ℕ} (h : xs.Nodup) :
    (xs.flatMap fun x => [x, x]).destutter (· ≠ ·) = xs := by
  have hdouble : ∀ (xs : List ℕ) (x : ℕ),
      (xs.flatMap fun x => [x, x]).destutter' (· ≠ ·) x = xs.destutter' (· ≠ ·) x := by
    intro xs
    induction xs with
    | nil => exact fun _ => rfl
    | cons y ys ih =>
      intro x
      have hself : ∀ zs : List ℕ, (y :: zs).destutter' (· ≠ ·) y = zs.destutter' (· ≠ ·) y :=
        fun zs => List.destutter'_cons_neg (R := (· ≠ ·)) zs (by simp)
      rw [List.flatMap_cons, List.cons_append, List.singleton_append]
      by_cases hxy : x = y
      · subst hxy
        rw [hself, hself, hself, ih]
      · rw [List.destutter'_cons_pos (R := (· ≠ ·)) _ hxy, hself,
          List.destutter'_cons_pos (R := (· ≠ ·)) _ hxy, ih]
  cases xs with
  | nil => rfl
  | cons x xs =>
    have hchain : (x :: xs).IsChain (· ≠ ·) := List.Pairwise.isChain h
    rw [List.flatMap_cons, List.cons_append, List.singleton_append, List.destutter_cons',
      List.destutter'_cons_neg (R := (· ≠ ·)) _ (by simp), hdouble, ← List.destutter_cons']
    exact List.destutter_of_isChain _ _ hchain

theorem simGroup_spec {ssrcs : List ℕ} (hne : ssrcs ≠ []) (h : ∀ n ∈ ssrcs, n < 2 ^ 32) :
    SsrcGroup (simGroup ssrcs) ∧ isFid (simGroup ssrcs) = false := by
  have hsemantics : (simGroup ssrcs).find "semantics" = some (.str "SIM") := by
    simp [simGroup, Json.object, Json.find, get_put]
  have htext : (simGroup ssrcs).find "ssrcs" = some (.str (joinSsrcs ssrcs)) := by
    simp [simGroup, Json.object, Json.find, get_put]
  refine ⟨⟨⟨_, hsemantics⟩, ⟨_, htext⟩, ?_⟩, ?_⟩
  · rw [memberTokens, htext]
    simp only
    rw [joinSsrcs, split_numbers _ hne h]
    intro token htoken
    obtain ⟨n, hn, rfl⟩ := List.mem_map.mp htoken
    exact (isSsrc_toString (h n hn)).1
  · rw [isFid, hsemantics]
    rfl

theorem fidOf_spec {a b : ℕ} (ha : a < 2 ^ 32) (hb : b < 2 ^ 32) :
    SsrcGroup (fidOf a b) ∧ isFid (fidOf a b) = true ∧
      (memberTokens (fidOf a b)).map tokenValue = [a, b] := by
  have hsemantics : (fidOf a b).find "semantics" = some (.str "FID") := by
    simp [fidOf, Json.object, Json.find, get_put]
  have htext : (fidOf a b).find "ssrcs" = some (.str (toString a ++ " " ++ toString b)) := by
    simp [fidOf, Json.object, Json.find, get_put]
  have htokens : memberTokens (fidOf a b) = [toString a, toString b] := by
    have hjoin : toString a ++ " " ++ toString b = " ".intercalate ([a, b].map toString) := by
      rw [List.map_cons, List.map_singleton, String.intercalate_cons_cons,
        String.intercalate_singleton]
    have hsplit := split_numbers [a, b] (List.cons_ne_nil _ _) fun n hn => by
      rcases List.mem_pair.mp hn with rfl | rfl
      · exact ha
      · exact hb
    rw [memberTokens, htext]
    simp only
    rw [hjoin, hsplit]
    rfl
  obtain ⟨hssrc, hvalue⟩ := isSsrc_toString ha
  obtain ⟨hrtx, hvalue'⟩ := isSsrc_toString hb
  refine ⟨⟨⟨_, hsemantics⟩, ⟨_, htext⟩, ?_⟩, ?_, ?_⟩
  · rw [htokens]
    intro token htoken
    rcases List.mem_pair.mp htoken with rfl | rfl
    · exact hssrc
    · exact hrtx
  · rw [isFid, hsemantics]
    rfl
  · rw [htokens, List.map_cons, List.map_singleton, hvalue, hvalue']

theorem pairOf_fidOf {a b : ℕ} (ha : a < 2 ^ 32) (hb : b < 2 ^ 32) :
    pairOf (fidOf a b) = some (a, b) := by
  obtain ⟨-, hfid, hmembers⟩ := fidOf_spec ha hb
  rw [pairOf, if_pos hfid, hmembers]

/-- The pair of an ssrc, among pairs whose first members are different. -/
theorem find_zip {ssrcs rtxSsrcs : List ℕ} (hnd : ssrcs.Nodup) {i k : ℕ} (hk : ssrcs[i]? = some k) :
    ((ssrcs.zip rtxSsrcs).reverse.find? fun p => decide (p.1 = k)).map (·.2) = rtxSsrcs[i]? := by
  have hat : ∀ {p : ℕ × ℕ}, p ∈ ssrcs.zip rtxSsrcs → p.1 = k → rtxSsrcs[i]? = some p.2 := by
    intro p hp hpk
    obtain ⟨j, hj⟩ := List.mem_iff_getElem?.mp hp
    obtain ⟨hssrc, hrtx⟩ := List.getElem?_zip_eq_some.mp hj
    have hij : i = j := (List.getElem?_inj (List.getElem?_eq_some_iff.mp hk).1 hnd).mp
      (hk.trans (hpk ▸ hssrc).symm)
    rwa [hij]
  cases hfind : (ssrcs.zip rtxSsrcs).reverse.find? fun p => decide (p.1 = k) with
  | some p =>
    have hp := List.mem_reverse.mp (List.mem_of_find?_eq_some hfind)
    have hpk : decide (p.1 = k) = true := List.find?_some (p := fun p : ℕ × ℕ => decide (p.1 = k)) hfind
    exact (hat hp (of_decide_eq_true hpk)).symm
  | none =>
    cases hrtx : rtxSsrcs[i]? with
    | none => rfl
    | some r =>
      have hmem : (k, r) ∈ ssrcs.zip rtxSsrcs :=
        List.mem_iff_getElem?.mpr ⟨i, List.getElem?_zip_eq_some.mpr ⟨hk, hrtx⟩⟩
      have hnone := List.find?_eq_none.mp hfind (k, r) (List.mem_reverse.mpr hmem)
      simp at hnone

section
variable {media : Json} {ssrcs rtxSsrcs : List ℕ} {cname msidValue : String}

theorem Written.offered (h : Written media ssrcs rtxSsrcs cname msidValue) (hne : ssrcs ≠ [])
    (hlt : ∀ n ∈ ssrcs ++ rtxSsrcs, n < 2 ^ 32) : SsrcsOffered media := by
  refine ⟨⟨_, h.lines, ?_, ?_⟩, ?_⟩
  · cases ssrcs with
    | nil => exact absurd rfl hne
    | cons a as => exact List.cons_ne_nil _ _
  · intro line hline
    obtain ⟨ssrc, -, hmem⟩ := List.mem_flatMap.mp hline
    rw [idOf_streamLines line hmem]
    rfl
  · intro group hgroup
    rw [ssrcGroupsOf, h.groups] at hgroup
    rcases List.mem_cons.mp hgroup with rfl | hgroup
    · exact (simGroup_spec hne fun n hn => hlt n (List.mem_append_left _ hn)).1
    · rw [← List.map_uncurry_zip_eq_zipWith] at hgroup
      obtain ⟨⟨a, b⟩, hab, rfl⟩ := List.mem_map.mp hgroup
      obtain ⟨ha, hb⟩ := List.of_mem_zip hab
      exact (fidOf_spec (hlt a (List.mem_append_left _ ha)) (hlt b (List.mem_append_right _ hb))).1

/-- The pairs of the groups. -/
theorem pairs_written (hne : ssrcs ≠ []) (hlt : ∀ n ∈ ssrcs ++ rtxSsrcs, n < 2 ^ 32) :
    (simGroup ssrcs :: List.zipWith fidOf ssrcs rtxSsrcs).filterMap pairOf =
      ssrcs.zip rtxSsrcs := by
  have hsim : pairOf (simGroup ssrcs) = none := by
    rw [pairOf, (simGroup_spec hne fun n hn => hlt n (List.mem_append_left _ hn)).2]
    rfl
  rw [List.filterMap_cons_none hsim, ← List.map_uncurry_zip_eq_zipWith, List.filterMap_map]
  refine (List.filterMap_congr fun p hp => ?_).trans List.filterMap_some
  obtain ⟨ha, hb⟩ := List.of_mem_zip (a := p.1) (b := p.2) hp
  exact pairOf_fidOf (hlt _ (List.mem_append_left _ ha)) (hlt _ (List.mem_append_right _ hb))

/-- The ssrcs are read back, if they are different. -/
theorem Written.encodings (h : Written media ssrcs rtxSsrcs cname msidValue) (hne : ssrcs ≠ [])
    (hlt : ∀ n ∈ ssrcs ++ rtxSsrcs, n < 2 ^ 32) (hnd : (ssrcs ++ rtxSsrcs).Nodup)
    (hlen : rtxSsrcs.length ≤ ssrcs.length) :
    ∃ encodings, getRtpEncodings media = .ok encodings ∧
      encodings.map ssrcOf = ssrcs.map (fun ssrc : ℕ => some (ssrc : ℤ)) ∧
      ∀ i < ssrcs.length, (encodings.map rtxSsrcOf)[i]? =
        some ((rtxSsrcs[i]?).map fun rtxSsrc : ℕ => (rtxSsrc : ℤ)) := by
  have hids : ((lineIds media).map toSsrc).destutter (· ≠ ·) = ssrcs ++ rtxSsrcs := by
    have hline : lineIds media = ((ssrcs ++ rtxSsrcs).flatMap fun x => [x, x]).map Nat.cast := by
      rw [lineIds, h.lines]
      exact ids_flatMap cname msidValue _
    have hread : ∀ n ∈ (ssrcs ++ rtxSsrcs).flatMap fun x => [x, x], toSsrc (n : ℤ) = n := by
      intro n hn
      obtain ⟨x, hx, hmem⟩ := List.mem_flatMap.mp hn
      have hnx : n = x := by simpa using hmem
      have hltx := hlt x hx
      unfold toSsrc
      omega
    have hmap : (((ssrcs ++ rtxSsrcs).flatMap fun x => [x, x]).map (Nat.cast : ℕ → ℤ)).map toSsrc =
        (ssrcs ++ rtxSsrcs).flatMap fun x => [x, x] := by
      rw [List.map_map]
      exact (List.map_congr_left hread).trans (List.map_id _)
    rw [hline, hmap, destutter_doubled hnd]
  have hgroups : ssrcGroupsOf media = simGroup ssrcs :: List.zipWith fidOf ssrcs rtxSsrcs := by
    rw [ssrcGroupsOf, h.groups]
    rfl
  have hpairs : ∀ g ∈ ssrcGroupsOf media, isFid g = true → 2 ≤ (memberTokens g).length := by
    intro g hg hfid
    rw [hgroups] at hg
    rcases List.mem_cons.mp hg with rfl | hg
    · rw [(simGroup_spec hne fun n hn => hlt n (List.mem_append_left _ hn)).2] at hfid
      cases hfid
    · rw [← List.map_uncurry_zip_eq_zipWith] at hg
      obtain ⟨⟨a, b⟩, hab, rfl⟩ := List.mem_map.mp hg
      obtain ⟨ha, hb⟩ := List.of_mem_zip hab
      obtain ⟨-, -, hmembers⟩ :=
        fidOf_spec (hlt a (List.mem_append_left _ ha)) (hlt b (List.mem_append_right _ hb))
      have htwo := congrArg List.length hmembers
      rw [List.length_map] at htwo
      exact Nat.le_of_eq htwo.symm
  obtain ⟨st, hst⟩ : ∃ st, st = (ssrcs.zip rtxSsrcs).foldl paired (ssrcs ++ rtxSsrcs, .empty) :=
    ⟨_, rfl⟩
  have hfst : st.1 = ssrcs := by
    rw [hst, foldl_paired_fst, List.map_snd_zip hlen, List.filter_append,
      List.filter_eq_self.mpr fun s hs => ?_, List.filter_eq_nil_iff.mpr fun s hs => ?_,
      List.append_nil]
    · simpa using hs
    · exact decide_eq_true fun hrtx => (List.disjoint_of_nodup_append hnd) hs hrtx
  refine ⟨_, (getRtpEncodings_ok (h.offered hne hlt)).mpr ⟨hpairs, st, ?_, rfl⟩, ?_, ?_⟩
  · rw [hids, hgroups, pairs_written hne hlt, hst]
  · rw [hfst, List.map_map]
    exact List.map_congr_left fun s _ => ssrcOf_rtpEncoding st.2 s
  · intro i hi
    rw [hfst, List.map_map, List.getElem?_map, List.getElem?_eq_getElem hi, Option.map_some]
    congr 1
    rw [Function.comp_apply, rtxSsrcOf_rtpEncoding, hst, foldl_paired_get,
      find_zip (List.Nodup.of_append_left hnd) (List.getElem?_eq_getElem hi)]
    exact congrArg _ Option.or_none

theorem Written.cname_eq (h : Written media ssrcs rtxSsrcs cname msidValue) (hne : ssrcs ≠ []) :
    getCname media = .ok cname := by
  obtain ⟨ssrc, rest, rfl⟩ := List.exists_cons_of_ne_nil hne
  have hfirst : ∀ lines : List Json, (streamLines cname msidValue ssrc ++ lines).find?
      (fun line => (line.find "attribute").any (·.isString)) =
        some ((streamLines cname msidValue ssrc).head (List.cons_ne_nil _ _)) := by
    intro lines
    simp [streamLines, Json.object, Json.find, get_put, Json.isString]
  unfold getCname
  rw [h.lines]
  simp only [Json.elems, List.cons_append, List.flatMap_cons]
  rw [hfirst]
  simp [streamLines, Json.object, Json.read, get_put, Json.toStr, ok_bind]

end

/-! ### One stream -/

section
variable {media : Json} {s : ℕ} {x : Option ℕ} {cname : String}

/-- The ssrc of the retransmission is found for the ssrc of the stream only. -/
theorem OneStream.firstRtx (h : OneStream media s x cname) (first : ℕ) :
    firstRtxSsrc first (ssrcGroupsOf media) = .ok (if first = s then x.getD 0 else 0) := by
  have hfilter : (ssrcGroupsOf media).filter isFid = ssrcGroupsOf media :=
    List.filter_eq_self.mpr fun g hg => (h.groups g hg).2
  have hmembers := h.members
  rw [fidMembers, hfilter] at hmembers
  cases x with
  | none =>
    rw [List.map_eq_nil_iff.mp hmembers]
    simp [firstRtxSsrc]
  | some r =>
    obtain ⟨g, hgroups, hg⟩ := List.map_eq_singleton_iff.mp hmembers
    obtain ⟨⟨⟨semantics, hsemantics⟩, ⟨text, htext⟩, htokens⟩, -⟩ :=
      h.groups g (hgroups ▸ List.mem_singleton_self g)
    rw [memberTokens, htext] at hg htokens
    simp only at hg htokens
    obtain ⟨a, as, hsplit, ha, has⟩ := List.map_eq_cons_iff.mp hg
    obtain ⟨b, rfl, hb⟩ := List.map_eq_singleton_iff.mp has
    rw [hsplit] at htokens
    have hstream := stoull_token (htokens a List.mem_cons_self)
    have hrtx := stoull_token (htokens b (List.mem_cons_of_mem _ List.mem_cons_self))
    rw [ha] at hstream
    rw [hb] at hrtx
    rw [hgroups, firstRtxSsrc, hsemantics, htext]
    simp only [hsplit, hstream, ok_bind, hrtx]
    by_cases hfirst : first = s
    · rw [if_pos hfirst.symm, if_pos hfirst, Option.getD_some,
        Nat.mod_eq_of_lt (h.range.2 r rfl)]
      rfl
    · rw [if_neg (Ne.symm hfirst), if_neg hfirst]
      rfl

theorem written_of_writeStreams {media media' : Json} {ssrcs rtxSsrcs : List ℕ}
    {cname msidValue : String}
    (h : writeStreams media ssrcs rtxSsrcs cname msidValue = .ok media') :
    Written media' ssrcs rtxSsrcs cname msidValue := by
  obtain ⟨media₁, h₁, h₂⟩ := bind_ok.mp h
  constructor
  · rw [Json.find_write h₂, if_pos rfl]
  · rw [Json.find_write h₂, if_neg (by decide), Json.find_write h₁, if_pos rfl]

/-- A line of the section has an ssrc of 32 bits. -/
theorem OneStream.idOf_line (h : OneStream media s x cname) {lines : List Json}
    (hlines : media.find "ssrcs" = some (.arr lines)) {line : Json} (hline : line ∈ lines) :
    ∃ k : ℕ, idOf line = some (k : ℤ) ∧ k < 2 ^ 32 := by
  obtain ⟨lines', hlines', -, hids, -⟩ := h.lines
  cases hlines.symm.trans hlines'
  rcases hids line hline with hid | ⟨r, hr, hid⟩
  · exact ⟨s, hid, h.range.1⟩
  · exact ⟨r, hid, h.range.2 r hr⟩

/-- A line with an ssrc has a number for it. -/
theorem isCnameLine_eq {line : Json} {k : ℤ} (hid : idOf line = some k) :
    isCnameLine line = hasAttribute "cname" line := by
  obtain ⟨j, hj, hint⟩ := Option.bind_eq_some_iff.mp hid
  have hnumber : j.isNumber = true := by
    cases j with
    | int _ => rfl
    | uint _ => rfl
    | _ => cases hint
  rw [isCnameLine, hj, Option.any_some, hnumber, Bool.and_true]

/-- What is left of a section with one stream. -/
theorem OneStream.written (h : OneStream media s x cname) {numStreams : UInt8}
    (hn : 2 ≤ numStreams.toNat) {media' : Json}
    (hok : addLegacySimulcast media numStreams = .ok media') :
    ∃ (first : ℕ) (msidValue : String), (msidLine media).bind idOf = some (first : ℤ) ∧
      first < 2 ^ 32 ∧
      Written media' (streamSsrcs first numStreams.toNat)
        (if (if first = s then x.getD 0 else 0) ≠ 0 then
          streamSsrcs (if first = s then x.getD 0 else 0) numStreams.toNat else [])
        cname msidValue := by
  obtain ⟨lines, hlines, -, hids, -, hcname⟩ := h.lines
  have hmany : ¬ numStreams ≤ 1 := by
    rw [UInt8.le_iff_toNat_le]
    exact fun hle => absurd hn (by simpa using Nat.lt_succ_of_le hle)
  unfold addLegacySimulcast at hok
  rw [if_neg hmany] at hok
  obtain ⟨mSsrcs, hread, hok⟩ := bind_ok.mp hok
  have hmSsrcs : mSsrcs = .arr lines := by
    rw [Json.readOrNull_ok (lift_ok.mp hread), hlines]
    rfl
  have helems : mSsrcs.elems = lines := by
    rw [hmSsrcs]
    rfl
  rw [helems] at hok
  cases hmsid : lines.find? (hasAttribute "msid") with
  | none =>
    rw [hmsid] at hok
    cases hok
  | some l =>
    rw [hmsid] at hok
    obtain ⟨msidValue, -, hok⟩ := bind_ok.mp hok
    obtain ⟨id, hid, hok⟩ := bind_ok.mp hok
    obtain ⟨first, hfirst, hok⟩ := bind_ok.mp hok
    obtain ⟨firstRtx, hrtx, hok⟩ := bind_ok.mp hok
    cases hcnameLine : lines.find? isCnameLine with
    | none =>
      rw [hcnameLine] at hok
      cases hok
    | some cnameLine =>
      rw [hcnameLine] at hok
      obtain ⟨value, hvalue, hok⟩ := bind_ok.mp hok
      obtain ⟨cname', hcname', hok⟩ := bind_ok.mp hok
      obtain ⟨k, hk, hlt⟩ := h.idOf_line hlines (List.mem_of_find?_eq_some hmsid)
      have hkfirst : first = k := by
        obtain ⟨j, hj, hint⟩ := Option.bind_eq_some_iff.mp hk
        have hread := Json.readOrNull_ok (lift_ok.mp hid)
        rw [hj, Option.getD_some] at hread
        subst hread
        have huint := (toUInt_integer hint 32).symm.trans (lift_ok.mp hfirst)
        cases huint
        omega
      subst hkfirst
      have hfirstRtx := h.firstRtx first
      cases hfirstRtx.symm.trans hrtx
      have hsame : lines.find? isCnameLine = lines.find? (hasAttribute "cname") := by
        refine List.find?_congr fun line hline => ?_
        obtain ⟨k, hk, -⟩ := h.idOf_line hlines hline
        exact isCnameLine_eq hk
      rw [← hsame, hcnameLine, Option.bind_some] at hcname
      have hname := Json.readOrNull_ok (lift_ok.mp hvalue)
      rw [hcname, Option.getD_some] at hname
      subst hname
      cases hcname'
      refine ⟨first, msidValue, ?_, hlt, written_of_writeStreams (lift_ok.mp hok)⟩
      rw [msidLine, hlines]
      exact (congrArg (Option.bind · idOf) hmsid).trans hk

theorem streamSsrcs_lt {first n ssrc : ℕ} (h : ssrc ∈ streamSsrcs first n) : ssrc < 2 ^ 32 := by
  obtain ⟨i, -, rfl⟩ := mem_streamSsrcs.mp h
  omega

theorem streamSsrcs_ne_nil {first n : ℕ} (hn : 2 ≤ n) : streamSsrcs first n ≠ [] := by
  intro h
  have hlen := length_streamSsrcs first n
  rw [h, List.length_nil] at hlen
  omega

/-- The first of the counted ssrcs is the one they are counted on from. -/
theorem first_of_streamSsrcs {a b n : ℕ} (ha : a < 2 ^ 32) (hb : b < 2 ^ 32) (hn : 2 ≤ n)
    (h : streamSsrcs a n = streamSsrcs b n) : a = b := by
  have hzero := congrArg (·[0]?) h
  simp only [streamSsrcs, List.getElem?_map, List.getElem?_range (show 0 < n by omega),
    Option.map_some, Option.some.injEq] at hzero
  omega

/-- Streams without retransmissions are read back as they are. -/
theorem Written.encodings_plain {first n : ℕ} {msidValue : String} (hn : 2 ≤ n) (hle : n ≤ 2 ^ 31)
    (h : Written media (streamSsrcs first n) [] cname msidValue) :
    ∃ encodings, getRtpEncodings media = .ok encodings ∧
      encodings.map ssrcOf = (streamSsrcs first n).map (fun ssrc : ℕ => some (ssrc : ℤ)) ∧
      ∀ i < n, (encodings.map rtxSsrcOf)[i]? = some none := by
  have hnd := nodup_streamSsrcs first (hle.trans (by decide))
  obtain ⟨encodings, hread, hssrcs, hrtx⟩ := h.encodings (streamSsrcs_ne_nil hn)
    (fun _ hk => streamSsrcs_lt (by simpa using hk)) (by simpa using hnd) (Nat.zero_le _)
  rw [length_streamSsrcs] at hrtx
  exact ⟨encodings, hread, hssrcs, fun i hi => by rw [hrtx i hi]; rfl⟩

/-- The encodings, by their positions. -/
theorem map_range_eq {encodings : List Json} {n : ℕ} {f : ℕ → Option ℤ}
    (hlen : encodings.length = n) (h : ∀ i < n, (encodings.map rtxSsrcOf)[i]? = some (f i)) :
    encodings.map rtxSsrcOf = (List.range n).map f := by
  refine List.ext_getElem? fun i => ?_
  by_cases hi : i < n
  · rw [h i hi, List.getElem?_map, List.getElem?_range hi, Option.map_some]
  · rw [List.getElem?_eq_none (by simp [hlen]; omega), List.getElem?_eq_none (by simp; omega)]

/-- CORRECT: the streams are read back exactly if the first msid line is of the first ssrc, and the
    retransmission has an ssrc other than 0 whose successors are apart from those of the stream. -/
theorem read_back_iff (h : OneStream media s x cname) {numStreams : UInt8} (hn : 2 ≤ numStreams)
    {media' : Json} (hok : addLegacySimulcast media numStreams = .ok media') :
    ReadBack media' s x numStreams.toNat cname ↔
      (msidLine media).bind idOf = some (s : ℤ) ∧ ∀ r ∈ x, Separate s r numStreams.toNat := by
  have hn' : 2 ≤ numStreams.toNat := UInt8.le_iff_toNat_le.mp hn
  have hle : numStreams.toNat ≤ 2 ^ 31 := by
    have hlt := numStreams.toNat_lt
    omega
  obtain ⟨first, msidValue, hfirst, hlt, hwritten⟩ := h.written hn' hok
  generalize numStreams.toNat = n at *
  constructor
  · rintro ⟨⟨encodings, hread, hssrcs, hrtxs⟩, hdistinct, -⟩
    have hplain : (if first = s then x.getD 0 else 0) = 0 → first = s ∧ x = none := by
      intro hzero
      rw [hzero, if_neg (not_not.mpr rfl)] at hwritten
      obtain ⟨encodings', hread', hssrcs', hrtxs'⟩ := hwritten.encodings_plain hn' hle
      cases hread.symm.trans hread'
      constructor
      · refine first_of_streamSsrcs hlt h.range.1 hn' ?_
        refine List.map_injective_iff.mpr (fun a b hab => ?_) (hssrcs'.symm.trans hssrcs)
        simpa using hab
      · have hnone := hrtxs' 0 (by omega)
        rw [hrtxs, List.getElem?_map, List.getElem?_range (by omega)] at hnone
        simpa using hnone
    by_cases hzero : (if first = s then x.getD 0 else 0) = 0
    · obtain ⟨rfl, rfl⟩ := hplain hzero
      exact ⟨hfirst, fun r hr => by cases hr⟩
    · split_ifs at hzero with hs
      · subst hs
        refine ⟨hfirst, fun r hr => ?_⟩
        cases hr
        refine ⟨by simpa using hzero, (disjoint_iff h.range.1 (h.range.2 r rfl) hle).mp ?_⟩
        exact List.disjoint_of_nodup_append hdistinct
      · exact absurd rfl hzero
  · rintro ⟨hmsid, hseparate⟩
    have hs : first = s := by
      have hcast := hfirst.symm.trans hmsid
      simpa using hcast
    subst hs
    rw [if_pos rfl] at hwritten
    have hnd := nodup_streamSsrcs first (hle.trans (by decide))
    cases x with
    | none =>
      obtain ⟨encodings, hread, hssrcs, hrtxs⟩ := hwritten.encodings_plain hn' hle
      have hlen : encodings.length = n := by
        have hlen := congrArg List.length hssrcs
        rwa [List.length_map, List.length_map, length_streamSsrcs] at hlen
      exact ⟨⟨encodings, hread, hssrcs, map_range_eq hlen hrtxs⟩,
        by simpa using hnd, hwritten.cname_eq (streamSsrcs_ne_nil hn')⟩
    | some r =>
      obtain ⟨hzero, hapart⟩ := hseparate r rfl
      have hdisjoint := (disjoint_iff hlt (h.range.2 r rfl) hle).mpr hapart
      have hall := hnd.append (nodup_streamSsrcs r (hle.trans (by decide))) hdisjoint
      rw [Option.getD_some, if_pos hzero] at hwritten
      obtain ⟨encodings, hread, hssrcs, hrtxs⟩ := hwritten.encodings (streamSsrcs_ne_nil hn')
        (fun k hk => (List.mem_append.mp hk).elim streamSsrcs_lt streamSsrcs_lt) hall
        (by rw [length_streamSsrcs, length_streamSsrcs])
      have hlen : encodings.length = n := by
        have hlen := congrArg List.length hssrcs
        rwa [List.length_map, List.length_map, length_streamSsrcs] at hlen
      refine ⟨⟨encodings, hread, hssrcs, map_range_eq hlen fun i hi => ?_⟩, hall,
        hwritten.cname_eq (streamSsrcs_ne_nil hn')⟩
      rw [hrtxs i (by rwa [length_streamSsrcs]), streamSsrcs, List.getElem?_map,
        List.getElem?_range hi]
      rfl

end

/-- A section with a stream and its retransmission. -/
def streamOffer (s r : ℕ) : Json := Json.object [
  ("ssrcs", .arr (streamLines "c" "a b" s)), ("ssrcGroups", .arr [fidOf s r])]

theorem streamOffer_oneStream {s r : ℕ} (hs : s < 2 ^ 32) (hr : r < 2 ^ 32) :
    OneStream (streamOffer s r) s (some r) "c" := by
  have hlines : (streamOffer s r).find "ssrcs" = some (.arr (streamLines "c" "a b" s)) := by
    simp [streamOffer, Json.object, Json.find, get_put]
  have hgroups : ssrcGroupsOf (streamOffer s r) = [fidOf s r] := by
    simp [ssrcGroupsOf, streamOffer, Json.object, Json.find, get_put, Json.elems]
  obtain ⟨hgroup, hfid, hmembers⟩ := fidOf_spec hs hr
  refine ⟨⟨_, hlines, ?_, fun line hline => Or.inl (idOf_streamLines line hline), ?_, ?_⟩,
    ⟨hs, fun k hk => ?_⟩, ?_, ?_⟩
  · simp [streamLines, idOf, Json.object, Json.find, get_put, integer]
  · simp [streamLines, hasAttribute, Json.object, Json.find, get_put]
  · simp [streamLines, hasAttribute, Json.object, Json.find, get_put]
  · cases hk
    exact hr
  · rw [hgroups]
    intro group hmem
    obtain rfl := List.mem_singleton.mp hmem
    exact ⟨hgroup, hfid⟩
  · rw [fidMembers, hgroups, List.filter_cons_of_pos hfid, List.filter_nil, List.map_singleton,
      hmembers]
    rfl

/-- Two streams from 1 and 9 on. -/
theorem read_back_apart : ∃ media', addLegacySimulcast (streamOffer 1 9) 2 = .ok media' ∧
    (ReadBack media' 1 (some 9) 2 "c" ↔
      (msidLine (streamOffer 1 9)).bind idOf = some (1 : ℤ) ∧ ∀ r ∈ some 9, Separate 1 r 2) :=
  ⟨_, rfl, read_back_iff (streamOffer_oneStream (s := 1) (r := 9) (by decide) (by decide))
    (show (2 : UInt8) ≤ 2 by decide) rfl⟩

/-- The retransmission of the first of two streams has the ssrc of the second. -/
theorem adjacent_ssrcs_meet : ¬ ∀ media s x cname (numStreams : UInt8) media',
    OneStream media s x cname → 2 ≤ numStreams → addLegacySimulcast media numStreams = .ok media' →
    ReadBack media' s x numStreams.toNat cname := by
  intro h
  have hread := h (streamOffer 1 2) 1 (some 2) "c" 2 _
    (streamOffer_oneStream (by decide) (by decide)) (by decide) rfl
  exact absurd hread.distinct (by decide)

end MediasoupClient.Sdp
