import MediasoupClient.Lib.FirstSeen
import MediasoupClient.Sdp.SdpUtil
import Mathlib.Data.List.TakeWhile

/-! The encodings of an offered section (sdputil/sdputil.cpp).

        a=ssrc:1 cname:x     ┐
        a=ssrc:1 msid:y z    ├─ unique ─▶  1 2  ─ remove 2 ─▶  { ssrc: 1, rtx: { ssrc: 2 } }
        a=ssrc:2 cname:x     ┘
        a=ssrc-group:FID 1 2

    `unique` looks at neighbours only, so an ssrc whose lines do not stand together is listed again. -/

namespace MediasoupClient.Sdp
open Lib

/-- The value of an integer. -/
def integer : Json → Option ℤ
  | .int i => some i
  | .uint n => some n
  | _ => none

/-- The ssrc of a line. -/
def idOf (line : Json) : Option ℤ := (line.find "id").bind integer

/-- The ssrcs of the lines, in order. -/
def lineIds (media : Json) : List ℤ := ((media.find "ssrcs").getD .null).elems.filterMap idOf

/-- The groups of a section. -/
def ssrcGroupsOf (media : Json) : List Json := ((media.find "ssrcGroups").getD .null).elems

/-- The members of a group, as they are written. -/
def memberTokens (group : Json) : List String :=
  match group.find "ssrcs" with
  | some (.str text) => split text ' '
  | _ => []

/-- The number that a token of digits stands for. -/
def tokenValue (token : String) : ℕ := decimal token.toList

def isFid (group : Json) : Bool :=
  match group.find "semantics" with
  | some (.str semantics) => semantics = "FID"
  | _ => false

/-- The members of the FID groups, in order. -/
def fidMembers (media : Json) : List (List ℕ) :=
  ((ssrcGroupsOf media).filter isFid).map fun group => (memberTokens group).map tokenValue

/-- The second members of the FID groups. -/
def seconds (groups : List (List ℕ)) : List ℤ := groups.filterMap fun g => (g[1]?).map (↑)

/-- The second member of the last group whose first one is the ssrc. -/
def lastRtx (groups : List (List ℕ)) (ssrc : ℤ) : Option ℤ :=
  (groups.reverse.find? fun g => decide (g.head?.map (↑) = some ssrc)).bind fun g => (g[1]?).map (↑)

/-- A decimal number of 32 bits. -/
structure IsSsrc (token : String) : Prop where
  digits : ∀ c ∈ token.toList, c.isDigit = true
  filled : token.toList ≠ []
  range : tokenValue token < 2 ^ 32

/-- A group whose members are such numbers. -/
structure SsrcGroup (group : Json) : Prop where
  semantics : ∃ semantics, group.find "semantics" = some (.str semantics)
  ssrcs : ∃ text, group.find "ssrcs" = some (.str text)
  members : ∀ token ∈ memberTokens group, IsSsrc token

/-- An offered section with ssrc lines. -/
structure SsrcsOffered (media : Json) : Prop where
  lines : ∃ lines, media.find "ssrcs" = some (.arr lines) ∧ lines ≠ [] ∧
    ∀ line ∈ lines, (idOf line).isSome = true
  groups : ∀ group ∈ ssrcGroupsOf media, SsrcGroup group

/-- The ssrc of an encoding. -/
def ssrcOf (encoding : Json) : Option ℤ := (encoding.find "ssrc").bind integer

/-- The ssrc of the retransmission of an encoding. -/
def rtxSsrcOf (encoding : Json) : Option ℤ :=
  (encoding.find "rtx").bind fun rtx => (rtx.find "ssrc").bind integer

/-- Each ssrc that is no retransmission has one encoding, with its own retransmission. -/
structure PairedOnce (media : Json) (encodings : List Json) : Prop where
  distinct : (encodings.map ssrcOf).Nodup
  primary : encodings.map ssrcOf =
    (((lineIds media).filter fun id => decide (id ∉ seconds (fidMembers media))).eraseDups).map some
  rtx : ∀ e ∈ encodings, rtxSsrcOf e = (ssrcOf e).bind (lastRtx (fidMembers media))

/-! ### Numbers -/

theorem toUInt_integer {j : Json} {i : ℤ} (h : integer j = some i) (w : ℕ) :
    j.toUInt w = .ok (i % 2 ^ w).toNat := by
  cases j with
  | int k => cases h; rfl
  | uint n =>
    cases h
    have hcast : ((n : ℤ) % 2 ^ w).toNat = n % 2 ^ w := by
      rw [← Int.toNat_natCast (n % 2 ^ w)]
      push_cast
      rfl
    rw [hcast]
    rfl
  | _ => cases h

/-- A digit is no blank and no sign. -/
theorem digit_plain {c : Char} (h : c.isDigit = true) : isSpace c = false ∧ c ≠ '-' ∧ c ≠ '+' := by
  simp only [Char.isDigit, Bool.and_eq_true, decide_eq_true_eq] at h
  have h48 : 48 ≤ c.toNat := h.1
  refine ⟨?_, ?_, ?_⟩
  · simp only [isSpace, Bool.or_eq_false_iff, decide_eq_false_iff_not]
    constructor
    · rintro rfl
      exact absurd h48 (by decide)
    · omega
  · rintro rfl
    exact absurd h48 (by decide)
  · rintro rfl
    exact absurd h48 (by decide)

theorem stoull_token {token : String} (h : IsSsrc token) :
    stoull token = .ok (tokenValue token) := by
  obtain ⟨hdigits, hfilled, hrange⟩ := h
  unfold stoull tokenValue at *
  cases hlist : token.toList with
  | nil => exact absurd hlist hfilled
  | cons c cs =>
    rw [hlist] at hdigits hrange
    obtain ⟨hspace, hminus, hplus⟩ := digit_plain (hdigits c List.mem_cons_self)
    have hall : (c :: cs).takeWhile Char.isDigit = c :: cs := List.takeWhile_eq_self_iff.mpr hdigits
    have hlt : ¬ 2 ^ 64 ≤ decimal (c :: cs) := by omega
    simp only [ne_eq] at hminus hplus
    simp [hspace, hminus, hplus]
    rw [hall]
    exact if_neg (by omega)

/-! ### The groups -/

/-- The first two members of a FID group. -/
def pairOf (group : Json) : Option (ℕ × ℕ) :=
  if isFid group then
    match (memberTokens group).map tokenValue with
    | ssrc :: rtxSsrc :: _ => some (ssrc, rtxSsrc)
    | _ => none
  else none

/-- The semantics of a group that is read. -/
theorem fidGroup_bind {group : Json} {semantics : String}
    (hs : group.find "semantics" = some (.str semantics)) {r : Option (ℕ × ℕ)} :
    fidGroup group = .ok r ↔ if semantics ≠ "FID" then r = none else
      ∃ text, group.find "ssrcs" = some (.str text) ∧ ∃ ssrc rtxSsrc rest,
        split text ' ' = ssrc :: rtxSsrc :: rest ∧ ∃ a b, stoull ssrc = .ok a ∧
          stoull rtxSsrc = .ok b ∧ r = some (a % 2 ^ 32, b % 2 ^ 32) := by
  have hread : group.read "semantics" = .ok (.str semantics) := Json.read_ok.mpr hs
  unfold fidGroup
  rw [hread]
  change (if semantics ≠ "FID" then (.ok none : Except Invalid (Option (ℕ × ℕ))) else _) = _ ↔ _
  split_ifs with hne
  · simp [eq_comm]
  · constructor
    · intro h
      obtain ⟨j, hj, h₁⟩ := bind_ok.mp h
      obtain ⟨text, htext, h₂⟩ := bind_ok.mp h₁
      have hfind := Json.read_ok.mp (lift_ok.mp hj)
      rw [Json.toStr_ok.mp (lift_ok.mp htext)] at hfind
      refine ⟨text, hfind, ?_⟩
      split at h₂
      · rename_i ssrc rtxSsrc rest hsplit
        obtain ⟨a, ha, h₃⟩ := bind_ok.mp h₂
        obtain ⟨b, hb, h₄⟩ := bind_ok.mp h₃
        cases h₄
        exact ⟨ssrc, rtxSsrc, rest, hsplit, a, b, ha, hb, rfl⟩
      · cases h₂
    · rintro ⟨text, hj, ssrc, rtxSsrc, rest, hsplit, a, b, ha, hb, rfl⟩
      refine bind_ok.mpr ⟨_, lift_ok.mpr (Json.read_ok.mpr hj), bind_ok.mpr ⟨text, rfl, ?_⟩⟩
      simp only [hsplit]
      exact bind_ok.mpr ⟨a, ha, bind_ok.mpr ⟨b, hb, rfl⟩⟩

theorem exists_cons_cons {α : Type} {xs : List α} (h : 2 ≤ xs.length) :
    ∃ a b rest, xs = a :: b :: rest := by
  rcases xs with _ | ⟨a, _ | ⟨b, rest⟩⟩
  · simp at h
  · simp at h
  · exact ⟨a, b, rest, rfl⟩

/-- A FID group is read if it has two members; of another group only the semantics is. -/
theorem fidGroup_ok {group : Json} (h : SsrcGroup group) {r : Option (ℕ × ℕ)} :
    fidGroup group = .ok r ↔
      (isFid group = true → 2 ≤ (memberTokens group).length) ∧ r = pairOf group := by
  obtain ⟨semantics, hs⟩ := h.semantics
  obtain ⟨text, ht⟩ := h.ssrcs
  have hmembers := h.members
  have hfid : isFid group = decide (semantics = "FID") := by rw [isFid, hs]
  have htokens : memberTokens group = split text ' ' := by rw [memberTokens, ht]
  rw [fidGroup_bind hs, pairOf, hfid, htokens]
  rw [htokens] at hmembers
  by_cases hne : semantics = "FID"
  · simp only [hne, ne_eq, not_true_eq_false, if_false, decide_true, if_true, true_imp_iff]
    constructor
    · rintro ⟨text', ht', ssrc, rtxSsrc, rest, hsplit, a, b, ha, hb, rfl⟩
      cases ht.symm.trans ht'
      rw [hsplit] at hmembers ⊢
      have hssrc := hmembers ssrc List.mem_cons_self
      have hrtx := hmembers rtxSsrc (List.mem_cons_of_mem _ List.mem_cons_self)
      cases (stoull_token hssrc).symm.trans ha
      cases (stoull_token hrtx).symm.trans hb
      refine ⟨by simp, ?_⟩
      rw [Nat.mod_eq_of_lt hssrc.range, Nat.mod_eq_of_lt hrtx.range]
      rfl
    · rintro ⟨hlen, rfl⟩
      obtain ⟨ssrc, rtxSsrc, rest, hsplit⟩ := exists_cons_cons hlen
      rw [hsplit] at hmembers ⊢
      have hssrc := hmembers ssrc List.mem_cons_self
      have hrtx := hmembers rtxSsrc (List.mem_cons_of_mem _ List.mem_cons_self)
      refine ⟨text, ht, ssrc, rtxSsrc, rest, hsplit, _, _, stoull_token hssrc, stoull_token hrtx, ?_⟩
      rw [Nat.mod_eq_of_lt hssrc.range, Nat.mod_eq_of_lt hrtx.range]
      rfl
  · simp [hne]

/-- A pair takes the ssrc of the retransmission out of the list. -/
def paired (st : List ℕ × StdMap ℕ ℕ) (p : ℕ × ℕ) : List ℕ × StdMap ℕ ℕ :=
  (st.1.filter (· ≠ p.2), st.2.insert p.1 p.2)

/-- What the loop over the groups leaves. -/
theorem pairRtx_ok {groups : List Json} (h : ∀ g ∈ groups, SsrcGroup g) {ssrcs : List ℕ}
    {r : List ℕ × StdMap ℕ ℕ} : pairRtx ssrcs groups = .ok r ↔
      (∀ g ∈ groups, isFid g = true → 2 ≤ (memberTokens g).length) ∧
        r = (groups.filterMap pairOf).foldl paired (ssrcs, .empty) := by
  unfold pairRtx
  generalize ((ssrcs, .empty) : List ℕ × StdMap ℕ ℕ) = st
  induction groups generalizing st with
  | nil =>
    rw [List.foldlM_nil]
    constructor
    · intro hr
      cases hr
      exact ⟨fun g hg => absurd hg List.not_mem_nil, rfl⟩
    · rintro ⟨-, rfl⟩
      rfl
  | cons g groups ih =>
    have hg := h g List.mem_cons_self
    have ih' := ih (fun x hx => h x (List.mem_cons_of_mem _ hx))
    rw [List.foldlM_cons, List.forall_mem_cons]
    constructor
    · intro hr
      obtain ⟨st', hst, hr⟩ := bind_ok.mp hr
      obtain ⟨p, hp, hst⟩ := bind_ok.mp hst
      obtain ⟨hlen, rfl⟩ := (fidGroup_ok hg).mp hp
      cases hpair : pairOf g with
      | none =>
        rw [hpair] at hst
        cases hst
        obtain ⟨hall, rfl⟩ := (ih' _).mp hr
        exact ⟨⟨hlen, hall⟩, by rw [List.filterMap_cons_none hpair]⟩
      | some p =>
        rw [hpair] at hst
        cases hst
        obtain ⟨hall, rfl⟩ := (ih' _).mp hr
        exact ⟨⟨hlen, hall⟩, by rw [List.filterMap_cons_some hpair]; rfl⟩
    · rintro ⟨⟨hlen, hall⟩, hr⟩
      have hp := (fidGroup_ok hg).mpr ⟨hlen, rfl⟩
      cases hpair : pairOf g with
      | none =>
        rw [hpair] at hp
        rw [List.filterMap_cons_none hpair] at hr
        exact bind_ok.mpr ⟨st, bind_ok.mpr ⟨none, hp, rfl⟩, (ih' st).mpr ⟨hall, hr⟩⟩
      | some p =>
        rw [hpair] at hp
        rw [List.filterMap_cons_some hpair] at hr
        exact bind_ok.mpr ⟨paired st p, bind_ok.mpr ⟨some p, hp, rfl⟩, (ih' _).mpr ⟨hall, hr⟩⟩

/-- The ssrcs that are left. -/
theorem foldl_paired_fst (pairs : List (ℕ × ℕ)) (st : List ℕ × StdMap ℕ ℕ) :
    (pairs.foldl paired st).1 = st.1.filter fun s => decide (s ∉ pairs.map (·.2)) := by
  induction pairs generalizing st with
  | nil => simp
  | cons p pairs ih =>
    rw [List.foldl_cons, ih, paired, List.filter_filter]
    refine List.filter_congr fun s _ => Bool.eq_iff_iff.mpr ?_
    simp only [Bool.and_eq_true, decide_eq_true_eq, List.map_cons, List.mem_cons, not_or]
    exact and_comm

/-- The last pair of an ssrc counts. -/
theorem foldl_paired_get (pairs : List (ℕ × ℕ)) (st : List ℕ × StdMap ℕ ℕ) (k : ℕ) :
    (pairs.foldl paired st).2.get k =
      ((pairs.reverse.find? fun p => decide (p.1 = k)).map (·.2)).or (st.2.get k) := by
  induction pairs using List.reverseRecOn with
  | nil => rfl
  | append_singleton pairs p ih =>
    rw [List.foldl_concat, List.reverse_concat, List.find?_cons, paired, StdMap.get_insert]
    by_cases hk : k = p.1
    · simp [hk]
    · simp [hk, Ne.symm hk, ih]

/-- A pair and the group it is taken from. -/
def FirstTwo (members : List ℕ) (p : ℕ × ℕ) : Prop :=
  members.head? = some p.1 ∧ members[1]? = some p.2

theorem pairs_members {groups : List Json}
    (h : ∀ g ∈ groups, isFid g = true → 2 ≤ (memberTokens g).length) :
    List.Forall₂ FirstTwo ((groups.filter isFid).map fun g => (memberTokens g).map tokenValue)
      (groups.filterMap pairOf) := by
  induction groups with
  | nil => exact .nil
  | cons g groups ih =>
    obtain ⟨hg, hrest⟩ := List.forall_mem_cons.mp h
    cases hfid : isFid g with
    | false =>
      have hpair : pairOf g = none := by
        rw [pairOf, hfid]
        rfl
      rw [List.filter_cons_of_neg (by simp [hfid]), List.filterMap_cons_none hpair]
      exact ih hrest
    | true =>
      obtain ⟨a, b, rest, htokens⟩ := exists_cons_cons (hg hfid)
      have hpair : pairOf g = some (tokenValue a, tokenValue b) := by
        rw [pairOf, hfid, htokens]
        rfl
      rw [List.filter_cons_of_pos hfid, List.filterMap_cons_some hpair, List.map_cons, htokens]
      exact .cons ⟨rfl, rfl⟩ (ih hrest)

theorem seconds_eq {groups : List (List ℕ)} {pairs : List (ℕ × ℕ)}
    (h : List.Forall₂ FirstTwo groups pairs) : seconds groups = (pairs.map (·.2)).map (↑) := by
  induction h with
  | nil => rfl
  | cons hg _ ih =>
    unfold seconds at ih ⊢
    rw [List.filterMap_cons_some (by rw [hg.2]; rfl), ih]
    rfl

theorem lastRtx_eq {groups : List (List ℕ)} {pairs : List (ℕ × ℕ)}
    (h : List.Forall₂ FirstTwo groups pairs) (k : ℕ) : lastRtx groups k =
      ((pairs.reverse.find? fun p => decide (p.1 = k)).map (·.2)).map (↑) := by
  unfold lastRtx
  have hrev := List.rel_reverse h
  generalize groups.reverse = gs at hrev ⊢
  generalize pairs.reverse = ps at hrev ⊢
  induction hrev with
  | nil => rfl
  | @cons g p gs ps hg _ ih =>
    rw [List.find?_cons, List.find?_cons, hg.1]
    by_cases hk : p.1 = k
    · simp [hk, hg.2]
    · simpa [hk] using ih

/-! ### The encodings -/

/-- The ssrc that is read of an id. -/
def toSsrc (id : ℤ) : ℕ := (id % 2 ^ 32).toNat

theorem toSsrc_lt (id : ℤ) : toSsrc id < 2 ^ 32 := by
  unfold toSsrc
  omega

theorem toSsrc_cast {id : ℤ} (h : 0 ≤ id ∧ id < 2 ^ 32) : (toSsrc id : ℤ) = id := by
  unfold toSsrc
  rw [Int.emod_eq_of_lt h.1 h.2]
  exact Int.toNat_of_nonneg h.1

theorem ssrcOf_rtpEncoding (rtxs : StdMap ℕ ℕ) (ssrc : ℕ) :
    ssrcOf (rtpEncoding rtxs ssrc) = some (ssrc : ℤ) := by
  unfold rtpEncoding ssrcOf
  cases rtxs.get ssrc with
  | none => rfl
  | some rtxSsrc => simp [Json.object, Json.find, get_put, integer]

theorem rtxSsrcOf_rtpEncoding (rtxs : StdMap ℕ ℕ) (ssrc : ℕ) :
    rtxSsrcOf (rtpEncoding rtxs ssrc) = (rtxs.get ssrc).map (↑) := by
  unfold rtpEncoding rtxSsrcOf
  cases rtxs.get ssrc with
  | none => rfl
  | some rtxSsrc => simp [Json.object, Json.find, get_put, integer]

theorem ids_read {lines : List Json} (h : ∀ line ∈ lines, (idOf line).isSome = true) :
    (lines.mapM fun line => do (← line.read "id").toUInt 32 : Except Invalid (List ℕ)) =
      .ok ((lines.filterMap idOf).map toSsrc) := by
  induction lines with
  | nil => rfl
  | cons line lines ih =>
    obtain ⟨hline, hrest⟩ := List.forall_mem_cons.mp h
    obtain ⟨id, hid⟩ := Option.isSome_iff_exists.mp hline
    obtain ⟨j, hj, hint⟩ := Option.bind_eq_some_iff.mp hid
    rw [List.mapM_cons, List.filterMap_cons_some hid]
    exact bind_ok.mpr ⟨toSsrc id, bind_ok.mpr ⟨j,
      lift_ok.mpr (Json.read_ok.mpr hj), lift_ok.mpr (toUInt_integer hint 32)⟩,
      bind_ok.mpr ⟨_, ih hrest, rfl⟩⟩

theorem getRtpEncodings_ok {media : Json} (h : SsrcsOffered media) {encodings : List Json} :
    getRtpEncodings media = .ok encodings ↔
      (∀ g ∈ ssrcGroupsOf media, isFid g = true → 2 ≤ (memberTokens g).length) ∧
        ∃ st, st = ((ssrcGroupsOf media).filterMap pairOf).foldl paired
            (((lineIds media).map toSsrc).destutter (· ≠ ·), .empty) ∧
          encodings = st.1.map (rtpEncoding st.2) := by
  obtain ⟨lines, hlines, hne, hids⟩ := h.lines
  have hlist : lineIds media = lines.filterMap idOf := by rw [lineIds, hlines]; rfl
  have hread : media.read "ssrcs" = .ok (.arr lines) := Json.read_ok.mpr hlines
  rw [hlist]
  have hmap := ids_read hids
  have hfilled : ((lines.filterMap idOf).map toSsrc).isEmpty = false := by
    obtain ⟨line, rest, rfl⟩ := List.exists_cons_of_ne_nil hne
    obtain ⟨id, hid⟩ := Option.isSome_iff_exists.mp (hids line List.mem_cons_self)
    rw [List.filterMap_cons_some hid]
    rfl
  constructor
  · intro hr
    obtain ⟨j, hj, hr⟩ := bind_ok.mp hr
    cases hread.symm.trans (lift_ok.mp hj)
    obtain ⟨ssrcs, hssrcs, hr⟩ := bind_ok.mp hr
    cases hmap.symm.trans hssrcs
    rw [hfilled] at hr
    obtain ⟨st, hst, hr⟩ := bind_ok.mp hr
    cases hr
    obtain ⟨hall, rfl⟩ := (pairRtx_ok h.groups).mp hst
    exact ⟨hall, _, rfl, rfl⟩
  · rintro ⟨hall, st, hst, rfl⟩
    refine bind_ok.mpr ⟨_, lift_ok.mpr hread, bind_ok.mpr ⟨_, hmap, ?_⟩⟩
    rw [hfilled]
    exact bind_ok.mpr ⟨st, (pairRtx_ok h.groups).mpr ⟨hall, hst⟩, rfl⟩

/-! ### Each ssrc once -/

/-- The section can be paired: the ids are ssrcs, the FID groups are pairs, and the lines of an ssrc
    that is no retransmission stand together. -/
structure Pairable (media : Json) : Prop where
  ids : ∀ id ∈ lineIds media, 0 ≤ id ∧ id < 2 ^ 32
  pairs : ∀ members ∈ fidMembers media, 2 ≤ members.length
  together : ∀ id ∈ lineIds media, id ∉ seconds (fidMembers media) → Together id (lineIds media)

section
variable {media : Json}

theorem fidMembers_pairs : (∀ members ∈ fidMembers media, 2 ≤ members.length) ↔
    ∀ g ∈ ssrcGroupsOf media, isFid g = true → 2 ≤ (memberTokens g).length := by
  unfold fidMembers
  rw [List.forall_mem_map]
  simp only [List.mem_filter, and_imp, List.length_map]

/-- The ssrcs of the encodings, for whatever ids. -/
theorem ssrcs_returned {encodings : List Json} {st : List ℕ × StdMap ℕ ℕ}
    {pairs : List (ℕ × ℕ)} (hpairs : List.Forall₂ FirstTwo (fidMembers media) pairs)
    (hst : st = pairs.foldl paired (((lineIds media).map toSsrc).destutter (· ≠ ·), .empty))
    (hencodings : encodings = st.1.map (rtpEncoding st.2)) :
    encodings.map ssrcOf =
      (((((lineIds media).map toSsrc).map (Nat.cast : ℕ → ℤ)).destutter (· ≠ ·)).filter fun id =>
        decide (id ∉ seconds (fidMembers media))).map some := by
  have hcompose : ssrcOf ∘ rtpEncoding st.2 = fun s : ℕ => some (s : ℤ) :=
    funext fun s => ssrcOf_rtpEncoding st.2 s
  rw [hencodings, List.map_map, hcompose, hst, foldl_paired_fst, seconds_eq hpairs,
    ← List.map_destutter_ne _ Nat.cast_injective, List.filter_map, List.map_map]
  refine congrArg _ (List.filter_congr fun s _ => Bool.eq_iff_iff.mpr ?_)
  simp

/-- The ids that are listed, if they are of 32 bits. -/
theorem cast_toSsrc (h : ∀ id ∈ lineIds media, 0 ≤ id ∧ id < 2 ^ 32) :
    ((lineIds media).map toSsrc).map (Nat.cast : ℕ → ℤ) = lineIds media := by
  rw [List.map_map]
  refine (List.map_congr_left fun id hid => ?_).trans (List.map_id _)
  exact toSsrc_cast (h id hid)

/-- A retransmission is an ssrc. -/
theorem seconds_range (h : SsrcsOffered media) {id : ℤ} (hid : id ∈ seconds (fidMembers media)) :
    0 ≤ id ∧ id < 2 ^ 32 := by
  obtain ⟨members, hmembers, hsecond⟩ := List.mem_filterMap.mp hid
  obtain ⟨g, hg, rfl⟩ := List.mem_map.mp hmembers
  obtain ⟨n, hn, rfl⟩ := Option.map_eq_some_iff.mp hsecond
  obtain ⟨token, htoken, rfl⟩ := List.mem_map.mp (List.mem_of_getElem? hn)
  have hrange := ((h.groups g (List.mem_filter.mp hg).1).members token htoken).range
  omega

/-- CORRECT: each ssrc is paired once exactly if the section can be paired. -/
theorem paired_once_iff (h : SsrcsOffered media) :
    (∃ encodings, getRtpEncodings media = .ok encodings ∧ PairedOnce media encodings) ↔
      Pairable media := by
  constructor
  · rintro ⟨encodings, hreturned, hpaired⟩
    obtain ⟨hall, st, hst, hencodings⟩ := (getRtpEncodings_ok h).mp hreturned
    have hssrcs := ssrcs_returned (pairs_members hall) hst hencodings
    have hids : ∀ id ∈ lineIds media, 0 ≤ id ∧ id < 2 ^ 32 := by
      intro id hid
      by_cases hsecond : id ∈ seconds (fidMembers media)
      · exact seconds_range h hsecond
      · -- an ssrc that is listed is one that has been read
        have hlisted : some id ∈ encodings.map ssrcOf := by
          rw [hpaired.primary]
          refine List.mem_map_of_mem (List.mem_eraseDups.mpr (List.mem_filter.mpr ⟨hid, ?_⟩))
          exact decide_eq_true hsecond
        rw [hssrcs, List.mem_map] at hlisted
        obtain ⟨_, hmem, heq⟩ := hlisted
        cases heq
        obtain ⟨s, hs, rfl⟩ := List.mem_map.mp (mem_destutter.mp (List.mem_filter.mp hmem).1)
        obtain ⟨id', -, rfl⟩ := List.mem_map.mp hs
        have hlt := toSsrc_lt id'
        omega
    refine ⟨hids, fidMembers_pairs.mpr hall, fun id hid hsecond => ?_⟩
    rw [cast_toSsrc hids, hpaired.primary] at hssrcs
    have heq := List.map_injective_iff.mpr (Option.some_injective _) hssrcs
    exact filter_destutter_iff.mp heq.symm id hid (decide_eq_true hsecond)
  · rintro ⟨hids, hpairs, htogether⟩
    have hall := fidMembers_pairs.mp hpairs
    obtain ⟨st, hst⟩ : ∃ st, st = ((ssrcGroupsOf media).filterMap pairOf).foldl paired
      (((lineIds media).map toSsrc).destutter (· ≠ ·), .empty) := ⟨_, rfl⟩
    have hmembers : List.Forall₂ FirstTwo (fidMembers media) _ := pairs_members hall
    have hprimary := ssrcs_returned hmembers hst rfl
    rw [cast_toSsrc hids, filter_destutter_iff.mpr fun id hid hp =>
      htogether id hid (of_decide_eq_true hp)] at hprimary
    refine ⟨_, (getRtpEncodings_ok h).mpr ⟨hall, st, hst, rfl⟩, ?_, hprimary, fun e he => ?_⟩
    · rw [hprimary]
      exact (nodup_eraseDups _).map (Option.some_injective _)
    · obtain ⟨s, -, rfl⟩ := List.mem_map.mp he
      rw [ssrcOf_rtpEncoding, rtxSsrcOf_rtpEncoding, Option.bind_some,
        lastRtx_eq hmembers, hst, foldl_paired_get]
      exact congrArg _ (Option.or_none)

end

def ssrcLine (id : ℕ) : Json := .object [("id", .uint id), ("attribute", .str "cname")]

/-- A section with a line for each id, where 3 is the retransmission of 1. -/
def offerOf (ids : List ℕ) : Json := .object [
  ("ssrcs", .arr (ids.map ssrcLine)),
  ("ssrcGroups", .arr [.object [("semantics", .str "FID"), ("ssrcs", .str "1 3")]])]

theorem offerOf_offered {ids : List ℕ} (h : ids ≠ []) : SsrcsOffered (offerOf ids) := by
  have hlines : (offerOf ids).find "ssrcs" = some (.arr (ids.map ssrcLine)) := by
    simp [offerOf, Json.object, Json.find, get_put]
  have hgroups : ssrcGroupsOf (offerOf ids) =
      [.object [("semantics", .str "FID"), ("ssrcs", .str "1 3")]] := by
    simp [ssrcGroupsOf, offerOf, Json.object, Json.find, get_put, Json.elems]
  refine ⟨⟨ids.map ssrcLine, hlines, by simpa using h, fun line hline => ?_⟩, fun group hgroup => ?_⟩
  · obtain ⟨id, -, rfl⟩ := List.mem_map.mp hline
    simp [idOf, ssrcLine, Json.object, Json.find, get_put, integer]
  · rw [hgroups] at hgroup
    obtain rfl := List.mem_singleton.mp hgroup
    have htokens : memberTokens (.object [("semantics", .str "FID"), ("ssrcs", .str "1 3")]) =
        ["1", "3"] := rfl
    refine ⟨⟨_, rfl⟩, ⟨_, rfl⟩, fun token htoken => ?_⟩
    rw [htokens, List.mem_cons, List.mem_singleton] at htoken
    rcases htoken with rfl | rfl
    · exact ⟨List.all_eq_true.mp (by decide), by decide, by decide⟩
    · exact ⟨List.all_eq_true.mp (by decide), by decide, by decide⟩

theorem paired_once_audio :
    (∃ encodings, getRtpEncodings (offerOf [1, 1, 3, 3]) = .ok encodings ∧
      PairedOnce (offerOf [1, 1, 3, 3]) encodings) ↔ Pairable (offerOf [1, 1, 3, 3]) :=
  paired_once_iff (offerOf_offered (List.cons_ne_nil _ _))

/-- The lines of two ssrcs in turn: the first ssrc has two encodings. -/
theorem interleaved_ssrc_twice :
    ¬ ∀ media, SsrcsOffered media →
      ∃ encodings, getRtpEncodings media = .ok encodings ∧ PairedOnce media encodings := by
  intro h
  obtain ⟨encodings, hreturned, hpaired⟩ :=
    h (offerOf [1, 2, 1]) (offerOf_offered (List.cons_ne_nil _ _))
  obtain ⟨returned, hr, hssrcs⟩ := exists_of_map (fun encodings : List Json => encodings.map ssrcOf)
    (show (getRtpEncodings (offerOf [1, 2, 1])).toOption.map _ = some [some 1, some 2, some 1] from rfl)
  cases hr.symm.trans hreturned
  have hdistinct := hpaired.distinct
  rw [hssrcs] at hdistinct
  exact absurd hdistinct (by decide)

end MediasoupClient.Sdp
