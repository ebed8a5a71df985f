import MediasoupClient.Sdp.NormalForm
import MediasoupClient.Sdp.OfferLines
import MediasoupClient.Sdp.SimulcastGrammar

/-! What the constructor of an answer reads of the offered section (sdputil/MediaSection.cpp).

        offered section   ──▶   type, mid, protocol
                          ──▶   ext         for each header extension of the answer, up to its uri
                          ──▶   simulcast   with it the rids, and of it the first list

    All of them are read of a const value, where an absent member is not defined to be read. If the
    other arguments are validated ones, that is all that can go wrong. -/

namespace MediasoupClient.Sdp
open Lib

/-! ### What the constructor reads -/

/-- What the constructor is given besides the offered section. -/
structure Arguments where
  iceParameters : Json
  iceCandidates : Json
  dtlsParameters : Json
  sctpParameters : Json
  offerRtpParameters : Json
  answerRtpParameters : Json
  codecOptions : Option Json

def Arguments.answer (a : Arguments) (offer : Json) : Except Fault (MediaSection × Json) :=
  answerMediaSection a.iceParameters a.iceCandidates a.dtlsParameters a.sctpParameters offer
    a.offerRtpParameters a.answerRtpParameters a.codecOptions

/-- An audio or video section. -/
def IsMedia (offer : Json) : Prop :=
  offer.find "type" = some (.str "audio") ∨ offer.find "type" = some (.str "video")

/-- The other arguments are in order. -/
structure Ready (a : Arguments) (offer : Json) : Prop where
  base : ∃ base, MediaSection.base a.iceParameters a.iceCandidates = .ok base
  role : ∃ role, a.dtlsParameters.find "role" = some (.str role)
  codecs : ∃ codecs lines payloads, a.answerRtpParameters.readOrNull "codecs" = .ok codecs ∧
    answerCodecs a.codecOptions a.offerRtpParameters (codecs.elems.map Json.touched) = .ok lines ∧
    payloadsLine Json.readOrNull (codecs.elems.map Json.touched) = .ok payloads
  extensions : ∀ ext ∈ headerExtensionsOf a.answerRtpParameters, ext.isObject = true
  sctp : offer.find "type" = some (.str "application") → ∃ body, sctpBody a.sctpParameters = .ok body

/-- The search for a uri meets no line without one. -/
def Searched (uri : Json) : List Json → Prop
  | [] => True
  | line :: lines => ∃ u, line.find "uri" = some u ∧ (u.eqv uri = true ∨ Searched uri lines)

/-- The search for each extension. -/
def ExtRead (offer : Json) (exts : List Json) : Prop :=
  ∀ ext ∈ exts, ∃ lines, offer.find "ext" = some (.arr lines) ∧
    Searched ((ext.find "uri").getD .null) lines

/-- A simulcast line has rid lines with it. -/
def RidsRead (offer : Json) : Prop :=
  (offer.find "simulcast").isSome = true → (offer.find "rids").isSome = true

/-- What is read of the offered section is there. -/
structure AllRead (a : Arguments) (offer : Json) : Prop where
  header : ∀ key ∈ ["type", "mid", "protocol"], (offer.find key).isSome = true
  media : IsMedia offer → ExtRead offer (headerExtensionsOf a.answerRtpParameters) ∧ RidsRead offer

/-- A member of an object is read, if it is there. -/
theorem read_of_object {j : Json} (h : j.isObject = true) (key : String) :
    j.read key = match j.find key with
      | some v => .ok v
      | none => .error .undefined := by
  cases j with
  | obj m => rfl
  | _ => cases h

theorem findIdx_found {p : Json → Except Fault Bool} {x : Json} (h : p x = .ok true)
    (xs : List Json) : findIdx p (x :: xs) = .ok (some 0) := by
  rw [findIdx, h]
  rfl

theorem findIdx_next {p : Json → Except Fault Bool} {x : Json} (h : p x = .ok false)
    (xs : List Json) : findIdx p (x :: xs) = (findIdx p xs).map (Option.map (· + 1)) := by
  rw [findIdx, h, ok_bind, if_neg (by decide)]
  cases findIdx p xs <;> rfl

theorem findIdx_fails {p : Json → Except Fault Bool} {x : Json} {e : Fault} (h : p x = .error e)
    (xs : List Json) : findIdx p (x :: xs) = .error e := by
  rw [findIdx, h]
  rfl

/-- Whether an extension of the offer is the same one. -/
def isLocalExt (ext localExt : Json) : Except Fault Bool :=
  return (← localExt.read "uri").eqv (← ext.readOrNull "uri")

/-- The search ends, unless it meets a line without a uri. -/
theorem search_cases {ext : Json} (he : ext.isObject = true) {lines : List Json}
    (h : ∀ line ∈ lines, line.isObject = true) :
    Searched ((ext.find "uri").getD .null) lines ∧
        (∃ idx, findIdx (isLocalExt ext) lines = .ok idx) ∨
      ¬ Searched ((ext.find "uri").getD .null) lines ∧
        findIdx (isLocalExt ext) lines = .error .undefined := by
  induction lines with
  | nil => exact Or.inl ⟨trivial, none, rfl⟩
  | cons line lines ih =>
    obtain ⟨hline, hlines⟩ := List.forall_mem_cons.mp h
    have hread := read_of_object hline "uri"
    cases hu : line.find "uri" with
    | none =>
      rw [hu] at hread
      refine Or.inr ⟨?_, findIdx_fails (by rw [isLocalExt, hread]; rfl) _⟩
      rintro ⟨u, hu', -⟩
      rw [hu] at hu'
      cases hu'
    | some u =>
      rw [hu] at hread
      have hsame : isLocalExt ext line = .ok (u.eqv ((ext.find "uri").getD .null)) := by
        rw [isLocalExt, hread, readOrNull_of_isObject he]
        rfl
      have hsearched : Searched ((ext.find "uri").getD .null) (line :: lines) ↔
          u.eqv ((ext.find "uri").getD .null) = true ∨
            Searched ((ext.find "uri").getD .null) lines := by
        rw [Searched, hu]
        simp
      rw [hsearched]
      cases heqv : u.eqv ((ext.find "uri").getD .null) with
      | true =>
        rw [heqv] at hsame
        exact Or.inl ⟨Or.inl rfl, some 0, findIdx_found hsame _⟩
      | false =>
        rw [heqv] at hsame
        rw [findIdx_next hsame]
        rcases ih hlines with ⟨hs, idx, hidx⟩ | ⟨hs, hidx⟩
        · exact Or.inl ⟨Or.inr hs, idx.map (· + 1), by rw [hidx]; rfl⟩
        · exact Or.inr ⟨fun hc => hc.elim (fun hc => by cases hc) hs, by rw [hidx]; rfl⟩

/-- One turn of the loop over the extensions. -/
def extStep (offer : Json) (acc : List Json) (ext : Json) : Except Fault (List Json) := do
  let localExts ← offer.read "ext"
  let idx ← findIdx (isLocalExt ext) localExts.elems
  match idx with
  | none => return acc
  | some _ =>
    return acc ++ [Json.object [("uri", ← ext.readOrNull "uri"), ("value", ← ext.readOrNull "id")]]

theorem extStep_cases {offer ext : Json} (ho : offer.isObject = true)
    (hshape : ∀ v, offer.find "ext" = some v → ∃ lines, v = .arr lines ∧
      ∀ line ∈ lines, line.isObject = true) (he : ext.isObject = true) (acc : List Json) :
    (∃ lines, offer.find "ext" = some (.arr lines) ∧
        Searched ((ext.find "uri").getD .null) lines) ∧ (∃ out, extStep offer acc ext = .ok out) ∨
      ¬ (∃ lines, offer.find "ext" = some (.arr lines) ∧
        Searched ((ext.find "uri").getD .null) lines) ∧
        extStep offer acc ext = .error .undefined := by
  have hread := read_of_object ho "ext"
  unfold extStep
  cases hext : offer.find "ext" with
  | none =>
    rw [hext] at hread
    refine Or.inr ⟨fun ⟨_, h, _⟩ => (by cases h), ?_⟩
    rw [hread]
    rfl
  | some v =>
    obtain ⟨lines, rfl, hlines⟩ := hshape v hext
    rw [hext] at hread
    simp only [hread, ok_bind, Json.elems, Option.some.injEq, Json.arr.injEq, exists_eq_left']
    rcases search_cases he hlines with ⟨hs, idx, hidx⟩ | ⟨hs, hidx⟩
    · refine Or.inl ⟨hs, ?_⟩
      rw [hidx, ok_bind]
      cases idx with
      | none => exact ⟨_, rfl⟩
      | some idx =>
        rw [readOrNull_of_isObject he, readOrNull_of_isObject he]
        exact ⟨_, rfl⟩
    · refine Or.inr ⟨hs, ?_⟩
      rw [hidx]
      rfl

theorem answerExt_cases {offer : Json} (ho : offer.isObject = true)
    (hshape : ∀ v, offer.find "ext" = some v → ∃ lines, v = .arr lines ∧
      ∀ line ∈ lines, line.isObject = true) {exts : List Json}
    (hexts : ∀ ext ∈ exts, ext.isObject = true) :
    ExtRead offer exts ∧ (∃ out, answerExt offer exts = .ok out) ∨
      ¬ ExtRead offer exts ∧ answerExt offer exts = .error .undefined :=
  foldlM_cases (f := extStep offer) (fun ext hext acc => extStep_cases ho hshape (hexts ext hext) acc)
    []

/-! ### What the answer has -/

/-- A line of this direction. -/
def hasDirection (key direction : String) (line : Json) : Bool :=
  match line.find key with
  | some (.str d) => d = direction
  | _ => false

/-- The rid lines of the answer. -/
def answerRids (rids : List Json) : List Json :=
  (rids.filter (hasDirection "direction" "send")).map fun rid =>
    Json.object [("id", (rid.find "id").getD .null), ("direction", .str "recv")]

theorem RidLine.isObject {rid : Json} (h : RidLine rid) : rid.isObject = true := by
  obtain ⟨id, hid⟩ := h.id
  cases rid with
  | obj m => rfl
  | _ => cases hid

/-- The answer to a simulcast line copies its first list, and turns the rid lines that send. -/
theorem answerSimulcast_line {offer simulcast list1 : Json} {rids : List Json}
    (hs : offer.find "simulcast" = some simulcast) (hobj : simulcast.isObject = true)
    (hlist1 : simulcast.find "list1" = some list1) (hr : offer.find "rids" = some (.arr rids))
    (hlines : ∀ rid ∈ rids, RidLine rid) :
    answerSimulcast offer = .ok (some (list1, answerRids rids)) := by
  have hloop : ∀ (rids acc : List Json), (∀ rid ∈ rids, RidLine rid) →
      rids.foldlM (fun acc rid => do
        if (← rid.read "direction").eqv (.str "send") then
          return acc ++ [Json.object [("id", ← rid.read "id"), ("direction", .str "recv")]]
        else return acc) acc = (.ok (acc ++ answerRids rids) : Except Fault (List Json)) := by
    intro rids
    induction rids with
    | nil => intro acc _; simp [answerRids, pure, Except.pure]
    | cons rid rids ih =>
      intro acc hlines
      obtain ⟨hline, hlines⟩ := List.forall_mem_cons.mp hlines
      obtain ⟨id, hid⟩ := hline.id
      obtain ⟨direction, hdir⟩ := hline.direction
      rw [List.foldlM_cons, Json.read_ok.mpr hdir, Json.read_ok.mpr hid]
      by_cases hsend : direction = "send"
      · subst hsend
        have hfirst : answerRids (rid :: rids) =
            Json.object [("id", .str id), ("direction", .str "recv")] :: answerRids rids := by
          rw [answerRids, List.filter_cons_of_pos (by simp [hasDirection, hdir]), List.map_cons, hid]
          rfl
        rw [hfirst, List.append_cons]
        exact ih _ hlines
      · have hfirst : answerRids (rid :: rids) = answerRids rids := by
          rw [answerRids, List.filter_cons_of_neg (by simp [hasDirection, hdir, hsend])]
          rfl
        have hne : (Json.str direction).eqv (.str "send") = false := by
          simpa [Json.eqv] using hsend
        rw [hfirst, ok_bind, hne]
        exact ih _ hlines
  cases simulcast with
  | obj members =>
    unfold answerSimulcast
    rw [hs, hr]
    simp only [Json.read_ok.mpr hlist1, ok_bind, hloop rids [] hlines]
    rfl
  | _ => cases hobj

/-- The answer to the simulcast line, if there is one and all of it is there. -/
theorem answerSimulcast_cases {offer : Json}
    (hsimulcast : ∀ v, offer.find "simulcast" = some v → SimulcastLine v)
    (hrids : ∀ v, offer.find "rids" = some v → ∃ rids, v = .arr rids ∧ ∀ rid ∈ rids, RidLine rid) :
    (offer.find "simulcast" = none ∧ answerSimulcast offer = .ok none) ∨
    (∃ simulcast list1 rids, offer.find "simulcast" = some simulcast ∧
      simulcast.find "list1" = some list1 ∧ offer.find "rids" = some (.arr rids) ∧
      answerSimulcast offer = .ok (some (list1, answerRids rids))) ∨
    (¬ RidsRead offer ∧ answerSimulcast offer = .error .undefined) := by
  cases hs : offer.find "simulcast" with
  | none =>
    refine Or.inl ⟨rfl, ?_⟩
    unfold answerSimulcast
    rw [hs]
    cases offer.find "rids" <;> rfl
  | some simulcast =>
    have hline := hsimulcast simulcast hs
    obtain ⟨dir1, list1, -, -, hlist1⟩ := hline.first
    cases hr : offer.find "rids" with
    | none =>
      refine Or.inr (Or.inr ⟨?_, ?_⟩)
      · rw [RidsRead, hs, hr]
        exact fun h => absurd (h rfl) (by decide)
      · cases simulcast with
        | obj members =>
          unfold answerSimulcast
          rw [hs, hr]
        | _ => cases hline.isObject
    | some v =>
      obtain ⟨rids, rfl, hall⟩ := hrids v hr
      exact Or.inr (Or.inl ⟨simulcast, _, rids, rfl, hlist1, rfl,
        answerSimulcast_line hs hline.isObject hlist1 hr hall⟩)

theorem FromGrammar.find {offer : Json} (h : FromGrammar offer) :
    ∃ m, OfferShape m ∧ ∀ key ∈ readKeys, offer.find key = get key m := by
  obtain ⟨media, attributes, hkeys⟩ := h.lines
  exact ⟨_, mediaObjectOf_shape media attributes, hkeys⟩

section
variable {a : Arguments} {offer : Json}

/-- The body of an audio or video section. -/
theorem answerMedia_cases (h : FromGrammar offer) (hr : Ready a offer) :
    (ExtRead offer (headerExtensionsOf a.answerRtpParameters) ∧ RidsRead offer) ∧
      (∃ lines payloads ext mixed simulcast o, answerSimulcast offer = .ok simulcast ∧
        answerMedia offer a.offerRtpParameters a.answerRtpParameters a.codecOptions =
          .ok (.answer lines payloads ext mixed simulcast, o)) ∨
    ¬ (ExtRead offer (headerExtensionsOf a.answerRtpParameters) ∧ RidsRead offer) ∧
      answerMedia offer a.offerRtpParameters a.answerRtpParameters a.codecOptions =
        .error .undefined := by
  obtain ⟨m, hshape, hfind⟩ := h.find
  obtain ⟨codecs, ⟨lines, o⟩, payloads, hcodecs, hlines, hpayloads⟩ := hr.codecs
  have hexts : a.answerRtpParameters.readOrNull "headerExtensions" =
      .ok ((a.answerRtpParameters.find "headerExtensions").getD .null) := by
    cases hp : a.answerRtpParameters with
    | obj members => rfl
    | null => rfl
    | _ => rw [hp] at hcodecs; cases hcodecs
  unfold answerMedia
  simp only [hcodecs, hlines, hpayloads, hexts, ok_bind]
  rcases answerExt_cases h.isObject (fun v hv => hshape.ext v (by rw [← hfind _ (by decide), hv]))
    hr.extensions with ⟨hread, ext, hext⟩ | ⟨hnot, hext⟩
  · have hext' : answerExt offer ((a.answerRtpParameters.find "headerExtensions").getD .null).elems =
        .ok ext := hext
    rw [hext', ok_bind]
    rcases answerSimulcast_cases
        (fun v hv => hshape.simulcast v (by rw [← hfind _ (by decide), hv]))
        (fun v hv => hshape.rids v (by rw [← hfind _ (by decide), hv])) with
      ⟨hnone, hs⟩ | ⟨_, _, _, -, -, hrids, hs⟩ | ⟨hrids, hs⟩
    · refine Or.inl ⟨⟨hread, fun hsome => ?_⟩, ?_⟩
      · rw [hnone] at hsome
        cases hsome
      · rw [hs]
        exact ⟨_, _, _, _, _, _, rfl, rfl⟩
    · refine Or.inl ⟨⟨hread, fun _ => by rw [hrids]; rfl⟩, ?_⟩
      rw [hs]
      exact ⟨_, _, _, _, _, _, rfl, rfl⟩
    · refine Or.inr ⟨fun hall => hrids hall.2, ?_⟩
      rw [hs]
      rfl
  · have hext' : answerExt offer ((a.answerRtpParameters.find "headerExtensions").getD .null).elems =
        .error .undefined := hext
    refine Or.inr ⟨fun hall => hnot hall.1, ?_⟩
    rw [hext']
    rfl

/-- The members that simulcast sets in the section. -/
theorem get_answer_simulcast {m : StdMap String Json} (hs : m.get "simulcast" = none)
    (hr : m.get "rids" = none) (lines : RtpLines) (payloads : String) (ext : List Json)
    (mixed : Bool) (simulcast : Option (Json × List Json)) :
    (assign m (Body.answer lines payloads ext mixed simulcast).assignments).get "simulcast" =
        simulcast.map (fun p => Json.object [("dir1", .str "recv"), ("list1", p.1)]) ∧
      (assign m (Body.answer lines payloads ext mixed simulcast).assignments).get "rids" =
        simulcast.map (fun p => .arr p.2) := by
  cases mixed <;> cases simulcast <;>
    simp [Body.answer, mediaLines, rtcpLines, assign, StdMap.get_insert, hs, hr]

/-- The keys that are assigned before the body. -/
def headerKeys : List String :=
  ["iceUfrag", "icePwd", "candidates", "endOfCandidates", "iceOptions", "mid", "type", "protocol",
    "connection", "port", "setup"]

/-- What comes before the body says nothing of its other members. -/
theorem get_header_other {iceParameters iceCandidates : Json} {base : StdMap String Json}
    (h : MediaSection.base iceParameters iceCandidates = .ok base) {key : String}
    (hkey : key ∉ headerKeys) (mid type protocol : Json) (setup : Option String) :
    (MediaSection.header base mid type protocol setup).get key = none := by
  obtain ⟨_, -, h⟩ := bind_ok.mp h
  obtain ⟨_, -, h⟩ := bind_ok.mp h
  obtain ⟨_, -, h⟩ := bind_ok.mp h
  cases h
  simp only [headerKeys, List.mem_cons, List.not_mem_nil, or_false, not_or] at hkey
  cases setup <;> simp [MediaSection.header, assign, StdMap.get_insert, hkey]

/-- The simulcast lines of a section that answers an offered one. -/
structure Answered (offer : Json) (s : MediaSection) : Prop where
  media : IsMedia offer → ∃ simulcast, answerSimulcast offer = .ok simulcast ∧
    s.mediaObject.get "simulcast" =
      simulcast.map (fun p => Json.object [("dir1", .str "recv"), ("list1", p.1)]) ∧
    s.mediaObject.get "rids" = simulcast.map (fun p => .arr p.2)
  other : ¬ IsMedia offer → s.mediaObject.get "simulcast" = none ∧ s.mediaObject.get "rids" = none

/-- The body of a section of any type. -/
theorem answerBody_cases (h : FromGrammar offer) (hr : Ready a offer) {type : String}
    (ht : offer.find "type" = some (.str type)) :
    (IsMedia offer → ExtRead offer (headerExtensionsOf a.answerRtpParameters) ∧ RidsRead offer) ∧
      (∃ body o, answerBody type a.sctpParameters offer a.offerRtpParameters a.answerRtpParameters
          a.codecOptions = .ok (body, o) ∧
        ((IsMedia offer ∧ ∃ lines payloads ext mixed simulcast,
            answerSimulcast offer = .ok simulcast ∧
            body = .answer lines payloads ext mixed simulcast) ∨
          ¬ IsMedia offer ∧ ∀ kv ∈ body.assignments, kv.1 ≠ "simulcast" ∧ kv.1 ≠ "rids")) ∨
    ¬ (IsMedia offer → ExtRead offer (headerExtensionsOf a.answerRtpParameters) ∧ RidsRead offer) ∧
      answerBody type a.sctpParameters offer a.offerRtpParameters a.answerRtpParameters
        a.codecOptions = .error .undefined := by
  have hmedia : IsMedia offer ↔ type = "audio" ∨ type = "video" := by
    rw [IsMedia, ht]
    simp
  unfold answerBody
  by_cases hm : type = "audio" ∨ type = "video"
  · have hismedia := hmedia.mpr hm
    rw [if_pos hm]
    rcases answerMedia_cases h hr with ⟨hread, lines, payloads, ext, mixed, simulcast, o, hs, hok⟩ |
      ⟨hnot, herr⟩
    · exact Or.inl ⟨fun _ => hread, _, o, hok,
        Or.inl ⟨hismedia, lines, payloads, ext, mixed, simulcast, hs, rfl⟩⟩
    · exact Or.inr ⟨fun hall => hnot (hall hismedia), herr⟩
  · have hother : ¬ IsMedia offer := fun hc => hm (hmedia.mp hc)
    rw [if_neg hm]
    by_cases happ : type = "application"
    · subst happ
      obtain ⟨body, hbody⟩ := hr.sctp ht
      refine Or.inl ⟨fun hc => absurd hc hother, body, a.offerRtpParameters, ?_,
        Or.inr ⟨hother, ?_⟩⟩
      · rw [if_pos rfl, hbody]
        rfl
      · obtain ⟨_, -, hbody⟩ := bind_ok.mp hbody
        obtain ⟨_, -, hbody⟩ := bind_ok.mp hbody
        cases hbody
        simp
    · exact Or.inl ⟨fun hc => absurd hc hother, .empty, a.offerRtpParameters,
        by rw [if_neg happ]; rfl, Or.inr ⟨hother, fun kv hkv => absurd hkv List.not_mem_nil⟩⟩

/-- The constructor makes a section, or reads what is not there. -/
theorem answer_cases (h : FromGrammar offer) (hr : Ready a offer) :
    AllRead a offer ∧ (∃ s o, a.answer offer = .ok (s, o) ∧ Answered offer s) ∨
      ¬ AllRead a offer ∧ a.answer offer = .error .undefined := by
  obtain ⟨base, hbase⟩ := hr.base
  obtain ⟨role, hrole⟩ := hr.role
  obtain ⟨m, hshape, hfind⟩ := h.find
  have hmissing : ∀ {key : String}, key ∈ ["type", "mid", "protocol"] → offer.find key = none →
      ¬ AllRead a offer := by
    intro key hkey hnone hall
    have hsome := hall.header key hkey
    rw [hnone] at hsome
    cases hsome
  unfold Arguments.answer answerMediaSection
  simp only [hbase, ok_bind, read_of_object h.isObject]
  cases ht : offer.find "type" with
  | none => exact Or.inr ⟨hmissing (by simp) ht, rfl⟩
  | some v =>
    obtain ⟨type, rfl⟩ := hshape.type v (by rw [← hfind _ (by decide), ht])
    simp only [Json.toStr, ok_bind]
    cases hmid : offer.find "mid" with
    | none => exact Or.inr ⟨hmissing (by simp) hmid, rfl⟩
    | some mid =>
      cases hp : offer.find "protocol" with
      | none => exact Or.inr ⟨hmissing (by simp) hp, rfl⟩
      | some protocol =>
        have hheader : ∀ key ∈ ["type", "mid", "protocol"], (offer.find key).isSome = true := by
          simp [ht, hmid, hp]
        simp only [ok_bind, Json.read_ok.mpr hrole]
        rcases answerBody_cases h hr ht with ⟨hread, body, o, hok, hbody⟩ | ⟨hnot, herr⟩
        · refine Or.inl ⟨⟨hheader, hread⟩, _, o, by rw [hok]; rfl, ?_⟩
          have hother := fun {key : String} (hkey : key ∉ headerKeys) => get_header_other hbase hkey
            mid (.str type) protocol (MediaSection.setupOf role)
          have hs := hother (by decide : "simulcast" ∉ headerKeys)
          have hrids := hother (by decide : "rids" ∉ headerKeys)
          rcases hbody with ⟨hm, lines, payloads, ext, mixed, simulcast, hsim, rfl⟩ | ⟨hm, hkeys⟩
          · exact ⟨fun _ => ⟨simulcast, hsim,
              get_answer_simulcast hs hrids lines payloads ext mixed simulcast⟩,
              fun hc => absurd hm hc⟩
          · refine ⟨fun hc => absurd hc hm, fun _ => ⟨?_, ?_⟩⟩
            · exact (get_assign fun kv hkv => (hkeys kv hkv).1).trans hs
            · exact (get_assign fun kv hkv => (hkeys kv hkv).2).trans hrids
        · refine Or.inr ⟨fun hall => hnot hall.media, ?_⟩
          rw [herr]
          rfl

end

/-! ### Arguments that are in order -/

theorem isText_str {j : Json} (h : isText j = true) : ∃ s, j = .str s := by
  cases j with
  | str s => exact ⟨s, rfl⟩
  | _ => cases h

/-- The base of a section is made of validated parameters. -/
theorem base_of_valid {ice ice' candidates candidates' : Json}
    (hice : validateIceParameters ice = .ok ice')
    (hcandidates : validateIceCandidates candidates = .ok candidates') :
    ∃ base, MediaSection.base ice' candidates' = .ok base := by
  cases ice with
  | obj m =>
    obtain ⟨_, hufrag, hice⟩ := bind_ok.mp hice
    obtain ⟨_, hpwd, hice⟩ := bind_ok.mp hice
    cases hice
    obtain ⟨ufrag, hget, -⟩ := has_iff.mp (require_ok.mp hufrag)
    obtain ⟨pwd, hget', -⟩ := has_iff.mp (require_ok.mp hpwd)
    have hfind : ∀ {key : String} {v : Json}, key ≠ "iceLite" → get key m = some v →
        (Json.obj (orDefault "iceLite" Json.isBoolean (.bool false) m)).find key = some v := by
      intro key v hne hv
      change get key _ = some v
      rw [get_orDefault, if_neg fun hc => hne hc.1, hv]
    unfold MediaSection.base
    rw [Json.read_ok.mpr (hfind (by decide) hget), Json.read_ok.mpr (hfind (by decide) hget'), ok_bind,
      ok_bind]
    refine bind_total ?_ fun _ => ⟨_, rfl⟩
    cases candidates with
    | arr items =>
      obtain ⟨items', hmap, hcandidates⟩ := bind_ok.mp hcandidates
      cases hcandidates
      refine mapM_total fun c hc => ?_
      obtain ⟨c₀, -, hval⟩ := mem_of_forall₂ (mapM_ok hmap) hc
      cases c₀ with
      | obj params =>
        obtain ⟨_, h1, hval⟩ := bind_ok.mp hval
        obtain ⟨_, h2, hval⟩ := bind_ok.mp hval
        obtain ⟨_, h3, hval⟩ := bind_ok.mp hval
        obtain ⟨_, h4, hval⟩ := bind_ok.mp hval
        obtain ⟨_, -, hval⟩ := bind_ok.mp hval
        obtain ⟨_, h5, hval⟩ := bind_ok.mp hval
        obtain ⟨_, h6, hval⟩ := bind_ok.mp hval
        obtain ⟨_, -, hval⟩ := bind_ok.mp hval
        cases hval
        have hread : ∀ {text key : String} {p : Json → Bool} {u : Unit},
            require text (has params key p) = .ok u → ∃ v, (Json.obj params).read key = .ok v := by
          intro text key p u hreq
          obtain ⟨v, hv, -⟩ := has_iff.mp (require_ok.mp hreq)
          exact ⟨v, Json.read_ok.mpr hv⟩
        unfold MediaSection.candidateObject
        exact bind_total (hread h1) fun _ => bind_total (hread h3) fun _ =>
          bind_total (hread h5) fun _ => bind_total (hread h2) fun _ =>
            bind_total (hread h4) fun _ => bind_total (hread h6) fun _ => ⟨_, rfl⟩
      | _ => cases hval
    | _ => cases hcandidates
  | _ => cases hice

theorem role_of_valid {dtls dtls' : Json} (h : validateDtlsParameters dtls = .ok dtls') :
    ∃ role, dtls'.find "role" = some (.str role) := by
  cases dtls with
  | obj m =>
    obtain ⟨_, hrole, h⟩ := bind_ok.mp h
    obtain ⟨_, -, h⟩ := bind_ok.mp h
    obtain ⟨_, -, h⟩ := bind_ok.mp h
    obtain ⟨m', hm', h⟩ := bind_ok.mp h
    cases h
    obtain ⟨v, hv, htext⟩ := has_iff.mp (require_ok.mp hrole)
    obtain ⟨role, rfl⟩ := isText_str htext
    exact ⟨role, ((eachElement_ok hm').1 _ (by decide)).trans hv⟩
  | _ => cases h

/-- A validated codec can be printed. -/
theorem codecReady_of_valid {c c' : Json} (h : validateRtpCodecParameters c = .ok c') :
    CodecReady c' := by
  have hnormal := validateRtpCodecParameters_normal h
  obtain ⟨codec, _, codec', -, -, rfl, hpt, hrest⟩ := validateRtpCodecParameters_ok h
  obtain ⟨payloadType, hpt, hint⟩ := has_iff.mp hpt
  obtain ⟨n, hn⟩ := toUInt_of_integer hint 8
  obtain ⟨clockRate, hclock, -⟩ := has_iff.mp hrest.clockRate
  obtain ⟨feedback, hfeedback, hall⟩ := hnormal.rtcpFeedback
  obtain ⟨mimeType, _, hmime, -, -, hchannels⟩ := hnormal.channels
  obtain ⟨parameters, hparameters, -⟩ := hnormal.parameters
  refine ⟨⟨payloadType, n, (hrest.others _ (by decide)).trans hpt, hn⟩, ⟨mimeType, hmime⟩,
    ⟨clockRate, (hrest.others _ (by decide)).trans hclock⟩,
    fun v hv => toUInt_of_integer (hchannels v hv) 8, ⟨_, hparameters⟩,
    ⟨_, hfeedback, fun fb hfb => ?_⟩⟩
  obtain ⟨type, parameter, ht, hp⟩ := hall fb hfb
  exact ⟨_, _, ht, hp⟩

theorem readOrNull_of_find {j v : Json} {key : String} (h : j.find key = some v) :
    j.readOrNull key = .ok v := by
  cases j with
  | obj m =>
    rw [readOrNull_of_isObject rfl, h]
    rfl
  | _ => cases h

/-- One turn of the codec loop of an answer without options. -/
theorem answerCodec_total {codec : Json} (h : CodecReady codec) (lines : RtpLines) :
    ∃ lines', (do
      let rtp ← rtpLine Json.readOrNull codec
      let codecParameters ← codec.readOrNull "parameters"
      codecLines Json.readOrNull lines rtp codec codecParameters) = .ok lines' :=
  codecLines_total readOrNull_of_find h lines

/-- The lines of validated codecs can be printed, if there are no options to apply. -/
theorem lines_of_valid {params valid : Json} (h : validateRtpParameters params = .ok valid)
    (offerRtpParameters : Json) :
    ∃ codecs lines payloads, valid.readOrNull "codecs" = .ok codecs ∧
      answerCodecs none offerRtpParameters (codecs.elems.map Json.touched) = .ok lines ∧
      payloadsLine Json.readOrNull (codecs.elems.map Json.touched) = .ok payloads := by
  obtain ⟨_, params', -, rfl, hok⟩ := validateRtpParameters_ok h
  obtain ⟨_, codecs, -, hcodecs, hget⟩ := hok.codecs
  have hvalid : ∀ c ∈ (Json.arr codecs).elems.map Json.touched, CodecReady c := by
    intro c hc
    obtain ⟨c', hmem, rfl⟩ := List.mem_map.mp hc
    obtain ⟨_, -, hval⟩ := mem_of_forall₂ (mapM_ok hcodecs) hmem
    obtain ⟨_, _, _, -, -, rfl, -⟩ := validateRtpCodecParameters_ok hval
    exact codecReady_of_valid hval
  have hlines : ∃ lines, answerCodecs none offerRtpParameters
      ((Json.arr codecs).elems.map Json.touched) = .ok lines := by
    refine foldlM_total (fun c hc st => ?_) _
    obtain ⟨lines, hturn⟩ := answerCodec_total (hvalid c hc) st.1
    obtain ⟨rtp, hrtp, hturn⟩ := bind_ok.mp hturn
    obtain ⟨parameters, hparameters, hturn⟩ := bind_ok.mp hturn
    refine ⟨(lines, st.2), bind_ok.mpr ⟨rtp, hrtp, bind_ok.mpr ⟨parameters, hparameters, ?_⟩⟩⟩
    change (codecLines Json.readOrNull st.1 rtp c parameters >>= fun lines => pure (lines, st.2)) = _
    rw [hturn]
    rfl
  obtain ⟨payloads, hpayloads⟩ : ∃ payloads, payloadsLine Json.readOrNull
      ((Json.arr codecs).elems.map Json.touched) = .ok payloads := by
    refine foldlM_total (fun c hc payloads => ?_) ""
    obtain ⟨v, n, hv, hn⟩ := (hvalid c hc).payloadType
    rw [readOrNull_of_find hv, ok_bind, hn]
    exact ⟨_, rfl⟩
  obtain ⟨lines, hlines⟩ := hlines
  exact ⟨.arr codecs, lines, payloads, readOrNull_of_find hget, hlines, hpayloads⟩

/-- Validated arguments without codec options are in order. -/
theorem ready_of_valid {ice candidates dtls sctp params : Json} {a : Arguments}
    (hice : validateIceParameters ice = .ok a.iceParameters)
    (hcandidates : validateIceCandidates candidates = .ok a.iceCandidates)
    (hdtls : validateDtlsParameters dtls = .ok a.dtlsParameters)
    (hsctp : validateSctpParameters sctp = .ok a.sctpParameters)
    (hparams : validateRtpParameters params = .ok a.answerRtpParameters)
    (hoptions : a.codecOptions = none) (offer : Json) : Ready a offer := by
  refine ⟨base_of_valid hice hcandidates, role_of_valid hdtls, ?_, fun ext hext => ?_, fun _ => ?_⟩
  · rw [hoptions]
    exact lines_of_valid hparams a.offerRtpParameters
  · obtain ⟨exts, hget, hall⟩ := (validateRtpParameters_normal hparams).headerExtensions
    rw [headerExtensionsOf, hget] at hext
    obtain ⟨⟨b, hb⟩, -⟩ := hall ext hext
    cases ext with
    | obj m => rfl
    | _ => cases hb
  · cases sctp with
    | obj m =>
      obtain ⟨_, hport, hsctp⟩ := bind_ok.mp hsctp
      obtain ⟨_, -, hsctp⟩ := bind_ok.mp hsctp
      obtain ⟨_, -, hsctp⟩ := bind_ok.mp hsctp
      obtain ⟨_, hsize, hsctp⟩ := bind_ok.mp hsctp
      obtain ⟨port, hport, -⟩ := has_iff.mp (require_ok.mp hport)
      obtain ⟨size, hsize, -⟩ := has_iff.mp (require_ok.mp hsize)
      rw [← Except.ok.inj hsctp]
      exact bind_total ⟨port, Json.read_ok.mpr hport⟩ fun _ =>
        bind_total ⟨size, Json.read_ok.mpr hsize⟩ fun _ => ⟨_, rfl⟩
    | _ => cases hsctp

end MediasoupClient.Sdp
