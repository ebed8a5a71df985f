import MediasoupClient.Sdp.AnswerSection

/-! The simulcast line of an answer (sdputil/MediaSection.cpp).

        offer                             answer
        a=rid:a send                      a=rid:a recv
        a=rid:b recv
        a=simulcast:send a recv b  ──▶    a=simulcast:recv a
        a=simulcast:recv b send a  ──▶    a=simulcast:recv b

    The answer copies the list that comes first, whatever its direction, and takes rid lines for
    granted. -/

namespace MediasoupClient.Sdp
open Lib

/-! ### The answer mirrors the offer -/

/-- The list behind a direction. -/
def listOf (direction : String) (simulcast : Json) : Option Json :=
  if hasDirection "dir1" direction simulcast then simulcast.find "list1"
  else if hasDirection "dir2" direction simulcast then simulcast.find "list2"
  else none

/-- The streams that `parseSimulcastStreamList` finds in a list: alternatives stand between commas,
    and a paused one behind `~`. -/
def streamIds (list : String) : List String :=
  ((split list ';').flatMap fun item => (split item ',').filter (· ≠ "")).map fun format =>
    match format.toList with
    | '~' :: scid => String.ofList scid
    | _ => format

/-- There is a rid line of this stream. -/
def HasRid (rids : Option Json) (id direction : String) : Prop :=
  ∃ lines rid, rids = some (.arr lines) ∧ rid ∈ lines ∧ rid.find "id" = some (.str id) ∧
    rid.find "direction" = some (.str direction)

/-- What the answer says about simulcast is what the offer says, from the other side. -/
structure MirrorsSimulcast (offer : Json) (s : MediaSection) : Prop where
  sends : ∀ list, (offer.find "simulcast").bind (listOf "send") = some list →
    (offer.find "rids").isSome = true →
      s.mediaObject.get "simulcast" =
        some (Json.object [("dir1", .str "recv"), ("list1", list)]) ∧
      ∀ text id, list = .str text → id ∈ streamIds text → HasRid (offer.find "rids") id "send" →
        HasRid (s.mediaObject.get "rids") id "recv"
  receives : (offer.find "simulcast").bind (listOf "send") = none →
    (s.mediaObject.get "simulcast").bind (listOf "recv") = none

/-- Nothing absent is read, and the section that is made mirrors the offered one. -/
def AnswersSimulcast (offer : Json) (r : Except Fault (MediaSection × Json)) : Prop :=
  r ≠ .error .undefined ∧ ∀ s o, r = .ok (s, o) → MirrorsSimulcast offer s

/-- The first list is the one that is sent, or the second one says the same. -/
def FirstListSent (simulcast : Json) : Prop :=
  hasDirection "dir1" "send" simulcast = true ∨
    hasDirection "dir2" "send" simulcast = true ∧ simulcast.find "list2" = simulcast.find "list1"

/-- What is read is there, a simulcast line of an audio or video section has its send list first,
    and one of another section has none with rid lines. -/
structure SimulcastAnswerable (a : Arguments) (offer : Json) : Prop where
  reads : AllRead a offer
  media : IsMedia offer → ∀ simulcast, offer.find "simulcast" = some simulcast →
    FirstListSent simulcast
  other : ¬ IsMedia offer → (offer.find "simulcast").bind (listOf "send") = none ∨
    offer.find "rids" = none

theorem firstListSent_iff {simulcast list1 : Json} (h : simulcast.find "list1" = some list1) :
    FirstListSent simulcast ↔ listOf "send" simulcast = some list1 := by
  unfold FirstListSent listOf
  split_ifs with h1 h2
  · exact iff_of_true (Or.inl h1) h
  · rw [h]
    exact ⟨fun hc => hc.elim (fun hc => absurd hc h1) And.right, fun hc => Or.inr ⟨h2, hc⟩⟩
  · refine iff_of_false ?_ (by simp)
    rintro (hc | hc)
    · exact h1 hc
    · exact h2 hc.1

/-- What the answer receives is the list it has. -/
theorem listOf_answer (list1 : Json) :
    listOf "recv" (Json.object [("dir1", .str "recv"), ("list1", list1)]) = some list1 := by
  simp [listOf, hasDirection, Json.object, Json.find, get_put]

/-- The rid lines that send are turned. -/
theorem hasRid_answer {rids : List Json} {id : String} (h : HasRid (some (.arr rids)) id "send") :
    HasRid (some (.arr (answerRids rids))) id "recv" := by
  obtain ⟨lines, rid, heq, hmem, hid, hdir⟩ := h
  cases heq
  refine ⟨_, Json.object [("id", .str id), ("direction", .str "recv")], rfl, ?_,
    by simp [Json.object, Json.find, get_put], by simp [Json.object, Json.find, get_put]⟩
  refine List.mem_map.mpr ⟨rid, List.mem_filter.mpr ⟨hmem, ?_⟩, ?_⟩
  · simp [hasDirection, hdir]
  · rw [hid]
    rfl

theorem mirrors_iff {offer : Json} {s : MediaSection} (h : FromGrammar offer)
    (ha : Answered offer s) : MirrorsSimulcast offer s ↔
      (IsMedia offer → ∀ simulcast, offer.find "simulcast" = some simulcast →
        FirstListSent simulcast) ∧
      (¬ IsMedia offer → (offer.find "simulcast").bind (listOf "send") = none ∨
        offer.find "rids" = none) := by
  obtain ⟨m, hshape, hfind⟩ := h.find
  by_cases hm : IsMedia offer
  · have hother : ¬ IsMedia offer → (offer.find "simulcast").bind (listOf "send") = none ∨
        offer.find "rids" = none := fun hc => absurd hm hc
    rw [and_iff_left hother, imp_iff_right hm]
    obtain ⟨answered, hok, hsim, hrids⟩ := ha.media hm
    rcases answerSimulcast_cases
        (fun v hv => hshape.simulcast v (by rw [← hfind _ (by decide), hv]))
        (fun v hv => hshape.rids v (by rw [← hfind _ (by decide), hv])) with
      ⟨hnone, hs⟩ | ⟨simulcast, list1, rids, hsome, hlist1, hr, hs⟩ | ⟨-, hs⟩
    · cases hok.symm.trans hs
      refine iff_of_true ⟨fun list hlist => ?_, fun _ => by rw [hsim]; rfl⟩ fun simulcast hc => ?_
      · rw [hnone] at hlist
        cases hlist
      · rw [hnone] at hc
        cases hc
    · cases hok.symm.trans hs
      have hcond : (∀ j, offer.find "simulcast" = some j → FirstListSent j) ↔
          listOf "send" simulcast = some list1 := by
        rw [← firstListSent_iff hlist1, hsome]
        simp
      rw [hcond]
      constructor
      · intro hmirrors
        cases hlist : listOf "send" simulcast with
        | none =>
          -- a list that is received only is copied all the same
          have hno := hmirrors.receives (by rw [hsome]; exact hlist)
          rw [hsim, Option.map_some, Option.bind_some, listOf_answer] at hno
          cases hno
        | some list =>
          have hcopied := (hmirrors.sends list (by rw [hsome]; exact hlist) (by rw [hr]; rfl)).1
          rw [hsim, Option.map_some, Option.some.injEq] at hcopied
          have hlists := congrArg (listOf "recv") hcopied
          rw [listOf_answer, listOf_answer] at hlists
          exact hlists.symm
      · intro hlist
        refine ⟨fun list hl _ => ?_, fun hno => ?_⟩
        · rw [hsome] at hl
          cases hlist.symm.trans hl
          refine ⟨hsim, fun text id _ _ hrid => ?_⟩
          rw [hr] at hrid
          rw [hrids]
          exact hasRid_answer hrid
        · rw [hsome] at hno
          cases hlist.symm.trans hno
    · cases hok.symm.trans hs
  · have hmedia : IsMedia offer → ∀ simulcast, offer.find "simulcast" = some simulcast →
        FirstListSent simulcast := fun hc => absurd hc hm
    rw [and_iff_right hmedia, imp_iff_right hm]
    obtain ⟨hsim, hrids⟩ := ha.other hm
    constructor
    · intro hmirrors
      cases hlist : (offer.find "simulcast").bind (listOf "send") with
      | none => exact Or.inl rfl
      | some list =>
        refine Or.inr ?_
        cases hr : offer.find "rids" with
        | none => rfl
        | some rids =>
          have hcopied := (hmirrors.sends list hlist (by rw [hr]; rfl)).1
          rw [hsim] at hcopied
          cases hcopied
    · intro hno
      refine ⟨fun list hlist hr => ?_, fun _ => by rw [hsim]; rfl⟩
      rcases hno with hno | hno
      · rw [hlist] at hno
        cases hno
      · rw [hno] at hr
        cases hr

/-- CORRECT: the simulcast answer mirrors the offer exactly if what is read is there and the list
    that comes first is the one that is sent. -/
theorem answers_simulcast_iff {a : Arguments} {offer : Json} (h : FromGrammar offer)
    (hr : Ready a offer) :
    AnswersSimulcast offer (a.answer offer) ↔ SimulcastAnswerable a offer := by
  rcases answer_cases h hr with ⟨hread, s, o, hok, ha⟩ | ⟨hnot, herr⟩
  · have hresult : AnswersSimulcast offer (a.answer offer) ↔ MirrorsSimulcast offer s := by
      rw [AnswersSimulcast, hok]
      refine ⟨fun hc => hc.2 s o rfl, fun hc => ⟨fun h => (by cases h), fun s' o' heq => ?_⟩⟩
      cases heq
      exact hc
    rw [hresult, mirrors_iff h ha]
    exact ⟨fun ⟨hmedia, hother⟩ => ⟨hread, hmedia, hother⟩, fun hc => ⟨hc.media, hc.other⟩⟩
  · refine iff_of_false (fun hc => hc.1 herr) fun hc => hnot hc.reads

/-- Arguments for an answer to one codec and one header extension. -/
def videoArguments : Arguments where
  iceParameters := Json.object
    [("usernameFragment", .str "u"), ("password", .str "p"), ("iceLite", .bool true)]
  iceCandidates := .arr []
  dtlsParameters := Json.object [("role", .str "auto"), ("fingerprints", .arr [Json.object
    [("algorithm", .str "sha-1"), ("value", .str "0")]])]
  sctpParameters := Json.object
    [("port", .int 5000), ("OS", .int 1), ("MIS", .int 1), ("maxMessageSize", .int 1)]
  offerRtpParameters := .null
  answerRtpParameters := Json.object [
    ("codecs", .arr [Json.object [("mimeType", .str "video/VP8"), ("payloadType", .int 96),
      ("clockRate", .int 90000), ("parameters", .obj []), ("rtcpFeedback", .arr [])]]),
    ("headerExtensions", .arr [Json.object [("uri", .str "urn:mid"), ("id", .int 1),
      ("encrypt", .bool false), ("parameters", .obj [])]]),
    ("encodings", .arr []), ("rtcp", Json.object [("reducedSize", .bool true)])]
  codecOptions := none

theorem videoArguments_ready (offer : Json) : Ready videoArguments offer := by
  have hice : validateIceParameters videoArguments.iceParameters =
      .ok videoArguments.iceParameters := rfl
  have hcandidates : validateIceCandidates videoArguments.iceCandidates =
      .ok videoArguments.iceCandidates := rfl
  have hdtls : validateDtlsParameters videoArguments.dtlsParameters =
      .ok videoArguments.dtlsParameters := rfl
  have hsctp : validateSctpParameters videoArguments.sctpParameters =
      .ok videoArguments.sctpParameters := rfl
  have hparams : validateRtpParameters videoArguments.answerRtpParameters =
      .ok videoArguments.answerRtpParameters := rfl
  exact ready_of_valid hice hcandidates hdtls hsctp hparams rfl offer

/-- An offered section with a stream it sends, and a simulcast line. -/
def videoOffer (simulcast : String) : Json :=
  .obj (mediaObjectOf "video 9 UDP/TLS/RTP/SAVPF 96".toList
    (["mid:0", "extmap:1 urn:mid", "rid:a send", simulcast].map String.toList))

theorem videoOffer_fromGrammar (simulcast : String) : FromGrammar (videoOffer simulcast) :=
  ⟨⟨_, _, fun _ _ => rfl⟩, rfl⟩

theorem answers_simulcast_sent_first : AnswersSimulcast (videoOffer "simulcast:send a recv b")
    (videoArguments.answer (videoOffer "simulcast:send a recv b")) := by
  have hoffer := videoOffer_fromGrammar "simulcast:send a recv b"
  have htype : (videoOffer "simulcast:send a recv b").find "type" = some (.str "video") := rfl
  have hmid : (videoOffer "simulcast:send a recv b").find "mid" = some (.str "0") := rfl
  have hprotocol : (videoOffer "simulcast:send a recv b").find "protocol" =
      some (.str "UDP/TLS/RTP/SAVPF") := rfl
  have hext : (videoOffer "simulcast:send a recv b").find "ext" = some (.arr [Json.object
      [("value", .int 1), ("uri", .str "urn:mid")]]) := rfl
  have hrids : (videoOffer "simulcast:send a recv b").find "rids" = some (.arr [Json.object
      [("id", .str "a"), ("direction", .str "send")]]) := rfl
  have hsimulcast : (videoOffer "simulcast:send a recv b").find "simulcast" = some (Json.object
      [("dir1", .str "send"), ("list1", .str "a"), ("dir2", .str "recv"), ("list2", .str "b")]) := rfl
  generalize videoOffer "simulcast:send a recv b" = offer at *
  refine (answers_simulcast_iff hoffer (videoArguments_ready offer)).mpr
    ⟨⟨fun key hkey => ?_, fun _ => ⟨fun ext he => ?_, fun _ => by rw [hrids]; rfl⟩⟩,
      fun _ simulcast hs => ?_, fun hother => absurd (Or.inr htype) hother⟩
  · simp only [List.mem_cons, List.not_mem_nil, or_false] at hkey
    rcases hkey with rfl | rfl | rfl
    · rw [htype]
      rfl
    · rw [hmid]
      rfl
    · rw [hprotocol]
      rfl
  · obtain rfl := List.mem_singleton.mp he
    exact ⟨_, hext, .str "urn:mid", rfl, Or.inl rfl⟩
  · cases hsimulcast.symm.trans hs
    exact Or.inl rfl

/-- Of a line that receives first, the list of the streams that the offer receives is copied. -/
theorem received_list_copied : FromGrammar (videoOffer "simulcast:recv b send a") ∧
    Ready videoArguments (videoOffer "simulcast:recv b send a") ∧
    ¬ AnswersSimulcast (videoOffer "simulcast:recv b send a")
      (videoArguments.answer (videoOffer "simulcast:recv b send a")) := by
  have hoffer := videoOffer_fromGrammar "simulcast:recv b send a"
  have htype : (videoOffer "simulcast:recv b send a").find "type" = some (.str "video") := rfl
  have hsimulcast : (videoOffer "simulcast:recv b send a").find "simulcast" = some (Json.object
      [("dir1", .str "recv"), ("list1", .str "b"), ("dir2", .str "send"), ("list2", .str "a")]) := rfl
  generalize videoOffer "simulcast:recv b send a" = offer at *
  have hready := videoArguments_ready offer
  refine ⟨hoffer, hready, fun h => ?_⟩
  rcases answer_cases hoffer hready with ⟨-, s, o, hok, ha⟩ | ⟨-, herr⟩
  · have hfirst := ((mirrors_iff hoffer ha).mp (h.2 s o hok)).1 (Or.inr htype) _ hsimulcast
    rcases hfirst with hfirst | ⟨-, hsame⟩
    · exact absurd hfirst (by decide)
    · have hlists : some (Json.str "a") = some (Json.str "b") := hsame
      simp at hlists
  · exact h.1 herr

end MediasoupClient.Sdp
