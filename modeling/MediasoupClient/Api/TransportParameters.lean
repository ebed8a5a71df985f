import MediasoupClient.Api.Responses
import MediasoupClient.Sdp.MatchingReads
import MediasoupClient.Sdp.RemoteSdp

/-! Transport parameters that are valid.

        response ──decode──▶ ICE, candidates, DTLS, SCTP ──write──▶ JSON ──▶ validators, RemoteSdp

    The members of a response are optional and the validators want most of them, not empty, of a few
    words, or not negative. What they accept is said of the decoded members. -/

namespace MediasoupClient.Api
open Lib Signaling Sdp
open ConnectWebRtcTransportRequest (Fingerprint ICEParameters DTLSParameters)
open CreateWebRtcTransportResponse (ICECandidate SCTPParameters)

/-! ### Decoded members -/

/-- A text that is there and not empty. -/
def Filled (o : Option String) : Prop := ∃ s, o = some s ∧ s ≠ ""

/-- A text that is one of these words, whatever its case. -/
def OneOf (words : List String) (o : Option String) : Prop := ∃ s, o = some s ∧ lower s ∈ words

/-- A number that is there and not negative. -/
def Natural (o : Option ℤ) : Prop := ∃ i, o = some i ∧ 0 ≤ i

def IceComplete (ice : ICEParameters) : Prop := Filled ice.usernameFragment ∧ Filled ice.password

structure CandidateComplete (candidate : ICECandidate) : Prop where
  foundation : Filled candidate.foundation
  priority : Natural candidate.priority
  address : Filled candidate.address
  protocol : OneOf ["udp", "tcp"] candidate.protocol
  port : Natural candidate.port
  type : OneOf ["host", "srflx", "prflx", "relay"] candidate.type

/-- There is a fingerprint, and every one has both its members. -/
def FingerprintsComplete (dtls : DTLSParameters) : Prop :=
  ∃ fingerprints, dtls.fingerprints = some fingerprints ∧ fingerprints ≠ [] ∧
    ∀ f ∈ fingerprints, Filled f.algorithm ∧ Filled f.value

structure SctpComplete (sctp : SCTPParameters) : Prop where
  port : sctp.port.isSome = true
  OS : sctp.OS.isSome = true
  MIS : sctp.MIS.isSome = true
  maxMessageSize : sctp.maxMessageSize.isSome = true

/-! ### Written members -/

/-- The members a model is written with. -/
def written {α : Type} [Model α] (a : α) : Members :=
  ofMembers (Model.fields.flatMap fun f => f.forward a)

theorem ofValue_jserialize {α : Type} [Model α] (a : α) :
    ofValue (jserialize a) = .obj (written a) := rfl

theorem has_written {α : Type} [Model α] (a : α) (k : String) (p : Json → Bool) :
    has (written a) k p =
      ((get k (Model.fields.flatMap fun f => f.forward a)).map ofValue).any p := by
  rw [has, written, get_ofMembers]

theorem any_text (o : Option String) :
    ((o.map string.forward).map ofValue).any isText = true ↔ Filled o := by
  cases o with
  | none => exact iff_of_false (by decide) fun ⟨_, h, _⟩ => by cases h
  | some s =>
    change decide (s ≠ "") = true ↔ _
    rw [decide_eq_true_iff]
    exact ⟨fun h => ⟨s, rfl, h⟩, fun ⟨_, hs, h⟩ => by cases hs; exact h⟩

theorem any_oneOf (words : List String) (o : Option String) :
    ((o.map string.forward).map ofValue).any (isOneOf words) = true ↔ OneOf words o := by
  cases o with
  | none => exact iff_of_false (fun h => by cases h) fun ⟨_, h, _⟩ => by cases h
  | some s =>
    change decide (lower s ∈ words) = true ↔ _
    rw [decide_eq_true_iff]
    exact ⟨fun h => ⟨s, rfl, h⟩, fun ⟨_, hs, h⟩ => by cases hs; exact h⟩

theorem any_unsigned (o : Option ℤ) :
    ((o.map int32.forward).map ofValue).any Json.isNumberUnsigned = true ↔ Natural o := by
  cases o with
  | none => exact iff_of_false (by decide) fun ⟨_, h, _⟩ => by cases h
  | some i =>
    change (ofInt i).isNumberUnsigned = true ↔ _
    unfold ofInt
    split_ifs with hi
    · exact iff_of_true rfl ⟨i, rfl, hi⟩
    · exact iff_of_false (fun h => by cases h) fun ⟨_, hs, h⟩ => by cases hs; exact hi h

theorem any_integer (o : Option ℤ) :
    ((o.map int32.forward).map ofValue).any Json.isNumberInteger = o.isSome := by
  cases o with
  | none => rfl
  | some i =>
    change (ofInt i).isNumberInteger = true
    unfold ofInt
    split_ifs <;> rfl

/-- A word of a list without the empty text is not empty. -/
theorem OneOf.filled {words : List String} {o : Option String} (hwords : "" ∉ words)
    (h : OneOf words o) : Filled o := by
  obtain ⟨s, rfl, hs⟩ := h
  refine ⟨s, rfl, ?_⟩
  rintro rfl
  exact hwords hs

/-! ### What the validators accept -/

/-- Checks one after another. -/
theorem require_then {α : Type} {text : String} {check : Bool} {x : Except Invalid α} :
    (∃ v, (require text check >>= fun _ => x) = .ok v) ↔ check = true ∧ ∃ v, x = .ok v := by
  constructor
  · rintro ⟨v, h⟩
    obtain ⟨_, hreq, h⟩ := bind_ok.mp h
    exact ⟨require_ok.mp hreq, v, h⟩
  · rintro ⟨hcheck, v, h⟩
    exact ⟨v, bind_ok.mpr ⟨(), require_ok.mpr hcheck, h⟩⟩

theorem returned {α : Type} (a : α) : ∃ v, (pure a : Except Invalid α) = .ok v := ⟨a, rfl⟩

theorem iceParameters_valid (ice : ICEParameters) :
    (∃ v, validateIceParameters (ofValue (jserialize ice)) = .ok v) ↔ IceComplete ice := by
  simp only [ofValue_jserialize, validateIceParameters, require_then, returned, and_true, has_written]
  simp only [Model.fields, List.flatMap_cons, List.flatMap_nil, get_append, get_forward]
  simp only [Lib.get, any_text, Option.or_none, String.reduceEq, if_true, if_false, Option.none_or]
  exact Iff.rfl

theorem iceCandidate_valid (candidate : ICECandidate) :
    (∃ v, validateIceCandidate (ofValue (jserialize candidate)) = .ok v) ↔
      CandidateComplete candidate := by
  simp only [ofValue_jserialize, validateIceCandidate, require_then, returned, and_true, has_written]
  simp only [Model.fields, List.flatMap_cons, List.flatMap_nil, get_append, get_forward]
  simp only [Lib.get, any_text, any_oneOf, any_unsigned, Option.or_none, String.reduceEq, if_true,
    if_false, Option.none_or]
  constructor
  · rintro ⟨hfoundation, hpriority, haddress, -, hprotocol, hport, -, htype⟩
    exact ⟨hfoundation, hpriority, haddress, hprotocol, hport, htype⟩
  · rintro ⟨hfoundation, hpriority, haddress, hprotocol, hport, htype⟩
    exact ⟨hfoundation, hpriority, haddress, hprotocol.filled (by decide), hprotocol, hport,
      htype.filled (by decide), htype⟩

theorem sctpParameters_valid (sctp : SCTPParameters) :
    (∃ v, validateSctpParameters (ofValue (jserialize sctp)) = .ok v) ↔ SctpComplete sctp := by
  simp only [ofValue_jserialize, validateSctpParameters, require_then, returned, and_true, has_written]
  simp only [Model.fields, List.flatMap_cons, List.flatMap_nil, get_append, get_forward]
  simp only [Lib.get, any_integer, Option.or_none, String.reduceEq, if_true, if_false,
    Option.none_or]
  constructor
  · rintro ⟨hport, hOS, hMIS, hsize⟩
    exact ⟨hport, hOS, hMIS, hsize⟩
  · rintro ⟨hport, hOS, hMIS, hsize⟩
    exact ⟨hport, hOS, hMIS, hsize⟩

theorem dtlsFingerprint_valid (f : Fingerprint) :
    (∃ v, validateDtlsFingerprint (ofValue (jserialize f)) = .ok v) ↔
      Filled f.algorithm ∧ Filled f.value := by
  simp only [ofValue_jserialize, validateDtlsFingerprint, require_then, returned, and_true,
    has_written]
  simp only [Model.fields, List.flatMap_cons, List.flatMap_nil, get_append, get_forward]
  simp only [Lib.get, any_text, Option.or_none, String.reduceEq, if_true, if_false, Option.none_or]

/-- A loop over written values returns if every one is accepted. -/
theorem mapM_valid {α : Type} [Model α] {validate : Json → Except Invalid Json} {P : α → Prop}
    (h : ∀ a, (∃ v, validate (ofValue (jserialize a)) = .ok v) ↔ P a) (items : List α) :
    (∃ vs, (items.map fun a => ofValue (jserialize a)).mapM validate = .ok vs) ↔
      ∀ a ∈ items, P a := by
  rw [mapM_returns]
  simp only [List.forall_mem_map, h]

theorem iceCandidates_valid (candidates : List ICECandidate) :
    (∃ v, validateIceCandidates (.arr (candidates.map fun c => ofValue (jserialize c))) = .ok v) ↔
      ∀ c ∈ candidates, CandidateComplete c := by
  rw [← mapM_valid iceCandidate_valid]
  constructor
  · rintro ⟨v, h⟩
    obtain ⟨vs, hvs, -⟩ := bind_ok.mp h
    exact ⟨vs, hvs⟩
  · rintro ⟨vs, hvs⟩
    exact ⟨_, bind_ok.mpr ⟨vs, hvs, rfl⟩⟩

/-- The fingerprints that are written. -/
theorem get_fingerprints (dtls : DTLSParameters) :
    get "fingerprints" (written dtls) =
      dtls.fingerprints.map fun fs => .arr (fs.map fun f => ofValue (jserialize f)) := by
  rw [written, get_ofMembers]
  simp only [Model.fields, List.flatMap_cons, List.flatMap_nil, get_append, get_forward]
  simp only [Lib.get, Option.or_none, String.reduceEq, if_true, if_false]
  cases dtls.fingerprints with
  | none => rfl
  | some fs =>
    change some (Json.arr (ofValues (fs.map (model Fingerprint).forward))) = _
    rw [ofValues_eq, List.map_map]
    rfl

theorem dtlsParameters_valid (dtls : DTLSParameters) :
    (∃ v, validateDtlsParameters (ofValue (jserialize { dtls with role := some "auto" })) = .ok v) ↔
      FingerprintsComplete dtls := by
  have hget := get_fingerprints { dtls with role := some "auto" }
  have hrole : ∀ p : Json → Bool, has (written { dtls with role := some "auto" }) "role" p =
      p (.str "auto") := fun p => by
    rw [has_written]
    simp only [Model.fields, List.flatMap_cons, List.flatMap_nil, get_append, get_forward]
    simp only [Lib.get, Option.or_none, String.reduceEq, if_true, if_false, Option.none_or]
    rfl
  simp only [ofValue_jserialize, validateDtlsParameters, require_then, hrole]
  rw [has, hget]
  unfold eachElement
  rw [hget]
  cases hfs : dtls.fingerprints with
  | none =>
    refine iff_of_false (fun h => by cases h.2.2.1) ?_
    rintro ⟨fs, hsome, -⟩
    rw [hfs] at hsome
    cases hsome
  | some fs =>
    have hfilled : (Option.map (fun fs : List Fingerprint =>
        Json.arr (fs.map fun f => ofValue (jserialize f))) (some fs)).any isFilledArray = true ↔
          fs ≠ [] := by
      cases fs with
      | nil => exact iff_of_false (fun h => by cases h) fun h => h rfl
      | cons f fs => exact iff_of_true rfl (List.cons_ne_nil f fs)
    have hall := mapM_valid dtlsFingerprint_valid fs
    rw [hfilled]
    constructor
    · rintro ⟨-, -, hne, v, hv⟩
      obtain ⟨_, hm, -⟩ := bind_ok.mp hv
      obtain ⟨vs, hvs, -⟩ := bind_ok.mp hm
      exact ⟨fs, hfs, hne, hall.mp ⟨vs, hvs⟩⟩
    · rintro ⟨fs', hfs', hne, hvalid⟩
      cases hfs.symm.trans hfs'
      obtain ⟨vs, hvs⟩ := hall.mpr hvalid
      exact ⟨rfl, rfl, hne, _, bind_ok.mpr ⟨_, bind_ok.mpr ⟨vs, hvs, rfl⟩, rfl⟩⟩

/-- Fingerprints that are complete are written one by one, and there is one. -/
theorem fingerprints_written {dtls : DTLSParameters} (h : FingerprintsComplete dtls) :
    ∃ first rest, (ofValue (jserialize { dtls with role := some "auto" })).find "fingerprints" =
      some (.arr (first :: rest)) := by
  obtain ⟨fs, hfs, hne, -⟩ := h
  obtain ⟨first, rest, rfl⟩ := List.exists_cons_of_ne_nil hne
  refine ⟨ofValue (jserialize first), rest.map fun f => ofValue (jserialize f), ?_⟩
  change get "fingerprints" (written { dtls with role := some "auto" }) = _
  rw [get_fingerprints]
  simp only [hfs, Option.map_some, List.map_cons]

/-- The constructor reads the last fingerprint. -/
theorem remoteSdp_total {dtls : DTLSParameters} (h : FingerprintsComplete dtls)
    (iceParams iceCandidates sctpParams : Json) :
    ∃ sdp, RemoteSdp.new iceParams iceCandidates
      (ofValue (jserialize { dtls with role := some "auto" })) sctpParams = .ok sdp := by
  obtain ⟨fs, hfs, hne, -⟩ := h
  have hget : get "fingerprints" (written { dtls with role := some "auto" }) =
      some (.arr (fs.map fun f => ofValue (jserialize f))) := by
    rw [get_fingerprints]
    simp only [hfs, Option.map_some]
  have hread : (ofValue (jserialize { dtls with role := some "auto" })).readOrNull "fingerprints" =
      .ok (.arr (fs.map fun f => ofValue (jserialize f))) := by
    rw [readOrNull_of_isObject rfl]
    change Except.ok ((Lib.get "fingerprints" (written _)).getD .null) = _
    rw [hget]
    rfl
  have hlast : (fs.map fun f => ofValue (jserialize f)).getLast? =
      some (ofValue (jserialize (fs.getLast hne))) := by
    rw [List.getLast?_map, List.getLast?_eq_some_getLast hne]
    rfl
  rw [RemoteSdp.new, hread, ok_bind]
  simp only [RemoteSdp.latestFingerprint, hlast, ok_bind]
  exact ⟨_, rfl⟩

end MediasoupClient.Api
