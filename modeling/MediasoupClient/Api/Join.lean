import MediasoupClient.Sdp.CodecMatching
import MediasoupClient.Signaling.RtpModels

/-! The capabilities of a join request (mssignal/msapi.cpp).

        recv_rtp_capabilities_  ──dump──▶  JoinRequest::RTPCapabilities  ──toJsonStr──▶  wire

    The model has a `FIELDS_MAP` for the parameters of a codec, and `apt` is not in it. An rtx codec
    is one whose only parameter is `apt`, so the server gets it without. -/

namespace MediasoupClient.Api
open Lib Signaling Sdp

/-- `recv_rtp_capabilities_`, as `load_capabilities` and then `join` leave it. -/
def recvRtpCapabilities (ext : ExtendedRtpCapabilities) : Except Invalid Json := do
  let recv ← validateRtpCapabilities (← getRecvRtpCapabilities ext)
  validateRtpCapabilities recv

/-- The rtpCapabilities member of the join request, if the model accepts the capabilities. -/
def joinCapabilities (recvRtpCapabilities : Json) : Option Json :=
  reencode (RTPCapabilities JoinRequest.Parameters) recvRtpCapabilities

/-- Every rtx codec has an apt, and it is the payload type of another codec of the list. -/
def RtxPointed (codecs : List Json) : Prop :=
  ∀ (i : ℕ) (c : Json), codecs[i]? = some c → isRtx c = true →
    ∃ apt, readParameter id "apt" c = some apt ∧
      ∃ (j : ℕ) (c' : Json), j ≠ i ∧ codecs[j]? = some c' ∧ (payloadTypeOf c').eqv apt = true

/-- The members of a codec that survive the join request. -/
abbrev joinFields : List (String × Shape) := CapabilityCodec.fields JoinRequest.Parameters.fields

/-- The codecs on the wire, one by one. -/
theorem joinCapabilities_codecs {caps wire : Json} {codecs : List Json}
    (h : joinCapabilities caps = some wire) (hcodecs : caps.find "codecs" = some (.arr codecs)) :
    List.Forall₂ (fun c w => (Shape.object joinFields).rewrite c = some w) codecs
      (codecsOf wire) := by
  rw [joinCapabilities, reencode_eq (RTPCapabilities.has JoinRequest.Parameters.has)] at h
  obtain ⟨wires, hwires, hfind⟩ := Shape.find_rewrite_array h rfl hcodecs
  rw [codecsOf, hfind]
  exact hwires

/-- Codecs come out as they went in if every one does. -/
theorem codecs_same_iff {s : Shape} {codecs wires : List Json}
    (h : List.Forall₂ (fun c w => s.rewrite c = some w) codecs wires) :
    wires = codecs.map reparse ↔ ∀ c ∈ codecs, s.Faithful c := by
  induction h with
  | nil => simp
  | @cons c w codecs wires hcw _ ih =>
    rw [List.map_cons, List.cons.injEq, List.forall_mem_cons, ih, ← s.faithful, hcw,
      Option.some.injEq]

/-- What is read of a codec that comes out as it went in. -/
theorem isRtx_reparse (c : Json) : isRtx (reparse c) = isRtx c := by
  have hmime : mimeTypeOf (reparse c) = mimeTypeOf c := by
    unfold mimeTypeOf
    rw [find_reparse]
    cases c.find "mimeType" with
    | none => rfl
    | some v =>
      change (reparse v).toStr.toOption.map lower = v.toStr.toOption.map lower
      cases v with
      | int i =>
        change (ofInt i).toStr.toOption.map lower = _
        unfold ofInt
        split_ifs <;> rfl
      | _ => rfl
  unfold isRtx
  rw [hmime]

/-- No codec on the wire has an apt. -/
theorem apt_lost {c w : Json} (h : (Shape.object joinFields).rewrite c = some w) :
    readParameter id "apt" w = none := by
  rw [readParameter, Shape.find_rewrite h]
  change (((nonNull "parameters" c).bind
    (Shape.object JoinRequest.Parameters.fields).rewrite).bind fun p => p.find "apt") = none
  cases nonNull "parameters" c with
  | none => rfl
  | some p =>
    change (((Shape.object JoinRequest.Parameters.fields).rewrite p).bind
      fun p => p.find "apt") = none
    cases hp : (Shape.object JoinRequest.Parameters.fields).rewrite p with
    | none => rfl
    | some p' => exact Shape.find_rewrite hp "apt"

/-- CORRECT: the codecs go over the wire unchanged, and their rtx codecs point at another codec,
    exactly if there is no rtx codec and every member of every codec is one that the model has, is
    not null, and fits. -/
theorem join_faithful {ext : ExtendedRtpCapabilities} {caps wire : Json}
    (hcaps : recvRtpCapabilities ext = .ok caps) (h : joinCapabilities caps = some wire) :
    (codecsOf wire = (codecsOf caps).map reparse ∧ RtxPointed (codecsOf wire)) ↔
      ∀ c ∈ codecsOf caps, isRtx c = false ∧ ∀ k, MemberFits joinFields k c := by
  obtain ⟨_, -, hcaps⟩ := bind_ok.mp hcaps
  obtain ⟨_, -, hvalid⟩ := bind_ok.mp hcaps
  obtain ⟨_, members, _, codecs, _, _, -, rfl, -, -, hcodecs, -⟩ := validateRtpCapabilities_ok hvalid
  have hfind : (Json.obj members).find "codecs" = some (.arr codecs) := hcodecs
  have hwires := joinCapabilities_codecs h hfind
  have hof : codecsOf (.obj members) = codecs := by rw [codecsOf, hfind]; rfl
  have hfits : ∀ c ∈ codecs, (Shape.object joinFields).Faithful c ↔
      ∀ k, MemberFits joinFields k c := by
    intro c hc
    obtain ⟨w, -, hw⟩ := mem_of_forall₂ hwires.flip hc
    exact Shape.faithful_of_rewrite hw
  rw [hof, codecs_same_iff hwires]
  constructor
  · rintro ⟨hfaithful, hpointed⟩ c hc
    refine ⟨?_, (hfits c hc).mp (hfaithful c hc)⟩
    obtain ⟨w, hw, hcw⟩ := mem_of_forall₂ hwires.flip hc
    obtain ⟨i, hi⟩ := List.getElem?_of_mem hw
    rw [((Shape.object joinFields).faithful c).mpr (hfaithful c hc)] at hcw
    cases hcw
    by_contra hrtx
    obtain ⟨apt, hapt, -⟩ := hpointed i _ hi
      (by rw [isRtx_reparse]; exact eq_true_of_ne_false hrtx)
    rw [apt_lost (((Shape.object joinFields).faithful c).mpr (hfaithful c hc))] at hapt
    cases hapt
  · intro hall
    have hfaithful : ∀ c ∈ codecs, (Shape.object joinFields).Faithful c :=
      fun c hc => (hfits c hc).mpr (hall c hc).2
    refine ⟨hfaithful, fun i w hi hrtx => ?_⟩
    obtain ⟨c, hc, hcw⟩ := mem_of_forall₂ hwires (List.mem_of_getElem? hi)
    rw [((Shape.object joinFields).faithful c).mpr (hfaithful c hc)] at hcw
    cases hcw
    rw [isRtx_reparse, (hall c hc).1] at hrtx
    cases hrtx

/-- Extended capabilities of two video codecs, with the rtx payload type of the server for the first,
    and parameters and feedback for the second. -/
def videoCapabilities (remoteRtxPayloadType : Json) : ExtendedRtpCapabilities where
  codecs := [{
    mimeType := .str "video/VP8"
    kind := .str "video"
    clockRate := .uint 90000
    localPayloadType := .uint 96
    localRtxPayloadType := remoteRtxPayloadType
    remotePayloadType := .uint 101
    remoteRtxPayloadType := remoteRtxPayloadType
    localParameters := .obj []
    remoteParameters := .obj []
    rtcpFeedback := .arr []
    channels := none }, {
    mimeType := .str "video/H264"
    kind := .str "video"
    clockRate := .uint 90000
    localPayloadType := .uint 98
    remotePayloadType := .uint 103
    localParameters := .object [("profile-level-id", .str "42e01f"), ("packetization-mode", .uint 1)]
    remoteParameters := .object [("profile-level-id", .str "42e01f"), ("packetization-mode", .uint 1)]
    rtcpFeedback := .arr [.object [("type", .str "nack")],
      .object [("type", .str "ccm"), ("parameter", .str "fir")]]
    channels := none }]
  headerExtensions := []

theorem join_faithful_h264 : ∃ caps wire,
    recvRtpCapabilities (videoCapabilities .null) = .ok caps ∧
      joinCapabilities caps = some wire ∧ (codecsOf caps).length = 2 ∧
      codecsOf wire = (codecsOf caps).map reparse ∧
      ∀ c ∈ codecsOf caps, isRtx c = false ∧ ∀ k, MemberFits joinFields k c := by
  obtain ⟨caps, hcaps, wire, hwire, hlength, hsame, hnone⟩ : ∃ caps,
      recvRtpCapabilities (videoCapabilities .null) = .ok caps ∧ ∃ wire,
        joinCapabilities caps = some wire ∧ (codecsOf caps).length = 2 ∧
        codecsOf wire = (codecsOf caps).map reparse ∧ (codecsOf wire).map isRtx = [false, false] :=
    ⟨_, rfl, _, rfl, rfl, rfl, rfl⟩
  refine ⟨caps, wire, hcaps, hwire, hlength, hsame,
    (join_faithful hcaps hwire).mp ⟨hsame, fun i c hc hrtx => ?_⟩⟩
  have hmem := List.mem_map_of_mem (f := isRtx) (List.mem_of_getElem? hc)
  rw [hnone, hrtx] at hmem
  simp at hmem

/-- With an rtx codec, the codec on the wire has lost its apt. -/
theorem join_loses_apt : ∃ caps wire,
    recvRtpCapabilities (videoCapabilities (.uint 102)) = .ok caps ∧
      joinCapabilities caps = some wire ∧
      ¬(codecsOf wire = (codecsOf caps).map reparse ∧ RtxPointed (codecsOf wire)) := by
  obtain ⟨caps, hcaps, hjoin⟩ := exists_of_map
    (fun caps => (joinCapabilities caps).bind fun wire =>
      (codecsOf wire)[1]?.map fun c => (isRtx c, (readParameter id "apt" c).isSome))
    (show (recvRtpCapabilities (videoCapabilities (.uint 102))).toOption.map _ =
      some (some (true, false)) from rfl)
  obtain ⟨wire, hwire, hcodec⟩ := Option.bind_eq_some_iff.mp hjoin
  obtain ⟨c, hc, heq⟩ := Option.map_eq_some_iff.mp hcodec
  obtain ⟨hrtx, hapt⟩ := Prod.mk.inj heq
  refine ⟨caps, wire, hcaps, hwire, fun hclaim => ?_⟩
  obtain ⟨apt, hsome, -⟩ := hclaim.2 1 c hc hrtx
  rw [hsome] at hapt
  cases hapt

end MediasoupClient.Api
