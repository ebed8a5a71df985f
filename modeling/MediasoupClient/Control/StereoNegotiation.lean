import MediasoupClient.Control.Consumer
import MediasoupClient.Sdp.CodecParameters
import MediasoupClient.Sdp.StereoFlag

/-! The stereo of a consumer (peerconnection/media_control.cpp, sdputil/sdputil.cpp).

        newConsumer                { "sprop-stereo": 1 }      { "sprop-stereo": true }
                                            │                            │
        NewConsumerRequest                  1  int32                     ✗  no number
                                            │
        applyCodecParameters          is_boolean()?   no: stereo is not written
                                            │
        a=fmtp:111 ...;stereo=0        ...;stereo=0

    What the model lets through is an integer, and what is followed is a boolean. So the answer has
    the stereo that it has had before. -/

namespace MediasoupClient.Control
open Lib Signaling Sdp

/-! ### Integers through the model -/

theorem integer_ofInt (i : ℤ) : integer (ofInt i) = some i := by
  unfold ofInt
  split_ifs with h
  · simp only [integer, Int.toNat_of_nonneg h]
  · rfl

/-- An integer member is the same integer after it has been decoded and written again. -/
theorem integer_kept {fields : List (String × Shape)} {j w : Json} {k : String} {lo hi : ℤ}
    (h : (Shape.object fields).rewrite j = some w) (hk : get k fields = some (.int lo hi)) :
    (w.find k).bind integer = (j.find k).bind integer ∧
      ∀ v, w.find k = some v → ∃ i, integer v = some i ∧ lo ≤ i ∧ i < hi := by
  cases hnull : nonNull k j with
  | none =>
    have hnone : w.find k = none := Shape.member_absent h (nonNull_eq_none.mp hnull)
    rw [hnone]
    refine ⟨?_, fun v hv => (by cases hv)⟩
    rcases nonNull_eq_none.mp hnull with hf | hf
    · rw [hf]
    · rw [hf]
      rfl
  | some x =>
    obtain ⟨hx, hnn⟩ := nonNull_eq_some.mp hnull
    obtain ⟨i, hint, hlo, hhi⟩ := Shape.member_accepted h hk hx hnn
    have hsame : integer x = some i := by
      cases x with
      | int a => exact hint
      | uint n => exact hint
      | _ => cases hint
    have hw : w.find k = some (ofInt i) := by
      rw [Shape.find_rewrite h, hk, hnull]
      change ((Shape.integer? x).bind fun i => if lo ≤ i ∧ i < hi then some (ofInt i) else none) = _
      rw [hint, Option.bind_some, if_pos ⟨hlo, hhi⟩]
    rw [hw, hx, Option.bind_some, Option.bind_some, integer_ofInt, hsame]
    refine ⟨rfl, fun v hv => ?_⟩
    cases hv
    exact ⟨i, integer_ofInt i, hlo, hhi⟩

section
variable {c w : Json} (h : (Shape.object NewConsumerRequest.Codec.fields).rewrite c = some w)
include h

theorem codecNumber_kept : codecNumber w = codecNumber c := (integer_kept h rfl).1

theorem isOpus_kept (hopus : isOpus c = true) : isOpus w = true := by
  unfold isOpus at hopus
  split at hopus
  · rename_i mimeType hmime
    have hlower : lower mimeType = "audio/opus" := of_decide_eq_true hopus
    have hnul : Char.ofNat 0 ∉ mimeType.toList := fun hmem => by
      have hlow : Char.ofNat 0 ∈ (lower mimeType).toList := by
        rw [lower, String.toList_ofList]
        exact List.mem_map.mpr ⟨_, hmem, by decide⟩
      rw [hlower] at hlow
      exact absurd hlow (by decide)
    have hw : w.find "mimeType" = some (.str mimeType) := by
      rw [Shape.find_rewrite h, nonNull_eq_some.mpr ⟨hmime, rfl⟩]
      have hsame : cstr mimeType = mimeType :=
        Classical.byContradiction fun hne => hnul (nul_mem_of_cstr_ne hne)
      change some (Json.str (cstr mimeType)) = _
      rw [hsame]
    rw [isOpus, hw]
    exact decide_eq_true hlower
  · cases hopus

/-- No codec that the model has written carries a boolean. -/
theorem writtenStereo_none : writtenStereo w = none := by
  unfold writtenStereo spropStereo
  cases hparams : w.find "parameters" with
  | none => rfl
  | some parameters =>
    obtain ⟨x, -, hx⟩ := Shape.find_object h rfl hparams
    rw [Option.bind_some]
    cases hv : parameters.find "sprop-stereo" with
    | none => rfl
    | some v =>
      obtain ⟨i, hint, -⟩ := (integer_kept hx rfl).2 v hv
      cases v with
      | bool b => cases hint
      | _ => rfl

/-- A codec whose lines can be printed has all that is read of it. -/
theorem offerCodec_ready (hready : CodecReady w) : OfferCodec w := by
  obtain ⟨v, -, hv, -⟩ := hready.payloadType
  obtain ⟨parameters, hparams⟩ := hready.parameters
  obtain ⟨p, hp, -, hlt⟩ := (integer_kept h rfl).2 v hv
  exact ⟨hready.mimeType, ⟨v, p, hv, hp, by omega⟩, by rw [hparams]; rfl⟩

end

/-- The codecs of parameters that have been decoded and written again. -/
theorem codecs_rewritten {params offer : Json}
    (h : (Shape.object NewConsumerRequest.RTPParameters.fields).rewrite params = some offer) :
    List.Forall₂ (fun c w => (Shape.object NewConsumerRequest.Codec.fields).rewrite c = some w)
      (linesAt "codecs" params) (linesAt "codecs" offer) := by
  cases hnull : nonNull "codecs" params with
  | none =>
    have hnone := Shape.member_absent h (nonNull_eq_none.mp hnull)
    rw [linesAt, linesAt, hnone]
    rcases nonNull_eq_none.mp hnull with hf | hf
    · rw [hf]
      exact .nil
    · rw [hf]
      exact .nil
  | some v =>
    obtain ⟨hv, hnn⟩ := nonNull_eq_some.mp hnull
    obtain ⟨codecs, rfl, -⟩ := Shape.member_accepted h rfl hv hnn
    obtain ⟨codecs', hcodecs, hoffer⟩ := Shape.find_rewrite_array h rfl hv
    rw [linesAt, linesAt, hv, hoffer]
    exact hcodecs

/-- Parameters that the section of a consumer has been built of have all that is read of them. -/
theorem offerParameters_ready {params offer : Json}
    (h : (Shape.object NewConsumerRequest.RTPParameters.fields).rewrite params = some offer)
    (hready : OfferReady offer) : OfferParameters offer := by
  obtain ⟨v, hv, hcodecs⟩ := hready.codecs
  refine ⟨by rw [hv]; rfl, fun w hw => ?_⟩
  obtain ⟨c, -, hc⟩ := mem_of_forall₂ (codecs_rewritten h) hw
  refine offerCodec_ready hc (hcodecs w ?_)
  rwa [linesAt, hv] at hw

/-! ### What reaches the answer -/

/-- An opus codec of the server carries this `sprop-stereo`, and the answer has its payload type. -/
def Announces (params answer : Json) (p i : ℤ) : Prop :=
  (∃ codec ∈ linesAt "codecs" params, isOpus codec = true ∧ codecNumber codec = some p ∧
    (spropStereo codec).bind integer = some i) ∧ (lineOf p (linesAt "rtp" answer)).isSome = true

/-- The `stereo` that a `sprop-stereo` asks for. -/
def stereoFlag (i : ℤ) : ℤ := if i = 0 then 0 else 1

theorem stereoFlag_cases (i : ℤ) : stereoFlag i = 0 ∨ stereoFlag i = 1 := by
  unfold stereoFlag
  split_ifs
  · exact Or.inl rfl
  · exact Or.inr rfl

section
variable (pf : Platform) (params offer answer : Json)

/-- The call sets the `stereo` of every payload type that the server announces it for. -/
def StereoReaches : Prop :=
  ∀ p i, Announces params answer p i → ∃ answer' m,
    applyCodecParameters (parseParams pf) offer answer = .ok answer' ∧
      fmtpParameters pf p (linesAt "fmtp" answer') = .ok m ∧
      get "stereo" m = some (.int (stereoFlag i))

/-- The lines of the opus codecs can be read. -/
def LinesReadable : Prop :=
  ∀ codec ∈ linesAt "codecs" offer, isOpus codec = true → ∀ p, codecNumber codec = some p →
    Turnable pf (linesAt "rtp" answer) (linesAt "fmtp" answer) p

/-- The `stereo` is there before the call, with a value that is printed as the one to be set. -/
def StereoThere : Prop :=
  ∀ p i, Announces params answer p i → LinesReadable pf offer answer ∧ ∃ m v,
    fmtpParameters pf p (linesAt "fmtp" answer) = .ok m ∧ get "stereo" m = some v ∧
      reread v = some (.int (stereoFlag i))

end

section
variable {pf : Platform} {params offer answer : Json}

/-- What the call does to an announced `stereo`: it is printed and read again. -/
theorem stereo_turned {sdp : String} {p i : ℤ}
    (h : (Shape.object NewConsumerRequest.RTPParameters.fields).rewrite params = some offer)
    (hoffer : OfferParameters offer) (hanswer : answer ∈ sectionsOf (parse sdp))
    (hannounced : Announces params answer p i) {answer' : Json}
    (hcall : applyCodecParameters (parseParams pf) offer answer = .ok answer') :
    ∃ n m m', fmtpParameters pf p (linesAt "fmtp" answer) = .ok m ∧
      fmtpParameters pf p (linesAt "fmtp" answer') = .ok m' ∧
      get "stereo" m' = rereads (n + 1) (get "stereo" m) := by
  obtain ⟨hreturns, hturned⟩ := applyCodecParameters_run pf hoffer hanswer
  obtain ⟨⟨c, hc, hopus, hp, -⟩, hdeclared⟩ := hannounced
  obtain ⟨w, hw, hcw⟩ := mem_of_forall₂ (codecs_rewritten h).flip hc
  have hturn : w ∈ turnsOf (linesAt "rtp" answer) p (linesAt "codecs" offer) :=
    mem_turnsOf.mpr ⟨hw, isOpus_kept hcw hopus, (codecNumber_kept hcw).trans hp, hdeclared⟩
  obtain ⟨-, hready⟩ := hreturns.mp ⟨answer', hcall⟩ w hw (isOpus_kept hcw hopus) p
    ((codecNumber_kept hcw).trans hp)
  obtain ⟨-, m, -, -, hm⟩ := line_parameters (hready hdeclared).2 .null
  obtain ⟨m', hm', hget⟩ := (hturned answer' hcall).parameters p m hm
  obtain ⟨n, hn⟩ := Nat.exists_eq_succ_of_ne_zero (List.length_pos_of_mem hturn).ne'
  refine ⟨n, m, m', hm, hm', ?_⟩
  rw [hget, turned_rereads, hn]
  intro codec hcodec _
  obtain ⟨hmem, -⟩ := mem_turnsOf.mp hcodec
  obtain ⟨c', -, hc'⟩ := mem_of_forall₂ (codecs_rewritten h) hmem
  exact writtenStereo_none hc'

theorem stereo_value {p : ℤ} {m : Members} {v : Json}
    (hm : fmtpParameters pf p (linesAt "fmtp" answer) = .ok m) (hv : get "stereo" m = some v) :
    ParamValue pf "stereo" v :=
  ((fmtpParameters_params hm).members _ (mem_of_get hv)).2

/-- What the model reads is written again. -/
theorem rewritten_of_decoded {rtpParameters : NewConsumerRequest.RTPParameters}
    (hdecoded : jdeserialize (toValue params) = (rtpParameters, none)) :
    (Shape.object NewConsumerRequest.RTPParameters.fields).rewrite params =
      some (toJson rtpParameters) := by
  rw [← reencode_eq NewConsumerRequest.RTPParameters.has, reencode, hdecoded]
  rfl

/-- CORRECT: the announced stereo is set exactly where the answer has had it before the call, with a
    value that is printed as the one to be set. -/
theorem stereo_reaches_iff {sdp : String} {rtpParameters : NewConsumerRequest.RTPParameters}
    (hdecoded : jdeserialize (toValue params) = (rtpParameters, none))
    (hoffer : OfferParameters (toJson rtpParameters)) (hanswer : answer ∈ sectionsOf (parse sdp)) :
    StereoReaches pf params (toJson rtpParameters) answer ↔
      StereoThere pf params (toJson rtpParameters) answer := by
  have h := rewritten_of_decoded hdecoded
  obtain ⟨hreturns, -⟩ := applyCodecParameters_run pf hoffer hanswer
  constructor
  · intro hreaches p i hannounced
    obtain ⟨answer', m', hcall, hm', hstereo⟩ := hreaches p i hannounced
    refine ⟨hreturns.mp ⟨answer', hcall⟩, ?_⟩
    obtain ⟨n, m, m₁, hm, hm₁, hget⟩ := stereo_turned h hoffer hanswer hannounced hcall
    cases hm'.symm.trans hm₁
    rw [hstereo] at hget
    cases hv : get "stereo" m with
    | none =>
      rw [hv, rereads_none] at hget
      cases hget
    | some v =>
      rw [hv] at hget
      exact ⟨m, v, hm, hv, (rereads_flag (stereo_value hm hv) (stereoFlag_cases i) n).mp hget.symm⟩
  · intro hthere p i hannounced
    obtain ⟨hreadable, m, v, hm, hv, hprinted⟩ := hthere p i hannounced
    obtain ⟨answer', hcall⟩ := hreturns.mpr hreadable
    obtain ⟨n, m₁, m', hm₁, hm', hget⟩ := stereo_turned h hoffer hanswer hannounced hcall
    cases hm.symm.trans hm₁
    refine ⟨answer', m', hcall, hm', ?_⟩
    rw [hget, hv]
    exact (rereads_flag (stereo_value hm hv) (stereoFlag_cases i) n).mpr hprinted

end

/-- An opus consumer of a stereo producer. -/
def stereoParams : Json :=
  consumerParams [consumerCodec "audio/opus" 111 48000 (.object [("sprop-stereo", .uint 1)])]

/-- What the model makes of it. -/
def stereoRtpParameters : NewConsumerRequest.RTPParameters :=
  (jdeserialize (toValue stereoParams)).1

theorem stereo_decoded : jdeserialize (toValue stereoParams) = (stereoRtpParameters, none) := rfl

theorem stereo_ready : OfferReady (toJson stereoRtpParameters) := by
  refine ⟨⟨_, rfl, fun c hc => ?_⟩, ⟨_, rfl, fun e he => (by cases he)⟩,
    ⟨_, _, .uint 1, 1, rfl, rfl, rfl, rfl, fun r hr => (by cases hr)⟩, ⟨_, rfl⟩⟩
  obtain rfl := List.mem_singleton.mp hc
  exact ⟨⟨.uint 111, 111, rfl, rfl⟩, ⟨_, rfl⟩, ⟨_, rfl⟩, fun v hv => (by cases hv), ⟨_, rfl⟩,
    ⟨_, rfl, fun fb hfb => (by cases hfb)⟩⟩

theorem stereo_offer : OfferParameters (toJson stereoRtpParameters) :=
  offerParameters_ready (rewritten_of_decoded stereo_decoded) stereo_ready

/-- A stereo of 1 that is there already is the one that the producer asks for. -/
theorem stereo_there : StereoReaches lp64 stereoParams (toJson stereoRtpParameters)
    (opusAnswer "stereo=1") := by
  have hanswer : opusAnswer "stereo=1" ∈ sectionsOf (parse
    "m=audio 9 RTP/SAVPF 111\na=rtpmap:111 opus/48000/2\na=fmtp:111 stereo=1") :=
    List.mem_singleton_self _
  refine (stereo_reaches_iff stereo_decoded stereo_offer hanswer).mpr fun p i hannounced => ?_
  obtain ⟨⟨codec, hcodec, -, hp, hi⟩, -⟩ := hannounced
  obtain rfl := List.mem_singleton.mp hcodec
  obtain rfl : 111 = p := Option.some.inj hp
  obtain rfl : 1 = i := Option.some.inj hi
  refine ⟨fun codec hcodec _ p hp => ?_, [("stereo", .int 1)], .int 1, rfl, rfl, rfl⟩
  obtain rfl := List.mem_singleton.mp hcodec
  obtain rfl : 111 = p := Option.some.inj hp
  refine ⟨⟨rfl, fun h => (by cases h)⟩, fun _ => ⟨⟨rfl, fun h => (by cases h)⟩, ?_⟩⟩
  intro line hline
  cases hline
  exact ⟨_, _, rfl, rfl⟩

/-- The usual answer has no stereo, and gets none. -/
theorem stereo_missing : ¬ ∀ (pf : Platform) (params answer : Json) (sdp : String)
    (rtpParameters : NewConsumerRequest.RTPParameters),
    jdeserialize (toValue params) = (rtpParameters, none) → OfferReady (toJson rtpParameters) →
      answer ∈ sectionsOf (parse sdp) → StereoReaches pf params (toJson rtpParameters) answer := by
  intro h
  have hreaches := h lp64 stereoParams (opusAnswer "minptime=10;useinbandfec=1")
    "m=audio 9 RTP/SAVPF 111\na=rtpmap:111 opus/48000/2\na=fmtp:111 minptime=10;useinbandfec=1"
    stereoRtpParameters stereo_decoded stereo_ready (List.mem_singleton_self _)
  have hannounced : Announces stereoParams (opusAnswer "minptime=10;useinbandfec=1") 111 1 :=
    ⟨⟨_, List.mem_singleton_self _, rfl, rfl, rfl⟩, rfl⟩
  obtain ⟨answer', m, hcall, hm, hstereo⟩ := hreaches 111 1 hannounced
  have hafter : applyCodecParameters (parseParams lp64) (toJson stereoRtpParameters)
      (opusAnswer "minptime=10;useinbandfec=1") =
        .ok (opusAnswer "minptime=10;useinbandfec=1") := rfl
  cases hcall.symm.trans hafter
  have hparameters : fmtpParameters lp64 111
      (linesAt "fmtp" (opusAnswer "minptime=10;useinbandfec=1")) =
        .ok [("minptime", .int 10), ("useinbandfec", .int 1)] := rfl
  cases hm.symm.trans hparameters
  cases hstereo

end MediasoupClient.Control
