import MediasoupClient.Sdp.CodecMatching
import MediasoupClient.Sdp.RemoteSdp
import MediasoupClient.Signaling.RtpModels

/-! The parameters of a produce request (peerconnection/media_control.cpp, mssignal/msapi.cpp).

        getSendingRtpParameters ──▶ codecs reduced, mid, cname, encodings ──▶ Send: codec options
                                                                                   │
        wire  ◀──toJsonStr──  ProduceRequest::RTPParameters  ◀──dump──  validateRtpParameters

    The model knows five codec parameters, none of them of a video codec but `apt`, and no rtx of an
    encoding. -/

namespace MediasoupClient.Api
open Lib Signaling Sdp

/-- `params["codecs"] = reduceCodecs(params["codecs"], NULL)`. -/
def reducedCodecs (params : Json) : Except Fault Json := do
  params.write "codecs" (.arr (← reduceCodecs (← params.readOrNull "codecs").elems))

/-- The members set from the transceiver, from its media section, and from that or the settings. -/
def completeRtpParam (params : Json) (mid cname : String) (encodings : List Json) :
    Except Fault Json := do
  let params ← params.write "mid" (.str mid)
  let rtcp ← (← params.readOrNull "rtcp").write "cname" (.str cname)
  let params ← params.write "rtcp" rtcp
  params.write "encodings" (.arr encodings)

/-- `send_rtp_param`, as `enable_audio` and `enable_video` complete it. -/
def sendRtpParam (kind : String) (ext : ExtendedRtpCapabilities) (mid cname : String)
    (encodings : List Json) : Except Fault Json := do
  completeRtpParam (← reducedCodecs (← getSendingRtpParameters kind ext)) mid cname encodings

/-- `send_rtp_param`, as it is given to `produce`: `Send` has set the codec options in it. -/
def validSendRtpParam (s : RemoteSdp) (offerMediaObject params answerRtpParameters : Json)
    (codecOptions : Option Json) : Except Invalid Json := do
  let (_, params) ← answerMediaSection s.iceParameters s.iceCandidates s.dtlsParameters
    s.sctpParameters offerMediaObject params answerRtpParameters codecOptions
  validateRtpParameters params

/-- All of it, for a track of this kind. -/
def producedRtpParam (s : RemoteSdp) (offerMediaObject : Json) (kind : String)
    (ext : ExtendedRtpCapabilities) (mid cname : String) (encodings : List Json)
    (codecOptions : Option Json) : Except Invalid Json := do
  let params ← sendRtpParam kind ext mid cname encodings
  let answerRtpParameters ← reducedCodecs (← getSendingRemoteRtpParameters kind ext)
  validSendRtpParam s offerMediaObject params answerRtpParameters codecOptions

/-- What it is made of, step by step. -/
theorem producedRtpParam_eq {kind mid cname : String} {ext : ExtendedRtpCapabilities}
    {encodings : List Json} {sending reduced sendingRemote answerRtpParameters params : Json}
    (hsending : getSendingRtpParameters kind ext = .ok sending)
    (hreduced : reducedCodecs sending = .ok reduced)
    (hremote : getSendingRemoteRtpParameters kind ext = .ok sendingRemote)
    (hanswer : reducedCodecs sendingRemote = .ok answerRtpParameters)
    (hparams : completeRtpParam reduced mid cname encodings = .ok params) (s : RemoteSdp)
    (offerMediaObject : Json) (codecOptions : Option Json) :
    producedRtpParam s offerMediaObject kind ext mid cname encodings codecOptions =
      validSendRtpParam s offerMediaObject params answerRtpParameters codecOptions := by
  have hsend : sendRtpParam kind ext mid cname encodings = .ok params := by
    simp only [sendRtpParam, hsending, ok_bind, hreduced, hparams]
  rw [producedRtpParam, hsend, hremote]
  change (liftM (reducedCodecs sendingRemote) >>= fun answerRtpParameters =>
    validSendRtpParam s offerMediaObject params answerRtpParameters codecOptions) = _
  rw [hanswer]
  rfl

/-- The rtpParameters member of the produce request, if the model accepts the parameters. -/
def produceParameters (rtpParam : Json) : Option Json :=
  reencode ProduceRequest.RTPParameters rtpParam

/-- The encodings of parameters. -/
def encodingsOf (params : Json) : List Json := ((params.find "encodings").getD .null).elems

/-- The ssrc of the rtx of an encoding. -/
def rtxSsrc (encoding : Json) : Option Json := (encoding.find "rtx").bind fun rtx => rtx.find "ssrc"

/-- A codec keeps these members. -/
def codecMembers : List String := ["payloadType", "mimeType", "clockRate", "channels", "rtcpFeedback"]

/-- An encoding keeps these members. -/
def encodingMembers : List String := ["ssrc", "rid", "dtx", "scalabilityMode"]

/-- A codec is the same on the wire, its parameters included. -/
structure CodecKept (codec wire : Json) : Prop where
  members : ∀ k ∈ codecMembers, wire.find k = (codec.find k).map reparse
  parameters : ∀ k, readParameter id k wire = (readParameter id k codec).map reparse

/-- An encoding is the same on the wire, the ssrc of its rtx included. -/
structure EncodingKept (encoding wire : Json) : Prop where
  members : ∀ k ∈ encodingMembers, wire.find k = (encoding.find k).map reparse
  rtx : rtxSsrc wire = (rtxSsrc encoding).map reparse

/-- Parameters go over the wire, and all their codecs and encodings are kept. -/
def ProducedFaithfully (rtpParam : Json) : Prop :=
  ∃ wire, produceParameters rtpParam = some wire ∧
    List.Forall₂ CodecKept (codecsOf rtpParam) (codecsOf wire) ∧
    List.Forall₂ EncodingKept (encodingsOf rtpParam) (encodingsOf wire)

/-- What the parameters have to look like: the model accepts them; the members of every codec and
    its parameters, and the members of every encoding, are ones that the model has, not null, and
    fit; and no encoding has an rtx. -/
structure ProduceKeeps (rtpParam : Json) : Prop where
  accepted : (Shape.object ProduceRequest.RTPParameters.fields).Accepts rtpParam
  codecs : ∀ c ∈ codecsOf rtpParam,
    (∀ k ∈ codecMembers, MemberFits ProduceRequest.Codec.fields k c) ∧
      ∀ k, MemberFits ProduceRequest.Parameters.fields k ((c.find "parameters").getD .null)
  encodings : ∀ e ∈ encodingsOf rtpParam,
    (∀ k ∈ encodingMembers, MemberFits ProduceRequest.Encoding.fields k e) ∧ e.find "rtx" = none

/-- A codec is kept exactly if its members and parameters fit. -/
theorem codecKept_iff {c w : Json}
    (h : (Shape.object ProduceRequest.Codec.fields).rewrite c = some w) :
    CodecKept c w ↔ (∀ k ∈ codecMembers, MemberFits ProduceRequest.Codec.fields k c) ∧
      ∀ k, MemberFits ProduceRequest.Parameters.fields k ((c.find "parameters").getD .null) := by
  constructor
  · intro hkept
    exact ⟨fun k hk => (Shape.member_survives_iff h k).mp (hkept.members k hk),
      fun k => (Shape.nested_survives_iff h rfl k).mp (hkept.parameters k)⟩
  · rintro ⟨hmembers, hparameters⟩
    exact ⟨fun k hk => (Shape.member_survives_iff h k).mpr (hmembers k hk),
      fun k => (Shape.nested_survives_iff h rfl k).mpr (hparameters k)⟩

/-- A validated encoding is kept exactly if its members fit and it has no rtx. -/
theorem encodingKept_iff {raw e w : Json} (hv : validateRtpEncodingParameters raw = .ok e)
    (h : (Shape.object ProduceRequest.Encoding.fields).rewrite e = some w) :
    EncodingKept e w ↔ (∀ k ∈ encodingMembers, MemberFits ProduceRequest.Encoding.fields k e) ∧
      e.find "rtx" = none := by
  have hlost : rtxSsrc w = none := by
    rw [rtxSsrc, Shape.find_rewrite h]
    rfl
  have hrtx : rtxSsrc e = none ↔ e.find "rtx" = none := by
    obtain ⟨m, m', rfl, rfl, hkeep, hssrc⟩ := validateRtpEncodingParameters_ok hv
    unfold rtxSsrc
    change (get "rtx" m').bind _ = none ↔ get "rtx" m' = none
    rw [hkeep "rtx" (by decide)]
    cases hget : get "rtx" m with
    | none => simp
    | some rtx =>
      obtain ⟨ssrc, hs⟩ := hssrc rtx hget
      simp [hs]
  constructor
  · intro hkept
    refine ⟨fun k hk => (Shape.member_survives_iff h k).mp (hkept.members k hk), hrtx.mp ?_⟩
    have hsame := hkept.rtx
    rw [hlost] at hsame
    exact Option.map_eq_none_iff.mp hsame.symm
  · rintro ⟨hmembers, hno⟩
    refine ⟨fun k hk => (Shape.member_survives_iff h k).mpr (hmembers k hk), ?_⟩
    rw [hlost, hrtx.mpr hno]
    rfl

/-- CORRECT: the codecs of a producer and its encodings go over the wire with everything the server
    needs, exactly if the model has what they contain, and no encoding has an rtx. -/
theorem produce_faithful {s : RemoteSdp} {offerMediaObject : Json} {kind mid cname : String}
    {ext : ExtendedRtpCapabilities} {encodings : List Json} {codecOptions : Option Json}
    {rtpParam : Json}
    (h : producedRtpParam s offerMediaObject kind ext mid cname encodings codecOptions =
      .ok rtpParam) : ProducedFaithfully rtpParam ↔ ProduceKeeps rtpParam := by
  obtain ⟨_, -, h⟩ := bind_ok.mp h
  obtain ⟨_, -, h⟩ := bind_ok.mp h
  obtain ⟨_, -, h⟩ := bind_ok.mp h
  obtain ⟨⟨_, sent⟩, -, hvalid⟩ := bind_ok.mp h
  obtain ⟨_, params, -, rfl, hok⟩ := validateRtpParameters_ok hvalid
  obtain ⟨_, codecs, -, -, hcodecs⟩ := hok.codecs
  obtain ⟨_, encodings, -, hmap, hencodings⟩ := hok.encodings
  have hc : codecsOf (.obj params) = codecs := by
    change ((get "codecs" params).getD .null).elems = codecs
    rw [hcodecs]
    rfl
  have he : encodingsOf (.obj params) = encodings := by
    change ((get "encodings" params).getD .null).elems = encodings
    rw [hencodings]
    rfl
  -- the codecs and encodings of the wire, one by one
  have hlists : ∀ {wire}, produceParameters (.obj params) = some wire →
      List.Forall₂ (fun c w => (Shape.object ProduceRequest.Codec.fields).rewrite c = some w)
        codecs (codecsOf wire) ∧
      List.Forall₂ (fun e w => (Shape.object ProduceRequest.Encoding.fields).rewrite e = some w)
        encodings (encodingsOf wire) := fun {wire} hwire => by
    rw [produceParameters, reencode_eq ProduceRequest.RTPParameters.has] at hwire
    obtain ⟨cs, hcs, hcfind⟩ := Shape.find_rewrite_array hwire rfl
      (hcodecs : (Json.obj params).find "codecs" = _)
    obtain ⟨es, hes, hefind⟩ := Shape.find_rewrite_array hwire rfl
      (hencodings : (Json.obj params).find "encodings" = _)
    rw [codecsOf, hcfind, encodingsOf, hefind]
    exact ⟨hcs, hes⟩
  have haccepts : (∃ wire, produceParameters (.obj params) = some wire) ↔
      (Shape.object ProduceRequest.RTPParameters.fields).Accepts (.obj params) := by
    rw [← Shape.accepts, produceParameters, reencode_eq ProduceRequest.RTPParameters.has,
      Option.isSome_iff_exists]
  constructor
  · rintro ⟨wire, hwire, hckept, hekept⟩
    obtain ⟨hcs, hes⟩ := hlists hwire
    rw [hc] at hckept
    rw [he] at hekept
    refine ⟨haccepts.mp ⟨wire, hwire⟩, fun c hmem => ?_, fun e hmem => ?_⟩
    · rw [hc] at hmem
      obtain ⟨w, -, hcw, hkept⟩ := mem_of_forall₂
        (List.Forall₂.mp (fun _ _ hcw hkept => And.intro hcw hkept) hcs hckept).flip hmem
      exact (codecKept_iff hcw).mp hkept
    · rw [he] at hmem
      obtain ⟨raw, -, hraw⟩ := mem_of_forall₂ (mapM_ok hmap) hmem
      obtain ⟨w, -, hew, hkept⟩ := mem_of_forall₂
        (List.Forall₂.mp (fun _ _ hew hkept => And.intro hew hkept) hes hekept).flip hmem
      exact (encodingKept_iff hraw hew).mp hkept
  · intro hk
    obtain ⟨wire, hwire⟩ := haccepts.mpr hk.accepted
    obtain ⟨hcs, hes⟩ := hlists hwire
    have hckeep := hk.codecs
    have hekeep := hk.encodings
    rw [hc] at hckeep
    rw [he] at hekeep
    refine ⟨wire, hwire, ?_, ?_⟩
    · rw [hc]
      exact ((List.forall₂_and_left _ _).mpr ⟨hckeep, hcs⟩).imp fun c w hcw =>
        (codecKept_iff hcw.2).mpr hcw.1
    · rw [he]
      have hraw : ∀ e ∈ encodings, ∃ raw, validateRtpEncodingParameters raw = .ok e := fun e hmem => by
        obtain ⟨raw, -, hraw⟩ := mem_of_forall₂ (mapM_ok hmap) hmem
        exact ⟨raw, hraw⟩
      refine ((List.forall₂_and_left _ _).mpr
        ⟨fun e hmem => And.intro (hraw e hmem) (hekeep e hmem), hes⟩).imp fun e w hew => ?_
      obtain ⟨⟨⟨raw, hraw⟩, hkeep⟩, hw⟩ := hew
      exact (encodingKept_iff hraw hw).mpr hkeep

/-- Extended capabilities of one audio and one video codec, with these parameters. -/
def avCapabilities (audio video : Json) : ExtendedRtpCapabilities where
  codecs := [{
      mimeType := .str "audio/opus"
      kind := .str "audio"
      clockRate := .uint 48000
      localPayloadType := .uint 111
      remotePayloadType := .uint 100
      localParameters := audio
      remoteParameters := audio
      rtcpFeedback := .arr []
      channels := some (.uint 2) }, {
      mimeType := .str "video/H264"
      kind := .str "video"
      clockRate := .uint 90000
      localPayloadType := .uint 98
      remotePayloadType := .uint 101
      localParameters := video
      remoteParameters := video
      rtcpFeedback := .arr []
      channels := none }]
  headerExtensions := []

/-- An offered section without header extensions. -/
def offeredSection (type : String) : Json :=
  .object [("type", .str type), ("mid", .str "0"), ("protocol", .str "UDP/TLS/RTP/SAVPF")]

/-- The audio settings. -/
def opusSettings : Json := .object [("opusStereo", .bool true), ("opusDtx", .bool true)]

theorem produce_faithful_opus : ∃ rtpParam,
    producedRtpParam remoteSdp₀ (offeredSection "audio") "audio"
        (avCapabilities (.object [("minptime", .uint 10)]) .null) "0" "c"
        [.object [("ssrc", .uint 1)]] (some opusSettings) = .ok rtpParam ∧
      (ProducedFaithfully rtpParam ↔ ProduceKeeps rtpParam) := by
  obtain ⟨rtpParam, h, -⟩ := exists_of_map (fun _ => ())
    (show (producedRtpParam remoteSdp₀ (offeredSection "audio") "audio"
      (avCapabilities (.object [("minptime", .uint 10)]) .null) "0" "c"
      [.object [("ssrc", .uint 1)]] (some opusSettings)).toOption.map _ = some () from rfl)
  exact ⟨rtpParam, h, produce_faithful h⟩

/-- The packetization mode of an H264 codec does not reach the server. -/
theorem produce_loses_packetization_mode : ∃ rtpParam,
    producedRtpParam remoteSdp₀ (offeredSection "video") "video"
        (avCapabilities .null (.object [("packetization-mode", .uint 1)])) "0" "c"
        [.object [("ssrc", .uint 1)]] none = .ok rtpParam ∧ ¬ProducedFaithfully rtpParam := by
  obtain ⟨rtpParam, h, hread⟩ := exists_of_map
    (fun rtpParam =>
      ((codecsOf rtpParam).map fun c => (readParameter id "packetization-mode" c).isSome,
        (produceParameters rtpParam).map fun wire =>
          (codecsOf wire).map fun w => (readParameter id "packetization-mode" w).isSome))
    (show (producedRtpParam remoteSdp₀ (offeredSection "video") "video"
      (avCapabilities .null (.object [("packetization-mode", .uint 1)])) "0" "c"
      [.object [("ssrc", .uint 1)]] none).toOption.map _ = some ([true], some [false]) from rfl)
  obtain ⟨hbefore, hafter⟩ := Prod.mk.inj hread
  refine ⟨rtpParam, h, fun ⟨wire, hwire, hcodecs, _⟩ => ?_⟩
  rw [hwire] at hafter
  obtain ⟨c, hc, hsome⟩ := List.map_eq_singleton_iff.mp hbefore
  obtain ⟨w, hw, hnone⟩ := List.map_eq_singleton_iff.mp (Option.some.inj hafter)
  rw [hc, hw] at hcodecs
  cases hcodecs with
  | cons hkept _ =>
    rw [hkept.parameters, Option.isSome_map, hsome] at hnone
    cases hnone

end MediasoupClient.Api
