import MediasoupClient.Sdp.JsonValidate

/-! Negotiation of capabilities (sdputil/jsonvalidate.cpp).

        local codecs      l₀   l₁   l₂ ...
                           │ ◀── the first that matches strictly, for each remote codec that is no rtx
        remote codecs     r₀   r₁   r₂ ...
                           ▼
        extended codecs   payload types and parameters of both sides; then, in a second pass, the rtx
                          payload types of the two sides, if both have an rtx codec for the pair

    The comparison of two H264 codecs writes the profile-level-id of the answer into both, while the
    scan is still going on. The two functions of WebRTC it calls are parameters. -/

namespace MediasoupClient.Sdp
open Lib

/-! ### Parameters of a codec -/

/-- `*codec.find(key)`, of a member that has to be there. -/
def member (codec : Json) (key : String) : Except Fault Json :=
  match codec.find key with
  | some v => .ok v
  | none => .error .undefined

/-- A parameter that is 0 unless it is an integer, as a byte. -/
def byteParameter (key : String) (codec : Json) : Except Fault ℕ := do
  let parameters ← codec.read "parameters"
  match parameters.find key with
  | some v => if v.isNumberInteger then v.toUInt 8 else return 0
  | none => return 0

/-- A parameter that is a text, or a number that is printed, with its default. -/
def textParameter (key default : String) (codec : Json) : Except Fault String := do
  let parameters ← codec.read "parameters"
  match parameters.find key with
  | some v => if v.isNumber then return toString (← v.toInt32) else v.toStr
  | none => return default

def getH264PacketizationMode : Json → Except Fault ℕ := byteParameter "packetization-mode"

def getH264LevelAssimetryAllowed : Json → Except Fault ℕ := byteParameter "level-asymmetry-allowed"

def getH264ProfileLevelId : Json → Except Fault String := textParameter "profile-level-id" ""

def getVP9ProfileId : Json → Except Fault String := textParameter "profile-id" "0"

/-- `isRtxCodec`. -/
def isRtxCodec (codec : Json) : Except Fault Bool := do
  let mimeType ← (← codec.read "mimeType").toStr
  return decide (lower mimeType ∈ ["audio/rtx", "video/rtx"])

/-! ### Comparing two codecs -/

/-- The `cricket::CodecParameterMap` of an H264 codec. -/
structure CodecParameterMap where
  levelAsymmetryAllowed : String
  packetizationMode : String
  profileLevelId : String

/-- The functions of WebRTC (media/base/sdp_video_format_utils.h). The second one throws, or gives
    the profile-level-id of the answer, if it sets one. -/
structure WebRtc where
  h264IsSameProfile : CodecParameterMap → CodecParameterMap → Bool
  h264GenerateProfileLevelIdForAnswer :
    CodecParameterMap → CodecParameterMap → Except Unit (Option String)

/-- `codec["parameters"]["profile-level-id"]` is set, or erased. -/
def setProfileLevelId (id : Option String) (codec : Json) : Except Fault Json := do
  let parameters ← codec.readOrNull "parameters"
  match id with
  | some id => codec.write "parameters" (← parameters.write "profile-level-id" (.str id))
  | none => codec.write "parameters" (← parameters.eraseKey "profile-level-id")

/-- Both have no channels, or equal ones. -/
def sameChannels (aCodec bCodec : Json) : Bool :=
  match aCodec.find "channels", bCodec.find "channels" with
  | none, none => true
  | some a, some b => a.eqv b
  | _, _ => false

section
variable (webrtc : WebRtc)

/-- The strict comparison of two H264 codecs, and the codecs after it. -/
def matchH264 (aCodec bCodec : Json) (modify : Bool) : Except Fault (Bool × Json × Json) := do
  let aPacketizationMode ← getH264PacketizationMode aCodec
  let bPacketizationMode ← getH264PacketizationMode bCodec
  if aPacketizationMode ≠ bPacketizationMode then return (false, aCodec, bCodec)
  else
    let aLevelAsymmetryAllowed ← getH264LevelAssimetryAllowed aCodec
    let aProfileLevelId ← getH264ProfileLevelId aCodec
    let bLevelAsymmetryAllowed ← getH264LevelAssimetryAllowed bCodec
    let bProfileLevelId ← getH264ProfileLevelId bCodec
    let aParameters : CodecParameterMap :=
      ⟨toString aLevelAsymmetryAllowed, toString aPacketizationMode, aProfileLevelId⟩
    let bParameters : CodecParameterMap :=
      ⟨toString bLevelAsymmetryAllowed, toString bPacketizationMode, bProfileLevelId⟩
    if !webrtc.h264IsSameProfile aParameters bParameters then return (false, aCodec, bCodec)
    else
      match webrtc.h264GenerateProfileLevelIdForAnswer aParameters bParameters with
      | .error _ => return (false, aCodec, bCodec)
      | .ok id =>
        if modify then
          return (true, ← setProfileLevelId id aCodec, ← setProfileLevelId id bCodec)
        else return (true, aCodec, bCodec)

/-- `matchCodecs`, and the codecs after it. -/
def matchCodecs (aCodec bCodec : Json) (strict modify : Bool) :
    Except Fault (Bool × Json × Json) := do
  let aMimeType := lower (← (← member aCodec "mimeType").toStr)
  let bMimeType := lower (← (← member bCodec "mimeType").toStr)
  if aMimeType ≠ bMimeType then return (false, aCodec, bCodec)
  else
    let aClockRate ← aCodec.readOrNull "clockRate"
    let bClockRate ← bCodec.readOrNull "clockRate"
    if !aClockRate.eqv bClockRate then return (false, aCodec, bCodec)
    else if !sameChannels aCodec bCodec then return (false, aCodec, bCodec)
    else if aMimeType = "video/h264" ∧ strict then matchH264 webrtc aCodec bCodec modify
    else if aMimeType = "video/vp9" ∧ strict then
      let aProfileId ← getVP9ProfileId aCodec
      let bProfileId ← getVP9ProfileId bCodec
      return (aProfileId = bProfileId, aCodec, bCodec)
    else return (true, aCodec, bCodec)

/-- The scan of the local codecs for a remote one: the position of the first match, and the codecs
    after it. -/
def findMatchingCodec : List Json → Json → Except Fault (Option ℕ × List Json × Json)
  | [], remoteCodec => return (none, [], remoteCodec)
  | localCodec :: localCodecs, remoteCodec => do
    let (matched, localCodec, remoteCodec) ← matchCodecs webrtc localCodec remoteCodec true true
    if matched then return (some 0, localCodec :: localCodecs, remoteCodec)
    else
      let (idx, localCodecs, remoteCodec) ← findMatchingCodec localCodecs remoteCodec
      return (idx.map (· + 1), localCodec :: localCodecs, remoteCodec)

end

/-! ### Extended capabilities -/

/-- An element of `extendedRtpCapabilities["codecs"]`: an object with these keys. -/
structure ExtendedCodec where
  mimeType : Json
  kind : Json
  clockRate : Json
  localPayloadType : Json
  localRtxPayloadType : Json := .null
  remotePayloadType : Json
  remoteRtxPayloadType : Json := .null
  localParameters : Json
  remoteParameters : Json
  rtcpFeedback : Json
  channels : Option Json

/-- An element of `extendedRtpCapabilities["headerExtensions"]`. -/
structure ExtendedExtension where
  kind : Json
  uri : Json
  sendId : Json
  recvId : Json
  encrypt : Json
  direction : Option String

structure ExtendedRtpCapabilities where
  codecs : List ExtendedCodec
  headerExtensions : List ExtendedExtension

/-- `reduceRtcpFeedback`: for each feedback of A, the first of B that is the same. -/
def reduceRtcpFeedback (codecA codecB : Json) : Except Fault Json := do
  let rtcpFeedbackA ← member codecA "rtcpFeedback"
  let rtcpFeedbackB ← member codecB "rtcpFeedback"
  let reduced ← rtcpFeedbackA.elems.foldlM (fun reduced aFb => do
    let idx ← findIdx (fun bFb => do
      if (← aFb.read "type").eqv (← bFb.read "type") then
        return (← aFb.read "parameter").eqv (← bFb.read "parameter")
      else return false) rtcpFeedbackB.elems
    match idx with
    | some idx => return reduced ++ [rtcpFeedbackB.elems.getD idx .null]
    | none => return reduced) []
  return .arr reduced

/-- The extended codec of a pair. -/
def extendCodec (localCodec remoteCodec : Json) : Except Fault ExtendedCodec := do
  return {
    mimeType := ← localCodec.readOrNull "mimeType"
    kind := ← localCodec.readOrNull "kind"
    clockRate := ← localCodec.readOrNull "clockRate"
    localPayloadType := ← localCodec.readOrNull "preferredPayloadType"
    remotePayloadType := ← remoteCodec.readOrNull "preferredPayloadType"
    localParameters := ← localCodec.readOrNull "parameters"
    remoteParameters := ← remoteCodec.readOrNull "parameters"
    rtcpFeedback := ← reduceRtcpFeedback localCodec remoteCodec
    channels := localCodec.find "channels" }

/-- A match: the positions of the two codecs, and the extended codec made of them. -/
structure Match where
  remoteIdx : ℕ
  localIdx : ℕ
  extended : ExtendedCodec

section
variable (webrtc : WebRtc)

/-- The first pass, from the remote codec at `idx` on: the matches, and the codecs after it. -/
def matchMediaCodecs (localCodecs : List Json) :
    ℕ → List Json → Except Fault (List Match × List Json × List Json)
  | _, [] => return ([], localCodecs, [])
  | idx, remoteCodec :: remoteCodecs => do
    if ← isRtxCodec remoteCodec then
      let (matched, localCodecs, remoteCodecs) ←
        matchMediaCodecs localCodecs (idx + 1) remoteCodecs
      return (matched, localCodecs, remoteCodec :: remoteCodecs)
    else
      let (localIdx, localCodecs, remoteCodec) ← findMatchingCodec webrtc localCodecs remoteCodec
      let first ← match localIdx with
        | none => pure []
        | some localIdx => do
          pure [⟨idx, localIdx, ← extendCodec (localCodecs.getD localIdx .null) remoteCodec⟩]
      let (matched, localCodecs, remoteCodecs) ←
        matchMediaCodecs localCodecs (idx + 1) remoteCodecs
      return (first ++ matched, localCodecs, remoteCodec :: remoteCodecs)

end

/-- Whether a codec is the rtx codec of a payload type. -/
def isRtxCodecOf (payloadType codec : Json) : Except Fault Bool := do
  if ← isRtxCodec codec then
    return (← (← codec.read "parameters").read "apt").eqv payloadType
  else return false

/-- The second pass, for one extended codec. -/
def matchRtxCodecs (localCodecs remoteCodecs : List Json) (codec : ExtendedCodec) :
    Except Fault ExtendedCodec := do
  match ← findIdx (isRtxCodecOf codec.localPayloadType) localCodecs with
  | none => return codec
  | some localIdx =>
    match ← findIdx (isRtxCodecOf codec.remotePayloadType) remoteCodecs with
    | none => return codec
    | some remoteIdx =>
      return { codec with
        localRtxPayloadType := ←
          (localCodecs.getD localIdx .null).readOrNull "preferredPayloadType"
        remoteRtxPayloadType := ←
          (remoteCodecs.getD remoteIdx .null).readOrNull "preferredPayloadType" }

def matchHeaderExtensions (aExt bExt : Json) : Except Fault Bool := do
  if !(← aExt.read "kind").eqv (← bExt.read "kind") then return false
  else return (← aExt.read "uri").eqv (← bExt.read "uri")

/-- The direction seen from the other side; any other text leaves no direction. -/
def oppositeDirection (direction : String) : Option String :=
  if direction = "sendrecv" then some "sendrecv"
  else if direction = "recvonly" then some "sendonly"
  else if direction = "sendonly" then some "recvonly"
  else if direction = "inactive" then some "inactive"
  else none

/-- The extended header extension of a remote one, if there is a local one like it. -/
def extendExtension (localExts : List Json) (remoteExt : Json) :
    Except Fault (List ExtendedExtension) := do
  match ← findIdx (fun localExt => matchHeaderExtensions localExt remoteExt) localExts with
  | none => return []
  | some idx =>
    let localExt := localExts.getD idx .null
    return [{
      kind := ← remoteExt.readOrNull "kind"
      uri := ← remoteExt.readOrNull "uri"
      sendId := ← localExt.readOrNull "preferredId"
      recvId := ← remoteExt.readOrNull "preferredId"
      encrypt := ← localExt.readOrNull "preferredEncrypt"
      direction := oppositeDirection (← (← remoteExt.readOrNull "direction").toStr) }]

section
variable (webrtc : WebRtc)

/-- The matches of validated capabilities, with their rtx payload types. -/
def matchCapabilities (localCaps remoteCaps : Json) : Except Fault (List Match) := do
  let localCodecs := (← localCaps.readOrNull "codecs").elems
  let remoteCodecs := (← remoteCaps.readOrNull "codecs").elems
  let (matched, localCodecs, remoteCodecs) ←
    matchMediaCodecs webrtc localCodecs 0 remoteCodecs
  matched.mapM fun m => do
    return { m with extended := ← matchRtxCodecs localCodecs remoteCodecs m.extended }

/-- `getExtendedRtpCapabilities`. -/
def getExtendedRtpCapabilities (localCaps remoteCaps : Json) :
    Except Invalid ExtendedRtpCapabilities := do
  let localCaps ← validateRtpCapabilities localCaps
  let remoteCaps ← validateRtpCapabilities remoteCaps
  let matched ← matchCapabilities webrtc localCaps remoteCaps
  let localExts ← localCaps.readOrNull "headerExtensions"
  let remoteExts ← remoteCaps.readOrNull "headerExtensions"
  let headerExtensions ←
    (remoteExts.elems.mapM (extendExtension localExts.elems) :
      Except Fault (List (List ExtendedExtension)))
  return { codecs := matched.map (·.extended), headerExtensions := headerExtensions.flatten }

end

/-! ### Capabilities and parameters made of the extended ones -/

/-- `codec["channels"]` is set if the extended codec has channels. -/
def withChannels (ext : ExtendedCodec) (members : List (String × Json)) : Json :=
  .object (members ++ ext.channels.toList.map fun channels => ("channels", channels))

/-- The codecs of `getRecvRtpCapabilities` for an extended one: itself, and its rtx codec. -/
def recvCodecs (ext : ExtendedCodec) : Except Fault (List Json) := do
  let codec := withChannels ext [
    ("mimeType", ext.mimeType),
    ("kind", ext.kind),
    ("preferredPayloadType", ext.remotePayloadType),
    ("clockRate", ext.clockRate),
    ("parameters", ext.localParameters),
    ("rtcpFeedback", ext.rtcpFeedback)]
  if ext.remoteRtxPayloadType.isNull then return [codec]
  else
    let mimeType := (← ext.kind.toStr) ++ "/rtx"
    let apt ← ext.remotePayloadType.toUInt 8
    return [codec, .object [
      ("mimeType", .str mimeType),
      ("kind", ext.kind),
      ("preferredPayloadType", ext.remoteRtxPayloadType),
      ("clockRate", ext.clockRate),
      ("parameters", .object [("apt", .uint apt)]),
      ("rtcpFeedback", .arr [])]]

/-- The header extension of `getRecvRtpCapabilities` for an extended one, if it receives. -/
def recvExtension (ext : ExtendedExtension) : Except Fault (List Json) :=
  match ext.direction with
  | none => .error .undefined
  | some direction =>
    if direction ≠ "sendrecv" ∧ direction ≠ "recvonly" then return []
    else return [.object [
      ("kind", ext.kind),
      ("uri", ext.uri),
      ("preferredId", ext.recvId),
      ("preferredEncrypt", ext.encrypt),
      ("direction", .str direction)]]

def getRecvRtpCapabilities (ext : ExtendedRtpCapabilities) : Except Fault Json := do
  let codecs ← ext.codecs.mapM recvCodecs
  let headerExtensions ← ext.headerExtensions.mapM recvExtension
  return .object [
    ("codecs", .arr codecs.flatten),
    ("headerExtensions", .arr headerExtensions.flatten)]

/-- The codecs of `getSendingRtpParameters` for an extended one: itself, and its rtx codec. -/
def sendingCodecs (ext : ExtendedCodec) : Except Fault (List Json) := do
  let codec := withChannels ext [
    ("mimeType", ext.mimeType),
    ("payloadType", ext.localPayloadType),
    ("clockRate", ext.clockRate),
    ("parameters", ext.localParameters),
    ("rtcpFeedback", ext.rtcpFeedback)]
  if ext.localRtxPayloadType.isNull then return [codec]
  else
    let mimeType := (← ext.kind.toStr) ++ "/rtx"
    let apt ← ext.localPayloadType.toUInt 8
    return [codec, .object [
      ("mimeType", .str mimeType),
      ("payloadType", ext.localRtxPayloadType),
      ("clockRate", ext.clockRate),
      ("parameters", .object [("apt", .uint apt)]),
      ("rtcpFeedback", .arr [])]]

/-- The first codec of the kind: the loop stops there. -/
def firstOfKind (kind : String) : List ExtendedCodec → Except Fault (List Json)
  | [] => return []
  | ext :: exts => do
    if kind ≠ (← ext.kind.toStr) then firstOfKind kind exts
    else sendingCodecs ext

/-- The header extension of `getSendingRtpParameters` for an extended one, if it is of the kind and
    sends. -/
def sendingExtension (kind : String) (ext : ExtendedExtension) : Except Fault (List Json) := do
  if kind ≠ (← ext.kind.toStr) then return []
  else
    match ext.direction with
    | none => .error .undefined
    | some direction =>
      if direction ≠ "sendrecv" ∧ direction ≠ "sendonly" then return []
      else return [.object [
        ("uri", ext.uri),
        ("id", ext.sendId),
        ("encrypt", ext.encrypt),
        ("parameters", .obj [])]]

def getSendingRtpParameters (kind : String) (ext : ExtendedRtpCapabilities) :
    Except Fault Json := do
  let codecs ← firstOfKind kind ext.codecs
  let headerExtensions ← ext.headerExtensions.mapM (sendingExtension kind)
  return .object [
    ("mid", .null),
    ("codecs", .arr codecs),
    ("headerExtensions", .arr headerExtensions.flatten),
    ("encodings", .arr []),
    ("rtcp", .obj [])]

/-- The codecs of `getSendingRemoteRtpParameters` for an extended one: as those that are sent, but
    with the parameters of the remote codec. -/
def sendingRemoteCodecs (kind : String) (ext : ExtendedCodec) : Except Fault (List Json) := do
  if kind ≠ (← ext.kind.toStr) then return []
  else sendingCodecs { ext with localParameters := ext.remoteParameters }

/-- Whether one of the header extensions has this uri. -/
def hasUri (uri : String) (headerExtensions : List Json) : Except Fault Bool :=
  return (← findIdx (fun ext => do
    return (← (← ext.readOrNull "uri").toStr) = uri) headerExtensions).isSome

/-- The types of feedback that are not used: transport-cc is preferred to goog-remb, and each of
    them needs its header extension. -/
def unusedFeedback (headerExtensions : List Json) : Except Fault (List String) := do
  if ← hasUri "http://www.ietf.org/id/draft-holmer-rmcat-transport-wide-cc-extensions-01"
    headerExtensions then return ["goog-remb"]
  else if ← hasUri "http://www.webrtc.org/experiments/rtp-hdrext/abs-send-time"
    headerExtensions then return ["transport-cc"]
  else return ["transport-cc", "goog-remb"]

/-- The feedback of a codec without these types. -/
def withoutFeedback (types : List String) (codec : Json) : Except Fault Json := do
  let rtcpFeedback ← (← codec.readOrNull "rtcpFeedback").elems.filterM fun fb => do
    return (← (← fb.readOrNull "type").toStr) ∉ types
  codec.write "rtcpFeedback" (.arr rtcpFeedback)

def getSendingRemoteRtpParameters (kind : String) (ext : ExtendedRtpCapabilities) :
    Except Fault Json := do
  let codecs ← ext.codecs.mapM (sendingRemoteCodecs kind)
  let headerExtensions ← ext.headerExtensions.mapM (sendingExtension kind)
  let unused ← unusedFeedback headerExtensions.flatten
  let codecs ← codecs.flatten.mapM (withoutFeedback unused)
  return .object [
    ("mid", .null),
    ("codecs", .arr codecs),
    ("headerExtensions", .arr headerExtensions.flatten),
    ("encodings", .arr []),
    ("rtcp", .obj [])]

/-- `reduceCodecs(codecs, NULL)`: the first codec, and the second one if it is an rtx codec. -/
def reduceCodecs (codecs : List Json) : Except Fault (List Json) := do
  match codecs with
  | first :: second :: _ => if ← isRtxCodec second then return [first, second] else return [first]
  | _ => return [codecs.getD 0 .null]

end MediasoupClient.Sdp
