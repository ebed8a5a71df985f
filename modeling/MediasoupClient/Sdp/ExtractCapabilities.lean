import MediasoupClient.Sdp.Encodings
import MediasoupClient.Sdp.SdpTransform

/-! What a session says about the codecs (json/parser.cpp, and once more in sdputil/sdputil.cpp).

        rtp     ──▶  codecsMap[payload] = { kind, mimeType, ..., parameters: {}, rtcpFeedback: [] }
        fmtp    ──▶  codecsMap[payload].parameters, overwritten by each line
        rtcpFb  ──▶  codecsMap[payload].rtcpFeedback, one entry more with each line
        ext     ──▶  headerExtensions

    The map is keyed by `uint8_t`, and it is the same for the audio and the video section. The session
    is const: a member that is read has to be there. -/

namespace MediasoupClient.Sdp
open Lib

/-- `std::stoi`: blanks, a sign, and the digits up to the first other character. -/
def stoi (s : String) : Except Invalid ℤ :=
  let text := s.toList.dropWhile isSpace
  let (negative, text) :=
    match text with
    | '-' :: text => (true, text)
    | '+' :: text => (false, text)
    | text => (false, text)
  match text.takeWhile Char.isDigit with
  | [] => .error (.exception "invalid stoi argument")
  | digits =>
    let i : ℤ := if negative then -decimal digits else decimal digits
    if -2 ^ 31 ≤ i ∧ i < 2 ^ 31 then .ok i
    else .error (.exception "stoi argument out of range")

/-- An integer as a key of the map. -/
def toKey (i : ℤ) : ℕ := (i % 2 ^ 8).toNat

/-- A codec before its lines. -/
def blankCodec (kind name : String) (payload rate : Json) : Json := Json.object [
  ("kind", .str kind), ("mimeType", .str (kind ++ "/" ++ name)), ("preferredPayloadType", payload),
  ("clockRate", rate), ("parameters", .obj []), ("rtcpFeedback", .arr [])]

/-- The codec of a rtpmap line. -/
def extractCodec (kind : String) (rtp : Json) : Except Invalid Json := do
  let name ← (← rtp.read "codec").toStr
  let payload ← rtp.read "payload"
  let rate ← rtp.read "rate"
  let codec := blankCodec kind name payload rate
  if kind = "audio" then
    match rtp.find "encoding" with
    | some (.str encoding) => codec.write "channels" (.int (← stoi encoding))
    | _ => codec.write "channels" (.int 1)
  else return codec

def addCodec (kind : String) (codecsMap : StdMap ℕ Json) (rtp : Json) :
    Except Invalid (StdMap ℕ Json) := do
  let codec ← extractCodec kind rtp
  return codecsMap.insert (← (← codec.readOrNull "preferredPayloadType").toUInt 8) codec

/-- A `profile-id` that is a text becomes an integer. -/
def withProfileId (parameters : Members) : Except Invalid Json := do
  match get "profile-id" parameters with
  | some (.str profileId) => return .obj (put "profile-id" (.int (← stoi profileId)) parameters)
  | _ => return .obj parameters

/-- The entry of a rtcp-fb line. -/
def feedbackEntry (type fb : Json) : Json :=
  match fb.find "subtype" with
  | some subtype => Json.object [("type", type), ("parameter", subtype)]
  | none => Json.object [("type", type)]

def addFeedback (codecsMap : StdMap ℕ Json) (fb : Json) : Except Invalid (StdMap ℕ Json) := do
  let payload := toKey (← stoi (← (← fb.read "payload").toStr))
  match codecsMap.get payload with
  | none => return codecsMap
  | some codec =>
    let feedback := feedbackEntry (← fb.read "type") fb
    let feedbacks ← linesOf (codec.find "rtcpFeedback")
    return codecsMap.insert payload (← codec.write "rtcpFeedback" (.arr (feedbacks ++ [feedback])))

def extractExtension (kind : String) (ext : Json) : Except Invalid Json := do
  return Json.object [("kind", .str kind), ("uri", ← ext.read "uri"),
    ("preferredId", ← ext.read "value")]

/-- What is collected, section by section. -/
structure Extraction where
  codecsMap : StdMap ℕ Json
  headerExtensions : List Json
  gotAudio : Bool
  gotVideo : Bool

section
variable (parseParams : String → Except Invalid Members)

def addParameters (codecsMap : StdMap ℕ Json) (fmtp : Json) : Except Invalid (StdMap ℕ Json) := do
  let parameters ← parseParams (← (← fmtp.read "config").toStr)
  let payload ← (← fmtp.read "payload").toUInt 8
  match codecsMap.get payload with
  | none => return codecsMap
  | some codec =>
    let parameters ← withProfileId parameters
    return codecsMap.insert payload (← codec.write "parameters" parameters)

/-- The codecs and the header extensions of a section. -/
def extractSection (st : Extraction) (kind : String) (m : Json) : Except Invalid Extraction := do
  let codecsMap ← (← m.read "rtp").elems.foldlM (addCodec kind) st.codecsMap
  let codecsMap ← (← m.read "fmtp").elems.foldlM (addParameters parseParams) codecsMap
  let codecsMap ← (← m.read "rtcpFb").elems.foldlM addFeedback codecsMap
  let headerExtensions ← (← m.read "ext").elems.mapM (extractExtension kind)
  return { st with codecsMap, headerExtensions := st.headerExtensions ++ headerExtensions }

/-- The loop body: a second section of a kind is skipped. -/
def extractMedia (st : Extraction) (m : Json) : Except Invalid Extraction := do
  let kind ← (← m.read "type").toStr
  if kind = "audio" then
    if st.gotAudio then return st
    else extractSection parseParams { st with gotAudio := true } kind m
  else if kind = "video" then
    if st.gotVideo then return st
    else extractSection parseParams { st with gotVideo := true } kind m
  else return st

/-- `extractRtpCapabilities`; `sdptransform::parseParams` is a parameter, that returns the members of
    an object. -/
def extractRtpCapabilities (sdpObject : Json) : Except Invalid Json := do
  let st ← (← sdpObject.read "media").elems.foldlM (extractMedia parseParams) ⟨.empty, [], false, false⟩
  return Json.object [("headerExtensions", .arr st.headerExtensions),
    ("codecs", .arr st.codecsMap.values), ("fecMechanisms", .arr [])]

end

end MediasoupClient.Sdp
