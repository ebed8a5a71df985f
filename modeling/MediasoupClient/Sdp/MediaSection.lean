import MediasoupClient.Lib.Json
import Mathlib.Tactic.Common

/-! Media sections of the remote description (sdputil/MediaSection.cpp).

    A section is a JSON object that is built once and then changed in place:

        base (ICE)  ──▶  mid, type, protocol, connection, port 7, setup  ──▶  body

    An answer takes its mid from the offered section and its body from the answer's rtp parameters,
    an offer takes both from its arguments. Closing a section sets its port to 0. The constructors
    also read their arguments through the inserting `operator[]`; the members that inserts as null
    are not followed, only what is assigned. -/

namespace MediasoupClient.Sdp
open Lib

/-! ### Lines of one codec -/

/-- `<cctype>`'s `tolower` on every character. -/
def lower (s : String) : String := String.ofList (s.toList.map Char.toLower)

/-- `getCodecName`: the mime type without `audio/` or `video/` in front. -/
def getCodecName (codec : Json) : Except Fault String := do
  let mimeType ← (← codec.read "mimeType").toStr
  if lower (String.ofList (mimeType.toList.take 6)) ∈ ["audio/", "video/"] then
    return String.ofList (mimeType.toList.drop 6)
  else
    return mimeType

/-- The rtp, fmtp and rtcp-fb lines collected so far. -/
structure RtpLines where
  rtp : List Json := []
  fmtp : List Json := []
  rtcpFb : List Json := []

/-- How a parameter is printed: booleans, null and containers leave nothing. -/
def paramText : Json → String
  | .str s => s
  | .float q => Json.printFloat q
  | .int i => toString i
  | .uint n => toString (Json.wrap64 n)
  | _ => ""

/-- `key=value;key=value`, as long as there is something in front of a `;`. -/
def fmtpConfig (codecParameters : Json) : String :=
  codecParameters.items.foldl (fun config item =>
    (if config = "" then "" else config ++ ";") ++ item.1 ++ "=" ++ paramText item.2) ""

section
variable (access : Json → String → Except Fault Json)

/-- The rtpmap line of a codec. -/
def rtpLine (codec : Json) : Except Fault Json := do
  let payload ← access codec "payloadType"
  let name ← getCodecName codec
  let rate ← access codec "clockRate"
  let rtp := [("payload", payload), ("codec", .str name), ("rate", rate)]
  match codec.find "channels" with
  | none => return Json.object rtp
  | some channels =>
    let channels ← channels.toUInt 8
    return Json.object (if 1 < channels then rtp ++ [("encoding", .uint channels)] else rtp)

/-- The lines of a codec whose fmtp line is made of `codecParameters`. -/
def codecLines (lines : RtpLines) (rtp codec codecParameters : Json) : Except Fault RtpLines := do
  let payload ← access codec "payloadType"
  let config := fmtpConfig codecParameters
  let fmtp :=
    if config = "" then []
    else [Json.object [("payload", payload), ("config", .str config)]]
  let rtcpFb ← (← access codec "rtcpFeedback").elems.mapM fun fb => do
    let type ← access fb "type"
    let subtype ← access fb "parameter"
    return Json.object [("payload", payload), ("type", type), ("subtype", subtype)]
  return { rtp := lines.rtp ++ [rtp], fmtp := lines.fmtp ++ fmtp, rtcpFb := lines.rtcpFb ++ rtcpFb }

/-- The payload types, separated by blanks. -/
def payloadsLine (codecs : List Json) : Except Fault String :=
  codecs.foldlM (fun payloads codec => do
    let payloadType ← (← access codec "payloadType").toUInt 8
    return (if payloads = "" then "" else payloads ++ " ") ++ toString payloadType) ""

end

/-! ### Codec options -/

/-- One option: how its value is read, which parameter of the offered codec it sets, if any, and
    which parameter of the answered one. -/
structure CodecOption where
  name : String
  value : Json → Except Fault Json
  offer : Option String
  answer : String

def flagOption (name offer answer : String) : CodecOption where
  name := name
  value j := return .int (if ← j.toBool then 1 else 0)
  offer := some offer
  answer := answer

def numberOption (name answer : String) : CodecOption where
  name := name
  value j := return .uint (← j.toUInt 32)
  offer := none
  answer := answer

def opusOptions : List CodecOption := [
  flagOption "opusStereo" "sprop-stereo" "stereo",
  flagOption "opusFec" "useinbandfec" "useinbandfec",
  flagOption "opusDtx" "usedtx" "usedtx",
  flagOption "opusCbr" "cbr" "cbr",
  numberOption "opusMaxPlaybackRate" "maxplaybackrate",
  numberOption "opusMaxAverageBitrate" "maxaveragebitrate",
  numberOption "opusPtime" "ptime"]

def videoOptions : List CodecOption := [
  numberOption "videoGoogleStartBitrate" "x-google-start-bitrate",
  numberOption "videoGoogleMaxBitrate" "x-google-max-bitrate",
  numberOption "videoGoogleMinBitrate" "x-google-min-bitrate"]

/-- The options a mime type has. -/
def optionsOf (mimeType : String) : List CodecOption :=
  if mimeType = "audio/opus" then opusOptions
  else if mimeType ∈ ["video/vp8", "video/vp9", "video/h264", "video/h265"] then videoOptions
  else []

/-- Apply one option to the answered parameters and to the offered codec. -/
def applyOption (codecOptions : Json) (st : Json × Json) (o : CodecOption) :
    Except Fault (Json × Json) :=
  match codecOptions.find o.name with
  | none => return st
  | some j => do
    let v ← o.value j
    let offerCodec ←
      match o.offer with
      | none => pure st.2
      | some key => do st.2.write "parameters" (← (← st.2.readOrNull "parameters").write key v)
    return (← st.1.write o.answer v, offerCodec)

/-- `find_if` with a predicate that can throw: the index of the first match. -/
def findIdx (p : Json → Except Fault Bool) : List Json → Except Fault (Option ℕ)
  | [] => return none
  | x :: xs => do
    if ← p x then return some 0
    else return (← findIdx p xs).map (· + 1)

/-- Apply the codec options to the parameters of an answered codec and to the offered codec of the
    same payload type, which has to be there. -/
def applyOptions (codecOptions codec codecParameters offerRtpParameters : Json) :
    Except Fault (Json × Json) := do
  let offerCodecs ← offerRtpParameters.readOrNull "codecs"
  let payloadType ← codec.readOrNull "payloadType"
  let idx ← findIdx (fun offerCodec =>
    return (← offerCodec.readOrNull "payloadType").eqv payloadType) offerCodecs.elems
  match idx with
  | none => .error .undefined
  | some idx =>
    let mimeType ← (← codec.readOrNull "mimeType").toStr
    let (codecParameters, offerCodec) ← (optionsOf (lower mimeType)).foldlM
      (applyOption codecOptions) (codecParameters, offerCodecs.elems.getD idx .null)
    return (codecParameters,
      ← offerRtpParameters.write "codecs" (offerCodecs.setElem idx offerCodec))

/-! ### Bodies -/

/-- The keys a body assigns. -/
def bodyKeys : List String :=
  ["direction", "rtp", "rtcpFb", "fmtp", "payloads", "ext", "extmapAllowMixed", "simulcast", "rids",
    "rtcpMux", "rtcpRsize", "ssrcs", "ssrcGroups", "sctpPort", "maxMessageSize"]

/-- The assignments a section ends with, in order. -/
structure Body where
  assignments : List (String × Json)
  keys : ∀ kv ∈ assignments, kv.1 ∈ bodyKeys

/-- The body of a section of another type. -/
def Body.empty : Body := ⟨[], fun _ h => absurd h List.not_mem_nil⟩

/-- The body of an application section. -/
def sctpBody (sctpParameters : Json) : Except Fault Body := do
  let port ← sctpParameters.read "port"
  let maxMessageSize ← sctpParameters.read "maxMessageSize"
  return ⟨[("payloads", .str "webrtc-datachannel"), ("sctpPort", port),
    ("maxMessageSize", maxMessageSize)], by simp [bodyKeys]⟩

/-- The lines an audio or video section starts with. -/
def mediaLines (direction : String) (lines : RtpLines) (payloads : String) (ext : List Json) :
    List (String × Json) :=
  [("direction", .str direction), ("rtp", .arr lines.rtp), ("rtcpFb", .arr lines.rtcpFb),
    ("fmtp", .arr lines.fmtp), ("payloads", .str payloads), ("ext", .arr ext)]

def rtcpLines : List (String × Json) :=
  [("rtcpMux", .str "rtcp-mux"), ("rtcpRsize", .str "rtcp-rsize")]

/-- The extensions of the answer that the offer has too. -/
def answerExt (offerMediaObject : Json) (exts : List Json) : Except Fault (List Json) :=
  exts.foldlM (fun acc ext => do
    let localExts ← offerMediaObject.read "ext"
    let idx ← findIdx (fun localExt =>
      return (← localExt.read "uri").eqv (← ext.readOrNull "uri")) localExts.elems
    match idx with
    | none => return acc
    | some _ =>
      return acc ++ [Json.object [("uri", ← ext.readOrNull "uri"),
        ("value", ← ext.readOrNull "id")]]) []

/-- The simulcast list and the rids that answer those of the offer, if it has both. -/
def answerSimulcast (offerMediaObject : Json) : Except Fault (Option (Json × List Json)) :=
  match offerMediaObject.find "simulcast", offerMediaObject.find "rids" with
  | some (.obj members), some (.arr rids) => do
    let list1 ← (Json.obj members).read "list1"
    let rids ← rids.foldlM (fun acc rid => do
      if (← rid.read "direction").eqv (.str "send") then
        return acc ++ [Json.object [("id", ← rid.read "id"), ("direction", .str "recv")]]
      else return acc) []
    return some (list1, rids)
  -- the rids iterator is used without asking whether it is `end()`
  | some (.obj _), none => .error .undefined
  | _, _ => return none

/-- The codec loop of an answer: the lines, and the offered rtp parameters with the options set. -/
def answerCodecs (codecOptions : Option Json) (offerRtpParameters : Json) (codecs : List Json) :
    Except Fault (RtpLines × Json) :=
  codecs.foldlM (fun st codec => do
    let rtp ← rtpLine Json.readOrNull codec
    let codecParameters ← codec.readOrNull "parameters"
    let (codecParameters, offerRtpParameters) ←
      match codecOptions with
      | none => pure (codecParameters, st.2)
      | some options =>
        if options.elems.isEmpty then pure (codecParameters, st.2)
        else applyOptions options codec codecParameters st.2
    return (← codecLines Json.readOrNull st.1 rtp codec codecParameters, offerRtpParameters))
    ({}, offerRtpParameters)

/-- The audio or video body of an answer. -/
def Body.answer (lines : RtpLines) (payloads : String) (ext : List Json) (extmapAllowMixed : Bool)
    (simulcast : Option (Json × List Json)) : Body where
  assignments := mediaLines "recvonly" lines payloads ext ++
    (if extmapAllowMixed then [("extmapAllowMixed", .str "extmap-allow-mixed")] else []) ++
    (match simulcast with
    | none => []
    | some (list1, rids) =>
      [("simulcast", Json.object [("dir1", .str "recv"), ("list1", list1)]),
        ("rids", .arr rids)]) ++ rtcpLines
  keys := by cases extmapAllowMixed <;> cases simulcast <;> simp [bodyKeys, mediaLines, rtcpLines]

/-- The audio or video body of an offer. -/
def Body.offer (lines : RtpLines) (payloads : String) (ext ssrcs ssrcGroups : List Json) :
    Body where
  assignments := mediaLines "sendonly" lines payloads ext ++ rtcpLines ++
    [("ssrcs", .arr ssrcs), ("ssrcGroups", .arr ssrcGroups)]
  keys := by simp [bodyKeys, mediaLines, rtcpLines]

def answerMedia (offerMediaObject offerRtpParameters answerRtpParameters : Json)
    (codecOptions : Option Json) : Except Fault (Body × Json) := do
  let codecs := (← answerRtpParameters.readOrNull "codecs").elems.map Json.touched
  let (lines, offerRtpParameters) ← answerCodecs codecOptions offerRtpParameters codecs
  let payloads ← payloadsLine Json.readOrNull codecs
  let ext ← answerExt offerMediaObject (← answerRtpParameters.readOrNull "headerExtensions").elems
  let extmapAllowMixed :=
    match offerMediaObject.find "extmapAllowMixed" with
    | some (.str _) => true
    | _ => false
  let simulcast ← answerSimulcast offerMediaObject
  return (.answer lines payloads ext extmapAllowMixed simulcast, offerRtpParameters)

/-- The ssrc lines of an encoding and the group that ties it to its retransmission. -/
def ssrcLines (ssrc rtxSsrc : ℕ) (cname msid : String) : List Json × List Json :=
  let line (id : ℕ) (attr value : String) := Json.object
    [("id", .uint id), ("attribute", .str attr), ("value", .str value)]
  let own := [line ssrc "cname" cname, line ssrc "msid" msid]
  if rtxSsrc = 0 then (own, [])
  else (own ++ [line rtxSsrc "cname" cname, line rtxSsrc "msid" msid],
    [Json.object [("semantics", .str "FID"),
      ("ssrcs", .str (toString ssrc ++ " " ++ toString rtxSsrc))]])

def offerMedia (offerRtpParameters : Json) (streamId trackId : String) : Except Fault Body := do
  let codecs := (← offerRtpParameters.read "codecs").elems
  let lines ← codecs.foldlM (fun lines codec => do
    let rtp ← rtpLine Json.read codec
    codecLines Json.read lines rtp codec (← codec.read "parameters")) {}
  let payloads ← payloadsLine Json.read codecs
  let ext ← (← offerRtpParameters.read "headerExtensions").elems.mapM fun ext => do
    return Json.object [("uri", ← ext.read "uri"), ("value", ← ext.read "id")]
  let encoding ← (← offerRtpParameters.read "encodings").readIdx 0
  let ssrc ← (← encoding.read "ssrc").toUInt 32
  let rtxSsrc ←
    match (encoding.find "rtx").bind (·.find "ssrc") with
    | some rtxSsrc => rtxSsrc.toUInt 32
    | none => pure 0
  let (ssrcs, ssrcGroups) :=
    match (← offerRtpParameters.read "rtcp").find "cname" with
    | some (.str cname) => ssrcLines ssrc rtxSsrc cname (streamId ++ " " ++ trackId)
    | _ => ([], [])
  return .offer lines payloads ext ssrcs ssrcGroups

/-! ### Sections -/

/-- The class of a section: they differ in `SetDtlsRole`. -/
inductive Side where | answer | offer
  deriving DecidableEq, Repr

/-- A media section. Its object always has a mid and a port. -/
structure MediaSection where
  side : Side
  mediaObject : StdMap String Json
  hasMid : (mediaObject.get "mid").isSome
  hasPort : (mediaObject.get "port").isSome

/-- Assignments one after another. -/
def assign (m : StdMap String Json) (l : List (String × Json)) : StdMap String Json :=
  l.foldl (fun m kv => m.insert kv.1 kv.2) m

theorem get_assign {m : StdMap String Json} {k : String} : ∀ {l : List (String × Json)},
    (∀ kv ∈ l, kv.1 ≠ k) → (assign m l).get k = m.get k
  | [], _ => rfl
  | (k', v) :: l, h => by
      have hk : k ≠ k' := (h (k', v) (List.mem_cons_self ..)).symm
      have htail : ∀ kv ∈ l, kv.1 ≠ k := fun kv hkv => h kv (List.mem_cons_of_mem _ hkv)
      rw [assign, List.foldl_cons, ← assign, get_assign htail, StdMap.get_insert_of_ne _ _ hk]

/-- A body leaves the mid and the port alone. -/
theorem get_assign_body (m : StdMap String Json) (body : Body) {k : String} (hk : k ∉ bodyKeys) :
    (assign m body.assignments).get k = m.get k :=
  get_assign fun kv hkv heq => hk (heq ▸ body.keys kv hkv)

namespace MediaSection

/-- `GetMid`. -/
def getMid (s : MediaSection) : Except Fault String :=
  ((s.mediaObject.get "mid").get s.hasMid).toStr

/-- `IsClosed`. -/
def isClosed (s : MediaSection) : Bool := ((s.mediaObject.get "port").get s.hasPort).eqv (.int 0)

/-- `GetObject`. -/
def getObject (s : MediaSection) : Json := .obj s.mediaObject.entries

/-- `mediaObject[key] = v`. -/
def set (s : MediaSection) (key : String) (v : Json) : MediaSection where
  side := s.side
  mediaObject := s.mediaObject.insert key v
  hasMid := by rw [StdMap.get_insert]; split_ifs; exacts [rfl, s.hasMid]
  hasPort := by rw [StdMap.get_insert]; split_ifs; exacts [rfl, s.hasPort]

/-- `mediaObject.erase(key)`, of a key that a section can lack. -/
def erase (s : MediaSection) (key : String) (h : key ∈ bodyKeys) : MediaSection where
  side := s.side
  mediaObject := s.mediaObject.erase key
  hasMid := by
    rw [StdMap.get_erase_of_ne _ fun heq => absurd (heq ▸ h) (by decide)]; exact s.hasMid
  hasPort := by
    rw [StdMap.get_erase_of_ne _ fun heq => absurd (heq ▸ h) (by decide)]; exact s.hasPort

/-- `SetIceParameters`. -/
def setIceParameters (s : MediaSection) (iceParameters : Json) : Except Fault MediaSection := do
  let usernameFragment ← iceParameters.read "usernameFragment"
  let password ← iceParameters.read "password"
  return (s.set "iceUfrag" usernameFragment).set "icePwd" password

/-- What a section that is not in use has no lines of. -/
def strip (s : MediaSection) : MediaSection :=
  ((((s.erase "ext" (by decide)).erase "ssrcs" (by decide)).erase "ssrcGroups" (by decide)).erase
    "simulcast" (by decide)).erase "rids" (by decide)

/-- `Disable`. -/
def disable (s : MediaSection) : MediaSection := (s.set "direction" (.str "inactive")).strip

/-- `Close`. -/
def close (s : MediaSection) : MediaSection :=
  ((s.set "direction" (.str "inactive")).set "port" (.int 0)).strip.erase "extmapAllowMixed"
    (by decide)

/-- The `a=setup` of an answer to a peer of the given role. -/
def setupOf (role : String) : Option String :=
  if role = "client" then some "active"
  else if role = "server" then some "passive"
  else if role = "auto" then some "actpass"
  else none

/-- `SetDtlsRole`: an offer always has `a=setup:actpass`. -/
def setDtlsRole (s : MediaSection) (role : String) : MediaSection :=
  match s.side with
  | .offer => s.set "setup" (.str "actpass")
  | .answer =>
    match setupOf role with
    | some setup => s.set "setup" (.str setup)
    | none => s

/-! ### Constructors -/

/-- One ICE candidate line. -/
def candidateObject (candidate : Json) : Except Fault Json := do
  let foundation ← candidate.read "foundation"
  let address ← candidate.read "address"
  let port ← candidate.read "port"
  let priority ← candidate.read "priority"
  let protocol ← candidate.read "protocol"
  let type ← candidate.read "type"
  let tcptype := (candidate.find "tcpType").toList.map fun tcpType => ("tcptype", tcpType)
  return Json.object ([("component", .int 1), ("foundation", foundation), ("ip", address),
    ("port", port), ("priority", priority), ("transport", protocol), ("type", type)] ++ tcptype)

/-- The constructor of the base class. -/
def base (iceParameters iceCandidates : Json) : Except Fault (StdMap String Json) := do
  let usernameFragment ← iceParameters.read "usernameFragment"
  let password ← iceParameters.read "password"
  let candidates ← iceCandidates.elems.mapM candidateObject
  return assign .empty [("iceUfrag", usernameFragment), ("icePwd", password),
    ("candidates", .arr candidates), ("endOfCandidates", .str "end-of-candidates"),
    ("iceOptions", .str "renomination")]

/-- What both constructors assign before the body. -/
def header (base : StdMap String Json) (mid type protocol : Json) (setup : Option String) :
    StdMap String Json :=
  let m := assign base [("mid", mid), ("type", type), ("protocol", protocol),
    ("connection", Json.object [("ip", .str "127.0.0.1"), ("version", .int 4)]), ("port", .int 7)]
  match setup with
  | some setup => m.insert "setup" (.str setup)
  | none => m

theorem get_header_mid (base : StdMap String Json) (mid type protocol : Json)
    (setup : Option String) : (header base mid type protocol setup).get "mid" = some mid := by
  cases setup <;> simp [header, assign, StdMap.get_insert]

theorem get_header_port (base : StdMap String Json) (mid type protocol : Json)
    (setup : Option String) :
    (header base mid type protocol setup).get "port" = some (.int 7) := by
  cases setup <;> simp [header, assign, StdMap.get_insert]

/-- A section of a header and a body. -/
def build (side : Side) (base : StdMap String Json) (mid type protocol : Json)
    (setup : Option String) (body : Body) : MediaSection where
  side := side
  mediaObject := assign (header base mid type protocol setup) body.assignments
  hasMid := by rw [get_assign_body _ _ (by decide), get_header_mid]; rfl
  hasPort := by rw [get_assign_body _ _ (by decide), get_header_port]; rfl

end MediaSection

open MediaSection

/-- The last part of `AnswerMediaSection`, by the type of the offered section. -/
def answerBody (type : String) (sctpParameters offerMediaObject offerRtpParameters
    answerRtpParameters : Json) (codecOptions : Option Json) : Except Fault (Body × Json) := do
  if type = "audio" ∨ type = "video" then
    answerMedia offerMediaObject offerRtpParameters answerRtpParameters codecOptions
  else if type = "application" then return (← sctpBody sctpParameters, offerRtpParameters)
  else return (.empty, offerRtpParameters)

/-- The last part of `OfferMediaSection`, by the kind. -/
def offerBody (kind : String) (sctpParameters offerRtpParameters : Json)
    (streamId trackId : String) : Except Fault Body :=
  if kind = "audio" ∨ kind = "video" then offerMedia offerRtpParameters streamId trackId
  else if kind = "application" then sctpBody sctpParameters
  else return .empty

/-- The protocol of an offered section. -/
def offerProtocol (sctpParameters : Json) : String :=
  if sctpParameters.eqv .null then "UDP/TLS/RTP/SAVPF" else "UDP/DTLS/SCTP"

/-- The constructor `AnswerMediaSection`. It also changes the offered rtp parameters, returned
    with the section. -/
def answerMediaSection (iceParameters iceCandidates dtlsParameters sctpParameters offerMediaObject
    offerRtpParameters answerRtpParameters : Json) (codecOptions : Option Json) :
    Except Fault (MediaSection × Json) := do
  let base ← base iceParameters iceCandidates
  let type ← (← offerMediaObject.read "type").toStr
  let mid ← offerMediaObject.read "mid"
  let protocol ← offerMediaObject.read "protocol"
  let dtlsRole ← (← dtlsParameters.read "role").toStr
  let (body, offerRtpParameters) ← answerBody type sctpParameters offerMediaObject
    offerRtpParameters answerRtpParameters codecOptions
  return (build .answer base mid (.str type) protocol (setupOf dtlsRole) body, offerRtpParameters)

/-- The constructor `OfferMediaSection`. -/
def offerMediaSection (iceParameters iceCandidates sctpParameters : Json) (mid kind : String)
    (offerRtpParameters : Json) (streamId trackId : String) : Except Fault MediaSection := do
  let base ← base iceParameters iceCandidates
  let body ← offerBody kind sctpParameters offerRtpParameters streamId trackId
  return build .offer base (.str mid) (.str kind) (.str (offerProtocol sctpParameters))
    (some "actpass") body

/-! ### The mid and the port -/

namespace MediaSection

theorem getMid_ok {s : MediaSection} {mid : String} :
    s.getMid = .ok mid ↔ s.mediaObject.get "mid" = some (.str mid) := by
  rw [getMid, Json.toStr_ok, Option.eq_some_iff_get_eq]
  exact ⟨fun h => ⟨s.hasMid, h⟩, fun ⟨_, h⟩ => h⟩

theorem getMid_error {s : MediaSection} {e : Fault} (h : s.getMid = .error e) :
    e = .typeError 302 := by
  unfold getMid Json.toStr at h
  split at h <;> cases h
  rfl

theorem getMid_congr {s s' : MediaSection}
    (h : s'.mediaObject.get "mid" = s.mediaObject.get "mid") : s'.getMid = s.getMid := by
  simp only [getMid, h]

theorem isClosed_congr {s s' : MediaSection}
    (h : s'.mediaObject.get "port" = s.mediaObject.get "port") : s'.isClosed = s.isClosed := by
  simp only [isClosed, h]

theorem get_set_of_ne (s : MediaSection) {key k : String} (v : Json) (h : k ≠ key) :
    (s.set key v).mediaObject.get k = s.mediaObject.get k := StdMap.get_insert_of_ne _ _ h

/-- The keys that `Disable` erases. -/
def strippedKeys : List String := ["ext", "ssrcs", "ssrcGroups", "simulcast", "rids"]

theorem get_strip (s : MediaSection) (k : String) :
    s.strip.mediaObject.get k = if k ∈ strippedKeys then none else s.mediaObject.get k := by
  simp only [strip, erase, StdMap.get_erase, strippedKeys, List.mem_cons, List.not_mem_nil]
  grind

theorem get_disable (s : MediaSection) (k : String) :
    s.disable.mediaObject.get k = if k ∈ strippedKeys then none else
      if k = "direction" then some (.str "inactive") else s.mediaObject.get k := by
  rw [disable, get_strip, set]
  simp only [StdMap.get_insert]

theorem get_close (s : MediaSection) (k : String) :
    s.close.mediaObject.get k = if k = "extmapAllowMixed" then none else
      if k ∈ strippedKeys then none else
      if k = "port" then some (.int 0) else
      if k = "direction" then some (.str "inactive") else s.mediaObject.get k := by
  rw [close, erase]
  simp only [StdMap.get_erase, get_strip, set, StdMap.get_insert]

@[simp] theorem getMid_disable (s : MediaSection) : s.disable.getMid = s.getMid :=
  getMid_congr (s.get_disable "mid")

@[simp] theorem isClosed_disable (s : MediaSection) : s.disable.isClosed = s.isClosed :=
  isClosed_congr (s.get_disable "port")

@[simp] theorem getMid_close (s : MediaSection) : s.close.getMid = s.getMid :=
  getMid_congr (s.get_close "mid")

theorem isClosed_of_port {s : MediaSection} {j : Json} (h : s.mediaObject.get "port" = some j) :
    s.isClosed = j.eqv (.int 0) := by simp only [isClosed, h, Option.get_some]

@[simp] theorem isClosed_close (s : MediaSection) : s.close.isClosed = true :=
  isClosed_of_port (s.get_close "port")

/-- There is nothing to disable. -/
def Disabled (s : MediaSection) : Prop :=
  s.mediaObject.get "direction" = some (.str "inactive") ∧
    ∀ key ∈ strippedKeys, s.mediaObject.get key = none

/-- There is nothing to close. -/
def Closed (s : MediaSection) : Prop :=
  s.Disabled ∧ s.mediaObject.get "port" = some (.int 0) ∧
    s.mediaObject.get "extmapAllowMixed" = none

theorem eq_iff_get {s t : MediaSection} :
    s = t ↔ s.side = t.side ∧ ∀ k, s.mediaObject.get k = t.mediaObject.get k := by
  constructor
  · rintro rfl
    exact ⟨rfl, fun _ => rfl⟩
  · rintro ⟨hside, hget⟩
    obtain ⟨side, mediaObject, _, _⟩ := s
    obtain ⟨side', mediaObject', _, _⟩ := t
    obtain rfl : side = side' := hside
    obtain rfl : mediaObject = mediaObject' := StdMap.ext_get hget
    rfl

theorem disable_eq_self_iff (s : MediaSection) : s.disable = s ↔ s.Disabled := by
  rw [eq_iff_get]
  constructor
  · rintro ⟨_, h⟩
    refine ⟨(h "direction").symm.trans (s.get_disable _), fun key hkey => ?_⟩
    rw [← h key, get_disable, if_pos hkey]
  · rintro ⟨hdir, hnone⟩
    refine ⟨rfl, fun k => ?_⟩
    rw [get_disable]
    split_ifs with hkey hk
    · exact (hnone k hkey).symm
    · rw [hk, hdir]
    · rfl

theorem close_eq_self_iff (s : MediaSection) : s.close = s ↔ s.Closed := by
  rw [eq_iff_get]
  constructor
  · rintro ⟨_, h⟩
    refine ⟨⟨(h "direction").symm.trans (s.get_close _), fun key hkey => ?_⟩,
      (h "port").symm.trans (s.get_close _), (h "extmapAllowMixed").symm.trans (s.get_close _)⟩
    rw [← h key, get_close, if_pos hkey, ite_self]
  · rintro ⟨⟨hdir, hnone⟩, hport, hmixed⟩
    refine ⟨rfl, fun k => ?_⟩
    rw [get_close]
    split_ifs with hk hkey hk hk
    · rw [hk, hmixed]
    · exact (hnone k hkey).symm
    · rw [hk, hport]
    · rw [hk, hdir]
    · rfl

theorem get_setDtlsRole (s : MediaSection) (role : String) {k : String} (hk : k ≠ "setup") :
    (s.setDtlsRole role).mediaObject.get k = s.mediaObject.get k := by
  unfold setDtlsRole
  split
  · exact get_set_of_ne _ _ hk
  · split
    · exact get_set_of_ne _ _ hk
    · rfl

@[simp] theorem getMid_setDtlsRole (s : MediaSection) (role : String) :
    (s.setDtlsRole role).getMid = s.getMid := getMid_congr (s.get_setDtlsRole role (by decide))

@[simp] theorem isClosed_setDtlsRole (s : MediaSection) (role : String) :
    (s.setDtlsRole role).isClosed = s.isClosed :=
  isClosed_congr (s.get_setDtlsRole role (by decide))

theorem setIceParameters_ok {s s' : MediaSection} {iceParameters : Json}
    (h : s.setIceParameters iceParameters = .ok s') :
    s'.getMid = s.getMid ∧ s'.isClosed = s.isClosed := by
  obtain ⟨u, _, h⟩ := bind_ok.mp h
  obtain ⟨p, _, h⟩ := bind_ok.mp h
  cases h
  have hget : ∀ k, k ≠ "iceUfrag" → k ≠ "icePwd" →
      ((s.set "iceUfrag" u).set "icePwd" p).mediaObject.get k = s.mediaObject.get k :=
    fun k h₁ h₂ => (get_set_of_ne _ _ h₂).trans (get_set_of_ne _ _ h₁)
  exact ⟨getMid_congr (hget _ (by decide) (by decide)),
    isClosed_congr (hget _ (by decide) (by decide))⟩

theorem get_build_mid (side : Side) (base : StdMap String Json) (mid type protocol : Json)
    (setup : Option String) (body : Body) :
    (build side base mid type protocol setup body).mediaObject.get "mid" = some mid := by
  rw [build]
  simp only
  rw [get_assign_body _ _ (by decide), get_header_mid]

/-- A new section is open. -/
theorem isClosed_build (side : Side) (base : StdMap String Json) (mid type protocol : Json)
    (setup : Option String) (body : Body) :
    (build side base mid type protocol setup body).isClosed = false := by
  have hport : (build side base mid type protocol setup body).mediaObject.get "port" =
      some (.int 7) := by
    rw [build]
    simp only
    rw [get_assign_body _ _ (by decide), get_header_port]
  rw [isClosed_of_port hport]
  rfl

end MediaSection

/-- An answer is open and has the mid of the offered section. -/
theorem answerMediaSection_ok {iceParameters iceCandidates dtlsParameters sctpParameters
    offerMediaObject offerRtpParameters answerRtpParameters : Json} {codecOptions : Option Json}
    {s : MediaSection} {o : Json}
    (h : answerMediaSection iceParameters iceCandidates dtlsParameters sctpParameters
      offerMediaObject offerRtpParameters answerRtpParameters codecOptions = .ok (s, o)) :
    s.isClosed = false ∧ s.mediaObject.get "mid" = offerMediaObject.find "mid" := by
  obtain ⟨base, _, h⟩ := bind_ok.mp h
  obtain ⟨jtype, _, h⟩ := bind_ok.mp h
  obtain ⟨type, _, h⟩ := bind_ok.mp h
  obtain ⟨mid, hmid, h⟩ := bind_ok.mp h
  obtain ⟨protocol, _, h⟩ := bind_ok.mp h
  obtain ⟨jrole, _, h⟩ := bind_ok.mp h
  obtain ⟨role, _, h⟩ := bind_ok.mp h
  obtain ⟨⟨body, o'⟩, _, h⟩ := bind_ok.mp h
  cases h
  exact ⟨isClosed_build .., by rw [get_build_mid, Json.read_ok.mp hmid]⟩

/-- An offer is open and has the mid it was given. -/
theorem offerMediaSection_ok {iceParameters iceCandidates sctpParameters : Json}
    {mid kind : String} {offerRtpParameters : Json} {streamId trackId : String} {s : MediaSection}
    (h : offerMediaSection iceParameters iceCandidates sctpParameters mid kind offerRtpParameters
      streamId trackId = .ok s) :
    s.isClosed = false ∧ s.getMid = .ok mid := by
  obtain ⟨base, _, h⟩ := bind_ok.mp h
  obtain ⟨body, _, h⟩ := bind_ok.mp h
  cases h
  exact ⟨isClosed_build .., getMid_ok.mpr (get_build_mid ..)⟩

end MediasoupClient.Sdp
