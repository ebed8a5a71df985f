import MediasoupClient.Sdp.JsonValidate
import Mathlib.Data.List.Destutter

/-! What is read from the client's own descriptions (sdputil/sdputil.cpp).

        description   ──▶  fingerprint and setup           extractDtlsParameters
        offered m=    ──▶  the first attribute of an ssrc  getCname
                      ──▶  ssrcs and their FID groups      getRtpEncodings
        answered m=   ──▶  its fmtp lines, changed         applyCodecParameters

    A FID group ties an ssrc to the one of its retransmission:

        a=ssrc-group:FID 1111 2222   ──▶   { ssrc: 1111, rtx: { ssrc: 2222 } } -/

namespace MediasoupClient.Sdp
open Lib

/-- The first section with ICE credentials that is not rejected. -/
def transportSection : List Json → Except Fault Json
  | [] => return .null
  | media :: rest => do
    if (media.find "iceUfrag").isSome then
      if (← media.read "port").eqv (.int 0) then transportSection rest
      else return media
    else transportSection rest

/-- The role of a peer whose section has this `a=setup`. -/
def roleOfSetup (setup : String) : String :=
  if setup = "active" then "client"
  else if setup = "passive" then "server"
  else if setup = "actpass" then "auto"
  else ""

def extractDtlsParameters (sdpObject : Json) : Except Fault Json := do
  let m ← transportSection (← sdpObject.read "media").elems
  let fingerprint :=
    match m.find "fingerprint" with
    | some fingerprint => fingerprint
    | none => (sdpObject.find "fingerprint").getD .null
  let role ←
    match m.find "setup" with
    | some setup => do pure (roleOfSetup (← setup.toStr))
    | none => pure ""
  let algorithm ← fingerprint.readOrNull "type"
  let value ← fingerprint.readOrNull "hash"
  return Json.object [
    ("role", .str role),
    ("fingerprints", .arr [Json.object [("algorithm", algorithm), ("value", value)]])]

/-- `getCname`: the value of the first ssrc line whose attribute is a string. -/
def getCname (offerMediaObject : Json) : Except Fault String :=
  match offerMediaObject.find "ssrcs" with
  | none => return ""
  | some mSsrcs =>
    match mSsrcs.elems.find? fun line => (line.find "attribute").any (·.isString) with
    | none => return ""
    | some ssrcCnameLine => do (← ssrcCnameLine.read "value").toStr

/-! ### Encodings -/

/-- The tokens up to each delimiter, and what comes after the last one if that is not empty. -/
def splitChars (delimiter : Char) : List Char → List Char → List String
  | [], [] => []
  | token, [] => [String.ofList token]
  | token, c :: cs =>
    if c = delimiter then String.ofList token :: splitChars delimiter [] cs
    else splitChars delimiter (token ++ [c]) cs

/-- `Utils::split`. -/
def split (s : String) (delimiter : Char) : List String := splitChars delimiter [] s.toList

/-- A token in front of a delimiter, and the last token. -/
theorem splitChars_append {d : Char} : ∀ {cs : List Char} (token rest : List Char), d ∉ cs →
    splitChars d token (cs ++ d :: rest) = String.ofList (token ++ cs) :: splitChars d [] rest
  | [], token, rest, _ => by
    rw [List.nil_append, List.append_nil, splitChars, if_pos rfl]
  | c :: cs, token, rest, h => by
    obtain ⟨hc, hcs⟩ := not_or.mp (mt List.mem_cons.mpr h)
    rw [List.cons_append, splitChars, if_neg (Ne.symm hc), splitChars_append _ rest hcs,
      List.append_assoc, List.singleton_append]

theorem splitChars_last {d : Char} : ∀ {cs token : List Char}, d ∉ cs → token ++ cs ≠ [] →
    splitChars d token cs = [String.ofList (token ++ cs)]
  | [], token, _, hne => by
    rw [List.append_nil] at hne ⊢
    cases token with
    | nil => exact absurd rfl hne
    | cons _ _ => rfl
  | c :: cs, token, h, _ => by
    obtain ⟨hc, hcs⟩ := not_or.mp (mt List.mem_cons.mpr h)
    rw [splitChars, if_neg (Ne.symm hc), splitChars_last hcs (by simp), List.append_assoc,
      List.singleton_append]

/-- Tokens without the delimiter, one after the other. -/
theorem split_intercalate {d : Char} {tokens : List String} (hne : tokens ≠ [])
    (h : ∀ token ∈ tokens, d ∉ token.toList ∧ token.toList ≠ []) :
    split ((String.ofList [d]).intercalate tokens) d = tokens := by
  induction tokens with
  | nil => exact absurd rfl hne
  | cons token tokens ih =>
    obtain ⟨⟨hfree, hfilled⟩, hrest⟩ := List.forall_mem_cons.mp h
    unfold split at ih ⊢
    cases tokens with
    | nil =>
      rw [String.intercalate_singleton, splitChars_last hfree (by simpa using hfilled),
        List.nil_append, String.ofList_toList]
    | cons next tokens =>
      have hcons : ((String.ofList [d]).intercalate (token :: next :: tokens)).toList =
          token.toList ++ d :: ((String.ofList [d]).intercalate (next :: tokens)).toList := by
        rw [String.intercalate_cons_cons, String.toList_append, String.toList_append]
        simp
      rw [hcons, splitChars_append [] _ hfree, List.nil_append, String.ofList_toList,
        ih (List.cons_ne_nil _ _) hrest]

/-- The value of decimal digits. -/
def decimal (digits : List Char) : ℕ := digits.foldl (fun n c => 10 * n + (c.toNat - 48)) 0

/-- `isspace`. -/
def isSpace (c : Char) : Bool := c = ' ' || decide (9 ≤ c.toNat ∧ c.toNat ≤ 13)

/-- `std::stoull`: blanks, a sign, and the digits up to the first other character. -/
def stoull (s : String) : Except Invalid ℕ :=
  let text := s.toList.dropWhile isSpace
  let (negative, text) :=
    match text with
    | '-' :: text => (true, text)
    | '+' :: text => (false, text)
    | text => (false, text)
  match text.takeWhile Char.isDigit with
  | [] => .error (.exception "invalid stoull argument")
  | digits =>
    let n := decimal digits
    if 2 ^ 64 ≤ n then .error (.exception "stoull argument out of range")
    else .ok (if negative then (2 ^ 64 - n) % 2 ^ 64 else n)

/-- The two ssrcs of a FID group; none for a group of another kind. -/
def fidGroup (line : Json) : Except Invalid (Option (ℕ × ℕ)) := do
  let semantics ← (← line.read "semantics").toStr
  if semantics ≠ "FID" then return none
  else
    let fidLine ← (← line.read "ssrcs").toStr
    match split fidLine ' ' with
    | ssrc :: rtxSsrc :: _ => return some ((← stoull ssrc) % 2 ^ 32, (← stoull rtxSsrc) % 2 ^ 32)
    | _ => .error (.fault .undefined)

/-- The loop over the groups: the ssrcs that are left, and the ssrc of the rtx of each. -/
def pairRtx (ssrcs : List ℕ) (ssrcGroups : List Json) :
    Except Invalid (List ℕ × StdMap ℕ ℕ) :=
  ssrcGroups.foldlM (fun st line => do
    match ← fidGroup line with
    | none => return st
    | some (ssrc, rtxSsrc) =>
      return (st.1.filter (· ≠ rtxSsrc), st.2.insert ssrc rtxSsrc)) (ssrcs, .empty)

/-- The encoding of an ssrc. -/
def rtpEncoding (ssrcToRtxSsrc : StdMap ℕ ℕ) (ssrc : ℕ) : Json :=
  match ssrcToRtxSsrc.get ssrc with
  | none => Json.object [("ssrc", .uint ssrc)]
  | some rtxSsrc =>
    Json.object [("ssrc", .uint ssrc), ("rtx", Json.object [("ssrc", .uint rtxSsrc)])]

def getRtpEncodings (offerMediaObject : Json) : Except Invalid (List Json) := do
  let ssrcs ← (← offerMediaObject.read "ssrcs").elems.mapM fun line => do
    (← line.read "id").toUInt 32
  if ssrcs.isEmpty then .error (.exception "no a=ssrc lines found")
  else
    let ssrcGroups := (offerMediaObject.find "ssrcGroups").getD .null
    -- `ssrcs.unique()`: of equal neighbours the first one stays
    let (ssrcs, ssrcToRtxSsrc) ← pairRtx (ssrcs.destutter (· ≠ ·)) ssrcGroups.elems
    return ssrcs.map (rtpEncoding ssrcToRtxSsrc)

/-! ### Parameters of the answer -/

/-- A parameter as it is printed: an integer through `get<int>()`. -/
def answerText : Json → Except Fault String
  | .str s => return s
  | .float q => return Json.printFloat q
  | .int i => return toString (← (Json.int i).toInt32)
  | .uint n => return toString (← (Json.uint n).toInt32)
  | _ => return ""

/-- `key=value;key=value`. -/
def answerConfig (parameters : Json) : Except Fault String :=
  parameters.items.foldlM (fun config item => do
    return (if config = "" then "" else config ++ ";") ++ item.1 ++ "=" ++
      (← answerText item.2)) ""

/-- Whether a line has this payload type. -/
def hasPayload (payloadType line : Json) : Except Fault Bool :=
  return (← line.read "payload").eqv payloadType

/-- The fmtp line of the payload type in the list, or a new one behind it. -/
def fmtpLineOf (payloadType : Json) (fmtps : List Json) : Except Fault (ℕ × List Json) := do
  match ← findIdx (hasPayload payloadType) fmtps with
  | some idx => return (idx, fmtps)
  | none => return (fmtps.length,
      fmtps ++ [Json.object [("payload", payloadType), ("config", .str "")]])

/-- The lines that `push_back` can add to. -/
def linesOf : Option Json → Except Fault (List Json)
  | none => return []
  | some .null => return []
  | some (.arr lines) => return lines
  | some _ => .error (.typeError 308)

section
variable (parseParams : String → Except Invalid Members)

/-- The fmtp line of an opus codec: `stereo` follows a `sprop-stereo` that is a boolean. -/
def applyOpus (codec fmtp : Json) : Except Invalid Json := do
  let parameters := Json.obj (← parseParams (← (← fmtp.readOrNull "config").toStr))
  let parameters ←
    match (← codec.read "parameters").find "sprop-stereo" with
    | some (.bool spropStereo) => parameters.write "stereo" (.int (if spropStereo then 1 else 0))
    | _ => pure parameters
  fmtp.write "config" (.str (← answerConfig parameters))

/-- The loop body of `applyCodecParameters`. -/
def applyCodec (answerMediaObject codec : Json) : Except Invalid Json := do
  let mimeType ← (← codec.read "mimeType").toStr
  if lower mimeType ≠ "audio/opus" then return answerMediaObject
  else
    let rtps ← answerMediaObject.readOrNull "rtp"
    let answerMediaObject ← answerMediaObject.write "rtp" rtps
    let payloadType ← codec.read "payloadType"
    match ← findIdx (hasPayload payloadType) rtps.elems with
    | none => return answerMediaObject
    | some _ => do
      let (idx, fmtps) ← fmtpLineOf payloadType (← linesOf (answerMediaObject.find "fmtp"))
      let fmtp ← applyOpus parseParams codec (fmtps.getD idx .null)
      answerMediaObject.write "fmtp" (.arr (fmtps.set idx fmtp))

/-- `applyCodecParameters`; `sdptransform::parseParams` is a parameter, that returns the members of
    an object. -/
def applyCodecParameters (offerRtpParameters answerMediaObject : Json) : Except Invalid Json := do
  (← offerRtpParameters.read "codecs").elems.foldlM (applyCodec parseParams) answerMediaObject

end

end MediasoupClient.Sdp
