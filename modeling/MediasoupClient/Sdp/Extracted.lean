import MediasoupClient.Lib.Scan
import MediasoupClient.Sdp.ExtractCapabilities

/-! The capabilities of a session, codec by codec.

        the sections that count      first audio, first video, in their order
        a payload type p             its last rtpmap line, its last fmtp line, its rtcp-fb lines
        the map's entry of key k     the last rtpmap line with p % 256 = k, and of the lines with this key
                                     those that come behind it: an rtpmap line starts the entry afresh

    The two agree if the keys tell the payload types apart and keep their order, and if no line is lost to
    a later section's entry. -/

namespace MediasoupClient.Sdp
open Lib

/-- A section with its kind. -/
abbrev Section := String × Json

def kindOf (m : Json) : Option String :=
  match m.find "type" with
  | some (.str kind) => some kind
  | _ => none

/-- The first section of each kind, in order. -/
def usedSections (seen : List String) : List Json → List Section
  | [] => []
  | m :: rest =>
    match kindOf m with
    | some kind =>
      if kind ∈ ["audio", "video"] ∧ kind ∉ seen then (kind, m) :: usedSections (kind :: seen) rest
      else usedSections seen rest
    | none => usedSections seen rest

/-- The lines of one sort. -/
def linesAt (key : String) (m : Json) : List Json := ((m.find key).getD .null).elems

/-- The rtpmap lines of the sections, each with the kind of its section. -/
def rtpEntries (used : List Section) : List Section :=
  used.flatMap fun s => (linesAt "rtp" s.2).map fun rtp => (s.1, rtp)

/-- The payload type of a rtpmap or fmtp line. -/
def numberOf (line : Json) : Option ℤ := (line.find "payload").bind integer

/-- The payload type of a rtcp-fb line, which is a text. -/
def fbNumberOf (fb : Json) : Option ℤ :=
  match fb.find "payload" with
  | some (.str payload) => (stoi payload).toOption
  | _ => none

/-- The channels of an audio codec. -/
def channelsOf (rtp : Json) : Option Json :=
  match rtp.find "encoding" with
  | some (.str encoding) => (stoi encoding).toOption.map .int
  | _ => some (.int 1)

section
variable (parseParams : String → Except Invalid Members)

/-- The parameters of a fmtp line. -/
def parametersAt (fmtp : Json) : Except Invalid Json := do
  withProfileId (← parseParams (← (← fmtp.read "config").toStr))

/-- The parameters of the last of these lines. -/
def lastParameters (fmtps : List Json) : Option Json :=
  match fmtps.getLast? with
  | none => some (.obj [])
  | some fmtp => (parametersAt parseParams fmtp).toOption

/-- The entries of these lines. -/
def feedbackEntries (fbs : List Json) : List Json :=
  fbs.map fun fb => feedbackEntry ((fb.find "type").getD .null) fb

/-- The codec of a rtpmap line with these fmtp and rtcp-fb lines. -/
structure IsCodec (entry : Section) (fmtps fbs : List Json) (codec : Json) : Prop where
  isObject : ∃ m, codec = .obj m
  kind : codec.find "kind" = some (.str entry.1)
  mimeType : ∃ name, entry.2.find "codec" = some (.str name) ∧
    codec.find "mimeType" = some (.str (entry.1 ++ "/" ++ name))
  preferredPayloadType : codec.find "preferredPayloadType" = entry.2.find "payload"
  clockRate : codec.find "clockRate" = entry.2.find "rate"
  channels : codec.find "channels" = if entry.1 = "audio" then channelsOf entry.2 else none
  parameters : codec.find "parameters" = lastParameters parseParams fmtps
  rtcpFeedback : codec.find "rtcpFeedback" = some (.arr (feedbackEntries fbs))

/-! ### What is to be extracted -/

/-- The last rtpmap line of a payload type. -/
def entryFor (used : List Section) (p : ℤ) : Option Section :=
  ((rtpEntries used).filter fun e => decide (numberOf e.2 = some p)).getLast?

/-- The fmtp lines of a payload type. -/
def fmtpsFor (used : List Section) (p : ℤ) : List Json :=
  (used.flatMap fun s => linesAt "fmtp" s.2).filter fun l => decide (numberOf l = some p)

/-- The rtcp-fb lines of a payload type. -/
def fbsFor (used : List Section) (p : ℤ) : List Json :=
  (used.flatMap fun s => linesAt "rtcpFb" s.2).filter fun l => decide (fbNumberOf l = some p)

/-- The payload types that a rtpmap line declares. -/
def Declared (used : List Section) (p : ℤ) : Prop := ∃ e ∈ rtpEntries used, numberOf e.2 = some p

/-- One codec for each payload type, in ascending order, with what the lines say. -/
structure Faithful (used : List Section) (caps : Json) : Prop where
  codecs : ∃ payloads codecs, caps.find "codecs" = some (.arr codecs) ∧
    payloads.Pairwise (· < ·) ∧ (∀ p, p ∈ payloads ↔ Declared used p) ∧
    List.Forall₂ (fun p codec => ∃ entry, entryFor used p = some entry ∧
      IsCodec parseParams entry (fmtpsFor used p) (fbsFor used p) codec) payloads codecs

/-- The capabilities are extracted, and they are faithful. -/
def ExtractsFaithfully (sdpObject : Json) : Prop :=
  ∃ caps, extractRtpCapabilities parseParams sdpObject = .ok caps ∧
    Faithful parseParams (usedSections [] (sectionsOf sdpObject)) caps

/-! ### What has to be there -/

/-- Whether the payload type of a line has this key. -/
def hasKey (number : Json → Option ℤ) (k : ℕ) (line : Json) : Bool :=
  decide ((number line).map toKey = some k)

/-- A key that one of the entries has. -/
def Known (entries : List Section) (k : ℕ) : Prop := ∃ e ∈ entries, hasKey numberOf k e.2 = true

/-- A rtpmap line that is complete: an encoding of an audio codec is a number. -/
structure RtpReadable (kind : String) (rtp : Json) : Prop where
  codec : (rtp.find "codec").isSome = true
  payload : (rtp.find "payload").isSome = true
  rate : (rtp.find "rate").isSome = true
  encoding : kind = "audio" → (channelsOf rtp).isSome = true

/-- A fmtp line that is complete. If there is an entry for it, a profile-id that is a text is a
    number. -/
structure FmtpReadable (entries : List Section) (fmtp : Json) : Prop where
  config : ∃ config members, fmtp.find "config" = some (.str config) ∧
    parseParams config = .ok members
  payload : (numberOf fmtp).isSome = true
  profileId : ∀ k, hasKey numberOf k fmtp = true → Known entries k →
    ∃ parameters, parametersAt parseParams fmtp = .ok parameters

/-- A rtcp-fb line whose payload type is a number, with a type if there is an entry for it. -/
structure FbReadable (entries : List Section) (fb : Json) : Prop where
  payload : (fbNumberOf fb).isSome = true
  type : ∀ k, hasKey fbNumberOf k fb = true → Known entries k → (fb.find "type").isSome = true

/-- A section that can be read, where there are these entries. -/
structure SectionReadable (entries : List Section) (s : Section) : Prop where
  rtp : ∀ rtp ∈ linesAt "rtp" s.2, RtpReadable s.1 rtp
  fmtp : ∀ fmtp ∈ linesAt "fmtp" s.2, FmtpReadable parseParams entries fmtp
  rtcpFb : (s.2.find "rtcpFb").isSome = true ∧
    ∀ fb ∈ linesAt "rtcpFb" s.2, FbReadable entries fb
  ext : (s.2.find "ext").isSome = true ∧ ∀ ext ∈ linesAt "ext" s.2,
    (ext.find "uri").isSome = true ∧ (ext.find "value").isSome = true

/-- The sections that count can be read, one after the other. -/
def Readable (used : List Section) : Prop :=
  Along (fun done s => SectionReadable parseParams (rtpEntries (done ++ [s])) s) [] used

/-! ### What is kept of the lines -/

/-- Whether a section starts an entry afresh. -/
def declares (k : ℕ) (s : Section) : Bool :=
  (linesAt "rtp" s.2).any (hasKey numberOf k)

/-- The lines with a key from the last section on that declares it. -/
def kept (sort : String) (number : Json → Option ℤ) (k : ℕ) (used : List Section) : List Json :=
  used.foldl (fun lines s =>
    (if declares k s then [] else lines) ++ (linesAt sort s.2).filter (hasKey number k)) []

/-- The keys are in the order of the payload types. -/
def KeysOrdered (used : List Section) : Prop :=
  ∀ p q, Declared used p → Declared used q → p < q → toKey p < toKey q

/-- The keys are in order, and what is kept of the lines with a key is what the lines for the payload
    type say: no line is lost to a later entry, or taken for one of another payload type. -/
structure LinesKept (used : List Section) : Prop where
  ordered : KeysOrdered used
  fmtp : ∀ p, Declared used p → lastParameters parseParams (kept "fmtp" numberOf (toKey p) used) =
    lastParameters parseParams (fmtpsFor used p)
  rtcpFb : ∀ p, Declared used p → feedbackEntries (kept "rtcpFb" fbNumberOf (toKey p) used) =
    feedbackEntries (fbsFor used p)

/-- A session whose capabilities can be extracted. -/
structure Extractable (sdpObject : Json) : Prop where
  typed : ∀ m ∈ sectionsOf sdpObject, (kindOf m).isSome = true
  readable : Readable parseParams (usedSections [] (sectionsOf sdpObject))
  linesKept : LinesKept parseParams (usedSections [] (sectionsOf sdpObject))

end

end MediasoupClient.Sdp
