import MediasoupClient.Lib.Lts
import MediasoupClient.Sdp.MediaSection
import MediasoupClient.Sdp.SdpTransform

/-! The remote session description (sdputil/RemoteSdp.cpp).

    Four pieces of state describe the same media sections: the sections themselves, a map from
    their mids to their indices, the mid of the first one, and the JSON object that is printed.

        mediaSections   [ s₀          s₁          s₂ (closed) ]
        midToIndex        s₀.mid ↦ 0, s₁.mid ↦ 1, s₂.mid ↦ 2
        firstMid          s₀.mid
        sdpObject         media: [ s₀.getObject, s₁.getObject, s₂.getObject ], mids: "s₀.mid s₁.mid"

    A call updates them one after another, and an exception on the way leaves those updated that
    came before it. Looking a mid up inserts it, under index 0, when it is unknown. -/

namespace MediasoupClient.Sdp
open Lib

/-- What changes of the printed object: the version, the ice-lite line, the fingerprint, the media
    sections, and the mids of the bundle group. -/
structure SdpObject where
  sessionVersion : ℕ := 0
  icelite : Bool := false
  fingerprint : Json
  media : List Json := []
  mids : String := ""

/-- The whole object. -/
def SdpObject.toJson (o : SdpObject) : Json :=
  Json.object ([
    ("version", .int 0),
    ("origin", Json.object [
      ("address", .str "0.0.0.0"), ("ipVer", .int 4), ("netType", .str "IN"),
      ("sessionId", .int 10000), ("sessionVersion", .uint o.sessionVersion),
      ("username", .str "libmediasoupclient")]),
    ("name", .str "-"),
    ("timing", Json.object [("start", .int 0), ("stop", .int 0)]),
    ("media", .arr o.media),
    ("msidSemantic", Json.object [("semantic", .str "WMS"), ("token", .str "*")]),
    ("fingerprint", o.fingerprint),
    ("groups", .arr [Json.object [("type", .str "BUNDLE"), ("mids", .str o.mids)]])] ++
    if o.icelite then [("icelite", .str "ice-lite")] else [])

/-- The members of RemoteSdp. -/
structure RemoteSdp where
  iceParameters : Json
  iceCandidates : Json
  dtlsParameters : Json
  sctpParameters : Json
  mediaSections : List MediaSection := []
  midToIndex : StdMap String ℕ := .empty
  firstMid : String := ""
  sdpObject : SdpObject

structure MediaSectionIdx where
  idx : ℕ
  reuseMid : String
  deriving DecidableEq, Repr

namespace RemoteSdp

/-- The last element of the fingerprints, whose index is their number less one. -/
def latestFingerprint : Json → Except Fault Json
  | .arr items =>
    match items.getLast? with
    | some fingerprint => .ok fingerprint
    | none => .error .undefined
  | .null => .error .undefined
  | _ => .error (.typeError 305)

/-- The constructor. -/
def new (iceParameters iceCandidates dtlsParameters sctpParameters : Json) :
    Except Fault RemoteSdp := do
  let latest ← latestFingerprint (← dtlsParameters.readOrNull "fingerprints")
  let algorithm ← latest.readOrNull "algorithm"
  let value ← latest.readOrNull "value"
  return {
    iceParameters := iceParameters
    iceCandidates := iceCandidates
    dtlsParameters := dtlsParameters
    sctpParameters := sctpParameters
    sdpObject := {
      icelite := (iceParameters.find "iceLite").isSome
      fingerprint := Json.object [("type", algorithm), ("hash", value)] } }

/-- A new description has no sections. -/
theorem new_empty {iceParameters iceCandidates dtlsParameters sctpParameters : Json}
    {s : RemoteSdp} (h : new iceParameters iceCandidates dtlsParameters sctpParameters = .ok s) :
    s.mediaSections = [] ∧ s.midToIndex = .empty ∧ s.firstMid = "" ∧ s.sdpObject.media = [] ∧
      s.sdpObject.mids = "" := by
  obtain ⟨_, _, h⟩ := bind_ok.mp h
  obtain ⟨_, _, h⟩ := bind_ok.mp h
  obtain ⟨_, _, h⟩ := bind_ok.mp h
  obtain ⟨_, _, h⟩ := bind_ok.mp h
  cases h
  exact ⟨rfl, rfl, rfl, rfl, rfl⟩

/-! ### Bookkeeping -/

/-- The first mid, or one more after a blank. -/
def appendMid (mids mid : String) : String := if mids = "" then mid else mids ++ " " ++ mid

/-- The bundle loop: the mids of the sections that are not closed. -/
def bundleMids (mediaSections : List MediaSection) : Except Fault String :=
  mediaSections.foldlM (fun mids s =>
    if s.isClosed then return mids else return appendMid mids (← s.getMid)) ""

def regenerateBundleMids (s : RemoteSdp) : Outcome Fault RemoteSdp :=
  attempt s (bundleMids s.mediaSections) fun mids =>
  .returned { s with sdpObject := { s.sdpObject with mids := mids } }

/-- `sdpObject["media"][idx] = ...`. -/
def setMedia (s : RemoteSdp) (idx : ℕ) (mediaObject : Json) : RemoteSdp :=
  { s with sdpObject := { s.sdpObject with
      media := Json.setFill s.sdpObject.media idx mediaObject } }

def addMediaSection (s : RemoteSdp) (newMediaSection : MediaSection) : Outcome Fault RemoteSdp :=
  attempt s (if s.firstMid = "" then newMediaSection.getMid else .ok s.firstMid) fun firstMid =>
  let s := { s with
    firstMid := firstMid
    mediaSections := s.mediaSections ++ [newMediaSection] }
  attempt s newMediaSection.getMid fun mid =>
  regenerateBundleMids { s with
    midToIndex := s.midToIndex.insert mid (s.mediaSections.length - 1)
    sdpObject := { s.sdpObject with media := s.sdpObject.media ++ [newMediaSection.getObject] } }

def replaceMediaSection (s : RemoteSdp) (newMediaSection : MediaSection) (reuseMid : String) :
    Outcome Fault RemoteSdp :=
  if reuseMid ≠ "" then
    let (idx, midToIndex) := s.midToIndex.index reuseMid 0
    match s.mediaSections[idx]? with
    | none => .undefined
    | some oldMediaSection =>
      let s := { s with
        midToIndex := midToIndex
        mediaSections := s.mediaSections.set idx newMediaSection }
      attempt s oldMediaSection.getMid fun oldMid =>
      let s := { s with midToIndex := s.midToIndex.erase oldMid }
      attempt s newMediaSection.getMid fun mid =>
      regenerateBundleMids ({ s with
        midToIndex := s.midToIndex.insert mid idx }.setMedia idx newMediaSection.getObject)
  else
    attempt s newMediaSection.getMid fun mid =>
    let (idx, midToIndex) := s.midToIndex.index mid 0
    match s.mediaSections[idx]? with
    | none => .undefined
    | some _ =>
      let s := { s with
        midToIndex := midToIndex
        mediaSections := s.mediaSections.set idx newMediaSection }
      .returned (s.setMedia (s.mediaSections.length - 1) newMediaSection.getObject)

/-- The index of the first closed section. -/
def closedIdx (s : RemoteSdp) : Option ℕ := s.mediaSections.findIdx? (·.isClosed)

/-- `mediaSections[idx]->GetMid()`. -/
def midAt (s : RemoteSdp) (idx : ℕ) : Except Fault String :=
  match s.mediaSections[idx]? with
  | some mediaSection => mediaSection.getMid
  | none => .error .undefined

/-- The loop over all sections of the two updates: change each one and print it again. -/
def updateEach (f : MediaSection → Except Fault MediaSection) (s : RemoteSdp) (idx : ℕ) :
    List MediaSection → Outcome Fault RemoteSdp
  | [] => .returned s
  | mediaSection :: rest =>
    attempt s (f mediaSection) fun mediaSection =>
    updateEach f ({ s with mediaSections := s.mediaSections.set idx mediaSection }.setMedia idx
      mediaSection.getObject) (idx + 1) rest

/-- The ice-lite line is added when the parameters have it, and never removed. -/
def markIceLite (s : RemoteSdp) : RemoteSdp :=
  if (s.iceParameters.find "iceLite").isSome then
    { s with sdpObject := { s.sdpObject with icelite := true } }
  else s

/-! ### The public operations -/

def updateIceParameters (s : RemoteSdp) (iceParameters : Json) : Outcome Fault RemoteSdp :=
  let s := markIceLite { s with iceParameters := iceParameters }
  updateEach (·.setIceParameters iceParameters) s 0 s.mediaSections

def updateDtlsRole (s : RemoteSdp) (role : String) : Outcome Fault RemoteSdp :=
  attempt s (s.dtlsParameters.write "role" (.str role)) fun dtlsParameters =>
  let s := markIceLite { s with dtlsParameters := dtlsParameters }
  updateEach (fun mediaSection => .ok (mediaSection.setDtlsRole role)) s 0 s.mediaSections

def getNextMediaSectionIdx (s : RemoteSdp) : Except Fault MediaSectionIdx :=
  match s.closedIdx with
  | some idx => do return { idx := idx, reuseMid := ← s.midAt idx }
  | none => return { idx := s.mediaSections.length, reuseMid := "" }

def send (s : RemoteSdp) (offerMediaObject : Json) (reuseMid : String)
    (offerRtpParameters answerRtpParameters : Json) (codecOptions : Option Json) :
    Outcome Fault RemoteSdp :=
  attempt s (answerMediaSection s.iceParameters s.iceCandidates s.dtlsParameters s.sctpParameters
    offerMediaObject offerRtpParameters answerRtpParameters codecOptions) fun (mediaSection, _) =>
  if reuseMid ≠ "" then s.replaceMediaSection mediaSection reuseMid
  else s.addMediaSection mediaSection

def sendSctpAssociation (s : RemoteSdp) (offerMediaObject : Json) : Outcome Fault RemoteSdp :=
  attempt s (answerMediaSection s.iceParameters s.iceCandidates s.dtlsParameters s.sctpParameters
    offerMediaObject .null .null none) fun (mediaSection, _) =>
  s.addMediaSection mediaSection

def recvSctpAssociation (s : RemoteSdp) : Outcome Fault RemoteSdp :=
  attempt s (offerMediaSection s.iceParameters s.iceCandidates s.sctpParameters "datachannel"
    "application" .null "" "") fun mediaSection =>
  s.addMediaSection mediaSection

def receive (s : RemoteSdp) (mid kind : String) (offerRtpParameters : Json)
    (streamId trackId : String) : Outcome Fault RemoteSdp :=
  attempt s (offerMediaSection s.iceParameters s.iceCandidates .null mid kind offerRtpParameters
    streamId trackId) fun mediaSection =>
  match s.closedIdx with
  | some idx => attempt s (s.midAt idx) fun reuseMid => s.replaceMediaSection mediaSection reuseMid
  | none => s.addMediaSection mediaSection

def disableMediaSection (s : RemoteSdp) (mid : String) : Outcome Fault RemoteSdp :=
  let (idx, midToIndex) := s.midToIndex.index mid 0
  match s.mediaSections[idx]? with
  | none => .undefined
  | some mediaSection =>
    .returned { s with
      midToIndex := midToIndex
      mediaSections := s.mediaSections.set idx mediaSection.disable }

def closeMediaSection (s : RemoteSdp) (mid : String) : Outcome Fault RemoteSdp :=
  let (idx, midToIndex) := s.midToIndex.index mid 0
  match s.mediaSections[idx]? with
  | none => .undefined
  | some mediaSection =>
    -- the transport is bundled on the first section, so that one is only disabled
    let mediaSection := if mid = s.firstMid then mediaSection.disable else mediaSection.close
    regenerateBundleMids ({ s with
      midToIndex := midToIndex
      mediaSections := s.mediaSections.set idx mediaSection }.setMedia idx mediaSection.getObject)

/-- What `sdptransform::write` does to the entries before it prints them. -/
def eachWithPayloads : List Json → Outcome Fault (List Json)
  | [] => .returned []
  | mLine :: rest =>
    match withPayloads mLine with
    | .ok mLine => (eachWithPayloads rest).map (mLine :: ·)
    | .error e => .threw e (mLine :: rest)

/-- `GetSdp` up to the lines of the text: the entries that are printed are those of the object. -/
def getSdp (s : RemoteSdp) : Outcome Fault RemoteSdp :=
  (eachWithPayloads s.sdpObject.media).map fun media => { s with sdpObject := { s.sdpObject with
    sessionVersion := (s.sdpObject.sessionVersion + 1) % 2 ^ 32
    media := media } }

end RemoteSdp

/-- A call of a public operation. -/
inductive Op where
  | updateIceParameters (iceParameters : Json)
  | updateDtlsRole (role : String)
  | send (offerMediaObject : Json) (reuseMid : String)
      (offerRtpParameters answerRtpParameters : Json) (codecOptions : Option Json)
  | sendSctpAssociation (offerMediaObject : Json)
  | recvSctpAssociation
  | receive (mid kind : String) (offerRtpParameters : Json) (streamId trackId : String)
  | disableMediaSection (mid : String)
  | closeMediaSection (mid : String)
  | getSdp

def Op.apply (s : RemoteSdp) : Op → Outcome Fault RemoteSdp
  | .updateIceParameters iceParameters => s.updateIceParameters iceParameters
  | .updateDtlsRole role => s.updateDtlsRole role
  | .send offerMediaObject reuseMid offerRtpParameters answerRtpParameters codecOptions =>
    s.send offerMediaObject reuseMid offerRtpParameters answerRtpParameters codecOptions
  | .sendSctpAssociation offerMediaObject => s.sendSctpAssociation offerMediaObject
  | .recvSctpAssociation => s.recvSctpAssociation
  | .receive mid kind offerRtpParameters streamId trackId =>
    s.receive mid kind offerRtpParameters streamId trackId
  | .disableMediaSection mid => s.disableMediaSection mid
  | .closeMediaSection mid => s.closeMediaSection mid
  | .getSdp => s.getSdp

/-- Calls one after another. A call that throws leaves the object for the next one. -/
def remoteSdp : Lts RemoteSdp Op := ⟨fun s op => (op.apply s).state?⟩

/-! ### A description

The parameters of the runs on concrete input below. -/

def iceParameters₀ : Json :=
  Json.object [("usernameFragment", .str "ufrag"), ("password", .str "pwd")]

def fingerprint₀ : Json := Json.object [("algorithm", .str "sha-256"), ("value", .str "5A:7C")]

def dtlsParameters₀ : Json :=
  Json.object [("role", .str "auto"), ("fingerprints", .arr [fingerprint₀])]

def sctpParameters₀ : Json := Json.object [("port", .uint 5000), ("maxMessageSize", .uint 262144)]

def audioParameters₀ : Json := Json.object [
  ("codecs", .arr []), ("headerExtensions", .arr []),
  ("encodings", .arr [Json.object [("ssrc", .uint 1111)]]),
  ("rtcp", Json.object [("cname", .str "cname")])]

def remoteSdp₀ : RemoteSdp where
  iceParameters := iceParameters₀
  iceCandidates := .arr []
  dtlsParameters := dtlsParameters₀
  sctpParameters := sctpParameters₀
  sdpObject := { fingerprint := Json.object [("type", .str "sha-256"), ("hash", .str "5A:7C")] }

theorem new_remoteSdp₀ :
    RemoteSdp.new iceParameters₀ (.arr []) dtlsParameters₀ sctpParameters₀ = .ok remoteSdp₀ := rfl

end MediasoupClient.Sdp
