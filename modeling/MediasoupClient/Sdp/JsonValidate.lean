import MediasoupClient.Lib.Call
import MediasoupClient.Sdp.MediaSection

/-! Validation of parameters and capabilities (sdputil/jsonvalidate.cpp).

    A validator throws, or returns its argument with the missing members filled in:

        codec  ──▶  mimeType?  payload type?  clockRate?  ──▶  channels, parameters, rtcpFeedback
                       │             │            │                  set to their defaults
                       ▼             ▼            ▼
                     throw         throw        throw

    The arguments are changed in place. What has been changed before an exception is not
    followed. -/

namespace MediasoupClient.Sdp
open Lib

/-- What leaves a function of this file: an exception of its own, or one of the JSON library. -/
inductive Invalid where
  | exception (text : String)
  | fault (f : Fault)
  deriving DecidableEq, Repr

instance : MonadLift (Except Fault) (Except Invalid) where
  monadLift x := x.mapError .fault

/-- A computation that throws, or whose behaviour is undefined. -/
instance {σ : Type} : MonadLift (Except Invalid) (Call Invalid σ) where
  monadLift
    | .ok a => pure a
    | .error (.fault .undefined) => throw .undefined
    | .error e => throw (.threw e)

/-- A body goes on with what a computation returns. -/
theorem lift_bind_eq_ok {σ α β : Type} {x : Except Invalid α} {f : α → Call Invalid σ β} {b : β}
    {s t : σ} : ((liftM x : Call Invalid σ α) >>= f) s = .ok b t ↔
      ∃ a, x = .ok a ∧ f a s = .ok b t := by
  cases x with
  | ok a =>
    change f a s = .ok b t ↔ _
    simp only [Except.ok.injEq, exists_eq_left']
  | error e =>
    refine iff_of_false (fun h => ?_) fun ⟨_, h, _⟩ => by cases h
    cases e with
    | exception text => cases h
    | fault f => cases f <;> cases h

/-- A step of the JSON library that succeeds. -/
theorem lift_ok {α : Type} {x : Except Fault α} {a : α} :
    (liftM x : Except Invalid α) = .ok a ↔ x = .ok a := by
  cases x with
  | error e => constructor <;> intro h <;> cases h
  | ok b =>
    constructor
    · intro h; cases h; rfl
    · intro h; cases h; rfl

/-! ### Members of an object -/

/-- The members of an object, by key. -/
abbrev Members := List (String × Json)

/-- `LAZY_THROW_EXCEPTION(text)`, unless the check holds. -/
def require (text : String) (check : Bool) : Except Invalid Unit :=
  if check then .ok () else .error (.exception text)

/-- A mandatory member. -/
def has (m : Members) (key : String) (p : Json → Bool) : Bool := (get key m).any p

/-- An optional member. -/
def hasOrLacks (m : Members) (key : String) (p : Json → Bool) : Bool := (get key m).all p

/-- "If unset set it to": a member that is missing or of another type gets its default. -/
def orDefault (key : String) (p : Json → Bool) (value : Json) (m : Members) : Members :=
  if has m key p then m else put key value m

/-- A string that is not empty. -/
def isText : Json → Bool
  | .str s => s ≠ ""
  | _ => false

/-- Validate each element of an array in place. -/
def eachElement (key : String) (validate : Json → Except Invalid Json) (m : Members) :
    Except Invalid Members :=
  match get key m with
  | some (.arr items) => return put key (.arr (← items.mapM validate)) m
  | _ => return m

/-- An optional array of elements to validate: another type is refused with the text. -/
def optionalArray (key text : String) (validate : Json → Except Invalid Json) (m : Members) :
    Except Invalid Members := do
  require text (hasOrLacks m key Json.isArray)
  eachElement key validate (orDefault key Json.isArray (.arr []) m)

/-! ### Codecs -/

/-- The kind that `^(audio|video)/(.+)` finds in a mime type, whatever its case. -/
def mimeKind (mimeType : String) : Option String :=
  let cs := mimeType.toList
  let subtype := cs.drop 6
  if lower (String.ofList (cs.take 6)) ∈ ["audio/", "video/"] ∧ subtype ≠ [] ∧
      '\n' ∉ subtype ∧ '\r' ∉ subtype then
    some (String.ofList (cs.take 5))
  else none

/-- The mandatory mime type of a codec, and its kind. -/
def codecKind (codec : Members) : Except Invalid String :=
  match get "mimeType" codec with
  | some (.str mimeType) =>
    match mimeKind mimeType with
    | some kind => .ok kind
    | none => .error (.exception "invalid codec.mimeType")
  | _ => .error (.exception "missing codec.mimeType")

/-- An audio codec has one channel if nothing is said, and only an audio codec has channels. -/
def codecChannels (kind : String) (codec : Members) : Members :=
  if kind = "audio" then orDefault "channels" Json.isNumberInteger (.int 1) codec
  else del "channels" codec

/-- A codec parameter is a string, a number or null, and `apt` is an integer. -/
def validateParameter (parameter : String × Json) : Except Invalid Unit := do
  require "invalid codec parameter"
    (parameter.2.isString || parameter.2.isNumber || parameter.2.isNull)
  require "invalid codec apt parameter" (parameter.1 ≠ "apt" || parameter.2.isNumberInteger)

def validateRtcpFeedback : Json → Except Invalid Json
  | .obj fb => do
    require "missing fb.type" (has fb "type" Json.isString)
    return .obj (orDefault "parameter" Json.isString (.str "") fb)
  | _ => .error (.exception "fb is not an object")

/-- What the two codec validators have in common, behind the payload type. -/
def validateCodecRest (kind : String) (codec : Members) : Except Invalid Json := do
  require "missing codec.clockRate" (has codec "clockRate" Json.isNumberInteger)
  let codec := orDefault "parameters" Json.isObject (.obj []) (codecChannels kind codec)
  match get "parameters" codec with
  | some (.obj parameters) => parameters.forM validateParameter
  | _ => pure ()
  return .obj (← eachElement "rtcpFeedback" validateRtcpFeedback
    (orDefault "rtcpFeedback" Json.isArray (.arr []) codec))

def validateRtpCodecCapability : Json → Except Invalid Json
  | .obj codec => do
    let kind ← codecKind codec
    let codec := put "kind" (.str kind) codec
    require "invalid codec.preferredPayloadType"
      (hasOrLacks codec "preferredPayloadType" Json.isNumberInteger)
    validateCodecRest kind codec
  | _ => .error (.exception "codec is not an object")

def validateRtpCodecParameters : Json → Except Invalid Json
  | .obj codec => do
    let kind ← codecKind codec
    require "missing codec.payloadType" (has codec "payloadType" Json.isNumberInteger)
    validateCodecRest kind codec
  | _ => .error (.exception "codec is not an object")

/-! ### Capabilities -/

def validateRtpHeaderExtension : Json → Except Invalid Json
  | .obj ext => do
    require "missing ext.kind" (has ext "kind" Json.isString)
    require "invalid ext.kind" (has ext "kind" fun kind =>
      kind.eqv (.str "audio") || kind.eqv (.str "video"))
    require "missing ext.uri" (has ext "uri" isText)
    require "missing ext.preferredId" (has ext "preferredId" Json.isNumberInteger)
    require "invalid ext.preferredEncrypt" (hasOrLacks ext "preferredEncrypt" Json.isBoolean)
    let ext := orDefault "preferredEncrypt" Json.isBoolean (.bool false) ext
    require "invalid ext.direction" (hasOrLacks ext "direction" Json.isString)
    return .obj (orDefault "direction" Json.isString (.str "sendrecv") ext)
  | _ => .error (.exception "ext is not an object")

def validateRtpCapabilities : Json → Except Invalid Json
  | .obj caps => do
    let caps ← optionalArray "codecs" "caps.codecs is not an array" validateRtpCodecCapability caps
    let caps ← optionalArray "headerExtensions" "caps.headerExtensions is not an array"
      validateRtpHeaderExtension caps
    return .obj caps
  | _ => .error (.exception "caps is not an object")

/-! ### Rtp parameters -/

def validateRtpHeaderExtensionParameters : Json → Except Invalid Json
  | .obj ext => do
    require "missing ext.uri" (has ext "uri" isText)
    require "missing ext.id" (has ext "id" Json.isNumberInteger)
    let ext := orDefault "encrypt" Json.isBoolean (.bool false) ext
    let ext := orDefault "parameters" Json.isObject (.obj []) ext
    match get "parameters" ext with
    | some (.obj parameters) =>
      require "invalid header extension parameter"
        (parameters.all fun parameter => parameter.2.isString || parameter.2.isNumber)
    | _ => pure ()
    return .obj ext
  | _ => .error (.exception "ext is not an object")

def validateRtpEncodingParameters : Json → Except Invalid Json
  | .obj encoding => do
    require "invalid encoding.ssrc" (hasOrLacks encoding "ssrc" Json.isNumberInteger)
    require "invalid encoding.rid" (hasOrLacks encoding "rid" isText)
    require "invalid encoding.rtx" (hasOrLacks encoding "rtx" Json.isObject)
    require "missing encoding.rtx.ssrc" (hasOrLacks encoding "rtx" fun rtx =>
      (rtx.find "ssrc").any Json.isNumberInteger)
    let encoding := orDefault "dtx" Json.isBoolean (.bool false) encoding
    require "invalid encoding.scalabilityMode" (hasOrLacks encoding "scalabilityMode" isText)
    return .obj encoding
  | _ => .error (.exception "encoding is not an object")

def validateRtcpParameters : Json → Except Invalid Json
  | .obj rtcp => do
    require "invalid rtcp.cname" (hasOrLacks rtcp "cname" Json.isString)
    return .obj (orDefault "reducedSize" Json.isBoolean (.bool true) rtcp)
  | _ => .error (.exception "rtcp is not an object")

def validateRtpParameters : Json → Except Invalid Json
  | .obj params => do
    require "params.mid is not a string" (hasOrLacks params "mid" isText)
    require "missing params.codecs" (has params "codecs" Json.isArray)
    let params ← eachElement "codecs" validateRtpCodecParameters params
    let params ← optionalArray "headerExtensions" "params.headerExtensions is not an array"
      validateRtpHeaderExtensionParameters params
    let params ← optionalArray "encodings" "params.encodings is not an array"
      validateRtpEncodingParameters params
    require "params.rtcp is not an object" (hasOrLacks params "rtcp" Json.isObject)
    let rtcp ← validateRtcpParameters ((get "rtcp" params).getD (.obj []))
    return .obj (put "rtcp" rtcp params)
  | _ => .error (.exception "params is not an object")

/-! ### Transport parameters -/

def validateIceParameters : Json → Except Invalid Json
  | .obj params => do
    require "missing params.usernameFragment" (has params "usernameFragment" isText)
    require "missing params.password" (has params "password" isText)
    return .obj (orDefault "iceLite" Json.isBoolean (.bool false) params)
  | _ => .error (.exception "params is not an object")

/-- A text that is one of these words, whatever its case. -/
def isOneOf (words : List String) : Json → Bool
  | .str s => lower s ∈ words
  | _ => false

def validateIceCandidate : Json → Except Invalid Json
  | .obj params => do
    require "missing params.foundation" (has params "foundation" isText)
    require "missing params.priority" (has params "priority" Json.isNumberUnsigned)
    require "missing params.ip" (has params "address" isText)
    require "missing params.protocol" (has params "protocol" isText)
    require "invalid params.protocol" (has params "protocol" (isOneOf ["udp", "tcp"]))
    require "missing params.port" (has params "port" Json.isNumberUnsigned)
    require "missing params.type" (has params "type" isText)
    require "invalid params.type" (has params "type" (isOneOf ["host", "srflx", "prflx", "relay"]))
    return .obj params
  | _ => .error (.exception "params is not an object")

def validateIceCandidates : Json → Except Invalid Json
  | .arr candidates => return .arr (← candidates.mapM validateIceCandidate)
  | _ => .error (.exception "params is not an array")

def validateDtlsFingerprint : Json → Except Invalid Json
  | .obj params => do
    require "missing params.algorithm" (has params "algorithm" isText)
    require "missing params.value" (has params "value" isText)
    return .obj params
  | _ => .error (.exception "params is not an object")

/-- An array that is not empty. -/
def isFilledArray : Json → Bool
  | .arr items => !items.isEmpty
  | _ => false

def validateDtlsParameters : Json → Except Invalid Json
  | .obj params => do
    require "missing params.role" (has params "role" isText)
    require "invalid params.role" (has params "role" (isOneOf ["auto", "client", "server"]))
    require "missing params.fingerprints" (has params "fingerprints" isFilledArray)
    return .obj (← eachElement "fingerprints" validateDtlsFingerprint params)
  | _ => .error (.exception "params is not an object")

def validateSctpParameters : Json → Except Invalid Json
  | .obj params => do
    require "missing params.port" (has params "port" Json.isNumberInteger)
    require "missing params.OS" (has params "OS" Json.isNumberInteger)
    require "missing params.MIS" (has params "MIS" Json.isNumberInteger)
    require "missing params.maxMessageSize" (has params "maxMessageSize" Json.isNumberInteger)
    return .obj params
  | _ => .error (.exception "params is not an object")

def validateNumSctpStreams : Json → Except Invalid Json
  | .obj numStreams => do
    require "missing numStreams.OS" (has numStreams "OS" Json.isNumberInteger)
    require "missing numStreams.MIS" (has numStreams "MIS" Json.isNumberInteger)
    return .obj numStreams
  | _ => .error (.exception "numStreams is not an object")

def validateSctpCapabilities : Json → Except Invalid Json
  | .obj caps =>
    match get "numStreams" caps with
    | some (.obj numStreams) => do
      return .obj (put "numStreams" (← validateNumSctpStreams (.obj numStreams)) caps)
    | _ => .error (.exception "missing caps.numStreams")
  | _ => .error (.exception "caps is not an object")

/-! ### What a validated value has -/

theorem require_ok {text : String} {check : Bool} {u : Unit} :
    require text check = .ok u ↔ check = true := by
  unfold require
  split_ifs with h
  · exact iff_of_true rfl h
  · exact iff_of_false (fun hc => by cases hc) h

theorem has_iff {m : Members} {key : String} {p : Json → Bool} :
    has m key p = true ↔ ∃ v, get key m = some v ∧ p v = true := by
  unfold has
  cases get key m <;> simp

theorem hasOrLacks_iff {m : Members} {key : String} {p : Json → Bool} :
    hasOrLacks m key p = true ↔ ∀ v, get key m = some v → p v = true := by
  unfold hasOrLacks
  cases get key m <;> simp

theorem get_orDefault (key k : String) (p : Json → Bool) (value : Json) (m : Members) :
    get k (orDefault key p value m) = if k = key ∧ has m key p = false then some value
      else get k m := by
  unfold orDefault
  cases has m key p with
  | true => simp
  | false => simp [get_put]

/-- The members a validated array member leaves. -/
theorem eachElement_ok {key : String} {validate : Json → Except Invalid Json} {m m' : Members}
    (h : eachElement key validate m = .ok m') :
    (∀ k, k ≠ key → get k m' = get k m) ∧
      ∀ items, get key m = some (.arr items) →
        ∃ items', items.mapM validate = .ok items' ∧ get key m' = some (.arr items') := by
  unfold eachElement at h
  split at h
  · rename_i items hitems
    obtain ⟨items', hmap, h⟩ := bind_ok.mp h
    cases h
    refine ⟨fun k hk => get_put_of_ne _ hk m, fun items₀ hitems₀ => ⟨items', ?_, ?_⟩⟩
    · rw [hitems] at hitems₀
      cases hitems₀
      exact hmap
    · exact get_put_self key _ m
  · rename_i hno
    cases h
    exact ⟨fun k _ => rfl, fun items hitems => absurd hitems (hno items)⟩

theorem optionalArray_ok {key text : String} {validate : Json → Except Invalid Json}
    {m m' : Members} (h : optionalArray key text validate m = .ok m') :
    (∀ k, k ≠ key → get k m' = get k m) ∧
      ∃ items items', (get key m).getD (.arr []) = .arr items ∧
        items.mapM validate = .ok items' ∧ get key m' = some (.arr items') := by
  obtain ⟨_, hreq, h⟩ := bind_ok.mp h
  obtain ⟨hkeep, hitems⟩ := eachElement_ok h
  refine ⟨fun k hk => ?_, ?_⟩
  · rw [hkeep k hk, get_orDefault, if_neg fun hc => hk hc.1]
  · have hall := require_ok.mp hreq
    unfold hasOrLacks at hall
    cases hg : get key m with
    | none =>
      have hhas : has m key Json.isArray = false := by rw [has, hg]; rfl
      obtain ⟨items', hmap, hget⟩ := hitems [] (by rw [get_orDefault, if_pos ⟨rfl, hhas⟩])
      exact ⟨[], items', rfl, hmap, hget⟩
    | some v =>
      rw [hg] at hall
      cases v with
      | arr items =>
        have hhas : has m key Json.isArray = true := by rw [has, hg]; rfl
        have hno : ¬(key = key ∧ has m key Json.isArray = false) := fun hc => by
          rw [hhas] at hc
          cases hc.2
        obtain ⟨items', hmap, hget⟩ := hitems items (by rw [get_orDefault, if_neg hno, hg])
        exact ⟨items, items', rfl, hmap, hget⟩
      | _ => cases hall

/-- The parameters a codec is validated with. -/
def parametersOf (codec : Members) : Members :=
  match get "parameters" codec with
  | some (.obj parameters) => parameters
  | _ => []

/-- The feedback a codec is validated with. -/
def feedbackOf (codec : Members) : List Json :=
  match get "rtcpFeedback" codec with
  | some (.arr feedback) => feedback
  | _ => []

theorem get_codecChannels {k kind : String} {codec : Members} (hk : k ≠ "channels") :
    get k (codecChannels kind codec) = get k codec := by
  unfold codecChannels
  split_ifs
  · rw [get_orDefault, if_neg fun hc => hk hc.1]
  · rw [get_del, if_neg hk]

theorem get_orDefault_parameters (codec : Members) :
    get "parameters" (orDefault "parameters" Json.isObject (.obj []) codec) =
      some (.obj (parametersOf codec)) := by
  rw [get_orDefault, parametersOf, has]
  cases hg : get "parameters" codec with
  | none => simp
  | some v => cases v <;> simp [Json.isObject]

theorem get_orDefault_feedback (codec : Members) :
    get "rtcpFeedback" (orDefault "rtcpFeedback" Json.isArray (.arr []) codec) =
      some (.arr (feedbackOf codec)) := by
  rw [get_orDefault, feedbackOf, has]
  cases hg : get "rtcpFeedback" codec with
  | none => simp
  | some v => cases v <;> simp [Json.isArray]

/-- What the common part of the codec validators checks, and what it leaves. -/
structure RestOk (kind : String) (codec codec' : Members) : Prop where
  clockRate : has codec "clockRate" Json.isNumberInteger = true
  valid : (parametersOf codec).forM validateParameter = .ok ()
  parameters : get "parameters" codec' = some (.obj (parametersOf codec))
  rtcpFeedback : ∃ feedback, (feedbackOf codec).mapM validateRtcpFeedback = .ok feedback ∧
    get "rtcpFeedback" codec' = some (.arr feedback)
  channels : get "channels" codec' = get "channels" (codecChannels kind codec)
  others : ∀ k ∉ ["parameters", "rtcpFeedback", "channels"], get k codec' = get k codec

theorem validateCodecRest_ok {kind : String} {codec : Members} {j : Json}
    (h : validateCodecRest kind codec = .ok j) :
    ∃ codec', j = .obj codec' ∧ RestOk kind codec codec' := by
  obtain ⟨_, hclock, h⟩ := bind_ok.mp h
  have hparams : parametersOf (codecChannels kind codec) = parametersOf codec := by
    unfold parametersOf
    rw [get_codecChannels (by decide)]
  have hfeedback : feedbackOf (orDefault "parameters" Json.isObject (.obj [])
      (codecChannels kind codec)) = feedbackOf codec := by
    unfold feedbackOf
    rw [get_orDefault, if_neg fun hc => absurd hc.1 (by decide), get_codecChannels (by decide)]
  simp only [get_orDefault_parameters, hparams] at h
  obtain ⟨_, hvalid, h⟩ := bind_ok.mp h
  obtain ⟨codec', hcodec', h⟩ := bind_ok.mp h
  cases h
  obtain ⟨hkeep, hitems⟩ := eachElement_ok hcodec'
  obtain ⟨feedback, hmap, hget⟩ := hitems _ (get_orDefault_feedback _)
  rw [hfeedback] at hmap
  have hother : ∀ k, k ≠ "rtcpFeedback" → get k codec' =
      get k (orDefault "parameters" Json.isObject (.obj []) (codecChannels kind codec)) := by
    intro k hk
    rw [hkeep k hk, get_orDefault, if_neg fun hc => hk hc.1]
  refine ⟨codec', rfl, require_ok.mp hclock, hvalid, ?_, ⟨feedback, hmap, hget⟩, ?_, ?_⟩
  · rw [hother _ (by decide), get_orDefault_parameters, hparams]
  · rw [hother _ (by decide), get_orDefault, if_neg fun hc => absurd hc.1 (by decide)]
  · intro k hk
    simp only [List.mem_cons, List.not_mem_nil, or_false, not_or] at hk
    rw [hother k hk.2.1, get_orDefault, if_neg fun hc => hk.1 hc.1, get_codecChannels hk.2.2]

/-- A capability that is accepted. -/
theorem validateRtpCodecCapability_ok {c c' : Json} (h : validateRtpCodecCapability c = .ok c') :
    ∃ codec kind codec', c = .obj codec ∧ codecKind codec = .ok kind ∧ c' = .obj codec' ∧
      hasOrLacks codec "preferredPayloadType" Json.isNumberInteger = true ∧
      RestOk kind (put "kind" (.str kind) codec) codec' := by
  cases c with
  | obj codec =>
    obtain ⟨kind, hkind, h⟩ := bind_ok.mp h
    obtain ⟨_, hpt, h⟩ := bind_ok.mp h
    obtain ⟨codec', rfl, hrest⟩ := validateCodecRest_ok h
    refine ⟨codec, kind, codec', rfl, hkind, rfl, ?_, hrest⟩
    have hreq := require_ok.mp hpt
    rwa [hasOrLacks, get_put_of_ne _ (by decide)] at hreq
  | _ => cases h

/-- The mime type of a codec that has a kind. -/
theorem codecKind_ok {codec : Members} {kind : String} (h : codecKind codec = .ok kind) :
    ∃ mimeType, get "mimeType" codec = some (.str mimeType) ∧ mimeKind mimeType = some kind := by
  unfold codecKind at h
  split at h
  · rename_i mimeType hget
    split at h
    · rename_i kind' hkind
      cases h
      exact ⟨mimeType, hget, hkind⟩
    · cases h
  · cases h

/-- Capabilities that are accepted: validated codecs and header extensions. -/
theorem validateRtpCapabilities_ok {c c' : Json} (h : validateRtpCapabilities c = .ok c') :
    ∃ caps caps' codecs codecs' exts exts', c = .obj caps ∧ c' = .obj caps' ∧
      (get "codecs" caps).getD (.arr []) = .arr codecs ∧
      codecs.mapM validateRtpCodecCapability = .ok codecs' ∧
      get "codecs" caps' = some (.arr codecs') ∧
      (get "headerExtensions" caps).getD (.arr []) = .arr exts ∧
      exts.mapM validateRtpHeaderExtension = .ok exts' ∧
      get "headerExtensions" caps' = some (.arr exts') := by
  cases c with
  | obj caps =>
    obtain ⟨caps₁, hcodecs, h⟩ := bind_ok.mp h
    obtain ⟨caps₂, hexts, h⟩ := bind_ok.mp h
    cases h
    obtain ⟨hkeep₁, codecs, codecs', hc, hcmap, hcget⟩ := optionalArray_ok hcodecs
    obtain ⟨hkeep₂, exts, exts', he, hemap, heget⟩ := optionalArray_ok hexts
    refine ⟨caps, caps₂, codecs, codecs', exts, exts', rfl, rfl, hc, hcmap, ?_, ?_, hemap, heget⟩
    · rw [hkeep₂ _ (by decide), hcget]
    · rwa [hkeep₁ _ (by decide)] at he
  | _ => cases h

/-- Codec parameters that are accepted. -/
theorem validateRtpCodecParameters_ok {c c' : Json} (h : validateRtpCodecParameters c = .ok c') :
    ∃ codec kind codec', c = .obj codec ∧ codecKind codec = .ok kind ∧ c' = .obj codec' ∧
      has codec "payloadType" Json.isNumberInteger = true ∧ RestOk kind codec codec' := by
  cases c with
  | obj codec =>
    obtain ⟨kind, hkind, h⟩ := bind_ok.mp h
    obtain ⟨_, hpt, h⟩ := bind_ok.mp h
    obtain ⟨codec', rfl, hrest⟩ := validateCodecRest_ok h
    exact ⟨codec, kind, codec', rfl, hkind, rfl, require_ok.mp hpt, hrest⟩
  | _ => cases h

/-- A header extension that is accepted has a uri and an id. -/
theorem validateRtpHeaderExtensionParameters_ok {e e' : Json}
    (h : validateRtpHeaderExtensionParameters e = .ok e') :
    ∃ m, e = .obj m ∧ has m "uri" isText = true ∧ has m "id" Json.isNumberInteger = true := by
  cases e with
  | obj m =>
    obtain ⟨_, huri, h⟩ := bind_ok.mp h
    obtain ⟨_, hid, -⟩ := bind_ok.mp h
    exact ⟨m, rfl, require_ok.mp huri, require_ok.mp hid⟩
  | _ => cases h

/-- What the validation of parameters checks, and what it leaves. -/
structure ParamsOk (params params' : Members) : Prop where
  mid : hasOrLacks params "mid" isText = true ∧ get "mid" params' = get "mid" params
  codecs : ∃ codecs codecs', get "codecs" params = some (.arr codecs) ∧
    codecs.mapM validateRtpCodecParameters = .ok codecs' ∧
    get "codecs" params' = some (.arr codecs')
  headerExtensions : ∃ exts exts', (get "headerExtensions" params).getD (.arr []) = .arr exts ∧
    exts.mapM validateRtpHeaderExtensionParameters = .ok exts' ∧
    get "headerExtensions" params' = some (.arr exts')
  encodings : ∃ encodings encodings', (get "encodings" params).getD (.arr []) = .arr encodings ∧
    encodings.mapM validateRtpEncodingParameters = .ok encodings' ∧
    get "encodings" params' = some (.arr encodings')
  rtcp : ∃ rtcp, validateRtcpParameters ((get "rtcp" params).getD (.obj [])) = .ok rtcp ∧
    get "rtcp" params' = some rtcp

/-- Parameters that are accepted. -/
theorem validateRtpParameters_ok {c c' : Json} (h : validateRtpParameters c = .ok c') :
    ∃ params params', c = .obj params ∧ c' = .obj params' ∧ ParamsOk params params' := by
  cases c with
  | obj params =>
    obtain ⟨_, hmid, h⟩ := bind_ok.mp h
    obtain ⟨_, harr, h⟩ := bind_ok.mp h
    obtain ⟨params₁, hcodecs, h⟩ := bind_ok.mp h
    obtain ⟨params₂, hexts, h⟩ := bind_ok.mp h
    obtain ⟨params₃, hencodings, h⟩ := bind_ok.mp h
    obtain ⟨_, -, h⟩ := bind_ok.mp h
    obtain ⟨rtcp, hrtcp, h⟩ := bind_ok.mp h
    cases h
    obtain ⟨v, hv, hisArr⟩ := has_iff.mp (require_ok.mp harr)
    cases v with
    | arr codecs =>
      obtain ⟨hkeep₁, hitems⟩ := eachElement_ok hcodecs
      obtain ⟨codecs', hcmap, hcget⟩ := hitems codecs hv
      obtain ⟨hkeep₂, exts, exts', he, hemap, heget⟩ := optionalArray_ok hexts
      obtain ⟨hkeep₃, encodings, encodings', hn, hnmap, hnget⟩ := optionalArray_ok hencodings
      rw [hkeep₁ _ (by decide)] at he
      rw [hkeep₂ _ (by decide), hkeep₁ _ (by decide)] at hn
      rw [hkeep₃ _ (by decide), hkeep₂ _ (by decide), hkeep₁ _ (by decide)] at hrtcp
      refine ⟨params, put "rtcp" rtcp params₃, rfl, rfl, ⟨require_ok.mp hmid, ?_⟩,
        ⟨codecs, codecs', hv, hcmap, ?_⟩, ⟨exts, exts', he, hemap, ?_⟩,
        ⟨encodings, encodings', hn, hnmap, ?_⟩, ⟨rtcp, hrtcp, get_put_self _ _ _⟩⟩
      · rw [get_put_of_ne _ (by decide), hkeep₃ _ (by decide), hkeep₂ _ (by decide),
          hkeep₁ _ (by decide)]
      · rw [get_put_of_ne _ (by decide), hkeep₃ _ (by decide), hkeep₂ _ (by decide), hcget]
      · rw [get_put_of_ne _ (by decide), hkeep₃ _ (by decide), heget]
      · rw [get_put_of_ne _ (by decide), hnget]
    | _ => cases hisArr
  | _ => cases h

/-- The rtx of a validated encoding has an ssrc. -/
theorem validateRtpEncodingParameters_ok {e e' : Json}
    (h : validateRtpEncodingParameters e = .ok e') :
    ∃ m m', e = .obj m ∧ e' = .obj m' ∧ (∀ k ≠ "dtx", get k m' = get k m) ∧
      ∀ rtx, get "rtx" m = some rtx → ∃ ssrc, rtx.find "ssrc" = some ssrc := by
  cases e with
  | obj m =>
    obtain ⟨_, -, h⟩ := bind_ok.mp h
    obtain ⟨_, -, h⟩ := bind_ok.mp h
    obtain ⟨_, -, h⟩ := bind_ok.mp h
    obtain ⟨_, hrtx, h⟩ := bind_ok.mp h
    obtain ⟨_, -, h⟩ := bind_ok.mp h
    cases h
    refine ⟨m, _, rfl, rfl, fun k hk => ?_, fun rtx hget => ?_⟩
    · rw [get_orDefault, if_neg fun hc => hk hc.1]
    · have hssrc := hasOrLacks_iff.mp (require_ok.mp hrtx) rtx hget
      obtain ⟨ssrc, hs, -⟩ := (Option.any_eq_true _ _).mp hssrc
      exact ⟨ssrc, hs⟩
  | _ => cases h

/-! ### What is enough for a value to be accepted -/

theorem eachElement_total {key : String} {validate : Json → Except Invalid Json} {m : Members}
    {items items' : List Json} (hget : get key m = some (.arr items))
    (h : items.mapM validate = .ok items') :
    eachElement key validate m = .ok (put key (.arr items') m) := by
  unfold eachElement
  rw [hget]
  exact bind_ok.mpr ⟨items', h, rfl⟩

theorem validateCodecRest_total {kind : String} {codec : Members} {feedback : List Json}
    (hclock : has codec "clockRate" Json.isNumberInteger = true)
    (hvalid : (parametersOf codec).forM validateParameter = .ok ())
    (hfeedback : (feedbackOf codec).mapM validateRtcpFeedback = .ok feedback) :
    ∃ j, validateCodecRest kind codec = .ok j := by
  have hparams : parametersOf (codecChannels kind codec) = parametersOf codec := by
    unfold parametersOf
    rw [get_codecChannels (by decide)]
  have hfb : feedbackOf (orDefault "parameters" Json.isObject (.obj [])
      (codecChannels kind codec)) = feedbackOf codec := by
    unfold feedbackOf
    rw [get_orDefault, if_neg fun hc => absurd hc.1 (by decide), get_codecChannels (by decide)]
  have heach := eachElement_total (get_orDefault_feedback (orDefault "parameters" Json.isObject
    (.obj []) (codecChannels kind codec))) (by rw [hfb]; exact hfeedback)
  refine bind_total ⟨(), require_ok.mpr hclock⟩ fun _ => ?_
  simp only [get_orDefault_parameters, hparams]
  exact bind_total ⟨(), hvalid⟩ fun _ => bind_total ⟨_, heach⟩ fun _ => ⟨_, rfl⟩

theorem optionalArray_total {key t : String} {validate : Json → Except Invalid Json}
    {m : Members} {items items' : List Json} (hget : get key m = some (.arr items) ∨
      get key m = none ∧ items = []) (h : items.mapM validate = .ok items') :
    ∃ m', optionalArray key t validate m = .ok m' ∧ ∀ k, k ≠ key → get k m' = get k m := by
  have hreq : hasOrLacks m key Json.isArray = true := by
    refine hasOrLacks_iff.mpr fun v hv => ?_
    rcases hget with hget | ⟨hget, -⟩
    · rw [hget] at hv
      cases hv
      rfl
    · rw [hget] at hv
      cases hv
  have hdefault : get key (orDefault key Json.isArray (.arr []) m) = some (.arr items) := by
    unfold orDefault
    rcases hget with hget | ⟨hget, rfl⟩
    · rw [if_pos (has_iff.mpr ⟨_, hget, rfl⟩), hget]
    · rw [if_neg fun hc => by simp [has, hget] at hc, get_put_self]
  refine ⟨_, bind_ok.mpr ⟨(), require_ok.mpr hreq, eachElement_total hdefault h⟩, fun k hk => ?_⟩
  rw [get_put_of_ne _ hk, get_orDefault, if_neg fun hc => hk hc.1]

/-- Capabilities are accepted if their codecs and header extensions are. -/
theorem validateRtpCapabilities_total {m : Members} {codecs codecs' exts exts' : List Json}
    (hc : get "codecs" m = some (.arr codecs) ∨ get "codecs" m = none ∧ codecs = [])
    (he : get "headerExtensions" m = some (.arr exts) ∨
      get "headerExtensions" m = none ∧ exts = [])
    (hcodecs : codecs.mapM validateRtpCodecCapability = .ok codecs')
    (hexts : exts.mapM validateRtpHeaderExtension = .ok exts') :
    ∃ valid, validateRtpCapabilities (.obj m) = .ok valid := by
  obtain ⟨m₁, hm₁, hkeep⟩ := optionalArray_total (t := "caps.codecs is not an array") hc hcodecs
  rw [← hkeep "headerExtensions" (by decide)] at he
  obtain ⟨m₂, hm₂, -⟩ :=
    optionalArray_total (t := "caps.headerExtensions is not an array") he hexts
  exact ⟨.obj m₂, bind_ok.mpr ⟨m₁, hm₁, bind_ok.mpr ⟨m₂, hm₂, rfl⟩⟩⟩

end MediasoupClient.Sdp
