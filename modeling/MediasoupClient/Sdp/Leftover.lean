import MediasoupClient.Sdp.Ortc

/-! What is left of an argument that is changed in place (sdputil/jsonvalidate.cpp).

        codec₀  codec₁  codec₂  codec₃
          ✓       ✓      throws
        done    done    begun   as it was

    A validator that throws has already changed a part of its argument, and whoever keeps the argument
    keeps that part. A function that is followed this way ends with what it leaves: `ok` if it goes on,
    `error` if it has thrown. -/

namespace MediasoupClient.Sdp
open Lib

/-! ### Validators -/

/-- A check: if it fails, this is left. -/
def leave {α : Type} (left : α) (check : Bool) : Except α Unit :=
  if check then .ok () else .error left

/-- The elements one after another, up to the first that throws. -/
def eachLeft (left : Json → Except Json Json) : List Json → Except (List Json) (List Json)
  | [] => .ok []
  | item :: items =>
    match left item with
    | .error item => .error (item :: items)
    | .ok item =>
      match eachLeft left items with
      | .error items => .error (item :: items)
      | .ok items => .ok (item :: items)

/-- `eachElement`. -/
def elementsLeft (key : String) (left : Json → Except Json Json) (m : Members) :
    Except Members Members :=
  match get key m with
  | some (.arr items) =>
    match eachLeft left items with
    | .error items => .error (put key (.arr items) m)
    | .ok items => .ok (put key (.arr items) m)
  | _ => .ok m

/-- `optionalArray`. -/
def arrayLeft (key : String) (left : Json → Except Json Json) (m : Members) :
    Except Members Members := do
  leave m (hasOrLacks m key Json.isArray)
  elementsLeft key left (orDefault key Json.isArray (.arr []) m)

/-- A validator of objects. -/
def objectLeft (left : Members → Except Members Members) : Json → Except Json Json
  | .obj m =>
    match left m with
    | .error m => .error (.obj m)
    | .ok m => .ok (.obj m)
  | j => .error j

def feedbackLeft : Json → Except Json Json := objectLeft fun fb => do
  leave fb (has fb "type" Json.isString)
  return orDefault "parameter" Json.isString (.str "") fb

/-- The loop over the parameters changes nothing. -/
def parametersValid (codec : Members) : Bool :=
  match get "parameters" codec with
  | some (.obj parameters) => (parameters.forM validateParameter).toOption.isSome
  | _ => true

def codecRestLeft (kind : String) (codec : Members) : Except Members Members := do
  leave codec (has codec "clockRate" Json.isNumberInteger)
  let codec := orDefault "parameters" Json.isObject (.obj []) (codecChannels kind codec)
  leave codec (parametersValid codec)
  elementsLeft "rtcpFeedback" feedbackLeft (orDefault "rtcpFeedback" Json.isArray (.arr []) codec)

def codecLeft : Json → Except Json Json := objectLeft fun codec =>
  match codecKind codec with
  | .error _ => .error codec
  | .ok kind => do
    let codec := put "kind" (.str kind) codec
    leave codec (hasOrLacks codec "preferredPayloadType" Json.isNumberInteger)
    codecRestLeft kind codec

def extensionLeft : Json → Except Json Json := objectLeft fun ext => do
  leave ext (has ext "kind" Json.isString)
  leave ext (has ext "kind" fun kind => kind.eqv (.str "audio") || kind.eqv (.str "video"))
  leave ext (has ext "uri" isText)
  leave ext (has ext "preferredId" Json.isNumberInteger)
  leave ext (hasOrLacks ext "preferredEncrypt" Json.isBoolean)
  let ext := orDefault "preferredEncrypt" Json.isBoolean (.bool false) ext
  leave ext (hasOrLacks ext "direction" Json.isString)
  return orDefault "direction" Json.isString (.str "sendrecv") ext

/-- What `validateRtpCapabilities` leaves. -/
def capabilitiesLeft : Json → Except Json Json := objectLeft fun caps => do
  let caps ← arrayLeft "codecs" codecLeft caps
  arrayLeft "headerExtensions" extensionLeft caps

/-- The argument, however its function has ended. -/
def whatIsLeft {α : Type} : Except α α → α
  | .ok left => left
  | .error left => left

/-! ### Negotiation -/

/-- `codec["preferredPayloadType"]` of a matched codec: null is inserted if there is none. -/
def payloadTypeRead : Json → Json
  | .obj codec =>
    .obj (if (get "preferredPayloadType" codec).isNone then
      put "preferredPayloadType" .null codec else codec)
  | codec => codec

section
variable (webrtc : WebRtc)

/-- The local codecs after the first pass; and, for the second one, the remote codecs and the extended
    ones. -/
def mediaCodecsLeft (localCodecs : List Json) :
    List Json → Except (List Json) (List Json × List Json × List ExtendedCodec)
  | [] => .ok (localCodecs, [], [])
  | remoteCodec :: remoteCodecs =>
    match isRtxCodec remoteCodec with
    | .error _ => .error localCodecs
    | .ok true => do
      let (localCodecs, remoteCodecs, exts) ← mediaCodecsLeft localCodecs remoteCodecs
      return (localCodecs, remoteCodec :: remoteCodecs, exts)
    | .ok false =>
      match findMatchingCodec webrtc localCodecs remoteCodec with
      | .error _ => .error localCodecs
      | .ok (none, localCodecs, remoteCodec) => do
        let (localCodecs, remoteCodecs, exts) ← mediaCodecsLeft localCodecs remoteCodecs
        return (localCodecs, remoteCodec :: remoteCodecs, exts)
      | .ok (some localIdx, localCodecs, remoteCodec) =>
        match extendCodec (localCodecs.getD localIdx .null) remoteCodec with
        | .error _ => .error (localCodecs.modify localIdx payloadTypeRead)
        | .ok ext => do
          let (localCodecs, remoteCodecs, exts) ←
            mediaCodecsLeft (localCodecs.modify localIdx payloadTypeRead) remoteCodecs
          return (localCodecs, remoteCodec :: remoteCodecs, ext :: exts)

/-- The local codecs after the second pass, for one extended codec. -/
def rtxCodecsLeft (remoteCodecs localCodecs : List Json) (ext : ExtendedCodec) :
    Except (List Json) (List Json) :=
  match findIdx (isRtxCodecOf ext.localPayloadType) localCodecs with
  | .error _ => .error localCodecs
  | .ok none => .ok localCodecs
  | .ok (some localIdx) =>
    match findIdx (isRtxCodecOf ext.remotePayloadType) remoteCodecs with
    | .error _ => .error localCodecs
    | .ok none => .ok localCodecs
    | .ok (some _) => .ok (localCodecs.modify localIdx payloadTypeRead)

def localCodecsLeft (localCodecs remoteCodecs : List Json) : Except (List Json) (List Json) := do
  let (localCodecs, remoteCodecs, exts) ← mediaCodecsLeft webrtc localCodecs remoteCodecs
  exts.foldlM (rtxCodecsLeft remoteCodecs) localCodecs

/-- What `getExtendedRtpCapabilities` leaves of its local capabilities. Nothing of them is changed
    after the codecs. -/
def localCapsLeft (localCaps remoteCaps : Json) : Json :=
  match capabilitiesLeft localCaps, validateRtpCapabilities remoteCaps with
  | .ok (.obj caps), .ok remoteCaps =>
    match get "codecs" caps, remoteCaps.find "codecs" with
    | some (.arr localCodecs), some (.arr remoteCodecs) =>
      .obj (put "codecs" (.arr (whatIsLeft (localCodecsLeft webrtc localCodecs remoteCodecs))) caps)
    | _, _ => .obj caps
  | left, _ => whatIsLeft left

end

/-! ### Validators that go on -/

/-- What is left by a validator that goes on is what it returns. -/
def Agrees (validate : Json → Except Invalid Json) (left : Json → Except Json Json) : Prop :=
  ∀ j j', left j = .ok j' ↔ validate j = .ok j'

theorem leave_ok {α : Type} {left : α} {check : Bool} {u : Unit} :
    leave left check = .ok u ↔ check = true := by
  cases check with
  | true => exact iff_of_true rfl rfl
  | false => exact iff_of_false (fun h => by cases h) Bool.false_ne_true

theorem objectLeft_ok {left : Members → Except Members Members} {m : Members} {j : Json} :
    objectLeft left (.obj m) = .ok j ↔ ∃ m', left m = .ok m' ∧ j = .obj m' := by
  rw [objectLeft]
  cases left m with
  | ok m' => simp [eq_comm]
  | error m' => simp

theorem pure_ok {ε α : Type} {a b : α} : (pure a : Except ε α) = .ok b ↔ b = a := by
  rw [eq_comm (a := b)]
  exact Except.ok.injEq a b ▸ Iff.rfl

theorem eachLeft_ok {validate : Json → Except Invalid Json} {left : Json → Except Json Json}
    (h : Agrees validate left) (items items' : List Json) :
    eachLeft left items = .ok items' ↔ items.mapM validate = .ok items' := by
  induction items generalizing items' with
  | nil =>
    rw [eachLeft, List.mapM_nil, pure_ok, Except.ok.injEq]
    exact eq_comm
  | cons item items ih =>
    rw [eachLeft, List.mapM_cons]
    simp only [bind_ok, ← h item, ← ih, pure_ok]
    cases left item with
    | error item' => simp
    | ok item' =>
      cases eachLeft left items with
      | error items'' => simp
      | ok items'' => simp [eq_comm]

theorem elementsLeft_ok {validate : Json → Except Invalid Json} {left : Json → Except Json Json}
    (h : Agrees validate left) (key : String) (m m' : Members) :
    elementsLeft key left m = .ok m' ↔ eachElement key validate m = .ok m' := by
  unfold elementsLeft eachElement
  cases get key m with
  | none =>
    simp only [pure_ok, Except.ok.injEq]
    exact eq_comm
  | some v =>
    cases v with
    | arr items =>
      simp only [bind_ok, ← eachLeft_ok h, pure_ok]
      cases eachLeft left items with
      | error items' => simp
      | ok items' => simp [eq_comm]
    | _ =>
      simp only [pure_ok, Except.ok.injEq]
      exact eq_comm

theorem arrayLeft_ok {validate : Json → Except Invalid Json} {left : Json → Except Json Json}
    (h : Agrees validate left) (key text : String) (m m' : Members) :
    arrayLeft key left m = .ok m' ↔ optionalArray key text validate m = .ok m' := by
  simp only [arrayLeft, optionalArray, bind_ok, leave_ok, require_ok, elementsLeft_ok h]

/-- A validator of objects agrees with what it leaves if the two agree on the members. -/
theorem objectLeft_agrees {validate : Json → Except Invalid Json}
    {left : Members → Except Members Members}
    (hobj : ∀ m j, validate (.obj m) = .ok j ↔ ∃ m', left m = .ok m' ∧ j = .obj m')
    (hother : ∀ j j', j.isObject = false → validate j ≠ .ok j') :
    Agrees validate (objectLeft left) := by
  intro j j'
  cases j with
  | obj m => rw [objectLeft_ok, hobj]
  | _ => exact iff_of_false (fun h => by cases h) (hother _ _ rfl)

theorem feedbackLeft_agrees : Agrees validateRtcpFeedback feedbackLeft := by
  refine objectLeft_agrees (fun fb j => ?_) fun j j' hj h => ?_
  · rw [validateRtcpFeedback]
    simp only [bind_ok, leave_ok, require_ok, pure_ok]
    constructor
    · rintro ⟨u, hu, rfl⟩
      exact ⟨_, ⟨u, hu, rfl⟩, rfl⟩
    · rintro ⟨m, ⟨u, hu, rfl⟩, rfl⟩
      exact ⟨u, hu, rfl⟩
  · cases j with
    | obj fb => cases hj
    | _ => cases h

theorem parametersValid_iff {codec : Members} : parametersValid (orDefault "parameters" Json.isObject
    (.obj []) codec) = true ↔ ∃ u, (parametersOf codec).forM validateParameter = .ok u := by
  simp only [parametersValid, get_orDefault_parameters, Option.isSome_iff_exists, toOption_eq_some]

theorem codecRestLeft_ok (kind : String) (codec : Members) (j : Json) :
    validateCodecRest kind codec = .ok j ↔
      ∃ codec', codecRestLeft kind codec = .ok codec' ∧ j = .obj codec' := by
  simp only [validateCodecRest, codecRestLeft, get_orDefault_parameters, bind_ok, leave_ok, require_ok,
    pure_ok, parametersValid_iff, elementsLeft_ok feedbackLeft_agrees]
  constructor
  · rintro ⟨u, hclock, u', hparameters, codec', hfeedback, rfl⟩
    exact ⟨codec', ⟨u, hclock, u', ⟨u', hparameters⟩, hfeedback⟩, rfl⟩
  · rintro ⟨codec', ⟨u, hclock, u', ⟨_, hparameters⟩, hfeedback⟩, rfl⟩
    exact ⟨u, hclock, u', hparameters, codec', hfeedback, rfl⟩

theorem codecLeft_agrees : Agrees validateRtpCodecCapability codecLeft := by
  refine objectLeft_agrees (fun codec j => ?_) fun j j' hj h => ?_
  · rw [validateRtpCodecCapability]
    simp only [bind_ok, require_ok, codecRestLeft_ok]
    cases codecKind codec with
    | error e => simp
    | ok kind =>
      simp only [Except.ok.injEq, exists_eq_left', bind_ok, leave_ok]
      constructor
      · rintro ⟨u, htype, codec', hrest, rfl⟩
        exact ⟨codec', ⟨u, htype, hrest⟩, rfl⟩
      · rintro ⟨codec', ⟨u, htype, hrest⟩, rfl⟩
        exact ⟨u, htype, codec', hrest, rfl⟩
  · cases j with
    | obj codec => cases hj
    | _ => cases h

theorem extensionLeft_agrees : Agrees validateRtpHeaderExtension extensionLeft := by
  refine objectLeft_agrees (fun ext j => ?_) fun j j' hj h => ?_
  · rw [validateRtpHeaderExtension]
    simp only [bind_ok, leave_ok, require_ok, pure_ok]
    constructor
    · rintro ⟨u, h₁, u₂, h₂, u₃, h₃, u₄, h₄, u₅, h₅, u₆, h₆, rfl⟩
      exact ⟨_, ⟨u, h₁, u₂, h₂, u₃, h₃, u₄, h₄, u₅, h₅, u₆, h₆, rfl⟩, rfl⟩
    · rintro ⟨m, ⟨u, h₁, u₂, h₂, u₃, h₃, u₄, h₄, u₅, h₅, u₆, h₆, rfl⟩, rfl⟩
      exact ⟨u, h₁, u₂, h₂, u₃, h₃, u₄, h₄, u₅, h₅, u₆, h₆, rfl⟩
  · cases j with
    | obj ext => cases hj
    | _ => cases h

/-- CORRECT: capabilities that are accepted are left as they are returned. -/
theorem capabilitiesLeft_agrees : Agrees validateRtpCapabilities capabilitiesLeft := by
  refine objectLeft_agrees (fun caps j => ?_) fun j j' hj h => ?_
  · rw [validateRtpCapabilities]
    simp only [bind_ok, pure_ok, arrayLeft_ok codecLeft_agrees _ "caps.codecs is not an array",
      arrayLeft_ok extensionLeft_agrees _ "caps.headerExtensions is not an array"]
    constructor
    · rintro ⟨caps₁, hcodecs, caps₂, hexts, rfl⟩
      exact ⟨caps₂, ⟨caps₁, hcodecs, hexts⟩, rfl⟩
    · rintro ⟨caps₂, ⟨caps₁, hcodecs, hexts⟩, rfl⟩
      exact ⟨caps₁, hcodecs, caps₂, hexts, rfl⟩
  · cases j with
    | obj caps => cases hj
    | _ => cases h

end MediasoupClient.Sdp
