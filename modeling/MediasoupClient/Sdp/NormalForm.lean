import MediasoupClient.Sdp.Extended

/-! The normal form that the validators of capabilities and parameters establish
    (sdputil/jsonvalidate.cpp).

        j  ──validate──▶  j'  ──validate──▶  j'

    Every default that is written passes the check it was written for, and is where the second run
    looks for it; what is erased is not missed. -/

namespace MediasoupClient.Sdp
open Lib

/-! ### Arrays that are validated already -/

/-- What the validator returns it accepts, and leaves as it is. -/
def Settles (validate : Json → Except Invalid Json) : Prop :=
  ∀ ⦃j j'⦄, validate j = .ok j' → validate j' = .ok j'

theorem Settles.elements {validate : Json → Except Invalid Json} (h : Settles validate)
    {items items' : List Json} (hmap : items.mapM validate = .ok items') :
    items'.mapM validate = .ok items' := by
  induction items generalizing items' with
  | nil => cases hmap; rfl
  | cons item items ih =>
    rw [List.mapM_cons] at hmap
    obtain ⟨item', hitem, hmap⟩ := bind_ok.mp hmap
    obtain ⟨rest, hrest, hmap⟩ := bind_ok.mp hmap
    cases hmap
    rw [List.mapM_cons]
    exact bind_ok.mpr ⟨item', h hitem, bind_ok.mpr ⟨rest, ih hrest, rfl⟩⟩

/-- An array whose elements are left as they are. -/
def SettledArray (key : String) (validate : Json → Except Invalid Json) (m : Members) : Prop :=
  ∃ items, Stored key (.arr items) m ∧ items.mapM validate = .ok items

section
variable {key k : String} {p q : Json → Bool} {value v : Json} {m m' : Members}
variable {validate : Json → Except Invalid Json}

theorem orDefault_of_has (h : has m key p = true) : orDefault key p value m = m := if_pos h

theorem stored_orDefault (hne : k ≠ key) (h : Stored k v m) :
    Stored k v (orDefault key p value m) := by
  unfold Sdp.orDefault
  split_ifs
  · exact h
  · exact h.put value hne

theorem stored_codecChannels {kind : String} (hne : k ≠ "channels") (h : Stored k v m) :
    Stored k v (codecChannels kind m) := by
  unfold Sdp.codecChannels
  split_ifs
  · exact stored_orDefault hne h
  · exact h.del hne

theorem hasOrLacks_of_has (h : has m key p = true) : hasOrLacks m key p = true := by
  obtain ⟨v, hv, hp⟩ := has_iff.mp h
  rw [hasOrLacks, hv]
  exact hp

theorem hasOrLacks_orDefault_of_ne (hne : k ≠ key) (m : Members) :
    hasOrLacks (orDefault key p value m) k q = hasOrLacks m k q := by
  unfold hasOrLacks
  rw [get_orDefault, if_neg fun hc => hne hc.1]

theorem SettledArray.each (h : SettledArray key validate m) :
    eachElement key validate m = .ok m := by
  obtain ⟨items, hstored, hmap⟩ := h
  rw [eachElement_total hstored.get hmap]
  exact congrArg _ hstored

theorem SettledArray.optional {text : String} (h : SettledArray key validate m) :
    optionalArray key text validate m = .ok m := by
  obtain ⟨items, hstored, -⟩ := id h
  have hhas : has m key Json.isArray = true := has_iff.mpr ⟨_, hstored.get, rfl⟩
  refine bind_ok.mpr ⟨(), require_ok.mpr (hasOrLacks_of_has hhas), ?_⟩
  rw [orDefault_of_has hhas]
  exact h.each

/-- An array stays settled if its key is left where it is. -/
theorem SettledArray.keep (h : SettledArray key validate m)
    (hkeep : ∀ v, Stored key v m → Stored key v m') : SettledArray key validate m' := by
  obtain ⟨items, hstored, hmap⟩ := h
  exact ⟨items, hkeep _ hstored, hmap⟩

theorem eachElement_settles (hs : Settles validate) {items : List Json}
    (hget : Lib.get key m = some (.arr items)) (h : eachElement key validate m = .ok m') :
    SettledArray key validate m' ∧ ∀ k ≠ key, ∀ v, Stored k v m → Stored k v m' := by
  unfold eachElement at h
  rw [hget] at h
  obtain ⟨items', hmap, h⟩ := bind_ok.mp h
  cases h
  exact ⟨⟨items', stored_put _ _ _, hs.elements hmap⟩, fun k hk v hv => hv.put _ hk⟩

theorem optionalArray_settles {text : String} (hs : Settles validate)
    (h : optionalArray key text validate m = .ok m') :
    SettledArray key validate m' ∧ ∀ k ≠ key, ∀ v, Stored k v m → Stored k v m' := by
  obtain ⟨_, -, h⟩ := bind_ok.mp h
  have hhas : has (orDefault key Json.isArray (.arr []) m) key Json.isArray = true :=
    has_orDefault key rfl m
  obtain ⟨v, hv, harr⟩ := has_iff.mp hhas
  cases v with
  | arr items =>
    obtain ⟨hsettled, hkeep⟩ := eachElement_settles hs hv h
    exact ⟨hsettled, fun k hk v hv => hkeep k hk v (stored_orDefault hk hv)⟩
  | _ => cases harr

end

/-! ### Codecs -/

theorem validateRtcpFeedback_settles : Settles validateRtcpFeedback := by
  intro j j' h
  cases j with
  | obj fb =>
    obtain ⟨_, htype, h⟩ := bind_ok.mp h
    cases h
    refine bind_ok.mpr ⟨(), require_ok.mpr ?_, ?_⟩
    · rw [has_orDefault_of_ne (by decide)]
      exact require_ok.mp htype
    · rw [orDefault_of_has (has_orDefault _ rfl _)]
      rfl
  | _ => cases h

theorem codecChannels_settles {kind : String} {codec codec' : Members}
    (h : Lib.get "channels" codec' = Lib.get "channels" (codecChannels kind codec)) :
    codecChannels kind codec' = codec' := by
  unfold codecChannels at h ⊢
  split_ifs at h ⊢ with haudio
  · refine orDefault_of_has ?_
    rw [has, h]
    exact has_orDefault "channels" rfl codec
  · rw [get_del, if_pos rfl] at h
    exact del_of_none h

theorem validateCodecRest_fixed {kind : String} {codec parameters : Members}
    (hclock : has codec "clockRate" Json.isNumberInteger = true)
    (hchannels : codecChannels kind codec = codec)
    (hparams : Lib.get "parameters" codec = some (.obj parameters))
    (hvalid : parameters.forM validateParameter = .ok ())
    (hfeedback : SettledArray "rtcpFeedback" validateRtcpFeedback codec) :
    validateCodecRest kind codec = .ok (.obj codec) := by
  obtain ⟨feedback, hstored, -⟩ := id hfeedback
  have hdefault : orDefault "rtcpFeedback" Json.isArray (.arr []) codec = codec :=
    orDefault_of_has (has_iff.mpr ⟨_, hstored.get, rfl⟩)
  have hobject : orDefault "parameters" Json.isObject (.obj []) codec = codec :=
    orDefault_of_has (has_iff.mpr ⟨_, hparams, rfl⟩)
  refine bind_ok.mpr ⟨(), require_ok.mpr hclock, ?_⟩
  simp only [hchannels, hobject, hparams, hdefault]
  exact bind_ok.mpr ⟨(), hvalid, bind_ok.mpr ⟨codec, hfeedback.each, rfl⟩⟩

theorem validateCodecRest_settles {kind : String} {codec codec' : Members}
    (h : validateCodecRest kind codec = .ok (.obj codec')) :
    validateCodecRest kind codec' = .ok (.obj codec') ∧
      ∀ k ∉ ["parameters", "rtcpFeedback", "channels"], ∀ v, Stored k v codec → Stored k v codec' := by
  obtain ⟨_, hobj, hrest⟩ := validateCodecRest_ok h
  cases hobj
  obtain ⟨_, -, h⟩ := bind_ok.mp h
  simp only [get_orDefault_parameters] at h
  obtain ⟨_, -, h⟩ := bind_ok.mp h
  obtain ⟨_, hfeedback, h⟩ := bind_ok.mp h
  cases h
  obtain ⟨hsettled, hkeep⟩ :=
    eachElement_settles validateRtcpFeedback_settles (get_orDefault_feedback _) hfeedback
  refine ⟨validateCodecRest_fixed ?_ (codecChannels_settles hrest.channels) hrest.parameters
    hrest.valid hsettled, fun k hk v hv => ?_⟩
  · rw [has, hrest.others _ (by decide)]
    exact hrest.clockRate
  · simp only [List.mem_cons, List.not_mem_nil, or_false, not_or] at hk
    exact hkeep k hk.2.1 v (stored_orDefault hk.2.1 (stored_orDefault hk.1
      (stored_codecChannels hk.2.2 hv)))

theorem codecKind_congr {codec codec' : Members}
    (h : Lib.get "mimeType" codec' = Lib.get "mimeType" codec) :
    codecKind codec' = codecKind codec := by
  unfold codecKind
  rw [h]

theorem validateRtpCodecCapability_settles : Settles validateRtpCodecCapability := by
  intro j j' h
  cases j with
  | obj codec =>
    obtain ⟨kind, hkind, h⟩ := bind_ok.mp h
    obtain ⟨_, hpt, h⟩ := bind_ok.mp h
    obtain ⟨codec', rfl, hok⟩ := validateCodecRest_ok h
    obtain ⟨hfixed, hkeep⟩ := validateCodecRest_settles h
    have hput : put "kind" (.str kind) codec' = codec' := hkeep _ (by decide) _ (stored_put _ _ _)
    have hmime : codecKind codec' = .ok kind := by
      refine (codecKind_congr ?_).trans hkind
      rw [hok.others _ (by decide), get_put_of_ne _ (by decide)]
    refine bind_ok.mpr ⟨kind, hmime, ?_⟩
    simp only [hput]
    refine bind_ok.mpr ⟨(), require_ok.mpr ?_, hfixed⟩
    rw [hasOrLacks, hok.others _ (by decide)]
    exact require_ok.mp hpt
  | _ => cases h

theorem validateRtpCodecParameters_settles : Settles validateRtpCodecParameters := by
  intro j j' h
  cases j with
  | obj codec =>
    obtain ⟨kind, hkind, h⟩ := bind_ok.mp h
    obtain ⟨_, hpt, h⟩ := bind_ok.mp h
    obtain ⟨codec', rfl, hok⟩ := validateCodecRest_ok h
    refine bind_ok.mpr ⟨kind, ?_, bind_ok.mpr ⟨(), require_ok.mpr ?_, (validateCodecRest_settles h).1⟩⟩
    · rw [codecKind_congr (hok.others _ (by decide)), hkind]
    · rw [has, hok.others _ (by decide)]
      exact require_ok.mp hpt
  | _ => cases h

/-! ### Header extensions, encodings and rtcp -/

theorem validateRtpHeaderExtension_settles : Settles validateRtpHeaderExtension := by
  intro j j' h
  cases j with
  | obj ext =>
    obtain ⟨_, hstring, h⟩ := bind_ok.mp h
    obtain ⟨_, hkind, h⟩ := bind_ok.mp h
    obtain ⟨_, huri, h⟩ := bind_ok.mp h
    obtain ⟨_, hid, h⟩ := bind_ok.mp h
    obtain ⟨_, hencrypt, h⟩ := bind_ok.mp h
    obtain ⟨_, hdir, h⟩ := bind_ok.mp h
    cases h
    have hkeep : ∀ (k : String) (p : Json → Bool), k ≠ "preferredEncrypt" → k ≠ "direction" →
        has (orDefault "direction" Json.isString (.str "sendrecv")
          (orDefault "preferredEncrypt" Json.isBoolean (.bool false) ext)) k p = has ext k p :=
      fun k p h₁ h₂ => by rw [has_orDefault_of_ne h₂, has_orDefault_of_ne h₁]
    have hbool : has (orDefault "direction" Json.isString (.str "sendrecv")
        (orDefault "preferredEncrypt" Json.isBoolean (.bool false) ext)) "preferredEncrypt"
          Json.isBoolean = true := by
      rw [has_orDefault_of_ne (by decide)]
      exact has_orDefault _ rfl _
    refine bind_ok.mpr ⟨(), ?_, bind_ok.mpr ⟨(), ?_, bind_ok.mpr ⟨(), ?_, bind_ok.mpr ⟨(), ?_,
      bind_ok.mpr ⟨(), require_ok.mpr (hasOrLacks_of_has hbool), ?_⟩⟩⟩⟩⟩
    · rwa [hkeep _ _ (by decide) (by decide)]
    · rwa [hkeep _ _ (by decide) (by decide)]
    · rwa [hkeep _ _ (by decide) (by decide)]
    · rwa [hkeep _ _ (by decide) (by decide)]
    · have hdirection : has (orDefault "direction" Json.isString (.str "sendrecv")
          (orDefault "preferredEncrypt" Json.isBoolean (.bool false) ext)) "direction"
            Json.isString = true := has_orDefault _ rfl _
      rw [orDefault_of_has hbool]
      refine bind_ok.mpr ⟨(), require_ok.mpr (hasOrLacks_of_has hdirection), ?_⟩
      rw [orDefault_of_has hdirection]
      rfl
  | _ => cases h

theorem validateRtpHeaderExtensionParameters_settles :
    Settles validateRtpHeaderExtensionParameters := by
  intro j j' h
  cases j with
  | obj ext =>
    obtain ⟨_, huri, h⟩ := bind_ok.mp h
    obtain ⟨_, hid, h⟩ := bind_ok.mp h
    simp only [get_orDefault_parameters] at h
    obtain ⟨_, hall, h⟩ := bind_ok.mp h
    cases h
    have hbool : has (orDefault "parameters" Json.isObject (.obj [])
        (orDefault "encrypt" Json.isBoolean (.bool false) ext)) "encrypt" Json.isBoolean = true := by
      rw [has_orDefault_of_ne (by decide)]
      exact has_orDefault _ rfl _
    have hobject : has (orDefault "parameters" Json.isObject (.obj [])
        (orDefault "encrypt" Json.isBoolean (.bool false) ext)) "parameters" Json.isObject = true :=
      has_orDefault _ rfl _
    refine bind_ok.mpr ⟨(), ?_, bind_ok.mpr ⟨(), ?_, ?_⟩⟩
    · rwa [has_orDefault_of_ne (by decide), has_orDefault_of_ne (by decide)]
    · rwa [has_orDefault_of_ne (by decide), has_orDefault_of_ne (by decide)]
    · simp only [orDefault_of_has hbool, orDefault_of_has hobject, get_orDefault_parameters]
      exact bind_ok.mpr ⟨(), hall, rfl⟩
  | _ => cases h

theorem validateRtpEncodingParameters_settles : Settles validateRtpEncodingParameters := by
  intro j j' h
  cases j with
  | obj encoding =>
    obtain ⟨_, hssrc, h⟩ := bind_ok.mp h
    obtain ⟨_, hrid, h⟩ := bind_ok.mp h
    obtain ⟨_, hrtx, h⟩ := bind_ok.mp h
    obtain ⟨_, hrtxSsrc, h⟩ := bind_ok.mp h
    obtain ⟨_, hmode, h⟩ := bind_ok.mp h
    cases h
    refine bind_ok.mpr ⟨(), ?_, bind_ok.mpr ⟨(), ?_, bind_ok.mpr ⟨(), ?_, bind_ok.mpr ⟨(), ?_, ?_⟩⟩⟩⟩
    · rwa [hasOrLacks_orDefault_of_ne (by decide)]
    · rwa [hasOrLacks_orDefault_of_ne (by decide)]
    · rwa [hasOrLacks_orDefault_of_ne (by decide)]
    · rwa [hasOrLacks_orDefault_of_ne (by decide)]
    · rw [orDefault_of_has (has_orDefault _ rfl _)]
      exact bind_ok.mpr ⟨(), hmode, rfl⟩
  | _ => cases h

theorem validateRtcpParameters_settles : Settles validateRtcpParameters := by
  intro j j' h
  cases j with
  | obj rtcp =>
    obtain ⟨_, hcname, h⟩ := bind_ok.mp h
    cases h
    refine bind_ok.mpr ⟨(), ?_, ?_⟩
    · rwa [hasOrLacks_orDefault_of_ne (by decide)]
    · rw [orDefault_of_has (has_orDefault _ rfl _)]
      rfl
  | _ => cases h

/-! ### The normal form -/

/-- A codec with all that is optional. -/
structure CodecNormal (codec : Json) : Prop where
  parameters : ∃ parameters, codec.find "parameters" = some (.obj parameters) ∧
    ∀ p ∈ parameters, (p.2.isString || p.2.isNumber || p.2.isNull) = true ∧
      (p.1 = "apt" → p.2.isNumberInteger = true)
  rtcpFeedback : ∃ feedback, codec.find "rtcpFeedback" = some (.arr feedback) ∧
    ∀ fb ∈ feedback, ∃ type parameter, fb.find "type" = some (.str type) ∧
      fb.find "parameter" = some (.str parameter)
  channels : ∃ mimeType kind, codec.find "mimeType" = some (.str mimeType) ∧
    mimeKind mimeType = some kind ∧ ((codec.find "channels").isSome = true ↔ kind = "audio") ∧
    ∀ v, codec.find "channels" = some v → v.isNumberInteger = true

/-- Capabilities with all that is optional. -/
structure CapabilitiesNormal (caps : Json) : Prop where
  codecs : ∃ codecs, caps.find "codecs" = some (.arr codecs) ∧ ∀ c ∈ codecs, CodecNormal c
  headerExtensions : ∃ exts, caps.find "headerExtensions" = some (.arr exts) ∧
    ∀ ext ∈ exts, (∃ b, ext.find "preferredEncrypt" = some (.bool b)) ∧
      ∃ d, ext.find "direction" = some (.str d)

/-- Parameters with all that is optional. -/
structure ParametersNormal (params : Json) : Prop where
  codecs : ∃ codecs, params.find "codecs" = some (.arr codecs) ∧ ∀ c ∈ codecs, CodecNormal c
  headerExtensions : ∃ exts, params.find "headerExtensions" = some (.arr exts) ∧
    ∀ ext ∈ exts, (∃ b, ext.find "encrypt" = some (.bool b)) ∧
      ∃ parameters, ext.find "parameters" = some (.obj parameters) ∧
        ∀ p ∈ parameters, (p.2.isString || p.2.isNumber) = true
  encodings : ∃ encodings, params.find "encodings" = some (.arr encodings) ∧
    ∀ e ∈ encodings, ∃ b, e.find "dtx" = some (.bool b)
  rtcp : ∃ rtcp, params.find "rtcp" = some (.obj rtcp) ∧
    ∃ b, Lib.get "reducedSize" rtcp = some (.bool b)

theorem validateParameter_ok {p : String × Json} (h : validateParameter p = .ok ()) :
    (p.2.isString || p.2.isNumber || p.2.isNull) = true ∧
      (p.1 = "apt" → p.2.isNumberInteger = true) := by
  obtain ⟨_, htype, h⟩ := bind_ok.mp h
  refine ⟨require_ok.mp htype, fun hapt => ?_⟩
  have h' := require_ok.mp h
  simpa [hapt] using h'

theorem FeedbackText.texts {fb : Json} (h : FeedbackText fb) : ∃ type parameter,
    fb.find "type" = some (.str type) ∧ fb.find "parameter" = some (.str parameter) := by
  obtain ⟨m, rfl, htype, hparam⟩ := h
  obtain ⟨type, ht, hts⟩ := has_iff.mp htype
  obtain ⟨parameter, hp, hps⟩ := has_iff.mp hparam
  cases type with
  | str type =>
    cases parameter with
    | str parameter => exact ⟨type, parameter, ht, hp⟩
    | _ => cases hps
  | _ => cases hts

theorem has_bool {m : Members} {key : String} (h : has m key Json.isBoolean = true) :
    ∃ b, Lib.get key m = some (.bool b) := by
  obtain ⟨v, hv, hb⟩ := has_iff.mp h
  cases v with
  | bool b => exact ⟨b, hv⟩
  | _ => cases hb

/-- What the common part leaves is normal. -/
theorem RestOk.normal {kind mimeType : String} {codec codec' : Members} (h : RestOk kind codec codec')
    (hmime : Lib.get "mimeType" codec' = some (.str mimeType)) (hkind : mimeKind mimeType = some kind) :
    CodecNormal (.obj codec') := by
  obtain ⟨feedback, hmap, hfeedback⟩ := h.rtcpFeedback
  refine ⟨⟨_, h.parameters, fun p hp => validateParameter_ok (forM_ok h.valid p hp)⟩,
    ⟨feedback, hfeedback, fun fb hfb => ?_⟩, ⟨mimeType, kind, hmime, hkind, ?_⟩⟩
  · obtain ⟨_, -, hval⟩ := mem_of_forall₂ (mapM_ok hmap) hfb
    exact (validateRtcpFeedback_ok hval).texts
  · change ((Lib.get "channels" codec').isSome = true ↔ _) ∧ ∀ v, Lib.get "channels" codec' = _ → _
    rw [h.channels]
    unfold codecChannels
    split_ifs with haudio
    · have hhas : has (orDefault "channels" Json.isNumberInteger (.int 1) codec) "channels"
          Json.isNumberInteger = true := has_orDefault _ rfl _
      obtain ⟨v, hv, hint⟩ := has_iff.mp hhas
      rw [hv]
      refine ⟨iff_of_true rfl haudio, fun w hw => ?_⟩
      cases hw
      exact hint
    · rw [get_del, if_pos rfl]
      exact ⟨iff_of_false (by decide) haudio, fun v hv => by cases hv⟩

theorem validateRtpCodecCapability_normal {c c' : Json} (h : validateRtpCodecCapability c = .ok c') :
    CodecNormal c' := by
  obtain ⟨codec, kind, codec', -, hkind, rfl, -, hrest⟩ := validateRtpCodecCapability_ok h
  obtain ⟨mimeType, hmime, hk⟩ := codecKind_ok hkind
  refine hrest.normal ?_ hk
  rw [hrest.others _ (by decide), get_put_of_ne _ (by decide), hmime]

theorem validateRtpCodecParameters_normal {c c' : Json} (h : validateRtpCodecParameters c = .ok c') :
    CodecNormal c' := by
  obtain ⟨codec, kind, codec', -, hkind, rfl, -, hrest⟩ := validateRtpCodecParameters_ok h
  obtain ⟨mimeType, hmime, hk⟩ := codecKind_ok hkind
  refine hrest.normal ?_ hk
  rw [hrest.others _ (by decide), hmime]

theorem HeaderShape.normal {ext : Json} (h : HeaderShape ext) :
    (∃ b, ext.find "preferredEncrypt" = some (.bool b)) ∧
      ∃ d, ext.find "direction" = some (.str d) := by
  obtain ⟨v, hv, hb⟩ := h.preferredEncrypt
  refine ⟨?_, h.direction⟩
  cases v with
  | bool b => exact ⟨b, hv⟩
  | _ => cases hb

theorem validateRtpHeaderExtensionParameters_normal {e e' : Json}
    (h : validateRtpHeaderExtensionParameters e = .ok e') :
    (∃ b, e'.find "encrypt" = some (.bool b)) ∧
      ∃ parameters, e'.find "parameters" = some (.obj parameters) ∧
        ∀ p ∈ parameters, (p.2.isString || p.2.isNumber) = true := by
  cases e with
  | obj ext =>
    obtain ⟨_, -, h⟩ := bind_ok.mp h
    obtain ⟨_, -, h⟩ := bind_ok.mp h
    simp only [get_orDefault_parameters] at h
    obtain ⟨_, hall, h⟩ := bind_ok.mp h
    cases h
    refine ⟨has_bool ?_, _, get_orDefault_parameters _, List.all_eq_true.mp (require_ok.mp hall)⟩
    rw [has_orDefault_of_ne (by decide)]
    exact has_orDefault _ rfl _
  | _ => cases h

theorem validateRtpEncodingParameters_normal {e e' : Json}
    (h : validateRtpEncodingParameters e = .ok e') : ∃ b, e'.find "dtx" = some (.bool b) := by
  cases e with
  | obj encoding =>
    obtain ⟨_, -, h⟩ := bind_ok.mp h
    obtain ⟨_, -, h⟩ := bind_ok.mp h
    obtain ⟨_, -, h⟩ := bind_ok.mp h
    obtain ⟨_, -, h⟩ := bind_ok.mp h
    obtain ⟨_, -, h⟩ := bind_ok.mp h
    cases h
    exact has_bool (has_orDefault _ rfl _)
  | _ => cases h

theorem validateRtcpParameters_normal {r r' : Json} (h : validateRtcpParameters r = .ok r') :
    ∃ rtcp, r' = .obj rtcp ∧ ∃ b, Lib.get "reducedSize" rtcp = some (.bool b) := by
  cases r with
  | obj rtcp =>
    obtain ⟨_, -, h⟩ := bind_ok.mp h
    cases h
    exact ⟨_, rfl, has_bool (has_orDefault _ rfl _)⟩
  | _ => cases h

/-! ### Both validators -/

theorem validateRtpCapabilities_normal {caps valid : Json}
    (h : validateRtpCapabilities caps = .ok valid) : CapabilitiesNormal valid := by
  obtain ⟨_, _, _, codecs', _, exts', -, rfl, -, hcodecs, hgetc, -, hexts, hgete⟩ :=
    validateRtpCapabilities_ok h
  refine ⟨⟨codecs', hgetc, fun c hc => ?_⟩, ⟨exts', hgete, fun ext hext => ?_⟩⟩
  · obtain ⟨_, -, hval⟩ := mem_of_forall₂ (mapM_ok hcodecs) hc
    exact validateRtpCodecCapability_normal hval
  · obtain ⟨_, -, hval⟩ := mem_of_forall₂ (mapM_ok hexts) hext
    exact (HeaderShape.of_validated hval).normal

theorem validateRtpCapabilities_settles : Settles validateRtpCapabilities := by
  intro j j' h
  cases j with
  | obj caps =>
    obtain ⟨caps₁, hcodecs, h⟩ := bind_ok.mp h
    obtain ⟨caps₂, hexts, h⟩ := bind_ok.mp h
    cases h
    obtain ⟨hsettled₁, -⟩ := optionalArray_settles validateRtpCodecCapability_settles hcodecs
    obtain ⟨hsettled₂, hkeep₂⟩ := optionalArray_settles validateRtpHeaderExtension_settles hexts
    have hcodecs₂ := hsettled₁.keep (hkeep₂ _ (by decide))
    exact bind_ok.mpr ⟨caps₂, hcodecs₂.optional, bind_ok.mpr ⟨caps₂, hsettled₂.optional, rfl⟩⟩
  | _ => cases h

theorem validateRtpParameters_normal {params valid : Json}
    (h : validateRtpParameters params = .ok valid) : ParametersNormal valid := by
  obtain ⟨_, params', -, rfl, hok⟩ := validateRtpParameters_ok h
  obtain ⟨_, codecs', -, hcodecs, hgetc⟩ := hok.codecs
  obtain ⟨_, exts', -, hexts, hgete⟩ := hok.headerExtensions
  obtain ⟨_, encodings', -, hencodings, hgetn⟩ := hok.encodings
  obtain ⟨_, hrtcp, hgetr⟩ := hok.rtcp
  obtain ⟨rtcp, rfl, hreduced⟩ := validateRtcpParameters_normal hrtcp
  refine ⟨⟨codecs', hgetc, fun c hc => ?_⟩, ⟨exts', hgete, fun ext hext => ?_⟩,
    ⟨encodings', hgetn, fun e he => ?_⟩, ⟨rtcp, hgetr, hreduced⟩⟩
  · obtain ⟨_, -, hval⟩ := mem_of_forall₂ (mapM_ok hcodecs) hc
    exact validateRtpCodecParameters_normal hval
  · obtain ⟨_, -, hval⟩ := mem_of_forall₂ (mapM_ok hexts) hext
    exact validateRtpHeaderExtensionParameters_normal hval
  · obtain ⟨_, -, hval⟩ := mem_of_forall₂ (mapM_ok hencodings) he
    exact validateRtpEncodingParameters_normal hval

theorem validateRtpParameters_settles : Settles validateRtpParameters := by
  intro j j' h
  obtain ⟨params, params', rfl, rfl, hok⟩ := validateRtpParameters_ok h
  obtain ⟨hmid, hmidKept⟩ := hok.mid
  obtain ⟨_, hmidOk, h⟩ := bind_ok.mp h
  obtain ⟨_, harr, h⟩ := bind_ok.mp h
  obtain ⟨params₁, hcodecs, h⟩ := bind_ok.mp h
  obtain ⟨params₂, hexts, h⟩ := bind_ok.mp h
  obtain ⟨params₃, hencodings, h⟩ := bind_ok.mp h
  obtain ⟨_, -, h⟩ := bind_ok.mp h
  obtain ⟨rtcp, hrtcp, h⟩ := bind_ok.mp h
  cases h
  obtain ⟨codecs, _, hget, -⟩ := hok.codecs
  obtain ⟨hcodecs₁, -⟩ := eachElement_settles validateRtpCodecParameters_settles hget hcodecs
  obtain ⟨hexts₂, hkeep₂⟩ :=
    optionalArray_settles validateRtpHeaderExtensionParameters_settles hexts
  obtain ⟨hencodings₃, hkeep₃⟩ :=
    optionalArray_settles validateRtpEncodingParameters_settles hencodings
  have hrtcpStored := stored_put "rtcp" rtcp params₃
  have hput : ∀ (k : String), k ≠ "rtcp" → ∀ v, Stored k v params₃ →
      Stored k v (put "rtcp" rtcp params₃) := fun k hk v hv => hv.put rtcp hk
  have hcodecs' := ((hcodecs₁.keep (hkeep₂ _ (by decide))).keep (hkeep₃ _ (by decide))).keep
    (hput _ (by decide))
  have hexts' := (hexts₂.keep (hkeep₃ _ (by decide))).keep (hput _ (by decide))
  have hencodings' := hencodings₃.keep (hput _ (by decide))
  obtain ⟨_, hcodecsStored, -⟩ := id hcodecs'
  obtain ⟨rtcp', rfl, -⟩ := validateRtcpParameters_normal hrtcp
  refine bind_ok.mpr ⟨(), ?_, bind_ok.mpr ⟨(), ?_, bind_ok.mpr ⟨_, hcodecs'.each,
    bind_ok.mpr ⟨_, hexts'.optional, bind_ok.mpr ⟨_, hencodings'.optional,
      bind_ok.mpr ⟨(), ?_, bind_ok.mpr ⟨.obj rtcp', ?_, ?_⟩⟩⟩⟩⟩⟩⟩
  · rw [hasOrLacks, hmidKept]
    exact require_ok.mpr hmid
  · exact require_ok.mpr (has_iff.mpr ⟨_, hcodecsStored.get, rfl⟩)
  · exact require_ok.mpr (hasOrLacks_of_has (has_iff.mpr ⟨_, hrtcpStored.get, rfl⟩))
  · rw [hrtcpStored.get]
    exact validateRtcpParameters_settles hrtcp
  · rw [hrtcpStored]
    rfl

/-- CORRECT: what a validator returns is in normal form, and it returns it once more. -/
theorem validators_normalize :
    (∀ caps valid, validateRtpCapabilities caps = .ok valid →
      CapabilitiesNormal valid ∧ validateRtpCapabilities valid = .ok valid) ∧
    ∀ params valid, validateRtpParameters params = .ok valid →
      ParametersNormal valid ∧ validateRtpParameters valid = .ok valid :=
  ⟨fun _ _ h => ⟨validateRtpCapabilities_normal h, validateRtpCapabilities_settles h⟩,
    fun _ _ h => ⟨validateRtpParameters_normal h, validateRtpParameters_settles h⟩⟩

/-- A codec with a feedback, of which only the mandatory members are written. -/
def bareCodec (payloadType : String) : Json :=
  .object [("mimeType", .str "audio/opus"), (payloadType, .uint 111), ("clockRate", .uint 48000),
    ("rtcpFeedback", .arr [.object [("type", .str "nack")]])]

/-- A header extension, of which only the mandatory members are written. -/
def bareExtension (id : String) : Json :=
  .object [("kind", .str "audio"), ("uri", .str "urn:ietf:params:rtp-hdrext:sdes:mid"), (id, .uint 1)]

/-- Capabilities with both of them. -/
def bareCapabilities : Json := .object [
  ("codecs", .arr [bareCodec "preferredPayloadType"]),
  ("headerExtensions", .arr [bareExtension "preferredId"])]

/-- Parameters with both of them and two encodings. -/
def bareParameters : Json := .object [
  ("codecs", .arr [bareCodec "payloadType"]), ("headerExtensions", .arr [bareExtension "id"]),
  ("encodings", .arr [.object [("ssrc", .uint 1111)], .object [("rid", .str "hi")]])]

theorem validators_normalize_opus :
    (∃ valid, validateRtpCapabilities bareCapabilities = .ok valid ∧ valid ≠ bareCapabilities ∧
      CapabilitiesNormal valid ∧ validateRtpCapabilities valid = .ok valid) ∧
    ∃ valid, validateRtpParameters bareParameters = .ok valid ∧ valid ≠ bareParameters ∧
      ParametersNormal valid ∧ validateRtpParameters valid = .ok valid := by
  obtain ⟨caps, hcaps, hchanged⟩ := exists_of_map (fun caps =>
      (codecsOf caps).map fun codec => (codec.find "parameters").isSome)
    (show (validateRtpCapabilities bareCapabilities).toOption.map _ = some [true] from rfl)
  obtain ⟨params, hparams, hchanged'⟩ := exists_of_map (fun params =>
      (codecsOf params).map fun codec => (codec.find "parameters").isSome)
    (show (validateRtpParameters bareParameters).toOption.map _ = some [true] from rfl)
  refine ⟨⟨caps, hcaps, ?_, validators_normalize.1 _ _ hcaps⟩,
    ⟨params, hparams, ?_, validators_normalize.2 _ _ hparams⟩⟩
  · rintro rfl
    cases hchanged
  · rintro rfl
    cases hchanged'

end MediasoupClient.Sdp
