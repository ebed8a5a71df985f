import MediasoupClient.Sdp.PayloadTypes

/-! Mime types in another letter case.

        local           remote          compared        channels       kind
        audio/opus      audio/opus      alike           2, 2           "audio"
        AUDIO/opus      AUDIO/opus      alike           none, none     "AUDIO"
        audio/opus      AUDIO/opus      alike           2, none        no match

    The comparison takes no notice of letter case, but the kind of a codec is written as in its mime
    type, and then compared with "audio": for the channels, and when something is to be sent. So the
    letter case only makes no difference where there is nothing to negotiate. Of what is behind the
    slash it makes none at all. -/

namespace MediasoupClient.Sdp
open Lib

/-! ### Capabilities in another letter case -/

/-- The codec with its mime type in another letter case, if any. -/
def Respelled (c c' : Json) : Prop :=
  c' = c ∨ ∃ m mimeType mimeType', c = .obj m ∧ Lib.get "mimeType" m = some (.str mimeType) ∧
    lower mimeType' = lower mimeType ∧ c' = .obj (put "mimeType" (.str mimeType') m)

/-- The capabilities with some mime types in another letter case. -/
def RespelledCapabilities (caps caps' : Json) : Prop :=
  caps' = caps ∨ ∃ m codecs codecs', caps = .obj m ∧ Lib.get "codecs" m = some (.arr codecs) ∧
    List.Forall₂ Respelled codecs codecs' ∧ caps' = .obj (put "codecs" (.arr codecs') m)

/-- The payload types of an extended codec. -/
def quadruple (e : ExtendedCodec) : Json × Json × Json × Json :=
  (e.localPayloadType, e.remotePayloadType, e.localRtxPayloadType, e.remoteRtxPayloadType)

/-- What is asked of the negotiation: the payload types, and whether audio and video can be sent. -/
def answers (webrtc : WebRtc) (localCaps remoteCaps : Json) :
    Except Invalid (List (Json × Json × Json × Json) × Bool × Bool) := do
  let ext ← getExtendedRtpCapabilities webrtc localCaps remoteCaps
  return (ext.codecs.map quadruple, ← canSend "audio" ext, ← canSend "video" ext)

/-- The negotiation gives one answer for every letter case. -/
def CaseIgnored (webrtc : WebRtc) (localCaps remoteCaps : Json) : Prop :=
  ∃ answer, ∀ localCaps' remoteCaps', RespelledCapabilities localCaps localCaps' →
    RespelledCapabilities remoteCaps remoteCaps' →
      answers webrtc localCaps' remoteCaps' = .ok answer

/-- The match of two codecs, if their channels are left out. -/
def alikeInAnyCase {P : Type} [DecidableEq P] (profile : String → Option P) (a b : Json) : Bool :=
  bothSame (mimeTypeOf a) (mimeTypeOf b) &&
  ((a.find "clockRate").getD .null).eqv ((b.find "clockRate").getD .null) &&
  (mimeTypeOf a ≠ some "video/h264" ||
    (bothSame (packetizationModeOf a) (packetizationModeOf b) &&
      bothSame (profileOf profile a) (profileOf profile b))) &&
  (mimeTypeOf a ≠ some "video/vp9" || bothSame (profileIdOf a) (profileIdOf b))

/-! ### Mime types in another letter case -/

theorem lower_eq_iff {s t : String} : lower s = lower t ↔
    s.toList.map Char.toLower = t.toList.map Char.toLower := by
  rw [← String.toList_inj, toList_lower, toList_lower]

/-- In every letter case the mime type has a kind. -/
theorem mimeKind_of_lower {s t kind : String} (h : mimeKind s = some kind)
    (ht : lower t = lower s) : ∃ kind', mimeKind t = some kind' ∧ lower kind' = lower kind := by
  obtain ⟨rest, hs, hkind, hne, hn, hr⟩ := mimeKind_iff.mp h
  rw [lower_eq_iff, hs, List.map_append] at ht
  obtain ⟨cs, rest', htl, hcs, hrest'⟩ := List.map_eq_append_iff.mp ht
  obtain ⟨c, rest', rfl, hc, hrest⟩ := List.map_eq_cons_iff.mp hrest'
  obtain rfl : c = '/' := eq_of_toLower (hc.trans rfl) (by decide)
  have hlower : lower (String.ofList cs) = lower kind := by
    rw [lower_eq_iff, String.toList_ofList, hcs]
  -- a line break is no letter
  have hbreak : ∀ d : Char, d.toLower = d → d.toNat < 97 → d ∉ rest → d ∉ rest' := by
    intro d hd hlt hno hmem
    have hmem' : d ∈ rest.map Char.toLower := by
      rw [← hrest]
      exact List.mem_map.mpr ⟨d, hmem, hd⟩
    obtain ⟨e, he, hed⟩ := List.mem_map.mp hmem'
    exact hno (eq_of_toLower hed hlt ▸ he)
  refine ⟨String.ofList cs, mimeKind_iff.mpr ⟨rest', ?_, by rw [hlower]; exact hkind, ?_,
    hbreak _ rfl (by decide) hn, hbreak _ rfl (by decide) hr⟩, hlower⟩
  · rw [htl, String.toList_ofList]
  · rintro rfl
    exact hne (List.map_eq_nil_iff.mp hrest.symm)

/-- The kind can be written in any letter case. -/
theorem mimeKind_respelled {s kind kind' : String} (h : mimeKind s = some kind)
    (hk : lower kind' = lower kind) : ∃ t, lower t = lower s ∧ mimeKind t = some kind' := by
  obtain ⟨rest, hs, hkind, hrest⟩ := mimeKind_iff.mp h
  refine ⟨kind' ++ String.ofList ('/' :: rest), ?_, mimeKind_iff.mpr ⟨rest, ?_, ?_, hrest⟩⟩
  · rw [lower_eq_iff, String.toList_append, String.toList_ofList, hs, List.map_append,
      List.map_append, lower_eq_iff.mp hk]
  · rw [String.toList_append, String.toList_ofList]
  · rwa [hk]

/-! ### Validated codecs in another letter case -/

/-- Two validated codecs whose mime types differ in their letter case. -/
structure SameButCase (c c' : Json) : Prop where
  mimeType : mimeTypeOf c' = mimeTypeOf c
  others : ∀ k ∉ ["mimeType", "kind", "channels"], c'.find k = c.find k

theorem SameButCase.refl (c : Json) : SameButCase c c := ⟨rfl, fun _ _ => rfl⟩

/-- Only a codec whose kind is written "audio" has channels. -/
def HasChannels (c : Json) : Prop :=
  (c.find "channels").isSome = true ↔ c.find "kind" = some (.str "audio")

theorem HasChannels.of_validated {c c' : Json} (h : validateRtpCodecCapability c = .ok c') :
    HasChannels c' := by
  obtain ⟨m, kind, m', rfl, -, rfl, -, hrest⟩ := validateRtpCodecCapability_ok h
  have hkind : Lib.get "kind" m' = some (.str kind) := by
    rw [hrest.others _ (by decide), get_put_self]
  unfold HasChannels
  change (Lib.get "channels" m').isSome = true ↔ Lib.get "kind" m' = _
  rw [hrest.channels, hkind, Option.some.injEq, Json.str.injEq]
  unfold codecChannels
  split_ifs with haudio
  · refine iff_of_true ?_ haudio
    rw [get_orDefault]
    split_ifs with hd
    · rfl
    · cases hhas : has (put "kind" (.str kind) m) "channels" Json.isNumberInteger with
      | false => exact absurd ⟨rfl, hhas⟩ hd
      | true =>
        obtain ⟨v, hv, -⟩ := has_iff.mp hhas
        rw [hv]
        rfl
  · refine iff_of_false ?_ haudio
    rw [get_del, if_pos rfl]
    exact Bool.false_ne_true

/-- What is behind the payload type is validated whatever the kind is. -/
theorem validateCodecRest_respelled {kind : String} {codec codec' valid : Members}
    (h : RestOk kind codec valid)
    (hget : ∀ k ∉ ["mimeType", "kind"], Lib.get k codec' = Lib.get k codec) (kind' : String) :
    ∃ valid', validateCodecRest kind' codec' = .ok (.obj valid') ∧ RestOk kind' codec' valid' ∧
      ∀ k ∉ ["mimeType", "kind", "channels"], Lib.get k valid' = Lib.get k valid := by
  have hclock : has codec' "clockRate" Json.isNumberInteger = true := by
    rw [has, hget _ (by decide)]
    exact h.clockRate
  have hparams : parametersOf codec' = parametersOf codec := by
    unfold parametersOf
    rw [hget _ (by decide)]
  have hfeedback : feedbackOf codec' = feedbackOf codec := by
    unfold feedbackOf
    rw [hget _ (by decide)]
  obtain ⟨feedback, hmap, hfb⟩ := h.rtcpFeedback
  have hrun : ∃ j, validateCodecRest kind' codec' = .ok j :=
    validateCodecRest_total hclock (by rw [hparams]; exact h.valid) (by rw [hfeedback]; exact hmap)
  obtain ⟨_, hrun⟩ := hrun
  obtain ⟨valid', rfl, h'⟩ := validateCodecRest_ok hrun
  refine ⟨valid', hrun, h', fun k hk => ?_⟩
  simp only [List.mem_cons, List.not_mem_nil, or_false, not_or] at hk
  by_cases hkp : k = "parameters"
  · rw [hkp, h'.parameters, h.parameters, hparams]
  · by_cases hkf : k = "rtcpFeedback"
    · obtain ⟨feedback', hmap', hfb'⟩ := h'.rtcpFeedback
      rw [hfeedback, hmap] at hmap'
      cases hmap'
      rw [hkf, hfb, hfb']
    · have hno : k ∉ ["parameters", "rtcpFeedback", "channels"] := by simp [hkp, hkf, hk.2.2]
      rw [h'.others k hno, h.others k hno, hget k (by simp [hk.1, hk.2.1])]

/-- A codec in another letter case is accepted too, with the kind as it is written. -/
theorem respelled_codec {m : Members} {s t : String} {valid : Json}
    (h : validateRtpCodecCapability (.obj m) = .ok valid)
    (hs : Lib.get "mimeType" m = some (.str s)) (ht : lower t = lower s) :
    ∃ valid', validateRtpCodecCapability (.obj (put "mimeType" (.str t) m)) = .ok valid' ∧
      SameButCase valid valid' := by
  obtain ⟨_, kind, m₁, hm, hkind, rfl, hpt, hrest⟩ := validateRtpCodecCapability_ok h
  cases hm
  obtain ⟨s', hs', hk⟩ := codecKind_ok hkind
  cases hs.symm.trans hs'
  obtain ⟨kind', hk', -⟩ := mimeKind_of_lower hk ht
  have hkind' : codecKind (put "mimeType" (.str t) m) = .ok kind' := by
    unfold codecKind
    rw [get_put_self]
    simp only [hk']
  -- what is read of the codec besides
  have hget : ∀ k ∉ ["mimeType", "kind"], Lib.get k (put "kind" (.str kind')
      (put "mimeType" (.str t) m)) = Lib.get k (put "kind" (.str kind) m) := by
    intro k hk
    simp only [List.mem_cons, List.not_mem_nil, or_false, not_or] at hk
    rw [get_put_of_ne _ hk.2, get_put_of_ne _ hk.1, get_put_of_ne _ hk.2]
  obtain ⟨m₂, hrun, hrest', hsame⟩ := validateCodecRest_respelled hrest hget kind'
  have hpt' : hasOrLacks (put "kind" (.str kind') (put "mimeType" (.str t) m))
      "preferredPayloadType" Json.isNumberInteger = true := by
    rw [hasOrLacks, get_put_of_ne _ (by decide), get_put_of_ne _ (by decide)]
    exact hpt
  have hvalid : validateRtpCodecCapability (.obj (put "mimeType" (.str t) m)) = .ok (.obj m₂) :=
    bind_ok.mpr ⟨kind', hkind', bind_ok.mpr ⟨(), require_ok.mpr hpt', hrun⟩⟩
  refine ⟨_, hvalid, ?_, hsame⟩
  have hold : Json.find "mimeType" (.obj m₁) = some (.str s) := by
    change Lib.get "mimeType" m₁ = _
    rw [hrest.others _ (by decide), get_put_of_ne _ (by decide), hs]
  have hnew : Json.find "mimeType" (.obj m₂) = some (.str t) := by
    change Lib.get "mimeType" m₂ = _
    rw [hrest'.others _ (by decide), get_put_of_ne _ (by decide), get_put_self]
  rw [mimeTypeOf, mimeTypeOf, hold, hnew]
  exact congrArg some ht

/-! ### Validated capabilities in another letter case -/

section
variable {caps caps' valid valid' : Json}

theorem codecsOf_put (codecs : List Json) (m : Members) :
    codecsOf (.obj (put "codecs" (.arr codecs) m)) = codecs := by
  rw [codecsOf]
  change ((Lib.get "codecs" (put "codecs" (.arr codecs) m)).getD .null).elems = codecs
  rw [get_put_self]
  rfl

theorem RespelledCapabilities.codecs (h : RespelledCapabilities caps caps') :
    List.Forall₂ Respelled (codecsOf caps) (codecsOf caps') := by
  rcases h with rfl | ⟨m, codecs, codecs', rfl, hget, hcodecs, rfl⟩
  · exact List.forall₂_same.mpr fun _ _ => Or.inl rfl
  · have hold : codecsOf (.obj m) = codecs := by
      rw [codecsOf]
      change ((Lib.get "codecs" m).getD .null).elems = codecs
      rw [hget]
      rfl
    rwa [hold, codecsOf_put]

theorem Respelled.validated {c c' v : Json} (h : Respelled c c')
    (hv : validateRtpCodecCapability c = .ok v) :
    ∃ v', validateRtpCodecCapability c' = .ok v' ∧ SameButCase v v' := by
  rcases h with rfl | ⟨m, s, t, rfl, hs, ht, rfl⟩
  · exact ⟨v, hv, .refl v⟩
  · exact respelled_codec hv hs ht

/-- Capabilities in another letter case are accepted too. -/
theorem RespelledCapabilities.accepted (h : RespelledCapabilities caps caps')
    (hv : validateRtpCapabilities caps = .ok valid) :
    ∃ valid', validateRtpCapabilities caps' = .ok valid' := by
  rcases h with rfl | ⟨m, codecs, codecs', rfl, hget, hcodecs, rfl⟩
  · exact ⟨valid, hv⟩
  · obtain ⟨_, _, codecs₀, vs, exts, exts', hm, rfl, hc, hmap, -, he, hemap, -⟩ :=
      validateRtpCapabilities_ok hv
    cases hm
    rw [hget] at hc
    cases hc
    obtain ⟨vs', hvs'⟩ := mapM_total (f := validateRtpCodecCapability) fun c' hc' => by
      obtain ⟨c, hc, hresp⟩ := mem_of_forall₂ hcodecs hc'
      obtain ⟨v, -, hval⟩ := mem_of_forall₂ (mapM_ok hmap).flip hc
      obtain ⟨v', hv', -⟩ := hresp.validated hval
      exact ⟨v', hv'⟩
    refine validateRtpCapabilities_total (Or.inl (get_put_self ..)) ?_ hvs' hemap
    rw [get_put_of_ne _ (by decide)]
    cases hexts : Lib.get "headerExtensions" m with
    | none =>
      rw [hexts] at he
      cases he
      exact Or.inr ⟨rfl, rfl⟩
    | some v =>
      rw [hexts] at he
      exact Or.inl (congrArg some he)

/-- Their codecs differ in the letter case alone. -/
theorem RespelledCapabilities.sameButCase (h : RespelledCapabilities caps caps')
    (hv : validateRtpCapabilities caps = .ok valid)
    (hv' : validateRtpCapabilities caps' = .ok valid') :
    List.Forall₂ SameButCase (codecsOf valid) (codecsOf valid') := by
  refine forall₂_square h.codecs (codecsOf_validated hv) (codecsOf_validated hv')
    fun c _ {c' v v'} hresp hval hval' => ?_
  obtain ⟨v'', hval'', hsame⟩ := hresp.validated hval
  cases hval''.symm.trans hval'
  exact hsame

theorem hasChannels_validated (hv : validateRtpCapabilities caps = .ok valid) :
    ∀ c ∈ codecsOf valid, HasChannels c := fun _ hc => by
  obtain ⟨_, -, hval⟩ := mem_of_forall₂ (codecsOf_validated hv) hc
  exact .of_validated hval

/-- The kind of a validated codec is that of its mime type. -/
theorem validated_kind {m : Members} {s kind : String} {v : Json}
    (h : validateRtpCodecCapability (.obj m) = .ok v) (hs : Lib.get "mimeType" m = some (.str s))
    (hk : mimeKind s = some kind) : v.find "kind" = some (.str kind) := by
  obtain ⟨_, kind', m', hm, hkind, rfl, -, hrest⟩ := validateRtpCodecCapability_ok h
  cases hm
  obtain ⟨s', hs', hk'⟩ := codecKind_ok hkind
  cases hs.symm.trans hs'
  cases hk.symm.trans hk'
  change Lib.get "kind" m' = _
  rw [hrest.others _ (by decide), get_put_self]

variable {audio video : String} (haudio : lower audio = "audio")
  (hvideo : lower video = "video")
include haudio hvideo

/-- The kind of a codec can be written in any way. -/
theorem exists_respelled_codec {c v : Json} (h : validateRtpCodecCapability c = .ok v) :
    ∃ c', Respelled c c' ∧ ∀ v', validateRtpCodecCapability c' = .ok v' →
      ∃ kind ∈ [audio, video], v'.find "kind" = some (.str kind) := by
  obtain ⟨m, kind, _, rfl, hkind, -⟩ := validateRtpCodecCapability_ok h
  obtain ⟨s, hs, hk⟩ := codecKind_ok hkind
  obtain ⟨hlower, -⟩ := mimeKind_spec hk
  have hwritten : ∃ kind' ∈ [audio, video], lower kind' = lower kind := by
    rcases List.mem_cons.mp hlower with ha | hv
    · exact ⟨audio, List.mem_cons_self .., haudio.trans ha.symm⟩
    · exact ⟨video, List.mem_cons_of_mem _ (List.mem_singleton_self _),
        hvideo.trans (List.mem_singleton.mp hv).symm⟩
  obtain ⟨kind', hmem, hk'⟩ := hwritten
  obtain ⟨t, ht, htk⟩ := mimeKind_respelled hk hk'
  exact ⟨_, Or.inr ⟨m, s, t, rfl, hs, ht, rfl⟩, fun v' hv' =>
    ⟨kind', hmem, validated_kind hv' (get_put_self ..) htk⟩⟩

/-- All kinds can be written in one way. -/
theorem exists_respelled (hv : validateRtpCapabilities caps = .ok valid) :
    ∃ caps', RespelledCapabilities caps caps' ∧
      ∀ valid', validateRtpCapabilities caps' = .ok valid' → ∀ c ∈ codecsOf valid',
        ∃ kind ∈ [audio, video], c.find "kind" = some (.str kind) := by
  obtain ⟨m, _, codecs, vs, _, _, rfl, rfl, hc, hmap, -⟩ := validateRtpCapabilities_ok hv
  have hcodecs : ∃ codecs', List.Forall₂ (fun c c' => Respelled c c' ∧
      ∀ v', validateRtpCodecCapability c' = .ok v' →
        ∃ kind ∈ [audio, video], v'.find "kind" = some (.str kind)) codecs codecs' :=
    exists_forall₂ fun c hc => by
      obtain ⟨v, -, hval⟩ := mem_of_forall₂ (mapM_ok hmap).flip hc
      exact exists_respelled_codec haudio hvideo hval
  obtain ⟨codecs', hcodecs⟩ := hcodecs
  have hresp := hcodecs.imp fun _ _ h => h.1
  cases hget : Lib.get "codecs" m with
  | none =>
    refine ⟨_, Or.inl rfl, fun valid' hv' c hc' => ?_⟩
    obtain ⟨raw, hraw, -⟩ := mem_of_forall₂ (codecsOf_validated hv') hc'
    rw [codecsOf] at hraw
    change raw ∈ ((Lib.get "codecs" m).getD .null).elems at hraw
    rw [hget] at hraw
    cases hraw
  | some j =>
    rw [hget] at hc
    cases hc
    have hcaps : RespelledCapabilities (.obj m) (.obj (put "codecs" (.arr codecs') m)) :=
      Or.inr ⟨m, codecs, codecs', rfl, hget, hresp, rfl⟩
    refine ⟨_, hcaps, fun valid' hv' v' hmem => ?_⟩
    obtain ⟨c', hc', hval⟩ := mem_of_forall₂ (codecsOf_validated hv') hmem
    rw [codecsOf_put] at hc'
    obtain ⟨_, -, -, hkind⟩ := mem_of_forall₂ hcodecs hc'
    exact hkind _ hval

end

/-! ### Comparing codecs in another letter case -/

theorem SameButCase.symm {c c' : Json} (h : SameButCase c c') : SameButCase c' c :=
  ⟨h.mimeType.symm, fun k hk => (h.others k hk).symm⟩

theorem SameButCase.readParameter {β : Type} {c c' : Json} (h : SameButCase c c')
    (f : Option Json → Option β) (key : String) :
    readParameter f key c' = readParameter f key c := by
  rw [Sdp.readParameter, h.others _ (by decide)]
  rfl

theorem SameButCase.isRtx {c c' : Json} (h : SameButCase c c') : isRtx c' = isRtx c :=
  isRtx_of_mimeType h.mimeType

section
variable {P : Type} [DecidableEq P] {profile : String → Option P} {a a' b b' : Json}

theorem strictlyMatches_eq :
    strictlyMatches profile a b = (alikeInAnyCase profile a b && sameChannels a b) := by
  unfold strictlyMatches alikeInAnyCase
  ac_rfl

theorem alikeInAnyCase_respelled (ha : SameButCase a a') (hb : SameButCase b b') :
    alikeInAnyCase profile a' b' = alikeInAnyCase profile a b := by
  have hprofile : ∀ {c c' : Json}, SameButCase c c' → profileOf profile c' = profileOf profile c :=
    fun h => by rw [profileOf, profileLevelIdOf, h.readParameter]; rfl
  unfold alikeInAnyCase packetizationModeOf profileIdOf
  rw [ha.mimeType, hb.mimeType, ha.others "clockRate" (by decide),
    hb.others "clockRate" (by decide), hprofile ha, hprofile hb]
  simp only [ha.readParameter, hb.readParameter]

/-- A video codec has no channels. -/
theorem HasChannels.video {c : Json} {mimeType : String} (hch : HasChannels c) (h : CodecShape c)
    (hmime : mimeTypeOf c = some mimeType) (hv : mimeType.toList.head? = some 'v') :
    c.find "channels" = none := by
  obtain ⟨s, kind, hs, hk, hkind⟩ := h.kind
  refine Option.not_isSome_iff_eq_none.mp fun hsome => ?_
  have haudio := hch.mp hsome
  rw [hkind, Option.some.injEq, Json.str.injEq] at haudio
  subst haudio
  obtain ⟨rest, hlist, -⟩ := mimeKind_iff.mp hk
  have hlower : mimeType = lower s := by
    rw [mimeTypeOf, hs] at hmime
    exact (Option.some.inj hmime).symm
  rw [hlower, toList_lower, hlist] at hv
  cases hv

/-- What can be compared in one letter case can be compared in every other one. -/
theorem Comparable.respelled (ha : SameButCase a a') (hb : SameButCase b b')
    (hsa : CodecShape a') (hca : HasChannels a') (hsb : CodecShape b') (hcb : HasChannels b')
    (h : Comparable a' b') : Comparable a b := by
  -- two video codecs are alike in every letter case
  have halike : ∀ {mimeType : String}, mimeType.toList.head? = some 'v' →
      alike a b = true → mimeTypeOf a = some mimeType → alike a' b' = true := by
    intro mimeType hv hab hmime
    simp only [alike, Bool.and_eq_true] at hab ⊢
    obtain ⟨⟨hmimes, hclock⟩, -⟩ := hab
    have hmimeB : mimeTypeOf b = some mimeType := by
      obtain ⟨x, hx, hy⟩ := bothSame_iff.mp hmimes
      rwa [← hmime, hx]
    rw [ha.mimeType, hb.mimeType, ha.others "clockRate" (by decide),
      hb.others "clockRate" (by decide), sameChannels,
      hca.video hsa (ha.mimeType.trans hmime) hv, hcb.video hsb (hb.mimeType.trans hmimeB) hv]
    exact ⟨⟨hmimes, hclock⟩, rfl⟩
  refine ⟨fun hab hmime hmodes => ?_, fun hab hmime => ?_⟩
  · have := h.h264 (halike (by decide) hab hmime) (ha.mimeType.trans hmime) (by
      unfold packetizationModeOf at hmodes ⊢
      rw [ha.readParameter, hb.readParameter, hmodes])
    unfold profileLevelIdOf at this ⊢
    rwa [ha.readParameter, hb.readParameter] at this
  · have := h.vp9 (halike (by decide) hab hmime) (ha.mimeType.trans hmime)
    unfold profileIdOf at this ⊢
    rwa [ha.readParameter, hb.readParameter] at this

end

/-! ### Mime types that keep their kind -/

/-- The kind of a codec as it is written. -/
def writtenKind (codec : Json) : Option String :=
  (codec.find "mimeType").bind fun mimeType => mimeType.toStr.toOption.bind mimeKind

/-- The capabilities with some mime types in another letter case behind the slash. -/
structure RespelledSubtypes (caps caps' : Json) : Prop where
  respelled : RespelledCapabilities caps caps'
  kinds : List.Forall₂ (fun c c' => writtenKind c' = writtenKind c) (codecsOf caps) (codecsOf caps')

/-- Two validated codecs whose mime types differ behind the slash. -/
structure SameKind (c c' : Json) : Prop extends SameButCase c c' where
  kind : c'.find "kind" = c.find "kind"
  channels : c'.find "channels" = c.find "channels"

/-- The kind decides on the channels. -/
theorem sameKind_of_validated {c c' v v' : Json} (hresp : Respelled c c')
    (hkind : writtenKind c' = writtenKind c) (hv : validateRtpCodecCapability c = .ok v)
    (hv' : validateRtpCodecCapability c' = .ok v') : SameKind v v' := by
  obtain ⟨v'', hv'', hsame⟩ := hresp.validated hv
  cases hv''.symm.trans hv'
  have hchannels : c'.find "channels" = c.find "channels" := by
    rcases hresp with rfl | ⟨m, s, t, rfl, -, -, rfl⟩
    · rfl
    · exact get_put_of_ne (Json.str t) (show "channels" ≠ "mimeType" by decide) m
  obtain ⟨m, kind, v, rfl, hk, rfl, -, hrest⟩ := validateRtpCodecCapability_ok hv
  obtain ⟨m', kind', v', rfl, hk', rfl, -, hrest'⟩ := validateRtpCodecCapability_ok hv'
  have hwritten : ∀ {m : Members} {kind : String}, codecKind m = .ok kind →
      writtenKind (.obj m) = some kind := by
    intro m kind hk
    obtain ⟨s, hs, hkind⟩ := codecKind_ok hk
    rw [writtenKind, Json.find, hs, Option.bind_some, Json.toStr, Except.toOption, Option.bind_some,
      hkind]
  obtain rfl : kind' = kind :=
    Option.some.inj ((hwritten hk').symm.trans (hkind.trans (hwritten hk)))
  have hget : Lib.get "channels" (put "kind" (.str kind') m') =
      Lib.get "channels" (put "kind" (.str kind') m) := by
    rw [get_put_of_ne _ (by decide), get_put_of_ne _ (by decide)]
    exact hchannels
  refine ⟨hsame, ?_, ?_⟩
  · change Lib.get "kind" v' = Lib.get "kind" v
    rw [hrest'.others _ (by decide), hrest.others _ (by decide), get_put_self, get_put_self]
  · change Lib.get "channels" v' = Lib.get "channels" v
    rw [hrest'.channels, hrest.channels]
    unfold codecChannels
    split_ifs
    · rw [get_orDefault, get_orDefault, has, has, hget]
    · rw [get_del, get_del, if_pos rfl, if_pos rfl]

theorem RespelledSubtypes.sameKind {caps caps' valid valid' : Json}
    (h : RespelledSubtypes caps caps') (hv : validateRtpCapabilities caps = .ok valid)
    (hv' : validateRtpCapabilities caps' = .ok valid') :
    List.Forall₂ SameKind (codecsOf valid) (codecsOf valid') := by
  have hboth : List.Forall₂ (fun c c' => Respelled c c' ∧ writtenKind c' = writtenKind c) (codecsOf caps)
      (codecsOf caps') := h.respelled.codecs.mp (fun _ _ hresp hkind => ⟨hresp, hkind⟩) h.kinds
  exact forall₂_square hboth (codecsOf_validated hv) (codecsOf_validated hv')
    fun c _ {c' v v'} hc hval hval' => sameKind_of_validated hc.1 hc.2 hval hval'

namespace SameKind
variable {P : Type} [DecidableEq P] {profile : String → Option P} {a a' b b' c c' : Json}

theorem symm (h : SameKind c c') : SameKind c' c :=
  ⟨h.toSameButCase.symm, h.kind.symm, h.channels.symm⟩

theorem strictlyMatches (ha : SameKind a a') (hb : SameKind b b') :
    strictlyMatches profile a' b' = strictlyMatches profile a b := by
  rw [strictlyMatches_eq, strictlyMatches_eq,
    alikeInAnyCase_respelled ha.toSameButCase hb.toSameButCase, sameChannels, sameChannels,
    ha.channels, hb.channels]

theorem comparable_of (ha : SameKind a a') (hb : SameKind b b') (h : Comparable a b) :
    Comparable a' b' := by
  have halike : alike a' b' = alike a b := by
    rw [alike, alike, ha.mimeType, hb.mimeType, ha.others "clockRate" (by decide),
      hb.others "clockRate" (by decide), sameChannels, sameChannels, ha.channels, hb.channels]
  obtain ⟨h264, hvp9⟩ := h
  unfold packetizationModeOf profileLevelIdOf at h264
  unfold profileIdOf at hvp9
  constructor
  · unfold packetizationModeOf profileLevelIdOf
    rw [halike, ha.mimeType, ha.readParameter, hb.readParameter, ha.readParameter, hb.readParameter]
    exact h264
  · unfold profileIdOf
    rw [halike, ha.mimeType, ha.readParameter, hb.readParameter]
    exact hvp9

theorem comparable_iff (ha : SameKind a a') (hb : SameKind b b') :
    Comparable a' b' ↔ Comparable a b :=
  ⟨comparable_of ha.symm hb.symm, comparable_of ha hb⟩

theorem payloadTypeOf (h : SameKind c c') : payloadTypeOf c' = payloadTypeOf c := by
  rw [Sdp.payloadTypeOf, h.others _ (by decide)]
  rfl

theorem isRtxOf (h : SameKind c c') (payloadType : Json) :
    isRtxOf payloadType c' = isRtxOf payloadType c := by
  rw [Sdp.isRtxOf, Sdp.isRtxOf, h.isRtx, h.readParameter]

theorem hasApt_iff (h : SameKind c c') : HasApt c' ↔ HasApt c := by
  rw [HasApt, HasApt, h.isRtx, h.readParameter]

end SameKind

/-! ### The negotiation in every letter case -/

section
variable {P : Type} [DecidableEq P] {profile : String → Option P} {webrtc : WebRtc}
variable {localCaps remoteCaps validLocal validRemote : Json}

/-- No remote codec has a local one that it matches in some letter case, and the profiles of all of
    them can be compared. -/
def NothingAlike (profile : String → Option P) (localCodecs remoteCodecs : List Json) : Prop :=
  ∀ r ∈ remoteCodecs, isRtx r = false → ∀ l ∈ localCodecs,
    Comparable l r ∧ alikeInAnyCase profile l r = false

theorem answers_ok (hw : webrtc.Lawful profile)
    (hl : validateRtpCapabilities localCaps = .ok validLocal)
    (hr : validateRtpCapabilities remoteCaps = .ok validRemote)
    {answer : List (Json × Json × Json × Json) × Bool × Bool} :
    answers webrtc localCaps remoteCaps = .ok answer ↔
      ∃ ext, getExtendedRtpCapabilities webrtc localCaps remoteCaps = .ok ext ∧
        answer = (ext.codecs.map quadruple, ext.codecs.any (ofKind "audio"),
          ext.codecs.any (ofKind "video")) := by
  constructor
  · intro h
    obtain ⟨ext, hext, h⟩ := bind_ok.mp h
    have hn := getExtended_ok hw hl hr hext
    obtain ⟨audio, haudio, h⟩ := bind_ok.mp h
    obtain ⟨video, hvideo, h⟩ := bind_ok.mp h
    cases h
    have haudio := lift_ok.mp haudio
    have hvideo := lift_ok.mp hvideo
    rw [canSend_eq hn.codecs] at haudio hvideo
    cases haudio
    cases hvideo
    exact ⟨ext, hext, rfl⟩
  · rintro ⟨ext, hext, rfl⟩
    have hn := getExtended_ok hw hl hr hext
    exact bind_ok.mpr ⟨ext, hext, bind_ok.mpr ⟨_, lift_ok.mpr (canSend_eq hn.codecs),
      bind_ok.mpr ⟨_, lift_ok.mpr (canSend_eq hn.codecs), rfl⟩⟩⟩

/-- The kinds of extended codecs are those of local codecs. -/
theorem Negotiated.local_kind {ext : ExtendedRtpCapabilities}
    (hn : Negotiated profile validLocal validRemote ext)
    (hcs : ∀ c ∈ codecsOf validLocal, CodecShape c) :
    ∀ e ∈ ext.codecs, ∃ l ∈ codecsOf validLocal, ∀ kind,
      ofKind kind e = true ↔ l.find "kind" = some (.str kind) := fun e he => by
  obtain ⟨pair, hpair, hof, -⟩ := mem_of_forall₂ hn.pairs.flip he
  obtain ⟨hl, -⟩ := mem_matchedPairs hpair
  exact ⟨pair.1, hl, fun kind => ofKind_iff hof (hcs _ hl) kind⟩

theorem matchedPairs_eq_nil {ls rs : List Json} : matchedPairs profile ls rs = [] ↔
    ∀ r ∈ rs, isRtx r = false → ∀ l ∈ ls, strictlyMatches profile l r = false := by
  simp [matchedPairs, List.filterMap_eq_nil_iff]

/-- Where nothing is alike, nothing is negotiated. -/
theorem NothingAlike.answers (hw : webrtc.Lawful profile)
    (hl : validateRtpCapabilities localCaps = .ok validLocal)
    (hr : validateRtpCapabilities remoteCaps = .ok validRemote)
    (h : NothingAlike profile (codecsOf validLocal) (codecsOf validRemote)) :
    answers webrtc localCaps remoteCaps = .ok ([], false, false) := by
  have hno : ∀ r ∈ codecsOf validRemote, isRtx r = false → ∀ l ∈ codecsOf validLocal,
      strictlyMatches profile l r = false := fun r hr hrtx l hl => by
    rw [strictlyMatches_eq, (h r hr hrtx l hl).2, Bool.false_and]
  have hpairs := matchedPairs_eq_nil.mpr hno
  have hnegotiable : Negotiable profile (codecsOf validLocal) (codecsOf validRemote) :=
    ⟨fun r hr hrtx => .of_forall fun l hl => (h r hr hrtx l hl).1,
      fun pair hp => by rw [hpairs] at hp; cases hp⟩
  obtain ⟨ext, hext⟩ := (getExtended_returns hw hl hr).mpr hnegotiable
  refine (answers_ok hw hl hr).mpr ⟨ext, hext, ?_⟩
  have hcodecs := (getExtended_ok hw hl hr hext).pairs
  rw [hpairs, List.forall₂_nil_right_iff] at hcodecs
  rw [hcodecs]
  rfl

theorem NothingAlike.respelled {ls ls' rs rs' : List Json} (hl : List.Forall₂ SameButCase ls ls')
    (hr : List.Forall₂ SameButCase rs rs') (hsl : ∀ l ∈ ls', CodecShape l ∧ HasChannels l)
    (hsr : ∀ r ∈ rs', CodecShape r ∧ HasChannels r) (h : NothingAlike profile ls' rs') :
    NothingAlike profile ls rs := by
  intro r hr' hrtx l hl'
  obtain ⟨r', hmemr, hsamer⟩ := mem_of_forall₂ hr.flip hr'
  obtain ⟨l', hmeml, hsamel⟩ := mem_of_forall₂ hl.flip hl'
  obtain ⟨hcomp, halike⟩ := h r' hmemr (hsamer.isRtx.trans hrtx) l' hmeml
  obtain ⟨hsl, hcl⟩ := hsl l' hmeml
  obtain ⟨hsr, hcr⟩ := hsr r' hmemr
  exact ⟨hcomp.respelled hsamel hsamer hsl hcl hsr hcr,
    (alikeInAnyCase_respelled hsamel hsamer).symm.trans halike⟩

/-- Kinds that are all written in one of two ways. -/
def KindsWritten (kinds : List String) (codecs : List Json) : Prop :=
  ∀ c ∈ codecs, ∃ kind ∈ kinds, c.find "kind" = some (.str kind)

/-- In capitals there are no channels. -/
theorem KindsWritten.no_channels {codecs : List Json} (h : KindsWritten ["AUDIO", "VIDEO"] codecs)
    (hch : ∀ c ∈ codecs, HasChannels c) : ∀ c ∈ codecs, c.find "channels" = none := by
  intro c hc
  refine Option.not_isSome_iff_eq_none.mp fun hsome => ?_
  obtain ⟨kind, hmem, hkind⟩ := h c hc
  have haudio := (hch c hc).mp hsome
  rw [hkind, Option.some.injEq, Json.str.injEq] at haudio
  subst haudio
  exact absurd hmem (by decide)

/-- In capitals nothing can be sent. -/
theorem KindsWritten.not_sent {ext : ExtendedRtpCapabilities}
    (h : KindsWritten ["AUDIO", "VIDEO"] (codecsOf validLocal))
    (hn : Negotiated profile validLocal validRemote ext)
    (hcs : ∀ c ∈ codecsOf validLocal, CodecShape c) :
    ∀ kind ∈ ["audio", "video"], ext.codecs.any (ofKind kind) = false := by
  intro kind hkind
  refine List.any_eq_false.mpr fun e he hof => ?_
  obtain ⟨l, hl, hiff⟩ := hn.local_kind hcs e he
  obtain ⟨kind', hmem, hk⟩ := h l hl
  have hsame := (hiff kind).mp hof
  rw [hk, Option.some.injEq, Json.str.injEq] at hsame
  subst hsame
  exact absurd hkind ((show ∀ k ∈ ["AUDIO", "VIDEO"], k ∉ ["audio", "video"] by decide) _ hmem)

/-- In small letters, what cannot be sent is not negotiated. -/
theorem KindsWritten.codecs_eq_nil {ext : ExtendedRtpCapabilities}
    (h : KindsWritten ["audio", "video"] (codecsOf validLocal))
    (hn : Negotiated profile validLocal validRemote ext)
    (hcs : ∀ c ∈ codecsOf validLocal, CodecShape c)
    (hno : ∀ kind ∈ ["audio", "video"], ext.codecs.any (ofKind kind) = false) :
    ext.codecs = [] := by
  refine List.eq_nil_iff_forall_not_mem.mpr fun e he => ?_
  obtain ⟨l, hl, hiff⟩ := hn.local_kind hcs e he
  obtain ⟨kind, hmem, hk⟩ := h l hl
  exact List.any_eq_false.mp (hno kind hmem) e he ((hiff kind).mpr hk)

/-- Without channels, codecs that do not match are not alike. -/
theorem nothingAlike_of_no_channels {ls rs : List Json} (h : Negotiable profile ls rs)
    (hpairs : matchedPairs profile ls rs = []) (hl : ∀ l ∈ ls, l.find "channels" = none)
    (hr : ∀ r ∈ rs, r.find "channels" = none) : NothingAlike profile ls rs := by
  intro r hmemr hrtx l hmeml
  have hno := matchedPairs_eq_nil.mp hpairs r hmemr hrtx
  refine ⟨(upToFirst_iff_forall hno).mp (h.comparable r hmemr hrtx) l hmeml, ?_⟩
  have hfalse := hno l hmeml
  rwa [strictlyMatches_eq, sameChannels, hl l hmeml, hr r hmemr, Bool.and_true] at hfalse

/-- CORRECT: the letter case of mime types makes no difference exactly where there is nothing to
    negotiate in any letter case. -/
theorem case_ignored_iff (hw : webrtc.Lawful profile)
    (hl : validateRtpCapabilities localCaps = .ok validLocal)
    (hr : validateRtpCapabilities remoteCaps = .ok validRemote) :
    CaseIgnored webrtc localCaps remoteCaps ↔
      NothingAlike profile (codecsOf validLocal) (codecsOf validRemote) := by
  have hshapes : ∀ {caps valid : Json}, validateRtpCapabilities caps = .ok valid →
      ∀ c ∈ codecsOf valid, CodecShape c ∧ HasChannels c := fun hv c hc =>
    ⟨codecShape_validated hv c hc, hasChannels_validated hv c hc⟩
  have hsmallAudio : lower "audio" = "audio" := by decide
  have hsmallVideo : lower "video" = "video" := by decide
  have hcapitalAudio : lower "AUDIO" = "audio" := by decide
  have hcapitalVideo : lower "VIDEO" = "video" := by decide
  constructor
  · rintro ⟨answer, hall⟩
    -- in small letters, and in capitals
    obtain ⟨ls, hls, hlsKinds⟩ := exists_respelled hsmallAudio hsmallVideo hl
    obtain ⟨lc, hlc, hlcKinds⟩ := exists_respelled hcapitalAudio hcapitalVideo hl
    obtain ⟨rc, hrc, hrcKinds⟩ := exists_respelled hcapitalAudio hcapitalVideo hr
    obtain ⟨validLs, hvls⟩ := hls.accepted hl
    obtain ⟨validLc, hvlc⟩ := hlc.accepted hl
    obtain ⟨validRc, hvrc⟩ := hrc.accepted hr
    obtain ⟨extS, hextS, hanswerS⟩ := (answers_ok hw hvls hvrc).mp (hall ls rc hls hrc)
    obtain ⟨extC, hextC, hanswerC⟩ := (answers_ok hw hvlc hvrc).mp (hall lc rc hlc hrc)
    have hnS := getExtended_ok hw hvls hvrc hextS
    have hnC := getExtended_ok hw hvlc hvrc hextC
    have hunsent :=
      KindsWritten.not_sent (hlcKinds validLc hvlc) hnC (codecShape_validated hvlc)
    -- nothing can be sent in either run, so nothing is negotiated
    rw [hanswerC, Prod.mk.injEq, Prod.mk.injEq] at hanswerS
    obtain ⟨hquads, haudio, hvideo⟩ := hanswerS
    have hunsentS : ∀ kind ∈ ["audio", "video"], extS.codecs.any (ofKind kind) = false := by
      intro kind hkind
      have hsame := hunsent kind hkind
      rcases List.mem_cons.mp hkind with rfl | hk
      · rwa [haudio] at hsame
      · rw [List.mem_singleton.mp hk] at hsame ⊢
        rwa [hvideo] at hsame
    have hnil :=
      KindsWritten.codecs_eq_nil (hlsKinds validLs hvls) hnS (codecShape_validated hvls) hunsentS
    rw [hnil, List.map_nil, List.map_eq_nil_iff] at hquads
    have hpairs := hnC.pairs
    rw [hquads, List.forall₂_nil_left_iff] at hpairs
    have hnothing := nothingAlike_of_no_channels
      ((getExtended_returns hw hvlc hvrc).mp ⟨extC, hextC⟩) hpairs
      (KindsWritten.no_channels (hlcKinds validLc hvlc) (hasChannels_validated hvlc))
      (KindsWritten.no_channels (hrcKinds validRc hvrc) (hasChannels_validated hvrc))
    exact hnothing.respelled (hlc.sameButCase hl hvlc) (hrc.sameButCase hr hvrc) (hshapes hvlc)
      (hshapes hvrc)
  · intro h
    refine ⟨([], false, false), fun localCaps' remoteCaps' hl' hr' => ?_⟩
    obtain ⟨validLocal', hvl⟩ := hl'.accepted hl
    obtain ⟨validRemote', hvr⟩ := hr'.accepted hr
    refine NothingAlike.answers hw hvl hvr (h.respelled ?_ ?_ (hshapes hl) (hshapes hr))
    · exact (hl'.sameButCase hl hvl).flip.imp fun _ _ h => h.symm
    · exact (hr'.sameButCase hr hvr).flip.imp fun _ _ h => h.symm

/-- The same pairs. -/
theorem matchedPairs_sameKind {ls ls' rs rs' : List Json} (hl : List.Forall₂ SameKind ls ls')
    (hr : List.Forall₂ SameKind rs rs') :
    List.Forall₂ (fun pair pair' => SameKind pair.1 pair'.1 ∧ SameKind pair.2 pair'.2)
      (matchedPairs profile ls rs) (matchedPairs profile ls' rs') := by
  have hfilter : List.Forall₂ SameKind (rs.filter fun r => !isRtx r)
      (rs'.filter fun r => !isRtx r) := by
    refine List.rel_filter (fun r r' hrr => ?_) hr
    change (!isRtx r) = true ↔ (!isRtx r') = true
    rw [hrr.isRtx]
  refine List.rel_filterMap (fun r r' hrr => ?_) hfilter
  have hfind : Option.Rel SameKind (ls.find? (strictlyMatches profile · r))
      (ls'.find? (strictlyMatches profile · r')) := find?_rel hl fun hll => hll.strictlyMatches hrr
  generalize ls.find? (strictlyMatches profile · r) = l at hfind ⊢
  generalize ls'.find? (strictlyMatches profile · r') = l' at hfind ⊢
  cases hfind with
  | some hll => exact .some ⟨hll, hrr⟩
  | none => exact .none

theorem negotiable_sameKind {ls ls' rs rs' : List Json} (hl : List.Forall₂ SameKind ls ls')
    (hr : List.Forall₂ SameKind rs rs') (h : Negotiable profile ls rs) :
    Negotiable profile ls' rs' := by
  constructor
  · intro r' hr' hrtx
    obtain ⟨r, hmem, hrr⟩ := mem_of_forall₂ hr hr'
    refine (upToFirst_congr hl (fun hll => hll.strictlyMatches hrr)
      fun hll => hll.comparable_iff hrr).mpr ?_
    exact h.comparable r hmem (hrr.isRtx.symm.trans hrtx)
  · intro pair' hpair'
    obtain ⟨pair, hpair, h₁, h₂⟩ := mem_of_forall₂ (matchedPairs_sameKind hl hr) hpair'
    obtain ⟨hlocal, hremote⟩ := h.apts pair hpair
    rw [h₁.payloadTypeOf, h₂.payloadTypeOf]
    refine ⟨(upToFirst_congr hl (fun hll => hll.isRtxOf _) fun hll => hll.hasApt_iff).mpr hlocal,
      fun hsome => (upToFirst_congr hr (fun hrr => hrr.isRtxOf _) fun hrr => hrr.hasApt_iff).mpr
        (hremote ?_)⟩
    have hfind := find?_rel hl fun hll => hll.isRtxOf (payloadTypeOf pair.1)
    cases hls : ls.find? (isRtxOf (payloadTypeOf pair.1)) with
    | some l => rfl
    | none =>
      rw [hls] at hfind
      generalize ls'.find? (isRtxOf (payloadTypeOf pair.1)) = found at hfind hsome
      cases hfind
      exact hsome

/-- The rtx payload types are those of the same codecs. -/
theorem rtxMatched_sameKind {ls ls' rs rs' : List Json} (hl : List.Forall₂ SameKind ls ls')
    (hr : List.Forall₂ SameKind rs rs') {e e' : ExtendedCodec} (he : e.RtxMatched ls rs)
    (he' : e'.RtxMatched ls' rs') (hlocal : e'.localPayloadType = e.localPayloadType)
    (hremote : e'.remotePayloadType = e.remotePayloadType) :
    e'.localRtxPayloadType = e.localRtxPayloadType ∧
      e'.remoteRtxPayloadType = e.remoteRtxPayloadType := by
  have hfindL := find?_rel hl fun hll => hll.isRtxOf e.localPayloadType
  have hfindR := find?_rel hr fun hrr => hrr.isRtxOf e.remotePayloadType
  unfold ExtendedCodec.RtxMatched at he he'
  rw [hlocal, hremote] at he'
  generalize ls.find? (isRtxOf e.localPayloadType) = l at he hfindL
  generalize ls'.find? (isRtxOf e.localPayloadType) = l' at he' hfindL
  generalize rs.find? (isRtxOf e.remotePayloadType) = r at he hfindR
  generalize rs'.find? (isRtxOf e.remotePayloadType) = r' at he' hfindR
  rcases hfindL with hll | _
  · rcases hfindR with hrr | _
    · obtain ⟨h₁, h₂⟩ := he
      obtain ⟨h₁', h₂'⟩ := he'
      exact ⟨h₁'.trans (hll.payloadTypeOf.trans h₁.symm), h₂'.trans (hrr.payloadTypeOf.trans h₂.symm)⟩
    · exact ⟨he'.1.trans he.1.symm, he'.2.trans he.2.symm⟩
  · exact ⟨he'.1.trans he.1.symm, he'.2.trans he.2.symm⟩

/-- CORRECT: behind the slash the letter case makes no difference to what is negotiated. -/
theorem subtype_case_ignored (hw : webrtc.Lawful profile)
    (hl : validateRtpCapabilities localCaps = .ok validLocal)
    (hr : validateRtpCapabilities remoteCaps = .ok validRemote) {localCaps' remoteCaps' : Json}
    (hl' : RespelledSubtypes localCaps localCaps') (hr' : RespelledSubtypes remoteCaps remoteCaps')
    {answer : List (Json × Json × Json × Json) × Bool × Bool}
    (h : answers webrtc localCaps remoteCaps = .ok answer) :
    answers webrtc localCaps' remoteCaps' = .ok answer := by
  obtain ⟨validLocal', hvl⟩ := hl'.respelled.accepted hl
  obtain ⟨validRemote', hvr⟩ := hr'.respelled.accepted hr
  have hsl := hl'.sameKind hl hvl
  have hsr := hr'.sameKind hr hvr
  obtain ⟨ext, hext, rfl⟩ := (answers_ok hw hl hr).mp h
  have hnegotiable := (getExtended_returns hw hl hr).mp ⟨ext, hext⟩
  obtain ⟨ext', hext'⟩ :=
    (getExtended_returns hw hvl hvr).mpr (negotiable_sameKind hsl hsr hnegotiable)
  have hn := getExtended_ok hw hl hr hext
  have hn' := getExtended_ok hw hvl hvr hext'
  have hsame : List.Forall₂ (fun e e' => quadruple e = quadruple e' ∧
      ∀ kind, ofKind kind e = ofKind kind e') ext.codecs ext'.codecs := by
    refine forall₂_square (matchedPairs_sameKind hsl hsr) hn.pairs.flip hn'.pairs.flip
      fun pair _ {pair' e e'} hpair he he' => ?_
    have hlocal : e'.localPayloadType = e.localPayloadType :=
      he'.1.localPayloadType.trans (hpair.1.payloadTypeOf.trans he.1.localPayloadType.symm)
    have hremote : e'.remotePayloadType = e.remotePayloadType :=
      he'.1.remotePayloadType.trans (hpair.2.payloadTypeOf.trans he.1.remotePayloadType.symm)
    obtain ⟨hlrtx, hrrtx⟩ := rtxMatched_sameKind hsl hsr he.2 he'.2 hlocal hremote
    refine ⟨by rw [quadruple, quadruple, hlocal, hremote, hlrtx, hrrtx], fun kind => ?_⟩
    rw [ofKind, ofKind, he.1.kind, he'.1.kind, hpair.1.kind]
  refine (answers_ok hw hvl hvr).mpr ⟨ext', hext', ?_⟩
  have hquads : ext.codecs.map quadruple = ext'.codecs.map quadruple :=
    List.forall₂_eq_eq_eq ▸ List.forall₂_map_left_iff.mpr (List.forall₂_map_right_iff.mpr
      (hsame.imp fun _ _ h => h.1))
  have hany : ∀ kind, ext.codecs.any (ofKind kind) = ext'.codecs.any (ofKind kind) := by
    intro kind
    generalize ext.codecs = es at hsame
    generalize ext'.codecs = es' at hsame
    induction hsame with
    | nil => rfl
    | cons h _ ih => rw [List.any_cons, List.any_cons, h.2 kind, ih]
  rw [hquads, hany, hany]

end

/-! ### Runs -/

/-- An Opus codec with two channels. -/
def opusCodec (mimeType : String) : List (String × Json) :=
  [("channels", .uint 2), ("clockRate", .uint 48000), ("mimeType", .str mimeType),
    ("preferredPayloadType", .uint 100)]

def opusCapabilities (mimeType : String) : Json :=
  .obj [("codecs", .arr [.obj (opusCodec mimeType)])]

/-- VP8 on both sides is something to negotiate, VP8 and opus are not. -/
theorem case_ignored_vp8 :
    ¬ CaseIgnored sampleWebRtc (vp8WithRtx 96 97) (vp8WithRtx 101 102) ∧
      CaseIgnored sampleWebRtc (vp8WithRtx 96 97) (opusCapabilities "audio/opus") := by
  obtain ⟨validLocal, hl, hlocal⟩ := exists_of_map codecsOf
    (show (validateRtpCapabilities (vp8WithRtx 96 97)).toOption.map codecsOf = some _ from rfl)
  obtain ⟨validRemote, hr, hremote⟩ := exists_of_map codecsOf
    (show (validateRtpCapabilities (vp8WithRtx 101 102)).toOption.map codecsOf = some _ from rfl)
  obtain ⟨validOpus, ho, hopus⟩ := exists_of_map codecsOf
    (show (validateRtpCapabilities (opusCapabilities "audio/opus")).toOption.map codecsOf =
      some _ from rfl)
  refine ⟨fun hignored => ?_, (case_ignored_iff sampleWebRtc_lawful hl ho).mpr ?_⟩
  · have hnothing := (case_ignored_iff sampleWebRtc_lawful hl hr).mp hignored
    rw [hlocal, hremote] at hnothing
    exact absurd (hnothing _ (List.mem_cons_self ..) rfl _ (List.mem_cons_self ..)).2 (by decide)
  · rw [hlocal, hopus]
    intro r hr' _ l hl'
    obtain rfl := List.mem_singleton.mp hr'
    rcases List.mem_cons.mp hl' with rfl | hl'
    · exact ⟨⟨fun h => (nomatch h), fun h => (nomatch h)⟩, rfl⟩
    · obtain rfl := List.mem_singleton.mp hl'
      exact ⟨⟨fun h => (nomatch h), fun h => (nomatch h)⟩, rfl⟩

/-- A router that writes AUDIO loses its codec. -/
theorem audio_in_capitals_lost :
    RespelledCapabilities (opusCapabilities "audio/opus") (opusCapabilities "AUDIO/opus") ∧
      (answers sampleWebRtc (opusCapabilities "audio/opus")
        (opusCapabilities "audio/opus")).toOption =
          some ([(.uint 100, .uint 100, .null, .null)], true, false) ∧
      (answers sampleWebRtc (opusCapabilities "audio/opus")
        (opusCapabilities "AUDIO/opus")).toOption = some ([], false, false) := by
  refine ⟨Or.inr ⟨_, _, [.obj (opusCodec "AUDIO/opus")], rfl, rfl, ?_, rfl⟩, rfl, rfl⟩
  exact .cons (Or.inr ⟨_, "audio/opus", "AUDIO/opus", rfl, rfl, by decide, rfl⟩) .nil

end MediasoupClient.Sdp
