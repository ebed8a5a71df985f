import MediasoupClient.Sdp.MatchingReads
import MediasoupClient.Signaling.RtpModels
import Mathlib.Data.List.TakeWhile

/-! The capabilities of the router (mssignal/msapi.cpp).

        response data ──Parse──▶ GetRouterRtpCapabilitiesResponse::Data ──toJsonStr──▶ capabilities
              │                                                                             │
              ▼                                                                             ▼
        pairing with the local capabilities           =?           pairing with the local capabilities

    The model knows four of the five codec parameters that the matching reads. The profile-id of VP9
    is not among them. -/

namespace MediasoupClient.Api
open Lib Signaling Sdp

/-- What `on_router_rtp_capabilities_response` makes of the data of a response, if the model
    accepts it. -/
def routerCapabilities (data : Json) : Option Json :=
  reencode (RTPCapabilities GetRouterRtpCapabilitiesResponse.Parameters) data

/-- The parameters of a codec that survive. -/
abbrev routerParameters : List (String × Shape) := GetRouterRtpCapabilitiesResponse.Parameters.fields

/-- The members of a codec that survive. -/
abbrev routerFields : List (String × Shape) := CapabilityCodec.fields routerParameters

/-- The header extensions of capabilities. -/
def extensionsOf (caps : Json) : List Json := ((caps.find "headerExtensions").getD .null).elems

/-- The parameters that the matching reads are the same. -/
def ParametersSurvive (codec codec' : Json) : Prop :=
  ∀ k ∈ matchingParameters, readParameter id k codec' = readParameter id k codec

/-- What the server's data has to look like: the parameters that are read are ones that the model
    has, not null, and fit; no mime type has a NUL in it; and no uri begins with one. -/
structure RouterKeeps (data : Json) : Prop where
  parameters : ∀ c ∈ codecsOf data, ∀ k ∈ matchingParameters,
    MemberFits routerParameters k ((c.find "parameters").getD .null)
  mimeType : ∀ c ∈ codecsOf data, ∀ s, c.find "mimeType" = some (.str s) → cstr s = s
  uri : ∀ e ∈ extensionsOf data, ∀ s, e.find "uri" = some (.str s) → cstr s ≠ ""

/-! ### A codec -/

/-- The parameters that are written are accepted when they are validated again. -/
theorem routerParameters_valid {p p' : Json}
    (h : (Shape.object routerParameters).rewrite p = some p') :
    ∃ q, p' = .obj q ∧ q.forM validateParameter = .ok () := by
  obtain ⟨_, q, -, rfl, hq⟩ := Shape.rewrite_isObject h
  refine ⟨q, rfl, forM_total fun kx hkx => ?_⟩
  obtain ⟨s, v, hmem, hw⟩ := mem_rewriteMembers hq hkx
  obtain ⟨k, x⟩ := kx
  have hint : ∀ lo hi, (Shape.int lo hi).rewrite v = some x →
      x.isNumber = true ∧ x.isNumberInteger = true := by
    intro lo hi hw
    obtain ⟨i, -, hi⟩ := Option.bind_eq_some_iff.mp hw
    split_ifs at hi
    cases hi
    unfold ofInt
    split_ifs <;> exact ⟨rfl, rfl⟩
  have hvalid : x.isNumber = true ∧ x.isNumberInteger = true ∨ x.isString = true ∧ k ≠ "apt" := by
    simp only [GetRouterRtpCapabilitiesResponse.Parameters.fields, List.mem_cons,
      List.not_mem_nil, or_false, Prod.mk.injEq] at hmem
    rcases hmem with ⟨-, rfl⟩ | ⟨-, rfl⟩ | ⟨-, rfl⟩ | ⟨rfl, rfl⟩ | ⟨-, rfl⟩
    · exact Or.inl (hint _ _ hw)
    · exact Or.inl (hint _ _ hw)
    · exact Or.inl (hint _ _ hw)
    · cases v with
      | str s => cases hw; exact Or.inr ⟨rfl, by decide⟩
      | _ => cases hw
    · exact Or.inl (hint _ _ hw)
  unfold validateParameter
  rcases hvalid with ⟨hnum, hinteger⟩ | ⟨hstr, hk⟩
  · simp [require, hnum, hinteger]
    rfl
  · simp [require, hstr, hk]
    rfl

/-- The feedback that is written is accepted when it is validated again. -/
theorem routerFeedback_valid {fb fb' valid : Json} (hv : validateRtcpFeedback fb = .ok valid)
    (h : (Shape.object RTCPFeedback.fields).rewrite fb = some fb') :
    ∃ valid', validateRtcpFeedback fb' = .ok valid' := by
  obtain ⟨m, ms, rfl, rfl, -⟩ := Shape.rewrite_isObject h
  obtain ⟨_, htype, -⟩ := bind_ok.mp hv
  obtain ⟨type, ht, hstr⟩ := has_iff.mp (require_ok.mp htype)
  cases type with
  | str s =>
    have hfind := Shape.find_rewrite h "type"
    rw [nonNull_obj ht rfl] at hfind
    have hget : get "type" ms = some (.str (cstr s)) := hfind
    exact bind_total ⟨(), require_ok.mpr (has_iff.mpr ⟨_, hget, rfl⟩)⟩ fun _ => ⟨_, rfl⟩
  | _ => cases hstr

theorem get_parametersOf (m : Members) (k : String) :
    get k (parametersOf m) = readParameter id k (.obj m) := by
  unfold parametersOf readParameter
  change _ = (get "parameters" m).bind fun p => p.find k
  cases get "parameters" m with
  | none => rfl
  | some p => cases p <;> rfl

section
variable {m mw : Members} (h : (Shape.object routerFields).rewrite (.obj m) = some (.obj mw))
include h

theorem parametersOf_valid : (parametersOf mw).forM validateParameter = .ok () := by
  have hfind := Shape.find_rewrite h "parameters"
  change get "parameters" mw = (nonNull "parameters" (.obj m)).bind
    (Shape.object routerParameters).rewrite at hfind
  unfold parametersOf
  rw [hfind]
  cases nonNull "parameters" (.obj m) with
  | none => rfl
  | some p =>
    rw [Option.bind_some]
    cases hp : (Shape.object routerParameters).rewrite p with
    | none => rfl
    | some p' =>
      obtain ⟨q, rfl, hq⟩ := routerParameters_valid hp
      exact hq

theorem feedbackOf_valid {feedback : List Json}
    (hv : (feedbackOf m).mapM validateRtcpFeedback = .ok feedback) :
    ∃ feedback', (feedbackOf mw).mapM validateRtcpFeedback = .ok feedback' := by
  cases hnull : nonNull "rtcpFeedback" (.obj m) with
  | none =>
    have hno : get "rtcpFeedback" mw = none := Shape.member_absent h (nonNull_eq_none.mp hnull)
    exact ⟨[], by rw [feedbackOf, hno]; rfl⟩
  | some v =>
    obtain ⟨hget, hn⟩ := nonNull_eq_some.mp hnull
    obtain ⟨items, rfl, -⟩ := Shape.member_accepted h rfl hget hn
    obtain ⟨items', hall, hfind⟩ := Shape.find_rewrite_array h rfl hget
    have hm : feedbackOf m = items := by
      change get "rtcpFeedback" m = _ at hget
      rw [feedbackOf, hget]
    have hmw : feedbackOf mw = items' := by
      change get "rtcpFeedback" mw = _ at hfind
      rw [feedbackOf, hfind]
    rw [hm] at hv
    rw [hmw]
    refine mapM_total fun fb' hfb' => ?_
    obtain ⟨fb, hfb, hw⟩ := mem_of_forall₂ hall hfb'
    obtain ⟨valid, -, hvalid⟩ := mem_of_forall₂ (mapM_ok hv).flip hfb
    exact routerFeedback_valid hvalid hw

/-- An optional integer of a parsed codec survives. -/
theorem integer_kept (hp : reparse (.obj m) = .obj m) {k : String} {lo hi : ℤ}
    (hk : get k routerFields = some (.int lo hi))
    (hint : ∀ x, get k m = some x → x.isNull = false) : get k mw = get k m := by
  cases hx : get k m with
  | none => exact Shape.member_absent h (Or.inl hx)
  | some x =>
    have hf := Shape.member_accepted h hk (hx : (Json.obj m).find k = some x) (hint x hx)
    exact Shape.member_kept h hp hk hx (hint x hx) hf

theorem channels_kept (hp : reparse (.obj m) = .obj m) (kind : String) :
    get "channels" (codecChannels kind (put "kind" (.str kind) mw)) =
      get "channels" (codecChannels kind (put "kind" (.str kind) m)) := by
  unfold codecChannels
  split_ifs
  · have hhas : ∀ n : Members, has (put "kind" (.str kind) n) "channels" Json.isNumberInteger =
        has n "channels" Json.isNumberInteger := fun n => by
      rw [has, get_put_of_ne _ (by decide), has]
    simp only [get_orDefault, hhas, get_put_of_ne _ (show "channels" ≠ "kind" by decide)]
    by_cases hnull : ∀ x, get "channels" m = some x → x.isNull = false
    · have hsame := integer_kept h hp (k := "channels") rfl hnull
      rw [has, hsame, has]
    · push Not at hnull
      obtain ⟨x, hx, hxn⟩ := hnull
      have hx' : x = .null := by
        cases x with
        | null => rfl
        | _ => exact absurd rfl hxn
      subst hx'
      have hno : get "channels" mw = none := Shape.member_absent h (Or.inr hx)
      simp [has, hx, hno, Json.isNumberInteger]
  · simp only [get_del, if_true]

/-- A codec whose parameters and mime type survive is accepted when it is validated again, and the
    matching reads the same of it. -/
theorem validated_sameRead (hp : reparse (.obj m) = .obj m) {valid : Json}
    (hv : validateRtpCodecCapability (.obj m) = .ok valid)
    (hmime : ∀ s, get "mimeType" m = some (.str s) → cstr s = s)
    (hparams : ParametersSurvive (.obj m) (.obj mw)) :
    ∃ valid', validateRtpCodecCapability (.obj mw) = .ok valid' ∧ SameRead valid valid' := by
  obtain ⟨_, kind, m', hm, hkind, rfl, hpt, hrest⟩ := validateRtpCodecCapability_ok hv
  cases hm
  have hint : ∀ x : Json, x.isNumberInteger = true → x.isNull = false := fun x hx => by
    cases x <;> first | rfl | cases hx
  obtain ⟨mimeType, hget, hmk⟩ := codecKind_ok hkind
  have hmimeW : get "mimeType" mw = get "mimeType" m := by
    rw [hget]
    exact Shape.member_kept h hp rfl (hget : (Json.obj m).find "mimeType" = _) rfl
      ⟨mimeType, rfl, hmime mimeType hget⟩
  have hkindW : codecKind mw = .ok kind := by
    rw [← hkind, codecKind, codecKind, hmimeW]
  obtain ⟨clockRate, hclock, hclockInt⟩ := has_iff.mp hrest.clockRate
  rw [get_put_of_ne _ (by decide)] at hclock
  have hclockW : get "clockRate" mw = get "clockRate" m :=
    integer_kept h hp rfl fun x hx => by
      rw [hclock] at hx
      cases hx
      exact hint _ hclockInt
  have hptW : get "preferredPayloadType" mw = get "preferredPayloadType" m :=
    integer_kept h hp rfl fun x hx => hint x (hasOrLacks_iff.mp hpt x hx)
  -- the second validation
  have hput : ∀ n : Members, parametersOf (put "kind" (.str kind) n) = parametersOf n ∧
      feedbackOf (put "kind" (.str kind) n) = feedbackOf n := fun n => by
    constructor
    · rw [parametersOf, get_put_of_ne _ (by decide), parametersOf]
    · rw [feedbackOf, get_put_of_ne _ (by decide), feedbackOf]
  obtain ⟨feedback, hfb, -⟩ := hrest.rtcpFeedback
  rw [(hput m).2] at hfb
  obtain ⟨feedback', hfb'⟩ := feedbackOf_valid h hfb
  have hclockOk : has (put "kind" (.str kind) mw) "clockRate" Json.isNumberInteger = true :=
    has_iff.mpr ⟨clockRate, by rw [get_put_of_ne _ (by decide), hclockW, hclock], hclockInt⟩
  have hptOk : hasOrLacks (put "kind" (.str kind) mw) "preferredPayloadType"
      Json.isNumberInteger = true := by
    rw [hasOrLacks, get_put_of_ne _ (by decide), hptW]
    exact hpt
  obtain ⟨valid', hrestOk⟩ := validateCodecRest_total hclockOk
    (by rw [(hput mw).1]; exact parametersOf_valid h) (by rw [(hput mw).2]; exact hfb')
  have hv' : validateRtpCodecCapability (.obj mw) = .ok valid' :=
    bind_ok.mpr ⟨kind, hkindW, bind_ok.mpr ⟨(), require_ok.mpr hptOk, hrestOk⟩⟩
  obtain ⟨mw', rfl, hrest'⟩ := validateCodecRest_ok hrestOk
  -- what is read of the two
  have hother : ∀ k ∈ matchingMembers, k ≠ "channels" → get k mw = get k m →
      get k mw' = get k m' := fun k hk hch hsame => by
    have hmembers : ∀ k ∈ matchingMembers, k ≠ "channels" →
        k ∉ ["parameters", "rtcpFeedback", "channels"] ∧ k ≠ "kind" := by decide
    obtain ⟨hne, hkind⟩ := hmembers k hk hch
    rw [hrest'.others k hne, hrest.others k hne, get_put_of_ne _ hkind, get_put_of_ne _ hkind,
      hsame]
  refine ⟨.obj mw', hv', rfl, rfl, fun k hk => ?_, ⟨parametersOf m, parametersOf mw, ?_, ?_,
    fun k hk => ?_⟩, feedbackOk_validated hv, feedbackOk_validated hv'⟩
  · change get k mw' = get k m'
    simp only [matchingMembers, List.mem_cons, List.not_mem_nil, or_false] at hk
    rcases hk with rfl | rfl | rfl | rfl
    · exact hother _ (by decide) (by decide) hmimeW
    · exact hother _ (by decide) (by decide) hclockW
    · rw [hrest'.channels, hrest.channels, channels_kept h hp]
    · exact hother _ (by decide) (by decide) hptW
  · have hp' := hrest.parameters
    rwa [(hput m).1] at hp'
  · have hp' := hrest'.parameters
    rwa [(hput mw).1] at hp'
  · rw [get_parametersOf, get_parametersOf, hparams k hk]

end

/-! ### A header extension -/

/-- A header extension is accepted when it is validated again, unless its uri has become empty. -/
theorem extension_valid_iff {e e' valid : Json}
    (h : (Shape.object HeaderExtension.fields).rewrite e = some e')
    (hv : validateRtpHeaderExtension e = .ok valid) :
    (∃ valid', validateRtpHeaderExtension e' = .ok valid') ↔
      ∀ s, e.find "uri" = some (.str s) → cstr s ≠ "" := by
  obtain ⟨m, ms, rfl, rfl, -⟩ := Shape.rewrite_isObject h
  have hfind : ∀ k, get k ms = (get k HeaderExtension.fields).bind fun s =>
      (nonNull k (.obj m)).bind s.rewrite := Shape.find_rewrite h
  obtain ⟨_, h₁, hv⟩ := bind_ok.mp hv
  obtain ⟨_, h₂, hv⟩ := bind_ok.mp hv
  obtain ⟨_, h₃, hv⟩ := bind_ok.mp hv
  obtain ⟨_, h₄, hv⟩ := bind_ok.mp hv
  obtain ⟨_, h₅, hv⟩ := bind_ok.mp hv
  obtain ⟨_, h₆, -⟩ := bind_ok.mp hv
  obtain ⟨uri, huri, htext⟩ := has_iff.mp (require_ok.mp h₃)
  cases uri with
  | str s =>
    have huriW : get "uri" ms = some (.str (cstr s)) := by
      rw [hfind, nonNull_obj huri rfl]
      rfl
    constructor
    · rintro ⟨valid', hv'⟩ s' hs'
      cases huri.symm.trans hs'
      obtain ⟨_, -, hv'⟩ := bind_ok.mp hv'
      obtain ⟨_, -, hv'⟩ := bind_ok.mp hv'
      obtain ⟨_, h₃', -⟩ := bind_ok.mp hv'
      obtain ⟨v, hget, htext'⟩ := has_iff.mp (require_ok.mp h₃')
      cases huriW.symm.trans hget
      simpa [isText] using htext'
    · intro hne
      have hkind : ∃ kind, get "kind" ms = some (.str kind) ∧ (kind = "audio" ∨ kind = "video") := by
        obtain ⟨kind, hk, hstr⟩ := has_iff.mp (require_ok.mp h₁)
        cases kind with
        | str kind =>
          obtain ⟨_, hk', heqv⟩ := has_iff.mp (require_ok.mp h₂)
          cases hk.symm.trans hk'
          have hor : kind = "audio" ∨ kind = "video" := by simpa [Json.eqv] using heqv
          refine ⟨kind, ?_, hor⟩
          rw [hfind, nonNull_obj hk rfl]
          rcases hor with rfl | rfl <;> rfl
        | _ => cases hstr
      have hid : has ms "preferredId" Json.isNumberInteger = true := by
        obtain ⟨v, hget, hint⟩ := has_iff.mp (require_ok.mp h₄)
        have hnull : v.isNull = false := by cases v <;> first | rfl | cases hint
        obtain ⟨i, hi, hrange⟩ := Shape.member_accepted h rfl
          (hget : (Json.obj m).find "preferredId" = _) hnull
        refine has_iff.mpr ⟨ofInt i, ?_, by unfold ofInt; split_ifs <;> rfl⟩
        rw [hfind, nonNull_obj hget hnull]
        change (Shape.integer? v).bind _ = _
        rw [hi, Option.bind_some, if_pos hrange]
      have hencrypt : hasOrLacks ms "preferredEncrypt" Json.isBoolean = true := by
        refine hasOrLacks_iff.mpr fun v hv' => ?_
        rw [hfind] at hv'
        change (nonNull "preferredEncrypt" (.obj m)).bind Shape.bool.rewrite = some v at hv'
        obtain ⟨x, -, hx⟩ := Option.bind_eq_some_iff.mp hv'
        cases x with
        | bool b => cases hx; rfl
        | _ => cases hx
      have hdirection : hasOrLacks ms "direction" Json.isString = true := by
        refine hasOrLacks_iff.mpr fun v hv' => ?_
        rw [hfind] at hv'
        change (nonNull "direction" (.obj m)).bind Shape.string.rewrite = some v at hv'
        obtain ⟨x, -, hx⟩ := Option.bind_eq_some_iff.mp hv'
        cases x with
        | str b => cases hx; rfl
        | _ => cases hx
      obtain ⟨kind, hkind, hor⟩ := hkind
      refine bind_total ⟨(), require_ok.mpr (has_iff.mpr ⟨_, hkind, rfl⟩)⟩ fun _ => ?_
      refine bind_total ⟨(), require_ok.mpr (has_iff.mpr ⟨_, hkind, ?_⟩)⟩ fun _ => ?_
      · rcases hor with rfl | rfl <;> rfl
      refine bind_total ⟨(), require_ok.mpr (has_iff.mpr ⟨_, huriW, ?_⟩)⟩ fun _ => ?_
      · simpa [isText] using hne s huri
      refine bind_total ⟨(), require_ok.mpr hid⟩ fun _ => ?_
      refine bind_total ⟨(), require_ok.mpr hencrypt⟩ fun _ => ?_
      refine bind_total ⟨(), require_ok.mpr ?_⟩ fun _ => ⟨_, rfl⟩
      rw [hasOrLacks, get_orDefault, if_neg fun hc => absurd hc.1 (by decide)]
      exact hdirection
  | _ => cases htext

/-! ### The parameters -/

/-- A parameter that is read survives exactly if it fits. -/
theorem parametersSurvive_iff {c w : Json} (h : (Shape.object routerFields).rewrite c = some w)
    (hp : reparse c = c) :
    ParametersSurvive c w ↔ ∀ k ∈ matchingParameters,
      MemberFits routerParameters k ((c.find "parameters").getD .null) := by
  refine forall₂_congr fun k _ => ?_
  have hparsed : (readParameter id k c).map reparse = readParameter id k c := by
    unfold readParameter
    cases hf : c.find "parameters" with
    | none => rfl
    | some p =>
      change (p.find k).map reparse = p.find k
      cases hv : p.find k with
      | none => rfl
      | some v => rw [Option.map_some, parsed_member (parsed_member hp hf) hv]
  rw [← hparsed]
  exact Shape.nested_survives_iff h rfl k

/-! ### The capabilities -/

/-- The elements of an array member that may be missing. -/
theorem elems_of_array {v : Option Json} {items : List Json}
    (h : v = some (.arr items) ∨ v = none ∧ items = []) : (v.getD .null).elems = items := by
  rcases h with rfl | ⟨rfl, rfl⟩ <;> rfl

/-- The capabilities are an object, and their codecs and extensions are those of the data, written
    again one by one. -/
structure Routed (data caps : Json) : Prop where
  members : ∃ m, caps = .obj m ∧
    (get "codecs" m = some (.arr (codecsOf caps)) ∨ get "codecs" m = none ∧ codecsOf caps = []) ∧
    (get "headerExtensions" m = some (.arr (extensionsOf caps)) ∨
      get "headerExtensions" m = none ∧ extensionsOf caps = [])
  codecs : List.Forall₂ (fun c w => (Shape.object routerFields).rewrite c = some w)
    (codecsOf data) (codecsOf caps)
  extensions : List.Forall₂ (fun e w => (Shape.object HeaderExtension.fields).rewrite e = some w)
    (extensionsOf data) (extensionsOf caps)

theorem elems_of_getD {v : Option Json} {items : List Json} (h : v.getD (.arr []) = .arr items) :
    (v.getD .null).elems = items := by
  cases v with
  | none => cases h; rfl
  | some v => cases h; rfl

theorem routerCapabilities_ok {data valid caps : Json}
    (hvalid : validateRtpCapabilities data = .ok valid) (h : routerCapabilities data = some caps) :
    Routed data caps := by
  rw [routerCapabilities,
    reencode_eq (RTPCapabilities.has GetRouterRtpCapabilitiesResponse.Parameters.has)] at h
  obtain ⟨m, -, codecs, -, exts, -, rfl, -, hcodecs, -, -, hexts, -⟩ :=
    validateRtpCapabilities_ok hvalid
  obtain ⟨_, mw, -, rfl, -⟩ := Shape.rewrite_isObject h
  obtain ⟨codecs', hall, hcodecs'⟩ := Shape.rewrite_arrays h rfl
    (hcodecs : ((Json.obj m).find "codecs").getD _ = _)
  obtain ⟨exts', heall, hexts'⟩ := Shape.rewrite_arrays h rfl
    (hexts : ((Json.obj m).find "headerExtensions").getD _ = _)
  have hc : codecsOf (.obj m) = codecs := elems_of_getD hcodecs
  have he : extensionsOf (.obj m) = exts := elems_of_getD hexts
  have hc' : codecsOf (.obj mw) = codecs' := elems_of_array hcodecs'
  have he' : extensionsOf (.obj mw) = exts' := elems_of_array hexts'
  refine ⟨⟨mw, rfl, ?_, ?_⟩, ?_, ?_⟩
  · rw [hc']; exact hcodecs'
  · rw [he']; exact hexts'
  · rw [hc, hc']; exact hall
  · rw [he, he']; exact heall

/-- The header extensions of validated capabilities have been validated. -/
theorem extensionsOf_validated {caps caps' : Json} (h : validateRtpCapabilities caps = .ok caps') :
    List.Forall₂ (fun e e' => validateRtpHeaderExtension e = .ok e') (extensionsOf caps)
      (extensionsOf caps') := by
  obtain ⟨m, m', _, _, exts, exts', rfl, rfl, -, -, -, he, hmap, hget⟩ :=
    validateRtpCapabilities_ok h
  have hbefore : extensionsOf (.obj m) = exts := elems_of_getD he
  have hafter : extensionsOf (.obj m') = exts' := elems_of_array (Or.inl hget)
  rw [hbefore, hafter]
  exact mapM_ok hmap

/-- The elements of an array member of a parsed value have been parsed. -/
theorem parsed_elems {data x : Json} {key : String} {items : List Json}
    (hp : reparse data = data) (hd : (data.find key).getD (.arr []) = .arr items) (hx : x ∈ items) :
    reparse x = x := by
  cases hf : data.find key with
  | none =>
    rw [hf] at hd
    cases hd
    cases hx
  | some v =>
    rw [hf] at hd
    cases hd
    exact parsed_item (parsed_member hp hf) hx

theorem parsed_codec {data valid c : Json} (hp : reparse data = data)
    (hvalid : validateRtpCapabilities data = .ok valid) (hc : c ∈ codecsOf data) :
    reparse c = c := by
  obtain ⟨m, -, codecs, -, -, -, rfl, -, hcodecs, -⟩ := validateRtpCapabilities_ok hvalid
  have hof : codecsOf (.obj m) = codecs := elems_of_getD hcodecs
  exact parsed_elems hp (hcodecs : ((Json.obj m).find "codecs").getD _ = _) (hof ▸ hc)

/-- Capabilities whose codecs and extensions are kept are accepted when they are validated again,
    and the matching reads the same of them. -/
theorem routed_valid {data valid caps : Json} (hp : reparse data = data)
    (hvalid : validateRtpCapabilities data = .ok valid) (hr : Routed data caps)
    (hk : RouterKeeps data) :
    ∃ valid', validateRtpCapabilities caps = .ok valid' ∧
      List.Forall₂ SameRead (codecsOf valid) (codecsOf valid') := by
  have hcodec : ∀ c ∈ codecsOf data, ∀ {w v}, (Shape.object routerFields).rewrite c = some w →
      validateRtpCodecCapability c = .ok v →
      ∃ v', validateRtpCodecCapability w = .ok v' ∧ SameRead v v' := by
    intro c hc w v hw hv
    have hparsed := parsed_codec hp hvalid hc
    have hsurvive := (parametersSurvive_iff hw hparsed).mpr (hk.parameters c hc)
    obtain ⟨m, mw, rfl, rfl, -⟩ := Shape.rewrite_isObject hw
    exact validated_sameRead hw hparsed hv (fun s hs => hk.mimeType _ hc s hs) hsurvive
  obtain ⟨mw, rfl, hcodecs, hexts⟩ := hr.members
  obtain ⟨codecs', hcodecs'⟩ : ∃ codecs',
      (codecsOf (.obj mw)).mapM validateRtpCodecCapability = .ok codecs' :=
    mapM_total fun w hw => by
      obtain ⟨c, hc, hcw⟩ := mem_of_forall₂ hr.codecs hw
      obtain ⟨v, -, hv⟩ := mem_of_forall₂ (codecsOf_validated hvalid).flip hc
      obtain ⟨v', hv', -⟩ := hcodec c hc hcw hv
      exact ⟨v', hv'⟩
  obtain ⟨exts', hexts'⟩ : ∃ exts',
      (extensionsOf (.obj mw)).mapM validateRtpHeaderExtension = .ok exts' :=
    mapM_total fun w hw => by
      obtain ⟨e, he, hew⟩ := mem_of_forall₂ hr.extensions hw
      obtain ⟨v, -, hv⟩ := mem_of_forall₂ (extensionsOf_validated hvalid).flip he
      exact (extension_valid_iff hew hv).mpr (hk.uri e he)
  obtain ⟨valid', hvalid'⟩ := validateRtpCapabilities_total hcodecs hexts hcodecs' hexts'
  refine ⟨valid', hvalid', forall₂_square hr.codecs (codecsOf_validated hvalid)
    (codecsOf_validated hvalid') fun c hc _ _ _ hw hv hv' => ?_⟩
  obtain ⟨v', hval, hsame⟩ := hcodec c hc hw hv
  cases hv'.symm.trans hval
  exact hsame

/-! ### A NUL in a mime type -/

theorem toLower_nul {c : Char} (h : c.toLower = Char.ofNat 0) : c = Char.ofNat 0 := by
  unfold Char.toLower at h
  split_ifs at h with hc
  · have hv : c.val + ('a'.val - 'A'.val) = 0 := congrArg Char.val h
    have hlow : 'A'.val.toNat ≤ c.val.toNat := UInt32.le_iff_toNat_le.mp hc.1
    have hhigh : c.val.toNat ≤ 'Z'.val.toNat := UInt32.le_iff_toNat_le.mp hc.2
    have hsum : (c.val.toNat + 32) % 2 ^ 32 = 0 := by
      have hnat := congrArg UInt32.toNat hv
      rwa [UInt32.toNat_add] at hnat
    have hZ : 'Z'.val.toNat = 90 := rfl
    omega
  · exact h

theorem nul_mem_lower {s : String} :
    Char.ofNat 0 ∈ (lower s).toList ↔ Char.ofNat 0 ∈ s.toList := by
  rw [lower, String.toList_ofList]
  constructor
  · intro h
    obtain ⟨c, hc, hn⟩ := List.mem_map.mp h
    exact toLower_nul hn ▸ hc
  · intro h
    exact List.mem_map.mpr ⟨_, h, by decide⟩

/-! ### What has to be kept -/

section
variable {webrtc : WebRtc} {data valid caps : Json}
  (hvalid : validateRtpCapabilities data = .ok valid) (hr : Routed data caps)
include hvalid hr

/-- If the capabilities are accepted at all, no uri has become empty. -/
theorem uri_kept {valid' : Json} (hvalid' : validateRtpCapabilities caps = .ok valid') :
    ∀ e ∈ extensionsOf data, ∀ s, e.find "uri" = some (.str s) → cstr s ≠ "" := by
  intro e he
  obtain ⟨v, -, hv⟩ := mem_of_forall₂ (extensionsOf_validated hvalid).flip he
  obtain ⟨w, hw, hew⟩ := mem_of_forall₂ hr.extensions.flip he
  obtain ⟨v', -, hv'⟩ := mem_of_forall₂ (extensionsOf_validated hvalid').flip hw
  exact (extension_valid_iff hew hv).mp ⟨v', hv'⟩

/-- If a codec is paired as before with itself, its mime type has no NUL. -/
theorem mimeType_kept {valid' : Json} (hvalid' : validateRtpCapabilities caps = .ok valid')
    (h : ∀ localCaps, (pairing webrtc localCaps caps).toOption =
      (pairing webrtc localCaps data).toOption) :
    ∀ c ∈ codecsOf data, ∀ s, c.find "mimeType" = some (.str s) → cstr s = s := by
  intro c hc s hs
  by_contra hne
  have hnul := nul_mem_lower.mpr (nul_mem_of_cstr_ne hne)
  obtain ⟨v, hmem, hv⟩ := mem_of_forall₂ (codecsOf_validated hvalid).flip hc
  -- local capabilities of this one codec
  obtain ⟨validLocal, hl⟩ := validateRtpCapabilities_total (m := [("codecs", .arr [c])])
    (Or.inl (rfl : get "codecs" [("codecs", Json.arr [c])] = some (.arr [c]))) (Or.inr ⟨rfl, rfl⟩)
    (show [c].mapM validateRtpCodecCapability = .ok [v] by
      rw [List.mapM_cons, hv]
      rfl) rfl
  have hsingle : codecsOf validLocal = [v] := by
    have hall := codecsOf_validated hl
    change List.Forall₂ _ [c] _ at hall
    generalize codecsOf validLocal = locals at hall ⊢
    cases hall with
    | cons hv' hnil =>
      cases hnil
      cases hv.symm.trans hv'
      rfl
  have hplain : lower s ∉ ["audio/rtx", "video/rtx", "video/h264", "video/vp9"] := fun hin => by
    have hclean : ∀ t ∈ ["audio/rtx", "video/rtx", "video/h264", "video/vp9"],
        Char.ofNat 0 ∉ t.toList := by decide
    exact hclean _ hin hnul
  obtain ⟨pairs, hpairs, hpairs_ne⟩ : ∃ pairs,
      pairing webrtc (.obj [("codecs", .arr [c])]) data = .ok pairs ∧ pairs ≠ [] :=
    pairing_self hl hsingle hvalid hv hmem hs hplain
  -- no codec of the capabilities has a NUL in its mime type
  have hnone : pairing webrtc (.obj [("codecs", .arr [c])]) caps = .ok [] :=
      pairing_none hl hvalid' fun r' hr' => by
    obtain ⟨w, hw, hvalw⟩ := mem_of_forall₂ (codecsOf_validated hvalid') hr'
    obtain ⟨c₀, -, hc₀⟩ := mem_of_forall₂ hr.codecs hw
    obtain ⟨-, ⟨t, ht, htv, -⟩, -⟩ := validated_members hvalw
    obtain ⟨-, ⟨s', hs', hsv, -⟩, -⟩ := validated_members hv
    cases hs.symm.trans hs'
    have hclean : Char.ofNat 0 ∉ t.toList := by
      have hfind := Shape.find_rewrite hc₀ "mimeType"
      rw [ht] at hfind
      change some (Json.str t) = (nonNull "mimeType" c₀).bind Shape.string.rewrite at hfind
      obtain ⟨x, -, hx⟩ := Option.bind_eq_some_iff.mp hfind.symm
      cases x with
      | str x => cases hx; exact nul_notMem_cstr x
      | _ => cases hx
    have hdiff : lower s ≠ lower t := fun heq => hclean (nul_mem_lower.mp (heq ▸ hnul))
    rw [hsingle]
    unfold findMatchingCodec
    rw [matchCodecs_of_ne hsv htv hdiff]
    rfl
  have hsame := h (.obj [("codecs", .arr [c])])
  rw [hpairs, hnone] at hsame
  exact hpairs_ne (Option.some.inj hsame).symm

end

/-- CORRECT: for all local capabilities the router's codecs are paired as those of the server's own
    data, and every parameter that the matching reads survives, exactly if each such parameter is
    one that the model has, is not null, and fits, no mime type has a NUL in it, and no uri of a
    header extension begins with one. -/
theorem router_capabilities_paired (webrtc : WebRtc) {data valid caps : Json}
    (hparsed : reparse data = data) (hvalid : validateRtpCapabilities data = .ok valid)
    (h : routerCapabilities data = some caps) :
    ((∀ localCaps, (pairing webrtc localCaps caps).toOption =
        (pairing webrtc localCaps data).toOption) ∧
      List.Forall₂ ParametersSurvive (codecsOf data) (codecsOf caps)) ↔ RouterKeeps data := by
  have hr := routerCapabilities_ok hvalid h
  constructor
  · rintro ⟨hpaired, hsurvive⟩
    -- without local codecs nothing is paired, but the capabilities are validated
    have hnil : validateRtpCapabilities (.obj []) =
        .ok (.obj [("codecs", .arr []), ("headerExtensions", .arr [])]) := rfl
    have hempty : pairing webrtc (.obj []) data = .ok [] :=
      pairing_none hnil hvalid fun _ _ => rfl
    have hcaps := hpaired (.obj [])
    rw [hempty] at hcaps
    obtain ⟨_, valid', -, -, hvalid', -⟩ := pairing_ok (toOption_eq_some.mp hcaps)
    refine ⟨fun c hc => ?_, mimeType_kept hvalid hr hvalid' hpaired, uri_kept hvalid hr hvalid'⟩
    have hiff : List.Forall₂ (fun c w => ParametersSurvive c w ∧
        (Shape.object routerFields).rewrite c = some w) (codecsOf data) (codecsOf caps) :=
      List.Forall₂.mp (fun _ _ hcw hw => ⟨hcw, hw⟩) hsurvive hr.codecs
    obtain ⟨w, -, hcw, hw⟩ := mem_of_forall₂ hiff.flip hc
    exact (parametersSurvive_iff hw (parsed_codec hparsed hvalid hc)).mp hcw
  · intro hk
    obtain ⟨valid', hvalid', hsame⟩ := routed_valid hparsed hvalid hr hk
    have hkept := (List.forall₂_and_left _ _).mpr
      ⟨fun c hc => And.intro (parsed_codec hparsed hvalid hc) (hk.parameters c hc), hr.codecs⟩
    refine ⟨pairing_same hvalid hvalid' hsame, hkept.imp fun c w hcw => ?_⟩
    obtain ⟨⟨hparsed', hfits⟩, hw⟩ := hcw
    exact (parametersSurvive_iff hw hparsed').mpr hfits

theorem router_capabilities_paired_h264 :
    ∃ valid caps, validateRtpCapabilities (h264Capabilities 101 1) = .ok valid ∧
      routerCapabilities (h264Capabilities 101 1) = some caps ∧
      (((∀ localCaps, (pairing sampleWebRtc localCaps caps).toOption =
          (pairing sampleWebRtc localCaps (h264Capabilities 101 1)).toOption) ∧
        List.Forall₂ ParametersSurvive (codecsOf (h264Capabilities 101 1)) (codecsOf caps)) ↔
          RouterKeeps (h264Capabilities 101 1)) := by
  obtain ⟨valid, hvalid, -⟩ := exists_of_map (fun _ => ())
    (show (validateRtpCapabilities (h264Capabilities 101 1)).toOption.map _ = some () from rfl)
  obtain ⟨caps, hcaps⟩ := Option.isSome_iff_exists.mp
    (show (routerCapabilities (h264Capabilities 101 1)).isSome = true from rfl)
  exact ⟨valid, caps, hvalid, hcaps, router_capabilities_paired sampleWebRtc rfl hvalid hcaps⟩

/-- Capabilities with one VP9 codec. -/
def vp9Capabilities (payloadType profileId : ℕ) : Json :=
  .object [("codecs", .arr [
    .object [("mimeType", .str "video/VP9"), ("preferredPayloadType", .uint payloadType),
      ("clockRate", .uint 90000), ("parameters", .object [("profile-id", .uint profileId)])]])]

/-- A router with VP9 of profile 2 is paired with no local codec of that profile. -/
theorem router_loses_profile_id : ∃ valid caps,
    reparse (vp9Capabilities 101 2) = vp9Capabilities 101 2 ∧
      validateRtpCapabilities (vp9Capabilities 101 2) = .ok valid ∧
      routerCapabilities (vp9Capabilities 101 2) = some caps ∧
      (pairing sampleWebRtc (vp9Capabilities 96 2) (vp9Capabilities 101 2)).toOption =
        some [(0, 0, .null, .null)] ∧
      (pairing sampleWebRtc (vp9Capabilities 96 2) caps).toOption = some [] := by
  obtain ⟨valid, hvalid, -⟩ := exists_of_map (fun _ => ())
    (show (validateRtpCapabilities (vp9Capabilities 101 2)).toOption.map _ = some () from rfl)
  obtain ⟨caps, hcaps, hlost⟩ := Option.bind_eq_some_iff.mp
    (show ((routerCapabilities (vp9Capabilities 101 2)).bind fun caps =>
      (pairing sampleWebRtc (vp9Capabilities 96 2) caps).toOption) = some [] from rfl)
  exact ⟨valid, caps, rfl, hvalid, hcaps, rfl, hlost⟩

end MediasoupClient.Api
