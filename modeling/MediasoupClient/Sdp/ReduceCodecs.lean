import MediasoupClient.Sdp.Builders
import Mathlib.Data.List.TakeWhile

/-! The codecs that are kept of a list (sdputil/jsonvalidate.cpp).

        no capability codec      c₀  c₁           c₀, and c₁ if it is an rtx codec
        a capability codec       c₀ ... cᵢ cᵢ₊₁    cᵢ, the first that matches, and cᵢ₊₁ if it is an rtx codec

    The second search never gets beyond c₀: its condition is a comma expression whose value is `true`.
    And an element behind the end of a list that may be changed is made by asking for it. -/

namespace MediasoupClient.Sdp
open Lib Call

/-- A body that works on an array of codecs. -/
abbrev OnCodecs := Call Invalid (List Json)

/-- `codecs[idx]`: an array that is too short is filled up with null. -/
def codecAt (idx : ℕ) : OnCodecs Json := fun codecs =>
  match codecs[idx]? with
  | some codec => .ok codec codecs
  | none => .ok .null (codecs ++ List.replicate (idx + 1 - codecs.length) .null)

/-- The codec, and the one at `idx` if that is an rtx codec. -/
def withNext (codec : Json) (idx : ℕ) : OnCodecs (List Json) := do
  let next ← codecAt idx
  if ← (isRtxCodec next : Except Invalid Bool) then return [codec, next] else return [codec]

section
variable (webrtc : WebRtc)

/-- The loop from `idx` on, over `n` codecs. What is compared is compared without `strict`, and does not
    count: `(matchCodecs(..), /*strict*/ true)`. -/
def takeCompatible (capCodec : Json) : ℕ → ℕ → OnCodecs (List Json)
  | _, 0 => return []
  | idx, n + 1 => do
    let codec ← codecAt idx
    let _ ← (matchCodecs webrtc codec capCodec false false : Except Invalid _)
    if true then withNext codec (idx + 1) else takeCompatible capCodec (idx + 1) n

/-- `reduceCodecs`: anything but an object is no capability codec. -/
def reduceCodecsFor (capCodec : Option Json) : OnCodecs (List Json) := do
  match capCodec.filter Json.isObject with
  | none =>
    let first ← codecAt 0
    if 1 < (← get).length then withNext first 1 else return [first]
  | some capCodec =>
    let filteredCodecs ← takeCompatible webrtc capCodec 0 (← get).length
    if filteredCodecs.isEmpty then throw (.threw (.exception "no matching codec found"))
    return filteredCodecs

/-! ### What is to be kept -/

/-- The first codec, and the one behind it if there is one and it is an rtx codec. -/
def withRtx : List Json → List Json
  | [] => []
  | [codec] => [codec]
  | codec :: next :: _ => if isRtx next then [codec, next] else [codec]

/-- The strict comparison with the capability codec, which changes neither. -/
def compatible (capCodec codec : Json) : Bool :=
  match matchCodecs webrtc codec capCodec true false with
  | .ok (matched, _) => matched
  | .error _ => false

/-- The codecs from the first compatible one on. -/
def fromCompatible (capCodec : Json) (codecs : List Json) : List Json :=
  codecs.dropWhile fun codec => !compatible webrtc capCodec codec

/-- The codecs are reduced as they should, and stay as they are. -/
structure ReducesExactly (capCodec : Option Json) (codecs : List Json) : Prop where
  without : capCodec.filter Json.isObject = none → codecs ≠ [] →
    ∃ t, reduceCodecsFor webrtc capCodec codecs = .ok (withRtx codecs) t
  found : ∀ cap, capCodec.filter Json.isObject = some cap → fromCompatible webrtc cap codecs ≠ [] →
    ∃ t, reduceCodecsFor webrtc capCodec codecs = .ok (withRtx (fromCompatible webrtc cap codecs)) t
  notFound : ∀ cap, capCodec.filter Json.isObject = some cap → fromCompatible webrtc cap codecs = [] →
    ∃ e t, reduceCodecsFor webrtc capCodec codecs = .error (.threw e) t
  returned : ∀ out t, reduceCodecsFor webrtc capCodec codecs = .ok out t → t = codecs ∧ .null ∉ out
  stopped : ∀ stop t, reduceCodecsFor webrtc capCodec codecs = .error stop t →
    t = codecs ∧ ∃ e, stop = .threw e

end

/-- A codec of rtp parameters: it has a mime type and a clock rate. -/
structure RtpCodec (codec : Json) : Prop where
  mimeType : ∃ mimeType, codec.find "mimeType" = some (.str mimeType)
  clockRate : ∃ clockRate, codec.find "clockRate" = some clockRate

/-! ### Runs -/

section
variable {webrtc : WebRtc} {cap first second : Json} {codecs rest : List Json}

theorem RtpCodec.rtx {codec : Json} (h : RtpCodec codec) : isRtxCodec codec = .ok (isRtx codec) := by
  obtain ⟨mimeType, hm⟩ := h.mimeType
  have hrtx := isRtxCodec_eq hm
  rw [hrtx, isRtxCodec_ok hrtx]

theorem RtpCodec.ne_null {codec : Json} (h : RtpCodec codec) : codec ≠ .null := by
  rintro rfl
  obtain ⟨_, hm⟩ := h.mimeType
  cases hm

theorem withRtx_ne_null (h : ∀ c ∈ codecs, RtpCodec c) : .null ∉ withRtx codecs := by
  intro hnull
  have hsub : ∀ c ∈ withRtx codecs, c ∈ codecs := by
    match codecs with
    | [] => exact fun c hc => hc
    | [codec] => exact fun c hc => hc
    | codec :: next :: rest =>
      intro c hc
      rw [withRtx] at hc
      split_ifs at hc
      · exact List.mem_append_left rest hc
      · exact List.mem_cons.mpr (Or.inl (List.mem_singleton.mp hc))
  exact (h _ (hsub _ hnull)).ne_null rfl

/-- There is a codec behind the first one. -/
theorem withNext_two (h : RtpCodec second) : withNext first 1 (first :: second :: rest) =
    .ok (withRtx (first :: second :: rest)) (first :: second :: rest) := by
  have hrun : withNext first 1 (first :: second :: rest) =
      ((liftM (liftM (isRtxCodec second) : Except Invalid Bool) : OnCodecs Bool) >>= fun rtx =>
        if rtx then pure [first, second] else pure [first]) (first :: second :: rest) := rfl
  rw [hrun, h.rtx, withRtx]
  cases isRtx second with
  | true => rfl
  | false => rfl

theorem reduce_nil : reduceCodecsFor webrtc none [] = .ok [.null] [.null] := rfl

theorem reduce_single : reduceCodecsFor webrtc none [first] = .ok [first] [first] := rfl

theorem reduce_two : reduceCodecsFor webrtc none (first :: second :: rest) =
    withNext first 1 (first :: second :: rest) := rfl

theorem reduceFor_nil (hcap : cap.isObject = true) : reduceCodecsFor webrtc (some cap) [] =
    .error (.threw (.exception "no matching codec found")) [] := by
  cases cap with
  | obj m => rfl
  | _ => cases hcap

/-- The comparison of the first codec decides: whatever it finds, the first codec is taken. -/
theorem reduceFor_cons (hcap : cap.isObject = true) : reduceCodecsFor webrtc (some cap) (first :: rest) =
    (((liftM (liftM (matchCodecs webrtc first cap false false) : Except Invalid _) : OnCodecs _) >>=
      fun _ => withNext first 1) >>= fun filteredCodecs =>
        if filteredCodecs.isEmpty then throw (.threw (.exception "no matching codec found"))
        else pure filteredCodecs) (first :: rest) := by
  cases cap with
  | obj m => rfl
  | _ => cases hcap

variable (webrtc) in
/-- Comparing a codec with an object, not strictly: only the mime type of that can be wrong. -/
theorem matchCodecs_lax (h : RtpCodec first) (hcap : cap.isObject = true) :
    (∃ s r, cap.find "mimeType" = some (.str s) ∧
      matchCodecs webrtc first cap false false = .ok r) ∨
    (∃ v, cap.find "mimeType" = some v ∧ v.isString = false ∧
      matchCodecs webrtc first cap false false = .error (.typeError 302)) ∨
    (cap.find "mimeType" = none ∧ matchCodecs webrtc first cap false false = .error .undefined) := by
  obtain ⟨mimeType, hm⟩ := h.mimeType
  have hmember : Sdp.member first "mimeType" = .ok (.str mimeType) := by rw [Sdp.member, hm]
  have hfirst : first.isObject = true := by
    cases first with
    | obj m => rfl
    | _ => cases hm
  unfold matchCodecs
  rw [hmember]
  simp only [ok_bind, Json.toStr, Sdp.member, readOrNull_of_isObject hfirst,
    readOrNull_of_isObject hcap]
  cases hc : cap.find "mimeType" with
  | none => exact Or.inr (Or.inr ⟨rfl, rfl⟩)
  | some v =>
    cases v with
    | str s =>
      left
      simp only [ok_bind, Bool.false_eq_true, and_false, if_false]
      split_ifs <;> exact ⟨s, _, rfl, rfl⟩
    | _ => exact Or.inr (Or.inl ⟨_, rfl, rfl, rfl⟩)

/-- A codec that is compatible has been compared. -/
theorem mimeType_of_compatible (hc : compatible webrtc cap first = true) :
    ∃ s, cap.find "mimeType" = some (.str s) := by
  unfold compatible at hc
  cases hmatch : matchCodecs webrtc first cap true false with
  | error e =>
    rw [hmatch] at hc
    cases hc
  | ok r =>
    obtain ⟨_, -, hmatch⟩ := bind_ok.mp hmatch
    obtain ⟨_, -, hmatch⟩ := bind_ok.mp hmatch
    obtain ⟨v, hv, hmatch⟩ := bind_ok.mp hmatch
    obtain ⟨s, hs, -⟩ := bind_ok.mp hmatch
    have hfind : cap.find "mimeType" = some v := by
      unfold Sdp.member at hv
      cases hcap : cap.find "mimeType" with
      | none => rw [hcap] at hv; cases hv
      | some v' => rw [hcap] at hv; cases hv; rfl
    exact ⟨s, by rw [hfind, Json.toStr_ok.mp hs]⟩

/-- The runs with a capability codec, by what the comparison of the first codec finds. -/
theorem reduceFor_two (h : RtpCodec second) (hcap : cap.isObject = true) {r : Bool × Json × Json}
    (hmatch : matchCodecs webrtc first cap false false = .ok r) :
    reduceCodecsFor webrtc (some cap) (first :: second :: rest) =
      .ok (withRtx (first :: second :: rest)) (first :: second :: rest) := by
  have hrun : withNext first 1 (first :: second :: rest) = _ := withNext_two h
  have hne : (withRtx (first :: second :: rest)).isEmpty = false := by
    rw [withRtx]
    split_ifs <;> rfl
  rw [reduceFor_cons hcap, hmatch]
  refine bind_eq_ok.mpr ⟨_, _, hrun, ?_⟩
  rw [hne]
  rfl

theorem reduceFor_single (hcap : cap.isObject = true) {r : Bool × Json × Json}
    (hmatch : matchCodecs webrtc first cap false false = .ok r) :
    reduceCodecsFor webrtc (some cap) [first] =
      .error (.threw (.fault (.typeError 305))) [first, .null] := by
  rw [reduceFor_cons hcap, hmatch]
  rfl

theorem reduceFor_badMimeType (hcap : cap.isObject = true)
    (hmatch : matchCodecs webrtc first cap false false = .error (.typeError 302)) :
    reduceCodecsFor webrtc (some cap) (first :: rest) =
      .error (.threw (.fault (.typeError 302))) (first :: rest) := by
  rw [reduceFor_cons hcap, hmatch]
  rfl

theorem reduceFor_noMimeType (hcap : cap.isObject = true)
    (hmatch : matchCodecs webrtc first cap false false = .error .undefined) :
    reduceCodecsFor webrtc (some cap) (first :: rest) = .error .undefined (first :: rest) := by
  rw [reduceFor_cons hcap, hmatch]
  rfl

theorem head?_withRtx (codecs : List Json) : (withRtx codecs).head? = codecs.head? := by
  match codecs with
  | [] => rfl
  | [codec] => rfl
  | codec :: next :: rest =>
    rw [withRtx]
    split_ifs <;> rfl

theorem head_compatible {codec : Json} (h : (fromCompatible webrtc cap codecs).head? = some codec) :
    compatible webrtc cap codec = true := by
  induction codecs with
  | nil => cases h
  | cons first rest ih =>
    unfold fromCompatible at h ih
    rw [List.dropWhile_cons] at h
    cases hc : compatible webrtc cap first with
    | true =>
      rw [hc] at h
      cases h
      exact hc
    | false =>
      rw [hc] at h
      exact ih h

end

/-- The lists and capability codecs that the search can deal with: a list that is not empty, or, with a
    capability codec, an empty list, or one whose first codec is compatible and is not the last; or no
    codec can be compared, as the mime type of the capability codec is no text. -/
def Reducible (webrtc : WebRtc) (capCodec : Option Json) (codecs : List Json) : Prop :=
  (capCodec.filter Json.isObject = none ∧ codecs ≠ []) ∨
    ∃ cap, capCodec.filter Json.isObject = some cap ∧
      (codecs = [] ∨
        (∃ first second rest, codecs = first :: second :: rest ∧ compatible webrtc cap first = true) ∨
        ∃ v, cap.find "mimeType" = some v ∧ v.isString = false)

section
variable {webrtc : WebRtc} {capCodec : Option Json} {cap : Json} {codecs : List Json}

/-- A run that returns what is to be kept. -/
theorem ReducesExactly.of_ok {kept : List Json} (h : ∀ c ∈ kept, RtpCodec c)
    (hrun : reduceCodecsFor webrtc capCodec codecs = .ok (withRtx kept) codecs)
    (hwithout : capCodec.filter Json.isObject = none → kept = codecs)
    (hwith : ∀ cap, capCodec.filter Json.isObject = some cap →
      fromCompatible webrtc cap codecs ≠ [] ∧ fromCompatible webrtc cap codecs = kept) :
    ReducesExactly webrtc capCodec codecs where
  without hnone _ := by
    rw [hwithout hnone] at hrun
    exact ⟨codecs, hrun⟩
  found cap hsome _ := by
    rw [(hwith cap hsome).2]
    exact ⟨codecs, hrun⟩
  notFound cap hsome hnone := absurd hnone (hwith cap hsome).1
  returned out t hout := by
    rw [hrun] at hout
    cases hout
    exact ⟨rfl, withRtx_ne_null h⟩
  stopped stop t hstop := by
    rw [hrun] at hstop
    cases hstop

/-- A run that throws, as there is nothing to be kept. -/
theorem ReducesExactly.of_threw {e : Invalid}
    (hrun : reduceCodecsFor webrtc capCodec codecs = .error (.threw e) codecs)
    (hsome : capCodec.filter Json.isObject = some cap) (hnone : fromCompatible webrtc cap codecs = []) :
    ReducesExactly webrtc capCodec codecs where
  without hno _ := by
    rw [hsome] at hno
    cases hno
  found cap' hcap' hne := by
    rw [hsome] at hcap'
    cases hcap'
    exact absurd hnone hne
  notFound _ _ _ := ⟨e, codecs, hrun⟩
  returned out t hout := by
    rw [hrun] at hout
    cases hout
  stopped stop t hstop := by
    rw [hrun] at hstop
    cases hstop
    exact ⟨rfl, e, rfl⟩

/-- Anything but an object is as good as none. -/
theorem reduce_without (hnone : capCodec.filter Json.isObject = none) :
    reduceCodecsFor webrtc capCodec codecs = reduceCodecsFor webrtc none codecs := by
  unfold reduceCodecsFor
  rw [hnone]
  rfl

/-- Without a capability codec. -/
theorem without_iff (h : ∀ c ∈ codecs, RtpCodec c) (hnone : capCodec.filter Json.isObject = none) :
    ReducesExactly webrtc capCodec codecs ↔ codecs ≠ [] := by
  have hcap : ∀ cap, capCodec.filter Json.isObject ≠ some cap := fun cap hc => by
    rw [hnone] at hc
    cases hc
  have hkept : ∀ cs, (∀ c ∈ cs, RtpCodec c) → reduceCodecsFor webrtc capCodec cs = .ok (withRtx cs) cs →
      ReducesExactly webrtc capCodec cs := fun cs hcs hrun =>
    .of_ok hcs hrun (fun _ => rfl) fun cap hc => absurd hc (hcap cap)
  match codecs with
  | [] =>
    refine iff_of_false (fun hexact => ?_) fun hne => hne rfl
    have hstate := (hexact.returned _ _ ((reduce_without hnone).trans reduce_nil)).1
    cases hstate
  | [first] =>
    exact iff_of_true (hkept _ h ((reduce_without hnone).trans reduce_single)) (List.cons_ne_nil _ _)
  | first :: second :: rest =>
    have hsecond := h second (List.mem_cons_of_mem _ (List.mem_cons_self ..))
    refine iff_of_true (hkept _ h ?_) (List.cons_ne_nil _ _)
    rw [reduce_without hnone, reduce_two, withNext_two hsecond]

/-- With a capability codec whose mime type is no text, no codec is compatible. -/
theorem fromCompatible_of_badMimeType {v : Json} (hv : cap.find "mimeType" = some v)
    (hno : v.isString = false) : fromCompatible webrtc cap codecs = [] := by
  refine List.dropWhile_eq_nil_iff.mpr fun codec _ => ?_
  cases hc : compatible webrtc cap codec with
  | false => rfl
  | true =>
    obtain ⟨s, hs⟩ := mimeType_of_compatible hc
    rw [hv] at hs
    cases hs
    cases hno

/-- With a capability codec, and codecs to choose from. -/
theorem with_iff {first : Json} {rest : List Json} (h : ∀ c ∈ first :: rest, RtpCodec c)
    (hcap : cap.isObject = true) : ReducesExactly webrtc (some cap) (first :: rest) ↔
      (∃ second rest', rest = second :: rest' ∧ compatible webrtc cap first = true) ∨
        ∃ v, cap.find "mimeType" = some v ∧ v.isString = false := by
  have hfirst := h first (List.mem_cons_self ..)
  have hsome : (some cap).filter Json.isObject = some cap := by
    rw [Option.filter_some, if_pos hcap]
  rcases matchCodecs_lax webrtc hfirst hcap with
    ⟨s, r, hs, hr⟩ | ⟨v, hv, hno, hr⟩ | ⟨hno, hr⟩
  · -- the codecs are compared, and the first one is taken, whatever is found
    have hmime : ¬∃ v, cap.find "mimeType" = some v ∧ v.isString = false := by
      rintro ⟨v, hv, hno⟩
      rw [hs] at hv
      cases hv
      cases hno
    rw [or_iff_left hmime]
    cases rest with
    | nil =>
      refine iff_of_false (fun hexact => ?_) fun ⟨_, _, hrest, _⟩ => List.cons_ne_nil _ _ hrest.symm
      have hstate := (hexact.stopped _ _ (reduceFor_single hcap hr)).1
      cases hstate
    | cons second rest =>
      have hsecond := h second (List.mem_cons_of_mem _ (List.mem_cons_self ..))
      have hrun : reduceCodecsFor webrtc (some cap) (first :: second :: rest) = _ :=
        reduceFor_two hsecond hcap hr
      constructor
      · intro hexact
        refine ⟨second, rest, rfl, ?_⟩
        cases hkept : fromCompatible webrtc cap (first :: second :: rest) with
        | nil =>
          obtain ⟨e, t, he⟩ := hexact.notFound cap hsome hkept
          rw [hrun] at he
          cases he
        | cons codec codecs =>
          obtain ⟨t, ht⟩ := hexact.found cap hsome (by simp [hkept])
          rw [hrun, hkept] at ht
          have hheads := congrArg List.head? (EStateM.Result.ok.inj ht).1
          rw [head?_withRtx, head?_withRtx] at hheads
          have hfirst : first = codec := Option.some.inj hheads
          subst hfirst
          exact head_compatible (congrArg List.head? hkept)
      · rintro ⟨_, _, _, hc⟩
        have hkept : fromCompatible webrtc cap (first :: second :: rest) = first :: second :: rest := by
          rw [fromCompatible, List.dropWhile_cons, hc]
          rfl
        refine .of_ok h hrun (fun hnone => by rw [hsome] at hnone) fun cap' hcap' => ?_
        rw [hsome] at hcap'
        cases hcap'
        exact ⟨by rw [hkept]; exact List.cons_ne_nil _ _, hkept⟩
  · refine iff_of_true ?_ (Or.inr ⟨v, hv, hno⟩)
    exact .of_threw (reduceFor_badMimeType hcap hr) hsome (fromCompatible_of_badMimeType hv hno)
  · refine iff_of_false (fun hexact => ?_) ?_
    · obtain ⟨-, e, he⟩ := hexact.stopped _ _ (reduceFor_noMimeType hcap hr)
      cases he
    · rintro (⟨_, _, _, hc⟩ | ⟨v, hv, _⟩)
      · obtain ⟨s, hs⟩ := mimeType_of_compatible hc
        rw [hno] at hs
        cases hs
      · rw [hno] at hv
        cases hv

end

/-- CORRECT: the codecs are reduced exactly if there is no capability codec and the list is not empty,
    or the list is empty, or its first codec is compatible and not the last one. -/
theorem reduces_exactly_iff (webrtc : WebRtc) (capCodec : Option Json) {codecs : List Json}
    (h : ∀ c ∈ codecs, RtpCodec c) :
    ReducesExactly webrtc capCodec codecs ↔ Reducible webrtc capCodec codecs := by
  unfold Reducible
  cases hfilter : capCodec.filter Json.isObject with
  | none =>
    rw [without_iff h hfilter]
    simp
  | some cap =>
    obtain ⟨rfl, hcap⟩ := Option.filter_eq_some_iff.mp hfilter
    cases codecs with
    | nil =>
      refine iff_of_true (.of_threw (reduceFor_nil hcap) hfilter rfl) (Or.inr ⟨cap, rfl, Or.inl rfl⟩)
    | cons first rest =>
      rw [with_iff h hcap]
      simp

/-- Two codecs, the second one for the retransmission of the first. -/
def vp8AndRtx : List Json := [
  .object [("mimeType", .str "video/VP8"), ("payloadType", .uint 96), ("clockRate", .uint 90000)],
  .object [("mimeType", .str "video/rtx"), ("payloadType", .uint 97), ("clockRate", .uint 90000)]]

theorem vp8AndRtx_codecs : ∀ c ∈ vp8AndRtx, RtpCodec c := by
  intro c hc
  rcases List.mem_cons.mp hc with rfl | hc
  · exact ⟨⟨_, rfl⟩, ⟨_, rfl⟩⟩
  · rw [List.mem_singleton.mp hc]
    exact ⟨⟨_, rfl⟩, ⟨_, rfl⟩⟩

/-- The first one is found if it is the capability codec, and not behind another one. -/
theorem reduces_exactly_vp8 :
    ReducesExactly sampleWebRtc none vp8AndRtx ∧
      ReducesExactly sampleWebRtc vp8AndRtx.head? vp8AndRtx ∧
      ¬ ReducesExactly sampleWebRtc vp8AndRtx.head? vp8AndRtx.reverse := by
  refine ⟨(reduces_exactly_iff _ _ vp8AndRtx_codecs).mpr (Or.inl ⟨rfl, List.cons_ne_nil _ _⟩),
    (reduces_exactly_iff _ _ vp8AndRtx_codecs).mpr
      (Or.inr ⟨_, rfl, Or.inr (Or.inl ⟨_, _, _, rfl, rfl⟩)⟩), fun hexact => ?_⟩
  rcases (reduces_exactly_iff _ _ fun c hc =>
    vp8AndRtx_codecs c (List.mem_reverse.mp hc)).mp hexact with ⟨hnone, -⟩ | ⟨cap, hcap, hlist⟩
  · cases hnone
  cases hcap
  rcases hlist with hnil | ⟨first, second, rest, hlist, hcompatible⟩ | ⟨v, hv, htext⟩
  · cases hnil
  · cases hlist
    cases hcompatible
  · cases hv
    cases htext

/-- If the only codec is the compatible one, the codec behind it is asked for. -/
theorem only_codec_not_returned :
    ¬ ∀ (webrtc : WebRtc) (capCodec : Option Json) (codecs : List Json), (∀ c ∈ codecs, RtpCodec c) →
      ReducesExactly webrtc capCodec codecs := by
  intro h
  have hcodecs : ∀ c ∈ vp8AndRtx.take 1, RtpCodec c := fun c hc =>
    vp8AndRtx_codecs c (List.mem_of_mem_take hc)
  have hexact := h sampleWebRtc vp8AndRtx.head? (vp8AndRtx.take 1) hcodecs
  have hkept : fromCompatible sampleWebRtc (vp8AndRtx.headD .null) (vp8AndRtx.take 1) =
      vp8AndRtx.take 1 := rfl
  obtain ⟨t, ht⟩ := hexact.found (vp8AndRtx.headD .null) rfl (by rw [hkept]; exact List.cons_ne_nil _ _)
  cases ht

end MediasoupClient.Sdp
