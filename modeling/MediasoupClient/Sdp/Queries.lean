import MediasoupClient.Sdp.AnswerCodecs

/-! What can be sent and received (sdputil/jsonvalidate.cpp).

        canSend       is there an extended codec of the kind?
        canReceive    is there an extended codec with the payload type of the first codec?

    Both look at the extended codecs themselves, the builders make lists of them. They agree, as long
    as the builders return. -/

namespace MediasoupClient.Sdp
open Lib

def canSend (kind : String) (ext : ExtendedRtpCapabilities) : Except Fault Bool :=
  ext.codecs.anyM fun codec => return kind = (← codec.kind.toStr)

def canReceive (rtpParameters : Json) (ext : ExtendedRtpCapabilities) : Except Invalid Bool := do
  let rtpParameters ← validateRtpParameters rtpParameters
  let codecs ← rtpParameters.readOrNull "codecs"
  if codecs.size = 0 then return false
  else
    let firstMediaCodec ← codecs.readIdx 0
    (ext.codecs.anyM fun codec =>
      return codec.remotePayloadType.eqv (← firstMediaCodec.readOrNull "payloadType") :
        Except Fault Bool)

/-- The queries say what the builders do. -/
structure QueriesAgree (ext : ExtendedRtpCapabilities) : Prop where
  send : ∀ kind, ∃ can sent answered, canSend kind ext = .ok can ∧
    getSendingRtpParameters kind ext = .ok sent ∧
    getSendingRemoteRtpParameters kind ext = .ok answered ∧
    (can = true ↔ codecsOf sent ≠ []) ∧ (can = true ↔ codecsOf answered ≠ [])
  receive : ∀ params valid, validateRtpParameters params = .ok valid →
    ∃ can recv, canReceive params ext = .ok can ∧ getRecvRtpCapabilities ext = .ok recv ∧
      (can = true ↔ ∃ first rest, codecsOf valid = first :: rest ∧
        ∃ codec ∈ codecsOf recv, isRtxCodec codec = .ok false ∧
          (payloadTypeOf codec).eqv (sentType first) = true)

/-! ### Searches that succeed -/

theorem anyM_eq {ε α : Type} {p : α → Except ε Bool} {q : α → Bool} {xs : List α}
    (h : ∀ x ∈ xs, p x = .ok (q x)) : xs.anyM p = .ok (xs.any q) := by
  induction xs with
  | nil => rfl
  | cons x xs ih =>
    unfold List.anyM
    rw [h x (List.mem_cons_self ..), ok_bind, List.any_cons]
    cases q x with
    | true => rfl
    | false => exact ih fun y hy => h y (List.mem_cons_of_mem _ hy)

section
variable {ext : ExtendedRtpCapabilities} {kind : String}

theorem canSend_eq (h : ∀ e ∈ ext.codecs, ExtendedShape e) :
    canSend kind ext = .ok (ext.codecs.any (ofKind kind)) := by
  refine anyM_eq fun e he => ?_
  obtain ⟨k, hk, hof⟩ := (h e he).toStr_kind
  rw [hk, hof]
  rfl

/-- The codecs of validated parameters: an array of objects. -/
theorem codecsOf_validParams {params valid : Json} (h : validateRtpParameters params = .ok valid) :
    valid.readOrNull "codecs" = .ok (.arr (codecsOf valid)) ∧
      ∀ c ∈ codecsOf valid, c.isObject = true := by
  obtain ⟨m, m', rfl, rfl, hok⟩ := validateRtpParameters_ok h
  obtain ⟨codecs, codecs', -, hmap, hget⟩ := hok.codecs
  have hlist : codecsOf (.obj m') = codecs' := by
    rw [codecsOf]
    change ((Lib.get "codecs" m').getD .null).elems = codecs'
    rw [hget]
    rfl
  rw [hlist]
  refine ⟨?_, fun c hc => ?_⟩
  · change Except.ok ((Lib.get "codecs" m').getD .null) = _
    rw [hget]
    rfl
  · obtain ⟨raw, -, hval⟩ := mem_of_forall₂ (mapM_ok hmap) hc
    obtain ⟨_, _, codec, -, -, rfl, -⟩ := validateRtpCodecParameters_ok hval
    rfl

theorem canReceive_nil {params valid : Json} (h : validateRtpParameters params = .ok valid)
    (hnil : codecsOf valid = []) : canReceive params ext = .ok false := by
  obtain ⟨hread, -⟩ := codecsOf_validParams h
  rw [hnil] at hread
  exact bind_ok.mpr ⟨valid, h, bind_ok.mpr ⟨_, lift_ok.mpr hread, rfl⟩⟩

theorem canReceive_cons {params valid first : Json} {rest : List Json}
    (h : validateRtpParameters params = .ok valid) (hcons : codecsOf valid = first :: rest) :
    canReceive params ext =
      .ok (ext.codecs.any fun e => e.remotePayloadType.eqv (sentType first)) := by
  obtain ⟨hread, hobj⟩ := codecsOf_validParams h
  rw [hcons] at hread hobj
  have hfirst := readOrNull_of_isObject (hobj first (List.mem_cons_self ..)) "payloadType"
  have hany : ext.codecs.anyM (fun codec =>
      return codec.remotePayloadType.eqv (← first.readOrNull "payloadType")) =
      (.ok (ext.codecs.any fun e => e.remotePayloadType.eqv (sentType first)) :
        Except Fault Bool) := anyM_eq fun e _ => by
    rw [hfirst]
    rfl
  exact bind_ok.mpr ⟨valid, h, bind_ok.mpr ⟨_, lift_ok.mpr hread,
    bind_ok.mpr ⟨first, rfl, lift_ok.mpr hany⟩⟩⟩

/-! ### What the builders list -/

theorem Emitted.ne_nil {key : String} {payloadType rtxPayloadType : Json} {out : List Json}
    (h : Emitted key payloadType rtxPayloadType out) : out ≠ [] := by
  obtain ⟨codec, -, -, ⟨-, rfl⟩ | ⟨-, rtx, apt, -, -, -, -, rfl⟩⟩ := h
  · exact List.cons_ne_nil _ _
  · exact List.cons_ne_nil _ _

/-- The media codec of what is emitted, and no other. -/
theorem Emitted.media {payloadType rtxPayloadType : Json} {out : List Json} {v : Json}
    (h : Emitted "preferredPayloadType" payloadType rtxPayloadType out) :
    (∃ codec ∈ out, isRtxCodec codec = .ok false ∧ (payloadTypeOf codec).eqv v = true) ↔
      payloadType.eqv v = true := by
  obtain ⟨codec, hpt, hno, hcase⟩ := h
  have htype : payloadTypeOf codec = payloadType := by
    rw [payloadTypeOf, hpt]
    rfl
  rcases hcase with ⟨-, rfl⟩ | ⟨-, rtx, apt, -, hyes, -, -, rfl⟩
  · constructor
    · rintro ⟨c, hc, -, heqv⟩
      rw [List.mem_singleton.mp hc, htype] at heqv
      exact heqv
    · exact fun heqv => ⟨codec, List.mem_singleton_self _, hno, by rw [htype]; exact heqv⟩
  · constructor
    · rintro ⟨c, hc, hrtx, heqv⟩
      rcases List.mem_cons.mp hc with rfl | hc
      · rwa [htype] at heqv
      · rw [List.mem_singleton.mp hc, hyes] at hrtx
        cases hrtx
    · exact fun heqv => ⟨codec, List.mem_cons_self .., hno, by rw [htype]; exact heqv⟩

theorem sending_ne_nil {sent : Json} (h : ∀ e ∈ ext.codecs, ExtendedShape e)
    (hs : getSendingRtpParameters kind ext = .ok sent) :
    ext.codecs.any (ofKind kind) = true ↔ codecsOf sent ≠ [] := by
  obtain ⟨codecs, hcodecs, -, hsent⟩ := getSending_ok hs
  rw [firstOfKind_eq h] at hcodecs
  rw [hsent, List.any_eq_true, ← List.find?_isSome]
  cases hfind : ext.codecs.find? (ofKind kind) with
  | none =>
    rw [hfind] at hcodecs
    cases hcodecs
    exact iff_of_false (by decide) fun hne => hne rfl
  | some e =>
    rw [hfind] at hcodecs
    obtain ⟨out, hout, hemit⟩ := sendingCodecs_emitted (h e (List.mem_of_find?_eq_some hfind))
    cases hout.symm.trans hcodecs
    exact iff_of_true rfl hemit.ne_nil

theorem sendingRemote_ne_nil {answered : Json} (h : ∀ e ∈ ext.codecs, ExtendedShape e)
    (ha : getSendingRemoteRtpParameters kind ext = .ok answered) :
    ext.codecs.any (ofKind kind) = true ↔ codecsOf answered ≠ [] := by
  obtain ⟨outs, houts, hsame⟩ := getSendingRemote_ok h ha
  have hnil : codecsOf answered ≠ [] ↔ outs.flatten ≠ [] := by
    rw [← List.length_pos_iff, ← List.length_pos_iff, hsame.length_eq]
  rw [hnil, List.any_eq_true]
  constructor
  · rintro ⟨e, he, hof⟩ hflat
    obtain ⟨out, hmem, hout⟩ := mem_of_forall₂ houts.flip he
    obtain ⟨out', hout', -, hyes, -⟩ := answeredCodecs_total (h e he) kind
    cases hout'.symm.trans hout
    exact (hyes hof).ne_nil (List.flatten_eq_nil_iff.mp hflat _ hmem)
  · intro hne
    by_contra hno
    refine hne (List.flatten_eq_nil_iff.mpr fun out hmem => ?_)
    obtain ⟨e, he, hout⟩ := mem_of_forall₂ houts hmem
    obtain ⟨out', hout', -, -, hnone⟩ := answeredCodecs_total (h e he) kind
    cases hout'.symm.trans hout
    cases hof : ofKind kind e with
    | false => exact hnone hof
    | true => exact absurd ⟨e, he, hof⟩ hno

/-- The media codecs that can be received are the extended ones. -/
theorem recv_media {recv v : Json} (h : ∀ e ∈ ext.codecs, ExtendedShape e)
    (hrecv : getRecvRtpCapabilities ext = .ok recv) :
    (ext.codecs.any fun e => e.remotePayloadType.eqv v) = true ↔
      ∃ codec ∈ codecsOf recv, isRtxCodec codec = .ok false ∧
        (payloadTypeOf codec).eqv v = true := by
  obtain ⟨outs, -, houts, -, -, hlist⟩ := getRecv_ok hrecv
  rw [hlist, List.any_eq_true]
  constructor
  · rintro ⟨e, he, heqv⟩
    obtain ⟨out, hmem, hout⟩ := mem_of_forall₂ houts.flip he
    obtain ⟨out', hout', hemit⟩ := recvCodecs_emitted (h e he)
    cases hout'.symm.trans hout
    obtain ⟨codec, hc, hcodec⟩ := hemit.media.mpr heqv
    exact ⟨codec, List.mem_flatten.mpr ⟨_, hmem, hc⟩, hcodec⟩
  · rintro ⟨codec, hc, hcodec⟩
    obtain ⟨out, hmem, hc⟩ := List.mem_flatten.mp hc
    obtain ⟨e, he, hout⟩ := mem_of_forall₂ houts hmem
    obtain ⟨out', hout', hemit⟩ := recvCodecs_emitted (h e he)
    cases hout'.symm.trans hout
    exact ⟨e, he, hemit.media.mp ⟨codec, hc, hcodec⟩⟩

end

/-! ### The agreement -/

section
variable {P : Type} [DecidableEq P] {profile : String → Option P} {webrtc : WebRtc}
variable {localCaps remoteCaps validLocal validRemote : Json} {ext : ExtendedRtpCapabilities}

/-- CORRECT: the queries agree with the builders exactly if the matched header extensions have one of
    the four directions. -/
theorem queries_agree_iff (hw : webrtc.Lawful profile)
    (hl : validateRtpCapabilities localCaps = .ok validLocal)
    (hr : validateRtpCapabilities remoteCaps = .ok validRemote)
    (h : getExtendedRtpCapabilities webrtc localCaps remoteCaps = .ok ext) :
    QueriesAgree ext ↔ ∀ kind ∈ ["audio", "video"],
      DirectionsKnown kind (headerExtensionsOf validLocal) (headerExtensionsOf validRemote) := by
  have hn := getExtended_ok hw hl hr h
  have hheaders := headerShape_validated hr
  constructor
  · intro hagree kind _
    obtain ⟨_, sent, _, -, hsent, -⟩ := hagree.send kind
    exact (hn.sending_returns hheaders kind).mp ⟨sent, hsent⟩
  · intro hknown
    have hall : HaveDirections (fun _ => True) ext.headerExtensions :=
      (getRecv_returns hn.codecs).mp ((hn.recv_returns hheaders).mpr hknown)
    refine ⟨fun kind => ?_, fun params valid hvalid => ?_⟩
    · have hkind : HaveDirections (fun e => e.kind = .str kind) ext.headerExtensions :=
        fun e he _ => hall e he trivial
      obtain ⟨sent, hsent⟩ := (getSending_returns hn.codecs hn.extended).mpr hkind
      obtain ⟨answered, hanswered⟩ := (getSendingRemote_returns hn.codecs hn.extended).mpr hkind
      exact ⟨_, sent, answered, canSend_eq hn.codecs, hsent, hanswered,
        sending_ne_nil hn.codecs hsent, sendingRemote_ne_nil hn.codecs hanswered⟩
    · obtain ⟨recv, hrecv⟩ := (getRecv_returns hn.codecs).mpr hall
      cases hlist : codecsOf valid with
      | nil =>
        refine ⟨false, recv, canReceive_nil hvalid hlist, hrecv, ?_⟩
        exact iff_of_false (by decide) fun ⟨_, _, hc, _⟩ => by cases hc
      | cons first rest =>
        refine ⟨_, recv, canReceive_cons hvalid hlist, hrecv, ?_⟩
        rw [recv_media hn.codecs hrecv]
        constructor
        · exact fun hex => ⟨first, rest, rfl, hex⟩
        · rintro ⟨first', rest', hc, hex⟩
          cases hc
          exact hex

end

/-! ### Runs -/

theorem queries_agree_video : ∃ validLocal validRemote ext,
    validateRtpCapabilities (vp8Vp9Capabilities 96 "sendrecv") = .ok validLocal ∧
      validateRtpCapabilities (vp8Vp9Capabilities 101 "recvonly") = .ok validRemote ∧
      getExtendedRtpCapabilities sampleWebRtc (vp8Vp9Capabilities 96 "sendrecv")
        (vp8Vp9Capabilities 101 "recvonly") = .ok ext ∧ ext.codecs.length = 2 ∧
      QueriesAgree ext := by
  obtain ⟨validLocal, hl, -⟩ := exists_of_map (fun _ => ())
    (show (validateRtpCapabilities (vp8Vp9Capabilities 96 "sendrecv")).toOption.map _ = some () from rfl)
  obtain ⟨validRemote, hr, hdirs⟩ := exists_of_map (fun caps => (headerExtensionsOf caps).map directionOf)
    (show (validateRtpCapabilities (vp8Vp9Capabilities 101 "recvonly")).toOption.map _ =
      some ["recvonly", "sendrecv"] from rfl)
  obtain ⟨ext, h, hlength⟩ := exists_of_map (fun r => r.codecs.length)
    (show (getExtendedRtpCapabilities sampleWebRtc (vp8Vp9Capabilities 96 "sendrecv")
      (vp8Vp9Capabilities 101 "recvonly")).toOption.map _ = some 2 from rfl)
  refine ⟨validLocal, validRemote, ext, hl, hr, h, hlength, ?_⟩
  refine (queries_agree_iff sampleWebRtc_lawful hl hr h).mpr fun _ _ r hmem _ _ => ?_
  exact directions_of_map hdirs (by decide) r hmem

/-- A codec can be sent, and its parameters cannot be made. -/
theorem sendable_without_parameters : ∃ ext,
    getExtendedRtpCapabilities sampleWebRtc (vp8Capabilities "sendrecv")
        (vp8Capabilities "both") = .ok ext ∧
      canSend "video" ext = .ok true ∧ ¬ QueriesAgree ext := by
  obtain ⟨ext, h, hrun⟩ := exists_of_map
    (fun r => ((canSend "video" r).toOption,
      (getSendingRtpParameters "video" r).toOption.isNone))
    (show (getExtendedRtpCapabilities sampleWebRtc (vp8Capabilities "sendrecv")
      (vp8Capabilities "both")).toOption.map _ = some (some true, true) from rfl)
  obtain ⟨hcan, hnone⟩ := Prod.mk.inj hrun
  refine ⟨ext, h, toOption_eq_some.mp hcan, fun hagree => ?_⟩
  obtain ⟨_, sent, _, -, hsent, -⟩ := hagree.send "video"
  rw [hsent] at hnone
  cases hnone

end MediasoupClient.Sdp
