import MediasoupClient.Sdp.Pipeline

/-! The codecs of an offer and of its answer.

        extended codecs           audio   video₁   rtx₁   video₂   rtx₂
                                            │        │       │       │
        sending parameters                  ▼        ▼
        remote sending parameters           ▼        ▼       ▼       ▼
        reduced                             ▼        ▼

    The one builder stops at the first codec of the kind, the other lists them all; both are reduced
    to the first codec and the rtx codec behind it. Behind a codec without rtx codec stands another
    media codec or nothing, so both reductions are the same. -/

namespace MediasoupClient.Sdp
open Lib

/-! ### The offer and the answer -/

/-- `send_rtp_param` and `send_remote_rtp_param` of `enable_video`. -/
def offerAndAnswer (kind : String) (ext : ExtendedRtpCapabilities) : Except Fault (Json × Json) := do
  let sendRtpParam ← getSendingRtpParameters kind ext
  let sendRtpParam ← sendRtpParam.write "codecs" (.arr (← reduceCodecs (codecsOf sendRtpParam)))
  let sendRemoteRtpParam ← getSendingRemoteRtpParameters kind ext
  let sendRemoteRtpParam ←
    sendRemoteRtpParam.write "codecs" (.arr (← reduceCodecs (codecsOf sendRemoteRtpParam)))
  return (sendRtpParam, sendRemoteRtpParam)

/-- The lookup of a codec of the answer among those of the offer. -/
def offerCodecOf (offerCodecs : List Json) (codec : Json) : Except Fault (Option ℕ) := do
  let payloadType ← codec.readOrNull "payloadType"
  findIdx (fun offerCodec =>
    return (← offerCodec.readOrNull "payloadType").eqv payloadType) offerCodecs

/-- The options are applied to what the lookup finds. -/
theorem applyOptions_finds {codecOptions codec codecParameters offer : Json} {r : Json × Json}
    (h : applyOptions codecOptions codec codecParameters offer = .ok r) :
    ∃ offerCodecs idx, offer.readOrNull "codecs" = .ok offerCodecs ∧
      offerCodecOf offerCodecs.elems codec = .ok (some idx) := by
  obtain ⟨offerCodecs, hcodecs, h⟩ := bind_ok.mp h
  obtain ⟨payloadType, hpt, h⟩ := bind_ok.mp h
  obtain ⟨idx, hidx, h⟩ := bind_ok.mp h
  cases idx with
  | none => cases h
  | some idx => exact ⟨offerCodecs, idx, hcodecs, bind_ok.mpr ⟨payloadType, hpt, hidx⟩⟩

/-- Nothing found is the end of the list, and that is dereferenced. -/
theorem applyOptions_not_found {codecOptions codec codecParameters offer offerCodecs : Json}
    (hcodecs : offer.readOrNull "codecs" = .ok offerCodecs)
    (h : offerCodecOf offerCodecs.elems codec = .ok none) :
    applyOptions codecOptions codec codecParameters offer = .error .undefined := by
  obtain ⟨payloadType, hpt, hidx⟩ := bind_ok.mp h
  unfold applyOptions
  simp only [hcodecs, hpt, hidx, ok_bind]

/-- The payload type of a sent codec. -/
def sentType (codec : Json) : Json := (codec.find "payloadType").getD .null

/-- The offer and the answer have the same payload types, and while the options are applied to the
    codecs of the answer, each of them finds its codec in the offer. -/
def AnswerAgrees (kind : String) (ext : ExtendedRtpCapabilities) : Prop :=
  ∃ offer answer, offerAndAnswer kind ext = .ok (offer, answer) ∧
    (codecsOf answer).map sentType = (codecsOf offer).map sentType ∧
    ∀ codecOptions before codec after lines offer', codecsOf answer = before ++ codec :: after →
      answerCodecs codecOptions offer before = .ok (lines, offer') →
        ∃ idx, offerCodecOf (codecsOf offer') codec = .ok (some idx)

/-! ### Reducing -/

theorem SameButFeedback.isRtxCodec {c c' : Json} (h : SameButFeedback c c') {b : Bool}
    (hc : isRtxCodec c = .ok b) : isRtxCodec c' = .ok b := by
  obtain ⟨v, hv, hc⟩ := bind_ok.mp hc
  obtain ⟨mimeType, ht, hc⟩ := bind_ok.mp hc
  refine bind_ok.mpr ⟨v, read_of_find ?_, bind_ok.mpr ⟨mimeType, ht, hc⟩⟩
  rw [h _ (by decide), Json.read_ok.mp hv]

theorem isObject_of_isRtxCodec {c : Json} {b : Bool} (h : isRtxCodec c = .ok b) :
    c.isObject = true := by
  obtain ⟨v, hv, -⟩ := bind_ok.mp h
  cases c with
  | obj m => rfl
  | _ => cases hv

/-- The reduction of codecs whose first ones come from one extended codec. -/
theorem reduceCodecs_emitted {payloadType rtxPayloadType : Json} {out rest cs : List Json}
    (h : Emitted "payloadType" payloadType rtxPayloadType out)
    (hrest : ∀ c, rest.head? = some c → isRtxCodec c = .ok false)
    (hcs : List.Forall₂ SameButFeedback (out ++ rest) cs) :
    ∃ reduced, reduceCodecs cs = .ok reduced ∧
      reduced.map sentType = payloadType :: (if rtxPayloadType.isNull then [] else [rtxPayloadType]) ∧
      ∀ c ∈ reduced, c.isObject = true := by
  obtain ⟨codec, hpt, hno, hcase⟩ := h
  have htype : ∀ {c c' v : Json}, SameButFeedback c c' → c.find "payloadType" = some v →
      sentType c' = v := fun hsame hv => by
    rw [sentType, hsame _ (by decide), hv]
    rfl
  rcases hcase with ⟨rfl, rfl⟩ | ⟨hne, rtx, apt, hrpt, hrtx, -, -, rfl⟩
  · cases hcs with
    | @cons _ c' _ cs' hc hcs =>
      have hred : reduceCodecs (c' :: cs') = .ok [c'] := by
        cases cs' with
        | nil => rfl
        | cons d ds =>
          cases rest with
          | nil => cases hcs
          | cons r rs =>
            cases hcs with
            | cons hr _ =>
              unfold reduceCodecs
              simp only [hr.isRtxCodec (hrest r rfl)]
              rfl
      refine ⟨[c'], hred, by rw [List.map_singleton, htype hc hpt]; rfl, fun c hmem => ?_⟩
      rw [List.mem_singleton.mp hmem]
      exact isObject_of_isRtxCodec (hc.isRtxCodec hno)
  · cases hcs with
    | @cons _ c' _ _ hc hcs =>
      cases hcs with
      | @cons _ d _ ds hd _ =>
        have hred : reduceCodecs (c' :: d :: ds) = .ok [c', d] := by
          unfold reduceCodecs
          simp only [hd.isRtxCodec hrtx]
          rfl
        have hnull : rtxPayloadType.isNull = false := by
          cases hn : rtxPayloadType.isNull with
          | false => rfl
          | true => exact absurd (isNull_iff.mp hn) hne
        refine ⟨[c', d], hred, ?_, fun c hmem => ?_⟩
        · rw [hnull, List.map_cons, List.map_singleton, htype hc hpt, htype hd hrpt]
          rfl
        · rcases List.mem_cons.mp hmem with rfl | hmem
          · exact isObject_of_isRtxCodec (hc.isRtxCodec hno)
          · rw [List.mem_singleton.mp hmem]
            exact isObject_of_isRtxCodec (hd.isRtxCodec hrtx)

/-- The codecs of the remote sending parameters start with those of the first codec of the kind, and
    go on with a media codec. -/
theorem answered_first {kind : String} {codecs : List ExtendedCodec} {outs : List (List Json)}
    {e : ExtendedCodec} (hshapes : ∀ e ∈ codecs, ExtendedShape e)
    (houts : List.Forall₂ (fun e out => answeredCodecs kind e = .ok out) codecs outs)
    (hfind : codecs.find? (ofKind kind) = some e) :
    ∃ out rest, outs.flatten = out ++ rest ∧
      Emitted "payloadType" e.localPayloadType e.localRtxPayloadType out ∧
      ∀ c, rest.head? = some c → isRtxCodec c = .ok false := by
  -- whatever is emitted starts with a media codec
  have hhead : ∀ {codecs : List ExtendedCodec} {outs : List (List Json)},
      (∀ e ∈ codecs, ExtendedShape e) →
      List.Forall₂ (fun e out => answeredCodecs kind e = .ok out) codecs outs →
      ∀ c, outs.flatten.head? = some c → isRtxCodec c = .ok false := by
    intro codecs outs hshapes houts
    induction houts with
    | nil => exact fun c hc => by cases hc
    | @cons x out _ _ hx _ ih =>
      obtain ⟨out', hout', -, hyes, hno⟩ :=
        answeredCodecs_total (hshapes x (List.mem_cons_self ..)) kind
      cases hout'.symm.trans hx
      cases hof : ofKind kind x with
      | false =>
        rw [hno hof]
        exact ih fun y hy => hshapes y (List.mem_cons_of_mem _ hy)
      | true =>
        obtain ⟨codec, -, hrtx, hcase⟩ := hyes hof
        intro c hc
        rcases hcase with ⟨-, rfl⟩ | ⟨-, rtx, apt, -, -, -, -, rfl⟩
        · cases hc; exact hrtx
        · cases hc; exact hrtx
  induction houts with
  | nil => cases hfind
  | @cons x out _ outs hx hrest ih =>
    have hx' := hshapes x (List.mem_cons_self ..)
    have hshapes' := fun y hy => hshapes y (List.mem_cons_of_mem _ hy)
    obtain ⟨out', hout', -, hyes, hno⟩ := answeredCodecs_total hx' kind
    cases hout'.symm.trans hx
    rw [List.find?_cons] at hfind
    cases hof : ofKind kind x with
    | true =>
      rw [hof] at hfind
      cases hfind
      exact ⟨out, outs.flatten, rfl, hyes hof, hhead hshapes' hrest⟩
    | false =>
      rw [hof] at hfind
      rw [hno hof]
      exact ih hshapes' hfind

/-! ### The loop over the answer -/

/-- The offered parameters have codecs of these payload types. -/
def Offers (types : List Json) (offer : Json) : Prop :=
  ∃ codecs, offer.find "codecs" = some (.arr codecs) ∧ (∀ c ∈ codecs, c.isObject = true) ∧
    codecs.map sentType = types

theorem eqv_self_of_type {v : Json} (h : v = .null ∨ v.isNumberInteger = true) :
    v.eqv v = true := by
  rcases h with rfl | h
  · rfl
  · exact eqv_self_of_integer h

/-- A codec of one of the payload types is found. -/
theorem Offers.finds {types : List Json} {offer codec : Json} (h : Offers types offer)
    (hobj : codec.isObject = true) (hmem : sentType codec ∈ types)
    (htype : sentType codec = .null ∨ (sentType codec).isNumberInteger = true) :
    ∃ idx, offerCodecOf (codecsOf offer) codec = .ok (some idx) := by
  obtain ⟨codecs, hcodecs, hall, rfl⟩ := h
  have hlist : codecsOf offer = codecs := by
    rw [codecsOf, hcodecs]
    rfl
  have hsearch : findIdx (fun c => do return (← c.readOrNull "payloadType").eqv (sentType codec))
      codecs = .ok (codecs.findIdx? fun c => (sentType c).eqv (sentType codec)) :=
    findIdx_eq fun c hc => by
      rw [readOrNull_of_isObject (hall c hc)]
      rfl
  obtain ⟨c, hc, heq⟩ := List.mem_map.mp hmem
  have hsome : (codecs.findIdx? fun c => (sentType c).eqv (sentType codec)).isSome = true := by
    rw [List.findIdx?_isSome, List.any_eq_true]
    exact ⟨c, hc, by rw [heq]; exact eqv_self_of_type htype⟩
  obtain ⟨idx, hidx⟩ := Option.isSome_iff_exists.mp hsome
  rw [hidx] at hsearch
  rw [hlist]
  exact ⟨idx, bind_ok.mpr ⟨sentType codec, readOrNull_of_isObject hobj _, hsearch⟩⟩

/-- An option changes the parameters of the offered codec only. -/
theorem applyOption_keeps {codecOptions : Json} {o : CodecOption} {st st' : Json × Json}
    (h : applyOption codecOptions st o = .ok st') :
    (st.2.isObject = true → st'.2.isObject = true) ∧ sentType st'.2 = sentType st.2 := by
  unfold applyOption at h
  split at h
  · cases h; exact ⟨fun h => h, rfl⟩
  · obtain ⟨v, -, h⟩ := bind_ok.mp h
    split at h
    · obtain ⟨offerCodec, hoffer, h⟩ := bind_ok.mp h
      obtain ⟨answer, -, h⟩ := bind_ok.mp h
      cases hoffer
      cases h
      exact ⟨fun h => h, rfl⟩
    · obtain ⟨parameters, -, h⟩ := bind_ok.mp h
      obtain ⟨parameters', -, h⟩ := bind_ok.mp h
      obtain ⟨offerCodec, hwrite, h⟩ := bind_ok.mp h
      obtain ⟨answer, -, h⟩ := bind_ok.mp h
      cases h
      have hfind := Json.find_write hwrite "payloadType"
      rw [if_neg (by decide)] at hfind
      refine ⟨fun hobj => ?_, by rw [sentType, hfind]; rfl⟩
      cases hst : st.2 with
      | obj m => rw [hst] at hwrite; cases hwrite; rfl
      | _ => rw [hst] at hobj; cases hobj

/-- The codecs of the offer keep their payload types when options are applied. -/
theorem Offers.applyOptions {types : List Json} {codecOptions codec codecParameters offer : Json}
    {r : Json × Json} (hoffer : Offers types offer)
    (h : applyOptions codecOptions codec codecParameters offer = .ok r) : Offers types r.2 := by
  obtain ⟨codecs, hcodecs, hall, htypes⟩ := hoffer
  obtain ⟨offerCodecs, hread, h⟩ := bind_ok.mp h
  have hlist : offerCodecs = .arr codecs := by rw [Json.readOrNull_ok hread, hcodecs]; rfl
  subst hlist
  obtain ⟨payloadType, -, h⟩ := bind_ok.mp h
  obtain ⟨idx, hidx, h⟩ := bind_ok.mp h
  cases idx with
  | none => cases h
  | some i =>
    obtain ⟨mimeType, -, h⟩ := bind_ok.mp h
    obtain ⟨text, -, h⟩ := bind_ok.mp h
    obtain ⟨⟨parameters, offerCodec⟩, hloop, h⟩ := bind_ok.mp h
    obtain ⟨offer', hwrite, h⟩ := bind_ok.mp h
    cases h
    obtain ⟨c, hget, -⟩ := findIdx_get hidx
    change codecs[i]? = some c at hget
    obtain ⟨hobj, htype⟩ := foldlM_keeps
      (I := fun st => (c.isObject = true → st.2.isObject = true) ∧ sentType st.2 = sentType c)
      (fun hstep hst => by
        obtain ⟨hobj, htype⟩ := applyOption_keeps hstep
        exact ⟨fun hc => hobj (hst.1 hc), htype.trans hst.2⟩) hloop
      (by
        change (c.isObject = true → (codecs.getD i .null).isObject = true) ∧
          sentType (codecs.getD i .null) = sentType c
        rw [List.getD_eq_getElem?_getD, hget]
        exact ⟨fun hc => hc, rfl⟩)
    refine ⟨codecs.set i offerCodec, ?_, fun x hx => ?_, ?_⟩
    · rw [Json.find_write hwrite, if_pos rfl]
      rfl
    · rcases List.mem_or_eq_of_mem_set hx with hx | rfl
      · exact hall x hx
      · exact hobj (hall c (List.mem_of_getElem? hget))
    · obtain ⟨hi, hci⟩ := List.getElem?_eq_some_iff.mp hget
      have hi' : i < (codecs.map sentType).length := by rw [List.length_map]; exact hi
      have hself : sentType offerCodec = (codecs.map sentType)[i] := by
        rw [List.getElem_map, hci]
        exact htype
      rw [List.map_set, hself, List.set_getElem_self, htypes]

/-- So they do over the whole loop. -/
theorem Offers.answerCodecs {types : List Json} {codecOptions : Option Json} {offer : Json}
    {codecs : List Json} {r : RtpLines × Json} (hoffer : Offers types offer)
    (h : answerCodecs codecOptions offer codecs = .ok r) : Offers types r.2 := by
  refine foldlM_keeps (I := fun st => Offers types st.2) (fun {st codec st'} hstep hst => ?_) h hoffer
  obtain ⟨rtp, -, hstep⟩ := bind_ok.mp hstep
  obtain ⟨codecParameters, -, hstep⟩ := bind_ok.mp hstep
  cases codecOptions with
  | none =>
    obtain ⟨_, hsame, hstep⟩ := bind_ok.mp hstep
    cases hsame
    obtain ⟨lines, -, hstep⟩ := bind_ok.mp hstep
    cases hstep
    exact hst
  | some options =>
    simp only at hstep
    split_ifs at hstep
    · obtain ⟨_, hsame, hstep⟩ := bind_ok.mp hstep
      cases hsame
      obtain ⟨lines, -, hstep⟩ := bind_ok.mp hstep
      cases hstep
      exact hst
    · obtain ⟨⟨parameters, offer'⟩, happly, hstep⟩ := bind_ok.mp hstep
      obtain ⟨lines, -, hstep⟩ := bind_ok.mp hstep
      cases hstep
      exact hst.applyOptions happly

/-! ### The agreement -/

/-- The members of the sending parameters. -/
theorem getSending_ok {kind : String} {ext : ExtendedRtpCapabilities} {params : Json}
    (h : getSendingRtpParameters kind ext = .ok params) :
    ∃ codecs, firstOfKind kind ext.codecs = .ok codecs ∧ params.isObject = true ∧
      codecsOf params = codecs := by
  obtain ⟨codecs, hcodecs, h⟩ := bind_ok.mp h
  obtain ⟨exts, -, h⟩ := bind_ok.mp h
  cases h
  refine ⟨codecs, hcodecs, rfl, ?_⟩
  simp [codecsOf, Json.object, Json.find, get_put, Json.elems]

theorem getSendingRemote_isObject {kind : String} {ext : ExtendedRtpCapabilities} {params : Json}
    (h : getSendingRemoteRtpParameters kind ext = .ok params) : params.isObject = true := by
  obtain ⟨codecs, -, h⟩ := bind_ok.mp h
  obtain ⟨exts, -, h⟩ := bind_ok.mp h
  obtain ⟨unused, -, h⟩ := bind_ok.mp h
  obtain ⟨codecs', -, h⟩ := bind_ok.mp h
  cases h
  rfl

theorem codecsOf_write {params params' : Json} {codecs : List Json}
    (h : params.write "codecs" (.arr codecs) = .ok params') :
    params'.find "codecs" = some (.arr codecs) ∧ codecsOf params' = codecs := by
  have hfind := Json.find_write h "codecs"
  rw [if_pos rfl] at hfind
  exact ⟨hfind, by rw [codecsOf, hfind]; rfl⟩

/-- The members of an object can be replaced. -/
theorem write_total {j : Json} (h : j.isObject = true) (key : String) (v : Json) :
    ∃ j', j.write key v = .ok j' := by
  cases j with
  | obj m => exact ⟨_, rfl⟩
  | _ => cases h

section
variable {P : Type} [DecidableEq P] {profile : String → Option P} {webrtc : WebRtc}
variable {localCaps remoteCaps validLocal validRemote : Json} {ext : ExtendedRtpCapabilities}
variable {kind : String}

/-- The offer and the answer agree once both are made. -/
theorem offer_answer_agree {ext : ExtendedRtpCapabilities} {sent answered : Json}
    (hshapes : ∀ e ∈ ext.codecs, ExtendedShape e) (hkind : ∃ e ∈ ext.codecs, ofKind kind e = true)
    (hs : getSendingRtpParameters kind ext = .ok sent)
    (ha : getSendingRemoteRtpParameters kind ext = .ok answered) :
    ∃ types offered answer, reduceCodecs (codecsOf sent) = .ok offered ∧
      reduceCodecs (codecsOf answered) = .ok answer ∧ offered.map sentType = types ∧
      answer.map sentType = types ∧ (∀ c ∈ offered, c.isObject = true) ∧
      (∀ c ∈ answer, c.isObject = true) ∧ ∀ t ∈ types, t = .null ∨ t.isNumberInteger = true := by
  obtain ⟨e, hfind⟩ : ∃ e, ext.codecs.find? (ofKind kind) = some e :=
    Option.isSome_iff_exists.mp (List.find?_isSome.mpr hkind)
  have he := hshapes e (List.mem_of_find?_eq_some hfind)
  obtain ⟨codecs, hcodecs, -, hsent⟩ := getSending_ok hs
  rw [firstOfKind_eq hshapes, hfind] at hcodecs
  obtain ⟨out, hout, hemit⟩ := sendingCodecs_emitted he
  cases hout.symm.trans hcodecs
  have hsame : List.Forall₂ SameButFeedback (codecs ++ []) codecs := by
    rw [List.append_nil]
    exact List.forall₂_same.mpr fun c _ k _ => rfl
  obtain ⟨outs, houts, hanswered⟩ := getSendingRemote_ok hshapes ha
  obtain ⟨out', rest, hflat, hemit', hrest⟩ := answered_first hshapes houts hfind
  rw [hflat] at hanswered
  obtain ⟨answer, hra, hta, hoa⟩ := reduceCodecs_emitted hemit' hrest hanswered
  obtain ⟨offered, hro, hto, hoo⟩ := reduceCodecs_emitted hemit (fun c hc => by cases hc) hsame
  refine ⟨_, offered, answer, by rw [hsent]; exact hro, hra, hto, hta, hoo, hoa, fun t ht => ?_⟩
  rcases List.mem_cons.mp ht with rfl | ht
  · exact he.localPayloadType
  · split_ifs at ht with hnull
    · cases ht
    · rw [List.mem_singleton.mp ht]
      exact he.localRtx.imp_right fun h => h.1

/-- CORRECT: the codecs of the offer and those of the answer agree exactly if the header extensions
    of the kind have one of the four directions. -/
theorem answer_agrees_iff (hw : webrtc.Lawful profile)
    (hl : validateRtpCapabilities localCaps = .ok validLocal)
    (hr : validateRtpCapabilities remoteCaps = .ok validRemote)
    (h : getExtendedRtpCapabilities webrtc localCaps remoteCaps = .ok ext)
    (hkind : ∃ e ∈ ext.codecs, e.kind.toStr = .ok kind) :
    AnswerAgrees kind ext ↔
      DirectionsKnown kind (headerExtensionsOf validLocal) (headerExtensionsOf validRemote) := by
  have hn := getExtended_ok hw hl hr h
  have hheaders := headerShape_validated hr
  constructor
  · rintro ⟨offer, answer, hboth, -⟩
    obtain ⟨sent, hsent, -⟩ := bind_ok.mp hboth
    exact (hn.sending_returns hheaders kind).mp ⟨sent, hsent⟩
  · intro hknown
    obtain ⟨sent, hsent⟩ := (hn.sending_returns hheaders kind).mpr hknown
    obtain ⟨answered, hanswered⟩ := (hn.sendingRemote_returns hheaders kind).mpr hknown
    have hof : ∃ e ∈ ext.codecs, ofKind kind e = true := by
      obtain ⟨e, he, hk⟩ := hkind
      exact ⟨e, he, by rw [ofKind, hk]; exact decide_eq_true rfl⟩
    obtain ⟨types, offered, answer, hro, hra, hto, hta, hoo, hoa, htypes⟩ :=
      offer_answer_agree hn.codecs hof hsent hanswered
    obtain ⟨-, -, hsentObj, -⟩ := getSending_ok hsent
    obtain ⟨offer, hoffer⟩ := write_total hsentObj "codecs" (.arr offered)
    obtain ⟨answerParams, hanswer⟩ :=
      write_total (getSendingRemote_isObject hanswered) "codecs" (.arr answer)
    obtain ⟨hofind, holist⟩ := codecsOf_write hoffer
    obtain ⟨-, halist⟩ := codecsOf_write hanswer
    refine ⟨offer, answerParams, bind_ok.mpr ⟨sent, hsent, bind_ok.mpr ⟨offered, hro,
      bind_ok.mpr ⟨offer, hoffer, bind_ok.mpr ⟨answered, hanswered, bind_ok.mpr ⟨answer, hra,
        bind_ok.mpr ⟨answerParams, hanswer, rfl⟩⟩⟩⟩⟩⟩, by rw [halist, holist, hta, hto], ?_⟩
    intro codecOptions before codec after lines offer' hsplit hloop
    rw [halist] at hsplit
    have hmem : codec ∈ answer := by rw [hsplit]; simp
    have hoffers : Offers types offer := ⟨offered, hofind, hoo, hto⟩
    have htype : sentType codec ∈ types := hta ▸ List.mem_map_of_mem hmem
    exact (hoffers.answerCodecs hloop).finds (hoa codec hmem) htype (htypes _ htype)

end

/-! ### Runs -/

/-- Capabilities with a VP8 codec, and a header extension that is sent in this direction. -/
def vp8Capabilities (direction : String) : Json :=
  .object [
    ("codecs", .arr [.object [("mimeType", .str "video/VP8"),
      ("preferredPayloadType", .uint 96), ("clockRate", .uint 90000)]]),
    ("headerExtensions", .arr [.object [("kind", .str "video"),
      ("uri", .str "urn:3gpp:video-orientation"), ("preferredId", .uint 4),
      ("direction", .str direction)]])]

/-- A video codec with this feedback, and its rtx codec. -/
def codecWithRtx (mimeType : String) (payloadType : ℕ) (parameters : List (String × Json))
    (feedback : List String) : List Json :=
  [.object [("mimeType", .str mimeType), ("preferredPayloadType", .uint payloadType),
      ("clockRate", .uint 90000), ("parameters", .object parameters),
      ("rtcpFeedback", .arr (feedback.map fun type => .object [("type", .str type)]))],
    .object [("mimeType", .str "video/rtx"), ("preferredPayloadType", .uint (payloadType + 1)),
      ("clockRate", .uint 90000), ("parameters", .object [("apt", .uint payloadType)])]]

/-- Capabilities with two codecs, the feedback of the congestion control several times among the
    rest of it, and two header extensions: one sent in this direction, one for the control. -/
def vp8Vp9Capabilities (payloadType : ℕ) (direction : String) : Json :=
  .object [
    ("codecs", .arr (
      codecWithRtx "video/VP8" payloadType []
        ["goog-remb", "goog-remb", "transport-cc", "nack", "goog-remb"] ++
      codecWithRtx "video/VP9" (payloadType + 2) [("profile-id", .uint 2)]
        ["transport-cc", "goog-remb", "goog-remb"])),
    ("headerExtensions", .arr [
      .object [("kind", .str "video"), ("uri", .str "urn:3gpp:video-orientation"),
        ("preferredId", .uint 4), ("direction", .str direction)],
      .object [("kind", .str "video"), ("uri", .str
          "http://www.ietf.org/id/draft-holmer-rmcat-transport-wide-cc-extensions-01"),
        ("preferredId", .uint 5), ("direction", .str "sendrecv")]])]

/-- The directions of a list of them are known if its members are. -/
theorem directions_of_map {exts : List Json} {l : List String} (h : exts.map directionOf = l)
    (hl : ∀ direction ∈ l, direction ∈ directions) : ∀ e ∈ exts, directionOf e ∈ directions :=
  fun _ he => hl _ (h ▸ List.mem_map_of_mem he)

theorem answer_agrees_vp8_vp9 : ∃ validLocal validRemote ext,
    validateRtpCapabilities (vp8Vp9Capabilities 96 "sendrecv") = .ok validLocal ∧
      validateRtpCapabilities (vp8Vp9Capabilities 101 "sendonly") = .ok validRemote ∧
      getExtendedRtpCapabilities sampleWebRtc (vp8Vp9Capabilities 96 "sendrecv")
        (vp8Vp9Capabilities 101 "sendonly") = .ok ext ∧ ext.codecs.length = 2 ∧
      AnswerAgrees "video" ext := by
  obtain ⟨validLocal, hl, -⟩ := exists_of_map (fun _ => ())
    (show (validateRtpCapabilities (vp8Vp9Capabilities 96 "sendrecv")).toOption.map _ = some () from rfl)
  obtain ⟨validRemote, hr, hdirs⟩ := exists_of_map (fun caps => (headerExtensionsOf caps).map directionOf)
    (show (validateRtpCapabilities (vp8Vp9Capabilities 101 "sendonly")).toOption.map _ =
      some ["sendonly", "sendrecv"] from rfl)
  obtain ⟨ext, h, hrun⟩ := exists_of_map
    (fun r => (r.codecs.length, r.codecs.any fun e => e.kind.toStr.toOption = some "video"))
    (show (getExtendedRtpCapabilities sampleWebRtc (vp8Vp9Capabilities 96 "sendrecv")
      (vp8Vp9Capabilities 101 "sendonly")).toOption.map _ = some (2, true) from rfl)
  obtain ⟨hlength, hkind⟩ := Prod.mk.inj hrun
  obtain ⟨e, he, hk⟩ := List.any_eq_true.mp hkind
  refine ⟨validLocal, validRemote, ext, hl, hr, h, hlength, ?_⟩
  refine (answer_agrees_iff sampleWebRtc_lawful hl hr h
    ⟨e, he, toOption_eq_some.mp (of_decide_eq_true hk)⟩).mpr fun r hmem _ _ => ?_
  exact directions_of_map hdirs (by decide) r hmem

/-- A direction that is none of the four is accepted, and then missing. -/
theorem unknown_direction_disagrees : ∃ ext,
    getExtendedRtpCapabilities sampleWebRtc (vp8Capabilities "sendrecv")
        (vp8Capabilities "SENDRECV") = .ok ext ∧
      (∃ e ∈ ext.codecs, e.kind.toStr = .ok "video") ∧ ¬ AnswerAgrees "video" ext := by
  obtain ⟨ext, h, hrun⟩ := exists_of_map
    (fun r => (r.codecs.any (fun e => e.kind.toStr.toOption = some "video"),
      (getSendingRtpParameters "video" r).toOption.isNone))
    (show (getExtendedRtpCapabilities sampleWebRtc (vp8Capabilities "sendrecv")
      (vp8Capabilities "SENDRECV")).toOption.map _ = some (true, true) from rfl)
  obtain ⟨hkind, hnone⟩ := Prod.mk.inj hrun
  obtain ⟨e, he, hk⟩ := List.any_eq_true.mp hkind
  refine ⟨ext, h, ⟨e, he, toOption_eq_some.mp (of_decide_eq_true hk)⟩, ?_⟩
  rintro ⟨offer, answer, hboth, -⟩
  obtain ⟨sent, hsent, -⟩ := bind_ok.mp hboth
  rw [hsent] at hnone
  cases hnone

end MediasoupClient.Sdp
