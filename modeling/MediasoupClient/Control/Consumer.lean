import MediasoupClient.Sdp.JsonValidate
import MediasoupClient.Sdp.OfferLines
import MediasoupClient.Signaling.RtpModels

/-! The section of a consumer (peerconnection/media_control.cpp).

        newConsumer   ──▶  NewConsumerRequest::RTPParameters  ──toJson──▶  rtp_param
                                                                               │
        a=fmtp:<payload> k=v;k=v      ◀──  OfferMediaSection  ◀────────────────┘

    The model knows four codec parameters, all of them of Opus. -/

namespace MediasoupClient.Control
open Lib Signaling Sdp

/-- `rtpParameters->toJson()`. -/
def toJson (rtpParameters : NewConsumerRequest.RTPParameters) : Json :=
  ofValue (jserialize rtpParameters)

/-- `rtp_param["rtcp"]["cname"]`, as a string. -/
def consumerCname (rtpParam : Json) : Except Fault String := do
  (← (← rtpParam.readOrNull "rtcp").readOrNull "cname").toStr

/-- `rtpParameters->mid.value_or(std::to_string(mid_def_val))`: `mid_def_val` is always 0. -/
def consumerMid (rtpParameters : NewConsumerRequest.RTPParameters) : String :=
  rtpParameters.mid.getD "0"

/-- The section that `subscribe` adds for a consumer, with the candidates of the transport. -/
def consumerSection (iceParameters iceCandidates : Json) (transportId : String)
    (data : NewConsumerRequest.Data) : Except Fault MediaSection :=
  match data.rtpParameters with
  | none => .error .undefined
  | some rtpParameters => do
    let rtpParam := toJson rtpParameters
    let cname ← consumerCname rtpParam
    offerMediaSection iceParameters iceCandidates .null (consumerMid rtpParameters)
      (data.kind.getD "") rtpParam cname transportId

/-! ### What the server's parameters have to have -/

/-- A member that is there and not null. -/
def Present (k : String) (j : Json) : Prop := (nonNull k j).isSome = true

theorem present_of_has {m : Members} {k : String} {p : Json → Bool} (h : has m k p = true)
    (hp : ∀ v : Json, p v = true → v.isNull = false) : Present k (.obj m) := by
  obtain ⟨v, hv, hpv⟩ := has_iff.mp h
  rw [Present, nonNull_obj hv (hp v hpv)]
  rfl

theorem integer_notNull (v : Json) (h : v.isNumberInteger = true) : v.isNull = false := by
  cases v <;> first | rfl | cases h

theorem text_notNull (v : Json) (h : isText v = true) : v.isNull = false := by
  cases v <;> first | rfl | cases h

theorem string_notNull (v : Json) (h : v.isString = true) : v.isNull = false := by
  cases v <;> first | rfl | cases h

theorem ofInt_toUInt (i : ℤ) (w : ℕ) : ∃ n, (ofInt i).toUInt w = .ok n := by
  unfold ofInt
  split_ifs
  · exact ⟨_, rfl⟩
  · exact ⟨_, rfl⟩

/-- The members of a codec whose lines can be printed: its parameters, and its feedback with all
    its parameters. -/
structure CodecPresent (codec : Json) : Prop where
  parameters : Present "parameters" codec
  rtcpFeedback : ∃ feedback, codec.find "rtcpFeedback" = some (.arr feedback) ∧
    ∀ fb ∈ feedback, Present "parameter" fb

/-- A validated codec that has been read into the model and written again can be printed exactly if
    these members are there. -/
theorem codecReady_iff {c c' w : Json} (hv : validateRtpCodecParameters c = .ok c')
    (h : (Shape.object NewConsumerRequest.Codec.fields).rewrite c = some w) :
    CodecReady w ↔ CodecPresent c := by
  obtain ⟨m, kind, m', rfl, hkind, -, hpt, hrest⟩ := validateRtpCodecParameters_ok hv
  have hsome : ∀ {k s}, get k NewConsumerRequest.Codec.fields = some s →
      (Present k (.obj m) ↔ ∃ v, w.find k = some v) := fun hk => by
    rw [Present, ← Shape.find_isSome_iff h hk, Option.isSome_iff_exists]
  constructor
  · intro hready
    obtain ⟨feedback', hfind, hall⟩ := hready.rtcpFeedback
    obtain ⟨v, hv⟩ := Option.isSome_iff_exists.mp
      ((hsome (k := "rtcpFeedback") rfl).mpr ⟨feedback', hfind⟩)
    obtain ⟨hget, hnull⟩ := nonNull_eq_some.mp hv
    obtain ⟨feedback, rfl, -⟩ := Shape.member_accepted h rfl hget hnull
    obtain ⟨items', hitems, hfind'⟩ := Shape.find_rewrite_array h rfl hget
    cases hfind.symm.trans hfind'
    refine ⟨(hsome rfl).mpr hready.parameters, feedback, hget, fun fb hfb => ?_⟩
    obtain ⟨fb', hmem, hw⟩ := mem_of_forall₂ hitems.flip hfb
    obtain ⟨_, p, -, hp⟩ := hall fb' hmem
    exact (Shape.find_isSome_iff hw (k := "parameter") rfl).mp (by rw [hp]; rfl)
  · intro hpresent
    obtain ⟨feedback, hget, hall⟩ := hpresent.rtcpFeedback
    obtain ⟨mimeType, hmime, -⟩ := codecKind_ok hkind
    obtain ⟨pt, hptw⟩ := (hsome rfl).mp (present_of_has hpt integer_notNull)
    obtain ⟨i, rfl⟩ := Shape.find_int h rfl hptw
    obtain ⟨n, hn⟩ := ofInt_toUInt i 8
    have hmimew : w.find "mimeType" = some (.str (cstr mimeType)) := by
      rw [Shape.find_rewrite h, nonNull_obj hmime rfl]
      rfl
    obtain ⟨items', hitems, hfind⟩ := Shape.find_rewrite_array h rfl hget
    refine ⟨⟨_, n, hptw, hn⟩, ⟨_, hmimew⟩,
      (hsome rfl).mp (present_of_has hrest.clockRate integer_notNull), fun v hch => ?_,
      (hsome rfl).mp hpresent.parameters, ⟨_, hfind, fun fb' hfb' => ?_⟩⟩
    · obtain ⟨i, rfl⟩ := Shape.find_int h rfl hch
      exact ofInt_toUInt i 8
    · obtain ⟨fb, hfb, hw⟩ := mem_of_forall₂ hitems hfb'
      obtain ⟨p, hp⟩ := Option.isSome_iff_exists.mp
        ((Shape.find_isSome_iff hw (k := "parameter") rfl).mpr (hall fb hfb))
      have hof : feedbackOf m = feedback := by
        change get "rtcpFeedback" m = _ at hget
        rw [feedbackOf, hget]
      obtain ⟨_, hmap, -⟩ := hrest.rtcpFeedback
      rw [hof] at hmap
      obtain ⟨fbv, -, hfbv⟩ := mem_of_forall₂ (mapM_ok hmap).flip hfb
      have htype : Present "type" fb := by
        cases fb with
        | obj fbm =>
          obtain ⟨_, htype, -⟩ := bind_ok.mp hfbv
          exact present_of_has (require_ok.mp htype) string_notNull
        | _ => cases hfbv
      obtain ⟨t, ht⟩ := Option.isSome_iff_exists.mp
        ((Shape.find_isSome_iff hw (k := "type") rfl).mpr htype)
      exact ⟨t, p, ht, hp⟩

/-- The members of parameters whose section can be built. -/
structure ConsumerPresent (params : Json) : Prop where
  codecs : ∀ c ∈ ((params.find "codecs").getD .null).elems, CodecPresent c
  headerExtensions : Present "headerExtensions" params
  encodings : ∃ e es, params.find "encodings" = some (.arr (e :: es)) ∧ Present "ssrc" e

/-- The section of validated parameters that have been read into the model and written again can be
    built exactly if these members are there. -/
theorem offerReady_iff {j valid p : Json} (hv : validateRtpParameters j = .ok valid)
    (h : (Shape.object NewConsumerRequest.RTPParameters.fields).rewrite j = some p)
    (hrtcp : Present "rtcp" j) : OfferReady p ↔ ConsumerPresent j := by
  obtain ⟨m, _, rfl, -, hok⟩ := validateRtpParameters_ok hv
  obtain ⟨codecs, _, hcodecs, hcmap, -⟩ := hok.codecs
  obtain ⟨ws, hws, hpcodecs⟩ := Shape.find_rewrite_array h rfl
    (hcodecs : (Json.obj m).find "codecs" = _)
  have helems : (((Json.obj m).find "codecs").getD .null).elems = codecs := by
    change ((get "codecs" m).getD .null).elems = codecs
    rw [hcodecs]
    rfl
  have hcodec : ∀ {c w}, c ∈ codecs → (Shape.object NewConsumerRequest.Codec.fields).rewrite c =
      some w → (CodecReady w ↔ CodecPresent c) := fun hc hw => by
    obtain ⟨c', -, hc'⟩ := mem_of_forall₂ (mapM_ok hcmap).flip hc
    exact codecReady_iff hc' hw
  have hexts := Shape.find_isSome_iff h (k := "headerExtensions") rfl
  constructor
  · intro hready
    refine ⟨fun c hc => ?_, ?_, ?_⟩
    · rw [helems] at hc
      obtain ⟨w, hw, hcw⟩ := mem_of_forall₂ hws.flip hc
      obtain ⟨v, hv, hall⟩ := hready.codecs
      cases hpcodecs.symm.trans hv
      exact (hcodec hc hcw).mp (hall w hw)
    · obtain ⟨v, hv, -⟩ := hready.headerExtensions
      exact hexts.mp (by rw [hv]; rfl)
    · obtain ⟨items, e', v, _, hitems, hfirst, hssrc, -⟩ := hready.encodings
      obtain ⟨x, hx⟩ := Option.isSome_iff_exists.mp
        ((Shape.find_isSome_iff h (k := "encodings") rfl).mp (by rw [hitems]; rfl))
      obtain ⟨hget, hnull⟩ := nonNull_eq_some.mp hx
      obtain ⟨encodings, rfl, -⟩ := Shape.member_accepted h rfl hget hnull
      obtain ⟨items', hall, hfind⟩ := Shape.find_rewrite_array h rfl hget
      cases hitems.symm.trans hfind
      cases hall with
      | nil => cases hfirst
      | @cons e _ es _ he _ =>
        cases hfirst
        exact ⟨e, es, hget, (Shape.find_isSome_iff he (k := "ssrc") rfl).mp (by rw [hssrc]; rfl)⟩
  · intro hpresent
    refine ⟨⟨_, hpcodecs, fun w hw => ?_⟩, ?_, ?_, ?_⟩
    · obtain ⟨c, hc, hcw⟩ := mem_of_forall₂ hws hw
      exact (hcodec hc hcw).mpr (hpresent.codecs c (helems ▸ hc))
    · obtain ⟨x, hx⟩ := Option.isSome_iff_exists.mp hpresent.headerExtensions
      obtain ⟨hget, hnull⟩ := nonNull_eq_some.mp hx
      obtain ⟨exts, rfl, -⟩ := Shape.member_accepted h rfl hget hnull
      obtain ⟨exts', hall, hfind⟩ := Shape.find_rewrite_array h rfl hget
      obtain ⟨_, _, hraw, hemap, -⟩ := hok.headerExtensions
      change get "headerExtensions" m = _ at hget
      rw [hget] at hraw
      cases hraw
      refine ⟨_, hfind, fun e' he' => ?_⟩
      obtain ⟨e, he, hew⟩ := mem_of_forall₂ hall he'
      obtain ⟨ev, -, hev⟩ := mem_of_forall₂ (mapM_ok hemap).flip he
      obtain ⟨em, rfl, huri, hid⟩ := validateRtpHeaderExtensionParameters_ok hev
      obtain ⟨u, hu⟩ := Option.isSome_iff_exists.mp
        ((Shape.find_isSome_iff hew (k := "uri") rfl).mpr (present_of_has huri text_notNull))
      obtain ⟨i, hi⟩ := Option.isSome_iff_exists.mp
        ((Shape.find_isSome_iff hew (k := "id") rfl).mpr (present_of_has hid integer_notNull))
      exact ⟨u, i, hu, hi⟩
    · obtain ⟨e, es, hget, hssrc⟩ := hpresent.encodings
      obtain ⟨items', hall, hfind⟩ := Shape.find_rewrite_array h rfl hget
      cases hall with
      | @cons _ e' _ _ he _ =>
        obtain ⟨v, hv⟩ := Option.isSome_iff_exists.mp
          ((Shape.find_isSome_iff he (k := "ssrc") rfl).mpr hssrc)
        obtain ⟨i, rfl⟩ := Shape.find_int he rfl hv
        obtain ⟨n, hn⟩ := ofInt_toUInt i 32
        refine ⟨_, e', _, n, hfind, rfl, hv, hn, fun r hr => ?_⟩
        obtain ⟨rtx, hrtx, hr⟩ := Option.bind_eq_some_iff.mp hr
        obtain ⟨_, -, hrtxw⟩ := Shape.find_object he rfl hrtx
        obtain ⟨i, rfl⟩ := Shape.find_int hrtxw rfl hr
        exact ofInt_toUInt i 32
    · exact Option.isSome_iff_exists.mp
        ((Shape.find_isSome_iff h (k := "rtcp") rfl).mpr hrtcp)

/-- The parameters have a cname, which is the stream id of the section. -/
def HasCname (params : Json) : Prop :=
  ∃ rtcp, nonNull "rtcp" params = some rtcp ∧ Present "cname" rtcp

theorem consumerCname_iff {j p : Json}
    (h : (Shape.object NewConsumerRequest.RTPParameters.fields).rewrite j = some p) :
    (∃ cname, consumerCname p = .ok cname) ↔ HasCname j := by
  obtain ⟨m, mw, rfl, rfl, -⟩ := Shape.rewrite_isObject h
  constructor
  · rintro ⟨cname, hcname⟩
    obtain ⟨rtcp, hrtcp, hcname⟩ := bind_ok.mp hcname
    obtain ⟨v, hv, hcname⟩ := bind_ok.mp hcname
    cases Json.toStr_ok.mp hcname
    cases Json.readOrNull_ok hrtcp
    have hv := Json.readOrNull_ok hv
    cases hfind : (Json.obj mw).find "rtcp" with
    | none =>
      rw [hfind] at hv
      cases hv
    | some r =>
      obtain ⟨x, hx, hxr⟩ := Shape.find_object h rfl hfind
      rw [hfind, Option.getD_some] at hv
      refine ⟨x, hx, (Shape.find_isSome_iff hxr (k := "cname") rfl).mp ?_⟩
      cases hc : r.find "cname" with
      | none => rw [hc] at hv; cases hv
      | some _ => rfl
  · rintro ⟨rtcp, hrtcp, hcname⟩
    obtain ⟨r, hr⟩ := Option.isSome_iff_exists.mp
      ((Shape.find_isSome_iff h (k := "rtcp") rfl).mpr (by rw [hrtcp]; rfl))
    obtain ⟨x, hx, hxr⟩ := Shape.find_object h rfl hr
    cases hrtcp.symm.trans hx
    obtain ⟨_, rm, rfl, rfl, -⟩ := Shape.rewrite_isObject hxr
    obtain ⟨c, hc⟩ := Option.isSome_iff_exists.mp
      ((Shape.find_isSome_iff hxr (k := "cname") rfl).mpr hcname)
    have htext : ∃ s, c = .str s := by
      rw [Shape.find_rewrite hxr] at hc
      change (nonNull "cname" _).bind Shape.string.rewrite = some c at hc
      obtain ⟨v, -, hv⟩ := Option.bind_eq_some_iff.mp hc
      cases v with
      | str s => cases hv; exact ⟨_, rfl⟩
      | _ => cases hv
    obtain ⟨s, rfl⟩ := htext
    have hread : (Json.obj mw).readOrNull "rtcp" = .ok (.obj rm) := by
      change Except.ok ((get "rtcp" mw).getD .null) = _
      change get "rtcp" mw = _ at hr
      rw [hr]
      rfl
    have hread' : (Json.obj rm).readOrNull "cname" = .ok (.str s) := by
      change Except.ok ((get "cname" rm).getD .null) = _
      change get "cname" rm = _ at hc
      rw [hc]
      rfl
    exact ⟨s, bind_ok.mpr ⟨_, hread, bind_ok.mpr ⟨_, hread', rfl⟩⟩⟩

/-! ### The fmtp lines -/

/-- The codec parameters that are not null. -/
def nonNullParameters (codec : Json) : Members :=
  match codec.find "parameters" with
  | some (.obj parameters) => parameters.filter fun parameter => !parameter.2.isNull
  | _ => []

/-- A value as it stands in a fmtp line. -/
def valueText : Json → String
  | .str s => s
  | .int i => toString i
  | .uint n => toString n
  | .float q => Json.printFloat q
  | _ => ""

/-- A parameter of the server as it stands in a fmtp line. -/
def serverEntry (parameter : String × Json) : String :=
  parameter.1 ++ "=" ++ valueText parameter.2

/-- The fmtp line of a codec of the server, with all its parameters; none if it has no parameter. -/
def serverFmtp (codec : Json) : List Json :=
  match nonNullParameters codec with
  | [] => []
  | parameters => [Json.object [("payload", (codec.find "payloadType").getD .null),
      ("config", .str (";".intercalate (parameters.map serverEntry)))]]

/-- The fmtp lines of a section. -/
def fmtpOf (s : MediaSection) : List Json := ((s.mediaObject.get "fmtp").getD .null).elems

/-- The codec parameters that the model has. -/
def consumerParameters : List String := NewConsumerRequest.Parameters.fields.map (·.1)

theorem consumerParameters_get {k : String} :
    get k NewConsumerRequest.Parameters.fields =
      if k ∈ consumerParameters then some Shape.int32 else none := by
  simp only [NewConsumerRequest.Parameters.fields, consumerParameters, Lib.get, List.map_cons,
    List.map_nil, List.mem_cons, List.not_mem_nil, or_false]
  split_ifs <;> first | rfl | simp_all

/-- A parsed value that the model accepts as an integer is written as it is. -/
theorem int32_written {v : Json} (hp : reparse v = v) (h : Shape.int32.Accepts v) :
    Shape.int32.rewrite v = some v := by
  have hfaithful := (Shape.int32.faithful v).mpr h
  rwa [hp] at hfaithful

/-- An integer of 32 bits is printed in full. -/
theorem paramText_int32 {v : Json} (h : Shape.int32.Accepts v) : paramText v = valueText v := by
  obtain ⟨i, hi, hlo, hhi⟩ := h
  cases v with
  | int i => rfl
  | uint n =>
    cases hi
    change toString (Json.wrap64 n) = toString n
    have hwrap : Json.wrap64 n = (n : ℤ) := by
      unfold Json.wrap64
      rw [Int.bmod_eq_of_le] <;> omega
    rw [hwrap]
    rfl
  | _ => cases hi

/-- The parameters that are written: those of the server that are not null and that the model
    has. -/
theorem written_parameters {params q : Members} (hp : reparse (.obj params) = .obj params)
    (h : (Shape.object NewConsumerRequest.Parameters.fields).rewrite (.obj params) =
      some (.obj q)) :
    q = (params.filter fun parameter => !parameter.2.isNull).filter
        (fun parameter => decide (parameter.1 ∈ consumerParameters)) ∧
      ∀ parameter ∈ q, Shape.int32.Accepts parameter.2 := by
  have hsorted : Sorted params := by
    have hparsed : Json.obj (ofMembers (toMembers params)) = Json.obj params := hp
    rw [← Json.obj.inj hparsed]
    exact sorted_ofMembers _
  obtain ⟨_, _, hobj, hq, hms⟩ := Shape.rewrite_isObject h
  cases hobj
  cases hq
  have hnull : Sorted (params.filter fun parameter => !parameter.2.isNull) := hsorted.filter _
  have hget : ∀ k v, get k q = some v ↔ k ∈ consumerParameters ∧
      get k params = some v ∧ v.isNull = false ∧ Shape.int32.Accepts v := by
    intro k v
    rw [get_rewriteMembers hms, consumerParameters_get]
    split_ifs with hk
    · rw [Option.bind_some]
      constructor
      · intro hv
        obtain ⟨x, hx, hxv⟩ := Option.bind_eq_some_iff.mp hv
        obtain ⟨hxget, hxnull⟩ := nonNull_eq_some.mp hx
        have hacc : Shape.int32.Accepts x := (Shape.int32.accepts x).mp (by rw [hxv]; rfl)
        rw [int32_written (parsed_member hp hxget) hacc] at hxv
        cases hxv
        exact ⟨hk, hxget, hxnull, hacc⟩
      · rintro ⟨-, hxget, hxnull, hacc⟩
        rw [nonNull_obj hxget hxnull]
        exact int32_written (parsed_member hp (hxget : (Json.obj params).find k = _)) hacc
    · exact iff_of_false (fun hc => by cases hc) fun hc => hk hc.1
  have haccepts : ∀ k v, k ∈ consumerParameters → get k params = some v → v.isNull = false →
      Shape.int32.Accepts v := fun k v hk hv hvnull =>
    Shape.member_accepted h (k := k) (by rw [consumerParameters_get, if_pos hk])
      (hv : (Json.obj params).find k = _) hvnull
  constructor
  · refine sorted_ext (sorted_rewriteMembers hms) (hnull.filter _) fun k => ?_
    ext v
    rw [hget, get_filter hnull, get_filter hsorted, Option.filter_eq_some_iff,
      Option.filter_eq_some_iff]
    simp only [Bool.not_eq_true', decide_eq_true_eq]
    constructor
    · rintro ⟨hk, hv, hvnull, -⟩
      exact ⟨⟨hv, hvnull⟩, hk⟩
    · rintro ⟨⟨hv, hvnull⟩, hk⟩
      exact ⟨hk, hv, hvnull, haccepts k v hk hv hvnull⟩
  · rintro ⟨k, v⟩ hmem
    exact ((hget k v).mp ((mem_iff_get (sorted_rewriteMembers hms)).mp hmem)).2.2.2

theorem serverEntry_ne (parameter : String × Json) : serverEntry parameter ≠ "" := by
  intro h
  have hlength := congrArg String.length h
  simp [serverEntry] at hlength

/-- A joined text is not empty if there is something to join. -/
theorem intercalate_ne {q : Members} (hq : q ≠ []) : ";".intercalate (q.map serverEntry) ≠ "" := by
  obtain ⟨kv, rest, rfl⟩ := List.exists_cons_of_ne_nil hq
  intro h
  have hlength := length_intercalate (l := (kv :: rest).map serverEntry) (List.cons_ne_nil _ _)
  rw [h, List.map_cons, List.map_cons, List.sum_cons] at hlength
  have hpos : 0 < (serverEntry kv).length := by
    rw [Nat.pos_iff_ne_zero]
    intro hzero
    exact serverEntry_ne kv (String.length_eq_zero_iff.mp hzero)
  have hempty : ("" : String).length = 0 := rfl
  omega

/-- Some of the entries make the same text as all of them only if none is left out. -/
theorem intercalate_filter_iff {parameters : Members} {p : String × Json → Bool}
    (hq : parameters.filter p ≠ []) :
    ";".intercalate ((parameters.filter p).map serverEntry) =
        ";".intercalate (parameters.map serverEntry) ↔
      ∀ parameter ∈ parameters, p parameter = true := by
  constructor
  · intro htext
    have hall : parameters ≠ [] := by
      rintro rfl
      exact hq rfl
    have hleft := length_intercalate (l := (parameters.filter p).map serverEntry) (by simpa using hq)
    have hright := length_intercalate (l := parameters.map serverEntry) (by simpa using hall)
    rw [List.map_map] at hleft hright
    rw [htext] at hleft
    exact filter_weighs (fun e => Nat.succ_pos (serverEntry e).length) (hleft.symm.trans hright)
  · intro hlisted
    rw [List.filter_eq_self.mpr hlisted]

/-- The fmtp line of a codec that has been written: the parameters that the model has. -/
theorem fmtpLines_written {c c' w : Json} (hp : reparse c = c)
    (hv : validateRtpCodecParameters c = .ok c')
    (h : (Shape.object NewConsumerRequest.Codec.fields).rewrite c = some w)
    (hpresent : Present "parameters" c) {q : Members}
    (hq : q = (nonNullParameters c).filter fun parameter => parameter.1 ∈ consumerParameters) :
    fmtpLines w = if q = [] then [] else
      [Json.object [("payload", (c.find "payloadType").getD .null),
        ("config", .str (";".intercalate (q.map serverEntry)))]] := by
  obtain ⟨v, hwv⟩ := Option.isSome_iff_exists.mp
    ((Shape.find_isSome_iff h (k := "parameters") rfl).mpr hpresent)
  obtain ⟨x, hx, hxv⟩ := Shape.find_object h rfl hwv
  obtain ⟨params, q', rfl, rfl, -⟩ := Shape.rewrite_isObject hxv
  obtain ⟨hget, -⟩ := nonNull_eq_some.mp hx
  obtain ⟨hq', hint⟩ := written_parameters (parsed_member hp hget) hxv
  -- the payload type
  obtain ⟨m, _, _, rfl, -, -, hpt, -⟩ := validateRtpCodecParameters_ok hv
  obtain ⟨pt, hptget, hptint⟩ := has_iff.mp hpt
  have hpayload : w.find "payloadType" = (Json.obj m).find "payloadType" := by
    have hnull := integer_notNull pt hptint
    have hacc : Shape.int32.Accepts pt :=
      Shape.member_accepted h rfl (hptget : (Json.obj m).find "payloadType" = _) hnull
    rw [Shape.member_kept h hp rfl (hptget : (Json.obj m).find "payloadType" = _) hnull hacc]
    exact hptget.symm
  -- the text
  have hof : nonNullParameters (.obj m) = params.filter fun parameter => !parameter.2.isNull := by
    rw [nonNullParameters, hget]
  obtain rfl : q' = q := by rw [hq, hof, hq']
  have hconfig : fmtpConfig (.obj q') = ";".intercalate (q'.map serverEntry) := by
    rw [fmtpConfig_eq]
    congr 1
    refine List.map_congr_left fun parameter hmem => ?_
    rw [entryText, serverEntry, paramText_int32 (hint parameter hmem)]
  unfold fmtpLines
  simp only [hwv, Option.getD_some, hpayload, hconfig]
  by_cases hnil : q' = []
  · rw [if_pos hnil, hnil]
    rfl
  · rw [if_neg hnil, if_neg (intercalate_ne hnil)]

/-- The codec's own fmtp line is the one with all its parameters exactly if the model has them. -/
theorem fmtpLines_iff {c c' w : Json} (hp : reparse c = c)
    (hv : validateRtpCodecParameters c = .ok c')
    (h : (Shape.object NewConsumerRequest.Codec.fields).rewrite c = some w)
    (hpresent : Present "parameters" c) :
    (fmtpLines w).length ≤ (serverFmtp c).length ∧ (fmtpLines w = serverFmtp c ↔
      ∀ parameter ∈ nonNullParameters c, parameter.1 ∈ consumerParameters) := by
  rw [fmtpLines_written hp hv h hpresent rfl]
  unfold serverFmtp
  cases hall : nonNullParameters c with
  | nil => simp
  | cons parameter rest =>
    split_ifs with hnil
    · refine ⟨Nat.zero_le _, iff_of_false (fun hc => by cases hc) fun hc => ?_⟩
      have hfirst := List.filter_eq_nil_iff.mp hnil parameter List.mem_cons_self
      exact hfirst (decide_eq_true (hc parameter List.mem_cons_self))
    · refine ⟨Nat.le_refl _, ?_⟩
      have hfind : ∀ a b, (Json.object [("payload", a), ("config", b)]).find "config" = some b :=
        fun a b => get_put_self "config" b _
      have hline : ∀ a b b', [Json.object [("payload", a), ("config", .str b)]] =
          [Json.object [("payload", a), ("config", .str b')]] ↔ b = b' := by
        intro a b b'
        refine ⟨fun heq => ?_, fun heq => by rw [heq]⟩
        have htext := congrArg (Json.find "config") (List.singleton_inj.mp heq)
        rwa [hfind, hfind, Option.some.injEq, Json.str.injEq] at htext
      rw [hline, intercalate_filter_iff hnil]
      simp only [decide_eq_true_eq]

/-! ### The section -/

/-- The transport has what every section starts with. -/
structure HasIce (iceParameters iceCandidates : Json) : Prop where
  parameters : ∀ k ∈ ["usernameFragment", "password"], ∃ v, iceParameters.find k = some v
  candidates : ∀ candidate ∈ iceCandidates.elems,
    ∀ k ∈ ["foundation", "address", "port", "priority", "protocol", "type"],
      ∃ v, candidate.find k = some v

theorem base_iff {iceParameters iceCandidates : Json} :
    (∃ b, MediaSection.base iceParameters iceCandidates = .ok b) ↔
      HasIce iceParameters iceCandidates := by
  constructor
  · rintro ⟨b, h⟩
    obtain ⟨u, hu, h⟩ := bind_ok.mp h
    obtain ⟨p, hp, h⟩ := bind_ok.mp h
    obtain ⟨cs, hcs, -⟩ := bind_ok.mp h
    refine ⟨fun k hk => ?_, fun candidate hmem k hk => ?_⟩
    · simp only [List.mem_cons, List.not_mem_nil, or_false] at hk
      rcases hk with rfl | rfl
      · exact ⟨u, Json.read_ok.mp hu⟩
      · exact ⟨p, Json.read_ok.mp hp⟩
    · obtain ⟨_, -, hline⟩ := mem_of_forall₂ (mapM_ok hcs).flip hmem
      obtain ⟨v₁, h₁, hline⟩ := bind_ok.mp hline
      obtain ⟨v₂, h₂, hline⟩ := bind_ok.mp hline
      obtain ⟨v₃, h₃, hline⟩ := bind_ok.mp hline
      obtain ⟨v₄, h₄, hline⟩ := bind_ok.mp hline
      obtain ⟨v₅, h₅, hline⟩ := bind_ok.mp hline
      obtain ⟨v₆, h₆, -⟩ := bind_ok.mp hline
      simp only [List.mem_cons, List.not_mem_nil, or_false] at hk
      rcases hk with rfl | rfl | rfl | rfl | rfl | rfl
      · exact ⟨v₁, Json.read_ok.mp h₁⟩
      · exact ⟨v₂, Json.read_ok.mp h₂⟩
      · exact ⟨v₃, Json.read_ok.mp h₃⟩
      · exact ⟨v₄, Json.read_ok.mp h₄⟩
      · exact ⟨v₅, Json.read_ok.mp h₅⟩
      · exact ⟨v₆, Json.read_ok.mp h₆⟩
  · intro hice
    have hparam : ∀ k ∈ ["usernameFragment", "password"], ∃ v, iceParameters.read k = .ok v :=
      fun k hk => (hice.parameters k hk).imp fun _ hv => Json.read_ok.mpr hv
    refine bind_total (hparam _ (by decide)) fun _ => bind_total (hparam _ (by decide)) fun _ =>
      bind_total (mapM_total fun candidate hmem => ?_) fun _ => ⟨_, rfl⟩
    have hline : ∀ k ∈ ["foundation", "address", "port", "priority", "protocol", "type"],
        ∃ v, candidate.read k = .ok v :=
      fun k hk => (hice.candidates candidate hmem k hk).imp fun _ hv => Json.read_ok.mpr hv
    exact bind_total (hline _ (by decide)) fun _ => bind_total (hline _ (by decide)) fun _ =>
      bind_total (hline _ (by decide)) fun _ => bind_total (hline _ (by decide)) fun _ =>
        bind_total (hline _ (by decide)) fun _ => bind_total (hline _ (by decide)) fun _ => ⟨_, rfl⟩

/-- What the body of a section of this kind needs: an audio or video section needs the members
    that are read and only parameters that the model has; a section of another kind has no fmtp
    lines, so there must be no parameter, and an application section cannot be built. -/
def MediaKept (kind : String) (params : Json) : Prop :=
  if kind = "audio" ∨ kind = "video" then
    ConsumerPresent params ∧ ∀ c ∈ ((params.find "codecs").getD .null).elems,
      ∀ parameter ∈ nonNullParameters c, parameter.1 ∈ consumerParameters
  else kind ≠ "application" ∧ ∀ c ∈ ((params.find "codecs").getD .null).elems,
    nonNullParameters c = []

/-- The fmtp lines of the codecs of a server, one after the other. -/
def serverLines (params : Json) : List Json :=
  ((params.find "codecs").getD .null).elems.flatMap serverFmtp

theorem serverLines_nil {params : Json} : serverLines params = [] ↔
    ∀ c ∈ ((params.find "codecs").getD .null).elems, nonNullParameters c = [] := by
  rw [serverLines, List.flatMap_eq_nil_iff]
  refine forall₂_congr fun c _ => ?_
  unfold serverFmtp
  cases nonNullParameters c with
  | nil => simp
  | cons e es => simp

section
variable {j valid p : Json} (hp : reparse j = j) (hv : validateRtpParameters j = .ok valid)
  (h : (Shape.object NewConsumerRequest.RTPParameters.fields).rewrite j = some p)
include hp hv h

/-- The lines of all codecs are those of the server exactly if the model has every parameter. -/
theorem codecLines_iff (hpresent : ConsumerPresent j) :
    ((p.find "codecs").getD .null).elems.flatMap fmtpLines = serverLines j ↔
      ∀ c ∈ ((j.find "codecs").getD .null).elems,
        ∀ parameter ∈ nonNullParameters c, parameter.1 ∈ consumerParameters := by
  obtain ⟨m, _, rfl, -, hok⟩ := validateRtpParameters_ok hv
  obtain ⟨codecs, _, hcodecs, hmap, -⟩ := hok.codecs
  have hcodecs : (Json.obj m).find "codecs" = some (.arr codecs) := hcodecs
  obtain ⟨ws, hws, hpcodecs⟩ := Shape.find_rewrite_array h rfl hcodecs
  have hall := hpresent.codecs
  rw [hcodecs] at hall
  unfold serverLines
  rw [hpcodecs, hcodecs]
  refine (flatMap_eq_iff (((List.forall₂_and_left _ _).mpr
    ⟨fun c hc => And.intro hc (hall c hc), hws⟩).imp fun c w hcw => ?_)).2
  obtain ⟨⟨hc, hparams⟩, hw⟩ := hcw
  obtain ⟨c', -, hc'⟩ := mem_of_forall₂ (mapM_ok hmap).flip hc
  exact fmtpLines_iff (parsed_item (parsed_member hp hcodecs) hc) hc' hw hparams.parameters

theorem offerBody_fmtp_iff (hrtcp : Present "rtcp" j) (kind streamId trackId : String)
    {header : StdMap String Json} (hnone : header.get "fmtp" = none) :
    (∃ body, offerBody kind .null p streamId trackId = .ok body ∧
      (((assign header body.assignments).get "fmtp").getD .null).elems = serverLines j) ↔
      MediaKept kind j := by
  unfold offerBody MediaKept
  by_cases hmedia : kind = "audio" ∨ kind = "video"
  · rw [if_pos hmedia, if_pos hmedia]
    constructor
    · rintro ⟨body, hbody, hlines⟩
      have hpresent := (offerReady_iff hv h hrtcp).mp (offerMedia_iff.mp ⟨body, hbody⟩)
      rw [offerMedia_fmtp hbody, Option.getD_some] at hlines
      exact ⟨hpresent, (codecLines_iff hp hv h hpresent).mp hlines⟩
    · rintro ⟨hpresent, hlisted⟩
      obtain ⟨body, hbody⟩ := offerMedia_iff.mpr ((offerReady_iff hv h hrtcp).mpr hpresent)
      refine ⟨body, hbody, ?_⟩
      rw [offerMedia_fmtp hbody, Option.getD_some]
      exact (codecLines_iff hp hv h hpresent).mpr hlisted
  · rw [if_neg hmedia, if_neg hmedia]
    by_cases happ : kind = "application"
    · rw [if_pos happ]
      refine iff_of_false ?_ fun hc => hc.1 happ
      rintro ⟨body, hbody, -⟩
      cases hbody
    · rw [if_neg happ, ← serverLines_nil]
      constructor
      · rintro ⟨body, hbody, hlines⟩
        cases hbody
        refine ⟨happ, ?_⟩
        rw [← hlines]
        change ((header.get "fmtp").getD .null).elems = []
        rw [hnone]
        rfl
      · rintro ⟨-, hnil⟩
        refine ⟨_, rfl, ?_⟩
        rw [hnil]
        change ((header.get "fmtp").getD .null).elems = []
        rw [hnone]
        rfl

end

/-- A section is built for the consumer, and its fmtp lines are those of the server. -/
def ConsumerFaithful (iceParameters iceCandidates : Json) (transportId : String)
    (data : NewConsumerRequest.Data) (params : Json) : Prop :=
  ∃ s, consumerSection iceParameters iceCandidates transportId data = .ok s ∧
    fmtpOf s = serverLines params

/-- What the transport and the server's parameters have to have. -/
structure ConsumerKeeps (iceParameters iceCandidates : Json) (kind : String) (params : Json) :
    Prop where
  ice : HasIce iceParameters iceCandidates
  cname : HasCname params
  media : MediaKept kind params

/-- CORRECT: the section of a consumer is built with the fmtp lines of the server's codecs exactly
    if the transport and the parameters have all that is read, the kind is audio or video, and every
    codec parameter is one that the model has. -/
theorem consumer_faithful {iceParameters iceCandidates params valid : Json} {transportId : String}
    {data : NewConsumerRequest.Data} {rtpParameters : NewConsumerRequest.RTPParameters}
    (hparsed : reparse params = params) (hvalid : validateRtpParameters params = .ok valid)
    (hdecoded : jdeserialize (toValue params) = (rtpParameters, none))
    (hdata : data.rtpParameters = some rtpParameters) :
    ConsumerFaithful iceParameters iceCandidates transportId data params ↔
      ConsumerKeeps iceParameters iceCandidates (data.kind.getD "") params := by
  have hw : (Shape.object NewConsumerRequest.RTPParameters.fields).rewrite params =
      some (toJson rtpParameters) := by
    rw [← reencode_eq NewConsumerRequest.RTPParameters.has, reencode, hdecoded]
    rfl
  have hheader : ∀ {b}, MediaSection.base iceParameters iceCandidates = .ok b →
      (MediaSection.header b (.str (consumerMid rtpParameters)) (.str (data.kind.getD ""))
        (.str (offerProtocol .null)) (some "actpass")).get "fmtp" = none := fun {b} hb => by
    obtain ⟨_, -, hb⟩ := bind_ok.mp hb
    obtain ⟨_, -, hb⟩ := bind_ok.mp hb
    obtain ⟨_, -, hb⟩ := bind_ok.mp hb
    cases hb
    simp [MediaSection.header, assign, StdMap.get_insert]
  unfold ConsumerFaithful consumerSection
  rw [hdata]
  constructor
  · rintro ⟨s, hs, hlines⟩
    obtain ⟨cname, hcname, hs⟩ := bind_ok.mp hs
    obtain ⟨b, hb, hs⟩ := bind_ok.mp hs
    obtain ⟨body, hbody, hs⟩ := bind_ok.mp hs
    cases hs
    have hhas := (consumerCname_iff hw).mp ⟨cname, hcname⟩
    have hrtcp : Present "rtcp" params := by
      obtain ⟨rtcp, hrtcp, -⟩ := hhas
      rw [Present, hrtcp]
      rfl
    exact ⟨base_iff.mp ⟨b, hb⟩, hhas, (offerBody_fmtp_iff hparsed hvalid hw hrtcp _ cname
      transportId (hheader hb)).mp ⟨body, hbody, hlines⟩⟩
  · rintro ⟨hice, hhas, hmedia⟩
    obtain ⟨b, hb⟩ := base_iff.mpr hice
    obtain ⟨cname, hcname⟩ := (consumerCname_iff hw).mpr hhas
    have hrtcp : Present "rtcp" params := by
      obtain ⟨rtcp, hrtcp, -⟩ := hhas
      rw [Present, hrtcp]
      rfl
    obtain ⟨body, hbody, hlines⟩ := (offerBody_fmtp_iff hparsed hvalid hw hrtcp _ cname
      transportId (hheader hb)).mpr hmedia
    exact ⟨_, bind_ok.mpr ⟨cname, hcname, bind_ok.mpr ⟨b, hb, bind_ok.mpr ⟨body, hbody, rfl⟩⟩⟩,
      hlines⟩

/-- The parameters of a consumer with one encoding, by its codecs. -/
def consumerParams (codecs : List Json) : Json :=
  .object [("mid", .str "0"), ("codecs", .arr codecs), ("headerExtensions", .arr []),
    ("encodings", .arr [.object [("ssrc", .uint 1)]]), ("rtcp", .object [("cname", .str "c")])]

/-- A codec without feedback. -/
def consumerCodec (mimeType : String) (payloadType clockRate : ℕ) (parameters : Json) : Json :=
  .object [("mimeType", .str mimeType), ("payloadType", .uint payloadType),
    ("clockRate", .uint clockRate), ("parameters", parameters), ("rtcpFeedback", .arr [])]

/-- The request for a consumer of this kind. -/
def consumerData (kind : String) (params : Json) : NewConsumerRequest.Data where
  kind := some kind
  rtpParameters := some (jdeserialize (toValue params)).1

/-- ICE parameters of a transport. -/
def sampleIce : Json := .object [("usernameFragment", .str "u"), ("password", .str "p")]

/-- The parameters of an Opus consumer. -/
def opusParams : Json :=
  consumerParams [consumerCodec "audio/opus" 100 48000 (.object [("useinbandfec", .uint 1)])]

theorem consumer_faithful_opus : ∃ valid, validateRtpParameters opusParams = .ok valid ∧
    (ConsumerFaithful sampleIce (.arr []) "t" (consumerData "audio" opusParams) opusParams ↔
      ConsumerKeeps sampleIce (.arr []) "audio" opusParams) := by
  obtain ⟨valid, hvalid, -⟩ := exists_of_map (fun _ => ())
    (show (validateRtpParameters opusParams).toOption.map _ = some () from rfl)
  exact ⟨valid, hvalid, consumer_faithful rfl hvalid rfl rfl⟩

/-- The parameters of a VP8 consumer with an rtx codec. -/
def vp8Params : Json :=
  consumerParams [consumerCodec "video/VP8" 101 90000 (.obj []),
    consumerCodec "video/rtx" 102 90000 (.object [("apt", .uint 101)])]

/-- The rtx codec of a VP8 consumer is offered without its apt. -/
theorem consumer_loses_apt : reparse vp8Params = vp8Params ∧
    (∃ valid, validateRtpParameters vp8Params = .ok valid) ∧
    (jdeserialize (toValue vp8Params) : NewConsumerRequest.RTPParameters × _).2 = none ∧
    ¬ConsumerFaithful sampleIce (.arr []) "t" (consumerData "video" vp8Params) vp8Params := by
  obtain ⟨valid, hvalid, -⟩ := exists_of_map (fun _ => ())
    (show (validateRtpParameters vp8Params).toOption.map _ = some () from rfl)
  obtain ⟨s, hs, hlines⟩ := exists_of_map (fun s => (fmtpOf s).length)
    (show (consumerSection sampleIce (.arr []) "t" (consumerData "video" vp8Params)).toOption.map
      _ = some 0 from rfl)
  refine ⟨rfl, ⟨valid, hvalid⟩, rfl, fun ⟨s', hs', hfaithful⟩ => ?_⟩
  cases hs.symm.trans hs'
  rw [hfaithful] at hlines
  cases hlines

end MediasoupClient.Control
