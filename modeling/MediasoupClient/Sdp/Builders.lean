import MediasoupClient.Sdp.Extended

/-! The parameters that are made of extended capabilities.

        extended codec   ──▶   media codec, rtx codec      (the rtx codec if both sides have one)

        receive capabilities         all of them, with the remote payload types
        sending parameters           those of the first of the kind, with the local payload types
        remote sending parameters    those of all of the kind, with the local payload types

    All of them are made without fail, unless a header extension of the kind has no direction. -/

namespace MediasoupClient.Sdp
open Lib

/-! ### The media types -/

theorem lower_append (s t : String) : lower (s ++ t) = lower s ++ lower t := by
  simp only [lower, String.toList_append, List.map_append, String.ofList_append]

/-- A character that is no letter is not the lower case of another one. -/
theorem eq_of_toLower {c d : Char} (h : c.toLower = d) (hd : d.toNat < 97) : c = d := by
  subst h
  unfold Char.toLower at hd ⊢
  split_ifs at hd ⊢ with hc
  · exfalso
    obtain ⟨hlo, hhi⟩ := hc
    have h1 : 65 ≤ c.toNat := hlo
    have h2 : c.toNat ≤ 90 := hhi
    simp at hd
    omega
  · rfl

theorem toList_lower (s : String) : (lower s).toList = s.toList.map Char.toLower := by
  rw [lower, String.toList_ofList]

/-- A mime type with a kind: "audio" or "video" in any case, and what is behind the slash. -/
theorem mimeKind_iff {mimeType kind : String} : mimeKind mimeType = some kind ↔
    ∃ rest, mimeType.toList = kind.toList ++ '/' :: rest ∧ lower kind ∈ ["audio", "video"] ∧
      rest ≠ [] ∧ '\n' ∉ rest ∧ '\r' ∉ rest := by
  unfold mimeKind
  constructor
  · intro h
    simp only at h
    split_ifs at h with hc
    obtain ⟨hstart, hrest⟩ := hc
    cases h
    -- "audio" or "video", and the slash
    have hsix : ∃ word ∈ ["audio", "video"],
        (mimeType.toList.take 6).map Char.toLower = word.toList ++ ['/'] := by
      have hlist : (mimeType.toList.take 6).map Char.toLower =
          (lower (String.ofList (mimeType.toList.take 6))).toList := by
        rw [toList_lower, String.toList_ofList]
      rw [hlist]
      rcases List.mem_cons.mp hstart with hs | hs
      · exact ⟨"audio", by decide, by rw [hs]; rfl⟩
      · exact ⟨"video", by decide, by rw [List.mem_singleton.mp hs]; rfl⟩
    obtain ⟨word, hword, hsix⟩ := hsix
    have hfive : word.toList.length = 5 := by
      rcases List.mem_cons.mp hword with rfl | hs
      · rfl
      · rw [List.mem_singleton.mp hs]; rfl
    obtain ⟨kind, slash, htake, hkind, hslash⟩ := List.map_eq_append_iff.mp hsix
    obtain ⟨c, _, rfl, hc, hnil⟩ := List.map_eq_cons_iff.mp hslash
    cases List.map_eq_nil_iff.mp hnil
    cases eq_of_toLower hc (by decide)
    have hlength : kind.length = 5 := by rw [← hfive, ← hkind, List.length_map]
    have hsplit := (List.take_append_drop 6 mimeType.toList).symm
    rw [htake, List.append_assoc] at hsplit
    have hfirst : mimeType.toList.take 5 = kind := by
      rw [hsplit, List.take_append, hlength, List.take_of_length_le (by omega)]
      simp
    have hlower : lower (String.ofList kind) = word := by
      rw [← String.toList_inj, toList_lower, String.toList_ofList, hkind]
    rw [hfirst, String.toList_ofList, hlower]
    exact ⟨_, hsplit, hword, hrest⟩
  · rintro ⟨rest, hs, hkind, hrest⟩
    have hmap : kind.toList.map Char.toLower = (lower kind).toList := (toList_lower kind).symm
    have hlength : kind.toList.length = 5 := by
      rw [← List.length_map (f := Char.toLower), hmap]
      rcases List.mem_cons.mp hkind with hk | hk
      · rw [hk]; rfl
      · rw [List.mem_singleton.mp hk]; rfl
    have htake : mimeType.toList.take 6 = kind.toList ++ ['/'] := by
      rw [hs, List.take_append, List.take_of_length_le (by omega), hlength]
      rfl
    have hdrop : mimeType.toList.drop 6 = rest := by
      rw [hs, List.drop_append, List.drop_of_length_le (by omega), hlength]
      rfl
    have hfive : mimeType.toList.take 5 = kind.toList := by
      rw [hs, List.take_append, List.take_of_length_le (by omega), hlength]
      simp
    simp only [htake, hdrop, hfive, String.ofList_toList]
    have hlower : lower (String.ofList (kind.toList ++ ['/'])) = lower kind ++ "/" := by
      rw [← String.toList_inj, toList_lower, String.toList_ofList, List.map_append, hmap,
        String.toList_append]
      rfl
    have hslash : lower kind ++ "/" ∈ ["audio/", "video/"] := by
      rcases List.mem_cons.mp hkind with hk | hk
      · rw [hk]; decide
      · rw [List.mem_singleton.mp hk]; decide
    rw [hlower, if_pos ⟨hslash, hrest⟩]

/-- The kind of a mime type is "audio" or "video" but for its case, and makes an rtx mime type. -/
theorem mimeKind_spec {mimeType kind : String} (h : mimeKind mimeType = some kind) :
    lower kind ∈ ["audio", "video"] ∧ mimeKind (kind ++ "/rtx") = some kind := by
  obtain ⟨_, -, hkind, -⟩ := mimeKind_iff.mp h
  refine ⟨hkind, mimeKind_iff.mpr ⟨['r', 't', 'x'], ?_, hkind, by decide, by decide, by decide⟩⟩
  rw [String.toList_append]
  rfl

/-! ### Emitted codecs -/

/-- What an extended codec becomes: a media codec, and the rtx codec behind it, if there is one. -/
def Emitted (key : String) (payloadType rtxPayloadType : Json) (out : List Json) : Prop :=
  ∃ codec, codec.find key = some payloadType ∧ isRtxCodec codec = .ok false ∧
    ((rtxPayloadType = .null ∧ out = [codec]) ∨
      (rtxPayloadType ≠ .null ∧ ∃ rtx apt, rtx.find key = some rtxPayloadType ∧
        isRtxCodec rtx = .ok true ∧ payloadType.toUInt 8 = .ok apt ∧
        readParameter id "apt" rtx = some (.uint apt) ∧ out = [codec, rtx]))

theorem isNull_iff {j : Json} : j.isNull = true ↔ j = .null := by
  cases j <;> simp [Json.isNull]

/-- Whether a codec with a mime type is an rtx codec. -/
theorem isRtxCodec_eq {codec : Json} {s : String} (h : codec.find "mimeType" = some (.str s)) :
    isRtxCodec codec = .ok (decide (lower s ∈ ["audio/rtx", "video/rtx"])) := by
  unfold isRtxCodec
  rw [read_of_find h]
  rfl

theorem lower_rtx {kind : String} (h : lower kind ∈ ["audio", "video"]) :
    lower (kind ++ "/rtx") ∈ ["audio/rtx", "video/rtx"] := by
  rw [lower_append]
  rcases List.mem_cons.mp h with hk | hk
  · rw [hk]; decide
  · rw [List.mem_singleton.mp hk]; decide

/-- The members of an object that are set one after the other. -/
theorem find_object_concat (members : List (String × Json)) (kv : String × Json) (k : String) :
    (Json.object (members ++ [kv])).find k =
      if k = kv.1 then some kv.2 else (Json.object members).find k := by
  unfold Json.object
  rw [List.foldl_append]
  exact get_put kv.1 k kv.2 _

/-- The channels are set behind the other members. -/
theorem find_withChannels (ext : ExtendedCodec) (members : List (String × Json)) {k : String}
    (hk : k ≠ "channels") : (withChannels ext members).find k = (Json.object members).find k := by
  unfold withChannels
  cases ext.channels with
  | none => rw [Option.toList_none, List.map_nil, List.append_nil]
  | some channels => rw [Option.toList_some, List.map_singleton, find_object_concat, if_neg hk]

/-- The codec of an extended one, and its rtx codec unless it has none. -/
theorem emitted_total {key : String} {codec payloadType rtxPayloadType : Json} {rtx : ℕ → Json}
    (hpt : codec.find key = some payloadType) (hno : isRtxCodec codec = .ok false)
    (hint : rtxPayloadType = .null ∨
      (rtxPayloadType.isNumberInteger = true ∧ payloadType.isNumberInteger = true))
    (hrtx : ∀ apt, (rtx apt).find key = some rtxPayloadType ∧ isRtxCodec (rtx apt) = .ok true ∧
      readParameter id "apt" (rtx apt) = some (.uint apt)) :
    ∃ out, (if rtxPayloadType.isNull = true then return [codec]
      else do
        let apt ← payloadType.toUInt 8
        return [codec, rtx apt]) = (.ok out : Except Fault (List Json)) ∧
      Emitted key payloadType rtxPayloadType out := by
  by_cases hnull : rtxPayloadType.isNull = true
  · rw [if_pos hnull]
    exact ⟨_, rfl, codec, hpt, hno, Or.inl ⟨isNull_iff.mp hnull, rfl⟩⟩
  · rw [if_neg hnull]
    have hne : rtxPayloadType ≠ .null := fun hc => hnull (isNull_iff.mpr hc)
    obtain ⟨apt, hapt⟩ := toUInt_of_integer (hint.resolve_left hne).2 8
    obtain ⟨hkey, hyes, hread⟩ := hrtx apt
    rw [hapt, ok_bind]
    exact ⟨_, rfl, codec, hpt, hno, Or.inr ⟨hne, rtx apt, apt, hkey, hyes, hapt, hread, rfl⟩⟩

/-- The receive codecs of an extended codec. -/
theorem recvCodecs_emitted {ext : ExtendedCodec} (h : ExtendedShape ext) :
    ∃ out, recvCodecs ext = .ok out ∧
      Emitted "preferredPayloadType" ext.remotePayloadType ext.remoteRtxPayloadType out := by
  obtain ⟨mimeType, kind, hmime, hk, hkind, hno⟩ := h.kind
  unfold recvCodecs
  simp only [hkind, Json.toStr, ok_bind]
  refine emitted_total ?_ ?_ h.remoteRtx fun apt => ⟨?_, ?_, ?_⟩
  · rw [find_withChannels _ _ (by decide)]
    simp [Json.object, Json.find, get_put]
  · rw [isRtxCodec_eq (s := mimeType) (by
      rw [find_withChannels _ _ (by decide), hmime]
      simp [Json.object, Json.find, get_put]), decide_eq_false hno]
  · simp [Json.object, Json.find, get_put]
  · rw [isRtxCodec_eq (s := kind ++ "/rtx") (by simp [Json.object, Json.find, get_put]),
      decide_eq_true (lower_rtx (mimeKind_spec hk).1)]
  · simp [readParameter, Json.object, Json.find, get_put]

/-- The sent codecs of an extended codec. -/
theorem sendingCodecs_emitted {ext : ExtendedCodec} (h : ExtendedShape ext) :
    ∃ out, sendingCodecs ext = .ok out ∧
      Emitted "payloadType" ext.localPayloadType ext.localRtxPayloadType out := by
  obtain ⟨mimeType, kind, hmime, hk, hkind, hno⟩ := h.kind
  unfold sendingCodecs
  simp only [hkind, Json.toStr, ok_bind]
  refine emitted_total ?_ ?_ h.localRtx fun apt => ⟨?_, ?_, ?_⟩
  · rw [find_withChannels _ _ (by decide)]
    simp [Json.object, Json.find, get_put]
  · rw [isRtxCodec_eq (s := mimeType) (by
      rw [find_withChannels _ _ (by decide), hmime]
      simp [Json.object, Json.find, get_put]), decide_eq_false hno]
  · simp [Json.object, Json.find, get_put]
  · rw [isRtxCodec_eq (s := kind ++ "/rtx") (by simp [Json.object, Json.find, get_put]),
      decide_eq_true (lower_rtx (mimeKind_spec hk).1)]
  · simp [readParameter, Json.object, Json.find, get_put]

/-! ### What is accepted again -/

theorem FeedbackText.accepted {fb : Json} (h : FeedbackText fb) :
    ∃ fb', validateRtcpFeedback fb = .ok fb' := by
  obtain ⟨m, rfl, htype, -⟩ := h
  exact ⟨_, bind_ok.mpr ⟨(), require_ok.mpr htype, rfl⟩⟩

/-- What has the shape of a validated codec is accepted. -/
theorem CodecShape.accepted {c : Json} (h : CodecShape c) :
    ∃ c', validateRtpCodecCapability c = .ok c' := by
  obtain ⟨m, rfl⟩ : ∃ m, c = .obj m := by
    cases c with
    | obj m => exact ⟨m, rfl⟩
    | _ => exact absurd h.isObject (by simp [Json.isObject])
  obtain ⟨mimeType, kind, hmime, hk, -⟩ := h.kind
  obtain ⟨clockRate, hclock, hint⟩ := h.clockRate
  obtain ⟨p, hp, hvalid⟩ := h.parameters
  obtain ⟨feedback, hfb, hall⟩ := h.rtcpFeedback
  have hput : ∀ k ≠ "kind", Lib.get k (put "kind" (.str kind) m) = (Json.obj m).find k :=
    fun k hk => get_put_of_ne _ hk m
  have hkind : codecKind m = .ok kind := by
    unfold codecKind
    rw [show Lib.get "mimeType" m = _ from hmime]
    simp only [hk]
  obtain ⟨feedback', hmap⟩ := mapM_total fun fb hmem => (hall fb hmem).accepted
  have hclock' : has (put "kind" (.str kind) m) "clockRate" Json.isNumberInteger = true :=
    has_iff.mpr ⟨clockRate, (hput _ (by decide)).trans hclock, hint⟩
  have hvalid' : (parametersOf (put "kind" (.str kind) m)).forM validateParameter = .ok () := by
    rw [parametersOf, hput _ (by decide), hp]
    exact forM_total hvalid
  have hfb' : (feedbackOf (put "kind" (.str kind) m)).mapM validateRtcpFeedback =
      .ok feedback' := by
    rw [feedbackOf, hput _ (by decide), hfb]
    exact hmap
  obtain ⟨c', hc'⟩ : ∃ c', validateCodecRest kind (put "kind" (.str kind) m) = .ok c' :=
    validateCodecRest_total hclock' hvalid' hfb'
  refine ⟨c', bind_ok.mpr ⟨kind, hkind, bind_ok.mpr ⟨(), require_ok.mpr ?_, hc'⟩⟩⟩
  exact hasOrLacks_iff.mpr fun v hv => h.payloadType v ((hput _ (by decide)).symm.trans hv)

/-- A codec that is written down member by member. -/
theorem codecShape_object {mimeType kind : String} {payloadType clockRate : Json} {p : Members}
    {feedback : List Json} (hk : mimeKind mimeType = some kind)
    (hpt : payloadType.isNumberInteger = true) (hclock : clockRate.isNumberInteger = true)
    (hvalid : ∀ kv ∈ p, validateParameter kv = .ok ()) (hfb : ∀ fb ∈ feedback, FeedbackText fb)
    (ext : ExtendedCodec) :
    CodecShape (withChannels ext [("mimeType", .str mimeType), ("kind", .str kind),
      ("preferredPayloadType", payloadType), ("clockRate", clockRate), ("parameters", .obj p),
      ("rtcpFeedback", .arr feedback)]) := by
  refine ⟨rfl, ⟨mimeType, kind, ?_, hk, ?_⟩, ⟨clockRate, ?_, hclock⟩, fun v hv => ?_,
    ⟨p, ?_, hvalid⟩, ⟨feedback, ?_, hfb⟩⟩
  · rw [find_withChannels _ _ (by decide)]
    simp [Json.object, Json.find, get_put]
  · rw [find_withChannels _ _ (by decide)]
    simp [Json.object, Json.find, get_put]
  · rw [find_withChannels _ _ (by decide)]
    simp [Json.object, Json.find, get_put]
  · rw [find_withChannels _ _ (by decide)] at hv
    simp [Json.object, Json.find, get_put] at hv
    rw [← hv]
    exact hpt
  · rw [find_withChannels _ _ (by decide)]
    simp [Json.object, Json.find, get_put]
  · rw [find_withChannels _ _ (by decide)]
    simp [Json.object, Json.find, get_put]

/-- The receive codecs of a codec with a payload type. -/
theorem recvCodecs_shape {ext : ExtendedCodec} (h : ExtendedShape ext)
    (hpt : ext.remotePayloadType ≠ .null) {out : List Json} (hout : recvCodecs ext = .ok out) :
    ∀ c ∈ out, CodecShape c := by
  obtain ⟨mimeType, kind, hmime, hk, hkind, -⟩ := h.kind
  obtain ⟨p, hp, hvalid⟩ := h.localParameters
  obtain ⟨feedback, hfb, hall⟩ := h.rtcpFeedback
  have hint := h.remotePayloadType.resolve_left hpt
  unfold recvCodecs at hout
  simp only [hkind, hmime, hp, hfb, Json.toStr, ok_bind] at hout
  have hcodec := codecShape_object hk hint h.clockRate hvalid hall ext
  split_ifs at hout with hnull
  · cases hout
    exact fun c hc => List.mem_singleton.mp hc ▸ hcodec
  · obtain ⟨apt, -, hout⟩ := bind_ok.mp hout
    cases hout
    obtain ⟨hrtx, -⟩ := h.remoteRtx.resolve_left fun hc => hnull (isNull_iff.mpr hc)
    have hapt : ∀ kv ∈ [("apt", Json.uint apt)], validateParameter kv = .ok () := by
      intro kv hkv
      rw [List.mem_singleton.mp hkv]
      rfl
    have hcodec' := codecShape_object (mimeKind_spec hk).2 hrtx h.clockRate hapt
      (fun fb hmem => absurd hmem List.not_mem_nil) { ext with channels := none }
    intro c hc
    rcases List.mem_cons.mp hc with rfl | hc
    · exact hcodec
    · rw [List.mem_singleton.mp hc]
      exact hcodec'

/-- The receive extension of a header extension that has a direction. -/
theorem recvExtension_accepted {ext : ExtendedExtension} (h : HeaderExtended ext)
    {direction : String} (hdir : ext.direction = some direction) :
    ∃ out, recvExtension ext = .ok out ∧
      ∀ e ∈ out, ∃ e', validateRtpHeaderExtension e = .ok e' := by
  obtain ⟨kind, hk, hkind⟩ := h.kind
  obtain ⟨uri, huri, hne⟩ := h.uri
  unfold recvExtension
  rw [hdir]
  simp only
  split_ifs
  · exact ⟨[], rfl, fun e he => absurd he List.not_mem_nil⟩
  · refine ⟨_, rfl, fun e he => ?_⟩
    rw [List.mem_singleton.mp he, hkind, huri]
    unfold validateRtpHeaderExtension Json.object
    refine ⟨_, bind_ok.mpr ⟨(), require_ok.mpr ?_, bind_ok.mpr ⟨(), require_ok.mpr ?_,
      bind_ok.mpr ⟨(), require_ok.mpr ?_, bind_ok.mpr ⟨(), require_ok.mpr ?_,
        bind_ok.mpr ⟨(), require_ok.mpr ?_, bind_ok.mpr ⟨(), require_ok.mpr ?_, rfl⟩⟩⟩⟩⟩⟩⟩
    · simp [has, get_put, Json.isString]
    · simpa [has, get_put, Json.eqv] using hk
    · simpa [has, get_put, isText] using hne
    · simp [has, get_put, h.recvId]
    · simp [hasOrLacks, get_put, h.encrypt]
    · rw [hasOrLacks_iff]
      intro v hv
      rw [get_orDefault] at hv
      simp [get_put] at hv
      rw [← hv]
      rfl

/-! ### Receive capabilities -/

/-- The header extensions have a direction. -/
def HaveDirections (p : ExtendedExtension → Prop) (exts : List ExtendedExtension) : Prop :=
  ∀ e ∈ exts, p e → e.direction.isSome = true

theorem recvExtension_returns (e : ExtendedExtension) :
    (∃ out, recvExtension e = .ok out) ↔ e.direction.isSome = true := by
  unfold recvExtension
  cases e.direction with
  | none => exact iff_of_false (fun ⟨_, h⟩ => by cases h) (by decide)
  | some direction =>
    simp only
    refine iff_of_true ?_ rfl
    split_ifs
    · exact ⟨_, rfl⟩
    · exact ⟨_, rfl⟩

/-- The members of receive capabilities. -/
theorem getRecv_ok {ext : ExtendedRtpCapabilities} {recv : Json}
    (h : getRecvRtpCapabilities ext = .ok recv) :
    ∃ codecs exts, List.Forall₂ (fun e out => recvCodecs e = .ok out) ext.codecs codecs ∧
      List.Forall₂ (fun e out => recvExtension e = .ok out) ext.headerExtensions exts ∧
      recv = .object [("codecs", .arr codecs.flatten), ("headerExtensions", .arr exts.flatten)] ∧
      codecsOf recv = codecs.flatten := by
  obtain ⟨codecs, hcodecs, h⟩ := bind_ok.mp h
  obtain ⟨exts, hexts, h⟩ := bind_ok.mp h
  cases h
  refine ⟨codecs, exts, mapM_ok hcodecs, mapM_ok hexts, rfl, ?_⟩
  simp [codecsOf, Json.object, Json.find, get_put, Json.elems]

theorem getRecv_returns {ext : ExtendedRtpCapabilities} (h : ∀ e ∈ ext.codecs, ExtendedShape e) :
    (∃ recv, getRecvRtpCapabilities ext = .ok recv) ↔
      HaveDirections (fun _ => True) ext.headerExtensions := by
  constructor
  · rintro ⟨recv, hrecv⟩ e he -
    obtain ⟨-, exts, -, hexts, -⟩ := getRecv_ok hrecv
    obtain ⟨out, -, hout⟩ := mem_of_forall₂ hexts.flip he
    exact (recvExtension_returns e).mp ⟨out, hout⟩
  · intro hdir
    obtain ⟨codecs, hcodecs⟩ := mapM_total fun e he => by
      obtain ⟨out, hout, -⟩ := recvCodecs_emitted (h e he)
      exact ⟨out, hout⟩
    obtain ⟨exts, hexts⟩ := mapM_total fun e he =>
      (recvExtension_returns e).mpr (hdir e he trivial)
    exact ⟨_, bind_ok.mpr ⟨codecs, hcodecs, bind_ok.mpr ⟨exts, hexts, rfl⟩⟩⟩

/-- Receive capabilities are accepted, if their codecs have payload types. -/
theorem getRecv_accepted {ext : ExtendedRtpCapabilities} {recv : Json}
    (h : ∀ e ∈ ext.codecs, ExtendedShape e) (hexts : ∀ e ∈ ext.headerExtensions, HeaderExtended e)
    (hpt : ∀ e ∈ ext.codecs, e.remotePayloadType ≠ .null)
    (hrecv : getRecvRtpCapabilities ext = .ok recv) :
    ∃ valid, validateRtpCapabilities recv = .ok valid := by
  obtain ⟨codecs, outs, hcodecs, houts, rfl, -⟩ := getRecv_ok hrecv
  have hcodecs' : ∃ codecs', codecs.flatten.mapM validateRtpCodecCapability = .ok codecs' :=
    mapM_total fun c hc => by
      obtain ⟨out, hout, hc⟩ := List.mem_flatten.mp hc
      obtain ⟨e, he, hemit⟩ := mem_of_forall₂ hcodecs hout
      exact (recvCodecs_shape (h e he) (hpt e he) hemit c hc).accepted
  have hexts' : ∃ exts', outs.flatten.mapM validateRtpHeaderExtension = .ok exts' :=
    mapM_total fun x hx => by
      obtain ⟨out, hout, hx⟩ := List.mem_flatten.mp hx
      obtain ⟨e, he, hemit⟩ := mem_of_forall₂ houts hout
      obtain ⟨direction, hdir⟩ :=
        Option.isSome_iff_exists.mp ((recvExtension_returns e).mp ⟨out, hemit⟩)
      obtain ⟨out', hout', hall⟩ := recvExtension_accepted (hexts e he) hdir
      cases hout'.symm.trans hemit
      exact hall x hx
  obtain ⟨codecs', hcodecs'⟩ := hcodecs'
  obtain ⟨exts', hexts'⟩ := hexts'
  exact validateRtpCapabilities_total (Or.inl (by simp [get_put]))
    (Or.inl (by simp [get_put])) hcodecs' hexts'

/-- Receive capabilities are accepted exactly if their codecs have payload types. -/
theorem getRecv_accepted_iff {ext : ExtendedRtpCapabilities} {recv : Json}
    (h : ∀ e ∈ ext.codecs, ExtendedShape e) (hexts : ∀ e ∈ ext.headerExtensions, HeaderExtended e)
    (hrecv : getRecvRtpCapabilities ext = .ok recv) :
    (∃ valid, validateRtpCapabilities recv = .ok valid) ↔
      ∀ e ∈ ext.codecs, e.remotePayloadType ≠ .null := by
  refine ⟨fun ⟨valid, hvalid⟩ e he hnull => ?_, fun hpt => getRecv_accepted h hexts hpt hrecv⟩
  obtain ⟨outs, -, houts, -, -, hlist⟩ := getRecv_ok hrecv
  obtain ⟨out, hmem, hout⟩ := mem_of_forall₂ houts.flip he
  obtain ⟨out', hout', codec, hfind, -, hcase⟩ := recvCodecs_emitted (h e he)
  cases hout'.symm.trans hout
  have hcodec : codec ∈ codecsOf recv := by
    rw [hlist]
    refine List.mem_flatten.mpr ⟨_, hmem, ?_⟩
    rcases hcase with ⟨-, rfl⟩ | ⟨-, rtx, _, -, -, -, -, rfl⟩
    · exact List.mem_singleton_self codec
    · exact List.mem_cons_self ..
  obtain ⟨codec', -, hval⟩ := mem_of_forall₂ (codecsOf_validated hvalid).flip hcodec
  obtain ⟨m, _, _, rfl, -, -, hint, -⟩ := validateRtpCodecCapability_ok hval
  rw [hnull] at hfind
  exact absurd (hasOrLacks_iff.mp hint .null hfind) (by decide)

/-! ### Sending parameters -/

/-- An extended codec of the kind. -/
def ofKind (kind : String) (e : ExtendedCodec) : Bool := e.kind.toStr.toOption = some kind

theorem ExtendedShape.toStr_kind {e : ExtendedCodec} (h : ExtendedShape e) :
    ∃ k, e.kind.toStr = .ok k ∧ ∀ kind, ofKind kind e = decide (kind = k) := by
  obtain ⟨-, k, -, -, hk, -⟩ := h.kind
  refine ⟨k, by rw [hk]; rfl, fun kind => ?_⟩
  rw [ofKind, hk]
  change decide (some k = some kind) = _
  rw [decide_eq_decide, Option.some.injEq]
  exact eq_comm

theorem sendingExtension_returns {kind : String} {e : ExtendedExtension} (h : HeaderExtended e) :
    (∃ out, sendingExtension kind e = .ok out) ↔
      (e.kind = .str kind → e.direction.isSome = true) := by
  obtain ⟨k, -, hk⟩ := h.kind
  unfold sendingExtension
  rw [hk]
  simp only [Json.toStr, ok_bind, Json.str.injEq]
  by_cases hkind : kind = k
  · subst hkind
    rw [if_neg fun hne => hne rfl]
    cases e.direction with
    | none =>
      refine iff_of_false ?_ fun h => by cases h rfl
      rintro ⟨_, h⟩
      cases h
    | some direction =>
      simp only
      refine iff_of_true ?_ fun _ => rfl
      split_ifs
      · exact ⟨_, rfl⟩
      · exact ⟨_, rfl⟩
  · rw [if_pos hkind]
    exact iff_of_true ⟨_, rfl⟩ fun hc => absurd hc.symm hkind

/-- The uri of a header extension that is sent. -/
theorem sendingExtension_uri {kind : String} {e : ExtendedExtension} (h : HeaderExtended e)
    {out : List Json} (hout : sendingExtension kind e = .ok out) :
    ∀ x ∈ out, ∃ uri, x.isObject = true ∧ x.find "uri" = some (.str uri) := by
  obtain ⟨k, -, hk⟩ := h.kind
  obtain ⟨uri, huri, -⟩ := h.uri
  unfold sendingExtension at hout
  rw [hk] at hout
  simp only [Json.toStr, ok_bind] at hout
  split_ifs at hout
  · cases hout
    exact fun x hx => absurd hx List.not_mem_nil
  · split at hout
    · cases hout
    · split_ifs at hout
      · cases hout
        exact fun x hx => absurd hx List.not_mem_nil
      · cases hout
        intro x hx
        rw [List.mem_singleton.mp hx]
        refine ⟨uri, rfl, ?_⟩
        rw [huri]
        simp [Json.object, Json.find, get_put]

/-- The loop over the header extensions, for a kind. -/
theorem sendingExtensions_returns {kind : String} {exts : List ExtendedExtension}
    (h : ∀ e ∈ exts, HeaderExtended e) :
    (∃ outs, exts.mapM (sendingExtension kind) = .ok outs) ↔
      HaveDirections (fun e => e.kind = .str kind) exts := by
  rw [mapM_returns]
  exact forall₂_congr fun e he => sendingExtension_returns (h e he)

/-- The codecs of the sending parameters are those of the first codec of the kind. -/
theorem firstOfKind_eq {kind : String} {codecs : List ExtendedCodec}
    (h : ∀ e ∈ codecs, ExtendedShape e) :
    firstOfKind kind codecs = match codecs.find? (ofKind kind) with
      | none => .ok []
      | some e => sendingCodecs e := by
  induction codecs with
  | nil => rfl
  | cons e codecs ih =>
    obtain ⟨k, hk, hof⟩ := (h e (List.mem_cons_self ..)).toStr_kind
    unfold firstOfKind
    rw [hk, ok_bind, List.find?_cons, hof]
    by_cases hkind : kind = k
    · rw [if_neg fun hne => hne hkind, decide_eq_true hkind]
    · rw [if_pos hkind, decide_eq_false hkind]
      exact ih fun x hx => h x (List.mem_cons_of_mem _ hx)

theorem getSending_returns {kind : String} {ext : ExtendedRtpCapabilities}
    (h : ∀ e ∈ ext.codecs, ExtendedShape e) (hexts : ∀ e ∈ ext.headerExtensions, HeaderExtended e) :
    (∃ params, getSendingRtpParameters kind ext = .ok params) ↔
      HaveDirections (fun e => e.kind = .str kind) ext.headerExtensions := by
  rw [← sendingExtensions_returns hexts]
  have hcodecs : ∃ codecs, firstOfKind kind ext.codecs = .ok codecs := by
    rw [firstOfKind_eq h]
    cases hfind : ext.codecs.find? (ofKind kind) with
    | none => exact ⟨[], rfl⟩
    | some e =>
      obtain ⟨out, hout, -⟩ := sendingCodecs_emitted (h e (List.mem_of_find?_eq_some hfind))
      exact ⟨out, hout⟩
  constructor
  · rintro ⟨params, hp⟩
    obtain ⟨codecs, -, hp⟩ := bind_ok.mp hp
    obtain ⟨outs, houts, -⟩ := bind_ok.mp hp
    exact ⟨outs, houts⟩
  · rintro ⟨outs, houts⟩
    obtain ⟨codecs, hc⟩ := hcodecs
    exact ⟨_, bind_ok.mpr ⟨codecs, hc, bind_ok.mpr ⟨outs, houts, rfl⟩⟩⟩

/-! ### Remote sending parameters -/

/-- What is read of a sent codec when its feedback is filtered. -/
def FeedbackListed (c : Json) : Prop :=
  c.isObject = true ∧ ∃ feedback, c.find "rtcpFeedback" = some (.arr feedback) ∧
    ∀ fb ∈ feedback, FeedbackText fb

theorem sendingCodecs_feedback {ext : ExtendedCodec} (h : ExtendedShape ext) {out : List Json}
    (hout : sendingCodecs ext = .ok out) : ∀ c ∈ out, FeedbackListed c := by
  obtain ⟨mimeType, kind, -, -, hkind, -⟩ := h.kind
  obtain ⟨feedback, hfb, hall⟩ := h.rtcpFeedback
  unfold sendingCodecs at hout
  simp only [hkind, hfb, Json.toStr, ok_bind] at hout
  have hcodec : FeedbackListed (withChannels ext [("mimeType", ext.mimeType),
      ("payloadType", ext.localPayloadType), ("clockRate", ext.clockRate),
      ("parameters", ext.localParameters), ("rtcpFeedback", .arr feedback)]) := by
    refine ⟨rfl, feedback, ?_, hall⟩
    rw [find_withChannels _ _ (by decide)]
    simp [Json.object, Json.find, get_put]
  split_ifs at hout
  · cases hout
    exact fun c hc => List.mem_singleton.mp hc ▸ hcodec
  · obtain ⟨apt, -, hout⟩ := bind_ok.mp hout
    cases hout
    intro c hc
    rcases List.mem_cons.mp hc with rfl | hc
    · exact hcodec
    · rw [List.mem_singleton.mp hc]
      refine ⟨rfl, [], ?_, fun fb hmem => absurd hmem List.not_mem_nil⟩
      simp [Json.object, Json.find, get_put]

/-- A filter whose test always succeeds. -/
theorem filterM_eq {ε α : Type} {p : α → Except ε Bool} {q : α → Bool} {xs : List α}
    (h : ∀ x ∈ xs, p x = .ok (q x)) : xs.filterM p = .ok (xs.filter q) := by
  have haux : ∀ acc, xs.filterAuxM p acc = .ok ((xs.filter q).reverse ++ acc) := by
    induction xs with
    | nil => exact fun acc => rfl
    | cons x xs ih =>
      intro acc
      rw [List.filterAuxM, h x (List.mem_cons_self ..), ok_bind,
        ih (fun y hy => h y (List.mem_cons_of_mem _ hy)), List.filter_cons]
      cases q x <;> simp
  rw [List.filterM, haux [], ok_bind, List.append_nil]
  exact congrArg Except.ok (List.reverse_reverse _)

theorem filterM_total {ε α : Type} {p : α → Except ε Bool} {xs : List α}
    (h : ∀ x ∈ xs, ∃ b, p x = .ok b) : ∃ ys, xs.filterM p = .ok ys := by
  refine ⟨_, filterM_eq (q := fun x => (p x).toOption.getD false) fun x hx => ?_⟩
  obtain ⟨b, hb⟩ := h x hx
  rw [hb]
  rfl

/-- The feedback of a sent codec can be filtered, and nothing else changes. -/
theorem withoutFeedback_total {c : Json} (h : FeedbackListed c) (types : List String) :
    ∃ c', withoutFeedback types c = .ok c' ∧ ∀ k ≠ "rtcpFeedback", c'.find k = c.find k := by
  obtain ⟨hobj, feedback, hfb, hall⟩ := h
  have hread : c.readOrNull "rtcpFeedback" = .ok (.arr feedback) := by
    rw [readOrNull_of_isObject hobj, hfb]
    rfl
  unfold withoutFeedback
  rw [hread, ok_bind]
  have htypes : ∀ fb ∈ feedback, ∃ b, (do
      return decide ((← (← fb.readOrNull "type").toStr) ∉ types) : Except Fault Bool) = .ok b := by
    intro fb hmem
    obtain ⟨m, rfl, htype, -⟩ := hall fb hmem
    obtain ⟨type, ht, hs⟩ := has_iff.mp htype
    cases type with
    | str s =>
      refine ⟨decide (s ∉ types), bind_ok.mpr ⟨.str s, ?_, bind_ok.mpr ⟨s, rfl, rfl⟩⟩⟩
      change Except.ok ((Lib.get "type" m).getD .null) = _
      rw [ht]
      rfl
    | _ => cases hs
  obtain ⟨kept, hkept⟩ := filterM_total htypes
  cases c with
  | obj m =>
    refine ⟨.obj (put "rtcpFeedback" (.arr kept) m), ?_, fun k hk => get_put_of_ne _ hk m⟩
    exact bind_ok.mpr ⟨kept, hkept, rfl⟩
  | _ => cases hobj

theorem hasUri_total (uri : String) {exts : List Json}
    (h : ∀ x ∈ exts, ∃ u, x.isObject = true ∧ x.find "uri" = some (.str u)) :
    ∃ b, hasUri uri exts = .ok b := by
  have htest : ∀ x ∈ exts, ∃ b, (do
      return decide ((← (← x.readOrNull "uri").toStr) = uri) : Except Fault Bool) = .ok b := by
    intro x hx
    obtain ⟨u, hobj, hu⟩ := h x hx
    rw [readOrNull_of_isObject hobj, hu]
    exact ⟨_, rfl⟩
  obtain ⟨idx, hidx⟩ := findIdx_total htest
  exact ⟨_, bind_ok.mpr ⟨idx, hidx, rfl⟩⟩

theorem unusedFeedback_total {exts : List Json}
    (h : ∀ x ∈ exts, ∃ u, x.isObject = true ∧ x.find "uri" = some (.str u)) :
    ∃ types, unusedFeedback exts = .ok types := by
  refine bind_total (hasUri_total _ h) fun first => ?_
  split_ifs
  · exact ⟨_, rfl⟩
  · refine bind_total (hasUri_total _ h) fun second => ?_
    split_ifs
    · exact ⟨_, rfl⟩
    · exact ⟨_, rfl⟩

/-- The remote sending codecs of one extended codec, before their feedback is filtered. -/
def answeredCodecs (kind : String) (e : ExtendedCodec) : Except Fault (List Json) :=
  if ofKind kind e then sendingCodecs { e with localParameters := e.remoteParameters } else .ok []

theorem sendingRemoteCodecs_eq {e : ExtendedCodec} (h : ExtendedShape e) (kind : String) :
    sendingRemoteCodecs kind e = answeredCodecs kind e := by
  obtain ⟨k, hk, hof⟩ := h.toStr_kind
  unfold sendingRemoteCodecs answeredCodecs
  rw [hk, ok_bind, hof]
  by_cases hkind : kind = k
  · rw [if_neg fun hne => hne hkind, if_pos (decide_eq_true hkind)]
  · rw [if_pos hkind, if_neg (by simpa using hkind)]
    rfl

/-- The same codec for the answer. -/
theorem ExtendedShape.answered {e : ExtendedCodec} (h : ExtendedShape e) :
    ExtendedShape { e with localParameters := e.remoteParameters } :=
  { h with localParameters := h.remoteParameters }

theorem answeredCodecs_total {e : ExtendedCodec} (h : ExtendedShape e) (kind : String) :
    ∃ out, answeredCodecs kind e = .ok out ∧ (∀ c ∈ out, FeedbackListed c) ∧
      (ofKind kind e = true → Emitted "payloadType" e.localPayloadType e.localRtxPayloadType out) ∧
      (ofKind kind e = false → out = []) := by
  unfold answeredCodecs
  cases hof : ofKind kind e with
  | true =>
    obtain ⟨out, hout, hemit⟩ := sendingCodecs_emitted h.answered
    exact ⟨out, hout, sendingCodecs_feedback h.answered hout, fun _ => hemit, fun hc => by cases hc⟩
  | false =>
    exact ⟨[], rfl, fun c hc => absurd hc List.not_mem_nil, fun hc => (by cases hc), fun _ => rfl⟩

/-- The same codec but for its feedback. -/
def SameButFeedback (c c' : Json) : Prop := ∀ k ≠ "rtcpFeedback", c'.find k = c.find k

/-- The codecs of the remote sending parameters. -/
theorem getSendingRemote_ok {kind : String} {ext : ExtendedRtpCapabilities} {params : Json}
    (h : ∀ e ∈ ext.codecs, ExtendedShape e)
    (hparams : getSendingRemoteRtpParameters kind ext = .ok params) :
    ∃ outs, List.Forall₂ (fun e out => answeredCodecs kind e = .ok out) ext.codecs outs ∧
      List.Forall₂ SameButFeedback outs.flatten (codecsOf params) := by
  obtain ⟨outs, houts, hparams⟩ := bind_ok.mp hparams
  obtain ⟨exts, -, hparams⟩ := bind_ok.mp hparams
  obtain ⟨unused, -, hparams⟩ := bind_ok.mp hparams
  obtain ⟨codecs, hcodecs, hparams⟩ := bind_ok.mp hparams
  cases hparams
  have heq : List.Forall₂ (fun e out => answeredCodecs kind e = .ok out) ext.codecs outs :=
    ((List.forall₂_and_left _ _).mpr ⟨h, mapM_ok houts⟩).imp fun e out he => by
      rw [← sendingRemoteCodecs_eq he.1]
      exact he.2
  have hlisted : ∀ c ∈ outs.flatten, FeedbackListed c := fun c hc => by
    obtain ⟨out, hout, hc⟩ := List.mem_flatten.mp hc
    obtain ⟨e, he, heout⟩ := mem_of_forall₂ heq hout
    obtain ⟨out', hout', hall, -⟩ := answeredCodecs_total (h e he) kind
    cases hout'.symm.trans heout
    exact hall c hc
  have hcodecs' : List.Forall₂ SameButFeedback outs.flatten codecs :=
    ((List.forall₂_and_left _ _).mpr ⟨hlisted, mapM_ok hcodecs⟩).imp fun c c' hc => by
      obtain ⟨c'', hc'', hsame⟩ := withoutFeedback_total hc.1 unused
      cases hc''.symm.trans hc.2
      exact hsame
  refine ⟨outs, heq, ?_⟩
  simpa [codecsOf, Json.object, Json.find, get_put, Json.elems] using hcodecs'

theorem getSendingRemote_returns {kind : String} {ext : ExtendedRtpCapabilities}
    (h : ∀ e ∈ ext.codecs, ExtendedShape e) (hexts : ∀ e ∈ ext.headerExtensions, HeaderExtended e) :
    (∃ params, getSendingRemoteRtpParameters kind ext = .ok params) ↔
      HaveDirections (fun e => e.kind = .str kind) ext.headerExtensions := by
  rw [← sendingExtensions_returns hexts]
  constructor
  · rintro ⟨params, hp⟩
    obtain ⟨codecs, -, hp⟩ := bind_ok.mp hp
    obtain ⟨outs, houts, -⟩ := bind_ok.mp hp
    exact ⟨outs, houts⟩
  · rintro ⟨outs, houts⟩
    obtain ⟨codecs, hcodecs⟩ := mapM_total (f := sendingRemoteCodecs kind) fun e he => by
      obtain ⟨out, hout, -⟩ := answeredCodecs_total (h e he) kind
      exact ⟨out, (sendingRemoteCodecs_eq (h e he) kind).trans hout⟩
    have hlisted : ∀ c ∈ codecs.flatten, FeedbackListed c := fun c hc => by
      obtain ⟨out, hout, hc⟩ := List.mem_flatten.mp hc
      obtain ⟨e, he, heout⟩ := mem_of_forall₂ (mapM_ok hcodecs) hout
      obtain ⟨out', hout', hall, -⟩ := answeredCodecs_total (h e he) kind
      rw [sendingRemoteCodecs_eq (h e he)] at heout
      cases hout'.symm.trans heout
      exact hall c hc
    have huris : ∀ x ∈ outs.flatten, ∃ u, x.isObject = true ∧ x.find "uri" = some (.str u) :=
      fun x hx => by
        obtain ⟨out, hout, hx⟩ := List.mem_flatten.mp hx
        obtain ⟨e, he, heout⟩ := mem_of_forall₂ (mapM_ok houts) hout
        exact sendingExtension_uri (hexts e he) heout x hx
    obtain ⟨unused, hunused⟩ := unusedFeedback_total huris
    obtain ⟨codecs', hcodecs'⟩ := mapM_total (f := withoutFeedback unused) fun c hc => by
      obtain ⟨c', hc', -⟩ := withoutFeedback_total (hlisted c hc) unused
      exact ⟨c', hc'⟩
    exact ⟨_, bind_ok.mpr ⟨codecs, hcodecs, bind_ok.mpr ⟨outs, houts, bind_ok.mpr ⟨unused, hunused,
      bind_ok.mpr ⟨codecs', hcodecs', rfl⟩⟩⟩⟩⟩

end MediasoupClient.Sdp
