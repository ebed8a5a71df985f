import MediasoupClient.Sdp.MediaSection
import Mathlib.Algebra.Order.BigOperators.Group.List

/-! The lines of an offered section (sdputil/MediaSection.cpp).

        codec          payloadType  mimeType  clockRate  parameters  rtcpFeedback   headerExtensions ...
                            │          │          │          │            │
                            ▼          ▼          ▼          ▼            ▼
        lines          a=rtpmap:96 VP8/90000            a=fmtp:96 k=v;k=v   a=rtcp-fb:96 nack

    Every member is read of a const value, so it has to be there. The section is built exactly if
    all of them are, and then it has one fmtp line for each codec that has something to print. -/

namespace MediasoupClient.Sdp
open Lib

/-! ### What has to be there -/

/-- A codec whose lines can be printed. -/
structure CodecReady (codec : Json) : Prop where
  payloadType : ∃ v n, codec.find "payloadType" = some v ∧ v.toUInt 8 = .ok n
  mimeType : ∃ s, codec.find "mimeType" = some (.str s)
  clockRate : ∃ v, codec.find "clockRate" = some v
  channels : ∀ v, codec.find "channels" = some v → ∃ n, v.toUInt 8 = .ok n
  parameters : ∃ v, codec.find "parameters" = some v
  rtcpFeedback : ∃ v, codec.find "rtcpFeedback" = some v ∧
    ∀ fb ∈ v.elems, ∃ t p, fb.find "type" = some t ∧ fb.find "parameter" = some p

/-- Parameters whose section can be built. -/
structure OfferReady (params : Json) : Prop where
  codecs : ∃ v, params.find "codecs" = some v ∧ ∀ c ∈ v.elems, CodecReady c
  headerExtensions : ∃ v, params.find "headerExtensions" = some v ∧
    ∀ e ∈ v.elems, ∃ u i, e.find "uri" = some u ∧ e.find "id" = some i
  encodings : ∃ items e v n, params.find "encodings" = some (.arr items) ∧ items[0]? = some e ∧
    e.find "ssrc" = some v ∧ v.toUInt 32 = .ok n ∧
    ∀ r, ((e.find "rtx").bind fun rtx => rtx.find "ssrc") = some r → ∃ n, r.toUInt 32 = .ok n
  rtcp : ∃ v, params.find "rtcp" = some v

/-! ### The text of a fmtp line -/

/-- A parameter as it stands in a fmtp line. -/
def entryText (parameter : String × Json) : String :=
  parameter.1 ++ "=" ++ paramText parameter.2

theorem entryText_ne (parameter : String × Json) : entryText parameter ≠ "" := by
  intro h
  have hlength := congrArg String.length h
  simp [entryText] at hlength

/-- The loop over the parameters joins their texts. -/
theorem fmtpConfig_eq (q : List (String × Json)) :
    fmtpConfig (.obj q) = ";".intercalate (q.map entryText) := by
  rw [← foldl_join ";" fun parameter _ => entryText_ne parameter]
  unfold fmtpConfig entryText
  simp only [String.append_assoc]
  rfl

/-- The length of a joined text, counting one separator for each part. -/
theorem length_intercalate {l : List String} (h : l ≠ []) :
    (";".intercalate l).length + 1 = (l.map fun t => t.length + 1).sum := by
  induction l with
  | nil => exact absurd rfl h
  | cons t l ih =>
    cases l with
    | nil => simp
    | cons u us =>
      have hrest := ih (List.cons_ne_nil u us)
      rw [String.intercalate_cons_cons, List.map_cons, List.sum_cons, ← hrest]
      simp only [String.length_append]
      change t.length + 1 + _ + 1 = _
      omega

/-- A part of a list that weighs as much as the whole is the whole. -/
theorem filter_weighs {α : Type} {p : α → Bool} {f : α → ℕ} (hf : ∀ a, 0 < f a) {xs : List α}
    (h : ((xs.filter p).map f).sum = (xs.map f).sum) : ∀ x ∈ xs, p x = true := by
  have hle : ∀ xs : List α, ((xs.filter p).map f).sum ≤ (xs.map f).sum := fun xs =>
    (List.filter_sublist.map f).sum_le_sum fun _ _ => Nat.zero_le _
  induction xs with
  | nil => exact fun x hx => absurd hx List.not_mem_nil
  | cons a xs ih =>
    rw [List.map_cons, List.sum_cons] at h
    have ha : p a = true := by
      by_contra hno
      rw [List.filter_cons_of_neg hno] at h
      have hrest := hle xs
      have hpos := hf a
      omega
    rw [List.filter_cons_of_pos ha, List.map_cons, List.sum_cons] at h
    exact List.forall_mem_cons.mpr ⟨ha, ih (by omega)⟩

/-! ### The lines of a codec -/

/-- The fmtp line of a codec, if it has something to print. -/
def fmtpLines (codec : Json) : List Json :=
  let config := fmtpConfig ((codec.find "parameters").getD .null)
  if config = "" then []
  else [Json.object [("payload", (codec.find "payloadType").getD .null), ("config", .str config)]]

/-- One turn of the codec loop of an offer. -/
def offerCodec (lines : RtpLines) (codec : Json) : Except Fault RtpLines := do
  let rtp ← rtpLine Json.read codec
  codecLines Json.read lines rtp codec (← codec.read "parameters")

theorem getCodecName_total {codec : Json} {s : String} (h : codec.find "mimeType" = some (.str s)) :
    ∃ name, getCodecName codec = .ok name := by
  unfold getCodecName
  rw [Json.read_ok.mpr h]
  simp only [ok_bind, Json.toStr]
  split_ifs
  · exact ⟨_, rfl⟩
  · exact ⟨_, rfl⟩

theorem getCodecName_mimeType {codec : Json} {name : String} (h : getCodecName codec = .ok name) :
    ∃ s, codec.find "mimeType" = some (.str s) := by
  obtain ⟨v, hv, h⟩ := bind_ok.mp h
  obtain ⟨s, hs, -⟩ := bind_ok.mp h
  cases Json.toStr_ok.mp hs
  exact ⟨s, Json.read_ok.mp hv⟩

section
variable {access : Json → String → Except Fault Json}
  (ha : ∀ {j k v}, j.find k = some v → access j k = .ok v)
include ha

theorem rtpLine_total {codec : Json} (h : CodecReady codec) :
    ∃ rtp, rtpLine access codec = .ok rtp := by
  obtain ⟨payload, _, hpayload, -⟩ := h.payloadType
  obtain ⟨_, hmime⟩ := h.mimeType
  obtain ⟨rate, hrate⟩ := h.clockRate
  obtain ⟨name, hname⟩ := getCodecName_total hmime
  unfold rtpLine
  rw [ha hpayload, hname, ha hrate]
  simp only [ok_bind]
  cases hch : codec.find "channels" with
  | none => exact ⟨_, rfl⟩
  | some channels =>
    obtain ⟨n, hn⟩ := h.channels channels hch
    simp only [hn, ok_bind]
    exact ⟨_, rfl⟩

/-- The lines of a codec, however its members are read. -/
theorem codecLines_total {codec : Json} (h : CodecReady codec) (lines : RtpLines) :
    ∃ lines', (do
      let rtp ← rtpLine access codec
      let codecParameters ← access codec "parameters"
      codecLines access lines rtp codec codecParameters) = .ok lines' := by
  obtain ⟨parameters, hparameters⟩ := h.parameters
  obtain ⟨payload, _, hpayload, -⟩ := h.payloadType
  obtain ⟨feedback, hfeedback, hall⟩ := h.rtcpFeedback
  refine bind_total (rtpLine_total ha h) fun rtp => ?_
  unfold codecLines
  rw [ha hparameters, ha hpayload, ha hfeedback]
  simp only [ok_bind]
  refine bind_total (mapM_total fun fb hfb => ?_) fun _ => ⟨_, rfl⟩
  obtain ⟨t, p, ht, hp⟩ := hall fb hfb
  rw [ha ht, ha hp]
  exact ⟨_, rfl⟩

end

theorem offerCodec_total {codec : Json} (h : CodecReady codec) (lines : RtpLines) :
    ∃ lines', offerCodec lines codec = .ok lines' :=
  codecLines_total Json.read_ok.mpr h lines

/-- A codec whose lines have been printed has everything but, perhaps, a payload type that fits. -/
theorem offerCodec_ok {lines lines' : RtpLines} {codec : Json}
    (h : offerCodec lines codec = .ok lines') :
    lines'.fmtp = lines.fmtp ++ fmtpLines codec ∧
      ∀ {n}, (codec.read "payloadType" >>= fun v => v.toUInt 8) = .ok n → CodecReady codec := by
  obtain ⟨rtp, hrtp, h⟩ := bind_ok.mp h
  obtain ⟨parameters, hparameters, h⟩ := bind_ok.mp h
  obtain ⟨payload, hpayload, h⟩ := bind_ok.mp h
  obtain ⟨feedback, hfeedback, h⟩ := bind_ok.mp h
  obtain ⟨rtcpFb, hfb, h⟩ := bind_ok.mp h
  cases h
  have hparameters := Json.read_ok.mp hparameters
  constructor
  · simp only [fmtpLines, hparameters, Json.read_ok.mp hpayload, Option.getD_some]
  · intro n hn
    obtain ⟨_, hv, hn⟩ := bind_ok.mp hn
    obtain ⟨_, -, hrtp⟩ := bind_ok.mp hrtp
    obtain ⟨name, hname, hrtp⟩ := bind_ok.mp hrtp
    obtain ⟨rate, hrate, hrtp⟩ := bind_ok.mp hrtp
    refine ⟨⟨_, n, Json.read_ok.mp hv, hn⟩, getCodecName_mimeType hname,
      ⟨rate, Json.read_ok.mp hrate⟩, fun channels hch => ?_, ⟨parameters, hparameters⟩,
      ⟨feedback, Json.read_ok.mp hfeedback, fun fb hmem => ?_⟩⟩
    · rw [hch] at hrtp
      obtain ⟨n, hn, -⟩ := bind_ok.mp hrtp
      exact ⟨n, hn⟩
    · obtain ⟨_, -, hline⟩ := mem_of_forall₂ (mapM_ok hfb).flip hmem
      obtain ⟨t, ht, hline⟩ := bind_ok.mp hline
      obtain ⟨p, hp, -⟩ := bind_ok.mp hline
      exact ⟨t, p, Json.read_ok.mp ht, Json.read_ok.mp hp⟩

/-! ### The section -/

theorem payloadsLine_total {codecs : List Json} (h : ∀ c ∈ codecs, CodecReady c) :
    ∃ payloads, payloadsLine Json.read codecs = .ok payloads := by
  refine foldlM_total (fun c hc payloads => ?_) ""
  obtain ⟨v, n, hv, hn⟩ := (h c hc).payloadType
  rw [Json.read_ok.mpr hv, ok_bind, hn]
  exact ⟨_, rfl⟩

/-- The body is made exactly if everything is there. -/
theorem offerMedia_iff {params : Json} {streamId trackId : String} :
    (∃ body, offerMedia params streamId trackId = .ok body) ↔ OfferReady params := by
  constructor
  · rintro ⟨body, h⟩
    obtain ⟨codecs, hcodecs, h⟩ := bind_ok.mp h
    obtain ⟨lines, hlines, h⟩ := bind_ok.mp h
    obtain ⟨payloads, hpayloads, h⟩ := bind_ok.mp h
    obtain ⟨exts, hexts, h⟩ := bind_ok.mp h
    obtain ⟨ext, hext, h⟩ := bind_ok.mp h
    obtain ⟨encodings, hencodings, h⟩ := bind_ok.mp h
    obtain ⟨encoding, hencoding, h⟩ := bind_ok.mp h
    obtain ⟨ssrc, hssrc, h⟩ := bind_ok.mp h
    obtain ⟨n, hn, h⟩ := bind_ok.mp h
    refine ⟨⟨codecs, Json.read_ok.mp hcodecs, fun c hc => ?_⟩,
      ⟨exts, Json.read_ok.mp hexts, fun e he => ?_⟩, ?_, ?_⟩
    · obtain ⟨_, _, hstep⟩ := foldlM_steps hlines c hc
      obtain ⟨_, _, hpayload⟩ := foldlM_steps hpayloads c hc
      obtain ⟨v, hv, hpayload⟩ := bind_ok.mp hpayload
      obtain ⟨n, hn, -⟩ := bind_ok.mp hpayload
      exact (offerCodec_ok hstep).2 (bind_ok.mpr ⟨v, hv, hn⟩)
    · obtain ⟨_, -, hline⟩ := mem_of_forall₂ (mapM_ok hext).flip he
      obtain ⟨u, hu, hline⟩ := bind_ok.mp hline
      obtain ⟨i, hi, -⟩ := bind_ok.mp hline
      exact ⟨u, i, Json.read_ok.mp hu, Json.read_ok.mp hi⟩
    · obtain ⟨items, harr, hitem⟩ := Json.readIdx_ok.mp hencoding
      refine ⟨items, encoding, ssrc, n, harr ▸ Json.read_ok.mp hencodings, hitem,
        Json.read_ok.mp hssrc, hn, fun r hr => ?_⟩
      rw [hr] at h
      obtain ⟨rtxSsrc, hrtx, -⟩ := bind_ok.mp h
      exact ⟨rtxSsrc, hrtx⟩
    · cases hr : (encoding.find "rtx").bind fun rtx => rtx.find "ssrc" with
      | none =>
        rw [hr] at h
        obtain ⟨_, -, h⟩ := bind_ok.mp h
        obtain ⟨rtcp, hrtcp, -⟩ := bind_ok.mp h
        exact ⟨rtcp, Json.read_ok.mp hrtcp⟩
      | some r =>
        rw [hr] at h
        obtain ⟨_, -, h⟩ := bind_ok.mp h
        obtain ⟨rtcp, hrtcp, -⟩ := bind_ok.mp h
        exact ⟨rtcp, Json.read_ok.mp hrtcp⟩
  · intro hready
    obtain ⟨codecs, hcodecs, hall⟩ := hready.codecs
    obtain ⟨exts, hexts, hextall⟩ := hready.headerExtensions
    obtain ⟨items, encoding, ssrc, n, hencodings, hitem, hssrc, hn, hrtx⟩ := hready.encodings
    obtain ⟨rtcp, hrtcp⟩ := hready.rtcp
    obtain ⟨lines, hlines⟩ := foldlM_total (f := offerCodec)
      (fun c hc lines => offerCodec_total (hall c hc) lines) {}
    obtain ⟨payloads, hpayloads⟩ := payloadsLine_total hall
    have hext : ∃ ext, exts.elems.mapM (fun e => do
        return Json.object [("uri", ← e.read "uri"), ("value", ← e.read "id")]) =
          (.ok ext : Except Fault _) := mapM_total fun e he => by
      obtain ⟨u, i, hu, hi⟩ := hextall e he
      rw [Json.read_ok.mpr hu, Json.read_ok.mpr hi]
      exact ⟨_, rfl⟩
    obtain ⟨ext, hext⟩ := hext
    unfold offerMedia
    rw [Json.read_ok.mpr hcodecs, Json.read_ok.mpr hexts, Json.read_ok.mpr hencodings,
      Json.read_ok.mpr hrtcp]
    have hlines' := hlines
    unfold offerCodec at hlines'
    simp only [ok_bind, hlines', hpayloads, hext, Json.readIdx_ok.mpr ⟨items, rfl, hitem⟩,
      Json.read_ok.mpr hssrc, hn]
    cases hr : (encoding.find "rtx").bind fun rtx => rtx.find "ssrc" with
    | none => exact ⟨_, rfl⟩
    | some r =>
      obtain ⟨m, hm⟩ := hrtx r hr
      simp only [hm, ok_bind]
      exact ⟨_, rfl⟩

/-- What a body is made of. -/
theorem offerMedia_ok {params : Json} {streamId trackId : String} {body : Body}
    (h : offerMedia params streamId trackId = .ok body) :
    ∃ codecs lines payloads ext ssrcs ssrcGroups, params.find "codecs" = some codecs ∧
      codecs.elems.foldlM offerCodec {} = .ok lines ∧
      payloadsLine Json.read codecs.elems = .ok payloads ∧
      body = .offer lines payloads ext ssrcs ssrcGroups := by
  obtain ⟨codecs, hcodecs, h⟩ := bind_ok.mp h
  obtain ⟨lines, hlines, h⟩ := bind_ok.mp h
  obtain ⟨payloads, hpayloads, h⟩ := bind_ok.mp h
  obtain ⟨exts, -, h⟩ := bind_ok.mp h
  obtain ⟨ext, -, h⟩ := bind_ok.mp h
  obtain ⟨encodings, -, h⟩ := bind_ok.mp h
  obtain ⟨encoding, -, h⟩ := bind_ok.mp h
  obtain ⟨ssrc, -, h⟩ := bind_ok.mp h
  obtain ⟨n, -, h⟩ := bind_ok.mp h
  have hbody : ∃ ssrcs ssrcGroups, body = .offer lines payloads ext ssrcs ssrcGroups := by
    cases hr : (encoding.find "rtx").bind fun rtx => rtx.find "ssrc" with
    | none =>
      rw [hr] at h
      obtain ⟨_, -, h⟩ := bind_ok.mp h
      obtain ⟨rtcp, -, h⟩ := bind_ok.mp h
      cases h
      exact ⟨_, _, rfl⟩
    | some r =>
      rw [hr] at h
      obtain ⟨_, -, h⟩ := bind_ok.mp h
      obtain ⟨rtcp, -, h⟩ := bind_ok.mp h
      cases h
      exact ⟨_, _, rfl⟩
  obtain ⟨ssrcs, ssrcGroups, rfl⟩ := hbody
  exact ⟨codecs, lines, payloads, ext, ssrcs, ssrcGroups, Json.read_ok.mp hcodecs, hlines, hpayloads,
    rfl⟩

/-- The fmtp lines of a body that has been made. -/
theorem offerMedia_fmtp {params : Json} {streamId trackId : String} {body : Body}
    (h : offerMedia params streamId trackId = .ok body) (m : StdMap String Json) :
    (assign m body.assignments).get "fmtp" =
      some (.arr (((params.find "codecs").getD .null).elems.flatMap fmtpLines)) := by
  obtain ⟨codecs, lines, payloads, ext, ssrcs, ssrcGroups, hcodecs, hlines, -, rfl⟩ :=
    offerMedia_ok h
  have hcollect := foldlM_collects (f := offerCodec) (o := RtpLines.fmtp)
    (fun hstep => (offerCodec_ok hstep).1) hlines
  rw [hcodecs, Option.getD_some]
  have hfmtp : lines.fmtp = codecs.elems.flatMap fmtpLines := hcollect
  simp only [Body.offer, mediaLines, rtcpLines, List.cons_append, List.nil_append, assign,
    List.foldl_cons, List.foldl_nil]
  simp [StdMap.get_insert, hfmtp]

end MediasoupClient.Sdp
