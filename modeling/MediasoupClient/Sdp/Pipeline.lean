import MediasoupClient.Sdp.Builders

/-! From two capabilities to the parameters that are sent.

        local, remote ──▶ extended ──┬──▶ receive capabilities ──▶ accepted again
                                     ├──▶ sending parameters         (audio and video)
                                     └──▶ remote sending parameters  (audio and video)

    Validation accepts more than the stages behind it can read: a profile that is null, an rtx codec
    without apt, a codec without payload type, a header extension of a fifth direction. -/

namespace MediasoupClient.Sdp
open Lib

/-! ### Directions -/

def directions : List String := ["sendrecv", "recvonly", "sendonly", "inactive"]

theorem oppositeDirection_isSome (direction : String) :
    (oppositeDirection direction).isSome = true ↔ direction ∈ directions := by
  unfold oppositeDirection directions
  split_ifs <;> simp_all

/-- Every remote header extension of the kind that has a local one like it has one of the four
    directions. -/
def DirectionsKnown (kind : String) (localExts remoteExts : List Json) : Prop :=
  ∀ r ∈ remoteExts, r.find "kind" = some (.str kind) →
    (∃ l ∈ localExts, sameExtension l r = true) → directionOf r ∈ directions

/-- The extended header extensions, by their remote one. -/
theorem mem_matchedExtensions {localExts remoteExts : List Json} {e : ExtendedExtension} :
    e ∈ matchedExtensions localExts remoteExts ↔ ∃ r ∈ remoteExts, ∃ l,
      localExts.find? (sameExtension · r) = some l ∧ e = extendedExtension l r := by
  unfold matchedExtensions
  rw [List.mem_filterMap]
  refine exists_congr fun r => and_congr_right fun _ => ?_
  rw [Option.map_eq_some_iff]
  exact exists_congr fun l => and_congr_right fun _ => eq_comm

/-- The header extensions of the kind have a direction exactly if those they are made of have one of
    the four. -/
theorem haveDirections_iff {kind : String} {localExts remoteExts : List Json}
    (hr : ∀ r ∈ remoteExts, HeaderShape r) :
    HaveDirections (fun e => e.kind = .str kind) (matchedExtensions localExts remoteExts) ↔
      DirectionsKnown kind localExts remoteExts := by
  have hkind : ∀ r ∈ remoteExts, ∀ l, (extendedExtension l r).kind = .str kind ↔
      r.find "kind" = some (.str kind) := fun r hmem l => by
    obtain ⟨k, -, hk⟩ := (hr r hmem).kind
    simp only [extendedExtension, hk, Option.getD_some, Option.some.injEq]
  constructor
  · rintro h r hmem hk ⟨l, hl, hsame⟩
    obtain ⟨l', hfind⟩ := Option.isSome_iff_exists.mp
      (List.find?_isSome (p := fun l => sameExtension l r).mpr ⟨l, hl, hsame⟩)
    refine (oppositeDirection_isSome _).mp (h (extendedExtension l' r) ?_ ((hkind r hmem l').mpr hk))
    exact mem_matchedExtensions.mpr ⟨r, hmem, l', hfind, rfl⟩
  · intro h e he hk
    obtain ⟨r, hmem, l, hfind, rfl⟩ := mem_matchedExtensions.mp he
    have hsame := List.find?_some (p := fun l => sameExtension l r) hfind
    exact (oppositeDirection_isSome _).mpr (h r hmem ((hkind r hmem l).mp hk)
      ⟨l, List.mem_of_find?_eq_some hfind, hsame⟩)

/-- Every header extension is of one of the two kinds. -/
theorem haveDirections_all {exts : List ExtendedExtension} (h : ∀ e ∈ exts, HeaderExtended e) :
    HaveDirections (fun _ => True) exts ↔
      ∀ kind ∈ ["audio", "video"], HaveDirections (fun e => e.kind = .str kind) exts := by
  constructor
  · exact fun hall kind _ e he _ => hall e he trivial
  · intro hall e he _
    obtain ⟨kind, hk, hkind⟩ := (h e he).kind
    exact hall kind hk e he hkind

section
variable {P : Type} [DecidableEq P] {profile : String → Option P}
variable {localCaps remoteCaps : Json} {ext : ExtendedRtpCapabilities}

/-- The directions of the extended header extensions are those of the remote ones. -/
theorem Negotiated.haveDirections_iff (h : Negotiated profile localCaps remoteCaps ext)
    (hr : ∀ r ∈ headerExtensionsOf remoteCaps, HeaderShape r) (kind : String) :
    HaveDirections (fun e => e.kind = .str kind) ext.headerExtensions ↔
      DirectionsKnown kind (headerExtensionsOf localCaps) (headerExtensionsOf remoteCaps) := by
  rw [h.headerExtensions]
  exact Sdp.haveDirections_iff hr

theorem Negotiated.recv_returns (h : Negotiated profile localCaps remoteCaps ext)
    (hr : ∀ r ∈ headerExtensionsOf remoteCaps, HeaderShape r) :
    (∃ recv, getRecvRtpCapabilities ext = .ok recv) ↔ ∀ kind ∈ ["audio", "video"],
      DirectionsKnown kind (headerExtensionsOf localCaps) (headerExtensionsOf remoteCaps) := by
  rw [getRecv_returns h.codecs, haveDirections_all h.extended]
  exact forall₂_congr fun kind _ => h.haveDirections_iff hr kind

theorem Negotiated.sending_returns (h : Negotiated profile localCaps remoteCaps ext)
    (hr : ∀ r ∈ headerExtensionsOf remoteCaps, HeaderShape r) (kind : String) :
    (∃ params, getSendingRtpParameters kind ext = .ok params) ↔
      DirectionsKnown kind (headerExtensionsOf localCaps) (headerExtensionsOf remoteCaps) := by
  rw [getSending_returns h.codecs h.extended]
  exact h.haveDirections_iff hr kind

theorem Negotiated.sendingRemote_returns (h : Negotiated profile localCaps remoteCaps ext)
    (hr : ∀ r ∈ headerExtensionsOf remoteCaps, HeaderShape r) (kind : String) :
    (∃ params, getSendingRemoteRtpParameters kind ext = .ok params) ↔
      DirectionsKnown kind (headerExtensionsOf localCaps) (headerExtensionsOf remoteCaps) := by
  rw [getSendingRemote_returns h.codecs h.extended]
  exact h.haveDirections_iff hr kind

end

/-! ### The pipeline -/

/-- Everything returns, nothing that is missing is read, and the receive capabilities are accepted
    again. A payload type that is missing reads as null. -/
def PipelineSafe (webrtc : WebRtc) (localCaps remoteCaps validLocal validRemote : Json) : Prop :=
  ∃ ext, getExtendedRtpCapabilities webrtc localCaps remoteCaps = .ok ext ∧
    (∀ e ∈ ext.codecs, e.localPayloadType ≠ .null ∧ e.remotePayloadType ≠ .null ∧
      e.RtxPaired (codecsOf validLocal) (codecsOf validRemote)) ∧
    (∃ recv valid, getRecvRtpCapabilities ext = .ok recv ∧
      validateRtpCapabilities recv = .ok valid) ∧
    ∀ kind ∈ ["audio", "video"], (∃ params, getSendingRtpParameters kind ext = .ok params) ∧
      ∃ params, getSendingRemoteRtpParameters kind ext = .ok params

/-- What the validated capabilities have to have besides. -/
structure Processable {P : Type} [DecidableEq P] (profile : String → Option P)
    (localCaps remoteCaps : Json) : Prop
    extends Negotiable profile (codecsOf localCaps) (codecsOf remoteCaps) where
  payloadTypes : ∀ pair ∈ matchedPairs profile (codecsOf localCaps) (codecsOf remoteCaps),
    payloadTypeOf pair.1 ≠ .null ∧ payloadTypeOf pair.2 ≠ .null
  rtxPayloadTypes : ∀ pair ∈ matchedPairs profile (codecsOf localCaps) (codecsOf remoteCaps),
    ∀ l r, (codecsOf localCaps).find? (isRtxOf (payloadTypeOf pair.1)) = some l →
      (codecsOf remoteCaps).find? (isRtxOf (payloadTypeOf pair.2)) = some r →
        payloadTypeOf l ≠ .null ∧ payloadTypeOf r ≠ .null
  directions : ∀ kind ∈ ["audio", "video"],
    DirectionsKnown kind (headerExtensionsOf localCaps) (headerExtensionsOf remoteCaps)

/-- The rtx codecs of a codec have payload types. -/
theorem ExtendedCodec.RtxMatched.paired_iff {ext : ExtendedCodec} {ls rs : List Json}
    (h : ext.RtxMatched ls rs) : ext.RtxPaired ls rs ↔
      ∀ l r, ls.find? (isRtxOf ext.localPayloadType) = some l →
        rs.find? (isRtxOf ext.remotePayloadType) = some r →
          payloadTypeOf l ≠ .null ∧ payloadTypeOf r ≠ .null := by
  unfold RtxMatched at h
  unfold RtxPaired
  split at h
  · rename_i localRtx remoteRtx hl hr
    constructor
    · rintro ⟨-, hlpt, -, hrpt⟩ l r hl' hr'
      cases hl.symm.trans hl'
      cases hr.symm.trans hr'
      exact ⟨hlpt, hrpt⟩
    · intro hall
      obtain ⟨hlpt, hrpt⟩ := hall _ _ hl hr
      exact ⟨h.1, hlpt, h.2, hrpt⟩
  · rename_i hno
    exact iff_of_true h fun l r hl hr => (hno l r hl hr).elim

section
variable {P : Type} [DecidableEq P] {profile : String → Option P} {webrtc : WebRtc}
variable {localCaps remoteCaps validLocal validRemote : Json}

/-- Nothing missing is read of the codecs exactly if the pairs have all their payload types. -/
theorem Negotiated.complete_iff {ext : ExtendedRtpCapabilities}
    (h : Negotiated profile validLocal validRemote ext) :
    (∀ e ∈ ext.codecs, e.localPayloadType ≠ .null ∧ e.remotePayloadType ≠ .null ∧
        e.RtxPaired (codecsOf validLocal) (codecsOf validRemote)) ↔
      ∀ pair ∈ matchedPairs profile (codecsOf validLocal) (codecsOf validRemote),
        (payloadTypeOf pair.1 ≠ .null ∧ payloadTypeOf pair.2 ≠ .null) ∧
          ∀ l r, (codecsOf validLocal).find? (isRtxOf (payloadTypeOf pair.1)) = some l →
            (codecsOf validRemote).find? (isRtxOf (payloadTypeOf pair.2)) = some r →
              payloadTypeOf l ≠ .null ∧ payloadTypeOf r ≠ .null := by
  obtain ⟨hpairs, -, -, -⟩ := h
  generalize matchedPairs profile (codecsOf validLocal) (codecsOf validRemote) = pairs at hpairs ⊢
  generalize ext.codecs = codecs at hpairs ⊢
  induction hpairs with
  | nil => simp
  | cons hpair _ ih =>
    obtain ⟨hof, hrtx⟩ := hpair
    rw [List.forall_mem_cons, List.forall_mem_cons, ih, hrtx.paired_iff, hof.localPayloadType,
      hof.remotePayloadType]
    simp only [and_assoc]

/-- CORRECT: the pipeline is safe exactly for the validated capabilities whose compared profiles can
    be read, whose matched codecs and their rtx codecs have payload types and apts, and whose matched
    header extensions have one of the four directions. -/
theorem pipeline_safe_iff (hw : webrtc.Lawful profile)
    (hl : validateRtpCapabilities localCaps = .ok validLocal)
    (hr : validateRtpCapabilities remoteCaps = .ok validRemote) :
    PipelineSafe webrtc localCaps remoteCaps validLocal validRemote ↔
      Processable profile validLocal validRemote := by
  have hheaders := headerShape_validated hr
  constructor
  · rintro ⟨ext, hext, hcomplete, -, hkinds⟩
    have hn := getExtended_ok hw hl hr hext
    have hcodecs := hn.complete_iff.mp hcomplete
    refine ⟨(getExtended_returns hw hl hr).mp ⟨ext, hext⟩, fun pair hp => (hcodecs pair hp).1,
      fun pair hp => (hcodecs pair hp).2, fun kind hk => ?_⟩
    exact (hn.sending_returns hheaders kind).mp (hkinds kind hk).1
  · intro h
    obtain ⟨ext, hext⟩ := (getExtended_returns hw hl hr).mpr h.toNegotiable
    have hn := getExtended_ok hw hl hr hext
    have hcomplete := hn.complete_iff.mpr fun pair hp =>
      ⟨h.payloadTypes pair hp, h.rtxPayloadTypes pair hp⟩
    obtain ⟨recv, hrecv⟩ := (hn.recv_returns hheaders).mpr h.directions
    obtain ⟨valid, hvalid⟩ :=
      getRecv_accepted hn.codecs hn.extended (fun e he => (hcomplete e he).2.1) hrecv
    refine ⟨ext, hext, hcomplete, ⟨recv, valid, hrecv, hvalid⟩, fun kind hk => ⟨?_, ?_⟩⟩
    · exact (hn.sending_returns hheaders kind).mpr (h.directions kind hk)
    · exact (hn.sendingRemote_returns hheaders kind).mpr (h.directions kind hk)

end

/-! ### Runs -/

theorem pipeline_safe_h264 : ∃ validLocal validRemote,
    (PipelineSafe sampleWebRtc (h264Capabilities 96 1) (h264Capabilities 101 1) validLocal
        validRemote ↔ Processable sampleProfile validLocal validRemote) := by
  obtain ⟨validLocal, hl, -⟩ := exists_of_map (fun _ => ())
    (show (validateRtpCapabilities (h264Capabilities 96 1)).toOption.map _ = some () from rfl)
  obtain ⟨validRemote, hr, -⟩ := exists_of_map (fun _ => ())
    (show (validateRtpCapabilities (h264Capabilities 101 1)).toOption.map _ = some () from rfl)
  exact ⟨validLocal, validRemote, pipeline_safe_iff sampleWebRtc_lawful hl hr⟩

/-- A VP8 codec, and an rtx codec that does not say whose it is. -/
def rtxWithoutApt : Json :=
  .object [("codecs", .arr [
    .object [("mimeType", .str "video/VP8"), ("preferredPayloadType", .uint 96),
      ("clockRate", .uint 90000)],
    .object [("mimeType", .str "video/rtx"), ("preferredPayloadType", .uint 97),
      ("clockRate", .uint 90000)]])]

/-- The apt that is missing is read. -/
theorem rtx_without_apt_unsafe : ∃ valid, validateRtpCapabilities rtxWithoutApt = .ok valid ∧
    ¬ PipelineSafe sampleWebRtc rtxWithoutApt rtxWithoutApt valid valid := by
  obtain ⟨valid, hv, -⟩ := exists_of_map (fun _ => ())
    (show (validateRtpCapabilities rtxWithoutApt).toOption.map _ = some () from rfl)
  refine ⟨valid, hv, ?_⟩
  rintro ⟨ext, hext, -⟩
  have hnone : (getExtendedRtpCapabilities sampleWebRtc rtxWithoutApt rtxWithoutApt).toOption.isNone =
      true := rfl
  rw [hext] at hnone
  cases hnone

end MediasoupClient.Sdp
