import MediasoupClient.Sdp.AnswerCodecs

/-! Which header extensions are used (sdputil/jsonvalidate.cpp).

        remote one                  receive capabilities     what is sent, and its answer
        sendrecv                    remote id                local id
        sendonly                    remote id                –
        recvonly                    –                        local id
        inactive, or no local one   –                        –

    The direction is turned round once, in the extended capabilities, and filtered in three functions.
    The order is the remote one. -/

namespace MediasoupClient.Sdp
open Lib

/-! ### What is to be used -/

/-- The header extension that is received, with the remote id. -/
def receivedExtension (localExt remoteExt : Json) : Json :=
  .object [
    ("kind", (remoteExt.find "kind").getD .null),
    ("uri", (remoteExt.find "uri").getD .null),
    ("preferredId", (remoteExt.find "preferredId").getD .null),
    ("preferredEncrypt", (localExt.find "preferredEncrypt").getD .null),
    ("direction", .str (if directionOf remoteExt = "sendonly" then "recvonly" else "sendrecv"))]

/-- The header extension that is sent, with the local id. -/
def sentExtension (localExt remoteExt : Json) : Json :=
  .object [
    ("uri", (remoteExt.find "uri").getD .null),
    ("id", (localExt.find "preferredId").getD .null),
    ("encrypt", (localExt.find "preferredEncrypt").getD .null),
    ("parameters", .obj [])]

/-- Those remote header extensions that have a local one like them, made into others together with the
    first local one. -/
def withFirstLocal (make : Json → Json → Json) (localExts remoteExts : List Json) : List Json :=
  remoteExts.filterMap fun remoteExt =>
    (localExts.find? (sameExtension · remoteExt)).map (make · remoteExt)

/-- Of the remote ones that send. -/
def receivedExtensions (localExts remoteExts : List Json) : List Json :=
  withFirstLocal receivedExtension localExts
    (remoteExts.filter fun remoteExt => directionOf remoteExt ∈ ["sendrecv", "sendonly"])

/-- The text of a kind. -/
def extensionKind (ext : Json) : Option String :=
  (ext.find "kind").bind fun kind => kind.toStr.toOption

/-- Of the remote ones of the kind that receive. -/
def sentExtensions (kind : String) (localExts remoteExts : List Json) : List Json :=
  withFirstLocal sentExtension localExts
    (remoteExts.filter fun remoteExt => extensionKind remoteExt = some kind ∧
      directionOf remoteExt ∈ ["sendrecv", "recvonly"])

/-! ### What is used -/

section
variable {localExt remoteExt : Json} {localExts remoteExts : List Json}

theorem recvExtension_extended (h : directionOf remoteExt ∈ directions) :
    recvExtension (extendedExtension localExt remoteExt) =
      .ok (if decide (directionOf remoteExt ∈ ["sendrecv", "sendonly"]) then
        [receivedExtension localExt remoteExt] else []) := by
  unfold recvExtension receivedExtension
  simp only [directions, List.mem_cons, List.not_mem_nil, or_false] at h
  rcases h with hd | hd | hd | hd <;> simp only [extendedExtension, hd] <;> rfl

theorem sendingExtension_extended (hr : HeaderShape remoteExt)
    (h : directionOf remoteExt ∈ directions) (kind : String) :
    sendingExtension kind (extendedExtension localExt remoteExt) =
      .ok (if decide (extensionKind remoteExt = some kind ∧
          directionOf remoteExt ∈ ["sendrecv", "recvonly"]) then
        [sentExtension localExt remoteExt] else []) := by
  obtain ⟨k, -, hk⟩ := hr.kind
  have hkind : extensionKind remoteExt = some k := by rw [extensionKind, hk]; rfl
  unfold sendingExtension sentExtension
  simp only [directions, List.mem_cons, List.not_mem_nil, or_false] at h
  simp only [extendedExtension, hk, hkind, Option.getD_some, Json.toStr, ok_bind, Option.some.injEq]
  by_cases hsame : kind = k
  · subst hsame
    rcases h with hd | hd | hd | hd <;> simp only [hd] <;> simp [oppositeDirection] <;> rfl
  · rw [if_pos hsame, if_neg (by simp [Ne.symm hsame])]
    rfl

/-- A loop over the extended header extensions, each of which is used or not. -/
theorem flatten_extended {f : ExtendedExtension → Except Fault (List Json)}
    {make : Json → Json → Json} {used : Json → Bool} {outs : List (List Json)}
    (hf : ∀ r ∈ remoteExts, ∀ l, f (extendedExtension l r) = .ok (if used r then [make l r] else []))
    (h : (matchedExtensions localExts remoteExts).mapM f = .ok outs) :
    outs.flatten = withFirstLocal make localExts (remoteExts.filter used) := by
  induction remoteExts generalizing outs with
  | nil =>
    cases h
    rfl
  | cons r rs ih =>
    have hrs : ∀ r ∈ rs, ∀ l, f (extendedExtension l r) = .ok (if used r then [make l r] else []) :=
      fun r' hr' => hf r' (List.mem_cons_of_mem _ hr')
    have hr := hf r (List.mem_cons_self ..)
    rw [matchedExtensions, List.filterMap_cons] at h
    cases hfind : localExts.find? (sameExtension · r) with
    | none =>
      rw [hfind] at h
      rw [ih hrs h, List.filter_cons]
      split_ifs
      · simp only [withFirstLocal, List.filterMap_cons, hfind, Option.map_none]
      · rfl
    | some l =>
      rw [hfind, Option.map_some, List.mapM_cons, hr l, ok_bind] at h
      obtain ⟨rest, hrest, h⟩ := bind_ok.mp h
      cases h
      rw [List.flatten_cons, ih hrs hrest, List.filter_cons]
      split_ifs
      · simp only [withFirstLocal, List.filterMap_cons, hfind, Option.map_some, List.singleton_append]
      · rfl

end

/-! ### The header extensions of capabilities and parameters -/

theorem headerExtensionsOf_recv (codecs exts : List Json) :
    headerExtensionsOf (.object [("codecs", .arr codecs), ("headerExtensions", .arr exts)]) = exts := by
  simp [headerExtensionsOf, Json.object, Json.find, get_put, Json.elems]

theorem headerExtensionsOf_params (codecs exts : List Json) :
    headerExtensionsOf (.object [("mid", .null), ("codecs", .arr codecs),
      ("headerExtensions", .arr exts), ("encodings", .arr []), ("rtcp", .obj [])]) = exts := by
  simp [headerExtensionsOf, Json.object, Json.find, get_put, Json.elems]

section
variable {P : Type} [DecidableEq P] {profile : String → Option P} {webrtc : WebRtc}
variable {localCaps remoteCaps validLocal validRemote : Json} {ext : ExtendedRtpCapabilities}

/-- CORRECT: for directions that are known, the header extensions that are received are the remote ones
    that send and have a local one like them, and those that are sent, in the offer as in the answer,
    are the remote ones of the kind that receive and have a local one like them. -/
theorem header_extensions_negotiated (hw : webrtc.Lawful profile)
    (hl : validateRtpCapabilities localCaps = .ok validLocal)
    (hr : validateRtpCapabilities remoteCaps = .ok validRemote)
    (hdir : ∀ e ∈ headerExtensionsOf validRemote, directionOf e ∈ directions)
    (h : getExtendedRtpCapabilities webrtc localCaps remoteCaps = .ok ext) :
    (∃ recv, getRecvRtpCapabilities ext = .ok recv ∧ headerExtensionsOf recv =
      receivedExtensions (headerExtensionsOf validLocal) (headerExtensionsOf validRemote)) ∧
    ∀ kind, ∃ sent answered, getSendingRtpParameters kind ext = .ok sent ∧
      getSendingRemoteRtpParameters kind ext = .ok answered ∧ headerExtensionsOf sent =
        sentExtensions kind (headerExtensionsOf validLocal) (headerExtensionsOf validRemote) ∧
      headerExtensionsOf answered =
        sentExtensions kind (headerExtensionsOf validLocal) (headerExtensionsOf validRemote) := by
  have hn := getExtended_ok hw hl hr h
  have hshape := headerShape_validated hr
  have hknown : ∀ kind,
      DirectionsKnown kind (headerExtensionsOf validLocal) (headerExtensionsOf validRemote) :=
    fun _ r hmem _ _ => hdir r hmem
  constructor
  · obtain ⟨recv, hrecv⟩ := (hn.recv_returns hshape).mpr fun kind _ => hknown kind
    refine ⟨recv, hrecv, ?_⟩
    obtain ⟨codecs, -, hrecv⟩ := bind_ok.mp hrecv
    obtain ⟨outs, houts, hrecv⟩ := bind_ok.mp hrecv
    cases hrecv
    rw [hn.headerExtensions] at houts
    rw [headerExtensionsOf_recv]
    exact flatten_extended (fun r hmem l => recvExtension_extended (hdir r hmem)) houts
  · intro kind
    obtain ⟨sent, hsent⟩ := (hn.sending_returns hshape kind).mpr (hknown kind)
    obtain ⟨answered, hanswered⟩ := (hn.sendingRemote_returns hshape kind).mpr (hknown kind)
    have hused : ∀ {outs}, ext.headerExtensions.mapM (sendingExtension kind) = .ok outs →
        outs.flatten =
          sentExtensions kind (headerExtensionsOf validLocal) (headerExtensionsOf validRemote) := by
      intro outs houts
      rw [hn.headerExtensions] at houts
      exact flatten_extended (fun r hmem l =>
        sendingExtension_extended (hshape r hmem) (hdir r hmem) kind) houts
    refine ⟨sent, answered, hsent, hanswered, ?_, ?_⟩
    · obtain ⟨codecs, -, hsent⟩ := bind_ok.mp hsent
      obtain ⟨outs, houts, hsent⟩ := bind_ok.mp hsent
      cases hsent
      rw [headerExtensionsOf_params]
      exact hused houts
    · obtain ⟨codecs, -, hanswered⟩ := bind_ok.mp hanswered
      obtain ⟨outs, houts, hanswered⟩ := bind_ok.mp hanswered
      obtain ⟨unused, -, hanswered⟩ := bind_ok.mp hanswered
      obtain ⟨codecs', -, hanswered⟩ := bind_ok.mp hanswered
      cases hanswered
      rw [headerExtensionsOf_params]
      exact hused houts

end

/-- The uris of header extensions. -/
def urisOf (exts : List Json) : List (Option String) :=
  exts.map fun ext => (ext.find "uri").bind fun uri => uri.toStr.toOption

/-- The orientation is only received, and the congestion control goes both ways. -/
theorem header_extensions_negotiated_video : ∃ validLocal validRemote ext,
    validateRtpCapabilities (vp8Vp9Capabilities 96 "sendrecv") = .ok validLocal ∧
      validateRtpCapabilities (vp8Vp9Capabilities 101 "sendonly") = .ok validRemote ∧
      getExtendedRtpCapabilities sampleWebRtc (vp8Vp9Capabilities 96 "sendrecv")
        (vp8Vp9Capabilities 101 "sendonly") = .ok ext ∧
      (urisOf (receivedExtensions (headerExtensionsOf validLocal) (headerExtensionsOf validRemote)),
        urisOf (sentExtensions "video" (headerExtensionsOf validLocal)
          (headerExtensionsOf validRemote))) =
        ([some "urn:3gpp:video-orientation", some
            "http://www.ietf.org/id/draft-holmer-rmcat-transport-wide-cc-extensions-01"],
          [some "http://www.ietf.org/id/draft-holmer-rmcat-transport-wide-cc-extensions-01"]) ∧
      (∃ recv, getRecvRtpCapabilities ext = .ok recv ∧ headerExtensionsOf recv =
        receivedExtensions (headerExtensionsOf validLocal) (headerExtensionsOf validRemote)) ∧
      ∀ kind, ∃ sent answered, getSendingRtpParameters kind ext = .ok sent ∧
        getSendingRemoteRtpParameters kind ext = .ok answered ∧ headerExtensionsOf sent =
          sentExtensions kind (headerExtensionsOf validLocal) (headerExtensionsOf validRemote) ∧
        headerExtensionsOf answered =
          sentExtensions kind (headerExtensionsOf validLocal) (headerExtensionsOf validRemote) := by
  obtain ⟨⟨validLocal, validRemote⟩, hvalid, hrun⟩ := exists_of_map
    (fun caps : Json × Json => ((headerExtensionsOf caps.2).map directionOf,
      urisOf (receivedExtensions (headerExtensionsOf caps.1) (headerExtensionsOf caps.2)),
      urisOf (sentExtensions "video" (headerExtensionsOf caps.1) (headerExtensionsOf caps.2))))
    (show (do return (← validateRtpCapabilities (vp8Vp9Capabilities 96 "sendrecv"),
        ← validateRtpCapabilities (vp8Vp9Capabilities 101 "sendonly"))).toOption.map _ =
      some (["sendonly", "sendrecv"],
        [some "urn:3gpp:video-orientation", some
          "http://www.ietf.org/id/draft-holmer-rmcat-transport-wide-cc-extensions-01"],
        [some "http://www.ietf.org/id/draft-holmer-rmcat-transport-wide-cc-extensions-01"]) from rfl)
  obtain ⟨hdirs, huris⟩ := Prod.mk.inj hrun
  obtain ⟨_, hl, hvalid⟩ := bind_ok.mp hvalid
  obtain ⟨_, hr, hvalid⟩ := bind_ok.mp hvalid
  cases hvalid
  obtain ⟨ext, h, -⟩ := exists_of_map (fun _ => ())
    (show (getExtendedRtpCapabilities sampleWebRtc (vp8Vp9Capabilities 96 "sendrecv")
      (vp8Vp9Capabilities 101 "sendonly")).toOption.map _ = some () from rfl)
  exact ⟨validLocal, validRemote, ext, hl, hr, h, huris,
    header_extensions_negotiated sampleWebRtc_lawful hl hr
      (directions_of_map hdirs (by decide)) h⟩

end MediasoupClient.Sdp
