import MediasoupClient.Sdp.Negotiable

/-! The extended capabilities of two validated ones.

        remote codecs               ──▶ one extended codec for each pair that is matched
        remote header extensions    ──▶ one extended header extension for each that has a local one
                                        of its kind and uri

    What has been validated is negotiated as a whole or not at all: the header extensions never stop
    it, the codecs do if what the comparisons read is not there. -/

namespace MediasoupClient.Sdp
open Lib

/-! ### Header extensions -/

/-- What validation leaves of a header extension. -/
structure HeaderShape (e : Json) : Prop where
  isObject : e.isObject = true
  kind : ∃ kind ∈ ["audio", "video"], e.find "kind" = some (.str kind)
  uri : ∃ v, e.find "uri" = some v ∧ isText v = true
  preferredId : ∃ v, e.find "preferredId" = some v ∧ v.isNumberInteger = true
  preferredEncrypt : ∃ v, e.find "preferredEncrypt" = some v ∧ v.isBoolean = true
  direction : ∃ d, e.find "direction" = some (.str d)

/-- A member that has its default if it is missing or of another type. -/
theorem has_orDefault (key : String) {p : Json → Bool} {value : Json} (hv : p value = true)
    (m : Members) : has (orDefault key p value m) key p = true := by
  unfold orDefault
  cases h : has m key p with
  | true => exact h
  | false => exact has_iff.mpr ⟨value, get_put_self key value m, hv⟩

theorem has_orDefault_of_ne {key k : String} (hne : k ≠ key) {p q : Json → Bool} {value : Json}
    (m : Members) : has (orDefault key p value m) k q = has m k q := by
  unfold has
  rw [get_orDefault, if_neg fun hc => hne hc.1]

theorem HeaderShape.of_validated {e e' : Json} (h : validateRtpHeaderExtension e = .ok e') :
    HeaderShape e' := by
  cases e with
  | obj m =>
    obtain ⟨_, -, h⟩ := bind_ok.mp h
    obtain ⟨_, hkind, h⟩ := bind_ok.mp h
    obtain ⟨_, huri, h⟩ := bind_ok.mp h
    obtain ⟨_, hid, h⟩ := bind_ok.mp h
    obtain ⟨_, -, h⟩ := bind_ok.mp h
    obtain ⟨_, -, h⟩ := bind_ok.mp h
    cases h
    have hother : ∀ k ∉ ["direction", "preferredEncrypt"], ∀ p, has (orDefault "direction"
        Json.isString (.str "sendrecv") (orDefault "preferredEncrypt" Json.isBoolean (.bool false) m))
          k p = has m k p := fun k hk p => by
      simp only [List.mem_cons, List.not_mem_nil, or_false, not_or] at hk
      rw [has_orDefault_of_ne hk.1, has_orDefault_of_ne hk.2]
    refine ⟨rfl, ?_, ?_, ?_, ?_, ?_⟩
    · obtain ⟨v, hv, hk⟩ := has_iff.mp ((hother "kind" (by decide) _).trans (require_ok.mp hkind))
      cases v with
      | str kind => exact ⟨kind, by simpa [Json.eqv] using hk, hv⟩
      | _ => exact absurd hk (by simp [Json.eqv])
    · exact has_iff.mp ((hother "uri" (by decide) _).trans (require_ok.mp huri))
    · exact has_iff.mp ((hother "preferredId" (by decide) _).trans (require_ok.mp hid))
    · refine has_iff.mp (Eq.trans (has_orDefault_of_ne (by decide) _) ?_)
      exact has_orDefault "preferredEncrypt" rfl m
    · have hdirection : has (orDefault "direction" Json.isString (.str "sendrecv")
          (orDefault "preferredEncrypt" Json.isBoolean (.bool false) m)) "direction"
            Json.isString = true := has_orDefault "direction" rfl _
      obtain ⟨v, hv, hs⟩ := has_iff.mp hdirection
      cases v with
      | str d => exact ⟨d, hv⟩
      | _ => cases hs
  | _ => cases h

/-- The header extensions of capabilities. -/
def headerExtensionsOf (caps : Json) : List Json := ((caps.find "headerExtensions").getD .null).elems

theorem headerShape_validated {caps caps' : Json} (h : validateRtpCapabilities caps = .ok caps') :
    ∀ e ∈ headerExtensionsOf caps', HeaderShape e := by
  obtain ⟨_, m, _, _, exts, exts', rfl, rfl, -, -, -, -, hmap, hget⟩ := validateRtpCapabilities_ok h
  intro e he
  rw [headerExtensionsOf] at he
  change e ∈ ((Lib.get "headerExtensions" m).getD .null).elems at he
  rw [hget] at he
  obtain ⟨_, -, hval⟩ := mem_of_forall₂ (mapM_ok hmap) he
  exact .of_validated hval

/-- A local header extension and a remote one are matched by kind and uri. -/
def sameExtension (localExt remoteExt : Json) : Bool :=
  ((localExt.find "kind").getD .null).eqv ((remoteExt.find "kind").getD .null) &&
    ((localExt.find "uri").getD .null).eqv ((remoteExt.find "uri").getD .null)

/-- The text of a direction. -/
def directionOf (ext : Json) : String :=
  match ext.find "direction" with
  | some (.str direction) => direction
  | _ => ""

/-- The extended header extension of two that are matched. -/
def extendedExtension (localExt remoteExt : Json) : ExtendedExtension where
  kind := (remoteExt.find "kind").getD .null
  uri := (remoteExt.find "uri").getD .null
  sendId := (localExt.find "preferredId").getD .null
  recvId := (remoteExt.find "preferredId").getD .null
  encrypt := (localExt.find "preferredEncrypt").getD .null
  direction := oppositeDirection (directionOf remoteExt)

/-- The extended header extensions: each remote one with the first local one like it. -/
def matchedExtensions (localExts remoteExts : List Json) : List ExtendedExtension :=
  remoteExts.filterMap fun remoteExt =>
    (localExts.find? (sameExtension · remoteExt)).map (extendedExtension · remoteExt)

theorem matchHeaderExtensions_validated {a b : Json} (ha : HeaderShape a) (hb : HeaderShape b) :
    matchHeaderExtensions a b = .ok (sameExtension a b) := by
  obtain ⟨ak, -, hak⟩ := ha.kind
  obtain ⟨bk, -, hbk⟩ := hb.kind
  obtain ⟨au, hau, -⟩ := ha.uri
  obtain ⟨bu, hbu, -⟩ := hb.uri
  unfold matchHeaderExtensions sameExtension
  simp only [read_of_find hak, read_of_find hbk, read_of_find hau, read_of_find hbu, hak, hbk, hau,
    hbu, ok_bind, Option.getD_some]
  cases (Json.str ak).eqv (.str bk) <;> rfl

/-- A search with a test that always succeeds. -/
theorem findIdx_eq {p : Json → Except Fault Bool} {q : Json → Bool} {cs : List Json}
    (h : ∀ c ∈ cs, p c = .ok (q c)) : findIdx p cs = .ok (cs.findIdx? q) := by
  obtain ⟨idx, hidx⟩ := findIdx_total fun c hc => ⟨_, h c hc⟩
  rw [hidx]
  induction cs generalizing idx with
  | nil => cases hidx; rfl
  | cons c cs ih =>
    unfold findIdx at hidx
    rw [h c (List.mem_cons_self ..), ok_bind] at hidx
    rw [List.findIdx?_cons]
    cases hq : q c with
    | true => rw [hq] at hidx; cases hidx; rfl
    | false =>
      rw [hq] at hidx
      obtain ⟨rest, hrest, hidx⟩ := bind_ok.mp hidx
      cases hidx
      cases ih (fun x hx => h x (List.mem_cons_of_mem _ hx)) rest hrest
      rfl

theorem HeaderShape.directionOf {e : Json} (h : HeaderShape e) :
    e.find "direction" = some (.str (directionOf e)) := by
  obtain ⟨d, hd⟩ := h.direction
  rw [Sdp.directionOf, hd]

theorem extendExtension_validated {localExts : List Json} {remoteExt : Json}
    (hl : ∀ l ∈ localExts, HeaderShape l) (hr : HeaderShape remoteExt) :
    extendExtension localExts remoteExt =
      .ok ((localExts.find? (sameExtension · remoteExt)).map (extendedExtension · remoteExt)).toList := by
  have hidx := findIdx_eq fun l hl' => matchHeaderExtensions_validated (hl l hl') hr
  unfold extendExtension
  rw [hidx, ok_bind]
  cases hfound : localExts.findIdx? (sameExtension · remoteExt) with
  | none =>
    rw [List.find?_eq_bind_findIdx?_getElem?, hfound]
    rfl
  | some i =>
    obtain ⟨l, hfind, hget⟩ := find?_of_findIdx? hfound
    have hobj := (hl l (List.mem_of_getElem? hget)).isObject
    rw [hfind]
    simp only [List.getD_eq_getElem?_getD, hget, Option.getD_some, readOrNull_of_isObject hobj,
      readOrNull_of_isObject hr.isObject, ok_bind, hr.directionOf, Json.toStr]
    rfl

/-- An extended header extension of two validated ones. -/
structure HeaderExtended (ext : ExtendedExtension) : Prop where
  kind : ∃ kind ∈ ["audio", "video"], ext.kind = .str kind
  uri : ∃ uri, ext.uri = .str uri ∧ uri ≠ ""
  recvId : ext.recvId.isNumberInteger = true
  encrypt : ext.encrypt.isBoolean = true

theorem matchedExtensions_extended {localExts remoteExts : List Json}
    (hl : ∀ l ∈ localExts, HeaderShape l) (hr : ∀ r ∈ remoteExts, HeaderShape r) :
    ∀ ext ∈ matchedExtensions localExts remoteExts, HeaderExtended ext := by
  intro ext hext
  obtain ⟨r, hr', hmap⟩ := List.mem_filterMap.mp hext
  obtain ⟨l, hfind, rfl⟩ := Option.map_eq_some_iff.mp hmap
  have hls := hl l (List.mem_of_find?_eq_some hfind)
  have hrs := hr r hr'
  obtain ⟨kind, hk, hkind⟩ := hrs.kind
  obtain ⟨uri, huri, htext⟩ := hrs.uri
  obtain ⟨id, hid, hint⟩ := hrs.preferredId
  obtain ⟨encrypt, hencrypt, hbool⟩ := hls.preferredEncrypt
  refine ⟨⟨kind, hk, ?_⟩, ?_, ?_, ?_⟩
  · simp only [extendedExtension, hkind, Option.getD_some]
  · cases uri with
    | str u => exact ⟨u, by simp only [extendedExtension, huri, Option.getD_some],
        by simpa [isText] using htext⟩
    | _ => cases htext
  · simp only [extendedExtension, hid, Option.getD_some, hint]
  · simp only [extendedExtension, hencrypt, Option.getD_some, hbool]

/-! ### The extended capabilities -/

section
variable {P : Type} [DecidableEq P] {profile : String → Option P} {webrtc : WebRtc}
variable {localCaps remoteCaps validLocal validRemote : Json} {ext : ExtendedRtpCapabilities}

/-- The loop over the remote header extensions. -/
theorem extendExtensions_validated (hl : validateRtpCapabilities localCaps = .ok validLocal)
    (hr : validateRtpCapabilities remoteCaps = .ok validRemote) :
    ∃ exts, (headerExtensionsOf validRemote).mapM
        (extendExtension (headerExtensionsOf validLocal)) = .ok exts ∧
      exts.flatten = matchedExtensions (headerExtensionsOf validLocal)
        (headerExtensionsOf validRemote) := by
  have hls := headerShape_validated hl
  have hrs := headerShape_validated hr
  generalize headerExtensionsOf validRemote = rs at hrs
  induction rs with
  | nil => exact ⟨[], rfl, rfl⟩
  | cons r rs ih =>
    obtain ⟨exts, hexts, hflat⟩ := ih fun x hx => hrs x (List.mem_cons_of_mem _ hx)
    have hfirst := extendExtension_validated hls (hrs r (List.mem_cons_self ..))
    rw [List.mapM_cons, hfirst, ok_bind, hexts, ok_bind]
    refine ⟨_, rfl, ?_⟩
    rw [List.flatten_cons, hflat]
    simp only [matchedExtensions, List.filterMap_cons]
    cases (headerExtensionsOf validLocal).find? (sameExtension · r) <;> rfl

/-- Validated capabilities have extended ones exactly if they can be negotiated. -/
theorem getExtended_returns (hw : webrtc.Lawful profile)
    (hl : validateRtpCapabilities localCaps = .ok validLocal)
    (hr : validateRtpCapabilities remoteCaps = .ok validRemote) :
    (∃ ext, getExtendedRtpCapabilities webrtc localCaps remoteCaps = .ok ext) ↔
      Negotiable profile (codecsOf validLocal) (codecsOf validRemote) := by
  have hlobj := validateRtpCapabilities_isObject hl
  have hrobj := validateRtpCapabilities_isObject hr
  rw [← matchCapabilities_returns hw hlobj hrobj (codecShape_validated hl) (codecShape_validated hr)]
  constructor
  · rintro ⟨ext, h⟩
    obtain ⟨_, hl', h⟩ := bind_ok.mp h
    obtain ⟨_, hr', h⟩ := bind_ok.mp h
    cases hl.symm.trans hl'
    cases hr.symm.trans hr'
    obtain ⟨ms, hms, -⟩ := bind_ok.mp h
    exact ⟨ms, lift_ok.mp hms⟩
  · rintro ⟨ms, hms⟩
    obtain ⟨exts, hexts, -⟩ := extendExtensions_validated hl hr
    exact ⟨_, bind_ok.mpr ⟨_, hl, bind_ok.mpr ⟨_, hr, bind_ok.mpr ⟨ms, lift_ok.mpr hms,
      bind_ok.mpr ⟨_, lift_ok.mpr (readOrNull_of_isObject hlobj _),
        bind_ok.mpr ⟨_, lift_ok.mpr (readOrNull_of_isObject hrobj _),
          bind_ok.mpr ⟨exts, lift_ok.mpr hexts, rfl⟩⟩⟩⟩⟩⟩⟩

/-- What the negotiation of validated capabilities makes of them. -/
structure Negotiated (profile : String → Option P) (localCaps remoteCaps : Json)
    (ext : ExtendedRtpCapabilities) : Prop where
  pairs : List.Forall₂ (fun e pair => e.Of pair.1 pair.2 ∧
      e.RtxMatched (codecsOf localCaps) (codecsOf remoteCaps))
    ext.codecs (matchedPairs profile (codecsOf localCaps) (codecsOf remoteCaps))
  codecs : ∀ e ∈ ext.codecs, ExtendedShape e
  headerExtensions : ext.headerExtensions =
    matchedExtensions (headerExtensionsOf localCaps) (headerExtensionsOf remoteCaps)
  extended : ∀ e ∈ ext.headerExtensions, HeaderExtended e

theorem getExtended_ok (hw : webrtc.Lawful profile)
    (hl : validateRtpCapabilities localCaps = .ok validLocal)
    (hr : validateRtpCapabilities remoteCaps = .ok validRemote)
    (h : getExtendedRtpCapabilities webrtc localCaps remoteCaps = .ok ext) :
    Negotiated profile validLocal validRemote ext := by
  obtain ⟨_, hl', h⟩ := bind_ok.mp h
  obtain ⟨_, hr', h⟩ := bind_ok.mp h
  cases hl.symm.trans hl'
  cases hr.symm.trans hr'
  obtain ⟨ms, hms, h⟩ := bind_ok.mp h
  obtain ⟨lexts, hlexts, h⟩ := bind_ok.mp h
  obtain ⟨rexts, hrexts, h⟩ := bind_ok.mp h
  obtain ⟨exts, hexts, h⟩ := bind_ok.mp h
  cases h
  have hms' := lift_ok.mp hms
  have hexts' := lift_ok.mp hexts
  rw [Json.readOrNull_ok (lift_ok.mp hlexts), Json.readOrNull_ok (lift_ok.mp hrexts)] at hexts'
  obtain ⟨exts', hloop, hflat⟩ := extendExtensions_validated hl hr
  cases hloop.symm.trans hexts'
  have hshapes := matchCapabilities_shapes hw (codecShape_validated hl) (codecShape_validated hr) hms'
  refine ⟨List.forall₂_map_left_iff.mpr (matchCapabilities_ok hw hms'), ?_, hflat, ?_⟩
  · intro e he
    obtain ⟨m, hm, rfl⟩ := List.mem_map.mp he
    exact hshapes m hm
  · intro e he
    change e ∈ exts.flatten at he
    rw [hflat] at he
    exact matchedExtensions_extended (headerShape_validated hl) (headerShape_validated hr) e he

end

end MediasoupClient.Sdp
