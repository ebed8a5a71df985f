import MediasoupClient.Sdp.Sections

/-! The ICE parameters and the DTLS role of the description.

    They are kept three times: for the sections to come, in each section, and in its printed entry.

                              updateIceParameters p           updateDtlsRole r
        s.iceParameters         p                               -
        s.dtlsParameters        -                               role: r
        every section           iceUfrag, icePwd of p           setup: active | passive | actpass
        every printed entry     printed again                   printed again

    A new section takes both from the first two, and closing or disabling one keeps them. -/

namespace MediasoupClient.Sdp
open Lib RemoteSdp

/-- The roles of a DTLS peer. -/
inductive DtlsRole where | client | server | auto
  deriving DecidableEq, Repr

/-- How a role is written. -/
def DtlsRole.name : DtlsRole → String
  | client => "client"
  | server => "server"
  | auto => "auto"

/-- The `a=setup` of a section: an answer follows the role, an offer does not. -/
def DtlsRole.setup : DtlsRole → Side → String
  | _, .offer => "actpass"
  | client, .answer => "active"
  | server, .answer => "passive"
  | auto, .answer => "actpass"

/-- The section has the credentials of these ICE parameters and the setup of this role. Parameters
    without a member, or that are no object, have nothing to carry. -/
structure Carries (iceParameters : Json) (role : DtlsRole) (sec : MediaSection) : Prop where
  iceUfrag : ∀ u, iceParameters.find "usernameFragment" = some u →
    sec.getObject.find "iceUfrag" = some u
  icePwd : ∀ p, iceParameters.find "password" = some p → sec.getObject.find "icePwd" = some p
  setup : sec.getObject.find "setup" = some (.str (role.setup sec.side))

/-- The ICE parameters after a call. -/
def nextIce (iceParameters : Json) : Op → Json
  | .updateIceParameters iceParameters => iceParameters
  | _ => iceParameters

/-- The name of the role after a call. -/
def nextRole (role : String) : Op → String
  | .updateDtlsRole role => role
  | _ => role

/-! ### Sections -/

theorem DtlsRole.setupOf_name (role : DtlsRole) :
    MediaSection.setupOf role.name = some (role.setup .answer) := by
  cases role <;> simp [MediaSection.setupOf, name, setup]

theorem find_getObject (sec : MediaSection) (key : String) :
    sec.getObject.find key = sec.mediaObject.get key := rfl

/-- What the three members are of a section that keeps them. -/
theorem Carries.congr {iceParameters : Json} {role : DtlsRole} {sec sec' : MediaSection}
    (h : Carries iceParameters role sec) (hside : sec'.side = sec.side)
    (hget : ∀ k ∈ ["iceUfrag", "icePwd", "setup"],
      sec'.mediaObject.get k = sec.mediaObject.get k) : Carries iceParameters role sec' where
  iceUfrag u hu := by
    rw [find_getObject, hget _ (by simp), ← find_getObject]
    exact h.iceUfrag u hu
  icePwd p hp := by
    rw [find_getObject, hget _ (by simp), ← find_getObject]
    exact h.icePwd p hp
  setup := by
    rw [find_getObject, hget _ (by simp), hside, ← find_getObject]
    exact h.setup

theorem Carries.disable {iceParameters : Json} {role : DtlsRole} {sec : MediaSection}
    (h : Carries iceParameters role sec) : Carries iceParameters role sec.disable := by
  refine h.congr rfl fun k hk => ?_
  rw [MediaSection.get_disable]
  simp only [List.mem_cons, List.not_mem_nil, or_false] at hk
  rcases hk with rfl | rfl | rfl <;> simp [MediaSection.strippedKeys]

theorem Carries.close {iceParameters : Json} {role : DtlsRole} {sec : MediaSection}
    (h : Carries iceParameters role sec) : Carries iceParameters role sec.close := by
  refine h.congr rfl fun k hk => ?_
  rw [MediaSection.get_close]
  simp only [List.mem_cons, List.not_mem_nil, or_false] at hk
  rcases hk with rfl | rfl | rfl <;> simp [MediaSection.strippedKeys]

theorem Carries.setDtlsRole {iceParameters : Json} {role : DtlsRole} {sec : MediaSection}
    (h : Carries iceParameters role sec) (role' : DtlsRole) :
    Carries iceParameters role' (sec.setDtlsRole role'.name) := by
  have hside : (sec.setDtlsRole role'.name).side = sec.side := by
    unfold MediaSection.setDtlsRole
    split
    · rfl
    · split <;> rfl
  refine ⟨fun u hu => ?_, fun p hp => ?_, ?_⟩
  · rw [find_getObject, sec.get_setDtlsRole _ (by decide)]
    exact h.iceUfrag u hu
  · rw [find_getObject, sec.get_setDtlsRole _ (by decide)]
    exact h.icePwd p hp
  · rw [hside, find_getObject, MediaSection.setDtlsRole]
    cases hs : sec.side with
    | offer =>
      simp only
      rw [MediaSection.set, StdMap.get_insert_self]
      cases role' <;> rfl
    | answer =>
      simp only [DtlsRole.setupOf_name]
      rw [MediaSection.set, StdMap.get_insert_self]

/-- `SetIceParameters`, where the parameters have both members. -/
def MediaSection.withCredentials (usernameFragment password : Json) (sec : MediaSection) :
    MediaSection :=
  (sec.set "iceUfrag" usernameFragment).set "icePwd" password

theorem Carries.withCredentials {iceParameters iceParameters' : Json} {role : DtlsRole}
    {sec : MediaSection} (h : Carries iceParameters role sec) {u p : Json}
    (hu : iceParameters'.find "usernameFragment" = some u)
    (hp : iceParameters'.find "password" = some p) :
    Carries iceParameters' role (sec.withCredentials u p) := by
  have hget : ∀ k, (sec.withCredentials u p).mediaObject.get k =
      if k = "icePwd" then some p else if k = "iceUfrag" then some u else sec.mediaObject.get k := by
    intro k
    simp only [MediaSection.withCredentials, MediaSection.set, StdMap.get_insert]
  refine ⟨fun u' hu' => ?_, fun p' hp' => ?_, ?_⟩
  · rw [find_getObject, hget]
    exact hu.symm.trans hu'
  · rw [find_getObject, hget]
    exact hp.symm.trans hp'
  · rw [find_getObject, hget]
    exact h.setup

/-! ### New sections -/

theorem MediaSection.get_build_base (side : Side) (base : StdMap String Json)
    (mid type protocol : Json) (setup : Option String) (body : Body) {k : String}
    (hk : k ∈ ["iceUfrag", "icePwd"]) :
    (build side base mid type protocol setup body).mediaObject.get k = base.get k := by
  simp only [List.mem_cons, List.not_mem_nil, or_false] at hk
  have hbody : k ∉ bodyKeys := by rcases hk with rfl | rfl <;> decide
  rw [build]
  simp only
  rw [get_assign_body _ _ hbody]
  rcases hk with rfl | rfl <;> cases setup <;> simp [header, assign, StdMap.get_insert]

theorem MediaSection.get_build_setup (side : Side) (base : StdMap String Json)
    (mid type protocol : Json) (setup : String) (body : Body) :
    (build side base mid type protocol (some setup) body).mediaObject.get "setup" =
      some (.str setup) := by
  rw [build]
  simp only
  rw [get_assign_body _ _ (by decide)]
  simp [header]

/-- The credentials a section starts with. -/
theorem MediaSection.base_ok {iceParameters iceCandidates : Json} {m : StdMap String Json}
    (h : base iceParameters iceCandidates = .ok m) :
    m.get "iceUfrag" = iceParameters.find "usernameFragment" ∧
      m.get "icePwd" = iceParameters.find "password" := by
  obtain ⟨u, hu, h⟩ := bind_ok.mp h
  obtain ⟨p, hp, h⟩ := bind_ok.mp h
  obtain ⟨candidates, _, h⟩ := bind_ok.mp h
  cases h
  rw [Json.read_ok.mp hu, Json.read_ok.mp hp]
  constructor <;> simp [assign, StdMap.get_insert]

theorem carries_answer {iceParameters iceCandidates dtlsParameters sctpParameters offerMediaObject
    offerRtpParameters answerRtpParameters : Json} {codecOptions : Option Json}
    {sec : MediaSection} {o : Json} {role : DtlsRole}
    (hrole : dtlsParameters.find "role" = some (.str role.name))
    (h : answerMediaSection iceParameters iceCandidates dtlsParameters sctpParameters
      offerMediaObject offerRtpParameters answerRtpParameters codecOptions = .ok (sec, o)) :
    sec.side = .answer ∧ Carries iceParameters role sec := by
  obtain ⟨base, hbase, h⟩ := bind_ok.mp h
  obtain ⟨jtype, _, h⟩ := bind_ok.mp h
  obtain ⟨type, _, h⟩ := bind_ok.mp h
  obtain ⟨mid, _, h⟩ := bind_ok.mp h
  obtain ⟨protocol, _, h⟩ := bind_ok.mp h
  obtain ⟨jrole, hread, h⟩ := bind_ok.mp h
  obtain ⟨name, hname, h⟩ := bind_ok.mp h
  obtain ⟨⟨body, o'⟩, _, h⟩ := bind_ok.mp h
  cases h
  -- the role that is read is the one the parameters have
  obtain rfl : name = role.name := by
    rw [Json.read_ok, hrole] at hread
    cases hread
    exact (Json.str.inj (Json.toStr_ok.mp hname)).symm
  obtain ⟨hu, hp⟩ := MediaSection.base_ok hbase
  refine ⟨rfl, fun u hfind => ?_, fun p hfind => ?_, ?_⟩
  · rw [find_getObject, MediaSection.get_build_base _ _ _ _ _ _ _ (by simp), hu, hfind]
  · rw [find_getObject, MediaSection.get_build_base _ _ _ _ _ _ _ (by simp), hp, hfind]
  · rw [find_getObject, DtlsRole.setupOf_name, MediaSection.get_build_setup]
    rfl

theorem carries_offer {iceParameters iceCandidates sctpParameters : Json} {mid kind : String}
    {offerRtpParameters : Json} {streamId trackId : String} {sec : MediaSection} (role : DtlsRole)
    (h : offerMediaSection iceParameters iceCandidates sctpParameters mid kind offerRtpParameters
      streamId trackId = .ok sec) : sec.side = .offer ∧ Carries iceParameters role sec := by
  obtain ⟨base, hbase, h⟩ := bind_ok.mp h
  obtain ⟨body, _, h⟩ := bind_ok.mp h
  cases h
  obtain ⟨hu, hp⟩ := MediaSection.base_ok hbase
  refine ⟨rfl, fun u hfind => ?_, fun p hfind => ?_, ?_⟩
  · rw [find_getObject, MediaSection.get_build_base _ _ _ _ _ _ _ (by simp), hu, hfind]
  · rw [find_getObject, MediaSection.get_build_base _ _ _ _ _ _ _ (by simp), hp, hfind]
  · rw [find_getObject, MediaSection.get_build_setup]
    cases role <;> rfl

/-! ### The sections and the printed entries -/

/-- `Q` holds of every section, and of every section that is shown. A gap that a call left in the
    entries is null until it is printed. -/
structure Everywhere (Q : MediaSection → Prop) (s : RemoteSdp) : Prop where
  sections : ∀ sec ∈ s.mediaSections, Q sec
  printed : ∀ entry ∈ s.sdpObject.media,
    Shown .null entry ∨ ∃ sec, Q sec ∧ Shown sec.getObject entry
  length : s.sdpObject.media.length ≤ s.mediaSections.length

section
variable {Q : MediaSection → Prop} {s s' : RemoteSdp}

theorem mem_setFill {items : List Json} {i : ℕ} {v j : Json} (h : j ∈ Json.setFill items i v) :
    j ∈ items ∨ j = .null ∨ j = v := by
  unfold Json.setFill at h
  split_ifs at h with hi
  · rcases List.mem_or_eq_of_mem_set h with h | h
    · exact Or.inl h
    · exact Or.inr (Or.inr h)
  · rcases List.mem_append.mp h with h | h
    · rcases List.mem_append.mp h with h | h
      · exact Or.inl h
      · exact Or.inr (Or.inl (List.eq_of_mem_replicate h))
    · exact Or.inr (Or.inr (List.mem_singleton.mp h))

theorem length_setFill (items : List Json) (i : ℕ) (v : Json) :
    (Json.setFill items i v).length = max items.length (i + 1) := by
  unfold Json.setFill
  split_ifs with hi
  · rw [List.length_set]; omega
  · simp only [List.length_append, List.length_replicate, List.length_singleton]; omega

theorem Everywhere.congr (hs : Everywhere Q s) (hsec : s'.mediaSections = s.mediaSections)
    (hmedia : s'.sdpObject.media = s.sdpObject.media) : Everywhere Q s' :=
  ⟨hsec ▸ hs.sections, hmedia ▸ hs.printed, by rw [hsec, hmedia]; exact hs.length⟩

/-- A section is put in the place of another, and printed or not. -/
theorem Everywhere.set (hs : Everywhere Q s) {idx : ℕ} {sec : MediaSection} (hsec : Q sec)
    (hsecs : s'.mediaSections = s.mediaSections.set idx sec)
    (hmedia : s'.sdpObject.media = s.sdpObject.media ∨ ∃ i < s.mediaSections.length,
      s'.sdpObject.media = Json.setFill s.sdpObject.media i sec.getObject) : Everywhere Q s' := by
  refine ⟨fun t ht => ?_, fun j hj => ?_, ?_⟩
  · rw [hsecs] at ht
    rcases List.mem_or_eq_of_mem_set ht with ht | rfl
    · exact hs.sections t ht
    · exact hsec
  · rcases hmedia with hmedia | ⟨i, _, hmedia⟩
    · exact hs.printed j (hmedia ▸ hj)
    · rw [hmedia] at hj
      rcases mem_setFill hj with hj | hj | hj
      · exact hs.printed j hj
      · exact Or.inl (Or.inl hj)
      · exact Or.inr ⟨sec, hsec, Or.inl hj⟩
  · have hlen := hs.length
    rw [hsecs, List.length_set]
    rcases hmedia with hmedia | ⟨i, hi, hmedia⟩
    · rw [hmedia]; exact hlen
    · rw [hmedia, length_setFill]; omega

theorem Everywhere.regenerateBundleMids (hs : Everywhere Q s)
    (h : s.regenerateBundleMids.state? = some s') : Everywhere Q s' := by
  obtain ⟨mids, rfl⟩ := regenerateBundleMids_state h
  exact hs.congr rfl rfl

theorem Everywhere.addMediaSection (hs : Everywhere Q s) {new : MediaSection} (hnew : Q new)
    (h : (s.addMediaSection new).state? = some s') : Everywhere Q s' := by
  have happend : ∀ t ∈ s.mediaSections ++ [new], Q t := by
    intro t ht
    rcases List.mem_append.mp ht with ht | ht
    · exact hs.sections t ht
    · rw [List.mem_singleton.mp ht]; exact hnew
  have hlen := hs.length
  rcases attempt_state h with rfl | ⟨firstMid, _, h⟩
  · exact hs
  -- the section is in the vector before its mid is asked for again
  rcases attempt_state h with rfl | ⟨mid, _, h⟩
  · refine ⟨happend, hs.printed, ?_⟩
    simp only [List.length_append]; omega
  · refine Everywhere.regenerateBundleMids ⟨happend, fun j hj => ?_, ?_⟩ h
    · rcases List.mem_append.mp hj with hj | hj
      · exact hs.printed j hj
      · exact Or.inr ⟨new, hnew, Or.inl (List.mem_singleton.mp hj)⟩
    · simp only [List.length_append, List.length_singleton]; omega

theorem Everywhere.replaceMediaSection (hs : Everywhere Q s) {new : MediaSection}
    {reuseMid : String} (hnew : Q new)
    (h : (s.replaceMediaSection new reuseMid).state? = some s') : Everywhere Q s' := by
  unfold RemoteSdp.replaceMediaSection at h
  split_ifs at h with hreuse
  · rcases hidx : s.midToIndex.index reuseMid 0 with ⟨idx, m⟩
    rw [hidx] at h
    cases hold : s.mediaSections[idx]? with
    | none => simp only [hold] at h; cases h
    | some old =>
      simp only [hold] at h
      have hlt : idx < s.mediaSections.length := (List.getElem?_eq_some_iff.mp hold).1
      rcases attempt_state h with rfl | ⟨oldMid, _, h⟩
      · exact hs.set hnew rfl (Or.inl rfl)
      rcases attempt_state h with rfl | ⟨mid, _, h⟩
      · exact hs.set hnew rfl (Or.inl rfl)
      · refine Everywhere.regenerateBundleMids ?_ h
        exact hs.set hnew rfl (Or.inr ⟨idx, hlt, rfl⟩)
  · rcases attempt_state h with rfl | ⟨mid, _, h⟩
    · exact hs
    rcases hidx : s.midToIndex.index mid 0 with ⟨idx, m⟩
    rw [hidx] at h
    cases hold : s.mediaSections[idx]? with
    | none => simp only [hold] at h; cases h
    | some old =>
      simp only [hold] at h
      have hlt : idx < s.mediaSections.length := (List.getElem?_eq_some_iff.mp hold).1
      cases h
      refine hs.set hnew rfl (Or.inr ⟨s.mediaSections.length - 1, by omega, ?_⟩)
      simp only [setMedia, List.length_set]

theorem Everywhere.disableMediaSection (hs : Everywhere Q s) {mid : String}
    (hQ : ∀ sec, Q sec → Q sec.disable)
    (h : (s.disableMediaSection mid).state? = some s') : Everywhere Q s' := by
  obtain ⟨idx, m, sec, _, hsec, rfl⟩ := disableMediaSection_state h
  exact hs.set (hQ sec (hs.sections sec (List.mem_of_getElem? hsec))) rfl (Or.inl rfl)

theorem Everywhere.closeMediaSection (hs : Everywhere Q s) {mid : String}
    (hdisable : ∀ sec, Q sec → Q sec.disable) (hclose : ∀ sec, Q sec → Q sec.close)
    (h : (s.closeMediaSection mid).state? = some s') : Everywhere Q s' := by
  unfold RemoteSdp.closeMediaSection at h
  rcases hidx : s.midToIndex.index mid 0 with ⟨idx, m⟩
  rw [hidx] at h
  cases hsec : s.mediaSections[idx]? with
  | none => simp only [hsec] at h; cases h
  | some sec =>
    simp only [hsec] at h
    have hlt : idx < s.mediaSections.length := (List.getElem?_eq_some_iff.mp hsec).1
    have hq : Q sec := hs.sections sec (List.mem_of_getElem? hsec)
    have hclosing : Q (s.closing mid sec) := by
      unfold RemoteSdp.closing
      split_ifs
      · exact hdisable sec hq
      · exact hclose sec hq
    refine Everywhere.regenerateBundleMids ?_ h
    exact hs.set hclosing rfl (Or.inr ⟨idx, hlt, rfl⟩)

theorem Everywhere.getSdp (hs : Everywhere Q s) (h : s.getSdp.state? = some s') :
    Everywhere Q s' := by
  obtain ⟨media, hmedia, rfl⟩ := getSdp_state h
  refine ⟨hs.sections, fun shown hshown => ?_, hmedia.length_eq ▸ hs.length⟩
  obtain ⟨i, hi, rfl⟩ := List.mem_iff_getElem.mp hshown
  have hlt : i < s.sdpObject.media.length := hmedia.length_eq.symm ▸ hi
  have hentry := hmedia.get hlt hi
  have hagain : ∀ entry, Shown entry (s.sdpObject.media.get ⟨i, hlt⟩) →
      Shown entry (media.get ⟨i, hi⟩) := fun entry hshown =>
    hentry.elim (fun heq => heq ▸ hshown) fun hw => hshown.again hw
  exact (hs.printed _ (List.get_mem _ ⟨i, hlt⟩)).imp (hagain .null) fun ⟨sec, hsec, hshown⟩ =>
    ⟨sec, hsec, hagain _ hshown⟩

end

/-! ### The two updates -/

theorem setFill_append (items tail : List Json) (v : Json) :
    Json.setFill (items ++ tail) items.length v = items ++ v :: tail.tail := by
  unfold Json.setFill
  cases tail with
  | nil => simp
  | cons w tail => simp

/-- The sections changed by `g` and printed again. -/
def refreshed (s : RemoteSdp) (g : MediaSection → MediaSection) : RemoteSdp :=
  { s with
    mediaSections := s.mediaSections.map g
    sdpObject := { s.sdpObject with media := (s.mediaSections.map g).map (·.getObject) } }

/-- The loop over all sections, behind those that are done. -/
theorem updateEach_done {f : MediaSection → Except Fault MediaSection}
    {g : MediaSection → MediaSection} (hf : ∀ sec, f sec = .ok (g sec)) :
    ∀ (rest done : List MediaSection) (tail : List Json) (s : RemoteSdp),
      s.mediaSections = done ++ rest →
      s.sdpObject.media = done.map (·.getObject) ++ tail → tail.length ≤ rest.length →
      updateEach f s done.length rest = .returned { s with
        mediaSections := done ++ rest.map g
        sdpObject := { s.sdpObject with media := (done ++ rest.map g).map (·.getObject) } }
  | [], done, tail, s, hsec, hmedia, htail => by
      obtain rfl : tail = [] := List.length_eq_zero_iff.mp (Nat.le_zero.mp htail)
      rw [List.append_nil] at hsec hmedia
      rw [← hsec] at hmedia
      rw [updateEach, List.map_nil, List.append_nil, ← hsec, ← hmedia]
  | sec :: rest, done, tail, s, hsec, hmedia, htail => by
      have hlen : done.length = (done.map (·.getObject)).length := (List.length_map ..).symm
      have hset : (done ++ sec :: rest).set done.length (g sec) = done ++ [g sec] ++ rest := by
        simp
      rw [updateEach, hf]
      simp only [attempt]
      have ih := updateEach_done hf rest (done ++ [g sec]) tail.tail (s.updated done.length (g sec))
        (by rw [RemoteSdp.updated, setMedia]; simp only [hsec, hset])
        (by
          rw [RemoteSdp.updated, setMedia]
          simp only [hmedia]
          rw [hlen, setFill_append]
          simp)
        (by rw [List.length_tail]; simp only [List.length_cons] at htail; omega)
      rw [List.length_append, List.length_singleton] at ih
      rw [← RemoteSdp.updated, ih]
      simp [RemoteSdp.updated, setMedia]

/-- An update that does not fail on a section leaves every entry current. -/
theorem updateEach_eq {f : MediaSection → Except Fault MediaSection}
    {g : MediaSection → MediaSection} (hf : ∀ sec, f sec = .ok (g sec)) {s : RemoteSdp}
    (hlen : s.sdpObject.media.length ≤ s.mediaSections.length) :
    updateEach f s 0 s.mediaSections = .returned (refreshed s g) :=
  updateEach_done hf s.mediaSections [] s.sdpObject.media s rfl rfl hlen

theorem Everywhere.refreshed {Q Q' : MediaSection → Prop} {s : RemoteSdp} (hs : Everywhere Q s)
    {g : MediaSection → MediaSection} (hg : ∀ sec, Q sec → Q' (g sec)) :
    Everywhere Q' (refreshed s g) := by
  have hmap : ∀ sec ∈ s.mediaSections.map g, Q' sec := by
    intro sec hsec
    obtain ⟨old, hold, rfl⟩ := List.mem_map.mp hsec
    exact hg old (hs.sections old hold)
  refine ⟨hmap, fun j hj => ?_, ?_⟩
  · obtain ⟨sec, hsec, rfl⟩ := List.mem_map.mp hj
    exact Or.inr ⟨sec, hmap sec hsec, Or.inl rfl⟩
  · simp only [Sdp.refreshed, List.length_map, le_refl]

theorem markIceLite_same (s : RemoteSdp) :
    s.markIceLite.iceParameters = s.iceParameters ∧
      s.markIceLite.dtlsParameters = s.dtlsParameters ∧
      s.markIceLite.mediaSections = s.mediaSections ∧
      s.markIceLite.sdpObject.media = s.sdpObject.media := by
  unfold markIceLite
  split_ifs <;> exact ⟨rfl, rfl, rfl, rfl⟩

/-- What `SetIceParameters` does to any section depends on the parameters only. -/
theorem setIceParameters_cases (iceParameters : Json) :
    (∃ u p, iceParameters.find "usernameFragment" = some u ∧
      iceParameters.find "password" = some p ∧
      ∀ sec : MediaSection, sec.setIceParameters iceParameters = .ok (sec.withCredentials u p)) ∨
    (iceParameters.find "usernameFragment" = none ∧ iceParameters.find "password" = none ∧
      ∀ sec : MediaSection, sec.setIceParameters iceParameters = .error (.typeError 305)) ∨
    ∀ sec : MediaSection, sec.setIceParameters iceParameters = .error .undefined := by
  cases iceParameters with
  | obj members =>
    cases hu : get "usernameFragment" members with
    | none =>
      refine Or.inr (Or.inr fun sec => ?_)
      simp only [MediaSection.setIceParameters, Json.read, hu]
      rfl
    | some u =>
      cases hp : get "password" members with
      | none =>
        refine Or.inr (Or.inr fun sec => ?_)
        simp only [MediaSection.setIceParameters, Json.read, hu, hp]
        rfl
      | some p =>
        refine Or.inl ⟨u, p, hu, hp, fun sec => ?_⟩
        simp only [MediaSection.setIceParameters, Json.read, hu, hp]
        rfl
  | _ => exact Or.inr (Or.inl ⟨rfl, rfl, fun sec => rfl⟩)

/-! ### Every call -/

/-- The parameters for the sections to come, and what all the sections there are carry. -/
structure Coherent (iceParameters : Json) (role : DtlsRole) (s : RemoteSdp) : Prop where
  ice : s.iceParameters = iceParameters
  dtls : s.dtlsParameters.find "role" = some (.str role.name)
  everywhere : Everywhere (Carries iceParameters role) s

/-- What the calls other than the two updates leave alone. -/
def SameParameters (s s' : RemoteSdp) : Prop :=
  s'.iceParameters = s.iceParameters ∧ s'.dtlsParameters = s.dtlsParameters ∧
    s'.sdpObject.icelite = s.sdpObject.icelite

section
variable {s s' : RemoteSdp}

theorem same_regenerateBundleMids (h : s.regenerateBundleMids.state? = some s') :
    SameParameters s s' := by
  obtain ⟨mids, rfl⟩ := regenerateBundleMids_state h
  exact ⟨rfl, rfl, rfl⟩

theorem same_addMediaSection {new : MediaSection}
    (h : (s.addMediaSection new).state? = some s') : SameParameters s s' := by
  rcases attempt_state h with rfl | ⟨firstMid, _, h⟩
  · exact ⟨rfl, rfl, rfl⟩
  rcases attempt_state h with rfl | ⟨mid, _, h⟩
  · exact ⟨rfl, rfl, rfl⟩
  · obtain ⟨hice, hdtls, hlite⟩ := same_regenerateBundleMids h
    exact ⟨hice, hdtls, hlite⟩

theorem same_replaceMediaSection {new : MediaSection} {reuseMid : String}
    (h : (s.replaceMediaSection new reuseMid).state? = some s') : SameParameters s s' := by
  unfold RemoteSdp.replaceMediaSection at h
  split_ifs at h with hreuse
  · cases hold : s.mediaSections[(s.midToIndex.index reuseMid 0).1]? with
    | none => simp only [hold] at h; cases h
    | some old =>
      simp only [hold] at h
      rcases attempt_state h with rfl | ⟨oldMid, _, h⟩
      · exact ⟨rfl, rfl, rfl⟩
      rcases attempt_state h with rfl | ⟨mid, _, h⟩
      · exact ⟨rfl, rfl, rfl⟩
      · obtain ⟨hice, hdtls, hlite⟩ := same_regenerateBundleMids h
        exact ⟨hice, hdtls, hlite⟩
  · rcases attempt_state h with rfl | ⟨mid, _, h⟩
    · exact ⟨rfl, rfl, rfl⟩
    cases hold : s.mediaSections[(s.midToIndex.index mid 0).1]? with
    | none => simp only [hold] at h; cases h
    | some old => simp only [hold] at h; cases h; exact ⟨rfl, rfl, rfl⟩

theorem same_closeMediaSection {mid : String}
    (h : (s.closeMediaSection mid).state? = some s') : SameParameters s s' := by
  unfold RemoteSdp.closeMediaSection at h
  cases hsec : s.mediaSections[(s.midToIndex.index mid 0).1]? with
  | none => simp only [hsec] at h; cases h
  | some sec =>
    simp only [hsec] at h
    obtain ⟨hice, hdtls, hlite⟩ := same_regenerateBundleMids h
    exact ⟨hice, hdtls, hlite⟩

/-- The two updates. -/
def Op.Updates : Op → Prop
  | .updateIceParameters _ | .updateDtlsRole _ => True
  | _ => False

/-- No other call changes the parameters or the ice-lite line. -/
theorem same_step {op : Op} (hop : ¬op.Updates) (h : remoteSdp.step s op = some s') :
    SameParameters s s' := by
  cases op with
  | updateIceParameters iceParameters => exact absurd trivial hop
  | updateDtlsRole role => exact absurd trivial hop
  | send offerMediaObject reuseMid offerRtpParameters answerRtpParameters codecOptions =>
    rcases attempt_state h with rfl | ⟨⟨new, o⟩, _, h⟩
    · exact ⟨rfl, rfl, rfl⟩
    simp only at h
    split_ifs at h
    · exact same_replaceMediaSection h
    · exact same_addMediaSection h
  | sendSctpAssociation offerMediaObject =>
    rcases attempt_state h with rfl | ⟨⟨new, o⟩, _, h⟩
    · exact ⟨rfl, rfl, rfl⟩
    · exact same_addMediaSection h
  | recvSctpAssociation =>
    rcases attempt_state h with rfl | ⟨new, _, h⟩
    · exact ⟨rfl, rfl, rfl⟩
    · exact same_addMediaSection h
  | receive mid kind offerRtpParameters streamId trackId =>
    rcases attempt_state h with rfl | ⟨new, _, h⟩
    · exact ⟨rfl, rfl, rfl⟩
    cases hc : s.closedIdx with
    | some idx =>
      rw [hc] at h
      rcases attempt_state h with rfl | ⟨reuseMid, _, h⟩
      · exact ⟨rfl, rfl, rfl⟩
      · exact same_replaceMediaSection h
    | none => rw [hc] at h; exact same_addMediaSection h
  | disableMediaSection mid =>
    obtain ⟨idx, m, sec, _, _, rfl⟩ := disableMediaSection_state h
    exact ⟨rfl, rfl, rfl⟩
  | closeMediaSection mid => exact same_closeMediaSection h
  | getSdp => obtain ⟨media, _, rfl⟩ := getSdp_state h; exact ⟨rfl, rfl, rfl⟩

end

section
variable {iceParameters : Json} {role : DtlsRole} {s s' : RemoteSdp}

/-- A call that keeps the parameters, and every section of which is one that carries them. -/
theorem Coherent.keep (hs : Coherent iceParameters role s) (hsame : SameParameters s s')
    (h : Everywhere (Carries iceParameters role) s') : Coherent iceParameters role s' := by
  obtain ⟨hice, hdtls, _⟩ := hsame
  exact ⟨hice.trans hs.ice, by rw [hdtls]; exact hs.dtls, h⟩

/-- The loop of `UpdateIceParameters`, once the parameters are stored. -/
theorem coherent_updateEach {iceParameters' : Json} (hice : s.iceParameters = iceParameters')
    (hdtls : s.dtlsParameters.find "role" = some (.str role.name))
    (hs : Everywhere (Carries iceParameters role) s)
    (h : (updateEach (·.setIceParameters iceParameters') s 0 s.mediaSections).state? = some s') :
    Coherent iceParameters' role s' := by
  obtain ⟨u, p, hu, hp, hset⟩ | ⟨hu, hp, hset⟩ | hset := setIceParameters_cases iceParameters'
  · rw [updateEach_eq hset hs.length] at h
    cases h
    exact ⟨hice, hdtls, hs.refreshed fun sec hsec => hsec.withCredentials hu hp⟩
  · -- the parameters are no object: nothing to carry, and the first section throws
    have hnothing : ∀ sec, Carries iceParameters role sec → Carries iceParameters' role sec := by
      intro sec hsec
      refine ⟨fun u' hu' => ?_, fun p' hp' => ?_, hsec.setup⟩
      · rw [hu] at hu'; cases hu'
      · rw [hp] at hp'; cases hp'
    obtain rfl : s' = s := by
      cases hl : s.mediaSections with
      | nil => rw [hl] at h; cases h; rfl
      | cons sec rest => rw [hl, updateEach, hset] at h; cases h; rfl
    refine ⟨hice, hdtls, fun sec hsec => hnothing sec (hs.sections sec hsec), fun j hj => ?_,
      hs.length⟩
    exact (hs.printed j hj).imp_right fun ⟨sec, hsec, heq⟩ => ⟨sec, hnothing sec hsec, heq⟩
  · -- a member is missing: only without sections is that not noticed
    cases hl : s.mediaSections with
    | cons sec rest => rw [hl, updateEach, hset] at h; cases h
    | nil =>
      have hlen := hs.length
      rw [hl] at h hlen
      cases h
      have hnil := List.length_eq_zero_iff.mp (Nat.le_zero.mp hlen)
      refine ⟨hice, hdtls, fun sec hsec => ?_, fun j hj => ?_, hs.length⟩
      · rw [hl] at hsec; cases hsec
      · rw [hnil] at hj; cases hj

theorem coherent_updateIceParameters (hs : Coherent iceParameters role s) {iceParameters' : Json}
    (h : (s.updateIceParameters iceParameters').state? = some s') :
    Coherent iceParameters' role s' := by
  obtain ⟨hice, hdtls, hsecs, hmedia⟩ := markIceLite_same
    { s with iceParameters := iceParameters' }
  exact coherent_updateEach hice (by rw [hdtls]; exact hs.dtls) (hs.everywhere.congr hsecs hmedia) h

theorem coherent_updateDtlsRole (hs : Coherent iceParameters role s) (role' : DtlsRole)
    (h : (s.updateDtlsRole role'.name).state? = some s') : Coherent iceParameters role' s' := by
  cases hd : s.dtlsParameters with
  | obj members =>
    unfold RemoteSdp.updateDtlsRole at h
    rw [hd] at h
    simp only [Json.write, attempt] at h
    obtain ⟨hice, hdtls, hsecs, hmedia⟩ := markIceLite_same
      { s with dtlsParameters := .obj (put "role" (.str role'.name) members) }
    have hmarked := hs.everywhere.congr hsecs hmedia
    have hset : ∀ sec : MediaSection,
        (.ok (sec.setDtlsRole role'.name) : Except Fault MediaSection) =
          .ok ((fun sec : MediaSection => sec.setDtlsRole role'.name) sec) := fun _ => rfl
    rw [updateEach_eq hset hmarked.length] at h
    cases h
    refine ⟨hice.trans hs.ice, ?_, hmarked.refreshed fun sec hsec => hsec.setDtlsRole role'⟩
    have hget : get "role" (put "role" (Json.str role'.name) members) = some (.str role'.name) :=
      get_put_self _ _ members
    rw [refreshed, hdtls]
    exact hget
  | _ =>
    have hrole := hs.dtls
    rw [hd] at hrole
    cases hrole

/-- A call other than the two updates leaves only sections that carry the parameters. -/
theorem everywhere_step {op : Op} (hop : ¬op.Updates) (hs : Coherent iceParameters role s)
    (h : remoteSdp.step s op = some s') : Everywhere (Carries iceParameters role) s' := by
  have hev := hs.everywhere
  cases op with
  | updateIceParameters iceParameters => exact absurd trivial hop
  | updateDtlsRole role => exact absurd trivial hop
  | send offerMediaObject reuseMid offerRtpParameters answerRtpParameters codecOptions =>
    rcases attempt_state h with rfl | ⟨⟨new, o⟩, hnew, h⟩
    · exact hev
    rw [hs.ice] at hnew
    obtain ⟨_, hcarries⟩ := carries_answer hs.dtls hnew
    simp only at h
    split_ifs at h
    · exact hev.replaceMediaSection hcarries h
    · exact hev.addMediaSection hcarries h
  | sendSctpAssociation offerMediaObject =>
    rcases attempt_state h with rfl | ⟨⟨new, o⟩, hnew, h⟩
    · exact hev
    rw [hs.ice] at hnew
    exact hev.addMediaSection (carries_answer hs.dtls hnew).2 h
  | recvSctpAssociation =>
    rcases attempt_state h with rfl | ⟨new, hnew, h⟩
    · exact hev
    rw [hs.ice] at hnew
    exact hev.addMediaSection (carries_offer role hnew).2 h
  | receive mid kind offerRtpParameters streamId trackId =>
    rcases attempt_state h with rfl | ⟨new, hnew, h⟩
    · exact hev
    rw [hs.ice] at hnew
    have hcarries := (carries_offer role hnew).2
    cases hc : s.closedIdx with
    | some idx =>
      rw [hc] at h
      rcases attempt_state h with rfl | ⟨reuseMid, _, h⟩
      · exact hev
      · exact hev.replaceMediaSection hcarries h
    | none => rw [hc] at h; exact hev.addMediaSection hcarries h
  | disableMediaSection mid => exact hev.disableMediaSection (fun sec hsec => hsec.disable) h
  | closeMediaSection mid =>
    exact hev.closeMediaSection (fun sec hsec => hsec.disable) (fun sec hsec => hsec.close) h
  | getSdp => exact hev.getSdp h

/-- One call. -/
theorem coherent_step {op : Op} (hs : Coherent iceParameters role s)
    (hop : ∀ name, op = .updateDtlsRole name → ∃ role' : DtlsRole, role'.name = name)
    (h : remoteSdp.step s op = some s') :
    ∃ role' : DtlsRole, role'.name = nextRole role.name op ∧
      Coherent (nextIce iceParameters op) role' s' := by
  cases op with
  | updateIceParameters iceParameters' =>
    exact ⟨role, rfl, coherent_updateIceParameters hs h⟩
  | updateDtlsRole name =>
    obtain ⟨role', rfl⟩ := hop name rfl
    exact ⟨role', rfl, coherent_updateDtlsRole hs role' h⟩
  | _ => exact ⟨role, rfl, hs.keep (same_step id h) (everywhere_step id hs h)⟩

end

/-- A run of calls. -/
theorem coherent_exec : ∀ {ops : List Op} {iceParameters : Json} {role : DtlsRole}
    {s t : RemoteSdp}, Coherent iceParameters role s →
    (∀ name, Op.updateDtlsRole name ∈ ops → ∃ role' : DtlsRole, role'.name = name) →
    remoteSdp.exec s ops = some t →
    ∃ latest : DtlsRole, latest.name = ops.foldl nextRole role.name ∧
      Coherent (ops.foldl nextIce iceParameters) latest t
  | [], _, role, _, _, hs, _, ht => by cases ht; exact ⟨role, rfl, hs⟩
  | op :: ops, iceParameters, role, s, t, hs, hops, ht => by
      cases h : remoteSdp.step s op with
      | none => rw [Lts.exec, h] at ht; cases ht
      | some s' =>
        rw [remoteSdp.exec_cons h] at ht
        obtain ⟨role', hname, hs'⟩ := coherent_step hs
          (fun name heq => hops name (heq ▸ List.mem_cons_self ..)) h
        rw [List.foldl_cons, List.foldl_cons, ← hname]
        exact coherent_exec hs' (fun name hmem => hops name (List.mem_cons_of_mem _ hmem)) ht

theorem coherent_new {iceParameters iceCandidates dtlsParameters sctpParameters : Json}
    {s : RemoteSdp} {role : DtlsRole}
    (hrole : dtlsParameters.find "role" = some (.str role.name))
    (h : RemoteSdp.new iceParameters iceCandidates dtlsParameters sctpParameters = .ok s) :
    Coherent iceParameters role s := by
  obtain ⟨hsec, _, _, hmedia, _⟩ := new_empty h
  obtain ⟨_, _, h⟩ := bind_ok.mp h
  obtain ⟨_, _, h⟩ := bind_ok.mp h
  obtain ⟨_, _, h⟩ := bind_ok.mp h
  obtain ⟨_, _, h⟩ := bind_ok.mp h
  cases h
  exact ⟨rfl, hrole, fun _ hs => absurd hs List.not_mem_nil,
    fun _ hj => absurd hj List.not_mem_nil, le_refl _⟩

/-- CORRECT: after every run of calls, wherever the ICE parameters and the DTLS role are updated in
    it, every section, closed or not, has the credentials of the latest ICE parameters and the setup
    of the latest role: active, passive or actpass when it answers (`Send`, `SendSctpAssociation`),
    always actpass when it offers. The entries show such sections, or are gaps. -/
theorem transport_coherent {iceParameters iceCandidates dtlsParameters sctpParameters : Json}
    {s t : RemoteSdp} {role : DtlsRole} {ops : List Op}
    (hnew : RemoteSdp.new iceParameters iceCandidates dtlsParameters sctpParameters = .ok s)
    (hrole : dtlsParameters.find "role" = some (.str role.name))
    (hops : ∀ name, Op.updateDtlsRole name ∈ ops → ∃ role' : DtlsRole, role'.name = name)
    (hrun : remoteSdp.exec s ops = some t) :
    ∃ latest : DtlsRole, latest.name = ops.foldl nextRole role.name ∧
      (∀ sec ∈ t.mediaSections, Carries (ops.foldl nextIce iceParameters) latest sec) ∧
      ∀ entry ∈ t.sdpObject.media, Shown .null entry ∨
        ∃ sec, Shown sec.getObject entry ∧
          Carries (ops.foldl nextIce iceParameters) latest sec := by
  obtain ⟨latest, hname, hcoherent⟩ := coherent_exec (coherent_new hrole hnew) hops hrun
  refine ⟨latest, hname, hcoherent.everywhere.sections, fun entry hentry => ?_⟩
  exact (hcoherent.everywhere.printed entry hentry).imp_right fun ⟨sec, hsec, hshown⟩ =>
    ⟨sec, hshown, hsec⟩

/-- A run with both updates after a section was added. -/
theorem transport_coherent_datachannel :
    ∃ t, remoteSdp.exec remoteSdp₀ [.recvSctpAssociation, .updateDtlsRole "server",
        .updateIceParameters iceParameters₀] = some t ∧
      ∃ latest : DtlsRole, latest.name = "server" ∧
        ∀ sec ∈ t.mediaSections, Carries iceParameters₀ latest sec := by
  obtain ⟨t, ht⟩ := Option.isSome_iff_exists.mp (show (remoteSdp.exec remoteSdp₀
    [.recvSctpAssociation, .updateDtlsRole "server",
      .updateIceParameters iceParameters₀]).isSome = true from rfl)
  have hrole : dtlsParameters₀.find "role" = some (.str DtlsRole.auto.name) := rfl
  have hops : ∀ name, Op.updateDtlsRole name ∈ [.recvSctpAssociation, .updateDtlsRole "server",
      .updateIceParameters iceParameters₀] → ∃ role' : DtlsRole, role'.name = name := by
    intro name hmem
    exact ⟨.server, by simpa [DtlsRole.name, eq_comm] using hmem⟩
  obtain ⟨latest, hname, hsecs, _⟩ := transport_coherent new_remoteSdp₀ hrole hops ht
  exact ⟨t, ht, latest, hname, hsecs⟩

end MediasoupClient.Sdp
