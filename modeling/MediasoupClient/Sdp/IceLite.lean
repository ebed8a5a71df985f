import MediasoupClient.Sdp.JsonValidate
import MediasoupClient.Sdp.Transport

/-! The ice-lite line of the description.

    The member `iceLite` of the ICE parameters says whether the server is an ICE-lite one. What the
    description looks at is whether the member is there:

        new p                     line  :=  p has iceLite
        updateIceParameters p     line  :=  line or p has iceLite
        updateDtlsRole            line  :=  line or the current parameters have iceLite

    so the line tells whether any parameters so far had the member, true or false. -/

namespace MediasoupClient.Sdp
open Lib RemoteSdp

/-- The description has the ice-lite line. -/
def HasIceLite (s : RemoteSdp) : Prop := (s.sdpObject.toJson.find "icelite").isSome

/-- The member is there and true. -/
def IsLite (iceParameters : Json) : Prop :=
  ∃ lite, iceParameters.find "iceLite" = some lite ∧ lite.eqv (.bool true) = true

/-- The member is there. -/
def mentionsIceLite (iceParameters : Json) : Bool := (iceParameters.find "iceLite").isSome

/-- The ICE parameters of the calls, in order. -/
def givenIce (ops : List Op) : List Json :=
  ops.filterMap fun
    | .updateIceParameters iceParameters => some iceParameters
    | _ => none

theorem hasIceLite_iff {s : RemoteSdp} : HasIceLite s ↔ s.sdpObject.icelite = true := by
  unfold HasIceLite
  cases hi : s.sdpObject.icelite <;>
    simp [SdpObject.toJson, hi, Json.object, Json.find, get_put, Lib.get]

/-- The line tells whether the member has been `seen`; the current parameters count. -/
structure Seen (seen : Bool) (s : RemoteSdp) : Prop where
  line : s.sdpObject.icelite = seen
  current : mentionsIceLite s.iceParameters = true → seen = true

theorem Seen.markIceLite {seen : Bool} (s : RemoteSdp) (h : s.sdpObject.icelite = seen) :
    Seen (seen || mentionsIceLite s.iceParameters) s.markIceLite := by
  unfold RemoteSdp.markIceLite
  split_ifs with hkey
  · have hm : mentionsIceLite s.iceParameters = true := hkey
    rw [hm, Bool.or_true]
    exact ⟨rfl, fun _ => rfl⟩
  · have hm : mentionsIceLite s.iceParameters = false := Bool.eq_false_iff.mpr hkey
    rw [hm, Bool.or_false]
    exact ⟨h, fun hc => by rw [hm] at hc; cases hc⟩

theorem Seen.updated {seen : Bool} {s : RemoteSdp} (h : Seen seen s) (idx : ℕ)
    (sec : MediaSection) : Seen seen (s.updated idx sec) := ⟨h.line, h.current⟩

/-- One call. -/
theorem seen_step {seen : Bool} {s s' : RemoteSdp} {op : Op} (hs : Seen seen s)
    (h : remoteSdp.step s op = some s') :
    Seen (seen || (givenIce [op]).any mentionsIceLite) s' := by
  cases op with
  | updateIceParameters iceParameters =>
    have hany : (givenIce [.updateIceParameters iceParameters]).any mentionsIceLite =
        mentionsIceLite iceParameters := Bool.or_false _
    rw [hany]
    refine updateIceParameters_rule (fun t idx sec sec' _ _ ht => ht.updated idx sec') ?_ h
    exact Seen.markIceLite { s with iceParameters := iceParameters } hs.line
  | updateDtlsRole role =>
    have hany : (givenIce [.updateDtlsRole role]).any mentionsIceLite = false := rfl
    rw [hany, Bool.or_false]
    refine updateDtlsRole_rule (fun t idx sec _ ht => ht.updated idx _) hs (fun d => ?_) h
    -- the current parameters have been looked at before
    have hmark : Seen (seen || mentionsIceLite s.iceParameters)
        (RemoteSdp.markIceLite { s with dtlsParameters := d }) :=
      Seen.markIceLite { s with dtlsParameters := d } hs.line
    cases hm : mentionsIceLite s.iceParameters with
    | true => rw [hm, Bool.or_true] at hmark; rw [hs.current hm]; exact hmark
    | false => rw [hm, Bool.or_false] at hmark; exact hmark
  | _ =>
    obtain ⟨hice, _, hlite⟩ := same_step id h
    show Seen (seen || false) s'
    rw [Bool.or_false]
    exact ⟨hlite.trans hs.line, fun hm => hs.current (hice ▸ hm)⟩

theorem seen_exec : ∀ {ops : List Op} {seen : Bool} {s t : RemoteSdp}, Seen seen s →
    remoteSdp.exec s ops = some t → Seen (seen || (givenIce ops).any mentionsIceLite) t
  | [], seen, _, _, hs, ht => by
      cases ht
      have hnil : (givenIce []).any mentionsIceLite = false := rfl
      rw [hnil, Bool.or_false]
      exact hs
  | op :: ops, seen, s, t, hs, ht => by
      cases h : remoteSdp.step s op with
      | none => rw [Lts.exec, h] at ht; cases ht
      | some s' =>
        rw [remoteSdp.exec_cons h] at ht
        have hcons : givenIce (op :: ops) = givenIce [op] ++ givenIce ops :=
          List.filterMap_append (l := [op])
        rw [hcons, List.any_append, ← Bool.or_assoc]
        exact seen_exec (seen_step hs h) ht

theorem seen_new {iceParameters iceCandidates dtlsParameters sctpParameters : Json}
    {s : RemoteSdp} (h : RemoteSdp.new iceParameters iceCandidates dtlsParameters sctpParameters =
      .ok s) : Seen (mentionsIceLite iceParameters) s := by
  obtain ⟨_, _, h⟩ := bind_ok.mp h
  obtain ⟨_, _, h⟩ := bind_ok.mp h
  obtain ⟨_, _, h⟩ := bind_ok.mp h
  obtain ⟨_, _, h⟩ := bind_ok.mp h
  cases h
  exact ⟨rfl, id⟩

/-- The line is there exactly when some parameters so far had the member. -/
theorem hasIceLite_exec {iceParameters iceCandidates dtlsParameters sctpParameters : Json}
    {s t : RemoteSdp} {ops : List Op}
    (hnew : RemoteSdp.new iceParameters iceCandidates dtlsParameters sctpParameters = .ok s)
    (hrun : remoteSdp.exec s ops = some t) :
    HasIceLite t ↔ ∃ p ∈ iceParameters :: givenIce ops, mentionsIceLite p = true := by
  rw [hasIceLite_iff, (seen_exec (seen_new hnew) hrun).line, Bool.or_eq_true, List.any_eq_true]
  simp only [List.mem_cons, exists_eq_or_imp]

/-- The latest parameters are among those given. -/
theorem latest_mem : ∀ (ops : List Op) (iceParameters : Json),
    ops.foldl nextIce iceParameters ∈ iceParameters :: givenIce ops
  | [], _ => List.mem_cons_self ..
  | op :: ops, iceParameters => by
      rw [List.foldl_cons]
      have ih := latest_mem ops (nextIce iceParameters op)
      cases op with
      | updateIceParameters iceParameters' => exact List.mem_cons_of_mem _ ih
      | _ => exact ih

/-- Normalised parameters have the member. -/
theorem validateIceParameters_mentions {iceParameters iceParameters' : Json}
    (h : validateIceParameters iceParameters = .ok iceParameters') :
    mentionsIceLite iceParameters' = true := by
  cases iceParameters with
  | obj params =>
    obtain ⟨_, _, h⟩ := bind_ok.mp h
    obtain ⟨_, _, h⟩ := bind_ok.mp h
    cases h
    show (get "iceLite" _).isSome = true
    unfold orDefault
    split_ifs with hlite
    · cases hg : get "iceLite" params with
      | none => rw [has, hg] at hlite; cases hlite
      | some _ => rfl
    · rw [get_put_self]; rfl
  | _ => cases h

/-- CORRECT: after every run the ice-lite line follows the latest ICE parameters exactly when these
    are lite, or none so far mention the member at all. Parameters that were normalised always
    produce the line. -/
theorem ice_lite_follows {iceParameters iceCandidates dtlsParameters sctpParameters : Json}
    {s t : RemoteSdp} {ops : List Op}
    (hnew : RemoteSdp.new iceParameters iceCandidates dtlsParameters sctpParameters = .ok s)
    (hrun : remoteSdp.exec s ops = some t) :
    ((HasIceLite t ↔ IsLite (ops.foldl nextIce iceParameters)) ↔
      IsLite (ops.foldl nextIce iceParameters) ∨
        ∀ p ∈ iceParameters :: givenIce ops, p.find "iceLite" = none) ∧
      ((∃ raw, ∃ p ∈ iceParameters :: givenIce ops, validateIceParameters raw = .ok p) →
        HasIceLite t) := by
  have hline := hasIceLite_exec hnew hrun
  constructor
  · constructor
    · intro hfollows
      by_cases hlite : IsLite (ops.foldl nextIce iceParameters)
      · exact Or.inl hlite
      · refine Or.inr fun p hp => ?_
        by_contra hne
        refine hlite (hfollows.mp (hline.mpr ⟨p, hp, ?_⟩))
        exact Option.isSome_iff_ne_none.mpr hne
    · rintro (hlite | hnone)
      · refine iff_of_true (hline.mpr ⟨_, latest_mem ops iceParameters, ?_⟩) hlite
        obtain ⟨lite, hfind, _⟩ := hlite
        rw [mentionsIceLite, hfind]
        rfl
      · refine iff_of_false (fun h => ?_) fun ⟨lite, hfind, _⟩ => ?_
        · obtain ⟨p, hp, hm⟩ := hline.mp h
          rw [mentionsIceLite, hnone p hp] at hm
          cases hm
        · rw [hnone _ (latest_mem ops iceParameters)] at hfind
          cases hfind
  · rintro ⟨raw, p, hp, hvalid⟩
    exact hline.mpr ⟨p, hp, validateIceParameters_mentions hvalid⟩

/-- ICE parameters of an ICE-lite server. -/
def liteParameters₀ : Json := Json.object [
  ("iceLite", .bool true), ("usernameFragment", .str "ufrag"), ("password", .str "pwd")]

/-- A server turns ICE-lite, and then sends parameters without the member: the line comes in time
    and does not go again. -/
theorem ice_lite_follows_updates :
    (∃ t, remoteSdp.exec remoteSdp₀ [.recvSctpAssociation, .updateIceParameters iceParameters₀] =
        some t ∧ ¬HasIceLite t) ∧
      (∃ t, remoteSdp.exec remoteSdp₀
        [.recvSctpAssociation, .updateIceParameters liteParameters₀] = some t ∧ HasIceLite t) ∧
      ∃ t, remoteSdp.exec remoteSdp₀ [.recvSctpAssociation, .updateIceParameters liteParameters₀,
        .updateIceParameters iceParameters₀] = some t ∧
        ¬(HasIceLite t ↔ IsLite iceParameters₀) := by
  have hno : ¬IsLite iceParameters₀ := fun ⟨_, hfind, _⟩ => by cases hfind
  have hyes : IsLite liteParameters₀ := ⟨.bool true, rfl, rfl⟩
  obtain ⟨t, ht⟩ := Option.isSome_iff_exists.mp (show (remoteSdp.exec remoteSdp₀
    [.recvSctpAssociation, .updateIceParameters iceParameters₀]).isSome = true from rfl)
  obtain ⟨u, hu⟩ := Option.isSome_iff_exists.mp (show (remoteSdp.exec remoteSdp₀
    [.recvSctpAssociation, .updateIceParameters liteParameters₀]).isSome = true from rfl)
  obtain ⟨v, hv⟩ := Option.isSome_iff_exists.mp (show (remoteSdp.exec remoteSdp₀
    [.recvSctpAssociation, .updateIceParameters liteParameters₀,
      .updateIceParameters iceParameters₀]).isSome = true from rfl)
  refine ⟨⟨t, ht, fun hline => ?_⟩, ⟨u, hu, ?_⟩, ⟨v, hv, fun hfollows => ?_⟩⟩
  · refine hno (((ice_lite_follows new_remoteSdp₀ ht).1.mpr (Or.inr fun p hp => ?_)).mp hline)
    rcases List.mem_pair.mp hp with rfl | rfl <;> rfl
  · exact ((ice_lite_follows new_remoteSdp₀ hu).1.mpr (Or.inl hyes)).mpr hyes
  · rcases (ice_lite_follows new_remoteSdp₀ hv).1.mp hfollows with hlite | hnone
    · exact hno hlite
    · have hmember := hnone liteParameters₀ (by simp [givenIce])
      cases hmember

/-- ICE parameters as the validator leaves them. -/
def normalised₀ : Json := Json.object [
  ("iceLite", .bool false), ("password", .str "pwd"), ("usernameFragment", .str "ufrag")]

/-- The server says that it is not ICE-lite, and the description says that it is. -/
theorem ice_lite_of_false :
    validateIceParameters iceParameters₀ = .ok normalised₀ ∧ ¬IsLite normalised₀ ∧
      ∃ s, RemoteSdp.new normalised₀ (.arr []) dtlsParameters₀ sctpParameters₀ = .ok s ∧
        HasIceLite s := by
  refine ⟨rfl, ?_, _, rfl, hasIceLite_iff.mpr rfl⟩
  rintro ⟨lite, hfind, heq⟩
  cases hfind
  cases heq

end MediasoupClient.Sdp
