import MediasoupClient.Sdp.Extended

/-! Parameters of the stream of a data channel (sdputil/jsonvalidate.cpp).

        maxPacketLifeTime   maxRetransmits        first run                  second run
              –                   –               0, 0, ordered              throws
            given                 –               given, 0, not ordered      throws
              –                 given             0, given, not ordered      throws
            given               given             throws

    Zero stands for a member that is unset, and is written for it. What is asked is whether the member
    is there, so what has been filled in counts as provided. -/

namespace MediasoupClient.Sdp
open Lib

/-- `validateSctpStreamParameters`: the iterators that tell what is given are taken before anything is
    inserted. -/
def validateSctpStreamParameters : Json → Except Invalid Json
  | .obj params => do
    let orderedGiven := has params "ordered" Json.isBoolean
    let lifeTimeGiven := (get "maxPacketLifeTime" params).isSome
    let retransmitsGiven := (get "maxRetransmits" params).isSome
    require "missing params.streamId" (has params "streamId" Json.isNumberInteger)
    let params := orDefault "ordered" Json.isBoolean (.bool true) params
    let params := orDefault "maxPacketLifeTime" Json.isNumberInteger (.uint 0) params
    let params := orDefault "maxRetransmits" Json.isNumberInteger (.uint 0) params
    require "cannot provide both maxPacketLifeTime and maxRetransmits"
      (!(lifeTimeGiven && retransmitsGiven))
    require "cannot be ordered with maxPacketLifeTime or maxRetransmits"
      (!(orderedGiven && has params "ordered" (Json.eqv · (.bool true)) &&
        (lifeTimeGiven || retransmitsGiven)))
    let params :=
      if !orderedGiven && (lifeTimeGiven || retransmitsGiven) then put "ordered" (.bool false) params
      else params
    let params := orDefault "label" Json.isString (.str "") params
    return .obj (orDefault "protocol" Json.isString (.str "") params)
  | _ => .error (.exception "params is not an object")

/-! ### What is there -/

/-- Both of the members that exclude each other are there. -/
def BothProvided (params : Members) : Prop :=
  (get "maxPacketLifeTime" params).isSome = true ∧ (get "maxRetransmits" params).isSome = true

theorem isSome_put {key k : String} {value : Json} {m : Members} (h : (get k m).isSome = true) :
    (get k (put key value m)).isSome = true := by
  rw [get_put]
  split_ifs
  · rfl
  · exact h

theorem isSome_orDefault {key k : String} {p : Json → Bool} {value : Json} {m : Members}
    (h : (get k m).isSome = true) : (get k (orDefault key p value m)).isSome = true := by
  unfold orDefault
  split_ifs
  · exact h
  · exact isSome_put h

/-- A member that is filled in is there. -/
theorem isSome_orDefault_self {key : String} {p : Json → Bool} {value : Json}
    (hv : p value = true) (m : Members) : (get key (orDefault key p value m)).isSome = true := by
  obtain ⟨v, hget, -⟩ := has_iff.mp (has_orDefault key hv m)
  rw [hget]
  rfl

theorem BothProvided.put {m : Members} (h : BothProvided m) (key : String) (value : Json) :
    BothProvided (put key value m) := ⟨isSome_put h.1, isSome_put h.2⟩

theorem BothProvided.orDefault {m : Members} (h : BothProvided m) (key : String) (p : Json → Bool)
    (value : Json) : BothProvided (orDefault key p value m) :=
  ⟨isSome_orDefault h.1, isSome_orDefault h.2⟩

/-! ### Two runs -/

/-- What is accepted is left with both members. -/
theorem accepted_bothProvided {j j' : Json} (h : validateSctpStreamParameters j = .ok j') :
    ∃ params, j' = .obj params ∧ BothProvided params := by
  cases j with
  | obj params =>
    obtain ⟨_, -, h⟩ := bind_ok.mp h
    obtain ⟨_, -, h⟩ := bind_ok.mp h
    obtain ⟨_, -, h⟩ := bind_ok.mp h
    cases h
    refine ⟨_, rfl, ?_⟩
    refine BothProvided.orDefault (BothProvided.orDefault ?_ _ _ _) _ _ _
    have hboth : BothProvided (orDefault "maxRetransmits" Json.isNumberInteger (.uint 0)
        (orDefault "maxPacketLifeTime" Json.isNumberInteger (.uint 0)
          (orDefault "ordered" Json.isBoolean (.bool true) params))) :=
      ⟨isSome_orDefault (isSome_orDefault_self rfl _), isSome_orDefault_self rfl _⟩
    split_ifs
    · exact hboth.put _ _
    · exact hboth
  | _ => cases h

/-- Who provides both is refused. -/
theorem bothProvided_refused {params : Members} (h : BothProvided params) (j' : Json) :
    validateSctpStreamParameters (.obj params) ≠ .ok j' := by
  intro hrun
  obtain ⟨_, -, hrun⟩ := bind_ok.mp hrun
  obtain ⟨_, hnot, -⟩ := bind_ok.mp hrun
  have hcheck := require_ok.mp hnot
  rw [h.1, h.2] at hcheck
  cases hcheck

/-! ### What is accepted -/

/-- The members the validator wants: a stream, and at most one of the two limits, which an ordered
    stream cannot have. -/
structure StreamComplete (params : Members) : Prop where
  streamId : has params "streamId" Json.isNumberInteger = true
  one : ¬ BothProvided params
  ordered : get "ordered" params = some (.bool true) →
    get "maxPacketLifeTime" params = none ∧ get "maxRetransmits" params = none

theorem isSome_eq_false {key : String} {m : Members} :
    (get key m).isSome = false ↔ get key m = none := by
  cases get key m <;> simp

/-- Which parameters the validator returns. -/
theorem stream_accepted_iff (params : Members) :
    (∃ j', validateSctpStreamParameters (.obj params) = .ok j') ↔ StreamComplete params := by
  have hordered : has (orDefault "maxRetransmits" Json.isNumberInteger (.uint 0)
      (orDefault "maxPacketLifeTime" Json.isNumberInteger (.uint 0)
        (orDefault "ordered" Json.isBoolean (.bool true) params))) "ordered"
          (Json.eqv · (.bool true)) =
      has (orDefault "ordered" Json.isBoolean (.bool true) params) "ordered"
        (Json.eqv · (.bool true)) := by
    rw [has_orDefault_of_ne (by decide), has_orDefault_of_ne (by decide)]
  constructor
  · rintro ⟨j', h⟩
    obtain ⟨_, hid, h⟩ := bind_ok.mp h
    obtain ⟨_, hone, h⟩ := bind_ok.mp h
    obtain ⟨_, hord, -⟩ := bind_ok.mp h
    have hone := require_ok.mp hone
    have hord := require_ok.mp hord
    rw [hordered] at hord
    refine ⟨require_ok.mp hid, fun hboth => ?_, fun hget => ?_⟩
    · rw [hboth.1, hboth.2] at hone
      cases hone
    · have hgiven : has params "ordered" Json.isBoolean = true := has_iff.mpr ⟨_, hget, rfl⟩
      have htrue : has params "ordered" (Json.eqv · (.bool true)) = true :=
        has_iff.mpr ⟨_, hget, rfl⟩
      rw [hgiven, orDefault, if_pos hgiven, htrue] at hord
      simpa [isSome_eq_false] using hord
  · intro h
    refine ⟨_, bind_ok.mpr ⟨(), require_ok.mpr h.streamId, bind_ok.mpr ⟨(), require_ok.mpr ?_,
      bind_ok.mpr ⟨(), require_ok.mpr ?_, rfl⟩⟩⟩⟩
    · have hone := h.one
      rw [BothProvided, ← Bool.and_eq_true] at hone
      rw [eq_false_of_ne_true hone]
      rfl
    · rw [hordered]
      cases hgiven : has params "ordered" Json.isBoolean with
      | false => rfl
      | true =>
        rw [orDefault, if_pos hgiven]
        obtain ⟨v, hget, hv⟩ := has_iff.mp hgiven
        cases v with
        | bool b =>
          cases b with
          | false => simp [has, hget, Json.eqv]
          | true =>
            obtain ⟨hlife, hretransmits⟩ := h.ordered hget
            simp [hlife, hretransmits]
        | _ => cases hv

/-! ### Accepted again -/

/-- What the validator returns it accepts, and leaves as it is. -/
def AcceptsAgain (j : Json) : Prop :=
  ∀ j', validateSctpStreamParameters j = .ok j' → validateSctpStreamParameters j' = .ok j'

/-- CORRECT: what the validator returns is never accepted again, only what it refuses is settled. -/
theorem accepts_again_iff (j : Json) :
    AcceptsAgain j ↔ ∀ params, j = .obj params → ¬ StreamComplete params := by
  constructor
  · rintro h params rfl hcomplete
    obtain ⟨j', hrun⟩ := (stream_accepted_iff params).mpr hcomplete
    obtain ⟨params', rfl, hboth⟩ := accepted_bothProvided hrun
    exact bothProvided_refused hboth _ (h _ hrun)
  · intro h j' hrun
    cases j with
    | obj params => exact absurd ((stream_accepted_iff params).mp ⟨j', hrun⟩) (h params rfl)
    | _ => cases hrun

/-- The parameters of a new data consumer. -/
theorem ordered_stream_refused : ¬ ∀ j, AcceptsAgain j := by
  intro h
  have hrun := h (.obj [("ordered", .bool true), ("streamId", .int 1)]) _ rfl
  exact bothProvided_refused ⟨rfl, rfl⟩ _ hrun

end MediasoupClient.Sdp
