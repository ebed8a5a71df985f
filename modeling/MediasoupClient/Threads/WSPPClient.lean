import MediasoupClient.Lib.Lts
import Mathlib.Data.Int.Notation
import Mathlib.Tactic.Common

/-! The promise of a connection (websocket/WSPPClient.cpp, websocket/WSPPClient.h).

        caller     connect_sync:  connect ──▶ promise_ = new ──▶ get() ──▶ delete promise_
                                     │
        network    on_open, on_fail: └─ any time ──▶ promise_? ──▶ promise_->set_value

    The caller makes one call after the other; each starts an attempt to connect, with `connect` no one
    waits for it. Callbacks of any attempt come at any time after its start, in threads of their own.
    `promise_` is not initialised, and it is not reset when what it points at is deleted. -/

namespace MediasoupClient.Threads.WSPPClient
open Lib

/-- What `promise_` holds: null or anything else, as it was found, or the n-th promise. -/
inductive Pointer where
  | null
  | wild
  | to (n : ℕ)
  deriving DecidableEq, Repr

/-- A promise that was made for an attempt. -/
structure Promise where
  attempt : ℕ
  value : Option ℤ
  live : Bool
  deriving DecidableEq, Repr

/-- Where the caller is: between two calls, or in `connect_sync` before its promise is made, in
    `get()`, or before `delete`. -/
inductive Client where
  | idle
  | connecting (attempt : ℕ)
  | waiting (attempt n : ℕ)
  | returning (attempt n : ℕ) (ret : ℤ)
  deriving DecidableEq, Repr

/-- What the network tells of an attempt. -/
inductive Event where
  | onOpen
  | onFail (errorCode : ℤ)
  deriving DecidableEq, Repr

/-- The value that the promise is set to. -/
def Event.value : Event → ℤ
  | .onOpen => 0
  | .onFail errorCode => errorCode

/-- How a callback ends: without `set_value`, or with one that completes the n-th promise, or on a
    promise that has a value (an exception), on a deleted one, or on none. -/
inductive Finish where
  | skipped
  | completed (n : ℕ)
  | satisfied
  | deleted
  | absent
  deriving DecidableEq, Repr

inductive Phase where
  | entered
  | tested
  | done (f : Finish)
  deriving DecidableEq, Repr

structure Callback where
  attempt : ℕ
  event : Event
  phase : Phase
  deriving DecidableEq, Repr

/-- The client, the promises it has made, how many attempts it has started, its caller and the
    callbacks so far. -/
structure State where
  promise : Pointer
  promises : List Promise
  attempts : ℕ
  client : Client
  callbacks : List Callback
  deriving DecidableEq, Repr

/-- A new client: `promise_` is null only by chance. -/
def State.init (null : Bool) : State := ⟨if null then .null else .wild, [], 0, .idle, []⟩

inductive Label where
  | connect
  | connectSync
  | refused
  | newPromise
  | get
  | delete
  | fire (attempt : ℕ) (event : Event)
  | test (i : ℕ)
  | set (i : ℕ)
  deriving DecidableEq, Repr

/-- What comes of `promise_->set_value`. -/
def finish (s : State) : Finish :=
  match s.promise with
  | .to n =>
    match s.promises[n]? with
    | some p => if p.live then (if p.value.isSome then .satisfied else .completed n) else .deleted
    | none => .absent
  | .null | .wild => .absent

/-- The promises after `promise_->set_value`. -/
def setValue (s : State) (value : ℤ) : List Promise :=
  match finish s with
  | .completed n => s.promises.modify n fun p => { p with value := some value }
  | _ => s.promises

/-- The promises after `delete promise_`. -/
def deletePromise (s : State) : List Promise :=
  match s.promise with
  | .to n => s.promises.modify n fun p => { p with live := false }
  | .null | .wild => s.promises

/-- The callbacks after one of them went on. -/
def mark (s : State) (i : ℕ) (c : Callback) (phase : Phase) : List Callback :=
  s.callbacks.set i { c with phase := phase }

def step (s : State) : Label → Option State
  | .connect => if s.client = .idle then some { s with attempts := s.attempts + 1 } else none
  | .connectSync =>
    if s.client = .idle then
      some { s with attempts := s.attempts + 1, client := .connecting s.attempts }
    else none
  -- `ws_client_->connect` returns an error, and no attempt is started
  | .refused => if s.client = .idle then some s else none
  | .newPromise =>
    match s.client with
    | .connecting a => some { s with promise := .to s.promises.length,
                                     promises := s.promises ++ [⟨a, none, true⟩],
                                     client := .waiting a s.promises.length }
    | _ => none
  | .get =>
    match s.client with
    | .waiting a n =>
      ((s.promises[n]?).bind fun p => p.value).map fun v => { s with client := .returning a n v }
    | _ => none
  | .delete =>
    match s.client with
    | .returning _ _ _ => some { s with promises := deletePromise s, client := .idle }
    | _ => none
  | .fire a e =>
    if a < s.attempts then some { s with callbacks := s.callbacks ++ [⟨a, e, .entered⟩] } else none
  | .test i =>
    (s.callbacks[i]?).bind fun c =>
      if c.phase = .entered then
        some { s with callbacks := mark s i c (if s.promise = .null then .done .skipped else .tested) }
      else none
  | .set i =>
    (s.callbacks[i]?).bind fun c =>
      if c.phase = .tested then
        some { s with promises := setValue s c.event.value,
                      callbacks := mark s i c (.done (finish s)) }
      else none

def wsppClient : Lts State Label := ⟨step⟩

/-! ### What a step does -/

/-- Where a step leads to, and what it needs. -/
inductive Steps (s : State) : Label → State → Prop
  | connect (h : s.client = .idle) : Steps s .connect { s with attempts := s.attempts + 1 }
  | connectSync (h : s.client = .idle) : Steps s .connectSync
      { s with attempts := s.attempts + 1, client := .connecting s.attempts }
  | refused (h : s.client = .idle) : Steps s .refused s
  | newPromise {a : ℕ} (h : s.client = .connecting a) : Steps s .newPromise
      { s with promise := .to s.promises.length, promises := s.promises ++ [⟨a, none, true⟩],
               client := .waiting a s.promises.length }
  | get {a n : ℕ} {p : Promise} {v : ℤ} (h : s.client = .waiting a n)
      (hp : s.promises[n]? = some p) (hv : p.value = some v) :
      Steps s .get { s with client := .returning a n v }
  | delete {a n : ℕ} {v : ℤ} (h : s.client = .returning a n v) :
      Steps s .delete { s with promises := deletePromise s, client := .idle }
  | fire {a : ℕ} {e : Event} (h : a < s.attempts) :
      Steps s (.fire a e) { s with callbacks := s.callbacks ++ [⟨a, e, .entered⟩] }
  | skip {i : ℕ} {c : Callback} (h : s.callbacks[i]? = some c) (hc : c.phase = .entered)
      (hp : s.promise = .null) :
      Steps s (.test i) { s with callbacks := mark s i c (.done .skipped) }
  | test {i : ℕ} {c : Callback} (h : s.callbacks[i]? = some c) (hc : c.phase = .entered)
      (hp : s.promise ≠ .null) :
      Steps s (.test i) { s with callbacks := mark s i c .tested }
  | set {i : ℕ} {c : Callback} (h : s.callbacks[i]? = some c) (hc : c.phase = .tested) :
      Steps s (.set i) { s with promises := setValue s c.event.value,
                                callbacks := mark s i c (.done (finish s)) }

theorem steps_of_step {s s' : State} {l : Label} (h : step s l = some s') : Steps s l s' := by
  cases l with
  | connect =>
    simp only [step, Option.ite_none_right_eq_some, Option.some.injEq] at h
    obtain ⟨hc, rfl⟩ := h
    exact Steps.connect hc
  | connectSync =>
    simp only [step, Option.ite_none_right_eq_some, Option.some.injEq] at h
    obtain ⟨hc, rfl⟩ := h
    exact Steps.connectSync hc
  | refused =>
    simp only [step, Option.ite_none_right_eq_some, Option.some.injEq] at h
    obtain ⟨hc, rfl⟩ := h
    exact Steps.refused hc
  | newPromise =>
    cases hc : s.client with
    | connecting a =>
      simp only [step, hc, Option.some.injEq] at h
      subst h
      exact Steps.newPromise hc
    | idle | waiting | returning => simp [step, hc] at h
  | get =>
    cases hc : s.client with
    | waiting a n =>
      simp only [step, hc, Option.map_eq_some_iff, Option.bind_eq_some_iff] at h
      obtain ⟨v, ⟨p, hp, hv⟩, rfl⟩ := h
      exact Steps.get hc hp hv
    | idle | connecting | returning => simp [step, hc] at h
  | delete =>
    cases hc : s.client with
    | returning a n v =>
      simp only [step, hc, Option.some.injEq] at h
      subst h
      exact Steps.delete hc
    | idle | connecting | waiting => simp [step, hc] at h
  | fire a e =>
    simp only [step, Option.ite_none_right_eq_some, Option.some.injEq] at h
    obtain ⟨ha, rfl⟩ := h
    exact Steps.fire ha
  | test i =>
    simp only [step, Option.bind_eq_some_iff, Option.ite_none_right_eq_some, Option.some.injEq] at h
    obtain ⟨c, hget, hc, rfl⟩ := h
    split_ifs with hp
    · exact Steps.skip hget hc hp
    · exact Steps.test hget hc hp
  | set i =>
    simp only [step, Option.bind_eq_some_iff, Option.ite_none_right_eq_some, Option.some.injEq] at h
    obtain ⟨c, hget, hc, rfl⟩ := h
    exact Steps.set hget hc

end MediasoupClient.Threads.WSPPClient
