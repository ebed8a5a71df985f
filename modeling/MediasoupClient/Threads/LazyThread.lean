import MediasoupClient.Lib.Lts
import Mathlib.Data.Int.Notation
import Mathlib.Tactic.Common

/-! A thread object, its owner and its workers (lazyutil/lazythread.h, built without pthreads).

        owner     Run:   m_bRun? ──▶ Create ──▶ m_bRun = 1
                  Stop:  m_bRun? ──▶ m_bRun = 0 ──▶ wait until m_bExit
        worker    m_bRun = 1 ──▶ OnThreadStart ──▶ ThreadProc ──▶ m_bRun = 0 ──▶ m_bExit = 1

    Each read and each write of a flag is a step of its own, and the steps of the owner and of the
    workers come in any order. `m_bExit` is never taken back. -/

namespace MediasoupClient.Threads
open Lib

/-- How far a worker is in `InitThreadProc`. -/
inductive Worker where
  | created
  | entered
  | proc
  | over
  | cleared
  | exited
  deriving DecidableEq, Repr

/-- What a worker does next. `ThreadProc` tests `IsAlive` or comes to its end without. -/
inductive Action where
  | enter
  | start (ret : ℤ)
  | test
  | finish
  | clear
  | exit
  deriving DecidableEq, Repr

/-- Where a worker is then: `ThreadProc` is skipped if `OnThreadStart` does not return 0, and its
    loop ends if the thread is not alive. -/
def Worker.step (bRun : Bool) : Worker → Action → Option Worker
  | .created, .enter => some .entered
  | .entered, .start ret => some (if ret = 0 then .proc else .over)
  | .proc, .test => some (if bRun then .proc else .over)
  | .proc, .finish => some .over
  | .over, .clear => some .cleared
  | .cleared, .exit => some .exited
  | _, _ => none

/-- What `m_bRun` is after an action. -/
def Action.bRun (bRun : Bool) : Action → Bool
  | .enter => true
  | .clear => false
  | _ => bRun

/-- What `m_bExit` is after an action. -/
def Action.bExit (bExit : Bool) : Action → Bool
  | .exit => true
  | _ => bExit

/-- Where the owner is: between two calls, in `Run` before `Create` or before `m_bRun = 1`, in `Stop`
    before `m_bRun = 0` or in its loop. -/
inductive Owner where
  | idle
  | creating
  | setting
  | clearing
  | waiting
  deriving DecidableEq, Repr

/-- What is known of the calls.

    `stopped`: a `Stop` has returned, `requested`: a `Stop` has cleared `m_bRun`, and `Run` was not
    called since. `afterStop`: the last `Run` was called when a `Stop` had returned, and `started` is
    how many workers it has started. -/
structure Calls where
  stopped : Bool
  requested : Bool
  afterStop : Bool
  started : ℕ
  deriving DecidableEq, Repr

/-- `Run` is called. -/
def Calls.run (calls : Calls) : Calls := ⟨false, false, calls.stopped, 0⟩

/-- The object, its threads, and the calls so far. -/
structure State where
  bRun : Bool
  bExit : Bool
  workers : List Worker
  owner : Owner
  calls : Calls
  deriving DecidableEq, Repr

def State.init : State := ⟨false, false, [], .idle, ⟨false, false, false, 0⟩⟩

inductive Label where
  | run
  | create
  | noThread
  | setRun
  | stop
  | clear
  | poll
  | worker (i : ℕ) (a : Action)
  deriving DecidableEq, Repr

/-- `Run` up to `Create`. -/
def run (s : State) : State :=
  { s with owner := if s.bRun then .idle else .creating, calls := s.calls.run }

/-- `Create`, which looks at `m_bRun` once more. -/
def create (s : State) : State :=
  if s.bRun then { s with owner := .setting }
  else { s with owner := .setting, workers := s.workers ++ [.created],
                calls.started := s.calls.started + 1 }

/-- A thread that cannot be created is an exception, and `Run` does not return. -/
def noThread (s : State) : State := { s with owner := .idle, calls.afterStop := false }

/-- `Stop` up to `m_bRun = 0`. -/
def stop (s : State) : State :=
  if s.bRun then { s with owner := .clearing } else { s with calls.stopped := true }

/-- The loop of `Stop`. -/
def poll (s : State) : State :=
  if s.bExit then { s with owner := .idle, calls.stopped := true } else s

/-- A worker has done something and is at `w` now. -/
def act (s : State) (i : ℕ) (a : Action) (w : Worker) : State :=
  { s with bRun := a.bRun s.bRun, bExit := a.bExit s.bExit, workers := s.workers.set i w }

def step (s : State) : Label → Option State
  | .run => if s.owner = .idle then some (run s) else none
  | .create => if s.owner = .creating then some (create s) else none
  | .noThread => if s.owner = .creating ∧ s.bRun = false then some (noThread s) else none
  | .setRun => if s.owner = .setting then some { s with owner := .idle, bRun := true } else none
  | .stop => if s.owner = .idle then some (stop s) else none
  | .clear =>
    if s.owner = .clearing then
      some { s with owner := .waiting, bRun := false, calls.requested := true }
    else none
  | .poll => if s.owner = .waiting then some (poll s) else none
  | .worker i a => ((s.workers[i]?).bind fun w => w.step s.bRun a).map (act s i a)

def lazyThread : Lts State Label := ⟨step⟩

/-! ### What a step does -/

/-- `ThreadProc` is over, or will not be begun. -/
def Worker.Done (w : Worker) : Prop := w = .over ∨ w = .cleared ∨ w = .exited

instance (w : Worker) : Decidable w.Done :=
  inferInstanceAs (Decidable (w = .over ∨ w = .cleared ∨ w = .exited))

/-- A worker goes on to the end of `ThreadProc`, takes its flag back, and tells that it has. -/
theorem Worker.step_cases {bRun : Bool} {w w' : Worker} {a : Action}
    (h : w.step bRun a = some w') :
    (¬ w.Done ∧ w' ≠ .created ∧ w' ≠ .cleared ∧ (∀ bExit, a.bExit bExit = bExit) ∧
      (a.bRun bRun = bRun ∨ w = .created ∧ a.bRun bRun = true)) ∨
    (w = .over ∧ a = .clear ∧ w' = .cleared) ∨
    (w = .cleared ∧ a = .exit ∧ w' = .exited) := by
  have hnot : ∀ v : Worker, v = .created ∨ v = .entered ∨ v = .proc → ¬ v.Done := by
    rintro v (rfl | rfl | rfl) <;> decide
  cases w <;> cases a <;> simp only [Worker.step, reduceCtorEq, Option.some.injEq] at h
  case created.enter =>
    subst h
    exact Or.inl ⟨hnot _ (by simp), by simp, by simp, fun _ => rfl, Or.inr ⟨rfl, rfl⟩⟩
  case entered.start ret =>
    refine Or.inl ⟨hnot _ (by simp), ?_, ?_, fun _ => rfl, Or.inl rfl⟩
    · split_ifs at h <;> simp [← h]
    · split_ifs at h <;> simp [← h]
  case proc.test =>
    refine Or.inl ⟨hnot _ (by simp), ?_, ?_, fun _ => rfl, Or.inl rfl⟩
    · split_ifs at h <;> simp [← h]
    · split_ifs at h <;> simp [← h]
  case proc.finish =>
    subst h
    exact Or.inl ⟨hnot _ (by simp), by simp, by simp, fun _ => rfl, Or.inl rfl⟩
  case over.clear => exact Or.inr (Or.inl ⟨rfl, rfl, h.symm⟩)
  case cleared.exit => exact Or.inr (Or.inr ⟨rfl, rfl, h.symm⟩)

/-- Where a step leads to, and what it needs. -/
inductive Steps (s : State) : Label → State → Prop
  | found (h : s.owner = .idle) (hr : s.bRun = true) : Steps s .run { s with calls := s.calls.run }
  | run (h : s.owner = .idle) (hr : s.bRun = false) :
      Steps s .run { s with owner := .creating, calls := s.calls.run }
  | refused (h : s.owner = .creating) (hr : s.bRun = true) :
      Steps s .create { s with owner := .setting }
  | create (h : s.owner = .creating) (hr : s.bRun = false) :
      Steps s .create { s with owner := .setting, workers := s.workers ++ [.created],
                               calls.started := s.calls.started + 1 }
  | noThread (h : s.owner = .creating) (hr : s.bRun = false) : Steps s .noThread (noThread s)
  | setRun (h : s.owner = .setting) : Steps s .setRun { s with owner := .idle, bRun := true }
  | stop (h : s.owner = .idle) (hr : s.bRun = true) : Steps s .stop { s with owner := .clearing }
  | stopped (h : s.owner = .idle) (hr : s.bRun = false) :
      Steps s .stop { s with calls.stopped := true }
  | clear (h : s.owner = .clearing) :
      Steps s .clear { s with owner := .waiting, bRun := false, calls.requested := true }
  | wait (h : s.owner = .waiting) (hx : s.bExit = false) : Steps s .poll s
  | leave (h : s.owner = .waiting) (hx : s.bExit = true) :
      Steps s .poll { s with owner := .idle, calls.stopped := true }
  | worker {i : ℕ} {a : Action} {w w' : Worker} (h : s.workers[i]? = some w)
      (hw : w.step s.bRun a = some w') : Steps s (.worker i a) (act s i a w')

theorem steps_of_step {s s' : State} {l : Label} (h : step s l = some s') : Steps s l s' := by
  cases l with
  | run =>
    simp only [step, Option.ite_none_right_eq_some, Option.some.injEq] at h
    obtain ⟨ho, rfl⟩ := h
    unfold Threads.run
    split_ifs with hr
    · rw [← ho]
      exact Steps.found ho hr
    · exact Steps.run ho (eq_false_of_ne_true hr)
  | create =>
    simp only [step, Option.ite_none_right_eq_some, Option.some.injEq] at h
    obtain ⟨ho, rfl⟩ := h
    unfold Threads.create
    split_ifs with hr
    · exact Steps.refused ho hr
    · exact Steps.create ho (eq_false_of_ne_true hr)
  | noThread =>
    simp only [step, Option.ite_none_right_eq_some, Option.some.injEq] at h
    obtain ⟨⟨ho, hr⟩, rfl⟩ := h
    exact Steps.noThread ho hr
  | setRun =>
    simp only [step, Option.ite_none_right_eq_some, Option.some.injEq] at h
    obtain ⟨ho, rfl⟩ := h
    exact Steps.setRun ho
  | stop =>
    simp only [step, Option.ite_none_right_eq_some, Option.some.injEq] at h
    obtain ⟨ho, rfl⟩ := h
    unfold Threads.stop
    split_ifs with hr
    · exact Steps.stop ho hr
    · exact Steps.stopped ho (eq_false_of_ne_true hr)
  | clear =>
    simp only [step, Option.ite_none_right_eq_some, Option.some.injEq] at h
    obtain ⟨ho, rfl⟩ := h
    exact Steps.clear ho
  | poll =>
    simp only [step, Option.ite_none_right_eq_some, Option.some.injEq] at h
    obtain ⟨ho, rfl⟩ := h
    unfold Threads.poll
    split_ifs with hx
    · exact Steps.leave ho hx
    · exact Steps.wait ho (eq_false_of_ne_true hx)
  | worker i a =>
    simp only [step, Option.map_eq_some_iff, Option.bind_eq_some_iff] at h
    obtain ⟨w', ⟨w, hw, hstep⟩, rfl⟩ := h
    exact Steps.worker hw hstep

end MediasoupClient.Threads
