import MediasoupClient.Threads.LazyThread

/-! Whether a thread that is to stop stops.

        Stop:    m_bRun = 0 ───────────────▶ loops end at their next test
                        │
        worker:         └── m_bRun = 1       if its first statement is still to come

    A worker that has not begun yet takes the request back, and nothing stops it any more. -/

namespace MediasoupClient.Threads
open Lib

/-- `m_bRun` stays 0 once `Stop` has cleared it, and a loop in `ThreadProc` ends at its next test. -/
structure RequestKept (s : State) : Prop where
  cleared : s.calls.requested = true → s.bRun = false
  leaves : s.calls.requested = true → ∀ i, s.workers[i]? = some .proc →
    ∃ s', step s (.worker i .test) = some s' ∧ s'.workers[i]? = some .over

/-- `Stop` clears `m_bRun` only when every worker is past its first statement. -/
def WorkersEntered (s : State) (l : Label) : Prop := l = .clear → .created ∉ s.workers

instance (s : State) (l : Label) : Decidable (WorkersEntered s l) :=
  inferInstanceAs (Decidable (l = .clear → .created ∉ s.workers))

/-- After a request no `Run` is under way, and no worker is about to set the flag. -/
structure Requested (s : State) : Prop where
  owner : s.owner ≠ .creating ∧ s.owner ≠ .setting
  bRun : s.bRun = false
  entered : .created ∉ s.workers

theorem Requested.act {s : State} (h : Requested s) {i : ℕ} {a : Action} {w w' : Worker}
    (hget : s.workers[i]? = some w) (hw : w.step s.bRun a = some w') : Requested (act s i a w') where
  owner := h.owner
  bRun := by
    obtain ⟨-, -, -, -, hkeep | ⟨rfl, -⟩⟩ | ⟨-, rfl, -⟩ | ⟨-, rfl, -⟩ := Worker.step_cases hw
    · exact hkeep.trans h.bRun
    · exact absurd (List.mem_of_getElem? hget) h.entered
    · rfl
    · exact h.bRun
  entered := by
    have hnew : w' ≠ .created := by
      obtain ⟨-, hne, -⟩ | ⟨-, -, rfl⟩ | ⟨-, -, rfl⟩ := Worker.step_cases hw
      · exact hne
      · exact Worker.noConfusion
      · exact Worker.noConfusion
    intro hmem
    rcases List.mem_or_eq_of_mem_set hmem with hold | heq
    · exact h.entered hold
    · exact hnew heq.symm

/-- A step keeps what is known after a request, and a request that meets the condition gets there. -/
theorem requested_step {s s' : State} {l : Label} (h : s.calls.requested = true → Requested s)
    (hl : WorkersEntered s l) (hstep : step s l = some s') :
    s'.calls.requested = true → Requested s' := by
  intro hreq
  cases steps_of_step hstep with
  | found | run => cases hreq
  | refused ho => exact absurd ho (h hreq).owner.1
  | create ho => exact absurd ho (h hreq).owner.1
  | noThread ho => exact absurd ho (h hreq).owner.1
  | setRun ho => exact absurd ho (h hreq).owner.2
  | stop ho => exact ⟨by simp, (h hreq).bRun, (h hreq).entered⟩
  | stopped ho => exact ⟨(h hreq).owner, (h hreq).bRun, (h hreq).entered⟩
  | clear ho => exact ⟨by simp, rfl, hl rfl⟩
  | wait => exact h hreq
  | leave ho => exact ⟨by simp, (h hreq).bRun, (h hreq).entered⟩
  | worker hget hw => exact (h hreq).act hget hw

theorem Requested.kept {s : State} (h : s.calls.requested = true → Requested s) : RequestKept s where
  cleared hreq := (h hreq).bRun
  leaves hreq i hget := by
    have hlt : i < s.workers.length := (List.getElem?_eq_some_iff.mp hget).1
    refine ⟨Threads.act s i .test .over, ?_, ?_⟩
    · simp only [step, hget, Option.bind_some, Worker.step, (h hreq).bRun, Bool.false_eq_true,
        if_false, Option.map_some]
    · simp only [Threads.act, List.getElem?_set_self hlt]

/-- CORRECT: a request is kept in every state of a run whose `Stop`s clear `m_bRun` only when every
    worker is past its first statement. -/
theorem stop_request_kept {ls : List Label} (h : lazyThread.Along WorkersEntered .init ls) :
    lazyThread.Always RequestKept .init ls := by
  have hinit : State.init.calls.requested = true → Requested State.init := fun hreq => by cases hreq
  exact lazyThread.always_of_inv (fun s => s.calls.requested = true → Requested s)
    (fun s l s' hs hl hstep => requested_step hs hl hstep) (fun s hs => Requested.kept hs) hinit h

/-- The condition cannot be spared: the worker that has not begun takes the request back. -/
theorem request_lost {s s' : State} {i : ℕ} (hget : s.workers[i]? = some .created)
    (hstep : step s .clear = some s') :
    ∃ t, step s' (.worker i .enter) = some t ∧ t.calls.requested = true ∧ t.bRun = true := by
  have henter : step s' (.worker i .enter) = some (act s' i .enter .entered) := by
    cases steps_of_step hstep with
    | clear ho => simp only [step, hget, Option.bind_some, Worker.step, Option.map_some]
  refine ⟨_, henter, ?_, rfl⟩
  cases steps_of_step hstep with
  | clear ho => rfl

/-- One round: the worker leaves its loop, and `Stop` returns. -/
theorem stop_request_kept_round : lazyThread.Always RequestKept .init
    [.run, .create, .setRun, .worker 0 .enter, .worker 0 (.start 0), .worker 0 .test, .stop, .clear,
      .poll, .worker 0 .test, .worker 0 .clear, .worker 0 .exit, .poll] :=
  stop_request_kept (by decide)

/-- `Stop` right after `Run`: the worker begins, and the request is lost. -/
theorem stop_before_start : ¬ ∀ ls, lazyThread.Always RequestKept .init ls := by
  intro h
  have hlast := lazyThread.always_exec
    (h [.run, .create, .setRun, .stop, .clear, .worker 0 .enter]) rfl
  exact absurd (hlast.cleared rfl) (by decide)

end MediasoupClient.Threads
