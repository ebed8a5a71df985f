import MediasoupClient.Threads.LazyThread

/-! Whether `Stop` is a barrier.

        round 1   Run ─ worker 0 ─ Stop waits ◀── m_bExit = 1        m_bExit stays 1
        round 2   Run ─ worker 1 ─ Stop returns at once               while worker 1 goes on

    `m_bExit` tells that some worker has exited, and it is never reset. It speaks of the worker that
    was started last as long as the others have exited before, and while it is 0 when the wait
    begins: then the workers are one worker, with the flags to itself. -/

namespace MediasoupClient.Threads
open Lib

/-- Once `Stop` has returned no worker is in `ThreadProc` or will be, and a `Run` after that starts
    one worker. -/
structure Barrier (s : State) : Prop where
  done : s.calls.stopped = true → ∀ w ∈ s.workers, w.Done
  one : s.owner = .idle → s.calls.afterStop = true → s.calls.started = 1

/-- A worker is created only when the earlier ones have exited, and `Stop` begins its wait with
    `m_bExit` set only if no worker has its `ThreadProc` still to do. -/
def ExitFresh (s : State) : Label → Prop
  | .create => ∀ w ∈ s.workers, w = .exited
  | .clear => s.bExit = true → ∀ w ∈ s.workers, w.Done
  | _ => True

instance (s : State) (l : Label) : Decidable (ExitFresh s l) :=
  match l with
  | .create => inferInstanceAs (Decidable (∀ w ∈ s.workers, w = .exited))
  | .clear => inferInstanceAs (Decidable (s.bExit = true → ∀ w ∈ s.workers, w.Done))
  | .run | .noThread | .setRun | .stop | .poll | .worker _ _ => isTrue trivial

/-! ### One worker -/

/-- All workers have exited but one, that is at `c`; or no worker is left, then `c` has exited. -/
def Only (workers : List Worker) (c : Worker) : Prop :=
  ∃ old, (∀ w ∈ old, w = .exited) ∧ (workers = old ++ [c] ∨ workers = old ∧ c = .exited)

theorem Only.of_exited {workers : List Worker} (h : ∀ w ∈ workers, w = .exited) :
    Only workers .exited := ⟨workers, h, Or.inr ⟨rfl, rfl⟩⟩

theorem Only.append {workers : List Worker} (h : ∀ w ∈ workers, w = .exited) (c : Worker) :
    Only (workers ++ [c]) c := ⟨workers, h, Or.inl rfl⟩

theorem Only.done {workers : List Worker} {c : Worker} (h : Only workers c) (hc : c.Done) :
    ∀ w ∈ workers, w.Done := by
  obtain ⟨old, hold, rfl | ⟨rfl, rfl⟩⟩ := h
  · intro w hw
    rcases List.mem_append.mp hw with hw | hw
    · exact Or.inr (Or.inr (hold w hw))
    · rw [List.mem_singleton.mp hw]
      exact hc
  · exact fun w hw => Or.inr (Or.inr (hold w hw))

theorem Only.current_done {workers : List Worker} {c : Worker} (h : Only workers c)
    (hall : ∀ w ∈ workers, w.Done) : c.Done := by
  obtain ⟨old, hold, rfl | ⟨rfl, rfl⟩⟩ := h
  · exact hall c (by simp)
  · exact Or.inr (Or.inr rfl)

/-- A worker that has not exited is the one, and it may go on. -/
theorem Only.get {workers : List Worker} {c w : Worker} {i : ℕ} (h : Only workers c)
    (hget : workers[i]? = some w) (hw : w ≠ .exited) :
    w = c ∧ ∀ w', Only (workers.set i w') w' := by
  obtain ⟨old, hold, rfl | ⟨rfl, rfl⟩⟩ := h
  · rcases Nat.lt_or_ge i old.length with hlt | hge
    · rw [List.getElem?_append_left hlt] at hget
      exact absurd (hold w (List.mem_of_getElem? hget)) hw
    · rw [List.getElem?_append_right hge, List.getElem?_singleton] at hget
      split_ifs at hget with hi
      cases hget
      refine ⟨rfl, fun w' => ⟨old, hold, Or.inl ?_⟩⟩
      rw [List.set_append_right _ _ hge, hi]
      rfl
  · exact absurd (hold w (List.mem_of_getElem? hget)) hw

/-! ### The flags of one worker -/

/-- What the flags tell of the one worker: between the calls a cleared `m_bRun` is its doing, and in
    the wait a set `m_bExit` is. -/
structure Fits (s : State) (c : Worker) : Prop where
  only : Only s.workers c
  idle : s.owner = .idle ∨ s.owner = .clearing → s.bRun = false → c.Done
  creating : s.owner = .creating → s.bRun = false ∧ c.Done ∧ s.calls.started = 0
  setting : s.owner = .setting → s.calls.started = 1
  waiting : s.owner = .waiting →
    (s.bExit = true → c.Done ∧ s.bRun = false) ∧ (c = .cleared → s.bRun = false)
  stopped : s.calls.stopped = true → s.owner = .idle ∧ s.bRun = false ∧ c.Done
  one : s.owner ≠ .creating → s.owner ≠ .setting → s.calls.afterStop = true → s.calls.started = 1

theorem fits_init : Fits .init .exited where
  only := Only.of_exited (by simp [State.init])
  idle _ _ := by decide
  creating h := by cases h
  setting h := by cases h
  waiting h := by cases h
  stopped h := by cases h
  one _ _ h := by cases h

/-- `ThreadProc` is still to do, and `m_bRun` is no less than before. -/
theorem Fits.act_before {s : State} {c c' : Worker} {i : ℕ} {a : Action} (h : Fits s c)
    (honly : Only (s.workers.set i c') c') (hc : ¬ c.Done) (hc' : c' ≠ .cleared)
    (hx : a.bExit s.bExit = s.bExit) (hr : a.bRun s.bRun = false → s.bRun = false) :
    Fits (act s i a c') c' where
  only := honly
  idle ho hclear := absurd (h.idle ho (hr hclear)) hc
  creating ho := absurd (h.creating ho).2.1 hc
  setting ho := h.setting ho
  waiting ho := by
    refine ⟨fun hexit => ?_, fun heq => absurd heq hc'⟩
    exact absurd ((h.waiting ho).1 (hx.symm.trans hexit)).1 hc
  stopped hst := absurd (h.stopped hst).2.2 hc
  one := h.one

/-- The worker takes `m_bRun` back. -/
theorem Fits.act_clear {s : State} {i : ℕ} (h : Fits s .over)
    (honly : Only (s.workers.set i .cleared) .cleared) :
    Fits (act s i .clear .cleared) .cleared where
  only := honly
  idle _ _ := Or.inr (Or.inl rfl)
  creating ho := ⟨rfl, Or.inr (Or.inl rfl), (h.creating ho).2.2⟩
  setting ho := h.setting ho
  waiting _ := ⟨fun _ => ⟨Or.inr (Or.inl rfl), rfl⟩, fun _ => rfl⟩
  stopped hst := ⟨(h.stopped hst).1, rfl, Or.inr (Or.inl rfl)⟩
  one := h.one

/-- The worker tells that it has exited. -/
theorem Fits.act_exit {s : State} {i : ℕ} (h : Fits s .cleared)
    (honly : Only (s.workers.set i .exited) .exited) :
    Fits (act s i .exit .exited) .exited where
  only := honly
  idle _ _ := Or.inr (Or.inr rfl)
  creating ho := ⟨(h.creating ho).1, Or.inr (Or.inr rfl), (h.creating ho).2.2⟩
  setting ho := h.setting ho
  waiting ho := ⟨fun _ => ⟨Or.inr (Or.inr rfl), (h.waiting ho).2 rfl⟩, fun heq => by cases heq⟩
  stopped hst := ⟨(h.stopped hst).1, (h.stopped hst).2.1, Or.inr (Or.inr rfl)⟩
  one := h.one

/-- A worker's step. -/
theorem Fits.act {s : State} {c w w' : Worker} {i : ℕ} {a : Action} (h : Fits s c)
    (hget : s.workers[i]? = some w) (hw : w.step s.bRun a = some w') : Fits (act s i a w') w' := by
  obtain ⟨hdone, -, hcl, hx, hr⟩ | ⟨rfl, rfl, rfl⟩ | ⟨rfl, rfl, rfl⟩ := Worker.step_cases hw
  · obtain ⟨rfl, honly⟩ := h.only.get hget fun heq => hdone (Or.inr (Or.inr heq))
    refine h.act_before (honly w') hdone hcl (hx _) fun hclear => ?_
    obtain heq | ⟨-, heq⟩ := hr
    · exact heq.symm.trans hclear
    · exact absurd (heq.symm.trans hclear) (by decide)
  · obtain ⟨rfl, honly⟩ := h.only.get hget (by decide)
    exact h.act_clear (honly _)
  · obtain ⟨rfl, honly⟩ := h.only.get hget (by decide)
    exact h.act_exit (honly _)

/-- A step that meets the condition keeps it at one worker. -/
theorem fits_step {s s' : State} {l : Label} (h : ∃ c, Fits s c) (hl : ExitFresh s l)
    (hstep : step s l = some s') : ∃ c, Fits s' c := by
  obtain ⟨c, h⟩ := h
  cases steps_of_step hstep with
  | found ho hr =>
    refine ⟨c, h.only, h.idle, fun hc => ?_, fun hc => ?_, fun hc => ?_, fun hst => ?_,
      fun _ _ hafter => ?_⟩
    · cases ho.symm.trans hc
    · cases ho.symm.trans hc
    · cases ho.symm.trans hc
    · cases hst
    · exact absurd (hr.symm.trans (h.stopped hafter).2.1) (by decide)
  | run ho hr =>
    refine ⟨c, h.only, fun hc => ?_, fun _ => ⟨hr, h.idle (Or.inl ho) hr, rfl⟩, fun hc => ?_,
      fun hc => ?_, fun hst => ?_, fun hne => ?_⟩
    · simp at hc
    · cases hc
    · cases hc
    · cases hst
    · exact absurd rfl hne
  | refused ho hr => exact absurd (hr.symm.trans (h.creating ho).1) (by decide)
  | create ho hr =>
    refine ⟨.created, Only.append hl _, fun hc => ?_, fun hc => ?_, fun _ => ?_, fun hc => ?_,
      fun hst => ?_, fun _ hne => ?_⟩
    · simp at hc
    · cases hc
    · simp only [(h.creating ho).2.2]
    · cases hc
    · exact absurd (ho.symm.trans (h.stopped hst).1) (by decide)
    · exact absurd rfl hne
  | noThread ho hr =>
    refine ⟨c, h.only, fun _ _ => (h.creating ho).2.1, fun hc => ?_, fun hc => ?_, fun hc => ?_,
      fun hst => ?_, fun _ _ hafter => ?_⟩
    · cases hc
    · cases hc
    · cases hc
    · exact absurd (ho.symm.trans (h.stopped hst).1) (by decide)
    · cases hafter
  | setRun ho =>
    refine ⟨c, h.only, fun _ hr => ?_, fun hc => ?_, fun hc => ?_, fun hc => ?_, fun hst => ?_,
      fun _ _ _ => h.setting ho⟩
    · cases hr
    · cases hc
    · cases hc
    · cases hc
    · exact absurd (ho.symm.trans (h.stopped hst).1) (by decide)
  | stop ho hr =>
    refine ⟨c, h.only, fun _ hclear => ?_, fun hc => ?_, fun hc => ?_, fun hc => ?_, fun hst => ?_,
      fun _ _ => h.one (by simp [ho]) (by simp [ho])⟩
    · exact absurd (hr.symm.trans hclear) (by decide)
    · cases hc
    · cases hc
    · cases hc
    · exact absurd (hr.symm.trans (h.stopped hst).2.1) (by decide)
  | stopped ho hr =>
    exact ⟨c, h.only, h.idle, h.creating, h.setting, h.waiting,
      fun _ => ⟨ho, hr, h.idle (Or.inl ho) hr⟩, h.one⟩
  | clear ho =>
    refine ⟨c, h.only, fun hc => ?_, fun hc => ?_, fun hc => ?_,
      fun _ => ⟨fun hexit => ⟨h.only.current_done (hl hexit), rfl⟩, fun _ => rfl⟩, fun hst => ?_,
      fun _ _ => h.one (by simp [ho]) (by simp [ho])⟩
    · simp at hc
    · cases hc
    · cases hc
    · exact absurd (ho.symm.trans (h.stopped hst).1) (by decide)
  | wait => exact ⟨c, h⟩
  | leave ho hx =>
    obtain ⟨hdone, hr⟩ := (h.waiting ho).1 hx
    refine ⟨c, h.only, fun _ _ => hdone, fun hc => ?_, fun hc => ?_, fun hc => ?_,
      fun _ => ⟨rfl, hr, hdone⟩, fun _ _ => h.one (by simp [ho]) (by simp [ho])⟩
    · cases hc
    · cases hc
    · cases hc
  | worker hget hw => exact ⟨_, h.act hget hw⟩

theorem Fits.barrier {s : State} {c : Worker} (h : Fits s c) : Barrier s where
  done hst := h.only.done (h.stopped hst).2.2
  one ho := h.one (by simp [ho]) (by simp [ho])

/-- CORRECT: `Stop` is a barrier in every state of a run that creates no worker before the earlier ones
    have exited, and begins no wait with `m_bExit` left over from them. -/
theorem stop_is_barrier {ls : List Label} (h : lazyThread.Along ExitFresh .init ls) :
    lazyThread.Always Barrier .init ls := by
  refine lazyThread.always_of_inv (fun s => ∃ c, Fits s c)
    (fun s l s' hs hl hstep => fits_step hs hl hstep) ?_ ⟨_, fits_init⟩ h
  rintro s ⟨c, hc⟩
  exact hc.barrier

/-! ### Without the condition -/

/-- The one worker, unless it has exited, is the last one. -/
theorem Only.last {workers : List Worker} {c : Worker} (h : Only workers c) (hc : c ≠ .exited) :
    ∃ old, workers = old ++ [c] := by
  obtain ⟨old, -, rfl | ⟨-, rfl⟩⟩ := h
  · exact ⟨old, rfl⟩
  · exact absurd rfl hc

/-- The earlier worker takes the flag of the new one back, and `Stop` does not wait. -/
theorem cleared_by_other {s : State} {old : List Worker} (ho : s.owner = .setting)
    (hw : s.workers = old ++ [.over, .created]) :
    ∃ t, lazyThread.exec s [.setRun, .worker old.length .clear, .stop] = some t ∧ ¬ Barrier t := by
  have hexec : lazyThread.exec s [.setRun, .worker old.length .clear, .stop] =
      some { s with bRun := false, owner := .idle, workers := old ++ [.cleared, .created],
                    calls.stopped := true } := by
    simp [Lts.exec, lazyThread, step, ho, hw, Worker.step, act, Action.bRun, Action.bExit, stop]
  refine ⟨_, hexec, fun hbar => ?_⟩
  exact absurd (hbar.done rfl .created (by simp)) (by decide)

/-- The earlier worker exits while `Stop` waits for the new one. -/
theorem exited_by_other {s : State} {old : List Worker} (ho : s.owner = .setting)
    (hw : s.workers = old ++ [.cleared, .created]) :
    ∃ t, lazyThread.exec s [.setRun, .stop, .clear, .worker old.length .exit, .poll] = some t ∧
      ¬ Barrier t := by
  have hexec : lazyThread.exec s [.setRun, .stop, .clear, .worker old.length .exit, .poll] =
      some { s with bRun := false, bExit := true, owner := .idle,
                    workers := old ++ [.exited, .created],
                    calls := { s.calls with stopped := true, requested := true } } := by
    simp [Lts.exec, lazyThread, step, ho, hw, Worker.step, act, Action.bRun, Action.bExit, stop,
      poll]
  refine ⟨_, hexec, fun hbar => ?_⟩
  exact absurd (hbar.done rfl .created (by simp)) (by decide)

/-- The condition cannot be spared: a run that meets it up to a step that does not can go on to where
    `Stop` has returned too early. -/
theorem barrier_breaks {ls : List Label} {s s' : State} {l : Label}
    (h : lazyThread.Along ExitFresh .init ls) (hexec : lazyThread.exec .init ls = some s)
    (hstep : step s l = some s') (hl : ¬ ExitFresh s l) :
    ∃ ls' t, lazyThread.exec s' ls' = some t ∧ ¬ Barrier t := by
  obtain ⟨c, hfits⟩ := lazyThread.exec_of_along (fun s => ∃ c, Fits s c)
    (fun s l s' hs hl hstep => fits_step hs hl hstep) ls .init s ⟨_, fits_init⟩ h hexec
  cases steps_of_step hstep with
  | found | run | noThread | setRun | stop | stopped | wait | leave | worker =>
    exact absurd trivial hl
  | refused ho hr => exact absurd (hr.symm.trans (hfits.creating ho).1) (by decide)
  | create ho hr =>
    have hc : c ≠ .exited := by
      rintro rfl
      obtain ⟨old, hold, heq | ⟨heq, -⟩⟩ := hfits.only
      · exact hl fun w hw => by
          rw [heq] at hw
          rcases List.mem_append.mp hw with hw | hw
          · exact hold w hw
          · exact List.mem_singleton.mp hw
      · exact hl fun w hw => hold w (heq ▸ hw)
    obtain ⟨old, hold⟩ := hfits.only.last hc
    have hnew : s.workers ++ [.created] = old ++ [c, .created] := by
      rw [hold, List.append_assoc]
      rfl
    obtain rfl | rfl | rfl := (hfits.creating ho).2.1
    · exact ⟨_, cleared_by_other rfl hnew⟩
    · exact ⟨_, exited_by_other rfl hnew⟩
    · exact absurd rfl hc
  | clear ho =>
    obtain ⟨hx, hall⟩ := Classical.not_imp.mp hl
    refine ⟨[.poll], poll { s with owner := .waiting, bRun := false, calls.requested := true },
      rfl, fun hbar => hall ?_⟩
    rw [poll, if_pos hx] at hbar
    exact hbar.done rfl

/-- Two rounds: `Stop` waits for the first worker, and comes after the end of the second. -/
theorem stop_is_barrier_rounds : lazyThread.Always Barrier .init
    [.run, .create, .setRun, .worker 0 .enter, .worker 0 (.start 0), .stop, .clear, .poll,
      .worker 0 .test, .worker 0 .clear, .worker 0 .exit, .poll,
      .run, .create, .worker 1 .enter, .worker 1 (.start 0), .setRun, .worker 1 .finish,
      .worker 1 .clear, .worker 1 .exit, .stop] :=
  stop_is_barrier (by decide)

/-- The second `Stop` returns at once: `m_bExit` is still set from the first round. -/
theorem second_stop_early : ¬ ∀ ls, lazyThread.Always Barrier .init ls := by
  intro h
  have hlast := lazyThread.always_exec
    (h [.run, .create, .setRun, .worker 0 .enter, .worker 0 (.start 0), .stop, .clear,
      .worker 0 .test, .worker 0 .clear, .worker 0 .exit, .poll,
      .run, .create, .setRun, .worker 1 .enter, .worker 1 (.start 0), .stop, .clear, .poll]) rfl
  exact absurd (hlast.done rfl .proc (by decide)) (by decide)

end MediasoupClient.Threads
