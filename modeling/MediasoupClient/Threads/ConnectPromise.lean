import MediasoupClient.Threads.WSPPClient

/-! Who sets the promise of a connection, and when.

        connect_sync     connecting ──new──▶ waiting ──get──▶ returning ──delete──▶ idle
        promise_         stale               live, no value   live, a value         stale
        a callback       lost or misused     completes it     set twice             misused

    Only a callback that comes while the `connect_sync` of its attempt waits, and alone, does what it
    should: at any other time `promise_` is not null, but it is not the promise to set. -/

namespace MediasoupClient.Threads.WSPPClient
open Lib

/-- The attempt of the `connect_sync` that is under way. -/
def Client.attempt : Client → Option ℕ
  | .idle => none
  | .connecting a => some a
  | .waiting a _ => some a
  | .returning a _ _ => some a

/-- What the `connect_sync` that is under way is completed with. -/
def State.result (s : State) : Option ℤ :=
  match s.client with
  | .waiting _ n => (s.promises[n]?).bind fun p => p.value
  | .returning _ _ ret => some ret
  | _ => none

/-- Every `set_value` has completed the promise that was made for the callback's attempt, and the
    `connect_sync` under way has the result that a callback of its attempt has told. -/
structure Kept (s : State) : Prop where
  sets : ∀ c ∈ s.callbacks, ∀ f, c.phase = .done f → f = .skipped ∨
    ∃ n, ∃ p : Promise, f = .completed n ∧ s.promises[n]? = some p ∧ p.attempt = c.attempt
  completes : ∀ c ∈ s.callbacks, ∀ f, c.phase = .done f → s.client.attempt = some c.attempt →
    s.result = some c.event.value

/-- The attempt whose `connect_sync` waits for its promise to be set. -/
def State.awaits (s : State) : Option ℕ :=
  match s.client with
  | .waiting a n => if ((s.promises[n]?).bind fun p => p.value) = none then some a else none
  | _ => none

/-- A callback looks at `promise_` while the `connect_sync` of its attempt waits for a value, and no
    other callback has looked and not set it yet; or it belongs to no `connect_sync` under way, and
    `promise_` is null. -/
def InTime (s : State) : Label → Prop
  | .test i => ∀ c ∈ s.callbacks[i]?,
    (s.promise = .null ∧ s.client.attempt ≠ some c.attempt) ∨
    (s.awaits = some c.attempt ∧ ∀ c' ∈ s.callbacks, c'.phase ≠ .tested)
  | _ => True

instance (s : State) (l : Label) : Decidable (InTime s l) :=
  match l with
  | .test i =>
    inferInstanceAs (Decidable (∀ c ∈ s.callbacks[i]?,
      (s.promise = .null ∧ s.client.attempt ≠ some c.attempt) ∨
      (s.awaits = some c.attempt ∧ ∀ c' ∈ s.callbacks, c'.phase ≠ .tested)))
  | .connect | .connectSync | .refused | .newPromise | .get | .delete | .fire _ _ | .set _ =>
    isTrue trivial

/-! ### The promise under way -/

/-- The promise that the caller has made and not deleted yet, and its attempt. -/
def Client.holds : Client → Option (ℕ × ℕ)
  | .waiting a n => some (a, n)
  | .returning a n _ => some (a, n)
  | _ => none

/-- What holds as long as all callbacks come in time: the live promise is the caller's, `promise_`
    points at it, and at most one callback is about to set it. -/
structure Orderly (s : State) : Prop where
  started : ∀ c ∈ s.callbacks, c.attempt < s.attempts
  live : ∀ (n : ℕ) (p : Promise), s.promises[n]? = some p → p.live = true →
    s.client.holds = some (p.attempt, n)
  owned : ∀ a n, s.client.holds = some (a, n) → s.promise = .to n ∧
    ∃ p : Promise, s.promises[n]? = some p ∧ p.attempt = a ∧ p.live = true
  got : ∀ a n v, s.client = .returning a n v →
    ∃ p : Promise, s.promises[n]? = some p ∧ p.value = some v
  tested : ∀ (i : ℕ) (c : Callback), s.callbacks[i]? = some c → c.phase = .tested →
    s.awaits = some c.attempt
  alone : ∀ (i j : ℕ) (c c' : Callback), s.callbacks[i]? = some c → c.phase = .tested →
    s.callbacks[j]? = some c' → c'.phase = .tested → i = j
  kept : Kept s

theorem orderly_init (null : Bool) : Orderly (.init null) where
  started c hc := by simp [State.init] at hc
  live n p hp := by simp [State.init] at hp
  owned a n h := by cases h
  got a n v h := by cases h
  tested i c hc := by simp [State.init] at hc
  alone i j c c' hc := by simp [State.init] at hc
  kept := ⟨fun c hc => by simp [State.init] at hc, fun c hc => by simp [State.init] at hc⟩

theorem awaits_eq_some {s : State} {a : ℕ} (h : s.awaits = some a) :
    ∃ n, s.client = .waiting a n ∧ ((s.promises[n]?).bind fun p => p.value) = none := by
  unfold State.awaits at h
  split at h
  · rename_i a' n hc
    rw [Option.ite_none_right_eq_some, Option.some.injEq] at h
    obtain ⟨hnone, rfl⟩ := h
    exact ⟨n, hc, hnone⟩
  · cases h

/-- Where no one waits, no callback is about to set the promise. -/
theorem Orderly.untested {s : State} (h : Orderly s) (hnone : s.awaits = none) :
    ∀ c ∈ s.callbacks, c.phase ≠ .tested := by
  intro c hc htested
  obtain ⟨i, hi⟩ := List.mem_iff_getElem?.mp hc
  exact absurd ((h.tested i c hi htested).symm.trans hnone) (by simp)

/-- A callback that may set the promise completes it. -/
theorem Orderly.finish_eq {s : State} (h : Orderly s) {a : ℕ} (ha : s.awaits = some a) :
    ∃ n, ∃ p : Promise, s.client = .waiting a n ∧ s.promises[n]? = some p ∧ p.attempt = a ∧
      p.value = none ∧ finish s = .completed n := by
  obtain ⟨n, hc, hnone⟩ := awaits_eq_some ha
  obtain ⟨hto, p, hp, hattempt, hlive⟩ := h.owned a n (by rw [hc]; rfl)
  rw [hp, Option.bind_some] at hnone
  refine ⟨n, p, hc, hp, hattempt, hnone, ?_⟩
  simp only [finish, hto, hp, hlive, hnone, Option.isSome_none, if_true, Bool.false_eq_true, if_false]

/-- Promises keep their attempts. -/
def SameAttempts (ps ps' : List Promise) : Prop :=
  ∀ (n : ℕ) (p : Promise), ps[n]? = some p → ∃ p' : Promise, ps'[n]? = some p' ∧ p'.attempt = p.attempt

theorem sameAttempts_modify {f : Promise → Promise} (hf : ∀ p, (f p).attempt = p.attempt)
    (ps : List Promise) (n : ℕ) : SameAttempts ps (ps.modify n f) := by
  intro m p hp
  rw [List.getElem?_modify, hp]
  refine ⟨_, rfl, ?_⟩
  split_ifs
  · exact hf p
  · rfl

theorem sameAttempts_append (ps qs : List Promise) : SameAttempts ps (ps ++ qs) := by
  intro n p hp
  have hlt : n < ps.length := (List.getElem?_eq_some_iff.mp hp).1
  exact ⟨p, by rw [List.getElem?_append_left hlt, hp], rfl⟩

theorem setValue_completed {s : State} {n : ℕ} (hf : finish s = .completed n) (v : ℤ) :
    setValue s v = s.promises.modify n fun p => { p with value := some v } := by
  simp only [setValue, hf]

theorem getElem?_setValue {s : State} {n : ℕ} {p : Promise} (hf : finish s = .completed n)
    (hp : s.promises[n]? = some p) (v : ℤ) :
    (setValue s v)[n]? = some { p with value := some v } := by
  rw [setValue_completed hf, List.getElem?_modify, hp]
  simp

/-- What the callbacks have set stays what it was. -/
theorem Kept.sets_of {s : State} (h : Kept s) {ps : List Promise}
    (hps : SameAttempts s.promises ps) :
    ∀ c ∈ s.callbacks, ∀ f, c.phase = .done f → f = .skipped ∨
      ∃ n, ∃ p : Promise, f = .completed n ∧ ps[n]? = some p ∧ p.attempt = c.attempt := by
  intro c hc f hf
  obtain hskip | ⟨n, p, hn, hp, ha⟩ := h.sets c hc f hf
  · exact Or.inl hskip
  · obtain ⟨p', hp', ha'⟩ := hps n p hp
    exact Or.inr ⟨n, p', hn, hp', ha'.trans ha⟩

/-! ### Steps of the caller -/

section
variable {s : State} (h : Orderly s)
include h

theorem Orderly.connect : Orderly { s with attempts := s.attempts + 1 } where
  started c hmem := Nat.lt_succ_of_lt (h.started c hmem)
  live := h.live
  owned := h.owned
  got := h.got
  tested := h.tested
  alone := h.alone
  kept := ⟨h.kept.sets, h.kept.completes⟩

theorem Orderly.connectSync (hc : s.client = .idle) :
    Orderly { s with attempts := s.attempts + 1, client := .connecting s.attempts } := by
  have huntested := h.untested (by rw [State.awaits, hc])
  refine ⟨fun c hmem => Nat.lt_succ_of_lt (h.started c hmem), fun n p hp hlive => ?_,
    fun a n hn => ?_, fun a n v hn => ?_, fun i c hi ht => ?_, h.alone, h.kept.sets,
    fun c hmem f hf ha => ?_⟩
  · exact absurd (h.live n p hp hlive) (by simp [hc, Client.holds])
  · cases hn
  · cases hn
  · exact absurd ht (huntested c (List.mem_of_getElem? hi))
  · have hlt := h.started c hmem
    have heq : s.attempts = c.attempt := Option.some.inj ha
    omega

theorem Orderly.newPromise {a : ℕ} (hc : s.client = .connecting a) :
    Orderly { s with promise := .to s.promises.length, promises := s.promises ++ [⟨a, none, true⟩],
                     client := .waiting a s.promises.length } := by
  have huntested := h.untested (by rw [State.awaits, hc])
  refine ⟨h.started, fun n p hp hlive => ?_, fun a' n hn => ?_, fun a' n v hn => ?_,
    fun i c hi ht => ?_, h.alone, h.kept.sets_of (sameAttempts_append _ _),
    fun c hmem f hf ha => ?_⟩
  · rcases Nat.lt_or_ge n s.promises.length with hlt | hge
    · rw [List.getElem?_append_left hlt] at hp
      exact absurd (h.live n p hp hlive) (by simp [hc, Client.holds])
    · rw [List.getElem?_append_right hge, List.getElem?_singleton] at hp
      split_ifs at hp with hn
      cases hp
      have heq : n = s.promises.length := by omega
      rw [heq]
      rfl
  · cases hn
    exact ⟨rfl, _, List.getElem?_concat_length, rfl, rfl⟩
  · cases hn
  · exact absurd ht (huntested c (List.mem_of_getElem? hi))
  · have hnone := h.kept.completes c hmem f hf (by rw [hc]; exact ha)
    rw [State.result, hc] at hnone
    cases hnone

theorem Orderly.get {a n : ℕ} {p : Promise} {v : ℤ} (hc : s.client = .waiting a n)
    (hp : s.promises[n]? = some p) (hv : p.value = some v) :
    Orderly { s with client := .returning a n v } := by
  have huntested := h.untested (by simp [State.awaits, hc, hp, hv])
  refine ⟨h.started, fun m q hq hlive => ?_, fun a' m hm => ?_, fun a' m v' hm => ?_,
    fun i c hi ht => ?_, h.alone, h.kept.sets, fun c hmem f hf ha => ?_⟩
  · have hholds := h.live m q hq hlive
    rw [hc] at hholds
    exact hholds
  · exact h.owned a' m (by rw [hc]; exact hm)
  · cases hm
    exact ⟨p, hp, hv⟩
  · exact absurd ht (huntested c (List.mem_of_getElem? hi))
  · have hresult := h.kept.completes c hmem f hf (by rw [hc]; exact ha)
    simp only [State.result, hc, hp, Option.bind_some, hv] at hresult
    exact hresult

theorem Orderly.delete {a n : ℕ} {v : ℤ} (hc : s.client = .returning a n v) :
    Orderly { s with promises := deletePromise s, client := .idle } := by
  have huntested := h.untested (by rw [State.awaits, hc])
  obtain ⟨hto, -⟩ := h.owned a n (by rw [hc]; rfl)
  have hdelete : deletePromise s = s.promises.modify n fun p => { p with live := false } := by
    simp only [deletePromise, hto]
  rw [hdelete]
  refine ⟨h.started, fun m q hq hlive => ?_, fun a' m hm => ?_, fun a' m v' hm => ?_,
    fun i c hi ht => ?_, h.alone, h.kept.sets_of (sameAttempts_modify (fun _ => by rfl) _ _),
    fun c hmem f hf ha => ?_⟩
  · -- no other promise was live
    rw [List.getElem?_modify, Option.map_eq_map, Option.map_eq_some_iff] at hq
    obtain ⟨p, hp, rfl⟩ := hq
    split_ifs at hlive with hm
    have hholds := h.live m p hp hlive
    rw [hc] at hholds
    cases hholds
    exact absurd rfl hm
  · cases hm
  · cases hm
  · exact absurd ht (huntested c (List.mem_of_getElem? hi))
  · cases ha

/-! ### Steps of the network -/

theorem Orderly.fire {a : ℕ} {e : Event} (ha : a < s.attempts) :
    Orderly { s with callbacks := s.callbacks ++ [⟨a, e, .entered⟩] } := by
  have hold : ∀ (i : ℕ) (c : Callback), (s.callbacks ++ [⟨a, e, .entered⟩])[i]? = some c →
      c.phase = .tested → s.callbacks[i]? = some c := by
    intro i c hi ht
    rcases Nat.lt_or_ge i s.callbacks.length with hlt | hge
    · rwa [List.getElem?_append_left hlt] at hi
    · rw [List.getElem?_append_right hge, List.getElem?_singleton] at hi
      split_ifs at hi
      cases hi
      cases ht
  have hdone : ∀ c ∈ s.callbacks ++ [⟨a, e, .entered⟩], ∀ f, c.phase = .done f → c ∈ s.callbacks := by
    intro c hmem f hf
    rcases List.mem_append.mp hmem with hmem | hmem
    · exact hmem
    · rw [List.mem_singleton.mp hmem] at hf
      cases hf
  refine ⟨fun c hmem => ?_, h.live, h.owned, h.got, fun i c hi ht => h.tested i c (hold i c hi ht) ht,
    fun i j c c' hi ht hj ht' => h.alone i j c c' (hold i c hi ht) ht (hold j c' hj ht') ht',
    fun c hmem f hf => h.kept.sets c (hdone c hmem f hf) f hf,
    fun c hmem f hf => h.kept.completes c (hdone c hmem f hf) f hf⟩
  rcases List.mem_append.mp hmem with hmem | hmem
  · exact h.started c hmem
  · rw [List.mem_singleton.mp hmem]
    exact ha

/-- A callback of a marked list is an old one or the marked one. -/
theorem Orderly.started_mark {i : ℕ} {c : Callback} (hget : s.callbacks[i]? = some c)
    (phase : Phase) : ∀ c' ∈ mark s i c phase, c'.attempt < s.attempts := by
  intro c' hmem
  rcases List.mem_or_eq_of_mem_set hmem with hmem | rfl
  · exact h.started c' hmem
  · exact h.started c (List.mem_of_getElem? hget)

omit h in
theorem get_mark {i j : ℕ} {c c' : Callback} {phase : Phase}
    (hget : (mark s i c phase)[j]? = some c') :
    (j ≠ i ∧ s.callbacks[j]? = some c') ∨ (j = i ∧ c' = { c with phase := phase }) := by
  unfold mark at hget
  rw [List.getElem?_set] at hget
  split_ifs at hget with hij hlt
  · cases hget
    exact Or.inr ⟨hij.symm, rfl⟩
  · exact Or.inl ⟨Ne.symm hij, hget⟩

theorem Orderly.skip {i : ℕ} {c : Callback} (hget : s.callbacks[i]? = some c)
    (hp : s.promise = .null) (hl : InTime s (.test i)) :
    Orderly { s with callbacks := mark s i c (.done .skipped) } := by
  have hother : s.client.attempt ≠ some c.attempt := by
    obtain ⟨-, hne⟩ | ⟨hawaits, -⟩ := hl c hget
    · exact hne
    · obtain ⟨n, hc, -⟩ := awaits_eq_some hawaits
      obtain ⟨hto, -⟩ := h.owned c.attempt n (by rw [hc]; rfl)
      exact absurd (hp.symm.trans hto) (by simp)
  refine ⟨h.started_mark hget _, h.live, h.owned, h.got, fun j c' hj ht => ?_,
    fun j k c₁ c₂ hj ht hk ht' => ?_, fun c' hmem f hf => ?_, fun c' hmem f hf ha => ?_⟩
  · obtain ⟨-, hj⟩ | ⟨-, rfl⟩ := get_mark hj
    · exact h.tested j c' hj ht
    · cases ht
  · obtain ⟨-, hj⟩ | ⟨-, rfl⟩ := get_mark hj
    · obtain ⟨-, hk⟩ | ⟨-, rfl⟩ := get_mark hk
      · exact h.alone j k c₁ c₂ hj ht hk ht'
      · cases ht'
    · cases ht
  · rcases List.mem_or_eq_of_mem_set hmem with hmem | rfl
    · exact h.kept.sets c' hmem f hf
    · cases hf
      exact Or.inl rfl
  · rcases List.mem_or_eq_of_mem_set hmem with hmem | rfl
    · exact h.kept.completes c' hmem f hf ha
    · exact absurd ha hother

theorem Orderly.test {i : ℕ} {c : Callback} (hget : s.callbacks[i]? = some c)
    (hp : s.promise ≠ .null) (hl : InTime s (.test i)) :
    Orderly { s with callbacks := mark s i c .tested } := by
  obtain ⟨hnull, -⟩ | ⟨hawaits, huntested⟩ := hl c hget
  · exact absurd hnull hp
  have honly : ∀ (j : ℕ) (c' : Callback), (mark s i c .tested)[j]? = some c' → c'.phase = .tested →
      j = i ∧ c'.attempt = c.attempt := by
    intro j c' hj ht
    obtain ⟨-, hj⟩ | ⟨hji, rfl⟩ := get_mark hj
    · exact absurd ht (huntested c' (List.mem_of_getElem? hj))
    · exact ⟨hji, rfl⟩
  refine ⟨h.started_mark hget _, h.live, h.owned, h.got, fun j c' hj ht => ?_,
    fun j k c₁ c₂ hj ht hk ht' => ?_, fun c' hmem f hf => ?_, fun c' hmem f hf ha => ?_⟩
  · exact hawaits.trans (congrArg some (honly j c' hj ht).2.symm)
  · exact (honly j c₁ hj ht).1.trans (honly k c₂ hk ht').1.symm
  · rcases List.mem_or_eq_of_mem_set hmem with hmem | rfl
    · exact h.kept.sets c' hmem f hf
    · cases hf
  · rcases List.mem_or_eq_of_mem_set hmem with hmem | rfl
    · exact h.kept.completes c' hmem f hf ha
    · cases hf

theorem Orderly.set {i : ℕ} {c : Callback} (hget : s.callbacks[i]? = some c)
    (ht : c.phase = .tested) :
    Orderly { s with promises := setValue s c.event.value,
                     callbacks := mark s i c (.done (finish s)) } := by
  obtain ⟨n, p, hc, hp, hattempt, hnone, hfinish⟩ := h.finish_eq (h.tested i c hget ht)
  have hset := setValue_completed hfinish c.event.value
  have hvalue := getElem?_setValue hfinish hp c.event.value
  have hsame : SameAttempts s.promises (setValue s c.event.value) := by
    rw [hset]
    exact sameAttempts_modify (fun _ => by rfl) _ _
  have huntested : ∀ (j : ℕ) (c' : Callback), (mark s i c (.done (finish s)))[j]? = some c' →
      c'.phase ≠ .tested := by
    intro j c' hj ht'
    obtain ⟨hne, hj⟩ | ⟨-, rfl⟩ := get_mark hj
    · exact hne (h.alone j i c' c hj ht' hget ht)
    · cases ht'
  refine ⟨h.started_mark hget _, fun m q hq hlive => ?_, fun a m hm => ?_,
    fun a m v hm => absurd (hc.symm.trans hm) (by simp),
    fun j c' hj ht' => absurd ht' (huntested j c' hj),
    fun j k c₁ c₂ hj ht' => absurd ht' (huntested j c₁ hj), fun c' hmem f hf => ?_,
    fun c' hmem f hf ha => ?_⟩
  · -- a promise is as live as it was
    rw [hset, List.getElem?_modify, Option.map_eq_map, Option.map_eq_some_iff] at hq
    obtain ⟨q', hq', rfl⟩ := hq
    split_ifs at hlive ⊢
    · exact h.live m q' hq' hlive
    · exact h.live m q' hq' hlive
  · obtain ⟨hto, q, hq, ha, hlive⟩ := h.owned a m hm
    rw [hc] at hm
    cases hm
    cases hp.symm.trans hq
    exact ⟨hto, _, hvalue, ha, hlive⟩
  · rcases List.mem_or_eq_of_mem_set hmem with hmem | rfl
    · exact h.kept.sets_of hsame c' hmem f hf
    · cases hf
      exact Or.inr ⟨n, _, hfinish, hvalue, hattempt⟩
  · have hresult : State.result { s with
        promises := setValue s c.event.value,
        callbacks := mark s i c (.done (finish s)) } = some c.event.value := by
      simp only [State.result, hc, hvalue, Option.bind_some]
    rcases List.mem_or_eq_of_mem_set hmem with hmem | rfl
    · -- an earlier callback of the attempt would have set the value
      have hbefore := h.kept.completes c' hmem f hf ha
      simp only [State.result, hc, hp, Option.bind_some, hnone, reduceCtorEq] at hbefore
    · exact hresult

end

/-! ### Runs -/

/-- A step in time keeps the order. -/
theorem orderly_step {s s' : State} {l : Label} (h : Orderly s) (hl : InTime s l)
    (hstep : step s l = some s') : Orderly s' := by
  cases steps_of_step hstep with
  | connect => exact h.connect
  | connectSync hc => exact h.connectSync hc
  | refused => exact h
  | newPromise hc => exact h.newPromise hc
  | get hc hp hv => exact h.get hc hp hv
  | delete hc => exact h.delete hc
  | fire ha => exact h.fire ha
  | skip hget hc hp => exact h.skip hget hp hl
  | test hget hc hp => exact h.test hget hp hl
  | set hget hc => exact h.set hget hc

/-- CORRECT: the promise is kept in every state of a run whose callbacks look at `promise_` in time. -/
theorem promise_kept (null : Bool) {ls : List Label}
    (h : wsppClient.Along InTime (.init null) ls) : wsppClient.Always Kept (.init null) ls :=
  wsppClient.always_of_inv Orderly (fun _ _ _ hs hl hstep => orderly_step hs hl hstep)
    (fun _ hs => hs.kept) (orderly_init null) h

/-! ### Without the condition -/

theorem finish_ne_skipped (s : State) : finish s ≠ .skipped := by
  unfold finish
  split
  · split
    · split_ifs <;> simp
    · simp
  · simp
  · simp

/-- What `finish` needs to complete a promise. -/
theorem finish_completed {s : State} {n : ℕ} (h : finish s = .completed n) :
    s.promise = .to n ∧
      ∃ p : Promise, s.promises[n]? = some p ∧ p.live = true ∧ p.value = none := by
  unfold finish at h
  split at h
  · rename_i m hto
    split at h
    · rename_i p hp
      split_ifs at h with hlive hvalue
      cases h
      exact ⟨hto, p, hp, hlive, Option.not_isSome_iff_eq_none.mp hvalue⟩
    · cases h
  · cases h
  · cases h

theorem step_set {s : State} {i : ℕ} {c : Callback} (hget : s.callbacks[i]? = some c)
    (ht : c.phase = .tested) :
    wsppClient.step s (.set i) = some { s with
      promises := setValue s c.event.value, callbacks := mark s i c (.done (finish s)) } := by
  simp only [wsppClient, step, hget, Option.bind_some, ht, if_true]

theorem mem_mark {s : State} {i : ℕ} {c : Callback} (hget : s.callbacks[i]? = some c)
    (phase : Phase) : { c with phase := phase } ∈ mark s i c phase := by
  have hlt : i < s.callbacks.length := (List.getElem?_eq_some_iff.mp hget).1
  exact List.mem_of_getElem? (List.getElem?_set_self hlt)

/-- `set_value` on anything but a live promise without a value. -/
theorem set_misused {s : State} {i : ℕ} {c : Callback} (hget : s.callbacks[i]? = some c)
    (ht : c.phase = .tested) (hf : ∀ n, finish s ≠ .completed n) :
    ∃ t, wsppClient.exec s [.set i] = some t ∧ ¬ Kept t := by
  refine ⟨_, wsppClient.exec_cons (step_set hget ht) [], fun hkept => ?_⟩
  obtain hskip | ⟨n, -, hn, -⟩ := hkept.sets _ (mem_mark hget _) (finish s) rfl
  · exact finish_ne_skipped s hskip
  · exact hf n hn

/-- `set_value` on the promise of another attempt. -/
theorem set_stray {s : State} {i n : ℕ} {c : Callback} {p : Promise}
    (hget : s.callbacks[i]? = some c) (ht : c.phase = .tested) (hf : finish s = .completed n)
    (hp : s.promises[n]? = some p) (hne : p.attempt ≠ c.attempt) :
    ∃ t, wsppClient.exec s [.set i] = some t ∧ ¬ Kept t := by
  refine ⟨_, wsppClient.exec_cons (step_set hget ht) [], fun hkept => ?_⟩
  obtain hskip | ⟨m, q, hm, hq, hattempt⟩ := hkept.sets _ (mem_mark hget _) (finish s) rfl
  · exact finish_ne_skipped s hskip
  · cases hf.symm.trans hm
    cases (getElem?_setValue hf hp c.event.value).symm.trans hq
    exact hne hattempt

/-- The second of two callbacks finds a value. -/
theorem set_twice {s : State} {i j n : ℕ} {c c' : Callback} (hij : j ≠ i)
    (hget : s.callbacks[i]? = some c) (ht : c.phase = .tested) (hget' : s.callbacks[j]? = some c')
    (ht' : c'.phase = .tested) (hf : finish s = .completed n) :
    ∃ t, wsppClient.exec s [.set j, .set i] = some t ∧ ¬ Kept t := by
  obtain ⟨hto, p, hp, hlive, -⟩ := finish_completed hf
  rw [wsppClient.exec_cons (step_set hget' ht')]
  refine set_misused ?_ ht fun m => ?_
  · rw [← hget]
    exact List.getElem?_set_ne hij
  · have hset := getElem?_setValue hf hp c'.event.value
    simp [finish, hto, hset, hlive]

/-- The condition cannot be spared: after a callback that does not come in time a run can go on to
    where the promise is not kept. -/
theorem promise_lost {null : Bool} {ls : List Label} {s s' : State} {l : Label}
    (h : wsppClient.Along InTime (.init null) ls) (hexec : wsppClient.exec (.init null) ls = some s)
    (hstep : step s l = some s') (hl : ¬ InTime s l) :
    ∃ ls' t, wsppClient.exec s' ls' = some t ∧ ¬ Kept t := by
  have hs : Orderly s := wsppClient.exec_of_along Orderly
    (fun s l s' hs hl hstep => orderly_step hs hl hstep) ls _ s (orderly_init null) h hexec
  cases steps_of_step hstep with
  | connect | connectSync | refused | newPromise | get | delete | fire | set =>
    exact absurd trivial hl
  | @skip i c hget hc hp =>
    -- its `connect_sync` is under way, and will not hear of it
    have hcurrent : s.client.attempt = some c.attempt := by
      by_contra hne
      exact hl fun c' hc' => by
        cases hget.symm.trans hc'
        exact Or.inl ⟨hp, hne⟩
    refine ⟨[], _, rfl, fun hkept => ?_⟩
    have hresult := hkept.completes _ (mem_mark hget _) _ rfl hcurrent
    cases hclient : s.client with
    | idle | connecting => simp [State.result, hclient] at hresult
    | waiting a n | returning a n =>
      obtain ⟨hto, -⟩ := hs.owned a n (by rw [hclient]; rfl)
      exact absurd (hp.symm.trans hto) (by simp)
  | @test i c hget hc hp =>
    have hmark : (mark s i c .tested)[i]? = some { c with phase := .tested } :=
      List.getElem?_set_self (List.getElem?_eq_some_iff.mp hget).1
    by_cases hf : ∃ n, finish s = .completed n
    · obtain ⟨n, hf⟩ := hf
      obtain ⟨hto, p, hpn, hlive, hvalue⟩ := finish_completed hf
      by_cases hattempt : p.attempt = c.attempt
      · -- another callback of the attempt is about to set it
        have hclient : s.client = .waiting p.attempt n := by
          have hholds := hs.live n p hpn hlive
          cases hclient : s.client with
          | idle | connecting => simp [hclient, Client.holds] at hholds
          | waiting a m =>
            rw [hclient] at hholds
            cases hholds
            rfl
          | returning a m v =>
            rw [hclient] at hholds
            cases hholds
            obtain ⟨q, hq, hv⟩ := hs.got _ _ _ hclient
            cases hpn.symm.trans hq
            exact absurd (hvalue.symm.trans hv) (by simp)
        have hawaits : s.awaits = some c.attempt := by
          simp [State.awaits, hclient, hpn, hvalue, hattempt]
        obtain ⟨c', hmem, ht'⟩ : ∃ c' ∈ s.callbacks, c'.phase = .tested := by
          by_contra hnone
          exact hl fun c₁ hc₁ => by
            cases hget.symm.trans hc₁
            exact Or.inr ⟨hawaits, fun c' hmem ht' => hnone ⟨c', hmem, ht'⟩⟩
        obtain ⟨j, hj⟩ := List.mem_iff_getElem?.mp hmem
        have hji : j ≠ i := by
          rintro rfl
          cases hget.symm.trans hj
          exact absurd (hc.symm.trans ht') (by simp)
        have hj' : (mark s i c .tested)[j]? = some c' := by
          rw [← hj]
          exact List.getElem?_set_ne hji.symm
        exact ⟨_, set_twice hji hmark rfl hj' ht' hf⟩
      · exact ⟨_, set_stray hmark rfl hf hpn hattempt⟩
    · exact ⟨_, set_misused hmark rfl fun n hn => hf ⟨n, hn⟩⟩

/-- Two connections, one after the other: the second one fails. -/
theorem promise_kept_twice : wsppClient.Always Kept (.init true)
    [.connect, .fire 0 .onOpen, .test 0, .connectSync, .newPromise, .fire 1 .onOpen, .test 1, .set 1,
      .get, .delete, .connectSync, .newPromise, .fire 2 (.onFail 111), .test 2, .set 2, .get,
      .delete] :=
  promise_kept true (by decide)

/-- `on_open` of the second connection comes before its promise is made: it sets the first one's, which
    is deleted. -/
theorem early_open_on_deleted : ¬ ∀ null ls, wsppClient.Always Kept (.init null) ls := by
  intro h
  have hlast := wsppClient.always_exec (h true
    [.connectSync, .newPromise, .fire 0 .onOpen, .test 0, .set 0, .get, .delete,
      .connectSync, .fire 1 .onOpen, .test 1, .set 1]) rfl
  obtain hskip | ⟨n, p, hn, -⟩ := hlast.sets ⟨1, .onOpen, .done .deleted⟩ (by decide) _ rfl
  · cases hskip
  · cases hn

end MediasoupClient.Threads.WSPPClient
