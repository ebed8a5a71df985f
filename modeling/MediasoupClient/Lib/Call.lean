import MediasoupClient.Lib.Outcome
import Mathlib.Data.Int.Notation
import Mathlib.Tactic.Common

/-! The bodies of member functions, and what is said of the state they leave.

    A body runs statement by statement on the object. It goes on with a value, or it ends early with
    a return code, or an exception leaves it; the object keeps what was done to it so far.

        Spec x s Q R E     x goes on with a value:      Q value state
                           x returns before its end:    R code state
                           x throws:                    E state

    Nothing is said of a body whose behaviour is undefined. The rules below take a body apart from
    its first statement on, so that every state it can be left in is named once. -/

namespace Lib

/-- Why a body ends before its last statement. -/
inductive Stop (ε : Type) where
  | returned (code : ℤ)
  | threw (e : ε)
  | undefined

/-- The body of a member function of an object of type `σ` that can throw an `ε`. -/
abbrev Call (ε σ : Type) := EStateM (Stop ε) σ

namespace Call
variable {ε σ τ α β : Type}

/-- `return code`, in the middle of a body. -/
def giveUp (code : ℤ) : Call ε σ α := throw (.returned code)

/-- Give up with this code unless there is a value. -/
def check (code : ℤ) : Option α → Call ε σ α
  | some a => pure a
  | none => giveUp code

/-- Give up with this code unless the condition holds. -/
def ensure (code : ℤ) (condition : Bool) : Call ε σ Unit :=
  if condition then pure () else giveUp code

/-- Call a member function: its return code is a value, however early it comes. -/
def enter (f : Call ε σ ℤ) : Call ε σ ℤ := fun s =>
  match f s with
  | .error (.returned code) s' => .ok code s'
  | r => r

/-- A body with local variables: `start` sets them up, `finish` drops them. -/
def inside (start : σ → τ) (finish : τ → σ) (f : Call ε τ α) : Call ε σ α := fun s =>
  match f (start s) with
  | .ok a t => .ok a (finish t)
  | .error stop t => .error stop (finish t)

/-- How a member function ends, seen from outside. -/
def outcome (f : Call ε σ ℤ) (s : σ) : Outcome ε σ :=
  match f s with
  | .ok _ s' => .returned s'
  | .error (.returned _) s' => .returned s'
  | .error (.threw e) s' => .threw e s'
  | .error .undefined _ => .undefined

/-- What holds of the way a body has ended. -/
def Holds (Q : α → σ → Prop) (R : ℤ → σ → Prop) (E : σ → Prop) :
    EStateM.Result (Stop ε) σ α → Prop
  | .ok a s' => Q a s'
  | .error (.returned code) s' => R code s'
  | .error (.threw _) s' => E s'
  | .error .undefined _ => True

/-- What holds of the state a body leaves, by how it ends. -/
def Spec (x : Call ε σ α) (s : σ) (Q : α → σ → Prop) (R : ℤ → σ → Prop) (E : σ → Prop) : Prop :=
  Holds Q R E (x s)

variable {s : σ} {Q Q' : α → σ → Prop} {R R' : ℤ → σ → Prop} {E E' : σ → Prop}

theorem spec_mono {x : Call ε σ α} (h : Spec x s Q' R' E') (hQ : ∀ a s', Q' a s' → Q a s')
    (hR : ∀ c s', R' c s' → R c s') (hE : ∀ s', E' s' → E s') : Spec x s Q R E := by
  unfold Spec at h ⊢
  cases hx : x s with
  | ok a s' => rw [hx] at h; exact hQ a s' h
  | error stop s' =>
    rw [hx] at h
    cases stop with
    | returned code => exact hR code s' h
    | threw e => exact hE s' h
    | undefined => trivial

theorem spec_pure {a : α} (h : Q a s) : Spec (pure a : Call ε σ α) s Q R E := h

theorem spec_get {Q : σ → σ → Prop} (h : Q s s) : Spec (get : Call ε σ σ) s Q R E := h

theorem spec_modify {f : σ → σ} {Q : Unit → σ → Prop} (h : Q () (f s)) :
    Spec (modify f : Call ε σ Unit) s Q R E := h

theorem spec_bind {x : Call ε σ α} {f : α → Call ε σ β} {Q : β → σ → Prop}
    (h : Spec x s (fun a s' => Spec (f a) s' Q R E) R E) : Spec (x >>= f) s Q R E := by
  change Holds Q R E (EStateM.bind x f s)
  unfold Spec at h
  unfold EStateM.bind
  cases hx : x s with
  | ok a s' => rw [hx] at h; exact h
  | error stop s' => rw [hx] at h; cases stop <;> exact h

theorem spec_check {code : ℤ} {o : Option α} (hnone : o = none → R code s)
    (hsome : ∀ a, o = some a → Q a s) : Spec (check code o : Call ε σ α) s Q R E := by
  cases o with
  | none => exact hnone rfl
  | some a => exact hsome a rfl

theorem spec_ensure {code : ℤ} {b : Bool} {Q : Unit → σ → Prop} (hno : b = false → R code s)
    (hyes : b = true → Q () s) : Spec (ensure code b : Call ε σ Unit) s Q R E := by
  cases b with
  | false => exact hno rfl
  | true => exact hyes rfl

/-- A member function that is called, by what is known of its own body. -/
theorem spec_enter {f : Call ε σ ℤ} {Q : ℤ → σ → Prop} (h : Spec f s Q Q E) :
    Spec (enter f) s Q R E := by
  unfold Spec at h ⊢
  unfold enter
  cases hf : f s with
  | ok a s' => rw [hf] at h; exact h
  | error stop s' => rw [hf] at h; cases stop <;> exact h

theorem spec_inside {start : σ → τ} {finish : τ → σ} {f : Call ε τ α}
    (h : Spec f (start s) (fun a t => Q a (finish t)) (fun c t => R c (finish t))
      fun t => E (finish t)) : Spec (inside start finish f) s Q R E := by
  unfold Spec at h ⊢
  unfold inside
  cases hf : f (start s) with
  | ok a s' => rw [hf] at h; exact h
  | error stop s' => rw [hf] at h; cases stop <;> exact h

/-- What holds however a member function ends holds of the state it leaves. -/
theorem outcome_rule {f : Call ε σ ℤ} {P : σ → Prop} {s' : σ}
    (h : Spec f s (fun _ => P) (fun _ => P) P) (hs : (f.outcome s).state? = some s') : P s' := by
  unfold Spec at h
  unfold outcome at hs
  cases hf : f s with
  | ok a t => rw [hf] at h hs; cases hs; exact h
  | error stop t =>
    rw [hf] at h hs
    cases stop with
    | undefined => cases hs
    | _ => cases hs; exact h

/-! ### Bodies that go on

When a body goes on with a value, what it goes on with, and the state it leaves. -/

theorem pure_eq_ok {a b : α} {t : σ} :
    (pure a : Call ε σ α) s = .ok b t ↔ b = a ∧ t = s := by
  change EStateM.Result.ok a s = .ok b t ↔ _
  rw [EStateM.Result.ok.injEq, eq_comm, eq_comm (a := s)]

theorem modify_eq_ok {f : σ → σ} {u : Unit} {t : σ} :
    (modify f : Call ε σ Unit) s = .ok u t ↔ t = f s := by
  change EStateM.Result.ok () (f s) = .ok u t ↔ _
  rw [EStateM.Result.ok.injEq, eq_comm (a := f s)]
  exact and_iff_right rfl

theorem get_bind (f : σ → Call ε σ β) : (get >>= f) s = f s s := rfl

theorem modify_bind (g : σ → σ) (f : Unit → Call ε σ β) : (modify g >>= f) s = f () (g s) := rfl

theorem bind_eq_ok {x : Call ε σ α} {f : α → Call ε σ β} {b : β} {t : σ} :
    (x >>= f) s = .ok b t ↔ ∃ a s', x s = .ok a s' ∧ f a s' = .ok b t := by
  change EStateM.bind x f s = .ok b t ↔ _
  unfold EStateM.bind
  cases x s with
  | ok a s' =>
    constructor
    · exact fun h => ⟨a, s', rfl, h⟩
    · rintro ⟨_, _, hx, hf⟩
      cases hx
      exact hf
  | error stop s' => exact iff_of_false (fun h => by cases h) fun ⟨_, _, h, _⟩ => by cases h

theorem bind_ok {x : Call ε σ α} {f : α → Call ε σ β} {a : α} {t : σ} (h : x s = .ok a t) :
    (x >>= f) s = f a t := by
  change EStateM.bind x f s = f a t
  rw [EStateM.bind, h]

theorem bind_error {x : Call ε σ α} {f : α → Call ε σ β} {stop : Stop ε} {t : σ}
    (h : x s = .error stop t) : (x >>= f) s = .error stop t := by
  change EStateM.bind x f s = .error stop t
  rw [EStateM.bind, h]

/-- A loop goes on if every round does, whatever the state. -/
theorem forM_returns {f : α → Call ε σ Unit} {p : α → Prop}
    (h : ∀ a s, (∃ t, f a s = .ok () t) ↔ p a) : ∀ (xs : List α) (s : σ),
    (∃ t, xs.forM f s = .ok () t) ↔ ∀ x ∈ xs, p x
  | [], s => iff_of_true ⟨s, rfl⟩ fun _ hx => absurd hx List.not_mem_nil
  | x :: xs, s => by
    rw [List.forall_mem_cons, ← h x s]
    constructor
    · rintro ⟨t, ht⟩
      obtain ⟨_, s', hx, hxs⟩ := bind_eq_ok.mp ht
      exact ⟨⟨s', hx⟩, (forM_returns h xs s').mp ⟨t, hxs⟩⟩
    · rintro ⟨⟨s', hx⟩, hall⟩
      obtain ⟨t, ht⟩ := (forM_returns h xs s').mpr hall
      exact ⟨t, bind_eq_ok.mpr ⟨(), s', hx, ht⟩⟩

/-- A loop keeps what every round keeps. -/
theorem forM_keeps {f : α → Call ε σ Unit} {g : σ → β}
    (h : ∀ a s t, f a s = .ok () t → g t = g s) : ∀ (xs : List α) {s t : σ},
    xs.forM f s = .ok () t → g t = g s
  | [], _, _, ht => by
    cases ht
    rfl
  | x :: xs, _, _, ht => by
    obtain ⟨_, s', hx, hxs⟩ := bind_eq_ok.mp ht
    exact (forM_keeps h xs hxs).trans (h x _ s' hx)

/-! ### Properties that a body keeps -/

/-- The body keeps `P` and does not return before its end. -/
def Keeps (P : σ → Prop) (x : Call ε σ α) : Prop :=
  ∀ s, P s → Spec x s (fun _ => P) (fun _ _ => False) P

section
variable {P : σ → Prop}

theorem keeps_pure (a : α) : Keeps P (pure a : Call ε σ α) := fun _ hs => hs

theorem keeps_get : Keeps P (get : Call ε σ σ) := fun _ hs => hs

theorem keeps_modify {f : σ → σ} (h : ∀ s, P s → P (f s)) :
    Keeps P (modify f : Call ε σ Unit) := h

theorem keeps_bind {x : Call ε σ α} {f : α → Call ε σ β} (hx : Keeps P x)
    (hf : ∀ a, Keeps P (f a)) : Keeps P (x >>= f) := fun s hs =>
  spec_bind (spec_mono (hx s hs) (fun a s' hs' => hf a s' hs') (fun _ _ h => h) fun _ h => h)

/-- A body that ends with statements that keep `P`. -/
theorem Keeps.spec {x : Call ε σ α} (hx : Keeps P x) (hs : P s) (hQ : ∀ a s', P s' → Q a s')
    (hE : ∀ s', P s' → E s') : Spec x s Q R E :=
  spec_mono (hx s hs) hQ (fun _ _ h => h.elim) hE

/-! ### However a body ends -/

/-- The body keeps `P`, however it ends. -/
def Preserves (P : σ → Prop) (x : Call ε σ α) : Prop :=
  ∀ s, P s → Spec x s (fun _ => P) (fun _ => P) P

theorem Keeps.preserves {x : Call ε σ α} (hx : Keeps P x) : Preserves P x := fun _ hs =>
  hx.spec hs (fun _ _ h => h) fun _ h => h

theorem preserves_bind {x : Call ε σ α} {f : α → Call ε σ β} (hx : Preserves P x)
    (hf : ∀ a, Preserves P (f a)) : Preserves P (x >>= f) := fun s hs =>
  spec_bind (spec_mono (hx s hs) (fun a s' hs' => hf a s' hs') (fun _ _ h => h) fun _ h => h)

theorem preserves_check (code : ℤ) (o : Option α) : Preserves P (check code o : Call ε σ α) :=
  fun _ hs => spec_check (fun _ => hs) fun _ _ => hs

theorem preserves_ensure (code : ℤ) (b : Bool) : Preserves P (ensure code b : Call ε σ Unit) :=
  fun _ hs => spec_ensure (fun _ => hs) fun _ => hs

theorem preserves_enter {f : Call ε σ ℤ} (hf : Preserves P f) : Preserves P (enter f) :=
  fun s hs => spec_enter (hf s hs)

theorem preserves_inside {start : σ → τ} {finish : τ → σ} {f : Call ε τ α}
    (hstart : ∀ s, finish (start s) = s) (hf : Preserves (fun t => P (finish t)) f) :
    Preserves P (inside start finish f) := fun s hs =>
  spec_inside (hf (start s) ((hstart s).symm ▸ hs : P (finish (start s))))

end
end Call
end Lib
