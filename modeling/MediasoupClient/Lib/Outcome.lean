import Mathlib.Order.Basic

/-! How a call on an object ends.

    A member function returns, or an exception leaves it, or its behaviour is undefined. The object
    outlives an exception in the state it had when the exception was thrown, so both of the first
    two outcomes carry a state:

        returned s     the call went through
        threw e s      `e` was thrown, the object is left in `s`
        undefined      a precondition of the language or of an assertion was violated -/

namespace Lib

/-- The end of a call on an object of type `σ` that can throw an `ε`. -/
inductive Outcome (ε σ : Type*) where
  | returned (s : σ)
  | threw (e : ε) (s : σ)
  | undefined

namespace Outcome
variable {ε σ τ : Type*}

/-- The state the object is left in, if anything is known about it. -/
def state? : Outcome ε σ → Option σ
  | returned s => some s
  | threw _ s => some s
  | undefined => none

/-- A call on a part of an object, seen as one on the whole. -/
def map (f : σ → τ) : Outcome ε σ → Outcome ε τ
  | returned s => returned (f s)
  | threw e s => threw e (f s)
  | undefined => undefined

/-- `P` holds of the state the object is left in, if anything is known about it. -/
def Leaves (P : σ → Prop) (o : Outcome ε σ) : Prop := ∀ s, o.state? = some s → P s

@[simp] theorem state?_returned (s : σ) : (returned s : Outcome ε σ).state? = some s := rfl

@[simp] theorem state?_threw (e : ε) (s : σ) : (threw e s).state? = some s := rfl

@[simp] theorem state?_undefined : (undefined : Outcome ε σ).state? = none := rfl

theorem state?_map (f : σ → τ) (o : Outcome ε σ) : (o.map f).state? = o.state?.map f := by
  cases o <;> rfl

end Outcome
end Lib
