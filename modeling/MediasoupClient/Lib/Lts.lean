import Mathlib.Order.Basic

/-! Labelled transition systems with a deterministic step.

    Nondeterminism is in the labels: a run is a list of labels, and every interleaving of several
    parties is one such list. A label that is not enabled ends the run, so what is said of a run is
    said of the steps it takes.

    `Always G s ls`: `G` holds in every state the run `ls` from `s` visits.
    `Along P s ls`: `P` holds of every step it takes.

    `always_iff_along` turns a one-step equivalence into one about whole runs: if, from a good
    state, a step ends in a good state exactly when it meets the guard, then a run stays good
    exactly when all its steps meet the guard. -/

namespace Lib

/-- A transition system: `step s l = none` when `l` is not enabled in `s`. -/
structure Lts (σ α : Type*) where
  step : σ → α → Option σ

namespace Lts
variable {σ α : Type*} (T : Lts σ α)

/-- The state a run ends in. -/
def exec : σ → List α → Option σ
  | s, [] => some s
  | s, l :: ls =>
    match T.step s l with
    | none => none
    | some s' => exec s' ls

/-- `G` holds in every state of the run. -/
def Always (G : σ → Prop) : σ → List α → Prop
  | s, [] => G s
  | s, l :: ls => G s ∧
    match T.step s l with
    | none => True
    | some s' => Always G s' ls

/-- `P` holds of every step of the run. -/
def Along (P : σ → α → Prop) : σ → List α → Prop
  | _, [] => True
  | s, l :: ls =>
    match T.step s l with
    | none => True
    | some s' => P s l ∧ Along P s' ls

theorem exec_cons {s s' : σ} {l : α} (h : T.step s l = some s') (ls : List α) :
    T.exec s (l :: ls) = T.exec s' ls := by rw [exec, h]

theorem always_cons {G : σ → Prop} {s s' : σ} {l : α} (h : T.step s l = some s') (ls : List α) :
    T.Always G s (l :: ls) ↔ G s ∧ T.Always G s' ls := by rw [Always, h]

theorem along_cons {P : σ → α → Prop} {s s' : σ} {l : α} (h : T.step s l = some s') (ls : List α) :
    T.Along P s (l :: ls) ↔ P s l ∧ T.Along P s' ls := by rw [Along, h]

theorem always_cons_stuck {G : σ → Prop} {s : σ} {l : α} (h : T.step s l = none) (ls : List α) :
    T.Always G s (l :: ls) ↔ G s := by rw [Always, h]; simp only [and_true]

theorem along_cons_stuck {P : σ → α → Prop} {s : σ} {l : α} (h : T.step s l = none)
    (ls : List α) : T.Along P s (l :: ls) := by rw [Along, h]; exact trivial

/-- A run and one step more. -/
theorem along_concat {P : σ → α → Prop} {l : α} : ∀ {s : σ} {ls : List α}, T.Along P s ls →
    (∀ t, T.exec s ls = some t → P t l) → T.Along P s (ls ++ [l])
  | s, [], _, hl => by
      cases h : T.step s l with
      | none => exact T.along_cons_stuck h []
      | some s' => exact (T.along_cons h []).mpr ⟨hl s rfl, trivial⟩
  | s, l' :: ls, hls, hl => by
      cases h : T.step s l' with
      | none => exact T.along_cons_stuck h _
      | some s' =>
        obtain ⟨hl', hrest⟩ := (T.along_cons h ls).mp hls
        exact (T.along_cons h _).mpr ⟨hl', along_concat hrest fun t ht =>
          hl t ((T.exec_cons h ls).trans ht)⟩

/-- A run can be checked step by step. -/
instance Along.decidable (P : σ → α → Prop) [∀ s l, Decidable (P s l)] :
    ∀ (s : σ) (ls : List α), Decidable (T.Along P s ls)
  | _, [] => isTrue trivial
  | s, l :: ls =>
    match h : T.step s l with
    | none => isTrue (T.along_cons_stuck h ls)
    | some s' =>
      have := Along.decidable P s' ls
      decidable_of_iff (P s l ∧ T.Along P s' ls) (T.along_cons h ls).symm

/-- A run of one step. -/
theorem along_singleton {P : σ → α → Prop} {s : σ} {l : α} (h : P s l) : T.Along P s [l] := by
  cases hstep : T.step s l with
  | none => exact T.along_cons_stuck hstep []
  | some s' => exact (T.along_cons hstep []).mpr ⟨h, trivial⟩

/-- What holds in every state of a run holds in its last. -/
theorem always_exec {G : σ → Prop} : ∀ {ls : List α} {s t : σ}, T.Always G s ls →
    T.exec s ls = some t → G t
  | [], _, _, hal, ht => by cases ht; exact hal
  | l :: ls, s, t, hal, ht => by
      cases h : T.step s l with
      | none => rw [exec, h] at ht; cases ht
      | some s' =>
        rw [T.exec_cons h] at ht
        exact always_exec ((T.always_cons h ls).mp hal).2 ht

/-- What holds of every step of a run holds of every step after a part of it. -/
theorem along_exec {P : σ → α → Prop} {ls' : List α} : ∀ {ls : List α} {s t : σ},
    T.Along P s (ls ++ ls') → T.exec s ls = some t → T.Along P t ls'
  | [], _, _, hal, ht => by cases ht; exact hal
  | l :: ls, s, t, hal, ht => by
      cases h : T.step s l with
      | none => rw [exec, h] at ht; cases ht
      | some s' =>
        rw [T.exec_cons h] at ht
        exact along_exec ((T.along_cons h (ls ++ ls')).mp hal).2 ht

theorem always_mono {G G' : σ → Prop} (hG : ∀ s, G s → G' s) : ∀ {ls : List α} {s : σ},
    T.Always G s ls → T.Always G' s ls
  | [], s, hal => hG s hal
  | l :: ls, s, hal => by
      cases h : T.step s l with
      | none => exact (T.always_cons_stuck h ls).mpr (hG s ((T.always_cons_stuck h ls).mp hal))
      | some s' =>
        obtain ⟨hs, hrest⟩ := (T.always_cons h ls).mp hal
        exact (T.always_cons h ls).mpr ⟨hG s hs, always_mono hG hrest⟩

/-- An invariant that every guarded step preserves holds all along a guarded run. -/
theorem always_of_along (Inv : σ → Prop) {P : σ → α → Prop}
    (hstep : ∀ s l s', Inv s → P s l → T.step s l = some s' → Inv s') :
    ∀ (ls : List α) (s : σ), Inv s → T.Along P s ls → T.Always Inv s ls
  | [], _, hs, _ => hs
  | l :: ls, s, hs, hal => by
      cases h : T.step s l with
      | none => exact (T.always_cons_stuck h ls).mpr hs
      | some s' =>
        obtain ⟨hp, hrest⟩ := (T.along_cons h ls).mp hal
        exact (T.always_cons h ls).mpr
          ⟨hs, always_of_along Inv hstep ls s' (hstep s l s' hs hp h) hrest⟩

/-- What such an invariant implies holds all along the run too. -/
theorem always_of_inv (Inv : σ → Prop) {P : σ → α → Prop} {G : σ → Prop}
    (hstep : ∀ s l s', Inv s → P s l → T.step s l = some s' → Inv s')
    (hgood : ∀ s, Inv s → G s) {ls : List α} {s : σ} (hs : Inv s) (hal : T.Along P s ls) :
    T.Always G s ls :=
  T.always_mono hgood (T.always_of_along Inv hstep ls s hs hal)

/-- The same for the state a guarded run ends in. -/
theorem exec_of_along (Inv : σ → Prop) {P : σ → α → Prop}
    (hstep : ∀ s l s', Inv s → P s l → T.step s l = some s' → Inv s') :
    ∀ (ls : List α) (s t : σ), Inv s → T.Along P s ls → T.exec s ls = some t → Inv t
  | [], _, _, hs, _, ht => by cases ht; exact hs
  | l :: ls, s, t, hs, hal, ht => by
      cases h : T.step s l with
      | none => rw [exec, h] at ht; cases ht
      | some s' =>
        obtain ⟨hp, hrest⟩ := (T.along_cons h ls).mp hal
        rw [T.exec_cons h] at ht
        exact exec_of_along Inv hstep ls s' t (hstep s l s' hs hp h) hrest ht

/-- A preorder that every step goes up is gone up by every run. -/
theorem exec_le (P : σ → σ → Prop) (hrefl : ∀ s, P s s)
    (htrans : ∀ s t u, P s t → P t u → P s u) (hstep : ∀ s l s', T.step s l = some s' → P s s') :
    ∀ (ls : List α) (s t : σ), T.exec s ls = some t → P s t
  | [], s, _, ht => by cases ht; exact hrefl s
  | l :: ls, s, t, ht => by
      cases h : T.step s l with
      | none => rw [exec, h] at ht; cases ht
      | some s' =>
        rw [T.exec_cons h] at ht
        exact htrans s s' t (hstep s l s' h) (exec_le P hrefl htrans hstep ls s' t ht)

/-- A property of single steps that the guard implies, given the invariant it keeps. -/
theorem along_of_along (Inv : σ → Prop) {P Q : σ → α → Prop}
    (hstep : ∀ s l s', Inv s → P s l → T.step s l = some s' → Inv s')
    (hpq : ∀ s l s', Inv s → P s l → T.step s l = some s' → Q s l) :
    ∀ (ls : List α) (s : σ), Inv s → T.Along P s ls → T.Along Q s ls
  | [], _, _, _ => trivial
  | l :: ls, s, hs, hal => by
      cases h : T.step s l with
      | none => exact T.along_cons_stuck h ls
      | some s' =>
        obtain ⟨hp, hrest⟩ := (T.along_cons h ls).mp hal
        exact (T.along_cons h ls).mpr ⟨hpq s l s' hs hp h,
          along_of_along Inv hstep hpq ls s' (hstep s l s' hs hp h) hrest⟩

/-- Step properties that agree wherever the invariant holds agree along every run. -/
theorem along_iff_along (Inv : σ → Prop) {P Q : σ → α → Prop}
    (hinv : ∀ s l s', Inv s → T.step s l = some s' → Inv s')
    (hpq : ∀ s l s', Inv s → T.step s l = some s' → (P s l ↔ Q s l)) :
    ∀ (ls : List α) (s : σ), Inv s → (T.Along P s ls ↔ T.Along Q s ls) := by
  intro ls s hs
  constructor
  · exact T.along_of_along Inv (fun s l s' hi _ h => hinv s l s' hi h)
      (fun s l s' hi hp h => (hpq s l s' hi h).mp hp) ls s hs
  · exact T.along_of_along Inv (fun s l s' hi _ h => hinv s l s' hi h)
      (fun s l s' hi hp h => (hpq s l s' hi h).mpr hp) ls s hs

/-- A run stays good exactly when all its steps meet the guard. -/
theorem always_iff_along (Inv : σ → Prop) {Good : σ → Prop} {P : σ → α → Prop}
    (hinv : ∀ s l s', Inv s → T.step s l = some s' → Inv s')
    (hgood : ∀ s l s', Inv s → Good s → T.step s l = some s' → (Good s' ↔ P s l)) :
    ∀ (ls : List α) (s : σ), Inv s → Good s → (T.Always Good s ls ↔ T.Along P s ls)
  | [], _, _, hg => ⟨fun _ => trivial, fun _ => hg⟩
  | l :: ls, s, hs, hg => by
      cases h : T.step s l with
      | none => exact ⟨fun _ => T.along_cons_stuck h ls,
          fun _ => (T.always_cons_stuck h ls).mpr hg⟩
      | some s' =>
        have hs' := hinv s l s' hs h
        have hiff := hgood s l s' hs hg h
        rw [T.always_cons h, T.along_cons h]
        constructor
        · rintro ⟨_, hrest⟩
          have hg' : Good s' := by
            cases ls with
            | nil => exact hrest
            | cons l' ls => exact hrest.1
          exact ⟨hiff.mp hg', (always_iff_along Inv hinv hgood ls s' hs' hg').mp hrest⟩
        · rintro ⟨hp, hrest⟩
          have hg' := hiff.mpr hp
          exact ⟨hg, (always_iff_along Inv hinv hgood ls s' hs' hg').mpr hrest⟩

end Lts
end Lib
