import MediasoupClient.Lib.Json

/-! Scans that stop.

        x₀   x₁   x₂   x₃   x₄            the first element with `q` is x₂
        ok   ok   ok   –    –             and what has to hold of x₃ and x₄ is not asked

    A search looks at a list up to the first element it looks for. Whether it goes through depends on
    those elements alone. -/

namespace Lib
variable {α β : Type}

/-- `D` holds of every element up to the first one with `q`, and of that one. -/
def UpToFirst (q : α → Bool) (D : α → Prop) : List α → Prop
  | [] => True
  | x :: xs => D x ∧ (q x = false → UpToFirst q D xs)

theorem UpToFirst.of_forall {q : α → Bool} {D : α → Prop} {xs : List α} (h : ∀ x ∈ xs, D x) :
    UpToFirst q D xs := by
  induction xs with
  | nil => trivial
  | cons x xs ih =>
    exact ⟨h x (List.mem_cons_self ..), fun _ => ih fun y hy => h y (List.mem_cons_of_mem _ hy)⟩

/-- If no element has `q`, all of them are looked at. -/
theorem upToFirst_iff_forall {q : α → Bool} {D : α → Prop} {xs : List α}
    (hq : ∀ x ∈ xs, q x = false) : UpToFirst q D xs ↔ ∀ x ∈ xs, D x := by
  refine ⟨fun h => ?_, UpToFirst.of_forall⟩
  induction xs with
  | nil => exact fun x hx => absurd hx List.not_mem_nil
  | cons x xs ih =>
    obtain ⟨hx, hrest⟩ := h
    refine List.forall_mem_cons.mpr ⟨hx, ?_⟩
    exact ih (fun y hy => hq y (List.mem_cons_of_mem _ hy)) (hrest (hq x (List.mem_cons_self ..)))

/-- Two lists of which the same is asked, element by element. -/
theorem upToFirst_congr {R : α → β → Prop} {q : α → Bool} {q' : β → Bool} {D : α → Prop}
    {D' : β → Prop} {xs : List α} {ys : List β} (h : List.Forall₂ R xs ys)
    (hq : ∀ {x y}, R x y → q' y = q x) (hD : ∀ {x y}, R x y → (D' y ↔ D x)) :
    UpToFirst q' D' ys ↔ UpToFirst q D xs := by
  induction h with
  | nil => exact Iff.rfl
  | cons hxy _ ih =>
    unfold UpToFirst
    rw [hD hxy, hq hxy, ih]

/-- The first element of two such lists. -/
theorem find?_rel {R : α → β → Prop} {q : α → Bool} {q' : β → Bool} {xs : List α} {ys : List β}
    (h : List.Forall₂ R xs ys) (hq : ∀ {x y}, R x y → q' y = q x) :
    Option.Rel R (xs.find? q) (ys.find? q') := by
  induction h with
  | nil => exact .none
  | @cons x _ _ _ hxy _ ih =>
    rw [List.find?_cons, List.find?_cons, hq hxy]
    cases q x with
    | true => exact .some hxy
    | false => exact ih

/-! ### Folds that stop -/

/-- `C` holds of every element, where it may depend on those before it. -/
def Along (C : List α → α → Prop) : List α → List α → Prop
  | _, [] => True
  | done, x :: xs => C done x ∧ Along C (done ++ [x]) xs

theorem along_iff_forall {C : α → Prop} {done xs : List α} :
    Along (fun _ x => C x) done xs ↔ ∀ x ∈ xs, C x := by
  induction xs generalizing done with
  | nil => exact iff_of_true trivial fun x hx => absurd hx List.not_mem_nil
  | cons x xs ih =>
    unfold Along
    rw [ih, List.forall_mem_cons]

/-- A fold that succeeds exactly as long as `C` holds, and describes by `D` what it has done. -/
theorem foldlM_along {ε : Type} {f : β → α → Except ε β} {T : α → Prop} {C : List α → α → Prop}
    {D : List α → β → Prop} (hstep : ∀ {done x b}, T x → D done b →
      ((∃ b', f b x = .ok b') ↔ C done x) ∧ ∀ b', f b x = .ok b' → D (done ++ [x]) b')
    (done xs : List α) {b : β} (hT : ∀ x ∈ xs, T x) (hD : D done b) :
    ((∃ r, xs.foldlM f b = .ok r) ↔ Along C done xs) ∧
      ∀ r, xs.foldlM f b = .ok r → D (done ++ xs) r := by
  induction xs generalizing done b with
  | nil =>
    refine ⟨iff_of_true ⟨b, rfl⟩ trivial, fun r hr => ?_⟩
    cases hr
    rwa [List.append_nil]
  | cons x xs ih =>
    obtain ⟨hx, hrest⟩ := List.forall_mem_cons.mp hT
    obtain ⟨hiff, hnext⟩ := hstep hx hD
    rw [List.foldlM_cons]
    refine ⟨⟨?_, ?_⟩, ?_⟩
    · rintro ⟨r, hr⟩
      obtain ⟨b', hb', hr⟩ := bind_ok.mp hr
      exact ⟨hiff.mp ⟨b', hb'⟩, (ih _ hrest (hnext b' hb')).1.mp ⟨r, hr⟩⟩
    · rintro ⟨hC, hall⟩
      obtain ⟨b', hb'⟩ := hiff.mpr hC
      obtain ⟨r, hr⟩ := (ih _ hrest (hnext b' hb')).1.mpr hall
      exact ⟨r, bind_ok.mpr ⟨b', hb', hr⟩⟩
    · intro r hr
      obtain ⟨b', hb', hr⟩ := bind_ok.mp hr
      have hD' := (ih _ hrest (hnext b' hb')).2 r hr
      rwa [List.append_assoc] at hD'

end Lib
