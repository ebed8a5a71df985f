import MediasoupClient.Lib.StdMap
import MediasoupClient.Lib.Outcome
import Mathlib.Data.List.Forall2
import Mathlib.Data.Rat.Floor
import Mathlib.Data.Int.Log

/-! JSON values as nlohmann::json 3.11 handles them.

    An object is a `std::map`, so its members are sorted by key. Numbers keep the way they were
    made: a signed integer, an unsigned one or a double; the double is its exact value here, and
    is finite. There are two kinds of access:

        read         `j[key]` on a const value: the key must be there
        readOrNull   `j[key]` otherwise: a missing key reads as null (and null as an object)

    Neither is defined on a value that is not an object: both throw. -/

namespace Lib

inductive Json where
  | null
  | bool (b : Bool)
  | int (i : ℤ)
  | uint (n : ℕ)
  | float (q : ℚ)
  | str (s : String)
  | arr (items : List Json)
  | obj (members : List (String × Json))

/-- What an access can end in: an exception (with its id), or an assertion or precondition that is
    violated. -/
inductive Fault where
  | typeError (id : ℕ)
  | undefined
  deriving DecidableEq, Repr

/-- Do a fallible computation in a state: an exception leaves the state as it is. -/
def attempt {σ α : Type*} (s : σ) (x : Except Fault α) (k : α → Outcome Fault σ) :
    Outcome Fault σ :=
  match x with
  | .ok a => k a
  | .error .undefined => .undefined
  | .error e => .threw e s

/-- An attempt leaves the state as it was, when the computation throws, or goes on. -/
theorem attempt_state {σ α : Type*} {s s' : σ} {x : Except Fault α} {k : α → Outcome Fault σ}
    (h : (attempt s x k).state? = some s') :
    s' = s ∨ ∃ a, x = .ok a ∧ (k a).state? = some s' := by
  unfold attempt at h
  split at h
  · exact Or.inr ⟨_, rfl, h⟩
  · cases h
  · cases h; exact Or.inl rfl

/-- An attempt that returns has computed what it goes on with. -/
theorem attempt_returned {σ α : Type*} {s s' : σ} {x : Except Fault α} {k : α → Outcome Fault σ}
    (h : attempt s x k = .returned s') : ∃ a, x = .ok a ∧ k a = .returned s' := by
  unfold attempt at h
  split at h
  · exact ⟨_, rfl, h⟩
  · cases h
  · cases h

theorem attempt_error_leaves {σ α : Type*} {s : σ} {x : Except Fault α} {e : Fault}
    (hx : x = .error e) (k : α → Outcome Fault σ) : (attempt s x k).Leaves (· = s) := by
  intro s' h
  rcases attempt_state h with rfl | ⟨a, ha, _⟩
  · rfl
  · rw [hx] at ha; cases ha

/-- A computation of two steps succeeds when both do. -/
theorem bind_ok {ε : Type*} {α β : Type} {x : Except ε α} {f : α → Except ε β} {b : β} :
    (x >>= f) = .ok b ↔ ∃ a, x = .ok a ∧ f a = .ok b := by
  cases x with
  | error e => exact ⟨fun h => (by cases h), fun ⟨_, h, _⟩ => (by cases h)⟩
  | ok a => exact ⟨fun h => ⟨a, rfl, h⟩, fun ⟨_, h, hf⟩ => (by cases h; exact hf)⟩

theorem ok_bind {ε : Type*} {α β : Type} (a : α) (f : α → Except ε β) :
    (Except.ok a >>= f) = f a := rfl

/-- A computation of two steps succeeds if both do. -/
theorem bind_total {ε α β : Type} {x : Except ε α} {f : α → Except ε β} (hx : ∃ a, x = .ok a)
    (hf : ∀ a, ∃ b, f a = .ok b) : ∃ b, (x >>= f) = .ok b := by
  obtain ⟨a, rfl⟩ := hx
  exact hf a

theorem toOption_bind {ε α β : Type} (x : Except ε α) (f : α → Except ε β) :
    (x >>= f).toOption = x.toOption.bind fun a => (f a).toOption := by
  cases x <;> rfl

theorem toOption_eq_some {ε α : Type} {x : Except ε α} {a : α} :
    x.toOption = some a ↔ x = .ok a := by
  cases x <;> simp [Except.toOption]

theorem exists_of_map {ε α β : Type} {x : Except ε α} (f : α → β) {b : β}
    (h : x.toOption.map f = some b) : ∃ a, x = .ok a ∧ f a = b := by
  obtain ⟨a, ha, hf⟩ := Option.map_eq_some_iff.mp h
  exact ⟨a, toOption_eq_some.mp ha, hf⟩

/-- A loop over a list that succeeds has done every element. -/
theorem mapM_ok {ε α β : Type} {f : α → Except ε β} {xs : List α} {ys : List β}
    (h : xs.mapM f = .ok ys) : List.Forall₂ (fun x y => f x = .ok y) xs ys := by
  induction xs generalizing ys with
  | nil => cases h; exact .nil
  | cons x xs ih =>
    rw [List.mapM_cons] at h
    obtain ⟨y, hy, h⟩ := bind_ok.mp h
    obtain ⟨ys', hys, h⟩ := bind_ok.mp h
    cases h
    exact .cons hy (ih hys)

theorem mapM_total {ε α β : Type} {f : α → Except ε β} {xs : List α}
    (h : ∀ x ∈ xs, ∃ y, f x = .ok y) : ∃ ys, xs.mapM f = .ok ys := by
  induction xs with
  | nil => exact ⟨[], rfl⟩
  | cons x xs ih =>
    rw [List.mapM_cons]
    exact bind_total (h x (List.mem_cons_self ..)) fun _ =>
      bind_total (ih fun y hy => h y (List.mem_cons_of_mem _ hy)) fun _ => ⟨_, rfl⟩

/-- An element of the second list comes from one of the first. -/
theorem mem_of_forall₂ {α β : Type} {R : α → β → Prop} {xs : List α} {ys : List β}
    (h : List.Forall₂ R xs ys) {y : β} (hy : y ∈ ys) : ∃ x ∈ xs, R x y := by
  induction h with
  | nil => cases hy
  | @cons x _ _ _ hxy _ ih =>
    rcases List.mem_cons.mp hy with rfl | hy
    · exact ⟨x, List.mem_cons_self .., hxy⟩
    · obtain ⟨x', hx', hr⟩ := ih hy
      exact ⟨x', List.mem_cons_of_mem _ hx', hr⟩

/-- Related lists are related pairwise. -/
theorem pairwise_iff_of_forall₂ {α β : Type} {R : α → β → Prop} {S : α → α → Prop}
    {T : β → β → Prop} {as : List α} {bs : List β} (h : List.Forall₂ R as bs)
    (hST : ∀ {a a' b b'}, R a b → R a' b' → (S a a' ↔ T b b')) :
    as.Pairwise S ↔ bs.Pairwise T := by
  induction h with
  | nil => exact iff_of_true .nil .nil
  | @cons a b as bs hab hrest ih =>
    rw [List.pairwise_cons, List.pairwise_cons, ih]
    refine and_congr_left' ⟨fun hall b' hb' => ?_, fun hall a' ha' => ?_⟩
    · obtain ⟨a', ha', hr⟩ := mem_of_forall₂ hrest hb'
      exact (hST hab hr).mp (hall a' ha')
    · obtain ⟨b', hb', hr⟩ := mem_of_forall₂ hrest.flip ha'
      exact (hST hab hr).mpr (hall b' hb')

theorem map_eq_of_forall₂ {α β γ : Type} {f : α → γ} {g : β → γ} {as : List α} {bs : List β}
    (h : List.Forall₂ (fun a b => f a = g b) as bs) : as.map f = bs.map g := by
  induction h with
  | nil => rfl
  | cons hab _ ih => rw [List.map_cons, List.map_cons, hab, ih]

/-- A list of related elements, if every element has one. -/
theorem exists_forall₂ {α β : Type} {R : α → β → Prop} {xs : List α} (h : ∀ x ∈ xs, ∃ y, R x y) :
    ∃ ys, List.Forall₂ R xs ys := by
  induction xs with
  | nil => exact ⟨[], .nil⟩
  | cons x xs ih =>
    obtain ⟨y, hy⟩ := h x (List.mem_cons_self ..)
    obtain ⟨ys, hys⟩ := ih fun z hz => h z (List.mem_cons_of_mem _ hz)
    exact ⟨y :: ys, .cons hy hys⟩

/-- A loop over a list succeeds exactly if it does for every element. -/
theorem mapM_returns {ε α β : Type} {f : α → Except ε β} {xs : List α} :
    (∃ ys, xs.mapM f = .ok ys) ↔ ∀ x ∈ xs, ∃ y, f x = .ok y := by
  refine ⟨fun ⟨ys, h⟩ x hx => ?_, mapM_total⟩
  obtain ⟨y, -, hy⟩ := mem_of_forall₂ (mapM_ok h).flip hx
  exact ⟨y, hy⟩

theorem forM_total {ε α : Type} {f : α → Except ε Unit} {xs : List α}
    (h : ∀ x ∈ xs, f x = .ok ()) : xs.forM f = .ok () := by
  induction xs with
  | nil => rfl
  | cons x xs ih =>
    exact bind_ok.mpr ⟨(), h x (List.mem_cons_self ..), ih fun y hy =>
      h y (List.mem_cons_of_mem _ hy)⟩

/-- A loop that checks every element. -/
theorem forM_ok {ε α : Type} {f : α → Except ε Unit} {xs : List α} (h : xs.forM f = .ok ()) :
    ∀ x ∈ xs, f x = .ok () := by
  induction xs with
  | nil => exact fun x hx => absurd hx List.not_mem_nil
  | cons x xs ih =>
    obtain ⟨_, hx, h⟩ := bind_ok.mp h
    exact List.forall_mem_cons.mpr ⟨hx, ih h⟩

/-- A fold succeeds if every step does. -/
theorem foldlM_total {ε α β : Type} {f : β → α → Except ε β} {xs : List α}
    (h : ∀ x ∈ xs, ∀ b, ∃ b', f b x = .ok b') (b : β) : ∃ b', xs.foldlM f b = .ok b' := by
  induction xs generalizing b with
  | nil => exact ⟨b, rfl⟩
  | cons x xs ih =>
    obtain ⟨b₁, hb₁⟩ := h x (List.mem_cons_self ..) b
    obtain ⟨b₂, hb₂⟩ := ih (fun x hx => h x (List.mem_cons_of_mem _ hx)) b₁
    exact ⟨b₂, by rw [List.foldlM_cons, hb₁]; exact hb₂⟩

/-- A loop whose turns each go on or stop, whatever there is so far. -/
theorem foldlM_cases {ε α β : Type} {f : β → α → Except ε β} {e : ε} {P : α → Prop} {xs : List α}
    (h : ∀ x ∈ xs, ∀ b, P x ∧ (∃ b', f b x = .ok b') ∨ ¬ P x ∧ f b x = .error e) (b : β) :
    (∀ x ∈ xs, P x) ∧ (∃ b', xs.foldlM f b = .ok b') ∨
      ¬ (∀ x ∈ xs, P x) ∧ xs.foldlM f b = .error e := by
  induction xs generalizing b with
  | nil => exact Or.inl ⟨fun x hx => absurd hx List.not_mem_nil, b, rfl⟩
  | cons x xs ih =>
    rw [List.foldlM_cons, List.forall_mem_cons]
    rcases h x (List.mem_cons_self ..) b with ⟨hx, b', hb'⟩ | ⟨hx, he⟩
    · rw [hb', ok_bind, and_iff_right hx]
      exact ih (fun y hy => h y (List.mem_cons_of_mem _ hy)) b'
    · exact Or.inr ⟨fun hall => hx hall.1, by rw [he]; rfl⟩

theorem foldlM_eq_foldl {ε α β : Type} {f : β → α → Except ε β} {g : β → α → β} {xs : List α}
    (h : ∀ x ∈ xs, ∀ b, f b x = .ok (g b x)) (b : β) : xs.foldlM f b = .ok (xs.foldl g b) := by
  induction xs generalizing b with
  | nil => rfl
  | cons x xs ih =>
    rw [List.foldlM_cons, h x (List.mem_cons_self ..), ok_bind, List.foldl_cons]
    exact ih (fun y hy => h y (List.mem_cons_of_mem _ hy)) _

/-- A fold on a part of a state. -/
theorem foldlM_part {ε α β γ : Type} {f : γ → α → Except ε γ} {g : β → α → Except ε β} {w : β → γ}
    {xs : List α} (h : ∀ x ∈ xs, ∀ b, f (w b) x = (g b x).map w) (b : β) :
    xs.foldlM f (w b) = (xs.foldlM g b).map w := by
  induction xs generalizing b with
  | nil => rfl
  | cons x xs ih =>
    rw [List.foldlM_cons, List.foldlM_cons, h x (List.mem_cons_self ..)]
    cases g b x with
    | error e => rfl
    | ok b => exact ih (fun y hy => h y (List.mem_cons_of_mem _ hy)) b

/-- A loop that writes a separator in front of every text but the first joins them. -/
theorem foldl_join {α : Type} (sep : String) {g : α → String} {xs : List α}
    (h : ∀ x ∈ xs, g x ≠ "") :
    xs.foldl (fun acc x => (if acc = "" then "" else acc ++ sep) ++ g x) "" =
      sep.intercalate (xs.map g) := by
  have hloop : ∀ (xs : List α) (acc : String), (∀ x ∈ xs, g x ≠ "") → acc ≠ "" →
      xs.foldl (fun acc x => (if acc = "" then "" else acc ++ sep) ++ g x) acc =
        sep.intercalate (acc :: xs.map g) := by
    intro xs
    induction xs with
    | nil => intro acc _ _; simp
    | cons x xs ih =>
      intro acc hx hacc
      obtain ⟨hxne, hxs⟩ := List.forall_mem_cons.mp hx
      have hnext : acc ++ sep ++ g x ≠ "" := fun hempty => by
        have hlength := congrArg String.length hempty
        have hpos : (g x).length ≠ 0 := fun hzero => hxne (String.length_eq_zero_iff.mp hzero)
        simp only [String.length_append, String.length_empty] at hlength
        omega
      rw [List.foldl_cons, if_neg hacc, ih _ hxs hnext, List.map_cons,
        String.intercalate_cons_cons, String.intercalate_cons_append]
  cases xs with
  | nil => rfl
  | cons x xs =>
    obtain ⟨hxne, hxs⟩ := List.forall_mem_cons.mp h
    have hfirst : (if ("" : String) = "" then "" else "" ++ sep) ++ g x = g x := by simp
    rw [List.foldl_cons, hfirst, hloop xs _ hxs hxne, List.map_cons]

/-- A fold on another form of the state, as long as an invariant holds. -/
theorem foldlM_form {ε α β γ : Type} {f : γ → α → Except ε γ} {g : β → α → Except ε β} {w : β → γ}
    {I : β → Prop} (hform : ∀ b x, I b → f (w b) x = (g b x).map w)
    (hstep : ∀ {b x b'}, g b x = .ok b' → I b → I b') (xs : List α) {b : β} (hb : I b) :
    xs.foldlM f (w b) = (xs.foldlM g b).map w := by
  induction xs generalizing b with
  | nil => rfl
  | cons x xs ih =>
    rw [List.foldlM_cons, List.foldlM_cons, hform b x hb]
    cases hx : g b x with
    | error e => rfl
    | ok b' => exact ih (hstep hx hb)

/-- What every step of a fold keeps, the fold keeps. -/
theorem foldlM_keeps {ε α β : Type} {f : β → α → Except ε β} {I : β → Prop} {xs : List α}
    (hstep : ∀ {b x b'}, f b x = .ok b' → I b → I b') {b r : β} (h : xs.foldlM f b = .ok r)
    (hb : I b) : I r := by
  induction xs generalizing b with
  | nil => cases h; exact hb
  | cons x xs ih =>
    rw [List.foldlM_cons] at h
    obtain ⟨b₁, hb₁, h⟩ := bind_ok.mp h
    exact ih h (hstep hb₁ hb)

/-- What the steps over these elements keep. -/
theorem foldlM_keeps_of_mem {ε α β : Type} {f : β → α → Except ε β} {I : β → Prop} {xs : List α}
    (hstep : ∀ x ∈ xs, ∀ {b b'}, f b x = .ok b' → I b → I b') {b r : β}
    (h : xs.foldlM f b = .ok r) (hb : I b) : I r := by
  induction xs generalizing b with
  | nil => cases h; exact hb
  | cons x xs ih =>
    obtain ⟨hx, hxs⟩ := List.forall_mem_cons.mp hstep
    rw [List.foldlM_cons] at h
    obtain ⟨b₁, hb₁, h⟩ := bind_ok.mp h
    exact ih hxs h (hx hb₁ hb)

/-- A fold that succeeds has done every step. -/
theorem foldlM_steps {ε α β : Type} {f : β → α → Except ε β} {xs : List α} {b r : β}
    (h : xs.foldlM f b = .ok r) : ∀ x ∈ xs, ∃ b₁ b₂, f b₁ x = .ok b₂ := by
  induction xs generalizing b with
  | nil => exact fun x hx => absurd hx List.not_mem_nil
  | cons x xs ih =>
    rw [List.foldlM_cons] at h
    obtain ⟨b₁, hb₁, h⟩ := bind_ok.mp h
    intro y hy
    rcases List.mem_cons.mp hy with rfl | hy
    · exact ⟨b, b₁, hb₁⟩
    · exact ih h y hy

/-- What every step of a fold appends, the fold appends one after the other. -/
theorem foldlM_collects {ε α β γ : Type} {f : β → α → Except ε β} {o : β → List γ}
    {g : α → List γ} (hstep : ∀ {b x b'}, f b x = .ok b' → o b' = o b ++ g x) {xs : List α}
    {b r : β} (h : xs.foldlM f b = .ok r) : o r = o b ++ xs.flatMap g := by
  induction xs generalizing b with
  | nil => cases h; simp
  | cons x xs ih =>
    rw [List.foldlM_cons] at h
    obtain ⟨b₁, hb₁, h⟩ := bind_ok.mp h
    rw [ih h, hstep hb₁, List.append_assoc, List.flatMap_cons]

/-- Two lists made of related ones, element by element. -/
theorem forall₂_square {α β γ δ : Type} {R : α → β → Prop} {V : α → γ → Prop} {W : β → δ → Prop}
    {S : γ → δ → Prop} {as : List α} {bs : List β} {cs : List γ} {ds : List δ}
    (hR : List.Forall₂ R as bs) (hV : List.Forall₂ V as cs) (hW : List.Forall₂ W bs ds)
    (h : ∀ a ∈ as, ∀ {b c d}, R a b → V a c → W b d → S c d) : List.Forall₂ S cs ds := by
  induction hR generalizing cs ds with
  | nil => cases hV; cases hW; exact .nil
  | @cons a _ _ _ hab _ ih =>
    cases hV with
    | cons hac hV =>
      cases hW with
      | cons hbd hW =>
        exact .cons (h a (List.mem_cons_self ..) hab hac hbd)
          (ih hV hW fun x hx => h x (List.mem_cons_of_mem _ hx))

/-- Lists collected from related elements, the one never longer than the other, are equal exactly if
    they are for each element. -/
theorem flatMap_eq_iff {α β γ : Type} {f : β → List γ} {g : α → List γ} {Q : α → Prop}
    {as : List α} {bs : List β}
    (h : List.Forall₂ (fun a b => (f b).length ≤ (g a).length ∧ (f b = g a ↔ Q a)) as bs) :
    (bs.flatMap f).length ≤ (as.flatMap g).length ∧
      (bs.flatMap f = as.flatMap g ↔ ∀ a ∈ as, Q a) := by
  induction h with
  | nil => exact ⟨Nat.le_refl _, iff_of_true rfl fun a ha => absurd ha List.not_mem_nil⟩
  | @cons a b as bs hab _ ih =>
    obtain ⟨hle, hiff⟩ := hab
    obtain ⟨hles, hiffs⟩ := ih
    rw [List.flatMap_cons, List.flatMap_cons, List.length_append, List.length_append,
      List.forall_mem_cons, ← hiff, ← hiffs]
    refine ⟨Nat.add_le_add hle hles, fun heq => ?_, fun ⟨hfirst, hrest⟩ => by rw [hfirst, hrest]⟩
    have hlength := congrArg List.length heq
    rw [List.length_append, List.length_append] at hlength
    exact List.append_inj heq (by omega)

namespace Json

/-! ### Types -/

def isNull : Json → Bool
  | null => true
  | _ => false

def isString : Json → Bool
  | str _ => true
  | _ => false

def isBoolean : Json → Bool
  | bool _ => true
  | _ => false

/-- `is_number_integer()`: signed or unsigned. -/
def isNumberInteger : Json → Bool
  | int _ => true
  | uint _ => true
  | _ => false

/-- `is_number_unsigned()`. -/
def isNumberUnsigned : Json → Bool
  | uint _ => true
  | _ => false

def isNumber : Json → Bool
  | int _ => true
  | uint _ => true
  | float _ => true
  | _ => false

def isArray : Json → Bool
  | arr _ => true
  | _ => false

def isObject : Json → Bool
  | obj _ => true
  | _ => false

/-! ### Members -/

/-- `find(key)`, and whether it is `end()`. -/
def find (key : String) : Json → Option Json
  | obj members => get key members
  | _ => none

/-- `j[key]` of a const value. -/
def read (j : Json) (key : String) : Except Fault Json :=
  match j with
  | obj members =>
    match get key members with
    | some v => .ok v
    | none => .error .undefined
  | _ => .error (.typeError 305)

/-- `j[key]` of a value that may be changed. -/
def readOrNull (j : Json) (key : String) : Except Fault Json :=
  match j with
  | obj members => .ok ((get key members).getD null)
  | null => .ok null
  | _ => .error (.typeError 305)

/-- `j[key] = v`. -/
def write (j : Json) (key : String) (v : Json) : Except Fault Json :=
  match j with
  | obj members => .ok (obj (put key v members))
  | null => .ok (obj [(key, v)])
  | _ => .error (.typeError 305)

/-- `push_back(v)`. -/
def pushBack (j v : Json) : Except Fault Json :=
  match j with
  | arr items => .ok (arr (items ++ [v]))
  | null => .ok (arr [v])
  | _ => .error (.typeError 308)

/-- `erase(key)`. -/
def eraseKey (j : Json) (key : String) : Except Fault Json :=
  match j with
  | obj members => .ok (obj (del key members))
  | _ => .error (.typeError 307)

/-- `{ {key, v}, ... }`. -/
def object (members : List (String × Json)) : Json :=
  obj (members.foldl (fun m kv => put kv.1 kv.2 m) [])

/-- What `operator[]` makes of a value that may be changed: null becomes an object. -/
def touched : Json → Json
  | null => obj []
  | j => j

/-! ### Elements -/

/-- What a range-based for runs over: a value that is no container is its own only element. -/
def elems : Json → List Json
  | arr items => items
  | obj members => members.map (·.2)
  | null => []
  | j => [j]

/-- `items()`: the elements with their keys; those of an array are its indices. -/
def items : Json → List (String × Json)
  | arr items => items.zipIdx.map fun p => (toString p.2, p.1)
  | obj members => members
  | null => []
  | j => [("", j)]

/-- `j[i]` of a const value. -/
def readIdx (j : Json) (i : ℕ) : Except Fault Json :=
  match j with
  | arr items =>
    match items[i]? with
    | some v => .ok v
    | none => .error .undefined
  | _ => .error (.typeError 305)

/-- Change the `i`-th element in place. -/
def setElem (j : Json) (i : ℕ) (v : Json) : Json :=
  match j with
  | arr items => arr (items.set i v)
  | obj members => obj (members.modify i fun kv => (kv.1, v))
  | null => null
  | _ => v

/-- `size()`. -/
def size (j : Json) : ℕ := j.elems.length

/-- `array[i] = v`: an array that is too short is filled up with null. -/
def setFill (items : List Json) (i : ℕ) (v : Json) : List Json :=
  if i < items.length then items.set i v
  else items ++ List.replicate (i - items.length) null ++ [v]

/-! ### Values -/

/-- `get<std::string>()`. -/
def toStr : Json → Except Fault String
  | str s => .ok s
  | _ => .error (.typeError 302)

/-- `get<bool>()`. -/
def toBool : Json → Except Fault Bool
  | bool b => .ok b
  | _ => .error (.typeError 302)

/-- A double cast to an integer type: towards zero, undefined outside of its range. -/
def truncate (lo hi : ℤ) (q : ℚ) : Except Fault ℤ :=
  let i := if q < 0 then ⌈q⌉ else ⌊q⌋
  if lo ≤ i ∧ i < hi then .ok i else .error .undefined

/-- `get<uint8_t>()` and `get<uint32_t>()`, by the width. -/
def toUInt (w : ℕ) : Json → Except Fault ℕ
  | uint n => .ok (n % 2 ^ w)
  | int i => .ok (i % 2 ^ w).toNat
  | float q => return (← truncate 0 (2 ^ w) q).toNat
  | bool b => .ok b.toNat
  | _ => .error (.typeError 302)

/-- `get<int32_t>()`. -/
def toInt32 : Json → Except Fault ℤ
  | uint n => .ok (Int.bmod n (2 ^ 32))
  | int i => .ok (Int.bmod i (2 ^ 32))
  | float q => truncate (-2 ^ 31) (2 ^ 31) q
  | bool b => .ok b.toNat
  | _ => .error (.typeError 302)

/-- An unsigned 64-bit value as a signed one. -/
def wrap64 (n : ℕ) : ℤ := (Int.bmod n (2 ^ 64))

/-! ### Floating point -/

/-- Round to an integer, ties to even. -/
def roundEven (q : ℚ) : ℤ :=
  let i := ⌊q⌋
  if q - i < 1 / 2 then i
  else if 1 / 2 < q - i then i + 1
  else if i % 2 = 0 then i else i + 1

/-- The nearest binary floating-point value of `p` bits whose smallest unit is `2 ^ emin`. -/
def roundBinary (p : ℕ) (emin : ℤ) (q : ℚ) : ℚ :=
  if q = 0 then 0
  else
    let ulp : ℚ := 2 ^ max (Int.log 2 |q| - (p - 1)) emin
    roundEven (q / ulp) * ulp

/-- An integer as a double. -/
def toDouble (i : ℤ) : ℚ := roundBinary 53 (-1074) i

/-- Digits without the zeros at the end, and without a point that nothing follows. -/
def trimZeros (whole frac : List Char) : String :=
  match (frac.reverse.dropWhile (· = '0')).reverse with
  | [] => String.ofList whole
  | frac => String.ofList whole ++ "." ++ String.ofList frac

/-- What `<<` prints for a positive value: six significant digits. -/
def printPositive (q : ℚ) : String :=
  let e := Int.log 10 q
  let n := roundEven (q * 10 ^ (5 - e))
  let (e, n) := if n = 10 ^ 6 then (e + 1, 10 ^ 5) else (e, n)
  let digits := (toString n.toNat).toList
  if e < -4 ∨ 6 ≤ e then
    let exp := toString e.natAbs
    trimZeros (digits.take 1) (digits.drop 1) ++ (if e < 0 then "e-" else "e+") ++
      (if e.natAbs < 10 then "0" else "") ++ exp
  else if e < 0 then trimZeros ['0'] (List.replicate (e.natAbs - 1) '0' ++ digits)
  else trimZeros (digits.take (e.toNat + 1)) (digits.drop (e.toNat + 1))

/-- `stream << get<float>()`. A zero has no sign: the stream prints -0 for what rounds to it from
    below, which is read as the same number. -/
def printFloat (q : ℚ) : String :=
  let f := roundBinary 24 (-149) q
  if f = 0 then "0"
  else (if f < 0 then "-" else "") ++ if 2 ^ 128 ≤ |f| then "inf" else printPositive |f|

/-! ### Equality -/

mutual

/-- `==`: numbers of different types are compared after conversion. -/
def eqv : Json → Json → Bool
  | null, null => true
  | bool a, bool b => a == b
  | int a, int b => a == b
  | uint a, uint b => a == b
  | float a, float b => a == b
  | str a, str b => a == b
  | arr as, arr bs => eqvList as bs
  | obj as, obj bs => eqvMembers as bs
  | int a, float b => toDouble a == b
  | float a, int b => a == toDouble b
  | uint a, float b => toDouble a == b
  | float a, uint b => a == toDouble b
  | uint a, int b => wrap64 a == b
  | int a, uint b => a == wrap64 b
  | _, _ => false

def eqvList : List Json → List Json → Bool
  | [], [] => true
  | a :: as, b :: bs => eqv a b && eqvList as bs
  | _, _ => false

def eqvMembers : List (String × Json) → List (String × Json) → Bool
  | [], [] => true
  | (k, a) :: as, (k', b) :: bs => k == k' && eqv a b && eqvMembers as bs
  | _, _ => false

end

/-! ### What an access says about the value -/

theorem read_ok {j v : Json} {key : String} : j.read key = .ok v ↔ j.find key = some v := by
  cases j <;> simp only [read, find] <;> try simp
  split <;> simp_all

theorem readIdx_ok {j v : Json} {i : ℕ} :
    j.readIdx i = .ok v ↔ ∃ items, j = arr items ∧ items[i]? = some v := by
  cases j with
  | arr items => cases hi : items[i]? <;> simp [readIdx, hi]
  | _ => simp [readIdx]

theorem toStr_ok {j : Json} {s : String} : j.toStr = .ok s ↔ j = str s := by
  cases j <;> simp [toStr]

theorem read_toOption (j : Json) (key : String) : (j.read key).toOption = j.find key := by
  cases j with
  | obj m => simp only [read, find]; cases get key m <;> rfl
  | _ => rfl

theorem readOrNull_ok {j v : Json} {key : String} (h : j.readOrNull key = .ok v) :
    v = (j.find key).getD null := by
  cases j <;> cases h <;> rfl

theorem find_write {j j' v : Json} {key : String} (h : j.write key v = .ok j') (k : String) :
    j'.find k = if k = key then some v else j.find k := by
  cases j with
  | obj m => cases h; exact get_put key k v m
  | null => cases h; simp [find, get]
  | _ => cases h

theorem find_eraseKey {j j' : Json} {key : String} (h : j.eraseKey key = .ok j') (k : String) :
    j'.find k = if k = key then none else j.find k := by
  cases j with
  | obj m => cases h; exact get_del key k m
  | _ => cases h

theorem setFill_eq_set {items : List Json} {i : ℕ} (v : Json) (h : i < items.length) :
    setFill items i v = items.set i v := if_pos h

end Json
end Lib
