import Mathlib.Data.List.Induction
import Mathlib.Data.List.Perm.Basic
import Mathlib.Data.String.Basic
import Mathlib.Order.Basic

/-! Ordered maps as strictly sorted association lists.

    `get` / `put` / `del` work on the raw list of entries, which is what a nested inductive type
    can hold; none of their lookup laws needs sortedness. `StdMap` bundles the list with the
    sortedness proof, so that two maps with the same lookups are equal (`StdMap.ext_get`) and the
    entries come out in key order.

        get k' (put k v l)  =  if k' = k then some v else get k' l
        get k' (del k l)    =  if k' = k then none   else get k' l -/

namespace Lib
variable {κ β : Type*} [LinearOrder κ]

/-- The value stored under `k`, if there is one. -/
def get (k : κ) : List (κ × β) → Option β
  | [] => none
  | (k', v) :: t => if k = k' then some v else get k t

/-- Store `v` under `k`: insert in key order, or replace the value already there. -/
def put (k : κ) (v : β) : List (κ × β) → List (κ × β)
  | [] => [(k, v)]
  | (k', v') :: t =>
    if k = k' then (k, v) :: t
    else if k < k' then (k, v) :: (k', v') :: t
    else (k', v') :: put k v t

/-- Drop the entry under `k`. -/
def del (k : κ) : List (κ × β) → List (κ × β)
  | [] => []
  | (k', v') :: t => if k = k' then del k t else (k', v') :: del k t

/-- Strictly increasing keys. -/
def Sorted (l : List (κ × β)) : Prop := l.Pairwise (fun a b => a.1 < b.1)

theorem mem_of_get {k : κ} {v : β} : ∀ {l : List (κ × β)}, get k l = some v → (k, v) ∈ l
  | (a, b) :: t, h => by
      rw [get] at h
      split_ifs at h with hk
      · cases h
        exact hk ▸ List.mem_cons_self ..
      · exact List.mem_cons_of_mem _ (mem_of_get h)

theorem get_append (k : κ) (l l' : List (κ × β)) : get k (l ++ l') = (get k l).or (get k l') := by
  induction l with
  | nil => rfl
  | cons x l ih =>
    obtain ⟨k', v⟩ := x
    rw [List.cons_append, get, get, ih]
    split_ifs <;> rfl

theorem get_put_self (k : κ) (v : β) : ∀ l : List (κ × β), get k (put k v l) = some v
  | [] => by simp [put, get]
  | (a, b) :: t => by
      simp only [put]
      split_ifs with h₁ h₂
      · simp [get]
      · simp [get]
      · rw [get, if_neg h₁, get_put_self k v t]

theorem get_put_of_ne {k k' : κ} (v : β) (h : k' ≠ k) : ∀ l : List (κ × β),
    get k' (put k v l) = get k' l
  | [] => by simp [put, get, h]
  | (a, b) :: t => by
      simp only [put]
      split_ifs with h₁ h₂
      · subst h₁; simp [get, h]
      · rw [get, if_neg h]
      · rw [get, get, get_put_of_ne v h t]

theorem get_put (k k' : κ) (v : β) (l : List (κ × β)) :
    get k' (put k v l) = if k' = k then some v else get k' l := by
  split_ifs with h
  · rw [h, get_put_self]
  · exact get_put_of_ne v h l

/-- The latest value stays. -/
theorem put_put (k : κ) (v w : β) : ∀ l : List (κ × β), put k v (put k w l) = put k v l
  | [] => by simp [put]
  | (a, b) :: t => by
      simp only [put]
      split_ifs with h₁ h₂
      · simp [put]
      · simp [put]
      · rw [put, if_neg h₁, if_neg h₂, put_put k v w t]

theorem get_del (k k' : κ) : ∀ l : List (κ × β),
    get k' (del k l) = if k' = k then none else get k' l
  | [] => by simp [del, get]
  | (a, b) :: t => by
      simp only [del]
      split_ifs with h₁ h₂ h₃
      · rw [get_del k k' t, if_pos h₂]
      · rw [get_del k k' t, if_neg h₂, get, if_neg (h₁ ▸ h₂)]
      · subst h₃; simp [get, get_del k' k' t, h₁]
      · simp [get, get_del k k' t, h₃]

/-- A key that is not there is not dropped. -/
theorem del_of_none {k : κ} : ∀ {l : List (κ × β)}, get k l = none → del k l = l
  | [], _ => rfl
  | (k', v') :: t, h => by
    rw [get] at h
    split_ifs at h with hk
    rw [del, if_neg hk, del_of_none h]

/-! ### Storing what is stored -/

/-- The entry is there, where storing it again finds it. -/
def Stored (k : κ) (v : β) (l : List (κ × β)) : Prop := put k v l = l

theorem Stored.get {k : κ} {v : β} {l : List (κ × β)} (h : Stored k v l) :
    Lib.get k l = some v := by
  rw [← h, get_put_self]

theorem stored_put (k : κ) (v : β) : ∀ l : List (κ × β), Stored k v (put k v l)
  | [] => if_pos rfl
  | (k', v') :: t => by
    unfold Stored
    rw [put]
    split_ifs with hk hlt
    · exact if_pos rfl
    · exact if_pos rfl
    · rw [put, if_neg hk, if_neg hlt, stored_put k v t]

/-- What is stored of an entry behind the first is stored of the others. -/
theorem stored_cons {k k' : κ} {v v' : β} {t : List (κ × β)} :
    Stored k v ((k', v') :: t) ↔ (k = k' ∧ v = v') ∨ (k' < k ∧ Stored k v t) := by
  unfold Stored
  rw [put]
  split_ifs with hk hlt
  · subst hk
    simp
  · refine iff_of_false (fun h => ?_) ?_
    · have hlen := congrArg List.length h
      simp at hlen
    · rintro (⟨rfl, -⟩ | ⟨hgt, -⟩)
      · exact hk rfl
      · exact absurd hgt hlt.asymm
  · have hgt : k' < k := lt_of_le_of_ne (not_lt.mp hlt) (Ne.symm hk)
    simp [hk, hgt]

/-- Storing under another key leaves an entry where it is found. -/
theorem Stored.put {k k' : κ} {v : β} (v' : β) (hne : k ≠ k') : ∀ {l : List (κ × β)},
    Stored k v l → Stored k v (put k' v' l)
  | [], h => by cases h
  | (k₁, v₁) :: t, h => by
    have h₁ := stored_cons.mp h
    rw [Lib.put]
    split_ifs with heq hlt
    · subst heq
      rcases h₁ with ⟨rfl, -⟩ | ⟨hgt, ht⟩
      · exact absurd rfl hne
      · exact stored_cons.mpr (Or.inr ⟨hgt, ht⟩)
    · refine stored_cons.mpr (Or.inr ⟨?_, h⟩)
      rcases h₁ with ⟨rfl, -⟩ | ⟨hgt, -⟩
      · exact hlt
      · exact hlt.trans hgt
    · rcases h₁ with ⟨rfl, rfl⟩ | ⟨hgt, ht⟩
      · exact stored_cons.mpr (Or.inl ⟨rfl, rfl⟩)
      · exact stored_cons.mpr (Or.inr ⟨hgt, ht.put v' hne⟩)

/-- So does dropping another key. -/
theorem Stored.del {k k' : κ} {v : β} (hne : k ≠ k') : ∀ {l : List (κ × β)},
    Stored k v l → Stored k v (del k' l)
  | [], h => by cases h
  | (k₁, v₁) :: t, h => by
    have h₁ := stored_cons.mp h
    rw [Lib.del]
    split_ifs with heq
    · subst heq
      rcases h₁ with ⟨rfl, -⟩ | ⟨-, ht⟩
      · exact absurd rfl hne
      · exact ht.del hne
    · rcases h₁ with ⟨rfl, rfl⟩ | ⟨hgt, ht⟩
      · exact stored_cons.mpr (Or.inl ⟨rfl, rfl⟩)
      · exact stored_cons.mpr (Or.inr ⟨hgt, ht.del hne⟩)

theorem mem_put {k : κ} {v : β} {e : κ × β} : ∀ {l : List (κ × β)},
    e ∈ put k v l → e = (k, v) ∨ e ∈ l
  | [], h => by simpa [put] using h
  | (a, b) :: t, h => by
      simp only [put] at h
      split_ifs at h with h₁ h₂
      · rcases List.mem_cons.mp h with h | h
        · exact Or.inl h
        · exact Or.inr (List.mem_cons_of_mem _ h)
      · exact List.mem_cons.mp h
      · rcases List.mem_cons.mp h with rfl | h
        · exact Or.inr (List.mem_cons_self ..)
        · exact (mem_put h).imp_right (List.mem_cons_of_mem _)

theorem mem_del {k : κ} {e : κ × β} : ∀ {l : List (κ × β)}, e ∈ del k l → e ∈ l
  | (a, b) :: t, h => by
      simp only [del] at h
      split_ifs at h with h₁
      · exact List.mem_cons_of_mem _ (mem_del h)
      · rcases List.mem_cons.mp h with rfl | h
        · exact List.mem_cons_self ..
        · exact List.mem_cons_of_mem _ (mem_del h)

theorem sorted_put (k : κ) (v : β) : ∀ {l : List (κ × β)}, Sorted l → Sorted (put k v l)
  | [], _ => List.pairwise_singleton ..
  | (a, b) :: t, h => by
      obtain ⟨hlt, ht⟩ := List.pairwise_cons.mp h
      simp only [put]
      split_ifs with h₁ h₂
      · exact List.pairwise_cons.mpr ⟨fun e he => h₁ ▸ hlt e he, ht⟩
      · refine List.pairwise_cons.mpr ⟨fun e he => ?_, h⟩
        rcases List.mem_cons.mp he with rfl | he
        · exact h₂
        · exact lt_trans h₂ (hlt e he)
      · refine List.pairwise_cons.mpr ⟨fun e he => ?_, sorted_put k v ht⟩
        rcases mem_put he with rfl | he
        · exact lt_of_le_of_ne (not_lt.mp h₂) (Ne.symm h₁)
        · exact hlt e he

theorem sorted_del (k : κ) : ∀ {l : List (κ × β)}, Sorted l → Sorted (del k l)
  | [], h => h
  | (a, b) :: t, h => by
      obtain ⟨hlt, ht⟩ := List.pairwise_cons.mp h
      simp only [del]
      split_ifs with h₁
      · exact sorted_del k ht
      · exact List.pairwise_cons.mpr ⟨fun e he => hlt e (mem_del he), sorted_del k ht⟩

/-- In a sorted list the lookup finds exactly the entries. -/
theorem mem_iff_get {k : κ} {v : β} : ∀ {l : List (κ × β)}, Sorted l →
    ((k, v) ∈ l ↔ get k l = some v)
  | [], _ => by simp [get]
  | (a, b) :: t, h => by
      obtain ⟨hlt, ht⟩ := List.pairwise_cons.mp h
      rw [List.mem_cons, get, mem_iff_get ht]
      split_ifs with hk
      · subst hk
        have hno : get k t ≠ some v := fun hg =>
          absurd (hlt _ ((mem_iff_get ht).mpr hg)) (lt_irrefl k)
        simp [hno, eq_comm]
      · simp [hk]

theorem get_filter {p : κ × β → Bool} {l : List (κ × β)} (hl : Sorted l) {k : κ} :
    get k (l.filter p) = (get k l).filter fun v => p (k, v) := by
  have hsub : Sorted (l.filter p) := hl.filter p
  ext v
  rw [← mem_iff_get hsub, List.mem_filter, mem_iff_get hl, Option.filter_eq_some_iff]

/-- The first entry of a kind is the one with the least key. -/
theorem find?_least {p : κ × β → Bool} {e : κ × β} : ∀ {l : List (κ × β)}, Sorted l →
    (l.find? p = some e ↔ e ∈ l ∧ p e = true ∧ ∀ e' ∈ l, p e' = true → e.1 ≤ e'.1)
  | [], _ => iff_of_false (fun h => by cases h) fun h => absurd h.1 List.not_mem_nil
  | x :: t, h => by
      obtain ⟨hx, ht⟩ := List.pairwise_cons.mp h
      rw [List.find?_cons]
      cases hp : p x with
      | true =>
        simp only [Option.some.injEq]
        constructor
        · rintro rfl
          refine ⟨List.mem_cons_self .., hp, fun e' he' _ => ?_⟩
          rcases List.mem_cons.mp he' with rfl | he'
          · exact le_refl _
          · exact le_of_lt (hx e' he')
        · rintro ⟨he, -, hleast⟩
          rcases List.mem_cons.mp he with rfl | he
          · rfl
          · exact absurd (hleast x (List.mem_cons_self ..) hp) (not_le_of_gt (hx e he))
      | false =>
        simp only
        rw [find?_least ht]
        constructor
        · rintro ⟨he, hpe, hleast⟩
          refine ⟨List.mem_cons_of_mem _ he, hpe, fun e' he' hp' => ?_⟩
          rcases List.mem_cons.mp he' with rfl | he'
          · rw [hp] at hp'
            cases hp'
          · exact hleast e' he' hp'
        · rintro ⟨he, hpe, hleast⟩
          rcases List.mem_cons.mp he with rfl | he
          · rw [hp] at hpe
            cases hpe
          · exact ⟨he, hpe, fun e' he' => hleast e' (List.mem_cons_of_mem _ he')⟩

theorem sorted_ext {l l' : List (κ × β)} (h : Sorted l) (h' : Sorted l')
    (hg : ∀ k, get k l = get k l') : l = l' := by
  have hnd : ∀ {m : List (κ × β)}, Sorted m → m.Nodup := fun hm =>
    List.Pairwise.imp (fun {a b} hab (heq : a = b) => lt_irrefl a.1 (heq ▸ hab)) hm
  have hperm : l.Perm l' := (List.perm_ext_iff_of_nodup (hnd h) (hnd h')).mpr fun ⟨k, v⟩ => by
    rw [mem_iff_get h, mem_iff_get h', hg k]
  exact hperm.eq_of_pairwise (fun a b _ _ hab hba => absurd hab (not_lt.mpr hba.le)) h h'

/-- A new key is one more entry. -/
theorem put_perm {k : κ} (v : β) : ∀ {l : List (κ × β)}, get k l = none →
    (put k v l).Perm ((k, v) :: l)
  | [], _ => List.Perm.refl _
  | (a, b) :: t, h => by
      rw [get] at h
      split_ifs at h with hk
      rw [put, if_neg hk]
      split_ifs
      · exact List.Perm.refl _
      · exact ((put_perm v h).cons (a, b)).trans (List.Perm.swap ..)

/-- A key that is there keeps its place. -/
theorem length_put {k : κ} {v v' : β} : ∀ {l : List (κ × β)}, Sorted l → get k l = some v' →
    (put k v l).length = l.length
  | (a, b) :: t, hl, h => by
      obtain ⟨hlt, ht⟩ := List.pairwise_cons.mp hl
      rw [get] at h
      rw [put]
      split_ifs at h ⊢ with hk hless
      · rfl
      · exact absurd (hlt _ (mem_of_get h)) (not_lt.mpr hless.le)
      · rw [List.length_cons, List.length_cons, length_put ht h]

/-- A map with ordered keys: the entries, sorted. -/
structure StdMap (κ β : Type*) [LinearOrder κ] where
  entries : List (κ × β)
  sorted : Sorted entries

namespace StdMap

/-- The empty map. -/
def empty : StdMap κ β := ⟨[], List.Pairwise.nil⟩

/-- The value under `k`. -/
def get (m : StdMap κ β) (k : κ) : Option β := Lib.get k m.entries

/-- `m[k] = v`. -/
def insert (m : StdMap κ β) (k : κ) (v : β) : StdMap κ β :=
  ⟨put k v m.entries, sorted_put k v m.sorted⟩

/-- `m.erase(k)`. -/
def erase (m : StdMap κ β) (k : κ) : StdMap κ β := ⟨del k m.entries, sorted_del k m.sorted⟩

/-- `m[k]` where the map may be changed: a missing key is inserted with the value `d`. -/
def index (m : StdMap κ β) (k : κ) (d : β) : β × StdMap κ β :=
  match m.get k with
  | some v => (v, m)
  | none => (d, m.insert k d)

@[simp] theorem get_empty (k : κ) : (empty : StdMap κ β).get k = none := rfl

theorem get_insert (m : StdMap κ β) (k k' : κ) (v : β) :
    (m.insert k v).get k' = if k' = k then some v else m.get k' := get_put k k' v m.entries

theorem get_erase (m : StdMap κ β) (k k' : κ) :
    (m.erase k).get k' = if k' = k then none else m.get k' := get_del k k' m.entries

@[simp] theorem get_insert_self (m : StdMap κ β) (k : κ) (v : β) :
    (m.insert k v).get k = some v := by rw [get_insert, if_pos rfl]

theorem get_insert_of_ne (m : StdMap κ β) {k k' : κ} (v : β) (h : k' ≠ k) :
    (m.insert k v).get k' = m.get k' := by rw [get_insert, if_neg h]

theorem get_erase_of_ne (m : StdMap κ β) {k k' : κ} (h : k' ≠ k) :
    (m.erase k).get k' = m.get k' := by rw [get_erase, if_neg h]

theorem index_of_get {m : StdMap κ β} {k : κ} {v : β} (h : m.get k = some v) (d : β) :
    m.index k d = (v, m) := by rw [index, h]

theorem index_of_none {m : StdMap κ β} {k : κ} (h : m.get k = none) (d : β) :
    m.index k d = (d, m.insert k d) := by rw [index, h]

/-- The values, in the order of their keys. -/
def values (m : StdMap κ β) : List β := m.entries.map (·.2)

/-- Values stored one after another, each under its key: the last one of a key stays. -/
def lastBy (f : β → κ) (bs : List β) : StdMap κ β := bs.foldl (fun m b => m.insert (f b) b) empty

theorem lastBy_concat (f : β → κ) (bs : List β) (b : β) :
    lastBy f (bs ++ [b]) = (lastBy f bs).insert (f b) b := List.foldl_append

theorem get_lastBy_eq_none {f : β → κ} {bs : List β} {k : κ} :
    (lastBy f bs).get k = none ↔ k ∉ bs.map f := by
  induction bs using List.reverseRecOn with
  | nil => exact ⟨fun _ => List.not_mem_nil, fun _ => rfl⟩
  | append_singleton bs b ih =>
    rw [lastBy_concat, get_insert, List.map_append, List.mem_append, not_or, ← ih]
    split_ifs with hk
    · subst hk
      refine ⟨fun h => ?_, fun h => absurd (List.mem_singleton_self _) h.2⟩
      cases h
    · exact ⟨fun h => ⟨h, fun hmem => hk (List.mem_singleton.mp hmem)⟩, fun h => h.1⟩

/-- Under different keys all values stay. -/
theorem values_lastBy {f : β → κ} {bs : List β} (h : (bs.map f).Nodup) :
    (lastBy f bs).values.Perm bs := by
  induction bs using List.reverseRecOn with
  | nil => exact List.Perm.refl _
  | append_singleton bs b ih =>
    rw [List.map_append, List.nodup_append] at h
    have hnew : (lastBy f bs).get (f b) = none :=
      get_lastBy_eq_none.mpr fun hmem => h.2.2 _ hmem _ (List.mem_singleton_self _) rfl
    rw [lastBy_concat]
    refine ((put_perm b hnew).map Prod.snd).trans ?_
    exact ((ih h.1).cons b).trans (List.perm_append_singleton b bs).symm

theorem length_lastBy_le (f : β → κ) (bs : List β) :
    (lastBy f bs).entries.length ≤ bs.length := by
  induction bs using List.reverseRecOn with
  | nil => exact le_rfl
  | append_singleton bs b ih =>
    rw [lastBy_concat, List.length_append, List.length_singleton]
    cases hget : (lastBy f bs).get (f b) with
    | none =>
      have hlength := (put_perm b hget).length_eq
      rw [List.length_cons] at hlength
      change (put (f b) b (lastBy f bs).entries).length ≤ bs.length + 1
      omega
    | some v =>
      have hlength := length_put (v := b) (lastBy f bs).sorted hget
      change (put (f b) b (lastBy f bs).entries).length ≤ bs.length + 1
      omega

/-- If all values have stayed, their keys are different. -/
theorem nodup_of_length_lastBy {f : β → κ} {bs : List β}
    (h : (lastBy f bs).entries.length = bs.length) : (bs.map f).Nodup := by
  induction bs using List.reverseRecOn with
  | nil => exact List.nodup_nil
  | append_singleton bs b ih =>
    have hle := length_lastBy_le f bs
    rw [lastBy_concat, List.length_append, List.length_singleton] at h
    change (put (f b) b (lastBy f bs).entries).length = bs.length + 1 at h
    cases hget : (lastBy f bs).get (f b) with
    | none =>
      have hlength := (put_perm b hget).length_eq
      rw [List.length_cons] at hlength
      rw [List.map_append, List.nodup_append]
      refine ⟨ih (by omega), List.pairwise_singleton _ _, fun k hmem k' hk' => ?_⟩
      rw [List.mem_singleton.mp hk']
      exact fun heq => get_lastBy_eq_none.mp hget (heq ▸ hmem)
    | some v =>
      have hlength := length_put (v := b) (lastBy f bs).sorted hget
      omega

/-- Maps with the same lookups are equal. -/
theorem ext_get {m m' : StdMap κ β} (h : ∀ k, m.get k = m'.get k) : m = m' := by
  obtain ⟨l, hl⟩ := m
  obtain ⟨l', hl'⟩ := m'
  have hll : l = l' := sorted_ext hl hl' h
  subst hll
  rfl

end StdMap
end Lib
