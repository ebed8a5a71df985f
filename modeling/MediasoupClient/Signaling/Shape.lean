import MediasoupClient.Signaling.Document

/-! What is left of a value that is read into a model and written again.

    A free-form JSON value passes through C++ members of fixed types. The shape of a member says
    what comes out at the other end, if anything:

        rewrite     the value that is written, none if reading it fails
        Accepts     reading it does not fail
        Faithful    the value that is written is the one that was read

    An object keeps only the members its model lists, and of these only the ones that are not null.
    The two predicates speak about the value alone, and carry the proof that they decide what
    `rewrite` does. -/

namespace MediasoupClient.Signaling
open Lib

/-- What reading into a member and writing it again does to a value. -/
structure Shape where
  rewrite : Json → Option Json
  Accepts : Json → Prop
  Faithful : Json → Prop
  accepts : ∀ j, (rewrite j).isSome = true ↔ Accepts j
  faithful : ∀ j, rewrite j = some (reparse j) ↔ Faithful j

namespace Shape

theorem Faithful.accepts {s : Shape} {j : Json} (h : s.Faithful j) : s.Accepts j := by
  rw [← s.accepts, (s.faithful j).mpr h]
  rfl

/-! ### Native members -/

/-- The integer a value is, of either kind. -/
def integer? : Json → Option ℤ
  | .int i => some i
  | .uint n => some n
  | _ => none

theorem reparse_of_integer {j : Json} {i : ℤ} (h : integer? j = some i) : reparse j = ofInt i := by
  cases j <;> cases h <;> rfl

/-- `int32_t` and `int64_t`, by their range. -/
def int (lo hi : ℤ) : Shape where
  rewrite j := (integer? j).bind fun i => if lo ≤ i ∧ i < hi then some (ofInt i) else none
  Accepts j := ∃ i, integer? j = some i ∧ lo ≤ i ∧ i < hi
  Faithful j := ∃ i, integer? j = some i ∧ lo ≤ i ∧ i < hi
  accepts j := by
    cases hj : integer? j with
    | none => simp
    | some i => simp [Option.isSome_iff_exists]
  faithful j := by
    cases hj : integer? j with
    | none => simp
    | some i =>
      rw [reparse_of_integer hj]
      simp

/-- `std::string`. -/
def string : Shape where
  rewrite
    | .str s => some (.str (cstr s))
    | _ => none
  Accepts j := ∃ s, j = .str s
  Faithful j := ∃ s, j = .str s ∧ cstr s = s
  accepts j := by cases j <;> simp
  faithful j := by
    cases j with
    | str s =>
      change some (Json.str (cstr s)) = some (Json.str s) ↔ _
      simp
    | _ => simp

def bool : Shape where
  rewrite
    | .bool b => some (.bool b)
    | _ => none
  Accepts j := ∃ b, j = .bool b
  Faithful j := ∃ b, j = .bool b
  accepts j := by cases j <;> simp
  faithful j := by
    cases j with
    | bool b =>
      change some (Json.bool b) = some (Json.bool b) ↔ _
      simp
    | _ => simp

/-- `float`: only a double is read. -/
def float : Shape where
  rewrite
    | .float q => some (.float (Json.roundBinary 24 (-149) q))
    | _ => none
  Accepts j := ∃ q, j = .float q
  Faithful j := ∃ q, j = .float q ∧ Json.roundBinary 24 (-149) q = q
  accepts j := by cases j <;> simp
  faithful j := by
    cases j with
    | float q =>
      change some (Json.float (Json.roundBinary 24 (-149) q)) = some (Json.float q) ↔ _
      simp
    | _ => simp

/-! ### Arrays -/

/-- A loop that may fail, element by element. -/
theorem mapM_some {α β : Type} {f : α → Option β} {xs : List α} {ys : List β} :
    xs.mapM f = some ys ↔ List.Forall₂ (fun x y => f x = some y) xs ys := by
  induction xs generalizing ys with
  | nil => simp
  | cons x xs ih =>
    rw [List.mapM_cons, List.forall₂_cons_left_iff]
    constructor
    · intro h
      obtain ⟨y, hy, h⟩ := Option.bind_eq_some_iff.mp h
      obtain ⟨ys', hys, h⟩ := Option.bind_eq_some_iff.mp h
      cases h
      exact ⟨y, ys', hy, ih.mp hys, rfl⟩
    · rintro ⟨y, ys', hy, hys, rfl⟩
      rw [hy, ih.mpr hys]
      rfl

theorem mapM_isSome {α β : Type} {f : α → Option β} {xs : List α} :
    (xs.mapM f).isSome = true ↔ ∀ x ∈ xs, (f x).isSome = true := by
  rw [Option.isSome_iff_exists]
  constructor
  · rintro ⟨ys, h⟩ x hx
    obtain ⟨y, -, hy⟩ := mem_of_forall₂ (mapM_some.mp h).flip hx
    exact Option.isSome_iff_exists.mpr ⟨y, hy⟩
  · intro h
    induction xs with
    | nil => exact ⟨[], rfl⟩
    | cons x xs ih =>
      obtain ⟨y, hy⟩ := Option.isSome_iff_exists.mp (h x (List.mem_cons_self ..))
      obtain ⟨ys, hys⟩ := ih fun x' hx' => h x' (List.mem_cons_of_mem _ hx')
      exact ⟨y :: ys, mapM_some.mpr (.cons hy (mapM_some.mp hys))⟩

/-- `std::vector`. -/
def array (item : Shape) : Shape where
  rewrite
    | .arr js => (js.mapM item.rewrite).map .arr
    | _ => none
  Accepts j := ∃ js, j = .arr js ∧ ∀ x ∈ js, item.Accepts x
  Faithful j := ∃ js, j = .arr js ∧ ∀ x ∈ js, item.Faithful x
  accepts j := by
    cases j with
    | arr js => simp [mapM_isSome, item.accepts]
    | _ => simp
  faithful j := by
    cases j with
    | arr js =>
      rw [reparse_arr]
      simp only [Option.map_eq_some_iff, Json.arr.injEq, exists_eq_right, mapM_some,
        List.forall₂_map_right_iff, List.forall₂_same, item.faithful]
      simp
    | _ => simp

/-! ### Objects -/

end Shape

/-- What an `absl::optional` member sees: a member that is there and not null. -/
def nonNull (key : String) (j : Json) : Option Json := (j.find key).filter fun v => !v.isNull

theorem nonNull_eq_some {key : String} {j v : Json} :
    nonNull key j = some v ↔ j.find key = some v ∧ v.isNull = false := by
  simp [nonNull, Option.filter_eq_some_iff]

theorem nonNull_obj {key : String} {m : List (String × Json)} {v : Json} (hv : get key m = some v)
    (hnull : v.isNull = false) : nonNull key (.obj m) = some v := nonNull_eq_some.mpr ⟨hv, hnull⟩

theorem nonNull_eq_none {key : String} {j : Json} :
    nonNull key j = none ↔ j.find key = none ∨ j.find key = some .null := by
  unfold nonNull
  cases hj : j.find key with
  | none => simp
  | some v => cases v <;> simp [Json.isNull, Option.filter]

/-- The members of an object that are listed and not null. -/
def rewriteMembers : List (String × Shape) → Json → Option (List (String × Json))
  | [], _ => some []
  | (key, s) :: fields, j =>
    match nonNull key j with
    | none => rewriteMembers fields j
    | some v => do
      let w ← s.rewrite v
      return put key w (← rewriteMembers fields j)

theorem rewriteMembers_cons {key : String} {s : Shape} {fields : List (String × Shape)} {j v : Json}
    (hv : nonNull key j = some v) {ms : List (String × Json)} :
    rewriteMembers ((key, s) :: fields) j = some ms ↔
      ∃ w ms', s.rewrite v = some w ∧ rewriteMembers fields j = some ms' ∧ ms = put key w ms' := by
  simp only [rewriteMembers, hv]
  constructor
  · intro h
    obtain ⟨w, hw, h⟩ := Option.bind_eq_some_iff.mp h
    obtain ⟨ms', hms', h⟩ := Option.bind_eq_some_iff.mp h
    cases h
    exact ⟨w, ms', hw, hms', rfl⟩
  · rintro ⟨w, ms', hw, hms', rfl⟩
    rw [hw, hms']
    rfl

theorem get_rewriteMembers {fields : List (String × Shape)} {j : Json} {ms : List (String × Json)}
    (h : rewriteMembers fields j = some ms) (k : String) :
    get k ms = (get k fields).bind fun s => (nonNull k j).bind s.rewrite := by
  induction fields generalizing ms with
  | nil => cases h; rfl
  | cons f fields ih =>
    obtain ⟨key, s⟩ := f
    rw [Lib.get]
    cases hv : nonNull key j with
    | none =>
      rw [rewriteMembers, hv] at h
      rw [ih h]
      split_ifs with hk
      · subst hk
        rw [hv]
        cases Lib.get k fields <;> rfl
      · rfl
    | some v =>
      obtain ⟨w, ms', hw, hms', rfl⟩ := (rewriteMembers_cons hv).mp h
      rw [get_put]
      split_ifs with hk
      · subst hk
        rw [hv]
        exact hw.symm
      · exact ih hms'

/-- Every member that is written comes from a listed one. -/
theorem mem_rewriteMembers {fields : List (String × Shape)} {j : Json}
    {ms : List (String × Json)} (h : rewriteMembers fields j = some ms) {m : String × Json}
    (hm : m ∈ ms) : ∃ s v, (m.1, s) ∈ fields ∧ s.rewrite v = some m.2 := by
  induction fields generalizing ms with
  | nil => cases h; cases hm
  | cons f fields ih =>
    obtain ⟨key, s⟩ := f
    cases hv : nonNull key j with
    | none =>
      rw [rewriteMembers, hv] at h
      obtain ⟨s', v, hmem, hw⟩ := ih h hm
      exact ⟨s', v, List.mem_cons_of_mem _ hmem, hw⟩
    | some v =>
      obtain ⟨w, ms', hw, hms', rfl⟩ := (rewriteMembers_cons hv).mp h
      rcases mem_put hm with rfl | hm
      · exact ⟨s, v, List.mem_cons_self .., hw⟩
      · obtain ⟨s', v, hmem, hw⟩ := ih hms' hm
        exact ⟨s', v, List.mem_cons_of_mem _ hmem, hw⟩

theorem sorted_rewriteMembers {fields : List (String × Shape)} {j : Json}
    {ms : List (String × Json)} (h : rewriteMembers fields j = some ms) : Sorted ms := by
  induction fields generalizing ms with
  | nil => cases h; exact List.Pairwise.nil
  | cons f fields ih =>
    obtain ⟨key, s⟩ := f
    cases hv : nonNull key j with
    | none =>
      rw [rewriteMembers, hv] at h
      exact ih h
    | some v =>
      obtain ⟨w, ms', -, hms', rfl⟩ := (rewriteMembers_cons hv).mp h
      exact sorted_put _ _ (ih hms')

theorem rewriteMembers_isSome {fields : List (String × Shape)} {j : Json} :
    (rewriteMembers fields j).isSome = true ↔
      ∀ f ∈ fields, ∀ v, nonNull f.1 j = some v → f.2.Accepts v := by
  induction fields with
  | nil => simp [rewriteMembers]
  | cons f fields ih =>
    obtain ⟨key, s⟩ := f
    rw [List.forall_mem_cons, ← ih]
    cases hv : nonNull key j with
    | none => simp [rewriteMembers, hv]
    | some v =>
      simp only [Option.some.injEq, forall_eq', ← s.accepts, Option.isSome_iff_exists]
      constructor
      · rintro ⟨ms, h⟩
        obtain ⟨w, ms', hw, hms', -⟩ := (rewriteMembers_cons hv).mp h
        exact ⟨⟨w, hw⟩, ⟨ms', hms'⟩⟩
      · rintro ⟨⟨w, hw⟩, ⟨ms', hms'⟩⟩
        exact ⟨_, (rewriteMembers_cons hv).mpr ⟨w, ms', hw, hms', rfl⟩⟩

/-- A member fits a list of members if it is listed, not null, and faithful. -/
def MemberFits (fields : List (String × Shape)) (k : String) (j : Json) : Prop :=
  ∀ v, j.find k = some v → v.isNull = false ∧ ∃ s, get k fields = some s ∧ s.Faithful v

/-- A member comes out as it went in if it fits. -/
theorem memberFits_iff {fields : List (String × Shape)} {k : String} {j : Json} :
    ((get k fields).bind fun s => (nonNull k j).bind s.rewrite) = (j.find k).map reparse ↔
      MemberFits fields k j := by
  unfold MemberFits
  cases hf : j.find k with
  | none =>
    rw [nonNull_eq_none.mpr (Or.inl hf)]
    cases get k fields <;> simp
  | some v =>
    cases hnull : v.isNull with
    | true =>
      rw [nonNull, hf, Option.filter_some_neg (by simp [hnull])]
      cases get k fields <;> simp [hnull]
    | false =>
      rw [nonNull_eq_some.mpr ⟨hf, hnull⟩]
      cases get k fields with
      | none => simp
      | some s =>
        rw [Option.bind_some, Option.bind_some, Option.map_some, s.faithful]
        simp [hnull]

namespace Shape

/-- A model with these members. -/
def object (fields : List (String × Shape)) : Shape where
  rewrite j := if j.isObject then (rewriteMembers fields j).map .obj else none
  Accepts j := j.isObject = true ∧ ∀ f ∈ fields, ∀ v, nonNull f.1 j = some v → f.2.Accepts v
  Faithful j := j.isObject = true ∧ (∀ f ∈ fields, ∀ v, nonNull f.1 j = some v → f.2.Accepts v) ∧
    ∀ k, MemberFits fields k j
  accepts j := by
    rw [← rewriteMembers_isSome]
    split_ifs with h
    · simp [h]
    · simp [h]
  faithful j := by
    rw [← rewriteMembers_isSome]
    cases j with
    | obj members =>
      change (rewriteMembers fields (.obj members)).map Json.obj =
        some (Json.obj (ofMembers (toMembers members))) ↔ _
      have hget : ∀ k, get k (ofMembers (toMembers members)) =
          ((Json.obj members).find k).map reparse := fun k => find_reparse k (.obj members)
      constructor
      · intro h
        obtain ⟨ms, hms, heq⟩ := Option.map_eq_some_iff.mp h
        cases heq
        refine ⟨rfl, by rw [hms]; rfl, fun k => memberFits_iff.mp ?_⟩
        rw [← get_rewriteMembers hms, hget]
      · rintro ⟨-, hsome, hfits⟩
        obtain ⟨ms, hms⟩ := Option.isSome_iff_exists.mp hsome
        rw [hms, Option.map_some]
        refine congrArg (fun m => some (Json.obj m))
          (sorted_ext (sorted_rewriteMembers hms) (sorted_ofMembers _) fun k => ?_)
        rw [get_rewriteMembers hms, hget]
        exact memberFits_iff.mpr (hfits k)
    | _ => simp [Json.isObject]

/-- An object that is written at all comes out as it went in if all its members fit. -/
theorem faithful_of_rewrite {fields : List (String × Shape)} {j w : Json}
    (h : (object fields).rewrite j = some w) :
    (object fields).Faithful j ↔ ∀ k, MemberFits fields k j := by
  have hsome : ((object fields).rewrite j).isSome = true := by rw [h]; rfl
  obtain ⟨hobj, hacc⟩ := ((object fields).accepts j).mp hsome
  exact ⟨fun hf => hf.2.2, fun hfits => ⟨hobj, hacc, hfits⟩⟩

/-- The members of an object that has been written again. -/
theorem find_rewrite {fields : List (String × Shape)} {j w : Json}
    (h : (object fields).rewrite j = some w) (k : String) :
    w.find k = (get k fields).bind fun s => (nonNull k j).bind s.rewrite := by
  change (if j.isObject then (rewriteMembers fields j).map .obj else none) = some w at h
  split_ifs at h
  obtain ⟨ms, hms, rfl⟩ := Option.map_eq_some_iff.mp h
  exact get_rewriteMembers hms k

/-- An array member that has been written again: its elements have, one by one. -/
theorem find_rewrite_array {fields : List (String × Shape)} {j w : Json} {key : String} {s : Shape}
    {items : List Json} (h : (object fields).rewrite j = some w)
    (hkey : get key fields = some (.array s)) (hj : j.find key = some (.arr items)) :
    ∃ items', List.Forall₂ (fun x y => s.rewrite x = some y) items items' ∧
      w.find key = some (.arr items') := by
  have hfind := find_rewrite h key
  rw [hkey, nonNull_eq_some.mpr ⟨hj, rfl⟩] at hfind
  change w.find key = (items.mapM s.rewrite).map Json.arr at hfind
  have hsome := (object fields).accepts j
  rw [h] at hsome
  obtain ⟨-, hacc⟩ := hsome.mp rfl
  have haccepts := hacc (key, .array s) (mem_of_get hkey) _ (nonNull_eq_some.mpr ⟨hj, rfl⟩)
  obtain ⟨_, heq, hall⟩ := haccepts
  cases heq
  have hmap : (items.mapM s.rewrite).isSome = true :=
    mapM_isSome.mpr fun x hx => (s.accepts x).mpr (hall x hx)
  obtain ⟨items', hitems⟩ := Option.isSome_iff_exists.mp hmap
  rw [hitems] at hfind
  exact ⟨items', mapM_some.mp hitems, hfind⟩

/-- A member comes out as it went in exactly if it fits. -/
theorem member_survives_iff {fields : List (String × Shape)} {j w : Json}
    (h : (object fields).rewrite j = some w) (k : String) :
    w.find k = (j.find k).map reparse ↔ MemberFits fields k j := by
  rw [find_rewrite h, memberFits_iff]

/-- The same of a member of an object member. -/
theorem nested_survives_iff {fields inner : List (String × Shape)} {j w : Json} {key : String}
    (h : (object fields).rewrite j = some w) (hkey : get key fields = some (.object inner))
    (k : String) :
    ((w.find key).bind fun v => v.find k) = ((j.find key).bind fun v => v.find k).map reparse ↔
      MemberFits inner k ((j.find key).getD .null) := by
  have hfind := find_rewrite h key
  rw [hkey, Option.bind_some] at hfind
  cases hnull : nonNull key j with
  | none =>
    rw [hnull] at hfind
    have hnone : w.find key = none := hfind
    have hno : ∀ v, ((j.find key).getD .null).find k ≠ some v := fun v => by
      rcases nonNull_eq_none.mp hnull with hf | hf <;> rw [hf] <;> simp [Json.find]
    have hno' : ((j.find key).bind fun v => v.find k) = none := by
      rcases nonNull_eq_none.mp hnull with hf | hf <;> rw [hf] <;> rfl
    rw [hnone, hno']
    exact iff_of_true rfl fun v hv => absurd hv (hno v)
  | some p =>
    obtain ⟨hf, hn⟩ := nonNull_eq_some.mp hnull
    have hsome : ((object fields).rewrite j).isSome = true := by rw [h]; rfl
    obtain ⟨-, hacc⟩ := ((object fields).accepts j).mp hsome
    have haccepts : (object inner).Accepts p := hacc (key, .object inner) (mem_of_get hkey) p hnull
    obtain ⟨p', hp'⟩ := Option.isSome_iff_exists.mp (((object inner).accepts p).mpr haccepts)
    rw [hnull, Option.bind_some, hp'] at hfind
    rw [hfind, hf, Option.bind_some, Option.bind_some, Option.getD_some]
    exact member_survives_iff hp' k

/-- The same of an array member that may be missing. -/
theorem rewrite_arrays {fields : List (String × Shape)} {j w : Json} {key : String} {s : Shape}
    {items : List Json} (h : (object fields).rewrite j = some w)
    (hkey : get key fields = some (.array s)) (hj : (j.find key).getD (.arr []) = .arr items) :
    ∃ items', List.Forall₂ (fun x y => s.rewrite x = some y) items items' ∧
      (w.find key = some (.arr items') ∨ w.find key = none ∧ items' = []) := by
  cases hf : j.find key with
  | none =>
    rw [hf] at hj
    cases hj
    refine ⟨[], .nil, Or.inr ⟨?_, rfl⟩⟩
    rw [find_rewrite h, nonNull_eq_none.mpr (Or.inl hf)]
    cases Lib.get key fields <;> rfl
  | some v =>
    rw [hf] at hj
    cases hj
    obtain ⟨items', hall, hw⟩ := find_rewrite_array h hkey hf
    exact ⟨items', hall, Or.inl hw⟩

/-- A faithful member of a parsed object survives as it is. -/
theorem member_kept {fields : List (String × Shape)} {j w x : Json} {k : String} {s : Shape}
    (h : (object fields).rewrite j = some w) (hp : reparse j = j)
    (hk : get k fields = some s) (hx : j.find k = some x) (hnull : x.isNull = false)
    (hf : s.Faithful x) : w.find k = some x := by
  rw [find_rewrite h, hk, nonNull_eq_some.mpr ⟨hx, hnull⟩]
  change s.rewrite x = some x
  rw [(s.faithful x).mpr hf, parsed_member hp hx]

/-- A member that is written at all is accepted. -/
theorem member_accepted {fields : List (String × Shape)} {j w x : Json} {k : String} {s : Shape}
    (h : (object fields).rewrite j = some w) (hk : get k fields = some s)
    (hx : j.find k = some x) (hnull : x.isNull = false) : s.Accepts x := by
  have hsome : ((object fields).rewrite j).isSome = true := by rw [h]; rfl
  obtain ⟨-, hacc⟩ := ((object fields).accepts j).mp hsome
  exact hacc (k, s) (mem_of_get hk) x (nonNull_eq_some.mpr ⟨hx, hnull⟩)

theorem member_absent {fields : List (String × Shape)} {j w : Json} {k : String}
    (h : (object fields).rewrite j = some w)
    (hx : j.find k = none ∨ j.find k = some .null) : w.find k = none := by
  rw [find_rewrite h, nonNull_eq_none.mpr hx]
  cases get k fields <;> rfl

/-- A listed member is written exactly if it is there and not null. -/
theorem find_isSome_iff {fields : List (String × Shape)} {j w : Json} {k : String} {s : Shape}
    (h : (object fields).rewrite j = some w) (hk : get k fields = some s) :
    (w.find k).isSome = true ↔ (nonNull k j).isSome = true := by
  rw [find_rewrite h, hk, Option.bind_some]
  cases hn : nonNull k j with
  | none => rfl
  | some v =>
    obtain ⟨hv, hnull⟩ := nonNull_eq_some.mp hn
    exact iff_of_true ((s.accepts v).mpr (member_accepted h hk hv hnull)) rfl

/-- An integer member is written as an integer. -/
theorem find_int {fields : List (String × Shape)} {j w v : Json} {k : String} {lo hi : ℤ}
    (h : (object fields).rewrite j = some w) (hk : get k fields = some (.int lo hi))
    (hv : w.find k = some v) : ∃ i, v = ofInt i := by
  rw [find_rewrite h, hk, Option.bind_some] at hv
  obtain ⟨x, -, hx⟩ := Option.bind_eq_some_iff.mp hv
  obtain ⟨i, -, hi⟩ := Option.bind_eq_some_iff.mp hx
  split_ifs at hi
  cases hi
  exact ⟨i, rfl⟩

/-- An object member is written as an object, by its own list of members. -/
theorem find_object {fields inner : List (String × Shape)} {j w v : Json} {k : String}
    (h : (object fields).rewrite j = some w) (hk : get k fields = some (.object inner))
    (hv : w.find k = some v) : ∃ x, nonNull k j = some x ∧ (object inner).rewrite x = some v := by
  rw [find_rewrite h, hk, Option.bind_some] at hv
  exact Option.bind_eq_some_iff.mp hv

theorem rewrite_isObject {fields : List (String × Shape)} {j w : Json}
    (h : (object fields).rewrite j = some w) :
    ∃ m ms, j = .obj m ∧ w = .obj ms ∧ rewriteMembers fields j = some ms := by
  change (if j.isObject then (rewriteMembers fields j).map .obj else none) = some w at h
  split_ifs at h with hobj
  obtain ⟨ms, hms, rfl⟩ := Option.map_eq_some_iff.mp h
  cases j with
  | obj m => exact ⟨m, ms, rfl, rfl, hms⟩
  | _ => cases hobj

end Shape

/-! ### Serializers -/

/-- A serializer does what a shape says, whatever the member is called. -/
def Serializer.Has {α : Type} (S : Serializer α) (s : Shape) : Prop :=
  ∀ name j, ((S.backward name (toValue j)).toOption.map fun a => ofValue (S.forward a)) =
    s.rewrite j

/-- The two integer members, by their range. -/
theorem has_int {S : Serializer ℤ} {lo hi : ℤ}
    (hb : ∀ name i, S.backward name (.int i) =
      if lo ≤ i ∧ i < hi then .ok i else .error (.typeMismatch name))
    (hno : ∀ name v, (∀ i, v ≠ .int i) → S.backward name v = .error (.typeMismatch name))
    (hf : ∀ i, S.forward i = .int i) : S.Has (Shape.int lo hi) := by
  intro name j
  change _ = (Shape.integer? j).bind fun i => if lo ≤ i ∧ i < hi then some (ofInt i) else none
  cases hj : Shape.integer? j with
  | some i =>
    have hv : toValue j = .int i := by cases j <;> cases hj <;> rfl
    rw [hv, hb, Option.bind_some]
    split_ifs
    · change some (ofValue (S.forward i)) = _
      rw [hf]
      rfl
    · rfl
  | none =>
    rw [hno name _ fun i hi => by cases j <;> cases hi <;> cases hj]
    rfl

@[simp] theorem has_int32 : int32.Has (Shape.int (-2 ^ 31) (2 ^ 31)) :=
  has_int (fun _ _ => rfl) (fun _ v hv => by cases v <;> first | rfl | exact absurd rfl (hv _))
    fun _ => rfl

@[simp] theorem has_int64 : int64.Has (Shape.int (-2 ^ 63) (2 ^ 63)) :=
  has_int (fun _ _ => rfl) (fun _ v hv => by cases v <;> first | rfl | exact absurd rfl (hv _))
    fun _ => rfl

@[simp] theorem has_string : string.Has Shape.string := fun _ j => by cases j <;> rfl

@[simp] theorem has_bool : bool.Has Shape.bool := fun _ j => by cases j <;> rfl

@[simp] theorem has_vector {α : Type} {S : Serializer α} {s : Shape} (h : S.Has s) :
    (vector S).Has (Shape.array s) := by
  intro name j
  cases j with
  | arr js =>
    change (((toValues js).mapM (S.backward name)).toOption.map fun items =>
      ofValue (.array (items.map S.forward))) = (js.mapM s.rewrite).map Json.arr
    have hlist : ((toValues js).mapM (S.backward name)).toOption.map
        (fun items => ofValues (items.map S.forward)) = js.mapM s.rewrite := by
      induction js with
      | nil => rfl
      | cons x xs ih =>
        rw [toValues, List.mapM_cons, List.mapM_cons, ← h name x, ← ih, toOption_bind]
        cases (S.backward name (toValue x)).toOption with
        | none => rfl
        | some a =>
          rw [Option.bind_some, toOption_bind]
          cases ((toValues xs).mapM (S.backward name)).toOption <;> rfl
    rw [← hlist, Option.map_map]
    rfl
  | _ => rfl

/-! ### Models -/

variable {α : Type}

/-- A field reads and writes the member `key` by the shape `s`, and starts out unset. -/
structure Field.Follows (f : Field α) (e : String × Shape) : Prop where
  absent : ∀ {j a}, j.isObject = true → nonNull e.1 j = none → f.backward (toValue j) a = .ok a
  present : ∀ {j v} (a : α), j.isObject = true → nonNull e.1 j = some v →
    (∃ a' u, f.backward (toValue j) a = .ok a' ∧ f.forward a' = [(e.1, u)] ∧
      e.2.rewrite v = some (ofValue u)) ∨
    (∃ err, f.backward (toValue j) a = .error err) ∧ e.2.rewrite v = none
  noObject : ∀ {j} (a : α), j.isObject = false → ∃ err, f.backward (toValue j) a = .error err

/-- Reading the one field does not change what the other one writes. -/
def Field.Apart (f g : Field α) : Prop :=
  ∀ {v a a'}, f.backward v a = .ok a' → g.forward a' = g.forward a

theorem isObject_toValue (j : Json) : (toValue j).isObject = j.isObject := by
  cases j <;> rfl

theorem toValue_eq_null {j : Json} : toValue j = .null ↔ j = .null := by
  cases j <;> simp [toValue]

/-- An `absl::optional` member follows the shape of its serializer. -/
@[simp] theorem follows_optional {β : Type} {name : String} {S : Serializer β} {s : Shape}
    {g : α → Option β} {set : α → Option β → α} (hS : S.Has s)
    (hg : ∀ a b, g (set a (some b)) = some b) :
    (optional name S g set).Follows (name, s) := by
  constructor
  · intro j a hobj hnone
    simp only [optional, isObject_toValue, hobj, if_true, findMember_toValue]
    rcases nonNull_eq_none.mp hnone with h | h
    · rw [h]; rfl
    · rw [h]; rfl
  · intro j v a hobj hsome
    obtain ⟨hfind, hnull⟩ := nonNull_eq_some.mp hsome
    have hne : toValue v ≠ .null := fun h => by
      rw [toValue_eq_null.mp h] at hnull
      cases hnull
    have hb : (optional name S g set).backward (toValue j) a =
        (S.backward name (toValue v)).map fun b => set a (some b) := by
      simp only [optional, isObject_toValue, hobj, if_true, findMember_toValue, hfind,
        Option.map_some]
      cases S.backward name (toValue v) <;> rfl
    have hv := hS name v
    rw [hb]
    cases hread : S.backward name (toValue v) with
    | error err =>
      rw [hread] at hv
      exact Or.inr ⟨⟨err, rfl⟩, hv.symm⟩
    | ok b =>
      rw [hread] at hv
      refine Or.inl ⟨set a (some b), S.forward b, rfl, ?_, hv.symm⟩
      simp only [optional, hg]
  · intro j a hobj
    simp only [optional, isObject_toValue, hobj]
    exact ⟨_, rfl⟩

@[simp] theorem apart_optional {β γ : Type} {n m : String} {S : Serializer β} {T : Serializer γ}
    {g : α → Option β} {set : α → Option β → α} {g' : α → Option γ} {set' : α → Option γ → α}
    (h : ∀ a b, g' (set a b) = g' a) :
    (optional n S g set).Apart (optional m T g' set') := by
  intro v a a' hread
  have ha : a' = a ∨ ∃ b, a' = set a b := by
    simp only [optional] at hread
    split at hread
    · split at hread
      · cases hread; exact Or.inl rfl
      · cases hread; exact Or.inl rfl
      · obtain ⟨b, -, hb⟩ := bind_ok.mp hread
        cases hb
        exact Or.inr ⟨some b, rfl⟩
    · cases hread
  rcases ha with rfl | ⟨b, rfl⟩
  · rfl
  · simp only [optional, h]

@[simp] theorem forward_optional_none {β : Type} {name : String} {S : Serializer β}
    {g : α → Option β} {set : α → Option β → α} {a : α} (h : g a = none) :
    (optional name S g set).forward a = [] := by
  simp only [optional, h]

/-- Fields that do not disturb each other. -/
def Separate (fs : List (Field α)) : Prop := fs.Pairwise fun f g => f.Apart g ∧ g.Apart f

/-- Reading fields that follow their shapes, from an object in which they are unset, leaves what
    the shapes say, and nothing else is disturbed. -/
theorem readFields_follows {fs : List (Field α)} {fields : List (String × Shape)}
    (hf : List.Forall₂ Field.Follows fs fields) (hs : Separate fs) {j : Json}
    (hobj : j.isObject = true) {a : α} (hfresh : ∀ f ∈ fs, f.forward a = []) :
    (∃ a', readFields fs (toValue j) a = (a', none) ∧
        rewriteMembers fields j = some (ofMembers (fs.flatMap fun f => f.forward a')) ∧
        ∀ g : Field α, (∀ f ∈ fs, f.Apart g) → g.forward a' = g.forward a) ∨
      ((readFields fs (toValue j) a).2.isSome = true ∧ rewriteMembers fields j = none) := by
  induction hf generalizing a with
  | nil => exact Or.inl ⟨a, rfl, rfl, fun _ _ => rfl⟩
  | @cons f e fs fields hfe _ ih =>
    obtain ⟨hapart, hs⟩ := List.pairwise_cons.mp hs
    obtain ⟨key, s⟩ := e
    -- the rest of the fields, from the object `a₁` that the first one leaves
    have hrest : ∀ a₁, f.backward (toValue j) a = .ok a₁ →
        (∃ a', readFields (f :: fs) (toValue j) a = (a', none) ∧ f.forward a' = f.forward a₁ ∧
          rewriteMembers fields j = some (ofMembers (fs.flatMap fun f => f.forward a')) ∧
          ∀ g : Field α, (∀ f' ∈ f :: fs, f'.Apart g) → g.forward a' = g.forward a) ∨
        ((readFields (f :: fs) (toValue j) a).2.isSome = true ∧ rewriteMembers fields j = none) := by
      intro a₁ ha₁
      rw [readFields, ha₁]
      have hfresh₁ : ∀ g ∈ fs, g.forward a₁ = [] := fun g hg =>
        ((hapart g hg).1 ha₁).trans (hfresh g (List.mem_cons_of_mem _ hg))
      rcases ih hs hfresh₁ with ⟨a', hread, hms, hkeep⟩ | hfail
      · refine Or.inl ⟨a', hread, hkeep f fun g hg => (hapart g hg).2, hms, fun g hg => ?_⟩
        rw [hkeep g fun f' hf' => hg f' (List.mem_cons_of_mem _ hf')]
        exact hg f (List.mem_cons_self ..) ha₁
      · exact Or.inr hfail
    cases hv : nonNull key j with
    | none =>
      have hread := hfe.absent (a := a) hobj hv
      simp only [rewriteMembers, hv]
      rcases hrest a hread with ⟨a', hread', hsame, hms, hkeep⟩ | hfail
      · refine Or.inl ⟨a', hread', ?_, hkeep⟩
        rw [hms, List.flatMap_cons, hsame, hfresh f (List.mem_cons_self ..)]
        rfl
      · exact Or.inr hfail
    | some v =>
      rcases hfe.present a hobj hv with ⟨a₁, u, hread, hfwd, hw⟩ | ⟨⟨err, hread⟩, hw⟩
      · rcases hrest a₁ hread with ⟨a', hread', hsame, hms, hkeep⟩ | ⟨hfail, hnone⟩
        · refine Or.inl ⟨a', hread', ?_, hkeep⟩
          rw [(rewriteMembers_cons hv).mpr ⟨_, _, hw, hms, rfl⟩, List.flatMap_cons, hsame, hfwd]
          rfl
        · refine Or.inr ⟨hfail, ?_⟩
          simp only [rewriteMembers, hv]
          rw [hnone, hw]
          rfl
      · refine Or.inr ⟨?_, ?_⟩
        · rw [readFields, hread]
          rfl
        · simp only [rewriteMembers, hv]
          rw [hw]
          rfl

/-- The table of a model: its fields follow it, do not disturb each other, and start out unset. -/
def Tabulated (fs : List (Field α)) (init : α) (fields : List (String × Shape)) : Prop :=
  List.Forall₂ Field.Follows fs fields ∧ Separate fs ∧ (∀ f ∈ fs, f.forward init = []) ∧
    fields ≠ []

/-- A model with a table has the shape of an object. -/
theorem has_model [Model α] {fields : List (String × Shape)}
    (h : Tabulated (Model.fields : List (Field α)) Model.init fields) :
    (model α).Has (Shape.object fields) := by
  obtain ⟨hf, hs, hfresh, hne⟩ := h
  intro name j
  change (((model α).backward name (toValue j)).toOption.map fun a => ofValue (jserialize a)) =
    if j.isObject then (rewriteMembers fields j).map Json.obj else none
  have hback : ∀ r, (jdeserialize (toValue j) : α × Option JsonError) = r →
      ((model α).backward name (toValue j)).toOption = if r.2.isSome then none else some r.1 := by
    rintro ⟨a, e⟩ hr
    simp only [model, hr]
    cases e <;> rfl
  cases hobj : j.isObject with
  | true =>
    rcases readFields_follows hf hs hobj hfresh with ⟨a, hread, hms, -⟩ | ⟨hfail, hms⟩
    · rw [hback _ hread, hms]
      rfl
    · have hfail' : (jdeserialize (toValue j) : α × Option JsonError).2.isSome = true := hfail
      rw [hback _ rfl, hms, hfail']
      rfl
  | false =>
    obtain ⟨f, fs, hcons⟩ : ∃ f fs, (Model.fields : List (Field α)) = f :: fs := by
      cases hfields : (Model.fields : List (Field α)) with
      | nil =>
        rw [hfields] at hf
        cases hf
        exact absurd rfl hne
      | cons f fs => exact ⟨f, fs, rfl⟩
    rw [hcons] at hf
    cases hf with
    | cons hfe _ =>
      obtain ⟨err, herr⟩ := hfe.noObject (Model.init : α) hobj
      have hread : (jdeserialize (toValue j) : α × Option JsonError) = (Model.init, some err) := by
        rw [jdeserialize, hcons, readFields, herr]
      rw [hback _ hread]
      rfl

/-- `fromJsonString<α>(j.dump(), err)` and, if there is no error, what `toJsonStr` writes of it. -/
def reencode (α : Type) [Model α] (j : Json) : Option Json :=
  match (jdeserialize (toValue j) : α × Option JsonError) with
  | (a, none) => some (ofValue (jserialize a))
  | (_, some _) => none

theorem reencode_eq [Model α] {s : Shape} (h : (model α).Has s) (j : Json) :
    reencode α j = s.rewrite j := by
  rw [← h "" j, reencode]
  simp only [model]
  rcases (jdeserialize (toValue j) : α × Option JsonError) with ⟨a, e⟩
  cases e <;> rfl

end MediasoupClient.Signaling
