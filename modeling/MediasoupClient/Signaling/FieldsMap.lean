import MediasoupClient.Signaling.Serialization
import Mathlib.Algebra.BigOperators.Group.List.Basic
import Mathlib.Algebra.GroupWithZero.Nat
import Mathlib.Data.List.Basic

/-! Models of every type (json/serialization.hpp, json/jsonable.hpp).

    What the templates do with a member is decided by its type alone:

        bool, int, int64_t, double, std::string      JsonSerializerPod, JsonValueAdapter
        std::vector of these, to any depth           JsonSerializerPod, JsonValueAdapter
        a model                                      JsonSerializer
        std::vector of models                        JsonSerializerVector
        absl::optional of any of them                JsonSerializer<optional>

    so the types of members are a datatype here, and reading and writing are functions on it. A text
    is written with its length and read up to its first NUL, an optional writes nothing if it is
    unset, and a member that the FIELDS_MAP does not list is not written at all: a model comes back as
    it was exactly if nothing of this loses anything. -/

namespace MediasoupClient.Signaling
open Lib

/-! ### Types and values -/

/-- The types that JsonValueAdapter knows. -/
inductive Native where
  | bool
  | int
  | int64
  | double
  | string
  | vector (item : Native)

mutual

/-- The type of a member. -/
inductive Member where
  | native (type : Native)
  | model (fields : Fields)
  | vector (fields : Fields)
  | optional (member : Member)

/-- The members of a struct, in the order of its `FIELDS_MAP`. An optional member may be left out of
    the map. -/
inductive Fields where
  | nil
  | listed (key : String) (member : Member) (fields : Fields)
  | unlisted (member : Member) (fields : Fields)

end

/-- A value of a native type. A double is a finite one. -/
def Native.Val : Native → Type
  | .bool => Bool
  | .int => Int32
  | .int64 => Int64
  | .double => ℚ
  | .string => String
  | .vector item => List item.Val

mutual

def Member.Val : Member → Type
  | .native type => type.Val
  | .model fields => fields.Val
  | .vector fields => List fields.Val
  | .optional member => Option member.Val

def Fields.Val : Fields → Type
  | .nil => Unit
  | .listed _ member fields => member.Val × fields.Val
  | .unlisted member fields => Option member.Val × fields.Val

end

/-- A value before it is read. -/
def Native.init : (type : Native) → type.Val
  | .bool => false
  | .int => (0 : Int32)
  | .int64 => (0 : Int64)
  | .double => (0 : ℚ)
  | .string => ""
  | .vector _ => []

mutual

def Member.init : (member : Member) → member.Val
  | .native type => type.init
  | .model fields => fields.init
  | .vector _ => []
  | .optional _ => none

def Fields.init : (fields : Fields) → fields.Val
  | .nil => ()
  | .listed _ member fields => (member.init, fields.init)
  | .unlisted _ fields => (none, fields.init)

end

/-! ### Writing -/

/-- `value.size()`. -/
def byteSize (s : String) : ℕ := (s.toList.map Char.utf8Size).sum

/-- The characters that fit into `n` bytes. -/
def takeBytes : ℕ → List Char → List Char
  | _, [] => []
  | n, c :: cs => if c.utf8Size ≤ n then c :: takeBytes (n - c.utf8Size) cs else []

/-- The text of `(SizeType)value.size()` bytes. A character that is cut in two is left out. -/
def sized (s : String) : String := String.ofList (takeBytes (byteSize s % 2 ^ 32) s.toList)

/-- `JsonValueAdapter::set`. -/
def Native.set : (type : Native) → type.Val → Value
  | .bool, b => .bool b
  | .int, i => .int (Int32.toInt i)
  | .int64, i => .int (Int64.toInt i)
  | .double, q => .double q
  | .string, s => .string (sized s)
  | .vector item, items => .array (items.map item.set)

mutual

/-- `forward`: the members that are added to the object. -/
def Member.forward (name : String) : (member : Member) → member.Val → List (String × Value)
  | .native type, v => [(name, type.set v)]
  | .model fields, v => [(name, .object (fields.forward v))]
  | .vector fields, items => [(name, .array (items.map fun item => .object (fields.forward item)))]
  | .optional _, none => []
  | .optional member, some v => member.forward name v

/-- `json_serialize(jlist, name, value, tail...)`. -/
def Fields.forward : (fields : Fields) → fields.Val → List (String × Value)
  | .nil, _ => []
  | .listed key member fields, (v, rest) => member.forward key v ++ fields.forward rest
  | .unlisted _ fields, (_, rest) => fields.forward rest

end

/-! ### Reading -/

/-- What ends a reading: an exception of the library, or an assertion of rapidjson. -/
inductive ReadError where
  | thrown (e : JsonError)
  | undefined

/-- The items are pushed back one by one, until one of them cannot be read. -/
def readItems {β : Type} (read : Value → β × Option ReadError) :
    List Value → List β → List β × Option ReadError
  | [], acc => (acc, none)
  | j :: js, acc =>
    match read j with
    | (v, none) => readItems read js (acc ++ [v])
    | (_, some e) => (acc, some e)

/-- `JsonValueAdapter::operator()`: the value after it, and what was thrown. -/
def Native.read (name : String) : (type : Native) → Value → type.Val → type.Val × Option ReadError
  | .bool, j, current =>
    match j with
    | .bool b => (b, none)
    | _ => (current, some (.thrown (.typeMismatch name)))
  | .int, j, current =>
    match j with
    | .int i =>
      if -2 ^ 31 ≤ i ∧ i < 2 ^ 31 then (Int32.ofInt i, none)
      else (current, some (.thrown (.typeMismatch name)))
    | _ => (current, some (.thrown (.typeMismatch name)))
  | .int64, j, current =>
    match j with
    | .int i =>
      if -2 ^ 63 ≤ i ∧ i < 2 ^ 63 then (Int64.ofInt i, none)
      else (current, some (.thrown (.typeMismatch name)))
    | _ => (current, some (.thrown (.typeMismatch name)))
  | .double, j, current =>
    match j with
    | .double q => (q, none)
    | _ => (current, some (.thrown (.typeMismatch name)))
  | .string, j, current =>
    match j with
    | .string s => (cstr s, none)
    | _ => (current, some (.thrown (.typeMismatch name)))
  | .vector item, j, current =>
    match j with
    | .array items => readItems (fun j => item.read name j item.init) items []
    | _ => (current, some (.thrown (.typeMismatch name)))

mutual

/-- `backward`: the member after it, and what was thrown. -/
def Member.backward (name : String) :
    (member : Member) → Value → member.Val → member.Val × Option ReadError
  | .native type, jlist, current =>
    if jlist.isObject then
      match jlist.findMember name with
      | none => (current, some (.thrown (.missingKey name)))
      | some j => type.read name j current
    else (current, some .undefined)
  | .model fields, jlist, current =>
    if jlist.isObject then
      match jlist.findMember name with
      | none => (current, some (.thrown (.missingKey name)))
      | some j => fields.backward j current
    else (current, some (.thrown (.typeMismatch name)))
  | .vector fields, jlist, _ =>
    if jlist.isObject then
      match jlist.findMember name with
      | none => ([], none)
      | some (.array items) => readItems (fun j => fields.backward j fields.init) items []
      | some _ => ([], some (.thrown (.typeMismatch name)))
    else ([], some .undefined)
  | .optional member, jlist, current =>
    if jlist.isObject then
      match jlist.findMember name with
      | none => (current, none)
      | some .null => (current, none)
      | some _ =>
        match member.backward name jlist member.init with
        | (v, none) => (some v, none)
        | (_, some e) => (current, some e)
    else (current, some (.thrown (.typeMismatch name)))

/-- `json_deserialize(jlist, name, value, tail...)`: it stops at the first member that throws. -/
def Fields.backward : (fields : Fields) → Value → fields.Val → fields.Val × Option ReadError
  | .nil, _, _ => ((), none)
  | .listed key member fields, jlist, (v, rest) =>
    match member.backward key jlist v with
    | (v, none) =>
      let (rest, e) := fields.backward jlist rest
      ((v, rest), e)
    | (v, some e) => ((v, rest), some e)
  | .unlisted _ fields, jlist, (v, rest) =>
    let (rest, e) := fields.backward jlist rest
    ((v, rest), e)

end

/-! ### Models -/

/-- The keys of a `FIELDS_MAP`. -/
def Fields.keys : Fields → List String
  | .nil => []
  | .listed key _ fields => key :: fields.keys
  | .unlisted _ fields => fields.keys

mutual

def Member.Distinct : Member → Prop
  | .native _ => True
  | .model fields => fields.Distinct
  | .vector fields => fields.Distinct
  | .optional member => member.Distinct

/-- A key names one member, in every model of the members too. -/
def Fields.Distinct : Fields → Prop
  | .nil => True
  | .listed key member fields => key ∉ fields.keys ∧ member.Distinct ∧ fields.Distinct
  | .unlisted member fields => member.Distinct ∧ fields.Distinct

end

/-- A struct with a `FIELDS_MAP` and no default initialisers. -/
structure ModelType where
  fields : Fields
  distinct : fields.Distinct

namespace ModelType
variable (T : ModelType)

abbrev Val : Type := T.fields.Val

def jserialize (m : T.Val) : Value := .object (T.fields.forward m)

/-- `toJsonStr`: what rapidjson writes, as a C string. -/
def toJsonStr (write : Value → String) (m : T.Val) : String := cstr (write (T.jserialize m))

/-- `fromJsonString(data, error)`: the object and the error; none if an assertion fails. -/
def fromJsonString (parse : String → Option Value) (data : String) :
    Option (T.Val × Option JsonError) :=
  match parse (cstr data) with
  | none => some (T.fields.init, some .parsingFailed)
  | some json =>
    match T.fields.backward json T.fields.init with
    | (m, none) => some (m, none)
    | (m, some (.thrown e)) => some (m, some e)
    | (_, some .undefined) => none

end ModelType

/-! ### What survives -/

/-- Texts survive without a NUL, and if their size fits into 32 bits. -/
def Native.Survives : (type : Native) → type.Val → Prop
  | .string, s => Char.ofNat 0 ∉ String.toList s ∧ byteSize s < 2 ^ 32
  | .vector item, items => (items : List item.Val).Forall item.Survives
  | _, _ => True

/-- Something is written for the member. -/
def Member.Present : (member : Member) → member.Val → Prop
  | .optional _, none => False
  | .optional member, some v => member.Present v
  | _, _ => True

mutual

/-- An optional survives if something is written for its value. -/
def Member.Survives : (member : Member) → member.Val → Prop
  | .native type, v => type.Survives v
  | .model fields, v => fields.Survives v
  | .vector fields, items => (items : List fields.Val).Forall fields.Survives
  | .optional _, none => True
  | .optional member, some v => member.Present v ∧ member.Survives v

/-- A member that is not listed survives if it is unset. -/
def Fields.Survives : (fields : Fields) → fields.Val → Prop
  | .nil, _ => True
  | .listed _ member fields, (v, rest) => member.Survives v ∧ fields.Survives rest
  | .unlisted _ fields, (v, rest) => v = none ∧ fields.Survives rest

end

/-! ### What comes back -/

/-- A text as it is read back. -/
def Native.back : (type : Native) → type.Val → type.Val
  | .string, s => cstr (sized s)
  | .vector item, items => (items : List item.Val).map item.back
  | .bool, b => b
  | .int, i => i
  | .int64, i => i
  | .double, q => q

mutual

/-- A member as it is read back, if anything is written for it. -/
def Member.back : (member : Member) → member.Val → Option member.Val
  | .native type, v => some (type.back v)
  | .model fields, v => some (fields.back v)
  | .vector fields, items => some ((items : List fields.Val).map fields.back)
  | .optional _, none => none
  | .optional member, some v => (member.back v).map some

/-- A model as it is read back: what is not written is as before it is read. -/
def Fields.back : (fields : Fields) → fields.Val → fields.Val
  | .nil, _ => ()
  | .listed _ member fields, (v, rest) => ((member.back v).getD member.init, fields.back rest)
  | .unlisted _ fields, (_, rest) => (none, fields.back rest)

end

/-! ### Texts -/

theorem takeBytes_all {n : ℕ} {cs : List Char} (h : (cs.map Char.utf8Size).sum ≤ n) :
    takeBytes n cs = cs := by
  induction cs generalizing n with
  | nil => rfl
  | cons c cs ih =>
    rw [List.map_cons, List.sum_cons] at h
    rw [takeBytes, if_pos (by omega), ih (by omega)]

theorem takeBytes_le (n : ℕ) (cs : List Char) : ((takeBytes n cs).map Char.utf8Size).sum ≤ n := by
  induction cs generalizing n with
  | nil => exact Nat.zero_le n
  | cons c cs ih =>
    rw [takeBytes]
    split_ifs with hle
    · have := ih (n - c.utf8Size)
      rw [List.map_cons, List.sum_cons]
      omega
    · exact Nat.zero_le n

theorem byteSize_cstr_le (s : String) : byteSize (cstr s) ≤ byteSize s := by
  have hsplit := List.takeWhile_append_dropWhile (p := (· ≠ Char.ofNat 0)) (l := s.toList)
  unfold byteSize cstr
  rw [String.toList_ofList]
  conv_rhs => rw [← hsplit, List.map_append, List.sum_append]
  exact Nat.le_add_right _ _

theorem sized_eq {s : String} (h : byteSize s < 2 ^ 32) : sized s = s := by
  have hall : takeBytes (byteSize s) s.toList = s.toList := takeBytes_all (Nat.le_refl _)
  rw [sized, Nat.mod_eq_of_lt h, hall, String.ofList_toList]

theorem cstr_eq {s : String} (h : Char.ofNat 0 ∉ s.toList) : cstr s = s :=
  Classical.byContradiction fun hne => h (nul_mem_of_cstr_ne hne)

/-- A text comes back if it has no NUL and is not too long. -/
theorem cstr_sized_iff {s : String} :
    cstr (sized s) = s ↔ Char.ofNat 0 ∉ s.toList ∧ byteSize s < 2 ^ 32 := by
  constructor
  · intro h
    have hle := byteSize_cstr_le (sized s)
    have hshort : byteSize (sized s) ≤ byteSize s % 2 ^ 32 := by
      rw [byteSize, sized, String.toList_ofList]
      exact takeBytes_le _ _
    have hlt := Nat.mod_lt (byteSize s) (show 0 < 2 ^ 32 by decide)
    rw [h] at hle
    have hsize : byteSize s < 2 ^ 32 := by omega
    rw [sized_eq hsize] at h
    exact ⟨h ▸ nul_notMem_cstr s, hsize⟩
  · rintro ⟨hnul, hsize⟩
    rw [sized_eq hsize, cstr_eq hnul]

/-! ### Native members -/

theorem readItems_map {α β : Type} {read : Value → β × Option ReadError} {w : α → Value} {b : α → β}
    (items : List α) (h : ∀ v, read (w v) = (b v, none)) (acc : List β) :
    readItems read (items.map w) acc = (acc ++ items.map b, none) := by
  induction items generalizing acc with
  | nil => simp [readItems]
  | cons v items ih =>
    rw [List.map_cons, readItems, h]
    simp [ih]

theorem int32_read (i : Int32) (e : Int32 × Option ReadError) :
    (if -2 ^ 31 ≤ i.toInt ∧ i.toInt < 2 ^ 31 then (Int32.ofInt i.toInt, none) else e) =
      (i, none) := by
  rw [if_pos ⟨Int32.le_toInt i, Int32.toInt_lt i⟩, Int32.ofInt_toInt]

theorem int64_read (i : Int64) (e : Int64 × Option ReadError) :
    (if -2 ^ 63 ≤ i.toInt ∧ i.toInt < 2 ^ 63 then (Int64.ofInt i.toInt, none) else e) =
      (i, none) := by
  rw [if_pos ⟨Int64.le_toInt i, Int64.toInt_lt i⟩, Int64.ofInt_toInt]

theorem Native.read_set (name : String) : ∀ (type : Native) (v current : type.Val),
    type.read name (type.set v) current = (type.back v, none)
  | .bool, _, _ => rfl
  | .double, _, _ => rfl
  | .string, _, _ => rfl
  | .int, i, _ => int32_read i _
  | .int64, i, _ => int64_read i _
  | .vector item, items, _ => readItems_map items (fun v => Native.read_set name item v item.init) []

theorem Native.set_ne_null : ∀ (type : Native) (v : type.Val), type.set v ≠ .null
  | .bool, _ => fun h => by cases h
  | .int, _ => fun h => by cases h
  | .int64, _ => fun h => by cases h
  | .double, _ => fun h => by cases h
  | .string, _ => fun h => by cases h
  | .vector _, _ => fun h => by cases h

theorem map_back_iff {α : Type} {back : α → α} {Survives : α → Prop}
    (h : ∀ v, back v = v ↔ Survives v) (items : List α) :
    items.map back = items ↔ items.Forall Survives := by
  induction items with
  | nil => simp
  | cons v items ih => rw [List.map_cons, List.cons.injEq, h, ih, List.forall_cons]

theorem Native.back_iff : ∀ (type : Native) (v : type.Val), type.back v = v ↔ type.Survives v
  | .bool, _ => iff_of_true rfl trivial
  | .int, _ => iff_of_true rfl trivial
  | .int64, _ => iff_of_true rfl trivial
  | .double, _ => iff_of_true rfl trivial
  | .string, _ => cstr_sized_iff
  | .vector item, items => map_back_iff (Native.back_iff item) items

/-! ### Members of an object -/

/-- Nothing is written for an unset optional, and one member that is not null for everything else. -/
theorem Member.written (name : String) : ∀ (member : Member) (v : member.Val),
    (member.forward name v = [] ∧ member.back v = none ∧ ¬ member.Present v) ∨
      ∃ w, w ≠ Value.null ∧ member.forward name v = [(name, w)] ∧
        (member.back v).isSome = true ∧ member.Present v
  | .native type, v => Or.inr ⟨type.set v, type.set_ne_null v, rfl, rfl, trivial⟩
  | .model fields, v =>
    Or.inr ⟨.object (fields.forward v), (fun h => by cases h), rfl, rfl, trivial⟩
  | .vector _, _ => Or.inr ⟨.array _, (fun h => by cases h), rfl, rfl, trivial⟩
  | .optional _, none => Or.inl ⟨rfl, rfl, id⟩
  | .optional member, some v => by
    rcases Member.written name member v with ⟨hforward, hback, hno⟩ | ⟨w, hw, hforward, hback, hyes⟩
    · exact Or.inl ⟨hforward, by rw [Member.back, hback]; rfl, hno⟩
    · obtain ⟨x, hx⟩ := Option.isSome_iff_exists.mp hback
      exact Or.inr ⟨w, hw, hforward, by rw [Member.back, hx]; rfl, hyes⟩

theorem Member.get_forward {k name : String} (hne : k ≠ name) (member : Member) (v : member.Val) :
    get k (member.forward name v) = none := by
  rcases Member.written name member v with ⟨hforward, -⟩ | ⟨w, -, hforward, -⟩
  · rw [hforward]
    rfl
  · rw [hforward, Lib.get, if_neg hne]
    rfl

theorem Fields.get_forward {k : String} : ∀ (fields : Fields) (v : fields.Val), k ∉ fields.keys →
    get k (fields.forward v) = none
  | .nil, _, _ => rfl
  | .listed key member fields, (v, rest), h => by
    rw [Fields.keys, List.mem_cons, not_or] at h
    rw [Fields.forward, get_append, member.get_forward h.1, Fields.get_forward fields rest h.2]
    rfl
  | .unlisted _ fields, (_, rest), h => Fields.get_forward fields rest h

/-- The object has the members that are written for the fields, and no others with their keys. -/
def Fields.Agrees (ms : List (String × Value)) : (fields : Fields) → fields.Val → Prop
  | .nil, _ => True
  | .listed key member fields, (v, rest) =>
    get key ms = get key (member.forward key v) ∧ fields.Agrees ms rest
  | .unlisted _ fields, (_, rest) => fields.Agrees ms rest

theorem Fields.Agrees.append {front ms : List (String × Value)} :
    ∀ (fields : Fields) (v : fields.Val), (∀ k ∈ fields.keys, get k front = none) →
      fields.Agrees ms v → fields.Agrees (front ++ ms) v
  | .nil, _, _, _ => trivial
  | .listed key _ fields, (_, rest), hfront, h => by
    refine ⟨?_, Fields.Agrees.append fields rest
      (fun k hk => hfront k (List.mem_cons_of_mem _ hk)) h.2⟩
    rw [get_append, hfront key (List.mem_cons_self ..)]
    exact h.1
  | .unlisted _ fields, (_, rest), hfront, h => Fields.Agrees.append fields rest hfront h

theorem Fields.agrees_forward : ∀ (fields : Fields) (v : fields.Val), fields.Distinct →
    fields.Agrees (fields.forward v) v
  | .nil, _, _ => trivial
  | .listed key member fields, (v, rest), h => by
    obtain ⟨hkey, -, hrest⟩ := h
    refine ⟨?_, Fields.Agrees.append fields rest (fun k hk => ?_)
      (Fields.agrees_forward fields rest hrest)⟩
    · rw [Fields.forward, get_append, Fields.get_forward fields rest hkey, Option.or_none]
    · have hne : k ≠ key := fun heq => hkey (by rw [← heq]; exact hk)
      exact member.get_forward hne v
  | .unlisted _ fields, (_, rest), h => Fields.agrees_forward fields rest h.2

/-! ### The round trip -/

mutual

/-- A member that is read back. -/
theorem Member.backward_forward (name : String) : ∀ (member : Member) (v : member.Val)
    (ms : List (String × Value)), member.Distinct →
      get name ms = get name (member.forward name v) →
        member.backward name (.object ms) member.init = ((member.back v).getD member.init, none)
  | .native type, v, ms, _, h => by
    have hget : get name ms = some (type.set v) := by rw [h, Member.forward, Lib.get, if_pos rfl]
    simp only [Member.backward, Value.isObject, Value.findMember, hget]
    exact type.read_set name v _
  | .model fields, v, ms, hd, h => by
    have hget : get name ms = some (.object (fields.forward v)) := by
      rw [h, Member.forward, Lib.get, if_pos rfl]
    simp only [Member.backward, Value.isObject, Value.findMember, hget]
    exact Fields.backward_forward fields v _ hd (fields.agrees_forward v hd)
  | .vector fields, items, ms, hd, h => by
    have hget : get name ms = some (.array
        ((items : List fields.Val).map fun item => .object (fields.forward item))) := by
      rw [h, Member.forward, Lib.get, if_pos rfl]
    simp only [Member.backward, Value.isObject, Value.findMember, hget]
    exact readItems_map (items : List fields.Val)
      (fun v => Fields.backward_forward fields v _ hd (fields.agrees_forward v hd)) []
  | .optional member, none, ms, _, h => by
    have hget : get name ms = none := h
    simp only [Member.backward, Value.isObject, Value.findMember, hget]
    rfl
  | .optional member, some v, ms, hd, h => by
    have hrec := Member.backward_forward name member v ms hd h
    rcases Member.written name member v with ⟨hforward, hback, -⟩ | ⟨w, hw, hforward, hback, -⟩
    · have hget : get name ms = none := by rw [h, Member.forward, hforward]; rfl
      simp only [Member.backward, Value.isObject, Value.findMember, hget, Member.back,
        hback]
      rfl
    · have hget : get name ms = some w := by
        rw [h, Member.forward, hforward, Lib.get, if_pos rfl]
      obtain ⟨x, hx⟩ := Option.isSome_iff_exists.mp hback
      rw [hx] at hrec
      simp only [Member.backward, Value.isObject, Value.findMember, hget, hrec, Member.back,
        hx]
      cases w with
      | null => exact absurd rfl hw
      | _ => rfl

/-- A model that is read back. -/
theorem Fields.backward_forward : ∀ (fields : Fields) (v : fields.Val)
    (ms : List (String × Value)), fields.Distinct → fields.Agrees ms v →
      fields.backward (.object ms) fields.init = (fields.back v, none)
  | .nil, _, _, _, _ => rfl
  | .listed key member fields, (v, rest), ms, hd, h => by
    have hfirst := Member.backward_forward key member v ms hd.2.1 h.1
    have hrest := Fields.backward_forward fields rest ms hd.2.2 h.2
    simp only [Fields.backward, Fields.init, hfirst, hrest, Fields.back]
  | .unlisted _ fields, (_, rest), ms, hd, h => by
    have hrest := Fields.backward_forward fields rest ms hd.2 h
    simp only [Fields.backward, Fields.init, hrest, Fields.back]

end

mutual

/-- A member comes back as it was. -/
theorem Member.back_iff : ∀ (member : Member) (v : member.Val),
    (member.back v).getD member.init = v ↔ member.Survives v
  | .native type, v => type.back_iff v
  | .model fields, v => Fields.back_iff fields v
  | .vector fields, items => map_back_iff (Fields.back_iff fields) items
  | .optional _, none => iff_of_true rfl trivial
  | .optional member, some v => by
    have hrec := Member.back_iff member v
    rcases Member.written "" member v with ⟨-, hback, hno⟩ | ⟨-, -, -, hback, hyes⟩
    · rw [Member.back, hback]
      exact iff_of_false (fun h => by cases h) (fun h => hno h.1)
    · obtain ⟨x, hx⟩ := Option.isSome_iff_exists.mp hback
      rw [hx] at hrec
      have hsome : some x = some v ↔ member.Survives v := Option.some_inj.trans hrec
      rw [Member.back, hx]
      exact ⟨fun h => ⟨hyes, hsome.mp h⟩, fun h => hsome.mpr h.2⟩

/-- A model comes back as it was. -/
theorem Fields.back_iff : ∀ (fields : Fields) (v : fields.Val),
    fields.back v = v ↔ fields.Survives v
  | .nil, _ => iff_of_true rfl trivial
  | .listed _ member fields, (v, rest) =>
    Prod.ext_iff.trans (and_congr (Member.back_iff member v) (Fields.back_iff fields rest))
  | .unlisted _ fields, (_, rest) =>
    Prod.ext_iff.trans (and_congr eq_comm (Fields.back_iff fields rest))

end

/-- CORRECT: a model that is written and read again is as it was, without an error, exactly if its
    texts have no NUL and are shorter than 2^32 bytes, something is written for what its set optionals
    hold, and nothing that the FIELDS_MAP leaves out is set. -/
theorem round_trip_iff (T : ModelType) {write : Value → String} {parse : String → Option Value}
    {m : T.Val} (hinverse : parse (write (T.jserialize m)) = some (T.jserialize m))
    (htext : Char.ofNat 0 ∉ (write (T.jserialize m)).toList) :
    T.fromJsonString parse (T.toJsonStr write m) = some (m, none) ↔ T.fields.Survives m := by
  have hread : T.fields.backward (T.jserialize m) T.fields.init = (T.fields.back m, none) :=
    Fields.backward_forward T.fields m _ T.distinct (T.fields.agrees_forward m T.distinct)
  rw [ModelType.fromJsonString, ModelType.toJsonStr, cstr_eq htext, cstr_eq htext, hinverse]
  simp only [hread, Option.some.injEq, Prod.mk.injEq, and_true]
  exact T.fields.back_iff m

/-! ### A feedback -/

/-- `RTCPFeedback`. -/
def rtcpFeedback : ModelType where
  fields := .listed "type" (.optional (.native .string))
    (.listed "parameter" (.optional (.native .string)) .nil)
  distinct := ⟨by decide, trivial, List.not_mem_nil, trivial, trivial⟩

/-- What the writer makes of the feedback `nack`. -/
def writtenNack (_ : Value) : String := "\x7b\n    \"type\": \"nack\"\n\x7d"

theorem round_trip_nack :
    rtcpFeedback.fromJsonString (fun _ => some (.object [("type", .string "nack")]))
      (rtcpFeedback.toJsonStr writtenNack (some "nack", none, ())) =
        some ((some "nack", none, ()), none) :=
  (round_trip_iff rtcpFeedback rfl (by decide)).mpr
    ⟨⟨trivial, by decide, by decide⟩, trivial, trivial⟩

/-- What the writer makes of the feedback `nack` with a NUL and `pli` after it. -/
def writtenNul (_ : Value) : String := "\x7b\n    \"type\": \"nack\\u0000pli\"\n\x7d"

/-- A text with a NUL comes back without what follows it. -/
theorem nul_does_not_return :
    ¬ ∀ (T : ModelType) (write : Value → String) (parse : String → Option Value) (m : T.Val),
      parse (write (T.jserialize m)) = some (T.jserialize m) →
        Char.ofNat 0 ∉ (write (T.jserialize m)).toList →
          T.fromJsonString parse (T.toJsonStr write m) = some (m, none) := by
  intro h
  have hrun := h rtcpFeedback writtenNul
    (fun _ => some (.object [("type", .string "nack\x00pli")])) (some "nack\x00pli", none, ())
    rfl (by decide)
  have hread : rtcpFeedback.fromJsonString
      (fun _ => some (.object [("type", .string "nack\x00pli")]))
      (rtcpFeedback.toJsonStr writtenNul (some "nack\x00pli", none, ())) =
        some ((some "nack", none, ()), none) := rfl
  rw [hread] at hrun
  have htype : (some "nack" : Option String) = some "nack\x00pli" :=
    congrArg (fun r : Option (rtcpFeedback.Val × Option JsonError) => r.bind fun r => r.1.1) hrun
  exact absurd htype (by decide)

end MediasoupClient.Signaling
