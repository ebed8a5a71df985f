import MediasoupClient.Lib.StdMap
import Mathlib.Algebra.Group.Int.Defs
import Mathlib.Data.List.TakeWhile
import Mathlib.Data.Rat.Defs

/-! JSON models of the signaling layer (json/serialization.hpp, json/jsonable.hpp).

    A model struct declares its members with `FIELDS_MAP("key", member, ...)`; encoding walks the
    declaration and adds one member per present field, decoding walks it in the same order and
    stops at the first field that does not fit. `fromJsonString` catches what decoding throws and
    still returns the object, so the fields before the failing one keep their values.

        text ──parse──▶ Value ──jdeserialize──▶ (object so far, error?)
        object ──jserialize──▶ Value ──write──▶ text

    rapidjson's parser and writer are parameters of what uses them. -/

namespace MediasoupClient.Signaling
open Lib

/-- A rapidjson document. An integer literal is kept exactly; `int` stands for those in the range
    of `int64_t` and `uint64_t`, the rest are parsed as doubles. -/
inductive Value where
  | null
  | bool (b : Bool)
  | int (i : ℤ)
  | double (q : ℚ)
  | string (s : String)
  | array (items : List Value)
  | object (members : List (String × Value))

/-- What decoding can throw. -/
inductive JsonError where
  | missingKey (name : String)
  | typeMismatch (name : String)
  | parsingFailed
  deriving DecidableEq, Repr

/-- A C string read back into a `std::string`: everything from the first NUL on is lost. -/
def cstr (s : String) : String := String.ofList (s.toList.takeWhile (· ≠ Char.ofNat 0))

theorem nul_notMem_cstr (s : String) : Char.ofNat 0 ∉ (cstr s).toList := by
  intro h
  rw [cstr, String.toList_ofList] at h
  simpa using List.mem_takeWhile_imp h

theorem nul_mem_of_cstr_ne {s : String} (h : cstr s ≠ s) : Char.ofNat 0 ∈ s.toList := by
  by_contra hno
  refine h ?_
  rw [cstr, List.takeWhile_eq_self_iff.mpr, String.ofList_toList]
  intro c hc
  simpa using fun heq : c = Char.ofNat 0 => hno (heq ▸ hc)

/-- `FindMember`: the first member of that name. -/
def Value.findMember (name : String) : Value → Option Value
  | .object members => get name members
  | _ => none

def Value.isObject : Value → Bool
  | .object _ => true
  | _ => false

/-- How one member type is read from and written to a JSON value. -/
structure Serializer (α : Type) where
  backward : String → Value → Except JsonError α
  forward : α → Value

/-! ### Native values (`JsonValueAdapter`) -/

def int64 : Serializer ℤ where
  backward name
    | .int i => if -2 ^ 63 ≤ i ∧ i < 2 ^ 63 then .ok i else .error (.typeMismatch name)
    | _ => .error (.typeMismatch name)
  forward i := .int i

def int32 : Serializer ℤ where
  backward name
    | .int i => if -2 ^ 31 ≤ i ∧ i < 2 ^ 31 then .ok i else .error (.typeMismatch name)
    | _ => .error (.typeMismatch name)
  forward i := .int i

def string : Serializer String where
  backward name
    | .string s => .ok (cstr s)
    | _ => .error (.typeMismatch name)
  forward s := .string s

def bool : Serializer Bool where
  backward name
    | .bool b => .ok b
    | _ => .error (.typeMismatch name)
  forward b := .bool b

/-- `std::vector`, of native values and of models alike. -/
def vector {α : Type} (S : Serializer α) : Serializer (List α) where
  backward name
    | .array items => items.mapM (S.backward name)
    | _ => .error (.typeMismatch name)
  forward items := .array (items.map S.forward)

/-! ### Models -/

/-- One entry of a `FIELDS_MAP`. -/
structure Field (α : Type) where
  name : String
  backward : Value → α → Except JsonError α
  forward : α → List (String × Value)

/-- An `absl::optional` member: absent and `null` leave it unset, and it is written only when
    set. -/
def optional {α β : Type} (name : String) (S : Serializer β) (get : α → Option β)
    (set : α → Option β → α) : Field α where
  name := name
  backward jlist a :=
    if jlist.isObject then
      match jlist.findMember name with
      | none => .ok a
      | some .null => .ok a
      | some v => do
        let b ← S.backward name v
        return set a (some b)
    else .error (.typeMismatch name)
  forward a :=
    match get a with
    | none => []
    | some b => [(name, S.forward b)]

/-- A struct with a `FIELDS_MAP`: its default value and its fields, in declaration order. -/
class Model (α : Type) where
  init : α
  fields : List (Field α)

/-- Decode field by field; at the first failure the object keeps what was read before it. -/
def readFields {α : Type} : List (Field α) → Value → α → α × Option JsonError
  | [], _, a => (a, none)
  | f :: fs, j, a =>
    match f.backward j a with
    | .error e => (a, some e)
    | .ok a' => readFields fs j a'

section
variable {α : Type} [Model α]

def jdeserialize (j : Value) : α × Option JsonError := readFields Model.fields j Model.init

def jserialize (a : α) : Value := .object (Model.fields.flatMap fun f => f.forward a)

/-- A nested model member. -/
def model (α : Type) [Model α] : Serializer α where
  backward _ j :=
    match jdeserialize j with
    | (a, none) => .ok a
    | (_, some e) => .error e
  forward a := jserialize a

variable (parse : String → Option Value)

/-- `fromJsonString(data, error)`: the object and the error it leaves, `none` for none. -/
def fromJsonString (data : String) : α × Option JsonError :=
  match parse (cstr data) with
  | none => (Model.init, some .parsingFailed)
  | some j => jdeserialize j

end

/-! ### Reading a list of fields -/

/-- A list of fields is read without an error when its first field and then the rest are. -/
theorem readFields_cons_none {α : Type} {f : Field α} {fs : List (Field α)} {j : Value} {a r : α}
    (h : readFields (f :: fs) j a = (r, none)) :
    ∃ a', f.backward j a = .ok a' ∧ readFields fs j a' = (r, none) := by
  rw [readFields] at h
  split at h
  · cases h
  · rename_i a' ha'
    exact ⟨a', ha', h⟩

/-- What an optional member decodes to: nothing when it is absent, `null` or does not fit. -/
def member {β : Type} (S : Serializer β) (name : String) (j : Value) : Option β :=
  match j.findMember name with
  | none => none
  | some .null => none
  | some v => (S.backward name v).toOption

/-- An optional member that decodes is set to its value, if it was unset before. -/
theorem optional_eq_set {α β : Type} {name : String} {S : Serializer β} {g : α → Option β}
    {set : α → Option β → α} {j : Value} {a a' : α} (hset : set a none = a)
    (h : (optional name S g set).backward j a = .ok a') : a' = set a (member S name j) := by
  simp only [optional] at h
  unfold member
  split at h
  · split at h
    · cases h; exact hset.symm
    · cases h; exact hset.symm
    · rename_i v _ _
      cases hb : S.backward name v with
      | error e => rw [hb] at h; cases h
      | ok b => rw [hb] at h; cases h; rfl
  · cases h

/-- So the other fields are read with its value. -/
theorem readFields_optional_none {α β : Type} {name : String} {S : Serializer β}
    {g : α → Option β} {set : α → Option β → α} {fs : List (Field α)} {j : Value} {a r : α}
    (hset : set a none = a) (h : readFields (optional name S g set :: fs) j a = (r, none)) :
    readFields fs j (set a (member S name j)) = (r, none) := by
  obtain ⟨a', ha', hrest⟩ := readFields_cons_none h
  obtain rfl := optional_eq_set hset ha'
  exact hrest

end MediasoupClient.Signaling
