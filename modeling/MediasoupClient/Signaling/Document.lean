import MediasoupClient.Lib.Json
import MediasoupClient.Signaling.Serialization

/-! A text that one of the two JSON libraries writes and the other one reads.

        nlohmann::json  ──dump──▶  text  ──Parse──▶  rapidjson::Value        (toValue)
        nlohmann::json  ◀──parse──  text  ◀──Accept──  rapidjson::Value      (ofValue)

    An integer that is not negative is read as an unsigned one. The names of the members a model
    writes are distinct, so it does not matter which of two members of one name is kept. -/

namespace MediasoupClient.Signaling
open Lib

mutual

/-- `Parse(j.dump())`. -/
def toValue : Json → Value
  | .null => .null
  | .bool b => .bool b
  | .int i => .int i
  | .uint n => .int n
  | .float q => .double q
  | .str s => .string s
  | .arr items => .array (toValues items)
  | .obj members => .object (toMembers members)

def toValues : List Json → List Value
  | [] => []
  | j :: js => toValue j :: toValues js

def toMembers : List (String × Json) → List (String × Value)
  | [] => []
  | (k, j) :: ms => (k, toValue j) :: toMembers ms

end

/-- An integer as nlohmann reads it. -/
def ofInt (i : ℤ) : Json := if 0 ≤ i then .uint i.toNat else .int i

mutual

/-- `nlohmann::json::parse(toJsonString(v))`. -/
def ofValue : Value → Json
  | .null => .null
  | .bool b => .bool b
  | .int i => ofInt i
  | .double q => .float q
  | .string s => .str s
  | .array items => .arr (ofValues items)
  | .object members => .obj (ofMembers members)

def ofValues : List Value → List Json
  | [] => []
  | v :: vs => ofValue v :: ofValues vs

def ofMembers : List (String × Value) → List (String × Json)
  | [] => []
  | (k, v) :: ms => put k (ofValue v) (ofMembers ms)

end

/-- A value written and read again. -/
def reparse (j : Json) : Json := ofValue (toValue j)

/-! ### Elements and members -/

theorem toValues_eq (js : List Json) : toValues js = js.map toValue := by
  induction js with
  | nil => rfl
  | cons j js ih => rw [toValues, ih, List.map_cons]

theorem ofValues_eq (vs : List Value) : ofValues vs = vs.map ofValue := by
  induction vs with
  | nil => rfl
  | cons v vs ih => rw [ofValues, ih, List.map_cons]

theorem get_toMembers (k : String) (ms : List (String × Json)) :
    get k (toMembers ms) = (get k ms).map toValue := by
  induction ms with
  | nil => rfl
  | cons m ms ih =>
    obtain ⟨k', j⟩ := m
    rw [toMembers, Lib.get, Lib.get, ih]
    split_ifs <;> rfl

theorem get_ofMembers (k : String) (ms : List (String × Value)) :
    get k (ofMembers ms) = (get k ms).map ofValue := by
  induction ms with
  | nil => rfl
  | cons m ms ih =>
    obtain ⟨k', v⟩ := m
    rw [ofMembers, get_put, Lib.get, ih]
    split_ifs <;> rfl

theorem sorted_ofMembers (ms : List (String × Value)) : Sorted (ofMembers ms) := by
  induction ms with
  | nil => exact List.Pairwise.nil
  | cons m ms ih => exact sorted_put _ _ ih

theorem findMember_toValue (k : String) (j : Json) :
    (toValue j).findMember k = (j.find k).map toValue := by
  cases j with
  | obj ms => exact get_toMembers k ms
  | _ => rfl

theorem find_reparse (k : String) (j : Json) : (reparse j).find k = (j.find k).map reparse := by
  cases j with
  | obj ms =>
    change get k (ofMembers (toMembers ms)) = (get k ms).map reparse
    rw [get_ofMembers, get_toMembers, Option.map_map]
    rfl
  | int i =>
    change (ofInt i).find k = none
    unfold ofInt
    split_ifs <;> rfl
  | _ => rfl

theorem reparse_arr (js : List Json) : reparse (.arr js) = .arr (js.map reparse) := by
  change Json.arr (ofValues (toValues js)) = _
  rw [toValues_eq, ofValues_eq, List.map_map]
  rfl

/-! ### Parsed values -/

theorem parsed_member {j v : Json} (h : reparse j = j) {k : String} (hv : j.find k = some v) :
    reparse v = v := by
  have hfind := find_reparse k j
  rw [h, hv] at hfind
  exact (Option.some.inj hfind).symm

theorem parsed_item {items : List Json} (h : reparse (.arr items) = .arr items) {x : Json}
    (hx : x ∈ items) : reparse x = x := by
  rw [reparse_arr, Json.arr.injEq] at h
  obtain ⟨i, hi⟩ := List.getElem?_of_mem hx
  have hmap : (items.map reparse)[i]? = some (reparse x) := by rw [List.getElem?_map, hi]; rfl
  rw [h, hi] at hmap
  exact (Option.some.inj hmap).symm

end MediasoupClient.Signaling
