import Mathlib.Data.List.TakeWhile
import Mathlib.Data.Nat.Notation
import Mathlib.Tactic.Common

/-! Strings of C, and the buffers they are written to.

        a buffer     h e a d e r p a y l o a d ∅ t a i l ∅ . .
        written by   3 3 3 3 3 3 3 3 3 3 3 3 3 3 2 2 2 2 2 1 1

    A cell of a buffer knows which call has written it last, so that what is left of an earlier string
    can be told from the string of this call. Bytes are written next to each other; to write behind the
    end of the buffer is an error, and so is to look for a NUL that is not in it. -/

namespace Lib

/-! ### Strings -/

/-- A text of C: what stands in front of its NUL. -/
abbrev CString := {s : List UInt8 // 0 ∉ s}

/-- What the functions of string.h take for the text at this address. -/
def cString (data : List UInt8) : List UInt8 := data.takeWhile (· ≠ 0)

def strlen (data : List UInt8) : ℕ := (cString data).length

theorem cString_of_nulFree {data : List UInt8} (h : 0 ∉ data) : cString data = data := by
  rw [cString, List.takeWhile_eq_self_iff]
  intro c hc
  exact decide_eq_true fun h0 => h (h0 ▸ hc)

/-- The check for an embedded NUL. -/
theorem length_eq_strlen_iff {data : List UInt8} : data.length = strlen data ↔ 0 ∉ data := by
  constructor
  · intro h hmem
    have hself : cString data = data := (List.takeWhile_prefix _).eq_of_length h.symm
    have h0 := List.mem_takeWhile_imp (hself.symm ▸ hmem : (0 : UInt8) ∈ cString data)
    simp at h0
  · intro h
    rw [strlen, cString_of_nulFree h]

namespace CString

def empty : CString := ⟨[], List.not_mem_nil⟩

def append (s t : CString) : CString :=
  ⟨s.val ++ t.val, fun h => (List.mem_append.mp h).elim s.property t.property⟩

/-- The texts one after the other. -/
def concat (texts : List CString) : CString := texts.foldr append empty

/-- The first bytes of a text. -/
def first (n : ℕ) (s : CString) : CString :=
  ⟨s.val.take n, fun h => s.property (List.mem_of_mem_take h)⟩

/-- What stands behind the last such byte, if there is one. -/
def afterLast (c : UInt8) : List UInt8 → Option (List UInt8)
  | [] => none
  | x :: xs =>
    match afterLast c xs with
    | some rest => some rest
    | none => if x = c then some xs else none

theorem afterLast_subset {c : UInt8} {rest : List UInt8} : ∀ {s : List UInt8},
    afterLast c s = some rest → ∀ x ∈ rest, x ∈ s
  | [], h => by cases h
  | y :: ys, h => by
    intro x hx
    unfold afterLast at h
    cases hys : afterLast c ys with
    | some r =>
      rw [hys] at h
      cases h
      exact List.mem_cons_of_mem y (afterLast_subset hys x hx)
    | none =>
      rw [hys] at h
      simp only at h
      split_ifs at h
      cases h
      exact List.mem_cons_of_mem y hx

/-- `strrchr(s, c) + 1`, if the character is there. -/
def strrchr (c : UInt8) (s : CString) : Option CString :=
  match h : afterLast c s.val with
  | some rest => some ⟨rest, fun h0 => s.property (afterLast_subset h 0 h0)⟩
  | none => none

/-- `%d` of a number that is not negative. -/
def decimal (n : ℕ) : CString :=
  ⟨(Nat.toDigits 10 n).map fun c => UInt8.ofNat c.toNat, by
    intro h
    obtain ⟨c, hc, hzero⟩ := List.mem_map.mp h
    have hdigit := Nat.isDigit_of_mem_toDigits (by decide) (by decide) hc
    simp only [Char.isDigit, ge_iff_le, Bool.and_eq_true, decide_eq_true_eq] at hdigit
    have hge : 48 ≤ c.toNat := UInt32.le_iff_toNat_le.mp hdigit.1
    have hle : c.toNat ≤ 57 := UInt32.le_iff_toNat_le.mp hdigit.2
    have hnat := congrArg UInt8.toNat hzero
    rw [UInt8.toNat_ofNat', Nat.mod_eq_of_lt (by omega)] at hnat
    simp at hnat
    omega⟩

/-- One digit of `%02x`. -/
def hexDigit (n : ℕ) : UInt8 := if n < 10 then UInt8.ofNat (48 + n) else UInt8.ofNat (87 + n)

/-- `%02x` of a byte. -/
def hex (b : UInt8) : List UInt8 := [hexDigit (b.toNat / 16), hexDigit (b.toNat % 16)]

end CString

/-! ### Buffers -/

/-- A byte of a buffer, and the call that has written it. -/
structure Cell where
  val : UInt8
  call : ℕ
  deriving DecidableEq, Repr

abbrev Buffer (n : ℕ) := {cells : List Cell // cells.length = n}

/-- What is wrong with the use of a buffer. -/
inductive Buffer.Fault where
  | overflow
  | unterminated
  | assertion
  deriving DecidableEq, Repr

/-- Bytes, as this call writes them. -/
def mark (who : ℕ) (bytes : List UInt8) : List Cell := bytes.map (Cell.mk · who)

/-- The index of the first NUL. -/
def nulAt (cells : List Cell) : Option ℕ := cells.findIdx? (·.val = 0)

namespace Buffer
variable {n : ℕ}

/-- Write the bytes from this index on. -/
def store (who start : ℕ) (bytes : List UInt8) (b : Buffer n) : Except Fault (Buffer n) :=
  if h : start + bytes.length ≤ n then
    .ok ⟨b.val.take start ++ mark who bytes ++ b.val.drop (start + bytes.length), by
      have hb := b.property
      simp only [mark, List.length_append, List.length_take, List.length_map, List.length_drop]
      omega⟩
  else .error .overflow

/-- `memset(b, 0, n)`. -/
def clear (who : ℕ) (n : ℕ) : Buffer n :=
  ⟨mark who (List.replicate n 0), by rw [mark, List.length_map, List.length_replicate]⟩

end Buffer

/-! ### What a call has written -/

@[simp] theorem length_mark (who : ℕ) (bytes : List UInt8) :
    (mark who bytes).length = bytes.length := List.length_map _

@[simp] theorem mark_append (who : ℕ) (s t : List UInt8) :
    mark who (s ++ t) = mark who s ++ mark who t := List.map_append

theorem call_of_mem_mark {who : ℕ} {bytes : List UInt8} {c : Cell} (h : c ∈ mark who bytes) :
    c.call = who := by
  obtain ⟨_, _, rfl⟩ := List.mem_map.mp h
  rfl

/-- Among bytes without a NUL none is found. -/
theorem nulAt_mark_eq_none (who : ℕ) {m : List UInt8} (h : 0 ∉ m) : nulAt (mark who m) = none := by
  rw [nulAt, List.findIdx?_eq_none_iff]
  intro c hc
  obtain ⟨x, hx, rfl⟩ := List.mem_map.mp hc
  exact decide_eq_false fun h0 => h (h0 ▸ hx)

/-- Behind bytes without a NUL the rest decides. -/
theorem nulAt_append {who : ℕ} {m : List UInt8} (h : 0 ∉ m) (rest : List Cell) :
    nulAt (mark who m ++ rest) = (nulAt rest).map (· + m.length) := by
  have hnone := nulAt_mark_eq_none who h
  unfold nulAt at hnone ⊢
  rw [List.findIdx?_append, hnone, length_mark, Option.none_or]

theorem nulAt_append_iff {who : ℕ} {m : List UInt8} (h : 0 ∉ m) {rest : List Cell} :
    nulAt (mark who m ++ rest) = some m.length ↔ nulAt rest = some 0 := by
  rw [nulAt_append h]
  cases nulAt rest with
  | none => simp
  | some k => simp

theorem nulAt_eq_zero_iff {rest : List Cell} :
    nulAt rest = some 0 ↔ rest.head?.map Cell.val = some 0 := by
  cases rest with
  | nil => simp [nulAt]
  | cons c cells =>
    rw [nulAt, List.findIdx?_cons]
    by_cases hc : c.val = 0
    · simp [hc]
    · simp [hc]

theorem length_pos_of_nulAt {cells : List Cell} {k : ℕ} (h : nulAt cells = some k) :
    0 < cells.length := by
  cases cells with
  | nil => cases h
  | cons c cells => exact Nat.succ_pos _

namespace Buffer
variable {n who : ℕ} {b : Buffer n} {m : List UInt8} {rest : List Cell}

theorem length_parts (hb : b.val = mark who m ++ rest) : m.length + rest.length = n := by
  have hlen := congrArg List.length hb
  rwa [b.property, List.length_append, length_mark, eq_comm] at hlen

/-- Bytes that are written behind those of the same call. -/
theorem store_ok (hb : b.val = mark who m ++ rest) (bytes : List UInt8)
    (hfit : m.length + bytes.length ≤ n) :
    ∃ b' : Buffer n, b.store who m.length bytes = .ok b' ∧
      b'.val = mark who (m ++ bytes) ++ rest.drop bytes.length := by
  unfold store
  rw [dif_pos hfit]
  refine ⟨_, rfl, ?_⟩
  have htake : b.val.take m.length = mark who m := by
    rw [hb, List.take_left' (length_mark who m)]
  have hdrop : b.val.drop (m.length + bytes.length) = rest.drop bytes.length := by
    rw [hb, ← List.drop_drop, List.drop_left' (length_mark who m)]
  simp only [htake, hdrop, mark_append]

theorem store_returns (who start : ℕ) (bytes : List UInt8) (h : start + bytes.length ≤ n) :
    ∃ b' : Buffer n, b.store who start bytes = .ok b' := by
  unfold store
  rw [dif_pos h]
  exact ⟨_, rfl⟩

theorem store_overflow {start : ℕ} {bytes : List UInt8} (h : n < start + bytes.length) :
    b.store who start bytes = .error .overflow := by
  unfold store
  rw [dif_neg (Nat.not_le.mpr h)]

end Buffer
end Lib
