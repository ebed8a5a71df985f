import MediasoupClient.Lazyutil.LazyLog

/-! What a call of the log writes, and what comes out.

        the last byte      room behind it     the byte behind it
        no newline         newline, NUL       is written
        newline            NUL                must be a NUL already, which only vsprintf takes care of

    A line that fits ends in a NUL and is output as it is. Otherwise the NUL is written behind the
    buffer, or the line that is output goes on with what is left of an earlier one. -/

namespace MediasoupClient.Lazyutil
open Lib

/-- The bounds of a call: nothing is written behind the buffer, without a NUL in the payload the
    assertion on the length holds, and every byte that comes out was written by this call. -/
structure Contained {σ : Type} (who : ℕ) (payload : List UInt8)
    (result : Except Buffer.Fault (σ × List Cell)) : Prop where
  inside : result ≠ .error .overflow
  asserted : 0 ∉ payload → result ≠ .error .assertion ∧ result ≠ .error .unterminated
  own : ∀ b out, result = .ok (b, out) → ∀ c ∈ out, c.call = who

/-- The bounds of a call in this context. -/
def Bounded (ctx : LogCtx) (r : Request) : Prop :=
  Contained (ctx.calls + 1) r.payload.bytes (logCall ctx r)

/-- Every call of a sequence, as long as they end, has the property in the context it finds. -/
def Along (P : LogCtx → Request → Prop) : LogCtx → List Request → Prop
  | _, [] => True
  | ctx, r :: rs => P ctx r ∧ ∀ b out, logCall ctx r = .ok (b, out) → Along P (ctx.after b) rs

/-- The message, with its header, has room in a buffer of this size: with a newline and a NUL behind it,
    or it ends in a newline and a NUL is behind it already. In the other cases the payload has a NUL in
    it, and the assertion fails before anything comes out. -/
def LineFits (n : ℕ) (message payload : List UInt8) (behind : Option UInt8) : Prop :=
  message.getLast? ≠ some newline ∧ message.length + 2 ≤ n ∨
    message.getLast? = some newline ∧ message.length < n ∧ (behind = some 0 ∨ 0 ∈ payload) ∨
    message.length = n ∧ message[n - 2]? = some newline ∧ 0 ∈ payload

/-- What stands behind a message that is written without a NUL: the NUL of the header, or what has been
    there before. -/
def behind (ctx : LogCtx) (h : CString) (bytes : List UInt8) : Option UInt8 :=
  if bytes = [] then some 0 else (ctx.buf.val[(h.val ++ bytes).length]?).map Cell.val

/-- The calls that stay in their bounds. -/
def Fits (ctx : LogCtx) (r : Request) : Prop :=
  ctx.logLevel > r.level ∨
    match r.payload, header ctx r with
    | .memory bytes, _ =>
      let length := (memoryText bytes.length).val.length + 2 * bytes.length
      length < maxLogSize ∧ (ctx.outputFlag = 0 ∨ length + 2 ≤ maxLogSize)
    | _, .off => True
    | .format _, .failed => False
    | .format text, .text h =>
      (h.val ++ text).length < maxLogSize ∧
        (ctx.outputFlag = 0 ∨ LineFits maxLogSize (h.val ++ text) text (some 0))
    | .buf bytes, .failed => bytes ≠ [] ∨ ctx.outputFlag = 0
    | .buf bytes, .text h =>
      maxLogSize < (h.val ++ bytes).length ∨ ctx.outputFlag = 0 ∨
        LineFits maxLogSize (h.val ++ bytes) bytes (behind ctx h bytes)

/-! ### What comes out -/

section
variable {σ : Type} {who : ℕ} {payload : List UInt8}

theorem contained_ok_iff {b : σ} {out : List Cell} :
    Contained who payload (.ok (b, out)) ↔ ∀ c ∈ out, c.call = who := by
  constructor
  · intro h
    exact h.own b out rfl
  · intro h
    refine ⟨nofun, fun _ => ⟨nofun, nofun⟩, ?_⟩
    rintro _ _ hout
    cases hout
    exact h

theorem contained_nil (b : σ) : Contained who payload (.ok (b, [])) :=
  contained_ok_iff.mpr fun _ hc => absurd hc List.not_mem_nil

theorem not_contained_overflow :
    ¬ Contained who payload (.error .overflow : Except Buffer.Fault (σ × List Cell)) :=
  fun h => h.inside rfl

/-- An assertion may only fail because of a NUL in the payload. -/
theorem contained_error_iff {e : Buffer.Fault} (he : e ≠ .overflow) :
    Contained who payload (.error e : Except Buffer.Fault (σ × List Cell)) ↔ 0 ∈ payload := by
  constructor
  · intro h
    by_contra hnot
    obtain ⟨hassertion, hunterminated⟩ := h.asserted hnot
    cases e with
    | overflow => exact he rfl
    | unterminated => exact hunterminated rfl
    | assertion => exact hassertion rfl
  · intro hmem
    refine ⟨?_, fun hnot => absurd hmem hnot, nofun⟩
    intro h
    cases h
    exact he rfl

/-- Where no payload is needed to excuse an assertion, any will do. -/
theorem Contained.of_nil {result : Except Buffer.Fault (σ × List Cell)}
    (h : Contained who [] result) : Contained who payload result :=
  ⟨h.inside, fun _ => h.asserted List.not_mem_nil, h.own⟩

/-- Up to the first NUL. -/
theorem takeWhile_of_nulAt {cells : List Cell} {k : ℕ} (h : nulAt cells = some k) :
    cells.takeWhile (·.val ≠ 0) = cells.take k := by
  obtain ⟨hlt, hk, hbefore⟩ := List.findIdx?_eq_some_iff_getElem.mp h
  rw [List.takeWhile_eq_take_findIdx_not]
  congr 1
  rw [List.findIdx_eq hlt]
  refine ⟨by simpa using hk, fun j hj => ?_⟩
  simpa using hbefore j hj

variable {n loglen : ℕ} {b : Buffer n} {m : List UInt8} {rest : List Cell}

/-- What comes out stands in front of the NUL. -/
theorem mem_take_of_emitted {flag : ℕ} {level : ℤ} {pfd : Bool} {cells : List Cell}
    (h : nulAt cells = some loglen) {c : Cell} (hc : c ∈ emitted flag level pfd loglen cells) :
    c ∈ cells.take loglen := by
  unfold emitted at hc
  rcases List.mem_append.mp hc with hc | hc
  · split_ifs at hc
    · cases hc
    · rwa [takeWhile_of_nulAt h] at hc
    · exact (List.takeWhile_prefix _).subset hc
  · split_ifs at hc
    · exact hc
    · cases hc

theorem output_contained_iff (hb : b.val = mark who m ++ rest) (hle : loglen ≤ m.length)
    (flag : ℕ) (level : ℤ) (pfd : Bool) :
    Contained who payload (output flag level pfd loglen b) ↔
      nulAt b.val = some loglen ∨ 0 ∈ payload := by
  unfold output
  cases hnul : nulAt b.val with
  | none =>
    simp only [reduceCtorEq, false_or]
    exact contained_error_iff (by decide)
  | some k =>
    simp only [Option.some.injEq]
    by_cases hk : k = loglen
    · subst hk
      rw [if_pos rfl, contained_ok_iff]
      refine iff_of_true (fun c hc => ?_) (Or.inl rfl)
      have hmem := mem_take_of_emitted hnul hc
      rw [hb, List.take_append_of_le_length (by rwa [length_mark])] at hmem
      exact call_of_mem_mark (List.mem_of_mem_take hmem)
    · rw [if_neg hk, contained_error_iff (by decide)]
      exact (or_iff_right hk).symm

/-! ### One line -/

/-- The last byte of the message decides whether a newline is written. -/
theorem read_last (hb : b.val = mark who m ++ rest) (hm : m ≠ []) :
    (b.val[m.length - 1]?).map Cell.val = m.getLast? := by
  have hlt : m.length - 1 < (mark who m).length := by
    rw [length_mark]
    exact Nat.sub_lt (List.length_pos_iff.mpr hm) Nat.one_pos
  have hid : Cell.val ∘ (Cell.mk · who) = id := rfl
  rw [hb, List.getElem?_append_left hlt, mark, List.getElem?_map, Option.map_map, hid,
    Option.map_id, List.getLast?_eq_getElem?, id]

/-- A newline and a NUL behind a message that has none. -/
theorem endLine_newline (hb : b.val = mark who m ++ rest) (hm : m ≠ [])
    (hlast : m.getLast? ≠ some newline) (hfit : m.length + 2 ≤ n) :
    ∃ b' : Buffer n, endLine who m.length b = .ok (b', m.length + 1) ∧
      b'.val = mark who (m ++ [newline]) ++ (⟨0, who⟩ :: rest.drop 2) := by
  obtain ⟨b₁, hstore₁, hb₁⟩ := Buffer.store_ok hb [newline] (by simp; omega)
  obtain ⟨b₂, hstore₂, hb₂⟩ := Buffer.store_ok hb₁ [0] (by simp; omega)
  refine ⟨b₂, ?_, ?_⟩
  · unfold endLine
    rw [read_last hb hm, if_pos hlast, hstore₁]
    rw [List.length_append] at hstore₂
    exact congrArg (fun r => r >>= fun b' => Except.ok (b', m.length + 1)) hstore₂
  · rw [hb₂, mark_append who (m ++ [newline]), List.append_assoc, List.drop_drop]
    rfl

theorem endLine_overflow (hb : b.val = mark who m ++ rest) (hm : m ≠ [])
    (hlast : m.getLast? ≠ some newline) (hlt : m.length < n) (hfull : n < m.length + 2) :
    endLine who m.length b = .error .overflow := by
  obtain ⟨b₁, hstore₁, -⟩ := Buffer.store_ok hb [newline] (by simp; omega)
  have hstore₂ : b₁.store who (m.length + 1) [0] = .error .overflow :=
    Buffer.store_overflow (by simp; omega)
  unfold endLine
  rw [read_last hb hm, if_pos hlast, hstore₁]
  exact congrArg (fun r => r >>= fun b' => Except.ok (b', m.length + 1)) hstore₂

theorem writeLog_off {flag : ℕ} {level : ℤ} {pfd : Bool} {nloglen : ℕ}
    (h : nloglen = 0 ∨ flag = 0) : writeLog flag level pfd who nloglen b = .ok (b, []) := by
  unfold writeLog
  rw [if_pos h]

/-- `write_log`, once the line is ended. -/
theorem writeLog_ended {flag : ℕ} (hflag : flag ≠ 0) (level : ℤ) (pfd : Bool) (hm : m ≠ [])
    {b' : Buffer n} {k : ℕ}
    (hend : endLine who (if n - 1 > m.length then m.length else n - 1) b = .ok (b', k)) :
    writeLog flag level pfd who m.length b = output flag level pfd k b' := by
  have hlen : m.length ≠ 0 := fun h => hm (List.length_eq_zero_iff.mp h)
  unfold writeLog
  rw [if_neg (by simp [hflag, hlen]), hend]
  rfl

theorem writeLog_overflow {flag : ℕ} (hflag : flag ≠ 0) (level : ℤ) (pfd : Bool) (hm : m ≠ [])
    (hend : endLine who (if n - 1 > m.length then m.length else n - 1) b = .error .overflow) :
    writeLog flag level pfd who m.length b = .error .overflow := by
  have hlen : m.length ≠ 0 := fun h => hm (List.length_eq_zero_iff.mp h)
  unfold writeLog
  rw [if_neg (by simp [hflag, hlen]), hend]
  rfl

/-- The length of the line, of a message that is shorter than the buffer. -/
theorem loglen_eq (hlt : m.length < n) :
    (if n - 1 > m.length then m.length else n - 1) = m.length := by
  split_ifs <;> omega

/-- The byte that is taken for the last one of a message as long as the buffer. -/
theorem read_full (hb : b.val = mark who m ++ rest) (hn : 2 ≤ n) (hfull : m.length = n) :
    (b.val[n - 1 - 1]?).map Cell.val = m[n - 2]? := by
  have hlt : n - 1 - 1 < (mark who m).length := by
    rw [length_mark]
    omega
  have hid : Cell.val ∘ (Cell.mk · who) = id := rfl
  rw [hb, List.getElem?_append_left hlt, mark, List.getElem?_map, Option.map_map, hid,
    Option.map_id, id, Nat.sub_sub]

/-- A message that ends in a newline is left as it is, and the byte behind it decides. -/
theorem writeLog_newline_iff (hb : b.val = mark who m ++ rest) (hm : m ≠ [])
    (hnul : 0 ∈ m ↔ 0 ∈ payload) {flag : ℕ} (hflag : flag ≠ 0) (level : ℤ) (pfd : Bool)
    (hlt : m.length < n) (hlast : m.getLast? = some newline) :
    Contained who payload (writeLog flag level pfd who m.length b) ↔
      rest.head?.map Cell.val = some 0 ∨ 0 ∈ payload := by
  have hend : endLine who (if n - 1 > m.length then m.length else n - 1) b =
      .ok (b, m.length) := by
    unfold endLine
    rw [loglen_eq hlt, read_last hb hm, if_neg (not_not.mpr hlast)]
  rw [writeLog_ended hflag level pfd hm hend,
    output_contained_iff hb (Nat.le_refl _) flag level pfd, ← nulAt_eq_zero_iff, hb]
  by_cases hmem : 0 ∈ m
  · exact iff_of_true (Or.inr (hnul.mp hmem)) (Or.inr (hnul.mp hmem))
  · rw [nulAt_append_iff hmem]

/-- Where there is room a message without a newline gets one. -/
theorem writeLog_room (hb : b.val = mark who m ++ rest) (hm : m ≠ [])
    (hnul : 0 ∈ m ↔ 0 ∈ payload) {flag : ℕ} (hflag : flag ≠ 0) (level : ℤ) (pfd : Bool)
    (hlast : m.getLast? ≠ some newline) (hfit : m.length + 2 ≤ n) :
    Contained who payload (writeLog flag level pfd who m.length b) := by
  have hloglen := loglen_eq (n := n) (m := m) (by omega)
  obtain ⟨b', hend, hb'⟩ := endLine_newline hb hm hlast hfit
  rw [← hloglen] at hend
  rw [writeLog_ended hflag level pfd hm hend,
    output_contained_iff hb' (by simp [hloglen]) flag level pfd]
  by_cases hmem : 0 ∈ m
  · exact Or.inr (hnul.mp hmem)
  · have hfree : 0 ∉ m ++ [newline] := by
      rw [List.mem_append, List.mem_singleton]
      exact fun h => h.elim hmem (by decide)
    have hlen : (m ++ [newline]).length = m.length + 1 := List.length_append
    rw [hb', hloglen, ← hlen, nulAt_append_iff hfree, nulAt_eq_zero_iff]
    exact Or.inl rfl

/-- A message as long as the buffer has its newline looked for one byte too early. -/
theorem writeLog_full_iff (hn : 2 ≤ n) (hb : b.val = mark who m ++ rest) (hm : m ≠ [])
    (hnul : 0 ∈ m ↔ 0 ∈ payload) {flag : ℕ} (hflag : flag ≠ 0) (level : ℤ) (pfd : Bool)
    (hfull : m.length = n) :
    Contained who payload (writeLog flag level pfd who m.length b) ↔
      m[n - 2]? = some newline ∧ 0 ∈ payload := by
  have hsize := Buffer.length_parts hb
  have hrest : rest = [] := List.length_eq_zero_iff.mp (by omega)
  have hloglen : (if n - 1 > m.length then m.length else n - 1) = n - 1 := by
    split_ifs <;> omega
  by_cases hline : m[n - 2]? = some newline
  · have hend : endLine who (if n - 1 > m.length then m.length else n - 1) b =
        .ok (b, n - 1) := by
      unfold endLine
      rw [hloglen, read_full hb hn hfull, if_neg (not_not.mpr hline)]
    rw [writeLog_ended hflag level pfd hm hend,
      output_contained_iff hb (by omega) flag level pfd, and_iff_right hline, or_iff_right_iff_imp]
    -- the buffer has no byte but those of the message
    intro hfound
    by_contra hfree
    rw [hb, hrest, List.append_nil, nulAt_mark_eq_none who fun h => hfree (hnul.mp h)] at hfound
    cases hfound
  · have hend : endLine who (if n - 1 > m.length then m.length else n - 1) b =
        .error .overflow := by
      obtain ⟨b₁, hstore₁⟩ := b.store_returns who (n - 1) [newline]
        (by simp; omega)
      have hstore₂ : b₁.store who (n - 1 + 1) [0] = .error .overflow :=
        Buffer.store_overflow (by simp; omega)
      unfold endLine
      rw [hloglen, read_full hb hn hfull, if_pos hline, hstore₁]
      exact congrArg (fun r => r >>= fun b' => Except.ok (b', n - 1 + 1)) hstore₂
    rw [writeLog_overflow hflag level pfd hm hend]
    exact iff_of_false not_contained_overflow fun h => hline h.1

/-- `write_log` on a message that stands at the begin of the buffer. -/
theorem writeLog_contained_iff (hn : 2 ≤ n) (hb : b.val = mark who m ++ rest) (hm : m ≠ [])
    (hnul : 0 ∈ m ↔ 0 ∈ payload) {flag : ℕ} (hflag : flag ≠ 0) (level : ℤ) (pfd : Bool) :
    Contained who payload (writeLog flag level pfd who m.length b) ↔
      LineFits n m payload (rest.head?.map Cell.val) := by
  have hsize := Buffer.length_parts hb
  unfold LineFits
  by_cases hlt : m.length < n
  · by_cases hlast : m.getLast? = some newline
    · rw [writeLog_newline_iff hb hm hnul hflag level pfd hlt hlast]
      constructor
      · exact fun h => Or.inr (Or.inl ⟨hlast, hlt, h⟩)
      · rintro (⟨hno, -⟩ | ⟨-, -, h⟩ | ⟨hfull, -⟩)
        · exact absurd hlast hno
        · exact h
        · omega
    · by_cases hfit : m.length + 2 ≤ n
      · exact iff_of_true (writeLog_room hb hm hnul hflag level pfd hlast hfit)
          (Or.inl ⟨hlast, hfit⟩)
      · have hend := endLine_overflow hb hm hlast hlt (by omega)
        rw [← loglen_eq hlt] at hend
        rw [writeLog_overflow hflag level pfd hm hend]
        refine iff_of_false not_contained_overflow ?_
        rintro (⟨-, h⟩ | ⟨h, -⟩ | ⟨h, -⟩)
        · exact hfit h
        · exact hlast h
        · omega
  · have hfull : m.length = n := by omega
    rw [writeLog_full_iff hn hb hm hnul hflag level pfd hfull]
    constructor
    · exact fun h => Or.inr (Or.inr ⟨hfull, h⟩)
    · rintro (⟨-, h⟩ | ⟨-, h, -⟩ | ⟨-, h⟩)
      · omega
      · exact absurd h hlt
      · exact h

end

/-! ### The calls -/

section
variable {ctx : LogCtx} {r : Request} {who : ℕ}

theorem header_ne_nil {h : CString} (hh : header ctx r = .text h) :
    h.val ≠ [] ∧ h.val.length < maxLogSize := by
  unfold header at hh
  cases htime : r.now.time with
  | none =>
    rw [htime] at hh
    cases hh
  | some time =>
    rw [htime] at hh
    cases hname : levelName r.level with
    | none =>
      simp only [hname] at hh
      cases hh
    | some name =>
      simp only [hname] at hh
      cases hh
      constructor
      · intro hnil
        cases hnil
      · simp only [CString.first, List.length_take, maxLogSize]
        omega

/-- The header, and the NUL behind it. -/
theorem generateHeader_text (who : ℕ) {h : CString} (hh : header ctx r = .text h) :
    ∃ b : Buffer maxLogSize, generateHeader ctx r who = .ok (some (b, h.val.length)) ∧
      b.val = mark who h.val ++ (⟨0, who⟩ :: ctx.buf.val.drop (h.val.length + 1)) := by
  have hlen := (header_ne_nil hh).2
  have hempty : ctx.buf.val = mark who [] ++ ctx.buf.val := rfl
  obtain ⟨b, hstore, hb⟩ := Buffer.store_ok hempty (h.val ++ [0]) (by simp; omega)
  refine ⟨b, ?_, ?_⟩
  · unfold generateHeader
    rw [hh]
    exact congrArg (fun r => r >>= fun b => Except.ok (some (b, h.val.length))) hstore
  · rw [hb, List.nil_append, mark_append, List.append_assoc, List.length_append]
    rfl

theorem nul_iff (h : CString) (bytes : List UInt8) : 0 ∈ h.val ++ bytes ↔ 0 ∈ bytes := by
  rw [List.mem_append]
  exact or_iff_right h.property

theorem logFormat_contained_iff {h : CString} (hh : header ctx r = .text h) (text : List UInt8) :
    Contained who text (logFormat ctx r who text) ↔
      (h.val ++ text).length < maxLogSize ∧
        (ctx.outputFlag = 0 ∨ LineFits maxLogSize (h.val ++ text) text (some 0)) := by
  obtain ⟨b, hheader, hb⟩ := generateHeader_text who hh
  have hrun : logFormat ctx r who text = b.store who h.val.length (text ++ [0]) >>=
      writeLog ctx.outputFlag r.level r.pfd who (h.val.length + text.length) := by
    unfold logFormat
    rw [hheader]
    rfl
  rw [hrun]
  by_cases hfit : (h.val ++ text).length < maxLogSize
  · rw [List.length_append] at hfit
    obtain ⟨b', hstore, hb'⟩ := Buffer.store_ok hb (text ++ [0]) (by simp; omega)
    rw [hstore, ← List.length_append]
    change Contained who text (writeLog _ _ _ _ _ b') ↔ _
    rw [← List.append_assoc, mark_append, List.append_assoc] at hb'
    rw [and_iff_right (by simpa using hfit)]
    by_cases hflag : ctx.outputFlag = 0
    · rw [writeLog_off (Or.inr hflag)]
      exact iff_of_true (contained_nil _) (Or.inl hflag)
    · rw [writeLog_contained_iff (by decide) hb' (by simp [(header_ne_nil hh).1]) (nul_iff h text)
        hflag, or_iff_right hflag]
      rfl
  · rw [Buffer.store_overflow (by simp at hfit ⊢; omega)]
    exact iff_of_false not_contained_overflow fun h => hfit h.1

theorem logBuf_contained_iff {h : CString} (hh : header ctx r = .text h) (bytes : List UInt8) :
    Contained who bytes (logBuf ctx r who bytes) ↔
      maxLogSize < (h.val ++ bytes).length ∨ ctx.outputFlag = 0 ∨
        LineFits maxLogSize (h.val ++ bytes) bytes (behind ctx h bytes) := by
  obtain ⟨b, hheader, hb⟩ := generateHeader_text who hh
  have hlen := (header_ne_nil hh).2
  have hrun : logBuf ctx r who bytes =
      if maxLogSize - h.val.length < bytes.length then .ok (b, [])
      else b.store who h.val.length bytes >>=
        writeLog ctx.outputFlag r.level r.pfd who (h.val.length + bytes.length) := by
    unfold logBuf
    rw [hheader]
    rfl
  rw [hrun, List.length_append]
  by_cases hreject : maxLogSize < h.val.length + bytes.length
  · rw [if_pos (by omega)]
    exact iff_of_true (contained_nil _) (Or.inl hreject)
  · obtain ⟨b', hstore, hb'⟩ := Buffer.store_ok hb bytes (by omega)
    rw [if_neg (by omega), hstore, or_iff_right hreject, ← List.length_append]
    change Contained who bytes (writeLog _ _ _ _ _ b') ↔ _
    by_cases hflag : ctx.outputFlag = 0
    · rw [writeLog_off (Or.inr hflag)]
      exact iff_of_true (contained_nil _) (Or.inl hflag)
    · rw [writeLog_contained_iff (by decide) hb' (by simp [(header_ne_nil hh).1]) (nul_iff h bytes)
        hflag, or_iff_right hflag]
      have hbehind : ((⟨0, who⟩ :: ctx.buf.val.drop (h.val.length + 1) : List Cell).drop
          bytes.length).head?.map Cell.val = behind ctx h bytes := by
        unfold behind
        cases bytes with
        | nil => rfl
        | cons x xs =>
          rw [if_neg (List.cons_ne_nil x xs), List.length_cons, List.drop_succ_cons, List.drop_drop,
            List.head?_drop, List.length_append, List.length_cons]
          congr 2
          omega
      rw [hbehind]

/-! ### Bytes as digits -/

theorem hexDigit_ne {d : ℕ} (hd : d < 16) :
    CString.hexDigit d ≠ 0 ∧ CString.hexDigit d ≠ newline := by
  have hall : ∀ d < 16, CString.hexDigit d ≠ 0 ∧ CString.hexDigit d ≠ newline := by decide
  exact hall d hd

theorem mem_hex_ne {x c : UInt8} (hc : c ∈ CString.hex x) : c ≠ 0 ∧ c ≠ newline := by
  have hlt := x.toNat_lt
  simp only [CString.hex, List.mem_cons, List.not_mem_nil, or_false] at hc
  rcases hc with rfl | rfl
  · exact hexDigit_ne (by omega)
  · exact hexDigit_ne (by omega)

/-- The loop of `log_memory`, on a buffer that begins with a text: two digits a byte, as long as there is
    room for them and a NUL. -/
theorem writeDigits_spec {n : ℕ} : ∀ (xs : List UInt8) {m : List UInt8} {b : Buffer n}
    {rest : List Cell}, b.val = mark who m ++ rest → 0 ∉ m → nulAt rest = some 0 →
    (m.length + 2 * xs.length < n → ∃ (b' : Buffer n) (rest' : List Cell),
      writeDigits who xs b = .ok b' ∧
        b'.val = mark who (m ++ xs.flatMap CString.hex) ++ rest' ∧ nulAt rest' = some 0) ∧
    (n ≤ m.length + 2 * xs.length → writeDigits who xs b = .error .overflow)
  | [], m, b, rest, hb, _, hrest => by
    have hsize := Buffer.length_parts hb
    have hpos := length_pos_of_nulAt hrest
    constructor
    · intro _
      exact ⟨b, rest, rfl, by rw [List.flatMap_nil, List.append_nil, hb], hrest⟩
    · intro hfull
      rw [List.length_nil] at hfull
      omega
  | x :: xs, m, b, rest, hb, hfree, hrest => by
    have hsize := Buffer.length_parts hb
    have hpos := length_pos_of_nulAt hrest
    have hnul : nulAt b.val = some m.length := by
      rw [hb, nulAt_append_iff hfree, hrest]
    have hstep : writeDigits who (x :: xs) b =
        b.store who m.length (CString.hex x ++ [0]) >>= writeDigits who xs := by
      rw [writeDigits, hnul]
      exact if_pos (by omega)
    rw [hstep, List.length_cons]
    by_cases hfit : m.length + 3 ≤ n
    · obtain ⟨b', hstore, hb'⟩ := Buffer.store_ok hb (CString.hex x ++ [0])
        (by simp [CString.hex]; omega)
      have hb'' : b'.val = mark who (m ++ CString.hex x) ++ (⟨0, who⟩ :: rest.drop 3) := by
        rw [hb', ← List.append_assoc, mark_append who (m ++ CString.hex x), List.append_assoc]
        rfl
      have hfree' : 0 ∉ m ++ CString.hex x := by
        rw [List.mem_append]
        exact fun h => h.elim hfree fun h => (mem_hex_ne h).1 rfl
      obtain ⟨hroom, hfull⟩ := writeDigits_spec xs hb'' hfree' (by simp [nulAt, List.findIdx?_cons])
      have hlen : (m ++ CString.hex x).length = m.length + 2 := List.length_append
      rw [hlen] at hroom hfull
      rw [hstore, List.flatMap_cons, ← List.append_assoc]
      exact ⟨fun h => hroom (by omega), fun h => hfull (by omega)⟩
    · have hstore : b.store who m.length (CString.hex x ++ [0]) = .error .overflow :=
        Buffer.store_overflow (by change n < m.length + 3; omega)
      rw [hstore]
      exact ⟨fun h => by omega, fun _ => rfl⟩

theorem memoryText_last (size : ℕ) : (memoryText size).val.getLast? = some 58 := by
  simp [memoryText, CString.concat, CString.append, CString.empty, List.getLast?_cons]

theorem length_digits (xs : List UInt8) : (xs.flatMap CString.hex).length = 2 * xs.length := by
  induction xs with
  | nil => rfl
  | cons x xs ih =>
    rw [List.flatMap_cons, List.length_append, ih, List.length_cons]
    change 2 + 2 * xs.length = _
    omega

/-- The text of `log_memory`. -/
def memoryMessage (bytes : List UInt8) : List UInt8 :=
  (memoryText bytes.length).val ++ bytes.flatMap CString.hex

theorem length_memoryMessage (bytes : List UInt8) : (memoryMessage bytes).length =
    (memoryText bytes.length).val.length + 2 * bytes.length := by
  rw [memoryMessage, List.length_append, length_digits]

theorem memoryMessage_ne_nil (bytes : List UInt8) : memoryMessage bytes ≠ [] := by
  intro h
  have hlast := memoryText_last bytes.length
  rw [(List.append_eq_nil_iff.mp h).1] at hlast
  cases hlast

theorem nul_not_mem_memoryMessage (bytes : List UInt8) : 0 ∉ memoryMessage bytes := by
  rw [memoryMessage, List.mem_append]
  rintro (h | h)
  · exact (memoryText bytes.length).property h
  · obtain ⟨x, -, hx⟩ := List.mem_flatMap.mp h
    exact (mem_hex_ne hx).1 rfl

theorem memoryMessage_last (bytes : List UInt8) :
    (memoryMessage bytes).getLast? ≠ some newline := by
  intro h
  rw [memoryMessage, List.getLast?_append, memoryText_last] at h
  cases hdigits : (bytes.flatMap CString.hex).getLast? with
  | none =>
    rw [hdigits] at h
    cases h
  | some c =>
    rw [hdigits] at h
    obtain ⟨x, -, hx⟩ := List.mem_flatMap.mp (List.mem_of_getLast? hdigits)
    exact (mem_hex_ne hx).2 (Option.some.inj h)

theorem logMemory_contained_iff (bytes : List UInt8) :
    Contained who bytes (logMemory ctx r who bytes) ↔
      (memoryMessage bytes).length < maxLogSize ∧
        (ctx.outputFlag = 0 ∨ (memoryMessage bytes).length + 2 ≤ maxLogSize) := by
  have hclear : (Buffer.clear who maxLogSize).val = mark who [] ++
      mark who (List.replicate maxLogSize 0) := rfl
  have htext := length_memoryMessage bytes
  by_cases hbegin : (memoryText bytes.length).val.length < maxLogSize
  · obtain ⟨b, hstore, hb⟩ := Buffer.store_ok hclear ((memoryText bytes.length).val ++ [0])
      (by simp; omega)
    rw [List.nil_append, mark_append, List.append_assoc] at hb
    obtain ⟨hroom, hfull⟩ := writeDigits_spec bytes hb (memoryText bytes.length).property
      (nulAt_eq_zero_iff.mpr rfl)
    rw [← htext] at hroom hfull
    have hrun : logMemory ctx r who bytes = writeDigits who bytes b >>=
        writeText ctx.outputFlag r.level r.pfd who := congrArg (fun x => x >>= _) hstore
    rw [hrun]
    by_cases hfit : (memoryMessage bytes).length < maxLogSize
    · obtain ⟨b', rest, hdigits, hb', hrest⟩ := hroom hfit
      have hm := memoryMessage_ne_nil bytes
      have hlast := memoryMessage_last bytes
      have hfree := nul_not_mem_memoryMessage bytes
      have hmessage : b'.val = mark who (memoryMessage bytes) ++ rest := hb'
      have hnul : nulAt b'.val = some (memoryMessage bytes).length := by
        rw [hmessage, nulAt_append_iff hfree, hrest]
      have hwrite : writeText ctx.outputFlag r.level r.pfd who b' =
          writeLog ctx.outputFlag r.level r.pfd who (memoryMessage bytes).length b' := by
        unfold writeText
        rw [hnul]
      rw [hdigits, and_iff_right hfit]
      change Contained who bytes (writeText _ _ _ _ b') ↔ _
      rw [hwrite]
      by_cases hflag : ctx.outputFlag = 0
      · rw [writeLog_off (Or.inr hflag)]
        exact iff_of_true (contained_nil _) (Or.inl hflag)
      · rw [or_iff_right hflag]
        by_cases hline : (memoryMessage bytes).length + 2 ≤ maxLogSize
        · have hcontained : Contained who [] (writeLog _ _ _ _ _ b') :=
            (writeLog_contained_iff (by decide) hmessage hm (iff_of_false hfree List.not_mem_nil)
              hflag r.level r.pfd).mpr (Or.inl ⟨hlast, hline⟩)
          exact iff_of_true hcontained.of_nil hline
        · have hend := endLine_overflow hmessage hm hlast hfit (by omega)
          rw [← loglen_eq hfit] at hend
          rw [writeLog_overflow hflag r.level r.pfd hm hend]
          exact iff_of_false not_contained_overflow hline
    · rw [hfull (by omega)]
      exact iff_of_false not_contained_overflow fun h => hfit h.1
  · have hstore : (Buffer.clear who maxLogSize).store who 0
        ((memoryText bytes.length).val ++ [0]) = .error .overflow :=
      Buffer.store_overflow (by simp; omega)
    have hrun : logMemory ctx r who bytes = .error .overflow :=
      congrArg (fun x => x >>= _) hstore
    rw [hrun]
    exact iff_of_false not_contained_overflow fun h => hbegin (by omega)

/-! ### Sequences of calls -/

/-- A call stays in its bounds exactly if it fits; of an empty payload without a header nothing is
    said. -/
theorem bounded_iff_fits {ctx : LogCtx} {r : Request}
    (hempty : header ctx r = .failed → r.payload = .buf [] → ctx.outputFlag = 0) :
    Bounded ctx r ↔ Fits ctx r := by
  unfold Bounded Fits logCall
  by_cases hlevel : ctx.logLevel > r.level
  · rw [if_pos hlevel]
    exact iff_of_true (contained_nil _) (Or.inl hlevel)
  · rw [if_neg hlevel, or_iff_right hlevel]
    unfold logPayload
    cases hpayload : r.payload with
    | memory bytes =>
      simp only [Payload.bytes]
      rw [logMemory_contained_iff, length_memoryMessage]
    | format text =>
      simp only [Payload.bytes]
      cases hh : header ctx r with
      | off =>
        have hrun : logFormat ctx r (ctx.calls + 1) text = .ok (ctx.buf, []) := by
          unfold logFormat generateHeader
          rw [hh]
          rfl
        rw [hrun]
        exact iff_of_true (contained_nil _) trivial
      | failed =>
        have hrun : logFormat ctx r (ctx.calls + 1) text = .error .overflow := by
          have hstore : ctx.buf.store (ctx.calls + 1) maxLogSize (text ++ [0]) = .error .overflow :=
            Buffer.store_overflow (by simp)
          unfold logFormat generateHeader
          rw [hh]
          exact congrArg (fun x => x >>= _) hstore
        rw [hrun]
        exact iff_of_false not_contained_overflow id
      | text h => exact logFormat_contained_iff hh text
    | buf bytes =>
      simp only [Payload.bytes]
      cases hh : header ctx r with
      | off =>
        have hrun : logBuf ctx r (ctx.calls + 1) bytes = .ok (ctx.buf, []) := by
          unfold logBuf generateHeader
          rw [hh]
          rfl
        rw [hrun]
        exact iff_of_true (contained_nil _) trivial
      | failed =>
        by_cases hbytes : bytes = []
        · subst hbytes
          have hflag := hempty hh hpayload
          obtain ⟨b, hstore⟩ := ctx.buf.store_returns (ctx.calls + 1) maxLogSize [] (Nat.le_refl _)
          have hrun : logBuf ctx r (ctx.calls + 1) [] =
              ctx.buf.store (ctx.calls + 1) maxLogSize [] >>=
                writeLog ctx.outputFlag r.level r.pfd (ctx.calls + 1) maxLogSize := by
            unfold logBuf generateHeader
            rw [hh]
            rfl
          rw [hrun, hstore]
          change Contained _ _ (writeLog _ _ _ _ _ b) ↔ _
          rw [writeLog_off (Or.inr hflag)]
          exact iff_of_true (contained_nil _) (Or.inr hflag)
        · have hrun : logBuf ctx r (ctx.calls + 1) bytes = .ok (ctx.buf, []) := by
            unfold logBuf generateHeader
            rw [hh]
            exact if_pos (by simpa [List.length_pos_iff] using hbytes)
          rw [hrun]
          exact iff_of_true (contained_nil _) (Or.inl hbytes)
      | text h => exact logBuf_contained_iff hh bytes

theorem bounded_of_fits {ctx : LogCtx} {r : Request} (h : Fits ctx r) : Bounded ctx r := by
  by_cases hlevel : ctx.logLevel > r.level
  · unfold Bounded logCall
    rw [if_pos hlevel]
    exact contained_nil _
  · refine (bounded_iff_fits fun hh hpayload => ?_).mpr h
    have hfits := h.resolve_left hlevel
    rw [hpayload, hh] at hfits
    exact hfits.resolve_left fun hne => hne rfl

end

/-- CORRECT: in every sequence of calls that fit, each in the context that it finds, every call stays in
    its bounds. -/
theorem along_bounded : ∀ {rs : List Request} {ctx : LogCtx},
    Along Fits ctx rs → Along Bounded ctx rs
  | [], _, _ => trivial
  | _ :: _, _, ⟨hfits, hrest⟩ =>
    ⟨bounded_of_fits hfits, fun b out hrun => along_bounded (hrest b out hrun)⟩

/-- A context that writes to the console, and its first buffer. -/
def console : LogCtx := ⟨1, outputFlagConsole, false, .clear 0 maxLogSize, 0⟩

/-- A call of this program, at noon. -/
def noon (level : ℤ) (payload : Payload) : Request where
  level := level
  place := ⟨none, .empty, 7, .empty⟩
  now := ⟨some (.decimal 12), .decimal 1, .decimal 0, .empty⟩
  pfd := false
  payload := payload

/-- A text, two bytes, the bytes as digits, and a call below the level: whatever the buffer holds, each
    fits. -/
theorem along_bounded_calls : Along Bounded console [noon 3 (.format [104, 105]),
    noon 3 (.buf [1, 2]), noon 4 (.memory [1, 2]), noon 0 (.format [104])] :=
  along_bounded ⟨Or.inr ⟨by decide, Or.inr (Or.inl (by decide))⟩, fun _ _ _ =>
    ⟨Or.inr (Or.inr (Or.inr (Or.inl (of_decide_eq_true rfl)))), fun _ _ _ =>
      ⟨Or.inr ⟨by decide, Or.inr (by decide)⟩, fun _ _ _ =>
        ⟨Or.inl (of_decide_eq_true rfl), fun _ _ _ => trivial⟩⟩⟩⟩

/-- A text that is as long as the buffer is written behind its end. -/
theorem long_text_overflows : ¬ ∀ ctx rs, Along Bounded ctx rs := by
  intro h
  have hbounded := (h console [noon 3 (.format (List.replicate maxLogSize 120))]).1
  have hfits := (bounded_iff_fits fun _ hpayload => by cases hpayload).mp hbounded
  rcases hfits with hlevel | hfits
  · exact absurd hlevel (by decide)
  · have hlt := hfits.1
    rw [List.length_append, List.length_replicate] at hlt
    omega

end MediasoupClient.Lazyutil
