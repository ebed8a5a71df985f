import MediasoupClient.Lib.CString
import Mathlib.Data.Int.Notation

/-! Writing a line to the log (lazyutil/lazylog.cpp).

        log_format    header   vsprintf, with a NUL      ┐
        log_buf       header   memcpy, without a NUL     ├──▶  write_log: a newline and a NUL, if the
        log_memory    memset, sprintf digit by digit     ┘     last byte is not a newline; output

    The calls hold the mutex, and use one buffer. What stands in it before the first call is arbitrary.
    What the system is asked for is a parameter of the call, and so is whether the file can be opened;
    the line that is written to a new file comes from a buffer of its own. -/

namespace MediasoupClient.Lazyutil
open Lib

/-- `MAX_LOG_SIZE`, the size of the buffer. -/
def maxLogSize : ℕ := 10240

def levelTrace : ℤ := 3
def levelError : ℤ := 5

def outputFlagConsole : ℕ := 1
def outputFlagFile : ℕ := 2

def newline : UInt8 := 10

/-- What is used of `log_ctx`. `calls` counts the calls so far. -/
structure LogCtx where
  logLevel : ℤ
  outputFlag : ℕ
  enableLogFunction : Bool
  buf : Buffer maxLogSize
  calls : ℕ

/-- Where a call is in the code. -/
structure Place where
  tag : Option CString
  filePath : CString
  line : ℕ
  function : CString

/-- What the system reports: the time as text, unless `localtime` fails, the thread, `errno` and its
    text. -/
structure Now where
  time : Option CString
  thread : CString
  errno : CString
  strerror : CString

/-- What is passed on: a text that is formatted, or bytes. -/
inductive Payload where
  | format (text : List UInt8)
  | buf (bytes : List UInt8)
  | memory (bytes : List UInt8)

def Payload.bytes : Payload → List UInt8
  | .format text => text
  | .buf bytes => bytes
  | .memory bytes => bytes

/-- A call, and what it finds: `pfd` says whether there is a file. -/
structure Request where
  level : ℤ
  place : Place
  now : Now
  pfd : Bool
  payload : Payload

/-! ### The header -/

/-- A short text. -/
abbrev word (cs : List Char) : List UInt8 := cs.map fun c => UInt8.ofNat c.toNat

def levelName (level : ℤ) : Option CString :=
  if level = 1 then some ⟨word ['v', 'e', 'r', 'b'], by decide⟩
  else if level = 2 then some ⟨word ['i', 'n', 'f', 'o'], by decide⟩
  else if level = 3 then some ⟨word ['t', 'r', 'a', 'c', 'e'], by decide⟩
  else if level = 4 then some ⟨word ['w', 'a', 'r', 'n'], by decide⟩
  else if level = 5 then some ⟨word ['e', 'r', 'r', 'o', 'r'], by decide⟩
  else none

def bracket : CString := ⟨word ['['], by decide⟩
def brackets : CString := ⟨word [']', '['], by decide⟩
def closing : CString := ⟨word [']'], by decide⟩
def space : CString := ⟨word [' '], by decide⟩
def colon : CString := ⟨word [':'], by decide⟩

def fileName (path : CString) : CString :=
  ((CString.strrchr 47 path).or (CString.strrchr 92 path)).getD path

/-- `loghdr`. -/
def logHdr (enableFunction : Bool) (p : Place) : CString :=
  .concat [p.tag.elim .empty (·.append space), fileName p.filePath, colon, .decimal p.line,
    if enableFunction then space.append p.function else .empty]

def headerText (enableFunction : Bool) (p : Place) (now : Now) (time name : CString) (level : ℤ) :
    CString :=
  .concat [bracket, time, brackets, name, brackets, logHdr enableFunction p, brackets, now.thread,
    if levelError ≤ level then
      .concat [brackets, now.errno, brackets, now.strerror, closing, space]
    else closing]

/-- How `generate_header` ends: it fails and leaves the size that it was passed, or returns 0, or there
    is a header. -/
inductive HeaderEnd where
  | failed
  | off
  | text (header : CString)

/-- The text that `generate_header` writes, cut to the buffer. -/
def header (ctx : LogCtx) (r : Request) : HeaderEnd :=
  match r.now.time with
  | none => .failed
  | some time =>
    match levelName r.level with
    | none => .off
    | some name =>
      .text ((headerText ctx.enableLogFunction r.place r.now time name r.level).first
        (maxLogSize - 1))

/-- `generate_header`: the buffer and the offset behind the header, unless it returns 0. -/
def generateHeader (ctx : LogCtx) (r : Request) (who : ℕ) :
    Except Buffer.Fault (Option (Buffer maxLogSize × ℕ)) :=
  match header ctx r with
  | .failed => .ok (some (ctx.buf, maxLogSize))
  | .off => .ok none
  | .text h => do
    let b ← ctx.buf.store who 0 (h.val ++ [0])
    .ok (some (b, h.val.length))

/-! ### Output -/

/-- What comes out, on the console and in the file. The console stops at a NUL; for the higher levels
    it is told the length too, and the text stands between two codes for its colour. -/
def emitted (flag : ℕ) (level : ℤ) (pfd : Bool) (loglen : ℕ) (cells : List Cell) : List Cell :=
  (if flag &&& outputFlagConsole = 0 then []
    else if level ≤ levelTrace then cells.takeWhile (·.val ≠ 0)
    else (cells.take loglen).takeWhile (·.val ≠ 0)) ++
  if pfd ∧ flag &&& outputFlagFile ≠ 0 then cells.take loglen else []

section
variable {n : ℕ}

/-- The newline and the NUL, and the length of the line. -/
def endLine (who loglen : ℕ) (b : Buffer n) : Except Buffer.Fault (Buffer n × ℕ) :=
  if (b.val[loglen - 1]?).map Cell.val ≠ some newline then do
    let b ← b.store who loglen [newline]
    let b ← b.store who (loglen + 1) [0]
    .ok (b, loglen + 1)
  else .ok (b, loglen)

/-- The assertion, and what comes out. -/
def output (flag : ℕ) (level : ℤ) (pfd : Bool) (loglen : ℕ) (b : Buffer n) :
    Except Buffer.Fault (Buffer n × List Cell) :=
  match nulAt b.val with
  | none => .error .unterminated
  | some bufLen =>
    if bufLen = loglen then .ok (b, emitted flag level pfd loglen b.val)
    else .error .assertion

/-- `write_log`: the buffer, and what comes out. -/
def writeLog (flag : ℕ) (level : ℤ) (pfd : Bool) (who nloglen : ℕ) (b : Buffer n) :
    Except Buffer.Fault (Buffer n × List Cell) :=
  if nloglen = 0 ∨ flag = 0 then .ok (b, [])
  else do
    let (b, loglen) ← endLine who (if n - 1 > nloglen then nloglen else n - 1) b
    output flag level pfd loglen b

/-- `write_log` on what stands in front of the first NUL. -/
def writeText (flag : ℕ) (level : ℤ) (pfd : Bool) (who : ℕ) (b : Buffer n) :
    Except Buffer.Fault (Buffer n × List Cell) :=
  match nulAt b.val with
  | none => .error .unterminated
  | some k => writeLog flag level pfd who k b

/-- The loop of `log_memory`. -/
def writeDigits (who : ℕ) : List UInt8 → Buffer n → Except Buffer.Fault (Buffer n)
  | [], b => .ok b
  | x :: xs, b =>
    match nulAt b.val with
    | none => .error .unterminated
    | some k =>
      if k < n then do
        let b ← b.store who k (CString.hex x ++ [0])
        writeDigits who xs b
      else .ok b

end

/-! ### The calls -/

/-- `log_format`. -/
def logFormat (ctx : LogCtx) (r : Request) (who : ℕ) (text : List UInt8) :
    Except Buffer.Fault (Buffer maxLogSize × List Cell) := do
  match ← generateHeader ctx r who with
  | none => .ok (ctx.buf, [])
  | some (b, offset) =>
    let b ← b.store who offset (text ++ [0])
    writeLog ctx.outputFlag r.level r.pfd who (offset + text.length) b

/-- `log_buf`. -/
def logBuf (ctx : LogCtx) (r : Request) (who : ℕ) (bytes : List UInt8) :
    Except Buffer.Fault (Buffer maxLogSize × List Cell) := do
  match ← generateHeader ctx r who with
  | none => .ok (ctx.buf, [])
  | some (b, offset) =>
    if maxLogSize - offset < bytes.length then .ok (b, [])
    else
      let b ← b.store who offset bytes
      writeLog ctx.outputFlag r.level r.pfd who (offset + bytes.length) b

/-- `size:%d, memory:`. -/
def memoryText (size : ℕ) : CString :=
  .concat [⟨word ['s', 'i', 'z', 'e', ':'], by decide⟩, .decimal size,
    ⟨word [',', ' ', 'm', 'e', 'm', 'o', 'r', 'y', ':'], by decide⟩]

/-- `log_memory`. -/
def logMemory (ctx : LogCtx) (r : Request) (who : ℕ) (bytes : List UInt8) :
    Except Buffer.Fault (Buffer maxLogSize × List Cell) := do
  let b := Buffer.clear who maxLogSize
  let b ← b.store who 0 ((memoryText bytes.length).val ++ [0])
  let b ← writeDigits who bytes b
  writeText ctx.outputFlag r.level r.pfd who b

/-- A call that is not filtered out by its level. -/
def logPayload (ctx : LogCtx) (r : Request) (who : ℕ) :
    Except Buffer.Fault (Buffer maxLogSize × List Cell) :=
  match r.payload with
  | .format text => logFormat ctx r who text
  | .buf bytes => logBuf ctx r who bytes
  | .memory bytes => logMemory ctx r who bytes

/-- A call: the buffer and what comes out. -/
def logCall (ctx : LogCtx) (r : Request) : Except Buffer.Fault (Buffer maxLogSize × List Cell) :=
  if ctx.logLevel > r.level then .ok (ctx.buf, []) else logPayload ctx r (ctx.calls + 1)

/-- The context behind a call that ends. -/
def LogCtx.after (ctx : LogCtx) (b : Buffer maxLogSize) : LogCtx :=
  { ctx with buf := b, calls := ctx.calls + 1 }

end MediasoupClient.Lazyutil
