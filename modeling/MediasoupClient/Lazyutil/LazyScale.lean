import MediasoupClient.Lib.Call
import MediasoupClient.Lib.Plane
import Mathlib.Algebra.Group.Nat.Defs

/-! Scaling and conversion of pictures (lazyutil/lbscale.h).

        source ──toi420──▶ _i420_data ──scalei420──▶ _scale_data ──fromi420──▶ destination

        the formats differ          toi420 unless the source is I420
        four bytes a pixel, same    copied, or scaled as it is: done
        the sizes differ            scalei420
        destination not I420        fromi420

    A stage whose result is the destination writes into it at once. The names of the formats are the
    order of the bytes in memory, as the comments of the source have them, those of libyuv are the
    order in a little-endian word. The conversions of libyuv are parameters. -/

namespace MediasoupClient.Lazyutil
open Lib

abbrev Bytes := List UInt8

inductive FourCC where
  | i420 | yv12 | nv12 | nv21 | yuy2 | argb | bgra | bgr3 | rgb3 | rgba | abgr
  | other (code : ℕ)
  deriving DecidableEq, Repr

/-- The functions of libyuv that make I420 of a picture: `NV12ToI420` and so on. -/
inductive ToI420 where
  | nv12 | nv21 | yuy2 | argb | bgra | rgb24 | raw | abgr | rgba
  deriving DecidableEq, Repr

/-- The functions of libyuv that make a picture of I420: `I420ToNV21` and so on. -/
inductive FromI420 where
  | nv21 | nv12 | yuy2 | bgra | argb | rgb24 | raw | abgr
  deriving DecidableEq, Repr

/-- The bytes of a picture. -/
def imageSize : FourCC → ℕ → ℕ → ℕ
  | .i420, w, h | .yv12, w, h | .nv12, w, h | .nv21, w, h => w * h * 3 / 2
  | .yuy2, w, h => w * h * 2
  | .bgr3, w, h | .rgb3, w, h => w * h * 3
  | .argb, w, h | .bgra, w, h | .rgba, w, h | .abgr, w, h => w * h * 4
  | .other _, _, _ => 0

def ToI420.format : ToI420 → FourCC
  | .nv12 => .nv12
  | .nv21 => .nv21
  | .yuy2 => .yuy2
  | .argb => .bgra
  | .bgra => .argb
  | .rgb24 => .bgr3
  | .raw => .rgb3
  | .abgr => .rgba
  | .rgba => .abgr

def FromI420.format : FromI420 → FourCC
  | .nv21 => .nv21
  | .nv12 => .nv12
  | .yuy2 => .yuy2
  | .bgra => .argb
  | .argb => .bgra
  | .rgb24 => .bgr3
  | .raw => .rgb3
  | .abgr => .rgba

/-- libyuv: what the functions make of the bytes of a picture. For a picture with rows and columns they
    return 0, and write a picture of the format and size asked for. -/
structure Libyuv where
  toI420 : ToI420 → ℕ → ℕ → Bytes → Bytes
  fromI420 : FromI420 → ℕ → ℕ → Bytes → Bytes
  i420Scale : ℕ → ℕ → ℕ → ℕ → Bytes → Bytes
  argbScale : ℕ → ℕ → ℕ → ℕ → Bytes → Bytes
  length_toI420 : ∀ f w h src, (toI420 f w h src).length = imageSize .i420 w h
  length_fromI420 : ∀ f w h src, (fromI420 f w h src).length = imageSize f.format w h
  length_i420Scale : ∀ w h w' h' src, (i420Scale w h w' h' src).length = imageSize .i420 w' h'
  length_argbScale : ∀ w h w' h' src, (argbScale w h w' h' src).length = imageSize .argb w' h'

/-! ### Planes -/

/-- `uint32_t` arithmetic. -/
def u32 (n : ℕ) : ℕ := n % 2 ^ 32

/-- `w * h * 3 / 2`: what is allocated for an I420 picture. -/
def bufferSize (w h : ℕ) : ℕ := u32 (u32 (w * h) * 3) / 2

/-- The planes of an I420 picture. -/
structure I420Planes where
  y : Plane
  u : Plane
  v : Plane

/-- The planes that are passed to libyuv: `p`, `p + w * h` and `p + w * h * 5 / 4` with the strides `w`
    and `w / 2`. Of the chroma planes `(w + 1) / 2` columns and `(h + 1) / 2` rows are touched. -/
def i420Planes (w h : ℕ) : I420Planes where
  y := ⟨0, w, w, h⟩
  u := ⟨u32 (w * h), w / 2, (w + 1) / 2, (h + 1) / 2⟩
  v := ⟨u32 (u32 (w * h) * 5) / 4, w / 2, (w + 1) / 2, (h + 1) / 2⟩

/-- The planes are disjoint and lie in a buffer of this size. -/
structure I420Planes.Fit (p : I420Planes) (size : ℕ) : Prop where
  yu : p.y.Apart p.u
  yv : p.y.Apart p.v
  uv : p.u.Apart p.v
  yInside : p.y.Inside size
  uInside : p.u.Inside size
  vInside : p.v.Inside size

theorem I420Planes.fit_iff {p : I420Planes} {size : ℕ} : p.Fit size ↔
    (p.y.Apart p.u ∧ p.y.Apart p.v ∧ p.u.Apart p.v) ∧
      p.y.Inside size ∧ p.u.Inside size ∧ p.v.Inside size :=
  ⟨fun h => ⟨⟨h.yu, h.yv, h.uv⟩, h.yInside, h.uInside, h.vInside⟩,
    fun ⟨⟨hyu, hyv, huv⟩, hy, hu, hv⟩ => ⟨hyu, hyv, huv, hy, hu, hv⟩⟩

instance (p : I420Planes) (size : ℕ) : Decidable (p.Fit size) :=
  decidable_of_iff _ I420Planes.fit_iff.symm

/-! ### Stages -/

/-- The two chroma planes of an even picture change places. -/
def swapChroma (w h : ℕ) (p : Bytes) : Bytes :=
  let len := w * h
  p.take len ++ (p.drop (len * 5 / 4)).take (len / 4) ++ (p.drop len).take (len / 4)

/-- The function that `toi420` calls for the format, if it calls one. -/
def reader : FourCC → Option ToI420
  | .nv12 => some .nv12
  | .nv21 => some .nv21
  | .yuy2 => some .yuy2
  | .argb => some .argb
  | .bgra => some .argb
  | .bgr3 => some .rgb24
  | .rgb3 => some .raw
  | .rgba => some .abgr
  | .abgr => some .rgba
  | .i420 | .yv12 | .other _ => none

/-- The function that `fromi420` calls for the format, if it calls one. -/
def writer : FourCC → Option FromI420
  | .nv21 => some .nv21
  | .nv12 => some .nv12
  | .yuy2 => some .yuy2
  | .argb => some .bgra
  | .bgra => some .argb
  | .bgr3 => some .rgb24
  | .rgb3 => some .raw
  | .rgba => some .abgr
  | .i420 | .yv12 | .abgr | .other _ => none

/-- The size that `fromi420` asserts for the functions of libyuv. -/
def assertedSize : FromI420 → ℕ → ℕ → ℕ
  | .nv21, w, h | .nv12, w, h | .yuy2, w, h => u32 (u32 (w * h) * 2)
  | .bgra, w, h | .argb, w, h | .abgr, w, h => u32 (u32 (w * h) * 4)
  | .rgb24, w, h | .raw, w, h => u32 (u32 (w * h) * 3)

section
variable (yuv : Libyuv)

/-- `toi420`: the return code and what is written, unless an assertion fails or libyuv is given planes
    that it cannot write. -/
def toi420 (psrc : Bytes) (srcfoucc : FourCC) (srcw srch len : ℕ) : Option (ℤ × Bytes) :=
  if bufferSize srcw srch ≤ len ∧ imageSize srcfoucc srcw srch ≤ psrc.length then
    match srcfoucc with
    | .i420 => some (1, psrc.take len)
    -- the return code is left at its initial value
    | .yv12 => if srcw * srch * 5 < 2 ^ 31 then some (-1, swapChroma srcw srch psrc) else none
    | _ =>
      match reader srcfoucc with
      | none => some (-1, [])
      | some f =>
        if (i420Planes srcw srch).Fit len then
          some (0, yuv.toI420 f srcw srch (psrc.take (imageSize srcfoucc srcw srch)))
        else none
  else none

/-- `fromi420`, in the same way. -/
def fromi420 (psrc : Bytes) (srcw srch len : ℕ) (dstfoucc : FourCC) : Option (ℤ × Bytes) :=
  match dstfoucc with
  -- the copy goes from the destination to the source
  | .i420 => if bufferSize srcw srch ≤ len then some (1, []) else none
  | .yv12 =>
    -- the offsets are of type `int`
    if srcw * srch * 5 < 2 ^ 31 ∧ srcw * srch * 3 / 2 ≤ len ∧ srcw * srch * 3 / 2 ≤ psrc.length then
      some (1, swapChroma srcw srch psrc)
    else none
  | _ =>
    match writer dstfoucc with
    | none => some (-1, [])
    | some f =>
      if assertedSize f srcw srch ≤ len ∧ (i420Planes srcw srch).Fit (bufferSize srcw srch) ∧
          bufferSize srcw srch ≤ psrc.length then
        some (0, yuv.fromI420 f srcw srch (psrc.take (bufferSize srcw srch)))
      else none

def scalei420 (psrc : Bytes) (srcw srch dstw dsth : ℕ) : Option (ℤ × Bytes) :=
  if (i420Planes srcw srch).Fit (bufferSize srcw srch) ∧ bufferSize srcw srch ≤ psrc.length ∧
      (i420Planes dstw dsth).Fit (bufferSize dstw dsth) then
    some (0, yuv.i420Scale srcw srch dstw dsth (psrc.take (bufferSize srcw srch)))
  else none

end

/-! ### The object -/

/-- Bytes written to the begin of a buffer. -/
def overwrite (buffer out : Bytes) : Bytes := out ++ buffer.drop out.length

theorem length_le_overwrite (buffer out : Bytes) :
    buffer.length ≤ (overwrite buffer out).length := by
  unfold overwrite
  simp only [List.length_append, List.length_drop]
  omega

/-- A buffer of the object: what is recorded of its size is there. -/
structure Scratch where
  data : Bytes
  len : ℕ
  fits : len ≤ data.length

def Scratch.empty : Scratch := ⟨[], 0, Nat.le_refl 0⟩

/-- A new buffer, if the recorded size is too small. What is in a new one does not matter. -/
def Scratch.reserve (b : Scratch) (n : ℕ) : Scratch :=
  if h : b.len < n then ⟨List.replicate n 0, n, by simp⟩
  else ⟨b.data, n, Nat.le_trans (Nat.le_of_not_lt h) b.fits⟩

def Scratch.store (b : Scratch) (out : Bytes) : Scratch where
  data := overwrite b.data out
  len := b.len
  fits := Nat.le_trans b.fits (length_le_overwrite b.data out)

/-- The buffers of the object and the destination. -/
structure Buffers where
  i420 : Scratch
  scaled : Scratch
  pdst : Bytes

/-- The body of `scale`: nothing is thrown. -/
abbrev Scaling := Call Empty Buffers

/-- An assertion fails, or bytes that are not there are touched. -/
def undefinedUnless {α : Type} : Option α → Scaling α
  | some a => pure a
  | none => throw .undefined

/-- Write to the destination. -/
def storeDst (out : Bytes) : Scaling Unit := do
  let s ← get
  let _ ← undefinedUnless (if out.length ≤ s.pdst.length then some () else none)
  set { s with pdst := overwrite s.pdst out }

section
variable (yuv : Libyuv)

/-- The first part of `scale`: the return code so far, and `psrc_data`. -/
def convertSource (psrc : Bytes) (srcfoucc : FourCC) (srcw srch len : ℕ) (dstfoucc : FourCC)
    (dstw dsth : ℕ) : Scaling (ℤ × Bytes) := do
  if srcfoucc ≠ dstfoucc then
    if srcfoucc = .i420 then return (-1, psrc)
    else
      let size := bufferSize srcw srch
      let (ret, out) ← undefinedUnless (toi420 yuv psrc srcfoucc srcw srch size)
      if srcw = dstw ∧ srch = dsth ∧ dstfoucc = .i420 then
        storeDst out
        if ret < 0 then Call.giveUp ret
        else return (ret, (← get).pdst)
      else
        modify fun s => { s with i420 := (s.i420.reserve size).store out }
        if ret < 0 then Call.giveUp ret
        else return (ret, (← get).i420.data)
  else if srcfoucc ∈ [.bgra, .argb, .rgba, .abgr] then
    if srcw = dstw ∧ srch = dsth then
      let size := u32 (u32 (srcw * 4) * srch)
      let _ ← undefinedUnless (if size ≤ len ∧ size ≤ psrc.length then some () else none)
      storeDst (psrc.take size)
      Call.giveUp 0
    else
      let size := imageSize srcfoucc srcw srch
      -- strides and sizes are passed as `int`
      let _ ← undefinedUnless (if (srcw * 4 < 2 ^ 31 ∧ srch < 2 ^ 31) ∧
        (dstw * 4 < 2 ^ 31 ∧ dsth < 2 ^ 31) ∧ size ≤ psrc.length then some () else none)
      storeDst (yuv.argbScale srcw srch dstw dsth (psrc.take size))
      Call.giveUp 0
  else return (-1, psrc)

/-- The second part: to the other size. -/
def resize (ret : ℤ) (psrc : Bytes) (srcw srch : ℕ) (dstfoucc : FourCC) (dstw dsth : ℕ) :
    Scaling (ℤ × Bytes) := do
  if srcw ≠ dstw ∨ srch ≠ dsth then
    let (ret, out) ← undefinedUnless (scalei420 yuv psrc srcw srch dstw dsth)
    if dstfoucc = .i420 then
      storeDst out
      if ret < 0 then Call.giveUp ret
      else return (ret, (← get).pdst)
    else
      modify fun s => { s with scaled := (s.scaled.reserve (bufferSize dstw dsth)).store out }
      if ret < 0 then Call.giveUp ret
      else return (ret, (← get).scaled.data)
  else return (ret, psrc)

/-- The third part: to the other format. -/
def convertDestination (ret : ℤ) (psrc : Bytes) (len : ℕ) (dstfoucc : FourCC) (dstw dsth : ℕ) :
    Scaling ℤ := do
  if dstfoucc ≠ .i420 then
    let (ret, out) ← undefinedUnless (fromi420 yuv psrc dstw dsth len dstfoucc)
    storeDst out
    if ret < 0 then Call.giveUp ret
    else return ret
  else return ret

/-- `scale`. -/
def scale (psrc : Bytes) (srcfoucc : FourCC) (srcw srch len : ℕ) (dstfoucc : FourCC)
    (dstw dsth : ℕ) : Scaling ℤ := do
  let (dstw, dsth) := if dstw = 0 ∨ dsth = 0 then (srcw, srch) else (dstw, dsth)
  let (ret, psrc) ← convertSource yuv psrc srcfoucc srcw srch len dstfoucc dstw dsth
  let (ret, psrc) ← resize yuv ret psrc srcw srch dstfoucc dstw dsth
  convertDestination yuv ret psrc len dstfoucc dstw dsth

end

end MediasoupClient.Lazyutil
