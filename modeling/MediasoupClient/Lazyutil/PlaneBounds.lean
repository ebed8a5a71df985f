import MediasoupClient.Lazyutil.LazyScale
import Mathlib.Tactic.Ring

/-! The planes of an I420 picture in its buffer.

                     y            u                  v                  the buffer ends
        offset       0            w h                5 w h / 4          3 w h / 2
        written      w h bytes    (h+1)/2 rows of (w+1)/2 columns, w/2 apart

    The offsets and the size of the buffer are rounded down, the rows and columns that are written are
    rounded up. Both are the same for even sizes. Otherwise the planes of chroma are longer than what
    is between them, unless the picture is odd in width and high enough for the shorter stride to make
    up for it. -/

namespace MediasoupClient.Lazyutil
open Lib

/-- The sizes whose planes have room. -/
def Roomy (w h : ℕ) : Prop :=
  w % 2 = 0 ∧ h % 2 = 0 ∨ w % 2 = 1 ∧ (h % 2 = 0 ∧ 4 ≤ h ∨ h % 2 = 1 ∧ w + 4 ≤ h)

instance (w h : ℕ) : Decidable (Roomy w h) :=
  inferInstanceAs (Decidable (_ ∨ _))

/-! ### Intervals -/

section
variable {w h : ℕ} (hw : 1 ≤ w) (hh : 1 ≤ h)
include hw hh

theorem gapless_y : (i420Planes w h).y.Gapless := ⟨hh, hw, Nat.le_refl w⟩

theorem gapless_u : (i420Planes w h).u.Gapless := by
  constructor
  all_goals
    simp only [i420Planes]
    omega

theorem gapless_v : (i420Planes w h).v.Gapless := by
  constructor
  all_goals
    simp only [i420Planes]
    omega

omit hw in
theorem stop_y : (i420Planes w h).y.stop = w * h := by
  obtain ⟨n, rfl⟩ := Nat.exists_eq_add_of_le hh
  simp only [Plane.stop, i420Planes, Nat.add_sub_cancel_left]
  ring

/-- The planes fit if each begins behind the stop of the other, and none stops behind the end. -/
theorem fit_iff_stops {size : ℕ} : (i420Planes w h).Fit size ↔
    ((i420Planes w h).y.stop ≤ (i420Planes w h).u.offset ∨
        (i420Planes w h).u.stop ≤ (i420Planes w h).y.offset) ∧
      ((i420Planes w h).y.stop ≤ (i420Planes w h).v.offset ∨
        (i420Planes w h).v.stop ≤ (i420Planes w h).y.offset) ∧
      ((i420Planes w h).u.stop ≤ (i420Planes w h).v.offset ∨
        (i420Planes w h).v.stop ≤ (i420Planes w h).u.offset) ∧
      (i420Planes w h).y.stop ≤ size ∧ (i420Planes w h).u.stop ≤ size ∧
      (i420Planes w h).v.stop ≤ size := by
  have hy := gapless_y hw hh
  have hu := gapless_u hw hh
  have hv := gapless_v hw hh
  rw [I420Planes.fit_iff, hy.apart_iff hu, hy.apart_iff hv, hu.apart_iff hv, hy.inside_iff,
    hu.inside_iff, hv.inside_iff]
  simp only [and_assoc]

end

/-! ### Rounding -/

/-- The numbers of `fit_iff_stops`, for a picture of `n` pixels whose chroma planes take `c` bytes. -/
theorem stops_iff {n c size : ℕ} (hn : 0 < n) (hc : 0 < c) :
    ((n ≤ n ∨ n + c ≤ 0) ∧ (n ≤ n * 5 / 4 ∨ n * 5 / 4 + c ≤ 0) ∧
      (n + c ≤ n * 5 / 4 ∨ n * 5 / 4 + c ≤ n) ∧
      n ≤ size ∧ n + c ≤ size ∧ n * 5 / 4 + c ≤ size) ↔
      n + c ≤ n * 5 / 4 ∧ n * 5 / 4 + c ≤ size := by
  omega

/-- What a plane of chroma takes. -/
def chromaBytes (w h : ℕ) : ℕ := ((h + 1) / 2 - 1) * (w / 2) + (w + 1) / 2

/-- A number is twice another one, or one or two more than it. -/
theorem exists_half {n : ℕ} (hn : 1 ≤ n) : ∃ a, n = 2 * a + 1 ∨ n = 2 * a + 2 :=
  ⟨(n - 1) / 2, by omega⟩

/-- A plane of chroma is no longer than what is between the planes, and behind the last one, exactly for
    these sizes. -/
theorem chroma_iff {w h : ℕ} (hw : 1 ≤ w) (hh : 1 ≤ h) :
    (w * h + chromaBytes w h ≤ w * h * 5 / 4 ∧
      w * h * 5 / 4 + chromaBytes w h ≤ w * h * 3 / 2) ↔ Roomy w h := by
  obtain ⟨a, ha⟩ := exists_half hw
  obtain ⟨b, hb⟩ := exists_half hh
  have hrows : (h + 1) / 2 - 1 = b := by omega
  have hcols : (w + 1) / 2 = a + 1 := by omega
  rw [chromaBytes, Roomy, hrows, hcols]
  rcases ha with rfl | rfl <;> rcases hb with rfl | rfl
  · have hn : (2 * a + 1) * (2 * b + 1) = 4 * (b * a) + 2 * a + 2 * b + 1 := by ring
    rw [hn, show (2 * a + 1) / 2 = a by omega]
    omega
  · have hn : (2 * a + 1) * (2 * b + 2) = 4 * (b * a) + 4 * a + 2 * b + 2 := by ring
    rw [hn, show (2 * a + 1) / 2 = a by omega]
    omega
  · have hn : (2 * a + 2) * (2 * b + 1) = 4 * (b * a) + 2 * a + 4 * b + 2 := by ring
    rw [hn, show (2 * a + 2) / 2 = a + 1 by omega, Nat.mul_succ]
    omega
  · have hn : (2 * a + 2) * (2 * b + 2) = 4 * (b * a) + 4 * a + 4 * b + 4 := by ring
    rw [hn, show (2 * a + 2) / 2 = a + 1 by omega, Nat.mul_succ]
    omega

/-- The planes of a picture whose products fit in 32 bits are in its buffer exactly for these sizes. -/
theorem fit_iff_roomy {w h : ℕ} (hw : 1 ≤ w) (hh : 1 ≤ h) (hfit : w * h * 5 < 2 ^ 32) :
    (i420Planes w h).Fit (bufferSize w h) ↔ Roomy w h := by
  have hn : 0 < w * h := Nat.mul_pos hw hh
  have hc : 0 < chromaBytes w h := by
    unfold chromaBytes
    omega
  have hu : u32 (w * h) = w * h := Nat.mod_eq_of_lt (by omega)
  have hv : u32 (w * h * 5) = w * h * 5 := Nat.mod_eq_of_lt hfit
  have hsize : bufferSize w h = w * h * 3 / 2 := by
    rw [bufferSize, hu, u32, Nat.mod_eq_of_lt (by omega)]
  rw [fit_iff_stops hw hh, stop_y hh, hsize, ← chroma_iff hw hh, ← stops_iff hn hc]
  simp only [Plane.stop, i420Planes, hu, hv, chromaBytes, Nat.add_assoc]

/-! ### What is passed to libyuv -/

/-- The planes that `toi420` passes, if it calls libyuv. -/
def toi420Planes (srcfoucc : FourCC) (srcw srch : ℕ) : Option I420Planes :=
  (reader srcfoucc).map fun _ => i420Planes srcw srch

/-- `toi420` stays in the buffer of the picture. -/
def ToI420Stays (srcfoucc : FourCC) (srcw srch : ℕ) : Prop :=
  ∀ p, toi420Planes srcfoucc srcw srch = some p → p.Fit (bufferSize srcw srch)

/-- `scalei420` stays in the buffers of both pictures. -/
def ScaleI420Stays (srcw srch dstw dsth : ℕ) : Prop :=
  (i420Planes srcw srch).Fit (bufferSize srcw srch) ∧
    (i420Planes dstw dsth).Fit (bufferSize dstw dsth)

/-- `toi420`, where it calls libyuv. -/
theorem toi420_of_reader (yuv : Libyuv) {psrc : Bytes} {srcfoucc : FourCC} {srcw srch : ℕ}
    {f : ToI420} (hf : reader srcfoucc = some f)
    (hsrc : imageSize srcfoucc srcw srch ≤ psrc.length) :
    toi420 yuv psrc srcfoucc srcw srch (bufferSize srcw srch) =
      if (i420Planes srcw srch).Fit (bufferSize srcw srch) then
        some (0, yuv.toI420 f srcw srch (psrc.take (imageSize srcfoucc srcw srch)))
      else none := by
  unfold toi420
  rw [if_pos ⟨Nat.le_refl _, hsrc⟩]
  cases srcfoucc with
  | i420 | yv12 | other => cases hf
  | nv12 | nv21 | yuy2 | argb | bgra | bgr3 | rgb3 | rgba | abgr => simp only [hf]

/-- The two functions are defined exactly if they stay in the buffers. -/
theorem toi420_defined_iff (yuv : Libyuv) {psrc : Bytes} {srcfoucc : FourCC} {srcw srch : ℕ}
    {f : ToI420} (hf : reader srcfoucc = some f)
    (hsrc : imageSize srcfoucc srcw srch ≤ psrc.length) :
    (toi420 yuv psrc srcfoucc srcw srch (bufferSize srcw srch)).isSome = true ↔
      ToI420Stays srcfoucc srcw srch := by
  have hstays : ToI420Stays srcfoucc srcw srch ↔
      (i420Planes srcw srch).Fit (bufferSize srcw srch) := by
    simp only [ToI420Stays, toi420Planes, hf, Option.map_some, Option.some.injEq, forall_eq']
  rw [hstays, toi420_of_reader yuv hf hsrc]
  split_ifs with hfit <;> simp [hfit]

theorem scalei420_defined_iff (yuv : Libyuv) {psrc : Bytes} {srcw srch dstw dsth : ℕ}
    (hsrc : bufferSize srcw srch ≤ psrc.length) :
    (scalei420 yuv psrc srcw srch dstw dsth).isSome = true ↔
      ScaleI420Stays srcw srch dstw dsth := by
  unfold scalei420 ScaleI420Stays
  split_ifs with hfit
  · exact iff_of_true rfl ⟨hfit.1, hfit.2.2⟩
  · exact iff_of_false (by simp) fun hstays => hfit ⟨hstays.1, hsrc, hstays.2⟩

/-- CORRECT: the planes that are passed to libyuv stay in the buffers exactly for pictures of even size,
    or odd width and a height that makes up for it. -/
theorem planes_stay_iff (srcfoucc : FourCC) {srcw srch dstw dsth : ℕ} (hw : 1 ≤ srcw)
    (hh : 1 ≤ srch) (hfit : srcw * srch * 5 < 2 ^ 32) (hw' : 1 ≤ dstw) (hh' : 1 ≤ dsth)
    (hfit' : dstw * dsth * 5 < 2 ^ 32) :
    (ToI420Stays srcfoucc srcw srch ↔ reader srcfoucc = none ∨ Roomy srcw srch) ∧
      (ScaleI420Stays srcw srch dstw dsth ↔ Roomy srcw srch ∧ Roomy dstw dsth) := by
  constructor
  · rw [← fit_iff_roomy hw hh hfit]
    unfold ToI420Stays toi420Planes
    cases reader srcfoucc with
    | none => simp
    | some f => simp
  · rw [ScaleI420Stays, fit_iff_roomy hw hh hfit, fit_iff_roomy hw' hh' hfit']

/-- A picture of 3 by 8 pixels has room, and one of 3 by 2 pixels has none. -/
theorem planes_stay_odd :
    (ToI420Stays .bgra 3 8 ∧ ScaleI420Stays 3 8 6 16) ∧
      ¬ ToI420Stays .bgra 3 2 ∧ ¬ ScaleI420Stays 3 8 3 2 := by
  have hhigh : (ToI420Stays .bgra 3 8 ↔ _) ∧ (ScaleI420Stays 3 8 6 16 ↔ _) :=
    planes_stay_iff .bgra (by decide) (by decide) (by decide) (by decide) (by decide) (by decide)
  have hlow : (ToI420Stays .bgra 3 2 ↔ _) ∧ (ScaleI420Stays 3 2 3 2 ↔ _) :=
    planes_stay_iff .bgra (by decide) (by decide) (by decide) (by decide) (by decide) (by decide)
  have hscale : (ToI420Stays .bgra 3 8 ↔ _) ∧ (ScaleI420Stays 3 8 3 2 ↔ _) :=
    planes_stay_iff .bgra (by decide) (by decide) (by decide) (by decide) (by decide) (by decide)
  exact ⟨⟨hhigh.1.mpr (by decide), hhigh.2.mpr (by decide)⟩, mt hlow.1.mp (by decide),
    mt hscale.2.mp (by decide)⟩

/-- The last row of chroma of a picture of 2 by 3 pixels is written into the next plane. -/
theorem odd_height_overlaps : ¬ ∀ srcfoucc srcw srch, 1 ≤ srcw → 1 ≤ srch →
    srcw * srch * 5 < 2 ^ 32 → ToI420Stays srcfoucc srcw srch := by
  intro h
  have hfit := h .bgra 2 3 (by decide) (by decide) (by decide) _ rfl
  exact absurd hfit.uv (by decide)

end MediasoupClient.Lazyutil
