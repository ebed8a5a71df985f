import MediasoupClient.Lazyutil.PlaneBounds

/-! What a call of `scale` leaves in the destination.

        source ──planar──▶ I420 ──resized──▶ I420 ──packed──▶ destination

    The steps that have nothing to do are left out, and a picture of four bytes a pixel that keeps its
    format is scaled as it is. `scale` goes another way in three cases: it takes the bytes of a picture
    that keeps its format for I420, it reads ARGB as BGRA, and for some formats it returns −1 before
    anything is written to the destination. -/

namespace MediasoupClient.Lazyutil
open Lib

/-- The formats that `toi420` supports. -/
def Readable (f : FourCC) : Prop := f = .i420 ∨ f = .yv12 ∨ (reader f).isSome

/-- The formats that `fromi420` supports. -/
def Writable (f : FourCC) : Prop := f = .i420 ∨ f = .yv12 ∨ (writer f).isSome

/-- Four bytes a pixel. -/
abbrev FourByte (f : FourCC) : Prop := f ∈ [FourCC.bgra, .argb, .rgba, .abgr]

/-- The size of a picture, positive and even. -/
structure EvenSize (w h : ℕ) : Prop where
  w_pos : 1 ≤ w
  h_pos : 1 ≤ h
  w_even : w % 2 = 0
  h_even : h % 2 = 0

/-- The function that reads the format. -/
def readerOf (f : FourCC) : Option ToI420 :=
  [ToI420.nv12, .nv21, .yuy2, .argb, .bgra, .rgb24, .raw, .abgr, .rgba].find? (·.format = f)

/-- The function that writes the format. -/
def writerOf (f : FourCC) : Option FromI420 :=
  [FromI420.nv21, .nv12, .yuy2, .bgra, .argb, .rgb24, .raw, .abgr].find? (·.format = f)

section
variable (yuv : Libyuv)

/-- A picture as I420, by the functions that read the formats. -/
def planar (read : FourCC → Option ToI420) (f : FourCC) (w h : ℕ) (p : Bytes) : Bytes :=
  match f with
  | .i420 => p
  | .yv12 => swapChroma w h p
  | f => (read f).elim [] fun r => yuv.toI420 r w h p

/-- An I420 picture in a format. -/
def packed (f : FourCC) (w h : ℕ) (p : Bytes) : Bytes :=
  match f with
  | .i420 => p
  | .yv12 => swapChroma w h p
  | f => (writerOf f).elim [] fun g => yuv.fromI420 g w h p

/-- An I420 picture in another size. -/
def resized (w h w' h' : ℕ) (p : Bytes) : Bytes :=
  if w = w' ∧ h = h' then p else yuv.i420Scale w h w' h' p

/-- The picture in the format and size asked for. -/
def converted (f : FourCC) (w h : ℕ) (f' : FourCC) (w' h' : ℕ) (psrc : Bytes) : Bytes :=
  let p := psrc.take (imageSize f w h)
  if f = f' ∧ w = w' ∧ h = h' then p
  else if f = f' ∧ FourByte f then yuv.argbScale w h w' h' p
  else packed yuv f' w' h' (resized yuv w h w' h' (planar yuv readerOf f w h p))

/-- What `scale` takes for the I420 picture of the source. -/
def taken (f : FourCC) (w h : ℕ) (f' : FourCC) (psrc : Bytes) : Bytes :=
  if f = f' then psrc.take (imageSize .i420 w h)
  else planar yuv reader f w h (psrc.take (imageSize f w h))

/-- Both readings of the source give the same picture in the end. -/
def Coincides (f : FourCC) (w h : ℕ) (f' : FourCC) (w' h' : ℕ) (psrc : Bytes) : Prop :=
  packed yuv f' w' h' (resized yuv w h w' h' (taken yuv f w h f' psrc)) =
    converted yuv f w h f' w' h' psrc

/-- `scale` leaves the picture in the destination. -/
def Converts (psrc : Bytes) (f : FourCC) (w h : ℕ) (f' : FourCC) (w' h' : ℕ) (s : Buffers) : Prop :=
  ∃ ret t, (scale yuv psrc f w h s.pdst.length f' w' h').enter s = .ok ret t ∧ 0 ≤ ret ∧
    converted yuv f w h f' w' h' psrc <+: t.pdst

end

/-- The products that `scale` forms of the destination fit in their types, and the size that it asserts
    is that of the picture or there nevertheless. -/
def DstOk (f' : FourCC) (w' h' len : ℕ) : Prop :=
  match f' with
  | .yv12 => w' * h' * 5 < 2 ^ 31
  | .nv12 | .nv21 => w' * h' * 2 ≤ len ∧ w' * h' * 5 < 2 ^ 32
  | _ => w' * h' * 5 < 2 ^ 32

/-- Cases in which the source is taken for a picture of another format. -/
def Misread (f f' : FourCC) : Prop := f = f' ∧ f ≠ .i420 ∨ f = .argb

/-- The calls of `scale` that leave the picture in the destination. -/
def Handled (yuv : Libyuv) (psrc : Bytes) (f : FourCC) (w h : ℕ) (f' : FourCC) (w' h' len : ℕ) :
    Prop :=
  if f = f' ∧ FourByte f then w = w' ∧ h = h' ∨ w * 4 < 2 ^ 31 ∧ h < 2 ^ 31
  else
    (f = .yv12 → f' = .yv12) ∧ ¬ (f = .i420 ∧ f' = .i420 ∧ w = w' ∧ h = h') ∧
      w * h * 5 < 2 ^ 32 ∧ DstOk f' w' h' len ∧ (Misread f f' → Coincides yuv f w h f' w' h' psrc)

instance (f' : FourCC) (w' h' len : ℕ) : Decidable (DstOk f' w' h' len) := by
  unfold DstOk
  split <;> infer_instance

/-! ### Formats and sizes -/

theorem writerOf_eq (f : FourCC) : writerOf f = writer f := by
  cases f <;> rfl

theorem readerOf_eq {f : FourCC} (h : f ≠ .argb) : readerOf f = reader f := by
  cases f <;> first | rfl | exact absurd rfl h

theorem format_of_writer {f : FourCC} {g : FromI420} (h : writer f = some g) : g.format = f := by
  cases f <;> cases h <;> rfl

theorem EvenSize.pixels {w h : ℕ} (hs : EvenSize w h) : ∃ n, 1 ≤ n ∧ w * h = 4 * n := by
  obtain ⟨a, rfl⟩ := Nat.dvd_of_mod_eq_zero hs.w_even
  obtain ⟨b, rfl⟩ := Nat.dvd_of_mod_eq_zero hs.h_even
  have ha := hs.w_pos
  have hb := hs.h_pos
  exact ⟨a * b, Nat.mul_pos (by omega) (by omega), by ring⟩

/-- The last plane begins behind the first one unless the product has wrapped around. -/
theorem lt_of_offset {n : ℕ} (h : n ≤ n % 2 ^ 32 * 5 % 2 ^ 32 / 4) : n * 5 < 2 ^ 32 := by
  have hn : n < 2 ^ 32 := by omega
  rw [Nat.mod_eq_of_lt hn] at h
  have hdiv := Nat.div_add_mod (n * 5) (2 ^ 32)
  have hzero : n * 5 / 2 ^ 32 < 1 := by
    have hle : 2 ^ 32 * (n * 5 / 2 ^ 32) ≤ n := by omega
    omega
  omega

/-- The planes of an even picture are in its buffer unless the products wrap around. -/
theorem fit_iff_even {w h : ℕ} (hs : EvenSize w h) :
    (i420Planes w h).Fit (bufferSize w h) ↔ w * h * 5 < 2 ^ 32 := by
  constructor
  · intro hfit
    obtain ⟨-, hyv, -, hy, -, -⟩ := (fit_iff_stops hs.w_pos hs.h_pos).mp hfit
    have hv := (gapless_v hs.w_pos hs.h_pos).offset_lt_stop
    rw [stop_y hs.h_pos] at hyv hy
    simp only [i420Planes, bufferSize, u32] at hyv hy hv
    exact lt_of_offset (by omega)
  · intro hlt
    exact (fit_iff_roomy hs.w_pos hs.h_pos hlt).mpr (Or.inl ⟨hs.w_even, hs.h_even⟩)

theorem bufferSize_eq {w h : ℕ} (hlt : w * h * 5 < 2 ^ 32) :
    bufferSize w h = imageSize .i420 w h := by
  simp only [bufferSize, imageSize, u32]
  omega

theorem lt_of_dstOk {f' : FourCC} {w' h' len : ℕ} (hok : DstOk f' w' h' len) :
    w' * h' * 5 < 2 ^ 32 := by
  unfold DstOk at hok
  split at hok <;> omega

/-- Every format takes at least as much as I420. -/
theorem i420_le_imageSize {f : FourCC} (hf : Readable f ∨ Writable f) (w h : ℕ) :
    imageSize .i420 w h ≤ imageSize f w h := by
  cases f with
  | other => simp [Readable, Writable, reader, writer] at hf
  | _ =>
    simp only [imageSize]
    omega

theorem take_of_begins {p data : Bytes} (h : p <+: data) {n : ℕ} (hn : p.length = n) :
    data.take n = p := by
  subst hn
  exact (List.prefix_iff_eq_take.mp h).symm

theorem length_swapChroma {w h : ℕ} (hs : EvenSize w h) {p : Bytes}
    (hp : imageSize .i420 w h ≤ p.length) :
    (swapChroma w h p).length = imageSize .yv12 w h := by
  obtain ⟨n, -, hn⟩ := hs.pixels
  simp only [swapChroma, imageSize, hn, List.length_append, List.length_take,
    List.length_drop] at hp ⊢
  omega

/-- Only the bytes of the picture are read. -/
theorem swapChroma_of_begins {w h : ℕ} (hs : EvenSize w h) {p data : Bytes} (hp : p <+: data)
    (hlen : p.length = imageSize .i420 w h) : swapChroma w h data = swapChroma w h p := by
  obtain ⟨n, -, hn⟩ := hs.pixels
  obtain ⟨tail, rfl⟩ := hp
  simp only [imageSize, hn] at hlen
  simp only [swapChroma, hn]
  rw [List.take_append_of_le_length (by omega), List.drop_append_of_le_length (by omega),
    List.take_append_of_le_length (by rw [List.length_drop]; omega),
    List.drop_append_of_le_length (by omega),
    List.take_append_of_le_length (by rw [List.length_drop]; omega)]

section
variable {yuv : Libyuv}

theorem length_planar {read : FourCC → Option ToI420} {f : FourCC} {w h : ℕ} (hs : EvenSize w h)
    (hread : f = .i420 ∨ f = .yv12 ∨ (read f).isSome) {p : Bytes}
    (hp : p.length = imageSize f w h) :
    (planar yuv read f w h p).length = imageSize .i420 w h := by
  unfold planar
  split
  · exact hp
  · exact length_swapChroma hs (Nat.le_of_eq hp.symm)
  · rename_i hi hy
    obtain ⟨r, hr⟩ := Option.isSome_iff_exists.mp ((hread.resolve_left hi).resolve_left hy)
    rw [hr]
    exact yuv.length_toI420 r w h p

theorem length_packed (yuv : Libyuv) {f : FourCC} {w h : ℕ} (hs : EvenSize w h) (hf : Writable f) {p : Bytes}
    (hp : p.length = imageSize .i420 w h) :
    (packed yuv f w h p).length = imageSize f w h := by
  unfold packed
  split
  · exact hp
  · exact length_swapChroma hs (Nat.le_of_eq hp.symm)
  · rename_i hi hy
    obtain ⟨g, hg⟩ := Option.isSome_iff_exists.mp ((hf.resolve_left hi).resolve_left hy)
    rw [writerOf_eq, hg]
    exact (yuv.length_fromI420 g w h p).trans (by rw [format_of_writer hg])

theorem length_resized {w h w' h' : ℕ} {p : Bytes} (hp : p.length = imageSize .i420 w h) :
    (resized yuv w h w' h' p).length = imageSize .i420 w' h' := by
  unfold resized
  split_ifs with hsame
  · rw [hp, hsame.1, hsame.2]
  · exact yuv.length_i420Scale w h w' h' p

/-! ### Stages -/

/-- A body ends without an error, and the destination begins with these bytes. -/
def Yields (x : Scaling ℤ) (s : Buffers) (out : Bytes) : Prop :=
  ∃ ret t, x.enter s = .ok ret t ∧ 0 ≤ ret ∧ out <+: t.pdst

theorem yields_bind {α : Type} {x : Scaling α} {f : α → Scaling ℤ} {s t : Buffers} {a : α}
    {out : Bytes} (hx : x s = .ok a t) : Yields (x >>= f) s out ↔ Yields (f a) t out := by
  unfold Yields Call.enter
  rw [Call.bind_ok hx]

theorem yields_of_ok {x : Scaling ℤ} {s t : Buffers} {ret : ℤ} {out : Bytes}
    (hx : x s = .ok ret t) : Yields x s out ↔ 0 ≤ ret ∧ out <+: t.pdst := by
  simp [Yields, Call.enter, hx]

theorem yields_pure {ret : ℤ} {s : Buffers} {out : Bytes} :
    Yields (pure ret) s out ↔ 0 ≤ ret ∧ out <+: s.pdst := yields_of_ok rfl

theorem yields_of_returned {x : Scaling ℤ} {s t : Buffers} {ret : ℤ} {out : Bytes}
    (hx : x s = .error (.returned ret) t) : Yields x s out ↔ 0 ≤ ret ∧ out <+: t.pdst := by
  simp [Yields, Call.enter, hx]

theorem not_yields_of_undefined {x : Scaling ℤ} {s t : Buffers} {out : Bytes}
    (hx : x s = .error .undefined t) : ¬ Yields x s out := by
  simp [Yields, Call.enter, hx]

theorem undefinedUnless_some {α : Type} (a : α) (s : Buffers) :
    undefinedUnless (some a) s = .ok a s := rfl

theorem undefinedUnless_none {α : Type} (s : Buffers) :
    (undefinedUnless none : Scaling α) s = .error .undefined s := rfl

theorem storeDst_ok {out : Bytes} {s : Buffers} (h : out.length ≤ s.pdst.length) :
    storeDst out s = .ok () { s with pdst := overwrite s.pdst out } := by
  unfold storeDst
  rw [Call.get_bind, if_pos h]
  rfl

theorem begins_overwrite (buffer out : Bytes) : out <+: overwrite buffer out :=
  List.prefix_append _ _

theorem length_overwrite {buffer out : Bytes} (h : out.length ≤ buffer.length) :
    (overwrite buffer out).length = buffer.length := by
  simp only [overwrite, List.length_append, List.length_drop]
  omega

/-- Of two pictures of one size a buffer begins with one only. -/
theorem eq_of_begins {p q buffer : Bytes} (hp : p <+: buffer) (hq : q <+: buffer)
    (hlen : p.length = q.length) : p = q :=
  (List.prefix_of_prefix_length_le hp hq (Nat.le_of_eq hlen)).eq_of_length hlen

/-- What `fromi420` asserts of its caller, for a picture that is there. -/
theorem asserted_iff {f : FourCC} {g : FromI420} (hg : writer f = some g) {w h len : ℕ}
    (hlen : imageSize f w h ≤ len) :
    (assertedSize g w h ≤ len ∧ w * h * 5 < 2 ^ 32) ↔ DstOk f w h len := by
  cases f <;> cases hg <;>
    simp only [assertedSize, imageSize, DstOk, u32] at hlen ⊢ <;>
    omega

/-- `fromi420` on a buffer that begins with a picture. -/
theorem fromi420_eq (yuv : Libyuv) {f : FourCC} (hf : Writable f) (hne : f ≠ .i420) {w h len : ℕ}
    (hs : EvenSize w h) (hlen : imageSize f w h ≤ len) {p data : Bytes} (hp : p <+: data)
    (hplen : p.length = imageSize .i420 w h) :
    fromi420 yuv data w h len f =
      if DstOk f w h len then some (if f = .yv12 then 1 else 0, packed yuv f w h p) else none := by
  have hdata := hp.length_le
  rcases hf with rfl | rfl | hsome
  · exact absurd rfl hne
  · have hok : (w * h * 5 < 2 ^ 31 ∧ w * h * 3 / 2 ≤ len ∧ w * h * 3 / 2 ≤ data.length) ↔
        DstOk .yv12 w h len :=
      and_iff_left ⟨hlen, by rwa [hplen] at hdata⟩
    simp only [fromi420, hok, packed, swapChroma_of_begins hs hp hplen, if_true]
  · obtain ⟨g, hg⟩ := Option.isSome_iff_exists.mp hsome
    have heq : fromi420 yuv data w h len f =
        if assertedSize g w h ≤ len ∧ (i420Planes w h).Fit (bufferSize w h) ∧
            bufferSize w h ≤ data.length then
          some (0, yuv.fromI420 g w h (data.take (bufferSize w h)))
        else none := by
      cases f <;> cases hg <;> rfl
    have hpacked : packed yuv f w h p = yuv.fromI420 g w h p := by
      cases f <;> cases hg <;> rfl
    have hyv : f ≠ .yv12 := by
      rintro rfl
      cases hg
    rw [heq, hpacked, if_neg hyv]
    by_cases hok : DstOk f w h len
    · obtain ⟨hasserted, hlt⟩ := (asserted_iff hg hlen).mpr hok
      rw [bufferSize_eq hlt, take_of_begins hp hplen, if_pos hok, if_pos]
      refine ⟨hasserted, ?_, hplen ▸ hdata⟩
      rw [← bufferSize_eq hlt]
      exact (fit_iff_even hs).mpr hlt
    · rw [if_neg hok, if_neg]
      rintro ⟨hasserted, hfit, -⟩
      exact hok ((asserted_iff hg hlen).mp ⟨hasserted, (fit_iff_even hs).mp hfit⟩)

/-- The last stage, on a buffer that begins with a picture. -/
theorem convertDestination_yields {f' : FourCC} (hf' : Writable f') (hne : f' ≠ .i420) {w' h' : ℕ}
    (hs : EvenSize w' h') {ret : ℤ} {t : Buffers} (hdst : imageSize f' w' h' ≤ t.pdst.length)
    {q data out : Bytes} (hq : q <+: data) (hlen : q.length = imageSize .i420 w' h')
    (hout : out.length = imageSize f' w' h') :
    Yields (convertDestination yuv ret data t.pdst.length f' w' h') t out ↔
      DstOk f' w' h' t.pdst.length ∧ packed yuv f' w' h' q = out := by
  have hfrom := fromi420_eq yuv hf' hne hs hdst hq hlen
  have hpacked := length_packed yuv hs hf' hlen
  unfold convertDestination
  rw [if_pos hne, hfrom]
  by_cases hok : DstOk f' w' h' t.pdst.length
  · have hret : ¬ (if f' = .yv12 then (1 : ℤ) else 0) < 0 := by
      split_ifs <;> decide
    rw [if_pos hok, yields_bind (undefinedUnless_some _ t)]
    simp only
    rw [yields_bind (storeDst_ok (hpacked.trans_le hdst)), if_neg hret, yields_pure]
    constructor
    · rintro ⟨-, hbegins⟩
      exact ⟨hok, eq_of_begins (begins_overwrite _ _) hbegins (hpacked.trans hout.symm)⟩
    · rintro ⟨-, rfl⟩
      exact ⟨not_lt.mp hret, begins_overwrite _ _⟩
  · rw [if_neg hok]
    exact iff_of_false (not_yields_of_undefined (Call.bind_error (undefinedUnless_none t))) fun h => hok h.1

/-- The second stage, if the size stays. -/
theorem resize_same {ret : ℤ} {data : Bytes} {w h w' h' : ℕ} (hsame : w = w' ∧ h = h') (f' : FourCC)
    (t : Buffers) : resize yuv ret data w h f' w' h' t = .ok (ret, data) t := by
  unfold resize
  rw [if_neg (by simp [hsame])]
  rfl

/-- The second stage, if the size changes. -/
theorem resize_ok (yuv : Libyuv) {w h w' h' : ℕ} (hs : EvenSize w h) (hs' : EvenSize w' h')
    (hsame : ¬ (w = w' ∧ h = h')) (hlt : w * h * 5 < 2 ^ 32) (hlt' : w' * h' * 5 < 2 ^ 32)
    {f' : FourCC} {t : Buffers} (hdst : f' = .i420 → imageSize .i420 w' h' ≤ t.pdst.length)
    (ret : ℤ) {p data : Bytes} (hp : p <+: data) (hlen : p.length = imageSize .i420 w h) :
    ∃ data' t', resize yuv ret data w h f' w' h' t = .ok (0, data') t' ∧
      yuv.i420Scale w h w' h' p <+: data' ∧ t'.pdst.length = t.pdst.length ∧
      (f' = .i420 → yuv.i420Scale w h w' h' p <+: t'.pdst) := by
  have hscale : scalei420 yuv data w h w' h' = some (0, yuv.i420Scale w h w' h' p) := by
    unfold scalei420
    rw [if_pos, bufferSize_eq hlt, take_of_begins hp hlen]
    refine ⟨(fit_iff_even hs).mpr hlt, ?_, (fit_iff_even hs').mpr hlt'⟩
    rw [bufferSize_eq hlt, ← hlen]
    exact hp.length_le
  have hout := yuv.length_i420Scale w h w' h' p
  unfold resize
  rw [if_pos (by omega), hscale, Call.bind_ok (undefinedUnless_some _ t)]
  simp only
  by_cases hf' : f' = .i420
  · have hle := hout.trans_le (hdst hf')
    rw [if_pos hf', Call.bind_ok (storeDst_ok hle), if_neg (by decide)]
    exact ⟨_, _, rfl, begins_overwrite _ _, length_overwrite hle, fun _ => begins_overwrite _ _⟩
  · rw [if_neg hf', Call.modify_bind, if_neg (by decide)]
    exact ⟨_, _, rfl, begins_overwrite _ _, rfl, fun h => absurd h hf'⟩

theorem resize_undefined {w h w' h' : ℕ} (hs : EvenSize w h) (hs' : EvenSize w' h')
    (hsame : ¬ (w = w' ∧ h = h')) (hno : ¬ (w * h * 5 < 2 ^ 32 ∧ w' * h' * 5 < 2 ^ 32))
    (f' : FourCC) (ret : ℤ) (data : Bytes) (t : Buffers) :
    resize yuv ret data w h f' w' h' t = .error .undefined t := by
  have hscale : scalei420 yuv data w h w' h' = none := by
    unfold scalei420
    rw [if_neg]
    rintro ⟨hfit, -, hfit'⟩
    exact hno ⟨(fit_iff_even hs).mp hfit, (fit_iff_even hs').mp hfit'⟩
  unfold resize
  rw [if_pos (by omega), hscale]
  exact Call.bind_error (undefinedUnless_none t)

/-- The second and the third stage, on a buffer that begins with a picture. -/
theorem stages_yield {f' : FourCC} (hf' : Writable f') {w h w' h' : ℕ} (hs : EvenSize w h)
    (hs' : EvenSize w' h') {ret : ℤ} {t : Buffers} (hdst : imageSize f' w' h' ≤ t.pdst.length)
    {p data out : Bytes} (hp : p <+: data) (hlen : p.length = imageSize .i420 w h)
    (hout : out.length = imageSize f' w' h') :
    Yields (resize yuv ret data w h f' w' h' >>= fun r =>
        convertDestination yuv r.1 r.2 t.pdst.length f' w' h') t out ↔
      if (w = w' ∧ h = h') ∧ f' = .i420 then 0 ≤ ret ∧ out <+: t.pdst
      else w * h * 5 < 2 ^ 32 ∧ DstOk f' w' h' t.pdst.length ∧
        packed yuv f' w' h' (resized yuv w h w' h' p) = out := by
  by_cases hsame : w = w' ∧ h = h'
  · rw [yields_bind (resize_same hsame f' t)]
    by_cases hf : f' = .i420
    · rw [if_pos ⟨hsame, hf⟩, convertDestination, if_neg (not_not.mpr hf), yields_pure]
    · rw [if_neg fun h => hf h.2]
      obtain ⟨rfl, rfl⟩ := hsame
      rw [convertDestination_yields hf' hf hs hdst hp hlen hout, resized, if_pos ⟨rfl, rfl⟩]
      exact ⟨fun h => ⟨lt_of_dstOk h.1, h⟩, fun h => h.2⟩
  · rw [if_neg fun h => hsame h.1]
    by_cases hlt : w * h * 5 < 2 ^ 32 ∧ w' * h' * 5 < 2 ^ 32
    · have hdst' : f' = .i420 → imageSize .i420 w' h' ≤ t.pdst.length := by
        rintro rfl
        exact hdst
      obtain ⟨data', t', hrun, hdata, hlen', hbegins⟩ :=
        resize_ok yuv hs hs' hsame hlt.1 hlt.2 hdst' ret hp hlen
      have hscaled := yuv.length_i420Scale w h w' h' p
      rw [yields_bind hrun, ← hlen', resized, if_neg hsame]
      by_cases hf : f' = .i420
      · subst hf
        rw [convertDestination, if_neg (not_not.mpr rfl), yields_pure]
        constructor
        · rintro ⟨-, hbegin⟩
          exact ⟨hlt.1, hlt.2, eq_of_begins (hbegins rfl) hbegin (hscaled.trans hout.symm)⟩
        · rintro ⟨-, -, rfl⟩
          exact ⟨Int.le_refl 0, hbegins rfl⟩
      · rw [convertDestination_yields hf' hf hs' (hlen' ▸ hdst) hdata hscaled hout]
        exact (and_iff_right hlt.1).symm
    · refine iff_of_false (not_yields_of_undefined (Call.bind_error
        (resize_undefined hs hs' hsame hlt f' ret data t))) ?_
      rintro ⟨hwh, hok, -⟩
      exact hlt ⟨hwh, lt_of_dstOk hok⟩

/-- The first stage, where it has nothing to do. -/
theorem convertSource_skips {psrc : Bytes} {f f' : FourCC}
    (hskip : f = f' ∧ ¬ FourByte f ∨ f ≠ f' ∧ f = .i420) (w h len w' h' : ℕ) (s : Buffers) :
    convertSource yuv psrc f w h len f' w' h' s = .ok (-1, psrc) s := by
  unfold convertSource
  rcases hskip with ⟨heq, hnot⟩ | ⟨hne, hi⟩
  · rw [if_neg (not_not.mpr heq), if_neg hnot]
    rfl
  · rw [if_pos hne, if_pos hi]
    rfl

variable (yuv) in
/-- The first stage, where it calls libyuv. -/
theorem convertSource_reads {psrc : Bytes} {f f' : FourCC} (hne : f ≠ f') {r : ToI420}
    (hr : reader f = some r) {w h w' h' : ℕ} (hs : EvenSize w h) (hlt : w * h * 5 < 2 ^ 32)
    (hsrc : imageSize f w h ≤ psrc.length) {s : Buffers} (len : ℕ)
    (hdst : (w = w' ∧ h = h') ∧ f' = .i420 → imageSize .i420 w h ≤ s.pdst.length) :
    ∃ data t, convertSource yuv psrc f w h len f' w' h' s = .ok (0, data) t ∧
      yuv.toI420 r w h (psrc.take (imageSize f w h)) <+: data ∧
      t.pdst.length = s.pdst.length ∧
      ((w = w' ∧ h = h') ∧ f' = .i420 →
        yuv.toI420 r w h (psrc.take (imageSize f w h)) <+: t.pdst) := by
  have hi : f ≠ .i420 := by
    rintro rfl
    cases hr
  have hout := yuv.length_toI420 r w h (psrc.take (imageSize f w h))
  unfold convertSource
  rw [if_pos hne, if_neg hi]
  simp only
  rw [toi420_of_reader yuv hr hsrc, if_pos ((fit_iff_even hs).mpr hlt),
    Call.bind_ok (undefinedUnless_some _ s)]
  simp only
  by_cases hdirect : (w = w' ∧ h = h') ∧ f' = .i420
  · have hle := hout.trans_le (hdst hdirect)
    rw [if_pos ⟨hdirect.1.1, hdirect.1.2, hdirect.2⟩, Call.bind_ok (storeDst_ok hle),
      if_neg (by decide)]
    exact ⟨_, _, rfl, begins_overwrite _ _, length_overwrite hle, fun _ => begins_overwrite _ _⟩
  · rw [if_neg fun h => hdirect ⟨⟨h.1, h.2.1⟩, h.2.2⟩, Call.modify_bind, if_neg (by decide)]
    exact ⟨_, _, rfl, begins_overwrite _ _, rfl, fun h => absurd h hdirect⟩

theorem convertSource_undefined {psrc : Bytes} {f f' : FourCC} (hne : f ≠ f') {r : ToI420}
    (hr : reader f = some r) {w h : ℕ} (hs : EvenSize w h) (hno : ¬ w * h * 5 < 2 ^ 32)
    (hsrc : imageSize f w h ≤ psrc.length) (len w' h' : ℕ) (s : Buffers) :
    convertSource yuv psrc f w h len f' w' h' s = .error .undefined s := by
  have hi : f ≠ .i420 := by
    rintro rfl
    cases hr
  unfold convertSource
  rw [if_pos hne, if_neg hi]
  simp only
  rw [toi420_of_reader yuv hr hsrc, if_neg (mt (fit_iff_even hs).mp hno)]
  exact Call.bind_error (undefinedUnless_none s)

variable (yuv) in
/-- The first stage, on YV12: the return code is still −1 after the planes are copied. -/
theorem convertSource_yv12 {psrc : Bytes} {f' : FourCC} (hne : .yv12 ≠ f') {w h : ℕ}
    (hsrc : imageSize .yv12 w h ≤ psrc.length) (len w' h' : ℕ) (s : Buffers) :
    ∃ stop t, convertSource yuv psrc .yv12 w h len f' w' h' s = .error stop t ∧
      (stop = .undefined ∨ stop = .returned (-1)) := by
  unfold convertSource
  rw [if_pos hne, if_neg (by decide)]
  by_cases hle : bufferSize w h ≤ bufferSize w h ∧ imageSize .yv12 w h ≤ psrc.length
  · by_cases hint : w * h * 5 < 2 ^ 31
    · have hread : toi420 yuv psrc .yv12 w h (bufferSize w h) = some (-1, swapChroma w h psrc) := by
        simp only [toi420, if_pos hle, if_pos hint]
      simp only
      rw [hread, Call.bind_ok (undefinedUnless_some _ s)]
      simp only
      split_ifs with hdirect hnot hnot
      · by_cases hroom : (swapChroma w h psrc).length ≤ s.pdst.length
        · exact ⟨_, _, Call.bind_ok (storeDst_ok hroom), Or.inr rfl⟩
        · refine ⟨.undefined, s, Call.bind_error ?_, Or.inl rfl⟩
          unfold storeDst
          rw [Call.get_bind, if_neg hroom]
          exact Call.bind_error (undefinedUnless_none s)
      · exact absurd (by decide) hnot
      · exact ⟨_, _, Call.modify_bind _ _, Or.inr rfl⟩
      · exact absurd (by decide) hnot
    · have hread : toi420 yuv psrc .yv12 w h (bufferSize w h) = none := by
        simp only [toi420, if_pos hle, if_neg hint]
      simp only
      rw [hread]
      exact ⟨_, _, Call.bind_error (undefinedUnless_none s), Or.inl rfl⟩
  · exact absurd ⟨Nat.le_refl _, hsrc⟩ hle

variable (yuv) in
/-- The first stage, on four bytes a pixel that keep their format: it is the last one. -/
theorem convertSource_fourByte {psrc : Bytes} {f : FourCC} (hfour : FourByte f) {w h w' h' : ℕ}
    (hs' : EvenSize w' h') (hsrc : imageSize f w h ≤ psrc.length) {s : Buffers}
    (hdst : imageSize f w' h' ≤ s.pdst.length) (hint : s.pdst.length < 2 ^ 31) :
    (w = w' ∧ h = h' ∨ w * 4 < 2 ^ 31 ∧ h < 2 ^ 31) ∧
        (∃ t, convertSource yuv psrc f w h s.pdst.length f w' h' s = .error (.returned 0) t ∧
          converted yuv f w h f w' h' psrc <+: t.pdst) ∨
      ¬ (w = w' ∧ h = h' ∨ w * 4 < 2 ^ 31 ∧ h < 2 ^ 31) ∧
        convertSource yuv psrc f w h s.pdst.length f w' h' s = .error .undefined s := by
  have hsize : ∀ w h, imageSize f w h = w * h * 4 := by
    intro w h
    simp only [List.mem_cons, List.not_mem_nil, or_false] at hfour
    rcases hfour with rfl | rfl | rfl | rfl <;> rfl
  rw [hsize] at hsrc hdst
  unfold convertSource
  rw [if_neg (not_not.mpr rfl), if_pos hfour, hsize]
  by_cases hsame : w = w' ∧ h = h'
  · rw [← hsame.1, ← hsame.2] at hdst
    have hconv : converted yuv f w h f w' h' psrc = psrc.take (w * h * 4) := by
      have hcopy : f = f ∧ w = w' ∧ h = h' := ⟨rfl, hsame⟩
      unfold converted
      rw [if_pos hcopy, hsize]
    have hwrap : u32 (u32 (w * 4) * h) = w * h * 4 := by
      rw [u32, u32, Nat.mod_mul_mod, Nat.mul_right_comm, Nat.mod_eq_of_lt (by omega)]
    have hread : w * h * 4 ≤ s.pdst.length ∧ w * h * 4 ≤ psrc.length := ⟨hdst, hsrc⟩
    have hroom : (psrc.take (w * h * 4)).length ≤ s.pdst.length := by
      rw [List.length_take]
      omega
    rw [hconv, if_pos hsame, hwrap, if_pos hread, Call.bind_ok (undefinedUnless_some _ s),
      Call.bind_ok (storeDst_ok hroom)]
    exact Or.inl ⟨Or.inl hsame, _, rfl, begins_overwrite _ _⟩
  · have hconv : converted yuv f w h f w' h' psrc =
        yuv.argbScale w h w' h' (psrc.take (w * h * 4)) := by
      have hcopy : ¬ (f = f ∧ w = w' ∧ h = h') := fun h => hsame h.2
      unfold converted
      rw [if_neg hcopy, if_pos ⟨rfl, hfour⟩, hsize]
    have hdstInt : w' * 4 < 2 ^ 31 ∧ h' < 2 ^ 31 := by
      have hw : w' * 1 ≤ w' * h' := Nat.mul_le_mul_left w' hs'.h_pos
      have hh : 1 * h' ≤ w' * h' := Nat.mul_le_mul_right h' hs'.w_pos
      omega
    have hroom : (yuv.argbScale w h w' h' (psrc.take (w * h * 4))).length ≤ s.pdst.length :=
      (yuv.length_argbScale w h w' h' _).trans_le hdst
    rw [hconv, if_neg hsame]
    by_cases hsrcInt : w * 4 < 2 ^ 31 ∧ h < 2 ^ 31
    · have hread : (w * 4 < 2 ^ 31 ∧ h < 2 ^ 31) ∧ (w' * 4 < 2 ^ 31 ∧ h' < 2 ^ 31) ∧
          w * h * 4 ≤ psrc.length := ⟨hsrcInt, hdstInt, hsrc⟩
      rw [if_pos hread, Call.bind_ok (undefinedUnless_some _ s), Call.bind_ok (storeDst_ok hroom)]
      exact Or.inl ⟨Or.inr hsrcInt, _, rfl, begins_overwrite _ _⟩
    · have hread : ¬ ((w * 4 < 2 ^ 31 ∧ h < 2 ^ 31) ∧ (w' * 4 < 2 ^ 31 ∧ h' < 2 ^ 31) ∧
          w * h * 4 ≤ psrc.length) := fun h => hsrcInt h.1
      rw [if_neg hread]
      exact Or.inr ⟨fun h => h.elim hsame hsrcInt, Call.bind_error (undefinedUnless_none s)⟩

/-! ### The whole call -/

theorem scale_eq {psrc : Bytes} {f f' : FourCC} {w h len w' h' : ℕ} (hs' : EvenSize w' h') :
    scale yuv psrc f w h len f' w' h' =
      convertSource yuv psrc f w h len f' w' h' >>= fun r =>
        resize yuv r.1 r.2 w h f' w' h' >>= fun r =>
          convertDestination yuv r.1 r.2 len f' w' h' := by
  have hzero : ¬ (w' = 0 ∨ h' = 0) := by
    have hw := hs'.w_pos
    have hh := hs'.h_pos
    omega
  unfold scale
  rw [if_neg hzero]

variable (yuv) in
theorem length_converted {psrc : Bytes} {f f' : FourCC} (hf : Readable f) (hf' : Writable f')
    {w h w' h' : ℕ} (hs : EvenSize w h) (hs' : EvenSize w' h')
    (hsrc : imageSize f w h ≤ psrc.length) (hfour : ¬ (f = f' ∧ FourByte f)) :
    (converted yuv f w h f' w' h' psrc).length = imageSize f' w' h' := by
  have hp : (psrc.take (imageSize f w h)).length = imageSize f w h := by
    rw [List.length_take, Nat.min_eq_left hsrc]
  have hread : f = .i420 ∨ f = .yv12 ∨ (readerOf f).isSome := by
    by_cases hargb : f = .argb
    · subst hargb
      exact Or.inr (Or.inr rfl)
    · rwa [readerOf_eq hargb]
  unfold converted
  by_cases hcopy : f = f' ∧ w = w' ∧ h = h'
  · rw [if_pos hcopy, hp, hcopy.1, hcopy.2.1, hcopy.2.2]
  · rw [if_neg hcopy, if_neg hfour]
    exact length_packed yuv hs' hf' (length_resized (length_planar hs hread hp))

theorem planar_eq {f : FourCC} (hf : f ≠ .argb) (w h : ℕ) (p : Bytes) :
    planar yuv reader f w h p = planar yuv readerOf f w h p := by
  cases f <;> first | rfl | exact absurd rfl hf

theorem planar_of_reader {f : FourCC} {r : ToI420} (hr : reader f = some r) (w h : ℕ) (p : Bytes) :
    planar yuv reader f w h p = yuv.toI420 r w h p := by
  cases f <;> cases hr <;> rfl

/-- Where the source is not taken for another picture, it is converted. -/
theorem coincides_of_not_misread {psrc : Bytes} {f f' : FourCC} {w h w' h' : ℕ}
    (hread : ¬ Misread f f') (hfour : ¬ (f = f' ∧ FourByte f))
    (hcopy : ¬ (f = .i420 ∧ f' = .i420 ∧ w = w' ∧ h = h')) :
    Coincides yuv f w h f' w' h' psrc := by
  have hargb : f ≠ .argb := fun h => hread (Or.inr h)
  unfold Coincides taken converted
  by_cases heq : f = f'
  · have hi : f = .i420 := not_not.mp fun hne => hread (Or.inl ⟨heq, hne⟩)
    subst heq hi
    rw [if_pos rfl, if_neg fun h => hcopy ⟨rfl, h⟩, if_neg hfour]
    rfl
  · rw [if_neg heq, if_neg fun h => heq h.1, if_neg hfour, planar_eq hargb]

/-- The calls that go through all three stages. -/
theorem handled_iff {psrc : Bytes} {f f' : FourCC} {w h w' h' len : ℕ}
    (hfour : ¬ (f = f' ∧ FourByte f))
    (hcopy : ¬ (f = .i420 ∧ f' = .i420 ∧ w = w' ∧ h = h')) (hyv : f = .yv12 → f' = .yv12) :
    Handled yuv psrc f w h f' w' h' len ↔
      w * h * 5 < 2 ^ 32 ∧ DstOk f' w' h' len ∧ Coincides yuv f w h f' w' h' psrc := by
  unfold Handled
  rw [if_neg hfour]
  constructor
  · rintro ⟨-, -, hlt, hok, hread⟩
    refine ⟨hlt, hok, ?_⟩
    by_cases hmis : Misread f f'
    · exact hread hmis
    · exact coincides_of_not_misread hmis hfour hcopy
  · rintro ⟨hlt, hok, hsame⟩
    exact ⟨hyv, hcopy, hlt, hok, fun _ => hsame⟩

/-- The calls in which the first stage has nothing to do. -/
theorem skipped_iff {psrc : Bytes} {f f' : FourCC} (hf : Readable f) (hf' : Writable f')
    (hskip : f = f' ∧ ¬ FourByte f ∨ f ≠ f' ∧ f = .i420) {w h w' h' : ℕ} (hs : EvenSize w h)
    (hs' : EvenSize w' h') (hsrc : imageSize f w h ≤ psrc.length) {s : Buffers}
    (hdst : imageSize f' w' h' ≤ s.pdst.length) :
    Converts yuv psrc f w h f' w' h' s ↔ Handled yuv psrc f w h f' w' h' s.pdst.length := by
  have hfour : ¬ (f = f' ∧ FourByte f) := fun h =>
    hskip.elim (fun hs => hs.2 h.2) fun hs => hs.1 h.1
  have hout := length_converted yuv hf hf' hs hs' hsrc hfour
  have htaken : taken yuv f w h f' psrc = psrc.take (imageSize .i420 w h) := by
    unfold taken
    split_ifs with heq
    · rfl
    · rw [(hskip.resolve_left fun h => heq h.1).2]
      rfl
  have hlen : (psrc.take (imageSize .i420 w h)).length = imageSize .i420 w h := by
    rw [List.length_take, Nat.min_eq_left ((i420_le_imageSize (Or.inl hf) w h).trans hsrc)]
  change Yields _ s _ ↔ _
  rw [scale_eq hs', yields_bind (convertSource_skips hskip w h _ w' h' s),
    stages_yield hf' hs hs' hdst (List.take_prefix _ psrc) hlen hout]
  by_cases hdirect : (w = w' ∧ h = h') ∧ f' = .i420
  · -- I420 that stays as it is: nothing is copied
    have hi : f = .i420 := hskip.elim (fun h => h.1.trans hdirect.2) fun h => h.2
    have hnot : ¬ Handled yuv psrc f w h f' w' h' s.pdst.length := by
      unfold Handled
      rw [if_neg hfour]
      exact fun h => h.2.1 ⟨hi, hdirect.2, hdirect.1⟩
    rw [if_pos hdirect]
    exact iff_of_false (fun h => absurd h.1 (by simp)) hnot
  · have hyv : f = .yv12 → f' = .yv12 := by
      rintro rfl
      rcases hskip with h | h
      · exact h.1.symm
      · cases h.2
    rw [if_neg hdirect, handled_iff hfour (fun h => hdirect ⟨h.2.2, h.2.1⟩) hyv, Coincides, htaken]

/-- The calls in which the first stage calls libyuv. -/
theorem read_iff {psrc : Bytes} {f f' : FourCC} (hne : f ≠ f') {r : ToI420} (hr : reader f = some r)
    (hf' : Writable f') {w h w' h' : ℕ} (hs : EvenSize w h) (hs' : EvenSize w' h')
    (hsrc : imageSize f w h ≤ psrc.length) {s : Buffers}
    (hdst : imageSize f' w' h' ≤ s.pdst.length) :
    Converts yuv psrc f w h f' w' h' s ↔ Handled yuv psrc f w h f' w' h' s.pdst.length := by
  have hf : Readable f := Or.inr (Or.inr (Option.isSome_iff_exists.mpr ⟨r, hr⟩))
  have hfour : ¬ (f = f' ∧ FourByte f) := fun h => hne h.1
  have hcopy : ¬ (f = .i420 ∧ f' = .i420 ∧ w = w' ∧ h = h') := fun h => hne (h.1.trans h.2.1.symm)
  have hyv : f = .yv12 → f' = .yv12 := by
    rintro rfl
    cases hr
  have hout := length_converted yuv hf hf' hs hs' hsrc hfour
  have htaken : taken yuv f w h f' psrc = yuv.toI420 r w h (psrc.take (imageSize f w h)) := by
    rw [taken, if_neg hne, planar_of_reader hr]
  have hlen := yuv.length_toI420 r w h (psrc.take (imageSize f w h))
  change Yields _ s _ ↔ _
  rw [scale_eq hs', handled_iff hfour hcopy hyv, Coincides, htaken]
  by_cases hlt : w * h * 5 < 2 ^ 32
  · have hroom : (w = w' ∧ h = h') ∧ f' = .i420 → imageSize .i420 w h ≤ s.pdst.length := by
      rintro ⟨⟨rfl, rfl⟩, rfl⟩
      exact hdst
    obtain ⟨data, t, hrun, hdata, hsize, hbegins⟩ :=
      convertSource_reads yuv hne hr hs hlt hsrc s.pdst.length hroom
    rw [← hsize] at hdst ⊢
    rw [hsize, yields_bind hrun, ← hsize, stages_yield hf' hs hs' hdst hdata hlen hout]
    by_cases hdirect : (w = w' ∧ h = h') ∧ f' = .i420
    · rw [if_pos hdirect]
      obtain ⟨⟨rfl, rfl⟩, rfl⟩ := hdirect
      rw [resized, if_pos ⟨rfl, rfl⟩]
      constructor
      · rintro ⟨-, hbegin⟩
        exact ⟨hlt, hlt, eq_of_begins (hbegins ⟨⟨rfl, rfl⟩, rfl⟩) hbegin (hlen.trans hout.symm)⟩
      · rintro ⟨-, -, heq⟩
        rw [← heq]
        exact ⟨Int.le_refl 0, hbegins ⟨⟨rfl, rfl⟩, rfl⟩⟩
    · rw [if_neg hdirect]
  · exact iff_of_false (not_yields_of_undefined (Call.bind_error
      (convertSource_undefined hne hr hs hlt hsrc _ w' h' s))) fun h => hlt h.1

/-- The calls that are not one step on four bytes a pixel. -/
theorem stages_iff {psrc : Bytes} {f f' : FourCC} (hfour : ¬ (f = f' ∧ FourByte f))
    (hf : Readable f) (hf' : Writable f') {w h w' h' : ℕ} (hs : EvenSize w h) (hs' : EvenSize w' h')
    (hsrc : imageSize f w h ≤ psrc.length) {s : Buffers}
    (hdst : imageSize f' w' h' ≤ s.pdst.length) :
    Converts yuv psrc f w h f' w' h' s ↔ Handled yuv psrc f w h f' w' h' s.pdst.length := by
  by_cases heq : f = f'
  · subst heq
    exact skipped_iff hf hf' (Or.inl ⟨rfl, fun hbytes => hfour ⟨rfl, hbytes⟩⟩) hs hs' hsrc hdst
  · rcases hf with rfl | rfl | hr
    · exact skipped_iff (Or.inl rfl) hf' (Or.inr ⟨heq, rfl⟩) hs hs' hsrc hdst
    · obtain ⟨stop, t, hrun, hstop⟩ :=
        convertSource_yv12 yuv heq hsrc s.pdst.length w' h' s
      have hnot : ¬ Handled yuv psrc .yv12 w h f' w' h' s.pdst.length := by
        rw [Handled, if_neg hfour]
        exact fun h => heq (h.1 rfl).symm
      refine iff_of_false ?_ hnot
      change ¬ Yields _ s _
      rw [scale_eq hs']
      rcases hstop with rfl | rfl
      · exact not_yields_of_undefined (Call.bind_error hrun)
      · rw [yields_of_returned (Call.bind_error hrun)]
        exact fun h => absurd h.1 (by decide)
    · obtain ⟨r, hr⟩ := Option.isSome_iff_exists.mp hr
      exact read_iff heq hr hf' hs hs' hsrc hdst

/-- CORRECT: exactly the calls above leave the picture in the destination: `scale` can be relied on for
    two formats that differ if the source is neither YV12 nor ARGB, for I420 that changes its size, and
    for four bytes a pixel that keep their format. -/
theorem converts_iff {psrc : Bytes} {f f' : FourCC} (hf : Readable f) (hf' : Writable f')
    {w h w' h' : ℕ} (hs : EvenSize w h) (hs' : EvenSize w' h')
    (hsrc : imageSize f w h ≤ psrc.length) {s : Buffers}
    (hdst : imageSize f' w' h' ≤ s.pdst.length) (hint : s.pdst.length < 2 ^ 31) :
    Converts yuv psrc f w h f' w' h' s ↔ Handled yuv psrc f w h f' w' h' s.pdst.length := by
  by_cases hfour : f = f' ∧ FourByte f
  · obtain ⟨rfl, hbytes⟩ := hfour
    change Yields _ s _ ↔ _
    rw [scale_eq hs', Handled, if_pos ⟨rfl, hbytes⟩]
    rcases convertSource_fourByte yuv hbytes hs' hsrc hdst hint with
      ⟨hok, t, hrun, hbegins⟩ | ⟨hno, hrun⟩
    · rw [yields_of_returned (Call.bind_error hrun)]
      exact iff_of_true ⟨Int.le_refl 0, hbegins⟩ hok
    · exact iff_of_false (not_yields_of_undefined (Call.bind_error hrun)) hno
  · exact stages_iff hfour hf hf' hs hs' hsrc hdst

/-- Where the source is taken for what it is, the sizes decide. -/
theorem converts_iff_sizes {psrc : Bytes} {f f' : FourCC} (hread : ¬ Misread f f')
    (hf : Readable f) (hf' : Writable f') {w h w' h' : ℕ} (hs : EvenSize w h) (hs' : EvenSize w' h')
    (hsrc : imageSize f w h ≤ psrc.length) {s : Buffers}
    (hdst : imageSize f' w' h' ≤ s.pdst.length) :
    Converts yuv psrc f w h f' w' h' s ↔
      f ≠ .yv12 ∧ ¬ (f = .i420 ∧ f' = .i420 ∧ w = w' ∧ h = h') ∧ w * h * 5 < 2 ^ 32 ∧
        DstOk f' w' h' s.pdst.length := by
  have hsame : f = f' → f = .i420 := fun heq => not_not.mp fun hne => hread (Or.inl ⟨heq, hne⟩)
  have hfour : ¬ (f = f' ∧ FourByte f) := by
    rintro ⟨heq, hbytes⟩
    rw [hsame heq] at hbytes
    exact absurd hbytes (by decide)
  rw [stages_iff hfour hf hf' hs hs' hsrc hdst, Handled, if_neg hfour]
  constructor
  · rintro ⟨hyv, hcopy, hlt, hok, -⟩
    refine ⟨fun h => ?_, hcopy, hlt, hok⟩
    have hi := hsame (h.trans (hyv h).symm)
    exact absurd (h.symm.trans hi) (by decide)
  · rintro ⟨hyv, hcopy, hlt, hok⟩
    exact ⟨fun h => absurd h hyv, hcopy, hlt, hok, fun h => absurd h hread⟩

end

/-- The byte of an NV12 picture that is this byte of the I420 picture: the chroma is in pairs. -/
def nv12Index (w h i : ℕ) : ℕ :=
  if i < w * h then i
  else if i < w * h + w * h / 4 then w * h + 2 * (i - w * h)
  else w * h + 2 * (i - w * h - w * h / 4) + 1

/-- The function of libyuv that reads NV12, on even sizes; of the others only the length is right. -/
def nv12Reader : Libyuv where
  toI420 _ w h p := (List.range (imageSize .i420 w h)).map fun i => p[nv12Index w h i]?.getD 0
  fromI420 f w h _ := List.replicate (imageSize f.format w h) 0
  i420Scale _ _ w' h' _ := List.replicate (imageSize .i420 w' h') 0
  argbScale _ _ w' h' _ := List.replicate (imageSize .argb w' h') 0
  length_toI420 _ _ _ _ := by rw [List.length_map, List.length_range]
  length_fromI420 _ _ _ _ := List.length_replicate
  length_i420Scale _ _ _ _ _ := List.length_replicate
  length_argbScale _ _ _ _ _ := List.length_replicate

/-- A new object, and a destination of this size. -/
def newBuffers (len : ℕ) : Buffers := ⟨.empty, .empty, List.replicate len 0⟩

/-- A picture of 4 by 2 pixels becomes I420 if it is NV12, and gives -1 if it is YV12. -/
theorem converts_nv12 :
    (Converts nv12Reader [1, 2, 3, 4, 5, 6, 7, 8, 9, 10, 11, 12] .nv12 4 2 .i420 4 2
        (newBuffers 12) ∧
      converted nv12Reader .nv12 4 2 .i420 4 2 [1, 2, 3, 4, 5, 6, 7, 8, 9, 10, 11, 12] =
        [1, 2, 3, 4, 5, 6, 7, 8, 9, 11, 10, 12]) ∧
      ¬ Converts nv12Reader [1, 2, 3, 4, 5, 6, 7, 8, 9, 10, 11, 12] .yv12 4 2 .i420 4 2
        (newBuffers 12) := by
  have hsize : EvenSize 4 2 := ⟨by decide, by decide, rfl, rfl⟩
  refine ⟨⟨(converts_iff (Or.inr (Or.inr rfl)) (Or.inl rfl) hsize hsize (by decide) (by decide)
    (by decide)).mpr ?_, rfl⟩, mt (converts_iff (Or.inr (Or.inl rfl)) (Or.inl rfl) hsize hsize
      (by decide) (by decide) (by decide)).mp ?_⟩
  · rw [Handled, if_neg (by decide)]
    exact ⟨fun h => (nomatch h), fun h => (nomatch h.1), by decide, by decide,
      fun h => (by rcases h with ⟨h, -⟩ | h <;> cases h)⟩
  · rw [Handled, if_neg (by decide)]
    exact fun h => nomatch h.1 rfl

/-- An I420 picture that stays as it is: −1, and nothing is copied. -/
theorem i420_not_copied : ¬ ∀ (yuv : Libyuv) psrc f w h f' w' h' s, Readable f → Writable f' →
    EvenSize w h → EvenSize w' h' → imageSize f w h ≤ psrc.length →
    imageSize f' w' h' ≤ s.pdst.length → s.pdst.length < 2 ^ 31 →
    Converts yuv psrc f w h f' w' h' s := by
  intro h
  have hsize : EvenSize 2 2 := ⟨by decide, by decide, rfl, rfl⟩
  obtain ⟨ret, t, hrun, hret, -⟩ := h nv12Reader (List.replicate 6 1) .i420 2 2 .i420 2 2 (newBuffers 6)
    (Or.inl rfl) (Or.inl rfl) hsize hsize (by decide) (by decide) (by decide)
  have hcode : ret = -1 := by
    cases hrun
    rfl
  omega

end MediasoupClient.Lazyutil
