import Whist.Foundation.Scatter
import Whist.Foundation.LittleEndian

/-! # Reading a bitmap

`bmp_to_png` up to the encoder: the checks of the header, with the wrapping arithmetic of `uint32_t`, and the pixel loop,
which may run out of the buffer.  `AV_RL16` and `AV_RL32` are `rl16` and `rl32`.
-/
namespace Whist.Bitmap
open LittleEndian

abbrev CInt := { n : ℤ // -2 ^ 31 ≤ n ∧ n < 2 ^ 31 }

/-- What the pixel loop works with.  A pixel has three or four channels. -/
@[ext] structure PixelLoop where
  pixelOffset : UInt32
  w : UInt32
  h : UInt32
  numChannels : UInt32
  channels : numChannels = 3 ∨ numChannels = 4

def scanlineBytes (w numChannels : UInt32) : UInt32 :=
  let scanlineBytes := w * numChannels
  if scanlineBytes % 4 ≠ 0 then scanlineBytes / 4 * 4 + 4 else scanlineBytes

theorem channels_of_bits {m : Memory} (h : ¬(rl16 m 28 ≠ 24 ∧ rl16 m 28 ≠ 32)) :
    UInt32.ofNat ((m 28).toNat / 8) = 3 ∨ UInt32.ofNat ((m 28).toNat / 8) = 4 := by
  have hlow := (m 28).toNat_lt
  have hbits : (m 28).toNat = 24 ∨ (m 28).toNat = 32 := by
    unfold rl16 at h
    omega
  rcases hbits with hbits | hbits <;> rw [hbits]
  · exact Or.inl rfl
  · exact Or.inr rfl

/-- The checks.  That the file is too small for its pixels is only logged. -/
def readHeader (bmp : Memory) (bmpSize : CInt) : Option PixelLoop :=
  if bmpSize.val < 54 then none
  else if bmp 0 ≠ 66 ∨ bmp 1 ≠ 77 then none
  else if rl32 bmp 14 ≠ 40 then none
  else if rl16 bmp 26 ≠ 1 then none
  else if hbits : rl16 bmp 28 ≠ 24 ∧ rl16 bmp 28 ≠ 32 then none
  else if rl32 bmp 30 ≠ 0 then none
  else if rl32 bmp 46 ≠ 0 ∨ rl32 bmp 50 ≠ 0 then none
  else
    let w := rl32 bmp 18
    let h := rl32 bmp 22
    let numChannels := UInt32.ofNat ((bmp 28).toNat / 8)
    let scanlineBytes := scanlineBytes w numChannels
    let dataSize := if rl32 bmp 34 = 0 then scanlineBytes * h else rl32 bmp 34
    if scanlineBytes * h ≠ dataSize then none
    else if bmpSize.val % 2 ^ 32 ≠ (rl32 bmp 2).toNat then none
    else some ⟨rl32 bmp 10,w,h,numChannels,channels_of_bits hbits⟩

def pixelCopies (numChannels : UInt32) (target source : ℕ) : List (ℕ × ℕ) :=
  [(target,source + 2),(target + 1,source + 1),(target + 2,source)] ++
    if numChannels = 3 then [] else [(target + 3,source + 3)]

def copyRows (w h : ℕ) (numChannels : UInt32) (target source : ℕ → ℕ) : List (ℕ × ℕ) :=
  (List.range h).flatMap fun y => (List.range w).flatMap fun x =>
    pixelCopies numChannels (target y + x * numChannels.toNat) (source y + x * numChannels.toNat)

namespace PixelLoop

def sourceRow (l : PixelLoop) (y : UInt32) : ℕ :=
  l.pixelOffset.toNat + ((l.h - y - 1) * scanlineBytes l.w l.numChannels).toNat

def targetRow (l : PixelLoop) (y : UInt32) : ℕ := (y * (l.numChannels * l.w)).toNat

def copies (l : PixelLoop) : List (ℕ × ℕ) :=
  copyRows l.w.toNat l.h.toNat l.numChannels (fun y => l.targetRow (UInt32.ofNat y))
    fun y => l.sourceRow (UInt32.ofNat y)

end PixelLoop

/-- The function returns -1 before the loop, or all that the loop reads and writes lies below
`bmp_size`.  The fields of the header lie below 54. -/
def InBounds (bmp : Memory) (bmpSize : CInt) : Prop :=
  ∀ l ∈ readHeader bmp bmpSize, ∀ c ∈ l.copies, (c.1 : ℤ) < bmpSize.val ∧ (c.2 : ℤ) < bmpSize.val

def roundUp (n : ℕ) : ℕ := (n + 3) / 4 * 4

/-- The last row of an image that is not empty ends inside the file, in exact arithmetic. -/
def PixelLoop.Fits (l : PixelLoop) (bmpSize : CInt) : Prop :=
  l.w.toNat = 0 ∨ l.h.toNat = 0 ∨
    ((l.pixelOffset.toNat + (l.h.toNat - 1) * roundUp (l.w.toNat * l.numChannels.toNat) +
      l.w.toNat * l.numChannels.toNat : ℕ) : ℤ) ≤ bmpSize.val

theorem le_roundUp (n : ℕ) : n ≤ roundUp n ∧ roundUp n ≤ n + 3 := by
  unfold roundUp
  omega

theorem scanlineBytes_toNat {w n : UInt32} (h : w.toNat * n.toNat < 2 ^ 31) :
    (scanlineBytes w n).toNat = roundUp (w.toNat * n.toNat) := by
  have hmul : (w * n).toNat = w.toNat * n.toNat := by
    rw [UInt32.toNat_mul, Nat.mod_eq_of_lt (by omega)]
  unfold scanlineBytes roundUp
  dsimp only
  rw [← hmul] at h ⊢
  generalize w * n = s at h
  have hmod : (s % 4).toNat = s.toNat % 4 := UInt32.toNat_mod s 4
  by_cases hs : s % 4 ≠ 0
  · have hdiv : (s / 4 * 4 + 4).toNat = s.toNat / 4 * 4 + 4 := by
      rw [UInt32.toNat_add, UInt32.toNat_mul, UInt32.toNat_div]
      change (s.toNat / 4 * 4 % 2 ^ 32 + 4) % 2 ^ 32 = _
      omega
    have hne : s.toNat % 4 ≠ 0 := fun hzero => hs (UInt32.toNat_inj.mp (hmod.trans hzero))
    rw [if_pos hs, hdiv]
    omega
  · have hzero : s.toNat % 4 = 0 := by
      rw [← hmod, not_not.mp hs]
      rfl
    rw [if_neg hs]
    omega

def swapped (k : ℕ) : ℕ := if k = 0 then 2 else if k = 2 then 0 else k

theorem swapped_swapped (k : ℕ) : swapped (swapped k) = k := by
  by_cases hred : k = 0
  · rw [hred]
    rfl
  by_cases hblue : k = 2
  · rw [hblue]
    rfl
  · simp [swapped, hred, hblue]

theorem mem_pixelCopies {n : UInt32} (hn : n = 3 ∨ n = 4) {target source : ℕ} {c : ℕ × ℕ} :
    c ∈ pixelCopies n target source ↔ ∃ k < n.toNat, c = (target + k,source + swapped k) := by
  have hlt : ∀ k, k < 4 → k = 0 ∨ k = 1 ∨ k = 2 ∨ k = 3 := by omega
  unfold pixelCopies
  rcases hn with rfl | rfl
  · rw [if_pos rfl, List.append_nil]
    simp only [List.mem_cons, List.not_mem_nil, or_false]
    constructor
    · rintro (h | h | h)
      · exact ⟨0,by decide,h⟩
      · exact ⟨1,by decide,h⟩
      · exact ⟨2,by decide,h⟩
    · rintro ⟨k,hk,h⟩
      have hk' : k < 3 := hk
      rcases hlt k (by omega) with rfl | rfl | rfl | rfl
      · exact Or.inl h
      · exact Or.inr (Or.inl h)
      · exact Or.inr (Or.inr h)
      · omega
  · rw [if_neg (by decide)]
    simp only [List.mem_append, List.mem_cons, List.not_mem_nil, or_false]
    constructor
    · rintro ((h | h | h) | h)
      · exact ⟨0,by decide,h⟩
      · exact ⟨1,by decide,h⟩
      · exact ⟨2,by decide,h⟩
      · exact ⟨3,by decide,h⟩
    · rintro ⟨k,hk,h⟩
      have hk' : k < 4 := hk
      rcases hlt k hk' with rfl | rfl | rfl | rfl
      · exact Or.inl (Or.inl h)
      · exact Or.inl (Or.inr (Or.inl h))
      · exact Or.inl (Or.inr (Or.inr h))
      · exact Or.inr h

theorem mem_copyRows {w h : ℕ} {n : UInt32} (hn : n = 3 ∨ n = 4) {target source : ℕ → ℕ} {c : ℕ × ℕ} :
    c ∈ copyRows w h n target source ↔ ∃ y < h, ∃ x < w, ∃ k < n.toNat,
      c = (target y + x * n.toNat + k,source y + x * n.toNat + swapped k) := by
  unfold copyRows
  simp only [List.mem_flatMap, List.mem_range, mem_pixelCopies hn]

theorem channel_lt {w n x k : ℕ} (hx : x < w) (hk : k < n) : x * n + k < w * n := by
  calc x * n + k < (x + 1) * n := by
        rw [Nat.add_one_mul]
        omega
    _ ≤ w * n := Nat.mul_le_mul_right _ hx

namespace PixelLoop
variable {l : PixelLoop}

theorem numChannels_toNat (l : PixelLoop) : l.numChannels.toNat = 3 ∨ l.numChannels.toNat = 4 := by
  rcases l.channels with h | h <;> rw [h]
  · exact Or.inl rfl
  · exact Or.inr rfl

theorem swapped_lt {k : ℕ} (hk : k < l.numChannels.toNat) : swapped k < l.numChannels.toNat := by
  have := l.numChannels_toNat
  unfold swapped
  split_ifs <;> omega

theorem copies_below_iff {n : ℤ} (hw : 0 < l.w.toNat) :
    (∀ c ∈ l.copies, (c.1 : ℤ) < n ∧ (c.2 : ℤ) < n) ↔ ∀ y < l.h.toNat,
      ((l.targetRow (UInt32.ofNat y) + l.w.toNat * l.numChannels.toNat : ℕ) : ℤ) ≤ n ∧
        ((l.sourceRow (UInt32.ofNat y) + l.w.toNat * l.numChannels.toNat : ℕ) : ℤ) ≤ n := by
  have hchannels := l.numChannels_toNat
  constructor
  · intro h y hy
    -- the last channel of the last pixel, in either order
    have hlast : (l.w.toNat - 1) * l.numChannels.toNat + l.numChannels.toNat =
        l.w.toNat * l.numChannels.toNat := by
      rw [← Nat.add_one_mul, Nat.sub_add_cancel hw]
    have hcopy : ∀ k < l.numChannels.toNat, _ := fun k hk =>
      h _ ((mem_copyRows l.channels).mpr ⟨y,hy,l.w.toNat - 1,Nat.sub_lt hw Nat.one_pos,k,hk,rfl⟩)
    have htarget := (hcopy (l.numChannels.toNat - 1) (by omega)).1
    have hsource := (hcopy (swapped (l.numChannels.toNat - 1)) (swapped_lt (by omega))).2
    rw [swapped_swapped] at hsource
    omega
  · intro h c hc
    obtain ⟨y,hy,x,hx,k,hk,rfl⟩ := (mem_copyRows l.channels).mp hc
    have hrow := h y hy
    have htarget := channel_lt hx hk
    have hsource := channel_lt hx (swapped_lt hk)
    omega

theorem flipped_toNat {y : ℕ} (hy : y < l.h.toNat) : (l.h - UInt32.ofNat y - 1).toNat = l.h.toNat - y - 1 := by
  have hheight := l.h.toNat_lt
  have hnat : (UInt32.ofNat y).toNat = y := by rw [UInt32.toNat_ofNat', Nat.mod_eq_of_lt (by omega)]
  have hsub : (l.h - UInt32.ofNat y).toNat = l.h.toNat - y := by
    rw [UInt32.toNat_sub_of_le _ _ (UInt32.le_iff_toNat_le.mpr (by omega)), hnat]
  have hone : (1 : UInt32).toNat = 1 := rfl
  rw [UInt32.toNat_sub_of_le _ _ (UInt32.le_iff_toNat_le.mpr (by omega)), hsub, hone]

theorem sourceRow_eq {y : ℕ} (hy : y < l.h.toNat) : l.sourceRow (UInt32.ofNat y) = l.pixelOffset.toNat +
    (l.h.toNat - y - 1) * (scanlineBytes l.w l.numChannels).toNat % 2 ^ 32 := by
  rw [sourceRow, UInt32.toNat_mul, flipped_toNat hy]

/-- While a row fits into an `int`, some row ends behind the file before the multiplication wraps around. -/
theorem fits_of_rows {n : ℤ} (hn : n < 2 ^ 31) (hh : 0 < l.h.toNat)
    (hrows : ∀ y < l.h.toNat,
      ((l.sourceRow (UInt32.ofNat y) + l.w.toNat * l.numChannels.toNat : ℕ) : ℤ) ≤ n) :
    ((l.pixelOffset.toNat + (l.h.toNat - 1) * roundUp (l.w.toNat * l.numChannels.toNat) +
      l.w.toNat * l.numChannels.toNat : ℕ) : ℤ) ≤ n := by
  have hrow : ∀ r < l.h.toNat, ((l.pixelOffset.toNat + r * (scanlineBytes l.w l.numChannels).toNat % 2 ^ 32 +
      l.w.toNat * l.numChannels.toNat : ℕ) : ℤ) ≤ n := by
    intro r hr
    have hthis := hrows (l.h.toNat - 1 - r) (by omega)
    rw [sourceRow_eq (by omega)] at hthis
    rwa [show l.h.toNat - (l.h.toNat - 1 - r) - 1 = r by omega] at hthis
  have hfirst := hrow 0 hh
  have hbytes : l.w.toNat * l.numChannels.toNat < 2 ^ 31 := by omega
  rw [scanlineBytes_toNat hbytes] at hrow
  generalize l.w.toNat * l.numChannels.toNat = bytes at *
  have hround := (le_roundUp bytes).2
  have hexact : ∀ r < l.h.toNat, ((l.pixelOffset.toNat + r * roundUp bytes + bytes : ℕ) : ℤ) ≤ n := by
    intro r hr
    induction r with
    | zero => omega
    | succ r ih =>
      have hprev := ih (by omega)
      have hthis := hrow (r + 1) hr
      rw [Nat.add_one_mul] at hthis ⊢
      rw [Nat.mod_eq_of_lt (by omega)] at hthis
      exact hthis
  exact hexact (l.h.toNat - 1) (by omega)

theorem rows_of_fits {n : ℤ} (hn : n < 2 ^ 31) {y : ℕ} (hy : y < l.h.toNat)
    (hfits : ((l.pixelOffset.toNat + (l.h.toNat - 1) * roundUp (l.w.toNat * l.numChannels.toNat) +
      l.w.toNat * l.numChannels.toNat : ℕ) : ℤ) ≤ n) :
    l.sourceRow (UInt32.ofNat y) = l.pixelOffset.toNat +
        (l.h.toNat - y - 1) * roundUp (l.w.toNat * l.numChannels.toNat) ∧
      l.targetRow (UInt32.ofNat y) = y * (l.w.toNat * l.numChannels.toNat) := by
  have hheight := l.h.toNat_lt
  have hbytes : l.w.toNat * l.numChannels.toNat < 2 ^ 31 := by omega
  rw [sourceRow_eq hy, scanlineBytes_toNat hbytes, targetRow, UInt32.toNat_mul, UInt32.toNat_mul,
    Nat.mul_comm l.numChannels.toNat, UInt32.toNat_ofNat', Nat.mod_eq_of_lt (a := y) (by omega)]
  generalize l.w.toNat * l.numChannels.toNat = bytes at *
  have hround := (le_roundUp bytes).1
  have hsource : (l.h.toNat - y - 1) * roundUp bytes ≤ (l.h.toNat - 1) * roundUp bytes :=
    Nat.mul_le_mul_right _ (by omega)
  have htarget : y * bytes ≤ (l.h.toNat - 1) * roundUp bytes := Nat.mul_le_mul (by omega) hround
  rw [Nat.mod_eq_of_lt (a := bytes) (by omega), Nat.mod_eq_of_lt (by omega), Nat.mod_eq_of_lt (by omega)]
  exact ⟨rfl,rfl⟩

theorem copies_below_iff_fits {bmpSize : CInt} :
    (∀ c ∈ l.copies, (c.1 : ℤ) < bmpSize.val ∧ (c.2 : ℤ) < bmpSize.val) ↔ l.Fits bmpSize := by
  have hn := bmpSize.prop.2
  rcases Nat.eq_zero_or_pos l.w.toNat with hw | hw
  · refine iff_of_true (fun c hc => ?_) (Or.inl hw)
    obtain ⟨y,hy,x,hx,-⟩ := (mem_copyRows l.channels).mp hc
    omega
  rcases Nat.eq_zero_or_pos l.h.toNat with hh | hh
  · refine iff_of_true (fun c hc => ?_) (Or.inr (Or.inl hh))
    obtain ⟨y,hy,-⟩ := (mem_copyRows l.channels).mp hc
    omega
  rw [copies_below_iff hw, Fits, or_iff_right (by omega), or_iff_right (by omega)]
  constructor
  · exact fun hrows => fits_of_rows hn hh (fun y hy => (hrows y hy).2)
  · intro hfits y hy
    obtain ⟨hsource,htarget⟩ := rows_of_fits hn hy hfits
    rw [hsource, htarget]
    generalize l.w.toNat * l.numChannels.toNat = bytes at *
    have hround := (le_roundUp bytes).1
    have hle : (l.h.toNat - y - 1) * roundUp bytes ≤ (l.h.toNat - 1) * roundUp bytes :=
      Nat.mul_le_mul_right _ (by omega)
    have hle' : y * bytes ≤ (l.h.toNat - 1) * roundUp bytes := Nat.mul_le_mul (by omega) hround
    omega

end PixelLoop

/-- The loop stays in bounds exactly if the last row of the image ends inside the file: no multiplication
that wraps around makes up for a row that does not. -/
theorem inBounds_iff (bmp : Memory) (bmpSize : CInt) :
    InBounds bmp bmpSize ↔ ∀ l ∈ readHeader bmp bmpSize, l.Fits bmpSize :=
  forall_congr' fun _ => imp_congr_right fun _ => PixelLoop.copies_below_iff_fits

def strayHeader : List UInt8 :=
  [66,77,58,0,0,0,0,0,0,0,232,3,0,0,40,0,0,0,1,0,0,0,1,0,0,0,1,0,24,0]

/-- The pixel is read far behind the file: the comparison that would notice is only logged. -/
theorem inBounds_fails : ¬∀ (bmp : Memory) (bmpSize : CInt), InBounds bmp bmpSize := by
  intro h
  have hheader : readHeader (fun i => strayHeader.getD i 0) ⟨58,by norm_num⟩ = some ⟨1000,1,1,3,Or.inl rfl⟩ := rfl
  have hcopy : (0,1002) ∈ PixelLoop.copies ⟨1000,1,1,3,Or.inl rfl⟩ :=
    (mem_copyRows (Or.inl rfl)).mpr ⟨0,by decide,0,by decide,0,by decide,rfl⟩
  have hlt := (h _ _ _ hheader _ hcopy).2
  norm_num at hlt

end Whist.Bitmap
