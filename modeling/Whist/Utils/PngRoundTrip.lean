import Whist.Utils.Bitmap

/-! # Bitmaps to PNGs and back -/
namespace Whist.Bitmap
open LittleEndian

/-- `lodepng_encode24`, `lodepng_encode32` and `lodepng_decode32`.  An encoder returns an error number. -/
structure Lodepng where
  encode24 : List UInt8 → UInt32 → UInt32 → ℕ × List UInt8
  encode32 : List UInt8 → UInt32 → UInt32 → ℕ × List UInt8
  decode32 : List UInt8 → Option (List UInt8 × UInt32 × UInt32)

def pixelDataBuffer (bmp : Memory) (l : PixelLoop) : Memory :=
  Scatter.scatter (l.copies.map fun c => (c.1,bmp c.2)) fun _ => 0

def imageData (bmp : Memory) (l : PixelLoop) : List UInt8 :=
  (List.range (l.h.toNat * (l.w.toNat * l.numChannels.toNat))).map (pixelDataBuffer bmp l)

def bmpToPng (lodepng : Lodepng) (bmp : Memory) (bmpSize : CInt) : Option (List UInt8) :=
  match readHeader bmp bmpSize with
  | none => none
  | some l =>
    let (err,png) :=
      if l.numChannels = 3 then lodepng.encode24 (imageData bmp l) l.w l.h
      else lodepng.encode32 (imageData bmp l) l.w l.h
    if png.length > 2147483647 then none else if err ≠ 0 then none else some png

def toInt (n : UInt32) : CInt :=
  if h : n.toNat < 2147483648 then ⟨n.toNat,by omega⟩
  else ⟨n.toNat - 4294967296,by
    have hlt := n.toNat_lt
    omega⟩

def bmpHeader (w h : UInt32) : List UInt8 :=
  let dataSize := h * scanlineBytes w 4
  [[66,77],le32 (54 + dataSize),le32 0,le32 54,le32 40,le32 w,le32 h,le16 1,le16 32,le32 0,le32 dataSize,
    le32 0,le32 0,le32 0,le32 0].flatten

def bmpRow (w h : UInt32) (y : ℕ) : ℕ :=
  ((54 + (h.toNat - y - 1) * (toInt (scanlineBytes w 4)).val : ℤ) % 2 ^ 64).toNat

def bmpCopies (w h : UInt32) : List (ℕ × ℕ) :=
  copyRows w.toNat h.toNat 4 (bmpRow w h) fun y => y * (4 * w).toNat

def bmpImage (data : List UInt8) (w h : UInt32) : Memory :=
  Scatter.scatter ((bmpCopies w h).map fun c => (c.1,data.getD c.2 0)) fun i => (bmpHeader w h).getD i 0

def pngToBmp (lodepng : Lodepng) (png : List UInt8) : Option (Memory × CInt) :=
  match lodepng.decode32 png with
  | none => none
  | some (data,w,h) =>
    some (bmpImage data w h,toInt (54 + scanlineBytes w 4 * h))

def withAlpha (n : ℕ) (data : List UInt8) : List UInt8 :=
  (List.range (4 * n)).map fun i => if i % 4 = 3 then 255 else data.getD (i / 4 * 3 + i % 4) 0

def rgbaData (bmp : Memory) (l : PixelLoop) : List UInt8 :=
  if l.numChannels = 3 then withAlpha (l.h.toNat * l.w.toNat) (imageData bmp l) else imageData bmp l

/-- What is encoded is decoded, for images that are not empty. -/
structure Lossless (lodepng : Lodepng) : Prop where
  encode32 : ∀ {data : List UInt8} {w h : UInt32}, 0 < w.toNat → 0 < h.toNat →
    data.length = h.toNat * (w.toNat * 4) →
      (lodepng.encode32 data w h).1 = 0 ∧ lodepng.decode32 (lodepng.encode32 data w h).2 = some (data,w,h)
  encode24 : ∀ {data : List UInt8} {w h : UInt32}, 0 < w.toNat → 0 < h.toNat →
    data.length = h.toNat * (w.toNat * 3) → (lodepng.encode24 data w h).1 = 0 ∧
      lodepng.decode32 (lodepng.encode24 data w h).2 = some (withAlpha (h.toNat * w.toNat) data,w,h)
  decode32 : ∀ {png data : List UInt8} {w h : UInt32}, lodepng.decode32 png = some (data,w,h) →
    0 < w.toNat ∧ 0 < h.toNat ∧ data.length = h.toNat * (w.toNat * 4)

/-- The format of a bitmap, as far as the two functions use it. -/
def width (bmp : Memory) : ℕ := (rl32 bmp 18).toNat
def height (bmp : Memory) : ℕ := (rl32 bmp 22).toNat
def bytesPerPixel (bmp : Memory) : ℕ := rl16 bmp 28 / 8

def pixelOffset (bmp : Memory) (x y : ℕ) : ℕ :=
  (rl32 bmp 10).toNat + (height bmp - 1 - y) * roundUp (width bmp * bytesPerPixel bmp) + x * bytesPerPixel bmp

structure Pixel where
  blue : UInt8
  green : UInt8
  red : UInt8
  alpha : UInt8

def pixel (bmp : Memory) (x y : ℕ) : Pixel where
  blue := bmp (pixelOffset bmp x y)
  green := bmp (pixelOffset bmp x y + 1)
  red := bmp (pixelOffset bmp x y + 2)
  alpha := if bytesPerPixel bmp = 4 then bmp (pixelOffset bmp x y + 3) else 255

/-- The image is not empty, its rows lie in the file, and as a 32-bit bitmap its size is an `int`. -/
structure WellFormed (bmp : Memory) (bmpSize : CInt) : Prop where
  width : 0 < width bmp
  height : 0 < height bmp
  rows : ((rl32 bmp 10).toNat + Bitmap.height bmp * roundUp (Bitmap.width bmp * bytesPerPixel bmp) : ℕ) ≤ bmpSize.val
  size : 54 + Bitmap.height bmp * (Bitmap.width bmp * 4) < 2 ^ 31

theorem position_unique {n y z a b : ℕ} (ha : a < n) (hb : b < n) (h : y * n + a = z * n + b) : y = z ∧ a = b := by
  have hrow : y = z := by
    have hdiv : (y * n + a) / n = (z * n + b) / n := by rw [h]
    rwa [Nat.mul_comm y, Nat.mul_comm z, Nat.mul_add_div (by omega), Nat.mul_add_div (by omega),
      Nat.div_eq_of_lt ha, Nat.div_eq_of_lt hb, Nat.add_zero, Nat.add_zero] at hdiv
  rw [hrow] at h
  exact ⟨hrow,Nat.add_left_cancel h⟩

section Copied
variable {w h : ℕ} {n : UInt32} {target source : ℕ → ℕ} {value : ℕ → UInt8} {m : Memory}

theorem scatter_copyRows (hn : n = 3 ∨ n = 4)
    (hrows : ∀ y < h, ∀ z < h, ∀ a < w * n.toNat, ∀ b < w * n.toNat, target y + a = target z + b → y = z ∧ a = b)
    {x y k : ℕ} (hx : x < w) (hy : y < h) (hk : k < n.toNat) :
    Scatter.scatter ((copyRows w h n target source).map fun c => (c.1,value c.2)) m
      (target y + x * n.toNat + k) = value (source y + x * n.toNat + swapped k) := by
  apply Scatter.scatter_of_mem
  · rw [List.map_map]
    exact List.mem_map.mpr ⟨_,(mem_copyRows hn).mpr ⟨y,hy,x,hx,k,hk,rfl⟩,rfl⟩
  · intro e he hlabel
    obtain ⟨c,hc,rfl⟩ := List.mem_map.mp he
    obtain ⟨z,hz,x',hx',k',hk',rfl⟩ := (mem_copyRows hn).mp hc
    dsimp only at hlabel ⊢
    obtain ⟨rfl,hpixel⟩ := hrows z hz y hy _ (channel_lt hx' hk') _ (channel_lt hx hk) (by omega)
    obtain ⟨rfl,rfl⟩ := position_unique hk' hk hpixel
    rfl

theorem scatter_copyRows_of_lt (hn : n = 3 ∨ n = 4) {i : ℕ} (hi : ∀ y < h, i < target y) :
    Scatter.scatter ((copyRows w h n target source).map fun c => (c.1,value c.2)) m i = m i := by
  apply Scatter.scatter_of_not_mem
  rw [List.map_map]
  intro hmem
  obtain ⟨c,hc,hlabel⟩ := List.mem_map.mp hmem
  obtain ⟨y,hy,x,hx,k,hk,rfl⟩ := (mem_copyRows hn).mp hc
  have hlt := hi y hy
  dsimp only [Function.comp_apply] at hlabel
  omega

end Copied

section Image
variable {bmp : Memory} {bmpSize : CInt} {l : PixelLoop}

theorem numChannels_of_bits {m : Memory} (h : ¬(rl16 m 28 ≠ 24 ∧ rl16 m 28 ≠ 32)) :
    (UInt32.ofNat ((m 28).toNat / 8)).toNat = rl16 m 28 / 8 := by
  have hlow := (m 28).toNat_lt
  rw [UInt32.toNat_ofNat', Nat.mod_eq_of_lt (by omega)]
  unfold rl16 at h ⊢
  omega

theorem of_check {α : Type} {p : Prop} [Decidable p] {a : Option α} {b : α}
    (h : (if p then none else a) = some b) : ¬p ∧ a = some b := by
  by_cases hp : p
  · rw [if_pos hp] at h
    cases h
  · rw [if_neg hp] at h
    exact ⟨hp,h⟩

theorem readHeader_fields (h : readHeader bmp bmpSize = some l) :
    l.pixelOffset = rl32 bmp 10 ∧ l.w = rl32 bmp 18 ∧ l.h = rl32 bmp 22 ∧
      l.numChannels.toNat = bytesPerPixel bmp := by
  unfold readHeader at h
  obtain ⟨-,h⟩ := of_check h
  obtain ⟨-,h⟩ := of_check h
  obtain ⟨-,h⟩ := of_check h
  obtain ⟨-,h⟩ := of_check h
  by_cases hbits : rl16 bmp 28 ≠ 24 ∧ rl16 bmp 28 ≠ 32
  · rw [dif_pos hbits] at h
    cases h
  rw [dif_neg hbits] at h
  obtain ⟨-,h⟩ := of_check h
  obtain ⟨-,h⟩ := of_check h
  obtain ⟨-,h⟩ := of_check h
  obtain ⟨-,h⟩ := of_check h
  cases h
  exact ⟨rfl,rfl,rfl,numChannels_of_bits hbits⟩

theorem row_lt {h r y a : ℕ} (hy : y < h) (ha : a < r) : y * r + a < h * r := by
  calc y * r + a < (y + 1) * r := by
        rw [Nat.add_one_mul]
        omega
    _ ≤ h * r := Nat.mul_le_mul_right _ hy

theorem imageData_getD (hfits : l.Fits bmpSize) {x y k : ℕ} (hx : x < l.w.toNat) (hy : y < l.h.toNat)
    (hk : k < l.numChannels.toNat) :
    (imageData bmp l).getD (y * (l.w.toNat * l.numChannels.toNat) + x * l.numChannels.toNat + k) 0 =
      bmp (l.pixelOffset.toNat + (l.h.toNat - y - 1) * roundUp (l.w.toNat * l.numChannels.toNat) +
        x * l.numChannels.toNat + swapped k) := by
  have hrow := fun z (hz : z < l.h.toNat) => PixelLoop.rows_of_fits bmpSize.prop.2 hz
    ((hfits.resolve_left (by omega)).resolve_left (by omega))
  have hlt : y * (l.w.toNat * l.numChannels.toNat) + x * l.numChannels.toNat + k <
      l.h.toNat * (l.w.toNat * l.numChannels.toNat) := by
    rw [Nat.add_assoc]
    exact row_lt hy (channel_lt hx hk)
  have hseparate : ∀ y < l.h.toNat, ∀ z < l.h.toNat, ∀ a < l.w.toNat * l.numChannels.toNat,
      ∀ b < l.w.toNat * l.numChannels.toNat,
        l.targetRow (UInt32.ofNat y) + a = l.targetRow (UInt32.ofNat z) + b → y = z ∧ a = b := by
    intro y hy z hz a ha b hb heq
    rw [(hrow y hy).2, (hrow z hz).2] at heq
    exact position_unique ha hb heq
  have hcopied := @scatter_copyRows l.w.toNat l.h.toNat l.numChannels (fun y => l.targetRow (UInt32.ofNat y))
    (fun y => l.sourceRow (UInt32.ofNat y)) bmp (fun _ => 0) l.channels hseparate x y k hx hy hk
  rw [imageData, List.getD_eq_getElem?_getD, List.getElem?_map, List.getElem?_range hlt, Option.map_some,
    Option.getD_some, ← (hrow y hy).1, ← (hrow y hy).2]
  exact hcopied

end Image

section Output
variable {data : List UInt8} {w h : UInt32}

theorem scanline_toNat (hsize : w.toNat * 4 < 2 ^ 31) : (scanlineBytes w 4).toNat = w.toNat * 4 := by
  have hround : roundUp (w.toNat * 4) = w.toNat * 4 := by
    unfold roundUp
    omega
  exact (scanlineBytes_toNat hsize).trans hround

theorem toInt_val {n : UInt32} (hn : n.toNat < 2147483648) : (toInt n).val = n.toNat := by
  rw [toInt, dif_pos hn]

theorem row_le_image (hh : 0 < h.toNat) (r : ℕ) : r ≤ h.toNat * r := Nat.le_mul_of_pos_left r hh

theorem bmpRow_eq (hsize : 54 + h.toNat * (w.toNat * 4) < 2 ^ 31) {y : ℕ} (hy : y < h.toNat) :
    bmpRow w h y = 54 + (h.toNat - y - 1) * (w.toNat * 4) := by
  have hrow := row_le_image (by omega : 0 < h.toNat) (w.toNat * 4)
  have hbefore : (h.toNat - y - 1) * (w.toNat * 4) ≤ h.toNat * (w.toNat * 4) := Nat.mul_le_mul_right _ (by omega)
  have hscanline := @scanline_toNat w (by omega)
  have hcast : ((54 + (h.toNat - y - 1) * (toInt (scanlineBytes w 4)).val : ℤ)) =
      ((54 + (h.toNat - y - 1) * (w.toNat * 4) : ℕ) : ℤ) := by
    rw [toInt_val (by omega), hscanline]
    push_cast [Nat.sub_sub, Nat.cast_sub (show y + 1 ≤ h.toNat from hy)]
    ring
  rw [bmpRow, hcast]
  omega

theorem bmpImage_header (hsize : 54 + h.toNat * (w.toNat * 4) < 2 ^ 31) {i : ℕ} (hi : i < 54) :
    bmpImage data w h i = (bmpHeader w h).getD i 0 := by
  refine @scatter_copyRows_of_lt w.toNat h.toNat 4 (bmpRow w h) (fun y => y * (4 * w).toNat)
    (fun i => data.getD i 0) (fun i => (bmpHeader w h).getD i 0) (Or.inr rfl) i (fun y hy => ?_)
  rw [bmpRow_eq hsize hy]
  omega

theorem bmpImage_pixel (hsize : 54 + h.toNat * (w.toNat * 4) < 2 ^ 31) {x y k : ℕ} (hx : x < w.toNat)
    (hy : y < h.toNat) (hk : k < 4) :
    bmpImage data w h (54 + (h.toNat - y - 1) * (w.toNat * 4) + x * 4 + k) =
      data.getD (y * (w.toNat * 4) + x * 4 + swapped k) 0 := by
  have hrow := row_le_image (by omega : 0 < h.toNat) (w.toNat * 4)
  have hsource : (4 * w).toNat = w.toNat * 4 := by
    rw [UInt32.toNat_mul, Nat.mul_comm]
    exact Nat.mod_eq_of_lt (show w.toNat * 4 < 2 ^ 32 by omega)
  have hseparate : ∀ y < h.toNat, ∀ z < h.toNat, ∀ a < w.toNat * 4, ∀ b < w.toNat * 4,
      bmpRow w h y + a = bmpRow w h z + b → y = z ∧ a = b := by
    intro y hy z hz a ha b hb heq
    rw [bmpRow_eq hsize hy, bmpRow_eq hsize hz] at heq
    have hflipped := position_unique ha hb (by omega : (h.toNat - y - 1) * (w.toNat * 4) + a =
      (h.toNat - z - 1) * (w.toNat * 4) + b)
    exact ⟨by omega,hflipped.2⟩
  have hcopied := @scatter_copyRows w.toNat h.toNat 4 (bmpRow w h) (fun y => y * (4 * w).toNat)
    (fun i => data.getD i 0) (fun i => (bmpHeader w h).getD i 0) (Or.inr rfl) hseparate x y k hx hy hk
  have hfour : (4 : UInt32).toNat = 4 := rfl
  rw [bmpRow_eq hsize hy, hfour] at hcopied
  exact hcopied.trans (by rw [hsource])

theorem bmpImage_rl32 (hsize : 54 + h.toNat * (w.toNat * 4) < 2 ^ 31) {i : ℕ} {n : UInt32} (hi : i + 4 ≤ 54)
    (hfield : ((bmpHeader w h).drop i).take 4 = le32 n) : rl32 (bmpImage data w h) i = n := by
  apply rl32_of_le32
  intro j hj
  rw [bmpImage_header hsize (by omega), ← hfield, List.getD_eq_getElem?_getD, List.getD_eq_getElem?_getD,
    List.getElem?_take_of_lt hj, List.getElem?_drop]

theorem bmpImage_rl16 (hsize : 54 + h.toNat * (w.toNat * 4) < 2 ^ 31) {i n : ℕ} (hi : i + 2 ≤ 54) (hn : n < 65536)
    (hfield : ((bmpHeader w h).drop i).take 2 = le16 n) : rl16 (bmpImage data w h) i = n := by
  have hbyte : ∀ j < 2, bmpImage data w h (i + j) = (le16 n).getD j 0 := by
    intro j hj
    rw [bmpImage_header hsize (by omega), ← hfield, List.getD_eq_getElem?_getD, List.getD_eq_getElem?_getD,
      List.getElem?_take_of_lt hj, List.getElem?_drop]
  exact rl16_of_le16 hn (hbyte 0 (by omega)) (hbyte 1 (by omega))

theorem fileSize_val (hsize : 54 + h.toNat * (w.toNat * 4) < 2 ^ 31) (hh : 0 < h.toNat) :
    (54 + scanlineBytes w 4 * h).toNat = 54 + h.toNat * (w.toNat * 4) := by
  have hrow := row_le_image hh (w.toNat * 4)
  have hscanline := @scanline_toNat w (by omega)
  have hfiftyfour : (54 : UInt32).toNat = 54 := rfl
  rw [UInt32.toNat_add, UInt32.toNat_mul, hscanline, hfiftyfour, Nat.mul_comm (w.toNat * 4)]
  omega

theorem readHeader_bmpImage (hsize : 54 + h.toNat * (w.toNat * 4) < 2 ^ 31) (hh : 0 < h.toNat) :
    readHeader (bmpImage data w h) (toInt (54 + scanlineBytes w 4 * h)) = some ⟨54,w,h,4,Or.inr rfl⟩ := by
  have hfile := fileSize_val hsize hh
  have hval := @toInt_val (54 + scanlineBytes w 4 * h) (by omega)
  have hcommute : 54 + h * scanlineBytes w 4 = 54 + scanlineBytes w 4 * h := by rw [UInt32.mul_comm]
  have h0 : bmpImage data w h 0 = 66 := bmpImage_header hsize (by norm_num)
  have h1 : bmpImage data w h 1 = 77 := bmpImage_header hsize (by norm_num)
  have h2 : rl32 (bmpImage data w h) 2 = 54 + h * scanlineBytes w 4 := bmpImage_rl32 hsize (by norm_num) rfl
  have h10 : rl32 (bmpImage data w h) 10 = 54 := bmpImage_rl32 hsize (by norm_num) rfl
  have h14 : rl32 (bmpImage data w h) 14 = 40 := bmpImage_rl32 hsize (by norm_num) rfl
  have h18 : rl32 (bmpImage data w h) 18 = w := bmpImage_rl32 hsize (by norm_num) rfl
  have h22 : rl32 (bmpImage data w h) 22 = h := bmpImage_rl32 hsize (by norm_num) rfl
  have h26 : rl16 (bmpImage data w h) 26 = 1 := bmpImage_rl16 hsize (by norm_num) (by norm_num) rfl
  have h28 : rl16 (bmpImage data w h) 28 = 32 := bmpImage_rl16 hsize (by norm_num) (by norm_num) rfl
  have h30 : rl32 (bmpImage data w h) 30 = 0 := bmpImage_rl32 hsize (by norm_num) rfl
  have h34 : rl32 (bmpImage data w h) 34 = h * scanlineBytes w 4 := bmpImage_rl32 hsize (by norm_num) rfl
  have h46 : rl32 (bmpImage data w h) 46 = 0 := bmpImage_rl32 hsize (by norm_num) rfl
  have h50 : rl32 (bmpImage data w h) 50 = 0 := bmpImage_rl32 hsize (by norm_num) rfl
  have hbits : ¬(rl16 (bmpImage data w h) 28 ≠ 24 ∧ rl16 (bmpImage data w h) 28 ≠ 32) := fun hne => hne.2 h28
  have hchannels : UInt32.ofNat ((bmpImage data w h 28).toNat / 8) = 4 := by
    apply UInt32.toNat_inj.mp
    rw [numChannels_of_bits hbits, h28]
    rfl
  unfold readHeader
  dsimp only
  rw [if_neg (by omega), if_neg (by simp [h0, h1]), if_neg (by simp [h14]), if_neg (by simp [h26]), dif_neg hbits,
    if_neg (by simp [h30]), if_neg (by simp [h46, h50]), if_neg, if_neg]
  · exact congrArg some (PixelLoop.ext h10 h18 h22 hchannels)
  · rw [hval, h2, hcommute]
    omega
  · rw [h18, h22, hchannels, h34, UInt32.mul_comm, ite_self]
    exact not_not.mpr rfl

theorem roundUp_mul_four (n : ℕ) : roundUp (n * 4) = n * 4 := by
  unfold roundUp
  omega

theorem fits_bmpImage (hsize : 54 + h.toNat * (w.toNat * 4) < 2 ^ 31) (hh : 0 < h.toNat) :
    PixelLoop.Fits ⟨54,w,h,4,Or.inr rfl⟩ (toInt (54 + scanlineBytes w 4 * h)) := by
  have hfile := fileSize_val hsize hh
  have hrows : (h.toNat - 1) * (w.toNat * 4) + w.toNat * 4 = h.toNat * (w.toNat * 4) := by
    rw [← Nat.add_one_mul, Nat.sub_add_cancel hh]
  refine Or.inr (Or.inr ?_)
  change ((54 + (h.toNat - 1) * roundUp (w.toNat * 4) + w.toNat * 4 : ℕ) : ℤ) ≤ _
  rw [toInt_val (by omega), roundUp_mul_four]
  omega

theorem imageData_bmpImage_getD (hsize : 54 + h.toNat * (w.toNat * 4) < 2 ^ 31) {x y k : ℕ} (hx : x < w.toNat)
    (hy : y < h.toNat) (hk : k < 4) :
    (imageData (bmpImage data w h) ⟨54,w,h,4,Or.inr rfl⟩).getD (y * (w.toNat * 4) + x * 4 + k) 0 =
      data.getD (y * (w.toNat * 4) + x * 4 + k) 0 := by
  have hswapped : swapped k < 4 := by
    unfold swapped
    split_ifs <;> omega
  have hread := @imageData_getD (bmpImage data w h) _ ⟨54,w,h,4,Or.inr rfl⟩ (fits_bmpImage hsize (by omega)) x y k hx hy hk
  have hwritten := @bmpImage_pixel data w h hsize x y (swapped k) hx hy hswapped
  rw [swapped_swapped] at hwritten
  refine Eq.trans hread (Eq.trans ?_ hwritten)
  change bmpImage data w h (54 + (h.toNat - y - 1) * roundUp (w.toNat * 4) + x * 4 + swapped k) = _
  rw [roundUp_mul_four]

theorem imageData_bmpImage (hsize : 54 + h.toNat * (w.toNat * 4) < 2 ^ 31)
    (hdata : data.length = h.toNat * (w.toNat * 4)) :
    imageData (bmpImage data w h) ⟨54,w,h,4,Or.inr rfl⟩ = data := by
  have hlength : (imageData (bmpImage data w h) ⟨54,w,h,4,Or.inr rfl⟩).length = data.length := by
    rw [imageData, List.length_map, List.length_range, hdata]
    rfl
  apply List.ext_getElem hlength
  intro i hi hi'
  have himage : i < h.toNat * (w.toNat * 4) := hdata ▸ hi'
  have hw : 0 < w.toNat * 4 := by
    by_contra hzero
    rw [Nat.eq_zero_of_not_pos hzero] at himage
    omega
  -- the position as row, pixel and channel
  have hy : i / (w.toNat * 4) < h.toNat := Nat.div_lt_of_lt_mul (by rwa [Nat.mul_comm])
  have hrow := Nat.mod_lt i hw
  have hposition : i / (w.toNat * 4) * (w.toNat * 4) + i % (w.toNat * 4) / 4 * 4 + i % (w.toNat * 4) % 4 = i := by
    have hrest := Nat.div_add_mod' (i % (w.toNat * 4)) 4
    rw [Nat.add_assoc, hrest, Nat.div_add_mod']
  have hsame := @imageData_bmpImage_getD data w h hsize (i % (w.toNat * 4) / 4) _ (i % (w.toNat * 4) % 4)
    (by omega) hy (by omega)
  rwa [hposition, List.getD_eq_getElem _ _ hi, List.getD_eq_getElem _ _ hi'] at hsame

end Output

theorem withAlpha_getD {n i : ℕ} {data : List UInt8} (hi : i < 4 * n) :
    (withAlpha n data).getD i 0 = if i % 4 = 3 then 255 else data.getD (i / 4 * 3 + i % 4) 0 := by
  rw [withAlpha, List.getD_eq_getElem?_getD, List.getElem?_map, List.getElem?_range hi, Option.map_some,
    Option.getD_some]

section RoundTrip
variable {lodepng : Lodepng} {bmp : Memory} {bmpSize : CInt} {l : PixelLoop}

theorem imageData_length (bmp : Memory) (l : PixelLoop) :
    (imageData bmp l).length = l.h.toNat * (l.w.toNat * l.numChannels.toNat) := by
  rw [imageData, List.length_map, List.length_range]

/-- An accepted bitmap is decoded to its image, with an alpha channel. -/
theorem decode_bmpToPng (hlossless : Lossless lodepng) {png : List UInt8} (hl : readHeader bmp bmpSize = some l)
    (hw : 0 < l.w.toNat) (hh : 0 < l.h.toNat) (hpng : bmpToPng lodepng bmp bmpSize = some png) :
    lodepng.decode32 png = some (rgbaData bmp l,l.w,l.h) := by
  unfold rgbaData
  have hlength := imageData_length bmp l
  unfold bmpToPng at hpng
  rw [hl] at hpng
  rcases l.channels with hn | hn
  · rw [hn] at hlength
    obtain ⟨-,hdecode⟩ := hlossless.encode24 hw hh hlength
    dsimp only at hpng
    rw [if_pos hn] at hpng ⊢
    obtain ⟨-,hpng⟩ := of_check hpng
    obtain ⟨-,hpng⟩ := of_check hpng
    cases hpng
    exact hdecode
  · rw [hn] at hlength
    obtain ⟨-,hdecode⟩ := hlossless.encode32 hw hh hlength
    have hne : l.numChannels ≠ 3 := by
      rw [hn]
      decide
    dsimp only at hpng
    rw [if_neg hne] at hpng ⊢
    obtain ⟨-,hpng⟩ := of_check hpng
    obtain ⟨-,hpng⟩ := of_check hpng
    cases hpng
    exact hdecode

theorem fits_of_wellFormed (hwf : WellFormed bmp bmpSize) (hl : readHeader bmp bmpSize = some l) :
    0 < l.w.toNat ∧ 0 < l.h.toNat ∧ 54 + l.h.toNat * (l.w.toNat * 4) < 2 ^ 31 ∧ l.Fits bmpSize := by
  obtain ⟨hoffset,hwidth,hheight,hchannels⟩ := readHeader_fields hl
  obtain ⟨hw,hh,hrows,hsize⟩ := hwf
  unfold width at hw hrows hsize
  unfold height at hh hrows hsize
  rw [← hwidth] at hw hrows hsize
  rw [← hheight] at hh hrows hsize
  rw [← hoffset, ← hchannels] at hrows
  refine ⟨hw,hh,hsize,Or.inr (Or.inr ?_)⟩
  have hlast : (l.h.toNat - 1) * roundUp (l.w.toNat * l.numChannels.toNat) +
      roundUp (l.w.toNat * l.numChannels.toNat) = l.h.toNat * roundUp (l.w.toNat * l.numChannels.toNat) := by
    rw [← Nat.add_one_mul, Nat.sub_add_cancel hh]
  have hround := (le_roundUp (l.w.toNat * l.numChannels.toNat)).1
  omega

theorem decoded_getD (hl : readHeader bmp bmpSize = some l) (hfits : l.Fits bmpSize) {x y k : ℕ}
    (hx : x < l.w.toNat) (hy : y < l.h.toNat) (hk : k < 4) :
    (rgbaData bmp l).getD (y * (l.w.toNat * 4) + x * 4 + k) 0 =
      if k < l.numChannels.toNat then bmp (pixelOffset bmp x y + swapped k) else 255 := by
  obtain ⟨hoffset,hwidth,hheight,hchannels⟩ := readHeader_fields hl
  have hat : pixelOffset bmp x y = l.pixelOffset.toNat +
      (l.h.toNat - y - 1) * roundUp (l.w.toNat * l.numChannels.toNat) + x * l.numChannels.toNat := by
    rw [pixelOffset, width, height, ← hoffset, ← hwidth, ← hheight, ← hchannels, Nat.sub_right_comm]
  have hread := fun hk => @imageData_getD bmp bmpSize l hfits x y k hx hy hk
  rw [← hat] at hread
  unfold rgbaData
  rcases l.channels with hn | hn
  · have hthree : l.numChannels.toNat = 3 := by
      rw [hn]
      rfl
    have hlt : y * (l.w.toNat * 4) + x * 4 + k < 4 * (l.h.toNat * l.w.toNat) := by
      have hlt := row_lt hy (channel_lt hx hk)
      rw [← Nat.add_assoc] at hlt
      exact hlt.trans_eq (by ring)
    have hindex : y * (l.w.toNat * 4) + x * 4 + k = 4 * (y * l.w.toNat + x) + k := by ring
    have hindex' : y * (l.w.toNat * 3) + x * 3 + k = (y * l.w.toNat + x) * 3 + k := by ring
    rw [hthree, hindex'] at hread
    rw [if_pos hn, withAlpha_getD hlt, hthree, hindex, Nat.mul_add_mod, Nat.mod_eq_of_lt hk,
      Nat.mul_add_div (by norm_num), Nat.div_eq_of_lt hk, Nat.add_zero]
    by_cases halpha : k = 3
    · rw [if_pos halpha, if_neg (by omega)]
    · rw [if_neg halpha, if_pos (by omega), hread (by omega)]
  · have hfour : l.numChannels.toNat = 4 := by
      rw [hn]
      rfl
    have hne : l.numChannels ≠ 3 := by
      rw [hn]
      decide
    rw [hfour] at hread
    rw [if_neg hne, hfour, if_pos hk]
    exact hread hk

theorem bmpImage_format {data : List UInt8} {w h : UInt32} (hsize : 54 + h.toNat * (w.toNat * 4) < 2 ^ 31) :
    width (bmpImage data w h) = w.toNat ∧ height (bmpImage data w h) = h.toNat ∧
      bytesPerPixel (bmpImage data w h) = 4 ∧ rl32 (bmpImage data w h) 10 = 54 := by
  have h10 : rl32 (bmpImage data w h) 10 = 54 := bmpImage_rl32 hsize (by norm_num) rfl
  have h18 : rl32 (bmpImage data w h) 18 = w := bmpImage_rl32 hsize (by norm_num) rfl
  have h22 : rl32 (bmpImage data w h) 22 = h := bmpImage_rl32 hsize (by norm_num) rfl
  have h28 : rl16 (bmpImage data w h) 28 = 32 := bmpImage_rl16 hsize (by norm_num) (by norm_num) rfl
  rw [width, height, bytesPerPixel, h18, h22, h28]
  exact ⟨rfl,rfl,rfl,h10⟩

theorem bmpImage_at {data : List UInt8} {w h : UInt32} (hsize : 54 + h.toNat * (w.toNat * 4) < 2 ^ 31) {x y k : ℕ}
    (hx : x < w.toNat) (hy : y < h.toNat) (hk : k < 4) :
    bmpImage data w h (pixelOffset (bmpImage data w h) x y + k) =
      data.getD (y * (w.toNat * 4) + x * 4 + swapped k) 0 := by
  obtain ⟨hwidth,hheight,hbytes,hoffset⟩ := @bmpImage_format data w h hsize
  rw [← bmpImage_pixel hsize hx hy hk, pixelOffset, hwidth, hheight, hbytes, hoffset, roundUp_mul_four,
    Nat.sub_right_comm]
  rfl

theorem pixel_bmpImage (hl : readHeader bmp bmpSize = some l) (hfits : l.Fits bmpSize)
    (hsize : 54 + l.h.toNat * (l.w.toNat * 4) < 2 ^ 31) {x y : ℕ} (hx : x < l.w.toNat) (hy : y < l.h.toNat) :
    pixel (bmpImage (rgbaData bmp l) l.w l.h) x y = pixel bmp x y := by
  have hchannels := (readHeader_fields hl).2.2.2
  have hfew := l.numChannels_toNat
  have hdecoded := fun k hk => @decoded_getD bmp bmpSize l hl hfits x y k hx hy hk
  generalize rgbaData bmp l = data at hdecoded ⊢
  have hat := fun k hk => @bmpImage_at data l.w l.h hsize x y k hx hy hk
  have hbytes := (@bmpImage_format data l.w l.h hsize).2.2.1
  have hblue := (hat 0 (by norm_num)).trans (hdecoded 2 (by norm_num))
  have hgreen := (hat 1 (by norm_num)).trans (hdecoded 1 (by norm_num))
  have hred := (hat 2 (by norm_num)).trans (hdecoded 0 (by norm_num))
  have halpha := (hat 3 (by norm_num)).trans (hdecoded 3 (by norm_num))
  rw [if_pos (by omega)] at hblue hgreen hred
  have hopaque : (if 3 < l.numChannels.toNat then bmp (pixelOffset bmp x y + swapped 3) else 255) =
      if bytesPerPixel bmp = 4 then bmp (pixelOffset bmp x y + 3) else 255 := by
    rw [← hchannels]
    rcases hfew with hn | hn <;> rw [hn] <;> rfl
  unfold pixel
  rw [if_pos hbytes, ← hopaque, Pixel.mk.injEq]
  exact ⟨hblue,hgreen,hred,halpha⟩

/-- Without overflow the bitmap of a PNG has the pixels that the PNG was made from, and the PNG of a bitmap that
was made from one has its image. -/
theorem roundTrip (hlossless : Lossless lodepng) :
    (∀ (bmp : Memory) (bmpSize : CInt) (png : List UInt8), WellFormed bmp bmpSize →
      bmpToPng lodepng bmp bmpSize = some png → ∃ out outSize, pngToBmp lodepng png = some (out,outSize) ∧
        outSize.val = 54 + height bmp * (width bmp * 4) ∧ bytesPerPixel out = 4 ∧ width out = width bmp ∧
        height out = height bmp ∧ ∀ x < width bmp, ∀ y < height bmp, pixel out x y = pixel bmp x y) ∧
    ∀ (png data : List UInt8) (w h : UInt32), lodepng.decode32 png = some (data,w,h) →
      54 + h.toNat * (w.toNat * 4) < 2 ^ 31 → (lodepng.encode32 data w h).2.length ≤ 2147483647 →
        ∃ out outSize png', pngToBmp lodepng png = some (out,outSize) ∧
          bmpToPng lodepng out outSize = some png' ∧ lodepng.decode32 png' = some (data,w,h) := by
  constructor
  · intro bmp bmpSize png hwf hpng
    obtain ⟨l,hl⟩ : ∃ l, readHeader bmp bmpSize = some l := by
      cases hl : readHeader bmp bmpSize with
      | none =>
        unfold bmpToPng at hpng
        rw [hl] at hpng
        cases hpng
      | some l => exact ⟨l,rfl⟩
    obtain ⟨hw,hh,hsize,hfits⟩ := fits_of_wellFormed hwf hl
    obtain ⟨-,hwidth,hheight,-⟩ := readHeader_fields hl
    have hdecode := decode_bmpToPng hlossless hl hw hh hpng
    have hbmp : pngToBmp lodepng png = some (bmpImage (rgbaData bmp l) l.w l.h,
        toInt (54 + scanlineBytes l.w 4 * l.h)) := by
      rw [pngToBmp, hdecode]
    obtain ⟨houtWidth,houtHeight,hbytes,-⟩ := @bmpImage_format (rgbaData bmp l) l.w l.h hsize
    have hfile := fileSize_val hsize hh
    have hval := @toInt_val (54 + scanlineBytes l.w 4 * l.h) (by omega)
    refine ⟨_,_,hbmp,?_,hbytes,?_,?_,?_⟩
    · rw [hval, hfile, width, height, ← hwidth, ← hheight]
      push_cast
      rfl
    · rw [houtWidth, width, ← hwidth]
    · rw [houtHeight, height, ← hheight]
    · intro x hx y hy
      rw [width, ← hwidth] at hx
      rw [height, ← hheight] at hy
      exact pixel_bmpImage hl hfits hsize hx hy
  · intro png data w h hdecode hsize hsmall
    obtain ⟨hw,hh,hdata⟩ := hlossless.decode32 hdecode
    obtain ⟨herr,hencoded⟩ := hlossless.encode32 hw hh hdata
    have hbmp : pngToBmp lodepng png = some (bmpImage data w h,toInt (54 + scanlineBytes w 4 * h)) := by
      rw [pngToBmp, hdecode]
    refine ⟨_,_,_,hbmp,?_,hencoded⟩
    have hne : (4 : UInt32) ≠ 3 := by decide
    unfold bmpToPng
    rw [readHeader_bmpImage hsize hh]
    dsimp only
    rw [imageData_bmpImage hsize hdata, if_neg hne, if_neg (by omega), if_neg (not_not.mpr herr)]

end RoundTrip

/-- An encoder that does not compress, and its decoder. -/
def rawCodec : Lodepng where
  encode24 data w h := (0,le32 w ++ (le32 h ++ (3 :: data)))
  encode32 data w h := (0,le32 w ++ (le32 h ++ (4 :: data)))
  decode32 png :=
    let w := rl32 (fun i => png.getD i 0) 0
    let h := rl32 (fun i => png.getD i 0) 4
    let n := if png.getD 8 0 = 3 then 3 else 4
    let data := png.drop 9
    if 0 < w.toNat ∧ 0 < h.toNat ∧ data.length = h.toNat * (w.toNat * n) then
      some (if n = 3 then withAlpha (h.toNat * w.toNat) data else data,w,h)
    else none

theorem withAlpha_length (n : ℕ) (data : List UInt8) : (withAlpha n data).length = 4 * n := by
  rw [withAlpha, List.length_map, List.length_range]

theorem rawCodec_decode (w h : UInt32) (n : UInt8) (data : List UInt8) :
    rawCodec.decode32 (le32 w ++ (le32 h ++ (n :: data))) =
      if 0 < w.toNat ∧ 0 < h.toNat ∧ data.length = h.toNat * (w.toNat * if n = 3 then 3 else 4) then
        some (if (if n = 3 then 3 else 4) = 3 then withAlpha (h.toNat * w.toNat) data else data,w,h)
      else none := by
  have hwidth : rl32 (fun i => (le32 w ++ (le32 h ++ (n :: data))).getD i 0) 0 = w :=
    rl32_of_le32 (by intro j hj; interval_cases j <;> rfl)
  have hheight : rl32 (fun i => (le32 w ++ (le32 h ++ (n :: data))).getD i 0) 4 = h :=
    rl32_of_le32 (by intro j hj; interval_cases j <;> rfl)
  unfold rawCodec
  dsimp only
  rw [hwidth, hheight]
  rfl

theorem rawCodec_lossless : Lossless rawCodec where
  encode32 := by
    intro data w h hw hh hdata
    exact ⟨rfl,(rawCodec_decode w h 4 data).trans (if_pos ⟨hw,hh,hdata⟩)⟩
  encode24 := by
    intro data w h hw hh hdata
    exact ⟨rfl,(rawCodec_decode w h 3 data).trans (if_pos ⟨hw,hh,hdata⟩)⟩
  decode32 := by
    intro png data w h hdecode
    unfold rawCodec at hdecode
    dsimp only at hdecode
    split_ifs at hdecode with hn hchecked hthree hchecked hthree
    · cases hdecode
      refine ⟨hchecked.1,hchecked.2.1,?_⟩
      rw [withAlpha_length]
      ring
    · exact absurd rfl hthree
    · exact absurd hthree (by norm_num)
    · cases hdecode
      exact hchecked

def onePixel : List UInt8 :=
  [66,77,58,0,0,0,0,0,0,0,54,0,0,0,40,0,0,0,1,0,0,0,1,0,0,0,1,0,24,0,0,0,0,0,0,0,0,0,0,0,0,0,0,0,0,0,0,0,0,0,0,0,
    0,0,10,20,30,0]

theorem onePixel_int : -2 ^ 31 ≤ (58 : ℤ) ∧ (58 : ℤ) < 2 ^ 31 := by norm_num

theorem roundTrip_onePixel : ∃ png out outSize,
    bmpToPng rawCodec (fun i => onePixel.getD i 0) ⟨58,onePixel_int⟩ = some png ∧
      pngToBmp rawCodec png = some (out,outSize) ∧ pixel out 0 0 = ⟨10,20,30,255⟩ := by
  have haccepted : (bmpToPng rawCodec (fun i => onePixel.getD i 0) ⟨58,onePixel_int⟩).isSome = true := by
    decide +kernel
  obtain ⟨png,hpng⟩ := Option.isSome_iff_exists.mp haccepted
  have hwf : WellFormed (fun i => onePixel.getD i 0) ⟨58,onePixel_int⟩ :=
    ⟨by decide +kernel,by decide +kernel,by decide +kernel,by decide +kernel⟩
  obtain ⟨out,outSize,hbmp,-,-,-,-,hpixels⟩ := (roundTrip rawCodec_lossless).1 _ _ png hwf hpng
  exact ⟨png,out,outSize,hpng,hbmp,hpixels 0 (by decide +kernel) 0 (by decide +kernel)⟩

end Whist.Bitmap
