import Mathlib.Data.List.GetD
import Whist.Foundation.Bytes

/-! # Little-endian words in memory

A memory is a function from addresses to bytes.
-/
namespace LittleEndian

abbrev Memory := ℕ → UInt8

def rl16 (m : Memory) (i : ℕ) : ℕ := (m i).toNat + 256 * (m (i + 1)).toNat

def rl32 (m : Memory) (i : ℕ) : UInt32 := UInt32.ofNat (rl16 m i + 65536 * rl16 m (i + 2))

def rl64 (m : Memory) (i : ℕ) : UInt64 := UInt64.ofNat ((rl32 m i).toNat + 4294967296 * (rl32 m (i + 4)).toNat)

def le16 (n : ℕ) : List UInt8 := [UInt8.ofNat n,UInt8.ofNat (n / 256)]

def le32 (n : UInt32) : List UInt8 := le16 n.toNat ++ le16 (n.toNat / 65536)

def le64 (n : UInt64) : List UInt8 := le32 (UInt32.ofNat n.toNat) ++ le32 (UInt32.ofNat (n.toNat / 4294967296))

def At (m : Memory) (a : ℕ) (bytes : List UInt8) : Prop := ∀ i < bytes.length, m (a + i) = bytes.getD i 0

theorem at_append {m : Memory} {a : ℕ} {b c : List UInt8} :
    At m a (b ++ c) ↔ At m a b ∧ At m (a + b.length) c := by
  have hright : ∀ i, (b ++ c).getD (b.length + i) 0 = c.getD i 0 := by
    intro i
    rw [List.getD_append_right _ _ _ _ (Nat.le_add_right _ _), Nat.add_sub_cancel_left]
  constructor
  · intro h
    constructor
    · intro i hi
      rw [h i (by rw [List.length_append]; omega), List.getD_append _ _ _ _ hi]
    · intro i hi
      rw [Nat.add_assoc, h (b.length + i) (by rw [List.length_append]; omega), hright]
  · rintro ⟨hb,hc⟩ i hi
    rw [List.length_append] at hi
    by_cases hlt : i < b.length
    · rw [hb i hlt, List.getD_append _ _ _ _ hlt]
    · have hat := hc (i - b.length) (by omega)
      rw [← hright, Nat.add_assoc, Nat.add_sub_cancel' (by omega)] at hat
      exact hat

theorem at_writeAt (m : Memory) (a : ℕ) (bytes : List UInt8) : At (Bytes.writeAt m a bytes) a bytes := by
  intro i hi
  rw [Bytes.writeAt, if_pos (Nat.le_add_right _ _), Nat.add_sub_cancel_left, List.getD_eq_getElem?_getD,
    List.getElem?_eq_getElem hi]
  rfl

theorem At.writeAt {m : Memory} {a offset : ℕ} {b : List UInt8} (h : At m a b) (hle : a + b.length ≤ offset)
    (bytes : List UInt8) : At (Bytes.writeAt m offset bytes) a b := by
  intro i hi
  rw [Bytes.writeAt, if_neg (by omega)]
  exact h i hi

theorem map_range_of_at {m : Memory} {a : ℕ} {bytes : List UInt8} (h : At m a bytes) :
    (List.range bytes.length).map (fun i => m (a + i)) = bytes := by
  apply List.ext_getElem (by rw [List.length_map, List.length_range])
  intro i _ hi
  rw [List.getElem_map, List.getElem_range, h i hi, List.getD_eq_getElem _ _ hi]

theorem rl16_of_le16 {m : Memory} {i n : ℕ} (hn : n < 65536) (h : m i = UInt8.ofNat n)
    (h' : m (i + 1) = UInt8.ofNat (n / 256)) : rl16 m i = n := by
  rw [rl16, h, h', UInt8.toNat_ofNat', UInt8.toNat_ofNat']
  omega

theorem rl32_of_le32 {m : Memory} {i : ℕ} {n : UInt32} (h : ∀ j < 4, m (i + j) = (le32 n).getD j 0) :
    rl32 m i = n := by
  have hn := n.toNat_lt
  have hbytes : rl16 m i + 65536 * rl16 m (i + 2) = n.toNat := by
    rw [rl16, rl16]
    have h0 : m i = UInt8.ofNat n.toNat := h 0 (by omega)
    have h1 : m (i + 1) = UInt8.ofNat (n.toNat / 256) := h 1 (by omega)
    have h2 : m (i + 2) = UInt8.ofNat (n.toNat / 65536) := h 2 (by omega)
    have h3 : m (i + 2 + 1) = UInt8.ofNat (n.toNat / 65536 / 256) := h 3 (by omega)
    rw [h0, h1, h2, h3]
    simp only [UInt8.toNat_ofNat']
    omega
  rw [rl32, hbytes, UInt32.ofNat_toNat]

theorem length_le32 (n : UInt32) : (le32 n).length = 4 := rfl

theorem length_le64 (n : UInt64) : (le64 n).length = 8 := rfl

theorem rl64_of_le64 {m : Memory} {i : ℕ} {n : UInt64} (h : ∀ j < 8, m (i + j) = (le64 n).getD j 0) :
    rl64 m i = n := by
  have hn := n.toNat_lt
  have hlow : rl32 m i = UInt32.ofNat n.toNat := by
    apply rl32_of_le32
    intro j hj
    rw [h j (by omega), le64, List.getD_append _ _ _ _ (by rw [length_le32]; exact hj)]
  have hhigh : rl32 m (i + 4) = UInt32.ofNat (n.toNat / 4294967296) := by
    apply rl32_of_le32
    intro j hj
    rw [Nat.add_assoc, h (4 + j) (by omega), le64, List.getD_append_right _ _ _ _ (by rw [length_le32]; omega),
      length_le32, Nat.add_sub_cancel_left]
  rw [rl64, hlow, hhigh, UInt32.toNat_ofNat', UInt32.toNat_ofNat']
  apply UInt64.toNat_inj.mp
  rw [UInt64.toNat_ofNat']
  omega

theorem rl16_of_at {m : Memory} {i n : ℕ} (hn : n < 65536) (h : At m i (le16 n)) : rl16 m i = n :=
  rl16_of_le16 hn (h 0 Nat.zero_lt_two) (h 1 Nat.one_lt_two)

end LittleEndian
