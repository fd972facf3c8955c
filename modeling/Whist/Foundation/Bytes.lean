import Mathlib.Tactic

/-! # Equal segments of a list and writes into memory

A memory is a function from addresses; `writeAt` is `memcpy` of a list.
-/
namespace Bytes

variable {α : Type*}

def segment (size : ℕ) (l : List α) (i : ℕ) : List α := (l.drop (i * size)).take size

theorem flatten_segments (size : ℕ) (l : List α) (n : ℕ) :
    ((List.range n).map (segment size l)).flatten = l.take (n * size) := by
  induction n with
  | zero => simp
  | succ n ih => simp [List.range_succ, ih, segment, Nat.add_mul, List.take_add]

theorem length_segment (size : ℕ) (l : List α) (i : ℕ) :
    (segment size l i).length = min size (l.length - i * size) := by
  rw [segment, List.length_take, List.length_drop]

theorem segment_succ (size : ℕ) (l : List α) (i : ℕ) :
    segment size l (i + 1) = segment size (l.drop size) i := by
  rw [segment, segment, List.drop_drop]
  congr 2
  ring

def writeAt (mem : ℕ → α) (offset : ℕ) (bytes : List α) : ℕ → α :=
  fun i => if offset ≤ i then (bytes[i - offset]?).getD (mem i) else mem i

theorem writeAt_nil (mem : ℕ → α) (offset : ℕ) : writeAt mem offset [] = mem := by
  funext i
  simp [writeAt]

theorem writeAt_append (mem : ℕ → α) (offset : ℕ) (a b : List α) :
    writeAt (writeAt mem offset a) (offset + a.length) b = writeAt mem offset (a ++ b) := by
  funext i
  simp only [writeAt]
  by_cases h : offset + a.length ≤ i
  · have hi : i - (offset + a.length) = i - offset - a.length := by omega
    rw [if_pos h, if_pos (by omega), if_pos (by omega), List.getElem?_append_right (by omega), hi,
      List.getElem?_eq_none (l := a) (by omega)]
    rfl
  · rw [if_neg h]
    by_cases ho : offset ≤ i
    · rw [if_pos ho, if_pos ho, List.getElem?_append_left (by omega)]
    · rw [if_neg ho, if_neg ho]

def writeAll {β : Type*} (encode : β → List α) (items : List β) (s : (ℕ → α) × ℕ) : (ℕ → α) × ℕ :=
  items.foldl (fun s item => (writeAt s.1 s.2 (encode item),s.2 + (encode item).length)) s

theorem writeAll_eq {β : Type*} (encode : β → List α) (items : List β) (mem : ℕ → α) (pos : ℕ) :
    writeAll encode items (mem,pos) = (writeAt mem pos (items.map encode).flatten,
      pos + (items.map encode).flatten.length) := by
  induction items generalizing mem pos with
  | nil => rw [List.map_nil, List.flatten_nil, writeAt_nil, List.length_nil, Nat.add_zero, writeAll, List.foldl_nil]
  | cons item items ih =>
    have hstep : writeAll encode (item :: items) (mem,pos) =
        writeAll encode items (writeAt mem pos (encode item),pos + (encode item).length) := rfl
    rw [hstep, ih, writeAt_append, List.map_cons, List.flatten_cons, List.length_append, Nat.add_assoc]

theorem writeAt_injective {x y : α} (hne : x ≠ y) {offset : ℕ} {a b : List α}
    (h : ∀ mem : ℕ → α, writeAt mem offset a = writeAt mem offset b) : a = b := by
  have hsame : ∀ i : ℕ, a[i]? = b[i]? := by
    intro i
    have hx := congrFun (h fun _ => x) (offset + i)
    have hy := congrFun (h fun _ => y) (offset + i)
    rw [writeAt, writeAt, if_pos (Nat.le_add_right _ _), if_pos (Nat.le_add_right _ _),
      Nat.add_sub_cancel_left] at hx hy
    cases ha : a[i]? with
    | none =>
      cases hb : b[i]? with
      | none => rfl
      | some v =>
        rw [ha, hb] at hx hy
        exact absurd (hx.trans hy.symm) hne
    | some v =>
      cases hb : b[i]? with
      | none =>
        rw [ha, hb] at hx hy
        exact absurd (hx.symm.trans hy) hne
      | some w =>
        rw [ha, hb] at hx
        exact congrArg some hx
  exact List.ext_getElem? hsame

theorem map_range_writeAt (mem : ℕ → α) (n : ℕ) (bytes : List α) :
    (List.range (n + bytes.length)).map (writeAt mem n bytes) = (List.range n).map mem ++ bytes := by
  rw [List.range_add, List.map_append, List.map_map]
  congr 1
  · refine List.map_congr_left (fun i hi => if_neg ?_)
    have := List.mem_range.mp hi
    omega
  · apply List.ext_getElem (by simp)
    intro i _ hi
    simp [writeAt, hi]

end Bytes
