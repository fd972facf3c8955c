import Mathlib.Tactic

/-! # Dynamic buffers and blocks

The memory behind a buffer is a function from offsets; what lies at or beyond the
capacity may not be accessed.  Allocation itself does not fail.
-/
namespace Whist.Memory

structure DynamicBuffer where
  size : ℕ
  capacity : ℕ
  useMemoryRegions : Bool
  buf : ℕ → UInt8

def initDynamicBuffer (useMemoryRegions : Bool) : DynamicBuffer := {
  size := 0
  capacity := if useMemoryRegions then 4096 else 128
  useMemoryRegions := useMemoryRegions
  buf := fun _ => 0 }

def halveCapacity (newSize : ℕ) : ℕ → ℕ → ℕ
  | 0, capacity => capacity
  | fuel + 1, capacity =>
    if capacity / 4 > newSize then halveCapacity newSize fuel (capacity / 2) else capacity

/-- The doubling loop; `none` when the fuel does not suffice. -/
def doubleCapacity (newSize : ℕ) : ℕ → ℕ → Option ℕ
  | 0, capacity => if capacity < newSize then none else some capacity
  | fuel + 1, capacity =>
    if capacity < newSize then doubleCapacity newSize fuel (capacity * 2) else some capacity

/-- `none` when a loop of the source does not end.  A reallocation keeps the bytes
below both capacities. -/
def resizeDynamicBuffer (db : DynamicBuffer) (newSize : ℕ) : Option DynamicBuffer :=
  (doubleCapacity newSize newSize (halveCapacity newSize db.capacity db.capacity)).map (fun capacity =>
    let capacity := max capacity (if db.useMemoryRegions then 4096 else 128)
    if db.capacity ≠ capacity then { db with
      size := newSize
      capacity := capacity
      buf := fun i => if i < min db.capacity capacity then db.buf i else 0 }
    else { db with size := newSize })

theorem halveCapacity_pos {newSize : ℕ} (fuel : ℕ) {capacity : ℕ} (h : 0 < capacity) :
    0 < halveCapacity newSize fuel capacity := by
  induction fuel generalizing capacity with
  | zero => exact h
  | succ fuel ih =>
    rw [halveCapacity]
    split_ifs with hbig
    · exact ih (by omega)
    · exact h

theorem doubleCapacity_spec {newSize : ℕ} {fuel capacity : ℕ} (h : 0 < capacity)
    (hfuel : newSize ≤ fuel + capacity) :
    ∃ c, doubleCapacity newSize fuel capacity = some c ∧ newSize ≤ c ∧ 0 < c := by
  induction fuel generalizing capacity with
  | zero => exact ⟨capacity,if_neg (by omega),by omega,h⟩
  | succ fuel ih =>
    rw [doubleCapacity]
    split_ifs with hsmall
    · exact ih (by omega) (by omega)
    · exact ⟨capacity,rfl,by omega,h⟩

theorem resizeDynamicBuffer_spec {db : DynamicBuffer} (h : 0 < db.capacity) (newSize : ℕ) :
    ∃ db', resizeDynamicBuffer db newSize = some db' ∧ db'.size = newSize ∧ newSize ≤ db'.capacity ∧
      0 < db'.capacity ∧ db'.useMemoryRegions = db.useMemoryRegions ∧
      ∀ i < db.capacity, i < newSize → db'.buf i = db.buf i := by
  obtain ⟨c,hc,hle,hpos⟩ := @doubleCapacity_spec newSize newSize _
    (halveCapacity_pos db.capacity h) (Nat.le_add_right newSize _)
  rw [resizeDynamicBuffer, hc, Option.map_some]
  dsimp only
  generalize (if db.useMemoryRegions then 4096 else 128) = floor
  have hle' : newSize ≤ max c floor := hle.trans (le_max_left _ _)
  by_cases hne : db.capacity ≠ max c floor
  · rw [if_pos hne]
    exact ⟨_,rfl,rfl,hle',lt_of_lt_of_le hpos (le_max_left _ _),rfl,
      fun i hi hn => if_pos (lt_min hi (lt_of_lt_of_le hn hle'))⟩
  · rw [if_neg hne]
    rw [ne_eq, not_not] at hne
    exact ⟨_,rfl,rfl,hne ▸ hle',h,rfl,fun _ _ _ => rfl⟩

/-- A block is known by a number, which stands for its region. -/
structure BlockAllocator where
  maxFrees : ℕ
  numAllocatedBlocks : ℤ := 0
  freeBlocks : List ℕ := []
  numRegions : ℕ := 0
  numAllocations : ℕ := 0
  memory : ℕ → ℕ → UInt8 := fun _ _ => 0

/-- The block is handed out with whatever `contents` says the `n`-th one holds. -/
def BlockAllocator.handOut (a : BlockAllocator) (contents : ℕ → ℕ → UInt8) (block : ℕ) : BlockAllocator :=
  { a with
    numAllocations := a.numAllocations + 1
    memory := Function.update a.memory block (contents a.numAllocations) }

def allocateBlock (contents : ℕ → ℕ → UInt8) (a : BlockAllocator) : ℕ × BlockAllocator :=
  match a.freeBlocks with
  | block :: rest => (block,{ a with freeBlocks := rest }.handOut contents block)
  | [] => (a.numRegions,{ a with
      numAllocatedBlocks := a.numAllocatedBlocks + 1
      numRegions := a.numRegions + 1 }.handOut contents a.numRegions)

def freeBlock (a : BlockAllocator) (block : ℕ) : BlockAllocator :=
  if a.freeBlocks.length < a.maxFrees then { a with freeBlocks := block :: a.freeBlocks }
  else { a with numAllocatedBlocks := a.numAllocatedBlocks - 1 }

def freeOptional (a : BlockAllocator) : Option ℕ → BlockAllocator
  | none => a
  | some block => freeBlock a block

def BlockAllocator.write (a : BlockAllocator) (block : ℕ) (bytes : ℕ → UInt8) : BlockAllocator :=
  { a with memory := Function.update a.memory block bytes }

/-- `destroy_block_allocator` fails while blocks are in use. -/
def BlockAllocator.InUse (a : BlockAllocator) : Prop := (a.freeBlocks.length : ℤ) ≠ a.numAllocatedBlocks

instance (a : BlockAllocator) : Decidable a.InUse := instDecidableNot

structure Accounted (a : BlockAllocator) (held : Multiset ℕ) : Prop where
  nodup : (held + a.freeBlocks).Nodup
  region : ∀ b ∈ held + a.freeBlocks, b < a.numRegions
  count : a.numAllocatedBlocks = (held + a.freeBlocks).card

namespace Accounted
variable {a : BlockAllocator} {held : Multiset ℕ}

theorem not_free (h : Accounted a held) {b : ℕ} (hb : b ∈ held) : b ∉ a.freeBlocks :=
  fun hf => Multiset.disjoint_left.mp (Multiset.nodup_add.mp h.nodup).2.2 hb (Multiset.mem_coe.mpr hf)

theorem allocateBlock_not_mem (h : Accounted a held) (contents : ℕ → ℕ → UInt8) :
    (allocateBlock contents a).1 ∉ held := by
  intro hb
  cases hfree : a.freeBlocks with
  | nil =>
    rw [allocateBlock, hfree] at hb
    exact lt_irrefl _ (h.region _ (Multiset.mem_add.mpr (Or.inl hb)))
  | cons block rest =>
    rw [allocateBlock, hfree] at hb
    exact h.not_free hb (by rw [hfree]; exact List.mem_cons_self)

theorem allocateBlock (h : Accounted a held) (contents : ℕ → ℕ → UInt8) :
    Accounted (allocateBlock contents a).2 ((Memory.allocateBlock contents a).1 ::ₘ held) := by
  obtain ⟨hnodup,hregion,hcount⟩ := h
  unfold Memory.allocateBlock
  cases hfree : a.freeBlocks with
  | nil =>
    rw [hfree, Multiset.coe_nil, Multiset.add_zero] at hnodup hregion hcount
    have hnew : a.numRegions ∉ held := fun hb => lt_irrefl _ (hregion _ hb)
    refine ⟨?_,?_,?_⟩
    · simpa [BlockAllocator.handOut, hfree] using ⟨hnew,hnodup⟩
    · intro b hb
      simp only [BlockAllocator.handOut, Multiset.coe_nil, Multiset.add_zero, Multiset.mem_cons] at hb ⊢
      rcases hb with rfl | hb
      · omega
      · have := hregion b hb
        omega
    · simp [BlockAllocator.handOut, hcount]
  | cons block rest =>
    have hperm : block ::ₘ held + (rest : Multiset ℕ) = held + ((block :: rest : List ℕ) : Multiset ℕ) := by
      rw [← Multiset.cons_coe, Multiset.add_cons, Multiset.cons_add]
    rw [hfree, ← hperm] at hnodup hregion hcount
    exact ⟨hnodup,hregion,hcount⟩

theorem freeBlock {block : ℕ} (h : Accounted a (block ::ₘ held)) : Accounted (freeBlock a block) held := by
  obtain ⟨hnodup,hregion,hcount⟩ := h
  unfold Memory.freeBlock
  split_ifs with hroom
  · have hperm : held + ((block :: a.freeBlocks : List ℕ) : Multiset ℕ) = block ::ₘ held + a.freeBlocks := by
      rw [← Multiset.cons_coe, Multiset.add_cons, Multiset.cons_add]
    refine ⟨?_,?_,?_⟩
    · dsimp only
      rwa [hperm]
    · dsimp only
      rwa [hperm]
    · dsimp only
      rwa [hperm]
  · rw [Multiset.cons_add] at hnodup hregion hcount
    refine ⟨(Multiset.nodup_cons.mp hnodup).2,fun b hb => hregion b (Multiset.mem_cons_of_mem hb),?_⟩
    dsimp only
    rw [hcount, Multiset.card_cons]
    push_cast
    omega

theorem freeOptional {p : Option ℕ} (h : Accounted a ((p.toList : Multiset ℕ) + held)) :
    Accounted (freeOptional a p) held := by
  cases p with
  | none => simpa [Memory.freeOptional] using h
  | some block => exact Accounted.freeBlock (by simpa using h)

theorem not_inUse (h : Accounted a 0) : ¬a.InUse := by
  have hcount := h.count
  rw [Multiset.zero_add, Multiset.coe_card] at hcount
  exact not_not.mpr hcount.symm

end Accounted

end Whist.Memory
