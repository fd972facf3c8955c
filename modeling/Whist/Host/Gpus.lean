import Whist.Foundation.Ownership

/-! # GPUs and TTYs

`gpus/gpus.go`, `ttys/ttys.go` and the slice helpers of `utils/slices.go` they use.
-/
namespace Whist.Host
open Ownership

abbrev MandelboxID := String

def sliceContains {α : Type} [DecidableEq α] (slice : List α) (val : α) : Bool := slice.any fun v => v = val

def sliceRemove {α : Type} [DecidableEq α] (s : List α) (val : α) : List α :=
  match s.findIdx? (fun v => v = val), s.getLast? with
  | some i, some last => (s.set i last).dropLast
  | _, _ => s

theorem sliceContains_iff {α : Type} [DecidableEq α] (slice : List α) (val : α) :
    sliceContains slice val ↔ val ∈ slice := by
  simp [sliceContains]

theorem sliceRemove_perm {α : Type} [DecidableEq α] {s : List α} {val : α} (h : val ∈ s) :
    (sliceRemove s val).Perm (s.erase val) := by
  obtain ⟨pre,post,rfl,hpre⟩ := List.eq_append_cons_of_mem h
  have hidx : (pre ++ val :: post).findIdx? (fun v => v = val) = some pre.length := by
    rw [List.findIdx?_append, List.findIdx?_eq_none_iff.mpr (fun v hv => by
      simp only [decide_eq_false_iff_not]
      rintro rfl
      exact hpre hv), List.findIdx?_cons]
    simp
  rw [List.erase_append_right _ hpre, List.erase_cons_head, sliceRemove, hidx]
  rcases List.eq_nil_or_concat post with rfl | ⟨post,last,rfl⟩
  · simp
  · have hlast : (pre ++ val :: (post.concat last)).getLast? = some last := by
      rw [List.concat_eq_append, ← List.cons_append, ← List.append_assoc, List.getLast?_concat]
    rw [hlast]
    dsimp only
    rw [List.set_append_right _ _ le_rfl, Nat.sub_self, List.set_cons_zero, List.concat_eq_append,
      ← List.cons_append, ← List.append_assoc, List.dropLast_concat]
    exact List.Perm.append_left pre (List.perm_append_singleton last post).symm

def maxMandelboxesPerGPU : ℕ := 3

structure GPU where
  assignedMandelboxes : List MandelboxID
  usage : ℕ
deriving DecidableEq, Repr

abbrev GPUs := List GPU

namespace GPUs

def leastUsed : List GPU → ℕ → Option ℕ × ℕ → Option ℕ × ℕ
  | [], _, found => found
  | v :: rest, i, found =>
    if v.usage ≥ maxMandelboxesPerGPU then leastUsed rest (i + 1) found
    else if v.usage < found.2 then leastUsed rest (i + 1) (some i,v.usage)
    else leastUsed rest (i + 1) found

def allocate (gpuMetadata : GPUs) (mandelboxID : MandelboxID) : Except String (ℕ × GPUs) :=
  match leastUsed gpuMetadata 0 (none,255) with
  | (some minIndex,_) =>
    .ok (minIndex,gpuMetadata.modify minIndex fun gpu =>
      { assignedMandelboxes := gpu.assignedMandelboxes ++ [mandelboxID], usage := gpu.usage + 1 })
  | (none,_) => .error "No free GPUs!"

def free (gpuMetadata : GPUs) (index : ℕ) (mandelboxID : MandelboxID) : Option (Except String GPUs) :=
  (gpuMetadata[index]?).map fun gpu =>
    if gpu.usage ≤ 0 then .error "free called on a GPU Index that has no mandelboxes allocated!"
    else if !sliceContains gpu.assignedMandelboxes mandelboxID then
      .error "mandelbox is not allocated on GPU Index!"
    else
      .ok (gpuMetadata.set index
        { assignedMandelboxes := sliceRemove gpu.assignedMandelboxes mandelboxID, usage := gpu.usage - 1 })

theorem leastUsed_spec {gpus rest : List GPU} {i : ℕ} {found : Option ℕ × ℕ}
    (hrest : ∀ j, rest[j]? = gpus[i + j]?)
    (hfound : ∀ k, found.1 = some k → ∃ gpu, gpus[k]? = some gpu ∧ gpu.usage < maxMandelboxesPerGPU) :
    ∀ k, (leastUsed rest i found).1 = some k →
      ∃ gpu, gpus[k]? = some gpu ∧ gpu.usage < maxMandelboxesPerGPU := by
  induction rest generalizing i found with
  | nil => exact hfound
  | cons v rest ih =>
    have hv : gpus[i]? = some v := (hrest 0).symm
    have hnext : ∀ j, rest[j]? = gpus[i + 1 + j]? := by
      intro j
      rw [Nat.add_assoc, Nat.add_comm 1 j, ← hrest (j + 1)]
      rfl
    unfold leastUsed
    by_cases hfull : v.usage ≥ maxMandelboxesPerGPU
    · rw [if_pos hfull]
      exact ih hnext hfound
    · rw [if_neg hfull]
      by_cases hless : v.usage < found.2
      · rw [if_pos hless]
        refine ih hnext (fun k hk => ?_)
        cases hk
        exact ⟨v,hv,not_le.mp hfull⟩
      · rw [if_neg hless]
        exact ih hnext hfound

theorem allocate_spec {gpus gpus' : GPUs} {mandelboxID : MandelboxID} {index : ℕ}
    (h : gpus.allocate mandelboxID = .ok (index,gpus')) :
    ∃ gpu, gpus[index]? = some gpu ∧ gpu.usage < maxMandelboxesPerGPU ∧
      gpus' = gpus.set index
        { assignedMandelboxes := gpu.assignedMandelboxes ++ [mandelboxID], usage := gpu.usage + 1 } := by
  unfold allocate at h
  obtain ⟨⟨found,minVal⟩,hleast⟩ : ∃ r, leastUsed gpus 0 (none,255) = r := ⟨_,rfl⟩
  have hspec : ∀ k, (leastUsed gpus 0 (none,255)).1 = some k →
      ∃ gpu, gpus[k]? = some gpu ∧ gpu.usage < maxMandelboxesPerGPU :=
    leastUsed_spec (fun j => by rw [Nat.zero_add]) nofun
  rw [hleast] at h hspec
  cases found with
  | none => cases h
  | some k =>
    simp only [Except.ok.injEq, Prod.mk.injEq] at h
    obtain ⟨rfl,rfl⟩ := h
    obtain ⟨gpu,hgpu,husage⟩ := hspec k rfl
    refine ⟨gpu,hgpu,husage,?_⟩
    rw [List.modify_eq_set_getElem?, hgpu]
    rfl

end GPUs

def minAllowedTTY : UInt8 := 10

def maxAllowedTTY : UInt8 := 64

def numAllowedTTYs : ℕ := 54

def randomTTYInAllowedRange (draw : Fin numAllowedTTYs) : UInt8 := UInt8.ofNat (10 + draw)

def ttyIsInAllowedRange (p : UInt8) : Bool := minAllowedTTY ≤ p && p < maxAllowedTTY

abbrev TTYMap := Table UInt8

namespace TTYMap

def maxTries : ℕ := 100

def drawFreeTTY (ttymap : TTYMap) (draws : ℕ → Fin numAllowedTTYs) : Option UInt8 :=
  ((List.range maxTries).map fun k => randomTTYInAllowedRange (draws k)).find? fun tty => (ttymap tty).isNone

def allocate (ttymap : TTYMap) (draws : ℕ → Fin numAllowedTTYs) : Except String (UInt8 × TTYMap) :=
  match drawFreeTTY ttymap draws with
  | none =>
    .error s!"Tried {maxTries} times to allocate a TTY. Breaking out to avoid spinning for too long."
  | some tty => .ok (tty,Function.update ttymap tty (some .inUse))

def free (ttymap : TTYMap) (tty : UInt8) : TTYMap :=
  match ttymap tty with
  | some .inUse => Function.update ttymap tty none
  | _ => ttymap

theorem ttyIsInAllowedRange_random (draw : Fin numAllowedTTYs) :
    ttyIsInAllowedRange (randomTTYInAllowedRange draw) := by
  have hdraw := draw.isLt
  have hnat : (randomTTYInAllowedRange draw).toNat = 10 + draw := by
    rw [randomTTYInAllowedRange, UInt8.toNat_ofNat', Nat.mod_eq_of_lt]
    unfold numAllowedTTYs at hdraw
    omega
  unfold ttyIsInAllowedRange minAllowedTTY maxAllowedTTY
  rw [Bool.and_eq_true, decide_eq_true_iff, decide_eq_true_iff, UInt8.le_iff_toNat_le,
    UInt8.lt_iff_toNat_lt, hnat]
  unfold numAllowedTTYs at hdraw
  exact ⟨by simp,by simp only [UInt8.reduceToNat]; omega⟩

theorem allocate_spec {ttymap ttymap' : TTYMap} {draws : ℕ → Fin numAllowedTTYs} {tty : UInt8}
    (h : ttymap.allocate draws = .ok (tty,ttymap')) :
    Claimed ttymap [tty] ttymap' ∧ ttyIsInAllowedRange tty := by
  unfold allocate at h
  cases hdraw : drawFreeTTY ttymap draws with
  | none => simp [hdraw] at h
  | some tty' =>
    rw [hdraw] at h
    simp only [Except.ok.injEq, Prod.mk.injEq] at h
    obtain ⟨rfl,rfl⟩ := h
    have hfree := List.find?_some hdraw
    obtain ⟨k,-,hk⟩ := List.mem_map.mp (List.mem_of_find?_eq_some hdraw)
    refine ⟨⟨List.nodup_singleton _,?_,?_⟩,hk ▸ ttyIsInAllowedRange_random _⟩
    · intro t ht
      rw [List.mem_singleton.mp ht]
      simpa using hfree
    · intro t
      simp only [List.mem_singleton, Function.update_apply]

theorem free_released (ttymap : TTYMap) (tty : UInt8) : Released ttymap [tty] (ttymap.free tty) := by
  intro t
  unfold free
  cases hstatus : ttymap tty with
  | none =>
    dsimp only
    rw [if_neg]
    rintro ⟨hmem,huse⟩
    rw [List.mem_singleton.mp hmem, hstatus] at huse
    cases huse
  | some status =>
    cases status with
    | reserved =>
      dsimp only
      rw [if_neg]
      rintro ⟨hmem,huse⟩
      rw [List.mem_singleton.mp hmem, hstatus] at huse
      cases huse
    | inUse =>
      dsimp only
      rw [Function.update_apply]
      by_cases ht : t = tty
      · rw [if_pos ht, if_pos ⟨List.mem_singleton.mpr ht,ht ▸ hstatus⟩]
      · rw [if_neg ht, if_neg fun hand => ht (List.mem_singleton.mp hand.1)]

theorem free_of_notInUse {ttymap : TTYMap} {tty : UInt8} (h : ttymap tty ≠ some .inUse) :
    ttymap.free tty = ttymap := by
  unfold free
  cases hstatus : ttymap tty with
  | none => rfl
  | some status =>
    cases status with
    | reserved => rfl
    | inUse => exact absurd hstatus h

end TTYMap

end Whist.Host
