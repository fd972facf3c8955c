import Whist.Network.RingInvariant

/-! # Nacking and stream resets

`try_recovering_missing_packets_or_frames`.  What the clocks, the latency and the bitrates
decide in one call is given; each frame and each index is looked at once a call.
-/
namespace Whist.Ring
open Fec Udp Memory

def maxPacketNacks : ℕ := 2

structure NackTiming where
  statisticsDue : Bool
  burstIntervalOver : Bool
  avgIntervalOver : Bool
  burstNacks : ℤ
  avgNacks : ℤ
  maxUnorderedPackets : ℤ
  nacksPerFrame : ℕ
  /-- The last nack for the frame, or for the index, was long enough ago. -/
  frameTimedOut : ℤ → Bool
  indexTimedOut : ℤ → ℕ → Bool
  /-- The frame is too old, given whether the frame to be rendered next is ready. -/
  stale : ℤ → Bool → Bool
  resetDue : Bool

def nackSinglePacket (r : RingBuffer) (id index : ℤ) : RingBuffer :=
  { r with
    statistics := { r.statistics with numPacketsNacked := r.statistics.numPacketsNacked + 1 }
    nacks := r.nacks ++ [(id,index)] }

def nackIndex (t : NackTiming) (slot : ℕ) (maxPacketsToNack : ℤ) (s : RingBuffer × ℤ) (i : ℕ) :
    RingBuffer × ℤ :=
  let f := s.1.receivingFrames slot
  if s.2 < maxPacketsToNack ∧ f.receivedIndices i = false ∧
      (f.numTimesIndexNacked i = 0 ∨ t.indexTimedOut f.id i = true) then
    ((nackSinglePacket s.1 f.id i).setFrame (.slot slot) { f with
      numTimesIndexNacked := Function.update f.numTimesIndexNacked i ((f.numTimesIndexNacked i + 1) % 256) },
      s.2 + 1)
  else s

def nackMissingPacketsUpToIndex (t : NackTiming) (r : RingBuffer) (slot : ℕ) (endIndex maxPacketsToNack : ℤ) :
    RingBuffer × ℤ :=
  (List.range (endIndex + 1).toNat).foldl (nackIndex t slot maxPacketsToNack) (r,0)

def lastReceivedIndex (f : FrameData) : ℕ :=
  ((List.range f.numOriginalPackets).reverse.find? f.receivedIndices).getD 0

def unorderedPackets (c : RingConfig) (r : RingBuffer) (maxUnorderedPackets id : ℤ) : ℤ :=
  (ids (id + 1) (r.maxId - 1)).foldl (fun n futureId =>
    let f := r.receivingFrames (c.slot futureId)
    if n > 0 ∧ f.id = futureId then max (n - f.originalPacketsReceived) 0 else n) maxUnorderedPackets

def nackFrame (c : RingConfig) (t : NackTiming) (maxNacks : ℤ) (s : RingBuffer × ℤ) (id : ℤ) :
    Except RingFatal (RingBuffer × ℤ) :=
  if ¬(s.2 < maxNacks) then .ok s
  else
    let f := s.1.receivingFrames (c.slot id)
    if f.id ≠ id then
      if f.entireFrameNackedId ≠ id ∨ t.frameTimedOut id = true ∧ f.numEntireFrameNacked < maxPacketNacks then
        .ok ((nackSinglePacket s.1 id (-1)).setFrame (.slot (c.slot id)) { f with
          entireFrameNackedId := id
          numEntireFrameNacked :=
            if f.entireFrameNackedId ≠ id then 1 else f.numEntireFrameNacked + 1 },
          s.2 + t.nacksPerFrame)
      else .ok s
    else
      match isReadyToRender c s.1 id with
      | .error e => .error e
      | .ok (true,r) => .ok (r,s.2)
      | .ok (false,r) =>
        let f := r.receivingFrames (c.slot id)
        let nackUptoIndex : ℤ := if id < r.maxId then f.numOriginalPackets - 1 else lastReceivedIndex f
        let n := nackMissingPacketsUpToIndex t r (c.slot id)
          (nackUptoIndex - unorderedPackets c r t.maxUnorderedPackets id) (maxNacks - s.2)
        .ok (n.1,s.2 + n.2)

def startNackIntervals (t : NackTiming) (r : RingBuffer) : RingBuffer :=
  { r with
    burstCounter := if t.burstIntervalOver then 0 else r.burstCounter
    avgCounter := if t.avgIntervalOver then 0 else r.avgCounter }

def saturateNacking (r : RingBuffer) (avgNacksRemaining : ℤ) : RingBuffer :=
  if r.lastNackPossibility ∧ avgNacksRemaining ≤ 0 then { r with
    lastNackPossibility := false
    statistics := { r.statistics with
      numTimesNackingSaturated := r.statistics.numTimesNackingSaturated + 1 } }
  else r

def nackFrames (c : RingConfig) (t : NackTiming) (maxNacks : ℤ) (r : RingBuffer) : Except RingFatal RingBuffer :=
  let first := if r.lastRenderedId = -1 then max (r.maxId - 5) r.minId else r.lastRenderedId + 1
  match Run.run (nackFrame c t maxNacks) (r,0) (ids first r.maxId) with
  | .error e => .error e
  | .ok (r,n) => .ok { r with burstCounter := r.burstCounter + n, avgCounter := r.avgCounter + n }

def tryNacking (c : RingConfig) (t : NackTiming) (r : RingBuffer) : Except RingFatal RingBuffer :=
  if ¬(r.minId ≠ -1) then .error .noFrameReceived
  else
    let r := startNackIntervals t r
    let avgNacksRemaining := t.avgNacks - r.avgCounter
    let maxNacks := min (t.burstNacks - r.burstCounter) avgNacksRemaining
    if maxNacks ≤ 0 then .ok (saturateNacking r avgNacksRemaining)
    else nackFrames c t maxNacks { r with lastNackPossibility := true }

def checkStale (c : RingConfig) (t : NackTiming) (currentlyPendingId : ℤ) (s : RingBuffer × ℤ) (id : ℤ) :
    Except RingFatal (RingBuffer × ℤ) :=
  if (s.1.receivingFrames (c.slot id)).id = id then
    match isReadyToRender c s.1 currentlyPendingId with
    | .error e => .error e
    | .ok (ready,r) => .ok (r,if t.stale id ready then max s.2 id else s.2)
  else .ok s

def requestStreamReset (r : RingBuffer) (greatestFailedId : ℤ) : RingBuffer :=
  { r with
    streamResets := r.streamResets ++ [greatestFailedId]
    lastStreamResetRequestId := max r.lastStreamResetRequestId greatestFailedId }

def tryRecovering (c : RingConfig) (t : NackTiming) (r : RingBuffer) : Except RingFatal RingBuffer :=
  let r := if t.statisticsDue then { r with statistics := {} } else r
  if r.minId = -1 then .ok r
  else
    match tryNacking c t r with
    | .error e => .error e
    | .ok r =>
      let currentlyPendingId := if r.lastRenderedId = -1 then r.minId else r.lastRenderedId + 1
      match Run.run (checkStale c t currentlyPendingId) (r,-1)
          (ids (max currentlyPendingId (r.maxId - 60)) r.maxId) with
      | .error e => .error e
      | .ok (r,greatestFailedId) =>
        if greatestFailedId ≠ -1 ∧ t.resetDue then .ok (requestStreamReset r greatestFailedId) else .ok r

variable {c : RingConfig} {t : NackTiming} {r r' : RingBuffer}

theorem nackSinglePacket_noted (r : RingBuffer) (id index : ℤ) : Noted r (nackSinglePacket r id index) :=
  ⟨(Noted.refl r).frames,rfl,rfl,rfl,rfl,rfl,rfl,rfl⟩

theorem nackIndex_noted (slot : ℕ) (maxPacketsToNack : ℤ) (s : RingBuffer × ℤ) (i : ℕ) :
    Noted s.1 (nackIndex t slot maxPacketsToNack s i).1 := by
  unfold nackIndex
  dsimp only
  by_cases hnack : s.2 < maxPacketsToNack ∧ (s.1.receivingFrames slot).receivedIndices i = false ∧
      ((s.1.receivingFrames slot).numTimesIndexNacked i = 0 ∨
        t.indexTimedOut (s.1.receivingFrames slot).id i = true)
  · rw [if_pos hnack]
    exact (nackSinglePacket_noted s.1 _ _).setFrame slot { (s.1.receivingFrames slot).notes with
      numTimesIndexNacked := Function.update (s.1.receivingFrames slot).numTimesIndexNacked i
        (((s.1.receivingFrames slot).numTimesIndexNacked i + 1) % 256) }
  · rw [if_neg hnack]
    exact .refl _

theorem nackMissing_noted (slot : ℕ) (endIndex maxPacketsToNack : ℤ) :
    Noted r (nackMissingPacketsUpToIndex t r slot endIndex maxPacketsToNack).1 := by
  unfold nackMissingPacketsUpToIndex
  generalize List.range (endIndex + 1).toNat = indices
  have key : ∀ s : RingBuffer × ℤ, Noted r s.1 →
      Noted r (indices.foldl (nackIndex t slot maxPacketsToNack) s).1 := by
    induction indices with
    | nil => exact fun s h => h
    | cons i rest ih => exact fun s h => ih _ (h.trans (nackIndex_noted slot maxPacketsToNack s i))
  exact key (r,0) (.refl r)

theorem nackFrame_tidied {maxNacks id : ℤ} {s s' : RingBuffer × ℤ}
    (h : nackFrame c t maxNacks s id = .ok s') : Tidied c s.1 s'.1 := by
  unfold nackFrame at h
  by_cases hroom : s.2 < maxNacks
  · rw [if_neg (not_not.mpr hroom)] at h
    dsimp only at h
    by_cases hid : (s.1.receivingFrames (c.slot id)).id = id
    · rw [if_neg (not_not.mpr hid)] at h
      cases hready : isReadyToRender c s.1 id with
      | error e => simp [hready] at h
      | ok p =>
        obtain ⟨ready,r⟩ := p
        have htidied := isReadyToRender_tidied hready
        cases ready with
        | true =>
          rw [hready] at h
          cases h
          exact htidied
        | false =>
          rw [hready] at h
          cases h
          exact htidied.tail (.note (nackMissing_noted _ _ _))
    · rw [if_pos hid] at h
      split_ifs at h
      · cases h
        refine .single (.note ?_)
        exact (nackSinglePacket_noted s.1 id (-1)).setFrame (c.slot id)
          { (s.1.receivingFrames (c.slot id)).notes with entireFrameNackedId := id, numEntireFrameNacked := 1 }
      · cases h
        refine .single (.note ?_)
        exact (nackSinglePacket_noted s.1 id (-1)).setFrame (c.slot id)
          { (s.1.receivingFrames (c.slot id)).notes with
            entireFrameNackedId := id
            numEntireFrameNacked := (s.1.receivingFrames (c.slot id)).numEntireFrameNacked + 1 }
      · cases h
        exact .refl
  · rw [if_pos hroom] at h
    cases h
    exact .refl

theorem run_pair_tidied {α : Type*} {step : RingBuffer × ℤ → α → Except RingFatal (RingBuffer × ℤ)}
    (hstep : ∀ s a s', step s a = .ok s' → Tidied c s.1 s'.1) {as : List α} {s s' : RingBuffer × ℤ}
    (h : Run.run step s as = .ok s') : Tidied c s.1 s'.1 := by
  let Inv : RingBuffer × ℤ → Prop := fun s₁ => Tidied c s.1 s₁.1
  have hinv : ∀ s₁ a s₂, Inv s₁ → True → step s₁ a = .ok s₂ → Inv s₂ :=
    fun s₁ a s₂ h₁ _ h₂ => h₁.trans (hstep s₁ a s₂ h₂)
  exact Run.run_invariant hinv (fun _ _ => trivial) .refl h

theorem nackFrames_tidied {maxNacks : ℤ} (h : nackFrames c t maxNacks r = .ok r') : Tidied c r r' := by
  unfold nackFrames at h
  dsimp only at h
  generalize ids (if r.lastRenderedId = -1 then max (r.maxId - 5) r.minId else r.lastRenderedId + 1)
    r.maxId = idList at h
  cases hrun : Run.run (nackFrame c t maxNacks) (r,0) idList with
  | error e => simp [hrun] at h
  | ok s =>
    obtain ⟨r₁,n⟩ := s
    rw [hrun] at h
    cases h
    have htidied := run_pair_tidied (fun _ _ _ => nackFrame_tidied) hrun
    exact htidied.tail (.note ⟨(Noted.refl r₁).frames,rfl,rfl,rfl,rfl,rfl,rfl,rfl⟩)

theorem tryNacking_tidied (h : tryNacking c t r = .ok r') : Tidied c r r' := by
  unfold tryNacking at h
  by_cases hmin : r.minId = -1
  · simp [hmin] at h
  · rw [if_neg (not_not.mpr hmin)] at h
    have hstart : Noted r (startNackIntervals t r) :=
      ⟨(Noted.refl r).frames,rfl,rfl,rfl,rfl,rfl,rfl,rfl⟩
    generalize startNackIntervals t r = r₁ at h hstart
    dsimp only at h
    split_ifs at h
    · cases h
      have hsaturate : ∀ n, Noted r₁ (saturateNacking r₁ n) := by
        intro n
        unfold saturateNacking
        split_ifs
        · exact ⟨(Noted.refl r₁).frames,rfl,rfl,rfl,rfl,rfl,rfl,rfl⟩
        · exact .refl r₁
      exact .single (.note (hstart.trans (hsaturate _)))
    · have hpossible : Noted r₁ { r₁ with lastNackPossibility := true } :=
        ⟨(Noted.refl r₁).frames,rfl,rfl,rfl,rfl,rfl,rfl,rfl⟩
      exact (Relation.ReflTransGen.single (.note (hstart.trans hpossible))).trans (nackFrames_tidied h)

theorem checkStale_tidied {currentlyPendingId id : ℤ} {s s' : RingBuffer × ℤ}
    (h : checkStale c t currentlyPendingId s id = .ok s') : Tidied c s.1 s'.1 := by
  unfold checkStale at h
  split_ifs at h
  · cases hready : isReadyToRender c s.1 currentlyPendingId with
    | error e => simp [hready] at h
    | ok p =>
      rw [hready] at h
      cases h
      exact isReadyToRender_tidied hready
  · cases h
    exact .refl

/-- Nacking and asking for stream resets only tidy the ring buffer. -/
theorem tryRecovering_tidied (h : tryRecovering c t r = .ok r') : Tidied c r r' := by
  unfold tryRecovering at h
  have hstart : Noted r (if t.statisticsDue then { r with statistics := {} } else r) := by
    split_ifs
    · exact (Noted.refl r).statistics _
    · exact .refl r
  generalize (if t.statisticsDue then { r with statistics := {} } else r) = r₁ at h hstart
  dsimp only at h
  by_cases hmin : r₁.minId = -1
  · rw [if_pos hmin] at h
    cases h
    exact .single (.note hstart)
  · rw [if_neg hmin] at h
    cases hnack : tryNacking c t r₁ with
    | error e => simp [hnack] at h
    | ok r₂ =>
      simp only [hnack] at h
      have hnacked := (Relation.ReflTransGen.single (.note hstart)).trans (tryNacking_tidied hnack)
      generalize (if r₂.lastRenderedId = -1 then r₂.minId else r₂.lastRenderedId + 1) = pending at h
      cases hstale : Run.run (checkStale c t pending) (r₂,-1) (ids (max pending (r₂.maxId - 60)) r₂.maxId) with
      | error e => simp [hstale] at h
      | ok s =>
        obtain ⟨r₃,n⟩ := s
        simp only [hstale] at h
        have hchecked := hnacked.trans (run_pair_tidied (fun _ _ _ => checkStale_tidied) hstale)
        split_ifs at h
        · cases h
          exact hchecked.tail (.note ⟨(Noted.refl r₃).frames,rfl,rfl,rfl,rfl,rfl,rfl,rfl⟩)
        · cases h
          exact hchecked

end Whist.Ring
