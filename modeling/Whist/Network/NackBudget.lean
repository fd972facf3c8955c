import Whist.Network.NetworkAlgorithm
import Whist.Network.PendingFrames
import Whist.Network.RingLedger

/-! # The budget for nacks

Each interval allows a number of nacks.  A frame that is missing entirely is charged for several
nacks, so the counters may pass the limits, but the calls of `nack_packet` do not.
-/
namespace Whist.Ring
open Udp (WhistSegment)
open Wcc (NetworkSettings toDouble)
open FecController (truncate)

def maxPayloadSize : ℤ := 1285
def bitsInByte : Binary64 := .nearest 8
def maxFps : ℤ := 60
def msInSecond : Binary64 := .nearest 1000
def maxNackBitrateRatio : Binary64 := .nearest (1 / 2)
def burstInterval : Binary64 := .nearest 5 / msInSecond
def avgInterval : Binary64 := .nearest 100 / msInSecond

/-- `round`, which takes halves away from zero. -/
def roundHalfAway (x : ℚ) : ℤ := if 0 ≤ x then ⌊x + 1 / 2⌋ else ⌈x - 1 / 2⌉

def maxNackMbps (bitrate : ℤ) : ℤ := truncate (toDouble bitrate * maxNackBitrateRatio).val

def payloads (mbps : ℤ) (interval : Binary64) : ℤ :=
  truncate (toDouble mbps * interval / (toDouble maxPayloadSize * bitsInByte)).val

def burstNacks (n : NetworkSettings) : ℤ := max (payloads (maxNackMbps n.burstBitrate) burstInterval) 1

def avgNacks (n : NetworkSettings) : ℤ := payloads (maxNackMbps n.videoBitrate) avgInterval

def bytesPerFrame (n : NetworkSettings) : Binary64 :=
  toDouble n.videoBitrate / (toDouble maxFps * bitsInByte * toDouble 2)

def nacksPerFrame (n : NetworkSettings) : ℕ :=
  (max (roundHalfAway (bytesPerFrame n / toDouble maxPayloadSize).val) 1).toNat

structure Uses (n : NetworkSettings) (t : NackTiming) : Prop where
  burstNacks : t.burstNacks = burstNacks n
  avgNacks : t.avgNacks = avgNacks n
  nacksPerFrame : t.nacksPerFrame = nacksPerFrame n

theorem Uses.charged {n : NetworkSettings} {t : NackTiming} (h : Uses n t) : 1 ≤ t.nacksPerFrame := by
  rw [h.nacksPerFrame]
  unfold Ring.nacksPerFrame
  omega

variable {c : RingConfig} {r r' : RingBuffer} {n : NetworkSettings} {t : NackTiming}

def nacksMade (r r' : RingBuffer) : ℕ := r'.nacks.length - r.nacks.length

theorem Nacked.nacks_eq {last count : ℤ} {l l' : Ledger} {es : List (ℤ × ℤ)} (h : Nacked c t last l l' es count) :
    l'.nacks = l.nacks ++ es := by
  obtain ⟨l₁,hrun,rfl⟩ := h.run
  exact hrun.nacks_eq

theorem Nacked.nacksMade_eq {last count : ℤ} {es : List (ℤ × ℤ)} (h : Nacked c t last r.ledger r'.ledger es count) :
    nacksMade r r' = es.length := by
  have hnacks : r'.nacks = r.nacks ++ es := h.nacks_eq
  unfold nacksMade
  rw [hnacks, List.length_append]
  omega

theorem Nacked.counters {last count : ℤ} {l l' : Ledger} {es : List (ℤ × ℤ)} (h : Nacked c t last l l' es count) :
    l'.burstCounter = (l.startIntervals t).burstCounter + count ∧
      l'.avgCounter = (l.startIntervals t).avgCounter + count := by
  obtain ⟨l₁,hrun,rfl⟩ := h.run
  obtain ⟨hburst,havg,-,-⟩ := hrun.same
  exact ⟨by rw [← hburst],by rw [← havg]⟩

theorem tryNacking_bounded (ht : Uses n t) (h : tryNacking c t r = .ok r') :
    nacksMade r r' ≤ ((r.ledger.startIntervals t).maxNacks t).toNat := by
  obtain ⟨es,count,hnacked⟩ := tryNacking_ledger h
  rw [hnacked.nacksMade_eq]
  exact hnacked.bounded ht.charged

/-- A ring buffer, and the nacks since each counter started anew for the first time. -/
structure NackBudget where
  ring : RingBuffer
  sinceBurst : Option ℕ := none
  sinceAvg : Option ℕ := none

def spend (since : Option ℕ) (reset : Bool) (made : ℕ) : Option ℕ :=
  (if reset then some 0 else since).map (· + made)

/-- `try_nacking` is reached once there is a range of frames. -/
def resetsBurst (r : RingBuffer) : RecoveryCall → Bool
  | .ring _ => false
  | .recover t => decide (r.minId ≠ -1) && t.burstIntervalOver

def resetsAvg (r : RingBuffer) : RecoveryCall → Bool
  | .ring _ => false
  | .recover t => decide (r.minId ≠ -1) && t.avgIntervalOver

def budgetStep (c : RingConfig) (b : NackBudget) (call : RecoveryCall) : Except RingFatal NackBudget :=
  (recoveryStep c b.ring call).map fun r =>
    { ring := r
      sinceBurst := spend b.sinceBurst (resetsBurst b.ring call) (nacksMade b.ring r)
      sinceAvg := spend b.sinceAvg (resetsAvg b.ring call) (nacksMade b.ring r) }

def Within (since : Option ℕ) (counter limit : ℤ) : Prop := ∀ k ∈ since, (k : ℤ) ≤ counter ∧ (k : ℤ) ≤ max limit 0

theorem Within.spend {since : Option ℕ} {counter limit count : ℤ} {made : ℕ} (reset : Bool)
    (h : Within since counter limit) (hmade : (made : ℤ) ≤ count)
    (hroom : (made : ℤ) ≤ max (limit - if reset then 0 else counter) 0) :
    Within (spend since reset made) ((if reset then 0 else counter) + count) limit := by
  intro k hk
  unfold Ring.spend at hk
  cases reset with
  | true =>
    cases hk
    simp only [if_true] at hroom ⊢
    omega
  | false =>
    obtain ⟨m,hm,rfl⟩ := Option.map_eq_some_iff.mp hk
    obtain ⟨hcounter,hlimit⟩ := h m hm
    simp only [Bool.false_eq_true, if_false] at hroom ⊢
    push_cast
    omega

theorem Within.idle {since : Option ℕ} {counter limit : ℤ} (h : Within since counter limit) :
    Within (Ring.spend since false 0) counter limit := by
  intro k hk
  obtain ⟨m,hm,rfl⟩ := Option.map_eq_some_iff.mp hk
  exact h m hm

theorem Receives.same {s : WhistSegment} {l l' : Ledger} (h : Receives c s l l') :
    l'.nacks = l.nacks ∧ l'.burstCounter = l.burstCounter ∧ l'.avgCounter = l.avgCounter := by
  cases h with
  | stale => exact ⟨rfl,rfl,rfl⟩
  | dropped => exact ⟨rfl,rfl,rfl⟩
  | arrives => exact ⟨rfl,rfl,rfl⟩
  | opens l₁ hroom => rcases hroom with rfl | rfl <;> exact ⟨rfl,rfl,rfl⟩

theorem ringStep_idle {call : RingCall} (h : ringStep c r call = .ok r') :
    r'.nacks = r.nacks ∧ r'.burstCounter = r.burstCounter ∧ r'.avgCounter = r.avgCounter := by
  rcases ringStep_ledger h with hledger | ⟨s,-,-,-,hreceives⟩
  · exact ⟨congrArg Ledger.nacks hledger,congrArg Ledger.burstCounter hledger,congrArg Ledger.avgCounter hledger⟩
  · exact hreceives.same

def InBudget (n : NetworkSettings) (b : NackBudget) : Prop :=
  Within b.sinceBurst b.ring.burstCounter (burstNacks n) ∧ Within b.sinceAvg b.ring.avgCounter (avgNacks n)

theorem InBudget.step {b b' : NackBudget} {call : RecoveryCall} (h : InBudget n b)
    (hcall : ∀ t, call = .recover t → Uses n t) (hstep : budgetStep c b call = .ok b') : InBudget n b' := by
  unfold budgetStep at hstep
  obtain ⟨r,hr,rfl⟩ := Run.map_eq_ok hstep
  cases call with
  | ring call =>
    obtain ⟨hnacks,hburst,havg⟩ := ringStep_idle hr
    have hmade : nacksMade b.ring r = 0 := by
      unfold nacksMade
      rw [hnacks, Nat.sub_self]
    unfold InBudget
    rw [hmade, hburst, havg]
    exact ⟨h.1.idle,h.2.idle⟩
  | recover t =>
    have ht := hcall t rfl
    unfold InBudget resetsBurst resetsAvg
    rcases tryRecovering_ledger hr with ⟨hmin,hledger⟩ | ⟨hmin,es,count,hnacked⟩
    · have hburst : r.burstCounter = b.ring.burstCounter := congrArg Ledger.burstCounter hledger
      have havg : r.avgCounter = b.ring.avgCounter := congrArg Ledger.avgCounter hledger
      have hmade : nacksMade b.ring r = 0 := by
        unfold nacksMade
        rw [show r.nacks = b.ring.nacks from congrArg Ledger.nacks hledger, Nat.sub_self]
      have hreached : decide (b.ring.minId ≠ -1) = false := decide_eq_false (not_not.mpr hmin)
      dsimp only
      rw [hmade, hburst, havg, hreached, Bool.false_and, Bool.false_and]
      exact ⟨h.1.idle,h.2.idle⟩
    · obtain ⟨hburst,havg⟩ := hnacked.counters
      have hreached : decide (b.ring.minId ≠ -1) = true := decide_eq_true hmin
      have hcounted := hnacked.counted ht.charged
      have hbounded := hnacked.bounded ht.charged
      unfold Ledger.maxNacks at hbounded
      rw [ht.burstNacks, ht.avgNacks] at hbounded
      dsimp only
      rw [hnacked.nacksMade_eq, hreached, Bool.true_and, Bool.true_and]
      constructor
      · rw [show r.burstCounter = _ from hburst]
        apply h.1.spend _ hcounted
        unfold Ledger.startIntervals at hbounded
        dsimp only [RingBuffer.ledger] at hbounded
        omega
      · rw [show r.avgCounter = _ from havg]
        apply h.2.spend _ hcounted
        unfold Ledger.startIntervals at hbounded
        dsimp only [RingBuffer.ledger] at hbounded
        omega

/-- In every run the calls of `nack_packet` since an interval began are within its limit, and in
every state a call of `try_nacking` makes at most `max_nacks`. -/
theorem nack_budget (n : NetworkSettings) (c : RingConfig) (r : RingBuffer) :
    (∀ t r', Uses n t → tryNacking c t r = .ok r' →
        nacksMade r r' ≤ ((r.ledger.startIntervals t).maxNacks t).toNat) ∧
      ∀ calls b, (∀ t, .recover t ∈ calls → Uses n t) → Run.run (budgetStep c) { ring := r } calls = .ok b →
        (∀ k ∈ b.sinceBurst, (k : ℤ) ≤ burstNacks n) ∧ (∀ k ∈ b.sinceAvg, (k : ℤ) ≤ max (avgNacks n) 0) := by
  refine ⟨fun t r' ht h => tryNacking_bounded ht h,fun calls b hcalls hrun => ?_⟩
  have hstart : InBudget n { ring := r } :=
    ⟨fun k hk => (Option.not_mem_none k hk).elim,fun k hk => (Option.not_mem_none k hk).elim⟩
  have hgood : ∀ call ∈ calls, ∀ t, call = .recover t → Uses n t := by
    rintro call hmem t rfl
    exact hcalls t hmem
  have hend := @Run.run_invariant _ _ _ _ (InBudget n) (fun call => ∀ t, call = .recover t → Uses n t)
    (fun b call b' hb hcall hstep => hb.step hcall hstep) _ hgood _ _ hstart hrun
  have hpos : 1 ≤ burstNacks n := le_max_right _ _
  refine ⟨fun k hk => ?_,fun k hk => (hend.2 k hk).2⟩
  have hlimit := (hend.1 k hk).2
  omega

def slowLink : NetworkSettings := ⟨2000000,8000000,false,false⟩

def eagerTiming : NackTiming where
  statisticsDue := false
  burstIntervalOver := true
  avgIntervalOver := true
  burstNacks := burstNacks slowLink
  avgNacks := avgNacks slowLink
  maxUnorderedPackets := 0
  nacksPerFrame := nacksPerFrame slowLink
  frameTimedOut _ := true
  indexTimedOut _ _ := true
  stale _ _ := false
  resetDue := false

def lastOfThree : List RecoveryCall := [.ring (.receive ⟨.audio,1,2,3,0,3,0,false,false,[1,2,3]⟩), .recover eagerTiming]

theorem nack_budget_lastOfThree :
    ∃ b, Run.run (budgetStep audioRing) { ring := freshRingBuffer audioRing } lastOfThree = .ok b ∧
      (∀ k ∈ b.sinceBurst, (k : ℤ) ≤ burstNacks slowLink) ∧
      (∀ k ∈ b.sinceAvg, (k : ℤ) ≤ max (avgNacks slowLink) 0) := by
  have hok : (Run.run (budgetStep audioRing) { ring := freshRingBuffer audioRing } lastOfThree).toOption.isSome := by
    decide +kernel
  cases hrun : Run.run (budgetStep audioRing) { ring := freshRingBuffer audioRing } lastOfThree with
  | error e =>
    rw [hrun] at hok
    cases hok
  | ok b =>
    refine ⟨b,rfl,(nack_budget slowLink audioRing _).2 lastOfThree b (fun t ht => ?_) hrun⟩
    rcases List.mem_cons.mp ht with ht | ht
    · cases ht
    · cases List.mem_singleton.mp ht
      exact ⟨rfl,rfl,rfl⟩

end Whist.Ring
