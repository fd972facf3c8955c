import Whist.Foundation.Binary64

/-! # The network throttler

The coin bucket is a `size_t`.  Calls queue up by ticket and the first of them goes round its loop; a change of the bitrate
may come between two rounds.  The refill timer is an input.
-/
namespace Whist.Throttle

def sizeT (n : ℤ) : ℕ := (n % 18446744073709551616).toNat

def startingThrottlerBitrate : ℤ := 1000000

structure NetworkThrottleContext where
  coinBucketMs : Binary64
  fillBucketInitially : Bool
  coinBucketMax : ℕ
  coinBucket : ℕ
  burstBitrate : ℤ
  nextQueueId : ℕ := 0
  currentQueueId : ℕ := 0
  groupId : ℕ := 0
  destroying : Bool := false
  /-- The sizes asked for by the calls that wait, in the order of their tickets. -/
  waiting : List ℕ := []
  /-- Bytes granted since the last refill, and the largest bucket size since then. -/
  granted : ℕ := 0
  peak : ℕ

def coinBucketMaxFor (coinBucketMs : Binary64) (bitrate : ℤ) : ℕ :=
  sizeT ⌊((coinBucketMs / Binary64.nearest 1000) *
    (Binary64.nearest bitrate / Binary64.nearest 8)).val⌋

def networkThrottlerCreate (coinBucketMs : Binary64) (fillBucketInitially : Bool) :
    NetworkThrottleContext where
  coinBucketMs := coinBucketMs
  fillBucketInitially := fillBucketInitially
  coinBucketMax := coinBucketMaxFor coinBucketMs startingThrottlerBitrate
  coinBucket :=
    if fillBucketInitially then coinBucketMaxFor coinBucketMs startingThrottlerBitrate else 0
  burstBitrate := startingThrottlerBitrate
  peak := coinBucketMaxFor coinBucketMs startingThrottlerBitrate

/-- The difference of the sizes is added to the bucket; `max` compares unsigned numbers. -/
def setBurstBitrate (ctx : NetworkThrottleContext) (burstBitrate : ℤ) : NetworkThrottleContext :=
  let coinBucketMax := coinBucketMaxFor ctx.coinBucketMs burstBitrate
  { ctx with
    coinBucket :=
      if ctx.fillBucketInitially then
        max (sizeT (ctx.coinBucket + coinBucketMax - ctx.coinBucketMax)) 0
      else ctx.coinBucket
    burstBitrate := burstBitrate
    coinBucketMax := coinBucketMax
    peak := max ctx.peak coinBucketMax }

def enterQueue (ctx : NetworkThrottleContext) (bytes : ℕ) : NetworkThrottleContext :=
  if ctx.burstBitrate ≤ 0 ∨ ctx.destroying then ctx
  else { ctx with nextQueueId := ctx.nextQueueId + 1, waiting := ctx.waiting ++ [bytes] }

/-- The refill once the timer is over: an almost empty bucket keeps what is left. -/
def refill (udpPacketMaxSize : ℕ) (ctx : NetworkThrottleContext) : NetworkThrottleContext :=
  { ctx with
    coinBucket :=
      if ctx.coinBucket < udpPacketMaxSize then sizeT (ctx.coinBucket + ctx.coinBucketMax)
      else ctx.coinBucketMax
    groupId := ctx.groupId + 1
    granted := 0
    peak := ctx.coinBucketMax }

/-- One round of the loop for the call whose turn it is; `expired` is what the refill
timer says. -/
def waitRound (udpPacketMaxSize : ℕ) (ctx : NetworkThrottleContext) (expired : Bool) :
    NetworkThrottleContext :=
  match ctx.waiting with
  | [] => ctx
  | bytes :: rest =>
    let ctx := if expired then refill udpPacketMaxSize ctx else ctx
    if bytes > ctx.coinBucket then ctx
    else { ctx with
      coinBucket := ctx.coinBucket - bytes
      currentQueueId := ctx.currentQueueId + 1
      waiting := rest
      granted := ctx.granted + bytes }

inductive ThrottleEvent
  | setBurstBitrate (burstBitrate : ℤ)
  | enter (bytes : ℕ)
  | round (expired : Bool)

def throttleStep (udpPacketMaxSize : ℕ) (ctx : NetworkThrottleContext) :
    ThrottleEvent → NetworkThrottleContext
  | .setBurstBitrate burstBitrate => setBurstBitrate ctx burstBitrate
  | .enter bytes => enterQueue ctx bytes
  | .round expired => waitRound udpPacketMaxSize ctx expired

variable {udpPacketMaxSize : ℕ} {ctx : NetworkThrottleContext}

/-- The bucket holds at most one packet more than its size, and no more than that is
granted between two refills. -/
def BurstBounded (udpPacketMaxSize : ℕ) (ctx : NetworkThrottleContext) : Prop :=
  ctx.coinBucket ≤ ctx.coinBucketMax + udpPacketMaxSize ∧
    ctx.granted ≤ ctx.peak + udpPacketMaxSize

def StepAdmissible (udpPacketMaxSize : ℕ) (ctx : NetworkThrottleContext) : ThrottleEvent → Prop
  | .setBurstBitrate burstBitrate =>
    if ctx.fillBucketInitially then
      ctx.coinBucketMax ≤ ctx.coinBucket + coinBucketMaxFor ctx.coinBucketMs burstBitrate
    else
      ctx.coinBucket ≤ coinBucketMaxFor ctx.coinBucketMs burstBitrate + udpPacketMaxSize
  | .enter _ => True
  | .round _ => True

def RunAdmissible (udpPacketMaxSize : ℕ) : NetworkThrottleContext → List ThrottleEvent → Prop
  | _, [] => True
  | ctx, e :: events => StepAdmissible udpPacketMaxSize ctx e ∧
      RunAdmissible udpPacketMaxSize (throttleStep udpPacketMaxSize ctx e) events

structure CoinInvariant (udpPacketMaxSize : ℕ) (ctx : NetworkThrottleContext) : Prop where
  bucket : ctx.coinBucket ≤ ctx.coinBucketMax + udpPacketMaxSize
  peak : ctx.coinBucketMax ≤ ctx.peak
  adjusted : ctx.fillBucketInitially = true →
    ctx.granted + ctx.coinBucket ≤ ctx.coinBucketMax + udpPacketMaxSize
  fixed : ctx.granted + ctx.coinBucket ≤ ctx.peak + udpPacketMaxSize

theorem sizeT_of_nonneg {n : ℤ} (h : 0 ≤ n) : (sizeT n : ℤ) ≤ n := by
  unfold sizeT
  omega

theorem CoinInvariant.bounded (h : CoinInvariant udpPacketMaxSize ctx) :
    BurstBounded udpPacketMaxSize ctx := by
  have := h.fixed
  exact ⟨h.bucket,by omega⟩

theorem create_coinInvariant (coinBucketMs : Binary64) (fillBucketInitially : Bool) :
    CoinInvariant udpPacketMaxSize (networkThrottlerCreate coinBucketMs fillBucketInitially) := by
  unfold networkThrottlerCreate
  cases fillBucketInitially with
  | false => exact ⟨by simp,le_rfl,fun h => absurd h (by simp),by simp⟩
  | true => exact ⟨by simp,le_rfl,fun _ => by simp,by simp⟩

theorem setBurstBitrate_coinInvariant (h : CoinInvariant udpPacketMaxSize ctx) {burstBitrate : ℤ}
    (hadm : StepAdmissible udpPacketMaxSize ctx (.setBurstBitrate burstBitrate)) :
    CoinInvariant udpPacketMaxSize (setBurstBitrate ctx burstBitrate) := by
  obtain ⟨hbucket,hpeak,hadj,hfixed⟩ := h
  unfold StepAdmissible at hadm
  unfold setBurstBitrate
  dsimp only at hadm ⊢
  generalize coinBucketMaxFor ctx.coinBucketMs burstBitrate = newMax at hadm ⊢
  by_cases hfill : ctx.fillBucketInitially
  · rw [if_pos hfill] at hadm
    have hadj := hadj hfill
    have hcoins := sizeT_of_nonneg (n := ctx.coinBucket + newMax - ctx.coinBucketMax) (by omega)
    refine ⟨?_,le_max_right _ _,fun _ => ?_,?_⟩
    · dsimp only
      rw [if_pos hfill, Nat.max_zero]
      omega
    · dsimp only
      rw [if_pos hfill, Nat.max_zero]
      omega
    · dsimp only
      rw [if_pos hfill, Nat.max_zero]
      omega
  · rw [if_neg hfill] at hadm
    refine ⟨?_,le_max_right _ _,fun h => absurd h hfill,?_⟩
    · dsimp only
      rw [if_neg hfill]
      exact hadm
    · dsimp only
      rw [if_neg hfill]
      omega

theorem refill_coinInvariant (udpPacketMaxSize : ℕ) (ctx : NetworkThrottleContext) :
    CoinInvariant udpPacketMaxSize (refill udpPacketMaxSize ctx) := by
  have hcoins := sizeT_of_nonneg (n := ctx.coinBucket + ctx.coinBucketMax) (by omega)
  have hle : (refill udpPacketMaxSize ctx).coinBucket ≤ ctx.coinBucketMax + udpPacketMaxSize := by
    unfold refill
    dsimp only
    split_ifs <;> omega
  refine ⟨hle,le_rfl,fun _ => ?_,?_⟩
  · exact (Nat.zero_add _).trans_le hle
  · exact (Nat.zero_add _).trans_le hle

theorem waitRound_coinInvariant (h : CoinInvariant udpPacketMaxSize ctx) (expired : Bool) :
    CoinInvariant udpPacketMaxSize (waitRound udpPacketMaxSize ctx expired) := by
  unfold waitRound
  cases ctx.waiting with
  | nil => exact h
  | cons bytes rest =>
    have hfill : CoinInvariant udpPacketMaxSize
        (if expired then refill udpPacketMaxSize ctx else ctx) := by
      split_ifs
      · exact refill_coinInvariant _ _
      · exact h
    dsimp only
    generalize (if expired then refill udpPacketMaxSize ctx else ctx) = ctx' at hfill ⊢
    by_cases hbytes : bytes > ctx'.coinBucket
    · rw [if_pos hbytes]
      exact hfill
    · rw [if_neg hbytes]
      obtain ⟨hbucket,hpeak,hadj,hfixed⟩ := hfill
      refine ⟨?_,hpeak,fun hf => ?_,?_⟩
      · dsimp only
        omega
      · have := hadj hf
        dsimp only
        omega
      · dsimp only
        omega

theorem throttleStep_coinInvariant (h : CoinInvariant udpPacketMaxSize ctx) {e : ThrottleEvent}
    (hadm : StepAdmissible udpPacketMaxSize ctx e) :
    CoinInvariant udpPacketMaxSize (throttleStep udpPacketMaxSize ctx e) := by
  cases e with
  | setBurstBitrate burstBitrate => exact setBurstBitrate_coinInvariant h hadm
  | enter bytes =>
    unfold throttleStep enterQueue
    dsimp only
    split_ifs
    · exact h
    · exact ⟨h.bucket,h.peak,h.adjusted,h.fixed⟩
  | round expired => exact waitRound_coinInvariant h expired

theorem run_coinInvariant (h : CoinInvariant udpPacketMaxSize ctx) {events : List ThrottleEvent}
    (hadm : RunAdmissible udpPacketMaxSize ctx events) :
    CoinInvariant udpPacketMaxSize (events.foldl (throttleStep udpPacketMaxSize) ctx) := by
  induction events generalizing ctx with
  | nil => exact h
  | cons e events ih => exact ih (throttleStep_coinInvariant h hadm.1) hadm.2

theorem RunAdmissible.of_append {pre post : List ThrottleEvent}
    (h : RunAdmissible udpPacketMaxSize ctx (pre ++ post)) : RunAdmissible udpPacketMaxSize ctx pre := by
  induction pre generalizing ctx with
  | nil => trivial
  | cons e pre ih => exact ⟨h.1,ih h.2⟩

end Whist.Throttle
