import Whist.Network.Throttle

/-! # The wait of the throttler -/
namespace Whist.Throttle

variable {udpPacketMaxSize : ℕ} {ctx : NetworkThrottleContext} {bytes : ℕ} {rest : List ℕ}

/-- The call in front of the queue leaves its loop once there were enough refills, whenever the
timer is over. -/
def Exits (udpPacketMaxSize : ℕ) (ctx : NetworkThrottleContext) : Prop :=
  ∃ n, ∀ rounds : List Bool, n ≤ rounds.count true →
    ctx.currentQueueId < (rounds.foldl (waitRound udpPacketMaxSize) ctx).currentQueueId

def refilled (udpPacketMaxSize coinBucketMax coinBucket : ℕ) : ℕ :=
  if coinBucket < udpPacketMaxSize then sizeT (coinBucket + coinBucketMax) else coinBucketMax

theorem refill_coinBucket (udpPacketMaxSize : ℕ) (ctx : NetworkThrottleContext) :
    (refill udpPacketMaxSize ctx).coinBucket = refilled udpPacketMaxSize ctx.coinBucketMax ctx.coinBucket := rfl

theorem waitRound_granted {expired : Bool} (hwait : ctx.waiting = bytes :: rest)
    (h : bytes ≤ (if expired then refill udpPacketMaxSize ctx else ctx).coinBucket) :
    (waitRound udpPacketMaxSize ctx expired).currentQueueId = ctx.currentQueueId + 1 := by
  unfold waitRound
  rw [hwait]
  dsimp only
  rw [if_neg (not_lt.mpr h)]
  cases expired <;> rfl

theorem waitRound_blocked {expired : Bool} (hwait : ctx.waiting = bytes :: rest)
    (h : (if expired then refill udpPacketMaxSize ctx else ctx).coinBucket < bytes) :
    waitRound udpPacketMaxSize ctx expired = if expired then refill udpPacketMaxSize ctx else ctx := by
  unfold waitRound
  rw [hwait]
  dsimp only
  rw [if_pos h]

theorem waitRound_currentQueueId (udpPacketMaxSize : ℕ) (ctx : NetworkThrottleContext) (expired : Bool) :
    ctx.currentQueueId ≤ (waitRound udpPacketMaxSize ctx expired).currentQueueId := by
  unfold waitRound
  cases ctx.waiting with
  | nil => exact le_rfl
  | cons bytes rest =>
    have hsame : (if expired then refill udpPacketMaxSize ctx else ctx).currentQueueId = ctx.currentQueueId := by
      cases expired <;> rfl
    dsimp only
    generalize (if expired then refill udpPacketMaxSize ctx else ctx) = ctx' at hsame ⊢
    by_cases hbytes : bytes > ctx'.coinBucket
    · rw [if_pos hbytes]
      exact hsame.ge
    · rw [if_neg hbytes]
      dsimp only
      omega

theorem rounds_currentQueueId (udpPacketMaxSize : ℕ) (ctx : NetworkThrottleContext) (rounds : List Bool) :
    ctx.currentQueueId ≤ (rounds.foldl (waitRound udpPacketMaxSize) ctx).currentQueueId := by
  induction rounds generalizing ctx with
  | nil => exact le_rfl
  | cons expired rounds ih => exact (waitRound_currentQueueId udpPacketMaxSize ctx expired).trans (ih _)

theorem granted_of_measure {coinBucketMax : ℕ} (μ : ℕ → ℕ)
    (hμ : ∀ b, refilled udpPacketMaxSize coinBucketMax b < bytes →
      μ (refilled udpPacketMaxSize coinBucketMax b) < μ b) (rounds : List Bool)
    {ctx : NetworkThrottleContext} (hwait : ctx.waiting = bytes :: rest)
    (hmax : ctx.coinBucketMax = coinBucketMax) (hcount : μ ctx.coinBucket < rounds.count true) :
    ctx.currentQueueId < (rounds.foldl (waitRound udpPacketMaxSize) ctx).currentQueueId := by
  induction rounds generalizing ctx with
  | nil => cases hcount
  | cons expired rounds ih =>
    rw [List.foldl_cons]
    by_cases henough : bytes ≤ (if expired then refill udpPacketMaxSize ctx else ctx).coinBucket
    · have hgranted := waitRound_granted hwait henough
      have hle := rounds_currentQueueId udpPacketMaxSize (waitRound udpPacketMaxSize ctx expired) rounds
      omega
    · have hblocked := not_le.mp henough
      rw [waitRound_blocked hwait hblocked]
      cases expired with
      | false => exact ih hwait hmax (by simpa using hcount)
      | true =>
        have hless : μ (refill udpPacketMaxSize ctx).coinBucket < μ ctx.coinBucket := by
          rw [refill_coinBucket, hmax]
          apply hμ
          rw [← hmax]
          exact hblocked
        have hnext := @ih (refill udpPacketMaxSize ctx) hwait hmax (by
          rw [List.count_cons_self] at hcount
          omega)
        exact hnext

theorem exits_of_bucket (hudp : udpPacketMaxSize ≤ 2 ^ 63) (hwait : ctx.waiting = bytes :: rest)
    (hbytes : bytes ≤ udpPacketMaxSize) (hpos : ctx.coinBucketMax ≠ 0) (hsize : ctx.coinBucketMax < 2 ^ 64) :
    Exits udpPacketMaxSize ctx := by
  by_cases hsmall : ctx.coinBucketMax < 2 ^ 63
  · -- the coins that are missing for one packet
    let μ : ℕ → ℕ := fun b => if b < udpPacketMaxSize then udpPacketMaxSize - b else udpPacketMaxSize + 1
    refine ⟨μ ctx.coinBucket + 1,fun rounds hcount => granted_of_measure μ ?_ rounds hwait rfl hcount⟩
    intro b hb
    dsimp only [μ]
    by_cases hlow : b < udpPacketMaxSize
    · have hnext : refilled udpPacketMaxSize ctx.coinBucketMax b = b + ctx.coinBucketMax := by
        unfold refilled sizeT
        rw [if_pos hlow]
        omega
      rw [hnext] at hb ⊢
      rw [if_pos hlow, if_pos (by omega)]
      omega
    · have hnext : refilled udpPacketMaxSize ctx.coinBucketMax b = ctx.coinBucketMax := if_neg hlow
      rw [hnext] at hb ⊢
      rw [if_neg hlow, if_pos (by omega)]
      omega
  · -- a refill takes coins away until the number wraps around
    refine ⟨ctx.coinBucket + 1,fun rounds hcount => granted_of_measure id ?_ rounds hwait rfl hcount⟩
    intro b hb
    by_cases hlow : b < udpPacketMaxSize
    · have hnext : refilled udpPacketMaxSize ctx.coinBucketMax b = (b + ctx.coinBucketMax) % 2 ^ 64 := by
        unfold refilled sizeT
        rw [if_pos hlow]
        omega
      rw [hnext] at hb ⊢
      dsimp only [id]
      omega
    · have hnext : refilled udpPacketMaxSize ctx.coinBucketMax b = ctx.coinBucketMax := if_neg hlow
      rw [hnext] at hb
      omega

theorem stuck_rounds (rounds : List Bool) {ctx : NetworkThrottleContext} (hwait : ctx.waiting = bytes :: rest)
    (hmax : ctx.coinBucketMax = 0) (hlow : ctx.coinBucket < udpPacketMaxSize) (hblocked : ctx.coinBucket < bytes)
    (hsize : ctx.coinBucket < 2 ^ 64) :
    (rounds.foldl (waitRound udpPacketMaxSize) ctx).currentQueueId = ctx.currentQueueId := by
  induction rounds generalizing ctx with
  | nil => rfl
  | cons expired rounds ih =>
    rw [List.foldl_cons]
    have hsame : (refill udpPacketMaxSize ctx).coinBucket = ctx.coinBucket := by
      rw [refill_coinBucket, hmax]
      unfold refilled sizeT
      rw [if_pos hlow]
      omega
    cases expired with
    | false =>
      rw [@waitRound_blocked _ _ _ _ false hwait hblocked]
      exact ih hwait hmax hlow hblocked hsize
    | true =>
      rw [@waitRound_blocked _ _ _ _ true hwait (hsame.trans_lt hblocked)]
      exact @ih (refill udpPacketMaxSize ctx) hwait hmax (hsame.trans_lt hlow) (hsame.trans_lt hblocked)
        (hsame.trans_lt hsize)

theorem not_exits_of_empty (hwait : ctx.waiting = bytes :: rest) (hudp : udpPacketMaxSize ≤ 2 ^ 63)
    (hbytes : bytes ≤ udpPacketMaxSize) (hmax : ctx.coinBucketMax = 0) (hpos : bytes ≠ 0)
    (h : ¬(bytes ≤ ctx.coinBucket ∧ ctx.coinBucket < udpPacketMaxSize)) : ¬Exits udpPacketMaxSize ctx := by
  rintro ⟨n,hn⟩
  by_cases hlow : ctx.coinBucket < udpPacketMaxSize
  · have hstuck := stuck_rounds (List.replicate n true) hwait hmax hlow (by omega) (by omega)
    have hgranted := hn (List.replicate n true) (by simp)
    omega
  · -- the first refill empties the bucket
    have hempty : (refill udpPacketMaxSize ctx).coinBucket = 0 := by
      rw [refill_coinBucket, hmax]
      exact if_neg hlow
    have hround : waitRound udpPacketMaxSize ctx true = refill udpPacketMaxSize ctx :=
      @waitRound_blocked _ _ _ _ true hwait (by rw [if_pos rfl, hempty]; omega)
    have hstuck := @stuck_rounds udpPacketMaxSize bytes rest (List.replicate n true)
      (refill udpPacketMaxSize ctx) hwait hmax (by omega) (by omega) (by omega)
    have hgranted := hn (true :: List.replicate n true) (by simp)
    rw [List.foldl_cons, hround, hstuck] at hgranted
    exact lt_irrefl _ hgranted

theorem exits_of_low (hwait : ctx.waiting = bytes :: rest) (hudp : udpPacketMaxSize ≤ 2 ^ 63)
    (hmax : ctx.coinBucketMax = 0)
    (h : bytes = 0 ∨ bytes ≤ ctx.coinBucket ∧ ctx.coinBucket < udpPacketMaxSize) :
    Exits udpPacketMaxSize ctx := by
  refine ⟨1,fun rounds hcount => ?_⟩
  cases rounds with
  | nil => cases hcount
  | cons expired rounds =>
    have henough : bytes ≤ (if expired then refill udpPacketMaxSize ctx else ctx).coinBucket := by
      rcases h with rfl | ⟨hbytes,hlow⟩
      · exact Nat.zero_le _
      · cases expired with
        | false => exact hbytes
        | true =>
          rw [if_pos rfl, refill_coinBucket, hmax]
          unfold refilled sizeT
          rw [if_pos hlow]
          omega
    have hgranted := waitRound_granted hwait henough
    have hle := rounds_currentQueueId udpPacketMaxSize (waitRound udpPacketMaxSize ctx expired) rounds
    rw [List.foldl_cons]
    omega

/-- The bitrate fills at least one byte into each bucket, or nothing is missing. -/
def Refillable (udpPacketMaxSize : ℕ) (ctx : NetworkThrottleContext) (burstBitrate : ℤ) (bytes : ℕ) : Prop :=
  coinBucketMaxFor ctx.coinBucketMs burstBitrate ≠ 0 ∨ bytes = 0 ∨
    bytes ≤ (setBurstBitrate ctx burstBitrate).coinBucket ∧
      (setBurstBitrate ctx burstBitrate).coinBucket < udpPacketMaxSize

theorem coinBucketMaxFor_lt (coinBucketMs : Binary64) (bitrate : ℤ) :
    coinBucketMaxFor coinBucketMs bitrate < 2 ^ 64 := by
  unfold coinBucketMaxFor sizeT
  omega

/-- With a bitrate set, the call in front of the queue gets its bytes after finitely many refills
exactly if the bucket can be refilled.  A packet is no larger than an object can be. -/
theorem wait_exits_iff (udpPacketMaxSize : ℕ) (hudp : udpPacketMaxSize ≤ 2 ^ 63) (ctx : NetworkThrottleContext)
    (burstBitrate : ℤ) (bytes : ℕ) (rest : List ℕ) (hwait : ctx.waiting = bytes :: rest)
    (hbytes : bytes ≤ udpPacketMaxSize) :
    Exits udpPacketMaxSize (setBurstBitrate ctx burstBitrate) ↔
      Refillable udpPacketMaxSize ctx burstBitrate bytes := by
  have hwait' : (setBurstBitrate ctx burstBitrate).waiting = bytes :: rest := hwait
  have hmax : (setBurstBitrate ctx burstBitrate).coinBucketMax =
      coinBucketMaxFor ctx.coinBucketMs burstBitrate := rfl
  unfold Refillable
  by_cases hzero : coinBucketMaxFor ctx.coinBucketMs burstBitrate = 0
  · constructor
    · intro hexits
      right
      by_contra hnot
      push Not at hnot
      exact not_exits_of_empty hwait' hudp hbytes (hmax.trans hzero) hnot.1
        (fun h => absurd h.2 (not_lt.mpr (hnot.2 h.1))) hexits
    · intro h
      exact exits_of_low hwait' hudp (hmax.trans hzero) (h.resolve_left (not_not.mpr hzero))
  · have hexits := exits_of_bucket hudp hwait' hbytes (by rw [hmax]; exact hzero)
      (by rw [hmax]; exact coinBucketMaxFor_lt _ _)
    exact ⟨fun _ => Or.inl hzero,fun _ => hexits⟩

def onePacket : NetworkThrottleContext := enterQueue (networkThrottlerCreate (Binary64.nearest 5) true) 600

theorem wait_exits_iff_fast : Exits 1376 (setBurstBitrate onePacket 8000) ↔
    Refillable 1376 onePacket 8000 600 := by
  have hwait : onePacket.waiting = [600] := by decide +kernel
  exact wait_exits_iff 1376 (by norm_num) onePacket 8000 600 [] hwait (by norm_num)

/-- At a thousand bits a second the bucket holds less than one byte. -/
theorem wait_exits_fails :
    ¬∀ (udpPacketMaxSize : ℕ) (ctx : NetworkThrottleContext) (burstBitrate : ℤ) (bytes : ℕ) (rest : List ℕ),
      udpPacketMaxSize ≤ 2 ^ 63 → 0 < burstBitrate → ctx.waiting = bytes :: rest → bytes ≤ udpPacketMaxSize →
      Exits udpPacketMaxSize (setBurstBitrate ctx burstBitrate) := by
  intro h
  have hwait : onePacket.waiting = [600] := by decide +kernel
  have hstate : (setBurstBitrate onePacket 1000).coinBucketMax = 0 ∧
      (setBurstBitrate onePacket 1000).coinBucket = 0 := by decide +kernel
  exact @not_exits_of_empty _ (setBurstBitrate onePacket 1000) _ _ hwait (by norm_num) (by norm_num) hstate.1
    (by norm_num) (by rw [hstate.2]; norm_num)
    (h 1376 onePacket 1000 600 [] (by norm_num) (by norm_num) hwait (by norm_num))

end Whist.Throttle
