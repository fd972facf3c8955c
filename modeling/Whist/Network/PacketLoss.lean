import Whist.Foundation.Binary64
import Whist.Network.RingLedger
import Whist.Network.RingSafety

/-! # The packet loss ratio -/
namespace Whist.Ring
open Fec (maxPacketSegmentSize)
open Udp (WhistSegment)

def lossMaxFps : ℤ := 60

/-- What the clocks decide: frames that are too old, and nacks that may still be answered. -/
structure LossTiming where
  tooOld : ℤ → Bool
  inFlight : ℤ → ℕ → Bool

def indexNacksSent (t : LossTiming) (f : FrameData) (i : ℕ) : ℕ :=
  if f.numTimesIndexNacked i ≠ 0 then f.numTimesIndexNacked i - if t.inFlight f.id i then 1 else 0 else 0

def nacksSent (t : LossTiming) (f : FrameData) : ℕ :=
  max ((List.range (f.numOriginalPackets + f.numFecPackets)).map (indexNacksSent t f)).sum f.nackPacketsReceived

def countFrame (c : RingConfig) (t : LossTiming) (r : RingBuffer) (n : ℕ × ℕ) (id : ℤ) : ℕ × ℕ :=
  let f := r.receivingFrames (c.slot id)
  if id ≠ f.id ∨ t.tooOld id then n
  else
    let sent := n.2 + f.numOriginalPackets + f.numFecPackets + nacksSent t f
    let received := n.1 + f.originalPacketsReceived + f.fecPacketsReceived + f.unnecessaryNackPacketsReceived
    let next := r.receivingFrames (c.slot (id + 1))
    if id + 1 = next.id then
      (received + f.duplicatePacketsReceived,sent + next.prevFrameNumDuplicatePackets)
    else (received,sent)

/-- The frame with the greatest ID is left out, it may be in progress. -/
def countPackets (c : RingConfig) (t : LossTiming) (r : RingBuffer) : ℕ × ℕ :=
  (ids (max (max (r.maxId - lossMaxFps) r.minId) 0) (r.maxId - 1)).foldl (countFrame c t r) (0,0)

def lossRatio (received sent : ℕ) : ℚ :=
  if sent > 0 ∧ received > 0 then
    (Binary64.nearest ((sent : ℤ) - received : ℤ) / Binary64.nearest (sent : ℤ)).val
  else 0

def getPacketLossRatio (c : RingConfig) (t : LossTiming) (r : RingBuffer) : ℚ :=
  lossRatio (countPackets c t r).1 (countPackets c t r).2

theorem nearest_int {n : ℤ} (h0 : 0 ≤ n) (h : n < 2 ^ 31) : (Binary64.nearest n).val = n := by
  apply Binary64.round_intCast
  rw [abs_of_nonneg h0]
  omega

theorem lossRatio_bounds {received sent : ℕ} (h : received ≤ sent) (hsent : sent < 2 ^ 31) :
    0 ≤ lossRatio received sent ∧ lossRatio received sent < 1 := by
  unfold lossRatio
  split_ifs with hpos
  · have hnum := nearest_int (n := (sent : ℤ) - received) (by omega) (by omega)
    have hden := nearest_int (n := (sent : ℤ)) (by omega) (by omega)
    rw [Binary64.div_val, hnum, hden]
    have hsent' : (0 : ℚ) < (sent : ℤ) := by exact_mod_cast hpos.1
    have hquot : (0 : ℚ) ≤ (((sent : ℤ) - received : ℤ) : ℚ) / (sent : ℤ) :=
      div_nonneg (by exact_mod_cast (by omega : (0 : ℤ) ≤ (sent : ℤ) - received)) hsent'.le
    have hle : (((sent : ℤ) - received : ℤ) : ℚ) / (sent : ℤ) ≤ (2147483647 : ℤ) * 2 ^ (-31 : ℤ) := by
      rw [div_le_iff₀ hsent']
      have hone : (((sent : ℤ) - received : ℤ) : ℚ) ≤ (sent : ℤ) - 1 := by
        exact_mod_cast (by omega : (sent : ℤ) - received ≤ sent - 1)
      have hmax : ((sent : ℤ) : ℚ) ≤ 2147483648 := by exact_mod_cast (by omega : (sent : ℤ) ≤ 2147483648)
      have hfactor : ((2147483647 : ℤ) : ℚ) * 2 ^ (-31 : ℤ) = 1 - 1 / 2147483648 := by norm_num
      rw [hfactor, sub_mul, one_mul]
      linarith
    have hexact : Binary64.round ((2147483647 : ℤ) * 2 ^ (-31 : ℤ)) = (2147483647 : ℤ) * 2 ^ (-31 : ℤ) :=
      Binary64.round_eq_self rfl (by norm_num) (by norm_num)
    refine ⟨Binary64.round_nonneg hquot,(Binary64.round_le_of_le hquot hle hexact).trans_lt ?_⟩
    norm_num
  · exact ⟨le_rfl,one_pos⟩

def arrival (id : ℤ) : RecoveryCall → Option ℕ
  | .ring (.receive s) => if s.id = id ∧ s.isANack = false then some s.index else none
  | _ => none

def arrivals (calls : List RecoveryCall) (id : ℤ) : List ℕ := calls.filterMap (arrival id)

/-- The frames of the plan, each index once and the duplicates, which the next frame announces.
The network loses and reorders packets.  Nothing is asked of the answers to nacks. -/
structure ServerSends (p : FramePlan) (duplicates : ℤ → List ℕ) (calls : List RecoveryCall) : Prop where
  wellFormed : ∀ s, .ring (.receive s) ∈ calls → WellFormed p s
  announced : ∀ s, .ring (.receive s) ∈ calls → s.prevFrameNumDuplicates = (duplicates (s.id - 1)).length
  arrivals : ∀ id, (arrivals calls id).Subperm (List.range (p.numIndices id) ++ duplicates id)

theorem ServerSends.length_le {p : FramePlan} {duplicates : ℤ → List ℕ} {calls : List RecoveryCall}
    (h : ServerSends p duplicates calls) (id : ℤ) :
    (Ring.arrivals calls id).length ≤ p.numIndices id + (duplicates id).length := by
  have hlen := (h.arrivals id).length_le
  rwa [List.length_append, List.length_range] at hlen

theorem arrivals_append (calls : List RecoveryCall) (call : RecoveryCall) (id : ℤ) :
    (arrivals (calls ++ [call]) id).length = (arrivals calls id).length + (arrival id call).toList.length := by
  unfold arrivals
  rw [List.filterMap_append, List.length_append]
  cases h : arrival id call with
  | none => rw [List.filterMap_cons_none h]; rfl
  | some index => rw [List.filterMap_cons_some h]; rfl

variable {c : RingConfig} {p : FramePlan} {duplicates : ℤ → List ℕ} {calls : List RecoveryCall} {f : FrameData}

def FrameData.received (f : FrameData) : Finset ℕ :=
  (Finset.range (f.numOriginalPackets + f.numFecPackets)).filter fun i => f.receivedIndices i = true

structure FrameData.Empty (f : FrameData) : Prop where
  id : f.id ≤ 0
  original : f.originalPacketsReceived = 0
  fec : f.fecPacketsReceived = 0
  duplicate : f.duplicatePacketsReceived = 0
  nack : f.unnecessaryNackPacketsReceived = 0

structure FrameCounted (p : FramePlan) (duplicates : ℤ → List ℕ) (calls : List RecoveryCall) (f : FrameData) :
    Prop where
  id : 1 ≤ f.id
  numIndices : f.numOriginalPackets + f.numFecPackets = p.numIndices f.id
  announced : f.prevFrameNumDuplicatePackets = (duplicates (f.id - 1)).length
  distinct : f.originalPacketsReceived + f.fecPacketsReceived = f.received.card
  unnecessary : f.unnecessaryNackPacketsReceived ≤ f.nackPacketsReceived
  total : f.originalPacketsReceived + f.fecPacketsReceived + f.duplicatePacketsReceived +
    f.unnecessaryNackPacketsReceived ≤ (arrivals calls f.id).length + f.nackPacketsReceived

theorem received_marked {index : ℕ} (hindex : index < f.numOriginalPackets + f.numFecPackets)
    (hnew : f.receivedIndices index = false) : (f.marked index).received.card = f.received.card + 1 := by
  have hinsert : (f.marked index).received = insert index f.received := by
    unfold FrameData.received FrameData.marked
    ext k
    rw [Finset.mem_filter, Finset.mem_insert, Finset.mem_filter]
    by_cases hk : k = index
    · simp [hk, hindex]
    · simp [hk]
  rw [hinsert, Finset.card_insert_of_notMem (by simp [FrameData.received, hnew])]

theorem FrameCounted.received_le (h : FrameCounted p duplicates calls f) :
    f.originalPacketsReceived + f.fecPacketsReceived ≤ f.numOriginalPackets + f.numFecPackets := by
  rw [h.distinct]
  exact (Finset.card_filter_le _ _).trans (Finset.card_range _).le

theorem FrameCounted.later (h : FrameCounted p duplicates calls f) (call : RecoveryCall) :
    FrameCounted p duplicates (calls ++ [call]) f := by
  refine ⟨h.id,h.numIndices,h.announced,h.distinct,h.unnecessary,h.total.trans ?_⟩
  rw [arrivals_append]
  omega

theorem counted_fields (f : FrameData) (s : WhistSegment) :
    f.counted s = { f with
      nackPacketsReceived := f.nackPacketsReceived + if s.isANack then 1 else 0
      unnecessaryNackPacketsReceived := f.unnecessaryNackPacketsReceived +
        if s.isANack ∧ s.whistType = .video ∧ f.receivedIndices s.index then 1 else 0 } := by
  unfold FrameData.counted
  cases s.isANack <;> simp

theorem FrameCounted.arrived {s : WhistSegment} (h : FrameCounted p duplicates calls f) (hid : f.id = s.id)
    (hindex : s.index < f.numOriginalPackets + f.numFecPackets) :
    FrameCounted p duplicates (calls ++ [.ring (.receive s)]) (f.arrived s) := by
  have hmore : (arrivals (calls ++ [.ring (.receive s)]) f.id).length =
      (arrivals calls f.id).length + if s.isANack then 0 else 1 := by
    rw [arrivals_append]
    unfold arrival
    cases hnack : s.isANack <;> simp [hid, hnack]
  have hunnecessary := h.unnecessary
  have htotal := h.total
  unfold FrameData.arrived
  rw [counted_fields]
  by_cases hreceived : f.receivedIndices s.index = true
  · rw [if_pos hreceived]
    by_cases hnack : s.isANack = true
    · rw [if_pos hnack]
      rw [if_pos hnack] at hmore
      refine ⟨h.id,h.numIndices,h.announced,h.distinct,?_,?_⟩
      · dsimp only
        rw [if_pos hnack]
        split_ifs <;> omega
      · dsimp only
        rw [hmore, if_pos hnack]
        split_ifs <;> omega
    · rw [if_neg hnack]
      rw [if_neg hnack] at hmore
      refine ⟨h.id,h.numIndices,h.announced,h.distinct,?_,?_⟩
      · unfold FrameData.duplicated
        dsimp only
        rw [if_neg fun hall => hnack hall.1]
        omega
      · unfold FrameData.duplicated
        dsimp only
        rw [hmore, if_neg fun hall => hnack hall.1]
        omega
  · rw [if_neg hreceived]
    have hcard := received_marked hindex (Bool.eq_false_iff.mpr hreceived)
    have hdistinct := h.distinct
    have hone : (if s.index < f.numOriginalPackets then 1 else 0) + (if s.index < f.numOriginalPackets then 0 else 1) =
        1 := by split_ifs <;> rfl
    have hno : ¬(s.isANack = true ∧ s.whistType = .video ∧ f.receivedIndices s.index = true) := fun hall =>
      hreceived hall.2.2
    rw [if_neg hno]
    refine ⟨h.id,h.numIndices,h.announced,?_,?_,?_⟩
    · show _ = (f.marked s.index).received.card
      rw [hcard, ← hdistinct]
      unfold FrameData.marked
      dsimp only
      omega
    · unfold FrameData.marked
      dsimp only
      omega
    · unfold FrameData.marked
      dsimp only
      rw [hmore]
      split_ifs at hone ⊢ <;> omega

def AccountOk (p : FramePlan) (duplicates : ℤ → List ℕ) (calls : List RecoveryCall) (f : FrameData) : Prop :=
  f.Empty ∨ FrameCounted p duplicates calls f

theorem frameCounted_opened {s : WhistSegment} (old : FrameData) (hs : WellFormed p s)
    (hfec : s.numFecIndices < s.numIndices)
    (hannounced : s.prevFrameNumDuplicates = (duplicates (s.id - 1)).length) :
    FrameCounted p duplicates calls (old.opened s) where
  id := hs.id
  numIndices := by
    show s.numIndices - s.numFecIndices + s.numFecIndices = _
    rw [Nat.sub_add_cancel hfec.le]
    exact hs.numIndices
  announced := hannounced
  distinct := by
    show 0 = (Finset.filter (fun _ => false = true) _).card
    simp
  unnecessary := le_refl 0
  total := Nat.zero_le _

def LedgerCounted (p : FramePlan) (duplicates : ℤ → List ℕ) (calls : List RecoveryCall) (l : Ledger) : Prop :=
  ∀ i, AccountOk p duplicates calls (l.accounts i)

variable {l l' : Ledger}

theorem empty_wiped : ({} : FrameData).Empty := ⟨le_rfl,rfl,rfl,rfl,rfl⟩

theorem LedgerCounted.later (h : LedgerCounted p duplicates calls l) (call : RecoveryCall) :
    LedgerCounted p duplicates (calls ++ [call]) l := fun i => (h i).imp_right fun hi => hi.later call

theorem LedgerCounted.setAccount (h : LedgerCounted p duplicates calls l) (i : ℕ)
    (hf : AccountOk p duplicates calls f) : LedgerCounted p duplicates calls (l.setAccount i f) := by
  intro j
  by_cases hj : j = i
  · rw [hj, setAccount_account_self]
    exact hf
  · rw [setAccount_account_of_ne l f hj]
    exact h j

theorem LedgerCounted.wiped (h : LedgerCounted p duplicates calls l) (c : RingConfig) :
    LedgerCounted p duplicates calls (l.wiped c) := by
  intro i
  unfold Ledger.wiped
  dsimp only
  split_ifs
  · exact Or.inl empty_wiped
  · exact h i

theorem LedgerCounted.receives {s : WhistSegment} (h : LedgerCounted p duplicates calls l) (hs : WellFormed p s)
    (hfec : s.numFecIndices < s.numIndices)
    (hannounced : s.prevFrameNumDuplicates = (duplicates (s.id - 1)).length) (hreceives : Receives c s l l') :
    LedgerCounted p duplicates (calls ++ [.ring (.receive s)]) l' := by
  have hlater := h.later (.ring (.receive s))
  cases hreceives with
  | stale => exact hlater
  | dropped => exact hlater.wiped c
  | arrives hid htotal =>
    apply hlater.setAccount
    right
    have hframe : FrameCounted p duplicates calls (l.accounts (c.slot s.id)) := by
      apply (h _).resolve_left
      intro hempty
      have hpos := hs.id
      have := hempty.id
      omega
    exact hframe.arrived hid (htotal ▸ hs.index)
  | opens l₁ hroom =>
    have hl₁ : LedgerCounted p duplicates (calls ++ [.ring (.receive s)]) l₁ := by
      rcases hroom with rfl | rfl
      · exact hlater
      · exact hlater.wiped c
    have hopened : FrameCounted p duplicates calls ((l₁.accounts (c.slot s.id)).opened s) :=
      frameCounted_opened _ hs hfec hannounced
    have hindex : s.index < ((l₁.accounts (c.slot s.id)).opened s).numOriginalPackets +
        ((l₁.accounts (c.slot s.id)).opened s).numFecPackets := by
      show s.index < s.numIndices - s.numFecIndices + s.numFecIndices
      rw [Nat.sub_add_cancel hfec.le]
      exact hs.index
    exact hl₁.setAccount _ (Or.inr (hopened.arrived rfl hindex))

theorem LedgerCounted.nackRun {t : NackTiming} {es : List (ℤ × ℤ)} (h : LedgerCounted p duplicates calls l)
    (hrun : NackRun c t l es l') : LedgerCounted p duplicates calls l' := by
  induction hrun with
  | nil => exact h
  | cons hnack _ ih =>
    apply ih
    intro i
    cases hnack with
    | frame id hdue =>
      by_cases hi : i = c.slot id
      · rw [hi, nack_account_self]
        exact (h (c.slot id)).imp (fun he => ⟨he.id,he.original,he.fec,he.duplicate,he.nack⟩)
          fun hf => ⟨hf.id,hf.numIndices,hf.announced,hf.distinct,hf.unnecessary,hf.total⟩
      · rw [nack_account_of_ne _ _ _ hi]
        exact h i
    | index id j hdue =>
      by_cases hi : i = c.slot id
      · rw [hi, nack_account_self]
        exact (h (c.slot id)).imp (fun he => ⟨he.id,he.original,he.fec,he.duplicate,he.nack⟩)
          fun hf => ⟨hf.id,hf.numIndices,hf.announced,hf.distinct,hf.unnecessary,hf.total⟩
      · rw [nack_account_of_ne _ _ _ hi]
        exact h i

variable {r r' : RingBuffer}

theorem LedgerCounted.step {call : RecoveryCall} (h : LedgerCounted p duplicates calls r.ledger)
    (hs : ∀ s, call = .ring (.receive s) → WellFormed p s ∧ s.prevFrameNumDuplicates = (duplicates (s.id - 1)).length)
    (hstep : recoveryStep c r call = .ok r') : LedgerCounted p duplicates (calls ++ [call]) r'.ledger := by
  cases call with
  | ring call =>
    rcases ringStep_ledger hstep with hledger | ⟨s,rfl,hindex,hfec,hreceives⟩
    · rw [hledger]
      exact h.later _
    · exact h.receives (hs s rfl).1 hfec (hs s rfl).2 hreceives
  | recover t =>
    rcases tryRecovering_ledger hstep with ⟨-,hledger⟩ | ⟨-,es,n,hnacked⟩
    · rw [hledger]
      exact h.later _
    · obtain ⟨l₁,hrun,hl₁⟩ := hnacked.run
      have hstart : LedgerCounted p duplicates (calls ++ [.recover t]) (r.ledger.startIntervals t) := h.later _
      have hend := hstart.nackRun hrun
      rw [hl₁]
      exact hend

theorem ledgerCounted_run (hinit : initRingBuffer c = .ok r) (hsends : ServerSends p duplicates calls)
    (hrun : Run.run (recoveryStep c) r calls = .ok r') : LedgerCounted p duplicates calls r'.ledger := by
  have hstart : LedgerCounted p duplicates [] r.ledger := by
    unfold initRingBuffer at hinit
    split_ifs at hinit
    rw [resetRingBuffer_ledger hinit]
    have hfresh : LedgerCounted p duplicates [] (freshRingBuffer c).ledger := fun _ =>
      Or.inl ⟨(by decide : (-1 : ℤ) ≤ 0),rfl,rfl,rfl,rfl⟩
    exact hfresh.wiped c
  have hall := @Run.run_ok_or_fails _ _ _ (recoveryStep c)
    (fun calls r => LedgerCounted p duplicates calls r.ledger) calls _ hstart
    (fun pre call post s t has hinv hstep => hinv.step (fun s hs => by
      have hmem : .ring (.receive s) ∈ calls := by rw [has, hs]; simp
      exact ⟨hsends.wellFormed s hmem,hsends.announced s hmem⟩) hstep)
  rw [hrun] at hall
  rcases hall with ⟨t,ht,hinv⟩ | ⟨e,-,-,-,-,he,-⟩
  · cases ht
    exact hinv
  · cases he

theorem le_nacksSent (t : LossTiming) (f : FrameData) : f.nackPacketsReceived ≤ nacksSent t f := le_max_right _ _

theorem countFrame_le (hcounted : LedgerCounted p duplicates calls r.ledger)
    (hsends : ServerSends p duplicates calls) (t : LossTiming) {n : ℕ × ℕ} (hn : n.1 ≤ n.2) {id : ℤ} (hid : 0 ≤ id) :
    (countFrame c t r n id).1 ≤ (countFrame c t r n id).2 := by
  have hframe : AccountOk p duplicates calls (r.receivingFrames (c.slot id)).account := hcounted (c.slot id)
  have hnext : AccountOk p duplicates calls (r.receivingFrames (c.slot (id + 1))).account := hcounted (c.slot (id + 1))
  unfold countFrame
  dsimp only
  generalize r.receivingFrames (c.slot id) = f at hframe ⊢
  generalize r.receivingFrames (c.slot (id + 1)) = next at hnext ⊢
  have hsent := le_nacksSent t f
  split_ifs with hskip hfollows
  · exact hn
  · rcases hframe with ⟨-,horiginal,hfec,hduplicate,hnack⟩ | hf
    · dsimp only [FrameData.account] at horiginal hfec hduplicate hnack ⊢
      omega
    · -- the next frame is there, and has announced the duplicates of this one
      have hnext' : FrameCounted p duplicates calls next.account := by
        apply hnext.resolve_left
        intro hempty
        have hle : next.id ≤ 0 := hempty.id
        omega
      have hfid : f.id = id := by
        by_contra hne
        exact hskip (Or.inl (Ne.symm hne))
      have hannounced : next.prevFrameNumDuplicatePackets = (duplicates id).length := by
        have h := hnext'.announced
        rwa [show next.account.id - 1 = id from by show next.id - 1 = id; omega] at h
      have htotal := hf.total
      have hnum := hf.numIndices
      have harrived := hsends.length_le id
      rw [show f.account.id = id from hfid] at htotal hnum
      dsimp only [FrameData.account] at htotal hnum ⊢
      omega
  · rcases hframe with ⟨-,horiginal,hfec,hduplicate,hnack⟩ | hf
    · dsimp only [FrameData.account] at horiginal hfec hduplicate hnack ⊢
      omega
    · have hreceived := hf.received_le
      have hunnecessary := hf.unnecessary
      dsimp only [FrameData.account] at hreceived hunnecessary ⊢
      omega

theorem countPackets_le (hcounted : LedgerCounted p duplicates calls r.ledger)
    (hsends : ServerSends p duplicates calls) (t : LossTiming) :
    (countPackets c t r).1 ≤ (countPackets c t r).2 := by
  have key : ∀ (idList : List ℤ) (n : ℕ × ℕ), (∀ id ∈ idList, 0 ≤ id) → n.1 ≤ n.2 →
      (idList.foldl (countFrame c t r) n).1 ≤ (idList.foldl (countFrame c t r) n).2 := by
    intro idList
    induction idList with
    | nil => exact fun n _ hn => hn
    | cons id idList ih =>
      intro n hids hn
      exact ih _ (fun id hid => hids id (List.mem_cons_of_mem _ hid))
        (countFrame_le hcounted hsends t hn (hids id List.mem_cons_self))
  apply key _ _ _ le_rfl
  intro id hid
  obtain ⟨i,-,rfl⟩ := List.mem_map.mp hid
  have := le_max_right (max (r.maxId - lossMaxFps) r.minId) 0
  omega

/-- In every run the measured packet loss is a proper ratio, as long as the packets can be counted
in an `int`. -/
theorem packetLoss_proper (p : FramePlan) (duplicates : ℤ → List ℕ) (c : RingConfig) (calls : List RecoveryCall)
    (r r' : RingBuffer) (hinit : initRingBuffer c = .ok r) (hsends : ServerSends p duplicates calls)
    (hrun : Run.run (recoveryStep c) r calls = .ok r') (t : LossTiming) (hint : (countPackets c t r').2 < 2 ^ 31) :
    0 ≤ getPacketLossRatio c t r' ∧ getPacketLossRatio c t r' < 1 :=
  lossRatio_bounds (countPackets_le (ledgerCounted_run hinit hsends hrun) hsends t) hint

def duplicatedFrame : List RecoveryCall :=
  [.ring (.receive (pairSegment 0)),.ring (.receive (pairSegment 1)),.ring (.receive (pairSegment 1)),
    .ring (.receive ⟨.audio,2,0,2,0,3,1,false,false,[1,2,3]⟩)]

def oneDuplicate (id : ℤ) : List ℕ := if id = 1 then [1] else []

theorem duplicatedFrame_receives {s : WhistSegment} (h : .ring (.receive s) ∈ duplicatedFrame) :
    s = pairSegment 0 ∨ s = pairSegment 1 ∨ s = ⟨.audio,2,0,2,0,3,1,false,false,[1,2,3]⟩ := by
  simp only [duplicatedFrame, List.mem_cons, RecoveryCall.ring.injEq, RingCall.receive.injEq,
    List.not_mem_nil, or_false] at h
  tauto

theorem duplicatedFrame_sends : ServerSends pairPlan oneDuplicate duplicatedFrame where
  wellFormed := by
    intro s hs
    rcases duplicatedFrame_receives hs with rfl | rfl | rfl
    · exact pairSegment_wellFormed (by decide)
    · exact pairSegment_wellFormed (by decide)
    · exact ⟨(by decide : (1 : ℤ) ≤ 2),rfl,rfl,(by decide : 0 < 2),(by decide : 3 ≤ maxPacketSegmentSize)⟩
  announced := by
    intro s hs
    rcases duplicatedFrame_receives hs with rfl | rfl | rfl <;> rfl
  arrivals := by
    intro id
    by_cases h1 : id = 1
    · rw [h1]
      exact List.Perm.subperm (by decide)
    · by_cases h2 : id = 2
      · rw [h2]
        exact (List.singleton_sublist.mpr (by decide : 0 ∈ List.range 2 ++ [])).subperm
      · have hnone : arrivals duplicatedFrame id = [] := by
          simp [arrivals, duplicatedFrame, arrival, pairSegment, Ne.symm h1, Ne.symm h2]
        rw [hnone]
        exact List.nil_subperm

/-- The frame that arrived with its duplicate has no loss. -/
theorem packetLoss_proper_duplicated : ∃ r r', initRingBuffer audioRing = .ok r ∧
    Run.run (recoveryStep audioRing) r duplicatedFrame = .ok r' ∧
    0 ≤ getPacketLossRatio audioRing ⟨fun _ => false,fun _ _ => false⟩ r' ∧
    getPacketLossRatio audioRing ⟨fun _ => false,fun _ _ => false⟩ r' < 1 := by
  have hcount : ∀ r ∈ (initRingBuffer audioRing).toOption,
      ∃ r' ∈ (Run.run (recoveryStep audioRing) r duplicatedFrame).toOption,
        countPackets audioRing ⟨fun _ => false,fun _ _ => false⟩ r' = (3,3) := by
    decide +kernel
  obtain ⟨r,hr⟩ := initRingBuffer_ok (c := audioRing) (by decide)
  obtain ⟨r',hr',hthree⟩ := hcount r (by rw [hr]; rfl)
  cases hrun : Run.run (recoveryStep audioRing) r duplicatedFrame with
  | error e =>
    rw [hrun] at hr'
    cases hr'
  | ok b =>
    rw [hrun] at hr'
    cases hr'
    exact ⟨r,r',hr,hrun,packetLoss_proper pairPlan oneDuplicate audioRing duplicatedFrame r r' hr
      duplicatedFrame_sends hrun _ (by rw [hthree]; decide)⟩

end Whist.Ring
