import Whist.Network.RingSafety
import Whist.Network.RingLedger

/-! # How often a packet is nacked -/
namespace Whist.Ring
open Udp (WhistSegment)

variable {c : RingConfig} {t : NackTiming} {l l' l₁ : Ledger}

def Ledger.Capped (l : Ledger) : Prop := ∀ e, l.nacks.count e ≤ maxPacketNacks

def CountersKept (l l' : Ledger) : Prop :=
  ∀ i index, (l.accounts i).numTimesIndexNacked index ≤ (l'.accounts i).numTimesIndexNacked index

theorem Receives.nacks_eq {s : WhistSegment} (h : Receives c s l l') : l'.nacks = l.nacks := by
  cases h with
  | stale => rfl
  | dropped => rfl
  | arrives => rfl
  | opens l₁ hroom => rcases hroom with rfl | rfl <;> rfl

instance (c : RingConfig) (t : NackTiming) (l : Ledger) (id : ℤ) (index : ℕ) : Decidable (IndexDue c t l id index) :=
  inferInstanceAs (Decidable (_ ∧ _ ∧ _))

def FrameSettled (c : RingConfig) (t : NackTiming) (idList : List ℤ) (l : Ledger) (id : ℤ) : Prop :=
  (l.accounts (c.slot id)).id = id ∨
    (l.accounts (c.slot id)).entireFrameNackedId = id ∧
      ¬(t.frameTimedOut id = true ∧ (l.accounts (c.slot id)).numEntireFrameNacked < maxPacketNacks) ∧
      ∀ other ∈ idList, c.slot other = c.slot id → other = id ∨ (l.accounts (c.slot id)).id = other

instance (c : RingConfig) (t : NackTiming) (idList : List ℤ) (l : Ledger) (id : ℤ) :
    Decidable (FrameSettled c t idList l id) := inferInstanceAs (Decidable (_ ∨ _ ∧ _ ∧ _))

def Settled (c : RingConfig) (t : NackTiming) (idList : List ℤ) (l : Ledger) (e : ℤ × ℤ) : Prop :=
  if e.2 = -1 then FrameSettled c t idList l e.1 else ¬IndexDue c t l e.1 e.2.toNat

instance (c : RingConfig) (t : NackTiming) (idList : List ℤ) (l : Ledger) (e : ℤ × ℤ) :
    Decidable (Settled c t idList l e) :=
  inferInstanceAs (Decidable (if e.2 = -1 then FrameSettled c t idList l e.1 else ¬IndexDue c t l e.1 e.2.toNat))

theorem FrameSettled.of_same {idList : List ℤ} {id : ℤ} (h : FrameSettled c t idList l id)
    (hid : (l₁.accounts (c.slot id)).id = (l.accounts (c.slot id)).id)
    (hentire : (l₁.accounts (c.slot id)).entireFrameNackedId = (l.accounts (c.slot id)).entireFrameNackedId)
    (hnum : (l₁.accounts (c.slot id)).numEntireFrameNacked = (l.accounts (c.slot id)).numEntireFrameNacked) :
    FrameSettled c t idList l₁ id := by
  unfold FrameSettled at h ⊢
  rw [hid, hentire, hnum]
  exact h

theorem FrameSettled.nack {idList : List ℤ} {id : ℤ} {e : ℤ × ℤ} (h : FrameSettled c t idList l id)
    (hnack : Nacks c t l e l₁) (he : e.1 ∈ idList) : e ≠ (id,-1) ∧ FrameSettled c t idList l₁ id := by
  cases hnack with
  | frame other hdue =>
    by_cases hslot : c.slot other = c.slot id
    · rcases h with hid | ⟨hentire,hnot,honly⟩
      · refine ⟨fun heq => ?_,Or.inl ?_⟩
        · cases heq
          exact hdue.1 hid
        · rw [hslot, nack_account_self]
          exact hid
      · rcases honly other he hslot with rfl | hother
        · rcases hdue.2 with hne | hagain
          · exact absurd hentire hne
          · exact absurd hagain hnot
        · rw [← hslot] at hother
          exact absurd hother hdue.1
    · refine ⟨fun heq => ?_,?_⟩
      · cases heq
        exact hslot rfl
      · have hsame := nack_account_of_ne l ((l.accounts (c.slot other)).noteFrameNack other) (other,-1)
          (Ne.symm hslot)
        apply h.of_same <;> rw [hsame]
  | index other index hdue =>
    refine ⟨fun heq => ?_,?_⟩
    · have hnat : (index : ℤ) = -1 := (Prod.mk.inj heq).2
      omega
    · by_cases hslot : c.slot other = c.slot id
      · have hsame := nack_account_self l (c.slot other) ((l.accounts (c.slot other)).noteIndexNack index)
          (other,(index : ℤ))
        rw [hslot] at hsame
        apply h.of_same <;> rw [hslot, hsame] <;> rfl
      · have hsame := nack_account_of_ne l ((l.accounts (c.slot other)).noteIndexNack index)
          (other,(index : ℤ)) (Ne.symm hslot)
        apply h.of_same <;> rw [hsame]

theorem notDue_nack {id : ℤ} {index : ℕ} {e : ℤ × ℤ} (h : ¬IndexDue c t l id index)
    (hnack : Nacks c t l e l₁) : e ≠ (id,(index : ℤ)) ∧ ¬IndexDue c t l₁ id index := by
  cases hnack with
  | frame other hdue =>
    refine ⟨fun heq => ?_,fun hdue' => h ?_⟩
    · have hnat : (-1 : ℤ) = index := (Prod.mk.inj heq).2
      omega
    · by_cases hslot : c.slot id = c.slot other
      · unfold IndexDue at hdue' ⊢
        rw [hslot, nack_account_self] at hdue'
        rw [hslot]
        exact hdue'
      · unfold IndexDue at hdue' ⊢
        rwa [nack_account_of_ne _ _ _ hslot] at hdue'
  | index other j hdue =>
    refine ⟨fun heq => ?_,fun hdue' => h ?_⟩
    · obtain ⟨rfl,hj⟩ := Prod.mk.inj heq
      obtain rfl : j = index := by omega
      exact h hdue
    · by_cases hslot : c.slot id = c.slot other
      · unfold IndexDue at hdue' ⊢
        rw [hslot, nack_account_self] at hdue'
        obtain ⟨hid,hmissing,hagain⟩ := hdue'
        have hsame : other = id := hdue.1.symm.trans hid
        have hne : index ≠ j := by
          rintro rfl
          exact h (hsame ▸ hdue)
        refine ⟨hslot ▸ hid,hslot ▸ hmissing,?_⟩
        have hcount : ((l.accounts (c.slot other)).noteIndexNack j).numTimesIndexNacked index =
            (l.accounts (c.slot other)).numTimesIndexNacked index := Function.update_of_ne hne ..
        rw [hcount] at hagain
        exact hslot ▸ hagain
      · unfold IndexDue at hdue' ⊢
        rwa [nack_account_of_ne _ _ _ hslot] at hdue'

theorem Settled.nack {idList : List ℤ} {e e' : ℤ × ℤ} (h : Settled c t idList l e) (hlabel : e.2 = -1 ∨ 0 ≤ e.2)
    (hnack : Nacks c t l e' l₁) (he' : e'.1 ∈ idList) : e' ≠ e ∧ Settled c t idList l₁ e := by
  unfold Settled at h ⊢
  by_cases hframe : e.2 = -1
  · rw [if_pos hframe] at h ⊢
    have hsettled := h.nack hnack he'
    rwa [show (e.1,(-1 : ℤ)) = e from Prod.ext rfl hframe.symm] at hsettled
  · rw [if_neg hframe] at h ⊢
    have hsettled := notDue_nack h hnack
    have hcast : (e.2.toNat : ℤ) = e.2 := Int.toNat_of_nonneg (hlabel.resolve_left hframe)
    rwa [hcast] at hsettled

theorem Settled.run {idList : List ℤ} {e : ℤ × ℤ} {es : List (ℤ × ℤ)} (h : Settled c t idList l e)
    (hlabel : e.2 = -1 ∨ 0 ≤ e.2) (hrun : NackRun c t l es l') (hes : ∀ e' ∈ es, e'.1 ∈ idList) : e ∉ es := by
  induction hrun with
  | nil => exact List.not_mem_nil
  | cons hnack _ ih =>
    obtain ⟨hne,hsettled⟩ := h.nack hlabel hnack (hes _ List.mem_cons_self)
    intro hmem
    rcases List.mem_cons.mp hmem with heq | hmem
    · exact hne heq.symm
    · exact ih hsettled (fun e' he' => hes e' (List.mem_cons_of_mem _ he')) hmem

/-- The labels of nacks, and the counters: each nack of an index is counted once at most. -/
structure Counted (l : Ledger) : Prop where
  label : ∀ e ∈ l.nacks, e.2 = -1 ∨ 0 ≤ e.2
  entire : ∀ i, (l.accounts i).numEntireFrameNacked ≤ maxPacketNacks
  index : ∀ i index, (l.accounts i).numTimesIndexNacked index ≤
    maxPacketNacks + l.nacks.count ((l.accounts i).id,(index : ℤ))

theorem Counted.setAccount (h : Counted l) (i : ℕ) {f : FrameData} (hentire : f.numEntireFrameNacked ≤ maxPacketNacks)
    (hindex : ∀ index : ℕ, f.numTimesIndexNacked index ≤ maxPacketNacks + l.nacks.count (f.id,(index : ℤ))) :
    Counted (l.setAccount i f) where
  label := h.label
  entire j := by
    by_cases hj : j = i
    · rw [hj, setAccount_account_self]
      exact hentire
    · rw [setAccount_account_of_ne l f hj]
      exact h.entire j
  index j index := by
    by_cases hj : j = i
    · rw [hj, setAccount_account_self]
      exact hindex index
    · rw [setAccount_account_of_ne l f hj]
      exact h.index j index

theorem arrived_same (f : FrameData) (s : WhistSegment) :
    (f.arrived s).id = f.id ∧ (f.arrived s).numEntireFrameNacked = f.numEntireFrameNacked ∧
      (f.arrived s).numTimesIndexNacked = f.numTimesIndexNacked := by
  unfold FrameData.arrived FrameData.counted FrameData.duplicated FrameData.marked
  split_ifs <;> exact ⟨rfl,rfl,rfl⟩

theorem Counted.wiped (h : Counted l) (c : RingConfig) : Counted (l.wiped c) where
  label := h.label
  entire i := by
    unfold Ledger.wiped
    dsimp only
    split_ifs
    · exact Nat.zero_le _
    · exact h.entire i
  index i index := by
    unfold Ledger.wiped
    dsimp only
    split_ifs
    · exact Nat.zero_le _
    · exact h.index i index

theorem Counted.opens (h : Counted l) (s : WhistSegment) :
    Counted ((l.setAccount (c.slot s.id) (((l.accounts (c.slot s.id)).opened s).arrived s)).widen s.id) := by
  obtain ⟨hid,hentire,hindex⟩ := arrived_same ((l.accounts (c.slot s.id)).opened s) s
  have hnacked : ((l.accounts (c.slot s.id)).opened s).numEntireFrameNacked ≤ maxPacketNacks := by
    show (if _ then _ else 0 : ℕ) ≤ _
    split_ifs
    · exact h.entire _
    · exact Nat.zero_le _
  have hset : Counted (l.setAccount (c.slot s.id) (((l.accounts (c.slot s.id)).opened s).arrived s)) := by
    apply h.setAccount
    · rw [hentire]
      exact hnacked
    · intro index
      rw [hindex]
      have hle : ((l.accounts (c.slot s.id)).opened s).numTimesIndexNacked index ≤
          ((l.accounts (c.slot s.id)).opened s).numEntireFrameNacked := by
        show (if _ then ((l.accounts (c.slot s.id)).opened s).numEntireFrameNacked else 0) ≤ _
        split_ifs
        · exact le_refl _
        · exact Nat.zero_le _
      exact (hle.trans hnacked).trans (Nat.le_add_right _ _)
  exact ⟨hset.label,hset.entire,hset.index⟩

theorem Counted.receives {s : WhistSegment} (h : Counted l) (hs : Receives c s l l') : Counted l' := by
  cases hs with
  | stale => exact h
  | dropped => exact h.wiped c
  | arrives hid htotal =>
    obtain ⟨hid',hentire,hindex⟩ := arrived_same (l.accounts (c.slot s.id)) s
    apply h.setAccount
    · rw [hentire]
      exact h.entire _
    · intro index
      rw [hindex, hid']
      exact h.index _ index
  | opens l₁ hroom =>
    rcases hroom with rfl | rfl
    · exact h.opens s
    · exact (h.wiped c).opens s

theorem count_append_le (e e' : ℤ × ℤ) (nacks : List (ℤ × ℤ)) : nacks.count e ≤ (nacks ++ [e']).count e := by
  rw [List.count_append]
  exact Nat.le_add_right _ _

theorem Counted.nack {e : ℤ × ℤ} (h : Counted l) (hnack : Nacks c t l e l₁) : Counted l₁ := by
  cases hnack with
  | frame id hdue =>
    have hset : Counted (l.setAccount (c.slot id) ((l.accounts (c.slot id)).noteFrameNack id)) := by
      apply h.setAccount
      · show (if _ then 1 else _ : ℕ) ≤ _
        split_ifs with hentire
        · decide
        · exact (hdue.2.resolve_left hentire).2
      · exact h.index _
    refine ⟨fun e he => ?_,hset.entire,fun i index => (hset.index i index).trans ?_⟩
    · rcases List.mem_append.mp he with he | he
      · exact h.label e he
      · rw [List.mem_singleton.mp he]
        exact Or.inl rfl
    · exact Nat.add_le_add_left (count_append_le _ _ _) _
  | index id j hdue =>
    refine ⟨fun e he => ?_,fun i => ?_,fun i index => ?_⟩
    · rcases List.mem_append.mp he with he | he
      · exact h.label e he
      · rw [List.mem_singleton.mp he]
        exact Or.inr (Int.natCast_nonneg j)
    · by_cases hi : i = c.slot id
      · rw [hi, nack_account_self]
        exact h.entire _
      · rw [nack_account_of_ne _ _ _ hi]
        exact h.entire i
    · have hmore : ∀ e, l.nacks.count e ≤ (l.nacks ++ [(id,(j : ℤ))]).count e := fun e => count_append_le _ _ _
      by_cases hi : i = c.slot id
      · rw [hi, nack_account_self]
        have hold := h.index (c.slot id) index
        by_cases hindex : index = j
        · have hnew : ((l.accounts (c.slot id)).noteIndexNack j).numTimesIndexNacked index =
              ((l.accounts (c.slot id)).numTimesIndexNacked j + 1) % 256 := by
            rw [hindex]
            exact Function.update_self ..
          have hone : (l.nacks ++ [(id,(j : ℤ))]).count (id,(j : ℤ)) = l.nacks.count (id,(j : ℤ)) + 1 := by
            rw [List.count_append, List.count_singleton_self]
          show _ ≤ maxPacketNacks + (l.nacks ++ [(id,(j : ℤ))]).count ((l.accounts (c.slot id)).id,(index : ℤ))
          rw [hnew, hindex, hdue.1, hone]
          rw [hindex, hdue.1] at hold
          have := Nat.mod_le ((l.accounts (c.slot id)).numTimesIndexNacked j + 1) 256
          omega
        · have hsame : ((l.accounts (c.slot id)).noteIndexNack j).numTimesIndexNacked index =
              (l.accounts (c.slot id)).numTimesIndexNacked index := Function.update_of_ne hindex ..
          rw [hsame]
          exact hold.trans (Nat.add_le_add_left (hmore _) _)
      · rw [nack_account_of_ne _ _ _ hi]
        exact (h.index i index).trans (Nat.add_le_add_left (hmore _) _)

theorem Counted.run {es : List (ℤ × ℤ)} (h : Counted l) (hrun : NackRun c t l es l') (hcap : l'.Capped) :
    Counted l' ∧ CountersKept l l' := by
  induction hrun with
  | nil => exact ⟨h,fun _ _ => le_rfl⟩
  | @cons l l₁ l₂ e es hnack hrest ih =>
    obtain ⟨hcounted,hkept⟩ := ih (h.nack hnack) hcap
    refine ⟨hcounted,fun i index => le_trans ?_ (hkept i index)⟩
    cases hnack with
    | frame id hdue =>
      by_cases hi : i = c.slot id
      · rw [hi, nack_account_self]
        exact le_refl _
      · rw [nack_account_of_ne _ _ _ hi]
    | index id j hdue =>
      by_cases hi : i = c.slot id
      · rw [hi, nack_account_self]
        by_cases hindex : index = j
        · have hnew : ((l.accounts (c.slot id)).noteIndexNack j).numTimesIndexNacked index =
              ((l.accounts (c.slot id)).numTimesIndexNacked j + 1) % 256 := by
            rw [hindex]
            exact Function.update_self ..
          have hbound := h.index (c.slot id) j
          rw [hdue.1] at hbound
          have hcount : l.nacks.count (id,(j : ℤ)) ≤ maxPacketNacks := by
            have hnacks := (NackRun.cons (.index l id j hdue) hrest).nacks_eq
            have hle := hcap (id,(j : ℤ))
            rw [hnacks, List.count_append] at hle
            omega
          rw [hnew, hindex]
          have hsmall : maxPacketNacks = 2 := rfl
          omega
        · have hsame : ((l.accounts (c.slot id)).noteIndexNack j).numTimesIndexNacked index =
              (l.accounts (c.slot id)).numTimesIndexNacked index := Function.update_of_ne hindex ..
          rw [hsame]
      · rw [nack_account_of_ne _ _ _ hi]

def nackRange (r : RingBuffer) : List ℤ := ids (r.ledger.firstNacked r.lastRenderedId) r.maxId

def CallSettled (c : RingConfig) (r : RingBuffer) : RecoveryCall → Prop
  | .ring _ => True
  | .recover t => ∀ e ∈ r.nacks, r.nacks.count e < maxPacketNacks ∨ e.1 ∉ nackRange r ∨
      Settled c t (nackRange r) r.ledger e

instance (c : RingConfig) (r : RingBuffer) : ∀ call, Decidable (CallSettled c r call)
  | .ring _ => inferInstanceAs (Decidable True)
  | .recover _ => inferInstanceAs (Decidable (∀ e ∈ r.nacks, _ ∨ _ ∨ _))

def KeepsCap (c : RingConfig) (r : RingBuffer) (call : RecoveryCall) : Prop :=
  ∀ r', recoveryStep c r call = .ok r' → r'.ledger.Capped ∧
    ∀ t, call = .recover t → CountersKept r.ledger r'.ledger

theorem CallSettled.keepsCap {r : RingBuffer} {call : RecoveryCall} (hcounted : Counted r.ledger)
    (hcap : r.ledger.Capped) (h : CallSettled c r call) {r' : RingBuffer} (hr : recoveryStep c r call = .ok r') :
    Counted r'.ledger ∧ r'.ledger.Capped ∧ ∀ t, call = .recover t → CountersKept r.ledger r'.ledger := by
  cases call with
  | ring call =>
    rcases ringStep_ledger hr with hledger | ⟨s,-,-,-,hreceives⟩
    · rw [hledger]
      exact ⟨hcounted,hcap,fun t ht => by cases ht⟩
    · refine ⟨hcounted.receives hreceives,fun e => ?_,fun t ht => by cases ht⟩
      rw [hreceives.nacks_eq]
      exact hcap e
  | recover t =>
    rcases tryRecovering_ledger hr with ⟨-,hledger⟩ | ⟨-,es,n,hnacked⟩
    · rw [hledger]
      exact ⟨hcounted,hcap,fun _ _ _ _ => le_rfl⟩
    · obtain ⟨l₁,hrun,hl₁⟩ := hnacked.run
      have hnacks : l₁.nacks = r.nacks ++ es := hrun.nacks_eq
      have hcap₁ : l₁.Capped := by
        intro e
        rw [hnacks, List.count_append]
        have honce : es.count e ≤ 1 := List.nodup_iff_count_le_one.mp hnacked.nodup e
        rcases Nat.lt_or_ge (r.nacks.count e) maxPacketNacks with hlt | hge
        · omega
        · have hmem : e ∈ r.nacks := List.count_pos_iff.mp (lt_of_lt_of_le (by decide) hge)
          have hnot : e ∉ es := by
            rcases h e hmem with hlt | hrange | hsettled
            · exact absurd hlt (not_lt.mpr hge)
            · exact fun hes => hrange (hnacked.mem e hes)
            · exact Settled.run (l := r.ledger.startIntervals t) hsettled (hcounted.label e hmem) hrun hnacked.mem
          rw [List.count_eq_zero_of_not_mem hnot]
          exact hcap e
      have hstart : Counted (r.ledger.startIntervals t) := ⟨hcounted.label,hcounted.entire,hcounted.index⟩
      obtain ⟨hcounted₁,hkept⟩ := hstart.run hrun hcap₁
      rw [hl₁]
      exact ⟨⟨hcounted₁.label,hcounted₁.entire,hcounted₁.index⟩,hcap₁,fun _ _ => hkept⟩

theorem counted_init {r : RingBuffer} (h : initRingBuffer c = .ok r) : Counted r.ledger ∧ r.ledger.Capped := by
  unfold initRingBuffer at h
  split_ifs at h
  rw [resetRingBuffer_ledger h]
  have hfresh : Counted (freshRingBuffer c).ledger :=
    ⟨List.forall_mem_nil _,fun _ => Nat.zero_le _,fun _ _ => Nat.zero_le _⟩
  exact ⟨hfresh.wiped c,fun _ => Nat.zero_le _⟩

/-- In every run in which nothing is due again that was nacked as often as the cap allows, no
packet is nacked more often, and no counter wraps. -/
theorem nacks_capped (c : RingConfig) (r : RingBuffer) (hr : initRingBuffer c = .ok r) (calls : List RecoveryCall)
    (h : Run.EachOk (recoveryStep c) (CallSettled c) r calls) :
    Run.EachOk (recoveryStep c) (KeepsCap c) r calls :=
  @Run.EachOk.imp _ _ _ _ _ _ (fun r => Counted r.ledger ∧ r.ledger.Capped)
    (fun _ _ _ hinv hcall hstep => ⟨(hcall.keepsCap hinv.1 hinv.2 hstep).1,(hcall.keepsCap hinv.1 hinv.2 hstep).2.1⟩)
    (fun _ _ hinv hcall _ hstep => (hcall.keepsCap hinv.1 hinv.2 hstep).2) _ _ (counted_init hr) h

def impatientTiming (indexTimedOut : Bool) : NackTiming where
  statisticsDue := false
  burstIntervalOver := true
  avgIntervalOver := true
  burstNacks := 10
  avgNacks := 10
  maxUnorderedPackets := 0
  nacksPerFrame := 1
  frameTimedOut _ := true
  indexTimedOut _ _ := indexTimedOut
  stale _ _ := false
  resetDue := false

def lastSegment : RecoveryCall := .ring (.receive ⟨.audio,1,2,3,0,3,0,false,false,[1,2,3]⟩)

/-- The segments that are missing are nacked twice, and then not for the time being. -/
theorem nacks_capped_twice : ∃ r, initRingBuffer audioRing = .ok r ∧
    Run.EachOk (recoveryStep audioRing) (KeepsCap audioRing) r
      [lastSegment,.recover (impatientTiming true),.recover (impatientTiming true),
        .recover (impatientTiming false)] := by
  have hsettled : ∀ r ∈ (initRingBuffer audioRing).toOption, Run.EachOk (recoveryStep audioRing)
      (CallSettled audioRing) r [lastSegment,.recover (impatientTiming true),.recover (impatientTiming true),
        .recover (impatientTiming false)] := by
    decide +kernel
  obtain ⟨r,hr⟩ := initRingBuffer_ok (c := audioRing) (by decide)
  exact ⟨r,hr,nacks_capped audioRing r hr _ (hsettled r (by rw [hr]; rfl))⟩

/-- Three rounds, each after the timer is over, nack the same index three times. -/
theorem nacks_uncapped : ¬∀ (c : RingConfig) (r : RingBuffer), initRingBuffer c = .ok r →
    ∀ calls : List RecoveryCall, Run.EachOk (recoveryStep c) (KeepsCap c) r calls := by
  intro h
  have hcount : ∀ r ∈ (initRingBuffer audioRing).toOption, ∃ r' ∈ (Run.run (recoveryStep audioRing) r
      [lastSegment,.recover (impatientTiming true),.recover (impatientTiming true),
        .recover (impatientTiming true)]).toOption, r'.nacks.count (1,0) = 3 := by
    decide +kernel
  obtain ⟨r,hr⟩ := initRingBuffer_ok (c := audioRing) (by decide)
  obtain ⟨r',hr',hthree⟩ := hcount r (by rw [hr]; rfl)
  cases hrun : Run.run (recoveryStep audioRing) r
      [lastSegment,.recover (impatientTiming true),.recover (impatientTiming true),
        .recover (impatientTiming true)] with
  | error e =>
    rw [hrun] at hr'
    cases hr'
  | ok r₁ =>
    rw [hrun] at hr'
    cases hr'
    have hcap : r'.ledger.Capped := @Run.EachOk.invariant _ _ _ _ _ (fun r => r.ledger.Capped)
      (fun _ _ r₁ _ hkeeps hstep => (hkeeps r₁ hstep).1) _ _ _ (counted_init hr).2 (h audioRing r hr _) hrun
    have hle : r'.nacks.count (1,0) ≤ 2 := hcap (1,0)
    omega

end Whist.Ring
