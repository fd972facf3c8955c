import Whist.Network.NetworkAlgorithm
import Whist.Foundation.Run

/-! # Departures and arrivals of packet groups -/
namespace Whist.Wcc
open Run

def maxGroupStats : ℕ := 8

structure VideoSegment where
  groupId : ℕ
  departureTime : UInt64
  arrivalTime : UInt64
  isANack : Bool := false
  isADuplicate : Bool := false

def VideoSegment.original (s : VideoSegment) : Bool := !s.isANack && !s.isADuplicate

def VideoSegment.stats (s : VideoSegment) : GroupStats := ⟨s.departureTime,s.arrivalTime⟩

structure GroupContext where
  groupStats : Fin maxGroupStats → GroupStats := fun _ => ⟨0,0⟩
  prevGroupId : ℕ := 0
  currGroupId : ℕ := 0

def slotOf (groupId : ℕ) : Fin maxGroupStats := ⟨groupId % maxGroupStats,Nat.mod_lt _ (by decide)⟩

/-- What `whist_congestion_controller` is called with. -/
structure ControllerCall where
  currGroupStats : GroupStats
  prevGroupStats : GroupStats

/-- `udp_congestion_control`, with whether the timer of the last bottleneck has run out. -/
def udpCongestionControl (context : GroupContext) (s : VideoSegment) (bottleneckOver : Bool) :
    GroupContext × Option ControllerCall :=
  let context :=
    if s.departureTime > (context.groupStats (slotOf s.groupId)).departureTime then
      { context with groupStats := Function.update context.groupStats (slotOf s.groupId) s.stats }
    else context
  if s.groupId > context.currGroupId then
    ({ context with prevGroupId := context.currGroupId, currGroupId := s.groupId },
      if context.prevGroupId ≠ 0 ∧ bottleneckOver = true then
        some {
          currGroupStats := context.groupStats (slotOf context.currGroupId)
          prevGroupStats := context.groupStats (slotOf context.prevGroupId) }
      else none)
  else (context,none)

/-- The part of `udp_update` that takes a video segment. -/
def takeVideoSegment (context : GroupContext) (s : VideoSegment) (bottleneckOver : Bool) :
    GroupContext × Option ControllerCall :=
  if s.original = true ∧ s.groupId ≥ context.currGroupId then
    udpCongestionControl context s bottleneckOver
  else (context,none)

abbrev Arrival := VideoSegment × Bool

def groupStep (context : GroupContext) (a : Arrival) : GroupContext :=
  (takeVideoSegment context a.1 a.2).1

def callAt (before : List Arrival) (a : Arrival) : Option ControllerCall :=
  (takeVideoSegment (before.foldl groupStep {}) a.1 a.2).2

def contextAt (before : List Arrival) : GroupContext := before.foldl groupStep {}

def LatestOf (among : VideoSegment → Prop) (groupId : ℕ) (stats : GroupStats) : Prop :=
  ∃ s, among s ∧ s.groupId = groupId ∧ stats = s.stats ∧
    ∀ t, among t → t.groupId = groupId → t.departureTime ≤ s.departureTime

def Received (arrivals : List Arrival) (s : VideoSegment) : Prop :=
  s.original = true ∧ ∃ timer, (s,timer) ∈ arrivals

/-- The original segments that were received before any of a later group. -/
def InOrder (arrivals : List Arrival) (s : VideoSegment) : Prop :=
  s.original = true ∧ ∃ pre timer post, arrivals = pre ++ (s,timer) :: post ∧
    ∀ t, Received pre t → t.groupId ≤ s.groupId

structure Departures (arrivals : List Arrival) : Prop where
  positive : ∀ s, Received arrivals s → 0 < s.departureTime
  increasing : ∀ s t, Received arrivals s → Received arrivals t → s.groupId < t.groupId →
    s.departureTime < t.departureTime

theorem received_snoc {before : List Arrival} {a : Arrival} {s : VideoSegment} :
    Received (before ++ [a]) s ↔ Received before s ∨ s.original = true ∧ s = a.1 := by
  constructor
  · rintro ⟨ho,timer,hmem⟩
    rcases List.mem_append.1 hmem with hmem | hmem
    · exact .inl ⟨ho,timer,hmem⟩
    · exact .inr ⟨ho,congrArg Prod.fst (List.mem_singleton.1 hmem)⟩
  · rintro (⟨ho,timer,hmem⟩ | ⟨ho,rfl⟩)
    · exact ⟨ho,timer,List.mem_append_left _ hmem⟩
    · exact ⟨ho,a.2,List.mem_append_right _ List.mem_cons_self⟩

theorem inOrder_snoc {before : List Arrival} {a : Arrival} {s : VideoSegment} :
    InOrder (before ++ [a]) s ↔ InOrder before s ∨
      s.original = true ∧ s = a.1 ∧ ∀ t, Received before t → t.groupId ≤ s.groupId := by
  constructor
  · rintro ⟨ho,pre,timer,post,hsplit,hle⟩
    rcases List.eq_nil_or_concat post with rfl | ⟨post,b,rfl⟩
    · obtain ⟨rfl,hlast⟩ := List.append_inj' hsplit rfl
      exact .inr ⟨ho,congrArg Prod.fst (List.cons.inj hlast).1.symm,hle⟩
    · rw [List.concat_eq_append,← List.cons_append,← List.append_assoc] at hsplit
      obtain ⟨rfl,_⟩ := List.append_inj' hsplit rfl
      exact .inl ⟨ho,pre,timer,post,rfl,hle⟩
  · rintro (⟨ho,pre,timer,post,rfl,hle⟩ | ⟨ho,rfl,hle⟩)
    · exact ⟨ho,pre,timer,post ++ [a],by simp,hle⟩
    · exact ⟨ho,before,a.2,[],rfl,hle⟩

structure GroupInv (before : List Arrival) (c : GroupContext) : Prop where
  highest : ∀ s, Received before s → s.groupId ≤ c.currGroupId
  slots : ∀ i, (c.groupStats i).departureTime = 0 ∨
    ∃ s, Received before s ∧ (c.groupStats i).departureTime = s.departureTime
  curr : c.currGroupId ≠ 0 →
    LatestOf (InOrder before) c.currGroupId (c.groupStats (slotOf c.currGroupId))
  earlier : c.prevGroupId ≠ 0 → c.prevGroupId < c.currGroupId
  prev : c.prevGroupId ≠ 0 → slotOf c.prevGroupId ≠ slotOf c.currGroupId →
    LatestOf (InOrder before) c.prevGroupId (c.groupStats (slotOf c.prevGroupId))

theorem groupInv_start : GroupInv [] {} where
  highest s h := by
    obtain ⟨_,_,hmem⟩ := h
    cases hmem
  slots _ := .inl rfl
  curr h := absurd rfl h
  earlier h := absurd rfl h
  prev h := absurd rfl h

theorem InOrder.received {before : List Arrival} {s : VideoSegment} (h : InOrder before s) :
    Received before s := by
  obtain ⟨ho,pre,timer,post,rfl,_⟩ := h
  exact ⟨ho,timer,by simp⟩

theorem LatestOf.snoc_other {before : List Arrival} {a : Arrival} {groupId : ℕ} {stats : GroupStats}
    (h : LatestOf (InOrder before) groupId stats)
    (hother : a.1.original = true → (∀ t, Received before t → t.groupId ≤ a.1.groupId) →
      a.1.groupId ≠ groupId) : LatestOf (InOrder (before ++ [a])) groupId stats := by
  obtain ⟨s,hs,hid,hstats,hmax⟩ := h
  refine ⟨s,inOrder_snoc.2 (.inl hs),hid,hstats,fun t ht htid => ?_⟩
  rcases inOrder_snoc.1 ht with ht | ⟨ho,rfl,hle⟩
  · exact hmax t ht htid
  · exact absurd htid (hother ho hle)

theorem latestOf_first {before : List Arrival} {a : Arrival} (ho : a.1.original = true)
    (hlt : ∀ t, Received before t → t.groupId < a.1.groupId) :
    LatestOf (InOrder (before ++ [a])) a.1.groupId a.1.stats := by
  refine ⟨a.1,inOrder_snoc.2 (.inr ⟨ho,rfl,fun t ht => (hlt t ht).le⟩),rfl,rfl,fun t ht htid => ?_⟩
  rcases inOrder_snoc.1 ht with ht | ⟨_,rfl,_⟩
  · exact absurd htid (hlt t ht.received).ne
  · exact UInt64.le_refl _

theorem LatestOf.snoc_same {before : List Arrival} {a : Arrival} {stats : GroupStats}
    (h : LatestOf (InOrder before) a.1.groupId stats) (ho : a.1.original = true)
    (hle : ∀ t, Received before t → t.groupId ≤ a.1.groupId) :
    LatestOf (InOrder (before ++ [a])) a.1.groupId
      (if a.1.departureTime > stats.departureTime then a.1.stats else stats) := by
  obtain ⟨s,hs,hid,rfl,hmax⟩ := h
  have ha : InOrder (before ++ [a]) a.1 := inOrder_snoc.2 (.inr ⟨ho,rfl,hle⟩)
  split_ifs with hlater
  · refine ⟨a.1,ha,rfl,rfl,fun t ht htid => ?_⟩
    rcases inOrder_snoc.1 ht with ht | ⟨_,rfl,_⟩
    · exact UInt64.le_trans (hmax t ht htid) (UInt64.le_of_lt hlater)
    · exact UInt64.le_refl _
  · refine ⟨s,inOrder_snoc.2 (.inl hs),hid,rfl,fun t ht htid => ?_⟩
    rcases inOrder_snoc.1 ht with ht | ⟨_,rfl,_⟩
    · exact hmax t ht htid
    · exact UInt64.not_lt.1 hlater

theorem GroupInv.later {before : List Arrival} {a : Arrival} {c : GroupContext}
    (h : GroupInv before c) (hd : Departures (before ++ [a])) (ho : a.1.original = true)
    (hnew : c.currGroupId < a.1.groupId) (i : Fin maxGroupStats) :
    a.1.departureTime > (c.groupStats i).departureTime := by
  have ha : Received (before ++ [a]) a.1 := received_snoc.2 (.inr ⟨ho,rfl⟩)
  rcases h.slots i with hzero | ⟨s,hs,hslot⟩
  · rw [hzero]
    exact hd.positive _ ha
  · rw [hslot]
    exact hd.increasing _ _ (received_snoc.2 (.inl hs)) ha ((h.highest s hs).trans_lt hnew)

theorem GroupInv.slots_update {before : List Arrival} {a : Arrival} {c : GroupContext}
    (h : GroupInv before c) (ho : a.1.original = true) (i j : Fin maxGroupStats) :
    (Function.update c.groupStats j a.1.stats i).departureTime = 0 ∨
      ∃ s, Received (before ++ [a]) s ∧
        (Function.update c.groupStats j a.1.stats i).departureTime = s.departureTime := by
  by_cases hij : i = j
  · rw [hij,Function.update_self]
    exact .inr ⟨a.1,received_snoc.2 (.inr ⟨ho,rfl⟩),rfl⟩
  · rw [Function.update_of_ne hij]
    exact (h.slots i).imp_right fun hs => hs.imp fun s hs => ⟨received_snoc.2 (.inl hs.1),hs.2⟩

theorem GroupInv.ignored {before : List Arrival} {a : Arrival} {c : GroupContext}
    (h : GroupInv before c) (hnot : ¬(a.1.original = true ∧ a.1.groupId ≥ c.currGroupId)) :
    GroupInv (before ++ [a]) c := by
  have hlow : a.1.original = true → a.1.groupId < c.currGroupId := fun ho =>
    not_le.1 fun hge => hnot ⟨ho,hge⟩
  have hnever : c.currGroupId ≠ 0 → a.1.original = true →
      ¬ ∀ t, Received before t → t.groupId ≤ a.1.groupId := by
    intro hc ho hall
    obtain ⟨s,hs,hid,_⟩ := h.curr hc
    have := hall s hs.received
    have := hlow ho
    omega
  refine ⟨?_,?_,?_,h.earlier,?_⟩
  · intro s hs
    rcases received_snoc.1 hs with hs | ⟨ho,rfl⟩
    · exact h.highest s hs
    · exact (hlow ho).le
  · intro i
    exact (h.slots i).imp_right fun hs => hs.imp fun s hs => ⟨received_snoc.2 (.inl hs.1),hs.2⟩
  · intro hc
    exact (h.curr hc).snoc_other fun ho hall => absurd hall (hnever hc ho)
  · intro hp hslots
    have hc : c.currGroupId ≠ 0 := (Nat.zero_lt_of_lt (h.earlier hp)).ne'
    exact (h.prev hp hslots).snoc_other fun ho hall => absurd hall (hnever hc ho)

theorem GroupInv.current {before : List Arrival} {a : Arrival} {c : GroupContext}
    (h : GroupInv before c) (ho : a.1.original = true) (hid : a.1.groupId = c.currGroupId) :
    GroupInv (before ++ [a]) (udpCongestionControl c a.1 a.2).1 := by
  have hstep : (udpCongestionControl c a.1 a.2).1 =
      { c with
        groupStats := Function.update c.groupStats (slotOf a.1.groupId)
          (if a.1.departureTime > (c.groupStats (slotOf a.1.groupId)).departureTime then a.1.stats
            else c.groupStats (slotOf a.1.groupId)) } := by
    have hnot : ¬ a.1.groupId > c.currGroupId := by omega
    by_cases hlater : a.1.departureTime > (c.groupStats (slotOf a.1.groupId)).departureTime
    · rw [udpCongestionControl,if_pos hlater,if_pos hlater]
      exact congrArg Prod.fst (if_neg hnot)
    · rw [udpCongestionControl,if_neg hlater,if_neg hlater,Function.update_eq_self]
      exact congrArg Prod.fst (if_neg hnot)
  have hle : ∀ t, Received before t → t.groupId ≤ a.1.groupId := fun t ht =>
    hid ▸ h.highest t ht
  rw [hstep]
  refine ⟨?_,?_,?_,h.earlier,?_⟩
  · intro s hs
    rcases received_snoc.1 hs with hs | ⟨_,rfl⟩
    · exact h.highest s hs
    · exact hid.le
  · intro i
    dsimp only
    split_ifs with hlater
    · exact h.slots_update ho i _
    · rw [Function.update_eq_self]
      exact (h.slots i).imp_right fun hs => hs.imp fun s hs => ⟨received_snoc.2 (.inl hs.1),hs.2⟩
  · intro hc
    dsimp only at hc ⊢
    rw [← hid,Function.update_self]
    have hcurr := h.curr hc
    rw [← hid] at hcurr
    exact hcurr.snoc_same ho hle
  · intro hp hslots
    dsimp only at hp hslots ⊢
    rw [Function.update_of_ne (by rw [hid]; exact hslots)]
    exact (h.prev hp hslots).snoc_other fun _ _ heq => (h.earlier hp).ne (heq.symm.trans hid)

theorem GroupInv.new {before : List Arrival} {a : Arrival} {c : GroupContext}
    (h : GroupInv before c) (hd : Departures (before ++ [a])) (ho : a.1.original = true)
    (hnew : c.currGroupId < a.1.groupId) :
    GroupInv (before ++ [a]) (udpCongestionControl c a.1 a.2).1 := by
  have hstep : (udpCongestionControl c a.1 a.2).1 =
      { groupStats := Function.update c.groupStats (slotOf a.1.groupId) a.1.stats
        prevGroupId := c.currGroupId
        currGroupId := a.1.groupId } := by
    rw [udpCongestionControl,if_pos (h.later hd ho hnew _)]
    exact congrArg Prod.fst (if_pos hnew)
  rw [hstep]
  refine ⟨?_,fun i => h.slots_update ho i _,?_,fun _ => hnew,?_⟩
  · intro s hs
    rcases received_snoc.1 hs with hs | ⟨_,rfl⟩
    · exact (h.highest s hs).trans hnew.le
    · exact le_rfl
  · intro _
    dsimp only
    rw [Function.update_self]
    exact latestOf_first ho fun t ht => (h.highest t ht).trans_lt hnew
  · intro hp hslots
    dsimp only at hp hslots ⊢
    rw [Function.update_of_ne hslots]
    exact (h.curr hp).snoc_other fun _ _ heq => hnew.ne heq.symm

theorem GroupInv.step {before : List Arrival} {a : Arrival} {c : GroupContext}
    (h : GroupInv before c) (hd : Departures (before ++ [a])) :
    GroupInv (before ++ [a]) (groupStep c a) := by
  rw [groupStep,takeVideoSegment]
  split_ifs with htaken
  · rcases htaken.2.eq_or_lt with hid | hnew
    · exact h.current htaken.1 hid.symm
    · exact h.new hd htaken.1 hnew
  · exact h.ignored htaken

theorem Departures.left {before after : List Arrival} (h : Departures (before ++ after)) :
    Departures before := by
  have hsub : ∀ s, Received before s → Received (before ++ after) s := by
    rintro s ⟨ho,timer,hmem⟩
    exact ⟨ho,timer,List.mem_append_left _ hmem⟩
  exact ⟨fun s hs => h.positive s (hsub s hs),fun s t hs ht =>
    h.increasing s t (hsub s hs) (hsub t ht)⟩

theorem groupInv_run {before : List Arrival} (hd : Departures before) :
    GroupInv before (contextAt before) := by
  induction before using List.reverseRecOn with
  | nil => exact groupInv_start
  | append_singleton before a ih =>
    rw [contextAt,List.foldl_append]
    exact (ih hd.left).step hd

/-- A call reads the slots of the two groups after that of the new one was written. -/
theorem callAt_eq_some {before : List Arrival} {a : Arrival} {call : ControllerCall}
    (h : callAt before a = some call) :
    a.1.original = true ∧ (contextAt before).currGroupId < a.1.groupId ∧
    (contextAt before).prevGroupId ≠ 0 ∧
    ∀ g, slotOf g ≠ slotOf a.1.groupId →
      ((g = (contextAt before).currGroupId →
          call.currGroupStats = (contextAt before).groupStats (slotOf g)) ∧
        (g = (contextAt before).prevGroupId →
          call.prevGroupStats = (contextAt before).groupStats (slotOf g))) := by
  rw [callAt,takeVideoSegment,← contextAt] at h
  split_ifs at h with htaken
  rw [udpCongestionControl] at h
  have hkept : ∀ g, slotOf g ≠ slotOf a.1.groupId →
      ∀ stats, Function.update (contextAt before).groupStats (slotOf a.1.groupId) stats (slotOf g) =
        (contextAt before).groupStats (slotOf g) := fun g hg stats => Function.update_of_ne hg _ _
  -- without a later group or a call there is nothing to show
  split_ifs at h with hlater hnew hcall hnew hcall
  · cases h
    refine ⟨htaken.1,hnew,hcall.1,fun g hg => ⟨?_,?_⟩⟩
    · rintro rfl
      exact hkept _ hg _
    · rintro rfl
      exact hkept _ hg _
  · cases h
    refine ⟨htaken.1,hnew,hcall.1,fun g hg => ⟨?_,?_⟩⟩
    · rintro rfl
      rfl
    · rintro rfl
      rfl

/-- Whenever the controller is called for a group whose slot and those of the two groups before
are three, it is given what the latest-departed segments of these two groups say, and the
earlier group departed earlier. -/
theorem group_stats_belong {arrivals : List Arrival} (hd : Departures arrivals)
    {before after : List Arrival} {a : Arrival} (hsplit : arrivals = before ++ a :: after)
    {call : ControllerCall} (hcall : callAt before a = some call)
    (hcurr : slotOf (contextAt before).currGroupId ≠ slotOf a.1.groupId)
    (hprev : slotOf (contextAt before).prevGroupId ≠ slotOf a.1.groupId)
    (hapart : slotOf (contextAt before).prevGroupId ≠ slotOf (contextAt before).currGroupId) :
    LatestOf (InOrder (before ++ [a])) (contextAt before).currGroupId call.currGroupStats ∧
    LatestOf (InOrder (before ++ [a])) (contextAt before).prevGroupId call.prevGroupStats ∧
    call.prevGroupStats.departureTime < call.currGroupStats.departureTime := by
  subst hsplit
  have hinv := groupInv_run hd.left
  obtain ⟨_,hnew,hpositive,hread⟩ := callAt_eq_some hcall
  have hearlier := hinv.earlier hpositive
  have hc : LatestOf (InOrder before) (contextAt before).currGroupId call.currGroupStats := by
    rw [(hread _ hcurr).1 rfl]
    exact hinv.curr (Nat.zero_lt_of_lt hearlier).ne'
  have hp : LatestOf (InOrder before) (contextAt before).prevGroupId call.prevGroupStats := by
    rw [(hread _ hprev).2 rfl]
    exact hinv.prev hpositive hapart
  refine ⟨hc.snoc_other fun _ _ heq => hnew.ne heq.symm,
    hp.snoc_other fun _ _ heq => (hearlier.trans hnew).ne heq.symm,?_⟩
  obtain ⟨s,hs,hsid,hstats,_⟩ := hc
  obtain ⟨t,ht,htid,hstats',_⟩ := hp
  rw [hstats,hstats']
  exact hd.left.increasing t s ht.received hs.received (by rw [htid,hsid]; exact hearlier)

theorem departures_of_forall {arrivals : List Arrival}
    (h : ∀ a ∈ arrivals, 0 < a.1.departureTime ∧
      ∀ b ∈ arrivals, a.1.groupId < b.1.groupId → a.1.departureTime < b.1.departureTime) :
    Departures arrivals where
  positive s hs := by
    obtain ⟨_,timer,hmem⟩ := hs
    exact (h _ hmem).1
  increasing s t hs ht := by
    obtain ⟨_,timer,hs⟩ := hs
    obtain ⟨_,timer',ht⟩ := ht
    exact (h _ hs).2 _ ht

def orderedArrivals : List Arrival :=
  [(⟨1,10,15,false,false⟩,true),(⟨1,12,16,false,false⟩,true),(⟨2,20,25,false,false⟩,true)]

def thirdGroup : Arrival := (⟨3,30,35,false,false⟩,true)

theorem group_stats_belong_ordered :
    LatestOf (InOrder (orderedArrivals ++ [thirdGroup])) 2 ⟨20,25⟩ ∧
    LatestOf (InOrder (orderedArrivals ++ [thirdGroup])) 1 ⟨12,16⟩ ∧ (12 : UInt64) < 20 :=
  @group_stats_belong (orderedArrivals ++ [thirdGroup]) (departures_of_forall (by decide))
    orderedArrivals [] thirdGroup rfl ⟨⟨20,25⟩,⟨12,16⟩⟩ rfl (by decide) (by decide) (by decide)

/-- A segment of the first group comes after the second group. -/
def lateArrivals : List Arrival :=
  [(⟨1,10,15,false,false⟩,true),(⟨2,20,25,false,false⟩,true),(⟨1,12,26,false,false⟩,true)]

/-- The statistics of the first group are not those of its latest-departed segment received. -/
theorem late_segment_not_in_stats : Departures (lateArrivals ++ [thirdGroup]) ∧
    ∃ call, callAt lateArrivals thirdGroup = some call ∧
      (contextAt lateArrivals).prevGroupId = 1 ∧
      ¬ LatestOf (Received (lateArrivals ++ [thirdGroup])) 1 call.prevGroupStats := by
  refine ⟨departures_of_forall (by decide),⟨⟨20,25⟩,⟨10,15⟩⟩,rfl,rfl,?_⟩
  rintro ⟨s,_,_,hstats,hmax⟩
  have hlate := hmax ⟨1,12,26,false,false⟩ ⟨rfl,true,by simp [lateArrivals]⟩ rfl
  have hdeparture : (10 : UInt64) = s.departureTime := congrArg GroupStats.departureTime hstats
  rw [← hdeparture] at hlate
  exact absurd hlate (by decide)

end Whist.Wcc
