import Whist.Video.Ltr

/-! # What the ack and nack walks do to the lists -/
namespace Whist.Ltr

def LtrState.withLists (ltr : LtrState) (inflight done : List LtrFrame) : LtrState :=
  { ltr with inflightList := inflight, doneList := done }

@[simp] theorem withLists_inflightList (ltr : LtrState) (i d : List LtrFrame) :
    (ltr.withLists i d).inflightList = i := rfl
@[simp] theorem withLists_doneList (ltr : LtrState) (i d : List LtrFrame) :
    (ltr.withLists i d).doneList = d := rfl
@[simp] theorem withLists_pendingList (ltr : LtrState) (i d : List LtrFrame) :
    (ltr.withLists i d).pendingList = ltr.pendingList := rfl
@[simp] theorem withLists_withLists (ltr : LtrState) (i d i' d' : List LtrFrame) :
    (ltr.withLists i d).withLists i' d' = ltr.withLists i' d' := rfl
theorem withLists_self (ltr : LtrState) : ltr.withLists ltr.inflightList ltr.doneList = ltr := rfl

theorem ltrAckFlags_withLists (ltr : LtrState) (i d : List LtrFrame) (f : LtrFrame) :
    ltrAckFlags (ltr.withLists i d) f = (ltrAckFlags ltr f).withLists i d := by
  unfold ltrAckFlags LtrState.withLists
  cases f.action.frameType <;> dsimp only <;> split_ifs <;> rfl

theorem ltrNackFlags_withLists (ltr : LtrState) (i d : List LtrFrame) (f : LtrFrame) :
    ltrNackFlags (ltr.withLists i d) f = (ltrNackFlags ltr f).withLists i d := by
  unfold ltrNackFlags LtrState.withLists
  cases f.action.frameType <;> dsimp only <;> split_ifs <;> rfl

@[simp] theorem ltrAckFlags_pendingList (ltr : LtrState) (f : LtrFrame) :
    (ltrAckFlags ltr f).pendingList = ltr.pendingList := by
  unfold ltrAckFlags
  cases f.action.frameType <;> dsimp only <;> split_ifs <;> rfl

@[simp] theorem ltrNackFlags_pendingList (ltr : LtrState) (f : LtrFrame) :
    (ltrNackFlags ltr f).pendingList = ltr.pendingList := by
  unfold ltrNackFlags
  cases f.action.frameType <;> dsimp only <;> split_ifs <;> rfl

def UniqueCounters (ltr : LtrState) : Prop :=
  ((ltr.inflightList ++ ltr.doneList ++ ltr.pendingList).map LtrFrame.frameCounter).Nodup

section Focus
variable {ltr : LtrState} {pre post : List LtrFrame} {f : LtrFrame}

theorem find_focus {l r : List LtrFrame}
    (hn : ((l ++ f :: r).map LtrFrame.frameCounter).Nodup) :
    (l ++ f :: r).find? (fun g => g.frameCounter = f.frameCounter) = some f := by
  induction l with
  | nil => simp
  | cons g l ih =>
    simp only [List.cons_append, List.map_cons, List.nodup_cons] at hn
    have hne : g.frameCounter ≠ f.frameCounter := by
      intro he
      exact hn.1 (he ▸ List.mem_map_of_mem (by simp))
    rw [List.cons_append, List.find?_cons_of_neg (by simpa using hne)]
    exact ih hn.2

theorem map_focus {l r : List LtrFrame} (write : LtrFrame → LtrFrame)
    (hn : ((l ++ f :: r).map LtrFrame.frameCounter).Nodup) :
    (l ++ f :: r).map (fun g => if g.frameCounter = f.frameCounter then write g else g) =
      l ++ write f :: r := by
  have hne : ∀ g ∈ l ++ r, g.frameCounter ≠ f.frameCounter := by
    intro g hg he
    have hp := (List.perm_middle.map LtrFrame.frameCounter).nodup_iff.mp hn
    rw [List.map_cons, List.nodup_cons] at hp
    exact hp.1 (he ▸ List.mem_map_of_mem hg)
  have hid : ∀ m : List LtrFrame, (∀ g ∈ m, g.frameCounter ≠ f.frameCounter) →
      m.map (fun g => if g.frameCounter = f.frameCounter then write g else g) = m := by
    intro m hm
    conv_rhs => rw [← List.map_id m]
    exact List.map_congr_left (fun g hg => if_neg (hm g hg))
  rw [List.map_append, List.map_cons, if_pos rfl,
    hid l (fun g hg => hne g (List.mem_append_left _ hg)),
    hid r (fun g hg => hne g (List.mem_append_right _ hg))]

theorem filter_focus {l r : List LtrFrame}
    (hn : ((l ++ f :: r).map LtrFrame.frameCounter).Nodup) :
    (l ++ f :: r).filter (fun g => g.frameCounter ≠ f.frameCounter) = l ++ r := by
  have hne : ∀ g ∈ l ++ r, g.frameCounter ≠ f.frameCounter := by
    intro g hg he
    have hp := (List.perm_middle.map LtrFrame.frameCounter).nodup_iff.mp hn
    rw [List.map_cons, List.nodup_cons] at hp
    exact hp.1 (he ▸ List.mem_map_of_mem hg)
  rw [List.filter_append, List.filter_cons_of_neg (by simp), ← List.filter_append]
  exact List.filter_eq_self.mpr (fun g hg => by simpa using hne g hg)

theorem UniqueCounters.inflight (hu : UniqueCounters ltr) :
    (ltr.inflightList.map LtrFrame.frameCounter).Nodup := by
  rw [UniqueCounters, List.append_assoc, List.map_append] at hu
  exact hu.of_append_left

theorem frameAt_focus (hu : UniqueCounters ltr) (hin : ltr.inflightList = pre ++ f :: post) :
    ltr.frameAt f.frameCounter = some f := by
  rw [UniqueCounters, hin] at hu
  rw [LtrState.frameAt, hin]
  simp only [List.append_assoc, List.cons_append] at hu ⊢
  exact find_focus hu

theorem modify_focus (hu : UniqueCounters ltr) (hin : ltr.inflightList = pre ++ f :: post)
    (write : LtrFrame → LtrFrame) :
    ltr.modify f.frameCounter write = ltr.withLists (pre ++ write f :: post) ltr.doneList := by
  rw [UniqueCounters, hin] at hu
  have hall := @map_focus f pre (post ++ ltr.doneList ++ ltr.pendingList) write
    (by simpa only [List.append_assoc, List.cons_append] using hu)
  simp only [List.map_append, List.map_cons, if_pos] at hall
  have hlen : ∀ m : List LtrFrame,
      (m.map (fun g => if g.frameCounter = f.frameCounter then write g else g)).length = m.length :=
    fun m => List.length_map _
  obtain ⟨hpre,hrest⟩ := List.append_inj hall (hlen pre)
  obtain ⟨-,hrest⟩ := List.cons.inj hrest
  obtain ⟨hrest,hpending⟩ := List.append_inj hrest (by simp)
  obtain ⟨hpost,hdone⟩ := List.append_inj hrest (hlen post)
  simp only [LtrState.modify, LtrState.withLists, hin, List.map_append, List.map_cons, if_pos,
    hpre, hpost, hdone, hpending]

theorem moveToDone_focus (hu : UniqueCounters ltr) (hin : ltr.inflightList = pre ++ f :: post) :
    ltr.moveToDone f.frameCounter = .ok (ltr.withLists (pre ++ post) (ltr.doneList ++ [f])) := by
  have hi := hu.inflight
  rw [hin] at hi
  have hne : pre ++ f :: post ≠ [] := by simp
  rw [LtrState.moveToDone, frameAt_focus hu hin]
  simp only [linkedListRemove, hin, if_neg hne, filter_focus hi]
  rfl

theorem UniqueCounters.withLists_of_count (hu : UniqueCounters ltr) {ltr' : LtrState}
    {i d : List LtrFrame} (hp : ltr'.pendingList = ltr.pendingList)
    (h : ∀ c, ((i ++ d).map LtrFrame.frameCounter).count c =
      ((ltr.inflightList ++ ltr.doneList).map LtrFrame.frameCounter).count c) :
    UniqueCounters (ltr'.withLists i d) := by
  rw [UniqueCounters, List.map_append] at hu ⊢
  simp only [withLists_inflightList, withLists_doneList, withLists_pendingList, hp]
  exact ((List.perm_iff_count.mpr h).append_right _).nodup_iff.mpr hu

end Focus

def Contiguous (list : List LtrFrame) : Prop :=
  list.Pairwise (fun f g => f.frameCounter < g.frameCounter) ∧
  ∀ f ∈ list, ∀ g ∈ list, g.referenceFrameCounter = f.frameCounter →
    g.frameCounter = f.frameCounter + 1

theorem Contiguous.sublist {l m : List LtrFrame} (h : Contiguous m) (hs : l.Sublist m) :
    Contiguous l :=
  ⟨h.1.sublist hs,fun f hf g hg => h.2 f (hs.subset hf) g (hs.subset hg)⟩

theorem Contiguous.reference_ne {f g x : LtrFrame} {rest : List LtrFrame}
    (h : Contiguous (f :: g :: rest)) (hx : x ∈ rest) :
    x.referenceFrameCounter ≠ f.frameCounter := by
  intro he
  have hn := h.2 f (by simp) x (by simp [hx]) he
  obtain ⟨hf,hg⟩ := List.pairwise_cons.mp h.1
  have hfg := hf g (by simp)
  have hgx := (List.pairwise_cons.mp hg).1 x hx
  omega

def setAck (f : LtrFrame) : LtrFrame := { f with ack := true }
def setNack (f : LtrFrame) : LtrFrame := { f with nack := true }
@[simp] theorem setAck_frameCounter (f : LtrFrame) : (setAck f).frameCounter = f.frameCounter := rfl
@[simp] theorem setNack_frameCounter (f : LtrFrame) :
    (setNack f).frameCounter = f.frameCounter := rfl
@[simp] theorem setNack_referenceFrameCounter (f : LtrFrame) :
    (setNack f).referenceFrameCounter = f.referenceFrameCounter := rfl

theorem map_setAck_frameCounter (l : List LtrFrame) :
    (l.map setAck).map LtrFrame.frameCounter = l.map LtrFrame.frameCounter := by
  simp [Function.comp_def]

theorem map_setNack_frameCounter (l : List LtrFrame) :
    (l.map setNack).map LtrFrame.frameCounter = l.map LtrFrame.frameCounter := by
  simp [Function.comp_def]

/-- The references an ack of a frame referring to `ref` reaches, nearest first,
and the untouched rest; the list is the reversed prefix before the frame. -/
def ackRun : List LtrFrame → ℕ → List LtrFrame × List LtrFrame
  | [], _ => ([],[])
  | g :: rest, ref =>
    if g.frameCounter = ref then
      let r := ackRun rest g.referenceFrameCounter
      (g :: r.1,r.2)
    else ([],g :: rest)

theorem ackRun_append (l : List LtrFrame) (ref : ℕ) : (ackRun l ref).1 ++ (ackRun l ref).2 = l := by
  induction l generalizing ref with
  | nil => rfl
  | cons g rest ih =>
    rw [ackRun]
    split
    · simp [ih]
    · rfl

theorem foldl_ackFlags_withLists (ltr : LtrState) (i d fs : List LtrFrame) :
    fs.foldl ltrAckFlags (ltr.withLists i d) = (fs.foldl ltrAckFlags ltr).withLists i d := by
  induction fs generalizing ltr with
  | nil => rfl
  | cons f fs ih => rw [List.foldl_cons, List.foldl_cons, ltrAckFlags_withLists, ih]

theorem foldl_nackFlags_withLists (ltr : LtrState) (i d fs : List LtrFrame) :
    fs.foldl ltrNackFlags (ltr.withLists i d) = (fs.foldl ltrNackFlags ltr).withLists i d := by
  induction fs generalizing ltr with
  | nil => rfl
  | cons f fs ih => rw [List.foldl_cons, List.foldl_cons, ltrNackFlags_withLists, ih]

@[simp] theorem foldl_ackFlags_pendingList (ltr : LtrState) (fs : List LtrFrame) :
    (fs.foldl ltrAckFlags ltr).pendingList = ltr.pendingList := by
  induction fs generalizing ltr with
  | nil => rfl
  | cons f fs ih => rw [List.foldl_cons, ih, ltrAckFlags_pendingList]

@[simp] theorem foldl_nackFlags_pendingList (ltr : LtrState) (fs : List LtrFrame) :
    (fs.foldl ltrNackFlags ltr).pendingList = ltr.pendingList := by
  induction fs generalizing ltr with
  | nil => rfl
  | cons f fs ih => rw [List.foldl_cons, ih, ltrNackFlags_pendingList]

theorem ltrFindReference_eq {rpre post : List LtrFrame} {f f' : LtrFrame}
    (hn : ((rpre.reverse ++ f' :: post).map LtrFrame.frameCounter).Nodup)
    (hf : f'.frameCounter = f.frameCounter) (hc : Contiguous (rpre.reverse ++ [f])) :
    ltrFindReference (rpre.reverse ++ f' :: post) f =
      (rpre.head?.filter (fun g => g.frameCounter = f.referenceFrameCounter)).map
        LtrFrame.frameCounter := by
  have hpre : ∀ g ∈ rpre.reverse, decide (g.frameCounter ≠ f.frameCounter) = true := by
    intro g hg
    have hlt := (List.pairwise_append.mp hc.1).2.2 g hg f (by simp)
    simp only [ne_eq, decide_not, Bool.not_eq_true', decide_eq_false_iff_not]
    omega
  have htake : (rpre.reverse ++ f' :: post).takeWhile
      (fun g => decide (g.frameCounter ≠ f.frameCounter)) = rpre.reverse := by
    rw [List.takeWhile_append_of_pos hpre, List.takeWhile_cons_of_neg (by simp [hf]),
      List.append_nil]
  rw [ltrFindReference, htake, List.reverse_reverse]
  cases rpre with
  | nil => rfl
  | cons g rest =>
    by_cases hg : g.frameCounter = f.referenceFrameCounter
    · simp [hg]
    · have hrest : rest.find? (fun h => decide (h.frameCounter = f.referenceFrameCounter)) = none := by
        apply List.find?_eq_none.mpr
        intro h hh he
        have he := of_decide_eq_true he
        have hs := hc.2 h (by simp [hh]) f (by simp) he.symm
        have hp := List.pairwise_append.mp hc.1
        have hgf := hp.2.2 g (by simp) f (by simp)
        rw [List.reverse_cons, List.pairwise_append] at hp
        have hhg := hp.1.2.2 h (by simpa using hh) g (by simp)
        omega
      simp [hg,hrest]

/-- One call of the ack walk, with the writes to `frame` made explicit. -/
theorem ltrAckFrameInternal_step {rpre post : List LtrFrame} {f : LtrFrame} {ltr : LtrState}
    (fuel : ℕ) (hu : UniqueCounters ltr) (hin : ltr.inflightList = rpre.reverse ++ f :: post)
    (hc : Contiguous (rpre.reverse ++ [f])) (hack : f.ack = false) (hnack : f.nack = false)
    {acked : LtrState}
    (hacked : acked =
      (ltrAckFlags ltr f).withLists (rpre.reverse ++ setAck f :: post) ltr.doneList) :
    UniqueCounters acked ∧
    ltrAckFrameInternal (fuel + 1) ltr f.frameCounter =
      match rpre.head?.filter (fun g => g.frameCounter = f.referenceFrameCounter) with
      | none => acked.moveToDone f.frameCounter
      | some g =>
        match ltrAckFrameInternal fuel acked g.frameCounter with
        | .error e => .error e
        | .ok ltr => ltr.moveToDone f.frameCounter := by
  have hua : UniqueCounters acked := by
    rw [hacked]
    exact hu.withLists_of_count (ltrAckFlags_pendingList _ _) (by simp [hin])
  refine ⟨hua,?_⟩
  have hmod : ltrAckFlags (ltr.modify f.frameCounter (fun f => { f with ack := true })) f = acked := by
    rw [hacked, modify_focus hu hin, ltrAckFlags_withLists]
    rfl
  have hia : acked.inflightList = rpre.reverse ++ setAck f :: post := by rw [hacked]; rfl
  have href := @ltrFindReference_eq rpre post f (setAck f) (hia ▸ hua.inflight) rfl hc
  rw [ltrAckFrameInternal, frameAt_focus hu hin]
  simp only [hack, hnack, hmod, hia, href, Bool.false_eq_true, if_false]
  all_goals
    cases rpre.head?.filter (fun g => decide (g.frameCounter = f.referenceFrameCounter)) <;> rfl

/-- Acking an in-flight frame acks the run of references ending at it and moves
that run, oldest first, to the done list. -/
theorem ltrAckFrameInternal_eq {rpre post : List LtrFrame} {f : LtrFrame} {ltr : LtrState}
    {fuel : ℕ} (hfuel : rpre.length < fuel) (hu : UniqueCounters ltr)
    (hin : ltr.inflightList = rpre.reverse ++ f :: post)
    (hc : Contiguous (rpre.reverse ++ [f]))
    (hflags : ∀ g ∈ f :: rpre, g.ack = false ∧ g.nack = false) :
    ltrAckFrameInternal fuel ltr f.frameCounter =
      .ok (((f :: (ackRun rpre f.referenceFrameCounter).1).foldl ltrAckFlags ltr).withLists
        ((ackRun rpre f.referenceFrameCounter).2.reverse ++ post)
        (ltr.doneList ++
          ((ackRun rpre f.referenceFrameCounter).1.reverse ++ [f]).map setAck)) := by
  induction rpre generalizing f ltr fuel post with
  | nil =>
    obtain ⟨fuel,rfl⟩ : ∃ k, fuel = k + 1 := ⟨fuel - 1,by simp at hfuel; omega⟩
    obtain ⟨hack,hnack⟩ := hflags f (by simp)
    obtain ⟨hua,hstep⟩ := ltrAckFrameInternal_step fuel hu hin hc hack hnack rfl
    rw [hstep]
    exact moveToDone_focus (f := setAck f) hua rfl
  | cons g rest ih =>
    obtain ⟨fuel,rfl⟩ : ∃ k, fuel = k + 1 := ⟨fuel - 1,by simp at hfuel; omega⟩
    obtain ⟨hack,hnack⟩ := hflags f (by simp)
    obtain ⟨hua,hstep⟩ := ltrAckFrameInternal_step fuel hu hin hc hack hnack rfl
    rw [hstep, ackRun]
    by_cases hg : g.frameCounter = f.referenceFrameCounter
    · simp only [List.head?_cons, Option.filter_some, hg, decide_true, if_true]
      have hih := @ih (setAck f :: post) g _ fuel (by simpa using hfuel) hua
        (by simp) (hc.sublist (by simp)) (fun h hh => hflags h (List.mem_cons_of_mem _ hh))
      rw [hg] at hih
      rw [hih]
      dsimp only
      have huf : UniqueCounters
          (((f :: g :: (ackRun rest g.referenceFrameCounter).1).foldl ltrAckFlags ltr).withLists
            ((ackRun rest g.referenceFrameCounter).2.reverse ++ setAck f :: post)
            (ltr.doneList ++
              ((ackRun rest g.referenceFrameCounter).1.reverse ++ [g]).map setAck)) := by
        apply hu.withLists_of_count (foldl_ackFlags_pendingList _ _)
        intro c
        have hr := congrArg List.reverse (ackRun_append rest g.referenceFrameCounter)
        rw [hin, List.reverse_cons, ← hr]
        simp only [List.reverse_append, List.map_append, List.map_cons, map_setAck_frameCounter,
          setAck_frameCounter, List.count_append, List.count_cons, List.map_nil, List.count_nil]
        omega
      have hmove := moveToDone_focus (f := setAck f) huf rfl
      rw [foldl_ackFlags_withLists]
      simp only [withLists_withLists, withLists_doneList, setAck_frameCounter,
        List.foldl_cons] at hmove ⊢
      rw [hmove]
      simp
    · simp only [List.head?_cons, Option.filter_some, hg, decide_false, if_false]
      have hmove := moveToDone_focus (f := setAck f) hua rfl
      rw [setAck_frameCounter] at hmove
      simpa using hmove

/-- The dependents a nack of the frame with counter `c` reaches, nearest first,
and the untouched rest; the list is the suffix behind the frame. -/
def nackRun : List LtrFrame → ℕ → List LtrFrame × List LtrFrame
  | [], _ => ([],[])
  | g :: rest, c =>
    if g.referenceFrameCounter = c then
      let r := nackRun rest g.frameCounter
      (g :: r.1,r.2)
    else ([],g :: rest)

theorem nackRun_append (l : List LtrFrame) (c : ℕ) : (nackRun l c).1 ++ (nackRun l c).2 = l := by
  induction l generalizing c with
  | nil => rfl
  | cons g rest ih =>
    rw [nackRun]
    split
    · simp [ih]
    · rfl

theorem linkedListNext_focus {l r : List LtrFrame} {f : LtrFrame}
    (hn : ((l ++ f :: r).map LtrFrame.frameCounter).Nodup) :
    linkedListNext (l ++ f :: r) f.frameCounter = r.head?.map LtrFrame.frameCounter := by
  induction l with
  | nil => cases r <;> simp [linkedListNext]
  | cons g l ih =>
    simp only [List.cons_append, List.map_cons, List.nodup_cons] at hn
    have hne : g.frameCounter ≠ f.frameCounter := by
      intro he
      exact hn.1 (he ▸ List.mem_map_of_mem (by simp))
    cases l with
    | nil => simpa [linkedListNext, hne] using ih hn.2
    | cons h l => simpa [linkedListNext, hne] using ih hn.2

theorem next_focus {ltr : LtrState} {pre post : List LtrFrame} {f : LtrFrame}
    (hu : UniqueCounters ltr) (hin : ltr.inflightList = pre ++ f :: post) :
    ltr.next f.frameCounter = post.head?.map LtrFrame.frameCounter := by
  have hany : ltr.inflightList.any (fun g => g.frameCounter = f.frameCounter) = true := by
    simp [hin]
  rw [LtrState.next, if_pos hany, hin]
  exact linkedListNext_focus (hin ▸ hu.inflight)

theorem done_focus {ltr : LtrState} {pre post : List LtrFrame} {f : LtrFrame}
    (hu : UniqueCounters ltr) (hd : ltr.doneList = pre ++ f :: post) :
    ltr.frameAt f.frameCounter = some f ∧
      ltr.next f.frameCounter = post.head?.map LtrFrame.frameCounter := by
  have hu' := hu
  rw [UniqueCounters, hd] at hu'
  constructor
  · rw [LtrState.frameAt, hd]
    have hfind := @find_focus f (ltr.inflightList ++ pre) (post ++ ltr.pendingList)
      (by simpa only [List.append_assoc, List.cons_append] using hu')
    simpa only [List.append_assoc, List.cons_append] using hfind
  · have hany : ltr.inflightList.any (fun g => g.frameCounter = f.frameCounter) = false := by
      rw [List.any_eq_false]
      intro g hg he
      simp only [List.append_assoc, List.map_append, List.map_cons] at hu'
      exact List.disjoint_of_nodup_append hu' (List.mem_map_of_mem hg)
        (by simp [of_decide_eq_true he])
    have hdone : ltr.doneList.any (fun g => g.frameCounter = f.frameCounter) = true := by simp [hd]
    rw [UniqueCounters, List.map_append, List.map_append] at hu
    rw [LtrState.next, hany, if_neg Bool.false_ne_true, if_pos hdone, hd]
    exact linkedListNext_focus (hd ▸ hu.of_append_left.of_append_right)

def Followed (ltr : LtrState) (seg : List LtrFrame) : Prop :=
  (∃ pre, ltr.inflightList = pre ++ seg) ∨ ∃ pre, ltr.doneList = pre ++ seg

theorem Followed.cons {ltr : LtrState} {f : LtrFrame} {seg : List LtrFrame}
    (hu : UniqueCounters ltr) (h : Followed ltr (f :: seg)) :
    ltr.frameAt f.frameCounter = some f ∧
      ltr.next f.frameCounter = seg.head?.map LtrFrame.frameCounter ∧ Followed ltr seg := by
  rcases h with ⟨pre,h⟩ | ⟨pre,h⟩
  · exact ⟨frameAt_focus hu h,next_focus hu h,Or.inl ⟨pre ++ [f],by simp [h]⟩⟩
  · exact ⟨(done_focus hu h).1,(done_focus hu h).2,Or.inr ⟨pre ++ [f],by simp [h]⟩⟩

theorem ltrNackWalk_idle (nackFrame : LtrState → ℕ → Except LtrFatal LtrState) {c steps : ℕ}
    {ltr : LtrState} {seg : List LtrFrame} (hu : UniqueCounters ltr) (hs : Followed ltr seg)
    (hlen : seg.length ≤ steps) (hne : ∀ g ∈ seg, g.referenceFrameCounter ≠ c) :
    ltrNackWalk nackFrame c steps ltr (seg.head?.map LtrFrame.frameCounter) = .ok ltr := by
  induction seg generalizing steps with
  | nil => simp [ltrNackWalk]
  | cons g seg ih =>
    obtain ⟨steps,rfl⟩ : ∃ k, steps = k + 1 := ⟨steps - 1,by simp at hlen; omega⟩
    obtain ⟨hat,hnext,htail⟩ := hs.cons hu
    simp only [List.head?_cons, Option.map_some, ltrNackWalk, hat, hnext,
      if_neg (hne g (by simp))]
    exact ih htail (by simpa using hlen) (fun h hh => hne h (List.mem_cons_of_mem _ hh))

theorem ltrNackFrameInternal_step {pre post : List LtrFrame} {f : LtrFrame} {ltr : LtrState}
    (fuel : ℕ) (hu : UniqueCounters ltr)
    (hin : ltr.inflightList = pre ++ f :: post) (hack : f.ack = false) (hnack : f.nack = false)
    {nacked : LtrState}
    (hnacked : nacked =
      (ltrNackFlags ltr f).withLists (pre ++ post) (ltr.doneList ++ [setNack f])) :
    UniqueCounters nacked ∧
    ltrNackFrameInternal (fuel + 1) ltr f.frameCounter false =
      match ltrNackWalk (fun ltr ref => ltrNackFrameInternal fuel ltr ref false) f.frameCounter
        nacked.numFrames nacked (post.head?.map LtrFrame.frameCounter) with
      | .error e => .error e
      | .ok ltr =>
        ltrNackWalk (fun ltr ref => ltrNackFrameInternal fuel ltr ref true) f.frameCounter
          ltr.numFrames ltr (ltr.pendingList.head?.map LtrFrame.frameCounter) := by
  have hpf : (ltrNackFlags ltr f).pendingList = ltr.pendingList := ltrNackFlags_pendingList _ _
  have hum : UniqueCounters
      ((ltrNackFlags ltr f).withLists (pre ++ setNack f :: post) ltr.doneList) :=
    hu.withLists_of_count hpf (by simp [hin])
  have hmod : ltrNackFlags (ltr.modify f.frameCounter (fun f => { f with nack := true })) f =
      (ltrNackFlags ltr f).withLists (pre ++ setNack f :: post) ltr.doneList := by
    rw [modify_focus hu hin, ltrNackFlags_withLists]
    rfl
  have hnext := next_focus (f := setNack f) hum rfl
  have hmove := moveToDone_focus (f := setNack f) hum rfl
  simp only [withLists_withLists, withLists_doneList, setNack_frameCounter, ← hnacked]
    at hnext hmove
  refine ⟨?_,?_⟩
  · rw [hnacked]
    apply hu.withLists_of_count hpf
    intro c
    simp only [hin, List.map_append, List.map_cons, setNack_frameCounter, List.count_append,
      List.count_cons, List.map_nil, List.count_nil]
    omega
  · rw [ltrNackFrameInternal, frameAt_focus hu hin]
    simp only [hack, hnack, hmod, hnext, hmove, Bool.false_eq_true, if_false]
    all_goals
      cases ltrNackWalk (fun ltr ref => ltrNackFrameInternal fuel ltr ref false) f.frameCounter
        nacked.numFrames nacked (post.head?.map LtrFrame.frameCounter) <;> rfl

theorem Contiguous.tail {f : LtrFrame} {rest : List LtrFrame} (h : Contiguous (f :: rest)) :
    Contiguous rest := h.sublist (List.sublist_cons_self f rest)

theorem le_numFrames {ltr : LtrState} {pre post : List LtrFrame}
    (hin : ltr.inflightList = pre ++ post) : post.length ≤ ltr.numFrames := by
  simp only [LtrState.numFrames, hin, List.length_append]
  omega

/-- Nacking an in-flight frame nacks the run of dependents starting at it and
moves that run to the done list. -/
theorem ltrNackFrameInternal_eq {pre post : List LtrFrame} {f : LtrFrame} {ltr : LtrState}
    {fuel : ℕ} (hfuel : post.length < fuel) (hu : UniqueCounters ltr)
    (hp : ltr.pendingList = []) (hin : ltr.inflightList = pre ++ f :: post)
    (hc : Contiguous (f :: post)) (hflags : ∀ g ∈ f :: post, g.ack = false ∧ g.nack = false) :
    ltrNackFrameInternal fuel ltr f.frameCounter false =
      .ok (((f :: (nackRun post f.frameCounter).1).foldl ltrNackFlags ltr).withLists
        (pre ++ (nackRun post f.frameCounter).2)
        (ltr.doneList ++ (f :: (nackRun post f.frameCounter).1).map setNack)) := by
  induction post generalizing f ltr fuel with
  | nil =>
    obtain ⟨fuel,rfl⟩ : ∃ k, fuel = k + 1 := ⟨fuel - 1,by simp at hfuel; omega⟩
    obtain ⟨hack,hnack⟩ := hflags f (by simp)
    obtain ⟨-,hstep⟩ := ltrNackFrameInternal_step fuel hu hin hack hnack rfl
    rw [hstep]
    simp [ltrNackWalk, nackRun, hp]
  | cons g rest ih =>
    obtain ⟨fuel,rfl⟩ : ∃ k, fuel = k + 1 := ⟨fuel - 1,by simp at hfuel; omega⟩
    obtain ⟨hack,hnack⟩ := hflags f (by simp)
    obtain ⟨nacked,hnacked⟩ : ∃ nacked, nacked =
      (ltrNackFlags ltr f).withLists (pre ++ g :: rest) (ltr.doneList ++ [setNack f]) := ⟨_,rfl⟩
    obtain ⟨hun,hstep⟩ := ltrNackFrameInternal_step fuel hu hin hack hnack hnacked
    have hni : nacked.inflightList = pre ++ g :: rest := by rw [hnacked]; rfl
    have hnd : nacked.doneList = ltr.doneList ++ [setNack f] := by rw [hnacked]; rfl
    have hnp : nacked.pendingList = [] := by rw [hnacked]; simpa using hp
    have hsteps := le_numFrames hni
    obtain ⟨steps,hs⟩ : ∃ k, nacked.numFrames = k + 1 :=
      ⟨nacked.numFrames - 1,by simp at hsteps; omega⟩
    have hne : ∀ x ∈ rest, x.referenceFrameCounter ≠ f.frameCounter :=
      fun x hx => hc.reference_ne hx
    have hlen : rest.length ≤ steps := by simp at hsteps; omega
    rw [hstep, nackRun, hs, List.head?_cons, Option.map_some, ltrNackWalk, frameAt_focus hun hni,
      next_focus hun hni]
    by_cases hg : g.referenceFrameCounter = f.frameCounter
    · rw [if_pos hg]
      -- `g` is the only direct dependent; the saved successor is met again behind its run.
      have hih := @ih g nacked fuel (by simpa using hfuel) hun hnp hni hc.tail
        (fun h hh => hflags h (List.mem_cons_of_mem _ hh))
      have happ := nackRun_append rest g.frameCounter
      rw [hih]
      have hpf : (((g :: (nackRun rest g.frameCounter).1).foldl ltrNackFlags nacked).withLists
          (pre ++ (nackRun rest g.frameCounter).2) (nacked.doneList ++
            (g :: (nackRun rest g.frameCounter).1).map setNack)).pendingList = [] := by simpa using hnp
      have huf : UniqueCounters
          (((g :: (nackRun rest g.frameCounter).1).foldl ltrNackFlags nacked).withLists
            (pre ++ (nackRun rest g.frameCounter).2) (nacked.doneList ++
              (g :: (nackRun rest g.frameCounter).1).map setNack)) := by
        apply hun.withLists_of_count (by simp)
        intro c
        have hcount := congrArg (fun l => (l.map LtrFrame.frameCounter).count c) happ
        simp only [hni, List.map_append, List.map_cons, setNack_frameCounter,
          List.count_append, List.count_cons, map_setNack_frameCounter] at hcount ⊢
        omega
      generalize hfin : ((g :: (nackRun rest g.frameCounter).1).foldl ltrNackFlags nacked).withLists
          (pre ++ (nackRun rest g.frameCounter).2) (nacked.doneList ++
            (g :: (nackRun rest g.frameCounter).1).map setNack) = fin at hpf huf ⊢
      have hidle : ltrNackWalk (fun ltr ref => ltrNackFrameInternal fuel ltr ref false)
          f.frameCounter steps fin (rest.head?.map LtrFrame.frameCounter) = .ok fin := by
        cases hrun : (nackRun rest g.frameCounter).1 with
        | nil =>
          rw [hrun, List.nil_append] at happ
          exact ltrNackWalk_idle _ huf (Or.inl ⟨pre,by rw [← hfin, happ]; rfl⟩) hlen hne
        | cons x run =>
          rw [hrun] at happ hfin
          have hhead : rest.head?.map LtrFrame.frameCounter =
              ((x :: run).map setNack).head?.map LtrFrame.frameCounter := by rw [← happ]; rfl
          rw [hhead]
          refine ltrNackWalk_idle _ huf
            (Or.inr ⟨nacked.doneList ++ [setNack g],by rw [← hfin]; simp⟩) ?_ ?_
          · have := congrArg List.length happ
            simp at this ⊢
            omega
          · intro y hy
            obtain ⟨z,hz,rfl⟩ := List.mem_map.mp hy
            exact hne z (happ ▸ List.mem_append_left _ hz)
      simp only [hidle, hpf, List.head?_nil, Option.map_none, ltrNackWalk, if_true, hg]
      rw [← hfin, hnacked, foldl_nackFlags_withLists]
      simp
    · rw [if_neg hg, ltrNackWalk_idle _ hun (Or.inl ⟨pre ++ [g],by simp [hni]⟩) hlen hne]
      simp only [hnp, List.head?_nil, Option.map_none, ltrNackWalk, hg, if_false]
      simp [hnacked]

structure Divides (list moved kept : List LtrFrame) : Prop where
  sublist : kept.Sublist list
  perm : (moved ++ kept).Perm list

theorem Divides.mem {list moved kept : List LtrFrame} (h : Divides list moved kept) {g : LtrFrame} :
    g ∈ list ↔ g ∈ moved ∨ g ∈ kept := by
  rw [← h.perm.mem_iff, List.mem_append]

theorem Divides.counter_ne {list moved kept : List LtrFrame} (h : Divides list moved kept)
    (hn : (list.map LtrFrame.frameCounter).Nodup) {g k : LtrFrame} (hg : g ∈ moved) (hk : k ∈ kept) :
    g.frameCounter ≠ k.frameCounter := by
  intro he
  have hp := (h.perm.map LtrFrame.frameCounter).nodup_iff.mpr hn
  rw [List.map_append] at hp
  exact List.disjoint_of_nodup_append hp (List.mem_map_of_mem hg) (he ▸ List.mem_map_of_mem hk)

/-- `g` is `f` or refers, through frames of the list, to `f`. -/
def Dependent (list : List LtrFrame) : LtrFrame → LtrFrame → Prop :=
  Relation.ReflTransGen (fun x y => y ∈ list ∧ y.referenceFrameCounter = x.frameCounter)

theorem ackRun_closed {l : List LtrFrame} {f z y : LtrFrame} (hc : Contiguous (l.reverse ++ [f]))
    (hz : z ∈ f :: (ackRun l f.referenceFrameCounter).1) (hy : y ∈ l)
    (href : y.frameCounter = z.referenceFrameCounter) :
    y ∈ (ackRun l f.referenceFrameCounter).1 := by
  induction l generalizing f with
  | nil => cases hy
  | cons g rest ih =>
    have hcg : Contiguous (rest.reverse ++ [g]) := hc.sublist (by simp)
    have hlt : ∀ x ∈ rest, x.frameCounter < g.frameCounter := fun x hx =>
      (List.pairwise_append.mp hcg.1).2.2 x (by simpa using hx) g (by simp)
    have hgf : g.frameCounter < f.frameCounter :=
      (List.pairwise_append.mp hc.1).2.2 g (by simp) f (by simp)
    rw [ackRun] at hz ⊢
    split_ifs at hz ⊢ with hg
    · rcases List.mem_cons.mp hy with rfl | hy
      · simp
      · rcases List.mem_cons.mp hz with rfl | hz
        · have := hlt y hy
          omega
        · exact List.mem_cons_of_mem _ (ih hcg hz hy)
    · rw [List.mem_singleton] at hz
      subst hz
      rcases List.mem_cons.mp hy with rfl | hy
      · exact absurd href hg
      · have := hc.2 y (by simp [hy]) z (by simp) href.symm
        have := hlt y hy
        omega

theorem ackRun_dependent {l list : List LtrFrame} {f z : LtrFrame} (hf : f ∈ list)
    (hl : ∀ g ∈ l, g ∈ list) (hz : z ∈ (ackRun l f.referenceFrameCounter).1) : Dependent list z f := by
  induction l generalizing f with
  | nil => cases hz
  | cons g rest ih =>
    rw [ackRun] at hz
    split_ifs at hz with hg
    · have hstep : Dependent list g f := Relation.ReflTransGen.single ⟨hf,hg.symm⟩
      rcases List.mem_cons.mp hz with rfl | hz
      · exact hstep
      · have hrest := ih (hl g (by simp)) (fun x hx => hl x (List.mem_cons_of_mem _ hx)) hz
        exact hrest.trans hstep
    · cases hz

theorem nackRun_closed {l : List LtrFrame} {f z y : LtrFrame} (hc : Contiguous (f :: l))
    (hz : z ∈ f :: (nackRun l f.frameCounter).1) (hy : y ∈ l)
    (href : y.referenceFrameCounter = z.frameCounter) : y ∈ (nackRun l f.frameCounter).1 := by
  induction l generalizing f with
  | nil => cases hy
  | cons g rest ih =>
    rw [nackRun] at hz ⊢
    split_ifs at hz ⊢ with hg
    · rcases List.mem_cons.mp hy with rfl | hy
      · simp
      · rcases List.mem_cons.mp hz with rfl | hz
        · exact absurd href (hc.reference_ne hy)
        · exact List.mem_cons_of_mem _ (ih hc.tail hz hy)
    · rw [List.mem_singleton] at hz
      subst hz
      rcases List.mem_cons.mp hy with rfl | hy
      · exact absurd href hg
      · exact absurd href (hc.reference_ne hy)

theorem nackRun_dependent {list l : List LtrFrame} {f z : LtrFrame} (hl : ∀ x ∈ l, x ∈ list)
    (hz : z ∈ f :: (nackRun l f.frameCounter).1) : Dependent list f z := by
  induction l generalizing f with
  | nil =>
    rw [nackRun, List.mem_singleton] at hz
    exact hz ▸ Relation.ReflTransGen.refl
  | cons g rest ih =>
    rcases List.mem_cons.mp hz with rfl | hz
    · exact Relation.ReflTransGen.refl
    · rw [nackRun] at hz
      split_ifs at hz with hg
      · exact Relation.ReflTransGen.head ⟨hl g (by simp),hg⟩
          (ih (fun x hx => hl x (List.mem_cons_of_mem _ hx)) hz)
      · cases hz

section Spec
variable {ltr : LtrState} {f : LtrFrame}

/-- The ack walk moves a set of frames closed under in-flight references. -/
theorem ltrAckFrameInternal_spec (hu : UniqueCounters ltr) (hc : Contiguous ltr.inflightList)
    (hflags : ∀ g ∈ ltr.inflightList, g.ack = false ∧ g.nack = false)
    (hf : f ∈ ltr.inflightList) :
    ∃ moved kept, ltrAckFrameInternal (ltr.numFrames + 1) ltr f.frameCounter =
        .ok ((moved.foldl ltrAckFlags ltr).withLists kept
          (ltr.doneList ++ moved.reverse.map setAck)) ∧
      f ∈ moved ∧ (∀ z ∈ moved, Dependent ltr.inflightList z f) ∧ Divides ltr.inflightList moved kept ∧
      ∀ z ∈ moved, ∀ y ∈ ltr.inflightList, y.frameCounter = z.referenceFrameCounter → y ∈ moved := by
  obtain ⟨pre,post,hin⟩ := List.append_of_mem hf
  obtain ⟨rpre,rfl⟩ : ∃ r : List LtrFrame, pre = r.reverse := ⟨pre.reverse,by simp⟩
  have hcf : Contiguous (rpre.reverse ++ [f]) :=
    hc.sublist (by rw [hin]; exact List.Sublist.append_left (by simp) _)
  have hlen : rpre.length < ltr.numFrames + 1 := by
    simp only [LtrState.numFrames, hin, List.length_append, List.length_reverse]
    omega
  have hrun := ltrAckFrameInternal_eq hlen hu hin hcf (by
    intro g hg
    apply hflags
    rw [hin]
    rcases List.mem_cons.mp hg with rfl | hg <;> simp [*])
  have happ := ackRun_append rpre f.referenceFrameCounter
  refine ⟨f :: (ackRun rpre f.referenceFrameCounter).1,_,by rw [hrun, List.reverse_cons],
    List.mem_cons_self,?_,⟨?_,?_⟩,?_⟩
  · intro z hz
    rcases List.mem_cons.mp hz with rfl | hz
    · exact Relation.ReflTransGen.refl
    · refine ackRun_dependent hf (fun g hg => ?_) hz
      rw [hin]
      simp [hg]
  · rw [hin]
    have hs : (ackRun rpre f.referenceFrameCounter).2.Sublist rpre := by
      conv_rhs => rw [← happ]
      exact List.sublist_append_right _ _
    exact hs.reverse.append (List.sublist_cons_self f post)
  · rw [hin, List.perm_iff_count]
    intro g
    have hcount := congrArg (List.count g) happ
    simp only [List.count_append, List.count_cons, List.count_reverse] at hcount ⊢
    omega
  · intro z hz y hy href
    have hzf : z.frameCounter ≤ f.frameCounter := by
      rcases List.mem_cons.mp hz with rfl | hz
      · exact le_rfl
      · have hzr : z ∈ rpre.reverse := by rw [← happ]; simp [hz]
        exact le_of_lt ((List.pairwise_append.mp hcf.1).2.2 z hzr f (by simp))
    have hzin : z ∈ ltr.inflightList := by
      rw [hin]
      rcases List.mem_cons.mp hz with rfl | hz
      · simp
      · have hzr : z ∈ rpre.reverse := by rw [← happ]; simp [hz]
        exact List.mem_append_left _ hzr
    have hlt := hc.2 y hy z hzin href.symm
    have hord := hc.1
    rw [hin, List.pairwise_append, List.pairwise_cons] at hord
    rw [hin, List.mem_append, List.mem_cons] at hy
    rcases hy with hy | rfl | hy
    · exact List.mem_cons_of_mem _ (ackRun_closed hcf hz (by simpa using hy) href)
    · exact List.mem_cons_self
    · have := hord.2.1.1 y hy
      omega

theorem ltrNackFrameInternal_spec (hu : UniqueCounters ltr) (hp : ltr.pendingList = [])
    (hc : Contiguous ltr.inflightList)
    (hflags : ∀ g ∈ ltr.inflightList, g.ack = false ∧ g.nack = false)
    (hf : f ∈ ltr.inflightList) :
    ∃ moved kept, ltrNackFrameInternal (ltr.numFrames + 1) ltr f.frameCounter false =
        .ok ((moved.foldl ltrNackFlags ltr).withLists kept (ltr.doneList ++ moved.map setNack)) ∧
      Divides ltr.inflightList moved kept ∧
      ∀ g, g ∈ moved ↔ Dependent ltr.inflightList f g := by
  obtain ⟨pre,post,hin⟩ := List.append_of_mem hf
  have hcf : Contiguous (f :: post) := hc.sublist (by rw [hin]; exact List.sublist_append_right _ _)
  have hlen : post.length < ltr.numFrames + 1 := by
    simp only [LtrState.numFrames, hin, List.length_append, List.length_cons]
    omega
  have hrun := ltrNackFrameInternal_eq hlen hu hp hin hcf (fun g hg => hflags g (by
    rw [hin]
    exact List.mem_append_right _ hg))
  have happ := nackRun_append post f.frameCounter
  refine ⟨_,_,hrun,⟨?_,?_⟩,?_⟩
  · rw [hin]
    have hs : (nackRun post f.frameCounter).2.Sublist post := by
      conv_rhs => rw [← happ]
      exact List.sublist_append_right _ _
    exact (hs.trans (List.sublist_cons_self f post)).append_left pre
  · rw [hin, List.perm_iff_count]
    intro g
    have hcount := congrArg (List.count g) happ
    simp only [List.count_append, List.count_cons] at hcount ⊢
    omega
  · intro g
    constructor
    · exact nackRun_dependent (fun x hx => by simp [hin, hx])
    · intro hd
      induction hd with
      | refl => exact List.mem_cons_self
      | @tail z y _ hstep ih =>
        obtain ⟨hy,href⟩ := hstep
        have hzpost : f.frameCounter ≤ z.frameCounter ∧ z ∈ ltr.inflightList := by
          rcases List.mem_cons.mp ih with rfl | hz
          · exact ⟨le_rfl,hf⟩
          · have hzp : z ∈ post := by rw [← happ]; simp [hz]
            exact ⟨le_of_lt ((List.pairwise_cons.mp hcf.1).1 z hzp),by simp [hin, hzp]⟩
        have hlt := hc.2 z hzpost.2 y hy href
        have hord := hc.1
        rw [hin, List.pairwise_append] at hord
        rw [hin, List.mem_append, List.mem_cons] at hy
        rcases hy with hy | rfl | hy
        · have := hord.2.2 y hy f (by simp)
          omega
        · exact List.mem_cons_self
        · exact List.mem_cons_of_mem _ (nackRun_closed hcf ih hy href)

end Spec

end Whist.Ltr
