import Whist.Video.LtrSession

/-! # What every call does to a session -/
namespace Whist.Ltr

def Confirms (ltr : LtrState) (f : LtrFrame) : Prop :=
  ltr.intraFrameCounter ≤ f.frameCounter ∧
    (f.action.frameType = .intra ∨
      f.action.frameType = .createLongTerm ∧ f.frameCounter = ltr.createLongTermFrameCounter)

structure SameStream (ltr ltr' : LtrState) : Prop where
  frameCounter : ltr'.frameCounter = ltr.frameCounter
  intraFrameNeeded : ltr'.intraFrameNeeded = ltr.intraFrameNeeded
  intraFrameCounter : ltr'.intraFrameCounter = ltr.intraFrameCounter
  createCounter : ltr'.createLongTermFrameCounter = ltr.createLongTermFrameCounter

theorem SameStream.trans {a b c : LtrState} (h : SameStream a b) (h' : SameStream b c) :
    SameStream a c :=
  ⟨h'.1.trans h.1,h'.2.trans h.2,h'.3.trans h.3,h'.4.trans h.4⟩

structure SameGood (ltr ltr' : LtrState) : Prop where
  have_ : ltr'.haveGoodLongTermFrame = ltr.haveGoodLongTermFrame
  index : ltr'.goodLongTermFrameIndex = ltr.goodLongTermFrameIndex
  counter : ltr'.goodLongTermFrameCounter = ltr.goodLongTermFrameCounter

structure SetsGood (f : LtrFrame) (ltr' : LtrState) : Prop where
  have_ : ltr'.haveGoodLongTermFrame = true
  index : ltr'.goodLongTermFrameIndex = f.action.longTermFrameIndex
  counter : ltr'.goodLongTermFrameCounter = f.frameCounter

theorem ltrAckFlags_sameStream (ltr : LtrState) (f : LtrFrame) : SameStream ltr (ltrAckFlags ltr f) := by
  unfold ltrAckFlags
  cases f.action.frameType <;> dsimp only <;> split_ifs <;> exact ⟨rfl,rfl,rfl,rfl⟩

theorem ltrAckFlags_bad (ltr : LtrState) (f : LtrFrame) :
    (ltrAckFlags ltr f).lastFrameIsBad = ltr.lastFrameIsBad := by
  unfold ltrAckFlags
  cases f.action.frameType <;> dsimp only <;> split_ifs <;> rfl

theorem ltrAckFlags_good (ltr : LtrState) (f : LtrFrame) :
    ¬Confirms ltr f ∧ SameGood ltr (ltrAckFlags ltr f) ∨
      Confirms ltr f ∧ SetsGood f (ltrAckFlags ltr f) := by
  unfold ltrAckFlags Confirms
  by_cases hle : ltr.intraFrameCounter ≤ f.frameCounter
  · rw [if_pos hle]
    cases ht : f.action.frameType with
    | normal => exact Or.inl ⟨by simp,rfl,rfl,rfl⟩
    | intra => exact Or.inr ⟨by simp [hle],rfl,rfl,rfl⟩
    | createLongTerm =>
      by_cases hc : f.frameCounter = ltr.createLongTermFrameCounter
      · exact Or.inr ⟨⟨hle,Or.inr ⟨rfl,hc⟩⟩,by simp [hc],by simp [hc],by simp [hc]⟩
      · exact Or.inl ⟨by simp [hc],by simp [hc],by simp [hc],by simp [hc]⟩
    | referLongTerm =>
      refine Or.inl ⟨by simp,?_⟩
      dsimp only
      split_ifs <;> exact ⟨rfl,rfl,rfl⟩
  · rw [if_neg hle]
    exact Or.inl ⟨by simp [hle],rfl,rfl,rfl⟩

theorem confirms_congr {ltr ltr' : LtrState} (h : SameStream ltr ltr') (f : LtrFrame) :
    Confirms ltr' f ↔ Confirms ltr f := by
  rw [Confirms, Confirms, h.intraFrameCounter, h.createCounter]

theorem foldl_ackFlags_rest (fs : List LtrFrame) (ltr : LtrState) :
    SameStream ltr (fs.foldl ltrAckFlags ltr) ∧
      (fs.foldl ltrAckFlags ltr).lastFrameIsBad = ltr.lastFrameIsBad := by
  induction fs generalizing ltr with
  | nil => exact ⟨⟨rfl,rfl,rfl,rfl⟩,rfl⟩
  | cons f fs ih =>
    obtain ⟨hs,hb⟩ := ih (ltrAckFlags ltr f)
    exact ⟨(ltrAckFlags_sameStream ltr f).trans hs,hb.trans (ltrAckFlags_bad ltr f)⟩

theorem foldl_ackFlags_good (fs : List LtrFrame) (ltr : LtrState) :
    (∀ f ∈ fs, ¬Confirms ltr f) ∧ SameGood ltr (fs.foldl ltrAckFlags ltr) ∨
      ∃ f ∈ fs, Confirms ltr f ∧ SetsGood f (fs.foldl ltrAckFlags ltr) := by
  induction fs generalizing ltr with
  | nil => exact Or.inl ⟨by simp,rfl,rfl,rfl⟩
  | cons f fs ih =>
    have hs := ltrAckFlags_sameStream ltr f
    rw [List.foldl_cons]
    rcases ih (ltrAckFlags ltr f) with ⟨hno,hsame⟩ | ⟨g,hg,hconf,hset⟩
    · have hno' : ∀ g ∈ fs, ¬Confirms ltr g := fun g hg h => hno g hg ((confirms_congr hs g).mpr h)
      rcases ltrAckFlags_good ltr f with ⟨hf,hgood⟩ | ⟨hf,hgood⟩
      · refine Or.inl ⟨?_,hsame.1.trans hgood.1,hsame.2.trans hgood.2,hsame.3.trans hgood.3⟩
        intro g hg
        rcases List.mem_cons.mp hg with rfl | hg
        · exact hf
        · exact hno' g hg
      · exact Or.inr ⟨f,by simp,hf,hsame.1.trans hgood.1,hsame.2.trans hgood.2,hsame.3.trans hgood.3⟩
    · exact Or.inr ⟨g,List.mem_cons_of_mem _ hg,(confirms_congr hs g).mp hconf,hset⟩

theorem ltrNackFlags_rest (ltr : LtrState) (f : LtrFrame) :
    SameStream ltr (ltrNackFlags ltr f) ∧ SameGood ltr (ltrNackFlags ltr f) ∧
      ((ltrNackFlags ltr f).lastFrameIsBad = true ↔
        ltr.lastFrameIsBad = true ∨ f.frameCounter = ltr.frameCounter) := by
  unfold ltrNackFlags
  by_cases hcur : ltr.frameCounter = f.frameCounter
  · cases f.action.frameType <;> dsimp only <;> split_ifs <;>
      exact ⟨⟨rfl,rfl,rfl,rfl⟩,⟨rfl,rfl,rfl⟩,by simp [hcur]⟩
  · cases f.action.frameType <;> dsimp only <;> split_ifs <;>
      exact ⟨⟨rfl,rfl,rfl,rfl⟩,⟨rfl,rfl,rfl⟩,by simp [Ne.symm hcur]⟩

theorem foldl_nackFlags_rest (fs : List LtrFrame) (ltr : LtrState) :
    SameStream ltr (fs.foldl ltrNackFlags ltr) ∧ SameGood ltr (fs.foldl ltrNackFlags ltr) ∧
      ((fs.foldl ltrNackFlags ltr).lastFrameIsBad = true ↔
        ltr.lastFrameIsBad = true ∨ ∃ f ∈ fs, f.frameCounter = ltr.frameCounter) := by
  induction fs generalizing ltr with
  | nil => exact ⟨⟨rfl,rfl,rfl,rfl⟩,⟨rfl,rfl,rfl⟩,by simp⟩
  | cons f fs ih =>
    obtain ⟨hs,hg,hb⟩ := ltrNackFlags_rest ltr f
    obtain ⟨hs',hg',hb'⟩ := ih (ltrNackFlags ltr f)
    refine ⟨hs.trans hs',⟨hg'.1.trans hg.1,hg'.2.trans hg.2,hg'.3.trans hg.3⟩,?_⟩
    rw [List.foldl_cons, hb', hb, hs.frameCounter]
    simp only [List.mem_cons, exists_eq_or_imp, or_assoc]

structure Gets (s s' : Session) (frame : LtrFrame) : Prop where
  appends : Appends s.ltr frame s'.ltr
  issues : IssuesIntra s.ltr frame s'.ltr ∨ IssuesRefer s.ltr frame s'.ltr ∨
    IssuesCreate s.ltr frame s'.ltr ∨ IssuesNormal s.ltr frame s'.ltr
  issued : s'.issued = s.issued ++ [frame]
  acked : ∀ c, c ∈ s'.acked ↔ c ∈ s.acked
  nacked : ∀ c, c ∈ s'.nacked ↔ c ∈ s.nacked
  slots : s'.slots = writeSlots s.slots frame.action frame.frameCounter

structure Moves (s s' : Session) (moved : List LtrFrame) : Prop where
  divides : Divides s.ltr.inflightList moved s'.ltr.inflightList
  pending : s'.ltr.pendingList = s.ltr.pendingList
  issued : s'.issued = s.issued
  slots : s'.slots = s.slots
  stream : SameStream s.ltr s'.ltr

structure Acks (s s' : Session) (moved : List LtrFrame) : Prop extends Moves s s' moved where
  done : s'.ltr.doneList = s.ltr.doneList ++ moved.reverse.map setAck
  closed : ∀ z ∈ moved, ∀ y ∈ s.ltr.inflightList, y.frameCounter = z.referenceFrameCounter → y ∈ moved
  acked : ∀ c, c ∈ s'.acked ↔ c ∈ s.acked ∨ ∃ g ∈ moved, g.frameCounter = c
  nacked : ∀ c, c ∈ s'.nacked ↔ c ∈ s.nacked
  bad : s'.ltr.lastFrameIsBad = s.ltr.lastFrameIsBad
  good : (∀ f ∈ moved, ¬Confirms s.ltr f) ∧ SameGood s.ltr s'.ltr ∨
    ∃ f ∈ moved, Confirms s.ltr f ∧ SetsGood f s'.ltr

structure Nacks (s s' : Session) (f : LtrFrame) (moved : List LtrFrame) : Prop
    extends Moves s s' moved where
  done : s'.ltr.doneList = s.ltr.doneList ++ moved.map setNack
  dependent : ∀ g, g ∈ moved ↔ Dependent s.ltr.inflightList f g
  acked : ∀ c, c ∈ s'.acked ↔ c ∈ s.acked
  nacked : ∀ c, c ∈ s'.nacked ↔ c ∈ s.nacked ∨ ∃ g ∈ moved, g.frameCounter = c
  bad : s'.ltr.lastFrameIsBad = true ↔
    s.ltr.lastFrameIsBad = true ∨ ∃ g ∈ moved, g.frameCounter = s.ltr.frameCounter
  good : SameGood s.ltr s'.ltr

structure Idles (s s' : Session) : Prop where
  ltr : ∃ needed, s'.ltr = { s.ltr with intraFrameNeeded := needed }
  needed : s.ltr.intraFrameNeeded = true → s'.ltr.intraFrameNeeded = true
  issued : s'.issued = s.issued
  slots : s'.slots = s.slots
  acked : ∀ c, c ∈ s'.acked ↔ c ∈ s.acked
  nacked : ∀ c, c ∈ s'.nacked ↔ c ∈ s.nacked

structure Tracking (s : Session) : Prop where
  pending : s.ltr.pendingList = []
  counters : s.issued.map LtrFrame.frameCounter = List.range' 1 s.ltr.frameCounter
  inflight : s.ltr.inflightList.Sublist s.issued
  unique : UniqueCounters s.ltr
  doneBound : ∀ f ∈ s.ltr.doneList, f.frameCounter ≤ s.ltr.frameCounter
  doneFlags : ∀ f ∈ s.ltr.doneList,
    (f.ack = true → f.frameCounter ∈ s.acked) ∧ (f.nack = true → f.frameCounter ∈ s.nacked)
  unflagged : ∀ f ∈ s.issued, f.ack = false ∧ f.nack = false
  reference : ∀ f ∈ s.issued, f.action.frameType = .intra ∧ f.referenceFrameCounter = 0 ∨
    f.action.frameType = .referLongTerm ∧ f.referenceFrameCounter ∈ s.acked ∨
    0 < f.referenceFrameCounter ∧ f.referenceFrameCounter + 1 = f.frameCounter
  unanswered : ∀ f ∈ s.ltr.inflightList, f.frameCounter ∉ s.acked ∧ f.frameCounter ∉ s.nacked
  answered : ∀ c, c ∈ s.acked ∨ c ∈ s.nacked → ∃ f ∈ s.issued, f.frameCounter = c
  exclusive : ∀ c ∈ s.acked, c ∉ s.nacked
  goodAcked : s.ltr.haveGoodLongTermFrame = true → s.ltr.goodLongTermFrameCounter ∈ s.acked

section Tracked
variable {s : Session} (h : Tracking s)
include h

theorem Tracking.counter_mem (c : ℕ) :
    (∃ f ∈ s.issued, f.frameCounter = c) ↔ 1 ≤ c ∧ c ≤ s.ltr.frameCounter := by
  rw [← List.mem_map, h.counters, List.mem_range'_1]
  omega

theorem Tracking.counter_bounds {f : LtrFrame} (hf : f ∈ s.issued) :
    1 ≤ f.frameCounter ∧ f.frameCounter ≤ s.ltr.frameCounter :=
  (h.counter_mem f.frameCounter).mp ⟨f,hf,rfl⟩

theorem Tracking.sorted : s.issued.Pairwise (fun f g => f.frameCounter < g.frameCounter) := by
  have hr := List.pairwise_lt_range' (s := 1) (n := s.ltr.frameCounter)
  rw [← h.counters, List.pairwise_map] at hr
  exact hr

theorem Tracking.eq_of_counter {f g : LtrFrame} (hf : f ∈ s.issued) (hg : g ∈ s.issued)
    (he : f.frameCounter = g.frameCounter) : f = g := by
  have hn : (s.issued.map LtrFrame.frameCounter).Nodup := h.counters ▸ List.nodup_range'
  exact List.inj_on_of_nodup_map hn hf hg he

theorem Tracking.contiguous : Contiguous s.ltr.inflightList := by
  refine ⟨h.sorted.sublist h.inflight,?_⟩
  intro f hf g hg href
  have hpos := h.counter_bounds (h.inflight.subset hf)
  rcases h.reference g (h.inflight.subset hg) with ⟨-,hzero⟩ | ⟨-,hack⟩ | ⟨-,hnext⟩
  · omega
  · exact absurd (href ▸ hack) (h.unanswered f hf).1
  · omega

theorem Tracking.inflight_flags {g : LtrFrame} (hg : g ∈ s.ltr.inflightList) :
    g.ack = false ∧ g.nack = false := h.unflagged g (h.inflight.subset hg)

end Tracked

theorem Session.mem_observe_acked {s : Session} {reply : LtrReply} {c : ℕ} :
    c ∈ (s.observe reply).acked ↔
      c ∈ s.acked ∨ ∃ f ∈ reply.ltr.frames, f.ack = true ∧ f.frameCounter = c := by
  simp [Session.observe, and_assoc]

theorem Session.mem_observe_nacked {s : Session} {reply : LtrReply} {c : ℕ} :
    c ∈ (s.observe reply).nacked ↔
      c ∈ s.nacked ∨ ∃ f ∈ reply.ltr.frames, f.nack = true ∧ f.frameCounter = c := by
  simp [Session.observe, and_assoc]

section Calls
variable {s : Session} (h : Tracking s)
include h

theorem Tracking.recorded {f : LtrFrame} (hf : f ∈ s.ltr.inflightList ∨ f ∈ s.ltr.doneList) :
    (f.ack = true → f.frameCounter ∈ s.acked) ∧ (f.nack = true → f.frameCounter ∈ s.nacked) := by
  rcases hf with hf | hf
  · obtain ⟨hack,hnack⟩ := h.inflight_flags hf
    simp [hack, hnack]
  · exact h.doneFlags f hf

theorem Tracking.observe_quiet {reply : LtrReply} (hf : ∀ f ∈ reply.ltr.frames,
      (f ∈ s.ltr.inflightList ∨ f ∈ s.ltr.doneList) ∨ (f.ack = false ∧ f.nack = false)) :
    (∀ c, c ∈ (s.observe reply).acked ↔ c ∈ s.acked) ∧
      ∀ c, c ∈ (s.observe reply).nacked ↔ c ∈ s.nacked := by
  constructor
  · intro c
    rw [Session.mem_observe_acked, or_iff_left_iff_imp]
    rintro ⟨f,hmem,hack,rfl⟩
    rcases hf f hmem with hold | ⟨hno,-⟩
    · exact (h.recorded hold).1 hack
    · simp [hno] at hack
  · intro c
    rw [Session.mem_observe_nacked, or_iff_left_iff_imp]
    rintro ⟨f,hmem,hnack,rfl⟩
    rcases hf f hmem with hold | ⟨-,hno⟩
    · exact (h.recorded hold).2 hnack
    · simp [hno] at hnack

theorem Tracking.get (frameId : UInt32) :
    ∃ frame ltr', ltrGetNextAction s.ltr frameId = (0,frame.action,ltr') ∧
      Gets s (s.observe ⟨0,some frame.action,ltr'⟩) frame := by
  obtain ⟨frame,ltr',hget,happ,hissue⟩ := ltrGetNextAction_spec h.pending frameId
  have hquiet : ∀ f ∈ ltr'.frames,
      (f ∈ s.ltr.inflightList ∨ f ∈ s.ltr.doneList) ∨ (f.ack = false ∧ f.nack = false) := by
    intro f hf
    obtain ⟨n,hdone⟩ := happ.done
    rw [LtrState.frames, happ.inflight, happ.pending, hdone, List.append_nil, List.mem_append,
      List.mem_append, List.mem_singleton] at hf
    rcases hf with (hf | rfl) | hf
    · exact Or.inl (Or.inl (List.mem_of_mem_drop hf))
    · exact Or.inr happ.unflagged
    · rcases List.mem_append.mp (List.mem_of_mem_drop hf) with hf | hf
      · exact Or.inl (Or.inr hf)
      · exact Or.inl (Or.inl (List.mem_of_mem_take hf))
  obtain ⟨hacked,hnacked⟩ := @Tracking.observe_quiet s h ⟨0,some frame.action,ltr'⟩ hquiet
  exact ⟨frame,ltr',hget,happ,hissue,by simp [Session.observe, happ.inflight],hacked,hnacked,
    by simp [Session.observe, happ.frameCounter]⟩

theorem Tracking.idle (ret : ℤ) {needed : Bool}
    (hneeded : s.ltr.intraFrameNeeded = true → needed = true) :
    Idles s (s.observe ⟨ret,none,{ s.ltr with intraFrameNeeded := needed }⟩) := by
  have hquiet : ∀ f ∈ s.ltr.frames,
      (f ∈ s.ltr.inflightList ∨ f ∈ s.ltr.doneList) ∨ (f.ack = false ∧ f.nack = false) := by
    intro f hf
    rw [LtrState.frames, h.pending, List.append_nil, List.mem_append] at hf
    exact Or.inl hf
  obtain ⟨hacked,hnacked⟩ :=
    @Tracking.observe_quiet s h ⟨ret,none,{ s.ltr with intraFrameNeeded := needed }⟩ hquiet
  exact ⟨⟨needed,rfl⟩,hneeded,rfl,rfl,hacked,hnacked⟩

theorem Tracking.ack {f : LtrFrame} (hf : f ∈ s.ltr.inflightList) :
    ∃ ltr' moved, ltrAckFrameInternal (s.ltr.numFrames + 1) s.ltr f.frameCounter = .ok ltr' ∧
      f ∈ moved ∧ (∀ z ∈ moved, Dependent s.ltr.inflightList z f) ∧
      ∀ ret, Acks s (s.observe ⟨ret,none,ltr'⟩) moved := by
  obtain ⟨moved,kept,hack,hfm,hdep,hdiv,hclosed⟩ := ltrAckFrameInternal_spec h.unique h.contiguous
    (fun g hg => h.inflight_flags hg) hf
  obtain ⟨hstream,hbad⟩ := foldl_ackFlags_rest moved s.ltr
  have hpend : (moved.foldl ltrAckFlags s.ltr).pendingList = s.ltr.pendingList := by simp
  refine ⟨_,moved,hack,hfm,hdep,fun ret => ⟨⟨hdiv,hpend,rfl,rfl,⟨hstream.1,hstream.2,hstream.3,hstream.4⟩⟩,
    rfl,hclosed,?_,?_,hbad,?_⟩⟩
  · intro c
    rw [Session.mem_observe_acked]
    simp only [LtrState.frames, withLists_inflightList, withLists_doneList, withLists_pendingList,
      hpend, h.pending, List.append_nil, List.mem_append, List.mem_map, List.mem_reverse]
    constructor
    · rintro (hc | ⟨g,hg | hg | ⟨x,hx,rfl⟩,hflag,rfl⟩)
      · exact Or.inl hc
      · exact Or.inl ((h.recorded (Or.inl (hdiv.mem.mpr (Or.inr hg)))).1 hflag)
      · exact Or.inl ((h.recorded (Or.inr hg)).1 hflag)
      · exact Or.inr ⟨x,hx,rfl⟩
    · rintro (hc | ⟨x,hx,rfl⟩)
      · exact Or.inl hc
      · exact Or.inr ⟨setAck x,Or.inr (Or.inr ⟨x,hx,rfl⟩),rfl,rfl⟩
  · intro c
    rw [Session.mem_observe_nacked]
    simp only [LtrState.frames, withLists_inflightList, withLists_doneList, withLists_pendingList,
      hpend, h.pending, List.append_nil, List.mem_append, List.mem_map, List.mem_reverse]
    rw [or_iff_left_iff_imp]
    rintro ⟨g,hg | hg | ⟨x,hx,rfl⟩,hflag,rfl⟩
    · exact (h.recorded (Or.inl (hdiv.mem.mpr (Or.inr hg)))).2 hflag
    · exact (h.recorded (Or.inr hg)).2 hflag
    · have hno := (h.inflight_flags (hdiv.mem.mpr (Or.inl hx))).2
      simp [setAck, hno] at hflag
  · rcases foldl_ackFlags_good moved s.ltr with ⟨hno,hg⟩ | ⟨g,hg,hconf,hset⟩
    · exact Or.inl ⟨hno,hg.1,hg.2,hg.3⟩
    · exact Or.inr ⟨g,hg,hconf,hset.1,hset.2,hset.3⟩

theorem Tracking.nack {f : LtrFrame} (hf : f ∈ s.ltr.inflightList) :
    ∃ ltr' moved, ltrNackFrameInternal (s.ltr.numFrames + 1) s.ltr f.frameCounter false = .ok ltr' ∧
      ∀ ret, Nacks s (s.observe ⟨ret,none,ltr'⟩) f moved := by
  obtain ⟨moved,kept,hnack,hdiv,hdep⟩ := ltrNackFrameInternal_spec h.unique h.pending h.contiguous
    (fun g hg => h.inflight_flags hg) hf
  obtain ⟨hstream,hgood,hbad⟩ := foldl_nackFlags_rest moved s.ltr
  have hpend : (moved.foldl ltrNackFlags s.ltr).pendingList = s.ltr.pendingList := by simp
  refine ⟨_,moved,hnack,fun ret => ⟨⟨hdiv,hpend,rfl,rfl,⟨hstream.1,hstream.2,hstream.3,hstream.4⟩⟩,
    rfl,hdep,?_,?_,hbad,⟨hgood.1,hgood.2,hgood.3⟩⟩⟩
  · intro c
    rw [Session.mem_observe_acked]
    simp only [LtrState.frames, withLists_inflightList, withLists_doneList, withLists_pendingList,
      hpend, h.pending, List.append_nil, List.mem_append, List.mem_map]
    rw [or_iff_left_iff_imp]
    rintro ⟨g,hg | hg | ⟨x,hx,rfl⟩,hflag,rfl⟩
    · exact (h.recorded (Or.inl (hdiv.mem.mpr (Or.inr hg)))).1 hflag
    · exact (h.recorded (Or.inr hg)).1 hflag
    · have hno := (h.inflight_flags (hdiv.mem.mpr (Or.inl hx))).1
      simp [setNack, hno] at hflag
  · intro c
    rw [Session.mem_observe_nacked]
    simp only [LtrState.frames, withLists_inflightList, withLists_doneList, withLists_pendingList,
      hpend, h.pending, List.append_nil, List.mem_append, List.mem_map]
    constructor
    · rintro (hc | ⟨g,hg | hg | ⟨x,hx,rfl⟩,hflag,rfl⟩)
      · exact Or.inl hc
      · exact Or.inl ((h.recorded (Or.inl (hdiv.mem.mpr (Or.inr hg)))).2 hflag)
      · exact Or.inl ((h.recorded (Or.inr hg)).2 hflag)
      · exact Or.inr ⟨x,hx,rfl⟩
    · rintro (hc | ⟨x,hx,rfl⟩)
      · exact Or.inl hc
      · exact Or.inr ⟨setNack x,Or.inr (Or.inr ⟨x,hx,rfl⟩),rfl,rfl⟩

end Calls

inductive Transition (s s' : Session) : Prop
  | get (frame : LtrFrame) (h : Gets s s' frame)
  | ack (moved : List LtrFrame) (h : Acks s s' moved)
  | nack (f : LtrFrame) (moved : List LtrFrame) (h : Nacks s s' f moved)
  | idle (h : Idles s s')

theorem ltrFindFrameById_mem {ltr : LtrState} {frameId : UInt32} {f : LtrFrame}
    (hf : ltrFindFrameById ltr frameId = some f) : f ∈ ltr.inflightList :=
  List.mem_of_find?_eq_some hf

theorem Tracking.call {s : Session} (h : Tracking s) (c : LtrCall) :
    ∃ s', s.call c = .ok s' ∧ Transition s s' := by
  cases c with
  | getNextAction frameId =>
    obtain ⟨frame,ltr',hget,hg⟩ := h.get frameId
    exact ⟨_,Session.call_of_reply (by rw [ltrCall, hget]),.get frame hg⟩
  | markFrameReceived frameId =>
    cases hf : ltrFindFrameById s.ltr frameId with
    | none =>
      exact ⟨_,Session.call_of_reply (by rw [ltrCall, ltrMarkFrameReceived, hf]; rfl),
        .idle (h.idle (-1) id)⟩
    | some f =>
      obtain ⟨ltr',moved,hack,-,-,ha⟩ := h.ack (ltrFindFrameById_mem hf)
      refine ⟨_,@Session.call_of_reply s _ ⟨0,none,ltr'⟩ ?_,.ack moved (ha 0)⟩
      simp [ltrCall, ltrMarkFrameReceived, hf, hack, Except.map]
  | markFrameNotReceived frameId =>
    cases hf : ltrFindFrameById s.ltr frameId with
    | none =>
      exact ⟨_,Session.call_of_reply (by rw [ltrCall, ltrMarkFrameNotReceived, hf]; rfl),
        .idle (h.idle (-1) id)⟩
    | some f =>
      obtain ⟨ltr',moved,hnack,hn⟩ := h.nack (ltrFindFrameById_mem hf)
      refine ⟨_,@Session.call_of_reply s _ ⟨0,none,ltr'⟩ ?_,.nack f moved (hn 0)⟩
      simp [ltrCall, ltrMarkFrameNotReceived, hf, hnack, Except.map]
  | markStreamBroken =>
    cases hf : s.ltr.inflightList.getLast? with
    | none =>
      exact ⟨_,Session.call_of_reply (by rw [ltrCall, ltrMarkStreamBroken, hf]; rfl),
        .idle (h.idle 0 (fun _ => rfl))⟩
    | some f =>
      obtain ⟨ltr',moved,hnack,hn⟩ := h.nack (List.mem_of_getLast? hf)
      refine ⟨_,@Session.call_of_reply s _ ⟨0,none,ltr'⟩ ?_,.nack f moved (hn 0)⟩
      simp [ltrCall, ltrMarkStreamBroken, hf, hnack, Except.map]
  | forceIntra => exact ⟨_,Session.call_of_reply rfl,.idle (h.idle 0 (fun _ => rfl))⟩

theorem Gets.unique {s s' : Session} {frame : LtrFrame} (h : Tracking s) (hg : Gets s s' frame) :
    UniqueCounters s'.ltr := by
  have hu := h.unique
  obtain ⟨n,hdone⟩ := hg.appends.done
  rw [UniqueCounters, h.pending, List.append_nil] at hu
  rw [UniqueCounters, hg.appends.inflight, hg.appends.pending, hdone, List.append_nil,
    List.nodup_iff_count_le_one]
  intro c
  have hc := List.nodup_iff_count_le_one.mp hu c
  have hdrop := ((List.drop_sublist n (s.ltr.doneList ++ s.ltr.inflightList.take
    (s.ltr.inflightList.length - ltrMaxInflightFrames))).map LtrFrame.frameCounter).count_le c
  have hsplit := congrArg (fun l => (l.map LtrFrame.frameCounter).count c)
    (List.take_append_drop (s.ltr.inflightList.length - ltrMaxInflightFrames) s.ltr.inflightList)
  have hnew : (if frame.frameCounter == c then 1 else 0) +
      ((s.ltr.inflightList ++ s.ltr.doneList).map LtrFrame.frameCounter).count c ≤ 1 := by
    split_ifs with he
    · have hzero : ((s.ltr.inflightList ++ s.ltr.doneList).map LtrFrame.frameCounter).count c = 0 := by
        rw [List.count_eq_zero, ← beq_iff_eq.mp he, hg.appends.counter]
        intro hmem
        obtain ⟨f,hf,hfc⟩ := List.mem_map.mp hmem
        rcases List.mem_append.mp hf with hf | hf
        · have := (h.counter_bounds (h.inflight.subset hf)).2
          omega
        · have := h.doneBound f hf
          omega
      omega
    · omega
  simp only [List.map_append, List.count_append, List.map_cons, List.map_nil, List.count_cons,
    List.count_nil] at hc hdrop hsplit hnew ⊢
  omega

theorem Gets.tracking {s s' : Session} {frame : LtrFrame} (h : Tracking s) (hg : Gets s s' frame) :
    Tracking s' := by
  have happ := hg.appends
  obtain ⟨n,hdone⟩ := happ.done
  have hfc : s'.ltr.frameCounter = s.ltr.frameCounter + 1 := happ.frameCounter.trans happ.counter
  have hin : ∀ f ∈ s'.ltr.inflightList, f ∈ s.ltr.inflightList ∨ f = frame := by
    intro f hf
    rw [happ.inflight, List.mem_append, List.mem_singleton] at hf
    exact hf.imp_left List.mem_of_mem_drop
  have hold : ∀ f ∈ s'.ltr.doneList, f ∈ s.ltr.inflightList ∨ f ∈ s.ltr.doneList := by
    intro f hf
    rw [hdone] at hf
    rcases List.mem_append.mp (List.mem_of_mem_drop hf) with hf | hf
    · exact Or.inr hf
    · exact Or.inl (List.mem_of_mem_take hf)
  have hissued : ∀ f ∈ s'.issued, f ∈ s.issued ∨ f = frame := by
    intro f hf
    rwa [hg.issued, List.mem_append, List.mem_singleton] at hf
  have hfresh : ∀ c, c ∈ s.acked ∨ c ∈ s.nacked → c ≠ frame.frameCounter := by
    intro c hc
    obtain ⟨f,hf,rfl⟩ := h.answered c hc
    have := (h.counter_bounds hf).2
    have := happ.counter
    omega
  constructor
  · exact happ.pending
  · rw [hg.issued, List.map_append, h.counters, hfc, List.range'_concat]
    simp [happ.counter, Nat.add_comm]
  · rw [hg.issued, happ.inflight]
    exact ((List.drop_sublist _ _).trans h.inflight).append (List.Sublist.refl _)
  · exact hg.unique h
  · intro f hf
    rcases hold f hf with hf | hf
    · have := (h.counter_bounds (h.inflight.subset hf)).2
      omega
    · have := h.doneBound f hf
      omega
  · intro f hf
    rw [hg.acked, hg.nacked]
    exact h.recorded (hold f hf)
  · intro f hf
    rcases hissued f hf with hf | rfl
    · exact h.unflagged f hf
    · exact happ.unflagged
  · intro f hf
    rw [hg.acked]
    rcases hissued f hf with hf | rfl
    · exact h.reference f hf
    · rcases hg.issues with hi | hi | hi | hi
      · exact Or.inl ⟨by rw [hi.type],hi.reference⟩
      · exact Or.inr (Or.inl ⟨by rw [hi.type],hi.reference ▸ h.goodAcked hi.wasGood⟩)
      · exact Or.inr (Or.inr ⟨hi.reference ▸ hi.started,by rw [hi.reference, happ.counter]⟩)
      · exact Or.inr (Or.inr ⟨hi.reference ▸ hi.started,by rw [hi.reference, happ.counter]⟩)
  · intro f hf
    rw [hg.acked, hg.nacked]
    rcases hin f hf with hf | rfl
    · exact h.unanswered f hf
    · exact ⟨fun hc => hfresh _ (Or.inl hc) rfl,fun hc => hfresh _ (Or.inr hc) rfl⟩
  · intro c hc
    rw [hg.acked, hg.nacked] at hc
    obtain ⟨f,hf,hfc⟩ := h.answered c hc
    exact ⟨f,by simp [hg.issued, hf],hfc⟩
  · intro c hc
    rw [hg.acked] at hc
    rw [hg.nacked]
    exact h.exclusive c hc
  · intro hgood
    rw [hg.acked, happ.goodCounter]
    rcases hg.issues with hi | hi | hi | hi
    · simp [hi.good] at hgood
    · exact h.goodAcked hi.wasGood
    · exact h.goodAcked hi.wasGood
    · exact h.goodAcked (hi.good ▸ hgood)

section Walked
variable {s s' : Session} {moved : List LtrFrame}

theorem Moves.kept_inflight (h : Moves s s' moved) {f : LtrFrame} (hf : f ∈ s'.ltr.inflightList) :
    f ∈ s.ltr.inflightList := h.divides.mem.mpr (Or.inr hf)

theorem Moves.was_inflight (h : Moves s s' moved) {f : LtrFrame} (hf : f ∈ moved) :
    f ∈ s.ltr.inflightList := h.divides.mem.mpr (Or.inl hf)

theorem Moves.unique (ht : Tracking s) (h : Moves s s' moved) {done : List LtrFrame}
    (hdone : s'.ltr.doneList = s.ltr.doneList ++ done)
    (hperm : (done.map LtrFrame.frameCounter).Perm (moved.map LtrFrame.frameCounter)) :
    UniqueCounters s'.ltr := by
  rw [← withLists_self s'.ltr]
  apply ht.unique.withLists_of_count h.pending
  intro c
  have hcount := (h.divides.perm.map LtrFrame.frameCounter).count_eq c
  have hd := hperm.count_eq c
  rw [hdone]
  simp only [List.map_append, List.count_append] at hcount ⊢
  omega

theorem Acks.tracking (h : Tracking s) (ha : Acks s s' moved) : Tracking s' := by
  have hm := ha.toMoves
  have hnotin : ∀ f ∈ s'.ltr.inflightList, ∀ g ∈ moved, g.frameCounter ≠ f.frameCounter :=
    fun f hf g hg => hm.divides.counter_ne h.unique.inflight hg hf
  constructor
  · exact hm.pending.trans h.pending
  · rw [hm.issued, h.counters, hm.stream.frameCounter]
  · rw [hm.issued]
    exact hm.divides.sublist.trans h.inflight
  · refine hm.unique h ha.done ?_
    rw [map_setAck_frameCounter]
    exact (List.reverse_perm moved).map _
  · intro f hf
    rw [ha.done, List.mem_append, List.mem_map] at hf
    rw [hm.stream.frameCounter]
    rcases hf with hf | ⟨g,hg,rfl⟩
    · exact h.doneBound f hf
    · exact (h.counter_bounds (h.inflight.subset (hm.was_inflight (List.mem_reverse.mp hg)))).2
  · intro f hf
    rw [ha.done, List.mem_append, List.mem_map] at hf
    rw [ha.acked, ha.nacked]
    rcases hf with hf | ⟨g,hg,rfl⟩
    · exact ⟨fun hack => Or.inl ((h.doneFlags f hf).1 hack),(h.doneFlags f hf).2⟩
    · have hg := List.mem_reverse.mp hg
      have hno := (h.inflight_flags (hm.was_inflight hg)).2
      exact ⟨fun _ => Or.inr ⟨g,hg,rfl⟩,fun hnack => by simp [setAck, hno] at hnack⟩
  · rw [hm.issued]
    exact h.unflagged
  · intro f hf
    rw [hm.issued] at hf
    rw [ha.acked]
    exact (h.reference f hf).imp_right (Or.imp_left (And.imp_right Or.inl))
  · intro f hf
    obtain ⟨hack,hnack⟩ := h.unanswered f (hm.kept_inflight hf)
    rw [ha.acked, ha.nacked]
    refine ⟨?_,hnack⟩
    rintro (hc | ⟨g,hg,hgf⟩)
    · exact hack hc
    · exact hnotin f hf g hg hgf
  · intro c hc
    rw [hm.issued]
    rw [ha.acked, ha.nacked] at hc
    rcases hc with (hc | ⟨g,hg,rfl⟩) | hc
    · exact h.answered c (Or.inl hc)
    · exact ⟨g,h.inflight.subset (hm.was_inflight hg),rfl⟩
    · exact h.answered c (Or.inr hc)
  · intro c hc
    rw [ha.acked] at hc
    rw [ha.nacked]
    rcases hc with hc | ⟨g,hg,rfl⟩
    · exact h.exclusive c hc
    · exact (h.unanswered g (hm.was_inflight hg)).2
  · intro hgood
    rw [ha.acked]
    rcases ha.good with ⟨-,hsame⟩ | ⟨g,hg,-,hset⟩
    · rw [hsame.counter]
      exact Or.inl (h.goodAcked (hsame.have_ ▸ hgood))
    · exact Or.inr ⟨g,hg,hset.counter.symm⟩

theorem Nacks.tracking {f₀ : LtrFrame} (h : Tracking s) (hn : Nacks s s' f₀ moved) :
    Tracking s' := by
  have hm := hn.toMoves
  have hnotin : ∀ f ∈ s'.ltr.inflightList, ∀ g ∈ moved, g.frameCounter ≠ f.frameCounter :=
    fun f hf g hg => hm.divides.counter_ne h.unique.inflight hg hf
  constructor
  · exact hm.pending.trans h.pending
  · rw [hm.issued, h.counters, hm.stream.frameCounter]
  · rw [hm.issued]
    exact hm.divides.sublist.trans h.inflight
  · refine hm.unique h hn.done ?_
    rw [map_setNack_frameCounter]
  · intro f hf
    rw [hn.done, List.mem_append, List.mem_map] at hf
    rw [hm.stream.frameCounter]
    rcases hf with hf | ⟨g,hg,rfl⟩
    · exact h.doneBound f hf
    · exact (h.counter_bounds (h.inflight.subset (hm.was_inflight hg))).2
  · intro f hf
    rw [hn.done, List.mem_append, List.mem_map] at hf
    rw [hn.acked, hn.nacked]
    rcases hf with hf | ⟨g,hg,rfl⟩
    · exact ⟨(h.doneFlags f hf).1,fun hnack => Or.inl ((h.doneFlags f hf).2 hnack)⟩
    · have hno := (h.inflight_flags (hm.was_inflight hg)).1
      exact ⟨fun hack => by simp [setNack, hno] at hack,fun _ => Or.inr ⟨g,hg,rfl⟩⟩
  · rw [hm.issued]
    exact h.unflagged
  · intro f hf
    rw [hm.issued] at hf
    rw [hn.acked]
    exact h.reference f hf
  · intro f hf
    obtain ⟨hack,hnack⟩ := h.unanswered f (hm.kept_inflight hf)
    rw [hn.acked, hn.nacked]
    refine ⟨hack,?_⟩
    rintro (hc | ⟨g,hg,hgf⟩)
    · exact hnack hc
    · exact hnotin f hf g hg hgf
  · intro c hc
    rw [hm.issued]
    rw [hn.acked, hn.nacked] at hc
    rcases hc with hc | hc | ⟨g,hg,rfl⟩
    · exact h.answered c (Or.inl hc)
    · exact h.answered c (Or.inr hc)
    · exact ⟨g,h.inflight.subset (hm.was_inflight hg),rfl⟩
  · intro c hc
    rw [hn.acked] at hc
    rw [hn.nacked]
    rintro (hc' | ⟨g,hg,rfl⟩)
    · exact h.exclusive c hc hc'
    · exact (h.unanswered g (hm.was_inflight hg)).1 hc
  · intro hgood
    rw [hn.acked, hn.good.counter]
    exact h.goodAcked (hn.good.have_ ▸ hgood)

end Walked

theorem Idles.tracking {s s' : Session} (h : Tracking s) (hi : Idles s s') : Tracking s' := by
  obtain ⟨needed,hl⟩ := hi.ltr
  constructor
  · simpa only [hl] using h.pending
  · simpa only [hl, hi.issued] using h.counters
  · simpa only [hl, hi.issued] using h.inflight
  · rw [hl]
    exact h.unique
  · simpa only [hl] using h.doneBound
  · simpa only [hl, hi.acked, hi.nacked] using h.doneFlags
  · simpa only [hi.issued] using h.unflagged
  · simpa only [hi.issued, hi.acked] using h.reference
  · simpa only [hl, hi.acked, hi.nacked] using h.unanswered
  · simpa only [hi.issued, hi.acked, hi.nacked] using h.answered
  · simpa only [hi.acked, hi.nacked] using h.exclusive
  · simpa only [hl, hi.acked] using h.goodAcked

theorem Transition.tracking {s s' : Session} (h : Tracking s) (ht : Transition s s') :
    Tracking s' := by
  cases ht with
  | get frame hg => exact hg.tracking h
  | ack moved ha => exact ha.tracking h
  | nack f moved hn => exact hn.tracking h
  | idle hi => exact hi.tracking h

theorem tracking_start : Tracking Session.start := by
  constructor <;> simp [Session.start, ltrCreate, UniqueCounters]

end Whist.Ltr
