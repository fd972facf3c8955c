import Whist.Video.LtrSafety

/-! # What the outstanding flags mean -/
namespace Whist.Ltr

inductive LongTermUse
  | refer
  | create
deriving DecidableEq

def LongTermUse.type : LongTermUse → VideoFrameType
  | .refer => .referLongTerm
  | .create => .createLongTerm

def LongTermUse.endedBy : LongTermUse → VideoFrameType → Prop
  | .refer, t => t = .intra
  | .create, t => t = .intra ∨ t = .referLongTerm

def LtrState.outstanding (ltr : LtrState) : LongTermUse → Bool
  | .refer => ltr.referLongTermOutstanding
  | .create => ltr.createLongTermOutstanding

def LtrState.outstandingCounter (ltr : LtrState) : LongTermUse → ℕ
  | .refer => ltr.referLongTermFrameCounter
  | .create => ltr.createLongTermFrameCounter

structure Newest (s : Session) (use : LongTermUse) (f : LtrFrame) : Prop where
  issued : f ∈ s.issued
  type : f.action.frameType = use.type
  latest : ∀ g ∈ s.issued, g.action.frameType = use.type ∨ use.endedBy g.action.frameType →
    g.frameCounter ≤ f.frameCounter

def AgedOut (s : Session) (f : LtrFrame) : Prop :=
  f.frameCounter ∉ s.acked ∧ f.frameCounter ∉ s.nacked ∧ f ∉ s.ltr.inflightList

structure Unanswered (s : Session) (f : LtrFrame) : Prop where
  acked : f.frameCounter ∉ s.acked
  nacked : f.frameCounter ∉ s.nacked
  agedOut : ¬AgedOut s f

def FlagMeans (s : Session) (use : LongTermUse) : Prop :=
  s.ltr.outstanding use = true ↔ ∃ f, Newest s use f ∧ Unanswered s f

/-- Both flags mean what they say, and nothing is created while an answer is missing. -/
structure FlagsMean (s : Session) : Prop where
  refer : FlagMeans s .refer
  create : FlagMeans s .create
  waits : ∀ frameId, (ltrGetNextAction s.ltr frameId).2.1.frameType = .createLongTerm →
    ∀ use f, Newest s use f → ¬Unanswered s f

theorem Tracking.unanswered_iff {s : Session} (h : Tracking s) (f : LtrFrame) :
    Unanswered s f ↔ f ∈ s.ltr.inflightList := by
  constructor
  · intro hu
    by_contra hf
    exact hu.agedOut ⟨hu.acked,hu.nacked,hf⟩
  · intro hf
    obtain ⟨hack,hnack⟩ := h.unanswered f hf
    exact ⟨hack,hnack,fun haged => haged.2.2 hf⟩

theorem Tracking.flagMeans_iff {s : Session} (h : Tracking s) (use : LongTermUse) :
    FlagMeans s use ↔
      (s.ltr.outstanding use = true ↔ ∃ f, Newest s use f ∧ f ∈ s.ltr.inflightList) := by
  unfold FlagMeans
  simp only [h.unanswered_iff]

/-- The choice of an INTRA frame in `ltr_pick_next_action`. -/
def IntraDue (ltr : LtrState) : Prop :=
  ltr.frameCounter = 0 ∨ ltr.intraFrameNeeded = true ∨
    (¬ltr.haveGoodLongTermFrame = true ∧
      ltr.frameCounter + 1 - ltr.intraFrameCounter ≥ ltrNewIntraFrameDelay) ∨
    (ltr.lastFrameIsBad = true ∧ ¬ltr.haveGoodLongTermFrame = true)

def LtrCall.nacks (ltr : LtrState) : LtrCall → Option LtrFrame
  | .markFrameNotReceived frameId => ltrFindFrameById ltr frameId
  | .markStreamBroken => ltr.inflightList.getLast?
  | _ => none

def AgesQuietly (ltr : LtrState) : Prop :=
  IntraDue ltr ∨ ltr.lastFrameIsBad = true ∨
    ∀ use, ltr.outstanding use = true →
      ∀ f ∈ ltr.inflightList.take (ltr.inflightList.length - ltrMaxInflightFrames),
        f.frameCounter ≠ ltr.outstandingCounter use

def NacksOutstanding (ltr : LtrState) (f : LtrFrame) : Prop :=
  ∀ use, ltr.outstanding use = true →
    (∃ g, Dependent ltr.inflightList f g ∧ g.action.frameType = use.type ∧
      ltr.intraFrameCounter ≤ g.frameCounter) →
    ∃ g, Dependent ltr.inflightList f g ∧ g.frameCounter = ltr.outstandingCounter use

def Undisturbed (s : Session) (c : LtrCall) : Prop :=
  (c.asksForFrame = true → AgesQuietly s.ltr) ∧ ∀ f, c.nacks s.ltr = some f → NacksOutstanding s.ltr f

structure Noted (s : Session) : Prop where
  le : ∀ use, ∀ f ∈ s.issued, f.action.frameType = LongTermUse.type use →
    f.frameCounter ≤ s.ltr.outstandingCounter use
  frame : ∀ use, s.ltr.outstandingCounter use = 0 ∨
    ∃ f ∈ s.issued, f.action.frameType = LongTermUse.type use ∧
      f.frameCounter = s.ltr.outstandingCounter use

section Facts
variable {s : Session} {use : LongTermUse} {f : LtrFrame}

theorem Newest.counter (ht : Tracking s) (hnoted : Noted s) (h : Newest s use f) :
    f.frameCounter = s.ltr.outstandingCounter use := by
  have hle := hnoted.le use f h.issued h.type
  have hpos := (ht.counter_bounds h.issued).1
  rcases hnoted.frame use with hzero | ⟨g,hg,htype,hgc⟩
  · omega
  · have := h.latest g hg (Or.inl htype)
    omega

theorem LongTermUse.endedBy_intra (use : LongTermUse) : use.endedBy .intra := by
  cases use with
  | refer => exact rfl
  | create => exact Or.inl rfl

theorem Newest.intra_le (h : Sound s) (hf : Newest s use f) : s.ltr.intraFrameCounter ≤ f.frameCounter := by
  by_cases hpos : 1 ≤ s.ltr.intraFrameCounter
  · obtain ⟨g,hg,hgc⟩ := (h.tracking.counter_mem _).mpr ⟨hpos,h.health.intraLe⟩
    have htype := h.health.intraFrame g hg hgc
    have := hf.latest g hg (Or.inr (htype ▸ use.endedBy_intra))
    omega
  · omega

end Facts

section Flags
variable {ltr : LtrState} {f : LtrFrame}

def Answers (ltr : LtrState) (use : LongTermUse) (f : LtrFrame) : Prop :=
  ltr.intraFrameCounter ≤ f.frameCounter ∧ f.action.frameType = use.type

theorem answers_congr {ltr' : LtrState} (h : ltr'.intraFrameCounter = ltr.intraFrameCounter) (use : LongTermUse)
    (f : LtrFrame) : Answers ltr' use f ↔ Answers ltr use f := by
  unfold Answers
  rw [h]

theorem ltrAckFlags_outstanding (ltr : LtrState) (f : LtrFrame) (use : LongTermUse) :
    ((ltrAckFlags ltr f).outstanding use = true ↔ ltr.outstanding use = true ∧
      ¬(Answers ltr use f ∧ f.frameCounter = ltr.outstandingCounter use)) ∧
    (ltrAckFlags ltr f).outstandingCounter use = ltr.outstandingCounter use ∧
    (ltrAckFlags ltr f).intraFrameCounter = ltr.intraFrameCounter := by
  unfold ltrAckFlags Answers
  by_cases hle : ltr.intraFrameCounter ≤ f.frameCounter
  · rw [if_pos hle]
    cases hty : f.action.frameType with
    | normal => cases use <;> simp [LongTermUse.type]
    | intra => cases use <;> simp [LtrState.outstanding, LtrState.outstandingCounter, LongTermUse.type]
    | createLongTerm =>
      by_cases hc : f.frameCounter = ltr.createLongTermFrameCounter
      · rw [hc] at hle
        cases use <;> simp [LtrState.outstanding, LtrState.outstandingCounter, LongTermUse.type, hc, hle]
      · cases use <;> simp [LtrState.outstanding, LtrState.outstandingCounter, LongTermUse.type, hc]
    | referLongTerm =>
      by_cases hc : f.frameCounter = ltr.referLongTermFrameCounter
      · rw [hc] at hle
        cases use <;> simp [LtrState.outstanding, LtrState.outstandingCounter, LongTermUse.type, hc, hle]
      · cases use <;> simp [LtrState.outstanding, LtrState.outstandingCounter, LongTermUse.type, hc]
  · rw [if_neg hle]
    simp [hle]

theorem ltrNackFlags_outstanding (ltr : LtrState) (f : LtrFrame) (use : LongTermUse) :
    ((ltrNackFlags ltr f).outstanding use = true ↔ ltr.outstanding use = true ∧ ¬Answers ltr use f) ∧
    (ltrNackFlags ltr f).outstandingCounter use = ltr.outstandingCounter use ∧
    (ltrNackFlags ltr f).intraFrameCounter = ltr.intraFrameCounter := by
  unfold ltrNackFlags Answers
  cases hty : f.action.frameType <;> cases use <;> dsimp only <;> split_ifs <;>
    simp_all [LtrState.outstanding, LtrState.outstandingCounter, LongTermUse.type]

theorem foldl_ackFlags_outstanding (fs : List LtrFrame) (ltr : LtrState) (use : LongTermUse) :
    ((fs.foldl ltrAckFlags ltr).outstanding use = true ↔ ltr.outstanding use = true ∧
      ∀ f ∈ fs, ¬(Answers ltr use f ∧ f.frameCounter = ltr.outstandingCounter use)) ∧
    (fs.foldl ltrAckFlags ltr).outstandingCounter use = ltr.outstandingCounter use := by
  induction fs generalizing ltr with
  | nil => exact ⟨by simp,rfl⟩
  | cons f fs ih =>
    obtain ⟨hflag,hcounter,hintra⟩ := ltrAckFlags_outstanding ltr f use
    obtain ⟨hflags,hcounters⟩ := ih (ltrAckFlags ltr f)
    rw [List.foldl_cons]
    refine ⟨?_,hcounters.trans hcounter⟩
    simp only [hflags, hflag, hcounter, answers_congr hintra, List.forall_mem_cons, and_assoc]

theorem foldl_nackFlags_outstanding (fs : List LtrFrame) (ltr : LtrState) (use : LongTermUse) :
    ((fs.foldl ltrNackFlags ltr).outstanding use = true ↔ ltr.outstanding use = true ∧
      ∀ f ∈ fs, ¬Answers ltr use f) ∧
    (fs.foldl ltrNackFlags ltr).outstandingCounter use = ltr.outstandingCounter use := by
  induction fs generalizing ltr with
  | nil => exact ⟨by simp,rfl⟩
  | cons f fs ih =>
    obtain ⟨hflag,hcounter,hintra⟩ := ltrNackFlags_outstanding ltr f use
    obtain ⟨hflags,hcounters⟩ := ih (ltrNackFlags ltr f)
    rw [List.foldl_cons]
    refine ⟨?_,hcounters.trans hcounter⟩
    simp only [hflags, hflag, answers_congr hintra, List.forall_mem_cons, and_assoc]

theorem ltrChooseFrame_outstanding (ltr : LtrState) (use : LongTermUse) :
    (ltrChooseFrame ltr).2.outstanding use = ltr.outstanding use ∧
      (ltrChooseFrame ltr).2.outstandingCounter use = ltr.outstandingCounter use ∧
      (ltrChooseFrame ltr).2.pendingList = ltr.pendingList ∧
      (ltrChooseFrame ltr).1.frameCounter = ltr.frameCounter + 1 ∧
      ((ltrChooseFrame ltr).1.action.frameType = .createLongTerm → ltr.outstanding use = false) := by
  unfold ltrChooseFrame
  dsimp only
  by_cases hcreate : ltr.haveGoodLongTermFrame = true ∧ ¬ltr.referLongTermOutstanding = true ∧
      ¬ltr.createLongTermOutstanding = true
  · have hnone : ltr.outstanding use = false := by
      cases use with
      | refer => exact Bool.eq_false_iff.mpr hcreate.2.1
      | create => exact Bool.eq_false_iff.mpr hcreate.2.2
    split_ifs <;> exact ⟨by cases use <;> rfl,by cases use <;> rfl,rfl,rfl,fun _ => hnone⟩
  · rw [if_neg hcreate]
    split_ifs <;> exact ⟨by cases use <;> rfl,by cases use <;> rfl,rfl,rfl,fun h => by cases h⟩

theorem ltrNoteFrame_outstanding (ltr : LtrState) (f : LtrFrame) (use : LongTermUse) :
    ((ltrNoteFrame ltr f).outstanding use = true ↔ f.action.frameType = use.type ∨
      ltr.outstanding use = true ∧ ¬use.endedBy f.action.frameType) ∧
    (ltrNoteFrame ltr f).outstandingCounter use =
      if f.action.frameType = use.type then f.frameCounter else ltr.outstandingCounter use := by
  unfold ltrNoteFrame
  cases hty : f.action.frameType <;> cases use <;>
    simp [LtrState.outstanding, LtrState.outstandingCounter, LongTermUse.type, LongTermUse.endedBy]

theorem outstanding_congr {ltr' : LtrState} (hrefer : ltr'.referLongTermOutstanding = ltr.referLongTermOutstanding)
    (hcreate : ltr'.createLongTermOutstanding = ltr.createLongTermOutstanding) (use : LongTermUse) :
    ltr'.outstanding use = ltr.outstanding use := by
  cases use with
  | refer => exact hrefer
  | create => exact hcreate

theorem outstandingCounter_congr {ltr' : LtrState}
    (hrefer : ltr'.referLongTermFrameCounter = ltr.referLongTermFrameCounter)
    (hcreate : ltr'.createLongTermFrameCounter = ltr.createLongTermFrameCounter) (use : LongTermUse) :
    ltr'.outstandingCounter use = ltr.outstandingCounter use := by
  cases use with
  | refer => exact hrefer
  | create => exact hcreate

theorem ltrGetNextAction_outstanding {frame : LtrFrame} {ltr' : LtrState} {frameId : UInt32}
    (hp : ltr.pendingList = []) (h : ltrGetNextAction ltr frameId = (0,frame.action,ltr')) (use : LongTermUse) :
    (ltr'.outstanding use = true ↔ frame.action.frameType = use.type ∨
      ltr.outstanding use = true ∧ ¬use.endedBy frame.action.frameType) ∧
    ltr'.outstandingCounter use =
      (if frame.action.frameType = use.type then ltr.frameCounter + 1 else ltr.outstandingCounter use) ∧
    (frame.action.frameType = .createLongTerm → ltr.outstanding use = false) := by
  have hold : (ltrClearOldFrames ltr).outstanding use = ltr.outstanding use := outstanding_congr rfl rfl use
  have hcold : (ltrClearOldFrames ltr).outstandingCounter use = ltr.outstandingCounter use :=
    outstandingCounter_congr rfl rfl use
  obtain ⟨hflag,hcounter,hpend,hfc,hcreate⟩ := ltrChooseFrame_outstanding (ltrClearOldFrames ltr) use
  cases hchoose : ltrChooseFrame (ltrClearOldFrames ltr) with
  | mk chosenFrame chosen =>
    rw [hchoose] at hflag hcounter hpend hfc hcreate
    have hget := ltrGetNextAction_of_choose frameId hchoose (hpend.trans hp)
    rw [h] at hget
    simp only [Prod.mk.injEq, true_and] at hget
    obtain ⟨haction,hltr⟩ := hget
    obtain ⟨noted,hnoted⟩ : ∃ noted, noted =
      { chosen with frameCounter := chosenFrame.frameCounter, pendingList := [chosenFrame] } := ⟨_,rfl⟩
    have hsame : noted.outstanding use = ltr.outstanding use := by
      rw [hnoted]
      exact (outstanding_congr rfl rfl use).trans (hflag.trans hold)
    have hcsame : noted.outstandingCounter use = ltr.outstandingCounter use := by
      rw [hnoted]
      exact (outstandingCounter_congr rfl rfl use).trans (hcounter.trans hcold)
    rw [← hnoted] at hltr
    obtain ⟨hnote,hnoteCounter⟩ := ltrNoteFrame_outstanding noted chosenFrame use
    rw [hsame] at hnote
    rw [hcsame, hfc] at hnoteCounter
    rw [haction, hltr]
    refine ⟨?_,?_,fun hty => hold.symm.trans (hcreate hty)⟩
    · rw [← hnote]
      exact Eq.congr_left (outstanding_congr rfl rfl use)
    · exact (outstandingCounter_congr rfl rfl use).trans hnoteCounter

end Flags

section Issuing
variable {s s' : Session} {frame f : LtrFrame} {use : LongTermUse}

theorem LongTermUse.not_endedBy_type (use : LongTermUse) : ¬use.endedBy use.type := by
  cases use with
  | refer => exact fun h => by cases h
  | create => rintro (h | h) <;> cases h

theorem Gets.older (ht : Tracking s) (hg : Gets s s' frame) (hf : f ∈ s.issued) :
    f.frameCounter < frame.frameCounter := by
  have := (ht.counter_bounds hf).2
  have := hg.appends.counter
  omega

theorem Gets.mem_issued (hg : Gets s s' frame) : f ∈ s'.issued ↔ f ∈ s.issued ∨ f = frame := by
  rw [hg.issued, List.mem_append, List.mem_singleton]

theorem Gets.newest (ht : Tracking s) (hg : Gets s s' frame) (htype : frame.action.frameType = use.type) :
    Newest s' use frame := by
  refine ⟨hg.mem_issued.mpr (Or.inr rfl),htype,?_⟩
  intro g hgi _
  rcases hg.mem_issued.mp hgi with hgi | rfl
  · exact (hg.older ht hgi).le
  · exact le_rfl

theorem Gets.newest_iff (ht : Tracking s) (hg : Gets s s' frame) (htype : frame.action.frameType ≠ use.type) :
    Newest s' use f ↔ Newest s use f ∧ ¬use.endedBy frame.action.frameType := by
  constructor
  · intro hf
    have hne : f ≠ frame := fun h => htype (h ▸ hf.type)
    have hissued := (hg.mem_issued.mp hf.issued).resolve_right hne
    refine ⟨⟨hissued,hf.type,fun g hgi => hf.latest g (hg.mem_issued.mpr (Or.inl hgi))⟩,fun hended => ?_⟩
    have hle := hf.latest frame (hg.mem_issued.mpr (Or.inr rfl)) (Or.inr hended)
    exact absurd (hg.older ht hissued) (not_lt.mpr hle)
  · rintro ⟨hf,hended⟩
    refine ⟨hg.mem_issued.mpr (Or.inl hf.issued),hf.type,fun g hgi hg' => ?_⟩
    rcases hg.mem_issued.mp hgi with hgi | rfl
    · exact hf.latest g hgi hg'
    · exact absurd hg' (not_or.mpr ⟨htype,hended⟩)

def Points (s : Session) (use : LongTermUse) : Prop :=
  s.ltr.outstanding use = true ↔ ∃ f, Newest s use f ∧ f ∈ s.ltr.inflightList

def FlagsAfter (s s' : Session) (frame : LtrFrame) : Prop :=
  ∀ use : LongTermUse, s'.ltr.outstanding use = true ↔ frame.action.frameType = use.type ∨
    s.ltr.outstanding use = true ∧ ¬use.endedBy frame.action.frameType

theorem Gets.points_of_type (ht : Tracking s) (hg : Gets s s' frame) (hflags : FlagsAfter s s' frame)
    (htype : frame.action.frameType = use.type) : Points s' use := by
  have hinflight : frame ∈ s'.ltr.inflightList := by
    rw [hg.appends.inflight]
    exact List.mem_append_right _ List.mem_cons_self
  exact iff_of_true ((hflags use).mpr (Or.inl htype)) ⟨frame,hg.newest ht htype,hinflight⟩

theorem Gets.points_of_ended (ht : Tracking s) (hg : Gets s s' frame) (hflags : FlagsAfter s s' frame)
    (hended : use.endedBy frame.action.frameType) : Points s' use := by
  have htype : frame.action.frameType ≠ use.type := fun h => use.not_endedBy_type (h ▸ hended)
  refine iff_of_false ?_ ?_
  · rw [hflags use]
    rintro (h | ⟨-,h⟩)
    · exact htype h
    · exact h hended
  · rintro ⟨f,hf,-⟩
    exact ((hg.newest_iff ht htype).mp hf).2 hended

theorem Gets.points_iff (ht : Tracking s) (hnoted : Noted s) (hg : Gets s s' frame)
    (hflags : FlagsAfter s s' frame) (hpoints : Points s use) (htype : frame.action.frameType ≠ use.type)
    (hended : ¬use.endedBy frame.action.frameType) :
    Points s' use ↔ (s.ltr.outstanding use = true →
      ∀ f ∈ s.ltr.inflightList.take (s.ltr.inflightList.length - ltrMaxInflightFrames),
        f.frameCounter ≠ s.ltr.outstandingCounter use) := by
  have hflag : s'.ltr.outstanding use = true ↔ s.ltr.outstanding use = true := by
    rw [hflags use]
    exact ⟨fun h => (h.resolve_left htype).1,fun h => Or.inr ⟨h,hended⟩⟩
  have hnewest : ∀ f, Newest s' use f ↔ Newest s use f := fun f =>
    (hg.newest_iff ht htype).trans (and_iff_left hended)
  have hsplit := List.take_append_drop (s.ltr.inflightList.length - ltrMaxInflightFrames) s.ltr.inflightList
  have hinflight : ∀ f, Newest s use f → (f ∈ s'.ltr.inflightList ↔
      f ∈ s.ltr.inflightList.drop (s.ltr.inflightList.length - ltrMaxInflightFrames)) := by
    intro f hf
    have hne : f ≠ frame := fun h => htype (h ▸ hf.type)
    rw [hg.appends.inflight, List.mem_append, List.mem_singleton]
    exact or_iff_left hne
  have hunique := ht.unique.inflight
  rw [← hsplit, List.map_append] at hunique
  constructor
  · intro hpoints' hset f hf hcounter
    obtain ⟨g,hg',hgin⟩ := hpoints'.mp (hflag.mpr hset)
    have hg := (hnewest g).mp hg'
    have hgdrop := (hinflight g hg).mp hgin
    refine List.disjoint_of_nodup_append hunique (List.mem_map_of_mem hf) ?_
    rw [hcounter, ← hg.counter ht hnoted]
    exact List.mem_map_of_mem hgdrop
  · intro hages
    refine hflag.trans (hpoints.trans ?_)
    constructor
    · rintro ⟨f,hf,hin⟩
      refine ⟨f,(hnewest f).mpr hf,(hinflight f hf).mpr ?_⟩
      rw [← hsplit, List.mem_append] at hin
      exact hin.resolve_left fun htake => hages (hpoints.mpr ⟨f,hf,hsplit ▸ List.mem_append_left _ htake⟩) f htake
        (hf.counter ht hnoted)
    · rintro ⟨f,hf,hin⟩
      have hold := (hnewest f).mp hf
      exact ⟨f,hold,List.mem_of_mem_drop ((hinflight f hold).mp hin)⟩

theorem Gets.points_all_iff (ht : Tracking s) (hnoted : Noted s) (hg : Gets s s' frame)
    (hflags : FlagsAfter s s' frame)
    (hcreate : frame.action.frameType = .createLongTerm → ∀ use, s.ltr.outstanding use = false)
    (hpoints : ∀ use, Points s use) : (∀ use, Points s' use) ↔ AgesQuietly s.ltr := by
  rcases hg.issues with hi | hi | hi | hi
  · refine iff_of_true (fun use => hg.points_of_ended ht hflags ?_) (Or.inl hi.cause)
    rw [hi.type]
    exact use.endedBy_intra
  · refine iff_of_true (fun use => ?_) (Or.inr (Or.inl hi.broken))
    cases use with
    | refer => exact hg.points_of_type ht hflags (by rw [hi.type]; rfl)
    | create => exact hg.points_of_ended ht hflags (by rw [hi.type]; exact Or.inr rfl)
  · have hnone := hcreate (by rw [hi.type])
    refine iff_of_true (fun use => ?_) (Or.inr (Or.inr fun use hset => ?_))
    · cases use with
      | refer =>
        refine (hg.points_iff ht hnoted hflags (hpoints .refer) ?_ ?_).mpr fun hset => ?_
        · rw [hi.type]
          exact fun h => by cases h
        · rw [hi.type]
          exact fun h => by cases h
        · rw [hnone .refer] at hset
          cases hset
      | create => exact hg.points_of_type ht hflags (by rw [hi.type]; rfl)
    · rw [hnone use] at hset
      cases hset
  · have hkeeps : ∀ use : LongTermUse, frame.action.frameType ≠ use.type ∧ ¬use.endedBy frame.action.frameType := by
      intro use
      rw [hi.type]
      cases use with
      | refer => exact ⟨fun h => (by cases h),fun h => (by cases h)⟩
      | create => exact ⟨fun h => (by cases h),fun h => (by rcases h with h | h <;> cases h)⟩
    have hdue : ¬IntraDue s.ltr := by
      rintro (hzero | hneeded | ⟨hno,hlong⟩ | ⟨hbad,-⟩)
      · exact hi.started.ne' hzero
      · rw [hi.unforced] at hneeded
        cases hneeded
      · exact absurd (hi.recent (Bool.eq_false_iff.mpr hno)) (not_lt.mpr hlong)
      · rw [hi.intact] at hbad
        cases hbad
    have hbad : ¬s.ltr.lastFrameIsBad = true := Bool.eq_false_iff.mp hi.intact
    have hiff := fun use => hg.points_iff ht hnoted hflags (hpoints use) (hkeeps use).1 (hkeeps use).2
    unfold AgesQuietly
    rw [or_iff_right hdue, or_iff_right hbad]
    exact forall_congr' hiff

end Issuing

structure Walks (s s' : Session) (moved : List LtrFrame) : Prop where
  issued : s'.issued = s.issued
  counter : ∀ use : LongTermUse, s'.ltr.outstandingCounter use = s.ltr.outstandingCounter use
  divides : Divides s.ltr.inflightList moved s'.ltr.inflightList

section Walking
variable {s s' : Session} {moved : List LtrFrame} {f : LtrFrame} {use : LongTermUse}

theorem Walks.newest_iff (hw : Walks s s' moved) : Newest s' use f ↔ Newest s use f := by
  constructor
  · rintro ⟨hissued,htype,hlatest⟩
    rw [hw.issued] at hissued hlatest
    exact ⟨hissued,htype,hlatest⟩
  · rintro ⟨hissued,htype,hlatest⟩
    rw [← hw.issued] at hissued hlatest
    exact ⟨hissued,htype,hlatest⟩

theorem Walks.noted (hnoted : Noted s) (hw : Walks s s' moved) : Noted s' := by
  constructor
  · intro use
    rw [hw.issued, hw.counter]
    exact hnoted.le use
  · intro use
    rw [hw.issued, hw.counter]
    exact hnoted.frame use

theorem Walks.stays (ht : Tracking s) (hnoted : Noted s) (hw : Walks s s' moved) (hf : Newest s use f) :
    f ∈ s'.ltr.inflightList ↔ f ∈ s.ltr.inflightList ∧
      ∀ g ∈ moved, g.frameCounter ≠ s.ltr.outstandingCounter use := by
  rw [← hf.counter ht hnoted]
  constructor
  · intro hin
    exact ⟨hw.divides.mem.mpr (Or.inr hin),fun g hg => hw.divides.counter_ne ht.unique.inflight hg hin⟩
  · rintro ⟨hin,hmoved⟩
    exact (hw.divides.mem.mp hin).resolve_left fun hf => hmoved f hf rfl

theorem Newest.answers (h : Sound s) (hf : Newest s use f) : Answers s.ltr use f := ⟨hf.intra_le h,hf.type⟩

theorem Walks.points_ack (h : Sound s) (hnoted : Noted s) (hw : Walks s s' moved)
    (hflag : s'.ltr.outstanding use = true ↔ s.ltr.outstanding use = true ∧
      ∀ f ∈ moved, ¬(Answers s.ltr use f ∧ f.frameCounter = s.ltr.outstandingCounter use))
    (hpoints : Points s use) : Points s' use := by
  refine hflag.trans ?_
  constructor
  · rintro ⟨hset,hmoved⟩
    obtain ⟨f,hf,hin⟩ := hpoints.mp hset
    refine ⟨f,hw.newest_iff.mpr hf,(hw.divides.mem.mp hin).resolve_left fun hfm => ?_⟩
    exact hmoved f hfm ⟨hf.answers h,hf.counter h.tracking hnoted⟩
  · rintro ⟨f,hf,hin⟩
    have hold := hw.newest_iff.mp hf
    obtain ⟨hin,hmoved⟩ := (hw.stays h.tracking hnoted hold).mp hin
    exact ⟨hpoints.mpr ⟨f,hold,hin⟩,fun g hg hboth => hmoved g hg hboth.2⟩

theorem Walks.points_nack_iff (h : Sound s) (hnoted : Noted s) (hw : Walks s s' moved)
    (hflag : s'.ltr.outstanding use = true ↔ s.ltr.outstanding use = true ∧ ∀ f ∈ moved, ¬Answers s.ltr use f)
    (hpoints : Points s use) :
    Points s' use ↔ (s.ltr.outstanding use = true → (∃ g ∈ moved, Answers s.ltr use g) →
      ∃ g ∈ moved, g.frameCounter = s.ltr.outstandingCounter use) := by
  constructor
  · rintro hpoints' hset ⟨g,hg,hanswers⟩
    obtain ⟨f,hf,hin⟩ := hpoints.mp hset
    by_contra hno
    simp only [not_exists, not_and] at hno
    have hstays := (hw.stays h.tracking hnoted hf).mpr ⟨hin,hno⟩
    exact (hflag.mp (hpoints'.mpr ⟨f,hw.newest_iff.mpr hf,hstays⟩)).2 g hg hanswers
  · intro hreaches
    refine hflag.trans ?_
    constructor
    · rintro ⟨hset,hmoved⟩
      obtain ⟨f,hf,hin⟩ := hpoints.mp hset
      exact ⟨f,hw.newest_iff.mpr hf,(hw.divides.mem.mp hin).resolve_left fun hfm => hmoved f hfm (hf.answers h)⟩
    · rintro ⟨f,hf,hin⟩
      have hold := hw.newest_iff.mp hf
      obtain ⟨hin,hmoved⟩ := (hw.stays h.tracking hnoted hold).mp hin
      have hset := hpoints.mpr ⟨f,hold,hin⟩
      refine ⟨hset,fun g hg hanswers => ?_⟩
      obtain ⟨g',hg',hcounter⟩ := hreaches hset ⟨g,hg,hanswers⟩
      exact hmoved g' hg' hcounter

end Walking

inductive FlagStep (s s' : Session) (c : LtrCall) : Prop
  | get (frame : LtrFrame) (hasks : c.asksForFrame = true) (hg : Gets s s' frame)
    (hflags : FlagsAfter s s' frame)
    (hcounter : ∀ use : LongTermUse, s'.ltr.outstandingCounter use =
      if frame.action.frameType = use.type then s.ltr.frameCounter + 1 else s.ltr.outstandingCounter use)
    (hcreate : frame.action.frameType = .createLongTerm → ∀ use, s.ltr.outstanding use = false)
  | ack (moved : List LtrFrame) (hasks : c.asksForFrame = false) (hnacks : c.nacks s.ltr = none)
    (hw : Walks s s' moved)
    (hflag : ∀ use, s'.ltr.outstanding use = true ↔ s.ltr.outstanding use = true ∧
      ∀ f ∈ moved, ¬(Answers s.ltr use f ∧ f.frameCounter = s.ltr.outstandingCounter use))
  | nack (f : LtrFrame) (moved : List LtrFrame) (hasks : c.asksForFrame = false)
    (hnacks : c.nacks s.ltr = some f) (hw : Walks s s' moved)
    (hdependent : ∀ g, g ∈ moved ↔ Dependent s.ltr.inflightList f g)
    (hflag : ∀ use, s'.ltr.outstanding use = true ↔ s.ltr.outstanding use = true ∧
      ∀ f ∈ moved, ¬Answers s.ltr use f)

section Calls
variable {s s' : Session} {c : LtrCall}

theorem FlagStep.idle (hasks : c.asksForFrame = false) (hnacks : c.nacks s.ltr = none)
    (hissued : s'.issued = s.issued) (needed : Bool) (hltr : s'.ltr = { s.ltr with intraFrameNeeded := needed }) :
    FlagStep s s' c := by
  refine .ack [] hasks hnacks ⟨hissued,fun use => ?_,?_⟩ fun use => ?_
  · rw [hltr]
    exact outstandingCounter_congr rfl rfl use
  · rw [hltr]
    exact ⟨List.Sublist.refl _,List.Perm.refl _⟩
  · have hsame : s'.ltr.outstanding use = s.ltr.outstanding use := by
      rw [hltr]
      exact outstanding_congr rfl rfl use
    simp [hsame]

theorem Tracking.nackStep (h : Tracking s) {f : LtrFrame} (hf : f ∈ s.ltr.inflightList)
    (hasks : c.asksForFrame = false) (hnacks : c.nacks s.ltr = some f) {ltr' : LtrState}
    (hrun : ltrNackFrameInternal (s.ltr.numFrames + 1) s.ltr f.frameCounter false = .ok ltr') :
    FlagStep s (s.observe ⟨0,none,ltr'⟩) c := by
  obtain ⟨moved,kept,hnack,hdiv,hdep⟩ := ltrNackFrameInternal_spec h.unique h.pending h.contiguous
    (fun g hg => h.inflight_flags hg) hf
  obtain rfl : ltr' = _ := Except.ok.inj (hrun.symm.trans hnack)
  refine .nack f moved hasks hnacks ⟨rfl,fun use => ?_,hdiv⟩ hdep fun use => ?_
  · exact (outstandingCounter_congr rfl rfl use).trans (foldl_nackFlags_outstanding moved s.ltr use).2
  · rw [← (foldl_nackFlags_outstanding moved s.ltr use).1]
    exact Eq.congr_left (outstanding_congr rfl rfl use)

theorem Tracking.ackStep (h : Tracking s) {f : LtrFrame} (hf : f ∈ s.ltr.inflightList)
    (hasks : c.asksForFrame = false) (hnacks : c.nacks s.ltr = none) {ltr' : LtrState}
    (hrun : ltrAckFrameInternal (s.ltr.numFrames + 1) s.ltr f.frameCounter = .ok ltr') :
    FlagStep s (s.observe ⟨0,none,ltr'⟩) c := by
  obtain ⟨moved,kept,hack,-,-,hdiv,-⟩ := ltrAckFrameInternal_spec h.unique h.contiguous
    (fun g hg => h.inflight_flags hg) hf
  obtain rfl : ltr' = _ := Except.ok.inj (hrun.symm.trans hack)
  refine .ack moved hasks hnacks ⟨rfl,fun use => ?_,hdiv⟩ fun use => ?_
  · exact (outstandingCounter_congr rfl rfl use).trans (foldl_ackFlags_outstanding moved s.ltr use).2
  · rw [← (foldl_ackFlags_outstanding moved s.ltr use).1]
    exact Eq.congr_left (outstanding_congr rfl rfl use)

theorem Tracking.flagStep (h : Tracking s) (hcall : s.call c = .ok s') : FlagStep s s' c := by
  obtain ⟨reply,hreply,rfl⟩ := Run.map_eq_ok hcall
  cases c with
  | getNextAction frameId =>
    obtain ⟨frame,ltr',hget,hg⟩ := h.get frameId
    rw [ltrCall, hget] at hreply
    cases hreply
    have hout := ltrGetNextAction_outstanding h.pending hget
    exact .get frame rfl hg (fun use => (hout use).1) (fun use => (hout use).2.1) fun hty use => (hout use).2.2 hty
  | markFrameReceived frameId =>
    obtain ⟨r,hr,rfl⟩ := Run.map_eq_ok hreply
    rw [ltrMarkFrameReceived] at hr
    cases hf : ltrFindFrameById s.ltr frameId with
    | none =>
      rw [hf] at hr
      cases hr
      exact FlagStep.idle rfl rfl rfl s.ltr.intraFrameNeeded rfl
    | some f =>
      rw [hf] at hr
      obtain ⟨ltr',hack,rfl⟩ := Run.map_eq_ok hr
      exact h.ackStep (ltrFindFrameById_mem hf) rfl rfl hack
  | markFrameNotReceived frameId =>
    obtain ⟨r,hr,rfl⟩ := Run.map_eq_ok hreply
    rw [ltrMarkFrameNotReceived] at hr
    cases hf : ltrFindFrameById s.ltr frameId with
    | none =>
      rw [hf] at hr
      cases hr
      exact FlagStep.idle rfl hf rfl s.ltr.intraFrameNeeded rfl
    | some f =>
      rw [hf] at hr
      obtain ⟨ltr',hnack,rfl⟩ := Run.map_eq_ok hr
      exact h.nackStep (c := .markFrameNotReceived frameId) (ltrFindFrameById_mem hf) rfl hf hnack
  | markStreamBroken =>
    obtain ⟨r,hr,rfl⟩ := Run.map_eq_ok hreply
    rw [ltrMarkStreamBroken] at hr
    cases hf : s.ltr.inflightList.getLast? with
    | none =>
      rw [hf] at hr
      cases hr
      exact FlagStep.idle rfl hf rfl true rfl
    | some f =>
      rw [hf] at hr
      exact h.nackStep (c := .markStreamBroken) (List.mem_of_getLast? hf) rfl hf hr
  | forceIntra =>
    cases hreply
    exact FlagStep.idle rfl rfl rfl true rfl

theorem FlagStep.noted (ht : Tracking s) (hnoted : Noted s) (hstep : FlagStep s s' c) : Noted s' := by
  cases hstep with
  | ack moved hasks hnacks hw hflag => exact hw.noted hnoted
  | nack f moved hasks hnacks hw hdependent hflag => exact hw.noted hnoted
  | get frame hasks hg hflags hcounter hcreate =>
    have hfc := hg.appends.counter
    constructor
    · intro use f hf htype
      rw [hcounter]
      rcases hg.mem_issued.mp hf with hf | rfl
      · have hle := hnoted.le use f hf htype
        have hbound := (ht.counter_bounds hf).2
        split_ifs <;> omega
      · rw [if_pos htype]
        omega
    · intro use
      rw [hcounter]
      by_cases htype : frame.action.frameType = use.type
      · rw [if_pos htype]
        exact Or.inr ⟨frame,hg.mem_issued.mpr (Or.inr rfl),htype,hfc⟩
      · rw [if_neg htype]
        exact (hnoted.frame use).imp_right fun hframe => hframe.imp fun f hf =>
          ⟨hg.mem_issued.mpr (Or.inl hf.1),hf.2⟩

/-- A call keeps the flags right exactly when it is undisturbed. -/
theorem FlagStep.points_iff (h : Sound s) (hnoted : Noted s) (hstep : FlagStep s s' c)
    (hpoints : ∀ use, Points s use) : (∀ use, Points s' use) ↔ Undisturbed s c := by
  cases hstep with
  | get frame hasks hg hflags hcounter hcreate =>
    have hnacks : ∀ f, c.nacks s.ltr = some f → NacksOutstanding s.ltr f := by
      intro f hf
      cases c with
      | getNextAction frameId => cases hf
      | _ => cases hasks
    exact (hg.points_all_iff h.tracking hnoted hflags hcreate hpoints).trans
      ⟨fun hages => ⟨fun _ => hages,hnacks⟩,fun hu => hu.1 hasks⟩
  | ack moved hasks hnacks hw hflag =>
    refine iff_of_true (fun use => hw.points_ack h hnoted (hflag use) (hpoints use)) ⟨fun htrue => ?_,fun f hf => ?_⟩
    · rw [hasks] at htrue
      cases htrue
    · rw [hnacks] at hf
      cases hf
  | nack f moved hasks hnacks hw hdependent hflag =>
    have hiff : ∀ use, Points s' use ↔ (s.ltr.outstanding use = true →
        (∃ g, Dependent s.ltr.inflightList f g ∧ g.action.frameType = use.type ∧
          s.ltr.intraFrameCounter ≤ g.frameCounter) →
        ∃ g, Dependent s.ltr.inflightList f g ∧ g.frameCounter = s.ltr.outstandingCounter use) := by
      intro use
      rw [hw.points_nack_iff h hnoted (hflag use) (hpoints use)]
      simp only [hdependent, Answers, and_comm (a := s.ltr.intraFrameCounter ≤ _)]
    refine (forall_congr' hiff).trans ⟨fun hreaches => ⟨fun htrue => ?_,fun g hg => ?_⟩,fun hu => hu.2 f hnacks⟩
    · rw [hasks] at htrue
      cases htrue
    · rw [hnacks] at hg
      cases hg
      exact hreaches

end Calls

section Sessions
variable {s s' : Session}

theorem flagsMean_iff (h : Tracking s) : FlagsMean s ↔ ∀ use, Points s use := by
  constructor
  · intro hmean use
    cases use with
    | refer => exact (h.flagMeans_iff .refer).mp hmean.refer
    | create => exact (h.flagMeans_iff .create).mp hmean.create
  · intro hpoints
    refine ⟨(h.flagMeans_iff .refer).mpr (hpoints .refer),(h.flagMeans_iff .create).mpr (hpoints .create),?_⟩
    intro frameId htype use f hf hu
    obtain ⟨frame,ltr',hget,-⟩ := h.get frameId
    rw [hget] at htype
    have hnone := (ltrGetNextAction_outstanding h.pending hget use).2.2 htype
    rw [(hpoints use).mpr ⟨f,hf,(h.unanswered_iff f).mp hu⟩] at hnone
    cases hnone

theorem noted_start : Noted Session.start := by
  constructor
  · intro use f hf
    cases hf
  · intro use
    cases use <;> exact Or.inl rfl

theorem points_start (use : LongTermUse) : Points Session.start use := by
  refine iff_of_false ?_ ?_
  · cases use <;> exact Bool.false_ne_true
  · rintro ⟨f,hf,-⟩
    cases hf.issued

/-- In every run the flags mean what they say in all states reached exactly when no nack and no
aging disturbs them. -/
theorem flagsMean_run_iff (calls : List LtrCall) :
    (∀ pre s, pre <+: calls → Session.start.run pre = .ok s → FlagsMean s) ↔
      ∀ pre c s, pre ++ [c] <+: calls → Session.start.run pre = .ok s → Undisturbed s c := by
  have hstep : ∀ pre c s t, Session.start.run pre = .ok s → Session.start.run (pre ++ [c]) = .ok t →
      s.call c = .ok t := by
    intro pre c s t hs ht
    rw [Session.run, Run.run_append [c] hs, Run.run_singleton] at ht
    exact ht
  have hsound : ∀ pre s, Session.start.run pre = .ok s → Sound s ∧ Noted s := by
    intro pre s hs
    refine @Run.run_invariant _ _ _ _ (fun s => Sound s ∧ Noted s) (fun _ => True) ?_ _ (fun _ _ => trivial) _ _
      ⟨sound_start,noted_start⟩ hs
    intro u c v hu _ hcall
    obtain ⟨v',hv',htr⟩ := hu.1.tracking.call c
    obtain rfl : v = v' := Except.ok.inj (hcall.symm.trans hv')
    exact ⟨htr.sound hu.1,(hu.1.tracking.flagStep hcall).noted hu.1.tracking hu.2⟩
  constructor
  · intro hmean pre c s hpre hs
    obtain ⟨hsnd,hnoted⟩ := hsound pre s hs
    obtain ⟨t,hcall,htr⟩ := hsnd.tracking.call c
    have ht : Session.start.run (pre ++ [c]) = .ok t := by
      rw [Session.run, Run.run_append [c] hs, Run.run_singleton]
      exact hcall
    have hbefore := (flagsMean_iff hsnd.tracking).mp
      (hmean pre s ((List.prefix_append pre [c]).trans hpre) hs)
    have hafter := (flagsMean_iff (htr.sound hsnd).tracking).mp (hmean _ t hpre ht)
    exact ((hsnd.tracking.flagStep hcall).points_iff hsnd hnoted hbefore).mp hafter
  · intro hcalm pre
    induction pre using List.reverseRecOn with
    | nil =>
      intro s _ hs
      cases hs
      exact (flagsMean_iff tracking_start).mpr points_start
    | append_singleton pre c ih =>
      intro t hpre ht
      obtain ⟨s,hs,hsnd⟩ := sound_start.run pre
      have hcall := hstep pre c s t hs ht
      have hbefore := (flagsMean_iff hsnd.tracking).mp
        (ih s ((List.prefix_append pre [c]).trans hpre) hs)
      have hafter := ((hsnd.tracking.flagStep hcall).points_iff hsnd (hsound pre s hs).2 hbefore).mpr
        (hcalm pre c s hpre hs)
      exact (flagsMean_iff (hsound _ t ht).1.tracking).mpr hafter

end Sessions

def lateNackCalls : List LtrCall :=
  [.getNextAction 1,.markFrameReceived 1,.getNextAction 2,.markFrameNotReceived 2,.getNextAction 3,
    .getNextAction 4,.markFrameNotReceived 4,.getNextAction 5,.markFrameNotReceived 3]

def latestReference : LtrFrame := ⟨⟨.referLongTerm,0⟩,5,1,5,true,false,false⟩

/-- The late nack clears the flag of the newer reference, which is still unanswered. -/
theorem late_nack_clears_flag : ¬∀ (calls : List LtrCall) (s : Session),
    Session.start.run calls = .ok s → FlagsMean s := by
  intro h
  have hstate : ∀ s ∈ (Session.start.run lateNackCalls).toOption,
      s.ltr.referLongTermOutstanding = false ∧ latestReference ∈ s.issued ∧
        (∀ g ∈ s.issued, g.frameCounter ≤ 5) ∧ latestReference ∈ s.ltr.inflightList := by
    decide +kernel
  obtain ⟨s,hs,hsnd⟩ := sound_start.run lateNackCalls
  obtain ⟨hflag,hissued,hlatest,hin⟩ := hstate s (by rw [hs]; rfl)
  have hnewest : Newest s .refer latestReference := ⟨hissued,rfl,fun g hg _ => hlatest g hg⟩
  have hset : s.ltr.referLongTermOutstanding = true :=
    (h lateNackCalls s hs).refer.mpr ⟨latestReference,hnewest,(hsnd.tracking.unanswered_iff _).mpr hin⟩
  rw [hflag] at hset
  cases hset

end Whist.Ltr
