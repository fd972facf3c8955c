import Whist.Video.LtrRecovery

/-! # Safety of the reference logic over whole sessions -/
namespace Whist.Ltr

structure Slots (s : Session) : Prop where
  good : s.ltr.haveGoodLongTermFrame = true →
    s.slots s.ltr.goodLongTermFrameIndex = some s.ltr.goodLongTermFrameCounter ∧
      s.ltr.intraFrameCounter ≤ s.ltr.goodLongTermFrameCounter ∧ s.ltr.goodLongTermFrameIndex ≤ 1
  index : ∀ f ∈ s.issued, (f.action.frameType = .intra → f.action.longTermFrameIndex = 0) ∧
    (f.action.frameType = .createLongTerm → f.action.longTermFrameIndex ≤ 1)
  createLe : s.ltr.createLongTermFrameCounter ≤ s.ltr.frameCounter
  /-- An INTRA still in flight is the newest one and nothing was created since. -/
  intraOpen : ∀ f ∈ s.ltr.inflightList, f.action.frameType = .intra →
    s.ltr.intraFrameCounter ≤ f.frameCounter → s.slots 0 = some f.frameCounter ∧
      s.ltr.haveGoodLongTermFrame = false ∧ s.ltr.createLongTermFrameCounter < f.frameCounter
  createOpen : ∀ f ∈ s.ltr.inflightList, f.action.frameType = .createLongTerm →
    s.ltr.intraFrameCounter ≤ f.frameCounter →
      f.frameCounter = s.ltr.createLongTermFrameCounter →
        s.slots f.action.longTermFrameIndex = some f.frameCounter

theorem Gets.slotsKept {s s' : Session} {frame : LtrFrame} (ht : Tracking s) (h : Slots s)
    (hg : Gets s s' frame) : Slots s' := by
  have happ := hg.appends
  have hfc : s'.ltr.frameCounter = s.ltr.frameCounter + 1 := happ.frameCounter.trans happ.counter
  have hin : ∀ f ∈ s'.ltr.inflightList, (f ∈ s.ltr.inflightList ∧ f.frameCounter < frame.frameCounter) ∨
      f = frame := by
    intro f hf
    rw [happ.inflight, List.mem_append, List.mem_singleton] at hf
    refine hf.imp_left (fun hf => ⟨List.mem_of_mem_drop hf,?_⟩)
    have := (ht.counter_bounds (ht.inflight.subset (List.mem_of_mem_drop hf))).2
    have := happ.counter
    omega
  have hcreate : s'.ltr.createLongTermFrameCounter ≤ s'.ltr.frameCounter := by
    have hle := h.createLe
    rcases hg.issues with hi | hi | hi | hi <;> rw [hi.create]
    · omega
    · omega
    · exact happ.frameCounter.ge
    · omega
  have hindex : ∀ f ∈ s'.issued, (f.action.frameType = .intra → f.action.longTermFrameIndex = 0) ∧
      (f.action.frameType = .createLongTerm → f.action.longTermFrameIndex ≤ 1) := by
    intro f hf
    rw [hg.issued, List.mem_append, List.mem_singleton] at hf
    rcases hf with hf | rfl
    · exact h.index f hf
    · rcases hg.issues with hi | hi | hi | hi <;> rw [hi.type]
      · simp
      · simp
      · refine ⟨by simp,fun _ => ?_⟩
        dsimp only
        split_ifs <;> simp
      · simp
  rcases hg.issues with hi | hi | hi | hi
  · have hslots : s'.slots = Function.update s.slots 0 (some frame.frameCounter) := by
      rw [hg.slots, writeSlots, hi.type]
    refine ⟨by simp [hi.good],hindex,hcreate,?_,?_⟩
    · intro f hf _ hle
      rcases hin f hf with ⟨-,hlt⟩ | rfl
      · have := hi.intraCounter
        omega
      · refine ⟨by rw [hslots, Function.update_self],hi.good,?_⟩
        have := h.createLe
        have := hi.create
        have := happ.counter
        omega
    · intro f hf hty hle
      rcases hin f hf with ⟨-,hlt⟩ | rfl
      · have := hi.intraCounter
        omega
      · simp [hi.type] at hty
  · have hslots : s'.slots = s.slots := by rw [hg.slots, writeSlots, hi.type]
    refine ⟨fun _ => ?_,hindex,hcreate,?_,?_⟩
    · rw [hslots, happ.goodIndex, happ.goodCounter, hi.intraCounter]
      exact h.good hi.wasGood
    · intro f hf hty hle
      rcases hin f hf with ⟨hf,-⟩ | rfl
      · have := (h.intraOpen f hf hty (hi.intraCounter ▸ hle)).2.1
        simp [hi.wasGood] at this
      · simp [hi.type] at hty
    · intro f hf hty hle he
      rcases hin f hf with ⟨hf,-⟩ | rfl
      · rw [hslots]
        exact h.createOpen f hf hty (hi.intraCounter ▸ hle) (he.trans hi.create)
      · simp [hi.type] at hty
  · obtain ⟨hslot,hle,hone⟩ := h.good hi.wasGood
    have hslots : s'.slots =
        Function.update s.slots frame.action.longTermFrameIndex (some frame.frameCounter) := by
      rw [hg.slots, writeSlots, hi.type]
    have hother : s.ltr.goodLongTermFrameIndex ≠ frame.action.longTermFrameIndex := by
      rw [hi.type]
      dsimp only
      split_ifs <;> omega
    refine ⟨fun _ => ?_,hindex,hcreate,?_,?_⟩
    · rw [hslots, happ.goodIndex, happ.goodCounter, hi.intraCounter, Function.update_of_ne hother]
      exact ⟨hslot,hle,hone⟩
    · intro f hf hty hle
      rcases hin f hf with ⟨hf,-⟩ | rfl
      · have := (h.intraOpen f hf hty (hi.intraCounter ▸ hle)).2.1
        simp [hi.wasGood] at this
      · simp [hi.type] at hty
    · intro f hf _ _ he
      rcases hin f hf with ⟨-,hlt⟩ | rfl
      · have := hi.create
        omega
      · rw [hslots, Function.update_self]
  · have hslots : s'.slots = s.slots := by rw [hg.slots, writeSlots, hi.type]
    refine ⟨fun hgood => ?_,hindex,hcreate,?_,?_⟩
    · rw [hslots, happ.goodIndex, happ.goodCounter, hi.intraCounter]
      exact h.good (hi.good ▸ hgood)
    · intro f hf hty hle
      rcases hin f hf with ⟨hf,-⟩ | rfl
      · rw [hslots, hi.good, hi.create]
        exact h.intraOpen f hf hty (hi.intraCounter ▸ hle)
      · simp [hi.type] at hty
    · intro f hf hty hle he
      rcases hin f hf with ⟨hf,-⟩ | rfl
      · rw [hslots]
        exact h.createOpen f hf hty (hi.intraCounter ▸ hle) (he.trans hi.create)
      · simp [hi.type] at hty

theorem Acks.slotsKept {s s' : Session} {moved : List LtrFrame} (ht : Tracking s) (hh : Health s)
    (h : Slots s) (ha : Acks s s' moved) : Slots s' := by
  have hm := ha.toMoves
  constructor
  · intro hgood
    rw [hm.slots, hm.stream.intraFrameCounter]
    rcases ha.good with ⟨-,hsame⟩ | ⟨f,hf,⟨hle,hty⟩,hset⟩
    · rw [hsame.index, hsame.counter]
      exact h.good (hsame.have_ ▸ hgood)
    · have hfin := hm.was_inflight hf
      have hindex := h.index f (ht.inflight.subset hfin)
      rw [hset.index, hset.counter]
      rcases hty with hty | ⟨hty,hc⟩
      · rw [hindex.1 hty]
        exact ⟨(h.intraOpen f hfin hty hle).1,hle,by omega⟩
      · exact ⟨h.createOpen f hfin hty hle hc,hle,hindex.2 hty⟩
  · simpa only [hm.issued] using h.index
  · simpa only [hm.stream.createCounter, hm.stream.frameCounter] using h.createLe
  · intro f hf hty hle
    rw [hm.stream.intraFrameCounter] at hle
    rw [hm.slots, hm.stream.createCounter]
    obtain ⟨hslot,hnogood,hlt⟩ := h.intraOpen f (hm.kept_inflight hf) hty hle
    refine ⟨hslot,?_,hlt⟩
    rcases ha.good with ⟨-,hsame⟩ | ⟨g,hg,⟨hgle,hgty⟩,-⟩
    · exact hsame.have_.trans hnogood
    · exfalso
      have hfb := hh.intraBound f (ht.inflight.subset (hm.kept_inflight hf)) hty
      rcases hgty with hgty | ⟨-,hgc⟩
      · have hgb := hh.intraBound g (ht.inflight.subset (hm.was_inflight hg)) hgty
        exact hm.divides.counter_ne ht.unique.inflight hg hf (by omega)
      · omega
  · intro f hf hty hle he
    rw [hm.stream.intraFrameCounter] at hle
    rw [hm.stream.createCounter] at he
    rw [hm.slots]
    exact h.createOpen f (hm.kept_inflight hf) hty hle he

theorem Nacks.slotsKept {s s' : Session} {f₀ : LtrFrame} {moved : List LtrFrame} (h : Slots s)
    (hn : Nacks s s' f₀ moved) : Slots s' := by
  have hm := hn.toMoves
  constructor
  · rw [hm.slots, hm.stream.intraFrameCounter, hn.good.have_, hn.good.index, hn.good.counter]
    exact h.good
  · simpa only [hm.issued] using h.index
  · simpa only [hm.stream.createCounter, hm.stream.frameCounter] using h.createLe
  · intro f hf hty hle
    rw [hm.stream.intraFrameCounter] at hle
    rw [hm.slots, hm.stream.createCounter, hn.good.have_]
    exact h.intraOpen f (hm.kept_inflight hf) hty hle
  · intro f hf hty hle he
    rw [hm.stream.intraFrameCounter] at hle
    rw [hm.stream.createCounter] at he
    rw [hm.slots]
    exact h.createOpen f (hm.kept_inflight hf) hty hle he

theorem Idles.slotsKept {s s' : Session} (h : Slots s) (hi : Idles s s') : Slots s' := by
  obtain ⟨needed,hl⟩ := hi.ltr
  constructor
  · simpa only [hl, hi.slots] using h.good
  · simpa only [hi.issued] using h.index
  · simpa only [hl] using h.createLe
  · simpa only [hl, hi.slots] using h.intraOpen
  · simpa only [hl, hi.slots] using h.createOpen

structure Sound (s : Session) : Prop where
  tracking : Tracking s
  ancestry : Ancestry s
  health : Health s
  slots : Slots s

theorem sound_start : Sound Session.start := by
  refine ⟨tracking_start,ancestry_start,?_,?_⟩
  · constructor <;> simp [Session.start, ltrCreate]
  · constructor <;> simp [Session.start, ltrCreate]

theorem Transition.sound {s s' : Session} (h : Sound s) (ht : Transition s s') : Sound s' := by
  refine ⟨ht.tracking h.tracking,ht.ancestry h.tracking h.ancestry,?_,?_⟩
  · cases ht with
    | get frame hg => exact hg.health h.tracking h.ancestry h.health
    | ack moved ha => exact ha.health h.tracking h.health
    | nack f moved hn => exact hn.health h.tracking h.health
    | idle hi => exact hi.health h.health
  · cases ht with
    | get frame hg => exact hg.slotsKept h.tracking h.slots
    | ack moved ha => exact ha.slotsKept h.tracking h.health h.slots
    | nack f moved hn => exact hn.slotsKept h.slots
    | idle hi => exact hi.slotsKept h.slots

theorem Sound.run {s : Session} (h : Sound s) (calls : List LtrCall) :
    ∃ s', s.run calls = .ok s' ∧ Sound s' := by
  refine Run.run_ok_of_invariant (fun s c hs => ?_) calls h
  obtain ⟨s',hcall,htr⟩ := hs.tracking.call c
  exact ⟨s',hcall,htr.sound hs⟩

/-- Exactly `f` and its in-flight dependents leave the in-flight list, marked as nacked. -/
def NacksExactly (ltr : LtrState) (f : LtrFrame) (ltr' : LtrState) : Prop :=
  (∀ g, g ∈ ltr'.inflightList ↔ g ∈ ltr.inflightList ∧ ¬Dependent ltr.inflightList f g) ∧
  ∃ moved : List LtrFrame, ltr'.doneList = ltr.doneList ++ moved.map setNack ∧
    ∀ g, g ∈ moved ↔ Dependent ltr.inflightList f g

theorem Nacks.exactly {s s' : Session} {f : LtrFrame} {moved : List LtrFrame} (ht : Tracking s)
    (hn : Nacks s s' f moved) : NacksExactly s.ltr f s'.ltr := by
  have hm := hn.toMoves
  refine ⟨fun g => ⟨fun hg => ⟨hm.kept_inflight hg,fun hd => ?_⟩,fun hg => ?_⟩,
    moved,hn.done,hn.dependent⟩
  · exact hm.divides.counter_ne ht.unique.inflight ((hn.dependent g).mpr hd) hg rfl
  · exact (hm.divides.mem.mp hg.1).resolve_left (fun hmoved => hg.2 ((hn.dependent g).mp hmoved))

theorem Gets.reference_intact {s s' : Session} {frame : LtrFrame} (h : Sound s)
    (hg : Gets s s' frame) (hty : frame.action.frameType ≠ .intra) :
    ∃ g ∈ s.issued, g.frameCounter = frame.referenceFrameCounter ∧
      ∀ a ∈ s.issued, Dependent s.issued a g → a.frameCounter ∉ s.nacked := by
  have ht := h.tracking
  have hclean : ∃ g ∈ s.issued, g.frameCounter = frame.referenceFrameCounter ∧
      g.frameCounter ∉ s.nacked := by
    have hcurrent : 0 < s.ltr.frameCounter → s.ltr.lastFrameIsBad = false →
        frame.referenceFrameCounter = s.ltr.frameCounter →
        ∃ g ∈ s.issued, g.frameCounter = frame.referenceFrameCounter ∧ g.frameCounter ∉ s.nacked := by
      intro hpos hintact href
      obtain ⟨g,hg,hgc⟩ := (ht.counter_mem s.ltr.frameCounter).mpr ⟨hpos,le_rfl⟩
      refine ⟨g,hg,hgc.trans href.symm,fun hnack => ?_⟩
      rw [hgc, ← h.ancestry.bad, hintact] at hnack
      exact Bool.false_ne_true hnack
    rcases hg.issues with hi | hi | hi | hi
    · exact absurd (by rw [hi.type]) hty
    · have hack := ht.goodAcked hi.wasGood
      obtain ⟨g,hg,hgc⟩ := ht.answered _ (Or.inl hack)
      exact ⟨g,hg,hgc.trans hi.reference.symm,hgc ▸ ht.exclusive _ hack⟩
    · exact hcurrent hi.started hi.intact hi.reference
    · exact hcurrent hi.started hi.intact hi.reference
  obtain ⟨g,hg,hgc,hnack⟩ := hclean
  exact ⟨g,hg,hgc,fun a _ hd ha => hnack (h.ancestry.nacked_of_dependent hd ha)⟩

/-- No sequence of calls fails an assertion, leaves a frame pending, nacks more or
less than a frame with its dependents, or encodes against a nacked frame. -/
theorem sessions_never_use_bad_reference (calls : List LtrCall) :
    ∃ s, Session.start.run calls = .ok s ∧
      (∀ frameId, ∃ frame ltr', ltrGetNextAction s.ltr frameId = (0,frame.action,ltr') ∧
        ltr'.pendingList = [] ∧ ltr'.inflightList.getLast? = some frame ∧
        (frame.action.frameType ≠ .intra →
          ∃ g ∈ s.issued, g.frameCounter = frame.referenceFrameCounter ∧
            ∀ a ∈ s.issued, Dependent s.issued a g → a.frameCounter ∉ s.nacked)) ∧
      (∀ frameId f, ltrFindFrameById s.ltr frameId = some f →
        ∃ ltr', ltrMarkFrameNotReceived s.ltr frameId = .ok (0,ltr') ∧ NacksExactly s.ltr f ltr') ∧
      ∀ f, s.ltr.inflightList.getLast? = some f →
        ∃ ltr', ltrMarkStreamBroken s.ltr = .ok ltr' ∧ NacksExactly s.ltr f ltr' := by
  obtain ⟨s,hrun,h⟩ := sound_start.run calls
  refine ⟨s,hrun,?_,?_,?_⟩
  · intro frameId
    obtain ⟨frame,ltr',hget,hg⟩ := h.tracking.get frameId
    have hin : ltr'.inflightList = _ ++ [frame] := hg.appends.inflight
    exact ⟨frame,ltr',hget,hg.appends.pending,by simp [hin],hg.reference_intact h⟩
  · intro frameId f hf
    obtain ⟨ltr',moved,hnack,hn⟩ := h.tracking.nack (ltrFindFrameById_mem hf)
    exact ⟨ltr',by simp [ltrMarkFrameNotReceived, hf, hnack, Except.map],
      (hn 0).exactly h.tracking⟩
  · intro f hf
    obtain ⟨ltr',moved,hnack,hn⟩ := h.tracking.nack (List.mem_of_getLast? hf)
    exact ⟨ltr',by simp [ltrMarkStreamBroken, hf, hnack],(hn 0).exactly h.tracking⟩

/-- A REFER_LONG_TERM names the slot which still holds the known-good frame, acked
and no older than the last INTRA. -/
theorem sessions_refer_to_good_slot (calls : List LtrCall) :
    ∃ s, Session.start.run calls = .ok s ∧ ∀ frameId,
      (ltrGetNextAction s.ltr frameId).2.1.frameType = .referLongTerm →
        s.slots (ltrGetNextAction s.ltr frameId).2.1.longTermFrameIndex =
            some s.ltr.goodLongTermFrameCounter ∧
          s.ltr.goodLongTermFrameCounter ∈ s.acked ∧
          ∀ f ∈ s.issued, f.action.frameType = .intra →
            f.frameCounter ≤ s.ltr.goodLongTermFrameCounter := by
  obtain ⟨s,hrun,h⟩ := sound_start.run calls
  refine ⟨s,hrun,?_⟩
  intro frameId
  obtain ⟨frame,ltr',hget,hg⟩ := h.tracking.get frameId
  rw [hget]
  intro hty
  rcases hg.issues with hi | hi | hi | hi
  · simp [hi.type] at hty
  · obtain ⟨hslot,hle,-⟩ := h.slots.good hi.wasGood
    dsimp only
    rw [hi.type]
    exact ⟨hslot,h.tracking.goodAcked hi.wasGood,
      fun f hf hintra => (h.health.intraBound f hf hintra).trans hle⟩
  · simp [hi.type] at hty
  · simp [hi.type] at hty

/-- An action which does not build on the newest frame. -/
def Recovers (action : LtrAction) : Prop :=
  action.frameType = .intra ∨ action.frameType = .referLongTerm

instance : DecidablePred Recovers := fun action =>
  inferInstanceAs (Decidable (action.frameType = .intra ∨ action.frameType = .referLongTerm))

def LtrCall.asksForFrame : LtrCall → Bool
  | .getNextAction _ => true
  | _ => false

theorem Session.issued_of_call {s s' : Session} {c : LtrCall} (hc : c.asksForFrame = false)
    (h : s.call c = .ok s') : s'.issued = s.issued := by
  obtain ⟨reply,hr,rfl⟩ := Run.map_eq_ok h
  have hnone : reply.action = none := by
    cases c with
    | getNextAction => simp [LtrCall.asksForFrame] at hc
    | markFrameReceived frameId =>
      obtain ⟨-,-,rfl⟩ := Run.map_eq_ok hr
      rfl
    | markFrameNotReceived frameId =>
      obtain ⟨-,-,rfl⟩ := Run.map_eq_ok hr
      rfl
    | markStreamBroken =>
      obtain ⟨-,-,rfl⟩ := Run.map_eq_ok hr
      rfl
    | forceIntra =>
      obtain rfl := Except.ok.inj hr
      rfl
  simp [Session.observe, hnone]

def Alerted (s : Session) : Prop :=
  s.ltr.intraFrameNeeded = true ∨ s.ltr.lastFrameIsBad = true

theorem Alerted.call {s s' : Session} {c : LtrCall} (h : Sound s) (ha : Alerted s)
    (hc : c.asksForFrame = false) (hcall : s.call c = .ok s') : Alerted s' := by
  obtain ⟨t,ht,htr⟩ := h.tracking.call c
  obtain rfl : s' = t := by rw [hcall] at ht; exact Except.ok.inj ht
  cases htr with
  | get frame hg =>
    have := hg.issued.symm.trans (Session.issued_of_call hc hcall)
    simp at this
  | ack moved hack =>
    rw [Alerted, hack.toMoves.stream.intraFrameNeeded, hack.bad]
    exact ha
  | nack f moved hn =>
    rw [Alerted, hn.toMoves.stream.intraFrameNeeded, hn.bad]
    exact ha.imp_right Or.inl
  | idle hi =>
    obtain ⟨needed,hl⟩ := hi.ltr
    rcases ha with hneeded | hbad
    · exact Or.inl (hi.needed hneeded)
    · exact Or.inr (by simpa only [hl] using hbad)

theorem Alerted.recovers {s : Session} (h : Sound s) (ha : Alerted s) (frameId : UInt32) :
    Recovers (ltrGetNextAction s.ltr frameId).2.1 := by
  obtain ⟨frame,ltr',hget,hg⟩ := h.tracking.get frameId
  rw [hget, Recovers]
  rcases hg.issues with hi | hi | hi | hi
  · exact Or.inl (by rw [hi.type])
  · exact Or.inr (by rw [hi.type])
  · rcases ha with hneeded | hbad
    · simp [hi.unforced] at hneeded
    · simp [hi.intact] at hbad
  · rcases ha with hneeded | hbad
    · simp [hi.unforced] at hneeded
    · simp [hi.intact] at hbad

/-- The newest frame lies open, or an INTRA follows anyway. -/
def Repairable (s : Session) : Prop :=
  s.ltr.intraFrameNeeded = true ∨ s.ltr.inflightList = [] ∨ s.ltr.frameCounter ∉ s.acked

theorem le_getLast_of_increasing {l : List LtrFrame} {f g : LtrFrame}
    (hs : l.Pairwise (fun f g => f.frameCounter < g.frameCounter)) (hl : l.getLast? = some g)
    (hf : f ∈ l) : f.frameCounter ≤ g.frameCounter := by
  obtain ⟨pre,rfl⟩ := List.getLast?_eq_some_iff.mp hl
  rcases List.mem_append.mp hf with hf | hf
  · exact le_of_lt ((List.pairwise_append.mp hs).2.2 f hf g (by simp))
  · rw [List.mem_singleton] at hf
    exact hf ▸ le_rfl

theorem Repairable.alerted {s t : Session} (h : Sound s) (hr : Repairable s)
    (hpos : 0 < s.ltr.frameCounter) (hcall : s.call .markStreamBroken = .ok t) : Alerted t := by
  cases hlast : s.ltr.inflightList.getLast? with
  | none =>
    have hc := @Session.call_of_reply s .markStreamBroken
      ⟨0,none,{ s.ltr with intraFrameNeeded := true }⟩ (by rw [ltrCall, ltrMarkStreamBroken, hlast]; rfl)
    rw [hcall, Except.ok.injEq] at hc
    exact Or.inl (by rw [hc]; rfl)
  | some f =>
    obtain ⟨ltr',moved,hnack,hn⟩ := h.tracking.nack (List.mem_of_getLast? hlast)
    have hc := @Session.call_of_reply s .markStreamBroken ⟨0,none,ltr'⟩
      (by simp [ltrCall, ltrMarkStreamBroken, hlast, hnack, Except.map])
    rw [hcall, Except.ok.injEq] at hc
    have hn := hn 0
    rw [← hc] at hn
    rcases hr with hneeded | hempty | hopen
    · exact Or.inl (hn.toMoves.stream.intraFrameNeeded.trans hneeded)
    · simp [hempty] at hlast
    · refine Or.inr (hn.bad.mpr ?_)
      rcases h.health.current hpos with ⟨g,hg,hgc⟩ | hack | hbad
      · -- The newest frame is the tail of the list, so the walk starts at it.
        have hle := le_getLast_of_increasing h.tracking.contiguous.1 hlast hg
        have hb := h.tracking.counter_bounds (h.tracking.inflight.subset (List.mem_of_getLast? hlast))
        exact Or.inr ⟨f,(hn.dependent f).mpr Relation.ReflTransGen.refl,by omega⟩
      · exact absurd hack hopen
      · exact Or.inl (h.ancestry.bad.mpr hbad)

theorem not_recovers_of_not_repairable {s : Session} (h : Sound s) (hr : ¬Repairable s)
    (hpos : 0 < s.ltr.frameCounter) :
    ∃ t, s.call .markStreamBroken = .ok t ∧
      ∀ frameId, ¬Recovers (ltrGetNextAction t.ltr frameId).2.1 := by
  simp only [Repairable, not_or, not_not, Bool.not_eq_true] at hr
  obtain ⟨hneeded,hne,hack⟩ := hr
  obtain ⟨f,hlast⟩ : ∃ f, s.ltr.inflightList.getLast? = some f :=
    Option.isSome_iff_exists.mp (by simpa using hne)
  obtain ⟨ltr',moved,hnack,hn⟩ := h.tracking.nack (List.mem_of_getLast? hlast)
  have hn := hn 0
  have hc := @Session.call_of_reply s .markStreamBroken ⟨0,none,ltr'⟩
    (by simp [ltrCall, ltrMarkStreamBroken, hlast, hnack, Except.map])
  refine ⟨_,hc,?_⟩
  intro frameId hrec
  have hsound := (Transition.nack f moved hn).sound h
  have hgood := hn.good.have_.trans (h.health.currentGood hack)
  have hstream := hn.toMoves.stream
  have hintact : ¬(s.observe ⟨0,none,ltr'⟩).ltr.lastFrameIsBad = true := by
    rw [hn.bad, h.ancestry.bad]
    rintro (hbad | ⟨g,hg,hgc⟩)
    · exact h.tracking.exclusive _ hack hbad
    · exact (h.tracking.unanswered g (hn.toMoves.was_inflight hg)).1 (hgc ▸ hack)
  obtain ⟨frame,ltr'',hget,hg⟩ := hsound.tracking.get frameId
  rw [hget, Recovers] at hrec
  rcases hg.issues with hi | hi | hi | hi
  · rcases hi.cause with hz | hforced | ⟨hno,-⟩ | ⟨hbad,-⟩
    · have := hstream.frameCounter
      omega
    · rw [hstream.intraFrameNeeded, hneeded] at hforced
      exact Bool.false_ne_true hforced
    · exact hno hgood
    · exact hintact hbad
  · exact hintact hi.broken
  · simp [hi.type] at hrec
  · simp [hi.type] at hrec

/-- After any calls, a broken mark leads to a recovering action exactly when an INTRA
is due already, nothing is in flight, or the newest frame has not been acked. -/
theorem broken_stream_recovers_iff (calls : List LtrCall) :
    ∃ s, Session.start.run calls = .ok s ∧ (0 < s.ltr.frameCounter →
      ((∀ between s', (∀ c ∈ between, LtrCall.asksForFrame c = false) →
        s.run (.markStreamBroken :: between) = .ok s' →
          ∀ frameId, Recovers (ltrGetNextAction s'.ltr frameId).2.1) ↔ Repairable s)) := by
  obtain ⟨s,hrun,h⟩ := sound_start.run calls
  refine ⟨s,hrun,fun hpos => ⟨fun hall => ?_,fun hr between s' hbetween hs' frameId => ?_⟩⟩
  · by_contra hr
    obtain ⟨t,hcall,hno⟩ := not_recovers_of_not_repairable h hr hpos
    have hrun' : s.run [.markStreamBroken] = .ok t := by
      rw [Session.run, Run.run_cons [] hcall]
      rfl
    exact hno 0 (hall [] t (by simp) hrun' 0)
  · obtain ⟨t,hcall,htr⟩ := h.tracking.call .markStreamBroken
    rw [Session.run, Run.run_cons between hcall] at hs'
    have hinv : Sound s' ∧ Alerted s' := by
      refine @Run.run_invariant _ _ _ _ (fun s => Sound s ∧ Alerted s)
        (fun c => LtrCall.asksForFrame c = false) ?_ between hbetween t s'
        ⟨htr.sound h,hr.alerted h hpos hcall⟩ hs'
      intro u c v hu hc huv
      obtain ⟨v',hv',htv⟩ := hu.1.tracking.call c
      obtain rfl : v = v' := by rw [huv] at hv'; exact Except.ok.inj hv'
      exact ⟨htv.sound hu.1,hu.2.call hu.1 hc huv⟩
    exact hinv.2.recovers hinv.1 frameId

/-- Frame 4 is acked while frame 3 of the abandoned branch is still in flight. -/
def deadBranchCalls : List LtrCall :=
  [.getNextAction 1,.getNextAction 2,.getNextAction 3,.forceIntra,.getNextAction 4,
    .markFrameReceived 4]

theorem dead_branch_hides_break :
    ∃ s t, Session.start.run deadBranchCalls = .ok s ∧ 0 < s.ltr.frameCounter ∧
      s.call .markStreamBroken = .ok t ∧ ¬Recovers (ltrGetNextAction t.ltr 5).2.1 :=
  ⟨_,_,rfl,by decide,rfl,by decide⟩

end Whist.Ltr
