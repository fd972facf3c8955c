import Whist.Video.LtrSafety

/-! # The calls of the video loop on a session -/
namespace Whist.Ltr

theorem Dependent.mono {l l' : List LtrFrame} (hl : ∀ f ∈ l, f ∈ l') {f g : LtrFrame}
    (h : Dependent l f g) : Dependent l' f g :=
  Relation.ReflTransGen.mono (fun _ y hxy => ⟨hl y hxy.1,hxy.2⟩) _ _ h

section
variable {s : Session}

theorem Tracking.received (h : Tracking s) {frameId : UInt32} {ret : ℤ} {ltr : LtrState}
    (hr : ltrMarkFrameReceived s.ltr frameId = .ok (ret,ltr)) :
    ∃ t, t.ltr = ltr ∧ Transition s t ∧ t.issued = s.issued ∧ SameStream s.ltr t.ltr ∧
      ∀ c ∈ t.acked, c ∈ s.acked ∨ ∃ f z, ltrFindFrameById s.ltr frameId = some f ∧ z ∈ s.issued ∧
        Dependent s.issued z f ∧ z.frameCounter = c := by
  rw [ltrMarkFrameReceived] at hr
  cases hf : ltrFindFrameById s.ltr frameId with
  | none =>
    rw [hf] at hr
    cases hr
    refine ⟨s,rfl,.idle ⟨⟨_,rfl⟩,id,rfl,rfl,fun c => Iff.rfl,fun c => Iff.rfl⟩,rfl,⟨rfl,rfl,rfl,rfl⟩,?_⟩
    exact fun c hc => Or.inl hc
  | some f =>
    obtain ⟨ltr',moved,hack,-,hdep,ha⟩ := h.ack (ltrFindFrameById_mem hf)
    simp only [hf, hack, Except.map, Except.ok.injEq, Prod.mk.injEq] at hr
    obtain ⟨rfl,rfl⟩ := hr
    refine ⟨_,rfl,.ack moved (ha 0),(ha 0).issued,(ha 0).stream,?_⟩
    intro c hc
    rcases ((ha 0).acked c).mp hc with hc | ⟨z,hz,hzc⟩
    · exact Or.inl hc
    · have hissued : ∀ g ∈ s.ltr.inflightList, g ∈ s.issued := fun g hg => h.inflight.subset hg
      exact Or.inr ⟨f,z,rfl,hissued z ((ha 0).was_inflight hz),Dependent.mono hissued (hdep z hz),hzc⟩

theorem Tracking.forced (h : Tracking s) :
    ∃ t, t.ltr = ltrForceIntra s.ltr ∧ Transition s t ∧ t.issued = s.issued ∧ ∀ c ∈ t.acked, c ∈ s.acked := by
  have hidle := @Tracking.idle s h 0 true (fun _ => rfl)
  exact ⟨_,rfl,.idle hidle,hidle.issued,fun c => (hidle.acked c).mp⟩

theorem Tracking.broken (h : Tracking s) {ltr : LtrState} (hr : ltrMarkStreamBroken s.ltr = .ok ltr) :
    ∃ t, t.ltr = ltr ∧ Transition s t ∧ t.issued = s.issued ∧
      ltr.intraFrameCounter = s.ltr.intraFrameCounter ∧ ltr.frameCounter = s.ltr.frameCounter ∧
      ∀ c ∈ t.acked, c ∈ s.acked := by
  rw [ltrMarkStreamBroken] at hr
  cases hf : s.ltr.inflightList.getLast? with
  | none =>
    rw [hf] at hr
    cases hr
    have hidle := @Tracking.idle s h 0 true (fun _ => rfl)
    exact ⟨_,rfl,.idle hidle,hidle.issued,rfl,rfl,fun c => (hidle.acked c).mp⟩
  | some f =>
    obtain ⟨ltr',moved,hnack,hn⟩ := h.nack (List.mem_of_getLast? hf)
    simp only [hf, hnack, Except.ok.injEq] at hr
    subst hr
    exact ⟨_,rfl,.nack f moved (hn 0),(hn 0).issued,(hn 0).stream.intraFrameCounter,
      (hn 0).stream.frameCounter,fun c => ((hn 0).acked c).mp⟩

theorem Tracking.next (h : Tracking s) (frameId : UInt32) :
    ∃ t frame, t.ltr = (ltrGetNextAction s.ltr frameId).2.2 ∧
      frame.action = (ltrGetNextAction s.ltr frameId).2.1 ∧ Gets s t frame ∧
      t.ltr.inflightList.getLast? = some frame := by
  obtain ⟨frame,ltr,hget,hg⟩ := h.get frameId
  refine ⟨_,frame,by rw [hget]; rfl,by rw [hget],hg,?_⟩
  rw [hg.appends.inflight]
  exact List.getLast?_concat

theorem Gets.reference_recent {t : Session} {frame : LtrFrame} (h : Sound s) (hg : Gets s t frame)
    (hi : ¬IssuesIntra s.ltr frame t.ltr) :
    frame.action.frameType ≠ .intra ∧ t.ltr.intraFrameCounter = s.ltr.intraFrameCounter ∧
      s.ltr.intraFrameCounter ≤ frame.referenceFrameCounter ∧
      frame.referenceFrameCounter ≤ s.ltr.frameCounter := by
  rcases hg.issues with hintra | hrefer | hcreate | hnormal
  · exact absurd hintra hi
  · obtain ⟨-,hle,-⟩ := h.slots.good hrefer.wasGood
    obtain ⟨g,hissued,hgood⟩ := h.tracking.answered _ (Or.inl (h.tracking.goodAcked hrefer.wasGood))
    rw [hrefer.type, hrefer.reference]
    exact ⟨fun h => (by cases h),hrefer.intraCounter,hle,hgood ▸ (h.tracking.counter_bounds hissued).2⟩
  · rw [hcreate.type, hcreate.reference]
    exact ⟨fun h => (by cases h),hcreate.intraCounter,h.health.intraLe,le_rfl⟩
  · rw [hnormal.type, hnormal.reference]
    exact ⟨fun h => (by cases h),hnormal.intraCounter,h.health.intraLe,le_rfl⟩

end

end Whist.Ltr
