import Whist.Video.LtrInvariants

/-! # Nacked chains, recovery and the long-term slots -/
namespace Whist.Ltr

structure Ancestry (s : Session) : Prop where
  nackedClosed : ∀ f ∈ s.issued, f.referenceFrameCounter ∈ s.nacked → f.frameCounter ∈ s.nacked
  children : ∀ f ∈ s.issued, ∀ g ∈ s.ltr.inflightList, f.referenceFrameCounter = g.frameCounter →
    f ∈ s.ltr.inflightList ∨ f.frameCounter ∈ s.nacked
  bad : s.ltr.lastFrameIsBad = true ↔ s.ltr.frameCounter ∈ s.nacked

theorem Tracking.reference_lt {s : Session} (h : Tracking s) {f : LtrFrame} (hf : f ∈ s.issued) :
    f.referenceFrameCounter ≤ s.ltr.frameCounter := by
  have hb := h.counter_bounds hf
  rcases h.reference f hf with ⟨-,hz⟩ | ⟨-,hack⟩ | ⟨-,hn⟩
  · omega
  · obtain ⟨g,hg,hgc⟩ := h.answered _ (Or.inl hack)
    have := h.counter_bounds hg
    omega
  · omega

theorem mem_drop_of_lt {l : List LtrFrame} {n : ℕ} {f g : LtrFrame}
    (hs : l.Pairwise (fun f g => f.frameCounter < g.frameCounter)) (hf : f ∈ l)
    (hg : g ∈ l.drop n) (hlt : g.frameCounter < f.frameCounter) : f ∈ l.drop n := by
  rw [← List.take_append_drop n l] at hf hs
  rcases List.mem_append.mp hf with hf | hf
  · have := (List.pairwise_append.mp hs).2.2 f hf g hg
    omega
  · exact hf

theorem Gets.ancestry {s s' : Session} {frame : LtrFrame} (ht : Tracking s) (h : Ancestry s)
    (hg : Gets s s' frame) : Ancestry s' := by
  have happ := hg.appends
  have hnew : ∀ c ∈ s.nacked, c ≤ s.ltr.frameCounter := by
    intro c hc
    obtain ⟨f,hf,rfl⟩ := ht.answered c (Or.inr hc)
    exact (ht.counter_bounds hf).2
  constructor
  · intro f hf href
    rw [hg.nacked] at href ⊢
    rw [hg.issued, List.mem_append, List.mem_singleton] at hf
    rcases hf with hf | rfl
    · exact h.nackedClosed f hf href
    · exfalso
      rcases hg.issues with hi | hi | hi | hi
      · obtain ⟨g,hg,hgc⟩ := ht.answered _ (Or.inr href)
        have := ht.counter_bounds hg
        have := hi.reference
        omega
      · exact ht.exclusive _ (ht.goodAcked hi.wasGood) (hi.reference ▸ href)
      · exact Bool.false_ne_true (hi.intact ▸ h.bad.mpr (hi.reference ▸ href))
      · exact Bool.false_ne_true (hi.intact ▸ h.bad.mpr (hi.reference ▸ href))
  · intro f hf g hgin href
    rw [hg.nacked]
    rw [hg.issued, List.mem_append, List.mem_singleton] at hf
    rw [happ.inflight, List.mem_append, List.mem_singleton] at hgin ⊢
    rcases hf with hf | rfl
    · rcases hgin with hgin | rfl
      · have hgold := List.mem_of_mem_drop hgin
        rcases h.children f hf g hgold href with hfin | hnack
        · have hnext := ht.contiguous.2 g hgold f hfin href
          exact Or.inl (Or.inl (mem_drop_of_lt ht.contiguous.1 hfin hgin (by omega)))
        · exact Or.inr hnack
      · have := ht.reference_lt hf
        have := happ.counter
        omega
    · exact Or.inl (Or.inr rfl)
  · rw [happ.bad, hg.nacked, happ.frameCounter, happ.counter]
    refine ⟨fun hf => absurd hf (by simp),fun hmem => ?_⟩
    have := hnew _ hmem
    omega

theorem Acks.ancestry {s s' : Session} {moved : List LtrFrame} (ht : Tracking s) (h : Ancestry s)
    (ha : Acks s s' moved) : Ancestry s' := by
  have hm := ha.toMoves
  constructor
  · simpa only [hm.issued, ha.nacked] using h.nackedClosed
  · intro f hf g hgin href
    rw [hm.issued] at hf
    rw [ha.nacked]
    refine (h.children f hf g (hm.kept_inflight hgin) href).imp_left (fun hfin => ?_)
    rcases hm.divides.mem.mp hfin with hmoved | hkept
    · have hgm := ha.closed f hmoved g (hm.kept_inflight hgin) href.symm
      exact absurd rfl (hm.divides.counter_ne ht.unique.inflight hgm hgin)
    · exact hkept
  · rw [ha.bad, hm.stream.frameCounter, ha.nacked]
    exact h.bad

theorem Nacks.ancestry {s s' : Session} {f₀ : LtrFrame} {moved : List LtrFrame} (h : Ancestry s)
    (hn : Nacks s s' f₀ moved) : Ancestry s' := by
  have hm := hn.toMoves
  constructor
  · intro f hf href
    rw [hm.issued] at hf
    rw [hn.nacked] at href ⊢
    rcases href with href | ⟨g,hg,hgc⟩
    · exact Or.inl (h.nackedClosed f hf href)
    · rcases h.children f hf g (hm.was_inflight hg) hgc.symm with hfin | hnack
      · have hdep := (hn.dependent g).mp hg
        exact Or.inr ⟨f,(hn.dependent f).mpr (hdep.tail ⟨hfin,hgc.symm⟩),rfl⟩
      · exact Or.inl hnack
  · intro f hf g hgin href
    rw [hm.issued] at hf
    rw [hn.nacked]
    rcases h.children f hf g (hm.kept_inflight hgin) href with hfin | hnack
    · rcases hm.divides.mem.mp hfin with hmoved | hkept
      · exact Or.inr (Or.inr ⟨f,hmoved,rfl⟩)
      · exact Or.inl hkept
    · exact Or.inr (Or.inl hnack)
  · rw [hn.bad, h.bad, hm.stream.frameCounter, hn.nacked]

theorem Idles.ancestry {s s' : Session} (h : Ancestry s) (hi : Idles s s') : Ancestry s' := by
  obtain ⟨needed,hl⟩ := hi.ltr
  constructor
  · simpa only [hi.issued, hi.nacked] using h.nackedClosed
  · simpa only [hl, hi.issued, hi.nacked] using h.children
  · simpa only [hl, hi.nacked] using h.bad

theorem Transition.ancestry {s s' : Session} (ht : Tracking s) (h : Ancestry s)
    (htr : Transition s s') : Ancestry s' := by
  cases htr with
  | get frame hg => exact hg.ancestry ht h
  | ack moved ha => exact ha.ancestry ht h
  | nack f moved hn => exact hn.ancestry h
  | idle hi => exact hi.ancestry h

theorem ancestry_start : Ancestry Session.start := by
  constructor <;> simp [Session.start, ltrCreate]

theorem Ancestry.nacked_of_dependent {s : Session} (h : Ancestry s) {a g : LtrFrame}
    (hd : Dependent s.issued a g) (ha : a.frameCounter ∈ s.nacked) : g.frameCounter ∈ s.nacked := by
  induction hd with
  | refl => exact ha
  | @tail x y _ hstep ih => exact h.nackedClosed y hstep.1 (hstep.2.symm ▸ ih)

structure Health (s : Session) : Prop where
  current : 0 < s.ltr.frameCounter →
    (∃ f ∈ s.ltr.inflightList, f.frameCounter = s.ltr.frameCounter) ∨
      s.ltr.frameCounter ∈ s.acked ∨ s.ltr.frameCounter ∈ s.nacked
  intraBound : ∀ f ∈ s.issued, f.action.frameType = .intra → f.frameCounter ≤ s.ltr.intraFrameCounter
  intraFrame : ∀ f ∈ s.issued, f.frameCounter = s.ltr.intraFrameCounter → f.action.frameType = .intra
  intraLe : s.ltr.intraFrameCounter ≤ s.ltr.frameCounter
  /-- Until the INTRA is acked, the frames after it hang on it without a gap. -/
  chain : s.ltr.haveGoodLongTermFrame = false → ∀ f ∈ s.ltr.inflightList,
    s.ltr.intraFrameCounter < f.frameCounter →
      ∃ g ∈ s.ltr.inflightList, g.frameCounter = f.referenceFrameCounter ∧
        g.frameCounter + 1 = f.frameCounter
  currentGood : s.ltr.frameCounter ∈ s.acked → s.ltr.haveGoodLongTermFrame = true

theorem length_le_of_increasing {l : List LtrFrame} {a b : ℕ}
    (hs : l.Pairwise (fun f g => f.frameCounter < g.frameCounter))
    (hl : ∀ f ∈ l, a < f.frameCounter ∧ f.frameCounter ≤ b) : l.length ≤ b - a := by
  have hn : (l.map LtrFrame.frameCounter).Nodup := by
    rw [List.nodup_iff_pairwise_ne, List.pairwise_map]
    exact hs.imp (fun h => Nat.ne_of_lt h)
  have hsub : (l.map LtrFrame.frameCounter).toFinset ⊆ Finset.Ioc a b := by
    intro c hc
    obtain ⟨f,hf,rfl⟩ := List.mem_map.mp (List.mem_toFinset.mp hc)
    exact Finset.mem_Ioc.mpr (hl f hf)
  have hcard := Finset.card_le_card hsub
  rw [List.toFinset_card_of_nodup hn, List.length_map, Nat.card_Ioc] at hcard
  exact hcard

theorem Tracking.aged {s : Session} (h : Tracking s) {g : LtrFrame}
    (hg : g ∈ s.ltr.inflightList.take (s.ltr.inflightList.length - ltrMaxInflightFrames)) :
    g.frameCounter + ltrMaxInflightFrames ≤ s.ltr.frameCounter := by
  obtain ⟨excess,hexcess⟩ : ∃ n, n = s.ltr.inflightList.length - ltrMaxInflightFrames := ⟨_,rfl⟩
  rw [← hexcess] at hg
  have hpos : 0 < excess := by
    by_contra hz
    have hz : excess = 0 := by omega
    simp [hz] at hg
  have hs := h.contiguous.1
  rw [← List.take_append_drop excess s.ltr.inflightList, List.pairwise_append] at hs
  have hlen := length_le_of_increasing (a := g.frameCounter) (b := s.ltr.frameCounter) hs.2.1
    (fun f hf => ⟨hs.2.2 g hg f hf,
      (h.counter_bounds (h.inflight.subset (List.mem_of_mem_drop hf))).2⟩)
  rw [List.length_drop] at hlen
  have hb := h.counter_bounds (h.inflight.subset (List.mem_of_mem_take hg))
  simp only [ltrMaxInflightFrames] at hexcess ⊢
  omega

theorem Gets.health {s s' : Session} {frame : LtrFrame} (ht : Tracking s) (hn : Ancestry s)
    (h : Health s) (hg : Gets s s' frame) : Health s' := by
  have happ := hg.appends
  have hfc : s'.ltr.frameCounter = s.ltr.frameCounter + 1 := happ.frameCounter.trans happ.counter
  have hfresh : s'.ltr.frameCounter ∉ s.acked := by
    intro hc
    obtain ⟨f,hf,hfc'⟩ := ht.answered _ (Or.inl hc)
    have := (ht.counter_bounds hf).2
    omega
  have hintra : s'.ltr.intraFrameCounter = frame.frameCounter ∧ frame.action.frameType = .intra ∨
      s'.ltr.intraFrameCounter = s.ltr.intraFrameCounter ∧ frame.action.frameType ≠ .intra := by
    rcases hg.issues with hi | hi | hi | hi
    · exact Or.inl ⟨hi.intraCounter,by rw [hi.type]⟩
    all_goals exact Or.inr ⟨hi.intraCounter,by rw [hi.type]; simp⟩
  have hissued : ∀ f ∈ s'.issued, f ∈ s.issued ∨ f = frame := by
    intro f hf
    rwa [hg.issued, List.mem_append, List.mem_singleton] at hf
  constructor
  · intro _
    exact Or.inl ⟨frame,by simp [happ.inflight],happ.frameCounter.symm⟩
  · intro f hf hty
    have hle := h.intraLe
    have hc := happ.counter
    rcases hissued f hf with hf | rfl
    · have := h.intraBound f hf hty
      rcases hintra with ⟨he,-⟩ | ⟨he,-⟩ <;> omega
    · rcases hintra with ⟨he,-⟩ | ⟨-,hno⟩
      · omega
      · exact absurd hty hno
  · intro f hf he
    have hle := h.intraLe
    have hc := happ.counter
    rcases hissued f hf with hf | rfl
    · have := (ht.counter_bounds hf).2
      rcases hintra with ⟨he',-⟩ | ⟨he',-⟩
      · omega
      · exact h.intraFrame f hf (he.trans he')
    · rcases hintra with ⟨-,hty⟩ | ⟨he',-⟩
      · exact hty
      · omega
  · have hle := h.intraLe
    have hc := happ.counter
    rcases hintra with ⟨he,-⟩ | ⟨he,-⟩ <;> omega
  · intro hgood f hf hlt
    have hfb : f.frameCounter ≤ frame.frameCounter := by
      rw [happ.inflight, List.mem_append, List.mem_singleton] at hf
      rcases hf with hf | rfl
      · have := (ht.counter_bounds (ht.inflight.subset (List.mem_of_mem_drop hf))).2
        have := happ.counter
        omega
      · exact le_rfl
    rcases hg.issues with hi | hi | hi | hi
    · have := hi.intraCounter
      omega
    · simp [hi.good] at hgood
    · simp [hi.good] at hgood
    · have hnogood := hi.good.symm.trans hgood
      have hrecent := hi.recent hnogood
      rw [hi.intraCounter] at hlt
      -- The parent was in flight and is too recent to have aged out.
      have hparent : ∃ g ∈ s.ltr.inflightList, g.frameCounter = f.referenceFrameCounter ∧
          g.frameCounter + 1 = f.frameCounter := by
        rw [happ.inflight, List.mem_append, List.mem_singleton] at hf
        rcases hf with hf | rfl
        · exact h.chain hnogood f (List.mem_of_mem_drop hf) hlt
        · rcases h.current hi.started with ⟨g,hg,hgc⟩ | hack | hnack
          · exact ⟨g,hg,hgc.trans hi.reference.symm,by rw [hgc, happ.counter]⟩
          · simp [h.currentGood hack] at hnogood
          · exact absurd (hn.bad.mpr hnack) (by simp [hi.intact])
      obtain ⟨g,hgin,href,hnext⟩ := hparent
      refine ⟨g,?_,href,hnext⟩
      rw [happ.inflight, List.mem_append]
      left
      rw [← List.take_append_drop (s.ltr.inflightList.length - ltrMaxInflightFrames)
        s.ltr.inflightList, List.mem_append] at hgin
      refine hgin.resolve_left (fun haged => ?_)
      have := ht.aged haged
      simp only [ltrMaxInflightFrames, ltrNewIntraFrameDelay] at this hrecent
      omega
  · intro hc
    rw [hg.acked] at hc
    exact absurd hc hfresh

theorem Acks.below_intra {s s' : Session} {moved : List LtrFrame} (ht : Tracking s) (h : Health s)
    (ha : Acks s s' moved) (hgood : s'.ltr.haveGoodLongTermFrame = false) :
    s.ltr.haveGoodLongTermFrame = false ∧
      ∀ f ∈ moved, f.frameCounter < s.ltr.intraFrameCounter := by
  rcases ha.good with ⟨hno,hsame⟩ | ⟨f,-,-,hset⟩
  · have hnogood := hsame.have_.symm.trans hgood
    refine ⟨hnogood,?_⟩
    -- Along the references of the run, down to the INTRA.
    have key : ∀ n, ∀ f ∈ moved, f.frameCounter = n → f.frameCounter < s.ltr.intraFrameCounter := by
      intro n
      induction n using Nat.strong_induction_on with
      | _ n ih =>
        intro f hf hfn
        by_contra hle
        have hfin := ha.toMoves.was_inflight hf
        by_cases heq : f.frameCounter = s.ltr.intraFrameCounter
        · have hty := h.intraFrame f (ht.inflight.subset hfin) heq
          exact hno f hf ⟨heq.ge,Or.inl hty⟩
        · obtain ⟨g,hg,hgref,hgn⟩ := h.chain hnogood f hfin (by omega)
          have := ih g.frameCounter (by omega) g (ha.closed f hf g hg hgref) rfl
          omega
    exact fun f hf => key _ f hf rfl
  · simp [hset.have_] at hgood

theorem Acks.health {s s' : Session} {moved : List LtrFrame} (ht : Tracking s) (h : Health s)
    (ha : Acks s s' moved) : Health s' := by
  have hm := ha.toMoves
  constructor
  · rw [hm.stream.frameCounter]
    intro hpos
    rw [ha.acked, ha.nacked]
    rcases h.current hpos with ⟨f,hf,hfc⟩ | hack | hnack
    · rcases hm.divides.mem.mp hf with hf | hf
      · exact Or.inr (Or.inl (Or.inr ⟨f,hf,hfc⟩))
      · exact Or.inl ⟨f,hf,hfc⟩
    · exact Or.inr (Or.inl (Or.inl hack))
    · exact Or.inr (Or.inr hnack)
  · simpa only [hm.issued, hm.stream.intraFrameCounter] using h.intraBound
  · simpa only [hm.issued, hm.stream.intraFrameCounter] using h.intraFrame
  · simpa only [hm.stream.frameCounter, hm.stream.intraFrameCounter] using h.intraLe
  · intro hgood f hf hlt
    rw [hm.stream.intraFrameCounter] at hlt
    obtain ⟨hnogood,hbelow⟩ := ha.below_intra ht h hgood
    obtain ⟨g,hg,href,hnext⟩ := h.chain hnogood f (hm.kept_inflight hf) hlt
    refine ⟨g,(hm.divides.mem.mp hg).resolve_left (fun hmoved => ?_),href,hnext⟩
    have := hbelow g hmoved
    omega
  · intro hc
    rw [hm.stream.frameCounter, ha.acked] at hc
    by_contra hgood
    obtain ⟨hnogood,hbelow⟩ := ha.below_intra ht h (by simpa using hgood)
    rcases hc with hc | ⟨f,hf,hfc⟩
    · simp [h.currentGood hc] at hnogood
    · have := hbelow f hf
      have := h.intraLe
      omega

theorem Nacks.health {s s' : Session} {f₀ : LtrFrame} {moved : List LtrFrame} (ht : Tracking s)
    (h : Health s) (hn : Nacks s s' f₀ moved) : Health s' := by
  have hm := hn.toMoves
  constructor
  · rw [hm.stream.frameCounter]
    intro hpos
    rw [hn.acked, hn.nacked]
    rcases h.current hpos with ⟨f,hf,hfc⟩ | hack | hnack
    · rcases hm.divides.mem.mp hf with hf | hf
      · exact Or.inr (Or.inr (Or.inr ⟨f,hf,hfc⟩))
      · exact Or.inl ⟨f,hf,hfc⟩
    · exact Or.inr (Or.inl hack)
    · exact Or.inr (Or.inr (Or.inl hnack))
  · simpa only [hm.issued, hm.stream.intraFrameCounter] using h.intraBound
  · simpa only [hm.issued, hm.stream.intraFrameCounter] using h.intraFrame
  · simpa only [hm.stream.frameCounter, hm.stream.intraFrameCounter] using h.intraLe
  · intro hgood f hf hlt
    rw [hm.stream.intraFrameCounter] at hlt
    obtain ⟨g,hg,href,hnext⟩ :=
      h.chain (hn.good.have_.symm.trans hgood) f (hm.kept_inflight hf) hlt
    refine ⟨g,(hm.divides.mem.mp hg).resolve_left (fun hmoved => ?_),href,hnext⟩
    have hdep := ((hn.dependent g).mp hmoved).tail ⟨hm.kept_inflight hf,href.symm⟩
    exact hm.divides.counter_ne ht.unique.inflight ((hn.dependent f).mpr hdep) hf rfl
  · rw [hm.stream.frameCounter, hn.acked, hn.good.have_]
    exact h.currentGood

theorem Idles.health {s s' : Session} (h : Health s) (hi : Idles s s') : Health s' := by
  obtain ⟨needed,hl⟩ := hi.ltr
  constructor
  · simpa only [hl, hi.acked, hi.nacked] using h.current
  · simpa only [hl, hi.issued] using h.intraBound
  · simpa only [hl, hi.issued] using h.intraFrame
  · simpa only [hl] using h.intraLe
  · simpa only [hl] using h.chain
  · simpa only [hl, hi.acked] using h.currentGood

end Whist.Ltr
