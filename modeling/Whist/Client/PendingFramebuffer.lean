import Whist.Foundation.Run

/-! # The pending framebuffer

The video render thread stores a frame and marks a render as pending; the main thread takes both up, renders without the
mutex and clears the mark.  Frames are numbered in the order they are given.
-/
namespace Whist.Present
open Run

/-- Where the render thread is in `render_video`: outside, after `sdl_render_pending` said that
nothing is pending, and between `sdl_update_framebuffer` and `sdl_render_framebuffer`. -/
inductive RenderAt
  | outside
  | updating
  | marking
deriving DecidableEq

/-- Where the main thread is in `sdl_present_pending_framebuffer`: outside, before
`whist_frontend_render`, and before it takes the mutex again. -/
inductive MainAt
  | outside
  | rendering
  | clearing
deriving DecidableEq

structure Framebuffer where
  pendingRender : Bool := false
  pendingVideoFrame : Option ℕ := none
  insufficientBandwidth : Bool := false
  renderThread : RenderAt := .outside
  mainThread : MainAt := .outside
  /-- How many frames were given to `sdl_update_framebuffer`. -/
  given : ℕ := 0
  /-- Frames passed to `whist_frontend_update_video`, and those that a render followed. -/
  updated : List ℕ := []
  rendered : List ℕ := []
  replaced : List (ℕ × ℕ) := []
  freed : List ℕ := []

inductive Action
  | renderPending
  | updateFramebuffer (validDimensions : Bool)
  | renderFramebuffer
  | present (isInsufficientBandwidth : Bool)
  | render
  | clear
deriving DecidableEq

/-- The first section of `sdl_present_pending_framebuffer`. -/
def presentSection (s : Framebuffer) (isInsufficientBandwidth : Bool) : Framebuffer :=
  let pendingRender :=
    s.pendingRender || (isInsufficientBandwidth && !s.insufficientBandwidth)
  let s := { s with
    pendingRender := pendingRender
    insufficientBandwidth := isInsufficientBandwidth }
  if pendingRender = false then s
  else
    match s.pendingVideoFrame with
    | none => { s with mainThread := .rendering }
    | some frame =>
      { s with
        mainThread := .rendering
        updated := s.updated ++ [frame]
        freed := s.freed ++ [frame]
        pendingVideoFrame := none }

/-- `sdl_update_framebuffer`, given a new frame. -/
def updateSection (s : Framebuffer) (validDimensions : Bool) : Framebuffer :=
  let frame := s.given
  let s := { s with given := s.given + 1, renderThread := .marking }
  if validDimensions = false then s
  else
    match s.pendingVideoFrame with
    | none => { s with pendingVideoFrame := some frame }
    | some old =>
      { s with
        freed := s.freed ++ [old]
        replaced := s.replaced ++ [(old,frame)]
        pendingVideoFrame := some frame }

/-- A step of a thread that is elsewhere does nothing. -/
def step (s : Framebuffer) : Action → Framebuffer
  | .renderPending =>
    if s.renderThread = .outside ∧ s.pendingRender = false then { s with renderThread := .updating }
    else s
  | .updateFramebuffer validDimensions =>
    if s.renderThread = .updating then updateSection s validDimensions else s
  | .renderFramebuffer =>
    if s.renderThread = .marking then { s with pendingRender := true, renderThread := .outside }
    else s
  | .present isInsufficientBandwidth =>
    if s.mainThread = .outside then presentSection s isInsufficientBandwidth else s
  | .render =>
    if s.mainThread = .rendering then
      { s with mainThread := .clearing, rendered := s.updated }
    else s
  | .clear =>
    if s.mainThread = .clearing then { s with mainThread := .outside, pendingRender := false } else s

structure Accounted (s : Framebuffer) : Prop where
  /-- Each is still pending, was passed on, or was replaced. -/
  given : ∀ frame < s.given, s.pendingVideoFrame = some frame ∨ frame ∈ s.updated ∨
    ∃ later, (frame,later) ∈ s.replaced
  later : ∀ p ∈ s.replaced, p.1 < p.2
  rendered : s.mainThread ≠ .rendering → ∀ frame ∈ s.updated, frame ∈ s.rendered
  freed : ∀ frame, frame ∈ s.freed ↔ frame < s.given ∧ s.pendingVideoFrame ≠ some frame
  once : s.freed.Nodup

/-- No frame is lost, and one that waits while neither thread is inside is marked. -/
structure Proper (s : Framebuffer) : Prop where
  accounted : Accounted s
  marked : s.renderThread ≠ .marking → s.mainThread = .outside → s.pendingVideoFrame ≠ none →
    s.pendingRender = true

/-- The frames given have valid dimensions, and when the main thread clears the mark no frame
was stored and marked since it took up the pending one. -/
def Careful (s : Framebuffer) : Action → Prop
  | .updateFramebuffer validDimensions => s.renderThread = .updating → validDimensions = true
  | .clear => s.mainThread = .clearing → s.pendingVideoFrame = none ∨ s.renderThread = .marking
  | .renderPending | .renderFramebuffer | .present _ | .render => True

structure Inv (s : Framebuffer) : Prop where
  accounted : Accounted s
  pending : ∀ frame ∈ s.pendingVideoFrame, frame < s.given
  marked : s.pendingVideoFrame ≠ none → s.pendingRender = true ∨ s.renderThread = .marking
  inside : s.mainThread ≠ .outside → s.pendingRender = true

section
variable {s : Framebuffer}

theorem Inv.proper (h : Inv s) : Proper s :=
  ⟨h.accounted,fun hrender _ hframe => (h.marked hframe).resolve_right hrender⟩

theorem inv_start (pendingRender : Bool) : Inv { pendingRender := pendingRender } where
  accounted :=
    { given := fun _ h => absurd h (Nat.not_lt_zero _)
      later := fun _ h => (by cases h)
      rendered := fun _ _ h => (by cases h)
      freed := fun _ => ⟨fun h => (by cases h),fun h => absurd h.1 (Nat.not_lt_zero _)⟩
      once := List.nodup_nil }
  pending _ h := by cases h
  marked h := absurd rfl h
  inside h := absurd rfl h

theorem Inv.present (h : Inv s) (hmain : s.mainThread = .outside) (isInsufficientBandwidth : Bool) :
    Inv (presentSection s isInsufficientBandwidth) := by
  obtain ⟨⟨hgiven,hlater,hrendered,hfreed,honce⟩,hpending,hmarked,hinside⟩ := h
  have hrendered' := hrendered (by rw [hmain]; exact fun hc => (by cases hc))
  rw [presentSection]
  dsimp only
  split_ifs with hnone
  · have hmark : s.pendingRender = false := by
      rw [Bool.or_eq_false_iff] at hnone
      exact hnone.1
    refine ⟨⟨hgiven,hlater,fun _ => hrendered',hfreed,honce⟩,hpending,fun hframe => ?_,
      fun hne => absurd hmain hne⟩
    refine (hmarked hframe).imp_left fun hp => ?_
    rw [hmark] at hp
    cases hp
  · have htrue := (Bool.not_eq_false _).mp hnone
    cases hframe : s.pendingVideoFrame with
    | none =>
      rw [hframe] at hgiven hfreed
      exact ⟨⟨hgiven,hlater,fun hne => absurd rfl hne,hfreed,honce⟩,fun _ hc => (by cases hc),
        fun hc => absurd rfl hc,fun _ => htrue⟩
    | some frame =>
      have hlt := hpending frame hframe
      have hnew : frame ∉ s.freed := fun hc => ((hfreed frame).1 hc).2 hframe
      refine ⟨⟨fun f hf => ?_,hlater,fun hne => absurd rfl hne,fun f => ?_,?_⟩,
        fun _ hc => (by cases hc),fun hc => absurd rfl hc,fun _ => htrue⟩
      · rcases hgiven f hf with hp | hu | hr
        · obtain rfl := Option.some.inj (hframe.symm.trans hp)
          exact .inr (.inl (List.mem_append_right _ (List.mem_singleton_self _)))
        · exact .inr (.inl (List.mem_append_left _ hu))
        · exact .inr (.inr hr)
      · rw [List.mem_append,List.mem_singleton,hfreed,hframe]
        simp only [reduceCtorEq,not_false_eq_true,ne_eq,and_true,Option.some.injEq]
        constructor
        · rintro (hf | rfl)
          · exact hf.1
          · exact hlt
        · intro hf
          by_cases heq : f = frame
          · exact .inr heq
          · exact .inl ⟨hf,fun hc => heq hc.symm⟩
      · exact List.nodup_append.2 ⟨honce,List.nodup_singleton _,fun a ha b hb heq =>
          hnew (List.mem_singleton.1 hb ▸ heq ▸ ha)⟩

theorem Inv.update (h : Inv s) : Inv (updateSection s true) := by
  obtain ⟨⟨hgiven,hlater,hrendered,hfreed,honce⟩,hpending,hmarked,hinside⟩ := h
  rw [updateSection]
  dsimp only
  rw [if_neg (by decide)]
  cases hframe : s.pendingVideoFrame with
  | none =>
    rw [hframe] at hgiven hfreed
    refine ⟨⟨fun f hf => ?_,hlater,hrendered,fun f => ?_,honce⟩,?_,fun _ => .inr rfl,hinside⟩
    · rcases Nat.lt_succ_iff_lt_or_eq.1 hf with hf | rfl
      · exact .inr ((hgiven f hf).resolve_left fun hc => (by cases hc))
      · exact .inl rfl
    · rw [hfreed]
      simp only [reduceCtorEq,not_false_eq_true,ne_eq,and_true,Option.some.injEq]
      omega
    · rintro f hf
      obtain rfl := Option.some.inj hf
      exact Nat.lt_succ_self _
  | some old =>
    have hlt := hpending old hframe
    have hnew : old ∉ s.freed := fun hc => ((hfreed old).1 hc).2 hframe
    refine ⟨⟨fun f hf => ?_,?_,hrendered,fun f => ?_,?_⟩,?_,fun _ => .inr rfl,hinside⟩
    · rcases Nat.lt_succ_iff_lt_or_eq.1 hf with hf | rfl
      · rcases hgiven f hf with hp | hu | ⟨later,hr⟩
        · obtain rfl := Option.some.inj (hframe.symm.trans hp)
          exact .inr (.inr ⟨s.given,List.mem_append_right _ (List.mem_singleton_self _)⟩)
        · exact .inr (.inl hu)
        · exact .inr (.inr ⟨later,List.mem_append_left _ hr⟩)
      · exact .inl rfl
    · intro p hp
      rcases List.mem_append.1 hp with hp | hp
      · exact hlater p hp
      · rw [List.mem_singleton.1 hp]
        exact hlt
    · rw [List.mem_append,List.mem_singleton,hfreed,hframe]
      simp only [ne_eq,Option.some.injEq]
      omega
    · exact List.nodup_append.2 ⟨honce,List.nodup_singleton _,fun a ha b hb heq =>
        hnew (List.mem_singleton.1 hb ▸ heq ▸ ha)⟩
    · rintro f hf
      obtain rfl := Option.some.inj hf
      exact Nat.lt_succ_self _

theorem Inv.step (h : Inv s) {a : Action} (hc : Careful s a) : Inv (step s a) := by
  cases a with
  | renderPending =>
    rw [Present.step]
    split_ifs with hcheck
    · refine ⟨{ h.accounted with given := h.accounted.given },h.pending,fun hframe => ?_,h.inside⟩
      refine (h.marked hframe).imp_right fun hm => ?_
      rw [hcheck.1] at hm
      cases hm
    · exact h
  | updateFramebuffer validDimensions =>
    rw [Present.step]
    split_ifs with hupdating
    · rw [hc hupdating]
      exact h.update
    · exact h
  | renderFramebuffer =>
    rw [Present.step]
    split_ifs
    · exact ⟨{ h.accounted with given := h.accounted.given },h.pending,fun _ => .inl rfl,fun _ => rfl⟩
    · exact h
  | present isInsufficientBandwidth =>
    rw [Present.step]
    split_ifs with hmain
    · exact h.present hmain isInsufficientBandwidth
    · exact h
  | render =>
    rw [Present.step]
    split_ifs with hmain
    · have hmark := h.inside (by rw [hmain]; exact fun hc => (by cases hc))
      exact ⟨{ h.accounted with rendered := fun _ _ hf => hf },h.pending,fun _ => .inl hmark,
        fun _ => hmark⟩
    · exact h
  | clear =>
    rw [Present.step]
    split_ifs with hmain
    · have hrendered := h.accounted.rendered (by rw [hmain]; exact fun hc => (by cases hc))
      exact ⟨{ h.accounted with rendered := fun _ => hrendered },h.pending,
        fun hframe => .inr ((hc hmain).resolve_left hframe),fun hne => absurd rfl hne⟩
    · exact h

theorem Inv.careful_iff (h : Inv s) (a : Action) : Careful s a ↔ Proper (Present.step s a) := by
  refine ⟨fun hc => (h.step hc).proper,fun hp => ?_⟩
  cases a with
  | renderPending | renderFramebuffer | present | render => exact trivial
  | updateFramebuffer validDimensions =>
    intro hupdating
    cases validDimensions with
    | true => rfl
    | false =>
      rw [Present.step,if_pos hupdating,updateSection] at hp
      dsimp only at hp
      rw [if_pos rfl] at hp
      -- the frame that was dropped is freed by nobody
      have hfreed := (hp.accounted.freed s.given).2 ⟨Nat.lt_succ_self _,fun hframe =>
        (h.pending _ hframe).false⟩
      exact absurd ((h.accounted.freed s.given).1 hfreed).1 (Nat.lt_irrefl _)
  | clear =>
    intro hmain
    rw [Present.step,if_pos hmain] at hp
    by_contra hnot
    rw [not_or] at hnot
    cases hp.marked hnot.2 rfl hnot.1

end

/-- The runs in which no frame is lost are those whose steps are careful. -/
theorem frames_kept_iff (pendingRender : Bool) (acts : List Action) :
    Each step Careful { pendingRender := pendingRender } acts ↔
      Each step (fun s a => Proper (step s a)) { pendingRender := pendingRender } acts :=
  each_iff (fun _ _ h hc => h.step hc) (fun _ a h => h.careful_iff a) (inv_start pendingRender)

/-- The overlay of insufficient bandwidth starts a render after the render thread found none
pending, and its end clears the mark of the frame stored meanwhile. -/
theorem frame_lost_to_overlay : ¬ Each step (fun s a => Proper (step s a)) {}
    [.renderPending,.present true,.render,.updateFramebuffer true,.renderFramebuffer,.clear] := by
  rintro ⟨_,_,_,_,_,hclear,_⟩
  cases hclear.marked (fun hc => (by cases hc)) rfl (fun hc => (by cases hc))

end Whist.Present
