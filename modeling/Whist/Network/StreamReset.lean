import Whist.Foundation.Run

/-! # Requests to reset a stream

A flag and an identifier, by which the receiving thread tells the video thread of a request, and the identifier of the
last start of the stream.  None is protected by a lock: a read or a write is one step.
-/
namespace Whist.StreamReset

/-- Where `udp_handle_stream_reset` is: before it reads the greatest identifier, writes it, or sets the
flag. -/
inductive HandlerPc where
  | idle
  | readGreatest (greatestFailedId : ℤ)
  | writeGreatest (greatestFailedId : ℤ)
  | setPending
deriving DecidableEq

/-- Where `udp_get_pending_stream_reset` is: before it reads the flag, reads the identifier, clears
the flag, or compares the identifier. -/
inductive GetterPc where
  | idle
  | readPending
  | readGreatest
  | clearPending (greatestFailedId : ℤ)
  | compare (greatestFailedId : ℤ)
deriving DecidableEq

/-- The fields of the context for one type of packets, the two threads, and what has happened: the
failed identifiers received, those received before a call that returned true, and the starts of the
stream that were sent.  `begun` are the starts sent before the current call, if no message was
received or handled since, and `completed` those sent before the first call of that kind that has
returned. -/
structure Context where
  connectionLost : Bool
  pendingStreamReset : Bool
  greatestFailedId : ℤ
  lastStartOfStreamId : ℤ
  handler : HandlerPc
  getter : GetterPc
  received : List ℤ
  answered : List ℤ
  starts : List ℤ
  begun : Option (List ℤ)
  completed : Option (List ℤ)
deriving DecidableEq

inductive ResetMove where
  | message (greatestFailedId : ℤ)
  | handler
  | call
  | getter
  | sendPacket (id : ℤ) (startOfStream : Bool)
  | loseConnection
deriving DecidableEq

namespace Context

def create : Context where
  connectionLost := false
  pendingStreamReset := true
  greatestFailedId := -1
  lastStartOfStreamId := 0
  handler := .idle
  getter := .idle
  received := []
  answered := []
  starts := []
  begun := none
  completed := none

def handlerAt (c : Context) : HandlerPc → Except String Context
  | .idle => .error "no message"
  | .readGreatest f => .ok { c with handler := .writeGreatest (max f c.greatestFailedId) }
  | .writeGreatest f => .ok { c with greatestFailedId := f, handler := .setPending }
  | .setPending => .ok { c with pendingStreamReset := true, handler := .idle }

def finish (c : Context) (result : Bool) : Context :=
  { c with
    getter := .idle
    answered := if result then c.received else c.answered
    begun := none
    completed := c.completed <|> c.begun }

def getterAt (c : Context) : GetterPc → Except String Context
  | .idle => .error "no call"
  | .readPending =>
    .ok (if c.pendingStreamReset then { c with getter := .readGreatest } else c.finish false)
  | .readGreatest => .ok { c with getter := .clearPending c.greatestFailedId }
  | .clearPending g => .ok { c with getter := .compare g, pendingStreamReset := false }
  | .compare g => .ok (c.finish (decide (g = -1 ∨ g > c.lastStartOfStreamId)))

def step (c : Context) : ResetMove → Except String Context
  | .message f =>
    if c.handler = .idle then
      .ok { c with
        handler := .readGreatest f
        received := c.received ++ [f]
        begun := none
        completed := none }
    else .error "busy"
  | .handler =>
    match c.handlerAt c.handler with
    | .error e => .error e
    | .ok c => .ok { c with begun := none, completed := none }
  | .call =>
    if c.getter = .idle then
      let c := { c with begun := some c.starts }
      .ok (if c.connectionLost then c.finish false else { c with getter := .readPending })
    else .error "busy"
  | .getter => c.getterAt c.getter
  | .sendPacket id startOfStream =>
    if c.connectionLost ∨ startOfStream = false then .ok c
    else .ok { c with lastStartOfStreamId := id, starts := c.starts ++ [id] }
  | .loseConnection => .ok { c with connectionLost := true }

/-- All messages have been handled and a later call has returned.  If the greatest failed identifier
exceeds those of the starts sent before that call, a call returned true after it was received. -/
def NoneLost (c : Context) : Prop :=
  c.handler = .idle → ∀ starts, c.completed = some starts →
    ∀ f ∈ c.received, (∀ g ∈ c.received, g ≤ f) → (∀ id ∈ starts, id < f) → f ∈ c.answered

/-- A call with this identifier answers with true, now and after the start of the stream `id`. -/
def Propagates (c : Context) (g : ℤ) : Prop := g = -1 ∨ c.lastStartOfStreamId < g

def comparing (c : Context) : Option ℤ :=
  match c.getter with
  | .idle => none
  | .readPending => if c.pendingStreamReset then some c.greatestFailedId else none
  | .readGreatest => some c.greatestFailedId
  | .clearPending g => some g
  | .compare g => some g

/-- The flag is cleared only for the greatest identifier, unless the handler is going to set it again
or the call answers with true; during a call no start of the stream overtakes the identifier
that it compares; the connection is not lost; and a failed identifier is that of a packet. -/
def Heeds (c : Context) : ResetMove → Prop
  | .message f => f = -1 ∨ 0 < f
  | .getter =>
    match c.getter with
    | .clearPending g => g = c.greatestFailedId ∨ c.handler ≠ .idle ∨ c.Propagates g
    | _ => True
  | .sendPacket id startOfStream =>
    startOfStream = true → ∀ g ∈ c.comparing, c.Propagates g → g = -1 ∨ id < g
  | .call => c.connectionLost = false
  | _ => True

instance (c : Context) (g : ℤ) : Decidable (c.Propagates g) := inferInstanceAs (Decidable (_ ∨ _))

instance (c : Context) : ∀ mv, Decidable (c.Heeds mv)
  | .message _ => inferInstanceAs (Decidable (_ ∨ _))
  | .getter =>
    match h : c.getter with
    | .clearPending g =>
      decidable_of_iff (g = c.greatestFailedId ∨ c.handler ≠ .idle ∨ c.Propagates g) (by simp [Heeds, h])
    | .idle => isTrue (by simp [Heeds, h])
    | .readPending => isTrue (by simp [Heeds, h])
    | .readGreatest => isTrue (by simp [Heeds, h])
    | .compare _ => isTrue (by simp [Heeds, h])
  | .sendPacket _ _ => inferInstanceAs (Decidable (_ → ∀ g ∈ c.comparing, _))
  | .call => inferInstanceAs (Decidable (_ = _))
  | .handler => isTrue trivial
  | .loseConnection => isTrue trivial

def Settled (c : Context) (starts : List ℤ) : Prop :=
  c.greatestFailedId ∈ c.received → c.greatestFailedId ∈ c.answered ∨ ∃ id ∈ starts, c.greatestFailedId ≤ id

def target (c : Context) : ℤ :=
  match c.handler with
  | .readGreatest f => max f c.greatestFailedId
  | .writeGreatest f => f
  | _ => c.greatestFailedId

def NotOvertaken (c : Context) (starts : List ℤ) (g : ℤ) : Prop := c.Propagates g ∨ ∃ id ∈ starts, g ≤ id

def CallAt (c : Context) (starts : List ℤ) : GetterPc → Prop
  | .idle => False
  | .readPending =>
    (c.pendingStreamReset = true ∨ c.Settled starts) ∧
      (c.pendingStreamReset = true → c.NotOvertaken starts c.greatestFailedId)
  | .readGreatest => c.NotOvertaken starts c.greatestFailedId
  | .clearPending g => g = c.greatestFailedId ∧ c.NotOvertaken starts g
  | .compare g => g = c.greatestFailedId ∧ c.NotOvertaken starts g

structure Inv (c : Context) : Prop where
  upper : ∀ f ∈ c.received, f ≤ c.target
  target : c.target = -1 ∨ c.target ∈ c.received
  greatest : c.greatestFailedId = -1 ∨ c.greatestFailedId ∈ c.received
  positive : ∀ f ∈ c.received, f = -1 ∨ 0 < f
  last : c.lastStartOfStreamId = 0 ∨ c.lastStartOfStreamId ∈ c.starts
  pending : c.getter = .readGreatest ∨ (∃ g, c.getter = .clearPending g) → c.pendingStreamReset = true
  owed : c.handler = .idle → c.pendingStreamReset = true ∨
    (∃ g, c.getter = .compare g ∧ (g = c.greatestFailedId ∨ c.Propagates g)) ∨ c.Settled c.starts
  call : c.handler = .idle → ∀ starts, c.begun = some starts → c.CallAt starts c.getter
  completed : c.handler = .idle → ∀ starts, c.completed = some starts → c.Settled starts

variable {c d : Context}

theorem Inv.noneLost (h : c.Inv) : c.NoneLost := by
  intro hidle starts hcompleted f hf hmax hstarts
  have htarget : c.target = c.greatestFailedId := by rw [Context.target, hidle]
  have hle := h.upper f hf
  have hgreatest : c.greatestFailedId = f := by
    rw [htarget] at hle
    rcases h.greatest with hnone | hmem
    · rcases h.positive f hf with rfl | hpos <;> omega
    · have := hmax _ hmem
      omega
  have hsettled := h.completed hidle starts hcompleted
  rw [Settled, hgreatest] at hsettled
  rcases hsettled hf with hanswered | ⟨id,hid,hle'⟩
  · exact hanswered
  · have := hstarts id hid
    omega

theorem create_inv : create.Inv where
  upper := fun f hf => absurd hf List.not_mem_nil
  target := Or.inl rfl
  greatest := Or.inl rfl
  positive := fun f hf => absurd hf List.not_mem_nil
  last := Or.inl rfl
  pending := fun _ => rfl
  owed := fun _ => Or.inl rfl
  call := fun _ _ h => by cases h
  completed := fun _ _ h => by cases h

theorem Inv.greatest_positive (h : c.Inv) : c.greatestFailedId = -1 ∨ 0 < c.greatestFailedId :=
  h.greatest.elim Or.inl (h.positive _)

theorem Inv.overtaken (h : c.Inv) {g : ℤ} (hg : g = -1 ∨ 0 < g) (hnot : ¬c.Propagates g) :
    ∃ id ∈ c.starts, g ≤ id := by
  unfold Propagates at hnot
  push Not at hnot
  obtain ⟨hne,hle⟩ := hnot
  have hpos := hg.resolve_left hne
  refine ⟨c.lastStartOfStreamId,h.last.resolve_left (fun hzero => ?_),hle⟩
  omega

theorem handler_inv (h : c.Inv) (hstep : c.handlerAt c.handler = .ok d) :
    Inv { d with begun := none, completed := none } := by
  have hupper := h.upper
  have htarget := h.target
  unfold Context.target at hupper htarget
  cases hpc : c.handler <;> rw [hpc] at hstep hupper htarget <;> dsimp only [handlerAt] at hstep
  case idle => cases hstep
  case readGreatest f =>
    cases hstep
    exact ⟨hupper,htarget,h.greatest,h.positive,h.last,h.pending,nofun,nofun,nofun⟩
  case writeGreatest f =>
    cases hstep
    exact ⟨hupper,htarget,htarget,h.positive,h.last,h.pending,nofun,nofun,nofun⟩
  case setPending =>
    cases hstep
    exact ⟨hupper,htarget,h.greatest,h.positive,h.last,fun _ => rfl,fun _ => Or.inl rfl,nofun,nofun⟩

/-- A call returns: what it has settled is settled for the starts sent before it. -/
theorem Inv.finish (h : c.Inv) {result : Bool}
    (howed : c.handler = .idle → result = true ∨ c.pendingStreamReset = true ∨ c.Settled c.starts)
    (hsettled : c.handler = .idle → ∀ starts, c.begun = some starts → result = true ∨ c.Settled starts) :
    (c.finish result).Inv := by
  have hanswered : ∀ starts, result = true ∨ c.Settled starts → (c.finish result).Settled starts := by
    rintro starts (rfl | hs) hmem
    · exact Or.inl hmem
    · cases result with
      | true => exact Or.inl hmem
      | false => exact hs hmem
  refine ⟨h.upper,h.target,h.greatest,h.positive,h.last,?_,?_,nofun,?_⟩
  · rintro (hpc | ⟨g,hpc⟩) <;> cases hpc
  · intro hidle
    rcases howed hidle with hresult | hpending | hs
    · exact Or.inr (Or.inr (hanswered _ (Or.inl hresult)))
    · exact Or.inl hpending
    · exact Or.inr (Or.inr (hanswered _ (Or.inr hs)))
  · intro hidle starts hcompleted
    change (c.completed <|> c.begun) = some starts at hcompleted
    cases hc : c.completed with
    | none =>
      rw [hc] at hcompleted
      exact hanswered starts (hsettled hidle starts hcompleted)
    | some starts' =>
      rw [hc] at hcompleted
      cases hcompleted
      exact hanswered starts (Or.inr (h.completed hidle starts hc))

theorem getter_inv (h : c.Inv) (hheeds : c.Heeds .getter) (hstep : c.getterAt c.getter = .ok d) : d.Inv := by
  have hcall := h.call
  have howed := h.owed
  unfold Heeds at hheeds
  cases hpc : c.getter <;> rw [hpc] at hstep hcall howed hheeds <;> dsimp only [getterAt] at hstep
  case idle => cases hstep
  case readPending =>
    cases hpending : c.pendingStreamReset with
    | true =>
      rw [if_pos hpending] at hstep
      cases hstep
      exact ⟨h.upper,h.target,h.greatest,h.positive,h.last,fun _ => hpending,fun _ => Or.inl hpending,
        fun hidle starts hb => (hcall hidle starts hb).2 hpending,h.completed⟩
    | false =>
      rw [if_neg (by simp [hpending])] at hstep
      cases hstep
      refine h.finish (fun hidle => ?_) (fun hidle starts hb => ?_)
      · rcases howed hidle with hset | ⟨g,hg,-⟩ | hs
        · exact Or.inr (Or.inl hset)
        · cases hg
        · exact Or.inr (Or.inr hs)
      · refine Or.inr ((hcall hidle starts hb).1.resolve_left ?_)
        rw [hpending]
        exact Bool.false_ne_true
  case readGreatest =>
    cases hstep
    have hpending := h.pending (Or.inl hpc)
    exact ⟨h.upper,h.target,h.greatest,h.positive,h.last,fun _ => hpending,fun _ => Or.inl hpending,
      fun hidle starts hb => ⟨rfl,hcall hidle starts hb⟩,h.completed⟩
  case clearPending g =>
    cases hstep
    refine ⟨h.upper,h.target,h.greatest,h.positive,h.last,?_,?_,hcall,h.completed⟩
    · rintro (hpc' | ⟨g',hpc'⟩) <;> cases hpc'
    · intro hidle
      rcases hheeds with hg | hbusy | hprop
      · exact Or.inr (Or.inl ⟨g,rfl,Or.inl hg⟩)
      · exact absurd hidle hbusy
      · exact Or.inr (Or.inl ⟨g,rfl,Or.inr hprop⟩)
  case compare g =>
    cases hstep
    by_cases hprop : c.Propagates g
    · rw [show decide (g = -1 ∨ g > c.lastStartOfStreamId) = true from decide_eq_true hprop]
      exact h.finish (fun _ => Or.inl rfl) (fun _ _ _ => Or.inl rfl)
    · rw [show decide (g = -1 ∨ g > c.lastStartOfStreamId) = false from decide_eq_false hprop]
      refine h.finish (fun hidle => Or.inr ?_) (fun hidle starts hb => Or.inr (fun _ => Or.inr ?_))
      · rcases howed hidle with hset | ⟨g',hg,hor⟩ | hs
        · exact Or.inl hset
        · cases hg
          obtain rfl := hor.resolve_right hprop
          exact Or.inr (fun _ => Or.inr (h.overtaken h.greatest_positive hprop))
        · exact Or.inr hs
      · obtain ⟨rfl,hnot⟩ := hcall hidle starts hb
        exact hnot.resolve_left hprop

theorem Inv.call_begins (h : c.Inv) (hidle : c.getter = .idle) :
    Inv { c with begun := some c.starts, getter := .readPending } := by
  refine ⟨h.upper,h.target,h.greatest,h.positive,h.last,?_,?_,?_,h.completed⟩
  · rintro (hpc | ⟨g,hpc⟩) <;> cases hpc
  · intro hhandler
    rcases h.owed hhandler with hpending | ⟨g,hg,-⟩ | hs
    · exact Or.inl hpending
    · rw [hidle] at hg
      cases hg
    · exact Or.inr (Or.inr hs)
  · rintro hhandler starts ⟨⟩
    refine ⟨?_,?_⟩
    · rcases h.owed hhandler with hpending | ⟨g,hg,-⟩ | hs
      · exact Or.inl hpending
      · rw [hidle] at hg
        cases hg
      · exact Or.inr hs
    · intro _
      by_cases hprop : c.Propagates c.greatestFailedId
      · exact Or.inl hprop
      · exact Or.inr (h.overtaken h.greatest_positive hprop)

theorem step_inv (mv : ResetMove) (h : c.Inv) (hheeds : c.Heeds mv) (hstep : c.step mv = .ok d) : d.Inv := by
  cases mv with
  | message f =>
    dsimp only [step] at hstep
    split_ifs at hstep with hidle
    cases hstep
    have htarget : c.target = c.greatestFailedId := by rw [Context.target, hidle]
    have hupper := h.upper
    rw [htarget] at hupper
    refine ⟨?_,?_,h.greatest.imp_right (List.mem_append_left _),?_,h.last,h.pending,nofun,nofun,nofun⟩
    · intro g hg
      change g ≤ max f c.greatestFailedId
      rcases List.mem_append.mp hg with hg | hg
      · exact (hupper g hg).trans (le_max_right _ _)
      · rw [List.mem_singleton.mp hg]
        exact le_max_left _ _
    · change max f c.greatestFailedId = -1 ∨ max f c.greatestFailedId ∈ c.received ++ [f]
      rcases max_choice f c.greatestFailedId with hmax | hmax <;> rw [hmax]
      · exact Or.inr (List.mem_append_right _ (List.mem_singleton.mpr rfl))
      · exact h.greatest.imp_right (List.mem_append_left _)
    · intro g hg
      rcases List.mem_append.mp hg with hg | hg
      · exact h.positive g hg
      · rw [List.mem_singleton.mp hg]
        exact hheeds
  | handler =>
    dsimp only [step] at hstep
    cases hhandler : c.handlerAt c.handler with
    | error e =>
      rw [hhandler] at hstep
      cases hstep
    | ok d' =>
      rw [hhandler] at hstep
      cases hstep
      exact handler_inv h hhandler
  | call =>
    have hconnected : c.connectionLost = false := hheeds
    by_cases hidle : c.getter = .idle
    · dsimp only [step] at hstep
      rw [if_pos hidle, if_neg (by simp [hconnected])] at hstep
      cases hstep
      exact h.call_begins hidle
    · simp [step, hidle] at hstep
  | getter => exact getter_inv h hheeds hstep
  | sendPacket id startOfStream =>
    dsimp only [step] at hstep
    split_ifs at hstep with hlost
    · cases hstep
      exact h
    cases hstep
    have hstart : startOfStream = true := by
      push Not at hlost
      simpa using hlost.2
    have hkeeps : ∀ g, g ∈ c.comparing → c.Propagates g → g = -1 ∨ id < g := hheeds hstart
    have hnot : ∀ starts g, g ∈ c.comparing → c.NotOvertaken starts g →
        (g = -1 ∨ id < g) ∨ ∃ id ∈ starts, g ≤ id := fun starts g hg hnot => hnot.imp_left (hkeeps g hg)
    refine ⟨h.upper,h.target,h.greatest,h.positive,Or.inr ?_,h.pending,?_,?_,h.completed⟩
    · exact List.mem_append_right _ (List.mem_singleton.mpr rfl)
    · intro hidle
      rcases h.owed hidle with hpending | ⟨g,hg,hor⟩ | hs
      · exact Or.inl hpending
      · refine Or.inr (Or.inl ⟨g,hg,hor.imp_right (hkeeps g ?_)⟩)
        rw [comparing, hg]
        rfl
      · refine Or.inr (Or.inr (fun hmem => (hs hmem).imp_right ?_))
        rintro ⟨id',hid',hle⟩
        exact ⟨id',List.mem_append_left _ hid',hle⟩
    · intro hidle starts hb
      have hcall := h.call hidle starts hb
      change CallAt _ starts c.getter
      cases hpc : c.getter <;> rw [hpc] at hcall
      case idle => exact hcall
      case readPending =>
        refine ⟨hcall.1.imp_right (fun hs => hs),fun hpending => ?_⟩
        refine hnot starts _ ?_ (hcall.2 hpending)
        rw [comparing, hpc]
        exact if_pos hpending
      case readGreatest => exact hnot starts _ (by rw [comparing, hpc]; rfl) hcall
      case clearPending g => exact ⟨hcall.1,hnot starts g (by rw [comparing, hpc]; rfl) hcall.2⟩
      case compare g => exact ⟨hcall.1,hnot starts g (by rw [comparing, hpc]; rfl) hcall.2⟩
  | loseConnection =>
    cases hstep
    exact ⟨h.upper,h.target,h.greatest,h.positive,h.last,h.pending,h.owed,h.call,h.completed⟩

/-- In every run whose steps heed the identifier that is being handed on, no request is lost. -/
theorem none_lost (moves : List ResetMove) (hheeds : Run.EachOk step Heeds create moves)
    (hrun : Run.run step create moves = .ok d) : d.NoneLost :=
  (Run.EachOk.invariant (fun _ mv _ => step_inv mv) create_inv hheeds hrun).noneLost

def handles (f : ℤ) : List ResetMove := [.message f,.handler,.handler,.handler]

def asks : List ResetMove := [.call,.getter,.getter,.getter,.getter]

/-- A request for a frame after the start of the stream is answered. -/
theorem none_lost_one : ∃ d, Run.run step create (asks ++ [.sendPacket 10 true] ++ handles 20 ++ asks) = .ok d ∧
    d.answered = [20] ∧ d.NoneLost := by
  refine ⟨_,rfl,rfl,?_⟩
  exact none_lost (asks ++ [.sendPacket 10 true] ++ handles 20 ++ asks) (by decide) rfl

/-- The call has read the identifier of an old request when a new one comes, and then clears its
flag. -/
theorem none_lost_fails :
    ¬∀ (moves : List ResetMove) (d : Context), Run.run step create moves = .ok d → d.NoneLost := by
  intro h
  have hlost := h (asks ++ [.sendPacket 10 true] ++ handles 5 ++ [.call,.getter,.getter] ++ handles 20 ++
    [.getter,.getter,.call,.getter]) _ rfl rfl [10] rfl 20 (by decide) (by decide) (by decide)
  exact absurd hlost (by decide)

end Context

end Whist.StreamReset
