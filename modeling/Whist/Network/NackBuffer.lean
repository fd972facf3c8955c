import Whist.Network.Udp

/-! # The answers to nacks -/
namespace Whist.Udp
open Fec

/-- A segment without the marks of its last transmission. -/
def WhistSegment.content (s : WhistSegment) : WhistSegment :=
  { s.onWire with isANack := false, isADuplicate := false }

def WhistSegment.mark (s : WhistSegment) (isDuplicate : Bool) : WhistSegment :=
  { s with isANack := !isDuplicate, isADuplicate := isDuplicate }

theorem WhistSegment.content_onWire (s : WhistSegment) : s.onWire.content = s.content := by
  simp [content, onWire]

theorem WhistSegment.content_mark (s : WhistSegment) (isDuplicate : Bool) :
    (s.mark isDuplicate).content = s.content := rfl

def Event.built? : Event → Option WhistSegment
  | .built s => some s
  | _ => none

def Event.sent? : Event → Option WhistSegment
  | .sent s => some s
  | _ => none

def builtOf (log : List Event) : List WhistSegment := log.filterMap Event.built?

def sentOf (log : List Event) : List WhistSegment := log.filterMap Event.sent?

theorem mem_builtOf {log : List Event} {s : WhistSegment} : s ∈ builtOf log ↔ .built s ∈ log := by
  simp only [builtOf, List.mem_filterMap]
  constructor
  · rintro ⟨e,he,hs⟩
    cases e with
    | built s' => cases hs; exact he
    | sent s' => cases hs
    | nack t id i d ans => cases hs
  · exact fun h => ⟨_,h,rfl⟩

theorem mem_sentOf {log : List Event} {s : WhistSegment} : s ∈ sentOf log ↔ .sent s ∈ log := by
  simp only [sentOf, List.mem_filterMap]
  constructor
  · rintro ⟨e,he,hs⟩
    cases e with
    | built s' => cases hs
    | sent s' => cases hs; exact he
    | nack t id i d ans => cases hs
  · exact fun h => ⟨_,h,rfl⟩

def lastBuilt (numBuffers : ℕ) (whistType : WhistPacketType) (slot index : ℕ) (log : List Event) :
    Option WhistSegment :=
  (builtOf log).reverse.find? (fun s =>
    s.whistType = whistType ∧ (s.id % numBuffers).toNat = slot ∧ s.index = index)

def answerOf (numBuffers : ℕ) (log : List Event) (whistType : WhistPacketType) (id index : ℤ)
    (isDuplicate : Bool) : Option WhistSegment :=
  ((lastBuilt numBuffers whistType (id % numBuffers).toNat index.toNat log).filter
    (fun s => s.id = id)).map (fun s => s.mark isDuplicate)

theorem lastBuilt_congr {log log' : List Event} (h : builtOf log' = builtOf log) (n : ℕ)
    (t : WhistPacketType) (slot i : ℕ) : lastBuilt n t slot i log' = lastBuilt n t slot i log := by
  unfold lastBuilt
  rw [h]

theorem lastBuilt_append {log log' : List Event} {s : WhistSegment}
    (h : builtOf log' = builtOf log ++ [s]) (n : ℕ) (t : WhistPacketType) (slot i : ℕ) :
    lastBuilt n t slot i log' =
      if s.whistType = t ∧ (s.id % n).toNat = slot ∧ s.index = i then some s
      else lastBuilt n t slot i log := by
  unfold lastBuilt
  rw [h, List.reverse_append, List.reverse_singleton, List.singleton_append, List.find?_cons]
  split_ifs with hc
  · simp [hc]
  · simp [hc]

def NackBuffer.sizes (b : NackBuffer) : ℕ × ℕ := (b.numBuffers,b.maxIndices)

/-- The rows hold what was built last, and every nack so far was answered from there. -/
structure Kept (sizes : WhistPacketType → Option (ℕ × ℕ)) (context : UdpContext) : Prop where
  size : ∀ t, (context.nackBuffers t).map NackBuffer.sizes = sizes t
  rows : ∀ t b, context.nackBuffers t = some b → ∀ slot i, lastBuilt b.numBuffers t slot i context.log =
    if b.valid slot i then some (b.buffers slot i).content else none
  bound : ∀ t b, context.nackBuffers t = some b → ∀ slot i, b.valid slot i → i < b.maxIndices
  answers : ∀ pre post t id i d ans, context.log = pre ++ .nack t id i d ans :: post →
    ∃ n, sizes t = some n ∧ 0 ≤ i ∧ ans = answerOf n.1 pre t id i d

/-- Steps that build and send nothing new. -/
structure Quiet (sizes : WhistPacketType → Option (ℕ × ℕ)) (context context' : UdpContext) : Prop where
  keeps : Kept sizes context → Kept sizes context'
  built : builtOf context'.log = builtOf context.log
  sent : sentOf context'.log = sentOf context.log

variable {sizes : WhistPacketType → Option (ℕ × ℕ)} {context context' context'' : UdpContext}

theorem Quiet.refl : Quiet sizes context context := ⟨id,rfl,rfl⟩

theorem Quiet.trans (h : Quiet sizes context context') (h' : Quiet sizes context' context'') :
    Quiet sizes context context'' :=
  ⟨h'.keeps ∘ h.keeps,h'.built.trans h.built,h'.sent.trans h.sent⟩

theorem Quiet.of_eq (hbuf : context'.nackBuffers = context.nackBuffers)
    (hlog : context'.log = context.log) : Quiet sizes context context' := by
  refine ⟨fun h => ⟨?_,?_,?_,?_⟩,by rw [hlog],by rw [hlog]⟩
  · rw [hbuf]; exact h.size
  · rw [hbuf, hlog]; exact h.rows
  · rw [hbuf]; exact h.bound
  · rw [hlog]; exact h.answers

theorem append_singleton_split {α : Type*} {l pre post : List α} {a e : α}
    (h : l ++ [e] = pre ++ a :: post) : (post = [] ∧ pre = l ∧ a = e) ∨
      ∃ post', post = post' ++ [e] ∧ l = pre ++ a :: post' := by
  rcases List.eq_nil_or_concat post with rfl | ⟨post',x,rfl⟩
  · have := List.append_inj' h rfl
    exact Or.inl ⟨rfl,this.1.symm,by simpa using this.2.symm⟩
  · rw [List.concat_eq_append, ← List.cons_append, ← List.append_assoc] at h
    have := List.append_inj' h rfl
    exact Or.inr ⟨post',by simpa using this.2.symm,this.1⟩

theorem answers_record {log : List Event} {e : Event} (he : ∀ t id i d ans, e ≠ .nack t id i d ans)
    (h : ∀ pre post t id i d ans, log = pre ++ .nack t id i d ans :: post →
      ∃ n, sizes t = some n ∧ 0 ≤ i ∧ ans = answerOf n.1 pre t id i d) :
    ∀ pre post t id i d ans, log ++ [e] = pre ++ .nack t id i d ans :: post →
      ∃ n, sizes t = some n ∧ 0 ≤ i ∧ ans = answerOf n.1 pre t id i d := by
  intro pre post t id i d ans hsplit
  rcases append_singleton_split hsplit with ⟨-,-,heq⟩ | ⟨post',-,hlog⟩
  · exact absurd heq.symm (he t id i d ans)
  · exact h pre post' t id i d ans hlog

theorem Kept.recordNack (h : Kept sizes context) {t : WhistPacketType} {b : NackBuffer}
    (hb : context.nackBuffers t = some b) {id i : ℤ} {d : Bool} {ans : Option WhistSegment}
    (hi : 0 ≤ i) (hans : ans = answerOf b.numBuffers context.log t id i d) {context' : UdpContext}
    (hlog : context'.log = context.log ++ [.nack t id i d ans])
    (hsize : ∀ t, (context'.nackBuffers t).map NackBuffer.sizes = sizes t)
    (hrows : ∀ t b', context'.nackBuffers t = some b' → ∃ b, context.nackBuffers t = some b ∧
      b'.numBuffers = b.numBuffers ∧ b'.maxIndices = b.maxIndices ∧ ∀ slot i,
        b'.valid slot i = b.valid slot i ∧ (b'.buffers slot i).content = (b.buffers slot i).content) :
    Kept sizes context' := by
  have hbuilt : builtOf context'.log = builtOf context.log := by
    rw [hlog]
    simp [builtOf, Event.built?]
  refine ⟨hsize,?_,?_,?_⟩
  · intro t b' hb' slot i
    obtain ⟨b,hb,hn,-,hrow⟩ := hrows t b' hb'
    rw [lastBuilt_congr hbuilt, hn, (hrow slot i).1, (hrow slot i).2]
    exact h.rows t b hb slot i
  · intro t b' hb' slot i hv
    obtain ⟨b,hb,-,hmax,hrow⟩ := hrows t b' hb'
    rw [(hrow slot i).1] at hv
    exact hmax ▸ h.bound t b hb slot i hv
  · intro pre post t' id' i' d' ans' hsplit
    rw [hlog] at hsplit
    rcases append_singleton_split hsplit with ⟨-,rfl,heq⟩ | ⟨post',-,hlog'⟩
    · cases heq
      refine ⟨b.sizes,?_,hi,hans⟩
      rw [← h.size t, hb, Option.map_some]
    · exact h.answers pre post' t' id' i' d' ans' hlog'

theorem store_self (b : NackBuffer) {slot i : ℕ} (s : WhistSegment) :
    (b.store slot i s).valid slot i = true ∧ (b.store slot i s).buffers slot i = s := by
  simp [NackBuffer.store]

theorem store_other (b : NackBuffer) {slot i slot' i' : ℕ} (s : WhistSegment)
    (h : slot' ≠ slot ∨ i' ≠ i) : (b.store slot i s).valid slot' i' = b.valid slot' i' ∧
      (b.store slot i s).buffers slot' i' = b.buffers slot' i' := by
  by_cases hslot : slot' = slot
  · subst hslot
    have hi : i' ≠ i := h.resolve_left (fun h => h rfl)
    simp [NackBuffer.store, Function.update_of_ne hi]
  · simp [NackBuffer.store, Function.update_of_ne hslot]

theorem quiet_recordNone {t : WhistPacketType} {b : NackBuffer} {id i : ℤ} {d : Bool}
    (hb : context.nackBuffers t = some b) (hi : 0 ≤ i)
    (hnone : Kept sizes context → answerOf b.numBuffers context.log t id i d = none) :
    Quiet sizes context (context.record (.nack t id i d none)) := by
  refine ⟨fun h => ?_,?_,?_⟩
  · exact h.recordNack hb hi (hnone h).symm rfl h.size (fun t b hb => ⟨b,hb,rfl,rfl,fun _ _ => ⟨rfl,rfl⟩⟩)
  · simp [builtOf, UdpContext.record, Event.built?]
  · simp [sentOf, UdpContext.record, Event.sent?]

theorem Kept.answerOf_eq (h : Kept sizes context) {t : WhistPacketType} {b : NackBuffer}
    (hb : context.nackBuffers t = some b) (id i : ℤ) (d : Bool) :
    answerOf b.numBuffers context.log t id i d =
      if b.valid (b.slot id) i.toNat ∧ (b.buffers (b.slot id) i.toNat).id = id then
        some ((b.buffers (b.slot id) i.toNat).content.mark d)
      else none := by
  have hrow := h.rows t b hb (b.slot id) i.toNat
  unfold answerOf
  change ((lastBuilt b.numBuffers t (b.slot id) i.toNat context.log).filter _).map _ = _
  rw [hrow]
  by_cases hv : b.valid (b.slot id) i.toNat
  · rw [if_pos hv]
    by_cases hid : (b.buffers (b.slot id) i.toNat).id = id
    · rw [if_pos ⟨hv,hid⟩, Option.filter_some, if_pos (decide_eq_true (by exact hid)), Option.map_some]
    · rw [if_neg (fun hc => hid hc.2), Option.filter_some, if_neg ?_, Option.map_none]
      have hcontent : ¬(b.buffers (b.slot id) i.toNat).content.id = id := hid
      simpa using hcontent
  · rw [if_neg hv, if_neg (fun hc => hv hc.1), Option.filter_none, Option.map_none]

theorem quiet_recordFound {t : WhistPacketType} {b : NackBuffer} {id i : ℤ} {d : Bool}
    (hb : context.nackBuffers t = some b) (hi : 0 ≤ i) (hv : b.valid (b.slot id) i.toNat)
    (hid : (b.buffers (b.slot id) i.toNat).id = id) :
    Quiet sizes context
      ((context.store t b (b.slot id) i.toNat ((b.buffers (b.slot id) i.toNat).mark d)).record
        (.nack t id i d (some ((b.buffers (b.slot id) i.toNat).mark d).onWire))) := by
  refine ⟨fun h => h.recordNack hb hi ?_ rfl ?_ ?_,?_,?_⟩
  · rw [h.answerOf_eq hb, if_pos ⟨hv,hid⟩]
    rfl
  · intro t'
    rw [← h.size t']
    by_cases ht : t' = t
    · subst ht
      simp [UdpContext.store, UdpContext.record, hb, NackBuffer.store, NackBuffer.sizes]
    · simp [UdpContext.store, UdpContext.record, Function.update_of_ne ht]
  · intro t' b' hb'
    by_cases ht : t' = t
    · subst ht
      simp only [UdpContext.store, UdpContext.record, Function.update_self, Option.some.injEq] at hb'
      subst hb'
      refine ⟨b,hb,rfl,rfl,fun slot j => ?_⟩
      by_cases hsame : slot = b.slot id ∧ j = i.toNat
      · obtain ⟨rfl,rfl⟩ := hsame
        rw [(store_self b _).1, (store_self b _).2]
        exact ⟨hv.symm,rfl⟩
      · have hother : slot ≠ b.slot id ∨ j ≠ i.toNat := by
          by_contra hc
          exact hsame (by simpa [not_or] using hc)
        rw [(store_other b _ hother).1, (store_other b _ hother).2]
        exact ⟨rfl,rfl⟩
    · simp only [UdpContext.store, UdpContext.record, Function.update_of_ne ht] at hb'
      exact ⟨b',hb',rfl,rfl,fun _ _ => ⟨rfl,rfl⟩⟩
  · simp [builtOf, UdpContext.record, UdpContext.store, Event.built?]
  · simp [sentOf, UdpContext.record, UdpContext.store, Event.sent?]

/-- Looking up a nack builds nothing and answers from what was built last. -/
theorem udpHandleNack_quiet (context : UdpContext) (t : WhistPacketType) (id i : ℤ) (d : Bool) :
    Quiet sizes context (Run.reached (udpHandleNack context t id i d)) := by
  unfold udpHandleNack
  cases hb : context.nackBuffers t with
  | none => exact Quiet.refl
  | some b =>
    dsimp only
    by_cases hi : 0 ≤ i
    · rw [if_neg (not_not.mpr hi)]
      by_cases hid : 0 < id
      · rw [if_neg (not_not.mpr hid)]
        by_cases hmax : i ≥ b.maxIndices
        · rw [if_pos hmax]
          refine quiet_recordNone hb hi (fun h => ?_)
          rw [h.answerOf_eq hb]
          refine if_neg (fun hc => ?_)
          have := h.bound t b hb _ _ hc.1
          omega
        · rw [if_neg hmax]
          by_cases hv : b.valid (b.slot id) i.toNat
          · rw [if_pos hv]
            by_cases hmatch : (b.buffers (b.slot id) i.toNat).id = id
            · rw [if_pos hmatch]
              exact quiet_recordFound hb hi hv hmatch
            · rw [if_neg hmatch]
              exact quiet_recordNone hb hi (fun h => by
                rw [h.answerOf_eq hb, if_neg (fun hc => hmatch hc.2)])
          · rw [if_neg hv]
            exact quiet_recordNone hb hi (fun h => by rw [h.answerOf_eq hb, if_neg (fun hc => hv hc.1)])
      · rw [if_pos hid]
        exact Quiet.refl
    · rw [if_pos hi]
      exact Quiet.refl

theorem drain_quiet (queue : List NackID) (context : UdpContext) :
    Quiet sizes context (Run.reached (drain queue context)) := by
  induction queue generalizing context with
  | nil => exact Quiet.refl
  | cons nackId rest ih =>
    unfold drain
    have hpop : Quiet sizes context { context with nackQueue := rest } := Quiet.of_eq rfl rfl
    have hnack := hpop.trans (udpHandleNack_quiet { context with nackQueue := rest } .video
      nackId.frameId nackId.packetIndex false)
    cases hr : udpHandleNack { context with nackQueue := rest } .video nackId.frameId
        nackId.packetIndex false with
    | error e =>
      rw [hr] at hnack
      exact hnack
    | ok context' =>
      rw [hr] at hnack
      exact hnack.trans (ih context')

theorem enqueue_quiet (context : UdpContext) (nackId : NackID) :
    Quiet sizes context (enqueue context nackId) := by
  unfold enqueue
  split_ifs
  · exact Quiet.refl
  · exact Quiet.of_eq rfl rfl

theorem enqueueAll_quiet {α : Type*} (f : α → NackID) (l : List α) (context : UdpContext) :
    Quiet sizes context (l.foldl (fun context a => enqueue context (f a)) context) := by
  induction l generalizing context with
  | nil => exact Quiet.refl
  | cons a l ih => exact (enqueue_quiet context (f a)).trans (ih _)

theorem udpHandleMessage_quiet (context : UdpContext) (m : NackMessage) :
    Quiet sizes context (Run.reached (udpHandleMessage context m)) := by
  cases m with
  | nack t id i =>
    unfold udpHandleMessage
    dsimp only
    split_ifs
    · exact enqueue_quiet context _
    · cases context.nackBuffers .video with
      | none => exact Quiet.refl
      | some b =>
        dsimp only
        split_ifs
        · exact Quiet.refl
        · exact Quiet.refl
        · exact enqueueAll_quiet (fun i : ℕ => ⟨id,i⟩) _ context
    · exact Quiet.refl
  | bitarrayNack t id i bits =>
    unfold udpHandleMessage
    dsimp only
    split_ifs
    · exact Quiet.refl
    · exact Quiet.refl
    · exact enqueueAll_quiet (fun i => ⟨id,i⟩) _ context
    · exact Quiet.refl

theorem udpResendPacket_quiet (context : UdpContext) (t : WhistPacketType) (id i : ℤ) :
    Quiet sizes context (Run.reached (udpResendPacket context t id i)) := by
  unfold udpResendPacket
  split_ifs
  · exact Quiet.refl
  · have hcount : Quiet sizes context { context with
        numDuplicatePackets := Function.update context.numDuplicatePackets t
          (context.numDuplicatePackets t + 1) } := Quiet.of_eq rfl rfl
    exact hcount.trans (udpHandleNack_quiet _ t id i true)

def Outgoing.wireSegment (f : Outgoing) (i : ℕ) : WhistSegment := (f.segment i zeroSegment).onWire

theorem Outgoing.onWire_segment (f : Outgoing) (i : ℕ) (old : WhistSegment) :
    (f.segment i old).onWire = f.wireSegment i := by
  have hle : ushort (f.buffers i).length ≤ (f.buffers i).length := Nat.mod_le _ _
  simp [wireSegment, segment, WhistSegment.onWire, List.take_append_of_le_length hle]

theorem Outgoing.content_segment (f : Outgoing) (i : ℕ) (old : WhistSegment) :
    (f.segment i old).content = f.wireSegment i := by
  rw [← f.onWire_segment i old]
  rfl

theorem buildSegment_spec (f : Outgoing) {i : ℕ} (hi : i < 65536) (hk : Kept sizes context)
    (hroom : ∀ b, context.nackBuffers f.whistType = some b → i < b.maxIndices) :
    Kept sizes (buildSegment f context i).2 ∧
      builtOf (buildSegment f context i).2.log = builtOf context.log ++ [f.wireSegment i] ∧
      sentOf (buildSegment f context i).2.log = sentOf context.log := by
  have hindex : (f.wireSegment i).index = i := Nat.mod_eq_of_lt hi
  unfold buildSegment
  cases hb : context.nackBuffers f.whistType with
  | none =>
    have hbuilt : builtOf (context.log ++ [.built (f.segment i zeroSegment).onWire]) =
        builtOf context.log ++ [f.wireSegment i] := by
      rw [f.onWire_segment]
      simp [builtOf, Event.built?]
    refine ⟨⟨hk.size,fun t b hbt slot j => ?_,hk.bound,?_⟩,hbuilt,?_⟩
    · have ht : f.whistType ≠ t := by
        rintro rfl
        cases hb.symm.trans hbt
      refine (lastBuilt_append hbuilt ..).trans ((if_neg ?_).trans (hk.rows t b hbt slot j))
      exact fun hc => ht hc.1
    · exact answers_record (by simp) hk.answers
    · simp [sentOf, UdpContext.record, Event.sent?]
  | some b =>
    have hbuilt : builtOf (context.log ++
        [.built (f.segment i (b.buffers (b.slot f.id) i)).onWire]) =
        builtOf context.log ++ [f.wireSegment i] := by
      rw [f.onWire_segment]
      simp [builtOf, Event.built?]
    refine ⟨⟨?_,?_,?_,?_⟩,hbuilt,?_⟩
    · intro t
      rw [← hk.size t]
      by_cases ht : t = f.whistType
      · subst ht
        simp [UdpContext.store, UdpContext.record, hb, NackBuffer.store, NackBuffer.sizes]
      · simp [UdpContext.store, UdpContext.record, Function.update_of_ne ht]
    · intro t b' hb' slot j
      refine (lastBuilt_append hbuilt ..).trans ?_
      by_cases ht : t = f.whistType
      · subst ht
        simp only [UdpContext.store, UdpContext.record, Function.update_self, Option.some.injEq] at hb'
        subst hb'
        by_cases hsame : slot = b.slot f.id ∧ j = i
        · obtain ⟨rfl,rfl⟩ := hsame
          rw [if_pos ⟨rfl,rfl,hindex⟩, (store_self b _).1, (store_self b _).2, if_pos rfl,
            f.content_segment]
        · have hother : slot ≠ b.slot f.id ∨ j ≠ i := by
            by_contra hc
            exact hsame (by simpa [not_or] using hc)
          rw [if_neg, (store_other b _ hother).1, (store_other b _ hother).2]
          · exact hk.rows _ b hb slot j
          · rintro ⟨-,hslot,hj⟩
            exact hsame ⟨hslot.symm,hj.symm.trans hindex⟩
      · simp only [UdpContext.store, UdpContext.record, Function.update_of_ne ht] at hb'
        rw [if_neg (fun hc => ht hc.1.symm)]
        exact hk.rows t b' hb' slot j
    · intro t b' hb' slot j hv
      by_cases ht : t = f.whistType
      · subst ht
        simp only [UdpContext.store, UdpContext.record, Function.update_self, Option.some.injEq] at hb'
        subst hb'
        by_cases hsame : slot = b.slot f.id ∧ j = i
        · obtain ⟨-,rfl⟩ := hsame
          exact hroom b hb
        · have hother : slot ≠ b.slot f.id ∨ j ≠ i := by
            by_contra hc
            exact hsame (by simpa [not_or] using hc)
          rw [(store_other b _ hother).1] at hv
          exact hk.bound _ b hb slot j hv
      · simp only [UdpContext.store, UdpContext.record, Function.update_of_ne ht] at hb'
        exact hk.bound t b' hb' slot j hv
    · exact answers_record (by simp) hk.answers
    · simp [sentOf, UdpContext.record, UdpContext.store, Event.sent?]

theorem content_currentSegment (f : Outgoing) {i : ℕ} (hi : i < 65536) (hk : Kept sizes context)
    (hk' : Kept sizes context')
    (hbuilt : builtOf context'.log = builtOf context.log ++ [f.wireSegment i]) :
    (currentSegment f context' i (buildSegment f context i).1).content = f.wireSegment i := by
  have hsize := (hk'.size f.whistType).trans (hk.size f.whistType).symm
  unfold currentSegment
  cases hb' : context'.nackBuffers f.whistType with
  | none =>
    rw [hb', Option.map_none, eq_comm, Option.map_eq_none_iff] at hsize
    unfold buildSegment
    rw [hsize]
    exact f.content_segment i _
  | some b =>
    have hrow := hk'.rows _ b hb' (b.slot f.id) i
    rw [lastBuilt_append hbuilt, if_pos ⟨rfl,rfl,Nat.mod_eq_of_lt hi⟩] at hrow
    dsimp only
    split_ifs at hrow
    · exact (Option.some.inj hrow).symm

theorem sendSegment_spec (f : Outgoing) {i : ℕ} (hi : i < 65536) (hk : Kept sizes context)
    (hroom : ∀ b, context.nackBuffers f.whistType = some b → i < b.maxIndices) :
    (∀ c, sendSegment f context i = .ok c → Kept sizes c ∧
      builtOf c.log = builtOf context.log ++ [f.wireSegment i] ∧
      ∃ s, sentOf c.log = sentOf context.log ++ [s] ∧ s.content = f.wireSegment i) ∧
    ∀ e c, sendSegment f context i = .error (e,c) → Kept sizes c ∧
      sentOf c.log = sentOf context.log ∧
      (builtOf c.log = builtOf context.log ∨
        builtOf c.log = builtOf context.log ++ [f.wireSegment i]) := by
  unfold sendSegment
  by_cases hsize : ushort (f.buffers i).length ≤ maxPacketSegmentSize
  · rw [if_neg (not_not.mpr hsize)]
    obtain ⟨hkept,hbuilt,hsent⟩ := buildSegment_spec f hi hk hroom
    have hquiet : Quiet sizes (buildSegment f context i).2 (Run.reached
        (if f.whistType = .video then udpHandlePendingNacks (buildSegment f context i).2
          else .ok (buildSegment f context i).2)) := by
      split_ifs
      · exact drain_quiet _ _
      · exact Quiet.refl
    dsimp only
    cases hr : if f.whistType = .video then udpHandlePendingNacks (buildSegment f context i).2
        else .ok (buildSegment f context i).2 with
    | error e =>
      rw [hr] at hquiet
      refine ⟨fun c hc => (nomatch hc),fun e' c hc => ?_⟩
      cases hc
      exact ⟨hquiet.keeps hkept,hquiet.sent.trans hsent,Or.inr (hquiet.built.trans hbuilt)⟩
    | ok context' =>
      rw [hr] at hquiet
      change Quiet sizes (buildSegment f context i).2 context' at hquiet
      refine ⟨fun c hc => ?_,fun e c hc => nomatch hc⟩
      cases hc
      have hk' := hquiet.keeps hkept
      have hbuilt' := hquiet.built.trans hbuilt
      refine ⟨⟨hk'.size,fun t b hb slot j => ?_,hk'.bound,answers_record (by simp) hk'.answers⟩,?_,
        (currentSegment f context' i (buildSegment f context i).1).onWire,?_,?_⟩
      · rw [← hk'.rows t b hb slot j]
        exact lastBuilt_congr (by simp [builtOf, UdpContext.record, Event.built?]) ..
      · rw [← hbuilt']
        simp [builtOf, UdpContext.record, Event.built?]
      · rw [← hsent, ← hquiet.sent]
        simp [sentOf, UdpContext.record, Event.sent?]
      · rw [WhistSegment.content_onWire]
        exact content_currentSegment f hi hk hk' hbuilt'
  · rw [if_pos hsize]
    refine ⟨fun c hc => (nomatch hc),fun e c hc => ?_⟩
    cases hc
    exact ⟨hk,rfl,Or.inl rfl⟩

structure Sending (sizes : WhistPacketType → Option (ℕ × ℕ)) (f : Outgoing)
    (context context' : UdpContext) (k j : ℕ) : Prop where
  kept : Kept sizes context'
  built : builtOf context'.log = builtOf context.log ++ (List.range k).map f.wireSegment
  sent : ∃ ss, sentOf context'.log = sentOf context.log ++ ss ∧
    ss.map WhistSegment.content = (List.range j).map f.wireSegment

theorem Sending.none (hk : Kept sizes context) (f : Outgoing) : Sending sizes f context context 0 0 :=
  ⟨hk,by simp,[],by simp⟩

theorem sendSegments_spec (f : Outgoing) (hk : Kept sizes context) (htotal : f.numTotalPackets < 4096)
    (hroom : ∀ n, sizes f.whistType = some n → f.numTotalPackets ≤ n.2) :
    (∃ c, Run.run (sendSegment f) context (List.range f.numTotalPackets) = .ok c ∧
      Sending sizes f context c f.numTotalPackets f.numTotalPackets) ∨
    ∃ e c k j, Run.run (sendSegment f) context (List.range f.numTotalPackets) = .error (e,c) ∧
      Sending sizes f context c k j ∧ j ≤ k ∧ k ≤ f.numTotalPackets := by
  have hrange : ∀ {pre i post}, List.range f.numTotalPackets = pre ++ i :: post →
      i = pre.length ∧ i < f.numTotalPackets := by
    intro pre i post h
    have hlen := congrArg List.length h
    have hi := congrArg (fun l => l[pre.length]?) h
    simp only [List.length_range, List.length_append, List.length_cons] at hlen
    rw [List.getElem?_range (by omega), List.getElem?_append_right le_rfl] at hi
    have : pre.length = i := by simpa using hi
    omega
  have hlimit : ∀ c, Kept sizes c → ∀ b, c.nackBuffers f.whistType = some b →
      f.numTotalPackets ≤ b.maxIndices := by
    intro c hc b hb
    have hsize := hc.size f.whistType
    rw [hb, Option.map_some] at hsize
    exact hroom _ hsize.symm
  have hstep : ∀ pre i post c, List.range f.numTotalPackets = pre ++ i :: post →
      Sending sizes f context c pre.length pre.length →
      (∀ c', sendSegment f c i = .ok c' → Sending sizes f context c' (pre.length + 1) (pre.length + 1)) ∧
      ∀ e c', sendSegment f c i = .error (e,c') → Sending sizes f context c' pre.length pre.length ∨
        Sending sizes f context c' (pre.length + 1) pre.length := by
    intro pre i post c hsplit hc
    obtain ⟨rfl,hi⟩ := hrange hsplit
    obtain ⟨hok,herr⟩ := sendSegment_spec f (show pre.length < 65536 by omega) hc.kept
      (fun b hb => hi.trans_le (hlimit c hc.kept b hb))
    obtain ⟨ss,hss,hmap⟩ := hc.sent
    refine ⟨fun c' hc' => ?_,fun e c' hc' => ?_⟩
    · obtain ⟨hk',hb',s,hs,hcontent⟩ := hok c' hc'
      refine ⟨hk',?_,ss ++ [s],?_,?_⟩
      · rw [hb', hc.built, List.range_succ, List.map_append, List.append_assoc, List.map_singleton]
      · rw [hs, hss, List.append_assoc]
      · rw [List.map_append, hmap, List.range_succ, List.map_append, List.map_singleton, hcontent,
          List.map_singleton]
    · obtain ⟨hk',hs,hb'⟩ := herr e c' hc'
      rcases hb' with hb' | hb'
      · exact Or.inl ⟨hk',hb'.trans hc.built,ss,hs.trans hss,hmap⟩
      · refine Or.inr ⟨hk',?_,ss,hs.trans hss,hmap⟩
        rw [hb', hc.built, List.range_succ, List.map_append, List.append_assoc, List.map_singleton]
  have hrun := @Run.run_ok_or_fails _ _ _ (sendSegment f)
    (fun pre c => Sending sizes f context c pre.length pre.length) (List.range f.numTotalPackets)
    context (Sending.none hk f) ?_
  · rcases hrun with ⟨c,hc,hs⟩ | ⟨e,pre,i,post,c,hrun,hsplit,hs,herr⟩
    · rw [List.length_range] at hs
      exact Or.inl ⟨c,hc,hs⟩
    · obtain ⟨e,c'⟩ := e
      have hi := hrange hsplit
      rcases (hstep pre i post c hsplit hs).2 e c' herr with h | h
      · exact Or.inr ⟨e,c',_,_,hrun,h,le_rfl,by omega⟩
      · exact Or.inr ⟨e,c',_,_,hrun,h,by omega,by omega⟩
  · intro pre i post c c' hsplit hc hok
    have := (hstep pre i post c hsplit hc).1 c' hok
    rwa [List.length_append, List.length_singleton]

theorem udpSendPacket_cases (cm : Cm256) (context : UdpContext) (t : WhistPacketType)
    (payload : Block) (id : ℤ) (start : Bool) :
    (∃ c, c.nackBuffers = context.nackBuffers ∧ c.log = context.log ∧
      (udpSendPacket cm context t payload id start = .ok (-1,c) ∨
        ∃ e, udpSendPacket cm context t payload id start = .error (e,c))) ∨
    ∃ f : Outgoing, f.whistType = t ∧ f.id = id ∧ f.numTotalPackets < maxTotalPackets ∧
      (∀ b, context.nackBuffers t = some b → f.numTotalPackets ≤ b.maxIndices) ∧
      udpSendPacket cm context t payload id start =
        (Run.run (sendSegment f) (context.startStream t id start)
          (List.range f.numTotalPackets)).map (fun c => (0,c)) := by
  unfold udpSendPacket
  by_cases hlost : context.connectionLost
  · rw [if_pos hlost]
    exact Or.inl ⟨context,rfl,rfl,Or.inl rfl⟩
  · rw [if_neg hlost]
    by_cases hzero : id ≠ 0
    · rw [if_neg (not_not.mpr hzero)]
      by_cases hpos : ((context.startStream t id start).nackBuffers t).isSome ∧ ¬(id > 0)
      · rw [if_pos hpos]
        exact Or.inl ⟨context.startStream t id start,rfl,rfl,Or.inr ⟨_,rfl⟩⟩
      · rw [if_neg hpos]
        dsimp only
        generalize hn : numPackets (context.startStream t id start) t
          (whistPacketBytes t payload id).length = n
        by_cases htotal : n.1 + n.2 < maxTotalPackets
        · rw [if_neg (not_not.mpr htotal)]
          by_cases hlarge : tooLarge ((context.startStream t id start).nackBuffers t) (n.1 + n.2)
              (whistPacketBytes t payload id).length
          · rw [if_pos hlarge]
            exact Or.inl ⟨context.startStream t id start,rfl,rfl,Or.inl rfl⟩
          · rw [if_neg hlarge]
            cases hbuf : segmentBuffers cm (whistPacketBytes t payload id) n.1 n.2 with
            | error e => exact Or.inl ⟨context.startStream t id start,rfl,rfl,Or.inr ⟨_,rfl⟩⟩
            | ok buffers =>
              refine Or.inr ⟨⟨t,id,buffers,n.1 + n.2,n.2,
                (context.startStream t id start).numDuplicatePackets t⟩,rfl,rfl,htotal,?_,?_⟩
              · intro b hb
                have hb' : (context.startStream t id start).nackBuffers t = some b := hb
                rw [hb'] at hlarge
                simp only [tooLarge, Bool.or_eq_true, decide_eq_true_eq, not_or, not_lt] at hlarge
                exact hlarge.1
              · dsimp only
                cases Run.run (sendSegment _) (context.startStream t id start)
                  (List.range (n.1 + n.2)) with
                | error e => rfl
                | ok c => rfl
        · rw [if_pos htotal]
          exact Or.inl ⟨context.startStream t id start,rfl,rfl,Or.inr ⟨_,rfl⟩⟩
    · rw [if_pos hzero]
      exact Or.inl ⟨context.startStream t id start,rfl,rfl,Or.inr ⟨_,rfl⟩⟩

theorem udpSendPacket_spec (cm : Cm256) (hk : Kept sizes context) (t : WhistPacketType)
    (payload : Block) (id : ℤ) (start : Bool) :
    ∃ (f : Outgoing) (k j : ℕ), f.whistType = t ∧ f.id = id ∧ f.numTotalPackets < 4096 ∧ j ≤ k ∧
      k ≤ f.numTotalPackets ∧
      Sending sizes f context
        (Run.reached (callStep cm context (.sendPacket t payload id start))) k j ∧
      ((∃ c, callStep cm context (.sendPacket t payload id start) = .ok c) → j = k) := by
  have hstep : callStep cm context (.sendPacket t payload id start) =
      (udpSendPacket cm context t payload id start).map Prod.snd := rfl
  rw [hstep]
  rcases udpSendPacket_cases cm context t payload id start with
    ⟨c,hbuf,hlog,hres⟩ | ⟨f,ht,hid,htotal,hroom,hres⟩
  · have hq : Quiet sizes context c := Quiet.of_eq hbuf hlog
    refine ⟨⟨t,id,fun _ => [],0,0,0⟩,0,0,rfl,rfl,show 0 < 4096 by omega,le_rfl,le_rfl,?_,fun _ => rfl⟩
    have hreached : Run.reached ((udpSendPacket cm context t payload id start).map Prod.snd) = c := by
      rcases hres with h | ⟨e,h⟩
      · rw [h]; rfl
      · rw [h]; rfl
    rw [hreached]
    exact ⟨hq.keeps hk,by simpa using hq.built,[],by simpa using hq.sent,rfl⟩
  · have hq : Quiet sizes context (context.startStream t id start) := Quiet.of_eq rfl rfl
    have hroom' : ∀ n, sizes f.whistType = some n → f.numTotalPackets ≤ n.2 := by
      intro n hn
      have hsize := hk.size f.whistType
      rw [hn, ht, Option.map_eq_some_iff] at hsize
      obtain ⟨b,hb,rfl⟩ := hsize
      exact hroom b hb
    rw [hres]
    rcases sendSegments_spec f (hq.keeps hk) htotal hroom' with ⟨c,hrun,hs⟩ | ⟨e,c,k,j,hrun,hs,hjk,hk'⟩
    · rw [hrun]
      exact ⟨f,_,_,ht,hid,htotal,le_rfl,le_rfl,⟨hs.kept,hs.built,hs.sent⟩,fun _ => rfl⟩
    · rw [hrun]
      refine ⟨f,k,j,ht,hid,htotal,hjk,hk',⟨hs.kept,hs.built,hs.sent⟩,?_⟩
      rintro ⟨c,hc⟩
      cases hc

theorem callStep_quiet (cm : Cm256) (context : UdpContext) {call : Call}
    (h : ∀ t payload id start, call ≠ .sendPacket t payload id start) :
    Quiet sizes context (Run.reached (callStep cm context call)) := by
  cases call with
  | sendPacket t payload id start => exact absurd rfl (h t payload id start)
  | message m => exact udpHandleMessage_quiet context m
  | handlePendingNacks => exact drain_quiet _ context
  | resendPacket t id i => exact udpResendPacket_quiet context t id i
  | resetDuplicatePacketCounter t => exact Quiet.of_eq rfl rfl
  | networkSettings audio video =>
    unfold callStep udpHandleNetworkSettings
    dsimp only
    split_ifs
    · exact Quiet.of_eq rfl rfl
    · exact Quiet.refl
    · exact Quiet.refl
  | loseConnection => exact Quiet.of_eq rfl rfl

end Whist.Udp
