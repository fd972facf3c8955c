import Whist.Fec.RoundTrip
import Whist.Network.NackBuffer

/-! # Nacks over a whole connection -/
namespace Whist.Udp
open Fec
variable {sizes : WhistPacketType → Option (ℕ × ℕ)} {context context' : UdpContext}

def sentIds (t : WhistPacketType) (calls : List Call) : List ℤ :=
  calls.filterMap (fun
    | .sendPacket t' _ id _ => if t' = t then some id else none
    | _ => none)

def Later (s s' : WhistSegment) : Prop :=
  s.id < s'.id ∨ s.id = s'.id ∧ s.index < s'.index ∧ s.numIndices = s'.numIndices

structure History (sizes : WhistPacketType → Option (ℕ × ℕ)) (calls : List Call)
    (context : UdpContext) : Prop where
  kept : Kept sizes context
  ordered : (builtOf context.log).Pairwise (fun s s' =>
    s.whistType = s'.whistType → (sizes s.whistType).isSome → Later s s')
  ids : ∀ s ∈ builtOf context.log, s.id ∈ sentIds s.whistType calls
  index_lt : ∀ s ∈ builtOf context.log, s.index < s.numIndices
  sent : ∀ s ∈ sentOf context.log, s.content ∈ builtOf context.log

def AllSent (context : UdpContext) : Prop :=
  ∀ o ∈ builtOf context.log, ∃ s ∈ sentOf context.log, s.content = o

theorem mem_sentIds_append {t : WhistPacketType} {calls : List Call} {id : ℤ} (call : Call)
    (h : id ∈ sentIds t calls) : id ∈ sentIds t (calls ++ [call]) := by
  unfold sentIds at h ⊢
  rw [List.filterMap_append]
  exact List.mem_append_left _ h

theorem Quiet.history {calls : List Call} (hq : Quiet sizes context context')
    (h : History sizes calls context) (call : Call) : History sizes (calls ++ [call]) context' := by
  refine ⟨hq.keeps h.kept,?_,?_,?_,?_⟩
  · rw [hq.built]; exact h.ordered
  · rw [hq.built]; exact fun s hs => mem_sentIds_append call (h.ids s hs)
  · rw [hq.built]; exact h.index_lt
  · rw [hq.built, hq.sent]; exact h.sent

theorem Quiet.allSent (hq : Quiet sizes context context') (h : AllSent context) : AllSent context' := by
  unfold AllSent
  rw [hq.built, hq.sent]
  exact h

theorem Outgoing.wireSegment_index (f : Outgoing) {i : ℕ} (h : i < 65536) :
    (f.wireSegment i).index = i := Nat.mod_eq_of_lt h

theorem Outgoing.wireSegment_numIndices (f : Outgoing) (h : f.numTotalPackets < 65536) (i : ℕ) :
    (f.wireSegment i).numIndices = f.numTotalPackets := Nat.mod_eq_of_lt h

theorem Sending.history {f : Outgoing} {k j : ℕ} {calls : List Call} {call : Call}
    (hs : Sending sizes f context context' k j) (h : History sizes calls context)
    (htotal : f.numTotalPackets < 4096) (hjk : j ≤ k) (hk : k ≤ f.numTotalPackets)
    (hid : f.id ∈ sentIds f.whistType (calls ++ [call]))
    (hnew : (sizes f.whistType).isSome → ∀ id ∈ sentIds f.whistType calls, id < f.id) :
    History sizes (calls ++ [call]) context' := by
  have hmem : ∀ {s n}, s ∈ (List.range n).map f.wireSegment → ∃ i < n, f.wireSegment i = s := by
    intro s n hs
    obtain ⟨i,hi,rfl⟩ := List.mem_map.mp hs
    exact ⟨i,List.mem_range.mp hi,rfl⟩
  refine ⟨hs.kept,?_,?_,?_,?_⟩
  · rw [hs.built, List.pairwise_append]
    refine ⟨h.ordered,?_,?_⟩
    · rw [List.pairwise_map]
      refine List.pairwise_lt_range.imp_of_mem (fun {a b} ha hb hab _ _ => Or.inr ⟨rfl,?_,?_⟩)
      · have ha := List.mem_range.mp ha
        have hb := List.mem_range.mp hb
        rw [f.wireSegment_index (by omega), f.wireSegment_index (by omega)]
        exact hab
      · rfl
    · intro s hs s' hs' ht hreg
      obtain ⟨i,-,rfl⟩ := hmem hs'
      change s.whistType = f.whistType at ht
      refine Or.inl (hnew (ht ▸ hreg) s.id ?_)
      rw [← ht]
      exact h.ids s hs
  · rw [hs.built]
    intro s hs
    rcases List.mem_append.mp hs with hs | hs
    · exact mem_sentIds_append call (h.ids s hs)
    · obtain ⟨i,-,rfl⟩ := hmem hs
      exact hid
  · rw [hs.built]
    intro s hs
    rcases List.mem_append.mp hs with hs | hs
    · exact h.index_lt s hs
    · obtain ⟨i,hi,rfl⟩ := hmem hs
      rw [f.wireSegment_index (by omega), f.wireSegment_numIndices (by omega)]
      omega
  · obtain ⟨ss,hss,hmap⟩ := hs.sent
    rw [hs.built, hss]
    intro s hs
    rcases List.mem_append.mp hs with hs | hs
    · exact List.mem_append_left _ (h.sent s hs)
    · have hc := List.mem_map_of_mem (f := WhistSegment.content) hs
      rw [hmap] at hc
      obtain ⟨i,hi,hi'⟩ := hmem hc
      exact List.mem_append_right _ (List.mem_map.mpr ⟨i,List.mem_range.mpr (by omega),hi'⟩)

theorem Sending.allSent {f : Outgoing} {k : ℕ} (hs : Sending sizes f context context' k k)
    (h : AllSent context) : AllSent context' := by
  obtain ⟨ss,hss,hmap⟩ := hs.sent
  intro o ho
  rw [hs.built] at ho
  rw [hss]
  rcases List.mem_append.mp ho with ho | ho
  · obtain ⟨s,hs,hc⟩ := h o ho
    exact ⟨s,List.mem_append_left _ hs,hc⟩
  · rw [← hmap] at ho
    obtain ⟨s,hs,hc⟩ := List.mem_map.mp ho
    exact ⟨s,List.mem_append_right _ hs,hc⟩

def sizesOf (context : UdpContext) (t : WhistPacketType) : Option (ℕ × ℕ) :=
  (context.nackBuffers t).map NackBuffer.sizes

def IncreasingIds (context : UdpContext) (calls : List Call) : Prop :=
  ∀ t, (context.nackBuffers t).isSome → (sentIds t calls).Pairwise (· < ·)

/-- A connection before its first packet, each nack buffer as it is registered. -/
structure Fresh (context : UdpContext) : Prop where
  registered : ∀ t b, context.nackBuffers t = some b →
    ∃ maxPayloadSize numBuffers h, b = registerNackBuffer maxPayloadSize numBuffers h
  log : context.log = []

theorem Fresh.history (h : Fresh context) : History (sizesOf context) [] context := by
  have hlog := h.log
  refine ⟨⟨fun t => rfl,?_,?_,?_⟩,?_,?_,?_,?_⟩
  · intro t b hb slot i
    obtain ⟨m,n,hn,rfl⟩ := h.registered t b hb
    rw [hlog]
    rfl
  · intro t b hb slot i hv
    obtain ⟨m,n,hn,rfl⟩ := h.registered t b hb
    cases hv
  · intro pre post t id i d ans hsplit
    rw [hlog] at hsplit
    simp at hsplit
  all_goals simp [hlog, builtOf, sentOf]

theorem callStep_history (cm : Cm256) {start : UdpContext} {pre post : List Call} {call : Call}
    (hids : IncreasingIds start (pre ++ call :: post)) (h : History (sizesOf start) pre context) :
    History (sizesOf start) (pre ++ [call]) (Run.reached (callStep cm context call)) ∧
      (AllSent context → ∀ c, callStep cm context call = .ok c → AllSent c) := by
  by_cases hsend : ∃ t payload id s, call = .sendPacket t payload id s
  · obtain ⟨t,payload,id,s,rfl⟩ := hsend
    obtain ⟨f,k,j,rfl,rfl,htotal,hjk,hk,hs,hok⟩ := udpSendPacket_spec cm h.kept t payload id s
    refine ⟨hs.history h htotal hjk hk ?_ ?_,?_⟩
    · simp [sentIds]
    · intro hreg id hid
      have hreg' : (start.nackBuffers f.whistType).isSome := by simpa [sizesOf] using hreg
      have hp := hids _ hreg'
      unfold sentIds at hp
      rw [List.filterMap_append, List.pairwise_append] at hp
      exact hp.2.2 id hid f.id (by simp)
    · intro hall c hc
      obtain rfl := hok ⟨c,hc⟩
      rw [hc] at hs
      exact hs.allSent hall
  · have hq := @callStep_quiet (sizesOf start) cm context call
      (fun t payload id s hc => hsend ⟨t,payload,id,s,hc⟩)
    refine ⟨hq.history h call,fun hall c hc => ?_⟩
    rw [hc] at hq
    exact hq.allSent hall

theorem run_history (cm : Cm256) {start : UdpContext} {calls : List Call} (hf : Fresh start)
    (hids : IncreasingIds start calls) :
    ∃ calls', History (sizesOf start) calls' (Run.reached (Run.run (callStep cm) start calls)) ∧
      ∀ c, Run.run (callStep cm) start calls = .ok c → AllSent c := by
  have h := @Run.run_ok_or_fails _ _ _ (callStep cm)
    (fun pre c => History (sizesOf start) pre c ∧ AllSent c) calls start ⟨hf.history,?_⟩ ?_
  · rcases h with ⟨c,hrun,hh,hall⟩ | ⟨e,pre,call,post,c,hrun,rfl,⟨hh,-⟩,herr⟩
    · rw [hrun]
      exact ⟨calls,hh,fun c' hc' => by cases hc'; exact hall⟩
    · have := (callStep_history cm hids hh).1
      rw [herr] at this
      rw [hrun]
      exact ⟨_,this,fun c' hc' => nomatch hc'⟩
  · intro o ho
    rw [hf.log] at ho
    cases ho
  · rintro pre call post c c' rfl ⟨hh,hall⟩ hstep
    have hnext := callStep_history cm hids hh
    rw [hstep] at hnext
    exact ⟨hnext.1,hnext.2 hall c' rfl⟩

def Addressed (o : WhistSegment) (t : WhistPacketType) (id i : ℤ) : Prop :=
  o.whistType = t ∧ o.id = id ∧ (o.index : ℤ) = i

theorem builtOf_append (log log' : List Event) : builtOf (log ++ log') = builtOf log ++ builtOf log' :=
  List.filterMap_append

theorem mem_builtOf_append {log log' : List Event} {o : WhistSegment} (h : o ∈ builtOf log) :
    o ∈ builtOf (log ++ log') := by
  rw [builtOf_append]
  exact List.mem_append_left _ h

theorem History.unique {calls : List Call} (h : History sizes calls context) {o o' : WhistSegment}
    (ho : o ∈ builtOf context.log) (ho' : o' ∈ builtOf context.log) (ht : o.whistType = o'.whistType)
    (hreg : (sizes o.whistType).isSome) (hid : o.id = o'.id) :
    o.numIndices = o'.numIndices ∧ (o.index = o'.index → o = o') := by
  have hsym : Std.Symm (fun s s' : WhistSegment => s.whistType = s'.whistType →
      (sizes s.whistType).isSome → Later s s' ∨ Later s' s) :=
    ⟨fun s s' hs ht hreg => (hs ht.symm (ht.symm ▸ hreg)).symm⟩
  have hboth : (builtOf context.log).Pairwise (fun s s' : WhistSegment => s.whistType = s'.whistType →
      (sizes s.whistType).isSome → Later s s' ∨ Later s' s) :=
    h.ordered.imp (fun hl ht hreg => Or.inl (hl ht hreg))
  have hpair := hboth.forall ho ho'
  by_cases hne : o = o'
  · exact ⟨by rw [hne],fun _ => hne⟩
  · rcases hpair hne ht hreg with (hlt | ⟨-,hlt,hn⟩) | (hlt | ⟨-,hlt,hn⟩)
    · omega
    · exact ⟨hn,fun hi => by omega⟩
    · omega
    · exact ⟨hn.symm,fun hi => by omega⟩

theorem lastBuilt_newest {log : List Event} {n : ℕ} {t : WhistPacketType} {slot i : ℕ}
    {s : WhistSegment} (hreg : (sizes t).isSome)
    (hordered : (builtOf log).Pairwise (fun s s' =>
      s.whistType = s'.whistType → (sizes s.whistType).isSome → Later s s'))
    (hs : lastBuilt n t slot i log = some s) :
    s ∈ builtOf log ∧ (s.whistType = t ∧ (s.id % n).toNat = slot ∧ s.index = i) ∧
      ∀ o ∈ builtOf log, o.whistType = t → (o.id % n).toNat = slot → o.index = i → o.id ≤ s.id := by
  unfold lastBuilt at hs
  obtain ⟨hkey,newer,older,hsplit,hnewer⟩ := List.find?_eq_some_iff_append.mp hs
  have hlog : builtOf log = older.reverse ++ s :: newer.reverse := by
    rw [← List.reverse_reverse (builtOf log), hsplit]
    simp
  simp only [decide_eq_true_eq] at hkey
  refine ⟨by simp [hlog],hkey,fun o ho ht hslot hi => ?_⟩
  rw [hlog, List.pairwise_append] at hordered
  rw [hlog] at ho
  rcases List.mem_append.mp ho with ho | ho
  · rcases hordered.2.2 o ho s (by simp) (ht.trans hkey.1.symm) (ht ▸ hreg) with h | h
    · exact h.le
    · exact h.1.le
  · rcases List.mem_cons.mp ho with rfl | ho
    · exact le_rfl
    · have := hnewer o (List.mem_reverse.mp ho)
      simp [ht, hslot, hi] at this

theorem answerOf_eq_some {log : List Event} {n : ℕ} {t : WhistPacketType} {id i : ℤ} {d : Bool}
    {s : WhistSegment} (hi : 0 ≤ i) (hreg : (sizes t).isSome)
    (hordered : (builtOf log).Pairwise (fun s s' =>
      s.whistType = s'.whistType → (sizes s.whistType).isSome → Later s s'))
    (h : answerOf n log t id i d = some s) :
    ∃ o ∈ builtOf log, Addressed o t id i ∧ s = o.mark d ∧ ∀ o' ∈ builtOf log, o'.whistType = t →
      (o'.index : ℤ) = i → o'.id % n = id % n → o'.id ≤ id := by
  unfold answerOf at h
  obtain ⟨o,ho,rfl⟩ := Option.map_eq_some_iff.mp h
  obtain ⟨hlast,hid⟩ := Option.filter_eq_some_iff.mp ho
  have hid : o.id = id := by simpa using hid
  obtain ⟨hmem,⟨ht,-,hindex⟩,hnewest⟩ := lastBuilt_newest hreg hordered hlast
  refine ⟨o,hmem,⟨ht,hid,by omega⟩,rfl,fun o' ho' ht' hi' hslot => ?_⟩
  rw [← hid]
  exact hnewest o' ho' ht' (by rw [hslot]) (by omega)

/-- The log of a run, finished or aborted, answers nacks from what was sent. -/
structure AnswersFaithful (start : UdpContext) (r : Result UdpContext) : Prop where
  /-- An answer is the segment built for its address, which is also what is sent there. -/
  exact : ∀ (pre post : List Event) (t : WhistPacketType) (id i : ℤ) (d : Bool) (s : WhistSegment),
    (Run.reached r).log = pre ++ .nack t id i d (some s) :: post →
    (∃ o, .built o ∈ pre ∧ Addressed o t id i ∧ i < o.numIndices ∧ s = o.mark d) ∧
    ∀ o, .sent o ∈ (Run.reached r).log → Addressed o t id i → s.content = o.content
  /-- No answer: the index is outside the frame, the row belongs to a newer frame, or
  there is no such segment. -/
  silent : ∀ (pre post : List Event) (t : WhistPacketType) (id i : ℤ) (d : Bool)
      (ans : Option WhistSegment), (Run.reached r).log = pre ++ .nack t id i d ans :: post →
    ((∃ o, .built o ∈ pre ∧ o.whistType = t ∧ o.id = id ∧ (o.numIndices : ℤ) ≤ i) ∨
      (∃ o b, .built o ∈ pre ∧ o.whistType = t ∧ (o.index : ℤ) = i ∧ start.nackBuffers t = some b ∧
        o.id % (b.numBuffers : ℤ) = id % b.numBuffers ∧ id < o.id) ∨
      ∀ o, .built o ∈ pre → ¬Addressed o t id i) → ans = none
  complete : ∀ c, r = .ok c → ∀ o, .built o ∈ c.log → ∃ s, .sent s ∈ c.log ∧ s.content = o

theorem nack_answers_faithful (cm : Cm256) {start : UdpContext} {calls : List Call}
    (hf : Fresh start) (hids : IncreasingIds start calls) :
    AnswersFaithful start (Run.run (callStep cm) start calls) := by
  obtain ⟨calls',h,hall⟩ := run_history cm hf hids
  generalize hr : Run.run (callStep cm) start calls = r at h hall
  generalize hc : Run.reached r = context at h
  -- an answer, with the segment it comes from
  have hanswer : ∀ {pre post : List Event} {t : WhistPacketType} {id i : ℤ} {d : Bool}
      {s : WhistSegment}, context.log = pre ++ .nack t id i d (some s) :: post →
      ∃ (n : ℕ × ℕ) (o : WhistSegment), sizesOf start t = some n ∧ o ∈ builtOf pre ∧
        Addressed o t id i ∧ s = o.mark d ∧ ∀ o' ∈ builtOf pre, o'.whistType = t →
          (o'.index : ℤ) = i → o'.id % (n.1 : ℤ) = id % n.1 → o'.id ≤ id := by
    intro pre post t id i d s hlog
    obtain ⟨n,hn,hi,hans⟩ := h.kept.answers pre post t id i d _ hlog
    have hordered := h.ordered
    rw [hlog, builtOf_append, List.pairwise_append] at hordered
    have hreg : (sizesOf start t).isSome := by rw [hn]; rfl
    obtain ⟨o,ho,haddr,hs,hnewest⟩ := answerOf_eq_some hi hreg hordered.1 hans.symm
    exact ⟨n,o,hn,ho,haddr,hs,hnewest⟩
  have hgrow : ∀ {pre post o}, context.log = pre ++ post → o ∈ builtOf pre → o ∈ builtOf context.log :=
    fun hlog ho => hlog ▸ mem_builtOf_append ho
  refine ⟨?_,?_,?_⟩
  · intro pre post t id i d s hlog
    rw [hc] at hlog ⊢
    obtain ⟨n,o,hn,ho,⟨rfl,rfl,hi⟩,rfl,-⟩ := hanswer hlog
    have hreg : (sizesOf start o.whistType).isSome := by rw [hn]; rfl
    have hmem := hgrow hlog ho
    have hlt := h.index_lt o hmem
    refine ⟨⟨o,mem_builtOf.mp ho,⟨rfl,rfl,hi⟩,by omega,rfl⟩,fun o' ho' haddr => ?_⟩
    have hsent := h.sent o' (mem_sentOf.mpr ho')
    have hu := (h.unique hmem hsent haddr.1.symm hreg haddr.2.1.symm).2
    have hindex : o.index = o'.content.index := by
      have := haddr.2.2
      change o.index = o'.index
      omega
    rw [WhistSegment.content_mark, hu hindex]
    simp [WhistSegment.content, WhistSegment.onWire]
  · intro pre post t id i d ans hlog hcases
    rw [hc] at hlog
    cases ans with
    | none => rfl
    | some s =>
      exfalso
      obtain ⟨n,o,hn,ho,⟨rfl,rfl,hi⟩,rfl,hnewest⟩ := hanswer hlog
      have hreg : (sizesOf start o.whistType).isSome := by rw [hn]; rfl
      rcases hcases with ⟨o',ho',ht,hid,hout⟩ | ⟨o',b,ho',ht,hi',hb,hslot,hnew⟩ | hnever
      · have hu := (h.unique (hgrow hlog ho) (hgrow hlog (mem_builtOf.mpr ho')) ht.symm hreg hid.symm).1
        have hlt := h.index_lt o (hgrow hlog ho)
        omega
      · rw [sizesOf, hb, Option.map_some, Option.some.injEq] at hn
        subst hn
        have := hnewest o' (mem_builtOf.mpr ho') ht hi' hslot
        omega
      · exact hnever o (mem_builtOf.mp ho) ⟨rfl,rfl,hi⟩
  · intro c hc o ho
    obtain ⟨s,hs,hcontent⟩ := hall c hc o (mem_builtOf.mpr ho)
    exact ⟨s,mem_sentOf.mp hs,hcontent⟩

def smallConnection : UdpContext where
  fecPacketRatios := fun _ => noFec
  nackBuffers := fun t => if t = .video then some (registerNackBuffer 3000 2 (by omega)) else none

def Event.answered : Event → Bool
  | .nack _ _ _ _ (some _) => true
  | _ => false

/-- Two frames, then a nack for a segment of the first. -/
theorem nack_of_older_frame_answered :
    AnswersFaithful smallConnection (Run.run (callStep parityCode) smallConnection
      [.sendPacket .video [1,2,3] 1 true,.sendPacket .video [4] 2 false,.message (.nack .video 1 0),
        .handlePendingNacks]) ∧
    (Run.reached (Run.run (callStep parityCode) smallConnection
      [.sendPacket .video [1,2,3] 1 true,.sendPacket .video [4] 2 false,.message (.nack .video 1 0),
        .handlePendingNacks])).log.any Event.answered := by
  refine ⟨nack_answers_faithful parityCode ⟨fun t b hb => ?_,rfl⟩ (fun t ht => ?_),by decide +kernel⟩
  · unfold smallConnection at hb
    dsimp only at hb
    split_ifs at hb
    exact ⟨3000,2,by omega,(Option.some.inj hb).symm⟩
  · unfold smallConnection at ht
    dsimp only at ht
    split_ifs at ht with hvideo
    · subst hvideo
      decide
    · cases ht

end Whist.Udp
