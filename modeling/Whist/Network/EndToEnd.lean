import Whist.Network.FrameReassembly
import Whist.Network.NackAnswers

/-! # A connection from end to end

One side sends packets and answers nacks, in any order.  The network delivers to the other side's ring
buffer any of the segments that were put on the wire, in any order and any number of times.
-/
namespace Whist.Udp
open Fec
variable {cm : Cm256} {sizes : WhistPacketType → Option (ℕ × ℕ)} {start context : UdpContext}
  {t : WhistPacketType} {payload : Block} {id : ℤ} {first : Bool} {segments : List WhistSegment}
  {pre post : List Call} {s : WhistSegment}

theorem callStep_built (cm : Cm256) (hk : Kept sizes context) (call : Call) :
    Kept sizes (Run.reached (callStep cm context call)) ∧
      ∃ new, builtOf (Run.reached (callStep cm context call)).log = builtOf context.log ++ new ∧
        ∀ s ∈ new, s.id ∈ sentIds s.whistType [call] := by
  by_cases hsend : ∃ t payload id first, call = .sendPacket t payload id first
  · obtain ⟨t,payload,id,first,rfl⟩ := hsend
    obtain ⟨f,k,j,rfl,rfl,-,-,-,hs,-⟩ := udpSendPacket_spec cm hk t payload id first
    refine ⟨hs.kept,_,hs.built,fun s hs => ?_⟩
    obtain ⟨i,-,rfl⟩ := List.mem_map.mp hs
    have htype : (f.wireSegment i).whistType = f.whistType := rfl
    have hid : (f.wireSegment i).id = f.id := rfl
    simp [sentIds, htype, hid]
  · have hq := @callStep_quiet sizes cm context call fun t payload id first hc => hsend ⟨t,payload,id,first,hc⟩
    exact ⟨hq.keeps hk,[],by rw [hq.built, List.append_nil],fun _ hs => (List.not_mem_nil hs).elim⟩

/-- What a run builds has the IDs of the packets that it was given. -/
theorem run_built (cm : Cm256) (hk : Kept sizes context) (calls : List Call) :
    Kept sizes (Run.reached (Run.run (callStep cm) context calls)) ∧
      ∃ new, builtOf (Run.reached (Run.run (callStep cm) context calls)).log = builtOf context.log ++ new ∧
        ∀ s ∈ new, s.id ∈ sentIds s.whistType calls := by
  induction calls generalizing context with
  | nil => exact ⟨hk,[],(List.append_nil _).symm,fun _ hs => (List.not_mem_nil hs).elim⟩
  | cons call calls ih =>
    obtain ⟨hk',new,hnew,hids⟩ := callStep_built cm hk call
    have hsplit : ∀ t, sentIds t (call :: calls) = sentIds t [call] ++ sentIds t calls :=
      fun t => @List.filterMap_append _ _ [call] calls _
    cases hcall : callStep cm context call with
    | error e =>
      rw [hcall] at hk' hnew
      rw [Run.run, hcall]
      refine ⟨hk',new,hnew,fun s hs => ?_⟩
      rw [hsplit]
      exact List.mem_append_left _ (hids s hs)
    | ok c =>
      rw [hcall] at hk' hnew
      change builtOf c.log = _ at hnew
      obtain ⟨hkept,later,hlater,hids'⟩ := @ih c hk'
      rw [Run.run_cons calls hcall]
      refine ⟨hkept,new ++ later,by rw [hlater, hnew, List.append_assoc],fun s hs => ?_⟩
      rw [hsplit]
      exact (List.mem_append.mp hs).elim (fun h => List.mem_append_left _ (hids s h))
        fun h => List.mem_append_right _ (hids' s h)

/-- The segment was sent, or sent again to answer a nack. -/
def OnWire (log : List Event) (s : WhistSegment) : Prop :=
  .sent s ∈ log ∨ ∃ t id i d, .nack t id i d (some s) ∈ log

/-- All segments that are ever on the wire under the ID of a packet are segments of that packet. -/
theorem onWire_content (hf : Fresh start)
    (hids : IncreasingIds start (pre ++ .sendPacket t payload id first :: post))
    (hreg : (start.nackBuffers t).isSome) (hrun : Run.run (callStep cm) start pre = .ok context)
    (hsends : Sends cm context t payload id first segments)
    (hs : OnWire (Run.reached (Run.run (callStep cm) start
      (pre ++ .sendPacket t payload id first :: post))).log s) (ht : s.whistType = t) (hid : s.id = id) :
    s.content ∈ segments := by
  obtain ⟨after,hsent,hbuilt⟩ := hsends.sent
  have hcall : callStep cm context (.sendPacket t payload id first) = .ok after := by
    rw [callStep, hsent]
    rfl
  obtain ⟨hcontext,old,hold,holdIds⟩ := run_built cm hf.history.kept pre
  rw [hrun] at hcontext hold
  change builtOf context.log = _ at hold
  have hkept := (callStep_built cm hcontext (.sendPacket t payload id first)).1
  change Kept (sizesOf start) (Run.reached (callStep cm context _)) at hkept
  rw [hcall] at hkept
  obtain ⟨-,later,hlater,hlaterIds⟩ := @run_built _ after cm hkept post
  obtain ⟨calls',h,-⟩ := run_history cm hf hids
  rw [Run.run_append _ hrun, Run.run_cons post hcall] at hs h
  generalize Run.reached (Run.run (callStep cm) after post) = fin at hs h hlater
  rw [hbuilt, hold] at hlater
  have hincreasing := hids t hreg
  rw [sentIds, List.filterMap_append, List.filterMap_cons] at hincreasing
  simp only [if_true] at hincreasing
  obtain ⟨-,hrest,hold'⟩ := List.pairwise_append.mp hincreasing
  -- the IDs of the type increase, so that no other call has built a segment under this one
  have hmem : ∀ o ∈ builtOf fin.log, o.whistType = t → o.id = id → o ∈ segments := by
    intro o ho ht hid
    rw [hlater, List.mem_append, List.mem_append] at ho
    rcases ho with (ho | ho) | ho
    · rw [hf.log] at ho
      rcases List.mem_append.mp ho with ho | ho
      · cases ho
      · have hlt := hold' _ (ht ▸ holdIds o ho) id List.mem_cons_self
        omega
    · exact ho
    · have hlt := List.rel_of_pairwise_cons hrest (ht ▸ hlaterIds o ho)
      omega
  rcases hs with hs | ⟨t',id',i,d,hs⟩
  · exact hmem _ (h.sent s (mem_sentOf.mpr hs)) ht hid
  · obtain ⟨before,behind,hlog⟩ := List.append_of_mem hs
    obtain ⟨n,hn,hi,hanswer⟩ := h.kept.answers _ _ _ _ _ _ _ hlog
    have hordered := h.ordered
    rw [hlog, builtOf_append, List.pairwise_append] at hordered
    obtain ⟨o,ho,-,rfl,-⟩ := answerOf_eq_some hi (by rw [hn]; rfl) hordered.1 hanswer.symm
    have hofin : o ∈ builtOf fin.log := hlog ▸ mem_builtOf_append ho
    have hsegment := hmem o hofin ht hid
    rw [WhistSegment.content_mark, hsends.content o hsegment]
    exact hsegment

end Whist.Udp

namespace Whist.Ring
open Fec Udp

/-- Whatever the network does with the segments of a connection, first or in answer to a nack, a frame that is
rendered is the packet that was sent under its ID, if the payload is smaller than the largest one the ring
buffer was made for. -/
theorem endToEnd_exact {cm : Cm256} {start context : UdpContext} {t : WhistPacketType} {payload : Block} {id : ℤ}
    {first : Bool} {segments : List WhistSegment} {pre post : List Call} (hf : Fresh start)
    (hids : IncreasingIds start (pre ++ .sendPacket t payload id first :: post))
    (hreg : (start.nackBuffers t).isSome) (hsent : Run.run (callStep cm) start pre = .ok context)
    (hsends : Sends cm context t payload id first segments) {c : RingConfig} {calls : List RecoveryCall}
    {r₀ r r' : RingBuffer} (hinit : initRingBuffer c = .ok r₀)
    (harrivals : ∀ s, .ring (.receive s) ∈ calls → s.whistType = t ∧
      OnWire (Run.reached (Run.run (callStep cm) start (pre ++ .sendPacket t payload id first :: post))).log s)
    (hrun : Run.run (recoveryStep c) r₀ calls = .ok r) (hrender : setRendering c r id = .ok r')
    (hpayload : payload.length < c.maxFrameSize) :
    Exact calls segments (whistPacketBytes t payload id) r' := by
  have hcontent : ∀ s, .ring (.receive s) ∈ calls → s.id = id → s.content ∈ segments := fun s hs hid =>
    onWire_content hf hids hreg hsent hsends (harrivals s hs).2 (harrivals s hs).1 hid
  obtain ⟨hparts,hunique⟩ := hsends.parts
  have hpos := numParts_pos t payload id
  have hlen := length_whistPacketBytes t payload id
  obtain ⟨hwf,hassembling⟩ := @assembling_run c r (whistPacketBytes t payload id) id
    (fun i => ∃ s, .ring (.receive s) ∈ calls ∧ s.content ∈ segments ∧ s.index = i) calls r₀ hinit
    (fun s hs hid => ⟨(hparts _ (hcontent s hs hid)).of_content,s,hs,hcontent s hs hid,rfl⟩) hrun
  obtain ⟨hf,hall,b,hframe,hpacket⟩ := hassembling.rendered hwf hrender
  have hfits : ∀ i < numParts (whistPacketBytes t payload id), Fits c (whistPacketBytes t payload id) i := by
    rw [fits_iff hpos, hlen, largestFrameSize]
    omega
  refine ⟨fun o ho => ?_,(hf.size_iff hpos hall).mpr hfits,b,hframe,?_⟩
  · obtain ⟨s,hs,hmem,hi⟩ := hf.arrived _ (hall _ (hparts o ho).index)
    exact ⟨s,hs,hunique _ hmem _ ho hi⟩
  · have hholds := (hf.stored b hpacket).all (by decide) fun i hi => ?_
    · exact (List.map_congr_left fun i _ => by rw [Nat.zero_add]).trans hholds
    · have hi' : i < numParts (whistPacketBytes t payload id) := by
        by_contra hge
        have hmul := Nat.mul_le_mul_right maxPacketSegmentSize (not_lt.mp hge)
        have hcover := parts_cover (whistPacketBytes t payload id)
        omega
      exact ⟨hall i hi',hfits i hi'⟩

deriving instance DecidableEq for WhistSegment

/-- A payload of three bytes on a new connection. -/
theorem endToEnd_exact_small : ∃ r, Exact (arrivalsOf (audioSegments [1,2,3])) (audioSegments [1,2,3])
    (whistPacketBytes .audio [1,2,3] 1) r := by
  have hsends := @audioSegments_sends [1,2,3] (by decide +kernel) (by decide +kernel)
  obtain ⟨r₀,r,r',hinit,hrun,hrender,-⟩ := @audioRendered_run [1,2,3] 18 (by decide +kernel)
  have hfresh : Fresh audioConnection := by
    refine ⟨fun t b hb => ?_,rfl⟩
    obtain ⟨-,hb⟩ := Option.ite_none_right_eq_some.mp hb
    obtain rfl := Option.some.inj hb
    exact ⟨_,_,_,rfl⟩
  refine ⟨r',@endToEnd_exact parityCode audioConnection audioConnection .audio [1,2,3] 1 false _ [] [] hfresh ?_ rfl rfl
    hsends audioRing _ r₀ r r' hinit ?_ hrun hrender (by decide)⟩
  · intro t _
    rw [List.nil_append, sentIds, List.filterMap_cons]
    split <;> simp
  · intro s hs
    obtain ⟨o,ho,heq⟩ := List.mem_map.mp hs
    cases heq
    have hall : ∀ s ∈ audioSegments [1,2,3], s.whistType = .audio ∧ s ∈ sentOf (Run.reached
        (Run.run (callStep parityCode) audioConnection [.sendPacket .audio [1,2,3] 1 false])).log := by
      decide +kernel
    exact ⟨(hall s ho).1,Or.inl (mem_sentOf.mp (hall s ho).2)⟩

end Whist.Ring
