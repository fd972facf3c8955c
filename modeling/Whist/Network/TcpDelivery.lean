import Whist.Network.TcpFraming

/-! # Packets delivered from a TCP stream -/
namespace Whist.Tcp
open Backlog Memory

section Delivery
variable (decrypt : List UInt8 → List UInt8 → Option (List UInt8)) (packetType : ℤ)
  (frames : List TcpNetworkPacket) (results : List RecvResult)

def need (p : ℕ) : ℕ := (encode (frames.take p)).length

def supply (j : ℕ) : ℕ := ((passes results).take j).flatten.length

def delivered (p : ℕ) : List (List UInt8) := (frames.take p).filterMap (whistPacketOf decrypt)

def servedBy (j : ℕ) : ℕ := served (need frames) (supply results) frames.length j

/-- The receiver after `j` passes. -/
structure Streaming (j : ℕ) (r : Receiver) : Prop where
  connected : r.context.connectionLost = false
  segmented : Segmented r.results
  remaining : ∀ i, (passes r.results).getD i [] = (passes results).getD (j + i) []
  closes : .closed ∈ results → .closed ∈ r.results ∧ (passes r.results).length + j = (passes results).length
  stays : .closed ∉ results → .closed ∉ r.results
  arrived : supply results j + (received r.results).length = (received results).length
  buffered : ∃ bytes, Buffered r.context bytes ∧
    bytes ++ received r.results = encode (frames.drop (servedBy frames results j))
  returned : r.returned = delivered decrypt frames (servedBy frames results j)

structure Ended (r : Receiver) : Prop where
  closed : .closed ∈ results
  lost : r.context.connectionLost = true
  returned : r.returned =
    delivered decrypt frames (servedBy frames results ((passes results).length - 1))

/-- The pass after the first `j` does not overflow the length of what is pending. -/
def Fits (j : ℕ) : Prop :=
  supply results j + roomOf ((passes results).getD j []) ≤ intMax + need frames (servedBy frames results j)

variable {decrypt packetType frames results}

theorem encode_append (a b : List TcpNetworkPacket) : encode (a ++ b) = encode a ++ encode b := by
  rw [encode, List.map_append, List.flatten_append]
  rfl

theorem need_add_drop (p : ℕ) :
    need frames p + (encode (frames.drop p)).length = (encode frames).length := by
  rw [need, ← List.length_append, ← encode_append, List.take_append_drop]

theorem need_mono : Monotone (need frames) := by
  intro p q hpq
  have htake : (frames.take q).take p = frames.take p := by rw [List.take_take, Nat.min_eq_left hpq]
  have hsplit := encode_append ((frames.take q).take p) ((frames.take q).drop p)
  rw [List.take_append_drop, htake] at hsplit
  rw [need, need, hsplit, List.length_append]
  exact Nat.le_add_right _ _

theorem supply_succ (j : ℕ) :
    supply results (j + 1) = supply results j + ((passes results).getD j []).length := by
  rw [supply, supply, List.take_add_one, List.flatten_append, List.length_append]
  cases h : (passes results)[j]? <;> simp [h]

theorem supply_mono : Monotone (supply results) :=
  monotone_nat_of_le_succ (fun j => by rw [supply_succ]; exact Nat.le_add_right _ _)

theorem supply_all {j : ℕ} (hj : (passes results).length ≤ j) :
    supply results j = (received results).length := by
  rw [supply, List.take_of_length_le hj, passes, passesFrom_flatten, List.nil_append]

theorem Streaming.pending_length {j : ℕ} {r : Receiver} {bytes : List UInt8}
    (hstream : received results = encode frames) (h : Streaming decrypt frames results j r)
    (hbytes : bytes ++ received r.results = encode (frames.drop (servedBy frames results j))) :
    bytes.length + need frames (servedBy frames results j) = supply results j := by
  have h1 := congrArg List.length hbytes
  have h2 := @need_add_drop frames (servedBy frames results j)
  have h3 := h.arrived
  rw [List.length_append] at h1
  rw [hstream] at h3
  omega

section Drop
variable {p : ℕ} {f : TcpNetworkPacket} {rest : List TcpNetworkPacket} (h : frames.drop p = f :: rest)
include h

theorem take_succ_of_drop : frames.take (p + 1) = frames.take p ++ [f] := by
  have hget : frames[p]? = some f := by
    rw [← List.head?_drop, h]
    rfl
  rw [List.take_add_one, hget]
  rfl

theorem delivered_succ :
    delivered decrypt frames (p + 1) = delivered decrypt frames p ++ (whistPacketOf decrypt f).toList := by
  rw [delivered, take_succ_of_drop h, List.filterMap_append]
  cases hw : whistPacketOf decrypt f <;> simp [delivered, hw]

theorem need_succ : need frames (p + 1) = need frames p + f.bytes.length := by
  rw [need, take_succ_of_drop h, encode_append, List.length_append]
  simp [need, encode]

end Drop

variable {j : ℕ} {r : Receiver} (hstream : received results = encode frames)
  (hwell : ∀ p ∈ frames, WellFormed decrypt packetType p)

def Last (results : List RecvResult) (j : ℕ) : Prop :=
  .closed ∈ results ∧ j + 1 = (passes results).length

def Before (results : List RecvResult) (j : ℕ) : Prop :=
  .closed ∈ results → j < (passes results).length

theorem Streaming.next (h : Streaming decrypt frames results j r) :
    (takePass r.results).1 = (passes results).getD j [] ∧
      ((takePass r.results).2.1 = true ↔ Last results j) := by
  obtain ⟨hfirst,-⟩ := passesFrom_getD r.results []
  have hrem := h.remaining 0
  rw [passes, hfirst, List.nil_append, Nat.add_zero] at hrem
  refine ⟨hrem,?_⟩
  obtain ⟨-,-,hclosed,hopen⟩ := takePass_rest r.results
  constructor
  · intro hc
    have hmem : .closed ∈ results := by
      by_contra hno
      exact h.stays hno (hclosed hc)
    have hlen := length_passesFrom (hclosed hc) []
    have htotal := (h.closes hmem).2
    rw [if_pos hc] at hlen
    rw [passes, hlen] at htotal
    exact ⟨hmem,by omega⟩
  · rintro ⟨hmem,hlast⟩
    by_contra hc
    rw [Bool.not_eq_true] at hc
    have hlen := length_passesFrom (h.closes hmem).1 []
    have hrest := length_passesFrom ((hopen hc).mp (h.closes hmem).1) []
    have htotal := (h.closes hmem).2
    rw [hc, if_neg (by simp)] at hlen
    rw [passes, hlen, passes, hrest] at htotal
    omega

include hstream

theorem Streaming.overflow (h : Streaming decrypt frames results j r) (hfits : ¬Fits frames results j) :
    ∃ e, receiveLoop r.context r.results = .error e := by
  obtain ⟨bytes,hb,hbytes⟩ := h.buffered
  have hlen := h.pending_length hstream hbytes
  refine (receiveLoop_spec h.segmented hb).2 ?_
  rw [h.next.1]
  rw [Fits] at hfits
  omega

theorem Streaming.close (h : Streaming decrypt frames results j r) (hlast : Last results j)
    (hfits : Fits frames results j) :
    ∃ context rest, receiveLoop r.context r.results = .ok (context,rest) ∧
      context.connectionLost = true := by
  obtain ⟨bytes,hb,hbytes⟩ := h.buffered
  have hlen := h.pending_length hstream hbytes
  obtain ⟨hfirst,hclosed⟩ := h.next
  obtain ⟨context,hloop,-,hlost⟩ := (receiveLoop_spec h.segmented hb).1 (by
    rw [hfirst]
    rw [Fits] at hfits
    omega)
  exact ⟨context,_,hloop,by rw [hlost, hclosed.mpr hlast, Bool.or_true]⟩

include hwell in
theorem Streaming.pass (h : Streaming decrypt frames results j r) (hlast : ¬Last results j)
    (hfits : Fits frames results j) :
    ∃ context rest outcome context', receiveLoop r.context r.results = .ok (context,rest) ∧
      context.connectionLost = false ∧
      processPending decrypt packetType context = .ok (outcome,context') ∧
      Streaming decrypt frames results (j + 1)
        ⟨context',rest,r.returned ++ outcome.returned.toList⟩ := by
  obtain ⟨bytes,hb,hbytes⟩ := h.buffered
  have hlen := h.pending_length hstream hbytes
  obtain ⟨hfirst,hclosed⟩ := h.next
  have hnot : (takePass r.results).2.1 = false := by rwa [← Bool.not_eq_true, hclosed]
  obtain ⟨context,hloop,hb',hlost⟩ := (receiveLoop_spec h.segmented hb).1 (by
    rw [hfirst]
    rw [Fits] at hfits
    omega)
  rw [h.connected, hnot, Bool.or_false] at hlost
  obtain ⟨hrec,hseg,-,hopen⟩ := takePass_rest r.results
  obtain ⟨-,hshift⟩ := passesFrom_getD r.results []
  rw [hnot, if_neg (by simp)] at hrec
  rw [hrec, ← List.append_assoc] at hbytes
  have hsupply := @supply_succ results j
  obtain ⟨outcome,context',hproc,hlost',hcase⟩ := processPending_spec hb' hbytes
    (fun p hp => hwell p (List.mem_of_mem_drop hp))
  have hserved : servedBy frames results (j + 1) =
      if servedBy frames results j < frames.length ∧
        need frames (servedBy frames results j + 1) ≤ supply results (j + 1)
      then servedBy frames results j + 1 else servedBy frames results j := rfl
  -- nothing is served: no frame is left, or the next one is not complete
  have hidle : servedBy frames results (j + 1) = servedBy frames results j →
      outcome.returned = none ∧ Buffered context' (bytes ++ (takePass r.results).1) →
      (∃ bytes, Buffered context' bytes ∧ bytes ++ received (takePass r.results).2.2 =
        encode (frames.drop (servedBy frames results (j + 1)))) ∧
      r.returned ++ outcome.returned.toList =
        delivered decrypt frames (servedBy frames results (j + 1)) := by
    rintro heq ⟨hnone,hb''⟩
    rw [heq, hnone]
    exact ⟨⟨_,hb'',hbytes⟩,by rw [Option.toList_none, List.append_nil, h.returned]⟩
  have hafter : (∃ bytes, Buffered context' bytes ∧ bytes ++ received (takePass r.results).2.2 =
        encode (frames.drop (servedBy frames results (j + 1)))) ∧
      r.returned ++ outcome.returned.toList =
        delivered decrypt frames (servedBy frames results (j + 1)) := by
    rw [← hfirst] at hsupply
    cases hframes : frames.drop (servedBy frames results j) with
    | nil =>
      rw [hframes] at hcase
      have hall := List.drop_eq_nil_iff.mp hframes
      exact hidle (hserved.trans (if_neg (by omega))) hcase
    | cons f rest =>
      rw [hframes] at hcase hbytes
      have hneed := need_succ hframes
      have hlt : servedBy frames results j < frames.length := by
        by_contra hle
        rw [List.drop_eq_nil_of_le (by omega)] at hframes
        cases hframes
      have hrest : frames.drop (servedBy frames results j + 1) = rest := by
        rw [← List.drop_drop, hframes]
        rfl
      rw [Serves, List.length_append] at hcase
      by_cases hfull : f.bytes.length ≤ bytes.length + (takePass r.results).1.length
      · rw [if_pos hfull] at hcase
        obtain ⟨hret,hb''⟩ := hcase
        have heq : servedBy frames results (j + 1) = servedBy frames results j + 1 :=
          hserved.trans (if_pos ⟨hlt,by omega⟩)
        rw [heq, hrest, delivered_succ hframes, hret, h.returned]
        refine ⟨⟨_,hb'',?_⟩,rfl⟩
        have := congrArg (List.drop f.bytes.length) hbytes
        rw [List.drop_append_of_le_length (by rw [List.length_append]; omega)] at this
        rw [this, encode, List.map_cons, List.flatten_cons, List.drop_left' rfl]
        rfl
      · rw [if_neg hfull] at hcase
        rw [← hframes] at hbytes
        exact hidle (hserved.trans (if_neg (by omega))) hcase
  refine ⟨context,_,outcome,context',hloop,hlost,hproc,hlost'.trans hlost,hseg h.segmented,fun i => ?_,
    fun hc => ⟨(hopen hnot).mp (h.closes hc).1,?_⟩,fun hc hc' => h.stays hc ((hopen hnot).mpr hc'),?_,
    hafter.1,hafter.2⟩
  · have hi := hshift i
    rw [hnot, if_neg (by simp), ← passes, h.remaining] at hi
    rw [← hi, Nat.add_assoc, Nat.add_comm 1 i]
  · have hcount := length_passesFrom (h.closes hc).1 []
    have htotal := (h.closes hc).2
    rw [hnot, if_neg (by simp)] at hcount
    rw [passes, hcount] at htotal
    dsimp only
    omega
  · have harr := h.arrived
    rw [hrec, List.length_append, hfirst] at harr
    rw [hsupply, Nat.add_assoc]
    exact harr

omit hstream in
theorem Ended.getPacket (h : Ended decrypt frames results r) (timers : List Bool) :
    getPacketStep decrypt packetType r timers = .ok r := by
  have hnone : tcpGetPacket decrypt packetType timers r.context r.results =
      .ok (none,r.context,r.results) := by
    cases timers with
    | nil => rfl
    | cons tooSoon timers => rw [tcpGetPacket, if_pos (Or.inl h.lost)]
  rw [getPacketStep, hnone]
  dsimp only
  rw [Option.toList_none, List.append_nil]

/-- At least `n` passes were made, or the shutdown has been met. -/
def Progress (decrypt : List UInt8 → List UInt8 → Option (List UInt8))
    (frames : List TcpNetworkPacket) (results : List RecvResult) (n : ℕ) (r : Receiver) : Prop :=
  (∃ j, n ≤ j ∧ Before results j ∧ Streaming decrypt frames results j r) ∨
    Ended decrypt frames results r

omit hstream in
theorem Progress.mono {n m : ℕ} (h : Progress decrypt frames results n r) (hm : m ≤ n) :
    Progress decrypt frames results m r := by
  obtain ⟨j,hj,hlt,hs⟩ | he := h
  · exact Or.inl ⟨j,hm.trans hj,hlt,hs⟩
  · exact Or.inr he

include hwell in
theorem Streaming.round (h : Streaming decrypt frames results j r) (hj : Before results j)
    (hfits : Fits frames results j) (timers : List Bool) :
    (∃ packet context rest, tcpGetPacket decrypt packetType (false :: timers) r.context r.results =
        .ok (packet,context,rest) ∧
      Progress decrypt frames results (j + 1) ⟨context,rest,r.returned ++ packet.toList⟩) ∨
    ∃ context rest, Before results (j + 1) ∧
      Streaming decrypt frames results (j + 1) ⟨context,rest,r.returned⟩ ∧
      tcpGetPacket decrypt packetType (false :: timers) r.context r.results =
        tcpGetPacket decrypt packetType timers context rest := by
  have hguard : ¬(r.context.connectionLost = true ∨ false = true) := by simp [h.connected]
  by_cases hlast : Last results j
  · obtain ⟨context,rest,hloop,hlost⟩ := h.close hstream hlast hfits
    refine Or.inl ⟨none,context,rest,?_,Or.inr ⟨hlast.1,hlost,?_⟩⟩
    · rw [tcpGetPacket, if_neg hguard, hloop]
      exact if_pos hlost
    · rw [Option.toList_none, List.append_nil, h.returned, ← hlast.2, Nat.add_sub_cancel]
  · obtain ⟨context,rest,outcome,context',hloop,hlost,hproc,hnext⟩ := h.pass hstream hwell hlast hfits
    have hopen : ¬context.connectionLost = true := by simp [hlost]
    have hbefore : Before results (j + 1) := fun hc => by
      have := hj hc
      have : j + 1 ≠ (passes results).length := fun heq => hlast ⟨hc,heq⟩
      omega
    rw [tcpGetPacket, if_neg hguard, hloop]
    dsimp only
    rw [if_neg hopen, hproc]
    cases outcome with
    | null => exact Or.inl ⟨_,_,_,rfl,Or.inl ⟨j + 1,le_rfl,hbefore,hnext⟩⟩
    | packet whistPacket => exact Or.inl ⟨_,_,_,rfl,Or.inl ⟨j + 1,le_rfl,hbefore,hnext⟩⟩
    | again =>
      rw [Outcome.returned, Option.toList_none, List.append_nil] at hnext
      exact Or.inr ⟨_,_,hbefore,hnext,rfl⟩

def passesOf (timers : List Bool) : ℕ := if timers.head? = some false then 1 else 0

include hwell in
theorem Streaming.call (hfits : ∀ j, Before results j → Fits frames results j)
    (timers : List Bool) {j : ℕ} {r : Receiver} (h : Streaming decrypt frames results j r)
    (hj : Before results j) :
    ∃ r', getPacketStep decrypt packetType r timers = .ok r' ∧
      Progress decrypt frames results (j + passesOf timers) r' := by
  have key : ∃ packet context rest, tcpGetPacket decrypt packetType timers r.context r.results =
        .ok (packet,context,rest) ∧
      Progress decrypt frames results (j + passesOf timers) ⟨context,rest,r.returned ++ packet.toList⟩ := by
    induction timers generalizing j r with
    | nil =>
      refine ⟨none,_,_,rfl,Or.inl ⟨j,le_rfl,hj,?_⟩⟩
      rw [Option.toList_none, List.append_nil]
      exact h
    | cons tooSoon timers ih =>
      cases tooSoon with
      | true =>
        refine ⟨none,_,_,if_pos (Or.inr rfl),Or.inl ⟨j,le_rfl,hj,?_⟩⟩
        rw [Option.toList_none, List.append_nil]
        exact h
      | false =>
        obtain hdone | ⟨context,rest,hlt,hnext,hget⟩ := h.round hstream hwell hj (hfits j hj) timers
        · exact hdone
        · rw [hget]
          obtain ⟨packet,context',rest',hok,hp⟩ := ih hnext hlt
          exact ⟨packet,context',rest',hok,hp.mono (Nat.le_add_right _ _)⟩
  obtain ⟨packet,context,rest,hok,hp⟩ := key
  exact ⟨_,by rw [getPacketStep, hok],hp⟩

theorem Streaming.call_overflow (h : Streaming decrypt frames results j r)
    (hfits : ¬Fits frames results j) :
    ∃ e, getPacketStep decrypt packetType r [false] = .error e := by
  obtain ⟨e,he⟩ := h.overflow hstream hfits
  have hguard : ¬(r.context.connectionLost = true ∨ false = true) := by simp [h.connected]
  exact ⟨e,by rw [getPacketStep, tcpGetPacket, if_neg hguard, he]⟩

include hwell in
theorem Streaming.single (h : Streaming decrypt frames results j r) (hlast : ¬Last results j)
    (hfits : Fits frames results j) :
    ∃ r', getPacketStep decrypt packetType r [false] = .ok r' ∧
      Streaming decrypt frames results (j + 1) r' := by
  obtain ⟨context,rest,outcome,context',hloop,hlost,hproc,hnext⟩ := h.pass hstream hwell hlast hfits
  have hguard : ¬(r.context.connectionLost = true ∨ false = true) := by simp [h.connected]
  rw [getPacketStep, tcpGetPacket, if_neg hguard, hloop]
  dsimp only
  rw [if_neg (by simp [hlost]), hproc]
  cases outcome with
  | null => exact ⟨_,rfl,hnext⟩
  | packet whistPacket => exact ⟨_,rfl,hnext⟩
  | again => exact ⟨_,rfl,hnext⟩

theorem Streaming.single_close (h : Streaming decrypt frames results j r) (hlast : Last results j)
    (hfits : Fits frames results j) :
    ∃ r', getPacketStep decrypt packetType r [false] = .ok r' ∧ Ended decrypt frames results r' := by
  obtain ⟨context,rest,hloop,hlost⟩ := h.close hstream hlast hfits
  have hguard : ¬(r.context.connectionLost = true ∨ false = true) := by simp [h.connected]
  rw [getPacketStep, tcpGetPacket, if_neg hguard, hloop]
  dsimp only
  rw [if_pos hlost]
  refine ⟨_,rfl,hlast.1,hlost,?_⟩
  rw [Option.toList_none, List.append_nil, h.returned, ← hlast.2, Nat.add_sub_cancel]

omit hstream in
theorem streaming_start (hseg : Segmented results) (hstream : received results = encode frames) :
    Streaming decrypt frames results 0 { results := results } := by
  refine ⟨rfl,hseg,fun i => by rw [Nat.zero_add],fun hc => ⟨hc,rfl⟩,id,?_,?_,rfl⟩
  · rw [supply, List.take_zero, List.flatten_nil, List.length_nil, Nat.zero_add]
  · exact ⟨[],⟨(by decide : 0 < (initDynamicBuffer true).capacity),Nat.zero_le _,rfl⟩,hstream⟩

omit hstream in
theorem fits_of_lt (h : ∀ j < (passes results).length, Fits frames results j) (j : ℕ)
    (hj : Before results j) : Fits frames results j := by
  by_cases hlt : j < (passes results).length
  · exact h j hlt
  · have hc : .closed ∉ results := fun hc => hlt (hj hc)
    obtain ⟨init,last,heq,hlast⟩ := @passesFrom_last results hc [] (dvd_zero _)
    have hlen : (passes results).length = init.length + 1 := by
      rw [passes, heq, List.length_append, List.length_singleton]
    have hget : (passes results).getD init.length [] = last := by
      rw [passes, heq]
      simp
    have hnil : (passes results).getD j [] = [] := by
      rw [List.getD_eq_getElem?_getD, List.getElem?_eq_none (by omega)]
      rfl
    have hfit := h init.length (by omega)
    have hsupply := @supply_succ results init.length
    have hall := @supply_all results j (by omega)
    have hall' := @supply_all results (init.length + 1) (by omega)
    have hserved : need frames (servedBy frames results init.length) ≤
        need frames (servedBy frames results j) := need_mono (served_mono (by omega))
    have hroom : roomOf last = last.length + tcpSegmentSize := by
      rw [roomOf, Nat.mul_add_one, Nat.mul_div_cancel' hlast]
    rw [Fits, hget, hroom] at hfit
    rw [Fits, hnil, @roomOf_short [] tcpSegmentSize_pos]
    rw [hget] at hsupply
    omega

def allPackets (decrypt : List UInt8 → List UInt8 → Option (List UInt8))
    (frames : List TcpNetworkPacket) : List (List UInt8) := frames.filterMap (whistPacketOf decrypt)

/-- Whatever calls are made, no assertion fails, the packets come in order and each
once, and all have come when the connection is reported lost or enough calls were
made. -/
def DeliversAll (decrypt : List UInt8 → List UInt8 → Option (List UInt8)) (packetType : ℤ)
    (frames : List TcpNetworkPacket) (results : List RecvResult) : Prop :=
  ∀ calls : List (List Bool), ∃ r,
    Run.run (getPacketStep decrypt packetType) { results := results } calls = .ok r ∧
    r.returned <+: allPackets decrypt frames ∧
    (r.context.connectionLost = true ∨
      (passes results).length + frames.length ≤ (calls.map passesOf).sum →
        r.returned = allPackets decrypt frames)

omit hstream in
theorem delivered_initial (p : ℕ) : delivered decrypt frames p <+: allPackets decrypt frames :=
  (List.take_prefix _ _).filterMap _

omit hstream in
theorem delivered_eq_all_iff (n : ℕ) : delivered decrypt frames n = allPackets decrypt frames ↔
    ∀ p (hp : p < frames.length), (whistPacketOf decrypt frames[p]).isSome → p < n := by
  have hsplit : allPackets decrypt frames =
      delivered decrypt frames n ++ (frames.drop n).filterMap (whistPacketOf decrypt) := by
    rw [delivered, ← List.filterMap_append, List.take_append_drop]
    rfl
  rw [hsplit, eq_comm, List.append_right_eq_self, List.filterMap_eq_nil_iff]
  constructor
  · intro h p hp hsome
    by_contra hle
    have hmem : frames[p] ∈ frames.drop n := by
      rw [List.mem_drop_iff_getElem]
      exact ⟨p - n,by omega,by congr 1; omega⟩
    rw [h _ hmem] at hsome
    cases hsome
  · intro h f hf
    obtain ⟨i,hi,rfl⟩ := List.mem_drop_iff_getElem.mp hf
    by_contra hne
    have := h (n + i) (by omega) (by
      rw [Option.isSome_iff_ne_none]
      exact hne)
    omega

include hwell in
theorem DeliversAll.streaming (h : DeliversAll decrypt packetType frames results)
    (hseg : Segmented results) (j : ℕ) (hj : Before results j) :
    ∃ r, Run.run (getPacketStep decrypt packetType) { results := results }
      (List.replicate j [false]) = .ok r ∧ Streaming decrypt frames results j r ∧
      Fits frames results j := by
  have hfits : ∀ j r, Run.run (getPacketStep decrypt packetType) { results := results }
      (List.replicate j [false]) = .ok r → Streaming decrypt frames results j r →
      Fits frames results j := by
    intro j r hrun hs
    by_contra hno
    obtain ⟨e,he⟩ := hs.call_overflow hstream hno
    obtain ⟨r',hr',-⟩ := h (List.replicate j [false] ++ [[false]])
    rw [Run.run_append _ hrun, Run.run, he] at hr'
    cases hr'
  induction j with
  | zero => exact ⟨_,rfl,streaming_start hseg hstream,hfits 0 _ rfl (streaming_start hseg hstream)⟩
  | succ j ih =>
    obtain ⟨r,hrun,hs,hfit⟩ := ih (fun hc => by have := hj hc; omega)
    have hlast : ¬Last results j := fun hl => by
      have := hj hl.1
      have := hl.2
      omega
    obtain ⟨r',hstep,hs'⟩ := hs.single hstream hwell hlast hfit
    have hrun' : Run.run (getPacketStep decrypt packetType) { results := results }
        (List.replicate (j + 1) [false]) = .ok r' := by
      rw [List.replicate_succ', Run.run_append _ hrun, Run.run_cons _ hstep]
      rfl
    exact ⟨r',hrun',hs',hfits _ _ hrun' hs'⟩

include hwell in
theorem DeliversAll.ended (h : DeliversAll decrypt packetType frames results)
    (hseg : Segmented results) (hc : .closed ∈ results) :
    delivered decrypt frames (servedBy frames results ((passes results).length - 1)) =
      allPackets decrypt frames := by
  have hpos : 0 < (passes results).length := by
    rw [passes, length_passesFrom hc]
    omega
  obtain ⟨r,hrun,hs,hfit⟩ := h.streaming hstream hwell hseg ((passes results).length - 1)
    (fun _ => by omega)
  obtain ⟨r',hstep,hended⟩ := hs.single_close hstream ⟨hc,by omega⟩ hfit
  obtain ⟨r'',hrun'',-,hall⟩ := h (List.replicate ((passes results).length - 1) [false] ++ [[false]])
  rw [Run.run_append _ hrun, Run.run_cons _ hstep, Run.run, Except.ok.injEq] at hrun''
  subst hrun''
  exact hended.returned.symm.trans (hall (Or.inl hended.lost))

include hwell in
/-- All packets are delivered, whatever calls are made, if and only if every packet has
arrived as many passes before the shutdown as there are frames from it on, and no pass
overflows the length of what is pending. -/
theorem deliversAll_iff (hseg : Segmented results) :
    DeliversAll decrypt packetType frames results ↔
      (.closed ∈ results → ∀ p (hp : p < frames.length), (whistPacketOf decrypt frames[p]).isSome →
        InTime (need frames) (supply results) (p + 1) ((passes results).length - 1)) ∧
      ∀ j < (passes results).length, ∃ p ≤ frames.length,
        InTime (need frames) (supply results) p j ∧
        supply results j + roomOf ((passes results).getD j []) ≤ intMax + need frames p := by
  have hfit : ∀ j, (∃ p ≤ frames.length, InTime (need frames) (supply results) p j ∧
      supply results j + roomOf ((passes results).getD j []) ≤ intMax + need frames p) ↔
      Fits frames results j := by
    intro j
    refine exists_inTime_iff supply_mono (P := fun p =>
      supply results j + roomOf ((passes results).getD j []) ≤ intMax + need frames p) ?_ j
    exact fun p q hpq h => le_trans h (Nat.add_le_add_left (need_mono hpq) _)
  constructor
  · intro h
    refine ⟨fun hc p hp hsome => ?_,fun j hj => (hfit j).mpr ?_⟩
    · have hall := (delivered_eq_all_iff _).mp (h.ended hstream hwell hseg hc) p hp hsome
      exact (le_served_iff supply_mono (by omega)).mp hall
    · obtain ⟨-,-,-,hj⟩ := h.streaming hstream hwell hseg j (fun _ => hj)
      exact hj
  · rintro ⟨htime,hfits⟩ calls
    have hall := fits_of_lt (fun j hj => (hfit j).mp (hfits j hj))
    have hrun := @Run.run_ok_of_calls _ _ _ (getPacketStep decrypt packetType)
      (fun pre r => Progress decrypt frames results (pre.map passesOf).sum r) calls
      { results := results } ?_ ?_
    · obtain ⟨r,hrun,hprogress⟩ := hrun
      refine ⟨r,hrun,?_⟩
      rcases hprogress with ⟨j,hj,hbefore,hs⟩ | hended
      · rw [hs.returned]
        refine ⟨delivered_initial _,fun hdone => (delivered_eq_all_iff _).mpr (fun p hp _ => ?_)⟩
        have hmany : (passes results).length + frames.length ≤ j := by
          rcases hdone with hlost | hmany
          · rw [hs.connected] at hlost
            cases hlost
          · omega
        refine lt_of_lt_of_le hp ((le_served_iff supply_mono le_rfl).mpr (fun m hm => ⟨by omega,?_⟩))
        rw [supply_all (by omega), hstream, ← @need_add_drop frames (frames.length - m)]
        exact Nat.le_add_right _ _
      · rw [hended.returned]
        refine ⟨delivered_initial _,fun _ => (delivered_eq_all_iff _).mpr (fun p hp hsome => ?_)⟩
        exact (le_served_iff supply_mono (by omega)).mpr (htime hended.closed p hp hsome)
    · refine Or.inl ⟨0,le_rfl,fun hc => ?_,streaming_start hseg hstream⟩
      rw [passes, length_passesFrom hc]
      omega
    · rintro pre timers post r - (⟨j,hj,hbefore,hs⟩ | hended)
      · obtain ⟨r',hstep,hp⟩ := hs.call hstream hwell hall timers hbefore
        refine ⟨r',hstep,hp.mono ?_⟩
        rw [List.map_append, List.sum_append, List.map_singleton, List.sum_singleton]
        omega
      · exact ⟨r,hended.getPacket timers,Or.inr hended⟩

include hwell in
theorem Streaming.call_ok (timers : List Bool) {j : ℕ} {r r' : Receiver} (h : Streaming decrypt frames results j r)
    (hj : Before results j) (hstep : getPacketStep decrypt packetType r timers = .ok r') :
    Progress decrypt frames results j r' := by
  induction timers generalizing j r with
  | nil =>
    cases hstep
    exact Or.inl ⟨j,le_rfl,hj,by rwa [Option.toList_none, List.append_nil]⟩
  | cons tooSoon timers ih =>
    cases tooSoon with
    | true =>
      rw [getPacketStep, tcpGetPacket, if_pos (Or.inr rfl)] at hstep
      cases hstep
      exact Or.inl ⟨j,le_rfl,hj,by rwa [Option.toList_none, List.append_nil]⟩
    | false =>
      -- a pass that overflows would have ended the call with an error
      have hfits : Fits frames results j := by
        by_contra hno
        obtain ⟨e,he⟩ := h.overflow hstream hno
        have hguard : ¬(r.context.connectionLost = true ∨ false = true) := by simp [h.connected]
        rw [getPacketStep, tcpGetPacket, if_neg hguard, he] at hstep
        cases hstep
      obtain ⟨packet,context,rest,hget,hp⟩ | ⟨context,rest,hlt,hnext,hget⟩ := h.round hstream hwell hj hfits timers
      · rw [getPacketStep, hget] at hstep
        obtain rfl := Except.ok.inj hstep
        exact hp.mono (Nat.le_succ j)
      · rw [getPacketStep, hget] at hstep
        exact (ih hnext hlt hstep).mono (Nat.le_succ j)

include hwell in
/-- Whatever calls are made, and even if packets are lost at the shutdown, what is returned comes in order, each
packet once and unchanged. -/
theorem returned_inOrder (hseg : Segmented results) (calls : List (List Bool))
    (hrun : Run.run (getPacketStep decrypt packetType) { results := results } calls = .ok r) :
    r.returned <+: allPackets decrypt frames := by
  have hprogress : Progress decrypt frames results 0 r := by
    refine Run.run_invariant (P := fun _ => True) ?_ (fun _ _ => trivial) (Or.inl ⟨0,le_rfl,fun hc => ?_,
      streaming_start hseg hstream⟩) hrun
    · rintro r timers r' (⟨j,-,hbefore,hs⟩ | hended) - hstep
      · exact (hs.call_ok hstream hwell timers hbefore hstep).mono (Nat.zero_le j)
      · rw [hended.getPacket timers] at hstep
        exact Or.inr (Except.ok.inj hstep ▸ hended)
    · rw [passes, length_passesFrom hc]
      omega
  rcases hprogress with ⟨j,-,-,hs⟩ | hended
  · exact hs.returned ▸ delivered_initial _
  · exact hended.returned ▸ delivered_initial _

end Delivery

/-- A packet without encryption: `TCP_WHIST_PACKET`, then type 2, an id and one byte. -/
def samplePacket (byte : UInt8) : TcpNetworkPacket where
  aesMetadata := List.replicate 28 0
  payload := writeInt 2 ++ writeInt 2 ++ writeInt 0 ++ writeInt 1 ++ [byte,0,0,0]
  metadata_length := rfl
  payload_length := (by decide : (20 : ℤ) ≤ maxTcpPayloadSize)

theorem samplePacket_wellFormed (byte : UInt8) :
    WellFormed (fun _ payload => some payload) 2 (samplePacket byte) :=
  ⟨_,rfl,rfl,fun _ => rfl⟩

/-- One packet and the shutdown in a pass of its own. -/
theorem single_packet_delivered : DeliversAll (fun _ payload => some payload) 2 [samplePacket 7]
    [.data (encode [samplePacket 7]),.closed] := by
  refine (deliversAll_iff (by decide +kernel) ?_ ?_).mpr ⟨?_,?_⟩
  · intro p hp
    rw [List.mem_singleton.mp hp]
    exact samplePacket_wellFormed 7
  · intro bytes hb
    rw [List.mem_cons, List.mem_singleton] at hb
    obtain h | h := hb
    · rw [RecvResult.data.inj h]
      decide +kernel
    · cases h
  · intro _ p hp _ m hm
    obtain rfl : p = 0 := by simpa using hp
    obtain rfl : m = 0 := by omega
    exact ⟨by decide +kernel,by decide +kernel⟩
  · intro j hj
    have hj : j < 2 := lt_of_lt_of_eq hj (by decide +kernel)
    refine ⟨0,Nat.zero_le _,fun m hm => by omega,?_⟩
    interval_cases j <;> decide +kernel

/-- The peer writes two packets and shuts down.  The first call reads both and returns
the first; the second one meets the shutdown with the other packet still pending. -/
theorem pending_packet_lost :
    (Run.run (getPacketStep (fun _ payload => some payload) 2)
        { results := [.data (encode [samplePacket 7,samplePacket 8]),.closed] } [[false],[false]]).map
      (fun r => (r.returned,r.context.connectionLost)) =
        .ok ([(samplePacket 7).payload.drop 4],true) ∧
    ¬DeliversAll (fun _ payload => some payload) 2 [samplePacket 7,samplePacket 8]
      [.data (encode [samplePacket 7,samplePacket 8]),.closed] := by
  have hrun : (Run.run (getPacketStep (fun _ payload => some payload) 2)
        { results := [.data (encode [samplePacket 7,samplePacket 8]),.closed] } [[false],[false]]).map
      (fun r => (r.returned,r.context.connectionLost)) =
        .ok ([(samplePacket 7).payload.drop 4],true) := by decide +kernel
  refine ⟨hrun,fun h => ?_⟩
  obtain ⟨r,hr,-,hall⟩ := h [[false],[false]]
  rw [hr, Except.map, Except.ok.injEq, Prod.mk.injEq] at hrun
  have := hall (Or.inl hrun.2)
  rw [hrun.1] at this
  exact absurd this (by decide +kernel)

/-- Two packets arrive together, and the second one is lost. -/
theorem returned_inOrder_lost : ∃ r, Run.run (getPacketStep (fun _ payload => some payload) 2)
      { results := [.data (encode [samplePacket 7,samplePacket 8]),.closed] } [[false],[false]] = .ok r ∧
    r.returned.length = 1 ∧
    r.returned <+: allPackets (fun _ payload => some payload) [samplePacket 7,samplePacket 8] := by
  have hok : (Run.run (getPacketStep (fun _ payload => some payload) 2)
      { results := [.data (encode [samplePacket 7,samplePacket 8]),.closed] } [[false],[false]]).map
        (fun r => r.returned.length) = .ok 1 := by decide +kernel
  obtain ⟨r,hrun,hlength⟩ := Run.map_eq_ok hok
  refine ⟨r,hrun,hlength,returned_inOrder (by decide +kernel) ?_ ?_ _ hrun⟩
  · intro p hp
    rcases List.mem_pair.mp hp with rfl | rfl <;> exact samplePacket_wellFormed _
  · intro bytes hb
    rcases List.mem_pair.mp hb with h | h
    · rw [RecvResult.data.inj h]
      decide +kernel
    · cases h

end Whist.Tcp
