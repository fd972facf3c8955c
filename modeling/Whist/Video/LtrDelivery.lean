import Mathlib.Data.List.ReduceOption
import Whist.Video.LtrCalls

/-! # What a delivered frame is predicted from

The video loop numbers its frames, encoded or empty, and the network loses and reorders them.  The client hands a
frame to its decoder if it is the next one or a recovery point (`udp_get_packet`), and acknowledges the encoded
ones.  An encoder and a decoder keep the picture before and those in the long-term slots.
-/
namespace Whist.Ltr

structure Pictures where
  newest : Option ℕ := none
  slots : ℕ → Option ℕ := fun _ => none

def Pictures.add (p : Pictures) (f : LtrFrame) : Pictures :=
  ⟨some f.frameCounter,writeSlots p.slots f.action f.frameCounter⟩

def pictures (frames : List LtrFrame) : Pictures := frames.foldl Pictures.add {}

/-- What a frame is predicted from. -/
def Pictures.reference (p : Pictures) (action : LtrAction) : Option ℕ :=
  match action.frameType with
  | .intra => none
  | .referLongTerm => p.slots action.longTermFrameIndex
  | .normal | .createLongTerm => p.newest

def LtrFrame.isRecoveryPoint (f : LtrFrame) : Bool :=
  f.action.frameType = .intra || f.action.frameType = .referLongTerm

/-- The frame `sent[i]`, which is none if it is empty, has the ID `i + 2`.  Frames that are dropped before they get
to the network are among them.  `played` is how many there are up to the last one that was handed out. -/
structure Connection where
  ltr : LtrState := ltrCreate
  sent : List (Option LtrFrame) := []
  played : ℕ := 0
  delivered : List LtrFrame := []
  deriving DecidableEq

inductive Move where
  | sendEmptyFrame
  | sendFrame
  | frameAck (i : ℕ)
  | streamBroken
  | forceIntra
  | getPacket (i : ℕ)

def Connection.takes (c : Connection) (i : ℕ) (x : Option LtrFrame) : Bool :=
  c.played ≤ i && (x.any LtrFrame.isRecoveryPoint || (i = c.played && 0 < c.played))

def Connection.step (c : Connection) : Move → Except LtrFatal Connection
  | .sendEmptyFrame => .ok { c with sent := c.sent ++ [none] }
  | .sendFrame =>
    let ltr := (ltrGetNextAction c.ltr (.ofNat (c.sent.length + 2))).2.2
    .ok { c with ltr := ltr, sent := c.sent ++ [ltr.inflightList.getLast?] }
  | .frameAck i =>
    match c.delivered[i]? with
    | some e => (ltrMarkFrameReceived c.ltr e.frameId).map fun r => { c with ltr := r.2 }
    | none => .ok c
  | .streamBroken => (ltrMarkStreamBroken c.ltr).map fun ltr => { c with ltr := ltr }
  | .forceIntra => .ok { c with ltr := ltrForceIntra c.ltr }
  | .getPacket i =>
    match c.sent[i]? with
    | some x => .ok (if c.takes i x then { c with played := i + 1, delivered := c.delivered ++ x.toList } else c)
    | none => .ok c

theorem pictures_concat (l : List LtrFrame) (f : LtrFrame) : pictures (l ++ [f]) = (pictures l).add f := by
  rw [pictures, List.foldl_append]
  rfl

theorem pictures_newest (l : List LtrFrame) : (pictures l).newest = l.getLast?.map LtrFrame.frameCounter := by
  rcases List.eq_nil_or_concat l with rfl | ⟨l,f,rfl⟩
  · rfl
  · rw [List.concat_eq_append, pictures_concat, List.getLast?_concat]
    rfl

/-- A frame writes a slot, or it leaves it alone. -/
theorem writeSlots_cases (a : LtrAction) (n k : ℕ) :
    (∀ slots, writeSlots slots a n k = some n) ∨ ∀ slots, writeSlots slots a n k = slots k := by
  have hupdate : ∀ i, (∀ slots : ℕ → Option ℕ, Function.update slots i (some n) k = some n) ∨
      ∀ slots : ℕ → Option ℕ, Function.update slots i (some n) k = slots k := fun i => by
    rcases eq_or_ne k i with rfl | hne
    · exact .inl fun slots => Function.update_self ..
    · exact .inr fun slots => Function.update_of_ne hne ..
  unfold writeSlots
  cases a.frameType
  · exact .inr fun slots => rfl
  · exact hupdate 0
  · exact hupdate a.longTermFrameIndex
  · exact .inr fun slots => rfl

theorem mem_of_slots {l : List LtrFrame} {k n : ℕ} (h : (pictures l).slots k = some n) :
    n ∈ l.map LtrFrame.frameCounter := by
  induction l using List.reverseRecOn with
  | nil => cases h
  | append_singleton l f ih =>
    rw [pictures_concat, Pictures.add] at h
    rw [List.map_append, List.mem_append]
    rcases writeSlots_cases f.action f.frameCounter k with hw | hw
    · obtain rfl := Option.some.inj ((hw _).symm.trans h)
      exact .inr List.mem_cons_self
    · exact .inl (ih ((hw _).symm.trans h))

/-- A slot has the same picture for a decoder that misses some frames, if it got the one in the slot. -/
theorem slots_of_sublist {l l' : List LtrFrame} {k n : ℕ} (hl : (l.map LtrFrame.frameCounter).Nodup)
    (hsub : l'.Sublist l) (h : (pictures l).slots k = some n) (hn : n ∈ l'.map LtrFrame.frameCounter) :
    (pictures l').slots k = some n := by
  induction l using List.reverseRecOn generalizing l' with
  | nil => cases h
  | append_singleton l f ih =>
    obtain ⟨l₁,l₂,rfl,hl₁,hl₂⟩ := List.sublist_append_iff.mp hsub
    rw [List.map_append, List.nodup_append] at hl
    obtain ⟨hnodup,-,hne⟩ := hl
    have hnew : f.frameCounter ∉ l.map LtrFrame.frameCounter := fun hf => hne _ hf _ List.mem_cons_self rfl
    rw [pictures_concat, Pictures.add] at h
    rcases List.sublist_singleton.mp hl₂ with rfl | rfl
    · rw [List.append_nil] at hn ⊢
      have hl : n ∈ l.map LtrFrame.frameCounter := (hl₁.map _).subset hn
      rcases writeSlots_cases f.action f.frameCounter k with hw | hw
      · obtain rfl := Option.some.inj ((hw _).symm.trans h)
        exact absurd hl hnew
      · exact ih hnodup hl₁ ((hw _).symm.trans h) hn
    · rw [pictures_concat, Pictures.add]
      rcases writeSlots_cases f.action f.frameCounter k with hw | hw
      · rw [← h]
        exact (hw _).trans (hw _).symm
      · have hslot := (hw _).symm.trans h
        rw [List.map_append, List.mem_append] at hn
        refine (hw _).trans (ih hnodup hl₁ hslot (hn.resolve_right fun hf => hnew ?_))
        obtain rfl := List.mem_singleton.mp hf
        exact mem_of_slots hslot

theorem mem_of_reference {l : List LtrFrame} {a : LtrAction} {n : ℕ} (h : (pictures l).reference a = some n) :
    n ∈ l.map LtrFrame.frameCounter := by
  have hnewest : (pictures l).newest = some n → n ∈ l.map LtrFrame.frameCounter := fun h => by
    rw [pictures_newest, ← List.getLast?_map] at h
    exact List.mem_of_getLast? h
  unfold Pictures.reference at h
  cases htype : a.frameType <;> rw [htype] at h
  · exact hnewest h
  · cases h
  · exact hnewest h
  · exact mem_of_slots h

theorem ltrGetNextAction_frameId {ltr : LtrState} (hp : ltr.pendingList = []) (frameId : UInt32) {f : LtrFrame}
    (hf : (ltrGetNextAction ltr frameId).2.2.inflightList.getLast? = some f) : f.frameId = frameId := by
  have hchosen : (ltrChooseFrame (ltrClearOldFrames ltr)).2.pendingList = [] := by
    rw [← hp]
    unfold ltrChooseFrame
    dsimp only
    split_ifs <;> rfl
  rw [ltrGetNextAction_of_choose frameId rfl hchosen, List.getLast?_concat] at hf
  cases hf
  rfl

theorem Transition.slots {s t : Session} (h : Transition s t) (hissued : t.issued = s.issued) : t.slots = s.slots := by
  cases h with
  | get frame hg =>
    rw [hg.issued] at hissued
    exact absurd (congrArg List.length hissued) (by simp)
  | ack moved ha => exact ha.toMoves.slots
  | nack f moved hn => exact hn.toMoves.slots
  | idle hi => exact hi.slots

namespace Connection

def encoded (c : Connection) : List LtrFrame := c.sent.reduceOption

def decoded (c : Connection) : List ℕ := c.delivered.map LtrFrame.frameCounter

/-- The decoder, with the frames before, predicts the frame from the same picture as the encoder. -/
def Alike (c : Connection) (before : List LtrFrame) (e : LtrFrame) : Prop :=
  ∃ a b, c.encoded = a ++ e :: b ∧ (pictures before).reference e.action = (pictures a).reference e.action

structure Follows (c : Connection) (sess : Session) : Prop where
  sound : Sound sess
  ltr : sess.ltr = c.ltr
  issued : sess.issued = c.encoded
  slots : sess.slots = (pictures c.encoded).slots
  numbered : ∀ (i : ℕ) (e : LtrFrame), c.sent[i]? = some (some e) → e.frameId = .ofNat (i + 2)
  referred : ∀ a e b, c.encoded = a ++ e :: b → e.action.frameType = .intra ∧ e.referenceFrameCounter = 0 ∨
    (pictures a).reference e.action = some e.referenceFrameCounter
  anchored : ∀ e ∈ c.encoded, e.action.frameType = .referLongTerm → e.referenceFrameCounter ∈ c.decoded
  acked : ∀ n ∈ sess.acked, n ∈ c.decoded
  played : c.played ≤ c.sent.length
  sublist : c.delivered.Sublist (c.sent.take c.played).reduceOption
  newest : c.delivered.getLast? = (c.sent.take c.played).reduceOption.getLast?
  alike : ∀ pre e post, c.delivered = pre ++ e :: post → c.Alike pre e

variable {c : Connection} {sess t : Session} {i : ℕ} {e : LtrFrame}

theorem Follows.sublist_encoded (h : c.Follows sess) : c.delivered.Sublist c.encoded :=
  h.sublist.trans ((List.take_sublist _ _).filterMap id)

theorem Follows.alike_next (h : c.Follows sess) (hi : c.sent[i]? = some (some e))
    (htakes : c.takes i (some e) = true) : c.Alike c.delivered e := by
  simp only [takes, Option.any_some, Bool.and_eq_true, Bool.or_eq_true, decide_eq_true_eq] at htakes
  have hencoded : c.encoded = (c.sent.take i).reduceOption ++ e :: (c.sent.drop (i + 1)).reduceOption := by
    rw [encoded, ← List.reduceOption_cons_of_some, ← List.reduceOption_append]
    obtain ⟨hlt,hget⟩ := List.getElem?_eq_some_iff.mp hi
    rw [← hget, List.getElem_cons_drop, List.take_append_drop]
  have hnewest : c.played = i → c.delivered.getLast? = (c.sent.take i).reduceOption.getLast? := fun hi => hi ▸ h.newest
  refine ⟨_,_,hencoded,?_⟩
  have hreferred := h.referred _ e _ hencoded
  have hanchored := h.anchored e (hencoded ▸ List.mem_append_right _ List.mem_cons_self)
  unfold Pictures.reference at hreferred ⊢
  cases htype : e.action.frameType
  case intra => rfl
  case referLongTerm =>
    rw [htype] at hreferred
    have hnodup : (c.encoded.map LtrFrame.frameCounter).Nodup := by
      rw [← h.issued, h.sound.tracking.counters]
      exact List.nodup_range'
    rw [hencoded, List.map_append] at hnodup
    have hsub : c.delivered.Sublist (c.sent.take i).reduceOption :=
      h.sublist.trans ((List.take_sublist_take_left htakes.1).filterMap id)
    have hslot := hreferred.resolve_left fun hintra => by cases hintra.1
    exact (slots_of_sublist hnodup.of_append_left hsub hslot (hanchored htype)).trans hslot.symm
  all_goals
    have hnot : ¬e.isRecoveryPoint = true := by simp [LtrFrame.isRecoveryPoint, htype]
    rw [pictures_newest, pictures_newest, hnewest (htakes.2.resolve_left hnot).1.symm]

theorem Follows.deliver (h : c.Follows sess) {x : Option LtrFrame} (hi : c.sent[i]? = some x)
    (htakes : c.takes i x = true) :
    Follows { c with played := i + 1, delivered := c.delivered ++ x.toList } sess := by
  have hdecoded : ∀ n ∈ c.decoded, n ∈ (c.delivered ++ x.toList).map LtrFrame.frameCounter := fun n hn => by
    rw [List.map_append]
    exact List.mem_append_left _ hn
  have htake : (c.sent.take (i + 1)).reduceOption = (c.sent.take i).reduceOption ++ x.toList := by
    rw [List.take_add_one, hi, List.reduceOption_append]
    exact congrArg _ (List.reduceOption_singleton x)
  have hle : c.played ≤ i ∧ (x = none → i = c.played) := by
    simp only [takes, Bool.and_eq_true, Bool.or_eq_true, decide_eq_true_eq] at htakes
    exact ⟨htakes.1,fun hx => (htakes.2.resolve_left (by simp [hx])).1⟩
  refine ⟨h.sound,h.ltr,h.issued,h.slots,h.numbered,h.referred,fun e he htype => hdecoded _ (h.anchored e he htype),
    fun n hn => hdecoded n (h.acked n hn),(List.getElem?_eq_some_iff.mp hi).1,?_,?_,?_⟩
  · change (c.delivered ++ x.toList).Sublist (c.sent.take (i + 1)).reduceOption
    rw [htake]
    exact (h.sublist.trans ((List.take_sublist_take_left hle.1).filterMap id)).append (List.Sublist.refl _)
  · change (c.delivered ++ x.toList).getLast? = (c.sent.take (i + 1)).reduceOption.getLast?
    rw [htake]
    cases x with
    | none =>
      rw [Option.toList_none, List.append_nil, List.append_nil, hle.2 rfl]
      exact h.newest
    | some e => rw [Option.toList_some, List.getLast?_concat, List.getLast?_concat]
  · intro pre e post hsplit
    cases x with
    | none => exact h.alike pre e post ((List.append_nil _).symm.trans hsplit)
    | some e' =>
      rcases List.eq_nil_or_concat post with rfl | ⟨post,last,rfl⟩
      · obtain ⟨rfl,hlast⟩ := List.append_inj' hsplit rfl
        cases hlast
        exact h.alike_next hi htakes
      · rw [List.concat_eq_append, ← List.cons_append, ← List.append_assoc] at hsplit
        exact h.alike pre e post (List.append_inj' hsplit rfl).1

theorem Follows.call (h : c.Follows sess) (ht : Transition sess t) (hissued : t.issued = sess.issued)
    (hacked : ∀ n ∈ t.acked, n ∈ c.decoded) : Follows { c with ltr := t.ltr } t :=
  { h with
    sound := ht.sound h.sound, ltr := rfl, issued := hissued.trans h.issued
    slots := (ht.slots hissued).trans h.slots, acked := hacked }

/-- The loop goes on to the next ID and sends a frame, which is empty if `x` is none. -/
theorem Follows.send (h : c.Follows sess) (x : Option LtrFrame) (hsound : Sound t)
    (hissued : t.issued = sess.issued ++ x.toList) (hslots : t.slots = (pictures (c.encoded ++ x.toList)).slots)
    (hacked : ∀ n ∈ t.acked, n ∈ sess.acked) (hx : ∀ e, x = some e → e.frameId = .ofNat (c.sent.length + 2) ∧
      (e.action.frameType = .intra ∧ e.referenceFrameCounter = 0 ∨
        (pictures c.encoded).reference e.action = some e.referenceFrameCounter) ∧
      (e.action.frameType = .referLongTerm → e.referenceFrameCounter ∈ c.decoded)) :
    Follows { c with ltr := t.ltr, sent := c.sent ++ [x] } t := by
  have hsent : encoded { c with ltr := t.ltr, sent := c.sent ++ [x] } = c.encoded ++ x.toList := by
    rw [encoded, encoded, List.reduceOption_append, List.reduceOption_singleton]
  have htake : (c.sent ++ [x]).take c.played = c.sent.take c.played := List.take_append_of_le_length h.played
  refine ⟨hsound,rfl,by rw [hissued, h.issued, hsent],by rw [hslots, hsent],?_,?_,?_,
    fun n hn => h.acked n (hacked n hn),?_,by rw [htake]; exact h.sublist,by rw [htake]; exact h.newest,?_⟩
  · intro i e hi
    rcases Nat.lt_or_ge i c.sent.length with hlt | hge
    · exact h.numbered i e ((List.getElem?_append_left hlt).symm.trans hi)
    · obtain ⟨hi',hget⟩ := List.getElem?_eq_some_iff.mp hi
      obtain rfl : i = c.sent.length := by
        rw [List.length_append, List.length_singleton] at hi'
        omega
      exact (hx e (Option.some.inj (List.getElem?_concat_length.symm.trans hi))).1
  · intro a e b hsplit
    rw [hsent] at hsplit
    cases x with
    | none => exact h.referred a e b ((List.append_nil _).symm.trans hsplit)
    | some e' =>
      rcases List.eq_nil_or_concat b with rfl | ⟨b,last,rfl⟩
      · obtain ⟨rfl,hlast⟩ := List.append_inj' hsplit rfl
        cases hlast
        exact (hx e rfl).2.1
      · rw [List.concat_eq_append, ← List.cons_append, ← List.append_assoc] at hsplit
        exact h.referred a e b (List.append_inj' hsplit rfl).1
  · intro e he htype
    rw [hsent, List.mem_append, Option.mem_toList] at he
    exact he.elim (fun he => h.anchored e he htype) fun he => (hx e he).2.2 htype
  · exact h.played.trans (List.sublist_append_left _ _).length_le
  · intro pre e post hsplit
    obtain ⟨a,b,hencoded,halike⟩ := h.alike pre e post hsplit
    exact ⟨a,b ++ x.toList,by rw [hsent, hencoded, List.append_assoc]; rfl,halike⟩

theorem Follows.newest_counter (h : c.Follows sess) (hpos : 0 < sess.ltr.frameCounter) :
    (pictures c.encoded).newest = some sess.ltr.frameCounter := by
  rw [pictures_newest, ← h.issued, ← List.getLast?_map, h.sound.tracking.counters, List.getLast?_range',
    if_neg hpos.ne', Nat.add_sub_cancel_left]

theorem Follows.sendFrame (h : c.Follows sess) : ∃ c' t, c.step .sendFrame = .ok c' ∧ Follows c' t := by
  obtain ⟨t,e,ht,-,hg,hlast⟩ := h.sound.tracking.next (.ofNat (c.sent.length + 2))
  rw [h.ltr] at ht
  have hid : e.frameId = .ofNat (c.sent.length + 2) :=
    ltrGetNextAction_frameId (h.ltr ▸ h.sound.tracking.pending) _ (ht ▸ hlast)
  have hslots : t.slots = (pictures (c.encoded ++ [e])).slots := by
    rw [hg.slots, h.slots, pictures_concat]
    rfl
  have hnewest := h.newest_counter
  have hsend := h.send (some e) ((Transition.get e hg).sound h.sound) hg.issued hslots (fun n => (hg.acked n).mp)
    fun e' he' => by
      obtain rfl := Option.some.inj he'
      refine ⟨hid,?_⟩
      rcases hg.issues with hi | hi | hi | hi
      · exact ⟨.inl ⟨by rw [hi.type],hi.reference⟩,fun hrefer => by rw [hi.type] at hrefer; cases hrefer⟩
      · have hslot := (h.sound.slots.good hi.wasGood).1
        rw [h.slots] at hslot
        rw [hi.type, hi.reference]
        exact ⟨.inr hslot,fun _ => h.acked _ (h.sound.tracking.goodAcked hi.wasGood)⟩
      · rw [hi.type, hi.reference]
        exact ⟨.inr (hnewest hi.started),fun hrefer => by cases hrefer⟩
      · rw [hi.type, hi.reference]
        exact ⟨.inr (hnewest hi.started),fun hrefer => by cases hrefer⟩
  refine ⟨_,t,?_,hsend⟩
  rw [step, ← ht, hlast]

/-- What a delivered frame depends on was delivered. -/
theorem Follows.closed (h : c.Follows sess) {z : LtrFrame} (hdep : Dependent sess.issued z e)
    (hz : z ∈ sess.issued) (he : e.frameCounter ∈ c.decoded) : z.frameCounter ∈ c.decoded := by
  induction hdep using Relation.ReflTransGen.head_induction_on with
  | refl => exact he
  | head hxy _ ih =>
    rename_i x y
    obtain ⟨hy,hreference⟩ := hxy
    obtain ⟨y',hmem,hcounter⟩ := List.mem_map.mp (ih hy)
    obtain rfl := h.sound.tracking.eq_of_counter (h.issued ▸ h.sublist_encoded.subset hmem) hy hcounter
    obtain ⟨pre,post,hdelivered⟩ := List.append_of_mem hmem
    obtain ⟨a,b,hencoded,halike⟩ := h.alike pre y' post hdelivered
    rcases h.referred a y' b hencoded with ⟨-,hzero⟩ | hreferred
    · have := (h.sound.tracking.counter_bounds hz).1
      omega
    · have hx := mem_of_reference (halike.trans hreferred)
      rw [hreference] at hx
      rw [decoded, hdelivered, List.map_append]
      exact List.mem_append_left _ hx

/-- Two frames with one ID are one. -/
theorem Follows.eq_of_frameId (h : c.Follows sess) (hid : c.sent.length + 1 < 2 ^ 31) {f : LtrFrame}
    (he : e ∈ c.encoded) (hf : f ∈ c.encoded) (hsame : e.frameId = f.frameId) : e = f := by
  obtain ⟨i,hi⟩ := List.mem_iff_getElem?.mp (List.reduceOption_mem_iff.mp he)
  obtain ⟨j,hj⟩ := List.mem_iff_getElem?.mp (List.reduceOption_mem_iff.mp hf)
  have hlti := (List.getElem?_eq_some_iff.mp hi).1
  have hltj := (List.getElem?_eq_some_iff.mp hj).1
  have hsize : UInt32.size = 2 ^ 32 := rfl
  have hids := congrArg UInt32.toNat hsame
  rw [h.numbered i e hi, h.numbered j f hj, UInt32.toNat_ofNat_of_lt' (by omega),
    UInt32.toNat_ofNat_of_lt' (by omega)] at hids
  obtain rfl := Nat.add_right_cancel hids
  exact Option.some.inj (Option.some.inj (hi.symm.trans hj))

theorem Follows.frameAck (h : c.Follows sess) (hid : c.sent.length + 1 < 2 ^ 31) (he : e ∈ c.delivered)
    {r : ℤ × LtrState} (hr : ltrMarkFrameReceived c.ltr e.frameId = .ok r) : ∃ t, Follows { c with ltr := r.2 } t := by
  rw [← h.ltr] at hr
  obtain ⟨t,ht,htransition,hissued,-,hacked⟩ := h.sound.tracking.received hr
  refine ⟨t,ht ▸ h.call htransition hissued fun n hn => ?_⟩
  rcases hacked n hn with hn | ⟨f,z,hfind,hz,hdep,rfl⟩
  · exact h.acked n hn
  · have hsame : f.frameId = e.frameId := by simpa using List.find?_some hfind
    have hf : f ∈ c.encoded := h.issued ▸ h.sound.tracking.inflight.subset (ltrFindFrameById_mem hfind)
    obtain rfl := h.eq_of_frameId hid hf (h.sublist_encoded.subset he) hsame
    exact h.closed hdep hz (List.mem_map_of_mem he)

theorem step_follows (m : Move) {c' : Connection} (h : c.sent.length + 1 < 2 ^ 31 → ∃ sess, c.Follows sess)
    (hstep : c.step m = .ok c') (hid : c'.sent.length + 1 < 2 ^ 31) : ∃ sess, c'.Follows sess := by
  cases m with
  | sendEmptyFrame =>
    cases hstep
    rw [List.length_append] at hid
    obtain ⟨sess,h⟩ := h (Nat.lt_of_succ_lt hid)
    have hsend := h.send none h.sound (List.append_nil _).symm (by rw [h.slots]; exact congrArg _ (by simp))
      (fun _ hn => hn) fun e he => by cases he
    rw [h.ltr] at hsend
    exact ⟨sess,hsend⟩
  | sendFrame =>
    have hlt : c.sent.length + 1 < 2 ^ 31 := by
      cases hstep
      rw [List.length_append] at hid
      exact Nat.lt_of_succ_lt hid
    obtain ⟨sess,h⟩ := h hlt
    obtain ⟨c'',t,hstep',hfollows⟩ := h.sendFrame
    obtain rfl := Except.ok.inj (hstep.symm.trans hstep')
    exact ⟨t,hfollows⟩
  | frameAck i =>
    unfold step at hstep
    dsimp only at hstep
    split at hstep
    · rename_i e hdelivered
      obtain ⟨r,hr,rfl⟩ := Run.map_eq_ok hstep
      obtain ⟨sess,h⟩ := h hid
      exact h.frameAck hid (List.mem_of_getElem? hdelivered) hr
    · cases hstep
      exact h hid
  | streamBroken =>
    obtain ⟨ltr,hr,rfl⟩ := Run.map_eq_ok hstep
    obtain ⟨sess,h⟩ := h hid
    obtain ⟨t,rfl,ht,hissued,-,-,hacked⟩ := h.sound.tracking.broken (h.ltr ▸ hr)
    exact ⟨t,h.call ht hissued fun n hn => h.acked n (hacked n hn)⟩
  | forceIntra =>
    cases hstep
    obtain ⟨sess,h⟩ := h hid
    obtain ⟨t,ht,htransition,hissued,hacked⟩ := h.sound.tracking.forced
    rw [h.ltr] at ht
    exact ⟨t,ht ▸ h.call htransition hissued fun n hn => h.acked n (hacked n hn)⟩
  | getPacket i =>
    unfold step at hstep
    dsimp only at hstep
    split at hstep
    · rename_i x hi
      cases hstep
      split_ifs at hid ⊢ with htakes
      · obtain ⟨sess,h⟩ := h hid
        exact ⟨sess,h.deliver hi htakes⟩
      · exact h hid
    · cases hstep
      exact h hid

/-- Whatever the network loses and whenever acks and requests reach the loop, the decoder predicts every frame
from the picture that the encoder has predicted it from, the one that the reference logic meant. -/
theorem delivered_alike (moves : List Move) (hrun : Run.run step {} moves = .ok c)
    (hid : c.sent.length + 1 < 2 ^ 31) {pre post : List LtrFrame} (hdelivered : c.delivered = pre ++ e :: post) :
    c.Alike pre e ∧ (e.action.frameType ≠ .intra →
      (pictures pre).reference e.action = some e.referenceFrameCounter) := by
  have hstart : Follows {} {} := by
    refine ⟨sound_start,rfl,rfl,rfl,?_,?_,?_,?_,le_rfl,List.Sublist.refl _,rfl,?_⟩
    · exact fun i e hi => absurd hi (by simp)
    · exact fun a e b hsplit => absurd hsplit (by simp [encoded])
    · exact fun e he => (List.not_mem_nil he).elim
    · exact fun n hn => (List.not_mem_nil hn).elim
    · exact fun pre e post hsplit => absurd hsplit (by simp)
  obtain ⟨sess,h⟩ := Run.run_invariant (fun c m c' h _ hstep => step_follows m h hstep) (fun _ _ => trivial)
    (fun _ => ⟨_,hstart⟩) hrun hid
  have halike := h.alike pre e post hdelivered
  refine ⟨halike,fun htype => ?_⟩
  obtain ⟨a,b,hencoded,hreference⟩ := halike
  exact hreference.trans ((h.referred a e b hencoded).resolve_left fun hintra => htype hintra.1)

/-- A frame is lost behind two that were acked. -/
def lossyMoves : List Move :=
  [.sendFrame,.getPacket 0,.frameAck 0,.sendFrame,.getPacket 1,.sendEmptyFrame,.getPacket 2,.frameAck 1,.sendFrame,
    .sendFrame,.streamBroken,.sendFrame,.getPacket 5]

theorem delivered_alike_lossy : ∃ c e, Run.run step {} lossyMoves = .ok c ∧ c.delivered.getLast? = some e ∧
    c.Alike c.delivered.dropLast e ∧ (pictures c.delivered.dropLast).reference e.action = some 2 := by
  obtain ⟨c,hrun,hid,e,hlast,htype,href⟩ : ∃ c, Run.run step {} lossyMoves = .ok c ∧ c.sent.length + 1 < 2 ^ 31 ∧
      ∃ e, c.delivered.getLast? = some e ∧ e.action.frameType ≠ .intra ∧ e.referenceFrameCounter = 2 :=
    ⟨_,rfl,by decide,_,rfl,by decide,rfl⟩
  have hsplit : c.delivered = c.delivered.dropLast ++ e :: [] := (List.dropLast_append_getLast? e hlast).symm
  obtain ⟨halike,hreference⟩ := delivered_alike lossyMoves hrun hid hsplit
  exact ⟨c,e,hrun,hlast,halike,(hreference htype).trans (congrArg some href)⟩

end Connection

end Whist.Ltr
