import Mathlib.Tactic

/-! # Falling back to another decoder type

`video_decoder_send_packets` hands the packets of a frame to the decoder.  At the start
of a stream a failure makes it set up the next decoder type, the software decoder being
the last, and hand over the whole frame again.
-/
namespace Whist.Codec

inductive DecoderEvent where
  | sendPacket (decodeType packet : ℕ) (ok : Bool)
  | setup (decodeType : ℕ) (ok : Bool)
deriving DecidableEq

/-- A call of `video_decoder_send_packets` with the answers it gets: `accepts n i` for the
packet `i` in the pass `n` over the packets, `creates n` for the `n`-th decoder set up. -/
structure SendCall where
  softwareDecodeType : ℕ
  hardwareDecode : Bool
  startOfStream : Bool
  numPackets : ℕ
  accepts : ℕ → ℕ → Bool
  creates : ℕ → Bool

/-- The decoder during the call, with the passes and the setups made so far. -/
structure VideoDecoder where
  decodeType : ℕ
  receivedAFrame : Bool
  passes : ℕ
  setups : ℕ
  log : List DecoderEvent
deriving DecidableEq

def VideoDecoder.atCall (decodeType : ℕ) (receivedAFrame : Bool) : VideoDecoder :=
  ⟨decodeType,receivedAFrame,0,0,[]⟩

inductive SendResult where
  | aborted
  | returned (res : ℤ)
deriving DecidableEq

variable (c : SendCall)

def trySetupVideoDecoder (d : VideoDecoder) : Bool × VideoDecoder :=
  let decodeType := if c.hardwareDecode then d.decodeType else c.softwareDecodeType
  let ok := c.creates d.setups
  (ok,{ d with
    decodeType := decodeType
    setups := d.setups + 1
    log := d.log ++ [.setup decodeType ok] })

def tryTypes : ℕ → VideoDecoder → Bool × VideoDecoder
  | 0, d => (false,d)
  | n + 1, d =>
    let r := trySetupVideoDecoder c d
    if r.1 then r else tryTypes n { r.2 with decodeType := r.2.decodeType + 1 }

def tryNextDecoder (d : VideoDecoder) : Bool × VideoDecoder :=
  if c.hardwareDecode then
    tryTypes c (c.softwareDecodeType + 1 - d.decodeType) d
  else
    trySetupVideoDecoder c { d with decodeType := c.softwareDecodeType }

/-- The inner loop after a failure at the start of a stream. -/
def fallback : ℕ → VideoDecoder → VideoDecoder
  | 0, d => d
  | n + 1, d =>
    if d.decodeType < c.softwareDecodeType then
      let r := tryNextDecoder c { d with decodeType := d.decodeType + 1 }
      if r.1 then r.2 else fallback n r.2
    else d

def sendLoop : Bool → List ℕ → VideoDecoder → Bool × VideoDecoder
  | res, [], d => (res,d)
  | _, i :: is, d =>
    let ok := c.accepts d.passes i
    let d := { d with log := d.log ++ [.sendPacket d.decodeType i ok] }
    if ok then sendLoop true is d else (false,d)

def sendPass (d : VideoDecoder) : Option ℤ × VideoDecoder :=
  let r := sendLoop c false (List.range c.numPackets) d
  let d := { r.2 with passes := r.2.passes + 1 }
  if r.1 then (some 0,{ d with receivedAFrame := true })
  else if c.startOfStream then (none,fallback c (c.softwareDecodeType - d.decodeType) d)
  else (some (-1),d)

def videoDecoderSendPackets : ℕ → VideoDecoder → Option (SendResult × VideoDecoder)
  | 0, _ => none
  | fuel + 1, d =>
    if c.numPackets = 0 then some (.aborted,d)
    else
      match sendPass c d with
      | (some res,d) => some (.returned res,d)
      | (none,d) => videoDecoderSendPackets fuel d

def nextTypes (decodeType : ℕ) : List ℕ :=
  if c.hardwareDecode then List.range' (decodeType + 1) (c.softwareDecodeType - decodeType)
  else if decodeType < c.softwareDecodeType then [c.softwareDecodeType]
  else []

def setupTypes (log : List DecoderEvent) : List ℕ :=
  log.filterMap fun e => match e with
    | .setup decodeType _ => some decodeType
    | .sendPacket .. => none

def frameTypes (log : List DecoderEvent) : List ℕ :=
  log.filterMap fun e => match e with
    | .sendPacket decodeType 0 _ => some decodeType
    | _ => none

def LastFailed : DecoderEvent → Prop
  | .sendPacket decodeType _ ok => c.softwareDecodeType ≤ decodeType ∧ ok = false
  | .setup decodeType ok => c.softwareDecodeType ≤ decodeType ∧ ok = false

def sentPackets (decodeType k : ℕ) : List DecoderEvent :=
  (List.range k).map fun i => .sendPacket decodeType i true

/-- The fallback as it should be, for a call that started with the decoder `decodeType`. -/
structure FallsBack (decodeType : ℕ) (res : ℤ) (d : VideoDecoder) : Prop where
  order : setupTypes d.log <+: nextTypes c decodeType
  once : (frameTypes d.log).Pairwise (· < ·)
  accepted : res = 0 → ∃ pre, d.log = pre ++ sentPackets d.decodeType c.numPackets
  lastFailed : (∃ e ∈ d.log, LastFailed c e) → res = -1

def acceptsFrame (pass : ℕ) : Bool := (List.range c.numPackets).all (c.accepts pass)

/-- One of the types left can be set up and accepts every packet. -/
def laterAccepts : ℕ → ℕ → List ℕ → Bool
  | _, _, [] => false
  | pass, setup, _ :: ts =>
    if c.creates setup then acceptsFrame c pass || laterAccepts (pass + 1) (setup + 1) ts
    else laterAccepts pass (setup + 1) ts

def failedSetups (ts : List ℕ) : List DecoderEvent := ts.map fun t => .setup t false

/-- What trying the types `ts` in their order comes to. -/
inductive Tried (d : VideoDecoder) (ts : List ℕ) (r : Bool × VideoDecoder) : Prop
  | exhausted (failed : ∀ j < ts.length, c.creates (d.setups + j) = false) (res : r.1 = false)
      (decodeType : c.softwareDecodeType ≤ r.2.decodeType)
      (log : r.2.log = d.log ++ failedSetups ts)
  | created (pre : List ℕ) (t : ℕ) (post : List ℕ) (types : ts = pre ++ t :: post)
      (failed : ∀ j < pre.length, c.creates (d.setups + j) = false)
      (ok : c.creates (d.setups + pre.length) = true)
      (res : r = (true,{ d with
        decodeType := t
        setups := d.setups + pre.length + 1
        log := d.log ++ failedSetups pre ++ [.setup t true] }))

variable {c} {d : VideoDecoder}

theorem tryTypes_cases (hardware : c.hardwareDecode = true) (n : ℕ)
    (hn : c.softwareDecodeType < d.decodeType + n) :
    Tried c d (List.range' d.decodeType n) (tryTypes c n d) := by
  induction n generalizing d with
  | zero =>
    refine .exhausted ?_ rfl (by simpa [tryTypes] using hn.le) ?_ <;> simp [tryTypes, failedSetups]
  | succ n ih =>
    rw [tryTypes, List.range'_succ]
    cases hc : c.creates d.setups with
    | true =>
      refine .created [] d.decodeType _ rfl (by simp) (by simpa using hc) ?_
      simp [trySetupVideoDecoder, hardware, hc, failedSetups]
    | false =>
      have hd := ih (d := { d with
        decodeType := d.decodeType + 1
        setups := d.setups + 1
        log := d.log ++ [.setup d.decodeType false] }) (by simp; omega)
      have hr : ∀ j, (∀ i < j, c.creates (d.setups + 1 + i) = false) →
          ∀ i < j + 1, c.creates (d.setups + i) = false := by
        intro j hj i hi
        cases i with
        | zero => exact hc
        | succ i => rw [← hj i (by omega), Nat.add_right_comm, Nat.add_assoc]
      simp only [trySetupVideoDecoder, hardware, hc, if_true, Bool.false_eq_true, if_false]
      cases hd with
      | exhausted failed res decodeType log =>
        refine .exhausted ?_ res decodeType ?_
        · simpa using hr n (by simpa using failed)
        · simpa [failedSetups] using log
      | created pre t post types failed ok res =>
        refine .created (d.decodeType :: pre) t post (by simpa using types) ?_ ?_ ?_
        · simpa using hr pre.length failed
        · simpa [Nat.add_assoc, Nat.add_comm 1] using ok
        · rw [res]
          simp [failedSetups]
          omega

theorem Tried.congr {ts : List ℕ} {r : Bool × VideoDecoder} {t : ℕ}
    (h : Tried c { d with decodeType := t } ts r) : Tried c d ts r := by
  cases h with
  | exhausted failed res decodeType log => exact .exhausted failed res decodeType log
  | created pre t post types failed ok res => exact .created pre t post types failed ok res

theorem tryNextDecoder_cases (h : d.decodeType < c.softwareDecodeType) :
    Tried c d (nextTypes c d.decodeType)
      (tryNextDecoder c { d with decodeType := d.decodeType + 1 }) := by
  unfold tryNextDecoder nextTypes
  cases hw : c.hardwareDecode with
  | true =>
    apply Tried.congr (t := d.decodeType + 1)
    have := tryTypes_cases (d := { d with decodeType := d.decodeType + 1 }) hw
      (c.softwareDecodeType - d.decodeType) (by simp; omega)
    simpa [Nat.add_sub_add_right] using this
  | false =>
    simp only [Bool.false_eq_true, if_false, h, if_true]
    cases hc : c.creates d.setups with
    | true =>
      refine .created [] c.softwareDecodeType [] rfl (by simp) (by simpa using hc) ?_
      simp [trySetupVideoDecoder, hw, hc, failedSetups]
    | false =>
      refine .exhausted (by simpa using hc) ?_ ?_ ?_ <;>
        simp [trySetupVideoDecoder, hw, hc, failedSetups]

theorem fallback_cases (h : d.decodeType < c.softwareDecodeType) :
    ∃ ok, Tried c d (nextTypes c d.decodeType)
      (ok,fallback c (c.softwareDecodeType - d.decodeType) d) := by
  obtain ⟨n,hn⟩ := Nat.exists_eq_add_of_lt h
  have hn : c.softwareDecodeType - d.decodeType = n + 1 := by omega
  have ht := tryNextDecoder_cases h
  rw [hn, fallback, if_pos h]
  generalize tryNextDecoder c { d with decodeType := d.decodeType + 1 } = r at ht
  cases ht with
  | exhausted failed res decodeType log =>
    have hstop : fallback c n r.2 = r.2 := by
      cases n with
      | zero => rfl
      | succ n => rw [fallback, if_neg (by omega)]
    refine ⟨false,.exhausted failed rfl ?_ ?_⟩ <;> simpa [res, hstop]
  | created pre t post types failed ok res =>
    refine ⟨true,.created pre t post types failed ok ?_⟩
    simp [res]

theorem fallback_of_le (h : c.softwareDecodeType ≤ d.decodeType) (n : ℕ) : fallback c n d = d := by
  cases n with
  | zero => rfl
  | succ n => rw [fallback, if_neg (by omega)]

theorem nextTypes_split {a t : ℕ} {pre post : List ℕ} (h : nextTypes c a = pre ++ t :: post) :
    nextTypes c t = post ∧ a < t ∧ ∀ u ∈ pre, u < c.softwareDecodeType := by
  unfold nextTypes at h ⊢
  cases hw : c.hardwareDecode with
  | true =>
    simp only [hw, if_true] at h ⊢
    have hlen := congrArg List.length h
    simp only [List.length_range', List.length_append, List.length_cons] at hlen
    have hsplit : List.range' (a + 1) (c.softwareDecodeType - a) =
        List.range' (a + 1) pre.length ++ List.range' (a + 1 + pre.length) (post.length + 1) := by
      rw [List.range'_append_1, hlen]
    rw [hsplit, List.range'_succ] at h
    obtain ⟨hpre,h⟩ := List.append_inj h (by simp)
    obtain ⟨rfl,hpost⟩ := List.cons.inj h
    refine ⟨by rw [← hpost]; congr 1; omega,by omega,?_⟩
    intro u hu
    rw [← hpre, List.mem_range'_1] at hu
    omega
  | false =>
    simp only [hw, Bool.false_eq_true, if_false] at h ⊢
    split_ifs at h with ha
    · obtain ⟨rfl,ht,hpost⟩ : pre = [] ∧ t = c.softwareDecodeType ∧ post = [] := by
        cases pre <;> simp_all
      exact ⟨by simp [ht, hpost],by rwa [ht],by simp⟩
    · simp at h

theorem last_nextTypes {a : ℕ} (h : a < c.softwareDecodeType) :
    c.softwareDecodeType ∈ nextTypes c a := by
  unfold nextTypes
  cases c.hardwareDecode with
  | true => simp; omega
  | false => simp [h]

theorem nextTypes_of_le {a : ℕ} (h : c.softwareDecodeType ≤ a) : nextTypes c a = [] := by
  unfold nextTypes
  simp [Nat.sub_eq_zero_of_le h, Nat.not_lt.mpr h]

theorem sendLoop_cases (res : Bool) (j m : ℕ) :
    (∀ i, j ≤ i → i < j + m → c.accepts d.passes i = true) ∧
      sendLoop c res (List.range' j m) d = (if m = 0 then res else true,{ d with
        log := d.log ++ (List.range' j m).map fun i => .sendPacket d.decodeType i true }) ∨
    ∃ k < m, c.accepts d.passes (j + k) = false ∧
      sendLoop c res (List.range' j m) d = (false,{ d with
        log := d.log ++ ((List.range' j k).map fun i => .sendPacket d.decodeType i true) ++
          [.sendPacket d.decodeType (j + k) false] }) := by
  induction m generalizing j res d with
  | zero => exact .inl ⟨fun i hj hi => by omega,by simp [sendLoop]⟩
  | succ m ih =>
    rw [List.range'_succ, sendLoop]
    cases ha : c.accepts d.passes j with
    | false => exact .inr ⟨0,by omega,by simpa using ha,by simp⟩
    | true =>
      rcases ih (d := { d with log := d.log ++ [.sendPacket d.decodeType j true] }) true (j + 1) with
        ⟨hall,hr⟩ | ⟨k,hk,hno,hr⟩
      · refine .inl ⟨?_,by simp [hr]⟩
        intro i hj hi
        rcases hj.eq_or_lt with rfl | hj
        · exact ha
        · exact hall i hj (by omega)
      · refine .inr ⟨k + 1,by omega,by rwa [← Nat.add_assoc, Nat.add_right_comm],?_⟩
        simp only [if_true, hr, List.range'_succ, List.map_cons, List.append_assoc]
        simp [Nat.add_assoc, Nat.add_comm 1]

/-- The decoder after the packet `k` was refused. -/
def VideoDecoder.refuse (d : VideoDecoder) (k : ℕ) : VideoDecoder :=
  { d with
    passes := d.passes + 1
    log := d.log ++ sentPackets d.decodeType k ++ [.sendPacket d.decodeType k false] }

inductive Passed (d : VideoDecoder) (r : Option ℤ × VideoDecoder) : Prop
  | accepted (yes : acceptsFrame c d.passes = true) (res : r = (some 0,{ d with
      receivedAFrame := true
      passes := d.passes + 1
      log := d.log ++ sentPackets d.decodeType c.numPackets }))
  | refused (k : ℕ) (no : acceptsFrame c d.passes = false) (start : c.startOfStream = false)
      (res : r = (some (-1),d.refuse k))
  | again (k : ℕ) (no : acceptsFrame c d.passes = false) (start : c.startOfStream = true)
      (res : r = (none,fallback c (c.softwareDecodeType - d.decodeType) (d.refuse k)))

theorem sendPass_cases (h : 0 < c.numPackets) : Passed (c := c) d (sendPass c d) := by
  unfold sendPass
  rw [List.range_eq_range']
  rcases sendLoop_cases (c := c) (d := d) false 0 c.numPackets with ⟨hall,hr⟩ | ⟨k,hk,hno,hr⟩
  · refine .accepted ?_ ?_
    · simpa [acceptsFrame] using hall
    · simp [hr, h.ne', sentPackets, List.range_eq_range']
  · have hno : acceptsFrame c d.passes = false := by
      simp only [acceptsFrame, List.all_eq_false, List.mem_range]
      exact ⟨k,hk,by simpa using hno⟩
    cases hs : c.startOfStream with
    | false =>
      refine .refused k hno hs ?_
      simp [hr, VideoDecoder.refuse, sentPackets, List.range_eq_range']
    | true =>
      refine .again k hno hs ?_
      simp [hr, VideoDecoder.refuse, sentPackets, List.range_eq_range']

@[simp] theorem setupTypes_append (l l' : List DecoderEvent) :
    setupTypes (l ++ l') = setupTypes l ++ setupTypes l' := List.filterMap_append

@[simp] theorem frameTypes_append (l l' : List DecoderEvent) :
    frameTypes (l ++ l') = frameTypes l ++ frameTypes l' := List.filterMap_append

@[simp] theorem setupTypes_setup (t : ℕ) (ok : Bool) : setupTypes [.setup t ok] = [t] := rfl

@[simp] theorem setupTypes_sendPacket (t i : ℕ) (ok : Bool) : setupTypes [.sendPacket t i ok] = [] := rfl

@[simp] theorem frameTypes_setup (t : ℕ) (ok : Bool) : frameTypes [.setup t ok] = [] := rfl

@[simp] theorem setupTypes_failedSetups (ts : List ℕ) : setupTypes (failedSetups ts) = ts := by
  induction ts with
  | nil => rfl
  | cons t ts ih => exact congrArg (t :: ·) ih

@[simp] theorem frameTypes_failedSetups (ts : List ℕ) : frameTypes (failedSetups ts) = [] := by
  induction ts with
  | nil => rfl
  | cons t ts ih => exact ih

@[simp] theorem setupTypes_sentPackets (t k : ℕ) : setupTypes (sentPackets t k) = [] := by
  simp [setupTypes, sentPackets]

theorem frameTypes_sentPackets (t k : ℕ) :
    frameTypes (sentPackets t k) = if k = 0 then [] else [t] := by
  induction k with
  | zero => rfl
  | succ k ih =>
    rw [sentPackets, List.range_succ, List.map_append, frameTypes_append, ← sentPackets, ih]
    cases k <;> rfl

theorem frameTypes_refused (t k : ℕ) :
    frameTypes (sentPackets t k ++ [.sendPacket t k false]) = [t] := by
  rw [frameTypes_append, frameTypes_sentPackets]
  cases k <;> rfl

theorem not_lastFailed_sentPackets {t k : ℕ} {e : DecoderEvent} (h : e ∈ sentPackets t k) :
    ¬LastFailed c e := by
  simp only [sentPackets, List.mem_map] at h
  obtain ⟨i,-,rfl⟩ := h
  simp [LastFailed]

theorem laterAccepts_exhausted {pass setup : ℕ} {ts : List ℕ}
    (h : ∀ j < ts.length, c.creates (setup + j) = false) : laterAccepts c pass setup ts = false := by
  induction ts generalizing setup with
  | nil => rfl
  | cons t ts ih =>
    rw [laterAccepts, if_neg (by simpa using h 0 (by simp))]
    apply ih
    intro j hj
    rw [Nat.add_assoc, Nat.add_comm 1]
    exact h (j + 1) (by simpa using hj)

theorem laterAccepts_created {pass setup t : ℕ} {pre post : List ℕ}
    (h : ∀ j < pre.length, c.creates (setup + j) = false)
    (hc : c.creates (setup + pre.length) = true) :
    laterAccepts c pass setup (pre ++ t :: post) =
      (acceptsFrame c pass || laterAccepts c (pass + 1) (setup + pre.length + 1) post) := by
  induction pre generalizing setup with
  | nil =>
    rw [List.nil_append, laterAccepts, if_pos (by simpa using hc)]
    simp
  | cons u pre ih =>
    rw [List.cons_append, laterAccepts, if_neg (by simpa using h 0 (by simp)), ih]
    · simp [Nat.add_assoc, Nat.add_comm 1]
    · intro j hj
      rw [Nat.add_assoc, Nat.add_comm 1]
      exact h (j + 1) (by simpa using hj)
    · simpa [Nat.add_assoc, Nat.add_comm 1] using hc

variable (c) in
def someAccepts (d : VideoDecoder) : Bool :=
  acceptsFrame c d.passes || laterAccepts c (d.passes + 1) d.setups (nextTypes c d.decodeType)

def VideoDecoder.fallBack (d : VideoDecoder) (pre : List ℕ) (t : ℕ) : VideoDecoder :=
  { d with
    decodeType := t
    setups := d.setups + pre.length + 1
    log := d.log ++ failedSetups pre ++ [.setup t true] }

inductive FellBack (d : VideoDecoder) : VideoDecoder → Prop
  | stuck {d' : VideoDecoder} (rest : laterAccepts c (d.passes + 1) d.setups (nextTypes c d.decodeType) = false)
      (log : ∃ l, d'.log = d.log ++ l ∧ ∃ e ∈ l, LastFailed c e) : FellBack d d'
  | created (k : ℕ) (pre : List ℕ) (t : ℕ) (post : List ℕ)
      (types : nextTypes c d.decodeType = pre ++ t :: post)
      (rest : laterAccepts c (d.passes + 1) d.setups (nextTypes c d.decodeType) =
        someAccepts c ((d.refuse k).fallBack pre t)) (below : d.decodeType < c.softwareDecodeType) :
      FellBack d ((d.refuse k).fallBack pre t)

theorem fallback_refuse (k : ℕ) :
    FellBack (c := c) d (fallback c (c.softwareDecodeType - d.decodeType) (d.refuse k)) := by
  by_cases h : d.decodeType < c.softwareDecodeType
  · obtain ⟨ok,ht⟩ := fallback_cases (d := d.refuse k) h
    change Tried c (d.refuse k) (nextTypes c d.decodeType)
      (ok,fallback c (c.softwareDecodeType - d.decodeType) (d.refuse k)) at ht
    cases ht with
    | exhausted failed res decodeType log =>
      refine .stuck (laterAccepts_exhausted failed)
        ⟨sentPackets d.decodeType k ++ [.sendPacket d.decodeType k false] ++
          failedSetups (nextTypes c d.decodeType),?_,?_⟩
      · simpa [VideoDecoder.refuse] using log
      · refine ⟨.setup c.softwareDecodeType false,?_,by simp [LastFailed]⟩
        simp [failedSetups, last_nextTypes h]
    | created pre t post types failed ok res =>
      have hd : fallback c (c.softwareDecodeType - d.decodeType) (d.refuse k) =
          (d.refuse k).fallBack pre t := congrArg Prod.snd res
      rw [hd]
      refine .created k pre t post types ?_ h
      have hlater : laterAccepts c (d.passes + 1) (d.refuse k).setups (pre ++ t :: post) = _ :=
        laterAccepts_created failed ok
      change nextTypes c d.decodeType = pre ++ t :: post at types
      rw [types, ← (nextTypes_split types).1]
      rwa [← (nextTypes_split types).1] at hlater
  · rw [Nat.not_lt] at h
    rw [fallback_of_le (d := d.refuse k) h]
    refine .stuck (by rw [nextTypes_of_le h]; rfl) ⟨_,List.append_assoc ..,?_⟩
    exact ⟨.sendPacket d.decodeType k false,by simp,h,rfl⟩

variable (c) in
structure Trying (decodeType : ℕ) (d : VideoDecoder) : Prop where
  types : setupTypes d.log ++ nextTypes c d.decodeType = nextTypes c decodeType
  below : ∀ t ∈ frameTypes d.log, t < d.decodeType
  once : (frameTypes d.log).Pairwise (· < ·)
  healthy : ∀ e ∈ d.log, ¬LastFailed c e

theorem Trying.once_append {a : ℕ} (h : Trying c a d) :
    (frameTypes d.log ++ [d.decodeType]).Pairwise (· < ·) := by
  simpa [List.pairwise_append] using ⟨h.once,h.below⟩

theorem Trying.fallBack {a k t : ℕ} {pre post : List ℕ} (h : Trying c a d)
    (types : nextTypes c d.decodeType = pre ++ t :: post)
    (below : d.decodeType < c.softwareDecodeType) : Trying c a ((d.refuse k).fallBack pre t) := by
  obtain ⟨hpost,hlt,hpre⟩ := nextTypes_split types
  have hlog : ((d.refuse k).fallBack pre t).log = d.log ++
      (sentPackets d.decodeType k ++ [.sendPacket d.decodeType k false]) ++
      (failedSetups pre ++ [.setup t true]) := by
    simp [VideoDecoder.fallBack, VideoDecoder.refuse]
  have hframes : frameTypes ((d.refuse k).fallBack pre t).log = frameTypes d.log ++ [d.decodeType] := by
    rw [hlog, frameTypes_append, frameTypes_append, frameTypes_refused]
    simp
  constructor
  · rw [hlog, ← h.types, types]
    change _ ++ nextTypes c t = _
    simp only [setupTypes_append, setupTypes_sentPackets, setupTypes_sendPacket,
      setupTypes_failedSetups, setupTypes_setup, hpost]
    simp
  · rw [hframes]
    intro u hu
    rcases List.mem_append.mp hu with hu | hu
    · exact (h.below u hu).trans hlt
    · exact (List.mem_singleton.mp hu).trans_lt hlt
  · exact hframes ▸ h.once_append
  · intro e he
    simp only [hlog, List.mem_append, List.mem_singleton, failedSetups, List.mem_map] at he
    rcases he with (he | he | rfl) | ⟨u,hu,rfl⟩ | rfl
    · exact h.healthy e he
    · exact not_lastFailed_sentPackets he
    · exact fun hl => absurd hl.1 (by omega)
    · exact fun hl => absurd hl.1 (Nat.not_le.mpr (hpre u hu))
    · simp [LastFailed]

theorem Trying.prefix_order {a : ℕ} (h : Trying c a d) : setupTypes d.log <+: nextTypes c a :=
  ⟨_,h.types⟩

/-- When some type accepts the frame, the call returns as it should. -/
theorem Trying.returns {a : ℕ} (h : Trying c a d) (hn : 0 < c.numPackets)
    (ok : c.startOfStream = true → someAccepts c d = true) :
    ∃ fuel res d', videoDecoderSendPackets c fuel d = some (.returned res,d') ∧
      FallsBack c a res d' := by
  -- Every pass that is made again follows a setup, which leaves fewer types.
  induction hm : (nextTypes c d.decodeType).length using Nat.strong_induction_on generalizing d with
  | _ m ih =>
  have hpass := sendPass_cases (d := d) hn
  generalize hr : sendPass c d = r at hpass
  have hstep : ∀ fuel, videoDecoderSendPackets c (fuel + 1) d = _ := fun fuel => by
    rw [videoDecoderSendPackets, if_neg hn.ne', hr]
  cases hpass with
  | accepted yes res =>
    subst res
    refine ⟨1,0,_,hstep 0,?_,?_,?_,?_⟩
    · simpa using h.prefix_order
    · simpa [frameTypes_sentPackets, hn.ne'] using h.once_append
    · exact fun _ => ⟨d.log,rfl⟩
    · rintro ⟨e,he,hl⟩
      rcases List.mem_append.mp he with he | he
      · exact absurd hl (h.healthy e he)
      · exact absurd hl (not_lastFailed_sentPackets he)
  | refused k no start res =>
    subst res
    refine ⟨1,-1,_,hstep 0,?_,?_,by simp,fun _ => rfl⟩
    · simpa [VideoDecoder.refuse, -List.append_assoc] using h.prefix_order
    · have hlog : (d.refuse k).log = d.log ++
          (sentPackets d.decodeType k ++ [.sendPacket d.decodeType k false]) := List.append_assoc ..
      rw [hlog, frameTypes_append, frameTypes_refused]
      exact h.once_append
  | again k no start res =>
    subst res
    have hsome := ok start
    rw [someAccepts, no, Bool.false_or] at hsome
    have hback := fallback_refuse (c := c) (d := d) k
    generalize fallback c (c.softwareDecodeType - d.decodeType) (d.refuse k) = d' at hback hr hstep
    cases hback with
    | stuck rest log => exact absurd hsome (by simp [rest])
    | created k pre t post types rest below =>
      obtain ⟨fuel,res,d'',hd,hf⟩ := ih post.length (by simp [← hm, types]; omega)
        (h.fallBack (k := k) types below) (fun _ => rest ▸ hsome)
        (congrArg List.length (nextTypes_split types).1)
      exact ⟨fuel + 1,res,d'',(hstep fuel).trans hd,hf⟩

theorem lastFailed_of_returned (hn : 0 < c.numPackets) (start : c.startOfStream = true)
    {fuel : ℕ} {res : ℤ} {d' : VideoDecoder}
    (h : someAccepts c d = false ∨ ∃ e ∈ d.log, LastFailed c e)
    (hr : videoDecoderSendPackets c fuel d = some (.returned res,d')) :
    res = 0 ∧ ∃ e ∈ d'.log, LastFailed c e := by
  induction fuel generalizing d with
  | zero => cases hr
  | succ fuel ih =>
    rw [videoDecoderSendPackets, if_neg hn.ne'] at hr
    have hpass := sendPass_cases (d := d) hn
    generalize sendPass c d = r at hpass hr
    cases hpass with
    | accepted yes res =>
      subst res
      obtain ⟨rfl,rfl⟩ : 0 = res ∧ _ = d' := by simpa using hr
      rcases h with h | ⟨e,he,hl⟩
      · simp [someAccepts, yes] at h
      · exact ⟨rfl,e,List.mem_append_left _ he,hl⟩
    | refused k no start' res => simp [start] at start'
    | again k no _ res =>
      subst res
      have hback := fallback_refuse (c := c) (d := d) k
      simp only at hr
      generalize fallback c (c.softwareDecodeType - d.decodeType) (d.refuse k) = d₁ at hback hr
      refine ih ?_ hr
      cases hback with
      | stuck rest log =>
        obtain ⟨l,hl,e,he,hlast⟩ := log
        exact .inr ⟨e,hl ▸ List.mem_append_right _ he,hlast⟩
      | created k pre t post types rest below =>
        rcases h with h | ⟨e,he,hl⟩
        · rw [someAccepts, no, Bool.false_or, rest] at h
          exact .inl h
        · exact .inr ⟨e,by simp [VideoDecoder.fallBack, VideoDecoder.refuse, he],hl⟩

/-- `video_decoder_send_packets` returns with the fallback as it should be exactly when the
frame has a packet and, at the start of a stream, the decoder in use or one of the types left
accepts the frame. -/
theorem videoDecoderSendPackets_fallsBack_iff (c : SendCall) (decodeType : ℕ) (receivedAFrame : Bool) :
    (∃ fuel res d, videoDecoderSendPackets c fuel (.atCall decodeType receivedAFrame) =
      some (.returned res,d) ∧ FallsBack c decodeType res d) ↔
    0 < c.numPackets ∧ (c.startOfStream = true →
      acceptsFrame c 0 = true ∨ laterAccepts c 1 0 (nextTypes c decodeType) = true) := by
  have hsome : (acceptsFrame c 0 = true ∨ laterAccepts c 1 0 (nextTypes c decodeType) = true) ↔
      someAccepts c (.atCall decodeType receivedAFrame) = true := Bool.or_eq_true_iff.symm
  rw [hsome]
  constructor
  · rintro ⟨fuel,res,d,hr,hf⟩
    have hn : 0 < c.numPackets := by
      rw [Nat.pos_iff_ne_zero]
      intro hn
      cases fuel with
      | zero => cases hr
      | succ fuel => simp [videoDecoderSendPackets, hn] at hr
    refine ⟨hn,fun start => ?_⟩
    by_contra hno
    obtain ⟨rfl,hl⟩ := lastFailed_of_returned hn start (.inl (Bool.eq_false_of_not_eq_true hno)) hr
    exact absurd (hf.lastFailed hl) (by decide)
  · rintro ⟨hn,ok⟩
    exact Trying.returns ⟨rfl,by simp [VideoDecoder.atCall, frameTypes],
      by simp [VideoDecoder.atCall, frameTypes],by simp [VideoDecoder.atCall]⟩ hn ok

/-- The first frame of a stream, which neither of two hardware types accepts, nor software. -/
def badFrame : SendCall :=
  { softwareDecodeType := 2, hardwareDecode := true, startOfStream := true, numPackets := 1,
    accepts := fun _ _ => false, creates := fun _ => true }

theorem badFrame_never_returned (fuel : ℕ) (d : VideoDecoder) :
    videoDecoderSendPackets badFrame fuel d = none := by
  induction fuel generalizing d with
  | zero => rfl
  | succ fuel ih => exact ih _

theorem videoDecoderSendPackets_not_fallsBack :
    ¬∃ fuel res d, videoDecoderSendPackets badFrame fuel (.atCall 0 false) =
      some (.returned res,d) ∧ FallsBack badFrame 0 res d := by
  rintro ⟨fuel,res,d,hr,-⟩
  rw [badFrame_never_returned] at hr
  cases hr

end Whist.Codec
