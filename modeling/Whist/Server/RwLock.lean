import Whist.Server.Client

/-! # The readers-writer lock

Any number of threads read and write, in any order.  Each section under a mutex is one step.  A thread that
has to wait sleeps until the condition is broadcast, or wakes by itself and checks again.
-/
namespace Whist.Server.RWLock

/-- Where a thread is: outside, in a function of the lock, or with the lock. -/
inductive At where
  | outside
  | readLock
  | reading
  | writeLock
  | writeLockReaders
  | writeLockWriter
  | writing
  | writeUnlockBroadcast
  | writeUnlockCount
  deriving DecidableEq

structure Sleeper where
  pc : At := .outside
  asleep : Bool := false

structure State where
  rw : RWLock := {}
  threads : List Sleeper

def State.put (s : State) (i : ℕ) (th : Sleeper) (rw : RWLock) : State := ⟨rw,s.threads.set i th⟩

/-- `whist_broadcast_cond`, for the condition that is waited for at `pc`. -/
def State.broadcast (s : State) (pc : At) : State :=
  { s with threads := s.threads.map fun th => if th.pc = pc then ⟨pc,false⟩ else th }

def State.advance (s : State) (i : ℕ) : At → State
  | .outside => s
  | .readLock =>
    match s.rw.readLock with
    | none => s.put i ⟨.readLock,true⟩ s.rw
    | some rw => s.put i ⟨.reading,false⟩ rw
  | .reading =>
    let next := s.put i ⟨.outside,false⟩ s.rw.readUnlock
    if next.rw.numActiveReaders = 0 then next.broadcast .writeLockReaders else next
  | .writeLock => s.put i ⟨.writeLockReaders,false⟩ { s.rw with numWriters := s.rw.numWriters + 1 }
  | .writeLockReaders =>
    if s.rw.numActiveReaders > 0 then s.put i ⟨.writeLockReaders,true⟩ s.rw
    else s.put i ⟨.writeLockWriter,false⟩ s.rw
  | .writeLockWriter =>
    if s.rw.isActiveWriter then s.put i ⟨.writeLockWriter,true⟩ s.rw
    else s.put i ⟨.writing,false⟩ { s.rw with isActiveWriter := true }
  | .writing => s.put i ⟨.writeUnlockBroadcast,false⟩ { s.rw with isActiveWriter := false }
  | .writeUnlockBroadcast => (s.put i ⟨.writeUnlockCount,false⟩ s.rw).broadcast .writeLockWriter
  | .writeUnlockCount =>
    let next := s.put i ⟨.outside,false⟩ { s.rw with numWriters := s.rw.numWriters - 1 }
    if next.rw.numWriters = 0 then next.broadcast .readLock else next

inductive Action where
  | call (i : ℕ) (write : Bool)
  | wake (i : ℕ)
  | advance (i : ℕ)

def step (s : State) : Action → State
  | .call i write =>
    match s.threads[i]? with
    | some ⟨.outside,false⟩ => s.put i ⟨if write then .writeLock else .readLock,false⟩ s.rw
    | _ => s
  | .wake i =>
    match s.threads[i]? with
    | some ⟨pc,true⟩ => s.put i ⟨pc,false⟩ s.rw
    | _ => s
  | .advance i =>
    match s.threads[i]? with
    | some ⟨pc,false⟩ => s.advance i pc
    | _ => s

def At.reads (pc : At) : Bool := pc = .reading

def At.writes (pc : At) : Bool := pc = .writing

/-- A writer that no reader holds up any more. -/
def At.admitted (pc : At) : Bool := pc = .writeLockWriter || pc = .writing

/-- A writer that is counted. -/
def At.counted (pc : At) : Bool :=
  pc.admitted || pc = .writeLockReaders || pc = .writeUnlockBroadcast || pc = .writeUnlockCount

def State.number (s : State) (p : At → Bool) : ℕ := s.threads.countP (p ·.pc)

variable {s : State} {i : ℕ} {th : Sleeper} {p q : At → Bool}

theorem State.number_put (hi : s.threads[i]? = some th) (th' : Sleeper) (rw : RWLock) (p : At → Bool) :
    (s.put i th' rw).number p + (p th.pc).toNat = s.number p + (p th'.pc).toNat := by
  obtain ⟨hlt,rfl⟩ := List.getElem?_eq_some_iff.mp hi
  have hpos : p s.threads[i].pc = true → 0 < s.number p :=
    fun h => List.countP_pos_iff.mpr ⟨_,List.getElem_mem hlt,h⟩
  have hset := @List.countP_set _ (p ·.pc) s.threads i th' hlt
  unfold State.number at hpos ⊢
  rw [State.put, hset]
  cases h : p s.threads[i].pc <;> cases h' : p th'.pc <;> simp_all

@[simp] theorem State.number_broadcast (s : State) (pc : At) (p : At → Bool) :
    (s.broadcast pc).number p = s.number p := by
  rw [State.number, State.broadcast, List.countP_map]
  refine List.countP_congr fun th _ => ?_
  dsimp only [Function.comp]
  split_ifs with h <;> simp [h]

theorem State.number_mono (h : ∀ pc, p pc = true → q pc = true) : s.number p ≤ s.number q :=
  List.countP_mono_left fun th _ => h th.pc

/-- What a thread waits for while it sleeps. -/
def State.Blocks (s : State) : At → Prop
  | .readLock => 0 < s.rw.numWriters
  | .writeLockReaders => 0 < s.rw.numActiveReaders
  | .writeLockWriter => s.rw.isActiveWriter = true ∨ 0 < s.number (· = .writeUnlockBroadcast)
  | _ => False

/-- What holds between two steps, if the threads that wait at `woken` are about to be woken: every other one that
sleeps waits for something that is still to come. -/
structure Inv (s : State) (woken : Option At) : Prop where
  readers : s.rw.numActiveReaders = s.number At.reads
  writers : s.rw.numWriters = s.number At.counted
  active : s.number At.writes = s.rw.isActiveWriter.toNat
  excluded : 0 < s.number At.admitted → s.number At.reads = 0
  sleepers : ∀ th ∈ s.threads, th.asleep = true → s.Blocks th.pc ∨ woken = some th.pc

variable {pc : At} {asleep : Bool}

theorem Inv.blocks (h : Inv s none) (hth : th ∈ s.threads) (hasleep : th.asleep = true) : s.Blocks th.pc :=
  (h.sleepers th hth hasleep).resolve_right (by simp)

/-- Only who sleeps is different. -/
theorem Inv.congr {s' : State} {woken : Option At} (h : Inv s woken) (hrw : s'.rw = s.rw)
    (hnumber : ∀ p, s'.number p = s.number p) (hsleepers : ∀ th ∈ s'.threads, th.asleep = true → s.Blocks th.pc) :
    Inv s' none := by
  have hblocks : ∀ pc, s'.Blocks pc = s.Blocks pc := fun pc => by cases pc <;> simp only [State.Blocks, hrw, hnumber]
  refine ⟨?_,?_,?_,?_,fun th hth hasleep => .inl (hblocks _ ▸ hsleepers th hth hasleep)⟩ <;> simp only [hrw, hnumber]
  exacts [h.readers,h.writers,h.active,h.excluded]

theorem Inv.broadcast (h : Inv s (some pc)) : Inv (s.broadcast pc) none := by
  refine h.congr rfl (State.number_broadcast s pc) fun th hth hasleep => ?_
  obtain ⟨th₀,hmem,rfl⟩ := List.mem_map.mp hth
  split_ifs at hasleep ⊢ with hpc
  exact (h.sleepers th₀ hmem hasleep).resolve_right fun heq => hpc (Option.some.inj heq).symm

/-- A thread falls asleep or wakes. -/
theorem Inv.same (h : Inv s none) (hi : s.threads[i]? = some ⟨pc,asleep⟩) (asleep' : Bool)
    (hblocks : asleep' = true → s.Blocks pc) : Inv (s.put i ⟨pc,asleep'⟩ s.rw) none := by
  refine h.congr rfl (fun p => Nat.add_right_cancel (s.number_put hi ⟨pc,asleep'⟩ s.rw p)) fun u hu hasleep => ?_
  rcases List.mem_or_eq_of_mem_set hu with hu | rfl
  · exact h.blocks hu hasleep
  · exact hblocks hasleep

/-- A thread goes on.  What it makes come to hold, the threads that wait for it are woken for. -/
theorem Inv.put (h : Inv s none) (hi : s.threads[i]? = some ⟨pc,asleep⟩) (pc' : At) (rw : RWLock) (woken : Option At)
    (hreaders : rw.numActiveReaders + pc.reads.toNat = s.rw.numActiveReaders + pc'.reads.toNat)
    (hwriters : rw.numWriters + pc.counted.toNat = s.rw.numWriters + pc'.counted.toNat)
    (hactive : rw.isActiveWriter.toNat + pc.writes.toNat = s.rw.isActiveWriter.toNat + pc'.writes.toNat)
    (hreads : pc'.reads = false ∨ s.number At.admitted = 0) (hadmitted : pc'.admitted = false ∨ s.number At.reads = 0)
    (hread : 0 < s.rw.numWriters → 0 < rw.numWriters ∨ woken = some .readLock)
    (hwrite : 0 < s.rw.numActiveReaders → 0 < rw.numActiveReaders ∨ woken = some .writeLockReaders)
    (hnext : (pc.writes = true → pc' = .writeUnlockBroadcast) ∧
      (pc = .writeUnlockBroadcast → woken = some .writeLockWriter)) : Inv (s.put i ⟨pc',false⟩ rw) woken := by
  have hnumber : ∀ p : At → Bool, (s.put i ⟨pc',false⟩ rw).number p + (p pc).toNat = s.number p + (p pc').toNat :=
    s.number_put hi ⟨pc',false⟩ rw
  have hnumReads := hnumber At.reads
  have hnumWrites := hnumber At.writes
  have hnumAdmitted := hnumber At.admitted
  have hnumCounted := hnumber At.counted
  have hr := h.readers
  have hw := h.writers
  have ha := h.active
  refine ⟨?_,?_,?_,fun hpos => ?_,fun u hu hasleep => ?_⟩
  · change rw.numActiveReaders = _
    omega
  · change rw.numWriters = _
    omega
  · change _ = rw.isActiveWriter.toNat
    omega
  · have hx := h.excluded
    have hone : pc'.reads = false ∨ pc'.admitted = false := by cases pc' <;> decide
    cases hr' : pc'.reads <;> cases ha' : pc'.admitted <;>
      simp only [hr', ha', Bool.toNat_false, Bool.toNat_true] at hnumReads hnumAdmitted
    · have := hx (by omega)
      omega
    · have := hadmitted.resolve_left (by simp [ha'])
      omega
    · have := hreads.resolve_left (by simp [hr'])
      omega
    · simp [hr', ha'] at hone
  · rcases List.mem_or_eq_of_mem_set hu with hu | rfl
    · have hblocks := h.blocks hu hasleep
      have hnum := hnumber (· = .writeUnlockBroadcast)
      cases hpc : u.pc <;> rw [hpc] at hblocks <;> first | exact hblocks.elim | skip
      · exact hread hblocks
      · exact hwrite hblocks
      · by_cases hbroadcast : pc = .writeUnlockBroadcast
        · exact .inr (hnext.2 hbroadcast)
        rw [decide_eq_false hbroadcast, Bool.toNat_false] at hnum
        refine .inl (hblocks.elim (fun hs => ?_) fun hs => .inr (by omega))
        by_cases hwrites : pc.writes = true
        · rw [decide_eq_true (hnext.1 hwrites), Bool.toNat_true] at hnum
          exact .inr (by omega)
        · rw [Bool.eq_false_iff.mpr hwrites, hs, Bool.toNat_false, Bool.toNat_true] at hactive
          have hone : rw.isActiveWriter = true := Bool.toNat_eq_one.mp (by have := rw.isActiveWriter.toNat_le; omega)
          exact .inl hone
    · cases hasleep

theorem Inv.advance (h : Inv s none) (hi : s.threads[i]? = some ⟨pc,false⟩) : Inv (s.advance i pc) none := by
  have hpresent : ∀ {p : At → Bool}, p pc = true → 0 < s.number p := fun hp =>
    List.countP_pos_iff.mpr ⟨_,List.mem_of_getElem? hi,hp⟩
  unfold State.advance
  cases pc with
  | outside => exact h
  | readLock =>
    unfold RWLock.readLock
    by_cases hwriter : s.rw.numWriters > 0
    · rw [if_pos hwriter]
      exact h.same hi true fun _ => hwriter
    · have hle : s.number At.admitted ≤ s.number At.counted := State.number_mono fun pc hpc => by simp [At.counted, hpc]
      have hnone : s.number At.admitted = 0 := by
        have := h.writers
        omega
      rw [if_neg hwriter]
      exact h.put hi _ _ none (by simp [At.reads]) rfl rfl (.inr hnone) (.inl rfl) .inl
        (fun _ => .inl (by dsimp only; omega)) (by decide)
  | reading =>
    dsimp only
    split_ifs with hzero
    · exact (h.put hi .outside s.rw.readUnlock (some .writeLockReaders) (by simp [At.reads, RWLock.readUnlock]) rfl rfl
        (.inl rfl) (.inl rfl) .inl (fun _ => .inr rfl) (by decide)).broadcast
    · change s.rw.numActiveReaders - 1 ≠ 0 at hzero
      exact h.put hi _ _ none (by simp [At.reads, RWLock.readUnlock]) rfl rfl (.inl rfl) (.inl rfl)
        .inl (fun hpos => .inl (by dsimp only [RWLock.readUnlock]; omega)) (by decide)
  | writeLock =>
    exact h.put hi _ _ none rfl (by simp [At.counted, At.admitted]) rfl (.inl rfl) (.inl rfl)
      (fun _ => .inl (by dsimp only; omega)) .inl (by decide)
  | writeLockReaders =>
    dsimp only
    split_ifs with hreader
    · exact h.same hi true fun _ => hreader
    · have hnone : s.number At.reads = 0 := by
        have := h.readers
        omega
      exact h.put hi _ _ none rfl rfl rfl (.inl rfl) (.inr hnone) .inl .inl (by decide)
  | writeLockWriter =>
    dsimp only
    split_ifs with hactive
    · exact h.same hi true fun _ => .inl hactive
    · exact h.put hi _ _ none rfl rfl (by rw [Bool.eq_false_iff.mpr hactive]; rfl) (.inl rfl)
        (.inr (h.excluded (hpresent rfl))) .inl .inl (by decide)
  | writing =>
    have hone : s.rw.isActiveWriter = true := by
      have hpos : 0 < s.number At.writes := hpresent rfl
      rw [h.active] at hpos
      exact Bool.toNat_eq_one.mp (by have := s.rw.isActiveWriter.toNat_le; omega)
    exact h.put hi _ _ none rfl rfl (by rw [hone]; rfl) (.inl rfl) (.inl rfl) .inl .inl (by decide)
  | writeUnlockBroadcast =>
    exact (h.put hi .writeUnlockCount s.rw (some .writeLockWriter) rfl rfl rfl (.inl rfl) (.inl rfl) .inl .inl
      (by decide)).broadcast
  | writeUnlockCount =>
    dsimp only
    split_ifs with hzero
    · exact (h.put hi .outside { s.rw with numWriters := s.rw.numWriters - 1 } (some .readLock) rfl
        (by simp [At.counted, At.admitted]) rfl (.inl rfl) (.inl rfl) (fun _ => .inr rfl) .inl (by decide)).broadcast
    · change s.rw.numWriters - 1 ≠ 0 at hzero
      exact h.put hi _ _ none rfl (by simp [At.counted, At.admitted]) rfl (.inl rfl) (.inl rfl)
        (fun hpos => .inl (by dsimp only; omega)) .inl (by decide)

theorem Inv.step (h : Inv s none) (a : Action) : Inv (RWLock.step s a) none := by
  unfold RWLock.step
  cases a with
  | call i write =>
    dsimp only
    split
    · rename_i hi
      cases write <;>
        exact h.put hi _ _ none rfl rfl rfl (.inl rfl) (.inl rfl) .inl .inl (by decide)
    · exact h
  | wake i =>
    dsimp only
    split
    · rename_i hi
      exact h.same hi false fun hf => by cases hf
    · exact h
  | advance i =>
    dsimp only
    split
    · rename_i hi
      exact h.advance hi
    · exact h

def State.Awake (s : State) : Prop := ∃ th ∈ s.threads, th.asleep = false ∧ th.pc ≠ .outside

/-- A writer that is counted is awake, or waits for a thread with the lock. -/
theorem Inv.awake (h : Inv s none) (hth : th ∈ s.threads) (hasleep : th.asleep = true) : s.Awake := by
  have hholds : ∀ {p : At → Bool}, 0 < s.number p → p .outside = false →
      (∀ pc, p pc = true → ¬s.Blocks pc) → s.Awake := by
    intro p hpos hout hnot
    obtain ⟨u,hu,hp⟩ := List.countP_pos_iff.mp hpos
    refine ⟨u,hu,Bool.eq_false_iff.mpr fun hsleeps => ?_,fun hpc => by rw [hpc, hout] at hp; cases hp⟩
    exact hnot u.pc hp (h.blocks hu hsleeps)
  have hreaders : 0 < s.rw.numActiveReaders → s.Awake := fun hpos => by
    rw [h.readers] at hpos
    exact hholds (Int.natCast_pos.mp hpos) rfl fun pc hpc => by rw [of_decide_eq_true hpc]; exact id
  have hwriter : s.rw.isActiveWriter = true ∨ 0 < s.number (· = .writeUnlockBroadcast) → s.Awake := by
    rintro (hactive | hpos)
    · refine @hholds At.writes ?_ rfl fun pc hpc => by rw [of_decide_eq_true hpc]; exact id
      rw [h.active, hactive]
      exact Nat.one_pos
    · exact hholds hpos rfl fun pc hpc => by rw [of_decide_eq_true hpc]; exact id
  have hblocks := h.blocks hth hasleep
  cases hpc : th.pc <;> rw [hpc] at hblocks <;> first | exact hblocks.elim | skip
  · change 0 < s.rw.numWriters at hblocks
    rw [h.writers] at hblocks
    obtain ⟨u,hu,hcounted⟩ := List.countP_pos_iff.mp (Int.natCast_pos.mp hblocks)
    by_cases hsleeps : u.asleep = true
    · have hblocks' := h.blocks hu hsleeps
      cases hu' : u.pc <;> rw [hu'] at hblocks' hcounted <;> first | exact hblocks'.elim | cases hcounted
      · exact hreaders hblocks'
      · exact hwriter hblocks'
    · refine ⟨u,hu,Bool.eq_false_iff.mpr hsleeps,fun hout => ?_⟩
      rw [hout] at hcounted
      cases hcounted
  · exact hreaders hblocks
  · exact hwriter hblocks

/-- However the calls interleave, at most one thread holds the lock for writing, and then none for reading; no
thread sleeps on once what it waits for has come; and while one sleeps, another one can go on. -/
theorem lock_exclusive_live (n : ℕ) (actions : List Action) :
    let s := actions.foldl step ⟨{},List.replicate n {}⟩
    s.number At.writes ≤ 1 ∧ (0 < s.number At.writes → s.number At.reads = 0) ∧
      ∀ th ∈ s.threads, th.asleep = true → s.Blocks th.pc ∧ s.Awake := by
  have hstart : Inv ⟨{},List.replicate n {}⟩ none := by
    have hnone : ∀ p : At → Bool, p .outside = false → State.number ⟨{},List.replicate n {}⟩ p = 0 := fun p hp =>
      List.countP_eq_zero.mpr fun th hth => by rw [(List.mem_replicate.mp hth).2, hp]; exact Bool.false_ne_true
    refine ⟨?_,?_,?_,fun _ => hnone _ rfl,fun th hth hasleep => ?_⟩
    · rw [hnone _ rfl]
      rfl
    · rw [hnone _ rfl]
      rfl
    · exact hnone _ rfl
    · rw [(List.mem_replicate.mp hth).2] at hasleep
      cases hasleep
  have hinv : ∀ {s : State}, Inv s none → Inv (actions.foldl step s) none := by
    induction actions with
    | nil => exact id
    | cons a actions ih => exact fun h => ih (h.step a)
  obtain h := hinv hstart
  refine ⟨h.active.trans_le (Bool.toNat_le _),fun hpos => h.excluded (hpos.trans_le ?_),fun th hth hasleep =>
    ⟨h.blocks hth hasleep,h.awake hth hasleep⟩⟩
  exact State.number_mono fun pc hpc => by rw [of_decide_eq_true hpc]; rfl

end Whist.Server.RWLock
