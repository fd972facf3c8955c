import Whist.Foundation.Slots
import Whist.Scaling.MandelboxRows
import Whist.Scaling.Replies

/-! # One user for a mandelbox, and a limit for a user -/
namespace Whist.Scaling

def allocations (p : Process Goroutine Op Ans) : List Mandelbox := p.history.filterMap allocation

def returnedIDs (p : Process Goroutine Op Ans) : List String := p.history.filterMap returnedID

def System.allocatedIDs (s : System) : List String :=
  s.processes.flatMap fun p => (allocations p).map Mandelbox.id

def userActive (db : Database) (userID : String) : ℕ :=
  activeOrConnectingMandelboxes (db.queryUserMandelboxes userID)

def System.createdActive (s : System) (userID : String) : ℕ :=
  ((s.world.db.queryUserMandelboxes userID).filter fun m =>
    m.status ≠ .dying ∧ m.id ∈ s.allocatedIDs).length

structure AssignedOnce (cfg : Settings) (s : System) : Prop where
  once : ∀ (i j : ℕ) p q id, s.processes[i]? = some p → s.processes[j]? = some q → i ≠ j →
    id ∈ returnedIDs p → id ∉ returnedIDs q
  limit : ∀ userID, s.createdActive userID = 0 ∨ (s.createdActive userID : ℤ) ≤ cfg.mandelboxLimitPerUser

/-- When a mandelbox is overwritten for a user its row still waits and the user is still
below the limit; and no mandelbox that is dying is marked as running. -/
def Unraced (cfg : Settings) (s : System) (_ : Process Goroutine Op Ans) : (op : Op) → Ans op → Prop
  | .updateMandelbox m, .ok _ =>
    (∃ row ∈ s.world.db.mandelboxes, row.id = m.id ∧ row.status = .waiting) ∧
      (userActive s.world.db m.userID : ℤ) < cfg.mandelboxLimitPerUser
  | .writeMandelboxStatus status id, .ok _ =>
    ∀ row ∈ s.world.db.mandelboxes, row.id = id → row.status = .dying → status = .dying
  | _, _ => True

def IsActiveOf (userID : String) (m : Mandelbox) : Bool := m.userID = userID && m.status ≠ .dying

theorem userActive_eq (db : Database) (userID : String) :
    userActive db userID = db.mandelboxes.countP (IsActiveOf userID) := by
  unfold userActive activeOrConnectingMandelboxes Database.queryUserMandelboxes
  rw [List.filter_filter, ← List.countP_eq_length_filter]
  refine List.countP_congr (fun m _ => ?_)
  simp [IsActiveOf, and_comm]

theorem createdActive_le (s : System) (userID : String) :
    s.createdActive userID ≤ userActive s.world.db userID := by
  unfold System.createdActive userActive activeOrConnectingMandelboxes
  refine List.Sublist.length_le (List.monotone_filter_right _ (fun m hm => ?_))
  simp only [decide_eq_true_eq] at hm ⊢
  exact hm.1

theorem countP_id_le_one {rows : List Mandelbox} (h : (rows.map Mandelbox.id).Nodup) (id : String) :
    rows.countP (fun m => m.id = id) ≤ 1 := by
  have hcount := List.nodup_iff_count_le_one.mp h id
  rw [List.count, List.countP_map] at hcount
  refine le_trans (le_of_eq (List.countP_congr fun m _ => ?_)) hcount
  simp

theorem countP_or_le {β : Type} (P Q : β → Bool) (rows : List β) :
    rows.countP (fun x => P x || Q x) ≤ rows.countP P + rows.countP Q := by
  induction rows with
  | nil => simp
  | cons x rows ih =>
    simp only [List.countP_cons]
    cases P x <;> cases Q x <;> simp <;> omega

variable {cfg : Settings} {w : World} {bs : List Books} {userID : String}

theorem userActive_updateMandelbox (hw : w.Sound) (m : Mandelbox) (userID : String) :
    userActive (w.db.updateMandelbox m) userID ≤
      userActive w.db userID + if m.userID = userID then 1 else 0 := by
  rw [userActive_eq, userActive_eq, Database.updateMandelbox, Database.setMandelboxes, List.countP_map]
  by_cases huser : m.userID = userID
  · rw [if_pos huser]
    refine le_trans (List.countP_mono_left (fun row _ h => ?_)) (le_trans (countP_or_le
      (IsActiveOf userID) (fun row => decide (row.id = m.id)) w.db.mandelboxes)
      (Nat.add_le_add_left (countP_id_le_one hw.mandelboxes_nodup m.id) _))
    by_cases hid : row.id = m.id
    · simp [hid]
    · simpa [hid] using h
  · rw [if_neg huser, Nat.add_zero]
    refine List.countP_mono_left (fun row _ h => ?_)
    by_cases hid : row.id = m.id
    · simp [hid, IsActiveOf, huser] at h
    · simpa [hid] using h

theorem userActive_after {e : Event Op Ans} {rows : List Mandelbox} (h : MandelboxesAfter w e rows)
    (halloc : allocation e = none) (huser : userID ≠ "")
    (hrevive : ∀ status id n, e = ⟨.writeMandelboxStatus status id,.ok n⟩ →
      ∀ row ∈ w.db.mandelboxes, row.id = id → row.status = .dying → status = .dying) :
    rows.countP (IsActiveOf userID) ≤ w.db.mandelboxes.countP (IsActiveOf userID) := by
  cases h with
  | same => exact le_rfl
  | @inserted _ new he hfresh hwaiting hlocated =>
    have hnew : new.countP (IsActiveOf userID) = 0 := by
      rw [List.countP_eq_zero]
      intro m hm
      simp [IsActiveOf, (hwaiting m hm).2, Ne.symm huser]
    rw [List.countP_append, hnew, Nat.add_zero]
  | updated m n => cases halloc
  | status status id n hstatus =>
    rw [Database.writeMandelboxStatus, Database.setMandelboxes, List.countP_map]
    refine List.countP_mono_left (fun row hrow hactive => ?_)
    by_cases hid : row.id = id
    · simp only [Function.comp_apply, if_pos hid, IsActiveOf, Bool.and_eq_true, decide_eq_true_eq] at hactive ⊢
      exact ⟨hactive.1,fun hdying => hactive.2 (hrevive status id n rfl row hrow hid hdying)⟩
    · simpa [hid] using hactive
  | removed id n hn => exact (List.filter_sublist).countP_le
  | cascaded id n => exact (List.filter_sublist).countP_le

inductive RowAfter (w : World) (e : Event Op Ans) (row : Mandelbox) : Prop where
  | marked (h : allocation e = some row) : RowAfter w e row
  | kept {old : Mandelbox} (hold : old ∈ w.db.mandelboxes) (hid : old.id = row.id)
      (huser : old.userID = row.userID) (hstatus : old.status ≠ .waiting → row.status ≠ .waiting)
      (hother : ∀ m, allocation e = some m → row.id ≠ m.id) : RowAfter w e row
  | inserted (hfresh : row.id ∉ w.created.map Mandelbox.id) (huser : row.userID = "")
      (hnone : allocation e = none) : RowAfter w e row

theorem RowAfter.same {e : Event Op Ans} (he : allocation e = none) {row : Mandelbox}
    (hrow : row ∈ w.db.mandelboxes) : RowAfter w e row :=
  .kept hrow rfl rfl id fun m hm => by rw [he] at hm; cases hm

theorem row_after {e : Event Op Ans} {rows : List Mandelbox} (h : MandelboxesAfter w e rows)
    {row : Mandelbox} (hrow : row ∈ rows) : RowAfter w e row := by
  cases h with
  | same he => exact .same he hrow
  | inserted he hfresh hwaiting hlocated =>
    rcases List.mem_append.mp hrow with hold | hnew
    · exact .same he hold
    · exact .inserted (hfresh.notMem (List.mem_map_of_mem hnew)) (hwaiting row hnew).2 he
  | updated m n =>
    rcases mem_setMandelboxes.mp hrow with ⟨hold,hid⟩ | ⟨old,hold,hid,rfl⟩
    · exact .kept hold rfl rfl id fun m' hm' => by cases hm'; exact hid
    · exact .marked rfl
  | status status id n hstatus =>
    rcases mem_setMandelboxes.mp hrow with ⟨hold,hid⟩ | ⟨old,hold,hid,rfl⟩
    · exact .same rfl hold
    · exact .kept hold rfl rfl (fun _ => hstatus.1) nofun
  | removed id n hn => exact .same rfl (List.mem_filter.mp hrow).1
  | cascaded id n => exact .same rfl (List.mem_filter.mp hrow).1

def Taken (w : World) (m : Mandelbox) : Prop :=
  m.id ∈ w.created.map Mandelbox.id ∧
    ∀ row ∈ w.db.mandelboxes, row.id = m.id → row.status ≠ .waiting ∧ row.userID ≠ ""

structure Exclusive (cfg : Settings) (w : World) (bs : List Books) : Prop where
  sound : w.Sound
  taken : ∀ b ∈ bs, ∀ m, b.allocated = some m → Taken w m
  distinct : ∀ (i j : ℕ) b b' m m', bs[i]? = some b → bs[j]? = some b' → i ≠ j →
    b.allocated = some m → b'.allocated = some m' → m.id ≠ m'.id
  limited : ∀ userID, userID ≠ "" → (userActive w.db userID : ℤ) ≤ cfg.mandelboxLimitPerUser ∨
    ∀ row ∈ w.db.mandelboxes, row.userID = userID → ∀ b ∈ bs, ∀ m, b.allocated = some m → m.id ≠ row.id

variable {s : System} {p : Process Goroutine Op Ans} {pid : ℕ} {op : Op} {r : Ans op} {b : Books}
  {kind : Goroutine}

theorem Books.may.marks (hmay : Books.may kind b op) {m : Mandelbox} (h : allocation ⟨op,r⟩ = some m) :
    b.allocated = none ∧ m.status = .allocated ∧ m.userID ≠ "" := by
  cases op <;> try cases h
  cases r with
  | error e => cases h
  | ok n =>
    cases h
    obtain ⟨region,req,-,hnone,-,-,huser,i,-,row,-,-,time,rfl⟩ := hmay
    exact ⟨hnone,rfl,huser⟩

theorem Unraced.marks (h : Unraced cfg s p op r) {m : Mandelbox} (hm : allocation ⟨op,r⟩ = some m) :
    (∃ row ∈ s.world.db.mandelboxes, row.id = m.id ∧ row.status = .waiting) ∧
      (userActive s.world.db m.userID : ℤ) < cfg.mandelboxLimitPerUser := by
  cases op <;> try cases hm
  cases r with
  | error e => cases hm
  | ok n =>
    cases hm
    exact h

theorem Unraced.revives (h : Unraced cfg s p op r) {status : MandelboxStatus} {id : String} {n : ℕ}
    (he : (⟨op,r⟩ : Event Op Ans) = ⟨.writeMandelboxStatus status id,.ok n⟩) :
    ∀ row ∈ s.world.db.mandelboxes, row.id = id → row.status = .dying → status = .dying := by
  cases he
  exact h

theorem effect_of_allocation {m : Mandelbox} (h : allocation ⟨op,r⟩ = some m) :
    (effect w pid op r).db = w.db.updateMandelbox m := by
  cases op <;> try cases h
  cases r with
  | error e => cases h
  | ok n =>
    cases h
    rfl

theorem allocated_set_track {e : Event Op Ans} {i : ℕ} {b' : Books} {m : Mandelbox}
    (hb : bs[pid]? = some b) (hi : (bs.set pid (b.track e))[i]? = some b')
    (hm : b'.allocated = some m) :
    (i = pid ∧ allocation e = some m) ∨ ∃ old, bs[i]? = some old ∧ old.allocated = some m := by
  rcases Slots.set_cases hi with ⟨rfl,rfl⟩ | ⟨_,hold⟩
  · rw [Books.allocated_track, Option.or_eq_some_iff] at hm
    rcases hm with hm | ⟨_,hm⟩
    · exact Or.inl ⟨rfl,hm⟩
    · exact Or.inr ⟨b,hb,hm⟩
  · exact Or.inr ⟨b',hold,hm⟩

theorem Taken.effect {m : Mandelbox} (h : Taken w m) (hmay : Books.may kind b op)
    (ha : answers w pid op r) : Taken (effect w pid op r) m := by
  refine ⟨((created_effect w pid op r).map _).subset h.1,fun row hrow hid => ?_⟩
  cases row_after (mandelboxes_after hmay ha) hrow with
  | marked halloc =>
    obtain ⟨-,hstatus,huser⟩ := hmay.marks halloc
    exact ⟨by simp [hstatus],huser⟩
  | kept hold hidold huser hstatus hother =>
    obtain ⟨hwaiting,hnone⟩ := h.2 _ hold (hidold.trans hid)
    exact ⟨hstatus hwaiting,huser ▸ hnone⟩
  | inserted hfresh _ _ => exact absurd (hid ▸ h.1) hfresh

theorem taken_of_marks (hw : w.Sound) (hmay : Books.may kind b op) (ha : answers w pid op r)
    {m row : Mandelbox} (hm : allocation ⟨op,r⟩ = some m) (hrow : row ∈ w.db.mandelboxes)
    (hid : row.id = m.id) : Taken (effect w pid op r) m := by
  have hcreated : m.id ∈ w.created.map Mandelbox.id := hid ▸ hw.created row hrow
  refine ⟨((created_effect w pid op r).map _).subset hcreated,fun row' hrow' hid' => ?_⟩
  cases row_after (mandelboxes_after hmay ha) hrow' with
  | marked halloc =>
    obtain ⟨-,hstatus,huser⟩ := hmay.marks halloc
    exact ⟨by simp [hstatus],huser⟩
  | kept _ _ _ _ hother => exact absurd hid' (hother m hm)
  | inserted hfresh _ _ => exact absurd (hid' ▸ hcreated) hfresh

namespace Exclusive

theorem act (h : Exclusive cfg s.world bs) (hb : bs[pid]? = some b) (hmay : Books.may kind b op)
    (ha : answers s.world pid op r) (hu : Unraced cfg s p op r) :
    Exclusive cfg (effect s.world pid op r) (bs.set pid (b.track ⟨op,r⟩)) := by
  -- a mandelbox that this call marks was waiting, so nobody had taken it
  have huntaken : ∀ m, allocation ⟨op,r⟩ = some m → ∀ b' ∈ bs, ∀ m', b'.allocated = some m' →
      m.id ≠ m'.id := by
    intro m hm b' hb' m' hm' hid
    obtain ⟨⟨row,hrow,hrowid,hwaiting⟩,-⟩ := hu.marks hm
    exact ((h.taken b' hb' m' hm').2 row hrow (hrowid.trans hid)).1 hwaiting
  refine ⟨h.sound.effect ha,?_,?_,?_⟩
  · intro b' hb' m hm
    obtain ⟨i,hi⟩ := List.mem_iff_getElem?.mp hb'
    rcases allocated_set_track hb hi hm with ⟨-,halloc⟩ | ⟨old,hold,hm⟩
    · obtain ⟨⟨row,hrow,hid,-⟩,-⟩ := hu.marks halloc
      exact taken_of_marks h.sound hmay ha halloc hrow hid
    · exact (h.taken old (List.mem_of_getElem? hold) m hm).effect hmay ha
  · intro i j b₁ b₂ m₁ m₂ hi hj hij hm₁ hm₂
    rcases allocated_set_track hb hi hm₁ with ⟨rfl,halloc⟩ | ⟨old₁,hold₁,hm₁⟩
    · rcases allocated_set_track hb hj hm₂ with ⟨rfl,-⟩ | ⟨old₂,hold₂,hm₂⟩
      · exact absurd rfl hij
      · exact huntaken m₁ halloc old₂ (List.mem_of_getElem? hold₂) m₂ hm₂
    · rcases allocated_set_track hb hj hm₂ with ⟨rfl,halloc⟩ | ⟨old₂,hold₂,hm₂⟩
      · exact (huntaken m₂ halloc old₁ (List.mem_of_getElem? hold₁) m₁ hm₁).symm
      · exact h.distinct i j old₁ old₂ m₁ m₂ hold₁ hold₂ hij hm₁ hm₂
  · intro userID huser
    by_cases hmine : ∃ m, allocation ⟨op,r⟩ = some m ∧ m.userID = userID
    · obtain ⟨m,hm,rfl⟩ := hmine
      have hle := userActive_updateMandelbox h.sound m m.userID
      rw [if_pos rfl] at hle
      have hlt := (hu.marks hm).2
      left
      rw [effect_of_allocation hm]
      omega
    · rcases h.limited userID huser with hle | hnone
      · left
        refine le_trans ?_ hle
        cases hm : allocation ⟨op,r⟩ with
        | none =>
          rw [userActive_eq, userActive_eq, Nat.cast_le]
          exact userActive_after (mandelboxes_after hmay ha) hm huser fun _ _ _ he => hu.revives he
        | some m =>
          have hne : m.userID ≠ userID := fun he => hmine ⟨m,hm,he⟩
          have hle := userActive_updateMandelbox h.sound m userID
          rw [if_neg hne, Nat.add_zero] at hle
          rw [effect_of_allocation hm, Nat.cast_le]
          exact hle
      · right
        intro row hrow hrowuser b' hb' m hm
        obtain ⟨i,hi⟩ := List.mem_iff_getElem?.mp hb'
        cases row_after (mandelboxes_after hmay ha) hrow with
        | marked halloc => exact absurd ⟨row,halloc,hrowuser⟩ hmine
        | inserted _ hempty _ => exact absurd (hrowuser.symm.trans hempty) huser
        | @kept old hold hid hsame _ hother =>
          rcases allocated_set_track hb hi hm with ⟨-,halloc⟩ | ⟨oldb,holdb,hm⟩
          · exact (hother m halloc).symm
          · rw [← hid]
            exact hnone old hold (hsame.trans hrowuser) oldb (List.mem_of_getElem? holdb) m hm

theorem start (h : Exclusive cfg w bs) : Exclusive cfg w (bs ++ [({} : Books)]) := by
  have hold : ∀ {i : ℕ} {b : Books} {m : Mandelbox}, (bs ++ [({} : Books)])[i]? = some b →
      b.allocated = some m → bs[i]? = some b := by
    intro i b m hi hm
    rw [List.getElem?_append] at hi
    by_cases hlt : i < bs.length
    · rwa [if_pos hlt] at hi
    · rw [if_neg hlt] at hi
      obtain rfl := List.mem_singleton.mp (List.mem_of_getElem? hi)
      cases hm
  have hmem : ∀ {b : Books} {m : Mandelbox}, b ∈ bs ++ [({} : Books)] → b.allocated = some m → b ∈ bs := by
    intro b m hb hm
    obtain ⟨i,hi⟩ := List.mem_iff_getElem?.mp hb
    exact List.mem_of_getElem? (hold hi hm)
  exact {
    sound := h.sound
    taken := fun b hb m hm => h.taken b (hmem hb hm) m hm
    distinct := fun i j b b' m m' hi hj hij hm hm' =>
      h.distinct i j b b' m m' (hold hi hm) (hold hj hm') hij hm hm'
    limited := fun userID huser => (h.limited userID huser).imp_right fun hnone row hrow hid b hb m hm =>
      hnone row hrow hid b (hmem hb hm) m hm }

theorem drift (h : Exclusive cfg w bs) (e : ℕ) : Exclusive cfg (service.drift w e) bs where
  sound := { h.sound with }
  taken := h.taken
  distinct := h.distinct
  limited := h.limited

theorem initial (h : w.Sound) : Exclusive cfg w [] where
  sound := h
  taken _ hb := absurd hb List.not_mem_nil
  distinct _ _ _ _ _ _ hi := absurd (List.mem_of_getElem? hi) List.not_mem_nil
  limited _ _ := Or.inr fun _ _ _ _ hb => absurd hb List.not_mem_nil

end Exclusive

structure Tallied (p : Process Goroutine Op Ans) : Prop where
  allocations : allocations p = (Books.of p).allocated.toList
  returned : returnedIDs p = (Books.of p).answered.toList
  answered : ∀ id, (Books.of p).answered = some id → ∃ m, (Books.of p).allocated = some m ∧ m.id = id

theorem Books.may.returns (hmay : Books.may kind b op) {id : String} (h : returnedID ⟨op,r⟩ = some id) :
    b.answered = none ∧ allocation ⟨op,r⟩ = none ∧ ∃ m, b.allocated = some m ∧ m.id = id := by
  cases op <;> try cases h
  rename_i result
  cases result with
  | failed error => cases h
  | assigned ip id' =>
    cases h
    obtain ⟨hnone,m,i,hm,-,hid⟩ := hmay
    exact ⟨hnone,rfl,m,hm,hid⟩

theorem Books.may.unanswered (hmay : Books.may kind b op) {m : Mandelbox}
    (h : allocation ⟨op,r⟩ = some m) : b.answered = none ∧ returnedID ⟨op,r⟩ = none := by
  cases op <;> try cases h
  cases r with
  | error e => cases h
  | ok n =>
    obtain ⟨region,req,-,-,-,hnone,-⟩ := hmay
    exact ⟨hnone,rfl⟩

theorem toList_or {β : Type} {new old : Option β} (h : ∀ x, new = some x → old = none) :
    old.toList ++ new.toList = (new.or old).toList := by
  cases new with
  | none => simp
  | some x => simp [h x rfl]

theorem Tallied.advance (h : Tallied p) (hmay : Books.may p.kind (Books.of p) op)
    (rest : Program Op Ans Unit) : Tallied (p.advance ⟨op,r⟩ rest) where
  allocations := by
    have hnew : ∀ m, allocation ⟨op,r⟩ = some m → (Books.of p).allocated = none :=
      fun m hm => (hmay.marks hm).1
    rw [Books.of, Process.view_advance, Books.allocated_track, ← toList_or hnew, ← h.allocations]
    simp only [Scaling.allocations, Process.advance, List.filterMap_append]
    cases halloc : allocation ⟨op,r⟩ <;> simp [halloc]
  returned := by
    have hnew : ∀ id, returnedID ⟨op,r⟩ = some id → (Books.of p).answered = none :=
      fun id hid => (hmay.returns hid).1
    rw [Books.of, Process.view_advance, Books.answered_track, ← toList_or hnew, ← h.returned]
    simp only [returnedIDs, Process.advance, List.filterMap_append]
    cases hreturned : returnedID ⟨op,r⟩ <;> simp [hreturned]
  answered := by
    intro id hid
    rw [Books.of, Process.view_advance, Books.answered_track, Option.or_eq_some_iff] at hid
    rw [Books.of, Process.view_advance, Books.allocated_track]
    rcases hid with hid | ⟨-,hid⟩
    · obtain ⟨-,hnone,m,hm,rfl⟩ := hmay.returns hid
      exact ⟨m,by rw [hnone, Option.none_or, hm],rfl⟩
    · cases halloc : allocation ⟨op,r⟩ with
      | none =>
        rw [Option.none_or]
        exact h.answered id hid
      | some m =>
        rw [(hmay.unanswered halloc).1] at hid
        cases hid

theorem Tallied.begin (kind : Goroutine) : Tallied (Process.begin (body cfg) kind) where
  allocations := rfl
  returned := rfl
  answered := nofun

structure AssignInvariant (cfg : Settings) (s : System) : Prop where
  honest : s.Honest
  tallied : ∀ (i : ℕ) p, s.processes[i]? = some p → Tallied p
  exclusive : Exclusive cfg s.world s.books

variable {t : System} {mv : SystemMove}

theorem AssignInvariant.step (hs : AssignInvariant cfg s) (hp : Pool.OnCall (Unraced cfg) s mv)
    (h : System.step cfg s mv = .ok t) : AssignInvariant cfg t where
  honest := hs.honest.step h
  tallied := by
    have hboth : ∀ (i : ℕ) p, s.processes[i]? = some p →
        Pool.Honours bookkeeping (fun _ => {}) Books.settles p ∧ Tallied p :=
      fun i p hi => ⟨hs.honest i p hi,hs.tallied i p hi⟩
    intro i q hq
    refine (Pool.processes_invariant (J := fun p =>
      Pool.Honours bookkeeping (fun _ => {}) Books.settles p ∧ Tallied p)
      (fun kind => ⟨body_wp kind,Tallied.begin kind⟩) ?_ ?_ hboth h i q hq).2
    · rintro pid p op next r hcall hanswer ⟨hhonest,htallied⟩ -
      exact ⟨hhonest.advance hcall (Books.trusts_of_answers (b := Books.of p) hanswer),
        htallied.advance (hhonest.may hcall) _⟩
    · rintro pid₁ pid₂ p₁ p₂ op₁ op₂ next₁ next₂ r₁ r₂ hcall₁ hcall₂ hmeets ⟨hhonest₁,htallied₁⟩
        ⟨hhonest₂,htallied₂⟩ -
      obtain ⟨region,rfl,rfl⟩ := ops_of_meets hmeets
      exact ⟨⟨hhonest₁.advance hcall₁ trivial,htallied₁.advance (hhonest₁.may hcall₁) _⟩,
        hhonest₂.advance hcall₂ trivial,htallied₂.advance (hhonest₂.may hcall₂) _⟩
  exclusive := by
    refine hs.honest.invariant (fun _ _ => Exclusive.start) (fun _ _ e hi => hi.drift e) ?_ hs.exclusive hp h
    intro pid p op r _ hb hmay ha hu hi
    exact hi.act hb hmay ha hu

theorem AssignInvariant.assignedOnce (hs : AssignInvariant cfg s) : AssignedOnce cfg s where
  once := by
    intro i j p q id hi hj hij hp hq
    rw [(hs.tallied i p hi).returned, Option.mem_toList] at hp
    rw [(hs.tallied j q hj).returned, Option.mem_toList] at hq
    obtain ⟨m,hm,hid⟩ := (hs.tallied i p hi).answered id hp
    obtain ⟨m',hm',hid'⟩ := (hs.tallied j q hj).answered id hq
    exact hs.exclusive.distinct i j _ _ m m' (Pool.views_getElem? hi) (Pool.views_getElem? hj) hij hm hm'
      (hid.trans hid'.symm)
  limit := by
    intro userID
    have htaken : ∀ id ∈ s.allocatedIDs, ∃ b ∈ s.books, ∃ m, b.allocated = some m ∧ m.id = id := by
      intro id hid
      obtain ⟨p,hp,hid⟩ := List.mem_flatMap.mp hid
      obtain ⟨i,hi⟩ := List.mem_iff_getElem?.mp hp
      rw [(hs.tallied i p hi).allocations] at hid
      obtain ⟨m,hm,rfl⟩ := List.mem_map.mp hid
      exact ⟨Books.of p,List.mem_of_getElem? (Pool.views_getElem? hi),m,Option.mem_toList.mp hm,rfl⟩
    have hzero : (∀ row ∈ s.world.db.mandelboxes, row.userID = userID → row.id ∉ s.allocatedIDs) →
        s.createdActive userID = 0 := by
      intro hnone
      rw [System.createdActive, List.length_eq_zero_iff, List.filter_eq_nil_iff]
      intro row hrow hactive
      rw [Database.queryUserMandelboxes, List.mem_filter, decide_eq_true_iff] at hrow
      rw [decide_eq_true_iff] at hactive
      exact hnone row hrow.1 hrow.2 hactive.2
    by_cases huser : userID = ""
    · refine Or.inl (hzero (fun row hrow hrowuser hmem => ?_))
      obtain ⟨b,hb,m,hm,hid⟩ := htaken row.id hmem
      exact ((hs.exclusive.taken b hb m hm).2 row hrow hid.symm).2 (hrowuser.trans huser)
    · rcases hs.exclusive.limited userID huser with hle | hnone
      · exact Or.inr (le_trans (Nat.cast_le.mpr (createdActive_le s userID)) hle)
      · refine Or.inl (hzero (fun row hrow hrowuser hmem => ?_))
        obtain ⟨b,hb,m,hm,hid⟩ := htaken row.id hmem
        exact hnone row hrow hrowuser b hb m hm hid

/-- In a run in which no assign is raced, no mandelbox is given away twice and no user
gets more than the limit. -/
theorem assignedOnce_of_unraced (hw : w.Sound) {moves : List SystemMove}
    (hunraced : Run.EachOk (System.step cfg) (Pool.OnCall (Unraced cfg)) (System.initial w) moves)
    (hrun : Run.run (System.step cfg) (System.initial w) moves = .ok t) : AssignedOnce cfg t := by
  have hinit : AssignInvariant cfg (System.initial w) :=
    ⟨nofun,nofun,Exclusive.initial hw⟩
  exact (Run.EachOk.invariant (fun _ _ _ hs hp h => AssignInvariant.step hs hp h) hinit hunraced
    hrun).assignedOnce

def unraced (cfg : Settings) (s : System) : (op : Op) → Ans op → Bool
  | .updateMandelbox m, .ok _ =>
    decide ((∃ row ∈ s.world.db.mandelboxes, row.id = m.id ∧ row.status = .waiting) ∧
      (userActive s.world.db m.userID : ℤ) < cfg.mandelboxLimitPerUser)
  | .writeMandelboxStatus status id, .ok _ =>
    decide (∀ row ∈ s.world.db.mandelboxes, row.id = id → row.status = .dying → status = .dying)
  | _, _ => true

instance (cfg : Settings) (s : System) (p : Process Goroutine Op Ans) (op : Op) (r : Ans op) :
    Decidable (Unraced cfg s p op r) :=
  decidable_of_iff (unraced cfg s op r = true) (by cases op <;> cases r <;> simp [unraced, Unraced])

def oneAssign : List SystemMove :=
  .start (.mandelboxAssign "us-east-1" (oneRequest "user-1")) :: acts 0 9

theorem assignedOnce_of_unraced_oneAssign :
    ∃ t, Run.run (System.step oneRegion) (System.initial oneWorld) oneAssign = .ok t ∧
      t.allocatedIDs = ["mandelbox-1"] ∧ AssignedOnce oneRegion t := by
  have hunraced : Run.EachOk (System.step oneRegion) (Pool.OnCall (Unraced oneRegion))
      (System.initial oneWorld) oneAssign := by decide +kernel
  have hids : ((Run.run (System.step oneRegion) (System.initial oneWorld) oneAssign).toOption.map
      System.allocatedIDs) = some ["mandelbox-1"] := by decide +kernel
  cases hrun : Run.run (System.step oneRegion) (System.initial oneWorld) oneAssign with
  | error e =>
    rw [hrun] at hids
    cases hids
  | ok t =>
    rw [hrun] at hids
    exact ⟨t,rfl,Option.some.inj hids,assignedOnce_of_unraced oneWorld_sound hunraced hrun⟩

/-- Two requests that both read before either of them writes. -/
def racedAssigns (userID₁ userID₂ : String) : List SystemMove :=
  [.start (.mandelboxAssign "us-east-1" (oneRequest userID₁)),
    .start (.mandelboxAssign "us-east-1" (oneRequest userID₂))] ++ acts 0 6 ++ acts 1 6 ++ acts 0 3 ++ acts 1 3

/-- Two requests of one user, the second of which has counted the mandelboxes before the
first one marks its own. -/
def overLimitAssigns : List SystemMove :=
  [.start (.mandelboxAssign "us-east-1" (oneRequest "user-1")),
    .start (.mandelboxAssign "us-east-1" (oneRequest "user-1"))] ++ acts 1 1 ++ acts 0 9 ++ acts 1 8

theorem assignedOnce_fails :
    (∃ t, Run.run (System.step oneRegion) (System.initial oneWorld) (racedAssigns "user-1" "user-2") = .ok t ∧
        ¬AssignedOnce oneRegion t) ∧
      ∃ t, Run.run (System.step oneRegion) (System.initial oneWorld) overLimitAssigns = .ok t ∧
        t.createdActive "user-1" = 2 ∧ ¬AssignedOnce oneRegion t := by
  constructor
  · have hids : ((Run.run (System.step oneRegion) (System.initial oneWorld)
        (racedAssigns "user-1" "user-2")).toOption.map fun t => t.processes.map returnedIDs) =
        some [["mandelbox-1"],["mandelbox-1"]] := by decide +kernel
    cases hrun : Run.run (System.step oneRegion) (System.initial oneWorld)
        (racedAssigns "user-1" "user-2") with
    | error e =>
      rw [hrun] at hids
      cases hids
    | ok t =>
      rw [hrun] at hids
      have hids : t.processes.map returnedIDs = [["mandelbox-1"],["mandelbox-1"]] := Option.some.inj hids
      refine ⟨t,rfl,fun h => ?_⟩
      obtain ⟨p,q,hpq⟩ := List.length_eq_two.mp (by simpa using congrArg List.length hids)
      rw [hpq] at hids
      have hp : returnedIDs p = ["mandelbox-1"] := (List.cons.inj hids).1
      have hq : returnedIDs q = ["mandelbox-1"] := (List.cons.inj (List.cons.inj hids).2).1
      refine h.once 0 1 p q "mandelbox-1" (by rw [hpq]; rfl) (by rw [hpq]; rfl) (by decide) ?_ ?_
      · simp [hp]
      · simp [hq]
  · have hcount : ((Run.run (System.step oneRegion) (System.initial oneWorld)
        overLimitAssigns).toOption.map fun t => t.createdActive "user-1") = some 2 := by decide +kernel
    cases hrun : Run.run (System.step oneRegion) (System.initial oneWorld) overLimitAssigns with
    | error e =>
      rw [hrun] at hcount
      cases hcount
    | ok t =>
      rw [hrun] at hcount
      have hcount : t.createdActive "user-1" = 2 := Option.some.inj hcount
      refine ⟨t,rfl,hcount,fun h => ?_⟩
      rcases h.limit "user-1" with hzero | hle
      · rw [hcount] at hzero
        cases hzero
      · rw [hcount] at hle
        exact absurd hle (by decide)

end Whist.Scaling
