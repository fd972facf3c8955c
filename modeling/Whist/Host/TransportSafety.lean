import Whist.Host.ServiceSteps

/-! # The safety of the transport channels -/
namespace Whist.Host
open Channel

namespace Transport

def Closing (t : Transport) (a : ℕ) : Prop :=
  ∃ i r, t.transportMapLock = some i ∧ t.requests[i]? = some r ∧ r.handler = .close ∧
    t.transportRequestMap r.mandelboxID = some a

structure Inv (t : Transport) : Prop where
  lock : ∀ i r, t.requests[i]? = some r →
    (r.handler = .send ∨ r.handler = .close ↔ t.transportMapLock = some i)
  entry : ∀ id a, t.transportRequestMap id = some a →
    ∃ c : RequestChan, t.chans[a]? = some c ∧ c.mandelboxID = id
  holds : ∀ i, t.transportMapLock = some i → ∃ (r : JSONTransportRequest) (a : ℕ) (c : RequestChan),
    t.requests[i]? = some r ∧ t.transportRequestMap r.mandelboxID = some a ∧ t.chans[a]? = some c ∧
      c.chan.closed = false
  filled : ∀ (a : ℕ) (c : RequestChan), t.chans[a]? = some c → c.chan.closed = false → c.chan.buffer ≠ [] →
    t.Closing a
  sent : ∀ (a : ℕ) (c : RequestChan) (i : ℕ), t.chans[a]? = some c → c.late = false → i ∈ c.chan.buffer →
    t.first c.mandelboxID = some i
  fresh : ∀ (id : MandelboxID) (a : ℕ) (c : RequestChan), t.transportRequestMap id = some a → t.chans[a]? = some c →
    c.chan.closed = false → c.late = false → ¬t.Closing a → t.first id = none
  unused : ∀ id, t.transportRequestMap id = none → id ∉ t.dropped → t.first id = none
  late : ∀ (id : MandelboxID) (a : ℕ) (c : RequestChan), t.transportRequestMap id = some a → t.chans[a]? = some c →
    c.late = true → id ∈ t.dropped
  accepted : ∀ i ∈ t.accepted, i < t.requests.length

def Open (t : Transport) (id : MandelboxID) : Prop :=
  match t.entry id with
  | .error _ => True
  | .ok (_,c) => c.chan.closed = false

instance (t : Transport) (id : MandelboxID) : Decidable (t.Open id) :=
  match h : t.entry id with
  | .error _ => isTrue (by simp [Open, h])
  | .ok (_,c) => decidable_of_iff (c.chan.closed = false) (by simp [Open, h])

variable {t t' : Transport} {id : MandelboxID} {i a : ℕ} {r r' : JSONTransportRequest} {c : RequestChan}

theorem first_congr (haccepted : t'.accepted = t.accepted) (h : ∀ i ∈ t.accepted, t'.isFor id i = t.isFor id i) :
    t'.first id = t.first id := by
  unfold first
  rw [haccepted]
  exact List.find?_congr h

theorem isFor_set (hr : t.requests[i]? = some r) (hid : r'.mandelboxID = r.mandelboxID)
    (hset : t'.requests = t.requests.set i r') : t'.isFor = t.isFor := by
  funext id k
  unfold isFor
  rw [hset, Slots.getElem?_set_of_some hr]
  by_cases hk : k = i
  · rw [if_pos hk, hk, hr]
    simp [hid]
  · rw [if_neg hk]

theorem isFor_setHandler (hr : t.requests[i]? = some r) (pc : HandlerPC) :
    (t.setHandler i r pc).isFor = t.isFor :=
  isFor_set (hr) (show { r with handler := pc }.mandelboxID = r.mandelboxID from rfl) rfl

theorem isFor_request (hi : i < t.requests.length) (id id' : MandelboxID) :
    (t.request id').isFor id i = t.isFor id i := by
  unfold isFor request
  rw [List.getElem?_append_left hi]

theorem entry_of_map (hmap : t.transportRequestMap id = some a) (hchan : t.chans[a]? = some c) :
    t.entry id = .ok (a,c) := by
  rw [entry, hmap]
  dsimp only
  rw [hchan]

theorem empty_inv : Transport.empty.Inv where
  lock := fun i r h => by simp [empty] at h
  entry := fun id a h => by cases h
  holds := fun i h => by cases h
  filled := fun a c h => by simp [empty] at h
  sent := fun a c i h => by simp [empty] at h
  fresh := fun id a c h => by cases h
  unused := fun id _ _ => rfl
  late := fun id a c h => by cases h
  accepted := fun i h => by simp [empty] at h

theorem not_closing (hfree : t.transportMapLock = none) : ¬t.Closing a := by
  rintro ⟨i,r,hlock,-⟩
  rw [hfree] at hlock
  cases hlock

theorem Inv.request (h : t.Inv) (id : MandelboxID) : (t.request id).Inv := by
  have hold : ∀ (k : ℕ) (q : JSONTransportRequest), t.requests[k]? = some q →
      (t.request id).requests[k]? = some q := fun k q hk => Slots.concat_old hk _
  have hfirst : ∀ id', (t.request id).first id' = t.first id' := fun id' =>
    first_congr rfl (fun k hk => isFor_request (h.accepted k hk) id' id)
  have hclosing : ∀ a, t.Closing a → (t.request id).Closing a := fun a ⟨k,q,hlock,hk,hrest⟩ =>
    ⟨k,q,hlock,hold k q hk,hrest⟩
  constructor
  · refine Slots.forall_concat ⟨by simp,fun hlock => ?_⟩ h.lock
    obtain ⟨r,a,c,hr,-⟩ := h.holds _ hlock
    exact absurd (Slots.lt_of_some hr) (lt_irrefl _)
  · exact h.entry
  · intro k hk
    obtain ⟨r,a,c,hr,hrest⟩ := h.holds k hk
    exact ⟨r,a,c,hold k r hr,hrest⟩
  · exact fun a c hc hopen hfilled => hclosing a (h.filled a c hc hopen hfilled)
  · intro a c i hc hlate hi
    rw [hfirst]
    exact h.sent a c i hc hlate hi
  · intro id' a c hmap hc hopen hlate hnot
    rw [hfirst]
    exact h.fresh id' a c hmap hc hopen hlate (fun hcl => hnot (hclosing a hcl))
  · intro id' hmap hdropped
    rw [hfirst]
    exact h.unused id' hmap hdropped
  · exact h.late
  · intro k hk
    have := h.accepted k hk
    simp only [Transport.request, List.length_append, List.length_singleton]
    omega

theorem Inv.make (h : t.Inv) (hfree : t.transportMapLock = none) (hnone : t.transportRequestMap id = none) :
    (t.make id).Inv := by
  have hmap : ∀ id' a, (t.make id).transportRequestMap id' = some a →
      id' = id ∧ a = t.chans.length ∨ id' ≠ id ∧ t.transportRequestMap id' = some a := by
    intro id' a ha
    by_cases hid : id' = id
    · subst hid
      simp only [Transport.make, Function.update_self, Option.some.injEq] at ha
      exact Or.inl ⟨rfl,ha.symm⟩
    · simp only [Transport.make, Function.update_of_ne hid] at ha
      exact Or.inr ⟨hid,ha⟩
  have hlt : ∀ id' a, t.transportRequestMap id' = some a → a < t.chans.length := by
    intro id' a ha
    obtain ⟨c,hc,-⟩ := h.entry id' a ha
    exact Slots.lt_of_some hc
  have hnew : (t.make id).chans[t.chans.length]? = some ⟨id,id ∈ t.dropped,.make⟩ :=
    List.getElem?_concat_length
  constructor
  · exact h.lock
  · intro id' a ha
    rcases hmap id' a ha with ⟨rfl,rfl⟩ | ⟨-,ha⟩
    · exact ⟨_,hnew,rfl⟩
    · obtain ⟨c,hc,hid⟩ := h.entry id' a ha
      exact ⟨c,Slots.concat_old hc _,hid⟩
  · intro k hk
    change t.transportMapLock = some k at hk
    rw [hfree] at hk
    cases hk
  · intro a c hc hopen hfilled
    rcases Slots.concat_cases hc with hc | ⟨rfl,rfl⟩
    · exact absurd (h.filled a c hc hopen hfilled) (not_closing hfree)
    · exact absurd rfl hfilled
  · intro a c i hc hlate hi
    rcases Slots.concat_cases hc with hc | ⟨rfl,rfl⟩
    · exact h.sent a c i hc hlate hi
    · exact absurd hi List.not_mem_nil
  · intro id' a c ha hc hopen hlate hnot
    rcases hmap id' a ha with ⟨rfl,rfl⟩ | ⟨-,ha⟩
    · rw [hnew, Option.some.injEq] at hc
      subst hc
      exact h.unused id' hnone (by simpa using hlate)
    · rcases Slots.concat_cases hc with hc | ⟨rfl,-⟩
      · exact h.fresh id' a c ha hc hopen hlate (not_closing hfree)
      · exact absurd (hlt id' _ ha) (lt_irrefl _)
  · intro id' ha hdropped
    by_cases hid : id' = id
    · subst hid
      exact h.unused id' hnone hdropped
    · simp only [Transport.make, Function.update_of_ne hid] at ha
      exact h.unused id' ha hdropped
  · intro id' a c ha hc hlate
    rcases hmap id' a ha with ⟨rfl,rfl⟩ | ⟨-,ha⟩
    · rw [hnew, Option.some.injEq] at hc
      subst hc
      exact of_decide_eq_true hlate
    · rcases Slots.concat_cases hc with hc | ⟨rfl,-⟩
      · exact h.late id' a c ha hc hlate
      · exact absurd (hlt id' _ ha) (lt_irrefl _)
  · exact h.accepted

theorem Inv.lock_taken (h : t.Inv) (hfree : t.transportMapLock = none) (hr : t.requests[i]? = some r)
    (hmap : t.transportRequestMap r.mandelboxID = some a) (hc : t.chans[a]? = some c)
    (hopen : c.chan.closed = false) :
    Inv { t.setHandler i r .send with transportMapLock := some i } := by
  have hfirst : ∀ id, first { t.setHandler i r .send with transportMapLock := some i } id = t.first id :=
    fun id => first_congr rfl (fun k _ => congrFun (congrFun (isFor_setHandler hr .send) id) k)
  have hclosing : ∀ b, ¬Closing { t.setHandler i r .send with transportMapLock := some i } b := by
    rintro b ⟨k,q,hlock,hk,hpc,-⟩
    cases hlock
    rcases Slots.set_cases hk with ⟨-,rfl⟩ | ⟨hne,-⟩
    · cases hpc
    · exact hne rfl
  constructor
  · refine Slots.forall_set ⟨fun _ => rfl,fun _ => Or.inl rfl⟩ (fun k q hne hk => ?_)
    have hnot := h.lock k q hk
    rw [hfree] at hnot
    exact ⟨fun hpc => absurd (hnot.mp hpc) (by simp),fun hlock => absurd (Option.some.inj hlock).symm hne⟩
  · exact h.entry
  · rintro k hk
    cases hk
    exact ⟨_,a,c,Slots.set_self hr _,hmap,hc,hopen⟩
  · exact fun b d hd hopen' hfilled => absurd (h.filled b d hd hopen' hfilled) (not_closing hfree)
  · intro b d k hd hlate hk
    rw [hfirst]
    exact h.sent b d k hd hlate hk
  · intro id b d hb hd hopen' hlate _
    rw [hfirst]
    exact h.fresh id b d hb hd hopen' hlate (not_closing hfree)
  · intro id hnone hdropped
    rw [hfirst]
    exact h.unused id hnone hdropped
  · exact h.late
  · intro k hk
    have := h.accepted k hk
    simpa [setHandler] using this

theorem first_append (id : MandelboxID) (t : Transport) (k : ℕ) :
    first { t with accepted := t.accepted ++ [k] } id =
      (t.first id).or (if t.isFor id k then some k else none) := by
  change (t.accepted ++ [k]).find? (t.isFor id) = _
  rw [List.find?_append, List.find?_singleton]
  rfl

theorem Inv.send (h : t.Inv) (hr : t.requests[i]? = some r) (hpc : r.handler = .send)
    (hmap : t.transportRequestMap r.mandelboxID = some a) (hc : t.chans[a]? = some c) {chan : Chan ℕ 1}
    (hsend : c.chan.send i = .ok chan) :
    Inv { (t.setChan a c chan).setHandler i r .close with accepted := t.accepted ++ [i] } := by
  obtain ⟨hopen,hopen',hbuffer⟩ := Chan.send_ok hsend
  have hlock : t.transportMapLock = some i := (h.lock i r hr).mp (Or.inl hpc)
  have hnot : ∀ b, ¬t.Closing b := by
    rintro b ⟨k,q,hk,hq,hqpc,-⟩
    rw [hlock, Option.some.injEq] at hk
    subst hk
    rw [hr, Option.some.injEq] at hq
    rw [← hq, hpc] at hqpc
    cases hqpc
  have hempty : c.chan.buffer = [] := by
    by_contra hne
    exact hnot a (h.filled a c hc hopen hne)
  obtain ⟨d,hd,hid⟩ := h.entry _ a hmap
  rw [hc, Option.some.injEq] at hd
  subst hd
  have hclosing : ∀ b, Closing { (t.setChan a c chan).setHandler i r .close with
      accepted := t.accepted ++ [i] } b ↔ b = a := by
    intro b
    constructor
    · rintro ⟨k,q,hk,hq,-,hb⟩
      rw [show k = i from Option.some.inj (hk.symm.trans hlock)] at hq
      obtain rfl : { r with handler := HandlerPC.close } = q := Option.some.inj ((Slots.set_self hr _).symm.trans hq)
      exact Option.some.inj (hb.symm.trans hmap)
    · rintro rfl
      exact ⟨i,_,hlock,Slots.set_self hr _,rfl,hmap⟩
  have hisFor : isFor { (t.setChan a c chan).setHandler i r .close with accepted := t.accepted ++ [i] } = t.isFor :=
    isFor_setHandler hr .close
  have hfirst : ∀ id, first { (t.setChan a c chan).setHandler i r .close with
      accepted := t.accepted ++ [i] } id = (t.first id).or (if r.mandelboxID = id then some i else none) := by
    intro id
    unfold first
    rw [hisFor]
    refine (first_append id t i).trans ?_
    simp only [isFor, hr, decide_eq_true_eq]
    rfl
  have hkeeps : ∀ id k, t.first id = some k → first { (t.setChan a c chan).setHandler i r .close with
      accepted := t.accepted ++ [i] } id = some k := by
    intro id k hk
    rw [hfirst, hk]
    rfl
  constructor
  · refine Slots.forall_set ⟨fun _ => hlock,fun _ => Or.inr rfl⟩ (fun k q _ hk => h.lock k q hk)
  · intro id b hb
    obtain ⟨d,hd,hdid⟩ := h.entry id b hb
    by_cases hba : b = a
    · subst hba
      rw [hc, Option.some.injEq] at hd
      exact ⟨_,Slots.set_self hc _,hd ▸ hdid⟩
    · exact ⟨d,Slots.set_other hd hba,hdid⟩
  · intro k hk
    rw [show k = i from Option.some.inj (hk.symm.trans hlock)]
    exact ⟨_,a,_,Slots.set_self hr _,hmap,Slots.set_self hc _,hopen'⟩
  · intro b d hd hdopen hfilled
    rcases Slots.set_cases hd with ⟨rfl,-⟩ | ⟨-,hd⟩
    · exact (hclosing b).mpr rfl
    · exact absurd (h.filled b d hd hdopen hfilled) (hnot b)
  · intro b d k hd hlate hk
    rcases Slots.set_cases hd with ⟨rfl,rfl⟩ | ⟨-,hd⟩
    · rw [hbuffer, hempty, List.nil_append, List.mem_singleton] at hk
      subst hk
      rw [hfirst, hid, h.fresh _ b c hmap hc hopen hlate (hnot b), if_pos rfl]
      rfl
    · exact hkeeps _ _ (h.sent b d k hd hlate hk)
  · intro id b d hb hd hdopen hlate hnotb
    have hba : b ≠ a := fun hba => hnotb ((hclosing b).mpr hba)
    rcases Slots.set_cases hd with ⟨rfl,-⟩ | ⟨-,hd⟩
    · exact absurd rfl hba
    · have hne : r.mandelboxID ≠ id := by
        rintro rfl
        exact hba (Option.some.inj (hb.symm.trans hmap))
      rw [hfirst, h.fresh id b d hb hd hdopen hlate (hnot b), if_neg hne]
      rfl
  · intro id hnone hdropped
    have hne : r.mandelboxID ≠ id := by
      rintro rfl
      change t.transportRequestMap r.mandelboxID = none at hnone
      rw [hmap] at hnone
      cases hnone
    rw [hfirst, h.unused id hnone hdropped, if_neg hne]
    rfl
  · intro id b d hb hd hlate
    rcases Slots.set_cases hd with ⟨rfl,rfl⟩ | ⟨-,hd⟩
    · exact h.late id b c hb hc hlate
    · exact h.late id b d hb hd hlate
  · intro k hk
    have hlength : k < t.requests.length := by
      rcases List.mem_append.mp hk with hk | hk
      · exact h.accepted k hk
      · rw [List.mem_singleton.mp hk]
        exact Slots.lt_of_some hr
    simpa [setHandler, setChan] using hlength

theorem Inv.close (h : t.Inv) (hr : t.requests[i]? = some r) (hpc : r.handler = .close)
    (hmap : t.transportRequestMap r.mandelboxID = some a) (hc : t.chans[a]? = some c) {chan : Chan ℕ 1}
    (hclose : c.chan.close = .ok chan) :
    Inv { (t.setChan a c chan).setHandler i r .returned with transportMapLock := none } := by
  obtain ⟨hopen,hclosed,hbuffer⟩ := Chan.close_ok hclose
  have hlock : t.transportMapLock = some i := (h.lock i r hr).mp (Or.inr hpc)
  have hclosing : ∀ b, t.Closing b → b = a := by
    rintro b ⟨k,q,hk,hq,-,hb⟩
    rw [show k = i from Option.some.inj (hk.symm.trans hlock), hr, Option.some.injEq] at hq
    subst hq
    exact Option.some.inj (hb.symm.trans hmap)
  have hfirst : ∀ id, first { (t.setChan a c chan).setHandler i r .returned with
      transportMapLock := none } id = t.first id :=
    fun id => first_congr rfl (fun k _ => congrFun (congrFun (isFor_setHandler hr .returned) id) k)
  have hopen' : ∀ (b : ℕ) (d : RequestChan), (t.chans.set a { c with chan := chan })[b]? = some d →
      d.chan.closed = false → b ≠ a ∧ t.chans[b]? = some d := by
    intro b d hd hdopen
    rcases Slots.set_cases hd with ⟨rfl,rfl⟩ | hd
    · rw [hclosed] at hdopen
      cases hdopen
    · exact hd
  constructor
  · refine Slots.forall_set ⟨by simp,fun hk => by cases hk⟩ (fun k q hne hk => ?_)
    refine ⟨fun hq => ?_,fun hq => by cases hq⟩
    exact absurd (Option.some.inj (((h.lock k q hk).mp hq).symm.trans hlock)) hne
  · intro id b hb
    obtain ⟨d,hd,hdid⟩ := h.entry id b hb
    by_cases hba : b = a
    · subst hba
      rw [hc, Option.some.injEq] at hd
      exact ⟨_,Slots.set_self hc _,hd ▸ hdid⟩
    · exact ⟨d,Slots.set_other hd hba,hdid⟩
  · rintro k hk
    cases hk
  · intro b d hd hdopen hfilled
    obtain ⟨hne,hd⟩ := hopen' b d hd hdopen
    exact absurd (hclosing b (h.filled b d hd hdopen hfilled)) hne
  · intro b d k hd hlate hk
    rw [hfirst]
    rcases Slots.set_cases hd with ⟨rfl,rfl⟩ | ⟨-,hd⟩
    · exact h.sent b c k hc hlate (hbuffer ▸ hk)
    · exact h.sent b d k hd hlate hk
  · intro id b d hb hd hdopen hlate _
    rw [hfirst]
    obtain ⟨hne,hd⟩ := hopen' b d hd hdopen
    exact h.fresh id b d hb hd hdopen hlate (fun hcl => hne (hclosing b hcl))
  · intro id hnone hdropped
    rw [hfirst]
    exact h.unused id hnone hdropped
  · intro id b d hb hd hlate
    rcases Slots.set_cases hd with ⟨rfl,rfl⟩ | ⟨-,hd⟩
    · exact h.late id b c hb hc hlate
    · exact h.late id b d hb hd hlate
  · intro k hk
    simpa [setHandler, setChan] using h.accepted k hk

theorem Inv.received (h : t.Inv) (hc : t.chans[a]? = some c) {chan : Chan ℕ 1}
    (hclosed : chan.closed = c.chan.closed) (hbuffer : ∀ k ∈ chan.buffer, k ∈ c.chan.buffer) :
    (t.setChan a c chan).Inv := by
  have hget : ∀ (b : ℕ) (d : RequestChan), (t.setChan a c chan).chans[b]? = some d →
      ∃ e : RequestChan, t.chans[b]? = some e ∧ e.mandelboxID = d.mandelboxID ∧ e.late = d.late ∧
        d.chan.closed = e.chan.closed ∧ ∀ k ∈ d.chan.buffer, k ∈ e.chan.buffer := by
    intro b d hd
    rcases Slots.set_cases hd with ⟨rfl,rfl⟩ | ⟨-,hd⟩
    · exact ⟨c,hc,rfl,rfl,hclosed,hbuffer⟩
    · exact ⟨d,hd,rfl,rfl,rfl,fun _ hk => hk⟩
  have hset : ∀ (b : ℕ) (d : RequestChan), t.chans[b]? = some d →
      ∃ e : RequestChan, (t.setChan a c chan).chans[b]? = some e ∧ e.mandelboxID = d.mandelboxID ∧
        e.chan.closed = d.chan.closed := by
    intro b d hd
    by_cases hba : b = a
    · subst hba
      rw [hc, Option.some.injEq] at hd
      subst hd
      exact ⟨_,Slots.set_self hc _,rfl,hclosed⟩
    · exact ⟨d,Slots.set_other hd hba,rfl,rfl⟩
  constructor
  · exact h.lock
  · intro id b hb
    obtain ⟨d,hd,hid⟩ := h.entry id b hb
    obtain ⟨e,he,heid,-⟩ := hset b d hd
    exact ⟨e,he,heid.trans hid⟩
  · intro k hk
    obtain ⟨r,b,d,hr,hb,hd,hopen⟩ := h.holds k hk
    obtain ⟨e,he,-,heopen⟩ := hset b d hd
    exact ⟨r,b,e,hr,hb,he,heopen.trans hopen⟩
  · intro b d hd hopen hfilled
    obtain ⟨e,he,-,-,hec,hebuffer⟩ := hget b d hd
    refine h.filled b e he (hec ▸ hopen) (fun hempty => hfilled ?_)
    exact List.eq_nil_iff_forall_not_mem.mpr (fun k hk => by simpa [hempty] using hebuffer k hk)
  · intro b d k hd hlate hk
    obtain ⟨e,he,heid,helate,-,hebuffer⟩ := hget b d hd
    rw [← heid]
    exact h.sent b e k he (helate.trans hlate) (hebuffer k hk)
  · intro id b d hb hd hopen hlate hnot
    obtain ⟨e,he,-,helate,hec,-⟩ := hget b d hd
    exact h.fresh id b e hb he (hec ▸ hopen) (helate.trans hlate) hnot
  · exact h.unused
  · intro id b d hb hd hlate
    obtain ⟨e,he,-,helate,-⟩ := hget b d hd
    exact h.late id b e hb he (helate.trans hlate)
  · exact h.accepted

theorem Inv.reset (h : t.Inv) (hreset : t.reset id = .ok t') : t'.Inv := by
  unfold Transport.reset at hreset
  by_cases hlock : t.transportMapLock.isSome
  · rw [if_pos hlock] at hreset
    cases hreset
  rw [if_neg hlock] at hreset
  cases hreset
  have hfree : t.transportMapLock = none := by simpa using hlock
  have hmap : ∀ id' a, Function.update t.transportRequestMap id none id' = some a →
      t.transportRequestMap id' = some a := by
    intro id' a ha
    rw [Function.update_apply] at ha
    split_ifs at ha
    exact ha
  have hdropped : ∀ id', id' ∈ t.dropped →
      id' ∈ if t.accepted.any (t.isFor id) then id :: t.dropped else t.dropped := by
    intro id' hid'
    split_ifs
    · exact List.mem_cons_of_mem _ hid'
    · exact hid'
  constructor
  · exact h.lock
  · exact fun id' a ha => h.entry id' a (hmap id' a ha)
  · intro k hk
    change t.transportMapLock = some k at hk
    rw [hfree] at hk
    cases hk
  · exact fun a c hc hopen hfilled => absurd (h.filled a c hc hopen hfilled) (not_closing hfree)
  · exact h.sent
  · exact fun id' a c ha hc hopen hlate _ =>
      h.fresh id' a c (hmap id' a ha) hc hopen hlate (not_closing hfree)
  · intro id' hnone hnot
    change t.first id' = none
    by_cases hid : id' = id
    · subst hid
      refine List.find?_eq_none.mpr (fun k hk hfor => hnot ?_)
      change id' ∈ if t.accepted.any (t.isFor id') then id' :: t.dropped else t.dropped
      rw [if_pos (List.any_eq_true.mpr ⟨k,hk,hfor⟩)]
      exact List.mem_cons_self
    · refine h.unused id' ?_ (fun hid' => hnot (hdropped id' hid'))
      simpa [Function.update_of_ne hid] using hnone
  · exact fun id' a c ha hc hlate => hdropped id' (h.late id' a c (hmap id' a ha) hc hlate)
  · exact h.accepted

theorem Inv.returnResult (h : t.Inv) (i : ℕ) (result : JSONTransportRequestResult) :
    (t.returnResult i result).Inv := by
  unfold Transport.returnResult
  split
  · exact h
  case h_2 r hr =>
    have hget : ∀ (k : ℕ) (q : JSONTransportRequest),
        (t.requests.set i { r with results := r.results ++ [result] })[k]? = some q →
          ∃ p : JSONTransportRequest, t.requests[k]? = some p ∧ p.mandelboxID = q.mandelboxID ∧
            p.handler = q.handler := by
      intro k q hk
      rcases Slots.set_cases hk with ⟨rfl,rfl⟩ | ⟨-,hk⟩
      · exact ⟨r,hr,rfl,rfl⟩
      · exact ⟨q,hk,rfl,rfl⟩
    have hset : ∀ (k : ℕ) (q : JSONTransportRequest), t.requests[k]? = some q →
        ∃ p : JSONTransportRequest,
          (t.requests.set i { r with results := r.results ++ [result] })[k]? = some p ∧
            p.mandelboxID = q.mandelboxID ∧ p.handler = q.handler := by
      intro k q hk
      by_cases hki : k = i
      · subst hki
        rw [hr, Option.some.injEq] at hk
        subst hk
        exact ⟨_,Slots.set_self hr _,rfl,rfl⟩
      · exact ⟨q,Slots.set_other hk hki,rfl,rfl⟩
    have hisFor : isFor { t with requests := t.requests.set i { r with results := r.results ++ [result] } } =
        t.isFor :=
      isFor_set hr (show { r with results := r.results ++ [result] }.mandelboxID = r.mandelboxID from rfl) rfl
    have hfirst : ∀ id, first { t with
        requests := t.requests.set i { r with results := r.results ++ [result] } } id = t.first id :=
      fun id => first_congr rfl (fun k _ => congrFun (congrFun hisFor id) k)
    have hclosing : ∀ a, t.Closing a → Closing { t with
        requests := t.requests.set i { r with results := r.results ++ [result] } } a := by
      rintro a ⟨k,q,hlock,hq,hpc,hmap⟩
      obtain ⟨p,hp,hpid,hppc⟩ := hset k q hq
      exact ⟨k,p,hlock,hp,hppc.trans hpc,by rw [hpid]; exact hmap⟩
    constructor
    · intro k q hk
      obtain ⟨p,hp,-,hpc⟩ := hget k q hk
      rw [← hpc]
      exact h.lock k p hp
    · exact h.entry
    · intro k hk
      obtain ⟨q,a,c,hq,hmap,hrest⟩ := h.holds k hk
      obtain ⟨p,hp,hpid,-⟩ := hset k q hq
      exact ⟨p,a,c,hp,by rw [hpid]; exact hmap,hrest⟩
    · exact fun a c hc hopen hfilled => hclosing a (h.filled a c hc hopen hfilled)
    · intro a c k hc hlate hk
      rw [hfirst]
      exact h.sent a c k hc hlate hk
    · intro id a c ha hc hopen hlate hnot
      rw [hfirst]
      exact h.fresh id a c ha hc hopen hlate (fun hcl => hnot (hclosing a hcl))
    · intro id hnone hdropped
      rw [hfirst]
      exact h.unused id hnone hdropped
    · exact h.late
    · intro k hk
      simpa using h.accepted k hk

end Transport

end Whist.Host
