import Whist.Foundation.Run
import Whist.Host.TransportSafety

/-! # One request for every spin-up -/
namespace Whist.Host
open Channel

structure Delivers (t : Transport) (finishes : List Finish) : Prop where
  drained : ∀ (a : ℕ) (c : RequestChan), t.chans[a]? = some c → c.late = false →
    c.chan.closed = true ∨ t.Closing a → c.chan.buffer = [] →
      ∃ (k : ℕ) (f : Finish), finishes[k]? = some f ∧ f.mandelboxID = c.mandelboxID ∧ f.req ≠ none
  awaits : ∀ (k : ℕ) (f : Finish), finishes[k]? = some f → f.pc.awaits → f.req = none
  proceeds : ∀ (k : ℕ) (f : Finish), finishes[k]? = some f → f.pc.proceeds → f.req ≠ none
  first : ∀ (k : ℕ) (f : Finish), finishes[k]? = some f → ∀ i, f.req = some i →
    t.first f.mandelboxID = some i
  receives : ∀ (k : ℕ) (f : Finish), finishes[k]? = some f → ∀ m ports a, f.pc = .receive m ports a →
    ∃ c : RequestChan, t.chans[a]? = some c ∧ c.mandelboxID = f.mandelboxID ∧ c.late = false

namespace Delivers
variable {t t' : Transport} {finishes : List Finish} {i j a : ℕ} {f f' : Finish} {r : JSONTransportRequest}
  {c : RequestChan} {id : MandelboxID}

theorem transport (h : Delivers t finishes)
    (hdrained : ∀ (a : ℕ) (c' : RequestChan), t'.chans[a]? = some c' → c'.late = false →
      c'.chan.closed = true ∨ t'.Closing a → c'.chan.buffer = [] →
        ∃ c : RequestChan, t.chans[a]? = some c ∧ c.late = false ∧ c.mandelboxID = c'.mandelboxID ∧
          (c.chan.closed = true ∨ t.Closing a) ∧ c.chan.buffer = [])
    (hfirst : ∀ id i, t.first id = some i → t'.first id = some i)
    (hchans : ∀ (a : ℕ) (c : RequestChan), t.chans[a]? = some c →
      ∃ c' : RequestChan, t'.chans[a]? = some c' ∧ c'.mandelboxID = c.mandelboxID ∧ c'.late = c.late) :
    Delivers t' finishes where
  drained := by
    intro a c' hc' hlate hclosed hempty
    obtain ⟨c,hc,hclate,hid,hcclosed,hcempty⟩ := hdrained a c' hc' hlate hclosed hempty
    rw [← hid]
    exact h.drained a c hc hclate hcclosed hcempty
  awaits := h.awaits
  proceeds := h.proceeds
  first := fun k f hf i hi => hfirst _ i (h.first k f hf i hi)
  receives := by
    intro k f hf m ports a hpc
    obtain ⟨c,hc,hid,hlate⟩ := h.receives k f hf m ports a hpc
    obtain ⟨c',hc',hid',hlate'⟩ := hchans a c hc
    exact ⟨c',hc',hid'.trans hid,hlate'.trans hlate⟩

theorem keep (h : Delivers t finishes) (hchans : t'.chans = t.chans) (hclosing : ∀ a, t'.Closing a → t.Closing a)
    (hfirst : ∀ id, t'.first id = t.first id) : Delivers t' finishes :=
  h.transport
    (fun a c hc hlate hclosed hempty => ⟨c,hchans ▸ hc,hlate,rfl,hclosed.imp id (hclosing a),hempty⟩)
    (fun id _ hi => (hfirst id).trans hi) (fun _ c hc => ⟨c,hchans ▸ hc,rfl,rfl⟩)

theorem request (h : Delivers t finishes) (hinv : t.Inv) (id : MandelboxID) :
    Delivers (t.request id) finishes := by
  refine h.keep rfl ?_ ?_
  · rintro a ⟨k,q,hlock,hk,hpc,hmap⟩
    rcases Slots.concat_cases hk with hk | ⟨-,rfl⟩
    · exact ⟨k,q,hlock,hk,hpc,hmap⟩
    · cases hpc
  · intro id'
    exact Transport.first_congr rfl (fun k hk => Transport.isFor_request (hinv.accepted k hk) id' id)

theorem make (h : Delivers t finishes) (hfree : t.transportMapLock = none) (id : MandelboxID) :
    Delivers (t.make id) finishes := by
  refine h.transport ?_ (fun _ _ hi => hi) (fun a c hc => ⟨c,Slots.concat_old hc _,rfl,rfl⟩)
  intro a c hc hlate hclosed hempty
  have hnot : ¬(t.make id).Closing a := Transport.not_closing hfree
  rcases Slots.concat_cases hc with hc | ⟨rfl,rfl⟩
  · exact ⟨c,hc,hlate,rfl,hclosed.imp_right (fun hcl => absurd hcl hnot),hempty⟩
  · rcases hclosed with hclosed | hcl
    · cases hclosed
    · exact absurd hcl hnot

theorem lock_taken (h : Delivers t finishes) (hr : t.requests[i]? = some r) :
    Delivers { t.setHandler i r .send with transportMapLock := some i } finishes := by
  refine h.keep rfl ?_ ?_
  · rintro b ⟨k,q,hlock,hk,hpc,-⟩
    cases hlock
    rcases Slots.set_cases hk with ⟨-,rfl⟩ | ⟨hne,-⟩
    · cases hpc
    · exact absurd rfl hne
  · exact fun id => Transport.first_congr rfl
      (fun k _ => congrFun (congrFun (Transport.isFor_setHandler hr .send) id) k)

theorem send (h : Delivers t finishes) (hinv : t.Inv) (hr : t.requests[i]? = some r) (hpc : r.handler = .send)
    (hmap : t.transportRequestMap r.mandelboxID = some a) (hc : t.chans[a]? = some c) {chan : Chan ℕ 1}
    (hsend : c.chan.send i = .ok chan) :
    Delivers { (t.setChan a c chan).setHandler i r .close with accepted := t.accepted ++ [i] } finishes := by
  obtain ⟨-,-,hbuffer⟩ := Chan.send_ok hsend
  have hlock : t.transportMapLock = some i := (hinv.lock i r hr).mp (Or.inl hpc)
  refine h.transport ?_ ?_ ?_
  · intro b d hd hlate hclosed hempty
    rcases Slots.set_cases hd with ⟨-,rfl⟩ | ⟨hne,hd⟩
    · rw [hbuffer] at hempty
      simp at hempty
    · refine ⟨d,hd,hlate,rfl,hclosed.imp_right ?_,hempty⟩
      rintro ⟨k,q,hk,hq,-,hb⟩
      rw [show k = i from Option.some.inj (hk.symm.trans hlock)] at hq
      obtain rfl : { r with handler := HandlerPC.close } = q :=
        Option.some.inj ((Slots.set_self hr _).symm.trans hq)
      exact absurd (Option.some.inj (hb.symm.trans hmap)) hne
  · intro id k hk
    unfold Transport.first at hk ⊢
    change List.find? _ (t.accepted ++ [i]) = _
    rw [show Transport.isFor { (t.setChan a c chan).setHandler i r .close with
      accepted := t.accepted ++ [i] } = t.isFor from Transport.isFor_setHandler hr .close,
      List.find?_append, hk]
    rfl
  · intro b d hd
    by_cases hba : b = a
    · subst hba
      rw [hc, Option.some.injEq] at hd
      subst hd
      exact ⟨_,Slots.set_self hc _,rfl,rfl⟩
    · exact ⟨d,Slots.set_other hd hba,rfl,rfl⟩

theorem close (h : Delivers t finishes) (hinv : t.Inv) (hr : t.requests[i]? = some r) (hpc : r.handler = .close)
    (hmap : t.transportRequestMap r.mandelboxID = some a) (hc : t.chans[a]? = some c) {chan : Chan ℕ 1}
    (hclose : c.chan.close = .ok chan) :
    Delivers { (t.setChan a c chan).setHandler i r .returned with transportMapLock := none } finishes := by
  obtain ⟨-,-,hbuffer⟩ := Chan.close_ok hclose
  have hlock : t.transportMapLock = some i := (hinv.lock i r hr).mp (Or.inr hpc)
  refine h.transport ?_ ?_ ?_
  · intro b d hd hlate hclosed hempty
    have hnot := Transport.not_closing (t := { (t.setChan a c chan).setHandler i r .returned with
      transportMapLock := none }) (a := b) rfl
    rcases Slots.set_cases hd with ⟨rfl,rfl⟩ | ⟨-,hd⟩
    · exact ⟨c,hc,hlate,rfl,Or.inr ⟨i,r,hlock,hr,hpc,hmap⟩,hbuffer ▸ hempty⟩
    · exact ⟨d,hd,hlate,rfl,hclosed.imp_right (fun hcl => absurd hcl hnot),hempty⟩
  · intro id k hk
    rw [← hk]
    exact Transport.first_congr rfl
      (fun k _ => congrFun (congrFun (Transport.isFor_setHandler hr .returned) id) k)
  · intro b d hd
    by_cases hba : b = a
    · subst hba
      rw [hc, Option.some.injEq] at hd
      subst hd
      exact ⟨_,Slots.set_self hc _,rfl,rfl⟩
    · exact ⟨d,Slots.set_other hd hba,rfl,rfl⟩

theorem reset (h : Delivers t finishes) (hreset : t.reset id = .ok t') : Delivers t' finishes := by
  unfold Transport.reset at hreset
  by_cases hlock : t.transportMapLock.isSome
  · rw [if_pos hlock] at hreset
    cases hreset
  rw [if_neg hlock] at hreset
  cases hreset
  refine h.keep rfl (fun a hcl => absurd hcl (Transport.not_closing ?_)) (fun _ => rfl)
  simpa using hlock

theorem returnResult (h : Delivers t finishes) (i : ℕ) (result : JSONTransportRequestResult) :
    Delivers (t.returnResult i result) finishes := by
  unfold Transport.returnResult
  split
  · exact h
  case h_2 r hr =>
    refine h.keep rfl ?_ ?_
    · rintro a ⟨k,q,hlock,hk,hpc,hmap⟩
      rcases Slots.set_cases hk with ⟨rfl,rfl⟩ | ⟨-,hk⟩
      · exact ⟨k,r,hlock,hr,hpc,hmap⟩
      · exact ⟨k,q,hlock,hk,hpc,hmap⟩
    · intro id
      refine Transport.first_congr rfl (fun k _ => congrFun (congrFun ?_ id) k)
      exact Transport.isFor_set hr
        (show { r with results := r.results ++ [result] }.mandelboxID = r.mandelboxID from rfl) rfl

theorem setFinish (h : Delivers t finishes) (hj : finishes[j]? = some f) (hid : f'.mandelboxID = f.mandelboxID)
    (hreq : f'.req = f.req) (hawaits : f'.pc.awaits → f.pc.awaits) (hproceeds : f'.pc.proceeds → f.pc.proceeds)
    (hreceives : ∀ m ports a, f'.pc = .receive m ports a →
      ∃ c : RequestChan, t.chans[a]? = some c ∧ c.mandelboxID = f.mandelboxID ∧ c.late = false) :
    Delivers t (finishes.set j f') where
  drained := by
    intro a c hc hlate hclosed hempty
    obtain ⟨k,g,hg,hgid,hgreq⟩ := h.drained a c hc hlate hclosed hempty
    by_cases hk : k = j
    · subst hk
      rw [hj, Option.some.injEq] at hg
      subst hg
      exact ⟨k,f',Slots.set_self hj _,hid.trans hgid,by rw [hreq]; exact hgreq⟩
    · exact ⟨k,g,Slots.set_other hg hk,hgid,hgreq⟩
  awaits := Slots.forall_set (fun hpc => hreq.trans (h.awaits j f hj (hawaits hpc)))
    (fun k g _ hg => h.awaits k g hg)
  proceeds := Slots.forall_set (fun hpc => by rw [hreq]; exact h.proceeds j f hj (hproceeds hpc))
    (fun k g _ hg => h.proceeds k g hg)
  first := Slots.forall_set (fun i hi => by rw [hid]; exact h.first j f hj i (hreq ▸ hi))
    (fun k g _ hg => h.first k g hg)
  receives := Slots.forall_set (fun m ports a hpc => by rw [hid]; exact hreceives m ports a hpc)
    (fun k g _ hg => h.receives k g hg)

theorem started (h : Delivers t finishes) (id : MandelboxID) (verified : Bool) :
    Delivers t (finishes ++ [⟨id,none,.verify,verified⟩]) where
  drained := by
    intro a c hc hlate hclosed hempty
    obtain ⟨k,g,hg,hrest⟩ := h.drained a c hc hlate hclosed hempty
    exact ⟨k,g,Slots.concat_old hg _,hrest⟩
  awaits := Slots.forall_concat (fun _ => rfl) h.awaits
  proceeds := Slots.forall_concat (fun hpc => by cases hpc) h.proceeds
  first := Slots.forall_concat (fun i hi => by cases hi) h.first
  receives := Slots.forall_concat (fun m ports a hpc => by cases hpc) h.receives

theorem received (h : Delivers t finishes) (hinv : t.Inv) (hj : finishes[j]? = some f) {m : ℕ} {ports : HostPorts}
    (hpc : f.pc = .receive m ports a) (honly : ∀ (k : ℕ) (g : Finish), finishes[k]? = some g →
      k ≠ j → g.mandelboxID = f.mandelboxID → g.req = none)
    {req : Option ℕ} (hreceive : t.receive a = .ok (req,t')) :
    t'.Inv ∧ Delivers t' (finishes.set j { f with req := req, pc := .connecting m ports }) := by
  obtain ⟨c,hc,hid,hlate⟩ := h.receives j f hj m ports a hpc
  unfold Transport.receive at hreceive
  rw [hc] at hreceive
  dsimp only at hreceive
  cases hchan : c.chan.receive with
  | error e =>
    rw [hchan] at hreceive
    cases hreceive
  | ok r =>
    obtain ⟨q,chan⟩ := r
    rw [hchan] at hreceive
    cases hreceive
    obtain ⟨hclosed,hcases⟩ := Chan.receive_ok hchan
    have hnone : f.req = none := h.awaits j f hj (by rw [hpc]; rfl)
    -- a drained channel was received from by another spin-up of the mandelbox
    obtain ⟨b,rfl,hbuffer⟩ : ∃ b, req = some b ∧ c.chan.buffer = b :: chan.buffer := by
      refine hcases.resolve_right (fun hdrained => ?_)
      obtain ⟨-,⟨hc',hempty⟩,-⟩ := hdrained
      obtain ⟨k,g,hg,hgid,hgreq⟩ := h.drained a c hc hlate (Or.inl hc') hempty
      by_cases hk : k = j
      · subst hk
        rw [hj, Option.some.injEq] at hg
        exact hgreq (hg ▸ hnone)
      · exact hgreq (honly k g hg hk (hgid.trans hid))
    have hfirst : t.first f.mandelboxID = some b := by
      rw [← hid]
      exact hinv.sent a c b hc hlate (hbuffer ▸ List.mem_cons_self)
    refine ⟨hinv.received hc hclosed (fun k hk => hbuffer ▸ List.mem_cons_of_mem _ hk),?_,?_,?_,?_,?_⟩
    · intro a' d hd hdlate hdclosed hempty
      by_cases hid' : d.mandelboxID = f.mandelboxID
      · exact ⟨j,_,Slots.set_self hj _,hid'.symm,by simp⟩
      · rcases Slots.set_cases hd with ⟨rfl,rfl⟩ | ⟨-,hd⟩
        · exact absurd hid hid'
        · obtain ⟨k,g,hg,hgid,hgreq⟩ := h.drained a' d hd hdlate hdclosed hempty
          refine ⟨k,g,Slots.set_other hg ?_,hgid,hgreq⟩
          rintro rfl
          rw [hj, Option.some.injEq] at hg
          exact hid' (hgid.symm.trans (by rw [hg]))
    · exact Slots.forall_set (fun hpc' => by cases hpc') (fun k g _ hg => h.awaits k g hg)
    · exact Slots.forall_set (fun _ => by simp) (fun k g _ hg => h.proceeds k g hg)
    · refine Slots.forall_set (fun i hi => ?_) (fun k g _ hg => h.first k g hg)
      cases hi
      exact hfirst
    · refine Slots.forall_set (fun m' ports' a' hpc' => by cases hpc') (fun k g _ hg m' ports' a' hpc' => ?_)
      obtain ⟨d,hd,hdid,hdlate⟩ := h.receives k g hg m' ports' a' hpc'
      by_cases haa : a' = a
      · subst haa
        rw [hc, Option.some.injEq] at hd
        subst hd
        exact ⟨_,Slots.set_self hc _,hdid,hdlate⟩
      · exact ⟨d,Slots.set_other hd haa,hdid,hdlate⟩

/-- A step of a handler, if the entry's channel is still open when it takes the lock. -/
theorem handler (h : Delivers t finishes) (hinv : t.Inv)
    (hopen : ∀ r, t.requests[i]? = some r → r.handler = .lock → t.Open r.mandelboxID) :
    t.handleJSONTransportRequest i ≠ .error .panicked ∧
      ∀ t', t.handleJSONTransportRequest i = .ok t' → t'.Inv ∧ Delivers t' finishes := by
  unfold Transport.handleJSONTransportRequest
  cases hr : t.requests[i]? with
  | none => exact ⟨by simp,fun t' ht' => by cases ht'⟩
  | some r =>
    dsimp only
    cases hpc : r.handler <;> dsimp only [Transport.handlerAt]
    case lock =>
      by_cases hlock : t.transportMapLock.isSome
      · rw [if_pos hlock]
        exact ⟨by simp,fun t' ht' => by cases ht'⟩
      have hfree : t.transportMapLock = none := by simpa using hlock
      rw [if_neg hlock]
      cases hmap : t.transportRequestMap r.mandelboxID with
      | none =>
        refine ⟨by simp,fun t' ht' => ?_⟩
        cases ht'
        have hmake := hinv.make hfree hmap
        refine ⟨hmake.lock_taken hfree hr ?_ List.getElem?_concat_length rfl,
          (h.make hfree r.mandelboxID).lock_taken hr⟩
        simp [Transport.make]
      | some a =>
        refine ⟨by simp,fun t' ht' => ?_⟩
        cases ht'
        obtain ⟨c,hc,-⟩ := hinv.entry _ a hmap
        have hcopen := hopen r hr hpc
        rw [Transport.Open, Transport.entry_of_map hmap hc] at hcopen
        exact ⟨hinv.lock_taken hfree hr hmap hc hcopen,h.lock_taken hr⟩
    case send =>
      obtain ⟨r',a,c,hr',hmap,hc,hcopen⟩ := hinv.holds i ((hinv.lock i r hr).mp (Or.inl hpc))
      rw [hr, Option.some.injEq] at hr'
      subst hr'
      rw [Transport.entry_of_map hmap hc]
      dsimp only
      cases hsend : c.chan.send i with
      | error e =>
        refine ⟨?_,fun t' ht' => by cases ht'⟩
        rintro ⟨⟩
        rw [Chan.send_panics_iff.mp hsend] at hcopen
        cases hcopen
      | ok chan =>
        refine ⟨by simp,fun t' ht' => ?_⟩
        cases ht'
        exact ⟨hinv.send hr hpc hmap hc hsend,h.send hinv hr hpc hmap hc hsend⟩
    case close =>
      obtain ⟨r',a,c,hr',hmap,hc,hcopen⟩ := hinv.holds i ((hinv.lock i r hr).mp (Or.inr hpc))
      rw [hr, Option.some.injEq] at hr'
      subst hr'
      rw [Transport.entry_of_map hmap hc]
      dsimp only
      cases hclose : c.chan.close with
      | error e =>
        refine ⟨?_,fun t' ht' => by cases ht'⟩
        rintro ⟨⟩
        rw [Chan.close_panics_iff.mp hclose] at hcopen
        cases hcopen
      | ok chan =>
        refine ⟨by simp,fun t' ht' => ?_⟩
        cases ht'
        exact ⟨hinv.close hr hpc hmap hc hclose,h.close hinv hr hpc hmap hc hclose⟩
    case returned => exact ⟨by simp,fun t' ht' => by cases ht'⟩

end Delivers

namespace Transport

theorem Inv.unblocked {t : Transport} (h : t.Inv) {i : ℕ} (hlock : t.transportMapLock = some i) :
    ∃ t', t.handleJSONTransportRequest i = .ok t' := by
  obtain ⟨r,a,c,hr,hmap,hc,hopen⟩ := h.holds i hlock
  unfold handleJSONTransportRequest
  rw [hr]
  dsimp only
  rcases (h.lock i r hr).mpr hlock with hpc | hpc
  · have hempty : c.chan.buffer = [] := by
      by_contra hne
      obtain ⟨k,q,hk,hq,hqpc,-⟩ := h.filled a c hc hopen hne
      rw [hlock, Option.some.injEq] at hk
      subst hk
      rw [hr, Option.some.injEq] at hq
      rw [← hq, hpc] at hqpc
      cases hqpc
    obtain ⟨chan,hsend⟩ := Chan.send_of_open (a := i) hopen (by rw [hempty]; exact Nat.one_pos)
    rw [hpc]
    dsimp only [handlerAt]
    rw [entry_of_map hmap hc]
    dsimp only
    rw [hsend]
    exact ⟨_,rfl⟩
  · obtain ⟨chan,hclose⟩ := Chan.close_of_open hopen
    rw [hpc]
    dsimp only [handlerAt]
    rw [entry_of_map hmap hc]
    dsimp only
    rw [hclose]
    exact ⟨_,rfl⟩

end Transport

namespace Service

/-- The service has not panicked, the holder of the lock goes on, and what a spin-up has received
is the first request for its mandelbox. -/
structure TransportSafe (s : Service) : Prop where
  crashed : s.crashed = false
  unblocked : ∀ i, s.transport.transportMapLock = some i →
    ∃ t, s.transport.handleJSONTransportRequest i = .ok t
  first : ∀ f ∈ s.finishes, ∀ i, f.req = some i → s.transport.first f.mandelboxID = some i

/-- A handler finds no channel of an earlier request, a spin-up does not ask for the channel of a
mandelbox whose entry was reset after a request, and of the spin-ups of one mandelbox only one
receives. -/
def Orderly (s : Service) : ServiceMove → Prop
  | .handler i => ∀ r ∈ s.transport.requests[i]?, r.handler = .lock → s.transport.Open r.mandelboxID
  | .finish j _ => ∀ f ∈ s.finishes[j]?,
      (f.pc.asks = true → f.mandelboxID ∉ s.transport.dropped) ∧
        (f.pc.receives = true → ∀ k ∈ List.range s.finishes.length, k ≠ j →
          ∀ g ∈ s.finishes[k]?, g.mandelboxID = f.mandelboxID → g.req = none)
  | _ => True

instance (s : Service) : ∀ mv, Decidable (s.Orderly mv)
  | .handler _ => inferInstanceAs (Decidable (∀ r ∈ _, _))
  | .finish _ _ => inferInstanceAs (Decidable (∀ f ∈ _, _))
  | .request _ | .subscription | .dockerDie _ | .mandelboxDie | .loop _ | .spinUp _ _ | .resources _ _
  | .cleanup _ _ | .stale _ | .stopWaiting _ | .cancel | .publish _ | .assign | .assignment _ _ => isTrue trivial

structure TransportInv (s : Service) : Prop where
  inv : s.transport.Inv
  delivers : Delivers s.transport s.finishes
  crashed : s.crashed = false

variable {cfg : Config} {s t : Service}

theorem TransportInv.safe (h : s.TransportInv) : s.TransportSafe where
  crashed := h.crashed
  unblocked := fun _ hlock => h.inv.unblocked hlock
  first := by
    intro f hf i hi
    obtain ⟨k,hk⟩ := List.mem_iff_getElem?.mp hf
    exact h.delivers.first k f hk i hi

theorem start_transportInv (rows : Rows) (reservations : List (UInt16 × TransportProtocol))
    (numGPUs capacity : ℕ) : (start rows reservations numGPUs capacity).TransportInv where
  inv := Transport.empty_inv
  delivers := by
    constructor
    · intro a c hc
      simp [start, Transport.empty] at hc
    all_goals
      intro k f hf
      simp [start] at hf
  crashed := rfl

theorem Untouched.transportInv (h : Untouched s t) (hinv : s.TransportInv) : t.TransportInv where
  inv := h.transport ▸ hinv.inv
  delivers := by
    rw [h.transport, h.finishes]
    exact hinv.delivers
  crashed := h.crashed.trans hinv.crashed

theorem finish_transportInv (hinv : s.TransportInv) {j : ℕ} {f : Finish} {out : Outcome}
    (hj : s.finishes[j]? = some f) (horderly : s.Orderly (.finish j out))
    (heffect : FinishEffect s j f t) : t.TransportInv := by
  obtain ⟨hasks,hreceives⟩ := horderly f hj
  cases heffect with
  | moved f' hid hreq hawaits hproceeds hrec htransport hfinishes hcrashed =>
    refine ⟨htransport ▸ hinv.inv,?_,hcrashed.trans hinv.crashed⟩
    rw [htransport, hfinishes]
    refine hinv.delivers.setFinish hj hid hreq hawaits hproceeds (fun m ports a hpc => ?_)
    rw [hpc] at hrec
    cases hrec
  | asked m ports a hpc hasked hfinishes hcrashed =>
    have hnot := hasks (by rw [hpc]; rfl)
    unfold Transport.getJSONTransportRequestChannel at hasked
    split_ifs at hasked with hlock
    have hfree : s.transport.transportMapLock = none := by simpa using hlock
    have hnext : t.transport.Inv ∧ Delivers t.transport s.finishes ∧
        ∃ c : RequestChan, t.transport.chans[a]? = some c ∧ c.mandelboxID = f.mandelboxID ∧ c.late = false := by
      split at hasked
      case h_1 b hb =>
        simp only [Except.ok.injEq, Prod.mk.injEq] at hasked
        obtain ⟨rfl,hsame⟩ := hasked
        rw [← hsame]
        obtain ⟨c,hc,hid⟩ := hinv.inv.entry _ _ hb
        refine ⟨hinv.inv,hinv.delivers,c,hc,hid,?_⟩
        by_contra hlate
        exact hnot (hinv.inv.late _ _ c hb hc (by simpa using hlate))
      case h_2 hnone =>
        simp only [Except.ok.injEq, Prod.mk.injEq] at hasked
        obtain ⟨rfl,hmake⟩ := hasked
        rw [← hmake]
        refine ⟨hinv.inv.make hfree hnone,hinv.delivers.make hfree _,_,List.getElem?_concat_length,rfl,?_⟩
        simpa using hnot
    obtain ⟨hinv',hdelivers,hchan⟩ := hnext
    refine ⟨hinv',?_,hcrashed.trans hinv.crashed⟩
    rw [hfinishes]
    refine hdelivers.setFinish hj rfl rfl (fun _ => by rw [hpc]; rfl) (fun hp => by cases hp) ?_
    rintro m' ports' a' ⟨⟩
    exact hchan
  | received m ports a req hpc hreceived hfinishes hcrashed =>
    have honly := hreceives (by rw [hpc]; rfl)
    obtain ⟨hinv',hdelivers⟩ := hinv.delivers.received hinv.inv hj hpc
      (fun k g hg hk hid => honly k (List.mem_range.mpr (Slots.lt_of_some hg)) hk g hg hid) hreceived
    exact ⟨hinv',hfinishes ▸ hdelivers,hcrashed.trans hinv.crashed⟩
  | answered m ports i hpc hreq htransport hfinishes hcrashed =>
    refine ⟨htransport ▸ hinv.inv.returnResult _ _,?_,hcrashed.trans hinv.crashed⟩
    rw [htransport, hfinishes]
    exact (hinv.delivers.returnResult _ _).setFinish hj rfl rfl (fun ha => by cases ha)
      (fun hp => by cases hp) (fun _ _ _ h => by cases h)
  | crashed m ports hpc hreq ht =>
    exact absurd hreq (hinv.delivers.proceeds j f hj (by rw [hpc]; rfl))

theorem step_transportInv {mv : ServiceMove} (hinv : s.TransportInv) (horderly : s.Orderly mv)
    (hstep : s.step cfg mv = .ok t) : t.TransportInv := by
  unfold step at hstep
  rw [hinv.crashed] at hstep
  simp only [Bool.false_eq_true, if_false] at hstep
  cases mv with
  | request id =>
    dsimp only [move] at hstep
    split_ifs at hstep
    cases hstep
    exact ⟨hinv.inv.request id,hinv.delivers.request hinv.inv id,hinv.crashed⟩
  | handler i =>
    obtain ⟨hpanic,hok⟩ := hinv.delivers.handler hinv.inv (fun r hr => horderly r hr)
    dsimp only [move] at hstep
    cases hhandle : s.transport.handleJSONTransportRequest i with
    | error e =>
      rw [hhandle] at hstep
      cases e with
      | blocked => cases hstep
      | panicked => exact absurd hhandle hpanic
    | ok transport =>
      rw [hhandle] at hstep
      cases hstep
      obtain ⟨hinv',hdelivers⟩ := hok transport hhandle
      exact ⟨hinv',hdelivers,hinv.crashed⟩
  | subscription =>
    dsimp only [move] at hstep
    split_ifs at hstep
    split at hstep
    · cases hstep
      exact ⟨hinv.inv,hinv.delivers.started _ _,hinv.crashed⟩
    · cases hstep
  | finish j out =>
    dsimp only [move] at hstep
    cases hj : s.finishes[j]? with
    | none =>
      rw [hj] at hstep
      cases hstep
    | some f =>
      rw [hj] at hstep
      exact finish_transportInv hinv hj horderly (finishAt_effect hstep)
  | loop ok =>
    rcases loopAt_untouched hstep with hsame | ⟨m,id,transport,-,-,hreset,rfl⟩
    · exact hsame.transportInv hinv
    · exact ⟨hinv.inv.reset hreset,hinv.delivers.reset hreset,hinv.crashed⟩
  | _ => exact (move_untouched rfl hstep).transportInv hinv

/-- In every orderly run the transport of the requests is safe. -/
theorem transport_safe (cfg : Config) (rows : Rows) (reservations : List (UInt16 × TransportProtocol))
    (numGPUs capacity : ℕ) (moves : List ServiceMove)
    (horderly : Run.EachOk (step cfg) Orderly (start rows reservations numGPUs capacity) moves)
    (hrun : Run.run (step cfg) (start rows reservations numGPUs capacity) moves = .ok t) : t.TransportSafe :=
  (Run.EachOk.invariant (fun _ _ _ hinv ho hs => step_transportInv hinv ho hs)
    (start_transportInv rows reservations numGPUs capacity) horderly hrun).safe

def oneHost : Config where
  instanceID := "host-1"
  usesGPU := false
  isLocalEnv := false

def handles (i : ℕ) : List ServiceMove := List.replicate 3 (.handler i)

/-- One request for a mandelbox that the host does not know. -/
theorem transport_safe_one : ∃ t, Run.run (step oneHost) (start ∅ [] 0 0)
    ([.loop true,.request "mandelbox-1"] ++ handles 0) = .ok t ∧ t.TransportSafe := by
  have hok : (Run.run (step oneHost) (start ∅ [] 0 0)
      ([.loop true,.request "mandelbox-1"] ++ handles 0)).toOption.isSome := by decide +kernel
  cases hrun : Run.run (step oneHost) (start ∅ [] 0 0)
      ([.loop true,.request "mandelbox-1"] ++ handles 0) with
  | error e =>
    rw [hrun] at hok
    cases hok
  | ok t => exact ⟨t,rfl,transport_safe oneHost ∅ [] 0 0 _ (by decide +kernel) hrun⟩

/-- A second request for the mandelbox ends the service. -/
theorem transport_safe_fails :
    ¬∀ (cfg : Config) (rows : Rows) (reservations : List (UInt16 × TransportProtocol)) (numGPUs capacity : ℕ)
      (moves : List ServiceMove) (t : Service),
      Run.run (step cfg) (start rows reservations numGPUs capacity) moves = .ok t → t.TransportSafe := by
  intro h
  have hcrash : (Run.run (step oneHost) (start ∅ [] 0 0) ([.loop true,.request "mandelbox-1",
      .request "mandelbox-1"] ++ handles 0 ++ [.handler 1,.handler 1])).toOption.map Service.crashed =
      some true := by decide +kernel
  cases hrun : Run.run (step oneHost) (start ∅ [] 0 0) ([.loop true,.request "mandelbox-1",
      .request "mandelbox-1"] ++ handles 0 ++ [.handler 1,.handler 1]) with
  | error e =>
    rw [hrun] at hcrash
    cases hcrash
  | ok t =>
    rw [hrun] at hcrash
    have hcrashed : t.crashed = true := Option.some.inj hcrash
    rw [(h oneHost ∅ [] 0 0 _ t hrun).crashed] at hcrashed
    cases hcrashed

end Service

end Whist.Host
