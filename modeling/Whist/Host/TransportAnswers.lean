import Whist.Host.LiveAnswers

/-! # No transport request is answered twice

A request is in one place at a time: with its handler, in a channel, with a spin-up, or answered.  A spin-up that
fails drops it.
-/
namespace Whist.Host
open Channel

/-- A request is with its handler until it is sent, and each answer is a place. -/
def JSONTransportRequest.places (r : JSONTransportRequest) : ℕ :=
  (if r.handler = .lock ∨ r.handler = .send then 1 else 0) + r.results.length

def RequestChan.places (k : ℕ) (c : RequestChan) : ℕ := c.chan.buffer.count k

def Finish.places (k : ℕ) (f : Finish) : ℕ := if f.pc.proceeds ∧ f.req = some k then 1 else 0

def Transport.places (t : Transport) (k : ℕ) : ℕ :=
  t.requests[k]?.elim 0 JSONTransportRequest.places + (t.chans.map (RequestChan.places k)).sum

def Service.places (s : Service) (k : ℕ) : ℕ := s.transport.places k + (s.finishes.map (Finish.places k)).sum

theorem sum_map_set {α : Type*} {l : List α} {i : ℕ} {x : α} (hi : l[i]? = some x) (y : α) (f : α → ℕ) :
    ((l.set i y).map f).sum + f x = (l.map f).sum + f y := by
  induction l generalizing i with
  | nil => cases hi
  | cons z l ih =>
    cases i with
    | zero =>
      obtain rfl := Option.some.inj hi
      simp only [List.set_cons_zero, List.map_cons, List.sum_cons]
      omega
    | succ i =>
      have hrest := ih (i := i) hi
      simp only [List.set_cons_succ, List.map_cons, List.sum_cons]
      omega

namespace Transport
variable {t t' : Transport} {i a : ℕ} {r : JSONTransportRequest} {c : RequestChan}

theorem places_set (hi : t.requests[i]? = some r) {r' : JSONTransportRequest} (hset : t'.requests = t.requests.set i r')
    (hchans : t'.chans = t.chans) (k : ℕ) :
    t'.places k + (if k = i then r.places else 0) = t.places k + if k = i then r'.places else 0 := by
  unfold places
  rw [hset, hchans, Slots.getElem?_set_of_some hi]
  by_cases hk : k = i
  · subst hk
    simp only [if_true, hi, Option.elim_some]
    omega
  · simp only [if_neg hk]

theorem places_setChan (hc : t.chans[a]? = some c) (chan : Chan ℕ 1) (k : ℕ) :
    (t.setChan a c chan).places k + c.places k = t.places k + chan.buffer.count k := by
  have hsum := sum_map_set hc { c with chan := chan } (RequestChan.places k)
  simp only [places, setChan, RequestChan.places] at hsum ⊢
  omega

theorem places_make (t : Transport) (id : MandelboxID) (k : ℕ) : (t.make id).places k = t.places k := by
  simp [places, make, RequestChan.places]

theorem places_request (t : Transport) (id : MandelboxID) (k : ℕ) :
    (t.request id).places k = t.places k + if k = t.requests.length then 1 else 0 := by
  rw [places, places, request, Nat.add_right_comm]
  rcases lt_trichotomy k t.requests.length with hlt | rfl | hgt
  · rw [List.getElem?_append_left hlt, if_neg hlt.ne]
    rfl
  · rw [List.getElem?_concat_length, List.getElem?_eq_none le_rfl, if_pos rfl]
    rfl
  · rw [List.getElem?_eq_none (by simpa using hgt), List.getElem?_eq_none hgt.le, if_neg hgt.ne']
    rfl

theorem entry_chan {id : MandelboxID} (h : t.entry id = .ok (a,c)) : t.chans[a]? = some c := by
  unfold entry at h
  split at h
  · cases h
  · split at h
    · cases h
    · rename_i hc
      cases h
      exact hc

/-- A step of the handler that changes neither its part nor that of a channel. -/
theorem places_setHandler (hr : t.requests[i]? = some r) {pc : HandlerPC}
    (hsame : ({ r with handler := pc } : JSONTransportRequest).places = r.places) (k : ℕ) :
    (t.setHandler i r pc).places k = t.places k := by
  have hset := @places_set t (t.setHandler i r pc) i r hr _ rfl rfl k
  rw [hsame] at hset
  exact Nat.add_right_cancel hset

theorem handler_places (hr : t.requests[i]? = some r) (h : t.handlerAt i r r.handler = .ok t') (k : ℕ) :
    t'.places k ≤ t.places k ∧ t'.requests.length = t.requests.length := by
  cases hpc : r.handler <;> rw [hpc] at h <;> dsimp only [handlerAt] at h
  case lock =>
    have hsame : ({ r with handler := .send } : JSONTransportRequest).places = r.places := by
      simp [JSONTransportRequest.places, hpc]
    split_ifs at h <;> cases h
    · have hset := @places_setHandler (t.make r.mandelboxID) i r hr .send hsame k
      exact ⟨(hset.trans (places_make t _ k)).le,List.length_set⟩
    · exact ⟨(places_setHandler hr hsame k).le,List.length_set⟩
  case send =>
    split at h
    · cases h
    · rename_i a c hentry
      split at h
      · cases h
      · rename_i chan hsend
        cases h
        have hset := @places_set (t.setChan a c chan) ((t.setChan a c chan).setHandler i r .close) i r hr _ rfl rfl k
        have hchan := places_setChan (entry_chan hentry) chan k
        rw [(Chan.send_ok hsend).2.2, List.count_append, List.count_singleton] at hchan
        simp only [JSONTransportRequest.places, RequestChan.places, hpc, beq_iff_eq, @eq_comm _ i] at hset hchan
        refine ⟨?_,List.length_set⟩
        change ((t.setChan a c chan).setHandler i r .close).places k ≤ _
        split_ifs at hset hchan <;> simp_all
        omega
  case close =>
    split at h
    · cases h
    · rename_i a c hentry
      split at h
      · cases h
      · rename_i chan hclose
        cases h
        have hchan := places_setChan (entry_chan hentry) chan k
        have hsame : ({ r with handler := .returned } : JSONTransportRequest).places = r.places := by
          simp [JSONTransportRequest.places, hpc]
        rw [(Chan.close_ok hclose).2.2] at hchan
        have hset := @places_setHandler (t.setChan a c chan) i r hr .returned hsame k
        exact ⟨(hset.trans (Nat.add_right_cancel hchan)).le,List.length_set⟩
  case returned => cases h

theorem receive_places {req : Option ℕ} (h : t.receive a = .ok (req,t')) (k : ℕ) :
    t'.places k + (if req = some k then 1 else 0) = t.places k ∧ t'.requests = t.requests := by
  unfold receive at h
  split at h
  · cases h
  · rename_i c hc
    split at h
    · cases h
    · rename_i chan hreceive
      cases h
      have hchan := places_setChan hc chan k
      refine ⟨?_,rfl⟩
      rcases (Chan.receive_ok hreceive).2 with ⟨b,rfl,hbuffer⟩ | ⟨rfl,-,rfl⟩
      · rw [RequestChan.places, hbuffer, List.count_cons] at hchan
        simp only [Option.some.injEq, beq_iff_eq] at hchan ⊢
        omega
      · exact Nat.add_right_cancel hchan

end Transport

namespace Service
variable {cfg : Config} {s t : Service} {j : ℕ} {f : Finish}

structure AnsweredOnce (s : Service) : Prop where
  known : ∀ k, s.transport.requests.length ≤ k → s.places k = 0
  once : ∀ k, s.places k ≤ 1

theorem AnsweredOnce.of_le (h : s.AnsweredOnce) (hle : ∀ k, t.places k ≤ s.places k)
    (hlen : t.transport.requests.length = s.transport.requests.length) : t.AnsweredOnce :=
  ⟨fun k hk => Nat.le_zero.mp ((hle k).trans (h.known k (hlen ▸ hk)).le),fun k => (hle k).trans (h.once k)⟩

theorem places_finish (hj : s.finishes[j]? = some f) {f' : Finish} (hfinishes : t.finishes = s.finishes.set j f')
    (k : ℕ) (htransport : t.transport.places k + f'.places k ≤ s.transport.places k + f.places k) :
    t.places k ≤ s.places k := by
  have hsum := sum_map_set hj f' (Finish.places k)
  rw [← hfinishes] at hsum
  unfold places
  omega

theorem finish_places (hj : s.finishes[j]? = some f) (h : FinishEffect s j f t) (k : ℕ) :
    t.places k ≤ s.places k ∧ t.transport.requests.length = s.transport.requests.length := by
  cases h with
  | moved f' hid hreq hawaits hproceeds hreceives htransport hfinishes hcrashed =>
    refine ⟨places_finish hj hfinishes k ?_,by rw [htransport]⟩
    have hle : f'.places k ≤ f.places k := by
      unfold Finish.places
      rw [hreq]
      split_ifs with hnew hold
      · exact le_rfl
      · exact absurd ⟨hproceeds hnew.1,hnew.2⟩ hold
      · exact Nat.zero_le _
      · exact le_rfl
    exact htransport ▸ Nat.add_le_add_left hle _
  | asked m ports a hpc hasked hfinishes hcrashed =>
    have htransport : t.transport.places k = s.transport.places k ∧
        t.transport.requests.length = s.transport.requests.length := by
      unfold Transport.getJSONTransportRequestChannel at hasked
      split_ifs at hasked
      split at hasked
      · rw [← (Prod.mk.inj (Except.ok.inj hasked)).2]
        exact ⟨rfl,rfl⟩
      · rw [← (Prod.mk.inj (Except.ok.inj hasked)).2]
        exact ⟨Transport.places_make _ _ k,rfl⟩
    refine ⟨places_finish hj hfinishes k ?_,htransport.2⟩
    rw [htransport.1]
    exact Nat.add_le_add_left (Nat.zero_le _) _
  | received m ports a req hpc hreceived hfinishes hcrashed =>
    obtain ⟨hplaces,hrequests⟩ := Transport.receive_places hreceived k
    refine ⟨places_finish hj hfinishes k ?_,by rw [hrequests]⟩
    rw [← hplaces]
    simp [Finish.places, FinishPC.proceeds]
  | answered m ports i hpc hreq htransport hfinishes hcrashed =>
    unfold Transport.returnResult at htransport
    have hgone : ({ f with pc := .running m } : Finish).places k = 0 := by simp [Finish.places, FinishPC.proceeds]
    split at htransport
    · exact ⟨places_finish hj hfinishes k (by rw [htransport, hgone]; omega),by rw [htransport]⟩
    · rename_i r hr
      refine ⟨places_finish hj hfinishes k ?_,by rw [htransport]; exact List.length_set⟩
      have hset := Transport.places_set hr (congrArg Transport.requests htransport) (by rw [htransport]) k
      have hheld : f.places k = if k = i then 1 else 0 := by simp [Finish.places, hpc, FinishPC.proceeds, hreq, eq_comm]
      have hresults : ∀ result, ({ r with results := r.results ++ [result] } : JSONTransportRequest).places =
          r.places + 1 := fun result => by
        rw [JSONTransportRequest.places, List.length_append, List.length_singleton, ← Nat.add_assoc]
        rfl
      rw [hresults] at hset
      rw [hgone, hheld]
      split_ifs at hset ⊢ <;> omega
  | crashed m ports hpc hreq ht =>
    subst ht
    exact ⟨le_rfl,rfl⟩

theorem Untouched.places (h : Untouched s t) (k : ℕ) : t.places k = s.places k := by
  unfold Service.places
  rw [h.transport, h.finishes]

theorem AnsweredOnce.step {mv : ServiceMove} (h : s.AnsweredOnce) (hstep : s.step cfg mv = .ok t) : t.AnsweredOnce := by
  unfold Service.step at hstep
  split_ifs at hstep
  cases mv with
  | request id =>
    dsimp only [move] at hstep
    split_ifs at hstep
    cases hstep
    have hnew : ∀ k, Service.places { s with transport := s.transport.request id } k =
        s.places k + if k = s.transport.requests.length then 1 else 0 := fun k => by
      rw [Service.places, Transport.places_request, Nat.add_right_comm]
      rfl
    constructor
    · intro k hk
      rw [Transport.request, List.length_append, List.length_singleton] at hk
      rw [hnew, h.known k (Nat.le_of_succ_le hk), if_neg (Nat.ne_of_gt hk)]
    · intro k
      rw [hnew]
      split_ifs with hk
      · rw [h.known k hk.ge]
      · exact h.once k
  | handler i =>
    dsimp only [move] at hstep
    cases hhandle : s.transport.handleJSONTransportRequest i with
    | error e =>
      rw [hhandle] at hstep
      cases e with
      | blocked => cases hstep
      | panicked =>
        cases hstep
        exact h.of_le (fun k => le_rfl) rfl
    | ok transport =>
      rw [hhandle] at hstep
      cases hstep
      unfold Transport.handleJSONTransportRequest at hhandle
      split at hhandle
      · cases hhandle
      · rename_i r hr
        have hplaces := Transport.handler_places hr hhandle
        exact h.of_le (fun k => Nat.add_le_add_right (hplaces k).1 _) (hplaces 0).2
  | subscription =>
    dsimp only [move] at hstep
    split_ifs at hstep
    split at hstep
    · cases hstep
      refine h.of_le (fun k => ?_) rfl
      simp [Service.places, Finish.places]
    · cases hstep
  | finish j out =>
    dsimp only [move] at hstep
    cases hj : s.finishes[j]? with
    | none =>
      rw [hj] at hstep
      cases hstep
    | some f =>
      rw [hj] at hstep
      have hplaces := finish_places hj (finishAt_effect hstep)
      exact h.of_le (fun k => (hplaces k).1) (hplaces 0).2
  | loop ok =>
    rcases loopAt_untouched hstep with hsame | ⟨m,id,transport,-,-,hreset,rfl⟩
    · exact h.of_le (fun k => (hsame.places k).le) (by rw [hsame.transport])
    · unfold Transport.reset at hreset
      rw [← Except.ok.inj ((if_neg (fun hlock => by rw [if_pos hlock] at hreset; cases hreset)).symm.trans hreset)]
      exact h.of_le (fun k => le_rfl) rfl
  | _ =>
    have hsame := move_untouched rfl hstep
    exact h.of_le (fun k => (hsame.places k).le) (by rw [hsame.transport])

/-- Whatever the order of requests, events, spin-ups and closings and whatever fails, a request is in one place at
most: no request is handed to two spin-ups, and none is answered twice. -/
theorem answered_once (cfg : Config) (rows : Rows) (reservations : List (UInt16 × TransportProtocol))
    (numGPUs capacity : ℕ) (moves : List ServiceMove)
    (hrun : Run.run (Service.step cfg) (start rows reservations numGPUs capacity) moves = .ok t) :
    (∀ k, t.places k ≤ 1) ∧ ∀ r ∈ t.transport.requests, r.results.length ≤ 1 := by
  have h := Run.run_invariant (fun _ _ _ h _ hstep => AnsweredOnce.step h hstep) (fun _ _ => trivial)
    (⟨fun _ _ => rfl,fun _ => Nat.zero_le _⟩ : (start rows reservations numGPUs capacity).AnsweredOnce) hrun
  refine ⟨h.once,fun r hr => ?_⟩
  obtain ⟨k,hk⟩ := List.mem_iff_getElem?.mp hr
  have honce := h.once k
  simp only [Service.places, Transport.places, hk, Option.elim_some, JSONTransportRequest.places] at honce
  omega

theorem answered_once_served : ∃ t, Run.run (Service.step oneHost) (start ∅ [] 0 1) served = .ok t ∧
    (t.transport.requests.map fun r => r.results.length) = [1] ∧ t.places 0 ≤ 1 := by
  have hok : (Run.run (Service.step oneHost) (start ∅ [] 0 1) served).toOption.map (fun t =>
      t.transport.requests.map fun r => r.results.length) = some [1] := by decide +kernel
  cases hrun : Run.run (Service.step oneHost) (start ∅ [] 0 1) served with
  | error e =>
    rw [hrun] at hok
    cases hok
  | ok t =>
    rw [hrun] at hok
    exact ⟨t,rfl,Option.some.inj hok,(answered_once oneHost ∅ [] 0 1 served hrun).1 0⟩

end Service

end Whist.Host
