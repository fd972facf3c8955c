import Whist.Foundation.Slots
import Whist.Host.Service

/-! # What a step of the host service touches -/
namespace Whist.Host
open Channel

def FinishPC.awaits : FinishPC → Bool
  | .verify | .markConnecting | .lookUp | .assign _ | .getHostPorts _ | .getChannel _ _ | .receive _ _ _ => true
  | _ => false

def FinishPC.proceeds : FinishPC → Bool
  | .connecting _ _ | .writeJSONData _ _ | .waitForFile _ _ | .markRunning _ _ | .returnResult _ _ => true
  | _ => false

def FinishPC.asks : FinishPC → Bool
  | .getChannel _ _ => true
  | _ => false

def FinishPC.receives : FinishPC → Bool
  | .receive _ _ _ => true
  | _ => false

def ServiceMove.touches : ServiceMove → Bool
  | .request _ | .handler _ | .subscription | .finish _ _ | .loop _ => true
  | _ => false

namespace Service

variable {cfg : Config} {s t : Service} {i j : ℕ} {f : Finish} {id : MandelboxID} {ok : Bool}
  {out : Outcome}

structure Untouched (s t : Service) : Prop where
  transport : t.transport = s.transport
  finishes : t.finishes = s.finishes
  crashed : t.crashed = s.crashed

theorem Untouched.refl (s : Service) : Untouched s s := ⟨rfl,rfl,rfl⟩

theorem close_untouched (cfg : Config) (s : Service) (i : ℕ) : Untouched s (s.close cfg i) := by
  unfold close
  split
  · exact .refl s
  · exact ⟨rfl,rfl,rfl⟩

theorem cleanupAt_untouched {pc : CleanupPC} (h : s.cleanupAt cfg i id ok pc = .ok t) : Untouched s t := by
  cases pc <;> dsimp only [cleanupAt] at h
  case untrack =>
    cases h
    exact ⟨rfl,rfl,rfl⟩
  case notify =>
    cases h
    exact ⟨rfl,rfl,rfl⟩
  case ended => cases h
  case free =>
    split at h
    · cases h
    · split_ifs at h <;> (cases h; exact ⟨rfl,rfl,rfl⟩)
  case find =>
    split_ifs at h
    · split at h <;> (cases h; exact ⟨rfl,rfl,rfl⟩)
    · cases h
      exact ⟨rfl,rfl,rfl⟩
  all_goals
    split_ifs at h
    all_goals
      cases h
      exact ⟨rfl,rfl,rfl⟩

theorem newMandelbox_untouched {n : ℕ} {key : String} (h : s.newMandelbox cfg n id key = .ok t) :
    Untouched s t := by
  unfold newMandelbox at h
  split at h
  · cases h
  · cases h
    exact ⟨rfl,rfl,rfl⟩

theorem assignmentAt_untouched {k : ℕ} {a : Assignment} {pc : AssignPC}
    (h : s.assignmentAt cfg k a id pc = .ok t) : Untouched s t := by
  cases pc <;> dsimp only [assignmentAt] at h
  case queryMandelbox =>
    split_ifs at h
    cases h
    exact ⟨rfl,rfl,rfl⟩
  case ended => cases h
  all_goals
    cases h
    exact ⟨rfl,rfl,rfl⟩

theorem loopAt_untouched {pc : LoopPC} (h : s.loopAt cfg ok pc = .ok t) :
    Untouched s t ∨ ∃ (m : ℕ) (id : MandelboxID) (transport : Transport), pc = .reset m ∧
      s.mandelboxID? m = some id ∧ s.transport.reset id = .ok transport ∧
      t = { s with loop := .close m, transport := transport } := by
  cases pc <;> dsimp only [loopAt] at h
  case idle => cases h
  case reset m =>
    right
    cases hid : s.mandelboxID? m with
    | none =>
      rw [hid] at h
      cases h
    | some id =>
      rw [hid] at h
      dsimp only at h
      cases hreset : s.transport.reset id with
      | error e =>
        exfalso
        rw [hreset] at h
        unfold Transport.reset at hreset
        split_ifs at hreset
        cases hreset
        cases h
      | ok transport =>
        rw [hreset] at h
        cases h
        exact ⟨m,id,transport,rfl,hid,hreset,rfl⟩
  all_goals left
  case close m =>
    cases h
    exact ⟨(close_untouched cfg s m).transport,(close_untouched cfg s m).finishes,(close_untouched cfg s m).crashed⟩
  case spinUp n =>
    cases n with
    | zero =>
      cases h
      exact ⟨rfl,rfl,rfl⟩
    | succ n => cases h
  case start n m =>
    split at h
    · split_ifs at h
      · cases h
        exact ⟨rfl,rfl,rfl⟩
      · cases h
        exact ⟨(close_untouched cfg s m).transport,(close_untouched cfg s m).finishes,
          (close_untouched cfg s m).crashed⟩
    · cases h
      exact ⟨rfl,rfl,rfl⟩
    · cases h
      exact ⟨rfl,rfl,rfl⟩
    · cases h
  case register n m =>
    split at h
    · cases h
    · cases h
      exact ⟨rfl,rfl,rfl⟩
  all_goals
    cases h
    exact ⟨rfl,rfl,rfl⟩

theorem move_untouched {mv : ServiceMove} (hmv : mv.touches = false) (h : s.move cfg mv = .ok t) :
    Untouched s t := by
  cases mv <;> dsimp only [move] at h
  case request => cases hmv
  case handler => cases hmv
  case subscription => cases hmv
  case finish => cases hmv
  case loop => cases hmv
  case dockerDie m =>
    split_ifs at h
    cases h
    exact ⟨rfl,rfl,rfl⟩
  case mandelboxDie =>
    by_cases hready : s.loop = .idle ∧ 0 < s.mandelboxDieEvents
    · rw [if_pos hready] at h
      cases h
      exact ⟨rfl,rfl,rfl⟩
    · rw [if_neg hready] at h
      cases h
  case spinUp id key =>
    split at h
    · split_ifs at h
      exact newMandelbox_untouched h
    · cases h
  case resources m action =>
    split at h
    · cases h
    · cases h
    · split at h
      · cases h
      · cases h
        exact ⟨rfl,rfl,rfl⟩
  case cleanup m ok =>
    split at h
    · cases h
    · exact cleanupAt_untouched h
  case stale m =>
    split_ifs at h
    cases h
    exact close_untouched cfg s m
  case stopWaiting m =>
    split_ifs at h
    cases h
    exact close_untouched cfg s m
  case cancel =>
    cases h
    exact ⟨rfl,rfl,rfl⟩
  case publish event =>
    by_cases hlists : s.db.Lists cfg.instanceID event
    · rw [if_pos hlists] at h
      cases h
      exact ⟨rfl,rfl,rfl⟩
    · rw [if_neg hlists] at h
      cases h
  case assign =>
    split_ifs at h
    cases h
    exact ⟨rfl,rfl,rfl⟩
  case assignment k id =>
    split at h
    · cases h
    · exact assignmentAt_untouched h

/-- What a step of `FinishMandelboxSpinUp` does to the requests and to itself. -/
inductive FinishEffect (s : Service) (j : ℕ) (f : Finish) (t : Service) : Prop where
  | moved (f' : Finish) (hid : f'.mandelboxID = f.mandelboxID) (hreq : f'.req = f.req)
      (hawaits : f'.pc.awaits → f.pc.awaits) (hproceeds : f'.pc.proceeds → f.pc.proceeds)
      (hreceives : f'.pc.receives = false) (htransport : t.transport = s.transport)
      (hfinishes : t.finishes = s.finishes.set j f') (hcrashed : t.crashed = s.crashed)
  | asked (m : ℕ) (ports : HostPorts) (a : ℕ) (hpc : f.pc = .getChannel m ports)
      (hasked : s.transport.getJSONTransportRequestChannel f.mandelboxID = .ok (a,t.transport))
      (hfinishes : t.finishes = s.finishes.set j { f with pc := .receive m ports a })
      (hcrashed : t.crashed = s.crashed)
  | received (m : ℕ) (ports : HostPorts) (a : ℕ) (req : Option ℕ) (hpc : f.pc = .receive m ports a)
      (hreceived : s.transport.receive a = .ok (req,t.transport))
      (hfinishes : t.finishes = s.finishes.set j { f with req := req, pc := .connecting m ports })
      (hcrashed : t.crashed = s.crashed)
  | answered (m : ℕ) (ports : HostPorts) (i : ℕ) (hpc : f.pc = .returnResult m ports) (hreq : f.req = some i)
      (htransport : t.transport = s.transport.returnResult i ⟨ports,(s.zygotes m).privateKey⟩)
      (hfinishes : t.finishes = s.finishes.set j { f with pc := .running m }) (hcrashed : t.crashed = s.crashed)
  | crashed (m : ℕ) (ports : HostPorts) (hpc : f.pc = .writeJSONData m ports) (hreq : f.req = none)
      (ht : t = { s with crashed := true })

theorem FinishEffect.goes {pc : FinishPC} {verified : Bool} (hawaits : pc.awaits → f.pc.awaits)
    (hproceeds : pc.proceeds → f.pc.proceeds) (hreceives : pc.receives = false)
    (hfinishes : t.finishes = s.finishes.set j { f with pc := pc, verified := verified })
    (htransport : t.transport = s.transport) (hcrashed : t.crashed = s.crashed) :
    FinishEffect s j f t :=
  .moved { f with pc := pc, verified := verified } rfl rfl hawaits hproceeds hreceives htransport hfinishes hcrashed

theorem finishAt_effect (h : s.finishAt cfg j f out f.pc = .ok t) : FinishEffect s j f t := by
  cases hpc : f.pc <;> rw [hpc] at h <;> dsimp only [finishAt] at h
  case verify =>
    split_ifs at h
    · cases h
      exact .goes (by simp [hpc, FinishPC.awaits]) (by simp [FinishPC.proceeds]) rfl rfl rfl rfl
    · cases h
      exact .goes (by simp [FinishPC.awaits]) (by simp [FinishPC.proceeds]) rfl rfl rfl rfl
  case markConnecting =>
    split_ifs at h
    · cases h
      exact .goes (by simp [FinishPC.awaits]) (by simp [FinishPC.proceeds]) rfl rfl rfl rfl
    · cases h
      exact .goes (by simp [hpc, FinishPC.awaits]) (by simp [FinishPC.proceeds]) rfl rfl rfl rfl
    · cases h
      exact .goes (by simp [hpc, FinishPC.awaits]) (by simp [FinishPC.proceeds]) rfl rfl rfl rfl
  case lookUp =>
    split at h
    · cases h
      exact .goes (by simp [FinishPC.awaits]) (by simp [FinishPC.proceeds]) rfl rfl rfl rfl
    case h_2 m _ =>
      cases h
      exact .goes (by simp [hpc, FinishPC.awaits]) (by simp [FinishPC.proceeds]) rfl rfl rfl rfl
  case assign m =>
    cases h
    exact .goes (by simp [hpc, FinishPC.awaits]) (by simp [FinishPC.proceeds]) rfl rfl rfl rfl
  case getHostPorts m =>
    split at h
    · cases h
      exact .goes (by simp [FinishPC.awaits]) (by simp [FinishPC.proceeds]) rfl rfl rfl rfl
    case h_2 ports _ =>
      cases h
      exact .goes (by simp [hpc, FinishPC.awaits]) (by simp [FinishPC.proceeds]) rfl rfl rfl rfl
  case getChannel m ports =>
    cases hasked : s.transport.getJSONTransportRequestChannel f.mandelboxID with
    | error e =>
      rw [hasked] at h
      cases h
    | ok r =>
      obtain ⟨a,transport⟩ := r
      rw [hasked] at h
      cases h
      exact .asked m ports a hpc hasked rfl rfl
  case receive m ports a =>
    split_ifs at h with hout
    · cases h
      exact .goes (by simp [FinishPC.awaits]) (by simp [FinishPC.proceeds]) rfl rfl rfl rfl
    · cases hreceived : s.transport.receive a with
      | error e =>
        rw [hreceived] at h
        cases h
      | ok r =>
        obtain ⟨req,transport⟩ := r
        rw [hreceived] at h
        cases h
        exact .received m ports a req hpc hreceived rfl rfl
  case connecting m ports =>
    cases h
    exact .goes (by simp [FinishPC.awaits]) (by simp [hpc, FinishPC.proceeds]) rfl rfl rfl rfl
  case writeJSONData m ports =>
    split_ifs at h with hreq hout hlocal
    · cases h
      exact .crashed m ports hpc (by simpa using hreq) rfl
    · cases h
      exact .goes (by simp [FinishPC.awaits]) (by simp [FinishPC.proceeds]) rfl rfl rfl rfl
    · cases h
      exact .goes (by simp [FinishPC.awaits]) (by simp [hpc, FinishPC.proceeds]) rfl rfl rfl rfl
    · cases h
      exact .goes (by simp [FinishPC.awaits]) (by simp [hpc, FinishPC.proceeds]) rfl rfl rfl rfl
  case waitForFile m ports =>
    split_ifs at h
    · cases h
      exact .goes (by simp [FinishPC.awaits]) (by simp [FinishPC.proceeds]) rfl rfl rfl rfl
    · cases h
      exact .goes (by simp [FinishPC.awaits]) (by simp [hpc, FinishPC.proceeds]) rfl rfl rfl rfl
  case markRunning m ports =>
    split_ifs at h
    · cases h
      exact .goes (by simp [FinishPC.awaits]) (by simp [FinishPC.proceeds]) rfl rfl rfl rfl
    · cases h
      exact .goes (by simp [FinishPC.awaits]) (by simp [hpc, FinishPC.proceeds]) rfl rfl rfl rfl
  case returnResult m ports =>
    split at h
    · cases h
    case h_2 i hreq =>
      cases h
      exact .answered m ports i hpc hreq rfl rfl rfl
  case running m =>
    cases h
    exact .goes (by simp [FinishPC.awaits]) (by simp [FinishPC.proceeds]) rfl rfl rfl rfl
  case close m =>
    cases h
    have hclose := close_untouched cfg s m
    exact .goes (by simp [FinishPC.awaits]) (by simp [FinishPC.proceeds]) rfl
      (congrArg (fun l => l.set j { f with pc := .returned }) hclose.finishes) hclose.transport hclose.crashed
  case returned => cases h

end Service

end Whist.Host
