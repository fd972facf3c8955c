import Whist.Host.DatabaseSteps
import Whist.Host.Resources

/-! # Closing a mandelbox -/
namespace Whist.Host
open Channel

namespace MandelboxData

variable {usesGPU : Bool} {a a' : Allocators} {m m' : MandelboxData} {action : MandelboxAction}

def IsClosed (m : MandelboxData) : Prop := m.phase ≠ .starting ∧ m.phase ≠ .created

def Bound (m : MandelboxData) (ports : HostPorts) : Prop :=
  hostPorts m.portBindings = some ports ∨ m.IsClosed

structure Ages (m m' : MandelboxData) : Prop where
  id : m'.id = m.id
  bound : ∀ ports, m.Bound ports → m'.Bound ports
  closed : m.IsClosed → m'.IsClosed

theorem Ages.refl (m : MandelboxData) : Ages m m := ⟨rfl,fun _ h => h,fun h => h⟩

theorem Ages.of_same (hid : m'.id = m.id) (hbindings : m'.portBindings = m.portBindings)
    (hphase : m'.phase = m.phase) : Ages m m' := by
  have hclosed : m.IsClosed → m'.IsClosed := by
    unfold IsClosed
    rw [hphase]
    exact fun h => h
  refine ⟨hid,fun ports hbound => ?_,hclosed⟩
  rcases hbound with hports | hgone
  · left
    rw [hbindings]
    exact hports
  · exact Or.inr (hclosed hgone)

theorem Ages.of_closed (hid : m'.id = m.id) (hclosed : m'.IsClosed) : Ages m m' :=
  ⟨hid,fun _ _ => Or.inr hclosed,fun _ => hclosed⟩

theorem Ages.of_unbound (hid : m'.id = m.id) (hbindings : m.portBindings = []) (hphase : m.phase = .starting) :
    Ages m m' := by
  have hopen : ¬m.IsClosed := fun hclosed => hclosed.1 hphase
  refine ⟨hid,fun ports hbound => ?_,fun hclosed => absurd hclosed hopen⟩
  rcases hbound with hports | hclosed
  · rw [hbindings] at hports
    cases hports
  · exact absurd hclosed hopen

theorem portsStep_ages {draws : ℕ → Draws numAllowedPorts} (hm : m.WellFormed)
    (h : m.portsStep a draws = .ok (a',m')) : Ages m m' := by
  unfold portsStep at h
  split at h
  case h_1 =>
    split at h
    · cases h
      exact .of_same rfl rfl rfl
    · cases h
      exact .of_same rfl rfl rfl
  case h_2 result hports =>
    cases h
    have hphase : m.phase = .starting := hm.isStarting (Or.inl (fun ok => by rw [hports]; simp))
    exact .of_unbound rfl (hm.bindings (Or.inr ⟨result,hports⟩)) hphase
  case h_3 =>
    cases h
    exact .of_same rfl rfl rfl
  case h_4 => cases h

theorem displayStep_ages {draws : ℕ → Fin numAllowedTTYs} (h : m.displayStep usesGPU a draws = .ok (a',m')) :
    Ages m m' ∧ m'.phase = m.phase := by
  unfold displayStep at h
  split at h
  · split at h <;> (cases h; exact ⟨.of_same rfl rfl rfl,rfl⟩)
  · cases h
    exact ⟨.of_same rfl rfl rfl,rfl⟩
  · split_ifs at h
    · split at h <;> (cases h; exact ⟨.of_same rfl rfl rfl,rfl⟩)
    · cases h
      exact ⟨.of_same rfl rfl rfl,rfl⟩
  · cases h
    exact ⟨.of_same rfl rfl rfl,rfl⟩
  · cases h

theorem cleanupStep_closed (h : m.cleanupStep usesGPU a = .ok (a',m')) : m.IsClosed ∧ m'.IsClosed := by
  unfold cleanupStep at h
  split at h
  case h_1 hphase =>
    cases h
    simp [IsClosed, hphase]
  case h_2 hphase =>
    cases h
    simp [IsClosed, hphase]
  case h_3 hphase =>
    split_ifs at h
    · split at h
      · cases h
      · cases h
        simp [IsClosed, hphase]
      · cases h
        simp [IsClosed, hphase]
    · cases h
      simp [IsClosed, hphase]
  case h_4 => cases h

theorem step_ages (hm : m.WellFormed) (h : m.step usesGPU a action = .ok (a',m')) : Ages m m' := by
  cases action with
  | ports draws => exact portsStep_ages hm h
  | devices ok =>
    dsimp only [step, devicesStep] at h
    split at h
    · cases h
      exact .of_same rfl rfl rfl
    · cases h
  | display draws => exact (displayStep_ages h).1
  | wait =>
    dsimp only [step, waitStep] at h
    split at h
    case h_1 hphase hports _ _ =>
      cases h
      refine ⟨rfl,fun ports hbound => ?_,fun hclosed => absurd hphase hclosed.1⟩
      rcases hbound with hbindings | hclosed
      · exact Or.inl hbindings
      · exact absurd hphase hclosed.1
    case h_2 => cases h
  | close =>
    dsimp only [step, closeStep] at h
    split at h
    · cases h
      exact .of_closed rfl (by simp [IsClosed])
    · cases h
  | cleanup => exact .of_closed (step_id h) (cleanupStep_closed h).2

theorem step_created (h : m.step usesGPU a action = .ok (a',m')) (hclose : action ≠ .close)
    (hphase : m.phase = .created) : m'.phase = .created := by
  cases action with
  | ports draws =>
    dsimp only [step, portsStep] at h
    split at h
    · split at h <;> (cases h; exact hphase)
    · cases h
      exact hphase
    · cases h
      exact hphase
    · cases h
  | devices ok =>
    dsimp only [step, devicesStep] at h
    split at h
    · cases h
      exact hphase
    · cases h
  | display draws => rw [(displayStep_ages h).2, hphase]
  | wait =>
    dsimp only [step, waitStep] at h
    split at h
    case h_1 hstarting _ _ _ =>
      rw [hphase] at hstarting
      cases hstarting
    case h_2 => cases h
  | close => exact absurd rfl hclose
  | cleanup => exact absurd hphase (cleanupStep_closed h).1.2

end MandelboxData

theorem HostState.step_act {usesGPU : Bool} {h h' : HostState} {i : ℕ} {action : MandelboxAction}
    (hstep : h.step usesGPU (.act i action) = .ok h') : ∃ m a m', h.mandelboxes[i]? = some m ∧
      m.step usesGPU h.allocators action = .ok (a,m') ∧ h'.mandelboxes = h.mandelboxes.set i m' := by
  dsimp only [step] at hstep
  cases hi : h.mandelboxes[i]? with
  | none =>
    rw [hi] at hstep
    cases hstep
  | some m =>
    rw [hi] at hstep
    dsimp only at hstep
    cases hm : m.step usesGPU h.allocators action with
    | error e =>
      rw [hm] at hstep
      cases hstep
    | ok r =>
      obtain ⟨a,m'⟩ := r
      rw [hm] at hstep
      cases hstep
      exact ⟨m,a,m',rfl,hm,rfl⟩

def HostPorts.keys (p : HostPorts) : List (TransportProtocol × UInt16) :=
  [(.tcp,p.hostPortForTCP32261),(.tcp,p.hostPortForTCP32262),(.udp,p.hostPortForUDP32263),
    (.tcp,p.hostPortForTCP32273)]

theorem getHostPort_mem {binds : List PortBinding} {port p : UInt16} {protocol : TransportProtocol}
    (h : getHostPort binds port protocol = some p) : (protocol,p) ∈ binds.map PortBinding.key := by
  obtain ⟨b,hb,hp⟩ := Option.map_eq_some_iff.mp h
  have hfound := List.find?_some hb
  have hprotocol : b.protocol = protocol := by simpa using (Bool.and_eq_true_iff.mp hfound).1
  exact List.mem_map.mpr ⟨b,List.mem_of_find?_eq_some hb,by rw [PortBinding.key, hprotocol, hp]⟩

theorem hostPorts_mem {binds : List PortBinding} {ports : HostPorts} (h : hostPorts binds = some ports) :
    ∀ k ∈ ports.keys, k ∈ binds.map PortBinding.key := by
  unfold hostPorts at h
  split at h
  case h_1 p q r s hp hq hr hs =>
    cases h
    intro k hk
    simp only [HostPorts.keys, List.mem_cons, List.not_mem_nil, or_false] at hk
    rcases hk with rfl | rfl | rfl | rfl
    · exact getHostPort_mem hp
    · exact getHostPort_mem hq
    · exact getHostPort_mem hr
    · exact getHostPort_mem hs
  case h_2 => cases h

end Whist.Host
