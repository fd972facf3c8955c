import Whist.Foundation.Run
import Whist.Foundation.Slots
import Whist.Host.Mandelbox

/-! # Exclusive resources -/
namespace Whist.Host
open Ownership

inductive GPUEffect (m : MandelboxData) (gpus gpus' : GPUs) (held' : Option ℕ) : Prop where
  | keep (hgpus : gpus' = gpus) (hheld : held' = m.heldGPU) : GPUEffect m gpus gpus' held'
  | claim (index : ℕ) (gpu : GPU) (hnone : m.heldGPU = none) (hheld : held' = some index)
      (hlive : m.phase ≠ .cleaned) (hgpu : gpus[index]? = some gpu) (husage : gpu.usage < maxMandelboxesPerGPU)
      (hgpus : gpus' = gpus.set index
        { assignedMandelboxes := gpu.assignedMandelboxes ++ [m.id], usage := gpu.usage + 1 }) :
    GPUEffect m gpus gpus' held'
  | free (r : Except String GPUs) (hfree : gpus.free m.gpuIndex m.id = some r)
      (hheld : m.heldGPU = none ∨ m.heldGPU = some m.gpuIndex) (hlive : m.phase ≠ .cleaned)
      (hnone : held' = none) (hgpus : gpus' = r.toOption.getD gpus) : GPUEffect m gpus gpus' held'

structure StepEffect (a : Allocators) (m : MandelboxData) (a' : Allocators) (m' : MandelboxData) : Prop where
  id : m'.id = m.id
  live : m.phase ≠ .cleaned
  wellFormed : m'.WellFormed
  ports : Effect IsAllowedKey a.portMaps.table a'.portMaps.table m.heldPorts m'.heldPorts
  ttys : Effect (fun tty => ttyIsInAllowedRange tty = true) a.ttymap a'.ttymap m.heldTTY m'.heldTTY
  gpus : GPUEffect m a.gpuMetadata a'.gpuMetadata m'.heldGPU

namespace MandelboxData
variable {usesGPU : Bool} {a a' : Allocators} {m m' : MandelboxData}

theorem heldPorts_of_bindings (h : ∀ result, m.ports ≠ .allocated result) :
    m.heldPorts = m.portBindings.map PortBinding.key := by
  unfold heldPorts
  cases hports : m.ports <;> first | rfl | exact absurd hports (h _)

theorem heldTTY_of_field (h : ∀ tty, m.display ≠ .gotTTY tty) :
    m.heldTTY = if m.tty = 0 then [] else [m.tty] := by
  unfold heldTTY
  cases hdisplay : m.display <;> first | rfl | exact absurd hdisplay (h _)

theorem heldGPU_of_live (h : m.phase ≠ .cleaned) : m.heldGPU = m.assignedGPU := if_neg h

theorem WellFormed.starting (hphase : m.phase = .starting)
    (hbindings : m.ports = .pending ∨ (∃ result, m.ports = .allocated result) → m.portBindings = [])
    (htty : m.display = .pending ∨ (∃ tty, m.display = .gotTTY tty) → m.tty = 0)
    (hdrawn : ∀ tty, m.display = .gotTTY tty → tty ≠ 0) : m.WellFormed where
  bindings := hbindings
  tty := htty
  drawn := hdrawn
  ended := fun h => absurd hphase h
  freed := by simp [hphase]
  ttyFreed := by simp [hphase]
  devicesEnded := fun h => absurd hphase h

theorem WellFormed.cleaned_holds (hm : m.WellFormed) (hphase : m.phase = .cleaned) :
    m.heldPorts = [] ∧ m.heldTTY = [] ∧ m.heldGPU = none := by
  obtain ⟨⟨ok,hports⟩,gpu,ok',hdisplay⟩ := hm.ended (by simp [hphase])
  refine ⟨?_,?_,if_pos hphase⟩
  · rw [heldPorts_of_bindings (by simp [hports]), hm.freed (Or.inl hphase), List.map_nil]
  · rw [heldTTY_of_field (by simp [hdisplay]), if_pos (hm.ttyFreed (Or.inl hphase))]

theorem WellFormed.isStarting (hm : m.WellFormed)
    (h : (∀ ok, m.ports ≠ .ended ok) ∨ ∀ gpu ok, m.display ≠ .ended gpu ok) : m.phase = .starting := by
  by_contra hphase
  obtain ⟨⟨ok,hok⟩,gpu,ok',hok'⟩ := hm.ended hphase
  rcases h with h | h
  · exact h ok hok
  · exact h gpu ok' hok'

theorem portsStep_effect {draws : ℕ → Draws numAllowedPorts} (hm : m.WellFormed)
    (h : m.portsStep a draws = .ok (a',m')) : StepEffect a m a' m' := by
  have hstarting : (∀ ok, m.ports ≠ .ended ok) → m.phase = .starting := fun h => hm.isStarting (Or.inl h)
  unfold portsStep at h
  cases hports : m.ports with
  | pending =>
    have hphase := hstarting (by simp [hports])
    have hfield : m.portBindings = [] := hm.bindings (Or.inl hports)
    have hnone : m.heldPorts = [] := by rw [heldPorts_of_bindings (by simp [hports]), hfield, List.map_nil]
    rw [hports] at h
    obtain ⟨⟨r,maps⟩,halloc⟩ : ∃ r, a.portMaps.allocate draws desiredBinds = r := ⟨_,rfl⟩
    rw [halloc] at h
    cases r with
    | ok result =>
      simp only [Except.ok.injEq, Prod.mk.injEq] at h
      obtain ⟨rfl,rfl⟩ := h
      obtain ⟨hc,hallowed,-⟩ := PortMaps.allocate_ok halloc
      have hkeys : ∀ k ∈ result.map PortBinding.key, IsAllowedKey k := by
        intro k hk
        obtain ⟨b,hb,rfl⟩ := List.mem_map.mp hk
        exact hallowed b hb
      exact ⟨rfl,by simp [hphase],.starting hphase (fun _ => hfield) hm.tty hm.drawn,.claim hnone hc hkeys,
        .keep rfl rfl,.keep rfl rfl⟩
    | error e =>
      simp only [Except.ok.injEq, Prod.mk.injEq] at h
      obtain ⟨rfl,rfl⟩ := h
      obtain rfl := PortMaps.allocate_error halloc
      refine ⟨rfl,by simp [hphase],.starting hphase (by simp) hm.tty hm.drawn,.keep rfl ?_,.keep rfl rfl,
        .keep rfl rfl⟩
      rw [hnone, heldPorts_of_bindings (by simp), hfield, List.map_nil]
  | allocated result =>
    have hphase := hstarting (by simp [hports])
    rw [hports] at h
    simp only [Except.ok.injEq, Prod.mk.injEq] at h
    obtain ⟨rfl,rfl⟩ := h
    refine ⟨rfl,by simp [hphase],.starting hphase (by simp) hm.tty hm.drawn,.keep rfl ?_,.keep rfl rfl,
      .keep rfl rfl⟩
    rw [heldPorts_of_bindings (by simp), heldPorts, hports]
  | assigned =>
    have hphase := hstarting (by simp [hports])
    rw [hports] at h
    simp only [Except.ok.injEq, Prod.mk.injEq] at h
    obtain ⟨rfl,rfl⟩ := h
    refine ⟨rfl,by simp [hphase],.starting hphase (by simp) hm.tty hm.drawn,.keep rfl ?_,.keep rfl rfl,
      .keep rfl rfl⟩
    rw [heldPorts_of_bindings (by simp), heldPorts_of_bindings (by simp [hports])]
  | ended ok => simp [hports] at h

theorem displayStep_effect {draws : ℕ → Fin numAllowedTTYs} (hm : m.WellFormed)
    (h : m.displayStep usesGPU a draws = .ok (a',m')) : StepEffect a m a' m' := by
  have hstarting : (∀ gpu ok, m.display ≠ .ended gpu ok) → m.phase = .starting :=
    fun h => hm.isStarting (Or.inr h)
  unfold displayStep at h
  cases hdisplay : m.display with
  | pending =>
    have hphase := hstarting (by simp [hdisplay])
    have hfield : m.tty = 0 := hm.tty (Or.inl hdisplay)
    have hnone : m.heldTTY = [] := by rw [heldTTY_of_field (by simp [hdisplay]), if_pos hfield]
    have hgpu : m.heldGPU = none := by rw [heldGPU_of_live (by simp [hphase]), assignedGPU, hdisplay]
    rw [hdisplay] at h
    cases halloc : a.ttymap.allocate draws with
    | ok r =>
      obtain ⟨tty,ttymap⟩ := r
      rw [halloc] at h
      simp only [Except.ok.injEq, Prod.mk.injEq] at h
      obtain ⟨rfl,rfl⟩ := h
      obtain ⟨hc,hallowed⟩ := TTYMap.allocate_spec halloc
      have hdrawn : ∀ t, DisplayTask.gotTTY tty = .gotTTY t → t ≠ 0 := by
        rintro t ht rfl
        cases ht
        exact absurd hallowed (by decide)
      refine ⟨rfl,by simp [hphase],.starting hphase hm.bindings (fun _ => hfield) hdrawn,.keep rfl rfl,
        .claim hnone hc (by simpa [heldTTY] using hallowed),.keep rfl ?_⟩
      rw [hgpu, heldGPU_of_live (by simp [hphase]), assignedGPU]
    | error e =>
      rw [halloc] at h
      simp only [Except.ok.injEq, Prod.mk.injEq] at h
      obtain ⟨rfl,rfl⟩ := h
      refine ⟨rfl,by simp [hphase],.starting hphase hm.bindings (by simp) (by simp),.keep rfl rfl,.keep rfl ?_,
        .keep rfl ?_⟩
      · rw [hnone, heldTTY_of_field (by simp), if_pos hfield]
      · rw [hgpu, heldGPU_of_live (by simp [hphase]), assignedGPU]
  | gotTTY tty =>
    have hphase := hstarting (by simp [hdisplay])
    have hgpu : m.heldGPU = none := by rw [heldGPU_of_live (by simp [hphase]), assignedGPU, hdisplay]
    rw [hdisplay] at h
    simp only [Except.ok.injEq, Prod.mk.injEq] at h
    obtain ⟨rfl,rfl⟩ := h
    refine ⟨rfl,by simp [hphase],.starting hphase hm.bindings (by simp) (by simp),.keep rfl rfl,
      .keep rfl ?_,.keep rfl ?_⟩
    · rw [heldTTY_of_field (by simp), if_neg (hm.drawn tty hdisplay), heldTTY, hdisplay]
    · rw [hgpu, heldGPU_of_live (by simp [hphase]), assignedGPU]
  | hasTTY =>
    have hphase := hstarting (by simp [hdisplay])
    have hgpu : m.heldGPU = none := by rw [heldGPU_of_live (by simp [hphase]), assignedGPU, hdisplay]
    have htty : m.heldTTY = if m.tty = 0 then [] else [m.tty] := heldTTY_of_field (by simp [hdisplay])
    rw [hdisplay] at h
    dsimp only at h
    cases usesGPU with
    | false =>
      simp only [Bool.false_eq_true, if_false, Except.ok.injEq, Prod.mk.injEq] at h
      obtain ⟨rfl,rfl⟩ := h
      refine ⟨rfl,by simp [hphase],.starting hphase hm.bindings (by simp) (by simp),.keep rfl rfl,
        .keep rfl ?_,.keep rfl ?_⟩
      · rw [htty, heldTTY_of_field (by simp)]
      · rw [hgpu, heldGPU_of_live (by simp [hphase]), assignedGPU]
    | true =>
      rw [if_pos rfl] at h
      cases halloc : a.gpuMetadata.allocate m.id with
      | ok r =>
        obtain ⟨index,gpus⟩ := r
        rw [halloc] at h
        simp only [Except.ok.injEq, Prod.mk.injEq] at h
        obtain ⟨rfl,rfl⟩ := h
        obtain ⟨gpu,hget,husage,hgpus⟩ := GPUs.allocate_spec halloc
        refine ⟨rfl,by simp [hphase],.starting hphase hm.bindings (by simp) (by simp),.keep rfl rfl,
          .keep rfl ?_,.claim index gpu hgpu ?_ (by simp [hphase]) hget husage hgpus⟩
        · rw [htty, heldTTY_of_field (by simp)]
        · rw [heldGPU_of_live (by simp [hphase]), assignedGPU]
      | error e =>
        rw [halloc] at h
        simp only [Except.ok.injEq, Prod.mk.injEq] at h
        obtain ⟨rfl,rfl⟩ := h
        refine ⟨rfl,by simp [hphase],.starting hphase hm.bindings (by simp) (by simp),.keep rfl rfl,
          .keep rfl ?_,.keep rfl ?_⟩
        · rw [htty, heldTTY_of_field (by simp)]
        · rw [hgpu, heldGPU_of_live (by simp [hphase]), assignedGPU]
  | gotGPU index =>
    have hphase := hstarting (by simp [hdisplay])
    have htty : m.heldTTY = if m.tty = 0 then [] else [m.tty] := heldTTY_of_field (by simp [hdisplay])
    rw [hdisplay] at h
    simp only [Except.ok.injEq, Prod.mk.injEq] at h
    obtain ⟨rfl,rfl⟩ := h
    refine ⟨rfl,by simp [hphase],.starting hphase hm.bindings (by simp) (by simp),.keep rfl rfl,
      .keep rfl ?_,.keep rfl ?_⟩
    · rw [htty, heldTTY_of_field (by simp)]
    · rw [heldGPU_of_live (by simp [hphase]), heldGPU_of_live (by simp [hphase]), assignedGPU, assignedGPU,
        hdisplay]
  | ended gpu ok => simp [hdisplay] at h

theorem waitStep_effect (hm : m.WellFormed) (h : m.waitStep a = .ok (a',m')) : StepEffect a m a' m' := by
  unfold waitStep at h
  split at h
  case h_2 => cases h
  case h_1 portsOk devicesOk gpu displayOk hphase hports hdevices hdisplay =>
    simp only [Except.ok.injEq, Prod.mk.injEq] at h
    obtain ⟨rfl,rfl⟩ := h
    generalize hnext : (if (portsOk && devicesOk && displayOk) = true then Phase.created
      else .closing .cancelled) = next
    have hcases : next = .created ∨ next = .closing .cancelled := by
      rw [← hnext]
      split_ifs
      · exact Or.inl rfl
      · exact Or.inr rfl
    refine ⟨rfl,by simp [hphase],⟨hm.bindings,hm.tty,hm.drawn,fun _ => ⟨⟨_,hports⟩,_,_,hdisplay⟩,?_,?_,by simp [hdevices]⟩,
      .keep rfl rfl,.keep rfl rfl,.keep rfl ?_⟩
    · rcases hcases with rfl | rfl <;> simp
    · rcases hcases with rfl | rfl <;> simp
    · rw [heldGPU_of_live (by rcases hcases with rfl | rfl <;> simp), heldGPU_of_live (by simp [hphase])]
      rfl

theorem closeStep_effect (hm : m.WellFormed) (h : m.closeStep a = .ok (a',m')) : StepEffect a m a' m' := by
  unfold closeStep at h
  split at h
  case h_2 => cases h
  case h_1 hphase =>
    simp only [Except.ok.injEq, Prod.mk.injEq] at h
    obtain ⟨rfl,rfl⟩ := h
    have hended := hm.ended (by simp [hphase])
    refine ⟨rfl,by simp [hphase],⟨hm.bindings,hm.tty,hm.drawn,fun _ => hended,by simp,by simp,fun _ => hm.devicesEnded (by simp [hphase])⟩,
      .keep rfl rfl,.keep rfl rfl,.keep rfl ?_⟩
    rw [heldGPU_of_live (by simp), heldGPU_of_live (by simp [hphase])]
    rfl

theorem cleanupStep_effect (hm : m.WellFormed) (hzero : a.ttymap 0 ≠ some .inUse)
    (hgpu : usesGPU = false → m.assignedGPU = none) (h : m.cleanupStep usesGPU a = .ok (a',m')) :
    StepEffect a m a' m' := by
  unfold cleanupStep at h
  split at h
  case h_4 => cases h
  case h_1 hphase =>
    simp only [Except.ok.injEq, Prod.mk.injEq] at h
    obtain ⟨rfl,rfl⟩ := h
    obtain ⟨⟨ok,hports⟩,hdisplay⟩ := hm.ended (by simp [hphase])
    have hheld : m.heldPorts = m.portBindings.map PortBinding.key := heldPorts_of_bindings (by simp [hports])
    refine ⟨rfl,by simp [hphase],
      ⟨fun _ => rfl,hm.tty,hm.drawn,fun _ => ⟨⟨ok,hports⟩,hdisplay⟩,fun _ => rfl,by simp,
        fun _ => hm.devicesEnded (by simp [hphase])⟩,
      .release ?_ ?_,.keep rfl rfl,.keep rfl ?_⟩
    · rw [hheld]
      exact PortMaps.free_released _ _
    · rw [heldPorts_of_bindings (by simp [hports])]
      rfl
    · rw [heldGPU_of_live (by simp), heldGPU_of_live (by simp [hphase])]
      rfl
  case h_2 hphase =>
    simp only [Except.ok.injEq, Prod.mk.injEq] at h
    obtain ⟨rfl,rfl⟩ := h
    obtain ⟨hports,gpu,ok,hdisplay⟩ := hm.ended (by simp [hphase])
    have hbindings := hm.freed (Or.inr ⟨_,hphase,by simp⟩)
    have hheld : m.heldTTY = if m.tty = 0 then [] else [m.tty] := heldTTY_of_field (by simp [hdisplay])
    have hnone : MandelboxData.heldTTY { m with tty := 0, phase := .closing .ttyFreed } = [] := by
      rw [heldTTY_of_field (by simp [hdisplay]), if_pos rfl]
    refine ⟨rfl,by simp [hphase],
      ⟨hm.bindings,fun _ => rfl,hm.drawn,fun _ => ⟨hports,gpu,ok,hdisplay⟩,fun _ => hbindings,fun _ => rfl,
        fun _ => hm.devicesEnded (by simp [hphase])⟩,
      .keep rfl rfl,?_,.keep rfl ?_⟩
    · by_cases hfield : m.tty = 0
      · refine .keep ?_ (by rw [hnone, hheld, if_pos hfield])
        rw [hfield]
        exact TTYMap.free_of_notInUse hzero
      · refine .release ?_ hnone
        rw [hheld, if_neg hfield]
        exact TTYMap.free_released _ _
    · rw [heldGPU_of_live (by simp), heldGPU_of_live (by simp [hphase])]
      rfl
  case h_3 hphase =>
    obtain ⟨hports,gpu,ok,hdisplay⟩ := hm.ended (by simp [hphase])
    have hbindings := hm.freed (Or.inr ⟨_,hphase,by simp⟩)
    have htty := hm.ttyFreed (Or.inr hphase)
    have hwf : MandelboxData.WellFormed { m with phase := .cleaned } :=
      ⟨hm.bindings,hm.tty,hm.drawn,fun _ => ⟨hports,gpu,ok,hdisplay⟩,fun _ => hbindings,fun _ => htty,
        fun _ => hm.devicesEnded (by simp [hphase])⟩
    have hlive : m.phase ≠ .cleaned := by simp [hphase]
    have hheld : m.heldGPU = none ∨ m.heldGPU = some m.gpuIndex := by
      rw [heldGPU_of_live hlive, assignedGPU, hdisplay]
      cases gpu
      · exact Or.inl rfl
      · exact Or.inr rfl
    cases usesGPU with
    | false =>
      simp only [Bool.false_eq_true, if_false, Except.ok.injEq, Prod.mk.injEq] at h
      obtain ⟨rfl,rfl⟩ := h
      refine ⟨rfl,hlive,hwf,.keep rfl rfl,.keep rfl rfl,.keep rfl ?_⟩
      rw [heldGPU_of_live hlive, hgpu rfl]
      exact if_pos rfl
    | true =>
      rw [if_pos rfl] at h
      cases hfree : a.gpuMetadata.free m.gpuIndex m.id with
      | none => simp [hfree] at h
      | some r =>
        rw [hfree] at h
        cases r with
        | ok gpus =>
          simp only [Except.ok.injEq, Prod.mk.injEq] at h
          obtain ⟨rfl,rfl⟩ := h
          exact ⟨rfl,hlive,hwf,.keep rfl rfl,.keep rfl rfl,.free _ hfree hheld hlive (if_pos rfl) rfl⟩
        | error e =>
          simp only [Except.ok.injEq, Prod.mk.injEq] at h
          obtain ⟨rfl,rfl⟩ := h
          exact ⟨rfl,hlive,hwf,.keep rfl rfl,.keep rfl rfl,.free _ hfree hheld hlive (if_pos rfl) rfl⟩

theorem step_effect {action : MandelboxAction} (hm : m.WellFormed) (hzero : a.ttymap 0 ≠ some .inUse)
    (hgpu : usesGPU = false → m.assignedGPU = none) (h : m.step usesGPU a action = .ok (a',m')) :
    StepEffect a m a' m' := by
  cases action with
  | ports draws => exact portsStep_effect hm h
  | devices ok =>
    unfold step devicesStep at h
    cases hdevices : m.devices with
    | some ok => simp [hdevices] at h
    | none =>
      rw [hdevices] at h
      simp only [Except.ok.injEq, Prod.mk.injEq] at h
      obtain ⟨rfl,rfl⟩ := h
      have hphase : m.phase = .starting := by
        by_contra hphase
        exact hm.devicesEnded hphase hdevices
      exact ⟨rfl,by simp [hphase],.starting hphase hm.bindings hm.tty hm.drawn,.keep rfl rfl,.keep rfl rfl,
        .keep rfl rfl⟩
  | display draws => exact displayStep_effect hm h
  | wait => exact waitStep_effect hm h
  | close => exact closeStep_effect hm h
  | cleanup => exact cleanupStep_effect hm hzero hgpu h

theorem step_assignedGPU {action : MandelboxAction} (hnone : m.assignedGPU = none)
    (h : m.step false a action = .ok (a',m')) : m'.assignedGPU = none := by
  cases action with
  | ports draws =>
    change m.portsStep a draws = _ at h
    unfold portsStep at h
    split at h
    · split at h <;> cases h <;> exact hnone
    · cases h
      exact hnone
    · cases h
      exact hnone
    · cases h
  | devices ok =>
    change m.devicesStep a ok = _ at h
    unfold devicesStep at h
    split at h
    · cases h
      exact hnone
    · cases h
  | display draws =>
    change m.displayStep false a draws = _ at h
    unfold displayStep at h
    split at h
    · split at h <;> cases h <;> rfl
    · cases h
      rfl
    · cases h
      rfl
    · rename_i index hdisplay
      rw [assignedGPU, hdisplay] at hnone
      cases hnone
    · cases h
  | wait =>
    change m.waitStep a = _ at h
    unfold waitStep at h
    split at h
    · cases h
      exact hnone
    · cases h
  | close =>
    change m.closeStep a = _ at h
    unfold closeStep at h
    split at h
    · cases h
      exact hnone
    · cases h
  | cleanup =>
    change m.cleanupStep false a = _ at h
    unfold cleanupStep at h
    split at h
    · cases h
      exact hnone
    · cases h
      exact hnone
    · cases h
      exact hnone
    · cases h

end MandelboxData

def HoldsGPU (mandelboxes : List MandelboxData) (id : MandelboxID) (g : ℕ) : Prop :=
  ∃ (i : ℕ) (m : MandelboxData), mandelboxes[i]? = some m ∧ m.id = id ∧ m.heldGPU = some g

def GPUExact (mandelboxes : List MandelboxData) (g : ℕ) (gpu : GPU) : Prop :=
  gpu.usage = gpu.assignedMandelboxes.length ∧ gpu.usage ≤ maxMandelboxesPerGPU ∧
    gpu.assignedMandelboxes.Nodup ∧ ∀ id, id ∈ gpu.assignedMandelboxes ↔ HoldsGPU mandelboxes id g

def IsReserved (reservations : List (UInt16 × TransportProtocol)) (k : TransportProtocol × UInt16) : Prop :=
  IsAllowedKey k ∧ (k.2,k.1) ∈ reservations

/-- Every port, TTY and place on a GPU that is taken is held by one mandelbox that has not
been cleaned up. -/
structure ResourcesExclusive (reservations : List (UInt16 × TransportProtocol)) (s : HostState) : Prop where
  ports : Exact (IsReserved reservations) s.allocators.portMaps.table (s.owned MandelboxData.heldPorts)
  ports_allowed : ∀ i, ∀ k ∈ s.owned MandelboxData.heldPorts i, IsAllowedKey k
  ttys : Exact (fun _ => False) s.allocators.ttymap (s.owned MandelboxData.heldTTY)
  ttys_allowed : ∀ i, ∀ tty ∈ s.owned MandelboxData.heldTTY i, ttyIsInAllowedRange tty
  gpus : ∀ (g : ℕ) gpu, s.allocators.gpuMetadata[g]? = some gpu → GPUExact s.mandelboxes g gpu
  gpu_exists : ∀ id g, HoldsGPU s.mandelboxes id g → g < s.allocators.gpuMetadata.length
  cleaned : ∀ (i : ℕ) (m : MandelboxData), s.mandelboxes[i]? = some m → m.phase = .cleaned →
    m.heldPorts = [] ∧ m.heldTTY = [] ∧ m.heldGPU = none

structure HostInvariant (usesGPU : Bool) (reservations : List (UInt16 × TransportProtocol)) (s : HostState) :
    Prop where
  resources : ResourcesExclusive reservations s
  wellFormed : ∀ (i : ℕ) (m : MandelboxData), s.mandelboxes[i]? = some m → m.WellFormed
  noGPU : ∀ (i : ℕ) (m : MandelboxData), s.mandelboxes[i]? = some m → usesGPU = false → m.assignedGPU = none
  ids : ∀ (i j : ℕ) (m m' : MandelboxData), s.mandelboxes[i]? = some m → s.mandelboxes[j]? = some m' →
    m.phase ≠ .cleaned → m'.phase ≠ .cleaned → m.id = m'.id → i = j

variable {usesGPU : Bool} {reservations : List (UInt16 × TransportProtocol)} {s t : HostState}

theorem live_of_heldGPU {m : MandelboxData} {g : ℕ} (h : m.heldGPU = some g) : m.phase ≠ .cleaned := by
  intro hphase
  rw [MandelboxData.heldGPU, if_pos hphase] at h
  cases h

theorem owned_set {κ : Type} (held : MandelboxData → List κ) {i : ℕ} {m : MandelboxData}
    (h : s.mandelboxes[i]? = some m) (a : Allocators) (m' : MandelboxData) :
    HostState.owned { allocators := a, mandelboxes := s.mandelboxes.set i m' } held =
      Function.update (s.owned held) i (held m') := by
  funext j
  simp only [HostState.owned, Slots.getElem?_set_of_some h]
  by_cases hj : j = i
  · rw [if_pos hj, hj, Function.update_self]
  · rw [if_neg hj, Function.update_of_ne hj]
    rfl

theorem owned_self {κ : Type} (held : MandelboxData → List κ) {i : ℕ} {m : MandelboxData}
    (h : s.mandelboxes[i]? = some m) : s.owned held i = held m := by
  rw [HostState.owned, h]

namespace HostInvariant

theorem holds_set (h : HostInvariant usesGPU reservations s) {i : ℕ} {m m' : MandelboxData}
    (hi : s.mandelboxes[i]? = some m) (hlive : m.phase ≠ .cleaned) (hid : m'.id = m.id) (id : MandelboxID)
    (g : ℕ) : (HoldsGPU s.mandelboxes id g ↔ if id = m.id then m.heldGPU = some g
        else HoldsGPU s.mandelboxes id g) ∧
      (HoldsGPU (s.mandelboxes.set i m') id g ↔ if id = m.id then m'.heldGPU = some g
        else HoldsGPU s.mandelboxes id g) := by
  have honly : ∀ {j : ℕ} {mj : MandelboxData}, s.mandelboxes[j]? = some mj → mj.heldGPU = some g →
      mj.id = m.id → j = i :=
    fun hj hheld hjid => h.ids _ i _ m hj hi (live_of_heldGPU hheld) hlive hjid
  by_cases he : id = m.id
  · rw [if_pos he, if_pos he]
    subst he
    constructor
    · constructor
      · rintro ⟨j,mj,hj,hjid,hheld⟩
        obtain rfl := honly hj hheld hjid
        rw [hi] at hj
        exact Option.some.inj hj ▸ hheld
      · exact fun hheld => ⟨i,m,hi,rfl,hheld⟩
    · constructor
      · rintro ⟨j,mj,hj,hjid,hheld⟩
        rw [Slots.getElem?_set_of_some hi] at hj
        by_cases hji : j = i
        · rw [if_pos hji] at hj
          exact Option.some.inj hj ▸ hheld
        · rw [if_neg hji] at hj
          exact absurd (honly hj hheld hjid) hji
      · exact fun hheld => ⟨i,m',by rw [Slots.getElem?_set_of_some hi, if_pos rfl],hid,hheld⟩
  · rw [if_neg he, if_neg he]
    refine ⟨Iff.rfl,?_⟩
    constructor
    · rintro ⟨j,mj,hj,rfl,hheld⟩
      rw [Slots.getElem?_set_of_some hi] at hj
      by_cases hji : j = i
      · rw [if_pos hji] at hj
        exact absurd (Option.some.inj hj ▸ hid) he
      · rw [if_neg hji] at hj
        exact ⟨j,mj,hj,rfl,hheld⟩
    · rintro ⟨j,mj,hj,rfl,hheld⟩
      refine ⟨j,mj,?_,rfl,hheld⟩
      rw [Slots.getElem?_set_of_some hi, if_neg, hj]
      rintro rfl
      rw [hi] at hj
      exact he (Option.some.inj hj ▸ rfl)

theorem gpus_step (h : HostInvariant usesGPU reservations s) {i : ℕ} {m m' : MandelboxData} {gpus' : GPUs}
    (hi : s.mandelboxes[i]? = some m) (hlive : m.phase ≠ .cleaned) (hid : m'.id = m.id)
    (he : GPUEffect m s.allocators.gpuMetadata gpus' m'.heldGPU) :
    (∀ (g : ℕ) gpu, gpus'[g]? = some gpu → GPUExact (s.mandelboxes.set i m') g gpu) ∧
      ∀ id g, HoldsGPU (s.mandelboxes.set i m') id g → g < gpus'.length := by
  have hsame : m'.heldGPU = m.heldGPU → ∀ id g, HoldsGPU (s.mandelboxes.set i m') id g ↔
      HoldsGPU s.mandelboxes id g := by
    intro hheld id g
    obtain ⟨hbefore,hafter⟩ := h.holds_set hi hlive hid id g
    by_cases hidm : id = m.id
    · rw [if_pos hidm] at hbefore hafter
      rw [hafter, hbefore, hheld]
    · rw [if_neg hidm] at hafter
      exact hafter
  have hkept : m'.heldGPU = m.heldGPU →
      (∀ (g : ℕ) gpu, s.allocators.gpuMetadata[g]? = some gpu → GPUExact (s.mandelboxes.set i m') g gpu) ∧
        ∀ id g, HoldsGPU (s.mandelboxes.set i m') id g → g < s.allocators.gpuMetadata.length := by
    intro hheld
    refine ⟨fun g gpu hg => ?_,fun id g hh => h.resources.gpu_exists id g ((hsame hheld id g).mp hh)⟩
    obtain ⟨husage,hmax,hnodup,hmem⟩ := h.resources.gpus g gpu hg
    exact ⟨husage,hmax,hnodup,fun id => (hmem id).trans (hsame hheld id g).symm⟩
  cases he with
  | keep hgpus hheld =>
    rw [hgpus]
    exact hkept hheld
  | claim index gpu hnone hheld _ hgpu husage hgpus =>
    subst hgpus
    have hidx : index < s.allocators.gpuMetadata.length := (List.getElem?_eq_some_iff.mp hgpu).1
    constructor
    · intro g gpu' hg
      rw [Slots.getElem?_set_of_some hgpu] at hg
      by_cases hgi : g = index
      · rw [if_pos hgi, Option.some.injEq] at hg
        subst hg hgi
        obtain ⟨hlen,-,hnodup,hmem⟩ := h.resources.gpus g gpu hgpu
        have hfresh : m.id ∉ gpu.assignedMandelboxes := by
          rw [hmem, (h.holds_set hi hlive hid m.id g).1, if_pos rfl, hnone]
          nofun
        refine ⟨by simp [hlen],husage,?_,fun id => ?_⟩
        · exact List.nodup_append.mpr ⟨hnodup,List.nodup_singleton _,fun x hx y hy hxy =>
            hfresh (List.mem_singleton.mp hy ▸ hxy ▸ hx)⟩
        · rw [(h.holds_set hi hlive hid id g).2, List.mem_append, List.mem_singleton]
          by_cases hidm : id = m.id
          · simp [hidm, hheld]
          · rw [if_neg hidm, hmem]
            simp [hidm]
      · rw [if_neg hgi] at hg
        obtain ⟨hlen,hmax,hnodup,hmem⟩ := h.resources.gpus g gpu' hg
        refine ⟨hlen,hmax,hnodup,fun id => ?_⟩
        rw [hmem, (h.holds_set hi hlive hid id g).1, (h.holds_set hi hlive hid id g).2, hnone, hheld]
        by_cases hidm : id = m.id
        · simp [hidm, Ne.symm hgi]
        · rw [if_neg hidm, if_neg hidm]
    · intro id g hh
      rw [List.length_set]
      rw [(h.holds_set hi hlive hid id g).2] at hh
      by_cases hidm : id = m.id
      · rw [if_pos hidm, hheld, Option.some.injEq] at hh
        exact hh ▸ hidx
      · rw [if_neg hidm] at hh
        exact h.resources.gpu_exists id g hh
  | free r hfree hheld _ hnone hgpus =>
    unfold GPUs.free at hfree
    obtain ⟨gpu,hgpu,hr⟩ := Option.map_eq_some_iff.mp hfree
    obtain ⟨hlen,hmax,hnodup,hmem⟩ := h.resources.gpus _ gpu hgpu
    have hassigned : m.id ∈ gpu.assignedMandelboxes ↔ m.heldGPU = some m.gpuIndex := by
      rw [hmem, (h.holds_set hi hlive hid m.id m.gpuIndex).1, if_pos rfl]
    rcases hheld with hheld | hheld
    · have hfail : gpus' = s.allocators.gpuMetadata := by
        have hnot : m.id ∉ gpu.assignedMandelboxes := by
          rw [hassigned, hheld]
          nofun
        have hcontains : sliceContains gpu.assignedMandelboxes m.id = false := by
          rw [← Bool.not_eq_true, sliceContains_iff]
          exact hnot
        rw [hgpus, ← hr, hcontains]
        split_ifs <;> first | rfl | contradiction
      rw [hfail]
      exact hkept (hnone.trans hheld.symm)
    · have hin : m.id ∈ gpu.assignedMandelboxes := hassigned.mpr hheld
      have hpos : ¬gpu.usage ≤ 0 := by
        rw [hlen]
        exact not_le.mpr (List.length_pos_of_mem hin)
      have hcontains : sliceContains gpu.assignedMandelboxes m.id = true := (sliceContains_iff _ _).mpr hin
      have hset : gpus' = s.allocators.gpuMetadata.set m.gpuIndex
          { assignedMandelboxes := sliceRemove gpu.assignedMandelboxes m.id, usage := gpu.usage - 1 } := by
        rw [hgpus, ← hr, hcontains, if_neg hpos]
        rfl
      subst hset
      have hperm := sliceRemove_perm hin
      constructor
      · intro g gpu' hg
        rw [Slots.getElem?_set_of_some hgpu] at hg
        by_cases hgi : g = m.gpuIndex
        · rw [if_pos hgi, Option.some.injEq] at hg
          subst hg hgi
          refine ⟨?_,(Nat.sub_le _ _).trans hmax,hperm.nodup_iff.mpr (hnodup.erase _),fun id => ?_⟩
          · rw [hperm.length_eq, List.length_erase_of_mem hin, hlen]
          · rw [hperm.mem_iff, hnodup.mem_erase_iff, (h.holds_set hi hlive hid id _).2, hmem]
            by_cases hidm : id = m.id
            · simp [hidm, hnone]
            · simp [hidm]
        · rw [if_neg hgi] at hg
          obtain ⟨hlen',hmax',hnodup',hmem'⟩ := h.resources.gpus g gpu' hg
          refine ⟨hlen',hmax',hnodup',fun id => ?_⟩
          rw [hmem', (h.holds_set hi hlive hid id g).1, (h.holds_set hi hlive hid id g).2, hnone, hheld]
          by_cases hidm : id = m.id
          · simp [hidm, Ne.symm hgi]
          · rw [if_neg hidm, if_neg hidm]
      · intro id g hh
        rw [List.length_set]
        rw [(h.holds_set hi hlive hid id g).2] at hh
        by_cases hidm : id = m.id
        · rw [if_pos hidm, hnone] at hh
          cases hh
        · rw [if_neg hidm] at hh
          exact h.resources.gpu_exists id g hh

theorem act (h : HostInvariant usesGPU reservations s) {i : ℕ} {m m' : MandelboxData} {a' : Allocators}
    (hi : s.mandelboxes[i]? = some m) (he : StepEffect s.allocators m a' m')
    (hnoGPU : usesGPU = false → m'.assignedGPU = none) :
    HostInvariant usesGPU reservations { allocators := a', mandelboxes := s.mandelboxes.set i m' } := by
  obtain ⟨hgpus,hexists⟩ := h.gpus_step hi he.live he.id he.gpus
  have hports := he.ports
  have httys := he.ttys
  rw [← owned_self MandelboxData.heldPorts hi] at hports
  rw [← owned_self MandelboxData.heldTTY hi] at httys
  have hget : ∀ {j : ℕ} {mj : MandelboxData}, (s.mandelboxes.set i m')[j]? = some mj →
      (j = i ∧ mj = m') ∨ (j ≠ i ∧ s.mandelboxes[j]? = some mj) := by
    intro j mj hj
    rw [Slots.getElem?_set_of_some hi] at hj
    by_cases hji : j = i
    · rw [if_pos hji, Option.some.injEq] at hj
      exact Or.inl ⟨hji,hj.symm⟩
    · rw [if_neg hji] at hj
      exact Or.inr ⟨hji,hj⟩
  refine ⟨⟨?_,?_,?_,?_,hgpus,hexists,?_⟩,?_,?_,?_⟩
  · rw [owned_set _ hi]
    exact h.resources.ports.step hports
  · intro j
    rw [owned_set _ hi]
    rcases eq_or_ne j i with rfl | hji
    · rw [Function.update_self]
      exact hports.allowed (h.resources.ports_allowed j)
    · rw [Function.update_of_ne hji]
      exact h.resources.ports_allowed j
  · rw [owned_set _ hi]
    exact h.resources.ttys.step httys
  · intro j
    rw [owned_set _ hi]
    rcases eq_or_ne j i with rfl | hji
    · rw [Function.update_self]
      exact httys.allowed (h.resources.ttys_allowed j)
    · rw [Function.update_of_ne hji]
      exact h.resources.ttys_allowed j
  · intro j mj hj hphase
    rcases hget hj with ⟨rfl,rfl⟩ | ⟨-,hold⟩
    · exact he.wellFormed.cleaned_holds hphase
    · exact h.resources.cleaned j mj hold hphase
  · intro j mj hj
    rcases hget hj with ⟨rfl,rfl⟩ | ⟨-,hold⟩
    · exact he.wellFormed
    · exact h.wellFormed j mj hold
  · intro j mj hj
    rcases hget hj with ⟨rfl,rfl⟩ | ⟨-,hold⟩
    · exact hnoGPU
    · exact h.noGPU j mj hold
  · intro j l mj ml hj hl hjlive hllive hid
    rcases hget hj with ⟨rfl,rfl⟩ | ⟨-,hjold⟩
    · rcases hget hl with ⟨rfl,rfl⟩ | ⟨-,hlold⟩
      · rfl
      · exact h.ids j l m ml hi hlold he.live hllive (he.id.symm.trans hid)
    · rcases hget hl with ⟨rfl,rfl⟩ | ⟨-,hlold⟩
      · exact h.ids j l mj m hjold hi hjlive he.live (hid.trans he.id)
      · exact h.ids j l mj ml hjold hlold hjlive hllive hid

theorem new (h : HostInvariant usesGPU reservations s) {id : MandelboxID}
    (hfresh : ∀ (i : ℕ) (m : MandelboxData), s.mandelboxes[i]? = some m → m.phase ≠ .cleaned → m.id ≠ id) :
    HostInvariant usesGPU reservations
      { s with mandelboxes := s.mandelboxes ++ [MandelboxData.new id] } := by
  have hget : ∀ {j : ℕ} {mj : MandelboxData},
      (s.mandelboxes ++ [MandelboxData.new id])[j]? = some mj →
        s.mandelboxes[j]? = some mj ∨ (j = s.mandelboxes.length ∧ mj = MandelboxData.new id) := by
    intro j mj hj
    rw [List.getElem?_append] at hj
    by_cases hlt : j < s.mandelboxes.length
    · exact Or.inl (by rwa [if_pos hlt] at hj)
    · rw [if_neg hlt, List.getElem?_singleton] at hj
      split_ifs at hj with hzero
      exact Or.inr ⟨by omega,(Option.some.inj hj).symm⟩
  have howned : ∀ {κ : Type} (held : MandelboxData → List κ), held (MandelboxData.new id) = [] →
      HostState.owned { s with mandelboxes := s.mandelboxes ++ [MandelboxData.new id] } held =
        s.owned held := by
    intro κ held hnone
    funext j
    cases hj : (s.mandelboxes ++ [MandelboxData.new id])[j]? with
    | none =>
      have hold : s.mandelboxes[j]? = none := by
        rw [List.getElem?_eq_none_iff, List.length_append] at hj
        exact List.getElem?_eq_none_iff.mpr (by omega)
      simp only [HostState.owned, hj, hold]
    | some mj =>
      rcases hget hj with hold | ⟨rfl,rfl⟩
      · simp only [HostState.owned, hj, hold]
      · simp only [HostState.owned, hj, List.getElem?_eq_none_iff.mpr le_rfl, hnone]
  have hholds : ∀ id' g, HoldsGPU (s.mandelboxes ++ [MandelboxData.new id]) id' g ↔
      HoldsGPU s.mandelboxes id' g := by
    intro id' g
    constructor
    · rintro ⟨j,mj,hj,hid,hheld⟩
      rcases hget hj with hold | ⟨-,rfl⟩
      · exact ⟨j,mj,hold,hid,hheld⟩
      · cases hheld
    · rintro ⟨j,mj,hj,hid,hheld⟩
      exact ⟨j,mj,List.getElem?_append_left (List.getElem?_eq_some_iff.mp hj).1 ▸ hj,hid,hheld⟩
  have hports := howned MandelboxData.heldPorts rfl
  have httys := howned MandelboxData.heldTTY rfl
  refine ⟨⟨?_,?_,?_,?_,?_,?_,?_⟩,?_,?_,?_⟩
  · rw [hports]
    exact h.resources.ports
  · rw [hports]
    exact h.resources.ports_allowed
  · rw [httys]
    exact h.resources.ttys
  · rw [httys]
    exact h.resources.ttys_allowed
  · intro g gpu hg
    obtain ⟨hlen,hmax,hnodup,hmem⟩ := h.resources.gpus g gpu hg
    exact ⟨hlen,hmax,hnodup,fun id' => (hmem id').trans (hholds id' g).symm⟩
  · exact fun id' g hh => h.resources.gpu_exists id' g ((hholds id' g).mp hh)
  · intro j mj hj hphase
    rcases hget hj with hold | ⟨-,rfl⟩
    · exact h.resources.cleaned j mj hold hphase
    · cases hphase
  · intro j mj hj
    rcases hget hj with hold | ⟨-,rfl⟩
    · exact h.wellFormed j mj hold
    · exact .starting rfl (fun _ => rfl) (fun _ => rfl) (by simp [MandelboxData.new])
  · intro j mj hj
    rcases hget hj with hold | ⟨-,rfl⟩
    · exact h.noGPU j mj hold
    · exact fun _ => rfl
  · intro j l mj ml hj hl hjlive hllive hid
    rcases hget hj with hjold | ⟨rfl,rfl⟩
    · rcases hget hl with hlold | ⟨rfl,rfl⟩
      · exact h.ids j l mj ml hjold hlold hjlive hllive hid
      · exact absurd hid (hfresh j mj hjold hjlive)
    · rcases hget hl with hlold | ⟨rfl,-⟩
      · exact absurd hid.symm (hfresh l ml hlold hllive)
      · rfl

theorem step (h : HostInvariant usesGPU reservations s) {mv : HostMove}
    (hstep : HostState.step usesGPU s mv = .ok t) : HostInvariant usesGPU reservations t := by
  cases mv with
  | new id =>
    dsimp only [HostState.step] at hstep
    split_ifs at hstep with hused
    cases hstep
    refine h.new (fun i m hi hlive hid => hused ?_)
    rw [List.any_eq_true]
    exact ⟨m,List.mem_of_getElem? hi,by simp [hid, hlive]⟩
  | act i action =>
    dsimp only [HostState.step] at hstep
    cases hi : s.mandelboxes[i]? with
    | none => simp [hi] at hstep
    | some m =>
      rw [hi] at hstep
      dsimp only at hstep
      cases hm : m.step usesGPU s.allocators action with
      | error e => simp [hm] at hstep
      | ok r =>
        obtain ⟨a',m'⟩ := r
        rw [hm] at hstep
        cases hstep
        have hzero : s.allocators.ttymap 0 ≠ some .inUse := by
          intro huse
          obtain ⟨j,hj⟩ := (h.resources.ttys.inUse_iff 0).mp huse
          exact absurd (h.resources.ttys_allowed j 0 hj) (by decide)
        refine h.act hi (MandelboxData.step_effect (h.wellFormed i m hi) hzero (h.noGPU i m hi) hm) ?_
        rintro rfl
        exact MandelboxData.step_assignedGPU (h.noGPU i m hi rfl) hm

end HostInvariant

def OnlyReserved (reservations : List (UInt16 × TransportProtocol)) (maps : PortMaps) : Prop :=
  ∀ k, (maps.table k = some .reserved ↔ IsReserved reservations k) ∧ maps.table k ≠ some .inUse

theorem reserve_table (maps : PortMaps) (num : UInt16) (protocol : TransportProtocol)
    (k : TransportProtocol × UInt16) :
    (maps.reserve num protocol).table k = maps.table k ∧ ¬(k = (protocol,num) ∧ IsAllowedKey k ∧ maps.table k = none) ∨
      (maps.reserve num protocol).table k = some .reserved ∧ k = (protocol,num) ∧ IsAllowedKey k := by
  unfold PortMaps.reserve
  by_cases hrange : isInAllowedRange num
  · rw [if_neg (by simp [hrange])]
    cases hmap : maps.getProtocolSpecificHostPortMap protocol with
    | error e =>
      refine Or.inl ⟨rfl,?_⟩
      rintro ⟨rfl,⟨hprotocol | hprotocol,-⟩,-⟩ <;>
      · dsimp only at hprotocol
        rw [hprotocol] at hmap
        cases hmap
    | ok map =>
      have htable := PortMaps.table_of_map hmap num
      dsimp only
      by_cases hsome : (map num).isSome
      · rw [if_pos hsome]
        refine Or.inl ⟨rfl,?_⟩
        rintro ⟨rfl,-,hnone⟩
        rw [htable] at hnone
        rw [hnone] at hsome
        cases hsome
      · rw [if_neg hsome, PortMaps.table_setStatus hmap]
        by_cases hk : k = (protocol,num)
        · have hprotocol : protocol = .tcp ∨ protocol = .udp := by
            cases protocol <;> first | exact Or.inl rfl | exact Or.inr rfl | cases hmap
          rw [if_pos hk]
          exact Or.inr ⟨rfl,hk,hk ▸ ⟨hprotocol,hrange⟩⟩
        · rw [if_neg hk]
          exact Or.inl ⟨rfl,fun h => hk h.1⟩
  · rw [if_pos (by simp [hrange])]
    refine Or.inl ⟨rfl,?_⟩
    rintro ⟨rfl,hallowed,-⟩
    exact hrange hallowed.2

theorem OnlyReserved.reserve {maps : PortMaps} (h : OnlyReserved reservations maps)
    (r : UInt16 × TransportProtocol) : OnlyReserved (reservations ++ [r]) (maps.reserve r.1 r.2) := by
  intro k
  obtain ⟨hres,huse⟩ := h k
  have hiff : IsReserved (reservations ++ [r]) k ↔
      IsReserved reservations k ∨ k = (r.2,r.1) ∧ IsAllowedKey k := by
    obtain ⟨num,protocol⟩ := r
    obtain ⟨protocol',num'⟩ := k
    simp only [IsReserved, List.mem_append, List.mem_singleton, Prod.mk.injEq]
    tauto
  rw [hiff, ← hres]
  rcases reserve_table maps r.1 r.2 k with ⟨htable,hnot⟩ | ⟨htable,hk,hallowed⟩
  · rw [htable]
    refine ⟨⟨Or.inl,?_⟩,huse⟩
    rintro (hold | ⟨hk,hallowed⟩)
    · exact hold
    · cases hstatus : maps.table k with
      | none => exact absurd ⟨hk,hallowed,hstatus⟩ hnot
      | some status =>
        cases status with
        | reserved => rfl
        | inUse => exact absurd hstatus huse
  · rw [htable]
    exact ⟨⟨fun _ => Or.inr ⟨hk,hallowed⟩,fun _ => rfl⟩,by simp⟩

theorem onlyReserved_foldl {maps : PortMaps} (h : OnlyReserved reservations maps)
    (more : List (UInt16 × TransportProtocol)) :
    OnlyReserved (reservations ++ more) (more.foldl (fun maps r => maps.reserve r.1 r.2) maps) := by
  induction more generalizing reservations maps with
  | nil => rwa [List.append_nil]
  | cons r rest ih =>
    have hnext := ih (h.reserve r)
    rwa [List.append_assoc, List.singleton_append] at hnext

theorem HostInvariant.initial (usesGPU : Bool) (reservations : List (UInt16 × TransportProtocol))
    (numGPUs : ℕ) : HostInvariant usesGPU reservations (HostState.initial reservations numGPUs) := by
  have hempty : OnlyReserved [] { tcpPortMap := fun _ => none, udpPortMap := fun _ => none } := by
    rintro ⟨protocol,port⟩
    cases protocol <;> simp [PortMaps.table, IsReserved]
  have hreserved : OnlyReserved reservations (HostState.initial reservations numGPUs).allocators.portMaps :=
    onlyReserved_foldl hempty reservations
  have hnone : ∀ {κ : Type} (held : MandelboxData → List κ) (i : ℕ),
      (HostState.initial reservations numGPUs).owned held i = [] := fun _ _ => rfl
  have hholds : ∀ id g, ¬HoldsGPU (HostState.initial reservations numGPUs).mandelboxes id g := by
    rintro id g ⟨i,m,hi,-⟩
    cases hi
  refine ⟨⟨⟨?_,?_,fun k => (hreserved k).1,?_⟩,?_,⟨?_,?_,?_,?_⟩,?_,?_,?_,?_⟩,?_,?_,?_⟩
  · exact fun i => List.nodup_nil
  · exact fun i j k _ hk => absurd hk List.not_mem_nil
  · exact fun k => ⟨fun huse => absurd huse (hreserved k).2,fun hheld => absurd hheld.choose_spec List.not_mem_nil⟩
  · exact fun i k hk => absurd hk List.not_mem_nil
  · exact fun i => List.nodup_nil
  · exact fun i j k _ hk => absurd hk List.not_mem_nil
  · exact fun k => ⟨fun hres => (by cases hres),False.elim⟩
  · exact fun k => ⟨fun huse => (by cases huse),fun hheld => absurd hheld.choose_spec List.not_mem_nil⟩
  · exact fun i k hk => absurd hk List.not_mem_nil
  · intro g gpu hg
    obtain rfl := List.eq_of_mem_replicate (List.mem_of_getElem? hg)
    exact ⟨rfl,Nat.zero_le _,List.nodup_nil,fun id => ⟨fun hid => absurd hid List.not_mem_nil,
      fun hh => absurd hh (hholds id g)⟩⟩
  · exact fun id g hh => absurd hh (hholds id g)
  · exact fun i m hi => by cases hi
  · exact fun i m hi => by cases hi
  · exact fun i m hi => by cases hi
  · exact fun i j m m' hi => by cases hi

/-- In every run of spin-ups and clean-ups the resources are exclusive and are returned,
and an allocation of ports that fails leaves the maps as they were. -/
theorem resources_exclusive (usesGPU : Bool) (reservations : List (UInt16 × TransportProtocol)) (numGPUs : ℕ)
    (moves : List HostMove) :
    (∀ t, Run.run (HostState.step usesGPU) (HostState.initial reservations numGPUs) moves = .ok t →
        ResourcesExclusive reservations t) ∧
      ∀ (maps maps' : PortMaps) draws desired e, maps.allocate draws desired = (.error e,maps') →
        maps' = maps := by
  refine ⟨fun t hrun => ?_,fun maps maps' draws desired e h => PortMaps.allocate_error h⟩
  exact (Run.run_invariant (P := fun _ => True) (fun s mv t hs _ hstep => HostInvariant.step hs hstep)
    (fun _ _ => trivial) (HostInvariant.initial usesGPU reservations numGPUs) hrun).resources

/-- Every draw of the `i`-th port is the same. -/
def drawPort (n i : ℕ) : Draws numAllowedPorts := fun _ => ⟨(n + i) % numAllowedPorts,Nat.mod_lt _ (by decide)⟩

def drawTTY (n : ℕ) : ℕ → Fin numAllowedTTYs := fun _ => ⟨n % numAllowedTTYs,Nat.mod_lt _ (by decide)⟩

def spinUpMoves (i n : ℕ) : List HostMove :=
  List.replicate 3 (.act i (.ports (drawPort n))) ++ [.act i (.devices true)] ++
    List.replicate 4 (.act i (.display (drawTTY n))) ++ [.act i .wait]

theorem resources_exclusive_spinUp :
    ∃ t, Run.run (HostState.step true) (HostState.initial [(4678,.tcp)] 1)
        ([.new "mandelbox-1"] ++ spinUpMoves 0 0 ++ [.new "mandelbox-2"] ++ spinUpMoves 1 4 ++
          [.act 0 .close, .act 0 .cleanup]) = .ok t ∧
      ResourcesExclusive [(4678,.tcp)] t := by
  have hok : (Run.run (HostState.step true) (HostState.initial [(4678,.tcp)] 1)
      ([.new "mandelbox-1"] ++ spinUpMoves 0 0 ++ [.new "mandelbox-2"] ++ spinUpMoves 1 4 ++
        [.act 0 .close, .act 0 .cleanup])).toOption.isSome := by decide +kernel
  cases hrun : Run.run (HostState.step true) (HostState.initial [(4678,.tcp)] 1)
      ([.new "mandelbox-1"] ++ spinUpMoves 0 0 ++ [.new "mandelbox-2"] ++ spinUpMoves 1 4 ++
        [.act 0 .close, .act 0 .cleanup]) with
  | error e =>
    rw [hrun] at hok
    cases hok
  | ok t => exact ⟨t,rfl,(resources_exclusive true [(4678,.tcp)] 1 _).1 t hrun⟩

end Whist.Host
