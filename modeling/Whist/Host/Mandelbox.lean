import Whist.Host.Gpus
import Whist.Host.PortBindings

/-! # Starting and cleaning up mandelboxes

`StartMandelboxSpinUp` up to the end of its first group of goroutines, and the goroutine that cleans up.  Each lock is
taken for one step; what a goroutine has got and not yet stored is part of its state.
-/
namespace Whist.Host
open Ownership

inductive PortTask where
  | pending
  | allocated (result : List PortBinding)
  | assigned
  | ended (ok : Bool)
deriving DecidableEq

inductive DisplayTask where
  | pending
  | gotTTY (tty : UInt8)
  | hasTTY
  | gotGPU (index : ℕ)
  | ended (gpu : Bool) (ok : Bool)
deriving DecidableEq

inductive Cleanup where
  | cancelled
  | portsFreed
  | ttyFreed
deriving DecidableEq

inductive Phase where
  | starting
  | created
  | closing (cleanup : Cleanup)
  | cleaned
deriving DecidableEq

structure MandelboxData where
  id : MandelboxID
  tty : UInt8
  gpuIndex : ℕ
  portBindings : List PortBinding
  ports : PortTask
  devices : Option Bool
  display : DisplayTask
  phase : Phase
deriving DecidableEq

def MandelboxData.new (id : MandelboxID) : MandelboxData where
  id := id
  tty := 0
  gpuIndex := 0
  portBindings := []
  ports := .pending
  devices := none
  display := .pending
  phase := .starting

def desiredBinds : List PortBinding :=
  [⟨32261,0,"",.tcp⟩, ⟨32262,0,"",.tcp⟩, ⟨32263,0,"",.udp⟩, ⟨32273,0,"",.tcp⟩]

def getHostPort (binds : List PortBinding) (mandelboxPort : UInt16) (protocol : TransportProtocol) :
    Option UInt16 :=
  (binds.find? fun b => b.protocol = protocol && b.mandelboxPort = mandelboxPort).map PortBinding.hostPort

def hasHostPorts (binds : List PortBinding) : Bool :=
  (getHostPort binds 32261 .tcp).isSome && (getHostPort binds 32262 .tcp).isSome &&
    (getHostPort binds 32263 .udp).isSome && (getHostPort binds 32273 .tcp).isSome

structure Allocators where
  portMaps : PortMaps
  ttymap : TTYMap
  gpuMetadata : GPUs

inductive HostStuck where
  | noMandelbox
  | notNow
  | indexOutOfRange
deriving DecidableEq

inductive MandelboxAction where
  | ports (draws : ℕ → Draws numAllowedPorts)
  | devices (ok : Bool)
  | display (draws : ℕ → Fin numAllowedTTYs)
  | wait
  | close
  | cleanup

namespace MandelboxData

def portsStep (a : Allocators) (m : MandelboxData) (draws : ℕ → Draws numAllowedPorts) :
    Except HostStuck (Allocators × MandelboxData) :=
  match m.ports with
  | .pending =>
    match a.portMaps.allocate draws desiredBinds with
    | (.ok result,portMaps) => .ok ({ a with portMaps := portMaps },{ m with ports := .allocated result })
    | (.error _,portMaps) => .ok ({ a with portMaps := portMaps },{ m with ports := .ended false })
  | .allocated result => .ok (a,{ m with portBindings := result, ports := .assigned })
  | .assigned => .ok (a,{ m with ports := .ended (hasHostPorts m.portBindings) })
  | .ended _ => .error .notNow

def devicesStep (a : Allocators) (m : MandelboxData) (ok : Bool) :
    Except HostStuck (Allocators × MandelboxData) :=
  match m.devices with
  | none => .ok (a,{ m with devices := some ok })
  | some _ => .error .notNow

/-- Without GPUs, as in a continuous integration, none is assigned. -/
def displayStep (usesGPU : Bool) (a : Allocators) (m : MandelboxData) (draws : ℕ → Fin numAllowedTTYs) :
    Except HostStuck (Allocators × MandelboxData) :=
  match m.display with
  | .pending =>
    match a.ttymap.allocate draws with
    | .ok (tty,ttymap) => .ok ({ a with ttymap := ttymap },{ m with display := .gotTTY tty })
    | .error _ => .ok (a,{ m with display := .ended false false })
  | .gotTTY tty => .ok (a,{ m with tty := tty, display := .hasTTY })
  | .hasTTY =>
    if usesGPU then
      match a.gpuMetadata.allocate m.id with
      | .ok (index,gpus) => .ok ({ a with gpuMetadata := gpus },{ m with display := .gotGPU index })
      | .error _ => .ok (a,{ m with display := .ended false false })
    else .ok (a,{ m with display := .ended false true })
  | .gotGPU index => .ok (a,{ m with gpuIndex := index, display := .ended true true })
  | .ended _ _ => .error .notNow

def waitStep (a : Allocators) (m : MandelboxData) : Except HostStuck (Allocators × MandelboxData) :=
  match m.phase, m.ports, m.devices, m.display with
  | .starting, .ended portsOk, some devicesOk, .ended _ displayOk =>
    .ok (a,{ m with phase := if portsOk && devicesOk && displayOk then .created else .closing .cancelled })
  | _, _, _, _ => .error .notNow

/-- A later step of the spin-up fails, the container dies, or the mandelbox is stale.
Until then it has neither the status nor the Docker identifier by which it could be closed. -/
def closeStep (a : Allocators) (m : MandelboxData) : Except HostStuck (Allocators × MandelboxData) :=
  match m.phase with
  | .created => .ok (a,{ m with phase := .closing .cancelled })
  | _ => .error .notNow

def cleanupStep (usesGPU : Bool) (a : Allocators) (m : MandelboxData) :
    Except HostStuck (Allocators × MandelboxData) :=
  match m.phase with
  | .closing .cancelled =>
    .ok ({ a with portMaps := a.portMaps.free m.portBindings },
      { m with portBindings := [], phase := .closing .portsFreed })
  | .closing .portsFreed =>
    .ok ({ a with ttymap := a.ttymap.free m.tty },{ m with tty := 0, phase := .closing .ttyFreed })
  | .closing .ttyFreed =>
    if usesGPU then
      match a.gpuMetadata.free m.gpuIndex m.id with
      | none => .error .indexOutOfRange
      | some (.ok gpus) => .ok ({ a with gpuMetadata := gpus },{ m with phase := .cleaned })
      | some (.error _) => .ok (a,{ m with phase := .cleaned })
    else .ok (a,{ m with phase := .cleaned })
  | _ => .error .notNow

def step (usesGPU : Bool) (a : Allocators) (m : MandelboxData) :
    MandelboxAction → Except HostStuck (Allocators × MandelboxData)
  | .ports draws => m.portsStep a draws
  | .devices ok => m.devicesStep a ok
  | .display draws => m.displayStep usesGPU a draws
  | .wait => m.waitStep a
  | .close => m.closeStep a
  | .cleanup => m.cleanupStep usesGPU a

def heldPorts (m : MandelboxData) : List (TransportProtocol × UInt16) :=
  match m.ports with
  | .allocated result => result.map PortBinding.key
  | _ => m.portBindings.map PortBinding.key

def heldTTY (m : MandelboxData) : List UInt8 :=
  match m.display with
  | .gotTTY tty => [tty]
  | _ => if m.tty = 0 then [] else [m.tty]

def assignedGPU (m : MandelboxData) : Option ℕ :=
  match m.display with
  | .gotGPU index => some index
  | .ended true _ => some m.gpuIndex
  | _ => none

def heldGPU (m : MandelboxData) : Option ℕ := if m.phase = .cleaned then none else m.assignedGPU

/-- A field is zero as long as nothing has been stored there, and a mandelbox is closed
only when its goroutines have ended. -/
structure WellFormed (m : MandelboxData) : Prop where
  bindings : m.ports = .pending ∨ (∃ result, m.ports = .allocated result) → m.portBindings = []
  tty : m.display = .pending ∨ (∃ tty, m.display = .gotTTY tty) → m.tty = 0
  drawn : ∀ tty, m.display = .gotTTY tty → tty ≠ 0
  ended : m.phase ≠ .starting → (∃ ok, m.ports = .ended ok) ∧ ∃ gpu ok, m.display = .ended gpu ok
  freed : (m.phase = .cleaned ∨ ∃ c, m.phase = .closing c ∧ c ≠ .cancelled) → m.portBindings = []
  ttyFreed : (m.phase = .cleaned ∨ m.phase = .closing .ttyFreed) → m.tty = 0
  devicesEnded : m.phase ≠ .starting → m.devices ≠ none

end MandelboxData

structure HostState where
  allocators : Allocators
  mandelboxes : List MandelboxData

inductive HostMove where
  | new (id : MandelboxID)
  | act (i : ℕ) (action : MandelboxAction)

/-- A new mandelbox has an identifier that no other one has. -/
def HostState.step (usesGPU : Bool) (s : HostState) : HostMove → Except HostStuck HostState
  | .new id =>
    if s.mandelboxes.any fun m => m.id = id && m.phase ≠ .cleaned then .error .notNow
    else .ok { s with mandelboxes := s.mandelboxes ++ [MandelboxData.new id] }
  | .act i action =>
    match s.mandelboxes[i]? with
    | none => .error .noMandelbox
    | some m =>
      match m.step usesGPU s.allocators action with
      | .error e => .error e
      | .ok (allocators,m) => .ok { allocators := allocators, mandelboxes := s.mandelboxes.set i m }

def HostState.initial (reservations : List (UInt16 × TransportProtocol)) (numGPUs : ℕ) : HostState where
  allocators :=
    { portMaps := reservations.foldl (fun maps r => maps.reserve r.1 r.2)
        { tcpPortMap := fun _ => none, udpPortMap := fun _ => none }
      ttymap := fun _ => none
      gpuMetadata := List.replicate numGPUs { assignedMandelboxes := [], usage := 0 } }
  mandelboxes := []

def HostState.owned {κ : Type} (s : HostState) (held : MandelboxData → List κ) (i : ℕ) : List κ :=
  match s.mandelboxes[i]? with
  | some m => held m
  | none => []

end Whist.Host
