import Whist.Foundation.Ownership

/-! # Port bindings

`portbindings/port_bindings.go`: the host ports that are bound to ports of mandelboxes.  A
random port is drawn again, up to a hundred times, while it is taken.
-/
namespace Whist.Host
open Ownership

inductive TransportProtocol where
  | tcp
  | udp
  | other (name : String)
deriving DecidableEq, Repr

def TransportProtocol.text : TransportProtocol → String
  | .tcp => "tcp"
  | .udp => "udp"
  | .other name => name

structure PortBinding where
  mandelboxPort : UInt16
  hostPort : UInt16
  bindIP : String
  protocol : TransportProtocol
deriving DecidableEq, Repr

def minAllowedPort : UInt16 := 1025

def maxAllowedPort : UInt16 := 49151

def isInAllowedRange (p : UInt16) : Bool := minAllowedPort ≤ p && p < maxAllowedPort

abbrev Draws (n : ℕ) := ℕ → Fin n

def numAllowedPorts : ℕ := 48126

def randomPortInAllowedRange (draw : Fin numAllowedPorts) : UInt16 := UInt16.ofNat (1025 + draw)

def maxTries : ℕ := 100

abbrev ProtocolSpecificHostPortMap := Table UInt16

/-- The two maps that `portMapsLock` protects. -/
structure PortMaps where
  tcpPortMap : ProtocolSpecificHostPortMap
  udpPortMap : ProtocolSpecificHostPortMap

namespace PortMaps

def getProtocolSpecificHostPortMap (maps : PortMaps) :
    TransportProtocol → Except String ProtocolSpecificHostPortMap
  | .tcp => .ok maps.tcpPortMap
  | .udp => .ok maps.udpPortMap
  | .other name => .error s!"getProtocolSpecificHostPortMap: received incorrect protocol: {name}"

def setStatus (maps : PortMaps) (protocol : TransportProtocol) (port : UInt16) (status : Option Status) :
    PortMaps :=
  match protocol with
  | .tcp => { maps with tcpPortMap := Function.update maps.tcpPortMap port status }
  | .udp => { maps with udpPortMap := Function.update maps.udpPortMap port status }
  | .other _ => maps

def reserve (maps : PortMaps) (num : UInt16) (protocol : TransportProtocol) : PortMaps :=
  if !isInAllowedRange num then maps
  else
    match maps.getProtocolSpecificHostPortMap protocol with
    | .error _ => maps
    | .ok mapToUse => if (mapToUse num).isSome then maps else maps.setStatus protocol num (some .reserved)

def drawFreePort (mapToUse : ProtocolSpecificHostPortMap) (draws : Draws numAllowedPorts) : Option UInt16 :=
  ((List.range maxTries).map fun k => randomPortInAllowedRange (draws k)).find? fun port =>
    (mapToUse port).isNone

def allocateSinglePort (maps : PortMaps) (draws : Draws numAllowedPorts) (desiredBind : PortBinding) :
    Except String (PortBinding × PortMaps) :=
  match maps.getProtocolSpecificHostPortMap desiredBind.protocol with
  | .error e => .error s!"allocateSinglePort failed: {e}"
  | .ok mapToUse =>
    if desiredBind.hostPort ≠ 0 then
      if !isInAllowedRange desiredBind.hostPort then
        .error s!"allocateSinglePort: received a request to allocate a disallowed port: {desiredBind.hostPort}/{desiredBind.protocol.text}"
      else if (mapToUse desiredBind.hostPort).isSome then
        .error s!"allocateSinglePort: Could not allocate HostPort {desiredBind.hostPort}/{desiredBind.protocol.text}: already bound or reserved."
      else .ok (desiredBind,maps.setStatus desiredBind.protocol desiredBind.hostPort (some .inUse))
    else
      match drawFreePort mapToUse draws with
      | none =>
        .error s!"tried {maxTries} times to allocate a host port for mandelbox port {desiredBind.hostPort}/{desiredBind.protocol.text}. Breaking out to avoid spinning for too long."
      | some randomPort =>
        .ok ({ desiredBind with hostPort := randomPort },
          maps.setStatus desiredBind.protocol randomPort (some .inUse))

def freeSinglePort (maps : PortMaps) (bind : PortBinding) : PortMaps :=
  match maps.getProtocolSpecificHostPortMap bind.protocol with
  | .error _ => maps
  | .ok mapToUse =>
    match mapToUse bind.hostPort with
    | some .inUse => maps.setStatus bind.protocol bind.hostPort none
    | _ => maps

def free (maps : PortMaps) (binds : List PortBinding) : PortMaps := binds.foldl freeSinglePort maps

def allocateEach (draws : ℕ → Draws numAllowedPorts) :
    List PortBinding → List PortBinding → PortMaps → List PortBinding × Option String × PortMaps
  | [], result, maps => (result,none,maps)
  | v :: rest, result, maps =>
    match maps.allocateSinglePort (draws result.length) v with
    | .error reterr => (result,some reterr,maps)
    | .ok (b,maps) => allocateEach draws rest (result ++ [b]) maps

/-- All of the desired bindings, or none of them. -/
def allocate (maps : PortMaps) (draws : ℕ → Draws numAllowedPorts) (desiredBinds : List PortBinding) :
    Except String (List PortBinding) × PortMaps :=
  match allocateEach draws desiredBinds [] maps with
  | (result,some reterr,maps) => (.error reterr,result.foldl freeSinglePort maps)
  | (result,none,maps) => (.ok result,maps)

def table (maps : PortMaps) : Table (TransportProtocol × UInt16)
  | (.tcp,port) => maps.tcpPortMap port
  | (.udp,port) => maps.udpPortMap port
  | (.other _,_) => none

theorem ext_table {maps maps' : PortMaps} (h : maps.table = maps'.table) : maps = maps' := by
  have htcp : maps.tcpPortMap = maps'.tcpPortMap := funext fun port => congrFun h (.tcp,port)
  have hudp : maps.udpPortMap = maps'.udpPortMap := funext fun port => congrFun h (.udp,port)
  cases maps
  cases maps'
  simp only at htcp hudp
  rw [htcp, hudp]

theorem table_of_map {maps : PortMaps} {protocol : TransportProtocol} {map : ProtocolSpecificHostPortMap}
    (h : maps.getProtocolSpecificHostPortMap protocol = .ok map) (port : UInt16) :
    maps.table (protocol,port) = map port := by
  cases protocol <;> cases h <;> rfl

theorem table_setStatus {maps : PortMaps} {protocol : TransportProtocol} {map : ProtocolSpecificHostPortMap}
    (h : maps.getProtocolSpecificHostPortMap protocol = .ok map) (port : UInt16) (status : Option Status)
    (k : TransportProtocol × UInt16) :
    (maps.setStatus protocol port status).table k = if k = (protocol,port) then status else maps.table k := by
  obtain ⟨protocol',port'⟩ := k
  cases protocol <;> cases h <;> cases protocol' <;>
    simp [setStatus, table, Function.update_apply]

end PortMaps

def PortBinding.key (b : PortBinding) : TransportProtocol × UInt16 := (b.protocol,b.hostPort)

def IsAllowedKey (k : TransportProtocol × UInt16) : Prop :=
  (k.1 = .tcp ∨ k.1 = .udp) ∧ isInAllowedRange k.2

theorem isInAllowedRange_randomPort (draw : Fin numAllowedPorts) :
    isInAllowedRange (randomPortInAllowedRange draw) := by
  have hdraw := draw.isLt
  have hnat : (randomPortInAllowedRange draw).toNat = 1025 + draw := by
    rw [randomPortInAllowedRange, UInt16.toNat_ofNat', Nat.mod_eq_of_lt]
    unfold numAllowedPorts at hdraw
    omega
  unfold isInAllowedRange minAllowedPort maxAllowedPort
  rw [Bool.and_eq_true, decide_eq_true_iff, decide_eq_true_iff, UInt16.le_iff_toNat_le,
    UInt16.lt_iff_toNat_lt, hnat]
  unfold numAllowedPorts at hdraw
  exact ⟨by simp,by simp only [UInt16.reduceToNat]; omega⟩

namespace PortMaps
variable {maps maps' : PortMaps}

theorem drawFreePort_spec {map : ProtocolSpecificHostPortMap} {draws : Draws numAllowedPorts}
    {port : UInt16} (h : drawFreePort map draws = some port) : map port = none ∧ isInAllowedRange port := by
  have hfree := List.find?_some h
  obtain ⟨k,-,rfl⟩ := List.mem_map.mp (List.mem_of_find?_eq_some h)
  exact ⟨by simpa using hfree,isInAllowedRange_randomPort _⟩

theorem allocateSinglePort_spec {draws : Draws numAllowedPorts} {desired b : PortBinding}
    (h : maps.allocateSinglePort draws desired = .ok (b,maps')) :
    b.protocol = desired.protocol ∧ b.mandelboxPort = desired.mandelboxPort ∧ IsAllowedKey b.key ∧
      maps.table b.key = none ∧
      ∀ k, maps'.table k = if k = b.key then some .inUse else maps.table k := by
  unfold allocateSinglePort at h
  cases hmap : maps.getProtocolSpecificHostPortMap desired.protocol with
  | error e => simp [hmap] at h
  | ok map =>
    have hprotocol : desired.protocol = .tcp ∨ desired.protocol = .udp := by
      cases hp : desired.protocol with
      | tcp => exact Or.inl rfl
      | udp => exact Or.inr rfl
      | other name =>
        rw [hp] at hmap
        cases hmap
    rw [hmap] at h
    dsimp only at h
    by_cases hzero : desired.hostPort ≠ 0
    · rw [if_pos hzero] at h
      split_ifs at h with hrange hexists
      · simp only [Except.ok.injEq, Prod.mk.injEq] at h
        obtain ⟨rfl,rfl⟩ := h
        refine ⟨rfl,rfl,⟨hprotocol,by simpa [PortBinding.key] using hrange⟩,?_,?_⟩
        · rw [PortBinding.key, table_of_map hmap]
          simpa using hexists
        · exact table_setStatus hmap _ _
    · rw [if_neg hzero] at h
      cases hdraw : drawFreePort map draws with
      | none => simp [hdraw] at h
      | some port =>
        rw [hdraw] at h
        simp only [Except.ok.injEq, Prod.mk.injEq] at h
        obtain ⟨rfl,rfl⟩ := h
        obtain ⟨hfree,hrange⟩ := drawFreePort_spec hdraw
        refine ⟨rfl,rfl,⟨hprotocol,hrange⟩,?_,?_⟩
        · rw [PortBinding.key, table_of_map hmap]
          exact hfree
        · exact table_setStatus hmap _ _

theorem freeSinglePort_table (maps : PortMaps) (bind : PortBinding) (k : TransportProtocol × UInt16) :
    (maps.freeSinglePort bind).table k =
      if k = bind.key ∧ maps.table k = some .inUse then none else maps.table k := by
  unfold freeSinglePort
  cases hmap : maps.getProtocolSpecificHostPortMap bind.protocol with
  | error e =>
    dsimp only
    rw [if_neg]
    rintro ⟨rfl,huse⟩
    cases hp : bind.protocol with
    | tcp =>
      rw [hp] at hmap
      cases hmap
    | udp =>
      rw [hp] at hmap
      cases hmap
    | other name =>
      rw [PortBinding.key, hp] at huse
      cases huse
  | ok map =>
    have hkey : maps.table bind.key = map bind.hostPort := table_of_map hmap _
    dsimp only
    cases hstatus : map bind.hostPort with
    | none =>
      dsimp only
      rw [if_neg]
      rintro ⟨rfl,huse⟩
      rw [hkey, hstatus] at huse
      cases huse
    | some status =>
      cases status with
      | reserved =>
        dsimp only
        rw [if_neg]
        rintro ⟨rfl,huse⟩
        rw [hkey, hstatus] at huse
        cases huse
      | inUse =>
        dsimp only
        rw [table_setStatus hmap]
        change (if k = bind.key then none else maps.table k) = _
        by_cases hk : k = bind.key
        · rw [if_pos hk, if_pos ⟨hk,by rw [hk, hkey, hstatus]⟩]
        · rw [if_neg hk, if_neg fun hand => hk hand.1]

theorem free_released (maps : PortMaps) (binds : List PortBinding) :
    Released maps.table (binds.map PortBinding.key) (maps.free binds).table := by
  induction binds generalizing maps with
  | nil => exact Released.nil _
  | cons bind rest ih => exact Released.cons (freeSinglePort_table maps bind) (ih _)

theorem allocateEach_spec {draws : ℕ → Draws numAllowedPorts} {t : Table (TransportProtocol × UInt16)}
    {desired result binds : List PortBinding} {reterr : Option String}
    (hstart : Claimed t (result.map PortBinding.key) maps.table)
    (hallowed : ∀ b ∈ result, IsAllowedKey b.key)
    (h : allocateEach draws desired result maps = (binds,reterr,maps')) :
    Claimed t (binds.map PortBinding.key) maps'.table ∧ (∀ b ∈ binds, IsAllowedKey b.key) ∧
      (reterr = none → binds.map (fun b => (b.protocol,b.mandelboxPort)) =
        (result ++ desired).map fun b => (b.protocol,b.mandelboxPort)) := by
  induction desired generalizing result maps with
  | nil =>
    simp only [allocateEach, Prod.mk.injEq] at h
    obtain ⟨rfl,rfl,rfl⟩ := h
    exact ⟨hstart,hallowed,fun _ => by simp⟩
  | cons v rest ih =>
    unfold allocateEach at h
    cases hsingle : maps.allocateSinglePort (draws result.length) v with
    | error e =>
      rw [hsingle] at h
      simp only [Prod.mk.injEq] at h
      obtain ⟨rfl,rfl,rfl⟩ := h
      exact ⟨hstart,hallowed,nofun⟩
    | ok r =>
      obtain ⟨b,maps₁⟩ := r
      rw [hsingle] at h
      obtain ⟨hprotocol,hport,hkey,hfree,hafter⟩ := allocateSinglePort_spec hsingle
      have hclaimed : Claimed t ((result ++ [b]).map PortBinding.key) maps₁.table := by
        rw [List.map_append]
        exact hstart.snoc hfree hafter
      have hallowed' : ∀ c ∈ result ++ [b], IsAllowedKey c.key := by
        intro c hc
        rcases List.mem_append.mp hc with hc | hc
        · exact hallowed c hc
        · exact List.mem_singleton.mp hc ▸ hkey
      obtain ⟨hc,ha,hbinds⟩ := ih hclaimed hallowed' h
      refine ⟨hc,ha,fun hnone => ?_⟩
      rw [hbinds hnone]
      simp [hprotocol, hport]

theorem allocate_ok {draws : ℕ → Draws numAllowedPorts} {desired binds : List PortBinding}
    (h : maps.allocate draws desired = (.ok binds,maps')) :
    Claimed maps.table (binds.map PortBinding.key) maps'.table ∧ (∀ b ∈ binds, IsAllowedKey b.key) ∧
      binds.map (fun b => (b.protocol,b.mandelboxPort)) =
        desired.map fun b => (b.protocol,b.mandelboxPort) := by
  unfold allocate at h
  obtain ⟨⟨result,reterr,maps₁⟩,heach⟩ : ∃ r, allocateEach draws desired [] maps = r := ⟨_,rfl⟩
  rw [heach] at h
  cases reterr with
  | some e => cases h
  | none =>
    cases h
    obtain ⟨hc,ha,hbinds⟩ := allocateEach_spec (Claimed.nil _) (by simp) heach
    exact ⟨hc,ha,by simpa using hbinds rfl⟩

theorem allocate_error {draws : ℕ → Draws numAllowedPorts} {desired : List PortBinding} {e : String}
    (h : maps.allocate draws desired = (.error e,maps')) : maps' = maps := by
  unfold allocate at h
  obtain ⟨⟨result,reterr,maps₁⟩,heach⟩ : ∃ r, allocateEach draws desired [] maps = r := ⟨_,rfl⟩
  rw [heach] at h
  cases reterr with
  | none => cases h
  | some e' =>
    cases h
    obtain ⟨hc,-,-⟩ := allocateEach_spec (Claimed.nil _) (by simp) heach
    exact ext_table (hc.release (free_released _ _))

end PortMaps

end Whist.Host
