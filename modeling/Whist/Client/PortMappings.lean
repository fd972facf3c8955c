import Mathlib.Tactic

/-! # The port mappings of the client

`set_port_mapping`, with what `sscanf` makes of `%hu:%hu%c%n`.  A variable that `sscanf` has not set keeps what was on the
stack, the parameter `stale`.
-/
namespace Whist.PortMappings

def isSpace (c : Char) : Bool := c = ' ' || c = '\t' || c = '\n' || c.toNat = 11 || c.toNat = 12 || c = '\r'

def decimal (digits : List Char) : ℕ := digits.foldl (fun n c => 10 * n + (c.toNat - 48)) 0

/-- `strtoul` on an optional sign and digits: too large a number becomes `ULONG_MAX`. -/
def strtoul (negative : Bool) (digits : List Char) : ℕ :=
  if decimal digits ≥ 2 ^ 64 then 2 ^ 64 - 1
  else if negative then (2 ^ 64 - decimal digits) % 2 ^ 64
  else decimal digits

def sign : List Char → Bool × List Char
  | '-' :: str => (true,str)
  | '+' :: str => (false,str)
  | str => (false,str)

/-- `%hu`: blanks are skipped, and what `strtoul` returns is stored in an `unsigned short`. -/
def scanUnsignedShort (str : List Char) : Option (UInt16 × List Char) :=
  let (negative,str) := sign (str.dropWhile isSpace)
  let digits := str.takeWhile Char.isDigit
  if digits = [] then none
  else some (UInt16.ofNat (strtoul negative digits),str.dropWhile Char.isDigit)

/-- The arguments that `sscanf` has read: fewer than two, both ports, or the character after them as
well and then the rest of the string, from `bytes_read` on. -/
inductive PortScan
  | invalid
  | ports (originPort destinationPort : UInt16)
  | separated (originPort destinationPort : UInt16) (c : Char) (rest : List Char)

def scanPorts (str : List Char) : PortScan :=
  match scanUnsignedShort str with
  | some (originPort,':' :: str) =>
    match scanUnsignedShort str with
    | some (destinationPort,[]) => .ports originPort destinationPort
    | some (destinationPort,c :: rest) => .separated originPort destinationPort c rest
    | none => .invalid
  | _ => .invalid

theorem sign_length_le (str : List Char) : (sign str).2.length ≤ str.length := by
  unfold sign
  split <;> simp

theorem scanUnsignedShort_length_le {str rest : List Char} {port : UInt16}
    (h : scanUnsignedShort str = some (port,rest)) : rest.length ≤ str.length := by
  unfold scanUnsignedShort at h
  dsimp only at h
  split_ifs at h
  cases h
  calc _ ≤ (sign (str.dropWhile isSpace)).2.length := (List.dropWhile_suffix _).length_le
    _ ≤ (str.dropWhile isSpace).length := sign_length_le _
    _ ≤ str.length := (List.dropWhile_suffix _).length_le

theorem scanPorts_length_lt {str rest : List Char} {originPort destinationPort : UInt16} {c : Char}
    (h : scanPorts str = .separated originPort destinationPort c rest) : rest.length < str.length := by
  unfold scanPorts at h
  split at h
  · rename_i port str' horigin
    have hle := scanUnsignedShort_length_le horigin
    split at h
    · cases h
    · rename_i hdestination
      cases h
      have hle' := scanUnsignedShort_length_le hdestination
      simp only [List.length_cons] at hle hle'
      omega
    · cases h
  · cases h

abbrev Ports := UInt16 → UInt16

inductive WhistStatus
  | success
  | syntaxError
deriving DecidableEq

/-- What a call of `set_port_mapping` leaves and returns.  `unparsed` is the part of the value that
is printed, copied into 13 bytes, and `uninitialisedRead` tells that a variable was read which had
not been set. -/
structure Mapped where
  status : WhistStatus
  portMappings : Ports
  unparsed : Option (List Char)
  uninitialisedRead : Bool

/-- `invalid_s_len`, with `bytes_read` as it was found. -/
def invalidLength (bytesRead : ℤ) : ℕ := (min (bytesRead + 1) 13 % 65536).toNat

/-- The loop from `str` on. -/
def mapPorts (stale : ℤ) (portMappings : Ports) (str : List Char) : Mapped :=
  match h : scanPorts str with
  | .invalid => ⟨.syntaxError,portMappings,some (str.take (invalidLength stale - 1)),true⟩
  | .ports originPort destinationPort =>
    ⟨.success,Function.update portMappings originPort destinationPort,none,false⟩
  | .separated originPort destinationPort c rest =>
    let portMappings := Function.update portMappings originPort destinationPort
    if c = '.' then mapPorts stale portMappings rest else ⟨.success,portMappings,none,false⟩
termination_by str.length
decreasing_by exact scanPorts_length_lt h

def setPortMapping (stale : ℤ) (portMappings : Ports) (value : List Char) : Mapped :=
  mapPorts stale portMappings value

def IsPort (s : List Char) (port : UInt16) : Prop :=
  s ≠ [] ∧ (∀ c ∈ s, c.isDigit = true) ∧ decimal s = port.toNat

/-- Pairs of an origin and a destination, separated by single periods. -/
inductive IsPortList : List Char → List (UInt16 × UInt16) → Prop
  | last {o d : List Char} {origin destination : UInt16} (ho : IsPort o origin) (hd : IsPort d destination) :
    IsPortList (o ++ ':' :: d) [(origin,destination)]
  | more {o d s : List Char} {origin destination : UInt16} {pairs : List (UInt16 × UInt16)}
      (ho : IsPort o origin) (hd : IsPort d destination) (hs : IsPortList s pairs) :
    IsPortList (o ++ ':' :: (d ++ '.' :: s)) ((origin,destination) :: pairs)

def remapped (portMappings : Ports) (pairs : List (UInt16 × UInt16)) : Ports := fun port =>
  (pairs.reverse.lookup port).getD (portMappings port)

/-- A list of pairs is taken, anything else is refused and changes nothing, and no variable is read
before it is set. -/
structure FollowsGrammar (portMappings : Ports) (value : List Char) (result : Mapped) : Prop where
  success_iff : result.status = .success ↔ ∃ pairs, IsPortList value pairs
  maps : ∀ pairs, IsPortList value pairs → result.portMappings = remapped portMappings pairs
  unchanged : result.status ≠ .success → result.portMappings = portMappings
  initialised : result.uninitialisedRead = false

variable {stale : ℤ} {portMappings : Ports} {s : List Char} {port : UInt16}

theorem isDigit_bounds {c : Char} (h : c.isDigit = true) : 48 ≤ c.toNat ∧ c.toNat ≤ 57 := by
  rw [Char.isDigit, Bool.and_eq_true, decide_eq_true_eq, decide_eq_true_eq] at h
  exact h

theorem isSpace_of_isDigit {c : Char} (h : c.isDigit = true) : isSpace c = false := by
  have hne : ∀ d : Char, d.toNat < 48 → c ≠ d := by
    rintro d hd rfl
    have := (isDigit_bounds h).1
    omega
  have hlow := (isDigit_bounds h).1
  unfold isSpace
  rw [decide_eq_false (hne ' ' (by decide)), decide_eq_false (hne '\t' (by decide)),
    decide_eq_false (hne '\n' (by decide)), decide_eq_false (hne '\r' (by decide)),
    decide_eq_false (by omega), decide_eq_false (by omega)]
  rfl

theorem sign_of_isDigit {c : Char} (h : c.isDigit = true) (str : List Char) :
    sign (c :: str) = (false,c :: str) := by
  have hlow := (isDigit_bounds h).1
  unfold sign
  split
  · rename_i heq
    cases heq
    exact absurd hlow (by decide)
  · rename_i heq
    cases heq
    exact absurd hlow (by decide)
  · rfl

theorem strtoul_port {digits : List Char} (h : decimal digits = port.toNat) :
    UInt16.ofNat (strtoul false digits) = port := by
  have hlt := port.toNat_lt
  unfold strtoul
  rw [if_neg (by omega), if_neg Bool.false_ne_true, h, UInt16.ofNat_toNat]

theorem scanUnsignedShort_port (h : IsPort s port) {rest : List Char}
    (hrest : ∀ c ∈ rest.head?, c.isDigit = false) :
    scanUnsignedShort (s ++ rest) = some (port,rest) := by
  obtain ⟨hne,hdigits,hdecimal⟩ := h
  obtain ⟨c,s',rfl⟩ := List.exists_cons_of_ne_nil hne
  have hc := hdigits c List.mem_cons_self
  have hnone : rest.takeWhile Char.isDigit = [] ∧ rest.dropWhile Char.isDigit = rest := by
    cases rest with
    | nil => exact ⟨rfl,rfl⟩
    | cons d rest =>
      have hd := hrest d rfl
      rw [List.takeWhile_cons, List.dropWhile_cons, hd]
      exact ⟨rfl,rfl⟩
  have hspace : (c :: s' ++ rest).dropWhile isSpace = c :: (s' ++ rest) := by
    rw [List.cons_append, List.dropWhile_cons, isSpace_of_isDigit hc]
    rfl
  have htake : (c :: (s' ++ rest)).takeWhile Char.isDigit = c :: s' := by
    rw [← List.cons_append, List.takeWhile_append_of_pos hdigits, hnone.1, List.append_nil]
  have hdrop : (c :: (s' ++ rest)).dropWhile Char.isDigit = rest := by
    rw [← List.cons_append, List.dropWhile_append_of_pos hdigits, hnone.2]
  unfold scanUnsignedShort
  rw [hspace, sign_of_isDigit hc]
  dsimp only
  rw [htake, hdrop, if_neg (List.cons_ne_nil _ _), strtoul_port hdecimal]

theorem scanPorts_last {o d : List Char} {origin destination : UInt16} (ho : IsPort o origin)
    (hd : IsPort d destination) : scanPorts (o ++ ':' :: d) = .ports origin destination := by
  have hcolon : ∀ c ∈ (':' :: d).head?, c.isDigit = false := by
    rintro c ⟨⟩
    decide
  have hend := @scanUnsignedShort_port _ _ hd [] (fun c hc => by cases hc)
  rw [List.append_nil] at hend
  simp only [scanPorts, scanUnsignedShort_port ho hcolon, hend]

theorem scanPorts_more {o d rest : List Char} {origin destination : UInt16} (ho : IsPort o origin)
    (hd : IsPort d destination) :
    scanPorts (o ++ ':' :: (d ++ '.' :: rest)) = .separated origin destination '.' rest := by
  have hcolon : ∀ c ∈ (':' :: (d ++ '.' :: rest)).head?, c.isDigit = false := by
    rintro c ⟨⟩
    decide
  have hperiod : ∀ c ∈ ('.' :: rest).head?, c.isDigit = false := by
    rintro c ⟨⟩
    decide
  simp only [scanPorts, scanUnsignedShort_port ho hcolon, scanUnsignedShort_port hd hperiod]

theorem mapPorts_ports {origin destination : UInt16} (h : scanPorts s = .ports origin destination) :
    mapPorts stale portMappings s =
      ⟨.success,Function.update portMappings origin destination,none,false⟩ := by
  rw [mapPorts]
  split <;> simp_all

theorem mapPorts_separated {origin destination : UInt16} {c : Char} {rest : List Char}
    (h : scanPorts s = .separated origin destination c rest) :
    mapPorts stale portMappings s =
      if c = '.' then mapPorts stale (Function.update portMappings origin destination) rest
      else ⟨.success,Function.update portMappings origin destination,none,false⟩ := by
  rw [mapPorts]
  split <;> simp_all

theorem mapPorts_success_iff : (mapPorts stale portMappings s).status = .success ↔
    (mapPorts stale portMappings s).uninitialisedRead = false := by
  fun_induction mapPorts with
  | case1 portMappings s h => exact iff_of_false WhistStatus.noConfusion Bool.noConfusion
  | case2 portMappings s origin destination h => exact iff_of_true rfl rfl
  | case3 portMappings s origin destination rest h portMappings' ih => exact ih
  | case4 portMappings s origin destination c rest h portMappings' hc => exact iff_of_true rfl rfl

theorem remapped_nil : remapped portMappings [] = portMappings := rfl

theorem remapped_cons (origin destination : UInt16) (pairs : List (UInt16 × UInt16)) :
    remapped portMappings ((origin,destination) :: pairs) =
      remapped (Function.update portMappings origin destination) pairs := by
  funext port
  unfold remapped
  rw [List.reverse_cons, List.lookup_append, List.lookup_singleton]
  cases pairs.reverse.lookup port with
  | some destination' => rfl
  | none =>
    by_cases hport : port = origin
    · rw [hport, Function.update_self, if_pos (beq_self_eq_true origin)]
      rfl
    · rw [Function.update_of_ne hport, if_neg (fun heq => hport (eq_of_beq heq))]
      rfl

theorem IsPortList.maps {pairs : List (UInt16 × UInt16)} (h : IsPortList s pairs) :
    mapPorts stale portMappings s = ⟨.success,remapped portMappings pairs,none,false⟩ := by
  induction h generalizing portMappings with
  | last ho hd =>
    rw [mapPorts_ports (scanPorts_last ho hd), remapped_cons, remapped_nil]
  | more ho hd hs ih =>
    rw [mapPorts_separated (scanPorts_more ho hd), if_pos rfl, ih, remapped_cons]

/-- The option follows its grammar on the lists of pairs and on nothing else: some other values are
taken, and a refusal reads a variable that is not set. -/
theorem setPortMapping_followsGrammar_iff (stale : ℤ) (portMappings : Ports) (value : List Char) :
    FollowsGrammar portMappings value (setPortMapping stale portMappings value) ↔
      ∃ pairs, IsPortList value pairs := by
  constructor
  · intro h
    exact h.success_iff.mp (mapPorts_success_iff.mpr h.initialised)
  · rintro ⟨pairs,hlist⟩
    have hmaps : ∀ pairs', IsPortList value pairs' → setPortMapping stale portMappings value =
        ⟨.success,remapped portMappings pairs',none,false⟩ := fun pairs' h => h.maps
    have hresult := hmaps pairs hlist
    refine ⟨?_,?_,?_,?_⟩
    · rw [hresult]
      exact iff_of_true rfl ⟨pairs,hlist⟩
    · intro pairs' hlist'
      rw [hmaps pairs' hlist']
    · intro hfail
      rw [hresult] at hfail
      exact absurd rfl hfail
    · rw [hresult]

theorem IsPortList.characters {pairs : List (UInt16 × UInt16)} (h : IsPortList s pairs) :
    ∀ c ∈ s, c.isDigit = true ∨ c = ':' ∨ c = '.' := by
  induction h with
  | last ho hd =>
    intro c hc
    rcases List.mem_append.mp hc with hc | hc
    · exact Or.inl (ho.2.1 c hc)
    rcases List.mem_cons.mp hc with hc | hc
    · exact Or.inr (Or.inl hc)
    · exact Or.inl (hd.2.1 c hc)
  | more ho hd hs ih =>
    intro c hc
    rcases List.mem_append.mp hc with hc | hc
    · exact Or.inl (ho.2.1 c hc)
    rcases List.mem_cons.mp hc with hc | hc
    · exact Or.inr (Or.inl hc)
    rcases List.mem_append.mp hc with hc | hc
    · exact Or.inl (hd.2.1 c hc)
    rcases List.mem_cons.mp hc with hc | hc
    · exact Or.inr (Or.inr hc)
    · exact ih c hc

/-- With a comma in place of the period the first pair is mapped, the rest of the value is ignored, and
the option reports success. -/
theorem setPortMapping_followsGrammar_fails :
    ¬∀ (stale : ℤ) (portMappings : Ports) (value : List Char),
      FollowsGrammar portMappings value (setPortMapping stale portMappings value) := by
  intro h
  have hscan : scanPorts "80:8080,443:8443".toList = .separated 80 8080 ',' "443:8443".toList := rfl
  have hsuccess : (setPortMapping 0 id "80:8080,443:8443".toList).status = .success := by
    rw [setPortMapping, mapPorts_separated hscan, if_neg (by decide)]
  obtain ⟨pairs,hlist⟩ := (h 0 id "80:8080,443:8443".toList).success_iff.mp hsuccess
  have hcomma := hlist.characters ',' (by decide)
  revert hcomma
  decide

end Whist.PortMappings
