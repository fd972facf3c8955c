import Whist.Foundation.Run

/-! # The resource cache of the NVENC encoder

Each texture is registered once and kept in a cache; the last entry is unregistered when another one is registered.  The
library numbers the handles it gives out.
-/
namespace Whist.Nvenc
open Run

inductive CaptureDeviceType
  | nvidia
  | x11
deriving DecidableEq

structure RegisteredResource where
  handle : Option ℕ := none
  deviceType : CaptureDeviceType := .nvidia
  width : ℤ := 0
  height : ℤ := 0
  pitch : ℤ := 0
  texturePointer : Option ℕ := none
deriving DecidableEq

structure Registration where
  texturePointer : Option ℕ
  width : ℤ
  height : ℤ
deriving DecidableEq

def RegisteredResource.registration (r : RegisteredResource) : Registration :=
  ⟨r.texturePointer,r.width,r.height⟩

def resourceCacheSize : ℕ := 4

structure NvidiaEncoder where
  width : ℤ
  height : ℤ
  pitch : ℤ := 0
  resourceCache : List RegisteredResource := List.replicate resourceCacheSize {}
  registeredResource : RegisteredResource := {}
  registered : List Registration := []
  unregistered : List ℕ := []
  lastTaken : Option Registration := none

structure Answers where
  reconfigures : Bool := true
  registers : Bool := true
  locks : Bool := true
  lockPitch : ℤ := 0
  unlocks : Bool := true

inductive Action
  | frameIntake (resource : RegisteredResource) (answers : Answers)
  | encode (maps encodes : Bool)

def RegisteredResource.filled (r : RegisteredResource) : Bool := r.texturePointer.isSome

def RegisteredResource.matches (r cached : RegisteredResource) : Bool :=
  decide (cached.texturePointer = r.texturePointer ∧ cached.width = r.width ∧
    cached.height = r.height ∧ cached.deviceType = r.deviceType)

def unregisterResource (s : NvidiaEncoder) (r : RegisteredResource) : NvidiaEncoder :=
  match r.handle with
  | none => s
  | some handle => { s with unregistered := handle :: s.unregistered }

def shift : List RegisteredResource → List RegisteredResource
  | [] => []
  | r :: cache => r :: (r :: cache).dropLast

def evict (s : NvidiaEncoder) : NvidiaEncoder :=
  let s := match s.resourceCache.getLast? with
    | some r => if r.filled then unregisterResource s r else s
    | none => s
  { s with resourceCache := shift s.resourceCache }

/-- A successful `register_resource`, and what is made of its handle. -/
def register (s : NvidiaEncoder) (r : RegisteredResource) : NvidiaEncoder :=
  let r := { r with handle := some s.registered.length }
  { s with
    registered := s.registered ++ [r.registration]
    resourceCache := s.resourceCache.set 0 r
    registeredResource := r }

def takeUp (s : NvidiaEncoder) (a : Answers) : NvidiaEncoder × Bool :=
  match s.registeredResource.deviceType with
  | .nvidia => ({ s with pitch := s.registeredResource.pitch },true)
  | .x11 => if a.locks then ({ s with pitch := a.lockPitch },a.unlocks) else (s,false)

def takeResource (s : NvidiaEncoder) (r : RegisteredResource) (a : Answers) :
    NvidiaEncoder × Bool :=
  if r.filled = false then (s,false)
  else
    match s.resourceCache.find? r.matches with
    | some cached => takeUp { s with registeredResource := cached } a
    | none => if a.registers then takeUp (register (evict s) r) a else (evict s,false)

def frameIntake (s : NvidiaEncoder) (r : RegisteredResource) (a : Answers) : NvidiaEncoder × Bool :=
  if r.width = s.width ∧ r.height = s.height then takeResource s r a
  else if a.reconfigures then takeResource { s with width := r.width, height := r.height } r a
  else (s,false)

def encodedFrom (s : NvidiaEncoder) : Action → Option ℕ
  | .frameIntake .. => none
  | .encode maps _ =>
    if s.registeredResource.deviceType = .nvidia ∧ maps = false then none
    else s.registeredResource.handle

def step (s : NvidiaEncoder) : Action → NvidiaEncoder
  | .frameIntake r a =>
    match frameIntake s r a with
    | (s,true) => { s with lastTaken := some r.registration }
    | (s,false) => s
  | .encode maps encodes =>
    if encodes = true ∧ (encodedFrom s (.encode maps encodes)).isSome then
      { s with registeredResource := { s.registeredResource with handle := none } }
    else s

/-- The encoder is flushed and destroyed and the structure freed; the cache is not looked at.
What the library is left with. -/
def destroyNvidiaEncoder (s : NvidiaEncoder) : List Registration × List ℕ :=
  (s.registered,s.unregistered)

def handles (cache : List RegisteredResource) : List (Option ℕ) :=
  (cache.filter (·.filled)).map (·.handle)

structure Proper (s : NvidiaEncoder) (a : Action) : Prop where
  distinct : (handles (step s a).resourceCache).Nodup
  held : ∀ handle < (step s a).registered.length, handle ∉ (step s a).unregistered →
    some handle ∈ handles (step s a).resourceCache
  once : (step s a).unregistered.Nodup
  encodes : ∀ handle ∈ encodedFrom s a, handle ∉ s.unregistered ∧
    ∃ r, s.registered[handle]? = some r ∧ s.lastTaken = some r

/-- Every handle was unregistered exactly once. -/
def ReleasedOnce (library : List Registration × List ℕ) : Prop :=
  ∀ handle < library.1.length, library.2.count handle = 1

def headFilled (cache : List RegisteredResource) : Bool := cache.head?.any (·.filled)

def Attempts (s : NvidiaEncoder) (r : RegisteredResource) (a : Answers) : Prop :=
  ((r.width = s.width ∧ r.height = s.height) ∨ a.reconfigures = true) ∧ r.filled = true ∧
    s.resourceCache.find? r.matches = none

def Registers (s : NvidiaEncoder) : Action → Prop
  | .frameIntake r a => Attempts s r a ∧ a.registers = true
  | .encode .. => False

/-- Once there is a resource in the cache no registration fails, and no frame is encoded from
what a failed lock or unlock left behind. -/
def Careful (s : NvidiaEncoder) : Action → Prop
  | .frameIntake r a => Attempts s r a → headFilled s.resourceCache = true → a.registers = true
  | .encode maps encodes => (encodedFrom s (.encode maps encodes)).isSome →
    s.lastTaken = some s.registeredResource.registration

structure Owned (cache : List RegisteredResource) (registered : List Registration)
    (unregistered : List ℕ) : Prop where
  known : ∀ r ∈ cache, r.filled = true →
    ∃ handle, r.handle = some handle ∧ registered[handle]? = some r.registration
  held : ∀ handle < registered.length, handle ∉ unregistered → some handle ∈ handles cache
  live : ∀ handle, some handle ∈ handles cache → handle ∉ unregistered
  distinct : (handles cache).Nodup
  before : ∀ handle ∈ unregistered, handle < registered.length
  once : unregistered.Nodup

structure Inv (s : NvidiaEncoder) : Prop where
  owned : Owned s.resourceCache s.registered s.unregistered
  size : s.resourceCache.length = resourceCacheSize
  front : s.registered ≠ [] → headFilled s.resourceCache = true
  current : ∀ handle, s.registeredResource.handle = some handle →
    s.registeredResource ∈ s.resourceCache ∧ s.registeredResource.filled = true

section
variable {cache front : List RegisteredResource} {registered : List Registration}
  {unregistered : List ℕ} {r last : RegisteredResource} {handle : ℕ}

theorem mem_handles : some handle ∈ handles cache ↔
    ∃ r ∈ cache, r.filled = true ∧ r.handle = some handle := by
  simp only [handles, List.mem_map, List.mem_filter]
  exact ⟨fun ⟨r,⟨hr,hf⟩,hh⟩ => ⟨r,hr,hf,hh⟩,fun ⟨r,hr,hf,hh⟩ => ⟨r,⟨hr,hf⟩,hh⟩⟩

theorem handles_append (front cache : List RegisteredResource) :
    handles (front ++ cache) = handles front ++ handles cache := by
  rw [handles, List.filter_append, List.map_append]
  rfl

theorem handles_filled (hr : r.filled = true) (cache : List RegisteredResource) :
    handles (r :: cache) = r.handle :: handles cache := by
  rw [handles, List.filter_cons_of_pos hr]
  rfl

theorem handles_empty (hr : r.filled = false) (cache : List RegisteredResource) :
    handles (r :: cache) = handles cache := by
  rw [handles, List.filter_cons_of_neg (by rw [hr]; decide)]
  rfl

theorem Owned.lt (h : Owned cache registered unregistered) (hh : some handle ∈ handles cache) :
    handle < registered.length := by
  obtain ⟨r,hr,hf,heq⟩ := mem_handles.1 hh
  obtain ⟨handle',heq',hreg⟩ := h.known r hr hf
  obtain rfl := Option.some.inj (heq.symm.trans heq')
  exact (List.getElem?_eq_some_iff.1 hreg).1

theorem Owned.drop_empty (h : Owned (front ++ [last]) registered unregistered)
    (hlast : last.filled = false) : Owned front registered unregistered := by
  have heq : handles (front ++ [last]) = handles front := by
    rw [handles_append, handles_empty hlast]
    exact List.append_nil _
  exact
    { known := fun r hr => h.known r (List.mem_append_left _ hr)
      held := heq ▸ h.held
      live := heq ▸ h.live
      distinct := heq ▸ h.distinct
      before := h.before
      once := h.once }

theorem Owned.drop_filled (h : Owned (front ++ [last]) registered unregistered)
    (hlast : last.filled = true) (hhandle : last.handle = some handle) :
    Owned front registered (handle :: unregistered) := by
  have heq : handles (front ++ [last]) = handles front ++ [some handle] := by
    rw [handles_append, handles_filled hlast, hhandle]
    rfl
  have hmem : some handle ∈ handles (front ++ [last]) := by
    rw [heq]
    exact List.mem_append_right _ (List.mem_singleton_self _)
  have hdistinct := h.distinct
  rw [heq, List.nodup_append] at hdistinct
  constructor
  case known => exact fun r hr => h.known r (List.mem_append_left _ hr)
  case held =>
    intro other hlt hnot
    rw [List.mem_cons, not_or] at hnot
    have hin := h.held other hlt hnot.2
    rw [heq, List.mem_append, List.mem_singleton] at hin
    exact hin.resolve_right (fun hc => hnot.1 (Option.some.inj hc))
  case live =>
    intro other hin
    rw [List.mem_cons, not_or]
    constructor
    · rintro rfl
      exact hdistinct.2.2 _ hin _ (List.mem_singleton_self _) rfl
    · apply h.live
      rw [heq]
      exact List.mem_append_left _ hin
  case distinct => exact hdistinct.1
  case before =>
    intro other hin
    rcases List.mem_cons.1 hin with rfl | hin
    · exact h.lt hmem
    · exact h.before other hin
  case once => exact List.nodup_cons.2 ⟨h.live handle hmem,h.once⟩

theorem Owned.register (h : Owned cache registered unregistered) (hr : r.filled = true) :
    Owned ({ r with handle := some registered.length } :: cache) (registered ++ [r.registration])
      unregistered := by
  have heq : handles ({ r with handle := some registered.length } :: cache) =
      some registered.length :: handles cache :=
    @handles_filled { r with handle := some registered.length } hr cache
  constructor
  case known =>
    intro r' hr' hf
    rcases List.mem_cons.1 hr' with rfl | hr'
    · exact ⟨_,rfl,List.getElem?_concat_length⟩
    · obtain ⟨handle,hh,hreg⟩ := h.known r' hr' hf
      refine ⟨handle,hh,?_⟩
      rw [List.getElem?_append_left (List.getElem?_eq_some_iff.1 hreg).1]
      exact hreg
  case held =>
    intro handle hlt hnot
    rw [heq, List.mem_cons]
    rw [List.length_append, List.length_singleton] at hlt
    rcases Nat.lt_succ_iff_lt_or_eq.1 hlt with hlt | rfl
    · exact .inr (h.held handle hlt hnot)
    · exact .inl rfl
  case live =>
    intro handle hin hc
    rw [heq, List.mem_cons] at hin
    rcases hin with hin | hin
    · exact absurd (Option.some.inj hin) (h.before handle hc).ne
    · exact h.live handle hin hc
  case distinct =>
    rw [heq]
    exact List.nodup_cons.2 ⟨fun hc => (h.lt hc).ne rfl,h.distinct⟩
  case before =>
    intro handle hin
    rw [List.length_append, List.length_singleton]
    exact Nat.lt_succ_of_lt (h.before handle hin)
  case once => exact h.once

theorem Owned.cons_empty (h : Owned cache registered unregistered) (hr : r.filled = false) :
    Owned (r :: cache) registered unregistered where
  known r' hr' hf := by
    rcases List.mem_cons.1 hr' with rfl | hr'
    · rw [hr] at hf
      cases hf
    · exact h.known r' hr' hf
  held := (handles_empty hr cache).symm ▸ h.held
  live := (handles_empty hr cache).symm ▸ h.live
  distinct := (handles_empty hr cache).symm ▸ h.distinct
  before := h.before
  once := h.once

end

section
variable {s t : NvidiaEncoder} {r : RegisteredResource} {a : Answers}

def core (s : NvidiaEncoder) :
    List RegisteredResource × List Registration × List ℕ × RegisteredResource :=
  (s.resourceCache,s.registered,s.unregistered,s.registeredResource)

theorem Inv.of_core (h : Inv s) (hcore : core t = core s) : Inv t := by
  simp only [core, Prod.mk.injEq] at hcore
  obtain ⟨hcache,hreg,hunreg,hcur⟩ := hcore
  exact
    { owned := by rw [hcache, hreg, hunreg]; exact h.owned
      size := by rw [hcache]; exact h.size
      front := by rw [hcache, hreg]; exact h.front
      current := by rw [hcache, hcur]; exact h.current }

theorem takeUp_core (s : NvidiaEncoder) (a : Answers) : core (takeUp s a).1 = core s := by
  rw [takeUp]
  split
  · rfl
  · split <;> rfl

theorem step_frameIntake_core (s : NvidiaEncoder) (r : RegisteredResource) (a : Answers) :
    core (step s (.frameIntake r a)) = core (frameIntake s r a).1 := by
  rw [step]
  obtain ⟨t,ok⟩ := frameIntake s r a
  cases ok <;> rfl

theorem evict_core (h : core t = core s) : core (evict t) = core (evict s) := by
  simp only [core, Prod.mk.injEq] at h
  obtain ⟨hcache,hreg,hunreg,hcur⟩ := h
  simp only [evict, unregisterResource, hcache]
  split
  · split_ifs
    · split <;> simp only [core, hcache, hreg, hunreg, hcur]
    · simp only [core, hcache, hreg, hunreg, hcur]
  · simp only [core, hcache, hreg, hunreg, hcur]

theorem register_core (h : core t = core s) (r : RegisteredResource) :
    core (register t r) = core (register s r) := by
  simp only [core, Prod.mk.injEq] at h
  obtain ⟨hcache,hreg,hunreg,_⟩ := h
  simp only [core, register, hcache, hreg, hunreg]

theorem takeResource_cases (s : NvidiaEncoder) (r : RegisteredResource) (a : Answers) :
    (¬(r.filled = true ∧ s.resourceCache.find? r.matches = none) ∧
      (core (takeResource s r a).1 = core s ∨ r.filled = true ∧ ∃ cached ∈ s.resourceCache,
        r.matches cached = true ∧
          core (takeResource s r a).1 = core { s with registeredResource := cached })) ∨
    ((r.filled = true ∧ s.resourceCache.find? r.matches = none) ∧ a.registers = true ∧
      core (takeResource s r a).1 = core (register (evict s) r)) ∨
    ((r.filled = true ∧ s.resourceCache.find? r.matches = none) ∧ a.registers = false ∧
      core (takeResource s r a).1 = core (evict s)) := by
  rw [takeResource]
  split_ifs with hf hreg
  · exact .inl ⟨fun hc => absurd (hf.symm.trans hc.1) (by decide),.inl rfl⟩
  · have hfilled := (Bool.not_eq_false _).mp hf
    cases hfind : s.resourceCache.find? r.matches with
    | none => exact .inr (.inl ⟨⟨hfilled,rfl⟩,hreg,takeUp_core _ a⟩)
    | some cached =>
      exact .inl ⟨fun hc => (by cases hc.2),.inr ⟨hfilled,cached,List.mem_of_find?_eq_some hfind,
        List.find?_some hfind,takeUp_core _ a⟩⟩
  · have hfilled := (Bool.not_eq_false _).mp hf
    cases hfind : s.resourceCache.find? r.matches with
    | none => exact .inr (.inr ⟨⟨hfilled,rfl⟩,(Bool.not_eq_true _).mp hreg,rfl⟩)
    | some cached =>
      exact .inl ⟨fun hc => (by cases hc.2),.inr ⟨hfilled,cached,List.mem_of_find?_eq_some hfind,
        List.find?_some hfind,takeUp_core _ a⟩⟩

theorem step_frameIntake_cases (s : NvidiaEncoder) (r : RegisteredResource) (a : Answers) :
    (¬Attempts s r a ∧ (core (step s (.frameIntake r a)) = core s ∨
      r.filled = true ∧ ∃ cached ∈ s.resourceCache, r.matches cached = true ∧
        core (step s (.frameIntake r a)) = core { s with registeredResource := cached })) ∨
    (Attempts s r a ∧ a.registers = true ∧
      core (step s (.frameIntake r a)) = core (register (evict s) r)) ∨
    (Attempts s r a ∧ a.registers = false ∧
      core (step s (.frameIntake r a)) = core (evict s)) := by
  rw [step_frameIntake_core, frameIntake]
  split_ifs with hsize hrec
  · have hiff : Attempts s r a ↔ r.filled = true ∧ s.resourceCache.find? r.matches = none :=
      and_iff_right (.inl hsize)
    rw [hiff]
    exact takeResource_cases s r a
  · have hiff : Attempts s r a ↔ r.filled = true ∧ s.resourceCache.find? r.matches = none :=
      and_iff_right (.inr hrec)
    have hsized : core { s with width := r.width, height := r.height } = core s := rfl
    rw [hiff]
    rcases takeResource_cases { s with width := r.width, height := r.height } r a with
      h | ⟨hatt,hreg,hcore⟩ | ⟨hatt,hreg,hcore⟩
    · exact .inl h
    · exact .inr (.inl ⟨hatt,hreg,hcore.trans (register_core (evict_core hsized) r)⟩)
    · exact .inr (.inr ⟨hatt,hreg,hcore.trans (evict_core hsized)⟩)
  · exact .inl ⟨fun hc => hc.1.elim hsize hrec,.inl rfl⟩

theorem evict_eq (s : NvidiaEncoder) : ∃ unregistered, evict s =
    { s with unregistered := unregistered, resourceCache := shift s.resourceCache } := by
  simp only [evict, unregisterResource]
  split
  · split_ifs
    · split <;> exact ⟨_,rfl⟩
    · exact ⟨_,rfl⟩
  · exact ⟨_,rfl⟩

theorem evict_resourceCache (s : NvidiaEncoder) :
    (evict s).resourceCache = shift s.resourceCache := by
  obtain ⟨_,heq⟩ := evict_eq s
  rw [heq]

theorem evict_registered (s : NvidiaEncoder) : (evict s).registered = s.registered := by
  obtain ⟨_,heq⟩ := evict_eq s
  rw [heq]

theorem evict_registeredResource (s : NvidiaEncoder) :
    (evict s).registeredResource = s.registeredResource := by
  obtain ⟨_,heq⟩ := evict_eq s
  rw [heq]

theorem Inv.cache_eq (h : Inv s) : ∃ r₀ rest last, s.resourceCache = r₀ :: rest ++ [last] ∧
    rest ≠ [] := by
  have hsize := h.size
  rcases hcache : s.resourceCache with _ | ⟨r₀,rest⟩
  · rw [hcache] at hsize
    cases hsize
  · rcases List.eq_nil_or_concat rest with rfl | ⟨rest,last,rfl⟩
    · rw [hcache] at hsize
      cases hsize
    · refine ⟨r₀,rest,last,by rw [List.concat_eq_append, List.cons_append],?_⟩
      rintro rfl
      rw [hcache] at hsize
      cases hsize

theorem Inv.evict_owned (h : Inv s) :
    Owned s.resourceCache.dropLast s.registered (evict s).unregistered := by
  obtain ⟨r₀,rest,last,hcache,_⟩ := h.cache_eq
  have howned := h.owned
  have hlast : s.resourceCache.getLast? = some last := by rw [hcache, List.getLast?_concat]
  rw [hcache] at howned
  rw [hcache, List.dropLast_concat]
  simp only [evict, hlast]
  split_ifs with hf
  · obtain ⟨handle,hh,_⟩ := howned.known last (List.mem_append_right _ (List.mem_singleton_self _)) hf
    simp only [unregisterResource, hh]
    exact howned.drop_filled hf hh
  · exact howned.drop_empty ((Bool.not_eq_true _).mp hf)

theorem Inv.register (h : Inv s) (hr : r.filled = true) : Inv (register (evict s) r) := by
  obtain ⟨r₀,rest,last,hcache,hrest⟩ := h.cache_eq
  have hcache' : (Nvenc.register (evict s) r).resourceCache =
      { r with handle := some s.registered.length } :: s.resourceCache.dropLast := by
    simp only [Nvenc.register, evict_resourceCache, evict_registered, hcache]
    rfl
  have hnew : (Nvenc.register (evict s) r).registeredResource =
      { r with handle := some s.registered.length } := by
    simp only [Nvenc.register, evict_registered]
  constructor
  case owned =>
    rw [hcache']
    simp only [Nvenc.register, evict_registered]
    exact h.evict_owned.register hr
  case size =>
    rw [hcache', List.length_cons, List.length_dropLast, h.size]
    rfl
  case front =>
    intro _
    rw [hcache']
    exact hr
  case current =>
    intro handle _
    rw [hcache', hnew]
    exact ⟨List.mem_cons_self,hr⟩

theorem Inv.registered_nil (h : Inv s) (hhead : headFilled s.resourceCache = false) :
    s.registered = [] := by
  by_contra hne
  rw [h.front hne] at hhead
  cases hhead

theorem Inv.fails (h : Inv s) (hhead : headFilled s.resourceCache = false) : Inv (evict s) := by
  have hnil := h.registered_nil hhead
  obtain ⟨r₀,rest,last,hcache,hrest⟩ := h.cache_eq
  have hshift : (evict s).resourceCache = r₀ :: s.resourceCache.dropLast := by
    rw [evict_resourceCache, hcache]
    rfl
  have hempty : r₀.filled = false := by
    rw [hcache] at hhead
    exact hhead
  constructor
  case owned =>
    rw [hshift, evict_registered]
    exact h.evict_owned.cons_empty hempty
  case size =>
    rw [hshift, List.length_cons, List.length_dropLast, h.size]
    rfl
  case front =>
    intro hne
    rw [evict_registered] at hne
    exact absurd hnil hne
  case current =>
    intro handle hh
    rw [evict_registeredResource] at hh
    obtain ⟨hmem,hf⟩ := h.current handle hh
    obtain ⟨_,_,hreg⟩ := h.owned.known _ hmem hf
    rw [hnil] at hreg
    cases hreg

theorem Inv.doubled (h : Inv s) (hhead : headFilled s.resourceCache = true) :
    ¬(handles (evict s).resourceCache).Nodup := by
  obtain ⟨r₀,rest,last,hcache,hrest⟩ := h.cache_eq
  have hfilled : r₀.filled = true := by
    rw [hcache] at hhead
    exact hhead
  have hshift : (evict s).resourceCache = r₀ :: r₀ :: rest := by
    rw [evict_resourceCache, hcache, List.cons_append, shift, ← List.cons_append,
      List.dropLast_concat]
  rw [hshift, handles_filled hfilled, handles_filled hfilled]
  exact fun hc => (List.nodup_cons.1 hc).1 List.mem_cons_self

theorem Inv.hit (h : Inv s) (hr : r.filled = true) {cached : RegisteredResource}
    (hmem : cached ∈ s.resourceCache) (hmatch : r.matches cached = true) :
    Inv { s with registeredResource := cached } where
  owned := h.owned
  size := h.size
  front := h.front
  current _ _ := by
    refine ⟨hmem,?_⟩
    rw [RegisteredResource.matches, decide_eq_true_eq] at hmatch
    rw [RegisteredResource.filled, hmatch.1]
    exact hr

theorem Inv.encode (h : Inv s) (maps encodes : Bool) : Inv (step s (.encode maps encodes)) := by
  rw [step]
  split_ifs
  · exact
      { owned := h.owned
        size := h.size
        front := h.front
        current := fun _ hc => by cases hc }
  · exact h

theorem Inv.careful (h : Inv s) {a : Action} (hc : Careful s a) : Inv (step s a) := by
  cases a with
  | encode maps encodes => exact h.encode maps encodes
  | frameIntake r a =>
    rcases step_frameIntake_cases s r a with ⟨_,hcore | ⟨hr,cached,hmem,hmatch,hcore⟩⟩ |
      ⟨hatt,_,hcore⟩ | ⟨hatt,hreg,hcore⟩
    · exact h.of_core hcore
    · exact (h.hit hr hmem hmatch).of_core hcore
    · exact (h.register hatt.2.1).of_core hcore
    · refine (h.fails ?_).of_core hcore
      by_contra hhead
      rw [hc hatt ((Bool.not_eq_false _).mp hhead)] at hreg
      cases hreg

theorem Inv.encodes (h : Inv s) {a : Action} {handle : ℕ} (hh : handle ∈ encodedFrom s a) :
    handle ∉ s.unregistered ∧
      s.registered[handle]? = some s.registeredResource.registration := by
  have hcur : s.registeredResource.handle = some handle := by
    cases a with
    | frameIntake r a => cases hh
    | encode maps encodes =>
      rw [encodedFrom] at hh
      split_ifs at hh
      · cases hh
      · exact hh
  obtain ⟨hmem,hf⟩ := h.current handle hcur
  obtain ⟨handle',heq,hreg⟩ := h.owned.known _ hmem hf
  obtain rfl := Option.some.inj (hcur.symm.trans heq)
  exact ⟨h.owned.live handle (mem_handles.2 ⟨_,hmem,hf,hcur⟩),hreg⟩

theorem Inv.careful_of_proper (h : Inv s) {a : Action} (hp : Proper s a) : Careful s a := by
  cases a with
  | encode maps encodes =>
    intro hsome
    obtain ⟨handle,hh⟩ := Option.isSome_iff_exists.1 hsome
    obtain ⟨_,r,hr,htaken⟩ := hp.encodes handle hh
    rw [(h.encodes hh).2] at hr
    rw [htaken, Option.some.inj hr]
  | frameIntake r a =>
    intro hatt hhead
    by_contra hreg
    have hdistinct := hp.distinct
    rcases step_frameIntake_cases s r a with ⟨hnot,_⟩ | ⟨_,hreg',_⟩ | ⟨_,_,hcore⟩
    · exact hnot hatt
    · exact hreg hreg'
    · have hcache : (step s (.frameIntake r a)).resourceCache = (evict s).resourceCache :=
        congrArg Prod.fst hcore
      rw [hcache] at hdistinct
      exact h.doubled hhead hdistinct

theorem Inv.proper_iff (h : Inv s) (a : Action) : Careful s a ↔ Proper s a := by
  constructor
  · intro hc
    have ht := (h.careful hc).owned
    refine ⟨ht.distinct,ht.held,ht.once,fun handle hh => ?_⟩
    obtain ⟨hlive,hreg⟩ := h.encodes hh
    refine ⟨hlive,_,hreg,?_⟩
    cases a with
    | frameIntake r a => cases hh
    | encode maps encodes => exact hc (Option.isSome_iff_exists.2 ⟨handle,hh⟩)
  · exact h.careful_of_proper

end

def createNvidiaEncoder (width height : ℤ) : NvidiaEncoder := { width := width, height := height }

theorem inv_create (width height : ℤ) : Inv (createNvidiaEncoder width height) where
  owned :=
    { known := fun r hr hf => by
        rw [List.eq_of_mem_replicate hr] at hf
        cases hf
      held := fun _ h => absurd h (Nat.not_lt_zero _)
      live := fun _ _ h => by cases h
      distinct := List.nodup_nil
      before := fun _ h => by cases h
      once := List.nodup_nil }
  size := rfl
  front h := absurd rfl h
  current _ h := by cases h

section
variable {s : NvidiaEncoder}

theorem step_registered (s : NvidiaEncoder) (a : Action) :
    (step s a).registered = [] ↔ s.registered = [] ∧ ¬Registers s a := by
  cases a with
  | encode maps encodes =>
    rw [step]
    split_ifs <;> exact ⟨fun h => ⟨h,id⟩,And.left⟩
  | frameIntake r a =>
    have hcongr : ∀ {t}, core (step s (.frameIntake r a)) = core t →
        (step s (.frameIntake r a)).registered = t.registered :=
      fun h => congrArg (fun c => c.2.1) h
    rcases step_frameIntake_cases s r a with ⟨hnot,hcore | ⟨_,cached,_,_,hcore⟩⟩ |
      ⟨hatt,hreg,hcore⟩ | ⟨hatt,hreg,hcore⟩
    · rw [hcongr hcore]
      exact ⟨fun h => ⟨h,fun hc => hnot hc.1⟩,And.left⟩
    · rw [hcongr hcore]
      exact ⟨fun h => ⟨h,fun hc => hnot hc.1⟩,And.left⟩
    · rw [hcongr hcore]
      exact ⟨fun h => absurd h (List.append_ne_nil_of_right_ne_nil _ (List.cons_ne_nil _ _)),
        fun h => absurd ⟨hatt,hreg⟩ h.2⟩
    · rw [hcongr hcore, evict_registered]
      refine ⟨fun h => ⟨h,fun hc => ?_⟩,And.left⟩
      exact absurd (hc.2.symm.trans hreg) (by decide)

theorem foldl_registered (as : List Action) (s : NvidiaEncoder) :
    (as.foldl step s).registered = [] ↔
      s.registered = [] ∧ Each step (fun s a => ¬Registers s a) s as := by
  induction as generalizing s with
  | nil => exact (and_iff_left trivial).symm
  | cons a as ih =>
    rw [List.foldl_cons, ih, step_registered, and_assoc]
    rfl

theorem Inv.careful_of_nil (h : Inv s) (hnil : s.registered = []) {a : Action}
    (ha : ¬Registers s a) : Careful s a := by
  cases a with
  | frameIntake r a =>
    intro _ hhead
    obtain ⟨r₀,rest,last,hcache,_⟩ := h.cache_eq
    rw [hcache] at hhead
    obtain ⟨_,_,hreg⟩ := h.owned.known r₀ (by rw [hcache]; exact List.mem_cons_self) hhead
    rw [hnil] at hreg
    cases hreg
  | encode maps encodes =>
    intro hsome
    obtain ⟨handle,hh⟩ := Option.isSome_iff_exists.1 hsome
    have hreg := (h.encodes hh).2
    rw [hnil] at hreg
    cases hreg

theorem Inv.not_released (h : Inv s) (hne : s.registered ≠ []) :
    ¬ReleasedOnce (destroyNvidiaEncoder s) := by
  obtain ⟨r₀,rest,last,hcache,_⟩ := h.cache_eq
  have hmem : r₀ ∈ s.resourceCache := by
    rw [hcache]
    exact List.mem_cons_self
  have hf : r₀.filled = true := by
    have hhead := h.front hne
    rw [hcache] at hhead
    exact hhead
  obtain ⟨handle,hh,hreg⟩ := h.owned.known r₀ hmem hf
  have hlive := h.owned.live handle (mem_handles.2 ⟨r₀,hmem,hf,hh⟩)
  intro hc
  have hcount : s.unregistered.count handle = 1 := hc handle (List.getElem?_eq_some_iff.1 hreg).1
  exact hlive (List.count_pos_iff.1 (by rw [hcount]; exact Nat.one_pos))

end

/-- Up to its destruction the encoder owns each handle once, and encodes from what was last
taken in, exactly if no registration fails beside a resource in the cache and nothing a failed
lock or unlock left behind is encoded; and each handle is unregistered exactly once in the end
only if there is none. -/
theorem cache_owns_iff (width height : ℤ) (as : List Action) :
    (Each step Proper (createNvidiaEncoder width height) as ↔
      Each step Careful (createNvidiaEncoder width height) as) ∧
    (Each step Proper (createNvidiaEncoder width height) as ∧
        ReleasedOnce (destroyNvidiaEncoder (as.foldl step (createNvidiaEncoder width height))) ↔
      Each step (fun s a => ¬Registers s a) (createNvidiaEncoder width height) as) := by
  have hinv := inv_create width height
  have hiff := @each_iff _ _ step Careful Proper Inv (fun _ _ h hc => h.careful hc)
    (fun _ a h => h.proper_iff a) as _ hinv
  refine ⟨hiff.symm,?_,?_⟩
  · rintro ⟨hproper,hreleased⟩
    have hend := @Each.invariant _ _ step Careful Inv (fun _ _ h hc => h.careful hc) as _ hinv
      (hiff.2 hproper)
    by_contra hnot
    refine hend.not_released (fun hc => ?_) hreleased
    exact hnot ((foldl_registered as _).1 hc).2
  · intro h
    have hcareful := @Each.imp _ _ step _ Careful (fun s => Inv s ∧ s.registered = [])
      (fun s a hs ha => ⟨hs.1.careful (hs.1.careful_of_nil hs.2 ha),
        (step_registered s a).2 ⟨hs.2,ha⟩⟩)
      (fun s a hs ha => hs.1.careful_of_nil hs.2 ha) as _ ⟨hinv,rfl⟩ h
    have hnil := (foldl_registered as _).2 ⟨rfl,h⟩
    refine ⟨hiff.1 hcareful,fun handle hlt => ?_⟩
    rw [destroyNvidiaEncoder, hnil] at hlt
    cases hlt

/-- A registration that fails after another one leaves a handle in the cache twice, and neither
is unregistered when the encoder is destroyed. -/
theorem failed_registration_doubles : ¬∀ (width height : ℤ) (as : List Action),
    Each step Proper (createNvidiaEncoder width height) as ∧
      ReleasedOnce (destroyNvidiaEncoder (as.foldl step (createNvidiaEncoder width height))) := by
  intro h
  have hrun := (h 2 2 [.frameIntake { width := 2, height := 2, texturePointer := some 0 } {},
    .frameIntake { width := 2, height := 2, texturePointer := some 1 } { registers := false }]).1
  have hdistinct := hrun.2.1.distinct
  exact absurd hdistinct (by decide)

end Whist.Nvenc
