import Whist.Foundation.Recency

/-! # The cursor cache

A cursor is a standard one or a PNG, and PNGs are kept by their hash on both sides of the
connection.  The access index is an integer that only grows; a cache holds the hashes that
were accessed last.
-/
namespace Whist.Cursor
open Recency

inductive WhistMouseMode
  | normal
  | relative
deriving DecidableEq

inductive WhistCursorType
  | none
  | png
  | alias
  | allScroll
  | arrow
  | cell
  | contextMenu
  | copy
  | crosshair
  | grab
  | grabbing
  | hand
  | help
  | ibeam
  | ibeamVertical
  | move
  | noDrop
  | notAllowed
  | progress
  | resizeCol
  | resizeE
  | resizeEw
  | resizeN
  | resizeNe
  | resizeNesw
  | resizeNs
  | resizeNw
  | resizeNwse
  | resizeRow
  | resizeS
  | resizeSe
  | resizeSw
  | resizeW
  | wait
  | zoomIn
  | zoomOut
deriving DecidableEq

/-- `png_size` is the length of `png`. -/
structure WhistCursorInfo where
  type : WhistCursorType
  mode : WhistMouseMode
  hash : UInt32
  cached : Bool := false
  png : List UInt8 := []
deriving DecidableEq

def mixWord (preHash word : UInt64) : UInt64 :=
  let preHash := preHash + word
  let preHash := preHash + (preHash <<< 32)
  let preHash := preHash + (preHash >>> 32)
  let preHash := preHash + (preHash <<< 10)
  let preHash := preHash ^^^ (preHash >>> 6)
  let preHash := preHash ^^^ (preHash <<< 48)
  preHash ^^^ 123456789

def readWord (bytes : List UInt8) : UInt64 :=
  bytes.foldr (fun byte word => (word <<< 8) ||| byte.toUInt64) 0

def mixWords : UInt64 → List UInt8 → UInt64 × List UInt8
  | preHash, b₀ :: b₁ :: b₂ :: b₃ :: b₄ :: b₅ :: b₆ :: b₇ :: b₈ :: rest =>
    mixWords (mixWord preHash (readWord [b₀,b₁,b₂,b₃,b₄,b₅,b₆,b₇])) (b₈ :: rest)
  | preHash, rest => (preHash,rest)

/-- A `char` is signed. -/
def mixByte (hash : UInt32) (byte : UInt8) : UInt32 :=
  let hash := hash + byte.toInt8.toInt32.toUInt32
  let hash := hash + (hash <<< 10)
  hash ^^^ (hash >>> 6)

def hash (buf : List UInt8) : UInt32 :=
  let (preHash,rest) := mixWords 123456789 buf
  let hash := rest.foldl mixByte ((preHash <<< 32) ^^^ preHash).toUInt32
  let hash := hash + (hash <<< 3)
  let hash := hash ^^^ (hash >>> 11)
  let hash := hash + (hash <<< 15)
  if hash = 0 then 1 else hash

theorem hash_ne_zero (buf : List UInt8) : hash buf ≠ 0 := by
  unfold hash
  dsimp only
  split_ifs with h
  · decide
  · exact h

def intBytes (n : ℕ) : List UInt8 :=
  [UInt8.ofNat n,UInt8.ofNat (n / 256),UInt8.ofNat (n / 65536),UInt8.ofNat (n / 16777216)]

def hiddenCursorHashOffset : ℕ := 0x1000
def idCursorHashOffset : ℕ := 0x2000

/-- What `whist_cursor_capture` returns: a cursor that is not marked cached and has a hash. -/
structure CapturedCursor where
  info : WhistCursorInfo
  notCached : info.cached = false
  hashed : info.hash ≠ 0

def capturedCursor (type : WhistCursorType) (mode : WhistMouseMode) (png hashed : List UInt8) :
    CapturedCursor where
  info := { type := type, mode := mode, png := png, hash := hash hashed }
  notCached := rfl
  hashed := by
    dsimp only
    exact hash_ne_zero hashed

def whistCursorInfoFromType (type : WhistCursorType) (mode : WhistMouseMode) : CapturedCursor :=
  capturedCursor type mode []
    (intBytes (if mode = .relative then hiddenCursorHashOffset else type.ctorIdx + idCursorHashOffset))

/-- `png` is what the encoder made of the pixels. -/
def whistCursorInfoFromRgba (png : List UInt8) (mode : WhistMouseMode) : CapturedCursor :=
  capturedCursor .png mode png (if mode = .relative then intBytes hiddenCursorHashOffset else png)

structure WhistCursorCacheEntry where
  cursorInfo : WhistCursorInfo
  mostRecentCacheAccessIndex : ℕ

structure WhistCursorCache where
  cursorCache : Std.TreeMap UInt32 WhistCursorCacheEntry := ∅
  nextCacheAccessIndex : ℕ := 0
  maxEntries : ℕ
  storeData : Bool

inductive CursorFatal
  /-- `FATAL_ASSERT(!cache->cursor_cache.contains(cursor_info->hash))`. -/
  | alreadyInCache
  /-- `FATAL_ASSERT(frame->has_cursor)` on recovery points. -/
  | noCursor
  /-- `FATAL_ASSERT(new_cursor->cached == true)`. -/
  | notCached
  /-- `FATAL_ASSERT(new_cursor->cached == false)`. -/
  | cached
deriving DecidableEq

def whistCursorCacheCreate (maxEntries : ℕ) (storeData : Bool) : WhistCursorCache where
  maxEntries := maxEntries
  storeData := storeData

def whistCursorCacheClear (cache : WhistCursorCache) : WhistCursorCache := { cache with cursorCache := ∅ }

def WhistCursorCache.copy (cache : WhistCursorCache) (cursorInfo : WhistCursorInfo) : WhistCursorInfo :=
  if cache.storeData then cursorInfo else { cursorInfo with cached := true, png := [] }

def WhistCursorCache.touch (cache : WhistCursorCache) (hash : UInt32) (cursorInfo : WhistCursorInfo) :
    WhistCursorCache :=
  { cache with
    cursorCache := cache.cursorCache.insert hash ⟨cursorInfo,cache.nextCacheAccessIndex⟩
    nextCacheAccessIndex := cache.nextCacheAccessIndex + 1 }

def WhistCursorCache.oldest (cache : WhistCursorCache) (newest : UInt32 × ℕ) : UInt32 × ℕ :=
  cache.cursorCache.foldl (fun oldest hash entry =>
    if entry.mostRecentCacheAccessIndex < oldest.2 then (hash,entry.mostRecentCacheAccessIndex) else oldest) newest

def WhistCursorCache.evict (cache : WhistCursorCache) (newest : UInt32 × ℕ) : WhistCursorCache :=
  if cache.cursorCache.size > cache.maxEntries then
    { cache with cursorCache := cache.cursorCache.erase (cache.oldest newest).1 }
  else cache

def whistCursorCacheAdd (cache : WhistCursorCache) (cursorInfo : WhistCursorInfo) :
    Except CursorFatal WhistCursorCache :=
  if cache.cursorCache.contains cursorInfo.hash then .error .alreadyInCache
  else .ok ((cache.touch cursorInfo.hash (cache.copy cursorInfo)).evict
    (cursorInfo.hash,cache.nextCacheAccessIndex))

def whistCursorCacheCheck (cache : WhistCursorCache) (hash : UInt32) :
    Option WhistCursorInfo × WhistCursorCache :=
  match cache.cursorCache[hash]? with
  | none => (none,cache)
  | some entry => (some entry.cursorInfo,cache.touch hash entry.cursorInfo)

def WhistCursorCache.stamp (cache : WhistCursorCache) (hash : UInt32) : Option ℕ :=
  cache.cursorCache[hash]?.map WhistCursorCacheEntry.mostRecentCacheAccessIndex

/-- An entry is a PNG under its own hash, and marked as cached where only metadata is kept. -/
structure EntryOf (cache : WhistCursorCache) (hash : UInt32) (cursorInfo : WhistCursorInfo) : Prop where
  hash : cursorInfo.hash = hash
  png : cursorInfo.type = .png
  cached : cache.storeData = false → cursorInfo.cached = true

/-- The cache holds the hashes of `shown`, the one accessed last first. -/
structure Holds (cache : WhistCursorCache) (shown : List UInt32) : Prop where
  recency : ByRecency cache.stamp cache.nextCacheAccessIndex shown
  entries : ∀ hash entry, cache.cursorCache[hash]? = some entry → EntryOf cache hash entry.cursorInfo

variable {cache cache' : WhistCursorCache} {shown : List UInt32} {info : WhistCursorInfo}

theorem Holds.create (maxEntries : ℕ) (storeData : Bool) :
    Holds (whistCursorCacheCreate maxEntries storeData) [] :=
  ⟨ByRecency.nil 0,fun _ _ h => nomatch h⟩

theorem Holds.clear (cache : WhistCursorCache) : Holds (whistCursorCacheClear cache) [] :=
  ⟨ByRecency.nil _,fun _ _ h => nomatch h⟩

theorem Holds.mem (h : Holds cache shown) (hash : UInt32) :
    hash ∈ shown ↔ ∃ entry, cache.cursorCache[hash]? = some entry := by
  rw [h.recency.mem]
  simp [WhistCursorCache.stamp]

theorem Holds.size (h : Holds cache shown) : cache.cursorCache.size = shown.length := by
  have hperm : cache.cursorCache.keys.Perm shown := by
    refine (List.perm_ext_iff_of_nodup Std.TreeMap.nodup_keys h.recency.nodup).mpr (fun hash => ?_)
    rw [h.mem, Std.TreeMap.mem_keys, Std.TreeMap.mem_iff_isSome_getElem?, Option.isSome_iff_exists]
  rw [← Std.TreeMap.length_keys, hperm.length_eq]

theorem stamp_touch (hash : UInt32) (info : WhistCursorInfo) :
    (cache.touch hash info).stamp = Function.update cache.stamp hash (some cache.nextCacheAccessIndex) := by
  funext k
  unfold WhistCursorCache.stamp WhistCursorCache.touch
  by_cases hk : k = hash
  · subst hk
    simp
  · rw [Function.update_of_ne hk, Std.TreeMap.getElem?_insert, if_neg]
    exact fun heq => hk (Std.LawfulEqCmp.eq_of_compare heq).symm

theorem Holds.touch (h : Holds cache shown) {hash : UInt32} (hentry : EntryOf cache hash info) :
    Holds (cache.touch hash info) (hash :: shown.erase hash) := by
  refine ⟨?_,fun k e he => ?_⟩
  · rw [stamp_touch]
    exact h.recency.touch hash
  · unfold WhistCursorCache.touch at he
    rw [Std.TreeMap.getElem?_insert] at he
    split_ifs at he with hk
    · cases he
      have heq : hash = k := Std.LawfulEqCmp.eq_of_compare hk
      subst heq
      exact ⟨hentry.hash,hentry.png,hentry.cached⟩
    · have hold := h.entries k e he
      exact ⟨hold.hash,hold.png,hold.cached⟩

theorem oldest_eq (newest : UInt32 × ℕ) :
    cache.oldest newest =
      least newest (cache.cursorCache.toList.map (fun e => (e.1,e.2.mostRecentCacheAccessIndex))) := by
  unfold WhistCursorCache.oldest least
  rw [Std.TreeMap.foldl_eq_foldl_toList, List.foldl_map]

theorem Holds.oldest {pre : List UInt32} {last : UInt32} (h : Holds cache (pre ++ [last]))
    {newest : UInt32 × ℕ} (hnewest : cache.stamp newest.1 = some newest.2) :
    (cache.oldest newest).1 = last := by
  set entries := cache.cursorCache.toList.map (fun e => (e.1,e.2.mostRecentCacheAccessIndex)) with hentries
  have hstamp : ∀ e, e ∈ entries ↔ cache.stamp e.1 = some e.2 := by
    rintro ⟨k,m⟩
    unfold WhistCursorCache.stamp
    simp [hentries, Std.TreeMap.mem_toList_iff_getElem?_eq_some]
  obtain ⟨-,hle⟩ := least_le newest entries
  have hleast : cache.stamp (least newest entries).1 = some (least newest entries).2 := by
    rcases least_mem newest entries with heq | hmem
    · rw [heq]
      exact hnewest
    · exact (hstamp _).mp hmem
  rw [oldest_eq]
  exact h.recency.eq_last hleast (fun k m hk => hle (k,m) ((hstamp (k,m)).mpr hk))

theorem Holds.erase {pre : List UInt32} {last : UInt32} (h : Holds cache (pre ++ [last])) :
    Holds { cache with cursorCache := cache.cursorCache.erase last } pre := by
  refine ⟨?_,fun k e he => ?_⟩
  · have hstamp : WhistCursorCache.stamp { cache with cursorCache := cache.cursorCache.erase last } =
        Function.update cache.stamp last none := by
      funext k
      unfold WhistCursorCache.stamp
      by_cases hk : k = last
      · subst hk
        simp
      · rw [Function.update_of_ne hk, Std.TreeMap.getElem?_erase, if_neg]
        exact fun heq => hk (Std.LawfulEqCmp.eq_of_compare heq).symm
    rw [hstamp]
    exact h.recency.dropLast
  · rw [Std.TreeMap.getElem?_erase] at he
    split_ifs at he
    have hold := h.entries k e he
    exact ⟨hold.hash,hold.png,hold.cached⟩

theorem Holds.evict {newest : UInt32 × ℕ} (h : Holds cache shown)
    (hnewest : cache.stamp newest.1 = some newest.2) :
    Holds (cache.evict newest) (trim cache.maxEntries shown) := by
  unfold WhistCursorCache.evict trim
  rw [h.size]
  split_ifs with hfull
  · rcases List.eq_nil_or_concat shown with rfl | ⟨pre,last,rfl⟩
    · exact absurd hfull (Nat.not_lt_zero _)
    · rw [List.concat_eq_append] at h ⊢
      rw [h.oldest hnewest, List.dropLast_concat]
      exact h.erase
  · exact h

theorem Holds.add (h : Holds cache shown) (hpng : info.type = .png) (hnew : info.hash ∉ shown) :
    ∃ cache', whistCursorCacheAdd cache info = .ok cache' ∧
      Holds cache' (access cache.maxEntries info.hash shown) ∧
      cache'.maxEntries = cache.maxEntries ∧ cache'.storeData = cache.storeData := by
  have hcontains : cache.cursorCache.contains info.hash = false := by
    rw [Std.TreeMap.contains_eq_isSome_getElem?]
    by_contra hsome
    exact hnew ((h.mem _).mpr (Option.isSome_iff_exists.mp (Bool.not_eq_false _ ▸ hsome)))
  have hentry : EntryOf cache info.hash (cache.copy info) := by
    unfold WhistCursorCache.copy
    split_ifs with hstore
    · exact ⟨rfl,hpng,fun hfalse => absurd (hfalse.symm.trans hstore) Bool.false_ne_true⟩
    · exact ⟨rfl,hpng,fun _ => rfl⟩
  have htouch := h.touch hentry
  rw [List.erase_of_not_mem hnew] at htouch
  have hstamp : (cache.touch info.hash (cache.copy info)).stamp info.hash = some cache.nextCacheAccessIndex := by
    rw [stamp_touch, Function.update_self]
  refine ⟨_,by rw [whistCursorCacheAdd, hcontains]; rfl,?_,?_⟩
  · rw [access, if_neg hnew]
    exact htouch.evict hstamp
  · unfold WhistCursorCache.evict
    split_ifs
    · exact ⟨rfl,rfl⟩
    · exact ⟨rfl,rfl⟩

theorem Holds.check_hit (h : Holds cache shown) {hash : UInt32} (hmem : hash ∈ shown) :
    ∃ info cache', whistCursorCacheCheck cache hash = (some info,cache') ∧ EntryOf cache hash info ∧
      Holds cache' (access cache.maxEntries hash shown) ∧
      cache'.maxEntries = cache.maxEntries ∧ cache'.storeData = cache.storeData := by
  obtain ⟨entry,hentry⟩ := (h.mem hash).mp hmem
  have hof := h.entries hash entry hentry
  refine ⟨entry.cursorInfo,cache.touch hash entry.cursorInfo,?_,hof,?_,rfl,rfl⟩
  · rw [whistCursorCacheCheck, hentry]
  · rw [access, if_pos hmem]
    exact h.touch hof

theorem Holds.check_miss (h : Holds cache shown) {hash : UInt32} (hmem : hash ∉ shown) :
    whistCursorCacheCheck cache hash = (none,cache) := by
  have hnone : cache.cursorCache[hash]? = none := by
    rw [Option.eq_none_iff_forall_ne_some]
    exact fun entry hentry => hmem ((h.mem hash).mpr ⟨entry,hentry⟩)
  rw [whistCursorCacheCheck, hnone]

end Whist.Cursor
