import Mathlib.Data.Nat.Digits.Lemmas
import Whist.Foundation.LittleEndian

/-! # The text of a log message

`whist_log_vprintf` up to the place where it passes the text on.  `snprintf` writes as much as there
is room for and returns the length that it wanted to write, or -1 where no `int` can say it.
-/
namespace Whist.Logging
open Bytes LittleEndian

abbrev Text := { l : List UInt8 // 0 ∉ l }

def decimal (n : ℕ) : List UInt8 :=
  if n = 0 then [48] else (Nat.digits 10 n).reverse.map fun d => UInt8.ofNat (48 + d)

def decimalInt (n : ℤ) : List UInt8 := if n < 0 then 45 :: decimal n.natAbs else decimal n.natAbs

def padZero (w n : ℕ) : List UInt8 := (decimal n).leftpad w 48

def padRight (w : ℕ) (text : List UInt8) : List UInt8 := text.rightpad w 32

/-- What `clock_gettime` and `gmtime_r` tell. -/
structure Tm where
  year : Fin 2147483648
  month : Fin 13
  day : Fin 32
  hour : Fin 24
  minute : Fin 60
  second : Fin 61
  microsecond : Fin 1000000

/-- `%04i-%02i-%02iT%02i:%02i:%02i.%06li` -/
def currentTimeStr (t : Tm) : List UInt8 :=
  [padZero 4 t.year,[45],padZero 2 t.month,[45],padZero 2 t.day,[84],padZero 2 t.hour,[58],padZero 2 t.minute,[58],
    padZero 2 t.second,[46],padZero 6 t.microsecond].flatten

def metricLevel : ℕ := 3

/-- `tag_strings`: `FATAL_ERROR`, `ERROR`, `WARNING`, `METRIC`, `INFO` and `DEBUG`. -/
def tagStrings : List (List UInt8) :=
  [[70,65,84,65,76,95,69,82,82,79,82],[69,82,82,79,82],[87,65,82,78,73,78,71],[77,69,84,82,73,67],[73,78,70,79],
    [68,69,66,85,71]]

/-- The tag of a level, or `INVALID`. -/
def tag (level : ℕ) : List UInt8 := tagStrings.getD level [73,78,86,65,76,73,68]

/-- A call of `whist_log_vprintf`, with the time at which it is made and the message that the format and the
arguments give. -/
structure LogCall where
  level : ℕ
  fileName : Text
  function : Text
  lineNumber : ℤ
  now : Tm
  message : Text

/-- `LOG_CONTEXT_FORMAT`, which is ` | %-7s | %-35s | %-30s:%-5d | `. -/
def logContext (c : LogCall) : List UInt8 :=
  let separator := [32,124,32]
  [separator,padRight 7 (tag c.level),separator,padRight 35 c.fileName,separator,padRight 30 c.function,[58],
    padRight 5 (decimalInt c.lineNumber),separator].flatten

def intMax : ℕ := 2147483647

def snprintf (m : Memory) (offset size : ℕ) (text : List UInt8) : Memory × ℤ :=
  (if size = 0 then m else writeAt m offset (text.take (size - 1) ++ [0]),
    if text.length ≤ intMax then text.length else -1)

/-- The buffer with `position` and `remaining_size`. -/
structure Buffer where
  bytes : Memory
  position : ℕ
  remainingSize : ℕ

def stackSize : ℕ := 512

def Buffer.add (b : Buffer) (text : List UInt8) : Buffer :=
  let (bytes,ret) := snprintf b.bytes b.position b.remainingSize text
  if 0 < ret ∧ ret ≤ b.remainingSize then ⟨bytes,b.position + ret.toNat,b.remainingSize - ret.toNat⟩
  else { b with bytes := bytes }

def cString (m : Memory) (size : ℕ) : List UInt8 := ((List.range size).map m).takeWhile fun byte => byte ≠ 0

/-- The message goes to the stack buffer or, with a copy of what stands before it, to the heap.  No text is passed
on where the size of the heap buffer is not an `int`. -/
def addMessage (b : Buffer) (message : List UInt8) (heap : Memory) : Option (List UInt8) :=
  let (bytes,ret) := snprintf b.bytes b.position b.remainingSize message
  if ret < 0 then some (cString (writeAt bytes b.position [0]) stackSize)
  else if ret < b.remainingSize then some (cString bytes stackSize)
  else
    let size := b.position + (ret.toNat + 1)
    if intMax < size then none
    else
      let copied := writeAt heap 0 ((List.range b.position).map bytes)
      let (bytes,ret) := snprintf copied b.position (ret.toNat + 1) message
      some (cString (if ret < 0 then writeAt bytes b.position [0] else bytes) size)

def addContext (c : LogCall) (b : Buffer) : Buffer :=
  if c.level ≠ metricLevel then (b.add (currentTimeStr c.now)).add (logContext c) else b

/-- The text that is passed on.  The buffers are not initialised. -/
def whistLogVprintf (c : LogCall) (stack heap : Memory) : Option (List UInt8) :=
  addMessage (addContext c ⟨stack,0,stackSize⟩) c.message heap

def LogCall.timestamp (c : LogCall) : List UInt8 := if c.level = metricLevel then [] else currentTimeStr c.now

def LogCall.context (c : LogCall) : List UInt8 := if c.level = metricLevel then [] else logContext c

/-- The timestamp, the context and the whole message.  Of the first two, one is left out only if it does not fit
into what is left of the stack buffer. -/
def Complete (c : LogCall) (text : List UInt8) : Prop :=
  ∃ timestamp context, (timestamp = c.timestamp ∨ timestamp = [] ∧ stackSize < c.timestamp.length) ∧
    (context = c.context ∨ context = [] ∧ stackSize < timestamp.length + c.context.length) ∧
    text = timestamp ++ context ++ c.message

def LogCall.kept (c : LogCall) : List UInt8 :=
  if c.timestamp.length + c.context.length ≤ stackSize then c.timestamp ++ c.context else c.timestamp

theorem zero_notMem_decimal (n : ℕ) : 0 ∉ decimal n := by
  unfold decimal
  by_cases hn : n = 0
  · rw [if_pos hn]
    decide
  · rw [if_neg hn]
    intro h
    obtain ⟨d,hd,hzero⟩ := List.mem_map.mp h
    have hlt : d < 10 := Nat.digits_lt_base (by norm_num) (List.mem_reverse.mp hd)
    have hbyte := congrArg UInt8.toNat hzero
    rw [UInt8.toNat_ofNat'] at hbyte
    have hnat : (0 : UInt8).toNat = 0 := rfl
    omega

theorem length_decimal_le {n k : ℕ} (hk : 0 < k) (hn : n < 10 ^ k) : (decimal n).length ≤ k := by
  unfold decimal
  by_cases hzero : n = 0
  · rw [if_pos hzero]
    exact hk
  · rw [if_neg hzero, List.length_map, List.length_reverse]
    exact (Nat.digits_length_le_iff (by norm_num) n).mpr hn

theorem zero_notMem_decimalInt (n : ℤ) : 0 ∉ decimalInt n := by
  unfold decimalInt
  by_cases hn : n < 0
  · rw [if_pos hn]
    intro h
    rcases List.mem_cons.mp h with h | h
    · exact absurd h (by decide)
    · exact zero_notMem_decimal _ h
  · rw [if_neg hn]
    exact zero_notMem_decimal _

theorem zero_notMem_padZero (w n : ℕ) : 0 ∉ padZero w n := by
  intro h
  rcases List.mem_append.mp h with h | h
  · exact absurd (List.eq_of_mem_replicate h) (by decide)
  · exact zero_notMem_decimal n h

theorem length_padZero_le {w n : ℕ} (hw : 0 < w) (hn : n < 10 ^ w) : (padZero w n).length = w := by
  rw [padZero, List.length_leftpad, Nat.max_eq_left (length_decimal_le hw hn)]

theorem zero_notMem_padRight (w : ℕ) {text : List UInt8} (h : 0 ∉ text) : 0 ∉ padRight w text := by
  intro hmem
  rcases List.mem_append.mp hmem with hmem | hmem
  · exact h hmem
  · exact absurd (List.eq_of_mem_replicate hmem) (by decide)

theorem zero_notMem_tag (level : ℕ) : 0 ∉ tag level := by
  have hall : ∀ t ∈ tagStrings, 0 ∉ t := by decide
  unfold tag
  by_cases hlevel : level < tagStrings.length
  · rw [List.getD_eq_getElem _ _ hlevel]
    exact hall _ (List.getElem_mem hlevel)
  · rw [List.getD_eq_default _ _ (by omega)]
    decide

theorem zero_notMem_flatten {parts : List (List UInt8)} (h : ∀ p ∈ parts, 0 ∉ p) : 0 ∉ parts.flatten := by
  intro hmem
  obtain ⟨p,hp,hzero⟩ := List.mem_flatten.mp hmem
  exact h p hp hzero

namespace LogCall
variable (c : LogCall)

theorem zero_notMem_timestamp : 0 ∉ c.timestamp := by
  unfold timestamp
  by_cases hlevel : c.level = metricLevel
  · rw [if_pos hlevel]
    exact List.not_mem_nil
  · rw [if_neg hlevel]
    apply zero_notMem_flatten
    simp only [List.forall_mem_cons, zero_notMem_padZero, not_false_eq_true, true_and]
    decide

theorem zero_notMem_context : 0 ∉ c.context := by
  unfold context
  by_cases hlevel : c.level = metricLevel
  · rw [if_pos hlevel]
    exact List.not_mem_nil
  · rw [if_neg hlevel]
    apply zero_notMem_flatten
    have htag := zero_notMem_padRight 7 (zero_notMem_tag c.level)
    have hfile := zero_notMem_padRight 35 c.fileName.property
    have hfunction := zero_notMem_padRight 30 c.function.property
    have hline := zero_notMem_padRight 5 (zero_notMem_decimalInt c.lineNumber)
    simp only [List.forall_mem_cons, htag, hfile, hfunction, hline, not_false_eq_true, true_and]
    decide

theorem length_timestamp_le : c.timestamp.length ≤ 32 := by
  unfold timestamp
  by_cases hlevel : c.level = metricLevel
  · rw [if_pos hlevel]
    exact Nat.zero_le _
  · rw [if_neg hlevel]
    have hyear : (padZero 4 c.now.year).length ≤ 10 := by
      rw [padZero, List.length_leftpad]
      have := @length_decimal_le c.now.year 10 (by norm_num) (c.now.year.isLt.trans (by norm_num))
      omega
    have hmonth := @length_padZero_le 2 c.now.month (by norm_num) (c.now.month.isLt.trans (by norm_num))
    have hday := @length_padZero_le 2 c.now.day (by norm_num) (c.now.day.isLt.trans (by norm_num))
    have hhour := @length_padZero_le 2 c.now.hour (by norm_num) (c.now.hour.isLt.trans (by norm_num))
    have hminute := @length_padZero_le 2 c.now.minute (by norm_num) (c.now.minute.isLt.trans (by norm_num))
    have hsecond := @length_padZero_le 2 c.now.second (by norm_num) (c.now.second.isLt.trans (by norm_num))
    have hmicro := @length_padZero_le 6 c.now.microsecond (by norm_num) c.now.microsecond.isLt
    unfold currentTimeStr
    simp only [List.flatten_cons, List.flatten_nil, List.length_append, List.length_cons, List.length_nil, hmonth,
      hday, hhour, hminute, hsecond, hmicro]
    omega

end LogCall

theorem cString_of_at {m : Memory} {text : List UInt8} {size : ℕ} (h : At m 0 (text ++ [0])) (htext : 0 ∉ text)
    (hsize : text.length < size) : cString m size = text := by
  obtain ⟨k,rfl⟩ : ∃ k, size = (text ++ [0]).length + k := by
    refine ⟨size - (text.length + 1),?_⟩
    rw [List.length_append, List.length_singleton]
    omega
  have hbytes : (List.range (text ++ [0]).length).map m = text ++ [0] := by
    have := map_range_of_at h
    simp only [Nat.zero_add] at this
    exact this
  have hnonzero : ∀ byte ∈ text, decide (byte ≠ 0) = true := by
    intro byte hbyte
    apply decide_eq_true
    rintro rfl
    exact htext hbyte
  unfold cString
  rw [List.range_add, List.map_append, hbytes, List.append_assoc, List.takeWhile_append_of_pos hnonzero]
  exact List.append_nil text

theorem length_cString_le {m : Memory} {i : ℕ} (hzero : m i = 0) (size : ℕ) : (cString m size).length ≤ i := by
  unfold cString
  by_contra hlong
  have htaken := List.takeWhile_prefix (l := (List.range size).map m) fun byte => decide (byte ≠ 0)
  have hlt : i < (((List.range size).map m).takeWhile fun byte => decide (byte ≠ 0)).length := by omega
  have hmem := List.all_eq_true.mp List.all_takeWhile _ (List.getElem_mem hlt)
  rw [htaken.getElem hlt, List.getElem_map, List.getElem_range, hzero] at hmem
  exact absurd hmem (by decide)

structure Filled (b : Buffer) (text : List UInt8) : Prop where
  bytes : At b.bytes 0 text
  position : b.position = text.length
  remainingSize : b.remainingSize + text.length = stackSize

section Add
variable {b : Buffer} {done text : List UInt8}

theorem at_snprintf (h : Filled b done) (hlt : text.length < b.remainingSize) :
    At (snprintf b.bytes b.position b.remainingSize text).1 0 (done ++ text ++ [0]) := by
  have hbytes : (snprintf b.bytes b.position b.remainingSize text).1 =
      writeAt b.bytes (0 + done.length) (text ++ [0]) := by
    unfold snprintf
    dsimp only
    rw [if_neg (by omega), h.position, Nat.zero_add, List.take_of_length_le (by omega)]
  rw [hbytes, List.append_assoc, at_append]
  exact ⟨h.bytes.writeAt le_rfl _,at_writeAt _ _ _⟩

theorem at_snprintf_done (h : Filled b done) : At (snprintf b.bytes b.position b.remainingSize text).1 0 done := by
  unfold snprintf
  dsimp only
  by_cases hzero : b.remainingSize = 0
  · rw [if_pos hzero]
    exact h.bytes
  · rw [if_neg hzero]
    exact h.bytes.writeAt (by rw [h.position, Nat.zero_add]) _

theorem snprintf_ret {m : Memory} {offset size : ℕ} (hlt : text.length ≤ intMax) :
    (snprintf m offset size text).2 = text.length := if_pos hlt

theorem snprintf_ret_error {m : Memory} {offset size : ℕ} (hlt : intMax < text.length) :
    (snprintf m offset size text).2 = -1 := if_neg (by omega)

theorem Filled.add_of_lt (h : Filled b done) (hlt : done.length + text.length < stackSize) :
    Filled (b.add text) (done ++ text) := by
  have hsize := h.remainingSize
  have hat := (at_append.mp (@at_snprintf b done text h (by omega))).1
  have hint : text.length ≤ intMax := by
    unfold stackSize at hlt
    unfold intMax
    omega
  have hret := @snprintf_ret text b.bytes b.position b.remainingSize hint
  unfold Buffer.add
  dsimp only
  rw [hret]
  by_cases hempty : text.length = 0
  · have hnil := List.length_eq_zero_iff.mp hempty
    rw [if_neg (by omega)]
    refine ⟨hat,?_,?_⟩
    · rw [hnil, List.append_nil]
      exact h.position
    · rw [hnil, List.append_nil]
      exact hsize
  · rw [if_pos (by omega)]
    rw [Int.toNat_natCast]
    have hposition : b.position + text.length = (done ++ text).length := by rw [List.length_append, h.position]
    have hremaining : b.remainingSize - text.length + (done ++ text).length = stackSize := by
      rw [List.length_append]
      omega
    exact ⟨hat,hposition,hremaining⟩

theorem Filled.add_of_gt (h : Filled b done) (hgt : stackSize < done.length + text.length) :
    Filled (b.add text) done := by
  have hsize := h.remainingSize
  have hat := @at_snprintf_done b done text h
  unfold Buffer.add
  dsimp only
  by_cases hint : text.length ≤ intMax
  · rw [snprintf_ret hint, if_neg (by omega)]
    exact ⟨hat,h.position,hsize⟩
  · rw [snprintf_ret_error (by omega), if_neg (by omega)]
    exact ⟨hat,h.position,hsize⟩

theorem Filled.add_of_eq (h : Filled b done) (heq : done.length + text.length = stackSize) (hpos : 0 < text.length) :
    (b.add text).position = stackSize ∧ (b.add text).remainingSize = 0 ∧ (b.add text).bytes (stackSize - 1) = 0 := by
  have hsize := h.remainingSize
  have hint : text.length ≤ intMax := by
    unfold stackSize at heq
    unfold intMax
    omega
  have hzero : (snprintf b.bytes b.position b.remainingSize text).1 (stackSize - 1) = 0 := by
    have hwritten : (snprintf b.bytes b.position b.remainingSize text).1 =
        writeAt b.bytes done.length (text.take (text.length - 1) ++ [0]) := by
      unfold snprintf
      dsimp only
      rw [if_neg (by omega), h.position, show b.remainingSize = text.length by omega]
    have hat := (at_append.mp (at_writeAt b.bytes done.length (text.take (text.length - 1) ++ [0]))).2 0 Nat.one_pos
    rw [List.length_take_of_le (Nat.sub_le _ _), Nat.add_zero] at hat
    rw [hwritten, show stackSize - 1 = done.length + (text.length - 1) by omega, hat]
    rfl
  unfold Buffer.add
  dsimp only
  rw [snprintf_ret hint, if_pos (by omega), Int.toNat_natCast]
  have hposition : b.position + text.length = stackSize := by rw [h.position, heq]
  have hremaining : b.remainingSize - text.length = 0 := by omega
  exact ⟨hposition,hremaining,hzero⟩

end Add

section Message
variable {b : Buffer} {done message : List UInt8}

/-- Behind a text that left room for a terminator the message comes whole, unless it is longer than an `int` can
say. -/
theorem addMessage_of_filled (h : Filled b done) (hroom : done.length < stackSize) (hdone : 0 ∉ done)
    (hmessage : 0 ∉ message) (heap : Memory) : addMessage b message heap =
      if intMax < message.length then some done
      else if done.length + message.length < intMax then some (done ++ message) else none := by
  have hsize := h.remainingSize
  have hpos := h.position
  have hall : 0 ∉ done ++ message := fun hmem => (List.mem_append.mp hmem).elim hdone hmessage
  have hint : stackSize < intMax := by decide
  unfold addMessage
  dsimp only
  by_cases hlong : intMax < message.length
  · rw [snprintf_ret_error hlong, if_pos (by omega), if_pos hlong]
    have hat : At (writeAt (snprintf b.bytes b.position b.remainingSize message).1 b.position [0]) 0 (done ++ [0]) := by
      rw [hpos, at_append, ← hpos]
      refine ⟨(at_snprintf_done h).writeAt (by omega) _,?_⟩
      rw [hpos, Nat.zero_add]
      exact at_writeAt _ _ _
    rw [cString_of_at hat hdone hroom]
  rw [snprintf_ret (by omega), if_neg (by omega), if_neg hlong]
  by_cases hfits : message.length < b.remainingSize
  · rw [if_pos (by omega), if_pos (by omega), cString_of_at (at_snprintf h hfits) hall (by rw [List.length_append]; omega)]
  rw [if_neg (by omega), Int.toNat_natCast, hpos]
  by_cases hheap : done.length + message.length < intMax
  · rw [if_neg (by omega), if_pos hheap, snprintf_ret (by omega), if_neg (by omega)]
    -- the part that was copied, and the message behind it
    have hcopied : (List.range done.length).map (snprintf b.bytes done.length b.remainingSize message).1 = done := by
      have hat := @at_snprintf_done b done message h
      rw [hpos] at hat
      have hmap := map_range_of_at hat
      simp only [Nat.zero_add] at hmap
      exact hmap
    have hat : At (snprintf (writeAt heap 0 done) done.length (message.length + 1) message).1 0
        (done ++ message ++ [0]) := by
      unfold snprintf
      dsimp only
      rw [if_neg (Nat.succ_ne_zero _), Nat.add_sub_cancel, List.take_length, List.append_assoc]
      have hwrite := writeAt_append heap 0 done (message ++ [0])
      rw [Nat.zero_add] at hwrite
      rw [hwrite]
      exact at_writeAt _ _ _
    rw [hcopied, cString_of_at hat hall (by rw [List.length_append]; omega)]
  · rw [if_pos (by omega), if_neg hheap]

/-- After an exact fit the text is cut at the last byte of the stack buffer. -/
theorem length_addMessage_of_full (hposition : b.position = stackSize) (hremaining : b.remainingSize = 0)
    (hzero : b.bytes (stackSize - 1) = 0) {heap : Memory} {text : List UInt8}
    (h : addMessage b message heap = some text) : text.length < stackSize := by
  have hlast : stackSize - 1 < stackSize := by decide
  have hcut : ∀ (m : Memory) (size : ℕ), m (stackSize - 1) = 0 → (cString m size).length < stackSize := by
    intro m size hm
    have := length_cString_le hm size
    omega
  have hkeep : ∀ m l, (snprintf m stackSize l message).1 (stackSize - 1) = m (stackSize - 1) := by
    intro m l
    unfold snprintf
    dsimp only
    by_cases hl : l = 0
    · rw [if_pos hl]
    · rw [if_neg hl, writeAt, if_neg (by omega)]
  have hterminated : ∀ m : Memory, writeAt m stackSize [0] (stackSize - 1) = m (stackSize - 1) := by
    intro m
    rw [writeAt, if_neg (by omega)]
  unfold addMessage at h
  dsimp only at h
  rw [hposition, hremaining] at h
  by_cases hneg : (snprintf b.bytes stackSize 0 message).2 < 0
  · rw [if_pos hneg] at h
    rw [← Option.some.inj h]
    exact hcut _ _ (by rw [hterminated, hkeep, hzero])
  rw [if_neg hneg, if_neg (by omega)] at h
  generalize (snprintf b.bytes stackSize 0 message).2.toNat = ret at h
  by_cases hsize : intMax < stackSize + (ret + 1)
  · rw [if_pos hsize] at h
    cases h
  rw [if_neg hsize] at h
  rw [← Option.some.inj h]
  apply hcut
  have hcopied : writeAt heap 0 ((List.range stackSize).map (snprintf b.bytes stackSize 0 message).1)
      (stackSize - 1) = 0 := by
    rw [writeAt, if_pos (Nat.zero_le _), Nat.sub_zero, List.getElem?_map, List.getElem?_range hlast, Option.map_some,
      Option.getD_some, hkeep, hzero]
  split_ifs
  · rw [hterminated, hkeep, hcopied]
  · rw [hkeep, hcopied]

end Message

namespace LogCall
variable (c : LogCall)

theorem addContext_eq (b : Buffer) : addContext c b =
    if c.level = metricLevel then b else (b.add c.timestamp).add c.context := by
  unfold addContext timestamp context
  by_cases hlevel : c.level = metricLevel
  · rw [if_neg (not_not.mpr hlevel), if_pos hlevel]
  · rw [if_pos hlevel, if_neg hlevel, if_neg hlevel, if_neg hlevel]

theorem filled_start (stack : Memory) : Filled ⟨stack,0,stackSize⟩ [] where
  bytes := by
    intro i hi
    cases hi
  position := rfl
  remainingSize := rfl

theorem filled_timestamp (stack : Memory) : Filled ((⟨stack,0,stackSize⟩ : Buffer).add c.timestamp) c.timestamp := by
  have hlength := c.length_timestamp_le
  have hfilled := (filled_start stack).add_of_lt (show ([] : List UInt8).length + c.timestamp.length < stackSize by
    unfold stackSize
    rw [List.length_nil]
    omega)
  rwa [List.nil_append] at hfilled

theorem filled_kept (stack : Memory) (hne : c.timestamp.length + c.context.length ≠ stackSize) :
    Filled (addContext c ⟨stack,0,stackSize⟩) c.kept := by
  rw [addContext_eq]
  unfold kept
  by_cases hlevel : c.level = metricLevel
  · have htimestamp : c.timestamp = [] := if_pos hlevel
    have hcontext : c.context = [] := if_pos hlevel
    have hempty : ([] : List UInt8).length + ([] : List UInt8).length ≤ stackSize := Nat.zero_le _
    rw [if_pos hlevel, htimestamp, hcontext, if_pos hempty]
    exact filled_start stack
  rw [if_neg hlevel]
  by_cases hfits : c.timestamp.length + c.context.length ≤ stackSize
  · rw [if_pos hfits]
    exact (c.filled_timestamp stack).add_of_lt (by omega)
  · rw [if_neg hfits]
    exact (c.filled_timestamp stack).add_of_gt (by omega)

theorem kept_length_lt (hne : c.timestamp.length + c.context.length ≠ stackSize) : c.kept.length < stackSize := by
  have hlength := c.length_timestamp_le
  unfold kept
  by_cases hfits : c.timestamp.length + c.context.length ≤ stackSize
  · rw [if_pos hfits, List.length_append]
    omega
  · rw [if_neg hfits]
    unfold stackSize
    omega

theorem zero_notMem_kept : 0 ∉ c.kept := by
  unfold kept
  split_ifs
  · intro h
    exact (List.mem_append.mp h).elim c.zero_notMem_timestamp c.zero_notMem_context
  · exact c.zero_notMem_timestamp

theorem complete_iff (text : List UInt8) : Complete c text ↔ text = c.kept ++ c.message ∨
    stackSize < c.timestamp.length + c.context.length ∧ text = c.timestamp ++ c.context ++ c.message := by
  have hlength := c.length_timestamp_le
  have hstack : 32 < stackSize := by decide
  unfold Complete kept
  constructor
  · rintro ⟨timestamp,context,htimestamp,hcontext,htext⟩
    obtain rfl : timestamp = c.timestamp := htimestamp.resolve_right fun h => by omega
    by_cases hfits : c.timestamp.length + c.context.length ≤ stackSize
    · obtain rfl : context = c.context := hcontext.resolve_right fun h => by omega
      rw [if_pos hfits]
      exact Or.inl htext
    · rw [if_neg hfits]
      rcases hcontext with rfl | ⟨rfl,-⟩
      · exact Or.inr ⟨by omega,htext⟩
      · rw [List.append_nil] at htext
        exact Or.inl htext
  · rintro (htext | ⟨hlarge,htext⟩)
    · by_cases hfits : c.timestamp.length + c.context.length ≤ stackSize
      · rw [if_pos hfits] at htext
        exact ⟨_,_,Or.inl rfl,Or.inl rfl,htext⟩
      · rw [if_neg hfits] at htext
        exact ⟨c.timestamp,[],Or.inl rfl,Or.inr ⟨rfl,by omega⟩,by rw [List.append_nil]; exact htext⟩
    · exact ⟨_,_,Or.inl rfl,Or.inl rfl,htext⟩

end LogCall

theorem not_complete_of_exactFit {c : LogCall} (hfit : c.timestamp.length + c.context.length = stackSize)
    {stack heap : Memory} {text : List UInt8} (h : whistLogVprintf c stack heap = some text) : ¬Complete c text := by
  rw [c.complete_iff]
  have hlength := c.length_timestamp_le
  have hstack : 32 < stackSize := by decide
  have hlevel : c.level ≠ metricLevel := by
    intro hlevel
    have htimestamp : c.timestamp = [] := if_pos hlevel
    have hcontext : c.context = [] := if_pos hlevel
    rw [htimestamp, hcontext, List.length_nil] at hfit
    omega
  have hfull := (c.filled_timestamp stack).add_of_eq hfit (by omega)
  unfold whistLogVprintf at h
  rw [c.addContext_eq, if_neg hlevel] at h
  have hshort := length_addMessage_of_full hfull.1 hfull.2.1 hfull.2.2 h
  unfold LogCall.kept
  rw [if_pos (by omega)]
  rintro (rfl | ⟨hlarge,-⟩)
  · rw [List.length_append, List.length_append] at hshort
    omega
  · omega

/-- The text is complete unless the context ends where the stack buffer does, or an `int` cannot count the text. -/
theorem whistLogVprintf_complete_iff (c : LogCall) (stack heap : Memory) :
    (∃ text, whistLogVprintf c stack heap = some text ∧ Complete c text) ↔
      c.timestamp.length + c.context.length ≠ stackSize ∧ c.kept.length + c.message.val.length < intMax := by
  by_cases hfit : c.timestamp.length + c.context.length = stackSize
  · refine iff_of_false ?_ (fun h => h.1 hfit)
    rintro ⟨text,htext,hcomplete⟩
    exact not_complete_of_exactFit hfit htext hcomplete
  have htext := addMessage_of_filled (c.filled_kept stack hfit) (c.kept_length_lt hfit) c.zero_notMem_kept
    c.message.property heap
  unfold whistLogVprintf
  rw [htext]
  constructor
  · rintro ⟨text,hsome,hcomplete⟩
    refine ⟨hfit,?_⟩
    by_cases hlong : intMax < c.message.val.length
    · -- only what stands before the message is passed on
      rw [if_pos hlong] at hsome
      have hlength := congrArg List.length (Option.some.inj hsome)
      rcases (c.complete_iff text).mp hcomplete with rfl | ⟨hlarge,rfl⟩
      · rw [List.length_append] at hlength
        omega
      · have hkept := c.kept_length_lt hfit
        rw [List.length_append, List.length_append] at hlength
        omega
    · rw [if_neg hlong] at hsome
      by_contra hheap
      rw [if_neg hheap] at hsome
      cases hsome
  · rintro ⟨-,hheap⟩
    rw [if_neg (by omega), if_pos hheap]
    exact ⟨_,rfl,(c.complete_iff _).mpr (Or.inl rfl)⟩

/-- A call with a file name that makes the context fill the buffer. -/
def exactFit : LogCall where
  level := 4
  fileName := ⟨List.replicate 431 97,by decide +kernel⟩
  function := ⟨[102],by decide⟩
  lineNumber := 1
  now := ⟨⟨2022,by norm_num⟩,⟨1,by norm_num⟩,⟨1,by norm_num⟩,⟨0,by norm_num⟩,⟨0,by norm_num⟩,⟨0,by norm_num⟩,
    ⟨0,by norm_num⟩⟩
  message := ⟨[109],by decide⟩

theorem whistLogVprintf_complete_fails : ¬∀ (c : LogCall) (stack heap : Memory),
    ∃ text, whistLogVprintf c stack heap = some text ∧ Complete c text := by
  intro h
  obtain ⟨text,htext,hcomplete⟩ := h exactFit (fun _ => 0) fun _ => 0
  exact not_complete_of_exactFit (by decide +kernel) htext hcomplete

end Whist.Logging
