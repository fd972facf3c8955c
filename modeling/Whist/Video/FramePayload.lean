import Whist.Cursor.CursorCache
import Whist.Foundation.LittleEndian

/-! # The payload of a video frame

The server writes the cursor, when it has changed, and the encoded packets behind the fixed part of a `VideoFrame`.  The
bytes that are read are kept beside the packets, since a reader that fails may have read too far.
-/
namespace Whist.Frame
open Bytes LittleEndian Cursor

def sizeofVideoFrame : ℕ := 152

def sizeofCursorInfo : ℕ := 32

def largestVideoframeSize : ℕ := 4000000

def maxVideoframeDataSize : ℕ := largestVideoframeSize - (sizeofVideoFrame + sizeofCursorInfo)

/-- A `WhistCursorInfo` with the image behind it. -/
@[ext] structure CursorInfo where
  type : WhistCursorType
  mode : WhistMouseMode
  hash : UInt32
  cached : Bool
  pngSize : UInt64
  pngWidth : UInt16
  pngHeight : UInt16
  pngHotX : UInt16
  pngHotY : UInt16
  png : List UInt8
  png_length : png.length = if type = .png then pngSize.toNat else 0
  /-- The size of an object is a `size_t`. -/
  png_small : sizeofCursorInfo + png.length < 2 ^ 64

def whistCursorInfoGetSize (m : Memory) : UInt64 :=
  if (rl32 m 0).toNat = WhistCursorType.png.ctorIdx then 32 + rl64 m 16 else 32

namespace CursorInfo

/-- The fields in their order, with the padding behind `cached`. -/
def toBytes (c : CursorInfo) : List UInt8 :=
  le32 (UInt32.ofNat c.type.ctorIdx) ++ (le32 (UInt32.ofNat c.mode.ctorIdx) ++ (le32 c.hash ++
    ([if c.cached then 1 else 0,0,0,0] ++ (le64 c.pngSize ++ (le16 c.pngWidth.toNat ++
      (le16 c.pngHeight.toNat ++ (le16 c.pngHotX.toNat ++ (le16 c.pngHotY.toNat ++ c.png))))))))

/-- The fields are read from memory.  The image is as long as `png_size` says. -/
def IsAt (m : Memory) (c : CursorInfo) : Prop :=
  (rl32 m 0).toNat = c.type.ctorIdx ∧ (rl32 m 4).toNat = c.mode.ctorIdx ∧ rl32 m 8 = c.hash ∧
    decide (m 12 ≠ 0) = c.cached ∧ rl64 m 16 = c.pngSize ∧ rl16 m 24 = c.pngWidth.toNat ∧
    rl16 m 26 = c.pngHeight.toNat ∧ rl16 m 28 = c.pngHotX.toNat ∧ rl16 m 30 = c.pngHotY.toNat ∧
    At m 32 c.png

theorem length_toBytes (c : CursorInfo) : c.toBytes.length = sizeofCursorInfo + c.png.length := by
  unfold toBytes
  simp only [List.length_append]
  have h32 := length_le32
  have h64 := length_le64
  rw [h32, h32, h32, h64]
  change 4 + (4 + (4 + (4 + (8 + (2 + (2 + (2 + (2 + c.png.length)))))))) = _
  unfold sizeofCursorInfo
  omega

theorem ctorIdx_type_lt (t : WhistCursorType) : t.ctorIdx < 2 ^ 32 := by cases t <;> decide

theorem ctorIdx_mode_lt (t : WhistMouseMode) : t.ctorIdx < 2 ^ 32 := by cases t <;> decide

theorem isAt_of_at {m : Memory} {c : CursorInfo} (h : At m 0 c.toBytes) : c.IsAt m := by
  unfold toBytes at h
  obtain ⟨htype,h⟩ := at_append.mp h
  obtain ⟨hmode,h⟩ := at_append.mp h
  obtain ⟨hhash,h⟩ := at_append.mp h
  obtain ⟨hcached,h⟩ := at_append.mp h
  obtain ⟨hsize,h⟩ := at_append.mp h
  obtain ⟨hwidth,h⟩ := at_append.mp h
  obtain ⟨hheight,h⟩ := at_append.mp h
  obtain ⟨hhotX,h⟩ := at_append.mp h
  obtain ⟨hhotY,hpng⟩ := at_append.mp h
  have htype : rl32 m 0 = _ := rl32_of_le32 htype
  have hmode : rl32 m 4 = _ := rl32_of_le32 hmode
  have hflag : m 12 = if c.cached then 1 else 0 := hcached 0 (Nat.zero_lt_succ _)
  refine ⟨?_,?_,rl32_of_le32 hhash,?_,rl64_of_le64 hsize,rl16_of_at c.pngWidth.toNat_lt hwidth,
    rl16_of_at c.pngHeight.toNat_lt hheight,rl16_of_at c.pngHotX.toNat_lt hhotX,
    rl16_of_at c.pngHotY.toNat_lt hhotY,hpng⟩
  · rw [htype, UInt32.toNat_ofNat', Nat.mod_eq_of_lt (ctorIdx_type_lt _)]
  · rw [hmode, UInt32.toNat_ofNat', Nat.mod_eq_of_lt (ctorIdx_mode_lt _)]
  · rw [hflag]
    cases c.cached <;> rfl

theorem type_injective {t t' : WhistCursorType} (h : t.ctorIdx = t'.ctorIdx) : t = t' := by
  rw [← WhistCursorType.ofNat_ctorIdx t, h, WhistCursorType.ofNat_ctorIdx]

theorem getSize_of_isAt {m : Memory} {c : CursorInfo} (h : c.IsAt m) :
    (whistCursorInfoGetSize m).toNat = sizeofCursorInfo + c.png.length := by
  obtain ⟨htype,-,-,-,hsize,-⟩ := h
  have hsmall := c.png_small
  rw [c.png_length] at hsmall ⊢
  unfold whistCursorInfoGetSize sizeofCursorInfo at *
  rw [htype, hsize]
  by_cases hpng : c.type = .png
  · rw [if_pos hpng] at hsmall
    rw [if_pos (congrArg _ hpng), if_pos hpng, UInt64.toNat_add]
    exact Nat.mod_eq_of_lt hsmall
  · rw [if_neg (fun heq => hpng (type_injective heq)), if_neg hpng]
    rfl

end CursorInfo

/-- Of a frame the part in front of the data only says whether there is a cursor and how much data
follows it. -/
structure VideoFrame where
  hasCursor : Bool
  videodataLength : ℤ
  data : Memory

abbrev Packet := List UInt8

structure EncodedPackets where
  packets : List Packet
  length_pos : 1 ≤ packets.length
  length_le : packets.length ≤ 10
  ne_nil : ∀ p ∈ packets, p ≠ []

def encodedFrameSize (packets : List Packet) : ℕ := 4 + (packets.map fun p => 4 + p.length).sum

/-- The `memcpy` takes as many bytes as the cursor says. -/
def setFrameCursorInfo (frame : VideoFrame) (cursor : Option CursorInfo) : VideoFrame :=
  match cursor with
  | none => { frame with hasCursor := false }
  | some c => { frame with
      hasCursor := true
      data := writeAt frame.data 0 (c.toBytes.take (whistCursorInfoGetSize fun i => c.toBytes.getD i 0).toNat) }

def getFrameCursorInfo (frame : VideoFrame) : Option Memory := if frame.hasCursor then some frame.data else none

def getFrameVideodata (frame : VideoFrame) : ℕ :=
  if frame.hasCursor then (whistCursorInfoGetSize frame.data).toNat else 0

def getTotalFrameSize (frame : VideoFrame) : ℤ :=
  let size : UInt64 := 152
  let size := if frame.hasCursor then size + whistCursorInfoGetSize frame.data else size
  let size := size + UInt64.ofInt frame.videodataLength
  (size.toNat : ℤ).bmod (2 ^ 32)

def writeAvpacketsToBuffer (packets : List Packet) (m : Memory) (buffer : ℕ) : Option Memory :=
  if 10 < packets.length then none
  else
    let m := writeAt m buffer (le32 (UInt32.ofNat packets.length))
    let sizes := writeAll (fun p : Packet => le32 (UInt32.ofNat p.length)) packets (m,buffer + 4)
    some (writeAll (fun p : Packet => p) packets sizes).1

/-- `send_populated_frames`, which is not reached when the encoded packets are too large. -/
def sendPopulatedFrames (cursor : Option CursorInfo) (packets : List Packet) (buffer : Memory) : Option VideoFrame :=
  if maxVideoframeDataSize < encodedFrameSize packets then none
  else
    let frame := setFrameCursorInfo ⟨false,encodedFrameSize packets,buffer⟩ cursor
    match writeAvpacketsToBuffer packets frame.data (getFrameVideodata frame) with
    | none => none
    | some data => some { frame with data := data }

/-- The loop over the packets.  `LOG_FATAL` ends the client. -/
def extractPackets (m : Memory) (bufferSize : ℕ) : ℕ → ℕ → ℕ → Option (List Packet) × List ℕ
  | 0, _, _ => (some [],[])
  | n + 1, sizePos, dataPos =>
    let packetSize := (rl32 m sizePos).toNat
    if packetSize = 0 ∨ bufferSize < dataPos + packetSize then (none,List.range' sizePos 4)
    else
      let data := (List.range packetSize).map fun i => m (dataPos + i)
      let later := extractPackets m bufferSize n (sizePos + 4) (dataPos + packetSize)
      (later.1.map fun packets => data :: packets,
        List.range' sizePos 4 ++ (List.range' dataPos packetSize ++ later.2))

def extractAvpacketsFromBuffer (m : Memory) (bufferSize : ℕ) : Option (List Packet) × List ℕ :=
  if bufferSize < 4 ∨ maxVideoframeDataSize < bufferSize then (none,[])
  else
    let numPackets := (rl32 m 0).toNat
    if numPackets < 1 ∨ 10 < numPackets then (none,List.range' 0 4)
    else
      let loop := extractPackets m bufferSize numPackets 4 (4 + 4 * numPackets)
      (loop.1,List.range' 0 4 ++ loop.2)

def cursorBytes : Option CursorInfo → List UInt8
  | none => []
  | some c => c.toBytes

def payload (packets : List Packet) : List UInt8 :=
  le32 (UInt32.ofNat packets.length) ++
    ((packets.map fun p => le32 (UInt32.ofNat p.length)).flatten ++ packets.flatten)

theorem length_sizes (packets : List Packet) :
    (packets.map fun p => le32 (UInt32.ofNat p.length)).flatten.length = 4 * packets.length := by
  induction packets with
  | nil => rfl
  | cons p packets ih =>
    rw [List.map_cons, List.flatten_cons, List.length_append, length_le32, ih, List.length_cons]
    omega

theorem length_payload (packets : List Packet) : (payload packets).length = encodedFrameSize packets := by
  have hdata : ∀ ps : List Packet, (ps.map fun p => 4 + p.length).sum = 4 * ps.length + ps.flatten.length := by
    intro ps
    induction ps with
    | nil => rfl
    | cons p ps ih =>
      rw [List.map_cons, List.sum_cons, ih, List.flatten_cons, List.length_append, List.length_cons]
      omega
  rw [payload, List.length_append, List.length_append, length_le32, length_sizes, encodedFrameSize, hdata]

theorem writeAvpacketsToBuffer_eq {packets : List Packet} (h : packets.length ≤ 10) (m : Memory) (buffer : ℕ) :
    writeAvpacketsToBuffer packets m buffer = some (writeAt m buffer (payload packets)) := by
  have hcount := length_le32 (UInt32.ofNat packets.length)
  have hsizes : writeAll (fun p : Packet => le32 (UInt32.ofNat p.length)) packets
      (writeAt m buffer (le32 (UInt32.ofNat packets.length)),buffer + 4) =
        (writeAt m buffer (le32 (UInt32.ofNat packets.length) ++
          (packets.map fun p => le32 (UInt32.ofNat p.length)).flatten),
          buffer + (le32 (UInt32.ofNat packets.length) ++
            (packets.map fun p => le32 (UInt32.ofNat p.length)).flatten).length) := by
    rw [writeAll_eq, ← hcount, writeAt_append, List.length_append, Nat.add_assoc]
  unfold writeAvpacketsToBuffer
  dsimp only
  rw [if_neg (by omega), hsizes, writeAll_eq, writeAt_append, List.map_id', List.append_assoc]
  rfl

section Compose
variable {cursor : Option CursorInfo} {packets : List Packet}

theorem toBytes_at (c : CursorInfo) : At (fun i => c.toBytes.getD i 0) 0 c.toBytes := by
  intro i hi
  rw [Nat.zero_add]

theorem setFrameCursorInfo_eq (frame : VideoFrame) (cursor : Option CursorInfo) :
    setFrameCursorInfo frame cursor = { frame with
      hasCursor := cursor.isSome
      data := writeAt frame.data 0 (cursorBytes cursor) } := by
  cases cursor with
  | none => rw [cursorBytes, writeAt_nil, setFrameCursorInfo, Option.isSome_none]
  | some c =>
    have hsize := CursorInfo.getSize_of_isAt (CursorInfo.isAt_of_at (toBytes_at c))
    rw [setFrameCursorInfo, hsize, ← c.length_toBytes, List.take_length]
    rfl

theorem getFrameVideodata_eq {frame : VideoFrame} (hcursor : frame.hasCursor = cursor.isSome)
    (hdata : At frame.data 0 (cursorBytes cursor)) : getFrameVideodata frame = (cursorBytes cursor).length := by
  unfold getFrameVideodata
  rw [hcursor]
  cases cursor with
  | none => rfl
  | some c => exact (CursorInfo.getSize_of_isAt (CursorInfo.isAt_of_at hdata)).trans c.length_toBytes.symm

theorem sendPopulatedFrames_eq (hsmall : encodedFrameSize packets ≤ maxVideoframeDataSize)
    (hlength : packets.length ≤ 10) (buffer : Memory) :
    sendPopulatedFrames cursor packets buffer =
      some ⟨cursor.isSome,encodedFrameSize packets,writeAt buffer 0 (cursorBytes cursor ++ payload packets)⟩ := by
  have hoffset : getFrameVideodata (setFrameCursorInfo ⟨false,encodedFrameSize packets,buffer⟩ cursor) =
      0 + (cursorBytes cursor).length := by
    rw [Nat.zero_add, setFrameCursorInfo_eq]
    exact getFrameVideodata_eq rfl (at_writeAt buffer 0 (cursorBytes cursor))
  unfold sendPopulatedFrames
  dsimp only
  rw [if_neg (by omega), writeAvpacketsToBuffer_eq hlength, hoffset, setFrameCursorInfo_eq, writeAt_append]

end Compose

theorem extractPackets_payload {m : Memory} {bufferSize sizePos dataPos : ℕ} {packets : List Packet}
    (hne : ∀ p ∈ packets, p ≠ []) (hsmall : bufferSize < 2 ^ 32) (hend : dataPos + packets.flatten.length ≤ bufferSize)
    (hsizes : At m sizePos (packets.map fun p => le32 (UInt32.ofNat p.length)).flatten)
    (hdata : At m dataPos packets.flatten) :
    (extractPackets m bufferSize packets.length sizePos dataPos).1 = some packets := by
  induction packets generalizing sizePos dataPos with
  | nil => rfl
  | cons p packets ih =>
    rw [List.map_cons, List.flatten_cons] at hsizes
    rw [List.flatten_cons] at hdata
    rw [List.flatten_cons, List.length_append] at hend
    obtain ⟨hsize,hsizes⟩ := at_append.mp hsizes
    obtain ⟨hpacket,hdata⟩ := at_append.mp hdata
    have hread : (rl32 m sizePos).toNat = p.length := by
      rw [rl32_of_le32 hsize, UInt32.toNat_ofNat', Nat.mod_eq_of_lt (by omega)]
    have hpos : p.length ≠ 0 := fun hzero => hne p List.mem_cons_self (List.length_eq_zero_iff.mp hzero)
    have hrest := @ih (sizePos + 4) (dataPos + p.length) (fun q hq => hne q (List.mem_cons_of_mem _ hq))
      (by omega) hsizes hdata
    rw [List.length_cons, extractPackets]
    dsimp only
    rw [hread, if_neg (by omega)]
    dsimp only
    rw [hrest, map_range_of_at hpacket]
    rfl

theorem extractAvpacketsFromBuffer_payload {m : Memory} {packets : EncodedPackets}
    (hsmall : encodedFrameSize packets.packets ≤ maxVideoframeDataSize) (hm : At m 0 (payload packets.packets)) :
    (extractAvpacketsFromBuffer m (encodedFrameSize packets.packets)).1 = some packets.packets := by
  have hlength := length_payload packets.packets
  have hpos := packets.length_pos
  have hle := packets.length_le
  have hmax : maxVideoframeDataSize < 2 ^ 32 := by decide
  unfold payload at hm hlength
  rw [List.length_append, List.length_append, length_le32, length_sizes] at hlength
  obtain ⟨hcount,hm⟩ := at_append.mp hm
  obtain ⟨hsizes,hdata⟩ := at_append.mp hm
  rw [length_sizes, length_le32, Nat.zero_add] at hdata
  rw [length_le32, Nat.zero_add] at hsizes
  have hread : (rl32 m 0).toNat = packets.packets.length := by
    rw [rl32_of_le32 hcount, UInt32.toNat_ofNat', Nat.mod_eq_of_lt (by omega)]
  unfold extractAvpacketsFromBuffer
  dsimp only
  rw [hread, if_neg (by omega), if_neg (by omega)]
  exact extractPackets_payload packets.ne_nil (by omega) (by omega) hsizes hdata

theorem extractPackets_below {m : Memory} {bufferSize : ℕ} (n sizePos dataPos : ℕ)
    (htable : sizePos + 4 * n ≤ dataPos) (hfirst : 0 < n → sizePos + 4 ≤ bufferSize) :
    ∀ i ∈ (extractPackets m bufferSize n sizePos dataPos).2, i < bufferSize := by
  induction n generalizing sizePos dataPos with
  | zero =>
    intro i hi
    exact absurd hi List.not_mem_nil
  | succ n ih =>
    have hsize := hfirst (Nat.succ_pos n)
    have hword : ∀ i ∈ List.range' sizePos 4, i < bufferSize := by
      intro i hi
      have := List.mem_range'_1.mp hi
      omega
    rw [extractPackets]
    dsimp only
    by_cases hinvalid : (rl32 m sizePos).toNat = 0 ∨ bufferSize < dataPos + (rl32 m sizePos).toNat
    · rw [if_pos hinvalid]
      exact hword
    · rw [if_neg hinvalid]
      push Not at hinvalid
      intro i hi
      rcases List.mem_append.mp hi with hi | hi
      · exact hword i hi
      rcases List.mem_append.mp hi with hi | hi
      · have := List.mem_range'_1.mp hi
        omega
      · exact ih (sizePos + 4) _ (by omega) (by omega) i hi

/-- `get_total_frame_size` bytes are sent. -/
structure Received (frame received : VideoFrame) : Prop where
  hasCursor : received.hasCursor = frame.hasCursor
  videodataLength : received.videodataLength = frame.videodataLength
  data : ∀ i : ℕ, (sizeofVideoFrame + i : ℤ) < getTotalFrameSize frame → received.data i = frame.data i

/-- The data of the frame is a piece of memory that ends where `get_total_frame_size` says, inside of
the buffer for frames, and the client reads the cursor and the packets from what is sent. -/
def RoundTrips (cursor : Option CursorInfo) (packets : EncodedPackets) : Prop :=
  ∃ bytes : List UInt8, ∀ buffer, ∀ frame ∈ sendPopulatedFrames cursor packets.packets buffer,
    frame.data = writeAt buffer 0 bytes ∧ sizeofVideoFrame + bytes.length ≤ largestVideoframeSize ∧
      getTotalFrameSize frame = sizeofVideoFrame + bytes.length ∧ ∀ received, Received frame received →
        Option.Rel (fun m c => CursorInfo.IsAt m c) (getFrameCursorInfo received) cursor ∧
          (extractAvpacketsFromBuffer (fun i => received.data (getFrameVideodata received + i))
            received.videodataLength.toNat).1 = some packets.packets

def ReadsBelow (m : Memory) (bufferSize : ℕ) : Prop :=
  ∀ i ∈ (extractAvpacketsFromBuffer m bufferSize).2, i < bufferSize

def cursorSize : Option CursorInfo → ℕ
  | none => 0
  | some c => sizeofCursorInfo + c.png.length

theorem length_cursorBytes (cursor : Option CursorInfo) : (cursorBytes cursor).length = cursorSize cursor := by
  cases cursor with
  | none => rfl
  | some c => exact c.length_toBytes

theorem getTotalFrameSize_eq {cursor : Option CursorInfo} {frame : VideoFrame} {n : ℕ}
    (hcursor : frame.hasCursor = cursor.isSome) (hdata : At frame.data 0 (cursorBytes cursor))
    (hn : frame.videodataLength = n) (hsmall : sizeofVideoFrame + cursorSize cursor + n ≤ largestVideoframeSize) :
    getTotalFrameSize frame = (sizeofVideoFrame + cursorSize cursor + n : ℕ) := by
  have hoffset := getFrameVideodata_eq hcursor hdata
  rw [length_cursorBytes] at hoffset
  unfold getFrameVideodata at hoffset
  unfold getTotalFrameSize
  rw [hn]
  unfold sizeofVideoFrame largestVideoframeSize at *
  have hlength : (UInt64.ofInt (n : ℤ)).toNat = n := by
    change (UInt64.ofNat ((n : ℤ) % 2 ^ 64).toNat).toNat = n
    rw [UInt64.toNat_ofNat']
    omega
  have hstatic : (152 : UInt64).toNat = 152 := rfl
  have hnat : ((if frame.hasCursor then 152 + whistCursorInfoGetSize frame.data else 152) +
      UInt64.ofInt (n : ℤ)).toNat = 152 + cursorSize cursor + n := by
    cases hc : frame.hasCursor with
    | false =>
      rw [hc, if_neg Bool.false_ne_true] at hoffset
      rw [if_neg Bool.false_ne_true, UInt64.toNat_add, hlength, hstatic]
      omega
    | true =>
      rw [hc, if_pos rfl] at hoffset
      rw [if_pos rfl, UInt64.toNat_add, UInt64.toNat_add, hlength, hstatic, hoffset]
      omega
  dsimp only
  rw [hnat]
  exact Int.bmod_eq_of_le (by omega) (by omega)

theorem roundTrips_iff (cursor : Option CursorInfo) (packets : EncodedPackets) :
    RoundTrips cursor packets ↔ maxVideoframeDataSize < encodedFrameSize packets.packets ∨
      sizeofVideoFrame + cursorSize cursor + encodedFrameSize packets.packets ≤ largestVideoframeSize := by
  by_cases hlarge : maxVideoframeDataSize < encodedFrameSize packets.packets
  · refine iff_of_true ⟨[],?_⟩ (Or.inl hlarge)
    intro buffer frame hframe
    rw [sendPopulatedFrames, if_pos hlarge] at hframe
    cases hframe
  have hsent := @sendPopulatedFrames_eq cursor packets.packets (by omega) packets.length_le
  have hbytes : (cursorBytes cursor ++ payload packets.packets).length =
      cursorSize cursor + encodedFrameSize packets.packets := by
    rw [List.length_append, length_cursorBytes, length_payload]
  constructor
  · rintro ⟨bytes,h⟩
    have hdata : ∀ buffer : Memory, writeAt buffer 0 (cursorBytes cursor ++ payload packets.packets) =
        writeAt buffer 0 bytes := fun buffer => (h buffer _ (hsent buffer)).1
    have hsame := writeAt_injective (show (0 : UInt8) ≠ 1 by decide) hdata
    obtain ⟨-,hfits,-⟩ := h (fun _ => 0) _ (hsent _)
    rw [← hsame, hbytes, ← Nat.add_assoc] at hfits
    exact Or.inr hfits
  · intro hcases
    have hfits := hcases.resolve_left hlarge
    refine ⟨cursorBytes cursor ++ payload packets.packets,?_⟩
    intro buffer frame hframe
    rw [hsent buffer] at hframe
    cases hframe
    obtain ⟨hcursorAt,-⟩ := at_append.mp (at_writeAt buffer 0 (cursorBytes cursor ++ payload packets.packets))
    have htotal := @getTotalFrameSize_eq cursor
      ⟨cursor.isSome,encodedFrameSize packets.packets,writeAt buffer 0 (cursorBytes cursor ++ payload packets.packets)⟩
      _ rfl hcursorAt rfl hfits
    refine ⟨rfl,by omega,by rw [htotal, hbytes]; push_cast; omega,?_⟩
    intro received hreceived
    have hat : At received.data 0 (cursorBytes cursor ++ payload packets.packets) := by
      intro i hi
      have hsentByte := hreceived.data (0 + i) (by rw [htotal]; push_cast; omega)
      exact hsentByte.trans (at_writeAt buffer 0 _ i hi)
    obtain ⟨hcursor,hpayload⟩ := at_append.mp hat
    have hoffset := getFrameVideodata_eq hreceived.hasCursor hcursor
    constructor
    · unfold getFrameCursorInfo
      rw [hreceived.hasCursor]
      cases cursor with
      | none => exact Option.Rel.none
      | some c => exact Option.Rel.some (CursorInfo.isAt_of_at hcursor)
    · rw [hreceived.videodataLength, hoffset]
      apply extractAvpacketsFromBuffer_payload (by omega)
      intro i hi
      rw [← hpayload i hi, Nat.zero_add, Nat.zero_add]

theorem readsBelow_iff (m : Memory) (bufferSize : ℕ) :
    ReadsBelow m bufferSize ↔ bufferSize < 4 ∨ maxVideoframeDataSize < bufferSize ∨
      (rl32 m 0).toNat < 1 ∨ 10 < (rl32 m 0).toNat ∨ 8 ≤ bufferSize := by
  unfold ReadsBelow extractAvpacketsFromBuffer
  dsimp only
  by_cases hsize : bufferSize < 4 ∨ maxVideoframeDataSize < bufferSize
  · rw [if_pos hsize]
    refine iff_of_true (fun i hi => absurd hi List.not_mem_nil) ?_
    rcases hsize with hsize | hsize
    · exact Or.inl hsize
    · exact Or.inr (Or.inl hsize)
  rw [if_neg hsize]
  push Not at hsize
  have hcount : ∀ i ∈ List.range' 0 4, i < bufferSize := by
    intro i hi
    have := List.mem_range'_1.mp hi
    omega
  by_cases hnum : (rl32 m 0).toNat < 1 ∨ 10 < (rl32 m 0).toNat
  · rw [if_pos hnum]
    refine iff_of_true hcount (Or.inr (Or.inr ?_))
    rcases hnum with hnum | hnum
    · exact Or.inl hnum
    · exact Or.inr (Or.inl hnum)
  rw [if_neg hnum]
  push Not at hnum
  constructor
  · intro h
    -- the size of the first packet lies at the offsets 4 to 7
    have hseven := h 7
    obtain ⟨n,hn⟩ := Nat.exists_eq_add_of_le' hnum.1
    rw [hn, extractPackets] at hseven
    have hmem : 7 ∈ List.range' 4 4 := by decide
    have := hseven (List.mem_append_right _ (by
      dsimp only
      split_ifs
      · exact hmem
      · exact List.mem_append_left _ hmem))
    omega
  · intro h i hi
    rcases List.mem_append.mp hi with hi | hi
    · exact hcount i hi
    · exact extractPackets_below _ 4 _ le_rfl (fun _ => by omega) i hi

/-- The server drops a frame whose packets are too large without its cursor, but the cursor may bring it
beyond the buffer; and the client reads the first size before it knows that the buffer has one. -/
theorem framePayload_iff (cursor : Option CursorInfo) (packets : EncodedPackets) (m : Memory) (bufferSize : ℕ) :
    (RoundTrips cursor packets ↔ maxVideoframeDataSize < encodedFrameSize packets.packets ∨
      sizeofVideoFrame + cursorSize cursor + encodedFrameSize packets.packets ≤ largestVideoframeSize) ∧
    (ReadsBelow m bufferSize ↔ bufferSize < 4 ∨ maxVideoframeDataSize < bufferSize ∨
      (rl32 m 0).toNat < 1 ∨ 10 < (rl32 m 0).toNat ∨ 8 ≤ bufferSize) :=
  ⟨roundTrips_iff cursor packets,readsBelow_iff m bufferSize⟩

theorem framePayload_fails : ¬((∀ cursor packets, RoundTrips cursor packets) ∧ ∀ m bufferSize, ReadsBelow m bufferSize) := by
  rintro ⟨-,hreads⟩
  have hbelow := (readsBelow_iff (fun i => if i = 0 then 1 else 0) 4).mp (hreads _ 4)
  revert hbelow
  decide

end Whist.Frame
