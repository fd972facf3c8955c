import Whist.Foundation.Run
import Whist.Foundation.RoundRobin
import Whist.Foundation.Scatter

/-! # Reed-Solomon wrapper: groups, encoding and decoding

Buffers are dealt to groups in turn and each group is coded on its own.  Arrays are functions from the index.  The
arithmetic of CM256 over GF(256) is a parameter; its argument checks are not.
-/
namespace Whist.Fec

abbrev Block := List UInt8

/-- A failing `FATAL_ASSERT`, or an access the C program must not make. -/
inductive FecFatal
  | maxBufferSize
  | numRealBuffers
  | numGroups
  | groupSize
  | codeFailed
  | subgroupCount
  | indexRange
  | pendingGroups
  | nullBuffer
  | negativeSize
  | segmentCount
  | acceptedBuffers
  | bufferSize
  | registeredTwice
  | readPastBuffer
  | endlessLoop
deriving DecidableEq

def rsFieldSize : ℕ := 256
def rsWrapperMaxGroupSize : ℕ := 256
def rsWrapperMaxGroupOverhead : ℚ := 20
def maxPacketSegmentSize : ℕ := 1300

def intDivRoundup (a b : ℕ) : ℕ := (a + b - 1) / b

/-- `cm256_encode_block` for at least two originals, and what `cm256_decode` does
once its arguments are accepted and a block is erased. -/
structure Cm256 where
  encodeBlock : (originalCount recoveryCount blockBytes : ℕ) → (originals : List Block) →
    (recoveryBlockIndex : ℕ) → Block
  decode : (originalCount recoveryCount blockBytes : ℕ) → List (ℕ × Block) → List (ℕ × Block)
  encode_length : ∀ k m bytes originals i, (encodeBlock k m bytes originals i).length = bytes

def cm256Decode (cm : Cm256) (originalCount recoveryCount blockBytes : ℕ)
    (blocks : List (ℕ × Block)) : ℤ × List (ℕ × Block) :=
  if originalCount = 0 ∨ recoveryCount = 0 ∨ blockBytes = 0 then (-1,blocks)
  else if originalCount + recoveryCount > 256 then (-2,blocks)
  else
    -- `Initialize`: a repeated original row fails, no recovery row means nothing is erased
    let rows := (blocks.map Prod.fst).filter (fun row => row < originalCount)
    if ¬rows.Nodup then (-5,blocks)
    else if rows.length = blocks.length then (0,blocks)
    else (0,cm.decode originalCount recoveryCount blockBytes blocks)

def rsEncodeOrDup (cm : Cm256) (k n : ℕ) (src : ℕ → Block) (sz : ℕ) : Except FecFatal (ℕ → Block) :=
  if ¬(k < rsFieldSize ∧ k ≤ n) then .error .groupSize
  else if k = 1 then .ok (fun _ => src 0)
  else if ¬n ≤ rsFieldSize then .error .groupSize
  else
    let originals := (List.range k).map src
    .ok (fun i => cm.encodeBlock k (n - k) sz originals (k + i))

/-- `pkt` after decoding; for `k = 1` only `index[0]` is written. -/
def rsDecodeOrDedup (cm : Cm256) (k n : ℕ) (pkt : ℕ → Option Block) (index : ℕ → ℕ) (sz : ℕ) :
    Except FecFatal (ℕ → Option Block) :=
  if ¬(k < rsFieldSize ∧ k ≤ n) then .error .groupSize
  else if k = 1 then .ok pkt
  else if ¬n ≤ rsFieldSize then .error .groupSize
  else
    match (List.range k).mapM (fun i => (pkt i).map (fun block => (index i,block))) with
    | none => .error .nullBuffer
    | some blocks =>
      let r := cm256Decode cm k (n - k) sz blocks
      if r.1 = 0 then .ok (Scatter.scatter (r.2.map (fun block => (block.1,some block.2))) pkt)
      else .error .codeFailed

structure GroupInfo where
  numRealBuffers : ℕ
  numFecBuffers : ℕ
  numBuffersRegistered : ℕ := 0

structure SubIndexInfo where
  groupId : ℕ
  subIndex : ℕ

structure RSWrapper where
  numGroups : ℕ
  numRealBuffers : ℕ
  numFecBuffers : ℕ
  numPendingGroups : ℤ
  groupInfos : ℕ → GroupInfo

/-- Operations per byte of a CM256 group.  The quotients are far enough from the
limit for the rounding of `double` not to matter. -/
def overheadOfGroup (numRealBuffers numFecBuffers : ℕ) : ℚ :=
  let k : ℚ := numRealBuffers
  let m : ℚ := numFecBuffers
  let l : ℚ := maxPacketSegmentSize
  (k * k + k * m * l) / ((k + m) * l)

def intPartitionHelper (total groupId groupNum : ℕ) : ℕ :=
  if groupId ≥ total then 0 else intDivRoundup (total - groupId) groupNum

def chooseNumGroups (numRealBuffers numFecBuffers : ℕ) : ℕ :=
  ((List.range' 1 (numRealBuffers - 1)).find? (fun i =>
    let maxNumReal := intDivRoundup numRealBuffers i
    let maxNumFec := intDivRoundup numFecBuffers i
    maxNumReal + maxNumFec ≤ rsWrapperMaxGroupSize ∧
      overheadOfGroup maxNumReal maxNumFec ≤ rsWrapperMaxGroupOverhead)).getD numRealBuffers

/-- `rs_wrapper_max_group_size` and `rs_wrapper_max_group_overhead`, which tests may set. -/
structure Limits where
  maxGroupSize : ℕ
  maxGroupOverhead : ℚ

def Limits.initial : Limits := ⟨rsWrapperMaxGroupSize,rsWrapperMaxGroupOverhead⟩

def chooseNumGroupsWithin (limits : Limits) (numRealBuffers numFecBuffers : ℕ) : ℕ :=
  ((List.range' 1 (numRealBuffers - 1)).find? (fun i =>
    let maxNumReal := intDivRoundup numRealBuffers i
    let maxNumFec := intDivRoundup numFecBuffers i
    maxNumReal + maxNumFec ≤ limits.maxGroupSize ∧
      overheadOfGroup maxNumReal maxNumFec ≤ limits.maxGroupOverhead)).getD numRealBuffers

/-- `rs_wrapper_create_inner` with `fill_partition_plan` and the counters reset. -/
def rsWrapperCreateInner (numRealBuffers numFecBuffers numGroups : ℕ) : Except FecFatal RSWrapper :=
  if ¬(0 < numRealBuffers) then .error .numRealBuffers
  else if ¬(numGroups ≤ numRealBuffers) then .error .numGroups
  else .ok {
    numGroups := numGroups
    numRealBuffers := numRealBuffers
    numFecBuffers := numFecBuffers
    numPendingGroups := numGroups
    groupInfos := fun i => {
      numRealBuffers := intPartitionHelper numRealBuffers i numGroups
      numFecBuffers := intPartitionHelper numFecBuffers i numGroups } }

def rsWrapperCreate (numRealBuffers numFecBuffers : ℕ) : Except FecFatal RSWrapper :=
  if ¬(0 < numRealBuffers) then .error .numRealBuffers
  else rsWrapperCreateInner numRealBuffers numFecBuffers
    (chooseNumGroups numRealBuffers numFecBuffers)

def rsWrapperCreateWithin (limits : Limits) (numRealBuffers numFecBuffers : ℕ) :
    Except FecFatal RSWrapper :=
  if ¬(0 < numRealBuffers) then .error .numRealBuffers
  else rsWrapperCreateInner numRealBuffers numFecBuffers
    (chooseNumGroupsWithin limits numRealBuffers numFecBuffers)

theorem rsWrapperCreateWithin_initial : rsWrapperCreateWithin Limits.initial = rsWrapperCreate := rfl

def indexFullToSub (rs : RSWrapper) (index : ℕ) : Except FecFatal SubIndexInfo :=
  if ¬(index < rs.numRealBuffers + rs.numFecBuffers) then .error .indexRange
  else if index < rs.numRealBuffers then .ok ⟨index % rs.numGroups,index / rs.numGroups⟩
  else
    let groupId := (index - rs.numRealBuffers) % rs.numGroups
    .ok ⟨groupId,(rs.groupInfos groupId).numRealBuffers +
      (index - rs.numRealBuffers) / rs.numGroups⟩

def indexSubToFull (rs : RSWrapper) (groupId subIndex : ℕ) : ℕ :=
  if subIndex < (rs.groupInfos groupId).numRealBuffers then groupId + subIndex * rs.numGroups
  else rs.numRealBuffers + groupId +
    (subIndex - (rs.groupInfos groupId).numRealBuffers) * rs.numGroups

def encodeGroup (cm : Cm256) (rs : RSWrapper) (src : ℕ → Block) (sz : ℕ) (dst : ℕ → Block) (i : ℕ) :
    Except FecFatal (ℕ → Block) :=
  let k := (rs.groupInfos i).numRealBuffers
  let m := (rs.groupInfos i).numFecBuffers
  match rsEncodeOrDup cm k (k + m) (fun j => src (indexSubToFull rs i j)) sz with
  | .error e => .error e
  | .ok dstSub => .ok (Scatter.scatter ((List.range m).map (fun j =>
      (indexSubToFull rs i (k + j) - rs.numRealBuffers,dstSub j))) dst)

/-- The redundant buffers; `dst` is the memory allocated for them. -/
def rsWrapperEncode (cm : Cm256) (rs : RSWrapper) (src dst : ℕ → Block) (sz : ℕ) :
    Except FecFatal (ℕ → Block) :=
  if ¬(0 < rs.numGroups) then .error .numGroups
  else if rs.numGroups = 1 then
    let k := (rs.groupInfos 0).numRealBuffers
    rsEncodeOrDup cm k (k + (rs.groupInfos 0).numFecBuffers) src sz
  else Run.run (encodeGroup cm rs src sz) dst (List.range rs.numGroups)

/-- `subgroup_offsets` with `pkt` and `unused_cnt` during the first pass. -/
structure Sorting where
  offsets : ℕ → List ℕ
  pkt : ℕ → Option Block
  unusedCnt : ℕ := 0

def sortPacket (rs : RSWrapper) (pktCopy : ℕ → Option Block) (s : Sorting) (e : ℕ × ℕ) :
    Except FecFatal Sorting :=
  match indexFullToSub rs e.1 with
  | .error err => .error err
  | .ok info =>
    if (s.offsets info.groupId).length = (rs.groupInfos info.groupId).numRealBuffers then
      .ok { s with
        pkt := Function.update s.pkt (rs.numRealBuffers + s.unusedCnt) (pktCopy e.2)
        unusedCnt := s.unusedCnt + 1 }
    else .ok { s with
      offsets := Function.update s.offsets info.groupId (s.offsets info.groupId ++ [e.2]) }

def appendSubIndex (rs : RSWrapper) (index : List ℕ) (i : ℕ) (acc : List ℕ) (offset : ℕ) :
    Except FecFatal (List ℕ) :=
  match indexFullToSub rs (index.getD offset 0) with
  | .error e => .error e
  | .ok info => if info.groupId = i then .ok (acc ++ [info.subIndex]) else .error .subgroupCount

def subIndices (rs : RSWrapper) (index : List ℕ) (i : ℕ) (offsets : List ℕ) :
    Except FecFatal (List ℕ) :=
  Run.run (appendSubIndex rs index i) [] offsets

def decodeGroup (cm : Cm256) (rs : RSWrapper) (pktCopy : ℕ → Option Block) (index : List ℕ)
    (offsets : ℕ → List ℕ) (sz : ℕ) (pkt : ℕ → Option Block) (i : ℕ) :
    Except FecFatal (ℕ → Option Block) :=
  let k := (rs.groupInfos i).numRealBuffers
  let m := (rs.groupInfos i).numFecBuffers
  if ¬((offsets i).length = k) then .error .subgroupCount
  else
    match subIndices rs index i (offsets i) with
    | .error e => .error e
    | .ok indexSub =>
      match rsDecodeOrDedup cm k (k + m) (fun j => pktCopy ((offsets i).getD j 0))
          (fun j => indexSub.getD j 0) sz with
      | .error e => .error e
      | .ok pktSub => .ok (Scatter.scatter ((List.range k).map (fun j =>
          (indexSubToFull rs i j,pktSub j))) pkt)

def rsWrapperDecode (cm : Cm256) (rs : RSWrapper) (pkt : ℕ → Option Block) (index : List ℕ) (sz : ℕ) :
    Except FecFatal (ℕ → Option Block) :=
  if ¬(0 < rs.numGroups) then .error .numGroups
  else if rs.numGroups = 1 then
    let k := (rs.groupInfos 0).numRealBuffers
    rsDecodeOrDedup cm k (k + (rs.groupInfos 0).numFecBuffers) pkt (fun i => index.getD i 0) sz
  else
    match Run.run (sortPacket rs pkt) { offsets := fun _ => [], pkt := pkt } index.zipIdx with
    | .error e => .error e
    | .ok s =>
      Run.run (decodeGroup cm rs pkt index s.offsets sz) s.pkt (List.range rs.numGroups)

def rsWrapperDecodeHelperRegisterIndex (rs : RSWrapper) (index : ℕ) : Except FecFatal RSWrapper :=
  match indexFullToSub rs index with
  | .error e => .error e
  | .ok info =>
    let group := rs.groupInfos info.groupId
    let registered := group.numBuffersRegistered + 1
    let rs := { rs with
      groupInfos := Function.update rs.groupInfos info.groupId
        { group with numBuffersRegistered := registered } }
    if registered = group.numRealBuffers then
      if rs.numPendingGroups - 1 ≥ 0 then
        .ok { rs with numPendingGroups := rs.numPendingGroups - 1 }
      else .error .pendingGroups
    else .ok rs

def rsWrapperDecodeHelperCanDecode (rs : RSWrapper) : Except FecFatal Bool :=
  if ¬(rs.numPendingGroups ≥ 0) then .error .pendingGroups else .ok (rs.numPendingGroups = 0)

end Whist.Fec
