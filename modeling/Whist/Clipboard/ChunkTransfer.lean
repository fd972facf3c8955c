import Whist.Clipboard.LastPush

/-! # Transfer of a clipboard in chunks -/
namespace Whist.Clipboard

open LatestSlot

def chunkSize : ℕ := 1000000

/-- The pulling side.  There is a buffer while the thread of an active pull waits with the content of
the OS clipboard. -/
structure ClipboardPull where
  clipboardBuffer : Option ClipboardData := none
  pulledBytes : ℕ := 0
  isStartDone : Bool := false

def startPull (_ : ClipboardPull) : ClipboardPull := {}

def pullClipboardThread (p : ClipboardPull) (content : ClipboardData) : ClipboardPull :=
  { p with clipboardBuffer := some content }

def finishPull (p : ClipboardPull) : ClipboardPull := { p with clipboardBuffer := none, pulledBytes := 0 }

def pullClipboardChunk (p : ClipboardPull) (osClipboardUpdated : Bool) : Option ClipboardData × ClipboardPull :=
  if osClipboardUpdated then (none,startPull p)
  else
    match p.clipboardBuffer with
    | none => (none,p)
    | some buffer =>
      let size := min chunkSize (buffer.data.length - p.pulledBytes)
      let data := (buffer.data.drop p.pulledBytes).take size
      if !p.isStartDone then
        (some ⟨buffer.type,.start,data⟩,{ p with isStartDone := true, pulledBytes := p.pulledBytes + size })
      else if p.pulledBytes = buffer.data.length then
        let p := finishPull p
        (some ⟨buffer.type,.final,data⟩,{ p with pulledBytes := p.pulledBytes + size })
      else (some ⟨buffer.type,.middle,data⟩,{ p with pulledBytes := p.pulledBytes + size })

def pulls : ℕ → ClipboardPull → List ClipboardData
  | 0, _ => []
  | n + 1, p =>
    match pullClipboardChunk p false with
    | (none,_) => []
    | (some chunk,p) => chunk :: pulls n p

def pulledChunks (p : ClipboardPull) (content : ClipboardData) (calls : ℕ) : List ClipboardData :=
  pulls calls (pullClipboardThread (pullClipboardChunk p true).2 content)

def EnoughCalls (content : ClipboardData) (calls : ℕ) : Prop := content.data.length / chunkSize + 2 ≤ calls

instance (content : ClipboardData) (calls : ℕ) : Decidable (EnoughCalls content calls) :=
  inferInstanceAs (Decidable (_ ≤ _))

def startChunk (type : ClipboardType) (data : Fec.Block) : ClipboardData := ⟨type,.start,data⟩
def middleChunk (type : ClipboardType) (data : Fec.Block) : ClipboardData := ⟨type,.middle,data⟩
def finalChunk (type : ClipboardType) : ClipboardData := ⟨type,.final,[]⟩

def ChunksOf (content : ClipboardData) (chunks : List ClipboardData) : Prop :=
  ∃ (first : Fec.Block) (mids : List Fec.Block),
    chunks = startChunk content.type first :: (mids.map (middleChunk content.type) ++ [finalChunk content.type]) ∧
      first ++ mids.flatten = content.data

theorem pulls_none (n : ℕ) {p : ClipboardPull} (h : p.clipboardBuffer = none) : pulls n p = [] := by
  cases n with
  | zero => rfl
  | succ n =>
    unfold pulls pullClipboardChunk
    simp only [h, Bool.false_eq_true, if_false]

theorem pulls_final (content : ClipboardData) (n : ℕ) :
    pulls (n + 1) ⟨some content,content.data.length,true⟩ = [finalChunk content.type] := by
  have hchunk : pullClipboardChunk ⟨some content,content.data.length,true⟩ false =
      (some (finalChunk content.type),⟨none,0,true⟩) := by
    unfold pullClipboardChunk finishPull finalChunk
    simp
  unfold pulls
  rw [hchunk]
  dsimp only
  rw [pulls_none n rfl]

theorem pulls_middle (content : ClipboardData) (n b : ℕ) (hb : b < content.data.length) :
    pulls (n + 1) ⟨some content,b,true⟩ =
      middleChunk content.type ((content.data.drop b).take (min chunkSize (content.data.length - b))) ::
        pulls n ⟨some content,b + min chunkSize (content.data.length - b),true⟩ := by
  have hchunk : pullClipboardChunk ⟨some content,b,true⟩ false =
      (some (middleChunk content.type ((content.data.drop b).take (min chunkSize (content.data.length - b)))),
        ⟨some content,b + min chunkSize (content.data.length - b),true⟩) := by
    unfold pullClipboardChunk middleChunk
    simp [hb.ne]
  rw [pulls, hchunk]

theorem pulls_started (content : ClipboardData) (n b : ℕ) (hb : b ≤ content.data.length)
    (hn : content.data.length ≤ b + n * chunkSize) :
    ∃ mids : List Fec.Block, pulls (n + 1) ⟨some content,b,true⟩ =
      mids.map (middleChunk content.type) ++ [finalChunk content.type] ∧
      mids.flatten = content.data.drop b := by
  rcases hb.lt_or_eq with hlt | rfl
  · cases n with
    | zero => omega
    | succ n =>
      have hpos : 0 < chunkSize := by norm_num [chunkSize]
      have hnext : b + min chunkSize (content.data.length - b) ≤ content.data.length := by omega
      have hleft : content.data.length ≤ b + min chunkSize (content.data.length - b) + n * chunkSize := by
        rw [Nat.succ_mul] at hn
        omega
      obtain ⟨mids,hmids,hdata⟩ := pulls_started content n _ hnext hleft
      refine ⟨(content.data.drop b).take (min chunkSize (content.data.length - b)) :: mids,?_,?_⟩
      · rw [pulls_middle content (n + 1) b hlt, hmids]
        rfl
      · rw [List.flatten_cons, hdata, ← List.drop_drop, List.take_append_drop]
  · refine ⟨[],pulls_final content n,?_⟩
    rw [List.drop_length]
    rfl

theorem chunksOf_pulledChunks (p : ClipboardPull) (content : ClipboardData) {calls : ℕ}
    (h : EnoughCalls content calls) : ChunksOf content (pulledChunks p content calls) := by
  unfold EnoughCalls at h
  obtain ⟨n,rfl⟩ := Nat.exists_eq_add_of_le' (le_add_self.trans h)
  have hpos : 0 < chunkSize := by norm_num [chunkSize]
  have hsize : content.data.length < (n + 1) * chunkSize :=
    (Nat.div_lt_iff_lt_mul hpos).mp (by omega)
  rw [Nat.succ_mul] at hsize
  obtain ⟨mids,hmids,hdata⟩ := pulls_started content n (min chunkSize content.data.length) (min_le_right _ _)
    (by omega)
  have hchunk : pullClipboardChunk (pullClipboardThread (pullClipboardChunk p true).2 content) false =
      (some (startChunk content.type (content.data.take (min chunkSize content.data.length))),
        ⟨some content,min chunkSize content.data.length,true⟩) := by
    unfold pullClipboardThread pullClipboardChunk startPull startChunk
    simp
  refine ⟨content.data.take (min chunkSize content.data.length),mids,?_,?_⟩
  · unfold pulledChunks
    rw [pulls, hchunk]
    dsimp only
    rw [hmids]
  · rw [hdata, List.take_append_drop]

theorem pushes_notFinal (chunks : List ClipboardData) (hchunks : ∀ chunk ∈ chunks, chunk.chunkType ≠ .final)
    (p : Pushes) : ((chunks.map (·,true)).foldl Pushes.next p).completed = p.completed := by
  induction chunks generalizing p with
  | nil => rfl
  | cons chunk chunks ih =>
    have hsame : (p.next (chunk,true)).completed = p.completed := by
      have hchunk := hchunks chunk List.mem_cons_self
      rcases chunk with ⟨type,chunkType,data⟩
      cases chunkType with
      | start => rfl
      | middle => rfl
      | final => exact absurd rfl hchunk
    rw [List.map_cons, List.foldl_cons, ih (fun c hc => hchunks c (List.mem_cons_of_mem _ hc)), hsame]

theorem pushes_middle (type : ClipboardType) (mids : List Fec.Block) (c : ClipboardData)
    (completed : List ClipboardData) :
    ((mids.map (middleChunk type)).map (·,true)).foldl Pushes.next ⟨some c,completed⟩ =
      ⟨some { c with data := c.data ++ mids.flatten },completed⟩ := by
  induction mids generalizing c with
  | nil =>
    rw [List.flatten_nil, List.append_nil]
    rfl
  | cons mid mids ih =>
    have hnext : Pushes.next ⟨some c,completed⟩ (middleChunk type mid,true) =
        ⟨some { c with data := c.data ++ mid },completed⟩ := rfl
    rw [List.map_cons, List.map_cons, List.foldl_cons, hnext, ih, List.flatten_cons, List.append_assoc]

theorem pushes_chunksOf {content : ClipboardData} {chunks : List ClipboardData} (h : ChunksOf content chunks)
    (p : Pushes) :
    (chunks.map (·,true)).foldl Pushes.next p =
      ⟨none,p.completed ++ [{ content with chunkType := .start }]⟩ := by
  obtain ⟨first,mids,rfl,hdata⟩ := h
  have hstart : p.next (startChunk content.type first,true) =
      ⟨some (startChunk content.type first),p.completed⟩ := rfl
  rw [List.map_cons, List.foldl_cons, hstart, List.map_append, List.foldl_append, pushes_middle]
  have hbytes : first ++ mids.flatten ++ [] = content.data := by rw [List.append_nil, hdata]
  show (⟨none,p.completed ++ [⟨content.type,.start,first ++ mids.flatten ++ []⟩]⟩ : Pushes) = _
  rw [hbytes]

theorem ChunksOf.notFinal {content : ClipboardData} {chunks aborted : List ClipboardData}
    (h : ChunksOf content chunks) (hpre : aborted <+: chunks) (hstrict : aborted ≠ chunks) :
    ∀ chunk ∈ aborted, chunk.chunkType ≠ .final := by
  obtain ⟨first,mids,rfl,-⟩ := h
  rw [← List.cons_append] at hpre hstrict
  have hshort := (List.prefix_concat_iff.mp hpre).resolve_left hstrict
  intro chunk hchunk
  rcases List.mem_cons.mp (hshort.subset hchunk) with rfl | hmid
  · exact ClipboardChunkType.noConfusion
  · obtain ⟨mid,-,rfl⟩ := List.mem_map.mp hmid
    exact ClipboardChunkType.noConfusion

theorem posts_run (os : Option ClipboardData) (schedule : List Action) :
    posts (run (initClipboardSynchronizer os) schedule).history =
      completedPushes (run (initClipboardSynchronizer os) schedule).calls := by
  obtain ⟨a,q,u,h⟩ := Reached.run os schedule
  unfold completedPushes
  rw [h.pushes]

theorem osClipboard_run (os : Option ClipboardData) (schedule : List Action)
    (hquiet : (run (initClipboardSynchronizer os) schedule).Quiescent) :
    (run (initClipboardSynchronizer os) schedule).osClipboard =
      (posts (run (initClipboardSynchronizer os) schedule).history).getLast?.or os := by
  obtain ⟨a,q,u,h⟩ := Reached.run os schedule
  obtain ⟨rfl,rfl⟩ := h.quiescent hquiet
  rw [h.osClipboard, h.slot.idle rfl rfl]

/-- After any prefix of a transfer that was cut off, the chunks of a clipboard push exactly that
clipboard, in any interleaving with the push threads.  The pulling sides are in any state. -/
theorem clipboard_roundTrip (os : Option ClipboardData) (earlier : List Action) (p₁ p₂ : ClipboardPull)
    (dropped content : ClipboardData) (calls₁ calls₂ : ℕ) (aborted : List ClipboardData)
    (h₁ : EnoughCalls dropped calls₁) (h₂ : EnoughCalls content calls₂)
    (hpre : aborted <+: pulledChunks p₁ dropped calls₁) (hstrict : aborted ≠ pulledChunks p₁ dropped calls₁)
    (schedule : List Action)
    (hpushed : (run (initClipboardSynchronizer os) (earlier ++ schedule)).calls =
      (run (initClipboardSynchronizer os) earlier).calls ++
        (aborted ++ pulledChunks p₂ content calls₂).map (·,true)) :
    let s := run (initClipboardSynchronizer os) (earlier ++ schedule)
    posts s.history = posts (run (initClipboardSynchronizer os) earlier).history ++
        [{ content with chunkType := .start }] ∧
      (s.Quiescent → s.osClipboard = some { content with chunkType := .start }) := by
  intro s
  have hdropped := (chunksOf_pulledChunks p₁ dropped h₁).notFinal hpre hstrict
  have hcontent := chunksOf_pulledChunks p₂ content h₂
  have hposts : posts s.history = posts (run (initClipboardSynchronizer os) earlier).history ++
      [{ content with chunkType := .start }] := by
    rw [posts_run, posts_run, hpushed]
    unfold completedPushes pushesOf
    rw [List.foldl_append, List.map_append, List.foldl_append, pushes_chunksOf hcontent,
      pushes_notFinal aborted hdropped]
  refine ⟨hposts,fun hquiet => ?_⟩
  have hlast := osClipboard_run os (earlier ++ schedule) hquiet
  rwa [hposts, List.getLast?_concat, Option.some_or] at hlast

/-- A text is pushed after the START of an image. -/
theorem clipboard_roundTrip_text :
    posts (run (initClipboardSynchronizer none) ([] ++
        [.pushClipboardChunk (startChunk .image [7]) (some 1), .advance 0,
          .pushClipboardChunk (startChunk .text [72,105]) (some 2),
          .pushClipboardChunk (finalChunk .text) none])).history = [⟨.text,.start,[72,105]⟩] := by
  have h := clipboard_roundTrip none [] {} {} ⟨.image,.start,[7]⟩ ⟨.text,.start,[72,105]⟩ 2 2
    [startChunk .image [7]] (by decide) (by decide) (by decide) (by decide)
    [.pushClipboardChunk (startChunk .image [7]) (some 1), .advance 0,
      .pushClipboardChunk (startChunk .text [72,105]) (some 2), .pushClipboardChunk (finalChunk .text) none]
    (by decide +kernel)
  exact h.1

end Whist.Clipboard
