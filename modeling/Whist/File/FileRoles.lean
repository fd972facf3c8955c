import Whist.File.FileReading

/-! # Entries keep their role -/
namespace Whist.File

section Lists
variable {α : Type*} {l : List α} {i : ℕ} {a b : α} (p : α → Prop) [DecidablePred p]

theorem filter_of_getElem? (h : l[i]? = some a) :
    l.filter p = (l.take i).filter p ++ ((if p a then [a] else []) ++ (l.drop (i + 1)).filter p) := by
  obtain ⟨hi,rfl⟩ := List.getElem?_eq_some_iff.mp h
  conv_lhs => rw [← List.take_append_drop i l, List.drop_eq_getElem_cons hi]
  rw [List.filter_append, List.filter_cons]
  by_cases hp : p l[i] <;> simp [hp]

theorem filter_set (h : l[i]? = some a) :
    (l.set i b).filter p = (l.take i).filter p ++ ((if p b then [b] else []) ++ (l.drop (i + 1)).filter p) := by
  obtain ⟨hi,-⟩ := List.getElem?_eq_some_iff.mp h
  rw [List.set_eq_take_append_cons_drop, if_pos hi, List.filter_append, List.filter_cons]
  by_cases hp : p b <;> simp [hp]

theorem filter_eraseIdx (i : ℕ) :
    (l.eraseIdx i).filter p = (l.take i).filter p ++ (l.drop (i + 1)).filter p := by
  rw [List.eraseIdx_eq_take_drop_succ, List.filter_append]

theorem filter_singleton (h : l[i]? = some a) (hp : p a) {x : α} (hl : l.filter p = [x]) :
    x = a ∧ (l.take i).filter p = [] ∧ (l.drop (i + 1)).filter p = [] := by
  rw [filter_of_getElem? p h, if_pos hp, List.singleton_append] at hl
  rcases List.append_eq_singleton_iff.mp hl with ⟨htake,hcons⟩ | ⟨-,hcons⟩
  · rw [List.cons.injEq] at hcons
    exact ⟨hcons.1.symm,htake,hcons.2⟩
  · cases hcons

end Lists

theorem messagesOf_append (id : ℤ) (sent : List Message) (message : Message) :
    messagesOf id (sent ++ [message]) =
      messagesOf id sent ++ if message.globalFileId = some id then [message] else [] := by
  unfold messagesOf
  rw [List.filter_append]
  by_cases h : message.globalFileId = some id <;> simp [h]

theorem messagesOf_append_eq {id : ℤ} {message : Message} (h : message.globalFileId = some id)
    (sent : List Message) : messagesOf id (sent ++ [message]) = messagesOf id sent ++ [message] := by
  rw [messagesOf_append, if_pos h]

theorem messagesOf_append_ne {id : ℤ} {sent : List Message} {message : Message}
    (h : message.globalFileId ≠ some id) : messagesOf id (sent ++ [message]) = messagesOf id sent := by
  rw [messagesOf_append, if_neg h, List.append_nil]

structure Reading (id : ℤ) (file : Registered) (sent : List Message) (e : TransferringFile) : Prop where
  groupEnd : e.groupEnd = false
  filePath : e.filePath = some file.filePath
  transferType : e.transferType = file.transferType
  eventInfo : e.eventInfo = file.eventInfo
  handle : e.fileHandle = none ∧ messagesOf id sent = [] ∨
    ∃ position, e.fileHandle = some ⟨file.filePath,position,[],true⟩ ∧
      Started id file (messagesOf id sent) ∧ position = (bytesOf id sent).length

inductive ReadOk (id : ℤ) (file : Registered) (s : SyncLoop) : Prop
  | entry (e : TransferringFile) (h : s.synchronizer.transferringFiles.filter (IsReading id) = [e])
      (reading : Reading id file s.sent e)
  | gone (h : s.synchronizer.transferringFiles.filter (IsReading id) = [])
      (ended : messagesOf id s.sent = [] ∨
        ∃ messages, Started id file messages ∧ messagesOf id s.sent = messages ++ [.data ⟨id,.close,[]⟩])

inductive EntryOk : TransferringFile → Prop
  | marker {e : TransferringFile} (h : e.direction = .unused) (groupEnd : e.groupEnd = true) : EntryOk e
  | read {e : TransferringFile} (h : e.direction = .readEnd) (n : ℕ) (id : e.globalFileId = n) : EntryOk e
  | write {e : TransferringFile} (h : e.direction = .writeEnd) (groupEnd : e.groupEnd = false)
      (filePath : e.filePath ≠ none) : EntryOk e

structure LoopInv (pre : List LoopCall) (s : SyncLoop) : Prop where
  entries : ∀ e ∈ s.synchronizer.transferringFiles, EntryOk e
  notRead : ∀ e ∈ s.synchronizer.transferringFiles, e.direction = .writeEnd →
    ∀ h, e.fileHandle = some h → h.readOnly = false
  counter : s.globalFileId = (registered pre).length
  reads : ∀ (n : ℕ) (file : Registered), (registered pre)[n]? = some file → ReadOk n file s
  unregistered : ∀ id : ℤ, (∀ n : ℕ, id = n → (registered pre).length ≤ n) →
    s.synchronizer.transferringFiles.filter (IsReading id) = [] ∧ messagesOf id s.sent = []

theorem LoopInv.state {pre : List LoopCall} {s : SyncLoop} (h : LoopInv pre s) : StateOk pre s := by
  have hcases : ∀ id : ℤ, messagesOf id s.sent = [] ∨ ∃ (n : ℕ) (file : Registered), id = (n : ℤ) ∧
      (registered pre)[n]? = some file := by
    intro id
    by_cases hid : ∀ n : ℕ, id = n → (registered pre).length ≤ n
    · exact Or.inl (h.unregistered id hid).2
    · push Not at hid
      obtain ⟨n,rfl,hn⟩ := hid
      exact Or.inr ⟨n,_,rfl,List.getElem?_eq_getElem hn⟩
  refine ⟨h.notRead,fun id => ?_,fun id hid => ?_⟩
  · rcases hcases id with hnone | ⟨n,file,rfl,hn⟩
    · exact Or.inl hnone
    · refine Or.inr ⟨n,file,rfl,hn,?_⟩
      cases h.reads n file hn with
      | entry e _ reading =>
        rcases reading.handle with ⟨-,hnil⟩ | ⟨position,-,hstarted,-⟩
        · rw [hnil]
          exact .idle
        · exact .started hstarted
      | gone _ ended =>
        rcases ended with hnil | ⟨messages,hstarted,hmessages⟩
        · rw [hnil]
          exact .idle
        · rw [hmessages]
          exact .closed hstarted
  · rcases hcases id with hnone | ⟨n,file,rfl,hn⟩
    · exact Or.inl hnone
    · cases h.reads n file hn with
      | entry e hfilter _ =>
        have he : e ∈ s.synchronizer.transferringFiles.filter (IsReading (n : ℤ)) := by
          rw [hfilter]
          exact List.mem_singleton_self e
        obtain ⟨hmem,hread⟩ := List.mem_filter.mp he
        exact absurd (of_decide_eq_true hread) (hid e hmem)
      | gone _ ended =>
        rcases ended with hnil | ⟨messages,-,hmessages⟩
        · exact Or.inl hnil
        · exact Or.inr (by rw [hmessages, List.getLast?_concat])

theorem ReadOk.congr {id : ℤ} {file : Registered} {s s' : SyncLoop} (h : ReadOk id file s)
    (hfilter : s'.synchronizer.transferringFiles.filter (IsReading id) =
      s.synchronizer.transferringFiles.filter (IsReading id))
    (hmessages : messagesOf id s'.sent = messagesOf id s.sent) : ReadOk id file s' := by
  cases h with
  | entry e h reading =>
    refine .entry e (hfilter.trans h) ⟨reading.groupEnd,reading.filePath,reading.transferType,reading.eventInfo,?_⟩
    rw [bytesOf, hmessages]
    exact reading.handle
  | gone h ended =>
    refine .gone (hfilter.trans h) ?_
    rw [hmessages]
    exact ended

variable {pre : List LoopCall} {s s' : SyncLoop} {c : LoopCall}

theorem registered_append (hc : c.registered = none) : registered (pre ++ [c]) = registered pre := by
  simp [registered, hc]

theorem LoopInv.update (h : LoopInv pre s) (hc : c.registered = none) (id : ℤ)
    (hentries : ∀ e ∈ s'.synchronizer.transferringFiles, EntryOk e)
    (hnotRead : ∀ e ∈ s'.synchronizer.transferringFiles, e.direction = .writeEnd →
      ∀ h, e.fileHandle = some h → h.readOnly = false)
    (hcounter : s'.globalFileId = s.globalFileId)
    (hfilter : ∀ id' ≠ id, s'.synchronizer.transferringFiles.filter (IsReading id') =
      s.synchronizer.transferringFiles.filter (IsReading id'))
    (hmessages : ∀ id' ≠ id, messagesOf id' s'.sent = messagesOf id' s.sent)
    (hread : ∀ (n : ℕ) (file : Registered), id = n → (registered pre)[n]? = some file → ReadOk n file s')
    (hnone : (∀ n : ℕ, id = n → (registered pre).length ≤ n) →
      s'.synchronizer.transferringFiles.filter (IsReading id) = [] ∧ messagesOf id s'.sent = []) :
    LoopInv (pre ++ [c]) s' := by
  refine ⟨hentries,hnotRead,?_,fun n file hn => ?_,fun id' hid' => ?_⟩
  · rw [registered_append hc, hcounter]
    exact h.counter
  · rw [registered_append hc] at hn
    by_cases hid : (n : ℤ) = id
    · exact hread n file hid.symm hn
    · exact (h.reads n file hn).congr (hfilter _ hid) (hmessages _ hid)
  · rw [registered_append hc] at hid'
    by_cases hid : id' = id
    · subst hid
      exact hnone hid'
    · rw [hfilter _ hid, hmessages _ hid]
      exact h.unregistered id' hid'

theorem LoopInv.frame (h : LoopInv pre s) (hc : c.registered = none)
    (hentries : ∀ e ∈ s'.synchronizer.transferringFiles, EntryOk e)
    (hnotRead : ∀ e ∈ s'.synchronizer.transferringFiles, e.direction = .writeEnd →
      ∀ h, e.fileHandle = some h → h.readOnly = false)
    (hcounter : s'.globalFileId = s.globalFileId)
    (hfilter : ∀ id, s'.synchronizer.transferringFiles.filter (IsReading id) =
      s.synchronizer.transferringFiles.filter (IsReading id))
    (hmessages : ∀ id, messagesOf id s'.sent = messagesOf id s.sent) : LoopInv (pre ++ [c]) s' := by
  refine h.update hc (-1) hentries hnotRead hcounter (fun id _ => hfilter id) (fun id _ => hmessages id)
    (fun n file _ hn => (h.reads n file hn).congr (hfilter _) (hmessages _)) (fun hnone => ?_)
  rw [hfilter, hmessages]
  exact h.unregistered _ hnone

theorem mem_updateWriteFile {id : ℤ} {f : TransferringFile → Option TransferringFile}
    {l : List TransferringFile} {e : TransferringFile} (h : e ∈ updateWriteFile id f l) :
    e ∈ l ∨ ∃ e₀ ∈ l, e₀.direction = .writeEnd ∧ f e₀ = some e := by
  induction l with
  | nil => cases h
  | cons e₁ l ih =>
    unfold updateWriteFile at h
    split_ifs at h with hwrite
    · rcases List.mem_append.mp h with hnew | hold
      · rw [Option.mem_toList] at hnew
        have hdir : e₁.direction = .writeEnd := by
          simp only [isWriteOf, Bool.and_eq_true, decide_eq_true_eq] at hwrite
          exact hwrite.2
        exact Or.inr ⟨e₁,List.mem_cons_self,hdir,hnew⟩
      · exact Or.inl (List.mem_cons_of_mem _ hold)
    · rcases List.mem_cons.mp h with rfl | hrest
      · exact Or.inl List.mem_cons_self
      · rcases ih hrest with hold | ⟨e₀,hmem,hdir,hf⟩
        · exact Or.inl (List.mem_cons_of_mem _ hold)
        · exact Or.inr ⟨e₀,List.mem_cons_of_mem _ hmem,hdir,hf⟩

theorem filter_reading_updateWriteFile {id : ℤ} {f : TransferringFile → Option TransferringFile}
    (hf : ∀ e e', f e = some e' → e'.direction = e.direction) (l : List TransferringFile) (id' : ℤ) :
    (updateWriteFile id f l).filter (IsReading id') = l.filter (IsReading id') := by
  induction l with
  | nil => rfl
  | cons e l ih =>
    unfold updateWriteFile
    split_ifs with hwrite
    · have hdir : e.direction = .writeEnd := by
        simp only [isWriteOf, Bool.and_eq_true, decide_eq_true_eq] at hwrite
        exact hwrite.2
      have hnot : ∀ e', e'.direction = .writeEnd → decide (IsReading id' e') = false := by
        intro e' he'
        simp [IsReading, he']
      rw [List.filter_append, List.filter_cons_of_neg (by rw [hnot e hdir]; exact Bool.false_ne_true)]
      cases hfe : f e with
      | none => rfl
      | some e' =>
        rw [Option.toList_some, List.filter_cons_of_neg, List.filter_nil, List.nil_append]
        rw [hnot e' ((hf e e' hfe).trans hdir)]
        exact Bool.false_ne_true
    · rw [List.filter_cons, List.filter_cons, ih]

theorem fwrite_readOnly (files : Path → Option (List UInt8)) (h : FileHandle) (data : List UInt8)
    (flushed : ℕ) : (fwrite files h data flushed).2.readOnly = h.readOnly := by
  unfold fwrite
  split_ifs
  · rfl
  · rfl

/-- A received file may be added, and may be written to through a handle it had. -/
inductive Received (t t' : FileSynchronizer) : Prop
  | added (e : TransferringFile) (h : t'.transferringFiles = t.transferringFiles ++ [e])
      (direction : e.direction = .writeEnd) (groupEnd : e.groupEnd = false) (filePath : e.filePath ≠ none)
      (handle : ∀ h, e.fileHandle = some h → h.readOnly = false)
  | kept (h : t'.transferringFiles = t.transferringFiles)
  | changed (id : ℤ) (f : TransferringFile → Option TransferringFile)
      (h : t'.transferringFiles = updateWriteFile id f t.transferringFiles)
      (fields : ∀ e e', f e = some e' → e'.direction = e.direction ∧ e'.groupEnd = e.groupEnd ∧
        e'.filePath = e.filePath)
      (handle : ∀ e e' h', f e = some e' → e'.fileHandle = some h' → ∃ e₁ ∈ t.transferringFiles,
        e₁.direction = .writeEnd ∧ ∃ h, e₁.fileHandle = some h ∧ h'.readOnly = h.readOnly)

theorem call_received {t t' : FileSynchronizer} {m : Call} (h : call t m = .ok t') : Received t t' := by
  cases m with
  | metadata m dropDirectory created =>
    rw [call, fileSynchronizerOpenFileForWriting] at h
    by_cases hdrop : m.transferType &&& t.enabledActions = fileTransferServerDrop ∧ dropDirectory = false
    · rw [if_pos hdrop] at h
      cases h
    rw [if_neg hdrop] at h
    cases h
    refine .added _ rfl rfl rfl (Option.some_ne_none _) (fun h hh => ?_)
    simp only [newWriteFile] at hh
    split_ifs at hh
    cases hh
    rfl
  | chunk c flushed confirmed =>
    rw [call, fileSynchronizerWriteFileChunk] at h
    split_ifs at h
    · cases h
      exact .kept rfl
    · cases hfile : getWriteFileWithGlobalId t.transferringFiles c.globalFileId with
      | none =>
        rw [hfile] at h
        cases h
        exact .kept rfl
      | some file =>
        rw [hfile] at h
        dsimp only at h
        have hmem := List.mem_of_find?_eq_some hfile
        have hwrite := List.find?_some hfile
        simp only [isWriteOf, Bool.and_eq_true, decide_eq_true_eq] at hwrite
        cases hhandle : file.fileHandle with
        | none =>
          rw [hhandle] at h
          cases h
          exact .kept rfl
        | some fh =>
          rw [hhandle] at h
          dsimp only at h
          cases htype : c.chunkType with
          | body =>
            rw [htype] at h
            cases h
            refine .changed c.globalFileId _ rfl (fun e e' he => ?_) (fun e e' h' he hh' => ?_)
            · cases he
              exact ⟨rfl,rfl,rfl⟩
            · cases he
              cases hh'
              exact ⟨file,hmem,hwrite.2,fh,hhandle,fwrite_readOnly ..⟩
          | close =>
            rw [htype] at h
            dsimp only at h
            split_ifs at h
            cases h
            exact .changed c.globalFileId _ rfl (fun e e' he => nomatch he) (fun e e' h' he => nomatch he)
          | closeAck =>
            rw [htype] at h
            cases h
            exact .kept rfl

theorem filter_reading_append {e : TransferringFile} (he : e.direction ≠ .readEnd) (l : List TransferringFile)
    (id : ℤ) : (l ++ [e]).filter (IsReading id) = l.filter (IsReading id) := by
  rw [List.filter_append, List.filter_cons_of_neg, List.filter_nil, List.append_nil]
  simp [IsReading, he]

theorem LoopInv.received (h : LoopInv pre s) {m : Call} {t' : FileSynchronizer}
    (ht : call s.synchronizer m = .ok t') :
    LoopInv (pre ++ [.received m]) { s with synchronizer := t' } := by
  cases call_received ht with
  | added e heq direction groupEnd filePath handle =>
    refine h.frame rfl (fun e' he' => ?_) (fun e' he' hdir => ?_) rfl (fun id => ?_) (fun _ => rfl)
    · rw [heq] at he'
      rcases List.mem_append.mp he' with hold | hnew
      · exact h.entries e' hold
      · rw [List.mem_singleton] at hnew
        exact .write (hnew ▸ direction) (hnew ▸ groupEnd) (hnew ▸ filePath)
    · rw [heq] at he'
      rcases List.mem_append.mp he' with hold | hnew
      · exact h.notRead e' hold hdir
      · rw [List.mem_singleton] at hnew
        exact hnew ▸ handle
    · dsimp only
      rw [heq, filter_reading_append (by rw [direction]; nofun)]
  | kept heq =>
    refine h.frame rfl (fun e' he' => ?_) (fun e' he' hdir => ?_) rfl (fun id => ?_) (fun _ => rfl)
    · exact h.entries e' (heq ▸ he')
    · exact h.notRead e' (heq ▸ he') hdir
    · dsimp only
      rw [heq]
  | changed id f heq fields handle =>
    refine h.frame rfl (fun e' he' => ?_) (fun e' he' hdir => ?_) rfl (fun id' => ?_) (fun _ => rfl)
    · rw [heq] at he'
      rcases mem_updateWriteFile he' with hold | ⟨e₀,hmem,hdir,hf⟩
      · exact h.entries e' hold
      · obtain ⟨hdirection,hgroup,hpath⟩ := fields e₀ e' hf
        cases h.entries e₀ hmem with
        | marker hunused _ => cases hunused.symm.trans hdir
        | read hread _ _ => cases hread.symm.trans hdir
        | write _ groupEnd filePath =>
          exact .write (hdirection.trans hdir) (hgroup.trans groupEnd) (hpath ▸ filePath)
    · rw [heq] at he'
      rcases mem_updateWriteFile he' with hold | ⟨e₀,hmem,-,hf⟩
      · exact h.notRead e' hold hdir
      · intro h' hh'
        obtain ⟨e₁,hmem₁,hdir₁,fh,hfh,hsame⟩ := handle e₀ e' h' hf hh'
        exact hsame.trans (h.notRead e₁ hmem₁ hdir₁ fh hfh)
    · dsimp only
      rw [heq, filter_reading_updateWriteFile (fun e e' he => (fields e e' he).1)]

theorem LoopInv.register (h : LoopInv pre s) (filePath : Path) (transferType : ℕ)
    (eventInfo : Option FileEventInfo) : LoopInv (pre ++ [.register filePath transferType eventInfo])
      (fileSynchronizerSetFileReadingBasicMetadata s filePath transferType eventInfo) := by
  have hregistered : registered (pre ++ [.register filePath transferType eventInfo]) =
      registered pre ++ [⟨filePath,transferType,eventInfo.getD ⟨0,0⟩⟩] := by
    simp [registered, LoopCall.registered]
  set e := newReadFile s.globalFileId filePath transferType eventInfo with he
  have hid : e.globalFileId = ((registered pre).length : ℤ) := by
    rw [he, newReadFile, h.counter]
  have hother : ∀ id : ℤ, id ≠ ((registered pre).length : ℤ) →
      (s.synchronizer.transferringFiles ++ [e]).filter (IsReading id) =
        s.synchronizer.transferringFiles.filter (IsReading id) := by
    intro id hne
    rw [List.filter_append, List.filter_cons_of_neg, List.filter_nil, List.append_nil]
    rw [decide_eq_true_eq]
    exact fun hread => hne (hread.2.symm.trans hid)
  obtain ⟨hnone,hmessages⟩ := h.unregistered ((registered pre).length : ℤ) (fun n hn => by omega)
  refine ⟨fun e' he' => ?_,fun e' he' hdir => ?_,?_,fun n file hn => ?_,fun id hnot => ?_⟩
  · rcases List.mem_append.mp he' with hold | hnew
    · exact h.entries e' hold
    · rw [List.mem_singleton] at hnew
      exact .read (congrArg TransferringFile.direction hnew) _
        ((congrArg TransferringFile.globalFileId hnew).trans hid)
  · rcases List.mem_append.mp he' with hold | hnew
    · exact h.notRead e' hold hdir
    · rw [List.mem_singleton] at hnew
      cases hdir.symm.trans (congrArg TransferringFile.direction hnew)
  · rw [hregistered, List.length_append]
    exact congrArg (· + 1) h.counter
  · rw [hregistered] at hn
    rcases lt_or_ge n (registered pre).length with hlt | hge
    · rw [List.getElem?_append_left hlt] at hn
      exact (h.reads n file hn).congr (hother n (by omega)) rfl
    · rw [List.getElem?_append_right hge, List.getElem?_singleton] at hn
      split_ifs at hn with hzero
      have hlength : n = (registered pre).length := by omega
      cases hn
      subst hlength
      refine .entry e ?_ ⟨rfl,rfl,rfl,rfl,Or.inl ⟨rfl,hmessages⟩⟩
      change (s.synchronizer.transferringFiles ++ [e]).filter _ = _
      rw [List.filter_append, hnone, List.nil_append, List.filter_cons_of_pos, List.filter_nil]
      rw [decide_eq_true_eq]
      exact ⟨rfl,hid⟩
  · rw [hregistered] at hnot
    have hne : id ≠ ((registered pre).length : ℤ) := by
      rintro rfl
      have := hnot _ rfl
      simp at this
    obtain ⟨hfilter,hmsg⟩ := h.unregistered id (fun n hn => by
      have := hnot n hn
      simp at this
      omega)
    exact ⟨(hother id hne).trans hfilter,hmsg⟩

theorem LoopInv.endGroup (h : LoopInv pre s) (transferType : ℕ) :
    LoopInv (pre ++ [.endGroup transferType]) (fileSynchronizerEndTypeGroup s transferType) := by
  have hmarker : (groupMarker transferType).direction = .unused := rfl
  refine h.frame rfl (fun e he => ?_) (fun e he hdir => ?_) rfl
    (fun id => filter_reading_append (by rw [hmarker]; nofun) _ id) (fun _ => rfl)
  · rcases List.mem_append.mp he with hold | hnew
    · exact h.entries e hold
    · rw [List.mem_singleton] at hnew
      exact .marker (hnew ▸ hmarker) (hnew ▸ rfl)
  · rcases List.mem_append.mp he with hold | hnew
    · exact h.notRead e hold hdir
    · rw [List.mem_singleton] at hnew
      cases hdir.symm.trans (congrArg TransferringFile.direction hnew)

variable {i : ℕ} {e : TransferringFile} {opened : Bool}

theorem LoopInv.reading (h : LoopInv pre s) (hi : s.synchronizer.transferringFiles[i]? = some e)
    (hread : e.direction = .readEnd) :
    ∃ (n : ℕ) (file : Registered), (registered pre)[n]? = some file ∧ IsReading n e ∧
      Reading n file s.sent e ∧ (s.synchronizer.transferringFiles.take i).filter (IsReading n) = [] ∧
      (s.synchronizer.transferringFiles.drop (i + 1)).filter (IsReading n) = [] := by
  have hmem := List.mem_of_getElem? hi
  cases h.entries e hmem with
  | marker hunused _ => cases hunused.symm.trans hread
  | write hwrite _ _ => cases hwrite.symm.trans hread
  | read _ n hid =>
    have hisreading : IsReading n e := ⟨hread,hid⟩
    have hfilter : e ∈ s.synchronizer.transferringFiles.filter (IsReading (n : ℤ)) :=
      List.mem_filter.mpr ⟨hmem,decide_eq_true hisreading⟩
    have hlt : n < (registered pre).length := by
      by_contra hge
      have hnone := (h.unregistered n (fun m hm => by omega)).1
      rw [hnone] at hfilter
      cases hfilter
    refine ⟨n,_,List.getElem?_eq_getElem hlt,hisreading,?_⟩
    cases h.reads n _ (List.getElem?_eq_getElem hlt) with
    | gone hnone _ =>
      rw [hnone] at hfilter
      cases hfilter
    | entry e' hsingle reading =>
      obtain ⟨rfl,htake,hdrop⟩ := filter_singleton _ hi hisreading hsingle
      exact ⟨reading,htake,hdrop⟩

inductive ReadVisit (s : SyncLoop) (i : ℕ) (e : TransferringFile) (n : ℕ) (file : Registered) (s' : SyncLoop) : Prop
  | failed (result : s' = s.send (resetTransferringFile s.synchronizer i e) none)
      (nothing : messagesOf n s.sent = [])
  | opened (m : FileMetadata) (hid : m.globalFileId = n) (nothing : messagesOf n s.sent = [])
      (started : Started n file [.metadata m])
      (result : s' = s.send (s.synchronizer.setHandle i e ⟨file.filePath,0,[],true⟩) (some (.metadata m)))
  | body (data : List UInt8) (started : Started n file (messagesOf n s.sent)) (nonempty : data ≠ [])
      (inOrder : data =
        (((s.synchronizer.files file.filePath).getD []).drop (bytesOf n s.sent).length).take chunkSize)
      (result : s' = s.send
        (s.synchronizer.setHandle i e ⟨file.filePath,(bytesOf n s.sent).length + data.length,[],true⟩)
        (some (.data ⟨n,.body,data⟩)))
  | close (started : Started n file (messagesOf n s.sent))
      (inOrder : [] =
        (((s.synchronizer.files file.filePath).getD []).drop (bytesOf n s.sent).length).take chunkSize)
      (result : s' = s.send (resetTransferringFile s.synchronizer i e) (some (.data ⟨n,.close,[]⟩)))

theorem visitEntry_read {n : ℕ} {file : Registered} (hread : IsReading n e) (h : Reading n file s.sent e) :
    ReadVisit s i e n file (visitEntry s i e opened) := by
  obtain ⟨hdirection,hid⟩ := hread
  unfold visitEntry
  rw [h.groupEnd, if_neg Bool.false_ne_true, fileSynchronizerReadNextFileChunk, if_neg (not_not.mpr hdirection)]
  rcases h.handle with ⟨hnone,hnothing⟩ | ⟨position,hhandle,hstarted,hposition⟩
  · rw [hnone]
    dsimp only
    rw [fileSynchronizerOpenFileForReading, h.filePath]
    dsimp only
    rw [hnone, Option.isSome_none, if_neg Bool.false_ne_true]
    cases opened with
    | false => exact .failed rfl hnothing
    | true => exact .opened _ hid hnothing (.metadata _ hid rfl h.transferType h.eventInfo) rfl
  · rw [hhandle]
    subst hposition
    dsimp only
    split_ifs with hempty
    · have hdata : fread s.synchronizer.files ⟨file.filePath,(bytesOf n s.sent).length,[],true⟩ = [] :=
        List.length_eq_zero_iff.mp hempty
      rw [hdata, hid]
      exact .close hstarted hdata.symm rfl
    · rw [hid]
      exact .body _ hstarted (fun hnil => hempty (List.length_eq_zero_iff.mpr hnil)) rfl rfl

inductive OtherVisit (s : SyncLoop) (i : ℕ) (e : TransferringFile) (s' : SyncLoop) : Prop
  | marker (h : e.direction = .unused)
      (result : s' = s.send (resetTransferringFile s.synchronizer i e) (some (.groupEnd e.transferType)))
  | kept (h : e.direction = .writeEnd) (result : s' = s.send s.synchronizer none)
  | dropped (h : e.direction = .writeEnd)
      (result : s' = s.send (resetTransferringFile s.synchronizer i e) none)

theorem visitEntry_other (he : EntryOk e) (hread : e.direction ≠ .readEnd)
    (hopen : e.direction = .writeEnd → e.fileHandle = none → opened = false) :
    OtherVisit s i e (visitEntry s i e opened) := by
  unfold visitEntry
  cases he with
  | read h _ _ => exact absurd h hread
  | marker h groupEnd =>
    rw [groupEnd, if_pos rfl]
    exact .marker h rfl
  | write h groupEnd filePath =>
    rw [groupEnd, if_neg Bool.false_ne_true, fileSynchronizerReadNextFileChunk, if_pos hread]
    obtain ⟨path,hpath⟩ := Option.ne_none_iff_exists'.mp filePath
    dsimp only
    rw [fileSynchronizerOpenFileForReading, hpath]
    dsimp only
    cases hhandle : e.fileHandle with
    | some fh => exact .kept h rfl
    | none =>
      rw [hopen h hhandle]
      exact .dropped h rfl

theorem messagesOf_send (id : ℤ) (t : FileSynchronizer) :
    messagesOf id (s.send t none).sent = messagesOf id s.sent := by
  simp [SyncLoop.send]

theorem filter_reset (hi : s.synchronizer.transferringFiles[i]? = some e) {id : ℤ} (hnot : ¬IsReading id e) :
    (resetTransferringFile s.synchronizer i e).transferringFiles.filter (IsReading id) =
      s.synchronizer.transferringFiles.filter (IsReading id) := by
  rw [filter_of_getElem? _ hi, if_neg hnot, List.nil_append]
  exact filter_eraseIdx _ i

theorem filter_setHandle (hi : s.synchronizer.transferringFiles[i]? = some e) {id : ℤ} (hnot : ¬IsReading id e)
    (fh : FileHandle) : (s.synchronizer.setHandle i e fh).transferringFiles.filter (IsReading id) =
      s.synchronizer.transferringFiles.filter (IsReading id) := by
  have hnot' : ¬IsReading id { e with fileHandle := some fh } := hnot
  have hset := filter_set (IsReading id) (b := { e with fileHandle := some fh }) hi
  rw [if_neg hnot'] at hset
  rw [filter_of_getElem? _ hi, if_neg hnot]
  exact hset

theorem LoopInv.visitOther (h : LoopInv pre s) (hi : s.synchronizer.transferringFiles[i]? = some e)
    (hread : e.direction ≠ .readEnd) (hv : OtherVisit s i e s') (hc : c.registered = none) :
    LoopInv (pre ++ [c]) s' := by
  have hnot : ∀ id, ¬IsReading id e := fun id hid => hread hid.1
  have hreset : ∀ e' ∈ (resetTransferringFile s.synchronizer i e).transferringFiles,
      e' ∈ s.synchronizer.transferringFiles := fun e' he' => List.mem_of_mem_eraseIdx he'
  cases hv with
  | marker _ result =>
    subst result
    exact h.frame hc (fun e' he' => h.entries e' (hreset e' he')) (fun e' he' => h.notRead e' (hreset e' he')) rfl
      (fun id => filter_reset hi (hnot id)) (fun id => messagesOf_append_ne nofun)
  | kept _ result =>
    subst result
    exact h.frame hc h.entries h.notRead rfl (fun _ => rfl) (fun id => messagesOf_send id _)
  | dropped _ result =>
    subst result
    exact h.frame hc (fun e' he' => h.entries e' (hreset e' he')) (fun e' he' => h.notRead e' (hreset e' he')) rfl
      (fun id => filter_reset hi (hnot id)) (fun id => messagesOf_send id _)

theorem LoopInv.visitRead (h : LoopInv pre s) (hi : s.synchronizer.transferringFiles[i]? = some e) {n : ℕ}
    {file : Registered} (hn : (registered pre)[n]? = some file) (hread : IsReading n e)
    (hreading : Reading n file s.sent e)
    (htake : (s.synchronizer.transferringFiles.take i).filter (IsReading n) = [])
    (hdrop : (s.synchronizer.transferringFiles.drop (i + 1)).filter (IsReading n) = [])
    (hv : ReadVisit s i e n file s') (hc : c.registered = none) : LoopInv (pre ++ [c]) s' := by
  have hother : ∀ id ≠ (n : ℤ), ¬IsReading id e := fun id hne hid => hne (hid.2.symm.trans hread.2)
  have hentries : ∀ fh, ∀ e' ∈ (s.synchronizer.setHandle i e fh).transferringFiles, EntryOk e' := by
    intro fh e' he'
    rcases List.mem_or_eq_of_mem_set he' with hold | rfl
    · exact h.entries e' hold
    · exact .read hread.1 n hread.2
  have hnotRead : ∀ fh, ∀ e' ∈ (s.synchronizer.setHandle i e fh).transferringFiles,
      e'.direction = .writeEnd → ∀ h, e'.fileHandle = some h → h.readOnly = false := by
    intro fh e' he' hdir
    rcases List.mem_or_eq_of_mem_set he' with hold | rfl
    · exact h.notRead e' hold hdir
    · cases hread.1.symm.trans hdir
  have hreset : ∀ e' ∈ (resetTransferringFile s.synchronizer i e).transferringFiles,
      e' ∈ s.synchronizer.transferringFiles := fun e' he' => List.mem_of_mem_eraseIdx he'
  have hgone : (resetTransferringFile s.synchronizer i e).transferringFiles.filter (IsReading (n : ℤ)) = [] := by
    have herase := filter_eraseIdx (l := s.synchronizer.transferringFiles) (IsReading (n : ℤ)) i
    rw [htake, hdrop] at herase
    exact herase
  have hset : ∀ fh, (s.synchronizer.setHandle i e fh).transferringFiles.filter (IsReading (n : ℤ)) =
      [{ e with fileHandle := some fh }] := by
    intro fh
    have hread' : IsReading (n : ℤ) { e with fileHandle := some fh } := hread
    have hfilter := filter_set (IsReading (n : ℤ)) (b := { e with fileHandle := some fh }) hi
    rw [htake, hdrop, if_pos hread'] at hfilter
    exact hfilter
  have hsame : ∀ message : Message, message.globalFileId = some (n : ℤ) → ∀ id ≠ (n : ℤ),
      messagesOf id (s.sent ++ [message]) = messagesOf id s.sent := by
    intro message hid id hne
    refine messagesOf_append_ne (fun heq => hne ?_)
    exact (Option.some.inj (hid.symm.trans heq)).symm
  have hlt : n < (registered pre).length := (List.getElem?_eq_some_iff.mp hn).1
  have hfile : ∀ (m : ℕ) (file' : Registered), (n : ℤ) = m → (registered pre)[m]? = some file' →
      m = n ∧ file' = file := by
    intro m file' hm hfile'
    have hmn : m = n := by omega
    subst hmn
    exact ⟨rfl,Option.some.inj (hfile'.symm.trans hn)⟩
  have hnone : ¬∀ m : ℕ, (n : ℤ) = m → (registered pre).length ≤ m := by
    intro hall
    have := hall n rfl
    omega
  cases hv with
  | failed result nothing =>
    subst result
    refine h.update hc n (fun e' he' => h.entries e' (hreset e' he')) (fun e' he' => h.notRead e' (hreset e' he'))
      rfl (fun id hne => filter_reset hi (hother id hne)) (fun id _ => messagesOf_send id _)
      (fun m file' hm hfile' => ?_) (fun hall => absurd hall hnone)
    obtain ⟨rfl,rfl⟩ := hfile m file' hm hfile'
    exact .gone hgone (Or.inl ((messagesOf_send _ _).trans nothing))
  | opened m hid nothing started result =>
    subst result
    have hmessage : (Message.metadata m).globalFileId = some (n : ℤ) := congrArg some hid
    have hmessages : messagesOf (n : ℤ) (s.sent ++ [.metadata m]) = [.metadata m] := by
      rw [messagesOf_append_eq hmessage, nothing, List.nil_append]
    refine h.update hc n (hentries _) (hnotRead _) rfl (fun id hne => filter_setHandle hi (hother id hne) _)
      (fun id hne => hsame _ hmessage id hne) (fun m' file' hm hfile' => ?_) (fun hall => absurd hall hnone)
    obtain ⟨rfl,rfl⟩ := hfile m' file' hm hfile'
    refine .entry _ (hset _) ⟨hreading.groupEnd,hreading.filePath,hreading.transferType,hreading.eventInfo,
      Or.inr ⟨0,rfl,?_,?_⟩⟩
    · exact hmessages.symm ▸ started
    · exact (congrArg (fun messages => (messages.flatMap Message.bytes).length) hmessages).symm
  | body data started nonempty inOrder result =>
    subst result
    have hmessages : messagesOf (n : ℤ) (s.sent ++ [.data ⟨n,.body,data⟩]) =
        messagesOf n s.sent ++ [.data ⟨n,.body,data⟩] := messagesOf_append_eq rfl _
    refine h.update hc n (hentries _) (hnotRead _) rfl (fun id hne => filter_setHandle hi (hother id hne) _)
      (fun id hne => hsame _ rfl id hne) (fun m' file' hm hfile' => ?_) (fun hall => absurd hall hnone)
    obtain ⟨rfl,rfl⟩ := hfile m' file' hm hfile'
    refine .entry _ (hset _) ⟨hreading.groupEnd,hreading.filePath,hreading.transferType,hreading.eventInfo,
      Or.inr ⟨_,rfl,?_,?_⟩⟩
    · exact hmessages.symm ▸ started.body data nonempty
    · have hbytes := congrArg (fun messages => (messages.flatMap Message.bytes).length) hmessages
      simp only [List.flatMap_append, List.flatMap_singleton, List.length_append] at hbytes
      exact hbytes.symm
  | close started inOrder result =>
    subst result
    have hmessages : messagesOf (n : ℤ) (s.sent ++ [.data ⟨n,.close,[]⟩]) =
        messagesOf n s.sent ++ [.data ⟨n,.close,[]⟩] := messagesOf_append_eq rfl _
    refine h.update hc n (fun e' he' => h.entries e' (hreset e' he')) (fun e' he' => h.notRead e' (hreset e' he'))
      rfl (fun id hne => filter_reset hi (hother id hne)) (fun id hne => hsame _ rfl id hne)
      (fun m' file' hm hfile' => ?_) (fun hall => absurd hall hnone)
    obtain ⟨rfl,rfl⟩ := hfile m' file' hm hfile'
    exact .gone hgone (Or.inr ⟨_,started,hmessages⟩)

variable {enabledActions : ℕ} {files : Path → Option (List UInt8)} {calls : List LoopCall}

def NotReopened (s : SyncLoop) (c : LoopCall) : Prop :=
  ∀ i e, c = .visit i true → s.synchronizer.transferringFiles[i]? = some e → e.direction = .writeEnd →
    e.fileHandle ≠ none

theorem LoopInv.otherVisit (h : LoopInv pre s) (hnever : NotReopened s (.visit i opened))
    (hi : s.synchronizer.transferringFiles[i]? = some e) (hread : e.direction ≠ .readEnd) :
    OtherVisit s i e (visitEntry s i e opened) := by
  refine visitEntry_other (h.entries e (List.mem_of_getElem? hi)) hread (fun hwrite hnone => ?_)
  cases opened with
  | false => rfl
  | true => exact absurd hnone (hnever i e rfl hi hwrite)

theorem LoopInv.step (h : LoopInv pre s) (hnever : NotReopened s c) (hr : loopStep s c = .ok s') :
    LoopInv (pre ++ [c]) s' := by
  cases c with
  | received m =>
    obtain ⟨t',ht,rfl⟩ := Run.map_eq_ok hr
    exact h.received ht
  | register filePath transferType eventInfo =>
    cases hr
    exact h.register filePath transferType eventInfo
  | endGroup transferType =>
    cases hr
    exact h.endGroup transferType
  | changed path bytes =>
    cases hr
    exact h.frame rfl h.entries h.notRead rfl (fun _ => rfl) (fun _ => rfl)
  | visit i opened =>
    cases hr
    unfold visit
    cases hi : s.synchronizer.transferringFiles[i]? with
    | none => exact h.frame rfl h.entries h.notRead rfl (fun _ => rfl) (fun _ => rfl)
    | some e =>
      dsimp only
      by_cases hread : e.direction = .readEnd
      · obtain ⟨n,file,hn,hisreading,hreading,htake,hdrop⟩ := h.reading hi hread
        exact h.visitRead hi hn hisreading hreading htake hdrop (visitEntry_read hisreading hreading) rfl
      · exact h.visitOther hi hread (h.otherVisit hnever hi hread) rfl

theorem send_none (t : FileSynchronizer) : (s.send t none).sent = s.sent := List.append_nil _

theorem not_sent_of_eq {chunk : FileData} (h : s'.sent = s.sent) : s'.sent ≠ s.sent ++ [.data chunk] := by
  intro hsent
  have hlength := congrArg List.length (h.symm.trans hsent)
  simp at hlength

theorem LoopInv.inOrder (h : LoopInv pre s) (hnever : NotReopened s c) (hr : loopStep s c = .ok s')
    {chunk : FileData} (hsent : s'.sent = s.sent ++ [.data chunk]) :
    ∃ (n : ℕ) (file : Registered), chunk.globalFileId = (n : ℤ) ∧ (registered pre)[n]? = some file ∧
      chunk.data = (((s.synchronizer.files file.filePath).getD []).drop (bytesOf n s.sent).length).take chunkSize := by
  have hmessage : ∀ {t : FileSynchronizer} {message : Message}, s' = s.send t (some message) →
      message = .data chunk := by
    rintro t message rfl
    exact List.singleton_inj.mp (List.append_cancel_left hsent)
  have hnothing : ∀ {t : FileSynchronizer}, s' ≠ s.send t none := by
    rintro t rfl
    exact not_sent_of_eq (send_none t) hsent
  cases c with
  | received m =>
    obtain ⟨t',-,rfl⟩ := Run.map_eq_ok hr
    exact absurd hsent (not_sent_of_eq rfl)
  | register filePath transferType eventInfo =>
    cases hr
    exact absurd hsent (not_sent_of_eq rfl)
  | endGroup transferType =>
    cases hr
    exact absurd hsent (not_sent_of_eq rfl)
  | changed path bytes =>
    cases hr
    exact absurd hsent (not_sent_of_eq rfl)
  | visit i opened =>
    have hvisit : s' = visit s i opened := (Except.ok.inj hr).symm
    unfold visit at hvisit
    cases hi : s.synchronizer.transferringFiles[i]? with
    | none =>
      rw [hi] at hvisit
      exact absurd hsent (not_sent_of_eq (congrArg SyncLoop.sent hvisit))
    | some e =>
      rw [hi] at hvisit
      dsimp only at hvisit
      by_cases hread : e.direction = .readEnd
      · obtain ⟨n,file,hn,hisreading,hreading,-,-⟩ := h.reading hi hread
        have hv : ReadVisit s i e n file (visitEntry s i e opened) :=
          visitEntry_read hisreading hreading
        rw [← hvisit] at hv
        cases hv with
        | failed result _ => exact absurd result hnothing
        | opened m _ _ _ result => cases hmessage result
        | body data _ _ inOrder result =>
          cases hmessage result
          exact ⟨n,file,rfl,hn,inOrder⟩
        | close _ inOrder result =>
          cases hmessage result
          exact ⟨n,file,rfl,hn,inOrder⟩
      · have hv := h.otherVisit hnever hi hread
        rw [← hvisit] at hv
        cases hv with
        | marker _ result => cases hmessage result
        | kept _ result => exact absurd result hnothing
        | dropped _ result => exact absurd result hnothing

theorem LoopInv.notSent (h : LoopInv pre s) (hnever : NotReopened s (.visit i opened))
    (hi : s.synchronizer.transferringFiles[i]? = some e) (hwrite : e.direction = .writeEnd) :
    (visit s i opened).sent = s.sent := by
  have hread : e.direction ≠ .readEnd := by
    rw [hwrite]
    nofun
  unfold visit
  rw [hi]
  dsimp only
  cases h.otherVisit hnever hi hread with
  | marker hunused _ => cases hunused.symm.trans hwrite
  | kept _ result => exact result ▸ send_none _
  | dropped _ result => exact result ▸ send_none _

theorem LoopInv.stepOk (h : LoopInv pre s) (hnever : NotReopened s c) (hr : loopStep s c = .ok s') :
    StepOk pre s c s' := by
  refine ⟨fun i opened e hc hi hwrite => ?_,fun chunk hsent => h.inOrder hnever hr hsent⟩
  subst hc
  cases hr
  exact h.notSent hnever hi hwrite

theorem loopRun_snoc {s : SyncLoop} (hr : loopRun enabledActions files (pre ++ [c]) = .ok s) :
    ∃ s₀, loopRun enabledActions files pre = .ok s₀ ∧ loopStep s₀ c = .ok s := by
  unfold loopRun at hr ⊢
  cases hpre : Run.run loopStep (startLoop enabledActions files) pre with
  | error e =>
    rw [Run.run_error_append hpre] at hr
    cases hr
  | ok s₀ =>
    rw [Run.run_append _ hpre, Run.run_singleton] at hr
    exact ⟨s₀,rfl,hr⟩

theorem NeverReopened.notReopened (h : NeverReopened enabledActions files calls) {post : List LoopCall}
    (hsplit : calls = pre ++ c :: post) (hr : loopRun enabledActions files pre = .ok s) : NotReopened s c := by
  intro i e hc hi hwrite
  subst hc
  exact h pre i post s e hsplit hr hi hwrite

theorem start_loopInv : LoopInv [] (startLoop enabledActions files) :=
  ⟨fun _ h => absurd h List.not_mem_nil,fun _ h => absurd h List.not_mem_nil,rfl,fun _ _ h => (nomatch h),
    fun _ _ => ⟨rfl,rfl⟩⟩

theorem NeverReopened.inv (h : NeverReopened enabledActions files calls) {post : List LoopCall}
    (hsplit : calls = pre ++ post) (hr : loopRun enabledActions files pre = .ok s) : LoopInv pre s := by
  induction pre using List.reverseRecOn generalizing s post with
  | nil =>
    cases hr
    exact start_loopInv
  | append_singleton pre c ih =>
    obtain ⟨s₀,hr₀,hstep⟩ := loopRun_snoc hr
    rw [List.append_assoc, List.singleton_append] at hsplit
    exact (ih hsplit hr₀).step (h.notReopened hsplit hr₀) hstep

theorem LoopInv.notReopened (h : LoopInv pre s) (hok : ∀ s', loopStep s c = .ok s' → StepOk pre s c s') :
    NotReopened s c := by
  intro i e hc hi hwrite hnone
  subst hc
  have hsent := (hok _ rfl).notSent i true e rfl hi hwrite
  cases h.entries e (List.mem_of_getElem? hi) with
  | marker hunused _ => cases hunused.symm.trans hwrite
  | read hread _ _ => cases hread.symm.trans hwrite
  | write _ groupEnd filePath =>
    obtain ⟨path,hpath⟩ := Option.ne_none_iff_exists'.mp filePath
    have hread : e.direction ≠ .readEnd := by
      rw [hwrite]
      nofun
    unfold visit visitEntry at hsent
    rw [hi] at hsent
    dsimp only at hsent
    rw [groupEnd, if_neg Bool.false_ne_true, fileSynchronizerReadNextFileChunk, if_pos hread] at hsent
    dsimp only at hsent
    rw [fileSynchronizerOpenFileForReading, hpath] at hsent
    dsimp only at hsent
    rw [hnone] at hsent
    have hlength := congrArg List.length hsent
    simp [SyncLoop.send] at hlength

theorem RolesKept.inv (h : RolesKept enabledActions files calls) {post : List LoopCall}
    (hsplit : calls = pre ++ post) (hr : loopRun enabledActions files pre = .ok s) : LoopInv pre s := by
  induction pre using List.reverseRecOn generalizing s post with
  | nil =>
    cases hr
    exact start_loopInv
  | append_singleton pre c ih =>
    obtain ⟨s₀,hr₀,hstep⟩ := loopRun_snoc hr
    rw [List.append_assoc, List.singleton_append] at hsplit
    have hinv := ih hsplit hr₀
    exact hinv.step (hinv.notReopened (fun s' hs' => (h pre _ s₀ hsplit hr₀).2 c post s' rfl hs')) hstep

/-- The entries keep their roles exactly as long as no received file without a handle is
opened for reading. -/
theorem roles_kept_iff (enabledActions : ℕ) (files : Path → Option (List UInt8)) (calls : List LoopCall) :
    RolesKept enabledActions files calls ↔ NeverReopened enabledActions files calls := by
  constructor
  · intro h pre i post s e hsplit hr hi hwrite
    have hnot := (h.inv hsplit hr).notReopened (c := .visit i true)
      (fun s' hs' => (h pre _ s hsplit hr).2 _ post s' rfl hs')
    exact hnot i e rfl hi hwrite
  · intro h pre post s hsplit hr
    refine ⟨(h.inv hsplit hr).state,fun c post' s' hpost hstep => ?_⟩
    subst hpost
    exact (h.inv hsplit hr).stepOk (h.notReopened hsplit hr) hstep

def takenName : List LoopCall := [.received (.metadata ⟨7,0,⟨0,0⟩,0,['a']⟩ true false),.visit 0 true]

/-- The metadata of the received file goes back to the peer. -/
theorem takenName_not_kept : ¬RolesKept 0 (fun _ => some [1]) takenName := by
  intro h
  have hrun : ∃ s, loopRun 0 (fun _ => some [1]) [.received (.metadata ⟨7,0,⟨0,0⟩,0,['a']⟩ true false)] = .ok s ∧
      s.synchronizer.transferringFiles[0]?.map (fun e => (e.direction,e.fileHandle)) = some (.writeEnd,none) ∧
      (visit s 0 true).sent.length = 1 ∧ s.sent.length = 0 := ⟨_,rfl,rfl,rfl,rfl⟩
  obtain ⟨s,hs,hentry,hafter,hbefore⟩ := hrun
  obtain ⟨e,he,hfields⟩ := Option.map_eq_some_iff.mp hentry
  have hsent := ((h _ [.visit 0 true] s rfl hs).2 (.visit 0 true) [] _ rfl rfl).notSent 0 true e rfl he
    (congrArg Prod.fst hfields)
  rw [hsent, hbefore] at hafter
  cases hafter

end Whist.File
