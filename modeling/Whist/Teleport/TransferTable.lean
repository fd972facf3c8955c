import Whist.Foundation.Run
import Whist.Teleport.DragDrop

/-! # The transfer table is exact -/
namespace Whist.Teleport

variable {ι φ : Type}

section UpdateFirst
variable {α : Type} {p : α → Bool} {f : α → α} {l : List α}

theorem length_updateFirst : (updateFirst p f l).length = l.length := by
  induction l with
  | nil => rfl
  | cons a l ih =>
    rw [updateFirst]
    split_ifs
    · rfl
    · rw [List.length_cons, ih, List.length_cons]

theorem map_updateFirst {β : Type} {g : α → β} (h : ∀ a, g (f a) = g a) :
    (updateFirst p f l).map g = l.map g := by
  induction l with
  | nil => rfl
  | cons a l ih =>
    rw [updateFirst]
    split_ifs
    · rw [List.map_cons, h, List.map_cons]
    · rw [List.map_cons, ih, List.map_cons]

theorem mem_updateFirst {b : α} (h : b ∈ updateFirst p f l) :
    b ∈ l ∨ ∃ a ∈ l, p a = true ∧ b = f a := by
  induction l with
  | nil => cases h
  | cons a l ih =>
    rw [updateFirst] at h
    split_ifs at h with hp
    · rcases List.mem_cons.mp h with rfl | h
      · exact .inr ⟨a,by simp,hp,rfl⟩
      · exact .inl (List.mem_cons_of_mem _ h)
    · rcases List.mem_cons.mp h with rfl | h
      · exact .inl (by simp)
      · rcases ih h with h | ⟨a',ha',hb⟩
        · exact .inl (List.mem_cons_of_mem _ h)
        · exact .inr ⟨a',List.mem_cons_of_mem _ ha',hb⟩

theorem mem_updateFirst_unique {a b : α} (hl : l.Nodup) (hu : ∀ c ∈ l, p c = true → c = a)
    (h : b ∈ updateFirst p f l) : b ∈ l ∧ p b = false ∨ b = f a := by
  induction l with
  | nil => cases h
  | cons c l ih =>
    obtain ⟨hc,hl⟩ := List.nodup_cons.mp hl
    have hu' : ∀ d ∈ l, p d = true → d = a := fun d hd => hu d (List.mem_cons_of_mem _ hd)
    rw [updateFirst] at h
    split_ifs at h with hp
    · rcases List.mem_cons.mp h with rfl | h
      · exact .inr (by rw [hu c (by simp) hp])
      · refine .inl ⟨List.mem_cons_of_mem _ h,?_⟩
        by_contra hb
        have hb := hu' b h (by simpa using hb)
        exact hc (hu c (by simp) hp ▸ hb ▸ h)
    · rcases List.mem_cons.mp h with rfl | h
      · exact .inl ⟨by simp,by simpa using hp⟩
      · exact (ih hl hu' h).imp_left fun hb => ⟨List.mem_cons_of_mem _ hb.1,hb.2⟩

theorem mem_updateFirst_of_not {a : α} (h : a ∈ l) (hp : p a = false) : a ∈ updateFirst p f l := by
  induction l with
  | nil => cases h
  | cons b l ih =>
    rw [updateFirst]
    split_ifs with hb
    · rcases List.mem_cons.mp h with rfl | h
      · rw [hp] at hb
        cases hb
      · exact List.mem_cons_of_mem _ h
    · rcases List.mem_cons.mp h with rfl | h
      · simp
      · exact List.mem_cons_of_mem _ (ih h)

theorem mem_updateFirst_of_unique {a : α} (h : a ∈ l) (hp : p a = true)
    (hu : ∀ b ∈ l, p b = true → b = a) : f a ∈ updateFirst p f l := by
  induction l with
  | nil => cases h
  | cons b l ih =>
    rw [updateFirst]
    split_ifs with hb
    · rw [hu b (by simp) hb]
      simp
    · rcases List.mem_cons.mp h with rfl | h
      · exact absurd hp hb
      · exact List.mem_cons_of_mem _ (ih h fun c hc => hu c (List.mem_cons_of_mem _ hc))

end UpdateFirst

def newIds (q : List (Event ι φ)) : Set ι := { id | .newId id ∈ q }

def Announced (owners : List ι) : Set ι → List (Event ι φ) → Prop
  | _, [] => True
  | K, .newId id :: q => id ∉ K ∧ Announced owners (insert id K) q
  | K, .readyFile id :: q => id ∈ K ∧ Announced owners K q
  | K, .fileCreate wd _ :: q | K, .ignored wd :: q =>
    (∃ id ∈ K, owners[wd]? = some id) ∧ Announced owners K q

/-- The event may follow, when the transfers in `K` are known. -/
def MayFollow (owners : List ι) (K : Set ι) : Event ι φ → Prop
  | .newId id => id ∉ K
  | .readyFile id => id ∈ K
  | .fileCreate wd _ | .ignored wd => ∃ id ∈ K, owners[wd]? = some id

theorem mem_newIds {id : ι} {q : List (Event ι φ)} : id ∈ newIds q ↔ .newId id ∈ q := Iff.rfl

theorem Announced.append {owners : List ι} {K : Set ι} {q : List (Event ι φ)} {e : Event ι φ}
    (h : Announced owners K q) (he : MayFollow owners (K ∪ newIds q) e) :
    Announced owners K (q ++ [e]) := by
  induction q generalizing K with
  | nil =>
    have hK : K ∪ newIds ([] : List (Event ι φ)) = K := by
      ext id
      simp [newIds]
    rw [hK] at he
    cases e <;> exact ⟨he,trivial⟩
  | cons a q ih =>
    cases a with
    | newId id =>
      have hK : K ∪ newIds (.newId id :: q) = insert id K ∪ newIds q := by
        ext id'
        simp only [Set.mem_union, mem_newIds, List.mem_cons, Event.newId.injEq, Set.mem_insert_iff]
        tauto
      exact ⟨h.1,ih h.2 (hK ▸ he)⟩
    | readyFile id =>
      have hK : newIds (.readyFile id :: q) = newIds q := by
        ext id'
        simp [newIds]
      exact ⟨h.1,ih h.2 (hK ▸ he)⟩
    | fileCreate wd filename =>
      have hK : newIds (.fileCreate wd filename :: q) = newIds q := by
        ext id'
        simp [newIds]
      exact ⟨h.1,ih h.2 (hK ▸ he)⟩
    | ignored wd =>
      have hK : newIds (.ignored wd :: q : List (Event ι φ)) = newIds q := by
        ext id'
        simp [newIds]
      exact ⟨h.1,ih h.2 (hK ▸ he)⟩

theorem Announced.owners_append {owners : List ι} {K : Set ι} {q : List (Event ι φ)}
    (h : Announced owners K q) (id : ι) : Announced (owners ++ [id]) K q := by
  have hget : ∀ {wd : ℕ} {i : ι}, owners[wd]? = some i → (owners ++ [id])[wd]? = some i := by
    intro wd i hi
    rwa [List.getElem?_append_left (List.getElem?_eq_some_iff.mp hi).1]
  induction q generalizing K with
  | nil => trivial
  | cons a q ih =>
    cases a with
    | newId i => exact ⟨h.1,ih h.2⟩
    | readyFile i => exact ⟨h.1,ih h.2⟩
    | fileCreate wd filename => exact ⟨h.1.imp fun i hi => ⟨hi.1,hget hi.2⟩,ih h.2⟩
    | ignored wd => exact ⟨h.1.imp fun i hi => ⟨hi.1,hget hi.2⟩,ih h.2⟩

variable [DecidableEq ι]

def ids (s : State ι φ) : Set ι := { id | ∃ e ∈ s.table, e.id = id }

/-- What holds from the first watch on, where `K` are the transfers that no event announces. -/
structure Common (K : Set ι) (s : State ι φ) : Prop where
  inBounds : s.outOfBounds = false
  next : s.nextTransferIdx = s.table.length
  used : s.table.length ≤ MAX_TRANSFERS
  once : (s.table.map FileTransferContext.id).Nodup
  owned : ∀ id wd, s.live id = some wd → s.owners[wd]? = some id
  owners : s.owners.Nodup
  queue : Announced s.owners K s.queue
  created : ∀ id ∈ K ∪ newIds s.queue, id ∈ s.downloads
  known : ∀ id ∈ s.downloads, id ∈ K ∪ newIds s.queue
  watched : ∀ id ∈ s.owners, id ∈ K ∪ newIds s.queue
  fileDir : ∀ id, (s.file id).isSome → id ∈ s.downloads
  readyFile : ∀ id ∈ s.ready, (s.file id).isSome

structure Grows (s t : State ι φ) : Prop where
  pc : t.pc = s.pc
  table : t.table = s.table
  owners : t.owners = s.owners
  live : t.live = s.live
  downloadsWatch : t.downloadsWatch = s.downloadsWatch
  readyWatch : t.readyWatch = s.readyWatch
  queue : s.queue ⊆ t.queue
  ready : s.ready ⊆ t.ready
  newReady : ∀ id ∈ t.ready, id ∈ s.ready ∨ (s.readyWatch = true → .readyFile id ∈ t.queue)
  newFile : ∀ id filename, t.file id = some filename → s.file id = some filename ∨
    id ∈ s.downloads ∧ ∀ wd, s.live id = some wd → .fileCreate wd filename ∈ t.queue

def Move.isProtocol : Move ι φ → Bool
  | .watch _ => false
  | _ => true

variable {s t : State ι φ} {K : Set ι}

omit [DecidableEq ι] in
theorem subset_emit (s : State ι φ) (watching : Bool) (e : Event ι φ) : s.queue ⊆ s.emit watching e := by
  unfold State.emit
  split_ifs
  · exact List.subset_append_left _ _
  · exact List.Subset.refl _

theorem protocol_grows {m : Move ι φ} (hm : m.isProtocol = true) (h : s.protocol m = some t) :
    Grows s t := by
  cases m with
  | watch next => cases hm
  | createInfo id fileSize =>
    simp only [State.protocol] at h
    split_ifs at h
    obtain rfl := Option.some.inj h
    exact ⟨rfl,rfl,rfl,rfl,rfl,rfl,List.Subset.refl _,List.Subset.refl _,fun _ h => .inl h,
      fun _ _ h => .inl h⟩
  | createDownload id =>
    simp only [State.protocol] at h
    split_ifs at h
    obtain rfl := Option.some.inj h
    exact ⟨rfl,rfl,rfl,rfl,rfl,rfl,subset_emit s _ _,List.Subset.refl _,fun _ h => .inl h,
      fun _ _ h => .inl h⟩
  | createFile id filename =>
    simp only [State.protocol] at h
    split_ifs at h with hid
    obtain rfl := Option.some.inj h
    refine ⟨rfl,rfl,rfl,rfl,rfl,rfl,?_,List.Subset.refl _,fun _ h => .inl h,?_⟩
    · dsimp only
      split
      · exact List.subset_append_left _ _
      · exact List.Subset.refl _
    · intro id' n hn
      by_cases heq : id' = id
      · subst heq
        refine .inr ⟨hid.1,fun wd hwd => ?_⟩
        simp only [Function.update_self, Option.some.injEq] at hn
        simp [hwd, hn]
      · exact .inl (by simpa [heq] using hn)
  | createReady id =>
    simp only [State.protocol] at h
    split_ifs at h
    obtain rfl := Option.some.inj h
    refine ⟨rfl,rfl,rfl,rfl,rfl,rfl,subset_emit s _ _,List.subset_cons_self _ _,?_,fun _ _ h => .inl h⟩
    intro id' hid'
    rcases List.mem_cons.mp hid' with rfl | hid'
    · exact .inr fun hw => by simp [State.emit, hw]
    · exact .inl hid'

theorem Common.protocol (h : Common K s) (hw : s.downloadsWatch = true) {m : Move ι φ}
    (hm : m.isProtocol = true) (ht : s.protocol m = some t) : Common K t := by
  cases m with
  | watch next => cases hm
  | createInfo id fileSize =>
    simp only [State.protocol] at ht
    split_ifs at ht
    obtain rfl := Option.some.inj ht
    exact ⟨h.inBounds,h.next,h.used,h.once,h.owned,h.owners,h.queue,h.created,h.known,h.watched,
      h.fileDir,h.readyFile⟩
  | createDownload id =>
    simp only [State.protocol] at ht
    split_ifs at ht with hid
    obtain rfl := Option.some.inj ht
    have hnew : newIds (s.emit s.downloadsWatch (.newId id)) = insert id (newIds s.queue) := by
      ext id'
      simp only [State.emit, hw, if_true, mem_newIds, List.mem_append, List.mem_singleton,
        Event.newId.injEq, Set.mem_insert_iff]
      exact or_comm
    have hgrow : ∀ id', id' ∈ K ∪ newIds s.queue →
        id' ∈ K ∪ newIds (s.emit s.downloadsWatch (.newId id)) := fun id' hid' => by
      rw [hnew]
      exact hid'.imp_right (Set.mem_insert_of_mem _)
    refine ⟨h.inBounds,h.next,h.used,h.once,h.owned,h.owners,?_,?_,?_,fun i hi => hgrow i (h.watched i hi),
      fun i hi => List.mem_cons_of_mem _ (h.fileDir i hi),h.readyFile⟩
    · simp only [State.emit, hw, if_true]
      exact h.queue.append fun hmem => hid.2 (h.created id hmem)
    · intro id' hid'
      rw [hnew, Set.union_insert] at hid'
      rcases hid' with rfl | hid'
      · simp
      · exact List.mem_cons_of_mem _ (h.created id' hid')
    · intro id' hid'
      rcases List.mem_cons.mp hid' with rfl | hid'
      · rw [hnew]
        exact .inr (Set.mem_insert _ _)
      · exact hgrow id' (h.known id' hid')
  | createFile id filename =>
    simp only [State.protocol] at ht
    split_ifs at ht with hid
    obtain rfl := Option.some.inj ht
    have hfile : ∀ i, (Function.update s.file id (some filename) i).isSome → i ∈ s.downloads := by
      intro i hi
      by_cases heq : i = id
      · exact heq ▸ hid.1
      · exact h.fileDir i (by simpa [heq] using hi)
    have hready : ∀ i ∈ s.ready, (Function.update s.file id (some filename) i).isSome := by
      intro i hi
      by_cases heq : i = id
      · simp [heq]
      · simpa [heq] using h.readyFile i hi
    cases hlive : s.live id with
    | none =>
      exact ⟨h.inBounds,h.next,h.used,h.once,h.owned,h.owners,h.queue,h.created,h.known,h.watched,
        hfile,hready⟩
    | some wd =>
      have hnew : newIds (s.queue ++ [.fileCreate wd filename]) = newIds s.queue := by
        ext i
        simp [mem_newIds]
      refine ⟨h.inBounds,h.next,h.used,h.once,h.owned,h.owners,?_,?_,?_,?_,hfile,hready⟩
      · exact h.queue.append ⟨id,h.known id hid.1,h.owned id wd hlive⟩
      all_goals
        rw [hnew]
      · exact h.created
      · exact h.known
      · exact h.watched
  | createReady id =>
    simp only [State.protocol] at ht
    split_ifs at ht with hid
    obtain rfl := Option.some.inj ht
    have hdir : id ∈ s.downloads := h.fileDir id hid.1
    have hnew : newIds (s.emit s.readyWatch (.readyFile id)) = newIds s.queue := by
      ext i
      unfold State.emit
      split_ifs <;> simp [mem_newIds]
    refine ⟨h.inBounds,h.next,h.used,h.once,h.owned,h.owners,?_,?_,?_,?_,h.fileDir,?_⟩
    · unfold State.emit
      split_ifs
      · exact h.queue.append (h.known id hdir)
      · exact h.queue
    · exact hnew ▸ h.created
    · exact hnew ▸ h.known
    · exact hnew ▸ h.watched
    · intro i hi
      rcases List.mem_cons.mp hi with rfl | hi
      · exact hid.1
      · exact h.readyFile i hi

theorem searchId_of_le (h : s.nextTransferIdx ≤ MAX_TRANSFERS) (id : ι) : s.searchId id = s := by
  rw [State.searchId, if_neg]
  simp [h]

structure Watched (s : State ι φ) (id : ι) (r : ℕ × State ι φ) : Prop where
  same : r.2 = { s with owners := r.2.owners, live := r.2.live }
  live : r.2.live id = some r.1
  others : ∀ i, i ≠ id → r.2.live i = s.live i
  kept : ∀ (wd : ℕ) (i : ι), s.owners[wd]? = some i → r.2.owners[wd]? = some i
  owner : ∀ i ∈ r.2.owners, i = id ∨ i ∈ s.owners

theorem addWatch_spec (h : Common K s) {id : ι} (hid : id ∈ K ∪ newIds s.queue)
    (hfresh : s.live id = none → id ∉ s.owners) :
    Common K (s.addWatch id).2 ∧ Watched s id (s.addWatch id) := by
  unfold State.addWatch
  cases hlive : s.live id with
  | some wd => exact ⟨h,rfl,hlive,fun _ _ => rfl,fun _ _ hi => hi,fun _ hi => .inr hi⟩
  | none =>
    dsimp only
    have hkept : ∀ (wd : ℕ) (i : ι), s.owners[wd]? = some i → (s.owners ++ [id])[wd]? = some i := by
      intro wd i hi
      rwa [List.getElem?_append_left (List.getElem?_eq_some_iff.mp hi).1]
    refine ⟨⟨h.inBounds,h.next,h.used,h.once,?_,?_,h.queue.owners_append id,h.created,h.known,?_,
      h.fileDir,h.readyFile⟩,rfl,?_,?_,hkept,?_⟩
    · intro i wd hi
      by_cases heq : i = id
      · subst heq
        simp only [Function.update_self, Option.some.injEq] at hi
        simp [← hi]
      · simp only [Function.update_of_ne heq] at hi
        exact hkept wd i (h.owned i wd hi)
    · rw [List.nodup_append]
      refine ⟨h.owners,by simp,?_⟩
      rintro i hi j hj rfl
      exact hfresh hlive (List.mem_singleton.mp hj ▸ hi)
    · intro i hi
      rcases List.mem_append.mp hi with hi | hi
      · exact h.watched i hi
      · exact List.mem_singleton.mp hi ▸ hid
    · simp
    · intro i hi
      simp [hi]
    · intro i hi
      rcases List.mem_append.mp hi with hi | hi
      · exact .inr hi
      · exact .inl (List.mem_singleton.mp hi)

def State.newEntry (s : State ι φ) (id : ι) (wd : ℕ) : FileTransferContext ι φ :=
  ⟨id,false,false,none,wd,(s.fileSize id).getD (-1)⟩

def State.register (s : State ι φ) (scan : Option (ScanState ι)) (id : ι) : State ι φ :=
  { (s.addWatch id).2 with
    table := s.table ++ [s.newEntry id (s.addWatch id).1]
    nextTransferIdx := s.nextTransferIdx + 1
    pc := .checkFile scan (s.addWatch id).1 id }

theorem inotifyHandleNewId_eq (h : s.nextTransferIdx < MAX_TRANSFERS) (scan : Option (ScanState ι))
    (id : ι) : s.inotifyHandleNewId scan id = s.register scan id := by
  unfold State.inotifyHandleNewId State.register
  dsimp only
  rw [searchId_of_le h.le, if_pos h]
  unfold State.addWatch
  cases hl : s.live id <;> rfl

omit [DecidableEq ι] in
theorem ids_append (l : List (FileTransferContext ι φ)) (e : FileTransferContext ι φ) {id : ι} :
    (∃ e' ∈ l ++ [e], e'.id = id) ↔ (∃ e' ∈ l, e'.id = id) ∨ id = e.id := by
  simp only [List.mem_append, List.mem_singleton]
  constructor
  · rintro ⟨e',he' | rfl,rfl⟩
    · exact .inl ⟨e',he',rfl⟩
    · exact .inr rfl
  · rintro (⟨e',he',rfl⟩ | rfl)
    · exact ⟨e',.inl he',rfl⟩
    · exact ⟨e,.inr rfl,rfl⟩

theorem Common.register (h : Common K s) (hfull : s.nextTransferIdx < MAX_TRANSFERS) {id : ι}
    (hid : id ∈ K ∪ newIds s.queue) (hfresh : s.live id = none → id ∉ s.owners) (hnew : id ∉ ids s)
    (scan : Option (ScanState ι)) : Common K (s.register scan id) := by
  obtain ⟨hcommon,hwatch⟩ := addWatch_spec h hid hfresh
  have hsame := hwatch.same
  unfold State.register
  rw [hsame] at hcommon ⊢
  refine ⟨hcommon.inBounds,?_,?_,?_,hcommon.owned,hcommon.owners,hcommon.queue,hcommon.created,
    hcommon.known,hcommon.watched,hcommon.fileDir,hcommon.readyFile⟩
  · simp [h.next]
  · have hlen := h.next
    simp only [List.length_append, List.length_singleton]
    omega
  · rw [List.map_append, List.nodup_append]
    refine ⟨h.once,by simp,?_⟩
    rintro i hi j hj rfl
    obtain ⟨e,he,rfl⟩ := List.mem_map.mp hi
    simp only [List.map_cons, List.map_nil, List.mem_singleton, State.newEntry] at hj
    exact hnew ⟨e,he,hj⟩

def Stage (early earlyReady : Set ι) (s : State ι φ) : Pc ι → Prop
  | .addReadyWatch => s.readyWatch = false ∧ s.table = []
  | .openDownloads => s.readyWatch = true ∧ s.table = []
  | .scanDownloads left seen => s.readyWatch = true ∧ (∀ i ∈ early, i ∈ left) ∧
      (∀ i ∈ earlyReady, i ∈ left) ∧ ∀ i ∈ ids s, i ∈ seen
  | .handleNewId (some (left,seen)) id => s.readyWatch = true ∧ (∀ i ∈ early, i ∈ left) ∧
      (∀ i ∈ earlyReady, i = id ∨ i ∈ left) ∧ (∀ i ∈ ids s, i ∈ seen ∧ i ≠ id) ∧ id ∈ seen ∧
      id ∈ newIds s.queue
  | .checkFile (some (left,seen)) _ id => s.readyWatch = true ∧ (∀ i ∈ early, i ∈ left) ∧
      (∀ i ∈ earlyReady, i = id ∨ i ∈ left) ∧ ∀ i ∈ ids s, i ∈ seen
  | .openReady | .scanReady .. | .wipe => s.readyWatch = true ∧ (∀ i, i ∉ early) ∧ ∀ i, i ∉ earlyReady
  | _ => False

structure Startup (early earlyReady : Set ι) (s : State ι φ) : Prop where
  common : Common early s
  watching : s.downloadsWatch = true
  alive : ∀ id ∈ s.owners, s.live id ≠ none
  reported : s.readyWatch = true → ∀ id ∈ s.ready, id ∈ earlyReady ∨ .readyFile id ∈ s.queue
  before : ∀ id ∈ earlyReady, id ∈ s.ready
  stage : Stage early earlyReady s s.pc

variable {early earlyReady : Set ι}

omit [DecidableEq ι] in
theorem Grows.ids (h : Grows s t) : ids t = ids s := by
  unfold Teleport.ids
  rw [h.table]

omit [DecidableEq ι] in
theorem Stage.grows {p : Pc ι} (h : Stage early earlyReady s p) (hg : Grows s t) :
    Stage early earlyReady t p := by
  unfold Stage at h ⊢
  rw [hg.ids, hg.readyWatch, hg.table]
  split at h
  all_goals first
    | exact h
    | exact ⟨h.1,h.2.1,h.2.2.1,h.2.2.2.1,h.2.2.2.2.1,hg.queue h.2.2.2.2.2⟩

theorem Startup.protocol (h : Startup early earlyReady s) {m : Move ι φ} (hm : m.isProtocol = true)
    (ht : s.protocol m = some t) : Startup early earlyReady t := by
  have hg := protocol_grows hm ht
  refine ⟨h.common.protocol h.watching hm ht,hg.downloadsWatch ▸ h.watching,?_,?_,
    fun i hi => hg.ready (h.before i hi),hg.pc ▸ h.stage.grows hg⟩
  · rw [hg.owners, hg.live]
    exact h.alive
  · intro hw i hi
    rw [hg.readyWatch] at hw
    rcases hg.newReady i hi with hold | hnew
    · exact (h.reported hw i hold).imp_right fun hq => hg.queue hq
    · exact .inr (hnew hw)

theorem searchId_table (s : State ι φ) (id : ι) : (s.searchId id).table = s.table := by
  unfold State.searchId
  split_ifs <;> rfl

theorem map_close (s : State ι φ) (id : ι) :
    (s.inotifyHandleFileClose id).table.map FileTransferContext.id =
      s.table.map FileTransferContext.id := by
  rw [← searchId_table s id]
  unfold State.inotifyHandleFileClose
  dsimp only
  split_ifs
  · exact map_updateFirst fun _ => rfl
  · rfl

theorem ids_close (s : State ι φ) (id : ι) : ids (s.inotifyHandleFileClose id) = ids s := by
  ext i
  have hmem := congrArg (i ∈ ·) (map_close s id)
  simp only [List.mem_map, eq_iff_iff] at hmem
  exact hmem

theorem close_eq (h : s.nextTransferIdx ≤ MAX_TRANSFERS) (id : ι) :
    s.inotifyHandleFileClose id = { s with table := (s.inotifyHandleFileClose id).table } := by
  unfold State.inotifyHandleFileClose
  dsimp only
  rw [searchId_of_le h]
  split_ifs <;> rfl

theorem mem_close (h : s.nextTransferIdx ≤ MAX_TRANSFERS) {id : ι} {e : FileTransferContext ι φ}
    (he : e ∈ (s.inotifyHandleFileClose id).table) :
    e ∈ s.table ∨ ∃ e' ∈ s.table, e = { e' with dataReady := true } := by
  unfold State.inotifyHandleFileClose at he
  dsimp only at he
  rw [searchId_of_le h] at he
  split_ifs at he
  · rcases mem_updateFirst he with he | ⟨e',he',-,rfl⟩
    · exact .inl he
    · exact .inr ⟨e',he',rfl⟩
  · exact .inl he

theorem Common.close (h : Common K s) (id : ι) : Common K (s.inotifyHandleFileClose id) := by
  have hle : s.nextTransferIdx ≤ MAX_TRANSFERS := h.next ▸ h.used
  have hmap := map_close s id
  have hlen : (s.inotifyHandleFileClose id).table.length = s.table.length := by
    simpa using congrArg List.length hmap
  rw [close_eq hle]
  exact ⟨h.inBounds,h.next.trans hlen.symm,hlen.le.trans h.used,by simpa only [hmap] using h.once,h.owned,
    h.owners,h.queue,h.created,h.known,h.watched,h.fileDir,h.readyFile⟩

def Current (s : State ι φ) (id : ι) : Prop :=
  s.pc = .handleNewId none id ∨ ∃ wd, s.pc = .checkFile none wd id

def registered (s : State ι φ) : Set ι := ids s ∪ { id | s.pc = .handleNewId none id }

structure Running (s : State ι φ) : Prop where
  common : Common (registered s) s
  downloadsWatch : s.downloadsWatch = true
  readyWatch : s.readyWatch = true
  place : s.pc = .readEvent ∨ (∃ id, s.pc = .handleNewId none id ∧ id ∉ ids s) ∨
    ∃ wd id, s.pc = .checkFile none wd id ∧ ∃ e ∈ s.table, e.id = id ∧ e.createWd = wd
  entries : ∀ e ∈ s.table, s.owners[e.createWd]? = some e.id ∧
    (e.active = false → s.live e.id = some e.createWd)
  unregistered : ∀ id ∈ s.owners, id ∈ ids s ∨ s.live id ≠ none

/-- Every file, outside `X`, is known or will be. -/
def Files (X : Set ι) (s : State ι φ) : Prop :=
  ∀ id filename, s.file id = some filename → id ∈ X ∨ id ∈ newIds s.queue ∨ Current s id ∨
    ∃ e ∈ s.table, e.id = id ∧ (e.active = true ∨ .fileCreate e.createWd filename ∈ s.queue)

/-- Every readyfile, outside `X`, is known or will be. -/
def Readies (X : Set ι) (s : State ι φ) : Prop :=
  ∀ id ∈ s.ready, id ∈ X ∨ .readyFile id ∈ s.queue ∨ ∃ e ∈ s.table, e.id = id ∧ e.dataReady = true

omit [DecidableEq ι] in
theorem Grows.registered (h : Grows s t) : registered t = registered s := by
  unfold Teleport.registered
  rw [h.ids, h.pc]

theorem Running.protocol (h : Running s) {m : Move ι φ} (hm : m.isProtocol = true)
    (ht : s.protocol m = some t) : Running t := by
  have hg := protocol_grows hm ht
  refine ⟨hg.registered ▸ h.common.protocol h.downloadsWatch hm ht,hg.downloadsWatch ▸ h.downloadsWatch,
    hg.readyWatch ▸ h.readyWatch,?_,?_,?_⟩
  · rw [hg.pc, hg.ids, hg.table]
    exact h.place
  · rw [hg.table, hg.owners, hg.live]
    exact h.entries
  · rw [hg.owners, hg.live, hg.ids]
    exact h.unregistered

theorem Readies.protocol (hr : Readies ∅ s) (h : Running s) {m : Move ι φ} (hm : m.isProtocol = true)
    (ht : s.protocol m = some t) : Readies ∅ t := by
  have hg := protocol_grows hm ht
  intro id hid
  rw [hg.table]
  rcases hg.newReady id hid with hold | hnew
  · exact (hr id hold).imp_right fun hq => hq.imp_left fun hq => hg.queue hq
  · exact .inr (.inl (hnew h.readyWatch))

theorem Files.protocol (hf : Files ∅ s) (h : Running s) {m : Move ι φ} (hm : m.isProtocol = true)
    (ht : s.protocol m = some t) : Files ∅ t := by
  have hg := protocol_grows hm ht
  have hcurrent : ∀ id, Current s id → Current t id := by
    intro id
    unfold Current
    rw [hg.pc]
    exact fun hc => hc
  intro id filename hfile
  rw [hg.table]
  rcases hg.newFile id filename hfile with hold | ⟨hdir,hevent⟩
  · rcases hf id filename hold with hx | hq | hc | ⟨e,he,hid,ha⟩
    · exact .inl hx
    · exact .inr (.inl (hg.queue hq))
    · exact .inr (.inr (.inl (hcurrent id hc)))
    · exact .inr (.inr (.inr ⟨e,he,hid,ha.imp_right fun hq => hg.queue hq⟩))
  · rcases h.common.known id hdir with (⟨e,he,rfl⟩ | hpc) | hq
    · refine .inr (.inr (.inr ⟨e,he,rfl,?_⟩))
      cases ha : e.active with
      | true => exact .inl rfl
      | false => exact .inr (hevent _ ((h.entries e he).2 ha))
    · exact .inr (.inr (.inl (hcurrent id (.inl hpc))))
    · exact .inr (.inl (hg.queue hq))

omit [DecidableEq ι] in
theorem Common.entry_unique (h : Common K s) {e e' : FileTransferContext ι φ} (he : e ∈ s.table)
    (he' : e' ∈ s.table) (hid : e'.id = e.id) : e' = e :=
  List.inj_on_of_nodup_map h.once he' he hid

omit [DecidableEq ι] in
theorem Running.createWd_eq (h : Running s) {e : FileTransferContext ι φ} (he : e ∈ s.table) {wd : ℕ}
    (hwd : s.owners[wd]? = some e.id) : e.createWd = wd := by
  have hown := (h.entries e he).1
  exact (List.getElem?_inj (List.getElem?_eq_some_iff.mp hown).1 h.common.owners).mp (hown.trans hwd.symm)

omit [DecidableEq ι] in
theorem Running.entry_of_createWd (h : Running s) {e e' : FileTransferContext ι φ} (he : e ∈ s.table)
    (he' : e' ∈ s.table) (hwd : e'.createWd = e.createWd) : e' = e := by
  apply h.common.entry_unique he he'
  have hown := (h.entries e' he').1
  rw [hwd, (h.entries e he).1] at hown
  exact (Option.some.inj hown).symm

omit [DecidableEq ι] in
theorem Running.find (h : Running s) {e : FileTransferContext ι φ} (he : e ∈ s.table) :
    s.table.find? (fun e' => decide (e'.createWd = e.createWd)) = some e := by
  cases hfind : s.table.find? (fun e' => decide (e'.createWd = e.createWd)) with
  | none => exact absurd (List.find?_eq_none.mp hfind e he) (by simp)
  | some e' =>
    have hwd := List.find?_some hfind
    rw [h.entry_of_createWd he (List.mem_of_find?_eq_some hfind) (by simpa using hwd)]

theorem Running.activate_eq (h : Running s) {e : FileTransferContext ι φ} (he : e ∈ s.table)
    (ha : e.active = false) (filename : Option φ) :
    s.inotifyHandleFileCreate e.createWd filename =
      { s.activate e.createWd filename with
        live := Function.update s.live e.id none
        queue := s.queue ++ [.ignored e.createWd] } := by
  obtain ⟨hown,hlive⟩ := h.entries e he
  unfold State.inotifyHandleFileCreate
  rw [h.find he]
  dsimp only
  rw [ha, if_neg (by decide), State.rmWatch]
  have howners : (s.activate e.createWd filename).owners = s.owners := rfl
  rw [howners, hown]
  exact if_pos (hlive ha)

/-- An entry as `activate` leaves it. -/
def FileTransferContext.activated (e : FileTransferContext ι φ) (filename : Option φ) :
    FileTransferContext ι φ :=
  { e with active := true, filename := filename }

omit [DecidableEq ι] in
theorem ids_activate (s : State ι φ) (wd : ℕ) (filename : Option φ) :
    ids (s.activate wd filename) = ids s := by
  ext i
  have hmap : (s.activate wd filename).table.map FileTransferContext.id =
      s.table.map FileTransferContext.id := map_updateFirst fun _ => rfl
  have hmem := congrArg (i ∈ ·) hmap
  simp only [List.mem_map, eq_iff_iff] at hmem
  exact hmem

section Activate
variable {e : FileTransferContext ι φ} (h : Running s) (he : e ∈ s.table) (filename : Option φ)
include h he

omit [DecidableEq ι] in
theorem Running.mem_activate {e' : FileTransferContext ι φ}
    (he' : e' ∈ (s.activate e.createWd filename).table) :
    e' ∈ s.table ∧ e'.id ≠ e.id ∨ e' = e.activated filename := by
  have hu : ∀ c ∈ s.table, decide (c.createWd = e.createWd) = true → c = e := fun c hc hwd =>
    h.entry_of_createWd he hc (by simpa using hwd)
  refine (mem_updateFirst_unique (List.Nodup.of_map _ h.common.once) hu he').imp_left ?_
  rintro ⟨hmem,hwd⟩
  refine ⟨hmem,fun hid => ?_⟩
  rw [h.common.entry_unique he hmem hid] at hwd
  simp at hwd

omit [DecidableEq ι] in
theorem Running.kept_activate {e' : FileTransferContext ι φ} (he' : e' ∈ s.table) :
    ∃ e'' ∈ (s.activate e.createWd filename).table, e''.id = e'.id ∧ e''.createWd = e'.createWd ∧
      (e'.active = true → e''.active = true) ∧ (e'.dataReady = true → e''.dataReady = true) := by
  by_cases hwd : e'.createWd = e.createWd
  · obtain rfl := h.entry_of_createWd he he' hwd
    refine ⟨e'.activated filename,?_,rfl,rfl,fun _ => rfl,fun hr => hr⟩
    exact mem_updateFirst_of_unique he' (by simp) fun c hc hc' =>
      h.entry_of_createWd he' hc (by simpa using hc')
  · exact ⟨e',mem_updateFirst_of_not he' (by simpa using hwd),rfl,rfl,fun ha => ha,fun hr => hr⟩

theorem Running.create (f : Option φ) : Running (s.inotifyHandleFileCreate e.createWd f) := by
  cases ha : e.active with
  | true =>
    have hsame : s.inotifyHandleFileCreate e.createWd f = s := by
      unfold State.inotifyHandleFileCreate
      rw [h.find he]
      exact if_pos ha
    rw [hsame]
    exact h
  | false =>
    rw [h.activate_eq he ha]
    have hids := ids_activate s e.createWd f
    have hnew : newIds (s.queue ++ [.ignored e.createWd]) = newIds s.queue := by
      ext i
      simp [mem_newIds]
    have hlen : (s.activate e.createWd f).table.length = s.table.length := length_updateFirst
    have hmap : (s.activate e.createWd f).table.map FileTransferContext.id =
        s.table.map FileTransferContext.id := map_updateFirst fun _ => rfl
    have hlive : ∀ i, i ≠ e.id → Function.update s.live e.id none i = s.live i := fun i hi =>
      Function.update_of_ne hi _ _
    have c := h.common
    refine ⟨?_,h.downloadsWatch,h.readyWatch,?_,?_,?_⟩
    · have hreg : registered { s.activate e.createWd f with
          live := Function.update s.live e.id none
          queue := s.queue ++ [.ignored e.createWd] } = registered s :=
        congrArg (· ∪ { id | s.pc = .handleNewId none id }) hids
      rw [hreg]
      refine ⟨c.inBounds,c.next.trans hlen.symm,hlen.le.trans c.used,hmap ▸ c.once,?_,c.owners,?_,
        ?_,?_,?_,c.fileDir,c.readyFile⟩
      · intro i wd hi
        by_cases heq : i = e.id
        · simp [heq] at hi
        · exact c.owned i wd (hlive i heq ▸ hi)
      · exact c.queue.append ⟨e.id,.inl (.inl ⟨e,he,rfl⟩),(h.entries e he).1⟩
      all_goals
        dsimp only
        rw [hnew]
      · exact c.created
      · exact c.known
      · exact c.watched
    · rcases h.place with hpc | ⟨id,hpc,hid⟩ | ⟨wd,id,hpc,e',he',hid,hwd⟩
      · exact .inl hpc
      · exact .inr (.inl ⟨id,hpc,fun hmem => hid (hids ▸ hmem)⟩)
      · obtain ⟨e'',he'',hid',hwd',-⟩ := h.kept_activate he f he'
        exact .inr (.inr ⟨wd,id,hpc,e'',he'',hid'.trans hid,hwd'.trans hwd⟩)
    · intro e' he'
      rcases h.mem_activate he f he' with ⟨hmem,hne⟩ | rfl
      · refine ⟨(h.entries e' hmem).1,fun ha' => ?_⟩
        exact (hlive e'.id hne).trans ((h.entries e' hmem).2 ha')
      · exact ⟨(h.entries e he).1,fun ha' => by cases ha'⟩
    · intro i hi
      by_cases heq : i = e.id
      · exact .inl ⟨_,(h.kept_activate he f he).choose_spec.1,
          (h.kept_activate he f he).choose_spec.2.1.trans heq.symm⟩
      · refine (h.unregistered i hi).imp (fun hmem => ?_) fun hl => ?_
        · exact hids ▸ hmem
        · rw [← hlive i heq] at hl
          exact hl

theorem Running.files_create (hf : Files {e.id} s) (f : Option φ) :
    Files ∅ (s.inotifyHandleFileCreate e.createWd f) := by
  cases ha : e.active with
  | true =>
    have hsame : s.inotifyHandleFileCreate e.createWd f = s := by
      unfold State.inotifyHandleFileCreate
      rw [h.find he]
      exact if_pos ha
    rw [hsame]
    intro id filename hfile
    rcases hf id filename hfile with hx | hrest
    · exact .inr (.inr (.inr ⟨e,he,hx.symm,.inl ha⟩))
    · exact .inr hrest
  | false =>
    rw [h.activate_eq he ha]
    intro id filename hfile
    rcases hf id filename hfile with rfl | hq | hc | ⟨e',he',hid,hactive⟩
    · refine .inr (.inr (.inr ⟨e.activated f,?_,rfl,.inl rfl⟩))
      exact mem_updateFirst_of_unique he (by simp) fun c hc hwd =>
        h.entry_of_createWd he hc (by simpa using hwd)
    · exact .inr (.inl (List.mem_append_left _ hq))
    · exact .inr (.inr (.inl hc))
    · obtain ⟨e'',he'',hid',hwd',hactive',-⟩ := h.kept_activate he f he'
      refine .inr (.inr (.inr ⟨e'',he'',hid'.trans hid,hactive.imp hactive' fun hq => ?_⟩))
      rw [hwd']
      exact List.mem_append_left _ hq

theorem Running.readies_create {X : Set ι} (hr : Readies X s) (f : Option φ) :
    Readies X (s.inotifyHandleFileCreate e.createWd f) := by
  cases ha : e.active with
  | true =>
    have hsame : s.inotifyHandleFileCreate e.createWd f = s := by
      unfold State.inotifyHandleFileCreate
      rw [h.find he]
      exact if_pos ha
    rw [hsame]
    exact hr
  | false =>
    rw [h.activate_eq he ha]
    intro id hid
    rcases hr id hid with hx | hq | ⟨e',he',hid',hready⟩
    · exact .inl hx
    · exact .inr (.inl (List.mem_append_left _ hq))
    · obtain ⟨e'',he'',hid'',-,-,hready'⟩ := h.kept_activate he f he'
      exact .inr (.inr ⟨e'',he'',hid''.trans hid',hready' hready⟩)

end Activate

def State.pop (s : State ι φ) (q : List (Event ι φ)) : State ι φ := { s with queue := q }

omit [DecidableEq ι] in
theorem newIds_cons_of_ne {e : Event ι φ} {q : List (Event ι φ)} (he : ∀ id, e ≠ .newId id) :
    newIds (e :: q) = newIds q := by
  ext i
  simp only [mem_newIds, List.mem_cons]
  exact or_iff_right fun h => he i h.symm

omit [DecidableEq ι] in
theorem Running.pop (h : Running s) {e : Event ι φ} {q : List (Event ι φ)} (hq : s.queue = e :: q)
    (he : ∀ id, e ≠ .newId id) : Running (s.pop q) := by
  have c := h.common
  have hnew : newIds s.queue = newIds q := hq ▸ newIds_cons_of_ne he
  have hann : Announced s.owners (registered s) q := by
    have hann := c.queue
    rw [hq] at hann
    cases e with
    | newId id => exact absurd rfl (he id)
    | readyFile id => exact hann.2
    | fileCreate wd filename => exact hann.2
    | ignored wd => exact hann.2
  exact ⟨⟨c.inBounds,c.next,c.used,c.once,c.owned,c.owners,hann,hnew ▸ c.created,hnew ▸ c.known,
    hnew ▸ c.watched,c.fileDir,c.readyFile⟩,h.downloadsWatch,h.readyWatch,h.place,h.entries,h.unregistered⟩

omit [DecidableEq ι] in
theorem Files.pop (hf : Files ∅ s) {e : Event ι φ} {q : List (Event ι φ)} (hq : s.queue = e :: q)
    (he : ∀ id, e ≠ .newId id) {X : Set ι}
    (hx : ∀ e' ∈ s.table, ∀ filename, e = .fileCreate e'.createWd filename → e'.id ∈ X) :
    Files X (s.pop q) := by
  intro id filename hfile
  rcases hf id filename hfile with hno | hnew | hc | ⟨e',he',hid,hactive⟩
  · cases hno
  · rw [hq, newIds_cons_of_ne he] at hnew
    exact .inr (.inl hnew)
  · exact .inr (.inr (.inl hc))
  · rcases hactive with ha | hevent
    · exact .inr (.inr (.inr ⟨e',he',hid,.inl ha⟩))
    · rw [hq] at hevent
      rcases List.mem_cons.mp hevent with heq | hevent
      · exact .inl (hid ▸ hx e' he' filename heq.symm)
      · exact .inr (.inr (.inr ⟨e',he',hid,.inr hevent⟩))

omit [DecidableEq ι] in
theorem Readies.pop (hr : Readies ∅ s) {e : Event ι φ} {q : List (Event ι φ)} (hq : s.queue = e :: q)
    {X : Set ι} (hx : ∀ id, e = .readyFile id → id ∈ X) : Readies X (s.pop q) := by
  intro id hid
  rcases hr id hid with hno | hevent | hready
  · cases hno
  · rw [hq] at hevent
    rcases List.mem_cons.mp hevent with heq | hevent
    · exact .inl (hx id heq.symm)
    · exact .inr (.inl hevent)
  · exact .inr (.inr hready)

omit [DecidableEq ι] in
theorem Running.watchEvent (h : Running s) (hpc : s.pc = .readEvent) {wd : ℕ}
    (hmay : ∃ id ∈ registered s, s.owners[wd]? = some id) : ∃ e ∈ s.table, e.createWd = wd := by
  obtain ⟨id,hid,hown⟩ := hmay
  rcases hid with ⟨e,he,rfl⟩ | hcurrent
  · exact ⟨e,he,h.createWd_eq he hown⟩
  · change s.pc = _ at hcurrent
    rw [hpc] at hcurrent
    cases hcurrent

end Whist.Teleport
