import Whist.Scaling.System

/-! # The tables under the calls

What the mutations keep of the keys, and where a row comes from that a call leaves
behind.
-/
namespace Whist.Scaling

section
variable (db : Database) (id : String)

theorem setInstances_ids {f : Instance → Instance} (hf : ∀ i, i.id = id → (f i).id = id) :
    (db.setInstances id f).instances.map Instance.id = db.instances.map Instance.id := by
  simp only [Database.setInstances, List.map_map]
  refine List.map_congr_left (fun i _ => ?_)
  by_cases hi : i.id = id
  · simp [hi, hf i hi]
  · simp [hi]

theorem setMandelboxes_ids {f : Mandelbox → Mandelbox} (hf : ∀ m, m.id = id → (f m).id = id) :
    (db.setMandelboxes id f).mandelboxes.map Mandelbox.id = db.mandelboxes.map Mandelbox.id := by
  simp only [Database.setMandelboxes, List.map_map]
  refine List.map_congr_left (fun m _ => ?_)
  by_cases hm : m.id = id
  · simp [hm, hf m hm]
  · simp [hm]

variable {db id}

theorem mem_setInstances {f : Instance → Instance} {i : Instance} :
    i ∈ (db.setInstances id f).instances ↔
      (i ∈ db.instances ∧ i.id ≠ id) ∨ ∃ j ∈ db.instances, j.id = id ∧ f j = i := by
  simp only [Database.setInstances, List.mem_map]
  constructor
  · rintro ⟨j,hj,rfl⟩
    by_cases hid : j.id = id
    · exact Or.inr ⟨j,hj,hid,by rw [if_pos hid]⟩
    · rw [if_neg hid]
      exact Or.inl ⟨hj,hid⟩
  · rintro (⟨hi,hid⟩ | ⟨j,hj,hid,rfl⟩)
    · exact ⟨i,hi,if_neg hid⟩
    · exact ⟨j,hj,if_pos hid⟩

theorem mem_setMandelboxes {f : Mandelbox → Mandelbox} {m : Mandelbox} :
    m ∈ (db.setMandelboxes id f).mandelboxes ↔
      (m ∈ db.mandelboxes ∧ m.id ≠ id) ∨ ∃ n ∈ db.mandelboxes, n.id = id ∧ f n = m := by
  simp only [Database.setMandelboxes, List.mem_map]
  constructor
  · rintro ⟨n,hn,rfl⟩
    by_cases hid : n.id = id
    · exact Or.inr ⟨n,hn,hid,by rw [if_pos hid]⟩
    · rw [if_neg hid]
      exact Or.inl ⟨hn,hid⟩
  · rintro (⟨hm,hid⟩ | ⟨n,hn,hid,rfl⟩)
    · exact ⟨m,hm,if_neg hid⟩
    · exact ⟨n,hn,if_pos hid⟩

end

theorem images_updateImage_keys (db : Database) (image : Image) (time : ℕ) :
    (db.updateImage image time).images.map (fun i => (i.provider,i.region)) =
      db.images.map fun i => (i.provider,i.region) := by
  simp only [Database.updateImage, List.map_map]
  refine List.map_congr_left (fun i _ => ?_)
  by_cases hi : i.provider = image.provider ∧ i.region = image.region
  · simp [hi]
  · simp [hi]

variable {w : World} {pid : ℕ}

theorem World.FreshInstances.notMem {ids : List String} (h : w.FreshInstances ids) {id : String}
    (hid : id ∈ ids) : id ∉ w.launched.map Instance.id := by
  intro hmem
  obtain ⟨i,hi,rfl⟩ := List.mem_map.mp hmem
  exact h.2 i.id hid i hi rfl

theorem World.FreshMandelboxes.notMem {ids : List String} (h : w.FreshMandelboxes ids) {id : String}
    (hid : id ∈ ids) : id ∉ w.created.map Mandelbox.id := by
  intro hmem
  obtain ⟨m,hm,rfl⟩ := List.mem_map.mp hmem
  exact h.2 m.id hid m hm rfl

theorem nodup_append_of_fresh {β : Type} {key : β → String} {rows new : List β} {used : List String}
    (hrows : (rows.map key).Nodup) (hsub : ∀ x ∈ rows, key x ∈ used) (hnew : (new.map key).Nodup)
    (hfresh : ∀ x ∈ new, key x ∉ used) : ((rows ++ new).map key).Nodup := by
  rw [List.map_append, List.nodup_append]
  refine ⟨hrows,hnew,fun a ha b hb hab => ?_⟩
  obtain ⟨x,hx,rfl⟩ := List.mem_map.mp ha
  obtain ⟨y,hy,rfl⟩ := List.mem_map.mp hb
  exact hfresh y hy (hab ▸ hsub x hx)

namespace World.Sound

theorem setInstances (h : w.Sound) (id : String) {f : Instance → Instance}
    (hf : ∀ i, i.id = id → (f i).id = id) : World.Sound { w with db := w.db.setInstances id f } where
  instances_nodup := by
    rw [setInstances_ids w.db id hf]
    exact h.instances_nodup
  mandelboxes_nodup := h.mandelboxes_nodup
  images_nodup := h.images_nodup
  launched_nodup := h.launched_nodup
  created_nodup := h.created_nodup
  launched := by
    intro i hi
    rcases mem_setInstances.mp hi with ⟨hi,_⟩ | ⟨j,hj,hid,rfl⟩
    · exact h.launched i hi
    · rw [hf j hid, ← hid]
      exact h.launched j hj
  created := h.created

theorem setMandelboxes (h : w.Sound) (id : String) {f : Mandelbox → Mandelbox}
    (hf : ∀ m, m.id = id → (f m).id = id) : World.Sound { w with db := w.db.setMandelboxes id f } where
  instances_nodup := h.instances_nodup
  mandelboxes_nodup := by
    rw [setMandelboxes_ids w.db id hf]
    exact h.mandelboxes_nodup
  images_nodup := h.images_nodup
  launched_nodup := h.launched_nodup
  created_nodup := h.created_nodup
  launched := h.launched
  created := by
    intro m hm
    rcases mem_setMandelboxes.mp hm with ⟨hm,_⟩ | ⟨n,hn,hid,rfl⟩
    · exact h.created m hm
    · rw [hf n hid, ← hid]
      exact h.created n hn

theorem sublists (h : w.Sound) {instances : List Instance} {mandelboxes : List Mandelbox}
    (hi : instances.Sublist w.db.instances) (hm : mandelboxes.Sublist w.db.mandelboxes) :
    World.Sound { w with db := { w.db with instances := instances, mandelboxes := mandelboxes } } where
  instances_nodup := h.instances_nodup.sublist (hi.map _)
  mandelboxes_nodup := h.mandelboxes_nodup.sublist (hm.map _)
  images_nodup := h.images_nodup
  launched_nodup := h.launched_nodup
  created_nodup := h.created_nodup
  launched i hmem := h.launched i (hi.subset hmem)
  created m hmem := h.created m (hm.subset hmem)

theorem insertInstances (h : w.Sound) {rows : List Instance}
    (hfresh : w.FreshInstances (rows.map Instance.id)) :
    World.Sound { w with
      db := { w.db with instances := w.db.instances ++ rows }, launched := w.launched ++ rows } where
  instances_nodup := nodup_append_of_fresh h.instances_nodup h.launched hfresh.1
    fun _ hi => hfresh.notMem (List.mem_map_of_mem hi)
  mandelboxes_nodup := h.mandelboxes_nodup
  images_nodup := h.images_nodup
  launched_nodup := nodup_append_of_fresh h.launched_nodup (fun _ => List.mem_map_of_mem) hfresh.1
    fun _ hi => hfresh.notMem (List.mem_map_of_mem hi)
  created_nodup := h.created_nodup
  launched := by
    intro i hi
    rw [List.map_append, List.mem_append]
    exact (List.mem_append.mp hi).imp (h.launched i) List.mem_map_of_mem
  created := h.created

theorem insertMandelboxes (h : w.Sound) {rows : List Mandelbox}
    (hfresh : w.FreshMandelboxes (rows.map Mandelbox.id)) :
    World.Sound { w with
      db := { w.db with mandelboxes := w.db.mandelboxes ++ rows }, created := w.created ++ rows } where
  instances_nodup := h.instances_nodup
  mandelboxes_nodup := nodup_append_of_fresh h.mandelboxes_nodup h.created hfresh.1
    fun _ hm => hfresh.notMem (List.mem_map_of_mem hm)
  images_nodup := h.images_nodup
  launched_nodup := h.launched_nodup
  created_nodup := nodup_append_of_fresh h.created_nodup (fun _ => List.mem_map_of_mem) hfresh.1
    fun _ hm => hfresh.notMem (List.mem_map_of_mem hm)
  launched := h.launched
  created := by
    intro m hm
    rw [List.map_append, List.mem_append]
    exact (List.mem_append.mp hm).imp (h.created m) List.mem_map_of_mem

theorem setImages (h : w.Sound) {images : List Image}
    (hi : (images.map fun i => (i.provider,i.region)).Nodup) :
    World.Sound { w with db := { w.db with images := images } } :=
  { h with images_nodup := hi }

theorem mutate {r : Except String ℕ} {db : Database} (h : w.Sound)
    (hdb : ∀ n, r = .ok n → World.Sound { w with db := db }) : (w.mutate r db).Sound := by
  cases r with
  | error e => exact h
  | ok n => exact hdb n rfl

theorem effect (h : w.Sound) {op : Op} {r : Ans op} (ha : answers w pid op r) :
    (Whist.Scaling.effect w pid op r).Sound := by
  cases op with
  | insertInstances rows =>
    cases r with
    | error e => exact h
    | ok n => exact h.insertInstances ha.2
  | updateInstance row => exact h.mutate fun _ _ => h.setInstances _ fun _ _ => rfl
  | registerInstance row => exact h.mutate fun _ _ => h.setInstances _ fun _ _ => rfl
  | writeInstanceStatus status id => exact h.mutate fun _ _ => h.setInstances _ fun _ hi => hi
  | writeHeartbeat id => exact h.mutate fun _ _ => h.setInstances _ fun _ hi => hi
  | updateInstanceCapacity n id => exact h.mutate fun _ _ => h.setInstances _ fun _ hi => hi
  | deleteInstance id => exact h.mutate fun _ _ => h.sublists List.filter_sublist List.filter_sublist
  | deleteInstanceRow id => exact h.mutate fun _ _ => h.sublists List.filter_sublist (List.Sublist.refl _)
  | removeMandelbox id => exact h.mutate fun _ _ => h.sublists (List.Sublist.refl _) List.filter_sublist
  | insertImages rows =>
    refine h.mutate fun n hn => h.setImages ?_
    subst hn
    rw [List.map_append, List.nodup_append]
    refine ⟨h.images_nodup,ha.2.1,fun a hmem b hb hab => ?_⟩
    obtain ⟨i,hi,rfl⟩ := List.mem_map.mp hmem
    obtain ⟨j,hj,rfl⟩ := List.mem_map.mp hb
    have hempty := ha.2.2 j hj
    rw [Database.queryImage, List.filter_eq_nil_iff] at hempty
    have hkey := Prod.mk.inj hab
    exact hempty i hi (by simp [hkey.1, hkey.2])
  | updateImage image =>
    have hkeys := h.images_nodup
    rw [← images_updateImage_keys w.db image w.clock] at hkeys
    exact h.mutate fun _ _ => h.setImages hkeys
  | insertMandelboxes rows =>
    cases r with
    | error e => exact h
    | ok n => exact h.insertMandelboxes ha.2.1
  | createMandelbox row =>
    cases r with
    | error e => exact h
    | ok n => exact @insertMandelboxes w h [row] ha.2.1
  | updateMandelbox row => exact h.mutate fun _ _ => h.setMandelboxes _ fun _ _ => rfl
  | writeMandelboxStatus status id => exact h.mutate fun _ _ => h.setMandelboxes _ fun _ hm => hm
  | lockProtectedMap region => exact { h with }
  | unlockProtectedMap region => exact { h with }
  | writeProtected region images => exact { h with }
  | _ => exact h

end World.Sound

end Whist.Scaling
