import Whist.Foundation.Outcomes
import Whist.Scaling.Replies

/-! # An action alone with the database -/
namespace Whist.Scaling
open Program Client

/-- The world, the calls made so far, and the results returned with the tables they were
returned at. -/
structure Alone where
  world : World
  history : List (Event Op Ans)
  results : List (AssignResult × Database)

namespace Alone

def start (w : World) : Alone where
  world := w
  history := []
  results := []

def next (passes : ℕ → ℕ) (s : Alone) : World :=
  { s.world with clock := s.world.clock + passes s.history.length }

def returned (s : Alone) : Event Op Ans → List (AssignResult × Database)
  | ⟨.returnResult result,_⟩ => [(result,s.world.db)]
  | _ => []

end Alone

def alone (passes : ℕ → ℕ) : Contract Op Ans Alone where
  track s e :=
    { world := effect (s.next passes) 0 e.op e.answer
      history := s.history ++ [e]
      results := s.results ++ s.returned e }
  trusts s op r := answers (s.next passes) 0 op r
  may _ _ := True

instance (passes : ℕ → ℕ) (s : Alone) (op : Op) (r : Ans op) : Decidable ((alone passes).trusts s op r) :=
  inferInstanceAs (Decidable (answers (s.next passes) 0 op r))

/-- Every outcome of the program, alone from the world `w`, satisfies `P`. -/
def Always {α : Type} (passes : ℕ → ℕ) (p : Prog α) (w : World) (P : Alone → Prop) : Prop :=
  ∀ t a, Ends (alone passes) p (.start w) t a → P t

theorem always_iff_wp {α : Type} {passes : ℕ → ℕ} {p : Prog α} {w : World} {P : Alone → Prop} :
    Always passes p w P ↔ p.wp (alone passes) (fun t _ => P t) (.start w) :=
  (wp_iff_ends fun _ _ => trivial).symm

def Reading : Op → Prop
  | .queryInstance _ | .queryInstanceWithCapacity _ | .queryInstancesByStatusOnRegion _ _
  | .queryImage _ _ | .queryMandelbox _ _ | .queryUserMandelboxes _ | .now | .readProtected _ => True
  | _ => False

def ReadOnly : Event Op Ans → Prop
  | ⟨.updateMandelbox _,.error _⟩ => True
  | e => Reading e.op

theorem now_readOnly (time : ℕ) : ReadOnly ⟨.now,time⟩ := trivial

namespace Alone
variable {passes : ℕ → ℕ} {s t u : Alone}

/-- From `s` to `t` the tables were only read. -/
structure Reads (s t : Alone) : Prop where
  world : t.world = { s.world with clock := t.world.clock }
  results : t.results = s.results
  history : ∀ e ∈ t.history, e ∈ s.history ∨ ReadOnly e

theorem Reads.refl (s : Alone) : Reads s s := ⟨rfl,rfl,fun _ => Or.inl⟩

theorem Reads.trans (h : Reads s t) (h' : Reads t u) : Reads s u where
  world := by rw [h'.world, h.world]
  results := h'.results.trans h.results
  history e he := (h'.history e he).elim (h.history e) Or.inr

theorem Reads.db (h : Reads s t) : t.world.db = s.world.db := by rw [h.world]

theorem Reads.call (passes : ℕ → ℕ) (s : Alone) {e : Event Op Ans} (he : ReadOnly e) :
    Reads s ((alone passes).track s e) := by
  obtain ⟨op,r⟩ := e
  refine ⟨?_,?_,fun e' he' => ?_⟩
  · cases op <;> first | exact he.elim | rfl | (cases r <;> first | exact he.elim | rfl)
  · cases op <;> first | exact List.append_nil _ | exact he.elim
  · rcases List.mem_append.mp he' with hmem | hmem
    · exact Or.inl hmem
    · exact Or.inr (List.mem_singleton.mp hmem ▸ he)

end Alone

theorem queryLatestImage_alone {passes : ℕ → ℕ} (provider region : String) (s : Alone) :
    (queryLatestImage provider region).wp (alone passes)
      (orElse (fun t image => Alone.Reads s t ∧ image ∈ s.world.db.queryImage provider region)
        fun t _ => Alone.Reads s t) s := by
  simp only [queryLatestImage, queryImage, wp_bind, wp_perform]
  refine ⟨trivial,fun r hr => ?_⟩
  have hreads := Alone.Reads.call passes s (e := ⟨.queryImage provider region,r⟩) trivial
  rcases r with e | _ | ⟨image,rows⟩
  · exact hreads
  · exact hreads
  · exact ⟨hreads,hr.1.subset List.mem_cons_self⟩

theorem World.Sound.queryImage_eq {w : World} (hw : w.Sound) {provider region : String} {image : Image}
    (h : image ∈ w.db.queryImage provider region) : w.db.queryImage provider region = [image] := by
  have hnodup : ((w.db.queryImage provider region).map fun i => (i.provider,i.region)).Nodup :=
    hw.images_nodup.sublist (List.filter_sublist.map _)
  have hkey : ∀ i ∈ w.db.queryImage provider region, (i.provider,i.region) = (provider,region) := by
    intro i hi
    simpa [Database.queryImage] using (List.mem_filter.mp hi).2
  generalize w.db.queryImage provider region = rows at h hnodup hkey
  rcases rows with _ | ⟨i,_ | ⟨j,rows⟩⟩
  · exact absurd h List.not_mem_nil
  · rw [List.mem_singleton.mp h]
  · rw [List.map_cons, List.map_cons, hkey i (by simp), hkey j (by simp)] at hnodup
    exact absurd List.mem_cons_self (List.nodup_cons.mp hnodup).1

theorem World.Sound.image_unique {w : World} (hw : w.Sound) {provider region : String} {image image' : Image}
    (h : image ∈ w.db.queryImage provider region) (h' : image' ∈ w.db.queryImage provider region) :
    image = image' := by
  rw [hw.queryImage_eq h', List.mem_singleton] at h
  exact h

end Whist.Scaling
