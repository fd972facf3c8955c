import Mathlib.Tactic

/-! # Buffered channels

A channel holds at most as many values as its capacity.
-/
namespace Channel

inductive Fault where
  | blocked
  | panicked
deriving DecidableEq

structure Chan (α : Type*) (capacity : ℕ) where
  buffer : List α
  closed : Bool
  fits : buffer.length ≤ capacity

variable {α : Type*} {n : ℕ}

namespace Chan

def make : Chan α n := ⟨[],false,Nat.zero_le n⟩

def send (c : Chan α n) (a : α) : Except Fault (Chan α n) :=
  if c.closed then .error .panicked
  else if h : c.buffer.length < n then .ok ⟨c.buffer ++ [a],false,by simpa using h⟩
  else .error .blocked

def receive : Chan α n → Except Fault (Option α × Chan α n)
  | ⟨[],false,_⟩ => .error .blocked
  | ⟨[],true,h⟩ => .ok (none,⟨[],true,h⟩)
  | ⟨a :: rest,closed,h⟩ => .ok (some a,⟨rest,closed,(Nat.le_succ _).trans h⟩)

def close (c : Chan α n) : Except Fault (Chan α n) :=
  if c.closed then .error .panicked else .ok { c with closed := true }

def Drained (c : Chan α n) : Prop := c.closed = true ∧ c.buffer = []

variable {c c' : Chan α n} {a : α}

@[simp] theorem make_buffer : (make : Chan α n).buffer = [] := rfl
@[simp] theorem make_closed : (make : Chan α n).closed = false := rfl

theorem send_ok (h : c.send a = .ok c') : c.closed = false ∧ c'.closed = false ∧ c'.buffer = c.buffer ++ [a] := by
  unfold send at h
  split_ifs at h with hclosed hroom
  cases h
  exact ⟨by simpa using hclosed,rfl,rfl⟩

theorem send_of_open (hopen : c.closed = false) (hroom : c.buffer.length < n) : ∃ c', c.send a = .ok c' := by
  rw [send, if_neg (by simp [hopen]), dif_pos hroom]
  exact ⟨_,rfl⟩

theorem send_panics_iff : c.send a = .error .panicked ↔ c.closed = true := by
  unfold send
  split_ifs <;> simp_all

theorem close_ok (h : c.close = .ok c') : c.closed = false ∧ c'.closed = true ∧ c'.buffer = c.buffer := by
  unfold close at h
  split_ifs at h with hclosed
  cases h
  exact ⟨by simpa using hclosed,rfl,rfl⟩

theorem close_of_open (hopen : c.closed = false) : ∃ c', c.close = .ok c' :=
  ⟨_,if_neg (by simp [hopen])⟩

theorem close_panics_iff : c.close = .error .panicked ↔ c.closed = true := by
  unfold close
  split_ifs <;> simp_all

theorem receive_ok {r : Option α} (h : c.receive = .ok (r,c')) :
    c'.closed = c.closed ∧
      ((∃ b, r = some b ∧ c.buffer = b :: c'.buffer) ∨ (r = none ∧ c.Drained ∧ c' = c)) := by
  obtain ⟨buffer,closed,fits⟩ := c
  cases buffer with
  | nil =>
    cases closed with
    | false => cases h
    | true =>
      cases h
      exact ⟨rfl,Or.inr ⟨rfl,⟨rfl,rfl⟩,rfl⟩⟩
  | cons b rest =>
    cases h
    exact ⟨rfl,Or.inl ⟨b,rfl,rfl⟩⟩

end Chan

end Channel
