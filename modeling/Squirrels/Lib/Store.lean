import Mathlib.Data.Nat.Notation
import Mathlib.Logic.Function.Basic

/-!
# Stores of numbered cells

A `Store` hands out cells in order and never takes one back. Reading a cell that was not handed
out gives the default content.
-/

/-- Cells numbered from zero; those below `next` have been handed out. -/
structure Store (α : Type) where
  next : ℕ
  cell : ℕ → α

namespace Store

variable {α : Type}

/-- The store without cells. -/
def empty [Inhabited α] : Store α := ⟨0, fun _ => default⟩

/-- The content of a cell. -/
def read (s : Store α) (r : ℕ) : α := s.cell r

/-- Change the content of a cell. -/
def write (s : Store α) (r : ℕ) (a : α) : Store α :=
  { s with cell := Function.update s.cell r a }

/-- Hand out a cell. -/
def alloc (s : Store α) (a : α) : ℕ × Store α :=
  (s.next, { next := s.next + 1, cell := Function.update s.cell s.next a })

@[simp] theorem read_write_self (s : Store α) (r : ℕ) (a : α) : (s.write r a).read r = a := by
  simp [read, write]

theorem read_write_of_ne (s : Store α) {r q : ℕ} (a : α) (ne : q ≠ r) :
    (s.write r a).read q = s.read q := by
  simp [read, write, ne]

@[simp] theorem next_write (s : Store α) (r : ℕ) (a : α) : (s.write r a).next = s.next := rfl

@[simp] theorem read_alloc_self (s : Store α) (a : α) : (s.alloc a).2.read (s.alloc a).1 = a := by
  simp [read, alloc]

theorem read_alloc_of_ne (s : Store α) {q : ℕ} (a : α) (ne : q ≠ s.next) :
    (s.alloc a).2.read q = s.read q := by
  simp [read, alloc, ne]

@[simp] theorem next_alloc (s : Store α) (a : α) : (s.alloc a).2.next = s.next + 1 := rfl

/-! ## Properties of the contents -/

/-- Every cell that has been handed out has the property. -/
def All (P : α → Prop) (s : Store α) : Prop := ∀ r < s.next, P (s.read r)

variable {P : α → Prop} {s : Store α} {a : α}

theorem All.write (all : All P s) {r : ℕ} (holds : r < s.next → P a) : All P (s.write r a) := by
  intro q lt
  by_cases same : q = r
  · subst same
    rw [read_write_self]
    exact holds lt
  · rw [read_write_of_ne s a same]
    exact all q lt

theorem All.alloc (all : All P s) (holds : P a) : All P (s.alloc a).2 := by
  intro q lt
  by_cases last : q = s.next
  · subst last
    exact (read_alloc_self s a).symm ▸ holds
  · rw [read_alloc_of_ne s a last]
    apply all q
    rw [next_alloc] at lt
    omega

end Store
