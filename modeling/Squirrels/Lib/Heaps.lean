import Mathlib.Order.Lattice

/-!
# Heaps in arrays

The places of an array are a tree: below place `i` are `2 * i` and `2 * i + 1`, so that the first
place is below itself. In a heap no value is greater than the one above it. A value that is put into
a heap sinks: the greater one of the two below takes its place, until none below is greater.
-/

namespace Heaps

/-- The second place is below the first. -/
def Child (i c : ℕ) : Prop := c = 2 * i ∨ c = 2 * i + 1

theorem child_half (c : ℕ) : Child (c / 2) c := by
  unfold Child
  omega

theorem Child.eq_half {i c : ℕ} (child : Child i c) : i = c / 2 := by
  unfold Child at child
  omega

theorem Child.le {i c : ℕ} (child : Child i c) : i ≤ c := by
  unfold Child at child
  omega

variable {κ : Type} [LinearOrder κ] {v w : ℕ → κ} {root bottom hole m : ℕ}

/-- From a place on, up to another one, no value is greater than the one above it. -/
def HeapFrom (v : ℕ → κ) (root bottom : ℕ) : Prop :=
  ∀ i c, root ≤ i → Child i c → c ≤ bottom → v c ≤ v i

/-- A heap but for the value at one place, which may be too small; what is below that is not greater
than what is above. -/
structure HeapBut (v : ℕ → κ) (root hole bottom : ℕ) : Prop where
  others : ∀ i c, root ≤ i → i ≠ hole → Child i c → c ≤ bottom → v c ≤ v i
  past : ∀ i c, root ≤ i → i ≠ hole → Child i hole → Child hole c → c ≠ hole → c ≤ bottom →
    v c ≤ v i

/-- The first value of a heap is the greatest. -/
theorem HeapFrom.le_first (heap : HeapFrom v 0 bottom) {j : ℕ} (le : j ≤ bottom) : v j ≤ v 0 := by
  induction j using Nat.strongRecOn with
  | ind j ih =>
    cases j with
    | zero => exact le_refl _
    | succ j =>
      have above : v (j + 1) ≤ v ((j + 1) / 2) := heap _ _ (Nat.zero_le _) (child_half _) le
      exact le_trans above (ih ((j + 1) / 2) (by omega) (by omega))

/-- A value above a heap. -/
theorem HeapFrom.but (heap : HeapFrom v (root + 1) bottom) : HeapBut v root root bottom where
  others i c le ne := heap i c (by omega)
  past i c le ne child := absurd (Nat.le_antisymm child.le le) ne

/-- The value has sunk to its place. -/
theorem HeapBut.heapFrom (heap : HeapBut v root hole bottom)
    (sunk : ∀ c, Child hole c → c ≤ bottom → v c ≤ v hole) : HeapFrom v root bottom := by
  intro i c le child leC
  by_cases same : i = hole
  · subst same
    exact sunk c child leC
  · exact heap.others i c le same child leC

/-- The value sinks by one. -/
theorem HeapBut.sink (heap : HeapBut v root hole bottom) (le : root ≤ hole) (child : Child hole m)
    (ne : m ≠ hole) (leM : m ≤ bottom) (less : v hole ≤ v m)
    (greatest : ∀ c, Child hole c → c ≤ bottom → v c ≤ v m) (atHole : w hole = v m)
    (atChild : w m = v hole) (same : ∀ k, k ≠ hole → k ≠ m → w k = v k) :
    HeapBut w root m bottom where
  others i c leI neI childI leC := by
    by_cases isHole : i = hole
    · subst isHole
      rw [atHole]
      by_cases first : c = i
      · rw [first, atHole]
      · by_cases second : c = m
        · rw [second, atChild]
          exact less
        · rw [same c first second]
          exact greatest c childI leC
    · rw [same i isHole neI]
      by_cases first : c = hole
      · subst first
        rw [atHole]
        exact heap.past i m leI isHole childI child ne leM
      · by_cases second : c = m
        · exact absurd (childI.eq_half.trans (second ▸ child.eq_half.symm)) isHole
        · rw [same c first second]
          exact heap.others i c leI isHole childI leC
  past i c leI neI childI childM neC leC := by
    have above : i = hole := childI.eq_half.trans child.eq_half.symm
    have notHole : c ≠ hole := by
      have := child.le
      have := childM.le
      omega
    rw [above, atHole, same c notHole neC]
    exact heap.others m c (Nat.le_trans le child.le) ne childM leC

end Heaps
