import Mathlib.Algebra.BigOperators.Group.Finset.Basic
import Mathlib.Algebra.Order.BigOperators.Group.Finset
import Mathlib.Data.List.Count
import Mathlib.Logic.Relation

/-!
# Counting references, and following them

A family of lists names elements of a type. `total` counts how often the lists below a bound name an
element; it changes with one list as the count in this list does. `Reach` is what the lists lead to
from given roots.
-/

namespace Counting

variable {α β : Type} [BEq α]

/-- How often the lists below a bound name the element. -/
def total (lists : ℕ → List α) (bound : ℕ) (a : α) : ℕ :=
  ∑ i ∈ Finset.range bound, (lists i).count a

section Total

variable {lists lists' : ℕ → List α} {bound i : ℕ} {a : α} {l : List α}

theorem total_congr (same : ∀ j < bound, lists' j = lists j) :
    total lists' bound a = total lists bound a :=
  Finset.sum_congr rfl fun j mem => by rw [same j (Finset.mem_range.1 mem)]

theorem total_update (lt : i < bound) :
    total (Function.update lists i l) bound a + (lists i).count a =
      total lists bound a + l.count a := by
  unfold total
  rw [← Finset.add_sum_erase _ _ (Finset.mem_range.2 lt),
    ← Finset.add_sum_erase _ (fun j => (lists j).count a) (Finset.mem_range.2 lt),
    Function.update_self]
  have others : ∑ j ∈ (Finset.range bound).erase i, (Function.update lists i l j).count a =
      ∑ j ∈ (Finset.range bound).erase i, (lists j).count a :=
    Finset.sum_congr rfl fun j mem => by
      rw [Function.update_of_ne (Finset.ne_of_mem_erase mem)]
  rw [others]
  omega

theorem total_succ : total lists (bound + 1) a = total lists bound a + (lists bound).count a :=
  Finset.sum_range_succ _ _

theorem total_eq_zero_iff [LawfulBEq α] : total lists bound a = 0 ↔ ∀ j < bound, a ∉ lists j := by
  unfold total
  rw [Finset.sum_eq_zero_iff]
  simp only [Finset.mem_range, List.count_eq_zero]

end Total

/-! ## A sum of weights -/

/-- The sum of weights below a bound. -/
def weigh (weight : ℕ → ℕ) (bound : ℕ) : ℕ := ∑ i ∈ Finset.range bound, weight i

theorem weigh_update {weight : ℕ → ℕ} {bound i w : ℕ} (lt : i < bound) :
    weigh (Function.update weight i w) bound + weight i = weigh weight bound + w := by
  unfold weigh
  rw [← Finset.add_sum_erase _ _ (Finset.mem_range.2 lt),
    ← Finset.add_sum_erase _ weight (Finset.mem_range.2 lt), Function.update_self]
  have others : ∑ j ∈ (Finset.range bound).erase i, Function.update weight i w j =
      ∑ j ∈ (Finset.range bound).erase i, weight j :=
    Finset.sum_congr rfl fun j mem => Function.update_of_ne (Finset.ne_of_mem_erase mem) _ _
  rw [others]
  omega

theorem weigh_congr {weight weight' : ℕ → ℕ} {bound : ℕ}
    (same : ∀ j < bound, weight' j = weight j) : weigh weight' bound = weigh weight bound :=
  Finset.sum_congr rfl fun j mem => same j (Finset.mem_range.1 mem)

/-! ## Reachability -/

/-- What the edges lead to from the roots. -/
inductive Reach (edges : β → β → Prop) (roots : β → Prop) : β → Prop where
  | root {a : β} (is : roots a) : Reach edges roots a
  | step {a b : β} (before : Reach edges roots a) (edge : edges a b) : Reach edges roots b

/-- A set with the roots that no edge leaves has everything that can be reached. -/
theorem Reach.mem_of_closed {edges : β → β → Prop} {roots : β → Prop} {a : β}
    (reach : Reach edges roots a) (set : β → Prop) (rooted : ∀ a, roots a → set a)
    (closed : ∀ a b, set a → edges a b → set b) : set a := by
  induction reach with
  | root is => exact rooted _ is
  | step _ edge ih => exact closed _ _ ih edge

end Counting
