import Mathlib.Data.List.GetD
import Squirrels.Vm.AccessContract

/-!
# What the C functions compute

`Computes m s a s'` says that the program returns `a` and takes the machine from `s` to `s'`,
whatever its reference table holds; the record of writes outside the stack vector is left open.
Such facts compose, and they are stated for the C functions whose result later proofs depend on.
-/

namespace Squirrels

open Machines

/-- The program returns `a` and leaves `s'`, whatever the references are. -/
def Computes {α : Type} (m : Act SQVM α) (s : SQVM) (a : α) (s' : SQVM) : Prop :=
  ∀ refs flag, ∃ flag', m.run { s with refs := refs, overflowed := flag } =
    (.ok a, { s' with refs := refs, overflowed := flag' })

namespace Computes

variable {α β : Type} {m : Act SQVM α} {s s₁ s₂ : SQVM} {a : α} {b : β}

theorem pure (a : α) (s : SQVM) : Computes (pure a) s a s := fun _ flag => ⟨flag, rfl⟩

theorem bind {f : α → Act SQVM β} (first : Computes m s a s₁) (rest : Computes (f a) s₁ b s₂) :
    Computes (m >>= f) s b s₂ := by
  intro refs flag
  obtain ⟨flag₁, ran₁⟩ := first refs flag
  obtain ⟨flag₂, ran₂⟩ := rest refs flag₁
  exact ⟨flag₂, by rw [Act.run_bind_of_ok ran₁, ran₂]⟩

/-- To compute after reading the state it is enough to compute from what is read of it. -/
theorem get_bind {f : SQVM → Act SQVM β}
    (rest : ∀ refs flag, ∃ flag',
      (f { s with refs := refs, overflowed := flag }).run
        { s with refs := refs, overflowed := flag } =
        (.ok b, { s₁ with refs := refs, overflowed := flag' })) :
    Computes (Act.get >>= f) s b s₁ := rest

end Computes

namespace Api

variable {env : Env} {s : SQVM} {st : List SQObject} {o : SQObject}

theorem push_computes (o : SQObject) (s : SQVM) : Computes (push o) s () (s.push o) :=
  fun _ _ => ⟨_, rfl⟩

theorem sqGettop_computes (s : SQVM) : Computes sqGettop s (s.top - s.stackbase) s :=
  fun _ flag => ⟨flag, rfl⟩

theorem sqPop_computes {n : ℕ} (enough : n ≤ s.top) : Computes (sqPop n) s () (s.pop n) := by
  intro refs flag
  refine ⟨flag, ?_⟩
  have few : ¬ { s with refs := refs, overflowed := flag }.top < n := by
    rw [Nat.not_lt]
    exact enough
  unfold sqPop
  rw [Act.run_bind_of_ok (Act.run_get _), if_neg few]
  rfl

/-- `sq_settop` back to where the stack was before `n` slots were pushed. -/
theorem sqSettop_computes {n : ℕ} (positive : 0 < n) (enough : n ≤ s.top) :
    Computes (sqSettop ((s.top : ℤ) - s.stackbase - n)) s () (s.pop n) := by
  apply Computes.bind (sqGettop_computes s)
  rw [if_pos (by omega)]
  have count : ((s.top : ℤ) - s.stackbase - ((s.top : ℤ) - s.stackbase - n)).toNat = n := by omega
  rw [count]
  exact sqPop_computes enough

theorem sqGetstackobj_computes (idx : ℤ) (s : SQVM) :
    Computes (sqGetstackobj idx) s (s.stackGet idx) s := fun _ flag => ⟨flag, rfl⟩

theorem sqGetlasterror_computes (s : SQVM) :
    Computes sqGetlasterror s () (s.push s.lasterror) := fun _ _ => ⟨_, rfl⟩

theorem sqGetstringandsize_computes {idx : ℤ} {bytes : List UInt8}
    (string : s.stackGet idx = .string bytes) :
    Computes (sqGetstringandsize env idx) s (some bytes) s := by
  intro refs flag
  refine ⟨flag, ?_⟩
  unfold sqGetstringandsize
  have slot : ({ s with refs := refs, overflowed := flag } : SQVM).stackGet idx = .string bytes :=
    string
  rw [Act.run_bind_of_ok (Act.run_get _), slot]
  rfl

/-- An error is raised and reported. -/
theorem throwText_computes (message : String) (s : SQVM) :
    Computes (throwText message) s .error (s.raise message) := fun _ flag => ⟨flag, rfl⟩

/-! ## Arrays -/

section Arrays

variable {r : ℕ} {xs : List SQObject}

/-- The machine with the array `r` rewritten. -/
def putList (s : SQVM) (r : ℕ) (xs : List SQObject) : SQVM :=
  { s with heap := s.heap.writeArray r xs }

/-- A function of an array finds it at its index. -/
theorem withArray_computes {count : ℕ} {idx : ℤ} {f : ℕ → List SQObject → Act SQVM SQRESULT}
    {res : SQRESULT} {s' : SQVM} (deep : count ≤ s.depth) (found : s.stackGet idx = .ref .array r)
    (rest : Computes (f r (s.heap.arrays.read r)) s res s') :
    Computes (withArray env count idx f) s res s' := by
  intro refs flag
  obtain ⟨flag', ran⟩ := rest refs flag
  refine ⟨flag', ?_⟩
  have few : ¬ { s with refs := refs, overflowed := flag }.depth < count := by
    rw [Nat.not_lt]
    exact deep
  have found' : { s with refs := refs, overflowed := flag }.stackGet idx = .ref .array r := found
  unfold withArray paramsCheck
  rw [Act.run_bind_of_ok (Act.run_get _), if_neg few, Act.run_bind_of_ok (Act.run_get _), found']
  exact ran

theorem sqArrayappend_computes {idx : ℤ} (deep : 2 ≤ s.depth)
    (found : s.stackGet idx = .ref .array r) :
    Computes (sqArrayappend env idx) s .ok
      ((putList s r (s.heap.arrays.read r ++ [s.up 0])).pop 1) := by
  apply withArray_computes deep found
  exact Computes.get_bind fun _ flag => ⟨flag, rfl⟩

/-- The last element is pushed and then removed. -/
theorem sqArraypop_computes {idx : ℤ} (deep : 1 ≤ s.depth)
    (found : s.stackGet idx = .ref .array r) (some : 0 < (s.heap.arrays.read r).length) :
    Computes (sqArraypop env idx) s .ok
      ((putList s r (s.heap.arrays.read r).dropLast).push
        ((s.heap.arrays.read r).getLastD .null)) := by
  apply withArray_computes deep found
  rw [if_pos some]
  exact fun _ _ => ⟨_, rfl⟩

theorem sqArraypop_empty {idx : ℤ} (deep : 1 ≤ s.depth)
    (found : s.stackGet idx = .ref .array r) (none : ¬ 0 < (s.heap.arrays.read r).length) :
    Computes (sqArraypop env idx) s .error (s.raise "empty array") := by
  apply withArray_computes deep found
  rw [if_neg none]
  exact throwText_computes _ s

/-- The list cut or filled with nulls to a size. -/
def resizeList (n : ℕ) (xs : List SQObject) : List SQObject :=
  xs.take n ++ List.replicate (n - xs.length) .null

theorem sqArrayresize_computes {idx newsize : ℤ} (deep : 1 ≤ s.depth)
    (found : s.stackGet idx = .ref .array r) (size : 0 ≤ newsize) :
    Computes (sqArrayresize env idx newsize) s .ok
      (putList s r (resizeList newsize.toNat (s.heap.arrays.read r))) := by
  apply withArray_computes deep found
  rw [if_pos size]
  exact fun _ flag => ⟨flag, rfl⟩

theorem sqArrayresize_negative {idx newsize : ℤ} (deep : 1 ≤ s.depth)
    (found : s.stackGet idx = .ref .array r) (size : ¬ 0 ≤ newsize) :
    Computes (sqArrayresize env idx newsize) s .error (s.raise "negative size") := by
  apply withArray_computes deep found
  rw [if_neg size]
  exact throwText_computes _ s

/-- After `n` swaps the first and the last `n` elements are exchanged and the others are not. -/
theorem reverseSwaps_getD (xs : List SQObject) (n : ℕ) (half : 2 * n ≤ xs.length) :
    (reverseSwaps xs n).length = xs.length ∧
      ∀ i < xs.length, (reverseSwaps xs n).getD i .null =
        if i < n ∨ xs.length - n ≤ i then xs.getD (xs.length - 1 - i) .null
        else xs.getD i .null := by
  induction n with
  | zero =>
    refine ⟨rfl, fun i lt => ?_⟩
    rw [if_neg (by omega)]
    rfl
  | succ n ih =>
    obtain ⟨length, content⟩ := ih (by omega)
    refine ⟨by simp [reverseSwaps, length], fun i lt => ?_⟩
    have first := content n (by omega)
    have last := content (xs.length - 1 - n) (by omega)
    rw [if_neg (by omega)] at first last
    simp only [reverseSwaps]
    rw [first, last]
    by_cases isLast : i = xs.length - 1 - n
    · subst isLast
      rw [if_pos (by omega)]
      have back : xs.length - 1 - (xs.length - 1 - n) = n := by omega
      rw [back, List.getD_eq_getElem?_getD, List.getElem?_set_self (by simp [length]; omega)]
      rfl
    · rw [List.getD_eq_getElem?_getD, List.getElem?_set_ne (fun eq => isLast eq.symm)]
      by_cases isFirst : i = n
      · subst isFirst
        rw [if_pos (by omega), List.getElem?_set_self (by rw [length]; omega)]
        rfl
      · rw [List.getElem?_set_ne (fun eq => isFirst eq.symm), ← List.getD_eq_getElem?_getD,
          content i lt]
        by_cases inside : i < n ∨ xs.length - n ≤ i
        · rw [if_pos inside, if_pos (by omega)]
        · rw [if_neg inside, if_neg (by omega)]

/-- The swaps of `sq_arrayreverse` reverse the list. -/
theorem reverseSwaps_eq_reverse (xs : List SQObject) :
    reverseSwaps xs (xs.length / 2) = xs.reverse := by
  obtain ⟨length, content⟩ := reverseSwaps_getD xs (xs.length / 2) (by omega)
  apply List.ext_getElem (by simpa using length)
  intro i lt lt'
  rw [length] at lt
  have at_ := content i lt
  rw [List.getD_eq_getElem _ _ (by omega)] at at_
  rw [at_, List.getElem_reverse]
  by_cases moved : i < xs.length / 2 ∨ xs.length - xs.length / 2 ≤ i
  · rw [if_pos moved, List.getD_eq_getElem _ _ (by omega)]
  · rw [if_neg moved, List.getD_eq_getElem _ _ lt]
    have middle : xs.length - 1 - i = i := by omega
    simp only [middle]

theorem sqArrayreverse_computes {idx : ℤ} (deep : 1 ≤ s.depth)
    (found : s.stackGet idx = .ref .array r) :
    Computes (sqArrayreverse env idx) s .ok (putList s r (s.heap.arrays.read r).reverse) := by
  rw [← reverseSwaps_eq_reverse]
  apply withArray_computes deep found
  exact fun _ flag => ⟨flag, rfl⟩

theorem sqArrayremove_computes {idx i : ℤ} (deep : 1 ≤ s.depth)
    (found : s.stackGet idx = .ref .array r)
    (inside : 0 ≤ i ∧ i < (s.heap.arrays.read r).length) :
    Computes (sqArrayremove env idx i) s .ok
      (putList s r ((s.heap.arrays.read r).eraseIdx i.toNat)) := by
  apply withArray_computes deep found
  rw [if_neg (by omega)]
  exact fun _ flag => ⟨flag, rfl⟩

theorem sqArrayremove_outside {idx i : ℤ} (deep : 1 ≤ s.depth)
    (found : s.stackGet idx = .ref .array r)
    (outside : ¬ (0 ≤ i ∧ i < (s.heap.arrays.read r).length)) :
    Computes (sqArrayremove env idx i) s .error (s.raise "index out of range") := by
  apply withArray_computes deep found
  rw [if_pos (by omega)]
  exact throwText_computes _ s

theorem sqArrayinsert_computes {idx i : ℤ} (deep : 1 ≤ s.depth)
    (found : s.stackGet idx = .ref .array r)
    (inside : 0 ≤ i ∧ i ≤ (s.heap.arrays.read r).length) :
    Computes (sqArrayinsert env idx i) s .ok
      ((putList s r ((s.heap.arrays.read r).insertIdx i.toNat (s.up 0))).pop 1) := by
  apply withArray_computes deep found
  apply Computes.get_bind
  intro refs flag
  rw [if_neg (by omega)]
  exact ⟨flag, rfl⟩

theorem sqClear_computes {idx : ℤ} (found : s.stackGet idx = .ref .array r) :
    Computes (sqClear env idx) s .ok (putList s r []) := by
  apply Computes.get_bind
  intro refs flag
  have found' : { s with refs := refs, overflowed := flag }.stackGet idx = .ref .array r := found
  rw [found']
  exact ⟨flag, rfl⟩

theorem sqGetsize_computes {idx : ℤ} (found : s.stackGet idx = .ref .array r) :
    Computes (sqGetsize idx) s (s.heap.arrays.read r).length s := by
  apply Computes.get_bind
  intro refs flag
  have found' : { s with refs := refs, overflowed := flag }.stackGet idx = .ref .array r := found
  rw [found']
  exact ⟨flag, rfl⟩

/-- A copy of the array is made and pushed. -/
theorem sqClone_computes {idx : ℤ} (found : s.stackGet idx = .ref .array r) :
    Computes (sqClone env idx) s .ok
      ({ s with heap := (s.heap.newArray (s.heap.arrays.read r)).2 }.push
        (.ref .array s.heap.arrays.next)) := by
  apply Computes.get_bind
  intro refs flag
  have found' : { s with refs := refs, overflowed := flag }.stackGet idx = .ref .array r := found
  rw [found']
  exact ⟨_, rfl⟩

theorem sqGet_array_computes {idx n : ℤ} (found : s.stackGet idx = .ref .array r)
    (key : s.up 0 = .integer n) (inside : 0 ≤ n ∧ n < (s.heap.arrays.read r).length) :
    Computes (sqGet env idx) s .ok
      (s.setUp 0 (s.heap.realval ((s.heap.arrays.read r).getD n.toNat .null))) := by
  apply Computes.get_bind
  intro refs flag
  have found' : { s with refs := refs, overflowed := flag }.stackGet idx = .ref .array r := found
  have key' : { s with refs := refs, overflowed := flag }.up 0 = .integer n := key
  have inside' : 0 ≤ n ∧
      n < ({ s with refs := refs, overflowed := flag }.heap.arrays.read r).length := inside
  have got := @SQVM.get_array_run env { s with refs := refs, overflowed := flag } r n
  rw [if_pos inside'] at got
  rw [found', key', Act.run_bind_of_ok got]
  exact ⟨flag, rfl⟩

theorem sqGet_array_outside {idx n : ℤ} (found : s.stackGet idx = .ref .array r)
    (key : s.up 0 = .integer n) (outside : ¬ (0 ≤ n ∧ n < (s.heap.arrays.read r).length)) :
    Computes (sqGet env idx) s .error ((s.raiseIdxError env (.integer n)).pop 1) := by
  apply Computes.get_bind
  intro refs flag
  have found' : { s with refs := refs, overflowed := flag }.stackGet idx = .ref .array r := found
  have key' : { s with refs := refs, overflowed := flag }.up 0 = .integer n := key
  have outside' : ¬ (0 ≤ n ∧
      n < ({ s with refs := refs, overflowed := flag }.heap.arrays.read r).length) := outside
  have got := @SQVM.get_array_run env { s with refs := refs, overflowed := flag } r n
  rw [if_neg outside'] at got
  rw [found', key', Act.run_bind_of_ok got]
  exact ⟨flag, rfl⟩

theorem sqSet_array_computes {idx n : ℤ} (found : s.stackGet idx = .ref .array r)
    (key : s.up 1 = .integer n) (inside : 0 ≤ n ∧ n < (s.heap.arrays.read r).length) :
    Computes (sqSet env idx) s .ok
      ((putList s r ((s.heap.arrays.read r).set n.toNat (s.up 0))).pop 2) := by
  apply Computes.get_bind
  intro refs flag
  have found' : { s with refs := refs, overflowed := flag }.stackGet idx = .ref .array r := found
  have key' : { s with refs := refs, overflowed := flag }.up 1 = .integer n := key
  have inside' : 0 ≤ n ∧
      n < ({ s with refs := refs, overflowed := flag }.heap.arrays.read r).length := inside
  have set := @SQVM.set_array_run env { s with refs := refs, overflowed := flag } r n
    ({ s with refs := refs, overflowed := flag }.up 0)
  rw [if_pos inside'] at set
  rw [found', key', Act.run_bind_of_ok set]
  exact ⟨flag, rfl⟩

theorem sqSet_array_outside {idx n : ℤ} (found : s.stackGet idx = .ref .array r)
    (key : s.up 1 = .integer n) (outside : ¬ (0 ≤ n ∧ n < (s.heap.arrays.read r).length)) :
    Computes (sqSet env idx) s .error (s.raiseIdxError env (.integer n)) := by
  apply Computes.get_bind
  intro refs flag
  have found' : { s with refs := refs, overflowed := flag }.stackGet idx = .ref .array r := found
  have key' : { s with refs := refs, overflowed := flag }.up 1 = .integer n := key
  have outside' : ¬ (0 ≤ n ∧
      n < ({ s with refs := refs, overflowed := flag }.heap.arrays.read r).length) := outside
  have set := @SQVM.set_array_run env { s with refs := refs, overflowed := flag } r n
    ({ s with refs := refs, overflowed := flag }.up 0)
  rw [if_neg outside'] at set
  rw [found', key', Act.run_bind_of_ok set]
  exact ⟨flag, rfl⟩

end Arrays

end Api

end Squirrels
