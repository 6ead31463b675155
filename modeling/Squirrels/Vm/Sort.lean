import Squirrels.Vm.Object

/-!
# Sorting arrays

`sort` makes a heap of the values of an array, takes the greatest one to the end, and mends the heap
of the others, until none is left. The function that compares may do anything but change the array,
and may be wrong about the order.
-/

namespace Squirrels

/-- Why a sort fails. -/
inductive SortError (ε : Type) where
  /-- The comparison fails. -/
  | compare (e : ε)
  /-- "inconsistent compare function" -/
  | inconsistent
deriving DecidableEq, Repr

/-- A comparison, with the state of the machine. -/
def SortCompare (σ ε : Type) : Type := σ → SQObject → SQObject → Except ε ℤ × σ

/-- A program that sorts; it has no result when it reads past the array or does not end. -/
def Sorting (σ ε β : Type) : Type :=
  σ × Array SQObject → Option (Except (SortError ε) β × (σ × Array SQObject))

namespace Sorting

variable {σ ε β γ : Type}

instance : Monad (Sorting σ ε) where
  pure b := fun s => some (.ok b, s)
  bind m f := fun s =>
    (m s).bind fun r =>
      match r with
      | (.ok b, s') => f b s'
      | (.error e, s') => some (.error e, s')

/-- Raise an error. -/
def throw (e : SortError ε) : Sorting σ ε β := fun s => some (.error e, s)

/-- Not a result. -/
def fault : Sorting σ ε β := fun _ => none

/-- `_Swap`, of two values of the array. -/
def swap (i j : ℕ) : Sorting σ ε Unit := fun s =>
  if h : i < s.2.size ∧ j < s.2.size then some (.ok (), (s.1, s.2.swap i j h.1 h.2)) else none

variable (cmp : SortCompare σ ε)

/-- `_sort_compare`, of two values of the array. -/
def compare (i j : ℕ) : Sorting σ ε ℤ := fun s =>
  (s.2[i]?).bind fun a => (s.2[j]?).map fun b =>
    match cmp s.1 a b with
    | (.ok n, state) => (.ok n, (state, s.2))
    | (.error e, state) => (.error (.compare e), (state, s.2))

/-- `maxChild`. -/
def maxChild (root bottom : ℕ) : Sorting σ ε ℕ :=
  if root * 2 = bottom then pure (root * 2)
  else do
    let ret ← compare cmp (root * 2) (root * 2 + 1)
    pure (if 0 < ret then root * 2 else root * 2 + 1)

/-- `_hsort_sift_down`, in at most so many turns. -/
def siftDown : ℕ → ℕ → ℕ → Sorting σ ε Unit
  | 0, _, _ => fault
  | fuel + 1, root, bottom =>
    if root * 2 ≤ bottom then do
      let child ← maxChild cmp root bottom
      let ret ← compare cmp root child
      if ret < 0 then
        if root = child then throw .inconsistent
        else do
          swap root child
          siftDown fuel child bottom
      else pure ()
    else pure ()

/-- The first loop of `_hsort`, from a place down to the first one. -/
def heapify (bottom : ℕ) : ℕ → Sorting σ ε Unit
  | 0 => siftDown cmp (bottom + 2) 0 bottom
  | i + 1 => do
    siftDown cmp (bottom + 2) (i + 1) bottom
    heapify bottom i

/-- The second loop of `_hsort`, from a place down to the second one. -/
def extract : ℕ → Sorting σ ε Unit
  | 0 => pure ()
  | i + 1 => do
    swap 0 (i + 1)
    siftDown cmp (i + 2) 0 i
    extract i

/-- `_hsort`. -/
def hsort : Sorting σ ε Unit := fun s =>
  (do
    heapify cmp (s.2.size - 1) (s.2.size / 2)
    extract cmp (s.2.size - 1) : Sorting σ ε Unit) s

/-- `array_sort`, of the array: one with fewer than two values is sorted. -/
def arraySort : Sorting σ ε Unit := fun s =>
  if 1 < s.2.size then hsort cmp s else some (.ok (), s)

end Sorting

end Squirrels
