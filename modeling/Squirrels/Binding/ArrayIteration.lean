import Squirrels.Binding.ArrayModel

/-!
# Iteration over arrays

`ArrayItems` keeps an index, and between two calls of `next` the program may do anything to the
array. As long as every call finds an element that converts, the calls answer for the indices in
order and the iteration ends after as many calls as the array had elements; a call that returns an
error leaves the index where it is.
-/

namespace Squirrels

open Machines

namespace Handle.Array

section Iteration

variable {env : Env} {w w' : World} {L : List Object} {ν : Type} [Owns ν] [FromSquirrel ν]
  [ExactFrom ν]

/-- The element at an index, if the array is long enough. -/
def element? (w : World) (array : ArrayHandle) (k : ℤ) : Option SQObject :=
  if 0 ≤ k ∧ k < ((w array.sq).heap.arrays.read array.ref).length then
    some ((w array.sq).heap.realval (((w array.sq).heap.arrays.read array.ref).getD k.toNat .null))
  else none

/-- The answer for an index: the converted element, or an error if the array is too short. -/
def Answers (w : World) (array : ArrayHandle) (k : ℤ) (res : Except CallError ν) : Prop :=
  match element? w array k with
  | some o => res = liftError (ExactFrom.decode array.sq o)
  | none => ∃ v, res = .error (.runtime v)

theorem get_answers (owned : Owned L w) (array : ArrayHandle)
    (based : (w array.sq).stackbase ≤ (w array.sq).top) (k : ℤ) :
    ∃ (res : Except CallError ν) (w' : World), (get env array k).run w = (.ok res, w') ∧
      Answers w array k res := by
  unfold Answers element?
  by_cases inside : 0 ≤ k ∧ k < ((w array.sq).heap.arrays.read array.ref).length
  · rw [if_pos inside]
    obtain ⟨e, yields⟩ := @get_yields env w (w array.sq) L array ν _ _ _ k based inside
    obtain ⟨res, w', ran, eq, -⟩ := yields.returns (Exactly.start owned array.sq)
    exact ⟨res, w', ran, eq⟩
  · rw [if_neg inside]
    obtain ⟨e, yields⟩ := @get_fails env w (w array.sq) L array ν _ _ k based inside
    obtain ⟨res, w', ran, eq, -⟩ := yields.returns (Exactly.start owned array.sq)
    exact ⟨res, w', ran, _, eq⟩

/-- The element that the next call reads is there and converts. -/
def Items.Converts (ν : Type) [Owns ν] [FromSquirrel ν] [ExactFrom ν] (w : World)
    (items : Items) : Prop :=
  ∃ o a, element? w items.array items.idx = some o ∧
    (ExactFrom.decode items.array.sq o : Except Error ν) = .ok a

/-- A call before the end answers for the index, which advances only when there is no error. -/
theorem Items.next_answers (owned : Owned L w) (items : Items)
    (based : (w items.array.sq).stackbase ≤ (w items.array.sq).top)
    (more : items.idx < items.len) :
    ∃ (res : Except CallError ν) (w' : World), (items.next env).run w =
        (.ok (some res, if res.isOk then { items with idx := items.idx + 1 } else items), w') ∧
      Answers w items.array items.idx res := by
  obtain ⟨res, w', ran, answers⟩ := @get_answers env w L ν _ _ _ owned items.array based items.idx
  refine ⟨res, w', ?_, answers⟩
  unfold next
  rw [if_neg (by omega), Act.run_bind_of_ok ran]
  cases res <;> rfl

omit [ExactFrom ν] in
theorem Items.next_ends (items : Items) (done : items.len ≤ items.idx) (w : World) :
    (items.next env : Act World (Option (Except CallError ν) × Items)).run w =
      (.ok (none, items), w) := by
  unfold next
  rw [if_pos done]
  rfl

/-- What a call returns when the element it reads converts. -/
theorem Items.Converts.answer {items : Items} (converts : items.Converts ν w)
    {res : Except CallError ν} (answers : Answers w items.array items.idx res) :
    res.isOk = true := by
  obtain ⟨o, a, found, decoded⟩ := converts
  unfold Answers at answers
  rw [found] at answers
  simp only [decoded] at answers
  rw [answers]
  rfl

/-- An iterator after `k` calls of `next`, each on machines the program has brought into any state
in which the element to read is there and converts. -/
inductive Items.Run (env : Env) (ν : Type) [Owns ν] [FromSquirrel ν] [ExactFrom ν]
    (start : Items) : ℕ → Items → Prop where
  | start : Items.Run env ν start 0 start
  | next {k : ℕ} {items items' : Items} {w w' : World} {L : List Object}
      {res : Option (Except CallError ν)} (before : Items.Run env ν start k items)
      (owned : Owned L w) (based : (w items.array.sq).stackbase ≤ (w items.array.sq).top)
      (converts : items.idx < items.len → items.Converts ν w)
      (ran : (items.next env).run w = (.ok (res, items'), w')) :
      Items.Run env ν start (k + 1) items'

/-- The index counts the calls, up to the length. -/
theorem Items.Run.position {array : ArrayHandle} {n k : ℕ} {items : Items}
    (run : Items.Run env ν ⟨array, 0, n⟩ k items) : items = ⟨array, min k n, n⟩ := by
  induction run with
  | start => simp
  | @next k items items' w w' L res before owned based converts ran ih =>
    subst ih
    by_cases more : k < n
    · have below : (min k n : ℤ) < n := by omega
      obtain ⟨res', w'', ran', answers⟩ :=
        @next_answers env w L ν _ _ _ owned ⟨array, min k n, n⟩ based below
      have ok := (converts below).answer answers
      rw [ran, if_pos ok] at ran'
      simp only [Prod.mk.injEq, Except.ok.injEq] at ran'
      obtain ⟨⟨-, rfl⟩, -⟩ := ran'
      simp only [Items.mk.injEq, true_and, and_true]
      omega
    · have end_ : (n : ℤ) ≤ min (k : ℤ) n := by omega
      have ran' := @next_ends env ν _ _ (Items.mk array (min k n) n) end_ w
      rw [ran] at ran'
      simp only [Prod.mk.injEq, Except.ok.injEq] at ran'
      obtain ⟨⟨-, rfl⟩, -⟩ := ran'
      simp only [Items.mk.injEq, true_and, and_true]
      omega

/-- An iterator starts at the first index with the length of the array. -/
theorem iter_run {array : ArrayHandle} {start : Items} (owned : Owned L w)
    (based : (w array.sq).stackbase ≤ (w array.sq).top)
    (made : (iter array).run w = (.ok start, w') ∨ (intoIter array).run w = (.ok start, w')) :
    start = ⟨array, 0, ((w array.sq).heap.arrays.read array.ref).length⟩ := by
  have cloned : Yields w array.sq (w array.sq) L (Handle.clone array) array (w array.sq)
      (Owns.handles array ++ L) :=
    Yields.bind (Yields.bind (Yields.addref _) (Yields.pure _)) (Yields.pure _)
  have iterated : Yields w array.sq (w array.sq) L (iter array) _ _ _ :=
    cloned.bind ((len_yields based).onUnwind.bind (Yields.pure _))
  have moved : Yields w array.sq (w array.sq) L (intoIter array) _ _ _ :=
    (len_yields based).onUnwind.bind (Yields.pure _)
  rcases made with ran | ran
  · obtain ⟨items, w₁, ran', rfl, -⟩ := iterated.returns (Exactly.start owned array.sq)
    rw [ran] at ran'
    simpa using congrArg Prod.fst ran'
  · obtain ⟨items, w₁, ran', rfl, -⟩ := moved.returns (Exactly.start owned array.sq)
    rw [ran] at ran'
    simpa using congrArg Prod.fst ran'

/-- After `k` calls without an error, whatever has been done to the array, the next call answers for
the index `k` if the array had more than `k` elements when the iterator was made; otherwise it
returns `None`. -/
theorem items_visit_each_index {array : ArrayHandle} {start items : Items} {k : ℕ}
    (owned : Owned L w) (based : (w array.sq).stackbase ≤ (w array.sq).top)
    (made : (iter array).run w = (.ok start, w') ∨ (intoIter array).run w = (.ok start, w'))
    (run : Items.Run env ν start k items) (now : World) (live : List Object)
    (owned' : Owned live now) (based' : (now array.sq).stackbase ≤ (now array.sq).top) :
    (k < ((w array.sq).heap.arrays.read array.ref).length →
      ∃ (res : Except CallError ν) (items' : Items) (after : World),
        (items.next env).run now = (.ok (some res, items'), after) ∧ Answers now array k res) ∧
    (((w array.sq).heap.arrays.read array.ref).length ≤ k →
      (items.next env : Act World (Option (Except CallError ν) × Items)).run now =
        (.ok (none, items), now)) := by
  have started := iter_run owned based made
  subst started
  obtain rfl := run.position
  refine ⟨fun more => ?_, fun done => ?_⟩
  · have below : (min k ((w array.sq).heap.arrays.read array.ref).length : ℤ) <
        ((w array.sq).heap.arrays.read array.ref).length := by omega
    obtain ⟨res, after, ran, answers⟩ := @Items.next_answers env now live ν _ _ _ owned'
      ⟨array, _, _⟩ based' below
    have index : (min k ((w array.sq).heap.arrays.read array.ref).length : ℤ) = k := by omega
    rw [index] at answers
    exact ⟨res, _, after, ran, answers⟩
  · apply Items.next_ends
    show (((w array.sq).heap.arrays.read array.ref).length : ℤ) ≤
      min (k : ℤ) ((w array.sq).heap.arrays.read array.ref).length
    omega

/-- The array is changed between the calls and made longer before the last one. -/
theorem items_visit_each_index_changed : ∃ (first second items : Items)
    (res : Except CallError ℤ) (after : World),
    Items.Run .returning ℤ ⟨⟨0, 0⟩, 0, 2⟩ 1 first ∧
      (first.next .returning).run (World.withArray .returning [.integer 7, .integer 8]) =
        (.ok (some res, items), after) ∧
      Answers (World.withArray .returning [.integer 7, .integer 8]) ⟨0, 0⟩ 1 res ∧
      Items.Run .returning ℤ ⟨⟨0, 0⟩, 0, 2⟩ 2 second ∧
      (second.next .returning : Act World (Option (Except CallError ℤ) × Items)).run
          (World.withArray .returning [.bool true, .bool true, .bool true]) =
        (.ok (none, second), World.withArray .returning [.bool true, .bool true, .bool true]) := by
  have owned := fun xs => World.withArray_owned xs .returning
  have based := fun xs => World.withArray_based xs
  have content := fun xs => World.withArray_read xs
  have made : ((iter ⟨0, 0⟩).run (World.withArray .returning [.integer 5, .integer 6])).1 =
      .ok ⟨⟨0, 0⟩, 0, 2⟩ := by
    decide +kernel
  have visits := fun {k items} run xs => @items_visit_each_index .returning _ _ [] ℤ _ _ _ ⟨0, 0⟩
    _ items k (owned _) (based _) (.inl (Prod.ext made rfl)) run (World.withArray .returning xs) []
    (owned xs) (based xs)
  rw [content] at visits
  have converts : ∀ xs (k : ℕ) (a : ℤ), k < xs.length → xs.getD k .null = .integer a →
      Items.Converts ℤ (World.withArray .returning xs) ⟨⟨0, 0⟩, k, 2⟩ := by
    intro xs k a inside found
    refine ⟨.integer a, a, ?_, rfl⟩
    unfold element?
    rw [content, if_pos ⟨Int.natCast_nonneg k, Int.ofNat_lt.2 inside⟩, Int.toNat_natCast, found]
    rfl
  obtain ⟨_, first, _, ran, -⟩ := (visits .start [.integer 5, .integer 6]).1 (by decide)
  have once := Items.Run.start.next (owned _) (based _)
    (fun _ => converts _ 0 5 (by decide) rfl) ran
  obtain ⟨res, second, after, ran', answers⟩ := (visits once [.integer 7, .integer 8]).1 (by decide)
  refine ⟨first, second, _, res, after, once, ran', answers, ?_⟩
  obtain rfl := once.position
  have twice := once.next (owned _) (based _) (fun _ => converts _ 1 8 (by decide) rfl) ran'
  exact ⟨twice, (visits twice _).2 (by decide)⟩

/-- An element that does not convert is answered for again and again: the iterator has not moved. -/
theorem items_stay_on_error :
    ((do
        let array : ArrayHandle ← new .returning 0 1
        let items ← iter array
        let first : Option (Except CallError ℤ) × Items ← items.next .returning
        let second : Option (Except CallError ℤ) × Items ← first.2.next .returning
        pure (items.len, [first.1, second.1])).run (World.usual .returning)).1 =
      .ok (1, [some (.error (.other (.type "integer"))),
        some (.error (.other (.type "integer")))]) := by
  decide +kernel

/-! ## The size hint -/

/-- `ArrayItems::size_hint`. -/
def Items.sizeHint (items : Items) : ℤ × Option ℤ := (items.len, some items.len)

/-- An iterator that has yielded `k` elements, among calls of `next` that returned errors, on
machines the program may have brought into any state between the calls. -/
inductive Items.Advanced (env : Env) (ν : Type) [Owns ν] [FromSquirrel ν] (start : Items) :
    ℕ → Items → Prop where
  | start : Items.Advanced env ν start 0 start
  | yielded {k : ℕ} {items items' : Items} {w w' : World} {a : ν}
      (before : Items.Advanced env ν start k items)
      (ran : (items.next env).run w = (.ok (some (.ok a), items'), w')) :
      Items.Advanced env ν start (k + 1) items'
  | failed {k : ℕ} {items items' : Items} {w w' : World} {e : CallError}
      (before : Items.Advanced env ν start k items)
      (ran : (items.next env : Act World (Option (Except CallError ν) × Items)).run w =
        (.ok (some (.error e), items'), w')) : Items.Advanced env ν start k items'
  | ended {k : ℕ} {items items' : Items} {w w' : World}
      (before : Items.Advanced env ν start k items)
      (ran : (items.next env : Act World (Option (Except CallError ν) × Items)).run w =
        (.ok (none, items'), w')) : Items.Advanced env ν start k items'

omit [Owns ν] [ExactFrom ν] in
/-- What a call of `next` does to the iterator. -/
theorem Items.next_moves [Owns ν] {items items' : Items} {r : Option (Except CallError ν)}
    (ran : (items.next env).run w = (.ok (r, items'), w')) :
    match r with
    | none => items.len ≤ items.idx ∧ items' = items
    | some (.ok _) => items.idx < items.len ∧ items' = { items with idx := items.idx + 1 }
    | some (.error _) => items.idx < items.len ∧ items' = items := by
  unfold next at ran
  split at ran
  · cases ran
    exact ⟨‹_›, rfl⟩
  · have more : items.idx < items.len := by omega
    rw [Act.run_bind] at ran
    rcases answer : (get env items.array items.idx : Act World (Except CallError ν)).run w
      with ⟨e | ⟨e⟩ | v, w₁⟩ <;> rw [answer] at ran <;> cases ran
    · exact ⟨more, rfl⟩
    · exact ⟨more, rfl⟩

omit [Owns ν] [ExactFrom ν] in
/-- The index counts the elements that were yielded. -/
theorem Items.Advanced.position [Owns ν] {start items : Items} {k : ℕ}
    (within : start.idx ≤ start.len)
    (run : Items.Advanced env ν start k items) :
    items.idx = start.idx + k ∧ items.len = start.len ∧ items.idx ≤ items.len := by
  induction run with
  | start => exact ⟨by simp, rfl, within⟩
  | yielded before ran ih =>
    obtain ⟨more, rfl⟩ := next_moves ran
    push_cast
    omega
  | failed before ran ih =>
    obtain ⟨more, rfl⟩ := next_moves ran
    exact ih
  | ended before ran ih =>
    obtain ⟨done, rfl⟩ := next_moves ran
    exact ih

end Iteration

section SizeHint

variable {env : Env} {w w' : World} {L : List Object} {ν : Type} [Owns ν] [FromSquirrel ν]

/-- A call of `next` on a machine in any state in which the array has the elements `xs`, which
returns no error for an element that is there. -/
structure Items.Call (env : Env) (xs : List SQObject) (items : Items)
    (res : Option (Except CallError ν)) (items' : Items) : Prop where
  ran : ∃ (w w' : World) (L : List Object), Owned L w ∧
    (w items.array.sq).stackbase ≤ (w items.array.sq).top ∧
    (w items.array.sq).heap.arrays.read items.array.ref = xs ∧
    (items.next env).run w = (.ok (res, items'), w')
  converts : items.idx < xs.length → ∀ e, res ≠ some (.error e)

/-- At least `lo` items come before the first `None`. -/
def AtLeast (rest : ℕ → Option (Except CallError ν)) (lo : ℤ) : Prop :=
  ∀ j : ℕ, (j : ℤ) < lo → rest j ≠ none

/-- A `None` comes after at most `hi` items. -/
def AtMost (rest : ℕ → Option (Except CallError ν)) (hi : ℤ) : Prop :=
  ∃ j : ℕ, (j : ℤ) ≤ hi ∧ rest j = none

section Calls

variable {xs : List SQObject} {items items' : Items} {res : Option (Except CallError ν)}

/-- A call ends the iteration exactly at the length that the iterator has stored. -/
theorem Items.Call.none_iff (call : items.Call env xs res items') :
    res = none ↔ items.len ≤ items.idx := by
  obtain ⟨w, w', L, -, -, -, ran⟩ := call.ran
  rcases res with - | e | a
  · exact ⟨fun _ => (next_moves ran).1, fun _ => rfl⟩
  · exact ⟨fun eq => (by cases eq), fun done => absurd (next_moves ran).1 (not_lt.2 done)⟩
  · exact ⟨fun eq => (by cases eq), fun done => absurd (next_moves ran).1 (not_lt.2 done)⟩

theorem Items.Call.keeps (call : items.Call env xs res items') :
    items'.array = items.array ∧ items'.len = items.len := by
  obtain ⟨w, w', L, -, -, -, ran⟩ := call.ran
  rcases res with - | e | a <;> obtain ⟨-, rfl⟩ := next_moves ran <;> exact ⟨rfl, rfl⟩

/-- A call moves on over an element that is there. -/
theorem Items.Call.moves (call : items.Call env xs res items') (more : items.idx < items.len)
    (there : items.idx < xs.length) : items'.idx = items.idx + 1 := by
  obtain ⟨w, w', L, -, -, -, ran⟩ := call.ran
  rcases res with - | e | a
  · exact absurd (next_moves ran).1 (not_le.2 more)
  · exact absurd rfl (call.converts there e)
  · obtain ⟨-, rfl⟩ := next_moves ran
    rfl

/-- A call that finds no element stays. -/
theorem Items.Call.stays (call : items.Call env xs res items')
    (gone : xs.length ≤ items.idx ∨ items.len ≤ items.idx) : items'.idx = items.idx := by
  obtain ⟨w, w', L, owned, based, content, ran⟩ := call.ran
  by_cases more : items.idx < items.len
  · have outside : ¬ (0 ≤ items.idx ∧
        items.idx < ((w items.array.sq).heap.arrays.read items.array.ref).length) := by
      rw [content]
      omega
    obtain ⟨e, fails⟩ :=
      @get_fails env w (w items.array.sq) L items.array ν _ _ items.idx based outside
    obtain ⟨answer, w'', got, rfl, -⟩ := fails.returns (Exactly.start owned items.array.sq)
    unfold next at ran
    rw [if_neg (not_le.2 more), Act.run_bind_of_ok got] at ran
    cases ran
    rfl
  · rw [Items.next_ends items (not_lt.1 more)] at ran
    cases ran
    rfl

end Calls

section Remaining

variable {xs : List SQObject} {its : ℕ → Items} {rest : ℕ → Option (Except CallError ν)}

theorem Items.Call.len_eq (calls : ∀ j, (its j).Call env xs (rest j) (its (j + 1))) (j : ℕ) :
    (its j).len = (its 0).len := by
  induction j with
  | zero => rfl
  | succ j ih => rw [(calls j).keeps.2, ih]

/-- As long as the array has the elements that the iterator has counted, each call moves on. -/
theorem Items.Call.idx_eq (calls : ∀ j, (its j).Call env xs (rest j) (its (j + 1)))
    (long : (its 0).len ≤ xs.length) {j : ℕ} (before : (its 0).idx + j ≤ (its 0).len) :
    (its j).idx = (its 0).idx + j := by
  induction j with
  | zero => simp
  | succ j ih =>
    push_cast at before ⊢
    have here := ih (by omega)
    have length := len_eq calls j
    rw [(calls j).moves (by omega) (by omega), here]
    omega

/-- In an array that has become shorter, no call gets beyond its end. -/
theorem Items.Call.idx_le (calls : ∀ j, (its j).Call env xs (rest j) (its (j + 1))) (j : ℕ) :
    (its j).idx ≤ max (its 0).idx xs.length := by
  induction j with
  | zero => exact le_max_left _ _
  | succ j ih =>
    by_cases gone : xs.length ≤ (its j).idx ∨ (its j).len ≤ (its j).idx
    · rw [(calls j).stays gone]
      exact ih
    · obtain ⟨there, more⟩ := not_or.1 gone
      rw [(calls j).moves (not_le.1 more) (not_le.1 there)]
      omega

end Remaining

/-- While the array stays as it is and its remaining elements convert, the size hint bounds what the
iterator will still yield exactly if it has yielded nothing yet and the array has not become
shorter. -/
theorem sizeHint_bounds_iff {array : ArrayHandle} {start items : Items} {k : ℕ}
    {xs : List SQObject} {its : ℕ → Items} {rest : ℕ → Option (Except CallError ν)}
    (owned : Owned L w) (based : (w array.sq).stackbase ≤ (w array.sq).top)
    (made : (iter array).run w = (.ok start, w') ∨ (intoIter array).run w = (.ok start, w'))
    (run : Items.Advanced env ν start k items) (first : its 0 = items)
    (calls : ∀ j, (its j).Call env xs (rest j) (its (j + 1))) :
    (AtLeast rest items.sizeHint.1 ∧ ∀ hi ∈ items.sizeHint.2, AtMost rest hi) ↔
      k = 0 ∧ ((w array.sq).heap.arrays.read array.ref).length ≤ xs.length := by
  have started := iter_run owned based made
  subst started first
  obtain ⟨index, length, within⟩ := run.position (by simp)
  simp only [Items.sizeHint, Option.mem_some_iff, forall_eq', AtLeast, AtMost] at *
  have ends : ∀ j, rest j = none ↔ (its 0).len ≤ (its j).idx := fun j => by
    rw [(calls j).none_iff, Items.Call.len_eq calls j]
  constructor
  · rintro ⟨least, j, most, ended⟩
    have reached := (ends j).1 ended
    by_cases long : (its 0).len ≤ xs.length
    · have last : rest ((its 0).len - (its 0).idx).toNat = none := by
        rw [ends, Items.Call.idx_eq calls long (by omega)]
        omega
      have := mt (least _) (not_not.2 last)
      omega
    · have below := Items.Call.idx_le calls j
      have finished : rest 0 = none := (ends 0).2 (by omega)
      exact absurd finished (least 0 (by omega))
  · rintro ⟨rfl, long⟩
    refine ⟨fun j before ended => ?_, ((its 0).len).toNat, by omega, ?_⟩
    · have reached := (ends j).1 ended
      rw [Items.Call.idx_eq calls (by omega) (by omega)] at reached
      omega
    · rw [ends, Items.Call.idx_eq calls (by omega) (by omega)]
      omega

/-- The calls of `next` on an array of two elements. -/
theorem next_of_two (j : ℕ) :
    (Items.mk ⟨0, 0⟩ (min j 2) 2).Call .returning [.integer 5, .integer 6]
      ([some (.ok 5), some (.ok 6)].getD j none : Option (Except CallError ℤ))
      ⟨⟨0, 0⟩, min (j + 1) 2, 2⟩ := by
  have owned := World.withArray_owned [.integer 5, .integer 6] .returning
  have based := World.withArray_based [.integer 5, .integer 6]
  have content := World.withArray_read [.integer 5, .integer 6]
  match j with
  | 0 =>
    have answer : ((Items.next .returning ⟨⟨0, 0⟩, 0, 2⟩).run
        (World.withArray .returning [.integer 5, .integer 6])).1 =
        .ok (some (.ok (5 : ℤ)), ⟨⟨0, 0⟩, 1, 2⟩) := by
      decide +kernel
    exact ⟨⟨_, _, _, owned, based, content, Prod.ext answer rfl⟩, fun _ e eq => by cases eq⟩
  | 1 =>
    have answer : ((Items.next .returning ⟨⟨0, 0⟩, 1, 2⟩).run
        (World.withArray .returning [.integer 5, .integer 6])).1 =
        .ok (some (.ok (6 : ℤ)), ⟨⟨0, 0⟩, 2, 2⟩) := by
      decide +kernel
    exact ⟨⟨_, _, _, owned, based, content, Prod.ext answer rfl⟩, fun _ e eq => by cases eq⟩
  | j + 2 =>
    have here : (min ((j + 2 : ℕ) : ℤ) 2) = 2 := by omega
    have next : (min ((j + 2 : ℕ) + 1 : ℤ) 2) = 2 := by omega
    rw [here, next]
    exact ⟨⟨_, _, _, owned, based, content, Items.next_ends _ le_rfl _⟩, fun _ e eq => by cases eq⟩

/-- The iterator has just been made. -/
theorem sizeHint_bounds_fresh :
    AtLeast (fun j => ([some (.ok 5), some (.ok 6)].getD j none : Option (Except CallError ℤ))) 2 ∧
      AtMost (fun j => ([some (.ok 5), some (.ok 6)].getD j none : Option (Except CallError ℤ)))
        2 := by
  have owned := World.withArray_owned [.integer 5, .integer 6] .returning
  have based := World.withArray_based [.integer 5, .integer 6]
  have content := World.withArray_read [.integer 5, .integer 6]
  have made : ((iter ⟨0, 0⟩).run (World.withArray .returning [.integer 5, .integer 6])).1 =
      .ok ⟨⟨0, 0⟩, 0, 2⟩ := by
    decide +kernel
  have run : Items.Advanced .returning ℤ ⟨⟨0, 0⟩, 0, 2⟩ 0 ⟨⟨0, 0⟩, 0, 2⟩ := .start
  let its : ℕ → Items := fun j => ⟨⟨0, 0⟩, min j 2, 2⟩
  have first : its 0 = ⟨⟨0, 0⟩, 0, 2⟩ := rfl
  have bounds := (sizeHint_bounds_iff owned based (.inl (Prod.ext made rfl)) run first
    next_of_two).2 ⟨rfl, by rw [content]⟩
  exact ⟨bounds.1, bounds.2 2 rfl⟩

/-- The iterator has yielded both elements of the array, and its size hint is still two. -/
theorem sizeHint_stays :
    ((iter ⟨0, 0⟩).run (World.withArray .returning [.integer 5, .integer 6])).1 =
        .ok ⟨⟨0, 0⟩, 0, 2⟩ ∧
      ∃ (items : Items) (rest : ℕ → Option (Except CallError ℤ)),
        Items.Advanced .returning ℤ ⟨⟨0, 0⟩, 0, 2⟩ 2 items ∧
        (∀ j, items.Call .returning [.integer 5, .integer 6] (rest j) items) ∧
        ¬ AtLeast rest items.sizeHint.1 := by
  obtain ⟨⟨w, w', -, -, -, -, first⟩, -⟩ := next_of_two 0
  obtain ⟨⟨u, u', -, -, -, -, second⟩, -⟩ := next_of_two 1
  refine ⟨by decide +kernel, ⟨⟨0, 0⟩, 2, 2⟩, fun _ => none, .yielded (.yielded .start first) second,
    fun j => next_of_two 2, fun least => least 0 (by decide) rfl⟩

end SizeHint

end Handle.Array

end Squirrels
