import Squirrels.Vm.Outers

/-!
# Closures share variables

Whatever a program does, it reads through the outers of its closures what it would read if each
variable were a cell of its own that the closures share with the stack: as long as the variable is
on the stack, wherever the stack moves, and after it has gone from there.
-/

namespace Squirrels

variable {s s' : Outers} {t t' : Scopes} {f : ℕ → ℕ} {p q i x : ℕ} {o : SQOuter} {v : SQObject}

/-! ## The relation -/

/-- The outers stand for variables, each for one of its own: an open one for that of the place where
it points, and a closed one for one that is not on the stack. -/
structure Refines (f : ℕ → ℕ) (s : Outers) (t : Scopes) : Prop where
  length : s.stack.length = t.slots.length
  distinct : t.slots.Nodup
  value : ∀ i x : ℕ, t.slots[i]? = some x → ∃ v, t.cells[x]? = some v ∧ s.stack[i]? = some v
  sorted : s.openouters.Pairwise fun p q => ∀ o o', s.outers[p]? = some o →
    s.outers[q]? = some o' → o'.idx < o.idx
  opened : ∀ p ∈ s.openouters, ∃ o, s.outers[p]? = some o ∧ o.valptr = .stack (s.vals + o.idx) ∧
    t.slots[o.idx]? = some (f p)
  closed : ∀ p o, s.outers[p]? = some o → p ∉ s.openouters →
    o.valptr = .own ∧ f p ∉ t.slots ∧ t.cells[f p]? = some o.value
  injective : ∀ p q, p < s.outers.length → q < s.outers.length → f p = f q → p = q
  closures : t.closures = s.closures.map (·.map f)
  valid : ∀ ps ∈ s.closures, ∀ p ∈ ps, p < s.outers.length

theorem refines_new (vals size : ℕ) : Refines id (Outers.new vals size) (Scopes.new size) where
  length := by simp [Outers.new, Scopes.new]
  distinct := List.nodup_range
  value i x at_ := by
    obtain ⟨lt, is⟩ := List.getElem?_eq_some_iff.1 at_
    have lt : i < size := by simpa [Scopes.new] using lt
    have eq : i = x := by simpa [Scopes.new] using is
    subst eq
    exact ⟨.null, by simp [Scopes.new, lt], by simp [Outers.new, lt]⟩
  sorted := List.Pairwise.nil
  opened p mem := absurd mem List.not_mem_nil
  closed p o is := by cases is
  injective p q lt := absurd lt (Nat.not_lt_zero _)
  closures := rfl
  valid ps mem p mem' := by
    rw [List.mem_singleton.1 mem] at mem'
    cases mem'

/-- The place of a variable on the stack has a value. -/
theorem Refines.slot_lt (refines : Refines f s t) (x : ℕ) (mem : x ∈ t.slots) :
    x < t.cells.length := by
  obtain ⟨i, at_⟩ := List.mem_iff_getElem?.1 mem
  obtain ⟨v, cell, -⟩ := refines.value i x at_
  exact (List.getElem?_eq_some_iff.1 cell).1

/-! ## Reading and writing -/

/-- What an outer reads is the value of its variable. -/
theorem Refines.deref (refines : Refines f s t) (lt : p < s.outers.length) :
    ∃ v, s.deref p = some v ∧ t.cells[f p]? = some v := by
  have is : s.outers[p]? = some s.outers[p] := List.getElem?_eq_getElem lt
  by_cases mem : p ∈ s.openouters
  · obtain ⟨o, isO, ptr, at_⟩ := refines.opened p mem
    obtain ⟨v, cell, stack⟩ := refines.value _ _ at_
    refine ⟨v, ?_, cell⟩
    rw [Outers.deref, isO]
    simp only [Option.bind_some, ptr, Nat.le_add_right, if_true, Nat.add_sub_cancel_left, stack]
  · obtain ⟨ptr, -, cell⟩ := refines.closed p _ is mem
    refine ⟨_, ?_, cell⟩
    rw [Outers.deref, is]
    simp only [Option.bind_some, ptr]

/-- A place and its variable are written together. -/
theorem Refines.store (refines : Refines f s t) (at_ : t.slots[i]? = some x) (v : SQObject) :
    Refines f { s with stack := s.stack.set i v } (t.write x v) where
  length := by rw [List.length_set]; exact refines.length
  distinct := refines.distinct
  value j y at' := by
    obtain ⟨u, cell, stack⟩ := refines.value j y at'
    obtain ⟨lt, -⟩ := List.getElem?_eq_some_iff.1 cell
    obtain ⟨lt', -⟩ := List.getElem?_eq_some_iff.1 stack
    change t.slots[j]? = some y at at'
    show ∃ u, (t.cells.set x v)[y]? = some u ∧ (s.stack.set i v)[j]? = some u
    by_cases same : i = j
    · subst same
      rw [at_] at at'
      cases at'
      exact ⟨v, List.getElem?_set_self lt, List.getElem?_set_self lt'⟩
    · have ne : x ≠ y := by
        rintro rfl
        obtain ⟨ltSlot, -⟩ := List.getElem?_eq_some_iff.1 at_
        exact same ((List.getElem?_inj ltSlot refines.distinct).1 (at_.trans at'.symm))
      exact ⟨u, by rw [List.getElem?_set_ne ne, cell], by rw [List.getElem?_set_ne same, stack]⟩
  sorted := refines.sorted
  opened := refines.opened
  closed p o is out := by
    obtain ⟨ptr, away, cell⟩ := refines.closed p o is out
    have ne : x ≠ f p := by
      rintro rfl
      exact away (List.mem_of_getElem? at_)
    exact ⟨ptr, away, by
      show (t.cells.set x v)[f p]? = _
      rw [List.getElem?_set_ne ne, cell]⟩
  injective := refines.injective
  closures := refines.closures
  valid := refines.valid

/-- A write through an outer. -/
theorem Refines.assign (refines : Refines f s t) (lt : p < s.outers.length) (v : SQObject) :
    ∃ s', s.assign p v = some s' ∧ Refines f s' (t.write (f p) v) := by
  have is : s.outers[p]? = some s.outers[p] := List.getElem?_eq_getElem lt
  by_cases mem : p ∈ s.openouters
  · obtain ⟨o, isO, ptr, at_⟩ := refines.opened p mem
    obtain ⟨u, -, stack⟩ := refines.value _ _ at_
    obtain ⟨ltStack, -⟩ := List.getElem?_eq_some_iff.1 stack
    refine ⟨{ s with stack := s.stack.set o.idx v }, ?_, refines.store at_ v⟩
    rw [Outers.assign, isO]
    simp only [Option.bind_some, ptr, Nat.le_add_right, Nat.add_sub_cancel_left, ltStack, and_self,
      if_true]
  · obtain ⟨ptr, away, cell⟩ := refines.closed p _ is mem
    obtain ⟨ltCell, -⟩ := List.getElem?_eq_some_iff.1 cell
    have others : ∀ q, q ≠ p → (s.outers.set p { s.outers[p] with value := v })[q]? =
        s.outers[q]? := fun q ne => List.getElem?_set_ne ne.symm
    have apart : ∀ q ∈ s.openouters, q ≠ p := fun q mem' same => mem (same ▸ mem')
    refine ⟨{ s with outers := s.outers.set p { s.outers[p] with value := v } }, ?_,
      refines.length, refines.distinct, fun i x at_ => ?_, ?_, fun q mem' => ?_,
      fun q o isQ out => ?_, fun q r => ?_, refines.closures, fun ps memP q memQ => ?_⟩
    · rw [Outers.assign, is]
      simp only [Option.bind_some, ptr]
    · obtain ⟨u, cellX, stack⟩ := refines.value i x at_
      have ne : f p ≠ x := by
        rintro rfl
        exact away (List.mem_of_getElem? at_)
      exact ⟨u, by
        show (t.cells.set (f p) v)[x]? = _
        rw [List.getElem?_set_ne ne, cellX], stack⟩
    · refine refines.sorted.imp_of_mem fun {q r} memQ memR before o o' isQ isR => ?_
      exact before o o' (others q (apart q memQ) ▸ isQ) (others r (apart r memR) ▸ isR)
    · obtain ⟨o, isQ, rest⟩ := refines.opened q mem'
      exact ⟨o, (others q (apart q mem')).trans isQ, rest⟩
    · show _ ∧ _ ∧ (t.cells.set (f p) v)[f q]? = _
      by_cases same : q = p
      · rw [same, List.getElem?_set_self lt] at isQ
        cases isQ
        rw [same]
        exact ⟨ptr, away, List.getElem?_set_self ltCell⟩
      · rw [others q same] at isQ
        obtain ⟨ptrQ, awayQ, cellQ⟩ := refines.closed q o isQ out
        have ne : f p ≠ f q := fun eq =>
          same (refines.injective p q lt (List.getElem?_eq_some_iff.1 isQ).1 eq).symm
        exact ⟨ptrQ, awayQ, by rw [List.getElem?_set_ne ne, cellQ]⟩
    · simp only [List.length_set]
      exact refines.injective q r
    · simp only [List.length_set]
      exact refines.valid ps memP q memQ

/-! ## The list of the open outers -/

/-- The outers point to the stack, and what is first points highest. -/
structure Sorted (s : Outers) (ps : List ℕ) : Prop where
  open_ : ∀ p ∈ ps, ∃ o, s.outers[p]? = some o ∧ o.valptr = .stack (s.vals + o.idx) ∧
    o.idx < s.stack.length
  sorted : ps.Pairwise fun p q => ∀ o o', s.outers[p]? = some o → s.outers[q]? = some o' →
    o'.idx < o.idx

theorem Refines.sorted_open (refines : Refines f s t) : Sorted s s.openouters where
  open_ p mem := by
    obtain ⟨o, is, ptr, at_⟩ := refines.opened p mem
    obtain ⟨v, -, stack⟩ := refines.value _ _ at_
    exact ⟨o, is, ptr, (List.getElem?_eq_some_iff.1 stack).1⟩
  sorted := refines.sorted

theorem Sorted.tail {ps : List ℕ} (sorted : Sorted s (p :: ps)) : Sorted s ps where
  open_ q mem := sorted.open_ q (List.mem_cons_of_mem _ mem)
  sorted := (List.pairwise_cons.1 sorted.sorted).2

/-- An outer is on the list once. -/
theorem Sorted.notMem {ps : List ℕ} (sorted : Sorted s (p :: ps)) : p ∉ ps := by
  intro mem
  obtain ⟨o, is, -⟩ := sorted.open_ p List.mem_cons_self
  exact Nat.lt_irrefl _ ((List.pairwise_cons.1 sorted.sorted).1 p mem o o is is)

theorem Sorted.nodup {ps : List ℕ} (sorted : Sorted s ps) : ps.Nodup := by
  induction ps with
  | nil => exact List.nodup_nil
  | cons p ps ih => exact List.nodup_cons.2 ⟨sorted.notMem, ih sorted.tail⟩

theorem Sorted.address {ps : List ℕ} (sorted : Sorted s ps) (mem : p ∈ ps)
    (is : s.outers[p]? = some o) : s.address p = some (s.vals + o.idx) := by
  obtain ⟨o', is', ptr, -⟩ := sorted.open_ p mem
  rw [is] at is'
  cases is'
  rw [Outers.address, is]
  simp only [Option.bind_some, ptr]

/-- The loop of `FindOuter` finds the outer of the place, or where a new one goes. -/
theorem Sorted.locate {ps : List ℕ} (sorted : Sorted s ps) (i new : ℕ) :
    (∃ p o, p ∈ ps ∧ s.outers[p]? = some o ∧ o.idx = i ∧
      s.locate (s.vals + i) new ps = some (p, ps)) ∨
    ∃ before after, ps = before ++ after ∧
      (∀ p ∈ before, ∀ o, s.outers[p]? = some o → i < o.idx) ∧
      (∀ p ∈ after, ∀ o, s.outers[p]? = some o → o.idx < i) ∧
      s.locate (s.vals + i) new ps = some (new, before ++ new :: after) := by
  induction ps with
  | nil => exact .inr ⟨[], [], rfl, by simp, by simp, rfl⟩
  | cons p ps ih =>
    obtain ⟨o, is, -⟩ := sorted.open_ p List.mem_cons_self
    have at_ := sorted.address List.mem_cons_self is
    have below : ∀ q ∈ ps, ∀ o', s.outers[q]? = some o' → o'.idx < o.idx := fun q mem o' isQ =>
      (List.pairwise_cons.1 sorted.sorted).1 q mem o o' is isQ
    rcases Nat.lt_trichotomy o.idx i with lt | same | lt
    · refine .inr ⟨[], p :: ps, rfl, by simp, fun q mem o' isQ => ?_, ?_⟩
      · rcases List.mem_cons.1 mem with rfl | mem
        · rw [is] at isQ
          cases isQ
          exact lt
        · exact Nat.lt_trans (below q mem o' isQ) lt
      · rw [Outers.locate, at_, Option.bind_some, if_neg (by omega)]
        rfl
    · refine .inl ⟨p, o, List.mem_cons_self, is, same, ?_⟩
      rw [Outers.locate, at_, Option.bind_some, if_pos (by omega), if_pos (by omega)]
    · have next : s.locate (s.vals + i) new (p :: ps) =
          (s.locate (s.vals + i) new ps).map fun r => (r.1, p :: r.2) := by
        rw [Outers.locate, at_, Option.bind_some, if_pos (by omega), if_neg (by omega)]
      rcases ih sorted.tail with
        ⟨q, o', mem, isQ, idx, found⟩ | ⟨before, after, rfl, above, under, none⟩
      · exact .inl ⟨q, o', List.mem_cons_of_mem _ mem, isQ, idx, by rw [next, found]; rfl⟩
      · refine .inr
          ⟨p :: before, after, rfl, fun q mem o' isQ => ?_, under, by rw [next, none]; rfl⟩
        rcases List.mem_cons.1 mem with rfl | mem
        · rw [is] at isQ
          cases isQ
          exact lt
        · exact above q mem o' isQ

/-! ## Capturing -/

section Insert

variable {before after : List ℕ} {q r : ℕ}

theorem Refines.open_lt (refines : Refines f s t) (mem : q ∈ s.openouters) :
    q < s.outers.length := by
  obtain ⟨o, is, -⟩ := refines.opened q mem
  exact (List.getElem?_eq_some_iff.1 is).1

theorem outer_before (lt : q < s.outers.length) (new : SQOuter) :
    (s.outers ++ [new])[q]? = s.outers[q]? := List.getElem?_append_left lt

theorem outer_new (s : Outers) (new : SQOuter) :
    (s.outers ++ [new])[s.outers.length]? = some new := by
  rw [List.getElem?_append_right (Nat.le_refl _), Nat.sub_self]
  rfl

theorem update_before (f : ℕ → ℕ) (x : ℕ) (lt : q < s.outers.length) :
    Function.update f s.outers.length x q = f q := Function.update_of_ne (Nat.ne_of_lt lt) _ _

theorem mem_insert_iff (split : s.openouters = before ++ after) :
    q ∈ before ++ s.outers.length :: after ↔ q = s.outers.length ∨ q ∈ s.openouters := by
  rw [split, List.mem_append, List.mem_append, List.mem_cons]
  exact or_left_comm

/-- No other outer stands for the variable. -/
theorem Refines.unnamed (refines : Refines f s t) (at_ : t.slots[i]? = some x)
    (split : s.openouters = before ++ after)
    (above : ∀ p ∈ before, ∀ o, s.outers[p]? = some o → i < o.idx)
    (under : ∀ p ∈ after, ∀ o, s.outers[p]? = some o → o.idx < i) (lt : q < s.outers.length) :
    f q ≠ x := by
  rintro rfl
  have is : s.outers[q]? = some s.outers[q] := List.getElem?_eq_getElem lt
  by_cases mem : q ∈ s.openouters
  · obtain ⟨o, isO, -, atQ⟩ := refines.opened q mem
    obtain ⟨ltSlot, -⟩ := List.getElem?_eq_some_iff.1 at_
    have idx : i = o.idx :=
      (List.getElem?_inj ltSlot refines.distinct).1 (at_.trans atQ.symm)
    rw [split, List.mem_append] at mem
    rcases mem with mem | mem
    · have := above q mem o isO
      omega
    · have := under q mem o isO
      omega
  · exact (refines.closed q _ is mem).2.1 (List.mem_of_getElem? at_)

theorem Refines.sorted_insert (refines : Refines f s t) (vals : ℕ)
    (split : s.openouters = before ++ after)
    (above : ∀ p ∈ before, ∀ o, s.outers[p]? = some o → i < o.idx)
    (under : ∀ p ∈ after, ∀ o, s.outers[p]? = some o → o.idx < i) :
    (before ++ s.outers.length :: after).Pairwise fun p q => ∀ o o',
      (s.outers ++ [⟨.stack (vals + i), i, .null⟩])[p]? = some o →
      (s.outers ++ [⟨.stack (vals + i), i, .null⟩])[q]? = some o' → o'.idx < o.idx := by
  have ltBefore : ∀ q ∈ before, q < s.outers.length := fun q mem =>
    refines.open_lt (split ▸ List.mem_append_left _ mem)
  have ltAfter : ∀ q ∈ after, q < s.outers.length := fun q mem =>
    refines.open_lt (split ▸ List.mem_append_right _ mem)
  have sorted := refines.sorted
  rw [split, List.pairwise_append] at sorted
  obtain ⟨first, second, between⟩ := sorted
  refine List.pairwise_append.2 ⟨?_, List.pairwise_cons.2 ⟨?_, ?_⟩, ?_⟩
  · refine first.imp_of_mem fun {q r} memQ memR before o o' isQ isR => ?_
    rw [outer_before (ltBefore q memQ)] at isQ
    rw [outer_before (ltBefore r memR)] at isR
    exact before o o' isQ isR
  · intro q mem o o' isNew isQ
    rw [outer_new] at isNew
    rw [outer_before (ltAfter q mem)] at isQ
    cases isNew
    exact under q mem o' isQ
  · refine second.imp_of_mem fun {q r} memQ memR before o o' isQ isR => ?_
    rw [outer_before (ltAfter q memQ)] at isQ
    rw [outer_before (ltAfter r memR)] at isR
    exact before o o' isQ isR
  · intro q memQ r memR o o' isQ isR
    rw [outer_before (ltBefore q memQ)] at isQ
    rcases List.mem_cons.1 memR with rfl | memR
    · rw [outer_new] at isR
      cases isR
      exact above q memQ o isQ
    · rw [outer_before (ltAfter r memR)] at isR
      exact between q memQ r memR o o' isQ isR

theorem Refines.injective_insert (refines : Refines f s t)
    (unnamed : ∀ q < s.outers.length, f q ≠ x) (ltQ : q < s.outers.length + 1)
    (ltR : r < s.outers.length + 1) (eq : Function.update f s.outers.length x q =
      Function.update f s.outers.length x r) : q = r := by
  by_cases newQ : q = s.outers.length <;> by_cases newR : r = s.outers.length
  · exact newQ.trans newR.symm
  · rw [newQ, Function.update_self, update_before f x (by omega)] at eq
    exact absurd eq.symm (unnamed r (by omega))
  · rw [newR, Function.update_self, update_before f x (by omega)] at eq
    exact absurd eq (unnamed q (by omega))
  · rw [update_before f x (by omega), update_before f x (by omega)] at eq
    exact refines.injective q r (by omega) (by omega) eq

/-- A new outer for the variable at a place that no open one points to. -/
theorem Refines.insert (refines : Refines f s t) (at_ : t.slots[i]? = some x)
    (split : s.openouters = before ++ after)
    (above : ∀ p ∈ before, ∀ o, s.outers[p]? = some o → i < o.idx)
    (under : ∀ p ∈ after, ∀ o, s.outers[p]? = some o → o.idx < i) :
    Refines (Function.update f s.outers.length x)
      { s with
        openouters := before ++ s.outers.length :: after
        outers := s.outers ++ [⟨.stack (s.vals + i), i, .null⟩] } t where
  length := refines.length
  distinct := refines.distinct
  value := refines.value
  sorted := refines.sorted_insert s.vals split above under
  opened q mem := by
    rcases (mem_insert_iff split).1 mem with rfl | mem
    · exact ⟨_, outer_new s _, rfl, by rw [Function.update_self]; exact at_⟩
    · obtain ⟨o, is, rest⟩ := refines.opened q mem
      rw [update_before f x (refines.open_lt mem)]
      exact ⟨o, (outer_before (refines.open_lt mem) _).trans is, rest⟩
  closed q o is out := by
    rw [mem_insert_iff split, not_or] at out
    have lt : q < s.outers.length := by
      have := (List.getElem?_eq_some_iff.1 is).1
      rw [List.length_append, List.length_singleton] at this
      omega
    rw [update_before f x lt]
    exact refines.closed q o ((outer_before lt _).symm.trans is) out.2
  injective q r ltQ ltR eq := by
    rw [List.length_append, List.length_singleton] at ltQ ltR
    exact refines.injective_insert
      (fun _ lt => refines.unnamed at_ split above under lt) ltQ ltR eq
  closures := by
    rw [refines.closures]
    refine List.map_congr_left fun ps memP => List.map_congr_left fun q memQ => ?_
    exact (update_before f x (refines.valid ps memP q memQ)).symm
  valid ps memP q memQ := by
    rw [List.length_append]
    exact Nat.lt_add_right _ (refines.valid ps memP q memQ)

end Insert

/-- An outer for the variable at a place. -/
theorem Refines.findOuter (refines : Refines f s t) (at_ : t.slots[i]? = some x) :
    ∃ p s' f', s.findOuter i = some (p, s') ∧ Refines f' s' t ∧ f' p = x ∧
      p < s'.outers.length ∧ s'.closures = s.closures ∧ s'.stack = s.stack ∧
      s.outers.length ≤ s'.outers.length ∧ ∀ q < s.outers.length, f' q = f q := by
  rcases refines.sorted_open.locate i s.outers.length with
    ⟨p, o, mem, is, rfl, found⟩ | ⟨before, after, split, above, under, found⟩
  · obtain ⟨lt, -⟩ := List.getElem?_eq_some_iff.1 is
    obtain ⟨o', is', -, at'⟩ := refines.opened p mem
    rw [is] at is'
    cases is'
    rw [at_] at at'
    cases at'
    refine ⟨p, s, f, ?_, refines, rfl, lt, rfl, rfl, Nat.le_refl _, fun _ _ => rfl⟩
    rw [Outers.findOuter, found, Option.map_some, if_neg (Nat.ne_of_lt lt)]
  · exact ⟨_, _, _, by rw [Outers.findOuter, found, Option.map_some, if_pos rfl],
      refines.insert at_ split above under, Function.update_self _ _ _, by simp, rfl, rfl, by simp,
      fun q lt => Function.update_of_ne (Nat.ne_of_lt lt) _ _⟩


/-- The outers of a closure stand for its variables. -/
theorem Refines.outerOf (refines : Refines f s t) (k j : ℕ) :
    t.variableOf k j = (s.outerOf k j).map f ∧
      ∀ p, s.outerOf k j = some p → p < s.outers.length := by
  rw [Scopes.variableOf, Outers.outerOf, refines.closures, List.getElem?_map]
  cases is : s.closures[k]? with
  | none => exact ⟨rfl, fun p eq => by cases eq⟩
  | some ps =>
    refine ⟨by simp, fun p eq => ?_⟩
    exact refines.valid ps (List.mem_of_getElem? is) p (List.mem_of_getElem? eq)

/-- A new closure captures the variables that it should. -/
theorem Refines.capture (refines : Refines f s t) (current : ℕ) (vs : List SQOuterVar) :
    Option.Rel (fun r xs => ∃ f', Refines f' r.2 t ∧ r.1.map f' = xs ∧
        (∀ p ∈ r.1, p < r.2.outers.length) ∧ s.outers.length ≤ r.2.outers.length ∧
        ∀ q < s.outers.length, f' q = f q)
      (Outers.capture current vs s) (vs.mapM (t.capture current)) := by
  induction vs generalizing s f with
  | nil => exact .some ⟨f, refines, rfl, by simp, Nat.le_refl _, fun _ _ => rfl⟩
  | cons v vs ih =>
    rw [List.mapM_cons]
    cases v with
    | otLocal i =>
      rw [Outers.capture]
      cases at_ : t.slots[i]? with
      | none =>
        have ge : ¬ i < s.stack.length := by
          rw [refines.length, Nat.not_lt]
          exact List.getElem?_eq_none_iff.1 at_
        rw [if_neg ge, Scopes.capture, at_]
        exact .none
      | some x =>
        have lt : i < s.stack.length := by
          rw [refines.length]
          exact (List.getElem?_eq_some_iff.1 at_).1
        obtain ⟨p, s₁, f₁, found, refines₁, stands, ltP, closures, -, more, same⟩ :=
          refines.findOuter at_
        rw [if_pos lt, found, Option.bind_some, Scopes.capture, at_]
        show Option.Rel _ _ (Option.bind (vs.mapM (t.capture current)) fun xs => some (x :: xs))
        have rest := ih refines₁
        generalize Outers.capture current vs s₁ = r, vs.mapM (t.capture current) = r' at rest
        cases rest with
        | none => exact .none
        | some rest =>
          obtain ⟨f₂, refines₂, rfl, valid, more₂, same₂⟩ := rest
          refine .some ⟨f₂, refines₂, ?_, fun q mem => ?_, Nat.le_trans more more₂, fun q ltQ => ?_⟩
          · rw [List.map_cons, same₂ p ltP, stands]
          · rcases List.mem_cons.1 mem with rfl | mem
            · exact Nat.lt_of_lt_of_le ltP more₂
            · exact valid q mem
          · rw [same₂ q (Nat.lt_of_lt_of_le ltQ more), same q ltQ]
    | otOuter j =>
      obtain ⟨variable_, valid⟩ := refines.outerOf current j
      rw [Outers.capture, Scopes.capture, variable_]
      cases is : s.outerOf current j with
      | none => exact .none
      | some p =>
        show Option.Rel _ _ (Option.bind (vs.mapM (t.capture current)) fun xs => some (f p :: xs))
        rw [Option.bind_some]
        have rest := ih refines
        generalize Outers.capture current vs s = r, vs.mapM (t.capture current) = r' at rest
        cases rest with
        | none => exact .none
        | some rest =>
          obtain ⟨f₂, refines₂, rfl, valid₂, more, same⟩ := rest
          have ltP := valid p is
          refine .some ⟨f₂, refines₂, ?_, fun q mem => ?_, more, same⟩
          · rw [List.map_cons, same p ltP]
          · rcases List.mem_cons.1 mem with rfl | mem
            · exact Nat.lt_of_lt_of_le ltP more
            · exact valid₂ q mem

/-! ## Closing -/

/-- The outers `before`, which point to the place `i` or above, have been closed with the values that
are there, and the outers `after` are still open. -/
structure ClosedFrom (s : Outers) (i : ℕ) (before after : List ℕ) (s' : Outers) : Prop where
  openouters : s'.openouters = after
  vals : s'.vals = s.vals
  stack : s'.stack = s.stack
  closures : s'.closures = s.closures
  length : s'.outers.length = s.outers.length
  under : ∀ p ∈ after, ∀ o, s.outers[p]? = some o → o.idx < i
  moved : ∀ p ∈ before, ∃ o v, s.outers[p]? = some o ∧ i ≤ o.idx ∧ s.stack[o.idx]? = some v ∧
    s'.outers[p]? = some { o with value := v, valptr := .own }
  kept : ∀ p, p ∉ before → s'.outers[p]? = s.outers[p]?

/-- `CloseOuters` takes the outers from the list that point to the place or above. -/
theorem Sorted.closeOuters {ps : List ℕ} (sorted : Sorted s ps) (i : ℕ) :
    ∃ s' before after, Outers.closeOuters (s.vals + i) ps s = some s' ∧ ps = before ++ after ∧
      ClosedFrom s i before after s' := by
  induction ps generalizing s with
  | nil =>
    exact ⟨{ s with openouters := [] }, [], [], rfl, rfl, rfl, rfl, rfl, rfl, rfl, by simp, by simp,
      fun _ _ => rfl⟩
  | cons p ps ih =>
    obtain ⟨o, is, ptr, lt⟩ := sorted.open_ p List.mem_cons_self
    have at_ := sorted.address List.mem_cons_self is
    rw [Outers.closeOuters, at_, Option.bind_some]
    by_cases le : i ≤ o.idx
    · obtain ⟨v, stack⟩ : ∃ v, s.stack[o.idx]? = some v := ⟨_, List.getElem?_eq_getElem lt⟩
      have value : s.deref p = some v := by
        rw [Outers.deref, is]
        simp only [Option.bind_some, ptr, Nat.le_add_right, if_true, Nat.add_sub_cancel_left, stack]
      have others : ∀ q, q ≠ p → (s.outers.modify p fun r =>
          { r with value := v, valptr := .own })[q]? = s.outers[q]? := fun q ne =>
        List.getElem?_modify_ne _ _ ne.symm
      have closed : (s.outers.modify p fun r => { r with value := v, valptr := .own })[p]? =
          some { o with value := v, valptr := .own } := by
        rw [List.getElem?_modify_eq, is]
        rfl
      have apart : ∀ q ∈ ps, q ≠ p := fun q mem same => sorted.notMem (same ▸ mem)
      have rest : Sorted { s with outers := s.outers.modify p fun r =>
          { r with value := v, valptr := .own } } ps := by
        refine ⟨fun q mem => ?_, ?_⟩
        · obtain ⟨r, isQ, old⟩ := sorted.tail.open_ q mem
          exact ⟨r, (others q (apart q mem)).trans isQ, old⟩
        · refine sorted.tail.sorted.imp_of_mem fun {q r} memQ memR before o o' isQ isR => ?_
          exact before o o' (others q (apart q memQ) ▸ isQ) (others r (apart r memR) ▸ isR)
      obtain ⟨s', before, after, ran, rfl, tail⟩ := ih rest
      have notBefore : p ∉ before := fun mem => sorted.notMem (List.mem_append_left _ mem)
      refine ⟨s', p :: before, after, ?_, rfl, tail.openouters, tail.vals, tail.stack,
        tail.closures, ?_, fun q mem r isQ => ?_, fun q mem => ?_, fun q out => ?_⟩
      · rw [if_pos (by omega), value, Option.bind_some]
        exact ran
      · rw [tail.length, List.length_modify]
      · exact tail.under q mem r ((others q (apart q (List.mem_append_right _ mem))).trans isQ)
      · rcases List.mem_cons.1 mem with rfl | mem
        · exact ⟨o, v, is, le, stack, (tail.kept q notBefore).trans closed⟩
        · obtain ⟨r, u, isQ, leQ, stackQ, isQ'⟩ := tail.moved q mem
          have ne := apart q (List.mem_append_left _ mem)
          exact ⟨r, u, (others q ne).symm.trans isQ, leQ, stackQ, isQ'⟩
      · rw [List.mem_cons, not_or] at out
        exact (tail.kept q out.2).trans (others q out.1)
    · rw [if_neg (by omega)]
      refine ⟨_, [], p :: ps, rfl, rfl, rfl, rfl, rfl, rfl, rfl, fun q mem r isQ => ?_, by simp,
        fun _ _ => rfl⟩
      rcases List.mem_cons.1 mem with rfl | mem
      · rw [is] at isQ
        cases isQ
        omega
      · have := (List.pairwise_cons.1 sorted.sorted).1 q mem o r is isQ
        omega

/-- The places from one on have new variables, with the values of the old ones. -/
def Scopes.renew (t : Scopes) (i : ℕ) : Scopes :=
  { t with
    cells := t.cells ++ (t.slots.drop i).map fun x => t.cells.getD x .null
    slots := t.slots.take i ++ List.range' t.cells.length (t.slots.length - i) }

section Renew

variable {j : ℕ} {v : SQObject}

theorem length_renew (t : Scopes) (i : ℕ) : (t.renew i).slots.length = t.slots.length := by
  show (t.slots.take i ++ List.range' _ _).length = _
  rw [List.length_append, List.length_take, List.length_range']
  omega

theorem renew_cell (i : ℕ) (cell : t.cells[x]? = some v) : (t.renew i).cells[x]? = some v :=
  (List.getElem?_append_left (List.getElem?_eq_some_iff.1 cell).1).trans cell

theorem renew_below (below : j < i) (lt : j < t.slots.length) :
    (t.renew i).slots[j]? = t.slots[j]? := by
  show (t.slots.take i ++ List.range' _ _)[j]? = _
  rw [List.getElem?_append_left (by rw [List.length_take]; omega), List.getElem?_take_of_lt below]

/-- A variable that was made before has a place below, or none. -/
theorem mem_of_mem_renew (lt : x < t.cells.length) (mem : x ∈ (t.renew i).slots) :
    x ∈ t.slots.take i := by
  rcases List.mem_append.1 mem with mem | mem
  · exact mem
  · have := (List.mem_range'_1.1 mem).1
    omega

theorem Refines.not_mem_renew (refines : Refines f s t) (at_ : t.slots[j]? = some x)
    (le : i ≤ j) : x ∉ (t.renew i).slots := by
  intro mem
  have mem := mem_of_mem_renew (refines.slot_lt x (List.mem_of_getElem? at_)) mem
  obtain ⟨k, atK⟩ := List.mem_iff_getElem?.1 mem
  obtain ⟨ltTake, -⟩ := List.getElem?_eq_some_iff.1 atK
  rw [List.length_take] at ltTake
  rw [List.getElem?_take_of_lt (by omega)] at atK
  have := (List.getElem?_inj (by omega) refines.distinct).1 (atK.trans at_.symm)
  omega

theorem Refines.nodup_renew (refines : Refines f s t) (i : ℕ) : (t.renew i).slots.Nodup := by
  refine List.nodup_append.2 ⟨refines.distinct.take, List.nodup_range', fun x mem y mem' => ?_⟩
  have := refines.slot_lt x (List.mem_of_mem_take mem)
  have := (List.mem_range'_1.1 mem').1
  omega

theorem Refines.renew_value (refines : Refines f s t) (at_ : (t.renew i).slots[j]? = some x) :
    ∃ v, (t.renew i).cells[x]? = some v ∧ s.stack[j]? = some v := by
  obtain ⟨lt, -⟩ := List.getElem?_eq_some_iff.1 at_
  rw [length_renew] at lt
  by_cases below : j < i
  · rw [renew_below below lt] at at_
    obtain ⟨v, cell, stack⟩ := refines.value j x at_
    exact ⟨v, renew_cell i cell, stack⟩
  · obtain ⟨v, cell, stack⟩ := refines.value j _ (List.getElem?_eq_getElem lt)
    change (t.slots.take i ++ List.range' t.cells.length (t.slots.length - i))[j]? = _ at at_
    have new : x = t.cells.length + (j - i) := by
      rw [List.getElem?_append_right (by rw [List.length_take]; omega), List.length_take,
        List.getElem?_range' (by omega)] at at_
      have := Option.some.inj at_
      omega
    refine ⟨v, ?_, stack⟩
    show (t.cells ++ (t.slots.drop i).map fun x => t.cells.getD x .null)[x]? = _
    rw [new, List.getElem?_append_right (Nat.le_add_right _ _), Nat.add_sub_cancel_left,
      List.getElem?_map, List.getElem?_drop, show i + (j - i) = j by omega,
      List.getElem?_eq_getElem lt, Option.map_some, List.getD_eq_getElem?_getD, cell]
    rfl

end Renew

section Close

variable {before after : List ℕ} {s' : Outers}

theorem Refines.opened_close (refines : Refines f s t) (split : s.openouters = before ++ after)
    (closed : ClosedFrom s i before after s') (apart : ∀ p ∈ after, p ∉ before)
    (mem : p ∈ after) : ∃ o, s'.outers[p]? = some o ∧ o.valptr = .stack (s'.vals + o.idx) ∧
      (t.renew i).slots[o.idx]? = some (f p) := by
  obtain ⟨o, is, ptr, at_⟩ := refines.opened p (split ▸ List.mem_append_right _ mem)
  refine ⟨o, (closed.kept p (apart p mem)).trans is, by rw [closed.vals, ptr], ?_⟩
  have lt := (List.getElem?_eq_some_iff.1 at_).1
  exact (renew_below (closed.under p mem o is) lt).trans at_

theorem Refines.closed_close (refines : Refines f s t) (split : s.openouters = before ++ after)
    (closed : ClosedFrom s i before after s') {o : SQOuter} (is : s'.outers[p]? = some o)
    (out : p ∉ after) : o.valptr = .own ∧ f p ∉ (t.renew i).slots ∧
      (t.renew i).cells[f p]? = some o.value := by
  by_cases mem : p ∈ before
  · obtain ⟨r, v, isR, le, stackR, isR'⟩ := closed.moved p mem
    rw [is] at isR'
    cases isR'
    obtain ⟨r', isP, -, at_⟩ := refines.opened p (split ▸ List.mem_append_left _ mem)
    rw [isR] at isP
    cases isP
    obtain ⟨u, cell, stackU⟩ := refines.value _ _ at_
    rw [stackR] at stackU
    cases stackU
    exact ⟨rfl, refines.not_mem_renew at_ le, renew_cell i cell⟩
  · rw [closed.kept p mem] at is
    have out' : p ∉ s.openouters := by
      rw [split, List.mem_append, not_or]
      exact ⟨mem, out⟩
    obtain ⟨ptr, away, cell⟩ := refines.closed p o is out'
    have lt := (List.getElem?_eq_some_iff.1 cell).1
    exact ⟨ptr, fun mem' => away (List.mem_of_mem_take (mem_of_mem_renew lt mem')),
      renew_cell i cell⟩

/-- The places beyond a closed one have new variables. -/
theorem Refines.close (refines : Refines f s t) (i : ℕ) :
    ∃ s', Outers.closeOuters (s.vals + i) s.openouters s = some s' ∧
      Refines f s' (t.renew i) := by
  obtain ⟨s', before, after, ran, split, closed⟩ := refines.sorted_open.closeOuters i
  have nodup : (before ++ after).Nodup := split ▸ refines.sorted_open.nodup
  have apart : ∀ p ∈ after, p ∉ before := fun p memA memB =>
    (List.nodup_append.1 nodup).2.2 p memB p memA rfl
  have sorted := refines.sorted
  rw [split, List.pairwise_append] at sorted
  refine ⟨s', ran, {
    length := by rw [closed.stack, refines.length, length_renew]
    distinct := refines.nodup_renew i
    value := fun j x at_ => by
      rw [closed.stack]
      exact refines.renew_value at_
    sorted := by
      rw [closed.openouters]
      refine sorted.2.1.imp_of_mem fun {p q} memP memQ before o o' isP isQ => ?_
      rw [closed.kept p (apart p memP)] at isP
      rw [closed.kept q (apart q memQ)] at isQ
      exact before o o' isP isQ
    opened := fun p mem => refines.opened_close split closed apart (closed.openouters ▸ mem)
    closed := fun p o is out => refines.closed_close split closed is (closed.openouters ▸ out)
    injective := fun p q => by
      rw [closed.length]
      exact refines.injective p q
    closures := by
      rw [closed.closures]
      exact refines.closures
    valid := fun ps memP p memQ => by
      rw [closed.closures] at memP
      rw [closed.length]
      exact refines.valid ps memP p memQ }⟩

end Close

/-! ## Growing -/

/-- `RelocateOuters` points the outers of a list anew. -/
theorem outers_relocateOuters {ps : List ℕ} (nodup : ps.Nodup) (s : Outers) :
    (Outers.relocateOuters ps s).vals = s.vals ∧ (Outers.relocateOuters ps s).stack = s.stack ∧
      (Outers.relocateOuters ps s).openouters = s.openouters ∧
      (Outers.relocateOuters ps s).closures = s.closures ∧
      (Outers.relocateOuters ps s).outers.length = s.outers.length ∧
      ∀ p, (Outers.relocateOuters ps s).outers[p]? = (s.outers[p]?).map fun o =>
        if p ∈ ps then { o with valptr := .stack (s.vals + o.idx) } else o := by
  induction ps generalizing s with
  | nil => exact ⟨rfl, rfl, rfl, rfl, rfl, fun p => by simp [Outers.relocateOuters]⟩
  | cons p ps ih =>
    obtain ⟨fresh, nodup⟩ := List.nodup_cons.1 nodup
    obtain ⟨vals, stack, list, closures, length, outers⟩ := ih nodup
      { s with outers := s.outers.modify p fun o => { o with valptr := .stack (s.vals + o.idx) } }
    refine ⟨vals, stack, list, closures, length.trans (List.length_modify _ _ _), fun q => ?_⟩
    rw [Outers.relocateOuters, outers]
    by_cases same : q = p
    · subst same
      rw [List.getElem?_modify_eq]
      cases s.outers[q]? with
      | none => rfl
      | some o =>
        simp only [Option.map_eq_map, Option.map_some, if_neg fresh, if_pos List.mem_cons_self]
    · rw [List.getElem?_modify_ne _ _ (Ne.symm same)]
      simp only [List.mem_cons, or_iff_right same]

/-- New places have new variables, and the others are as they were. -/
theorem Refines.grow (refines : Refines f s t) (vals more : ℕ) :
    Refines f (Outers.relocateOuters s.openouters
      { s with vals := vals, stack := s.stack ++ List.replicate more .null })
      { t with
        cells := t.cells ++ List.replicate more .null
        slots := t.slots ++ List.range' t.cells.length more } := by
  obtain ⟨sameVals, stack, list, closures, length, outers⟩ :=
    outers_relocateOuters refines.sorted_open.nodup
      { s with vals := vals, stack := s.stack ++ List.replicate more .null }
  generalize Outers.relocateOuters s.openouters
    { s with vals := vals, stack := s.stack ++ List.replicate more .null } = s' at *
  have oldCell : ∀ {x : ℕ} {v}, t.cells[x]? = some v →
      (t.cells ++ List.replicate more .null)[x]? = some v :=
    fun cell => (List.getElem?_append_left (List.getElem?_eq_some_iff.1 cell).1).trans cell
  have opens : ∀ p ∈ s.openouters, ∀ o, s'.outers[p]? = some o → ∃ o₀, s.outers[p]? = some o₀ ∧
      o = { o₀ with valptr := .stack (vals + o₀.idx) } := by
    intro p mem o is
    rw [outers, Option.map_eq_some_iff] at is
    obtain ⟨o₀, is₀, eq⟩ := is
    rw [if_pos mem] at eq
    exact ⟨o₀, is₀, eq.symm⟩
  refine ⟨?_, ?_, fun j x at_ => ?_, ?_, fun p mem => ?_, fun p o is out => ?_, fun p q => ?_, ?_,
    fun ps memP p memQ => ?_⟩
  · rw [stack]
    simp only [List.length_append, List.length_replicate, List.length_range', refines.length]
  · refine List.nodup_append.2 ⟨refines.distinct, List.nodup_range', fun x mem y mem' => ?_⟩
    have := refines.slot_lt x mem
    have := (List.mem_range'_1.1 mem').1
    omega
  · rw [stack]
    show ∃ v, (t.cells ++ List.replicate more .null)[x]? = some v ∧
      (s.stack ++ List.replicate more .null)[j]? = some v
    by_cases below : j < t.slots.length
    · rw [List.getElem?_append_left below] at at_
      obtain ⟨v, cell, stackJ⟩ := refines.value j x at_
      refine ⟨v, oldCell cell, ?_⟩
      rw [List.getElem?_append_left (List.getElem?_eq_some_iff.1 stackJ).1, stackJ]
    · obtain ⟨lt, -⟩ := List.getElem?_eq_some_iff.1 at_
      rw [List.length_append, List.length_range'] at lt
      rw [List.getElem?_append_right (by omega), List.getElem?_range' (by omega)] at at_
      have new := Option.some.inj at_
      refine ⟨.null, ?_, ?_⟩
      · rw [List.getElem?_append_right (by omega), List.getElem?_replicate_of_lt (by omega)]
      · have := refines.length
        rw [List.getElem?_append_right (by omega), List.getElem?_replicate_of_lt (by omega)]
  · rw [list]
    refine refines.sorted.imp_of_mem fun {p q} memP memQ before o o' isP isQ => ?_
    obtain ⟨o₀, is₀, rfl⟩ := opens p memP o isP
    obtain ⟨o₁, is₁, rfl⟩ := opens q memQ o' isQ
    exact before o₀ o₁ is₀ is₁
  · rw [list] at mem
    obtain ⟨o, is, ptr, at_⟩ := refines.opened p mem
    refine ⟨{ o with valptr := .stack (vals + o.idx) }, ?_, by rw [sameVals], ?_⟩
    · rw [outers, is, Option.map_some, if_pos mem]
    · exact (List.getElem?_append_left (List.getElem?_eq_some_iff.1 at_).1).trans at_
  · rw [list] at out
    rw [outers, Option.map_eq_some_iff] at is
    obtain ⟨o₀, is₀, eq⟩ := is
    rw [if_neg out] at eq
    subst eq
    obtain ⟨ptr, away, cell⟩ := refines.closed p _ is₀ out
    refine ⟨ptr, fun mem => ?_, oldCell cell⟩
    rcases List.mem_append.1 mem with mem | mem
    · exact away mem
    · have := (List.getElem?_eq_some_iff.1 cell).1
      have := (List.mem_range'_1.1 mem).1
      omega
  · rw [length]
    exact refines.injective p q
  · rw [closures]
    exact refines.closures
  · rw [closures] at memP
    rw [length]
    exact refines.valid ps memP p memQ

/-! ## Runs -/

theorem Refines.call (refines : Refines f s t) (a : VariableCall) :
    Option.Rel (fun p q => p.1 = q.1 ∧ ∃ f, Refines f p.2 q.2) (s.call a) (t.call a) := by
  have place : ∀ i, t.slots[i]? = none → ¬ i < s.stack.length := fun i at_ => by
    rw [refines.length, Nat.not_lt]
    exact List.getElem?_eq_none_iff.1 at_
  cases a with
  | load i =>
    rw [Outers.call, Scopes.call]
    cases at_ : t.slots[i]? with
    | none =>
      rw [List.getElem?_eq_none_iff.2 (Nat.not_lt.1 (place i at_))]
      exact .none
    | some x =>
      obtain ⟨v, cell, stack⟩ := refines.value i x at_
      rw [stack, Option.bind_some, cell]
      exact .some ⟨rfl, f, refines⟩
  | store i v =>
    rw [Outers.call, Scopes.call]
    cases at_ : t.slots[i]? with
    | none =>
      rw [if_neg (place i at_)]
      exact .none
    | some x =>
      obtain ⟨_, -, stack⟩ := refines.value i x at_
      rw [if_pos (List.getElem?_eq_some_iff.1 stack).1]
      exact .some ⟨rfl, f, refines.store at_ v⟩
  | closure current outervalues =>
    rw [Outers.call, Scopes.call]
    have captured := refines.capture current outervalues
    generalize Outers.capture current outervalues s = r,
      outervalues.mapM (t.capture current) = r' at captured
    cases captured with
    | none => exact .none
    | @some r xs related =>
      obtain ⟨f', refines', rfl, valid, -⟩ := related
      refine .some ⟨rfl, f', refines'.length, refines'.distinct, refines'.value, refines'.sorted,
        refines'.opened, refines'.closed, refines'.injective, ?_, fun ps mem => ?_⟩
      · show t.closures ++ [r.1.map f'] = (r.2.closures ++ [r.1]).map _
        rw [List.map_append, refines'.closures]
        rfl
      · rcases List.mem_append.1 mem with mem | mem
        · exact refines'.valid ps mem
        · rw [List.mem_singleton.1 mem]
          exact valid
  | getOuter k j =>
    obtain ⟨variable_, valid⟩ := refines.outerOf k j
    rw [Outers.call, Scopes.call, variable_]
    cases is : s.outerOf k j with
    | none => exact .none
    | some p =>
      obtain ⟨v, value, cell⟩ := refines.deref (valid p is)
      rw [Option.bind_some, Option.map_some, Option.bind_some, value, cell]
      exact .some ⟨rfl, f, refines⟩
  | setOuter k j v =>
    obtain ⟨variable_, valid⟩ := refines.outerOf k j
    rw [Outers.call, Scopes.call, variable_]
    cases is : s.outerOf k j with
    | none => exact .none
    | some p =>
      obtain ⟨s', assigned, refines'⟩ := refines.assign (valid p is) v
      rw [Option.bind_some, assigned]
      exact .some ⟨rfl, f, refines'⟩
  | close i =>
    obtain ⟨s', closed, refines'⟩ := refines.close i
    rw [Outers.call, Scopes.call, closed]
    exact .some ⟨rfl, f, refines'⟩
  | grow vals more => exact .some ⟨rfl, f, refines.grow vals more⟩

theorem outers_bisimulate :
    Calls.Bisimulates (fun s t => ∃ f, Refines f s t) Outers.call Scopes.call := by
  rintro s t a ⟨f, refines⟩
  exact refines.call a

/-- Every run of a program reads and writes its variables, through the stack and through the outers
of its closures, as if each was a cell that the closures share; and it fails only where it names a
place or a variable that there is not. -/
theorem outers_run (calls : List VariableCall) (vals size : ℕ) :
    (Calls.run Outers.call (Outers.new vals size) calls).map Prod.fst =
      (Calls.run Scopes.call (Scopes.new size) calls).map Prod.fst :=
  outers_bisimulate.answers ⟨id, refines_new vals size⟩ calls

end Squirrels
