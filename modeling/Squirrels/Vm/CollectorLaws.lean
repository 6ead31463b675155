import Mathlib.Data.Finset.Max
import Squirrels.Vm.Collector
import Squirrels.Vm.RefCountedRuns

/-!
# A collection frees what cannot be reached

The mark ends and marks exactly the collectable objects that the slots lead to along references that
it follows. Where those that it does not follow lead to nothing else, nothing that is marked refers
to what is not, so the sweep empties every other object without touching a marked or a freed one.
When the references that `Finalize` leaves do not form circles, all of them are gone at the end, and
the memory is as good as before.
-/

namespace Squirrels

namespace Memory

open Counting

variable {m m' m'' : Memory} {tasks : List Task} {a b x : ℕ} {c : SQRefCounted}
  {mark : ℕ → Bool} {s : Marking} {visits : List Visit} {keeps rank : ℕ → ℕ}
  {follows : ℕ → ℕ → Bool}

/-- What the slots lead to. -/
def Reachable (m : Memory) : ℕ → Prop :=
  Reach (fun a b => some b ∈ m.fieldsOf a) fun a => some a ∈ m.slots

/-- What the slots lead to along references that the mark follows. -/
def Traced (follows : ℕ → ℕ → Bool) (m : Memory) : ℕ → Prop :=
  Reach (fun a b => some b ∈ followed follows a (m.fieldsOf a)) fun a => some a ∈ m.slots

/-- There is a collectable object. -/
def CollectableAt (m : Memory) (a : ℕ) : Prop :=
  ∃ c, m.cells a = some c ∧ c.body.isCollectable = true

theorem collectableAt_of_held {v : Option ℕ} (held : v ∈ m.fieldsOf a) : CollectableAt m a := by
  cases is : m.cells a with
  | none =>
    rw [fieldsOf, is] at held
    cases held
  | some c =>
    rw [fieldsOf_of_cell is] at held
    refine ⟨c, is, ?_⟩
    cases body : c.body with
    | collectable l => rfl
    | _ => rw [body] at held; cases held

theorem mem_of_followed {l : List (Option ℕ)} {v : Option ℕ} (mem : v ∈ followed follows a l) :
    v ∈ l := by
  obtain ⟨⟨v', i⟩, there, rfl⟩ := List.mem_map.1 mem
  exact List.fst_mem_of_mem_zipIdx (List.mem_filter.1 there).1

variable (follows) in
theorem length_followed_le (a : ℕ) (l : List (Option ℕ)) :
    (followed follows a l).length ≤ l.length := by
  rw [followed, List.length_map]
  exact (List.length_filter_le _ _).trans (le_of_eq List.length_zipIdx)

/-- The references that the mark does not follow lead to nothing else. -/
def Seen (follows : ℕ → ℕ → Bool) (m : Memory) : Prop :=
  ∀ a b, Traced follows m a → some b ∈ m.fieldsOf a → CollectableAt m b → Traced follows m b

theorem seen_of_skipped (traced : ∀ a j b, (m.fieldsOf a)[j]? = some (some b) →
    follows a j = false → Traced follows m b) : Seen follows m := by
  intro a b tracedA held _
  obtain ⟨j, lt, is⟩ := List.getElem_of_mem held
  cases follow : follows a j with
  | true =>
    refine .step tracedA (List.mem_map.2 ⟨(some b, j), List.mem_filter.2 ⟨?_, follow⟩, rfl⟩)
    exact List.mem_zipIdx_iff_getElem?.2 (by rw [List.getElem?_eq_getElem lt, is])
  | false => exact traced a j b (by rw [List.getElem?_eq_getElem lt, is]) follow

theorem Sound.reachable_live (sound : Sound m [] []) (reach : Reachable m a) :
    m.cells a ≠ none := by
  cases reach with
  | root slot =>
    refine sound.live a ?_
    unfold refs
    have := List.count_pos_iff.2 slot
    omega
  | step _ edge => exact sound.held edge

theorem Traced.reachable (traced : Traced follows m a) : Reachable m a :=
  traced.mem_of_closed _ (fun _ slot => .root slot)
    fun _ _ reach held => .step reach (mem_of_followed held)

/-! ## Marks that differ -/

/-- The objects of the memory, with other marks. -/
structure Remarked (m m' : Memory) (mark : ℕ → Bool) : Prop where
  slots : m'.slots = m.slots
  next : m'.next = m.next
  hooked : m'.hooked = m.hooked
  released : m'.released = m.released
  cells : ∀ x, m'.cells x = (m.cells x).map fun c => { c with marked := mark x }

namespace Remarked

variable (same : Remarked m m' mark)

include same

theorem new (is : m.cells x = some c) : m'.cells x = some { c with marked := mark x } := by
  rw [same.cells, is, Option.map_some]

theorem old {c' : SQRefCounted} (is : m'.cells x = some c') :
    ∃ c, m.cells x = some c ∧ c' = { c with marked := mark x } := by
  rw [same.cells, Option.map_eq_some_iff] at is
  obtain ⟨c, is, eq⟩ := is
  exact ⟨c, is, eq.symm⟩

theorem none_iff : m'.cells x = none ↔ m.cells x = none := by
  rw [same.cells, Option.map_eq_none_iff]

theorem fieldsOf : m'.fieldsOf = m.fieldsOf := by
  funext x
  cases is : m.cells x with
  | none => rw [Memory.fieldsOf, Memory.fieldsOf, is, same.none_iff.2 is]
  | some c => rw [fieldsOf_of_cell is, fieldsOf_of_cell (same.new is)]

theorem refs (tasks : List Task) (x : ℕ) : m'.refs tasks x = m.refs tasks x := by
  unfold Memory.refs
  rw [same.slots, same.next, same.fieldsOf]

end Remarked

/-- Other marks leave the counts as they are. -/
theorem Sound.remark (sound : Sound m [] []) (same : Remarked m m' mark)
    (anchored : ∀ x, mark x = true → some x ∈ m.slots ∨ ∃ b, mark b = true ∧ some x ∈ m.fieldsOf b)
    (chain : m'.gcChain.Nodup)
    (chained : ∀ x, x ∈ m'.gcChain ↔ CollectableAt m x ∧ mark x = false) : Sound m' [] [] := by
  refine ⟨⟨fun x is => ?_, fun x cx w is weak => ?_, fun w cw t is body => ?_,
    fun w cw t is body => ?_, fun x cx is marked => ?_, chain, fun x => ?_, fun x mem => ?_⟩,
    fun x cx is => ?_, fun x named => ?_, fun x cx is zero => ?_,
    fun x mem => absurd mem List.not_mem_nil, ?_, fun x => ?_⟩
  · rw [Ne, same.none_iff] at is
    rw [same.next]
    exact sound.bounded x is
  · obtain ⟨c, is₀, rfl⟩ := same.old is
    obtain ⟨cw, isW, body⟩ := sound.weakref x c w is₀ weak
    exact ⟨_, same.new isW, body⟩
  · obtain ⟨c, is₀, rfl⟩ := same.old is
    obtain ⟨ct, isT, weak⟩ := sound.alive w c t is₀ body
    exact ⟨_, same.new isT, weak⟩
  · obtain ⟨c, is₀, rfl⟩ := same.old is
    rw [same.none_iff, same.next]
    exact sound.gone w c t is₀ body
  · obtain ⟨c, is₀, rfl⟩ := same.old is
    rw [same.slots]
    refine (anchored x marked).imp id ?_
    rintro ⟨b, markB, held⟩
    cases isB : m.cells b with
    | none =>
      rw [fieldsOf, isB] at held
      cases held
    | some cb =>
      rw [fieldsOf_of_cell isB] at held
      exact ⟨b, _, same.new isB, markB, held⟩
  · rw [chained]
    constructor
    · rintro ⟨⟨c, is, isColl⟩, unmarked⟩
      exact ⟨_, same.new is, isColl, unmarked⟩
    · rintro ⟨c', is', isColl, unmarked⟩
      obtain ⟨c, is, rfl⟩ := same.old is'
      exact ⟨⟨c, is, isColl⟩, unmarked⟩
  · rw [same.hooked] at mem
    obtain ⟨lt, all⟩ := sound.hooks x mem
    rw [same.next]
    refine ⟨lt, fun cx is => ?_⟩
    obtain ⟨c, is₀, rfl⟩ := same.old is
    exact all c is₀
  · obtain ⟨c, is₀, rfl⟩ := same.old is
    rw [same.refs]
    exact sound.counted x c is₀
  · rw [same.refs] at named
    rw [Ne, same.none_iff]
    exact sound.live x named
  · obtain ⟨c, is₀, rfl⟩ := same.old is
    exact sound.dying x c is₀ zero
  · rw [same.released]
    exact sound.once
  · rw [same.released, same.hooked, same.none_iff]
    exact sound.released x

/-! ## Marking -/

/-- Something refers to the object that is a root or has a mark. -/
def Anchored (m : Memory) (mark : ℕ → Bool) (x : ℕ) : Prop :=
  some x ∈ m.slots ∨ ∃ b, mark b = true ∧ some x ∈ m.fieldsOf b

/-- The object is a root, or an object with a mark refers to it and the mark has followed that. -/
def Met (follows : ℕ → ℕ → Bool) (m : Memory) (mark : ℕ → Bool) (x : ℕ) : Prop :=
  some x ∈ m.slots ∨ ∃ b, mark b = true ∧ some x ∈ followed follows b (m.fieldsOf b)

theorem Met.anchored (met : Met follows m mark x) : Anchored m mark x :=
  met.imp id fun ⟨b, markB, held⟩ => ⟨b, markB, mem_of_followed held⟩

/-- Between visits. -/
structure Marks (follows : ℕ → ℕ → Bool) (m : Memory) (mark : ℕ → Bool) (s : Marking)
    (visits : List Visit) : Prop where
  remarked : Remarked m s.memory mark
  collectable : ∀ x, mark x = true → CollectableAt m x
  reached : ∀ x, mark x = true ∨ .mark (some x) ∈ visits →
    Traced follows m x ∧ Met follows m mark x
  closed : ∀ x, Met follows m mark x → CollectableAt m x →
    mark x = true ∨ .mark (some x) ∈ visits
  chain : s.memory.gcChain.Nodup
  tchain : s.tchain.Nodup
  chained : ∀ x, x ∈ s.memory.gcChain ↔ CollectableAt m x ∧ x ∉ s.tchain
  moved : ∀ x, mark x = true ↔ x ∈ s.tchain ∨ .leave x ∈ visits
  leaving : ∀ x, .leave x ∈ visits → x ∉ s.tchain ∧ visits.count (.leave x) = 1

theorem Steady.marks (steady : Steady m) :
    Marks follows m (fun _ => false) ⟨m, []⟩ (m.slots.map .mark) where
  remarked := {
    slots := rfl
    next := rfl
    hooked := rfl
    released := rfl
    cells := fun x => by
      show m.cells x = _
      cases is : m.cells x with
      | none => rfl
      | some c => rw [Option.map_some, ← steady.unmarked x c is] }
  collectable x is := by cases is
  reached x := by
    rintro (is | mem)
    · cases is
    · obtain ⟨v, mem, eq⟩ := List.mem_map.1 mem
      cases eq
      exact ⟨.root mem, .inl mem⟩
  closed x := by
    rintro (slot | ⟨b, is, -⟩) -
    · exact .inr (List.mem_map.2 ⟨_, slot, rfl⟩)
    · cases is
  chain := steady.sound.chain
  tchain := List.nodup_nil
  chained x := by
    show x ∈ m.gcChain ↔ _
    rw [steady.sound.chained]
    constructor
    · rintro ⟨c, is, isColl, -⟩
      exact ⟨⟨c, is, isColl⟩, List.not_mem_nil⟩
    · rintro ⟨⟨c, is, isColl⟩, -⟩
      exact ⟨c, is, isColl, steady.unmarked x c is⟩
  moved x := iff_of_false Bool.false_ne_true fun either => by simp at either
  leaving x mem := by simp at mem

/-- A visit of what needs no mark. -/
theorem Marks.skip {v : Option ℕ} (marks : Marks follows m mark s (.mark v :: visits))
    (needless : ∀ a, v = some a → CollectableAt m a → mark a = true) :
    Marks follows m mark s visits where
  remarked := marks.remarked
  collectable := marks.collectable
  reached x either := marks.reached x (either.imp id (List.mem_cons_of_mem _))
  closed x anchored isColl := by
    refine (marks.closed x anchored isColl).elim .inl fun mem => ?_
    rcases List.mem_cons.1 mem with eq | mem
    · cases eq
      exact .inl (needless x rfl isColl)
    · exact .inr mem
  chain := marks.chain
  tchain := marks.tchain
  chained := marks.chained
  moved x := by simpa using marks.moved x
  leaving x mem := by
    obtain ⟨fresh, once⟩ := marks.leaving x (List.mem_cons_of_mem _ mem)
    rw [List.count_cons_of_ne (by simp)] at once
    exact ⟨fresh, once⟩

section Enter

theorem update_mark_iff :
    Function.update mark a true x = true ↔ x = a ∨ mark x = true := by
  by_cases same : x = a
  · rw [same, Function.update_self]
    exact iff_of_true rfl (.inl rfl)
  · rw [Function.update_of_ne same, or_iff_right same]

theorem Met.update (met : Met follows m mark x) (a : ℕ) :
    Met follows m (Function.update mark a true) x :=
  met.imp id fun ⟨b, markB, held⟩ => ⟨b, update_mark_iff.2 (.inr markB), held⟩

theorem mem_mark_visits {fields : List (Option ℕ)} :
    .mark (some x) ∈ fields.map Visit.mark ++ .leave a :: visits ↔
      some x ∈ fields ∨ .mark (some x) ∈ visits := by
  simp

theorem mem_leave_visits {fields : List (Option ℕ)} :
    .leave x ∈ fields.map Visit.mark ++ .leave a :: visits ↔ x = a ∨ .leave x ∈ visits := by
  simp

theorem Marks.reached_enter (marks : Marks follows m mark s (.mark (some a) :: visits))
    (either : Function.update mark a true x = true ∨
      .mark (some x) ∈ (followed follows a (m.fieldsOf a)).map Visit.mark ++ .leave a :: visits) :
    Traced follows m x ∧ Met follows m (Function.update mark a true) x := by
  have here := marks.reached a (.inr List.mem_cons_self)
  have before : Traced follows m x ∧ Met follows m mark x →
      Traced follows m x ∧ Met follows m (Function.update mark a true) x :=
    fun both => ⟨both.1, both.2.update a⟩
  rw [update_mark_iff, mem_mark_visits] at either
  rcases either with (rfl | marked) | held | mem
  · exact before here
  · exact before (marks.reached x (.inl marked))
  · exact ⟨.step here.1 held, .inr ⟨a, update_mark_iff.2 (.inl rfl), held⟩⟩
  · exact before (marks.reached x (.inr (List.mem_cons_of_mem _ mem)))

theorem Marks.closed_enter (marks : Marks follows m mark s (.mark (some a) :: visits))
    (met : Met follows m (Function.update mark a true) x) (there : CollectableAt m x) :
    Function.update mark a true x = true ∨
      .mark (some x) ∈ (followed follows a (m.fieldsOf a)).map Visit.mark ++ .leave a :: visits := by
  rw [update_mark_iff, mem_mark_visits]
  have before : Met follows m mark x → (x = a ∨ mark x = true) ∨
      some x ∈ followed follows a (m.fieldsOf a) ∨ .mark (some x) ∈ visits := by
    intro met
    rcases marks.closed x met there with marked | mem
    · exact .inl (.inr marked)
    · rcases List.mem_cons.1 mem with eq | mem
      · cases eq
        exact .inl (.inl rfl)
      · exact .inr (.inr mem)
  rcases met with slot | ⟨b, markB, held⟩
  · exact before (.inl slot)
  · rcases update_mark_iff.1 markB with rfl | markB
    · exact .inr (.inl held)
    · exact before (.inr ⟨b, markB, held⟩)

theorem Marks.leaving_enter (marks : Marks follows m mark s (.mark (some a) :: visits))
    (unmarked : mark a = false) (fields : List (Option ℕ))
    (mem : .leave x ∈ fields.map Visit.mark ++ .leave a :: visits) :
    x ∉ s.tchain ∧ (fields.map Visit.mark ++ .leave a :: visits).count (.leave x) = 1 := by
  have unmoved : ¬ (a ∈ s.tchain ∨ .leave a ∈ visits) := fun either => by
    have marked := (marks.moved a).2 (either.imp id (List.mem_cons_of_mem _))
    rw [unmarked] at marked
    cases marked
  have none : (fields.map Visit.mark).count (.leave x) = 0 := List.count_eq_zero.2 (by simp)
  rw [List.count_append, none, Nat.zero_add]
  by_cases same : x = a
  · rw [same, List.count_cons_self, List.count_eq_zero.2 fun mem => unmoved (.inr mem)]
    exact ⟨fun mem => unmoved (.inl mem), rfl⟩
  · have mem := (mem_leave_visits.1 mem).resolve_left same
    obtain ⟨fresh, once⟩ := marks.leaving x (List.mem_cons_of_mem _ mem)
    rw [List.count_cons_of_ne (by simp)] at once
    rw [List.count_cons_of_ne (by simpa using fun eq => same eq.symm)]
    exact ⟨fresh, once⟩

/-- `START_MARK`: the object is marked, and what it refers to is left to visit. -/
theorem Marks.enter (marks : Marks follows m mark s (.mark (some a) :: visits)) {c' : SQRefCounted}
    (found : s.memory.cells a = some c') (isColl : c'.body.isCollectable = true)
    (unmarked : c'.marked = false) :
    Marks follows m (Function.update mark a true)
      { s with memory := s.memory.put a { c' with marked := true } }
      ((followed follows a c'.body.fields).map .mark ++ .leave a :: visits) := by
  obtain ⟨c, is, rfl⟩ := marks.remarked.old found
  have own : m.fieldsOf a = c.body.fields := fieldsOf_of_cell is
  have cells : ∀ x, (s.memory.put a { c with marked := true }).cells x =
      (m.cells x).map fun c => { c with marked := Function.update mark a true x } := by
    intro x
    rw [cells_put]
    by_cases same : x = a
    · rw [if_pos same, same, is, Function.update_self]
      rfl
    · rw [if_neg same, Function.update_of_ne same]
      exact marks.remarked.cells x
  exact {
    remarked := ⟨marks.remarked.slots, marks.remarked.next, marks.remarked.hooked,
      marks.remarked.released, cells⟩
    collectable := fun x marked => by
      rcases update_mark_iff.1 marked with rfl | marked
      · exact ⟨c, is, isColl⟩
      · exact marks.collectable x marked
    reached := fun x either => marks.reached_enter (by rwa [own])
    closed := fun x met there => by
      have closed := marks.closed_enter met there
      rwa [own] at closed
    chain := marks.chain
    tchain := marks.tchain
    chained := marks.chained
    moved := fun x => by
      rw [update_mark_iff, mem_leave_visits, marks.moved x]
      simp only [List.mem_cons, reduceCtorEq, false_or]
      exact or_left_comm
    leaving := fun x mem => marks.leaving_enter unmarked _ mem }

end Enter

/-- `END_MARK`: the object moves to the chain of the marked ones. -/
theorem Marks.leave (marks : Marks follows m mark s (.leave a :: visits)) :
    Marks follows m mark
      ⟨{ s.memory with gcChain := s.memory.gcChain.erase a }, a :: s.tchain⟩ visits := by
  obtain ⟨fresh, once⟩ := marks.leaving a List.mem_cons_self
  have unleft : .leave a ∉ visits := by
    rw [List.count_cons_self] at once
    exact List.count_eq_zero.1 (by omega)
  have marked : mark a = true := (marks.moved a).2 (.inr List.mem_cons_self)
  refine ⟨⟨marks.remarked.slots, marks.remarked.next, marks.remarked.hooked,
    marks.remarked.released, marks.remarked.cells⟩, marks.collectable, fun x either => ?_,
    fun x anchored there => ?_, marks.chain.erase a, List.nodup_cons.2 ⟨fresh, marks.tchain⟩,
    fun x => ?_, fun x => ?_, fun x mem => ?_⟩
  · exact marks.reached x (either.imp id (List.mem_cons_of_mem _))
  · exact (marks.closed x anchored there).imp id fun mem => by simpa using mem
  · show x ∈ s.memory.gcChain.erase a ↔ _
    rw [marks.chain.mem_erase_iff, marks.chained, List.mem_cons, not_or]
    exact and_left_comm
  · rw [marks.moved x]
    simp only [List.mem_cons, Visit.leave.injEq]
    exact or_assoc.symm.trans (or_congr_left or_comm)
  · obtain ⟨fresh', once'⟩ := marks.leaving x (List.mem_cons_of_mem _ mem)
    have ne : x ≠ a := by
      rintro rfl
      exact unleft mem
    rw [List.count_cons_of_ne (by simpa using fun eq => ne eq.symm)] at once'
    exact ⟨by simpa [ne] using fresh', once'⟩

/-- Every visit leads on, and leaves less to mark. -/
theorem Steady.mark_rule (steady : Steady m) :
    Worklist.Rule (Marking.step follows) (fun s visits => ∃ mark, Marks follows m mark s visits)
      (fun _ _ => True) Marking.weight where
  refl _ := trivial
  trans _ _ _ _ _ := trivial
  step s visit visits := by
    rintro ⟨mark, marks⟩
    cases visit with
    | mark v =>
      cases v with
      | none =>
        have skipped := marks.skip fun a eq => by cases eq
        exact ⟨[], s, rfl, ⟨mark, skipped⟩, trivial, Nat.lt_succ_self _⟩
      | some a =>
        obtain ⟨traced, -⟩ := marks.reached a (.inr List.mem_cons_self)
        have there := steady.sound.reachable_live traced.reachable
        rw [Ne, ← marks.remarked.none_iff] at there
        obtain ⟨c, found⟩ := Option.ne_none_iff_exists'.1 there
        have step : s.step follows (.mark (some a)) =
            if c.body.isCollectable ∧ c.marked = false then
              some ((followed follows a c.body.fields).map .mark ++ [.leave a],
                { s with memory := s.memory.put a { c with marked := true } })
            else some ([], s) := by
          rw [Marking.step, found, Option.map_some]
          split <;> rfl
        rw [step]
        split
        · rename_i fresh
          refine ⟨_, _, rfl, ⟨Function.update mark a true, ?_⟩, trivial, ?_⟩
          · rw [List.append_assoc]
            exact marks.enter found fresh.1 fresh.2
          · have lt : a < s.memory.next := by
              rw [marks.remarked.next]
              exact steady.sound.bounded a (steady.sound.reachable_live traced.reachable)
            have weights := weigh_put markWeight { c with marked := true } found lt
            simp only [markWeight, fresh.2, Bool.false_eq_true, if_false, if_true] at weights
            show weigh _ s.memory.next + _ < weigh _ s.memory.next + 1
            have most := length_followed_le follows a c.body.fields
            rw [List.length_append, List.length_map, List.length_singleton]
            simp only [markWeight]
            omega
        · rename_i old
          refine ⟨[], s, rfl, ⟨mark, marks.skip ?_⟩, trivial, Nat.lt_succ_self _⟩
          intro b eq there
          cases eq
          obtain ⟨c₀, is₀, isColl⟩ := there
          rw [marks.remarked.new is₀] at found
          cases found
          by_contra unmarked
          exact old ⟨isColl, by simpa using unmarked⟩
    | leave a => exact ⟨[], _, rfl, ⟨mark, marks.leave⟩, trivial, Nat.lt_succ_self _⟩

variable (follows) in
/-- The mark ends. -/
theorem Steady.runMark (steady : Steady m) :
    ∃ s mark, m.runMark follows = some s ∧ Marks follows m mark s [] := by
  have start : ∃ mark, Marks follows m mark ⟨m, []⟩ (m.slots.map .mark ++ []) := by
    rw [List.append_nil]
    exact ⟨_, steady.marks⟩
  obtain ⟨s, ran, ⟨mark, marks⟩, -⟩ := steady.mark_rule.run start (Nat.le_refl _)
  refine ⟨s, mark, ?_, marks⟩
  rw [List.length_map] at ran
  exact ran

/-- What is marked is what the mark comes to. -/
theorem Marks.marked_iff_traced (marks : Marks follows m mark s []) :
    mark x = true ↔ Traced follows m x ∧ CollectableAt m x := by
  constructor
  · intro marked
    exact ⟨(marks.reached x (.inl marked)).1, marks.collectable x marked⟩
  · rintro ⟨traced, there⟩
    have mark_of : ∀ y, Met follows m mark y → CollectableAt m y → mark y = true :=
      fun y met there => (marks.closed y met there).resolve_right List.not_mem_nil
    refine traced.mem_of_closed (fun y => CollectableAt m y → mark y = true)
      (fun y slot there => mark_of y (.inl slot) there) (fun y z marked held there => ?_) there
    have owner : CollectableAt m y := collectableAt_of_held (mem_of_followed held)
    exact mark_of z (.inr ⟨y, marked owner, held⟩) there

/-- Where the mark sees all references, what it comes to is what can be reached. -/
theorem Seen.traced_iff (seen : Seen follows m) (there : CollectableAt m x) :
    Traced follows m x ↔ Reachable m x := by
  refine ⟨Traced.reachable, fun reach => ?_⟩
  refine reach.mem_of_closed (fun y => CollectableAt m y → Traced follows m y)
    (fun y slot _ => .root slot) (fun y z traced held there => ?_) there
  exact seen y z (traced (collectableAt_of_held held)) held there

/-- What is marked is what can be reached. -/
theorem Marks.marked_iff (marks : Marks follows m mark s []) (seen : Seen follows m) :
    mark x = true ↔ Reachable m x ∧ CollectableAt m x := by
  rw [marks.marked_iff_traced]
  exact and_congr_left seen.traced_iff

/-- After the mark the counts are as they were, and the chain has what is not marked. -/
theorem Marks.sound (marks : Marks follows m mark s []) (steady : Steady m) :
    Sound s.memory [] [] := by
  refine steady.sound.remark marks.remarked
    (fun x marked => (marks.reached x (.inl marked)).2.anchored)
    marks.chain fun x => ?_
  rw [marks.chained, ← Bool.not_eq_true, marks.moved x, or_iff_left List.not_mem_nil]

/-! ## Emptying one object -/

theorem Sound.perm {tasks' : List Task} {due : List (Option ℕ)} (sound : Sound m tasks due)
    (perm : tasks.Perm tasks') : Sound m tasks' due where
  toLinked := sound.toLinked
  counted x cx is := by
    have counted := sound.counted x cx is
    unfold refs at counted ⊢
    rwa [← perm.count_eq]
  live x named := by
    refine sound.live x ?_
    unfold refs at named ⊢
    rwa [perm.count_eq]
  dying x cx is zero := (sound.dying x cx is zero).imp perm.mem_iff.1 id
  finishing x mem := by
    obtain ⟨once, rest⟩ := sound.finishing x (perm.mem_iff.2 mem)
    exact ⟨perm.count_eq _ ▸ once, rest⟩
  once := sound.once
  released x := by
    rw [← perm.mem_iff]
    exact sound.released x

/-- Where no destructor is left to end, an object that is there has a count. -/
theorem Sound.counts (sound : Sound m tasks []) (calm : ∀ x, .finish x ∉ tasks)
    (found : m.cells a = some c) : c.uiRef ≠ 0 := fun zero =>
  (sound.dying a c found zero).elim (calm a) List.not_mem_nil

theorem Kept.fieldsOf (kept : Kept m m') (sound : Sound m' tasks [])
    (calm : ∀ x, .finish x ∉ tasks) (there : m'.cells x ≠ none) : m'.fieldsOf x = m.fieldsOf x := by
  obtain ⟨c', found'⟩ := Option.ne_none_iff_exists'.1 there
  obtain ⟨c, found, -, -, -, same⟩ := kept.cells x c' found'
  rw [fieldsOf_of_cell found', fieldsOf_of_cell found, same (sound.counts calm found')]

/-- What a sweep leaves as it is: the marked objects, and of the others all but references. -/
structure Swept (keeps : ℕ → ℕ) (m m' : Memory) : Prop where
  slots : m'.slots = m.slots
  next : m'.next = m.next
  hooked : m'.hooked = m.hooked
  cells : ∀ x c', m'.cells x = some c' → ∃ c, m.cells x = some c ∧ c'.marked = c.marked ∧
    c'.body.isCollectable = c.body.isCollectable
  fields : ∀ x, m'.cells x ≠ none →
    m'.fieldsOf x = m.fieldsOf x ∨ m'.fieldsOf x = (m.fieldsOf x).take (keeps x)
  marked : ∀ x c, m.cells x = some c → c.marked = true → ∃ c', m'.cells x = some c' ∧
    c'.marked = true ∧ c'.body.fields = c.body.fields

theorem Swept.trans (first : Swept keeps m m') (second : Swept keeps m' m'') :
    Swept keeps m m'' where
  slots := second.slots.trans first.slots
  next := second.next.trans first.next
  hooked := second.hooked.trans first.hooked
  cells x c'' found'' := by
    obtain ⟨c', found', mark', coll'⟩ := second.cells x c'' found''
    obtain ⟨c, found, mark, coll⟩ := first.cells x c' found'
    exact ⟨c, found, mark'.trans mark, coll'.trans coll⟩
  fields x there := by
    have there' : m'.cells x ≠ none := by
      obtain ⟨c'', found''⟩ := Option.ne_none_iff_exists'.1 there
      obtain ⟨c', found', -⟩ := second.cells x c'' found''
      rw [found']
      exact Option.some_ne_none c'
    rcases second.fields x there with eq' | eq' <;> rcases first.fields x there' with eq | eq
    · exact .inl (eq'.trans eq)
    · exact .inr (eq'.trans eq)
    · exact .inr (by rw [eq', eq])
    · exact .inr (by rw [eq', eq, List.take_take, Nat.min_self])
  marked x c found is := by
    obtain ⟨c', found', is', fields'⟩ := first.marked x c found is
    obtain ⟨c'', found'', is'', fields''⟩ := second.marked x c' found' is'
    exact ⟨c'', found'', is'', fields''.trans fields'⟩

theorem Kept.swept (kept : Kept m m') (sound : Sound m' tasks []) (calm : ∀ x, .finish x ∉ tasks) :
    Swept keeps m m' where
  slots := kept.slots
  next := kept.next
  hooked := kept.hooked
  cells x c' found := by
    obtain ⟨c, is, mark, coll, -⟩ := kept.cells x c' found
    exact ⟨c, is, mark, coll⟩
  fields x there := .inl (kept.fieldsOf sound calm there)
  marked := kept.marked

/-- The references that `Finalize` leaves go down. -/
def Ranked (keeps rank : ℕ → ℕ) (m : Memory) : Prop :=
  ∀ a b, some b ∈ (m.fieldsOf a).take (keeps a) → rank b < rank a

/-- `Finalize` has emptied the object. -/
def Emptied (keeps : ℕ → ℕ) (m : Memory) (a : ℕ) : Prop := (m.fieldsOf a).length ≤ keeps a

theorem fieldsOf_none (gone : m.cells a = none) : m.fieldsOf a = [] := by rw [fieldsOf, gone]

theorem Swept.ranked (swept : Swept keeps m m') (ranked : Ranked keeps rank m) :
    Ranked keeps rank m' := by
  intro a b held
  by_cases there : m'.cells a = none
  · rw [fieldsOf_none there, List.take_nil] at held
    cases held
  · rcases swept.fields a there with eq | eq
    · exact ranked a b (eq ▸ held)
    · rw [eq, List.take_take, Nat.min_self] at held
      exact ranked a b held

theorem Swept.emptied (swept : Swept keeps m m') (emptied : Emptied keeps m a) :
    Emptied keeps m' a := by
  unfold Emptied at *
  by_cases there : m'.cells a = none
  · rw [fieldsOf_none there]
    exact Nat.zero_le _
  · rcases swept.fields a there with eq | eq <;> rw [eq]
    · exact emptied
    · exact List.length_take_le _ _

/-- `Finalize` of an object that is held. -/
theorem Sound.finalize (keeps : ℕ → ℕ) (sound : Sound m [.release (some a)] [])
    (found : m.cells a = some c) (unmarked : c.marked = false)
    (isColl : c.body.isCollectable = true) :
    ∃ m', m.finalize a (keeps a) = some m' ∧ Sound m' [.release (some a)] [] ∧ Swept keeps m m' ∧
      m'.gcChain.Sublist m.gcChain ∧ Emptied keeps m' a := by
  obtain ⟨l, body⟩ : ∃ l, c.body = .collectable l := by
    cases body : c.body with
    | collectable l => exact ⟨l, rfl⟩
    | _ => rw [body] at isColl; cases isColl
  have own : m.fieldsOf a = l := by rw [fieldsOf_of_cell found, body]; rfl
  have lt : a < m.next := sound.bounded a (by simp [found])
  have replaces : Replaces { c with body := .collectable (l.take (keeps a)) } c :=
    replaces_fields _ body unmarked c.uiRef
  have cut := sound.refield found unmarked body (l.take (keeps a))
    ((l.drop (keeps a)).map .release ++ [.release (some a)]) (by simp)
    (fun x => by
      have change := refs_put (c := { c with body := .collectable (l.take (keeps a)) })
        [.release (some a)] lt x
      have counts : (l.take (keeps a)).count (some x) + (l.drop (keeps a)).count (some x) =
          l.count (some x) := by rw [← List.count_append, List.take_append_drop]
      rw [own] at change
      simp only [Body.fields] at change
      rw [refs_releases]
      omega)
    (fun x => by
      rw [List.count_append, List.count_eq_zero.2 (fun mem => by
        obtain ⟨v, -, eq⟩ := List.mem_map.1 mem
        cases eq), Nat.zero_add])
  obtain ⟨m', ran, sound', kept⟩ := cut.finishTasks
  have calm : ∀ x, Task.finish x ∉ [Task.release (some a)] := fun x => by simp
  have fields : ∀ x, m'.cells x ≠ none →
      m'.fieldsOf x = if x = a then l.take (keeps a) else m.fieldsOf x := by
    intro x there
    rw [kept.fieldsOf sound' calm there, fieldsOf_put, Function.update_apply]
    rfl
  refine ⟨m', ?_, sound', ⟨kept.slots, kept.next, kept.hooked, fun x c' is => ?_, fun x there => ?_,
    fun x cx is marked => ?_⟩, kept.chain, ?_⟩
  · rw [Memory.finalize]
    simp only [own, writeFields, change_of_cell found, body, Body.withFields, Option.bind_eq_bind,
      Option.bind_some]
    exact ran
  · obtain ⟨c₁, is₁, mark, coll, -⟩ := kept.cells x c' is
    obtain ⟨c₀, is₀, old⟩ := replaced_old found replaces is₁
    exact ⟨c₀, is₀, mark.trans old.marked, coll.trans old.collectable⟩
  · rw [fields x there]
    split
    · rename_i same
      rw [same, own]
      exact .inr rfl
    · exact .inl rfl
  · obtain ⟨c₁, is₁, new⟩ := replaced_new found replaces is
    obtain ⟨c', is', marked', same⟩ := kept.marked x c₁ is₁ (new.marked.trans marked)
    exact ⟨c', is', marked', same.trans (new.held marked)⟩
  · have there : m'.cells a ≠ none := sound'.live a (by
      rw [refs_release, if_pos rfl]
      omega)
    unfold Emptied
    rw [fields a there, if_pos rfl]
    exact List.length_take_le _ _

/-! ## The loop -/

/-- What is left of a chain around an element that stays. -/
theorem sublist_around {l before after : List ℕ} (sub : l.Sublist (before ++ a :: after))
    (nodup : (before ++ a :: after).Nodup) (mem : a ∈ l) :
    ∃ before' after', l = before' ++ a :: after' ∧ before'.Sublist before ∧
      after'.Sublist after := by
  obtain ⟨l₁, l₂, rfl, sub₁, sub₂⟩ := List.sublist_append_iff.1 sub
  obtain ⟨-, nodupAfter, apart⟩ := List.nodup_append.1 nodup
  have inSecond : a ∈ l₂ := (List.mem_append.1 mem).resolve_left fun first =>
    apart a (sub₁.subset first) a List.mem_cons_self rfl
  rcases List.sublist_cons_iff.1 sub₂ with lost | ⟨rest, rfl, kept⟩
  · exact absurd (lost.subset inSecond) (List.nodup_cons.1 nodupAfter).1
  · exact ⟨l₁, rest, rfl, sub₁, kept⟩

theorem nextOf_append {before after : List ℕ} (fresh : a ∉ before) :
    nextOf a (before ++ a :: after) = after.head? := by
  induction before with
  | nil => exact if_pos rfl
  | cons b before ih =>
    rw [List.mem_cons, not_or] at fresh
    exact (if_neg (Ne.symm fresh.1)).trans (ih fresh.2)

theorem Recounted.swept (same : Recounted m m') : Swept keeps m m' where
  slots := same.slots
  next := same.next
  hooked := same.hooked
  cells x c' is := by
    obtain ⟨c, is₀, old⟩ := same.cells x c' is
    exact ⟨c, is₀, old.marked, old.collectable⟩
  fields x _ := .inl (congrFun same.fieldsOf x)
  marked x c is marked := by
    have there : m'.cells x ≠ none := fun none => by
      rw [(same.none_iff x).1 none] at is
      cases is
    obtain ⟨c', is'⟩ := Option.ne_none_iff_exists'.1 there
    obtain ⟨c₀, is₀, old⟩ := same.cells x c' is'
    rw [is] at is₀
    cases is₀
    exact ⟨c', is', old.marked.trans marked, old.held marked⟩

/-- What is still there is still on the chain. -/
theorem Swept.on_chain {tasks' : List Task} (swept : Swept keeps m m') (sound : Sound m tasks [])
    (sound' : Sound m' tasks' []) (mem : a ∈ m.gcChain) (there : m'.cells a ≠ none) :
    a ∈ m'.gcChain := by
  obtain ⟨c', is'⟩ := Option.ne_none_iff_exists'.1 there
  obtain ⟨c, is, mark, coll⟩ := swept.cells a c' is'
  obtain ⟨c₀, is₀, isColl, unmarked⟩ := (sound.chained a).1 mem
  rw [is] at is₀
  cases is₀
  exact (sound'.chained a).2 ⟨c', is', coll.trans isColl, mark.trans unmarked⟩

/-- What is about to be released is there. -/
theorem Sound.release_live (sound : Sound m (.release (some a) :: tasks) []) :
    m.cells a ≠ none := sound.live a (by
  rw [refs_release, if_pos rfl]
  omega)

/-- Before a turn of the loop: the object whose turn it is is held, and those before it on the chain
have been emptied. -/
structure Held (keeps : ℕ → ℕ) (m : Memory) (before : List ℕ) (a : ℕ) (after : List ℕ) : Prop where
  sound : Sound m [.release (some a)] []
  chain : m.gcChain = before ++ a :: after
  emptied : ∀ x ∈ before, Emptied keeps m x

/-- The loop comes to the end of the chain. -/
theorem Held.sweepFrom {before after : List ℕ} {fuel : ℕ} (held : Held keeps m before a after)
    (enough : after.length < fuel) :
    ∃ n m', Memory.sweepFrom keeps fuel (some a) m = some (n, m') ∧ Sound m' [] [] ∧
      Swept keeps m m' ∧ ∀ x ∈ m'.gcChain, Emptied keeps m' x := by
  induction fuel generalizing m a before after with
  | zero => exact absurd enough (Nat.not_lt_zero _)
  | succ fuel ih =>
    have mem : a ∈ m.gcChain := by
      rw [held.chain]
      exact List.mem_append_right _ List.mem_cons_self
    obtain ⟨c, found, isColl, unmarked⟩ := (held.sound.chained a).1 mem
    obtain ⟨m₁, finalized, sound₁, swept₁, sub₁, emptied₁⟩ :=
      held.sound.finalize keeps found unmarked isColl
    -- the object is still on the chain, as it is held
    have mem₁ : a ∈ m₁.gcChain := swept₁.on_chain held.sound sound₁ mem sound₁.release_live
    rw [held.chain] at sub₁
    obtain ⟨before₁, after₁, chain₁, subBefore, subAfter⟩ :=
      sublist_around sub₁ (held.chain ▸ held.sound.chain) mem₁
    have nodup₁ : (before₁ ++ a :: after₁).Nodup := chain₁ ▸ sound₁.chain
    have next : nextOf a m₁.gcChain = after₁.head? := by
      rw [chain₁]
      refine nextOf_append fun mem => ?_
      exact (List.nodup_append.1 nodup₁).2.2 a mem a List.mem_cons_self rfl
    have emptied : ∀ x ∈ before₁ ++ [a], Emptied keeps m₁ x := by
      intro x mem
      rcases List.mem_append.1 mem with mem | mem
      · exact swept₁.emptied (held.emptied x (subBefore.subset mem))
      · rw [List.mem_singleton.1 mem]
        exact emptied₁
    have turn : ∀ m₂ m₃ n m', m₁.addRef after₁.head? = some m₂ → m₂.release (some a) = some m₃ →
        Memory.sweepFrom keeps fuel after₁.head? m₃ = some (n, m') →
        Memory.sweepFrom keeps (fuel + 1) (some a) m = some (n + 1, m') := by
      intro m₂ m₃ n m' counted released rest
      rw [Memory.sweepFrom]
      simp only [finalized, next, counted, released, rest, Option.bind_eq_bind, Option.bind_some]
    cases after₁ with
    | nil =>
      -- the last turn
      obtain ⟨m₂, released, sound₂, kept⟩ := sound₁.release
      have swept₂ : Swept keeps m₁ m₂ := kept.swept sound₂ fun x => List.not_mem_nil
      refine ⟨1, m₂, turn m₁ m₂ 0 m₂ rfl released ?_, sound₂, swept₁.trans swept₂, fun x mem => ?_⟩
      · cases fuel <;> rfl
      · exact swept₂.emptied (emptied x (chain₁ ▸ kept.chain.subset mem))
    | cons b after' =>
      have memB : b ∈ m₁.gcChain := by
        rw [chain₁]
        exact List.mem_append_right _ (List.mem_cons_of_mem _ List.mem_cons_self)
      obtain ⟨cb, isB, -⟩ := (sound₁.chained b).1 memB
      have thereB : m₁.There (some b) := by
        rintro x eq none
        cases eq
        rw [isB] at none
        cases none
      obtain ⟨m₂, counted, sound₂, same⟩ := (sound₁.hold thereB).addRef thereB (by simp)
      obtain ⟨m₃, released, sound₃, kept⟩ := (sound₂.perm (List.Perm.swap _ _ [])).release
      have swept₃ : Swept keeps m₁ m₃ := same.swept.trans (kept.swept sound₃ (by simp))
      have memB₃ : b ∈ m₃.gcChain := swept₃.on_chain sound₁ sound₃ memB sound₃.release_live
      have sub₃ : m₃.gcChain.Sublist ((before₁ ++ [a]) ++ b :: after') := by
        rw [List.append_assoc]
        exact chain₁ ▸ same.chain ▸ kept.chain
      obtain ⟨before₃, after₃, chain₃, subBefore₃, subAfter₃⟩ :=
        sublist_around sub₃ (by rw [List.append_assoc]; exact nodup₁) memB₃
      have held₃ : Held keeps m₃ before₃ b after₃ :=
        ⟨sound₃, chain₃, fun x mem => swept₃.emptied (emptied x (subBefore₃.subset mem))⟩
      have short := subAfter.length_le
      have short₃ := subAfter₃.length_le
      rw [List.length_cons] at short
      obtain ⟨n, m', rest, sound', swept', done⟩ := ih held₃ (by omega)
      exact ⟨n + 1, m', turn m₂ m₃ n m' counted released rest, sound',
        swept₁.trans (swept₃.trans swept'), done⟩

/-- Nothing that is marked refers to what is on the chain. -/
def Separate (m : Memory) : Prop :=
  ∀ a ∈ m.gcChain, some a ∉ m.slots ∧
    ∀ b c, m.cells b = some c → c.marked = true → some a ∉ c.body.fields

/-- A sweep leaves nothing on the chain. -/
theorem Sound.sweep (sound : Sound m [] []) (separate : Separate m)
    (ranked : Ranked keeps rank m) :
    ∃ n m', m.sweep keeps = some (n, m') ∧ Sound m' [] [] ∧ Swept keeps m m' ∧ m'.gcChain = [] := by
  -- what is left at the end has been emptied
  have swept : ∃ n m', m.sweep keeps = some (n, m') ∧ Sound m' [] [] ∧ Swept keeps m m' ∧
      ∀ x ∈ m'.gcChain, Emptied keeps m' x := by
    cases chain : m.gcChain with
    | nil =>
      refine ⟨0, m, ?_, sound, (Recounted.refl m).swept, fun x mem => ?_⟩
      · rw [Memory.sweep, chain]
        rfl
      · rw [chain] at mem
        cases mem
    | cons a after =>
      have mem : a ∈ m.gcChain := by
        rw [chain]
        exact List.mem_cons_self
      obtain ⟨c, found, -⟩ := (sound.chained a).1 mem
      have there : m.There (some a) := by
        rintro x eq none
        cases eq
        rw [found] at none
        cases none
      obtain ⟨m₁, counted, sound₁, same⟩ := (sound.hold there).addRef there (by simp)
      have held : Held keeps m₁ [] a after :=
        ⟨sound₁, same.chain.trans chain, fun x mem => absurd mem List.not_mem_nil⟩
      obtain ⟨n, m', ran, sound', swept', done⟩ :=
        held.sweepFrom (show after.length < (a :: after).length from Nat.lt_succ_self _)
      refine ⟨n, m', ?_, sound', same.swept.trans swept', done⟩
      rw [Memory.sweep]
      simp only [chain, List.head?_cons, counted, ran, Option.bind_eq_bind, Option.bind_some]
  obtain ⟨n, m', ran, sound', swept', emptied⟩ := swept
  refine ⟨n, m', ran, sound', swept', ?_⟩
  -- each object left would be referred to by one of higher rank
  have higher : ∀ x ∈ m'.gcChain, ∃ y ∈ m'.gcChain, rank x < rank y := by
    intro x mem
    obtain ⟨c', is', isColl', unmarked'⟩ := (sound'.chained x).1 mem
    obtain ⟨c, is, mark, coll⟩ := swept'.cells x c' is'
    obtain ⟨noSlot, noMarked⟩ := separate x
      ((sound.chained x).2 ⟨c, is, coll ▸ isColl', mark ▸ unmarked'⟩)
    have named : total m'.fieldsOf m'.next (some x) ≠ 0 := by
      have counted := sound'.counted x c' is'
      have counts := sound'.counts (fun y => List.not_mem_nil) is'
      rw [List.count_nil] at counted
      unfold refs at counted
      rw [swept'.slots, List.count_eq_zero.2 noSlot, List.count_nil] at counted
      omega
    rw [Ne, total_eq_zero_iff] at named
    simp only [not_forall, not_not] at named
    obtain ⟨y, -, holds⟩ := named
    obtain ⟨cy', isY', isCollY⟩ := collectableAt_of_held holds
    obtain ⟨cy, isY, markY, collY⟩ := swept'.cells y cy' isY'
    have unmarkedY : cy'.marked = false := by
      by_contra marked
      have markedY : cy.marked = true := by
        rw [← markY]
        simpa using marked
      obtain ⟨cy'', isY'', -, same⟩ := swept'.marked y cy isY markedY
      rw [isY'] at isY''
      cases isY''
      rw [fieldsOf_of_cell isY', same] at holds
      exact noMarked y cy isY markedY holds
    have memY : y ∈ m'.gcChain := (sound'.chained y).2 ⟨cy', isY', isCollY, unmarkedY⟩
    refine ⟨y, memY, swept'.ranked ranked y x ?_⟩
    rwa [List.take_of_length_le (emptied y memY)]
  by_contra left
  obtain ⟨x, mem, most⟩ := Finset.exists_max_image m'.gcChain.toFinset rank
    (List.toFinset_nonempty_iff _ |>.2 left)
  obtain ⟨y, memY, lt⟩ := higher x (List.mem_toFinset.1 mem)
  have := most y (List.mem_toFinset.2 memY)
  omega

/-! ## Collections -/

theorem cells_unmarkAll {chain : List ℕ} (there : ∀ x ∈ chain, m.cells x ≠ none) :
    ∃ m', unmarkAll chain m = some m' ∧ m'.slots = m.slots ∧ m'.next = m.next ∧
      m'.hooked = m.hooked ∧ m'.released = m.released ∧
      ∀ x, m'.cells x = if x ∈ chain then (m.cells x).map fun c => { c with marked := false }
        else m.cells x := by
  induction chain generalizing m with
  | nil => exact ⟨m, rfl, rfl, rfl, rfl, rfl, fun x => rfl⟩
  | cons a chain ih =>
    obtain ⟨c, found⟩ := Option.ne_none_iff_exists'.1 (there a List.mem_cons_self)
    have there' : ∀ x ∈ chain, (m.put a { c with marked := false }).cells x ≠ none := by
      intro x mem
      rw [Ne, put_eq_none_iff found]
      exact there x (List.mem_cons_of_mem _ mem)
    obtain ⟨m', ran, slots, next, hooked, released, cells⟩ := ih there'
    refine ⟨m', ?_, slots, next, hooked, released, fun x => ?_⟩
    · rw [unmarkAll, change_of_cell found]
      exact ran
    · rw [cells, cells_put]
      by_cases same : x = a
      · rw [if_pos same, same, if_pos List.mem_cons_self, found]
        split <;> rfl
      · rw [if_neg same]
        by_cases mem : x ∈ chain
        · rw [if_pos mem, if_pos (List.mem_cons_of_mem _ mem)]
        · rw [if_neg mem, if_neg (by simp [same, mem])]

theorem Marks.separate (marks : Marks follows m mark s []) (seen : Seen follows m) :
    Separate s.memory := by
  intro a mem
  obtain ⟨there, unmoved⟩ := (marks.chained a).1 mem
  have untraced : ¬ Traced follows m a := fun traced =>
    ((marks.moved a).1 (marks.marked_iff_traced.2 ⟨traced, there⟩)).elim unmoved List.not_mem_nil
  refine ⟨fun slot => untraced (.root ?_), fun b cb is marked held => ?_⟩
  · rwa [marks.remarked.slots] at slot
  · obtain ⟨c, is₀, rfl⟩ := marks.remarked.old is
    have tracedB : Traced follows m b := (marks.marked_iff_traced.1 marked).1
    exact untraced (seen b a tracedB (by rwa [fieldsOf_of_cell is₀]) there)

/-- A memory that has been marked and then swept. -/
structure AfterSweep (follows : ℕ → ℕ → Bool) (keeps : ℕ → ℕ) (m : Memory) (mark : ℕ → Bool)
    (s : Marking) (m₁ : Memory) : Prop where
  marks : Marks follows m mark s []
  sound : Sound m₁ [] []
  left : Swept keeps s.memory m₁
  cleared : m₁.gcChain = []

namespace AfterSweep

variable {m₁ m₂ : Memory}

theorem slots (after : AfterSweep follows keeps m mark s m₁) : m₁.slots = m.slots :=
  after.left.slots.trans after.marks.remarked.slots

theorem mem_tchain (after : AfterSweep follows keeps m mark s m₁) (x : ℕ) :
    x ∈ s.tchain ↔ mark x = true := by
  rw [after.marks.moved x, or_iff_left List.not_mem_nil]

theorem marked_iff (after : AfterSweep follows keeps m mark s m₁) (is : m₁.cells x = some c) :
    c.marked = true ↔ mark x = true := by
  obtain ⟨c₀, is₀, same, -⟩ := after.left.cells x c is
  obtain ⟨c₁, -, rfl⟩ := after.marks.remarked.old is₀
  rw [same]

/-- What is left is marked exactly if it is collectable. -/
theorem collectable_iff (after : AfterSweep follows keeps m mark s m₁)
    (is : m₁.cells x = some c) : c.body.isCollectable = true ↔ mark x = true := by
  constructor
  · intro isColl
    by_contra unmarked
    have mem : x ∈ m₁.gcChain := (after.sound.chained x).2 ⟨c, is, isColl,
      Bool.eq_false_iff.2 fun marked => unmarked ((after.marked_iff is).1 marked)⟩
    rw [after.cleared] at mem
    cases mem
  · intro marked
    obtain ⟨c₀, is₀, -, coll⟩ := after.left.cells x c is
    obtain ⟨c₁, is₁, rfl⟩ := after.marks.remarked.old is₀
    obtain ⟨c₂, is₂, isColl⟩ := after.marks.collectable x marked
    rw [is₁] at is₂
    cases is₂
    exact coll.trans isColl

theorem mark_of_held (after : AfterSweep follows keeps m mark s m₁) {v : Option ℕ}
    (held : v ∈ m₁.fieldsOf x) : mark x = true := by
  obtain ⟨c, is, isColl⟩ := collectableAt_of_held held
  exact (after.collectable_iff is).1 isColl

theorem there (after : AfterSweep follows keeps m mark s m₁) (marked : mark x = true) :
    m₁.cells x ≠ none := by
  obtain ⟨c, is, -⟩ := after.marks.collectable x marked
  obtain ⟨c', is', -⟩ := after.left.marked x _ (after.marks.remarked.new is) marked
  rw [is']
  exact Option.some_ne_none c'

theorem fieldsOf_marked (after : AfterSweep follows keeps m mark s m₁) (marked : mark x = true) :
    m₁.fieldsOf x = m.fieldsOf x := by
  obtain ⟨c, is, -⟩ := after.marks.collectable x marked
  obtain ⟨c', is', -, same⟩ := after.left.marked x _ (after.marks.remarked.new is) marked
  rw [fieldsOf_of_cell is', fieldsOf_of_cell is, same]

theorem fieldsOf_reachable (after : AfterSweep follows keeps m mark s m₁)
    (seen : Seen follows m) (reach : Reachable m x) : m₁.fieldsOf x = m.fieldsOf x := by
  by_cases marked : mark x = true
  · exact after.fieldsOf_marked marked
  · -- what has no mark has no references
    have none : ∀ v, v ∉ m.fieldsOf x := fun v held =>
      marked ((after.marks.marked_iff seen).2 ⟨reach, collectableAt_of_held held⟩)
    have none₁ : ∀ v, v ∉ m₁.fieldsOf x := fun v held => marked (after.mark_of_held held)
    rw [List.eq_nil_iff_forall_not_mem.2 none, List.eq_nil_iff_forall_not_mem.2 none₁]

/-- What is left has a reference, from a slot or from a marked object. -/
theorem reachable_of_there (after : AfterSweep follows keeps m mark s m₁)
    (there : m₁.cells x ≠ none) : Reachable m x := by
  obtain ⟨c, is⟩ := Option.ne_none_iff_exists'.1 there
  have counted := after.sound.counted x c is
  have counts := after.sound.counts (fun y => List.not_mem_nil) is
  rw [List.count_nil] at counted
  by_cases slot : some x ∈ m₁.slots
  · exact .root (after.slots ▸ slot)
  · have named : total m₁.fieldsOf m₁.next (some x) ≠ 0 := by
      unfold refs at counted
      rw [List.count_eq_zero.2 slot, List.count_nil] at counted
      omega
    rw [Ne, total_eq_zero_iff] at named
    simp only [not_forall, not_not] at named
    obtain ⟨b, -, holds⟩ := named
    have marked := after.mark_of_held holds
    rw [after.fieldsOf_marked marked] at holds
    exact .step (after.marks.reached b (.inl marked)).1.reachable holds

theorem there_iff (after : AfterSweep follows keeps m mark s m₁) (seen : Seen follows m) (x : ℕ) :
    m₁.cells x ≠ none ↔ Reachable m x := by
  refine ⟨after.reachable_of_there, fun reach => ?_⟩
  cases reach with
  | root slot =>
    refine after.sound.live x ?_
    unfold refs
    rw [after.slots]
    have := List.count_pos_iff.2 slot
    omega
  | step before edge => exact after.sound.held (after.fieldsOf_reachable seen before ▸ edge)

/-- The marks are taken away, and the marked objects are the chain again. -/
theorem unmark (after : AfterSweep follows keeps m mark s m₁) :
    ∃ m₂, unmarkAll s.tchain m₁ = some m₂ ∧
      Remarked m₁ { m₂ with gcChain := s.tchain } fun _ => false := by
  obtain ⟨m₂, ran, slots, next, hooked, released, cells⟩ :=
    cells_unmarkAll fun x mem => after.there ((after.mem_tchain x).1 mem)
  refine ⟨m₂, ran, slots, next, hooked, released, fun x => ?_⟩
  show m₂.cells x = _
  rw [cells]
  split
  · rfl
  · rename_i unmoved
    cases is : m₁.cells x with
    | none => rfl
    | some c =>
      have unmarked : c.marked = false := Bool.eq_false_iff.2 fun marked =>
        unmoved ((after.mem_tchain x).2 ((after.marked_iff is).1 marked))
      rw [Option.map_some, ← unmarked]

theorem steady (after : AfterSweep follows keeps m mark s m₁)
    (remarked : Remarked m₁ { m₂ with gcChain := s.tchain } fun _ => false) :
    Steady { m₂ with gcChain := s.tchain } where
  sound := by
    refine after.sound.remark remarked (fun x is => by cases is) after.marks.tchain fun x => ?_
    show x ∈ s.tchain ↔ _
    rw [after.mem_tchain]
    constructor
    · intro marked
      obtain ⟨c, is⟩ := Option.ne_none_iff_exists'.1 (after.there marked)
      exact ⟨⟨c, is, (after.collectable_iff is).2 marked⟩, rfl⟩
    · rintro ⟨⟨c, is, isColl⟩, -⟩
      exact (after.collectable_iff is).1 isColl
  unmarked a c is := by
    obtain ⟨c₀, -, rfl⟩ := remarked.old is
    rfl

end AfterSweep

/-- A collection from a steady memory ends in one. -/
theorem Steady.collectGarbage (steady : Steady m) (seen : Seen follows m)
    (ranked : Ranked keeps rank m) :
    ∃ n m', m.collectGarbage follows keeps = some (n, m') ∧ Steady m' ∧ m'.slots = m.slots ∧
      (∀ a, m'.cells a ≠ none ↔ Reachable m a) ∧
      ∀ a, Reachable m a → m'.fieldsOf a = m.fieldsOf a := by
  obtain ⟨s, mark, ran, marks⟩ := steady.runMark follows
  have ranked' : Ranked keeps rank s.memory := by
    unfold Ranked
    rw [marks.remarked.fieldsOf]
    exact ranked
  obtain ⟨n, m₁, swept, sound₁, left, cleared⟩ :=
    (marks.sound steady).sweep (marks.separate seen) ranked'
  have after : AfterSweep follows keeps m mark s m₁ := ⟨marks, sound₁, left, cleared⟩
  obtain ⟨m₂, unmarked, remarked⟩ := after.unmark
  refine ⟨n, { m₂ with gcChain := s.tchain }, ?_, after.steady remarked,
    remarked.slots.trans after.slots, fun a => ?_, fun a reach => ?_⟩
  · rw [Memory.collectGarbage]
    simp only [ran, swept, unmarked, Option.bind_eq_bind, Option.bind_some]
  · rw [Ne, remarked.none_iff]
    exact after.there_iff seen a
  · rw [remarked.fieldsOf]
    exact after.fieldsOf_reachable seen reach

/-! ## Runs with collections -/

/-- The memories that operations and collections lead to, where the mark sees all references and
`Finalize` leaves none that form circles. -/
inductive Reached (slots : ℕ) : Memory → Prop where
  | empty : Reached slots (empty slots)
  | op {m m' : Memory} (before : Reached slots m) (op : Op) (done : m.exec op = some m') :
    Reached slots m'
  | collect {m m' : Memory} {n : ℕ} (before : Reached slots m)
    (follows : ℕ → ℕ → Bool) (keeps rank : ℕ → ℕ) (seen : Seen follows m)
    (ranked : Ranked keeps rank m) (done : m.collectGarbage follows keeps = some (n, m')) :
    Reached slots m'

theorem Reached.steady {slots : ℕ} (reached : Reached slots m) : Steady m := by
  induction reached with
  | empty => exact steady_empty slots
  | op _ op done ih =>
    obtain ⟨m', ran, steady⟩ := ih.exec op
    rw [ran] at done
    cases done
    exact steady
  | collect _ follows keeps rank seen ranked done ih =>
    obtain ⟨n, m', ran, steady, -⟩ := ih.collectGarbage seen ranked
    rw [ran] at done
    cases done
    exact steady

theorem reached_execAll {slots : ℕ} {ops : List Op} (reached : Reached slots m)
    (ran : execAll ops m = some m') : Reached slots m' := by
  induction ops generalizing m with
  | nil =>
    cases ran
    exact reached
  | cons op ops ih =>
    obtain ⟨m₁, done, rest⟩ := Option.bind_eq_some_iff.1 ran
    exact ih (.op reached op done) rest

/-- A collection ends. Where the mark sees all references, it frees exactly what the slots do not
lead to, leaves what they lead to as it is, and the memory is balanced afterwards. -/
theorem collectGarbage_exact {slots : ℕ} (reached : Reached slots m) (seen : Seen follows m)
    (ranked : Ranked keeps rank m) :
    ∃ n m', m.collectGarbage follows keeps = some (n, m') ∧ Balanced m' ∧ m'.slots = m.slots ∧
      (∀ a, m'.cells a ≠ none ↔ Reachable m a) ∧
      ∀ a, Reachable m a → m'.fieldsOf a = m.fieldsOf a := by
  obtain ⟨n, m', ran, steady, rest⟩ := reached.steady.collectGarbage seen ranked
  exact ⟨n, m', ran, steady.balanced, rest⟩

/-- Two objects come to refer to each other, and slots no longer refer to them. -/
def circle : List Op :=
  [.create (.slot 0) false [], .create (.slot 1) true [.slot 0],
    .create (.slot 2) true [.slot 0, .slot 1], .resize 1 2, .copy (.field 1 1) (.slot 2),
    .null (.slot 1), .null (.slot 2)]

theorem circle_ends : (execAll circle (empty 3)).isSome = true := by decide +kernel

/-- The first reference of the second object is one that `Finalize` leaves. -/
theorem ranked_of_second (fields : m.fieldsOf 2 = [some 0, some 1]) :
    Ranked (fun a => if a = 2 then 1 else 0) id m := by
  intro a b held
  by_cases second : a = 2
  · rw [second, fields] at held
    have : b = 0 := by simpa using held
    rw [second, this]
    exact Nat.two_pos
  · have none : (if a = 2 then 1 else 0) = 0 := if_neg second
    simp only [none, List.take_zero] at held
    cases held

/-- An object that is left refers to the first one as well, and the mark does not follow that. -/
def keptCircle : List Op :=
  circle ++ [.create (.slot 1) false [], .create (.slot 1) false [.slot 1, .slot 0]]

theorem keptCircle_ends : (execAll keptCircle (empty 3)).isSome = true := by decide +kernel

theorem collectGarbage_exact_circle : ∃ m n m', Reached 3 m ∧
    m.collectGarbage (fun a j => a ≠ 4 ∨ j ≠ 1) (fun a => if a = 2 then 1 else 0) = some (n, m') ∧
    Balanced m' ∧ m.cells 1 ≠ none ∧ m.cells 2 ≠ none ∧ m'.cells 1 = none ∧ m'.cells 2 = none ∧
    m.fieldsOf 4 = [some 3, some 0] ∧ m'.fieldsOf 4 = [some 3, some 0] ∧
    m'.slots = [some 0, some 4, none] := by
  have reached : Reached 3 ((execAll keptCircle (empty 3)).get keptCircle_ends) :=
    reached_execAll .empty (Option.some_get _).symm
  have fields : ((execAll keptCircle (empty 3)).get keptCircle_ends).fieldsOf 4 =
      [some 3, some 0] := by decide +kernel
  have seen : Seen (fun a j => a ≠ 4 ∨ j ≠ 1)
      ((execAll keptCircle (empty 3)).get keptCircle_ends) := by
    refine seen_of_skipped fun a j b is skipped => ?_
    obtain ⟨rfl, rfl⟩ : a = 4 ∧ j = 1 := by simpa using skipped
    rw [fields] at is
    obtain rfl : 0 = b := by simpa using is
    exact .root (by decide +kernel)
  obtain ⟨n, m', ran, balanced, slots, -, kept⟩ :=
    collectGarbage_exact reached seen (ranked_of_second (by decide +kernel))
  have freed : (((execAll keptCircle (empty 3)).get keptCircle_ends).collectGarbage
      (fun a j => a ≠ 4 ∨ j ≠ 1) fun a => if a = 2 then 1 else 0).map
        (fun r => (r.2.cells 1, r.2.cells 2)) = some (none, none) := by decide +kernel
  rw [ran] at freed
  obtain ⟨first, second⟩ := Prod.mk.inj (Option.some.inj freed)
  refine ⟨_, n, m', reached, ran, balanced, by decide +kernel, by decide +kernel, first, second,
    fields, ?_, ?_⟩
  · rw [kept 4 (.root (by decide +kernel)), fields]
  · rw [slots]
    decide +kernel

-- an object that is held by a reference alone that the mark does not follow is emptied, and is on
-- no chain any more
example : ((execAll [.create (.slot 1) false [], .create (.slot 0) false [.slot 1], .null (.slot 1)]
    (empty 2)).bind fun m => m.collectGarbage (fun a _ => a ≠ 1) fun _ => 0).map
      (fun r => ((r.2.cells 0).isSome, r.2.gcChain)) = some (true, [1]) := by decide +kernel

/-- When the machine is closed, all objects that are left go, and each hook has been called once. -/
theorem close_frees_all {slots : ℕ} (reached : Reached slots m) (ranked : Ranked keeps rank m) :
    ∃ m', m.close keeps = some m' ∧ (∀ a, m'.cells a = none) ∧ m'.gcChain = [] ∧
      m'.released.Nodup ∧ ∀ a, a ∈ m'.released ↔ a ∈ m.hooked := by
  have steady := reached.steady
  have empty : ∀ x, (m.slots.map fun _ => (none : Option ℕ)).count (some x) = 0 := fun x =>
    List.count_eq_zero.2 (by simp)
  have start : Sound { m with slots := m.slots.map fun _ => none }
      (m.slots.map .release ++ []) [] := by
    refine steady.sound.reslot steady.unmarked (fun x => ?_) fun x => ?_
    · rw [refs_releases]
      unfold refs
      show List.count _ (m.slots.map _) + total m.fieldsOf m.next (some x) + _ + _ = _
      rw [empty]
      omega
    · rw [List.append_nil, List.count_nil]
      exact List.count_eq_zero.2 (by simp)
  obtain ⟨m₁, released, sound₁, kept⟩ := start.finishTasks
  have unmarked₁ := kept.unmarked steady.unmarked
  have slots₁ : ∀ x, some x ∉ m₁.slots := fun x mem => by
    rw [kept.slots] at mem
    simp at mem
  have separate : Separate m₁ := by
    refine fun a _ => ⟨slots₁ a, fun b c is marked => ?_⟩
    rw [unmarked₁ b c is] at marked
    cases marked
  have ranked₁ : Ranked keeps rank m₁ :=
    Swept.ranked (kept.swept sound₁ fun x => List.not_mem_nil) ranked
  obtain ⟨n, m₂, swept, sound₂, left, cleared⟩ := sound₁.sweep separate ranked₁
  have unmarked₂ : ∀ a c, m₂.cells a = some c → c.marked = false := by
    intro a c is
    obtain ⟨c₁, is₁, same, -⟩ := left.cells a c is
    exact same.trans (unmarked₁ a c₁ is₁)
  have nothing : ∀ a, ¬ CollectableAt m₂ a := by
    rintro a ⟨c, is, isColl⟩
    have mem := (sound₂.chained a).2 ⟨c, is, isColl, unmarked₂ a c is⟩
    rw [cleared] at mem
    cases mem
  have gone : ∀ a, m₂.cells a = none := by
    intro a
    by_contra there
    obtain ⟨c, is⟩ := Option.ne_none_iff_exists'.1 there
    obtain ⟨pos, counted⟩ := (Steady.mk sound₂ unmarked₂).balanced.counted a c is
    rw [List.count_eq_zero.2 (left.slots ▸ slots₁ a), total_eq_zero_iff.2 fun b _ held =>
      nothing b (collectableAt_of_held held)] at counted
    omega
  refine ⟨m₂, ?_, gone, cleared, sound₂.once, fun a => ?_⟩
  · rw [close]
    simp only [released, swept, Option.bind_eq_bind, Option.bind_some]
  · rw [sound₂.released, left.hooked, kept.hooked]
    exact ⟨fun both => both.1, fun mem => ⟨mem, .inl (gone a)⟩⟩

theorem close_frees_all_circle : ∃ m m', Reached 3 m ∧ m.hooked = [2, 1] ∧
    m.close (fun a => if a = 2 then 1 else 0) = some m' ∧ (∀ a, m'.cells a = none) ∧
    ∀ a, a ∈ m'.released ↔ a = 2 ∨ a = 1 := by
  have reached : Reached 3 ((execAll circle (empty 3)).get circle_ends) :=
    reached_execAll .empty (Option.some_get _).symm
  have hooked : ((execAll circle (empty 3)).get circle_ends).hooked = [2, 1] := by decide +kernel
  obtain ⟨m', ran, gone, -, -, released⟩ :=
    close_frees_all reached (ranked_of_second (by decide +kernel))
  refine ⟨_, m', reached, hooked, ran, gone, fun a => ?_⟩
  rw [released, hooked, List.mem_cons, List.mem_singleton]

end Memory

end Squirrels
