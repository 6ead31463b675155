import Squirrels.Binding.TableUpdate

/-!
# Iteration over tables

`TableSlots` keeps its table and its position in two slots of the stack and finds them from the top.
As long as these are on top whenever `next` is called, the calls answer for the slots of the table
in the order of its nodes, and `drop` takes the two slots away.
-/

namespace Squirrels

open Machines

namespace Handle.Table

section Items

variable {κ ν : Type} [Owns κ] [FromSquirrel κ] [ExactFrom κ] [Owns ν] [FromSquirrel ν]
  [ExactFrom ν] {env : Env} {w w₀ : World} {s : SQVM} {L : List Object} {table : Table}

/-- The item of a slot; the error of the key comes first. -/
def pairUp {κ ν : Type} : Except Error κ → Except Error ν → Except Error (κ × ν)
  | .ok key, .ok val => .ok (key, val)
  | .error e, _ => .error e
  | .ok _, .error e => .error e

/-- The item that a slot of the machine `s` converts to. -/
def item (κ ν : Type) [Owns κ] [FromSquirrel κ] [ExactFrom κ] [Owns ν] [FromSquirrel ν]
    [ExactFrom ν] (vm : VmId) (s : SQVM) (n : HashNode) : Except Error (κ × ν) :=
  pairUp (ExactFrom.decode vm n.key) (ExactFrom.decode vm (s.heap.realval n.val))

omit [FromSquirrel κ] [ExactFrom κ] [FromSquirrel ν] [ExactFrom ν] in
/-- After the slot on top is popped, `next` drops what it does not return. -/
theorem pairUp_yields {vm : VmId} (key : Except Error κ) (val : Except Error ν) :
    Yields w₀ vm s (Owns.handles val ++ (Owns.handles key ++ L))
      (match key, val with
        | .ok key, .ok val => pure (some (.ok (key, val)))
        | .error e, val => do
          dropValue val
          pure (some (.error e))
        | .ok key, .error e => do
          dropValue key
          pure (some (.error e)))
      (some (pairUp key val)) s (Owns.handles (pairUp key val) ++ L) := by
  cases key with
  | error e => exact Yields.bind (Yields.dropValue val) (Yields.pure _)
  | ok key =>
    cases val with
    | error e => exact Yields.bind (Yields.dropValue key) (Yields.pure _)
    | ok val =>
      apply Yields.permPost (Yields.pure _)
      show (Owns.handles val ++ (Owns.handles key ++ L)).Perm
        ((Owns.handles key ++ Owns.handles val) ++ L)
      rw [← List.append_assoc]
      exact List.perm_append_comm.append_right L

/-- `next` on an entry. -/
theorem next_yields {p p' : ℕ} {n : HashNode} {pos : SQObject} {below : List SQObject}
    (stack : s.stack = pos :: table.obj :: below) (based : s.stackbase ≤ below.length)
    (position : Api.translateIndex pos = some (p : ℤ))
    (more : (s.heap.tables.read table.ref).next p = some (p', n)) :
    ∃ e, Yields w₀ table.sq s L (Slots.next env ⟨table.sq⟩) (some (item κ ν table.sq s n))
      ((s.setUp 0 (.integer p')).withError e) (Owns.handles (item κ ν table.sq s n) ++ L) := by
  have found : s.stackGet (-2) = .ref .table table.ref := by
    show s.stack.getD 1 .null = _
    rw [stack]
    rfl
  have position' : Api.translateIndex (s.up 0) = some (p : ℤ) := by
    show Api.translateIndex (s.stack.getD 0 .null) = _
    rw [stack]
    exact position
  have top : s.top = below.length + 2 := by
    rw [SQVM.top, stack]
    rfl
  have height : (s.setUp 0 (.integer p')).top = s.top := List.length_set
  -- the machine with the key and the value on top
  generalize stepped : ((s.setUp 0 (.integer p')).push n.key).push (s.heap.realval n.val) = s₁
  have computes := @Api.sqNext_table_computes env s table.ref (-2) p p' n found position' more
  rw [stepped] at computes
  have top₁ : s₁.top = s.top + 2 := by
    rw [← stepped, ← height]
    rfl
  have base₁ : s₁.stackbase = s.stackbase := by rw [← stepped]; rfl
  have keyHere : s₁.stackGet (-2) = n.key := by rw [← stepped]; rfl
  have valueHere : s₁.stackGet (-1) = s.heap.realval n.val := by rw [← stepped]; rfl
  have popped : s₁.pop 2 = s.setUp 0 (.integer p') := by rw [← stepped]; rfl
  have root : s₁.root = s.root := by rw [← stepped]; rfl
  obtain ⟨e, readKey⟩ := @ExactFrom.read κ _ _ _ env w₀ table.sq s₁ L (-2)
    ⟨by decide, by rw [if_neg (by decide)]; omega⟩ (by omega)
  obtain ⟨e', readVal⟩ := @ExactFrom.read ν _ _ _ env w₀ table.sq (s₁.withError e)
    (Owns.handles (ExactFrom.decode table.sq (s₁.stackGet (-2)) : Except Error κ) ++ L) (-1)
    ⟨by decide, by
      rw [if_neg (by decide)]
      show -((s₁.top : ℤ) - s₁.stackbase) ≤ -1
      omega⟩
    (by show s₁.stackbase ≤ s₁.top; omega)
  have value' : (s₁.withError e).stackGet (-1) = s.heap.realval n.val := valueHere
  rw [keyHere] at readKey readVal
  rw [value'] at readVal
  refine ⟨e', ?_⟩
  apply Yields.bind (Yields.machine computes root)
  apply Yields.bind readKey
  apply Yields.bind (Yields.onUnwind readVal)
  have enough : ((s₁.withError e).withError e').stackbase + 2 ≤
      ((s₁.withError e).withError e').top := by
    show s₁.stackbase + 2 ≤ s₁.top
    omega
  apply Yields.bind (Yields.onUnwind (Yields.pop Nat.two_pos enough))
  have same : ((s₁.withError e).withError e').pop 2 =
      (s.setUp 0 (.integer p')).withError e' := by
    rw [← popped]
    rfl
  rw [same]
  exact pairUp_yields _ _

omit [ExactFrom κ] [ExactFrom ν] in
/-- `next` at the end. -/
theorem next_ends {p : ℕ} {pos : SQObject} {below : List SQObject}
    (stack : s.stack = pos :: table.obj :: below)
    (position : Api.translateIndex pos = some (p : ℤ))
    (ends : (s.heap.tables.read table.ref).next p = none) :
    Yields w₀ table.sq s L (Slots.next env ⟨table.sq⟩)
      (none : Option (Except Error (κ × ν))) s L := by
  have found : s.stackGet (-2) = .ref .table table.ref := by
    show s.stack.getD 1 .null = _
    rw [stack]
    rfl
  have position' : Api.translateIndex (s.up 0) = some (p : ℤ) := by
    show Api.translateIndex (s.stack.getD 0 .null) = _
    rw [stack]
    exact position
  apply Yields.bind (Yields.machine (Api.sqNext_table_ends found position' ends) rfl)
  exact Yields.pure _

/-! ## One iterator -/

/-- The iterator of a table with the slots `t`, after `k` calls of `next`, is on top of the stack
`below`. -/
structure Standing (w : World) (table : Table) (t : SQTable) (k : ℕ) (below : List SQObject) :
    Prop where
  content : slots w table = t
  stack : ∃ (pos : SQObject) (p : ℕ), Api.translateIndex pos = some (p : ℤ) ∧ t.Behind k p ∧
    (w table.sq).stack = pos :: table.obj :: below
  based : (w table.sq).stackbase ≤ below.length

/-- What the operations of an iterator leave as it was. -/
structure Framed (vm : VmId) (w w' : World) : Prop where
  stackbase : (w' vm).stackbase = (w vm).stackbase
  heap : (w' vm).heap = (w vm).heap

omit [Owns κ] [FromSquirrel κ] [ExactFrom κ] [Owns ν] [FromSquirrel ν] [ExactFrom ν] in
theorem iter_run (owned : Owned L w) (based : (w table.sq).stackbase ≤ (w table.sq).top) :
    ∃ w', (iter table).run w = (.ok ⟨table.sq⟩, w') ∧
      Standing w' table (slots w table) 0 (w table.sq).stack ∧ Owned L w' ∧
      Framed table.sq w w' := by
  have yields : Yields w table.sq (w table.sq) L (iter table) _ _ L :=
    Yields.bind (Yields.push table.obj) (Yields.bind (Yields.push .null) (Yields.pure _))
  obtain ⟨it, w', ran, rfl, after⟩ := yields.returns (Exactly.start owned table.sq)
  refine ⟨w', ran, ⟨?_, ⟨.null, 0, rfl, SQTable.behind_zero _, ?_⟩, ?_⟩, after.owned, ?_, ?_⟩
  · unfold slots
    rw [after.machine]
    rfl
  · rw [after.machine]
    rfl
  · rw [after.machine]
    exact based
  · rw [after.machine]
    rfl
  · rw [after.machine]
    rfl

theorem next_run {t : SQTable} {k : ℕ} {below : List SQObject} (owned : Owned L w)
    (standing : Standing w table t k below) :
    ∃ L' w', (Slots.next env ⟨table.sq⟩).run w =
        (.ok (t.entries[k]?.map (item κ ν table.sq (w table.sq))), w') ∧
      Standing w' table t (k + 1) below ∧ Owned L' w' ∧ Framed table.sq w w' := by
  obtain ⟨pos, p, position, behind, stack⟩ := standing.stack
  have content : (w table.sq).heap.tables.read table.ref = t := standing.content
  have next := behind.next
  cases entry : t.entries[k]? with
  | none =>
    rw [entry] at next
    rw [← content] at next
    have yields : Yields w table.sq (w table.sq) L (Slots.next env ⟨table.sq⟩)
        (none : Option (Except Error (κ × ν))) _ L := next_ends stack position next
    obtain ⟨res, w', ran, rfl, after⟩ := yields.returns (Exactly.start owned table.sq)
    refine ⟨L, w', ran, ⟨?_, ⟨pos, p, position, behind.past entry, ?_⟩, ?_⟩, after.owned, ?_, ?_⟩
    · unfold slots
      rw [after.machine]
      exact content
    · rw [after.machine]
      exact stack
    · rw [after.machine]
      exact standing.based
    · rw [after.machine]
    · rw [after.machine]
  | some n =>
    rw [entry] at next
    obtain ⟨p', more, behind'⟩ := next
    rw [← content] at more
    obtain ⟨e, yields⟩ := @next_yields κ ν _ _ _ _ _ _ env w (w table.sq) L table p p' n pos below
      stack standing.based position more
    obtain ⟨res, w', ran, rfl, after⟩ := yields.returns (Exactly.start owned table.sq)
    refine ⟨_, w', ran, ⟨?_, ⟨.integer p', p', rfl, behind', ?_⟩, ?_⟩, after.owned, ?_, ?_⟩
    · unfold slots
      rw [after.machine]
      exact content
    · rw [after.machine]
      show (w table.sq).stack.set 0 _ = _
      rw [stack]
      rfl
    · rw [after.machine]
      exact standing.based
    · rw [after.machine]
      rfl
    · rw [after.machine]
      rfl

omit [Owns κ] [FromSquirrel κ] [ExactFrom κ] [Owns ν] [FromSquirrel ν] [ExactFrom ν] in
theorem drop_run {t : SQTable} {k : ℕ} {below : List SQObject} (owned : Owned L w)
    (standing : Standing w table t k below) :
    ∃ w', (Slots.drop ⟨table.sq⟩).run w = (.ok (), w') ∧ (w' table.sq).stack = below ∧
      Owned L w' ∧ Framed table.sq w w' := by
  obtain ⟨pos, p, -, -, stack⟩ := standing.stack
  have top : (w table.sq).top = below.length + 2 := by
    rw [SQVM.top, stack]
    rfl
  have based := standing.based
  have yields : Yields w table.sq (w table.sq) L (Slots.drop ⟨table.sq⟩) _ _ L :=
    Yields.pop (n := 2) Nat.two_pos (by omega)
  obtain ⟨u, w', ran, rfl, after⟩ := yields.returns (Exactly.start owned table.sq)
  refine ⟨w', ran, ?_, after.owned, ?_, ?_⟩
  · rw [after.machine]
    show (w table.sq).stack.drop 2 = below
    rw [stack]
    rfl
  · rw [after.machine]
    rfl
  · rw [after.machine]
    rfl

/-- What happens between two calls of `next`: anything that changes neither the table nor the
stack. -/
structure Neutral (table : Table) (w w' : World) : Prop where
  slots : slots w' table = slots w table
  stack : (w' table.sq).stack = (w table.sq).stack
  stackbase : (w' table.sq).stackbase = (w table.sq).stackbase

/-- The machines after `k` calls of `next` on an iterator made in `start`. -/
inductive Slots.Run (env : Env) (κ ν : Type) [Owns κ] [FromSquirrel κ] [Owns ν] [FromSquirrel ν]
    (table : Table) (start : World) : ℕ → World → Prop where
  | made {w : World} (ran : (iter table).run start = (.ok ⟨table.sq⟩, w)) :
      Slots.Run env κ ν table start 0 w
  | other {k : ℕ} {w w' : World} {L : List Object} (before : Slots.Run env κ ν table start k w)
      (neutral : Neutral table w w') (owned : Owned L w') : Slots.Run env κ ν table start k w'
  | next {k : ℕ} {w w' : World} {res : Option (Except Error (κ × ν))}
      (before : Slots.Run env κ ν table start k w)
      (ran : (Slots.next env ⟨table.sq⟩).run w = (.ok res, w')) :
      Slots.Run env κ ν table start (k + 1) w'

/-- The iterator stands where it was made. -/
theorem Slots.Run.standing {start : World} {k : ℕ} (owned : Owned L start)
    (based : (start table.sq).stackbase ≤ (start table.sq).top)
    (run : Slots.Run env κ ν table start k w) :
    (∃ L', Owned L' w) ∧ Standing w table (slots start table) k (start table.sq).stack ∧
      (w table.sq).stackbase = (start table.sq).stackbase := by
  induction run with
  | @made w ran =>
    obtain ⟨w', ran', standing, owned', framed⟩ := iter_run owned based
    rw [ran] at ran'
    cases ran'
    exact ⟨⟨L, owned'⟩, standing, framed.stackbase⟩
  | @other k w w' L' before neutral owned' ih =>
    obtain ⟨-, standing, base⟩ := ih
    refine ⟨⟨L', owned'⟩, ⟨?_, ?_, ?_⟩, ?_⟩
    · exact neutral.slots.trans standing.content
    · rw [neutral.stack]
      exact standing.stack
    · rw [neutral.stackbase]
      exact standing.based
    · exact neutral.stackbase.trans base
  | @next k w w' res before ran ih =>
    obtain ⟨⟨L', owned'⟩, standing, base⟩ := ih
    obtain ⟨L'', w'', ran', standing', owned'', framed⟩ := @next_run κ ν _ _ _ _ _ _ env w L' table
      _ k _ owned' standing
    rw [ran] at ran'
    cases ran'
    exact ⟨⟨L'', owned''⟩, standing', framed.stackbase.trans base⟩

omit [Owns κ] [FromSquirrel κ] [ExactFrom κ] [Owns ν] [FromSquirrel ν] [ExactFrom ν] in
theorem len_run {t : SQTable} (owned : Owned L w)
    (based : (w table.sq).stackbase ≤ (w table.sq).top) (content : slots w table = t) :
    ∃ w', table.len.run w = (.ok (t.countUsed : ℤ), w') := by
  have counts : Computes (Api.sqGetsize (-1)) ((w table.sq).push table.obj) (t.countUsed : ℤ)
      ((w table.sq).push table.obj) := by
    rw [← content]
    exact fun refs flag => ⟨flag, rfl⟩
  have yields : Yields w table.sq (w table.sq) L table.len (t.countUsed : ℤ) (w table.sq) L := by
    apply Yields.bind (Yields.push table.obj)
    apply Yields.bind (Yields.machine counts rfl)
    apply Yields.bind (Yields.pop (n := 1) one_pos ?_)
    · exact Yields.pure _
    · show (w table.sq).stackbase + 1 ≤ (w table.sq).top + 1
      omega
  obtain ⟨n, w', ran, rfl, -⟩ := yields.returns (Exactly.start owned table.sq)
  exact ⟨w', ran⟩

/-- The entries of a table are its slots, each of them once, and `len` of them. The call number `k`
answers for the entry number `k`, whether the calls before it could convert theirs or not, and calls
past the entries return `None`. After any number of calls `drop` restores the stack. -/
theorem slots_enumerate_table {start : World} {k : ℕ} (owned : Owned L start)
    (based : (start table.sq).stackbase ≤ (start table.sq).top)
    (reachable : (slots start table).Reachable env.hash)
    (run : Slots.Run env κ ν table start k w) :
    (∃ w', (Slots.next env ⟨table.sq⟩).run w = (.ok ((slots start table).entries[k]?.map
      (item κ ν table.sq (w table.sq))), w')) ∧
    (∃ w', (Slots.drop ⟨table.sq⟩).run w = (.ok (), w') ∧
      (w' table.sq).stack = (start table.sq).stack ∧
      (w' table.sq).stackbase = (start table.sq).stackbase) ∧
    (∃ w', table.len.run start = (.ok ((slots start table).entries.length : ℤ), w')) ∧
    ((slots start table).entries.map HashNode.key).Nodup ∧
    ∀ key val, (∃ n ∈ (slots start table).entries, n.key = key ∧ n.val = val) ↔
      key ≠ .null ∧ (slots start table).Holds key val := by
  have wf := reachable.wellFormed
  obtain ⟨⟨L', owned'⟩, standing, base⟩ := run.standing owned based
  obtain ⟨-, w₁, answered, -⟩ := @next_run κ ν _ _ _ _ _ _ env w L' table _ k _ owned' standing
  obtain ⟨w₂, dropped, stack, -, framed⟩ := drop_run owned' standing
  obtain ⟨w₃, counted⟩ := len_run owned based rfl
  rw [wf.length_entries]
  exact ⟨⟨w₁, answered⟩, ⟨w₂, dropped, stack, framed.stackbase.trans base⟩, ⟨w₃, counted⟩,
    wf.nodup_entries, fun key val => SQTable.mem_entries⟩

/-- A table of three slots, the second of which does not hold an integer. -/
def threeSlots : SQTable :=
  (((SQTable.create 0).newSlot (Env.hash .returning) (.integer 1) (.integer 5)).newSlot
    (Env.hash .returning) (.integer 2) .null).newSlot (Env.hash .returning) (.integer 3)
      (.integer 7)

theorem reachable_threeSlots : threeSlots.Reachable (Env.hash .returning) :=
  (((SQTable.Reachable.create 0).newSlot (by decide) _).newSlot (by decide) _).newSlot (by decide) _

theorem entries_threeSlots : threeSlots.entries =
    [⟨.integer 1, .integer 5, none⟩, ⟨.integer 2, .null, none⟩,
      ⟨.integer 3, .integer 7, none⟩] := by
  decide +kernel

theorem withTable_opened (t : SQTable) : Owned [] (World.withTable .returning t) ∧
    (World.withTable .returning t 0).stackbase ≤ (World.withTable .returning t 0).top ∧
      slots (World.withTable .returning t) (World.tableMade .returning) = t := by
  have based : ((World.usual .returning) 0).stackbase ≤ ((World.usual .returning) 0).top :=
    (fits_opened .returning (fun _ => .empty) (fun _ => 1024) 0 (Nat.zero_le 1024)).base
  exact ⟨(owned_opened _ _ _).update rfl rfl, based, Store.read_alloc_self _ _⟩

/-- All calls on this table. After the first one an error is set, and the second one fails. -/
theorem slots_enumerate_table_three :
    let next : Act World (Option (Except Error (ℤ × ℤ))) := Slots.next .returning ⟨0⟩
    let w₀ := ((iter (World.tableMade .returning)).run (World.withTable .returning threeSlots)).2
    ∃ w₁ w₂ w₃ w₄, next.run w₀ = (.ok (some (.ok (1, 5))), w₁) ∧
      next.run (Function.update w₁ 0 ((w₁ 0).raise "error")) =
        (.ok (some (.error (.type "integer"))), w₂) ∧
      next.run w₂ = (.ok (some (.ok (3, 7))), w₃) ∧ next.run w₃ = (.ok none, w₄) := by
  intro next w₀
  obtain ⟨owned, based, content⟩ := withTable_opened threeSlots
  obtain ⟨w', made, -⟩ := @iter_run _ _ (World.tableMade .returning) owned based
  have reachable := reachable_threeSlots
  rw [← content] at reachable
  have entries : (slots (World.withTable .returning threeSlots)
      (World.tableMade .returning)).entries = _ := (congrArg _ content).trans entries_threeSlots
  have run₀ : Slots.Run .returning ℤ ℤ (World.tableMade .returning) _ 0 w₀ :=
    .made (Prod.ext (by rw [made]) rfl)
  obtain ⟨⟨w₁, first⟩, -⟩ := slots_enumerate_table owned based reachable run₀
  have run₁ := run₀.next first
  -- between the calls an error is set
  obtain ⟨L, owned₁⟩ := (run₁.standing owned based).1
  have neutral : Neutral (World.tableMade .returning) w₁
      (Function.update w₁ 0 ((w₁ 0).raise "error")) := ⟨rfl, rfl, rfl⟩
  have run₂ := run₁.other neutral (owned₁.update rfl rfl)
  obtain ⟨⟨w₂, second⟩, -⟩ := slots_enumerate_table owned based reachable run₂
  have run₃ := run₂.next second
  obtain ⟨⟨w₃, third⟩, -⟩ := slots_enumerate_table owned based reachable run₃
  obtain ⟨⟨w₄, last⟩, -⟩ := slots_enumerate_table owned based reachable (run₃.next third)
  rw [entries] at first second third last
  exact ⟨w₁, w₂, w₃, w₄, first, second, third, last⟩

/-! ## Several iterators -/

/-- An iterator that is alive, with the number of its calls of `next`. -/
structure Live where
  table : Table
  calls : ℕ

/-- The iterators, the last one first, have their slots on the stack above `below`. -/
def Stacked (w : World) (vm : VmId) (below : List SQObject) : List Live → List SQObject → Prop
  | [], stack => stack = below
  | it :: live, stack => ∃ (pos : SQObject) (p : ℕ) (rest : List SQObject),
    it.table.sq = vm ∧ Api.translateIndex pos = some (p : ℤ) ∧
      (slots w it.table).Behind it.calls p ∧ stack = pos :: it.table.obj :: rest ∧
      Stacked w vm below live rest

/-- The machines while iterators are made, stepped and dropped, the last one that was made and is
alive being the only one that is stepped or dropped. In between anything may be done that changes
neither the stack nor a table. -/
inductive Nested (env : Env) (vm : VmId) (start : World) : List Live → World → Prop where
  | start : Nested env vm start [] start
  | create {live : List Live} {w w' : World} (before : Nested env vm start live w) (table : Table)
      (here : table.sq = vm) (ran : (iter table).run w = (.ok ⟨vm⟩, w')) :
      Nested env vm start (⟨table, 0⟩ :: live) w'
  | next {live : List Live} {it : Live} {w w' : World} {κ ν : Type} [Owns κ] [FromSquirrel κ]
      [ExactFrom κ] [Owns ν] [FromSquirrel ν] [ExactFrom ν]
      {res : Option (Except Error (κ × ν))} (before : Nested env vm start (it :: live) w)
      (ran : (Slots.next env ⟨vm⟩).run w = (.ok res, w')) :
      Nested env vm start ({ it with calls := it.calls + 1 } :: live) w'
  | drop {live : List Live} {it : Live} {w w' : World}
      (before : Nested env vm start (it :: live) w)
      (ran : (Slots.drop ⟨vm⟩).run w = (.ok (), w')) : Nested env vm start live w'
  | other {live : List Live} {w w' : World} {L : List Object}
      (before : Nested env vm start live w) (stack : (w' vm).stack = (w vm).stack)
      (stackbase : (w' vm).stackbase = (w vm).stackbase)
      (tables : (w' vm).heap.tables = (w vm).heap.tables) (owned : Owned L w') :
      Nested env vm start live w'

end Items

section Nested

variable {env : Env} {w w' start : World} {vm : VmId} {L : List Object} {live : List Live}
  {it : Live} {below stack : List SQObject}

theorem Stacked.congr (same : (w' vm).heap.tables = (w vm).heap.tables)
    (stacked : Stacked w vm below live stack) : Stacked w' vm below live stack := by
  induction live generalizing stack with
  | nil => exact stacked
  | cons it live ih =>
    obtain ⟨pos, p, rest, here, position, behind, eq, outer⟩ := stacked
    refine ⟨pos, p, rest, here, position, ?_, eq, ih outer⟩
    subst here
    unfold slots
    rw [same]
    exact behind

theorem Stacked.length (stacked : Stacked w vm below live stack) :
    below.length ≤ stack.length := by
  induction live generalizing stack with
  | nil => exact (congrArg List.length stacked).ge
  | cons it live ih =>
    obtain ⟨pos, p, rest, -, -, -, rfl, outer⟩ := stacked
    have le := ih outer
    simp only [List.length_cons]
    omega

/-- The last iterator stands on those before it. -/
theorem Stacked.standing (stacked : Stacked w vm below (it :: live) (w vm).stack)
    (based : (w vm).stackbase ≤ below.length) : ∃ rest, it.table.sq = vm ∧
      Standing w it.table (slots w it.table) it.calls rest ∧ Stacked w vm below live rest := by
  obtain ⟨pos, p, rest, here, position, behind, eq, outer⟩ := stacked
  subst here
  exact ⟨rest, rfl, ⟨rfl, ⟨pos, p, position, behind, eq⟩, based.trans outer.length⟩, outer⟩

/-- The slots of the iterators stay where they are. -/
theorem Nested.stacked (owned : Owned L start) (based : (start vm).stackbase ≤ (start vm).top)
    (run : Nested env vm start live w) :
    (∃ L', Owned L' w) ∧ Stacked w vm (start vm).stack live (w vm).stack ∧
      (w vm).stackbase = (start vm).stackbase ∧
      (w vm).heap.tables = (start vm).heap.tables := by
  induction run with
  | start => exact ⟨⟨L, owned⟩, rfl, rfl, rfl⟩
  | @create live w w' before table here ran ih =>
    obtain ⟨⟨L', owned'⟩, stacked, base, tables'⟩ := ih
    subst here
    have based' : (w table.sq).stackbase ≤ (w table.sq).top := by
      rw [base]
      exact based.trans stacked.length
    obtain ⟨w'', ran', standing, owned'', framed⟩ := iter_run owned' based'
    rw [ran] at ran'
    cases ran'
    obtain ⟨pos, p, position, behind, stack⟩ := standing.stack
    refine ⟨⟨L', owned''⟩, ⟨pos, p, _, rfl, position, ?_, stack, ?_⟩,
      framed.stackbase.trans base, by rw [framed.heap, tables']⟩
    · rw [← standing.content] at behind
      exact behind
    · exact stacked.congr (by rw [framed.heap])
  | @next live it w w' κ ν _ _ _ _ _ _ res before ran ih =>
    obtain ⟨⟨L', owned'⟩, stacked, base, tables'⟩ := ih
    obtain ⟨rest, here, standing, outer⟩ := stacked.standing (base.trans_le based)
    subst here
    obtain ⟨L'', w'', ran', standing', owned'', framed⟩ := @next_run κ ν _ _ _ _ _ _ env w L'
      it.table _ it.calls _ owned' standing
    rw [ran] at ran'
    cases ran'
    obtain ⟨pos, p, position, behind, stack⟩ := standing'.stack
    refine ⟨⟨L'', owned''⟩, ⟨pos, p, rest, rfl, position, ?_, stack, ?_⟩,
      framed.stackbase.trans base, by rw [framed.heap, tables']⟩
    · rw [← standing'.content] at behind
      exact behind
    · exact outer.congr (by rw [framed.heap])
  | @drop live it w w' before ran ih =>
    obtain ⟨⟨L', owned'⟩, stacked, base, tables'⟩ := ih
    obtain ⟨rest, here, standing, outer⟩ := stacked.standing (base.trans_le based)
    subst here
    obtain ⟨w'', ran', stack, owned'', framed⟩ := drop_run owned' standing
    rw [ran] at ran'
    cases ran'
    refine ⟨⟨L', owned''⟩, ?_, framed.stackbase.trans base, by rw [framed.heap, tables']⟩
    rw [stack]
    exact outer.congr (by rw [framed.heap])
  | @other live w w' L' before stack stackbase tables owned' ih =>
    obtain ⟨-, stacked, base, tables'⟩ := ih
    refine ⟨⟨L', owned'⟩, ?_, stackbase.trans base, tables.trans tables'⟩
    rw [stack]
    exact stacked.congr tables

/-- An item depends on nothing of the machine but its weak references. -/
theorem item_congr {κ ν : Type} [Owns κ] [FromSquirrel κ] [ExactFrom κ] [Owns ν] [FromSquirrel ν]
    [ExactFrom ν] {s s' : SQVM} (same : s'.heap.weakRefs = s.heap.weakRefs) (vm : VmId) :
    item κ ν vm s' = item κ ν vm s := by
  funext n
  have strong : s'.heap.realval n.val = s.heap.realval n.val := by
    unfold Heap.realval
    rw [same]
  rw [item, item, strong]

/-- When the last iterator is the only one to be stepped or dropped, it answers as it would if it
were alone, nothing panics, and when all are dropped the stack is as it was. -/
theorem nested_iterators_apart (owned : Owned L start)
    (based : (start vm).stackbase ≤ (start vm).top) (run : Nested env vm start live w) :
    (∀ it rest, live = it :: rest →
      (∀ (κ ν : Type) [Owns κ] [FromSquirrel κ] [ExactFrom κ] [Owns ν] [FromSquirrel ν]
        [ExactFrom ν], ∃ (res : Option (Except Error (κ × ν))) (w' : World),
        (Slots.next env ⟨vm⟩).run w = (.ok res, w') ∧
        ∀ (made alone : World) (L' : List Object), Owned L' made →
          (made vm).stackbase ≤ (made vm).top → slots made it.table = slots start it.table →
          Slots.Run env κ ν it.table made it.calls alone →
          (alone vm).heap.weakRefs = (w vm).heap.weakRefs →
          ∃ alone', (Slots.next env ⟨vm⟩).run alone = (.ok res, alone')) ∧
      ∃ w', (Slots.drop ⟨vm⟩).run w = (.ok (), w')) ∧
    (∀ table : Table, table.sq = vm → ∃ w', (iter table).run w = (.ok ⟨vm⟩, w')) ∧
    (live = [] → (w vm).stack = (start vm).stack ∧ (w vm).stackbase = (start vm).stackbase) := by
  obtain ⟨⟨L', owned'⟩, stacked, base, tables⟩ := run.stacked owned based
  refine ⟨fun it rest eq => ?_, fun table here => ?_, fun none => ?_⟩
  · subst eq
    obtain ⟨below, here, standing, -⟩ := stacked.standing (base.trans_le based)
    subst here
    have content : slots w it.table = slots start it.table := by
      unfold slots
      rw [tables]
    refine ⟨fun κ ν _ _ _ _ _ _ => ?_, ?_⟩
    · obtain ⟨-, w', ran, -⟩ := @next_run κ ν _ _ _ _ _ _ env w L' it.table _ it.calls _ owned'
        standing
      refine ⟨_, w', ran, fun made alone live made_owned made_based same single weak => ?_⟩
      obtain ⟨⟨L'', alone_owned⟩, alone_standing, -⟩ := single.standing made_owned made_based
      obtain ⟨-, alone', ran', -⟩ := @next_run κ ν _ _ _ _ _ _ env alone L'' it.table _ it.calls _
        alone_owned alone_standing
      refine ⟨alone', ?_⟩
      rw [ran', same, ← content, item_congr weak]
    · obtain ⟨w', ran, -⟩ := drop_run owned' standing
      exact ⟨w', ran⟩
  · subst here
    obtain ⟨w', ran, -⟩ := iter_run owned' (by rw [base]; exact based.trans stacked.length)
    exact ⟨w', ran⟩
  · subst none
    exact ⟨stacked, base⟩

/-- A table of two slots. -/
def twoSlots : SQTable :=
  ((SQTable.create 0).newSlot (Env.hash .returning) (.integer 1) (.integer 9)).newSlot
    (Env.hash .returning) (.integer 2) (.integer 6)

/-- Two tables on one machine: an iterator of the second one is made, stepped and dropped before the
one of the first table is stepped. -/
theorem nested_iterators_apart_next :
    let next : Act World (Option (Except Error (ℤ × ℤ))) := Slots.next .returning ⟨0⟩
    let w := World.withTable .returning threeSlots
    let start := Function.update w 0 { w 0 with heap := ((w 0).heap.newTable twoSlots).2 }
    ∃ w₁ w₂ w₃ w₄ w₅, (iter (World.tableMade .returning)).run start = (.ok ⟨0⟩, w₁) ∧
      (iter ⟨0, (w 0).heap.tables.next⟩).run w₁ = (.ok ⟨0⟩, w₂) ∧
      next.run w₂ = (.ok (some (.ok (1, 9))), w₃) ∧ (Slots.drop ⟨0⟩).run w₃ = (.ok (), w₄) ∧
      next.run w₄ = (.ok (some (.ok (1, 5))), w₅) := by
  intro next w start
  let outer : Table := World.tableMade .returning
  let inner : Table := ⟨0, (w 0).heap.tables.next⟩
  obtain ⟨owned, based, content⟩ := withTable_opened threeSlots
  have owned : Owned [] start := owned.update rfl rfl
  have based : (start 0).stackbase ≤ (start 0).top := based
  have first : slots start outer = threeSlots :=
    (Store.read_alloc_of_ne _ _ (Nat.succ_ne_self _).symm).trans content
  have second : slots start inner = twoSlots := Store.read_alloc_self _ _
  obtain ⟨w₁, ran₁, standing₁, owned₁, framed₁⟩ := @iter_run start [] outer owned based
  have based₁ : (w₁ 0).stackbase ≤ (w₁ 0).top := by
    obtain ⟨pos, p, -, -, stack⟩ := standing₁.stack
    have below := standing₁.based
    change (w₁ 0).stack = _ at stack
    rw [SQVM.top, stack]
    exact below.trans ((Nat.le_succ _).trans (Nat.le_succ _))
  obtain ⟨w₂, ran₂, standing₂, owned₂, framed₂⟩ := @iter_run w₁ [] inner owned₁ based₁
  obtain ⟨L, w₃, ran₃, standing₃, owned₃, framed₃⟩ :=
    @next_run ℤ ℤ _ _ _ _ _ _ .returning w₂ [] inner _ 0 _ owned₂ standing₂
  obtain ⟨w₄, ran₄, -, -, framed₄⟩ := drop_run owned₃ standing₃
  have run : Nested .returning 0 start [⟨outer, 0⟩] w₄ :=
    (((Nested.start.create outer rfl ran₁).create inner rfl ran₂).next ran₃).drop ran₄
  -- the iterator of the first table alone
  have single : Slots.Run .returning ℤ ℤ outer start 0 w₁ := .made ran₁
  have weak : (w₁ 0).heap.weakRefs = (w₄ 0).heap.weakRefs :=
    congrArg Heap.weakRefs (framed₄.heap.trans (framed₃.heap.trans framed₂.heap)).symm
  have reachable : (slots start outer).Reachable (Env.hash .returning) :=
    first ▸ reachable_threeSlots
  obtain ⟨⟨w₆, alone⟩, -⟩ := slots_enumerate_table owned based reachable single
  obtain ⟨res, w₅, ran₅, same⟩ := ((nested_iterators_apart owned based run).1 _ _ rfl).1 ℤ ℤ
  obtain ⟨w₇, alone'⟩ := same start w₁ [] owned based rfl single weak
  have item := (Prod.mk.inj (alone.symm.trans alone')).1
  rw [first, entries_threeSlots] at item
  obtain rfl := Except.ok.inj item
  have entry : twoSlots.entries[0]? = some ⟨.integer 1, .integer 9, none⟩ := by decide +kernel
  have unchanged : slots w₁ inner = slots start inner :=
    congrArg (fun heap => heap.tables.read inner.ref) framed₁.heap
  rw [unchanged, second, entry] at ran₃
  exact ⟨w₁, w₂, w₃, w₄, w₅, ran₁, ran₂, ran₃, ran₄, ran₅⟩

/-- An iterator that is stepped while a later one is alive yields the item of the later one; alone
it yields its own. -/
theorem iterators_mix :
    ((do
        let t₁ ← new .returning 0
        let _ ← set .returning t₁ (1 : ℤ) (10 : ℤ)
        let t₂ ← new .returning 0
        let _ ← set .returning t₂ (2 : ℤ) (20 : ℤ)
        let alone ← iter t₁
        let own : Option (Except Error (ℤ × ℤ)) ← alone.next .returning
        alone.drop
        let first ← iter t₁
        let _ ← iter t₂
        let item : Option (Except Error (ℤ × ℤ)) ← first.next .returning
        pure (own, item)).run (World.usual .returning)).1 =
      .ok (some (.ok (1, 10)), some (.ok (2, 20))) := by
  decide +kernel

end Nested

end Handle.Table

end Squirrels
