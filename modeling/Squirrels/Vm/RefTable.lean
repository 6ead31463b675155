import Mathlib.Data.List.Perm.Subperm
import Squirrels.Lib.Links
import Squirrels.Lib.Simulation
import Squirrels.Vm.Object

/-!
# The reference table

`RefTable` keeps the counts of `sq_addref` and `sq_release`. Its nodes are linked into buckets by
the hash of their objects, and those without an object into a free list; the nodes and the buckets
are one allocation, which doubles when the free list is empty. A pointer to a node is the index of
the node. A null pointer that is followed and a failed assertion end the process: the result is
`none`.
-/

namespace Squirrels

/-- `SQUnsignedInteger`s are counted modulo this. -/
def unsignedModulus : ℕ := 2 ^ 64

/-- `RefTable::RefNode`. -/
structure RefNode where
  obj : SQObject
  refs : ℕ
  next : Option ℕ
deriving DecidableEq, Repr

/-- `RefTable`. -/
structure RefTable where
  numofslots : ℕ
  slotused : ℕ
  nodes : ℕ → RefNode
  freelist : Option ℕ
  buckets : ℕ → Option ℕ

namespace RefTable

/-- `AllocNodes`: all nodes are free. -/
def allocNodes (size : ℕ) : RefTable where
  numofslots := size
  slotused := 0
  nodes n := ⟨.null, 0, if n + 1 < size then some (n + 1) else none⟩
  freelist := some 0
  buckets _ := none

/-- `RefTable::RefTable`. -/
def new : RefTable := allocNodes 4

variable (hash : SQObject → ℕ) (t : RefTable) (obj : SQObject)

/-- The link of a node. -/
def next (n : ℕ) : Option ℕ := (t.nodes n).next

/-- Change the node a pointer leads to. -/
def writeNode (n : ℕ) (node : RefNode) : RefTable :=
  { t with nodes := Function.update t.nodes n node }

/-- Change the count of a node. -/
def setRefs (n refs : ℕ) : RefTable := t.writeNode n { t.nodes n with refs := refs }

/-- The bucket of an object. -/
def mainPosition : ℕ := hash obj &&& (t.numofslots - 1)

/-- The first free node takes the object and goes to the front of a bucket. -/
def fill (newnode mainpos : ℕ) : RefTable :=
  { t.writeNode newnode { t.nodes newnode with obj := obj, next := t.buckets mainpos } with
    buckets := Function.update t.buckets mainpos (some newnode)
    freelist := t.next newnode
    slotused := t.slotused + 1 }

/-- `RefTable::Add`. -/
def add (mainpos : ℕ) : Option (ℕ × RefTable) :=
  match t.freelist with
  | none => none
  | some newnode =>
    if (t.nodes newnode).refs ≠ 0 then none else some (newnode, t.fill obj newnode mainpos)

/-- One turn of the loop of `Resize`: an old node is added back. -/
def addBack (acc : RefTable × ℕ) (node : RefNode) : Option (RefTable × ℕ) :=
  if node.obj = .null then some acc
  else if node.refs = 0 then none
  else do
    let (nn, t) ← acc.1.add node.obj (acc.1.mainPosition hash node.obj)
    some (t.setRefs nn node.refs, acc.2 + 1)

/-- `RefTable::Resize`. -/
def resize (size : ℕ) : Option RefTable := do
  let (resized, nfound) ←
    ((List.range t.numofslots).map t.nodes).foldlM (addBack hash) (allocNodes size, 0)
  if nfound = t.numofslots then some resized else none

/-- The search of `Get`: the node before the one that holds the object, and that node. -/
def search : Option ℕ × Option ℕ :=
  Links.find t.next (fun n => decide ((t.nodes n).obj = obj)) t.numofslots none
    (t.buckets (t.mainPosition hash obj))

/-- A full table is resized before a node is added. -/
def makeRoom : Option RefTable :=
  if t.numofslots = t.slotused then
    if t.freelist = none then t.resize hash (t.numofslots * 2) else none
  else some t

/-- `RefTable::Get` with `add`. -/
def getOrAdd : Option (ℕ × RefTable) :=
  match (t.search hash obj).2 with
  | some ref => some (ref, t)
  | none => (t.makeRoom hash).bind fun t => t.add obj (t.mainPosition hash obj)

/-- `RefTable::AddRef`. -/
def addRef : Option RefTable := do
  let (ref, t) ← t.getOrAdd hash obj
  some (t.setRefs ref (((t.nodes ref).refs + 1) % unsignedModulus))

/-- `RefTable::GetRefCount`. An object that is not there gets a node. -/
def getRefCount : Option (ℕ × RefTable) := do
  let (ref, t) ← t.getOrAdd hash obj
  some ((t.nodes ref).refs, t)

/-- Take a node out of its bucket, and put it to the free nodes. -/
def freeNode (mainpos : ℕ) (prev : Option ℕ) (ref : ℕ) : RefTable :=
  let unlinked :=
    match prev with
    | some p => t.writeNode p { t.nodes p with next := t.next ref }
    | none => { t with buckets := Function.update t.buckets mainpos (t.next ref) }
  { unlinked.writeNode ref ⟨.null, 0, t.freelist⟩ with
    freelist := some ref
    slotused := t.slotused - 1 }

/-- `RefTable::Release`: whether the last reference is gone. -/
def release : Option (Bool × RefTable) :=
  match t.search hash obj with
  | (_, none) => none
  | (prev, some ref) =>
    let refs := ((t.nodes ref).refs + (unsignedModulus - 1)) % unsignedModulus
    if refs = 0 then some (true, t.freeNode (t.mainPosition hash obj) prev ref)
    else some (false, t.setRefs ref refs)

/-! ## Well-formed tables -/

/-- The heads of the lists of nodes: the free list and the buckets. -/
def heads : Option ℕ → Option ℕ
  | none => t.freelist
  | some b => t.buckets b

/-- Every node is free or in the bucket of its object, and no two nodes have the same object. -/
structure Linked (list : Option ℕ → List ℕ) : Prop where
  heads : Links.Heads t.next t.heads list
  covers : ∀ n, n < t.numofslots ↔ ∃ k, n ∈ list k
  free : ∀ n ∈ list none, (t.nodes n).obj = .null ∧ (t.nodes n).refs = 0
  placed : ∀ b, ∀ n ∈ list (some b),
    (t.nodes n).obj ≠ .null ∧ t.mainPosition hash (t.nodes n).obj = b
  count : (list none).length + t.slotused = t.numofslots
  distinct : ∀ m < t.numofslots, ∀ n < t.numofslots, (t.nodes m).obj = (t.nodes n).obj →
    (t.nodes m).obj ≠ .null → m = n

/-- The table is well formed, and these are the counts of its objects. -/
structure Holds (entries : SQObject → Option ℕ) : Prop where
  linked : ∃ list, t.Linked hash list
  positive : 0 < t.numofslots
  entry : ∀ o, o ≠ .null → ∀ c, entries o = some c ↔
    ∃ n < t.numofslots, (t.nodes n).obj = o ∧ (t.nodes n).refs = c

section Linked

variable {hash t obj} {list : Option ℕ → List ℕ} {entries : SQObject → Option ℕ} {n : ℕ}

theorem next_writeNode (n : ℕ) (node : RefNode) :
    (t.writeNode n node).next = Function.update t.next n node.next := by
  funext m
  unfold next writeNode
  by_cases same : m = n
  · subst same
    simp only [Function.update_self]
  · simp only [Function.update_of_ne same]

theorem Linked.length_le (linked : t.Linked hash list) (k : Option ℕ) :
    (list k).length ≤ t.numofslots := by
  have once := (linked.heads.follows k).nodup
  have inside : list k ⊆ List.range t.numofslots := fun n mem =>
    List.mem_range.2 ((linked.covers n).2 ⟨k, mem⟩)
  simpa using (List.Nodup.subperm once inside).length_le

theorem Linked.bucket (linked : t.Linked hash list) (lt : n < t.numofslots)
    (used : (t.nodes n).obj ≠ .null) :
    n ∈ list (some (t.mainPosition hash (t.nodes n).obj)) := by
  obtain ⟨k, mem⟩ := (linked.covers n).1 lt
  cases k with
  | none => exact absurd (linked.free n mem).1 used
  | some b => rwa [(linked.placed b n mem).2]

/-- The search finds the node of an object, and the node before it. -/
theorem Linked.search_found (linked : t.Linked hash list) (lt : n < t.numofslots)
    (holds : (t.nodes n).obj = obj) (used : obj ≠ .null) :
    ∃ before after, list (some (t.mainPosition hash obj)) = before ++ n :: after ∧
      t.search hash obj = (before.getLast?, some n) := by
  subst holds
  obtain ⟨before, after, split⟩ := List.append_of_mem (linked.bucket lt used)
  refine ⟨before, after, split, ?_⟩
  have follows := linked.heads.follows (some (t.mainPosition hash (t.nodes n).obj))
  have once := follows.nodup
  have short := linked.length_le (some (t.mainPosition hash (t.nodes n).obj))
  rw [split] at follows once short
  simp only [List.length_append, List.length_cons] at short
  unfold search
  have found := @Links.find_of_split _ t.next
    (fun m => decide ((t.nodes m).obj = (t.nodes n).obj)) _ none _ _ n t.numofslots follows
    (fun m mem => ?_) (by simp) (by omega)
  · rw [← Option.or_none (o := before.getLast?)]
    exact found
  · -- another node before it with the same object would be the node itself
    apply decide_eq_false
    intro same
    have inside : m < t.numofslots := (linked.covers m).2 ⟨_, by
      rw [split]
      exact List.mem_append_left _ mem⟩
    obtain rfl := linked.distinct m inside n lt same (same ▸ used)
    exact (List.nodup_append.1 once).2.2 m mem m List.mem_cons_self rfl

theorem Linked.search_missing (linked : t.Linked hash list)
    (missing : ∀ n < t.numofslots, (t.nodes n).obj ≠ obj) : (t.search hash obj).2 = none :=
  Links.find_of_none (linked.heads.follows (some (t.mainPosition hash obj))) fun n mem =>
    decide_eq_false (missing n ((linked.covers n).2 ⟨_, mem⟩))

/-- A new allocation is well formed and empty. -/
theorem allocNodes_holds {size : ℕ} (positive : 0 < size) :
    (allocNodes size).Holds hash fun _ => none := by
  have follows : ∀ k ≤ size, Links.Follows (allocNodes size).next
      (if size - k < size then some (size - k) else none) (List.range' (size - k) k) := by
    intro k le
    induction k with
    | zero => simp
    | succ k ih =>
      rw [List.range'_succ, if_pos (by omega)]
      refine ⟨rfl, ?_⟩
      have back : size - (k + 1) + 1 = size - k := by omega
      have link : (allocNodes size).next (size - (k + 1)) =
          if size - k < size then some (size - k) else none := by
        show (if size - (k + 1) + 1 < size then some (size - (k + 1) + 1) else none) = _
        rw [back]
      rw [link, back]
      exact ih (by omega)
  have all := follows size le_rfl
  rw [Nat.sub_self, if_pos positive, ← List.range_eq_range'] at all
  let list : Option ℕ → List ℕ := fun k => if k = none then List.range size else []
  have members : ∀ k n, n ∈ list k ↔ k = none ∧ n < size := by
    intro k n
    by_cases first : k = none
    · simp [list, first]
    · simp [list, first]
  refine ⟨⟨list, ⟨fun k => ?_, fun mem mem' => ?_⟩, fun n => ?_, fun n mem => ⟨rfl, rfl⟩,
    fun b n mem => ?_, ?_, fun m _ n _ _ used => absurd rfl used⟩, positive, fun o used c => ?_⟩
  · cases k with
    | none => exact all
    | some b => rfl
  · rw [((members _ _).1 mem).1, ((members _ _).1 mem').1]
  · refine ⟨fun lt => ⟨none, (members _ _).2 ⟨rfl, lt⟩⟩, ?_⟩
    rintro ⟨k, mem⟩
    exact ((members _ _).1 mem).2
  · exact absurd ((members _ _).1 mem).1 (by simp)
  · show (List.range size).length + 0 = size
    simp
  · refine iff_of_false (by simp) ?_
    rintro ⟨n, -, holds, -⟩
    exact used holds.symm

/-! ## The operations -/

/-- Nodes may get other counts. -/
theorem Linked.setRefs (linked : t.Linked hash list) (lt : n < t.numofslots)
    (used : (t.nodes n).obj ≠ .null) (refs : ℕ) : (t.setRefs n refs).Linked hash list := by
  have obj : ∀ m, ((t.setRefs n refs).nodes m).obj = (t.nodes m).obj := by
    intro m
    unfold RefTable.setRefs writeNode
    by_cases same : m = n
    · subst same
      simp only [Function.update_self]
    · simp only [Function.update_of_ne same]
  have next : (t.setRefs n refs).next = t.next := by
    unfold RefTable.setRefs
    rw [next_writeNode]
    exact Function.update_eq_self n t.next
  refine ⟨next ▸ linked.heads, linked.covers, fun m mem => ⟨?_, ?_⟩, fun b m mem => ?_,
    linked.count, fun m ltm m' ltm' same => ?_⟩
  · rw [obj]
    exact (linked.free m mem).1
  · have other : m ≠ n := by
      rintro rfl
      exact used (linked.free m mem).1
    unfold RefTable.setRefs writeNode
    simp only [Function.update_of_ne other]
    exact (linked.free m mem).2
  · rw [obj]
    exact linked.placed b m mem
  · rw [obj, obj] at same
    rw [obj]
    exact linked.distinct m ltm m' ltm' same

theorem Holds.setRefs (holds : t.Holds hash entries) (lt : n < t.numofslots)
    (used : (t.nodes n).obj ≠ .null) (refs : ℕ) :
    (t.setRefs n refs).Holds hash (Function.update entries (t.nodes n).obj (some refs)) := by
  obtain ⟨list, linked⟩ := holds.linked
  refine ⟨⟨list, linked.setRefs lt used refs⟩, holds.positive, fun o nonnull c => ?_⟩
  by_cases same : o = (t.nodes n).obj
  · subst same
    rw [Function.update_self, Option.some.injEq]
    constructor
    · rintro rfl
      refine ⟨n, lt, ?_, ?_⟩ <;> simp [RefTable.setRefs, writeNode]
    · rintro ⟨m, ltm, eq, count⟩
      by_cases at_ : m = n
      · subst at_
        simpa [RefTable.setRefs, writeNode] using count
      · simp only [RefTable.setRefs, writeNode, Function.update_of_ne at_] at eq
        exact absurd (linked.distinct m ltm n lt eq (eq ▸ nonnull)) at_
  · rw [Function.update_of_ne same, holds.entry o nonnull]
    refine exists_congr fun m => and_congr_right fun _ => ?_
    by_cases at_ : m = n
    · subst at_
      simp [RefTable.setRefs, writeNode, Ne.symm same]
    · simp [RefTable.setRefs, writeNode, Function.update_of_ne at_]

/-- The lists after a free node has gone to the front of a bucket. -/
theorem mem_filled {l : List ℕ} (heads : Links.Heads t.next t.heads list)
    (first : list none = n :: l) {b m : ℕ} {k : Option ℕ} :
    m ∈ Function.update (Function.update list none l) (some b) (n :: list (some b)) k ↔
      k = some b ∧ m = n ∨ m ∈ list k ∧ m ≠ n := by
  have mem : n ∈ list none := by
    rw [first]
    exact List.mem_cons_self
  have away : ∀ k, k ≠ none → m ∈ list k → m ≠ n := by
    rintro k bucket mem' rfl
    exact bucket (heads.apart mem' mem)
  by_cases here : k = some b
  · subst here
    rw [Function.update_self, List.mem_cons]
    refine or_congr (by simp) ⟨fun mem' => ⟨mem', away _ (by simp) mem'⟩, And.left⟩
  · rw [Function.update_of_ne here]
    by_cases free : k = none
    · subst free
      have once := (heads.follows none).nodup
      rw [first] at once
      rw [Function.update_self, first, List.mem_cons]
      constructor
      · intro mem'
        exact .inr ⟨.inr mem', fun eq => (List.nodup_cons.1 once).1 (eq ▸ mem')⟩
      · rintro (⟨eq, -⟩ | ⟨eq | mem', other⟩)
        · cases eq
        · exact absurd eq other
        · exact mem'
    · rw [Function.update_of_ne free]
      constructor
      · exact fun mem' => .inr ⟨mem', away k free mem'⟩
      · rintro (⟨eq, -⟩ | ⟨mem', -⟩)
        · exact absurd eq here
        · exact mem'

theorem heads_fill {b : ℕ} :
    (t.fill obj n b).heads = Function.update (Function.update t.heads none (t.next n)) (some b)
      (some n) := by
  funext k
  cases k with
  | none => rfl
  | some c =>
    show Function.update t.buckets b (some n) c = _
    by_cases same : c = b
    · subst same
      simp
    · have other : some c ≠ some b := fun eq => same (Option.some.inj eq)
      rw [Function.update_of_ne same, Function.update_of_ne other, Function.update_of_ne (by simp)]
      rfl

theorem nodes_fill_self {b : ℕ} :
    (t.fill obj n b).nodes n = { t.nodes n with obj := obj, next := t.buckets b } :=
  Function.update_self _ _ _

theorem nodes_fill_of_ne {b m : ℕ} (other : m ≠ n) : (t.fill obj n b).nodes m = t.nodes m :=
  Function.update_of_ne other _ _

theorem Linked.fill (linked : t.Linked hash list) (nonnull : obj ≠ .null)
    (absent : ∀ m < t.numofslots, (t.nodes m).obj ≠ obj) {l : List ℕ} (first : list none = n :: l) :
    ∃ list', (t.fill obj n (t.mainPosition hash obj)).Linked hash list' := by
  set b := t.mainPosition hash obj with place
  have mem : n ∈ list none := by
    rw [first]
    exact List.mem_cons_self
  have members : ∀ {k m}, m ∈ Function.update (Function.update list none l) (some b)
      (n :: list (some b)) k ↔ k = some b ∧ m = n ∨ m ∈ list k ∧ m ≠ n :=
    mem_filled linked.heads first
  refine ⟨Function.update (Function.update list none l) (some b) (n :: list (some b)), ?_,
    fun m => ?_, fun m inFree => ?_, fun c m inBucket => ?_, ?_, fun m ltm m' ltm' same used => ?_⟩
  · have moved := linked.heads.move first (show some b ≠ none by simp)
    have next : (t.fill obj n b).next = Function.update t.next n (t.buckets b) :=
      next_writeNode n _
    rw [next, heads_fill]
    exact moved
  · refine (linked.covers m).trans ⟨fun ⟨k, mem'⟩ => ?_, fun ⟨k, mem'⟩ => ?_⟩
    · by_cases same : m = n
      · exact ⟨some b, members.2 (.inl ⟨rfl, same⟩)⟩
      · exact ⟨k, members.2 (.inr ⟨mem', same⟩)⟩
    · rcases members.1 mem' with ⟨-, rfl⟩ | ⟨old, -⟩
      · exact ⟨none, mem⟩
      · exact ⟨k, old⟩
  · rcases members.1 inFree with ⟨eq, -⟩ | ⟨old, other⟩
    · cases eq
    · rw [nodes_fill_of_ne other]
      exact linked.free m old
  · rcases members.1 inBucket with ⟨eq, rfl⟩ | ⟨old, other⟩
    · rw [nodes_fill_self]
      exact ⟨nonnull, (Option.some.inj eq).symm⟩
    · rw [nodes_fill_of_ne other]
      exact linked.placed c m old
  · have count := linked.count
    rw [first] at count
    rw [Function.update_of_ne (by simp), Function.update_self]
    show l.length + (t.slotused + 1) = t.numofslots
    simp only [List.length_cons] at count
    omega
  · by_cases first' : m = n <;> by_cases second : m' = n
    · rw [first', second]
    · rw [first', nodes_fill_self, nodes_fill_of_ne second] at same
      exact absurd same.symm (absent m' ltm')
    · rw [second, nodes_fill_self, nodes_fill_of_ne first'] at same
      exact absurd same (absent m ltm)
    · rw [nodes_fill_of_ne first', nodes_fill_of_ne second] at same
      rw [nodes_fill_of_ne first'] at used
      exact linked.distinct m ltm m' ltm' same used

/-- `Add` of an object that has no node yet. -/
theorem Holds.add (holds : t.Holds hash entries) (nonnull : obj ≠ .null)
    (missing : entries obj = none) (room : t.slotused < t.numofslots) :
    ∃ n t', t.add obj (t.mainPosition hash obj) = some (n, t') ∧ n < t'.numofslots ∧
      (t'.nodes n).obj = obj ∧ t'.numofslots = t.numofslots ∧ t'.slotused = t.slotused + 1 ∧
      t'.Holds hash (Function.update entries obj (some 0)) := by
  obtain ⟨list, linked⟩ := holds.linked
  have absent : ∀ m < t.numofslots, (t.nodes m).obj ≠ obj := by
    intro m lt eq
    have found := (holds.entry obj nonnull _).2 ⟨m, lt, eq, rfl⟩
    rw [missing] at found
    cases found
  have count := linked.count
  obtain ⟨n, l, first⟩ := List.exists_cons_of_length_pos (l := list none) (by omega)
  have follows := linked.heads.follows none
  rw [first] at follows
  have head : t.freelist = some n := follows.1
  have mem : n ∈ list none := by
    rw [first]
    exact List.mem_cons_self
  have lt : n < t.numofslots := (linked.covers n).2 ⟨_, mem⟩
  obtain ⟨unused, zero⟩ := linked.free n mem
  have added : t.add obj (t.mainPosition hash obj) =
      some (n, t.fill obj n (t.mainPosition hash obj)) := by
    unfold RefTable.add
    rw [head]
    simp only [zero, ne_eq, not_true_eq_false, if_false]
  refine ⟨n, _, added, lt, by rw [nodes_fill_self], rfl, rfl, linked.fill nonnull absent first,
    holds.positive, fun o used c => ?_⟩
  by_cases same : o = obj
  · subst same
    rw [Function.update_self, Option.some.injEq]
    constructor
    · rintro rfl
      exact ⟨n, lt, by rw [nodes_fill_self], by rw [nodes_fill_self]; exact zero⟩
    · rintro ⟨m, ltm, eq, refs⟩
      by_cases at_ : m = n
      · rw [at_, nodes_fill_self] at refs
        rw [← refs, zero]
      · rw [nodes_fill_of_ne at_] at eq
        exact absurd eq (absent m ltm)
  · rw [Function.update_of_ne same, holds.entry o used]
    refine exists_congr fun m => and_congr_right fun _ => ?_
    by_cases at_ : m = n
    · rw [at_, nodes_fill_self, unused]
      exact iff_of_false (fun h => used h.1.symm) fun h => same h.1.symm
    · rw [nodes_fill_of_ne at_]

/-- Only the counts of objects matter. -/
theorem Holds.congr {entries' : SQObject → Option ℕ} (holds : t.Holds hash entries)
    (same : ∀ o, o ≠ .null → entries' o = entries o) : t.Holds hash entries' :=
  ⟨holds.linked, holds.positive, fun o used c => by rw [same o used]; exact holds.entry o used c⟩

/-- Every node of a full table has an object. -/
theorem Holds.full (holds : t.Holds hash entries) (full : t.slotused = t.numofslots) :
    t.freelist = none ∧ ∀ n < t.numofslots, (t.nodes n).obj ≠ .null := by
  obtain ⟨list, linked⟩ := holds.linked
  have none : list none = [] := by
    apply List.eq_nil_of_length_eq_zero
    have := linked.count
    omega
  have follows := linked.heads.follows .none
  rw [none] at follows
  refine ⟨follows, fun n lt => ?_⟩
  obtain ⟨k, mem⟩ := (linked.covers n).1 lt
  cases k with
  | none =>
    rw [none] at mem
    cases mem
  | some b => exact (linked.placed b n mem).1

/-- The nodes of a full table are added back one after the other. -/
theorem Holds.addBack (holds : t.Holds hash entries) (full : t.slotused = t.numofslots)
    (counted : ∀ o, o ≠ .null → entries o ≠ some 0) {size : ℕ} (room : t.numofslots ≤ size) :
    ∀ k ≤ t.numofslots, ∃ t' entries', ((List.range k).map t.nodes).foldlM (RefTable.addBack hash)
        (allocNodes size, 0) = some (t', k) ∧ t'.numofslots = size ∧ t'.slotused = k ∧
      t'.Holds hash entries' ∧ ∀ o, o ≠ .null → ∀ c, entries' o = some c ↔
        ∃ n < k, (t.nodes n).obj = o ∧ (t.nodes n).refs = c := by
  obtain ⟨list, linked⟩ := holds.linked
  have used := (holds.full full).2
  intro k le
  induction k with
  | zero =>
    exact ⟨_, _, rfl, rfl, rfl, allocNodes_holds (lt_of_lt_of_le holds.positive room),
      fun o _ c => by simp⟩
  | succ k ih =>
    obtain ⟨t₁, entries₁, ran, size₁, used₁, holds₁, entry₁⟩ := ih (by omega)
    have lt : k < t.numofslots := by omega
    have nonnull := used k lt
    have live : (t.nodes k).refs ≠ 0 := fun zero =>
      counted _ nonnull ((holds.entry _ nonnull 0).2 ⟨k, lt, rfl, zero⟩)
    have missing : entries₁ (t.nodes k).obj = none := by
      cases found : entries₁ (t.nodes k).obj with
      | none => rfl
      | some c =>
        obtain ⟨n, ltn, eq, -⟩ := (entry₁ _ nonnull c).1 found
        have := linked.distinct n (by omega) k lt eq (eq ▸ nonnull)
        omega
    obtain ⟨n, t₂, added, ltn, obj, size₂, used₂, holds₂⟩ :=
      holds₁.add nonnull missing (by omega)
    have set := holds₂.setRefs ltn (obj.symm ▸ nonnull) (t.nodes k).refs
    refine ⟨t₂.setRefs n (t.nodes k).refs, _, ?_, size₂.trans size₁,
      used₂.trans (congrArg (· + 1) used₁), set, fun o some c => ?_⟩
    · rw [List.range_succ, List.map_append, List.foldlM_append, ran]
      show (RefTable.addBack hash (t₁, k) (t.nodes k)) >>= pure = _
      rw [bind_pure]
      unfold RefTable.addBack
      rw [if_neg nonnull, if_neg live, added]
      rfl
    · rw [obj]
      by_cases here : o = (t.nodes k).obj
      · rw [here, Function.update_self, Option.some.injEq]
        constructor
        · rintro rfl
          exact ⟨k, by omega, rfl, rfl⟩
        · rintro ⟨m, ltm, eq, refs⟩
          rw [← refs, linked.distinct m (by omega) k lt eq (eq ▸ nonnull)]
      · rw [Function.update_of_ne here, Function.update_of_ne here, entry₁ o some]
        constructor
        · rintro ⟨m, ltm, rest⟩
          exact ⟨m, by omega, rest⟩
        · rintro ⟨m, ltm, eq, refs⟩
          refine ⟨m, ?_, eq, refs⟩
          have : m ≠ k := fun at_ => here (at_ ▸ eq.symm)
          omega

/-- A full table without zero counts is resized, and keeps its counts. -/
theorem Holds.resize (holds : t.Holds hash entries) (full : t.slotused = t.numofslots)
    (counted : ∀ o, o ≠ .null → entries o ≠ some 0) {size : ℕ} (room : t.numofslots ≤ size) :
    ∃ t', t.resize hash size = some t' ∧ t'.numofslots = size ∧ t'.slotused = t.slotused ∧
      t'.Holds hash entries := by
  obtain ⟨t', entries', ran, size', used, holds', entry⟩ :=
    holds.addBack full counted room t.numofslots le_rfl
  refine ⟨t', ?_, size', used.trans full.symm, holds'.congr fun o nonnull => ?_⟩
  · unfold RefTable.resize
    rw [ran]
    exact if_pos rfl
  · apply Option.ext
    intro c
    rw [entry o nonnull, holds.entry o nonnull]

/-- `Get` with `add`: the object has a node afterwards. -/
theorem Holds.getOrAdd (holds : t.Holds hash entries) (nonnull : obj ≠ .null)
    (counted : ∀ o, o ≠ .null → entries o ≠ some 0) :
    ∃ n t', t.getOrAdd hash obj = some (n, t') ∧ n < t'.numofslots ∧ (t'.nodes n).obj = obj ∧
      (t'.nodes n).refs = (entries obj).getD 0 ∧
      t'.Holds hash (Function.update entries obj (some ((entries obj).getD 0))) := by
  obtain ⟨list, linked⟩ := holds.linked
  cases found : entries obj with
  | some c =>
    obtain ⟨n, lt, eq, refs⟩ := (holds.entry obj nonnull c).1 found
    obtain ⟨before, after, -, search⟩ := linked.search_found lt eq nonnull
    refine ⟨n, t, ?_, lt, eq, refs, holds.congr fun o _ => ?_⟩
    · unfold RefTable.getOrAdd
      rw [search]
    · by_cases same : o = obj
      · rw [same, Function.update_self, found]
        rfl
      · rw [Function.update_of_ne same]
  | none =>
    have absent : ∀ m < t.numofslots, (t.nodes m).obj ≠ obj := by
      intro m lt eq
      have present := (holds.entry obj nonnull _).2 ⟨m, lt, eq, rfl⟩
      rw [found] at present
      cases present
    have search := linked.search_missing absent
    -- a full table grows first, and then there is room
    obtain ⟨t₁, grown, room, holds₁⟩ : ∃ t₁, t.makeRoom hash = some t₁ ∧
        t₁.slotused < t₁.numofslots ∧ t₁.Holds hash entries := by
      unfold RefTable.makeRoom
      by_cases full : t.numofslots = t.slotused
      · obtain ⟨t₁, resized, size, used, holds₁⟩ :=
          holds.resize full.symm counted (show t.numofslots ≤ t.numofslots * 2 by omega)
        have positive := holds.positive
        refine ⟨t₁, ?_, by omega, holds₁⟩
        rw [if_pos full, if_pos (holds.full full.symm).1, resized]
      · have count := linked.count
        exact ⟨t, if_neg full, by omega, holds⟩
    obtain ⟨n, t₂, added, lt, eq, -, -, holds₂⟩ := holds₁.add nonnull found room
    have refs : (t₂.nodes n).refs = 0 := by
      have entry := (holds₂.entry obj nonnull _).2 ⟨n, lt, eq, rfl⟩
      rw [Function.update_self] at entry
      exact (Option.some.inj entry).symm
    refine ⟨n, t₂, ?_, lt, eq, refs, holds₂⟩
    unfold RefTable.getOrAdd
    rw [search, grown]
    exact added

/-! ## Removal -/

section FreeNode

variable {prev : Option ℕ} {ref b : ℕ} {before after : List ℕ}

theorem nodes_freeNode_self : (t.freeNode b prev ref).nodes ref = ⟨.null, 0, t.freelist⟩ := by
  unfold freeNode
  cases prev <;> exact Function.update_self _ _ _

theorem nodes_freeNode_of_ne {m : ℕ} (other : m ≠ ref) :
    ((t.freeNode b prev ref).nodes m).obj = (t.nodes m).obj ∧
      ((t.freeNode b prev ref).nodes m).refs = (t.nodes m).refs := by
  unfold freeNode
  cases prev with
  | none =>
    simp only [writeNode, Function.update_of_ne other, and_self]
  | some p =>
    simp only [writeNode, Function.update_of_ne other]
    by_cases at_ : m = p
    · subst at_
      simp only [Function.update_self, and_self]
    · simp only [Function.update_of_ne at_, and_self]

/-- The lists after a node has been taken out of its bucket and put to the free nodes. -/
theorem heads_freeNode (heads : Links.Heads t.next t.heads list)
    (split : list (some b) = before ++ ref :: after) :
    Links.Heads (t.freeNode b before.getLast? ref).next (t.freeNode b before.getLast? ref).heads
      (Function.update (Function.update list (some b) (before ++ after)) none
        (ref :: list none)) := by
  have mem : ref ∈ list (some b) := by
    rw [split]
    simp
  have once := (heads.follows (some b)).nodup
  rw [split] at once
  have outside : ∀ k, ref ∉ Function.update list (some b) (before ++ after) k := by
    intro k mem'
    by_cases same : k = some b
    · subst same
      rw [Function.update_self] at mem'
      exact (List.nodup_cons.1 (List.nodup_middle.1 once)).1 mem'
    · rw [Function.update_of_ne same] at mem'
      exact same (heads.apart mem' mem)
  have free : Function.update list (some b) (before ++ after) none = list none :=
    Function.update_of_ne (by simp) _ _
  rcases List.eq_nil_or_concat before with rfl | ⟨before, p, rfl⟩
  · -- the node is the first one of its bucket
    rw [List.nil_append] at outside free ⊢
    have moved := (heads.pop split).push (k := none) outside
    rw [free] at moved
    have next : (t.freeNode b none ref).next = Function.update t.next ref t.freelist :=
      next_writeNode ref _
    have lists : (t.freeNode b none ref).heads =
        Function.update (Function.update t.heads (some b) (t.next ref)) none (some ref) := by
      funext k
      cases k with
      | none => rfl
      | some c =>
        rw [Function.update_of_ne (by simp)]
        show Function.update t.buckets b (t.next ref) c = _
        by_cases same : c = b
        · subst same
          simp only [Function.update_self]
        · rw [Function.update_of_ne same,
            Function.update_of_ne (fun eq => same (Option.some.inj eq))]
          rfl
    rw [List.getLast?_nil, next, lists]
    exact moved
  · -- the node before it is linked to the next one
    rw [List.concat_eq_append] at split ⊢ outside free
    rw [List.append_assoc] at split
    have unlinked := heads.unlink split
    rw [← List.singleton_append, ← List.append_assoc] at unlinked
    have moved := unlinked.push (k := none) outside
    rw [free] at moved
    have next : (t.freeNode b (some p) ref).next =
        Function.update (Function.update t.next p (t.next ref)) ref t.freelist := by
      show ((t.writeNode p _).writeNode ref _).next = _
      rw [next_writeNode, next_writeNode]
    have lists : (t.freeNode b (some p) ref).heads = Function.update t.heads none (some ref) := by
      funext k
      cases k <;> rfl
    rw [List.getLast?_concat, next, lists]
    exact moved

theorem mem_freed (heads : Links.Heads t.next t.heads list)
    (split : list (some b) = before ++ ref :: after) {m : ℕ} {k : Option ℕ} :
    m ∈ Function.update (Function.update list (some b) (before ++ after)) none
        (ref :: list none) k ↔ k = none ∧ m = ref ∨ m ∈ list k ∧ m ≠ ref := by
  have mem : ref ∈ list (some b) := by
    rw [split]
    simp
  have once := (heads.follows (some b)).nodup
  rw [split, List.nodup_middle] at once
  have away : ∀ k, k ≠ some b → m ∈ list k → m ≠ ref := by
    rintro k other mem' rfl
    exact other (heads.apart mem' mem)
  by_cases free : k = none
  · subst free
    rw [Function.update_self, List.mem_cons]
    exact or_congr (by simp) ⟨fun mem' => ⟨mem', away _ (by simp) mem'⟩, And.left⟩
  · rw [Function.update_of_ne free]
    by_cases here : k = some b
    · subst here
      rw [Function.update_self, split]
      constructor
      · intro mem'
        refine .inr ⟨?_, fun eq => (List.nodup_cons.1 once).1 (eq ▸ mem')⟩
        exact List.perm_middle.symm.subset (List.mem_cons_of_mem _ mem')
      · rintro (⟨eq, -⟩ | ⟨mem', other⟩)
        · exact absurd eq free
        · exact (List.mem_cons.1 (List.perm_middle.subset mem')).resolve_left other
    · rw [Function.update_of_ne here]
      constructor
      · exact fun mem' => .inr ⟨mem', away k here mem'⟩
      · rintro (⟨eq, -⟩ | ⟨mem', -⟩)
        · exact absurd eq free
        · exact mem'

theorem Linked.freeNode (linked : t.Linked hash list)
    (split : list (some b) = before ++ ref :: after) :
    ∃ list', (t.freeNode b before.getLast? ref).Linked hash list' := by
  have members : ∀ {k m}, m ∈ Function.update (Function.update list (some b) (before ++ after)) none
      (ref :: list none) k ↔ k = none ∧ m = ref ∨ m ∈ list k ∧ m ≠ ref :=
    mem_freed linked.heads split
  have mem : ref ∈ list (some b) := by
    rw [split]
    simp
  have size : (t.freeNode b before.getLast? ref).numofslots = t.numofslots := by
    unfold RefTable.freeNode
    cases before.getLast? <;> rfl
  have used : (t.freeNode b before.getLast? ref).slotused = t.slotused - 1 := rfl
  have position : ∀ o, (t.freeNode b before.getLast? ref).mainPosition hash o =
      t.mainPosition hash o := by
    intro o
    unfold mainPosition
    rw [size]
  refine ⟨_, heads_freeNode linked.heads split, fun m => ?_, fun m inFree => ?_,
    fun c m inBucket => ?_, ?_, fun m ltm m' ltm' same nonnull => ?_⟩
  · rw [size]
    refine (linked.covers m).trans ⟨fun ⟨k, mem'⟩ => ?_, fun ⟨k, mem'⟩ => ?_⟩
    · by_cases same : m = ref
      · exact ⟨none, members.2 (.inl ⟨rfl, same⟩)⟩
      · exact ⟨k, members.2 (.inr ⟨mem', same⟩)⟩
    · rcases members.1 mem' with ⟨-, rfl⟩ | ⟨old, -⟩
      · exact ⟨some b, mem⟩
      · exact ⟨k, old⟩
  · rcases members.1 inFree with ⟨-, rfl⟩ | ⟨old, other⟩
    · rw [nodes_freeNode_self]
      exact ⟨rfl, rfl⟩
    · rw [(nodes_freeNode_of_ne other).1, (nodes_freeNode_of_ne other).2]
      exact linked.free m old
  · rcases members.1 inBucket with ⟨eq, -⟩ | ⟨old, other⟩
    · cases eq
    · rw [(nodes_freeNode_of_ne other).1, position]
      exact linked.placed c m old
  · have count := linked.count
    -- the node was in use, so the count of nodes in use does not wrap
    have room : (list none).length < t.numofslots := by
      have ltr : ref < t.numofslots := (linked.covers ref).2 ⟨_, mem⟩
      have once := (linked.heads.follows none).nodup
      have inside : ref :: list none ⊆ List.range t.numofslots := by
        intro m mem'
        rcases List.mem_cons.1 mem' with rfl | free
        · exact List.mem_range.2 ltr
        · exact List.mem_range.2 ((linked.covers m).2 ⟨_, free⟩)
      have notFree : ref ∉ list none := fun free => by
        cases linked.heads.apart free mem
      have := (List.Nodup.subperm (List.nodup_cons.2 ⟨notFree, once⟩) inside).length_le
      simp only [List.length_cons, List.length_range] at this
      omega
    rw [size, used, Function.update_self, List.length_cons]
    omega
  · rw [size] at ltm ltm'
    have other : m ≠ ref := by
      rintro rfl
      rw [nodes_freeNode_self] at nonnull
      exact nonnull rfl
    have other' : m' ≠ ref := by
      rintro rfl
      rw [same, nodes_freeNode_self] at nonnull
      exact nonnull rfl
    rw [(nodes_freeNode_of_ne other).1, (nodes_freeNode_of_ne other').1] at same
    rw [(nodes_freeNode_of_ne other).1] at nonnull
    exact linked.distinct m ltm m' ltm' same nonnull

end FreeNode

/-- The node of an object is freed. -/
theorem Holds.freeNode (holds : t.Holds hash entries) (lt : n < t.numofslots)
    (at_ : (t.nodes n).obj = obj) (nonnull : obj ≠ .null) :
    ∃ prev, t.search hash obj = (prev, some n) ∧
      (t.freeNode (t.mainPosition hash obj) prev n).Holds hash
        (Function.update entries obj none) := by
  obtain ⟨list, linked⟩ := holds.linked
  obtain ⟨before, after, split, search⟩ := linked.search_found lt at_ nonnull
  have size : (t.freeNode (t.mainPosition hash obj) before.getLast? n).numofslots =
      t.numofslots := by
    unfold RefTable.freeNode
    cases before.getLast? <;> rfl
  refine ⟨_, search, linked.freeNode split, size ▸ holds.positive, fun o used c => ?_⟩
  rw [size]
  by_cases same : o = obj
  · rw [same, Function.update_self]
    refine iff_of_false (by simp) ?_
    rintro ⟨m, ltm, eq, -⟩
    by_cases here : m = n
    · rw [here, nodes_freeNode_self] at eq
      exact nonnull eq.symm
    · rw [(nodes_freeNode_of_ne here).1] at eq
      exact here (linked.distinct m ltm n lt (eq.trans at_.symm) (eq ▸ nonnull))
  · rw [Function.update_of_ne same, holds.entry o used]
    refine exists_congr fun m => and_congr_right fun _ => ?_
    by_cases here : m = n
    · rw [here, nodes_freeNode_self, at_]
      exact iff_of_false (fun h => same h.1.symm) fun h => used h.1.symm
    · rw [(nodes_freeNode_of_ne here).1, (nodes_freeNode_of_ne here).2]

end Linked

/-! ## The counts -/

/-- The table keeps these counts: an object has a node exactly when its count is not zero. -/
def Counts (counts : SQObject → ℕ) : Prop :=
  t.Holds hash fun o => if counts o = 0 then none else some (counts o)

section Counts

variable {hash t obj} {counts : SQObject → ℕ}

theorem counts_new : new.Counts hash fun _ => 0 :=
  (allocNodes_holds (by decide)).congr fun _ _ => if_pos rfl

theorem Counts.nonzero (o : SQObject) :
    (if counts o = 0 then none else some (counts o)) ≠ some 0 := by
  split
  · exact fun eq => by cases eq
  · rename_i live
    exact fun eq => live (Option.some.inj eq)

theorem Counts.getD (o : SQObject) :
    (if counts o = 0 then none else some (counts o)).getD 0 = counts o := by
  split
  · rename_i none
    exact none.symm
  · rfl

/-- `AddRef` adds one. -/
theorem Counts.addRef (keeps : t.Counts hash counts) (nonnull : obj ≠ .null)
    (fits : counts obj + 1 < unsignedModulus) :
    ∃ t', t.addRef hash obj = some t' ∧
      t'.Counts hash (Function.update counts obj (counts obj + 1)) := by
  obtain ⟨n, t', got, lt, eq, refs, holds⟩ := keeps.getOrAdd nonnull fun o _ => Counts.nonzero o
  rw [Counts.getD] at refs holds
  have set := holds.setRefs lt (eq.symm ▸ nonnull) (((t'.nodes n).refs + 1) % unsignedModulus)
  refine ⟨_, by unfold RefTable.addRef; rw [got]; rfl, set.congr fun o _ => ?_⟩
  rw [eq, refs, Nat.mod_eq_of_lt fits]
  by_cases same : o = obj
  · simp [same]
  · simp [same]

/-- `Release` takes one away, and says whether it was the last. -/
theorem Counts.release (keeps : t.Counts hash counts) (nonnull : obj ≠ .null)
    (live : counts obj ≠ 0) (fits : counts obj < unsignedModulus) :
    ∃ t', t.release hash obj = some (decide (counts obj = 1), t') ∧
      t'.Counts hash (Function.update counts obj (counts obj - 1)) := by
  obtain ⟨n, lt, eq, refs⟩ := (keeps.entry obj nonnull (counts obj)).1 (if_neg live)
  obtain ⟨prev, search, freed⟩ := keeps.freeNode lt eq nonnull
  have down : (counts obj + (unsignedModulus - 1)) % unsignedModulus = counts obj - 1 := by
    have shift : counts obj + (unsignedModulus - 1) = counts obj - 1 + unsignedModulus := by
      omega
    rw [shift, Nat.add_mod_right, Nat.mod_eq_of_lt (by omega)]
  unfold RefTable.release
  rw [search]
  simp only [refs, down]
  by_cases last : counts obj = 1
  · refine ⟨_, by rw [if_pos (by omega), decide_eq_true last], freed.congr fun o _ => ?_⟩
    by_cases same : o = obj
    · simp [same, last]
    · simp [same]
  · refine ⟨_, by rw [if_neg (by omega), decide_eq_false last], ?_⟩
    refine (keeps.setRefs lt (eq.symm ▸ nonnull) (counts obj - 1)).congr fun o _ => ?_
    have more : counts obj - 1 ≠ 0 := by omega
    by_cases same : o = obj
    · simp [same, eq, more]
    · simp [same, eq]

/-- `Release` of an object that is not there fails an assertion. -/
theorem Counts.release_missing (keeps : t.Counts hash counts) (nonnull : obj ≠ .null)
    (gone : counts obj = 0) : t.release hash obj = none := by
  obtain ⟨list, linked⟩ := keeps.linked
  have missing : (t.search hash obj).2 = none := linked.search_missing fun n lt eq => by
    have entry := (keeps.entry obj nonnull _).2 ⟨n, lt, eq, rfl⟩
    rw [if_pos gone] at entry
    cases entry
  unfold RefTable.release
  rcases search : t.search hash obj with ⟨prev, found⟩
  rw [search] at missing
  cases missing
  rfl

/-- `GetRefCount` of an object that is there reads its count. -/
theorem Counts.getRefCount (keeps : t.Counts hash counts) (nonnull : obj ≠ .null)
    (live : counts obj ≠ 0) :
    ∃ t', t.getRefCount hash obj = some (counts obj, t') ∧ t'.Counts hash counts := by
  obtain ⟨n, t', got, lt, eq, refs, holds⟩ := keeps.getOrAdd nonnull fun o _ => Counts.nonzero o
  rw [Counts.getD] at refs holds
  refine ⟨t', by unfold RefTable.getRefCount; rw [got]; simp [refs], holds.congr fun o _ => ?_⟩
  by_cases same : o = obj
  · simp [same, live]
  · simp [same]

end Counts

end RefTable

end Squirrels
