import Mathlib.Data.List.Perm.Subperm
import Squirrels.Lib.Links
import Squirrels.Vm.Object

/-!
# The string table

`SQStringTable` keeps one `SQString` for each byte sequence, linked into buckets by hash. `Add`
returns the string that is there or makes one, and doubles the buckets when there are more strings
than buckets; `Remove` unlinks a string whose last reference is gone. A pointer is an address, and
the address that `SQ_MALLOC` returns is an argument of `Add`. A failed assertion is `none`.
-/

namespace Squirrels

/-- `SQString`, without what counts its references. -/
structure SQString where
  val : List UInt8
  hash : ℕ
  next : Option ℕ
deriving DecidableEq, Repr, Inhabited

/-- `SQStringTable`, with the strings in memory. -/
structure SQStringTable where
  numofslots : ℕ
  slotused : ℕ
  strings : ℕ → Option ℕ
  memory : ℕ → SQString

namespace SQStringTable

/-- `SQStringTable::SQStringTable`. -/
def new : SQStringTable := ⟨4, 0, fun _ => none, fun _ => default⟩

variable (t : SQStringTable)

/-- The link of a string. -/
def next (a : ℕ) : Option ℕ := (t.memory a).next

/-- The bucket of a hash. -/
def slot (hash : ℕ) : ℕ := hash &&& (t.numofslots - 1)

/-- `AllocNodes`: new buckets, all of them empty. -/
def allocNodes (size : ℕ) : SQStringTable :=
  { t with numofslots := size, strings := fun _ => none }

/-- Put a string before its bucket. -/
def link (p : ℕ) : SQStringTable :=
  { t with
    memory := Function.update t.memory p
      { t.memory p with next := t.strings (t.slot (t.memory p).hash) }
    strings := Function.update t.strings (t.slot (t.memory p).hash) (some p) }

/-- The inner loop of `Resize`: the strings of an old bucket go to the new ones. -/
def moveChain : ℕ → Option ℕ → SQStringTable → SQStringTable
  | _, none, t => t
  | 0, some _, t => t
  | fuel + 1, some p, t => moveChain fuel (t.next p) (t.link p)

/-- `SQStringTable::Resize`. -/
def resize (size : ℕ) : SQStringTable :=
  (List.range t.numofslots).foldl (fun acc i => moveChain t.slotused (t.strings i) acc)
    (t.allocNodes size)

/-- The search of `Add`. -/
def findString (news : List UInt8) : Option ℕ :=
  (Links.find t.next (fun a => decide ((t.memory a).val = news)) t.slotused none
    (t.strings (t.slot (hashString news).toNat))).2

/-- A new string at an address, before its bucket. -/
def insert (news : List UInt8) (malloc : ℕ) : SQStringTable :=
  ({ t with
    memory := Function.update t.memory malloc ⟨news, (hashString news).toNat, none⟩
    slotused := t.slotused + 1 } : SQStringTable).link malloc

/-- `SQStringTable::Add`. -/
def add (news : List UInt8) (malloc : ℕ) : ℕ × SQStringTable :=
  match t.findString news with
  | some s => (s, t)
  | none =>
    let t := t.insert news malloc
    (malloc, if t.numofslots < t.slotused then t.resize (t.numofslots * 2) else t)

/-- `SQStringTable::Remove`. -/
def remove (bs : ℕ) : Option SQStringTable :=
  let h := t.slot (t.memory bs).hash
  match Links.find t.next (fun a => decide (a = bs)) t.slotused none (t.strings h) with
  | (_, none) => none
  | (none, some s) =>
    some { t with strings := Function.update t.strings h (t.next s), slotused := t.slotused - 1 }
  | (some prev, some s) =>
    some { t with
      memory := Function.update t.memory prev { t.memory prev with next := t.next s }
      slotused := t.slotused - 1 }

/-! ## Well-formed tables -/

/-- The live strings lie in the buckets of their hashes, and no two of them have the same bytes. -/
structure Chained (live : List ℕ) (list : ℕ → List ℕ) : Prop where
  heads : Links.Heads t.next t.strings list
  covers : ∀ a, a ∈ live ↔ ∃ b, a ∈ list b
  placed : ∀ b, ∀ a ∈ list b, t.slot (t.memory a).hash = b
  hashed : ∀ a ∈ live, (t.memory a).hash = (hashString (t.memory a).val).toNat
  once : live.Nodup
  count : live.length = t.slotused
  distinct : ∀ a ∈ live, ∀ a' ∈ live, (t.memory a).val = (t.memory a').val → a = a'

/-- The table keeps these strings, each at its address. -/
structure Interns (entry : List UInt8 → Option ℕ) : Prop where
  chained : ∃ live list, t.Chained live list ∧
    ∀ bytes a, entry bytes = some a ↔ a ∈ live ∧ (t.memory a).val = bytes
  positive : 0 < t.numofslots

section Chained

variable {t} {live : List ℕ} {list : ℕ → List ℕ} {a b : ℕ}

theorem interns_new : new.Interns fun _ => none where
  chained := ⟨[], fun _ => [], ⟨⟨fun _ => rfl, fun mem => absurd mem List.not_mem_nil⟩,
    fun a => by simp, fun _ a mem => absurd mem List.not_mem_nil,
    fun a mem => absurd mem List.not_mem_nil, List.nodup_nil, rfl,
    fun a mem => absurd mem List.not_mem_nil⟩, fun bytes a => by simp⟩
  positive := by decide

theorem slot_lt (positive : 0 < t.numofslots) (hash : ℕ) : t.slot hash < t.numofslots := by
  have := Nat.and_le_right (n := hash) (m := t.numofslots - 1)
  unfold slot
  omega

theorem Chained.length_le (chained : t.Chained live list) (b : ℕ) :
    (list b).length ≤ t.slotused := by
  have inside : list b ⊆ live := fun a mem => (chained.covers a).2 ⟨b, mem⟩
  rw [← chained.count]
  exact (List.Nodup.subperm (chained.heads.follows b).nodup inside).length_le

theorem Chained.mem_bucket (chained : t.Chained live list) (mem : a ∈ live) :
    a ∈ list (t.slot (t.memory a).hash) := by
  obtain ⟨b, inBucket⟩ := (chained.covers a).1 mem
  rwa [chained.placed b a inBucket]

theorem next_link (p : ℕ) :
    (t.link p).next = Function.update t.next p (t.strings (t.slot (t.memory p).hash)) := by
  funext a
  unfold next link
  by_cases same : a = p
  · subst same
    simp only [Function.update_self]
  · simp only [Function.update_of_ne same]

theorem memory_link (p a : ℕ) :
    ((t.link p).memory a).val = (t.memory a).val ∧
      ((t.link p).memory a).hash = (t.memory a).hash := by
  unfold link
  by_cases same : a = p
  · subst same
    simp only [Function.update_self, and_self]
  · simp only [Function.update_of_ne same, and_self]

/-! ## Growth -/

/-- The old chains, as far as they have not been moved, beside the new buckets. -/
def movingHeads (t : SQStringTable) (old : ℕ → Option ℕ) : ℕ ⊕ ℕ → Option ℕ :=
  Sum.elim t.strings old

/-- What a new chain or an old one begins with when a string of an old chain has moved. -/
theorem movingHeads_link (t : SQStringTable) (old : ℕ → Option ℕ) (i p : ℕ) :
    movingHeads (t.link p) (Function.update old i (t.next p)) =
      Function.update (Function.update (movingHeads t old) (.inr i) (t.next p))
        (.inl (t.slot (t.memory p).hash)) (some p) := by
  funext k
  cases k with
  | inl b =>
    show Function.update t.strings (t.slot (t.memory p).hash) (some p) b = _
    by_cases same : b = t.slot (t.memory p).hash
    · rw [same, Function.update_self, Function.update_self]
    · rw [Function.update_of_ne same, Function.update_of_ne (by simpa using same),
        Function.update_of_ne (by simp)]
      rfl
  | inr j =>
    rw [Function.update_of_ne (by simp)]
    show Function.update old i (t.next p) j = _
    by_cases same : j = i
    · rw [same, Function.update_self, Function.update_self]
    · rw [Function.update_of_ne same, Function.update_of_ne (by simpa using same)]
      rfl

/-- The strings of the old chain `i` are in the buckets of their hashes. -/
structure ChainMoved (t : SQStringTable) (old : ℕ → Option ℕ) (lists : ℕ ⊕ ℕ → List ℕ) (i : ℕ)
    (t' : SQStringTable) (lists' : ℕ ⊕ ℕ → List ℕ) : Prop where
  heads : Links.Heads t'.next (movingHeads t' (Function.update old i none)) lists'
  olds : ∀ j, lists' (.inr j) = if j = i then [] else lists (.inr j)
  news : ∀ b a, a ∈ lists' (.inl b) ↔ a ∈ lists (.inl b) ∨
    a ∈ lists (.inr i) ∧ t.slot (t.memory a).hash = b
  kept : ∀ a, (t'.memory a).val = (t.memory a).val ∧ (t'.memory a).hash = (t.memory a).hash
  numofslots : t'.numofslots = t.numofslots
  slotused : t'.slotused = t.slotused

section MoveChain

variable {old : ℕ → Option ℕ} {lists lists' : ℕ ⊕ ℕ → List ℕ} {t' : SQStringTable} {i p : ℕ}
  {l : List ℕ}

theorem ChainMoved.nil (heads : Links.Heads t.next (movingHeads t old) lists)
    (chain : lists (.inr i) = []) (ended : old i = none) : ChainMoved t old lists i t lists where
  heads := by
    rw [← ended, Function.update_eq_self]
    exact heads
  olds j := by
    by_cases same : j = i
    · rw [if_pos same, same, chain]
    · rw [if_neg same]
  news b a := by simp [chain]
  kept a := ⟨rfl, rfl⟩
  numofslots := rfl
  slotused := rfl

/-- The first string of the old chain has moved, and the rest moves after it. -/
theorem ChainMoved.cons (chain : lists (.inr i) = p :: l)
    (rest : ChainMoved (t.link p) (Function.update old i (t.next p))
      (Function.update (Function.update lists (.inr i) l) (.inl (t.slot (t.memory p).hash))
        (p :: lists (.inl (t.slot (t.memory p).hash)))) i t' lists') :
    ChainMoved t old lists i t' lists' where
  heads := by
    have heads := rest.heads
    rwa [Function.update_idem] at heads
  olds j := by
    rw [rest.olds j]
    by_cases same : j = i
    · rw [if_pos same, if_pos same]
    · rw [if_neg same, if_neg same, Function.update_of_ne (by simp),
        Function.update_of_ne (by simpa using same)]
  news b a := by
    have slots : (t.link p).slot ((t.link p).memory a).hash = t.slot (t.memory a).hash := by
      rw [(memory_link p a).2]
      rfl
    have left : Function.update (Function.update lists (.inr i) l)
        (.inl (t.slot (t.memory p).hash)) (p :: lists (.inl (t.slot (t.memory p).hash)))
        (.inr i) = l := by
      rw [Function.update_of_ne (by simp), Function.update_self]
    rw [rest.news b a, slots, chain, left]
    by_cases same : b = t.slot (t.memory p).hash
    · subst same
      rw [Function.update_self, List.mem_cons, List.mem_cons]
      constructor
      · rintro ((rfl | old') | ⟨mem, eq⟩)
        · exact .inr ⟨.inl rfl, rfl⟩
        · exact .inl old'
        · exact .inr ⟨.inr mem, eq⟩
      · rintro (old' | ⟨rfl | mem, eq⟩)
        · exact .inl (.inr old')
        · exact .inl (.inl rfl)
        · exact .inr ⟨mem, eq⟩
    · rw [Function.update_of_ne (by simpa using same), Function.update_of_ne (by simp),
        List.mem_cons]
      refine or_congr_right (and_congr_left fun eq => ⟨.inr, fun mem => ?_⟩)
      rcases mem with rfl | mem
      · exact absurd eq.symm same
      · exact mem
  kept a := ⟨(rest.kept a).1.trans (memory_link p a).1, (rest.kept a).2.trans (memory_link p a).2⟩
  numofslots := rest.numofslots
  slotused := rest.slotused

/-- The inner loop moves the strings of one old chain to the buckets of their hashes. -/
theorem moveChain_moves {fuel : ℕ} (heads : Links.Heads t.next (movingHeads t old) lists)
    (enough : (lists (.inr i)).length ≤ fuel) :
    ∃ lists', ChainMoved t old lists i (moveChain fuel (old i) t) lists' := by
  generalize chain : lists (.inr i) = l at *
  induction l generalizing t old lists fuel with
  | nil =>
    have ended : old i = none := by
      have follows := heads.follows (.inr i)
      rw [chain] at follows
      exact follows
    have ran : moveChain fuel (old i) t = t := by
      rw [ended]
      cases fuel <;> rfl
    rw [ran]
    exact ⟨lists, .nil heads chain ended⟩
  | cons p l ih =>
    have first : old i = some p := by
      have follows := heads.follows (.inr i)
      rw [chain] at follows
      exact follows.1
    obtain ⟨fuel, rfl⟩ : ∃ n, fuel = n + 1 := ⟨fuel - 1, by simp at enough; omega⟩
    have moved := heads.move chain
      (show (.inl (t.slot (t.memory p).hash) : ℕ ⊕ ℕ) ≠ .inr i by simp)
    have next : (t.link p).next =
        Function.update t.next p (t.strings (t.slot (t.memory p).hash)) := next_link p
    have heads' : Links.Heads (t.link p).next
        (movingHeads (t.link p) (Function.update old i (t.next p)))
        (Function.update (Function.update lists (.inr i) l) (.inl (t.slot (t.memory p).hash))
          (p :: lists (.inl (t.slot (t.memory p).hash)))) := by
      rw [next, movingHeads_link]
      exact moved
    obtain ⟨lists', rest⟩ := ih heads'
      (by rw [Function.update_of_ne (by simp), Function.update_self]) (by simpa using enough)
    have ran : moveChain (fuel + 1) (old i) t =
        moveChain fuel (Function.update old i (t.next p) i) (t.link p) := by
      rw [first, Function.update_self]
      rfl
    rw [ran]
    exact ⟨lists', rest.cons chain⟩

end MoveChain

/-- The strings of the first `k` old buckets are in the new ones. -/
structure Resizing (t : SQStringTable) (list : ℕ → List ℕ) (size k : ℕ) (t' : SQStringTable)
    (lists : ℕ ⊕ ℕ → List ℕ) : Prop where
  heads : Links.Heads t'.next (movingHeads t' fun i => if i < k then none else t.strings i) lists
  olds : ∀ j, lists (.inr j) = if j < k then [] else list j
  news : ∀ b a, a ∈ lists (.inl b) ↔
    ∃ j < k, a ∈ list j ∧ (t.allocNodes size).slot (t.memory a).hash = b
  kept : ∀ a, (t'.memory a).val = (t.memory a).val ∧ (t'.memory a).hash = (t.memory a).hash
  numofslots : t'.numofslots = size
  slotused : t'.slotused = t.slotused

section Resize

variable {size k : ℕ} {t' : SQStringTable} {lists : ℕ ⊕ ℕ → List ℕ}

theorem Resizing.start (chained : t.Chained live list) (size : ℕ) :
    Resizing t list size 0 (t.allocNodes size) (Sum.elim (fun _ => []) list) where
  heads := by
    refine ⟨fun k => ?_, ?_⟩
    · cases k with
      | inl b => rfl
      | inr j => exact chained.heads.follows j
    · intro k k' a mem mem'
      cases k with
      | inl b => exact absurd mem List.not_mem_nil
      | inr j =>
        cases k' with
        | inl b => exact absurd mem' List.not_mem_nil
        | inr j' => exact congrArg Sum.inr (chained.heads.apart mem mem')
  olds j := by simp
  news b a := by simp
  kept a := ⟨rfl, rfl⟩
  numofslots := rfl
  slotused := rfl

theorem Resizing.slot_eq (resizing : Resizing t list size k t' lists) (a : ℕ) :
    t'.slot (t'.memory a).hash = (t.allocNodes size).slot (t.memory a).hash := by
  rw [(resizing.kept a).2]
  unfold slot
  rw [resizing.numofslots]
  rfl

/-- One round of the outer loop. -/
theorem Resizing.step (resizing : Resizing t list size k t' lists)
    (chained : t.Chained live list) :
    ∃ lists', Resizing t list size (k + 1) (moveChain t.slotused (t.strings k) t') lists' := by
  have whole : lists (.inr k) = list k := by rw [resizing.olds k, if_neg (lt_irrefl k)]
  obtain ⟨lists', moved⟩ := moveChain_moves resizing.heads
    (show (lists (.inr k)).length ≤ t.slotused by
      rw [whole]
      exact chained.length_le k)
  simp only [lt_irrefl, if_false] at moved
  refine ⟨lists', ?_, fun j => ?_, fun b a => ?_, fun a => ?_,
    moved.numofslots.trans resizing.numofslots, moved.slotused.trans resizing.slotused⟩
  · have ended : Function.update (fun i => if i < k then none else t.strings i) k none =
        fun i => if i < k + 1 then none else t.strings i := by
      funext i
      by_cases same : i = k
      · rw [same, Function.update_self, if_pos (Nat.lt_succ_self k)]
      · rw [Function.update_of_ne same]
        exact if_congr (by omega) rfl rfl
    have heads := moved.heads
    rwa [ended] at heads
  · rw [moved.olds j, resizing.olds j]
    by_cases same : j = k
    · rw [if_pos same, if_pos (by omega)]
    · rw [if_neg same]
      exact if_congr (by omega) rfl rfl
  · rw [moved.news b a, resizing.news b a, whole, resizing.slot_eq]
    constructor
    · rintro (⟨j, lt, rest⟩ | rest)
      · exact ⟨j, by omega, rest⟩
      · exact ⟨k, by omega, rest⟩
    · rintro ⟨j, lt, rest⟩
      by_cases same : j = k
      · exact .inr (same ▸ rest)
      · exact .inl ⟨j, by omega, rest⟩
  · exact ⟨(moved.kept a).1.trans (resizing.kept a).1, (moved.kept a).2.trans (resizing.kept a).2⟩

theorem Resizing.run (chained : t.Chained live list) (size k : ℕ) :
    ∃ lists, Resizing t list size k ((List.range k).foldl (fun acc i =>
      moveChain t.slotused (t.strings i) acc) (t.allocNodes size)) lists := by
  induction k with
  | zero => exact ⟨_, .start chained size⟩
  | succ k ih =>
    obtain ⟨lists, resizing⟩ := ih
    rw [List.range_succ, List.foldl_append]
    exact resizing.step chained

/-- When all old buckets have been moved, a live string is in the bucket of its hash. -/
theorem Resizing.mem_iff (resizing : Resizing t list size t.numofslots t' lists)
    (chained : t.Chained live list) (positive : 0 < t.numofslots) (b a : ℕ) :
    a ∈ lists (.inl b) ↔ a ∈ live ∧ t'.slot (t'.memory a).hash = b := by
  rw [resizing.news b a, resizing.slot_eq]
  constructor
  · rintro ⟨j, -, mem, eq⟩
    exact ⟨(chained.covers a).2 ⟨j, mem⟩, eq⟩
  · rintro ⟨mem, eq⟩
    exact ⟨_, slot_lt positive _, chained.mem_bucket mem, eq⟩

theorem Resizing.chained (resizing : Resizing t list size t.numofslots t' lists)
    (chained : t.Chained live list) (positive : 0 < t.numofslots) :
    t'.Chained live fun b => lists (.inl b) := by
  have members := resizing.mem_iff chained positive
  refine ⟨⟨fun b => resizing.heads.follows (.inl b),
    fun mem mem' => Sum.inl.inj (resizing.heads.apart mem mem')⟩, fun a => ?_,
    fun b a mem => ((members b a).1 mem).2, fun a mem => ?_, chained.once,
    chained.count.trans resizing.slotused.symm, fun a mem a' mem' eq => ?_⟩
  · exact ⟨fun mem => ⟨_, (members _ a).2 ⟨mem, rfl⟩⟩, fun ⟨b, mem⟩ => ((members b a).1 mem).1⟩
  · rw [(resizing.kept a).1, (resizing.kept a).2]
    exact chained.hashed a mem
  · rw [(resizing.kept a).1, (resizing.kept a').1] at eq
    exact chained.distinct a mem a' mem' eq

/-- The new buckets hold the strings that the old ones held. -/
theorem Chained.resize (chained : t.Chained live list) (positive : 0 < t.numofslots) (size : ℕ) :
    ∃ list', (t.resize size).Chained live list' ∧ (t.resize size).numofslots = size ∧
      ∀ a, ((t.resize size).memory a).val = (t.memory a).val := by
  obtain ⟨lists, resizing⟩ := Resizing.run chained size t.numofslots
  exact ⟨_, resizing.chained chained positive, resizing.numofslots,
    fun a => (resizing.kept a).1⟩

end Resize

/-! ## Adding and removing -/

theorem Chained.findString_found (chained : t.Chained live list) (mem : a ∈ live) :
    t.findString (t.memory a).val = some a := by
  have inBucket := chained.mem_bucket mem
  rw [chained.hashed a mem] at inBucket
  obtain ⟨before, after, split⟩ := List.append_of_mem inBucket
  have follows := chained.heads.follows (t.slot (hashString (t.memory a).val).toNat)
  have once := follows.nodup
  have short := chained.length_le (t.slot (hashString (t.memory a).val).toNat)
  rw [split] at follows once short
  simp only [List.length_append, List.length_cons] at short
  unfold findString
  rw [Links.find_of_split follows (fun a' mem' => decide_eq_false ?_) (by simp) (by omega)]
  -- an earlier string with the same bytes would be the string itself
  intro same
  have live' : a' ∈ live := (chained.covers a').2 ⟨_, by
    rw [split]
    exact List.mem_append_left _ mem'⟩
  rw [chained.distinct a' live' a mem same] at mem'
  exact (List.nodup_append.1 once).2.2 a mem' a List.mem_cons_self rfl

theorem Chained.findString_missing {news : List UInt8} (chained : t.Chained live list)
    (missing : ∀ a ∈ live, (t.memory a).val ≠ news) : t.findString news = none :=
  Links.find_of_none (chained.heads.follows _) fun a mem =>
    decide_eq_false (missing a ((chained.covers a).2 ⟨_, mem⟩))

theorem Chained.insert {news : List UInt8} {malloc : ℕ} (chained : t.Chained live list)
    (missing : ∀ a ∈ live, (t.memory a).val ≠ news) (fresh : malloc ∉ live) :
    ∃ list', (t.insert news malloc).Chained (malloc :: live) list' ∧
      ((t.insert news malloc).memory malloc).val = news ∧
      ∀ a, a ≠ malloc → ((t.insert news malloc).memory a).val = (t.memory a).val := by
  set h := t.slot (hashString news).toNat with place
  let t₁ : SQStringTable := { t with
    memory := Function.update t.memory malloc ⟨news, (hashString news).toNat, none⟩
    slotused := t.slotused + 1 }
  have here : t₁.memory malloc = ⟨news, (hashString news).toNat, none⟩ :=
    Function.update_self _ _ _
  have others : ∀ a, a ≠ malloc → t₁.memory a = t.memory a := fun a other =>
    Function.update_of_ne other _ _
  have outside : ∀ b, malloc ∉ list b := fun b mem => fresh ((chained.covers malloc).2 ⟨b, mem⟩)
  have next : t₁.next = Function.update t.next malloc none := by
    funext a
    unfold SQStringTable.next
    by_cases same : a = malloc
    · rw [same, here, Function.update_self]
    · rw [others a same, Function.update_of_ne same]
  have slot : t₁.slot (t₁.memory malloc).hash = h := by rw [here]; rfl
  have same : t.insert news malloc = t₁.link malloc := rfl
  have val : ∀ a, ((t₁.link malloc).memory a).val = (t₁.memory a).val := fun a =>
    (memory_link malloc a).1
  have hash : ∀ a, ((t₁.link malloc).memory a).hash = (t₁.memory a).hash := fun a =>
    (memory_link malloc a).2
  have pushed := (chained.heads.relink outside none).push (k := h) outside
  have members : ∀ {b a}, a ∈ Function.update list h (malloc :: list h) b ↔
      b = h ∧ a = malloc ∨ a ∈ list b := by
    intro b a
    by_cases at_ : b = h
    · rw [at_, Function.update_self, List.mem_cons]
      simp
    · rw [Function.update_of_ne at_]
      simp [at_]
  rw [same]
  refine ⟨Function.update list h (malloc :: list h), ⟨?_, fun a => ?_, fun b a mem => ?_,
    fun a mem => ?_, List.nodup_cons.2 ⟨fresh, chained.once⟩, ?_, fun a mem a' mem' eq => ?_⟩,
    by rw [val, here], fun a other => by rw [val, others a other]⟩
  · rw [next_link, next, slot, Function.update_idem]
    have strings : (t₁.link malloc).strings = Function.update t.strings h (some malloc) := by
      show Function.update t.strings (t₁.slot (t₁.memory malloc).hash) (some malloc) = _
      rw [slot]
    rw [strings]
    rw [Function.update_idem] at pushed
    exact pushed
  · rw [List.mem_cons, chained.covers a]
    constructor
    · rintro (rfl | ⟨b, mem⟩)
      · exact ⟨h, members.2 (.inl ⟨rfl, rfl⟩)⟩
      · exact ⟨b, members.2 (.inr mem)⟩
    · rintro ⟨b, mem⟩
      rcases members.1 mem with ⟨-, eq⟩ | old
      · exact .inl eq
      · exact .inr ⟨b, old⟩
  · rw [hash]
    rcases members.1 mem with ⟨rfl, rfl⟩ | old
    · exact slot
    · rw [others a fun eq => outside b (eq ▸ old)]
      exact chained.placed b a old
  · rw [hash, val]
    rcases List.mem_cons.1 mem with rfl | old
    · rw [here]
    · rw [others a fun eq => fresh (eq ▸ old)]
      exact chained.hashed a old
  · show live.length + 1 = t.slotused + 1
    rw [chained.count]
  · rw [val, val] at eq
    rcases List.mem_cons.1 mem with rfl | old <;> rcases List.mem_cons.1 mem' with rfl | old'
    · rfl
    · rw [here, others a' fun eq => fresh (eq ▸ old')] at eq
      exact absurd eq.symm (missing a' old')
    · rw [here, others a fun eq => fresh (eq ▸ old)] at eq
      exact absurd eq (missing a old)
    · rw [others a fun eq => fresh (eq ▸ old), others a' fun eq => fresh (eq ▸ old')] at eq
      exact chained.distinct a old a' old' eq

variable {entry : List UInt8 → Option ℕ}

/-- `Add` returns the string that is there. -/
theorem Interns.add_found (interns : t.Interns entry) {news : List UInt8} (malloc : ℕ)
    (found : entry news = some a) : t.add news malloc = (a, t) := by
  obtain ⟨live, list, chained, entries⟩ := interns.chained
  obtain ⟨mem, val⟩ := (entries news a).1 found
  have search := chained.findString_found mem
  rw [val] at search
  unfold add
  rw [search]

/-- `Add` of a string that is not there puts it at the new address. -/
theorem Interns.add_new (interns : t.Interns entry) {news : List UInt8} {malloc : ℕ}
    (missing : entry news = none) (fresh : ∀ bytes, entry bytes ≠ some malloc) :
    ∃ t', t.add news malloc = (malloc, t') ∧
      t'.Interns (Function.update entry news (some malloc)) := by
  obtain ⟨live, list, chained, entries⟩ := interns.chained
  have absent : ∀ a ∈ live, (t.memory a).val ≠ news := by
    intro a mem val
    have found := (entries news a).2 ⟨mem, val⟩
    rw [missing] at found
    cases found
  have free : malloc ∉ live := fun mem => fresh _ ((entries _ malloc).2 ⟨mem, rfl⟩)
  obtain ⟨list₁, chained₁, here, others⟩ := chained.insert absent free
  have entries₁ : ∀ bytes a, Function.update entry news (some malloc) bytes = some a ↔
      a ∈ malloc :: live ∧ ((t.insert news malloc).memory a).val = bytes := by
    intro bytes a
    rw [List.mem_cons]
    by_cases same : bytes = news
    · rw [same, Function.update_self, Option.some.injEq]
      constructor
      · rintro rfl
        exact ⟨.inl rfl, here⟩
      · rintro ⟨rfl | mem, val⟩
        · rfl
        · rw [others a fun eq => free (eq ▸ mem)] at val
          exact absurd val (absent a mem)
    · rw [Function.update_of_ne same, entries bytes a]
      constructor
      · rintro ⟨mem, val⟩
        exact ⟨.inr mem, by rw [others a fun eq => free (eq ▸ mem), val]⟩
      · rintro ⟨rfl | mem, val⟩
        · exact absurd (val.symm.trans here) same
        · exact ⟨mem, by rw [← others a fun eq => free (eq ▸ mem), val]⟩
  unfold add
  rw [chained.findString_missing absent]
  by_cases crowded : (t.insert news malloc).numofslots < (t.insert news malloc).slotused
  · obtain ⟨list₂, chained₂, size, vals⟩ := chained₁.resize interns.positive
      ((t.insert news malloc).numofslots * 2)
    refine ⟨_, by simp only [if_pos crowded], ⟨_, list₂, chained₂, fun bytes a => ?_⟩, ?_⟩
    · rw [entries₁, vals a]
    · rw [size]
      exact Nat.mul_pos interns.positive Nat.two_pos
  · exact ⟨_, by simp only [if_neg crowded], ⟨_, list₁, chained₁, entries₁⟩, interns.positive⟩

/-- Strings are left when one of them is taken out of its bucket. -/
theorem Chained.drop {t' : SQStringTable} {before after : List ℕ} (chained : t.Chained live list)
    (split : list b = before ++ a :: after)
    (heads : Links.Heads t'.next t'.strings (Function.update list b (before ++ after)))
    (kept : ∀ a, (t'.memory a).val = (t.memory a).val ∧ (t'.memory a).hash = (t.memory a).hash)
    (size : t'.numofslots = t.numofslots) (used : t'.slotused = t.slotused - 1) :
    t'.Chained (live.erase a) (Function.update list b (before ++ after)) := by
  have mem : a ∈ list b := by
    rw [split]
    simp
  have once := (chained.heads.follows b).nodup
  rw [split, List.nodup_middle] at once
  have members : ∀ {b' a'}, a' ∈ Function.update list b (before ++ after) b' ↔
      a' ∈ list b' ∧ a' ≠ a := by
    intro b' a'
    by_cases same : b' = b
    · rw [same, Function.update_self, split]
      constructor
      · intro mem'
        exact ⟨List.perm_middle.symm.subset (List.mem_cons_of_mem _ mem'),
          fun eq => (List.nodup_cons.1 once).1 (eq ▸ mem')⟩
      · rintro ⟨mem', other⟩
        exact (List.mem_cons.1 (List.perm_middle.subset mem')).resolve_left other
    · rw [Function.update_of_ne same]
      exact ⟨fun mem' => ⟨mem', fun eq => same (chained.heads.apart (eq ▸ mem') mem)⟩, And.left⟩
  have live' : ∀ {a'}, a' ∈ live.erase a ↔ a' ≠ a ∧ a' ∈ live := chained.once.mem_erase_iff
  have slots : ∀ a, t'.slot (t'.memory a).hash = t.slot (t.memory a).hash := by
    intro a
    rw [(kept a).2]
    unfold slot
    rw [size]
  refine ⟨heads, fun a' => ?_, fun b' a' mem' => ?_, fun a' mem' => ?_, chained.once.erase a, ?_,
    fun a₁ mem₁ a₂ mem₂ eq => ?_⟩
  · rw [live', chained.covers a']
    constructor
    · rintro ⟨other, b', mem'⟩
      exact ⟨b', members.2 ⟨mem', other⟩⟩
    · rintro ⟨b', mem'⟩
      exact ⟨(members.1 mem').2, b', (members.1 mem').1⟩
  · rw [slots]
    exact chained.placed b' a' (members.1 mem').1
  · rw [(kept a').1, (kept a').2]
    exact chained.hashed a' (live'.1 mem').2
  · rw [List.length_erase_of_mem ((chained.covers a).2 ⟨b, mem⟩), chained.count, used]
  · rw [(kept a₁).1, (kept a₂).1] at eq
    exact chained.distinct a₁ (live'.1 mem₁).2 a₂ (live'.1 mem₂).2 eq

/-- `Remove` takes a string out of the table, and leaves the others. -/
theorem Interns.remove (interns : t.Interns entry) {bytes : List UInt8}
    (found : entry bytes = some a) :
    ∃ t', t.remove a = some t' ∧ t'.Interns (Function.update entry bytes none) := by
  obtain ⟨live, list, chained, entries⟩ := interns.chained
  obtain ⟨mem, val⟩ := (entries bytes a).1 found
  set h := t.slot (t.memory a).hash with place
  obtain ⟨before, after, split⟩ := List.append_of_mem (chained.mem_bucket mem)
  rw [← place] at split
  have follows := chained.heads.follows h
  have once := follows.nodup
  have short := chained.length_le h
  rw [split] at follows once short
  simp only [List.length_append, List.length_cons] at short
  have search : Links.find t.next (fun a' => decide (a' = a)) t.slotused none (t.strings h) =
      (before.getLast?, some a) := by
    rw [Links.find_of_split follows (fun a' mem' => decide_eq_false ?_) (by simp) (by omega),
      Option.or_none]
    rintro rfl
    exact (List.nodup_append.1 once).2.2 a' mem' a' List.mem_cons_self rfl
  have entries' : ∀ {t' : SQStringTable}, (∀ a, (t'.memory a).val = (t.memory a).val) →
      ∀ bytes' a', Function.update entry bytes none bytes' = some a' ↔
        a' ∈ live.erase a ∧ (t'.memory a').val = bytes' := by
    intro t' kept bytes' a'
    rw [kept a', chained.once.mem_erase_iff]
    by_cases same : bytes' = bytes
    · rw [same, Function.update_self]
      refine iff_of_false (by simp) ?_
      rintro ⟨⟨other, mem'⟩, val'⟩
      exact other (chained.distinct a' mem' a mem (val'.trans val.symm))
    · rw [Function.update_of_ne same, entries bytes' a']
      refine and_congr_left fun val' => (and_iff_right ?_).symm
      rintro rfl
      exact same (val'.symm.trans val)
  unfold SQStringTable.remove
  simp only [← place, search]
  rcases List.eq_nil_or_concat before with rfl | ⟨before, p, rfl⟩
  · rw [List.nil_append] at split
    have dropped := @Chained.drop t live list a h
      { t with strings := Function.update t.strings h (t.next a), slotused := t.slotused - 1 }
      [] after chained split (chained.heads.pop split) (fun a => ⟨rfl, rfl⟩) rfl rfl
    exact ⟨_, rfl, ⟨_, _, dropped, entries' fun _ => rfl⟩, interns.positive⟩
  · rw [List.concat_eq_append] at *
    rw [List.getLast?_concat]
    have split' := split
    rw [List.append_assoc] at split'
    have unlinked := chained.heads.unlink split'
    rw [← List.singleton_append, ← List.append_assoc] at unlinked
    have kept : ∀ a', ((Function.update t.memory p { t.memory p with next := t.next a }) a').val =
        (t.memory a').val ∧
        ((Function.update t.memory p { t.memory p with next := t.next a }) a').hash =
          (t.memory a').hash := by
      intro a'
      by_cases same : a' = p
      · subst same
        simp only [Function.update_self, and_self]
      · simp only [Function.update_of_ne same, and_self]
    have next : SQStringTable.next { t with
        memory := Function.update t.memory p { t.memory p with next := t.next a }
        slotused := t.slotused - 1 } = Function.update t.next p (t.next a) := by
      funext a'
      unfold SQStringTable.next
      by_cases same : a' = p
      · subst same
        simp only [Function.update_self]
      · simp only [Function.update_of_ne same]
    have dropped := @Chained.drop t live list a h { t with
        memory := Function.update t.memory p { t.memory p with next := t.next a }
        slotused := t.slotused - 1 } (before ++ [p]) after chained split
      (by rw [next]; exact unlinked) kept rfl rfl
    exact ⟨_, rfl, ⟨_, _, dropped, entries' fun a' => (kept a').1⟩, interns.positive⟩

end Chained

end SQStringTable

end Squirrels
