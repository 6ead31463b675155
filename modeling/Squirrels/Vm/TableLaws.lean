import Mathlib.Data.Finset.Card
import Mathlib.Data.Finset.Range
import Mathlib.Data.List.GetD
import Squirrels.Lib.Chain
import Squirrels.Vm.Table

/-!
# The laws of the hash table

A table that is reached by insertions and deletions is well formed: the chains do not loop or join,
every key lies on the chain from its main position and nowhere else, and the free place is free. So
a search finds a key exactly when it is there, a new slot changes nothing but itself, and the table
counts its slots.
-/

namespace Squirrels

open Relation

namespace SQTable

variable {hash : SQObject → ℕ} {t t' : SQTable} {key : SQObject}

/-! ## Nodes -/

/-- The node holds a slot. -/
def Used (t : SQTable) (i : ℕ) : Prop := (t.node i).key ≠ .null

instance (t : SQTable) : DecidablePred t.Used := fun _ => inferInstanceAs (Decidable (_ ≠ _))

/-- The node is free to be taken. -/
def Free (t : SQTable) (i : ℕ) : Prop := (t.node i).key = .null ∧ (t.node i).next = none

/-- The links between the nodes. -/
def link (t : SQTable) (i : ℕ) : Option ℕ := (t.node i).next

/-- The nodes that hold slots. -/
def used (t : SQTable) : Finset ℕ := (Finset.range t.nodes.length).filter t.Used

/-- The table has a slot with the key and the value. -/
def Holds (t : SQTable) (key val : SQObject) : Prop :=
  ∃ i, (t.node i).key = key ∧ (t.node i).val = val

@[simp] theorem length_setNode (t : SQTable) (i : ℕ) (n : HashNode) :
    (t.setNode i n).nodes.length = t.nodes.length := List.length_set

theorem node_setNode (t : SQTable) {i : ℕ} (lt : i < t.nodes.length) (n : HashNode) (j : ℕ) :
    (t.setNode i n).node j = if j = i then n else t.node j := by
  unfold node setNode
  by_cases same : j = i
  · subst same
    rw [if_pos rfl, List.getD_eq_getElem?_getD, List.getElem?_set_self lt]
    rfl
  · rw [if_neg same, List.getD_eq_getElem?_getD, List.getElem?_set_ne (fun eq => same eq.symm),
      ← List.getD_eq_getElem?_getD]

theorem node_of_le {i : ℕ} (le : t.nodes.length ≤ i) : t.node i = default :=
  List.getD_eq_default _ _ le

theorem Used.lt {i : ℕ} (used : t.Used i) : i < t.nodes.length := by
  by_contra le
  exact used (by rw [node_of_le (by omega)]; rfl)

theorem lt_of_link {i j : ℕ} (linked : t.link i = some j) : i < t.nodes.length := by
  by_contra le
  rw [link, node_of_le (by omega)] at linked
  cases linked

@[simp] theorem mem_used {i : ℕ} : i ∈ t.used ↔ t.Used i := by
  simp only [used, Finset.mem_filter, Finset.mem_range, and_iff_right_iff_imp]
  exact Used.lt

theorem used_of_key {i : ℕ} (found : (t.node i).key = key) (nonnull : key ≠ .null) : t.Used i := by
  rw [Used, found]
  exact nonnull

/-! ## Well-formed tables -/

/-- The chains of a table. -/
structure Chained (hash : SQObject → ℕ) (t : SQTable) : Prop where
  size : ∃ k, t.nodes.length = 2 ^ (k + 2)
  bounded : ∀ i j, t.link i = some j → j < t.nodes.length
  separate : Chain.Separate t.link
  acyclic : Chain.Acyclic t.link
  /-- A key is on the chain from its main position. -/
  reach : ∀ i, t.Used i →
    ReflTransGen (Chain.Link t.link) (t.mainPosition hash (t.node i).key) i
  /-- A node that is not at its main position is at nobody's. -/
  alone : ∀ i j, t.Used i → t.mainPosition hash (t.node i).key ≠ i → t.Used j →
    t.mainPosition hash (t.node j).key ≠ i
  unique : ∀ i j, t.Used i → (t.node i).key = (t.node j).key → i = j

/-- What insertions and deletions keep. -/
structure WellFormed (hash : SQObject → ℕ) (t : SQTable) : Prop extends Chained hash t where
  firstfree_lt : t.firstfree < t.nodes.length
  free : t.Free t.firstfree
  above : ∀ i j, t.link i = some j → t.firstfree < j
  count : t.usednodes = t.used.card

theorem Chained.four_le (chained : Chained hash t) : 4 ≤ t.nodes.length := by
  obtain ⟨k, eq⟩ := chained.size
  rw [eq, pow_add]
  have positive : 0 < 2 ^ k := Nat.two_pow_pos k
  omega

theorem Chained.mainPosition_lt (chained : Chained hash t) (key : SQObject) :
    t.mainPosition hash key < t.nodes.length := by
  have four := chained.four_le
  have le : t.mainPosition hash key ≤ t.nodes.length - 1 := Nat.and_le_right
  omega

/-! ## Searching -/

theorem findFrom_sound {fuel m i : ℕ} (found : t.findFrom key fuel m = some i) :
    (t.node i).key = key ∧ ReflTransGen (Chain.Link t.link) m i := by
  induction fuel generalizing m with
  | zero => cases found
  | succ fuel ih =>
    unfold findFrom at found
    by_cases here : (t.node m).key = key
    · rw [if_pos here] at found
      obtain rfl := Option.some.inj found
      exact ⟨here, .refl⟩
    · rw [if_neg here] at found
      cases linked : (t.node m).next with
      | none => simp [linked] at found
      | some j =>
        rw [linked] at found
        obtain ⟨match_, walk⟩ := ih found
        exact ⟨match_, walk.head linked⟩

theorem findFrom_complete {fuel m i : ℕ} (ends : Chain.Ends t.link fuel m)
    (walk : ReflTransGen (Chain.Link t.link) m i) (match_ : (t.node i).key = key) :
    ∃ j, t.findFrom key fuel m = some j := by
  induction fuel generalizing m with
  | zero => exact ends.elim
  | succ fuel ih =>
    unfold findFrom
    by_cases here : (t.node m).key = key
    · exact ⟨m, if_pos here⟩
    · rw [if_neg here]
      rcases ReflTransGen.cases_head walk with eq | ⟨j, linked, rest⟩
      · exact absurd (eq ▸ match_) here
      · have linked' : (t.node m).next = some j := linked
        unfold Chain.Ends at ends
        rw [show t.link m = some j from linked] at ends
        rw [linked']
        exact ih ends rest

theorem Chained.ends (chained : Chained hash t) {m : ℕ} (lt : m < t.nodes.length) :
    Chain.Ends t.link t.nodes.length m :=
  chained.acyclic.ends_of_lt chained.bounded lt

/-- A search finds the node that holds the key. -/
theorem Chained.find_eq_some_iff (chained : Chained hash t) (nonnull : key ≠ .null) {i : ℕ} :
    t.find hash key = some i ↔ (t.node i).key = key := by
  refine ⟨fun found => (findFrom_sound found).1, fun match_ => ?_⟩
  have used := used_of_key match_ nonnull
  have walk := chained.reach i used
  rw [match_] at walk
  obtain ⟨j, found⟩ := findFrom_complete (chained.ends (chained.mainPosition_lt key)) walk match_
  have same := chained.unique i j used (match_.trans (findFrom_sound found).1.symm)
  rw [find, found, same]

theorem Chained.find_eq_none_iff (chained : Chained hash t) (nonnull : key ≠ .null) :
    t.find hash key = none ↔ ∀ i, (t.node i).key ≠ key := by
  refine ⟨fun missing i match_ => ?_, fun absent => ?_⟩
  · rw [(chained.find_eq_some_iff nonnull).2 match_] at missing
    cases missing
  · cases found : t.find hash key with
    | none => rfl
    | some i => exact absurd ((chained.find_eq_some_iff nonnull).1 found) (absent i)

/-- The search for null finds a node of its chain that is not used. -/
theorem Chained.find_null_eq_none_iff (chained : Chained hash t) :
    t.find hash .null = none ↔
      ∀ i, ReflTransGen (Chain.Link t.link) (t.mainPosition hash .null) i → t.Used i := by
  refine ⟨fun missing i walk null => ?_, fun all => ?_⟩
  · obtain ⟨j, found⟩ := findFrom_complete (chained.ends (chained.mainPosition_lt .null)) walk null
    rw [find, found] at missing
    cases missing
  · cases found : t.find hash .null with
    | none => rfl
    | some i =>
      obtain ⟨null, walk⟩ := findFrom_sound found
      exact absurd null (all i walk)

/-- A node that is found is a node of the array. -/
theorem Chained.lt_of_find (chained : Chained hash t) {i : ℕ} (found : t.find hash key = some i) :
    i < t.nodes.length := by
  obtain ⟨-, walk⟩ := findFrom_sound found
  rcases ReflTransGen.cases_tail walk with same | ⟨j, -, linked⟩
  · rw [same]
    exact chained.mainPosition_lt key
  · exact chained.bounded j i linked

/-- `Get` reads the slot of a key. -/
theorem Chained.get_eq_some_iff (chained : Chained hash t) (nonnull : key ≠ .null)
    {val : SQObject} : t.get hash key = some val ↔ t.Holds key val := by
  unfold get Holds
  rw [if_neg nonnull, Option.map_eq_some_iff]
  exact exists_congr fun i => and_congr_left fun _ => chained.find_eq_some_iff nonnull

/-- The previous node of a chain, found from the main position. -/
theorem next_previous {fuel m target : ℕ} (ends : Chain.Ends t.link fuel m)
    (walk : TransGen (Chain.Link t.link) m target) :
    t.link (t.previous target fuel m) = some target := by
  induction fuel generalizing m with
  | zero => exact ends.elim
  | succ fuel ih =>
    obtain ⟨j, linked, rest⟩ := TransGen.head'_iff.1 walk
    have linked' : (t.node m).next = some j := linked
    unfold Chain.Ends at ends
    rw [show t.link m = some j from linked] at ends
    unfold previous
    rw [linked']
    by_cases here : j = target
    · simp only [here, if_true]
      exact here ▸ linked
    · simp only [here, if_false]
      rcases reflTransGen_iff_eq_or_transGen.1 rest with eq | far
      · exact absurd eq.symm here
      · exact ih ends far

/-! ## Insertion -/

/-- A key has joined the table at a node. The free place may be taken now. -/
structure Joined (hash : SQObject → ℕ) (t t' : SQTable) (key : SQObject) (slot : ℕ) : Prop where
  chained : Chained hash t'
  length : t'.nodes.length = t.nodes.length
  firstfree : t'.firstfree = t.firstfree
  usednodes : t'.usednodes = t.usednodes
  one : ∃ fresh, ¬ t.Used fresh ∧ ∀ i, t'.Used i ↔ t.Used i ∨ i = fresh
  above : ∀ i j, t'.link i = some j → t.firstfree < j ∨ j = t.firstfree ∧ t'.Used j
  slot : (t'.node slot).key = key
  others : ∀ k v, k ≠ key → k ≠ .null → (t'.Holds k v ↔ t.Holds k v)
  /-- Nodes that are not used stay without links, if they had none. -/
  plain : (∀ i, ¬ t.Used i → t.link i = none) → ∀ i, ¬ t'.Used i → t'.link i = none

theorem mainPosition_congr (same : t'.nodes.length = t.nodes.length) (key : SQObject) :
    t'.mainPosition hash key = t.mainPosition hash key := by
  rw [mainPosition, mainPosition, same]

/-- Nothing links to the free place, and it links to nothing. -/
theorem WellFormed.unlinked (wf : WellFormed hash t) (i : ℕ) : t.link i ≠ some t.firstfree :=
  fun linked => Nat.lt_irrefl _ (wf.above i _ linked)

theorem WellFormed.link_firstfree (wf : WellFormed hash t) : t.link t.firstfree = none :=
  wf.free.2

theorem WellFormed.unused_firstfree (wf : WellFormed hash t) : ¬ t.Used t.firstfree :=
  not_not.2 wf.free.1

/-- The free place is nobody's main position. -/
theorem WellFormed.mainPosition_ne_firstfree (wf : WellFormed hash t) {i : ℕ} (used : t.Used i) :
    t.mainPosition hash (t.node i).key ≠ t.firstfree := by
  intro eq
  have walk := wf.reach i used
  rw [eq] at walk
  rcases ReflTransGen.cases_head walk with same | ⟨j, linked, -⟩
  · exact wf.unused_firstfree (same ▸ used)
  · have linked' : (t.node t.firstfree).next = some j := linked
    rw [wf.free.2] at linked'
    cases linked'

/-- Links lead where links led before, or to the free place. -/
def LeadsWithin (t t' : SQTable) : Prop :=
  ∀ i j, t'.link i = some j → j = t.firstfree ∨ ∃ k, t.link k = some j

theorem LeadsWithin.bounded (leads : LeadsWithin t t') (wf : WellFormed hash t)
    (length : t'.nodes.length = t.nodes.length) (i j : ℕ) (linked : t'.link i = some j) :
    j < t'.nodes.length := by
  rw [length]
  rcases leads i j linked with rfl | ⟨k, before⟩
  · exact wf.firstfree_lt
  · exact wf.bounded k j before

theorem LeadsWithin.above (leads : LeadsWithin t t') (wf : WellFormed hash t)
    (used : t'.Used t.firstfree) (i j : ℕ) (linked : t'.link i = some j) :
    t.firstfree < j ∨ j = t.firstfree ∧ t'.Used j := by
  rcases leads i j linked with rfl | ⟨k, before⟩
  · exact .inr ⟨rfl, used⟩
  · exact .inl (wf.above k j before)

/-! ### The key is in a node that was not used -/

/-- The key is in a node that was not used, and the other nodes keep what they hold. -/
structure Entered (t t' : SQTable) (key : SQObject) (slot : ℕ) : Prop where
  nonnull : key ≠ .null
  absent : ∀ i, (t.node i).key ≠ key
  unused : ¬ t.Used slot
  keys : ∀ j, (t'.node j).key = if j = slot then key else (t.node j).key
  vals : ∀ j, (t'.node j).val = (t.node j).val
  length : t'.nodes.length = t.nodes.length
  firstfree : t'.firstfree = t.firstfree
  usednodes : t'.usednodes = t.usednodes

namespace Entered

variable {slot : ℕ}

theorem key_slot (entered : Entered t t' key slot) : (t'.node slot).key = key := by
  rw [entered.keys, if_pos rfl]

theorem key_eq (entered : Entered t t' key slot) {j : ℕ} (other : j ≠ slot) :
    (t'.node j).key = (t.node j).key := by
  rw [entered.keys, if_neg other]

theorem used_iff (entered : Entered t t' key slot) (j : ℕ) :
    t'.Used j ↔ t.Used j ∨ j = slot := by
  rw [Used, entered.keys]
  by_cases here : j = slot <;> simp [here, entered.nonnull, Used]

theorem used_before (entered : Entered t t' key slot) {j : ℕ} (used : t'.Used j)
    (other : j ≠ slot) : t.Used j :=
  ((entered.used_iff j).1 used).resolve_right other

/-- The key is not at its main position only when its node is nobody's, and it belongs to no node
of a key that is not at its main position. -/
theorem alone (entered : Entered t t' key slot) (chained : Chained hash t)
    (nobodys : t.mainPosition hash key ≠ slot →
      ∀ j, t.Used j → t.mainPosition hash (t.node j).key ≠ slot)
    (apart : ∀ j, t.Used j → t.mainPosition hash (t.node j).key ≠ j →
      t.mainPosition hash key ≠ j) (j k : ℕ) (used : t'.Used j)
    (out : t'.mainPosition hash (t'.node j).key ≠ j) (used' : t'.Used k) :
    t'.mainPosition hash (t'.node k).key ≠ j := by
  rw [mainPosition_congr entered.length] at out ⊢
  by_cases new : j = slot <;> by_cases new' : k = slot
  · rwa [new', ← new]
  · rw [new, entered.key_slot] at out
    rw [new, entered.key_eq new']
    exact nobodys out k (entered.used_before used' new')
  · rw [entered.key_eq new] at out
    rw [new', entered.key_slot]
    exact apart j (entered.used_before used new) out
  · rw [entered.key_eq new] at out
    rw [entered.key_eq new']
    exact chained.alone j k (entered.used_before used new) out (entered.used_before used' new')

theorem unique (entered : Entered t t' key slot) (chained : Chained hash t) (j k : ℕ)
    (used : t'.Used j) (eq : (t'.node j).key = (t'.node k).key) : j = k := by
  by_cases new : j = slot <;> by_cases new' : k = slot
  · rw [new, new']
  · rw [new, entered.key_slot, entered.key_eq new'] at eq
    exact absurd eq.symm (entered.absent k)
  · rw [new', entered.key_slot, entered.key_eq new] at eq
    exact absurd eq (entered.absent j)
  · rw [entered.key_eq new, entered.key_eq new'] at eq
    exact chained.unique j k (entered.used_before used new) eq

theorem others (entered : Entered t t' key slot) (k v : SQObject) (other : k ≠ key)
    (nonnull : k ≠ .null) : t'.Holds k v ↔ t.Holds k v := by
  refine exists_congr fun j => ?_
  rw [entered.keys, entered.vals]
  by_cases new : j = slot
  · have null : (t.node slot).key = .null := not_not.1 entered.unused
    simp [new, null, other.symm, nonnull.symm]
  · simp [new]

/-- What the links have to be for the key to have joined. -/
theorem joined (entered : Entered t t' key slot) (chained : Chained hash t')
    (above : ∀ i j, t'.link i = some j → t.firstfree < j ∨ j = t.firstfree ∧ t'.Used j)
    (plain : (∀ i, ¬ t.Used i → t.link i = none) → ∀ i, ¬ t'.Used i → t'.link i = none) :
    Joined hash t t' key slot where
  chained := chained
  length := entered.length
  firstfree := entered.firstfree
  usednodes := entered.usednodes
  one := ⟨slot, entered.unused, entered.used_iff⟩
  above := above
  slot := entered.key_slot
  others := entered.others
  plain := plain

end Entered

/-! ### The main position is not used -/

theorem WellFormed.entered_main (wf : WellFormed hash t) (nonnull : key ≠ .null)
    (absent : ∀ i, (t.node i).key ≠ key) (unused : ¬ t.Used (t.mainPosition hash key)) :
    Entered t (t.setNode (t.mainPosition hash key)
      { t.node (t.mainPosition hash key) with key := key }) key (t.mainPosition hash key) := by
  have lt := wf.mainPosition_lt key
  refine ⟨nonnull, absent, unused, fun j => ?_, fun j => ?_, t.length_setNode _ _, rfl, rfl⟩
  all_goals
    rw [t.node_setNode lt]
    by_cases here : j = t.mainPosition hash key <;> simp [here]

/-- The key takes its main position, and the links stay. -/
theorem Entered.join_main (entered : Entered t t' key (t.mainPosition hash key))
    (wf : WellFormed hash t) (links : t'.link = t.link) :
    Joined hash t t' key (t.mainPosition hash key) := by
  have apart : ∀ j, t.Used j → t.mainPosition hash (t.node j).key ≠ j →
      t.mainPosition hash key ≠ j := fun j used _ eq => entered.unused (eq ▸ used)
  have leads : LeadsWithin t t' := fun i j linked => .inr ⟨i, links ▸ linked⟩
  have reach : ∀ j, t'.Used j → ReflTransGen (Chain.Link t'.link)
      (t'.mainPosition hash (t'.node j).key) j := by
    intro j used
    rw [links, mainPosition_congr entered.length]
    by_cases here : j = t.mainPosition hash key
    · rw [here, entered.key_slot]
    · rw [entered.key_eq here]
      exact wf.reach j (entered.used_before used here)
  refine entered.joined ?_ (fun i j linked => ?_) (fun plain i unused => ?_)
  · exact {
      size := entered.length.symm ▸ wf.size
      bounded := leads.bounded wf entered.length
      separate := links.symm ▸ wf.separate
      acyclic := links.symm ▸ wf.acyclic
      reach := reach
      alone := entered.alone wf.toChained (fun out => absurd rfl out) apart
      unique := entered.unique wf.toChained }
  · rw [links] at linked
    exact .inl (wf.above i j linked)
  · rw [links]
    exact plain i fun used => unused ((entered.used_iff i).2 (.inl used))

/-! ### The main position is used by a key that belongs there -/

/-- The key is in the free place, behind the main position that it shares. -/
structure Appended (hash : SQObject → ℕ) (t t' : SQTable) (key : SQObject) (mp : ℕ) : Prop
    extends Entered t t' key t.firstfree where
  main : t.mainPosition hash key = mp
  taken : t.Used mp
  inPlace : t.mainPosition hash (t.node mp).key = mp
  links : t'.link = Chain.insertAfter t.link mp t.firstfree

namespace Appended

variable {mp : ℕ}

theorem ne (appended : Appended hash t t' key mp) : t.firstfree ≠ mp :=
  fun eq => appended.unused (eq ▸ appended.taken)

theorem link_cases (appended : Appended hash t t' key mp) {i j : ℕ}
    (linked : t'.link i = some j) :
    i = mp ∧ j = t.firstfree ∨ i = t.firstfree ∧ t.link mp = some j ∨ t.link i = some j := by
  rw [appended.links] at linked
  by_cases isMp : i = mp
  · rw [isMp, Chain.insertAfter_self] at linked
    exact .inl ⟨isMp, (Option.some.inj linked).symm⟩
  · by_cases isNew : i = t.firstfree
    · rw [isNew, Chain.insertAfter_new t.link appended.ne] at linked
      exact .inr (.inl ⟨isNew, linked⟩)
    · rw [Chain.insertAfter_other t.link isMp isNew] at linked
      exact .inr (.inr linked)

theorem leads (appended : Appended hash t t' key mp) : LeadsWithin t t' := by
  intro i j linked
  rcases appended.link_cases linked with ⟨-, eq⟩ | ⟨-, before⟩ | before
  · exact .inl eq
  · exact .inr ⟨mp, before⟩
  · exact .inr ⟨i, before⟩

theorem reach (appended : Appended hash t t' key mp) (wf : WellFormed hash t) (j : ℕ)
    (used : t'.Used j) :
    ReflTransGen (Chain.Link t'.link) (t'.mainPosition hash (t'.node j).key) j := by
  rw [appended.links, mainPosition_congr appended.length]
  by_cases new : j = t.firstfree
  · rw [new, appended.key_slot, appended.main]
    exact .single (Chain.insertAfter_self t.link mp t.firstfree)
  · rw [appended.key_eq new]
    exact Chain.reflTransGen_insertAfter appended.ne wf.link_firstfree
      (wf.reach j (appended.used_before used new))

theorem apart (appended : Appended hash t t' key mp) (j : ℕ)
    (out : t.mainPosition hash (t.node j).key ≠ j) : t.mainPosition hash key ≠ j := by
  rw [appended.main]
  rintro rfl
  exact out appended.inPlace

theorem chained (appended : Appended hash t t' key mp) (wf : WellFormed hash t) :
    Chained hash t' where
  size := appended.length.symm ▸ wf.size
  bounded := appended.leads.bounded wf appended.length
  separate := appended.links.symm ▸ wf.separate.insertAfter appended.ne wf.unlinked
  acyclic := appended.links.symm ▸ wf.acyclic.insertAfter appended.ne wf.unlinked
  reach := appended.reach wf
  alone := appended.alone wf.toChained
    (fun _ _ used => wf.mainPosition_ne_firstfree used) (fun j _ out => appended.apart j out)
  unique := appended.unique wf.toChained

theorem plain (appended : Appended hash t t' key mp) (before : ∀ i, ¬ t.Used i → t.link i = none)
    (i : ℕ) (unused : ¬ t'.Used i) : t'.link i = none := by
  have notNew : i ≠ t.firstfree := fun eq => unused ((appended.used_iff i).2 (.inr eq))
  have notUsed : ¬ t.Used i := fun used => unused ((appended.used_iff i).2 (.inl used))
  have notMp : i ≠ mp := fun eq => notUsed (eq ▸ appended.taken)
  rw [appended.links, Chain.insertAfter_other t.link notMp notNew]
  exact before i notUsed

theorem joined (appended : Appended hash t t' key mp) (wf : WellFormed hash t) :
    Joined hash t t' key t.firstfree := by
  have used : t'.Used t.firstfree := (appended.used_iff _).2 (.inr rfl)
  exact appended.toEntered.joined (appended.chained wf) (appended.leads.above wf used)
    appended.plain

end Appended

/-- The free place takes the key and is linked behind the main position. -/
theorem WellFormed.appended (wf : WellFormed hash t) (nonnull : key ≠ .null)
    (absent : ∀ i, (t.node i).key ≠ key) {mp : ℕ} (main : t.mainPosition hash key = mp)
    (taken : t.Used mp) (inPlace : t.mainPosition hash (t.node mp).key = mp)
    (nodes : ∀ j, t'.node j = if j = t.firstfree then
        { key := key, val := (t.node t.firstfree).val, next := (t.node mp).next }
      else if j = mp then { t.node mp with next := some t.firstfree } else t.node j)
    (length : t'.nodes.length = t.nodes.length) (first : t'.firstfree = t.firstfree)
    (number : t'.usednodes = t.usednodes) : Appended hash t t' key mp := by
  have unused := wf.unused_firstfree
  have ne : t.firstfree ≠ mp := fun eq => unused (eq ▸ taken)
  refine ⟨⟨nonnull, absent, unused, fun j => ?_, fun j => ?_, length, first, number⟩, main, taken,
    inPlace, funext fun j => ?_⟩
  · rw [nodes j]
    by_cases isNew : j = t.firstfree
    · simp [isNew]
    · by_cases isMp : j = mp
      · simp [isMp, ne.symm]
      · simp [isNew, isMp]
  · rw [nodes j]
    by_cases isNew : j = t.firstfree
    · simp [isNew]
    · by_cases isMp : j = mp
      · simp [isMp, ne.symm]
      · simp [isNew, isMp]
  · rw [link, nodes j]
    by_cases isNew : j = t.firstfree
    · rw [isNew, Chain.insertAfter_new t.link ne, if_pos rfl]
      rfl
    · by_cases isMp : j = mp
      · rw [isMp, Chain.insertAfter_self, if_neg ne.symm, if_pos rfl]
      · rw [Chain.insertAfter_other t.link isMp isNew, if_neg isNew, if_neg isMp]
        rfl

/-! ### The main position is used by a key that belongs elsewhere -/

/-- The node whose slot a node holds when the main position's has moved into the free place. -/
def movedFrom (t : SQTable) (mp j : ℕ) : ℕ := if j = t.firstfree then mp else j

theorem movedFrom_firstfree (t : SQTable) (mp : ℕ) : t.movedFrom mp t.firstfree = mp := if_pos rfl

theorem movedFrom_of_ne {j : ℕ} (mp : ℕ) (ne : j ≠ t.firstfree) : t.movedFrom mp j = j :=
  if_neg ne

theorem movedFrom_inj {mp j k : ℕ} (notMp : j ≠ mp) (notMp' : k ≠ mp)
    (eq : t.movedFrom mp j = t.movedFrom mp k) : j = k := by
  unfold movedFrom at eq
  by_cases new : j = t.firstfree <;> by_cases new' : k = t.firstfree
  · rw [new, new']
  · rw [if_pos new, if_neg new'] at eq
    exact absurd eq.symm notMp'
  · rw [if_neg new, if_pos new'] at eq
    exact absurd eq notMp
  · rwa [if_neg new, if_neg new'] at eq

/-- The key has the main position, and what was there is in the free place, linked from the node
before the main position. -/
structure Displaced (hash : SQObject → ℕ) (t t' : SQTable) (key : SQObject) (mp o : ℕ) :
    Prop where
  nonnull : key ≠ .null
  absent : ∀ i, (t.node i).key ≠ key
  main : t.mainPosition hash key = mp
  taken : t.Used mp
  elsewhere : t.mainPosition hash (t.node mp).key ≠ mp
  before : t.link o = some mp
  here : (t'.node mp).key = key
  keys : ∀ j, j ≠ mp → (t'.node j).key = (t.node (t.movedFrom mp j)).key
  vals : ∀ j, j ≠ mp → (t'.node j).val = (t.node (t.movedFrom mp j)).val
  links : t'.link = Chain.moveTo t.link o mp t.firstfree
  length : t'.nodes.length = t.nodes.length
  firstfree : t'.firstfree = t.firstfree
  usednodes : t'.usednodes = t.usednodes

namespace Displaced

variable {mp o : ℕ}

theorem ne (displaced : Displaced hash t t' key mp o) (wf : WellFormed hash t) :
    t.firstfree ≠ mp :=
  fun eq => wf.unused_firstfree (eq ▸ displaced.taken)

theorem used_mp (displaced : Displaced hash t t' key mp o) : t'.Used mp :=
  used_of_key displaced.here displaced.nonnull

theorem used_movedFrom (displaced : Displaced hash t t' key mp o) {j : ℕ} (other : j ≠ mp) :
    t'.Used j ↔ t.Used (t.movedFrom mp j) := by
  rw [Used, Used, displaced.keys j other]

theorem used_iff (displaced : Displaced hash t t' key mp o) (j : ℕ) :
    t'.Used j ↔ t.Used j ∨ j = t.firstfree := by
  by_cases isMp : j = mp
  · rw [isMp]
    exact iff_of_true displaced.used_mp (.inl displaced.taken)
  · rw [displaced.used_movedFrom isMp]
    by_cases isNew : j = t.firstfree
    · simp [isNew, movedFrom_firstfree, displaced.taken]
    · simp [isNew, movedFrom_of_ne]

theorem link_before (displaced : Displaced hash t t' key mp o) (wf : WellFormed hash t) {i j : ℕ}
    (linked : t'.link i = some j) : t.link (t.movedFrom mp i) = some (t.movedFrom mp j) := by
  rw [displaced.links] at linked
  exact (Chain.link_of_moveTo wf.acyclic wf.separate displaced.before (displaced.ne wf) wf.unlinked
    wf.link_firstfree linked).2.2

theorem leads (displaced : Displaced hash t t' key mp o) (wf : WellFormed hash t) :
    LeadsWithin t t' := by
  intro i j linked
  by_cases isNew : j = t.firstfree
  · exact .inl isNew
  · have before := displaced.link_before wf linked
    rw [movedFrom_of_ne mp isNew] at before
    exact .inr ⟨_, before⟩

theorem reach (displaced : Displaced hash t t' key mp o) (wf : WellFormed hash t) (j : ℕ)
    (used : t'.Used j) :
    ReflTransGen (Chain.Link t'.link) (t'.mainPosition hash (t'.node j).key) j := by
  rw [mainPosition_congr displaced.length]
  by_cases isMp : j = mp
  · rw [isMp, displaced.here, displaced.main]
  · have used' := (displaced.used_movedFrom isMp).1 used
    rw [displaced.links, displaced.keys j isMp]
    have walk := Chain.reflTransGen_moveTo wf.acyclic wf.separate displaced.before
      (displaced.ne wf) wf.link_firstfree (wf.reach _ used')
    rw [if_neg (wf.alone mp _ displaced.taken displaced.elsewhere used')] at walk
    by_cases isNew : j = t.firstfree
    · subst isNew
      rw [movedFrom_firstfree] at walk ⊢
      rwa [if_pos rfl] at walk
    · rw [movedFrom_of_ne mp isNew] at walk ⊢
      rwa [if_neg isMp] at walk

theorem alone (displaced : Displaced hash t t' key mp o) (wf : WellFormed hash t) (j k : ℕ)
    (used : t'.Used j) (out : t'.mainPosition hash (t'.node j).key ≠ j) (used' : t'.Used k) :
    t'.mainPosition hash (t'.node k).key ≠ j := by
  rw [mainPosition_congr displaced.length] at out ⊢
  have notMp : j ≠ mp := by
    intro isMp
    rw [isMp, displaced.here] at out
    exact out displaced.main
  by_cases isMp : k = mp
  · rw [isMp, displaced.here, displaced.main]
    exact notMp.symm
  · have before := (displaced.used_movedFrom isMp).1 used'
    rw [displaced.keys k isMp]
    by_cases isNew : j = t.firstfree
    · rw [isNew]
      exact wf.mainPosition_ne_firstfree before
    · have before' := (displaced.used_movedFrom notMp).1 used
      rw [displaced.keys j notMp, movedFrom_of_ne mp isNew] at out
      rw [movedFrom_of_ne mp isNew] at before'
      exact wf.alone j _ before' out before

theorem unique (displaced : Displaced hash t t' key mp o) (wf : WellFormed hash t) (j k : ℕ)
    (used : t'.Used j) (eq : (t'.node j).key = (t'.node k).key) : j = k := by
  by_cases isMp : j = mp <;> by_cases isMp' : k = mp
  · rw [isMp, isMp']
  · rw [isMp, displaced.here, displaced.keys k isMp'] at eq
    exact absurd eq.symm (displaced.absent _)
  · rw [isMp', displaced.here, displaced.keys j isMp] at eq
    exact absurd eq (displaced.absent _)
  · rw [displaced.keys j isMp, displaced.keys k isMp'] at eq
    exact movedFrom_inj isMp isMp'
      (wf.unique _ _ ((displaced.used_movedFrom isMp).1 used) eq)

theorem chained (displaced : Displaced hash t t' key mp o) (wf : WellFormed hash t) :
    Chained hash t' where
  size := displaced.length.symm ▸ wf.size
  bounded := (displaced.leads wf).bounded wf displaced.length
  separate := displaced.links.symm ▸ wf.separate.moveTo wf.acyclic displaced.before
    (displaced.ne wf) wf.unlinked wf.link_firstfree
  acyclic := displaced.links.symm ▸ wf.acyclic.moveTo wf.separate displaced.before
    (displaced.ne wf) wf.unlinked wf.link_firstfree
  reach := displaced.reach wf
  alone := displaced.alone wf
  unique := displaced.unique wf

/-- A slot that was there is where it was, or has moved with the main position. -/
theorem others (displaced : Displaced hash t t' key mp o) (wf : WellFormed hash t)
    (k v : SQObject) (other : k ≠ key) (nonnull : k ≠ .null) :
    t'.Holds k v ↔ t.Holds k v := by
  refine ⟨?_, ?_⟩
  · rintro ⟨j, isKey, isVal⟩
    have notMp : j ≠ mp := by
      rintro rfl
      exact other (isKey.symm.trans displaced.here)
    exact ⟨_, (displaced.keys j notMp).symm.trans isKey,
      (displaced.vals j notMp).symm.trans isVal⟩
  · rintro ⟨j, isKey, isVal⟩
    by_cases isMp : j = mp
    · refine ⟨t.firstfree, ?_, ?_⟩
      · rw [displaced.keys _ (displaced.ne wf), movedFrom_firstfree, ← isMp, isKey]
      · rw [displaced.vals _ (displaced.ne wf), movedFrom_firstfree, ← isMp, isVal]
    · have notNew : j ≠ t.firstfree := by
        rintro rfl
        exact nonnull (isKey.symm.trans wf.free.1)
      refine ⟨j, ?_, ?_⟩
      · rw [displaced.keys j isMp, movedFrom_of_ne mp notNew, isKey]
      · rw [displaced.vals j isMp, movedFrom_of_ne mp notNew, isVal]

theorem plain (displaced : Displaced hash t t' key mp o)
    (before : ∀ i, ¬ t.Used i → t.link i = none) (i : ℕ) (unused : ¬ t'.Used i) :
    t'.link i = none := by
  have notNew : i ≠ t.firstfree := fun eq => unused ((displaced.used_iff i).2 (.inr eq))
  have notUsed : ¬ t.Used i := fun used => unused ((displaced.used_iff i).2 (.inl used))
  have notMp : i ≠ mp := fun eq => unused (eq ▸ displaced.used_mp)
  have notBefore : i ≠ o := by
    rintro rfl
    have linked := displaced.before
    rw [before i notUsed] at linked
    cases linked
  rw [displaced.links, Chain.moveTo_other t.link notMp notNew notBefore]
  exact before i notUsed

theorem joined (displaced : Displaced hash t t' key mp o) (wf : WellFormed hash t) :
    Joined hash t t' key mp where
  chained := displaced.chained wf
  length := displaced.length
  firstfree := displaced.firstfree
  usednodes := displaced.usednodes
  one := ⟨t.firstfree, wf.unused_firstfree, displaced.used_iff⟩
  above := (displaced.leads wf).above wf ((displaced.used_iff _).2 (.inr rfl))
  slot := displaced.here
  others := displaced.others wf
  plain := displaced.plain

end Displaced

/-- The main position's key moves into the free place and the new key takes the main position. -/
theorem WellFormed.displaced (wf : WellFormed hash t) (nonnull : key ≠ .null)
    (absent : ∀ i, (t.node i).key ≠ key) {mp o : ℕ} (main : t.mainPosition hash key = mp)
    (taken : t.Used mp) (elsewhere : t.mainPosition hash (t.node mp).key ≠ mp)
    (before : t.link o = some mp)
    (nodes : ∀ j, t'.node j = if j = mp then { (default : HashNode) with key := key }
      else if j = t.firstfree then t.node mp
      else if j = o then { t.node o with next := some t.firstfree } else t.node j)
    (length : t'.nodes.length = t.nodes.length) (first : t'.firstfree = t.firstfree)
    (number : t'.usednodes = t.usednodes) : Displaced hash t t' key mp o := by
  have ne : t.firstfree ≠ mp := fun eq => wf.unused_firstfree (eq ▸ taken)
  have oNotMp : o ≠ mp := by
    rintro rfl
    exact wf.acyclic o (.single before)
  have oNotNew : o ≠ t.firstfree := by
    rintro rfl
    rw [wf.link_firstfree] at before
    cases before
  have moved : ∀ j, j ≠ mp → (t'.node j).key = (t.node (t.movedFrom mp j)).key ∧
      (t'.node j).val = (t.node (t.movedFrom mp j)).val := by
    intro j notMp
    rw [nodes j, if_neg notMp, movedFrom]
    by_cases isNew : j = t.firstfree
    · simp [isNew]
    · by_cases isBefore : j = o
      · simp [isBefore, oNotNew]
      · simp [isNew, isBefore]
  have links : t'.link = Chain.moveTo t.link o mp t.firstfree := by
    funext j
    rw [link, nodes j]
    by_cases isMp : j = mp
    · rw [isMp, Chain.moveTo_left, if_pos rfl]
      rfl
    · by_cases isNew : j = t.firstfree
      · rw [isNew, Chain.moveTo_new t.link o ne, if_neg ne, if_pos rfl]
        rfl
      · by_cases isBefore : j = o
        · rw [isBefore, Chain.moveTo_before t.link oNotMp oNotNew, if_neg oNotMp, if_neg oNotNew,
            if_pos rfl]
        · rw [Chain.moveTo_other t.link isMp isNew isBefore, if_neg isMp, if_neg isNew,
            if_neg isBefore]
          rfl
  exact ⟨nonnull, absent, main, taken, elsewhere, before, by rw [nodes mp, if_pos rfl],
    fun j other => (moved j other).1, fun j other => (moved j other).2, links, length, first,
    number⟩

/-! ### The node that a new key gets -/

/-- `NewSlot` gives a key that is not in the table its node. -/
theorem WellFormed.place_joined (wf : WellFormed hash t) (nonnull : key ≠ .null)
    (absent : ∀ i, (t.node i).key ≠ key) :
    Joined hash t ((t.place hash key).1.setNode (t.place hash key).2
      { (t.place hash key).1.node (t.place hash key).2 with key := key }) key
      (t.place hash key).2 := by
  have mainLt := wf.mainPosition_lt key
  have firstLt := wf.firstfree_lt
  by_cases taken : (t.node (t.mainPosition hash key)).key = .null
  · have placed : t.place hash key = (t, t.mainPosition hash key) := by
      unfold place
      simp only [taken, if_true]
    rw [placed]
    have entered := wf.entered_main nonnull absent (not_not.2 taken)
    refine entered.join_main wf (funext fun j => ?_)
    rw [link, link, t.node_setNode mainLt]
    by_cases here : j = t.mainPosition hash key <;> simp [here]
  · by_cases inPlace : t.mainPosition hash (t.node (t.mainPosition hash key)).key =
        t.mainPosition hash key
    · have placed : t.place hash key = ((t.setNode t.firstfree
          { t.node t.firstfree with next := (t.node (t.mainPosition hash key)).next }).setNode
            (t.mainPosition hash key) { t.node (t.mainPosition hash key) with
              next := some t.firstfree }, t.firstfree) := by
        have ne : t.mainPosition hash key ≠ t.firstfree :=
          fun eq => taken (eq ▸ wf.free.1)
        unfold place
        simp only [taken, if_false, inPlace, ne_eq, not_true_eq_false, and_false]
        rw [t.node_setNode firstLt, if_neg ne]
      rw [placed]
      have ne : t.firstfree ≠ t.mainPosition hash key := fun eq => taken (eq ▸ wf.free.1)
      refine @Appended.joined hash t _ key (t.mainPosition hash key) ?_ wf
      refine wf.appended nonnull absent rfl taken inPlace (fun j => ?_) (by simp) rfl rfl
      simp (disch := simp [mainLt, firstLt]) only [node_setNode]
      by_cases isN : j = t.firstfree
      · simp [isN, ne]
      · simp [isN]
    · have walk : TransGen (Chain.Link t.link)
          (t.mainPosition hash (t.node (t.mainPosition hash key)).key)
          (t.mainPosition hash key) := by
        rcases reflTransGen_iff_eq_or_transGen.1 (wf.reach _ taken) with eq | far
        · exact absurd eq.symm inPlace
        · exact far
      have before := next_previous (wf.ends (wf.mainPosition_lt _)) walk
      have behind : t.firstfree < t.mainPosition hash key := wf.above _ _ before
      generalize named : t.previous (t.mainPosition hash key) t.nodes.length
        (t.mainPosition hash (t.node (t.mainPosition hash key)).key) = o at before
      have beforeLt := lt_of_link before
      have placed : t.place hash key =
          (((t.setNode o { t.node o with next := some t.firstfree }).setNode t.firstfree
            (t.node (t.mainPosition hash key))).setNode (t.mainPosition hash key) default,
          t.mainPosition hash key) := by
        unfold place
        simp only [taken, if_false, inPlace, ne_eq, not_false_eq_true, behind, and_true, if_true,
          named]
      rw [placed]
      refine @Displaced.joined hash t _ key (t.mainPosition hash key) o ?_ wf
      refine wf.displaced nonnull absent rfl taken inPlace before (fun j => ?_) (by simp) rfl rfl
      simp (disch := simp [mainLt, firstLt, beforeLt]) only [node_setNode]
      by_cases isMp : j = t.mainPosition hash key
      · simp [isMp]
      · simp [isMp]

/-! ## Values and free places -/

/-- The tables differ in nothing but values and counters. -/
structure SameShape (t t' : SQTable) : Prop where
  length : t'.nodes.length = t.nodes.length
  key : ∀ j, (t'.node j).key = (t.node j).key
  next : ∀ j, (t'.node j).next = (t.node j).next

theorem SameShape.used_iff (same : SameShape t t') (j : ℕ) : t'.Used j ↔ t.Used j := by
  rw [Used, Used, same.key]

theorem SameShape.link_eq (same : SameShape t t') : t'.link = t.link := funext same.next

theorem SameShape.used_eq (same : SameShape t t') : t'.used = t.used := by
  ext j
  rw [mem_used, mem_used, same.used_iff]

theorem SameShape.chained (same : SameShape t t') (chained : Chained hash t) :
    Chained hash t' := by
  have main : ∀ k, t'.mainPosition hash k = t.mainPosition hash k :=
    mainPosition_congr same.length
  refine ⟨?_, ?_, ?_, ?_, fun j => ?_, fun j k => ?_, fun j k => ?_⟩
  · rw [same.length]
    exact chained.size
  · rw [same.link_eq, same.length]
    exact chained.bounded
  · rw [same.link_eq]
    exact chained.separate
  · rw [same.link_eq]
    exact chained.acyclic
  · rw [same.used_iff, same.link_eq, main, same.key]
    exact chained.reach j
  · rw [same.used_iff, same.used_iff, main, main, same.key, same.key]
    exact chained.alone j k
  · rw [same.used_iff, same.key, same.key]
    exact chained.unique j k

theorem SameShape.wellFormed (same : SameShape t t') (first : t'.firstfree = t.firstfree)
    (number : t'.usednodes = t.usednodes) (wf : WellFormed hash t) : WellFormed hash t' := by
  refine ⟨same.chained wf.toChained, ?_, ?_, ?_, ?_⟩
  · rw [first, same.length]
    exact wf.firstfree_lt
  · rw [first]
    exact ⟨(same.key _).trans wf.free.1, (same.next _).trans wf.free.2⟩
  · rw [first, same.link_eq]
    exact wf.above
  · rw [number, same.used_eq]
    exact wf.count

/-- The table after a slot was given a value. -/
def Put (t t' : SQTable) (key val : SQObject) : Prop :=
  ∀ k v, k ≠ .null → (t'.Holds k v ↔ if k = key then v = val else t.Holds k v)

theorem setVal_shape {i : ℕ} (lt : i < t.nodes.length) (val : SQObject) :
    SameShape t (t.setNode i { t.node i with val := val }) := by
  refine ⟨t.length_setNode _ _, fun j => ?_, fun j => ?_⟩ <;>
  · rw [t.node_setNode lt]
    by_cases here : j = i <;> simp [here]

/-- Writing the value of the node that holds a key. -/
theorem Chained.setVal_put (chained : Chained hash t) (nonnull : key ≠ .null) {i : ℕ}
    (found : (t.node i).key = key) (val : SQObject) :
    Put t (t.setNode i { t.node i with val := val }) key val := by
  have used := used_of_key found nonnull
  intro k v nonnull'
  unfold Holds
  simp only [t.node_setNode used.lt]
  by_cases same : k = key
  · rw [if_pos same]
    refine ⟨?_, fun eq => ⟨i, ?_⟩⟩
    · rintro ⟨j, isKey, isVal⟩
      have here : j = i := by
        by_contra other
        rw [if_neg other] at isKey
        exact other (chained.unique i j used (found.trans (same.symm.trans isKey.symm))).symm
      rw [if_pos here] at isVal
      exact isVal.symm
    · simp [found, same, eq]
  · rw [if_neg same]
    refine exists_congr fun j => ?_
    by_cases here : j = i
    · subst here
      simp [found, Ne.symm same]
    · simp [here]

theorem freeFrom_eq_some {m f : ℕ} (found : t.freeFrom m = some f) :
    f ≤ m ∧ t.Free f ∧ ∀ j, f < j → j ≤ m → ¬ t.Free j := by
  induction m with
  | zero =>
    unfold freeFrom at found
    split at found
    · rename_i free
      obtain rfl := Option.some.inj found
      exact ⟨le_rfl, free, fun j lt le => by omega⟩
    · cases found
  | succ m ih =>
    unfold freeFrom at found
    split at found
    · rename_i free
      obtain rfl := Option.some.inj found
      exact ⟨le_rfl, free, fun j lt le => by omega⟩
    · rename_i taken
      obtain ⟨le, free, rest⟩ := ih found
      refine ⟨by omega, free, fun j lt le' => ?_⟩
      rcases Nat.lt_or_ge m j with top | below
      · obtain rfl : j = m + 1 := by omega
        exact taken
      · exact rest j lt below

theorem freeFrom_eq_none {m : ℕ} (missing : t.freeFrom m = none) : ∀ j ≤ m, ¬ t.Free j := by
  induction m with
  | zero =>
    intro j le free
    obtain rfl : j = 0 := by omega
    unfold freeFrom at missing
    split at missing
    · cases missing
    · rename_i taken
      exact taken free
  | succ m ih =>
    intro j le free
    unfold freeFrom at missing
    split at missing
    · cases missing
    · rename_i taken
      rcases Nat.lt_or_ge m j with top | below
      · obtain rfl : j = m + 1 := by omega
        exact taken free
      · exact ih missing j below free

/-! ## `NewSlot` -/

/-- A table that was filled without deletions: everything above the free place is used. -/
structure Packed (hash : SQObject → ℕ) (t : SQTable) : Prop extends WellFormed hash t where
  packed : ∀ i, t.firstfree < i → i < t.nodes.length → t.Used i
  plain : ∀ i, ¬ t.Used i → t.link i = none

theorem Joined.card_used {slot : ℕ} (joined : Joined hash t t' key slot) :
    t'.used.card = t.used.card + 1 := by
  obtain ⟨fresh, unused, used⟩ := joined.one
  have eq : t'.used = insert fresh t.used := by
    ext j
    rw [mem_used, used, Finset.mem_insert, mem_used, or_comm]
  rw [eq, Finset.card_insert_of_notMem (by rwa [mem_used])]

/-- The key has its value and the free place has been found. -/
theorem Joined.wellFormed {slot f : ℕ} (joined : Joined hash t t' key slot)
    (wf : WellFormed hash t) (nonnull : key ≠ .null) (val : SQObject)
    (found : t'.freeFrom t'.firstfree = some f) :
    let t'' : SQTable := { t'.setNode slot { t'.node slot with val := val } with
      firstfree := f, usednodes := t'.usednodes + 1 }
    WellFormed hash t'' ∧ SameShape t' t'' ∧ Put t t'' key val := by
  intro t''
  have slotLt := (used_of_key joined.slot nonnull).lt
  have written := setVal_shape slotLt val
  have same : SameShape t' t'' := ⟨written.length, written.key, written.next⟩
  obtain ⟨le, free, -⟩ := freeFrom_eq_some found
  refine ⟨⟨same.chained joined.chained, ?_, ?_, fun i j linked => ?_, ?_⟩, same, ?_⟩
  · show f < t''.nodes.length
    rw [same.length, joined.length]
    rw [joined.firstfree] at le
    exact lt_of_le_of_lt le wf.firstfree_lt
  · exact ⟨(same.key f).trans free.1, (same.next f).trans free.2⟩
  · show f < j
    rw [joined.firstfree] at le
    rw [same.link_eq] at linked
    rcases joined.above i j linked with above | ⟨eq, used⟩
    · omega
    · have other : f ≠ j := by
        rintro rfl
        exact used free.1
      omega
  · show t'.usednodes + 1 = t''.used.card
    rw [same.used_eq, joined.card_used, joined.usednodes, wf.count]
  · intro k v nonnull'
    have put := joined.chained.setVal_put nonnull joined.slot val k v nonnull'
    have holds : t''.Holds k v ↔
        (t'.setNode slot { t'.node slot with val := val }).Holds k v := Iff.rfl
    rw [holds, put]
    by_cases isKey : k = key
    · rw [if_pos isKey, if_pos isKey]
    · rw [if_neg isKey, if_neg isKey, joined.others k v isKey nonnull']

section TryNewSlot

variable (wf : WellFormed hash t) (nonnull : key ≠ .null) (val : SQObject)

include wf nonnull

/-- A key that is there gets its value. -/
theorem WellFormed.tryNewSlot_present {i : ℕ} (found : (t.node i).key = key) :
    (t.tryNewSlot hash key val).2 = false ∧ WellFormed hash (t.tryNewSlot hash key val).1 ∧
      SameShape t (t.tryNewSlot hash key val).1 ∧ Put t (t.tryNewSlot hash key val).1 key val := by
  have here := (wf.find_eq_some_iff nonnull).2 found
  have lt := (used_of_key found nonnull).lt
  have same := setVal_shape lt val
  have eq : t.tryNewSlot hash key val = (t.setNode i { t.node i with val := val }, false) := by
    unfold tryNewSlot
    rw [here]
  rw [eq]
  exact ⟨rfl, same.wellFormed rfl rfl wf, same, wf.setVal_put nonnull found val⟩

/-- A key that is not there gets a node. Either a free place is left, and then the table is well
formed and has one slot more, or the table with its new key is full. -/
theorem WellFormed.tryNewSlot_absent (absent : ∀ i, (t.node i).key ≠ key) :
    ∃ slot joined, Joined hash t joined key slot ∧
      ((∃ f, joined.freeFrom joined.firstfree = some f ∧ t.tryNewSlot hash key val =
          ({ joined.setNode slot { joined.node slot with val := val } with
            firstfree := f, usednodes := joined.usednodes + 1 }, false)) ∨
        joined.freeFrom joined.firstfree = none ∧
          t.tryNewSlot hash key val = ({ joined with firstfree := 0 }, true)) := by
  have missing := (wf.find_eq_none_iff nonnull).2 absent
  refine ⟨_, _, wf.place_joined nonnull absent, ?_⟩
  unfold tryNewSlot
  rw [missing]
  cases found : SQTable.freeFrom ((t.place hash key).1.setNode (t.place hash key).2
      { (t.place hash key).1.node (t.place hash key).2 with key := key })
      ((t.place hash key).1.setNode (t.place hash key).2
        { (t.place hash key).1.node (t.place hash key).2 with key := key }).firstfree with
  | some f =>
    refine .inl ⟨f, rfl, ?_⟩
    simp only [found]
    rfl
  | none =>
    refine .inr ⟨rfl, ?_⟩
    simp only [found]

end TryNewSlot

/-- A table that was filled without deletions has room as long as a node is not used. -/
theorem Packed.tryNewSlot (packed : Packed hash t) (nonnull : key ≠ .null) (val : SQObject)
    (absent : ∀ i, (t.node i).key ≠ key) (room : t.used.card + 1 < t.nodes.length) :
    Packed hash (t.tryNewSlot hash key val).1 ∧
      (t.tryNewSlot hash key val).1.nodes.length = t.nodes.length ∧
      (t.tryNewSlot hash key val).1.used.card = t.used.card + 1 ∧
      Put t (t.tryNewSlot hash key val).1 key val := by
  have wf := packed.toWellFormed
  obtain ⟨slot, joined, join, ⟨f, found, eq⟩ | ⟨full, eq⟩⟩ :=
    wf.tryNewSlot_absent nonnull val absent
  · obtain ⟨wf', same, put⟩ := join.wellFormed wf nonnull val found
    obtain ⟨le, free, between⟩ := freeFrom_eq_some found
    have plain := join.plain packed.plain
    obtain ⟨fresh, -, used⟩ := join.one
    rw [eq]
    refine ⟨⟨wf', fun i above lt => ?_, fun i unused => ?_⟩, ?_, ?_, put⟩
    · rw [same.used_iff]
      by_contra unused
      have notFree : ¬ joined.Free i := by
        rcases Nat.lt_or_ge joined.firstfree i with high | low
        · intro _
          have before : t.Used i := packed.packed i (by rw [← join.firstfree]; exact high)
            (by rw [same.length, join.length] at lt; exact lt)
          exact unused ((used i).2 (.inl before))
        · exact between i above low
      exact notFree ⟨not_not.1 unused, plain i unused⟩
    · rw [same.link_eq]
      exact plain i fun used' => unused ((same.used_iff i).2 used')
    · rw [same.length, join.length]
    · rw [same.used_eq, join.card_used]
  · -- no free place: every node is used, which leaves no room
    have plain := join.plain packed.plain
    obtain ⟨fresh, -, used⟩ := join.one
    have all : Finset.range t.nodes.length ⊆ joined.used := by
      intro i lt
      rw [mem_used]
      by_contra unused
      rcases Nat.lt_or_ge joined.firstfree i with high | low
      · have before : t.Used i := packed.packed i (by rw [← join.firstfree]; exact high)
          (Finset.mem_range.1 lt)
        exact unused ((used i).2 (.inl before))
      · exact freeFrom_eq_none full i low ⟨not_not.1 unused, plain i unused⟩
    have size := Finset.card_le_card all
    rw [Finset.card_range, join.card_used] at size
    omega

/-! ## `Rehash` -/

theorem node_allocNodes (size i : ℕ) : (allocNodes size).node i = default := by
  rw [node, allocNodes]
  by_cases lt : i < size
  · rw [List.getD_eq_getElem _ _ (by simpa using lt), List.getElem_replicate]
  · exact List.getD_eq_default _ _ (by simpa using lt)

/-- A fresh array has no slots. -/
theorem packed_allocNodes (hash : SQObject → ℕ) {size : ℕ} (power : ∃ k, size = 2 ^ (k + 2)) :
    Packed hash (allocNodes size) := by
  have length : (allocNodes size).nodes.length = size := List.length_replicate
  have unused : ∀ i, ¬ (allocNodes size).Used i := by
    intro i
    rw [Used, node_allocNodes]
    exact not_not.2 rfl
  have noLinks : (allocNodes size).link = fun _ => none := by
    funext i
    rw [link, node_allocNodes]
    rfl
  have positive : 0 < size := by
    obtain ⟨k, rfl⟩ := power
    exact Nat.two_pow_pos _
  refine ⟨⟨⟨?_, ?_, ?_, ?_, fun i used => absurd used (unused i),
    fun i j used => absurd used (unused i), fun i j used => absurd used (unused i)⟩, ?_, ?_, ?_,
    ?_⟩, fun i above lt => ?_, fun i _ => ?_⟩
  · rw [length]
    exact power
  · rw [noLinks]
    intro i j linked
    cases linked
  · rw [noLinks]
    intro i j k linked
    cases linked
  · rw [noLinks]
    intro i cycle
    obtain ⟨j, linked, -⟩ := TransGen.head'_iff.1 cycle
    cases linked
  · rw [length]
    show size - 1 < size
    omega
  · rw [Free, node_allocNodes]
    exact ⟨rfl, rfl⟩
  · rw [noLinks]
    intro i j linked
    cases linked
  · show 0 = (allocNodes size).used.card
    rw [eq_comm, Finset.card_eq_zero]
    apply Finset.eq_empty_of_forall_notMem
    intro i mem
    exact unused i (mem_used.1 mem)
  · rw [length] at lt
    have above' : size - 1 < i := above
    omega
  · rw [noLinks]

/-- The nodes of a list that hold slots. -/
def slots (nodes : List HashNode) : ℕ := nodes.countP fun n => n.key ≠ .null

/-- No two nodes of the list hold the same key. -/
def Distinct (nodes : List HashNode) : Prop :=
  nodes.Pairwise fun a b => a.key ≠ .null → a.key ≠ b.key

/-- Filling a table with slots it does not have. -/
theorem Packed.insertAll (packed : Packed hash t) {nodes : List HashNode}
    (distinct : Distinct nodes)
    (absent : ∀ n ∈ nodes, n.key ≠ .null → ∀ i, (t.node i).key ≠ n.key)
    (room : t.used.card + slots nodes < t.nodes.length) :
    Packed hash (t.insertAll hash nodes) ∧
      (t.insertAll hash nodes).nodes.length = t.nodes.length ∧
      (t.insertAll hash nodes).used.card = t.used.card + slots nodes ∧
      ∀ k v, k ≠ .null → ((t.insertAll hash nodes).Holds k v ↔
        (∃ n ∈ nodes, n.key = k ∧ n.val = v) ∨ t.Holds k v) := by
  induction nodes generalizing t with
  | nil => exact ⟨packed, rfl, rfl, fun k v _ => by simp [SQTable.insertAll]⟩
  | cons n nodes ih =>
    obtain ⟨first, rest⟩ := List.pairwise_cons.1 distinct
    have step : t.insertAll hash (n :: nodes) =
        (if n.key = .null then t else (t.tryNewSlot hash n.key n.val).1).insertAll hash nodes := rfl
    rw [step]
    by_cases null : n.key = .null
    · rw [if_pos null]
      have fewer : slots (n :: nodes) = slots nodes := by simp [slots, null]
      rw [fewer] at room ⊢
      obtain ⟨packed', length, card, holds⟩ :=
        ih packed rest (fun m mem => absent m (List.mem_cons_of_mem _ mem)) room
      refine ⟨packed', length, card, fun k v nonnull => ?_⟩
      rw [holds k v nonnull]
      simp [null, nonnull.symm]
    · rw [if_neg null]
      have more : slots (n :: nodes) = slots nodes + 1 := by simp [slots, null]
      rw [more] at room ⊢
      have missing := absent n List.mem_cons_self null
      obtain ⟨packed', length, card, put⟩ :=
        packed.tryNewSlot null n.val missing (by omega)
      have absent' : ∀ m ∈ nodes, m.key ≠ .null → ∀ i,
          ((t.tryNewSlot hash n.key n.val).1.node i).key ≠ m.key := by
        intro m mem nonnull i isKey
        have other : m.key ≠ n.key := (first m mem null).symm
        have holds := (put m.key _ nonnull).1 ⟨i, isKey, rfl⟩
        rw [if_neg other] at holds
        obtain ⟨j, isKey', -⟩ := holds
        exact absent m (List.mem_cons_of_mem _ mem) nonnull j isKey'
      obtain ⟨packed'', length', card', holds⟩ := ih packed' rest absent' (by omega)
      refine ⟨packed'', length'.trans length, by omega, fun k v nonnull => ?_⟩
      rw [holds k v nonnull, put k v nonnull]
      by_cases isKey : k = n.key
      · have notHeld : ¬ t.Holds k v := fun ⟨j, isKey', _⟩ => missing j (isKey'.trans isKey)
        have notLater : ∀ m ∈ nodes, m.key ≠ k := fun m mem eq =>
          first m mem null (eq.trans isKey).symm
        rw [if_pos isKey]
        constructor
        · rintro (⟨m, mem, isKey', -⟩ | eq)
          · exact absurd isKey' (notLater m mem)
          · exact .inl ⟨n, List.mem_cons_self, isKey.symm, eq.symm⟩
        · rintro (⟨m, mem, isKey', isVal⟩ | held)
          · rcases List.mem_cons.1 mem with rfl | later
            · exact .inr isVal.symm
            · exact absurd isKey' (notLater m later)
          · exact absurd held notHeld
      · rw [if_neg isKey]
        simp [Ne.symm isKey]

/-- What `Rehash` needs of a table: it may be full, and one slot may not have been counted yet. -/
structure Rehashable (t : SQTable) : Prop where
  size : ∃ k, t.nodes.length = 2 ^ (k + 2)
  unique : ∀ i j, t.Used i → (t.node i).key = (t.node j).key → i = j
  count : t.used.card ≤ t.usednodes + 1

theorem node_eq_getElem {i : ℕ} (lt : i < t.nodes.length) : t.node i = t.nodes[i] :=
  List.getD_eq_getElem _ _ lt

theorem Rehashable.distinct (rehashable : Rehashable t) : Distinct t.nodes := by
  rw [Distinct, List.pairwise_iff_getElem]
  intro i j lt lt' before nonnull eq
  rw [← node_eq_getElem lt, ← node_eq_getElem lt'] at eq
  rw [← node_eq_getElem lt] at nonnull
  exact absurd (rehashable.unique i j nonnull eq) (by omega)

theorem card_used (t : SQTable) : t.used.card = slots t.nodes := by
  have listed : t.nodes = (List.range t.nodes.length).map t.node := by
    apply List.ext_getElem (by simp)
    intro i lt lt'
    rw [List.getElem_map, List.getElem_range, node_eq_getElem lt]
  have counted : t.used.card = ((List.range t.nodes.length).filter fun i => t.Used i).length := rfl
  rw [counted, ← List.countP_eq_length_filter, slots]
  conv_rhs => rw [listed, List.countP_map]
  rfl

theorem holds_iff_mem (t : SQTable) {k v : SQObject} (nonnull : k ≠ .null) :
    (∃ n ∈ t.nodes, n.key = k ∧ n.val = v) ↔ t.Holds k v := by
  constructor
  · rintro ⟨n, mem, isKey, isVal⟩
    obtain ⟨i, lt, rfl⟩ := List.getElem_of_mem mem
    rw [← node_eq_getElem lt] at isKey isVal
    exact ⟨i, isKey, isVal⟩
  · rintro ⟨i, isKey, isVal⟩
    have lt := (used_of_key isKey nonnull).lt
    rw [node_eq_getElem lt] at isKey isVal
    exact ⟨_, List.getElem_mem lt, isKey, isVal⟩

theorem card_used_le (t : SQTable) : t.used.card ≤ t.nodes.length := by
  rw [card_used]
  exact List.countP_le_length

/-- The fresh array is large enough for the slots, with a place to spare. -/
theorem Rehashable.room (rehashable : Rehashable t) {force : Bool} {size : ℕ}
    (chosen : t.rehashSize force = some size) :
    (∃ k, size = 2 ^ (k + 2)) ∧ t.used.card < size := by
  obtain ⟨k, length⟩ := rehashable.size
  have count := rehashable.count
  have most := t.card_used_le
  have four : t.nodes.length = 4 * 2 ^ k := by
    rw [length, pow_add]
    omega
  have positive : 0 < 2 ^ k := Nat.two_pow_pos k
  have oldsize : max t.nodes.length 4 = t.nodes.length := by omega
  unfold rehashSize countUsed at chosen
  simp only [oldsize] at chosen
  by_cases crowded : t.nodes.length - t.nodes.length / 4 ≤ t.usednodes
  · rw [if_pos crowded] at chosen
    obtain rfl := Option.some.inj chosen
    refine ⟨⟨k + 1, ?_⟩, by omega⟩
    rw [length, pow_succ 2 (k + 2)]
  · rw [if_neg crowded] at chosen
    by_cases sparse : t.usednodes ≤ t.nodes.length / 4 ∧ minPower2 < t.nodes.length
    · rw [if_pos sparse] at chosen
      obtain rfl := Option.some.inj chosen
      have large : 4 < t.nodes.length := sparse.2
      obtain ⟨j, rfl⟩ : ∃ j, k = j + 1 := by
        cases k with
        | zero => omega
        | succ j => exact ⟨j, rfl⟩
      have twice : 2 ^ (j + 1) = 2 * 2 ^ j := by rw [pow_succ, mul_comm]
      have positive' : 0 < 2 ^ j := Nat.two_pow_pos j
      refine ⟨⟨j, ?_⟩, by omega⟩
      rw [pow_add]
      omega
    · rw [if_neg sparse] at chosen
      cases force with
      | false => simp at chosen
      | true =>
        simp only [if_true, Option.some.injEq] at chosen
        subst chosen
        exact ⟨⟨k, length⟩, by omega⟩

/-- `Rehash` moves the slots into a fresh array. -/
theorem Rehashable.rehash (rehashable : Rehashable t) (hash : SQObject → ℕ) {force : Bool}
    {size : ℕ}
    (chosen : t.rehashSize force = some size) :
    Packed hash (t.rehash hash force) ∧ (t.rehash hash force).used.card = t.used.card ∧
      ∀ k v, k ≠ .null → ((t.rehash hash force).Holds k v ↔ t.Holds k v) := by
  obtain ⟨power, room⟩ := rehashable.room chosen
  have fresh := packed_allocNodes hash power
  have empty : (allocNodes size).used.card = 0 := fresh.count.symm
  have eq : t.rehash hash force = (allocNodes size).insertAll hash t.nodes := by
    unfold SQTable.rehash
    rw [chosen]
  have absent : ∀ n ∈ t.nodes, n.key ≠ .null → ∀ i, ((allocNodes size).node i).key ≠ n.key := by
    intro n _ nonnull i isKey
    rw [node_allocNodes] at isKey
    exact nonnull isKey.symm
  have length : (allocNodes size).nodes.length = size := List.length_replicate
  obtain ⟨packed, -, card, holds⟩ := fresh.insertAll rehashable.distinct absent
    (by rw [empty, ← card_used, length]; omega)
  rw [eq]
  refine ⟨packed, by rw [card, empty, ← card_used]; omega, fun k v nonnull => ?_⟩
  rw [holds k v nonnull, t.holds_iff_mem nonnull]
  refine or_iff_left ?_
  rintro ⟨i, isKey, -⟩
  rw [node_allocNodes] at isKey
  exact nonnull isKey.symm

/-- `Rehash` allocates when it is forced to. -/
theorem rehashSize_of_force (t : SQTable) : ∃ size, t.rehashSize true = some size := by
  unfold rehashSize
  dsimp only
  split
  · exact ⟨_, rfl⟩
  · split <;> exact ⟨_, rfl⟩

/-! ## The operations -/

/-- Without a free place the slots move into a fresh array, where the new key has its node. -/
theorem Joined.rehash_full {joined : SQTable} {slot : ℕ} (join : Joined hash t joined key slot)
    (wf : WellFormed hash t) (nonnull : key ≠ .null) :
    Packed hash (rehash hash { joined with firstfree := 0 } true) ∧
      (∃ i, ((rehash hash { joined with firstfree := 0 } true).node i).key = key) ∧
      ∀ k v, k ≠ key → k ≠ .null →
        ((rehash hash { joined with firstfree := 0 } true).Holds k v ↔ t.Holds k v) := by
  have rehashable : Rehashable { joined with firstfree := 0 } :=
    ⟨join.chained.size, join.chained.unique, by
      show joined.used.card ≤ joined.usednodes + 1
      rw [join.card_used, join.usednodes, wf.count]⟩
  obtain ⟨size, chosen⟩ := rehashSize_of_force { joined with firstfree := 0 }
  obtain ⟨packed, -, holds⟩ := rehashable.rehash hash chosen
  obtain ⟨i, isKey, -⟩ := (holds key _ nonnull).2 ⟨slot, join.slot, rfl⟩
  exact ⟨packed, ⟨i, isKey⟩, fun k v other notNull =>
    (holds k v notNull).trans (join.others k v other notNull)⟩

/-- `NewSlot` gives the key its value and changes no other slot; the slots are counted. -/
theorem WellFormed.newSlot (wf : WellFormed hash t) (nonnull : key ≠ .null) (val : SQObject) :
    WellFormed hash (t.newSlot hash key val) ∧ Put t (t.newSlot hash key val) key val := by
  by_cases present : ∃ i, (t.node i).key = key
  · obtain ⟨i, found⟩ := present
    obtain ⟨flag, wf', -, put⟩ := wf.tryNewSlot_present nonnull val found
    unfold SQTable.newSlot
    simp only [flag]
    exact ⟨wf', put⟩
  · have absent : ∀ i, (t.node i).key ≠ key := fun i eq => present ⟨i, eq⟩
    obtain ⟨slot, joined, join, ⟨f, found, eq⟩ | ⟨full, eq⟩⟩ :=
      wf.tryNewSlot_absent nonnull val absent
    · obtain ⟨wf', -, put⟩ := join.wellFormed wf nonnull val found
      unfold SQTable.newSlot
      rw [eq]
      exact ⟨wf', put⟩
    · obtain ⟨packed, ⟨i, isKey⟩, others⟩ := join.rehash_full wf nonnull
      obtain ⟨-, wf', -, put⟩ := packed.toWellFormed.tryNewSlot_present nonnull val isKey
      have retried : t.newSlot hash key val =
          ((rehash hash { joined with firstfree := 0 } true).tryNewSlot hash key val).1 := by
        unfold SQTable.newSlot
        rw [eq]
        rfl
      rw [retried]
      refine ⟨wf', fun k v nonnull' => ?_⟩
      rw [put k v nonnull']
      by_cases same : k = key
      · rw [if_pos same, if_pos same]
      · rw [if_neg same, if_neg same]
        exact others k v same nonnull'

/-- `NewSlot` says that a slot has been created when the key had none, unless no free place was
left. -/
theorem WellFormed.newSlotResult_iff (wf : WellFormed hash t) (nonnull : key ≠ .null)
    (val : SQObject) : t.newSlotResult hash key val = true ↔
      (∀ i, (t.node i).key ≠ key) ∧ (t.tryNewSlot hash key val).2 = false := by
  unfold newSlotResult
  by_cases present : ∃ i, (t.node i).key = key
  · obtain ⟨i, found⟩ := present
    have flag := (wf.tryNewSlot_present nonnull val found).1
    simp only [flag, (wf.find_eq_some_iff nonnull).2 found]
    exact ⟨nofun, fun both => absurd found (both.1 i)⟩
  · have absent : ∀ i, (t.node i).key ≠ key := fun i eq => present ⟨i, eq⟩
    obtain ⟨slot, joined, join, ⟨f, found, eq⟩ | ⟨full, eq⟩⟩ :=
      wf.tryNewSlot_absent nonnull val absent
    · rw [eq, (wf.find_eq_none_iff nonnull).2 absent]
      exact ⟨fun _ => ⟨absent, rfl⟩, fun _ => rfl⟩
    · obtain ⟨packed, ⟨i, isKey⟩, -⟩ := join.rehash_full wf nonnull
      simp only [eq, (packed.toWellFormed.find_eq_some_iff nonnull).2 isKey]
      exact ⟨nofun, fun both => nomatch both.2⟩

/-- `NewSlot` overwrites the value of a key that is there. -/
theorem WellFormed.newSlot_present (wf : WellFormed hash t) (nonnull : key ≠ .null)
    (val : SQObject) {i : ℕ} (found : (t.node i).key = key) :
    SameShape t (t.newSlot hash key val) := by
  obtain ⟨flag, -, same, -⟩ := wf.tryNewSlot_present nonnull val found
  unfold SQTable.newSlot
  simp only [flag]
  exact same

/-- Tables with the same keys have the same number of slots. -/
theorem WellFormed.countUsed_eq (wf : WellFormed hash t) (wf' : WellFormed hash t')
    (same : SameShape t t') : t'.countUsed = t.countUsed := by
  rw [countUsed, countUsed, wf.count, wf'.count, same.used_eq]

/-- `Set` does not fail on what the search finds. -/
theorem set_of_find {i : ℕ} (found : t.find hash key = some i) (val : SQObject) :
    ∃ t', t.set hash key val = some t' := by
  rw [SQTable.set, found]
  exact ⟨_, rfl⟩

/-- `Set` writes a value and nothing else. -/
theorem WellFormed.set (wf : WellFormed hash t) {val : SQObject}
    (done : t.set hash key val = some t') : WellFormed hash t' ∧ SameShape t t' := by
  obtain ⟨i, found, rfl⟩ := Option.map_eq_some_iff.1 done
  have same := setVal_shape (wf.lt_of_find found) val
  exact ⟨same.wellFormed rfl rfl wf, same⟩

/-- `Set` writes the slot of a key that is there. -/
theorem WellFormed.set_put (wf : WellFormed hash t) (nonnull : key ≠ .null) {val : SQObject}
    (done : t.set hash key val = some t') : Put t t' key val := by
  obtain ⟨i, found, rfl⟩ := Option.map_eq_some_iff.1 done
  exact wf.setVal_put nonnull ((wf.find_eq_some_iff nonnull).1 found) val

/-- The table after a slot was deleted. -/
def Dropped (t t' : SQTable) (key : SQObject) : Prop :=
  ∀ k v, k ≠ .null → (t'.Holds k v ↔ k ≠ key ∧ t.Holds k v)

/-- The node of a key is emptied and keeps its place in the chain. -/
theorem WellFormed.empty (wf : WellFormed hash t) (nonnull : key ≠ .null) {i : ℕ}
    (found : (t.node i).key = key) :
    let t' : SQTable := { t.setNode i { t.node i with key := .null, val := .null } with
      usednodes := t.usednodes - 1 }
    WellFormed hash t' ∧ Dropped t t' key := by
  intro t'
  have used := used_of_key found nonnull
  have nodes : ∀ j, t'.node j = if j = i then { t.node i with key := .null, val := .null }
      else t.node j := t.node_setNode used.lt _
  have length : t'.nodes.length = t.nodes.length := t.length_setNode _ _
  have links : t'.link = t.link := by
    funext j
    rw [link, link, nodes j]
    by_cases here : j = i <;> simp [here]
  have usedIff : ∀ j, t'.Used j ↔ t.Used j ∧ j ≠ i := by
    intro j
    rw [Used, Used, nodes j]
    by_cases here : j = i <;> simp [here]
  have keys : ∀ j, t'.Used j → (t'.node j).key = (t.node j).key := by
    intro j used'
    rw [nodes j, if_neg ((usedIff j).1 used').2]
  have main : ∀ k, t'.mainPosition hash k = t.mainPosition hash k := mainPosition_congr length
  refine ⟨⟨⟨?_, ?_, ?_, ?_, ?_, ?_, ?_⟩, ?_, ?_, ?_, ?_⟩, ?_⟩
  · rw [length]
    exact wf.size
  · rw [links, length]
    exact wf.bounded
  · rw [links]
    exact wf.separate
  · rw [links]
    exact wf.acyclic
  · intro j used'
    rw [links, main, keys j used']
    exact wf.reach j ((usedIff j).1 used').1
  · intro j k used' out used''
    rw [main, keys j used'] at out
    rw [main, keys k used'']
    exact wf.alone j k ((usedIff j).1 used').1 out ((usedIff k).1 used'').1
  · intro j k used' eq
    have used'' : t'.Used k := by
      rw [Used, ← eq]
      exact used'
    rw [keys j used', keys k used''] at eq
    exact wf.unique j k ((usedIff j).1 used').1 eq
  · rw [length]
    exact wf.firstfree_lt
  · have other : t.firstfree ≠ i := fun eq => wf.unused_firstfree (eq ▸ used)
    show t'.Free t.firstfree
    rw [Free, nodes, if_neg other]
    exact wf.free
  · rw [links]
    exact wf.above
  · have erased : t'.used = t.used.erase i := by
      ext j
      rw [mem_used, usedIff, Finset.mem_erase, mem_used, and_comm]
    show t.usednodes - 1 = t'.used.card
    rw [erased, Finset.card_erase_of_mem (mem_used.2 used), wf.count]
  · intro k v nonnull'
    constructor
    · rintro ⟨j, isKey, isVal⟩
      have used' : t'.Used j := used_of_key isKey nonnull'
      have other := ((usedIff j).1 used').2
      rw [nodes j, if_neg other] at isKey isVal
      refine ⟨fun eq => ?_, j, isKey, isVal⟩
      exact other (wf.unique i j used (found.trans (eq.symm.trans isKey.symm))).symm
    · rintro ⟨ne, j, isKey, isVal⟩
      have other : j ≠ i := by
        rintro rfl
        exact ne (isKey.symm.trans found)
      refine ⟨j, ?_, ?_⟩
      · rw [nodes j, if_neg other, isKey]
      · rw [nodes j, if_neg other, isVal]

theorem WellFormed.rehashable (wf : WellFormed hash t) : Rehashable t :=
  ⟨wf.size, wf.unique, by rw [wf.count]; omega⟩

theorem rehash_of_none (hash : SQObject → ℕ) {force : Bool} (stays : t.rehashSize force = none) :
    t.rehash hash force = t := by
  unfold rehash
  rw [stays]

/-- `Remove` deletes the slot and changes no other. -/
theorem WellFormed.remove (wf : WellFormed hash t) (nonnull : key ≠ .null) :
    WellFormed hash (t.remove hash key) ∧ Dropped t (t.remove hash key) key := by
  cases found : t.find hash key with
  | none =>
    have eq : t.remove hash key = t := by
      unfold SQTable.remove
      rw [found]
    rw [eq]
    refine ⟨wf, fun k v _ => ⟨fun held => ⟨?_, held⟩, fun both => both.2⟩⟩
    rintro rfl
    obtain ⟨i, isKey, -⟩ := held
    exact (wf.find_eq_none_iff nonnull).1 found i isKey
  | some i =>
    obtain ⟨wf', dropped⟩ := wf.empty nonnull ((wf.find_eq_some_iff nonnull).1 found)
    have eq : t.remove hash key = rehash hash { t.setNode i { t.node i with
        key := .null, val := .null } with usednodes := t.usednodes - 1 } false := by
      unfold SQTable.remove
      rw [found]
      rfl
    rw [eq]
    cases chosen : rehashSize { t.setNode i { t.node i with key := .null, val := .null } with
        usednodes := t.usednodes - 1 } false with
    | none =>
      rw [rehash_of_none hash chosen]
      exact ⟨wf', dropped⟩
    | some size =>
      obtain ⟨packed, -, holds⟩ := wf'.rehashable.rehash hash chosen
      refine ⟨packed.toWellFormed, fun k v nonnull' => ?_⟩
      rw [holds k v nonnull']
      exact dropped k v nonnull'

/-- The doubling sequence stays among the powers of two. -/
theorem pow2size_power {initialSize fuel size : ℕ} (power : ∃ k, size = 2 ^ (k + 2)) :
    ∃ k, pow2size initialSize fuel size = 2 ^ (k + 2) := by
  induction fuel generalizing size with
  | zero => exact power
  | succ fuel ih =>
    unfold pow2size
    split
    · obtain ⟨k, rfl⟩ := power
      exact ih ⟨k + 1, by rw [pow_succ 2 (k + 2)]⟩
    · exact power

/-- A new table is well formed and has no slots. -/
theorem wellFormed_create (hash : SQObject → ℕ) (initialSize : ℕ) :
    WellFormed hash (create initialSize) :=
  (packed_allocNodes hash (pow2size_power ⟨0, rfl⟩)).toWellFormed

/-- A new table has at least the nodes that were asked for. -/
theorem le_pow2size {initialSize fuel size : ℕ} (positive : 0 < size)
    (enough : initialSize ≤ size + fuel) : initialSize ≤ pow2size initialSize fuel size := by
  induction fuel generalizing size with
  | zero => exact enough
  | succ fuel ih =>
    unfold pow2size
    split
    · exact ih (by omega) (by omega)
    · omega

theorem not_holds_allocNodes {size : ℕ} {k v : SQObject} (nonnull : k ≠ .null) :
    ¬ (allocNodes size).Holds k v := by
  rintro ⟨i, isKey, -⟩
  rw [node_allocNodes] at isKey
  exact nonnull isKey.symm

/-- `Clear` leaves a table without slots. -/
theorem WellFormed.clear (wf : WellFormed hash t) :
    WellFormed hash (t.clear hash) ∧ ∀ k v, k ≠ .null → ¬ (t.clear hash).Holds k v := by
  have empty : ∀ (i : ℕ) (n : ℕ) (f : ℕ), (SQTable.node ⟨t.nodes.map fun n =>
      { n with key := .null, val := .null }, f, n⟩ i).key = .null := by
    intro i n f
    unfold node
    rw [List.getD_eq_getElem?_getD, List.getElem?_map]
    cases t.nodes[i]? <;> rfl
  have unused : (SQTable.used ⟨t.nodes.map fun n =>
      { n with key := .null, val := .null }, t.firstfree, 0⟩).card = 0 := by
    rw [Finset.card_eq_zero, Finset.eq_empty_iff_forall_notMem]
    intro i mem
    exact mem_used.1 mem (empty i _ _)
  have rehashable : Rehashable ⟨t.nodes.map fun n =>
      { n with key := .null, val := .null }, t.firstfree, 0⟩ := by
    refine ⟨?_, fun i j used => absurd (empty i _ _) used, by rw [unused]; omega⟩
    rw [List.length_map]
    exact wf.size
  obtain ⟨size, chosen⟩ := rehashSize_of_force ⟨t.nodes.map fun n =>
      { n with key := .null, val := .null }, t.firstfree, 0⟩
  obtain ⟨packed, -, holds⟩ := rehashable.rehash hash chosen
  refine ⟨packed.toWellFormed, fun k v nonnull held => ?_⟩
  obtain ⟨i, isKey, -⟩ := (holds k v nonnull).1 held
  exact nonnull (isKey.symm.trans (empty i _ _))

/-- `Clone` copies the slots. -/
theorem WellFormed.clone (wf : WellFormed hash t) :
    WellFormed hash (t.clone hash) ∧ ∀ k v, k ≠ .null →
    ((t.clone hash).Holds k v ↔ t.Holds k v) := by
  have fresh : Packed hash (create t.nodes.length) :=
    packed_allocNodes hash (pow2size_power ⟨0, rfl⟩)
  have empty : (create t.nodes.length).used.card = 0 := fresh.count.symm
  have absent : ∀ n ∈ t.nodes, n.key ≠ .null →
      ∀ i, ((create t.nodes.length).node i).key ≠ n.key := by
    intro n _ nonnull i isKey
    exact not_holds_allocNodes nonnull ⟨i, isKey, rfl⟩
  -- the free place is not used, so there are fewer slots than nodes
  have fewer : slots t.nodes < t.nodes.length := by
    rw [← card_used]
    have within : t.used ⊆ Finset.range t.nodes.length := Finset.filter_subset _ _
    have some : t.used ⊂ Finset.range t.nodes.length := by
      rw [Finset.ssubset_iff_of_subset within]
      refine ⟨t.firstfree, Finset.mem_range.2 wf.firstfree_lt, fun mem => ?_⟩
      exact wf.unused_firstfree (mem_used.1 mem)
    simpa using Finset.card_lt_card some
  have size : t.nodes.length ≤ (create t.nodes.length).nodes.length := by
    show _ ≤ (List.replicate _ _).length
    rw [List.length_replicate]
    exact le_pow2size (by decide) (by omega)
  obtain ⟨packed, -, -, holds⟩ := fresh.insertAll wf.rehashable.distinct absent
    (by rw [empty]; omega)
  refine ⟨packed.toWellFormed, fun k v nonnull => ?_⟩
  show ((create t.nodes.length).insertAll hash t.nodes).Holds k v ↔ _
  rw [holds k v nonnull, t.holds_iff_mem nonnull]
  exact or_iff_left (not_holds_allocNodes nonnull)

/-! ## Enumeration -/

/-- The nodes that hold slots, in the order of the array. -/
def entries (t : SQTable) : List HashNode := t.nodes.filter fun n => n.key ≠ .null

/-- The position is behind the first `k` entries. -/
def Behind (t : SQTable) (k p : ℕ) : Prop :=
  (t.nodes.drop p).filter (fun n => n.key ≠ .null) = t.entries.drop k

theorem behind_zero (t : SQTable) : t.Behind 0 0 := rfl

theorem filter_of_findIdx {nodes : List HashNode} {p : HashNode → Bool} :
    match nodes.findIdx? p with
    | none => nodes.filter p = []
    | some i => nodes.filter p = nodes.getD i default :: (nodes.drop (i + 1)).filter p := by
  induction nodes with
  | nil => rfl
  | cons n nodes ih =>
    rw [List.findIdx?_cons]
    cases here : p n with
    | true => simp [here]
    | false =>
      simp only [Bool.false_eq_true, if_false]
      rw [List.filter_cons_of_neg (by simp [here])]
      cases found : nodes.findIdx? p with
      | none =>
        rw [found] at ih
        exact ih
      | some i =>
        rw [found] at ih
        exact ih

/-- `Next` gives the entry at the position and moves behind it; at the end it gives none. -/
theorem Behind.next {k p : ℕ} (behind : t.Behind k p) :
    match t.entries[k]? with
    | none => t.next p = none
    | some n => ∃ p', t.next p = some (p', n) ∧ t.Behind (k + 1) p' := by
  have scan := @filter_of_findIdx (t.nodes.drop p) fun n => n.key ≠ .null
  unfold SQTable.next
  cases found : (t.nodes.drop p).findIdx? fun n => n.key ≠ .null with
  | none =>
    rw [found] at scan
    have flag : t.entries[k]? = none := by
      rw [List.getElem?_eq_none_iff, ← List.drop_eq_nil_iff, ← behind]
      exact scan
    rw [flag]
    rfl
  | some i =>
    rw [found] at scan
    have split : t.entries.drop k = t.node (p + i) :: (t.nodes.drop (p + i + 1)).filter
        fun n => n.key ≠ .null := by
      rw [← behind, scan, List.drop_drop, Nat.add_assoc]
      congr 1
      rw [node, List.getD_eq_getElem?_getD, List.getD_eq_getElem?_getD, List.getElem?_drop]
    have entry : t.entries[k]? = some (t.node (p + i)) := by
      have first : (t.entries.drop k)[0]? = some (t.node (p + i)) := by
        rw [split]
        rfl
      rwa [List.getElem?_drop, Nat.add_zero] at first
    rw [entry]
    refine ⟨p + i + 1, rfl, ?_⟩
    have later : t.entries.drop (k + 1) = (t.entries.drop k).tail := List.tail_drop.symm
    rw [Behind, later, split]
    rfl

/-- Past the end the position is behind any number of entries. -/
theorem Behind.past {k p : ℕ} (behind : t.Behind k p) (past : t.entries[k]? = none) :
    t.Behind (k + 1) p := by
  rw [List.getElem?_eq_none_iff] at past
  unfold Behind at *
  rw [behind, List.drop_eq_nil_of_le past, List.drop_eq_nil_of_le (by omega)]

/-- The entries are the slots. -/
theorem mem_entries {key val : SQObject} :
    (∃ n ∈ t.entries, n.key = key ∧ n.val = val) ↔ key ≠ .null ∧ t.Holds key val := by
  constructor
  · rintro ⟨n, mem, rfl, rfl⟩
    obtain ⟨mem, nonnull⟩ := List.mem_filter.1 mem
    have nonnull : n.key ≠ .null := by simpa using nonnull
    exact ⟨nonnull, (t.holds_iff_mem nonnull).1 ⟨n, mem, rfl, rfl⟩⟩
  · rintro ⟨nonnull, holds⟩
    obtain ⟨n, mem, rfl, rfl⟩ := (t.holds_iff_mem nonnull).2 holds
    exact ⟨n, List.mem_filter.2 ⟨mem, by simpa using nonnull⟩, rfl, rfl⟩

/-- No key is listed twice. -/
theorem WellFormed.nodup_entries (wf : WellFormed hash t) : (t.entries.map HashNode.key).Nodup := by
  unfold entries List.Nodup
  rw [List.pairwise_map, List.pairwise_filter]
  apply wf.rehashable.distinct.imp
  intro n m distinct nonnull _
  exact distinct (by simpa using nonnull)

/-- The table counts its entries. -/
theorem WellFormed.length_entries (wf : WellFormed hash t) : t.entries.length = t.countUsed := by
  rw [entries, ← List.countP_eq_length_filter, countUsed, wf.count, card_used, slots]

/-! ## Keys -/

/-- The keys of a table. -/
def keys (t : SQTable) : Finset SQObject := t.used.image fun i => (t.node i).key

theorem mem_keys {k : SQObject} : k ∈ t.keys ↔ k ≠ .null ∧ ∃ v, t.Holds k v := by
  simp only [keys, Finset.mem_image, mem_used]
  constructor
  · rintro ⟨i, used, rfl⟩
    exact ⟨used, _, i, rfl, rfl⟩
  · rintro ⟨nonnull, v, i, isKey, -⟩
    exact ⟨i, used_of_key isKey nonnull, isKey⟩

/-- The table counts its keys. -/
theorem WellFormed.card_keys (wf : WellFormed hash t) : t.keys.card = t.countUsed := by
  rw [keys, Finset.card_image_of_injOn, countUsed, wf.count]
  intro i used j _ eq
  exact wf.unique i j (mem_used.1 used) eq

/-- A table has a key more at most when a slot is written. -/
theorem Put.keys_eq {val : SQObject} (put : Put t t' key val) (nonnull : key ≠ .null) :
    t'.keys = insert key t.keys := by
  ext k
  rw [Finset.mem_insert, mem_keys, mem_keys]
  by_cases same : k = key
  · subst same
    refine ⟨fun _ => .inl rfl, fun _ => ⟨nonnull, val, ?_⟩⟩
    rw [put k val nonnull, if_pos rfl]
  · rw [or_iff_right same]
    refine and_congr_right fun nonnull' => exists_congr fun v => ?_
    rw [put k v nonnull', if_neg same]

/-- A key has one value. -/
theorem Chained.holds_unique (chained : Chained hash t) (nonnull : key ≠ .null) {v v' : SQObject}
    (holds : t.Holds key v) (holds' : t.Holds key v') : v = v' := by
  rw [← chained.get_eq_some_iff nonnull] at holds holds'
  exact Option.some.inj (holds.symm.trans holds')

/-! ## Reachable tables -/

/-- The tables that operations make of new ones. -/
inductive Reachable (hash : SQObject → ℕ) : SQTable → Prop where
  | create (initialSize : ℕ) : Reachable hash (create initialSize)
  | newSlot {t : SQTable} {key : SQObject} (before : Reachable hash t) (nonnull : key ≠ .null)
      (val : SQObject) : Reachable hash (t.newSlot hash key val)
  | remove {t : SQTable} {key : SQObject} (before : Reachable hash t) (nonnull : key ≠ .null) :
      Reachable hash (t.remove hash key)
  | set {t t' : SQTable} {key val : SQObject} (before : Reachable hash t)
      (done : t.set hash key val = some t') : Reachable hash t'
  | clear {t : SQTable} (before : Reachable hash t) : Reachable hash (t.clear hash)
  | clone {t : SQTable} (before : Reachable hash t) : Reachable hash (t.clone hash)

theorem Reachable.wellFormed (reachable : Reachable hash t) : WellFormed hash t := by
  induction reachable with
  | create initialSize => exact wellFormed_create hash initialSize
  | newSlot before nonnull val ih => exact (ih.newSlot nonnull val).1
  | remove before nonnull ih => exact (ih.remove nonnull).1
  | set before done ih => exact (ih.set done).1
  | clear before ih => exact ih.clear.1
  | clone before ih => exact ih.clone.1

end SQTable

end Squirrels
