import Squirrels.Vm.RefCounted

/-!
# The counts are right

In every state the machine reaches, the count of an object is the number of references to it, every
reference is to an object that is there, and a weak reference names its object as long as that is
there. A release therefore frees what has lost its last reference, with all that only it kept alive,
touches no freed object and ends.
-/

namespace Squirrels

namespace Memory

open Counting

variable {m m' m'' : Memory} {tasks tasks' : List Task} {due : List (Option ℕ)} {a b x : ℕ}
  {c c' : SQRefCounted}

/-! ## Cells -/

theorem cells_put (m : Memory) (a : ℕ) (c : SQRefCounted) (x : ℕ) :
    (m.put a c).cells x = if x = a then some c else m.cells x := by
  by_cases same : x = a
  · rw [if_pos same, same]
    exact Function.update_self _ _ _
  · rw [if_neg same]
    exact Function.update_of_ne same _ _

theorem cells_put_self (m : Memory) (a : ℕ) (c : SQRefCounted) : (m.put a c).cells a = some c :=
  Function.update_self _ _ _

theorem cells_put_of_ne (m : Memory) (c : SQRefCounted) (ne : x ≠ a) :
    (m.put a c).cells x = m.cells x := Function.update_of_ne ne _ _

theorem fieldsOf_of_cell (found : m.cells a = some c) : m.fieldsOf a = c.body.fields := by
  rw [fieldsOf, found]

theorem fieldsOf_put (m : Memory) (a : ℕ) (c : SQRefCounted) :
    (m.put a c).fieldsOf = Function.update m.fieldsOf a c.body.fields := by
  funext x
  by_cases same : x = a
  · rw [same, Function.update_self]
    exact fieldsOf_of_cell (cells_put_self m a c)
  · rw [Function.update_of_ne same, fieldsOf, cells_put_of_ne m c same]
    rfl

theorem change_of_cell (found : m.cells a = some c) (f : SQRefCounted → SQRefCounted) :
    m.change a f = some (m.put a (f c)) := by
  rw [change, found, Option.map_some]

/-! ## References -/

/-- The references to an object: in slots, in objects, and those that are about to be released. -/
def refs (m : Memory) (tasks : List Task) (a : ℕ) : ℕ :=
  m.slots.count (some a) + total m.fieldsOf m.next (some a) + tasks.count (.release (some a))

theorem refs_release (m : Memory) (v : Option ℕ) (tasks : List Task) (x : ℕ) :
    m.refs (.release v :: tasks) x = m.refs tasks x + if v = some x then 1 else 0 := by
  unfold refs
  rw [List.count_cons]
  by_cases same : v = some x
  · rw [same, if_pos rfl, beq_self_eq_true, if_pos rfl, Nat.add_assoc, Nat.add_assoc, Nat.add_assoc]
  · rw [if_neg same, beq_eq_false_iff_ne.2 fun eq => same (Task.release.inj eq)]
    rfl

theorem refs_finish (m : Memory) (a : ℕ) (tasks : List Task) (x : ℕ) :
    m.refs (.finish a :: tasks) x = m.refs tasks x := by
  unfold refs
  rw [List.count_cons_of_ne (by simp)]

theorem refs_releases (m : Memory) (vs : List (Option ℕ)) (tasks : List Task) (x : ℕ) :
    m.refs (vs.map .release ++ tasks) x = m.refs tasks x + vs.count (some x) := by
  induction vs with
  | nil => rfl
  | cons v vs ih =>
    rw [List.map_cons, List.cons_append, refs_release, ih, List.count_cons]
    simp only [beq_iff_eq]
    omega

theorem refs_put (tasks : List Task) (lt : a < m.next) (x : ℕ) :
    (m.put a c).refs tasks x + (m.fieldsOf a).count (some x) =
      m.refs tasks x + c.body.fields.count (some x) := by
  have update : total (Function.update m.fieldsOf a c.body.fields) m.next (some x) + _ = _ :=
    total_update lt
  unfold refs
  rw [fieldsOf_put]
  show m.slots.count (some x) + total _ m.next _ + _ + _ = _
  omega

/-- An object that is changed without its references leaves all counts as they are. -/
theorem refs_put_same (found : m.cells a = some c) (lt : a < m.next)
    (same : c'.body.fields = c.body.fields) (tasks : List Task) (x : ℕ) :
    (m.put a c').refs tasks x = m.refs tasks x := by
  have counts := refs_put (c := c') tasks lt x
  rw [fieldsOf_of_cell found, same] at counts
  omega

/-! ## Invariants -/

/-- How objects are linked. -/
structure Linked (m : Memory) : Prop where
  bounded : ∀ a, m.cells a ≠ none → a < m.next
  weakref : ∀ a c w, m.cells a = some c → c.weakref = some w →
    ∃ cw, m.cells w = some cw ∧ cw.body = .weak a true
  alive : ∀ w cw t, m.cells w = some cw → cw.body = .weak t true →
    ∃ c, m.cells t = some c ∧ c.weakref = some w
  gone : ∀ w cw t, m.cells w = some cw → cw.body = .weak t false → m.cells t = none ∧ t < m.next
  /-- A marked object is referred to from where no release takes away. -/
  anchored : ∀ a c, m.cells a = some c → c.marked = true →
    some a ∈ m.slots ∨ ∃ b cb, m.cells b = some cb ∧ cb.marked = true ∧ some a ∈ cb.body.fields
  chain : m.gcChain.Nodup
  chained : ∀ a, a ∈ m.gcChain ↔
    ∃ c, m.cells a = some c ∧ c.body.isCollectable = true ∧ c.marked = false
  hooks : ∀ a ∈ m.hooked, a < m.next ∧ ∀ c, m.cells a = some c → c.body.isCollectable = true

/-- The counts, where the tasks remain and the `__AddRef` of the references that are due. -/
structure Sound (m : Memory) (tasks : List Task) (due : List (Option ℕ)) : Prop
    extends Linked m where
  counted : ∀ a c, m.cells a = some c → c.uiRef + due.count (some a) = m.refs tasks a
  live : ∀ a, m.refs tasks a ≠ 0 → m.cells a ≠ none
  dying : ∀ a c, m.cells a = some c → c.uiRef = 0 → .finish a ∈ tasks ∨ some a ∈ due
  finishing : ∀ a, .finish a ∈ tasks → tasks.count (.finish a) = 1 ∧
    ∃ c, m.cells a = some c ∧ c.uiRef = 0 ∧ c.marked = false ∧ c.body = .collectable []
  once : m.released.Nodup
  released : ∀ a, a ∈ m.released ↔ a ∈ m.hooked ∧ (m.cells a = none ∨ .finish a ∈ tasks)

/-- What a release leaves as it is. -/
structure Kept (m m' : Memory) : Prop where
  slots : m'.slots = m.slots
  next : m'.next = m.next
  hooked : m'.hooked = m.hooked
  chain : m'.gcChain.Sublist m.gcChain
  cells : ∀ a c', m'.cells a = some c' → ∃ c, m.cells a = some c ∧ c'.marked = c.marked ∧
    c'.body.isCollectable = c.body.isCollectable ∧ c'.uiRef ≤ c.uiRef ∧
    (c'.uiRef ≠ 0 → c'.body.fields = c.body.fields)
  marked : ∀ a c, m.cells a = some c → c.marked = true → ∃ c', m'.cells a = some c' ∧
    c'.marked = true ∧ c'.body.fields = c.body.fields

theorem Kept.refl (m : Memory) : Kept m m where
  slots := rfl
  next := rfl
  hooked := rfl
  chain := List.Sublist.refl _
  cells _ c found := ⟨c, found, rfl, rfl, Nat.le_refl _, fun _ => rfl⟩
  marked _ c found is := ⟨c, found, is, rfl⟩

theorem Kept.trans (first : Kept m m') (second : Kept m' m'') : Kept m m'' where
  slots := second.slots.trans first.slots
  next := second.next.trans first.next
  hooked := second.hooked.trans first.hooked
  chain := second.chain.trans first.chain
  cells a c'' found := by
    obtain ⟨c', found', mark', is', le', fields'⟩ := second.cells a c'' found
    obtain ⟨c, found₀, mark, is, le, fields⟩ := first.cells a c' found'
    exact ⟨c, found₀, mark'.trans mark, is'.trans is, le'.trans le, fun counted =>
      (fields' counted).trans (fields (by omega))⟩
  marked a c found is := by
    obtain ⟨c', found', is', fields'⟩ := first.marked a c found is
    obtain ⟨c'', found'', is'', fields''⟩ := second.marked a c' found' is'
    exact ⟨c'', found'', is'', fields''.trans fields'⟩

/-! ## An object that is replaced -/

/-- The object may take the place of the other one. -/
structure Replaces (c' c : SQRefCounted) : Prop where
  marked : c'.marked = c.marked
  weakref : c'.weakref = c.weakref
  names : ∀ t alive, c'.body = .weak t alive ↔ c.body = .weak t alive
  collectable : c'.body.isCollectable = c.body.isCollectable
  held : c.marked = true → c'.body.fields = c.body.fields

theorem Replaces.refl (c : SQRefCounted) : Replaces c c :=
  ⟨rfl, rfl, fun _ _ => Iff.rfl, rfl, fun _ => rfl⟩

theorem Replaces.trans {c'' : SQRefCounted} (second : Replaces c'' c') (first : Replaces c' c) :
    Replaces c'' c where
  marked := second.marked.trans first.marked
  weakref := second.weakref.trans first.weakref
  names t alive := (second.names t alive).trans (first.names t alive)
  collectable := second.collectable.trans first.collectable
  held marked := (second.held (first.marked.trans marked)).trans (first.held marked)

theorem replaces_recount (c : SQRefCounted) (n : ℕ) : Replaces { c with uiRef := n } c :=
  ⟨rfl, rfl, fun _ _ => Iff.rfl, rfl, fun _ => rfl⟩

/-- The references of an object that is not marked may change. -/
theorem replaces_fields {l : List (Option ℕ)} (l' : List (Option ℕ))
    (body : c.body = .collectable l) (unmarked : c.marked = false) (n : ℕ) :
    Replaces { c with uiRef := n, body := .collectable l' } c where
  marked := rfl
  weakref := rfl
  names t alive := by
    rw [body]
    exact iff_of_false (by simp) (by simp)
  collectable := by rw [body]; rfl
  held marked := by rw [unmarked] at marked; cases marked

theorem replaced_old (found : m.cells a = some c) (replaces : Replaces c' c)
    {cx : SQRefCounted} (is : (m.put a c').cells x = some cx) :
    ∃ c₀, m.cells x = some c₀ ∧ Replaces cx c₀ := by
  rw [cells_put] at is
  split at is
  · rename_i same
    cases is
    exact ⟨c, same ▸ found, replaces⟩
  · exact ⟨cx, is, Replaces.refl cx⟩

theorem replaced_new (found : m.cells a = some c) (replaces : Replaces c' c)
    {c₀ : SQRefCounted} (is : m.cells x = some c₀) :
    ∃ cx, (m.put a c').cells x = some cx ∧ Replaces cx c₀ := by
  rw [cells_put]
  by_cases same : x = a
  · rw [if_pos same]
    rw [same, found] at is
    cases is
    exact ⟨_, rfl, replaces⟩
  · rw [if_neg same]
    exact ⟨c₀, is, Replaces.refl c₀⟩

theorem put_eq_none_iff (found : m.cells a = some c) :
    (m.put a c').cells x = none ↔ m.cells x = none := by
  rw [cells_put]
  by_cases same : x = a
  · rw [if_pos same, same, found]
    exact iff_of_false (by simp) (by simp)
  · rw [if_neg same]

/-- The links stay when an object is replaced. -/
theorem Linked.replace (linked : Linked m) (found : m.cells a = some c)
    (replaces : Replaces c' c) : Linked (m.put a c') where
  bounded x is := linked.bounded x fun none => is ((put_eq_none_iff found).2 none)
  weakref x cx w is weak := by
    obtain ⟨c₀, is₀, same⟩ := replaced_old found replaces is
    obtain ⟨cw, isW, body⟩ := linked.weakref x c₀ w is₀ (same.weakref ▸ weak)
    obtain ⟨cw', isW', same'⟩ := replaced_new found replaces isW
    exact ⟨cw', isW', (same'.names _ _).2 body⟩
  alive w cw t is body := by
    obtain ⟨c₀, is₀, same⟩ := replaced_old found replaces is
    obtain ⟨ct, isT, weak⟩ := linked.alive w c₀ t is₀ ((same.names _ _).1 body)
    obtain ⟨ct', isT', same'⟩ := replaced_new found replaces isT
    exact ⟨ct', isT', same'.weakref.trans weak⟩
  gone w cw t is body := by
    obtain ⟨c₀, is₀, same⟩ := replaced_old found replaces is
    obtain ⟨dead, lt⟩ := linked.gone w c₀ t is₀ ((same.names _ _).1 body)
    exact ⟨(put_eq_none_iff found).2 dead, lt⟩
  anchored x cx is marked := by
    obtain ⟨c₀, is₀, same⟩ := replaced_old found replaces is
    refine (linked.anchored x c₀ is₀ (same.marked ▸ marked)).imp id ?_
    rintro ⟨b, cb, isB, markB, inB⟩
    obtain ⟨cb', isB', same'⟩ := replaced_new found replaces isB
    exact ⟨b, cb', isB', same'.marked.trans markB, by rwa [same'.held markB]⟩
  chain := linked.chain
  chained x := by
    show x ∈ m.gcChain ↔ _
    rw [linked.chained]
    constructor
    · rintro ⟨c₀, is₀, isColl, mark⟩
      obtain ⟨cx, is, same⟩ := replaced_new found replaces is₀
      exact ⟨cx, is, same.collectable.trans isColl, same.marked.trans mark⟩
    · rintro ⟨cx, is, isColl, mark⟩
      obtain ⟨c₀, is₀, same⟩ := replaced_old found replaces is
      exact ⟨c₀, is₀, same.collectable ▸ isColl, same.marked ▸ mark⟩
  hooks x hooked := by
    obtain ⟨lt, all⟩ := linked.hooks x hooked
    refine ⟨lt, fun cx is => ?_⟩
    obtain ⟨c₀, is₀, same⟩ := replaced_old found replaces is
    exact same.collectable.trans (all c₀ is₀)

theorem kept_put (found : m.cells a = some c) (replaces : Replaces c' c)
    (le : c'.uiRef ≤ c.uiRef) (held : c'.uiRef ≠ 0 → c'.body.fields = c.body.fields) :
    Kept m (m.put a c') where
  slots := rfl
  next := rfl
  hooked := rfl
  chain := List.Sublist.refl _
  cells x cx is := by
    rw [cells_put] at is
    split at is
    · rename_i same
      cases is
      exact ⟨c, same ▸ found, replaces.marked, replaces.collectable, le, held⟩
    · exact ⟨cx, is, rfl, rfl, Nat.le_refl _, fun _ => rfl⟩
  marked x c₀ is marked := by
    obtain ⟨cx, is', same⟩ := replaced_new found replaces is
    exact ⟨cx, is', same.marked.trans marked, same.held marked⟩

/-- A sum over all objects, when one of them is replaced. -/
theorem weigh_put (w : Option SQRefCounted → ℕ) (c' : SQRefCounted) (found : m.cells a = some c)
    (lt : a < m.next) :
    weigh (fun x => w ((m.put a c').cells x)) m.next + w (some c) =
      weigh (fun x => w (m.cells x)) m.next + w (some c') := by
  have update : weigh (Function.update (fun x => w (m.cells x)) a (w (some c'))) m.next + _ = _ :=
    weigh_update lt
  rw [found] at update
  rw [← update]
  congr 1
  refine weigh_congr fun x _ => ?_
  rw [cells_put]
  by_cases same : x = a
  · rw [if_pos same, same, Function.update_self]
  · rw [if_neg same, Function.update_of_ne same]

theorem weight_put (c' : SQRefCounted) (found : m.cells a = some c) (lt : a < m.next) :
    (m.put a c').weight + cellWeight (some c) = m.weight + cellWeight (some c') :=
  weigh_put cellWeight c' found lt

/-! ## One step of a release -/

section Release

variable {task : Task} {fields : List (Option ℕ)}

/-- An object that is released has a count. -/
theorem Sound.released_cell (sound : Sound m (.release (some a) :: tasks) []) :
    ∃ c, m.cells a = some c ∧ c.uiRef = m.refs tasks a + 1 := by
  have refs := refs_release m (some a) tasks a
  rw [if_pos rfl] at refs
  have there := sound.live a (by omega)
  obtain ⟨c, found⟩ := Option.ne_none_iff_exists'.1 there
  have counted := sound.counted a c found
  rw [List.count_nil, refs] at counted
  exact ⟨c, found, counted⟩

/-- What is marked keeps a reference. -/
theorem Sound.refs_of_marked (sound : Sound m tasks due) (found : m.cells a = some c)
    (marked : c.marked = true) (tasks' : List Task) : m.refs tasks' a ≠ 0 := by
  unfold refs
  rcases sound.anchored a c found marked with slot | ⟨b, cb, isB, -, held⟩
  · have := List.count_pos_iff.2 slot
    omega
  · have named : ¬ total m.fieldsOf m.next (some a) = 0 := by
      rw [total_eq_zero_iff]
      intro none
      refine none b (sound.bounded b (by simp [isB])) ?_
      rw [fieldsOf_of_cell isB]
      exact held
    omega

/-- A reference goes, and others remain. -/
theorem Sound.decrement (sound : Sound m (.release (some a) :: tasks) [])
    (found : m.cells a = some c) (many : 2 ≤ c.uiRef) :
    Sound (m.put a { c with uiRef := c.uiRef - 1 }) tasks [] := by
  have lt : a < m.next := sound.bounded a (by simp [found])
  have refs : ∀ x, (m.put a { c with uiRef := c.uiRef - 1 }).refs tasks x = m.refs tasks x :=
    refs_put_same found lt (by rfl) tasks
  have before : ∀ x, m.refs (.release (some a) :: tasks) x =
      m.refs tasks x + if some a = some x then 1 else 0 := refs_release m (some a) tasks
  refine ⟨sound.toLinked.replace found (replaces_recount c _), fun x cx is => ?_, fun x named => ?_,
    fun x cx is zero => ?_, fun x finish => ?_, sound.once, fun x => ?_⟩
  · rw [refs]
    rw [cells_put] at is
    split at is
    · rename_i same
      cases is
      have counted := sound.counted a c found
      rw [before, if_pos rfl] at counted
      simp only [List.count_nil] at counted ⊢
      rw [same]
      omega
    · rename_i ne
      have counted := sound.counted x cx is
      rw [before, if_neg fun eq => ne (Option.some.inj eq).symm] at counted
      exact counted
  · rw [refs] at named
    rw [Ne, put_eq_none_iff found]
    exact sound.live x (by rw [before]; omega)
  · rw [cells_put] at is
    split at is
    · cases is
      simp only at zero
      omega
    · exact (sound.dying x cx is zero).imp (fun mem => by simpa using mem) id
  · obtain ⟨once, cx, is, zero, unmarked, body⟩ :=
      sound.finishing x (List.mem_cons_of_mem _ finish)
    have ne : x ≠ a := by
      rintro rfl
      rw [found] at is
      cases is
      omega
    rw [List.count_cons_of_ne (by simp)] at once
    exact ⟨once, cx, by rw [cells_put_of_ne _ _ ne, is], zero, unmarked, body⟩
  · show x ∈ m.released ↔ x ∈ m.hooked ∧ _
    rw [put_eq_none_iff found]
    simpa using sound.released x

theorem Sound.unfinished_of_counted (sound : Sound m (task :: tasks) [])
    (found : m.cells a = some c) (positive : 0 < c.uiRef) : .finish a ∉ tasks := by
  intro mem
  obtain ⟨-, ca, is, zero, -⟩ := sound.finishing a (List.mem_cons_of_mem _ mem)
  rw [found] at is
  cases is
  omega

theorem Sound.unreleased_of_counted (sound : Sound m tasks []) (found : m.cells a = some c)
    (unfinished : .finish a ∉ tasks) : a ∉ m.released := by
  intro mem
  rcases ((sound.released a).1 mem).2 with none | finish
  · rw [found] at none
    cases none
  · exact unfinished finish

/-- The references of a finalized object are those of the tasks that it leaves. -/
theorem refs_finalized (found : m.cells a = some c) (lt : a < m.next)
    (body : c.body = .collectable fields) (tasks : List Task) (x : ℕ) :
    (m.put a { c with uiRef := 0, body := .collectable [] }).refs
      (fields.map .release ++ .finish a :: tasks) x = m.refs tasks x := by
  have counts := refs_put (c := { c with uiRef := 0, body := .collectable [] }) tasks lt x
  have own : m.fieldsOf a = fields := by rw [fieldsOf_of_cell found, body]; rfl
  rw [refs_releases, refs_finish]
  rw [own] at counts
  simp only [Body.fields, List.count_nil] at counts
  omega

theorem mem_finish_finalized :
    .finish x ∈ fields.map Task.release ++ .finish a :: tasks ↔ x = a ∨ .finish x ∈ tasks := by
  simp

theorem count_finish_finalized (fields : List (Option ℕ)) (a : ℕ) (tasks : List Task) (x : ℕ) :
    (fields.map Task.release ++ .finish a :: tasks).count (.finish x) =
      tasks.count (.finish x) + if a = x then 1 else 0 := by
  have none : (fields.map Task.release).count (.finish x) = 0 := List.count_eq_zero.2 (by simp)
  rw [List.count_append, none, List.count_cons, Nat.zero_add]
  simp

theorem Sound.finalized_counted (sound : Sound m (.release (some a) :: tasks) [])
    (found : m.cells a = some c) (one : c.uiRef = 1) {cx : SQRefCounted}
    (is : (m.put a { c with uiRef := 0, body := .collectable [] }).cells x = some cx) :
    cx.uiRef + [].count (some x) = m.refs tasks x := by
  have before := refs_release m (some a) tasks x
  rw [cells_put] at is
  by_cases same : x = a
  · subst same
    rw [if_pos rfl] at is
    cases is
    have counted := sound.counted x c found
    rw [before, if_pos rfl, List.count_nil] at counted
    simp only [List.count_nil]
    omega
  · rw [if_neg same] at is
    have counted := sound.counted x cx is
    rwa [before, if_neg fun eq => same (Option.some.inj eq).symm] at counted

theorem Sound.finalized_finishing (sound : Sound m (.release (some a) :: tasks) [])
    (found : m.cells a = some c) (one : c.uiRef = 1) (unmarked : c.marked = false)
    (finish : .finish x ∈ fields.map Task.release ++ .finish a :: tasks) :
    (fields.map Task.release ++ .finish a :: tasks).count (.finish x) = 1 ∧
      ∃ cx, (m.put a { c with uiRef := 0, body := .collectable [] }).cells x = some cx ∧
        cx.uiRef = 0 ∧ cx.marked = false ∧ cx.body = .collectable [] := by
  have unfinished := sound.unfinished_of_counted found (by omega)
  rw [count_finish_finalized]
  by_cases same : x = a
  · rw [same, if_pos rfl, List.count_eq_zero.2 unfinished]
    exact ⟨rfl, _, cells_put_self _ _ _, rfl, unmarked, rfl⟩
  · have old := (mem_finish_finalized.1 finish).resolve_left same
    obtain ⟨once, cx, is, rest⟩ := sound.finishing x (List.mem_cons_of_mem _ old)
    rw [List.count_cons_of_ne (by simp)] at once
    rw [if_neg fun eq => same eq.symm]
    exact ⟨once, cx, by rw [cells_put_of_ne _ _ same, is], rest⟩

theorem Sound.finalized_released (sound : Sound m (.release (some a) :: tasks) [])
    (found : m.cells a = some c) (x : ℕ) :
    x ∈ (if a ∈ m.hooked then a :: m.released else m.released) ↔ x ∈ m.hooked ∧
      ((m.put a { c with uiRef := 0, body := .collectable [] }).cells x = none ∨
        .finish x ∈ fields.map Task.release ++ .finish a :: tasks) := by
  rw [put_eq_none_iff found, mem_finish_finalized]
  have old := sound.released x
  by_cases same : x = a
  · subst same
    by_cases hook : x ∈ m.hooked
    · rw [if_pos hook]
      exact iff_of_true List.mem_cons_self ⟨hook, .inr (.inl rfl)⟩
    · rw [if_neg hook, old]
      exact iff_of_false (fun both => hook both.1) fun both => hook both.1
  · have other : x ∈ (if a ∈ m.hooked then a :: m.released else m.released) ↔
        x ∈ m.released := by
      split
      · rw [List.mem_cons, or_iff_right same]
      · rfl
    rw [other, old]
    simp [same]

/-- The last reference to a collectable object goes. -/
theorem Sound.destroy_collectable (sound : Sound m (.release (some a) :: tasks) [])
    (found : m.cells a = some c) (one : c.uiRef = 1) (unmarked : c.marked = false)
    (body : c.body = .collectable fields) :
    Sound { m.put a { c with uiRef := 0, body := .collectable [] } with
      released := if a ∈ m.hooked then a :: m.released else m.released }
      (fields.map .release ++ .finish a :: tasks) [] := by
  have lt : a < m.next := sound.bounded a (by simp [found])
  have linked := sound.toLinked.replace found (replaces_fields [] body unmarked 0)
  have refs := refs_finalized found lt body tasks
  exact {
    bounded := linked.bounded
    weakref := linked.weakref
    alive := linked.alive
    gone := linked.gone
    anchored := linked.anchored
    chain := linked.chain
    chained := linked.chained
    hooks := linked.hooks
    counted := fun x cx is => (sound.finalized_counted found one is).trans (refs x).symm
    live := fun x named => by
      change (m.put a _).refs _ x ≠ 0 at named
      rw [refs] at named
      show (m.put a _).cells x ≠ none
      rw [Ne, put_eq_none_iff found]
      exact sound.live x (by rw [refs_release]; omega)
    dying := fun x cx is zero => by
      change (m.put a _).cells x = some cx at is
      rw [cells_put] at is
      rw [mem_finish_finalized]
      by_cases same : x = a
      · exact .inl (.inl same)
      · rw [if_neg same] at is
        exact (sound.dying x cx is zero).imp (fun mem => .inr (by simpa using mem)) id
    finishing := fun x finish => sound.finalized_finishing found one unmarked finish
    once := by
      have fresh := sound.unreleased_of_counted found fun mem =>
        sound.unfinished_of_counted found (by omega) (by simpa using mem)
      show (if a ∈ m.hooked then a :: m.released else m.released).Nodup
      by_cases hook : a ∈ m.hooked
      · rw [if_pos hook]
        exact List.nodup_cons.2 ⟨fresh, sound.once⟩
      · rw [if_neg hook]
        exact sound.once
    released := sound.finalized_released found }

end Release

/-! ## An object that is freed -/

/-- The object without what refers to an address weakly. -/
def SQRefCounted.without (a : ℕ) (c : SQRefCounted) : SQRefCounted :=
  { c with
    weakref := if c.weakref = some a then none else c.weakref
    body := if c.body = .weak a true then .weak a false else c.body }

theorem without_fields (a : ℕ) (c : SQRefCounted) : (c.without a).body.fields = c.body.fields := by
  unfold SQRefCounted.without
  by_cases body : c.body = .weak a true
  · simp only [if_pos body]
    rw [body]
    rfl
  · simp only [if_neg body]

theorem without_collectable (a : ℕ) (c : SQRefCounted) :
    (c.without a).body.isCollectable = c.body.isCollectable := by
  unfold SQRefCounted.without
  by_cases body : c.body = .weak a true
  · simp only [if_pos body]
    rw [body]
    rfl
  · simp only [if_neg body]

/-- An object has gone, and what named it weakly knows. -/
structure Vanished (m m' : Memory) (a : ℕ) : Prop where
  slots : m'.slots = m.slots
  next : m'.next = m.next
  hooked : m'.hooked = m.hooked
  released : m'.released = m.released
  chain : m'.gcChain = m.gcChain.erase a
  gone : m'.cells a = none
  others : ∀ x, x ≠ a → m'.cells x = (m.cells x).map (·.without a)

section Vanish

theorem free_cells_of_ne (m : Memory) (ne : x ≠ a) : (m.free a).cells x = m.cells x :=
  Function.update_of_ne ne _ _

/-- `~SQRefCounted`, where the given weak reference is the one that names the address. -/
theorem forget_cells {w : Option ℕ} (there : ∀ x, w = some x → m.cells x ≠ none)
    (names : ∀ x c, m.cells x = some c → (c.body = .weak a true ↔ w = some x)) :
    ∃ m', m.forget w = some m' ∧ m'.slots = m.slots ∧ m'.next = m.next ∧ m'.hooked = m.hooked ∧
      m'.released = m.released ∧ m'.gcChain = m.gcChain ∧
      ∀ x, m'.cells x = (m.cells x).map fun c =>
        { c with body := if c.body = .weak a true then .weak a false else c.body } := by
  cases w with
  | none =>
    refine ⟨m, rfl, rfl, rfl, rfl, rfl, rfl, fun x => ?_⟩
    cases is : m.cells x with
    | none => rfl
    | some c =>
      have other : c.body ≠ .weak a true := fun eq => by cases (names x c is).1 eq
      rw [Option.map_some, if_neg other]
  | some w =>
    obtain ⟨cw, isW⟩ := Option.ne_none_iff_exists'.1 (there w rfl)
    have body := (names w cw isW).2 rfl
    refine ⟨_, change_of_cell isW _, rfl, rfl, rfl, rfl, rfl, fun x => ?_⟩
    rw [cells_put]
    by_cases same : x = w
    · rw [if_pos same, same, isW, Option.map_some, if_pos body, body]
      rfl
    · rw [if_neg same]
      cases is : m.cells x with
      | none => rfl
      | some c =>
        have other : c.body ≠ .weak a true := fun eq =>
          same (Option.some.inj ((names x c is).1 eq)).symm
        rw [Option.map_some, if_neg other]

theorem Linked.names_iff (linked : Linked m) (found : m.cells a = some c) (x : ℕ)
    (cx : SQRefCounted) (is : m.cells x = some cx) :
    cx.body = .weak a true ↔ c.weakref = some x := by
  constructor
  · intro names
    obtain ⟨ca, isA, weak⟩ := linked.alive x cx a is names
    rw [found] at isA
    cases isA
    exact weak
  · intro weak
    obtain ⟨cw, isW, names⟩ := linked.weakref a c x found weak
    rw [is] at isW
    cases isW
    exact names

theorem Linked.weakref_there (linked : Linked m) (found : m.cells a = some c) (x : ℕ)
    (weak : c.weakref = some x) : m.cells x ≠ none := by
  obtain ⟨cw, isW, -⟩ := linked.weakref a c x found weak
  rw [isW]
  exact Option.some_ne_none cw

/-- `~SQRefCounted` of an object that names nothing. -/
theorem Linked.forget (linked : Linked m) (found : m.cells a = some c)
    (namesNone : ∀ t, c.body ≠ .weak t true) :
    ∃ m₁, m.forget c.weakref = some m₁ ∧ Vanished m (m₁.free a) a := by
  obtain ⟨m₁, ran, slots, next, hooked, released, chain, cells⟩ :=
    forget_cells (linked.weakref_there found) (linked.names_iff found)
  refine ⟨m₁, ran, slots, next, hooked, released, congrArg (·.erase a) chain,
    Function.update_self _ _ _, fun x ne => ?_⟩
  rw [free_cells_of_ne _ ne, cells]
  cases is : m.cells x with
  | none => rfl
  | some cx =>
    have unlinked : cx.weakref ≠ some a := fun weak => by
      obtain ⟨ca, isA, body⟩ := linked.weakref x cx a is weak
      rw [found] at isA
      cases isA
      exact namesNone x body
    rw [Option.map_some, Option.map_some]
    unfold SQRefCounted.without
    rw [if_neg unlinked]

/-- `SQWeakRef::Release` of a weak reference whose object is there. -/
theorem Linked.forget_weak (linked : Linked m) (found : m.cells a = some c) {t : ℕ}
    (body : c.body = .weak t true) :
    ∃ m₁ m₂, m.change t (fun c => { c with weakref := none }) = some m₁ ∧
      m₁.forget c.weakref = some m₂ ∧ Vanished m (m₂.free a) a := by
  obtain ⟨ct, isT, back⟩ := linked.alive a c t found body
  -- the target loses its weak reference, and nothing else has this one
  have cells₁ : ∀ x, (m.put t { ct with weakref := none }).cells x = (m.cells x).map fun c =>
      { c with weakref := if c.weakref = some a then none else c.weakref } := by
    intro x
    rw [cells_put]
    by_cases same : x = t
    · rw [if_pos same, same, isT, Option.map_some, if_pos back]
    · rw [if_neg same]
      cases is : m.cells x with
      | none => rfl
      | some cx =>
        have other : cx.weakref ≠ some a := fun weak => by
          obtain ⟨ca, isA, names⟩ := linked.weakref x cx a is weak
          rw [found] at isA
          cases isA
          rw [body] at names
          exact same (Body.weak.inj names).1.symm
        rw [Option.map_some, if_neg other]
  obtain ⟨m₂, ran, slots, next, hooked, released, chain, cells₂⟩ :=
    @forget_cells (m.put t { ct with weakref := none }) a c.weakref
      (fun x weak => by
        rw [Ne, put_eq_none_iff isT]
        exact linked.weakref_there found x weak)
      (fun x cx is => by
        rw [cells₁, Option.map_eq_some_iff] at is
        obtain ⟨c₀, is₀, rfl⟩ := is
        exact linked.names_iff found x c₀ is₀)
  refine ⟨_, m₂, change_of_cell isT _, ran, slots, next, hooked, released,
    congrArg (·.erase a) chain, Function.update_self _ _ _, fun x ne => ?_⟩
  rw [free_cells_of_ne _ ne, cells₂, cells₁, Option.map_map]
  rfl

variable (vanished : Vanished m m' a)

include vanished in
theorem Vanished.cell {cx : SQRefCounted} (is : m'.cells x = some cx) :
    x ≠ a ∧ ∃ c₀, m.cells x = some c₀ ∧ cx = c₀.without a := by
  have ne : x ≠ a := by
    rintro rfl
    rw [vanished.gone] at is
    cases is
  rw [vanished.others x ne, Option.map_eq_some_iff] at is
  obtain ⟨c₀, is₀, eq⟩ := is
  exact ⟨ne, c₀, is₀, eq.symm⟩

include vanished in
theorem Vanished.none_iff : m'.cells x = none ↔ x = a ∨ m.cells x = none := by
  by_cases same : x = a
  · rw [same]
    exact iff_of_true vanished.gone (.inl rfl)
  · rw [vanished.others x same, Option.map_eq_none_iff, or_iff_right same]

include vanished in
theorem Vanished.new {c₀ : SQRefCounted} (ne : x ≠ a) (is : m.cells x = some c₀) :
    m'.cells x = some (c₀.without a) := by
  rw [vanished.others x ne, is, Option.map_some]

include vanished in
/-- The links without an object that holds no references. -/
theorem Linked.vanish (linked : Linked m) (found : m.cells a = some c)
    (unmarked : c.marked = false) : Linked m' where
  bounded x is := by
    rw [Ne, vanished.none_iff, not_or] at is
    rw [vanished.next]
    exact linked.bounded x is.2
  weakref x cx w is weak := by
    obtain ⟨ne, c₀, is₀, rfl⟩ := vanished.cell is
    have weak₀ : c₀.weakref = some w ∧ w ≠ a := by
      change (if c₀.weakref = some a then none else c₀.weakref) = some w at weak
      by_cases own : c₀.weakref = some a
      · rw [if_pos own] at weak
        cases weak
      · rw [if_neg own] at weak
        exact ⟨weak, fun eq => own (eq ▸ weak)⟩
    obtain ⟨cw, isW, body⟩ := linked.weakref x c₀ w is₀ weak₀.1
    refine ⟨_, vanished.new weak₀.2 isW, ?_⟩
    show (if cw.body = .weak a true then _ else cw.body) = _
    rw [if_neg (by rw [body]; simp [ne]), body]
  alive w cw t is body := by
    obtain ⟨ne, c₀, is₀, rfl⟩ := vanished.cell is
    have body₀ : c₀.body = .weak t true ∧ t ≠ a := by
      change (if c₀.body = .weak a true then .weak a false else c₀.body) = _ at body
      by_cases own : c₀.body = .weak a true
      · rw [if_pos own] at body
        cases body
      · rw [if_neg own] at body
        exact ⟨body, fun eq => own (eq ▸ body)⟩
    obtain ⟨ct, isT, weak⟩ := linked.alive w c₀ t is₀ body₀.1
    refine ⟨_, vanished.new body₀.2 isT, ?_⟩
    show (if ct.weakref = some a then none else ct.weakref) = _
    rw [if_neg (by rw [weak]; simp [ne]), weak]
  gone w cw t is body := by
    obtain ⟨-, c₀, is₀, rfl⟩ := vanished.cell is
    rw [vanished.none_iff, vanished.next]
    change (if c₀.body = .weak a true then .weak a false else c₀.body) = _ at body
    by_cases own : c₀.body = .weak a true
    · rw [if_pos own] at body
      cases body
      exact ⟨.inl rfl, linked.bounded a (by simp [found])⟩
    · rw [if_neg own] at body
      obtain ⟨dead, lt⟩ := linked.gone w c₀ t is₀ body
      exact ⟨.inr dead, lt⟩
  anchored x cx is marked := by
    obtain ⟨-, c₀, is₀, rfl⟩ := vanished.cell is
    rw [vanished.slots]
    refine (linked.anchored x c₀ is₀ marked).imp id ?_
    rintro ⟨b, cb, isB, markB, inB⟩
    have ne : b ≠ a := by
      rintro rfl
      rw [found] at isB
      cases isB
      rw [unmarked] at markB
      cases markB
    exact ⟨b, _, vanished.new ne isB, markB, by rwa [without_fields]⟩
  chain := by
    rw [vanished.chain]
    exact linked.chain.erase a
  chained x := by
    rw [vanished.chain, linked.chain.mem_erase_iff, linked.chained]
    constructor
    · rintro ⟨ne, c₀, is₀, isColl, mark⟩
      exact ⟨_, vanished.new ne is₀, (without_collectable a c₀).trans isColl, mark⟩
    · rintro ⟨cx, is, isColl, mark⟩
      obtain ⟨ne, c₀, is₀, rfl⟩ := vanished.cell is
      exact ⟨ne, c₀, is₀, (without_collectable a c₀) ▸ isColl, mark⟩
  hooks x hooked := by
    rw [vanished.hooked] at hooked
    obtain ⟨lt, all⟩ := linked.hooks x hooked
    rw [vanished.next]
    refine ⟨lt, fun cx is => ?_⟩
    obtain ⟨-, c₀, is₀, rfl⟩ := vanished.cell is
    exact (without_collectable a c₀).trans (all c₀ is₀)

include vanished in
theorem Vanished.refs_eq (found : m.cells a = some c) (empty : c.body.fields = [])
    (tasks : List Task) (x : ℕ) : m'.refs tasks x = m.refs tasks x := by
  have same : m'.fieldsOf = m.fieldsOf := by
    funext y
    by_cases eq : y = a
    · rw [eq, fieldsOf_of_cell found, empty, fieldsOf, vanished.gone]
    · cases is : m.cells y with
      | none => rw [fieldsOf, fieldsOf, is, vanished.none_iff.2 (.inr is)]
      | some cy =>
        rw [fieldsOf_of_cell is, fieldsOf_of_cell (vanished.new eq is), without_fields]
  unfold refs
  rw [vanished.slots, vanished.next, same]

include vanished in
/-- The counts without an object that nothing refers to. -/
theorem Sound.vanish (sound : Sound m tasks []) (found : m.cells a = some c)
    (empty : c.body.fields = []) (unmarked : c.marked = false) (unreferred : m.refs tasks' a = 0)
    (refs : ∀ x, x ≠ a → m.refs tasks' x = m.refs tasks x) (unfinished : .finish a ∉ tasks')
    (finish : ∀ x, x ≠ a → tasks'.count (.finish x) = tasks.count (.finish x))
    (hook : a ∈ m.released ↔ a ∈ m.hooked) : Sound m' tasks' [] := by
  have finish_iff : ∀ x, x ≠ a → (.finish x ∈ tasks' ↔ .finish x ∈ tasks) := fun x ne => by
    rw [← List.count_pos_iff, ← List.count_pos_iff, finish x ne]
  have same := vanished.refs_eq found empty
  refine ⟨sound.toLinked.vanish vanished found unmarked, fun x cx is => ?_, fun x named => ?_,
    fun x cx is zero => ?_, fun x mem => ?_, ?_, fun x => ?_⟩
  · obtain ⟨ne, c₀, is₀, rfl⟩ := vanished.cell is
    rw [same, refs x ne]
    exact sound.counted x c₀ is₀
  · rw [same] at named
    have ne : x ≠ a := by
      rintro rfl
      exact named unreferred
    rw [refs x ne] at named
    rw [Ne, vanished.none_iff, not_or]
    exact ⟨ne, sound.live x named⟩
  · obtain ⟨ne, c₀, is₀, rfl⟩ := vanished.cell is
    exact (sound.dying x c₀ is₀ zero).imp (finish_iff x ne).2 id
  · have ne : x ≠ a := by
      rintro rfl
      exact unfinished mem
    obtain ⟨once, c₀, is₀, zero, mark, body⟩ := sound.finishing x ((finish_iff x ne).1 mem)
    refine ⟨(finish x ne).trans once, _, vanished.new ne is₀, zero, mark, ?_⟩
    show (if c₀.body = .weak a true then _ else c₀.body) = _
    rw [if_neg (by rw [body]; simp), body]
  · rw [vanished.released]
    exact sound.once
  · rw [vanished.released, vanished.hooked, vanished.none_iff]
    by_cases eq : x = a
    · rw [eq, hook]
      exact ⟨fun mem => ⟨mem, .inl (.inl rfl)⟩, fun both => both.1⟩
    · rw [or_iff_right eq, finish_iff x eq]
      exact sound.released x

include vanished in
theorem Vanished.kept (found : m.cells a = some c) (unmarked : c.marked = false) : Kept m m' where
  slots := vanished.slots
  next := vanished.next
  hooked := vanished.hooked
  chain := by
    rw [vanished.chain]
    exact List.erase_sublist
  cells x cx is := by
    obtain ⟨-, c₀, is₀, rfl⟩ := vanished.cell is
    exact ⟨c₀, is₀, rfl, without_collectable a c₀, Nat.le_refl _, fun _ => without_fields a c₀⟩
  marked x cx is marked := by
    have ne : x ≠ a := by
      rintro rfl
      rw [found] at is
      cases is
      rw [unmarked] at marked
      cases marked
    exact ⟨_, vanished.new ne is, marked, without_fields a cx⟩

theorem cellWeight_without (a : ℕ) (c : SQRefCounted) :
    cellWeight (some (c.without a)) = cellWeight (some c) := by
  unfold cellWeight SQRefCounted.without
  by_cases body : c.body = .weak a true
  · simp only [if_pos body]
    rw [body]
  · simp only [if_neg body]

include vanished in
theorem Vanished.weight (found : m.cells a = some c) (lt : a < m.next) :
    m'.weight + cellWeight (some c) = m.weight := by
  have update : weigh (Function.update (fun x => cellWeight (m.cells x)) a 0) m.next + _ = _ :=
    weigh_update lt
  rw [found, Nat.add_zero] at update
  unfold Memory.weight
  rw [vanished.next, ← update]
  congr 1
  refine weigh_congr fun x _ => ?_
  by_cases same : x = a
  · rw [same, vanished.gone, Function.update_self]
    rfl
  · rw [Function.update_of_ne same]
    cases is : m.cells x with
    | none => rw [vanished.none_iff.2 (.inr is)]
    | some cx => rw [vanished.new same is, cellWeight_without]

end Vanish

/-! ## Releases to their end -/

section Run

variable {task : Task} {T : List Task} {v : Option ℕ}

theorem sound_release_none (sound : Sound m (.release none :: tasks) []) : Sound m tasks [] := by
  have refs : ∀ x, m.refs (.release none :: tasks) x = m.refs tasks x := fun x => by
    rw [refs_release, if_neg (by simp), Nat.add_zero]
  refine ⟨sound.toLinked, fun x cx is => ?_, fun x named => ?_, fun x cx is zero => ?_,
    fun x mem => ?_, sound.once, fun x => ?_⟩
  · rw [← refs]
    exact sound.counted x cx is
  · exact sound.live x (by rwa [refs])
  · exact (sound.dying x cx is zero).imp (fun mem => by simpa using mem) id
  · obtain ⟨once, rest⟩ := sound.finishing x (List.mem_cons_of_mem _ mem)
    rw [List.count_cons_of_ne (by simp)] at once
    exact ⟨once, rest⟩
  · simpa using sound.released x

/-- What a task leaves to do, the counts wait for; and there is less to do. -/
def Progress (m : Memory) (tasks : List Task) (step : Option (List Task × Memory)) : Prop :=
  ∃ more m', step = some (more, m') ∧ Sound m' (more ++ tasks) [] ∧ Kept m m' ∧
    m'.weight + more.length < m.weight + 1

theorem step_release (found : m.cells a = some c) (positive : 0 < c.uiRef) :
    m.step (.release (some a)) =
      if c.uiRef - 1 = 0 ∧ c.marked = false then m.destroy a { c with uiRef := c.uiRef - 1 }
      else some ([], m.put a { c with uiRef := c.uiRef - 1 }) := by
  rw [Memory.step, found]
  exact if_neg (by omega)

theorem step_of_one (found : m.cells a = some c) (one : c.uiRef = 1) (unmarked : c.marked = false) :
    m.step (.release (some a)) = m.destroy a { c with uiRef := 0 } := by
  rw [step_release found (by omega), if_pos ⟨by omega, unmarked⟩, one]

/-- An object with further references loses one. -/
theorem Sound.step_shared (sound : Sound m (.release (some a) :: tasks) [])
    (found : m.cells a = some c) (many : 2 ≤ c.uiRef) :
    Progress m tasks (m.step (.release (some a))) := by
  have lt : a < m.next := sound.bounded a (by simp [found])
  rw [step_release found (by omega), if_neg fun both => by omega]
  refine ⟨[], _, rfl, sound.decrement found many, kept_put found (replaces_recount c _)
    (Nat.sub_le _ _) (fun _ => rfl), ?_⟩
  have weights := weight_put { c with uiRef := c.uiRef - 1 } found lt
  unfold cellWeight at weights
  simp only [show c.uiRef ≠ 0 by omega, show c.uiRef - 1 ≠ 0 by omega, if_false] at weights
  simp only [List.length_nil]
  omega

theorem Sound.unmarked_of_last (sound : Sound m tasks' []) (found : m.cells a = some c)
    (alone : m.refs tasks a = 0) : c.marked = false := by
  by_contra marked
  exact sound.refs_of_marked found (by simpa using marked) tasks alone

theorem Sound.released_iff_of_plain (sound : Sound m tasks []) (found : m.cells a = some c)
    (plain : c.body.isCollectable = false) : a ∈ m.released ↔ a ∈ m.hooked := by
  have unhooked : a ∉ m.hooked := fun mem => by
    have := (sound.hooks a mem).2 c found
    rw [plain] at this
    cases this
  exact iff_of_false (fun mem => unhooked ((sound.released a).1 mem).1) unhooked

/-- An object that holds no references goes at once. -/
theorem Sound.step_freed (sound : Sound m (.release (some a) :: tasks) [])
    (found : m.cells a = some c) (one : c.uiRef = 1) (alone : m.refs tasks a = 0)
    (empty : c.body.fields = []) (plain : c.body.isCollectable = false)
    (vanished : Vanished m m' a) (ran : m.step (.release (some a)) = some ([], m')) :
    Progress m tasks (m.step (.release (some a))) := by
  have unmarked := sound.unmarked_of_last found alone
  have others : ∀ x, x ≠ a → m.refs tasks x = m.refs (.release (some a) :: tasks) x :=
    fun x ne => by
      rw [refs_release, if_neg fun eq => ne (Option.some.inj eq).symm, Nat.add_zero]
  have finish : ∀ x, x ≠ a →
      tasks.count (.finish x) = (Task.release (some a) :: tasks).count (.finish x) :=
    fun x _ => (List.count_cons_of_ne (by simp)).symm
  have weights := vanished.weight found (sound.bounded a (by simp [found]))
  refine ⟨[], m', ran, ?_, vanished.kept found unmarked, ?_⟩
  · exact sound.vanish vanished found empty unmarked alone others
      (sound.unfinished_of_counted found (by omega)) finish
      (sound.released_iff_of_plain found plain)
  · simp only [List.length_nil]
    omega

/-- `Release` of a collectable object finalizes it, and leaves what it held and its own memory. -/
theorem Sound.step_collectable (sound : Sound m (.release (some a) :: tasks) [])
    (found : m.cells a = some c) (one : c.uiRef = 1) (alone : m.refs tasks a = 0)
    {fields : List (Option ℕ)} (body : c.body = .collectable fields) :
    Progress m tasks (m.step (.release (some a))) := by
  have unmarked := sound.unmarked_of_last found alone
  have lt : a < m.next := sound.bounded a (by simp [found])
  have destroyed := sound.destroy_collectable found one unmarked body
  rw [step_of_one found one unmarked, destroy]
  simp only [body]
  refine ⟨_, _, rfl, ?_, ?_, ?_⟩
  · rw [List.append_assoc]
    exact destroyed
  · have kept := kept_put found (replaces_fields [] body unmarked 0)
      (Nat.zero_le _) fun counted => absurd rfl counted
    exact ⟨kept.slots, kept.next, kept.hooked, kept.chain, kept.cells, kept.marked⟩
  · have weights := weight_put { c with uiRef := 0, body := .collectable [] } found lt
    unfold cellWeight at weights
    simp only [one, body, Nat.one_ne_zero, if_false, if_true] at weights
    show (m.put a { c with uiRef := 0, body := .collectable [] }).weight + _ < _
    rw [List.length_append, List.length_map, List.length_singleton]
    omega

/-- The last reference is released. -/
theorem Sound.step_last (sound : Sound m (.release (some a) :: tasks) [])
    (found : m.cells a = some c) (one : c.uiRef = 1) (alone : m.refs tasks a = 0) :
    Progress m tasks (m.step (.release (some a))) := by
  have last := step_of_one found one (sound.unmarked_of_last found alone)
  unfold destroy at last
  cases body : c.body with
  | weak t alive =>
    simp only [body] at last
    cases alive with
    | true =>
      obtain ⟨m₁, m₂, changed, ran, vanished⟩ := sound.forget_weak found body
      refine sound.step_freed found one alone (by rw [body]; rfl) (by rw [body]; rfl) vanished ?_
      rw [last]
      simp only [if_true, changed, ran, Option.bind_eq_bind, Option.bind_some]
    | false =>
      obtain ⟨m₁, ran, vanished⟩ := sound.forget found fun t => by rw [body]; simp
      refine sound.step_freed found one alone (by rw [body]; rfl) (by rw [body]; rfl) vanished ?_
      rw [last]
      simp only [Bool.false_eq_true, if_false, ran, Option.bind_eq_bind, Option.bind_some]
  | string =>
    simp only [body] at last
    obtain ⟨m₁, ran, vanished⟩ := sound.forget found fun t => by rw [body]; simp
    refine sound.step_freed found one alone (by rw [body]; rfl) (by rw [body]; rfl) vanished ?_
    rw [last]
    simp only [ran, Option.bind_eq_bind, Option.bind_some]
  | collectable fields => exact sound.step_collectable found one alone body

/-- The memory of a finalized object goes. -/
theorem Sound.step_finish (sound : Sound m (.finish a :: tasks) []) :
    Progress m tasks (m.step (.finish a)) := by
  obtain ⟨once, c, found, zero, unmarked, body⟩ := sound.finishing a List.mem_cons_self
  have lt : a < m.next := sound.bounded a (by simp [found])
  obtain ⟨m₁, ran, vanished⟩ := sound.forget found fun t => by rw [body]; simp
  have unfinished : .finish a ∉ tasks := by
    rw [List.count_cons_self] at once
    exact List.count_eq_zero.1 (by omega)
  have alone : m.refs tasks a = 0 := by
    have counted := sound.counted a c found
    rw [List.count_nil, refs_finish] at counted
    omega
  have weights := vanished.weight found lt
  refine ⟨[], m₁.free a, ?_, ?_, vanished.kept found unmarked, ?_⟩
  · rw [Memory.step, found]
    simp only [ran, Option.bind_eq_bind, Option.bind_some]
  · refine sound.vanish vanished found (by rw [body]; rfl) unmarked alone
      (fun x _ => (refs_finish m a tasks x).symm) unfinished
      (fun x ne => (List.count_cons_of_ne (by simpa using fun eq => ne eq.symm)).symm) ?_
    rw [sound.released]
    exact ⟨fun both => both.1, fun hook => ⟨hook, .inr List.mem_cons_self⟩⟩
  · simp only [List.length_nil]
    omega

theorem Sound.step (sound : Sound m (task :: tasks) []) : Progress m tasks (m.step task) := by
  cases task with
  | release v =>
    cases v with
    | none => exact ⟨[], m, rfl, sound_release_none sound, Kept.refl m, Nat.lt_succ_self _⟩
    | some a =>
      obtain ⟨c, found, counts⟩ := sound.released_cell
      by_cases many : 2 ≤ c.uiRef
      · exact sound.step_shared found many
      · exact sound.step_last found (by omega) (by omega)
  | finish a => exact sound.step_finish

theorem release_rule : Worklist.Rule Memory.step (fun m tasks => Sound m tasks []) Kept weight where
  refl := Kept.refl
  trans _ _ _ := Kept.trans
  step _ _ _ sound := sound.step

theorem Sound.finishTasks (sound : Sound m (T ++ tasks) []) :
    ∃ m', m.finishTasks T = some m' ∧ Sound m' tasks [] ∧ Kept m m' :=
  release_rule.run sound (Nat.le_refl _)

theorem Sound.release (sound : Sound m (.release v :: tasks) []) :
    ∃ m', m.release v = some m' ∧ Sound m' tasks [] ∧ Kept m m' :=
  Sound.finishTasks (T := [.release v]) sound

end Run

end Memory

end Squirrels
