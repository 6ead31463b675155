import Squirrels.Vm.RefCountedLaws

/-!
# Runs of operations on references

Every operation keeps the counts, so that every run of them ends in a memory without dangling
references, in which each object has as many references as it counts and at least one, each weak
reference names what is there and nothing else, and each hook has been called once for each object
that has gone.
-/

namespace Squirrels

namespace Memory

open Counting

variable {m m' : Memory} {tasks : List Task} {due : List (Option ℕ)} {a x : ℕ} {c : SQRefCounted}
  {v old : Option ℕ} {dst : Place}

/-- The reference, if it is one, is to an object that is there. -/
def There (m : Memory) (v : Option ℕ) : Prop := ∀ a, v = some a → m.cells a ≠ none

/-- Between operations: no object is marked, and nothing is left to do. -/
structure Steady (m : Memory) : Prop where
  sound : Sound m [] []
  unmarked : ∀ a c, m.cells a = some c → c.marked = false

/-! ## Parts of an assignment -/

/-- A reference that is about to be counted and released again. -/
theorem Sound.hold (sound : Sound m tasks due) (there : m.There v) :
    Sound m (.release v :: tasks) (v :: due) := by
  have finish_iff : ∀ x, .finish x ∈ Task.release v :: tasks ↔ .finish x ∈ tasks := fun x => by simp
  refine ⟨sound.toLinked, fun x cx is => ?_, fun x named => ?_, fun x cx is zero => ?_,
    fun x mem => ?_, sound.once, fun x => ?_⟩
  · have counted := sound.counted x cx is
    rw [refs_release, List.count_cons]
    simp only [beq_iff_eq]
    omega
  · rw [refs_release] at named
    by_cases same : v = some x
    · exact there x same
    · rw [if_neg same, Nat.add_zero] at named
      exact sound.live x named
  · exact (sound.dying x cx is zero).imp (finish_iff x).2 (List.mem_cons_of_mem _)
  · obtain ⟨once, rest⟩ := sound.finishing x ((finish_iff x).1 mem)
    refine ⟨?_, rest⟩
    rwa [List.count_cons_of_ne (by simp)]
  · rw [finish_iff]
    exact sound.released x

/-- Nothing but counts differs. -/
structure Recounted (m m' : Memory) : Prop where
  slots : m'.slots = m.slots
  next : m'.next = m.next
  hooked : m'.hooked = m.hooked
  chain : m'.gcChain = m.gcChain
  fieldsOf : m'.fieldsOf = m.fieldsOf
  none_iff : ∀ x, m'.cells x = none ↔ m.cells x = none
  cells : ∀ x cx, m'.cells x = some cx → ∃ c₀, m.cells x = some c₀ ∧ Replaces cx c₀

theorem Recounted.refl (m : Memory) : Recounted m m :=
  ⟨rfl, rfl, rfl, rfl, rfl, fun _ => Iff.rfl, fun _ cx is => ⟨cx, is, Replaces.refl cx⟩⟩

theorem Recounted.there (same : Recounted m m') (there : m.There v) : m'.There v :=
  fun a eq none => there a eq ((same.none_iff a).1 none)

theorem Recounted.unmarked (same : Recounted m m')
    (unmarked : ∀ a c, m.cells a = some c → c.marked = false) :
    ∀ a c, m'.cells a = some c → c.marked = false := by
  intro a c is
  obtain ⟨c₀, is₀, old⟩ := same.cells a c is
  exact old.marked.trans (unmarked a c₀ is₀)

/-- `__AddRef` of a reference that is due. -/
theorem Sound.addRef (sound : Sound m tasks (v :: due)) (there : m.There v)
    (calm : ∀ x, .finish x ∉ tasks) :
    ∃ m', m.addRef v = some m' ∧ Sound m' tasks due ∧ Recounted m m' := by
  cases v with
  | none =>
    refine ⟨m, rfl, ⟨sound.toLinked, fun x cx is => ?_, sound.live, fun x cx is zero => ?_,
      sound.finishing, sound.once, sound.released⟩, Recounted.refl m⟩
    · have counted := sound.counted x cx is
      rwa [List.count_cons_of_ne (by simp)] at counted
    · exact (sound.dying x cx is zero).imp id fun mem => by simpa using mem
  | some a =>
    obtain ⟨c, found⟩ := Option.ne_none_iff_exists'.1 (there a rfl)
    have lt : a < m.next := sound.bounded a (by simp [found])
    have refs : ∀ x, (m.put a { c with uiRef := c.uiRef + 1 }).refs tasks x = m.refs tasks x :=
      refs_put_same found lt (by rfl) tasks
    have fields : (m.put a { c with uiRef := c.uiRef + 1 }).fieldsOf = m.fieldsOf := by
      rw [fieldsOf_put, ← fieldsOf_of_cell found, Function.update_eq_self]
    refine ⟨_, change_of_cell found _, ⟨sound.toLinked.replace found (replaces_recount c _),
      fun x cx is => ?_, fun x named => ?_, fun x cx is zero => ?_,
      fun x mem => absurd mem (calm x), sound.once, fun x => ?_⟩, rfl, rfl, rfl, rfl, fields,
      fun x => put_eq_none_iff found, fun x cx is => replaced_old found (replaces_recount c _) is⟩
    · rw [refs]
      rw [cells_put] at is
      split at is
      · rename_i same
        cases is
        have counted := sound.counted a c found
        rw [List.count_cons_self] at counted
        rw [same]
        simp only
        omega
      · rename_i ne
        have counted := sound.counted x cx is
        rwa [List.count_cons_of_ne fun eq => ne (Option.some.inj eq).symm] at counted
    · rw [refs] at named
      rw [Ne, put_eq_none_iff found]
      exact sound.live x named
    · rw [cells_put] at is
      split at is
      · cases is
        simp only at zero
        omega
      · rename_i ne
        refine (sound.dying x cx is zero).imp id fun mem => ?_
        exact (List.mem_cons.1 mem).resolve_left fun eq => ne (Option.some.inj eq)
    · show x ∈ m.released ↔ x ∈ m.hooked ∧ _
      rw [put_eq_none_iff found]
      exact sound.released x

/-- Slots that hold what tasks held. -/
theorem Sound.reslot (sound : Sound m tasks due) (unmarked : ∀ a c, m.cells a = some c →
    c.marked = false) {slots : List (Option ℕ)} {tasks' : List Task}
    (refs : ∀ x, ({ m with slots := slots } : Memory).refs tasks' x = m.refs tasks x)
    (finish : ∀ x, tasks'.count (.finish x) = tasks.count (.finish x)) :
    Sound { m with slots := slots } tasks' due := by
  have finish_iff : ∀ x, .finish x ∈ tasks' ↔ .finish x ∈ tasks := fun x => by
    rw [← List.count_pos_iff, ← List.count_pos_iff, finish x]
  refine ⟨⟨sound.bounded, sound.weakref, sound.alive, sound.gone, fun x cx is marked => ?_,
    sound.chain, sound.chained, sound.hooks⟩, fun x cx is => ?_, fun x named => ?_,
    fun x cx is zero => ?_, fun x mem => ?_, sound.once, fun x => ?_⟩
  · rw [unmarked x cx is] at marked
    cases marked
  · rw [refs]
    exact sound.counted x cx is
  · rw [refs] at named
    exact sound.live x named
  · exact (sound.dying x cx is zero).imp (finish_iff x).2 id
  · rw [finish]
    exact sound.finishing x ((finish_iff x).1 mem)
  · rw [finish_iff]
    exact sound.released x

/-- An object that holds what tasks held. -/
theorem Sound.refield (sound : Sound m tasks due) (found : m.cells a = some c)
    (unmarked : c.marked = false) {l : List (Option ℕ)} (body : c.body = .collectable l)
    (l' : List (Option ℕ)) (tasks' : List Task) (unfinished : .finish a ∉ tasks)
    (refs : ∀ x, (m.put a { c with body := .collectable l' }).refs tasks' x = m.refs tasks x)
    (finish : ∀ x, tasks'.count (.finish x) = tasks.count (.finish x)) :
    Sound (m.put a { c with body := .collectable l' }) tasks' due := by
  have finish_iff : ∀ x, .finish x ∈ tasks' ↔ .finish x ∈ tasks := fun x => by
    rw [← List.count_pos_iff, ← List.count_pos_iff, finish x]
  have replaces : Replaces { c with body := .collectable l' } c :=
    replaces_fields l' body unmarked c.uiRef
  refine ⟨sound.toLinked.replace found replaces, fun x cx is => ?_, fun x named => ?_,
    fun x cx is zero => ?_, fun x mem => ?_, sound.once, fun x => ?_⟩
  · rw [refs]
    rw [cells_put] at is
    split at is
    · rename_i same
      cases is
      rw [same]
      exact sound.counted a c found
    · exact sound.counted x cx is
  · rw [refs] at named
    rw [Ne, put_eq_none_iff found]
    exact sound.live x named
  · rw [cells_put] at is
    split at is
    · rename_i same
      cases is
      rw [same, finish_iff]
      exact sound.dying a c found zero
    · exact (sound.dying x cx is zero).imp (finish_iff x).2 id
  · have old := (finish_iff x).1 mem
    have ne : x ≠ a := by
      rintro rfl
      exact unfinished old
    obtain ⟨once, cx, is, rest⟩ := sound.finishing x old
    exact ⟨(finish x).trans once, cx, by rw [cells_put_of_ne _ _ ne, is], rest⟩
  · show x ∈ m.released ↔ x ∈ m.hooked ∧ _
    rw [put_eq_none_iff found, finish_iff]
    exact sound.released x

theorem count_set {l : List (Option ℕ)} {i : ℕ} (at_ : l[i]? = some old) (v : Option ℕ) (x : ℕ) :
    (l.set i v).count (some x) + (if old = some x then 1 else 0) =
      l.count (some x) + if v = some x then 1 else 0 := by
  obtain ⟨lt, is⟩ := List.getElem?_eq_some_iff.1 at_
  rw [List.count_set lt, is]
  simp only [beq_iff_eq]
  by_cases same : old = some x
  · have := List.count_pos_iff.2 (same ▸ is ▸ List.getElem_mem lt)
    simp only [if_pos same]
    omega
  · simp only [if_neg same]
    omega

/-- A write moves the new reference to its place, and what was there is left to release. -/
theorem Sound.write (sound : Sound m [.release v] due)
    (unmarked : ∀ a c, m.cells a = some c → c.marked = false) (place : m.read dst = some old) :
    ∃ m', m.write v dst = some m' ∧ Sound m' [.release old] due ∧
      (∀ x, m'.cells x = none ↔ m.cells x = none) ∧
      ∀ x cx, m'.cells x = some cx → cx.marked = false := by
  cases dst with
  | slot i =>
    refine ⟨_, rfl, sound.reslot unmarked (fun x => ?_) (fun x => ?_), fun _ => Iff.rfl, unmarked⟩
    · have counts := count_set place v x
      rw [refs_release, refs_release]
      unfold refs
      show (m.slots.set i v).count (some x) + total m.fieldsOf m.next (some x) + _ + _ = _
      omega
    · rw [List.count_cons_of_ne (by simp), List.count_cons_of_ne (by simp)]
  | field i j =>
    obtain ⟨a, obj, at_⟩ := Option.bind_eq_some_iff.1 place
    have there : m.cells a ≠ none := fun none => by
      rw [fieldsOf, none] at at_
      cases at_
    obtain ⟨c, found⟩ := Option.ne_none_iff_exists'.1 there
    rw [fieldsOf_of_cell found] at at_
    obtain ⟨l, body⟩ : ∃ l, c.body = .collectable l := by
      cases body : c.body with
      | collectable l => exact ⟨l, rfl⟩
      | _ => rw [body] at at_; cases at_
    rw [body] at at_
    change l[j]? = some old at at_
    have lt : a < m.next := sound.bounded a there
    have same : m.fieldsOf a = l := by rw [fieldsOf_of_cell found, body]; rfl
    have replaces : Replaces { c with body := .collectable (l.set j v) } c :=
      replaces_fields _ body (unmarked a c found) c.uiRef
    refine ⟨m.put a { c with body := .collectable (l.set j v) }, ?_,
      sound.refield found (unmarked a c found) body _ _ (by simp) (fun x => ?_) (fun x => ?_),
      fun x => put_eq_none_iff found, fun x cx is => ?_⟩
    · rw [Memory.write, obj]
      show m.writeFields a _ = _
      rw [same, writeFields, change_of_cell found, body]
      rfl
    · have counts := count_set at_ v x
      have change := refs_put (c := { c with body := .collectable (l.set j v) }) [] lt x
      rw [same] at change
      simp only [Body.fields] at change
      rw [refs_release, refs_release]
      omega
    · rw [List.count_cons_of_ne (by simp), List.count_cons_of_ne (by simp)]
    · obtain ⟨c₀, is₀, old⟩ := replaced_old found replaces is
      exact old.marked.trans (unmarked x c₀ is₀)

/-! ## Assignments -/

theorem Kept.unmarked (kept : Kept m m')
    (unmarked : ∀ a c, m.cells a = some c → c.marked = false) :
    ∀ a c, m'.cells a = some c → c.marked = false := by
  intro a c is
  obtain ⟨c₀, is₀, same, -⟩ := kept.cells a c is
  exact same.trans (unmarked a c₀ is₀)

/-- `operator=`, of a reference that is held. -/
theorem Sound.assign (sound : Sound m [.release v] [v])
    (unmarked : ∀ a c, m.cells a = some c → c.marked = false) (there : m.There v)
    (place : (m.read dst).isSome) : ∃ m', m.assign dst v = some m' ∧ Steady m' := by
  obtain ⟨old, at_⟩ := Option.isSome_iff_exists.1 place
  obtain ⟨m₁, written, sound₁, none₁, unmarked₁⟩ := sound.write unmarked at_
  have there₁ : m₁.There v := fun a eq none => there a eq ((none₁ a).1 none)
  obtain ⟨m₂, counted, sound₂, same⟩ := sound₁.addRef there₁ (by simp)
  obtain ⟨m₃, released, sound₃, kept⟩ := sound₂.release
  refine ⟨m₃, ?_, sound₃, kept.unmarked (same.unmarked unmarked₁)⟩
  rw [Memory.assign, at_]
  simp only [written, counted, Option.bind_eq_bind, Option.bind_some, released]

theorem Steady.assign (steady : Steady m) (there : m.There v) (place : (m.read dst).isSome) :
    ∃ m', m.assign dst v = some m' ∧ Steady m' :=
  (steady.sound.hold there).assign steady.unmarked there place

/-- What an object refers to is there. -/
theorem Sound.held (sound : Sound m tasks due) {b : ℕ} (holds : some a ∈ m.fieldsOf b) :
    m.cells a ≠ none := by
  have there : m.cells b ≠ none := fun none => by
    rw [fieldsOf, none] at holds
    cases holds
  have named : ¬ total m.fieldsOf m.next (some a) = 0 := by
    rw [total_eq_zero_iff]
    exact fun none => none b (sound.bounded b there) holds
  refine sound.live a ?_
  unfold refs
  omega

/-- What is at a place is there. -/
theorem Steady.there (steady : Steady m) (place : m.read dst = some v) : m.There v := by
  rintro a rfl
  cases dst with
  | slot i =>
    refine steady.sound.live a ?_
    unfold refs
    have := List.count_pos_iff.2 (List.mem_of_getElem? place)
    omega
  | field i j =>
    obtain ⟨b, -, at_⟩ := Option.bind_eq_some_iff.1 place
    exact steady.sound.held (List.mem_of_getElem? at_)

theorem Steady.object_there (steady : Steady m) {i : ℕ} (obj : m.objectAt i = some a) :
    m.cells a ≠ none := by
  obtain ⟨v, at_, eq⟩ := Option.bind_eq_some_iff.1 obj
  exact steady.there (show m.read (.slot i) = some v from at_) a eq

/-! ## New objects -/

theorem cells_allocate (m : Memory) (hooked : Bool) (body : Body) (x : ℕ) :
    (m.allocate hooked body).cells x =
      if x = m.next then some ⟨0, false, none, body⟩ else m.cells x := by
  by_cases same : x = m.next
  · rw [if_pos same, same]
    exact Function.update_self _ _ _
  · rw [if_neg same]
    exact Function.update_of_ne same _ _

theorem Steady.next_free (steady : Steady m) : m.cells m.next = none := by
  by_contra there
  exact Nat.lt_irrefl _ (steady.sound.bounded _ there)

theorem Steady.refs_next (steady : Steady m) : m.refs [] m.next = 0 := by
  by_contra named
  exact steady.sound.live _ named steady.next_free

theorem refs_allocate (m : Memory) (hooked : Bool) (body : Body) (x : ℕ) :
    (m.allocate hooked body).refs [] x = m.refs [] x + body.fields.count (some x) := by
  have old : ∀ y < m.next, (m.allocate hooked body).fieldsOf y = m.fieldsOf y := fun y lt => by
    rw [fieldsOf, cells_allocate, if_neg (by omega)]
    rfl
  have new : (m.allocate hooked body).fieldsOf m.next = body.fields := by
    rw [fieldsOf, cells_allocate, if_pos rfl]
  unfold refs
  show m.slots.count (some x) + total _ (m.next + 1) _ + _ = _
  rw [total_succ, total_congr old, new]
  simp only [List.count_nil]
  omega

section Allocate

variable {hooked : Bool} {body : Body} {cx : SQRefCounted}

theorem cell_of_allocate (is : (m.allocate hooked body).cells x = some cx) :
    x = m.next ∧ cx = ⟨0, false, none, body⟩ ∨ x ≠ m.next ∧ m.cells x = some cx := by
  rw [cells_allocate] at is
  by_cases new : x = m.next
  · rw [if_pos new] at is
    exact .inl ⟨new, (Option.some.inj is).symm⟩
  · rw [if_neg new] at is
    exact .inr ⟨new, is⟩

theorem Steady.cell_allocate (steady : Steady m) (is : m.cells x = some cx) :
    (m.allocate hooked body).cells x = some cx := by
  have ne : x ≠ m.next := by
    rintro rfl
    rw [steady.next_free] at is
    cases is
  rw [cells_allocate, if_neg ne, is]

theorem mem_chain_allocate (ne : x ≠ m.next) :
    x ∈ (m.allocate hooked body).gcChain ↔ x ∈ m.gcChain := by
  show x ∈ (if body.isCollectable = true then m.next :: m.gcChain else m.gcChain) ↔ _
  by_cases collectable : body.isCollectable = true
  · rw [if_pos collectable, List.mem_cons, or_iff_right ne]
  · rw [if_neg collectable]

theorem mem_hooked_allocate (ne : x ≠ m.next) :
    x ∈ (m.allocate hooked body).hooked ↔ x ∈ m.hooked := by
  show x ∈ (if hooked = true then m.next :: m.hooked else m.hooked) ↔ _
  by_cases isHooked : hooked = true
  · rw [if_pos isHooked, List.mem_cons, or_iff_right ne]
  · rw [if_neg isHooked]

theorem Steady.next_unchained (steady : Steady m) : m.next ∉ m.gcChain := by
  intro mem
  obtain ⟨c₀, is, -⟩ := (steady.sound.chained _).1 mem
  rw [steady.next_free] at is
  cases is

theorem Steady.next_unhooked (steady : Steady m) : m.next ∉ m.hooked := fun mem =>
  Nat.lt_irrefl _ (steady.sound.hooks _ mem).1

theorem Steady.allocate_chain (steady : Steady m) : (m.allocate hooked body).gcChain.Nodup := by
  show (if body.isCollectable = true then m.next :: m.gcChain else m.gcChain).Nodup
  by_cases collectable : body.isCollectable = true
  · rw [if_pos collectable]
    exact List.nodup_cons.2 ⟨steady.next_unchained, steady.sound.chain⟩
  · rw [if_neg collectable]
    exact steady.sound.chain

theorem Steady.allocate_chained (steady : Steady m) (x : ℕ) :
    x ∈ (m.allocate hooked body).gcChain ↔ ∃ c, (m.allocate hooked body).cells x = some c ∧
      c.body.isCollectable = true ∧ c.marked = false := by
  by_cases new : x = m.next
  · have is : (m.allocate hooked body).cells x = some ⟨0, false, none, body⟩ := by
      rw [cells_allocate, if_pos new]
    show x ∈ (if body.isCollectable = true then m.next :: m.gcChain else m.gcChain) ↔ _
    by_cases collectable : body.isCollectable = true
    · rw [if_pos collectable, new]
      exact iff_of_true List.mem_cons_self ⟨_, new ▸ is, collectable, rfl⟩
    · rw [if_neg collectable]
      refine iff_of_false (fun mem => steady.next_unchained (new ▸ mem)) ?_
      rintro ⟨c, is', collectable', -⟩
      rw [is] at is'
      cases is'
      exact collectable collectable'
  · rw [mem_chain_allocate new, steady.sound.chained, cells_allocate, if_neg new]

theorem Steady.allocate_hooks (steady : Steady m)
    (hook : hooked = true → body.isCollectable = true) (x : ℕ)
    (mem : x ∈ (m.allocate hooked body).hooked) : x < (m.allocate hooked body).next ∧
      ∀ c, (m.allocate hooked body).cells x = some c → c.body.isCollectable = true := by
  show x < m.next + 1 ∧ _
  by_cases new : x = m.next
  · have isHooked : hooked = true := by
      by_contra isHooked
      change x ∈ (if hooked = true then m.next :: m.hooked else m.hooked) at mem
      rw [if_neg isHooked, new] at mem
      exact steady.next_unhooked mem
    refine ⟨by omega, fun c is => ?_⟩
    rcases cell_of_allocate is with ⟨-, rfl⟩ | ⟨ne, -⟩
    · exact hook isHooked
    · exact absurd new ne
  · obtain ⟨lt, all⟩ := steady.sound.hooks x ((mem_hooked_allocate new).1 mem)
    refine ⟨by omega, fun c is => ?_⟩
    rcases cell_of_allocate is with ⟨eq, -⟩ | ⟨-, is₀⟩
    · exact absurd eq new
    · exact all c is₀

/-- The links with a new object that is no weak reference. -/
theorem Steady.allocate_linked (steady : Steady m) (names : ∀ t alive, body ≠ .weak t alive)
    (hook : hooked = true → body.isCollectable = true) : Linked (m.allocate hooked body) where
  bounded x is := by
    show x < m.next + 1
    obtain ⟨cx, is⟩ := Option.ne_none_iff_exists'.1 is
    rcases cell_of_allocate is with ⟨rfl, -⟩ | ⟨-, is₀⟩
    · exact Nat.lt_succ_self _
    · exact Nat.lt_succ_of_lt (steady.sound.bounded x (by simp [is₀]))
  weakref x cx w is weak := by
    rcases cell_of_allocate is with ⟨-, rfl⟩ | ⟨-, is₀⟩
    · cases weak
    · obtain ⟨cw, isW, isWeak⟩ := steady.sound.weakref x cx w is₀ weak
      exact ⟨cw, steady.cell_allocate isW, isWeak⟩
  alive w cw t is isWeak := by
    rcases cell_of_allocate is with ⟨-, rfl⟩ | ⟨-, is₀⟩
    · exact absurd isWeak (names _ _)
    · obtain ⟨ct, isT, weak⟩ := steady.sound.alive w cw t is₀ isWeak
      exact ⟨ct, steady.cell_allocate isT, weak⟩
  gone w cw t is isWeak := by
    rcases cell_of_allocate is with ⟨-, rfl⟩ | ⟨-, is₀⟩
    · exact absurd isWeak (names _ _)
    · obtain ⟨dead, lt⟩ := steady.sound.gone w cw t is₀ isWeak
      rw [cells_allocate, if_neg (by omega)]
      exact ⟨dead, Nat.lt_succ_of_lt lt⟩
  anchored x cx is marked := by
    rcases cell_of_allocate is with ⟨-, rfl⟩ | ⟨-, is₀⟩
    · cases marked
    · rw [steady.unmarked x cx is₀] at marked
      cases marked
  chain := steady.allocate_chain
  chained := steady.allocate_chained
  hooks := steady.allocate_hooks hook

theorem Steady.allocate_counted (steady : Steady m) (x : ℕ)
    (is : (m.allocate hooked body).cells x = some cx) :
    cx.uiRef + (body.fields ++ [some m.next]).count (some x) =
      (m.allocate hooked body).refs [.release (some m.next)] x := by
  rw [refs_release, refs_allocate, List.count_append, List.count_cons, List.count_nil]
  simp only [beq_iff_eq]
  rcases cell_of_allocate is with ⟨rfl, rfl⟩ | ⟨-, is₀⟩
  · rw [steady.refs_next]
    simp only
    omega
  · have counted := steady.sound.counted x cx is₀
    rw [List.count_nil] at counted
    omega

theorem Steady.allocate_live (steady : Steady m) (there : ∀ v ∈ body.fields, m.There v) (x : ℕ)
    (named : (m.allocate hooked body).refs [.release (some m.next)] x ≠ 0) :
    (m.allocate hooked body).cells x ≠ none := by
  rw [cells_allocate]
  by_cases new : x = m.next
  · rw [if_pos new]
    exact Option.some_ne_none _
  · rw [refs_release, refs_allocate, if_neg fun eq => new (Option.some.inj eq).symm,
      Nat.add_zero] at named
    rw [if_neg new]
    by_cases held : some x ∈ body.fields
    · exact there _ held x rfl
    · rw [List.count_eq_zero.2 held, Nat.add_zero] at named
      exact steady.sound.live x named

theorem Steady.allocate_released (steady : Steady m) (x : ℕ) :
    x ∈ m.released ↔ x ∈ (m.allocate hooked body).hooked ∧
      ((m.allocate hooked body).cells x = none ∨ .finish x ∈ [Task.release (some m.next)]) := by
  have before := steady.sound.released x
  have unfinished : .finish x ∉ [Task.release (some m.next)] := by simp
  simp only [List.not_mem_nil, or_false] at before
  rw [or_iff_left unfinished, cells_allocate, before]
  by_cases new : x = m.next
  · rw [if_pos new]
    exact iff_of_false (fun both => steady.next_unhooked (new ▸ both.1)) (by simp)
  · rw [if_neg new, mem_hooked_allocate new]

/-- A new object, whose references and the one to it are due. -/
theorem Steady.allocate (steady : Steady m) (hooked : Bool) (body : Body)
    (names : ∀ t alive, body ≠ .weak t alive) (hook : hooked = true → body.isCollectable = true)
    (there : ∀ v ∈ body.fields, m.There v) :
    Sound (m.allocate hooked body) [.release (some m.next)] (body.fields ++ [some m.next]) where
  toLinked := steady.allocate_linked names hook
  counted x _ := steady.allocate_counted x
  live := steady.allocate_live there
  dying x cx is zero := by
    rcases cell_of_allocate is with ⟨rfl, -⟩ | ⟨-, is₀⟩
    · exact .inr (by simp)
    · have := steady.sound.dying x cx is₀ zero
      simp at this
  finishing x mem := by simp at mem
  once := steady.sound.once
  released := steady.allocate_released

end Allocate

theorem Recounted.trans {m'' : Memory} (first : Recounted m m') (second : Recounted m' m'') :
    Recounted m m'' where
  slots := second.slots.trans first.slots
  next := second.next.trans first.next
  hooked := second.hooked.trans first.hooked
  chain := second.chain.trans first.chain
  fieldsOf := second.fieldsOf.trans first.fieldsOf
  none_iff x := (second.none_iff x).trans (first.none_iff x)
  cells x cx is := by
    obtain ⟨c₁, is₁, new⟩ := second.cells x cx is
    obtain ⟨c₀, is₀, old⟩ := first.cells x c₁ is₁
    exact ⟨c₀, is₀, new.trans old⟩

/-- `__AddRef` of several references that are due. -/
theorem Sound.addRefs {vs : List (Option ℕ)} (sound : Sound m tasks (vs ++ due))
    (there : ∀ v ∈ vs, m.There v) (calm : ∀ x, .finish x ∉ tasks) :
    ∃ m', Memory.addRefs vs m = some m' ∧ Sound m' tasks due ∧ Recounted m m' := by
  induction vs generalizing m with
  | nil => exact ⟨m, rfl, sound, Recounted.refl m⟩
  | cons v vs ih =>
    obtain ⟨m₁, counted, sound₁, same₁⟩ :=
      Sound.addRef (v := v) sound (there v List.mem_cons_self) calm
    obtain ⟨m', ran, sound', same⟩ := ih sound₁ fun u mem =>
      same₁.there (there u (List.mem_cons_of_mem _ mem))
    refine ⟨m', ?_, sound', same₁.trans same⟩
    rw [Memory.addRefs, counted]
    exact ran

/-- A place with objects that hold what they held has what it had. -/
theorem read_eq (slots : m'.slots = m.slots)
    (fields : ∀ a, m.cells a ≠ none → m'.fieldsOf a = m.fieldsOf a)
    (place : (m.read dst).isSome) : m'.read dst = m.read dst := by
  cases dst with
  | slot i =>
    show m'.slots[i]? = m.slots[i]?
    rw [slots]
  | field i j =>
    obtain ⟨v, is⟩ := Option.isSome_iff_exists.1 place
    obtain ⟨a, obj, at_⟩ := Option.bind_eq_some_iff.1 is
    have there : m.cells a ≠ none := fun none => by
      rw [fieldsOf, none] at at_
      cases at_
    have obj' : m'.objectAt i = m.objectAt i := by rw [objectAt, objectAt, slots]
    show (m'.objectAt i).bind _ = (m.objectAt i).bind _
    rw [obj', obj, Option.bind_some, Option.bind_some, fields a there]

theorem fieldsOf_allocate (m : Memory) (hooked : Bool) (body : Body) (ne : x ≠ m.next) :
    (m.allocate hooked body).fieldsOf x = m.fieldsOf x := by
  rw [fieldsOf, cells_allocate, if_neg ne]
  rfl

theorem Steady.read_allocate (steady : Steady m) (hooked : Bool) (body : Body)
    (place : (m.read dst).isSome) : (m.allocate hooked body).read dst = m.read dst := by
  refine read_eq rfl (fun a there => fieldsOf_allocate m hooked body ?_) place
  rintro rfl
  exact there steady.next_free

theorem Steady.unmarked_allocate (steady : Steady m) (hooked : Bool) (body : Body) :
    ∀ a c, (m.allocate hooked body).cells a = some c → c.marked = false := by
  intro a c is
  rw [cells_allocate] at is
  split at is
  · cases is
    rfl
  · exact steady.unmarked a c is

/-! ## Weak references -/

section Link

variable {w : ℕ} {cw ca : SQRefCounted}

/-- Two objects become a weak reference and what it names. -/
def link (m : Memory) (w a : ℕ) (cw ca : SQRefCounted) : Memory :=
  (m.put w { cw with body := .weak a true }).put a { ca with weakref := some w }

theorem link_cells (m : Memory) (w a : ℕ) (cw ca : SQRefCounted) (x : ℕ) :
    (m.link w a cw ca).cells x =
      if x = a then some { ca with weakref := some w }
      else if x = w then some { cw with body := .weak a true } else m.cells x := by
  rw [link, cells_put, cells_put]

/-- What an object was before. -/
theorem link_old (isW : m.cells w = some cw) (isA : m.cells a = some ca) (plain : cw.body = .string)
    {cx : SQRefCounted} (is : (m.link w a cw ca).cells x = some cx) :
    ∃ c₀, m.cells x = some c₀ ∧ cx.uiRef = c₀.uiRef ∧ cx.marked = c₀.marked ∧
      cx.body.fields = c₀.body.fields ∧ cx.body.isCollectable = c₀.body.isCollectable ∧
      (x ≠ a → cx.weakref = c₀.weakref) ∧ (x = a ∨ x ≠ w → cx.body = c₀.body) := by
  rw [link_cells] at is
  split at is
  · rename_i same
    cases is
    rw [same]
    exact ⟨ca, isA, rfl, rfl, rfl, rfl, fun ne => absurd rfl ne, fun _ => rfl⟩
  · rename_i ne
    split at is
    · rename_i same
      cases is
      refine ⟨cw, same ▸ isW, rfl, rfl, by rw [plain]; rfl, by rw [plain]; rfl, fun _ => rfl, ?_⟩
      rintro (eq | ne')
      · exact absurd eq ne
      · exact absurd same ne'
    · exact ⟨cx, is, rfl, rfl, rfl, rfl, fun _ => rfl, fun _ => rfl⟩

theorem link_none_iff (isW : m.cells w = some cw) (isA : m.cells a = some ca) :
    (m.link w a cw ca).cells x = none ↔ m.cells x = none := by
  rw [link_cells]
  split
  · rename_i same
    rw [same, isA]
    exact iff_of_false (Option.some_ne_none _) (Option.some_ne_none _)
  · split
    · rename_i same
      rw [same, isW]
      exact iff_of_false (Option.some_ne_none _) (Option.some_ne_none _)
    · rfl

/-- What an object is afterwards. -/
theorem link_new (isW : m.cells w = some cw) (isA : m.cells a = some ca) {c₀ : SQRefCounted}
    (is : m.cells x = some c₀) : ∃ cx, (m.link w a cw ca).cells x = some cx := by
  refine Option.ne_none_iff_exists'.1 fun none => ?_
  rw [link_none_iff isW isA, is] at none
  cases none

theorem Linked.link (linked : Linked m) (ne : w ≠ a) (isW : m.cells w = some cw)
    (isA : m.cells a = some ca) (plain : cw.body = .string)
    (unnamed : ca.weakref = none) : Linked (m.link w a cw ca) := by
  have weakOf : (m.link w a cw ca).cells w = some { cw with body := .weak a true } := by
    rw [link_cells, if_neg ne, if_pos rfl]
  have target : (m.link w a cw ca).cells a = some { ca with weakref := some w } := by
    rw [link_cells, if_pos rfl]
  refine ⟨fun x is => ?_, fun x cx u is weak => ?_, fun u cu t is isWeak => ?_,
    fun u cu t is isWeak => ?_, fun x cx is marked => ?_, linked.chain, fun x => ?_,
    fun x mem => ?_⟩
  · rw [Ne, link_none_iff isW isA] at is
    exact linked.bounded x is
  · obtain ⟨c₀, is₀, -, -, -, -, same, -⟩ := link_old isW isA plain is
    by_cases own : x = a
    · rw [own, target] at is
      cases is
      cases weak
      exact ⟨_, weakOf, by rw [own]⟩
    · rw [same own] at weak
      obtain ⟨cu, isU, body⟩ := linked.weakref x c₀ u is₀ weak
      have other : u ≠ w := by
        rintro rfl
        rw [isW] at isU
        cases isU
        rw [plain] at body
        cases body
      obtain ⟨cu', isU'⟩ := link_new isW isA isU
      obtain ⟨c₁, is₁, -, -, -, -, -, bodies⟩ := link_old isW isA plain isU'
      rw [isU] at is₁
      cases is₁
      exact ⟨cu', isU', (bodies (.inr other)).trans body⟩
  · obtain ⟨c₀, is₀, -, -, -, -, -, bodies⟩ := link_old isW isA plain is
    by_cases own : u = w
    · rw [own, weakOf] at is
      cases is
      cases isWeak
      exact ⟨_, target, by rw [own]⟩
    · rw [bodies (.inr own)] at isWeak
      obtain ⟨ct, isT, weak⟩ := linked.alive u c₀ t is₀ isWeak
      have other : t ≠ a := by
        rintro rfl
        rw [isA] at isT
        cases isT
        rw [unnamed] at weak
        cases weak
      obtain ⟨ct', isT'⟩ := link_new isW isA isT
      obtain ⟨c₁, is₁, -, -, -, -, same, -⟩ := link_old isW isA plain isT'
      rw [isT] at is₁
      cases is₁
      exact ⟨ct', isT', (same other).trans weak⟩
  · obtain ⟨c₀, is₀, -, -, -, -, -, bodies⟩ := link_old isW isA plain is
    have other : u ≠ w := by
      rintro rfl
      rw [weakOf] at is
      cases is
      cases isWeak
    rw [bodies (.inr other)] at isWeak
    obtain ⟨dead, lt⟩ := linked.gone u c₀ t is₀ isWeak
    exact ⟨(link_none_iff isW isA).2 dead, lt⟩
  · obtain ⟨c₀, is₀, -, mark, -⟩ := link_old isW isA plain is
    refine (linked.anchored x c₀ is₀ (mark ▸ marked)).imp id ?_
    rintro ⟨b, cb, isB, markB, held⟩
    obtain ⟨cb', isB'⟩ := link_new isW isA isB
    obtain ⟨c₁, is₁, -, mark₁, fields, -⟩ := link_old isW isA plain isB'
    rw [isB] at is₁
    cases is₁
    exact ⟨b, cb', isB', mark₁.trans markB, fields ▸ held⟩
  · show x ∈ m.gcChain ↔ _
    rw [linked.chained]
    constructor
    · rintro ⟨c₀, is₀, isColl, unmarked⟩
      obtain ⟨cx, is⟩ := link_new isW isA is₀
      obtain ⟨c₁, is₁, -, mark, -, coll, -⟩ := link_old isW isA plain is
      rw [is₀] at is₁
      cases is₁
      exact ⟨cx, is, coll.trans isColl, mark.trans unmarked⟩
    · rintro ⟨cx, is, isColl, unmarked⟩
      obtain ⟨c₀, is₀, -, mark, -, coll, -⟩ := link_old isW isA plain is
      exact ⟨c₀, is₀, coll.symm.trans isColl, mark.symm.trans unmarked⟩
  · obtain ⟨lt, all⟩ := linked.hooks x mem
    refine ⟨lt, fun cx is => ?_⟩
    obtain ⟨c₀, is₀, -, -, -, coll, -⟩ := link_old isW isA plain is
    exact coll.trans (all c₀ is₀)

theorem Sound.link (sound : Sound m tasks due) (ne : w ≠ a) (isW : m.cells w = some cw)
    (isA : m.cells a = some ca) (plain : cw.body = .string)
    (unnamed : ca.weakref = none) (calm : ∀ x, .finish x ∉ tasks) :
    Sound (m.link w a cw ca) tasks due := by
  have refs : ∀ x, (m.link w a cw ca).refs tasks x = m.refs tasks x := by
    intro x
    have isA' : (m.put w { cw with body := .weak a true }).cells a = some ca := by
      rw [cells_put_of_ne _ _ ne.symm, isA]
    rw [Memory.link, refs_put_same isA' (sound.bounded a (by simp [isA])) (by rfl),
      refs_put_same isW (sound.bounded w (by simp [isW])) (by rw [plain]; rfl)]
  refine ⟨sound.toLinked.link ne isW isA plain unnamed, fun x cx is => ?_, fun x named => ?_,
    fun x cx is zero => ?_, fun x mem => absurd mem (calm x), sound.once, fun x => ?_⟩
  · obtain ⟨c₀, is₀, count, -⟩ := link_old isW isA plain is
    rw [refs, count]
    exact sound.counted x c₀ is₀
  · rw [refs] at named
    rw [Ne, link_none_iff isW isA]
    exact sound.live x named
  · obtain ⟨c₀, is₀, count, -⟩ := link_old isW isA plain is
    exact sound.dying x c₀ is₀ (count.symm.trans zero)
  · rw [link_none_iff isW isA]
    exact sound.released x

end Link

/-- The weak reference to an object, which may be new. -/
theorem Steady.getWeakRef (steady : Steady m) (found : m.cells a = some c) :
    ∃ w m', m.getWeakRef a = some (w, m') ∧ Sound m' [.release (some w)] [some w] ∧
      m'.There (some w) ∧ (∀ a c, m'.cells a = some c → c.marked = false) ∧
      ∀ dst, (m.read dst).isSome → (m'.read dst).isSome := by
  cases weak : c.weakref with
  | some w =>
    obtain ⟨cw, isW, -⟩ := steady.sound.weakref a c w found weak
    have there : m.There (some w) := by
      rintro x eq none
      cases eq
      rw [isW] at none
      cases none
    refine ⟨w, m, ?_, steady.sound.hold there, there, steady.unmarked, fun _ => id⟩
    rw [Memory.getWeakRef, found]
    simp only [Option.bind_eq_bind, Option.bind_some, weak]
  | none =>
    have ne : m.next ≠ a := by
      rintro rfl
      rw [steady.next_free] at found
      cases found
    have sound := steady.allocate false .string (by simp) (by simp)
      fun v mem => absurd mem (List.not_mem_nil)
    have isW : (m.allocate false .string).cells m.next = some ⟨0, false, none, .string⟩ := by
      rw [cells_allocate, if_pos rfl]
    have isA : (m.allocate false .string).cells a = some c := by
      rw [cells_allocate, if_neg ne.symm, found]
    have linked := sound.link ne isW isA rfl weak (by simp)
    -- the weak reference is made as such
    have made : m.allocate false (.weak a true) =
        (m.allocate false .string).put m.next ⟨0, false, none, .weak a true⟩ := by
      unfold Memory.allocate put
      simp only [Function.update_idem]
      rfl
    have isA' : (m.allocate false (.weak a true)).cells a = some c := by
      rw [cells_allocate, if_neg ne.symm, found]
    refine ⟨m.next, _, ?_, linked, ?_, fun x cx is => ?_, fun dst place => ?_⟩
    · rw [Memory.getWeakRef, found]
      simp only [Option.bind_eq_bind, Option.bind_some, weak]
      rw [change_of_cell isA', made]
      rfl
    · rintro x eq none
      cases eq
      rw [link_none_iff isW isA, isW] at none
      cases none
    · obtain ⟨c₀, is₀, -, mark, -⟩ := link_old isW isA rfl is
      exact mark.trans (steady.unmarked_allocate false .string x c₀ is₀)
    · have same : ((m.allocate false .string).link m.next a ⟨0, false, none, .string⟩ c).read dst =
          (m.allocate false .string).read dst := by
        have place' := steady.read_allocate false .string place
        refine read_eq rfl (fun x there => ?_) (by rwa [place'])
        obtain ⟨c₀, is₀⟩ := Option.ne_none_iff_exists'.1 there
        obtain ⟨cx, is⟩ := link_new isW isA is₀
        obtain ⟨c₁, is₁, -, -, fields, -⟩ := link_old isW isA rfl is
        rw [fieldsOf_of_cell is, fieldsOf_of_cell is₁, fields]
      rwa [same, steady.read_allocate false .string place]

/-- What a weak reference names is there. -/
theorem Steady.realval (steady : Steady m) (there : m.There v) :
    ∃ u, m.realval v = some u ∧ m.There u := by
  cases v with
  | none => exact ⟨none, rfl, fun _ eq => by cases eq⟩
  | some a =>
    obtain ⟨c, found⟩ := Option.ne_none_iff_exists'.1 (there a rfl)
    rw [Memory.realval, found]
    cases body : c.body with
    | weak t alive =>
      cases alive with
      | true =>
        obtain ⟨ct, isT, -⟩ := steady.sound.alive a c t found body
        refine ⟨some t, by simp [body], fun x eq none => ?_⟩
        cases eq
        rw [isT] at none
        cases none
      | false => exact ⟨none, by simp [body], fun _ eq => by cases eq⟩
    | string => exact ⟨some a, by simp [body], there⟩
    | collectable fields => exact ⟨some a, by simp [body], there⟩

/-! ## Resizing -/

theorem count_resize (l : List (Option ℕ)) (n x : ℕ) :
    (l.take n ++ List.replicate (n - l.length) none).count (some x) + (l.drop n).count (some x) =
      l.count (some x) := by
  rw [List.count_append, List.count_replicate, if_neg (by simp), Nat.add_zero, ← List.count_append,
    List.take_append_drop]

/-- `resize` releases the references beyond the new size. -/
theorem Steady.resize (steady : Steady m) (found : m.cells a = some c) (n : ℕ) :
    ∃ m', m.resize a n = some m' ∧ Steady m' := by
  have own := fieldsOf_of_cell found
  cases isColl : c.body.isCollectable with
  | false =>
    -- there is nothing to resize
    have fields : c.body.fields = [] := by
      cases body : c.body with
      | collectable l => rw [body] at isColl; cases isColl
      | _ => rfl
    have same : ∀ l, m.writeFields a l = some m := fun l => by
      have kept : c.body.withFields l = c.body := by
        cases body : c.body with
        | collectable l => rw [body] at isColl; cases isColl
        | _ => rfl
      rw [writeFields, change_of_cell found, kept, put, ← found, Function.update_eq_self]
    refine ⟨m, ?_, steady⟩
    rw [Memory.resize]
    simp only [same, Option.bind_eq_bind, Option.bind_some]
    rw [own, fields, List.drop_nil, List.map_nil, finishTasks, Worklist.run_nil]
  | true =>
    obtain ⟨l, body⟩ : ∃ l, c.body = .collectable l := by
      cases body : c.body with
      | collectable l => exact ⟨l, rfl⟩
      | _ => rw [body] at isColl; cases isColl
    rw [body] at own
    change m.fieldsOf a = l at own
    have lt : a < m.next := steady.sound.bounded a (by simp [found])
    have unmarked := steady.unmarked a c found
    have sound := steady.sound.refield found unmarked body
      (l.take n ++ List.replicate (n - l.length) none) ((l.drop n).map .release ++ []) (by simp)
      (fun x => by
        have change := refs_put (c := { c with
          body := .collectable (l.take n ++ List.replicate (n - l.length) none) }) [] lt x
        have counts := count_resize l n x
        rw [own] at change
        simp only [Body.fields] at change
        rw [refs_releases]
        omega)
      (fun x => List.count_eq_zero.2 fun mem => by
        obtain ⟨v, -, eq⟩ := List.mem_map.1 (List.append_nil _ ▸ mem)
        cases eq)
    obtain ⟨m', ran, sound', kept⟩ := sound.finishTasks
    refine ⟨m', ?_, sound', kept.unmarked fun x cx is => ?_⟩
    · rw [Memory.resize]
      simp only [own, writeFields, change_of_cell found, body, Body.withFields,
        Option.bind_eq_bind, Option.bind_some]
      exact ran
    · obtain ⟨c₀, is₀, old⟩ := replaced_old found (replaces_fields _ body unmarked c.uiRef) is
      exact old.marked.trans (steady.unmarked x c₀ is₀)

/-! ## Runs -/

theorem Steady.perform (steady : Steady m) (op : Op)
    (place : op.dst.all fun dst => (m.read dst).isSome) :
    ∃ m', m.perform op = some m' ∧ Steady m' := by
  cases op with
  | copy dst src =>
    cases is : m.read src with
    | none => exact ⟨m, by rw [Memory.perform, is]; rfl, steady⟩
    | some v =>
      obtain ⟨m', ran, steady'⟩ := steady.assign (steady.there is) place
      exact ⟨m', by rw [Memory.perform, is]; exact ran, steady'⟩
  | null dst => exact steady.assign (fun _ eq => by cases eq) place
  | string dst =>
    have sound := steady.allocate false .string (by simp) (by simp)
      fun v mem => absurd mem (List.not_mem_nil)
    refine sound.assign (steady.unmarked_allocate _ _) ?_ ?_
    · rintro x eq none
      cases eq
      rw [cells_allocate, if_pos rfl] at none
      cases none
    · rwa [steady.read_allocate _ _ place]
  | create dst hooked fields =>
    have values : ∀ v ∈ fields.filterMap m.read, m.There v := by
      intro v mem
      obtain ⟨src, -, is⟩ := List.mem_filterMap.1 mem
      exact steady.there is
    have sound := steady.allocate hooked (.collectable (fields.filterMap m.read)) (by simp)
      (fun _ => rfl) values
    have there : ∀ {v}, m.There v →
        (m.allocate hooked (.collectable (fields.filterMap m.read))).There v := by
      intro v there x eq none
      rw [cells_allocate] at none
      split at none
      · cases none
      · exact there x eq none
    obtain ⟨m₁, counted, sound₁, same⟩ :=
      sound.addRefs (fun v mem => there (values v mem)) (by simp)
    have new : m₁.There (some m.next) := by
      rintro x eq none
      cases eq
      rw [same.none_iff, cells_allocate, if_pos rfl] at none
      cases none
    have old := steady.read_allocate hooked (.collectable (fields.filterMap m.read)) place
    have place₁ : (m₁.read dst).isSome := by
      rw [read_eq same.slots (fun x _ => congrFun same.fieldsOf x) (by rw [old]; exact place), old]
      exact place
    obtain ⟨m', ran, steady'⟩ :=
      sound₁.assign (same.unmarked (steady.unmarked_allocate _ _)) new place₁
    refine ⟨m', ?_, steady'⟩
    exact (congrArg (Option.bind · _) counted).trans ran
  | weakRef dst src =>
    have nulled : ∃ m', m.assign dst none = some m' ∧ Steady m' :=
      steady.assign (fun _ eq => by cases eq) place
    rw [Memory.perform]
    cases is : m.read src with
    | none => exact nulled
    | some v =>
      cases v with
      | none => exact nulled
      | some a =>
        obtain ⟨c, found⟩ := Option.ne_none_iff_exists'.1 (steady.there is a rfl)
        obtain ⟨w, m₁, got, sound, there, unmarked, places⟩ := steady.getWeakRef found
        obtain ⟨m', ran, steady'⟩ := sound.assign unmarked there (places dst place)
        refine ⟨m', ?_, steady'⟩
        simp only [got, Option.bind_eq_bind, Option.bind_some]
        exact ran
  | strong dst src =>
    cases is : m.read src with
    | none => exact ⟨m, by rw [Memory.perform, is]; rfl, steady⟩
    | some v =>
      obtain ⟨u, real, there⟩ := steady.realval (steady.there is)
      obtain ⟨m', ran, steady'⟩ := steady.assign there place
      refine ⟨m', ?_, steady'⟩
      rw [Memory.perform, is]
      show (m.realval v).bind _ = _
      rw [real]
      exact ran
  | resize i n =>
    cases obj : m.objectAt i with
    | none => exact ⟨m, by rw [Memory.perform, obj]; rfl, steady⟩
    | some a =>
      obtain ⟨c, found⟩ := Option.ne_none_iff_exists'.1 (steady.object_there obj)
      obtain ⟨m', ran, steady'⟩ := steady.resize found n
      exact ⟨m', by rw [Memory.perform, obj]; exact ran, steady'⟩

theorem Steady.exec (steady : Steady m) (op : Op) : ∃ m', m.exec op = some m' ∧ Steady m' := by
  unfold Memory.exec
  split
  · rename_i place
    exact steady.perform op place
  · exact ⟨m, rfl, steady⟩

theorem Steady.execAll (steady : Steady m) (ops : List Op) :
    ∃ m', Memory.execAll ops m = some m' ∧ Steady m' := by
  induction ops generalizing m with
  | nil => exact ⟨m, rfl, steady⟩
  | cons op ops ih =>
    obtain ⟨m₁, done, steady₁⟩ := steady.exec op
    obtain ⟨m', ran, steady'⟩ := ih steady₁
    exact ⟨m', by rw [Memory.execAll, done]; exact ran, steady'⟩

theorem steady_empty (slots : ℕ) : Steady (empty slots) where
  sound := {
    bounded := fun a there => absurd rfl there
    weakref := fun a c w is => by cases is
    alive := fun w cw t is => by cases is
    gone := fun w cw t is => by cases is
    anchored := fun a c is => by cases is
    chain := List.nodup_nil
    chained := fun a => iff_of_false (List.not_mem_nil) (by rintro ⟨c, is, -⟩; cases is)
    hooks := fun a mem => absurd mem (List.not_mem_nil)
    counted := fun a c is => by cases is
    live := fun a named => by
      refine absurd ?_ named
      unfold refs
      show (List.replicate slots none).count (some a) + total _ 0 _ + _ = 0
      rw [List.count_replicate, if_neg (by simp)]
      rfl
    dying := fun a c is => by cases is
    finishing := fun a mem => absurd mem (List.not_mem_nil)
    once := List.nodup_nil
    released := fun a => iff_of_false List.not_mem_nil fun both => absurd both.1 List.not_mem_nil }
  unmarked a c is := by cases is

/-- What holds between operations: an object counts the references to it and has one; every
reference is to an object that is there; a weak reference is alive exactly as long as what it names
is there, and there is one for each object; the hooks that have been called are those of the objects
that have gone, each once; and the chain of the collector has the collectable objects. -/
structure Balanced (m : Memory) : Prop where
  counted : ∀ a c, m.cells a = some c → 0 < c.uiRef ∧
    c.uiRef = m.slots.count (some a) + total m.fieldsOf m.next (some a)
  live : ∀ a, (some a ∈ m.slots ∨ ∃ b, some a ∈ m.fieldsOf b) → m.cells a ≠ none
  weak : ∀ w c t alive, m.cells w = some c → c.body = .weak t alive →
    (alive = true ↔ m.cells t ≠ none)
  single : ∀ w w' c c' t, m.cells w = some c → m.cells w' = some c' → c.body = .weak t true →
    c'.body = .weak t true → w = w'
  once : m.released.Nodup
  hooks : ∀ a, a ∈ m.released ↔ a ∈ m.hooked ∧ m.cells a = none
  chain : m.gcChain.Nodup
  chained : ∀ a, a ∈ m.gcChain ↔ ∃ c, m.cells a = some c ∧ c.body.isCollectable = true

theorem Steady.balanced (steady : Steady m) : Balanced m where
  counted a c is := by
    have counted := steady.sound.counted a c is
    have alive : c.uiRef ≠ 0 := fun zero => by
      have := steady.sound.dying a c is zero
      simp at this
    exact ⟨Nat.pos_of_ne_zero alive, counted⟩
  live a named := by
    rcases named with slot | ⟨b, held⟩
    · obtain ⟨i, at_⟩ := List.mem_iff_getElem?.1 slot
      exact steady.there (show m.read (.slot i) = some (some a) from at_) a rfl
    · exact steady.sound.held held
  weak w c t alive is body := by
    cases alive with
    | true =>
      obtain ⟨ct, isT, -⟩ := steady.sound.alive w c t is body
      exact iff_of_true rfl (by rw [isT]; exact Option.some_ne_none _)
    | false =>
      exact iff_of_false Bool.false_ne_true fun there => there (steady.sound.gone w c t is body).1
  single w w' c c' t is is' body body' := by
    obtain ⟨ct, isT, weak⟩ := steady.sound.alive w c t is body
    obtain ⟨ct', isT', weak'⟩ := steady.sound.alive w' c' t is' body'
    rw [isT] at isT'
    cases isT'
    rw [weak] at weak'
    exact Option.some.inj weak'
  once := steady.sound.once
  hooks a := by
    rw [steady.sound.released]
    simp
  chain := steady.sound.chain
  chained a := by
    rw [steady.sound.chained]
    constructor
    · rintro ⟨c, is, isColl, -⟩
      exact ⟨c, is, isColl⟩
    · rintro ⟨c, is, isColl⟩
      exact ⟨c, is, isColl, steady.unmarked a c is⟩

/-- Every run of operations comes to its end without touching a freed object, and is balanced. -/
theorem execAll_balanced (ops : List Op) (slots : ℕ) :
    ∃ m, execAll ops (empty slots) = some m ∧ Balanced m := by
  obtain ⟨m, ran, steady⟩ := (steady_empty slots).execAll ops
  exact ⟨m, ran, steady.balanced⟩

end Memory

end Squirrels
