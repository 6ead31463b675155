import Mathlib.Data.List.Basic
import Mathlib.Data.List.Nodup
import Mathlib.Logic.Function.Basic

/-!
# Linked lists

Cells that are linked by a partial function `next` form the list that starts at a head. A list is
determined by its head, and it does not repeat a cell. Several heads share the cells of one store
when their lists have no cell in common; a cell moves from one list to another by changing links.
-/

namespace Links

variable {ι κ : Type}

/-- The links lead from the head through exactly these cells. -/
def Follows (next : ι → Option ι) : Option ι → List ι → Prop
  | head, [] => head = none
  | head, a :: l => head = some a ∧ Follows next (next a) l

section Follows

variable {next next' : ι → Option ι} {head : Option ι} {l before after : List ι} {a p : ι}

@[simp] theorem follows_nil : Follows next head [] ↔ head = none := Iff.rfl

@[simp] theorem follows_cons :
    Follows next head (a :: l) ↔ head = some a ∧ Follows next (next a) l := Iff.rfl

/-- The links of cells outside of the list do not matter. -/
theorem Follows.congr (follows : Follows next head l) (same : ∀ b ∈ l, next' b = next b) :
    Follows next' head l := by
  induction l generalizing head with
  | nil => exact follows
  | cons b l ih =>
    refine ⟨follows.1, ?_⟩
    rw [same b List.mem_cons_self]
    exact ih follows.2 fun c mem => same c (List.mem_cons_of_mem _ mem)

/-- A head has one list. -/
theorem Follows.unique {l' : List ι} (follows : Follows next head l)
    (follows' : Follows next head l') : l = l' := by
  induction l generalizing head l' with
  | nil =>
    cases l' with
    | nil => rfl
    | cons b l' => rw [follows_nil.1 follows] at follows'; cases follows'.1
  | cons b l ih =>
    cases l' with
    | nil => rw [follows_nil.1 follows'] at follows; cases follows.1
    | cons c l' =>
      obtain rfl : b = c := Option.some.inj (follows.1.symm.trans follows'.1)
      rw [ih follows.2 follows'.2]

/-- The list goes on from each of its cells. -/
theorem Follows.suffix (follows : Follows next head (before ++ l)) :
    ∃ head', Follows next head' l ∧ (before = [] → head' = head) ∧
      ∀ q, before.getLast? = some q → head' = next q := by
  induction before generalizing head with
  | nil => exact ⟨head, follows, fun _ => rfl, fun q last => by cases last⟩
  | cons b before ih =>
    obtain ⟨head', rest, start, last⟩ := ih follows.2
    refine ⟨head', rest, fun none => (List.cons_ne_nil _ _ none).elim, fun q eq => ?_⟩
    cases before with
    | nil =>
      obtain rfl : b = q := by simpa using eq
      exact start rfl
    | cons c before => exact last q (by simpa using eq)

/-- The links lead from a cell of the list to the next one. -/
theorem Follows.behind (follows : Follows next head (before ++ a :: l)) :
    Follows next (next a) l := by
  obtain ⟨head', rest, -⟩ := follows.suffix
  exact rest.2

theorem Follows.nodup (follows : Follows next head l) : l.Nodup := by
  induction l generalizing head with
  | nil => exact List.nodup_nil
  | cons b l ih =>
    refine List.nodup_cons.2 ⟨fun mem => ?_, ih follows.2⟩
    obtain ⟨before, after, rfl⟩ := List.append_of_mem mem
    -- the list from the second place of `b` is the one from its first place
    have eq := follows.2.unique follows.2.behind
    have shorter := congrArg List.length eq
    simp only [List.length_append, List.length_cons] at shorter
    omega

variable [DecidableEq ι]

theorem Follows.update (follows : Follows next head l) (outside : a ∉ l) (x : Option ι) :
    Follows (Function.update next a x) head l :=
  follows.congr fun _ mem => Function.update_of_ne (ne_of_mem_of_not_mem mem outside) _ _

/-- A new cell is put before the list. -/
theorem Follows.push (follows : Follows next head l) (outside : a ∉ l) :
    Follows (Function.update next a head) (some a) (a :: l) :=
  ⟨rfl, by rw [Function.update_self]; exact follows.update outside head⟩

/-- A cell is left out when the one before it is linked to the next one. -/
theorem Follows.unlink (follows : Follows next head (before ++ p :: a :: after)) :
    Follows (Function.update next p (next a)) head (before ++ p :: after) := by
  have once := follows.nodup
  induction before generalizing head with
  | nil =>
    have rest : p ∉ after := fun mem => (List.nodup_cons.1 once).1 (List.mem_cons_of_mem _ mem)
    refine ⟨follows.1, ?_⟩
    rw [Function.update_self]
    exact follows.2.2.update rest _
  | cons b before ih =>
    have other : b ≠ p := by
      rintro rfl
      exact (List.nodup_cons.1 once).1 (by simp)
    refine ⟨follows.1, ?_⟩
    rw [Function.update_of_ne other]
    exact ih follows.2 (List.nodup_cons.1 once).2

end Follows

/-! ## Searching -/

/-- Walk from a head to the first cell that passes the test; the cell before it comes along. -/
def find (next : ι → Option ι) (test : ι → Bool) : ℕ → Option ι → Option ι → Option ι × Option ι
  | _, prev, none => (prev, none)
  | 0, prev, some _ => (prev, none)
  | fuel + 1, prev, some a =>
    if test a then (prev, some a) else find next test fuel (some a) (next a)

section Find

variable {next : ι → Option ι} {test : ι → Bool} {head prev : Option ι} {l before after : List ι}
  {a : ι} {fuel : ℕ}

theorem find_of_none (follows : Follows next head l) (none : ∀ b ∈ l, test b = false) :
    (find next test fuel prev head).2 = .none := by
  induction l generalizing head prev fuel with
  | nil =>
    rw [follows_nil.1 follows]
    cases fuel <;> rfl
  | cons b l ih =>
    rw [follows.1]
    cases fuel with
    | zero => rfl
    | succ fuel =>
      rw [find, if_neg (by rw [none b List.mem_cons_self]; exact Bool.false_ne_true)]
      exact ih follows.2 fun c mem => none c (List.mem_cons_of_mem _ mem)

theorem find_of_split (follows : Follows next head (before ++ a :: after))
    (skipped : ∀ b ∈ before, test b = false) (found : test a = true)
    (enough : before.length < fuel) :
    find next test fuel prev head = (before.getLast?.or prev, some a) := by
  induction before generalizing head prev fuel with
  | nil =>
    rw [follows.1]
    obtain ⟨fuel, rfl⟩ : ∃ n, fuel = n + 1 := ⟨fuel - 1, by simp at enough; omega⟩
    rw [find, if_pos found]
    rfl
  | cons b before ih =>
    rw [follows.1]
    simp only [List.length_cons] at enough
    obtain ⟨fuel, rfl⟩ : ∃ n, fuel = n + 1 := ⟨fuel - 1, by omega⟩
    rw [find, if_neg (by rw [skipped b List.mem_cons_self]; exact Bool.false_ne_true),
      ih follows.2 (fun c mem => skipped c (List.mem_cons_of_mem _ mem)) (by omega)]
    rw [List.getLast?_cons]
    cases before.getLast? <;> rfl

end Find

/-! ## Several lists -/

/-- Heads whose lists share no cell. -/
structure Heads (next : ι → Option ι) (head : κ → Option ι) (list : κ → List ι) : Prop where
  follows : ∀ k, Follows next (head k) (list k)
  apart : ∀ {k k' a}, a ∈ list k → a ∈ list k' → k = k'

section Heads

variable [DecidableEq ι] [DecidableEq κ] {next : ι → Option ι} {head : κ → Option ι}
  {list : κ → List ι} {k : κ} {a p : ι} {l before after : List ι}

/-- A cell of no list is put before one of the lists. -/
theorem Heads.push (heads : Heads next head list) (outside : ∀ k, a ∉ list k) :
    Heads (Function.update next a (head k)) (Function.update head k (some a))
      (Function.update list k (a :: list k)) where
  follows k' := by
    by_cases same : k' = k
    · subst same
      rw [Function.update_self, Function.update_self]
      exact (heads.follows k').push (outside k')
    · rw [Function.update_of_ne same, Function.update_of_ne same]
      exact (heads.follows k').update (outside k') _
  apart {k₁ k₂ b} mem₁ mem₂ := by
    have old : ∀ {k'}, b ∈ Function.update list k (a :: list k) k' →
        b = a ∧ k' = k ∨ b ∈ list k' := by
      intro k' mem
      by_cases same : k' = k
      · subst same
        rw [Function.update_self] at mem
        exact (List.mem_cons.1 mem).imp (⟨·, rfl⟩) id
      · rw [Function.update_of_ne same] at mem
        exact .inr mem
    rcases old mem₁ with ⟨rfl, eq₁⟩ | in₁ <;> rcases old mem₂ with ⟨eq, eq₂⟩ | in₂
    · exact eq₁.trans eq₂.symm
    · exact absurd in₂ (outside k₂)
    · exact absurd (eq ▸ in₁) (outside k₁)
    · exact heads.apart in₁ in₂

omit [DecidableEq ι] in
/-- One list loses cells. -/
theorem Heads.shrink (heads : Heads next head list) {next' : ι → Option ι} {head' : κ → Option ι}
    (here : Follows next' (head' k) l) (less : ∀ b ∈ l, b ∈ list k)
    (others : ∀ k', k' ≠ k → head' k' = head k' ∧ ∀ b ∈ list k', next' b = next b) :
    Heads next' head' (Function.update list k l) where
  follows k' := by
    by_cases same : k' = k
    · subst same
      rw [Function.update_self]
      exact here
    · rw [Function.update_of_ne same, (others k' same).1]
      exact (heads.follows k').congr (others k' same).2
  apart {k₁ k₂ b} mem₁ mem₂ := by
    have old : ∀ {k'}, b ∈ Function.update list k l k' → b ∈ list k' := by
      intro k' mem
      by_cases same : k' = k
      · subst same
        rw [Function.update_self] at mem
        exact less b mem
      · rwa [Function.update_of_ne same] at mem
    exact heads.apart (old mem₁) (old mem₂)

omit [DecidableEq ι] in
/-- The first cell of a list is taken off. -/
theorem Heads.pop (heads : Heads next head list) (first : list k = a :: l) :
    Heads next (Function.update head k (next a)) (Function.update list k l) := by
  have follows := heads.follows k
  rw [first] at follows
  apply heads.shrink
  · rw [Function.update_self]
    exact follows.2
  · intro b mem
    rw [first]
    exact List.mem_cons_of_mem _ mem
  · exact fun k' other => ⟨Function.update_of_ne other _ _, fun _ _ => rfl⟩

/-- A cell behind another one is taken off. -/
theorem Heads.unlink (heads : Heads next head list) (split : list k = before ++ p :: a :: after) :
    Heads (Function.update next p (next a)) head
      (Function.update list k (before ++ p :: after)) := by
  have follows := heads.follows k
  rw [split] at follows
  apply heads.shrink follows.unlink
  · intro b mem
    rw [split]
    simp only [List.mem_append, List.mem_cons] at mem ⊢
    tauto
  · refine fun k' other => ⟨rfl, fun b mem => Function.update_of_ne ?_ _ _⟩
    rintro rfl
    exact other (heads.apart mem (by rw [split]; simp))

/-- The first cell of a list goes to the front of another one. -/
theorem Heads.move {k' : κ} (heads : Heads next head list) (first : list k = a :: l)
    (other : k' ≠ k) :
    Heads (Function.update next a (head k'))
      (Function.update (Function.update head k (next a)) k' (some a))
      (Function.update (Function.update list k l) k' (a :: list k')) := by
  have mem : a ∈ list k := by
    rw [first]
    exact List.mem_cons_self
  have once := (heads.follows k).nodup
  rw [first] at once
  have outside : ∀ k'', a ∉ Function.update list k l k'' := by
    intro k'' mem'
    by_cases same : k'' = k
    · rw [same, Function.update_self] at mem'
      exact (List.nodup_cons.1 once).1 mem'
    · rw [Function.update_of_ne same] at mem'
      exact same (heads.apart mem' mem)
  have moved := (heads.pop first).push (k := k') outside
  rwa [Function.update_of_ne other, Function.update_of_ne other] at moved

omit [DecidableEq κ] in
/-- The link of a cell of no list does not matter. -/
theorem Heads.relink (heads : Heads next head list) (outside : ∀ k, a ∉ list k) (x : Option ι) :
    Heads (Function.update next a x) head list :=
  ⟨fun k => (heads.follows k).update (outside k) x, heads.apart⟩

end Heads

end Links
