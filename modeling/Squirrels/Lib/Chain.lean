import Mathlib.Data.Fintype.Card
import Mathlib.Data.Fintype.Pigeonhole
import Mathlib.Logic.Function.Basic
import Mathlib.Logic.Relation

/-!
# Chains of parents

A partial function `next` links each node to at most one parent. When no node is its own
ancestor and the parents lie below a bound, every walk along `next` ends within that bound. The
check `climbs` looks for a node among the ancestors of another; an edge that passes it keeps the
links acyclic. Nodes can be put into a chain and moved to another place without losing a link.
-/

namespace Chain

variable {α : Type}

/-- The node `a` has the parent `b`. -/
def Link (next : α → Option α) (a b : α) : Prop := next a = some b

/-- No node is its own ancestor. -/
def Acyclic (next : α → Option α) : Prop := ∀ a, ¬ Relation.TransGen (Link next) a a

/-- The walk from `a` finds a node without a parent within `n` nodes. -/
def Ends (next : α → Option α) : ℕ → α → Prop
  | 0, _ => False
  | n + 1, a =>
    match next a with
    | none => True
    | some b => Ends next n b

/-- The node reached after `n` links, if the walk goes that far. -/
def walk (next : α → Option α) : ℕ → α → Option α
  | 0, a => some a
  | n + 1, a => (next a).bind (walk next n)

theorem ends_of_walk_eq_none {next : α → Option α} {n : ℕ} {a : α} (ended : walk next n a = none) :
    Ends next n a := by
  induction n generalizing a with
  | zero => simp [walk] at ended
  | succ n ih =>
    unfold Ends
    cases parent : next a with
    | none => trivial
    | some b =>
      simp only [walk, parent, Option.bind_some] at ended
      exact ih ended

theorem walk_add {next : α → Option α} (m n : ℕ) (a : α) :
    walk next (m + n) a = (walk next m a).bind (walk next n) := by
  induction m generalizing a with
  | zero => simp [walk]
  | succ m ih =>
    rw [Nat.succ_add]
    cases parent : next a with
    | none => simp [walk, parent]
    | some b => simp [walk, parent, ih]

/-- Any proper stretch of a walk is an ancestry. -/
theorem transGen_of_walk {next : α → Option α} {n : ℕ} {a b : α}
    (reached : walk next (n + 1) a = some b) : Relation.TransGen (Link next) a b := by
  induction n generalizing a with
  | zero =>
    cases parent : next a with
    | none => simp [walk, parent] at reached
    | some c =>
      simp only [walk, parent, Option.bind_some, Option.some.injEq] at reached
      exact Relation.TransGen.single (by rw [Link, parent, reached])
  | succ n ih =>
    cases parent : next a with
    | none => simp [walk, parent] at reached
    | some c =>
      rw [walk, parent, Option.bind_some] at reached
      exact Relation.TransGen.head parent (ih reached)

/-- Among nodes below `n`, acyclic links are climbed in at most `n` nodes. -/
theorem Acyclic.ends_of_lt {next : ℕ → Option ℕ} {n : ℕ} (acyclic : Acyclic next)
    (bounded : ∀ a b, next a = some b → b < n) {a : ℕ} (lt : a < n) : Ends next n a := by
  by_contra endless
  have far : ∀ k ≤ n, ∃ b, walk next k a = some b := by
    intro k le
    cases reached : walk next k a with
    | some b => exact ⟨b, rfl⟩
    | none =>
      refine (endless (ends_of_walk_eq_none ?_)).elim
      rw [← Nat.add_sub_cancel' le, walk_add, reached]
      rfl
  choose! node reached using far
  -- the nodes of the walk lie below `n`, so `n + 1` of them cannot be pairwise distinct
  have below : ∀ k ≤ n, node k < n := by
    intro k le
    cases k with
    | zero =>
      have first : some a = some (node 0) := reached 0 le
      rw [← Option.some.inj first]
      exact lt
    | succ k =>
      obtain ⟨b, previous⟩ : ∃ b, walk next k a = some b := ⟨_, reached k (by omega)⟩
      have last := reached (k + 1) le
      rw [walk_add, previous, Option.bind_some] at last
      cases parent : next b with
      | none => simp [walk, parent] at last
      | some c =>
        simp only [walk, parent, Option.bind_some, Option.some.injEq] at last
        exact last ▸ bounded b c parent
  obtain ⟨i, j, lt, same⟩ : ∃ i j : Fin (n + 1), i < j ∧ node i = node j := by
    obtain ⟨i, j, ne, same⟩ := Fintype.exists_ne_map_eq_of_card_lt
      (fun k : Fin (n + 1) => (⟨node k, below k (by omega)⟩ : Fin n)) (by simp)
    rcases lt_or_gt_of_ne ne with lt | gt
    · exact ⟨i, j, lt, by simpa using same⟩
    · exact ⟨j, i, gt, by simpa using same.symm⟩
  have loop : walk next ((j - i - 1 : ℕ) + 1) (node i) = some (node i) := by
    have total := reached j (by omega)
    have split : (j : ℕ) = i + ((j - i - 1 : ℕ) + 1) := by
      have : (i : ℕ) < j := lt
      omega
    rw [split, walk_add, reached i (by omega), Option.bind_some, ← split] at total
    rw [total, same]
  exact acyclic _ (transGen_of_walk loop)

/-- Links that are acyclic and whose parents lie below `n` are climbed in at most `n + 1` nodes. -/
theorem Acyclic.ends {next : ℕ → Option ℕ} {n : ℕ} (acyclic : Acyclic next)
    (bounded : ∀ a b, next a = some b → b < n) (a : ℕ) : Ends next (n + 1) a := by
  unfold Ends
  cases parent : next a with
  | none => trivial
  | some b => exact acyclic.ends_of_lt bounded (bounded a b parent)

/-! ## Setting a parent -/

variable [DecidableEq α]

/-- Whether `a` is the parent of a node on the walk from `t`; the walk is cut after `fuel` nodes. -/
def climbs (next : α → Option α) (a : α) : ℕ → Option α → Bool
  | _, none => false
  | 0, some _ => true
  | fuel + 1, some t => if next t = some a then true else climbs next a fuel (next t)

theorem not_reflTransGen_of_climbs {next : α → Option α} {a t : α} {fuel : ℕ} (ne : t ≠ a)
    (clear : climbs next a fuel (some t) = false) : ¬ Relation.ReflTransGen (Link next) t a := by
  induction fuel generalizing t with
  | zero => simp [climbs] at clear
  | succ fuel ih =>
    intro ancestor
    simp only [climbs] at clear
    split at clear
    · exact absurd clear (by simp)
    · rename_i notParent
      rcases Relation.ReflTransGen.cases_head ancestor with same | ⟨b, link, rest⟩
      · exact ne same
      · rw [Link] at link
        rw [link] at clear
        exact ih (fun same => notParent (same ▸ link)) clear rest

/-- With enough fuel the check is exact. -/
theorem climbs_iff {next : α → Option α} {a t : α} {fuel : ℕ} (ends : Ends next fuel t) :
    climbs next a fuel (some t) = true ↔ Relation.TransGen (Link next) t a := by
  induction fuel generalizing t with
  | zero => exact ends.elim
  | succ fuel ih =>
    unfold Ends at ends
    unfold climbs
    cases parent : next t with
    | none =>
      refine ⟨by simp [climbs], fun ancestor => ?_⟩
      obtain ⟨b, link, -⟩ := Relation.TransGen.head'_iff.1 ancestor
      simp [Link, parent] at link
    | some b =>
      rw [parent] at ends
      by_cases same : b = a
      · simp only [same, if_true, true_iff]
        exact Relation.TransGen.single (by rw [Link, parent, same])
      · simp only [Option.some.injEq, same, if_false]
        rw [ih ends]
        refine ⟨fun rest => Relation.TransGen.head parent rest, fun ancestor => ?_⟩
        obtain ⟨c, link, rest⟩ := Relation.TransGen.head'_iff.1 ancestor
        obtain rfl : c = b := by simpa [Link, parent] using link.symm
        rcases Relation.reflTransGen_iff_eq_or_transGen.1 rest with eq | trans
        · exact (same eq.symm).elim
        · exact trans

/-- A walk along the links with a new parent of `a` either follows the old links or passes `a`. -/
theorem transGen_update {next : α → Option α} {a x y : α} {parent : Option α}
    (walk : Relation.TransGen (Link (Function.update next a parent)) x y) :
    Relation.TransGen (Link next) x y ∨
      ∃ t, parent = some t ∧ Relation.ReflTransGen (Link next) x a ∧
        Relation.ReflTransGen (Link (Function.update next a parent)) t y := by
  induction walk using Relation.TransGen.head_induction_on with
  | @single x link =>
    by_cases same : x = a
    · subst same
      rw [Link, Function.update_self] at link
      exact .inr ⟨y, link, .refl, .refl⟩
    · rw [Link, Function.update_of_ne same] at link
      exact .inl (.single link)
  | @head x z link rest ih =>
    by_cases same : x = a
    · subst same
      rw [Link, Function.update_self] at link
      exact .inr ⟨z, link, .refl, rest.to_reflTransGen⟩
    · rw [Link, Function.update_of_ne same] at link
      rcases ih with old | ⟨t, set, reached, back⟩
      · exact .inl (old.head link)
      · exact .inr ⟨t, set, reached.head link, back⟩

/-- A new parent of `a` that does not descend from `a` closes no cycle. -/
theorem Acyclic.update {next : α → Option α} {a : α} {parent : Option α} (acyclic : Acyclic next)
    (clear : ∀ t, parent = some t → ¬ Relation.ReflTransGen (Link next) t a) :
    Acyclic (Function.update next a parent) := by
  intro x cycle
  rcases transGen_update cycle with old | ⟨t, set, reached, back⟩
  · exact acyclic x old
  · -- the cycle passes `a`: its new parent `t` leads back to `x`, and from there to `a`
    rcases Relation.reflTransGen_iff_eq_or_transGen.1 back with rfl | walk
    · exact clear x set reached
    · rcases transGen_update walk with old | ⟨-, -, direct, -⟩
      · exact clear t set (old.to_reflTransGen.trans reached)
      · exact clear t set direct

/-! ## Nodes that join and move

A node that nothing links to and that has no parent can be put into a chain after another node, or
take the place of another node. Either way what was linked stays linked.
-/

/-- No two nodes have the same parent. -/
def Separate (next : α → Option α) : Prop := ∀ a b c, next a = some c → next b = some c → a = b

/-- Put the node `n` after `a`. -/
def insertAfter (next : α → Option α) (a n : α) : α → Option α :=
  Function.update (Function.update next n (next a)) a (some n)

/-- Put the node `n` in place of `a`, the parent of `o`. -/
def moveTo (next : α → Option α) (o a n : α) : α → Option α :=
  Function.update (Function.update (Function.update next o (some n)) n (next a)) a none

omit [DecidableEq α] in
/-- A walk that does not start at a node without children never gets there. -/
theorem eq_of_reflTransGen {next : α → Option α} {x n : α} (unlinked : ∀ i, next i ≠ some n)
    (walk : Relation.ReflTransGen (Link next) x n) : x = n := by
  rcases Relation.ReflTransGen.cases_tail walk with eq | ⟨c, -, link⟩
  · exact eq.symm
  · exact absurd link (unlinked c)

section InsertAfter

variable {next : α → Option α} {a n : α}

theorem insertAfter_self (next : α → Option α) (a n : α) :
    insertAfter next a n a = some n := Function.update_self _ _ _

theorem insertAfter_new (next : α → Option α) {a n : α} (ne : n ≠ a) :
    insertAfter next a n n = next a := by
  rw [insertAfter, Function.update_of_ne ne, Function.update_self]

theorem insertAfter_other (next : α → Option α) {a n i : α} (notA : i ≠ a) (notN : i ≠ n) :
    insertAfter next a n i = next i := by
  rw [insertAfter, Function.update_of_ne notA, Function.update_of_ne notN]

/-- What was linked stays linked. -/
theorem reflTransGen_insertAfter (ne : n ≠ a) (unlinking : next n = none) {x y : α}
    (walk : Relation.ReflTransGen (Link next) x y) :
    Relation.ReflTransGen (Link (insertAfter next a n)) x y := by
  refine Relation.ReflTransGen.trans_induction_on walk (fun _ => .refl) (fun {i j} link => ?_)
    fun _ _ first second => first.trans second
  by_cases first : i = a
  · subst first
    have second : Link (insertAfter next i n) n j := (insertAfter_new next ne).trans link
    exact .tail (.single (insertAfter_self next i n)) second
  · have other : i ≠ n := by
      rintro rfl
      rw [Link, unlinking] at link
      cases link
    exact .single ((insertAfter_other next first other).trans link)

theorem Acyclic.insertAfter (acyclic : Acyclic next) (ne : n ≠ a)
    (unlinked : ∀ i, next i ≠ some n) : Acyclic (insertAfter next a n) := by
  have joined : Acyclic (Function.update next n (next a)) := by
    apply acyclic.update
    intro t parent walk
    exact unlinked a (parent.trans (congrArg some (eq_of_reflTransGen unlinked walk)))
  apply joined.update
  intro t set walk
  obtain rfl := Option.some.inj set
  -- a walk from `n` to `a` starts with the parent of `a`, and from there it is an old one
  rcases Relation.ReflTransGen.cases_head walk with eq | ⟨t, link, rest⟩
  · exact ne eq
  · rw [Link, Function.update_self] at link
    rcases Relation.reflTransGen_iff_eq_or_transGen.1 rest with eq | far
    · exact acyclic a (.single (eq ▸ link))
    · rcases transGen_update far with old | ⟨-, -, reached, -⟩
      · exact acyclic a (old.head link)
      · exact unlinked a (link.trans (congrArg some (eq_of_reflTransGen unlinked reached)))

theorem Separate.insertAfter (separate : Separate next) (ne : n ≠ a)
    (unlinked : ∀ i, next i ≠ some n) :
    Separate (insertAfter next a n) := by
  -- the node that had the parent before
  have old : ∀ i c, Chain.insertAfter next a n i = some c → c ≠ n →
      next (if i = n then a else i) = some c := by
    intro i c link other
    by_cases isN : i = n
    · rw [if_pos isN]
      rw [isN, insertAfter_new next ne] at link
      exact link
    · rw [if_neg isN]
      by_cases isA : i = a
      · rw [isA, insertAfter_self] at link
        exact absurd (Option.some.inj link).symm other
      · rw [insertAfter_other next isA isN] at link
        exact link
  have new : ∀ i, Chain.insertAfter next a n i = some n → i = a := by
    intro i link
    by_contra isA
    by_cases isN : i = n
    · rw [isN, insertAfter_new next ne] at link
      exact unlinked a link
    · rw [insertAfter_other next isA isN] at link
      exact unlinked i link
  intro i j c first second
  by_cases same : c = n
  · subst same
    rw [new i first, new j second]
  · have eq := separate _ _ c (old i c first same) (old j c second same)
    -- `a` itself is not linked to `c` any more
    have notA : ∀ k, Chain.insertAfter next a n k = some c → k ≠ a := by
      rintro k link rfl
      rw [insertAfter_self] at link
      exact same (Option.some.inj link).symm
    by_cases isN : i = n <;> by_cases isN' : j = n
    · rw [isN, isN']
    · rw [if_pos isN, if_neg isN'] at eq
      exact absurd eq.symm (notA j second)
    · rw [if_neg isN, if_pos isN'] at eq
      exact absurd eq (notA i first)
    · rwa [if_neg isN, if_neg isN'] at eq

end InsertAfter

section MoveTo

variable {next : α → Option α} {o a n : α}

theorem moveTo_left (next : α → Option α) (o a n : α) : moveTo next o a n a = none :=
  Function.update_self _ _ _

theorem moveTo_new (next : α → Option α) (o : α) {a n : α} (ne : n ≠ a) :
    moveTo next o a n n = next a := by
  rw [moveTo, Function.update_of_ne ne, Function.update_self]

theorem moveTo_before (next : α → Option α) {o a n : α} (notA : o ≠ a) (notN : o ≠ n) :
    moveTo next o a n o = some n := by
  rw [moveTo, Function.update_of_ne notA, Function.update_of_ne notN, Function.update_self]

theorem moveTo_other (next : α → Option α) {o a n i : α} (notA : i ≠ a) (notN : i ≠ n)
    (notO : i ≠ o) : moveTo next o a n i = next i := by
  rw [moveTo, Function.update_of_ne notA, Function.update_of_ne notN, Function.update_of_ne notO]

/-- What was linked stays linked, with `n` in place of `a`. -/
theorem reflTransGen_moveTo (acyclic : Acyclic next) (separate : Separate next)
    (before : next o = some a) (ne : n ≠ a) (unlinking : next n = none) {x y : α}
    (walk : Relation.ReflTransGen (Link next) x y) :
    Relation.ReflTransGen (Link (moveTo next o a n)) (if x = a then n else x)
      (if y = a then n else y) := by
  have notLoop : ∀ i, next i ≠ some i := fun i link => acyclic i (.single link)
  have notN : ∀ i j, next i = some j → i ≠ n := by
    rintro i j link rfl
    rw [unlinking] at link
    cases link
  refine Relation.ReflTransGen.trans_induction_on walk (fun _ => .refl) (fun {i j} link => ?_)
    fun _ _ first second => first.trans second
  rw [Link] at link
  by_cases fromA : i = a
  · subst fromA
    have notA : j ≠ i := by
      rintro rfl
      exact notLoop j link
    rw [if_pos rfl, if_neg notA]
    exact .single ((moveTo_new next o ne).trans link)
  · rw [if_neg fromA]
    by_cases toA : j = a
    · subst toA
      obtain rfl := separate i o j link before
      rw [if_pos rfl]
      exact .single (moveTo_before next fromA (notN i j link))
    · rw [if_neg toA]
      have notO : i ≠ o := by
        rintro rfl
        rw [before] at link
        exact toA (Option.some.inj link).symm
      exact .single ((moveTo_other next fromA (notN i j link) notO).trans link)

/-- Every link of the moved chain is an old one, with `a` where `n` is now. -/
theorem link_of_moveTo (acyclic : Acyclic next) (separate : Separate next)
    (before : next o = some a) (ne : n ≠ a) (unlinked : ∀ i, next i ≠ some n)
    (unlinking : next n = none) {i j : α} (link : moveTo next o a n i = some j) :
    i ≠ a ∧ j ≠ a ∧ next (if i = n then a else i) = some (if j = n then a else j) := by
  have notLoop : o ≠ a := by
    rintro rfl
    exact acyclic o (.single before)
  have oNotN : o ≠ n := by
    rintro rfl
    rw [unlinking] at before
    cases before
  have notA : i ≠ a := by
    rintro rfl
    rw [moveTo_left] at link
    cases link
  refine ⟨notA, ?_⟩
  by_cases isN : i = n
  · subst isN
    rw [moveTo_new next o ne] at link
    have notN : j ≠ i := fun eq => unlinked a (eq ▸ link)
    rw [if_pos rfl, if_neg notN]
    refine ⟨?_, link⟩
    rintro rfl
    exact acyclic j (.single link)
  · rw [if_neg isN]
    by_cases isO : i = o
    · subst isO
      rw [moveTo_before next notA isN] at link
      obtain rfl := Option.some.inj link
      rw [if_pos rfl]
      exact ⟨ne, before⟩
    · rw [moveTo_other next notA isN isO] at link
      have notN : j ≠ n := fun eq => unlinked i (eq ▸ link)
      rw [if_neg notN]
      refine ⟨?_, link⟩
      rintro rfl
      exact isO (separate i o j link before)

theorem Acyclic.moveTo (acyclic : Acyclic next) (separate : Separate next)
    (before : next o = some a) (ne : n ≠ a) (unlinked : ∀ i, next i ≠ some n)
    (unlinking : next n = none) : Acyclic (moveTo next o a n) := by
  intro x cycle
  apply acyclic (if x = n then a else x)
  refine Relation.TransGen.lift (fun i => if i = n then a else i) (fun i j link => ?_) _ _ cycle
  exact (link_of_moveTo acyclic separate before ne unlinked unlinking link).2.2

theorem Separate.moveTo (separate : Separate next) (acyclic : Acyclic next)
    (before : next o = some a) (ne : n ≠ a) (unlinked : ∀ i, next i ≠ some n)
    (unlinking : next n = none) : Separate (moveTo next o a n) := by
  intro i j c first second
  obtain ⟨notA, -, old⟩ := link_of_moveTo acyclic separate before ne unlinked unlinking first
  obtain ⟨notA', -, old'⟩ := link_of_moveTo acyclic separate before ne unlinked unlinking second
  have eq := separate _ _ _ old old'
  by_cases isN : i = n <;> by_cases isN' : j = n
  · rw [isN, isN']
  · rw [if_pos isN, if_neg isN'] at eq
    exact absurd eq.symm notA'
  · rw [if_neg isN, if_pos isN'] at eq
    exact absurd eq notA
  · rwa [if_neg isN, if_neg isN'] at eq

end MoveTo

end Chain
