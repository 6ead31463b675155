import Mathlib.Data.Int.Order.Basic
import Squirrels.Lib.Heaps
import Squirrels.Vm.Sort

/-!
# A sort sorts

Whatever the comparison says, a sort ends, reads no value that is not in the array, and leaves the
array with the values it had. When the comparison is that of keys, it succeeds and the array is in
order.
-/

namespace Squirrels

namespace Sorting

open Heaps

variable {σ ε β γ κ : Type} [LinearOrder κ] {cmp : SortCompare σ ε} {key : SQObject → κ}
  {s s' : σ × Array SQObject} {m : Sorting σ ε β} {f : β → Sorting σ ε γ}
  {root bottom hole fuel i j : ℕ}

/-! ## Outcomes -/

/-- The program has a result with the property. -/
def Ends (m : Sorting σ ε β) (s : σ × Array SQObject)
    (Q : Except (SortError ε) β → σ × Array SQObject → Prop) : Prop :=
  ∃ r s', m s = some (r, s') ∧ Q r s'

variable {Q Q' : Except (SortError ε) β → σ × Array SQObject → Prop}
  {R : Except (SortError ε) γ → σ × Array SQObject → Prop}

theorem ends_pure {b : β} (post : Q (.ok b) s) : Ends (pure b) s Q := ⟨_, _, rfl, post⟩

theorem Ends.mono (ends : Ends m s Q) (weaker : ∀ r s', Q r s' → Q' r s') : Ends m s Q' := by
  obtain ⟨r, s', ran, post⟩ := ends
  exact ⟨r, s', ran, weaker r s' post⟩

theorem bind_ok {b : β} (ran : m s = some (.ok b, s')) : (m >>= f) s = f b s' := by
  show (m s).bind _ = _
  rw [ran]
  rfl

theorem bind_error {e : SortError ε} (ran : m s = some (.error e, s')) :
    (m >>= f) s = some (.error e, s') := by
  show (m s).bind _ = _
  rw [ran]
  rfl

theorem Ends.bind (ends : Ends m s Q) (ok : ∀ b s', Q (.ok b) s' → Ends (f b) s' R)
    (error : ∀ e s', Q (.error e) s' → R (.error e) s') : Ends (m >>= f) s R := by
  obtain ⟨r, s', ran, post⟩ := ends
  cases r with
  | ok b =>
    obtain ⟨r', s'', ran', post'⟩ := ok b s' post
    exact ⟨r', s'', (bind_ok ran).trans ran', post'⟩
  | error e => exact ⟨.error e, s', bind_error ran, error e s' post⟩

/-! ## Comparisons -/

/-- The comparison of the values is that of their keys. -/
def Consistent (cmp : SortCompare σ ε) (key : SQObject → κ) (values : Array SQObject) : Prop :=
  ∀ state a b, a ∈ values → b ∈ values → ∃ n state', cmp state a b = (.ok n, state') ∧
    (n < 0 ↔ key a < key b) ∧ (0 < n ↔ key b < key a)

theorem Consistent.perm {values values' : Array SQObject} (consistent : Consistent cmp key values)
    (perm : values'.Perm values) : Consistent cmp key values' := fun state a b inA inB =>
  consistent state a b (perm.mem_iff.1 inA) (perm.mem_iff.1 inB)

/-- The keys of the values in an array. -/
def keys (key : SQObject → κ) (values : Array SQObject) (i : ℕ) : κ :=
  key (values[i]?.getD .null)

theorem ends_compare (key : SQObject → κ) (ltI : i < s.2.size) (ltJ : j < s.2.size) :
    Ends (compare cmp i j) s fun r s' => s'.2 = s.2 ∧ (Consistent cmp key s.2 → ∃ n, r = .ok n ∧
      (n < 0 ↔ keys key s.2 i < keys key s.2 j) ∧
      (0 < n ↔ keys key s.2 j < keys key s.2 i)) := by
  have isI : s.2[i]? = some s.2[i] := Array.getElem?_eq_getElem ltI
  have isJ : s.2[j]? = some s.2[j] := Array.getElem?_eq_getElem ltJ
  have inI : s.2[i] ∈ s.2 := Array.getElem_mem ltI
  have inJ : s.2[j] ∈ s.2 := Array.getElem_mem ltJ
  unfold Ends keys compare
  rw [isI, isJ, Option.bind_some, Option.map_some]
  cases is : cmp s.1 s.2[i] s.2[j] with
  | mk r state =>
    cases r with
    | ok n =>
      refine ⟨_, _, rfl, rfl, fun consistent => ⟨n, rfl, ?_⟩⟩
      obtain ⟨n', state', same, order⟩ := consistent s.1 s.2[i] s.2[j] inI inJ
      rw [is] at same
      cases same
      exact order
    | error e =>
      refine ⟨_, _, rfl, rfl, fun consistent => ?_⟩
      obtain ⟨n', state', same, -⟩ := consistent s.1 s.2[i] s.2[j] inI inJ
      rw [is] at same
      cases same

/-- The greater one of the values below. -/
theorem ends_maxChild (key : SQObject → κ) (le : root * 2 ≤ bottom) (lt : bottom < s.2.size) :
    Ends (maxChild cmp root bottom) s fun r s' => s'.2 = s.2 ∧
      (∀ c, r = .ok c → Child root c ∧ c ≤ bottom) ∧ (Consistent cmp key s.2 → ∃ c, r = .ok c ∧
        ∀ d, Child root d → d ≤ bottom → keys key s.2 d ≤ keys key s.2 c) := by
  unfold maxChild Child
  split
  · rename_i last
    refine ends_pure ⟨rfl, fun c eq => ?_, fun _ => ⟨_, rfl, fun d child leD => ?_⟩⟩
    · cases eq
      omega
    · rw [show d = root * 2 by omega]
  · rename_i more
    refine (ends_compare key (by omega) (by omega)).bind (fun ret s₁ post => ?_)
      fun e s₁ post => ⟨post.1, (fun c eq => by cases eq), fun consistent => ?_⟩
    · refine ends_pure ⟨post.1, fun c eq => ?_, fun consistent => ⟨_, rfl, fun d child leD => ?_⟩⟩
      · cases eq
        split <;> omega
      · obtain ⟨n, eq, -, greater⟩ := post.2 consistent
        cases eq
        split
        · rename_i pos
          rcases child with eq | eq
          · rw [eq, Nat.mul_comm]
          · rw [eq, Nat.mul_comm]
            exact le_of_lt (greater.1 pos)
        · rename_i notPos
          have le := not_lt.1 fun lt => notPos (greater.2 lt)
          rcases child with eq | eq
          · rw [eq, Nat.mul_comm]
            exact le
          · rw [eq, Nat.mul_comm]
    · obtain ⟨n, eq, -⟩ := post.2 consistent
      cases eq

/-! ## Swaps -/

omit [LinearOrder κ] in
theorem ends_swap (key : SQObject → κ) (ltI : i < s.2.size) (ltJ : j < s.2.size) :
    Ends (swap (ε := ε) i j) s fun r s' => r = .ok () ∧ s'.2.Perm s.2 ∧
      (∀ k, k ≠ i → k ≠ j → s'.2[k]? = s.2[k]?) ∧ keys key s'.2 i = keys key s.2 j ∧
      keys key s'.2 j = keys key s.2 i := by
  refine ⟨.ok (), (s.1, s.2.swap i j ltI ltJ), dif_pos ⟨ltI, ltJ⟩, rfl, Array.swap_perm ltI ltJ,
    fun k neI neJ => ?_, ?_, ?_⟩
  · show (s.2.swap i j ltI ltJ)[k]? = _
    rw [Array.getElem?_swap, if_neg neJ.symm, if_neg neI.symm]
  · unfold keys
    show key ((s.2.swap i j ltI ltJ)[i]?.getD .null) = _
    rw [Array.getElem?_swap]
    by_cases same : j = i
    · subst same
      rw [if_pos rfl, Array.getElem?_eq_getElem ltI]
    · rw [if_neg same, if_pos rfl, Array.getElem?_eq_getElem ltJ]
  · unfold keys
    show key ((s.2.swap i j ltI ltJ)[j]?.getD .null) = _
    rw [Array.getElem?_swap, if_pos rfl, Array.getElem?_eq_getElem ltI]

/-! ## Sifting -/

/-- What a loop leaves: the values, those beyond a place where they are, and a property that the
keys up to there have. -/
structure Sifted (key : SQObject → κ) (bottom : ℕ) (a a' : Array SQObject) : Prop where
  perm : a'.Perm a
  beyond : ∀ k, bottom < k → a'[k]? = a[k]?
  within : ∀ P : κ → Prop, (∀ j ≤ bottom, P (keys key a j)) → ∀ j ≤ bottom, P (keys key a' j)

omit [LinearOrder κ] in
theorem Sifted.refl (key : SQObject → κ) (bottom : ℕ) (a : Array SQObject) :
    Sifted key bottom a a := ⟨Array.Perm.refl a, fun _ _ => rfl, fun _ all => all⟩

omit [LinearOrder κ] in
theorem Sifted.trans {a a' a'' : Array SQObject} (first : Sifted key bottom a a')
    (second : Sifted key bottom a' a'') : Sifted key bottom a a'' where
  perm := second.perm.trans first.perm
  beyond k lt := (second.beyond k lt).trans (first.beyond k lt)
  within P all := second.within P (first.within P all)

omit [LinearOrder κ] in
theorem keys_congr {a a' : Array SQObject} {k : ℕ} (same : a'[k]? = a[k]?) :
    keys key a' k = keys key a k := by rw [keys, keys, same]

omit [LinearOrder κ] in
/-- Two values up to the place are swapped. -/
theorem sifted_swap {a a' : Array SQObject} (perm : a'.Perm a) (leI : i ≤ bottom)
    (leJ : j ≤ bottom) (others : ∀ k, k ≠ i → k ≠ j → a'[k]? = a[k]?)
    (first : keys key a' i = keys key a j) (second : keys key a' j = keys key a i) :
    Sifted key bottom a a' where
  perm := perm
  beyond k lt := others k (by omega) (by omega)
  within P all k le := by
    by_cases isI : k = i
    · rw [isI, first]
      exact all j leJ
    · by_cases isJ : k = j
      · rw [isJ, second]
        exact all i leI
      · rw [keys_congr (others k isI isJ)]
        exact all k le

/-- A value sinks to its place. -/
theorem ends_siftDown (key : SQObject → κ) (lt : bottom < s.2.size) (leRoot : root ≤ bottom + 1)
    (enough : bottom + 2 ≤ fuel + root) :
    Ends (siftDown cmp fuel root bottom) s fun r s' => Sifted key bottom s.2 s'.2 ∧
      (Consistent cmp key s.2 → ∀ from_ ≤ root, HeapBut (keys key s.2) from_ root bottom →
        r = .ok () ∧ HeapFrom (keys key s'.2) from_ bottom) := by
  induction fuel generalizing root s with
  | zero => omega
  | succ fuel ih =>
    rw [siftDown]
    split
    · rename_i le
      refine (ends_maxChild key le lt).bind (fun child s₁ post₁ => ?_) fun e s₁ post₁ => ?_
      · obtain ⟨same₁, isChild, greatest⟩ := post₁
        obtain ⟨below, leChild⟩ := isChild child rfl
        have leRoot : root ≤ bottom := Nat.le_trans below.le leChild
        rw [← same₁] at lt greatest
        rw [← same₁]
        refine (ends_compare key (show root < s₁.2.size by omega)
          (show child < s₁.2.size by omega)).bind (fun ret s₂ post₂ => ?_) fun e s₂ post₂ => ?_
        · obtain ⟨same₂, order⟩ := post₂
          rw [← same₂] at lt greatest order
          rw [← same₂]
          split
          · rename_i less
            split
            · rename_i self
              refine ⟨_, _, rfl, Sifted.refl key bottom s₂.2, fun consistent => ?_⟩
              obtain ⟨n, eq, isLess, -⟩ := order consistent
              cases eq
              exact absurd (isLess.1 less) (by rw [← self]; exact lt_irrefl _)
            · rename_i ne
              refine (ends_swap key (show root < s₂.2.size by omega)
                (show child < s₂.2.size by omega)).bind (fun _ s₃ post₃ => ?_)
                fun e s₃ post₃ => by cases post₃.1
              obtain ⟨-, perm, others, first, second⟩ := post₃
              have swapped : Sifted key bottom s₂.2 s₃.2 :=
                sifted_swap perm leRoot leChild others first second
              have ltChild : root < child := Nat.lt_of_le_of_ne below.le ne
              refine (ih (s := s₃) (by rw [perm.size_eq]; exact lt) (by omega) (by omega)).mono ?_
              rintro r s₄ ⟨sifted, heap₄⟩
              refine ⟨swapped.trans sifted, fun consistent from_ leFrom heap => ?_⟩
              obtain ⟨n, eq, isLess, -⟩ := order consistent
              cases eq
              obtain ⟨c, eq, most⟩ := greatest consistent
              cases eq
              exact heap₄ (consistent.perm perm) from_ (by omega) (heap.sink leFrom below
                (Ne.symm ne) leChild (le_of_lt (isLess.1 less)) most first second
                fun k neRoot neChild => keys_congr (others k neRoot neChild))
          · rename_i notLess
            refine ends_pure ⟨Sifted.refl key bottom s₂.2, fun consistent from_ leFrom heap =>
              ⟨rfl, heap.heapFrom fun c child leC => ?_⟩⟩
            obtain ⟨n, eq, isLess, -⟩ := order consistent
            cases eq
            obtain ⟨c', eq, most⟩ := greatest consistent
            cases eq
            exact le_trans (most c child leC) (not_lt.1 fun less => notLess (isLess.2 less))
        · obtain ⟨same₂, order⟩ := post₂
          rw [same₂]
          refine ⟨Sifted.refl key bottom s₁.2, fun consistent => ?_⟩
          obtain ⟨n, eq, -⟩ := order consistent
          cases eq
      · obtain ⟨same₁, -, greatest⟩ := post₁
        rw [same₁]
        refine ⟨Sifted.refl key bottom s.2, fun consistent => ?_⟩
        obtain ⟨c, eq, -⟩ := greatest consistent
        cases eq
    · rename_i past
      refine ends_pure ⟨Sifted.refl key bottom s.2, fun consistent from_ le heap => ⟨rfl, ?_⟩⟩
      refine heap.heapFrom fun c child leC => ?_
      unfold Child at child
      omega

/-! ## Both loops -/

/-- The first loop makes a heap. -/
theorem ends_heapify (key : SQObject → κ) (lt : bottom < s.2.size) (le : i ≤ bottom + 1) :
    Ends (heapify cmp bottom i) s fun r s' => Sifted key bottom s.2 s'.2 ∧
      (Consistent cmp key s.2 → HeapFrom (keys key s.2) (i + 1) bottom →
        r = .ok () ∧ HeapFrom (keys key s'.2) 0 bottom) := by
  induction i generalizing s with
  | zero =>
    refine (ends_siftDown key lt (Nat.zero_le _) (Nat.le_refl _)).mono ?_
    rintro r s' ⟨sifted, mended⟩
    exact ⟨sifted, fun consistent heap => mended consistent 0 (Nat.le_refl _) heap.but⟩
  | succ i ih =>
    refine (ends_siftDown key lt le (show bottom + 2 ≤ bottom + 2 + (i + 1) by omega)).bind
      (fun _ s₁ post => ?_) fun e s₁ post => ?_
    · obtain ⟨sifted, mended⟩ := post
      refine (ih (s := s₁) (by rw [sifted.perm.size_eq]; exact lt) (by omega)).mono ?_
      rintro r s' ⟨sifted', made⟩
      refine ⟨sifted.trans sifted', fun consistent heap => ?_⟩
      exact made (consistent.perm sifted.perm)
        (mended consistent (i + 1) (Nat.le_refl _) heap.but).2
    · obtain ⟨sifted, mended⟩ := post
      refine ⟨sifted, fun consistent heap => ?_⟩
      cases (mended consistent (i + 1) (Nat.le_refl _) heap.but).1

/-- The first and the last value of a heap do not matter for what is between them. -/
theorem heap_without_first {a a' : Array SQObject} (heap : HeapFrom (keys key a) 0 (i + 1))
    (others : ∀ k, k ≠ 0 → k ≠ i + 1 → a'[k]? = a[k]?) : HeapFrom (keys key a') (0 + 1) i := by
  intro j c le child leC
  have := child.le
  rw [keys_congr (others j (by omega) (by omega)), keys_congr (others c (by omega) (by omega))]
  exact heap j c (Nat.zero_le _) child (by omega)

/-- The second loop puts the values of a heap in order. -/
theorem ends_extract (key : SQObject → κ) (lt : i < s.2.size) :
    Ends (extract cmp i) s fun r s' => s'.2.Perm s.2 ∧
      (Consistent cmp key s.2 → HeapFrom (keys key s.2) 0 i →
        (∀ j k, j < k → i < k → k < s.2.size → keys key s.2 j ≤ keys key s.2 k) →
        r = .ok () ∧ ∀ j k, j < k → k < s.2.size → keys key s'.2 j ≤ keys key s'.2 k) := by
  induction i generalizing s with
  | zero =>
    refine ends_pure ⟨Array.Perm.refl _, fun _ _ sorted => ⟨rfl, fun j k ltK => ?_⟩⟩
    exact sorted j k ltK (by omega)
  | succ i ih =>
    refine (ends_swap key (show 0 < s.2.size by omega) lt).bind (fun _ s₁ post => ?_)
      fun e s₁ post => by cases post.1
    obtain ⟨-, perm₁, others, first, second⟩ := post
    have size₁ := perm₁.size_eq
    have swapped : Sifted key (i + 1) s.2 s₁.2 :=
      sifted_swap perm₁ (Nat.zero_le _) (Nat.le_refl _) others first second
    refine (ends_siftDown key (show i < s₁.2.size by omega) (Nat.zero_le (i + 1))
      (show i + 2 ≤ i + 2 + 0 by omega)).bind
      (fun _ s₂ post => ?_) fun e s₂ post => ?_
    · obtain ⟨sifted, mended⟩ := post
      have size₂ := sifted.perm.size_eq
      refine (ih (s := s₂) (by omega)).mono ?_
      rintro r s₃ ⟨perm₃, ordered⟩
      refine ⟨perm₃.trans (sifted.perm.trans perm₁), fun consistent heap sorted => ?_⟩
      -- what bounds the values up to the place still does
      have front : ∀ x, (∀ j ≤ i + 1, keys key s.2 j ≤ x) → ∀ j ≤ i + 1, keys key s₂.2 j ≤ x := by
        intro x all j le
        have front₁ := swapped.within (· ≤ x) all
        by_cases last : j = i + 1
        · rw [last, keys_congr (sifted.beyond _ (Nat.lt_succ_self i))]
          exact front₁ _ (Nat.le_refl _)
        · exact sifted.within (· ≤ x) (fun k leK => front₁ k (by omega)) j (by omega)
      have back : ∀ k, i + 1 < k → keys key s₂.2 k = keys key s.2 k := fun k ltK => by
        rw [keys_congr (sifted.beyond k (by omega)), keys_congr (others k (by omega) (by omega))]
      have greatest : keys key s₂.2 (i + 1) = keys key s.2 0 := by
        rw [keys_congr (sifted.beyond _ (Nat.lt_succ_self i)), second]
      obtain ⟨-, heap₂⟩ := mended (consistent.perm perm₁) 0 (Nat.le_refl _)
        (heap_without_first heap others).but
      rw [← size₁, ← size₂]
      refine ordered ((consistent.perm perm₁).perm sifted.perm) heap₂ fun j k ltK past ltSize => ?_
      by_cases last : k = i + 1
      · rw [last, greatest]
        exact front _ (fun j le => heap.le_first le) j (by omega)
      · rw [back k (by omega)]
        by_cases le : j ≤ i + 1
        · exact front _ (fun j le => sorted j k (by omega) (by omega) (by omega)) j le
        · rw [back j (by omega)]
          exact sorted j k ltK (by omega) (by omega)
    · obtain ⟨sifted, mended⟩ := post
      refine ⟨sifted.perm.trans perm₁, fun consistent heap sorted => ?_⟩
      cases (mended (consistent.perm perm₁) 0 (Nat.le_refl _)
        (heap_without_first heap others).but).1

theorem ends_arraySort (cmp : SortCompare σ ε) (key : SQObject → κ) (s : σ × Array SQObject) :
    Ends (arraySort cmp) s fun r s' => s'.2.Perm s.2 ∧ (Consistent cmp key s.2 →
      r = .ok () ∧ ∀ j k, j < k → k < s.2.size → keys key s'.2 j ≤ keys key s'.2 k) := by
  by_cases more : 1 < s.2.size
  · have both : arraySort cmp s = (do
        heapify cmp (s.2.size - 1) (s.2.size / 2)
        extract cmp (s.2.size - 1) : Sorting σ ε Unit) s := by
      rw [arraySort, if_pos more, hsort]
    unfold Ends
    rw [both]
    -- the places in the second half have nothing below
    have leaves : HeapFrom (keys key s.2) (s.2.size / 2 + 1) (s.2.size - 1) := by
      intro i c le child leC
      unfold Child at child
      omega
    refine (ends_heapify key (by omega) (by omega)).bind (fun _ s₁ post => ?_)
      fun e s₁ post => ⟨post.1.perm, fun consistent => ?_⟩
    · obtain ⟨sifted, made⟩ := post
      have size₁ := sifted.perm.size_eq
      refine (ends_extract key (by omega)).mono ?_
      rintro r s' ⟨perm, ordered⟩
      refine ⟨perm.trans sifted.perm, fun consistent => ?_⟩
      obtain ⟨ok, sorted⟩ := ordered (consistent.perm sifted.perm) (made consistent leaves).2
        fun j k _ past ltSize => by omega
      exact ⟨ok, fun j k lt ltSize => sorted j k lt (by omega)⟩
    · cases (post.2 consistent leaves).1
  · refine ⟨.ok (), s, ?_, Array.Perm.refl _, fun _ => ⟨rfl, fun j k lt ltSize => by omega⟩⟩
    rw [arraySort, if_neg more]

/-- Whatever the comparison says, and whatever it does besides, a sort ends without reading past the
array, and leaves the array with the values it had. -/
theorem arraySort_perm (cmp : SortCompare σ ε) (s : σ × Array SQObject) :
    ∃ r s', arraySort cmp s = some (r, s') ∧ s'.2.Perm s.2 := by
  obtain ⟨r, s', ran, perm, -⟩ := ends_arraySort cmp (fun _ => (0 : ℕ)) s
  exact ⟨r, s', ran, perm⟩

/-- With a comparison that is that of keys, a sort puts the array in the order of the keys. -/
theorem arraySort_sorts (cmp : SortCompare σ ε) (key : SQObject → κ) (s : σ × Array SQObject)
    (consistent : Consistent cmp key s.2) : ∃ s', arraySort cmp s = some (.ok (), s') ∧
      s'.2.Perm s.2 ∧ (s'.2.toList.map key).Pairwise (· ≤ ·) := by
  obtain ⟨r, s', ran, perm, sorted⟩ := ends_arraySort cmp key s
  obtain ⟨rfl, ordered⟩ := sorted consistent
  refine ⟨s', ran, perm, List.pairwise_iff_getElem.2 fun j k ltJ ltK lt => ?_⟩
  have size := perm.size_eq
  simp only [List.length_map, Array.length_toList] at ltJ ltK
  have pair := ordered j k lt (by omega)
  rw [keys, keys, Array.getElem?_eq_getElem ltJ, Array.getElem?_eq_getElem ltK] at pair
  simpa using pair

/-- A function that compares integers, the greatest first, and counts its calls. -/
def descending : SortCompare ℕ SQObject := fun calls a b =>
  match a, b with
  | .integer x, .integer y => (.ok (y - x), calls + 1)
  | _, _ => (.error .null, calls + 1)

/-- The order in which the function puts integers. -/
def descendingKey : SQObject → ℤ
  | .integer x => -x
  | _ => 0

theorem arraySort_sorts_descending : ∃ s',
    arraySort descending (0, #[.integer 2, .integer 7, .integer 5, .integer 7]) =
      some (.ok (), s') ∧
    s'.2 = #[.integer 7, .integer 7, .integer 5, .integer 2] := by
  have integers : ∀ a ∈ #[SQObject.integer 2, .integer 7, .integer 5, .integer 7],
      ∃ x, a = .integer x := by
    intro a mem
    simp only [List.mem_toArray, List.mem_cons, List.not_mem_nil, or_false] at mem
    rcases mem with rfl | rfl | rfl | rfl <;> exact ⟨_, rfl⟩
  have consistent : Consistent descending descendingKey
      #[SQObject.integer 2, .integer 7, .integer 5, .integer 7] := by
    intro calls a b inA inB
    obtain ⟨x, rfl⟩ := integers a inA
    obtain ⟨y, rfl⟩ := integers b inB
    exact ⟨y - x, calls + 1, rfl, by simp only [descendingKey]; omega,
      by simp only [descendingKey]; omega⟩
  obtain ⟨s', ran, -, -⟩ := arraySort_sorts descending descendingKey (0, _) consistent
  refine ⟨s', ran, ?_⟩
  have values : (arraySort descending (0, #[.integer 2, .integer 7, .integer 5, .integer 7])).map
      (fun r => r.2.2) = some #[.integer 7, .integer 7, .integer 5, .integer 2] := by decide +kernel
  rw [ran] at values
  exact Option.some.inj values

end Sorting

end Squirrels
