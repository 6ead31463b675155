import Mathlib.Algebra.Group.Nat.Defs
import Mathlib.Data.List.Basic

/-!
# Readers and writers of byte streams

A reader takes bytes from the front of a stream and may give up; a writer puts bytes on a device
that has room for so many more, and may give up as well. `Reads r bytes a` says that `r` makes `a`
of exactly these bytes, whatever follows them, and `Writes full w result bytes` that `w` ends with
`result` once it has written exactly these bytes. A reader that is `Local` looks at no more bytes
than it takes, so that it never makes anything of a stream that breaks off.
-/

namespace Streams

variable {ε α β : Type}

/-! ## Readers -/

/-- A program that reads a stream: what it returns, and the bytes that are left. -/
def Reader (ε α : Type) : Type := List UInt8 → Except ε (α × List UInt8)

namespace Reader

/-- Read from a stream. -/
def run (r : Reader ε α) (s : List UInt8) : Except ε (α × List UInt8) := r s

instance : Monad (Reader ε) where
  pure a := fun s => .ok (a, s)
  bind r f := fun s =>
    match r s with
    | .ok (a, rest) => f a rest
    | .error e => .error e

/-- Give up. -/
def fail (e : ε) : Reader ε α := fun _ => .error e

/-- Take so many bytes, or give up when there are fewer. -/
def take (short : ε) (n : ℕ) : Reader ε (List UInt8) := fun s =>
  if n ≤ s.length then .ok (s.take n, s.drop n) else .error short

/-- Read so many values. -/
def many (r : Reader ε α) : ℕ → Reader ε (List α)
  | 0 => pure []
  | n + 1 => do
    let a ← r
    let as ← many r n
    pure (a :: as)

theorem run_bind (r : Reader ε α) (f : α → Reader ε β) (s : List UInt8) :
    (r >>= f).run s =
      match r.run s with
      | .ok (a, rest) => (f a).run rest
      | .error e => .error e := rfl

end Reader

/-- The reader makes the value of exactly these bytes. -/
def Reads (r : Reader ε α) (bytes : List UInt8) (a : α) : Prop :=
  ∀ rest, r.run (bytes ++ rest) = .ok (a, rest)

section Reads

variable {r : Reader ε α} {f : α → Reader ε β} {bytes bytes' : List UInt8} {a : α} {b : β}

theorem reads_pure (a : α) : Reads (pure a : Reader ε α) [] a := fun _ => rfl

theorem Reads.bind (first : Reads r bytes a) (second : Reads (f a) bytes' b) :
    Reads (r >>= f) (bytes ++ bytes') b := by
  intro rest
  rw [Reader.run_bind, List.append_assoc, first]
  exact second rest

/-- Something is made of what was read. -/
theorem Reads.bind_pure (first : Reads r bytes a) (last : f a = pure b) :
    Reads (r >>= f) bytes b := by
  intro rest
  rw [Reader.run_bind, first]
  simp only [last]
  rfl

theorem reads_take (short : ε) {n : ℕ} (length : bytes.length = n) :
    Reads (Reader.take short n) bytes bytes := by
  intro rest
  show (if n ≤ (bytes ++ rest).length then _ else _) = _
  rw [if_pos (by rw [List.length_append]; omega), ← length, List.take_left, List.drop_left]

/-- What is made of one value after the other is made of all of them. -/
theorem reads_many {write : α → List UInt8} {made : α → β} {r : Reader ε β} {as : List α}
    (each : ∀ a ∈ as, Reads r (write a) (made a)) :
    Reads (r.many as.length) (as.flatMap write) (as.map made) := by
  induction as with
  | nil => exact reads_pure []
  | cons a as ih =>
    have rest := ih fun a mem => each a (List.mem_cons_of_mem _ mem)
    exact (each a List.mem_cons_self).bind (rest.bind_pure rfl)

end Reads

/-- More bytes behind a stream change what is left and nothing else, unless the reader ran short. -/
def Local (short : ε → Prop) (r : Reader ε α) : Prop :=
  ∀ s t,
    match r.run s with
    | .ok (a, rest) => r.run (s ++ t) = .ok (a, rest ++ t)
    | .error e => short e ∨ r.run (s ++ t) = .error e

section Local

variable {short : ε → Prop} {r : Reader ε α} {f : α → Reader ε β} {bytes : List UInt8} {a : α}

theorem local_pure (a : α) : Local short (pure a : Reader ε α) := fun _ _ => rfl

theorem local_fail (e : ε) : Local short (Reader.fail e : Reader ε α) := fun _ _ => .inr rfl

theorem local_take {e : ε} (isShort : short e) (n : ℕ) : Local short (Reader.take e n) := by
  intro s t
  unfold Reader.run Reader.take
  by_cases le : n ≤ s.length
  · simp only [if_pos le, List.length_append, if_pos (Nat.le_add_right_of_le le),
      List.take_append_of_le_length le, List.drop_append_of_le_length le]
  · simp only [if_neg le]
    exact .inl isShort

theorem Local.bind (first : Local short r) (second : ∀ a, Local short (f a)) :
    Local short (r >>= f) := by
  intro s t
  have one := first s t
  rw [Reader.run_bind, Reader.run_bind]
  cases ran : r.run s with
  | ok result =>
    obtain ⟨a, rest⟩ := result
    rw [ran] at one
    rw [one]
    exact second a rest t
  | error e =>
    rw [ran] at one
    rcases one with isShort | same
    · exact .inl isShort
    · rw [same]
      exact .inr rfl

theorem Local.many (each : Local short r) (n : ℕ) : Local short (r.many n) := by
  induction n with
  | zero => exact local_pure []
  | succ n ih => exact each.bind fun a => ih.bind fun as => local_pure (a :: as)

theorem local_ite {c : Prop} [Decidable c] {r r' : Reader ε α} (yes : c → Local short r)
    (no : ¬ c → Local short r') : Local short (if c then r else r') := by
  by_cases holds : c
  · rw [if_pos holds]
    exact yes holds
  · rw [if_neg holds]
    exact no holds

/-- Nothing is made of a stream that breaks off. -/
theorem Local.truncated (isLocal : Local short r) (reads : Reads r bytes a) {s t : List UInt8}
    (split : bytes = s ++ t) (broken : t ≠ []) : ∃ e, r.run s = .error e ∧ short e := by
  have whole := reads []
  have part := isLocal s t
  rw [List.append_nil, split] at whole
  cases ran : r.run s with
  | ok result =>
    obtain ⟨b, rest⟩ := result
    rw [ran] at part
    have nothing : rest ++ t = [] := by
      rw [part] at whole
      exact (Prod.mk.inj (Except.ok.inj whole)).2
    exact absurd (List.append_eq_nil_iff.1 nothing).2 broken
  | error e =>
    rw [ran] at part
    rcases part with isShort | same
    · exact ⟨e, rfl, isShort⟩
    · rw [same] at whole
      cases whole

end Local

/-! ## Writers -/

/-- A program that writes to a device with room for so many bytes: how it ends, and what it has
written. -/
def Writer (ε α : Type) : Type := ℕ → Except ε α × List UInt8

namespace Writer

/-- Write to a device. -/
def run (w : Writer ε α) (room : ℕ) : Except ε α × List UInt8 := w room

instance : Monad (Writer ε) where
  pure a := fun _ => (.ok a, [])
  bind w f := fun room =>
    match w room with
    | (.ok a, bytes) =>
      let (result, more) := f a (room - bytes.length)
      (result, bytes ++ more)
    | (.error e, bytes) => (.error e, bytes)

/-- Give up. -/
def fail (e : ε) : Writer ε α := fun _ => (.error e, [])

/-- Write the bytes, or as many of them as there is room for and give up. -/
def put (full : ε) (bytes : List UInt8) : Writer ε Unit := fun room =>
  if bytes.length ≤ room then (.ok (), bytes) else (.error full, bytes.take room)

/-- Write one value after the other. -/
def each (w : α → Writer ε Unit) : List α → Writer ε Unit
  | [] => pure ()
  | a :: as => do
    w a
    each w as

theorem run_bind (w : Writer ε α) (f : α → Writer ε β) (room : ℕ) :
    (w >>= f).run room =
      match w.run room with
      | (.ok a, bytes) =>
        (((f a).run (room - bytes.length)).1, bytes ++ ((f a).run (room - bytes.length)).2)
      | (.error e, bytes) => (.error e, bytes) := rfl

end Writer

/-- The writer ends with the result after these bytes; on a device with less room it writes what
there is room for, and gives up. -/
def Writes (full : ε → Prop) (w : Writer ε α) (result : Except ε α) (bytes : List UInt8) : Prop :=
  ∀ room,
    (bytes.length ≤ room → w.run room = (result, bytes)) ∧
    (room < bytes.length → ∃ e, full e ∧ w.run room = (.error e, bytes.take room))

section Writes

variable {full : ε → Prop} {w : Writer ε α} {f : α → Writer ε β} {bytes bytes' : List UInt8} {a : α}
  {result : Except ε β} {e : ε}

theorem writes_pure (a : α) : Writes full (pure a : Writer ε α) (.ok a) [] :=
  fun _ => ⟨fun _ => rfl, fun lt => absurd lt (Nat.not_lt_zero _)⟩

theorem writes_fail (e : ε) : Writes full (Writer.fail e : Writer ε α) (.error e) [] :=
  fun _ => ⟨fun _ => rfl, fun lt => absurd lt (Nat.not_lt_zero _)⟩

theorem writes_put (isFull : full e) (bytes : List UInt8) :
    Writes full (Writer.put e bytes) (.ok ()) bytes :=
  fun room => ⟨fun le => if_pos le, fun lt => ⟨e, isFull, if_neg (by omega)⟩⟩

theorem Writes.bind (first : Writes full w (.ok a) bytes)
    (second : Writes full (f a) result bytes') :
    Writes full (w >>= f) result (bytes ++ bytes') := by
  intro room
  rw [List.length_append, Writer.run_bind]
  obtain ⟨fits, stops⟩ := first room
  obtain ⟨fits', stops'⟩ := second (room - bytes.length)
  constructor
  · intro le
    rw [fits (by omega)]
    simp only [fits' (by omega)]
  · intro lt
    by_cases le : bytes.length ≤ room
    · obtain ⟨e, isFull, ran⟩ := stops' (by omega)
      refine ⟨e, isFull, ?_⟩
      rw [fits le]
      simp only [ran]
      rw [List.take_append, List.take_of_length_le le]
    · obtain ⟨e, isFull, ran⟩ := stops (by omega)
      refine ⟨e, isFull, ?_⟩
      rw [ran]
      simp only
      rw [List.take_append_of_le_length (by omega)]

theorem Writes.bind_error (first : Writes full w (.error e) bytes) :
    Writes full (w >>= f) (.error e) bytes := by
  intro room
  rw [Writer.run_bind]
  obtain ⟨fits, stops⟩ := first room
  refine ⟨fun le => by rw [fits le], fun lt => ?_⟩
  obtain ⟨e, isFull, ran⟩ := stops lt
  exact ⟨e, isFull, by rw [ran]⟩

end Writes

end Streams
