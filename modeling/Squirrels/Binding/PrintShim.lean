import Squirrels.Binding.Process

/-!
# The print shim

`print` formats its text in C and hands it to the dispatch function of the Rust side. A text that
does not fit the buffer on the stack is formatted once more, from a copy of the arguments, into a
buffer on the heap.
-/

namespace Squirrels

/-- `INT_MAX`. -/
def intMax : ℕ := 2 ^ 31 - 1

/-- The size of `small_buf`. -/
def smallBufSize : ℕ := 1024

/-- A buffer of `n` bytes. -/
def Buffer (n : ℕ) : Type := { bytes : List UInt8 // bytes.length = n }

/-- What the shim uses of the C library, as it is documented. `text` is the format result of a
format string and its arguments. -/
structure Libc where
  VaList : Type
  text : List UInt8 → VaList → List UInt8
  vaCopy : VaList → VaList
  vsnprintf : {size : ℕ} → Buffer size → List UInt8 → VaList → ℤ × Buffer size
  malloc : (size : ℕ) → Option (Buffer size)
  /-- `va_copy` gives an equivalent argument list. -/
  vaCopy_text : ∀ fmt ap, text fmt (vaCopy ap) = text fmt ap
  /-- `vsnprintf` returns the full length, if an `int` can hold it. -/
  vsnprintf_length : ∀ {size : ℕ} (buf : Buffer size) fmt ap, (text fmt ap).length ≤ intMax →
    (vsnprintf buf fmt ap).1 = (text fmt ap).length
  /-- `vsnprintf` writes at most `size - 1` bytes, then a NUL. -/
  vsnprintf_written : ∀ {size : ℕ} (buf : Buffer size) fmt ap, 0 < size → ∃ rest,
    (vsnprintf buf fmt ap).2.val = (text fmt ap).take (size - 1) ++ 0 :: rest
  /-- `malloc` succeeds. -/
  malloc_some : ∀ size, (malloc size).isSome

namespace Libc

variable (libc : Libc)

/-- `print_dispatch`: the buffers that the dispatch function is called with, in order. `smallBuf` is
what the stack holds before. -/
def printDispatch (smallBuf : Buffer smallBufSize) (fmt : List UInt8) (ap : libc.VaList) :
    List (List UInt8) :=
  let copy := libc.vaCopy ap
  let (n, smallBuf) := libc.vsnprintf smallBuf fmt ap
  if n < 0 then []
  else if n.toNat < smallBufSize then [smallBuf.val]
  else
    let capacity := n.toNat + 1
    match libc.malloc capacity with
    | some bigBuf => [(libc.vsnprintf bigBuf fmt copy).2.val]
    | none => []

end Libc

namespace PrintRegistry

/-- `squirrels_shim_print` and `squirrels_shim_error`: the callbacks that are called. -/
def shim (prints : PrintRegistry) (libc : Libc) (v : Addr) (t : PrintFnType)
    (smallBuf : Buffer smallBufSize) (fmt : List UInt8) (ap : libc.VaList) : List (ℕ × List Char) :=
  (libc.printDispatch smallBuf fmt ap).flatMap fun msg => prints.dispatch v msg t

end PrintRegistry

/-- A text without NUL is read back from a buffer that it is the beginning of. -/
theorem cString_append_nul {text : List UInt8} (clean : 0 ∉ text) (rest : List UInt8) :
    cString (text ++ 0 :: rest) = text := by
  have kept : ∀ b ∈ text, (decide (b ≠ 0)) = true := fun b mem =>
    decide_eq_true fun eq => clean (eq ▸ mem)
  unfold cString
  rw [List.takeWhile_append_of_pos kept, List.takeWhile_cons_of_neg (by simp), List.append_nil]

namespace Libc

variable (libc : Libc) {fmt : List UInt8} {ap : libc.VaList}

/-- A buffer with room for the text and its NUL receives all of it. -/
theorem cString_vsnprintf {size : ℕ} (buf : Buffer size) (clean : 0 ∉ libc.text fmt ap)
    (room : (libc.text fmt ap).length < size) :
    cString (libc.vsnprintf buf fmt ap).2.val = libc.text fmt ap := by
  obtain ⟨rest, written⟩ := libc.vsnprintf_written buf fmt ap (by omega)
  rw [written, List.take_of_length_le (by omega), cString_append_nul clean]

/-- The dispatch function is called once, with a buffer that holds the text. -/
theorem printDispatch_text (smallBuf : Buffer smallBufSize) (clean : 0 ∉ libc.text fmt ap)
    (fits : (libc.text fmt ap).length ≤ intMax) :
    ∃ buf, libc.printDispatch smallBuf fmt ap = [buf] ∧ cString buf = libc.text fmt ap := by
  have length := libc.vsnprintf_length smallBuf fmt ap fits
  have small := libc.cString_vsnprintf smallBuf clean
  unfold printDispatch
  generalize libc.vsnprintf smallBuf fmt ap = written at length small ⊢
  obtain ⟨n, buf⟩ := written
  obtain rfl : n = (libc.text fmt ap).length := length
  simp only [Int.toNat_natCast]
  rw [if_neg (by omega)]
  split
  · rename_i fits
    exact ⟨_, rfl, small fits⟩
  · obtain ⟨bigBuf, allocated⟩ := Option.isSome_iff_exists.1
      (libc.malloc_some ((libc.text fmt ap).length + 1))
    have copied := libc.vaCopy_text fmt ap
    rw [allocated]
    refine ⟨_, rfl, ?_⟩
    rw [libc.cString_vsnprintf bigBuf (by rwa [copied]) (by rw [copied]; omega), copied]

end Libc

/-- The shim hands the dispatch function the whole text, once, and the callback of the machine
receives its lossy decoding. -/
theorem shim_delivers_text (libc : Libc) (smallBuf : Buffer smallBufSize) (fmt : List UInt8)
    (ap : libc.VaList) (clean : 0 ∉ libc.text fmt ap) (fits : (libc.text fmt ap).length ≤ intMax)
    (prints : PrintRegistry) (v : Addr) (t : PrintFnType) :
    (∃ buf, libc.printDispatch smallBuf fmt ap = [buf] ∧ cString buf = libc.text fmt ap) ∧
      prints.shim libc v t smallBuf fmt ap =
        (((prints v).bind (·.select t)).toList.map fun f =>
          (f, Utf8.decodeLossy (libc.text fmt ap))) := by
  obtain ⟨buf, once, whole⟩ := libc.printDispatch_text smallBuf clean fits
  refine ⟨⟨buf, once, whole⟩, ?_⟩
  unfold PrintRegistry.shim PrintRegistry.dispatch
  rw [once]
  cases (prints v).bind (·.select t) with
  | none => rfl
  | some f => simp [whole]

/-- The C library on the format `%s`, with the argument as the argument list. -/
def Libc.percentS : Libc where
  VaList := List UInt8
  text _ ap := ap
  vaCopy ap := ap
  vsnprintf {size} buf _ ap :=
    (if ap.length ≤ intMax then ap.length else -1,
      if room : 0 < size then
        ⟨ap.take (size - 1) ++ 0 :: buf.val.drop ((ap.take (size - 1)).length + 1), by
          have := buf.property
          simp only [List.length_append, List.length_take, List.length_cons, List.length_drop]
          omega⟩
      else buf)
  malloc size := some ⟨List.replicate size 0, List.length_replicate⟩
  vaCopy_text _ _ := rfl
  vsnprintf_length _ _ _ fits := if_pos fits
  vsnprintf_written _ _ _ room := ⟨_, congrArg Subtype.val (dif_pos room)⟩
  malloc_some _ := rfl

/-- A text of the size of the buffer on the stack, which has no room for its NUL. -/
theorem shim_delivers_text_boundary :
    (PrintRegistry.setFn (fun _ => none) 0 7 .print).shim .percentS 0 .print
        ⟨List.replicate smallBufSize 0, List.length_replicate⟩ [37, 115]
        (List.replicate smallBufSize 97) =
      [(7, Utf8.decodeLossy (List.replicate smallBufSize 97))] :=
  (shim_delivers_text .percentS _ [37, 115] (List.replicate smallBufSize 97)
    (fun held => absurd (List.eq_of_mem_replicate held) (by decide))
    (show (List.replicate _ _).length ≤ _ by rw [List.length_replicate]; decide) _ 0 .print).2

/-! ## `print` and `error` -/

/-- What `base_print` and `base_error` use of the C library, as it is documented. -/
structure Libc.Strings (libc : Libc) where
  /-- The argument list of one string. -/
  args : List UInt8 → libc.VaList
  /-- `%s` takes the bytes before the NUL. -/
  text_args : ∀ str, libc.text [37, 115] (args str) = cString str
  /-- `vsnprintf` fails if no `int` can hold the full length. -/
  vsnprintf_overflow : ∀ {size : ℕ} (buf : Buffer size) fmt ap,
    intMax < (libc.text fmt ap).length → (libc.vsnprintf buf fmt ap).1 < 0

namespace PrintRegistry

variable {libc : Libc} (strings : libc.Strings) (prints : PrintRegistry) (v : Addr)
  (t : PrintFnType) (smallBuf : Buffer smallBufSize) (str : List UInt8)

/-- `base_print` and `base_error` of a string: the callbacks that are called. -/
def basePrint : List (ℕ × List Char) :=
  prints.shim libc v t smallBuf [37, 115] (strings.args str)

/-- The bytes of the strings that callbacks get. -/
def received (calls : List (ℕ × List Char)) : List (ℕ × List UInt8) :=
  calls.map (Prod.map id Utf8.encode)

/-- A text whose length an `int` can hold. -/
theorem basePrint_of_le (fits : (cString str).length ≤ intMax) :
    basePrint strings prints v t smallBuf str =
      ((prints v).bind (·.select t)).toList.map fun f => (f, Utf8.decodeLossy (cString str)) := by
  have clean : 0 ∉ cString str := fun mem => by simpa using List.mem_takeWhile_imp mem
  have text := strings.text_args str
  rw [← text] at fits clean ⊢
  exact (shim_delivers_text libc smallBuf _ _ clean fits prints v t).2

/-- A longer text reaches no callback. -/
theorem basePrint_of_lt (long : intMax < (cString str).length) :
    basePrint strings prints v t smallBuf str = [] := by
  rw [← strings.text_args str] at long
  have fails := strings.vsnprintf_overflow smallBuf _ _ long
  unfold basePrint shim Libc.printDispatch
  generalize libc.vsnprintf smallBuf [37, 115] (strings.args str) = written at fails ⊢
  obtain ⟨n, buf⟩ := written
  simp only
  rw [if_pos fails]
  rfl

/-- Without a callback nothing is called. -/
theorem basePrint_of_none (missing : (prints v).bind (·.select t) = none) :
    basePrint strings prints v t smallBuf str = [] := by
  rcases Nat.lt_or_ge intMax (cString str).length with long | fits
  · exact basePrint_of_lt strings prints v t smallBuf str long
  · rw [basePrint_of_le strings prints v t smallBuf str fits, missing]
    rfl

/-- A text arrives byte by byte exactly when it has no NUL and is valid UTF-8. -/
theorem encode_decodeLossy_cString_iff {str : List UInt8} :
    Utf8.encode (Utf8.decodeLossy (cString str)) = str ↔
      0 ∉ str ∧ ∃ chars, Utf8.encode chars = str := by
  by_cases clean : 0 ∈ str
  · have cut : ∃ rest, str = cString str ++ 0 :: rest := by
      have dropped : str.dropWhile (· ≠ 0) ≠ [] := by
        rw [ne_eq, List.dropWhile_eq_nil_iff]
        exact fun all => by simpa using all 0 clean
      obtain ⟨b, rest, eq⟩ := List.exists_cons_of_ne_nil dropped
      have first := List.head_dropWhile_not (fun b : UInt8 => b ≠ 0) dropped
      simp only [eq, List.head_cons] at first
      obtain rfl : b = 0 := by simpa using first
      exact ⟨rest, by rw [← eq]; exact (List.takeWhile_append_dropWhile).symm⟩
    obtain ⟨rest, eq⟩ := cut
    constructor
    · intro same
      have decoded := congrArg Utf8.decodeLossy same
      rw [Utf8.decodeLossy_encode] at decoded
      nth_rewrite 2 [eq] at decoded
      exact absurd decoded.symm (Utf8.decodeLossy_append_nul_ne _ rest)
    · exact fun both => absurd clean both.1
  · rw [(cString_eq_self_iff str).2 clean, Utf8.encode_decodeLossy_iff]
    exact ⟨fun valid => ⟨clean, valid⟩, And.right⟩

/-- A callback gets a text once and as it is exactly when the text has no NUL, is valid UTF-8 and
is no longer than an `int` can say. -/
theorem received_basePrint_iff {f : ℕ} (set : (prints v).bind (·.select t) = some f) :
    received (basePrint strings prints v t smallBuf str) = [(f, str)] ↔
      0 ∉ str ∧ str.length ≤ intMax ∧ ∃ chars, Utf8.encode chars = str := by
  by_cases fits : (cString str).length ≤ intMax
  · rw [basePrint_of_le strings prints v t smallBuf str fits, set]
    have call : received ((some f).toList.map fun f => (f, Utf8.decodeLossy (cString str))) =
        [(f, str)] ↔ Utf8.encode (Utf8.decodeLossy (cString str)) = str := by
      simp [received]
    rw [call, encode_decodeLossy_cString_iff]
    constructor
    · rintro ⟨clean, valid⟩
      rw [(cString_eq_self_iff str).2 clean] at fits
      exact ⟨clean, fits, valid⟩
    · exact fun all => ⟨all.1, all.2.2⟩
  · rw [basePrint_of_lt strings prints v t smallBuf str (Nat.not_le.1 fits)]
    constructor
    · exact fun nothing => by cases nothing
    · rintro ⟨clean, short, valid⟩
      rw [(cString_eq_self_iff str).2 clean] at fits
      exact absurd short fits

end PrintRegistry

/-- That library on arguments of `%s`. -/
def Libc.percentS.strings : Libc.percentS.Strings where
  args str := cString str
  text_args _ := rfl
  vsnprintf_overflow _ _ _ long := (if_neg (Nat.not_le.2 long)).trans_lt (by decide)

end Squirrels
