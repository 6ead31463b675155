import Squirrels.Vm.ClosureStream

/-!
# A closure that was written is read back

The bytes of a function with all functions nested in it give the function again, and no part of them
gives anything. A function is refused exactly when it holds an object that is no constant.
-/

namespace Squirrels

namespace ClosureStream

open ByteMemory Streams

/-! ## Functions -/

@[induction_eliminator]
theorem SQFunctionProto.induct {motive : SQFunctionProto → Prop}
    (mk : ∀ p functions, (∀ f ∈ functions, motive f) → motive (.mk p functions)) (f) :
    motive f := by
  refine @SQFunctionProto.rec motive (fun functions => ∀ f ∈ functions, motive f) mk ?_ ?_ f
  · intro f mem
    cases mem
  · intro f functions holds rest g mem
    rcases List.mem_cons.1 mem with rfl | mem
    · exact holds
    · exact rest g mem

/-- The object can be written. -/
def serializable : SQObject → Bool
  | .null => true
  | .integer _ => true
  | .float _ => true
  | .bool _ => true
  | .string _ => true
  | _ => false

/-- The object is one that memory can hold: an integer has 64 bits, and a string has a size. -/
def ObjectFits : SQObject → Prop
  | .integer n => -2 ^ 63 ≤ n ∧ n < 2 ^ 63
  | .string bytes => bytes.length < sizeLimit
  | _ => True

instance : DecidablePred ObjectFits
  | .integer _ => inferInstanceAs (Decidable (_ ∧ _))
  | .string _ => inferInstanceAs (Decidable (_ < _))
  | .null => .isTrue trivial
  | .float _ => .isTrue trivial
  | .bool _ => .isTrue trivial
  | .userPointer _ => .isTrue trivial
  | .ref _ _ => .isTrue trivial

/-- The objects of a function without those of nested ones, in the order in which they are
written. -/
def ProtoData.objects (p : ProtoData) : List SQObject :=
  [p.sourcename, p.name] ++ p.literals ++ p.parameters ++
    p.outervalues.flatMap (fun v => [v.src, v.name]) ++ p.localvarinfos.flatMap fun v => [v.name]

mutual

/-- The objects of a function. -/
def SQFunctionProto.objects : SQFunctionProto → List SQObject
  | .mk p functions => p.objects ++ objectsAll functions

/-- The objects of functions. -/
def objectsAll : List SQFunctionProto → List SQObject
  | [] => []
  | f :: functions => f.objects ++ objectsAll functions

end

mutual

/-- The function and those nested in it are as large as memory can hold them. -/
def SQFunctionProto.Allocated : SQFunctionProto → Prop
  | .mk p functions => (p.counts functions.length).funcSize < sizeLimit ∧ AllocatedAll functions

/-- Functions that memory can hold. -/
def AllocatedAll : List SQFunctionProto → Prop
  | [] => True
  | f :: functions => f.Allocated ∧ AllocatedAll functions

end

mutual

/-- How deep functions are nested. -/
def SQFunctionProto.nesting : SQFunctionProto → ℕ
  | .mk _ functions => nestingAll functions + 1

/-- The deepest nesting of functions. -/
def nestingAll : List SQFunctionProto → ℕ
  | [] => 0
  | f :: functions => max f.nesting (nestingAll functions)

end

/-- The outer value without the memory behind its type. -/
def SQOuterVar.unpadded (v : SQOuterVar) : SQOuterVar := { v with padding := 0 }

mutual

/-- The function as it is read: what lies behind the type of an outer value is not part of it. -/
def SQFunctionProto.unpadded : SQFunctionProto → SQFunctionProto
  | .mk p functions =>
    .mk { p with outervalues := p.outervalues.map SQOuterVar.unpadded } (unpaddedAll functions)

/-- The functions as they are read. -/
def unpaddedAll : List SQFunctionProto → List SQFunctionProto
  | [] => []
  | f :: functions => f.unpadded :: unpaddedAll functions

end

section Functions

variable {functions : List SQFunctionProto} {f : SQFunctionProto}

theorem objectsAll_eq : objectsAll functions = functions.flatMap SQFunctionProto.objects := by
  induction functions with
  | nil => rfl
  | cons f functions ih => rw [objectsAll, ih, List.flatMap_cons]

theorem allocatedAll_iff : AllocatedAll functions ↔ ∀ f ∈ functions, f.Allocated := by
  induction functions with
  | nil => exact iff_of_true trivial fun f mem => by cases mem
  | cons f functions ih => rw [AllocatedAll, ih, List.forall_mem_cons]

theorem nesting_le (mem : f ∈ functions) : f.nesting ≤ nestingAll functions := by
  induction functions with
  | nil => cases mem
  | cons g functions ih =>
    rw [nestingAll]
    rcases List.mem_cons.1 mem with rfl | mem
    · exact Nat.le_max_left _ _
    · exact (ih mem).trans (Nat.le_max_right _ _)

theorem unpaddedAll_eq : unpaddedAll functions = functions.map SQFunctionProto.unpadded := by
  induction functions with
  | nil => rfl
  | cons f functions ih => rw [unpaddedAll, ih, List.map_cons]

end Functions

/-! ## The format -/

/-- The bytes of an object. -/
def objectBytes (o : SQObject) : List UInt8 :=
  toBytes 4 (typeTag o.type) ++
    match o with
    | .string bytes => toBytes 8 bytes.length ++ bytes
    | .bool b => toBytes 8 b.toNat
    | .integer n => wordBytes (BitVec.ofInt 64 n)
    | .float bits => halfBytes bits
    | _ => []

/-- The bytes of the sizes. -/
def countsBytes (c : FunctionCounts) : List UInt8 :=
  toBytes 8 c.nliterals ++ (toBytes 8 c.nparameters ++ (toBytes 8 c.noutervalues ++
    (toBytes 8 c.nlocalvarinfos ++ (toBytes 8 c.nlineinfos ++ (toBytes 8 c.ndefaultparams ++
      (toBytes 8 c.ninstructions ++ toBytes 8 c.nfunctions))))))

/-- The bytes of an outer value. -/
def outerBytes (v : SQOuterVar) : List UInt8 :=
  (halfBytes v.type ++ halfBytes v.padding) ++ (objectBytes v.src ++ objectBytes v.name)

/-- The bytes of a local variable. -/
def localBytes (v : SQLocalVarInfo) : List UInt8 :=
  objectBytes v.name ++ (wordBytes v.pos ++ (wordBytes v.startOp ++ wordBytes v.endOp))

/-- The bytes of a tag between two parts. -/
def partBytes : List UInt8 := toBytes 4 closurestreamPart

/-- The bytes of the parts of a function in front of the nested ones. -/
def ProtoData.front (p : ProtoData) (nfunctions : ℕ) (rest : List UInt8) : List UInt8 :=
  partBytes ++ (objectBytes p.sourcename ++ (objectBytes p.name ++
    (partBytes ++ (countsBytes (p.counts nfunctions) ++
    (partBytes ++ (p.literals.flatMap objectBytes ++
    (partBytes ++ (p.parameters.flatMap objectBytes ++
    (partBytes ++ (p.outervalues.flatMap outerBytes ++
    (partBytes ++ (p.localvarinfos.flatMap localBytes ++
    (partBytes ++ (p.lineinfos.flatMap SQLineInfo.bytes ++
    (partBytes ++ (p.defaultparams.flatMap wordBytes ++
    (partBytes ++ (p.instructions.flatMap SQInstruction.bytes ++
    (partBytes ++ rest)))))))))))))))))))

/-- The bytes of the parts behind the nested functions. -/
def ProtoData.back (p : ProtoData) : List UInt8 :=
  wordBytes p.stacksize ++ ([if p.bgenerator then 1 else 0] ++ wordBytes p.varparams)

mutual

/-- The bytes of a function. -/
def functionBytes : SQFunctionProto → List UInt8
  | .mk p functions => p.front functions.length (functionsBytes functions ++ p.back)

/-- The bytes of functions, one after the other. -/
def functionsBytes : List SQFunctionProto → List UInt8
  | [] => []
  | f :: functions => functionBytes f ++ functionsBytes functions

end

/-- The bytes of a closure. -/
def closureBytes (f : SQFunctionProto) : List UInt8 :=
  toBytes 4 closurestreamHead ++ (toBytes 4 1 ++ (toBytes 4 8 ++ (toBytes 4 4 ++
    (functionBytes f ++ toBytes 4 closurestreamTail))))

/-- The bytes of a stream with a closure. -/
def streamBytes (f : SQFunctionProto) : List UInt8 :=
  toBytes 2 bytecodeStreamTag ++ closureBytes f

theorem functionsBytes_eq {functions : List SQFunctionProto} :
    functionsBytes functions = functions.flatMap functionBytes := by
  induction functions with
  | nil => rfl
  | cons f functions ih => rw [functionsBytes, ih, List.flatMap_cons]

theorem saveAll_eq {functions : List SQFunctionProto} :
    saveAll functions = Writer.each save functions := by
  induction functions with
  | nil => rfl
  | cons f functions ih =>
    rw [saveAll, ih]
    rfl

/-! ## Writing -/

/-- What is raised when the stream fails. -/
def IoError (e : StreamError) : Prop := e = writeFailure ∨ e = readFailure ∨ e = ioError

/-- The message for an object that cannot be written. -/
def refusalOf (o : SQObject) : StreamError := cannotSerialize (idType2Name o.type)

/-- How writing the objects ends: the first one that cannot be written is refused. -/
def refusal (os : List SQObject) : Except StreamError Unit :=
  match os.find? fun o => !serializable o with
  | none => .ok ()
  | some o => .error (refusalOf o)

/-- The program writes the bytes, unless one of the objects is refused. -/
def Stores (w : Write) (os : List SQObject) (bytes : List UInt8) : Prop :=
  ∃ written, Writes IoError w (refusal os) written ∧ (refusal os = .ok () → written = bytes)

section Writing

variable {w : Write} {k : Unit → Write} {os os' : List SQObject} {bytes bytes' : List UInt8}
  {α : Type}

theorem Stores.bind (first : Stores w os bytes) (second : Stores (k ()) os' bytes') :
    Stores (w >>= k) (os ++ os') (bytes ++ bytes') := by
  obtain ⟨written, writes, same⟩ := first
  obtain ⟨written', writes', same'⟩ := second
  unfold Stores refusal at *
  rw [List.find?_append]
  cases found : os.find? fun o => !serializable o with
  | none =>
    rw [found] at writes same
    rw [Option.none_or]
    exact ⟨written ++ written', writes.bind writes', fun ok => by rw [same rfl, same' ok]⟩
  | some o =>
    rw [found] at writes
    exact ⟨written, writes.bind_error, fun ok => by cases ok⟩

theorem Stores.congr (stores : Stores w os bytes) (objects : os = os') (written : bytes = bytes') :
    Stores w os' bytes' := by
  rw [← objects, ← written]
  exact stores

theorem stores_of_writes (writes : Writes IoError w (.ok ()) bytes) : Stores w [] bytes :=
  ⟨bytes, writes, fun _ => rfl⟩

theorem safeWrite_stores (bytes : List UInt8) : Stores (safeWrite bytes) [] bytes :=
  stores_of_writes (writes_put (.inl rfl) bytes)

theorem writeTag_stores (tag : ℕ) : Stores (writeTag tag) [] (toBytes 4 tag) :=
  safeWrite_stores _

theorem writeObject_stores (o : SQObject) : Stores (writeObject o) [o] (objectBytes o) := by
  unfold writeObject objectBytes
  refine (safeWrite_stores _).bind (?_ : Stores _ [o] _)
  cases o with
  | null => exact ⟨[], writes_pure (), fun _ => rfl⟩
  | integer n => exact safeWrite_stores _
  | float bits => exact safeWrite_stores _
  | bool b => exact safeWrite_stores _
  | string bytes => exact (safeWrite_stores _).bind (safeWrite_stores _)
  | userPointer p => exact ⟨[], writes_fail _, fun ok => by cases ok⟩
  | ref t r => exact ⟨[], writes_fail _, fun ok => by cases ok⟩

theorem each_stores {w : α → Write} {objects : α → List SQObject} {bytes : α → List UInt8}
    {as : List α} (each : ∀ a ∈ as, Stores (w a) (objects a) (bytes a)) :
    Stores (Writer.each w as) (as.flatMap objects) (as.flatMap bytes) := by
  induction as with
  | nil => exact stores_of_writes (writes_pure ())
  | cons a as ih =>
    exact (each a List.mem_cons_self).bind (ih fun a mem => each a (List.mem_cons_of_mem _ mem))

theorem writeCounts_stores (c : FunctionCounts) : Stores (writeCounts c) [] (countsBytes c) :=
  (safeWrite_stores _).bind <| (safeWrite_stores _).bind <| (safeWrite_stores _).bind <|
    (safeWrite_stores _).bind <| (safeWrite_stores _).bind <| (safeWrite_stores _).bind <|
    (safeWrite_stores _).bind (safeWrite_stores _)

theorem writeOuter_stores (v : SQOuterVar) :
    Stores (writeOuter v) [v.src, v.name] (outerBytes v) :=
  (safeWrite_stores _).bind <| (writeObject_stores v.src).bind (writeObject_stores v.name)

theorem writeLocal_stores (v : SQLocalVarInfo) : Stores (writeLocal v) [v.name] (localBytes v) :=
  (writeObject_stores v.name).bind <| (safeWrite_stores _).bind <| (safeWrite_stores _).bind
    (safeWrite_stores _)

/-- `SQFunctionProto::Save` writes the format, or refuses the first object that is no constant. -/
theorem save_stores (f : SQFunctionProto) : Stores (save f) f.objects (functionBytes f) := by
  induction f with
  | mk p functions ih =>
    have nested := each_stores ih
    rw [← saveAll_eq, ← functionsBytes_eq, ← objectsAll_eq] at nested
    unfold save
    refine Stores.congr ((writeTag_stores _).bind <| (writeObject_stores _).bind <|
      (writeObject_stores _).bind <| (writeTag_stores _).bind <| (writeCounts_stores _).bind <|
      (writeTag_stores _).bind <| (each_stores fun o _ => writeObject_stores o).bind <|
      (writeTag_stores _).bind <| (each_stores fun o _ => writeObject_stores o).bind <|
      (writeTag_stores _).bind <| (each_stores fun v _ => writeOuter_stores v).bind <|
      (writeTag_stores _).bind <| (each_stores fun v _ => writeLocal_stores v).bind <|
      (writeTag_stores _).bind <| (safeWrite_stores _).bind <|
      (writeTag_stores _).bind <| (safeWrite_stores _).bind <|
      (writeTag_stores _).bind <| (safeWrite_stores _).bind <|
      (writeTag_stores _).bind <| nested.bind <| (safeWrite_stores _).bind <|
      (safeWrite_stores _).bind (safeWrite_stores _)) ?_ rfl
    simp only [SQFunctionProto.objects, ProtoData.objects, List.nil_append, List.append_nil,
      List.append_assoc, List.flatMap_singleton', List.cons_append]

end Writing

/-! ## Reading -/

section Reading

variable {o : SQObject}

theorem safeRead_reads {bytes : List UInt8} {n : ℕ} (length : bytes.length = n) :
    Reads (safeRead n) bytes bytes := reads_take _ length

theorem checkTag_reads {tag : ℕ} (small : tag < 256 ^ 4) :
    Reads (checkTag tag) (toBytes 4 tag) () :=
  (safeRead_reads (length_toBytes 4 tag)).bind_pure (if_pos (ofBytes_toBytes small))

theorem readWord_reads (x : BitVec 64) : Reads readWord (wordBytes x) x := by
  refine (safeRead_reads (length_toBytes 8 x.toNat)).bind_pure ?_
  rw [wordOfBytes, ofBytes_toBytes x.isLt, BitVec.ofNat_toNat, BitVec.setWidth_eq]

theorem readWord_reads_nat {n : ℕ} (small : n < 2 ^ 64) :
    Reads readWord (toBytes 8 n) (BitVec.ofNat 64 n) := by
  have word := readWord_reads (BitVec.ofNat 64 n)
  rwa [wordBytes, BitVec.toNat_ofNat, Nat.mod_eq_of_lt small] at word

theorem halfBytes_reads (x : BitVec 32) :
    BitVec.ofNat 32 (ofBytes (halfBytes x)) = x := by
  rw [halfBytes, ofBytes_toBytes x.isLt, BitVec.ofNat_toNat, BitVec.setWidth_eq]

theorem typeTag_lt (t : SQObjectType) : typeTag t < 256 ^ 4 := by
  cases t with
  | ref t => cases t <;> decide
  | _ => decide

theorem typeTag_inj {t t' : SQObjectType} : typeTag t = typeTag t' ↔ t = t' := by
  have listed : ∀ t : SQObjectType, t ∈ allTypes := by
    intro t
    cases t with
    | ref t => cases t <;> decide
    | _ => decide
  have apart : ∀ t ∈ allTypes, ∀ t' ∈ allTypes, typeTag t = typeTag t' → t = t' := by decide
  exact ⟨apart t (listed t) t' (listed t'), congrArg typeTag⟩

theorem readString_reads {bytes : List UInt8} (fits : bytes.length < sizeLimit) :
    Reads readString (toBytes 8 bytes.length ++ bytes) (.string bytes) := by
  have small : bytes.length < 2 ^ 64 := fits.trans (by decide)
  have length : (BitVec.ofNat 64 bytes.length).toNat = bytes.length := by
    rw [BitVec.toNat_ofNat, Nat.mod_eq_of_lt small]
  refine (readWord_reads_nat small).bind ?_
  rw [if_pos (by rwa [length])]
  exact (safeRead_reads length.symm).bind_pure rfl

theorem readBool_reads (b : Bool) : Reads readBool (toBytes 8 b.toNat) (.bool b) := by
  have small : b.toNat < 2 ^ 64 := lt_of_lt_of_le (Bool.toNat_lt b) (by decide)
  refine (readWord_reads_nat small).bind_pure ?_
  cases b
  · exact if_pos rfl
  · exact (if_neg (by decide)).trans (if_pos rfl)

/-- A constant is read back. -/
theorem readObject_reads (is : serializable o = true) (fits : ObjectFits o) :
    Reads readObject (objectBytes o) o := by
  refine (safeRead_reads (length_toBytes 4 _)).bind ?_
  simp only [ofBytes_toBytes (typeTag_lt o.type), typeTag_inj]
  cases o with
  | null => exact reads_pure _
  | integer n =>
    refine (readWord_reads (BitVec.ofInt 64 n)).bind_pure ?_
    rw [BitVec.toInt_ofInt_eq_self (by decide) fits.1 fits.2]
  | float bits =>
    refine (safeRead_reads (length_toBytes 4 _)).bind_pure ?_
    exact congrArg (fun x => pure (SQObject.float x)) (halfBytes_reads bits)
  | bool b => exact readBool_reads b
  | string bytes => exact readString_reads fits
  | userPointer p => cases is
  | ref t r => cases is

theorem readCounts_reads {c : FunctionCounts} (allocated : c.funcSize < sizeLimit) :
    Reads readCounts (countsBytes c) c := by
  have small : c.nliterals < 2 ^ 64 ∧ c.nparameters < 2 ^ 64 ∧ c.noutervalues < 2 ^ 64 ∧
      c.nlocalvarinfos < 2 ^ 64 ∧ c.nlineinfos < 2 ^ 64 ∧ c.ndefaultparams < 2 ^ 64 ∧
      c.ninstructions < 2 ^ 64 ∧ c.nfunctions < 2 ^ 64 := by
    unfold FunctionCounts.funcSize sizeLimit at allocated
    omega
  obtain ⟨literals, parameters, outers, locals, lines, defaults, instructions, functions⟩ := small
  refine (readWord_reads_nat literals).bind <| (readWord_reads_nat parameters).bind <|
    (readWord_reads_nat outers).bind <| (readWord_reads_nat locals).bind <|
    (readWord_reads_nat lines).bind <| (readWord_reads_nat defaults).bind <|
    (readWord_reads_nat instructions).bind <| (readWord_reads_nat functions).bind_pure ?_
  simp only [BitVec.toNat_ofNat, Nat.mod_eq_of_lt literals, Nat.mod_eq_of_lt parameters,
    Nat.mod_eq_of_lt outers, Nat.mod_eq_of_lt locals, Nat.mod_eq_of_lt lines,
    Nat.mod_eq_of_lt defaults, Nat.mod_eq_of_lt instructions, Nat.mod_eq_of_lt functions]

theorem create_reads {c : FunctionCounts} (allocated : c.funcSize < sizeLimit) :
    Reads (create c) [] () := by
  rw [create, if_pos allocated]
  exact reads_pure ()

/-- The type of an outer value is read from its first four bytes. -/
theorem readOuter_reads {v : SQOuterVar} (src : serializable v.src = true)
    (srcFits : ObjectFits v.src) (name : serializable v.name = true)
    (nameFits : ObjectFits v.name) : Reads readOuter (outerBytes v) v.unpadded := by
  have length : (halfBytes v.type ++ halfBytes v.padding).length = 8 := by
    rw [List.length_append, halfBytes, halfBytes, length_toBytes, length_toBytes]
  refine (safeRead_reads length).bind <| (readObject_reads src srcFits).bind <|
    (readObject_reads name nameFits).bind_pure ?_
  have low : BitVec.ofNat 32 (ofBytes (halfBytes v.type ++ halfBytes v.padding)) = v.type := by
    rw [ofBytes_append, halfBytes, ofBytes_toBytes v.type.isLt, length_toBytes]
    apply BitVec.eq_of_toNat_eq
    rw [BitVec.toNat_ofNat]
    omega
  rw [low]
  rfl

theorem readLocal_reads {v : SQLocalVarInfo} (name : serializable v.name = true)
    (nameFits : ObjectFits v.name) : Reads readLocal (localBytes v) v :=
  (readObject_reads name nameFits).bind <| (readWord_reads _).bind <| (readWord_reads _).bind <|
    (readWord_reads _).bind_pure rfl

theorem readRecords_reads {α : Type} {width : ℕ} {encode : α → List UInt8}
    {decode : List UInt8 → α} (length : ∀ a, (encode a).length = width)
    (inverse : ∀ a, decode (encode a) = a) (as : List α) :
    Reads (readRecords width decode as.length) (as.flatMap encode) as := by
  have total : (as.flatMap encode).length = width * as.length := by
    induction as with
    | nil => rfl
    | cons a as ih => rw [List.flatMap_cons, List.length_append, length, ih, List.length_cons,
        Nat.mul_succ, Nat.add_comm]
  refine (safeRead_reads total).bind_pure (congrArg pure ?_)
  clear total
  induction as with
  | nil => rfl
  | cons a as ih =>
    rw [List.length_cons, records, List.flatMap_cons, ← length a, List.take_left, List.drop_left,
      inverse, length a, ih]

theorem wordOfBytes_wordBytes (x : BitVec 64) : wordOfBytes (wordBytes x) = x := by
  rw [wordOfBytes, wordBytes, ofBytes_toBytes x.isLt, BitVec.ofNat_toNat, BitVec.setWidth_eq]

theorem length_wordBytes (x : BitVec 64) : (wordBytes x).length = 8 := length_toBytes 8 _

theorem length_lineInfo (l : SQLineInfo) : l.bytes.length = 16 := by
  rw [SQLineInfo.bytes, List.length_append, length_wordBytes, length_wordBytes]

theorem length_instruction (i : SQInstruction) : i.bytes.length = 8 := by
  rw [SQInstruction.bytes, List.length_append, halfBytes, length_toBytes]
  rfl

theorem lineInfo_ofBytes (l : SQLineInfo) : SQLineInfo.ofBytes l.bytes = l := by
  have line := wordOfBytes_wordBytes l.line
  have op := wordOfBytes_wordBytes l.op
  unfold wordOfBytes at line op
  unfold SQLineInfo.ofBytes SQLineInfo.bytes
  rw [← length_wordBytes l.line, List.take_left, List.drop_left, line, op]

theorem instruction_ofBytes (i : SQInstruction) : SQInstruction.ofBytes i.bytes = i := by
  have arg1 := halfBytes_reads i.arg1
  have length : (halfBytes i.arg1).length = 4 := length_toBytes 4 _
  have taken : i.bytes.take 4 = halfBytes i.arg1 := by
    rw [SQInstruction.bytes, ← length, List.take_left]
  have rest : ∀ k, i.bytes.getD (4 + k) 0 = [i.op, i.arg0, i.arg2, i.arg3].getD k 0 := fun k => by
    rw [SQInstruction.bytes, List.getD_eq_getElem?_getD, List.getElem?_append_right (by omega),
      length, Nat.add_sub_cancel_left, List.getD_eq_getElem?_getD]
  unfold SQInstruction.ofBytes
  rw [taken, arg1, rest 0, rest 1, rest 2, rest 3]
  rfl

theorem readFlag_reads (b : Bool) : Reads readFlag [if b then 1 else 0] b := by
  refine (safeRead_reads (n := 1) rfl).bind_pure ?_
  cases b
  · exact if_pos rfl
  · exact (if_neg (by decide)).trans (if_pos rfl)

/-- The objects are constants that memory can hold. -/
def Constants (os : List SQObject) : Prop := ∀ o ∈ os, serializable o = true ∧ ObjectFits o

theorem Constants.left {os os' : List SQObject} (all : Constants (os ++ os')) : Constants os :=
  fun o mem => all o (List.mem_append_left _ mem)

theorem Constants.right {os os' : List SQObject} (all : Constants (os ++ os')) : Constants os' :=
  fun o mem => all o (List.mem_append_right _ mem)

theorem readObjects_reads {os : List SQObject} (all : Constants os) :
    Reads (Reader.many readObject os.length) (os.flatMap objectBytes) os := by
  have read := reads_many fun o mem => readObject_reads (all o mem).1 (all o mem).2
  rwa [List.map_id'] at read

theorem readOuters_reads {vs : List SQOuterVar}
    (all : Constants (vs.flatMap fun v => [v.src, v.name])) :
    Reads (Reader.many readOuter vs.length) (vs.flatMap outerBytes)
      (vs.map SQOuterVar.unpadded) := by
  refine reads_many fun v mem => ?_
  obtain ⟨src, srcFits⟩ := all v.src (List.mem_flatMap.2 ⟨v, mem, List.mem_cons_self⟩)
  obtain ⟨name, nameFits⟩ := all v.name
    (List.mem_flatMap.2 ⟨v, mem, List.mem_cons_of_mem _ List.mem_cons_self⟩)
  exact readOuter_reads src srcFits name nameFits

theorem readLocals_reads {vs : List SQLocalVarInfo}
    (all : Constants (vs.flatMap fun v => [v.name])) :
    Reads (Reader.many readLocal vs.length) (vs.flatMap localBytes) vs := by
  have read : Reads (Reader.many readLocal vs.length) (vs.flatMap localBytes) (vs.map id) := by
    refine reads_many fun v mem => ?_
    obtain ⟨name, nameFits⟩ := all v.name (List.mem_flatMap.2 ⟨v, mem, List.mem_cons_self⟩)
    exact readLocal_reads name nameFits
  rwa [List.map_id] at read

/-- `SQFunctionProto::Load` makes the function of the bytes that `Save` wrote. -/
theorem load_reads {f : SQFunctionProto} (all : Constants f.objects) (allocated : f.Allocated)
    {depth : ℕ} (deep : f.nesting ≤ depth) :
    Reads (load depth) (functionBytes f) f.unpadded := by
  induction f generalizing depth with
  | mk p functions ih =>
    rw [SQFunctionProto.nesting] at deep
    obtain ⟨depth, rfl⟩ : ∃ d, depth = d + 1 := ⟨depth - 1, by omega⟩
    rw [SQFunctionProto.objects, objectsAll_eq] at all
    rw [SQFunctionProto.Allocated, allocatedAll_iff] at allocated
    have own := all.left
    unfold ProtoData.objects at own
    have nested : Reads (Reader.many (load depth) functions.length) (functionsBytes functions)
        (unpaddedAll functions) := by
      rw [functionsBytes_eq, unpaddedAll_eq]
      refine reads_many fun f mem => ih f mem (fun o is => ?_) (allocated.2 f mem)
        ((nesting_le mem).trans (by omega))
      exact all.right o (List.mem_flatMap.2 ⟨f, mem, is⟩)
    have part : Reads (checkTag closurestreamPart) partBytes () := checkTag_reads (by decide)
    have source := own.left.left.left.left p.sourcename List.mem_cons_self
    have name := own.left.left.left.left p.name (List.mem_cons_of_mem _ List.mem_cons_self)
    unfold load
    refine part.bind <| (readObject_reads source.1 source.2).bind <|
      (readObject_reads name.1 name.2).bind <|
      part.bind <| (readCounts_reads allocated.1).bind <| (create_reads allocated.1).bind <|
      part.bind <| (readObjects_reads own.left.left.left.right).bind <|
      part.bind <| (readObjects_reads own.left.left.right).bind <|
      part.bind <| (readOuters_reads own.left.right).bind <|
      part.bind <| (readLocals_reads own.right).bind <|
      part.bind <| (readRecords_reads length_lineInfo lineInfo_ofBytes p.lineinfos).bind <|
      part.bind <|
      (readRecords_reads length_wordBytes wordOfBytes_wordBytes p.defaultparams).bind <|
      part.bind <| (readRecords_reads length_instruction instruction_ofBytes p.instructions).bind <|
      part.bind <| nested.bind <| (readWord_reads p.stacksize).bind <|
      (readFlag_reads p.bgenerator).bind <| (readWord_reads p.varparams).bind_pure rfl

theorem sqReadclosure_reads {f : SQFunctionProto} (all : Constants f.objects)
    (allocated : f.Allocated) {depth : ℕ} (deep : f.nesting ≤ depth) :
    Reads (sqReadclosure depth) (streamBytes f) (closureOf f.unpadded) := by
  have tag {t : ℕ} (small : t < 256 ^ 4) : Reads (checkTag t) (toBytes 4 t) () :=
    checkTag_reads small
  refine (reads_take ioError (length_toBytes 2 _)).bind ?_
  rw [if_neg (by decide)]
  exact (tag (by decide)).bind <| (tag (by decide)).bind <| (tag (by decide)).bind <|
    (tag (by decide)).bind <| (load_reads all allocated deep).bind <|
    (tag (by decide)).bind_pure rfl

end Reading

/-! ## Streams that break off -/

section Local

theorem safeRead_local (n : ℕ) : Local IoError (safeRead n) := local_take (.inr (.inl rfl)) n

theorem checkTag_local (tag : ℕ) : Local IoError (checkTag tag) :=
  (safeRead_local 4).bind fun _ => local_ite (fun _ => local_pure _) fun _ => local_fail _

theorem readWord_local : Local IoError readWord := (safeRead_local 8).bind fun _ => local_pure _

theorem readString_local : Local IoError readString :=
  readWord_local.bind fun _ => local_ite
    (fun _ => (safeRead_local _).bind fun _ => local_pure _) fun _ => local_fail _

theorem readBool_local : Local IoError readBool :=
  readWord_local.bind fun _ => local_ite (fun _ => local_pure _) fun _ =>
    local_ite (fun _ => local_pure _) fun _ => local_fail _

theorem readObject_local : Local IoError readObject := by
  refine (safeRead_local 4).bind fun t => local_ite (fun _ => readString_local) fun _ =>
    local_ite (fun _ => readWord_local.bind fun _ => local_pure _) fun _ =>
    local_ite (fun _ => readBool_local) fun _ =>
    local_ite (fun _ => (safeRead_local 4).bind fun _ => local_pure _) fun _ =>
    local_ite (fun _ => local_pure _) fun _ => ?_
  cases tagName (ofBytes t) with
  | some name => exact local_fail _
  | none => exact local_fail _

theorem readCounts_local : Local IoError readCounts :=
  readWord_local.bind fun _ => readWord_local.bind fun _ => readWord_local.bind fun _ =>
    readWord_local.bind fun _ => readWord_local.bind fun _ => readWord_local.bind fun _ =>
    readWord_local.bind fun _ => readWord_local.bind fun _ => local_pure _

theorem create_local (c : FunctionCounts) : Local IoError (create c) :=
  local_ite (fun _ => local_pure _) fun _ => local_fail _

theorem readOuter_local : Local IoError readOuter :=
  (safeRead_local 8).bind fun _ => readObject_local.bind fun _ => readObject_local.bind fun _ =>
    local_pure _

theorem readLocal_local : Local IoError readLocal :=
  readObject_local.bind fun _ => readWord_local.bind fun _ => readWord_local.bind fun _ =>
    readWord_local.bind fun _ => local_pure _

theorem readRecords_local {α : Type} (width : ℕ) (decode : List UInt8 → α) (n : ℕ) :
    Local IoError (readRecords width decode n) := (safeRead_local _).bind fun _ => local_pure _

theorem readFlag_local : Local IoError readFlag :=
  (safeRead_local 1).bind fun _ => local_ite (fun _ => local_pure _) fun _ =>
    local_ite (fun _ => local_pure _) fun _ => local_fail _

theorem load_local (depth : ℕ) : Local IoError (load depth) := by
  induction depth with
  | zero => exact local_fail _
  | succ depth ih =>
    have part := checkTag_local closurestreamPart
    exact part.bind fun _ => readObject_local.bind fun _ => readObject_local.bind fun _ =>
      part.bind fun _ => readCounts_local.bind fun c => (create_local c).bind fun _ =>
      part.bind fun _ => (readObject_local.many _).bind fun _ =>
      part.bind fun _ => (readObject_local.many _).bind fun _ =>
      part.bind fun _ => (readOuter_local.many _).bind fun _ =>
      part.bind fun _ => (readLocal_local.many _).bind fun _ =>
      part.bind fun _ => (readRecords_local _ _ _).bind fun _ =>
      part.bind fun _ => (readRecords_local _ _ _).bind fun _ =>
      part.bind fun _ => (readRecords_local _ _ _).bind fun _ =>
      part.bind fun _ => (ih.many _).bind fun _ => readWord_local.bind fun _ =>
      readFlag_local.bind fun _ => readWord_local.bind fun _ => local_pure _

theorem sqReadclosure_local (depth : ℕ) : Local IoError (sqReadclosure depth) := by
  refine (local_take (.inr (.inr rfl)) 2).bind fun _ =>
    local_ite (fun _ => local_fail _) fun _ => ?_
  exact (checkTag_local _).bind fun _ => (checkTag_local _).bind fun _ =>
    (checkTag_local _).bind fun _ => (checkTag_local _).bind fun _ => (load_local depth).bind
    fun _ => (checkTag_local _).bind fun _ => local_pure _

end Local

/-! ## Whole streams -/

variable {p : ProtoData} {functions : List SQFunctionProto} {f : SQFunctionProto}

/-- `sq_writeclosure` writes the stream of a closure without free variables, or refuses the first of
its objects that is no constant. -/
theorem sqWriteclosure_stores (free : p.outervalues = []) :
    Stores (sqWriteclosure (.mk p functions)) (SQFunctionProto.mk p functions).objects
      (streamBytes (.mk p functions)) := by
  rw [sqWriteclosure, if_neg fun bound => bound free]
  have tag : Stores (Writer.put ioError (toBytes 2 bytecodeStreamTag)) [] _ :=
    stores_of_writes (writes_put (.inr (.inr rfl)) _)
  refine Stores.congr (tag.bind <| (writeTag_stores _).bind <| (writeTag_stores _).bind <|
    (writeTag_stores _).bind <| (writeTag_stores _).bind <| (save_stores _).bind
    (writeTag_stores _)) ?_ rfl
  simp only [List.nil_append, List.append_nil]

/-- A closure whose objects are constants is written to a device with enough room, and whatever
follows it, `sq_readclosure` reads the same function. On a device with less room the call fails, and
so does reading what is there. -/
theorem closure_round_trip (free : p.outervalues = [])
    (all : Constants (SQFunctionProto.mk p functions).objects)
    (allocated : (SQFunctionProto.mk p functions).Allocated) {depth : ℕ}
    (deep : (SQFunctionProto.mk p functions).nesting ≤ depth) (room : ℕ) :
    ((streamBytes (.mk p functions)).length ≤ room → ∃ written,
      (sqWriteclosure (.mk p functions)).run room = (.ok (), written) ∧
      ∀ rest, (sqReadclosure depth).run (written ++ rest) =
        .ok (closureOf (SQFunctionProto.mk p functions).unpadded, rest)) ∧
    (room < (streamBytes (.mk p functions)).length → ∃ written e e',
      (sqWriteclosure (.mk p functions)).run room = (.error e, written) ∧ IoError e ∧
      (sqReadclosure depth).run written = .error e' ∧ IoError e') := by
  obtain ⟨written, writes, same⟩ : Stores (sqWriteclosure (.mk p functions)) _ _ :=
    sqWriteclosure_stores free
  have accepted : refusal (SQFunctionProto.mk p functions).objects = .ok () := by
    unfold refusal
    rw [List.find?_eq_none.2 fun o mem => by simp [(all o mem).1]]
  rw [accepted, same accepted] at writes
  have reads := sqReadclosure_reads all allocated deep
  obtain ⟨fits, stops⟩ := writes room
  refine ⟨fun le => ⟨_, fits le, reads⟩, fun lt => ?_⟩
  obtain ⟨e, isIo, ran⟩ := stops lt
  have broken : (streamBytes (.mk p functions)).drop room ≠ [] := fun nothing => by
    have := List.drop_eq_nil_iff.1 nothing
    omega
  obtain ⟨e', failed, isIo'⟩ := (sqReadclosure_local depth).truncated reads
    (List.take_append_drop room _).symm broken
  exact ⟨_, e, e', ran, isIo, failed, isIo'⟩

/-- `function() { return i }` -/
def innerFunction : SQFunctionProto :=
  .mk
    { sourcename := .string (ascii "counter.nut")
      name := .null
      literals := []
      parameters := [.string (ascii "this")]
      outervalues := [⟨0, 0xcdcdcdcd, .integer 1, .string (ascii "i")⟩]
      localvarinfos := [⟨.string (ascii "this"), 0, 0, 1⟩]
      lineinfos := [⟨1, 0⟩]
      defaultparams := []
      instructions := [⟨0, 0x3a, 1, 0, 0⟩, ⟨1, 0x17, 1, 0, 0⟩]
      stacksize := 2
      bgenerator := false
      varparams := 0 } []

/-- `local i = -1; return function() { return i }` -/
def outerData : ProtoData where
  sourcename := .string (ascii "counter.nut")
  name := .string (ascii "main")
  literals := [.string (ascii "x"), .float 0x3f800000#32, .bool true, .integer (-1)]
  parameters := [.string (ascii "this"), .string (ascii "vargv")]
  outervalues := []
  localvarinfos := [⟨.string (ascii "i"), 2, 1, 3⟩]
  lineinfos := [⟨1, 0⟩, ⟨2, 3⟩]
  defaultparams := [1]
  instructions := [⟨0xffffffff#32, 0x02, 2, 0, 0⟩, ⟨0, 0x30, 3, 0, 0⟩]
  stacksize := 4
  bgenerator := false
  varparams := 1

/-- A device with room for the whole stream, and one for its first nine bytes. -/
theorem closure_round_trip_counter :
    (∃ written, (sqWriteclosure (.mk outerData [innerFunction])).run 1000 = (.ok (), written) ∧
      ∀ rest, (sqReadclosure 2).run (written ++ rest) =
        .ok (closureOf (SQFunctionProto.mk outerData [innerFunction]).unpadded, rest)) ∧
    (sqWriteclosure (.mk outerData [innerFunction])).run 9 =
      (.error writeFailure, [0xfa, 0xfa, 0x52, 0x49, 0x51, 0x53, 1, 0, 0]) ∧
    ∃ written e e',
      (sqWriteclosure (.mk outerData [innerFunction])).run 9 = (.error e, written) ∧ IoError e ∧
      (sqReadclosure 2).run written = .error e' ∧ IoError e' := by
  have trip := @closure_round_trip outerData [innerFunction] rfl (by unfold Constants; decide)
    ⟨by decide, ⟨by decide, trivial⟩, trivial⟩ 2 (by decide)
  exact ⟨(trip 1000).1 (by decide +kernel), rfl, (trip 9).2 (by decide +kernel)⟩

end ClosureStream

end Squirrels
