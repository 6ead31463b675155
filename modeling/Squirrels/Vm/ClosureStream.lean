import Squirrels.Lib.ByteMemory
import Squirrels.Lib.Streams
import Squirrels.Vm.Object

/-!
# Closures on streams

`sq_writeclosure` writes the function of a closure with the functions nested in it, and
`sq_readclosure` makes a closure of what it reads. The stream is the caller's: it takes bytes until
there is no room left, and gives bytes until there are no more. Words are written as they are in
memory, least significant byte first.
-/

namespace Squirrels

namespace ClosureStream

open ByteMemory Streams

/-- Why a closure cannot be written or read. -/
inductive StreamError where
  /-- The call returns an error with this message. -/
  | raised (message : String)
  /-- The code goes on with a size no allocation can have, with a byte that is no `bool`, with a tag
  that has no name, or below the end of the native stack. -/
  | undefined
deriving DecidableEq, Repr

/-- `SQOuterVar`, with the four bytes of memory behind its type. -/
structure SQOuterVar where
  type : BitVec 32
  padding : BitVec 32
  src : SQObject
  name : SQObject
deriving DecidableEq, Repr

/-- `SQLocalVarInfo`. -/
structure SQLocalVarInfo where
  name : SQObject
  pos : BitVec 64
  startOp : BitVec 64
  endOp : BitVec 64
deriving DecidableEq, Repr

/-- `SQLineInfo`. -/
structure SQLineInfo where
  line : BitVec 64
  op : BitVec 64
deriving DecidableEq, Repr

/-- `SQInstruction`. -/
structure SQInstruction where
  arg1 : BitVec 32
  op : UInt8
  arg0 : UInt8
  arg2 : UInt8
  arg3 : UInt8
deriving DecidableEq, Repr

/-- An `SQFunctionProto` without the functions nested in it. -/
structure ProtoData where
  sourcename : SQObject
  name : SQObject
  literals : List SQObject
  parameters : List SQObject
  outervalues : List SQOuterVar
  localvarinfos : List SQLocalVarInfo
  lineinfos : List SQLineInfo
  defaultparams : List (BitVec 64)
  instructions : List SQInstruction
  stacksize : BitVec 64
  bgenerator : Bool
  varparams : BitVec 64
deriving DecidableEq, Repr

/-- `SQFunctionProto`. -/
inductive SQFunctionProto where
  | mk (data : ProtoData) (functions : List SQFunctionProto)

/-! ## Tags -/

/-- The flags of a type tag. -/
def typeFlags : SQObjectType → ℕ
  | .null => 0x01000000
  | .integer => 0x05000000
  | .float => 0x05000000
  | .bool => 0x01000000
  | .userPointer => 0
  | .ref .table => 0x0a000000
  | .ref .userData => 0x0a000000
  | .ref .inst => 0x0a000000
  | _ => 0x08000000

/-- The number of an `SQObjectType`. -/
def typeTag (t : SQObjectType) : ℕ := rawType t + typeFlags t

/-- Every type. -/
def allTypes : List SQObjectType :=
  [.null, .integer, .float, .bool, .userPointer, .string, .ref .table, .ref .array, .ref .userData,
    .ref .closure, .ref .nativeClosure, .ref .generator, .ref .thread, .ref .cls, .ref .inst,
    .ref .weakRef, .funcProto, .outer]

/-- `IdType2Name` of a number. -/
def tagName (tag : ℕ) : Option String :=
  (allTypes.find? fun t => rawType t = tag &&& 0x00ffffff).map idType2Name

/-- `SQ_CLOSURESTREAM_HEAD`. -/
def closurestreamHead : ℕ := 0x53514952

/-- `SQ_CLOSURESTREAM_PART`. -/
def closurestreamPart : ℕ := 0x50415254

/-- `SQ_CLOSURESTREAM_TAIL`. -/
def closurestreamTail : ℕ := 0x5441494c

/-- `SQ_BYTECODE_STREAM_TAG`. -/
def bytecodeStreamTag : ℕ := 0xfafa

/-- The message of `SafeWrite`. -/
def writeFailure : StreamError := .raised "io error (write function failure)"

/-- The message of `SafeRead`. -/
def readFailure : StreamError :=
  .raised "io error, read function failure, the origin stream could be corrupted/trucated"

/-- The message of `CheckTag`. -/
def invalidStream : StreamError := .raised "invalid or corrupted closure stream"

/-- The message of `sq_writeclosure` and `sq_readclosure` themselves. -/
def ioError : StreamError := .raised "io error"

/-- The message of `WriteObject` and `ReadObject`. -/
def cannotSerialize (name : String) : StreamError := .raised ("cannot serialize a " ++ name)

/-! ## Sizes -/

/-- The lengths of the vectors of a function. -/
structure FunctionCounts where
  nliterals : ℕ
  nparameters : ℕ
  noutervalues : ℕ
  nlocalvarinfos : ℕ
  nlineinfos : ℕ
  ndefaultparams : ℕ
  ninstructions : ℕ
  nfunctions : ℕ

/-- `_FUNC_SIZE`. -/
def FunctionCounts.funcSize (c : FunctionCounts) : ℕ :=
  224 + 8 * c.ninstructions + 16 * c.nliterals + 16 * c.nparameters + 16 * c.nfunctions +
    40 * c.noutervalues + 16 * c.nlineinfos + 40 * c.nlocalvarinfos + 8 * c.ndefaultparams

/-- What no allocation has the size of. -/
def sizeLimit : ℕ := 2 ^ 63

/-- The lengths of the vectors. -/
def ProtoData.counts (p : ProtoData) (nfunctions : ℕ) : FunctionCounts where
  nliterals := p.literals.length
  nparameters := p.parameters.length
  noutervalues := p.outervalues.length
  nlocalvarinfos := p.localvarinfos.length
  nlineinfos := p.lineinfos.length
  ndefaultparams := p.defaultparams.length
  ninstructions := p.instructions.length
  nfunctions := nfunctions

/-! ## Memory -/

/-- The bytes of a word of 64 bits. -/
def wordBytes (x : BitVec 64) : List UInt8 := toBytes 8 x.toNat

/-- The bytes of a word of 32 bits. -/
def halfBytes (x : BitVec 32) : List UInt8 := toBytes 4 x.toNat

/-- The bytes of an `SQLineInfo`. -/
def SQLineInfo.bytes (l : SQLineInfo) : List UInt8 := wordBytes l.line ++ wordBytes l.op

/-- The `SQLineInfo` of sixteen bytes. -/
def SQLineInfo.ofBytes (bytes : List UInt8) : SQLineInfo where
  line := BitVec.ofNat 64 (ByteMemory.ofBytes (bytes.take 8))
  op := BitVec.ofNat 64 (ByteMemory.ofBytes (bytes.drop 8))

/-- The bytes of an `SQInstruction`. -/
def SQInstruction.bytes (i : SQInstruction) : List UInt8 :=
  halfBytes i.arg1 ++ [i.op, i.arg0, i.arg2, i.arg3]

/-- The `SQInstruction` of eight bytes. -/
def SQInstruction.ofBytes (bytes : List UInt8) : SQInstruction where
  arg1 := BitVec.ofNat 32 (ByteMemory.ofBytes (bytes.take 4))
  op := bytes.getD 4 0
  arg0 := bytes.getD 5 0
  arg2 := bytes.getD 6 0
  arg3 := bytes.getD 7 0

/-- The word of eight bytes. -/
def wordOfBytes (bytes : List UInt8) : BitVec 64 := BitVec.ofNat 64 (ofBytes bytes)

/-! ## Writing -/

/-- A function that writes to the stream. -/
abbrev Write := Streams.Writer StreamError Unit

/-- `SafeWrite`. -/
def safeWrite (bytes : List UInt8) : Write := .put writeFailure bytes

/-- `WriteTag`. -/
def writeTag (tag : ℕ) : Write := safeWrite (toBytes 4 tag)

/-- `WriteObject`. -/
def writeObject (o : SQObject) : Write := do
  safeWrite (toBytes 4 (typeTag o.type))
  match o with
  | .string bytes => do
    safeWrite (toBytes 8 bytes.length)
    safeWrite bytes
  | .bool b => safeWrite (toBytes 8 b.toNat)
  | .integer n => safeWrite (wordBytes (BitVec.ofInt 64 n))
  | .float bits => safeWrite (halfBytes bits)
  | .null => pure ()
  | o => .fail (cannotSerialize (idType2Name o.type))

/-- The sizes that `SQFunctionProto::Save` writes. -/
def writeCounts (c : FunctionCounts) : Write := do
  safeWrite (toBytes 8 c.nliterals)
  safeWrite (toBytes 8 c.nparameters)
  safeWrite (toBytes 8 c.noutervalues)
  safeWrite (toBytes 8 c.nlocalvarinfos)
  safeWrite (toBytes 8 c.nlineinfos)
  safeWrite (toBytes 8 c.ndefaultparams)
  safeWrite (toBytes 8 c.ninstructions)
  safeWrite (toBytes 8 c.nfunctions)

/-- An outer value, as `SQFunctionProto::Save` writes it: eight bytes from its type of four on. -/
def writeOuter (v : SQOuterVar) : Write := do
  safeWrite (halfBytes v.type ++ halfBytes v.padding)
  writeObject v.src
  writeObject v.name

/-- A local variable, as `SQFunctionProto::Save` writes it. -/
def writeLocal (v : SQLocalVarInfo) : Write := do
  writeObject v.name
  safeWrite (wordBytes v.pos)
  safeWrite (wordBytes v.startOp)
  safeWrite (wordBytes v.endOp)

mutual

/-- `SQFunctionProto::Save`. -/
def save : SQFunctionProto → Write
  | .mk p functions => do
    writeTag closurestreamPart
    writeObject p.sourcename
    writeObject p.name
    writeTag closurestreamPart
    writeCounts (p.counts functions.length)
    writeTag closurestreamPart
    Writer.each writeObject p.literals
    writeTag closurestreamPart
    Writer.each writeObject p.parameters
    writeTag closurestreamPart
    Writer.each writeOuter p.outervalues
    writeTag closurestreamPart
    Writer.each writeLocal p.localvarinfos
    writeTag closurestreamPart
    safeWrite (p.lineinfos.flatMap SQLineInfo.bytes)
    writeTag closurestreamPart
    safeWrite (p.defaultparams.flatMap wordBytes)
    writeTag closurestreamPart
    safeWrite (p.instructions.flatMap SQInstruction.bytes)
    writeTag closurestreamPart
    saveAll functions
    safeWrite (wordBytes p.stacksize)
    safeWrite [if p.bgenerator then 1 else 0]
    safeWrite (wordBytes p.varparams)

/-- The nested functions, one after the other. -/
def saveAll : List SQFunctionProto → Write
  | [] => pure ()
  | f :: functions => do
    save f
    saveAll functions

end

/-- `SQClosure::Save`. -/
def saveClosure (f : SQFunctionProto) : Write := do
  writeTag closurestreamHead
  writeTag 1
  writeTag 8
  writeTag 4
  save f
  writeTag closurestreamTail

/-- `sq_writeclosure`, of a closure of the function. -/
def sqWriteclosure : SQFunctionProto → Write
  | .mk p functions =>
    if p.outervalues ≠ [] then
      .fail (.raised "a closure with free variables bound cannot be serialized")
    else do
      Writer.put ioError (toBytes 2 bytecodeStreamTag)
      saveClosure (.mk p functions)

/-! ## Reading -/

/-- A function that reads from the stream. -/
abbrev Read := Reader StreamError

/-- `SafeRead`. -/
def safeRead (size : ℕ) : Read (List UInt8) := .take readFailure size

/-- `CheckTag`. -/
def checkTag (tag : ℕ) : Read Unit := do
  let t ← safeRead 4
  if ofBytes t = tag then pure () else .fail invalidStream

/-- `SafeRead` of an `SQInteger`. -/
def readWord : Read (BitVec 64) := do
  let bytes ← safeRead 8
  pure (wordOfBytes bytes)

/-- The length and the bytes of a string. -/
def readString : Read SQObject := do
  let len ← readWord
  if len.toNat < sizeLimit then do
    let bytes ← safeRead len.toNat
    pure (.string bytes)
  else .fail .undefined

/-- The number of a `bool`. -/
def readBool : Read SQObject := do
  let i ← readWord
  if i = 0 then pure (.bool false)
  else if i = 1 then pure (.bool true)
  else .fail .undefined

/-- `ReadObject`. -/
def readObject : Read SQObject := do
  let t ← safeRead 4
  let tag := ofBytes t
  if tag = typeTag .string then readString
  else if tag = typeTag .integer then do
    let i ← readWord
    pure (.integer i.toInt)
  else if tag = typeTag .bool then readBool
  else if tag = typeTag .float then do
    let f ← safeRead 4
    pure (.float (BitVec.ofNat 32 (ofBytes f)))
  else if tag = typeTag .null then pure .null
  else
    match tagName tag with
    | some name => .fail (cannotSerialize name)
    | none => .fail .undefined

/-- The sizes that `SQFunctionProto::Load` reads. -/
def readCounts : Read FunctionCounts := do
  let nliterals ← readWord
  let nparameters ← readWord
  let noutervalues ← readWord
  let nlocalvarinfos ← readWord
  let nlineinfos ← readWord
  let ndefaultparams ← readWord
  let ninstructions ← readWord
  let nfunctions ← readWord
  pure {
    nliterals := nliterals.toNat
    nparameters := nparameters.toNat
    noutervalues := noutervalues.toNat
    nlocalvarinfos := nlocalvarinfos.toNat
    nlineinfos := nlineinfos.toNat
    ndefaultparams := ndefaultparams.toNat
    ninstructions := ninstructions.toNat
    nfunctions := nfunctions.toNat }

/-- `SQFunctionProto::Create`. -/
def create (c : FunctionCounts) : Read Unit :=
  if c.funcSize < sizeLimit then pure () else .fail .undefined

/-- An outer value, as `SQFunctionProto::Load` reads it. The assignment leaves the memory behind the
type as it is, which is taken to be zero here. -/
def readOuter : Read SQOuterVar := do
  let type ← safeRead 8
  let src ← readObject
  let name ← readObject
  pure { type := BitVec.ofNat 32 (ofBytes type), padding := 0, src := src, name := name }

/-- A local variable, as `SQFunctionProto::Load` reads it. -/
def readLocal : Read SQLocalVarInfo := do
  let name ← readObject
  let pos ← readWord
  let startOp ← readWord
  let endOp ← readWord
  pure { name := name, pos := pos, startOp := startOp, endOp := endOp }

/-- The values of consecutive records of a width. -/
def records {α : Type} (width : ℕ) (decode : List UInt8 → α) : ℕ → List UInt8 → List α
  | 0, _ => []
  | n + 1, bytes => decode (bytes.take width) :: records width decode n (bytes.drop width)

/-- One `SafeRead` of several records. -/
def readRecords {α : Type} (width : ℕ) (decode : List UInt8 → α) (n : ℕ) : Read (List α) := do
  let bytes ← safeRead (width * n)
  pure (records width decode n bytes)

/-- The byte of a `bool`. -/
def readFlag : Read Bool := do
  let bytes ← safeRead 1
  if bytes = [0] then pure false
  else if bytes = [1] then pure true
  else .fail .undefined

/-- `SQFunctionProto::Load`, when so many calls of it fit on the native stack. -/
def load : ℕ → Read SQFunctionProto
  | 0 => .fail .undefined
  | depth + 1 => do
    checkTag closurestreamPart
    let sourcename ← readObject
    let name ← readObject
    checkTag closurestreamPart
    let c ← readCounts
    create c
    checkTag closurestreamPart
    let literals ← Reader.many readObject c.nliterals
    checkTag closurestreamPart
    let parameters ← Reader.many readObject c.nparameters
    checkTag closurestreamPart
    let outervalues ← Reader.many readOuter c.noutervalues
    checkTag closurestreamPart
    let localvarinfos ← Reader.many readLocal c.nlocalvarinfos
    checkTag closurestreamPart
    let lineinfos ← readRecords 16 SQLineInfo.ofBytes c.nlineinfos
    checkTag closurestreamPart
    let defaultparams ← readRecords 8 wordOfBytes c.ndefaultparams
    checkTag closurestreamPart
    let instructions ← readRecords 8 SQInstruction.ofBytes c.ninstructions
    checkTag closurestreamPart
    let functions ← Reader.many (load depth) c.nfunctions
    let stacksize ← readWord
    let bgenerator ← readFlag
    let varparams ← readWord
    pure (.mk
      { sourcename := sourcename, name := name, literals := literals, parameters := parameters,
        outervalues := outervalues, localvarinfos := localvarinfos, lineinfos := lineinfos,
        defaultparams := defaultparams, instructions := instructions, stacksize := stacksize,
        bgenerator := bgenerator, varparams := varparams } functions)

/-- A closure that was read: its function, its free variables, and the values of its default
parameters, which no stream holds. -/
structure ReadClosure where
  function : SQFunctionProto
  outervalues : List SQObject
  defaultparams : List SQObject

/-- `SQClosure::Create`. -/
def closureOf : SQFunctionProto → ReadClosure
  | .mk p functions =>
    { function := .mk p functions
      outervalues := List.replicate p.outervalues.length .null
      defaultparams := List.replicate p.defaultparams.length .null }

/-- `SQClosure::Load`. -/
def loadClosure (depth : ℕ) : Read ReadClosure := do
  checkTag closurestreamHead
  checkTag 1
  checkTag 8
  checkTag 4
  let f ← load depth
  checkTag closurestreamTail
  pure (closureOf f)

/-- `sq_readclosure`. -/
def sqReadclosure (depth : ℕ) : Read ReadClosure := do
  let tag ← Reader.take ioError 2
  if ofBytes tag ≠ bytecodeStreamTag then .fail (.raised "invalid stream") else loadClosure depth

end ClosureStream

end Squirrels
