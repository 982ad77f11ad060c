/-
# Reading modules

A reader takes what it reads from the front of some bytes and returns the rest with it, or nothing
where that is not there. A module is read in two steps: first the bytes are cut into sections, then
each section is read and has to be used up by what it holds.

Key definitions:
* `Read`, the type of a reader, with `readVector` and `readBlob`;
* `Op.read`, one item of flat code;
* `Module.ofBytes?`, the module that some bytes keep.
-/
import GuestCall.Wasm.Module

namespace GuestCall.Wasm

open Leb128

/-- What is read, with the bytes after it. -/
abbrev Read (α : Type) : Type := List UInt8 → Option (α × List UInt8)

/-- A number of 32 bits without a sign. -/
def readWord : Read Nat := readUnsigned 32

/-- What a reader reads from bytes that it uses up. -/
def readAll? {α : Type} (read : Read α) (bytes : List UInt8) : Option α :=
  match read bytes with
  | some (x, []) => some x
  | _ => none

/-- So many items. -/
def readMany {α : Type} (read : Read α) : Nat → Read (List α)
  | 0, bytes => some ([], bytes)
  | count + 1, bytes =>
    match read bytes with
    | none => none
    | some (x, rest) =>
      match readMany read count rest with
      | none => none
      | some (xs, rest) => some (x :: xs, rest)

/-- Items with their count in front, of which there may be at most `limit`. -/
def readVector {α : Type} (limit : Nat) (read : Read α) : Read (List α) := fun bytes =>
  match readWord bytes with
  | none => none
  | some (count, rest) => if count ≤ limit then readMany read count rest else none

/-- Bytes with their count in front. -/
def readBlob : Read (List UInt8) := fun bytes =>
  match readWord bytes with
  | none => none
  | some (count, rest) =>
    if count ≤ rest.length then some (rest.take count, rest.drop count) else none

/-- The most items that a section may have. -/
def itemLimit : Nat := 1000000

/-- The most operands and the most results of a function. -/
def arityLimit : Nat := 1000

/-- The most bytes of a name. -/
def nameLimit : Nat := 100000

/-- A name with the count of its bytes in front. -/
def readName : Read String := fun bytes =>
  match readBlob bytes with
  | none => none
  | some (name, rest) =>
    if name.length ≤ nameLimit then
      match String.fromUTF8? name.toByteArray with
      | some s => some (s, rest)
      | none => none
    else none

/-- One byte that a table gives a meaning. -/
def readCode {α : Type} (meaning? : UInt8 → Option α) : Read α
  | [] => none
  | b :: rest => (meaning? b).map fun x => (x, rest)

/-- The reference type of a byte. -/
def RefType.ofCode? (b : UInt8) : Option RefType :=
  if b = 0x70 then some .funcRef else if b = 0x6F then some .externRef else none

/-- The value type of a byte. -/
def ValType.ofCode? (b : UInt8) : Option ValType :=
  if b = 0x7F then some (.num .i32)
  else if b = 0x7E then some (.num .i64)
  else if b = 0x7D then some (.num .f32)
  else if b = 0x7C then some (.num .f64)
  else (RefType.ofCode? b).map .ref

/-- A value type. -/
def ValType.read : Read ValType := readCode ValType.ofCode?

/-- A function type. -/
def FuncType.read : Read FuncType
  | [] => none
  | b :: bytes =>
    if b = 0x60 then
      match readVector arityLimit ValType.read bytes with
      | none => none
      | some (params, rest) =>
        match readVector arityLimit ValType.read rest with
        | none => none
        | some (results, rest) => some (⟨params, results⟩, rest)
    else none

/-- A block type. A single byte between `0x40` and `0x7F` is not a place in the list of types. -/
def BlockType.read : Read BlockType
  | [] => none
  | b :: rest =>
    if b = 0x40 then some (.empty, rest)
    else if 0x40 < b ∧ b < 0x80 then (ValType.ofCode? b).map fun type => (.value type, rest)
    else
      match readSigned 33 (b :: rest) with
      | none => none
      | some (i, rest) => if 0 ≤ i then some (.index i.toNat, rest) else none

/-- Four bytes as a word. -/
def read32 : Read UInt32
  | a :: b :: c :: d :: rest => some (LittleEndian.get32 fun i => [a, b, c, d].getD i 0, rest)
  | _ => none

/-- Eight bytes as a word. -/
def read64 : Read UInt64
  | a :: b :: c :: d :: e :: f :: g :: h :: rest =>
    some (LittleEndian.get64 fun i => [a, b, c, d, e, f, g, h].getD i 0, rest)
  | _ => none

/-- The operators on numbers. -/
def NumOp.all : List NumOp :=
  [.i32Eqz, .i32Eq, .i32Ne, .i32LtU, .i32GtU, .i32GeU, .i32Popcnt, .i32Add, .i32Sub, .i32Mul,
    .i32DivS, .i32And, .i32Shl, .i32ShrU, .i64Ne, .i64LtS, .i64LtU, .i64Add, .i64DivU, .i64RemU,
    .i32WrapI64, .f64Mul]

/-- The operator of a byte. -/
def NumOp.ofCode? (b : UInt8) : Option NumOp := all.find? (·.code == b)

/-- The load of a byte. -/
def LoadOp.ofCode? (b : UInt8) : Option LoadOp :=
  [LoadOp.i32, .i64, .f64, .i32Byte].find? (·.code == b)

/-- The store of a byte. -/
def StoreOp.ofCode? (b : UInt8) : Option StoreOp :=
  [StoreOp.i32, .i64, .f64, .i32Byte].find? (·.code == b)

/-- Where an access goes. -/
def MemArg.read : Read MemArg := fun bytes =>
  match readWord bytes with
  | none => none
  | some (flags, rest) =>
    if flags < 64 then
      match readUnsigned 64 rest with
      | none => none
      | some (offset, rest) => some (⟨offset, flags, 0⟩, rest)
    else if flags < 128 then
      match readWord rest with
      | none => none
      | some (memory, rest) =>
        match readUnsigned 64 rest with
        | none => none
        | some (offset, rest) => some (⟨offset, flags - 64, memory⟩, rest)
    else none

/-- An instruction with one number. -/
def readIndexed (make : Nat → Plain) : Read Plain := fun bytes =>
  (readWord bytes).map fun (i, rest) => (make i, rest)

/-- A constant after its first byte, by the type that the byte says. -/
def readConst (type : CoreType) : Read CoreValue := fun bytes =>
  match type with
  | .i32 => (readSigned 32 bytes).map fun (n, rest) => (.i32 (Int32.ofInt n).toUInt32, rest)
  | .i64 => (readSigned 64 bytes).map fun (n, rest) => (.i64 (Int64.ofInt n).toUInt64, rest)
  | .f32 => (read32 bytes).map fun (bits, rest) => (.f32 ⟨bits⟩, rest)
  | .f64 => (read64 bytes).map fun (bits, rest) => (.f64 ⟨bits⟩, rest)

/-- The type of the constant that a byte starts. -/
def constType? (b : UInt8) : Option CoreType :=
  if b = 0x41 then some .i32
  else if b = 0x42 then some .i64
  else if b = 0x43 then some .f32
  else if b = 0x44 then some .f64
  else none

/-- The instruction of a byte that stands alone. -/
def Plain.ofCode? (b : UInt8) : Option Plain :=
  if b = 0x00 then some .unreachable
  else if b = 0x01 then some .nop
  else if b = 0x0F then some .ret
  else if b = 0x1A then some .drop
  else if b = 0x1B then some .select
  else (NumOp.ofCode? b).map .num

/-- The instruction of a byte that has one number after it. -/
def Plain.indexed? (b : UInt8) : Option (Nat → Plain) :=
  if b = 0x0C then some .br
  else if b = 0x0D then some .brIf
  else if b = 0x10 then some .call
  else if b = 0x20 then some .localGet
  else if b = 0x21 then some .localSet
  else if b = 0x22 then some .localTee
  else if b = 0x23 then some .globalGet
  else if b = 0x24 then some .globalSet
  else if b = 0x3F then some .memorySize
  else if b = 0x40 then some .memoryGrow
  else none

/-- The instruction of a byte that has the place of an access after it. -/
def Plain.access? (b : UInt8) : Option (MemArg → Plain) :=
  match LoadOp.ofCode? b with
  | some op => some (.load op)
  | none => (StoreOp.ofCode? b).map .store

/-- An instruction that is no block, after its first byte. -/
def Plain.readAfter (b : UInt8) : Read Plain := fun bytes =>
  match Plain.ofCode? b with
  | some p => some (p, bytes)
  | none =>
    match Plain.indexed? b with
    | some make => readIndexed make bytes
    | none =>
      match Plain.access? b with
      | some make => (MemArg.read bytes).map fun (arg, rest) => (make arg, rest)
      | none =>
        match constType? b with
        | some type => (readConst type bytes).map fun (v, rest) => (.const v, rest)
        | none =>
          if b = 0xD0 then
            (readCode RefType.ofCode? bytes).map fun (type, rest) => (.refNull type, rest)
          else if b = 0xFC then
            match readWord bytes with
            | some (10, rest) =>
              match readWord rest with
              | none => none
              | some (target, rest) => readIndexed (.memoryCopy target) rest
            | _ => none
          else none

/-- One item of flat code. -/
def Op.read : Read Op
  | [] => none
  | b :: rest =>
    if b = 0x02 then (BlockType.read rest).map fun (type, rest) => (.block type, rest)
    else if b = 0x03 then (BlockType.read rest).map fun (type, rest) => (.loop type, rest)
    else if b = 0x04 then (BlockType.read rest).map fun (type, rest) => (.cond type, rest)
    else if b = 0x05 then some (.otherwise, rest)
    else if b = 0x0B then some (.close, rest)
    else (Plain.readAfter b rest).map fun (p, rest) => (.plain p, rest)

/-- Items up to the end of the bytes; `fuel` bounds their count. -/
def readToEnd? {α : Type} (read : Read α) : Nat → List UInt8 → Option (List α)
  | _, [] => some []
  | 0, _ :: _ => none
  | fuel + 1, b :: bytes =>
    match read (b :: bytes) with
    | none => none
    | some (x, rest) => (readToEnd? read fuel rest).map fun xs => x :: xs

/-- A group of locals. -/
def readLocals : Read (Nat × ValType) := fun bytes =>
  match readWord bytes with
  | none => none
  | some (count, rest) => (ValType.read rest).map fun (type, rest) => ((count, type), rest)

/-- A function body without its count, which it uses up. -/
def Body.ofInner? (bytes : List UInt8) : Option Body :=
  match readVector itemLimit readLocals bytes with
  | none => none
  | some (groups, rest) => (readToEnd? Op.read rest.length rest).map fun ops => ⟨groups, ops⟩

/-- A function body. -/
def Body.read : Read Body := fun bytes =>
  match readBlob bytes with
  | none => none
  | some (inner, rest) => (Body.ofInner? inner).map fun body => (body, rest)

/-- Limits. -/
def Limits.read : Read Limits
  | [] => none
  | flag :: bytes =>
    match readWord bytes with
    | none => none
    | some (min, rest) =>
      if flag = 0 then some (⟨min, none⟩, rest)
      else if flag = 1 then
        (readWord rest).map fun (max, rest) => (⟨min, some max⟩, rest)
      else none

/-- The meaning of the byte that says whether code may set a global. -/
def mutability? (b : UInt8) : Option Bool :=
  if b = 0 then some false else if b = 1 then some true else none

/-- A global type. -/
def GlobalType.read : Read GlobalType := fun bytes =>
  match ValType.read bytes with
  | none => none
  | some (type, rest) => (readCode mutability? rest).map fun (m, rest) => (⟨type, m⟩, rest)

/-- The byte that closes a constant expression. -/
def readClosed {α : Type} (read : Read α) : Read α := fun bytes =>
  match read bytes with
  | some (x, 0x0B :: rest) => some (x, rest)
  | _ => none

/-- A constant expression. -/
def ConstExpr.read : Read ConstExpr
  | [] => none
  | b :: bytes =>
    match constType? b with
    | some type =>
      (readClosed (readConst type) bytes).map fun (v, rest) => (.value v, rest)
    | none =>
      if b = 0xD0 then
        (readClosed (readCode RefType.ofCode?) bytes).map fun (type, rest) => (.null type, rest)
      else if b = 0x23 then
        (readClosed readWord bytes).map fun (i, rest) => (.global i, rest)
      else none

/-- A global. -/
def Global.read : Read Global := fun bytes =>
  match GlobalType.read bytes with
  | none => none
  | some (type, rest) => (ConstExpr.read rest).map fun (init, rest) => (⟨type, init⟩, rest)

/-- What an import is. -/
def ImportType.read : Read ImportType
  | [] => none
  | b :: bytes =>
    if b = 0x00 then (readWord bytes).map fun (type, rest) => (.function type, rest)
    else if b = 0x02 then (Limits.read bytes).map fun (limits, rest) => (.memory limits, rest)
    else if b = 0x03 then (GlobalType.read bytes).map fun (type, rest) => (.global type, rest)
    else none

/-- An import. -/
def Import.read : Read Import := fun bytes =>
  match readName bytes with
  | none => none
  | some (scope, rest) =>
    match readName rest with
    | none => none
    | some (name, rest) => (ImportType.read rest).map fun (type, rest) => (⟨scope, name, type⟩, rest)

/-- The kind of export of a byte. -/
def ExportKind.ofCode? (b : UInt8) : Option ExportKind :=
  [ExportKind.function, .table, .memory, .global].find? (·.code == b)

/-- An export. -/
def Export.read : Read Export := fun bytes =>
  match readName bytes with
  | none => none
  | some (name, rest) =>
    match readCode ExportKind.ofCode? rest with
    | none => none
    | some (kind, rest) => (readWord rest).map fun (index, rest) => (⟨name, kind, index⟩, rest)

/-- A place in memory, after the byte of the constant expression for it. -/
def readPlaced : Read Segment := fun bytes =>
  match ConstExpr.read bytes with
  | none => none
  | some (offset, rest) =>
    (readBlob rest).map fun (contents, rest) => (⟨some offset, contents⟩, rest)

/-- A segment. -/
def Segment.read : Read Segment := fun bytes =>
  match readWord bytes with
  | some (0, rest) => readPlaced rest
  | some (1, rest) => (readBlob rest).map fun (contents, rest) => (⟨none, contents⟩, rest)
  | some (2, rest) =>
    match readWord rest with
    | some (0, rest) => readPlaced rest
    | _ => none
  | _ => none

/-- A section: its number and what it holds. -/
structure Section where
  id : UInt8
  payload : List UInt8

/-- A section. -/
def Section.read : Read Section
  | [] => none
  | id :: bytes => (readBlob bytes).map fun (payload, rest) => (⟨id, payload⟩, rest)

/-- The bytes after the header. -/
def skipHeader? (bytes : List UInt8) : Option (List UInt8) :=
  if bytes.take 8 = header then some (bytes.drop 8) else none

/-- The sections that some bytes are cut into. -/
def sections? (bytes : List UInt8) : Option (List Section) :=
  match skipHeader? bytes with
  | none => none
  | some rest => readToEnd? Section.read rest.length rest

/-- A custom section. -/
def Custom.ofPayload? (payload : List UInt8) : Option Custom :=
  (readName payload).map fun (name, rest) => ⟨name, rest⟩

/-- The custom sections, in order. -/
def customs? (sections : List Section) : Option (List Custom) :=
  (sections.filter (·.id == 0)).mapM fun s => Custom.ofPayload? s.payload

/-- The numbers of the sections that can be read, in the order in which they have to come. -/
def knownSections : List UInt8 := [1, 2, 3, 5, 6, 7, 8, 10, 11]

/-- Whether the sections with a number are known ones, each at most once and in order. -/
def inOrder (sections : List Section) : Bool :=
  ((sections.filter (·.id != 0)).map (·.id)).isSublist knownSections

/-- What the section of a number holds, or `default` if there is none. -/
def sectionOr? {α : Type} (read : Read α) (default : α) (id : UInt8) (sections : List Section) :
    Option α :=
  match sections.find? (·.id == id) with
  | none => some default
  | some s => readAll? read s.payload

/-- The module that some sections describe. -/
def Module.ofSections? (sections : List Section) : Option Module := do
  let types ← sectionOr? (readVector itemLimit FuncType.read) [] 1 sections
  let imports ← sectionOr? (readVector itemLimit Import.read) [] 2 sections
  let functions ← sectionOr? (readVector itemLimit readWord) [] 3 sections
  let memories ← sectionOr? (readVector itemLimit Limits.read) [] 5 sections
  let globals ← sectionOr? (readVector itemLimit Global.read) [] 6 sections
  let exports ← sectionOr? (readVector itemLimit Export.read) [] 7 sections
  let start? ← sectionOr? (fun bytes => (readWord bytes).map fun (f, rest) => (some f, rest))
    none 8 sections
  let bodies ← sectionOr? (readVector itemLimit Body.read) [] 10 sections
  let segments ← sectionOr? (readVector itemLimit Segment.read) [] 11 sections
  let customs ← customs? sections
  return ⟨types, imports, functions, memories, globals, exports, start?, bodies, segments, customs⟩

/-- The module that some bytes keep. -/
def Module.ofBytes? (bytes : List UInt8) : Option Module :=
  match sections? bytes with
  | none => none
  | some sections => if inOrder sections then Module.ofSections? sections else none

end GuestCall.Wasm
