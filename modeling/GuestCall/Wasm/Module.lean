/-
# Modules and their binary form

A module as its sections describe it, and the bytes that keep it: a header, then sections in a
fixed order, each with its length in front, and custom sections. Function bodies are kept flat.

Key definitions:
* `Module`, with the parts of its sections;
* `Op.bytes` and `Body.bytes`, the bytes of code;
* `Module.bytes`, the bytes of a module.
-/
import GuestCall.Scalar.Layout
import GuestCall.Wasm.Instr
import GuestCall.Wasm.Leb128

namespace GuestCall.Wasm

/-- How many pages a memory starts with, and how many it may grow to. -/
structure Limits where
  min : Nat
  max? : Option Nat
  deriving DecidableEq

/-- The type of a global, and whether code may set it. -/
structure GlobalType where
  type : ValType
  isMutable : Bool
  deriving DecidableEq

/-- What a global or the place of a segment starts as. -/
inductive ConstExpr where
  | value (v : CoreValue)
  | null (type : RefType)
  | global (i : Nat)
  deriving DecidableEq

/-- A global variable of a module. -/
structure Global where
  type : GlobalType
  init : ConstExpr
  deriving DecidableEq

/-- What a module takes from outside. -/
inductive ImportType where
  | function (type : Nat)
  | memory (limits : Limits)
  | global (type : GlobalType)
  deriving DecidableEq

/-- Something that a module takes from outside, by the names of its two levels. -/
structure Import where
  scope : String
  name : String
  type : ImportType
  deriving DecidableEq

/-- The kinds of things that a module makes visible. -/
inductive ExportKind where
  | function
  | table
  | memory
  | global
  deriving DecidableEq

/-- Something that a module makes visible under a name. -/
structure Export where
  name : String
  kind : ExportKind
  index : Nat
  deriving DecidableEq

/-- The body of a function: groups of locals, and flat code. -/
structure Body where
  locals : List (Nat × ValType)
  ops : List Op
  deriving DecidableEq

/-- Bytes for the memory, with the place where they are put when an instance is made. -/
structure Segment where
  offset? : Option ConstExpr
  contents : List UInt8
  deriving DecidableEq

/-- A section that only means something to whoever knows its name. -/
structure Custom where
  name : String
  contents : List UInt8
  deriving DecidableEq

/-- A module as its sections describe it. -/
structure Module where
  types : List FuncType := []
  imports : List Import := []
  /-- The types of the functions, by their places in `types`. -/
  functions : List Nat := []
  memories : List Limits := []
  globals : List Global := []
  exports : List Export := []
  start? : Option Nat := none
  bodies : List Body := []
  segments : List Segment := []
  customs : List Custom := []
  deriving DecidableEq

open Leb128

/-- Items with their count in front. -/
def vectorBytes {α : Type} (bytes : α → List UInt8) (items : List α) : List UInt8 :=
  unsigned items.length ++ items.flatMap bytes

/-- Bytes with their count in front. -/
def blobBytes (bytes : List UInt8) : List UInt8 := unsigned bytes.length ++ bytes

/-- A name with the count of its bytes in front. -/
def nameBytes (name : String) : List UInt8 := blobBytes name.toUTF8.data.toList

/-- The byte of a reference type. -/
def RefType.code : RefType → UInt8
  | .funcRef => 0x70
  | .externRef => 0x6F

/-- The byte of a value type. -/
def ValType.code : ValType → UInt8
  | .num .i32 => 0x7F
  | .num .i64 => 0x7E
  | .num .f32 => 0x7D
  | .num .f64 => 0x7C
  | .ref type => type.code

/-- The bytes of a function type. -/
def FuncType.bytes (t : FuncType) : List UInt8 :=
  0x60 :: vectorBytes (fun p => [p.code]) t.params ++ vectorBytes (fun r => [r.code]) t.results

/-- The bytes of a block type. -/
def BlockType.bytes : BlockType → List UInt8
  | .empty => [0x40]
  | .value type => [type.code]
  | .index i => signed i

/-- The byte of an operator. -/
def NumOp.code : NumOp → UInt8
  | .i32Eqz => 0x45
  | .i32Eq => 0x46
  | .i32Ne => 0x47
  | .i32LtU => 0x49
  | .i32GtU => 0x4B
  | .i32GeU => 0x4F
  | .i64Ne => 0x52
  | .i64LtS => 0x53
  | .i64LtU => 0x54
  | .i32Popcnt => 0x69
  | .i32Add => 0x6A
  | .i32Sub => 0x6B
  | .i32Mul => 0x6C
  | .i32DivS => 0x6D
  | .i32And => 0x71
  | .i32Shl => 0x74
  | .i32ShrU => 0x76
  | .i64Add => 0x7C
  | .i64DivU => 0x80
  | .i64RemU => 0x82
  | .f64Mul => 0xA2
  | .i32WrapI64 => 0xA7

/-- The byte of a load. -/
def LoadOp.code : LoadOp → UInt8
  | .i32 => 0x28
  | .i64 => 0x29
  | .f64 => 0x2B
  | .i32Byte => 0x2D

/-- The byte of a store. -/
def StoreOp.code : StoreOp → UInt8
  | .i32 => 0x36
  | .i64 => 0x37
  | .f64 => 0x39
  | .i32Byte => 0x3A

/-- The bytes of where an access goes. A flag says that the memory is named. -/
def MemArg.bytes (a : MemArg) : List UInt8 :=
  if a.memory = 0 then unsigned a.align ++ unsigned a.offset
  else unsigned (a.align ||| 64) ++ unsigned a.memory ++ unsigned a.offset

/-- The bytes of a constant. -/
def constBytes : CoreValue → List UInt8
  | .i32 v => 0x41 :: signed v.toInt32.toInt
  | .i64 v => 0x42 :: signed v.toInt64.toInt
  | .f32 v => 0x43 :: LittleEndian.put32 v.bits
  | .f64 v => 0x44 :: LittleEndian.put64 v.bits

/-- The bytes of an instruction that is no block. -/
def Plain.bytes : Plain → List UInt8
  | .unreachable => [0x00]
  | .nop => [0x01]
  | .br label => 0x0C :: unsigned label
  | .brIf label => 0x0D :: unsigned label
  | .ret => [0x0F]
  | .call f => 0x10 :: unsigned f
  | .drop => [0x1A]
  | .select => [0x1B]
  | .localGet i => 0x20 :: unsigned i
  | .localSet i => 0x21 :: unsigned i
  | .localTee i => 0x22 :: unsigned i
  | .globalGet i => 0x23 :: unsigned i
  | .globalSet i => 0x24 :: unsigned i
  | .const v => constBytes v
  | .refNull type => [0xD0, type.code]
  | .load op arg => op.code :: arg.bytes
  | .store op arg => op.code :: arg.bytes
  | .memorySize memory => 0x3F :: unsigned memory
  | .memoryGrow memory => 0x40 :: unsigned memory
  | .memoryCopy target source => 0xFC :: 0x0A :: unsigned target ++ unsigned source
  | .num op => [op.code]

/-- The bytes of an item of flat code. -/
def Op.bytes : Op → List UInt8
  | .plain p => p.bytes
  | .block type => 0x02 :: type.bytes
  | .loop type => 0x03 :: type.bytes
  | .cond type => 0x04 :: type.bytes
  | .otherwise => [0x05]
  | .close => [0x0B]

/-- The bytes of a function body, without their count. -/
def Body.inner (b : Body) : List UInt8 :=
  vectorBytes (fun group => unsigned group.1 ++ [group.2.code]) b.locals ++ b.ops.flatMap Op.bytes

/-- The bytes of a function body. -/
def Body.bytes (b : Body) : List UInt8 := blobBytes b.inner

/-- The bytes of limits. -/
def Limits.bytes (l : Limits) : List UInt8 :=
  match l.max? with
  | none => 0x00 :: unsigned l.min
  | some max => 0x01 :: unsigned l.min ++ unsigned max

/-- The bytes of a global type. -/
def GlobalType.bytes (t : GlobalType) : List UInt8 := [t.type.code, if t.isMutable then 1 else 0]

/-- The bytes of a constant expression. -/
def ConstExpr.bytes : ConstExpr → List UInt8
  | .value v => constBytes v ++ [0x0B]
  | .null type => [0xD0, type.code, 0x0B]
  | .global i => 0x23 :: unsigned i ++ [0x0B]

/-- The bytes of a global. -/
def Global.bytes (g : Global) : List UInt8 := g.type.bytes ++ g.init.bytes

/-- The bytes of what an import is. -/
def ImportType.bytes : ImportType → List UInt8
  | .function type => 0x00 :: unsigned type
  | .memory limits => 0x02 :: limits.bytes
  | .global type => 0x03 :: type.bytes

/-- The bytes of an import. -/
def Import.bytes (i : Import) : List UInt8 := nameBytes i.scope ++ nameBytes i.name ++ i.type.bytes

/-- The byte of a kind of export. -/
def ExportKind.code : ExportKind → UInt8
  | .function => 0x00
  | .table => 0x01
  | .memory => 0x02
  | .global => 0x03

/-- The bytes of an export. -/
def Export.bytes (e : Export) : List UInt8 := nameBytes e.name ++ e.kind.code :: unsigned e.index

/-- The bytes of a segment. -/
def Segment.bytes (s : Segment) : List UInt8 :=
  match s.offset? with
  | some offset => 0x00 :: offset.bytes ++ blobBytes s.contents
  | none => 0x01 :: blobBytes s.contents

/-- A numbered section with its length in front. -/
def sectionBytes (id : UInt8) (payload : List UInt8) : List UInt8 := id :: blobBytes payload

/-- A section of items, left out if there are none. -/
def itemSection {α : Type} (id : UInt8) (bytes : α → List UInt8) (items : List α) : List UInt8 :=
  if items.isEmpty then [] else sectionBytes id (vectorBytes bytes items)

/-- The bytes that every module starts with. -/
def header : List UInt8 := [0x00, 0x61, 0x73, 0x6D, 0x01, 0x00, 0x00, 0x00]

/-- The bytes of a module, with its custom sections at the end. -/
def Module.bytes (m : Module) : List UInt8 :=
  header ++ itemSection 1 FuncType.bytes m.types ++ itemSection 2 Import.bytes m.imports ++
    itemSection 3 unsigned m.functions ++ itemSection 5 Limits.bytes m.memories ++
    itemSection 6 Global.bytes m.globals ++ itemSection 7 Export.bytes m.exports ++
    (match m.start? with
      | some f => sectionBytes 8 (unsigned f)
      | none => []) ++
    itemSection 10 Body.bytes m.bodies ++ itemSection 11 Segment.bytes m.segments ++
    m.customs.flatMap fun c => sectionBytes 0 (nameBytes c.name ++ c.contents)

end GuestCall.Wasm
