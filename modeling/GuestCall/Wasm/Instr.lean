/-
# Instructions

The types, operators and instructions of the machine language, in two forms of code. Flat code is a
sequence in which blocks are opened and closed by instructions of their own, as modules keep it.
Structured code nests the bodies of blocks, as validation and execution follow it. What is not a
block is the same in both.

Key definitions:
* `ValType`, `FuncType` and `BlockType`;
* `Plain`, the instructions that are no blocks;
* `Op`, an item of flat code, and `Instr`, an instruction of structured code;
* `Instr.flatten` and `Op.structure?`, from one form to the other.

Key theorem: `Op.structure?_flatten`, flattened code is structured as it was.
-/
import GuestCall.Scalar.Basic

namespace GuestCall.Wasm

/-- The types of references. -/
inductive RefType where
  | funcRef
  | externRef
  deriving DecidableEq

/-- The types of values. -/
inductive ValType where
  | num (type : CoreType)
  | ref (type : RefType)
  deriving DecidableEq

namespace ValType

/-- The machine number type of a value type, if it is one. -/
def core? : ValType → Option CoreType
  | .num type => some type
  | .ref _ => none

/-- Words of 32 bits, which also serve as addresses and truth values. -/
abbrev i32 : ValType := .num .i32

/-- Words of 64 bits. -/
abbrev i64 : ValType := .num .i64

/-- Double-precision floats. -/
abbrev f64 : ValType := .num .f64

end ValType

/-- The types of functions. -/
structure FuncType where
  params : List ValType
  results : List ValType
  deriving DecidableEq

/-- The types of blocks: no operands and at most one result, or the type of a function. -/
inductive BlockType where
  | empty
  | value (type : ValType)
  | index (i : Nat)
  deriving DecidableEq

/-- The operators on numbers. -/
inductive NumOp where
  | i32Eqz
  | i32Eq
  | i32Ne
  | i32LtU
  | i32GtU
  | i32GeU
  | i32Popcnt
  | i32Add
  | i32Sub
  | i32Mul
  | i32DivS
  | i32And
  | i32Shl
  | i32ShrU
  | i64Ne
  | i64LtS
  | i64LtU
  | i64Add
  | i64DivU
  | i64RemU
  | i32WrapI64
  | f64Mul
  deriving DecidableEq

namespace NumOp

/-- The types of the operands, the first one first. -/
def operands : NumOp → List CoreType
  | .i32Eqz | .i32Popcnt => [.i32]
  | .i32Eq | .i32Ne | .i32LtU | .i32GtU | .i32GeU | .i32Add | .i32Sub | .i32Mul | .i32DivS
  | .i32And | .i32Shl | .i32ShrU => [.i32, .i32]
  | .i64Ne | .i64LtS | .i64LtU | .i64Add | .i64DivU | .i64RemU => [.i64, .i64]
  | .i32WrapI64 => [.i64]
  | .f64Mul => [.f64, .f64]

/-- The type of the result. -/
def result : NumOp → CoreType
  | .i64Add | .i64DivU | .i64RemU => .i64
  | .f64Mul => .f64
  | _ => .i32

end NumOp

/-- What is read from memory. -/
inductive LoadOp where
  | i32
  | i64
  | f64
  /-- One byte, widened with zeros. -/
  | i32Byte
  deriving DecidableEq

namespace LoadOp

/-- How many bytes are read. -/
def width : LoadOp → Nat
  | .i32 => 4
  | .i64 | .f64 => 8
  | .i32Byte => 1

/-- The type of what is read. -/
def type : LoadOp → CoreType
  | .i32 | .i32Byte => .i32
  | .i64 => .i64
  | .f64 => .f64

end LoadOp

/-- What is written to memory. -/
inductive StoreOp where
  | i32
  | i64
  | f64
  /-- The low byte of a word. -/
  | i32Byte
  deriving DecidableEq

namespace StoreOp

/-- How many bytes are written. -/
def width : StoreOp → Nat
  | .i32 => 4
  | .i64 | .f64 => 8
  | .i32Byte => 1

/-- The type of what is written. -/
def type : StoreOp → CoreType
  | .i32 | .i32Byte => .i32
  | .i64 => .i64
  | .f64 => .f64

end StoreOp

/-- Where an access goes: an offset that is added to the address, the logarithm of the alignment
that it promises, and the memory it goes to. -/
structure MemArg where
  offset : Nat
  align : Nat
  memory : Nat := 0
  deriving DecidableEq

/-- The instructions that are no blocks. -/
inductive Plain where
  | unreachable
  | nop
  | br (label : Nat)
  | brIf (label : Nat)
  | ret
  | call (function : Nat)
  | drop
  | select
  | localGet (i : Nat)
  | localSet (i : Nat)
  | localTee (i : Nat)
  | globalGet (i : Nat)
  | globalSet (i : Nat)
  | const (v : CoreValue)
  | refNull (type : RefType)
  | load (op : LoadOp) (arg : MemArg)
  | store (op : StoreOp) (arg : MemArg)
  | memorySize (memory : Nat)
  | memoryGrow (memory : Nat)
  | memoryCopy (target source : Nat)
  | num (op : NumOp)
  deriving DecidableEq

/-- An item of flat code. -/
inductive Op where
  | plain (p : Plain)
  | block (type : BlockType)
  | loop (type : BlockType)
  | cond (type : BlockType)
  | otherwise
  | close
  deriving DecidableEq

/-- An instruction of structured code. A branch to the label of a block ends it, one to the label
of a loop starts it again. -/
inductive Instr where
  | plain (p : Plain)
  | block (type : BlockType) (body : List Instr)
  | loop (type : BlockType) (body : List Instr)
  | cond (type : BlockType) (yes no : List Instr)

namespace Instr

mutual

/-- The flat form of an instruction. An empty alternative is left out. -/
def flat : Instr → List Op
  | .plain p => [.plain p]
  | .block type body => .block type :: flatten body ++ [.close]
  | .loop type body => .loop type :: flatten body ++ [.close]
  | .cond type yes [] => .cond type :: flatten yes ++ [.close]
  | .cond type yes (i :: no) =>
    .cond type :: flatten yes ++ .otherwise :: flatten (i :: no) ++ [.close]

/-- The flat form of some code. -/
def flatten : List Instr → List Op
  | [] => []
  | i :: rest => flat i ++ flatten rest

end

end Instr

/-- A block that is open while flat code is read, with the code before it, last instruction
first. -/
inductive Frame where
  | block (type : BlockType) (before : List Instr)
  | loop (type : BlockType) (before : List Instr)
  | yes (type : BlockType) (before : List Instr)
  | no (type : BlockType) (yes before : List Instr)

namespace Op

/-- The structured form of flat code that is closed at its very end, from a place on: the frames
that are open there, innermost first, and the code of the innermost one, last instruction
first. -/
def structureFrom? : List Op → List Frame → List Instr → Option (List Instr)
  | [], _, _ => none
  | op :: rest, frames, code =>
    match op, frames with
    | .plain p, frames => structureFrom? rest frames (.plain p :: code)
    | .block type, frames => structureFrom? rest (.block type code :: frames) []
    | .loop type, frames => structureFrom? rest (.loop type code :: frames) []
    | .cond type, frames => structureFrom? rest (.yes type code :: frames) []
    | .otherwise, .yes type before :: frames =>
      structureFrom? rest (.no type code.reverse before :: frames) []
    | .otherwise, _ => none
    | .close, [] => if rest.isEmpty then some code.reverse else none
    | .close, .block type before :: frames =>
      structureFrom? rest frames (.block type code.reverse :: before)
    | .close, .loop type before :: frames =>
      structureFrom? rest frames (.loop type code.reverse :: before)
    | .close, .yes type before :: frames =>
      structureFrom? rest frames (.cond type code.reverse [] :: before)
    | .close, .no type yes before :: frames =>
      structureFrom? rest frames (.cond type yes code.reverse :: before)

/-- The structured form of the flat code of a function, which is closed at its very end. -/
def structure? (ops : List Op) : Option (List Instr) := structureFrom? ops [] []

end Op

mutual

theorem structureFrom?_flat (i : Instr) (rest : List Op) (frames : List Frame)
    (code : List Instr) :
    Op.structureFrom? (i.flat ++ rest) frames code = Op.structureFrom? rest frames (i :: code) := by
  match i with
  | .plain p => simp [Instr.flat, Op.structureFrom?]
  | .block type body =>
    simp [Instr.flat, Op.structureFrom?, structureFrom?_flatten body]
  | .loop type body =>
    simp [Instr.flat, Op.structureFrom?, structureFrom?_flatten body]
  | .cond type yes [] =>
    simp [Instr.flat, Op.structureFrom?, structureFrom?_flatten yes]
  | .cond type yes (j :: no) =>
    simp [Instr.flat, Op.structureFrom?, structureFrom?_flatten yes,
      structureFrom?_flatten (j :: no)]

theorem structureFrom?_flatten (is : List Instr) (rest : List Op) (frames : List Frame)
    (code : List Instr) :
    Op.structureFrom? (Instr.flatten is ++ rest) frames code =
      Op.structureFrom? rest frames (is.reverse ++ code) := by
  match is with
  | [] => simp [Instr.flatten]
  | i :: is =>
    simp [Instr.flatten, structureFrom?_flat i, structureFrom?_flatten is]

end

/-- Flattened code is structured as it was. -/
theorem Op.structure?_flatten (is : List Instr) :
    Op.structure? (Instr.flatten is ++ [.close]) = some is := by
  simp [structure?, structureFrom?_flatten, structureFrom?]

end GuestCall.Wasm
