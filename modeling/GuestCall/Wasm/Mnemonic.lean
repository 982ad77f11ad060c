/-
# Names of instructions

The names by which instructions are written down as text. What an instruction takes besides its name
is up to whoever reads it.

Key definitions:
* `NumOp.mnemonic`, `LoadOp.mnemonic` and `StoreOp.mnemonic`, with their inverses;
* `Op.ofMnemonic?`, the items of code that have a name only;
* `Plain.ofMnemonic?`, the instructions that take a number.
-/
import GuestCall.Wasm.Instr

namespace GuestCall.Wasm

namespace NumOp

/-- Every operator. -/
def every : List NumOp :=
  [.i32Eqz, .i32Eq, .i32Ne, .i32LtU, .i32GtU, .i32GeU, .i32Popcnt, .i32Add, .i32Sub, .i32Mul,
    .i32DivS, .i32And, .i32Shl, .i32ShrU, .i64Ne, .i64LtS, .i64LtU, .i64Add, .i64DivU, .i64RemU,
    .i32WrapI64, .f64Mul]

/-- The name of an operator. -/
def mnemonic : NumOp → String
  | .i32Eqz => "i32.eqz"
  | .i32Eq => "i32.eq"
  | .i32Ne => "i32.ne"
  | .i32LtU => "i32.lt_u"
  | .i32GtU => "i32.gt_u"
  | .i32GeU => "i32.ge_u"
  | .i32Popcnt => "i32.popcnt"
  | .i32Add => "i32.add"
  | .i32Sub => "i32.sub"
  | .i32Mul => "i32.mul"
  | .i32DivS => "i32.div_s"
  | .i32And => "i32.and"
  | .i32Shl => "i32.shl"
  | .i32ShrU => "i32.shr_u"
  | .i64Ne => "i64.ne"
  | .i64LtS => "i64.lt_s"
  | .i64LtU => "i64.lt_u"
  | .i64Add => "i64.add"
  | .i64DivU => "i64.div_u"
  | .i64RemU => "i64.rem_u"
  | .i32WrapI64 => "i32.wrap_i64"
  | .f64Mul => "f64.mul"

/-- The operator of a name. -/
def ofMnemonic? (name : String) : Option NumOp := every.find? (·.mnemonic == name)

theorem ofMnemonic?_mnemonic (op : NumOp) : ofMnemonic? op.mnemonic = some op := by
  cases op <;> decide

end NumOp

namespace LoadOp

/-- The name of a load. -/
def mnemonic : LoadOp → String
  | .i32 => "i32.load"
  | .i64 => "i64.load"
  | .f64 => "f64.load"
  | .i32Byte => "i32.load8_u"

/-- The load of a name. -/
def ofMnemonic? (name : String) : Option LoadOp :=
  [.i32, .i64, .f64, .i32Byte].find? fun op => op.mnemonic == name

theorem ofMnemonic?_mnemonic (op : LoadOp) : ofMnemonic? op.mnemonic = some op := by
  cases op <;> decide

end LoadOp

namespace StoreOp

/-- The name of a store. -/
def mnemonic : StoreOp → String
  | .i32 => "i32.store"
  | .i64 => "i64.store"
  | .f64 => "f64.store"
  | .i32Byte => "i32.store8"

/-- The store of a name. -/
def ofMnemonic? (name : String) : Option StoreOp :=
  [.i32, .i64, .f64, .i32Byte].find? fun op => op.mnemonic == name

theorem ofMnemonic?_mnemonic (op : StoreOp) : ofMnemonic? op.mnemonic = some op := by
  cases op <;> decide

end StoreOp

/-- The instruction of a name that takes a number: a label, a function, a local or a global. -/
def Plain.ofMnemonic? (name : String) (i : Nat) : Option Plain :=
  match name with
  | "br" => some (.br i)
  | "br_if" => some (.brIf i)
  | "call" => some (.call i)
  | "local.get" => some (.localGet i)
  | "local.set" => some (.localSet i)
  | "local.tee" => some (.localTee i)
  | "global.get" => some (.globalGet i)
  | "global.set" => some (.globalSet i)
  | _ => none

/-- The opening of a block of a name and a type. -/
def Op.opening? (name : String) (type : BlockType) : Option Op :=
  match name with
  | "block" => some (.block type)
  | "loop" => some (.loop type)
  | "if" => some (.cond type)
  | _ => none

/-- The item of code of a name that stands alone. Blocks that are opened in this way leave nothing,
and memory is the first one. -/
def Op.ofMnemonic? (name : String) : Option Op :=
  match name with
  | "unreachable" => some (.plain .unreachable)
  | "nop" => some (.plain .nop)
  | "else" => some .otherwise
  | "end" => some .close
  | "return" => some (.plain .ret)
  | "drop" => some (.plain .drop)
  | "select" => some (.plain .select)
  | "memory.size" => some (.plain (.memorySize 0))
  | "memory.grow" => some (.plain (.memoryGrow 0))
  | "memory.copy" => some (.plain (.memoryCopy 0 0))
  | name =>
    match Op.opening? name .empty, NumOp.ofMnemonic? name with
    | some op, _ => some op
    | none, some op => some (.plain (.num op))
    | none, none => none

end GuestCall.Wasm
