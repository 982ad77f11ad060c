/-
# The machine

Structured code is run on a stack of operands, the locals of its function, and a store of what
outlives the call: the memory and the globals. A piece of code falls through, branches to a label,
returns, or traps, and whatever it did to the store stays done. Every block starts on an empty
stack with its operands, and what it leaves is put on top of the rest.

Recursion follows the code, the depth of calls is limited, and each run of a loop has a budget of
rounds that no computation in this world exhausts, so every call ends.

Key definitions:
* `Outcome`, how a piece of code ends;
* `Plain.run`, `Instr.run` and `runCode`, the steps of the machine;
* `iterate`, the rounds of a loop;
* `Program.invoke`, a call of a function.
-/
import GuestCall.Wasm.Program

namespace GuestCall.Wasm

/-- Why code cannot go on. -/
inductive Trap where
  | unreachable
  | divideByZero
  | overflow
  | outOfBounds
  /-- Too many calls inside each other. -/
  | depthExceeded
  /-- Too many rounds of one loop. -/
  | budgetExceeded
  /-- Code that was never checked does what its operands do not allow. -/
  | malformed
  deriving DecidableEq

/-- What the trap says. -/
def Trap.message : Trap → String
  | .unreachable => "wasm `unreachable` instruction executed"
  | .divideByZero => "integer divide by zero"
  | .overflow => "integer overflow"
  | .outOfBounds => "out of bounds memory access"
  | .depthExceeded => "call stack exhausted"
  | .budgetExceeded => "loop budget exhausted"
  | .malformed => "malformed code"

/-- A value on the stack of operands. -/
inductive Val where
  | i32 (v : UInt32)
  | i64 (v : UInt64)
  | f32 (v : Binary32)
  | f64 (v : Binary64)
  | null (type : RefType)
  deriving DecidableEq

namespace Val

/-- The type of a value. -/
def type : Val → ValType
  | .i32 _ => .num .i32
  | .i64 _ => .num .i64
  | .f32 _ => .num .f32
  | .f64 _ => .num .f64
  | .null type => .ref type

/-- The value of a number. -/
def ofCore : CoreValue → Val
  | .i32 v => .i32 v
  | .i64 v => .i64 v
  | .f32 v => .f32 v
  | .f64 v => .f64 v

/-- The number of a value, if it is one. -/
def core? : Val → Option CoreValue
  | .i32 v => some (.i32 v)
  | .i64 v => some (.i64 v)
  | .f32 v => some (.f32 v)
  | .f64 v => some (.f64 v)
  | .null _ => none

/-- The value that locals start with. -/
def zero : ValType → Val
  | .num .i32 => .i32 0
  | .num .i64 => .i64 0
  | .num .f32 => .f32 ⟨0⟩
  | .num .f64 => .f64 ⟨0⟩
  | .ref type => .null type

end Val

/-- What outlives a call. -/
structure Store where
  memory : Memory
  globals : List Val

/-- How a piece of code ends: by falling through, by a branch to one of the labels around it, by a
return, or by a trap. -/
inductive Outcome where
  | next (stack locals : List Val) (store : Store)
  | branch (label : Nat) (stack locals : List Val) (store : Store)
  | ret (stack : List Val) (store : Store)
  | trap (cause : Trap) (store : Store)

/-- How a call ends: with results, the last one first, or by a trap. -/
inductive Reply where
  | results (stack : List Val) (store : Store)
  | trap (cause : Trap) (store : Store)

/-- What code is run with: the types of blocks, the types of functions, a way to call them, and
the budget of a loop. -/
structure Env where
  types : List FuncType
  signatures : List FuncType
  call : Nat → List Val → Store → Reply
  budget : Nat

/-- The word of a truth value. -/
def truth (b : Bool) : UInt32 := if b then 1 else 0

/-- How many bits of a word are set. -/
def popcount (v : UInt32) : UInt32 :=
  Nat.fold 32 (fun i _ count => count + (v >>> i.toUInt32 &&& 1)) 0

/-- The quotient of two words with a sign, toward zero. -/
def divideSigned (a b : UInt32) : Except Trap UInt32 :=
  if b = 0 then .error .divideByZero
  else if a = 0x80000000 ∧ b = 0xFFFFFFFF then .error .overflow
  else .ok (Int32.ofInt (a.toInt32.toInt.tdiv b.toInt32.toInt)).toUInt32

/-- An operator on the operands at the top of the stack, the last one on top. -/
def NumOp.run : NumOp → List Val → Except Trap (List Val)
  | .i32Eqz, .i32 a :: s => .ok (.i32 (truth (a = 0)) :: s)
  | .i32Eq, .i32 b :: .i32 a :: s => .ok (.i32 (truth (a = b)) :: s)
  | .i32Ne, .i32 b :: .i32 a :: s => .ok (.i32 (truth (a ≠ b)) :: s)
  | .i32LtU, .i32 b :: .i32 a :: s => .ok (.i32 (truth (a < b)) :: s)
  | .i32GtU, .i32 b :: .i32 a :: s => .ok (.i32 (truth (b < a)) :: s)
  | .i32GeU, .i32 b :: .i32 a :: s => .ok (.i32 (truth (b ≤ a)) :: s)
  | .i32Popcnt, .i32 a :: s => .ok (.i32 (popcount a) :: s)
  | .i32Add, .i32 b :: .i32 a :: s => .ok (.i32 (a + b) :: s)
  | .i32Sub, .i32 b :: .i32 a :: s => .ok (.i32 (a - b) :: s)
  | .i32Mul, .i32 b :: .i32 a :: s => .ok (.i32 (a * b) :: s)
  | .i32DivS, .i32 b :: .i32 a :: s =>
    match divideSigned a b with
    | .ok q => .ok (.i32 q :: s)
    | .error cause => .error cause
  | .i32And, .i32 b :: .i32 a :: s => .ok (.i32 (a &&& b) :: s)
  | .i32Shl, .i32 b :: .i32 a :: s => .ok (.i32 (a <<< b) :: s)
  | .i32ShrU, .i32 b :: .i32 a :: s => .ok (.i32 (a >>> b) :: s)
  | .i64Ne, .i64 b :: .i64 a :: s => .ok (.i32 (truth (a ≠ b)) :: s)
  | .i64LtS, .i64 b :: .i64 a :: s => .ok (.i32 (truth (a.toInt64 < b.toInt64)) :: s)
  | .i64LtU, .i64 b :: .i64 a :: s => .ok (.i32 (truth (a < b)) :: s)
  | .i64Add, .i64 b :: .i64 a :: s => .ok (.i64 (a + b) :: s)
  | .i64DivU, .i64 b :: .i64 a :: s =>
    if b = 0 then .error .divideByZero else .ok (.i64 (a / b) :: s)
  | .i64RemU, .i64 b :: .i64 a :: s =>
    if b = 0 then .error .divideByZero else .ok (.i64 (a % b) :: s)
  | .i32WrapI64, .i64 a :: s => .ok (.i32 a.toUInt32 :: s)
  | .f64Mul, .f64 b :: .f64 a :: s => .ok (.f64 (a.mul b) :: s)
  | _, _ => .error .malformed

/-- What a load reads at an address. -/
def LoadOp.read (op : LoadOp) (memory : Memory) (address : Nat) : Val :=
  let byte (i : Nat) := memory.byteAt (address + i)
  match op with
  | .i32 => .i32 (LittleEndian.get32 byte)
  | .i64 => .i64 (LittleEndian.get64 byte)
  | .f64 => .f64 ⟨LittleEndian.get64 byte⟩
  | .i32Byte => .i32 (byte 0).toUInt32

/-- The bytes that a store writes for a value of its type. -/
def StoreOp.bytes? : StoreOp → Val → Option (List UInt8)
  | .i32, .i32 v => some (LittleEndian.put32 v)
  | .i64, .i64 v => some (LittleEndian.put64 v)
  | .f64, .f64 v => some (LittleEndian.put64 v.bits)
  | .i32Byte, .i32 v => some [v.toUInt8]
  | _, _ => none

namespace Store

/-- The store after a write of bytes. -/
def write (s : Store) (address : Nat) (source : ByteArray) : Store :=
  ⟨s.memory.write address source, s.globals⟩

/-- The store with a global set. -/
def setGlobal (s : Store) (i : Nat) (v : Val) : Store := ⟨s.memory, s.globals.set i v⟩

end Store

/-- A load with its address at the top of the stack. -/
def runLoad (op : LoadOp) (arg : MemArg) (stack locals : List Val) (store : Store) : Outcome :=
  match stack with
  | .i32 base :: rest =>
    let address := base.toNat + arg.offset
    if address + op.width ≤ store.memory.size then
      .next (op.read store.memory address :: rest) locals store
    else .trap .outOfBounds store
  | _ => .trap .malformed store

/-- A store with its value at the top of the stack and its address below. -/
def runStore (op : StoreOp) (arg : MemArg) (stack locals : List Val) (store : Store) : Outcome :=
  match stack with
  | v :: .i32 base :: rest =>
    match op.bytes? v with
    | some bytes =>
      let address := base.toNat + arg.offset
      if address + op.width ≤ store.memory.size then
        .next rest locals (store.write address bytes.toByteArray)
      else .trap .outOfBounds store
    | none => .trap .malformed store
  | _ => .trap .malformed store

/-- Growth of the memory by some pages: the pages before it, or all ones where it is refused. -/
def runGrow (stack locals : List Val) (store : Store) : Outcome :=
  match stack with
  | .i32 extra :: rest =>
    match store.memory.grow? extra.toNat with
    | some memory =>
      .next (.i32 store.memory.pages.toUInt32 :: rest) locals ⟨memory, store.globals⟩
    | none => .next (.i32 0xFFFFFFFF :: rest) locals store
  | _ => .trap .malformed store

/-- A copy inside the memory, as if through a buffer: how many bytes, from where, and to where. -/
def runCopy (stack locals : List Val) (store : Store) : Outcome :=
  match stack with
  | .i32 count :: .i32 source :: .i32 target :: rest =>
    if source.toNat + count.toNat ≤ store.memory.size ∧
        target.toNat + count.toNat ≤ store.memory.size then
      let copied := store.memory.slice source.toNat count.toNat
      .next rest locals (store.write target.toNat copied)
    else .trap .outOfBounds store
  | _ => .trap .malformed store

/-- A call with the arguments at the top of the stack. -/
def runCall (env : Env) (f : Nat) (stack locals : List Val) (store : Store) : Outcome :=
  match env.signatures[f]? with
  | some type =>
    let arity := type.params.length
    match env.call f (stack.take arity) store with
    | .results values store => .next (values ++ stack.drop arity) locals store
    | .trap cause store => .trap cause store
  | none => .trap .malformed store

/-- A list of values with the one of some place replaced. -/
def putAt : List Val → Nat → Val → List Val
  | [], _, _ => []
  | _ :: rest, 0, v => v :: rest
  | w :: rest, i + 1, v => w :: putAt rest i v

@[simp] theorem putAt_eq_set (values : List Val) (i : Nat) (v : Val) :
    putAt values i v = values.set i v := by
  induction values generalizing i with
  | nil => rfl
  | cons w rest ih => cases i <;> simp [putAt, ih]

/-- An instruction that is no block. -/
def Plain.run (env : Env) : Plain → List Val → List Val → Store → Outcome
  | .unreachable, _, _, st => .trap .unreachable st
  | .nop, stack, locals, st => .next stack locals st
  | .br label, stack, locals, st => .branch label stack locals st
  | .brIf label, .i32 condition :: stack, locals, st =>
    if condition = 0 then .next stack locals st else .branch label stack locals st
  | .ret, stack, _, st => .ret stack st
  | .call f, stack, locals, st => runCall env f stack locals st
  | .drop, _ :: stack, locals, st => .next stack locals st
  | .select, .i32 condition :: b :: a :: stack, locals, st =>
    .next ((if condition = 0 then b else a) :: stack) locals st
  | .localGet i, stack, locals, st =>
    match locals[i]? with
    | some v => .next (v :: stack) locals st
    | none => .trap .malformed st
  | .localSet i, v :: stack, locals, st => .next stack (putAt locals i v) st
  | .localTee i, v :: stack, locals, st => .next (v :: stack) (putAt locals i v) st
  | .globalGet i, stack, locals, st =>
    match st.globals[i]? with
    | some v => .next (v :: stack) locals st
    | none => .trap .malformed st
  | .globalSet i, v :: stack, locals, st => .next stack locals (st.setGlobal i v)
  | .const v, stack, locals, st => .next (.ofCore v :: stack) locals st
  | .refNull type, stack, locals, st => .next (.null type :: stack) locals st
  | .load op arg, stack, locals, st => runLoad op arg stack locals st
  | .store op arg, stack, locals, st => runStore op arg stack locals st
  | .memorySize _, stack, locals, st =>
    .next (.i32 st.memory.pages.toUInt32 :: stack) locals st
  | .memoryGrow _, stack, locals, st => runGrow stack locals st
  | .memoryCopy _ _, stack, locals, st => runCopy stack locals st
  | .num op, stack, locals, st =>
    match op.run stack with
    | .ok stack => .next stack locals st
    | .error cause => .trap cause st
  | _, _, _, st => .trap .malformed st

/-- How a block ends that leaves `rest` below it: a branch to its label carries `arity` operands. -/
def Outcome.leave (arity : Nat) (rest : List Val) : Outcome → Outcome
  | .next stack locals store => .next (stack ++ rest) locals store
  | .branch 0 stack locals store => .next (stack.take arity ++ rest) locals store
  | .branch (label + 1) stack locals store => .branch label stack locals store
  | .ret stack store => .ret stack store
  | .trap cause store => .trap cause store

/-- The rounds of a loop whose label carries `arity` operands: a branch to it starts another
round, and there is a budget of rounds. -/
def iterate (arity : Nat) (round : List Val → List Val → Store → Outcome) :
    Nat → List Val → List Val → Store → Outcome
  | 0, _, _, store => .trap .budgetExceeded store
  | budget + 1, stack, locals, store =>
    match round stack locals store with
    | .branch 0 stack locals store => iterate arity round budget (stack.take arity) locals store
    | other => other

/-- How many operands and results a block has. -/
def BlockType.arity (types : List FuncType) : BlockType → Nat × Nat
  | .empty => (0, 0)
  | .value _ => (0, 1)
  | .index i =>
    match types[i]? with
    | some type => (type.params.length, type.results.length)
    | none => (0, 0)

mutual

/-- An instruction. -/
def Instr.run (env : Env) : Instr → List Val → List Val → Store → Outcome
  | .plain p, stack, locals, store => p.run env stack locals store
  | .block type body, stack, locals, store =>
    let (params, results) := type.arity env.types
    (runCode env body (stack.take params) locals store).leave results (stack.drop params)
  | .loop type body, stack, locals, store =>
    let (params, results) := type.arity env.types
    (iterate params (runCode env body) env.budget (stack.take params) locals store).leave results
      (stack.drop params)
  | .cond type yes no, .i32 condition :: stack, locals, store =>
    let (params, results) := type.arity env.types
    if condition = 0 then
      (runCode env no (stack.take params) locals store).leave results (stack.drop params)
    else (runCode env yes (stack.take params) locals store).leave results (stack.drop params)
  | .cond _ _ _, _, _, store => .trap .malformed store

/-- Some code. -/
def runCode (env : Env) : List Instr → List Val → List Val → Store → Outcome
  | [], stack, locals, store => .next stack locals store
  | i :: rest, stack, locals, store =>
    match i.run env stack locals store with
    | .next stack locals store => runCode env rest stack locals store
    | other => other

end

/-- The results of a function with some result types, from the stack that its code left. -/
def Reply.ofStack (types : List ValType) (stack : List Val) (store : Store) : Reply :=
  let values := stack.take types.length
  if values.map Val.type = types.reverse then .results values store else .trap .malformed store

/-- How a function with some result types ends, from how its code did. -/
def Outcome.reply (types : List ValType) : Outcome → Reply
  | .next stack _ store => .ofStack types stack store
  | .branch 0 stack _ store => .ofStack types stack store
  | .branch (_ + 1) _ _ store => .trap .malformed store
  | .ret stack store => .ofStack types stack store
  | .trap cause store => .trap cause store

/-- How deep calls may be inside each other. -/
def depthLimit : Nat := 1000

/-- How many rounds one run of a loop may take. -/
def loopBudget : Nat := 0x4000000000000000

/-- The locals that a function starts with, from its arguments, the last one first. -/
def Function.start (f : Function) (arguments : List Val) : List Val :=
  arguments.reverse ++ f.locals.map .zero

/-- A call of a function, with its arguments the last one first and some depth of calls left. Only
programs that import nothing are run, so functions are numbered from zero. -/
def Program.invoke (p : Program) : Nat → Nat → List Val → Store → Reply
  | 0, _, _, store => .trap .depthExceeded store
  | depth + 1, f, arguments, store =>
    match p.functions[f]? with
    | some function =>
      let env : Env := ⟨p.types, p.signatures, p.invoke depth, loopBudget⟩
      (runCode env function.code [] (function.start arguments) store).reply function.type.results
    | none => .trap .malformed store

end GuestCall.Wasm
