/-
# Typing of code

Code is checked against the types of the operand stack before it may run. Behind an instruction
that never falls through, the stack is open below: what is taken from there has any type. A branch
carries the operands that its label asks for, the results of a block or the operands of a loop.

Key definitions:
* `Context`, what code may refer to;
* `Operands`, the types on the stack;
* `Instr.type?` and `typeCode?`, the operands after an instruction and after code;
* `checkBody`, whether code is the body of a function of some type.
-/
import GuestCall.Wasm.Instr

namespace GuestCall.Wasm

/-- What code may refer to. -/
structure Context where
  types : List FuncType
  functions : List FuncType
  /-- Types of the globals, and whether code may set them. -/
  globals : List (ValType × Bool)
  locals : List ValType
  hasMemory : Bool
  /-- What a branch to each label carries, innermost first. -/
  labels : List (List ValType)
  results : List ValType

/-- The types on the stack, top first; an unknown type stands for any. The stack is `isOpen` below
them where code cannot be reached. -/
structure Operands where
  types : List (Option ValType)
  isOpen : Bool

namespace Operands

/-- The stack with one more value. -/
def push (s : Operands) (type : ValType) : Operands := { s with types := some type :: s.types }

/-- The stack with more values, the last one on top. -/
def pushAll (s : Operands) (types : List ValType) : Operands := types.foldl push s

/-- The stack without its top value, whatever it is. -/
def popAny (s : Operands) : Option (Option ValType × Operands) :=
  match s.types with
  | type :: types => some (type, { s with types := types })
  | [] => if s.isOpen then some (none, s) else none

/-- The stack without a value of some type at its top. -/
def pop (s : Operands) (type : ValType) : Option Operands :=
  match s.popAny with
  | some (none, s) => some s
  | some (some found, s) => if found = type then some s else none
  | none => none

/-- The stack without values of some types, given top first. -/
def popEach (s : Operands) : List ValType → Option Operands
  | [] => some s
  | type :: types =>
    match s.pop type with
    | some s => s.popEach types
    | none => none

/-- The stack without values of some types, the last one on top. -/
def popAll (s : Operands) (types : List ValType) : Option Operands := s.popEach types.reverse

/-- The stack behind an instruction that never falls through. -/
def unreached : Operands := ⟨[], true⟩

/-- Whether the stack holds values of some types, the last one on top, and no more. -/
def holds (s : Operands) (types : List ValType) : Bool :=
  match s.popAll types with
  | some s => s.types.isEmpty
  | none => false

end Operands

/-- The operands and the results of a block. -/
def BlockType.type? (types : List FuncType) : BlockType → Option FuncType
  | .empty => some ⟨[], []⟩
  | .value type => some ⟨[], [type]⟩
  | .index i => types[i]?

/-- Whether an access is to a memory that is there, promises at most the natural alignment of its
width, and has an offset of 32 bits. -/
def MemArg.isValid (a : MemArg) (c : Context) (width : Nat) : Bool :=
  c.hasMemory && a.memory == 0 && a.align ≤ width.log2 && a.offset < UInt32.size

/-- Whether there is a memory of that number. -/
def Context.isMemory (c : Context) (memory : Nat) : Bool := c.hasMemory && memory == 0

/-- The type of the result of a choice between two operands: both are numbers of one type. -/
def selectType? : Option ValType → Option ValType → Option (Option ValType)
  | none, none => some none
  | some (.num type), none => some (some (.num type))
  | none, some (.num type) => some (some (.num type))
  | some (.num type), some (.num type') =>
    if type = type' then some (some (.num type)) else none
  | _, _ => none

/-- The operands after an instruction that is no block. -/
def Plain.type? (c : Context) (s : Operands) : Plain → Option Operands
  | .unreachable => some .unreached
  | .nop => some s
  | .br label =>
    match c.labels[label]? with
    | some types => (s.popAll types).map fun _ => .unreached
    | none => none
  | .brIf label =>
    match c.labels[label]?, s.pop .i32 with
    | some types, some s => (s.popAll types).map fun s => s.pushAll types
    | _, _ => none
  | .ret => (s.popAll c.results).map fun _ => .unreached
  | .call f =>
    match c.functions[f]? with
    | some type => (s.popAll type.params).map fun s => s.pushAll type.results
    | none => none
  | .drop => s.popAny.map fun (_, s) => s
  | .select =>
    match s.pop .i32 with
    | none => none
    | some s =>
      match s.popAny with
      | none => none
      | some (a, s) =>
        match s.popAny with
        | none => none
        | some (b, s) => (selectType? a b).map fun type => { s with types := type :: s.types }
  | .localGet i => c.locals[i]?.map s.push
  | .localSet i => c.locals[i]?.bind s.pop
  | .localTee i => c.locals[i]?.bind fun type => (s.pop type).map fun s => s.push type
  | .globalGet i => c.globals[i]?.map fun g => s.push g.1
  | .globalSet i => c.globals[i]?.bind fun g => if g.2 then s.pop g.1 else none
  | .const v => some (s.push (.num v.type))
  | .refNull type => some (s.push (.ref type))
  | .load op arg =>
    if arg.isValid c op.width then (s.pop .i32).map fun s => s.push (.num op.type) else none
  | .store op arg =>
    if arg.isValid c op.width then s.popAll [.i32, .num op.type] else none
  | .memorySize memory => if c.isMemory memory then some (s.push .i32) else none
  | .memoryGrow memory =>
    if c.isMemory memory then (s.pop .i32).map fun s => s.push .i32 else none
  | .memoryCopy target source =>
    if c.isMemory target && c.isMemory source then s.popAll [.i32, .i32, .i32] else none
  | .num op => (s.popAll (op.operands.map .num)).map fun s => s.push (.num op.result)

/-- The context inside a block whose label carries some types. -/
def Context.inside (c : Context) (label : List ValType) : Context :=
  { c with labels := label :: c.labels }

mutual

/-- The operands after an instruction. -/
def Instr.type? (c : Context) (s : Operands) : Instr → Option Operands
  | .plain p => p.type? c s
  | .block type body =>
    match type.type? c.types with
    | none => none
    | some t =>
      match s.popAll t.params with
      | none => none
      | some s =>
        match typeCode? (c.inside t.results) ((⟨[], false⟩ : Operands).pushAll t.params) body with
        | some inner => if inner.holds t.results then some (s.pushAll t.results) else none
        | none => none
  | .loop type body =>
    match type.type? c.types with
    | none => none
    | some t =>
      match s.popAll t.params with
      | none => none
      | some s =>
        match typeCode? (c.inside t.params) ((⟨[], false⟩ : Operands).pushAll t.params) body with
        | some inner => if inner.holds t.results then some (s.pushAll t.results) else none
        | none => none
  | .cond type yes no =>
    match type.type? c.types with
    | none => none
    | some t =>
      match (s.pop .i32).bind fun s => s.popAll t.params with
      | none => none
      | some s =>
        match typeCode? (c.inside t.results) ((⟨[], false⟩ : Operands).pushAll t.params) yes,
          typeCode? (c.inside t.results) ((⟨[], false⟩ : Operands).pushAll t.params) no with
        | some y, some n =>
          if y.holds t.results && n.holds t.results then some (s.pushAll t.results) else none
        | _, _ => none

/-- The operands after some code. -/
def typeCode? (c : Context) (s : Operands) : List Instr → Option Operands
  | [] => some s
  | i :: rest =>
    match i.type? c s with
    | some s => typeCode? c s rest
    | none => none

end

/-- Whether code is the body of a function with the results of a context. -/
def checkBody (c : Context) (code : List Instr) : Bool :=
  match typeCode? (c.inside c.results) ⟨[], false⟩ code with
  | some s => s.holds c.results
  | none => false

end GuestCall.Wasm
