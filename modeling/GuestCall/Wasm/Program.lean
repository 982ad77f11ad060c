/-
# Programs

A program is a module that passed every check, with its function bodies structured and their
locals spelled out. It is what instances are made of.

Key definitions:
* `Program` and `Function`;
* `Module.program?`, the program of a module, if it is valid;
* `Program.ofBytes?`, the program that some bytes keep.
-/
import GuestCall.Memory.Basic
import GuestCall.Wasm.Reader
import GuestCall.Wasm.Typing

namespace GuestCall.Wasm

/-- A function: its type, the types of its own locals, and its code. -/
structure Function where
  type : FuncType
  locals : List ValType
  code : List Instr

/-- A valid module. The functions and globals that it imports come first in the index spaces. -/
structure Program where
  types : List FuncType
  imports : List Import
  /-- The types of all functions, imported ones first. -/
  signatures : List FuncType
  functions : List Function
  memory? : Option Limits
  globals : List Global
  exports : List Export
  start? : Option Nat
  segments : List Segment
  customs : List Custom

/-- The most locals of a function, its operands among them. -/
def localLimit : Nat := 50000

namespace Module

/-- The types of the functions that are imported. -/
def importedFunctions? (m : Module) : Option (List FuncType) :=
  (m.imports.filterMap fun i =>
    match i.type with
    | .function type => some type
    | _ => none).mapM fun type => m.types[type]?

/-- The types of the functions of the module itself. -/
def ownFunctions? (m : Module) : Option (List FuncType) :=
  m.functions.mapM fun type => m.types[type]?

/-- The globals that are imported. -/
def importedGlobals (m : Module) : List GlobalType :=
  m.imports.filterMap fun i =>
    match i.type with
    | .global type => some type
    | _ => none

/-- All globals. -/
def globalTypes (m : Module) : List GlobalType := m.importedGlobals ++ m.globals.map (·.type)

/-- All memories. -/
def allMemories (m : Module) : List Limits :=
  (m.imports.filterMap fun i =>
    match i.type with
    | .memory limits => some limits
    | _ => none) ++ m.memories

/-- Whether limits are in order and within what addresses reach. -/
def limitsAreValid (l : Limits) : Bool :=
  l.min ≤ pageCeiling &&
    match l.max? with
    | some max => max ≤ pageCeiling && l.min ≤ max
    | none => true

/-- Whether a constant expression has a type. Only an imported global that never changes is a
constant. -/
def constIs (m : Module) (type : ValType) : ConstExpr → Bool
  | .value v => .num v.type = type
  | .null t => .ref t = type
  | .global i =>
    match m.importedGlobals[i]? with
    | some g => g.type = type && !g.isMutable
    | none => false

/-- Whether an export refers to something that is there. -/
def exportIsValid (m : Module) (functions : List FuncType) (e : Export) : Bool :=
  match e.kind with
  | .function => e.index < functions.length
  | .table => false
  | .memory => e.index < m.allMemories.length
  | .global => e.index < m.globalTypes.length

/-- Whether the start function takes and returns nothing. -/
def startIsValid (m : Module) (functions : List FuncType) : Bool :=
  match m.start? with
  | some f => functions[f]? = some ⟨[], []⟩
  | none => true

/-- Whether a segment can be placed: there is a memory, and its place is a word. -/
def segmentIsValid (m : Module) (s : Segment) : Bool :=
  match s.offset? with
  | some offset => !m.allMemories.isEmpty && m.constIs .i32 offset
  | none => true

/-- Everything but the function bodies. -/
def outlineIsValid (m : Module) (functions : List FuncType) : Bool :=
  m.allMemories.length ≤ 1 && m.allMemories.all limitsAreValid &&
    m.globals.all (fun g => m.constIs g.type.type g.init) &&
    m.exports.all (m.exportIsValid functions) && decide ((m.exports.map (·.name)).Nodup) &&
    m.startIsValid functions && m.segments.all m.segmentIsValid &&
    m.functions.length == m.bodies.length

/-- What the code of the module may refer to, labels and locals apart. -/
def context (m : Module) (functions : List FuncType) (type : FuncType) (locals : List ValType) :
    Context :=
  { types := m.types, functions, globals := m.globalTypes.map fun g => (g.type, g.isMutable)
    locals := type.params ++ locals, hasMemory := !m.allMemories.isEmpty, labels := []
    results := type.results }

/-- How many locals some groups have. -/
def localCount (groups : List (Nat × ValType)) : Nat :=
  groups.foldr (fun group count => group.1 + count) 0

/-- The function of a body, if its code has the type. -/
def function? (m : Module) (functions : List FuncType) (type : FuncType) (body : Body) :
    Option Function :=
  if type.params.length + localCount body.locals ≤ localLimit then
    let locals := body.locals.flatMap fun group => List.replicate group.1 group.2
    match Op.structure? body.ops with
    | some code =>
      if checkBody (m.context functions type locals) code then some ⟨type, locals, code⟩ else none
    | none => none
  else none

/-- The program of a module, if it is valid. -/
def program? (m : Module) : Option Program :=
  match m.importedFunctions?, m.ownFunctions? with
  | some imported, some own =>
    let all := imported ++ own
    if m.outlineIsValid all then
      match (own.zip m.bodies).mapM fun (type, body) => m.function? all type body with
      | some functions =>
        some ⟨m.types, m.imports, all, functions, m.allMemories.head?, m.globals, m.exports,
          m.start?, m.segments, m.customs⟩
      | none => none
    else none
  | _, _ => none

end Module

/-- The program that some bytes keep. -/
def Program.ofBytes? (bytes : List UInt8) : Option Program :=
  (Module.ofBytes? bytes).bind Module.program?

/-- The type of the function that is exported under a name. -/
def Program.functionType? (p : Program) (e : Export) : Option FuncType :=
  match e.kind with
  | .function => p.signatures[e.index]?
  | _ => none

/-- The contents of the first custom section of a name. -/
def Program.custom? (p : Program) (name : String) : Option (List UInt8) :=
  (p.customs.find? (·.name == name)).map (·.contents)

end GuestCall.Wasm
