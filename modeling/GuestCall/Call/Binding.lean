/-
# Bindings

A binding is an instance with a plan for each of its wrapped exports and a ledger of the buffers
that calls take. A call checks its arguments, passes them, runs the export, copies arrays back,
decodes the result, and then gives every buffer back, whatever happened before.

Key definitions:
* `Binding`, and `Binding.ofInstance`, which plans an instance;
* `Plan.check`, which looks at the arguments;
* `Plan.perform`, a call but for giving buffers back;
* `Binding.call`.
-/
import GuestCall.Call.Passing
import GuestCall.Call.Plan
import GuestCall.Call.Result

namespace GuestCall

/-- Checks arguments one after the other, the first of them at some index. -/
def checkArguments (exportName : String) :
    Nat → List ParamKind → List Argument → Except BindError Unit
  | index, param :: params, a :: arguments =>
    match a.check exportName index param with
    | .ok _ => checkArguments exportName (index + 1) params arguments
    | .error e => .error e
  | _, _, _ => .ok ()

/-- Checks the array that a legacy call writes its result into, at some index. -/
def checkOutput (exportName : String) (index : Nat) (kind : ScalarKind) :
    Option Argument → Except BindError Unit
  | some (.inPlace items) =>
    if items.kind = kind then .ok ()
    else
      .error (.argumentMismatch exportName (.outputArray index kind (.mutableArray items.kind)))
  | some (.byValue v) =>
    .error (.argumentMismatch exportName (.outputArray index kind (.ofKind v.kind)))
  | none => .ok ()

/-- Passes arguments one after the other. -/
def passArguments (style : AccessStyle) (exportName : String) :
    List (ParamKind × Argument) → Action Instance (List Passed)
  | [] => return []
  | (param, a) :: rest => do
    let passed ← passArgument style exportName param a
    let others ← passArguments style exportName rest
    return passed :: others

/-- Copies the arrays of in-place parameters back, one after the other, up to the first that fails.
The result has all arguments as they are then. -/
def copyBackAll (style : AccessStyle) :
    List (ParamKind × Passed) → List Argument → Books Instance →
      Except BindError Unit × List Argument × Books Instance
  | (.sliceMut _, ⟨_, some h⟩) :: rest, .inPlace items :: arguments, b =>
    match copyBack style h items b with
    | (.error e, items, b) => (.error e, .inPlace items :: arguments, b)
    | (.ok _, items, b) =>
      match copyBackAll style rest arguments b with
      | (result, arguments, b) => (result, .inPlace items :: arguments, b)
  | _ :: rest, a :: arguments, b =>
    match copyBackAll style rest arguments b with
    | (result, arguments, b) => (result, a :: arguments, b)
  | _, arguments, b => (.ok (), arguments, b)

/-- Puts the result of a legacy call into the last argument. -/
def deliver (exportName : String) (v : Value) : List Argument → Except BindError Value × List Argument
  | [.inPlace target] =>
    match v with
    | .array items =>
      match target.assign items with
      | .ok target => (.ok .unit, [.inPlace target])
      | .error e => (.error (.encoding exportName (.note e.message)), [.inPlace target])
    | _ => (.error (.encoding exportName .noArray), [.inPlace target])
  | a :: b :: rest =>
    match deliver exportName v (b :: rest) with
    | (result, arguments) => (result, a :: arguments)
  | arguments => (.error (.encoding exportName .noArray), arguments)

namespace Plan

/-- Checks the arguments of a call. -/
def check (p : Plan) (arguments : List Argument) : Except BindError Unit :=
  let s := p.signature
  if arguments.length = s.hostArity then
    match checkArguments p.exportName 0 s.params arguments with
    | .error e => .error e
    | .ok _ =>
      match s.convention, s.ret with
      | .standard, _ => .ok ()
      | .legacyOutParam, .vec kind =>
        checkOutput p.exportName s.params.length kind arguments[s.params.length]?
      | .legacyOutParam, _ =>
        .error (.invalidSignature p.exportName (.note "legacy output needs a Vec return"))
  else .error (.argumentMismatch p.exportName (.arity s arguments.length))

/-- Runs the export with arguments that are passed, and brings home what it did: the result, and
the arguments as they are afterwards. -/
def finish (p : Plan) (style : AccessStyle) (passed : List Passed) (arguments : List Argument)
    (b : Books Instance) : Except BindError Value × List Argument × Books Instance :=
  match Action.onGuest (Instance.call p.exportName (passed.flatMap (·.raw))) b with
  | (.error e, b) => (.error e, arguments, b)
  | (.ok raw, b) =>
    match copyBackAll style (p.signature.params.zip passed) arguments b with
    | (.error e, arguments, b) => (.error e, arguments, b)
    | (.ok _, arguments, b) =>
      match decodeResult style p.exportName p.signature.ret raw b with
      | (.error e, b) => (.error e, arguments, b)
      | (.ok v, b) =>
        if p.signature.isLegacy then
          match deliver p.exportName v arguments with
          | (result, arguments) => (result, arguments, b)
        else (.ok v, arguments, b)

/-- A call with checked arguments. Its buffers stay in the ledger. -/
def perform (p : Plan) (style : AccessStyle) (arguments : List Argument) (b : Books Instance) :
    Except BindError Value × List Argument × Books Instance :=
  match passArguments style p.exportName (p.signature.params.zip arguments) b with
  | (.error e, b) => (.error e, arguments, b)
  | (.ok passed, b) => p.finish style passed arguments b

/-- A call. Every buffer is given back at its end; where that fails too, the error of the call
itself is the one that counts. -/
def call (p : Plan) (style : AccessStyle) (arguments : List Argument) (b : Books Instance) :
    Except BindError Value × List Argument × Books Instance :=
  match p.check arguments with
  | .error e => (.error e, arguments, b)
  | .ok _ =>
    match p.perform style arguments b with
    | (result, arguments, b) =>
      match Ledger.releaseAll b, result with
      | (_, b), .error e => (.error e, arguments, b)
      | (.error e, b), .ok _ => (.error e, arguments, b)
      | (.ok _, b), .ok v => (.ok v, arguments, b)

end Plan

/-- An instance whose wrapped exports can be called with host values. -/
structure Binding where
  style : AccessStyle
  /-- The plans by the names that the host uses, sorted. -/
  plans : List (String × Plan)
  books : Books Instance

namespace Binding

/-- Plans every wrapped export of an instance. -/
def ofInstance (i : Instance) (c : Config) : Except BindError Binding :=
  match Plan.ofModule i.module c.exportMark with
  | .ok plans => .ok ⟨c.accessStyle, plans, ⟨.empty, i⟩⟩
  | .error e => .error e

/-- The plan of a name. -/
def plan? (d : Binding) (name : String) : Option Plan :=
  (d.plans.find? fun p => p.1 == name).map fun p => p.2

/-- A call of a wrapped export: the result, the arguments as they are afterwards, and the binding
after it. -/
def call (name : String) (arguments : List Argument) :
    Binding → Except BindError Value × List Argument × Binding
  | ⟨style, plans, books⟩ =>
    match (plans.find? fun p => p.1 == name) with
    | none => (.error (.exportNotFound name), arguments, ⟨style, plans, books⟩)
    | some (_, plan) =>
      match plan.call style arguments books with
      | (result, arguments, books) => (result, arguments, ⟨style, plans, books⟩)

/-- A call with values only. -/
def invoke (name : String) (values : List Value) (d : Binding) : Except BindError Value × Binding :=
  match d.call name (values.map .byValue) with
  | (result, _, d) => (result, d)

/-- The instance of a binding. -/
def toInstance (d : Binding) : Instance := d.books.guest

/-- The text of a binding, for whoever looks into it. -/
def debugText (d : Binding) : String :=
  "Dispatcher \x7b instance: " ++ d.toInstance.debugText ++ ", exports: [" ++
    ", ".intercalate (d.plans.map fun p => quoted p.1) ++ "] \x7d"

end Binding

end GuestCall
