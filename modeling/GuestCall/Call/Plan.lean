/-
# Call plans

A plan says how one wrapped export is called. Its signature is the one that the module declares, or
is derived from the machine types of the export, which are then all taken for scalars. A plan is
only made if the signature lowers to the type that the export really has.

Key definitions:
* `Plan`, with `Plan.make`;
* `Signature.ofShape`, the signature that machine types stand for;
* `Plan.ofExport`, the plan of an export that the host calls by a name;
* `Plan.ofModule`, the plans of a module.
-/
import GuestCall.Guest.Module

namespace GuestCall

/-- The rest of a name behind a mark that it starts with. -/
def unmarked? (mark name : String) : Option String :=
  if mark.toList.isPrefixOf name.toList then some (String.ofList (name.toList.drop mark.length))
  else none

/-- Where the signature of a plan comes from. -/
inductive PlanSource where
  /-- The module declares it. -/
  | metadata
  /-- It is derived from the machine types. -/
  | convention
  deriving DecidableEq

/-- How a wrapped export is called. -/
structure Plan where
  signature : Signature
  /-- The full name of the export. -/
  exportName : String
  source : PlanSource
  deriving DecidableEq

/-- The signature of an export whose machine types stand for scalars. -/
def Signature.ofShape (exportName name : String) (shape : ExportShape) :
    Except BindError Signature :=
  let params := shape.params.map fun type => ParamKind.scalar type.kind
  match shape.results with
  | [] => .ok ⟨name, params, .unit, .standard⟩
  | [type] => .ok ⟨name, params, .scalar type.kind, .standard⟩
  | types => .error (.invalidSignature exportName (.manyResults types.length))

namespace Plan

/-- The plan of an export, if its signature obeys the rules and lowers to its shape. -/
def make (exportName : String) (signature : Signature) (source : PlanSource)
    (shape : ExportShape) : Except BindError Plan :=
  match signature.check with
  | .error e => .error (.invalidSignature exportName (.declaration e))
  | .ok _ =>
    if signature.shape = shape then .ok ⟨signature, exportName, source⟩
    else .error (.invalidSignature exportName (.lowering signature shape))

/-- The places of the parameters for which something holds. -/
def slots (p : Plan) (holds : ParamKind → Bool) : List Nat :=
  (p.signature.params.zipIdx.filter fun param => holds param.1).map fun param => param.2

/-- The places of the parameters that need a buffer. -/
def bufferSlots (p : Plan) : List Nat := p.slots ParamKind.needsAllocation

/-- The places of the parameters that are copied back. -/
def inPlaceSlots (p : Plan) : List Nat := p.slots ParamKind.isInPlace

/-- The name by which the host calls an export of a module, if it is wrapped. The exports that serve
the host itself are not. -/
def hostName? (mark : String) (f : ExportedFunction) : Option String :=
  if (unmarked? builtinMark f.name).isSome then none else unmarked? mark f.name

/-- The plan of an export that the host calls by some name. -/
def ofExport (m : GuestModule) (f : ExportedFunction) (name : String) : Except BindError Plan :=
  match m.declared? name with
  | some signature => make f.name signature .metadata f.shape
  | none =>
    match Signature.ofShape f.name name f.shape with
    | .ok signature => make f.name signature .convention f.shape
    | .error e => .error e

/-- The plans of some exports of a module, each with the name by which the host calls it. The first
export that has none is an error. -/
def ofExports (m : GuestModule) (mark : String) :
    List ExportedFunction → Except BindError (List (String × Plan))
  | [] => .ok []
  | f :: rest =>
    match hostName? mark f with
    | none => ofExports m mark rest
    | some name =>
      match ofExport m f name with
      | .error e => .error e
      | .ok plan => (ofExports m mark rest).map fun plans => (name, plan) :: plans

/-- The first signature of a module for which there is no plan. -/
def orphan? (m : GuestModule) (plans : List (String × Plan)) : Option Signature :=
  match m.table? with
  | some table => table.exports.find? fun s => !plans.any fun p => p.1 == s.name
  | none => none

/-- The plans of all wrapped exports of a module, sorted by name. Every signature that the module
declares has to belong to one. -/
def ofModule (m : GuestModule) (mark : String) : Except BindError (List (String × Plan)) :=
  match ofExports m mark m.exports with
  | .error e => .error e
  | .ok plans =>
    match orphan? m plans with
    | some s => .error (.invalidSignature (mark ++ s.name) .notExported)
    | none => .ok plans

end Plan

end GuestCall
