/-
# Arguments

A caller passes an argument by value or lends an array that the call may write into. Before anything
happens in the guest, each argument is checked against what the parameter asks for.

Key definitions:
* `Argument`, with `Argument.array?`;
* `Argument.mismatch?`, what stands in the way of an argument;
* `Argument.check`.
-/
import GuestCall.Error

namespace GuestCall

/-- An argument of a call. -/
inductive Argument where
  | byValue (v : Value)
  /-- An array of the caller, which the call may write into. -/
  | inPlace (items : ScalarArray)
  deriving DecidableEq

namespace Argument

/-- The array of an argument, passed either way. -/
def array? : Argument → Option ScalarArray
  | .byValue v => v.array?
  | .inPlace items => some items

/-- The words for an argument of the wrong form. -/
def found : Argument → Found
  | .byValue v => .ofKind v.kind
  | .inPlace items => .mutableArray items.kind

/-- What stands in the way of an argument that has to be an array of a kind. -/
def arrayMismatch? (kind : ScalarKind) (a : Argument) : Option Found :=
  match a.array? with
  | some items => if items.kind = kind then none else some (.arrayOf items.kind)
  | none => some a.found

/-- What stands in the way of an argument. -/
def mismatch? : ParamKind → Argument → Option Found
  | .scalar kind, .byValue v =>
    match Scalar.ofValue? kind v with
    | some _ => none
    | none => some (.value v)
  | .str, .byValue (.str _) => none
  | .slice kind, a => a.arrayMismatch? kind
  | .sliceMut kind, .inPlace items => (inPlace items).arrayMismatch? kind
  | .vec kind, .byValue v => (byValue v).arrayMismatch? kind
  | _, a => some a.found

/-- Checks the argument of some index, without touching the guest. -/
def check (exportName : String) (index : Nat) (param : ParamKind) (a : Argument) :
    Except BindError Unit :=
  match mismatch? param a with
  | none => .ok ()
  | some found => .error (.argumentMismatch exportName (.argument index param found))

end Argument

end GuestCall
