/-
# The sample guests

Small guests that make use of every kind of parameter and result.

Key definitions:
* `Sample`, with `Sample.ofName?`;
* `Sample.draft` and `Sample.bytes`.
-/
import GuestCall.Sample.Faults
import GuestCall.Sample.Fibonacci
import GuestCall.Sample.Truth

namespace GuestCall

/-- The sample guests. -/
inductive Sample where
  | truth
  | fibonacci
  | greeting
  | sums
  | faults
  /-- A guest whose signature and function do not agree, which cannot be bound. -/
  | mismatched
  deriving DecidableEq

namespace Sample

/-- Every sample guest. -/
def every : List Sample := [.truth, .fibonacci, .greeting, .sums, .faults, .mismatched]

/-- The name of a sample guest. -/
def name : Sample → String
  | .truth => "boolean_test"
  | .fibonacci => "fibonacci"
  | .greeting => "hello_world_strings"
  | .sums => "simple_summation"
  | .faults => "diagnostics"
  | .mismatched => "mismatched_metadata"

/-- The sample guest of a name. -/
def ofName? (name : String) : Option Sample := every.find? (·.name == name)

/-- A draft with some more functions and their signatures. -/
def addAll (d : Draft) : List (Signature × Wasm.Body) → Except DraftError Draft
  | [] => .ok d
  | (s, body) :: rest =>
    match d.addTyped s body with
    | .ok (_, d) => addAll d rest
    | .error e => .error e

/-- The draft with greetings. -/
def greetingDraft : Except DraftError Draft :=
  let (hello, d) := Draft.empty.intern Greeting.everyone.toUTF8.data.toList
  let (front, d) := d.intern Greeting.opening.toUTF8.data.toList
  addAll d (Greeting.exports hello front)

/-- The draft with faults. -/
def faultsDraft : Except DraftError Draft :=
  let (text, d) := Draft.empty.intern Faults.noText
  let (number, d) := d.intern Faults.noNumber.toUTF8.data.toList
  match addAll d (Faults.exports text number) with
  | .error e => .error e
  | .ok d =>
    (d.addFunction "add" (Draft.wordType 2 1) (Faults.binary .i32Add)).map fun added => added.2

/-- The draft with a signature that does not fit. -/
def mismatchedDraft : Except DraftError Draft :=
  match Draft.empty.declare Faults.mismatched with
  | .error e => .error e
  | .ok d => (d.addFunction "sum" (Draft.wordType 1 1) Faults.identity).map fun added => added.2

/-- The draft of a sample guest. -/
def draft : Sample → Except DraftError Draft
  | .truth => addAll .empty Truth.exports
  | .fibonacci => addAll .empty Fibonacci.exports
  | .greeting => greetingDraft
  | .sums => addAll .empty Sums.exports
  | .faults => faultsDraft
  | .mismatched => mismatchedDraft

/-- The bytes of a sample guest. -/
def bytes (s : Sample) : Except DraftError (List UInt8) :=
  match s.draft with
  | .ok d => d.finish
  | .error e => .error e

end Sample

end GuestCall
