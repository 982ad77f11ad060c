/-
# Pieces of guest code

Short names for the instructions that guests are written with, and the pieces of code that many
functions share.

Key definitions:
* `Code.val`, `Code.put`, `Code.word` and the like, single instructions;
* `Code.forEach`, a counted loop;
* `Code.elementAt`, the address of an element;
* `Wasm.Body.ofCode`, the body of a function.
-/
import GuestCall.Wasm.Module

namespace GuestCall

open Wasm

/-- The body of a function from the types of its own locals and its code. -/
def Wasm.Body.ofCode (locals : List ValType) (code : List Instr) : Body :=
  ⟨locals.map fun type => (1, type), Instr.flatten code ++ [.close]⟩

namespace Code

/-- A constant word, given as a signed number. -/
def word (n : Int) : Instr := .plain (.const (.i32 (Int32.ofInt n).toUInt32))

/-- A constant double word, given as a signed number. -/
def long (n : Int) : Instr := .plain (.const (.i64 (Int64.ofInt n).toUInt64))

/-- A constant float, given by its bits. -/
def double (bits : UInt64) : Instr := .plain (.const (.f64 ⟨bits⟩))

/-- The value of a local. -/
def val (i : Nat) : Instr := .plain (.localGet i)

/-- Sets a local. -/
def put (i : Nat) : Instr := .plain (.localSet i)

/-- Sets a local and keeps the value. -/
def tee (i : Nat) : Instr := .plain (.localTee i)

/-- The value of a global. -/
def global (i : Nat) : Instr := .plain (.globalGet i)

/-- Sets a global. -/
def putGlobal (i : Nat) : Instr := .plain (.globalSet i)

/-- An operator on numbers. -/
def num (op : NumOp) : Instr := .plain (.num op)

/-- The sum of two words. -/
def add : Instr := num .i32Add

/-- The difference of two words. -/
def sub : Instr := num .i32Sub

/-- The bits that two words share. -/
def bits : Instr := num .i32And

/-- A call. -/
def call (f : Nat) : Instr := .plain (.call f)

/-- Returns. -/
def ret : Instr := .plain .ret

/-- A branch to a label. -/
def branch (label : Nat) : Instr := .plain (.br label)

/-- A branch to a label on a condition. -/
def branchIf (label : Nat) : Instr := .plain (.brIf label)

/-- Code that is run on a condition. -/
def when (code : List Instr) : Instr := .cond .empty code []

/-- A load with the natural alignment, given as a logarithm. -/
def load (op : LoadOp) (align : Nat) : Instr := .plain (.load op ⟨0, align, 0⟩)

/-- A store at an offset with the natural alignment, given as a logarithm. -/
def store (op : StoreOp) (offset align : Nat) : Instr := .plain (.store op ⟨offset, align, 0⟩)

/-- A copy inside the memory. -/
def copy : Instr := .plain (.memoryCopy 0 0)

/-- Returns zero on a condition. -/
def returnZeroIf : Instr := when [word 0, ret]

/-- The address of an element: its index, shifted by the logarithm of its width, behind a base. -/
def elementAt (base index shift : Nat) : List Instr :=
  [val base, val index] ++ (if 0 < shift then [word shift, num .i32Shl] else []) ++ [add]

/-- Runs code with a counter from zero up to a length, the counter being a local of its own. -/
def forEach (counter length : Nat) (code : List Instr) : List Instr :=
  [word 0, put counter,
    .block .empty [
      .loop .empty (
        [val counter, val length, num .i32GeU, branchIf 1] ++ code ++
          [val counter, word 1, add, put counter, branch 0])]]

end Code

end GuestCall
