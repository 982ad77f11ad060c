/-
# Running code step by step

How the pieces of code that guests are put together from run. A step of the machine is an equation
about code that starts with the piece: what is left of the code is resumed with what the piece left
on the stack. Simplification applies these equations one after the other until the code branches on
something that is not known. Loops are not unrolled: a loop has a rule that asks for an invariant and
a number of rounds that goes down.

Key definition: `resume`, going on with the rest of some code.
Key theorems: `runCode_cons`, `iterate_ends`, `runs_forEach`.
-/
import GuestCall.Draft.Code
import GuestCall.Wasm.Machine
import Mathlib.Algebra.Group.Nat.Defs

namespace GuestCall.Wasm

open Code

/-- Goes on with the rest of some code, unless a piece of it did not fall through. -/
def resume (env : Env) (rest : List Instr) : Outcome → Outcome
  | .next stack locals store => runCode env rest stack locals store
  | other => other

variable {env : Env} {code rest : List Instr} {stack locals : List Val} {st : Store}

@[simp] theorem runCode_nil : runCode env [] stack locals st = .next stack locals st := by
  rw [runCode]

@[simp] theorem runCode_cons (i : Instr) : runCode env (i :: rest) stack locals st =
    resume env rest (i.run env stack locals st) := by
  rw [runCode]
  cases i.run env stack locals st <;> rfl

@[simp] theorem resume_next :
    resume env rest (.next stack locals st) = runCode env rest stack locals st := rfl

@[simp] theorem resume_branch (label : Nat) :
    resume env rest (.branch label stack locals st) = .branch label stack locals st := rfl

@[simp] theorem resume_ret : resume env rest (.ret stack st) = .ret stack st := rfl

@[simp] theorem resume_trap (cause : Trap) : resume env rest (.trap cause st) = .trap cause st := rfl

@[simp] theorem resume_ite {c : Prop} [Decidable c] (a b : Outcome) :
    resume env rest (if c then a else b) = if c then resume env rest a else resume env rest b :=
  apply_ite ..

theorem runCode_append : runCode env (code ++ rest) stack locals st =
    resume env rest (runCode env code stack locals st) := by
  induction code generalizing stack locals st with
  | nil => rw [List.nil_append, runCode_nil, resume_next]
  | cons i code ih =>
    rw [List.cons_append, runCode_cons, runCode_cons]
    cases i.run env stack locals st with
    | next => exact ih
    | branch | ret | trap => rfl

/-! ### Constants -/

theorem toUInt32_ofInt (n : Int) : (Int32.ofInt n).toUInt32 = UInt32.ofInt n := by
  apply UInt32.toBitVec_inj.mp
  apply BitVec.eq_of_toNat_eq
  simp [UInt32.ofInt]
  omega

theorem toUInt64_ofInt (n : Int) : (Int64.ofInt n).toUInt64 = UInt64.ofInt n := by
  apply UInt64.toBitVec_inj.mp
  apply BitVec.eq_of_toNat_eq
  simp [UInt64.ofInt]
  omega

@[simp] theorem ofInt_natCast32 (n : Nat) : UInt32.ofInt n = UInt32.ofNat n := by
  apply UInt32.toNat_inj.mp
  simp [UInt32.ofInt]
  omega

@[simp] theorem ofInt_natCast64 (n : Nat) : UInt64.ofInt n = UInt64.ofNat n := by
  apply UInt64.toNat_inj.mp
  simp [UInt64.ofInt]
  omega

@[simp] theorem ofInt_literal32 (n : Nat) :
    UInt32.ofInt (no_index (OfNat.ofNat n)) = OfNat.ofNat n := ofInt_natCast32 n

@[simp] theorem ofInt_literal64 (n : Nat) :
    UInt64.ofInt (no_index (OfNat.ofNat n)) = OfNat.ofNat n := ofInt_natCast64 n

/-! ### Single instructions -/

attribute [simp] add sub bits NumOp.run StoreOp.bytes? StoreOp.width LoadOp.width

@[simp] theorem truth_eq_zero (b : Bool) : truth b = 0 ↔ b = false := by cases b <;> decide

@[simp] theorem Store.size_write (address : Nat) (source : ByteArray) :
    (st.write address source).memory.size = st.memory.size := Memory.size_write ..

@[simp] theorem run_word (n : Int) : (word n).run env stack locals st =
    .next (.i32 (UInt32.ofInt n) :: stack) locals st := by
  rw [← toUInt32_ofInt]
  rfl

@[simp] theorem run_long (n : Int) : (long n).run env stack locals st =
    .next (.i64 (UInt64.ofInt n) :: stack) locals st := by
  rw [← toUInt64_ofInt]
  rfl

@[simp] theorem run_val (i : Nat) : (val i).run env stack locals st =
    match locals[i]? with
    | some v => .next (v :: stack) locals st
    | none => .trap .malformed st := rfl

@[simp] theorem run_put (i : Nat) (v : Val) : (put i).run env (v :: stack) locals st =
    .next stack (locals.set i v) st := congrArg (Outcome.next stack · st) (putAt_eq_set ..)

@[simp] theorem run_tee (i : Nat) (v : Val) : (tee i).run env (v :: stack) locals st =
    .next (v :: stack) (locals.set i v) st :=
  congrArg (Outcome.next (v :: stack) · st) (putAt_eq_set ..)

@[simp] theorem run_global (i : Nat) : (global i).run env stack locals st =
    match st.globals[i]? with
    | some v => .next (v :: stack) locals st
    | none => .trap .malformed st := rfl

@[simp] theorem run_putGlobal (i : Nat) (v : Val) :
    (putGlobal i).run env (v :: stack) locals st = .next stack locals (st.setGlobal i v) := rfl

@[simp] theorem run_num (op : NumOp) : (num op).run env stack locals st =
    match op.run stack with
    | .ok stack => .next stack locals st
    | .error cause => .trap cause st := rfl

@[simp] theorem run_select (c : UInt32) (v w : UInt64) :
    (Instr.plain .select).run env (.i32 c :: .i64 w :: .i64 v :: stack) locals st =
      .next (.i64 (if c = 0 then w else v) :: stack) locals st := by
  rw [apply_ite Val.i64]
  rfl

@[simp] theorem run_memorySize : (Instr.plain (.memorySize 0)).run env stack locals st =
    .next (.i32 st.memory.pages.toUInt32 :: stack) locals st := rfl

@[simp] theorem run_memoryGrow : (Instr.plain (.memoryGrow 0)).run env stack locals st =
    runGrow stack locals st := rfl

@[simp] theorem run_ret : ret.run env stack locals st = .ret stack st := rfl

@[simp] theorem run_when (c : UInt32) : (when code).run env (.i32 c :: stack) locals st =
    if c = 0 then .next stack locals st
    else (runCode env code [] locals st).leave 0 stack := by
  simp only [when, Instr.run, BlockType.arity, runCode_nil, List.take_zero, List.drop_zero]
  rfl

@[simp] theorem run_returnZeroIf (c : UInt32) :
    returnZeroIf.run env (.i32 c :: stack) locals st =
      if c = 0 then .next stack locals st else .ret [.i32 0] st := by
  rw [returnZeroIf, run_when]
  rfl

@[simp] theorem run_branch (label : Nat) :
    (branch label).run env stack locals st = .branch label stack locals st := rfl

@[simp] theorem run_branchIf (label : Nat) (c : UInt32) :
    (branchIf label).run env (.i32 c :: stack) locals st =
      if c = 0 then .next stack locals st else .branch label stack locals st := rfl

@[simp] theorem run_load (op : LoadOp) (align : Nat) (base : UInt32) :
    (load op align).run env (.i32 base :: stack) locals st =
      if base.toNat + op.width ≤ st.memory.size then
        .next (op.read st.memory base.toNat :: stack) locals st
      else .trap .outOfBounds st := rfl

@[simp] theorem run_store (op : StoreOp) (offset align : Nat) (v : Val) (base : UInt32) :
    (store op offset align).run env (v :: .i32 base :: stack) locals st =
      match op.bytes? v with
      | some bytes =>
        if base.toNat + offset + op.width ≤ st.memory.size then
          .next stack locals (st.write (base.toNat + offset) bytes.toByteArray)
        else .trap .outOfBounds st
      | none => .trap .malformed st := rfl

@[simp] theorem run_copy (count source target : UInt32) :
    copy.run env (.i32 count :: .i32 source :: .i32 target :: stack) locals st =
      if source.toNat + count.toNat ≤ st.memory.size ∧
          target.toNat + count.toNat ≤ st.memory.size then
        .next stack locals
          (st.write target.toNat (st.memory.slice source.toNat count.toNat))
      else .trap .outOfBounds st := rfl

/-! ### Blocks and loops -/

@[simp] theorem leave_next (arity : Nat) (below : List Val) :
    (Outcome.next stack locals st).leave arity below = .next (stack ++ below) locals st := rfl

@[simp] theorem leave_branch_zero (arity : Nat) (below : List Val) :
    (Outcome.branch 0 stack locals st).leave arity below =
      .next (stack.take arity ++ below) locals st := rfl

@[simp] theorem leave_branch_succ (arity label : Nat) (below : List Val) :
    (Outcome.branch (label + 1) stack locals st).leave arity below =
      .branch label stack locals st := rfl

@[simp] theorem leave_ret (arity : Nat) (below : List Val) :
    (Outcome.ret stack st).leave arity below = .ret stack st := rfl

@[simp] theorem leave_trap (arity : Nat) (below : List Val) (cause : Trap) :
    (Outcome.trap cause st).leave arity below = .trap cause st := rfl

@[simp] theorem leave_ite {c : Prop} [Decidable c] (arity : Nat) (a b : Outcome) :
    (if c then a else b).leave arity stack = if c then a.leave arity stack else b.leave arity stack :=
  apply_ite ..

@[simp] theorem run_block (code : List Instr) : (Instr.block .empty code).run env stack locals st =
    (runCode env code [] locals st).leave 0 stack := by
  simp only [Instr.run, BlockType.arity, List.take_zero, List.drop_zero]

theorem run_loop (code : List Instr) : (Instr.loop .empty code).run env stack locals st =
    (iterate 0 (runCode env code) env.budget [] locals st).leave 0 stack := by
  simp only [Instr.run, BlockType.arity, List.take_zero, List.drop_zero]

@[simp] theorem reply_next (types : List ValType) :
    (Outcome.next stack locals st).reply types = .ofStack types stack st := rfl

@[simp] theorem reply_ret (types : List ValType) :
    (Outcome.ret stack st).reply types = .ofStack types stack st := rfl

@[simp] theorem reply_trap (types : List ValType) (cause : Trap) :
    (Outcome.trap cause st).reply types = .trap cause st := rfl

/-! ### Calls -/

/-- What the functions of a program are run with, some depth of calls being left. -/
def Program.envAt (p : Program) (depth : Nat) : Env :=
  ⟨p.types, p.signatures, p.invoke depth, loopBudget⟩

/-- A call of a function runs its code. -/
theorem Program.invoke_succ (p : Program) {f : Nat} {g : Function} (hf : p.functions[f]? = some g)
    (depth : Nat) (arguments : List Val) (st : Store) : p.invoke (depth + 1) f arguments st =
      (runCode (p.envAt depth) g.code [] (g.start arguments) st).reply g.type.results := by
  simp only [Program.invoke, hf]
  rfl

/-- A call in some code, with the arguments on top of the stack, last one first. -/
theorem Program.run_call (p : Program) {depth f : Nat} {type : FuncType} {arguments : List Val}
    {values : List Val} {st' : Store} (htype : p.signatures[f]? = some type)
    (harity : arguments.length = type.params.length)
    (hcall : p.invoke depth f arguments st = .results values st') :
    (call f).run (p.envAt depth) (arguments ++ stack) locals st =
      .next (values ++ stack) locals st' := by
  have htype : (p.envAt depth).signatures[f]? = some type := htype
  have hcall : (p.envAt depth).call f arguments st = .results values st' := hcall
  simp only [call, Instr.run, Plain.run, runCall, htype, ← harity, List.take_left, List.drop_left,
    hcall]

/-! ### Loops -/

/-- Rounds of which each either starts another one, with fewer of them to go, or is the last one:
an invariant of the rounds gives what holds at the end. -/
theorem iterate_ends {round : List Val → List Val → Store → Outcome}
    (Inv : Nat → List Val → Store → Prop) (Post : Outcome → Prop)
    (hround : ∀ k locals st, Inv k locals st →
      (∃ j locals' st', round [] locals st = .branch 0 [] locals' st' ∧ j < k ∧ Inv j locals' st') ∨
      (∀ s l t, round [] locals st ≠ .branch 0 s l t) ∧ Post (round [] locals st)) :
    ∀ {budget k : Nat} {locals : List Val} {st : Store}, k < budget → Inv k locals st →
      Post (iterate 0 round budget [] locals st)
  | 0, _, _, _, hk, _ => absurd hk (Nat.not_lt_zero _)
  | budget + 1, k, locals, st, hk, hinv => by
    rw [iterate]
    rcases hround k locals st hinv with ⟨j, locals', st', hb, hj, hinv'⟩ | ⟨hne, hpost⟩
    · rw [hb]
      exact iterate_ends Inv Post hround (by omega) hinv'
    · split
      · rename_i s l t heq
        exact absurd heq (hne s l t)
      · exact hpost

/-- One round of a counted loop. -/
theorem round_forEach {counter length i n : Nat} (hn : n < 2 ^ 32)
    (hcounter : locals[counter]? = some (.i32 (.ofNat i)))
    (hlength : locals[length]? = some (.i32 (.ofNat n))) (hi : i ≤ n) :
    runCode env ([val counter, val length, num .i32GeU, branchIf 1] ++ rest) [] locals st =
      if i = n then .branch 1 [] locals st else runCode env rest [] locals st := by
  have hle : (UInt32.ofNat n ≤ UInt32.ofNat i) ↔ i = n := by
    rw [UInt32.le_iff_toNat_le, UInt32.toNat_ofNat_of_lt' hn,
      UInt32.toNat_ofNat_of_lt' (Nat.lt_of_le_of_lt hi hn)]
    omega
  by_cases h : i = n <;> simp [hcounter, hlength, hle, h]

/-- A counted loop: an invariant of the count and of the state that each round advances holds at
the end of the count. -/
theorem runs_forEach {counter length n : Nat} (Inv : Nat → List Val → Store → Prop)
    (hn : n < 2 ^ 32) (hbudget : n < env.budget)
    (hhead : ∀ i locals st, Inv i locals st →
      locals[counter]? = some (.i32 (.ofNat i)) ∧ locals[length]? = some (.i32 (.ofNat n)))
    (hround : ∀ i locals st, i < n → Inv i locals st → ∃ locals' st',
      runCode env code [] locals st = .next [] locals' st' ∧
        locals'[counter]? = some (.i32 (.ofNat i)) ∧
        Inv (i + 1) (locals'.set counter (.i32 (.ofNat (i + 1)))) st')
    (hstart : Inv 0 (locals.set counter (.i32 0)) st) :
    ∃ locals' st', runCode env (forEach counter length code ++ rest) stack locals st =
      runCode env rest stack locals' st' ∧ Inv n locals' st' := by
  have hrounds : ∃ locals' st', iterate 0 (runCode env ([val counter, val length, num .i32GeU,
      branchIf 1] ++ code ++ [val counter, word 1, add, put counter, branch 0])) env.budget []
      (locals.set counter (.i32 0)) st = .branch 1 [] locals' st' ∧ Inv n locals' st' := by
    refine iterate_ends (fun k locals st => k ≤ n ∧ Inv (n - k) locals st)
      (fun o => ∃ locals' st', o = .branch 1 [] locals' st' ∧ Inv n locals' st')
      ?_ hbudget ⟨Nat.le_refl _, by rw [Nat.sub_self]; exact hstart⟩
    rintro k locals st ⟨hk, hinv⟩
    obtain ⟨hcounter, hlength⟩ := hhead _ _ _ hinv
    rw [List.append_assoc, round_forEach hn hcounter hlength (Nat.sub_le n k)]
    by_cases hend : n - k = n
    · right
      rw [if_pos hend]
      exact ⟨fun _ _ _ h => (nomatch h), locals, st, rfl, hend ▸ hinv⟩
    · left
      rw [if_neg hend]
      obtain ⟨locals', st', hcode, hcounter', hinv'⟩ := hround (n - k) locals st (by omega) hinv
      refine ⟨k - 1, locals'.set counter (.i32 (.ofNat (n - k + 1))), st', ?_, by omega, by omega, ?_⟩
      · rw [runCode_append, hcode, resume_next]
        simp [hcounter', UInt32.ofNat_add]
      · rw [show n - (k - 1) = n - k + 1 by omega]
        exact hinv'
  obtain ⟨locals', st', hiterate, hinv⟩ := hrounds
  refine ⟨locals', st', ?_, hinv⟩
  rw [runCode_append]
  have hloop : runCode env (forEach counter length code) stack locals st =
      .next stack locals' st' := by
    simp only [List.cons_append, List.nil_append, add] at hiterate
    simp [forEach, run_loop, hiterate]
  rw [hloop, resume_next]

end GuestCall.Wasm
