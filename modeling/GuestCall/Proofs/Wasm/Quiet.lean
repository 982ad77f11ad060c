/-
# Quiet code

Code that neither calls nor sets a global can read, write and grow the memory, loop and trap, but
whatever it does, and however it ends, the globals are as they were and the memory has only grown, by
whole pages and up to its ceiling. A function with such a body cannot touch what the allocator keeps
in the globals. Where the code does not grow the memory either, the memory keeps its size.

Both follow from what the single instructions do to the store, by one induction over the code: what
every one of them keeps is kept by the whole run.

Key definitions: `Memory.Grown`, `Store.Grown`, `Store.Kept`, and `quietCode`, `stillCode`.
Key theorems: `runCode_keeps`, and `invoke_grown` and `invoke_kept` for calls.
-/
import GuestCall.Proofs.Memory.Access
import GuestCall.Wasm.Machine

namespace GuestCall

namespace Memory

/-- A memory that came from another one by writes and growth. -/
structure Grown (m m' : Memory) : Prop where
  ceiling : m'.ceiling? = m.ceiling?
  size : ∃ extra, m'.size = m.size + extra * pageSize
  fits : m.allows m.pages = true → m'.allows m'.pages = true

theorem Grown.refl (m : Memory) : m.Grown m := ⟨rfl, ⟨0, by omega⟩, id⟩

theorem Grown.trans {m₁ m₂ m₃ : Memory} (h : m₁.Grown m₂) (h' : m₂.Grown m₃) : m₁.Grown m₃ := by
  obtain ⟨k, hk⟩ := h.size
  obtain ⟨k', hk'⟩ := h'.size
  refine ⟨h'.ceiling.trans h.ceiling, ⟨k + k', ?_⟩, fun hf => h'.fits (h.fits hf)⟩
  rw [hk', hk, Nat.add_mul, Nat.add_assoc]

theorem Grown.size_le {m m' : Memory} (h : m.Grown m') : m.size ≤ m'.size := by
  obtain ⟨k, hk⟩ := h.size
  omega

theorem grown_write (m : Memory) (start : Nat) (source : ByteArray) :
    m.Grown (m.write start source) := by
  refine ⟨ceiling_write m start source, ⟨0, ?_⟩, fun h => ?_⟩
  · rw [size_write]
    omega
  · unfold allows pages at *
    rw [ceiling_write, size_write]
    exact h

theorem pages_grow {m m' : Memory} {extra : Nat} (h : m.grow? extra = some m') :
    m'.pages = m.pages + extra := by
  unfold pages
  rw [size_grow h]
  exact Nat.add_mul_div_right _ _ (by decide)

theorem grown_grow {m m' : Memory} {extra : Nat} (h : m.grow? extra = some m') : m.Grown m' := by
  have hpages := pages_grow h
  have hsize := size_grow h
  obtain ⟨hallows, rfl⟩ := grow?_eq_some.mp h
  refine ⟨?_, ⟨extra, hsize⟩, fun _ => ?_⟩
  · rfl
  · rw [hpages]
    exact hallows

end Memory

namespace Wasm

/-- A store that came from another one without setting a global. -/
structure Store.Grown (s s' : Store) : Prop where
  globals : s'.globals = s.globals
  memory : s.memory.Grown s'.memory

namespace Store

theorem Grown.refl (s : Store) : s.Grown s := ⟨rfl, .refl _⟩

theorem Grown.trans {s₁ s₂ s₃ : Store} (h : s₁.Grown s₂) (h' : s₂.Grown s₃) : s₁.Grown s₃ :=
  ⟨h'.globals.trans h.globals, h.memory.trans h'.memory⟩

theorem grown_write (s : Store) (address : Nat) (source : ByteArray) :
    s.Grown (s.write address source) := ⟨rfl, s.memory.grown_write address source⟩

end Store

/-- The store at the end of a piece of code. -/
def Outcome.store : Outcome → Store
  | .next _ _ store | .branch _ _ _ store | .ret _ store | .trap _ store => store

/-- The store at the end of a call. -/
def Reply.store : Reply → Store
  | .results _ store | .trap _ store => store

@[simp] theorem Reply.store_results (values : List Val) (st : Store) : (results values st).store = st := rfl

/-- A store that came from another one without setting a global or growing the memory. -/
structure Store.Kept (s s' : Store) : Prop where
  globals : s'.globals = s.globals
  ceiling : s'.memory.ceiling? = s.memory.ceiling?
  size : s'.memory.size = s.memory.size

theorem Store.Kept.refl (s : Store) : s.Kept s := ⟨rfl, rfl, rfl⟩

theorem Store.Kept.trans {s₁ s₂ s₃ : Store} (h : s₁.Kept s₂) (h' : s₂.Kept s₃) : s₁.Kept s₃ :=
  ⟨h'.globals.trans h.globals, h'.ceiling.trans h.ceiling, h'.size.trans h.size⟩

theorem Store.kept_write (s : Store) (address : Nat) (source : ByteArray) :
    s.Kept (s.write address source) := ⟨rfl, Memory.ceiling_write .., Memory.size_write ..⟩

theorem Store.write_nil (s : Store) (address : Nat) : s.write address [].toByteArray = s :=
  congrArg (Store.mk · s.globals) (s.memory.write_nil address)

/-- Two writes of a store one behind the other are one. -/
theorem Store.write_append (s : Store) (address : Nat) (first rest : List UInt8)
    (h : address + first.length + rest.length ≤ s.memory.size) :
    (s.write address first.toByteArray).write (address + first.length) rest.toByteArray =
      s.write address (first ++ rest).toByteArray :=
  congrArg (Store.mk · s.globals) (Memory.write_append h)

/-- A write of a store in front of another one. -/
theorem Store.write_prepend (s : Store) (address : Nat) (first rest : List UInt8)
    (h : address + first.length + rest.length ≤ s.memory.size) :
    (s.write (address + first.length) rest.toByteArray).write address first.toByteArray =
      s.write address (first ++ rest).toByteArray :=
  congrArg (Store.mk · s.globals) (Memory.write_prepend h)

/-! ### Kinds of code -/

mutual

/-- Whether every instruction that is no block is of some kind. -/
def Instr.each (kind : Plain → Bool) : Instr → Bool
  | .plain p => kind p
  | .block _ body | .loop _ body => eachOf kind body
  | .cond _ yes no => eachOf kind yes && eachOf kind no

@[inherit_doc Instr.each]
def eachOf (kind : Plain → Bool) : List Instr → Bool
  | [] => true
  | i :: rest => i.each kind && eachOf kind rest

end

/-- Whether an instruction neither calls nor sets a global. -/
def Plain.isQuiet : Plain → Bool
  | .call _ | .globalSet _ => false
  | _ => true

/-- Whether an instruction does not grow the memory either. -/
def Plain.isStill : Plain → Bool
  | .memoryGrow _ => false
  | p => p.isQuiet

/-- Whether code neither calls nor sets a global. -/
def quietCode (code : List Instr) : Bool := eachOf Plain.isQuiet code

/-- Whether code neither calls, nor sets a global, nor grows the memory. -/
def stillCode (code : List Instr) : Bool := eachOf Plain.isStill code

mutual

theorem Instr.each_mono {kind kind' : Plain → Bool} (h : ∀ p, kind p = true → kind' p = true)
    (i : Instr) (hi : i.each kind = true) : i.each kind' = true := by
  match i with
  | .plain p => exact h p hi
  | .block _ body => exact eachOf_mono h body hi
  | .loop _ body => exact eachOf_mono h body hi
  | .cond _ yes no =>
    rw [Instr.each, Bool.and_eq_true] at hi ⊢
    exact ⟨eachOf_mono h yes hi.1, eachOf_mono h no hi.2⟩

theorem eachOf_mono {kind kind' : Plain → Bool} (h : ∀ p, kind p = true → kind' p = true)
    (code : List Instr) (hcode : eachOf kind code = true) : eachOf kind' code = true := by
  match code with
  | [] => rfl
  | i :: rest =>
    rw [eachOf, Bool.and_eq_true] at hcode ⊢
    exact ⟨i.each_mono h hcode.1, eachOf_mono h rest hcode.2⟩

end

/-- Still code is quiet. -/
theorem quietCode_of_still {code : List Instr} (h : stillCode code = true) : quietCode code = true := by
  refine eachOf_mono (fun p hp => ?_) code h
  cases p with
  | memoryGrow => rfl
  | _ => exact hp

/-! ### Runs keep what instructions keep -/

@[simp] theorem Outcome.store_leave (arity : Nat) (rest : List Val) (o : Outcome) :
    (o.leave arity rest).store = o.store := by
  cases o with
  | branch label stack locals store => cases label <;> rfl
  | next | ret | trap => rfl

@[simp] theorem Reply.store_ofStack (types : List ValType) (stack : List Val) (s : Store) :
    (Reply.ofStack types stack s).store = s := by
  unfold Reply.ofStack
  dsimp only
  split <;> rfl

@[simp] theorem Outcome.store_reply (types : List ValType) (o : Outcome) :
    (o.reply types).store = o.store := by
  cases o with
  | branch label stack locals store =>
    cases label with
    | zero => exact Reply.store_ofStack ..
    | succ label => rfl
  | next | ret => exact Reply.store_ofStack ..
  | trap => rfl

/-- A relation between stores that instructions of some kind keep, whatever they find. -/
structure Keeps (env : Env) (kind : Plain → Bool) (R : Store → Store → Prop) : Prop where
  refl : ∀ s, R s s
  trans : ∀ {s₁ s₂ s₃}, R s₁ s₂ → R s₂ s₃ → R s₁ s₃
  plain : ∀ {p : Plain}, kind p = true → ∀ stack locals s, R s (p.run env stack locals s).store

variable {env : Env} {kind : Plain → Bool} {R : Store → Store → Prop}

/-- What rounds keep, all of them together keep. -/
theorem iterate_keeps {round : List Val → List Val → Store → Outcome} (hR : Keeps env kind R)
    (arity : Nat) (h : ∀ stack locals s, R s (round stack locals s).store) :
    ∀ (budget : Nat) (stack locals : List Val) (s : Store),
      R s (iterate arity round budget stack locals s).store
  | 0, _, _, s => hR.refl s
  | budget + 1, stack, locals, s => by
    have hround := h stack locals s
    unfold iterate
    split
    · rename_i stack' locals' s' heq
      rw [heq] at hround
      exact hR.trans hround (iterate_keeps hR arity h budget _ _ _)
    · exact hround

mutual

theorem Instr.run_keeps (hR : Keeps env kind R) (i : Instr) (h : i.each kind = true)
    (stack locals : List Val) (s : Store) : R s (i.run env stack locals s).store := by
  match i with
  | .plain p => exact hR.plain h stack locals s
  | .block type body =>
    simp only [Instr.run, Outcome.store_leave]
    exact runCode_keeps hR body h _ _ s
  | .loop type body =>
    simp only [Instr.run, Outcome.store_leave]
    exact iterate_keeps hR _ (fun stack locals s => runCode_keeps hR body h stack locals s) _ _ _ s
  | .cond type yes no =>
    rw [Instr.each, Bool.and_eq_true] at h
    cases stack with
    | nil => exact hR.refl s
    | cons v stack =>
      cases v with
      | i32 condition =>
        simp only [Instr.run]
        by_cases hc : condition = 0
        · rw [if_pos hc, Outcome.store_leave]
          exact runCode_keeps hR no h.2 _ _ s
        · rw [if_neg hc, Outcome.store_leave]
          exact runCode_keeps hR yes h.1 _ _ s
      | i64 | f32 | f64 | null => exact hR.refl s

/-- **What every instruction keeps, the code keeps.** -/
theorem runCode_keeps (hR : Keeps env kind R) (code : List Instr) (h : eachOf kind code = true)
    (stack locals : List Val) (s : Store) :
    R s (runCode env code stack locals s).store := by
  match code with
  | [] => exact hR.refl s
  | i :: rest =>
    rw [eachOf, Bool.and_eq_true] at h
    have hi := i.run_keeps hR h.1 stack locals s
    unfold runCode
    split
    · rename_i stack' locals' s' heq
      rw [heq] at hi
      exact hR.trans hi (runCode_keeps hR rest h.2 _ _ _)
    · exact hi

end

/-- What every instruction of a function keeps, a call keeps. -/
theorem invoke_keeps (hR : ∀ env, Keeps env kind R) (p : Program) {f : Nat}
    (h : ∀ g, p.functions[f]? = some g → eachOf kind g.code = true) (depth : Nat)
    (arguments : List Val) (s : Store) : R s (p.invoke depth f arguments s).store := by
  have hrefl : R s s := (hR ⟨p.types, p.signatures, p.invoke 0, loopBudget⟩).refl s
  cases depth with
  | zero => exact hrefl
  | succ depth =>
    rcases hf : p.functions[f]? with _ | g
    · simp only [Program.invoke, hf]
      exact hrefl
    · simp only [Program.invoke, hf, Outcome.store_reply]
      exact runCode_keeps (hR _) g.code (h g hf) _ _ s

/-! ### Single instructions -/

theorem runLoad_store (op : LoadOp) (arg : MemArg) (stack locals : List Val) (s : Store) :
    (runLoad op arg stack locals s).store = s := by
  unfold runLoad
  split
  · dsimp only
    split <;> rfl
  · rfl

/-- A store writes some bytes, or nothing. -/
theorem runStore_store (op : StoreOp) (arg : MemArg) (stack locals : List Val) (s : Store) :
    (runStore op arg stack locals s).store = s ∨
      ∃ address source, (runStore op arg stack locals s).store = s.write address source := by
  unfold runStore
  split
  · split
    · dsimp only
      split
      · exact .inr ⟨_, _, rfl⟩
      · exact .inl rfl
    · exact .inl rfl
  · exact .inl rfl

@[inherit_doc runStore_store]
theorem runCopy_store (stack locals : List Val) (s : Store) :
    (runCopy stack locals s).store = s ∨
      ∃ address source, (runCopy stack locals s).store = s.write address source := by
  unfold runCopy
  split
  · split
    · exact .inr ⟨_, _, rfl⟩
    · exact .inl rfl
  · exact .inl rfl

theorem runGrow_grown (stack locals : List Val) (s : Store) :
    s.Grown (runGrow stack locals s).store := by
  unfold runGrow
  split
  · split
    · rename_i hgrow
      exact ⟨rfl, Memory.grown_grow hgrow⟩
    · exact .refl s
  · exact .refl s

/-- What a still instruction does to the store: it writes some bytes, or nothing. -/
theorem Plain.run_still (env : Env) {p : Plain} (h : p.isStill = true) (stack locals : List Val)
    (s : Store) : (p.run env stack locals s).store = s ∨
      ∃ address source, (p.run env stack locals s).store = s.write address source := by
  cases p with
  | call | globalSet | memoryGrow => cases h
  | load op arg => exact .inl (runLoad_store op arg stack locals s)
  | store op arg => exact runStore_store op arg stack locals s
  | memoryCopy => exact runCopy_store stack locals s
  | unreachable | nop | br | ret | const | refNull | memorySize => exact .inl rfl
  | localGet | globalGet | num =>
    simp only [Plain.run]
    split <;> exact .inl rfl
  | drop | localSet | localTee => cases stack <;> exact .inl rfl
  | select => rcases stack with _ | ⟨⟨⟩, _ | ⟨b, _ | ⟨a, stack⟩⟩⟩ <;> exact .inl rfl
  | brIf =>
    rcases stack with _ | ⟨⟨condition⟩, stack⟩
    case cons.i32 =>
      simp only [Plain.run]
      split <;> exact .inl rfl
    all_goals exact .inl rfl

theorem keeps_kept (env : Env) : Keeps env Plain.isStill Store.Kept where
  refl := .refl
  trans := .trans
  plain {p} h stack locals s := by
    rcases p.run_still env h stack locals s with heq | ⟨address, source, heq⟩
    · rw [heq]
      exact .refl s
    · rw [heq]
      exact s.kept_write address source

theorem keeps_grown (env : Env) : Keeps env Plain.isQuiet Store.Grown where
  refl := .refl
  trans := .trans
  plain {p} h stack locals s := by
    cases hgrow : p.isStill with
    | true =>
      rcases p.run_still env hgrow stack locals s with heq | ⟨address, source, heq⟩
      · rw [heq]
        exact .refl s
      · rw [heq]
        exact s.grown_write address source
    | false =>
      cases p with
      | memoryGrow => exact runGrow_grown stack locals s
      | _ => cases hgrow.symm.trans h

/-- **A call of a quiet function** leaves the globals alone and only grows the memory. -/
theorem invoke_grown (p : Program) {f : Nat}
    (h : ∀ g, p.functions[f]? = some g → quietCode g.code = true) (depth : Nat)
    (arguments : List Val) (s : Store) : s.Grown (p.invoke depth f arguments s).store :=
  invoke_keeps keeps_grown p h depth arguments s

/-- **A call of a still function** leaves the globals and the size of the memory alone. -/
theorem invoke_kept (p : Program) {f : Nat}
    (h : ∀ g, p.functions[f]? = some g → stillCode g.code = true) (depth : Nat)
    (arguments : List Val) (s : Store) : s.Kept (p.invoke depth f arguments s).store :=
  invoke_keeps keeps_kept p h depth arguments s

end Wasm

end GuestCall
