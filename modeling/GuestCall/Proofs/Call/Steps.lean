/-
# Steps of a call, whatever the guest

Nothing is known about the guest here, neither its code nor what its allocator answers. Still a few things
hold from step to step: the memory only grows, no handle that is out is given back, and all that are out are
owned. So a buffer that was taken stays covered by the memory, and passing arguments that were checked works,
or there is no memory for them.

Key definitions: `Instance.Later` and `Books.Later`, `Books.Ready`, `Handle.Held`, `Action.Yields`, and
`Passed.Covers`.
Key theorems: `refresh_held`, `takeBuffer_yields`, `passArguments_yields`.
-/
import GuestCall.Proofs.Call.Buffers
import GuestCall.Proofs.Memory.Capacity
import GuestCall.Proofs.Wasm.Growth

namespace GuestCall

/-! ### What steps do to an instance -/

/-- An instance after some steps: its memory has only grown. -/
structure Instance.Later (i i' : Instance) : Prop where
  module : i'.module = i.module
  memory : i.store.memory.Grown i'.store.memory

namespace Instance

variable {i i' i'' : Instance}

theorem Later.refl (i : Instance) : i.Later i := ⟨rfl, .refl _⟩

theorem Later.trans (h : i.Later i') (h' : i'.Later i'') : i.Later i'' :=
  ⟨h'.module.trans h.module, h.memory.trans h'.memory⟩

theorem Later.memoryLength_le (h : i.Later i') : i.memoryLength ≤ i'.memoryLength := h.memory.size_le

theorem later_observe (i : Instance) : i.Later i.observe := by
  have hat := (at_self i).observe
  refine ⟨hat.module, ?_⟩
  rw [hat.store]
  exact .refl _

/-- A run of any function only grows the memory. -/
theorem later_run (name : String) (index : Nat) (raw : List CoreValue) (i : Instance) :
    i.Later (i.run name index raw).2 := by
  obtain ⟨result, i', hrun, hat⟩ := run_at name index raw (at_self i)
  have hwider := Wasm.invoke_wider i.module.program Wasm.depthLimit index
    (raw.reverse.map .ofCore) i.store
  rw [hrun]
  refine ⟨hat.module, ?_⟩
  rw [hat.store]
  exact hwider

/-- A call is refused and nothing happens, or it is a run of the export. -/
theorem call_cases (name : String) (raw : List CoreValue) (i : Instance) :
    (∃ e, i.call name raw = (.error e, i) ∧ (e.kind = .exportNotFound ∨ e.kind = .argumentMismatch)) ∨
      ∃ index, i.call name raw = i.run name index raw := by
  unfold call
  split
  · exact .inl ⟨_, rfl, .inl rfl⟩
  split
  · exact .inl ⟨_, rfl, .inr rfl⟩
  · exact .inr ⟨_, rfl⟩

/-- Taking a buffer does nothing but to call the allocator, and fails for want of memory only. -/
theorem alloc_cases (i : Instance) (n : UInt32) : ∃ result i', i.alloc n = (result, i') ∧
    (i' = i ∨ i' = (i.call allocExport [.i32 n]).2) ∧
    ∀ e, result = .error e → e.kind = .allocation := by
  unfold alloc
  split
  · exact ⟨_, _, rfl, .inl rfl, fun e he => by cases he; rfl⟩
  split <;> rename_i heq <;> rw [heq]
  · exact ⟨_, _, rfl, .inr rfl, fun e he => by cases he; rfl⟩
  split
  · exact ⟨_, _, rfl, .inr rfl, fun _ he => (nomatch he)⟩
  · exact ⟨_, _, rfl, .inr rfl, fun e he => by cases he; rfl⟩

/-- Giving a buffer back is a call. -/
theorem free_eq (i : Instance) (ptr len : UInt32) : i.free ptr len =
    ((i.call deallocExport [.i32 ptr, .i32 len]).1.map fun _ => (),
      (i.call deallocExport [.i32 ptr, .i32 len]).2) := by
  unfold free
  split <;> rename_i heq <;> rw [heq] <;> rfl

theorem later_call (name : String) (raw : List CoreValue) (i : Instance) :
    i.Later (i.call name raw).2 := by
  rcases call_cases name raw i with ⟨e, hcall, -⟩ | ⟨index, hcall⟩ <;> rw [hcall]
  · exact .refl i
  · exact later_run ..

theorem later_free (i : Instance) (ptr len : UInt32) : i.Later (i.free ptr len).2 := by
  rw [free_eq]
  exact later_call ..

/-- Taking a buffer fails for want of memory only, whatever the allocator does. -/
theorem alloc_later (i : Instance) (n : UInt32) : ∃ result i', i.alloc n = (result, i') ∧ i.Later i' ∧
    ∀ e, result = .error e → e.kind = .allocation := by
  obtain ⟨result, i', halloc, hi', herror⟩ := i.alloc_cases n
  refine ⟨result, i', halloc, ?_, herror⟩
  rcases hi' with rfl | rfl
  · exact .refl _
  · exact later_call ..

end Instance

/-! ### What steps do to the books -/

/-- Books after some steps of a call: the memory has only grown, nothing was given back, and what was taken
is owned. -/
structure Books.Later (b b' : Books Instance) : Prop where
  guest : b.guest.Later b'.guest
  released : ∀ id, b'.ledger.isReleased id = b.ledger.isReleased id
  issued : b.ledger.nextId ≤ b'.ledger.nextId
  owned : b.ledger.AllOwned → b'.ledger.AllOwned

namespace Books

variable {b b' b'' : Books Instance}

theorem Later.refl (b : Books Instance) : b.Later b := ⟨.refl _, fun _ => rfl, Nat.le_refl _, id⟩

theorem Later.trans (h : b.Later b') (h' : b'.Later b'') : b.Later b'' :=
  ⟨h.guest.trans h'.guest, fun id => (h'.released id).trans (h.released id),
    Nat.le_trans h.issued h'.issued, fun ho => h'.owned (h.owned ho)⟩

theorem later_guest {l : Ledger} {guest guest' : Instance} (h : guest.Later guest') :
    (⟨l, guest⟩ : Books Instance).Later ⟨l, guest'⟩ := ⟨h, fun _ => rfl, Nat.le_refl _, id⟩

/-- Books that a call can start from: a memory within the reach of addresses, no id released that was never
issued, and no handle out that is not owned. -/
structure Ready (b : Books Instance) : Prop where
  linear : b.guest.store.memory.IsLinear
  issued : ∀ id, b.ledger.isReleased id = true → id < b.ledger.nextId
  owned : b.ledger.AllOwned

theorem Ready.later (h : b.Ready) (hb : b.Later b') : b'.Ready := by
  refine ⟨h.linear.grown hb.guest.memory, fun id hid => ?_, hb.owned h.owned⟩
  rw [hb.released] at hid
  exact Nat.lt_of_lt_of_le (h.issued id hid) hb.issued

end Books

/-- A handle that is out: it is owned and not given back, and the memory covers it. -/
structure Handle.Held (x : Handle) (b : Books Instance) : Prop where
  owned : x.owned = true
  kept : b.ledger.isReleased x.id = false
  inside : x.stop ≤ b.guest.memoryLength

theorem Handle.Held.later {x : Handle} {b b' : Books Instance} (h : x.Held b) (hb : b.Later b') :
    x.Held b' :=
  ⟨h.owned, (hb.released x.id).trans h.kept, Nat.le_trans h.inside hb.guest.memoryLength_le⟩

/-- A step ends on later books, with a result that has a property there, or with an error of some sort. -/
inductive Action.Yields {α : Type} (F : BindError → Prop) (x : Action Instance α) (b : Books Instance)
    (P : α → Books Instance → Prop) : Prop
  | ok {a : α} {b' : Books Instance} (step : x b = (.ok a, b')) (later : b.Later b') (post : P a b')
  | failed {e : BindError} {b' : Books Instance} (step : x b = (.error e, b')) (later : b.Later b')
    (fault : F e)

namespace Action

variable {α β : Type} {F : BindError → Prop} {x : Action Instance α} {f : α → Action Instance β}
  {b : Books Instance} {P : α → Books Instance → Prop} {Q : β → Books Instance → Prop}

theorem yields_return {a : α} (h : P a b) : (return a : Action Instance α).Yields F b P :=
  .ok rfl (.refl b) h

theorem yields_fail {e : BindError} (h : F e) : (fail e : Action Instance α).Yields F b P :=
  .failed rfl (.refl b) h

theorem yields_ofExcept {result : Except BindError α} (hok : ∀ a, result = .ok a → P a b)
    (herror : ∀ e, result = .error e → F e) : (ofExcept result).Yields F b P := by
  rcases result with e | a
  · exact .failed rfl (.refl b) (herror e rfl)
  · exact .ok rfl (.refl b) (hok a rfl)

/-- A step after another one. -/
theorem Yields.bind (hx : x.Yields F b P)
    (hf : ∀ a b', b.Later b' → P a b' → (f a).Yields F b' Q) : (x >>= f).Yields F b Q := by
  rcases hx with ⟨step, later, post⟩ | ⟨step, later, fault⟩
  · rcases hf _ _ later post with ⟨step', later', post'⟩ | ⟨step', later', fault'⟩
    · exact .ok ((bind_ok step).trans step') (later.trans later') post'
    · exact .failed ((bind_ok step).trans step') (later.trans later') fault'
  · exact .failed (bind_error step) later fault

theorem Yields.mono {P' : α → Books Instance → Prop} (hx : x.Yields F b P)
    (h : ∀ a b', b.Later b' → P a b' → P' a b') : x.Yields F b P' := by
  rcases hx with ⟨step, later, post⟩ | ⟨step, later, fault⟩
  · exact .ok step later (h _ _ later post)
  · exact .failed step later fault

end Action

open Ledger GuestCall.Action

variable {b : Books Instance}

/-- A buffer that the guest made is entered under an id that was never released. -/
theorem adopt_yields {F : BindError → Prop} (h : b.Ready) (ptr n : UInt32) :
    (adopt ptr n).Yields F b fun x b' => x.owned = true ∧ b'.ledger.isReleased x.id = false ∧ x.len = n := by
  obtain ⟨l, guest⟩ := b
  have hfresh : l.isReleased l.nextId = false := by
    by_contra hr
    exact Nat.lt_irrefl _ (h.issued _ (by simpa using hr))
  refine .ok rfl ⟨guest.later_observe, fun _ => rfl, Nat.le_succ _, fun ho => ?_⟩ ⟨rfl, hfresh, rfl⟩
  exact List.forall_mem_cons.mpr ⟨rfl, ho⟩

theorem allocate_yields (h : b.Ready) (n : UInt32) :
    (allocate n).Yields (·.kind = .allocation) b fun x b' =>
      x.owned = true ∧ b'.ledger.isReleased x.id = false ∧ x.len = n := by
  obtain ⟨l, guest⟩ := b
  obtain ⟨result, guest', halloc, hlater, herror⟩ := guest.alloc_later n
  have hb : (⟨l, guest⟩ : Books Instance).Later ⟨l, guest'⟩ := Books.later_guest hlater
  have hstep : allocate n ⟨l, guest⟩ = match result with
      | .error e => (.error e, ⟨l, guest'⟩)
      | .ok ptr =>
        if ptr = 0 then (.error (.allocation n .null), ⟨l, guest'⟩) else adopt ptr n ⟨l, guest'⟩ := by
    unfold allocate
    dsimp only
    rw [show GuestAllocator.alloc guest n = _ from halloc]
    cases result <;> rfl
  rcases result with e | ptr
  · exact .failed hstep hb (herror e rfl)
  dsimp only at hstep
  by_cases hptr : ptr = 0
  · rw [if_pos hptr] at hstep
    exact .failed hstep hb rfl
  rw [if_neg hptr] at hstep
  rcases adopt_yields (F := (·.kind = .allocation)) (h.later hb) ptr n with
    ⟨step, later, hpost⟩ | ⟨step, -⟩
  · exact .ok (hstep.trans step) (hb.trans later) hpost
  · cases step

/-- **Refreshing a handle that is out** works, and changes nothing but epochs. -/
theorem refresh_held {x : Handle} (h : x.Held b) : ∃ y b', refresh x b = (.ok y, b') ∧ b.Later b' ∧
    y.Held b' ∧ y.ptr = x.ptr ∧ y.len = x.len ∧ b'.guest.store = b.guest.store := by
  obtain ⟨l, guest⟩ := b
  have hlater : (⟨l, guest⟩ : Books Instance).Later
      ⟨l.restamp { x with epoch := guest.observe.epoch }, guest.observe⟩ :=
    ⟨guest.later_observe, fun _ => rfl, Nat.le_refl _, fun ho => ho.restamp h.owned⟩
  have hheld := h.later hlater
  exact ⟨{ x with epoch := guest.observe.epoch }, _, refresh_kept h.kept h.inside rfl, hlater,
    ⟨hheld.owned, hheld.kept, hheld.inside⟩, rfl, rfl, guest.store_observe⟩

theorem ensure_yields (h : b.Ready) (bytes : Nat) :
    (onGuest (Instance.ensure bytes)).Yields (·.kind = .allocation) b fun _ b' =>
      bytes ≤ b'.guest.memoryLength := by
  obtain ⟨l, ⟨module, ⟨memory, globals⟩, pageLimit, epoch, observed⟩⟩ := b
  obtain ⟨result, memory', hensure, hgrown, hok, herror⟩ := memory.ensure_grown pageLimit bytes
  have hstep : onGuest (Instance.ensure bytes)
      ⟨l, ⟨module, ⟨memory, globals⟩, pageLimit, epoch, observed⟩⟩ =
        (result, ⟨l, ⟨module, ⟨memory', globals⟩, pageLimit, epoch, observed⟩⟩) := by
    unfold onGuest Instance.ensure Instance.onMemory
    dsimp only
    rw [hensure]
  have hb : (⟨l, ⟨module, ⟨memory, globals⟩, pageLimit, epoch, observed⟩⟩ : Books Instance).Later
      ⟨l, ⟨module, ⟨memory', globals⟩, pageLimit, epoch, observed⟩⟩ := Books.later_guest ⟨rfl, hgrown⟩
  rcases result with e | did
  · exact .failed hstep hb (herror e rfl)
  · exact .ok hstep hb (hok did rfl)

/-- **Taking a buffer**: the memory covers it, or there is no memory. -/
theorem takeBuffer_yields (h : b.Ready) (n : UInt32) :
    (takeBuffer n).Yields (·.kind = .allocation) b fun x b' => x.Held b' ∧ x.len = n := by
  refine (allocate_yields h n).bind fun x b₁ later₁ ⟨howned, hkept, hlen⟩ => ?_
  refine (ensure_yields (h.later later₁) x.stop).bind fun grew b₂ later₂ hinside => ?_
  have hheld : x.Held b₂ := ⟨howned, (later₂.released x.id).trans hkept, hinside⟩
  cases grew with
  | false => exact yields_return ⟨hheld, hlen⟩
  | true =>
    obtain ⟨y, b₃, hrefresh, later₃, hheld', -, hlen', -⟩ := refresh_held hheld
    exact .ok hrefresh later₃ ⟨hheld', hlen'.trans hlen⟩

/-! ### Arguments -/

/-- **Copying something into a buffer** of its own. -/
theorem fillBuffer_yields (h : b.Ready) (count width : Nat)
    {f : Handle → Memory → Except BindError Unit × Memory}
    (hf : ∀ (x : Handle) (memory : Memory), memory.IsLinear →
      x.ptr.toNat + count * width ≤ memory.size → ∃ start source,
        f x memory = (.ok (), memory.write start source)) :
    let fill : Action Instance Handle := do
      let length ← Action.ofExcept (bufferLength count width)
      let x ← takeBuffer length
      Action.onGuest (Instance.onMemory (f x))
      return x
    fill.Yields (·.kind = .allocation) b fun x b' => x.Held b' ∧ x.len.toNat = count * width := by
  intro fill
  have hlength : (ofExcept (bufferLength count width)).Yields (·.kind = .allocation) b fun n _ =>
      n.toNat = count * width := by
    refine yields_ofExcept (fun n hn => ?_) fun e he => ?_
    · unfold bufferLength at hn
      split at hn
      · cases hn
        exact UInt32.toNat_ofNat_of_lt' (by unfold UInt32.size; omega)
      · cases hn
    · unfold bufferLength at he
      split at he
      · cases he
      · cases he
        rfl
  refine hlength.bind fun n b₁ later₁ hn => ?_
  refine (takeBuffer_yields (h.later later₁) n).bind fun x b₂ later₂ ⟨hheld, hlen⟩ => ?_
  have hready := (h.later later₁).later later₂
  have hsize : x.len.toNat = count * width := by rw [hlen, hn]
  obtain ⟨l, ⟨module, ⟨memory, globals⟩, pageLimit, epoch, observed⟩⟩ := b₂
  have hinside : x.ptr.toNat + x.len.toNat ≤ memory.size := hheld.inside
  obtain ⟨start, source, hwrite⟩ := hf x memory hready.linear (by omega)
  have hlater : (⟨l, ⟨module, ⟨memory, globals⟩, pageLimit, epoch, observed⟩⟩ : Books Instance).Later
      ⟨l, ⟨module, ⟨memory.write start source, globals⟩, pageLimit, epoch, observed⟩⟩ :=
    Books.later_guest ⟨rfl, memory.grown_write start source⟩
  have hstep : onGuest (Instance.onMemory (f x))
      ⟨l, ⟨module, ⟨memory, globals⟩, pageLimit, epoch, observed⟩⟩ =
        (.ok (), ⟨l, ⟨module, ⟨memory.write start source, globals⟩, pageLimit, epoch, observed⟩⟩) := by
    unfold onGuest Instance.onMemory
    dsimp only
    rw [hwrite]
  exact .ok (bind_ok hstep) hlater ⟨hheld.later hlater, hsize⟩

theorem passText_yields (h : b.Ready) (text : String) :
    (passText text).Yields (·.kind = .allocation) b fun x b' =>
      x.Held b' ∧ x.len.toNat = text.toUTF8.size := by
  have hfill := fillBuffer_yields h text.toUTF8.size 1
    (f := fun x memory => memory.writeBytes x.ptr text.toUTF8) fun x memory _ hroom =>
      ⟨_, _, Memory.writeBytes_eq_ok (by omega)⟩
  rw [Nat.mul_one] at hfill
  exact hfill

theorem passArray_yields (h : b.Ready) (style : AccessStyle) (items : ScalarArray) :
    (passArray style items).Yields (·.kind = .allocation) b fun x b' =>
      x.Held b' ∧ x.len.toNat = items.byteLength :=
  fillBuffer_yields h items.length items.kind.width
    (f := fun x memory => memory.writeScalars style x.ptr items.items) fun x memory hlinear hroom =>
      ⟨_, _, Memory.writeScalars_eq_ok style items.items memory x.ptr items.homogeneous
        hlinear.size_le hroom⟩

/-- What a checked argument has become: machine values of the types of its parameter, and a buffer that is
out if the parameter needs one, as large as the argument, with its address as the first value. -/
structure Passed.Covers (q : Passed) (param : ParamKind) (a : Argument) (b : Books Instance) : Prop where
  types : q.raw.map CoreValue.type = param.coreTypes
  buffer : param.needsAllocation = true → ∃ x, q.handle? = some x ∧ x.Held b ∧
    x.len.toNat = a.extent ∧ q.raw.head? = some (.i32 x.ptr)

theorem Passed.Covers.later {q : Passed} {param : ParamKind} {a : Argument} {b' : Books Instance}
    (h : q.Covers param a b) (hb : b.Later b') : q.Covers param a b' := by
  refine ⟨h.types, fun hneeds => ?_⟩
  obtain ⟨x, hx, hheld, hlen, hptr⟩ := h.buffer hneeds
  exact ⟨x, hx, hheld.later hb, hlen, hptr⟩

/-- **Passing an argument** that was checked works, or there is no memory. -/
theorem passArgument_yields (h : b.Ready) (style : AccessStyle) (name : String) {param : ParamKind}
    {a : Argument} (hchecked : a.mismatch? param = none) :
    (passArgument style name param a).Yields (·.kind = .allocation) b fun q b' =>
      q.Covers param a b' := by
  rcases mismatch?_eq_none hchecked with ⟨kind, v, s, rfl, rfl, hs⟩ | ⟨text, rfl, rfl⟩ |
      ⟨kind, items, hparam, harray, -⟩
  · have hpass : passArgument style name (.scalar kind) (.byValue v) = (return ⟨[s.lower], none⟩) := by
      unfold passArgument
      simp only [hs]
    rw [hpass]
    refine yields_return ⟨?_, nofun⟩
    rw [List.map_singleton, Scalar.type_lower, Scalar.kind_ofValue? hs]
    rfl
  · refine (passText_yields h text).bind fun x b' _ ⟨hheld, hlen⟩ => ?_
    exact yields_return ⟨rfl, fun _ => ⟨x, rfl, hheld, hlen, rfl⟩⟩
  · obtain ⟨hpass, hextent, -, -⟩ := passArgument_array style name hparam harray
    rw [hpass]
    refine (passArray_yields h style items).bind fun x b' _ ⟨hheld, hlen⟩ => ?_
    refine yields_return ⟨?_, fun _ => ⟨x, rfl, hheld, hlen.trans hextent.symm, rfl⟩⟩
    rcases hparam with rfl | rfl | rfl <;> rfl

/-- **Passing arguments** that were checked works, or there is no memory. -/
theorem passArguments_yields (style : AccessStyle) (name : String) :
    ∀ {pairs : List (ParamKind × Argument)} {b : Books Instance}, b.Ready →
    (∀ pair ∈ pairs, pair.2.mismatch? pair.1 = none) →
    (passArguments style name pairs).Yields (·.kind = .allocation) b fun passed b' =>
      List.Forall₂ (fun pair q => q.Covers pair.1 pair.2 b') pairs passed
  | [], _, _, _ => yields_return .nil
  | (param, a) :: rest, b, h, hchecked => by
    have hfirst := passArgument_yields h style name (hchecked (param, a) List.mem_cons_self)
    refine hfirst.bind fun q b₁ later₁ hq => ?_
    have hothers := passArguments_yields style name (h.later later₁)
      fun pair hpair => hchecked pair (List.mem_cons_of_mem _ hpair)
    refine hothers.bind fun others b₂ later₂ hcovers => ?_
    exact yields_return (.cons (hq.later later₂) hcovers)

/-- Covered arguments are passed as the machine types of the parameters. -/
theorem types_covered {pairs : List (ParamKind × Argument)} {passed : List Passed}
    (h : List.Forall₂ (fun pair q => q.Covers pair.1 pair.2 b) pairs passed) :
    (passed.flatMap (·.raw)).map CoreValue.type = (pairs.map (·.1)).flatMap ParamKind.coreTypes := by
  induction h with
  | nil => rfl
  | cons hq _ ih => rw [List.flatMap_cons, List.map_append, hq.types, ih, List.map_cons, List.flatMap_cons]

end GuestCall
