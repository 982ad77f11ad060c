/-
# Passing arguments onto the pile

Arguments that were checked are passed one after the other. Each one that needs a buffer gets the next
one of the pile, so where the buffers lie and which machine values the guest sees is known from the
arguments alone. The only thing that can go wrong is that there is no room for a buffer, and then the
ones before it are still piled up.

Key definitions: `Argument.extent` and `Argument.payload`, the size and the contents of the buffer of an
argument, `Argument.lowered`, its machine values, `Memory.filled`, the memory with all buffers, and
`Action.Fills`, what a step does that copies something into a buffer of its own.
Key theorems: `passArgument_on`, `passArguments_on`, `copyBackAll_on`.
-/
import GuestCall.Call.Binding
import GuestCall.Proofs.Call.Pile

namespace GuestCall

namespace Action

variable {σ α β : Type} {b b' : Books σ}

/-- A step that succeeds is followed by the next one. -/
theorem bind_ok {x : Action σ α} {f : α → Action σ β} {a : α} (h : x b = (.ok a, b')) :
    (x >>= f) b = f a b' := by
  change andThen x f b = _
  unfold andThen
  rw [h]

/-- A step that fails is the last one. -/
theorem bind_error {x : Action σ α} {f : α → Action σ β} {e : BindError}
    (h : x b = (.error e, b')) : (x >>= f) b = (.error e, b') := by
  change andThen x f b = _
  unfold andThen
  rw [h]

/-- Where two steps succeed one after the other, both do. -/
theorem of_bind_ok {x : Action σ α} {f : α → Action σ β} {v : β} (h : (x >>= f) b = (.ok v, b')) :
    ∃ a b₁, x b = (.ok a, b₁) ∧ f a b₁ = (.ok v, b') := by
  rcases hx : x b with ⟨e | a, b₁⟩
  · rw [bind_error hx] at h
    cases h
  · rw [bind_ok hx] at h
    exact ⟨a, b₁, rfl, h⟩

end Action

/-! ### Running out of memory -/

/-- The result of a step that failed because guest memory could not be had. -/
def OutOfMemory {α : Type} (result : Except BindError α) : Prop :=
  ∃ e, result = .error e ∧ e.kind = .allocation

theorem outOfMemory_allocation {α : Type} (n : UInt32) (fault : AllocationFault) :
    OutOfMemory (.error (.allocation n fault) : Except BindError α) := ⟨_, rfl, rfl⟩

theorem not_outOfMemory_ok {α : Type} (a : α) : ¬ OutOfMemory (.ok a : Except BindError α) := by
  rintro ⟨e, h, -⟩
  cases h

theorem not_outOfMemory_error {α : Type} {e : BindError} (h : e.kind ≠ .allocation) :
    ¬ OutOfMemory (.error e : Except BindError α) := by
  rintro ⟨e, he, hkind⟩
  cases he
  exact h hkind

/-- A step ends on some books, with whatever result but for want of memory. -/
def Action.Ends {σ α : Type} (x : Action σ α) (b b' : Books σ) : Prop :=
  ∃ result, x b = (result, b') ∧ ¬ OutOfMemory result

namespace Action

variable {σ α β : Type} {b b' b₁ : Books σ}

theorem ends_return (a : α) : (return a : Action σ α).Ends b b := ⟨_, rfl, not_outOfMemory_ok a⟩

theorem ends_fail {e : BindError} (h : e.kind ≠ .allocation) : (fail e : Action σ α).Ends b b :=
  ⟨_, rfl, not_outOfMemory_error h⟩

theorem ends_ofExcept {result : Except BindError α} (h : ¬ OutOfMemory result) :
    (ofExcept result : Action σ α).Ends b b := ⟨result, rfl, h⟩

theorem ends_of_ok {x : Action σ α} {a : α} (h : x b = (.ok a, b')) : x.Ends b b' :=
  ⟨_, h, not_outOfMemory_ok a⟩

theorem Ends.bind {x : Action σ α} {f : α → Action σ β} (hx : x.Ends b b₁)
    (hf : ∀ a, (f a).Ends b₁ b₁) : (x >>= f).Ends b b₁ := by
  obtain ⟨result, hx, hresult⟩ := hx
  rcases result with e | a
  · exact ⟨.error e, bind_error hx, fun ⟨e', he, hkind⟩ => hresult ⟨e', by cases he; rfl, hkind⟩⟩
  · obtain ⟨result, hf, hresult⟩ := hf a
    exact ⟨result, (bind_ok hx).trans hf, hresult⟩

end Action

/-! ### Work of the host on the memory -/

theorem Memory.grown_of_size {m m' : Memory} (hceiling : m'.ceiling? = m.ceiling?)
    (hsize : m'.size = m.size) : m.Grown m' := by
  refine ⟨hceiling, ⟨0, by omega⟩, fun h => ?_⟩
  unfold allows pages at *
  rw [hceiling, hsize]
  exact h

namespace Books.On

variable {g : Ground} {top heap : Nat} {extra : UInt32} {b : Books Instance}

/-- The host writes into the memory. -/
theorem onMemory (h : b.On g top heap extra) {α : Type} {f : Memory → Except BindError α × Memory}
    {result : Except BindError α} {memory : Memory} (hf : f b.guest.store.memory = (result, memory))
    (hceiling : memory.ceiling? = b.guest.store.memory.ceiling?)
    (hsize : memory.size = b.guest.store.memory.size) :
    ∃ guest, Action.onGuest (Instance.onMemory f) b = (result, ⟨b.ledger, guest⟩) ∧
      On g top heap extra ⟨b.ledger, guest⟩ ∧ guest.store.memory = memory := by
  obtain ⟨l, ⟨module, ⟨memory₀, globals⟩, pageLimit, epoch, observed⟩⟩ := b
  refine ⟨⟨module, ⟨memory, globals⟩, pageLimit, epoch, observed⟩, ?_, ?_, rfl⟩
  · unfold Action.onGuest Instance.onMemory
    dsimp only at hf ⊢
    rw [hf]
  · exact h.move ⟨h.module, rfl⟩ ⟨rfl, Memory.grown_of_size hceiling hsize⟩

end Books.On

/-- Where the memory is large enough, the host does not have to grow it. -/
theorem ensure_of_le {b : Books Instance} {bytes : Nat} (h : bytes ≤ b.guest.memoryLength) :
    Action.onGuest (Instance.ensure bytes) b = (.ok false, b) := by
  obtain ⟨l, ⟨module, ⟨memory, globals⟩, pageLimit, epoch, observed⟩⟩ := b
  have hle : bytes ≤ memory.size := h
  unfold Action.onGuest Instance.ensure Instance.onMemory Memory.ensure
  dsimp only
  rw [if_pos hle]

/-! ### Taking a buffer -/

section

variable {g : Ground} {top : Nat} {extra : UInt32} {b : Books Instance}

/-- **A buffer for so many elements** is put on top of the pile, or there is no room for it. -/
theorem takeBuffer_on (h : b.On g top top extra) (count width : Nat) :
    if top + blockSize (count * width) ≤ heapCapacity then
      ∃ n x b', bufferLength count width = .ok n ∧ takeBuffer n b = (.ok x, b') ∧
        b'.On g (top + blockSize (count * width)) (top + blockSize (count * width)) extra ∧
        x.ptr = .ofNat top ∧ x.len = .ofNat (count * width) ∧
        b'.ledger.pile = x.bare :: b.ledger.pile ∧
        b'.guest.store.memory = b.guest.store.memory.reach (top + blockSize (count * width))
    else (∃ fault, bufferLength count width = .error (.allocation 0xFFFFFFFF fault)) ∨
      ∃ n b', bufferLength count width = .ok n ∧
        takeBuffer n b = (.error (.allocation n .null), b') ∧ b'.On g top top extra ∧
        b'.guest.store.memory = b.guest.store.memory := by
  unfold bufferLength
  by_cases hsize : count * width ≤ 0x7FFFFFFF
  · rw [if_pos hsize]
    have hword : (count * width).toUInt32.toNat = count * width :=
      UInt32.toNat_ofNat_of_lt' (by unfold UInt32.size; omega)
    have hallocate := allocate_on h (count * width).toUInt32
    rw [hword] at hallocate
    by_cases hfits : top + blockSize (count * width) ≤ heapCapacity
    · rw [if_pos hfits] at hallocate ⊢
      obtain ⟨x, b', halloc, hon, hptr, hlen, hpile, hmemory⟩ := hallocate
      refine ⟨_, x, b', rfl, ?_, hon, hptr, hlen, hpile, hmemory⟩
      have hstop : x.stop ≤ b'.guest.memoryLength := by
        have hinside := hon.inside
        have hle := le_blockSize (count * width)
        unfold Handle.stop
        rw [hptr, hlen, hword, toNat_ofNat_heap h.le_capacity.1]
        omega
      unfold takeBuffer
      rw [Action.bind_ok halloc, Action.bind_ok (ensure_of_le hstop)]
      rfl
    · rw [if_neg hfits] at hallocate ⊢
      obtain ⟨b', halloc, hon, -, hmemory⟩ := hallocate
      exact .inr ⟨_, b', rfl, Action.bind_error halloc, hon, hmemory⟩
  · rw [if_neg hsize, if_neg]
    · exact .inl ⟨_, rfl⟩
    · have hle := le_blockSize (count * width)
      unfold heapCapacity pageSize
      omega

/-- Books on which the pile was raised: everything that was piled up before is still there, and the
memory has grown only as far as it had to. -/
structure Books.Raised (g : Ground) (top : Nat) (extra : UInt32) (b b' : Books Instance) : Prop where
  on : b'.On g top top extra
  kept : ∀ x ∈ b.ledger.pile, x ∈ b'.ledger.pile
  size : b'.guest.memoryLength = max b.guest.memoryLength (wholePages top)

theorem wholePages_le (h : b.On g top top extra) : wholePages top ≤ b.guest.memoryLength := by
  have hinside := h.inside
  obtain ⟨k, hk, -⟩ := h.memory.size
  unfold Instance.memoryLength at hinside ⊢
  rw [hk] at hinside ⊢
  unfold wholePages pageSize at *
  omega

theorem Books.Raised.refl (h : b.On g top top extra) : Raised g top extra b b :=
  ⟨h, fun _ hx => hx, (Nat.max_eq_left (wholePages_le h)).symm⟩

theorem Books.Raised.trans {top' : Nat} {b₁ b₂ : Books Instance} (h₁ : Raised g top extra b b₁)
    (h₂ : Raised g top' extra b₁ b₂) (hle : top ≤ top') : Raised g top' extra b b₂ := by
  refine ⟨h₂.on, fun x hx => h₂.kept x (h₁.kept x hx), ?_⟩
  have hmono := wholePages_mono hle
  rw [h₂.size, h₁.size]
  omega

/-- A step puts a buffer of some size on top of the pile, fills it, and answers something that goes with the
books. Without room for the buffer it is refused, and nothing is put on the pile. -/
def Action.Fills {α : Type} (step : Action Instance α) (g : Ground) (top : Nat) (extra : UInt32)
    (b : Books Instance) (size : Nat) (bytes : List UInt8) (Answers : α → Books Instance → Prop) : Prop :=
  if top + blockSize size ≤ heapCapacity then
    ∃ a b', step b = (.ok a, b') ∧ Answers a b' ∧ Books.Raised g (top + blockSize size) extra b b' ∧
      b'.guest.store.memory =
        (b.guest.store.memory.reach (top + blockSize size)).write top bytes.toByteArray
  else ∃ n fault b', step b = (.error (.allocation n fault), b') ∧ b'.On g top top extra ∧
    b'.guest.store.memory = b.guest.store.memory

/-- What the step answers is made into something else. -/
theorem Action.Fills.map {α β : Type} {step : Action Instance α} {size : Nat} {bytes : List UInt8}
    {A : α → Books Instance → Prop} {B : β → Books Instance → Prop} {f : α → β}
    (h : step.Fills g top extra b size bytes A) (hf : ∀ a b', A a b' → B (f a) b') :
    (do
      let a ← step
      return f a : Action Instance β).Fills g top extra b size bytes B := by
  unfold Fills at *
  by_cases hfits : top + blockSize size ≤ heapCapacity
  · rw [if_pos hfits] at h ⊢
    obtain ⟨a, b', hstep, ha, hraised, hmemory⟩ := h
    exact ⟨f a, b', bind_ok hstep, hf a b' ha, hraised, hmemory⟩
  · rw [if_neg hfits] at h ⊢
    obtain ⟨n, fault, b', hstep, hon, hmemory⟩ := h
    exact ⟨n, fault, b', bind_error hstep, hon, hmemory⟩

/-- The handle of a buffer of some size that lies on the pile. -/
structure Handle.Lies (top size : Nat) (x : Handle) (b : Books Instance) : Prop where
  ptr : x.ptr = .ofNat top
  len : x.len = .ofNat size
  held : x.bare ∈ b.ledger.pile

/-- **Copying something into a buffer** of its own: where there is room for the buffer, it is put on
top of the pile and filled. -/
theorem fillBuffer_on (h : b.On g top top extra) (count width : Nat) (bytes : List UInt8)
    {f : Handle → Memory → Except BindError Unit × Memory}
    (hf : ∀ (x : Handle) (memory : Memory), x.ptr.toNat = top → memory.IsGuest →
      top + count * width ≤ memory.size → f x memory = (.ok (), memory.write top bytes.toByteArray)) :
    let fill : Action Instance Handle := do
      let length ← Action.ofExcept (bufferLength count width)
      let x ← takeBuffer length
      Action.onGuest (Instance.onMemory (f x))
      return x
    fill.Fills g top extra b (count * width) bytes (Handle.Lies top (count * width)) := by
  intro fill
  unfold Action.Fills
  have htake := takeBuffer_on h count width
  have hlength : ∀ result, bufferLength count width = result →
      Action.ofExcept (bufferLength count width) b = (result, b) := fun result h => by
    rw [h]
    rfl
  by_cases hfits : top + blockSize (count * width) ≤ heapCapacity
  · rw [if_pos hfits] at htake ⊢
    obtain ⟨n, x, b₁, hn, htake, hon, hptr, hlen, hpile, hmemory⟩ := htake
    have hroom : top + count * width ≤ b₁.guest.store.memory.size := by
      have hinside := hon.inside
      have hle := le_blockSize (count * width)
      unfold Instance.memoryLength at hinside
      omega
    have htop : x.ptr.toNat = top := by rw [hptr, toNat_ofNat_heap h.le_capacity.1]
    obtain ⟨guest, hfill, hon', hmemory'⟩ := hon.onMemory (hf x _ htop hon.memory hroom)
      (Memory.ceiling_write ..) (Memory.size_write ..)
    refine ⟨x, ⟨b₁.ledger, guest⟩, ?_, ⟨hptr, hlen, ?_⟩, ⟨hon', fun y hy => ?_, ?_⟩, ?_⟩
    · simp only [fill]
      rw [Action.bind_ok (hlength _ hn), Action.bind_ok htake, Action.bind_ok hfill]
      rfl
    · rw [hpile]
      exact List.mem_cons_self
    · rw [hpile]
      exact List.mem_cons_of_mem _ hy
    · unfold Instance.memoryLength
      rw [hmemory', Memory.size_write, hmemory, Memory.size_reach h.memory]
    · rw [hmemory', hmemory]
  · rw [if_neg hfits] at htake ⊢
    rcases htake with ⟨fault, hn⟩ | ⟨n, b', hn, htake, hon, hmemory⟩
    · exact ⟨_, fault, b, Action.bind_error (hlength _ hn), h, rfl⟩
    · refine ⟨n, .null, b', ?_, hon, hmemory⟩
      simp only [fill]
      rw [Action.bind_ok (hlength _ hn), Action.bind_error htake]

end

/-! ### Arguments -/

namespace Argument

/-- The bytes of the buffer that an argument is copied into. -/
def extent : Argument → Nat
  | .byValue (.str text) => text.toUTF8.size
  | a => (a.array?.map ScalarArray.byteLength).getD 0

/-- The bytes that an argument is copied into its buffer as. -/
def payload : Argument → List UInt8
  | .byValue (.str text) => text.toUTF8.data.toList
  | a => (a.array?.map fun items => items.items.flatMap LittleEndian.encode).getD []

/-- The machine values of an argument whose buffer lies at an address. -/
def lowered (top : Nat) : ParamKind → Argument → List CoreValue
  | .scalar kind, .byValue v => ((Scalar.ofValue? kind v).map Scalar.lower).toList
  | .str, .byValue (.str text) => [.i32 (.ofNat top), .i32 (.ofNat text.toUTF8.size)]
  | _, a => ((a.array?.map fun items => [.i32 (.ofNat top), .i32 (.ofNat items.length)])).getD []

end Argument

/-- The bytes that arguments take in the heap. -/
def extents : List (ParamKind × Argument) → Nat
  | [] => 0
  | (_, a) :: rest => blockSize a.extent + extents rest

/-- A memory after arguments are copied into buffers that are piled up from an address on. -/
def Memory.filled (m : Memory) (top : Nat) : List (ParamKind × Argument) → Memory
  | [] => m
  | (_, a) :: rest =>
    filled ((m.reach (top + blockSize a.extent)).write top a.payload.toByteArray)
      (top + blockSize a.extent) rest

/-- The machine values of each argument, where their buffers are piled up from an address on. -/
def lowerings (top : Nat) : List (ParamKind × Argument) → List (List CoreValue)
  | [] => []
  | (param, a) :: rest => a.lowered top param :: lowerings (top + blockSize a.extent) rest

section

variable {g : Ground} {top : Nat} {extra : UInt32} {b : Books Instance}

/-- A text is copied into a buffer. -/
theorem passText_on (h : b.On g top top extra) (text : String) :
    (passText text).Fills g top extra b text.toUTF8.size text.toUTF8.data.toList
      (Handle.Lies top text.toUTF8.size) := by
  have hbytes : text.toUTF8.data.toList.toByteArray = text.toUTF8 := by
    apply ByteArray.ext
    rw [List.data_toByteArray, Array.toArray_toList]
  have hfill := fillBuffer_on h text.toUTF8.size 1 text.toUTF8.data.toList
    (f := fun x memory => memory.writeBytes x.ptr text.toUTF8) fun x memory hptr _ hroom => by
      rw [hbytes, Memory.writeBytes_eq_ok (by rw [hptr]; omega), hptr]
  rw [Nat.mul_one] at hfill
  exact hfill

/-- An array is copied into a buffer. -/
theorem passArray_on (h : b.On g top top extra) (style : AccessStyle) (items : ScalarArray) :
    (passArray style items).Fills g top extra b items.byteLength
      (items.items.flatMap LittleEndian.encode) (Handle.Lies top items.byteLength) := by
  refine fillBuffer_on h items.length items.kind.width (items.items.flatMap LittleEndian.encode)
    (f := fun x memory => memory.writeScalars style x.ptr items.items) fun x memory hptr hguest hroom => ?_
  have hsize : memory.size ≤ 2 ^ 32 := by
    have hbound := hguest.bounds.2
    unfold heapCapacity pageSize at hbound
    omega
  have hencode : style.encode = LittleEndian.encode := funext style.encode_eq
  rw [Memory.writeScalars_eq_ok style items.items memory x.ptr items.homogeneous hsize
    (by rw [hptr]; exact hroom), hptr, hencode]

theorem arrayMismatch?_eq_none {kind : ScalarKind} {a : Argument}
    (h : a.arrayMismatch? kind = none) : ∃ items, a.array? = some items ∧ items.kind = kind := by
  unfold Argument.arrayMismatch? at h
  split at h
  · rename_i items harray
    by_cases hkind : items.kind = kind
    · exact ⟨items, harray, hkind⟩
    · rw [if_neg hkind] at h
      cases h
  · cases h

/-- The arguments that a parameter takes: a scalar by value, a text, or an array. -/
theorem mismatch?_eq_none {param : ParamKind} {a : Argument} (h : a.mismatch? param = none) :
    (∃ kind v s, param = .scalar kind ∧ a = .byValue v ∧ Scalar.ofValue? kind v = some s) ∨
    (∃ text, param = .str ∧ a = .byValue (.str text)) ∨
    (∃ kind items, (param = .slice kind ∨ param = .sliceMut kind ∨ param = .vec kind) ∧
      a.array? = some items ∧ items.kind = kind) := by
  unfold Argument.mismatch? at h
  split at h
  · rename_i kind v
    split at h
    · rename_i s hs
      exact .inl ⟨kind, v, s, rfl, rfl, hs⟩
    · cases h
  · rename_i text
    exact .inr (.inl ⟨text, rfl, rfl⟩)
  · rename_i kind
    obtain ⟨items, harray, hkind⟩ := arrayMismatch?_eq_none h
    exact .inr (.inr ⟨kind, items, .inl rfl, harray, hkind⟩)
  · rename_i kind _
    obtain ⟨items, harray, hkind⟩ := arrayMismatch?_eq_none h
    exact .inr (.inr ⟨kind, items, .inr (.inl rfl), harray, hkind⟩)
  · rename_i kind _
    obtain ⟨items, harray, hkind⟩ := arrayMismatch?_eq_none h
    exact .inr (.inr ⟨kind, items, .inr (.inr rfl), harray, hkind⟩)
  · cases h

theorem array?_eq_some {a : Argument} {items : ScalarArray} (h : a.array? = some items) :
    a = .byValue (.array items) ∨ a = .inPlace items := by
  rcases a with (_ | _ | _ | _ | _ | _ | _ | _ | _) | _ <;> cases h
  · exact .inl rfl
  · exact .inr rfl

/-- How an array is passed, to whatever parameter that takes one. -/
theorem passArgument_array (style : AccessStyle) (name : String) {param : ParamKind} {a : Argument}
    {kind : ScalarKind} {items : ScalarArray}
    (hparam : param = .slice kind ∨ param = .sliceMut kind ∨ param = .vec kind)
    (harray : a.array? = some items) :
    passArgument style name param a = (do
      let x ← passArray style items
      return ⟨[.i32 x.ptr, .i32 items.length.toUInt32], some x⟩) ∧
    a.extent = items.byteLength ∧ a.payload = items.items.flatMap LittleEndian.encode ∧
    ∀ top, a.lowered top param = [.i32 (.ofNat top), .i32 (.ofNat items.length)] := by
  rcases array?_eq_some harray with rfl | rfl <;> rcases hparam with rfl | rfl | rfl
  all_goals exact ⟨rfl, rfl, rfl, fun top => rfl⟩

/-- A scalar needs no buffer. -/
theorem extent_scalar {kind : ScalarKind} {v : Value} {s : Scalar}
    (h : Scalar.ofValue? kind v = some s) :
    (Argument.byValue v).extent = 0 ∧ (Argument.byValue v).payload = [] := by
  cases v with
  | str text => cases kind <;> cases h
  | array items => cases kind <;> cases h
  | unit | bool | i32 | i64 | f32 | f64 | bigDecimal => exact ⟨rfl, rfl⟩

/-- **Passing an argument** that was checked. -/
theorem passArgument_on (h : b.On g top top extra) (style : AccessStyle) (name : String)
    {param : ParamKind} {a : Argument} (hchecked : a.mismatch? param = none) :
    (passArgument style name param a).Fills g top extra b a.extent a.payload fun passed b' =>
      passed.raw = a.lowered top param ∧ ∀ x, passed.handle? = some x → x.bare ∈ b'.ledger.pile := by
  have hheld : ∀ {x : Handle} {b' : Books Instance}, x.bare ∈ b'.ledger.pile →
      ∀ y, some x = some y → y.bare ∈ b'.ledger.pile := fun hx y hy => Option.some.inj hy ▸ hx
  rcases mismatch?_eq_none hchecked with ⟨kind, v, s, rfl, rfl, hs⟩ | ⟨text, rfl, rfl⟩ |
      ⟨kind, items, hparam, harray, -⟩
  · obtain ⟨hextent, hpayload⟩ := extent_scalar hs
    unfold Action.Fills
    rw [hextent, show blockSize 0 = 0 from rfl, Nat.add_zero, if_pos h.le_capacity.1]
    refine ⟨⟨[s.lower], none⟩, b, ?_, ⟨?_, nofun⟩, .refl h, ?_⟩
    · unfold passArgument
      simp only [hs]
      rfl
    · simp [Argument.lowered, hs]
    · rw [hpayload, Memory.write_nil, Memory.reach_of_le h.inside]
  · refine (passText_on h text).map fun x b' hx => ⟨?_, hheld hx.held⟩
    rw [hx.ptr, hx.len]
    rfl
  · obtain ⟨hpass, hextent, hpayload, hlowered⟩ := passArgument_array style name hparam harray
    rw [hpass, hextent, hpayload, hlowered]
    refine (passArray_on h style items).map fun x b' hx => ⟨?_, hheld hx.held⟩
    rw [hx.ptr]

/-- **Passing arguments** that were checked, one after the other. Where there is no room for one of them, those
in front of it are piled up. -/
theorem passArguments_on (style : AccessStyle) (name : String) :
    ∀ {pairs : List (ParamKind × Argument)} {top : Nat} {b : Books Instance},
    b.On g top top extra → (∀ pair ∈ pairs, pair.2.mismatch? pair.1 = none) →
    if top + extents pairs ≤ heapCapacity then
      ∃ passed b', passArguments style name pairs b = (.ok passed, b') ∧
        passed.map (·.raw) = lowerings top pairs ∧
        (∀ p ∈ passed, ∀ x, p.handle? = some x → x.bare ∈ b'.ledger.pile) ∧
        Books.Raised g (top + extents pairs) extra b b' ∧
        b'.guest.store.memory = b.guest.store.memory.filled top pairs
    else ∃ n fault k b', passArguments style name pairs b = (.error (.allocation n fault), b') ∧
      b'.On g (top + extents (pairs.take k)) (top + extents (pairs.take k)) extra ∧
      b'.guest.store.memory = b.guest.store.memory.filled top (pairs.take k)
  | [], top, b, h, _ => by
    rw [extents, Nat.add_zero, if_pos h.le_capacity.1]
    exact ⟨[], b, rfl, rfl, fun p hp => (nomatch hp), .refl h, rfl⟩
  | (param, a) :: rest, top, b, h, hchecked => by
    have hfirst := passArgument_on h style name (hchecked (param, a) List.mem_cons_self)
    unfold Action.Fills at hfirst
    rw [extents, ← Nat.add_assoc]
    unfold passArguments
    by_cases hone : top + blockSize a.extent ≤ heapCapacity
    · rw [if_pos hone] at hfirst
      obtain ⟨passed, b₁, hpass, ⟨hraw, hheld⟩, hraised, hmemory⟩ := hfirst
      rw [Action.bind_ok hpass]
      have hothers := passArguments_on style name hraised.on
        (fun pair hpair => hchecked pair (List.mem_cons_of_mem _ hpair))
      by_cases hall : top + blockSize a.extent + extents rest ≤ heapCapacity
      · rw [if_pos hall] at hothers ⊢
        obtain ⟨others, b₂, hpass₂, hraw₂, hheld₂, hraised₂, hmemory₂⟩ := hothers
        refine ⟨passed :: others, b₂, ?_, ?_, ?_, hraised.trans hraised₂ (Nat.le_add_right ..), ?_⟩
        · rw [Action.bind_ok hpass₂]
          rfl
        · rw [List.map_cons, hraw, hraw₂]
          rfl
        · intro p hp x hx
          rcases List.mem_cons.mp hp with rfl | hp
          · exact hraised₂.kept _ (hheld x hx)
          · exact hheld₂ p hp x hx
        · rw [hmemory₂, hmemory]
          rfl
      · rw [if_neg hall] at hothers ⊢
        obtain ⟨n, fault, k, b₂, hpass₂, hon, hmemory₂⟩ := hothers
        refine ⟨n, fault, k + 1, b₂, Action.bind_error hpass₂, ?_, ?_⟩
        · rwa [List.take_succ_cons, extents, ← Nat.add_assoc]
        · rw [hmemory₂, hmemory]
          rfl
    · rw [if_neg hone] at hfirst
      rw [if_neg (by omega)]
      obtain ⟨n, fault, b', hpass, hon, hmemory⟩ := hfirst
      exact ⟨n, fault, 0, b', Action.bind_error hpass, hon, hmemory⟩

/-- Arguments pass the check if they fit their parameters. -/
theorem checkArguments_eq_ok {name : String} : ∀ {params : List ParamKind} {arguments : List Argument}
    {index : Nat}, checkArguments name index params arguments = .ok () ↔
      ∀ pair ∈ params.zip arguments, pair.2.mismatch? pair.1 = none
  | [], _, _ => by
    rw [checkArguments] <;> simp
  | _ :: _, [], _ => iff_of_true rfl fun _ hpair => nomatch hpair
  | param :: params, a :: arguments, index => by
    have hrest := @checkArguments_eq_ok name params arguments (index + 1)
    rw [checkArguments, Argument.check, List.zip_cons_cons, List.forall_mem_cons, ← hrest]
    cases hfits : a.mismatch? param <;> simp

end

/-! ### Copying back -/

section

variable {g : Ground} {top heap : Nat} {extra : UInt32} {b : Books Instance}

theorem copyBack_on (h : b.On g top heap extra) (style : AccessStyle) {x : Handle}
    (hx : x.bare ∈ b.ledger.pile) (items : ScalarArray) :
    ∃ result items' b', copyBack style x items b = (result, items', b') ∧ b'.On g top heap extra ∧
      b'.ledger.pile = b.ledger.pile ∧ b'.guest.store = b.guest.store ∧ ¬ OutOfMemory result := by
  obtain ⟨y, b', hrefresh, hon, -, -, rfl, hpile⟩ := refresh_on h hx
  have hstore := b.guest.store_observe
  unfold copyBack
  rw [hrefresh]
  dsimp only
  split
  · exact ⟨_, _, _, rfl, hon, hpile, hstore, not_outOfMemory_ok ()⟩
  · rename_i hread
    have hkind := Memory.readElementsFrom_error hread
    refine ⟨_, _, _, rfl, hon, hpile, hstore, not_outOfMemory_error fun h => ?_⟩
    rw [hkind] at h
    cases h

/-- **Copying back** only refreshes handles and reads. -/
theorem copyBackAll_on (style : AccessStyle) {pairs : List (ParamKind × Passed)}
    (arguments : List Argument) (h : b.On g top heap extra)
    (hheld : ∀ pair ∈ pairs, ∀ x, pair.2.handle? = some x → x.bare ∈ b.ledger.pile) :
    ∃ result arguments' b', copyBackAll style pairs arguments b = (result, arguments', b') ∧
      b'.On g top heap extra ∧ b'.guest.store = b.guest.store ∧ ¬ OutOfMemory result := by
  induction pairs generalizing arguments b with
  | nil => exact ⟨_, _, _, rfl, h, rfl, not_outOfMemory_ok ()⟩
  | cons pair rest ih =>
    have hrest : ∀ pair ∈ rest, ∀ x, pair.2.handle? = some x → x.bare ∈ b.ledger.pile :=
      fun pair hpair => hheld pair (List.mem_cons_of_mem _ hpair)
    unfold copyBackAll
    split
    · rename_i b _ _ _ kind raw x rest' items arguments heq
      cases heq
      have hx : x.bare ∈ b.ledger.pile := hheld _ List.mem_cons_self x rfl
      obtain ⟨result, items', b₁, hcopy, hon, hpile, hstore, hfits⟩ := copyBack_on h style hx items
      rw [hcopy]
      cases result with
      | error e => exact ⟨_, _, _, rfl, hon, hstore, hfits⟩
      | ok u =>
        obtain ⟨result, arguments', b₂, hall, hon₂, hstore₂, hfits₂⟩ :=
          ih arguments hon fun pair hpair => by rw [hpile]; exact hrest pair hpair
        dsimp only
        rw [hall]
        exact ⟨_, _, _, rfl, hon₂, hstore₂.trans hstore, hfits₂⟩
    · rename_i b _ _ _ _ _ a arguments _ heq
      cases heq
      obtain ⟨result, arguments', b₂, hall, hon₂, hstore₂, hfits₂⟩ := ih arguments h hrest
      rw [hall]
      exact ⟨_, _, _, rfl, hon₂, hstore₂, hfits₂⟩
    · exact ⟨_, _, _, rfl, h, rfl, not_outOfMemory_ok ()⟩

end

end GuestCall
