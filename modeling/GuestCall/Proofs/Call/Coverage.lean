/-
# Buffers that the memory covers

Every buffer that the host takes for an argument lies in the memory of the guest: the memory is made to cover
it before anything is written there. It stays so, since the memory never shrinks. The buffers of a result are
different. The guest says where they are and how large, and this is taken for granted until they are given
back. So once a call has worked, the buffers that the memory does not cover are those of its result.

Key definitions: `Books.Covered`, `Action.KeepsCovered`, `Books.Overdrawn`.
Key theorems: `keepsCovered_passArguments`, `decodeResult_ok`, `Plan.Course.overdrawn`.
-/
import GuestCall.Proofs.Call.Descriptor

namespace GuestCall

open Ledger GuestCall.Action

/-! ### Buffers that the memory covers -/

/-- The memory covers every buffer that is out. -/
def Books.Covered (b : Books Instance) : Prop := ∀ x ∈ b.ledger.outstanding, x.stop ≤ b.guest.memoryLength

/-- A step after which, if it works, the memory covers every buffer that is out, if it did before. -/
def Action.KeepsCovered {α : Type} (x : Action Instance α) : Prop :=
  ∀ ⦃b b' : Books Instance⦄ ⦃a : α⦄, b.Covered → x b = (.ok a, b') → b'.Covered

theorem Books.Covered.later {l : Ledger} {guest guest' : Instance} (h : (⟨l, guest⟩ : Books Instance).Covered)
    (hlater : guest.memoryLength ≤ guest'.memoryLength) : (⟨l, guest'⟩ : Books Instance).Covered :=
  fun x hx => Nat.le_trans (h x hx) hlater

namespace Action

variable {α β : Type} {x : Action Instance α} {f : α → Action Instance β}

theorem KeepsCovered.bind (hx : x.KeepsCovered) (hf : ∀ a, (f a).KeepsCovered) : (x >>= f).KeepsCovered := by
  intro b b' v h hstep
  obtain ⟨a, b₁, hfirst, hrest⟩ := of_bind_ok hstep
  exact hf a (hx h hfirst) hrest

theorem keepsCovered_ofExcept (result : Except BindError α) :
    (ofExcept result : Action Instance α).KeepsCovered := by
  intro b b' v h hstep
  cases hstep
  exact h

theorem keepsCovered_return (a : α) : (return a : Action Instance α).KeepsCovered :=
  keepsCovered_ofExcept (.ok a)

theorem keepsCovered_fail (e : BindError) : (fail e : Action Instance α).KeepsCovered :=
  keepsCovered_ofExcept (.error e)

theorem keepsCovered_onGuest {f : Instance → Except BindError α × Instance}
    (hf : ∀ i, i.memoryLength ≤ (f i).2.memoryLength) : (onGuest f).KeepsCovered := by
  rintro ⟨l, guest⟩ b' v h hstep
  have hlater := hf guest
  obtain rfl := congrArg Prod.snd hstep
  exact h.later hlater

end Action

section

variable {b b' : Books Instance}

theorem keepsCovered_onMemory {α : Type} {f : Memory → Except BindError α × Memory}
    (hf : ∀ memory, memory.size ≤ (f memory).2.size) :
    (onGuest (Instance.onMemory f)).KeepsCovered :=
  keepsCovered_onGuest fun ⟨_, ⟨memory, _⟩, _, _, _⟩ => hf memory

theorem keepsCovered_refresh (x : Handle) : (refresh x : Action Instance Handle).KeepsCovered := by
  intro b b' y h hstep
  obtain ⟨hinside, epoch, guest, hlook, rfl⟩ := refresh_ok hstep
  cases hlook
  rw [Books.Covered, Instance.memoryLength_observe]
  intro z hz
  obtain ⟨o, ho, rfl⟩ := List.mem_map.mp hz
  split
  · exact hinside
  · exact h o ho

/-- A new buffer is the newest one that is out. -/
theorem outstanding_allocate {n : UInt32} {x : Handle} (h : allocate n b = (.ok x, b')) :
    b'.ledger.outstanding = x :: b.ledger.outstanding ∧ b.guest.memoryLength ≤ b'.guest.memoryLength := by
  obtain ⟨result, guest, halloc, hlater, -⟩ := b.guest.alloc_later n
  unfold allocate at h
  dsimp only at h
  rw [show GuestAllocator.alloc b.guest n = _ from halloc] at h
  rcases result with e | ptr
  · cases h
  dsimp only at h
  split at h
  · cases h
  · cases h
    refine ⟨rfl, Nat.le_trans hlater.memoryLength_le ?_⟩
    rw [Instance.memoryLength_observe]

theorem keepsCovered_takeBuffer (n : UInt32) : (takeBuffer n).KeepsCovered := by
  intro b b' y h hstep
  obtain ⟨x, ⟨l, guest⟩, halloc, hrest⟩ := of_bind_ok hstep
  obtain ⟨hout, hgrown⟩ := outstanding_allocate halloc
  obtain ⟨grew, b₂, hensure, hrest⟩ := of_bind_ok hrest
  obtain ⟨result, memory, hmemory, hlater, hcovered, -⟩ :=
    guest.store.memory.ensure_grown guest.pageLimit x.stop
  have hguest : guest.ensure x.stop = (result, { guest with store := ⟨memory, guest.store.globals⟩ }) := by
    unfold Instance.ensure Instance.onMemory
    dsimp only
    rw [hmemory]
  cases (onGuest_eq hguest).symm.trans hensure
  -- The new buffer is covered since the memory was made to, the others since they were before.
  have hall : (⟨l, { guest with store := ⟨memory, guest.store.globals⟩ }⟩ : Books Instance).Covered := by
    rw [Books.Covered, show l.outstanding = _ from hout]
    refine List.forall_mem_cons.mpr ⟨hcovered grew rfl, fun z hz => ?_⟩
    exact Nat.le_trans (h z hz) (Nat.le_trans hgrown hlater.size_le)
  cases grew with
  | false =>
    cases hrest
    exact hall
  | true => exact keepsCovered_refresh x hall hrest

theorem Memory.size_writeBytes (m : Memory) (offset : UInt32) (source : ByteArray) :
    (m.writeBytes offset source).2.size = m.size := by
  unfold writeBytes
  split
  · exact size_write ..
  · rfl

theorem Memory.size_writeScalars (style : AccessStyle) : ∀ (items : List Scalar) (m : Memory)
    (offset : UInt32), (m.writeScalars style offset items).2.size = m.size
  | [], m, offset => rfl
  | s :: rest, m, offset => by
    have hfirst : (m.writeScalar style offset s).2.size = m.size := by
      cases style with
      | native => exact size_writeBytes ..
      | littleEndian =>
        unfold writeScalar
        dsimp only
        split
        · exact size_write ..
        · rfl
    rw [writeScalars]
    split <;> rename_i heq <;> rw [heq] at hfirst
    · exact (size_writeScalars style rest _ _).trans hfirst
    · exact hfirst

theorem keepsCovered_passText (text : String) : (passText text).KeepsCovered := by
  refine (keepsCovered_ofExcept _).bind fun n => ?_
  refine (keepsCovered_takeBuffer n).bind fun x => ?_
  refine (keepsCovered_onMemory fun memory => ?_).bind fun _ => keepsCovered_return x
  exact Nat.le_of_eq (memory.size_writeBytes _ _).symm

theorem keepsCovered_passArray (style : AccessStyle) (items : ScalarArray) :
    (passArray style items).KeepsCovered := by
  refine (keepsCovered_ofExcept _).bind fun n => ?_
  refine (keepsCovered_takeBuffer n).bind fun x => ?_
  refine (keepsCovered_onMemory fun memory => ?_).bind fun _ => keepsCovered_return x
  exact Nat.le_of_eq (Memory.size_writeScalars style _ memory _).symm

theorem keepsCovered_passArgument (style : AccessStyle) (name : String) (param : ParamKind) (a : Argument) :
    (passArgument style name param a).KeepsCovered := by
  unfold passArgument
  split
  · split
    · exact keepsCovered_return _
    · exact keepsCovered_fail _
  · exact (keepsCovered_passText _).bind fun _ => keepsCovered_return _
  · split
    · exact (keepsCovered_passArray _ _).bind fun _ => keepsCovered_return _
    · exact keepsCovered_fail _

theorem keepsCovered_passArguments (style : AccessStyle) (name : String) :
    ∀ pairs : List (ParamKind × Argument), (passArguments style name pairs).KeepsCovered
  | [] => keepsCovered_return _
  | (param, a) :: rest =>
    (keepsCovered_passArgument style name param a).bind fun _ =>
      (keepsCovered_passArguments style name rest).bind fun _ => keepsCovered_return _

/-- Copying back keeps every buffer covered. -/
theorem copyBackAll_keepsCovered (style : AccessStyle) (pairs : List (ParamKind × Passed))
    (arguments : List Argument) (h : b.Covered) : (copyBackAll style pairs arguments b).2.2.Covered := by
  have hrefresh : ∀ (x : Handle) {b : Books Instance}, b.Covered → (refresh x b).2.Covered := by
    intro x b h
    rcases hrefresh : refresh x b with ⟨e | y, b'⟩
    · obtain ⟨rfl, -⟩ := refresh_error hrefresh
      exact h
    · exact keepsCovered_refresh x h hrefresh
  have hone : ∀ (x : Handle) (target : ScalarArray) {b : Books Instance}, b.Covered →
      (copyBack style x target b).2.2.Covered := by
    intro x target b h
    have hkept := hrefresh x h
    unfold copyBack
    split <;> rename_i heq <;> rw [heq] at hkept
    · exact hkept
    · split <;> exact hkept
  fun_induction copyBackAll style pairs arguments b with
  | case1 kind raw x rest items arguments b e items' b' hcopy =>
    have hfirst := hone x items h
    rwa [hcopy] at hfirst
  | case2 kind raw x rest items arguments b u items' b' hcopy result arguments' b'' hrest ih =>
    have hfirst := hone x items h
    rw [hcopy] at hfirst
    have hkept := ih hfirst
    rwa [hrest] at hkept
  | case3 pair rest a arguments b other result arguments' b' hrest ih =>
    have hkept := ih h
    rwa [hrest] at hkept
  | case4 => exact h

/-! ### Buffers of a result -/

/-- A step that only looks, and then another one. -/
theorem of_bind_looking {α β : Type} {x : Action Instance α} {f : α → Action Instance β} {v : β}
    (hx : (x b).2 = b) (h : (x >>= f) b = (.ok v, b')) : ∃ a, (x b).1 = .ok a ∧ f a b = (.ok v, b') := by
  obtain ⟨a, b₁, hfirst, hrest⟩ := of_bind_ok h
  rw [hfirst] at hx ⊢
  obtain rfl : b₁ = b := hx
  exact ⟨a, rfl, hrest⟩

/-- **When a descriptor is followed**: its address is not zero and it is read, its capacity has a size that an
address can have, and it covers the length. -/
theorem adoptBuffer_eq_ok {style : AccessStyle} {name : String} {width : Nat} {raw : CoreValue}
    {r : Handle × UInt32} : adoptBuffer style name width raw b = (.ok r, b') ↔
      ∃ address d, raw = .i32 address ∧ address ≠ 0 ∧
        Descriptor.read style b.guest.store.memory address = .ok d ∧ d.Fits width ∧ d.len ≤ d.cap ∧
        r = (d.dataHandle width b.ledger.nextId b.guest.observe.epoch, d.len) ∧
        b' = b.followed d width address := by
  constructor
  · intro h
    obtain ⟨address, haddress, hrest⟩ := of_bind_looking rfl h
    obtain ⟨d, hread, -⟩ := of_bind_looking rfl hrest
    obtain ⟨rfl, hne⟩ : raw = .i32 address ∧ address ≠ 0 := by
      have hword : descriptorAddress name raw = .ok address := haddress
      clear haddress
      unfold descriptorAddress at hword
      split at hword
      · cases hword
      · rename_i hne
        cases hword
        exact ⟨rfl, hne⟩
      · cases hword
    rw [adoptBuffer_eq style name width hne hread] at h
    by_cases hfits : d.Fits width
    · rw [if_pos hfits] at h
      by_cases hlen : d.cap < d.len
      · rw [if_pos hlen] at h
        cases h
      · rw [if_neg hlen] at h
        cases h
        exact ⟨address, d, rfl, hne, hread, hfits, UInt32.not_lt.mp hlen, rfl, rfl⟩
    · rw [if_neg hfits] at h
      cases h
  · rintro ⟨address, d, rfl, hne, hread, hfits, hlen, rfl, rfl⟩
    rw [adoptBuffer_eq style name width hne hread, if_pos hfits, if_neg (UInt32.not_lt.mpr hlen)]

/-- **Following a descriptor**: it was read, and its data and then itself are out. -/
theorem adoptBuffer_ok {style : AccessStyle} {name : String} {width : Nat} {raw : CoreValue}
    {r : Handle × UInt32} (h : adoptBuffer style name width raw b = (.ok r, b')) :
    ∃ address d, Descriptor.read style b.guest.store.memory address = .ok d ∧ d.Fits width ∧
      b' = b.followed d width address := by
  obtain ⟨address, d, -, -, hread, hfits, -, -, hb⟩ := adoptBuffer_eq_ok.mp h
  exact ⟨address, d, hread, hfits, hb⟩

theorem takeText_ok {style : AccessStyle} {name text : String} {raw : CoreValue}
    (h : takeText style name raw b = (.ok text, b')) :
    ∃ address d, Descriptor.read style b.guest.store.memory address = .ok d ∧ d.Fits 1 ∧
      b' = b.followed d 1 address := by
  obtain ⟨⟨x, len⟩, b₁, hadopt, hrest⟩ := of_bind_ok h
  obtain ⟨bytes, -, hrest⟩ := of_bind_looking rfl hrest
  rcases hdecode : Utf8.decode bytes with fault | decoded <;> rw [hdecode] at hrest <;> cases hrest
  exact adoptBuffer_ok hadopt

/-- **Decoding that works** leaves the books alone, or it has followed a descriptor. -/
theorem decodeResult_ok {style : AccessStyle} {name : String} {ret : ReturnKind} {raw : List CoreValue}
    {v : Value} (h : decodeResult style name ret raw b = (.ok v, b')) :
    b' = b ∨ ret.isBuffer = true ∧ ∃ address d,
      Descriptor.read style b.guest.store.memory address = .ok d ∧ d.Fits ret.elementWidth ∧
      b' = b.followed d ret.elementWidth address := by
  unfold decodeResult at h
  cases ret with
  | unit =>
    cases h
    exact .inl rfl
  | scalar kind =>
    obtain ⟨first, -, hrest⟩ := of_bind_looking rfl h
    obtain ⟨s, -, hrest⟩ := of_bind_looking rfl hrest
    cases hrest
    exact .inl rfl
  | vec kind =>
    obtain ⟨first, -, hrest⟩ := of_bind_looking rfl h
    obtain ⟨items, b₁, htake, hrest⟩ := of_bind_ok hrest
    obtain ⟨r, b₂, hadopt, hlook⟩ := of_bind_ok htake
    obtain rfl : b₂ = b₁ := congrArg Prod.snd hlook
    cases hrest
    exact .inr ⟨rfl, adoptBuffer_ok hadopt⟩
  | str =>
    obtain ⟨first, -, hrest⟩ := of_bind_looking rfl h
    obtain ⟨text, b₁, htake, hrest⟩ := of_bind_ok hrest
    cases hrest
    exact .inr ⟨rfl, takeText_ok htake⟩
  | bigDecimal =>
    obtain ⟨first, -, hrest⟩ := of_bind_looking rfl h
    obtain ⟨text, b₁, htake, hrest⟩ := of_bind_ok hrest
    split at hrest <;> cases hrest
    exact .inr ⟨rfl, takeText_ok htake⟩

end

/-- A result has a buffer that reaches out of the memory: its data, as the descriptor says it is, or the
descriptor. -/
def Books.Overdrawn (style : AccessStyle) (ret : ReturnKind) (b : Books Instance) : Prop :=
  ret.isBuffer = true ∧ ∃ (before : Books Instance) (address : UInt32) (d : Descriptor),
    Descriptor.read style before.guest.store.memory address = .ok d ∧ d.Fits ret.elementWidth ∧
    b = before.followed d ret.elementWidth address ∧
    (b.guest.memoryLength < d.ptr.toNat + d.cap.toNat * ret.elementWidth ∨
      b.guest.memoryLength < address.toNat + Descriptor.width.toNat)

namespace Plan

variable {p : Plan} {style : AccessStyle} {arguments arguments' : List Argument} {b b' : Books Instance}

/-- The memory covers all buffers when the result is decoded. -/
theorem Back.covered {passed : List Passed} {raw : List CoreValue} {b₂ b₃ : Books Instance}
    (h : b.Covered) (hback : p.Back style arguments b passed raw b₂ b₃) : b₃.Covered := by
  obtain ⟨b₁, hpasses, hcall⟩ := hback.returns.step
  have hpassed := keepsCovered_passArguments _ _ _ h hpasses.step
  have hguest : (onGuest (Instance.call p.exportName (passed.flatMap (·.raw)))).KeepsCovered :=
    keepsCovered_onGuest fun i => (i.later_call _ _).memoryLength_le
  have hcalled := hguest hpassed hcall
  have hcopied := copyBackAll_keepsCovered style (p.signature.params.zip passed) arguments hcalled
  rwa [hback.step] at hcopied

/-- **A call that worked leaves no buffer uncovered**, but for those of its result. -/
theorem Course.overdrawn {v : Value} (h : b.Covered)
    (hcourse : p.Course style arguments b (.ok v) arguments' b') {x : Handle}
    (hx : x ∈ b'.ledger.outstanding) (hout : b'.guest.memoryLength < x.stop) :
    b'.Overdrawn style p.signature.ret := by
  have hdecoded : ∀ {raw : List CoreValue} {b₃ : Books Instance} {v : Value}, b₃.Covered →
      decodeResult style p.exportName p.signature.ret raw b₃ = (.ok v, b') →
      b'.Overdrawn style p.signature.ret := by
    intro raw b₃ v h hdecode
    rcases decodeResult_ok hdecode with rfl | ⟨hbuffer, address, d, hread, hfits, rfl⟩
    · exact absurd (h x hx) (Nat.not_le.mpr hout)
    have hroom : (d.cap.toNat * p.signature.ret.elementWidth).toUInt32.toNat =
        d.cap.toNat * p.signature.ret.elementWidth :=
      UInt32.toNat_ofNat_of_lt' (Nat.lt_succ_of_le hfits)
    refine ⟨hbuffer, b₃, address, d, hread, hfits, rfl, ?_⟩
    rcases List.mem_cons.mp hx with rfl | hx
    · exact .inr hout
    rcases List.mem_cons.mp hx with rfl | hx
    · exact .inl (hroom ▸ hout)
    · refine absurd (h x hx) (Nat.not_le.mpr ?_)
      rwa [← b₃.guest.memoryLength_observe]
  cases hcourse with
  | given standard back decode => exact hdecoded (back.covered h) decode
  | delivered legacy back decode => exact hdecoded (back.covered h) decode

end Plan

end GuestCall
