/-
# Descriptors are given back

An export that returns a buffer returns the address of a descriptor. Following it enters the data and then
the descriptor itself in the ledger, before anything is read from the data. So whatever comes of decoding, the
descriptor is the newest buffer when the call gives everything back, and is the first to be freed.

There is one exception: a descriptor whose capacity does not fit the address space is refused before anything
is entered. Then the call frees buffers of its arguments only, and the guest keeps the descriptor.

Key definitions: `Ledger.Restamped`, `Books.followed`, `Plan.PointsTo`.
Key theorems: `copyBackAll_restamped`, `adoptBuffer_eq`, `decodeResult_followed`, `Plan.perform_of_call`,
`Plan.perform_followed`, `followed_descriptor_is_freed`.
-/
import GuestCall.Proofs.Call.Service
import GuestCall.Proofs.Call.Styles
import GuestCall.Proofs.Sample.Calls

namespace GuestCall

open Ledger GuestCall.Action

variable {style : AccessStyle} {name : String} {b b' : Books Instance}

/-! ### Copying back refreshes handles and does nothing else -/

/-- A ledger after some outstanding handles were replaced by later copies. -/
structure Ledger.Restamped (l l' : Ledger) : Prop where
  ids : l'.outstanding.map (·.id) = l.outstanding.map (·.id)
  others : { l' with outstanding := l.outstanding } = l

namespace Ledger

variable {l l' l'' : Ledger}

theorem Restamped.refl (l : Ledger) : l.Restamped l := ⟨rfl, rfl⟩

theorem Restamped.trans (h : l.Restamped l') (h' : l'.Restamped l'') : l.Restamped l'' := by
  refine ⟨h'.ids.trans h.ids, ?_⟩
  have hothers := h.others
  rw [← h'.others] at hothers
  exact hothers

theorem restamped_restamp (l : Ledger) (x : Handle) : l.Restamped (l.restamp x) := by
  refine ⟨?_, rfl⟩
  unfold restamp
  rw [List.map_map]
  refine List.map_congr_left fun o _ => ?_
  rw [Function.comp_apply]
  by_cases hid : o.id = x.id
  · rw [if_pos hid, hid]
  · rw [if_neg hid]

end Ledger

theorem copyBack_restamped (style : AccessStyle) (x : Handle) (target : ScalarArray)
    (b : Books Instance) : b.ledger.Restamped (copyBack style x target b).2.2.ledger := by
  have hrefreshed : b.ledger.Restamped (refresh x b).2.ledger := by
    rcases refresh_cases x b with ⟨e, hrefresh, -⟩ | ⟨epoch, guest, -, hrefresh⟩ <;> rw [hrefresh]
    · exact .refl _
    · exact restamped_restamp ..
  unfold copyBack
  split <;> rename_i heq <;> rw [heq] at hrefreshed
  · exact hrefreshed
  · split <;> exact hrefreshed

theorem copyBackAll_restamped (style : AccessStyle) (pairs : List (ParamKind × Passed))
    (arguments : List Argument) (b : Books Instance) :
    b.ledger.Restamped (copyBackAll style pairs arguments b).2.2.ledger := by
  fun_induction copyBackAll style pairs arguments b with
  | case1 kind raw x rest items arguments b e items' b' hcopy =>
    have hfirst := copyBack_restamped style x items b
    rwa [hcopy] at hfirst
  | case2 kind raw x rest items arguments b u items' b' hcopy result arguments' b'' hrest ih =>
    have hfirst := copyBack_restamped style x items b
    rw [hcopy] at hfirst
    rw [hrest] at ih
    exact hfirst.trans ih
  | case3 pair rest a arguments b other result arguments' b' hrest ih =>
    rw [hrest] at ih
    exact ih
  | case4 => exact .refl _

/-! ### Following a descriptor -/

/-- A descriptor that lies in the memory is read. -/
theorem Descriptor.exists_read (style : AccessStyle) {memory : Memory} (hlinear : memory.IsLinear)
    {address : UInt32} (hinside : address.toNat + width.toNat ≤ memory.size) :
    ∃ d, Descriptor.read style memory address = .ok d := by
  have hsize := hlinear.size_le
  have hwidth : width.toNat = 12 := rfl
  have hfield : ∀ offset : UInt32, offset.toNat ≤ 8 →
      ∃ v, memory.readElement style (address + offset) .u32 = .ok v := by
    intro offset hoffset
    have hplace : (address + offset).toNat = address.toNat + offset.toNat := by
      rw [UInt32.toNat_add]
      omega
    refine ⟨_, Memory.readElement_eq_ok style ?_⟩
    rw [hplace, show ScalarKind.u32.width = 4 from rfl]
    omega
  obtain ⟨ptr, hptr⟩ := hfield ptrOffset (by decide)
  obtain ⟨len, hlen⟩ := hfield lenOffset (by decide)
  obtain ⟨cap, hcap⟩ := hfield capOffset (by decide)
  refine ⟨⟨ptr, len, cap⟩, ?_⟩
  unfold read
  rw [hptr, hlen, hcap]

/-- Whether the data of a descriptor has a size that an address can have. -/
def Descriptor.Fits (d : Descriptor) (width : Nat) : Prop := d.cap.toNat * width ≤ 0xFFFFFFFF

instance (d : Descriptor) (width : Nat) : Decidable (d.Fits width) := inferInstanceAs (Decidable (_ ≤ _))

/-- The handle of the data of a descriptor, and the one of the descriptor itself. -/
def Descriptor.dataHandle (d : Descriptor) (width id epoch : Nat) : Handle :=
  ⟨id, d.ptr, (d.cap.toNat * width).toUInt32, true, epoch⟩

@[inherit_doc Descriptor.dataHandle]
def Descriptor.ownHandle (address : UInt32) (id epoch : Nat) : Handle :=
  ⟨id, address, Descriptor.width, true, epoch⟩

/-- The books after a descriptor was followed: its data and then itself are out. -/
def Books.followed (b : Books Instance) (d : Descriptor) (width : Nat) (address : UInt32) :
    Books Instance where
  ledger := (b.ledger.enter (d.dataHandle width b.ledger.nextId b.guest.observe.epoch)).enter
    (Descriptor.ownHandle address (b.ledger.nextId + 1) b.guest.observe.epoch)
  guest := b.guest.observe

/-- **Following a descriptor** that can be read: it is refused for its capacity and nothing is entered, or its
data and then itself are, even if it is refused for its length then. -/
theorem adoptBuffer_eq (style : AccessStyle) (name : String) (width : Nat) {address : UInt32}
    (hne : address ≠ 0) {d : Descriptor}
    (hread : Descriptor.read style b.guest.store.memory address = .ok d) :
    adoptBuffer style name width (.i32 address) b =
      if d.Fits width then
        (if d.cap < d.len then .error (.encoding name (.lengthExceedsCapacity d.len d.cap))
          else .ok (d.dataHandle width b.ledger.nextId b.guest.observe.epoch, d.len),
        b.followed d width address)
      else (.error (.encoding name (.capacityOverflow d.cap)), b) := by
  have haddress : Action.ofExcept (descriptorAddress name (.i32 address)) b = (.ok address, b) := by
    rw [descriptorAddress_of_ne hne]
    rfl
  have hlook : lookAt (fun memory => Descriptor.read style memory address) b = (.ok d, b) :=
    congrArg (·, b) hread
  unfold adoptBuffer
  rw [Action.bind_ok haddress, Action.bind_ok hlook]
  by_cases hfits : d.Fits width
  · rw [if_neg (Nat.not_lt.mpr hfits), if_pos hfits]
    have hdata : adopt d.ptr (d.cap.toNat * width).toUInt32 b =
        (.ok (d.dataHandle width b.ledger.nextId b.guest.observe.epoch),
          ⟨b.ledger.enter (d.dataHandle width b.ledger.nextId b.guest.observe.epoch),
            b.guest.observe⟩) := rfl
    have hself : adopt address Descriptor.width
        ⟨b.ledger.enter (d.dataHandle width b.ledger.nextId b.guest.observe.epoch), b.guest.observe⟩ =
          (.ok (Descriptor.ownHandle address (b.ledger.nextId + 1) b.guest.observe.epoch),
            b.followed d width address) := by
      unfold adopt
      dsimp only
      rw [Instance.epoch_observe]
      rfl
    rw [Action.bind_ok hdata, Action.bind_ok hself]
    by_cases hlen : d.cap < d.len
    · rw [if_pos hlen, if_pos hlen]
      rfl
    · rw [if_neg hlen, if_neg hlen]
      rfl
  · rw [if_pos (Nat.not_le.mp hfits), if_neg hfits]
    rfl

/-- A buffer result whose descriptor is refused is not decoded. -/
theorem decodeResult_refused {ret : ReturnKind} (hret : ret.isBuffer = true) {raw : CoreValue}
    {e : BindError} (h : adoptBuffer style name ret.elementWidth raw b = (.error e, b')) :
    decodeResult style name ret [raw] b = (.error e, b') := by
  have hfirst : Action.ofExcept (firstResult name ret [raw]) b = (.ok raw, b) := rfl
  unfold decodeResult
  cases ret with
  | unit | scalar => cases hret
  | vec kind => exact (Action.bind_ok hfirst).trans (Action.bind_error (Action.bind_error h))
  | str | bigDecimal => exact (Action.bind_ok hfirst).trans (Action.bind_error (Action.bind_error h))

/-- **Decoding a buffer result** leaves the books as they are once its descriptor was followed, or it refuses
the descriptor and leaves them alone. -/
theorem decodeResult_followed (style : AccessStyle) (name : String) {ret : ReturnKind}
    (hret : ret.isBuffer = true) {address : UInt32} (hne : address ≠ 0) {d : Descriptor}
    (hread : Descriptor.read style b.guest.store.memory address = .ok d) :
    if d.Fits ret.elementWidth then ∃ result, decodeResult style name ret [.i32 address] b =
      (result, b.followed d ret.elementWidth address)
    else decodeResult style name ret [.i32 address] b =
      (.error (.encoding name (.capacityOverflow d.cap)), b) := by
  have hadopt := adoptBuffer_eq style name ret.elementWidth hne hread
  by_cases hfits : d.Fits ret.elementWidth
  · rw [if_pos hfits] at hadopt ⊢
    have hends : (adoptBuffer style name ret.elementWidth (.i32 address)).Ends b
        (b.followed d ret.elementWidth address) := by
      refine ⟨_, hadopt, ?_⟩
      rintro ⟨e, he, hkind⟩
      split at he
      · cases he
        cases hkind
      · cases he
    obtain ⟨result, hdecode, -⟩ := decodeResult_ends hret hends
    exact ⟨result, hdecode⟩
  · rw [if_neg hfits] at hadopt ⊢
    exact decodeResult_refused hret hadopt

/-! ### Calls whose export returns -/

/-- **Once the export has returned**, nothing happens to the books but that handles are refreshed, and the
decoded result makes the answer. -/
theorem Plan.perform_of_call {p : Plan} {arguments : List Argument} {passed : List Passed}
    {raw : List CoreValue} {b₁ : Books Instance} {guest : Instance} (h : b.Ready)
    (hcheck : p.check arguments = .ok ())
    (hpass : passArguments style p.exportName (p.signature.params.zip arguments) b = (.ok passed, b₁))
    (hcall : b₁.guest.call p.exportName (passed.flatMap (·.raw)) = (.ok raw, guest)) :
    List.Forall₂ (fun pair q => q.Covers pair.1 pair.2 b₁) (p.signature.params.zip arguments) passed ∧
    ∃ b₂ : Books Instance, b.Later b₂ ∧ b₁.ledger.Restamped b₂.ledger ∧ b₂.guest.store = guest.store ∧
      ∀ {result : Except BindError Value} {b₃ : Books Instance},
        decodeResult style p.exportName p.signature.ret raw b₂ = (result, b₃) →
        p.perform style arguments b =
          ((p.answer (p.returned style guest.store.memory passed arguments) result).1,
            (p.answer (p.returned style guest.store.memory passed arguments) result).2, b₃) := by
  obtain ⟨later₁, hcovers⟩ : b.Later b₁ ∧
      List.Forall₂ (fun pair q => q.Covers pair.1 pair.2 b₁) (p.signature.params.zip arguments)
        passed := by
    have hyields := passArguments_yields style p.exportName h (fits_of_check hcheck).2
    rcases hyields with ⟨step, later, hcovers⟩ | ⟨step, -⟩ <;> rw [hpass] at step <;> cases step
    exact ⟨later, hcovers⟩
  have hrun := Action.onGuest_eq hcall
  have later₂ : b₁.Later ⟨b₁.ledger, guest⟩ := by
    have hlater := Instance.later_call p.exportName (passed.flatMap (·.raw)) b₁.guest
    rw [hcall] at hlater
    exact Books.later_guest hlater
  obtain ⟨b₂, hcopy, later₃, hstore⟩ := copyBackAll_covered style (h.later (later₁.trans later₂))
    (hcovers.imp fun _ _ hq => hq.later later₂)
  have hrestamped := copyBackAll_restamped style (p.signature.params.zip passed) arguments
    ⟨b₁.ledger, guest⟩
  rw [hcopy] at hrestamped
  refine ⟨hcovers, b₂, (later₁.trans later₂).trans later₃, hrestamped, hstore, fun hdecode => ?_⟩
  unfold perform
  rw [hpass]
  exact finish_eq hrun hcopy hdecode

/-! ### Calls that follow a descriptor -/

namespace Plan

/-- In a call, the arguments were checked and passed, and the export returned an address that is not null,
with the bytes of a descriptor in the memory. Nothing is said about the fields of the descriptor. -/
structure PointsTo (p : Plan) (style : AccessStyle) (arguments : List Argument) (b : Books Instance)
    (passed : List Passed) (b₁ : Books Instance) (address : UInt32) (guest : Instance) : Prop where
  buffer : p.signature.ret.isBuffer = true
  checked : p.check arguments = .ok ()
  passes : passArguments style p.exportName (p.signature.params.zip arguments) b = (.ok passed, b₁)
  returns : b₁.guest.call p.exportName (passed.flatMap (·.raw)) = (.ok [.i32 address], guest)
  nonnull : address ≠ 0
  inside : address.toNat + Descriptor.width.toNat ≤ guest.memoryLength

variable {p : Plan} {arguments : List Argument} {passed : List Passed} {b₁ : Books Instance}
  {address : UInt32} {guest : Instance}

/-- **A call follows the descriptor** that its export returned, after nothing else than refreshing handles. It
is refused for its capacity, or it is out at the end, and so is its data. -/
theorem perform_followed (h : b.Ready) (hp : p.PointsTo style arguments b passed b₁ address guest) :
    ∃ d result arguments' b₂, Descriptor.read style guest.store.memory address = .ok d ∧
      b.Later b₂ ∧ b₁.ledger.Restamped b₂.ledger ∧ b₂.guest.store = guest.store ∧
      if d.Fits p.signature.ret.elementWidth then
        p.perform style arguments b =
          (result, arguments', b₂.followed d p.signature.ret.elementWidth address)
      else
        p.perform style arguments b = (result, arguments', b₂) ∧
          result = .error (.encoding p.exportName (.capacityOverflow d.cap)) := by
  obtain ⟨-, b₂, later, hrestamped, hstore, hanswer⟩ :=
    perform_of_call h hp.checked hp.passes hp.returns
  obtain ⟨d, hread⟩ : ∃ d, Descriptor.read style guest.store.memory address = .ok d := by
    refine Descriptor.exists_read style ?_ hp.inside
    rw [← hstore]
    exact (h.later later).linear
  have hdecode := decodeResult_followed style p.exportName hp.buffer hp.nonnull
    (b := b₂) (hstore ▸ hread)
  refine ⟨d, ?_⟩
  by_cases hfits : d.Fits p.signature.ret.elementWidth
  · rw [if_pos hfits] at hdecode
    obtain ⟨decoded, hdecode⟩ := hdecode
    have hperform := hanswer hdecode
    exact ⟨_, _, b₂, hread, later, hrestamped, hstore, by rw [if_pos hfits]; exact hperform⟩
  · rw [if_neg hfits] at hdecode
    have hperform := hanswer hdecode
    exact ⟨_, _, b₂, hread, later, hrestamped, hstore, by rw [if_neg hfits]; exact ⟨hperform, rfl⟩⟩

end Plan

/-- A descriptor that was followed is freed before anything else, if it lies in the memory. -/
theorem followed_freed (h : b.Ready) {d : Descriptor} {width : Nat} {address : UInt32}
    (hinside : address.toNat + Descriptor.width.toNat ≤ b.guest.memoryLength) :
    ∃ others, (b.followed d width address).freedAll = (address, Descriptor.width) :: others ∧
      others.Sublist ((d.dataHandle width b.ledger.nextId b.guest.observe.epoch ::
        b.ledger.outstanding).map Handle.place) := by
  have hfresh : b.ledger.isReleased (b.ledger.nextId + 1) = false := by
    by_contra hreleased
    have hissued := h.issued _ (Bool.eq_true_of_not_eq_false hreleased)
    omega
  have howned : (b.followed d width address).ledger.AllOwned :=
    List.forall_mem_cons.mpr ⟨rfl, List.forall_mem_cons.mpr ⟨rfl, h.owned⟩⟩
  have hroom : address.toNat + Descriptor.width.toNat ≤ b.guest.observe.memoryLength :=
    Nat.le_trans hinside b.guest.later_observe.memoryLength_le
  exact freedAll_newest howned rfl hfresh hroom b.guest.epoch_observe b.guest.epoch_observe

/-- **A descriptor that was followed is freed once.** In a call of any binding in service whose export returns
the address of a descriptor in the memory, with whatever fields: unless its capacity does not fit, the
descriptor is entered once, right after its data, and however decoding ends, the guest is asked once to free
it, before the buffers that were out. A descriptor whose capacity does not fit is neither entered nor
freed. -/
theorem followed_descriptor_is_freed {m : GuestModule} {d : Binding} (hd : d.Serves m) {p : Plan}
    (hp : d.plan? name = some p) {arguments : List Argument} {passed : List Passed}
    {b₁ : Books Instance} {address : UInt32} {guest : Instance}
    (h : p.PointsTo d.style arguments d.books passed b₁ address guest) :
    ∃ found result arguments' b₂ b₃,
      Descriptor.read d.style guest.store.memory address = .ok found ∧
      b₁.ledger.Restamped b₂.ledger ∧
      p.perform d.style arguments d.books = (result, arguments', b₃) ∧
      (d.call name arguments).2.2.books = (releaseAll b₃.watched).2.unwatched ∧
      if found.Fits p.signature.ret.elementWidth then
        b₃ = b₂.followed found p.signature.ret.elementWidth address ∧
        ∃ others, b₃.freedAll = (address, Descriptor.width) :: others ∧
          others.Sublist ((found.dataHandle p.signature.ret.elementWidth b₂.ledger.nextId
            b₂.guest.observe.epoch :: b₂.ledger.outstanding).map Handle.place)
      else
        result = .error (.encoding p.exportName (.capacityOverflow found.cap)) ∧ b₃ = b₂ ∧
        b₃.freedAll.Sublist (b₂.ledger.outstanding.map Handle.place) := by
  have hready := hd.fit.resting.ready
  obtain ⟨found, result, arguments', b₂, hread, hlater, hrestamped, hstore, hperform⟩ :=
    Plan.perform_followed hready h
  have hready₂ := hready.later hlater
  have hcall : ∀ b₃, p.perform d.style arguments d.books = (result, arguments', b₃) →
      (d.call name arguments).2.2.books = (releaseAll b₃.watched).2.unwatched := by
    intro b₃ hb₃
    have hwatched := releaseAll_unwatched b₃.watched
    obtain ⟨result', hcall, -⟩ := Plan.call_of_perform h.checked hb₃
    rw [Binding.call_eq hp, hcall]
    exact congrArg Prod.snd hwatched
  by_cases hfits : found.Fits p.signature.ret.elementWidth
  · rw [if_pos hfits] at hperform
    refine ⟨found, result, arguments', b₂, _, hread, hrestamped, hperform, hcall _ hperform, ?_⟩
    rw [if_pos hfits]
    refine ⟨rfl, followed_freed hready₂ ?_⟩
    unfold Instance.memoryLength
    rw [hstore]
    exact h.inside
  · rw [if_neg hfits] at hperform
    obtain ⟨hperform, hresult⟩ := hperform
    refine ⟨found, result, arguments', b₂, b₂, hread, hrestamped, hperform, hcall _ hperform, ?_⟩
    rw [if_neg hfits]
    exact ⟨hresult, rfl, freedAll_sublist hready₂.owned⟩

/-- The descriptor of bytes that are no text is freed. -/
theorem descriptor_of_no_text_is_freed : ∃ (m : GuestModule) (d : Binding) (p : Plan) (passed : List Passed)
    (b₁ : Books Instance) (address : UInt32) (guest : Instance), d.Serves m ∧
    d.plan? "bad_utf8" = some p ∧ p.PointsTo d.style [] d.books passed b₁ address guest ∧
    ∃ result arguments' b₃ others, p.perform d.style [] d.books = (result, arguments', b₃) ∧
      (d.call "bad_utf8" []).2.2.books = (releaseAll b₃.watched).2.unwatched ∧
      b₃.freedAll = (address, Descriptor.width) :: others := by
  obtain ⟨m, d, p, hd, ⟨draft, hdraft⟩, hrest, hplans, hmem, hplan, hsignature⟩ :=
    Sample.exists_serving (s := .faults) nofun (e := (Sample.Faults.exports ⟨16, 2⟩ ⟨18, 3⟩)[3])
      (List.getElem_mem _)
  have hsignature : p.signature = ⟨"bad_utf8", [], .str, .standard⟩ := hsignature
  have hcheck : p.check [] = .ok () := by
    unfold Plan.check
    rw [hsignature]
    rfl
  have hmakes : p.Makes m fun _ => 2 := by
    have hbehaves : p.Behaves m (some fun _ => 2) := hdraft.behaves hplans hmem
    rcases hbehaves with - | hmakes
    exact hmakes
  -- the two bytes go to the start of the heap, and the descriptor behind them
  have hon := hrest.on hdraft.loads
  rw [show heapStart.toUInt32.toNat = heapStart by decide] at hon
  have hraw : p.raw heapStart [] = [] := by
    unfold Plan.raw
    rw [hsignature]
    rfl
  have hextent : heapStart = heapStart + p.extent [] := by
    unfold Plan.extent
    rw [hsignature]
    rfl
  have hstop : heapStart + 8 = heapStart + blockSize (2 * p.signature.ret.elementWidth) := by
    rw [hsignature]
    rfl
  obtain ⟨word, b₁, hcall, hreply⟩ :=
    Plan.invoke_makes hon hmakes hcheck (Nat.le_refl heapStart) hextent hstop
  rw [if_pos (by decide)] at hreply
  obtain ⟨rfl, hon', -, hread⟩ := hreply
  rw [hraw] at hcall
  have hcall : d.books.guest.call p.exportName [] = (.ok [.i32 (.ofNat (heapStart + 8))], b₁.guest) :=
    Prod.ext (congrArg (·.1) hcall) (congrArg (·.2.guest) hcall)
  have hpoints : p.PointsTo d.style [] d.books [] d.books (.ofNat (heapStart + 8)) b₁.guest := by
    refine ⟨hmakes.buffer, hcheck, ?_, hcall, by decide, ?_⟩
    · rw [hsignature]
      rfl
    · exact Nat.le_trans (by decide) hon'.inside
  obtain ⟨found, result, arguments', b₂, b₃, hfound, -, hperform, hbooks, hfreed⟩ :=
    followed_descriptor_is_freed hd hplan hpoints
  have hfits : found.Fits p.signature.ret.elementWidth := by
    rw [← Except.ok.inj ((hread _).symm.trans hfound), hsignature]
    decide
  rw [if_pos hfits] at hfreed
  obtain ⟨-, others, hothers, -⟩ := hfreed
  exact ⟨m, d, p, [], _, _, b₁.guest, hd, hplan, hpoints, result, arguments', b₃, others, hperform, hbooks,
    hothers⟩

end GuestCall
