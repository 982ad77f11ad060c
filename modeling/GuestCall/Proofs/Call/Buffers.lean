/-
# Calls that return buffers

The guest takes a block for the data of a result and another one for the descriptor, on top of the
arguments. If it gets both, the host enters both as it follows the descriptor, and then everything is on
the pile, whatever comes of reading the data. If it does not get the first one, nothing was taken. But if
it gets the first one only, it returns zero, and then the host knows of no block that it could give back:
the data stays, and the count of live bytes with it.

Key definitions: `Plan.Makes`, the plans of exports that return buffers, and `Plan.Strands`, room for the
data but not for its descriptor.
Key theorems: `adoptBuffer_on`, `Plan.perform_makes`.
-/
import GuestCall.Proofs.Call.Cleanup
import GuestCall.Proofs.Draft.Results
import GuestCall.Proofs.Scalar.Conversions

namespace GuestCall

/-! ### The machine types of arguments -/

/-- A checked argument is passed as the machine types of its parameter. -/
theorem Argument.types_lowered {param : ParamKind} {a : Argument} (h : a.mismatch? param = none)
    (top : Nat) : (a.lowered top param).map CoreValue.type = param.coreTypes := by
  rcases mismatch?_eq_none h with ⟨kind, v, s, rfl, rfl, hs⟩ | ⟨text, rfl, rfl⟩ |
      ⟨kind, items, hparam, harray, -⟩
  · have hkind := Scalar.kind_ofValue? hs
    unfold lowered
    simp only [hs, Option.map_some, Option.toList_some, List.map_cons, List.map_nil,
      Scalar.type_lower, hkind]
    rfl
  · rfl
  · obtain ⟨-, -, -, hlowered⟩ := passArgument_array .native "" hparam harray
    rw [hlowered]
    rcases hparam with rfl | rfl | rfl <;> rfl

theorem types_lowerings : ∀ {pairs : List (ParamKind × Argument)},
    (∀ pair ∈ pairs, pair.2.mismatch? pair.1 = none) → ∀ top,
    (lowerings top pairs).flatten.map CoreValue.type = (pairs.map (·.1)).flatMap ParamKind.coreTypes
  | [], _, _ => rfl
  | (param, a) :: rest, h, top => by
    rw [lowerings, List.flatten_cons, List.map_append, Argument.types_lowered (h _ List.mem_cons_self),
      types_lowerings fun pair hpair => h pair (List.mem_cons_of_mem _ hpair)]
    rfl

/-- Machine values of the right types fit a shape. -/
theorem mismatch?_of_types {shape : ExportShape} {raw : List CoreValue}
    (h : raw.map CoreValue.type = shape.params) : shape.mismatch? raw = none := by
  have hlength : raw.length = shape.params.length := by
    rw [← h, List.length_map]
  unfold ExportShape.mismatch?
  rw [if_pos hlength, Option.map_eq_none_iff, List.find?_eq_none]
  rintro ⟨⟨v, type⟩, i⟩ hmem
  have hpair := List.mem_zipIdx_iff_getElem?.mp hmem
  obtain ⟨hv, htype⟩ := List.getElem?_zip_eq_some.mp hpair
  rw [← h, List.getElem?_map, hv] at htype
  have htype : v.type = type := Option.some.inj htype
  simp [htype]

/-- The arguments that pass the check are passed as values that the export takes. -/
theorem Plan.mismatch?_lowerings {p : Plan} {arguments : List Argument}
    (hcheck : p.check arguments = .ok ()) (top : Nat) :
    p.signature.shape.mismatch? (lowerings top (p.signature.params.zip arguments)).flatten = none := by
  obtain ⟨harity, hfit⟩ := fits_of_check hcheck
  have hlength : p.signature.params.length ≤ arguments.length := by
    rw [harity]
    exact Nat.le_add_right ..
  refine mismatch?_of_types ?_
  rw [types_lowerings hfit, List.map_fst_zip hlength]
  rfl

/-- A step on the guest. -/
theorem Action.onGuest_eq {α : Type} {f : Instance → Except BindError α × Instance} {b : Books Instance}
    {result : Except BindError α} {guest : Instance} (h : f b.guest = (result, guest)) :
    Action.onGuest f b = (result, ⟨b.ledger, guest⟩) := by
  obtain ⟨l, i⟩ := b
  unfold onGuest
  dsimp only at h ⊢
  rw [h]

/-! ### Following a descriptor -/

section

variable {g : Ground} {top stop : Nat} {extra : UInt32} {b : Books Instance}

theorem descriptorAddress_of_ne {address : UInt32} (h : address ≠ 0) (name : String) :
    descriptorAddress name (.i32 address) = .ok address := by
  unfold descriptorAddress
  split
  · rename_i heq
    cases heq
    exact absurd rfl h
  · rename_i heq
    cases heq
    rfl
  · rename_i hne
    exact absurd rfl (hne address)

/-- **Following a descriptor** of a buffer that lies on top of the pile, the descriptor being on top of
it: both are entered, and nothing is above the pile any more. -/
theorem adoptBuffer_on (style : AccessStyle) (name : String) {count width : Nat}
    (hwidth : 1 ≤ width) (hstop : stop = top + blockSize (count * width))
    (h : b.On g top (stop + 16) (extra + .ofNat (blockSize (count * width)) + 16))
    (hread : Descriptor.read style b.guest.store.memory (.ofNat stop) =
      .ok ⟨.ofNat top, .ofNat count, .ofNat count⟩) :
    ∃ x n b', adoptBuffer style name width (.i32 (.ofNat stop)) b = (.ok (x, n), b') ∧
      b'.On g (stop + 16) (stop + 16) extra ∧
      b'.guest.store.memory = b.guest.store.memory := by
  have hcap := h.le_capacity
  have hground := h.ground_le
  have hle := le_blockSize (count * width)
  have hmul : count ≤ count * width := Nat.le_mul_of_pos_right _ hwidth
  have hcount : (UInt32.ofNat count).toNat = count := toNat_ofNat_heap (by omega)
  have hlength : (UInt32.ofNat (count * width)).toNat = count * width := toNat_ofNat_heap (by omega)
  have hne : UInt32.ofNat stop ≠ 0 := ofNat_heap_ne_zero (by omega) (by omega)
  have hroom : ¬ 0xFFFFFFFF < (UInt32.ofNat count).toNat * width := by
    rw [hcount]
    unfold heapCapacity pageSize at hcap
    omega
  -- the data lies on top of the pile, and the descriptor on top of the data
  have hblock : blockWord (.ofNat (count * width)) = .ofNat (blockSize (count * width)) := by
    have hword := blockWord_eq (n := .ofNat (count * width)) (by rw [hlength]; omega)
    rwa [hlength] at hword
  have hextra : extra + .ofNat (blockSize (count * width)) + 16 =
      extra + 16 + blockWord (.ofNat (count * width)) := by
    rw [hblock]
    grind
  rw [hextra] at h
  obtain ⟨x, b₁, hdata, hon₁, -, -, -, hguest₁⟩ := adopt_on h (by rw [hlength]; omega)
  rw [hlength, ← hstop] at hon₁
  have hwidth16 : blockSize Descriptor.width.toNat = 16 := by decide
  obtain ⟨y, b₂, hdescriptor, hon₂, -, -, -, hguest₂⟩ :=
    adopt_on hon₁ (show stop + blockSize Descriptor.width.toNat ≤ stop + 16 by rw [hwidth16])
  rw [hwidth16] at hon₂
  refine ⟨x, .ofNat count, b₂, ?_, hon₂, ?_⟩
  · have haddress : Action.ofExcept (descriptorAddress name (.i32 (.ofNat stop))) b =
        (.ok (.ofNat stop), b) := by
      rw [descriptorAddress_of_ne hne]
      rfl
    have hlook : lookAt (fun memory => Descriptor.read style memory (.ofNat stop)) b =
        (.ok ⟨.ofNat top, .ofNat count, .ofNat count⟩, b) := congrArg (·, b) hread
    unfold adoptBuffer
    rw [Action.bind_ok haddress, Action.bind_ok hlook]
    dsimp only
    rw [if_neg hroom, hcount, Action.bind_ok hdata, Action.bind_ok hdescriptor,
      if_neg (UInt32.lt_irrefl _)]
    rfl
  · rw [hguest₂, b₁.guest.store_observe, hguest₁, b.guest.store_observe]

/-- A look at the memory fails for want of a range, and not for want of memory. -/
theorem lookAt_ends {α : Type} {f : Memory → Except BindError α}
    (hf : ∀ memory e, f memory = .error e → e.kind = .outOfBounds) : (lookAt f).Ends b b := by
  refine ⟨f b.guest.store.memory, rfl, ?_⟩
  rintro ⟨e, he, hkind⟩
  rw [hf _ e he] at hkind
  cases hkind

theorem takeElements_ends {style : AccessStyle} {name : String} {kind : ScalarKind} {raw : CoreValue}
    {b' : Books Instance} (h : (adoptBuffer style name kind.width raw).Ends b b') :
    (takeElements style name kind raw).Ends b b' := by
  refine h.bind fun _ => lookAt_ends fun memory e he => ?_
  split at he
  · cases he
  · rename_i hread
    cases he
    exact Memory.readElementsFrom_error hread

theorem takeText_ends {style : AccessStyle} {name : String} {raw : CoreValue} {b' : Books Instance}
    (h : (adoptBuffer style name 1 raw).Ends b b') : (takeText style name raw).Ends b b' := by
  refine h.bind fun _ => ?_
  refine (lookAt_ends fun memory e he => Memory.readBytes_error he).bind fun bytes => ?_
  rcases Utf8.decode bytes with fault | text
  · exact Action.ends_fail nofun
  · exact Action.ends_return _

/-- Decoding a buffer result leaves the books as they are once its descriptor was followed. -/
theorem decodeResult_ends {style : AccessStyle} {name : String} {ret : ReturnKind}
    (hret : ret.isBuffer = true) {raw : CoreValue} {b' : Books Instance}
    (h : (adoptBuffer style name ret.elementWidth raw).Ends b b') :
    (decodeResult style name ret [raw]).Ends b b' := by
  have hfirst : ∀ ret, (Action.ofExcept (firstResult name ret [raw])) b = (.ok raw, b) := fun _ => rfl
  unfold Action.Ends decodeResult
  cases ret with
  | unit | scalar => cases hret
  | vec kind =>
    dsimp only
    rw [Action.bind_ok (hfirst _)]
    exact (takeElements_ends h).bind fun items => Action.ends_return _
  | str =>
    dsimp only
    rw [Action.bind_ok (hfirst _)]
    exact (takeText_ends h).bind fun text => Action.ends_return _
  | bigDecimal =>
    dsimp only
    rw [Action.bind_ok (hfirst _)]
    refine (takeText_ends h).bind fun text => ?_
    split
    · exact Action.ends_return _
    · exact Action.ends_fail nofun

theorem ReturnKind.one_le_elementWidth (ret : ReturnKind) : 1 ≤ ret.elementWidth := by
  cases ret with
  | vec kind => cases kind <;> decide
  | unit | scalar | str | bigDecimal => exact Nat.le_refl 1

/-- **A buffer result is taken over**, whatever comes of its contents. -/
theorem decodeResult_buffer (style : AccessStyle) (name : String) {ret : ReturnKind}
    (hret : ret.isBuffer = true) {count : Nat}
    (hstop : stop = top + blockSize (count * ret.elementWidth))
    (h : b.On g top (stop + 16) (extra + .ofNat (blockSize (count * ret.elementWidth)) + 16))
    (hread : Descriptor.read style b.guest.store.memory (.ofNat stop) =
      .ok ⟨.ofNat top, .ofNat count, .ofNat count⟩) :
    ∃ b', (decodeResult style name ret [.i32 (.ofNat stop)]).Ends b b' ∧
      b'.On g (stop + 16) (stop + 16) extra ∧
      b'.guest.store.memory = b.guest.store.memory := by
  obtain ⟨x, n, b', hadopt, hon, hmemory⟩ :=
    adoptBuffer_on style name ret.one_le_elementWidth hstop h hread
  exact ⟨b', decodeResult_ends hret (Action.ends_of_ok hadopt), hon, hmemory⟩

end

/-! ### Exports that return buffers -/

namespace Plan

/-- The machine values of the arguments of a call, their buffers being piled up from an address on. -/
def raw (p : Plan) (top : Nat) (arguments : List Argument) : List CoreValue :=
  (lowerings top (p.signature.params.zip arguments)).flatten

/-- The export of a plan returns buffers: it changes no argument, and from any heap that holds the
arguments of a call it returns as many elements as the arguments ask for. -/
structure Makes (m : GuestModule) (p : Plan) (count : List Argument → Nat) : Prop where
  buffer : p.signature.ret.isBuffer = true
  apart : ∀ param ∈ p.signature.params, param.isInPlace = false
  returns : ∃ f, m.find? p.exportName = some f ∧ f.shape = p.signature.shape ∧
    ∀ arguments, p.check arguments = .ok () → ∀ (memory : Memory) (top : Nat) (live : UInt32),
      memory.IsGuest → heapStart ≤ top → top + p.extent arguments ≤ memory.size →
      Wasm.Returns memory (top + p.extent arguments) live (count arguments)
        p.signature.ret.elementWidth
        (m.program.invoke Wasm.depthLimit f.index ((p.raw top arguments).reverse.map .ofCore)
          (Wasm.guestStore memory (.ofNat (top + p.extent arguments)) live))

variable {g : Ground} {p : Plan} {top : Nat} {extra : UInt32} {b : Books Instance}
  {arguments : List Argument} {count : List Argument → Nat}

/-- Where no argument is changed, nothing is copied back. -/
theorem copyBackAll_apart (style : AccessStyle) {pairs : List (ParamKind × Passed)}
    (arguments : List Argument) (h : ∀ pair ∈ pairs, pair.1.isInPlace = false) :
    copyBackAll style pairs arguments b = (.ok (), arguments, b) := by
  induction pairs generalizing arguments with
  | nil => rfl
  | cons pair rest ih =>
    unfold copyBackAll
    split
    · rename_i heq
      cases heq
      have hparam : true = false := h _ List.mem_cons_self
      cases hparam
    · rename_i heq
      cases heq
      rw [ih _ fun pair hpair => h pair (List.mem_cons_of_mem _ hpair)]
    · rfl

/-- A result of zero says that there was no room. -/
theorem decodeResult_null (style : AccessStyle) (name : String) {ret : ReturnKind}
    (hret : ret.isBuffer = true) (b : Books Instance) :
    decodeResult style name ret [.i32 0] b = (.error (.allocation 0 (.nullDescriptor name)), b) := by
  cases ret with
  | unit | scalar => cases hret
  | vec | str | bigDecimal => rfl

/-- **Running an export that returns buffers** on arguments that lie on the pile: it returns the address
of a descriptor on top of the data, or there was no room, for the descriptor or even for the data. -/
theorem invoke_makes (h : b.On g top top extra) (hp : p.Makes g.module count)
    (hcheck : p.check arguments = .ok ()) {base : Nat} (hbase : heapStart ≤ base)
    (htop : top = base + p.extent arguments) {stop : Nat}
    (hstop : stop = top + blockSize (count arguments * p.signature.ret.elementWidth)) :
    ∃ word b', Action.onGuest (Instance.call p.exportName (p.raw base arguments)) b =
        (.ok [.i32 word], b') ∧
      if stop + 16 ≤ heapCapacity then
        word = .ofNat stop ∧
          b'.On g top (stop + 16)
            (extra + .ofNat (blockSize (count arguments * p.signature.ret.elementWidth)) + 16) ∧
          b'.guest.memoryLength = max b.guest.memoryLength (wholePages (stop + 16)) ∧
          ∀ style, Descriptor.read style b'.guest.store.memory (.ofNat stop) =
            .ok ⟨.ofNat top, .ofNat (count arguments), .ofNat (count arguments)⟩
      else word = 0 ∧
        if stop ≤ heapCapacity then
          b'.On g top stop
            (extra + .ofNat (blockSize (count arguments * p.signature.ret.elementWidth)))
        else b'.On g top top extra := by
  obtain ⟨f, hfind, hshape, hruns⟩ := hp.returns
  have hinside : top ≤ b.guest.store.memory.size := h.inside
  have hreturns := hruns arguments hcheck b.guest.store.memory base
    (g.live + (.ofNat top - .ofNat g.heap) + extra) h.memory hbase (by rw [← htop]; exact hinside)
  have hfits : f.shape.mismatch? (p.raw base arguments) = none := by
    rw [hshape]
    exact mismatch?_lowerings hcheck base
  have hcall := Instance.call_eq_run h.at_store hfind hfits
  rw [← htop] at hreturns
  generalize hreply : g.module.program.invoke Wasm.depthLimit f.index
    ((p.raw base arguments).reverse.map .ofCore) (Wasm.guestStore b.guest.store.memory (.ofNat top)
      (g.live + (.ofNat top - .ofNat g.heap) + extra)) = reply at hreturns
  cases hreturns with
  | full hfull =>
    rw [← hstop] at hfull
    obtain ⟨guest, hrun, hat⟩ := Instance.run_results p.exportName _ h.at_store hreply
    refine ⟨0, ⟨b.ledger, guest⟩, Action.onGuest_eq (hcall.trans hrun), ?_⟩
    rw [if_neg (by omega), if_neg (by omega)]
    have hstore := h.at_store.store
    exact ⟨rfl, h.move (hstore ▸ hat) (.refl _)⟩
  | @stuck memory' stop' hstop' hdata hfull halike =>
    obtain rfl : stop = stop' := hstop.trans hstop'.symm
    obtain ⟨guest, hrun, hat⟩ := Instance.run_results p.exportName _ h.at_store hreply
    have hgrown := h.memory.grown (Memory.grown_reach h.memory hdata)
    have hsize := (Memory.le_size_reach h.memory stop).2
    refine ⟨0, ⟨b.ledger, guest⟩, Action.onGuest_eq (hcall.trans hrun), ?_⟩
    rw [if_neg (by omega), if_pos hdata]
    refine ⟨rfl, h.lift hat (halike.isGuest hgrown) (by omega) ?_⟩
    rw [halike.size]
    exact hsize
  | @made memory' stop' hstop' hfits' halike hread =>
    obtain rfl : stop = stop' := hstop.trans hstop'.symm
    obtain ⟨guest, hrun, hat⟩ := Instance.run_results p.exportName _ h.at_store hreply
    have hgrown := h.memory.grown (Memory.grown_reach h.memory hfits')
    have hsize := (Memory.le_size_reach h.memory (stop + 16)).2
    refine ⟨.ofNat stop, ⟨b.ledger, guest⟩, Action.onGuest_eq (hcall.trans hrun), ?_⟩
    rw [if_pos hfits']
    refine ⟨rfl, ?_, ?_, fun style => ?_⟩
    · rw [UInt32.add_assoc _ (.ofNat _) 16] at hat ⊢
      refine h.lift hat (halike.isGuest hgrown) (by omega) ?_
      rw [halike.size]
      exact hsize
    · unfold Instance.memoryLength
      rw [hat.store, Wasm.memory_guestStore, halike.size, Memory.size_reach h.memory]
    · rw [hat.store, Wasm.memory_guestStore]
      exact hread style

/-- Running an export that returns buffers, and taking its result over. -/
theorem finish_makes (style : AccessStyle) (h : b.On g top top extra) (hp : p.Makes g.module count)
    (hcheck : p.check arguments = .ok ()) {base : Nat} (hbase : heapStart ≤ base)
    (htop : top = base + p.extent arguments) {passed : List Passed}
    (hraw : passed.flatMap (·.raw) = p.raw base arguments) {stop : Nat}
    (hstop : stop = top + blockSize (count arguments * p.signature.ret.elementWidth)) :
    ∃ result arguments' b', p.finish style passed arguments b = (result, arguments', b') ∧
      if stop + 16 ≤ heapCapacity then
        b'.On g (stop + 16) (stop + 16) extra ∧ ¬ OutOfMemory result ∧
          b'.guest.memoryLength = max b.guest.memoryLength (wholePages (stop + 16))
      else result = .error (.allocation 0 (.nullDescriptor p.exportName)) ∧
        if stop ≤ heapCapacity then
          b'.On g top stop
            (extra + .ofNat (blockSize (count arguments * p.signature.ret.elementWidth)))
        else b'.On g top top extra := by
  obtain ⟨word, b₁, hcall, hends⟩ := invoke_makes h hp hcheck hbase htop hstop
  rw [← hraw] at hcall
  have hcopy : ∀ b₁ : Books Instance, copyBackAll style (p.signature.params.zip passed) arguments b₁ =
      (.ok (), arguments, b₁) := fun b₁ =>
    copyBackAll_apart style arguments fun pair hpair => hp.apart _ (List.of_mem_zip hpair).1
  by_cases hfits : stop + 16 ≤ heapCapacity
  · rw [if_pos hfits] at hends
    obtain ⟨rfl, hon, hsize, hread⟩ := hends
    obtain ⟨b', ⟨decoded, hdecode, hdecoded⟩, hon', hmemory⟩ :=
      decodeResult_buffer style p.exportName hp.buffer hstop hon (hread style)
    refine ⟨_, _, b', finish_eq hcall (hcopy b₁) hdecode, ?_⟩
    rw [if_pos hfits]
    refine ⟨hon', fun h => hdecoded ((p.answer_fits arguments decoded).1.mp h), ?_⟩
    rw [← hsize]
    unfold Instance.memoryLength
    rw [hmemory]
  · rw [if_neg hfits] at hends
    obtain ⟨rfl, hon⟩ := hends
    refine ⟨_, _, b₁, finish_eq hcall (hcopy b₁) (decodeResult_null style p.exportName hp.buffer b₁), ?_⟩
    rw [if_neg hfits]
    exact ⟨(p.answer_fits arguments _).2 _ rfl, hon⟩

/-- **A call of an export that returns buffers**, up to giving its buffers back. Without room for the
arguments or the data, the pile is all there is; without room for the descriptor, the data lies above the
pile; otherwise everything is on the pile. -/
theorem perform_makes (style : AccessStyle) (h : b.On g top top extra) (hp : p.Makes g.module count)
    (hcheck : p.check arguments = .ok ()) :
    ∃ result arguments' b', p.perform style arguments b = (result, arguments', b') ∧
      if p.dataStop count top arguments + 16 ≤ heapCapacity then
        b'.On g (p.dataStop count top arguments + 16) (p.dataStop count top arguments + 16) extra ∧
          ¬ OutOfMemory result ∧ b'.guest.memoryLength =
            max b.guest.memoryLength (wholePages (p.dataStop count top arguments + 16))
      else OutOfMemory result ∧
        if p.dataStop count top arguments ≤ heapCapacity then
          result = .error (.allocation 0 (.nullDescriptor p.exportName)) ∧
            b'.On g (top + p.extent arguments) (p.dataStop count top arguments)
              (extra + .ofNat (blockSize (count arguments * p.signature.ret.elementWidth)))
        else ∃ top', b'.On g top' top' extra := by
  have hpass := passArguments_on style p.exportName h (fits_of_check hcheck).2
  change (if top + p.extent arguments ≤ heapCapacity then _ else _) at hpass
  obtain ⟨stop, hstop⟩ : ∃ stop, stop = p.dataStop count top arguments := ⟨_, rfl⟩
  rw [← hstop]
  unfold dataStop at hstop
  unfold perform
  by_cases hroom : top + p.extent arguments ≤ heapCapacity
  · rw [if_pos hroom] at hpass
    obtain ⟨passed, b₁, hpass, hraw, -, hraised, -⟩ := hpass
    have hraw : passed.flatMap (·.raw) = p.raw top arguments := congrArg List.flatten hraw
    rw [hpass]
    obtain ⟨result, arguments', b', hfinish, hends⟩ :=
      finish_makes style hraised.on hp hcheck h.ground_le rfl hraw hstop
    refine ⟨result, arguments', b', hfinish, ?_⟩
    have hsize₁ := hraised.size
    by_cases hfits : stop + 16 ≤ heapCapacity
    · rw [if_pos hfits] at hends ⊢
      obtain ⟨hon, hfitted, hsize⟩ := hends
      refine ⟨hon, hfitted, ?_⟩
      have hmono := wholePages_mono (show top + p.extent arguments ≤ stop + 16 by omega)
      change b₁.guest.memoryLength = max _ (wholePages (top + p.extent arguments)) at hsize₁
      rw [hsize, hsize₁]
      omega
    · rw [if_neg hfits] at hends ⊢
      obtain ⟨hresult, hon⟩ := hends
      refine ⟨hresult ▸ outOfMemory_allocation .., ?_⟩
      by_cases hdata : stop ≤ heapCapacity
      · rw [if_pos hdata] at hon ⊢
        exact ⟨hresult, hon⟩
      · rw [if_neg hdata] at hon ⊢
        exact ⟨_, hon⟩
  · rw [if_neg hroom] at hpass
    obtain ⟨n, fault, k, b₁, hpass, hon, -⟩ := hpass
    rw [hpass]
    refine ⟨_, _, _, rfl, ?_⟩
    rw [if_neg (by omega), if_neg (by omega)]
    exact ⟨outOfMemory_allocation n fault, _, hon⟩

/-- There is room for the data of the result of a call, and there is data, but there is no room for its
descriptor. -/
structure Strands (p : Plan) (count : List Argument → Nat) (base : Nat)
    (arguments : List Argument) : Prop where
  checked : p.check arguments = .ok ()
  data : 0 < count arguments
  room : p.dataStop count base arguments ≤ heapCapacity
  full : heapCapacity < p.dataStop count base arguments + 16

variable {d : Draft} {m : GuestModule} {heap live : UInt32}

/-- **A call of an export that returns buffers** leaves the heap as it was, unless the data of the result
is stranded: then the call fails, and the data stays where it is, at the end of the heap. -/
theorem call_makes (hd : d.Loads m) (h : b.AtRest m heap live) (hp : p.Makes m count)
    (style : AccessStyle) (arguments : List Argument) :
    ∃ result arguments' b', p.call style arguments b = (result, arguments', b') ∧
      (p.Strands count heap.toNat arguments →
        result = .error (.allocation 0 (.nullDescriptor p.exportName)) ∧
          b.Settled m (.ofNat (p.dataStop count heap.toNat arguments))
            (live + .ofNat (blockSize (count arguments * p.signature.ret.elementWidth))) b') ∧
      (¬ p.Strands count heap.toNat arguments → b.Settled m heap live b') ∧
      (OutOfMemory result ↔ heapCapacity < p.peak (some count) heap.toNat arguments) ∧
      (¬ OutOfMemory result → b'.guest.memoryLength =
        max b.guest.memoryLength (wholePages (p.peak (some count) heap.toNat arguments))) := by
  rcases hcheck : p.check arguments with e | u
  · obtain ⟨hfits, hsize⟩ := h.refused hd hcheck (some count)
    refine ⟨_, _, _, call_refused style b hcheck, fun hs => ?_, fun _ => .refl h, hfits, fun _ => hsize⟩
    rw [hs.checked] at hcheck
    cases hcheck
  obtain ⟨result, arguments', b', hperform, hends⟩ := perform_makes style (h.on hd) hp hcheck
  rw [peak_makes hcheck]
  by_cases hfits : p.dataStop count heap.toNat arguments + 16 ≤ heapCapacity
  · rw [if_pos hfits] at hends
    obtain ⟨hon, hserved, hsize⟩ := hends
    obtain ⟨b₁, hcall, hon₁, hout, hmemory⟩ := call_on style hcheck hperform hon
    rw [if_pos rfl] at hon₁
    refine ⟨result, arguments', b₁, hcall, fun hs => ?_, fun _ => h.settles_idle hd hon₁ hout, ?_,
      fun _ => ?_⟩
    · have hfull := hs.full
      omega
    · exact ⟨fun h => absurd h hserved, fun h => absurd h (Nat.not_lt_of_le hfits)⟩
    · rw [← hsize]
      unfold Instance.memoryLength
      rw [hmemory]
  rw [if_neg hfits] at hends
  obtain ⟨hfailed, hends⟩ := hends
  have hexact : OutOfMemory result ↔ heapCapacity < p.dataStop count heap.toNat arguments + 16 :=
    ⟨fun _ => Nat.lt_of_not_le hfits, fun _ => hfailed⟩
  by_cases hdata : p.dataStop count heap.toNat arguments ≤ heapCapacity
  · rw [if_pos hdata] at hends
    obtain ⟨hresult, hon⟩ := hends
    obtain ⟨b₁, hcall, hon₁, hout, -⟩ := call_on style hcheck hperform hon
    obtain ⟨size, hsize⟩ : ∃ size, size = blockSize (count arguments * p.signature.ret.elementWidth) :=
      ⟨_, rfl⟩
    have hstop : p.dataStop count heap.toNat arguments = heap.toNat + p.extent arguments + size := by
      rw [hsize]
      rfl
    rw [UInt32.zero_add] at hon₁
    rw [← hsize] at hon₁ ⊢
    refine ⟨result, arguments', b₁, hcall, fun hs => ⟨hresult, ?_⟩, fun hs => ?_, hexact,
      fun hserved => absurd hfailed hserved⟩
    · have hpos : 0 < count arguments * p.signature.ret.elementWidth :=
        Nat.mul_pos hs.data p.signature.ret.one_le_elementWidth
      have hle := le_blockSize (count arguments * p.signature.ret.elementWidth)
      rw [if_neg (by omega)] at hon₁
      exact h.settles hd hon₁ hout
    · -- without data, the pile ends where the heap does
      have hzero : count arguments = 0 := by
        by_contra hne
        exact hs ⟨hcheck, Nat.pos_of_ne_zero hne, hdata, Nat.lt_of_not_le hfits⟩
      have hempty : size = 0 := by
        rw [hsize, hzero, Nat.zero_mul]
        rfl
      rw [if_pos (by omega), hempty] at hon₁
      exact h.settles_idle hd hon₁ hout
  · rw [if_neg hdata] at hends
    obtain ⟨top, hon⟩ := hends
    obtain ⟨b₁, hcall, hon₁, hout, -⟩ := call_on style hcheck hperform hon
    rw [if_pos rfl] at hon₁
    exact ⟨result, arguments', b₁, hcall, fun hs => absurd hs.room hdata,
      fun _ => h.settles_idle hd hon₁ hout, hexact, fun hserved => absurd hfailed hserved⟩

/-- How the export of a plan behaves, by how many elements its result has if it is a buffer: it either
keeps to the memory that it has and returns no buffer, or it returns buffers. -/
inductive Behaves (m : GuestModule) (p : Plan) : Option (List Argument → Nat) → Prop
  | still (h : p.RunsStill m)
    (hret : p.signature.ret = .unit ∨ ∃ kind, p.signature.ret = .scalar kind) : Behaves m p none
  | makes {count : List Argument → Nat} (h : p.Makes m count) : Behaves m p (some count)

/-- **What a call does to the heap.** It leaves the heap as it was, unless the data of its result is
stranded; it runs out of memory just if the heap would reach beyond what there can be; and otherwise it
leaves the memory as large as the heap had to be at its highest. -/
theorem call_behaves (hd : d.Loads m) (h : b.AtRest m heap live)
    {count? : Option (List Argument → Nat)} (hp : p.Behaves m count?) (style : AccessStyle)
    (arguments : List Argument) :
    ∃ result arguments' b', p.call style arguments b = (result, arguments', b') ∧
      (∀ count, count? = some count → p.Strands count heap.toNat arguments →
        result = .error (.allocation 0 (.nullDescriptor p.exportName)) ∧
          b.Settled m (.ofNat (p.dataStop count heap.toNat arguments))
            (live + .ofNat (blockSize (count arguments * p.signature.ret.elementWidth))) b') ∧
      ((∀ count, count? = some count → ¬ p.Strands count heap.toNat arguments) →
        b.Settled m heap live b') ∧
      (OutOfMemory result ↔ heapCapacity < p.peak count? heap.toNat arguments) ∧
      (¬ OutOfMemory result → b'.guest.memoryLength =
        max b.guest.memoryLength (wholePages (p.peak count? heap.toNat arguments))) := by
  cases hp with
  | still hstill hret =>
    obtain ⟨result, arguments', b', hcall, hsettled, hfits, hsize⟩ :=
      call_quiet hd h hstill.quiet hret style arguments
    refine ⟨result, arguments', b', hcall, fun _ hcount => ?_, fun _ => hsettled, hfits,
      fun hserved => hsize hserved hstill⟩
    cases hcount
  | @makes count hmakes =>
    obtain ⟨result, arguments', b', hcall, hstrands, hsettles, hfits, hsize⟩ :=
      call_makes hd h hmakes style arguments
    refine ⟨result, arguments', b', hcall, fun _ hcount => ?_, fun hs => ?_, hfits, hsize⟩
    · cases hcount
      exact hstrands
    · exact hsettles (hs count rfl)

end Plan

/-! ### The arguments of exports with one parameter -/

namespace Plan

variable {p : Plan} {arguments : List Argument}

/-- The argument of an export that takes one. -/
theorem check_one {param : ParamKind} (hparams : p.signature.params = [param])
    (hcheck : p.check arguments = .ok ()) : ∃ a rest, arguments = a :: rest ∧
      a.mismatch? param = none ∧ p.extent arguments = blockSize a.extent ∧
      ∀ top, p.raw top arguments = a.lowered top param := by
  obtain ⟨harity, hfit⟩ := fits_of_check hcheck
  unfold Signature.hostArity at harity
  unfold extent raw
  rw [hparams] at harity hfit ⊢
  rcases arguments with _ | ⟨a, rest⟩
  · rw [List.length_nil, List.length_singleton] at harity
    omega
  · refine ⟨a, rest, rfl, hfit (param, a) (by simp), ?_, fun top => ?_⟩
    · simp [extents]
    · simp [lowerings]

/-- A scalar is passed as one machine value and takes no room. -/
theorem check_scalar {kind : ScalarKind} (hparams : p.signature.params = [.scalar kind])
    (hcheck : p.check arguments = .ok ()) : ∃ v rest s, arguments = .byValue v :: rest ∧
      Scalar.ofValue? kind v = some s ∧ p.extent arguments = 0 ∧
      ∀ top, p.raw top arguments = [s.lower] := by
  obtain ⟨a, rest, ha, hfit, hextent, hraw⟩ := check_one hparams hcheck
  rcases mismatch?_eq_none hfit with ⟨kind', v, s, hkind, rfl, hs⟩ | ⟨text, hstr, -⟩ |
      ⟨kind', items, hparam, -⟩
  · cases hkind
    refine ⟨v, rest, s, ha, hs, ?_, fun top => ?_⟩
    · rw [hextent, (extent_scalar hs).1]
      rfl
    · rw [hraw]
      simp [Argument.lowered, hs]
  · cases hstr
  · rcases hparam with h | h | h <;> cases h

/-- A text is passed as an address and a number of bytes. -/
theorem check_str (hparams : p.signature.params = [.str]) (hcheck : p.check arguments = .ok ()) :
    ∃ text rest, arguments = .byValue (.str text) :: rest ∧
      p.extent arguments = blockSize text.toUTF8.size ∧
      ∀ top, p.raw top arguments = [.i32 (.ofNat top), .i32 (.ofNat text.toUTF8.size)] := by
  obtain ⟨a, rest, ha, hfit, hextent, hraw⟩ := check_one hparams hcheck
  rcases mismatch?_eq_none hfit with ⟨kind, v, s, hkind, -, -⟩ | ⟨text, -, rfl⟩ |
      ⟨kind, items, hparam, -⟩
  · cases hkind
  · exact ⟨text, rest, ha, hextent, hraw⟩
  · rcases hparam with h | h | h <;> cases h

/-- An array of bytes is passed as an address and a number of bytes. -/
theorem check_bytes {param : ParamKind} (hparam : param = .slice .u8 ∨ param = .vec .u8)
    (hparams : p.signature.params = [param]) (hcheck : p.check arguments = .ok ()) :
    ∃ a rest, arguments = a :: rest ∧ p.extent arguments = blockSize a.extent ∧
      ∀ top, p.raw top arguments = [.i32 (.ofNat top), .i32 (.ofNat a.extent)] := by
  obtain ⟨a, rest, ha, hfit, hextent, hraw⟩ := check_one hparams hcheck
  refine ⟨a, rest, ha, hextent, fun top => ?_⟩
  rw [hraw]
  rcases mismatch?_eq_none hfit with ⟨kind, v, s, rfl, -, -⟩ | ⟨text, rfl, -⟩ |
      ⟨kind, items, harrays, harray, hkind⟩
  · rcases hparam with h | h <;> cases h
  · rcases hparam with h | h <;> cases h
  · obtain ⟨-, hbytes, -, hlowered⟩ := passArgument_array .native "" harrays harray
    have hu8 : kind = .u8 := by
      rcases hparam with rfl | rfl <;> rcases harrays with h | h | h <;> cases h <;> rfl
    have hlength : items.byteLength = items.length := by
      unfold ScalarArray.byteLength
      rw [hkind, hu8]
      exact Nat.mul_one _
    rw [hlowered, hbytes, hlength]

end Plan

end GuestCall
