/-
# What is left after a call

Between calls nothing is outstanding. A call of an export that returns nothing or a scalar, and whose
code neither calls nor sets a global, leaves the heap as it found it, however it ends: wherever the
passing of the arguments stopped, and whether the export returned or trapped, the buffers are piled up
where the heap ended, and giving them back takes the pile down again.

Key definitions: `Books.AtRest`, `Plan.RunsQuiet`.
Key theorems: `Plan.check_eq_ok`, `Plan.call_on`, `Plan.perform_quiet`, `call_keeps_heap`.
-/
import GuestCall.Proofs.Call.Passing
import GuestCall.Proofs.Draft.Instantiate

namespace GuestCall

/-- Books between calls: the guest has a heap and a count of live bytes, and nothing is outstanding. -/
structure Books.AtRest (m : GuestModule) (heap live : UInt32) (b : Books Instance) : Prop where
  module : b.guest.module = m
  memory : b.guest.store.memory.IsGuest
  globals : b.guest.store.globals = [.i32 heap, .i32 live]
  above : heapStart ≤ heap.toNat
  inside : heap.toNat ≤ b.guest.memoryLength
  ledger : b.ledger.InOrder
  settled : b.ledger.outstanding = []

/-- What a call of an instance at rest starts from. -/
def Books.AtRest.ground {m : GuestModule} {heap live : UInt32} {b : Books Instance}
    (h : b.AtRest m heap live) {d : Draft} (hd : d.Loads m) : Ground where
  module := m
  loads := ⟨d, hd⟩
  heap := heap.toNat
  above := h.above
  live := live
  allocations := b.ledger.allocations
  releases := b.ledger.releases

section

variable {d : Draft} {m : GuestModule} {heap live : UInt32} {b : Books Instance}

/-- The guest tells its count of live bytes. -/
theorem Books.AtRest.liveBytes (h : b.AtRest m heap live) (hd : d.Loads m) :
    b.guest.liveBytes.1 = .ok (some live) := by
  have hat : b.guest.At m (Wasm.guestStore b.guest.store.memory heap live) := by
    refine ⟨h.module, ?_⟩
    unfold Wasm.guestStore
    rw [← h.globals]
  obtain ⟨i', hlive, -⟩ := Instance.liveBytes_at hd hat
  rw [hlive]

/-- A call starts without a pile. -/
theorem Books.AtRest.on (h : b.AtRest m heap live) (hd : d.Loads m) :
    b.On (h.ground hd) heap.toNat heap.toNat 0 := by
  refine ⟨h.module, h.memory, ?_, Nat.le_refl _, h.inside, ?_, h.ledger, ?_⟩
  · have hlive : (h.ground hd).live + (.ofNat heap.toNat - .ofNat (h.ground hd).heap) + 0 = live := by
      change live + (.ofNat heap.toNat - .ofNat heap.toNat) + 0 = live
      grind
    rw [h.globals, hlive, UInt32.ofNat_toNat]
  · unfold Ledger.pile
    rw [h.settled]
    rfl
  · rw [h.settled]
    rfl

/-- Without a pile, the instance is at rest, and what the guest left above is there to stay. -/
theorem Books.On.atRest {g : Ground} {stop : Nat} {extra : UInt32} (h : b.On g g.heap stop extra)
    (hout : b.ledger.outstanding = []) : b.AtRest g.module (.ofNat stop) (g.live + extra) := by
  have hstop := toNat_ofNat_heap h.le_capacity.1
  refine ⟨h.module, h.memory, ?_, ?_, ?_, h.ledger, hout⟩
  · have hlive : g.live + (.ofNat g.heap - .ofNat g.heap) + extra = g.live + extra := by grind
    rw [h.globals, hlive]
  · rw [hstop]
    exact Nat.le_trans g.above h.below
  · rw [hstop]
    exact h.inside

/-- What a call leaves behind: books at rest, with as many buffers given back as taken. -/
structure Books.Settled (m : GuestModule) (heap live : UInt32) (b b' : Books Instance) : Prop where
  rest : b'.AtRest m heap live
  balance : b'.ledger.allocations + b.ledger.releases =
    b.ledger.allocations + b'.ledger.releases

theorem Books.Settled.refl (h : b.AtRest m heap live) : b.Settled m heap live b := ⟨h, rfl⟩

theorem Books.Settled.trans {b₁ b₂ : Books Instance} (h₁ : b.Settled m heap live b₁)
    (h₂ : b₁.Settled m heap live b₂) : b.Settled m heap live b₂ := by
  have hfirst := h₁.balance
  have hsecond := h₂.balance
  exact ⟨h₂.rest, by omega⟩

/-- A call that took its pile down again has given back as many buffers as it took. -/
theorem Books.AtRest.settles (h : b.AtRest m heap live) (hd : d.Loads m) {b' : Books Instance}
    {stop : Nat} {extra : UInt32} (hon : b'.On (h.ground hd) heap.toNat stop extra)
    (hout : b'.ledger.outstanding = []) : b.Settled m (.ofNat stop) (live + extra) b' := by
  refine ⟨hon.atRest hout, ?_⟩
  have hbalance := hon.balance
  rw [hout, List.length_nil, Nat.add_zero] at hbalance
  exact hbalance

@[inherit_doc Books.AtRest.settles]
theorem Books.AtRest.settles_idle (h : b.AtRest m heap live) (hd : d.Loads m) {b' : Books Instance}
    (hon : b'.On (h.ground hd) heap.toNat heap.toNat 0) (hout : b'.ledger.outstanding = []) :
    b.Settled m heap live b' := by
  have hsettled := h.settles hd hon hout
  rwa [UInt32.ofNat_toNat, UInt32.add_zero] at hsettled

/-! ### The steps of a call -/

namespace Plan

variable {p : Plan} {arguments : List Argument}

theorem checkOutput_eq_ok {name : String} {index : Nat} {kind : ScalarKind} {a : Argument} :
    checkOutput name index kind (some a) = .ok () ↔ ∃ output, a = .inPlace output ∧ output.kind = kind := by
  cases a with
  | byValue v => exact iff_of_false nofun nofun
  | inPlace items =>
    unfold checkOutput
    dsimp only
    by_cases hkind : items.kind = kind
    · rw [if_pos hkind]
      exact iff_of_true rfl ⟨items, rfl, hkind⟩
    · rw [if_neg hkind]
      refine iff_of_false nofun ?_
      rintro ⟨output, h, houtput⟩
      cases h
      exact hkind houtput

/-- **What passes the check**: as many arguments as the signature asks for that fit the parameters, and behind
them, in a legacy call, an array of the kind of the result. -/
theorem check_eq_ok : p.check arguments = .ok () ↔ arguments.length = p.signature.hostArity ∧
    (∀ pair ∈ p.signature.params.zip arguments, pair.2.mismatch? pair.1 = none) ∧
    (p.signature.isLegacy = true → ∃ output, p.signature.ret = .vec output.kind ∧
      arguments[p.signature.params.length]? = some (.inPlace output)) := by
  unfold check
  dsimp only
  by_cases harity : arguments.length = p.signature.hostArity
  swap
  · rw [if_neg harity]
    exact iff_of_false nofun fun h => harity h.1
  rw [if_pos harity]
  rcases hchecked : checkArguments p.exportName 0 p.signature.params arguments with e | u
  · refine iff_of_false nofun fun h => ?_
    cases hchecked.symm.trans (checkArguments_eq_ok.mpr h.2.1)
  have hfits := checkArguments_eq_ok.mp hchecked
  dsimp only
  cases hconvention : p.signature.convention with
  | standard =>
    refine iff_of_true rfl ⟨harity, hfits, fun hlegacy => ?_⟩
    cases hconvention.symm.trans (eq_of_beq hlegacy)
  | legacyOutParam =>
    have hlegacy : p.signature.isLegacy = true := beq_iff_eq.mpr hconvention
    cases hret : p.signature.ret with
    | unit | scalar | str | bigDecimal =>
      refine iff_of_false nofun fun h => ?_
      obtain ⟨output, hvec, -⟩ := h.2.2 hlegacy
      cases hvec
    | vec kind =>
      have hlast : p.signature.params.length < arguments.length := by
        rw [harity, Signature.hostArity, if_pos hlegacy]
        exact Nat.lt_succ_self _
      dsimp only
      rw [List.getElem?_eq_getElem hlast, checkOutput_eq_ok]
      constructor
      · rintro ⟨output, houtput, rfl⟩
        exact ⟨harity, hfits, fun _ => ⟨output, rfl, congrArg some houtput⟩⟩
      · rintro ⟨-, -, h⟩
        obtain ⟨output, hvec, houtput⟩ := h hlegacy
        exact ⟨output, Option.some.inj houtput, (ReturnKind.vec.inj hvec).symm⟩

/-- The arguments that pass the check fit the parameters. -/
theorem fits_of_check (h : p.check arguments = .ok ()) :
    arguments.length = p.signature.hostArity ∧
      ∀ pair ∈ p.signature.params.zip arguments, pair.2.mismatch? pair.1 = none := by
  obtain ⟨harity, hfits, -⟩ := check_eq_ok.mp h
  exact ⟨harity, hfits⟩

/-- **Every call gives its buffers back.** Whatever a call leaves on the pile and above it, afterwards
the pile is gone, and so is what was above it unless the guest still has it. -/
theorem call_on {g : Ground} {top heap : Nat} {extra : UInt32} (style : AccessStyle)
    {result : Except BindError Value} {arguments' : List Argument} {b' : Books Instance}
    (hcheck : p.check arguments = .ok ())
    (hperform : p.perform style arguments b = (result, arguments', b'))
    (h : b'.On g top heap extra) :
    ∃ b₁, p.call style arguments b = (result, arguments', b₁) ∧
      b₁.On g g.heap (if top = heap then g.heap else heap) extra ∧ b₁.ledger.outstanding = [] ∧
      b₁.guest.store.memory = b'.guest.store.memory := by
  obtain ⟨b₁, hrelease, hon, hout, hmemory⟩ := releaseAll_on h
  refine ⟨b₁, ?_, hon, hout, hmemory⟩
  unfold call
  rw [hcheck]
  dsimp only
  rw [hperform]
  dsimp only
  rw [hrelease]
  cases result <;> rfl

end Plan

/-! ### How far a call reaches -/

/-- Bytes of an element of a buffer result. -/
def ReturnKind.elementWidth : ReturnKind → Nat
  | .vec kind => kind.width
  | _ => 1

namespace Plan

variable {p : Plan} {arguments : List Argument}

/-- Bytes of the heap that the arguments of a call take. -/
def extent (p : Plan) (arguments : List Argument) : Nat :=
  extents (p.signature.params.zip arguments)

/-- Where the data of the result of a call ends that has so many elements, the heap having ended at
`base` before the call. -/
def dataStop (p : Plan) (count : List Argument → Nat) (base : Nat) (arguments : List Argument) : Nat :=
  base + p.extent arguments + blockSize (count arguments * p.signature.ret.elementWidth)

/-- How far the heap reaches in a call for which there is room: arguments that are refused take nothing,
and the descriptor of a buffer result lies on top of its data. -/
def peak (p : Plan) (count? : Option (List Argument → Nat)) (base : Nat)
    (arguments : List Argument) : Nat :=
  match p.check arguments, count? with
  | .error _, _ => base
  | .ok _, none => base + p.extent arguments
  | .ok _, some count => p.dataStop count base arguments + 16

theorem peak_refused {e : BindError} (h : p.check arguments = .error e)
    (count? : Option (List Argument → Nat)) (base : Nat) : p.peak count? base arguments = base := by
  unfold peak
  rw [h]

theorem peak_quiet (h : p.check arguments = .ok ()) (base : Nat) :
    p.peak none base arguments = base + p.extent arguments := by
  unfold peak
  rw [h]

theorem peak_makes (h : p.check arguments = .ok ()) (count : List Argument → Nat) (base : Nat) :
    p.peak (some count) base arguments = p.dataStop count base arguments + 16 := by
  unfold peak
  rw [h]

/-- A call whose arguments are refused does nothing. -/
theorem call_refused (style : AccessStyle) (b : Books Instance) {e : BindError}
    (h : p.check arguments = .error e) : p.call style arguments b = (.error e, arguments, b) := by
  unfold call
  rw [h]

theorem kind_of_checkArguments {name : String} {e : BindError} : ∀ {params : List ParamKind}
    {arguments : List Argument} {index : Nat},
    checkArguments name index params arguments = .error e → e.kind = .argumentMismatch
  | [], arguments, index, h => by
    rw [checkArguments] at h
    · cases h
    · intro _ _ _ _ hparams
      cases hparams
  | _ :: _, [], index, h => by
    rw [checkArguments] at h
    · cases h
    · intro _ _ _ _ _ harguments
      cases harguments
  | param :: params, a :: arguments, index, h => by
    rw [checkArguments] at h
    unfold Argument.check at h
    split at h
    · exact kind_of_checkArguments h
    · rename_i hchecked
      split at hchecked
      · cases hchecked
      · cases hchecked
        cases h
        rfl

/-- Arguments are not refused for want of memory. -/
theorem check_fits {e : BindError} (h : p.check arguments = .error e) : e.kind ≠ .allocation := by
  unfold check at h
  dsimp only at h
  split at h
  · split at h
    · rename_i hchecked
      cases h
      rw [kind_of_checkArguments hchecked]
      decide
    · split at h
      · cases h
      · unfold checkOutput at h
        split at h
        · split at h
          · cases h
          · cases h
            exact nofun
        · cases h
          exact nofun
        · cases h
      · cases h
        exact nofun
  · cases h
    exact nofun

end Plan

/-- A call whose arguments are refused needs no room. -/
theorem Books.AtRest.refused (h : b.AtRest m heap live) (hd : d.Loads m) {p : Plan}
    {arguments : List Argument} {e : BindError} (hcheck : p.check arguments = .error e)
    (count? : Option (List Argument → Nat)) :
    (OutOfMemory (.error e : Except BindError Value) ↔
      heapCapacity < p.peak count? heap.toNat arguments) ∧
    b.guest.memoryLength =
      max b.guest.memoryLength (wholePages (p.peak count? heap.toNat arguments)) := by
  have hon := h.on hd
  rw [Plan.peak_refused hcheck]
  refine ⟨?_, (Nat.max_eq_left (wholePages_le hon)).symm⟩
  have hfits := not_outOfMemory_error (α := Value) (Plan.check_fits hcheck)
  exact ⟨fun h => absurd h hfits, fun h => absurd h (Nat.not_lt_of_le hon.le_capacity.1)⟩

/-! ### Quiet exports -/

/-- The export of a plan runs code that neither calls nor sets a global. -/
def Plan.RunsQuiet (m : GuestModule) (p : Plan) : Prop :=
  ∀ f function, m.find? p.exportName = some f → m.program.functions[f.index]? = some function →
    Wasm.quietCode function.code = true

/-- The export of a plan runs code that does not grow the memory either. -/
def Plan.RunsStill (m : GuestModule) (p : Plan) : Prop :=
  ∀ f function, m.find? p.exportName = some f → m.program.functions[f.index]? = some function →
    Wasm.stillCode function.code = true

theorem Plan.RunsStill.quiet {p : Plan} (h : p.RunsStill m) : p.RunsQuiet m :=
  fun f function hf hfunction => Wasm.quietCode_of_still (h f function hf hfunction)

/-- A run may trap, but it does not end for want of memory. -/
theorem Instance.run_fits (name : String) (index : Nat) (raw : List CoreValue) (i : Instance) :
    ¬ OutOfMemory (i.run name index raw).1 := by
  unfold run
  dsimp only
  split
  · exact not_outOfMemory_ok _
  · exact not_outOfMemory_error nofun

/-- A quiet export leaves the pile alone, however it ends, and a still one the size of the memory. -/
theorem call_quiet {g : Ground} {top heap : Nat} {extra : UInt32} {p : Plan}
    (h : b.On g top heap extra) (hquiet : p.RunsQuiet g.module) (raw : List CoreValue) :
    ∃ result b', Action.onGuest (Instance.call p.exportName raw) b = (result, b') ∧
      b'.On g top heap extra ∧ b'.ledger = b.ledger ∧ ¬ OutOfMemory result ∧
      (p.RunsStill g.module → b'.guest.memoryLength = b.guest.memoryLength) := by
  obtain ⟨l, guest⟩ := b
  have hat : guest.At g.module guest.store := ⟨h.module, rfl⟩
  unfold Action.onGuest Instance.call
  dsimp only
  rw [show guest.module = g.module from h.module]
  split
  · exact ⟨_, _, rfl, h, rfl, not_outOfMemory_error nofun, fun _ => rfl⟩
  · rename_i f hf
    split
    · exact ⟨_, _, rfl, h, rfl, not_outOfMemory_error nofun, fun _ => rfl⟩
    · obtain ⟨result, guest', hrun, hat'⟩ := Instance.run_at p.exportName f.index raw hat
      have hfits := guest.run_fits p.exportName f.index raw
      rw [hrun] at hfits ⊢
      refine ⟨result, ⟨l, guest'⟩, rfl, h.move hat' ?_, rfl, hfits, fun hstill => ?_⟩
      · exact Wasm.invoke_grown _ (fun function => hquiet f function hf) _ _ _
      · unfold Instance.memoryLength
        rw [hat'.store]
        exact (Wasm.invoke_kept _ (fun function => hstill f function hf) _ _ _).size

/-- A machine value that stands for no scalar is not for want of memory. -/
theorem Scalar.lift_fits (name : String) (kind : ScalarKind) (first : CoreValue) :
    ¬ OutOfMemory (lift name kind first) := by
  have hnarrow : ∀ kind v, ¬ OutOfMemory (narrow name kind v) := fun kind v => by
    unfold narrow
    split
    · exact not_outOfMemory_ok _
    · exact not_outOfMemory_error nofun
  unfold lift
  split
  all_goals first
    | exact hnarrow _ _
    | exact not_outOfMemory_ok _
    | exact not_outOfMemory_error nofun

theorem firstResult_fits (name : String) (ret : ReturnKind) (raw : List CoreValue) :
    ¬ OutOfMemory (firstResult name ret raw) := by
  unfold firstResult
  split
  · exact not_outOfMemory_ok _
  · exact not_outOfMemory_error nofun

/-- A result that is no buffer is decoded without touching the books. -/
theorem decodeResult_scalar (style : AccessStyle) (name : String) {ret : ReturnKind}
    (hret : ret = .unit ∨ ∃ kind, ret = .scalar kind) (raw : List CoreValue) (b : Books Instance) :
    (decodeResult style name ret raw).Ends b b := by
  rcases hret with rfl | ⟨kind, rfl⟩
  · exact Action.ends_return _
  · unfold decodeResult
    refine (Action.ends_ofExcept (firstResult_fits _ _ _)).bind fun first => ?_
    refine (Action.ends_ofExcept (Scalar.lift_fits _ _ _)).bind fun s => ?_
    exact Action.ends_return _

/-- The result of a legacy call fits the last argument, or it does not. -/
theorem deliver_fits (name : String) (v : Value) : ∀ arguments : List Argument,
    ¬ OutOfMemory (deliver name v arguments).1
  | [] => not_outOfMemory_error nofun
  | [.byValue _] => not_outOfMemory_error nofun
  | [.inPlace target] => by
    unfold deliver
    split
    · split
      · exact not_outOfMemory_ok _
      · exact not_outOfMemory_error nofun
    · exact not_outOfMemory_error nofun
  | _ :: a :: rest => by
    rw [deliver]
    exact deliver_fits name v (a :: rest)

variable {g : Ground} {p : Plan}

/-- What a call makes of a result, and the arguments that it leaves: the result of a legacy call goes into the
last argument. -/
def Plan.answer (p : Plan) (arguments : List Argument) :
    Except BindError Value → Except BindError Value × List Argument
  | .error e => (.error e, arguments)
  | .ok v =>
    if p.signature.isLegacy then deliver p.exportName v arguments else (.ok v, arguments)

/-- Decoding the results of an export and putting them where they belong, after it has run. -/
theorem Plan.finish_eq {style : AccessStyle} {passed : List Passed}
    {arguments arguments' : List Argument} {raw : List CoreValue} {b₁ b₂ b₃ : Books Instance}
    {result : Except BindError Value}
    (hcall : Action.onGuest (Instance.call p.exportName (passed.flatMap (·.raw))) b = (.ok raw, b₁))
    (hcopy : copyBackAll style (p.signature.params.zip passed) arguments b₁ =
      (.ok (), arguments', b₂))
    (hdecode : decodeResult style p.exportName p.signature.ret raw b₂ = (result, b₃)) :
    p.finish style passed arguments b =
      ((p.answer arguments' result).1, (p.answer arguments' result).2, b₃) := by
  unfold finish
  rw [hcall]
  dsimp only
  rw [hcopy]
  dsimp only
  rw [hdecode]
  rcases result with e | v
  · rfl
  · unfold answer
    dsimp only
    split <;> rfl

/-- A call runs out of memory just if its result does, and an error is its answer. -/
theorem Plan.answer_fits (p : Plan) (arguments : List Argument) (result : Except BindError Value) :
    (OutOfMemory (p.answer arguments result).1 ↔ OutOfMemory result) ∧
      ∀ e, result = .error e → (p.answer arguments result).1 = .error e := by
  rcases result with e | v
  · exact ⟨.rfl, fun _ h => h⟩
  have hok := not_outOfMemory_ok v
  have hfits : ¬ OutOfMemory (p.answer arguments (.ok v)).1 := by
    unfold answer
    dsimp only
    split
    · exact deliver_fits p.exportName v arguments
    · exact hok
  exact ⟨⟨fun h => absurd h hfits, fun h => absurd h hok⟩, fun _ h => (nomatch h)⟩

/-- Running a quiet export and bringing its result home leaves the pile as it is. -/
theorem Plan.finish_quiet {top : Nat} {extra : UInt32} (style : AccessStyle)
    (h : b.On g top top extra) (hquiet : p.RunsQuiet g.module)
    (hret : p.signature.ret = .unit ∨ ∃ kind, p.signature.ret = .scalar kind)
    {passed : List Passed} (arguments : List Argument)
    (hheld : ∀ q ∈ passed, ∀ x, q.handle? = some x → x.bare ∈ b.ledger.pile) :
    ∃ result arguments' b', p.finish style passed arguments b = (result, arguments', b') ∧
      b'.On g top top extra ∧ ¬ OutOfMemory result ∧
      (p.RunsStill g.module → b'.guest.memoryLength = b.guest.memoryLength) := by
  obtain ⟨raw?, b₁, hcall, hon₁, hledger, hfits₁, hsize₁⟩ :=
    call_quiet h hquiet (passed.flatMap (·.raw))
  rcases raw? with e | raw
  · refine ⟨.error e, arguments, b₁, ?_, hon₁, fun ⟨e', he, hkind⟩ => ?_, hsize₁⟩
    · unfold finish
      rw [hcall]
    · cases he
      exact hfits₁ ⟨_, rfl, hkind⟩
  have hheld₁ : ∀ pair ∈ p.signature.params.zip passed, ∀ x, pair.2.handle? = some x →
      x.bare ∈ b₁.ledger.pile := by
    rintro ⟨param, q⟩ hpair x hx
    rw [hledger]
    exact hheld q (List.of_mem_zip hpair).2 x hx
  obtain ⟨copied, arguments', b₂, hcopy, hon₂, hstore, hfits₂⟩ :=
    copyBackAll_on style arguments hon₁ hheld₁
  have hsize₂ : p.RunsStill g.module → b₂.guest.memoryLength = b.guest.memoryLength := by
    unfold Instance.memoryLength at *
    rw [hstore]
    exact hsize₁
  rcases copied with e | u
  · refine ⟨.error e, arguments', b₂, ?_, hon₂, fun ⟨e', he, hkind⟩ => ?_, hsize₂⟩
    · unfold finish
      rw [hcall]
      dsimp only
      rw [hcopy]
    · cases he
      exact hfits₂ ⟨_, rfl, hkind⟩
  obtain ⟨value, hdecode, hfits₃⟩ := decodeResult_scalar style p.exportName hret raw b₂
  exact ⟨_, _, b₂, finish_eq hcall hcopy hdecode, hon₂,
    fun h => hfits₃ ((p.answer_fits arguments' value).1.mp h), hsize₂⟩

/-- A call of a quiet export, up to giving its buffers back. If there is no room for the arguments, the
call fails for want of memory, and otherwise the memory has grown as far as the arguments and the export
made it. -/
theorem Plan.perform_quiet {top : Nat} {extra : UInt32} (style : AccessStyle)
    (h : b.On g top top extra) (hquiet : p.RunsQuiet g.module)
    (hret : p.signature.ret = .unit ∨ ∃ kind, p.signature.ret = .scalar kind)
    {arguments : List Argument} (hcheck : p.check arguments = .ok ()) :
    ∃ result arguments' top' b', p.perform style arguments b = (result, arguments', b') ∧
      b'.On g top' top' extra ∧ (OutOfMemory result ↔ heapCapacity < top + p.extent arguments) ∧
      (¬ OutOfMemory result → p.RunsStill g.module → b'.guest.memoryLength =
        max b.guest.memoryLength (wholePages (top + p.extent arguments))) := by
  have hpass := passArguments_on style p.exportName h (fits_of_check hcheck).2
  unfold perform
  by_cases hroom : top + extents (p.signature.params.zip arguments) ≤ heapCapacity
  · rw [if_pos hroom] at hpass
    obtain ⟨passed, b₁, hpass, -, hheld, hraised, -⟩ := hpass
    rw [hpass]
    obtain ⟨result, arguments', b', hfinish, hon, hfits, hsize⟩ :=
      finish_quiet style hraised.on hquiet hret arguments hheld
    refine ⟨result, arguments', _, b', hfinish, hon, ?_, fun _ hstill => ?_⟩
    · exact ⟨fun h => absurd h hfits, fun h => absurd h (Nat.not_lt_of_le hroom)⟩
    · exact (hsize hstill).trans hraised.size
  · rw [if_neg hroom] at hpass
    obtain ⟨n, fault, k, b₁, hpass, hon, -⟩ := hpass
    have hfailed := outOfMemory_allocation (α := Value) n fault
    rw [hpass]
    refine ⟨_, arguments, _, b₁, rfl, hon, ?_, fun hfits => absurd hfailed hfits⟩
    exact ⟨fun _ => Nat.lt_of_not_le hroom, fun _ => hfailed⟩

/-- **A call of a quiet export leaves the heap as it was**, with any arguments and however it ends. -/
theorem Plan.call_quiet (hd : d.Loads m) (h : b.AtRest m heap live) (hquiet : p.RunsQuiet m)
    (hret : p.signature.ret = .unit ∨ ∃ kind, p.signature.ret = .scalar kind)
    (style : AccessStyle) (arguments : List Argument) :
    ∃ result arguments' b', p.call style arguments b = (result, arguments', b') ∧
      b.Settled m heap live b' ∧
      (OutOfMemory result ↔ heapCapacity < p.peak none heap.toNat arguments) ∧
      (¬ OutOfMemory result → p.RunsStill m → b'.guest.memoryLength =
        max b.guest.memoryLength (wholePages (p.peak none heap.toNat arguments))) := by
  rcases hcheck : p.check arguments with e | u
  · refine ⟨_, _, _, call_refused style b hcheck, .refl h, ?_, fun _ _ => ?_⟩
    · exact (h.refused hd hcheck none).1
    · exact (h.refused hd hcheck none).2
  obtain ⟨result, arguments', top, b', hperform, hon, hfits, hsize⟩ :=
    perform_quiet style (h.on hd) hquiet hret hcheck
  obtain ⟨b₁, hcall, hon₁, hout, hmemory⟩ := call_on style hcheck hperform hon
  rw [if_pos rfl] at hon₁
  rw [peak_quiet hcheck]
  refine ⟨result, arguments', b₁, hcall, h.settles_idle hd hon₁ hout, hfits, ?_⟩
  unfold Instance.memoryLength at hsize ⊢
  rw [hmemory]
  exact hsize

/-- The books of a fresh instance of a finished draft are at rest. -/
theorem Books.atRest_fresh (hd : d.Loads m) {c : Config} {i : Instance}
    (hi : Instance.ofModule m c = .ok i) :
    (⟨.empty, i⟩ : Books Instance).AtRest m heapStart.toUInt32 0 := by
  obtain ⟨i', memory, hi', hat, hguest, hsize, -⟩ := hd.instantiates c
  obtain rfl : i = i' := Except.ok.inj (hi.symm.trans hi')
  refine ⟨hat.module, ?_, ?_, ?_, ?_, Ledger.inOrder_empty, rfl⟩
  · rw [hat.store]
    exact hguest
  · rw [hat.store]
    rfl
  · decide
  · have hfirst : heapStart ≤ pageSize := by decide
    unfold Instance.memoryLength
    rw [hat.store, Wasm.memory_guestStore, hsize]
    exact hfirst

end

/-- The plan of a name is found under that name. -/
theorem Binding.find?_of_plan? {bound : Binding} {name : String} {p : Plan} (h : bound.plan? name = some p) :
    (bound.plans.find? fun q => q.1 == name) = some (name, p) := by
  obtain ⟨⟨found, p⟩, hfind, rfl⟩ := Option.map_eq_some_iff.mp h
  have hfound : (found == name) = true :=
    List.find?_some (p := fun q : String × Plan => q.1 == name) hfind
  obtain rfl : found = name := eq_of_beq hfound
  exact hfind

/-- A call of a name that has a plan. -/
theorem Binding.call_eq {bound : Binding} {name : String} {p : Plan}
    (h : bound.plan? name = some p) (arguments : List Argument) :
    bound.call name arguments =
      ((p.call bound.style arguments bound.books).1, (p.call bound.style arguments bound.books).2.1,
        ⟨bound.style, bound.plans, (p.call bound.style arguments bound.books).2.2⟩) := by
  have hfind := find?_of_plan? h
  obtain ⟨style, plans, books⟩ := bound
  dsimp only at hfind
  unfold call
  dsimp only
  rw [hfind]

/-- A call of a name that has no plan. -/
theorem Binding.call_unplanned {bound : Binding} {name : String} (h : bound.plan? name = none)
    (arguments : List Argument) :
    bound.call name arguments = (.error (.exportNotFound name), arguments, bound) := by
  have hfind := Option.map_eq_none_iff.mp h
  obtain ⟨style, plans, books⟩ := bound
  unfold call
  dsimp only at hfind ⊢
  rw [hfind]

/-- The code of an export that returns the first element of an array, even if there is none. -/
def firstBody : Wasm.Body := .ofCode [] [Code.val 0, Code.load .i32 2]

/-- A draft with that export only, without signatures. -/
def firstDraft : Draft :=
  { Draft.empty with
    tableSection? := none
    functions := Draft.builtins ++ [⟨Draft.wordType 2 1, .wrapped "first", firstBody⟩] }

theorem loads_firstDraft : ∃ m, firstDraft.Loads m := by
  have step : Draft.addFunction { Draft.empty with tableSection? := none } "first"
      (Draft.wordType 2 1) firstBody = .ok (4, firstDraft) := rfl
  have hbuilt : firstDraft.Built := .addFunction (.tableSection .empty none) step
  have hvalid : (Wasm.Program.ofBytes? firstDraft.toModule.bytes).isSome = true := by
    set_option maxRecDepth 100000 in decide +kernel
  obtain ⟨m, hm, -⟩ := hbuilt.loads (by decide) hvalid metadataSection none fun p hp => by
    unfold GuestModule.tableOf Wasm.Program.custom?
    rw [hp.customs]
    rfl
  exact ⟨m, hm⟩

end GuestCall
