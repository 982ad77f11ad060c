/-
# Runs of calls of the sample guests

A sample guest starts with an empty heap, and every call that there is memory for leaves it empty again. So
a run of such calls makes the memory as large as its largest call does, and no larger. A call that there is
no memory for leaves the heap empty too, but for one case: the data of its result fits and the descriptor
on top of it does not. Then the call fails and the data stays.

Key definitions: `Sample.Bound`, `Sample.Offered`, `Sample.reach`.
Key theorems: `bound_of_bind`, `Offered.call_presents`, `Bound.offers`, `Bound.call_ends`,
`Bound.session_ends`, `calls_leak_nothing`, `failed_calls_strand_their_result`.
-/
import GuestCall.Proofs.Call.Answers
import GuestCall.Proofs.Call.Service
import GuestCall.Proofs.Call.Styles
import GuestCall.Proofs.Sample.Calls

namespace GuestCall.Sample

/-- A binding of a sample guest, with the plans that it was bound with. -/
structure Bound (s : Sample) (m : GuestModule) (d : Binding) : Prop where
  loaded : ∃ draft, s.LoadedAs draft m
  planned : Plan.ofModule m wrappedMark = .ok d.plans

/-- What a host binds the bytes of a sample guest as, if it is configured with the usual names. -/
theorem bound_of_bind {s : Sample} {bytes : List UInt8} (hbytes : s.bytes = .ok bytes) {c : Config}
    {host : Host} (hhost : Host.ofConfig c = .ok host) (hmark : c.exportMark = wrappedMark)
    (hsection : c.metadataSection = GuestCall.metadataSection) {bound : Binding}
    (hbound : (host.bind bytes).1 = .ok bound) : s.Bound bound.books.guest.module bound ∧
      bound.books.AtRest bound.books.guest.module heapStart.toUInt32 0 := by
  obtain ⟨m, i, plans, hm, hi, hplans, rfl⟩ := (Host.bind_eq_ok hhost).mp hbound
  rw [hsection] at hm
  rw [hmark] at hplans
  obtain ⟨draft, hdraft⟩ := loadedAs_of_bytes hbytes hm
  have hrest := Books.atRest_fresh hdraft.loads hi
  obtain rfl : i.module = m := hrest.module
  exact ⟨⟨⟨draft, hdraft⟩, hplans⟩, hrest⟩

/-- A sample guest in service, on an empty heap. -/
theorem exists_at_rest {s : Sample} (hs : s ≠ .mismatched) {e : Signature × Wasm.Body} (he : e ∈ s.typed) :
    ∃ (m : GuestModule) (d : Binding), s.Bound m d ∧ d.Serves m ∧
      d.books.AtRest m heapStart.toUInt32 0 := by
  obtain ⟨m, d, -, hserves, hloaded, hrest, hplans, -⟩ := exists_serving hs he
  exact ⟨m, d, ⟨hloaded, hplans⟩, hserves, hrest⟩

/-- An export of a guest as a binding offers it: the plan by its name, and where its code is. -/
structure Offered (m : GuestModule) (d : Binding) (e : Signature × Wasm.Body)
    (count? : Option (List Argument → Nat)) (draft : Draft) (p : Plan) (i : Nat) : Prop where
  loads : draft.Loads m
  code : draft.functions[i]? = some (Draft.entry e)
  plan : d.plan? e.1.name = some p
  signature : p.signature = e.1
  found : m.find? p.exportName = some ⟨p.exportName, p.signature.shape, i⟩
  behaves : p.Behaves m count?

namespace Offered

variable {m : GuestModule} {d : Binding} {e : Signature × Wasm.Body}
  {count? : Option (List Argument → Nat)} {draft : Draft} {p : Plan} {i : Nat}

/-- A call by the name of an export is a call of its plan. -/
theorem call_eq (h : Offered m d e count? draft p i) {arguments arguments' : List Argument}
    {result : Except BindError Value} {b' : Books Instance}
    (hcall : p.call d.style arguments d.books = (result, arguments', b')) :
    d.call e.1.name arguments = (result, arguments', ⟨d.style, d.plans, b'⟩) := by
  rw [Binding.call_eq h.plan, hcall]

/-- **An export that returns a buffer** answers what its bytes stand for, on an empty heap that there is room
behind. Whether there is or not, the call leaves alone what lies below the heap. -/
theorem call_presents {count : List Argument → Nat} (h : Offered m d e (some count) draft p i)
    {live : UInt32} (hrest : d.books.AtRest m heapStart.toUInt32 live) {arguments : List Argument}
    (hcheck : p.check arguments = .ok ()) {extent : Nat} (hextent : p.extent arguments = extent)
    {bytes : List UInt8} {v : Value} (hdenotes : Denotes (count arguments) bytes e.1.ret v)
    (hpresents : ∀ memory live', memory = p.supplied arguments heapStart d.books.guest.store.memory →
      memory.IsGuest → heapStart + extent ≤ memory.size →
      Wasm.Presents memory (heapStart + extent) live' (count arguments) e.1.ret.elementWidth bytes
        (m.program.invoke Wasm.depthLimit i ((p.raw heapStart arguments).reverse.map .ofCore)
          (Wasm.guestStore memory (.ofNat (heapStart + extent)) live')))
    {answer : Except BindError Value} {arguments' : List Argument}
    (hanswer : p.answer arguments (.ok v) = (answer, arguments')) :
    let stop := heapStart + extent + blockSize (count arguments * e.1.ret.elementWidth) + 16
    (stop ≤ heapCapacity → ∃ d', d.call e.1.name arguments = (answer, arguments', d') ∧
      d'.books.guest.store.memory = (p.supplied arguments heapStart d.books.guest.store.memory).presented
        (heapStart + extent) bytes (count arguments)) ∧
    (heapCapacity < stop → ∃ result d', d.call e.1.name arguments = (result, arguments, d') ∧
      OutOfMemory result) ∧
    ∀ i, i < heapStart → (d.call e.1.name arguments).2.2.books.guest.store.memory.byteAt i =
      d.books.guest.store.memory.byteAt i := by
  subst hextent
  have hret : p.signature.ret = e.1.ret := congrArg Signature.ret h.signature
  rw [← hret] at hdenotes hpresents ⊢
  have hmakes : p.Makes m count := by
    cases h.behaves with
    | makes hmakes => exact hmakes
  have hcalled := Plan.call_presents h.loads hrest hmakes d.style h.found rfl hcheck hdenotes hpresents hanswer
  refine ⟨fun hroom => ?_, fun hfull => ?_, fun i hi => ?_⟩
  · obtain ⟨b', hcall, hmemory⟩ := hcalled.1 hroom
    exact ⟨_, h.call_eq hcall, hmemory⟩
  · obtain ⟨result, b', hcall, hout⟩ := hcalled.2 hfull
    exact ⟨result, _, h.call_eq hcall, hout⟩
  · rw [h.call_eq rfl]
    exact Plan.call_below h.loads hrest hmakes d.style h.found rfl hcheck hdenotes hpresents hi

end Offered

/-- Every export with a signature is offered. -/
theorem Bound.offers {s : Sample} {m : GuestModule} {d : Binding} (h : s.Bound m d)
    {e : Signature × Wasm.Body} (he : e ∈ s.typed) {count? : Option (List Argument → Nat)}
    (hcount : s.count? e.1.name = count?) : ∃ draft p i, Offered m d e count? draft p i := by
  obtain ⟨draft, hdraft⟩ := h.loaded
  obtain ⟨p, hmem, hfind, hsignature⟩ := hdraft.exists_plan h.planned he
  obtain ⟨i, type, body, hf, hfound, ⟨e', he', rfl, hname, rfl, -⟩ | ⟨huntyped, -⟩⟩ :=
    hdraft.plan_cases h.planned hmem
  · obtain rfl : e = e' := List.inj_on_of_nodup_map s.nodup_typed he he' hname
    refine ⟨draft, p, i, hdraft.loads, hf, ?_, hsignature, hfound, hcount ▸ hdraft.behaves h.planned hmem⟩
    unfold Binding.plan?
    rw [hfind]
    rfl
  · -- a name with a signature is not that of a function without one
    have hs := hdraft.ne_mismatched h.planned
    have hnone := get?_untyped hs huntyped rfl
    rw [get?_typed hs he] at hnone
    cases hnone

/-- How far the heap reaches in a call, if there is room for that. A name without a plan needs none. -/
def reach (s : Sample) (plans : List (String × Plan)) (name : String) (arguments : List Argument) : Nat :=
  match plans.find? fun p => p.1 == name with
  | none => heapStart
  | some (_, p) => p.peak (s.count? name) heapStart arguments

variable {s : Sample} {m : GuestModule} {d : Binding}

/-- The data of the result of a call is stranded: there is room for it, but not for its descriptor. -/
def Strands (s : Sample) (d : Binding) (name : String) (arguments : List Argument) (p : Plan)
    (count : List Argument → Nat) : Prop :=
  d.plan? name = some p ∧ s.count? name = some count ∧ p.Strands count heapStart arguments

/-- **How a call ends** that starts on an empty heap. -/
theorem Bound.call_ends (h : s.Bound m d) (hrest : d.books.AtRest m heapStart.toUInt32 0) (name : String)
    (arguments : List Argument) : ∃ result arguments' books',
      d.call name arguments = (result, arguments', ⟨d.style, d.plans, books'⟩) ∧
      (OutOfMemory result ↔ heapCapacity < s.reach d.plans name arguments) ∧
      (¬ OutOfMemory result → books'.guest.memoryLength =
        max d.books.guest.memoryLength (wholePages (s.reach d.plans name arguments))) ∧
      ((∀ p count, ¬ s.Strands d name arguments p count) →
        d.books.Settled m heapStart.toUInt32 0 books') ∧
      ∀ p count, s.Strands d name arguments p count →
        result = .error (.allocation 0 (.nullDescriptor p.exportName)) ∧
          d.books.Settled m (.ofNat (p.dataStop count heapStart arguments))
            (.ofNat (blockSize (count arguments * p.signature.ret.elementWidth))) books' := by
  obtain ⟨draft, hdraft⟩ := h.loaded
  have hstart : heapStart.toUInt32.toNat = heapStart := by decide
  rcases hplan : d.plan? name with _ | p
  · have hreach : s.reach d.plans name arguments = heapStart := by
      unfold reach
      rw [Option.map_eq_none_iff.mp hplan]
    have hfits : ¬ OutOfMemory (.error (.exportNotFound name) : Except BindError Value) :=
      not_outOfMemory_error nofun
    have hsize := wholePages_le (hrest.on hdraft.loads)
    rw [hstart] at hsize
    rw [hreach]
    refine ⟨_, _, d.books, Binding.call_unplanned hplan arguments,
      ⟨fun hout => absurd hout hfits, fun hout => absurd hout (by decide)⟩,
      fun _ => (Nat.max_eq_left hsize).symm, fun _ => .refl hrest, fun p count hs => ?_⟩
    have hp := hs.1
    rw [hplan] at hp
    cases hp
  · have hfind := Binding.find?_of_plan? hplan
    have hbehaves := hdraft.behaves h.planned (List.mem_of_find?_eq_some hfind)
    obtain ⟨result, arguments', books', hcall, hstrands, hsettles, hfits, hsize⟩ :=
      Plan.call_behaves hdraft.loads hrest hbehaves d.style arguments
    have hreach : s.reach d.plans name arguments = p.peak (s.count? name) heapStart arguments := by
      unfold reach
      rw [hfind]
    rw [hstart] at hstrands hsettles hfits hsize
    rw [Binding.call_eq hplan, hcall, hreach]
    refine ⟨result, arguments', books', rfl, hfits, hsize,
      fun hs => hsettles fun count hcount hs' => hs p count ⟨hplan, hcount, hs'⟩, ?_⟩
    rintro p' count ⟨hp, hcount, hs⟩
    obtain rfl : p = p' := Option.some.inj (hplan.symm.trans hp)
    obtain ⟨hresult, hsettled⟩ := hstrands count hcount hs
    rw [UInt32.zero_add] at hsettled
    exact ⟨hresult, hsettled⟩

/-- A call that there is memory for leaves the heap empty. -/
theorem Bound.call_settles (h : s.Bound m d) (hrest : d.books.AtRest m heapStart.toUInt32 0)
    {name : String} {arguments : List Argument} (hserved : ¬ OutOfMemory (d.call name arguments).1) :
    d.books.Settled m heapStart.toUInt32 0 (d.call name arguments).2.2.books := by
  obtain ⟨result, arguments', books', hcall, -, -, hsettles, hstrands⟩ :=
    h.call_ends hrest name arguments
  rw [hcall] at hserved ⊢
  refine hsettles fun p count hs => hserved ?_
  rw [(hstrands p count hs).1]
  exact outOfMemory_allocation _ _

/-- **A run of calls** that there is memory for leaves the heap empty, and the memory as large as the call
that reaches farthest makes it. -/
theorem Bound.session_ends : ∀ (calls : List (String × List Argument)) {d : Binding}, s.Bound m d →
    d.books.AtRest m heapStart.toUInt32 0 →
    (∀ answer ∈ (d.session calls).1, ¬ OutOfMemory answer.1) →
    d.books.Settled m heapStart.toUInt32 0 (d.session calls).2.books ∧
      (∀ call ∈ calls, s.reach d.plans call.1 call.2 ≤ heapCapacity) ∧
      ∀ n, d.books.guest.memoryLength ≤ n →
        (∀ call ∈ calls, wholePages (s.reach d.plans call.1 call.2) ≤ n) →
        (d.session calls).2.books.guest.memoryLength ≤ n
  | [], d, _, hrest, _ => ⟨.refl hrest, fun _ hcall => (nomatch hcall), fun n hn _ => hn⟩
  | (name, arguments) :: rest, d, h, hrest, hserved => by
    obtain ⟨result, arguments', books', hcall, hfits, hsize, -⟩ := h.call_ends hrest name arguments
    have hsettles : ¬ OutOfMemory (d.call name arguments).1 → d.books.Settled m heapStart.toUInt32 0
        (d.call name arguments).2.2.books := h.call_settles hrest
    rw [hcall] at hsettles
    rw [Binding.session, hcall] at hserved ⊢
    dsimp only at hserved ⊢
    have hfirst := hserved (result, arguments') List.mem_cons_self
    have hsettled := hsettles hfirst
    obtain ⟨hsettled', hreach, hsize'⟩ := session_ends rest (d := ⟨d.style, d.plans, books'⟩)
      ⟨h.loaded, h.planned⟩ hsettled.rest fun answer hanswer =>
        hserved answer (List.mem_cons_of_mem _ hanswer)
    refine ⟨hsettled.trans hsettled', fun call hmem => ?_, fun n hn hcalls => hsize' n ?_ fun call hmem =>
      hcalls call (List.mem_cons_of_mem _ hmem)⟩
    · rcases List.mem_cons.mp hmem with rfl | hmem
      · exact Nat.le_of_not_lt (mt hfits.mpr hfirst)
      · exact hreach call hmem
    · rw [hsize hfirst]
      exact Nat.max_le.mpr ⟨hn, hcalls (name, arguments) List.mem_cons_self⟩

/-- **No bytes leak, and the heap is reclaimed.** A sample guest was bound with the usual names, and now its
heap is empty, whatever is in its memory. Then a call that there is memory for leaves the heap empty and
gives back as many buffers as it took, however it ends. So does a run of such calls; and a bound on the
memory that each of them alone would leave is a bound on what they all leave. -/
theorem calls_leak_nothing {s : Sample} {bytes : List UInt8} (hbytes : s.bytes = .ok bytes) {c : Config}
    {host : Host} (hhost : Host.ofConfig c = .ok host) (hmark : c.exportMark = wrappedMark)
    (hsection : c.metadataSection = GuestCall.metadataSection) {bound : Binding}
    (hbound : (host.bind bytes).1 = .ok bound) {d : Binding} (hplans : d.plans = bound.plans)
    (hrest : d.books.AtRest bound.books.guest.module heapStart.toUInt32 0) :
    (∀ (name : String) (arguments : List Argument), ¬ OutOfMemory (d.call name arguments).1 →
      d.books.Settled bound.books.guest.module heapStart.toUInt32 0
        (d.call name arguments).2.2.books) ∧
    ∀ calls : List (String × List Argument),
      (∀ answer ∈ (d.session calls).1, ¬ OutOfMemory answer.1) →
      d.books.Settled bound.books.guest.module heapStart.toUInt32 0 (d.session calls).2.books ∧
        ∀ n, d.books.guest.memoryLength ≤ n →
          (∀ call ∈ calls, (d.call call.1 call.2).2.2.books.guest.memoryLength ≤ n) →
          (d.session calls).2.books.guest.memoryLength ≤ n := by
  obtain ⟨⟨hloaded, hplanned⟩, -⟩ := bound_of_bind hbytes hhost hmark hsection hbound
  have h : s.Bound bound.books.guest.module d := ⟨hloaded, hplans ▸ hplanned⟩
  refine ⟨fun name arguments hserved => ?_, fun calls hserved => ?_⟩
  · exact h.call_settles hrest hserved
  · obtain ⟨hsettled, hreach, hsize⟩ := h.session_ends calls hrest hserved
    refine ⟨hsettled, fun n hn hcalls => hsize n hn fun call hmem => ?_⟩
    -- a call that was served in the run would be served alone
    obtain ⟨result, arguments', books', hcall, hfits, hsize', -⟩ := h.call_ends hrest call.1 call.2
    have halone := hcalls call hmem
    have hserved := mt hfits.mp (Nat.not_lt_of_le (hreach call hmem))
    rw [hcall, hsize' hserved] at halone
    exact Nat.le_trans (Nat.le_max_right _ _) halone

/-- The guest that doubles bytes, freshly bound. -/
theorem fresh_calls_leak_nothing : ∃ (bytes : List UInt8) (host : Host) (d : Binding),
    Sample.sums.bytes = .ok bytes ∧ Host.ofConfig .default = .ok host ∧ (host.bind bytes).1 = .ok d ∧
    d.books.AtRest d.books.guest.module heapStart.toUInt32 0 ∧
    (∀ (name : String) (arguments : List Argument), ¬ OutOfMemory (d.call name arguments).1 →
      d.books.Settled d.books.guest.module heapStart.toUInt32 0 (d.call name arguments).2.2.books) ∧
    ∀ calls : List (String × List Argument),
      (∀ answer ∈ (d.session calls).1, ¬ OutOfMemory answer.1) →
      d.books.Settled d.books.guest.module heapStart.toUInt32 0 (d.session calls).2.books ∧
        ∀ n, d.books.guest.memoryLength ≤ n →
          (∀ call ∈ calls, (d.call call.1 call.2).2.2.books.guest.memoryLength ≤ n) →
          (d.session calls).2.books.guest.memoryLength ≤ n := by
  obtain ⟨bytes, _, m, i, plans, hbytes, hm, -, hi, hplans, -⟩ :=
    exists_bound (s := .sums) (c := .default) nofun rfl rfl
  have hhost : Host.ofConfig .default = .ok ⟨.default, 0, []⟩ := rfl
  have hbound := (Host.bind_eq_ok hhost).mpr ⟨m, i, plans, hm, hi, hplans, rfl⟩
  have hrest := (bound_of_bind hbytes hhost rfl rfl hbound).2
  exact ⟨bytes, _, _, hbytes, hhost, hbound, hrest,
    calls_leak_nothing hbytes hhost rfl rfl hbound rfl hrest⟩

/-- **A call that there is no memory for** leaves the heap empty too, unless the data of its result is
stranded: then just that data stays. -/
theorem failed_calls_strand_their_result {s : Sample} {bytes : List UInt8}
    (hbytes : s.bytes = .ok bytes) {c : Config} {host : Host} (hhost : Host.ofConfig c = .ok host)
    (hmark : c.exportMark = wrappedMark) (hsection : c.metadataSection = GuestCall.metadataSection)
    {bound : Binding} (hbound : (host.bind bytes).1 = .ok bound) {d : Binding}
    (hplans : d.plans = bound.plans)
    (hrest : d.books.AtRest bound.books.guest.module heapStart.toUInt32 0) (name : String)
    (arguments : List Argument) :
    ((∀ p count, ¬ s.Strands d name arguments p count) →
      d.books.Settled bound.books.guest.module heapStart.toUInt32 0
        (d.call name arguments).2.2.books) ∧
    ∀ p count, s.Strands d name arguments p count →
      (d.call name arguments).1 = .error (.allocation 0 (.nullDescriptor p.exportName)) ∧
      d.books.Settled bound.books.guest.module (.ofNat (p.dataStop count heapStart arguments))
        (.ofNat (blockSize (count arguments * p.signature.ret.elementWidth)))
        (d.call name arguments).2.2.books := by
  obtain ⟨⟨hloaded, hplanned⟩, -⟩ := bound_of_bind hbytes hhost hmark hsection hbound
  have h : s.Bound bound.books.guest.module d := ⟨hloaded, hplans ▸ hplanned⟩
  obtain ⟨result, arguments', books', hcall, -, -, hsettles, hstrands⟩ :=
    h.call_ends hrest name arguments
  rw [hcall]
  exact ⟨hsettles, hstrands⟩

/-- All Fibonacci numbers that just fit below the end of the memory, on a fresh instance: there is no room
left to describe them, and their sixteen million bytes are never given back. -/
theorem all_numbers_stranded : ∃ (bytes : List UInt8) (host : Host) (d : Binding),
    Sample.fibonacci.bytes = .ok bytes ∧ Host.ofConfig .default = .ok host ∧
    (host.bind bytes).1 = .ok d ∧ d.books.AtRest d.books.guest.module heapStart.toUInt32 0 ∧
    OutOfMemory (d.call "all" [.byValue (.i32 2096640)]).1 ∧
    d.books.Settled d.books.guest.module 16777216 16773120
      (d.call "all" [.byValue (.i32 2096640)]).2.2.books ∧
    (d.call "all" [.byValue (.i32 2096640)]).2.2.books.guest.liveBytes.1 = .ok (some 16773120) := by
  obtain ⟨bytes, draft, m, i, plans, hbytes, hm, hd, hi, hplans, rfl⟩ :=
    exists_bound (s := .fibonacci) (c := .default) nofun rfl rfl
  have hhost : Host.ofConfig .default = .ok ⟨.default, 0, []⟩ := rfl
  have hbound := (Host.bind_eq_ok hhost).mpr ⟨_, i, plans, hm, hi, hplans, rfl⟩
  have hrest := (bound_of_bind hbytes hhost rfl rfl hbound).2
  obtain ⟨p, -, hfind, hsignature⟩ :=
    hd.exists_plan hplans (e := Fibonacci.exports[2]) (List.getElem_mem _)
  have hstranded : p.Strands firstNumber heapStart [.byValue (.i32 2096640)] := by
    refine ⟨?_, by decide, ?_, ?_⟩
    · unfold Plan.check
      rw [hsignature]
      rfl
    all_goals
      unfold Plan.dataStop Plan.extent
      rw [hsignature]
      decide
  have hs : Sample.fibonacci.Strands ⟨Config.default.accessStyle, plans, ⟨.empty, i⟩⟩ "all"
      [.byValue (.i32 2096640)] p firstNumber := by
    refine ⟨?_, rfl, hstranded⟩
    unfold Binding.plan?
    dsimp only
    rw [show Fibonacci.exports[2].1.name = "all" from rfl] at hfind
    rw [hfind]
    rfl
  obtain ⟨hresult, hsettled⟩ := (failed_calls_strand_their_result hbytes hhost rfl rfl hbound rfl hrest
    "all" [.byValue (.i32 2096640)]).2 p firstNumber hs
  have hstop : p.dataStop firstNumber heapStart [.byValue (.i32 2096640)] = 16777216 := by
    unfold Plan.dataStop Plan.extent
    rw [hsignature]
    rfl
  have hsize : blockSize (firstNumber [.byValue (.i32 2096640)] * p.signature.ret.elementWidth) =
      16773120 := by
    rw [hsignature]
    rfl
  rw [hstop, hsize] at hsettled
  refine ⟨bytes, _, _, hbytes, hhost, hbound, hrest, ?_, hsettled, hsettled.rest.liveBytes hd.loads⟩
  rw [hresult]
  exact outOfMemory_allocation _ _

end GuestCall.Sample
