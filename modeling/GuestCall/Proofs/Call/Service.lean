/-
# Bindings in service

A binding is in service from the moment its exports were planned. Calls and other uses of its instance may
follow in any number, and they may go as they like: the memory of the guest stays within the reach of
addresses, every plan reaches the export that it was made for, and between calls nothing is outstanding. So
each call either refuses its arguments and does nothing, or takes one of the courses of a call.

Key definitions: `Books.Resting`, `Binding.Serves`, `Binding.Fit`, and `Plan.CallFault`.
Key theorems: `releaseAll_resting`, `Plan.call_resting`, `Serves.fit`, `Serves.atRest`,
`calls_take_their_course`.
-/
import GuestCall.Proofs.Call.Course
import GuestCall.Proofs.Sample.Catalog

namespace GuestCall

open Ledger GuestCall.Action

/-! ### Giving buffers back -/

section

variable {b b' : Books Instance}

theorem refresh_later (x : Handle) (b : Books Instance) : b.guest.Later (refresh x b).2.guest := by
  rcases refresh_cases x b with ⟨e, hrefresh, -⟩ | ⟨epoch, guest, hlook, hrefresh⟩ <;> rw [hrefresh]
  · exact .refl _
  · cases hlook
    exact b.guest.later_observe

theorem release_later (x : Handle) (b : Books Instance) : b.guest.Later (release x b).2.guest := by
  rcases hrelease : release x b with ⟨result, b'⟩
  have hlook : b.guest.Later (GuestAllocator.epoch b.guest).2 := b.guest.later_observe
  cases release_cases hrelease with
  | borrowed | gone => exact .refl _
  | stale _ _ look | unknown _ _ look =>
    rw [look] at hlook
    exact hlook
  | @freed _ guest guest' _ _ look _ free =>
    rw [look] at hlook
    have hfree := guest.later_free x.ptr x.len
    rw [show guest.free x.ptr x.len = _ from free] at hfree
    exact hlook.trans hfree

theorem refreshRelease_later (x : Handle) (b : Books Instance) :
    b.guest.Later (refreshRelease x b).2.guest := by
  have hrefresh := refresh_later x b
  unfold refreshRelease andThen
  split <;> rename_i heq <;> rw [heq] at hrefresh
  · exact hrefresh.trans (release_later _ _)
  · exact hrefresh

theorem releaseNewest_later : ∀ (count : Nat) (first? : Option BindError) (b : Books Instance),
    b.guest.Later (releaseNewest count first? b).2.guest
  | 0, none, b => .refl _
  | 0, some _, b => .refl _
  | count + 1, first?, b => by
    rw [releaseNewest]
    split
    · exact releaseNewest_later count first? b
    · rename_i x _ _
      have hfirst := refreshRelease_later x b
      split <;> rename_i b₁ heq <;> rw [heq] at hfirst
      · exact hfirst.trans (releaseNewest_later count first? _)
      · exact hfirst.trans (releaseNewest_later count _ ⟨b₁.ledger.drop x.id, b₁.guest⟩)

end

/-- Books between calls, whatever the guest: nothing is outstanding. -/
structure Books.Resting (b : Books Instance) : Prop where
  linear : b.guest.store.memory.IsLinear
  ledger : b.ledger.InOrder
  settled : b.ledger.outstanding = []

theorem Books.Resting.ready {b : Books Instance} (h : b.Resting) : b.Ready := by
  refine ⟨h.linear, h.ledger.issued, fun x hx => ?_⟩
  rw [h.settled] at hx
  cases hx

/-- The memory of a guest is within the reach of addresses. -/
theorem Memory.IsGuest.isLinear {m : Memory} (h : m.IsGuest) : m.IsLinear := by
  refine ⟨⟨256, by decide, h.ceiling⟩, h.pages_eq, ?_⟩
  have hsize := h.pages_eq
  have hbounds := h.bounds
  unfold Memory.allows
  rw [h.ceiling, decide_eq_true_eq]
  unfold heapCapacity pageSize at *
  omega

theorem Books.AtRest.resting {m : GuestModule} {heap live : UInt32} {b : Books Instance}
    (h : b.AtRest m heap live) : b.Resting := ⟨h.memory.isLinear, h.ledger, h.settled⟩

/-- Other uses of the guest leave the ledger alone. -/
theorem Books.Resting.later {l : Ledger} {guest guest' : Instance} (h : (⟨l, guest⟩ : Books Instance).Resting)
    (hlater : guest.Later guest') : (⟨l, guest'⟩ : Books Instance).Resting :=
  ⟨h.linear.grown hlater.memory, h.ledger, h.settled⟩

/-- Giving everything back only grows the memory, and leaves nothing out. -/
theorem releaseAll_resting {b : Books Instance} (h : b.Ready) :
    b.guest.Later (releaseAll b).2.guest ∧ (releaseAll b).2.Resting := by
  have hlater := releaseNewest_later b.ledger.outstanding.length none b
  have hsettled : (releaseNewest b.ledger.outstanding.length none b).2.ledger.outstanding = [] :=
    outstanding_releaseNewest h.owned (Nat.le_refl _)
  exact ⟨hlater, h.linear.grown hlater.memory, .close hsettled, hsettled⟩

/-- **A call of any guest** only grows the memory, and leaves nothing out. -/
theorem Plan.call_resting {b : Books Instance} {p : Plan} (style : AccessStyle) {m : GuestModule}
    {f : ExportedFunction} (h : b.Resting) (hp : p.Reaches m f) (hm : b.guest.module = m)
    (arguments : List Argument) :
    b.guest.Later (p.call style arguments b).2.2.guest ∧ (p.call style arguments b).2.2.Resting := by
  rcases hcheck : p.check arguments with e | u
  · rw [p.call_refused style b hcheck]
    exact ⟨.refl _, h⟩
  obtain ⟨result, arguments', b₁, hperform, later, -⟩ := perform_course style h.ready hp hm hcheck
  obtain ⟨hlater, hresting⟩ := releaseAll_resting (h.ready.later later)
  obtain ⟨result', hcall, -⟩ := call_of_perform hcheck hperform
  rw [hcall]
  exact ⟨later.guest.trans hlater, hresting⟩

namespace Binding

/-- **The bindings of a module that a host can come by.** An instance was made, and perhaps used, before its
exports were planned; since then they were called, and the instance may have been put to other uses. -/
inductive Serves (m : GuestModule) : Binding → Prop
  | bound {name : String} {bytes : List UInt8} {c c' : Config} {i i' : Instance} {d : Binding}
    (loaded : GuestModule.ofBytes name bytes = .ok m) (made : Instance.ofModule m c = .ok i)
    (used : i.Later i') (planned : ofInstance i' c' = .ok d) : Serves m d
  | used {style : AccessStyle} {plans : List (String × Plan)} {l : Ledger} {guest guest' : Instance}
    (before : Serves m ⟨style, plans, ⟨l, guest⟩⟩) (later : guest.Later guest') :
    Serves m ⟨style, plans, ⟨l, guest'⟩⟩
  | called {d : Binding} (before : Serves m d) (name : String) (arguments : List Argument) :
    Serves m (d.call name arguments).2.2

/-- A binding whose plans fit the module of its instance, and that is between calls. -/
structure Fit (m : GuestModule) (d : Binding) : Prop where
  sound : m.Sound
  program : ∃ module : Wasm.Module, module.program? = some m.program
  imports : m.program.imports = []
  planned : ∃ mark, Plan.ofModule m mark = .ok d.plans
  module : d.books.guest.module = m
  resting : d.books.Resting

variable {m : GuestModule} {d : Binding}

/-- **A plan of a fit binding reaches its export.** -/
theorem Fit.reaches (h : d.Fit m) {name : String} {p : Plan} (hp : d.plan? name = some p) :
    ∃ f, p.Reaches m f := by
  obtain ⟨mark, hplans⟩ := h.planned
  have hplanned := List.mem_of_find?_eq_some (Binding.find?_of_plan? hp)
  obtain ⟨f, hf, -, hplan⟩ := Plan.plan_export h.sound hplans hplanned
  obtain ⟨hmem, -⟩ := (GuestModule.find?_eq_some h.sound).mp hf
  obtain ⟨e, -, hexported⟩ := (GuestModule.mem_exports h.sound).mp hmem
  obtain ⟨-, type, htype, shape, hshape, rfl⟩ := GuestModule.exported?_eq_some.mp hexported
  obtain ⟨module, hmodule⟩ := h.program
  refine ⟨_, hf, (Plan.ofExport_eq_ok hplan).2.1.symm, fun g hg => ?_⟩
  rw [Wasm.functions_typed hmodule h.imports htype hg]
  exact hshape

theorem Fit.called (h : d.Fit m) (name : String) (arguments : List Argument) :
    (d.call name arguments).2.2.Fit m := by
  rcases hplan : d.plan? name with _ | p
  · rw [Binding.call_unplanned hplan]
    exact h
  · obtain ⟨f, hf⟩ := h.reaches hplan
    obtain ⟨later, hresting⟩ := Plan.call_resting d.style h.resting hf h.module arguments
    rw [Binding.call_eq hplan]
    exact ⟨h.sound, h.program, h.imports, h.planned, later.module.trans h.module, hresting⟩

/-- **Every binding in service is fit**: a new one is, and no use of it changes that. -/
theorem Serves.fit (h : d.Serves m) : d.Fit m := by
  induction h with
  | @bound name bytes c c' i i' d loaded made used planned =>
    obtain ⟨hprogram, -, hsound⟩ := GuestModule.sound_of_ofBytes loaded
    obtain ⟨module, -, hmodule⟩ := Option.bind_eq_some_iff.mp hprogram
    unfold Instance.ofModule at made
    split at made
    · cases made
    rename_i store hstore
    obtain ⟨himports, hlinear⟩ := Wasm.freshStore_linear hmodule hstore
    split at made
    swap
    · cases made
    cases made
    unfold ofInstance at planned
    split at planned
    · rename_i plans hplans
      cases planned
      rw [used.module] at hplans
      exact ⟨hsound, ⟨module, hmodule⟩, himports, ⟨_, hplans⟩, used.module,
        hlinear.grown used.memory, inOrder_empty, rfl⟩
    · cases planned
  | used before later ih =>
    exact ⟨ih.sound, ih.program, ih.imports, ih.planned, later.module.trans ih.module,
      ih.resting.later later⟩
  | called before name arguments ih => exact ih.called name arguments

/-- **A binding in service is at rest**, however its calls went, if its guest has a heap. -/
theorem Serves.atRest (h : d.Serves m) {heap live : UInt32}
    (hmemory : d.books.guest.store.memory.IsGuest)
    (hglobals : d.books.guest.store.globals = [.i32 heap, .i32 live]) (habove : heapStart ≤ heap.toNat)
    (hinside : heap.toNat ≤ d.books.guest.memoryLength) : d.books.AtRest m heap live where
  module := h.fit.module
  memory := hmemory
  globals := hglobals
  above := habove
  inside := hinside
  ledger := h.fit.resting.ledger
  settled := h.fit.resting.settled

end Binding

/-! ### What can go wrong -/

/-- The errors that a call with checked arguments can end in, before its buffers are given back: there is no
memory, the export traps on arguments of its types, or its result cannot be decoded. -/
inductive Plan.CallFault (p : Plan) : BindError → Prop
  | memory {e : BindError} (kind : e.kind = .allocation) : CallFault p e
  | trap {raw : List CoreValue} {cause : Wasm.Trap}
    (types : raw.map CoreValue.type = p.signature.coreParams) :
    CallFault p (.trap p.exportName raw (.machine cause))
  | decode {e : BindError} (fault : DecodeFault p.exportName p.signature.ret e) : CallFault p e

theorem Plan.Course.fault {p : Plan} {style : AccessStyle} {arguments arguments' : List Argument}
    {b b' : Books Instance} {e : BindError}
    (h : p.Course style arguments b (.error e) arguments' b') : p.CallFault e := by
  cases h with
  | unpassed step memory => exact .memory memory
  | trapped passes step => exact .trap passes.types
  | undecoded back decode fault => exact .decode fault

/-- **A call is settled by its check.** Whatever guest is bound and however the binding was used before:
either the arguments are refused and nothing happens, or the call takes one of its courses, in which nothing
fails but for want of memory, by a trap, or for what the guest returned. -/
theorem calls_take_their_course {m : GuestModule} {d : Binding} (hd : d.Serves m) {name : String}
    {p : Plan} (hp : d.plan? name = some p) (arguments : List Argument) :
    (∀ e, p.check arguments = .error e → d.call name arguments = (.error e, arguments, d)) ∧
    (p.check arguments = .ok () → ∃ result arguments' b',
      p.perform d.style arguments d.books = (result, arguments', b') ∧
      p.Course d.style arguments d.books result arguments' b' ∧
      ∀ e, result = .error e → p.CallFault e) := by
  have hfit := hd.fit
  obtain ⟨f, hf⟩ := hfit.reaches hp
  refine ⟨fun e he => ?_, fun hcheck => ?_⟩
  · rw [Binding.call_eq hp, Plan.call_refused d.style d.books he]
  · obtain ⟨result, arguments', b', hperform, -, hcourse⟩ :=
      Plan.perform_course d.style hfit.resting.ready hf hfit.module hcheck
    refine ⟨result, arguments', b', hperform, hcourse, fun e he => ?_⟩
    rw [he] at hcourse
    exact hcourse.fault

/-- A sample guest in service, not used yet, with a plan for each of its exports that has a signature. -/
theorem Sample.exists_serving {s : Sample} (hs : s ≠ .mismatched) {e : Signature × Wasm.Body}
    (he : e ∈ s.typed) : ∃ (m : GuestModule) (d : Binding) (p : Plan), d.Serves m ∧
    (∃ draft, s.LoadedAs draft m) ∧ d.books.AtRest m heapStart.toUInt32 0 ∧
    Plan.ofModule m wrappedMark = .ok d.plans ∧ (e.1.name, p) ∈ d.plans ∧
    d.plan? e.1.name = some p ∧ p.signature = e.1 := by
  obtain ⟨bytes, draft, m, i, plans, -, hm, hdraft, hi, hplans, hmodule⟩ :=
    exists_bound hs (c := .default) rfl rfl
  have hbound : Binding.ofInstance i .default = .ok ⟨Config.default.accessStyle, plans, ⟨.empty, i⟩⟩ := by
    unfold Binding.ofInstance
    rw [hplans]
  rw [hmodule] at hplans
  obtain ⟨p, hmem, hfind, hp⟩ := hdraft.exists_plan hplans he
  refine ⟨m, _, p, .bound hm hi (.refl i) hbound, ⟨draft, hdraft⟩, Books.atRest_fresh hdraft.loads hi,
    hplans, hmem, ?_, hp⟩
  unfold Binding.plan?
  dsimp only
  rw [hfind]
  rfl

/-- A sample guest that doubles bytes where they are, in service. -/
theorem doubling_serves : ∃ (m : GuestModule) (d : Binding) (p : Plan), d.Serves m ∧
    d.plan? "product_in_place" = some p ∧
    p.signature = ⟨"product_in_place", [.sliceMut .u8], .unit, .standard⟩ := by
  obtain ⟨m, d, p, hd, -, -, -, -, hp, hsignature⟩ := Sample.exists_serving (s := .sums) nofun
    (e := Sample.Sums.exports[1]) (List.getElem_mem _)
  exact ⟨m, d, p, hd, hp, hsignature⟩

/-- Three bytes that a call may write over. -/
def threeBytes : List Argument := [.inPlace (.ofElements .u8 [1, 2, 3])]

/-- A call of it with three bytes takes its course. -/
theorem doubling_takes_its_course : ∃ (m : GuestModule) (d : Binding) (p : Plan), d.Serves m ∧
    d.plan? "product_in_place" = some p ∧ p.check threeBytes = .ok () ∧
    ∃ result arguments' b', p.perform d.style threeBytes d.books = (result, arguments', b') ∧
      p.Course d.style threeBytes d.books result arguments' b' ∧
      ∀ e, result = .error e → p.CallFault e := by
  obtain ⟨m, d, p, hd, hp, hsignature⟩ := doubling_serves
  have hcheck : p.check threeBytes = .ok () := by
    unfold Plan.check
    rw [hsignature]
    rfl
  exact ⟨m, d, p, hd, hp, hcheck, (calls_take_their_course hd hp _).2 hcheck⟩

end GuestCall
