/-
# Drafts with reserved names

A draft takes a function under any name that is neither empty nor taken, while a host leaves every export
alone whose full name starts like those of the allocator. So a draft whose functions all have signatures is
bound, with one plan for each function under its signature, unless one of the names starts with the word that
the names of the allocator start with behind the mark. Then the signature of that function has no wrapped
export, and the host refuses the whole module because of it.

Key definitions: `Draft.Step.IsTyped` and `Signature.isReserved`.
Key theorems: `Draft.after_typed`, `Draft.Typed.planned`, `Draft.typed_draft_bound`.
-/
import GuestCall.Proofs.Draft.Steps

namespace GuestCall

/-- A signature whose name starts like those of the allocator, behind the mark. -/
def Signature.isReserved (s : Signature) : Bool := "builtin_".toList.isPrefixOf s.name.toList

/-- The host takes an export with such a name for a part of the allocator. -/
theorem Signature.isReserved_eq (s : Signature) :
    s.isReserved = (unmarked? builtinMark (wrappedMark ++ s.name)).isSome := by
  have hmark : builtinMark.toList = wrappedMark.toList ++ "builtin_".toList := by decide
  have hstarts : builtinMark.toList.isPrefixOf (wrappedMark ++ s.name).toList = s.isReserved := by
    rw [Bool.eq_iff_iff, isReserved, List.isPrefixOf_iff_prefix, List.isPrefixOf_iff_prefix, hmark,
      String.toList_append, List.prefix_append_right_inj]
  unfold unmarked?
  rw [hstarts]
  cases s.isReserved <;> rfl

namespace Draft

open Wasm

/-- A step that adds a function with its signature, or static data. -/
def Step.IsTyped : Step → Prop
  | .typed _ _ | .intern _ => True
  | .tableSection _ | .untyped _ _ _ | .declare _ => False

variable {d d' : Draft}

/-! ### What typed steps make -/

theorem apply_typed {step : Step} (hstep : step.IsTyped) (h : d.apply step = .ok d') :
    d'.tableSection? = d.tableSection? ∧ (∀ s, step.signature? = some s → s.check = .ok ()) ∧
      step.registration?.map (fun r => (r.name, r.shape)) =
        step.signature?.map fun s => (s.name, s.shape) := by
  cases step with
  | tableSection | untyped | declare => exact hstep.elim
  | intern bytes =>
    cases h
    exact ⟨rfl, fun s hs => (nomatch hs), rfl⟩
  | typed s body =>
    obtain ⟨⟨place, d₁⟩, hadd, rfl⟩ := eq_ok_of_map h
    refine ⟨by rw [addTyped_eq_ok hadd], fun s' hs' => ?_, rfl⟩
    cases hs'
    unfold addTyped at hadd
    split at hadd
    · cases hadd
    · assumption

/-- Typed steps leave the section alone, their signatures obey the rules, and their functions have the types
that the signatures lower to. -/
theorem after_typed : ∀ (d : Draft) {steps : List Step}, (∀ step ∈ steps, step.IsTyped) →
    (d.after steps).tableSection? = d.tableSection? ∧ (∀ s ∈ d.signed steps, s.check = .ok ()) ∧
      (d.registered steps).map (fun r => (r.name, r.shape)) =
        (d.signed steps).map fun s => (s.name, s.shape)
  | _, [], _ => ⟨rfl, fun _ hs => (nomatch hs), rfl⟩
  | d, step :: rest, hsteps => by
    have hrest : ∀ step ∈ rest, step.IsTyped := fun s hs => hsteps s (List.mem_cons_of_mem _ hs)
    unfold after registered signed accepted
    rcases hstep : d.apply step with e | d'
    · exact after_typed d hrest
    · obtain ⟨hsection, hcheck, hsame⟩ := apply_typed (hsteps step List.mem_cons_self) hstep
      obtain ⟨hsection', hcheck', hsame'⟩ := after_typed d' hrest
      refine ⟨hsection'.trans hsection, ?_, ?_⟩
      · intro s hs
        obtain ⟨given, hgiven, hsignature⟩ := List.mem_filterMap.mp hs
        rcases List.mem_cons.mp hgiven with rfl | hgiven
        · exact hcheck s hsignature
        · exact hcheck' s (List.mem_filterMap.mpr ⟨given, hgiven, hsignature⟩)
      · rcases hs : step.signature? with _ | s
        · rw [hs, Option.map_none, Option.map_eq_none_iff] at hsame
          dsimp only
          rw [List.filterMap_cons_none hs, List.filterMap_cons_none hsame]
          exact hsame'
        · rw [hs, Option.map_some, Option.map_eq_some_iff] at hsame
          obtain ⟨r, hr, hpair⟩ := hsame
          dsimp only
          rw [List.filterMap_cons_some hs, List.filterMap_cons_some hr, List.map_cons, List.map_cons,
            hpair]
          exact congrArg _ hsame'

/-! ### The module that they make -/

/-- A module with functions and their signatures: what it exports besides the allocator is what its
signatures say. -/
structure Typed (functions : List Registration) (signatures : List Signature) (m : GuestModule) :
    Prop where
  sound : m.Sound
  exports : m.exports.Perm (allocatorExports ++ registeredExports functions)
  same : functions.map (fun r => (r.name, r.shape)) = signatures.map fun s => (s.name, s.shape)
  table : m.table? = some ⟨SignatureTable.currentVersion, signatures⟩
  checked : ∀ s ∈ signatures, s.check = .ok ()

theorem typed_of_finish {steps : List Step} (hsteps : ∀ step ∈ steps, step.IsTyped)
    {bytes : List UInt8} (h : (empty.after steps).finish = .ok bytes) :
    ∃ m, GuestModule.ofBytes metadataSection bytes = .ok m ∧ (empty.after steps).Loads m ∧
      Typed (empty.registered steps) (empty.signed steps) m := by
  obtain ⟨hsection, hcheck, hsame⟩ := empty.after_typed hsteps
  obtain ⟨m, hm, hloads, hexports, htable⟩ := loads_after h metadataSection
  obtain ⟨-, hsound⟩ := hloads.image
  rw [if_pos (by rw [hsection]; rfl)] at htable
  exact ⟨m, hm, hloads, hsound, hexports, hsame, htable, hcheck⟩

namespace Typed

variable {functions : List Registration} {signatures : List Signature} {m : GuestModule}

/-- The signatures have distinct names. -/
theorem nodup (h : Typed functions signatures m) : (signatures.map (·.name)).Nodup := by
  have hnames : (registeredExports functions).map (·.name) =
      (signatures.map (·.name)).map (wrappedMark ++ ·) := by
    have hfunctions : functions.map (·.name) = signatures.map (·.name) := by
      have hfst := congrArg (List.map Prod.fst) h.same
      rw [List.map_map, List.map_map] at hfst
      exact hfst
    rw [← hfunctions, List.map_map]
    unfold registeredExports
    rw [List.map_map]
    have hzip := congrArg (List.map fun r : Registration => wrappedMark ++ r.name)
      (List.zipIdx_map_fst builtins.length functions)
    rw [List.map_map] at hzip
    exact hzip
  have hall := (h.exports.map (·.name)).nodup_iff.mp (GuestModule.nodup_names h.sound)
  rw [List.map_append, hnames] at hall
  exact (List.Nodup.of_append_right hall).of_map _

theorem declared? (h : Typed functions signatures m) {s : Signature} (hs : s ∈ signatures) :
    m.declared? s.name = some s := by
  unfold GuestModule.declared? SignatureTable.get?
  rw [h.table]
  exact find?_of_nodup h.nodup hs

/-- A wrapped export belongs to a signature, whose name is not reserved. -/
theorem of_wrapped (h : Typed functions signatures m) {f : ExportedFunction} (hf : f ∈ m.exports)
    {name : String} (hname : Plan.hostName? wrappedMark f = some name) :
    ∃ s ∈ signatures, s.name = name ∧ s.shape = f.shape ∧ s.isReserved = false := by
  obtain ⟨hmarked, hforeign⟩ := Plan.hostName?_eq_some.mp hname
  rcases List.mem_append.mp (h.exports.mem_iff.mp hf) with hf | hf
  · have hbuiltin : ∀ f ∈ allocatorExports, unmarked? builtinMark f.name ≠ none := by decide
    exact absurd hforeign (hbuiltin f hf)
  · obtain ⟨⟨r, place⟩, hr, rfl⟩ := List.mem_map.mp hf
    have hpair : (r.name, r.shape) ∈ functions.map fun r => (r.name, r.shape) :=
      List.mem_map_of_mem (List.fst_mem_of_mem_zipIdx hr)
    rw [h.same] at hpair
    obtain ⟨s, hs, hpair⟩ := List.mem_map.mp hpair
    obtain ⟨hsname, hshape⟩ := Prod.mk.inj hpair
    refine ⟨s, hs, hsname.trans (append_cancel hmarked), hshape, ?_⟩
    rw [s.isReserved_eq, hsname]
    exact (congrArg Option.isSome hforeign).trans rfl

/-- A signature whose name is not reserved has a wrapped export. -/
theorem exists_wrapped (h : Typed functions signatures m) {s : Signature} (hs : s ∈ signatures)
    (hfree : s.isReserved = false) :
    ∃ f ∈ m.exports, Plan.hostName? wrappedMark f = some s.name := by
  have hpair : (s.name, s.shape) ∈ signatures.map fun s => (s.name, s.shape) :=
    List.mem_map_of_mem hs
  rw [← h.same] at hpair
  obtain ⟨r, hr, hpair⟩ := List.mem_map.mp hpair
  obtain ⟨hname, -⟩ := Prod.mk.inj hpair
  obtain ⟨i, hi⟩ := List.mem_iff_getElem?.mp hr
  refine ⟨r.exported (builtins.length + i), h.exports.mem_iff.mpr (List.mem_append_right _ ?_), ?_⟩
  · refine List.mem_map.mpr ⟨(r, builtins.length + i), ?_, rfl⟩
    rw [List.mk_mem_zipIdx_iff_le_and_getElem?_sub, Nat.add_sub_cancel_left]
    exact ⟨Nat.le_add_right _ _, hi⟩
  · rw [s.isReserved_eq] at hfree
    have hmarked : (r.exported (builtins.length + i)).name = wrappedMark ++ s.name :=
      congrArg (wrappedMark ++ ·) hname
    refine Plan.hostName?_eq_some.mpr ⟨hmarked, ?_⟩
    rw [hmarked]
    exact Option.not_isSome_iff_eq_none.mp (by rw [hfree]; exact Bool.false_ne_true)

/-- The plan of a signature that is declared. -/
def planOf (s : Signature) : String × Plan := (s.name, ⟨s, wrappedMark ++ s.name, .metadata⟩)

theorem eq_planOf (h : Typed functions signatures m) {s : Signature} (hs : s ∈ signatures)
    {f : ExportedFunction} (hname : Plan.hostName? wrappedMark f = some s.name) {p : Plan}
    (hp : Plan.ofExport m f s.name = .ok p) : (s.name, p) = planOf s := by
  obtain ⟨hexport, -, -, ⟨hdeclared, hsource⟩ | ⟨hnone, -⟩⟩ := Plan.of_ofExport hp
  · obtain rfl : s = p.signature := Option.some.inj ((h.declared? hs).symm.trans hdeclared)
    obtain ⟨hmarked, -⟩ := Plan.hostName?_eq_some.mp hname
    unfold planOf
    rw [← hmarked, ← hexport, ← hsource]
  · rw [h.declared? hs] at hnone
    cases hnone

/-- **The plans of the wrapped exports** are those of the signatures whose names are not reserved. -/
theorem planned (h : Typed functions signatures m) :
    ∃ plans, Plan.ofExports m wrappedMark m.exports = .ok plans ∧ (plans.map (·.1)).Nodup ∧
      ∀ q, q ∈ plans ↔ ∃ s ∈ signatures, s.isReserved = false ∧ q = planOf s := by
  have hfits : ∀ f ∈ m.exports, ∀ name, Plan.hostName? wrappedMark f = some name →
      ∃ p, Plan.ofExport m f name = .ok p := by
    intro f hf name hname
    obtain ⟨s, hs, rfl, hshape, -⟩ := h.of_wrapped hf hname
    exact Plan.exists_ofExport (.inl ⟨s, h.declared? hs, h.checked s hs, hshape⟩)
  obtain ⟨plans, hplans⟩ := Plan.exists_ofExports hfits
  refine ⟨plans, hplans, Plan.nodup_ofExports h.sound hplans, fun q => ⟨fun hq => ?_, ?_⟩⟩
  · obtain ⟨f, hf, hname, hp⟩ := Plan.mem_ofExports hplans hq
    obtain ⟨s, hs, hsname, -, hfree⟩ := h.of_wrapped hf hname
    obtain ⟨name, p⟩ := q
    dsimp only at hname hp hsname
    subst hsname
    exact ⟨s, hs, hfree, h.eq_planOf hs hname hp⟩
  · rintro ⟨s, hs, hfree, rfl⟩
    obtain ⟨f, hf, hname⟩ := h.exists_wrapped hs hfree
    obtain ⟨p, hmem, hp⟩ := Plan.mem_of_ofExports hplans hf hname
    rw [← h.eq_planOf hs hname hp]
    exact hmem

/-- The first signature without a plan is the first one whose name is reserved. -/
theorem orphan?_eq (h : Typed functions signatures m) {plans : List (String × Plan)}
    (hplans : ∀ q, q ∈ plans ↔ ∃ s ∈ signatures, s.isReserved = false ∧ q = planOf s) :
    Plan.orphan? m plans = signatures.find? Signature.isReserved := by
  have hreserved : ∀ s ∈ signatures, (!plans.any fun p => p.1 == s.name) = s.isReserved := by
    intro s hs
    rw [Bool.eq_iff_iff, Bool.not_eq_true', List.any_eq_false]
    constructor
    · intro hnone
      by_contra hfree
      have hmem := (hplans (planOf s)).mpr ⟨s, hs, Bool.eq_false_iff.mpr hfree, rfl⟩
      exact hnone _ hmem (beq_self_eq_true s.name)
    · intro hs' q hq hname
      obtain ⟨t, ht, hfree, rfl⟩ := (hplans q).mp hq
      have hsame : t.isReserved = s.isReserved := by
        unfold Signature.isReserved
        rw [show t.name = s.name from eq_of_beq hname]
      rw [← hsame, hfree] at hs'
      cases hs'
  unfold Plan.orphan?
  rw [h.table]
  dsimp only
  rw [← List.head?_filter, ← List.head?_filter, List.filter_congr hreserved]

/-- A module with a reserved name cannot be planned, because of the first signature that has one. -/
theorem refused (h : Typed functions signatures m) {s : Signature}
    (hfind : signatures.find? Signature.isReserved = some s) : Plan.ofModule m wrappedMark =
      .error (.invalidSignature (wrappedMark ++ s.name) .notExported) := by
  obtain ⟨plans, hplans, -, hmem⟩ := h.planned
  have horphan := (h.orphan?_eq hmem).trans hfind
  simp only [Plan.ofModule, hplans, horphan]

/-- A module without reserved names can be planned, with the plan of each signature. -/
theorem accepted (h : Typed functions signatures m)
    (hfind : signatures.find? Signature.isReserved = none) :
    ∃ plans, Plan.ofModule m wrappedMark = .ok plans ∧ plans.Perm (signatures.map planOf) := by
  obtain ⟨plans, hplans, hnodup, hmem⟩ := h.planned
  have horphan := (h.orphan?_eq hmem).trans hfind
  refine ⟨plans, Plan.ofModule_eq_ok.mpr ⟨hplans, Plan.orphan?_eq_none.mp horphan⟩, ?_⟩
  have hnodup' : (signatures.map planOf).Nodup := by
    refine List.Nodup.of_map (·.1) ?_
    rw [List.map_map]
    exact h.nodup
  refine (List.perm_ext_iff_of_nodup (hnodup.of_map _) hnodup').mpr fun q => ?_
  rw [hmem, List.mem_map]
  constructor
  · rintro ⟨s, hs, -, rfl⟩
    exact ⟨s, hs, rfl⟩
  · rintro ⟨s, hs, rfl⟩
    exact ⟨s, hs, Bool.eq_false_iff.mpr (List.find?_eq_none.mp hfind s hs), rfl⟩

end Typed

/-- **A draft whose functions all have signatures is bound**, with just one plan for each of them, unless the
name of one is reserved; then the host refuses the module because of the first such signature, which it says
is not exported. -/
theorem typed_draft_bound {steps : List Step} (hsteps : ∀ step ∈ steps, step.IsTyped)
    {bytes : List UInt8} (h : (empty.after steps).finish = .ok bytes) {host : Host}
    (hhost : Host.ofConfig .default = .ok host) :
    match (empty.signed steps).find? Signature.isReserved with
    | some s =>
      (host.bind bytes).1 = .error (.invalidSignature (wrappedMark ++ s.name) .notExported)
    | none => ∃ bound, (host.bind bytes).1 = .ok bound ∧ bound.plans.Perm
      ((empty.signed steps).map fun s => (s.name, ⟨s, wrappedMark ++ s.name, .metadata⟩)) := by
  obtain ⟨m, hm, hloads, htyped⟩ := typed_of_finish hsteps h
  obtain ⟨i, memory, hi, hat, -⟩ := hloads.instantiates .default
  have hbind : (host.bind bytes).1 = Binding.ofInstance i .default := by
    rw [Host.bind_fresh hhost]
    simp only [Config.default, hm] at hi ⊢
    rw [hi]
  have hmark : Config.default.exportMark = wrappedMark := rfl
  rw [hbind]
  unfold Binding.ofInstance
  rw [hat.module, hmark]
  rcases hfind : (empty.signed steps).find? Signature.isReserved with _ | s
  · obtain ⟨plans, hplans, hperm⟩ := htyped.accepted hfind
    simp only [hplans]
    exact ⟨_, rfl, hperm⟩
  · simp only [htyped.refused hfind]

/-- A function under a reserved name. -/
def reservedSteps : List Step := [.typed ⟨"builtin_x", [], .unit, .standard⟩ (.ofCode [] [])]

/-- The draft takes that function, and a host refuses the finished module. -/
theorem reserved_draft_refused : ∃ bytes host, (empty.after reservedSteps).finish = .ok bytes ∧
    Host.ofConfig .default = .ok host ∧
    (host.bind bytes).1 = .error (.invalidSignature (wrappedMark ++ "builtin_x") .notExported) := by
  have hok : (empty.after reservedSteps).finish.isOk = true := by
    set_option maxRecDepth 100000 in decide +kernel
  have htyped : ∀ step ∈ reservedSteps, step.IsTyped := by
    intro step hstep
    rw [List.mem_singleton.mp hstep]
    trivial
  have hfind : (empty.signed reservedSteps).find? Signature.isReserved =
      some ⟨"builtin_x", [], .unit, .standard⟩ := by decide
  rcases hfinish : (empty.after reservedSteps).finish with e | bytes
  · rw [hfinish] at hok
    cases hok
  · have hhost : Host.ofConfig .default = .ok ⟨.default, 0, []⟩ := rfl
    have hbind := typed_draft_bound htyped hfinish hhost
    rw [hfind] at hbind
    exact ⟨bytes, _, rfl, hhost, hbind⟩

end Draft

end GuestCall
