/-
# Which modules a host binds

A host plans the wrapped exports of a module, which are those that it can call and whose names start with
the mark, unless they serve the host itself. It refuses the module if the machine types of a wrapped export
do not fit the signature that the module declares for it, if they stand for none where none is declared, or
if a signature is declared that no wrapped export has; and it refuses no other module. All of this is about
the exports of the program, in no order, while the host goes through them by name and then through the table.

Key definitions: `GuestModule.Wraps`, `GuestModule.Fits`, `GuestModule.Consistent`, and `Plan.Suits`, what
the plan of a wrapped export has to be.
Key theorems: `GuestModule.wraps_iff`, `Plan.exists_ofExport_iff`, `Binding.ofInstance_decides`.
-/
import GuestCall.Proofs.Call.Cleanup
import GuestCall.Proofs.Draft.Steps

namespace GuestCall

/-! ### Names -/

theorem unmarked?_eq_none {mark name : String} :
    unmarked? mark name = none ↔ ¬ mark.toList <+: name.toList := by
  unfold unmarked?
  rw [← List.isPrefixOf_iff_prefix]
  by_cases h : mark.toList.isPrefixOf name.toList = true
  · rw [if_pos h]
    exact ⟨fun hnone => (nomatch hnone), fun hnot => absurd h hnot⟩
  · rw [if_neg h]
    exact ⟨fun _ => h, fun _ => rfl⟩

/-! ### Consistent modules -/

namespace GuestModule

/-- A wrapped export: a function between numbers that is exported under the mark and a name, and not under
one of the names that serve the host itself. -/
def Wraps (m : GuestModule) (mark name : String) (shape : ExportShape) : Prop :=
  ∃ index type, ⟨mark ++ name, .function, index⟩ ∈ m.program.exports ∧
    m.program.signatures[index]? = some type ∧ ExportShape.ofType? type = some shape ∧
    ¬ builtinMark.toList <+: (mark ++ name).toList

/-- Machine types fit what a module declares under a name: the first signature of that name obeys the rules
and lowers to them. Where none is declared, they stand for a signature. -/
def Fits (m : GuestModule) (name : String) (shape : ExportShape) : Prop :=
  match m.declared? name with
  | some s => s.check = .ok () ∧ s.shape = shape
  | none => name ≠ "" ∧ shape.results.length ≤ 1

/-- A module whose wrapped exports and signatures belong together. -/
structure Consistent (m : GuestModule) (mark : String) : Prop where
  fits : ∀ name shape, m.Wraps mark name shape → m.Fits name shape
  wrapped : ∀ table, m.table? = some table → ∀ s ∈ table.exports, ∃ shape, m.Wraps mark s.name shape

variable {m : GuestModule} {mark name : String} {shape : ExportShape}

/-- The wrapped exports are those for which the host has a name. -/
theorem wraps_iff (hm : m.Sound) : m.Wraps mark name shape ↔
    ∃ f ∈ m.exports, Plan.hostName? mark f = some name ∧ f.shape = shape := by
  constructor
  · rintro ⟨index, type, he, htype, hshape, hforeign⟩
    refine ⟨⟨mark ++ name, shape, index⟩, ?_, ?_, rfl⟩
    · have hexported : exported? m.program ⟨mark ++ name, .function, index⟩ =
          some ⟨mark ++ name, shape, index⟩ :=
        exported?_eq_some.mpr ⟨rfl, type, htype, shape, hshape, rfl⟩
      exact (mem_exports hm).mpr ⟨_, he, hexported⟩
    · exact Plan.hostName?_eq_some.mpr ⟨rfl, unmarked?_eq_none.mpr hforeign⟩
  · rintro ⟨f, hf, hname, rfl⟩
    obtain ⟨⟨ename, kind, index⟩, he, hexported⟩ := (mem_exports hm).mp hf
    obtain ⟨hkind, type, htype, shape, hshape, rfl⟩ := exported?_eq_some.mp hexported
    obtain ⟨hmarked, hforeign⟩ := Plan.hostName?_eq_some.mp hname
    dsimp only at hkind hmarked hforeign
    subst hkind hmarked
    exact ⟨index, type, he, htype, hshape, unmarked?_eq_none.mp hforeign⟩

end GuestModule

/-! ### Plans -/

namespace Plan

/-- Machine types stand for a signature only if there is at most one result. -/
theorem length_of_ofShape {exportName name : String} {shape : ExportShape} {s : Signature}
    (h : Signature.ofShape exportName name shape = .ok s) :
    s.name = name ∧ shape.results.length ≤ 1 := by
  obtain ⟨params, results⟩ := shape
  rcases results with _ | ⟨type, _ | ⟨other, rest⟩⟩
  · cases h
    exact ⟨rfl, by simp⟩
  · cases h
    exact ⟨rfl, by simp⟩
  · cases h

theorem name_of_check {s : Signature} (h : s.check = .ok ()) : s.name ≠ "" := by
  intro hname
  unfold Signature.check Signature.fault? at h
  rw [if_pos hname] at h
  cases h

/-- **An export has a plan just if its machine types fit.** -/
theorem exists_ofExport_iff {m : GuestModule} {f : ExportedFunction} {name : String} :
    (∃ p, ofExport m f name = .ok p) ↔ m.Fits name f.shape := by
  unfold GuestModule.Fits
  constructor
  · rintro ⟨p, hp⟩
    obtain ⟨-, hshape, hcheck, ⟨hs, -⟩ | ⟨hnone, hs, -⟩⟩ := of_ofExport hp
    · rw [hs]
      exact ⟨hcheck, hshape⟩
    · rw [hnone]
      obtain ⟨hname, hresults⟩ := length_of_ofShape hs
      exact ⟨hname ▸ name_of_check hcheck, hresults⟩
  · intro hfits
    rcases hdeclared : m.declared? name with _ | s
    · rw [hdeclared] at hfits
      exact exists_ofExport (.inr ⟨hdeclared, hfits⟩)
    · rw [hdeclared] at hfits
      exact exists_ofExport (.inl ⟨s, hdeclared, hfits⟩)

/-- The slots are the places of just those parameters, in order. -/
theorem slots_sorted (p : Plan) (holds : ParamKind → Bool) : (p.slots holds).Pairwise (· < ·) ∧
    ∀ i, i ∈ p.slots holds ↔ ∃ param, p.signature.params[i]? = some param ∧ holds param = true := by
  have hplaces : ∀ (params : List ParamKind) (first : Nat),
      ((params.zipIdx first).map fun param => param.2).Pairwise (· < ·) := by
    intro params first
    rw [List.zipIdx_map_snd]
    exact List.pairwise_lt_range' 
  constructor
  · unfold slots
    exact (hplaces p.signature.params 0).sublist (List.filter_sublist.map _)
  · intro i
    simp only [slots, List.mem_map, List.mem_filter, Prod.exists, exists_eq_right,
      List.mk_mem_zipIdx_iff_getElem?]

/-- What the plan of a wrapped export has to be. -/
structure Suits (p : Plan) (m : GuestModule) (mark name : String) : Prop where
  exportName : p.exportName = mark ++ name
  /-- The signature lowers to the machine types that the export has. -/
  wraps : m.Wraps mark name p.signature.shape
  source : p.source = .metadata ↔ ∃ s, m.declared? name = some s
  declared : ∀ s, m.declared? name = some s → p.signature = s
  derived : m.declared? name = none →
    Signature.ofShape p.exportName name p.signature.shape = .ok p.signature
  bufferSlots : p.bufferSlots.Pairwise (· < ·) ∧ ∀ i, i ∈ p.bufferSlots ↔
    ∃ param, p.signature.params[i]? = some param ∧ param.needsAllocation = true
  inPlaceSlots : p.inPlaceSlots.Pairwise (· < ·) ∧ ∀ i, i ∈ p.inPlaceSlots ↔
    ∃ kind, p.signature.params[i]? = some (.sliceMut kind)

theorem inPlaceSlots_sorted (p : Plan) : p.inPlaceSlots.Pairwise (· < ·) ∧
    ∀ i, i ∈ p.inPlaceSlots ↔ ∃ kind, p.signature.params[i]? = some (.sliceMut kind) := by
  obtain ⟨hsorted, hmem⟩ := p.slots_sorted ParamKind.isInPlace
  refine ⟨hsorted, fun i => (hmem i).trans ⟨?_, ?_⟩⟩
  · rintro ⟨param, hparam, hinPlace⟩
    cases param with
    | sliceMut kind => exact ⟨kind, hparam⟩
    | scalar | slice | vec | str => cases hinPlace
  · rintro ⟨kind, hparam⟩
    exact ⟨_, hparam, rfl⟩

variable {m : GuestModule} {mark name : String} {plans : List (String × Plan)} {p : Plan}

/-- **The plans of a module** are suitable. -/
theorem suits_of_mem (hm : m.Sound) (h : ofModule m mark = .ok plans) (hp : (name, p) ∈ plans) :
    p.Suits m mark name := by
  obtain ⟨f, hf, hname, hplan⟩ := mem_ofExports (ofModule_eq_ok.mp h).1 hp
  obtain ⟨hexport, hshape, -, hsignature⟩ := of_ofExport hplan
  obtain ⟨hmarked, -⟩ := hostName?_eq_some.mp hname
  have hwraps : m.Wraps mark name p.signature.shape :=
    (GuestModule.wraps_iff hm).mpr ⟨f, hf, hname, hshape.symm⟩
  have hbuffers := p.slots_sorted ParamKind.needsAllocation
  rcases hsignature with ⟨hs, hsource⟩ | ⟨hnone, hs, hsource⟩
  · refine ⟨hexport.trans hmarked, hwraps, ?_, ?_, ?_, hbuffers, p.inPlaceSlots_sorted⟩
    · exact ⟨fun _ => ⟨_, hs⟩, fun _ => hsource⟩
    · exact fun s hs' => Option.some.inj (hs.symm.trans hs')
    · exact fun hnone => nomatch hs.symm.trans hnone
  · refine ⟨hexport.trans hmarked, hwraps, ?_, ?_, ?_, hbuffers, p.inPlaceSlots_sorted⟩
    · rw [hsource, hnone]
      exact ⟨fun h => (nomatch h), fun ⟨_, h⟩ => (nomatch h)⟩
    · exact fun s hs' => nomatch hnone.symm.trans hs'
    · intro _
      rw [hexport, hshape]
      exact hs

/-- **A module can be planned just if it is consistent.** -/
theorem exists_ofModule_iff (hm : m.Sound) :
    (∃ plans, ofModule m mark = .ok plans) ↔ m.Consistent mark := by
  constructor
  · rintro ⟨plans, hplans⟩
    constructor
    · intro name shape hwraps
      obtain ⟨f, hf, hname, rfl⟩ := (GuestModule.wraps_iff hm).mp hwraps
      obtain ⟨p, -, hp⟩ := mem_of_ofModule hplans hf hname
      exact exists_ofExport_iff.mp ⟨p, hp⟩
    · intro table htable s hs
      obtain ⟨hall, hentries⟩ := ofModule_eq_ok.mp hplans
      have hentry := hentries table htable s hs
      rw [names_ofExports hall] at hentry
      obtain ⟨f, hf, hname⟩ := List.mem_filterMap.mp hentry
      exact ⟨f.shape, (GuestModule.wraps_iff hm).mpr ⟨f, hf, hname, rfl⟩⟩
  · intro hconsistent
    refine exists_ofModule (fun f hf name hname => ?_) fun table htable s hs => ?_
    · have hwraps := (GuestModule.wraps_iff hm).mpr ⟨f, hf, hname, rfl⟩
      exact exists_ofExport_iff.mpr (hconsistent.fits name f.shape hwraps)
    · obtain ⟨shape, hwraps⟩ := hconsistent.wrapped table htable s hs
      obtain ⟨f, hf, hname, -⟩ := (GuestModule.wraps_iff hm).mp hwraps
      exact ⟨f, hf, hname⟩

/-- **Why a module cannot be planned**: the error is about the signature of a wrapped export that does not
fit, or about one that no wrapped export has. -/
theorem ofModule_eq_error (hm : m.Sound) {e : BindError} (h : ofModule m mark = .error e) :
    ∃ name reason, e = .invalidSignature (mark ++ name) reason ∧
      ((∃ shape, m.Wraps mark name shape ∧ ¬ m.Fits name shape) ∨
        (∃ table, m.table? = some table ∧ ∃ s ∈ table.exports, s.name = name) ∧
          ¬ ∃ shape, m.Wraps mark name shape) := by
  unfold ofModule at h
  split at h
  · rename_i hall
    cases h
    obtain ⟨f, hf, name, hname, hplan⟩ := ofExports_eq_error hall
    obtain ⟨reason, rfl⟩ := ofExport_eq_error hplan
    obtain ⟨hmarked, -⟩ := hostName?_eq_some.mp hname
    refine ⟨name, reason, by rw [hmarked], .inl ⟨f.shape, ?_, fun hfits => ?_⟩⟩
    · exact (GuestModule.wraps_iff hm).mpr ⟨f, hf, hname, rfl⟩
    · obtain ⟨p, hp⟩ := exists_ofExport_iff.mpr hfits
      cases hplan.symm.trans hp
  · rename_i plans hall
    split at h
    · rename_i s horphan
      cases h
      unfold orphan? at horphan
      split at horphan
      · rename_i table htable
        have hs := List.mem_of_find?_eq_some horphan
        have hunplanned := List.find?_some (p := fun s : Signature =>
          !plans.any fun p => p.1 == s.name) horphan
        refine ⟨s.name, _, rfl, .inr ⟨⟨table, htable, s, hs, rfl⟩, ?_⟩⟩
        rintro ⟨shape, hwraps⟩
        obtain ⟨f, hf, hname, -⟩ := (GuestModule.wraps_iff hm).mp hwraps
        obtain ⟨p, hp, -⟩ := mem_of_ofExports hall hf hname
        have hany : plans.any (fun p => p.1 == s.name) = true :=
          List.any_eq_true.mpr ⟨_, hp, beq_self_eq_true _⟩
        rw [hany] at hunplanned
        cases hunplanned
      · cases horphan
    · cases h

end Plan

/-- **A host binds just the consistent modules**, whatever the mark is and in whatever state the instance
is. The plans are those of the wrapped exports, one each, and each of them is as it has to be. What is
refused is refused because of a signature, and the error names it. -/
theorem Binding.ofInstance_decides {name : String} {bytes : List UInt8} {i : Instance}
    (hm : GuestModule.ofBytes name bytes = .ok i.module) (c : Config) :
    ((∃ bound, ofInstance i c = .ok bound) ↔ i.module.Consistent c.exportMark) ∧
    (∀ bound, ofInstance i c = .ok bound → (bound.plans.map (·.1)).Nodup ∧
      (∀ name, name ∈ bound.plans.map (·.1) ↔ ∃ shape, i.module.Wraps c.exportMark name shape) ∧
      ∀ name p, (name, p) ∈ bound.plans → p.Suits i.module c.exportMark name) ∧
    ∀ e, ofInstance i c = .error e →
      ∃ name reason, e = .invalidSignature (c.exportMark ++ name) reason ∧
        ((∃ shape, i.module.Wraps c.exportMark name shape ∧ ¬ i.module.Fits name shape) ∨
          (∃ table, i.module.table? = some table ∧ ∃ s ∈ table.exports, s.name = name) ∧
            ¬ ∃ shape, i.module.Wraps c.exportMark name shape) := by
  obtain ⟨-, -, hsound⟩ := GuestModule.sound_of_ofBytes hm
  have hiff : (∃ plans, Plan.ofModule i.module c.exportMark = .ok plans) ↔ _ :=
    Plan.exists_ofModule_iff hsound
  unfold ofInstance
  rcases hplans : Plan.ofModule i.module c.exportMark with e | plans
  · rw [hplans] at hiff
    refine ⟨⟨fun ⟨_, h⟩ => (nomatch h), fun h => ?_⟩, fun _ h => (nomatch h), fun e' he => ?_⟩
    · obtain ⟨_, h⟩ := hiff.mpr h
      cases h
    · cases he
      exact Plan.ofModule_eq_error hsound hplans
  · refine ⟨⟨fun _ => hiff.mp ⟨plans, hplans⟩, fun _ => ⟨_, rfl⟩⟩, fun bound hbound => ?_,
      fun _ h => (nomatch h)⟩
    cases hbound
    obtain ⟨hall, -⟩ := Plan.ofModule_eq_ok.mp hplans
    refine ⟨Plan.nodup_ofExports hsound hall, fun name => ?_, fun name p hp =>
      Plan.suits_of_mem hsound hplans hp⟩
    rw [Plan.names_ofExports hall, List.mem_filterMap]
    constructor
    · rintro ⟨f, hf, hname⟩
      exact ⟨f.shape, (GuestModule.wraps_iff hsound).mpr ⟨f, hf, hname, rfl⟩⟩
    · rintro ⟨shape, hwraps⟩
      obtain ⟨f, hf, hname, -⟩ := (GuestModule.wraps_iff hsound).mp hwraps
      exact ⟨f, hf, hname⟩

/-- A module with one wrapped export and without signatures is bound, and the export has its plan. -/
theorem first_is_planned : ∃ (i : Instance) (bound : Binding), firstDraft.Loads i.module ∧
    Binding.ofInstance i .default = .ok bound ∧
    ∃ p, ("first", p) ∈ bound.plans ∧ p.Suits i.module wrappedMark "first" := by
  obtain ⟨m, hd⟩ := loads_firstDraft
  obtain ⟨i, memory, hi, hat, -⟩ := hd.instantiates .default
  rw [← hat.module] at hd
  obtain ⟨himage, hsound⟩ := hd.image
  obtain ⟨name, bytes, -, hm⟩ := hd.loaded
  obtain ⟨-, htable, -⟩ := GuestModule.sound_of_ofBytes hm
  have htable : i.module.table? = none := by
    rw [himage.tableOf rfl] at htable
    exact (Except.ok.inj htable).symm
  have hconsistent : i.module.Consistent wrappedMark := by
    constructor
    · intro name shape hwraps
      obtain ⟨f, hf, hname, rfl⟩ := (GuestModule.wraps_iff hsound).mp hwraps
      obtain ⟨type, body, hfunction, htype⟩ := hd.wrapped hf hname
      have hmem := List.mem_of_getElem? hfunction
      simp only [firstDraft, Draft.builtins, List.cons_append, List.nil_append, List.mem_cons,
        DraftFunction.mk.injEq, reduceCtorEq, false_and, and_false, false_or, List.not_mem_nil,
        or_false, Visibility.wrapped.injEq] at hmem
      obtain ⟨rfl, rfl, -⟩ := hmem
      have hresults := Draft.length_results htype
      unfold GuestModule.Fits GuestModule.declared?
      rw [htable]
      exact ⟨by decide, hresults.symm.le⟩
    · intro table h
      cases htable.symm.trans h
  obtain ⟨haccepts, hplans, -⟩ := Binding.ofInstance_decides hm .default
  obtain ⟨bound, hbound⟩ := haccepts.mpr hconsistent
  obtain ⟨-, hnames, hsuits⟩ := hplans bound hbound
  have hwraps : ∃ shape, i.module.Wraps wrappedMark "first" shape := by
    obtain ⟨f, hf, hname, -⟩ := hd.exported (i := 4) rfl rfl (by decide)
    exact ⟨f.shape, (GuestModule.wraps_iff hsound).mpr ⟨f, hf, hname, rfl⟩⟩
  obtain ⟨⟨name, p⟩, hp, rfl⟩ := List.mem_map.mp ((hnames "first").mpr hwraps)
  exact ⟨i, bound, hd, hbound, p, hp, hsuits _ p hp⟩

end GuestCall
