/-
# Which of its declared signatures a bound module is held to

A host looks a signature up by the name of an export, and takes the first of that name. When it looks for
signatures that nothing belongs to, it compares names only. So a bound module is held to the first
signature of each name, and a first one that is wrong makes the host refuse the module. Whatever stands
behind it under the same name is never read, be it right or wrong, and a draft lets such entries pass.

Key definitions: `Binding.Heeds`, `SignatureTable.leading`, the first signatures of the names.
Key theorems: `Plan.ofModule_leading`, `Binding.heeds_iff`, `Binding.ofInstance_heeds_leading`.
-/
import GuestCall.Proofs.Call.Planning

namespace GuestCall

/-! ### The first signatures of the names -/

namespace SignatureTable

/-- The table without the entries that stand behind another one of the same name. -/
def leading (t : SignatureTable) : SignatureTable :=
  { t with exports := t.exports.filter fun s => t.get? s.name = some s }

variable {t : SignatureTable} {s : Signature}

theorem of_get? {name : String} (h : t.get? name = some s) : s ∈ t.exports ∧ s.name = name :=
  ⟨List.mem_of_find?_eq_some h,
    eq_of_beq (List.find?_some (p := fun s : Signature => s.name == name) h)⟩

theorem exists_get? (h : s ∈ t.exports) : ∃ first, t.get? s.name = some first := by
  refine Option.isSome_iff_exists.mp ?_
  unfold get?
  rw [List.find?_isSome]
  exact ⟨s, h, beq_self_eq_true _⟩

/-- **A search by name finds the same in the leading entries**: what it finds first has no entry of its
name before it. -/
theorem find?_leading (t : SignatureTable) (found : String → Bool) :
    t.leading.exports.find? (fun s => found s.name) = t.exports.find? fun s => found s.name := by
  unfold leading
  rw [List.find?_filter]
  rcases hfind : t.exports.find? (fun s => found s.name) with _ | s
  · have hnone := List.find?_eq_none.mp hfind
    rw [hfind, List.find?_eq_none]
    intro s hs h
    exact hnone s hs (decide_eq_true_eq.mp h).2
  · obtain ⟨hs, before, behind, hsplit, hbefore⟩ := List.find?_eq_some_iff_append.mp hfind
    have hunfound : ∀ a ∈ before, found a.name = false := fun a ha => by simpa using hbefore a ha
    have hleads : t.get? s.name = some s := by
      refine List.find?_eq_some_iff_append.mpr ⟨beq_self_eq_true _, before, behind, hsplit, ?_⟩
      intro a ha
      have hne : a.name ≠ s.name := fun hname => by
        rw [← hname, hunfound a ha] at hs
        cases hs
      rw [beq_false_of_ne hne]
      rfl
    rw [hfind]
    refine List.find?_eq_some_iff_append.mpr ⟨?_, before, behind, hsplit, fun a ha => ?_⟩
    · exact decide_eq_true ⟨decide_eq_true hleads, hs⟩
    · simp [hunfound a ha]

/-- The leading entries of all names are all entries just if no name has two different ones. -/
theorem all_lead_iff : (∀ s ∈ t.exports, t.get? s.name = some s) ↔
    ∀ s ∈ t.exports, ∀ other ∈ t.exports, s.name = other.name → s = other := by
  constructor
  · intro h s hs other hother hname
    have hsame := h s hs
    rw [hname, h other hother] at hsame
    exact (Option.some.inj hsame).symm
  · intro h s hs
    obtain ⟨first, hfirst⟩ := exists_get? hs
    obtain ⟨hmem, hname⟩ := of_get? hfirst
    rw [hfirst, h first hmem s hs hname]

end SignatureTable

/-! ### What the host reads of a table -/

namespace Plan

variable {m other : GuestModule} {mark : String}

theorem ofExport_congr (h : m.declared? = other.declared?) (f : ExportedFunction) (name : String) :
    ofExport m f name = ofExport other f name := by
  unfold ofExport
  rw [h]

theorem ofExports_congr (h : m.declared? = other.declared?) : ∀ exports : List ExportedFunction,
    ofExports m mark exports = ofExports other mark exports
  | [] => rfl
  | f :: exports => by
    unfold ofExports
    rw [ofExports_congr h exports]
    simp only [ofExport_congr h]

/-- **The host never reads an entry behind another one of its name.** -/
theorem ofModule_leading (m : GuestModule) (mark : String) :
    ofModule { m with table? := m.table?.map SignatureTable.leading } mark = ofModule m mark := by
  have hdeclared : GuestModule.declared? { m with table? := m.table?.map SignatureTable.leading } =
      m.declared? := by
    funext name
    unfold GuestModule.declared?
    rcases htable : m.table? with _ | table
    · rfl
    · exact table.find?_leading (· == name)
  have horphan : ∀ plans, orphan? { m with table? := m.table?.map SignatureTable.leading } plans =
      orphan? m plans := by
    intro plans
    unfold orphan?
    rcases htable : m.table? with _ | table
    · rfl
    · exact table.find?_leading fun name => !plans.any fun p => p.1 == name
  unfold ofModule
  rw [ofExports_congr hdeclared]
  simp only [horphan]

end Plan

/-! ### What a bound module is held to -/

namespace Binding

/-- A binding holds its module to a signature: the signature obeys the rules, lowers to the machine types
of the wrapped export of its name, and is the one by which the host calls that export. -/
structure Heeds (b : Binding) (mark : String) (s : Signature) : Prop where
  check : s.check = .ok ()
  wraps : b.toInstance.module.Wraps mark s.name s.shape
  planned : ∃ p, (s.name, p) ∈ b.plans ∧ p.exportName = mark ++ s.name ∧ p.signature = s

variable {i : Instance} {c : Config} {bound : Binding} {table : SignatureTable} {s : Signature}

theorem ofInstance_eq_ok : ofInstance i c = .ok bound ↔
    ∃ plans, Plan.ofModule i.module c.exportMark = .ok plans ∧
      bound = ⟨c.accessStyle, plans, ⟨.empty, i⟩⟩ := by
  unfold ofInstance
  constructor
  · intro h
    split at h
    · rename_i plans hplans
      exact ⟨plans, hplans, (Except.ok.inj h).symm⟩
    · cases h
  · rintro ⟨plans, hplans, rfl⟩
    rw [hplans]

theorem ofInstance_eq_error {e : BindError} (h : ofInstance i c = .error e) :
    Plan.ofModule i.module c.exportMark = .error e := by
  unfold ofInstance at h
  split at h
  · cases h
  · rename_i herror
    rw [herror, Except.error.inj h]

/-- **A bound module is held to just the leading signatures.** -/
theorem heeds_iff (hm : i.module.Sound) (hbound : ofInstance i c = .ok bound)
    (htable : i.module.table? = some table) (hs : s ∈ table.exports) :
    bound.Heeds c.exportMark s ↔ table.get? s.name = some s := by
  obtain ⟨plans, hplans, rfl⟩ := ofInstance_eq_ok.mp hbound
  have hdeclared : ∀ name, i.module.declared? name = table.get? name := by
    intro name
    unfold GuestModule.declared?
    rw [htable]
    rfl
  constructor
  · rintro ⟨-, -, p, hp, -, hsignature⟩
    obtain ⟨first, hfirst⟩ := SignatureTable.exists_get? hs
    have hsuits := Plan.suits_of_mem hm hplans hp
    have hsame := hsuits.declared first ((hdeclared _).trans hfirst)
    rw [hfirst, ← hsame, hsignature]
  · intro hfirst
    obtain ⟨hall, hentries⟩ := Plan.ofModule_eq_ok.mp hplans
    obtain ⟨⟨name, p⟩, hp, hname⟩ := List.mem_map.mp (hentries table htable s hs)
    dsimp only at hname
    subst hname
    have hsuits := Plan.suits_of_mem hm hplans hp
    have hsignature := hsuits.declared s ((hdeclared _).trans hfirst)
    obtain ⟨f, -, -, hplan⟩ := Plan.mem_ofExports hall hp
    obtain ⟨-, -, hcheck, -⟩ := Plan.of_ofExport hplan
    rw [hsignature] at hcheck
    have hwraps := hsuits.wraps
    rw [hsignature] at hwraps
    exact ⟨hcheck, hwraps, p, hp, hsuits.exportName, hsignature⟩

/-- **Of its declared signatures a bound module is held to the first of each name**, and to no other one: to
all of them just if no name has two different ones. A first signature that is wrong makes the host refuse
the module because of a signature, wherever in the table it stands. The others are never read. -/
theorem ofInstance_heeds_leading {name : String} {bytes : List UInt8} {i : Instance}
    (hm : GuestModule.ofBytes name bytes = .ok i.module) {table : SignatureTable}
    (htable : i.module.table? = some table) (c : Config) :
    (∀ bound, ofInstance i c = .ok bound →
      (∀ s ∈ table.exports, bound.Heeds c.exportMark s ↔ table.get? s.name = some s) ∧
      ((∀ s ∈ table.exports, bound.Heeds c.exportMark s) ↔
        ∀ s ∈ table.exports, ∀ other ∈ table.exports, s.name = other.name → s = other)) ∧
    (∀ s, table.get? s.name = some s →
      ¬ (s.check = .ok () ∧ i.module.Wraps c.exportMark s.name s.shape) →
      ∃ name reason, ofInstance i c = .error (.invalidSignature (c.exportMark ++ name) reason)) ∧
    Plan.ofModule { i.module with table? := some table.leading } c.exportMark =
      Plan.ofModule i.module c.exportMark := by
  obtain ⟨-, -, hsound⟩ := GuestModule.sound_of_ofBytes hm
  refine ⟨fun bound hbound => ?_, fun s hfirst hwrong => ?_, ?_⟩
  · have hheeds : ∀ s ∈ table.exports, bound.Heeds c.exportMark s ↔ table.get? s.name = some s :=
      fun s hs => heeds_iff hsound hbound htable hs
    refine ⟨hheeds, Iff.trans ?_ SignatureTable.all_lead_iff⟩
    exact forall₂_congr hheeds
  · rcases hbind : ofInstance i c with e | bound
    · obtain ⟨name, reason, rfl, -⟩ := Plan.ofModule_eq_error hsound (ofInstance_eq_error hbind)
      exact ⟨name, reason, rfl⟩
    · obtain ⟨hs, -⟩ := SignatureTable.of_get? hfirst
      have hheeds := (heeds_iff hsound hbind htable hs).mpr hfirst
      obtain ⟨plans, -, rfl⟩ := ofInstance_eq_ok.mp hbind
      exact absurd ⟨hheeds.check, hheeds.wraps⟩ hwrong
  · have hleading := Plan.ofModule_leading i.module c.exportMark
    rw [htable] at hleading
    exact hleading

/-- A function of no parameters, and behind its signature another one for it. -/
def shadowingSteps : List Draft.Step :=
  [.typed ⟨"f", [], .unit, .standard⟩ (.ofCode [] []),
    .declare ⟨"f", [.scalar .i32], .scalar .i32, .standard⟩]

/-- A host binds the module that these steps build. It is held to the signature that its function has, and
not to the one behind it, which the function does not have. -/
theorem second_signature_is_ignored : ∃ bytes i table bound,
    (Draft.empty.after shadowingSteps).finish = .ok bytes ∧
    GuestModule.ofBytes Config.default.metadataSection bytes = .ok i.module ∧
    i.module.table? = some table ∧ ofInstance i .default = .ok bound ∧
    table.exports = [⟨"f", [], .unit, .standard⟩, ⟨"f", [.scalar .i32], .scalar .i32, .standard⟩] ∧
    bound.Heeds wrappedMark ⟨"f", [], .unit, .standard⟩ ∧
    ¬ bound.Heeds wrappedMark ⟨"f", [.scalar .i32], .scalar .i32, .standard⟩ ∧
    ¬ i.module.Wraps wrappedMark "f" ⟨[.i32], [.i32]⟩ := by
  have hok : (Draft.empty.after shadowingSteps).finish.isOk = true := by
    set_option maxRecDepth 100000 in decide +kernel
  rcases hfinish : (Draft.empty.after shadowingSteps).finish with e | bytes
  · rw [hfinish] at hok
    cases hok
  obtain ⟨m, hm, hd, hexports, htable⟩ := Draft.loads_after hfinish Config.default.metadataSection
  obtain ⟨i, memory, hi, hat, -⟩ := hd.instantiates .default
  obtain rfl := hat.module
  obtain ⟨-, -, hsound⟩ := GuestModule.sound_of_ofBytes hm
  have hexports : i.module.exports.Perm
      (Draft.allocatorExports ++ [⟨"__wasmbind_f", ⟨[], []⟩, 4⟩]) := hexports
  have htable : i.module.table? = some ⟨SignatureTable.currentVersion,
      [⟨"f", [], .unit, .standard⟩, ⟨"f", [.scalar .i32], .scalar .i32, .standard⟩]⟩ := htable
  -- the one wrapped export has neither parameters nor results
  have hwraps : ∀ name shape, i.module.Wraps wrappedMark name shape ↔
      name = "f" ∧ shape = ⟨[], []⟩ := by
    intro name shape
    rw [GuestModule.wraps_iff hsound]
    simp only [hexports.mem_iff, List.mem_append, List.mem_singleton]
    constructor
    · rintro ⟨f, hf | rfl, hname, rfl⟩
      · have hbuiltin : ∀ f ∈ Draft.allocatorExports, Plan.hostName? wrappedMark f = none := by
          decide
        cases (hbuiltin f hf).symm.trans hname
      · have hf : Plan.hostName? wrappedMark ⟨"__wasmbind_f", ⟨[], []⟩, 4⟩ = some "f" := by decide
        exact ⟨Option.some.inj (hname.symm.trans hf), rfl⟩
    · rintro ⟨rfl, rfl⟩
      exact ⟨_, .inr rfl, by decide, rfl⟩
  have hconsistent : i.module.Consistent wrappedMark := by
    constructor
    · intro name shape h
      obtain ⟨rfl, rfl⟩ := (hwraps name shape).mp h
      unfold GuestModule.Fits GuestModule.declared?
      rw [htable]
      exact ⟨by decide, rfl⟩
    · intro table h s hs
      obtain rfl := Option.some.inj (htable.symm.trans h)
      refine ⟨⟨[], []⟩, (hwraps _ _).mpr ⟨?_, rfl⟩⟩
      rcases List.mem_pair.mp hs with rfl | rfl <;> rfl
  obtain ⟨plans, hplans⟩ := (Plan.exists_ofModule_iff hsound).mpr hconsistent
  have hbound : ofInstance i .default = .ok ⟨_, plans, ⟨.empty, i⟩⟩ :=
    ofInstance_eq_ok.mpr ⟨plans, hplans, rfl⟩
  obtain ⟨hheeds, -⟩ := ((ofInstance_heeds_leading hm htable .default).1 _ hbound)
  refine ⟨bytes, i, _, _, rfl, hm, htable, hbound, rfl, ?_, ?_, ?_⟩
  · exact (hheeds _ (.head _)).mpr rfl
  · intro h
    cases (hheeds _ (.tail _ (.head _))).mp h
  · intro h
    cases ((hwraps _ _).mp h).2

end Binding

end GuestCall
