/-
# The drafts of the sample guests

What the sample guests export, and how the host calls it once it has bound them: every plan belongs to a
function of the draft, under the signature that was given with it, or, if there was none, under the one
that its machine types stand for.

Key definitions: `Sample.typed` and `Sample.untyped`, the functions with and without a signature.
Key theorems: `draft_eq`, `plan_cases`, `exists_bound`.
-/
import GuestCall.Proofs.Draft.Planning
import GuestCall.Sample.Catalog

namespace GuestCall

namespace Sample

open Wasm

/-- The functions of a sample guest that have a signature. -/
def typed : Sample → List (Signature × Body)
  | .truth => Truth.exports
  | .fibonacci => Fibonacci.exports
  | .greeting => Greeting.exports ⟨16, 13⟩ ⟨29, 7⟩
  | .sums => Sums.exports
  | .faults => Faults.exports ⟨16, 2⟩ ⟨18, 3⟩
  | .mismatched => []

/-- The functions of a sample guest that were added without one. -/
def untyped : Sample → List DraftFunction
  | .faults => [⟨Draft.wordType 2 1, .wrapped "add", Faults.binary .i32Add⟩]
  | .mismatched => [⟨Draft.wordType 1 1, .wrapped "sum", Faults.identity⟩]
  | _ => []

/-- The signatures that a sample guest declares. -/
def declared : Sample → List Signature
  | .mismatched => [Faults.mismatched]
  | s => s.typed.map (·.1)

/-- The table of the signatures of a sample guest. -/
def table (s : Sample) : SignatureTable := ⟨SignatureTable.currentVersion, s.declared⟩

theorem addAll_eq_ok : ∀ {exports : List (Signature × Body)} {d d' : Draft},
    addAll d exports = .ok d' → d.Built →
    d'.Built ∧ d' = { d with
      functions := d.functions ++ exports.map Draft.entry
      table := { d.table with exports := d.table.exports ++ exports.map (·.1) } }
  | [], d, d', h, hd => by
    cases h
    simp [hd]
  | (s, body) :: rest, d, d', h, hd => by
    rw [addAll] at h
    split at h
    · rename_i place d₁ hadd
      obtain ⟨hbuilt, hrest⟩ := addAll_eq_ok h (hd.addTyped hadd)
      refine ⟨hbuilt, ?_⟩
      rw [hrest, Draft.addTyped_eq_ok hadd]
      simp [SignatureTable.push]
    · cases h

/-- The constants of the greeting guest stand one behind the other. -/
theorem greetingDraft_eq : greetingDraft = addAll
    ((Draft.empty.intern Greeting.everyone.toUTF8.data.toList).2.intern
      Greeting.opening.toUTF8.data.toList).2 (Greeting.exports ⟨16, 13⟩ ⟨29, 7⟩) := by
  have hfirst : (Draft.empty.intern Greeting.everyone.toUTF8.data.toList).1 = ⟨16, 13⟩ := by
    decide +kernel
  have hsecond : ((Draft.empty.intern Greeting.everyone.toUTF8.data.toList).2.intern
      Greeting.opening.toUTF8.data.toList).1 = ⟨29, 7⟩ := by
    decide +kernel
  rw [← hfirst, ← hsecond]
  rfl

@[inherit_doc greetingDraft_eq]
theorem faultsDraft_eq : faultsDraft =
    match addAll ((Draft.empty.intern Faults.noText).2.intern
      Faults.noNumber.toUTF8.data.toList).2 (Faults.exports ⟨16, 2⟩ ⟨18, 3⟩) with
    | .error e => .error e
    | .ok d =>
      (d.addFunction "add" (Draft.wordType 2 1) (Faults.binary .i32Add)).map fun added => added.2 := by
  have hfirst : (Draft.empty.intern Faults.noText).1 = ⟨16, 2⟩ := by
    decide +kernel
  have hsecond : ((Draft.empty.intern Faults.noText).2.intern
      Faults.noNumber.toUTF8.data.toList).1 = ⟨18, 3⟩ := by
    decide +kernel
  rw [← hfirst, ← hsecond]
  rfl

/-- **The draft of a sample guest**, but for its static data. -/
theorem draft_eq {s : Sample} {d : Draft} (h : s.draft = .ok d) :
    d.Built ∧ d.functions = Draft.builtins ++ (s.typed.map Draft.entry ++ s.untyped) ∧
      d.table = s.table ∧ d.tableSection? = some metadataSection := by
  cases s with
  | mismatched =>
    have hdeclare : Draft.empty.declare Faults.mismatched =
      .ok { Draft.empty with table := Draft.empty.table.push Faults.mismatched } := rfl
    rw [draft, mismatchedDraft, hdeclare] at h
    obtain ⟨⟨place, d'⟩, hadd, rfl⟩ := eq_ok_of_map h
    refine ⟨.addFunction (.declare .empty hdeclare) hadd, ?_⟩
    rw [Draft.addFunction_eq_ok hadd]
    exact ⟨rfl, rfl, rfl⟩
  | truth =>
    obtain ⟨hbuilt, rfl⟩ := addAll_eq_ok h .empty
    exact ⟨hbuilt, rfl, rfl, rfl⟩
  | fibonacci =>
    obtain ⟨hbuilt, rfl⟩ := addAll_eq_ok h .empty
    exact ⟨hbuilt, rfl, rfl, rfl⟩
  | sums =>
    obtain ⟨hbuilt, rfl⟩ := addAll_eq_ok h .empty
    exact ⟨hbuilt, rfl, rfl, rfl⟩
  | greeting =>
    rw [draft, greetingDraft_eq] at h
    obtain ⟨hbuilt, rfl⟩ := addAll_eq_ok h (.intern (.intern .empty _) _)
    exact ⟨hbuilt, rfl, rfl, rfl⟩
  | faults =>
    rw [draft, faultsDraft_eq] at h
    split at h
    · cases h
    · rename_i d₁ hall
      obtain ⟨hbuilt, rfl⟩ := addAll_eq_ok hall (.intern (.intern .empty _) _)
      obtain ⟨⟨place, d₂⟩, hadd, rfl⟩ := eq_ok_of_map h
      have hadded := Draft.addFunction_eq_ok hadd
      refine ⟨hbuilt.addFunction hadd, ?_, ?_, ?_⟩
      · rw [hadded]
        dsimp only
        rw [List.append_assoc]
        rfl
      · rw [hadded]
        rfl
      · rw [hadded]
        rfl

/-- A sample guest as it is loaded: its draft, and its signatures. -/
structure LoadedAs (s : Sample) (d : Draft) (m : GuestModule) : Prop where
  draft : s.draft = .ok d
  loads : d.Loads m
  table : m.table? = some s.table

/-- The program of a draft declares the signatures of the draft. -/
theorem tableOf_image {s : Sample} {d : Draft} (hdraft : s.draft = .ok d) {p : Program}
    (himage : d.Image p) : GuestModule.tableOf p metadataSection = .ok (some s.table) := by
  obtain ⟨-, -, htable, hsection⟩ := draft_eq hdraft
  rw [himage.tableOf (by rw [htable]; rfl), if_pos hsection, htable]

theorem bytes_eq_ok {s : Sample} {bytes : List UInt8} (h : s.bytes = .ok bytes) :
    ∃ d, s.draft = .ok d ∧ d.finish = .ok bytes := by
  unfold Sample.bytes at h
  split at h
  · rename_i d hdraft
    exact ⟨d, hdraft, h⟩
  · cases h

theorem loadedAs_of_bytes {s : Sample} {bytes : List UInt8} {m : GuestModule}
    (hbytes : s.bytes = .ok bytes) (hm : GuestModule.ofBytes metadataSection bytes = .ok m) :
    ∃ d, s.LoadedAs d m := by
  obtain ⟨d, hdraft, hfinish⟩ := bytes_eq_ok hbytes
  obtain ⟨hbuilt, -⟩ := draft_eq hdraft
  have hloads : d.Loads m := ⟨hbuilt, metadataSection, bytes, hfinish, hm⟩
  obtain ⟨himage, -⟩ := hloads.image
  obtain ⟨-, htable, -⟩ := GuestModule.sound_of_ofBytes hm
  rw [tableOf_image hdraft himage] at htable
  exact ⟨d, hdraft, hloads, (Except.ok.inj htable).symm⟩

/-- Every sample guest has bytes. -/
theorem exists_bytes (s : Sample) : ∃ bytes, s.bytes = .ok bytes := by
  have hok : s.bytes.isOk = true := by
    cases s with
    | truth => set_option maxRecDepth 100000 in decide +kernel
    | fibonacci => set_option maxRecDepth 100000 in decide +kernel
    | greeting => set_option maxRecDepth 100000 in decide +kernel
    | sums => set_option maxRecDepth 100000 in decide +kernel
    | faults => set_option maxRecDepth 100000 in decide +kernel
    | mismatched => set_option maxRecDepth 100000 in decide +kernel
  rcases hbytes : s.bytes with e | bytes
  · rw [hbytes] at hok
    cases hok
  · exact ⟨bytes, rfl⟩

/-- **Every sample guest is loaded.** -/
theorem loads {s : Sample} {bytes : List UInt8} (hbytes : s.bytes = .ok bytes) :
    ∃ m, GuestModule.ofBytes metadataSection bytes = .ok m := by
  obtain ⟨d, hdraft, hfinish⟩ := bytes_eq_ok hbytes
  obtain ⟨p, hp, himage⟩ := Draft.valid_of_finish hfinish
  refine ⟨⟨p, contentDigest bytes.toByteArray, some s.table, GuestModule.exportsOf p⟩, ?_⟩
  unfold GuestModule.ofBytes
  simp only [hp, tableOf_image hdraft himage]

/-- The names of the functions with a signature are distinct. -/
theorem nodup_typed (s : Sample) : (s.typed.map fun e => e.1.name).Nodup := by
  cases s <;> decide

theorem get?_typed {s : Sample} (hs : s ≠ .mismatched) {e : Signature × Body} (he : e ∈ s.typed) :
    s.table.get? e.1.name = some e.1 := by
  have hnodup : ((s.typed.map (·.1)).map (·.name)).Nodup := by
    rw [List.map_map]
    exact s.nodup_typed
  have hdeclared : s.declared = s.typed.map (·.1) := by
    cases s with
    | mismatched => exact absurd rfl hs
    | truth | fibonacci | greeting | sums | faults => rfl
  unfold table SignatureTable.get?
  rw [hdeclared]
  exact find?_of_nodup hnodup (List.mem_map_of_mem he)

theorem get?_untyped {s : Sample} (hs : s ≠ .mismatched) {f : DraftFunction} (hf : f ∈ s.untyped)
    {name : String} (hname : f.visibility = .wrapped name) : s.table.get? name = none := by
  cases s with
  | faults =>
    rw [untyped, List.mem_singleton] at hf
    rw [hf] at hname
    cases hname
    decide
  | mismatched => exact absurd rfl hs
  | truth | fibonacci | greeting | sums => cases hf

variable {s : Sample} {d : Draft} {m : GuestModule}

theorem LoadedAs.declared?_eq (h : s.LoadedAs d m) (name : String) :
    m.declared? name = s.table.get? name := by
  unfold GuestModule.declared?
  rw [h.table]
  rfl

/-- The wrapped functions of a sample guest. -/
theorem LoadedAs.mem_functions (h : s.LoadedAs d m) {f : DraftFunction} {name : String}
    (hf : f ∈ d.functions) (hname : f.visibility = .wrapped name) :
    (∃ e ∈ s.typed, f = Draft.entry e ∧ name = e.1.name) ∨ f ∈ s.untyped := by
  obtain ⟨-, hfunctions, -⟩ := draft_eq h.draft
  rw [hfunctions] at hf
  rcases List.mem_append.mp hf with hbuiltin | hf
  · simp only [Draft.builtins, List.mem_cons, List.not_mem_nil, or_false] at hbuiltin
    rcases hbuiltin with rfl | rfl | rfl | rfl <;> cases hname
  rcases List.mem_append.mp hf with htyped | huntyped
  · obtain ⟨e, he, rfl⟩ := List.mem_map.mp htyped
    cases hname
    exact .inl ⟨e, he, rfl, rfl⟩
  · exact .inr huntyped

/-- The guest whose signature and function do not agree has no plans. -/
theorem LoadedAs.ne_mismatched (h : s.LoadedAs d m) {plans : List (String × Plan)}
    (hplans : Plan.ofModule m wrappedMark = .ok plans) : s ≠ .mismatched := by
  rintro rfl
  obtain ⟨-, hfunctions, -⟩ := draft_eq h.draft
  have hf : d.functions[4]? = some ⟨Draft.wordType 1 1, .wrapped "sum", Faults.identity⟩ := by
    rw [hfunctions]
    rfl
  obtain ⟨f, hmem, hname, hshape⟩ := h.loads.exported hf rfl (by decide)
  obtain ⟨p, -, hp⟩ := Plan.mem_of_ofModule hplans hmem hname
  obtain ⟨-, hlowers, hsignature⟩ := Plan.ofExport_eq_ok hp
  have hdeclared : m.declared? "sum" = some Faults.mismatched := h.declared?_eq "sum"
  rw [hdeclared] at hsignature
  rcases hsignature with hsignature | ⟨hnone, -⟩
  · rw [← Option.some.inj hsignature, hshape] at hlowers
    cases hlowers
  · cases hnone

/-- **The plans of a sample guest**: a name belongs to a function with a signature, which is the one of
the plan, or to one without. -/
theorem LoadedAs.plan_cases (h : s.LoadedAs d m) {plans : List (String × Plan)}
    (hplans : Plan.ofModule m wrappedMark = .ok plans) {name : String} {p : Plan}
    (hp : (name, p) ∈ plans) : ∃ i type body,
      d.functions[i]? = some ⟨type, .wrapped name, body⟩ ∧
      m.find? p.exportName = some ⟨p.exportName, p.signature.shape, i⟩ ∧
      ((∃ e ∈ s.typed, type = Draft.typeOf e.1 ∧ name = e.1.name ∧ body = e.2 ∧ p.signature = e.1) ∨
        ⟨type, .wrapped name, body⟩ ∈ s.untyped ∧
          Signature.ofShape p.exportName name p.signature.shape = .ok p.signature) := by
  have hs := h.ne_mismatched hplans
  obtain ⟨i, type, body, hf, hfind, -, hsignature⟩ := h.loads.plan hplans hp
  rw [h.declared?_eq] at hsignature
  refine ⟨i, type, body, hf, hfind, ?_⟩
  rcases h.mem_functions (List.mem_of_getElem? hf) rfl with ⟨e, he, heq, rfl⟩ | huntyped
  · cases heq
    rw [get?_typed hs he] at hsignature
    rcases hsignature with hsignature | ⟨hnone, -⟩
    · exact .inl ⟨e, he, rfl, rfl, rfl, (Option.some.inj hsignature).symm⟩
    · cases hnone
  · rw [get?_untyped hs huntyped rfl] at hsignature
    rcases hsignature with hsignature | ⟨-, hsignature⟩
    · cases hsignature
    · exact .inr ⟨huntyped, hsignature⟩

/-- The signatures of a sample guest obey the rules, and none looks like one of the allocator. -/
theorem check_typed {e : Signature × Body} (he : e ∈ s.typed) :
    e.1.check = .ok () ∧ unmarked? builtinMark (wrappedMark ++ e.1.name) = none := by
  have hall : s.typed.all (fun e => e.1.check.isOk &&
      (unmarked? builtinMark (wrappedMark ++ e.1.name)).isNone) = true := by
    cases s <;> decide
  have hboth := List.all_eq_true.mp hall e he
  rw [Bool.and_eq_true, Option.isNone_iff_eq_none] at hboth
  refine ⟨?_, hboth.2⟩
  rcases hcheck : e.1.check with error | u
  · rw [hcheck] at hboth
    cases hboth.1
  · rfl

/-- **All sample guests but one can be planned.** -/
theorem LoadedAs.planned (hs : s ≠ .mismatched) (h : s.LoadedAs d m) :
    ∃ plans, Plan.ofModule m wrappedMark = .ok plans := by
  obtain ⟨-, hfunctions, -⟩ := draft_eq h.draft
  refine h.loads.planned (fun type name body hf => ?_) fun table htable s' hs' => ?_
  · rw [h.declared?_eq]
    rcases h.mem_functions hf rfl with ⟨e, he, heq, rfl⟩ | huntyped
    · cases heq
      exact .inl ⟨e.1, get?_typed hs he, (check_typed he).1, rfl⟩
    · refine .inr ⟨get?_untyped hs huntyped rfl, ?_⟩
      cases s with
      | faults =>
        rw [untyped, List.mem_singleton] at huntyped
        cases huntyped
        exact ⟨by decide, by decide⟩
      | mismatched => exact absurd rfl hs
      | truth | fibonacci | greeting | sums => cases huntyped
  · cases h.table.symm.trans htable
    have htyped : ∃ e ∈ s.typed, e.1 = s' := by
      cases s with
      | mismatched => exact absurd rfl hs
      | truth | fibonacci | greeting | sums | faults => exact List.mem_map.mp hs'
    obtain ⟨e, he, rfl⟩ := htyped
    refine ⟨⟨e.2, ?_⟩, (check_typed he).2⟩
    rw [hfunctions]
    exact List.mem_append_right _ (List.mem_append_left _ (List.mem_map_of_mem he))

/-- **All sample guests but one can be bound**, for whichever host. -/
theorem exists_bound (hs : s ≠ .mismatched) {c : Config} (hmark : c.exportMark = wrappedMark)
    (hsection : c.metadataSection = GuestCall.metadataSection) : ∃ bytes d m i plans,
      s.bytes = .ok bytes ∧ GuestModule.ofBytes c.metadataSection bytes = .ok m ∧ s.LoadedAs d m ∧
      Instance.ofModule m c = .ok i ∧ Plan.ofModule i.module c.exportMark = .ok plans ∧
      i.module = m := by
  obtain ⟨bytes, hbytes⟩ := exists_bytes s
  obtain ⟨m, hm⟩ := loads hbytes
  obtain ⟨d, hd⟩ := loadedAs_of_bytes hbytes hm
  obtain ⟨plans, hplans⟩ := hd.planned hs
  obtain ⟨i, memory, hi, hat, -⟩ := hd.loads.instantiates c
  refine ⟨bytes, d, m, i, plans, hbytes, ?_, hd, hi, ?_, hat.module⟩
  · rw [hsection]
    exact hm
  · rw [hat.module, hmark]
    exact hplans

/-- A function with a signature has a plan by its name, and the signature is that of the plan. -/
theorem LoadedAs.exists_plan (h : s.LoadedAs d m) {plans : List (String × Plan)}
    (hplans : Plan.ofModule m wrappedMark = .ok plans) {e : Signature × Body} (he : e ∈ s.typed) :
    ∃ p, (e.1.name, p) ∈ plans ∧ plans.find? (fun q => q.1 == e.1.name) = some (e.1.name, p) ∧
      p.signature = e.1 := by
  have hs := h.ne_mismatched hplans
  obtain ⟨-, hfunctions, -⟩ := draft_eq h.draft
  have hentry : Draft.entry e ∈ d.functions := by
    rw [hfunctions]
    exact List.mem_append_right _ (List.mem_append_left _ (List.mem_map_of_mem he))
  obtain ⟨i, hi⟩ := List.mem_iff_getElem?.mp hentry
  obtain ⟨f, hf, hname, -⟩ := h.loads.exported hi (Draft.ofType?_typeOf e.1) (check_typed he).2
  obtain ⟨planned, hplanned, -⟩ := Plan.mem_of_ofModule hplans hf hname
  obtain ⟨⟨name, p⟩, hfind⟩ : ∃ q, plans.find? (fun q => q.1 == e.1.name) = some q := by
    rcases hfind : plans.find? (fun q => q.1 == e.1.name) with _ | q
    · exact absurd (beq_self_eq_true e.1.name) (List.find?_eq_none.mp hfind _ hplanned)
    · exact ⟨q, hfind⟩
  have hfound : (name == e.1.name) = true :=
    List.find?_some (p := fun q : String × Plan => q.1 == e.1.name) hfind
  obtain rfl : name = e.1.name := eq_of_beq hfound
  have hp := List.mem_of_find?_eq_some hfind
  refine ⟨p, hp, hfind, ?_⟩
  -- any plan of that name has the declared signature
  obtain ⟨-, -, -, -, -, -, hsignature⟩ := h.loads.plan hplans hp
  rw [h.declared?_eq, get?_typed hs he] at hsignature
  rcases hsignature with hsignature | ⟨hnone, -⟩
  · exact (Option.some.inj hsignature).symm
  · cases hnone

end Sample

end GuestCall
