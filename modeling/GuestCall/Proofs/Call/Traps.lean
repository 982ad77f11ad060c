/-
# What becomes of traps

A call runs guest code at its export, and at each buffer that it gives back. What the export answers decides
the call: if it traps, its trap is the error of the call. Giving a buffer back may trap as well, and the call
goes on giving back the other ones. Then the error that the call had before counts more than those of giving
back, and of those the first one counts.

So a trap of giving back goes to the caller, or another error that is fatal as well, but for two cases. The
call may have failed before, for want of memory or because of what the guest returned. And the first buffer
that could not be given back may be one that reaches out of the memory, which only a buffer of the result
does. A small guest shows both cases.

Key definitions: `GuestModule.Frees`, `Tally`, `Plan.exportAnswer?`, `Binding.HidesTrap`.
Key theorems: `Instance.free_error`, `releaseNewest_heard`, `Plan.Course.of_exportAnswer`, `traps_surface`.
-/
import GuestCall.Proofs.Call.Coverage
import GuestCall.Proofs.Call.Planning

namespace GuestCall

open Ledger GuestCall.Action

/-! ### What giving back answers -/

/-- The machine values that a shape takes are of its types. -/
theorem types_of_mismatch? {shape : ExportShape} {raw : List CoreValue}
    (h : shape.mismatch? raw = none) : raw.map CoreValue.type = shape.params := by
  unfold ExportShape.mismatch? at h
  split at h
  swap
  · cases h
  rename_i hlength
  rw [Option.map_eq_none_iff, List.find?_eq_none] at h
  refine List.ext_getElem (by rw [List.length_map, hlength]) fun i hi hi' => ?_
  have hraw : i < raw.length := by rwa [List.length_map] at hi
  have hpair : ((raw[i], shape.params[i]), i) ∈ (raw.zip shape.params).zipIdx :=
    List.mem_zipIdx_iff_getElem?.mpr (List.getElem?_zip_eq_some.mpr
      ⟨List.getElem?_eq_getElem hraw, List.getElem?_eq_getElem hi'⟩)
  have htype := h _ hpair
  rw [List.getElem_map]
  simpa using htype

/-- A module has something to run when a buffer is given back. -/
def GuestModule.Frees (m : GuestModule) : Prop :=
  ∃ f, m.find? deallocExport = some f ∧ f.shape.params = [.i32, .i32]

/-- **A free that fails has trapped**, if the module has something to run for it. If it has not, nothing is
run, and nothing traps. -/
theorem Instance.free_error {i i' : Instance} {ptr len : UInt32} {e : BindError}
    (h : i.free ptr len = (.error e, i')) : e.kind = .trap ↔ i.module.Frees := by
  have hcall : (i.call deallocExport [.i32 ptr, .i32 len]).1 = .error e := by
    rw [Instance.free_eq] at h
    rcases hresult : (i.call deallocExport [.i32 ptr, .i32 len]).1 with e' | values <;>
      rw [hresult] at h <;> cases h
    rfl
  unfold Instance.call at hcall
  split at hcall
  · rename_i hnone
    cases hcall
    refine ⟨nofun, fun ⟨f, hf, _⟩ => ?_⟩
    rw [hnone] at hf
    cases hf
  · rename_i f hf
    split at hcall
    · rename_i hmismatch
      cases hcall
      refine ⟨nofun, fun ⟨g, hg, hparams⟩ => ?_⟩
      obtain rfl := Option.some.inj (hf.symm.trans hg)
      have htypes : [CoreValue.i32 ptr, .i32 len].map CoreValue.type = f.shape.params := hparams.symm
      cases (mismatch?_of_types htypes).symm.trans hmismatch
    · rename_i hfits
      refine ⟨fun _ => ⟨f, hf, (types_of_mismatch? hfits).symm⟩, fun _ => ?_⟩
      unfold Instance.run at hcall
      dsimp only at hcall
      split at hcall <;> cases hcall
      rfl

section

variable {b b' : Books (Heard Instance)} {x : Handle} {result : Except BindError Unit}

/-- Why a handle was not given back although the guest was not asked: it is not on the books as it should be,
or it reaches out of the memory. -/
def Handle.Unasked (x : Handle) (memoryLength : Nat) (e : BindError) : Prop :=
  e.isFatal = true ∨ e.kind = .outOfBounds ∧ memoryLength < x.stop

/-- Asking the guest to free, whose answer is the result, or giving up without asking it. -/
theorem release_heard (hx : x.owned = true) (h : release x b = (result, b')) :
    (b'.guest.answers = result :: b.guest.answers ∧
        ∀ e, result = .error e → (e.kind = .trap ↔ b.guest.guest.module.Frees)) ∨
      b'.guest.answers = b.guest.answers ∧ ∃ e, result = .error e ∧ e.isFatal = true := by
  have hlooked : ∀ {epoch guest}, GuestAllocator.epoch b.guest = (epoch, guest) →
      guest = ⟨b.guest.guest.observe, b.guest.answers⟩ := fun look => (congrArg Prod.snd look).symm
  cases release_cases h with
  | borrowed owned =>
    rw [show x.owned = false from owned] at hx
    cases hx
  | gone => exact .inr ⟨rfl, _, rfl, rfl⟩
  | stale _ _ look | unknown _ _ look =>
    obtain rfl := hlooked look
    exact .inr ⟨rfl, _, rfl, rfl⟩
  | freed _ _ look _ free =>
    obtain rfl := hlooked look
    cases free
    refine .inl ⟨rfl, fun e he => ?_⟩
    have hfree : b.guest.guest.observe.free x.ptr x.len = (.error e, _) := Prod.ext he rfl
    rw [Instance.free_error hfree, b.guest.guest.later_observe.module]

/-- **Giving one handle back**: the guest answers, and its answer is the result, or the guest is not asked. -/
theorem refreshRelease_heard (hx : x.owned = true) (h : refreshRelease x b = (result, b')) :
    b.guest.guest.Later b'.guest.guest ∧
    (b'.guest.answers = result :: b.guest.answers ∧
        (∀ e, result = .error e → (e.kind = .trap ↔ b.guest.guest.module.Frees)) ∨
      b'.guest.answers = b.guest.answers ∧
        ∃ e, result = .error e ∧ x.Unasked b.guest.guest.memoryLength e) := by
  refine ⟨?_, ?_⟩
  · have hlater := refreshRelease_later x (b.seen Heard.guest)
    rw [refreshRelease_seen guestView_heard, h] at hlater
    exact hlater
  unfold refreshRelease andThen at h
  rcases refresh_cases x b with ⟨e, hrefresh, -⟩ | ⟨epoch, guest, hlook, hrefresh⟩
  · obtain ⟨-, hwhy⟩ := refresh_error hrefresh
    rw [hrefresh] at h
    cases h
    refine .inr ⟨rfl, e, rfl, ?_⟩
    rcases hwhy with rfl | ⟨rfl, hout⟩
    · exact .inl rfl
    · exact .inr ⟨rfl, hout⟩
  · cases hlook
    rw [hrefresh] at h
    rcases release_heard (x := { x with epoch := b.guest.guest.observe.epoch }) hx h with
      ⟨hanswers, herror⟩ | ⟨hanswers, e, he, hfatal⟩
    · refine .inl ⟨hanswers, fun e he => ?_⟩
      rw [herror e he, b.guest.guest.later_observe.module]
    · exact .inr ⟨hanswers, e, he, .inl hfatal⟩

/-- Why giving back fails: the guest failed, or it was not asked about a handle. -/
def Reason (b : Books (Heard Instance)) (answers : List (Except BindError Unit)) (e : BindError) : Prop :=
  .error e ∈ answers ∨ ∃ x ∈ b.ledger.outstanding, x.Unasked b.guest.guest.memoryLength e

/-- What emptying some books comes to: how the answers of the guest and the first error so far make up the
result. -/
structure Tally (first? : Option BindError) (b : Books (Heard Instance))
    (answers : List (Except BindError Unit)) (result : Except BindError Unit) : Prop where
  kinds : ∀ e, .error e ∈ answers → (e.kind = .trap ↔ b.guest.guest.module.Frees)
  /-- Where all goes well, the guest has not failed once. -/
  ok : result = .ok () → first? = none ∧ ∀ e, .error e ∉ answers
  /-- An error is the first one so far, if there is one. -/
  error : ∀ e, result = .error e → first? = some e ∨ first? = none ∧ Reason b answers e

theorem Tally.nil_none (b : Books (Heard Instance)) : Tally none b [] (.ok ()) :=
  ⟨fun _ he => (nomatch he), fun _ => ⟨rfl, fun _ he => (nomatch he)⟩, fun _ he => (nomatch he)⟩

theorem Tally.nil_some (b : Books (Heard Instance)) (e : BindError) : Tally (some e) b [] (.error e) :=
  ⟨fun _ he => (nomatch he), fun hok => (nomatch hok), fun _ he => .inl (congrArg some (Except.error.inj he))⟩

/-- One handle, and then the others. -/
theorem Tally.cons {first? later? : Option BindError} {answers : List (Except BindError Unit)}
    {one : Except BindError Unit} (hx : x ∈ b.ledger.outstanding) (howned : x.owned = true)
    {b₁ : Books (Heard Instance)} (hone : refreshRelease x b = (one, b₁)) (hguest : b'.guest = b₁.guest)
    (hothers : b'.ledger.outstanding ⊆ b.ledger.outstanding)
    (hfirst : one = .ok () ∧ later? = first? ∨ ∃ e, one = .error e ∧ later? = first?.or (some e))
    (h : Tally later? b' answers result) :
    ∃ noted, answers ++ b'.guest.answers = noted ++ b.guest.answers ∧ Tally first? b noted result := by
  obtain ⟨hlater, hone⟩ := refreshRelease_heard howned hone
  rw [← hguest] at hlater hone
  -- the answers with that of this handle, if there is one
  obtain ⟨noted, hnoted, hsub, hkind, hreason⟩ : ∃ noted,
      answers ++ b'.guest.answers = noted ++ b.guest.answers ∧ answers ⊆ noted ∧
      (∀ e, .error e ∈ noted → .error e ∈ answers ∨
        one = .error e ∧ (e.kind = .trap ↔ b.guest.guest.module.Frees)) ∧
      ∀ e, one = .error e → Reason b noted e := by
    rcases hone with ⟨hanswers, hkind⟩ | ⟨hanswers, e, rfl, hunasked⟩
    · refine ⟨answers ++ [one], ?_, List.subset_append_left _ _, fun e he => ?_, fun e he => ?_⟩
      · rw [hanswers, List.append_assoc, List.singleton_append]
      · refine (List.mem_append.mp he).imp_right fun he => ?_
        have hsame := (List.mem_singleton.mp he).symm
        exact ⟨hsame, hkind e hsame⟩
      · exact .inl (List.mem_append_right _ (List.mem_singleton.mpr he.symm))
    · refine ⟨answers, by rw [hanswers], List.Subset.refl _, fun e he => .inl he, fun e' he => ?_⟩
      cases he
      exact .inr ⟨x, hx, hunasked⟩
  have hbefore : ∀ e, Reason b' answers e → Reason b noted e := by
    rintro e (hmem | ⟨y, hy, hfatal | ⟨hout, hreach⟩⟩)
    · exact .inl (hsub hmem)
    · exact .inr ⟨y, hothers hy, .inl hfatal⟩
    · exact .inr ⟨y, hothers hy, .inr ⟨hout, Nat.lt_of_le_of_lt hlater.memoryLength_le hreach⟩⟩
  refine ⟨noted, hnoted, fun e he => ?_, fun hok => ?_, fun e he => ?_⟩
  · rcases hkind e he with he | ⟨-, hkind⟩
    · exact hlater.module ▸ h.kinds e he
    · exact hkind
  · obtain ⟨hnone, hanswers⟩ := h.ok hok
    rcases hfirst with ⟨rfl, rfl⟩ | ⟨e, -, rfl⟩
    · refine ⟨hnone, fun e he => ?_⟩
      rcases hkind e he with he | ⟨he, -⟩
      · exact hanswers e he
      · cases he
    · cases first? <;> cases hnone
  · rcases hfirst with ⟨-, rfl⟩ | ⟨e₁, hone, rfl⟩
    · exact (h.error e he).imp_right (And.imp_right (hbefore e))
    · rcases first? with _ | e₀
      · rcases h.error e he with hsome | ⟨hnone, -⟩
        · cases hsome
          exact .inr ⟨rfl, hreason _ hone⟩
        · cases hnone
      · rcases h.error e he with hsome | ⟨hnone, -⟩
        · exact .inl hsome
        · cases hnone

/-- **Giving all handles back**, with or without a first error so far. -/
theorem releaseNewest_heard : ∀ (count : Nat) (first? : Option BindError) {b : Books (Heard Instance)},
    b.ledger.AllOwned → ∃ answers,
      (releaseNewest count first? b).2.guest.answers = answers ++ b.guest.answers ∧
      Tally first? b answers (releaseNewest count first? b).1
  | 0, none, b, _ => ⟨[], rfl, .nil_none b⟩
  | 0, some e, b, _ => ⟨[], rfl, .nil_some b e⟩
  | count + 1, first?, b, howned => by
    rcases hout : b.ledger.outstanding with _ | ⟨x, below⟩
    · rw [releaseNewest, hout]
      exact releaseNewest_heard count first? howned
    have hx : x ∈ b.ledger.outstanding := by
      rw [hout]
      exact List.mem_cons_self
    obtain ⟨later?, b', hrun, hguest, hothers, hfirst⟩ := releaseNewest_step howned hout count first?
    obtain ⟨answers, hanswers, htally⟩ :=
      releaseNewest_heard count later? (howned.dropped hx b'.ledger hothers).1
    have hbelow : b'.ledger.outstanding ⊆ b.ledger.outstanding := by
      rw [hothers]
      exact List.filter_subset_self _
    rcases hone : refreshRelease x b with ⟨one, b₁⟩
    rw [hone] at hguest hfirst
    rw [hrun, hanswers]
    exact htally.cons hx (howned x hx) hone hguest hbelow hfirst

end

/-- **Giving everything back** of some books of a guest. -/
theorem releaseAll_tally {b : Books Instance} (howned : b.ledger.AllOwned) :
    Tally none b.heard b.freeAnswers (releaseAll b).1 := by
  obtain ⟨answers, hanswers, htally⟩ :=
    releaseNewest_heard b.ledger.outstanding.length none (b := b.heard) howned
  have hall : b.freeAnswers = answers.reverse := by
    rw [show b.heard.guest.answers = [] from rfl, List.append_nil] at hanswers
    exact congrArg List.reverse hanswers
  rw [hall, releaseAll_heard]
  exact ⟨fun e he => htally.kinds e (List.mem_reverse.mp he),
    fun hok => (htally.ok hok).imp_right fun hnone e he => hnone e (List.mem_reverse.mp he),
    fun e he => (htally.error e he).imp_right (And.imp_right (Or.imp_left List.mem_reverse.mpr))⟩

/-! ### A whole call -/

namespace Plan

variable {p : Plan} {style : AccessStyle} {arguments arguments' : List Argument} {b b' : Books Instance}

/-- What the export answers in a call, if it comes to that. -/
def exportAnswer? (p : Plan) (style : AccessStyle) (arguments : List Argument) (b : Books Instance) :
    Option (Except BindError (List CoreValue)) :=
  match passArguments style p.exportName (p.signature.params.zip arguments) b with
  | (.ok passed, b) => some (onGuest (Instance.call p.exportName (passed.flatMap (·.raw))) b).1
  | (.error _, _) => none

/-- **What the export answers decides the call**: an error of it is a trap, and the error of the call. -/
theorem Course.of_exportAnswer {result : Except BindError Value} {e : BindError}
    (hcourse : p.Course style arguments b result arguments' b')
    (h : p.exportAnswer? style arguments b = some (.error e)) : e.kind = .trap ∧ result = .error e := by
  unfold exportAnswer? at h
  have hreturns : ∀ {passed raw b₂}, p.Returns style arguments b passed raw b₂ → False := by
    rintro passed raw b₂ ⟨⟨b₁, hpasses, hcall⟩, -, -⟩
    rw [hpasses.step] at h
    dsimp only at h
    rw [hcall] at h
    cases h
  cases hcourse with
  | unpassed step =>
    rw [step] at h
    cases h
  | trapped passes step =>
    rw [passes.step] at h
    dsimp only at h
    rw [step] at h
    cases h
    exact ⟨rfl, rfl⟩
  | undecoded back => exact (hreturns back.returns).elim
  | given _ back => exact (hreturns back.returns).elim
  | delivered _ back => exact (hreturns back.returns).elim

/-- Where a call has no error of its own, the first one of giving its buffers back counts. -/
theorem call_of_release (hcheck : p.check arguments = .ok ()) {v : Value}
    (hperform : p.perform style arguments b = (.ok v, arguments', b')) {e : BindError}
    (hrelease : (releaseAll b').1 = .error e) : (p.call style arguments b).1 = .error e := by
  unfold call
  rw [hcheck]
  dsimp only
  rw [hperform]
  dsimp only
  rcases hall : releaseAll b' with ⟨e' | u, b₁⟩ <;> rw [hall] at hrelease <;> cases hrelease
  rfl

end Plan

/-- **What becomes of traps.** A call of a name without a plan, or with arguments that are refused, runs
nothing. In any other call of any binding in service, an error of the export is a trap, and it is what the
call returns. If something trapped as the buffers were given back, the call returns an error as well, and it
is fatal but for two cases: the call had failed before, and its own error is returned; or it had worked, a
buffer of its result reaches out of the memory, and that is what is returned. -/
theorem traps_surface {m : GuestModule} {d : Binding} (hd : d.Serves m) (name : String)
    (arguments : List Argument) :
    (d.plan? name = none → d.call name arguments = (.error (.exportNotFound name), arguments, d)) ∧
    ∀ p, d.plan? name = some p →
      (∀ e, p.check arguments = .error e → d.call name arguments = (.error e, arguments, d)) ∧
      (p.check arguments = .ok () → ∃ own arguments' b' result,
        p.perform d.style arguments d.books = (own, arguments', b') ∧
        d.call name arguments = (result, arguments', ⟨d.style, d.plans, (releaseAll b').2⟩) ∧
        (∀ e, p.exportAnswer? d.style arguments d.books = some (.error e) →
          e.kind = .trap ∧ result = .error e) ∧
        ∀ e, .error e ∈ b'.freeAnswers → e.kind = .trap → ∃ e', result = .error e' ∧
          (e'.isFatal = true ∨ own = .error e' ∧ p.CallFault e' ∨
            (∃ v, own = .ok v) ∧ e'.kind = .outOfBounds ∧ b'.Overdrawn d.style p.signature.ret)) := by
  refine ⟨fun hnone => Binding.call_unplanned hnone arguments, fun p hp => ?_⟩
  have hfit := hd.fit
  obtain ⟨f, hf⟩ := hfit.reaches hp
  refine ⟨fun e he => ?_, fun hcheck => ?_⟩
  · rw [Binding.call_eq hp, Plan.call_refused d.style d.books he]
  obtain ⟨own, arguments', b', hperform, hlater, hcourse⟩ :=
    Plan.perform_course d.style hfit.resting.ready hf hfit.module hcheck
  obtain ⟨result, hcall, herror, hok⟩ := Plan.call_of_perform hcheck hperform
  refine ⟨own, arguments', b', result, hperform, ?_, fun e he => ?_, fun e he htrap => ?_⟩
  · rw [Binding.call_eq hp, hcall]
  · obtain ⟨hkind, hown⟩ := hcourse.of_exportAnswer he
    exact ⟨hkind, herror e hown⟩
  have htally := releaseAll_tally (hfit.resting.ready.later hlater).owned
  rcases own with e' | v
  · exact ⟨e', herror e' rfl, .inr (.inl ⟨rfl, hcourse.fault⟩)⟩
  -- the call itself has worked, so the first error of giving back counts, and there is one
  rcases hrelease : (releaseAll b').1 with e' | u
  swap
  · exact absurd he ((htally.ok hrelease).2 e)
  have hresult := Plan.call_of_release hcheck hperform hrelease
  rw [hcall] at hresult
  refine ⟨e', hresult, ?_⟩
  rcases htally.error e' hrelease with hsome | ⟨-, hanswered | ⟨x, hx, hfatal | ⟨hkind, hout⟩⟩⟩
  · cases hsome
  · -- the guest has failed elsewhere by a trap, so there is something that it runs to free
    have hkind : e'.kind = .trap := (htally.kinds e' hanswered).mpr ((htally.kinds e he).mp htrap)
    unfold BindError.isFatal
    rw [hkind]
    exact .inl rfl
  · exact .inl hfatal
  · have hcovered : d.books.Covered := fun y hy => by
      rw [hfit.resting.settled] at hy
      cases hy
    exact .inr (.inr ⟨⟨v, rfl⟩, hkind, hcourse.overdrawn hcovered hx hout⟩)

/-! ### A guest that hides its traps -/

/-- An array of words in, and bytes out. -/
def echoSignature : Signature := ⟨"echo", [.slice .u32], .vec .u8, .standard⟩

/-- A guest whose allocator has one place only, and traps when it is to free anything but a descriptor. Its
export returns the address of the second word that it was given, so that the host takes three words of its own
for the descriptor of a result. -/
def echoDraft : Draft where
  functions :=
    [⟨Draft.wordType 1 1, .builtin allocExport, .ofCode [] [Code.word 16]⟩,
      ⟨Draft.wordType 2 0, .builtin deallocExport,
        .ofCode [] [Code.val 1, Code.word 12, Code.num .i32Ne, Code.when [.plain .unreachable]]⟩,
      ⟨Draft.typeOf echoSignature, .wrapped "echo", .ofCode [] [Code.val 0, Code.word 4, Code.add]⟩]
  table := SignatureTable.empty.push echoSignature
  tableSection? := some metadataSection
  data := .empty

/-- How it is called. -/
def echoPlan : Plan := ⟨echoSignature, wrappedMark ++ "echo", .metadata⟩

/-- The module that it is loaded as. -/
theorem exists_echo : ∃ bytes m, GuestModule.ofBytes metadataSection bytes = .ok m ∧
    echoDraft.Image m.program ∧ m.table? = some echoDraft.table := by
  have hvalid : (Wasm.Program.ofBytes? echoDraft.toModule.bytes).isSome = true := by
    set_option maxRecDepth 100000 in decide +kernel
  obtain ⟨p, hp⟩ := Option.isSome_iff_exists.mp hvalid
  have himage := Draft.image_of_ofBytes? hp
  have htable := himage.tableOf rfl metadataSection
  rw [if_pos (show echoDraft.tableSection? = some metadataSection from rfl)] at htable
  refine ⟨echoDraft.toModule.bytes, ⟨p, contentDigest echoDraft.toModule.bytes.toByteArray,
    some echoDraft.table, GuestModule.exportsOf p⟩, ?_, himage, rfl⟩
  unfold GuestModule.ofBytes
  simp only [hp, htable]

/-- What the host can call of it. -/
def echoExports : List ExportedFunction :=
  [⟨allocExport, ⟨[.i32], [.i32]⟩, 0⟩, ⟨deallocExport, ⟨[.i32, .i32], []⟩, 1⟩,
    ⟨echoPlan.exportName, echoSignature.shape, 2⟩]

section

variable {m : GuestModule} (himage : echoDraft.Image m.program) (hm : m.Sound)

include himage hm

theorem echo_exports : m.exports.Perm echoExports := by
  have hlisted : m.program.exports.filterMap (GuestModule.exported? m.program) = echoExports := by
    unfold GuestModule.exported? Wasm.Program.functionType?
    rw [himage.exports, himage.signatures]
    rfl
  rw [hm.exports, GuestModule.exportsOf, hlisted]
  exact List.mergeSort_perm _ _

theorem echo_find? {f : ExportedFunction} (hf : f ∈ echoExports) : m.find? f.name = some f :=
  (GuestModule.find?_eq_some hm).mpr ⟨(echo_exports himage hm).mem_iff.mpr hf, rfl⟩

/-- Its one wrapped export is planned with its signature. -/
theorem echo_planned (htable : m.table? = some echoDraft.table) :
    ∃ plans, Plan.ofModule m wrappedMark = .ok plans ∧
      plans.find? (·.1 == "echo") = some ("echo", echoPlan) := by
  have hexports := echo_exports himage hm
  have hplan : Plan.ofExport m ⟨echoPlan.exportName, echoSignature.shape, 2⟩ "echo" = .ok echoPlan := by
    unfold Plan.ofExport GuestModule.declared?
    rw [htable]
    exact Plan.make_of_check (by decide) rfl
  have hnamed : ∀ f ∈ echoExports, ∀ name, Plan.hostName? wrappedMark f = some name →
      name = "echo" ∧ f = ⟨echoPlan.exportName, echoSignature.shape, 2⟩ := by
    intro f hf name hname
    have hall : ∀ f ∈ echoExports, (Plan.hostName? wrappedMark f).all
        fun name => name = "echo" ∧ f = ⟨echoPlan.exportName, echoSignature.shape, 2⟩ := by decide
    have hone := hall f hf
    rw [hname] at hone
    simpa using hone
  have hwrapped : ⟨echoPlan.exportName, echoSignature.shape, 2⟩ ∈ m.exports :=
    hexports.mem_iff.mpr (.tail _ (.tail _ (.head _)))
  obtain ⟨plans, hplans⟩ : ∃ plans, Plan.ofModule m wrappedMark = .ok plans := by
    refine Plan.exists_ofModule (fun f hf name hname => ?_) fun table h s hs => ?_
    · obtain ⟨rfl, rfl⟩ := hnamed f (hexports.mem_iff.mp hf) name hname
      exact ⟨_, hplan⟩
    · obtain rfl := Option.some.inj (htable.symm.trans h)
      obtain rfl := List.mem_singleton.mp hs
      exact ⟨_, hwrapped, by decide⟩
  have hname : Plan.hostName? wrappedMark ⟨echoPlan.exportName, echoSignature.shape, 2⟩ = some "echo" := by
    decide
  obtain ⟨p, hp, hofExport⟩ := Plan.mem_of_ofModule hplans hwrapped hname
  obtain rfl := Except.ok.inj (hplan.symm.trans hofExport)
  have hdistinct := Plan.nodup_ofExports hm (Plan.ofModule_eq_ok.mp hplans).1
  exact ⟨plans, hplans, find?_of_nodup hdistinct hp⟩

end

namespace Instance

variable {i : Instance} {name : String} {index : Nat} {raw : List CoreValue}

/-- A run that leaves the store alone leaves an instance alone that was just looked at. -/
theorem run_results_still (hlook : i.observe = i) {stack : List Wasm.Val}
    (hinvoke : i.module.program.invoke Wasm.depthLimit index (raw.reverse.map .ofCore) i.store =
      .results stack i.store) :
    i.run name index raw = (.ok (stack.reverse.filterMap Wasm.Val.core?), i) := by
  obtain ⟨module, store, pageLimit, epoch, observed⟩ := i
  simp only [run, hinvoke, hlook]

theorem run_trap_still (hlook : i.observe = i) {cause : Wasm.Trap}
    (hinvoke : i.module.program.invoke Wasm.depthLimit index (raw.reverse.map .ofCore) i.store =
      .trap cause i.store) :
    i.run name index raw = (.error (.trap name raw (.machine cause)), i) := by
  obtain ⟨module, store, pageLimit, epoch, observed⟩ := i
  simp only [run, hinvoke, hlook]

end Instance

/-- An instance of it that was just looked at. -/
structure Echoes (i : Instance) : Prop where
  image : echoDraft.Image i.module.program
  sound : i.module.Sound
  epoch : i.epoch = 0
  observed : i.observed = pageSize
  size : i.memoryLength = pageSize

theorem Echoes.look {i : Instance} (h : Echoes i) : i.observe = i := if_pos (h.size.trans h.observed.symm)

theorem Echoes.epoch_eq {i : Instance} (h : Echoes i) : GuestAllocator.epoch i = (0, i) := by
  change (i.observe.epoch, i.observe) = _
  rw [h.look, h.epoch]

/-- What the guest answers. It never changes. -/
theorem Echoes.calls {i : Instance} (h : Echoes i) :
    (∀ n, i.call allocExport [.i32 n] = (.ok [.i32 16], i)) ∧
    (∀ ptr len, i.call deallocExport [.i32 ptr, .i32 len] =
      (if len = 12 then .ok []
        else .error (.trap deallocExport [.i32 ptr, .i32 len] (.machine .unreachable)), i)) ∧
    ∀ ptr len, i.call echoPlan.exportName [.i32 ptr, .i32 len] = (.ok [.i32 (ptr + 4)], i) := by
  have hlook := h.look
  obtain ⟨himage, hm, -, -, -⟩ := h
  have halloc := echo_find? himage hm (List.Mem.head _)
  have hdealloc := echo_find? himage hm (.tail _ (.head _))
  have hecho := echo_find? himage hm (.tail _ (.tail _ (.head _)))
  have hat := Instance.at_self i
  have hdepth : Wasm.depthLimit = 999 + 1 := rfl
  have hallocCode := himage.code (i := 0) rfl (by decide)
  have hdeallocCode := himage.code (i := 1) rfl (by decide)
  have hechoCode := himage.code (i := 2) rfl (by decide)
  refine ⟨fun n => ?_, fun ptr len => ?_, fun ptr len => ?_⟩
  · rw [Instance.call_eq_run hat halloc rfl]
    refine @Instance.run_results_still _ _ _ _ hlook [.i32 16] ?_
    rw [hdepth, Wasm.Program.invoke_succ _ hallocCode]
    simp [Wasm.Function.start]
    rfl
  · rw [Instance.call_eq_run hat hdealloc rfl]
    by_cases hlen : len = 12
    · rw [if_pos hlen]
      refine @Instance.run_results_still _ _ _ _ hlook [] ?_
      rw [hdepth, Wasm.Program.invoke_succ _ hdeallocCode]
      simp [Wasm.Function.start, Wasm.Val.ofCore, hlen]
      rfl
    · rw [if_neg hlen]
      refine Instance.run_trap_still hlook ?_
      rw [hdepth, Wasm.Program.invoke_succ _ hdeallocCode]
      simp [Wasm.Function.start, Wasm.Val.ofCore, hlen]
      rfl
  · rw [Instance.call_eq_run hat hecho rfl]
    refine @Instance.run_results_still _ _ _ _ hlook [.i32 (ptr + 4)] ?_
    rw [hdepth, Wasm.Program.invoke_succ _ hechoCode]
    simp [Wasm.Function.start, Wasm.Val.ofCore]
    rfl

/-- The guest in service, not used yet. -/
theorem echo_serves : ∃ (m : GuestModule) (d : Binding), d.Serves m ∧ d.plan? "echo" = some echoPlan ∧
    d.books.ledger = .empty ∧ Echoes d.books.guest := by
  obtain ⟨bytes, m, hm, himage, htable⟩ := exists_echo
  obtain ⟨-, -, hsound⟩ := GuestModule.sound_of_ofBytes hm
  obtain ⟨plans, hplans, hfind⟩ := echo_planned himage hsound htable
  obtain ⟨store, hstore, hsize⟩ : ∃ store, m.program.freshStore = .ok store ∧
      store.memory.size = pageSize := by
    refine ⟨⟨.zeroed 1 (some 256), m.program.globals.map Wasm.Global.start⟩, ?_,
      (Memory.size_zeroed ..).trans (Nat.one_mul _)⟩
    unfold Wasm.Program.freshStore
    rw [himage.imports, himage.memory_eq, himage.segments, himage.start]
    rfl
  have hshows : m.program.showsMemory memoryExport = true := by
    unfold Wasm.Program.showsMemory
    rw [himage.exports]
    decide
  obtain ⟨i, hi, rfl, hechoes⟩ : ∃ i, Instance.ofModule m .default = .ok i ∧ i.module = m ∧ Echoes i := by
    refine ⟨⟨m, store, Config.default.maxMemoryPages, 0, store.memory.size⟩, ?_, rfl,
      ⟨himage, hsound, rfl, hsize, hsize⟩⟩
    unfold Instance.ofModule
    rw [hstore]
    exact if_pos hshows
  have hbound : Binding.ofInstance i .default = .ok ⟨Config.default.accessStyle, plans, ⟨.empty, i⟩⟩ := by
    unfold Binding.ofInstance
    rw [show Config.default.exportMark = wrappedMark from rfl, hplans]
  refine ⟨i.module, _, .bound hm hi (.refl i) hbound, ?_, rfl, hechoes⟩
  unfold Binding.plan?
  dsimp only
  rw [hfind]
  rfl

/-- A word, and a descriptor behind it. -/
def words (d : Descriptor) : ScalarArray := .ofElements .u32 [0, d.ptr, d.len, d.cap]

/-- The buffer of the words. -/
def wordsHandle : Handle := ⟨0, 16, 16, true, 0⟩

/-- Writing them puts the descriptor in place. -/
theorem write_words {memory : Memory} (h : 32 ≤ memory.size) (d : Descriptor) :
    memory.write 16 ((words d).items.flatMap LittleEndian.encode).toByteArray =
      (memory.write 16 (LittleEndian.put32 0).toByteArray).putDescriptor 20 d := by
  have happend : ∀ (first : List UInt8) (v : UInt32), first.length ≤ 12 →
      (memory.write 16 first.toByteArray).write (16 + first.length) (LittleEndian.put32 v).toByteArray =
        memory.write 16 (first ++ LittleEndian.put32 v).toByteArray := fun first v hlength =>
    Memory.write_append (by rw [show (LittleEndian.put32 v).length = 4 from rfl]; omega)
  have hptr := happend (LittleEndian.put32 0) d.ptr (by decide)
  have hlen := happend (LittleEndian.put32 0 ++ LittleEndian.put32 d.ptr) d.len (Nat.le_of_ble_eq_true rfl)
  have hcap := happend (LittleEndian.put32 0 ++ LittleEndian.put32 d.ptr ++ LittleEndian.put32 d.len) d.cap
    (Nat.le_of_ble_eq_true rfl)
  rw [← hlen, ← hptr] at hcap
  exact hcap.symm

/-- Once the words are written, the descriptor is found among them. -/
theorem Echoes.writes {i : Instance} (h : Echoes i) (style : AccessStyle) (d : Descriptor) :
    ∃ i', Echoes i' ∧
      (Instance.onMemory fun memory => memory.writeScalars style 16 (words d).items) i = (.ok (), i') ∧
      Descriptor.read style i'.store.memory 20 = .ok d := by
  have hsize : i.store.memory.size = pageSize := h.size
  obtain ⟨first, hfirst⟩ : ∃ first, first = i.store.memory.write 16 (LittleEndian.put32 0).toByteArray :=
    ⟨_, rfl⟩
  have hfirstSize : first.size = pageSize := by rw [hfirst, Memory.size_write, hsize]
  have hwrite : i.store.memory.writeScalars style 16 (words d).items =
      (.ok (), first.putDescriptor 20 d) := by
    have hencode : style.encode = LittleEndian.encode := funext style.encode_eq
    have hroom : (16 : UInt32).toNat + (words d).items.length * (words d).kind.width ≤
        i.store.memory.size := by
      rw [hsize]
      exact Nat.le_of_ble_eq_true rfl
    rw [Memory.writeScalars_eq_ok style _ _ _ (words d).homogeneous (by rw [hsize]; decide) hroom, hencode,
      hfirst, ← write_words (by rw [hsize]; decide)]
    rfl
  have hread : Descriptor.read style (first.putDescriptor 20 d) 20 = .ok d :=
    @Descriptor.read_putDescriptor style first 20 d (by rw [hfirstSize]; decide) (by rw [hfirstSize]; decide)
  have hput : (first.putDescriptor 20 d).size = pageSize := (Memory.size_putDescriptor ..).trans hfirstSize
  generalize first.putDescriptor 20 d = memory at hwrite hread hput
  refine ⟨{ i with store := ⟨memory, i.store.globals⟩ }, ⟨h.image, h.sound, h.epoch, h.observed, hput⟩, ?_,
    hread⟩
  unfold Instance.onMemory
  dsimp only
  rw [hwrite]

/-- The guest hands out its one place. -/
theorem Echoes.takes {i : Instance} (h : Echoes i) :
    takeBuffer 16 ⟨.empty, i⟩ = (.ok wordsHandle, ⟨Ledger.empty.enter wordsHandle, i⟩) := by
  have halloc : allocate 16 ⟨.empty, i⟩ = (.ok wordsHandle, ⟨Ledger.empty.enter wordsHandle, i⟩) := by
    have hanswer : i.alloc 16 = (.ok 16, i) := by
      unfold Instance.alloc
      rw [echo_find? h.image h.sound (.head _)]
      dsimp only
      rw [h.calls.1]
      rfl
    unfold allocate
    dsimp only
    rw [show GuestAllocator.alloc i 16 = _ from hanswer]
    dsimp only
    rw [if_neg (by decide)]
    unfold adopt
    dsimp only
    rw [h.epoch_eq]
    rfl
  have hstop : wordsHandle.stop ≤ i.memoryLength := by
    rw [h.size]
    decide
  unfold takeBuffer
  rw [bind_ok halloc, bind_ok (ensure_of_le hstop)]
  rfl

/-- The words are passed, and a descriptor is found among them. -/
theorem Echoes.passes {i : Instance} (h : Echoes i) (style : AccessStyle) (d : Descriptor) :
    ∃ i', Echoes i' ∧ passArguments style echoPlan.exportName
        (echoSignature.params.zip [.byValue (.array (words d))]) ⟨.empty, i⟩ =
      (.ok [⟨[.i32 16, .i32 4], some wordsHandle⟩], ⟨Ledger.empty.enter wordsHandle, i'⟩) ∧
    Descriptor.read style i'.store.memory 20 = .ok d := by
  obtain ⟨i', h', hwrite, hread⟩ := h.writes style d
  have hpass : passArray style (words d) ⟨.empty, i⟩ =
      (.ok wordsHandle, ⟨Ledger.empty.enter wordsHandle, i'⟩) := by
    have hcount : ofExcept (bufferLength (words d).length (words d).kind.width)
        (⟨.empty, i⟩ : Books Instance) = (.ok 16, ⟨.empty, i⟩) := rfl
    have hwritten : onGuest (Instance.onMemory fun memory => memory.writeScalars style 16 (words d).items)
        ⟨Ledger.empty.enter wordsHandle, i⟩ = (.ok (), ⟨Ledger.empty.enter wordsHandle, i'⟩) :=
      onGuest_eq hwrite
    exact (bind_ok hcount).trans ((bind_ok h.takes).trans (bind_ok hwritten))
  have hargument : passArgument style echoPlan.exportName (.slice .u32) (.byValue (.array (words d)))
      ⟨.empty, i⟩ = (.ok ⟨[.i32 16, .i32 4], some wordsHandle⟩, ⟨Ledger.empty.enter wordsHandle, i'⟩) :=
    bind_ok hpass
  exact ⟨i', h', bind_ok hargument, hread⟩

/-- What is out once the descriptor was followed: the words, the data, and the descriptor. -/
def owing (d : Descriptor) : Ledger :=
  ((Ledger.empty.enter wordsHandle).enter (d.dataHandle 1 1 0)).enter (Descriptor.ownHandle 20 2 0)

/-- What comes of a descriptor: it is refused if it has more elements than it has room for. -/
def echoResult (d : Descriptor) : Except BindError Value :=
  if d.cap < d.len then .error (.encoding echoPlan.exportName (.lengthExceedsCapacity d.len d.cap))
  else .ok (.array (.ofElements .u8 []))

/-- A call up to giving its buffers back, for a descriptor that is refused or has no elements. -/
theorem Echoes.performs {i : Instance} (h : Echoes i) (style : AccessStyle) {d : Descriptor}
    (hfits : d.Fits 1) (hlen : d.cap < d.len ∨ d.len = 0) : ∃ i', Echoes i' ∧
      echoPlan.perform style [.byValue (.array (words d))] ⟨.empty, i⟩ =
        (echoResult d, [.byValue (.array (words d))], ⟨owing d, i'⟩) := by
  obtain ⟨i', h', hpass, hread⟩ := h.passes style d
  have hcall : onGuest (Instance.call echoPlan.exportName [.i32 16, .i32 4])
      ⟨Ledger.empty.enter wordsHandle, i'⟩ = (.ok [.i32 20], ⟨Ledger.empty.enter wordsHandle, i'⟩) :=
    onGuest_eq (h'.calls.2.2 16 4)
  have hfollowed : (⟨Ledger.empty.enter wordsHandle, i'⟩ : Books Instance).followed d 1 20 =
      ⟨owing d, i'⟩ := by
    unfold Books.followed
    dsimp only
    rw [h'.look, h'.epoch]
    rfl
  have hne : (20 : UInt32) ≠ 0 := by decide
  have hadopt := adoptBuffer_eq style echoPlan.exportName 1 (b := ⟨Ledger.empty.enter wordsHandle, i'⟩)
    hne hread
  rw [if_pos hfits, hfollowed] at hadopt
  have hdecode : decodeResult style echoPlan.exportName echoPlan.signature.ret [.i32 20]
      ⟨Ledger.empty.enter wordsHandle, i'⟩ = (echoResult d, ⟨owing d, i'⟩) := by
    unfold echoResult
    rcases hlen with hlen | hlen
    · rw [if_pos hlen] at hadopt ⊢
      exact decodeResult_refused rfl hadopt
    · have hcovered : ¬ d.cap < d.len := by
        rw [hlen]
        exact Nat.not_lt_zero _
      rw [if_neg hcovered, hlen] at hadopt
      rw [if_neg hcovered]
      have hfirst : ofExcept (firstResult echoPlan.exportName (.vec .u8) [.i32 20])
          (⟨Ledger.empty.enter wordsHandle, i'⟩ : Books Instance) =
            (.ok (.i32 20), ⟨Ledger.empty.enter wordsHandle, i'⟩) := rfl
      refine (bind_ok hfirst).trans (bind_ok ((bind_ok hadopt).trans ?_))
      rfl
  have hcopy : copyBackAll style (echoPlan.signature.params.zip [⟨[.i32 16, .i32 4], some wordsHandle⟩])
      [.byValue (.array (words d))] ⟨Ledger.empty.enter wordsHandle, i'⟩ =
        (.ok (), [.byValue (.array (words d))], ⟨Ledger.empty.enter wordsHandle, i'⟩) := rfl
  refine ⟨i', h', ?_⟩
  unfold Plan.perform
  rw [show echoPlan.signature.params = echoSignature.params from rfl, hpass]
  dsimp only
  unfold Plan.finish
  rw [show ([⟨[.i32 16, .i32 4], some wordsHandle⟩] : List Passed).flatMap (·.raw) =
    [.i32 16, .i32 4] from rfl, hcall]
  dsimp only
  rw [hcopy]
  dsimp only
  rw [hdecode]
  rcases echoResult d with e | v <;> rfl

/-- How the guest traps when it is to free a place. -/
def echoTrap (ptr len : UInt32) : BindError :=
  .trap deallocExport [.i32 ptr, .i32 len] (.machine .unreachable)

/-- What the guest answers when it is to free a place. -/
def echoAnswer (ptr len : UInt32) : Except BindError Unit :=
  if len = 12 then .ok () else .error (echoTrap ptr len)

theorem Echoes.frees {i : Instance} (h : Echoes i) (answers : List (Except BindError Unit))
    (ptr len : UInt32) :
    GuestAllocator.free (⟨i, answers⟩ : Heard Instance) ptr len =
      (echoAnswer ptr len, ⟨i, echoAnswer ptr len :: answers⟩) := by
  have hfree : i.free ptr len = (echoAnswer ptr len, i) := by
    rw [Instance.free_eq, h.calls.2.1]
    unfold echoAnswer
    split <;> rfl
  change ((i.free ptr len).1, (⟨(i.free ptr len).2, (i.free ptr len).1 :: answers⟩ : Heard Instance)) = _
  rw [hfree]

/-- The guest is asked about a handle that lies in its memory. -/
theorem Echoes.givesBack {i : Instance} (h : Echoes i) {x : Handle} {l : Ledger}
    (howned : x.owned = true) (hepoch : x.epoch = 0) (hkept : l.isReleased x.id = false)
    (hinside : x.stop ≤ pageSize) (hout : ∃ o ∈ (l.restamp x).outstanding, o.id = x.id)
    (answers : List (Except BindError Unit)) :
    refreshRelease x ⟨l, (⟨i, answers⟩ : Heard Instance)⟩ = (echoAnswer x.ptr x.len,
      ⟨(l.restamp x).settle x.id, ⟨i, echoAnswer x.ptr x.len :: answers⟩⟩) := by
  have hlook : GuestAllocator.epoch (⟨i, answers⟩ : Heard Instance) = (x.epoch, ⟨i, answers⟩) := by
    change ((GuestAllocator.epoch i).1, (⟨(GuestAllocator.epoch i).2, answers⟩ : Heard Instance)) = _
    rw [h.epoch_eq, hepoch]
  have hcovered : x.stop ≤ GuestAllocator.memoryLength (⟨i, answers⟩ : Heard Instance) :=
    Nat.le_trans hinside (Nat.le_of_eq h.size.symm)
  unfold refreshRelease andThen
  rw [refresh_kept hkept hcovered hlook]
  exact release_current howned hkept hlook hout (h.frees answers x.ptr x.len)

/-- The guest is not asked about a handle that reaches out of its memory. -/
theorem Echoes.leavesOut {i : Instance} (h : Echoes i) {x : Handle} {l : Ledger}
    (hkept : l.isReleased x.id = false) (hout : pageSize < x.stop)
    (answers : List (Except BindError Unit)) :
    refreshRelease x ⟨l, (⟨i, answers⟩ : Heard Instance)⟩ =
      (.error (.outOfBounds x.ptr.toNat x.len.toNat pageSize), ⟨l, ⟨i, answers⟩⟩) := by
  have hlength : GuestAllocator.memoryLength (⟨i, answers⟩ : Heard Instance) = pageSize := h.size
  unfold refreshRelease andThen refresh
  dsimp only
  rw [hkept, Bool.and_false, if_neg Bool.false_ne_true, hlength, if_pos hout]

/-- One handle after the other: the guest is asked about those that lie in its memory. -/
theorem Echoes.next {i : Instance} (h : Echoes i) {x : Handle} {below : List Handle} {l : Ledger}
    (howned : x.owned = true) (hepoch : x.epoch = 0) (hkept : l.isReleased x.id = false)
    (hout : l.outstanding = x :: below) (hothers : ∀ y ∈ below, y.id ≠ x.id)
    (count : Nat) (first? : Option BindError) (answers : List (Except BindError Unit)) :
    ∃ one l' answers', releaseNewest (count + 1) first? ⟨l, (⟨i, answers⟩ : Heard Instance)⟩ =
        releaseNewest count (match one with
          | .ok _ => first?
          | .error e => first?.or (some e)) ⟨l', ⟨i, answers'⟩⟩ ∧
      l'.outstanding = below ∧ (∀ id, id ≠ x.id → l'.isReleased id = l.isReleased id) ∧
      (x.stop ≤ pageSize → one = echoAnswer x.ptr x.len ∧ answers' = one :: answers) ∧
      (pageSize < x.stop → one = .error (.outOfBounds x.ptr.toNat x.len.toNat pageSize) ∧
        answers' = answers) := by
  have hrestamped : (l.restamp x).outstanding = x :: below := by
    unfold restamp
    rw [hout]
    dsimp only
    rw [List.map_cons, if_pos rfl]
    congr 1
    exact (List.map_congr_left fun y hy => if_neg (hothers y hy)).trans (List.map_id _)
  have hfilter : (x :: below).filter (·.id != x.id) = below := by
    rw [List.filter_cons_of_neg (by simp)]
    exact List.filter_eq_self.mpr fun y hy => by simpa using hothers y hy
  by_cases hinside : x.stop ≤ pageSize
  · have hnotOut := Nat.not_lt.mpr hinside
    have hone := h.givesBack howned hepoch hkept hinside
      ⟨x, by rw [hrestamped]; exact List.mem_cons_self, rfl⟩ answers
    have hsettled : ((l.restamp x).settle x.id).outstanding = below := by
      unfold settle
      dsimp only
      rw [hrestamped, hfilter]
    have hnoted : ∀ id, id ≠ x.id → ((l.restamp x).settle x.id).isReleased id = l.isReleased id := by
      intro id hne
      change (decide (id < l.releasedBelow) || (x.id :: l.released).contains id) = _
      rw [List.contains_cons, beq_false_of_ne hne, Bool.false_or]
      rfl
    rw [releaseNewest, hout]
    dsimp only
    rw [hone]
    refine ⟨echoAnswer x.ptr x.len, ?_⟩
    rcases echoAnswer x.ptr x.len with e | u
    · refine ⟨_, _, rfl, ?_, hnoted, fun _ => ⟨rfl, rfl⟩, fun hreach => absurd hreach hnotOut⟩
      unfold drop
      dsimp only
      rw [hsettled]
      exact List.filter_eq_self.mpr fun y hy => by simpa using hothers y hy
    · exact ⟨_, _, rfl, hsettled, hnoted, fun _ => ⟨rfl, rfl⟩, fun hreach => absurd hreach hnotOut⟩
  · have hone := h.leavesOut hkept (Nat.not_le.mp hinside) answers
    rw [releaseNewest, hout]
    dsimp only
    rw [hone]
    refine ⟨.error _, _, _, rfl, ?_, fun _ _ => rfl, fun hin => absurd hin hinside, fun _ => ⟨rfl, rfl⟩⟩
    unfold drop
    dsimp only
    rw [hout, hfilter]

/-- Giving everything back: the descriptor is freed, then comes the data, and at last the guest traps on the
words. -/
theorem Echoes.cleanup {i : Instance} (h : Echoes i) (d : Descriptor) :
    (∃ e, .error e ∈ (⟨owing d, i⟩ : Books Instance).freeAnswers ∧ e.kind = .trap) ∧
    (pageSize < (d.dataHandle 1 1 0).stop → ∃ e,
      (releaseAll (⟨owing d, i⟩ : Books Instance)).1 = .error e ∧ e.kind = .outOfBounds) := by
  have hdata : (d.dataHandle 1 1 0).id = 1 := rfl
  obtain ⟨one₁, l₁, answers₁, hrun₁, hout₁, hkept₁, hfreed, -⟩ :=
    h.next (x := Descriptor.ownHandle 20 2 0) (l := owing d) rfl rfl rfl rfl (by
      intro y hy
      rcases List.mem_cons.mp hy with rfl | hy
      · exact Nat.ne_of_lt (Nat.lt_succ_self 1)
      · obtain rfl := List.mem_singleton.mp hy
        decide) 2 none []
  obtain ⟨rfl, rfl⟩ := hfreed (by decide)
  obtain ⟨one₂, l₂, answers₂, hrun₂, hout₂, hkept₂, -, hleft⟩ :=
    h.next (x := d.dataHandle 1 1 0) (l := l₁) rfl rfl (hkept₁ 1 (by decide)) hout₁ (by
      intro y hy
      obtain rfl := List.mem_singleton.mp hy
      exact Nat.zero_ne_one) 1 none [.ok ()]
  have hwords : l₂.isReleased wordsHandle.id = false :=
    (hkept₂ 0 Nat.zero_ne_one).trans (hkept₁ 0 (by decide))
  obtain ⟨one₃, l₃, answers₃, hrun₃, -, -, htrapped, -⟩ :=
    h.next (x := wordsHandle) (l := l₂) rfl rfl hwords hout₂ nofun 0 _ answers₂
  obtain ⟨rfl, rfl⟩ := htrapped (by decide)
  obtain ⟨first, hfirst⟩ : ∃ first, (match one₂ with
      | .ok _ => none
      | .error e => some e : Option BindError).or (some (echoTrap 16 16)) = some first := by
    rcases one₂ with e | u
    · exact ⟨e, rfl⟩
    · exact ⟨_, rfl⟩
  have hall : releaseAll (⟨owing d, i⟩ : Books Instance).heard =
      (.error first, ⟨l₃.close, ⟨i, .error (echoTrap 16 16) :: answers₂⟩⟩) := by
    have hrun : releaseNewest 3 none (⟨owing d, i⟩ : Books Instance).heard =
        (.error first, ⟨l₃, ⟨i, .error (echoTrap 16 16) :: answers₂⟩⟩) :=
      (hrun₁.trans (hrun₂.trans hrun₃)).trans (congrFun (congrArg (releaseNewest 0) hfirst) _)
    unfold releaseAll
    rw [show (⟨owing d, i⟩ : Books Instance).heard.ledger.outstanding.length = 3 from rfl, hrun]
  refine ⟨⟨echoTrap 16 16, ?_, rfl⟩, fun hreach => ⟨first, ?_, ?_⟩⟩
  · unfold Books.freeAnswers
    rw [hall]
    exact List.mem_reverse.mpr List.mem_cons_self
  · rw [releaseAll_heard, hall]
  · obtain ⟨rfl, rfl⟩ := hleft hreach
    obtain rfl := Option.some.inj hfirst
    rfl

namespace Binding

/-- A call whose buffers are given back with a trap, and whose error says that the guest can go on. -/
def HidesTrap (d : Binding) (name : String) (arguments : List Argument) : Prop :=
  ∃ p own arguments' b' e e', d.plan? name = some p ∧ p.check arguments = .ok () ∧
    p.perform d.style arguments d.books = (own, arguments', b') ∧
    .error e ∈ b'.freeAnswers ∧ e.kind = .trap ∧
    (d.call name arguments).1 = .error e' ∧ e'.isFatal = false

end Binding

/-- A descriptor that is refused: it has one element and no room. -/
def refusedDescriptor : Descriptor := ⟨0, 1, 0⟩

/-- A descriptor that claims more room than there is memory. -/
def wideDescriptor : Descriptor := ⟨0, 0, 0xFFFFFFFF⟩

/-- The call comes to giving its buffers back, and traps there. -/
theorem echo_performs {d : Binding} (hledger : d.books.ledger = .empty) (h : Echoes d.books.guest)
    {x : Descriptor} (hfits : x.Fits 1) (hlen : x.cap < x.len ∨ x.len = 0) :
    ∃ b', echoPlan.perform d.style [.byValue (.array (words x))] d.books =
        (echoResult x, [.byValue (.array (words x))], b') ∧
      (∃ e, .error e ∈ b'.freeAnswers ∧ e.kind = .trap) ∧
      (pageSize < (x.dataHandle 1 1 0).stop → ∃ e, (releaseAll b').1 = .error e ∧ e.kind = .outOfBounds) := by
  obtain ⟨i', h', hperform⟩ := h.performs d.style hfits hlen
  rw [show (⟨.empty, d.books.guest⟩ : Books Instance) = d.books from
    congrArg (Books.mk · d.books.guest) hledger.symm] at hperform
  exact ⟨_, hperform, h'.cleanup x⟩

/-- **Both ways in which a trap is hidden**: behind the error that the call had before, and behind that of a
buffer that reaches out of the memory. -/
theorem two_traps_are_hidden : ∃ (m : GuestModule) (d : Binding), d.Serves m ∧
    d.HidesTrap "echo" [.byValue (.array (words refusedDescriptor))] ∧
    d.HidesTrap "echo" [.byValue (.array (words wideDescriptor))] := by
  obtain ⟨m, d, hd, hplan, hledger, hechoes⟩ := echo_serves
  refine ⟨m, d, hd, ?_, ?_⟩
  · obtain ⟨b', hperform, ⟨e, he, htrap⟩, -⟩ := echo_performs hledger hechoes
      (x := refusedDescriptor) (by decide) (by decide)
    obtain ⟨result, hcall, herror, -⟩ := Plan.call_of_perform rfl hperform
    refine ⟨echoPlan, _, _, b', e, .encoding echoPlan.exportName (.lengthExceedsCapacity 1 0), hplan, rfl,
      hperform, he, htrap, ?_, rfl⟩
    rw [Binding.call_eq hplan, hcall]
    exact herror _ rfl
  · obtain ⟨b', hperform, ⟨e, he, htrap⟩, houtside⟩ := echo_performs hledger hechoes
      (x := wideDescriptor) (by decide) (by decide)
    obtain ⟨e', hrelease, hkind⟩ := houtside (by decide)
    refine ⟨echoPlan, _, _, b', e, e', hplan, rfl, hperform, he, htrap, ?_, ?_⟩
    · rw [Binding.call_eq hplan]
      exact Plan.call_of_release rfl hperform hrelease
    · unfold BindError.isFatal
      rw [hkind]
      rfl

/-- The first way again: the call returns its own error. -/
theorem refused_descriptor_surfaces : ∃ (m : GuestModule) (d : Binding) (own : Except BindError Value)
    (e' : BindError), d.Serves m ∧
    (d.call "echo" [.byValue (.array (words refusedDescriptor))]).1 = .error e' ∧
    (e'.isFatal = true ∨ own = .error e' ∧ echoPlan.CallFault e') := by
  obtain ⟨m, d, hd, hplan, hledger, hechoes⟩ := echo_serves
  obtain ⟨b₀, hperform, ⟨e, he, htrap⟩, -⟩ := echo_performs hledger hechoes
    (x := refusedDescriptor) (by decide) (by decide)
  obtain ⟨own, arguments', b', result, hown, hcall, -, htraps⟩ :=
    ((traps_surface hd "echo" [.byValue (.array (words refusedDescriptor))]).2 echoPlan hplan).2 rfl
  rw [hperform] at hown
  cases hown
  obtain ⟨e', rfl, hkinds⟩ := htraps e he htrap
  refine ⟨m, d, _, e', hd, by rw [hcall], hkinds.imp_right fun h => h.resolve_right ?_⟩
  rintro ⟨⟨v, hv⟩, -⟩
  cases hv

end GuestCall
