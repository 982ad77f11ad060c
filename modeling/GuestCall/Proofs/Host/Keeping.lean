/-
# Hosts that keep modules

A host that keeps the modules it has loaded answers as one that loads every module anew, whatever is asked
of it, as long as no two of the byte strings have one digest. What it answers is a function of the bytes and
the configuration (`Request.answer`). It keeps one module for each of the byte strings that it has loaded
since it last forgot them, and from then on it finds that very module. A load that fails leaves nothing.

Key definitions: `Host.Request`, `Host.Answer`, `Host.run` and `Host.after`; `Host.loadedSince`, the byte
strings that are loaded after the modules were last forgotten; `Host.Keeps`, the invariant.
Key theorems: `Keeps.load`, `Keeps.step`, `find?_after`, `Host.keeping_is_transparent`.
-/
import Mathlib.Data.List.Dedup
import Mathlib.Data.List.DropRight
import GuestCall.Host
import GuestCall.Proofs.Guest.Exports

namespace GuestCall

theorem GuestModule.digest_of_ofBytes {name : String} {bytes : List UInt8} {m : GuestModule}
    (h : ofBytes name bytes = .ok m) : m.digest = contentDigest bytes.toByteArray := by
  unfold ofBytes at h
  split at h
  · cases h
  · split at h
    · cases h
    · cases h
      rfl

namespace Host

/-! ### Requests -/

/-- What a host is asked for. -/
inductive Request where
  | load (bytes : List UInt8)
  | instantiate (bytes : List UInt8)
  | bind (bytes : List UInt8)
  /-- To forget the modules it keeps. -/
  | forget

/-- What a host answers. -/
inductive Answer where
  | loaded (result : Except BindError LoadedModule)
  | instantiated (result : Except BindError Instance)
  | bound (result : Except BindError Binding)
  | forgotten

namespace Request

/-- The bytes that a request is about. All requests about bytes load them. -/
def bytes? : Request → Option (List UInt8)
  | .load bytes | .instantiate bytes | .bind bytes => some bytes
  | .forget => none

/-- Every request but the one to forget loads bytes. -/
def isLoad (r : Request) : Bool := r.bytes?.isSome

/-- What a request has to be answered, if serial numbers do not matter: a function of its bytes. -/
def answer (c : Config) : Request → Answer
  | .load bytes => .loaded ((GuestModule.ofBytes c.metadataSection bytes).map fun m => ⟨0, m⟩)
  | .instantiate bytes =>
    .instantiated ((GuestModule.ofBytes c.metadataSection bytes).bind fun m => Instance.ofModule m c)
  | .bind bytes =>
    .bound (((GuestModule.ofBytes c.metadataSection bytes).bind fun m => Instance.ofModule m c).bind
      fun i => Binding.ofInstance i c)
  | .forget => .forgotten

end Request

/-- The answer without the serial number of a module. -/
def Answer.unnumbered : Answer → Answer
  | .loaded result => .loaded (result.map fun loaded => ⟨0, loaded.module⟩)
  | a => a

/-- A host answers a request. -/
def step (h : Host) : Request → Answer × Host
  | .load bytes => ((h.load bytes).map .loaded id)
  | .instantiate bytes => ((h.instantiate bytes).map .instantiated id)
  | .bind bytes => ((h.bind bytes).map .bound id)
  | .forget => (.forgotten, h.forget)

/-- A host answers some requests, one after the other. -/
def run (h : Host) : List Request → List Answer × Host
  | [] => ([], h)
  | r :: rest =>
    match h.step r with
    | (a, h) =>
      match h.run rest with
      | (answers, h) => (a :: answers, h)

/-- The host after some requests. -/
def after (h : Host) (requests : List Request) : Host := (h.run requests).2

/-- The byte strings that requests load after the last one that makes the host forget. -/
def loadedSince (c : Config) (requests : List Request) : List (List UInt8) :=
  ((requests.rtakeWhile Request.isLoad).filterMap Request.bytes?).filter fun bytes =>
    (GuestModule.ofBytes c.metadataSection bytes).isOk

variable {c : Config} {h : Host} {r : Request} {bytes : List UInt8}

theorem after_cons (h : Host) (r : Request) (rest : List Request) :
    h.after (r :: rest) = (h.step r).2.after rest := rfl

theorem after_append (h : Host) : ∀ first second : List Request,
    h.after (first ++ second) = (h.after first).after second
  | [], _ => rfl
  | r :: first, second => by
    rw [List.cons_append, after_cons, after_cons, after_append]

/-- The answers are those of the steps. -/
theorem run_append (h : Host) : ∀ first second : List Request,
    (h.run (first ++ second)).1 = (h.run first).1 ++ ((h.after first).run second).1
  | [], _ => rfl
  | r :: first, second => by
    have hrest := run_append (h.step r).2 first second
    exact congrArg ((h.step r).1 :: ·) hrest

theorem instantiate_snd (h : Host) (bytes : List UInt8) :
    (h.instantiate bytes).2 = (h.load bytes).2 := by
  unfold instantiate
  rcases h.load bytes with ⟨e | loaded, h'⟩ <;> rfl

theorem bind_snd (h : Host) (bytes : List UInt8) : (h.bind bytes).2 = (h.load bytes).2 := by
  rw [← instantiate_snd]
  unfold bind
  rcases h.instantiate bytes with ⟨e | i, h'⟩ <;> rfl

/-- A request about bytes leaves the host that a load of the bytes leaves. -/
theorem step_snd (h : Host) (hr : r.bytes? = some bytes) : (h.step r).2 = (h.load bytes).2 := by
  cases r with
  | load => cases hr; rfl
  | instantiate => cases hr; exact instantiate_snd h bytes
  | bind => cases hr; exact bind_snd h bytes
  | forget => cases hr

/-! ### Loads -/

theorem compile_eq_ok {loaded : LoadedModule} {h' : Host} (hload : h.compile bytes = (.ok loaded, h')) :
    GuestModule.ofBytes h.config.metadataSection bytes = .ok loaded.module ∧
      h' = { h with nextSerial := h.nextSerial + 1
                    kept := if h.config.cacheModules then loaded :: h.kept else h.kept } := by
  unfold compile at hload
  split at hload
  · cases hload
  · rename_i m hm
    cases hload
    exact ⟨hm, rfl⟩

theorem compile_eq_error {e : BindError} {h' : Host} (hload : h.compile bytes = (.error e, h')) :
    GuestModule.ofBytes h.config.metadataSection bytes = .error e ∧ h' = h := by
  unfold compile at hload
  split at hload
  · rename_i he
    cases hload
    exact ⟨he, rfl⟩
  · cases hload

/-- **What a load does**: it finds a module of the digest, or it compiles the bytes. -/
theorem load_cases (h : Host) (bytes : List UInt8) :
    (∃ loaded, h.config.cacheModules = true ∧ h.find? (contentDigest bytes.toByteArray) = some loaded ∧
      h.load bytes = (.ok loaded, h)) ∨
    (h.config.cacheModules = true → h.find? (contentDigest bytes.toByteArray) = none) ∧
      h.load bytes = h.compile bytes := by
  unfold load
  by_cases hkeeps : h.config.cacheModules = true
  · rw [if_pos hkeeps]
    rcases hfind : h.find? (contentDigest bytes.toByteArray) with _ | loaded
    · exact .inr ⟨fun _ => rfl, rfl⟩
    · exact .inl ⟨loaded, hkeeps, rfl, rfl⟩
  · rw [if_neg hkeeps]
    exact .inr ⟨fun hyes => absurd hyes hkeeps, rfl⟩

/-- **A load that fails leaves nothing.** -/
theorem load_eq_error {e : BindError} (hload : (h.load bytes).1 = .error e) : (h.load bytes).2 = h := by
  rcases h.load_cases bytes with ⟨loaded, -, -, heq⟩ | ⟨-, heq⟩
  · rw [heq] at hload
    cases hload
  · rw [heq] at hload ⊢
    rcases hcompile : h.compile bytes with ⟨result, h'⟩
    rw [hcompile] at hload
    cases hload
    exact (compile_eq_error hcompile).2

theorem load_config (h : Host) (bytes : List UInt8) : (h.load bytes).2.config = h.config := by
  rcases h.load_cases bytes with ⟨loaded, -, -, heq⟩ | ⟨-, heq⟩
  · rw [heq]
  · rw [heq]
    rcases hcompile : h.compile bytes with ⟨e | loaded, h'⟩
    · rw [(compile_eq_error hcompile).2]
    · rw [(compile_eq_ok hcompile).2]

theorem step_config (h : Host) (r : Request) : (h.step r).2.config = h.config := by
  rcases hr : r.bytes? with _ | bytes
  · cases r <;> cases hr
    rfl
  · rw [step_snd h hr, load_config]

theorem after_config : ∀ (h : Host) (requests : List Request), (h.after requests).config = h.config
  | _, [] => rfl
  | h, r :: rest => (after_config (h.step r).2 rest).trans (h.step_config r)

/-- What a host that keeps modules has loaded, it finds. -/
theorem find?_load (hkeeps : h.config.cacheModules = true) {loaded : LoadedModule}
    (hload : (h.load bytes).1 = .ok loaded) :
    (h.load bytes).2.find? (contentDigest bytes.toByteArray) = some loaded := by
  rcases h.load_cases bytes with ⟨found, -, hfind, heq⟩ | ⟨-, heq⟩
  · rw [heq] at hload ⊢
    cases hload
    exact hfind
  · rw [heq] at hload ⊢
    rcases hcompile : h.compile bytes with ⟨result, h'⟩
    rw [hcompile] at hload
    cases hload
    obtain ⟨hm, rfl⟩ := compile_eq_ok hcompile
    rw [if_pos hkeeps]
    unfold find?
    rw [List.find?_cons_of_pos]
    rw [GuestModule.digest_of_ofBytes hm]
    exact beq_self_eq_true _

theorem load_of_find? (hkeeps : h.config.cacheModules = true) {loaded : LoadedModule}
    (hfind : h.find? (contentDigest bytes.toByteArray) = some loaded) :
    (h.load bytes).1 = .ok loaded := by
  unfold load
  rw [if_pos hkeeps, hfind]

/-- What a host finds, it finds after one more load: no other module of the digest is put before it. -/
theorem find?_step (hkeeps : h.config.cacheModules = true) {digest : String} {loaded : LoadedModule}
    (hfind : h.find? digest = some loaded) (hr : r.isLoad = true) :
    (h.step r).2.find? digest = some loaded := by
  obtain ⟨bytes, hr⟩ := Option.isSome_iff_exists.mp hr
  rw [step_snd h hr]
  rcases h.load_cases bytes with ⟨found, -, -, heq⟩ | ⟨hnone, heq⟩
  · rw [heq]
    exact hfind
  · rw [heq]
    rcases hcompile : h.compile bytes with ⟨e | other, h'⟩
    · obtain ⟨-, rfl⟩ := compile_eq_error hcompile
      exact hfind
    · obtain ⟨hm, rfl⟩ := compile_eq_ok hcompile
      have hne : other.module.digest ≠ digest := by
        intro hsame
        have hmissing := hnone hkeeps
        rw [← GuestModule.digest_of_ofBytes hm, hsame, hfind] at hmissing
        cases hmissing
      rw [if_pos hkeeps]
      unfold find? at hfind ⊢
      rw [List.find?_cons_of_neg (by simpa using hne), hfind]

/-- **What a host finds, it finds until it forgets.** -/
theorem find?_after {digest : String} {loaded : LoadedModule} : ∀ (requests : List Request) {h : Host},
    h.config.cacheModules = true → h.find? digest = some loaded →
    (∀ r ∈ requests, r.isLoad = true) → (h.after requests).find? digest = some loaded
  | [], _, _, hfind, _ => hfind
  | r :: rest, h, hkeeps, hfind, hall => by
    rw [after_cons]
    refine find?_after rest ?_ (find?_step hkeeps hfind (hall r List.mem_cons_self)) ?_
    · rw [step_config, hkeeps]
    · exact fun r' hr' => hall r' (List.mem_cons_of_mem r hr')

/-! ### What is kept -/

/-- A host keeps the modules of just some byte strings, each of them once. -/
structure Keeps (h : Host) (c : Config) (byteStrings : List (List UInt8)) : Prop where
  config : h.config = c
  /-- Each module that is kept has the bytes that it was compiled from. -/
  kept : ∃ origins : List (LoadedModule × List UInt8), origins.map (·.1) = h.kept ∧
    (∀ o ∈ origins, GuestModule.ofBytes c.metadataSection o.2 = .ok o.1.module) ∧
    (origins.map (·.2)).Nodup ∧ ∀ bytes, bytes ∈ origins.map (·.2) ↔ bytes ∈ byteStrings

/-- No two of some byte strings have one digest. -/
def Apart (byteStrings : List (List UInt8)) : Prop :=
  ∀ a ∈ byteStrings, ∀ b ∈ byteStrings,
    contentDigest a.toByteArray = contentDigest b.toByteArray → a = b

namespace Keeps

variable {byteStrings : List (List UInt8)}

theorem empty (hconfig : h.config = c) (hkept : h.kept = []) : h.Keeps c [] := by
  refine ⟨hconfig, [], hkept.symm, ?_, List.nodup_nil, fun _ => Iff.rfl⟩
  intro o ho
  cases ho

/-- One module is kept for each of the byte strings. -/
theorem keptCount (hk : h.Keeps c byteStrings) : h.keptCount = byteStrings.dedup.length := by
  obtain ⟨origins, hkept, -, hnodup, hmem⟩ := hk.kept
  have hperm : (origins.map (·.2)).Perm byteStrings.dedup := by
    rw [List.perm_ext_iff_of_nodup hnodup (List.nodup_dedup _)]
    intro bytes
    rw [hmem, List.mem_dedup]
  unfold Host.keptCount
  rw [← hperm.length_eq, ← hkept, List.length_map, List.length_map]

/-- What is found under a digest is the module of one of the byte strings, which has that digest. -/
theorem of_find? (hk : h.Keeps c byteStrings) {digest : String} {loaded : LoadedModule}
    (hfind : h.find? digest = some loaded) : ∃ bytes ∈ byteStrings,
      contentDigest bytes.toByteArray = digest ∧
      GuestModule.ofBytes c.metadataSection bytes = .ok loaded.module := by
  obtain ⟨origins, hkept, horigins, -, hmem⟩ := hk.kept
  have hloaded := List.mem_of_find?_eq_some hfind
  rw [← hkept] at hloaded
  obtain ⟨⟨_, bytes⟩, ho, rfl⟩ := List.mem_map.mp hloaded
  have hm := horigins _ ho
  refine ⟨bytes, (hmem bytes).mp (List.mem_map_of_mem ho), ?_, hm⟩
  rw [← GuestModule.digest_of_ofBytes hm]
  exact eq_of_beq (List.find?_some (p := fun l : LoadedModule => l.module.digest == digest) hfind)

/-- The module of each of the byte strings is found. -/
theorem exists_find? (hk : h.Keeps c byteStrings) (hbytes : bytes ∈ byteStrings) :
    (h.find? (contentDigest bytes.toByteArray)).isSome = true := by
  obtain ⟨origins, hkept, horigins, -, hmem⟩ := hk.kept
  obtain ⟨⟨loaded, _⟩, ho, rfl⟩ := List.mem_map.mp ((hmem bytes).mpr hbytes)
  unfold find?
  rw [List.find?_isSome, ← hkept]
  refine ⟨loaded, List.mem_map_of_mem ho, ?_⟩
  rw [GuestModule.digest_of_ofBytes (horigins _ ho)]
  exact beq_self_eq_true _

/-- **A load returns the module that the bytes stand for**, be it kept or not. If it returns one, the host
keeps it along with the others. -/
theorem load (hk : h.Keeps c byteStrings) (hkeeps : c.cacheModules = true)
    (hapart : Apart (bytes :: byteStrings)) :
    (h.load bytes).1.map (·.module) = GuestModule.ofBytes c.metadataSection bytes ∧
      (h.load bytes).2.Keeps c
        (byteStrings ++ if (GuestModule.ofBytes c.metadataSection bytes).isOk then [bytes] else []) := by
  rcases h.load_cases bytes with ⟨loaded, -, hfind, heq⟩ | ⟨hnone, heq⟩
  · obtain ⟨other, hother, hdigest, hm⟩ := hk.of_find? hfind
    obtain rfl := hapart other (.tail _ hother) bytes (.head _) hdigest
    rw [heq, hm]
    refine ⟨rfl, hk.config, ?_⟩
    obtain ⟨origins, hkept, horigins, hnodup, hmem⟩ := hk.kept
    refine ⟨origins, hkept, horigins, hnodup, fun b => ?_⟩
    rw [hmem, List.mem_append]
    refine ⟨.inl, fun h => h.elim id fun hb => ?_⟩
    exact List.mem_singleton.mp hb ▸ hother
  · have hnew : bytes ∉ byteStrings := by
      intro hbytes
      have hsome := hk.exists_find? hbytes
      rw [hnone (hk.config ▸ hkeeps)] at hsome
      cases hsome
    rw [heq]
    rcases hcompile : h.compile bytes with ⟨e | loaded, h'⟩
    · obtain ⟨hm, rfl⟩ := compile_eq_error hcompile
      rw [hk.config] at hm
      rw [hm]
      refine ⟨rfl, ?_⟩
      exact (List.append_nil byteStrings).symm ▸ hk
    · obtain ⟨hm, rfl⟩ := compile_eq_ok hcompile
      rw [hk.config] at hm
      rw [hm, if_pos (hk.config ▸ hkeeps)]
      refine ⟨rfl, hk.config, ?_⟩
      obtain ⟨origins, hkept, horigins, hnodup, hmem⟩ := hk.kept
      refine ⟨(loaded, bytes) :: origins, congrArg (loaded :: ·) hkept, ?_, ?_, fun b => ?_⟩
      · exact List.forall_mem_cons.mpr ⟨hm, horigins⟩
      · exact List.nodup_cons.mpr ⟨fun hb => hnew ((hmem bytes).mp hb), hnodup⟩
      · rw [List.map_cons, List.mem_cons, List.mem_append, hmem, or_comm]
        exact or_congr_right List.mem_singleton.symm

end Keeps

theorem loadedSince_forget (c : Config) (requests : List Request) :
    loadedSince c (requests ++ [.forget]) = [] := by
  unfold loadedSince
  rw [List.rtakeWhile_concat_neg Request.isLoad requests .forget Bool.false_ne_true]
  rfl

theorem loadedSince_concat (c : Config) (requests : List Request) (hr : r.bytes? = some bytes) :
    loadedSince c (requests ++ [r]) = loadedSince c requests ++
      if (GuestModule.ofBytes c.metadataSection bytes).isOk then [bytes] else [] := by
  have hload : r.isLoad = true := by
    unfold Request.isLoad
    rw [hr]
    rfl
  unfold loadedSince
  rw [List.rtakeWhile_concat_pos Request.isLoad _ _ hload, List.filterMap_append,
    List.filterMap_cons_some hr, List.filter_append, List.filterMap_nil, List.filter_singleton,
    cond_eq_ite]

theorem mem_of_loadedSince {requests : List Request} (h : bytes ∈ loadedSince c requests) :
    bytes ∈ requests.filterMap Request.bytes? := by
  obtain ⟨r, hr, hbytes⟩ := List.mem_filterMap.mp (List.mem_filter.mp h).1
  exact List.mem_filterMap.mpr ⟨r, (List.rtakeWhile_suffix Request.isLoad requests).subset hr, hbytes⟩

/-! ### Runs -/

theorem Apart.mono {first second : List (List UInt8)} (h : Apart second) (hsub : first ⊆ second) :
    Apart first :=
  fun a ha b hb => h a (hsub ha) b (hsub hb)

/-- **After any requests** a host that keeps modules keeps those that it loaded since it last forgot them. -/
theorem keeps_after (hconfig : h.config = c) (hkept : h.kept = []) (hkeeps : c.cacheModules = true)
    {requests : List Request} (hapart : Apart (requests.filterMap Request.bytes?)) :
    (h.after requests).Keeps c (loadedSince c requests) := by
  induction requests using List.reverseRecOn with
  | nil => exact .empty hconfig hkept
  | append_singleton before r ih =>
    rw [List.filterMap_append] at hapart
    have hk := ih (hapart.mono (List.subset_append_left _ _))
    rw [after_append]
    rcases hr : r.bytes? with _ | bytes
    · cases r <;> cases hr
      rw [loadedSince_forget]
      exact .empty hk.config rfl
    · rw [loadedSince_concat c before hr, after_cons, step_snd _ hr]
      refine (hk.load hkeeps (hapart.mono ?_)).2
      intro b hb
      rw [List.filterMap_cons_some hr]
      rcases List.mem_cons.mp hb with rfl | hb
      · exact List.mem_append_right _ (.head _)
      · exact List.mem_append_left _ (mem_of_loadedSince hb)

/-- An instance is one of the module that a load returns. -/
theorem instantiate_fst (h : Host) (bytes : List UInt8) : (h.instantiate bytes).1 =
    ((h.load bytes).1.map (·.module)).bind fun m => Instance.ofModule m h.config := by
  rw [← h.load_config bytes]
  unfold instantiate
  rcases h.load bytes with ⟨e | loaded, h'⟩ <;> rfl

/-- A binding is one of a new instance. -/
theorem bind_fst (h : Host) (bytes : List UInt8) : (h.bind bytes).1 =
    (h.instantiate bytes).1.bind fun i => Binding.ofInstance i h.config := by
  rw [← h.load_config bytes, ← instantiate_snd]
  unfold bind
  rcases h.instantiate bytes with ⟨e | i, h'⟩ <;> rfl

/-- The answer to a request says what a load of its bytes returned, and what follows from that. -/
theorem step_fst (hload : ∀ bytes, r.bytes? = some bytes →
    (h.load bytes).1.map (·.module) = GuestModule.ofBytes h.config.metadataSection bytes) :
    (h.step r).1.unnumbered = r.answer h.config := by
  cases r with
  | load bytes =>
    have hloaded : (h.load bytes).1.map (fun loaded => (⟨0, loaded.module⟩ : LoadedModule)) =
        (GuestModule.ofBytes h.config.metadataSection bytes).map fun m => ⟨0, m⟩ := by
      rw [← hload bytes rfl]
      rcases (h.load bytes).1 with e | loaded <;> rfl
    exact congrArg Answer.loaded hloaded
  | instantiate bytes =>
    have hi := h.instantiate_fst bytes
    rw [hload bytes rfl] at hi
    exact congrArg Answer.instantiated hi
  | bind bytes =>
    have hbound := h.bind_fst bytes
    rw [instantiate_fst, hload bytes rfl] at hbound
    exact congrArg Answer.bound hbound
  | forget => rfl

/-- A host that keeps nothing compiles the bytes each time. -/
theorem load_anew (hkeeps : h.config.cacheModules = false) (bytes : List UInt8) :
    (h.load bytes).1.map (·.module) = GuestModule.ofBytes h.config.metadataSection bytes := by
  rcases h.load_cases bytes with ⟨loaded, hyes, -, -⟩ | ⟨-, heq⟩
  · rw [hkeeps] at hyes
    cases hyes
  · rw [heq]
    rcases hcompile : h.compile bytes with ⟨e | loaded, h'⟩
    · exact (compile_eq_error hcompile).1.symm
    · exact (compile_eq_ok hcompile).1.symm

/-- **The answers of a run**, if each load in it returns the module that its bytes stand for. -/
theorem run_fst : ∀ {requests : List Request} {h : Host},
    (∀ before r rest, requests = before ++ r :: rest → ∀ bytes, r.bytes? = some bytes →
      ((h.after before).load bytes).1.map (·.module) =
        GuestModule.ofBytes h.config.metadataSection bytes) →
    (h.run requests).1.map Answer.unnumbered = requests.map (Request.answer h.config)
  | [], _, _ => rfl
  | r :: rest, h, hall => by
    have hconfig := h.step_config r
    have hrest : ((h.step r).2.run rest).1.map Answer.unnumbered =
        rest.map (Request.answer h.config) := by
      rw [← hconfig]
      refine run_fst fun before r' rest' hsplit bytes hr' => ?_
      rw [hconfig, ← after_cons]
      exact hall (r :: before) r' rest' (congrArg (r :: ·) hsplit) bytes hr'
    exact congrArg₂ (· :: ·) (step_fst (hall [] r rest rfl)) hrest

theorem ofConfig_eq_ok : ofConfig c = .ok h ↔ c.check = .ok () ∧ h = ⟨c, 0, []⟩ := by
  unfold ofConfig
  rcases c.check with fault | u
  · exact ⟨fun h => (nomatch h), fun h => (nomatch h.1)⟩
  · exact ⟨fun h => ⟨rfl, (Except.ok.inj h).symm⟩, fun h => congrArg Except.ok h.2.symm⟩

/-- Whether modules are kept is of no account for an answer. -/
theorem answer_keeping (c : Config) (keeps : Bool) (r : Request) :
    r.answer { c with cacheModules := keeps } = r.answer c := by
  cases r <;> rfl

/-- **Keeping modules is transparent.** If no two of the byte strings have one digest, a host that keeps
modules answers any requests as one that keeps none, serial numbers apart. Whenever it loads bytes, for
their own sake or for an instance or a binding, it gets the module that they stand for, or the error; if it
is an error, the host is as before; if it is a module, the host gets that very module each time it loads
these bytes until it forgets. And at any time it keeps one module for each of the byte strings that it has
loaded since it last forgot them. -/
theorem keeping_is_transparent {host : Host} (hhost : ofConfig c = .ok host)
    (hkeeps : c.cacheModules = true) {requests : List Request}
    (hapart : Apart (requests.filterMap Request.bytes?)) :
    (∃ plain, ofConfig { c with cacheModules := false } = .ok plain ∧
      (host.run requests).1.map Answer.unnumbered = (plain.run requests).1.map Answer.unnumbered) ∧
    (∀ before r rest bytes, requests = before ++ r :: rest → r.bytes? = some bytes →
      ((host.after before).load bytes).1.map (·.module) =
        GuestModule.ofBytes c.metadataSection bytes ∧
      (∀ e, ((host.after before).load bytes).1 = .error e →
        host.after (before ++ [r]) = host.after before) ∧
      ∀ loaded, ((host.after before).load bytes).1 = .ok loaded →
        ∀ between later, rest = between ++ later → .forget ∉ between →
          ((host.after (before ++ r :: between)).load bytes).1 = .ok loaded) ∧
    ∀ before rest, requests = before ++ rest →
      (host.after before).keptCount = (loadedSince c before).dedup.length := by
  obtain ⟨hcheck, rfl⟩ := ofConfig_eq_ok.mp hhost
  have hkept : ∀ {before rest}, requests = before ++ rest →
      (after ⟨c, 0, []⟩ before).Keeps c (loadedSince c before) := by
    rintro before rest rfl
    refine keeps_after rfl rfl hkeeps (hapart.mono ?_)
    rw [List.filterMap_append]
    exact List.subset_append_left _ _
  have hload : ∀ {before r rest}, requests = before ++ r :: rest → ∀ bytes, r.bytes? = some bytes →
      ((after ⟨c, 0, []⟩ before).load bytes).1.map (·.module) =
        GuestModule.ofBytes c.metadataSection bytes := by
    intro before r rest hsplit bytes hr
    refine ((hkept hsplit).load hkeeps (hapart.mono ?_)).1
    rw [hsplit, List.filterMap_append, List.filterMap_cons_some hr]
    refine List.cons_subset.mpr ⟨List.mem_append_right _ (.head _), fun b hb => ?_⟩
    exact List.mem_append_left _ (mem_of_loadedSince hb)
  refine ⟨⟨⟨{ c with cacheModules := false }, 0, []⟩, ofConfig_eq_ok.mpr ⟨hcheck, rfl⟩, ?_⟩, ?_, ?_⟩
  · rw [run_fst fun before r rest hsplit => hload hsplit, run_fst fun before r rest _ bytes _ => ?_]
    · exact List.map_congr_left fun r _ => (answer_keeping c false r).symm
    · have hanew := load_anew (h := after ⟨{ c with cacheModules := false }, 0, []⟩ before)
        (by rw [after_config]) bytes
      rw [after_config] at hanew
      exact hanew
  · intro before r rest bytes hsplit hr
    refine ⟨hload hsplit bytes hr, fun e he => ?_, fun loaded hloaded between later hrest hno => ?_⟩
    · rw [after_append, after_cons, step_snd _ hr]
      exact load_eq_error he
    · have hconfig : ∀ requests, (after ⟨c, 0, []⟩ requests).config.cacheModules = true := by
        intro requests
        rw [after_config]
        exact hkeeps
      refine load_of_find? (hconfig _) ?_
      rw [after_append, after_cons, step_snd _ hr]
      refine find?_after between ?_ (find?_load (hconfig before) hloaded) fun r' hr' => ?_
      · rw [load_config]
        exact hconfig before
      · cases r' with
        | load | instantiate | bind => rfl
        | forget => exact absurd hr' hno
  · intro before rest hsplit
    exact (hkept hsplit).keptCount

/-- The empty module is compiled once, whether it is loaded or an instance of it is asked for, which it
cannot have. No bytes are not a module, and nothing is kept of them. -/
theorem empty_module_is_kept_once : ∃ host loaded, ofConfig .default = .ok host ∧
    ((host.after [.load []]).load Wasm.header).1 = .ok loaded ∧
    ((host.after [.load [], .load Wasm.header, .instantiate Wasm.header]).load Wasm.header).1 =
      .ok loaded ∧
    (host.after [.load [], .load Wasm.header, .instantiate Wasm.header]).keptCount = 1 := by
  have hhost : ofConfig .default = .ok ⟨.default, 0, []⟩ := ofConfig_eq_ok.mpr ⟨rfl, rfl⟩
  have hdigests : contentDigest ([] : List UInt8).toByteArray ≠
      contentDigest Wasm.header.toByteArray := by
    decide +kernel
  have hapart : Apart (([.load [], .load Wasm.header, .instantiate Wasm.header, .load Wasm.header] :
      List Request).filterMap Request.bytes?) := by
    have hpair : Apart [[], Wasm.header] := by
      intro a ha b hb hsame
      rcases List.mem_pair.mp ha with rfl | rfl <;> rcases List.mem_pair.mp hb with rfl | rfl
      · rfl
      · exact absurd hsame hdigests
      · exact absurd hsame.symm hdigests
      · rfl
    refine hpair.mono fun a ha => ?_
    simpa [Request.bytes?] using ha
  have hno : (GuestModule.ofBytes Config.default.metadataSection []).isOk = false := by decide +kernel
  have hyes : (GuestModule.ofBytes Config.default.metadataSection Wasm.header).isOk = true := by
    decide +kernel
  obtain ⟨-, hloads, hcount⟩ := keeping_is_transparent hhost rfl hapart
  obtain ⟨hmodule, -, hagain⟩ := hloads [.load []] (.load Wasm.header) _ _ rfl rfl
  rcases hload : ((after ⟨.default, 0, []⟩ [.load []]).load Wasm.header).1 with e | loaded
  · rw [hload] at hmodule
    rw [← hmodule] at hyes
    cases hyes
  · refine ⟨_, loaded, hhost, hload, ?_, ?_⟩
    · exact hagain loaded hload [.instantiate Wasm.header] [.load Wasm.header] rfl (by simp)
    · rw [hcount _ _ rfl]
      have hloaded : loadedSince .default
          [.load [], .load Wasm.header, .instantiate Wasm.header] = [Wasm.header, Wasm.header] := by
        unfold loadedSince
        have hall : ([.load [], .load Wasm.header, .instantiate Wasm.header] :
            List Request).rtakeWhile Request.isLoad =
            [.load [], .load Wasm.header, .instantiate Wasm.header] := rfl
        rw [hall]
        simp [Request.bytes?, hno, hyes]
      rw [hloaded]
      rfl

end Host

end GuestCall
