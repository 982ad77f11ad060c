/-
# Stale handles

A handle carries the epoch at which it was last checked. The memory may grow in any call, even in one that
traps or inside the allocator, and at the hand of the host; the epoch advances later, when somebody looks and
finds another length. Giving a handle back looks first. So it is reported as dangling exactly if the memory
has another length by then than it had when the handle was stamped.

The invariant that carries this is about every copy of a handle that was ever issued: its epoch is a date of
the memory, in force as long as the length that was last seen is the one of the stamp.

Key definitions: `Instance.Dated`, `Instance.Ages`; `HostStep`, `Custody` and `Custody.run`; `Custody.Moves`,
what a step can do, and `Custody.Sound`, the invariant; `Handle.Dangles`.
Key theorems: `dangles_iff`, `step_moves`, `Moves.sound`, `run_sound`, and `staleness_is_exact`.
-/
import GuestCall.Proofs.Call.Steps

namespace GuestCall

/-! ### Dates of a memory -/

namespace Instance

variable {i i' i'' : Instance} {epoch length : Nat}

/-- An epoch with the length that the memory was found to have in it. The instance is still in that epoch
exactly if that length is still the one it last saw. -/
structure Dated (i : Instance) (epoch length : Nat) : Prop where
  past : epoch ≤ i.epoch
  shorter : length ≤ i.observed
  seen : i.observed ≤ i.memoryLength
  current : epoch = i.epoch ↔ length = i.observed

/-- An instance after some steps: its epoch has not gone back, and what was a date of its memory is still
one. -/
structure Ages (i i' : Instance) : Prop where
  epoch : i.epoch ≤ i'.epoch
  dated : ∀ {epoch length : Nat}, i.Dated epoch length → i'.Dated epoch length

theorem Ages.refl (i : Instance) : i.Ages i := ⟨Nat.le_refl _, id⟩

theorem Ages.trans (h : i.Ages i') (h' : i'.Ages i'') : i.Ages i'' :=
  ⟨Nat.le_trans h.epoch h'.epoch, fun hd => h'.dated (h.dated hd)⟩

theorem observed_observe (i : Instance) : i.observe.observed = i.memoryLength := by
  unfold observe
  dsimp only
  split
  · rename_i h
    exact h.symm
  · rfl

/-- Whoever has looked knows a date. -/
theorem dated_observe (i : Instance) : i.observe.Dated i.observe.epoch i.memoryLength := by
  have hobserved := i.observed_observe
  have hlength := i.memoryLength_observe
  refine ⟨Nat.le_refl _, Nat.le_of_eq hobserved.symm, ?_, ?_⟩
  · rw [hobserved, hlength]
  · rw [hobserved]
    exact iff_of_true rfl rfl

/-- A look that finds another length starts an epoch that no date is in. -/
theorem ages_observe (i : Instance) : i.Ages i.observe := by
  by_cases h : i.memoryLength = i.observed
  · have hsame : i.observe = i := by
      unfold observe
      simp only [if_pos h]
    rw [hsame]
    exact .refl i
  · have hlook : i.observe = { i with observed := i.memoryLength, epoch := i.epoch + 1 } := by
      unfold observe
      simp only [if_neg h]
    rw [hlook]
    refine ⟨Nat.le_succ _, fun {epoch length} hd => ?_⟩
    have hpast := hd.past
    have hshorter := hd.shorter
    have hseen := hd.seen
    have hgrown : length < i.memoryLength := by omega
    refine ⟨Nat.le_succ_of_le hpast, Nat.le_of_lt hgrown, Nat.le_refl _, ?_⟩
    exact iff_of_false (Nat.ne_of_lt (Nat.lt_succ_of_le hpast)) (Nat.ne_of_lt hgrown)

/-- Growth alone changes no date. -/
theorem ages_grown (i : Instance) {store : Wasm.Store} (h : i.store.memory.Grown store.memory) :
    i.Ages { i with store } :=
  ⟨Nat.le_refl _, fun hd => ⟨hd.past, hd.shorter, Nat.le_trans hd.seen h.size_le, hd.current⟩⟩

/-- A run may grow the memory, whether or not it traps, and looks afterwards. -/
theorem ages_run (name : String) (index : Nat) (raw : List CoreValue) (i : Instance) :
    i.Ages (i.run name index raw).2 := by
  obtain ⟨module, store, pageLimit, epoch, observed⟩ := i
  have hwider := Wasm.invoke_wider module.program Wasm.depthLimit index (raw.reverse.map .ofCore) store
  have hgrown := ages_grown ⟨module, store, pageLimit, epoch, observed⟩ hwider
  unfold run
  dsimp only
  split <;> rename_i heq <;> rw [heq] at hgrown <;> exact hgrown.trans (ages_observe _)

theorem ages_call (name : String) (raw : List CoreValue) (i : Instance) : i.Ages (i.call name raw).2 := by
  rcases call_cases name raw i with ⟨e, hcall, -⟩ | ⟨index, hcall⟩ <;> rw [hcall]
  · exact .refl i
  · exact ages_run ..

theorem ages_alloc (i : Instance) (n : UInt32) : i.Ages (i.alloc n).2 := by
  obtain ⟨result, i', halloc, hi', -⟩ := i.alloc_cases n
  rw [halloc]
  rcases hi' with rfl | rfl
  · exact .refl _
  · exact ages_call ..

theorem ages_free (i : Instance) (ptr n : UInt32) : i.Ages (i.free ptr n).2 := by
  rw [free_eq]
  exact ages_call ..

theorem ensure_eq (i : Instance) (bytes : Nat) : i.ensure bytes =
    ((i.store.memory.ensure i.pageLimit bytes).1,
      { i with store := ⟨(i.store.memory.ensure i.pageLimit bytes).2, i.store.globals⟩ }) := rfl

theorem ages_ensure (i : Instance) (bytes : Nat) : i.Ages (i.ensure bytes).2 := by
  obtain ⟨result, memory, hensure, hgrown, -, -⟩ := i.store.memory.ensure_grown i.pageLimit bytes
  rw [ensure_eq, hensure]
  exact i.ages_grown hgrown

/-- **A date is in force** at the next look exactly if the memory still has its length. -/
theorem Dated.current_iff (h : i.Dated epoch length) :
    epoch = i.observe.epoch ↔ length = i.memoryLength := by
  rw [← i.observed_observe]
  exact (i.ages_observe.dated h).current

theorem run_error_kind {name : String} {index : Nat} {raw : List CoreValue} {e : BindError}
    (h : (i.run name index raw).1 = .error e) : e.kind = .trap := by
  obtain ⟨module, store, pageLimit, epoch, observed⟩ := i
  unfold run at h
  dsimp only at h
  split at h <;> cases h
  rfl

/-- Giving a buffer back may fail, but no guest says that a handle is stale. -/
theorem free_error_kind {ptr n : UInt32} {e : BindError} (h : (i.free ptr n).1 = .error e) :
    e.kind ≠ .danglingHandle := by
  have hcall : (i.call deallocExport [.i32 ptr, .i32 n]).1 = .error e := by
    rw [free_eq] at h
    generalize (i.call deallocExport [.i32 ptr, .i32 n]).1 = result at h
    cases result <;> cases h
    rfl
  rcases call_cases deallocExport [.i32 ptr, .i32 n] i with ⟨e', hrefused, hkind⟩ | ⟨index, hrun⟩
  · rw [hrefused] at hcall
    cases hcall
    rcases hkind with hkind | hkind <;> rw [hkind] <;> exact nofun
  · rw [hrun] at hcall
    rw [run_error_kind hcall]
    exact nofun

end Instance

/-! ### What a host does -/

/-- A step of a host with an instance and the ledger of its buffers. A copy of a handle is named by how many
copies were issued after it. -/
inductive HostStep where
  | call (name : String) (arguments : List CoreValue)
  /-- The memory is to have so many bytes. -/
  | grow (bytes : Nat)
  | allocate (len : UInt32)
  | adopt (ptr len : UInt32)
  | borrow (ptr len : UInt32)
  | refresh (copy : Nat)
  | release (copy : Nat)

/-- What a host has: the books, and every copy of a handle that it was ever given, with the length of the
memory at that moment, last one first. -/
structure Custody where
  books : Books Instance
  stamped : List (Handle × Nat)

namespace Custody

/-- A host that has just been given an instance. -/
def start (guest : Instance) : Custody := ⟨⟨.empty, guest⟩, []⟩

/-- The custody after a step that gives a copy of a handle, or fails. -/
def stamp (c : Custody) : Except BindError Handle × Books Instance → Custody
  | (.ok x, books) => ⟨books, (x, books.guest.memoryLength) :: c.stamped⟩
  | (.error _, books) => ⟨books, c.stamped⟩

/-- The custody after a step. One about a copy that was never issued does nothing. -/
def step (c : Custody) : HostStep → Custody
  | .call name arguments => ⟨⟨c.books.ledger, (c.books.guest.call name arguments).2⟩, c.stamped⟩
  | .grow bytes => ⟨⟨c.books.ledger, (c.books.guest.ensure bytes).2⟩, c.stamped⟩
  | .allocate len => c.stamp (Ledger.allocate len c.books)
  | .adopt ptr len => c.stamp (Ledger.adopt ptr len c.books)
  | .borrow ptr len => c.stamp (Ledger.borrow ptr len c.books)
  | .refresh copy =>
    match c.stamped[copy]? with
    | some (x, _) => c.stamp (Ledger.refresh x c.books)
    | none => c
  | .release copy =>
    match c.stamped[copy]? with
    | some (x, _) => ⟨(Ledger.release x c.books).2, c.stamped⟩
    | none => c

/-- The custody after some steps. -/
def run (c : Custody) (steps : List HostStep) : Custody := steps.foldl step c

end Custody

/-- Whether giving a handle back is refused because it is stale. -/
def Handle.Dangles (x : Handle) (b : Books Instance) : Prop :=
  ∃ id ptr stamp now, (Ledger.release x b).1 = .error (.danglingHandle id ptr stamp now)

/-- The ledger without the epochs of its handles. -/
def Ledger.bare (l : Ledger) : Ledger := { l with outstanding := l.pile }

/-- A later copy of a handle changes nothing but an epoch. -/
theorem Ledger.bare_restamp {l : Ledger} {x : Handle} (hcopy : ∀ o ∈ l.pile, o.id = x.id → o = x.bare) :
    (l.restamp x).bare = l.bare := by
  have hpile := pile_restamp hcopy
  unfold bare
  rw [hpile]
  rfl

open Ledger

/-- **What is refused as stale**: an owned handle that is not gone and was stamped in another epoch. -/
theorem dangles_iff {x : Handle} {b : Books Instance} : x.Dangles b ↔
    x.owned = true ∧ b.ledger.isReleased x.id = false ∧ x.epoch ≠ b.guest.observe.epoch := by
  unfold Handle.Dangles
  rcases hrelease : release x b with ⟨result, b'⟩
  cases release_cases hrelease with
  | borrowed owned =>
    refine iff_of_false nofun fun h => ?_
    rw [h.1] at owned
    cases owned
  | gone owned gone =>
    refine iff_of_false nofun fun h => ?_
    rw [h.2.1] at gone
    cases gone
  | stale owned kept look other =>
    cases look
    exact iff_of_true ⟨_, _, _, _, rfl⟩ ⟨owned, kept, other⟩
  | unknown _ _ look => exact iff_of_false nofun fun h => h.2.2 (congrArg Prod.fst look).symm
  | freed _ _ look _ free =>
    refine iff_of_false (fun ⟨_, _, _, _, h⟩ => ?_) fun h => h.2.2 (congrArg Prod.fst look).symm
    exact Instance.free_error_kind ((congrArg Prod.fst free).trans h) rfl

/-! ### What a step can do -/

namespace Custody

variable {c c' : Custody}

/-- What a step can do: something to the guest alone, or a handle is entered, issued, refreshed or given
back. Every copy is stamped right after a look at the memory. -/
inductive Moves (c : Custody) : Custody → Prop
  | guest {g : Instance} (ages : c.books.guest.Ages g) : c.Moves ⟨⟨c.books.ledger, g⟩, c.stamped⟩
  | entered {g : Instance} {x : Handle} (ages : c.books.guest.Ages g) (id : x.id = c.books.ledger.nextId)
    (owned : x.owned = true) (epoch : x.epoch = g.observe.epoch) :
    c.Moves ⟨⟨c.books.ledger.enter x, g.observe⟩, (x, g.memoryLength) :: c.stamped⟩
  | issued {g : Instance} {x : Handle} (ages : c.books.guest.Ages g) (id : x.id = c.books.ledger.nextId)
    (epoch : x.epoch = g.observe.epoch) :
    c.Moves ⟨⟨c.books.ledger.issue, g.observe⟩, (x, g.memoryLength) :: c.stamped⟩
  | refreshed {g : Instance} {x y : Handle} {length : Nat} (ages : c.books.guest.Ages g)
    (copy : (x, length) ∈ c.stamped) (bare : y.bare = x.bare) (epoch : y.epoch = g.observe.epoch) :
    c.Moves ⟨⟨c.books.ledger.restamp y, g.observe⟩, (y, g.memoryLength) :: c.stamped⟩
  | settled {g : Instance} {x : Handle} {length : Nat} (ages : c.books.guest.Ages g)
    (copy : (x, length) ∈ c.stamped) (out : ∃ o ∈ c.books.ledger.outstanding, o.id = x.id) :
    c.Moves ⟨⟨c.books.ledger.settle x.id, g⟩, c.stamped⟩

theorem moves_adopt {g : Instance} (hages : c.books.guest.Ages g) (ptr len : UInt32) :
    c.Moves (c.stamp (adopt ptr len ⟨c.books.ledger, g⟩)) := by
  have hmoves := Moves.entered (x := ⟨c.books.ledger.nextId, ptr, len, true, g.observe.epoch⟩) hages
    rfl rfl rfl
  rw [← g.memoryLength_observe] at hmoves
  exact hmoves

theorem moves_allocate (c : Custody) (len : UInt32) : c.Moves (c.stamp (allocate len c.books)) := by
  have halloc := c.books.guest.ages_alloc len
  unfold allocate
  dsimp only
  split <;> rename_i g heq <;> rw [show c.books.guest.alloc len = _ from heq] at halloc
  · exact .guest halloc
  split
  · exact .guest halloc
  · exact moves_adopt halloc _ len

theorem moves_borrow (c : Custody) (ptr len : UInt32) : c.Moves (c.stamp (borrow ptr len c.books)) := by
  have hmoves := Moves.issued (c := c)
    (x := ⟨c.books.ledger.nextId, ptr, len, false, c.books.guest.observe.epoch⟩) (.refl _) rfl rfl
  rw [← c.books.guest.memoryLength_observe] at hmoves
  exact hmoves

theorem moves_refresh {x : Handle} {length : Nat} (hcopy : (x, length) ∈ c.stamped) :
    c.Moves (c.stamp (refresh x c.books)) := by
  rcases refresh_cases x c.books with ⟨e, hrefresh, -⟩ | ⟨epoch, guest, hlook, hrefresh⟩ <;> rw [hrefresh]
  · exact .guest (.refl _)
  · cases hlook
    have hmoves := Moves.refreshed (y := { x with epoch := c.books.guest.observe.epoch }) (.refl _) hcopy
      rfl rfl
    rw [← c.books.guest.memoryLength_observe] at hmoves
    exact hmoves

theorem moves_release {x : Handle} {length : Nat} (hcopy : (x, length) ∈ c.stamped) :
    c.Moves ⟨(release x c.books).2, c.stamped⟩ := by
  rcases hrelease : release x c.books with ⟨result, b'⟩
  have hlook : c.books.guest.Ages (GuestAllocator.epoch c.books.guest).2 := c.books.guest.ages_observe
  cases release_cases hrelease with
  | borrowed | gone => exact .guest (.refl _)
  | stale _ _ look | unknown _ _ look =>
    rw [look] at hlook
    exact .guest hlook
  | @freed _ guest guest' _ _ look out free =>
    rw [look] at hlook
    have hfree := guest.ages_free x.ptr x.len
    rw [show guest.free x.ptr x.len = _ from free] at hfree
    exact .settled (hlook.trans hfree) hcopy out

/-- **Every step** does one of these things. -/
theorem step_moves (c : Custody) (s : HostStep) : c.Moves (c.step s) := by
  cases s with
  | call name arguments => exact .guest (c.books.guest.ages_call name arguments)
  | grow bytes => exact .guest (c.books.guest.ages_ensure bytes)
  | allocate len => exact c.moves_allocate len
  | adopt ptr len => exact moves_adopt (.refl _) ptr len
  | borrow ptr len => exact c.moves_borrow ptr len
  | refresh copy =>
    rcases hcopy : c.stamped[copy]? with _ | ⟨x, length⟩
    · simp only [step, hcopy]
      exact .guest (.refl _)
    · simp only [step, hcopy]
      exact moves_refresh (List.mem_of_getElem? hcopy)
  | release copy =>
    rcases hcopy : c.stamped[copy]? with _ | ⟨x, length⟩
    · simp only [step, hcopy]
      exact .guest (.refl _)
    · simp only [step, hcopy]
      exact moves_release (List.mem_of_getElem? hcopy)

/-! ### The invariant -/

/-- What every step keeps: each copy carries a date of the memory, and differs from the outstanding handle
of its id in nothing but the epoch. -/
structure Sound (c : Custody) : Prop where
  order : c.books.ledger.InOrder
  dated : ∀ s ∈ c.stamped, c.books.guest.Dated s.1.epoch s.2
  below : ∀ s ∈ c.stamped, s.1.id < c.books.ledger.nextId
  copies : ∀ s ∈ c.stamped, ∀ o ∈ c.books.ledger.pile, o.id = s.1.id → o = s.1.bare

theorem sound_start (guest : Instance) : (start guest).Sound :=
  ⟨inOrder_empty, fun _ h => (nomatch h), fun _ h => (nomatch h), fun _ h => (nomatch h)⟩

theorem Moves.ages (h : c.Moves c') : c.books.guest.Ages c'.books.guest := by
  cases h with
  | guest ages => exact ages
  | entered ages => exact ages.trans (Instance.ages_observe _)
  | issued ages => exact ages.trans (Instance.ages_observe _)
  | refreshed ages => exact ages.trans (Instance.ages_observe _)
  | settled ages => exact ages

/-- The dates of the copies after a step that stamps one more. -/
theorem Sound.dated_stamp (h : c.Sound) {g : Instance} (hages : c.books.guest.Ages g) {x : Handle}
    (hepoch : x.epoch = g.observe.epoch) :
    ∀ s ∈ (x, g.memoryLength) :: c.stamped, g.observe.Dated s.1.epoch s.2 := by
  refine List.forall_mem_cons.mpr ⟨?_, fun s hs => ?_⟩
  · have hdated := g.dated_observe
    rw [← hepoch] at hdated
    exact hdated
  · exact g.ages_observe.dated (hages.dated (h.dated s hs))

theorem Moves.sound (hm : c.Moves c') (h : c.Sound) : c'.Sound := by
  cases hm with
  | guest ages => exact ⟨h.order, fun s hs => ages.dated (h.dated s hs), h.below, h.copies⟩
  | @entered g x ages id owned epoch =>
    refine ⟨h.order.enter id owned, h.dated_stamp ages epoch, ?_, ?_⟩
    · refine List.forall_mem_cons.mpr ⟨?_, fun s hs => Nat.lt_succ_of_lt (h.below s hs)⟩
      exact Nat.lt_succ_of_le (Nat.le_of_eq id)
    · -- The new handle has an id that no older copy and no older handle has.
      refine List.forall_mem_cons.mpr ⟨?_, fun s hs => ?_⟩
      · refine List.forall_mem_cons.mpr ⟨fun _ => rfl, fun o ho hid => ?_⟩
        have hlt := (h.order.kept o ho).2.1
        have hid : o.id = x.id := hid
        omega
      · refine List.forall_mem_cons.mpr ⟨fun hid => ?_, h.copies s hs⟩
        have hlt := h.below s hs
        have hid : x.id = s.1.id := hid
        omega
  | @issued g x ages id epoch =>
    refine ⟨?_, h.dated_stamp ages epoch, ?_, ?_⟩
    · refine ⟨h.order.distinct, fun o ho => ?_, fun i hi => Nat.lt_succ_of_lt (h.order.issued i hi)⟩
      obtain ⟨howned, hlt, hkept⟩ := h.order.kept o ho
      exact ⟨howned, Nat.lt_succ_of_lt hlt, hkept⟩
    · refine List.forall_mem_cons.mpr ⟨?_, fun s hs => Nat.lt_succ_of_lt (h.below s hs)⟩
      exact Nat.lt_succ_of_le (Nat.le_of_eq id)
    · refine List.forall_mem_cons.mpr ⟨fun o ho hid => ?_, h.copies⟩
      have hlt := (h.order.kept o ho).2.1
      have hid : o.id = x.id := hid
      omega
  | @refreshed g x y length ages copy bare epoch =>
    have hid : y.bare.id = x.bare.id := by rw [bare]
    have hcopy : ∀ o ∈ c.books.ledger.pile, o.id = y.id → o = y.bare := fun o ho hoy => by
      rw [bare]
      exact h.copies _ copy o ho (hoy.trans hid)
    have hpile := pile_restamp hcopy
    refine ⟨h.order.restamp hcopy, h.dated_stamp ages epoch, ?_, ?_⟩
    · refine List.forall_mem_cons.mpr ⟨?_, h.below⟩
      exact hid ▸ h.below _ copy
    · rw [hpile]
      exact List.forall_mem_cons.mpr ⟨hcopy, h.copies⟩
  | @settled g x length ages copy out =>
    obtain ⟨o, ho, hid⟩ := out
    have hbare : x.bare ∈ c.books.ledger.pile := by
      have hmem := List.mem_map_of_mem (f := Handle.bare) ho
      rwa [h.copies _ copy o.bare hmem hid] at hmem
    refine ⟨h.order.settle hbare, fun s hs => ages.dated (h.dated s hs), h.below, fun s hs o ho => ?_⟩
    rw [pile_settle] at ho
    exact h.copies s hs o (List.mem_of_mem_filter ho)

theorem Moves.stamped (h : c.Moves c') : c.stamped ⊆ c'.stamped := by
  cases h with
  | guest | settled => exact List.Subset.refl _
  | entered | issued | refreshed => exact List.subset_cons_self _ _

/-- **A run** keeps the invariant; the epoch has not gone back, and what was stamped is still there. -/
theorem run_sound : ∀ (steps : List HostStep) {c : Custody}, c.Sound →
    (c.run steps).Sound ∧ c.books.guest.epoch ≤ (c.run steps).books.guest.epoch ∧
      c.stamped ⊆ (c.run steps).stamped
  | [], c, h => ⟨h, Nat.le_refl _, List.Subset.refl _⟩
  | s :: rest, c, h => by
    have hmoves := c.step_moves s
    obtain ⟨hsound, hepoch, hstamped⟩ := run_sound rest (hmoves.sound h)
    exact ⟨hsound, Nat.le_trans hmoves.ages.epoch hepoch, List.Subset.trans hmoves.stamped hstamped⟩

/-! ### What is stale -/

variable {x : Handle} {stamped : Nat}

/-- A copy is not stale while the memory has the length of its stamp, whether or not it is out. -/
theorem Sound.not_dangles (h : c.Sound) (hx : (x, stamped) ∈ c.stamped)
    (hlength : c.books.guest.memoryLength = stamped) : ¬ x.Dangles c.books := by
  have hdate := (h.dated _ hx).current_iff
  intro hdangles
  exact (dangles_iff.mp hdangles).2.2 (hdate.mpr hlength.symm)

/-- **A copy of an outstanding handle** is stale exactly if the memory has another length by now. -/
theorem Sound.dangles_iff_length (h : c.Sound) (hx : (x, stamped) ∈ c.stamped)
    (hout : ∃ o ∈ c.books.ledger.outstanding, o.id = x.id) :
    x.owned = true ∧ (x.Dangles c.books ↔ c.books.guest.memoryLength ≠ stamped) := by
  obtain ⟨o, ho, hid⟩ := hout
  have hmem : o.bare ∈ c.books.ledger.pile := List.mem_map_of_mem ho
  have hbare : o.bare = x.bare := h.copies _ hx _ hmem hid
  obtain ⟨howned, -, hkept⟩ := h.order.kept _ hmem
  rw [hbare] at howned hkept
  refine ⟨howned, fun hdangles hlength => h.not_dangles hx hlength hdangles, fun hlength => ?_⟩
  have hdate := (h.dated _ hx).current_iff
  exact dangles_iff.mpr ⟨howned, hkept, fun hepoch => hlength (hdate.mp hepoch).symm⟩

end Custody

/-- **Staleness is exact.** Whatever a host does with an instance: the epoch never goes back; a copy of an
outstanding handle is refused as stale exactly if the memory has another length than when the copy was
stamped; and refreshing changes nothing but epochs, or does nothing because the handle is gone or reaches out
of the memory. A refreshed handle is not refused as stale as long as the memory does not grow. -/
theorem staleness_is_exact (guest : Instance) (steps : List HostStep) :
    let c := (Custody.start guest).run steps
    let length := c.books.guest.memoryLength
    (∀ later, c.books.guest.epoch ≤ (c.run later).books.guest.epoch) ∧
    (∀ x stamped, (x, stamped) ∈ c.stamped → (∃ o ∈ c.books.ledger.outstanding, o.id = x.id) →
      x.owned = true ∧ (x.Dangles c.books ↔ length ≠ stamped)) ∧
    ∀ copy x stamped, c.stamped[copy]? = some (x, stamped) →
      (∃ e, refresh x c.books = (.error e, c.books) ∧
        (x.owned = true ∧ c.books.ledger.isReleased x.id = true ∨ length < x.stop)) ∨
      ∃ y l, refresh x c.books = (.ok y, ⟨l, c.books.guest.observe⟩) ∧
        y = { x with epoch := c.books.guest.observe.epoch } ∧ l.bare = c.books.ledger.bare ∧
        ∀ later, ((c.step (.refresh copy)).run later).books.guest.memoryLength = length →
          ¬ y.Dangles ((c.step (.refresh copy)).run later).books := by
  intro c length
  have hsound : c.Sound := (Custody.run_sound steps (Custody.sound_start guest)).1
  refine ⟨fun later => (Custody.run_sound later hsound).2.1,
    fun x stamped hx hout => hsound.dangles_iff_length hx hout, fun copy x stamped hcopy => ?_⟩
  rcases refresh_cases x c.books with ⟨e, hrefresh, hwhy⟩ | ⟨epoch, look, hlook, hrefresh⟩
  · exact .inl ⟨e, hrefresh, hwhy⟩
  cases hlook
  have hx := List.mem_of_getElem? hcopy
  refine .inr ⟨_, _, hrefresh, rfl, bare_restamp (hsound.copies _ hx), fun later hlength => ?_⟩
  have hstep : c.step (.refresh copy) = c.stamp (refresh x c.books) := by
    simp only [Custody.step, hcopy]
  have hstamped : ({ x with epoch := c.books.guest.observe.epoch }, length) ∈
      (c.step (.refresh copy)).stamped := by
    rw [hstep, hrefresh]
    exact List.mem_cons.mpr (.inl (congrArg _ c.books.guest.memoryLength_observe.symm))
  obtain ⟨hsound', -, hkept⟩ := Custody.run_sound later ((c.step_moves (.refresh copy)).sound hsound)
  exact hsound'.not_dangles (hkept hstamped) hlength

/-- An instance of a program without code that was just looked at. Its memory may have two pages. -/
def idle (memory : Memory) : Instance :=
  ⟨⟨⟨[], [], [], [], none, [], [], none, [], []⟩, "", none, []⟩, ⟨memory, []⟩, 2, 0, memory.size⟩

theorem observe_idle (memory : Memory) : (idle memory).observe = idle memory := if_pos rfl

/-- A memory of one page grows to two. -/
theorem ensure_idle {memory : Memory} (hsize : memory.size = pageSize)
    (hceiling : memory.ceiling? = some 2) :
    ((idle memory).ensure (2 * pageSize)).2.memoryLength = 2 * pageSize := by
  have hpages : memory.pages = 1 := by
    unfold Memory.pages
    rw [hsize]
    exact Nat.div_self (by decide)
  obtain ⟨grown, hgrow⟩ : ∃ grown, memory.grow? 1 = some grown := by
    refine ⟨_, if_pos ?_⟩
    unfold Memory.allows
    rw [hpages, hceiling]
    decide
  have hensure : memory.ensure 2 (2 * pageSize) = (.ok true, grown) := by
    unfold Memory.ensure
    rw [hsize, hpages, if_neg (by decide)]
    dsimp only
    rw [if_neg (by decide), show (2 * pageSize + pageSize - 1) / pageSize - 1 = 1 from by decide, hgrow]
  have hgrown : ((idle memory).ensure (2 * pageSize)).2.memoryLength =
      (memory.ensure 2 (2 * pageSize)).2.size := rfl
  rw [hgrown, hensure, Memory.size_grow hgrow, hsize]
  omega

/-- A handle is adopted and the memory grows. -/
theorem run_adopt_grow (guest : Instance) (ptr len : UInt32) (bytes : Nat) :
    (Custody.start guest).run [.adopt ptr len, .grow bytes] =
      ⟨⟨Ledger.empty.enter ⟨0, ptr, len, true, guest.observe.epoch⟩, (guest.observe.ensure bytes).2⟩,
        [(⟨0, ptr, len, true, guest.observe.epoch⟩, guest.observe.memoryLength)]⟩ := rfl

/-- After growth the copy of an adopted handle is stale, and the refreshed one is not. -/
theorem adopted_copy_dangles : ∃ (guest : Instance) (c : Custody) (x y : Handle) (b : Books Instance),
    c = (Custody.start guest).run [.adopt 8 16, .grow (2 * pageSize)] ∧
    c.stamped[0]? = some (x, pageSize) ∧ (∃ o ∈ c.books.ledger.outstanding, o.id = x.id) ∧
    c.books.guest.memoryLength = 2 * pageSize ∧ x.Dangles c.books ∧
    refresh x c.books = (.ok y, b) ∧ ¬ y.Dangles ((c.step (.refresh 0)).run []).books := by
  obtain ⟨memory, hsize, hceiling⟩ : ∃ memory : Memory, memory.size = pageSize ∧
      memory.ceiling? = some 2 :=
    ⟨.zeroed 1 (some 2), by rw [Memory.size_zeroed, Nat.one_mul], rfl⟩
  obtain ⟨-, hstale, hrefresh⟩ := staleness_is_exact (idle memory) [.adopt 8 16, .grow (2 * pageSize)]
  have hrun := run_adopt_grow (idle memory) 8 16 (2 * pageSize)
  have hlength : (idle memory).memoryLength = pageSize := hsize
  have hgrown := ensure_idle hsize hceiling
  rw [observe_idle, hlength] at hrun
  obtain ⟨c, hc⟩ : ∃ c, c = (Custody.start (idle memory)).run [.adopt 8 16, .grow (2 * pageSize)] :=
    ⟨_, rfl⟩
  rw [← hc] at hstale hrefresh hrun
  have hstamped : c.stamped[0]? = some (⟨0, 8, 16, true, 0⟩, pageSize) := by
    rw [hrun]
    rfl
  have hout : ∃ o ∈ c.books.ledger.outstanding, o.id = 0 := by
    rw [hrun]
    exact ⟨_, List.mem_cons_self, rfl⟩
  have hnow : c.books.guest.memoryLength = 2 * pageSize := by
    rw [hrun]
    exact hgrown
  have hdangles : Handle.Dangles ⟨0, 8, 16, true, 0⟩ c.books := by
    refine (hstale _ pageSize (List.mem_of_getElem? hstamped) hout).2.mpr ?_
    rw [hnow]
    decide
  rcases hrefresh 0 _ pageSize hstamped with ⟨e, -, ⟨-, hgone⟩ | hshort⟩ | ⟨y, l, hfresh, -, -, hkept⟩
  · rw [hrun] at hgone
    cases hgone
  · rw [hnow] at hshort
    exact absurd hshort (by decide)
  · refine ⟨idle memory, c, _, y, _, hc, hstamped, hout, hnow, hdangles, hfresh, hkept [] ?_⟩
    have hstep : c.step (.refresh 0) = c.stamp (refresh ⟨0, 8, 16, true, 0⟩ c.books) := by
      simp only [Custody.step, hstamped]
    rw [hstep, hfresh]
    exact c.books.guest.memoryLength_observe

end GuestCall
