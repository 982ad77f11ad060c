/-
# The pile of buffers

During a call the outstanding buffers lie on top of each other, from where the heap ended before the
call up to where the newest one ends. Taking a buffer puts one on top; refreshing a handle does not
move any; and giving back everything, newest first, takes the pile down again to where the call
started. What the guest put above the pile and the host does not know of stays where it is, and then
the heap stays as it is too, although the pile is gone.

Key definitions: `Handle.bare`, `Ledger.pile`, `Piled`, `Ledger.InOrder`, `Ground`, and `Books.On`, the
invariant.
Key theorems: `allocate_on`, `adopt_on`, `refresh_on`, and `releaseAll_on`.
-/
import GuestCall.Proofs.Guest.Heap
import GuestCall.Proofs.Ledger.Compaction
import GuestCall.Proofs.Ledger.Emptying

namespace GuestCall

/-- A handle without its epoch. -/
def Handle.bare (x : Handle) : Handle := { x with epoch := 0 }

/-- Handles that lie on top of each other, newest first, from a base up to an address. -/
def Piled (base : Nat) : List Handle → Nat → Prop
  | [], top => top = base
  | x :: below, top => top = x.ptr.toNat + blockSize x.len.toNat ∧ Piled base below x.ptr.toNat

theorem Piled.le {base : Nat} : ∀ {pile : List Handle} {top : Nat}, Piled base pile top → base ≤ top
  | [], _, h => Nat.le_of_eq h.symm
  | x :: below, top, h => by
    have hle := h.2.le
    rw [h.1]
    omega

namespace Ledger

/-- The outstanding handles without their epochs. -/
def pile (l : Ledger) : List Handle := l.outstanding.map Handle.bare

/-- A ledger as it is between the steps of a call: an id that was issued is outstanding or released,
not both, and no other one is. -/
structure InOrder (l : Ledger) : Prop where
  distinct : (l.pile.map (·.id)).Nodup
  kept : ∀ x ∈ l.pile, x.owned = true ∧ x.id < l.nextId ∧ l.isReleased x.id = false
  issued : ∀ id, l.isReleased id = true → id < l.nextId

variable {l : Ledger} {x : Handle}

theorem inOrder_empty : Ledger.empty.InOrder := by
  refine ⟨List.nodup_nil, fun x hx => (nomatch hx), fun id hid => ?_⟩
  simp [isReleased, empty] at hid

/-- Of the outstanding handles, only the one with its id is like a copy. -/
theorem InOrder.eq_bare (h : l.InOrder) (hx : x.bare ∈ l.pile) {o : Handle} (ho : o ∈ l.pile)
    (hid : o.id = x.id) : o = x.bare :=
  List.inj_on_of_nodup_map h.distinct ho hx hid

/-- A later copy of a handle does not change the pile, whether or not the handle is outstanding. -/
theorem pile_restamp (hcopy : ∀ o ∈ l.pile, o.id = x.id → o = x.bare) :
    (l.restamp x).pile = l.pile := by
  unfold pile at *
  rw [restamp, List.map_map]
  refine List.map_congr_left fun o ho => ?_
  rw [Function.comp_apply]
  by_cases hid : o.id = x.id
  · rw [if_pos hid]
    exact (hcopy o.bare (List.mem_map_of_mem ho) hid).symm
  · rw [if_neg hid]

theorem InOrder.restamp (h : l.InOrder) (hcopy : ∀ o ∈ l.pile, o.id = x.id → o = x.bare) :
    (l.restamp x).InOrder := by
  have hpile := pile_restamp hcopy
  refine ⟨?_, ?_, h.issued⟩
  · rw [hpile]
    exact h.distinct
  · rw [hpile]
    exact h.kept

theorem InOrder.enter (h : l.InOrder) (hid : x.id = l.nextId) (howned : x.owned = true) :
    (l.enter x).InOrder := by
  have hfresh : l.isReleased l.nextId = false := by
    by_contra hr
    exact Nat.lt_irrefl _ (h.issued _ (by simpa using hr))
  refine ⟨?_, fun y hy => ?_, fun id hr => Nat.lt_succ_of_lt (h.issued id hr)⟩
  · refine List.nodup_cons.mpr ⟨fun hmem => ?_, h.distinct⟩
    obtain ⟨y, hy, hyid⟩ := List.mem_map.mp hmem
    have hlt := (h.kept y hy).2.1
    have hyid : y.id = x.id := hyid
    omega
  · rcases List.mem_cons.mp hy with rfl | hy
    · exact ⟨howned, by rw [show x.bare.id = l.nextId from hid]; exact Nat.lt_succ_self _,
        by rw [show x.bare.id = l.nextId from hid]; exact hfresh⟩
    · obtain ⟨ho, hlt, hr⟩ := h.kept y hy
      exact ⟨ho, Nat.lt_succ_of_lt hlt, hr⟩

/-- Giving back the newest handle. -/
theorem outstanding_settle (h : l.InOrder) {below : List Handle} (ho : l.outstanding = x :: below) :
    (l.settle x.id).outstanding = below := by
  have hdistinct := h.distinct
  simp only [pile, ho, List.map_cons, List.nodup_cons] at hdistinct
  unfold settle
  rw [ho]
  dsimp only
  rw [List.filter_cons_of_neg (by simp), List.filter_eq_self.mpr]
  intro y hy
  rw [bne_iff_ne]
  intro heq
  refine hdistinct.1 (List.mem_map.mpr ⟨y.bare, List.mem_map_of_mem hy, ?_⟩)
  exact heq

/-- A later copy of the newest handle takes its place. -/
theorem outstanding_restamp (h : l.InOrder) {y : Handle} {below : List Handle}
    (ho : l.outstanding = x :: below) (hid : x.id = y.id) :
    (l.restamp y).outstanding = y :: below := by
  have hdistinct := h.distinct
  simp only [pile, ho, List.map_cons, List.nodup_cons] at hdistinct
  unfold restamp
  rw [ho]
  dsimp only
  rw [List.map_cons, if_pos hid]
  have hothers : below.map (fun o => if o.id = y.id then y else o) = below.map id := by
    refine List.map_congr_left fun o ho => if_neg fun heq => hdistinct.1 ?_
    refine List.mem_map.mpr ⟨o.bare, List.mem_map_of_mem ho, ?_⟩
    exact heq.trans hid.symm
  rw [hothers, List.map_id]

theorem pile_settle (l : Ledger) (id : Nat) :
    (l.settle id).pile = l.pile.filter (·.id != id) := by
  unfold pile settle
  rw [List.filter_map]
  rfl

/-- Giving back any outstanding handle. -/
theorem InOrder.settle (h : l.InOrder) (hx : x.bare ∈ l.pile) : (l.settle x.id).InOrder := by
  have hpile := pile_settle l x.id
  refine ⟨?_, fun y hy => ?_, fun id hid => ?_⟩
  · rw [hpile]
    exact h.distinct.sublist (List.filter_sublist.map _)
  · rw [hpile, List.mem_filter, bne_iff_ne] at hy
    obtain ⟨howned, hlt, hkept⟩ := h.kept y hy.1
    refine ⟨howned, hlt, ?_⟩
    rw [Bool.eq_false_iff, Ne, isReleased_settle, hkept]
    rintro (heq | heq)
    · exact hy.2 heq
    · cases heq
  · rcases isReleased_settle.mp hid with rfl | hid
    · exact (h.kept x.bare hx).2.1
    · exact h.issued id hid

/-- With nothing outstanding, the ledger can be closed. -/
theorem InOrder.close (ho : l.outstanding = []) : l.close.InOrder := by
  have hpile : l.close.pile = [] := by
    unfold Ledger.close pile
    rw [ho]
    rfl
  refine ⟨?_, fun x hx => ?_, fun id hid => ?_⟩
  · rw [hpile]
    exact List.nodup_nil
  · rw [hpile] at hx
    cases hx
  · rcases isReleased_iff.mp hid with h | h
    · exact h
    · cases h

end Ledger

/-! ### The invariant of a call -/

/-- What a call starts from: an instance of a loaded draft, the end of its heap and its count of live
bytes, and how often buffers were taken and given back. -/
structure Ground where
  module : GuestModule
  loads : ∃ d : Draft, d.Loads module
  heap : Nat
  above : heapStart ≤ heap
  live : UInt32
  allocations : Nat
  releases : Nat

/-- The books during a call. The buffers are piled up to `top`. The heap ends at `heap`, and what lies
between belongs to the guest, which counts it in `extra`. -/
structure Books.On (g : Ground) (top heap : Nat) (extra : UInt32) (b : Books Instance) : Prop where
  module : b.guest.module = g.module
  memory : b.guest.store.memory.IsGuest
  globals : b.guest.store.globals =
    [.i32 (.ofNat heap), .i32 (g.live + (.ofNat top - .ofNat g.heap) + extra)]
  below : top ≤ heap
  inside : heap ≤ b.guest.memoryLength
  piled : Piled g.heap b.ledger.pile top
  ledger : b.ledger.InOrder
  balance : b.ledger.allocations + g.releases =
    g.allocations + b.ledger.releases + b.ledger.outstanding.length

namespace Books.On

variable {g : Ground} {top heap : Nat} {extra len : UInt32} {b : Books Instance}

/-- The store of the instance. -/
theorem at_store (h : b.On g top heap extra) : b.guest.At g.module (Wasm.guestStore
    b.guest.store.memory (.ofNat heap) (g.live + (.ofNat top - .ofNat g.heap) + extra)) := by
  refine ⟨h.module, ?_⟩
  unfold Wasm.guestStore
  rw [← h.globals]

/-- How far up the heap and the pile can be. -/
theorem le_capacity (h : b.On g top heap extra) : heap ≤ heapCapacity ∧ top ≤ heapCapacity := by
  have hsize := h.memory.bounds.2
  have hinside := h.inside
  have hbelow := h.below
  unfold Instance.memoryLength at hinside
  omega

theorem ground_le (h : b.On g top heap extra) : heapStart ≤ top := Nat.le_trans g.above h.piled.le

/-- The guest does something that leaves its allocator alone. -/
theorem move (h : b.On g top heap extra) {guest : Instance} {s : Wasm.Store}
    (hat : guest.At g.module s) (hgrown : b.guest.store.Grown s) :
    Books.On g top heap extra ⟨b.ledger, guest⟩ := by
  obtain ⟨hmodule, rfl⟩ := hat
  have hle := hgrown.memory.size_le
  refine ⟨hmodule, h.memory.grown hgrown.memory, hgrown.globals.trans h.globals, h.below, ?_,
    h.piled, h.ledger, h.balance⟩
  exact Nat.le_trans h.inside hle

theorem observe (h : b.On g top heap extra) :
    Books.On g top heap extra ⟨b.ledger, b.guest.observe⟩ :=
  h.move (Instance.At.observe ⟨h.module, rfl⟩) (.refl _)

/-- The guest puts something on top of the pile. -/
theorem lift {more : UInt32} (h : b.On g top top extra) {guest : Instance} {memory : Memory}
    (hat : guest.At g.module (Wasm.guestStore memory (.ofNat heap)
      (g.live + (.ofNat top - .ofNat g.heap) + extra + more)))
    (hmemory : memory.IsGuest) (hbelow : top ≤ heap) (hinside : heap ≤ memory.size) :
    Books.On g top heap (extra + more) ⟨b.ledger, guest⟩ := by
  have hstore := hat.store
  refine ⟨hat.module, ?_, ?_, hbelow, ?_, h.piled, h.ledger, h.balance⟩
  · rw [hstore]
    exact hmemory
  · rw [hstore, Wasm.globals_guestStore, UInt32.add_assoc _ extra more]
  · unfold Instance.memoryLength
    rw [hstore]
    exact hinside

/-- A buffer that the guest has put on top of the pile is entered. -/
theorem enter (h : b.On g top heap (extra + blockWord len)) {x : Handle}
    (hid : x.id = b.ledger.nextId) (howned : x.owned = true) (hptr : x.ptr = .ofNat top)
    (hlen : x.len = len) (hfits : top + blockSize len.toNat ≤ heap) :
    Books.On g (top + blockSize len.toNat) heap extra ⟨b.ledger.enter x, b.guest⟩ := by
  have hcap := h.le_capacity
  have htop : x.ptr.toNat = top := by rw [hptr, toNat_ofNat_heap hcap.2]
  have hword := blockWord_eq (n := len) (by omega)
  refine ⟨h.module, h.memory, ?_, hfits, h.inside, ⟨?_, ?_⟩, h.ledger.enter hid howned, ?_⟩
  · rw [h.globals, hword, UInt32.ofNat_add]
    congr 3
    grind
  · rw [← htop, ← hlen]
    rfl
  · have hpiled := h.piled
    rw [← htop] at hpiled
    exact hpiled
  · have hbalance := h.balance
    simp only [Ledger.enter, List.length_cons]
    omega

/-- The newest buffer, which the guest has freed, is taken off the ledger. It was the end of the heap just if
nothing lay on top of it. -/
theorem settle (h : b.On g top heap extra) {x : Handle} {below : List Handle}
    (hout : b.ledger.outstanding = x :: below) {guest : Instance}
    (hat : guest.At g.module (Wasm.guestStore b.guest.store.memory
      (if x.ptr + blockWord x.len = .ofNat heap then x.ptr else .ofNat heap)
      (g.live + (.ofNat top - .ofNat g.heap) + extra - blockWord x.len))) :
    Books.On g x.ptr.toNat (if top = heap then x.ptr.toNat else heap) extra
      ⟨b.ledger.settle x.id, guest⟩ := by
  have hpile : b.ledger.pile = x.bare :: below.map Handle.bare := by
    rw [Ledger.pile, hout]
    rfl
  have hpiled := h.piled
  rw [hpile] at hpiled
  have htop : top = x.ptr.toNat + blockSize x.len.toNat := hpiled.1
  have hcap := h.le_capacity
  have hbelow := h.below
  have hinside := h.inside
  have hword := blockWord_eq (n := x.len) (by omega)
  have hmemory : guest.store.memory = b.guest.store.memory := by
    rw [hat.store]
    rfl
  have hleft := Ledger.outstanding_settle h.ledger hout
  refine ⟨hat.module, ?_, ?_, ?_, ?_, ?_, h.ledger.settle (hpile ▸ List.mem_cons_self), ?_⟩
  · rw [hmemory]
    exact h.memory
  · have hend : (x.ptr + blockWord x.len = .ofNat heap) ↔ top = heap := by
      rw [hword, ← UInt32.toNat_inj, UInt32.toNat_add, toNat_ofNat_heap (by omega),
        toNat_ofNat_heap hcap.1]
      unfold heapCapacity pageSize at hcap
      omega
    have hheap : (if x.ptr + blockWord x.len = .ofNat heap then x.ptr else .ofNat heap) =
        UInt32.ofNat (if top = heap then x.ptr.toNat else heap) := by
      by_cases hth : top = heap
      · rw [if_pos hth, if_pos (hend.mpr hth), UInt32.ofNat_toNat]
      · rw [if_neg hth, if_neg (mt hend.mp hth)]
    have hlive : g.live + (.ofNat top - .ofNat g.heap) + extra - blockWord x.len =
        g.live + (.ofNat x.ptr.toNat - .ofNat g.heap) + extra := by
      rw [htop, hword, UInt32.ofNat_add]
      grind
    rw [hat.store, Wasm.globals_guestStore, hlive, hheap]
  · split <;> omega
  · unfold Instance.memoryLength at *
    rw [hmemory]
    split <;> omega
  · rw [Ledger.pile, hleft]
    exact hpiled.2
  · have hbalance := h.balance
    rw [hout, List.length_cons] at hbalance
    rw [hleft]
    change b.ledger.allocations + g.releases = g.allocations + (b.ledger.releases + 1) + below.length
    omega

end Books.On

section

open Ledger

variable {g : Ground} {top heap : Nat} {extra len : UInt32} {b : Books Instance}

/-- **Adopting a buffer** that the guest has put on top of the pile. -/
theorem adopt_on (h : b.On g top heap (extra + blockWord len))
    (hfits : top + blockSize len.toNat ≤ heap) :
    ∃ x b', adopt (.ofNat top) len b = (.ok x, b') ∧
      b'.On g (top + blockSize len.toNat) heap extra ∧
      x.ptr = .ofNat top ∧ x.len = len ∧ b'.ledger.pile = x.bare :: b.ledger.pile ∧
      b'.guest = b.guest.observe := by
  obtain ⟨l, guest⟩ := b
  refine ⟨⟨l.nextId, .ofNat top, len, true, guest.observe.epoch⟩,
    ⟨l.enter ⟨l.nextId, .ofNat top, len, true, guest.observe.epoch⟩, guest.observe⟩, rfl, ?_, rfl, rfl,
    rfl, rfl⟩
  exact h.observe.enter rfl rfl rfl rfl hfits

/-- **Taking a buffer** puts it on top of the pile, or there is no room and nothing changes. -/
theorem allocate_on (h : b.On g top top extra) (n : UInt32) :
    if top + blockSize n.toNat ≤ heapCapacity then
      ∃ x b', allocate n b = (.ok x, b') ∧
        b'.On g (top + blockSize n.toNat) (top + blockSize n.toNat) extra ∧
        x.ptr = .ofNat top ∧ x.len = n ∧ b'.ledger.pile = x.bare :: b.ledger.pile ∧
        b'.guest.store.memory = b.guest.store.memory.reach (top + blockSize n.toNat)
    else ∃ b', allocate n b = (.error (.allocation n .null), b') ∧ b'.On g top top extra ∧
      b'.ledger.pile = b.ledger.pile ∧ b'.guest.store.memory = b.guest.store.memory := by
  obtain ⟨d, hd⟩ := g.loads
  have hcap := h.le_capacity.1
  have htop := toNat_ofNat_heap hcap
  have hne := ofNat_heap_ne_zero h.ground_le hcap
  have halloc := Instance.alloc_at hd h.at_store h.memory n
  obtain ⟨l, guest⟩ := b
  dsimp only at halloc
  rw [htop] at halloc
  by_cases hfits : top + blockSize n.toNat ≤ heapCapacity
  · rw [if_pos hfits] at halloc ⊢
    obtain ⟨guest', hguest, hat⟩ := halloc
    have hend : UInt32.ofNat top + blockWord n = .ofNat (top + blockSize n.toNat) := by
      rw [blockWord_eq (by omega), UInt32.ofNat_add]
    rw [hend] at hat
    have hmoved : Books.On g top (top + blockSize n.toNat) (extra + blockWord n) ⟨l, guest'⟩ :=
      h.lift hat (h.memory.grown (Memory.grown_reach h.memory hfits)) (Nat.le_add_right ..)
        (Memory.le_size_reach h.memory _).2
    obtain ⟨x, b', hadopt, hon, hptr, hlen, hpile, hguest'⟩ := adopt_on hmoved (Nat.le_refl _)
    refine ⟨x, b', ?_, hon, hptr, hlen, hpile, ?_⟩
    · unfold allocate
      dsimp only
      rw [show GuestAllocator.alloc guest n = _ from hguest]
      dsimp only
      rw [if_neg hne]
      exact hadopt
    · rw [hguest', hat.observe.store]
      rfl
  · rw [if_neg hfits] at halloc ⊢
    obtain ⟨guest', hguest, hat⟩ := halloc
    refine ⟨⟨l, guest'⟩, ?_, ?_, rfl, ?_⟩
    · unfold allocate
      dsimp only
      rw [show GuestAllocator.alloc guest n = _ from hguest]
      rfl
    · have hstore : guest.store = _ := h.at_store.store
      exact h.move (hstore ▸ hat) (.refl _)
    · rw [hat.store]
      rfl

/-- Every buffer of the pile lies between its base and its top. -/
theorem Piled.mem {base : Nat} {x : Handle} : ∀ {pile : List Handle} {top : Nat},
    Piled base pile top → x ∈ pile → x.ptr.toNat + blockSize x.len.toNat ≤ top
  | [], _, _, hx => nomatch hx
  | y :: below, top, h, hx => by
    rcases List.mem_cons.mp hx with rfl | hx
    · exact Nat.le_of_eq h.1.symm
    · have hle := h.2.mem hx
      rw [h.1]
      omega

/-- **Refreshing** a copy of an outstanding handle changes nothing but epochs. -/
theorem refresh_on (h : b.On g top heap extra) {x : Handle} (hx : x.bare ∈ b.ledger.pile) :
    ∃ y b', refresh x b = (.ok y, b') ∧ b'.On g top heap extra ∧ y.bare = x.bare ∧
      y.epoch = b.guest.observe.epoch ∧ b' = ⟨b.ledger.restamp y, b.guest.observe⟩ ∧
      b'.ledger.pile = b.ledger.pile := by
  obtain ⟨howned, -, hkept⟩ := h.ledger.kept _ hx
  have hinside : x.stop ≤ b.guest.memoryLength := by
    have hmem : x.bare.ptr.toNat + blockSize x.bare.len.toNat ≤ top := h.piled.mem hx
    have hptr : x.bare.ptr = x.ptr := rfl
    have hlen : x.bare.len = x.len := rfl
    rw [hptr, hlen] at hmem
    have hsize := le_blockSize x.len.toNat
    have hbelow := h.below
    have hheap := h.inside
    unfold Handle.stop
    omega
  obtain ⟨l, guest⟩ := b
  have hy : ({ x with epoch := guest.observe.epoch } : Handle).bare ∈ l.pile := hx
  have hcopy : ∀ o ∈ l.pile, o.id = x.id → o = ({ x with epoch := guest.observe.epoch } : Handle).bare :=
    fun o ho => h.ledger.eq_bare hy ho
  refine ⟨{ x with epoch := guest.observe.epoch }, _, ?_, ?_, rfl, rfl, rfl, pile_restamp hcopy⟩
  · exact refresh_kept hkept hinside rfl
  · have hobserved := h.observe
    have hpile := pile_restamp (x := { x with epoch := guest.observe.epoch }) hcopy
    refine ⟨hobserved.module, hobserved.memory, hobserved.globals, h.below, hobserved.inside, ?_,
      h.ledger.restamp hcopy, ?_⟩
    · rw [hpile]
      exact h.piled
    · have hlength : (l.restamp { x with epoch := guest.observe.epoch }).outstanding.length =
          l.outstanding.length := List.length_map ..
      rw [hlength]
      exact h.balance

/-- Giving back the newest buffer by a handle that is up to date. -/
theorem release_on (h : b.On g top heap extra) {x : Handle} {below : List Handle}
    (hout : b.ledger.outstanding = x :: below)
    (hcurrent : GuestAllocator.epoch b.guest = (x.epoch, b.guest)) :
    ∃ b', release x b = (.ok (), b') ∧
      b'.On g x.ptr.toNat (if top = heap then x.ptr.toNat else heap) extra ∧
      b'.ledger.outstanding = below ∧ b'.guest.store.memory = b.guest.store.memory := by
  obtain ⟨d, hd⟩ := g.loads
  have hx : x ∈ b.ledger.outstanding := hout ▸ List.mem_cons_self
  obtain ⟨howned, -, hkept⟩ := h.ledger.kept x.bare (List.mem_map_of_mem hx)
  obtain ⟨guest', hfree, hat⟩ := Instance.free_at hd h.at_store x.ptr x.len
  refine ⟨⟨b.ledger.settle x.id, guest'⟩, ?_, h.settle hout hat, outstanding_settle h.ledger hout, ?_⟩
  · exact release_current howned hkept hcurrent ⟨x, hx, rfl⟩ hfree
  · rw [hat.store]
    rfl

/-- **Giving back the newest buffer** takes it off the pile, and off the heap where nothing lies on
top of it. -/
theorem refreshRelease_on (h : b.On g top heap extra) {x : Handle} {below : List Handle}
    (hout : b.ledger.outstanding = x :: below) :
    ∃ b', refreshRelease x b = (.ok (), b') ∧
      b'.On g x.ptr.toNat (if top = heap then x.ptr.toNat else heap) extra ∧
      b'.ledger.outstanding = below ∧ b'.guest.store.memory = b.guest.store.memory := by
  have hx : x.bare ∈ b.ledger.pile := by
    rw [pile, hout]
    exact List.mem_cons_self
  obtain ⟨y, b₁, hrefresh, hon, hbare, hepoch, rfl, -⟩ := refresh_on h hx
  have hid : x.bare.id = y.bare.id := by rw [hbare]
  have hptr : y.ptr = x.ptr := show y.bare.ptr = x.bare.ptr by rw [hbare]
  have hcurrent : GuestAllocator.epoch b.guest.observe = (y.epoch, b.guest.observe) := by
    rw [hepoch]
    exact b.guest.epoch_observe
  obtain ⟨b', hrelease, hon', hout', hmemory⟩ :=
    release_on hon (outstanding_restamp h.ledger hout hid) hcurrent
  rw [hptr] at hon'
  refine ⟨b', ?_, hon', hout', ?_⟩
  · unfold refreshRelease Action.andThen
    rw [hrefresh]
    exact hrelease
  · rw [hmemory, b.guest.store_observe]

/-- Giving back the whole pile, newest buffer first. -/
theorem releaseNewest_on : ∀ (count : Nat) {top heap : Nat} {b : Books Instance},
    b.On g top heap extra → b.ledger.outstanding.length = count →
    ∃ b', releaseNewest count none b = (.ok (), b') ∧
      b'.On g g.heap (if top = heap then g.heap else heap) extra ∧ b'.ledger.outstanding = [] ∧
      b'.guest.store.memory = b.guest.store.memory
  | 0, top, heap, b, h, hcount => by
    have hout := List.eq_nil_of_length_eq_zero hcount
    have hpiled := h.piled
    rw [pile, hout] at hpiled
    have htop : top = g.heap := hpiled
    refine ⟨b, rfl, ?_, hout, rfl⟩
    by_cases hth : top = heap
    · rw [if_pos hth]
      rwa [← hth, htop] at h
    · rw [if_neg hth]
      rwa [htop] at h
  | count + 1, top, heap, b, h, hcount => by
    obtain ⟨x, below, hout⟩ := List.exists_cons_of_length_eq_add_one hcount
    obtain ⟨b₁, hrelease, hon, hout₁, hmemory⟩ := refreshRelease_on h hout
    rw [hout, List.length_cons] at hcount
    obtain ⟨b', hrest, hon', hout', hmemory'⟩ :=
      releaseNewest_on count hon (by rw [hout₁]; omega)
    refine ⟨b', ?_, ?_, hout', hmemory'.trans hmemory⟩
    · unfold releaseNewest
      rw [hout]
      dsimp only
      rw [hrelease]
      exact hrest
    · by_cases hth : top = heap
      · rw [if_pos hth, if_pos rfl] at hon'
        rwa [if_pos hth]
      · have hpiled := h.piled
        rw [pile, hout] at hpiled
        have htop : top = x.ptr.toNat + blockSize x.len.toNat := hpiled.1
        have hbelow := h.below
        rw [if_neg hth, if_neg (by omega)] at hon'
        rwa [if_neg hth]

/-- **Giving back everything** takes the pile down to where the call started. The heap ends there too,
unless the guest left something on top. -/
theorem releaseAll_on (h : b.On g top heap extra) :
    ∃ b', releaseAll b = (.ok (), b') ∧ b'.On g g.heap (if top = heap then g.heap else heap) extra ∧
      b'.ledger.outstanding = [] ∧ b'.guest.store.memory = b.guest.store.memory := by
  obtain ⟨b', hrelease, hon, hout, hmemory⟩ := releaseNewest_on _ h rfl
  refine ⟨{ b' with ledger := b'.ledger.close }, ?_, ?_, hout, hmemory⟩
  · unfold releaseAll
    rw [hrelease]
  · refine ⟨hon.module, hon.memory, hon.globals, hon.below, hon.inside, hon.piled,
      .close hout, hon.balance⟩

end

end GuestCall
