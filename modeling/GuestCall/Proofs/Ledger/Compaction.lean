/-
# Emptying the set of released ids cannot be seen

The ledger and the plain ledger give the same answers in every session over every guest, and make the
same calls of the guest. So the mark says of every owned handle what the list of everything that is
gone says, however often `releaseAll` moved it, and the guest frees no handle twice
(`session_mirrors_plain`).

A session keeps two invariants: the plain ledger is `Sound`, with each owned id that was issued either
outstanding or gone, and the ledger `Agrees` with it. Inside `releaseAll` a dropped handle is gone from
the plain ledger before the mark covers it, so there only the weaker `Follows` is kept; closing the
ledger restores the rest.

Key definitions: `Issued`, `PlainLedger.Sound`, `Follows`, `Agrees`, `Mirrors`.
Key theorems: `isReleased_iff_gone`, `releaseAll_mirrors`, `Alongside.step`, `session_mirrors_plain`.
-/
import GuestCall.Proofs.Ledger.Plain
import Mathlib.Data.List.Nodup

namespace GuestCall

/-- Some copy of a handle is among the ones that were issued. -/
def Issued (copies : List Handle) (h : Handle) : Prop :=
  ∃ c ∈ copies, h = { c with epoch := h.epoch }

theorem Issued.self {copies : List Handle} {h : Handle} (hc : h ∈ copies) : Issued copies h :=
  ⟨h, hc, rfl⟩

theorem Issued.cons {copies : List Handle} {h : Handle} (c : Handle) (hi : Issued copies h) :
    Issued (c :: copies) h := by
  obtain ⟨d, hd, he⟩ := hi
  exact ⟨d, List.mem_cons_of_mem _ hd, he⟩

/-- A later copy of an issued handle. -/
theorem Issued.restamp {copies : List Handle} {h : Handle} (hi : Issued copies h) (epoch : Nat) :
    Issued copies { h with epoch } := by
  obtain ⟨c, hc, he⟩ := hi
  refine ⟨c, hc, ?_⟩
  rw [he]

/-! ### The plain ledger -/

namespace PlainLedger

/-- What a plain ledger keeps, with all copies of handles that were issued from it: an id is owned if
it is outstanding or gone, never both, and what the guest was asked to free is gone. -/
structure Sound (copies : List Handle) (l : PlainLedger) : Prop where
  distinct : l.outstandingIds.Nodup
  apart : ∀ id ∈ l.outstandingIds, id ∉ l.gone
  goneBelow : ∀ id ∈ l.gone, id < l.nextId
  outstanding : ∀ o ∈ l.outstanding, o.owned = true ∧ Issued copies o
  copyBelow : ∀ c ∈ copies, c.id < l.nextId
  split : ∀ c ∈ copies, c.owned = true ↔ c.id ∈ l.outstandingIds ∨ c.id ∈ l.gone
  freedOnce : (l.freed.map (·.id)).Nodup
  freed : ∀ h ∈ l.freed, h.owned = true ∧ h.id ∈ l.gone ∧ Issued copies h

variable {copies : List Handle} {l : PlainLedger} {h : Handle}

theorem sound_empty : Sound [] empty := by
  constructor <;> simp [empty, outstandingIds]

theorem mem_outstandingIds {id : Nat} : id ∈ l.outstandingIds ↔ ∃ o ∈ l.outstanding, o.id = id := by
  simp [outstandingIds]

theorem outstandingIds_restamp : (l.restamp h).outstandingIds = l.outstandingIds := by
  simp only [outstandingIds, restamp, List.map_map]
  refine List.map_congr_left fun o _ => ?_
  simp only [Function.comp_apply]
  split <;> simp_all

theorem mem_filter_ids {os : List Handle} {id i : Nat} :
    i ∈ (os.filter (·.id != id)).map (·.id) ↔ i ∈ os.map (·.id) ∧ i ≠ id := by
  simp only [List.mem_map, List.mem_filter, bne_iff_ne]
  constructor
  · rintro ⟨o, ⟨ho, hne⟩, rfl⟩
    exact ⟨⟨o, ho, rfl⟩, hne⟩
  · rintro ⟨⟨o, ho, rfl⟩, hne⟩
    exact ⟨o, ⟨ho, hne⟩, rfl⟩

theorem Sound.below (hs : Sound copies l) (hi : Issued copies h) : h.id < l.nextId := by
  obtain ⟨c, hc, he⟩ := hi
  rw [he]
  exact hs.copyBelow c hc

theorem Sound.outstandingBelow (hs : Sound copies l) {id : Nat} (hid : id ∈ l.outstandingIds) :
    id < l.nextId := by
  obtain ⟨o, ho, rfl⟩ := mem_outstandingIds.mp hid
  exact hs.below (hs.outstanding o ho).2

theorem Sound.owned_iff (hs : Sound copies l) (hi : Issued copies h) :
    h.owned = true ↔ h.id ∈ l.outstandingIds ∨ h.id ∈ l.gone := by
  obtain ⟨c, hc, he⟩ := hi
  rw [he]
  exact hs.split c hc

/-- One more copy of a handle that was issued already. -/
theorem Sound.copy (hs : Sound copies l) (hi : Issued copies h) : Sound (h :: copies) l := by
  refine { hs with outstanding := ?_, copyBelow := ?_, split := ?_, freed := ?_ }
  · intro o ho
    exact ⟨(hs.outstanding o ho).1, (hs.outstanding o ho).2.cons h⟩
  · intro c hc
    rcases List.mem_cons.mp hc with rfl | hc
    · exact hs.below hi
    · exact hs.copyBelow c hc
  · intro c hc
    rcases List.mem_cons.mp hc with rfl | hc
    · exact hs.owned_iff hi
    · exact hs.split c hc
  · intro o ho
    obtain ⟨h1, h2, h3⟩ := hs.freed o ho
    exact ⟨h1, h2, h3.cons h⟩

/-- A new id is neither outstanding nor gone. -/
theorem Sound.fresh (hs : Sound copies l) :
    l.nextId ∉ l.outstandingIds ∧ l.nextId ∉ l.gone :=
  ⟨fun hm => absurd (hs.outstandingBelow hm) (Nat.lt_irrefl _),
    fun hm => absurd (hs.goneBelow _ hm) (Nat.lt_irrefl _)⟩

theorem Sound.enter (hs : Sound copies l) (hid : h.id = l.nextId) (ho : h.owned = true) :
    Sound (h :: copies) (l.enter h) := by
  obtain ⟨hout, hgone⟩ := hs.fresh
  have hids : (l.enter h).outstandingIds = h.id :: l.outstandingIds := rfl
  refine ⟨?_, ?_, ?_, ?_, ?_, ?_, hs.freedOnce, ?_⟩
  · rw [hids, hid]
    exact List.nodup_cons.mpr ⟨hout, hs.distinct⟩
  · intro id hm
    rw [hids] at hm
    rcases List.mem_cons.mp hm with rfl | hm
    · exact hid ▸ hgone
    · exact hs.apart id hm
  · exact fun id hm => Nat.lt_succ_of_lt (hs.goneBelow id hm)
  · intro o hm
    rcases List.mem_cons.mp hm with rfl | hm
    · exact ⟨ho, .self List.mem_cons_self⟩
    · exact ⟨(hs.outstanding o hm).1, (hs.outstanding o hm).2.cons h⟩
  · intro c hc
    change c.id < l.nextId + 1
    rcases List.mem_cons.mp hc with rfl | hc
    · omega
    · exact Nat.lt_succ_of_lt (hs.copyBelow c hc)
  · intro c hc
    rw [hids]
    change _ ↔ _ ∨ c.id ∈ l.gone
    rcases List.mem_cons.mp hc with rfl | hc
    · simp [ho]
    · have hne : c.id ≠ h.id := by have := hs.copyBelow c hc; omega
      rw [hs.split c hc, List.mem_cons]
      simp [hne]
  · intro o hm
    obtain ⟨h1, h2, h3⟩ := hs.freed o hm
    exact ⟨h1, h2, h3.cons h⟩

theorem Sound.issue (hs : Sound copies l) (hid : h.id = l.nextId) (ho : h.owned = false) :
    Sound (h :: copies) l.issue := by
  obtain ⟨hout, hgone⟩ := hs.fresh
  refine ⟨hs.distinct, hs.apart, ?_, ?_, ?_, ?_, hs.freedOnce, ?_⟩
  · exact fun id hm => Nat.lt_succ_of_lt (hs.goneBelow id hm)
  · exact fun o hm => ⟨(hs.outstanding o hm).1, (hs.outstanding o hm).2.cons h⟩
  · intro c hc
    change c.id < l.nextId + 1
    rcases List.mem_cons.mp hc with rfl | hc
    · omega
    · exact Nat.lt_succ_of_lt (hs.copyBelow c hc)
  · intro c hc
    rcases List.mem_cons.mp hc with rfl | hc
    · rw [ho, hid]
      exact ⟨Bool.noConfusion, fun hm => (hm.elim hout hgone).elim⟩
    · exact hs.split c hc
  · intro o hm
    obtain ⟨h1, h2, h3⟩ := hs.freed o hm
    exact ⟨h1, h2, h3.cons h⟩

theorem Sound.restamp (hs : Sound copies l) (hi : Issued copies h) : Sound copies (l.restamp h) := by
  have hids : (l.restamp h).outstandingIds = l.outstandingIds := outstandingIds_restamp
  refine ⟨hids ▸ hs.distinct, hids ▸ hs.apart, hs.goneBelow, ?_, hs.copyBelow, ?_, hs.freedOnce,
    hs.freed⟩
  · intro o hm
    obtain ⟨o', ho', rfl⟩ := List.mem_map.mp hm
    by_cases he : o'.id = h.id
    · rw [if_pos he]
      exact ⟨(hs.owned_iff hi).mpr (.inl (mem_outstandingIds.mpr ⟨o', ho', he⟩)), hi⟩
    · rw [if_neg he]
      exact hs.outstanding o' ho'
  · intro c hc
    rw [hids]
    exact hs.split c hc

/-- The newest handle has an id of its own, so dropping it leaves the ones below. -/
theorem Sound.filter_below (hs : Sound copies l) {below : List Handle} (hl : l.outstanding = h :: below) :
    below.filter (·.id != h.id) = below := by
  have hd := hs.distinct
  rw [outstandingIds, hl, List.map_cons, List.nodup_cons] at hd
  refine List.filter_eq_self.mpr fun o ho => ?_
  rw [bne_iff_ne]
  exact fun heq => hd.1 (List.mem_map.mpr ⟨o, ho, heq⟩)

/-- A later copy of the newest handle takes its place. -/
theorem Sound.outstanding_restamp (hs : Sound copies l) {below : List Handle}
    (hl : l.outstanding = h :: below) (epoch : Nat) :
    (l.restamp { h with epoch }).outstanding = { h with epoch } :: below := by
  have hothers : below.map (fun o => if o.id = h.id then { h with epoch } else o) = below.map id := by
    refine List.map_congr_left fun o ho => if_neg ?_
    rw [← hs.filter_below hl, List.mem_filter, bne_iff_ne] at ho
    exact ho.2
  rw [PlainLedger.restamp, hl, List.map_cons, if_pos rfl, hothers, List.map_id]

theorem Sound.drop (hs : Sound copies l) {id : Nat} (hid : id ∈ l.outstandingIds ∨ id ∈ l.gone) :
    Sound copies (l.drop id) := by
  have hsub : (l.drop id).outstanding.Sublist l.outstanding := List.filter_sublist
  have hmem : ∀ i, i ∈ (l.drop id).outstandingIds ↔ i ∈ l.outstandingIds ∧ i ≠ id :=
    fun _ => mem_filter_ids
  refine ⟨hs.distinct.sublist (hsub.map _), ?_, ?_, ?_, hs.copyBelow, ?_, hs.freedOnce, ?_⟩
  · intro i hm hg
    obtain ⟨h1, h2⟩ := (hmem i).mp hm
    rcases List.mem_cons.mp hg with he | hg
    · exact h2 he
    · exact hs.apart i h1 hg
  · intro i hg
    rcases List.mem_cons.mp hg with rfl | hg
    · exact hid.elim hs.outstandingBelow (hs.goneBelow i)
    · exact hs.goneBelow i hg
  · exact fun o hm => hs.outstanding o (hsub.subset hm)
  · intro c hc
    rw [hs.split c hc, hmem]
    change _ ↔ _ ∨ c.id ∈ id :: l.gone
    rw [List.mem_cons]
    by_cases he : c.id = id
    · simp [he, hid]
    · simp [he]
  · intro o hm
    obtain ⟨h1, h2, h3⟩ := hs.freed o hm
    exact ⟨h1, List.mem_cons_of_mem _ h2, h3⟩

/-- The guest is asked to free an outstanding handle, which it was not before. -/
theorem Sound.settle (hs : Sound copies l) (hi : Issued copies h) (ho : h.id ∈ l.outstandingIds) :
    Sound copies (l.settle h) := by
  have hd := hs.drop (.inl ho)
  refine ⟨hd.distinct, hd.apart, hd.goneBelow, hd.outstanding, hd.copyBelow, hd.split, ?_, ?_⟩
  · refine List.nodup_cons.mpr ⟨fun hm => ?_, hs.freedOnce⟩
    obtain ⟨o, hof, he⟩ := List.mem_map.mp hm
    have hg := (hs.freed o hof).2.1
    rw [show o.id = h.id from he] at hg
    exact hs.apart _ ho hg
  · intro o hm
    rcases List.mem_cons.mp hm with rfl | hm
    · exact ⟨(hs.owned_iff hi).mpr (.inl ho), List.mem_cons_self, hi⟩
    · exact hd.freed o hm

end PlainLedger

/-! ### The two ledgers side by side -/

/-- What a ledger and a plain ledger have in common at any time: they number and hold the same
handles, and nothing that is outstanding counts as released. -/
structure Follows (l : Ledger) (p : PlainLedger) : Prop where
  nextId : l.nextId = p.nextId
  outstanding : l.outstanding = p.outstanding
  markBelow : l.releasedBelow ≤ l.nextId
  released : ∀ id ∈ l.released, id ∈ p.gone
  kept : ∀ id ∈ p.outstandingIds, l.isReleased id = false

/-- Between the steps of a session everything that is gone also counts as released. -/
structure Agrees (l : Ledger) (p : PlainLedger) : Prop extends Follows l p where
  gone : ∀ id ∈ p.gone, l.isReleased id = true

namespace Ledger

theorem isReleased_iff {l : Ledger} {id : Nat} :
    l.isReleased id = true ↔ id < l.releasedBelow ∨ id ∈ l.released := by
  simp [isReleased]

theorem isReleased_settle {l : Ledger} {id i : Nat} :
    (l.settle id).isReleased i = true ↔ i = id ∨ l.isReleased i = true := by
  rw [isReleased_iff, isReleased_iff]
  simp only [settle, List.mem_cons]
  tauto

end Ledger

section

open PlainLedger (Sound)

variable {copies : List Handle} {l : Ledger} {p : PlainLedger} {h : Handle}

/-- Of every owned handle that was issued, the ledger counts it as released exactly when it is gone
from the plain ledger. -/
theorem isReleased_iff_gone (ha : Agrees l p) (hs : Sound copies p) (hi : Issued copies h)
    (ho : h.owned = true) : l.isReleased h.id = true ↔ h.id ∈ p.gone := by
  refine ⟨fun hr => ?_, ha.gone _⟩
  rcases (hs.owned_iff hi).mp ho with hm | hm
  · rw [ha.kept _ hm] at hr
    cases hr
  · exact hm

theorem any_outstanding (hf : Follows l p) {id : Nat} :
    l.outstanding.any (·.id == id) = true ↔ id ∈ p.outstandingIds := by
  rw [hf.outstanding]
  simp [PlainLedger.outstandingIds]

/-- A new id does not count as released. -/
theorem fresh_kept (hf : Follows l p) (hs : Sound copies p) : l.isReleased p.nextId = false := by
  rw [Bool.eq_false_iff]
  intro hr
  rcases Ledger.isReleased_iff.mp hr with hm | hm
  · have h1 := hf.nextId
    have h2 := hf.markBelow
    omega
  · exact hs.fresh.2 (hf.released _ hm)

theorem Agrees.enter (ha : Agrees l p) (hs : Sound copies p) (hid : h.id = p.nextId) :
    Agrees (l.enter h) (p.enter h) where
  nextId := by simp [Ledger.enter, PlainLedger.enter, ha.nextId]
  outstanding := by simp [Ledger.enter, PlainLedger.enter, ha.outstanding]
  markBelow := Nat.le_succ_of_le ha.markBelow
  released := ha.released
  kept := by
    intro id hm
    rcases List.mem_cons.mp hm with (he : id = h.id) | hm
    · change l.isReleased id = false
      rw [he]
      exact hid ▸ fresh_kept ha.toFollows hs
    · exact ha.kept id hm
  gone := ha.gone

theorem Agrees.issue (ha : Agrees l p) : Agrees l.issue p.issue where
  nextId := by simp [Ledger.issue, PlainLedger.issue, ha.nextId]
  outstanding := ha.outstanding
  markBelow := Nat.le_succ_of_le ha.markBelow
  released := ha.released
  kept := ha.kept
  gone := ha.gone

theorem Follows.restamp (hf : Follows l p) : Follows (l.restamp h) (p.restamp h) where
  nextId := hf.nextId
  outstanding := by simp only [Ledger.restamp, PlainLedger.restamp, hf.outstanding]
  markBelow := hf.markBelow
  released := hf.released
  kept := by
    intro id hm
    rw [PlainLedger.outstandingIds_restamp] at hm
    exact hf.kept id hm

theorem Follows.settle (hf : Follows l p) : Follows (l.settle h.id) (p.settle h) where
  nextId := hf.nextId
  outstanding := by simp only [Ledger.settle, PlainLedger.settle, hf.outstanding]
  markBelow := hf.markBelow
  released := by
    intro id hm
    rcases List.mem_cons.mp hm with rfl | hm
    · exact List.mem_cons_self
    · exact List.mem_cons_of_mem _ (hf.released id hm)
  kept := by
    intro id hm
    obtain ⟨h1, h2⟩ := PlainLedger.mem_filter_ids.mp hm
    rw [Bool.eq_false_iff]
    intro hr
    rcases Ledger.isReleased_settle.mp hr with he | hr
    · exact h2 he
    · rw [hf.kept id h1] at hr
      cases hr

theorem Follows.drop (hf : Follows l p) {id : Nat} : Follows (l.drop id) (p.drop id) where
  nextId := hf.nextId
  outstanding := by simp only [Ledger.drop, PlainLedger.drop, hf.outstanding]
  markBelow := hf.markBelow
  released := fun i hm => List.mem_cons_of_mem _ (hf.released i hm)
  kept := fun i hm => hf.kept i (PlainLedger.mem_filter_ids.mp hm).1

/-- With nothing outstanding, the mark moved to the next id covers all that is gone. -/
theorem Follows.close (hf : Follows l p) (hs : Sound copies p) (hn : p.outstanding = []) :
    Agrees l.close p where
  nextId := hf.nextId
  outstanding := hf.outstanding
  markBelow := Nat.le_refl _
  released := by simp [Ledger.close]
  kept := by simp [PlainLedger.outstandingIds, hn]
  gone := by
    intro id hm
    rw [Ledger.isReleased_iff]
    left
    change id < l.nextId
    rw [hf.nextId]
    exact hs.goneBelow id hm

end

/-! ### The actions side by side -/

variable {σ : Type}

/-- Books and plain books of one guest between two steps of a session. -/
structure Mirrors (copies : List Handle) (b : Books σ) (p : PlainBooks σ) : Prop where
  guest : b.guest = p.guest
  sound : p.ledger.Sound copies
  agrees : Agrees b.ledger p.ledger

/-- All copies of handles after an answer that issues one, if it does. -/
def copiesAfter (copies : List Handle) : Except BindError Handle → List Handle
  | .ok h => h :: copies
  | .error _ => copies

variable [GuestAllocator σ] {copies : List Handle} {b : Books σ} {p : PlainBooks σ}

theorem adopt_mirrors (hm : Mirrors copies b p) (ptr len : UInt32) :
    (Ledger.adopt ptr len b).1 = (PlainLedger.adopt ptr len p).1 ∧
      Mirrors (copiesAfter copies (Ledger.adopt ptr len b).1) (Ledger.adopt ptr len b).2
        (PlainLedger.adopt ptr len p).2 := by
  obtain ⟨l, guest⟩ := b
  obtain ⟨q, _⟩ := p
  obtain ⟨rfl, hs : q.Sound copies, ha : Agrees l q⟩ := hm
  simp only [Ledger.adopt, PlainLedger.adopt, copiesAfter, ha.nextId]
  exact ⟨trivial, rfl, hs.enter rfl rfl, ha.enter hs rfl⟩

theorem allocate_mirrors (hm : Mirrors copies b p) (len : UInt32) :
    (Ledger.allocate len b).1 = (PlainLedger.allocate len p).1 ∧
      Mirrors (copiesAfter copies (Ledger.allocate len b).1) (Ledger.allocate len b).2
        (PlainLedger.allocate len p).2 := by
  obtain ⟨l, guest⟩ := b
  obtain ⟨q, _⟩ := p
  obtain ⟨rfl, hs : q.Sound copies, ha : Agrees l q⟩ := hm
  simp only [Ledger.allocate, PlainLedger.allocate]
  rcases GuestAllocator.alloc guest len with ⟨e | ptr, guest⟩
  · exact ⟨rfl, rfl, hs, ha⟩
  · by_cases h0 : ptr = 0
    · simp only [if_pos h0]
      exact ⟨trivial, rfl, hs, ha⟩
    · simp only [if_neg h0]
      exact adopt_mirrors ⟨rfl, hs, ha⟩ ptr len

theorem borrow_mirrors (hm : Mirrors copies b p) (ptr len : UInt32) :
    (Ledger.borrow ptr len b).1 = (PlainLedger.borrow ptr len p).1 ∧
      Mirrors (copiesAfter copies (Ledger.borrow ptr len b).1) (Ledger.borrow ptr len b).2
        (PlainLedger.borrow ptr len p).2 := by
  obtain ⟨l, guest⟩ := b
  obtain ⟨q, _⟩ := p
  obtain ⟨rfl, hs : q.Sound copies, ha : Agrees l q⟩ := hm
  simp only [Ledger.borrow, PlainLedger.borrow, copiesAfter, ha.nextId]
  exact ⟨trivial, rfl, hs.issue rfl rfl, ha.issue⟩

/-- Refreshing asks the same of both ledgers, whatever else they disagree on. -/
theorem refresh_eq {l : Ledger} {q : PlainLedger} (guest : σ) {h : Handle}
    (hr : h.owned = true → (l.isReleased h.id = true ↔ h.id ∈ q.gone)) :
    (∃ e, Ledger.refresh h ⟨l, guest⟩ = (.error e, ⟨l, guest⟩) ∧
      PlainLedger.refresh h ⟨q, guest⟩ = (.error e, ⟨q, guest⟩)) ∨
    (∃ epoch guest', Ledger.refresh h ⟨l, guest⟩ =
        (.ok { h with epoch }, ⟨l.restamp { h with epoch }, guest'⟩) ∧
      PlainLedger.refresh h ⟨q, guest⟩ =
        (.ok { h with epoch }, ⟨q.restamp { h with epoch }, guest'⟩)) := by
  have hiff : (h.owned && l.isReleased h.id) = true ↔ h.owned = true ∧ h.id ∈ q.gone := by
    rw [Bool.and_eq_true]
    exact and_congr_right hr
  simp only [Ledger.refresh, PlainLedger.refresh]
  by_cases hg : h.owned = true ∧ h.id ∈ q.gone
  · left
    rw [if_pos (hiff.mpr hg), if_pos hg]
    exact ⟨_, rfl, rfl⟩
  rw [if_neg fun hc => hg (hiff.mp hc), if_neg hg]
  by_cases hb : GuestAllocator.memoryLength guest < h.stop
  · left
    rw [if_pos hb, if_pos hb]
    exact ⟨_, rfl, rfl⟩
  · right
    rw [if_neg hb, if_neg hb]
    exact ⟨_, _, rfl, rfl⟩

theorem refresh_mirrors (hm : Mirrors copies b p) {h : Handle} (hi : Issued copies h) :
    (Ledger.refresh h b).1 = (PlainLedger.refresh h p).1 ∧
      Mirrors (copiesAfter copies (Ledger.refresh h b).1) (Ledger.refresh h b).2
        (PlainLedger.refresh h p).2 := by
  obtain ⟨l, guest⟩ := b
  obtain ⟨q, _⟩ := p
  obtain ⟨rfl, hs : q.Sound copies, ha : Agrees l q⟩ := hm
  rcases refresh_eq guest (isReleased_iff_gone ha hs hi) with
    ⟨e, h1, h2⟩ | ⟨epoch, guest', h1, h2⟩
  · rw [h1, h2]
    exact ⟨rfl, rfl, hs, ha⟩
  · rw [h1, h2]
    have hj := hi.restamp epoch
    exact ⟨rfl, rfl, (hs.restamp hj).copy hj, ha.toFollows.restamp, ha.gone⟩

/-- Giving back asks the same of both ledgers, and frees the handle from both or from neither. -/
theorem release_eq {l : Ledger} {q : PlainLedger} (guest : σ) {h : Handle} (hf : Follows l q)
    (hs : q.Sound copies) (hi : Issued copies h)
    (hr : h.owned = true → (l.isReleased h.id = true ↔ h.id ∈ q.gone)) :
    (∃ result guest', Ledger.release h ⟨l, guest⟩ = (result, ⟨l, guest'⟩) ∧
      PlainLedger.release h ⟨q, guest⟩ = (result, ⟨q, guest'⟩) ∧
      (h.owned = false ∨ ∃ e, result = .error e)) ∨
    (∃ result guest', Ledger.release h ⟨l, guest⟩ = (result, ⟨l.settle h.id, guest'⟩) ∧
      PlainLedger.release h ⟨q, guest⟩ = (result, ⟨q.settle h, guest'⟩) ∧
      h.id ∈ q.outstandingIds) := by
  simp only [Ledger.release, PlainLedger.release]
  by_cases ho : h.owned = false
  · left
    simp only [ho, Bool.not_false, if_true]
    exact ⟨_, _, rfl, rfl, .inl trivial⟩
  rw [Bool.not_eq_false] at ho
  simp only [ho, Bool.not_true, Bool.false_eq_true, if_false]
  by_cases hg : h.id ∈ q.gone
  · left
    rw [if_pos ((hr ho).mpr hg), if_pos hg]
    exact ⟨_, _, rfl, rfl, .inr ⟨_, rfl⟩⟩
  rw [if_neg fun hc => hg ((hr ho).mp hc), if_neg hg]
  have hout : h.id ∈ q.outstandingIds := ((hs.owned_iff hi).mp ho).resolve_right hg
  rcases GuestAllocator.epoch guest with ⟨epoch, guest⟩
  by_cases he : h.epoch ≠ epoch
  · left
    simp only [if_pos he]
    exact ⟨_, _, rfl, rfl, .inr ⟨_, rfl⟩⟩
  · right
    simp only [if_neg he, if_pos ((any_outstanding hf).mpr hout)]
    exact ⟨_, _, rfl, rfl, hout⟩

theorem release_mirrors (hm : Mirrors copies b p) {h : Handle} (hi : Issued copies h) :
    (Ledger.release h b).1 = (PlainLedger.release h p).1 ∧
      Mirrors copies (Ledger.release h b).2 (PlainLedger.release h p).2 := by
  obtain ⟨l, guest⟩ := b
  obtain ⟨q, _⟩ := p
  obtain ⟨rfl, hs : q.Sound copies, ha : Agrees l q⟩ := hm
  rcases release_eq guest ha.toFollows hs hi (isReleased_iff_gone ha hs hi) with
    ⟨result, guest', h1, h2, -⟩ | ⟨result, guest', h1, h2, ho⟩
  · rw [h1, h2]
    exact ⟨rfl, rfl, hs, ha⟩
  · rw [h1, h2]
    refine ⟨rfl, rfl, hs.settle hi ho, ha.toFollows.settle, fun id hm => ?_⟩
    rw [Ledger.isReleased_settle]
    exact (List.mem_cons.mp hm).imp_right (ha.gone id)

/-! ### Giving everything back -/

/-- Refreshing and giving back an outstanding handle takes it off both ledgers, unless that fails. -/
theorem refreshRelease_follows {l : Ledger} {q : PlainLedger} (guest : σ) {h : Handle}
    {rest : List Handle} (hf : Follows l q) (hs : q.Sound copies) (hq : q.outstanding = h :: rest) :
    ∃ result l' q' guest', Ledger.refreshRelease h ⟨l, guest⟩ = (result, ⟨l', guest'⟩) ∧
      PlainLedger.refreshRelease h ⟨q, guest⟩ = (result, ⟨q', guest'⟩) ∧ Follows l' q' ∧
      q'.Sound copies ∧ (h.id ∈ q'.outstandingIds ∨ h.id ∈ q'.gone) ∧
      q'.outstanding.filter (·.id != h.id) = rest ∧ (result = .ok () → q'.outstanding = rest) := by
  have hmem : h ∈ q.outstanding := hq ▸ List.mem_cons_self
  have hout : h.id ∈ q.outstandingIds := PlainLedger.mem_outstandingIds.mpr ⟨h, hmem, rfl⟩
  have hi := (hs.outstanding h hmem).2
  have hfilter := hs.filter_below hq
  have hr : h.owned = true → (l.isReleased h.id = true ↔ h.id ∈ q.gone) := fun _ =>
    ⟨fun hc => Bool.noConfusion ((hf.kept _ hout).symm.trans hc),
      fun hc => absurd hc (hs.apart _ hout)⟩
  rcases refresh_eq guest hr with ⟨e, h1, h2⟩ | ⟨epoch, guest', h1, h2⟩
  · refine ⟨.error e, l, q, guest, ?_, ?_, hf, hs, .inl hout, ?_, fun hc => by cases hc⟩
    · simp only [Ledger.refreshRelease, Action.andThen, h1]
    · simp only [PlainLedger.refreshRelease, h2]
    · rw [hq]
      simpa using hfilter
  have hj := hi.restamp epoch
  have hf' : Follows (l.restamp { h with epoch }) (q.restamp { h with epoch }) := hf.restamp
  have hs' := hs.restamp hj
  have hstamped := hs.outstanding_restamp hq epoch
  have hids : (q.restamp { h with epoch }).outstandingIds = q.outstandingIds :=
    PlainLedger.outstandingIds_restamp
  have hrun : ∀ r : Except BindError Unit × Books σ,
      Ledger.release { h with epoch } ⟨l.restamp { h with epoch }, guest'⟩ = r →
        Ledger.refreshRelease h ⟨l, guest⟩ = r := fun r hr' => by
    simp only [Ledger.refreshRelease, Action.andThen, h1, hr']
  have hrun' : ∀ r : Except BindError Unit × PlainBooks σ,
      PlainLedger.release { h with epoch } ⟨q.restamp { h with epoch }, guest'⟩ = r →
        PlainLedger.refreshRelease h ⟨q, guest⟩ = r := fun r hr' => by
    simp only [PlainLedger.refreshRelease, h2, hr']
  rcases release_eq guest' hf' hs' hj hr with
    ⟨result, guest'', h3, h4, hfail⟩ | ⟨result, guest'', h3, h4, -⟩
  · refine ⟨result, _, _, guest'', hrun _ h3, hrun' _ h4, hf', hs', .inl (hids ▸ hout), ?_, ?_⟩
    · rw [hstamped]
      simpa using hfilter
    · rintro rfl
      have ho := (hs.outstanding h hmem).1
      rcases hfail with hfail | ⟨e, he⟩
      · rw [show h.owned = false from hfail] at ho
        cases ho
      · cases he
  · have hleft : ((q.restamp { h with epoch }).settle { h with epoch }).outstanding = rest := by
      rw [PlainLedger.settle, hstamped]
      simpa using hfilter
    refine ⟨result, _, _, guest'', hrun _ h3, hrun' _ h4, hf'.settle,
      hs'.settle hj (hids ▸ hout), .inr List.mem_cons_self, ?_, fun _ => hleft⟩
    rw [hleft, hfilter]

/-- Both ledgers give back the same handles in the same order, with the same answers of the guest. -/
theorem releaseNewest_follows : ∀ (rest : List Handle) (first? : Option BindError) (guest : σ)
    {l : Ledger} {q : PlainLedger}, Follows l q → q.Sound copies → q.outstanding = rest →
    ∃ result l' q' guest',
      Ledger.releaseNewest rest.length first? ⟨l, guest⟩ = (result, ⟨l', guest'⟩) ∧
      PlainLedger.releaseEach rest first? ⟨q, guest⟩ = (result, ⟨q', guest'⟩) ∧ Follows l' q' ∧
      q'.Sound copies ∧ q'.outstanding = []
  | [], none, guest, l, q, hf, hs, hq => ⟨_, l, q, guest, rfl, rfl, hf, hs, hq⟩
  | [], some e, guest, l, q, hf, hs, hq => ⟨_, l, q, guest, rfl, rfl, hf, hs, hq⟩
  | h :: rest, first?, guest, l, q, hf, hs, hq => by
    obtain ⟨result, l', q', guest', h1, h2, hf', hs', hid, hleft, hok⟩ :=
      refreshRelease_follows guest hf hs hq
    have hl : l.outstanding = h :: rest := hf.outstanding.trans hq
    simp only [List.length_cons, Ledger.releaseNewest, PlainLedger.releaseEach, hl, h1, h2]
    cases result with
    | ok _ => exact releaseNewest_follows rest first? guest' hf' hs' (hok rfl)
    | error e =>
      exact releaseNewest_follows rest (first?.or (some e)) guest' hf'.drop (hs'.drop hid) hleft

theorem releaseAll_mirrors (hm : Mirrors copies b p) :
    (Ledger.releaseAll b).1 = (PlainLedger.releaseAll p).1 ∧
      Mirrors copies (Ledger.releaseAll b).2 (PlainLedger.releaseAll p).2 := by
  obtain ⟨l, guest⟩ := b
  obtain ⟨q, _⟩ := p
  obtain ⟨rfl, hs : q.Sound copies, ha : Agrees l q⟩ := hm
  obtain ⟨result, l', q', guest', h1, h2, hf, hs', hn⟩ :=
    releaseNewest_follows q.outstanding none guest ha.toFollows hs rfl
  simp only [Ledger.releaseAll, PlainLedger.releaseAll, ha.outstanding, h1, h2]
  exact ⟨trivial, rfl, hs', hf.close hs' hn⟩

/-! ### The notes about the guest -/

/-- The guest was asked to free just what the plain ledger says. -/
def Noted (p : PlainBooks (Watched σ)) : Prop := p.guest.freed = p.ledger.freed.map Handle.place

section

variable {p : PlainBooks (Watched σ)} {h : Handle}

theorem adopt_noted (hn : Noted p) (ptr len : UInt32) : Noted (PlainLedger.adopt ptr len p).2 := hn

theorem allocate_noted (hn : Noted p) (len : UInt32) : Noted (PlainLedger.allocate len p).2 := by
  rcases ha : GuestAllocator.alloc p.guest len with ⟨e | ptr, w⟩
  all_goals
    have hf : p.guest.freed = w.freed := congrArg (·.2.freed) ha
    have hw : Noted ⟨p.ledger, w⟩ := hf.symm.trans hn
    simp only [PlainLedger.allocate, ha]
  · exact hw
  · by_cases h0 : ptr = 0
    · simp only [if_pos h0]
      exact hw
    · simp only [if_neg h0]
      exact adopt_noted hw ptr len

theorem borrow_noted (hn : Noted p) (ptr len : UInt32) : Noted (PlainLedger.borrow ptr len p).2 := hn

theorem refresh_noted (hn : Noted p) : Noted (PlainLedger.refresh h p).2 := by
  simp only [PlainLedger.refresh]
  split
  · exact hn
  · split <;> exact hn

theorem release_noted (hn : Noted p) : Noted (PlainLedger.release h p).2 := by
  simp only [PlainLedger.release]
  split
  · exact hn
  split
  · exact hn
  split
  · exact hn
  · change h.place :: p.guest.freed = (h :: p.ledger.freed).map Handle.place
    rw [show p.guest.freed = _ from hn, List.map_cons]

theorem refreshRelease_noted (hn : Noted p) : Noted (PlainLedger.refreshRelease h p).2 := by
  have h1 := refresh_noted (h := h) hn
  rcases hr : PlainLedger.refresh h p with ⟨e | h', p'⟩
  all_goals
    rw [hr] at h1
    simp only [PlainLedger.refreshRelease, hr]
  · exact h1
  · exact release_noted h1

theorem releaseEach_noted : ∀ (hs : List Handle) (first? : Option BindError)
    {p : PlainBooks (Watched σ)}, Noted p → Noted (PlainLedger.releaseEach hs first? p).2
  | [], none, _, hn => hn
  | [], some _, _, hn => hn
  | h :: rest, first?, p, hn => by
    have h1 := refreshRelease_noted (h := h) hn
    rcases hr : PlainLedger.refreshRelease h p with ⟨e | _, p'⟩
    all_goals
      rw [hr] at h1
      simp only [PlainLedger.releaseEach, hr]
      exact releaseEach_noted rest _ h1

end

/-! ### Sessions side by side -/

/-- A session and one with the plain ledger, step for step. -/
structure Alongside (s : Session (Books (Watched σ))) (t : Session (PlainBooks (Watched σ))) :
    Prop where
  copies : s.copies = t.copies
  answers : s.answers = t.answers
  books : Mirrors s.copies s.books t.books
  noted : Noted t.books

section

variable {s : Session (Books (Watched σ))} {t : Session (PlainBooks (Watched σ))}

omit [GuestAllocator σ] in
theorem Alongside.issue (hst : Alongside s t) {x : Except BindError Handle × Books (Watched σ)}
    {y : Except BindError Handle × PlainBooks (Watched σ)} (hxy : x.1 = y.1)
    (hm : Mirrors (copiesAfter s.copies x.1) x.2 y.2) (hn : Noted y.2) :
    Alongside (s.issue x) (t.issue y) := by
  obtain ⟨x1, x2⟩ := x
  obtain ⟨y1, y2⟩ := y
  obtain rfl : x1 = y1 := hxy
  cases x1 with
  | ok h => exact ⟨congrArg _ hst.copies, congrArg _ hst.answers, hm, hn⟩
  | error e => exact ⟨hst.copies, congrArg _ hst.answers, hm, hn⟩

omit [GuestAllocator σ] in
theorem Alongside.answer (hst : Alongside s t) {x : Except BindError Unit × Books (Watched σ)}
    {y : Except BindError Unit × PlainBooks (Watched σ)} (hxy : x.1 = y.1)
    (hm : Mirrors s.copies x.2 y.2) (hn : Noted y.2) : Alongside (s.answer x) (t.answer y) := by
  obtain ⟨x1, x2⟩ := x
  obtain ⟨y1, y2⟩ := y
  obtain rfl : x1 = y1 := hxy
  cases x1 with
  | ok _ => exact ⟨hst.copies, congrArg _ hst.answers, hm, hn⟩
  | error e => exact ⟨hst.copies, congrArg _ hst.answers, hm, hn⟩

/-- One step keeps two sessions alongside each other. -/
theorem Alongside.step (hst : Alongside s t) (op : LedgerOp σ) :
    Alongside (Ledger.keeper.step s op) (PlainLedger.keeper.step t op) := by
  have hm := hst.books
  have hn := hst.noted
  cases op with
  | allocate len =>
    exact hst.issue (allocate_mirrors hm len).1 (allocate_mirrors hm len).2 (allocate_noted hn len)
  | adopt ptr len =>
    exact hst.issue (adopt_mirrors hm ptr len).1 (adopt_mirrors hm ptr len).2 (adopt_noted hn ptr len)
  | borrow ptr len =>
    exact hst.issue (borrow_mirrors hm ptr len).1 (borrow_mirrors hm ptr len).2
      (borrow_noted hn ptr len)
  | refresh copy =>
    simp only [Keeper.step, ← hst.copies]
    cases hc : s.copies[copy]? with
    | none => exact hst
    | some h =>
      have hi : Issued s.copies h := .self (List.mem_of_getElem? hc)
      exact hst.issue (refresh_mirrors hm hi).1 (refresh_mirrors hm hi).2 (refresh_noted hn)
  | release copy =>
    simp only [Keeper.step, ← hst.copies]
    cases hc : s.copies[copy]? with
    | none => exact hst
    | some h =>
      have hi : Issued s.copies h := .self (List.mem_of_getElem? hc)
      exact hst.answer (release_mirrors hm hi).1 (release_mirrors hm hi).2 (release_noted hn)
  | releaseAll =>
    exact hst.answer (releaseAll_mirrors hm).1 (releaseAll_mirrors hm).2 (releaseEach_noted _ _ hn)
  | disturb change =>
    refine ⟨hst.copies, hst.answers, ⟨?_, hm.sound, hm.agrees⟩, hn⟩
    simp only [Ledger.keeper, PlainLedger.keeper, Keeper.step, hm.guest]

theorem Alongside.foldl : ∀ (ops : List (LedgerOp σ)) {s : Session (Books (Watched σ))}
    {t : Session (PlainBooks (Watched σ))}, Alongside s t →
    Alongside (ops.foldl Ledger.keeper.step s) (ops.foldl PlainLedger.keeper.step t)
  | [], _, _, hst => hst
  | op :: ops, _, _, hst => Alongside.foldl ops (hst.step op)

end

/-- Every session with the ledger runs alongside the one with the plain ledger. -/
theorem session_alongside (guest : σ) (ops : List (LedgerOp σ)) :
    Alongside (Ledger.session guest ops) (PlainLedger.session guest ops) := by
  refine Alongside.foldl ops ⟨rfl, rfl, ⟨rfl, PlainLedger.sound_empty, ⟨?_, ?_⟩⟩, rfl⟩
  · exact ⟨rfl, rfl, Nat.le_refl _, by simp [Ledger.empty], by
      simp [PlainLedger.empty, PlainLedger.outstandingIds]⟩
  · simp [PlainLedger.empty]

/-! ### What the ledger says of a handle -/

section

variable {h : Handle}

/-- The ledger itself refuses to give back an owned handle, and leaves everything as it is, exactly
when the handle is gone. -/
theorem release_doubleFree_iff (hm : Mirrors copies b p) (hi : Issued copies h) (ho : h.owned = true) :
    Ledger.release h b = (.error (.doubleFree h.id h.ptr), b) ↔ h.id ∈ p.ledger.gone := by
  rw [← isReleased_iff_gone hm.agrees hm.sound hi ho]
  obtain ⟨l, guest⟩ := b
  constructor
  · intro he
    by_contra hr
    have hr' : ¬ l.isReleased h.id = true := hr
    have hout := ((hm.sound.owned_iff hi).mp ho).resolve_right fun hg => hr (hm.agrees.gone _ hg)
    have hany : l.outstanding.any (·.id == h.id) = true := (any_outstanding hm.agrees.toFollows).mpr hout
    simp only [Ledger.release, ho, Bool.not_true, Bool.false_eq_true, if_false, if_neg hr',
      if_pos hany] at he
    split at he
    · cases congrArg Prod.fst he
    · -- what is freed is counted, so the books do not stay as they are
      have hc := congrArg (fun x => x.2.ledger.releases) he
      simp [Ledger.settle] at hc
  · intro hr
    have hr' : l.isReleased h.id = true := hr
    simp only [Ledger.release, ho, Bool.not_true, Bool.false_eq_true, if_false, if_pos hr']

/-- The ledger refuses to refresh an owned handle as freed twice exactly when it is gone. -/
theorem refresh_doubleFree_iff (hm : Mirrors copies b p) (hi : Issued copies h) (ho : h.owned = true) :
    (Ledger.refresh h b).1 = .error (.doubleFree h.id h.ptr) ↔ h.id ∈ p.ledger.gone := by
  rw [← isReleased_iff_gone hm.agrees hm.sound hi ho]
  obtain ⟨l, guest⟩ := b
  change _ ↔ l.isReleased h.id = true
  simp only [Ledger.refresh, ho, Bool.true_and]
  split
  · rename_i hr
    exact ⟨fun _ => hr, fun _ => rfl⟩
  · rename_i hr
    refine ⟨fun he => ?_, fun hc => absurd hc hr⟩
    split at he <;> cases he

end

/-- **Emptying the set of released ids cannot be seen.** In every session over every guest, the ledger
gives the same answers, issues the same handles and makes the same calls of the guest as the plain
ledger that remembers everything. The guest frees only owned handles that were issued, each of them at
most once. An owned handle counts as freed twice exactly when it is gone, and every owned id that was
issued is either outstanding or gone. -/
theorem session_mirrors_plain (guest : σ) (ops : List (LedgerOp σ)) :
    let s := Ledger.session guest ops
    let t := PlainLedger.session guest ops
    (s.answers = t.answers ∧ s.copies = t.copies ∧ s.books.guest = t.books.guest) ∧
    (s.books.guest.freed = t.books.ledger.freed.map Handle.place ∧
      (t.books.ledger.freed.map (·.id)).Nodup ∧
      ∀ h ∈ t.books.ledger.freed, h.owned = true ∧ Issued s.copies h) ∧
    ∀ h ∈ s.copies, h.owned = true →
      (Ledger.release h s.books = (.error (.doubleFree h.id h.ptr), s.books) ↔
        h.id ∈ t.books.ledger.gone) ∧
      ((Ledger.refresh h s.books).1 = .error (.doubleFree h.id h.ptr) ↔
        h.id ∈ t.books.ledger.gone) ∧
      Xor (h.id ∈ s.books.ledger.outstanding.map (·.id)) (h.id ∈ t.books.ledger.gone) := by
  intro s t
  have hst : Alongside s t := session_alongside guest ops
  have hm := hst.books
  refine ⟨⟨hst.answers, hst.copies, hm.guest⟩, ⟨?_, hm.sound.freedOnce, ?_⟩, ?_⟩
  · rw [hm.guest]
    exact hst.noted
  · exact fun h hf => ⟨(hm.sound.freed h hf).1, (hm.sound.freed h hf).2.2⟩
  · intro h hc ho
    have hi : Issued s.copies h := .self hc
    refine ⟨release_doubleFree_iff hm hi ho, refresh_doubleFree_iff hm hi ho, ?_⟩
    rw [hm.agrees.outstanding]
    rcases (hm.sound.owned_iff hi).mp ho with hout | hg
    · exact .inl ⟨hout, hm.sound.apart _ hout⟩
    · exact .inr ⟨hg, fun hout => hm.sound.apart _ hout hg⟩

end GuestCall
