/-
# Giving everything back

Giving everything back takes the outstanding handles one after the other, newest first. Each of them is
refreshed and given back, or dropped where that fails; either way it is gone afterwards, and the others are
still there. So nothing is left at the end, whatever the guest answers, and the guest is asked to free the
place of each handle at most once.

Noting down what a guest is asked to free, or what it answers, does not change what happens.

Key definitions: `Ledger.AllOwned`; `Handle.GivenBack`; `GuestView`; `Books.watched` and `Books.unwatched`;
`Heard`, a guest that notes down its answers, and `Books.freeAnswers`.
Key theorems: `refresh_cases`, `release_cases`, `refreshRelease_outstanding`, `outstanding_releaseNewest`,
`releaseAll_seen`, `releaseAll_unwatched`, `releaseNewest_frees`, `freedAll_newest`.
-/
import GuestCall.Proofs.Ledger.Plain

namespace GuestCall

open Ledger GuestCall.Action

/-- A ledger whose outstanding handles are all owned, so that giving one back is never a step for nothing. -/
def Ledger.AllOwned (l : Ledger) : Prop := ∀ x ∈ l.outstanding, x.owned = true

theorem Ledger.AllOwned.restamp {l : Ledger} (h : l.AllOwned) {x : Handle} (hx : x.owned = true) :
    (l.restamp x).AllOwned := by
  intro y hy
  obtain ⟨o, ho, rfl⟩ := List.mem_map.mp hy
  split
  · exact hx
  · exact h o ho

/-! ### One handle -/

section

variable {σ : Type} [GuestAllocator σ] {l : Ledger} {guest guest' guest'' : σ} {x : Handle} {epoch : Nat}
  {b b' : Books σ} {result : Except BindError Unit}

/-- **What refreshing can do**: it fails and does nothing, since the handle is gone or reaches out of the
memory, or a later copy of the handle takes its place. -/
theorem refresh_cases (x : Handle) (b : Books σ) :
    (∃ e, refresh x b = (.error e, b) ∧ (x.owned = true ∧ b.ledger.isReleased x.id = true ∨
      GuestAllocator.memoryLength b.guest < x.stop)) ∨
    ∃ epoch guest, GuestAllocator.epoch b.guest = (epoch, guest) ∧
      refresh x b = (.ok { x with epoch }, ⟨b.ledger.restamp { x with epoch }, guest⟩) := by
  unfold refresh
  dsimp only
  by_cases hgone : (x.owned && b.ledger.isReleased x.id) = true
  · rw [if_pos hgone]
    exact .inl ⟨_, rfl, .inl (by simpa using hgone)⟩
  rw [if_neg hgone]
  by_cases hout : GuestAllocator.memoryLength b.guest < x.stop
  · exact .inl ⟨_, if_pos hout, .inr hout⟩
  · exact .inr ⟨_, _, rfl, if_neg hout⟩

/-- A handle that cannot be refreshed is gone, or it reaches out of the memory. -/
theorem refresh_error {e : BindError} (h : refresh x b = (.error e, b')) : b' = b ∧
    (e = .doubleFree x.id x.ptr ∨
      e = .outOfBounds x.ptr.toNat x.len.toNat (GuestAllocator.memoryLength b.guest) ∧
      GuestAllocator.memoryLength b.guest < x.stop) := by
  unfold refresh at h
  dsimp only at h
  split at h
  · cases h
    exact ⟨rfl, .inl rfl⟩
  split at h
  · rename_i hout
    cases h
    exact ⟨rfl, .inr ⟨rfl, hout⟩⟩
  · cases h

/-- A handle that was refreshed lies in the memory. -/
theorem refresh_ok {y : Handle} (h : refresh x b = (.ok y, b')) :
    x.stop ≤ GuestAllocator.memoryLength b.guest ∧ ∃ epoch guest,
      GuestAllocator.epoch b.guest = (epoch, guest) ∧ b' = ⟨b.ledger.restamp { x with epoch }, guest⟩ := by
  unfold refresh at h
  dsimp only at h
  split at h
  · cases h
  split at h
  · cases h
  · rename_i hinside
    cases h
    exact ⟨Nat.le_of_not_lt hinside, _, _, rfl, rfl⟩

/-- A handle that is not gone and lies in the memory is refreshed. -/
theorem refresh_kept (hkept : l.isReleased x.id = false)
    (hinside : x.stop ≤ GuestAllocator.memoryLength guest)
    (hlook : GuestAllocator.epoch guest = (epoch, guest')) :
    refresh x ⟨l, guest⟩ = (.ok { x with epoch }, ⟨l.restamp { x with epoch }, guest'⟩) := by
  rcases refresh_cases x ⟨l, guest⟩ with ⟨e, -, ⟨-, hgone⟩ | hout⟩ | ⟨now, guest₁, hlook₁, hrefresh⟩
  · rw [show l.isReleased x.id = true from hgone] at hkept
    cases hkept
  · exact absurd hinside (Nat.not_le.mpr hout)
  · cases hlook.symm.trans hlook₁
    exact hrefresh

/-- What giving back a handle comes to: the answer, and the books after it. -/
inductive Handle.GivenBack (x : Handle) (b : Books σ) : Except BindError Unit → Books σ → Prop
  /-- The caller looks after the range, and nothing happens. -/
  | borrowed (owned : x.owned = false) : GivenBack x b (.ok ()) b
  | gone (owned : x.owned = true) (gone : b.ledger.isReleased x.id = true) :
    GivenBack x b (.error (.doubleFree x.id x.ptr)) b
  | stale {epoch : Nat} {guest : σ} (owned : x.owned = true) (kept : b.ledger.isReleased x.id = false)
    (look : GuestAllocator.epoch b.guest = (epoch, guest)) (other : x.epoch ≠ epoch) :
    GivenBack x b (.error (.danglingHandle x.id x.ptr x.epoch epoch)) ⟨b.ledger, guest⟩
  /-- The guest is asked to free the range, and the handle is gone whatever it answers. -/
  | freed {result : Except BindError Unit} {guest guest' : σ} (owned : x.owned = true)
    (kept : b.ledger.isReleased x.id = false) (look : GuestAllocator.epoch b.guest = (x.epoch, guest))
    (out : ∃ o ∈ b.ledger.outstanding, o.id = x.id)
    (free : GuestAllocator.free guest x.ptr x.len = (result, guest')) :
    GivenBack x b result ⟨b.ledger.settle x.id, guest'⟩
  /-- The ledger has no handle of this id. -/
  | unknown {guest : σ} (owned : x.owned = true) (kept : b.ledger.isReleased x.id = false)
    (look : GuestAllocator.epoch b.guest = (x.epoch, guest))
    (out : ¬ ∃ o ∈ b.ledger.outstanding, o.id = x.id) :
    GivenBack x b (.error (.doubleFree x.id x.ptr)) ⟨b.ledger, guest⟩

/-- **What giving back can do.** -/
theorem release_cases (h : release x b = (result, b')) : x.GivenBack b result b' := by
  rcases hlook : GuestAllocator.epoch b.guest with ⟨epoch, guest⟩
  unfold release at h
  dsimp only at h
  rw [hlook] at h
  by_cases hborrowed : x.owned = false
  · rw [hborrowed, Bool.not_false, if_pos rfl] at h
    cases h
    exact .borrowed hborrowed
  have howned : x.owned = true := by simpa using hborrowed
  rw [howned, Bool.not_true, if_neg Bool.false_ne_true] at h
  by_cases hgone : b.ledger.isReleased x.id = true
  · rw [if_pos hgone] at h
    cases h
    exact .gone howned hgone
  rw [if_neg hgone] at h
  have hkept : b.ledger.isReleased x.id = false := by simpa using hgone
  by_cases hother : x.epoch ≠ epoch
  · rw [if_pos hother] at h
    cases h
    exact .stale howned hkept hlook hother
  rw [if_neg hother] at h
  rw [← Decidable.not_not.mp hother] at hlook
  have hany : b.ledger.outstanding.any (·.id == x.id) = true ↔
      ∃ o ∈ b.ledger.outstanding, o.id = x.id := by
    simp only [List.any_eq_true, beq_iff_eq]
  by_cases hout : ∃ o ∈ b.ledger.outstanding, o.id = x.id
  · rw [if_pos (hany.mpr hout)] at h
    cases h
    exact .freed howned hkept hlook hout rfl
  · rw [if_neg fun hout' => hout (hany.mp hout')] at h
    cases h
    exact .unknown howned hkept hlook hout

/-- An outstanding handle that was refreshed in the current epoch is given back to the guest. -/
theorem release_current (howned : x.owned = true) (hkept : l.isReleased x.id = false)
    (hlook : GuestAllocator.epoch guest = (x.epoch, guest'))
    (hout : ∃ o ∈ l.outstanding, o.id = x.id)
    (hfree : GuestAllocator.free guest' x.ptr x.len = (result, guest'')) :
    release x ⟨l, guest⟩ = (result, ⟨l.settle x.id, guest''⟩) := by
  rcases hrelease : release x ⟨l, guest⟩ with ⟨answer, b'⟩
  cases release_cases hrelease with
  | borrowed owned =>
    rw [howned] at owned
    cases owned
  | gone owned gone =>
    rw [show l.isReleased x.id = true from gone] at hkept
    cases hkept
  | stale owned kept look other =>
    cases hlook.symm.trans look
    exact absurd rfl other
  | freed owned kept look out free =>
    cases hlook.symm.trans look
    rw [hfree] at free
    cases free
    rfl
  | unknown owned kept look out => exact absurd hout out

/-- A copy of an outstanding handle is dropped with it. -/
theorem drop_restamp (l : Ledger) (x : Handle) : (l.restamp x).drop x.id = l.drop x.id := by
  have hothers : ∀ handles : List Handle,
      (handles.map fun o => if o.id = x.id then x else o).filter (·.id != x.id) =
        handles.filter (·.id != x.id) := fun handles => by
    induction handles with
    | nil => rfl
    | cons o rest ih =>
      rw [List.map_cons, List.filter_cons, List.filter_cons, ih]
      by_cases hid : o.id = x.id
      · rw [if_pos hid, hid, bne_self_eq_false, if_neg Bool.false_ne_true, if_neg Bool.false_ne_true]
      · rw [if_neg hid]
  unfold restamp drop
  rw [hothers]

theorem outstanding_drop_settle (l : Ledger) (id : Nat) :
    ((l.settle id).drop id).outstanding = (l.drop id).outstanding := by
  unfold settle drop
  rw [List.filter_filter]
  simp only [Bool.and_self]

/-- What is out after an owned handle was given back, or could not be and is dropped: all the others. -/
theorem refreshRelease_outstanding (hx : x.owned = true) (h : refreshRelease x b = (result, b')) :
    (b'.ledger.drop x.id).outstanding = (b.ledger.drop x.id).outstanding ∧
    (result = .ok () → b'.ledger.outstanding = (b.ledger.drop x.id).outstanding) := by
  rcases refresh_cases x b with ⟨e, hrefresh, -⟩ | ⟨epoch, guest, -, hrefresh⟩
  · simp only [refreshRelease, andThen, hrefresh] at h
    cases h
    exact ⟨rfl, nofun⟩
  simp only [refreshRelease, andThen, hrefresh] at h
  have hdropped := congrArg (·.outstanding) (drop_restamp b.ledger { x with epoch })
  cases release_cases h with
  | borrowed owned =>
    rw [show x.owned = false from owned] at hx
    cases hx
  | gone | stale | unknown => exact ⟨hdropped, nofun⟩
  | freed => exact ⟨(outstanding_drop_settle _ _).trans hdropped, fun _ => hdropped⟩

end

/-! ### All of them -/

/-- Without one of its handles, a ledger has less out, all of it still owned. -/
theorem Ledger.AllOwned.dropped {l : Ledger} (h : l.AllOwned) {x : Handle} (hx : x ∈ l.outstanding)
    (l' : Ledger) (hl : l'.outstanding = (l.drop x.id).outstanding) :
    l'.AllOwned ∧ l'.outstanding.length < l.outstanding.length := by
  have hothers : l'.outstanding = l.outstanding.filter (·.id != x.id) := hl
  unfold AllOwned
  rw [hothers]
  refine ⟨fun y hy => h y (List.mem_filter.mp hy).1, ?_⟩
  exact List.length_filter_lt_length_iff_exists.mpr ⟨x, hx, by rw [bne_self_eq_false]; exact nofun⟩

/-- Without its newest handle, a ledger has no more than the others. -/
theorem sublist_drop {l l' : Ledger} {x : Handle} {below : List Handle} (hout : l.outstanding = x :: below)
    (hl : l'.outstanding = (l.drop x.id).outstanding) : l'.outstanding.Sublist below := by
  rw [hl, drop, hout]
  dsimp only
  rw [List.filter_cons_of_neg (by rw [bne_self_eq_false]; exact nofun)]
  exact List.filter_sublist

section

variable {σ : Type} [GuestAllocator σ]

/-- One handle after the other: whether the newest one is given back or dropped, the rest goes on with the
others, with the guest as it is then, and with the first error so far. -/
theorem releaseNewest_step {b : Books σ} (howned : b.ledger.AllOwned) {x : Handle} {below : List Handle}
    (hout : b.ledger.outstanding = x :: below) (count : Nat) (first? : Option BindError) :
    ∃ later? b', releaseNewest (count + 1) first? b = releaseNewest count later? b' ∧
      b'.guest = (refreshRelease x b).2.guest ∧
      b'.ledger.outstanding = (b.ledger.drop x.id).outstanding ∧
      ((refreshRelease x b).1 = .ok () ∧ later? = first? ∨
        ∃ e, (refreshRelease x b).1 = .error e ∧ later? = first?.or (some e)) := by
  have hx : x ∈ b.ledger.outstanding := by
    rw [hout]
    exact List.mem_cons_self
  rw [releaseNewest, hout]
  dsimp only
  split <;> rename_i b₁ heq <;> obtain ⟨hdropped, hok⟩ := refreshRelease_outstanding (howned x hx) heq
  · exact ⟨_, b₁, rfl, (congrArg (·.2.guest) heq).symm, hok rfl, .inl ⟨congrArg (·.1) heq, rfl⟩⟩
  · exact ⟨_, ⟨b₁.ledger.drop x.id, b₁.guest⟩, rfl, (congrArg (·.2.guest) heq).symm, hdropped,
      .inr ⟨_, congrArg (·.1) heq, rfl⟩⟩

/-- **Giving everything back leaves nothing out**, whatever the guest answers. -/
theorem outstanding_releaseNewest : ∀ {count : Nat} {first? : Option BindError} {b : Books σ},
    b.ledger.AllOwned → b.ledger.outstanding.length ≤ count →
    (releaseNewest count first? b).2.ledger.outstanding = []
  | 0, none, b, _, hlength => List.eq_nil_of_length_eq_zero (Nat.le_zero.mp hlength)
  | 0, some _, b, _, hlength => List.eq_nil_of_length_eq_zero (Nat.le_zero.mp hlength)
  | count + 1, first?, b, howned, hlength => by
    rcases hout : b.ledger.outstanding with _ | ⟨x, below⟩
    · rw [releaseNewest, hout]
      exact outstanding_releaseNewest howned (by rw [hout]; exact Nat.zero_le _)
    · have hx : x ∈ b.ledger.outstanding := by
        rw [hout]
        exact List.mem_cons_self
      obtain ⟨later?, b', hrun, -, hothers, -⟩ := releaseNewest_step howned hout count first?
      obtain ⟨howned', hless⟩ := howned.dropped hx b'.ledger hothers
      rw [hrun]
      exact outstanding_releaseNewest howned' (by omega)

/-! ### Seeing one guest in another -/

/-- A guest can be seen in another one that does more: it gives the same answers, and what is seen moves on as
the guest itself would. -/
structure GuestView {τ : Type} [GuestAllocator τ] (view : τ → σ) : Prop where
  epoch : ∀ g, GuestAllocator.epoch (view g) =
    ((GuestAllocator.epoch g).1, view (GuestAllocator.epoch g).2)
  free : ∀ g ptr len, GuestAllocator.free (view g) ptr len =
    ((GuestAllocator.free g ptr len).1, view (GuestAllocator.free g ptr len).2)
  memoryLength : ∀ g, GuestAllocator.memoryLength (view g) = GuestAllocator.memoryLength g

/-- The books with what is seen of their guest. -/
def Books.seen {τ : Type} (view : τ → σ) (b : Books τ) : Books σ := ⟨b.ledger, view b.guest⟩

section

variable {τ : Type} [GuestAllocator τ] {view : τ → σ}

theorem refresh_seen (hview : GuestView view) (x : Handle) (b : Books τ) :
    refresh x (b.seen view) = ((refresh x b).1, (refresh x b).2.seen view) := by
  obtain ⟨l, g⟩ := b
  unfold refresh Books.seen
  dsimp only
  rw [hview.memoryLength, hview.epoch]
  split
  · rfl
  split
  · rfl
  · rfl

theorem release_seen (hview : GuestView view) (x : Handle) (b : Books τ) :
    release x (b.seen view) = ((release x b).1, (release x b).2.seen view) := by
  obtain ⟨l, g⟩ := b
  unfold release Books.seen
  dsimp only
  rw [hview.epoch]
  generalize GuestAllocator.epoch g = look
  obtain ⟨epoch, guest⟩ := look
  dsimp only
  rw [hview.free]
  split
  · rfl
  split
  · rfl
  split
  · rfl
  split
  · rfl
  · rfl

theorem refreshRelease_seen (hview : GuestView view) (x : Handle) (b : Books τ) :
    refreshRelease x (b.seen view) = ((refreshRelease x b).1, (refreshRelease x b).2.seen view) := by
  unfold refreshRelease andThen
  rw [refresh_seen hview]
  rcases refresh x b with ⟨e | y, b'⟩
  · rfl
  · exact release_seen hview y b'

theorem releaseNewest_seen (hview : GuestView view) :
    ∀ (count : Nat) (first? : Option BindError) (b : Books τ),
      releaseNewest count first? (b.seen view) =
        ((releaseNewest count first? b).1, (releaseNewest count first? b).2.seen view)
  | 0, none, b => rfl
  | 0, some _, b => rfl
  | count + 1, first?, b => by
    have hout : (b.seen view).ledger.outstanding = b.ledger.outstanding := rfl
    rw [releaseNewest, releaseNewest, hout]
    rcases b.ledger.outstanding with _ | ⟨x, below⟩
    · exact releaseNewest_seen hview count first? b
    · dsimp only
      rw [refreshRelease_seen hview]
      rcases refreshRelease x b with ⟨e | u, b'⟩
      · exact releaseNewest_seen hview count _ ⟨b'.ledger.drop x.id, b'.guest⟩
      · exact releaseNewest_seen hview count first? b'

/-- **What is seen makes no difference**: giving everything back has the same answer and the same ledger. -/
theorem releaseAll_seen (hview : GuestView view) (b : Books τ) :
    releaseAll (b.seen view) = ((releaseAll b).1, (releaseAll b).2.seen view) := by
  have hout : (b.seen view).ledger.outstanding = b.ledger.outstanding := rfl
  unfold releaseAll
  rw [hout, releaseNewest_seen hview]
  rfl

end

/-! ### Watching the guest -/

/-- The books with a guest that starts to note down what it is asked to free. -/
def Books.watched (b : Books σ) : Books (Watched σ) := ⟨b.ledger, b.guest, []⟩

/-- The books without the notes of the guest. -/
def Books.unwatched (b : Books (Watched σ)) : Books σ := ⟨b.ledger, b.guest.guest⟩

theorem guestView_watched : GuestView (Watched.guest : Watched σ → σ) :=
  ⟨fun _ => rfl, fun _ _ _ => rfl, fun _ => rfl⟩

/-- **Watching changes nothing**: the answer and the books are the same. -/
theorem releaseAll_unwatched (b : Books (Watched σ)) :
    releaseAll b.unwatched = ((releaseAll b).1, (releaseAll b).2.unwatched) :=
  releaseAll_seen guestView_watched b

/-! ### What the guest is asked to free -/

theorem refresh_freed (x : Handle) (b : Books (Watched σ)) :
    (refresh x b).2.guest.freed = b.guest.freed := by
  rcases refresh_cases x b with ⟨e, hrefresh, -⟩ | ⟨epoch, guest, hlook, hrefresh⟩ <;> rw [hrefresh]
  cases hlook
  rfl

/-- Giving a handle back asks the guest to free its place, or nothing. -/
theorem release_freed (x : Handle) (b : Books (Watched σ)) :
    (release x b).2.guest.freed = b.guest.freed ∨
      (release x b).2.guest.freed = x.place :: b.guest.freed := by
  rcases hrelease : release x b with ⟨result, b'⟩
  cases release_cases hrelease with
  | borrowed | gone => exact .inl rfl
  | stale _ _ look | unknown _ _ look => exact .inl (congrArg (·.2.freed) look).symm
  | freed _ _ look _ free =>
    have hnotes := congrArg (·.2.freed) look
    have hfreed := congrArg (·.2.freed) free
    exact .inr (hfreed.symm.trans (congrArg (x.place :: ·) hnotes.symm))

theorem refreshRelease_freed (x : Handle) (b : Books (Watched σ)) :
    (refreshRelease x b).2.guest.freed = b.guest.freed ∨
      (refreshRelease x b).2.guest.freed = x.place :: b.guest.freed := by
  have hkept := refresh_freed x b
  unfold refreshRelease andThen
  rcases refresh_cases x b with ⟨e, hrefresh, -⟩ | ⟨epoch, guest, -, hrefresh⟩ <;> rw [hrefresh] at hkept ⊢
  · exact .inl rfl
  · have hfreed := release_freed { x with epoch } ⟨b.ledger.restamp { x with epoch }, guest⟩
    rwa [show guest.freed = b.guest.freed from hkept] at hfreed

/-- **Each handle at most once**: giving handles back asks the guest to free the places of some of them, in
the order in which they are taken. -/
theorem releaseNewest_frees : ∀ (count : Nat) (first? : Option BindError) {b : Books (Watched σ)},
    b.ledger.AllOwned → ∃ places, (releaseNewest count first? b).2.guest.freed = places ++ b.guest.freed ∧
      places.reverse.Sublist (b.ledger.outstanding.map Handle.place)
  | 0, none, b, _ => ⟨[], rfl, List.nil_sublist _⟩
  | 0, some _, b, _ => ⟨[], rfl, List.nil_sublist _⟩
  | count + 1, first?, b, howned => by
    rcases hout : b.ledger.outstanding with _ | ⟨x, below⟩
    · rw [releaseNewest, hout]
      obtain ⟨places, hplaces, hsub⟩ := releaseNewest_frees count first? howned
      rw [hout] at hsub
      exact ⟨places, hplaces, hsub⟩
    · have hx : x ∈ b.ledger.outstanding := by
        rw [hout]
        exact List.mem_cons_self
      obtain ⟨later?, b', hrun, hguest, hothers, -⟩ := releaseNewest_step howned hout count first?
      obtain ⟨places, hplaces, hsub⟩ :=
        releaseNewest_frees count later? (howned.dropped hx b'.ledger hothers).1
      have hbelow := hsub.trans ((sublist_drop hout hothers).map Handle.place)
      rw [hrun, List.map_cons]
      rw [hguest] at hplaces
      rcases refreshRelease_freed x b with hfreed | hfreed <;> rw [hfreed] at hplaces
      · exact ⟨places, hplaces, hbelow.cons _⟩
      · refine ⟨places ++ [x.place], by rw [hplaces, List.append_assoc]; rfl, ?_⟩
        rw [List.reverse_append]
        exact hbelow.cons_cons _

/-- What the guest is asked to free when everything is given back, first one first. -/
def Books.freedAll (b : Books σ) : List (UInt32 × UInt32) := (releaseAll b.watched).2.guest.freed.reverse

/-- Giving everything back frees the places of some handles, each of them at most once. -/
theorem freedAll_sublist {b : Books σ} (howned : b.ledger.AllOwned) :
    b.freedAll.Sublist (b.ledger.outstanding.map Handle.place) := by
  obtain ⟨places, hplaces, hsub⟩ :=
    releaseNewest_frees b.ledger.outstanding.length none (b := b.watched) howned
  rw [show b.watched.guest.freed = [] from rfl, List.append_nil] at hplaces
  rw [← hplaces] at hsub
  exact hsub

/-- **The newest handle is freed first**, and then some of the others, if the handle is not gone and lies in
the memory. The guest has to be one that looking at it twice does not change. -/
theorem freedAll_newest {b : Books σ} (howned : b.ledger.AllOwned) {x : Handle} {below : List Handle}
    (hout : b.ledger.outstanding = x :: below) (hkept : b.ledger.isReleased x.id = false)
    (hinside : x.stop ≤ GuestAllocator.memoryLength b.guest) {epoch : Nat} {guest : σ}
    (hlook : GuestAllocator.epoch b.guest = (epoch, guest))
    (hagain : GuestAllocator.epoch guest = (epoch, guest)) :
    ∃ others, b.freedAll = x.place :: others ∧ others.Sublist (below.map Handle.place) := by
  obtain ⟨l, start⟩ := b
  have hx : x ∈ l.outstanding := by
    rw [show l.outstanding = _ from hout]
    exact List.mem_cons_self
  have hstep : (refreshRelease x (⟨l, start⟩ : Books σ).watched).2.guest.freed = [x.place] := by
    have hwatched : GuestAllocator.epoch (⟨start, []⟩ : Watched σ) = (epoch, ⟨guest, []⟩) := by
      change ((GuestAllocator.epoch start).1, (⟨(GuestAllocator.epoch start).2, []⟩ : Watched σ)) = _
      rw [show GuestAllocator.epoch start = _ from hlook]
    have hwatched' : GuestAllocator.epoch (⟨guest, []⟩ : Watched σ) = (epoch, ⟨guest, []⟩) := by
      change ((GuestAllocator.epoch guest).1, (⟨(GuestAllocator.epoch guest).2, []⟩ : Watched σ)) = _
      rw [hagain]
    have hrefresh : refresh x (⟨l, ⟨start, []⟩⟩ : Books (Watched σ)) =
        (.ok { x with epoch }, ⟨l.restamp { x with epoch }, ⟨guest, []⟩⟩) :=
      refresh_kept hkept hinside hwatched
    have hrelease := release_current (x := { x with epoch }) (l := l.restamp { x with epoch })
      (howned x hx) hkept hwatched' ⟨_, List.mem_map.mpr ⟨x, hx, if_pos rfl⟩, rfl⟩ rfl
    unfold refreshRelease andThen Books.watched
    rw [hrefresh]
    dsimp only
    rw [hrelease]
    rfl
  obtain ⟨later?, b', hrun, hguest, hothers, -⟩ :=
    releaseNewest_step (b := (⟨l, start⟩ : Books σ).watched) howned hout below.length none
  obtain ⟨places, hplaces, hsub⟩ :=
    releaseNewest_frees below.length later? (AllOwned.dropped (l := l) howned hx b'.ledger hothers).1
  rw [hguest, hstep] at hplaces
  refine ⟨places.reverse, ?_, hsub.trans ((sublist_drop (l := l) hout hothers).map Handle.place)⟩
  have hcount : l.outstanding.length = below.length + 1 := congrArg List.length hout
  unfold Books.freedAll releaseAll
  change (releaseNewest l.outstanding.length none (⟨l, start⟩ : Books σ).watched).2.guest.freed.reverse = _
  rw [hcount, hrun, hplaces, List.reverse_append]
  rfl

end

/-! ### Listening to the guest -/

/-- A guest that notes down what it answers when it is asked to free, last answer first. -/
structure Heard (σ : Type) where
  guest : σ
  answers : List (Except BindError Unit)

section

variable {σ : Type} [GuestAllocator σ]

instance : GuestAllocator (Heard σ) where
  alloc h len :=
    match GuestAllocator.alloc h.guest len with
    | (result, guest) => (result, ⟨guest, h.answers⟩)
  free h ptr len :=
    match GuestAllocator.free h.guest ptr len with
    | (result, guest) => (result, ⟨guest, result :: h.answers⟩)
  epoch h :=
    match GuestAllocator.epoch h.guest with
    | (epoch, guest) => (epoch, ⟨guest, h.answers⟩)
  memoryLength h := GuestAllocator.memoryLength h.guest

theorem guestView_heard : GuestView (Heard.guest : Heard σ → σ) :=
  ⟨fun _ => rfl, fun _ _ _ => rfl, fun _ => rfl⟩

/-- The books with a guest that starts to note down its answers. -/
def Books.heard (b : Books σ) : Books (Heard σ) := ⟨b.ledger, b.guest, []⟩

/-- What the guest answers when everything is given back, first answer first. -/
def Books.freeAnswers (b : Books σ) : List (Except BindError Unit) :=
  (releaseAll b.heard).2.guest.answers.reverse

/-- Listening to the guest changes nothing. -/
theorem releaseAll_heard (b : Books σ) :
    releaseAll b = ((releaseAll b.heard).1, (releaseAll b.heard).2.seen Heard.guest) :=
  releaseAll_seen guestView_heard b.heard

end

end GuestCall
