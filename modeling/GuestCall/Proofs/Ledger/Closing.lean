/-
# The books are closed

Giving everything back, over a guest whose memory stays as it is meanwhile. The handles that are out come to
their turn newest first, and the guest is asked once to free each of them that lies in the memory, whatever
it answered before. In the end nothing is out, every owned handle that was ever issued counts as given back,
and the first failure is reported: a handle that reaches out of the memory, or an answer of the guest. The
ledger itself never refuses a handle for its epoch or as given back.

Key definitions: `Ledger.NewestFirst` and `Ledger.Tidy`; `Steady`, a guest that stays as it is; `freeInTurn`,
`outcomes` and `firstFailure`.
Key theorems: `session_tidy`, `refreshRelease_steady`, `releaseNewest_steady`, `books_are_closed`.
-/
import GuestCall.Proofs.Ledger.Compaction
import GuestCall.Proofs.Ledger.Emptying
import GuestCall.Ledger.Scripted

namespace GuestCall

open Ledger GuestCall.Action

/-! ### Newest first -/

/-- A ledger whose outstanding handles stand in the order in which they were made, newest first. -/
def Ledger.NewestFirst (l : Ledger) : Prop := l.outstanding.Pairwise fun x y => y.id < x.id

namespace Ledger.NewestFirst

variable {l : Ledger}

theorem enter (h : l.NewestFirst) {x : Handle} (hx : ∀ y ∈ l.outstanding, y.id < x.id) :
    (l.enter x).NewestFirst := List.pairwise_cons.mpr ⟨hx, h⟩

theorem restamp (h : l.NewestFirst) (x : Handle) : (l.restamp x).NewestFirst := by
  have hid : ∀ y : Handle, (if y.id = x.id then x else y).id = y.id := fun y => by
    split
    · rename_i hsame
      exact hsame.symm
    · rfl
  refine List.pairwise_map.mpr (h.imp fun {y z} hlt => ?_)
  rw [hid, hid]
  exact hlt

theorem settle (h : l.NewestFirst) (id : Nat) : (l.settle id).NewestFirst := h.sublist List.filter_sublist

end Ledger.NewestFirst

section

variable {σ : Type} [GuestAllocator σ] {b : Books σ}

theorem newestFirst_adopt (h : b.ledger.NewestFirst)
    (hbelow : ∀ x ∈ b.ledger.outstanding, x.id < b.ledger.nextId) (ptr len : UInt32) :
    (adopt ptr len b).2.ledger.NewestFirst := h.enter hbelow

theorem newestFirst_allocate (h : b.ledger.NewestFirst)
    (hbelow : ∀ x ∈ b.ledger.outstanding, x.id < b.ledger.nextId) (len : UInt32) :
    (allocate len b).2.ledger.NewestFirst := by
  unfold allocate
  dsimp only
  rcases GuestAllocator.alloc b.guest len with ⟨e | ptr, guest⟩
  · exact h
  · dsimp only
    split
    · exact h
    · exact newestFirst_adopt (b := ⟨b.ledger, guest⟩) h hbelow ptr len

theorem newestFirst_refresh (h : b.ledger.NewestFirst) (x : Handle) :
    (refresh x b).2.ledger.NewestFirst := by
  rcases refresh_cases x b with ⟨e, hrefresh, -⟩ | ⟨epoch, guest, -, hrefresh⟩ <;> rw [hrefresh]
  · exact h
  · exact h.restamp _

theorem newestFirst_release (h : b.ledger.NewestFirst) (x : Handle) :
    (release x b).2.ledger.NewestFirst := by
  rcases hrelease : release x b with ⟨result, b'⟩
  cases release_cases hrelease with
  | borrowed | gone | stale | unknown => exact h
  | freed => exact h.settle x.id

theorem newestFirst_releaseAll (howned : b.ledger.AllOwned) : (releaseAll b).2.ledger.NewestFirst := by
  have hnone : (releaseAll b).2.ledger.outstanding = [] :=
    outstanding_releaseNewest howned (Nat.le_refl _)
  unfold NewestFirst
  rw [hnone]
  exact List.Pairwise.nil

omit [GuestAllocator σ] in
/-- What is out during a session is owned. -/
theorem Mirrors.allOwned {copies : List Handle} {p : PlainBooks σ} (h : Mirrors copies b p) :
    b.ledger.AllOwned := fun x hx => by
  rw [h.agrees.outstanding] at hx
  exact (h.sound.outstanding x hx).1

/-- Every step of a session keeps the newest handle first. -/
theorem newestFirst_step {s : Session (Books (Watched σ))} {t : Session (PlainBooks (Watched σ))}
    (hst : Alongside s t) (h : s.books.ledger.NewestFirst) (op : LedgerOp σ) :
    (Ledger.keeper.step s op).books.ledger.NewestFirst := by
  have hsound := hst.books.sound
  have hfollows := hst.books.agrees.toFollows
  have hbelow : ∀ x ∈ s.books.ledger.outstanding, x.id < s.books.ledger.nextId := fun x hx => by
    rw [hfollows.outstanding] at hx
    rw [hfollows.nextId]
    exact hsound.outstandingBelow (PlainLedger.mem_outstandingIds.mpr ⟨x, hx, rfl⟩)
  have hissue : ∀ r : Except BindError Handle × Books (Watched σ), (s.issue r).books = r.2 := by
    rintro ⟨e | x, b⟩ <;> rfl
  have hanswer : ∀ r : Except BindError Unit × Books (Watched σ), (s.answer r).books = r.2 := by
    rintro ⟨e | u, b⟩ <;> rfl
  cases op with
  | allocate len => exact (hissue _).symm ▸ newestFirst_allocate h hbelow len
  | adopt ptr len => exact (hissue _).symm ▸ newestFirst_adopt h hbelow ptr len
  | borrow ptr len => exact (hissue _).symm ▸ h
  | refresh copy =>
    rw [Keeper.step]
    split
    · exact (hissue _).symm ▸ newestFirst_refresh h _
    · exact h
  | release copy =>
    rw [Keeper.step]
    split
    · exact (hanswer _).symm ▸ newestFirst_release h _
    · exact h
  | releaseAll => exact (hanswer _).symm ▸ newestFirst_releaseAll hst.books.allOwned
  | disturb change => exact h

theorem newestFirst_foldl : ∀ (ops : List (LedgerOp σ)) {s : Session (Books (Watched σ))}
    {t : Session (PlainBooks (Watched σ))}, Alongside s t → s.books.ledger.NewestFirst →
    (ops.foldl Ledger.keeper.step s).books.ledger.NewestFirst
  | [], _, _, _, h => h
  | op :: ops, _, _, hst, h => newestFirst_foldl ops (hst.step op) (newestFirst_step hst h op)

end

/-! ### A guest that stays as it is -/

/-- A guest whose memory keeps its length and its epoch, whatever it is asked to free: `G` holds of the guest
as it is, and of what becomes of it. -/
structure Steady {σ : Type} [GuestAllocator σ] (length epoch : Nat) (G : σ → Prop) : Prop where
  memoryLength : ∀ {g}, G g → GuestAllocator.memoryLength g = length
  epoch : ∀ {g}, G g → (GuestAllocator.epoch g).1 = epoch
  look : ∀ {g}, G g → G (GuestAllocator.epoch g).2
  free : ∀ {g}, G g → ∀ ptr len, G (GuestAllocator.free g ptr len).2

section

variable {σ : Type} [GuestAllocator σ] {length epoch : Nat} {G : σ → Prop}

/-- A guest in which a steady one is seen is steady. -/
theorem Steady.seen {τ : Type} [GuestAllocator τ] {view : τ → σ} (h : Steady length epoch G)
    (hview : GuestView view) : Steady length epoch fun g : τ => G (view g) where
  memoryLength {g} hg := (hview.memoryLength g).symm.trans (h.memoryLength hg)
  epoch {g} hg := (congrArg (·.1) (hview.epoch g)).symm.trans (h.epoch hg)
  look {g} hg := by
    have hlook := h.look hg
    rwa [hview.epoch] at hlook
  free {g} hg ptr len := by
    have hfree := h.free hg ptr len
    rwa [hview.free] at hfree

/-- The guest after it was asked to free some handles one after the other, with its answers. It is asked for
its epoch when a handle is refreshed, and once more when the handle is given back. -/
def freeInTurn : List Handle → σ → List (Except BindError Unit) × σ
  | [], g => ([], g)
  | x :: rest, g =>
    match GuestAllocator.free (GuestAllocator.epoch (GuestAllocator.epoch g).2).2 x.ptr x.len with
    | (answer, g) =>
      match freeInTurn rest g with
      | (answers, g) => (answer :: answers, g)

theorem length_freeInTurn : ∀ (handles : List Handle) (g : σ),
    (freeInTurn handles g).1.length = handles.length
  | [], _ => rfl
  | _ :: rest, _ => congrArg (· + 1) (length_freeInTurn rest _)

/-- A watched guest notes down the place of each handle. -/
theorem freed_freeInTurn : ∀ (handles : List Handle) (w : Watched σ),
    (freeInTurn handles w).2.freed = (handles.map Handle.place).reverse ++ w.freed
  | [], _ => rfl
  | x :: rest, w => by
    rw [List.map_cons, List.reverse_cons, List.append_assoc]
    exact freed_freeInTurn rest _

/-! ### What comes of the handles -/

/-- The error of a handle that reaches out of a memory. -/
def Handle.outside (x : Handle) (length : Nat) : BindError := .outOfBounds x.ptr.toNat x.len.toNat length

/-- What comes of each of some handles: one that reaches out of the memory is an error, and what comes of each
of the others is the next of the answers. -/
def outcomes (length : Nat) : List Handle → List (Except BindError Unit) → List (Except BindError Unit)
  | [], _ => []
  | x :: rest, answers =>
    if length < x.stop then .error (x.outside length) :: outcomes length rest answers
    else answers.take 1 ++ outcomes length rest (answers.drop 1)

/-- The first error among some results. -/
def firstFailure : List (Except BindError Unit) → Except BindError Unit
  | [] => .ok ()
  | .ok _ :: rest => firstFailure rest
  | .error e :: _ => .error e

theorem firstFailure_ok_iff : ∀ results : List (Except BindError Unit),
    firstFailure results = .ok () ↔ ∀ r ∈ results, r = .ok ()
  | [] => by simp [firstFailure]
  | .ok _ :: rest => by simp [firstFailure, firstFailure_ok_iff rest]
  | .error e :: rest => by simp [firstFailure]

theorem mem_of_firstFailure_error {e : BindError} : ∀ {results : List (Except BindError Unit)},
    firstFailure results = .error e → .error e ∈ results
  | .ok _ :: _, h => List.mem_cons_of_mem _ (mem_of_firstFailure_error h)
  | .error e' :: rest, h => by
    rw [← show Except.error e' = Except.error e from h]
    exact List.mem_cons_self

/-- Something comes of a handle just because it reaches out of the memory, or because it was an answer, if
there is one for each handle that lies in the memory. -/
theorem mem_outcomes {r : Except BindError Unit} {handles : List Handle}
    {answers : List (Except BindError Unit)}
    (hlength : answers.length = (handles.filter (·.stop ≤ length)).length) :
    r ∈ outcomes length handles answers ↔
      (∃ x ∈ handles, length < x.stop ∧ r = .error (x.outside length)) ∨ r ∈ answers := by
  induction handles generalizing answers with
  | nil =>
    rw [List.eq_nil_of_length_eq_zero hlength]
    simp [outcomes]
  | cons x rest ih =>
    rw [outcomes]
    by_cases hout : length < x.stop
    · rw [List.filter_cons_of_neg (by simpa using hout)] at hlength
      rw [if_pos hout, List.mem_cons, ih hlength, List.exists_mem_cons_iff, ← or_assoc]
      simp only [hout, true_and]
    · rw [List.filter_cons_of_pos (by simpa using hout)] at hlength
      rcases answers with _ | ⟨answer, answers⟩
      · cases hlength
      rw [if_neg hout, List.mem_append, List.take_succ_cons, List.take_zero, List.drop_succ_cons,
        List.drop_zero, List.mem_singleton, ih (Nat.succ.inj hlength), List.mem_cons,
        List.exists_mem_cons_iff]
      simp only [hout, false_and, false_or]
      exact or_left_comm

/-- There is no failure just if every handle lies in the memory and every answer is a good one. -/
theorem firstFailure_outcomes_ok_iff {handles : List Handle} {answers : List (Except BindError Unit)}
    (hlength : answers.length = (handles.filter (·.stop ≤ length)).length) :
    firstFailure (outcomes length handles answers) = .ok () ↔
      (∀ x ∈ handles, x.stop ≤ length) ∧ ∀ answer ∈ answers, answer = .ok () := by
  rw [firstFailure_ok_iff]
  constructor
  · refine fun hall => ⟨fun x hx => ?_, fun answer hanswer => ?_⟩
    · by_contra hreach
      cases hall _ ((mem_outcomes hlength).mpr (.inl ⟨x, hx, Nat.lt_of_not_le hreach, rfl⟩))
    · exact hall _ ((mem_outcomes hlength).mpr (.inr hanswer))
  · rintro ⟨hinside, hanswers⟩ r hr
    rcases (mem_outcomes hlength).mp hr with ⟨x, hx, hreach, -⟩ | hanswer
    · exact absurd (hinside x hx) (Nat.not_le.mpr hreach)
    · exact hanswers r hanswer

/-- A failure is a handle that reaches out of the memory, or it was an answer. -/
theorem firstFailure_outcomes_error {e : BindError} {handles : List Handle}
    {answers : List (Except BindError Unit)}
    (hlength : answers.length = (handles.filter (·.stop ≤ length)).length)
    (h : firstFailure (outcomes length handles answers) = .error e) :
    (∃ x ∈ handles, length < x.stop ∧ e = x.outside length) ∨ .error e ∈ answers := by
  rcases (mem_outcomes hlength).mp (mem_of_firstFailure_error h) with ⟨x, hx, hreach, hcause⟩ | hanswer
  · cases hcause
    exact .inl ⟨x, hx, hreach, rfl⟩
  · exact .inr hanswer

/-! ### One handle after the other -/

/-- A ledger as a session keeps it: its outstanding handles are owned and not gone, newest first. -/
structure Ledger.Tidy (l : Ledger) : Prop where
  owned : l.AllOwned
  newestFirst : l.NewestFirst
  kept : ∀ x ∈ l.outstanding, l.isReleased x.id = false

/-- A ledger with only some handles left, after some others were given back. -/
def Ledger.leaving (l : Ledger) (below given : List Handle) : Ledger :=
  { l with
    outstanding := below
    released := (given.map (·.id)).reverse ++ l.released
    releases := l.releases + given.length }

theorem Ledger.leaving_leaving (l : Ledger) (below below' given given' : List Handle) :
    (l.leaving below given).leaving below' given' = l.leaving below' (given ++ given') := by
  unfold leaving
  rw [List.map_append, List.reverse_append, List.append_assoc, List.length_append, Nat.add_assoc]

section

variable {l : Ledger} {x : Handle} {below : List Handle}

theorem Ledger.leaving_self (hout : l.outstanding = below) : l.leaving below [] = l := by
  rw [← hout]
  rfl

/-- Without its newest handle, a tidy ledger has the others. -/
theorem Ledger.Tidy.filter_below (h : l.Tidy) (hout : l.outstanding = x :: below) :
    below.filter (·.id != x.id) = below := by
  have hfirst := h.newestFirst
  rw [NewestFirst, hout, List.pairwise_cons] at hfirst
  exact List.filter_eq_self.mpr fun y hy => by simpa using Nat.ne_of_lt (hfirst.1 y hy)

theorem Ledger.Tidy.drop_newest (h : l.Tidy) (hout : l.outstanding = x :: below) :
    l.drop x.id = l.leaving below [] := by
  rw [drop, hout, List.filter_cons_of_neg (by simp), h.filter_below hout]
  rfl

/-- Dropping a handle that was given back changes nothing. -/
theorem Ledger.Tidy.drop_given (h : l.Tidy) (hout : l.outstanding = x :: below) :
    (l.leaving below [x]).drop x.id = l.leaving below [x] := by
  rw [drop, show (l.leaving below [x]).outstanding = below from rfl, h.filter_below hout]
  rfl

/-- Refreshing the newest handle first makes no difference to the ledger once it is given back. -/
theorem Ledger.Tidy.settle_newest (h : l.Tidy) (hout : l.outstanding = x :: below) (epoch : Nat) :
    (l.restamp { x with epoch }).settle x.id = l.leaving below [x] := by
  have hdrop : (l.restamp { x with epoch }).drop x.id = l.leaving below [] :=
    (drop_restamp l { x with epoch }).trans (h.drop_newest (x := x) hout)
  have hbelow := congrArg (·.outstanding) hdrop
  unfold settle
  rw [show (l.restamp { x with epoch }).outstanding.filter (·.id != x.id) = below from hbelow]
  rfl

/-- A tidy ledger stays tidy when its newest handle is dropped. -/
theorem Ledger.Tidy.dropped (h : l.Tidy) (hout : l.outstanding = x :: below) :
    (l.leaving below []).Tidy where
  owned y hy := h.owned y (hout ▸ List.mem_cons_of_mem _ hy)
  newestFirst := by
    have hfirst := h.newestFirst
    rw [NewestFirst, hout] at hfirst
    exact hfirst.of_cons
  kept y hy := h.kept y (hout ▸ List.mem_cons_of_mem _ hy)

/-- A tidy ledger stays tidy when its newest handle is given back. -/
theorem Ledger.Tidy.given (h : l.Tidy) (hout : l.outstanding = x :: below) :
    (l.leaving below [x]).Tidy where
  owned := (h.dropped hout).owned
  newestFirst := (h.dropped hout).newestFirst
  kept y hy := by
    have hkept := (h.dropped hout).kept y hy
    have hfirst := h.newestFirst
    rw [NewestFirst, hout, List.pairwise_cons] at hfirst
    rw [Bool.eq_false_iff, ne_eq, isReleased_iff] at hkept ⊢
    rintro (hbelow | hgone)
    · exact hkept (.inl hbelow)
    · rcases List.mem_cons.mp hgone with hsame | hgone
      · exact Nat.ne_of_lt (hfirst.1 y hy) hsame
      · exact hkept (.inr hgone)

end

/-- **One handle over a guest that stays as it is.** A handle that reaches out of the memory is not refreshed,
and nothing happens. The guest is asked to free any other one, and the handle is gone whatever it answers. -/
theorem refreshRelease_steady (hsteady : Steady length epoch G) {l : Ledger} {g : σ} (hg : G g)
    (htidy : l.Tidy) {x : Handle} {below : List Handle} (hout : l.outstanding = x :: below) :
    refreshRelease x ⟨l, g⟩ =
      if length < x.stop then (.error (x.outside length), ⟨l, g⟩)
      else
        match GuestAllocator.free (GuestAllocator.epoch (GuestAllocator.epoch g).2).2 x.ptr x.len with
        | (answer, g) => (answer, ⟨l.leaving below [x], g⟩) := by
  have hx : x ∈ l.outstanding := by
    rw [hout]
    exact List.mem_cons_self
  have hkept : l.isReleased x.id = false := htidy.kept x hx
  unfold refreshRelease andThen
  by_cases hreach : length < x.stop
  · have hrefresh : refresh x ⟨l, g⟩ = (.error (x.outside length), ⟨l, g⟩) := by
      unfold refresh Handle.outside
      dsimp only
      rw [hkept, Bool.and_false, if_neg Bool.false_ne_true, hsteady.memoryLength hg, if_pos hreach]
    rw [if_pos hreach, hrefresh]
  · have hlook : GuestAllocator.epoch g = (epoch, (GuestAllocator.epoch g).2) :=
      Prod.ext (hsteady.epoch hg) rfl
    have hinside : x.stop ≤ GuestAllocator.memoryLength g := by
      rw [hsteady.memoryLength hg]
      exact Nat.le_of_not_lt hreach
    have hagain : GuestAllocator.epoch (GuestAllocator.epoch g).2 =
        (epoch, (GuestAllocator.epoch (GuestAllocator.epoch g).2).2) :=
      Prod.ext (hsteady.epoch (hsteady.look hg)) rfl
    rw [if_neg hreach, refresh_kept hkept hinside hlook]
    dsimp only
    rw [release_current (l := l.restamp { x with epoch }) (x := { x with epoch }) (htidy.owned x hx) hkept
      hagain ⟨{ x with epoch }, List.mem_map.mpr ⟨x, hx, if_pos rfl⟩, rfl⟩ rfl]
    dsimp only
    rw [htidy.settle_newest hout epoch]
    rfl

/-- With nothing out, a round does nothing. -/
theorem releaseNewest_nothing : ∀ (count : Nat) (first? : Option BindError) {b : Books σ},
    b.ledger.outstanding = [] → releaseNewest count first? b = (first?.elim (.ok ()) .error, b)
  | 0, none, _, _ => rfl
  | 0, some _, _, _ => rfl
  | count + 1, first?, _, hnone => by
    rw [releaseNewest, hnone]
    exact releaseNewest_nothing count first? hnone

/-- **All handles over a guest that stays as it is.** In at least as many rounds as there are handles, the
guest is asked in turn to free those that lie in the memory, nothing is left, and the first failure is
reported. -/
theorem releaseNewest_steady (hsteady : Steady length epoch G) (extra : Nat) :
    ∀ (out : List Handle) (first? : Option BindError) {l : Ledger} {g : σ}, G g → l.Tidy →
      l.outstanding = out →
      releaseNewest (out.length + extra) first? ⟨l, g⟩ =
        (first?.elim (firstFailure (outcomes length out
            (freeInTurn (out.filter (·.stop ≤ length)) g).1)) .error,
          ⟨l.leaving [] (out.filter (·.stop ≤ length)), (freeInTurn (out.filter (·.stop ≤ length)) g).2⟩)
  | [], first?, l, g, _, _, hout => by
    rw [releaseNewest_nothing _ first? hout, List.filter_nil, leaving_self hout]
    rfl
  | x :: below, first?, l, g, hg, htidy, hout => by
    rw [List.length_cons, Nat.add_right_comm, releaseNewest, hout]
    dsimp only
    rw [refreshRelease_steady hsteady hg htidy hout]
    by_cases hreach : length < x.stop
    · rw [if_pos hreach, List.filter_cons_of_neg (by simpa using hreach), outcomes, if_pos hreach]
      dsimp only
      rw [htidy.drop_newest hout, releaseNewest_steady hsteady extra below _ hg (htidy.dropped hout) rfl,
        leaving_leaving]
      cases first? <;> rfl
    · rw [if_neg hreach, List.filter_cons_of_pos (by simpa using hreach), freeInTurn, outcomes,
        if_neg hreach]
      have hg' := hsteady.free (hsteady.look (hsteady.look hg)) x.ptr x.len
      generalize GuestAllocator.free (GuestAllocator.epoch (GuestAllocator.epoch g).2).2 x.ptr x.len =
        answered at hg'
      have hrest := fun first? => releaseNewest_steady hsteady extra below first? hg' (htidy.given hout) rfl
      rw [leaving_leaving] at hrest
      obtain ⟨e | u, g'⟩ := answered <;> dsimp only at hrest ⊢
      · rw [htidy.drop_given hout, hrest]
        cases first? <;> rfl
      · exact hrest first?

/-- The ledger of a session is tidy. -/
theorem session_tidy (guest : σ) (ops : List (LedgerOp σ)) : (session guest ops).books.ledger.Tidy where
  owned := (session_alongside guest ops).books.allOwned
  newestFirst := newestFirst_foldl ops (session_alongside guest []) List.Pairwise.nil
  kept x hx := by
    have hagrees := (session_alongside guest ops).books.agrees
    rw [hagrees.outstanding] at hx
    exact hagrees.kept x.id (PlainLedger.mem_outstandingIds.mpr ⟨x, hx, rfl⟩)

/-- Once the books are closed, an owned handle that was issued counts as given back. -/
theorem gone_of_closed {l : Ledger} {x : Handle} (g : σ) (howned : x.owned = true) (hid : x.id < l.nextId) :
    refresh x ⟨l.close, g⟩ = (.error (.doubleFree x.id x.ptr), ⟨l.close, g⟩) ∧
      release x ⟨l.close, g⟩ = (.error (.doubleFree x.id x.ptr), ⟨l.close, g⟩) := by
  have hgone : l.close.isReleased x.id = true := isReleased_iff.mpr (.inl hid)
  unfold refresh release
  dsimp only
  rw [howned, hgone]
  exact ⟨rfl, rfl⟩

/-- Refreshing a handle that is not owned looks at the guest only. -/
theorem refresh_borrowed (hsteady : Steady length epoch G) (l : Ledger) {g : σ} (hg : G g) {x : Handle}
    (howned : x.owned = false) : (refresh x ⟨l, g⟩).1 =
      if length < x.stop then .error (x.outside length) else .ok { x with epoch } := by
  unfold refresh Handle.outside
  dsimp only
  rw [howned, Bool.false_and, if_neg Bool.false_ne_true, hsteady.memoryLength hg]
  split
  · rfl
  · dsimp only
    rw [hsteady.epoch hg]

theorem Steady.freeInTurn (hsteady : Steady length epoch G) : ∀ (handles : List Handle) {g : σ}, G g →
    G (freeInTurn handles g).2
  | [], _, hg => hg
  | x :: rest, _, hg => Steady.freeInTurn hsteady rest (hsteady.free (hsteady.look (hsteady.look hg)) x.ptr x.len)

/-- **The books are closed**, at the end of any session with a ledger over a guest whose memory from then on
keeps its length and epoch, whatever it answers. -/
theorem books_are_closed (hsteady : Steady length epoch G) (guest : σ) (ops : List (LedgerOp σ))
    (hguest : G (session guest ops).books.guest.guest) :
    let s := session guest ops
    let out := s.books.ledger.outstanding
    let inside := out.filter (·.stop ≤ length)
    let answers := (freeInTurn inside s.books.guest).1
    let closed := releaseAll s.books
    -- as many rounds as there are handles are enough
    (∀ extra, releaseNewest (out.length + extra) none s.books = releaseNewest out.length none s.books) ∧
    -- the guest frees what lies in the memory, newest first, once each, and answers
    (out.Pairwise fun x y => y.id < x.id) ∧ closed.2.guest = (freeInTurn inside s.books.guest).2 ∧
    closed.2.guest.freed = (inside.map Handle.place).reverse ++ s.books.guest.freed ∧
    answers.length = inside.length ∧
    -- nothing is left on the books
    closed.2.ledger = { s.books.ledger with
      outstanding := []
      released := []
      releasedBelow := s.books.ledger.nextId
      releases := s.books.ledger.releases + inside.length } ∧
    (∀ x, Issued s.copies x → x.owned = true →
      refresh x closed.2 = (.error (.doubleFree x.id x.ptr), closed.2) ∧
        release x closed.2 = (.error (.doubleFree x.id x.ptr), closed.2)) ∧
    (∀ x, x.owned = false → (refresh x closed.2).1 = (refresh x s.books).1 ∧
      (x.stop ≤ length → (refresh x closed.2).1 = .ok { x with epoch })) ∧
    -- the first failure is reported, and it is never one of the ledger's own
    closed.1 = firstFailure (outcomes length out answers) ∧
    (closed.1 = .ok () ↔ (∀ x ∈ out, x.stop ≤ length) ∧ ∀ answer ∈ answers, answer = .ok ()) ∧
    ∀ e, closed.1 = .error e →
      (∃ x ∈ out, length < x.stop ∧ e = .outOfBounds x.ptr.toNat x.len.toNat length) ∨ .error e ∈ answers := by
  intro s out inside answers closed
  have hwatched := hsteady.seen guestView_watched
  have htidy : s.books.ledger.Tidy := session_tidy guest ops
  have hrounds := fun extra => releaseNewest_steady hwatched extra out none hguest htidy rfl
  have hlength : answers.length = inside.length := length_freeInTurn inside s.books.guest
  have hclosed : closed = (firstFailure (outcomes length out answers),
      ⟨(s.books.ledger.leaving [] inside).close, (freeInTurn inside s.books.guest).2⟩) := by
    unfold closed releaseAll
    rw [← Nat.add_zero s.books.ledger.outstanding.length, hrounds 0]
    rfl
  have hsteadyAfter := hwatched.freeInTurn inside hguest
  rw [hclosed]
  refine ⟨fun extra => (hrounds extra).trans (hrounds 0).symm, htidy.newestFirst, rfl,
    freed_freeInTurn inside _, hlength, rfl, fun x hissued howned => ?_, fun x howned => ?_, rfl,
    firstFailure_outcomes_ok_iff hlength, fun e => firstFailure_outcomes_error hlength⟩
  · have hbooks := (session_alongside guest ops).books
    refine gone_of_closed _ howned ?_
    change x.id < s.books.ledger.nextId
    rw [hbooks.agrees.nextId]
    exact hbooks.sound.below hissued
  · have hafter := refresh_borrowed hwatched (s.books.ledger.leaving [] inside).close hsteadyAfter howned
    refine ⟨hafter.trans (refresh_borrowed hwatched s.books.ledger hguest howned).symm, fun hinside => ?_⟩
    rw [hafter, if_neg (Nat.not_lt.mpr hinside)]

end

/-- A scripted guest keeps the length and the epoch of its memory while it frees. -/
theorem scripted_steady (length epoch : Nat) :
    Steady length epoch fun g : ScriptedGuest => g.memoryLength = length ∧ g.epoch = epoch where
  memoryLength hg := hg.1
  epoch hg := hg.2
  look hg := hg
  free {g} hg ptr len := by
    change (g.free ptr len).2.memoryLength = length ∧ (g.free ptr len).2.epoch = epoch
    unfold ScriptedGuest.free
    split <;> exact hg

/-- A session that leaves three handles behind: one from before the memory grew, one that reaches out of the
memory, and one after them. A handle for a range that the caller looks after is not one of them. -/
def leftBehind : Session (Books (Watched ScriptedGuest)) :=
  session (.fresh 1024 65536)
    [.allocate 16, .borrow 8 4, .disturb (·.grow 65536), .adopt 131070 12, .allocate 32]

/-- The two handles that lie in the memory are freed, and the other one is reported. -/
theorem leftBehind_closed : leftBehind.books.guest.guest.memoryLength = 131072 ∧
    leftBehind.books.guest.guest.epoch = 1 ∧
    leftBehind.books.ledger.outstanding.map (fun x => (x.id, x.epoch)) = [(3, 1), (2, 1), (0, 0)] ∧
    (releaseAll leftBehind.books).1 = .error (.outOfBounds 131070 12 131072) ∧
    (releaseAll leftBehind.books).2.guest.freed = [(1024, 16), (1040, 32)] ∧
    (releaseAll leftBehind.books).2.ledger = ⟨4, [], [], 4, 3, 2⟩ := by
  obtain ⟨-, -, -, hfreed, -, hledger, -, -, hresult, -⟩ :=
    books_are_closed (scripted_steady 131072 1) (.fresh 1024 65536)
      [.allocate 16, .borrow 8 4, .disturb (·.grow 65536), .adopt 131070 12, .allocate 32] ⟨rfl, rfl⟩
  exact ⟨rfl, rfl, rfl, hresult, hfreed, hledger⟩

end GuestCall
