/-
# Arrays under change

An array is of one kind and stays so: it takes what is of its kind, and what it refuses leaves it as it was. The
type of arrays promises as much. Here it is told without that promise, of bare scalars, which may be of any kinds,
and of the checks alone. Whatever is done to an array, the same is done to its bare scalars, and both give the
same answers and end with the same scalars.

Key definitions: `ScalarArray.Origin` and `ScalarArray.Change`; `ScalarArray.session`, changes of an array one
after the other, and `Change.session`, the same changes of bare scalars.
Key theorems: `mismatch_eq_some_iff`, `Change.kind_of_mem_session`, `session_eq_bare`, `session_replacements`,
`arrays_keep_to_their_kind`.
-/
import GuestCall.ScalarArray
import Mathlib.Algebra.GroupWithZero.Nat

namespace GuestCall.ScalarArray

/-! ### Where arrays come from -/

/-- Where an array comes from. -/
inductive Origin where
  | empty (kind : ScalarKind)
  /-- Scalars that may be of any kinds, so that they are checked. -/
  | scalars (kind : ScalarKind) (items : List Scalar)
  /-- Payloads that are of one kind by their type, whether the array takes them over or copies them. -/
  | elements (kind : ScalarKind) (payloads : List kind.Element)

namespace Origin

/-- The kind that an array is to have. -/
def kind : Origin → ScalarKind
  | .empty kind | .scalars kind _ | .elements kind _ => kind

/-- The scalars that an array is to hold. -/
def items : Origin → List Scalar
  | .empty _ => []
  | .scalars _ items => items
  | .elements kind payloads => payloads.map (Scalar.of kind)

/-- The array, unless its scalars are of several kinds. -/
def build : Origin → Except ArrayError ScalarArray
  | .empty kind => .ok (ScalarArray.empty kind)
  | .scalars kind items => ScalarArray.ofScalars kind items
  | .elements kind payloads => .ok (ScalarArray.ofElements kind payloads)

end Origin

section

variable {kind : ScalarKind} {items : List Scalar} {a : ScalarArray} {e : ArrayError} {origin : Origin}

/-- The scalar that is at fault is of another kind, and all in front of it are not. -/
theorem mismatch_eq_some_iff : mismatch? kind items = some e ↔ ∃ (i : Nat) (h : i < items.length),
    items[i].kind ≠ kind ∧ (∀ j (_ : j < i), items[j].kind = kind) ∧ e = .elementKind kind items[i].kind i := by
  simp only [mismatch?, Option.map_eq_some_iff, List.find?_eq_some_iff_getElem, List.length_zipIdx,
    List.getElem_zipIdx, Nat.zero_add, bne_iff_ne, Bool.not_eq_true', bne_eq_false_iff_eq]
  constructor
  · rintro ⟨_, ⟨hkind, i, h, rfl, hbefore⟩, rfl⟩
    exact ⟨i, h, hkind, hbefore, rfl⟩
  · rintro ⟨i, h, hkind, hbefore, rfl⟩
    exact ⟨(items[i], i), ⟨hkind, i, h, rfl, hbefore⟩, rfl⟩

theorem ofScalars_eq_error : ofScalars kind items = .error e ↔ mismatch? kind items = some e := by
  unfold ofScalars
  split
  · rename_i hnone
    simp [hnone]
  · rename_i e' hsome
    simp [hsome]

theorem ofScalars_eq_ok : ofScalars kind items = .ok a ↔ a.kind = kind ∧ a.items = items := by
  constructor
  · intro h
    unfold ofScalars at h
    split at h
    · cases h
      exact ⟨rfl, rfl⟩
    · cases h
  · rintro ⟨rfl, rfl⟩
    unfold ofScalars
    split
    · rfl
    · rename_i hsome
      rw [mismatch_eq_none_iff.mpr a.homogeneous] at hsome
      cases hsome

/-- An array that is built has the kind and the scalars that it was to have. -/
theorem build_eq_ok (h : origin.build = .ok a) : a.kind = origin.kind ∧ a.items = origin.items := by
  cases origin with
  | empty kind =>
    cases h
    exact ⟨rfl, rfl⟩
  | scalars kind items => exact ofScalars_eq_ok.mp (h : ofScalars kind items = .ok a)
  | elements kind payloads =>
    cases h
    exact ⟨rfl, rfl⟩

/-- Nothing is refused but scalars of another kind, and the first of them is named. -/
theorem build_eq_error : origin.build = .error e ↔ mismatch? origin.kind origin.items = some e := by
  cases origin with
  | empty kind => exact ⟨nofun, nofun⟩
  | scalars kind items => exact (ofScalars_eq_error : ofScalars kind items = .error e ↔ _)
  | elements kind payloads =>
    have hnone : mismatch? kind (payloads.map (Scalar.of kind)) = none :=
      mismatch_eq_none_iff.mpr (ofElements kind payloads).homogeneous
    simp [Origin.build, Origin.kind, Origin.items, hnone]

theorem exists_build_iff : (∃ a, origin.build = .ok a) ↔ ∀ s ∈ origin.items, s.kind = origin.kind := by
  constructor
  · rintro ⟨a, ha⟩
    obtain ⟨hkind, hitems⟩ := build_eq_ok ha
    rw [← hitems, ← hkind]
    exact a.homogeneous
  · intro h
    rcases hbuild : origin.build with e | a
    · rw [build_eq_error, mismatch_eq_none_iff.mpr h] at hbuild
      cases hbuild
    · exact ⟨a, rfl⟩

/-- Every array can be built, from its own scalars. So what is assigned to an array is always one that was built. -/
theorem build_scalars (a : ScalarArray) : (Origin.scalars a.kind a.items).build = .ok a :=
  (ofScalars_eq_ok : ofScalars a.kind a.items = .ok a ↔ _).mpr ⟨rfl, rfl⟩

end

/-! ### Changes of bare scalars -/

/-- A change of an array. -/
inductive Change where
  | push (item : Scalar)
  | set (index : Nat) (item : Scalar)
  | assign (other : ScalarArray)

namespace Change

/-- The kind of what a change brings. -/
def kind : Change → ScalarKind
  | .push item | .set _ item => item.kind
  | .assign other => other.kind

/-- Where a change of the wrong kind is said to have failed, in an array of some length. -/
def place (length : Nat) : Change → Nat
  | .push _ => length
  | .set index _ => index
  | .assign _ => 0

/-- Why a change is refused by an array of some kind and length. The kind is looked at before the index. -/
def refusal? (kind : ScalarKind) (length : Nat) (c : Change) : Option ArrayError :=
  if c.kind ≠ kind then some (.elementKind kind c.kind (c.place length))
  else
    match c with
    | .set index _ => if length ≤ index then some (.outOfRange index length) else none
    | .push _ | .assign _ => none

/-- What a change makes of some scalars if it is not refused. -/
def effect (items : List Scalar) : Change → List Scalar
  | .push item => items ++ [item]
  | .set index item => items.set index item
  | .assign other => other.items

/-- The answer to a change of bare scalars, and the scalars after it. -/
def onBare (kind : ScalarKind) (items : List Scalar) (c : Change) : Except ArrayError Unit × List Scalar :=
  match c.refusal? kind items.length with
  | some e => (.error e, items)
  | none => (.ok (), c.effect items)

/-- Changes of bare scalars one after the other: the answers, and the scalars after them. -/
def session (kind : ScalarKind) : List Scalar → List Change → List (Except ArrayError Unit) × List Scalar
  | items, [] => ([], items)
  | items, c :: rest =>
    match c.onBare kind items with
    | (answer, items) =>
      match session kind items rest with
      | (answers, items) => (answer :: answers, items)

variable {c : Change} {target : ScalarKind} {scalars : List Scalar} {length : Nat}

/-- What is of another kind is refused for that, whatever else is wrong. -/
theorem refusal?_of_kind_ne (h : c.kind ≠ target) :
    c.refusal? target length = some (.elementKind target c.kind (c.place length)) := if_pos h

theorem kind_of_accepted (h : c.refusal? target length = none) : c.kind = target := by
  refine Decidable.byContradiction fun hkind => ?_
  rw [refusal?_of_kind_ne hkind] at h
  cases h

/-- Scalars of one kind stay of that kind when a change brings no other. -/
theorem kind_of_mem_effect (hc : c.kind = target) (h : ∀ s ∈ scalars, s.kind = target) :
    ∀ s ∈ c.effect scalars, s.kind = target := by
  intro s hs
  cases c with
  | push item =>
    rcases List.mem_append.mp hs with hs | hs
    · exact h s hs
    · rwa [List.mem_singleton.mp hs]
  | set index item =>
    rcases List.mem_or_eq_of_mem_set hs with hs | rfl
    · exact h s hs
    · exact hc
  | assign other => exact (other.homogeneous s hs).trans hc

/-- **One change of bare scalars** keeps them of one kind. -/
theorem kind_of_mem_onBare (h : ∀ s ∈ scalars, s.kind = target) :
    ∀ s ∈ (c.onBare target scalars).2, s.kind = target := by
  unfold onBare
  split
  · exact h
  · rename_i haccepted
    exact kind_of_mem_effect (kind_of_accepted haccepted) h

/-- **Bare scalars stay of one kind** through any changes. -/
theorem kind_of_mem_session (changes : List Change) (h : ∀ s ∈ scalars, s.kind = target) :
    ∀ s ∈ (session target scalars changes).2, s.kind = target := by
  induction changes generalizing scalars with
  | nil => exact h
  | cons c rest ih => exact ih (kind_of_mem_onBare h)

/-- A replacement of an element by one of the same kind. -/
theorem onBare_set {front rest : List Scalar} {old item : Scalar} (h : item.kind = target) :
    (Change.set front.length item).onBare target (front ++ old :: rest) = (.ok (), front ++ item :: rest) := by
  have haccepted : (Change.set front.length item).refusal? target (front ++ old :: rest).length = none := by
    simp [refusal?, kind, h]
  rw [onBare, haccepted]
  simp [effect]

/-- Replacements of scalars one by one, behind those that are replaced already. -/
theorem session_replacements_from (payloads : List target.Element) (front : List Scalar) {rest : List Scalar}
    (h : payloads.length ≤ rest.length) :
    session target (front ++ rest) ((payloads.zipIdx front.length).map fun p => .set p.2 (Scalar.of target p.1)) =
      (List.replicate payloads.length (.ok ()),
        front ++ (payloads.map (Scalar.of target) ++ rest.drop payloads.length)) := by
  induction payloads generalizing front rest with
  | nil => rfl
  | cons v payloads ih =>
    cases rest with
    | nil => exact absurd h (Nat.not_succ_le_zero _)
    | cons old rest =>
      -- the scalar that is replaced first joins the front
      have hrest := ih (front ++ [Scalar.of target v]) (Nat.le_of_succ_le_succ h)
      rw [List.length_append, List.length_singleton, List.append_assoc, List.singleton_append] at hrest
      rw [List.zipIdx_cons, List.map_cons, session, onBare_set (Scalar.kind_of target v)]
      dsimp only
      rw [hrest]
      simp [List.replicate_succ]

end Change

/-! ### Changes of arrays -/

/-- The array that a change makes, unless it is refused. -/
def attempt (a : ScalarArray) : Change → Except ArrayError ScalarArray
  | .push item => a.push item
  | .set index item => a.set index item
  | .assign other => a.assign other

/-- The answer to a change, and the array after it. -/
def change (a : ScalarArray) (c : Change) : Except ArrayError Unit × ScalarArray :=
  match a.attempt c with
  | .ok b => (.ok (), b)
  | .error e => (.error e, a)

/-- Changes one after the other: the answers, and the array after them. -/
def session (a : ScalarArray) : List Change → List (Except ArrayError Unit) × ScalarArray
  | [] => ([], a)
  | c :: rest =>
    match a.change c with
    | (answer, a) =>
      match a.session rest with
      | (answers, a) => (answer :: answers, a)

variable {a b : ScalarArray} {c : Change} {e : ArrayError}

theorem change_of_attempt (h : a.attempt c = .ok b) : a.change c = (.ok (), b) := by
  rw [change, h]

/-- Every change looks at the kind first. -/
theorem attempt_of_kind_ne (h : c.kind ≠ a.kind) :
    a.attempt c = .error (.elementKind a.kind c.kind (c.place a.length)) := by
  cases c with
  | push | set | assign => exact dif_neg h

/-- **What a change does**: it is refused and changes nothing, or it has its effect and the kind stays. -/
theorem change_cases (a : ScalarArray) (c : Change) :
    (∃ e, c.refusal? a.kind a.length = some e ∧ a.change c = (.error e, a)) ∨
    c.refusal? a.kind a.length = none ∧
      ∃ b, a.change c = (.ok (), b) ∧ b.kind = a.kind ∧ b.items = c.effect a.items := by
  by_cases hkind : c.kind = a.kind
  · have haccepted : ¬ c.kind ≠ a.kind := not_not_intro hkind
    cases c with
    | push item =>
      have hpush : a.push item = .ok _ := dif_pos hkind
      exact .inr ⟨if_neg haccepted, _, change_of_attempt hpush, rfl, rfl⟩
    | set index item =>
      have hset : a.set index item = if index < a.length then .ok _ else .error _ := dif_pos hkind
      by_cases hindex : index < a.length
      · rw [if_pos hindex] at hset
        exact .inr ⟨(if_neg haccepted).trans (if_neg (Nat.not_le_of_lt hindex)), _, change_of_attempt hset,
          rfl, rfl⟩
      · rw [if_neg hindex] at hset
        exact .inl ⟨_, (if_neg haccepted).trans (if_pos (Nat.le_of_not_lt hindex)), by rw [change, attempt, hset]⟩
    | assign other =>
      have hassign : a.assign other = .ok _ := dif_pos hkind
      exact .inr ⟨if_neg haccepted, _, change_of_attempt hassign, rfl, rfl⟩
  · refine .inl ⟨_, Change.refusal?_of_kind_ne hkind, ?_⟩
    rw [change, attempt_of_kind_ne hkind]

/-- A change of an array is the change of its bare scalars, and the kind stays. -/
theorem change_eq_bare (a : ScalarArray) (c : Change) : (a.change c).2.kind = a.kind ∧
    ((a.change c).1, (a.change c).2.items) = c.onBare a.kind a.items := by
  unfold Change.onBare
  obtain ⟨e, hrefused, h⟩ | ⟨haccepted, b, h, hkind, hitems⟩ := a.change_cases c
  · rw [show c.refusal? a.kind a.items.length = some e from hrefused, h]
    exact ⟨rfl, rfl⟩
  · rw [show c.refusal? a.kind a.items.length = none from haccepted, h]
    exact ⟨hkind, Prod.ext rfl hitems⟩

/-- **A session of an array** is the session of its bare scalars, and the kind stays. -/
theorem session_eq_bare (a : ScalarArray) (changes : List Change) : (a.session changes).2.kind = a.kind ∧
    ((a.session changes).1, (a.session changes).2.items) = Change.session a.kind a.items changes := by
  induction changes generalizing a with
  | nil => exact ⟨rfl, rfl⟩
  | cons c rest ih =>
    obtain ⟨hkind, hbare⟩ := a.change_eq_bare c
    obtain ⟨hkinds, hbares⟩ := ih (a.change c).2
    -- the change keeps the kind, so the rest is compared with the kind of `a` as well
    rw [hkind] at hkinds hbares
    refine ⟨hkinds, ?_⟩
    rw [Change.session, ← hbare]
    dsimp only
    rw [← hbares]
    rfl

/-- Arrays are equal that have the same kind and the same scalars. -/
theorem eq_of_items (hkind : a.kind = b.kind) (hitems : a.items = b.items) : a = b := by
  cases a
  cases b
  cases hkind
  cases hitems
  rfl

/-- **Overwriting is replacing**, element by element from the front, and none of the replacements is refused. -/
theorem session_replacements (a : ScalarArray) {payloads : List a.kind.Element} (h : payloads.length ≤ a.length) :
    a.session (payloads.zipIdx.map fun p => .set p.2 (Scalar.of a.kind p.1)) =
      (List.replicate payloads.length (.ok ()), a.overwrite payloads) := by
  obtain ⟨hkind, hbare⟩ := a.session_eq_bare (payloads.zipIdx.map fun p => .set p.2 (Scalar.of a.kind p.1))
  obtain ⟨hanswers, hitems⟩ :=
    Prod.ext_iff.mp (hbare.trans (Change.session_replacements_from payloads [] h))
  exact Prod.ext hanswers (eq_of_items hkind hitems)

/-! ### What a change leaves -/

theorem change_eq_error : (a.change c).1 = .error e ↔ c.refusal? a.kind a.length = some e := by
  obtain ⟨e', hrefused, h⟩ | ⟨haccepted, b, h, -⟩ := a.change_cases c
  · simp [h, hrefused]
  · simp [h, haccepted]

/-- A change that is refused changes nothing. -/
theorem change_of_error (he : (a.change c).1 = .error e) : (a.change c).2 = a := by
  obtain ⟨e', -, h⟩ | ⟨-, b, h, -⟩ := a.change_cases c
  · rw [h]
  · rw [h] at he
    cases he

/-- A change that is not refused has its effect. -/
theorem items_change_of_ok (hok : (a.change c).1 = .ok ()) : (a.change c).2.items = c.effect a.items := by
  obtain ⟨e', -, h⟩ | ⟨-, b, h, -, hitems⟩ := a.change_cases c
  · rw [h] at hok
    cases hok
  · rw [h, hitems]

/-- A replacement keeps the length, whether it is refused or not. -/
theorem length_change_set (a : ScalarArray) (index : Nat) (item : Scalar) :
    (a.change (.set index item)).2.length = a.length := by
  obtain ⟨e, -, h⟩ | ⟨-, b, h, -, hitems⟩ := a.change_cases (.set index item)
  · rw [h]
  · rw [h, length, hitems]
    exact List.length_set

/-- **Arrays keep to their kind**, wherever they come from and whatever is done to them. Only scalars of several
kinds make no array, and the first of another kind is named. In any session an array gives the answers that its
bare scalars give and holds what they come to; it has the kind that it had at first, and so have all its scalars,
whose widths add up to its size. A further change is refused just if it brings another kind, or else replaces
what is not there. Then the array stays as it is; otherwise the change has its effect, and a replacement never
changes the length. -/
theorem arrays_keep_to_their_kind (origin : Origin) (changes : List Change) :
    ((∃ a, origin.build = .ok a) ↔ ∀ s ∈ origin.items, s.kind = origin.kind) ∧
    (∀ e, origin.build = .error e ↔ ∃ (i : Nat) (h : i < origin.items.length),
      origin.items[i].kind ≠ origin.kind ∧ (∀ j (_ : j < i), origin.items[j].kind = origin.kind) ∧
        e = .elementKind origin.kind origin.items[i].kind i) ∧
    ∀ a, origin.build = .ok a →
      let b := (a.session changes).2
      ((a.session changes).1, b.items) = Change.session origin.kind origin.items changes ∧
      b.kind = origin.kind ∧ (∀ s ∈ b.items, s.kind = origin.kind) ∧
      b.byteLength = (b.items.map fun s => s.kind.width).sum ∧
      (∀ index item, (b.change (.set index item)).2.length = b.length) ∧
      ∀ c : Change, (b.change c).2.kind = origin.kind ∧
        (∀ e, (b.change c).1 = .error e ↔ c.refusal? origin.kind b.length = some e) ∧
        (∀ e, (b.change c).1 = .error e → (b.change c).2 = b) ∧
        ((b.change c).1 = .ok () → (b.change c).2.items = c.effect b.items) := by
  refine ⟨exists_build_iff, fun e => build_eq_error.trans mismatch_eq_some_iff, fun a ha => ?_⟩
  intro b
  obtain ⟨hkind, hitems⟩ := build_eq_ok ha
  obtain ⟨hkept, hbare⟩ := a.session_eq_bare changes
  rw [hkind] at hkept hbare
  rw [hitems] at hbare
  have huniform : ∀ s ∈ b.items, s.kind = origin.kind := by
    have hsnd : b.items = (Change.session origin.kind origin.items changes).2 := congrArg Prod.snd hbare
    rw [hsnd]
    exact Change.kind_of_mem_session changes (exists_build_iff.mp ⟨a, ha⟩)
  refine ⟨hbare, hkept, huniform, ?_, b.length_change_set, fun c => ⟨?_, ?_, ?_, ?_⟩⟩
  · rw [byteLength_eq_sum, List.sum_eq_foldr, List.foldr_map]
  · exact (b.change_eq_bare c).1.trans hkept
  · intro e
    rw [change_eq_error, hkept]
  · exact fun e => change_of_error
  · exact items_change_of_ok

/-- Changes of an array of two bytes. -/
def mixedChanges : List Change :=
  [.push (.i32 3), .set 5 (.i32 3), .set 2 (.u8 9), .set 1 (.u8 9), .assign (.ofElements .i32 [7]),
    .assign (.ofElements .u8 [7, 6, 5]), .push (.u8 4)]

/-- Bytes take bytes only. Words are refused wherever they are to go, also behind the end, and a byte may only
replace one that is there. -/
theorem two_bytes_stay_bytes : ∃ a,
    (Origin.scalars .u8 [.u8 1, .i32 2, .bool true]).build = .error (.elementKind .u8 .i32 1) ∧
    (Origin.scalars .u8 [.u8 1, .u8 2]).build = .ok a ∧
    (a.session mixedChanges).1 = [.error (.elementKind .u8 .i32 2), .error (.elementKind .u8 .i32 5),
      .error (.outOfRange 2 2), .ok (), .error (.elementKind .u8 .i32 0), .ok (), .ok ()] ∧
    let b := (a.session mixedChanges).2
    b.items = [.u8 7, .u8 6, .u8 5, .u8 4] ∧ (∀ s ∈ b.items, s.kind = .u8) ∧ b.byteLength = 4 ∧
    (b.change (.set 4 (.u8 0))).1 = .error (.outOfRange 4 4) ∧ (b.change (.set 4 (.u8 0))).2 = b := by
  obtain ⟨-, hmixed, -⟩ := arrays_keep_to_their_kind (.scalars .u8 [.u8 1, .i32 2, .bool true]) []
  obtain ⟨hbuilt, -, hsession⟩ := arrays_keep_to_their_kind (.scalars .u8 [.u8 1, .u8 2]) mixedChanges
  obtain ⟨a, ha⟩ := hbuilt.mpr (by decide)
  obtain ⟨hbare, -, huniform, hsize, -, hchange⟩ := hsession a ha
  have hbares : Change.session .u8 [.u8 1, .u8 2] mixedChanges =
      ([.error (.elementKind .u8 .i32 2), .error (.elementKind .u8 .i32 5), .error (.outOfRange 2 2), .ok (),
        .error (.elementKind .u8 .i32 0), .ok (), .ok ()], [.u8 7, .u8 6, .u8 5, .u8 4]) := rfl
  obtain ⟨hanswers, hitems⟩ := Prod.mk.inj (hbare.trans hbares)
  have hfirst := (hmixed (.elementKind .u8 .i32 1)).mpr ⟨1, by decide, by decide, by decide, rfl⟩
  have hlength : (a.session mixedChanges).2.length = 4 := congrArg List.length hitems
  obtain ⟨-, hrefused, hstays, -⟩ := hchange (.set 4 (.u8 0))
  have houtside := (hrefused (.outOfRange 4 4)).mpr (by rw [hlength]; rfl)
  refine ⟨a, hfirst, ha, hanswers, hitems, huniform, ?_, houtside, hstays _ houtside⟩
  rw [hsize, hitems]
  rfl

end GuestCall.ScalarArray
