/-
# Arrays of scalars

An array is an ordered sequence of scalars of one kind. The type carries that every element has the
array's kind, so one width serves the whole array when it is laid out in guest memory. Operations
that would break it fail and name the kinds and the index at fault.

Key definitions:
* `ScalarArray`, with `push`, `set`, `assign` and `overwrite`;
* `ScalarArray.ofScalars`, which checks its elements, and `ScalarArray.ofElements`, which need not.

Key theorems:
* `mismatch_eq_none_iff`: the check passes exactly on elements of one kind;
* `byteLength_eq_sum`: the size of the payload is the sum of the widths of the elements.
-/
import GuestCall.Scalar.Basic

namespace GuestCall

/-- Why an array refuses an element. -/
inductive ArrayError where
  /-- The element at `index` is of another kind than the array. -/
  | elementKind (expected found : ScalarKind) (index : Nat)
  /-- There is no element at `index`. -/
  | outOfRange (index length : Nat)
  deriving DecidableEq

/-- What the error says. -/
def ArrayError.message : ArrayError → String
  | .elementKind expected found index =>
    s!"array of {expected.name} cannot hold a {found.name} element at index {index}"
  | .outOfRange index length => s!"index {index} out of range for array of length {length}"

/-- An ordered sequence of scalars of one kind. -/
structure ScalarArray where
  kind : ScalarKind
  items : List Scalar
  homogeneous : ∀ s ∈ items, s.kind = kind
  deriving DecidableEq

namespace ScalarArray

/-- The array of a kind with no elements. -/
def empty (kind : ScalarKind) : ScalarArray := ⟨kind, [], by simp⟩

/-- The first element of another kind, as the error that names it. -/
def mismatch? (kind : ScalarKind) (items : List Scalar) : Option ArrayError :=
  (items.zipIdx.find? fun p => p.1.kind != kind).map fun p => .elementKind kind p.1.kind p.2

theorem mismatch_eq_none_iff {kind : ScalarKind} {items : List Scalar} :
    mismatch? kind items = none ↔ ∀ s ∈ items, s.kind = kind := by
  simp only [mismatch?, Option.map_eq_none_iff, List.find?_eq_none, bne_iff_ne, ne_eq,
    Decidable.not_not]
  constructor
  · intro h s hs
    obtain ⟨i, hi, rfl⟩ := List.getElem_of_mem hs
    exact h (items[i], i) (by simp [List.mem_zipIdx_iff_getElem?, hi])
  · rintro h ⟨s, i⟩ hp
    exact h s (List.mem_of_getElem? (List.mem_zipIdx_iff_getElem?.1 hp))

/-- The array of checked elements; the error names the first one of another kind. -/
def ofScalars (kind : ScalarKind) (items : List Scalar) : Except ArrayError ScalarArray :=
  match h : mismatch? kind items with
  | none => .ok ⟨kind, items, mismatch_eq_none_iff.1 h⟩
  | some e => .error e

/-- The array of payloads that are of one kind by their type. -/
def ofElements (kind : ScalarKind) (items : List kind.Element) : ScalarArray :=
  ⟨kind, items.map (Scalar.of kind), by
    intro s hs
    obtain ⟨v, _, rfl⟩ := List.mem_map.1 hs
    exact Scalar.kind_of kind v⟩

/-- How many elements there are. -/
def length (a : ScalarArray) : Nat := a.items.length

@[simp] theorem length_ofElements (kind : ScalarKind) (elements : List kind.Element) :
    (ofElements kind elements).length = elements.length := List.length_map ..

/-- The payloads of an array are determined by it. -/
theorem ofElements_inj {kind : ScalarKind} {elements elements' : List kind.Element} :
    ofElements kind elements = ofElements kind elements' ↔ elements = elements' := by
  have hof : ∀ v w : kind.Element, Scalar.of kind v = Scalar.of kind w → v = w := by
    intro v w h
    cases kind <;> cases h <;> rfl
  constructor
  · intro h
    exact (List.map_inj_right hof).mp (congrArg items h)
  · rintro rfl
    rfl

/-- Bytes of the array's payload in linear memory. -/
def byteLength (a : ScalarArray) : Nat := a.items.length * a.kind.width

/-- The element at an index. -/
def get? (a : ScalarArray) (index : Nat) : Option Scalar := a.items[index]?

/-- The array with one more element at its end. -/
def push (a : ScalarArray) (item : Scalar) : Except ArrayError ScalarArray :=
  if h : item.kind = a.kind then
    .ok ⟨a.kind, a.items ++ [item], by
      intro s hs
      rcases List.mem_append.1 hs with hs | hs
      · exact a.homogeneous s hs
      · rw [List.mem_singleton.1 hs]; exact h⟩
  else .error (.elementKind a.kind item.kind a.length)

/-- The array with the element at an index replaced. The kind is checked before the index. -/
def set (a : ScalarArray) (index : Nat) (item : Scalar) : Except ArrayError ScalarArray :=
  if h : item.kind = a.kind then
    if index < a.length then
      .ok ⟨a.kind, a.items.set index item, by
        intro s hs
        rcases List.mem_or_eq_of_mem_set hs with hs | rfl
        · exact a.homogeneous s hs
        · exact h⟩
    else .error (.outOfRange index a.length)
  else .error (.elementKind a.kind item.kind index)

/-- The array with its whole contents replaced by those of an array of the same kind. -/
def assign (a other : ScalarArray) : Except ArrayError ScalarArray :=
  if h : other.kind = a.kind then
    .ok ⟨a.kind, other.items, fun s hs => h ▸ other.homogeneous s hs⟩
  else .error (.elementKind a.kind other.kind 0)

/-- The array with its first elements replaced by the given payloads. -/
def overwrite (a : ScalarArray) (items : List a.kind.Element) : ScalarArray :=
  ⟨a.kind, items.map (Scalar.of a.kind) ++ a.items.drop items.length, by
    intro s hs
    rcases List.mem_append.1 hs with hs | hs
    · exact (ofElements a.kind items).homogeneous s hs
    · exact a.homogeneous s (List.mem_of_mem_drop hs)⟩

theorem overwrite_all (a : ScalarArray) {items : List a.kind.Element} (h : items.length = a.length) :
    a.overwrite items = .ofElements a.kind items := by
  unfold overwrite ofElements
  simp only [h, length, List.drop_length, List.append_nil]

theorem exists_elements {kind : ScalarKind} : ∀ {items : List Scalar}, (∀ s ∈ items, s.kind = kind) →
    ∃ elements : List kind.Element, elements.map (Scalar.of kind) = items
  | [], _ => ⟨[], rfl⟩
  | s :: rest, h => by
    obtain ⟨elements, hrest⟩ := exists_elements fun t ht => h t (List.mem_cons_of_mem _ ht)
    obtain rfl : s.kind = kind := h s List.mem_cons_self
    exact ⟨s.element :: elements, by rw [List.map_cons, Scalar.of_element, hrest]⟩

/-- Every array is the one of its payloads. -/
theorem exists_ofElements {a : ScalarArray} {kind : ScalarKind} (h : a.kind = kind) :
    ∃ elements : List kind.Element, a = .ofElements kind elements := by
  obtain ⟨_, items, homogeneous⟩ := a
  obtain rfl := h
  obtain ⟨elements, rfl⟩ := exists_elements homogeneous
  exact ⟨elements, rfl⟩

/-- The text of an array: its elements in brackets. -/
def text (a : ScalarArray) : String := "[" ++ ", ".intercalate (a.items.map Scalar.text) ++ "]"

/-- Equality as arithmetic sees it: an array that holds a NaN differs from itself. -/
def same (a b : ScalarArray) : Bool := a.kind == b.kind && a.items.isEqv b.items Scalar.same

theorem foldr_width {kind : ScalarKind} : ∀ {items : List Scalar}, (∀ s ∈ items, s.kind = kind) →
    items.foldr (fun s size => s.kind.width + size) 0 = items.length * kind.width
  | [], _ => by simp
  | s :: rest, h => by
    rw [List.foldr_cons, foldr_width fun t ht => h t (List.mem_cons_of_mem _ ht),
      h s List.mem_cons_self, List.length_cons, Nat.add_mul, Nat.one_mul, Nat.add_comm]

/-- The size of the payload is the sum of the widths of the elements. -/
theorem byteLength_eq_sum (a : ScalarArray) :
    a.byteLength = a.items.foldr (fun s size => s.kind.width + size) 0 :=
  (foldr_width a.homogeneous).symm

end ScalarArray

end GuestCall
