/-
# Interned static data

Strings of bytes are interned one after the other, in any order and as often as one likes. Each gets a place
behind the strings that were there before, unless it has one, and then it gets that one. So a place is good for
ever: what stands there is the string, whatever is interned later, equal strings share it and no other string has
a byte of it. In an instance of the finished draft the strings stand in their places, below the heap, and no
block that the allocator hands out has a byte of them.

Key definitions: `StaticData.after` and `StaticData.placed`, the data and the places after some strings;
`StaticData.Shows`, what stands in a place; `StaticData.Sound`, what interning preserves.
Key theorems: `StaticData.intern_cases`, `StaticData.Sound.intern`, `StaticData.shows_placed`,
`StaticData.placed_eq_or_disjoint`, `Draft.data_after`, `strings_keep_their_places`.
-/
import GuestCall.Proofs.Draft.Steps
import GuestCall.Proofs.Guest.Blocks
import Mathlib.Data.List.Pairwise

namespace GuestCall

/-- A byte of a span. -/
def Span.Has (s : Span) (address : Nat) : Prop := s.ptr ≤ address ∧ address < s.ptr + s.len

namespace StaticData

variable {d : StaticData} {bytes : List UInt8} {span : Span} {strings later : List (List UInt8)}

/-! ### One string -/

/-- What stands in a place: a string, inside of the data. -/
structure Shows (d : StaticData) (span : Span) (bytes : List UInt8) : Prop where
  length : span.len = bytes.length
  start : dataStart ≤ span.ptr
  stop : span.ptr + span.len ≤ d.stop
  bytes : (d.contents.drop (span.ptr - dataStart)).take span.len = bytes

/-- **What interning does**: the string has a place already, or it gets one behind all others. -/
theorem intern_cases (d : StaticData) (bytes : List UInt8) :
    (∃ ptr, (bytes, ptr) ∈ d.places ∧ d.find? bytes = some ptr ∧
      d.intern bytes = (⟨ptr, bytes.length⟩, d)) ∨
    (∀ p ∈ d.places, p.1 ≠ bytes) ∧ d.find? bytes = none ∧
      d.intern bytes = (⟨d.stop, bytes.length⟩, ⟨d.contents ++ bytes, (bytes, d.stop) :: d.places⟩) := by
  rcases hfind : d.places.find? fun p => p.1 == bytes with _ | ⟨bytes', ptr⟩
  · have hnone : d.find? bytes = none := by rw [find?, hfind]; rfl
    refine .inr ⟨fun p hp heq => ?_, hnone, by rw [intern, hnone]⟩
    exact List.find?_eq_none.mp hfind p hp (beq_iff_eq.mpr heq)
  · have hsome : d.find? bytes = some ptr := by rw [find?, hfind]; rfl
    obtain rfl : bytes' = bytes := by
      have hbeq := List.find?_some hfind
      exact beq_iff_eq.mp hbeq
    exact .inl ⟨ptr, List.mem_of_find?_eq_some hfind, hsome, by rw [intern, hsome]⟩

/-- What comes behind the data changes no place. -/
theorem Shows.append (h : d.Shows span bytes) (rest : List UInt8) (places : List (List UInt8 × Nat)) :
    Shows ⟨d.contents ++ rest, places⟩ span bytes := by
  have hstart := h.start
  have hstop := h.stop
  unfold StaticData.stop at hstop
  refine ⟨h.length, hstart, ?_, ?_⟩
  · unfold StaticData.stop
    rw [List.length_append]
    omega
  · have hinside : span.ptr - dataStart ≤ d.contents.length := by omega
    have hcount : span.len ≤ (d.contents.drop (span.ptr - dataStart)).length := by
      rw [List.length_drop]
      omega
    rw [List.drop_append_of_le_length hinside, List.take_append_of_le_length hcount]
    exact h.bytes

/-- A string stands where it is placed first. -/
theorem shows_new (d : StaticData) (bytes : List UInt8) (places : List (List UInt8 × Nat)) :
    Shows ⟨d.contents ++ bytes, places⟩ ⟨d.stop, bytes.length⟩ bytes := by
  refine ⟨rfl, Nat.le_add_right _ _, ?_, ?_⟩
  · unfold StaticData.stop
    rw [List.length_append, Nat.add_assoc]
  · unfold StaticData.stop
    rw [Nat.add_sub_cancel_left, List.drop_left, List.take_length]

/-! ### What interning preserves -/

/-- Places of different strings, without a byte in common. -/
def Apart (p q : List UInt8 × Nat) : Prop := p.1 ≠ q.1 ∧ (p.2 + p.1.length ≤ q.2 ∨ q.2 + q.1.length ≤ p.2)

instance : Std.Symm Apart := ⟨fun _ _ h => ⟨h.1.symm, h.2.symm⟩⟩

theorem Apart.disjoint {p q : List UInt8 × Nat} (h : Apart p q) (address : Nat) :
    ¬ (Span.Has ⟨p.2, p.1.length⟩ address ∧ Span.Has ⟨q.2, q.1.length⟩ address) := by
  have hapart := h.2
  unfold Span.Has
  dsimp only
  omega

/-- Every place shows its string, and any two are apart. -/
structure Sound (d : StaticData) : Prop where
  shown : ∀ p ∈ d.places, d.Shows ⟨p.2, p.1.length⟩ p.1
  apart : d.places.Pairwise Apart

namespace Sound

theorem empty : Sound .empty := ⟨fun _ hp => (List.not_mem_nil hp).elim, List.Pairwise.nil⟩

/-- **Interning preserves all of it.** -/
theorem intern (h : d.Sound) (bytes : List UInt8) : (d.intern bytes).2.Sound := by
  rcases d.intern_cases bytes with ⟨ptr, -, -, hintern⟩ | ⟨hnew, -, hintern⟩
  · rwa [hintern]
  · rw [hintern]
    refine ⟨fun p hp => ?_, .cons (fun p hp => ⟨(hnew p hp).symm, .inr (h.shown p hp).stop⟩) h.apart⟩
    rcases List.mem_cons.mp hp with rfl | hp
    · exact shows_new d bytes _
    · exact (h.shown p hp).append bytes _

/-- A string has one place. -/
theorem eq_of_mem (h : d.Sound) {p q : List UInt8 × Nat} (hp : p ∈ d.places) (hq : q ∈ d.places)
    (heq : p.1 = q.1) : p = q := by
  by_contra hne
  exact (h.apart.forall hp hq hne).1 heq

end Sound

/-! ### Many strings -/

/-- The data after some strings. -/
def after (d : StaticData) : List (List UInt8) → StaticData
  | [] => d
  | bytes :: rest => (d.intern bytes).2.after rest

/-- Some strings, each with the place that it gets. -/
def placed (d : StaticData) : List (List UInt8) → List (List UInt8 × Span)
  | [] => []
  | bytes :: rest => (bytes, (d.intern bytes).1) :: (d.intern bytes).2.placed rest

/-- The end of the data after some strings, as a word that every string with a place of its own moves on. -/
def endWord (d : StaticData) (word : UInt32) : List (List UInt8) → UInt32
  | [] => word
  | bytes :: rest =>
    (d.intern bytes).2.endWord (if (d.find? bytes).isSome then word else word + bytes.length.toUInt32) rest

theorem after_append : ∀ (d : StaticData) (strings later : List (List UInt8)),
    d.after (strings ++ later) = (d.after strings).after later
  | _, [], _ => rfl
  | d, bytes :: strings, later => (d.intern bytes).2.after_append strings later

/-- Every string gets a place. -/
theorem placed_strings : ∀ (d : StaticData) (strings : List (List UInt8)),
    (d.placed strings).map (·.1) = strings
  | _, [] => rfl
  | d, bytes :: strings => congrArg (bytes :: ·) ((d.intern bytes).2.placed_strings strings)

theorem Sound.after : ∀ {d : StaticData} (strings : List (List UInt8)), d.Sound → (d.after strings).Sound
  | _, [], h => h
  | _, bytes :: strings, h => Sound.after strings (h.intern bytes)

theorem places_intern (d : StaticData) (bytes : List UInt8) : d.places ⊆ (d.intern bytes).2.places := by
  rcases d.intern_cases bytes with ⟨ptr, -, -, hintern⟩ | ⟨-, -, hintern⟩
  · rw [hintern]
    exact List.Subset.refl _
  · rw [hintern]
    exact List.subset_cons_self ..

/-- A place stays a place. -/
theorem places_after : ∀ (d : StaticData) (strings : List (List UInt8)), d.places ⊆ (d.after strings).places
  | _, [] => List.Subset.refl _
  | d, bytes :: strings =>
    List.Subset.trans (d.places_intern bytes) ((d.intern bytes).2.places_after strings)

theorem mem_intern (d : StaticData) (bytes : List UInt8) : (d.intern bytes).1.len = bytes.length ∧
    (bytes, (d.intern bytes).1.ptr) ∈ (d.intern bytes).2.places := by
  rcases d.intern_cases bytes with ⟨ptr, hmem, -, hintern⟩ | ⟨-, -, hintern⟩
  · rw [hintern]
    exact ⟨rfl, hmem⟩
  · rw [hintern]
    exact ⟨rfl, List.mem_cons_self⟩

/-- **What strings get** are places of the data, also of the data after later ones. -/
theorem mem_placed : ∀ {d : StaticData} {strings : List (List UInt8)} {p : List UInt8 × Span},
    p ∈ d.placed strings → p.2.len = p.1.length ∧ (p.1, p.2.ptr) ∈ (d.after strings).places
  | d, bytes :: strings, p, hp => by
    rcases List.mem_cons.mp hp with rfl | hp
    · obtain ⟨hlength, hmem⟩ := d.mem_intern bytes
      exact ⟨hlength, places_after _ strings hmem⟩
    · exact @mem_placed _ strings _ hp

theorem length_after : ∀ (d : StaticData) (strings : List (List UInt8)),
    (d.after strings).contents.length ≤ d.contents.length + strings.flatten.length
  | _, [] => Nat.le_refl _
  | d, bytes :: strings => by
    have hrest := (d.intern bytes).2.length_after strings
    have hone : (d.intern bytes).2.contents.length ≤ d.contents.length + bytes.length := by
      rcases d.intern_cases bytes with ⟨ptr, -, -, hintern⟩ | ⟨-, -, hintern⟩
      · rw [hintern]
        exact Nat.le_add_right _ _
      · rw [hintern]
        exact List.length_append.le
    rw [List.flatten_cons, List.length_append, ← Nat.add_assoc]
    exact hrest.trans (Nat.add_le_add_right hone _)

/-- The word that is moved on says where the data ends. -/
theorem endWord_eq : ∀ (d : StaticData) (strings : List (List UInt8)),
    d.endWord d.stop.toUInt32 strings = (d.after strings).stop.toUInt32
  | _, [] => rfl
  | d, bytes :: strings => by
    have hrest := (d.intern bytes).2.endWord_eq strings
    unfold endWord after
    rw [← hrest]
    refine congrArg (fun word => (d.intern bytes).2.endWord word strings) ?_
    rcases d.intern_cases bytes with ⟨ptr, -, hfind, hintern⟩ | ⟨-, hfind, hintern⟩
    · rw [hfind, hintern]
      rfl
    · rw [hfind, hintern]
      unfold StaticData.stop
      dsimp only
      rw [List.length_append, ← Nat.add_assoc]
      exact (UInt32.ofNat_add ..).symm

/-- The data ends below the end of the address space, at the word that is moved on. -/
theorem stop_empty (strings : List (List UInt8)) (hroom : dataStart + strings.flatten.length < 2 ^ 32) :
    (empty.after strings).stop = (empty.endWord dataStart.toUInt32 strings).toNat := by
  have hlength : (empty.after strings).contents.length ≤ 0 + strings.flatten.length := empty.length_after strings
  rw [Nat.zero_add] at hlength
  have hstop : (empty.after strings).stop < 2 ^ 32 :=
    Nat.lt_of_le_of_lt (Nat.add_le_add_left hlength _) hroom
  rw [show empty.endWord dataStart.toUInt32 strings = _ from empty.endWord_eq strings]
  exact (UInt32.toNat_ofNat_of_lt' hstop).symm

/-- What some strings get are places of the data after later ones. -/
theorem mem_placed_empty {p : List UInt8 × Span} (hp : p ∈ empty.placed strings) (later : List (List UInt8)) :
    p.2 = ⟨p.2.ptr, p.1.length⟩ ∧ (p.1, p.2.ptr) ∈ (empty.after (strings ++ later)).places := by
  obtain ⟨hlength, hmem⟩ := mem_placed hp
  refine ⟨by rw [← hlength], ?_⟩
  rw [after_append]
  exact places_after _ later hmem

/-- **A string stands in its place**, whatever is interned later. -/
theorem shows_placed {p : List UInt8 × Span} (hp : p ∈ empty.placed strings) (later : List (List UInt8)) :
    (empty.after (strings ++ later)).Shows p.2 p.1 := by
  obtain ⟨hspan, hmem⟩ := mem_placed_empty hp later
  rw [hspan]
  exact (Sound.empty.after _).shown _ hmem

/-- **Equal strings share their place**, and different ones have no byte in common. -/
theorem placed_eq_or_disjoint {p q : List UInt8 × Span} (hp : p ∈ empty.placed strings)
    (hq : q ∈ empty.placed strings) :
    if p.1 = q.1 then p.2 = q.2 else ∀ address, ¬ (p.2.Has address ∧ q.2.Has address) := by
  have hsound : (empty.after (strings ++ [])).Sound := Sound.empty.after _
  obtain ⟨hp, hpmem⟩ := mem_placed_empty hp []
  obtain ⟨hq, hqmem⟩ := mem_placed_empty hq []
  rw [hp, hq]
  split
  · rename_i heq
    obtain ⟨hbytes, hptr⟩ := Prod.mk.inj (hsound.eq_of_mem hpmem hqmem heq)
    rw [hbytes, hptr]
  · rename_i hne
    exact (hsound.apart.forall hpmem hqmem fun heq => hne (Prod.mk.inj heq).1).disjoint

end StaticData

/-! ### Drafts and instances -/

/-- A part of what a memory holds. -/
theorem Memory.Holds.part {m : Memory} {start skip : Nat} {bytes : List UInt8} (h : m.Holds start bytes)
    (hskip : skip ≤ bytes.length) (count : Nat) : m.Holds (start + skip) ((bytes.drop skip).take count) := by
  rw [← List.take_append_drop skip bytes, Memory.holds_append, List.length_take, Nat.min_eq_left hskip] at h
  obtain ⟨-, h⟩ := h
  rw [← List.take_append_drop count (bytes.drop skip), Memory.holds_append] at h
  exact h.1

namespace Draft

/-- The string that a step interns, if it does. -/
def Step.interned? : Step → Option (List UInt8)
  | .intern bytes => some bytes
  | .tableSection _ | .typed _ _ | .untyped .. | .declare _ => none

variable {d d' : Draft} {m : GuestModule} {c : Config} {i : Instance}

theorem data_apply {step : Step} (h : d.apply step = .ok d') :
    d'.data = d.data.after step.interned?.toList := by
  cases step with
  | tableSection name? =>
    cases h
    rfl
  | intern bytes =>
    cases h
    rfl
  | typed s body =>
    obtain ⟨⟨place, d₁⟩, hadd, rfl⟩ := eq_ok_of_map h
    obtain rfl := addTyped_eq_ok hadd
    rfl
  | untyped name shape body =>
    obtain ⟨⟨place, d₁⟩, hadd, rfl⟩ := eq_ok_of_map h
    obtain rfl := addFunction_eq_ok hadd
    rfl
  | declare s =>
    obtain rfl := declare_eq_ok h
    rfl

/-- **The static data of a draft** is that of the strings that its steps interned. -/
theorem data_after : ∀ (d : Draft) (steps : List Step),
    (d.after steps).data = d.data.after (steps.filterMap Step.interned?)
  | _, [] => rfl
  | d, step :: rest => by
    unfold after
    rcases hstep : d.apply step with e | d'
    · have hnone : step.interned? = none := by
        cases step with
        | intern bytes => cases hstep
        | tableSection | typed | untyped | declare => rfl
      rw [List.filterMap_cons_none hnone]
      exact d.data_after rest
    · have hrest := d'.data_after rest
      rw [data_apply hstep] at hrest
      cases hi : step.interned? with
      | none =>
        rw [List.filterMap_cons_none hi]
        rwa [hi] at hrest
      | some bytes =>
        rw [List.filterMap_cons_some hi]
        rwa [hi] at hrest

/-- A fresh instance holds what its draft shows. -/
theorem Loads.holds_shown (hd : d.Loads m) (hi : Instance.ofModule m c = .ok i) {span : Span}
    {bytes : List UInt8} (h : d.data.Shows span bytes) : i.store.memory.Holds span.ptr bytes := by
  have hstart := h.start
  have hstop := h.stop
  unfold StaticData.stop at hstop
  have hskip : span.ptr - dataStart ≤ d.data.contents.length := by omega
  have hpart := (hd.fresh_holds hi).part hskip span.len
  rwa [h.bytes, Nat.add_sub_cancel' hstart] at hpart

/-- No block of the heap has a byte of what its draft shows. -/
theorem Loads.shown_clear (hd : d.Loads m) {live : List Block} (hlive : Instance.History m c i live)
    {span : Span} {bytes : List UInt8} (h : d.data.Shows span bytes) {b : Block} (hb : b ∈ live)
    (address : Nat) : ¬ (span.Has address ∧ b.Has address) := by
  obtain ⟨memory, heap, counter, -, hlaid⟩ := hlive.laid hd
  have habove := (hlaid.placed b hb).2.1
  have hbelow := h.stop.trans hd.stop_le
  unfold Span.Has Block.Has
  omega

end Draft

/-- **Interned strings keep their places**, in whatever order they are interned and however often. The data
ends below the end of the address space, at the word that the lengths of the new strings add up to. Each string
stands in its place, inside of the data, after all later ones too; equal strings have one address, and different
ones no byte in common. If a draft with these strings can be finished, then every instance holds each string at
its address when it is fresh, and no block that the allocator hands out has a byte of one. -/
theorem strings_keep_their_places (strings later : List (List UInt8))
    (hroom : dataStart + (strings ++ later).flatten.length < 2 ^ 32) :
    let data := StaticData.empty.after (strings ++ later)
    let placed := StaticData.empty.placed strings
    (placed.map (·.1) = strings ∧ data.stop = dataStart + data.contents.length ∧
      data.stop = (StaticData.empty.endWord dataStart.toUInt32 (strings ++ later)).toNat) ∧
    (∀ p ∈ placed, data.Shows p.2 p.1) ∧
    (∀ p ∈ placed, ∀ q ∈ placed, if p.1 = q.1 then p.2 = q.2
      else ∀ address, ¬ (p.2.Has address ∧ q.2.Has address)) ∧
    ∀ steps bytes name c, steps.filterMap Draft.Step.interned? = strings ++ later →
      (Draft.empty.after steps).finish = .ok bytes →
      ∃ m i, GuestModule.ofBytes name bytes = .ok m ∧ Instance.ofModule m c = .ok i ∧
        ∀ p ∈ placed, i.store.memory.Holds p.2.ptr p.1 ∧
          ∀ i' live, Instance.History m c i' live → ∀ b ∈ live, ∀ address,
            ¬ (p.2.Has address ∧ b.Has address) := by
  intro data placed
  refine ⟨⟨StaticData.placed_strings .., rfl, StaticData.stop_empty _ hroom⟩,
    fun p hp => StaticData.shows_placed hp later, fun p hp q hq => StaticData.placed_eq_or_disjoint hp hq,
    fun steps bytes name c hsteps hfinish => ?_⟩
  obtain ⟨m, hm, hloads, -⟩ := Draft.loads_after hfinish name
  obtain ⟨i, -, hi, -⟩ := hloads.instantiates c
  have hshown : ∀ p ∈ placed, (Draft.empty.after steps).data.Shows p.2 p.1 := by
    intro p hp
    rw [Draft.data_after, hsteps]
    exact StaticData.shows_placed hp later
  exact ⟨m, i, hm, hi, fun p hp => ⟨hloads.holds_shown hi (hshown p hp),
    fun i' live hlive b hb => hloads.shown_clear hlive (hshown p hp) hb⟩⟩

/-- Two strings, each interned twice, and one without bytes, which lies where the next one starts. -/
def repeatedStrings : List (List UInt8) := [[0x48, 0x69], [], [0x21], [0x48, 0x69], [0x21]]

/-- A draft that interns these strings, and another one that starts like them. -/
def repeatedSteps : List Draft.Step :=
  (repeatedStrings ++ [[0x48, 0x69, 0x21]]).map .intern

/-- The strings have one place each, stand there in an instance, and a block of the heap is clear of them. -/
theorem repeatedStrings_placed : ∃ bytes m i i', (Draft.empty.after repeatedSteps).finish = .ok bytes ∧
    GuestModule.ofBytes "" bytes = .ok m ∧ Instance.ofModule m .default = .ok i ∧
    StaticData.empty.placed repeatedStrings = [([0x48, 0x69], ⟨16, 2⟩), ([], ⟨18, 0⟩), ([0x21], ⟨18, 1⟩),
      ([0x48, 0x69], ⟨16, 2⟩), ([0x21], ⟨18, 1⟩)] ∧
    (StaticData.empty.after (repeatedStrings ++ [[0x48, 0x69, 0x21]])).Shows ⟨16, 2⟩ [0x48, 0x69] ∧
    (∀ address, ¬ (Span.Has ⟨16, 2⟩ address ∧ Span.Has ⟨18, 1⟩ address)) ∧
    i.store.memory.Holds 16 [0x48, 0x69] ∧ Instance.History m .default i' [⟨heapStart.toUInt32, 5⟩] ∧
    ∀ address, ¬ (Span.Has ⟨16, 2⟩ address ∧ Block.Has ⟨heapStart.toUInt32, 5⟩ address) := by
  have hok : (Draft.empty.after repeatedSteps).finish.isOk = true := by
    set_option maxRecDepth 100000 in decide +kernel
  rcases hfinish : (Draft.empty.after repeatedSteps).finish with e | bytes
  · rw [hfinish] at hok
    cases hok
  · have hplaced : StaticData.empty.placed repeatedStrings = [([0x48, 0x69], ⟨16, 2⟩), ([], ⟨18, 0⟩),
        ([0x21], ⟨18, 1⟩), ([0x48, 0x69], ⟨16, 2⟩), ([0x21], ⟨18, 1⟩)] := by decide
    have hfirst : (([0x48, 0x69], ⟨16, 2⟩) : List UInt8 × Span) ∈ StaticData.empty.placed repeatedStrings := by
      rw [hplaced]
      decide
    have hother : (([0x21], ⟨18, 1⟩) : List UInt8 × Span) ∈ StaticData.empty.placed repeatedStrings := by
      rw [hplaced]
      decide
    obtain ⟨-, hshown, hapart, hdraft⟩ :=
      strings_keep_their_places repeatedStrings [[0x48, 0x69, 0x21]] (by decide)
    obtain ⟨m, i, hm, hi, hstands⟩ := hdraft repeatedSteps bytes "" .default rfl hfinish
    obtain ⟨hholds, hclear⟩ := hstands _ hfirst
    obtain ⟨_, hm', hd, -⟩ := Draft.loads_after hfinish ""
    obtain rfl := Except.ok.inj (hm.symm.trans hm')
    obtain ⟨i₀, memory, hi₀, hat, hmemory, -⟩ := hd.instantiates .default
    have halloc := Instance.call_alloc_at hd hat hmemory 5
    rw [if_pos (by decide)] at halloc
    obtain ⟨i', hcall, -⟩ := halloc
    have hlive : Instance.History m .default i' [⟨heapStart.toUInt32, 5⟩] :=
      .take (.fresh hi₀) hcall (by decide)
    have hdisjoint := hapart _ hfirst _ hother
    rw [if_neg (by decide)] at hdisjoint
    exact ⟨bytes, m, i, i', rfl, hm, hi, hplaced, hshown _ hfirst, hdisjoint, hholds, hlive,
      hclear i' _ hlive _ List.mem_cons_self⟩

end GuestCall
