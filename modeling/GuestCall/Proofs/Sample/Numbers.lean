/-
# Fibonacci numbers across the boundary

A host that asks for Fibonacci numbers gets the true ones, as far as they fit. A single number takes no
memory, so it is answered whatever state the guest is in. The text of a number is its decimal text, of as
many bytes as it has digits, and nothing but those bytes and their descriptor is written. A list takes eight
bytes for each number and sixteen for its descriptor, and is answered just if there is room for that.

Key definition: `IsCanonical`, the decimal text of a number.
Key theorems: `numbers_are_answered`, `digits_are_answered`.
-/
import GuestCall.Proofs.Sample.Runs

namespace GuestCall.Sample

open Wasm

/-! ### Decimal texts -/

/-- The decimal text of a number: only digits, and no zero in front of others. -/
structure IsCanonical (text : String) (n : Nat) : Prop where
  nonempty : text ≠ ""
  digits : ∀ c ∈ text.toList, c.isDigit = true
  unpadded : text.toList.head? = some '0' → text = "0"
  value : Nat.ofDigitChars 10 text.toList 0 = n

theorem isCanonical_toString (n : Nat) : IsCanonical (toString n) n := by
  have hchars : (toString n).toList = Nat.toDigits 10 n := Nat.toList_repr
  refine ⟨fun hempty => ?_, fun c hc => ?_, fun hzero => ?_, ?_⟩
  · rw [hempty] at hchars
    exact Nat.toDigits_ne_nil hchars.symm
  · rw [hchars] at hc
    exact Nat.isDigit_of_mem_toDigits (by decide) (by decide) hc
  · rcases Nat.eq_zero_or_pos n with rfl | hn
    · rfl
    · obtain ⟨c, cs, hcs, hne⟩ := Json.toDigits_first hn
      rw [hchars, hcs] at hzero
      exact absurd (Option.some.inj hzero) hne
  · rw [hchars]
    exact Nat.ofDigitChars_toDigits (by decide) (by decide)

/-- The decoder takes the decimal text of a number. -/
theorem IsCanonical.isDecimal {text : String} {n : Nat} (h : IsCanonical text n) : IsDecimal text.toList := by
  refine ⟨[], text.toList, rfl, .inl rfl, fun hnil => h.nonempty ?_, fun c hc => ?_⟩
  · exact String.toList_inj.mp (hnil.trans String.toList_empty.symm)
  · exact (isDigit_iff c).mp (h.digits c hc)

/-! ### Exports of a word -/

variable {m : GuestModule} {d : Binding} {e : Signature × Body} {count? : Option (List Argument → Nat)}
  {draft : Draft} {p : Plan} {i : Nat} {v : Value} {n : UInt32}

theorem firstNumber_word (hv : Scalar.ofValue? .u32 v = some (.u32 n)) :
    firstNumber [.byValue v] = n.toNat := by
  unfold firstNumber
  simp only [hv]

/-- A word passes the check of an export that takes one, and takes no memory. -/
theorem Offered.check_word (h : Offered m d e count? draft p i) (hstandard : e.1.isLegacy = false)
    (hparams : e.1.params = [.scalar .u32]) (hv : Scalar.ofValue? .u32 v = some (.u32 n)) :
    p.check [.byValue v] = .ok () ∧ p.extent [.byValue v] = 0 ∧
      ∀ top, p.raw top [.byValue v] = [.i32 (.ofNat n.toNat)] := by
  have hσ := h.signature
  have hcheck : p.check [.byValue v] = .ok () :=
    Plan.check_of_one (by rw [hσ, hstandard]) (by rw [hσ, hparams]) (by rw [Argument.mismatch?, hv])
  obtain ⟨-, hextent, hraw⟩ := check_number (by rw [hσ, hparams]) hcheck
  rw [firstNumber_word hv] at hraw
  exact ⟨hcheck, hextent, hraw⟩

/-- **An export of a word that returns a buffer** answers what the bytes of the buffer stand for, if there is
room for them and their descriptor behind an empty heap, and otherwise it runs out of memory. -/
theorem Offered.call_word {count : List Argument → Nat} (h : Offered m d e (some count) draft p i)
    (hstandard : e.1.isLegacy = false) (hparams : e.1.params = [.scalar .u32])
    (hv : Scalar.ofValue? .u32 v = some (.u32 n)) {live : UInt32}
    (hrest : d.books.AtRest m heapStart.toUInt32 live) {bytes : List UInt8} {answer : Value}
    (hdenotes : Denotes (count [.byValue v]) bytes e.1.ret answer)
    (hpresents : ∀ memory live', Memory.IsGuest memory → heapStart ≤ memory.size →
      Presents memory heapStart live' (count [.byValue v]) e.1.ret.elementWidth bytes
        (m.program.invoke depthLimit i [.i32 (.ofNat n.toNat)] (guestStore memory (.ofNat heapStart) live'))) :
    (heapStart + blockSize bytes.length + 16 ≤ heapCapacity → ∃ d',
      d.call e.1.name [.byValue v] = (.ok answer, [.byValue v], d') ∧ d'.books.guest.store.memory =
        d.books.guest.store.memory.presented heapStart bytes (count [.byValue v])) ∧
    (heapCapacity < heapStart + blockSize bytes.length + 16 → ∃ result d',
      d.call e.1.name [.byValue v] = (result, [.byValue v], d') ∧ OutOfMemory result) := by
  have hσ := h.signature
  obtain ⟨hcheck, hextent, hraw⟩ := h.check_word hstandard hparams hv
  have hinside : heapStart ≤ d.books.guest.store.memory.size := hrest.inside
  have hlength : bytes.length = count [.byValue v] * e.1.ret.elementWidth :=
    (hpresents _ live hrest.memory hinside).length
  have hsupplied : p.supplied [.byValue v] heapStart d.books.guest.store.memory =
      d.books.guest.store.memory := by
    obtain ⟨hextent, hpayload⟩ := extent_scalar hv
    rw [Plan.supplied, hσ, hparams, List.zip_cons_cons, List.zip_nil_left, Memory.filled, Memory.filled,
      hextent, hpayload, Memory.write_nil]
    exact Memory.reach_of_le hinside
  have hcalled := h.call_presents hrest hcheck hextent hdenotes (fun memory live' _ hguest hroom => by
    rw [hraw]
    exact hpresents memory live' hguest hroom) (Plan.answer_of_not_legacy (by rw [hσ, hstandard]) _)
  rw [hsupplied, ← hlength, Nat.add_zero] at hcalled
  exact ⟨hcalled.1, hcalled.2.1⟩

namespace Fibonacci

/-! ### Signed numbers -/

/-- What stands for a number in a list is the number. -/
theorem toInt_number (i : Nat) :
    (Int64.ofNat (Ceiling.signed.number i)).toInt = (min (Nat.fib i) (2 ^ 63 - 1) : Nat) := by
  have hlt : Ceiling.signed.number i < 2 ^ 63 :=
    Nat.lt_of_le_of_lt (Ceiling.number_le .signed i) (by decide)
  rw [Int64.toInt_ofNat_of_lt hlt]
  rfl

/-- A single number is answered whatever is in the guest. -/
theorem call_fib (h : Sample.fibonacci.Bound m d) (hserves : d.Serves m)
    (hv : Scalar.ofValue? .u32 v = some (.u32 n)) : ∃ d', d.call "fib" [.byValue v] =
      (.ok (.i64 (.ofNat (Ceiling.signed.number n.toNat))), [.byValue v], d') := by
  obtain ⟨draft, p, i, ho⟩ := h.offers (e := exports[0]) (List.getElem_mem _) rfl
  obtain ⟨hcheck, -, hraw⟩ := ho.check_word rfl rfl hv
  have hinvoke := invoke_fib ho.loads ho.code rfl n.toNat_lt d.books.guest.store 999
  obtain ⟨b', hcall⟩ := Plan.call_scalars hserves.fit.resting hserves.fit.module d.style ho.found rfl
    hcheck (fun param hparam => by
      rw [ho.signature] at hparam
      exact ⟨_, List.mem_singleton.mp hparam⟩) (congrArg Signature.ret ho.signature)
    (by rw [hraw]; exact hinvoke) rfl rfl
  exact ⟨_, ho.call_eq hcall⟩

/-- A list of numbers is answered if there is room for it behind an empty heap. -/
theorem call_all (h : Sample.fibonacci.Bound m d) {live : UInt32}
    (hrest : d.books.AtRest m heapStart.toUInt32 live) (hv : Scalar.ofValue? .u32 v = some (.u32 n)) :
    (heapStart + 8 * n.toNat + 16 ≤ heapCapacity → ∃ d', d.call "all" [.byValue v] =
      (.ok (.array (.ofElements .i64 (numbers n.toNat))), [.byValue v], d')) ∧
    (heapCapacity < heapStart + 8 * n.toNat + 16 → ∃ result d',
      d.call "all" [.byValue v] = (result, [.byValue v], d') ∧ OutOfMemory result) := by
  have hname : fibonacci.count? exports[2].1.name = some firstNumber := rfl
  obtain ⟨draft, p, i, ho⟩ := h.offers (List.getElem_mem _) hname
  have hcount : firstNumber [.byValue v] = n.toNat := firstNumber_word hv
  have hblock : blockSize (numberBytes n.toNat).length = 8 * n.toNat := by
    rw [length_numberBytes, blockSize]
    omega
  have hdenotes : Denotes (firstNumber [.byValue v]) (numberBytes n.toNat) (.vec .i64)
      (.array (.ofElements .i64 (numbers n.toNat))) :=
    @Denotes.vec _ _ .i64 (numbers n.toNat) ((length_numbers _).trans hcount.symm) rfl
  have hcalled := ho.call_word rfl rfl hv hrest hdenotes fun memory live' hguest hinside => by
    rw [hcount]
    exact all_presents ho.loads ho.code rfl hguest (Nat.le_refl _) hinside 997 n.toNat_lt
  rw [hblock] at hcalled
  refine ⟨fun hroom => ?_, hcalled.2⟩
  obtain ⟨d', hcall, -⟩ := hcalled.1 hroom
  exact ⟨d', hcall⟩

/-- **Numbers and lists of numbers are answered.** A number is answered by any guest in service, and it is
the true one as far as it fits. On an empty heap a list is answered just if there is room for its numbers and
the descriptor, and it has the first number and all that follow it. -/
theorem numbers_are_answered (h : Sample.fibonacci.Bound m d) (hserves : d.Serves m)
    (hv : Scalar.ofValue? .u32 v = some (.u32 n)) :
    (∃ x d', d.call "fib" [.byValue v] = (.ok (.i64 x), [.byValue v], d') ∧
      x.toInt = (min (Nat.fib n.toNat) (2 ^ 63 - 1) : Nat)) ∧
    ∀ live, d.books.AtRest m heapStart.toUInt32 live →
      (heapStart + 8 * n.toNat + 16 ≤ heapCapacity → ∃ (items : List Int64) (d' : Binding),
        d.call "all" [.byValue v] = (.ok (.array (.ofElements .i64 items)), [.byValue v], d') ∧
        items.length = n.toNat ∧ ∀ (i : Nat) (x : Int64), items[i]? = some x →
          x.toInt = (min (Nat.fib (i + 1)) (2 ^ 63 - 1) : Nat)) ∧
      (heapCapacity < heapStart + 8 * n.toNat + 16 → ∃ result d',
        d.call "all" [.byValue v] = (result, [.byValue v], d') ∧ OutOfMemory result) := by
  refine ⟨?_, fun live hrest => ?_⟩
  · obtain ⟨d', hcall⟩ := call_fib h hserves hv
    exact ⟨_, d', hcall, toInt_number _⟩
  · obtain ⟨hserved, hfull⟩ := call_all h hrest hv
    refine ⟨fun hroom => ?_, hfull⟩
    obtain ⟨d', hcall⟩ := hserved hroom
    refine ⟨numbers n.toNat, d', hcall, length_numbers _, fun i x hx => ?_⟩
    rw [number_of_getElem? hx, toInt_number]

/-- The number of index 93 is the first one that does not fit. The list up to it fits into the memory, and
one of 2097152 numbers does not. -/
theorem numbers_up_to_ninety_three : ∃ (m : GuestModule) (d : Binding), Sample.fibonacci.Bound m d ∧
    d.Serves m ∧ d.books.AtRest m heapStart.toUInt32 0 ∧
    (∃ x d', d.call "fib" [.byValue (.i32 93)] = (.ok (.i64 x), [.byValue (.i32 93)], d') ∧
      x.toInt = 9223372036854775807) ∧
    (∃ (items : List Int64) (d' : Binding), d.call "all" [.byValue (.i32 93)] =
      (.ok (.array (.ofElements .i64 items)), [.byValue (.i32 93)], d') ∧ items.length = 93) ∧
    ∃ result d', d.call "all" [.byValue (.i32 2097152)] =
      (result, [.byValue (.i32 2097152)], d') ∧ OutOfMemory result := by
  obtain ⟨m, d, h, hserves, hrest⟩ :=
    exists_at_rest (s := .fibonacci) nofun (e := exports[0]) (List.getElem_mem _)
  have hword : Scalar.ofValue? .u32 (.i32 93) = some (.u32 93) := by decide
  obtain ⟨⟨x, d₁, hcall, hx⟩, hlist⟩ := numbers_are_answered h hserves hword
  obtain ⟨items, d₂, hitems, hlength, -⟩ := (hlist 0 hrest).1 (by decide)
  have hlarge : Scalar.ofValue? .u32 (.i32 2097152) = some (.u32 2097152) := by decide
  refine ⟨m, d, h, hserves, hrest, ⟨x, d₁, hcall, hx.trans ?_⟩, ⟨items, d₂, hitems, hlength⟩,
    ((numbers_are_answered h hserves hlarge).2 0 hrest).2 (by decide)⟩
  decide +kernel

/-! ### Unsigned numbers as texts -/

/-- A text is answered on an empty heap, since there is always room for the digits. -/
theorem call_fibText (h : Sample.fibonacci.Bound m d) {live : UInt32}
    (hrest : d.books.AtRest m heapStart.toUInt32 live) (hv : Scalar.ofValue? .u32 v = some (.u32 n)) {x : Nat}
    (hx : Ceiling.unsigned.number n.toNat = x) :
    heapStart + blockSize (Json.digits x).length + 16 ≤ heapCapacity ∧ ∃ d',
      d.call "fib_str" [.byValue v] = (.ok (.bigDecimal (toString x)), [.byValue v], d') ∧
      d'.books.guest.store.memory =
        d.books.guest.store.memory.presented heapStart (Json.digits x) (digitCount x) := by
  let count : List Argument → Nat := fun arguments =>
    digitCount (Ceiling.unsigned.number (firstNumber arguments))
  have hname : fibonacci.count? exports[1].1.name = some count := rfl
  obtain ⟨draft, p, i, ho⟩ := h.offers (List.getElem_mem _) hname
  have hcount : count [.byValue v] = digitCount x := by
    rw [← hx, ← firstNumber_word hv]
  have hroom : heapStart + blockSize (Json.digits x).length + 16 ≤ heapCapacity := by
    have hlt : x < 2 ^ 64 := hx ▸ Nat.lt_of_le_of_lt (Ceiling.number_le .unsigned _) (by decide)
    have hdigits := digitCount_le hlt
    rw [length_digits]
    unfold blockSize heapStart heapCapacity pageSize
    omega
  have hdenotes : Denotes (count [.byValue v]) (Json.digits x) .bigDecimal (.bigDecimal (toString x)) :=
    .bigDecimal (toString x) (by rw [length_digits, hcount]) (Json.toUTF8_toString x)
      (isCanonical_toString x).isDecimal
  have hcalled := ho.call_word rfl rfl hv hrest hdenotes fun memory live' hguest hinside => by
    rw [hcount, ← hx]
    exact fibText_presents ho.loads ho.code rfl hguest (Nat.le_refl _) hinside 997 n.toNat_lt
  rw [hcount] at hcalled
  exact ⟨hroom, hcalled.1 hroom⟩

/-- **The text of a number is answered**, on an empty heap: it is the decimal text of the true number as far
as that fits. The digits stand behind the end of the heap, and but for them and their descriptor no byte of
the memory is another one than before. -/
theorem digits_are_answered (h : Sample.fibonacci.Bound m d) {live : UInt32}
    (hrest : d.books.AtRest m heapStart.toUInt32 live) (hv : Scalar.ofValue? .u32 v = some (.u32 n)) :
    ∃ text d', d.call "fib_str" [.byValue v] = (.ok (.bigDecimal text), [.byValue v], d') ∧
      text = toString (min (Nat.fib n.toNat) (2 ^ 64 - 1)) ∧
      IsCanonical text (min (Nat.fib n.toNat) (2 ^ 64 - 1)) ∧
      d'.books.guest.store.memory.Holds heapStart text.toUTF8.data.toList ∧
      ∀ i, (i < heapStart ∨ heapStart + text.toUTF8.size ≤ i) →
        (i < heapStart + blockSize text.toUTF8.size ∨ heapStart + blockSize text.toUTF8.size + 12 ≤ i) →
        d'.books.guest.store.memory.byteAt i = d.books.guest.store.memory.byteAt i := by
  obtain ⟨x, hx⟩ : ∃ x, Ceiling.unsigned.number n.toNat = x := ⟨_, rfl⟩
  have hnumber : min (Nat.fib n.toNat) (2 ^ 64 - 1) = x := hx
  have hbytes : (toString x).toUTF8.data.toList = Json.digits x := Json.toUTF8_toString x
  have hsize : (toString x).toUTF8.size = (Json.digits x).length := congrArg List.length hbytes
  obtain ⟨hroom, d', hcall, hmemory⟩ := call_fibText h hrest hv hx
  rw [hnumber]
  refine ⟨toString x, d', hcall, rfl, isCanonical_toString x, ?_, fun i hdata hdescriptor => ?_⟩
  · rw [hmemory, hbytes]
    exact Memory.holds_presented hrest.memory hroom
  · rw [hsize] at hdata hdescriptor
    rw [hmemory]
    exact Memory.byteAt_presented hrest.memory hroom hdata hdescriptor

/-- The number of index 93 has twenty digits. -/
theorem ninety_third_number_is_spelled : ∃ (m : GuestModule) (d d' : Binding), Sample.fibonacci.Bound m d ∧
    d.books.AtRest m heapStart.toUInt32 0 ∧ d.call "fib_str" [.byValue (.i32 93)] =
      (.ok (.bigDecimal "12200160415121876738"), [.byValue (.i32 93)], d') ∧
    IsCanonical "12200160415121876738" 12200160415121876738 := by
  obtain ⟨m, d, h, -, hrest⟩ :=
    exists_at_rest (s := .fibonacci) nofun (e := exports[1]) (List.getElem_mem _)
  have hword : Scalar.ofValue? .u32 (.i32 93) = some (.u32 93) := by decide
  have hnumber : min (Nat.fib (93 : UInt32).toNat) (2 ^ 64 - 1) = 12200160415121876738 := by decide +kernel
  obtain ⟨text, d', hcall, htext, hcanonical, -⟩ := digits_are_answered h hrest hword
  rw [hnumber] at htext hcanonical
  obtain rfl : text = "12200160415121876738" := htext
  exact ⟨m, d, d', h, hrest, hcall, hcanonical⟩

end Fibonacci

end GuestCall.Sample
