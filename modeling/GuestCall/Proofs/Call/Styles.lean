/-
# Calls in either style

A call goes through the access style at four places: where the elements of an argument are written,
where an array is copied back, where a descriptor is read, and where the elements of a result are. At
each of them both styles do the same to the memory, so a call does the same to everything: its result,
the arguments of the caller, the ledger, and the instance.

Key definition: `Binding.session`, calls one after the other.
Key theorems: `Plan.call_style`, `Binding.session_style`, `styles_agree`.
-/
import GuestCall.Call.Binding
import GuestCall.Proofs.Memory.Styles

namespace GuestCall

/-- Calls one after the other: their results with the arguments as they are afterwards, and the binding
after all of them. -/
def Binding.session : List (String × List Argument) → Binding →
    List (Except BindError Value × List Argument) × Binding
  | [], d => ([], d)
  | (name, arguments) :: rest, d =>
    match d.call name arguments with
    | (result, arguments, d) =>
      match session rest d with
      | (answers, d) => ((result, arguments) :: answers, d)

variable (style : AccessStyle)

/-! ### Arguments -/

theorem passArray_style (items : ScalarArray) :
    passArray style items = passArray .littleEndian items := by
  unfold passArray
  simp only [Memory.writeScalars_style style]

/-- Only an array is passed through the style. -/
theorem passArgument_style (name : String) (param : ParamKind) (a : Argument) :
    passArgument style name param a = passArgument .littleEndian name param a := by
  unfold passArgument
  simp only [passArray_style style]

theorem passArguments_style (name : String) : ∀ pairs : List (ParamKind × Argument),
    passArguments style name pairs = passArguments .littleEndian name pairs
  | [] => rfl
  | (param, a) :: rest => by
    unfold passArguments
    rw [passArgument_style, passArguments_style name rest]

/-! ### Arrays that are copied back -/

theorem copyBack_style (h : Handle) (target : ScalarArray) (b : Books Instance) :
    copyBack style h target b = copyBack .littleEndian h target b := by
  unfold copyBack
  simp only [Memory.readElements_style style]

theorem copyBackAll_style (pairs : List (ParamKind × Passed)) (arguments : List Argument)
    (b : Books Instance) :
    copyBackAll style pairs arguments b = copyBackAll .littleEndian pairs arguments b := by
  fun_induction copyBackAll style pairs arguments b with
  | case1 b _ _ h rest items arguments e items' b' hcopy =>
    rw [copyBack_style] at hcopy
    rw [copyBackAll, hcopy]
  | case2 b _ _ h rest items arguments items' b' _ hcopy result arguments' b'' hrest ih =>
    rw [copyBack_style] at hcopy
    rw [copyBackAll, hcopy]
    dsimp only
    rw [← ih, hrest]
  | case3 b _ rest a arguments hother result arguments' b' hrest ih =>
    rw [copyBackAll, ← ih, hrest]
    exact hother
  | case4 => 
    rw [copyBackAll]
    all_goals assumption

/-! ### Results -/

theorem Descriptor.read_style (memory : Memory) (address : UInt32) :
    Descriptor.read style memory address = Descriptor.read .littleEndian memory address := by
  unfold Descriptor.read
  simp only [Memory.readElement_style style]

theorem adoptBuffer_style (name : String) (width : Nat) (raw : CoreValue) :
    adoptBuffer style name width raw = adoptBuffer .littleEndian name width raw := by
  unfold adoptBuffer
  simp only [Descriptor.read_style style]

/-- The bytes of a text are read without a style, but its descriptor is not. -/
theorem decodeResult_style (name : String) (ret : ReturnKind) (raw : List CoreValue) :
    decodeResult style name ret raw = decodeResult .littleEndian name ret raw := by
  unfold decodeResult takeElements takeText
  simp only [adoptBuffer_style style, Memory.readElements_style style]

/-! ### Calls -/

theorem Plan.finish_style (p : Plan) (passed : List Passed) (arguments : List Argument)
    (b : Books Instance) :
    p.finish style passed arguments b = p.finish .littleEndian passed arguments b := by
  unfold Plan.finish
  simp only [copyBackAll_style style, decodeResult_style style]

theorem Plan.perform_style (p : Plan) (arguments : List Argument) (b : Books Instance) :
    p.perform style arguments b = p.perform .littleEndian arguments b := by
  unfold Plan.perform
  simp only [passArguments_style style, finish_style style]

/-- **A call is the same in both styles.** -/
theorem Plan.call_style (p : Plan) (arguments : List Argument) (b : Books Instance) :
    p.call style arguments b = p.call .littleEndian arguments b := by
  unfold Plan.call
  rw [perform_style]

/-- **So is a run of calls**, from whatever state of the books, up to the style that the binding has. -/
theorem Binding.session_style (plans : List (String × Plan)) :
    ∀ (calls : List (String × List Argument)) (books : Books Instance),
    ∃ answers books', session calls ⟨style, plans, books⟩ = (answers, ⟨style, plans, books'⟩) ∧
      session calls ⟨.littleEndian, plans, books⟩ = (answers, ⟨.littleEndian, plans, books'⟩)
  | [], books => ⟨[], books, rfl, rfl⟩
  | (name, arguments) :: rest, books => by
    obtain ⟨result, arguments', books₁, hcall, hcall'⟩ : ∃ result arguments' books₁,
        call name arguments ⟨style, plans, books⟩ = (result, arguments', ⟨style, plans, books₁⟩) ∧
        call name arguments ⟨.littleEndian, plans, books⟩ =
          (result, arguments', ⟨.littleEndian, plans, books₁⟩) := by
      unfold call
      dsimp only
      cases plans.find? fun p => p.1 == name with
      | none => exact ⟨_, _, _, rfl, rfl⟩
      | some found =>
        refine ⟨_, _, (found.2.call .littleEndian arguments books).2.2, ?_, rfl⟩
        dsimp only
        rw [Plan.call_style style]
    obtain ⟨answers, books', hrest, hrest'⟩ := session_style plans rest books₁
    refine ⟨(result, arguments') :: answers, books', ?_, ?_⟩
    · unfold session
      rw [hcall]
      dsimp only
      rw [hrest]
    · unfold session
      rw [hcall']
      dsimp only
      rw [hrest']

/-- Calls of an instance, in whatever state it is, that is bound in some configuration: their answers,
and the books after them, if it can be bound. -/
def Instance.serve (i : Instance) (c : Config) (calls : List (String × List Argument)) :
    Except BindError (List (Except BindError Value × List Argument) × Books Instance) :=
  match Binding.ofInstance i c with
  | .error e => .error e
  | .ok d =>
    match d.session calls with
    | (answers, d) => .ok (answers, d.books)

/-- **The two styles cannot be told apart**, neither by accesses to a memory nor by calls. -/
theorem styles_agree :
    (∀ (limit : UInt32) (ops : List MemoryOp) (m : Memory),
      m.session .native limit ops = m.session .littleEndian limit ops) ∧
    (∀ (m : GuestModule) (c : Config), Instance.ofModule m { c with accessStyle := .native } =
      Instance.ofModule m { c with accessStyle := .littleEndian }) ∧
    ∀ (i : Instance) (c : Config) (calls : List (String × List Argument)),
      i.serve { c with accessStyle := .native } calls =
        i.serve { c with accessStyle := .littleEndian } calls := by
  refine ⟨Memory.session_style .native, fun _ _ => rfl, fun i c calls => ?_⟩
  unfold Instance.serve Binding.ofInstance
  dsimp only
  rcases Plan.ofModule i.module c.exportMark with e | plans
  · rfl
  · obtain ⟨answers, books, hnative, hlittle⟩ :=
      Binding.session_style .native plans calls ⟨.empty, i⟩
    dsimp only
    rw [hnative, hlittle]

end GuestCall
