import FormulaSheet.Proofs.Reachable

set_option autoImplicit false

namespace FormulaSheet

inductive Request where
  | parse
  | run
  | read (tokens : List Token) (defining : Bool)
  | limit (limits : Limits)

inductive Reply where
  | statements (statements : List Statement)
  | outputs (outputs : List Output)
  | done

namespace Sheet

def handle (sheet : Sheet) : Request → Sheet × Except Error Reply
  | .parse => (sheet.parse.1, sheet.parse.2.map .statements)
  | .run => (sheet.runAll.1, sheet.runAll.2.map .outputs)
  | .read tokens true =>
    ((sheet.readTokens tokens).1, (sheet.readTokens tokens).2.map .statements)
  | .read tokens false => (sheet, (sheet.readInner tokens).map .statements)
  | .limit limits => ({ sheet with limits }, .ok .done)

def after (sheet : Sheet) (requests : List Request) : Sheet :=
  requests.foldl (fun sheet request => (sheet.handle request).1) sheet

theorem handle_steps (sheet : Sheet) (request : Request) : Steps sheet (sheet.handle request).1 := by
  cases request with
  | parse => exact sheet.parse_steps
  | run => exact sheet.runAll_steps
  | read tokens defining =>
    cases defining with
    | true => exact sheet.readTokens_steps tokens
    | false => exact .refl
  | limit limits => exact .single (.limits sheet limits)

theorem after_steps (sheet : Sheet) (requests : List Request) :
    Steps sheet (sheet.after requests) := by
  induction requests generalizing sheet with
  | nil => exact .refl
  | cons request later ih => exact (sheet.handle_steps request).trans (ih _)

-- Either there is a sequence and the name is bound to it, or neither is the case.
def Keeps (sheet : Sheet) (name : String) : Prop :=
  sheet.sequence?.isSome ↔ sheet.symbols.function? name = some .sequence

def InStep (sheet : Sheet) : Prop :=
  ∀ name, name = "S" ∨ name = "s" → sheet.Keeps name

theorem inStep_ofSource (source : String) (limits : Limits) : (ofSource source limits).InStep := by
  intro name _
  constructor
  · intro present
    contradiction
  · intro found
    obtain ⟨b, -, same⟩ := SymbolTable.function?_withBuiltins found
    contradiction

section Steps

variable {sheet next : Sheet}

theorem InStep.bind (inStep : sheet.InStep) {bound : String} {f : Function}
    (free : ¬(sheet.sequence?.isSome ∧ (bound = "S" ∨ bound = "s"))) (other : f ≠ .sequence) :
    InStep { sheet with symbols := sheet.symbols.define bound f } := by
  intro name reserved
  unfold Keeps
  rw [SymbolTable.function?_define]
  split
  next same =>
    subst same
    have missing : ¬sheet.sequence?.isSome := fun present => free ⟨present, reserved⟩
    exact iff_of_false missing fun found => other (Option.some.inj found)
  · exact inStep name reserved

theorem InStep.define (inStep : sheet.InStep) {site : Site} {outline : Outline}
    {statements : List Statement} (entered : sheet.define site outline = .ok (next, statements)) :
    next.InStep := by
  cases define_iff.mp entered with
  | function free _ _ => exact inStep.bind free nofun
  | plot _ => exact inStep.bind (by simp) nofun
  | sequence _ =>
    intro name reserved
    unfold Keeps
    rw [SymbolTable.function?_define, SymbolTable.function?_define]
    rcases reserved with rfl | rfl <;> simp

theorem InStep.check (inStep : sheet.InStep) (statements : List Statement) :
    (sheet.check statements).1.InStep := by
  rcases sheet.check_eq statements with same | ⟨s, progression, present, same⟩
  · rw [same]
    exact inStep
  · rw [same]
    intro name reserved
    have kept := inStep name reserved
    rw [Keeps, present] at kept
    exact kept

theorem InStep.step (inStep : sheet.InStep) (step : Step sheet next) : next.InStep := by
  cases step with
  | define entered => exact inStep.define entered
  | check statements => exact inStep.check statements
  | limits limits => exact inStep

-- The sequence of a sheet as it was written; what its terms come to may not be known yet.
def Holds (sheet : Sheet) (s : Sequence) : Prop :=
  ∃ progression?, sheet.sequence? = some { s with progression? }

variable {s : Sequence}

theorem Holds.step (holds : sheet.Holds s) (step : Step sheet next) : next.Holds s := by
  obtain ⟨progression?, present⟩ := holds
  cases step with
  | define entered =>
    cases define_iff.mp entered with
    | function => exact ⟨progression?, present⟩
    | plot => exact ⟨progression?, present⟩
    | sequence free => simp [present] at free
  | check statements =>
    rcases sheet.check_eq statements with same | ⟨found, progression, known, same⟩
    · exact ⟨progression?, by rw [same, present]⟩
    · rw [present] at known
      cases known
      exact ⟨some progression, by rw [same]⟩
  | limits limits => exact ⟨progression?, present⟩

theorem Holds.steps (holds : sheet.Holds s) (steps : Steps sheet next) : next.Holds s :=
  steps_preserve (P := (Holds · s)) (fun _ _ holds step => holds.step step) holds steps

end Steps

theorem Reachable.inStep {sheet : Sheet} (reachable : sheet.Reachable) : sheet.InStep :=
  reachable.invariant inStep_ofSource fun _ _ inStep step => inStep.step step

theorem InStep.unnamed {sheet : Sheet} (inStep : sheet.InStep) (coherent : sheet.Coherent)
    (present : sheet.sequence?.isSome) {f : Function} (defined : f ∈ sheet.symbols.definitions)
    {definition : Definition} (own : f.definition? = some definition) :
    definition.name ≠ "S" ∧ definition.name ≠ "s" := by
  obtain ⟨name, -, found⟩ := SymbolTable.mem_definitions.mp defined
  have named : definition.name = name := by
    have admits := coherent name f found
    cases f <;> cases own <;> exact admits.1
  have apart (reserved : definition.name = "S" ∨ definition.name = "s") : False := by
    rw [named] at reserved
    have bound := (inStep name reserved).mp present
    rw [found] at bound
    cases bound
    contradiction
  exact ⟨fun same => apart (.inl same), fun same => apart (.inr same)⟩

/-- Between any two requests of a session, failed ones included: there is a sequence just when `S`
is bound to it, and just when `s` is; later requests keep it as it was written; and while it is
there, no definition goes by its names. -/
theorem sequence_in_step (source : String) (limits : Limits) (requests later : List Request) :
    let sheet := (ofSource source limits).after requests
    (sheet.sequence?.isSome ↔ sheet.symbols.function? "S" = some .sequence) ∧
      (sheet.sequence?.isSome ↔ sheet.symbols.function? "s" = some .sequence) ∧
      (∀ s, sheet.sequence? = some s →
        ∃ progression?, (sheet.after later).sequence? = some { s with progression? }) ∧
      (sheet.sequence?.isSome → ∀ f ∈ sheet.symbols.definitions, ∀ definition,
        f.definition? = some definition → definition.name ≠ "S" ∧ definition.name ≠ "s") := by
  intro sheet
  have reachable : sheet.Reachable :=
    (reachable_ofSource source limits).steps (after_steps _ requests)
  refine ⟨reachable.inStep "S" (.inl rfl), reachable.inStep "s" (.inr rfl), ?_, ?_⟩
  · intro s present
    have holds : sheet.Holds s := ⟨s.progression?, present⟩
    exact holds.steps (sheet.after_steps later)
  · intro present f defined definition own
    exact reachable.inStep.unnamed reachable.coherent present defined own

-- A function that takes the name is refused, in the run as in the request before it.
example :
    ((ofSource "S=2,6\ns(a)=a" {}).after [.parse, .run]).sequence?.map (·.first.text) =
      some "2" := by
  decide +kernel

end Sheet

end FormulaSheet
