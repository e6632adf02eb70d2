import FormulaSheet.Proofs.Division
import FormulaSheet.Proofs.Finite.Running

set_option autoImplicit false

namespace FormulaSheet

def Output.plot? : Output → Option Plot
  | .number _ => none
  | .plot drawn => some drawn

theorem PlotRange.pairwise_toList (range : PlotRange) : range.toList.Pairwise (· < ·) := by
  rw [toList, List.pairwise_map]
  exact List.pairwise_lt_range.imp fun less => by omega

def PlotRange.Contains (range : PlotRange) (x : Int) : Prop :=
  range.first ≤ x ∧ x ≤ range.last

namespace Sheet

/-- The points of a plotted formula over a range: one for each of its whole numbers, in ascending
order, with the value that the formula has there, or a gap where evaluating it divides by zero. -/
structure Charts (sheet : Sheet) (range : PlotRange) (body : Formula) (points : Points) :
    Prop where
  ascending : (points.map Prod.fst).Pairwise (· < ·)
  places : ∀ x, x ∈ points.map Prod.fst ↔ range.Contains x
  value : ∀ x y, (x, some y) ∈ points ↔
    range.Contains x ∧ sheet.evaluate (.bind ["x"] [Float.ofInt x]) body = .ok y
  gap : ∀ x, (x, none) ∈ points ↔
    range.Contains x ∧ DividesByZero (sheet.evaluate (.bind ["x"] [Float.ofInt x]) body)

/-- The first place of the range at which a formula has an error that leaves no gap. -/
structure FailsFirst (sheet : Sheet) (range : PlotRange) (body : Formula) (x : Int) (e : Error) :
    Prop where
  contains : range.Contains x
  fails : sheet.evaluate (.bind ["x"] [Float.ofInt x]) body = .error e
  ungapped : e.isDivisionByZero = false
  before : ∀ z, range.Contains z → z < x → ∀ other,
    sheet.evaluate (.bind ["x"] [Float.ofInt z]) body = .error other → other.isDivisionByZero

inductive Pictures (sheet : Sheet) (range : PlotRange) : Statement → Output → Prop
  | number {formula : Formula} {value : Float} :
      sheet.evaluate .empty formula = .ok value →
        Pictures sheet range (.formula formula) (.number value)
  | plot {definition : Definition} {drawn : Plot} :
      sheet.Charts range definition.body drawn.points →
        Pictures sheet range (.plot definition) (.plot drawn)

variable {sheet : Sheet} {definition : Definition} {points : Points} {e : Error}

section Samples

theorem sample_x (drawn : definition.parameters = ["x"]) (x : Int) :
    sample sheet sheet.run definition x =
      match sheet.evaluate (.bind ["x"] [Float.ofInt x]) definition.body with
      | .ok y => .ok (x, some y)
      | .error e => if e.isDivisionByZero then .ok (x, none) else .error e := by
  unfold sample
  rw [drawn]
  rfl

theorem sample_eq_ok (drawn : definition.parameters = ["x"]) {x : Int}
    {point : Int × Option Float} : sample sheet sheet.run definition x = .ok point ↔
      (∃ y, sheet.evaluate (.bind ["x"] [Float.ofInt x]) definition.body = .ok y ∧
        (x, some y) = point) ∨
      (DividesByZero (sheet.evaluate (.bind ["x"] [Float.ofInt x]) definition.body) ∧
        (x, none) = point) := by
  rw [sample_x drawn]
  cases sheet.evaluate (.bind ["x"] [Float.ofInt x]) definition.body with
  | ok y => simp [DividesByZero]
  | error e => by_cases division : e.isDivisionByZero <;> simp [DividesByZero, division]

theorem sample_eq_error (drawn : definition.parameters = ["x"]) {x : Int} :
    sample sheet sheet.run definition x = .error e ↔
      sheet.evaluate (.bind ["x"] [Float.ofInt x]) definition.body = .error e ∧
        e.isDivisionByZero = false := by
  rw [sample_x drawn]
  cases sheet.evaluate (.bind ["x"] [Float.ofInt x]) definition.body with
  | ok y => simp
  | error other =>
    by_cases division : other.isDivisionByZero
    · simp only [division, if_true, reduceCtorEq, false_iff, not_and]
      rintro ⟨⟩
      simp [division]
    · simp only [division, Bool.false_eq_true, if_false]
      constructor
      · rintro ⟨⟩
        exact ⟨rfl, by simpa using division⟩
      · rintro ⟨⟨⟩, -⟩
        rfl

theorem sample_place (drawn : definition.parameters = ["x"]) {x : Int}
    {point : Int × Option Float} (h : sample sheet sheet.run definition x = .ok point) :
    x = point.1 := by
  rcases (sample_eq_ok drawn).mp h with ⟨y, -, rfl⟩ | ⟨-, rfl⟩ <;> rfl

theorem charts_of_samples (drawn : definition.parameters = ["x"])
    (h : samples sheet sheet.run definition = .ok points) :
    sheet.Charts sheet.limits.plotRange definition.body points := by
  have each := Outcome.mapM_eq_ok.mp h
  have places : sheet.limits.plotRange.toList = points.map Prod.fst := by
    rw [← List.forall₂_eq_eq_eq, List.forall₂_map_right_iff]
    exact each.imp fun _ _ => sample_place drawn
  have listed (x : Int) (y : Option Float) : (x, y) ∈ points ↔
      sheet.limits.plotRange.Contains x ∧ sample sheet sheet.run definition x = .ok (x, y) := by
    rw [PlotRange.Contains, ← PlotRange.mem_toList]
    constructor
    · intro member
      obtain ⟨z, within, found⟩ := exists_of_forall₂ each member
      cases sample_place drawn found
      exact ⟨within, found⟩
    · rintro ⟨within, found⟩
      obtain ⟨point, member, same⟩ := exists_of_forall₂ each.flip within
      cases found.symm.trans same
      exact member
  constructor
  · rw [← places]
    exact sheet.limits.plotRange.pairwise_toList
  · intro x
    rw [← places, PlotRange.mem_toList]
    rfl
  · intro x y
    rw [listed, sample_eq_ok drawn]
    simp
  · intro x
    rw [listed, sample_eq_ok drawn]
    simp

theorem FailsFirst.unique {range : PlotRange} {body : Formula} {x z : Int} {other : Error}
    (h : sheet.FailsFirst range body x e) (again : sheet.FailsFirst range body z other) :
    e = other := by
  have no_earlier {x z : Int} {e other : Error} (h : sheet.FailsFirst range body x e)
      (again : sheet.FailsFirst range body z other) : ¬z < x := by
    intro less
    have gap := h.before z again.contains less other again.fails
    rw [again.ungapped] at gap
    contradiction
  have place : x = z := by
    have left := no_earlier h again
    have right := no_earlier again h
    omega
  subst place
  exact Except.error.inj (h.fails.symm.trans again.fails)

theorem failsFirst_of_samples (drawn : definition.parameters = ["x"])
    (h : samples sheet sheet.run definition = .error e) :
    ∃ x, sheet.FailsFirst sheet.limits.plotRange definition.body x e := by
  obtain ⟨earlier, x, later, points, range, passed, failed⟩ := Outcome.mapM_eq_error h
  obtain ⟨fails, ungapped⟩ := (sample_eq_error drawn).mp failed
  have ordered := sheet.limits.plotRange.pairwise_toList
  have contains (z : Int) : sheet.limits.plotRange.Contains z ↔ z ∈ earlier ++ x :: later := by
    rw [← range, PlotRange.mem_toList]
    rfl
  rw [range, List.pairwise_append, List.pairwise_cons] at ordered
  refine ⟨x, (contains x).mpr (by simp), fails, ungapped, fun z within less other found => ?_⟩
  have member : z ∈ earlier := by
    rcases List.mem_append.mp ((contains z).mp within) with member | member
    · exact member
    rcases List.mem_cons.mp member with rfl | member
    · omega
    · have := ordered.2.1.1 z member
      omega
  obtain ⟨point, sampled⟩ := Outcome.mapM_mem_ok passed member
  rcases (sample_eq_ok drawn).mp sampled with ⟨y, value, -⟩ | ⟨⟨gap, zero, division⟩, -⟩
  · rw [found] at value
    contradiction
  · rw [found] at zero
    cases zero
    exact division

theorem samples_eq_error (drawn : definition.parameters = ["x"]) :
    samples sheet sheet.run definition = .error e ↔
      ∃ x, sheet.FailsFirst sheet.limits.plotRange definition.body x e := by
  refine ⟨failsFirst_of_samples drawn, ?_⟩
  rintro ⟨x, first⟩
  cases sampled : samples sheet sheet.run definition with
  | ok points =>
    have within : x ∈ sheet.limits.plotRange.toList := (PlotRange.mem_toList _ x).mpr first.contains
    obtain ⟨point, found⟩ := Outcome.mapM_mem_ok sampled within
    rw [(sample_eq_error drawn).mpr ⟨first.fails, first.ungapped⟩] at found
    contradiction
  | error other =>
    obtain ⟨z, again⟩ := failsFirst_of_samples drawn sampled
    rw [first.unique again]

end Samples

section Statements

variable {next : Sheet} {statements : List Statement} {outputs : List Output} {plots : Nat}

def Drawable (statements : List Statement) : Prop :=
  ∀ definition, Statement.plot definition ∈ statements → definition.parameters = ["x"]

theorem output_pictures {statement : Statement} {output : Output} {number : Nat}
    (drawable : Drawable [statement]) (h : sheet.output number statement = .ok output) :
    sheet.Pictures sheet.limits.plotRange statement output ∧
      ∀ drawn, output.plot? = some drawn → drawn.number = number := by
  cases statement with
  | formula formula =>
    obtain ⟨value, found, rfl⟩ := Outcome.map_eq_ok.mp h
    exact ⟨.number found, nofun⟩
  | plot definition =>
    obtain ⟨points, found, rfl⟩ := Outcome.map_eq_ok.mp h
    refine ⟨.plot (charts_of_samples (drawable definition List.mem_cons_self) found), ?_⟩
    rintro _ ⟨⟩
    rfl

theorem outputs_pictures (drawable : Drawable statements)
    (h : sheet.outputs plots statements = .ok outputs) :
    List.Forall₂ (sheet.Pictures sheet.limits.plotRange) statements outputs ∧
      ∀ k drawn, (outputs.filterMap Output.plot?)[k]? = some drawn →
        drawn.number = plots + k + 1 := by
  induction statements generalizing plots outputs with
  | nil =>
    cases h
    exact ⟨.nil, by simp⟩
  | cons statement rest ih =>
    obtain ⟨output, done, h⟩ := Outcome.bind_eq_ok.mp h
    obtain ⟨others, later, h⟩ := Outcome.bind_eq_ok.mp h
    cases h
    have first : Drawable [statement] := fun definition member =>
      drawable definition (List.mem_cons.mpr (.inl (List.mem_singleton.mp member)))
    have after : Drawable rest := fun definition member =>
      drawable definition (List.mem_cons_of_mem _ member)
    obtain ⟨pictured, number⟩ := output_pictures first done
    obtain ⟨pictures, numbers⟩ := ih after later
    refine ⟨.cons pictured pictures, fun k drawn found => ?_⟩
    cases pictured with
    | number => exact numbers k drawn found
    | plot =>
      cases k with
      | zero =>
        cases found
        exact number _ rfl
      | succ k =>
        have counted : drawn.number = plots + 1 + k + 1 := numbers k drawn found
        omega

theorem drawable_of_parse (parsed : sheet.parse = (next, .ok statements)) :
    Drawable statements := by
  intro definition member
  obtain ⟨entered, raw, passed⟩ := parse_eq_ok parsed
  obtain ⟨tokens, -, defined⟩ := passed.defined
  cases finishStatements_mem passed.finished member with
  | plot present =>
    cases rawStatements_raw defined _ present with
    | plot => rfl

theorem parse_kept (parsed : sheet.parse = (next, .ok statements)) :
    next.limits = sheet.limits := by
  obtain ⟨entered, raw, passed⟩ := parse_eq_ok parsed
  obtain ⟨tokens, -, defined⟩ := passed.defined
  have kept := sheet.rawStatements_kept tokens
  rw [defined] at kept
  exact (checkSequence_kept passed.sequence).trans kept

end Statements

/-- A run that succeeds hands back what each of its statements pictures, in order, and its plots are
numbered from one. The points of a plot stand at every whole number of the range and nowhere else,
each with the value of the plotted formula there, or with a gap where evaluating it comes to a
division by zero: by an operator, a builtin or the sequence, in whatever it calls. With any other
error at a sample a plot ends, with that of the first sample that has one. -/
theorem runAll_pictures (source : String) (limits : Limits) :
    (∀ outputs, (ofSource source limits).runAll.2 = .ok outputs →
      ∃ next statements, (ofSource source limits).parse = (next, .ok statements) ∧
        List.Forall₂ (next.Pictures limits.plotRange) statements outputs ∧
        ∀ k drawn, (outputs.filterMap Output.plot?)[k]? = some drawn → drawn.number = k + 1) ∧
    ∀ next statements, (ofSource source limits).parse = (next, .ok statements) →
      (∀ scope formula, DividesByZero (next.evaluate scope formula) ↔
        next.Divides next.callDepth scope formula) ∧
      ∀ definition, .plot definition ∈ statements → ∀ number e,
        next.output number (.plot definition) = .error e ↔
          ∃ x, next.FailsFirst limits.plotRange definition.body x e := by
  constructor
  · intro outputs ran
    obtain ⟨next, statements, parsed, put⟩ := runAll_eq_ok.mp ran
    have range : next.limits = limits := parse_kept parsed
    obtain ⟨pictures, numbers⟩ := outputs_pictures (drawable_of_parse parsed) put
    rw [range] at pictures
    refine ⟨next, statements, parsed, pictures, fun k drawn found => ?_⟩
    simpa using numbers k drawn found
  · intro next statements parsed
    have range : next.limits = limits := parse_kept parsed
    refine ⟨fun scope formula => divides_iff.symm, fun definition member number e => ?_⟩
    rw [← range]
    exact Outcome.map_eq_error.trans (samples_eq_error (drawable_of_parse parsed definition member))

theorem runAll_pictures_reciprocals :
    (∃ outputs, (ofSource "f(x)=1/x\ny=f(x)\ny=2x" {}).runAll.2 = .ok outputs ∧
      ∃ next statements, (ofSource "f(x)=1/x\ny=f(x)\ny=2x" {}).parse = (next, .ok statements) ∧
        List.Forall₂ (next.Pictures ⟨-5, 5⟩) statements outputs ∧
        ∀ k drawn, (outputs.filterMap Output.plot?)[k]? = some drawn → drawn.number = k + 1) ∧
    ∃ (next : Sheet) (definition : Definition) (e : Error),
      next.output 1 (.plot definition) = .error e ∧
        ∃ x, next.FailsFirst ⟨-5, 5⟩ definition.body x e := by
  constructor
  · have succeeds : (ofSource "f(x)=1/x\ny=f(x)\ny=2x" {}).runAll.2.toOption.isSome := by
      decide +kernel
    obtain ⟨_, outputs, same⟩ := eq_ok_of_isSome succeeds
    have ran : (ofSource "f(x)=1/x\ny=f(x)\ny=2x" {}).runAll.2 = .ok outputs :=
      congrArg Prod.snd same
    exact ⟨outputs, ran, (runAll_pictures _ _).1 outputs ran⟩
  · have parses : (ofSource "y=99999999(x+5)x" {}).parse.2.toOption.isSome := by decide +kernel
    obtain ⟨next, statements, parsed⟩ := eq_ok_of_isSome parses
    have fails : (ofSource "y=99999999(x+5)x" {}).parse.2.toOption.any (·.any fun
        | .plot definition =>
          ((ofSource "y=99999999(x+5)x" {}).parse.1.output 1 (.plot definition)).toOption.isNone
        | .formula _ => false) := by decide +kernel
    rw [parsed] at fails
    obtain ⟨statement, member, failed⟩ := List.any_eq_true.mp fails
    cases statement with
    | formula => contradiction
    | plot definition =>
      cases put : next.output 1 (.plot definition) with
      | ok =>
        simp only [put] at failed
        contradiction
      | error e =>
        have first := (runAll_pictures _ _).2 next statements parsed
        exact ⟨next, definition, e, put, (first.2 definition member 1 e).mp put⟩

end Sheet

end FormulaSheet
