import FormulaSheet.Proofs.Finite.Numbers
import FormulaSheet.Proofs.Grammar.Drafting
import FormulaSheet.Proofs.Lexing.Spelling
import FormulaSheet.Proofs.Parsed

set_option autoImplicit false

namespace FormulaSheet

def Shape.Finite (shape : Shape) : Prop :=
  ∀ value, shape = .number value → value.isFinite

namespace Token

def ReadsFinite (read : List Char → Except GrammarFault Shape) : Prop :=
  ∀ text shape, read text = .ok shape → shape.Finite

theorem readsFinite_number : ReadsFinite readNumber := by
  intro text shape h
  unfold readNumber at h
  split at h
  · contradiction
  · split at h
    next value found =>
      cases h
      rintro _ ⟨⟩
      exact (Option.filter_eq_some_iff.mp found).2
    · contradiction

theorem readsFinite_plain {shape : Shape}
    (plain : ∀ value, shape ≠ .number value := by simp) :
    ReadsFinite fun _ => .ok shape := by
  rintro _ _ ⟨⟩ value same
  exact absurd same (plain value)

theorem readsFinite_fault (fault : GrammarFault) : ReadsFinite fun _ => .error fault :=
  nofun

def Rule.ReadsFinite (rule : Rule) : Prop :=
  Pattern.Bounded (fun read _ => Token.ReadsFinite read) rule.pattern rule.shape 0

theorem Rule.readsFinite {grammar : Grammar} {rule : Rule} (member : rule ∈ grammar.rules) :
    rule.ReadsFinite := by
  refine Grammar.forall_rules ?function ?noFunction ?plot ?sequence ?longSequence ?noSequence
    ?noLongSequence ?call ?indexOfTerm ?partialSum ?indexOfPartialSum ?name ?number ?operator ?newline
    ?opening ?closing ?equals ?comma rule member
  case function | longSequence => exact fun _ _ _ => readsFinite_plain
  case plot => exact fun _ => readsFinite_plain
  case sequence => exact fun _ _ => readsFinite_plain
  case noFunction | noLongSequence => exact fun _ _ _ => readsFinite_fault _
  case noSequence => exact fun _ _ => readsFinite_fault _
  case call => exact fun _ _ => readsFinite_plain
  case indexOfTerm | partialSum | indexOfPartialSum => exact fun _ => readsFinite_plain
  case number => exact readsFinite_number
  case operator => exact fun _ => readsFinite_plain
  case name | newline | opening | closing | equals | comma => exact readsFinite_plain

theorem next_finite {grammar : Grammar} {source : String} {place after : Place}
    {cs rest : List Char} {token : Token}
    (h : next grammar source place cs = .token token after rest) : token.shape.Finite := by
  simp only [next] at h
  split at h
  · contradiction
  · split at h
    · contradiction
    · contradiction
    next shape consumed later matched =>
      obtain ⟨rule, member, found⟩ := Grammar.exists_rule matched
      cases h
      exact Rule.shape_of_bounded (Rule.readsFinite member) found

theorem readFrom_finite (grammar : Grammar) (source : String) (place : Place) (cs : List Char) :
    ∀ token ∈ (readFrom grammar source place cs).tokens, token.shape.Finite := by
  fun_induction readFrom grammar source place cs with
  | case1 | case2 => simp
  | case3 place cs token after rest step ih =>
    exact List.forall_mem_cons.mpr ⟨next_finite step, ih⟩

end Token

namespace Formula

def Finite (formula : Formula) : Prop :=
  ∀ site x, formula.Has (.literal site x) → x.isFinite

theorem Finite.argument {formula argument : Formula} {callee : Callee} {arguments : List Formula}
    (finite : formula.Finite) (has : formula.Has (.call callee arguments))
    (given : argument ∈ arguments) : argument.Finite := by
  obtain ⟨within, deep, member⟩ := has
  intro site x found
  exact finite site x ((found.argument member given).within deep)

section Parts

variable {formula : Formula} {site : Site} {x : Float}

theorem finite_iff : formula.Finite ↔ ∀ part ∈ formula, Finite [part] := by
  constructor
  · intro finite part member site x has
    exact finite site x (has_iff_part.mpr ⟨part, member, has⟩)
  · intro each site x has
    obtain ⟨part, member, has⟩ := has_iff_part.mp has
    exact each part member site x has

theorem finite_nil : Finite [] := by
  rw [finite_iff]
  simp

theorem finite_literal : Finite [.literal site x] ↔ x.isFinite := by
  constructor
  · intro finite
    exact finite site x (.here List.mem_cons_self)
  · intro finite _ _ has
    have same := has_iff.mp has
    simp only [List.mem_singleton, Part.literal.injEq, reduceCtorEq, false_and, exists_false,
      or_false] at same
    exact same.2 ▸ finite

theorem finite_name : Finite [.name site] := by
  intro _ _ has
  have same := has_iff.mp has
  simp at same

theorem finite_operator (o : Operator) : Finite [.operator o] := by
  intro _ _ has
  have same := has_iff.mp has
  simp at same

theorem finite_bracket {inside : Formula} : Finite [.bracket site inside] ↔ inside.Finite := by
  constructor
  · intro finite _ _ has
    exact finite _ _ (.bracket List.mem_cons_self has)
  · intro finite _ _ has
    rcases has_iff.mp has with member | ⟨opening, inside, member, has⟩ |
      ⟨callee, arguments, member, argument, given, has⟩
    · simp at member
    · cases List.mem_singleton.mp member
      exact finite _ _ has
    · simp at member

theorem finite_call {callee : Callee} {arguments : List Formula} :
    Finite [.call callee arguments] ↔ ∀ argument ∈ arguments, argument.Finite := by
  constructor
  · intro finite argument given _ _ has
    exact finite _ _ (.argument List.mem_cons_self given has)
  · intro finite _ _ has
    rcases has_iff.mp has with member | ⟨opening, inside, member, has⟩ |
      ⟨callee, arguments, member, argument, given, has⟩
    · simp at member
    · simp at member
    · cases List.mem_singleton.mp member
      exact finite argument given _ _ has

theorem Finite.addValue {done : Formula} {part : Part} (finite : done.Finite)
    (own : Finite [part]) : Finite (addValue done part) := by
  rw [finite_iff] at finite ⊢
  intro other member
  rcases mem_addValue member with rfl | present | ⟨o, rfl⟩
  · exact own
  · exact finite other present
  · exact finite_operator o

theorem Finite.addOperator {done after : Formula} {o : Operator} (finite : done.Finite)
    (added : addOperator done o = .ok after) : after.Finite := by
  rw [finite_iff] at finite ⊢
  intro part member
  rcases mem_addOperator added member with present | ⟨o, rfl⟩
  · exact finite part present
  · exact finite_operator o

theorem Finite.reverse {done : Formula} (finite : done.Finite) : Finite done.reverse := by
  rw [finite_iff] at finite ⊢
  exact fun part member => finite part (List.mem_reverse.mp member)

theorem Finite.foldSign (finite : formula.Finite) : formula.foldSign.Finite := by
  unfold Formula.foldSign
  split
  next o site x rest =>
    split
    · rw [finite_iff] at finite ⊢
      obtain ⟨-, later⟩ := List.forall_mem_cons.mp finite
      obtain ⟨number, later⟩ := List.forall_mem_cons.mp later
      have negated := Binary64.isFinite_neg (finite_literal.mp number)
      exact List.forall_mem_cons.mpr ⟨finite_literal.mpr negated, later⟩
    · exact finite
  · exact finite

theorem Finishes.finite {source : String} {others formulas : List Formula}
    (finite : formula.Finite) (later : ∀ formula ∈ others, formula.Finite)
    (finishes : Finishes source formula others formulas) : ∀ formula ∈ formulas, formula.Finite := by
  rcases finishes with ⟨-, rfl⟩ | ⟨-, finished, done, rfl⟩
  · exact later
  · rw [finish_eq_ok done]
    exact List.forall_mem_cons.mpr ⟨finite.foldSign, later⟩

end Parts

theorem building_finite (source : String) :
    (∀ done tokens formula, chain source done tokens = .ok formula →
      done.Finite → (∀ token ∈ tokens, token.shape.Finite) → formula.Finite) ∧
    ∀ tokens formulas, lines source tokens = .ok formulas →
      (∀ token ∈ tokens, token.shape.Finite) → ∀ formula ∈ formulas, formula.Finite := by
  have called {done : Formula} {rest : List Token} {callee : Callee} {arguments : Capture}
      {values : List Formula} {formula : Formula}
      (read : (∀ token ∈ (Token.read .arguments source arguments.offset arguments.stop).tokens,
        token.shape.Finite) → ∀ value ∈ values, value.Finite)
      (ih : (addValue done (.call callee values)).Finite →
        (∀ token ∈ rest, token.shape.Finite) → formula.Finite)
      (finite : done.Finite) (later : ∀ token ∈ rest, token.shape.Finite) : formula.Finite :=
    ih (finite.addValue (finite_call.mpr (read (Token.readFrom_finite _ _ _ _)))) later
  refine build_induction
    (fun done tokens formula =>
      Finite done → (∀ token ∈ tokens, token.shape.Finite) → Finite formula)
    (fun tokens formulas =>
      (∀ token ∈ tokens, token.shape.Finite) → ∀ formula ∈ formulas, formula.Finite)
    ?nil ?ended ?number ?name ?operator ?group ?call ?query ?last ?line
  case nil => exact fun done finite _ => finite.reverse
  case ended => exact fun done token rest _ finite _ => finite.reverse
  case number =>
    intro done token rest value formula shape ih finite tokens
    obtain ⟨first, later⟩ := List.forall_mem_cons.mp tokens
    exact ih (finite.addValue (finite_literal.mpr (first value shape))) later
  case name =>
    intro done token rest formula shape ih finite tokens
    exact ih (finite.addValue finite_name) (List.forall_mem_cons.mp tokens).2
  case operator =>
    intro done token rest operation after formula shape added ih finite tokens
    exact ih (finite.addOperator added) (List.forall_mem_cons.mp tokens).2
  case group =>
    intro done token rest inside after group formula shape found inner outer finite tokens
    obtain ⟨closing, rfl, -, -⟩ := closeGroup_eq_some found
    obtain ⟨within, later⟩ := List.forall_mem_append.mp (List.forall_mem_cons.mp tokens).2
    have bracketed := inner within group List.mem_cons_self
    exact outer (finite.addValue (finite_bracket.mpr bracketed)) (List.forall_mem_cons.mp later).2
  case call =>
    intro done token rest callee arguments values formula shape _ read ih finite tokens
    exact called read ih finite (List.forall_mem_cons.mp tokens).2
  case query =>
    intro done token rest query arguments values formula shape _ read ih finite tokens
    exact called read ih finite (List.forall_mem_cons.mp tokens).2
  case last =>
    intro tokens formula formulas built _ finishes finite
    exact finishes.finite (built finite_nil finite) (by simp)
  case line =>
    intro tokens formula rest others formulas built stop read finishes finite
    have within := lineEnd_mem 0 tokens
    rw [stop] at within
    exact finishes.finite (built finite_nil finite) (read fun token member =>
      finite token (within member))

theorem finite_of_captured {source : String} {grammar : Token.Grammar} {capture : Capture}
    {formulas : List Formula} (h : captured source grammar capture = .ok formulas) :
    ∀ formula ∈ formulas, formula.Finite :=
  (building_finite source).2 _ _ (captured_ok.mp h).2 (Token.readFrom_finite _ _ _ _)

end Formula

end FormulaSheet
