import FormulaSheet.Proofs.Grammar.Acceptance

set_option autoImplicit false

namespace FormulaSheet

open Formula (lineEnd chain lines finish Finishes addValue addOperator)

section Lines

variable {source : String} {tokens rest line : List Token} {raw formula : Formula}

theorem lines_cons {formulas : List Formula} (built : chain source [] tokens = .ok formula)
    (stop : lineEnd 0 tokens = .input)
    (done : Finishes source formula [] formulas) : lines source tokens = .ok formulas := by
  refine Formula.lines_ok.mpr ⟨[formula], ?_, ?_⟩
  · exact Formula.rawLines_ok.mpr ⟨formula, built, .inl ⟨stop, rfl⟩⟩
  · exact Formula.finishAll_cons_iff.mpr ⟨[], rfl, done⟩

theorem lines_separated {others formulas : List Formula}
    (built : chain source [] tokens = .ok formula)
    (stop : lineEnd 0 tokens = .separator rest) (later : lines source rest = .ok others)
    (done : Finishes source formula others formulas) : lines source tokens = .ok formulas := by
  obtain ⟨raw, read, finished⟩ := Formula.lines_ok.mp later
  refine Formula.lines_ok.mpr ⟨formula :: raw, ?_, ?_⟩
  · exact Formula.rawLines_ok.mpr ⟨formula, built, .inr ⟨rest, raw, stop, read, rfl⟩⟩
  · exact Formula.finishAll_cons_iff.mpr ⟨others, finished, done⟩

theorem chain_empty (h : chain source [] tokens = .ok []) :
    tokens = [] ∨ ∃ token rest, tokens = token :: rest ∧
      (token.shape = .separator ∨ ∃ outline, token.shape = .definition outline) := by
  have started {done : Formula} {rest : List Token} (h : chain source done rest = .ok []) :
      done = [] := by
    obtain ⟨_, -, empty, -⟩ := Formula.chain_spelled h
    exact (empty rfl).1
  cases tokens with
  | nil => exact .inl rfl
  | cons token rest =>
    refine .inr ⟨token, rest, rfl, ?_⟩
    cases shape : token.shape with
    | separator => exact .inl rfl
    | definition outline => exact .inr ⟨outline, rfl⟩
    | number =>
      rw [Formula.chain_number shape] at h
      exact absurd (started h) (Formula.addValue_ne_nil _ _)
    | name =>
      rw [Formula.chain_name shape] at h
      exact absurd (started h) (Formula.addValue_ne_nil _ _)
    | operator operation =>
      cases added : addOperator [] ⟨operation, token.site⟩ with
      | error fault =>
        exact absurd h (Formula.chain_refused (.inr (.inr ⟨operation, fault, shape, added⟩)) _)
      | ok after =>
        rw [Formula.chain_operator shape added] at h
        exact absurd (started h) (Formula.addOperator_eq_ok added).2.1
    | leftParen =>
      obtain ⟨_, _, _, -, -, h⟩ := (Formula.chain_group shape).mp h
      exact absurd (started h) (Formula.addValue_ne_nil _ _)
    | rightParen => exact absurd h (Formula.chain_refused (.inl shape) _)
    | equals => exact absurd h (Formula.chain_refused (.inr (.inl shape)) _)
    | call =>
      rw [Formula.chain_call shape] at h
      obtain ⟨_, -, h⟩ := Outcome.bind_eq_ok.mp h
      exact absurd (started h) (Formula.addValue_ne_nil _ _)
    | query =>
      rw [Formula.chain_query shape] at h
      obtain ⟨_, -, h⟩ := Outcome.bind_eq_ok.mp h
      exact absurd (started h) (Formula.addValue_ne_nil _ _)

structure Line (source : String) (line : List Token) (formula : Formula) : Prop where
  read : lines source line = .ok [formula]
  unbroken : lineEnd 0 line = .input

theorem Line.built (h : Line source line formula) :
    ∃ raw, chain source [] line = .ok raw ∧ raw ≠ [] ∧ finish source raw = .ok formula := by
  obtain ⟨all, read, finished⟩ := Formula.lines_ok.mp h.read
  obtain ⟨raw, built, ⟨-, rfl⟩ | ⟨_, _, stop, -⟩⟩ := Formula.rawLines_ok.mp read
  · obtain ⟨others, none, ⟨-, same⟩ | ⟨nonempty, finished, done, same⟩⟩ :=
      Formula.finishAll_cons_iff.mp finished
    · cases none
      contradiction
    · cases same
      exact ⟨raw, built, nonempty, done⟩
  · rw [h.unbroken] at stop
    contradiction

theorem Line.spells (h : Line source line formula) : Phrase.Spells source .formula line := by
  obtain ⟨raw, built, nonempty, done⟩ := h.built
  obtain ⟨_, split, spells⟩ := (Formula.chain_spelled built).nonblank nonempty ⟨formula, done⟩
  rw [h.unbroken] at split
  exact split ▸ spells

theorem spelled_followed (spells : Phrase.Spells source .formula line) :
    ∃ raw, chain source [] line = .ok raw ∧ lineEnd 0 line = .input ∧
      ∀ separator rest, separator.shape = .separator →
        chain source [] (line ++ separator :: rest) = .ok raw ∧
        lineEnd 0 (line ++ separator :: rest) = .separator rest := by
  obtain ⟨after, -, reads⟩ := Formula.accepted_of_spells spells []
  have whole := reads [] after.reverse (by rw [chain])
  have stop := spells.lineEnd_append (by simp) []
  rw [List.append_nil] at whole stop
  refine ⟨after.reverse, whole, stop, fun separator rest shape => ⟨?_, ?_⟩⟩
  · exact reads (separator :: rest) after.reverse (Formula.chain_ended (.inl shape))
  · rw [spells.lineEnd_append (by simp)]
    simp [lineEnd, shape]

theorem Line.followed (h : Line source line formula) {separator : Token}
    (shape : separator.shape = .separator) (rest : List Token) :
    ∃ raw, chain source [] (line ++ separator :: rest) = .ok raw ∧ raw ≠ [] ∧
      finish source raw = .ok formula ∧
      lineEnd 0 (line ++ separator :: rest) = .separator rest := by
  obtain ⟨raw, built, nonempty, done⟩ := h.built
  obtain ⟨_, again, -, followed⟩ := spelled_followed h.spells
  rw [built] at again
  cases again
  exact ⟨raw, (followed separator rest shape).1, nonempty, done, (followed separator rest shape).2⟩

theorem line_of_input (built : chain source [] tokens = .ok raw)
    (stop : lineEnd 0 tokens = .input) (nonempty : raw ≠ [])
    (done : finish source raw = .ok formula) : Line source tokens formula :=
  ⟨lines_cons built stop (.inr ⟨nonempty, formula, done, rfl⟩), stop⟩

theorem line_of_separator (built : chain source [] tokens = .ok raw)
    (stop : lineEnd 0 tokens = .separator rest) (nonempty : raw ≠ [])
    (done : finish source raw = .ok formula) :
    ∃ line separator, tokens = line ++ separator :: rest ∧ separator.shape = .separator ∧
      Line source line formula := by
  obtain ⟨line, split, spells⟩ := (Formula.chain_spelled built).nonblank nonempty ⟨formula, done⟩
  rw [stop] at split
  obtain ⟨separator, shape, rfl⟩ := split
  obtain ⟨_, whole, ends, followed⟩ := spelled_followed spells
  rw [(followed separator rest shape).1] at built
  cases built
  exact ⟨line, separator, rfl, shape, line_of_input whole ends nonempty done⟩

theorem lineEnd_broken {depth : Nat} (h : nesting depth tokens = some 0) {separator : Token}
    (shape : separator.shape = .separator) (rest : List Token) :
    lineEnd depth (tokens ++ separator :: rest) ≠ .input := by
  fun_induction nesting depth tokens with
  | case1 =>
    cases h
    simp [lineEnd, shape]
  | case2 depth token tokens opens ih =>
    simp only [List.cons_append, lineEnd, opens]
    exact ih h
  | case3 => contradiction
  | case4 token tokens closes depth ih =>
    simp only [List.cons_append, lineEnd, closes]
    exact ih h
  | case5 depth token tokens left right ih =>
    rw [List.cons_append, lineEnd]
    split
    · split
      · simp
      · exact ih h
    · split
      · simp
      · exact ih h
    · contradiction
    · contradiction
    · exact ih h

theorem Line.last {token : Token} (h : Line source (line ++ [token]) formula) :
    token.shape ≠ .separator := by
  intro shape
  have nested := h.spells.nesting 0
  rw [nesting_append] at nested
  obtain ⟨depth, before, after⟩ := Option.bind_eq_some_iff.mp nested
  have same : nesting depth [token] = some depth := by simp [nesting, shape]
  rw [same] at after
  cases after
  exact lineEnd_broken before shape [] h.unbroken

end Lines

end FormulaSheet
