import FormulaSheet.Proofs.Grammar.Building
import FormulaSheet.Sheet.Run

set_option autoImplicit false

namespace FormulaSheet.Formula

variable {source : String}

section Sound

open Phrase

def LineEnd.Splits (line tokens : List Token) : LineEnd → Prop
  | .input => tokens = line
  | .separator rest =>
    ∃ separator, separator.shape = .separator ∧ tokens = line ++ separator :: rest
  | .definition .. => True

theorem LineEnd.Splits.append {ending : LineEnd} {line tokens : List Token}
    (h : ending.Splits line tokens) (before : List Token) :
    ending.Splits (before ++ line) (before ++ tokens) := by
  cases ending with
  | input => exact congrArg (before ++ ·) h
  | separator rest =>
    obtain ⟨separator, shape, rfl⟩ := h
    exact ⟨separator, shape, (List.append_assoc ..).symm⟩
  | definition => trivial

def LineSpelled (source : String) (done : Formula) (tokens : List Token) (formula : Formula) :
    Prop :=
  ∃ line, (lineEnd 0 tokens).Splits line tokens ∧ (formula = [] → done = [] ∧ line = []) ∧
    (endsInValue formula.reverse →
      Spells source (if endsInValue done then .more else .formula) line)

variable {done after : Formula} {tokens : List Token} {formula : Formula}

theorem LineSpelled.ended (split : (lineEnd 0 tokens).Splits [] tokens) :
    LineSpelled source done tokens done.reverse := by
  refine ⟨[], split, ?_, ?_⟩
  · intro empty
    exact ⟨by simpa using empty, rfl⟩
  · intro value
    rw [List.reverse_reverse] at value
    rw [if_pos value]
    exact .done

theorem LineSpelled.value {part : Part} {spelled : List Token} (value : part.isValue)
    (spells : Spells source .value spelled)
    (h : LineSpelled source (addValue done part) tokens formula) :
    LineSpelled source done (spelled ++ tokens) formula := by
  obtain ⟨line, split, empty, rest⟩ := h
  rw [if_pos (endsInValue_addValue done value)] at rest
  refine ⟨spelled ++ line, ?_, ?_, ?_⟩
  · rw [spells.lineEnd_append (by simp)]
    exact split.append spelled
  · intro none
    exact absurd (empty none).1 (addValue_ne_nil done part)
  · intro ends
    split
    · exact .next .none spells (rest ends)
    · have unsigned : Signs [] := by simp [Signs]
      exact .formula unsigned spells (rest ends)

theorem LineSpelled.operator {token : Token} {operation : Operation}
    (shape : token.shape = .operator operation)
    (added : addOperator done ⟨operation, token.site⟩ = .ok after)
    (h : LineSpelled source after tokens formula) :
    LineSpelled source done (token :: tokens) formula := by
  obtain ⟨awaiting, started, sign⟩ := addOperator_eq_ok added
  obtain ⟨line, split, empty, rest⟩ := h
  rw [if_neg (by simp [awaiting])] at rest
  refine ⟨token :: line, ?_, ?_, ?_⟩
  · have skipped : lineEnd 0 (token :: tokens) = lineEnd 0 tokens := by simp [lineEnd, shape]
    rw [skipped]
    exact split.append [token]
  · intro none
    exact absurd (empty none).1 started
  · intro ends
    cases rest ends with
    | @formula signs value more minuses spells others =>
      split
      · exact .next (.operator shape minuses) spells others
      next unended =>
        have minus : operation = .subtract := sign (by simpa using unended)
        have signed : Signs (token :: signs) :=
          List.forall_mem_cons.mpr ⟨by rw [shape, minus], minuses⟩
        exact .formula signed spells others

theorem LineSpelled.nonblank (h : LineSpelled source [] tokens formula) (nonempty : formula ≠ [])
    (finished : ∃ final, finish source formula = .ok final) :
    ∃ line, (lineEnd 0 tokens).Splits line tokens ∧ Spells source .formula line := by
  obtain ⟨line, split, -, rest⟩ := h
  exact ⟨line, split, rest ((finish_ok_iff nonempty).mp finished)⟩

theorem LineSpelled.blank (h : LineSpelled source [] tokens []) :
    (lineEnd 0 tokens).Splits [] tokens := by
  obtain ⟨line, split, empty, -⟩ := h
  rw [(empty rfl).2] at split
  exact split

theorem LineSpelled.last {formulas : List Formula} (h : LineSpelled source [] tokens formula)
    (stop : lineEnd 0 tokens = .input) (finished : Finishes source formula [] formulas) :
    Spells source (.lines formulas.length) tokens := by
  rcases finished with ⟨rfl, rfl⟩ | ⟨nonempty, final, done, rfl⟩
  · have split := h.blank
    rw [stop] at split
    rw [split]
    exact .empty
  · obtain ⟨line, split, spells⟩ := h.nonblank nonempty ⟨final, done⟩
    rw [stop] at split
    rw [split]
    exact .last spells

theorem LineSpelled.line {rest : List Token} {others formulas : List Formula}
    (h : LineSpelled source [] tokens formula) (stop : lineEnd 0 tokens = .separator rest)
    (later : Spells source (.lines others.length) rest)
    (finished : Finishes source formula others formulas) :
    Spells source (.lines formulas.length) tokens := by
  rcases finished with ⟨rfl, rfl⟩ | ⟨nonempty, final, done, rfl⟩
  · have split := h.blank
    rw [stop] at split
    obtain ⟨separator, shape, rfl⟩ := split
    exact .blank shape later
  · obtain ⟨line, split, spells⟩ := h.nonblank nonempty ⟨final, done⟩
    rw [stop] at split
    obtain ⟨separator, shape, rfl⟩ := split
    exact .line spells shape later

theorem building_spelled (source : String) :
    (∀ done tokens formula, chain source done tokens = .ok formula →
      LineSpelled source done tokens formula) ∧
    ∀ tokens formulas, lines source tokens = .ok formulas →
      Spells source (.lines formulas.length) tokens := by
  refine build_induction (LineSpelled source)
    (fun tokens formulas => Spells source (.lines formulas.length) tokens)
    ?nil ?ended ?number ?name ?operator ?group ?call ?query ?last ?line
  case nil =>
    intro done
    exact .ended rfl
  case ended =>
    rintro done token rest (shape | ⟨outline, shape⟩)
    · apply LineSpelled.ended
      simp only [lineEnd, shape]
      exact ⟨token, shape, rfl⟩
    · apply LineSpelled.ended
      simp only [lineEnd, shape]
      trivial
  case number =>
    intro done token rest value formula shape ih
    exact ih.value rfl (.number shape)
  case name =>
    intro done token rest formula shape ih
    exact ih.value rfl (.name shape)
  case operator =>
    intro done token rest operation after formula shape added ih
    exact ih.operator shape added
  case group =>
    intro done token rest inside after group formula shape found inner ih
    obtain ⟨closing, split, closes, -⟩ := closeGroup_eq_some found
    have spelled := ih.value rfl (.group shape closes inner)
    rw [split]
    simpa using spelled
  case call =>
    intro done token rest callee arguments values formula shape given inner ih
    have asks : token.shape.arguments? = some arguments := by rw [shape]; rfl
    exact ih.value rfl (.call asks (captured_ok.mp given).1 inner)
  case query =>
    intro done token rest query arguments values formula shape given inner ih
    have asks : token.shape.arguments? = some arguments := by rw [shape]; rfl
    exact ih.value rfl (.call asks (captured_ok.mp given).1 inner)
  case last =>
    intro tokens formula formulas ih stop finished
    exact ih.last stop finished
  case line =>
    intro tokens formula rest others formulas ih stop later finished
    exact ih.line stop later finished

theorem chain_spelled (h : chain source done tokens = .ok formula) :
    LineSpelled source done tokens formula :=
  (building_spelled source).1 done tokens formula h

theorem lines_spelled {formulas : List Formula} (h : lines source tokens = .ok formulas) :
    Spells source (.lines formulas.length) tokens :=
  (building_spelled source).2 tokens formulas h

end Sound

section Complete

open Phrase

def ReadsTo (source : String) (done : Formula) (tokens : List Token) (after : Formula) : Prop :=
  ∀ rest formula, chain source after rest = .ok formula →
    chain source done (tokens ++ rest) = .ok formula

variable {done middle after : Formula} {tokens others : List Token}

theorem ReadsTo.append (first : ReadsTo source done tokens middle)
    (second : ReadsTo source middle others after) :
    ReadsTo source done (tokens ++ others) after := by
  intro rest formula h
  rw [List.append_assoc]
  exact first _ _ (second _ _ h)

theorem ReadsTo.operator {token : Token} {operation : Operation}
    (shape : token.shape = .operator operation)
    (added : addOperator done ⟨operation, token.site⟩ = .ok middle)
    (h : ReadsTo source middle tokens after) : ReadsTo source done (token :: tokens) after := by
  intro rest formula built
  rw [List.cons_append, chain_operator shape added]
  exact h rest formula built

theorem readsTo_signs {signs : List Token} (h : Signs signs) (done : Formula) :
    ∃ after, ReadsTo source done signs after := by
  induction signs generalizing done with
  | nil => exact ⟨done, fun _ _ => id⟩
  | cons token signs ih =>
    have shape := h token List.mem_cons_self
    obtain ⟨middle, added⟩ := addOperator_sign done (o := ⟨.subtract, token.site⟩) rfl
    obtain ⟨after, reads⟩ := ih h.tail middle
    exact ⟨after, .operator shape added reads⟩

theorem readsTo_joint {joint : List Token} (h : Joint joint) (value : endsInValue done) :
    ∃ after, ReadsTo source done joint after := by
  cases h with
  | none => exact ⟨done, fun _ _ => id⟩
  | @operator token operation signs shape minuses =>
    have added := addOperator_value value ⟨operation, token.site⟩
    obtain ⟨after, reads⟩ := readsTo_signs minuses (.operator ⟨operation, token.site⟩ :: done)
    exact ⟨after, .operator shape added reads⟩

def Accepted (source : String) : Phrase → List Token → Prop
  | .value, tokens => ∃ part : Part, part.isValue ∧
      ∀ done, ReadsTo source done tokens (addValue done part)
  | .more, tokens => ∀ done, endsInValue done →
      ∃ after, endsInValue after ∧ ReadsTo source done tokens after
  | .formula, tokens => ∀ done, ∃ after, endsInValue after ∧ ReadsTo source done tokens after
  | .lines count, tokens => ∃ formulas, lines source tokens = .ok formulas ∧
      formulas.length = count

theorem finish_reverse (value : endsInValue after) :
    after.reverse ≠ [] ∧ ∃ finished, finish source after.reverse = .ok finished := by
  have nonempty : after.reverse ≠ [] := by
    cases after with
    | nil => contradiction
    | cons => simp
  refine ⟨nonempty, (finish_ok_iff nonempty).mpr ?_⟩
  rw [List.reverse_reverse]
  exact value

theorem lines_last {line : List Token} (spells : Spells source .formula line)
    (accepted : Accepted source .formula line) : Accepted source (.lines 1) line := by
  obtain ⟨after, value, reads⟩ := accepted []
  obtain ⟨nonempty, finished, done⟩ := finish_reverse value
  have built : chain source [] line = .ok after.reverse := by
    have whole := reads [] after.reverse (by rw [chain])
    rwa [List.append_nil] at whole
  have stop : lineEnd 0 line = .input := by
    have skipped := spells.lineEnd_append (by simp) []
    rwa [List.append_nil] at skipped
  refine ⟨[finished], lines_ok.mpr ⟨[after.reverse], ?_, ?_⟩, rfl⟩
  · exact rawLines_ok.mpr ⟨_, built, .inl ⟨stop, rfl⟩⟩
  · exact finishAll_cons_ok.mpr (.inr ⟨nonempty, finished, [], done, rfl, rfl⟩)

theorem lines_blank {separator : Token} {rest : List Token} {count : Nat}
    (shape : separator.shape = .separator) (accepted : Accepted source (.lines count) rest) :
    Accepted source (.lines count) (separator :: rest) := by
  obtain ⟨formulas, read, length⟩ := accepted
  obtain ⟨raw, lines, finished⟩ := lines_ok.mp read
  refine ⟨formulas, lines_ok.mpr ⟨[] :: raw, ?_, ?_⟩, length⟩
  · have stop : lineEnd 0 (separator :: rest) = .separator rest := by simp [lineEnd, shape]
    exact rawLines_ok.mpr ⟨[], chain_ended (.inl shape), .inr ⟨rest, raw, stop, lines, rfl⟩⟩
  · exact finishAll_cons_ok.mpr (.inl ⟨rfl, finished⟩)

theorem lines_line {line rest : List Token} {separator : Token} {count : Nat}
    (spells : Spells source .formula line) (accepted : Accepted source .formula line)
    (shape : separator.shape = .separator) (later : Accepted source (.lines count) rest) :
    Accepted source (.lines (count + 1)) (line ++ separator :: rest) := by
  obtain ⟨after, value, reads⟩ := accepted []
  obtain ⟨nonempty, finished, done⟩ := finish_reverse value
  obtain ⟨formulas, read, rfl⟩ := later
  obtain ⟨raw, lines, others⟩ := lines_ok.mp read
  have built := reads (separator :: rest) after.reverse (chain_ended (.inl shape))
  have stop : lineEnd 0 (line ++ separator :: rest) = .separator rest := by
    rw [spells.lineEnd_append (by simp)]
    simp [lineEnd, shape]
  refine ⟨finished :: formulas, lines_ok.mpr ⟨after.reverse :: raw, ?_, ?_⟩, rfl⟩
  · exact rawLines_ok.mpr ⟨_, built, .inr ⟨rest, raw, stop, lines, rfl⟩⟩
  · exact finishAll_cons_ok.mpr (.inr ⟨nonempty, finished, formulas, done, others, rfl⟩)

theorem accepted_of_spells {phrase : Phrase} (h : Spells source phrase tokens) :
    Accepted source phrase tokens := by
  induction h with
  | @number token value shape =>
    refine ⟨.literal token.site value, rfl, fun done rest formula h => ?_⟩
    rw [List.singleton_append, chain_number shape, h]
  | @name token shape =>
    refine ⟨.name token.site, rfl, fun done rest formula h => ?_⟩
    rw [List.singleton_append, chain_name shape, h]
  | @group opening closing inside opens closes spells ih =>
    obtain ⟨formulas, read, length⟩ := ih
    obtain ⟨group, rfl⟩ := List.length_eq_one_iff.mp length
    refine ⟨.bracket opening.site group, rfl, fun done rest formula h => ?_⟩
    have found : closeGroup 0 (inside ++ closing :: rest) = some (inside, rest) := by
      rw [closeGroup_nested (spells.nesting 0)]
      simp [closeGroup, closes]
    have split : opening :: (inside ++ [closing]) ++ rest =
        opening :: (inside ++ closing :: rest) := by simp
    rw [split]
    exact (chain_group opens).mpr ⟨inside, rest, group, found, read, h⟩
  | @call token arguments count asks read spells ih =>
    obtain ⟨formulas, built, -⟩ := ih
    have values : captured source .arguments arguments = .ok formulas :=
      captured_ok.mpr ⟨read, built⟩
    rcases shape_of_arguments? asks with ⟨callee, shape⟩ | ⟨query, shape⟩
    · refine ⟨.call ⟨token.site, callee.text, .plain⟩ formulas, rfl, fun done rest formula h => ?_⟩
      rw [List.singleton_append, chain_call shape, values]
      exact h
    · refine ⟨.call ⟨token.site, "s", .query query⟩ formulas, rfl, fun done rest formula h => ?_⟩
      rw [List.singleton_append, chain_query shape, values]
      exact h
  | done => exact fun done value => ⟨done, value, fun _ _ => id⟩
  | next joint _ _ value more =>
    intro done ends
    obtain ⟨middle, first⟩ := readsTo_joint joint ends
    obtain ⟨part, isValue, second⟩ := value
    obtain ⟨after, ends, third⟩ := more _ (endsInValue_addValue middle isValue)
    exact ⟨after, ends, first.append ((second middle).append third)⟩
  | formula signs _ _ value more =>
    intro done
    obtain ⟨middle, first⟩ := readsTo_signs signs done
    obtain ⟨part, isValue, second⟩ := value
    obtain ⟨after, ends, third⟩ := more _ (endsInValue_addValue middle isValue)
    exact ⟨after, ends, first.append ((second middle).append third)⟩
  | empty =>
    have read : rawLines source [] = .ok [[]] :=
      rawLines_ok.mpr ⟨[], by rw [chain, List.reverse_nil], .inl ⟨rfl, rfl⟩⟩
    exact ⟨[], lines_ok.mpr ⟨[[]], read, rfl⟩, rfl⟩
  | last spells ih => exact lines_last spells ih
  | blank shape _ ih => exact lines_blank shape ih
  | line spells shape _ line rest => exact lines_line spells line shape rest

end Complete

theorem lines_ok_iff {tokens : List Token} {count : Nat} :
    (∃ formulas, lines source tokens = .ok formulas ∧ formulas.length = count) ↔
      Phrase.Spells source (.lines count) tokens := by
  constructor
  · rintro ⟨formulas, read, length⟩
    rw [← length]
    exact lines_spelled read
  · intro spells
    exact accepted_of_spells spells

end FormulaSheet.Formula

namespace FormulaSheet.Sheet

/-- Tokens are read without an error exactly if they hold no definition and no equals sign, their
brackets are nested, and they spell lines of formulas. -/
theorem readInner_accepts (sheet : Sheet) (tokens : List Token) :
    (∃ statements, sheet.readInner tokens = .ok statements) ↔
      (∀ token ∈ tokens, token.shape.isInner) ∧ Nested tokens ∧
        ∃ count, Phrase.Spells sheet.source (.lines count) tokens := by
  constructor
  · rintro ⟨statements, read⟩
    obtain ⟨formulas, read, -⟩ := Outcome.map_eq_ok.mp read
    have spells := Formula.lines_ok_iff.mp ⟨formulas, read, rfl⟩
    exact ⟨spells.isInner, spells.nesting 0, _, spells⟩
  · rintro ⟨_, _, count, spells⟩
    obtain ⟨formulas, read, -⟩ := Formula.lines_ok_iff.mpr spells
    exact ⟨_, Outcome.map_eq_ok.mpr ⟨formulas, read, rfl⟩⟩

end FormulaSheet.Sheet
