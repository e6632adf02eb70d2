import FormulaSheet.Proofs.Context.Extension
import FormulaSheet.Proofs.Lexing.Terms

set_option autoImplicit false

namespace FormulaSheet

namespace Sheet

variable {sheet : Sheet} {run : Function → Callee → Scope → Except Error Answer}
  {formula formula' : Formula} {shared : String → Prop} {x : Float}

theorem matches_of_value (known : ∀ name, sheet.symbols.contains name → shared name)
    (h : formulaValue sheet run .empty formula = .ok x)
    (same : Formula.Matches (.sharing fun _ => True) formula formula') :
    Formula.Matches (.sharing shared) formula formula' := by
  induction formula using Formula.nesting_induction generalizing x formula' with
  | step formula inBracket inArgument =>
    refine ((List.forall₂_and_left (p := (· ∈ formula)) _ _).mpr ⟨fun _ => id, same⟩).imp ?_
    rintro part part' ⟨member, alike⟩
    cases alike with
    | literal site site' value => exact .literal site site' value
    | operator near equal => exact .operator trivial equal
    | name near text =>
      obtain ⟨y, found⟩ := formulaValue_eq_ok h member rfl
      exact .name trivial text (known _ (contains_of_constant? (constant_of_name found)))
    | @bracket opening opening' inside inside' alike =>
      obtain ⟨y, found⟩ := formulaValue_eq_ok h member rfl
      exact .bracket (inBracket opening inside member found alike)
    | @call callee callee' arguments arguments' near named kind _ alike =>
      obtain ⟨y, found⟩ := formulaValue_eq_ok h member rfl
      obtain ⟨f, bound, -⟩ := function_of_call found
      obtain ⟨values, listed⟩ := argumentValues_of_call found
      refine .call trivial named kind (known _ (by simp [SymbolTable.contains, bound])) ?_
      refine ((List.forall₂_and_left (p := (· ∈ arguments)) _ _).mpr ⟨fun _ => id, alike⟩).imp ?_
      rintro argument argument' ⟨given, alike⟩
      obtain ⟨z, found⟩ := Outcome.mapM_mem_ok listed given
      exact inArgument callee arguments member argument given found alike

end Sheet

section Captures

open Token (Blank)

variable {source source' : String} {grammar : Token.Grammar} {capture capture' : Capture}
  {formulas : List Formula}

theorem captured_indented {gap gap' text : List Char} (blank : Blank gap) (blank' : Blank gap')
    (written : capture.text.toList = gap ++ text) (written' : capture'.text.toList = gap' ++ text)
    (here : StandsAt source capture.offset capture.text.toList)
    (there : StandsAt source' capture'.offset capture'.text.toList)
    (read : Formula.captured source grammar capture = .ok formulas) :
    ∃ formulas', Formula.captured source' grammar capture' = .ok formulas' ∧
      List.Forall₂ (Formula.Matches (.sharing fun _ => True)) formulas formulas' := by
  obtain ⟨unfailed, built⟩ := Formula.captured_ok.mp read
  obtain ⟨place, start, same⟩ := Token.read_capture grammar here
  obtain ⟨place', start', same'⟩ := Token.read_capture grammar there
  rw [written] at same here
  rw [written'] at same' there
  rw [same] at unfailed built
  have later : StandsAt source (place.advanceAll gap).index text := by
    simpa [start] using here.right
  have later' : StandsAt source' (place'.advanceAll gap').index text := by
    simpa [start'] using there.right
  obtain ⟨tokens', reads', carried⟩ :=
    ((Token.reads_of_readFrom unfailed).of_blanks blank).carried later later' fun _ _ => trivial
  obtain ⟨formulas', built', alike⟩ :=
    (building_carried (fun _ => True) trivial source source').2 _ _ built _ carried
  refine ⟨formulas', Formula.captured_ok.mpr ?_, alike⟩
  rw [same', (reads'.blanks blank').readFrom_eq]
  exact ⟨rfl, built'⟩

theorem balance_of_captured (here : StandsAt source capture.offset capture.text.toList)
    (read : Formula.captured source grammar capture = .ok formulas) :
    Text.balance 0 capture.text.toList = some 0 := by
  obtain ⟨unfailed, built⟩ := Formula.captured_ok.mp read
  obtain ⟨place, -, same⟩ := Token.read_capture grammar here
  rw [same] at unfailed built
  have spells := Formula.lines_spelled built
  rw [(Token.reads_of_readFrom unfailed).balance spells.isInner]
  exact spells.nesting 0

theorem isGiven_of_captured {formula : Formula}
    (here : StandsAt source capture.offset capture.text.toList)
    (read : Formula.captured source .arguments capture = .ok [formula]) : capture.isGiven := by
  obtain ⟨unfailed, built⟩ := Formula.captured_ok.mp read
  obtain ⟨place, -, same⟩ := Token.read_capture .arguments here
  rw [same] at unfailed built
  unfold Capture.isGiven
  rw [Bool.not_eq_true', List.isEmpty_eq_false_iff]
  intro nothing
  have white := Text.isWhiteSpace_of_trim nothing
  rw [(Token.reads_of_readFrom unfailed).of_whiteSpace white] at built
  rw [Formula.lines, Formula.rawLines, Formula.chain] at built
  cases built

end Captures

end FormulaSheet
