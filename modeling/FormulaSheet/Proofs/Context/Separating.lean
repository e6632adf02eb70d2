import FormulaSheet.Proofs.Context.Kindred
import FormulaSheet.Proofs.Lexing.Expression
import FormulaSheet.Proofs.Lexing.Lines

set_option autoImplicit false

namespace FormulaSheet

section Nesting

variable {source source' : String} {tokens tokens' : List Token}

theorem Shape.Moved.isBracket {shape shape' : Shape} (h : shape.Moved source source' shape') :
    (shape' = .leftParen ↔ shape = .leftParen) ∧ (shape' = .rightParen ↔ shape = .rightParen) := by
  cases h with
  | function | plot | sequence | call | query => simp
  | plain => simp

theorem nesting_moved (h : List.Forall₂ (Token.Moved source source') tokens tokens')
    (depth : Nat) : nesting depth tokens' = nesting depth tokens := by
  induction h generalizing depth with
  | nil => rfl
  | @cons token token' tokens tokens' first rest ih =>
    obtain ⟨left, right⟩ := first.shape.isBracket
    by_cases opens : token.shape = .leftParen
    · simp [nesting, opens, left.mpr opens, ih]
    by_cases closes : token.shape = .rightParen
    · cases depth <;> simp [nesting, closes, right.mpr closes, ih]
    have plain (token : Token) (rest : List Token) (left : token.shape = .leftParen → False)
        (right : token.shape = .rightParen → False) :
        nesting depth (token :: rest) = nesting depth rest := by
      simp [nesting]
    rw [plain token tokens opens closes, plain token' tokens' (mt left.mp opens) (mt right.mp closes),
      ih]

theorem standsAt_whole (source : String) : StandsAt source Place.origin.index source.toList :=
  ⟨[], [], by simp, rfl⟩

theorem Token.Reads.alone {line : String} {place : Place}
    (reads : Reads .statements place line.toList tokens)
    (stands : StandsAt source place.index line.toList) :
    ∃ own, readAll .statements line = ⟨own, none⟩ ∧ List.Forall₂ (Moved source line) tokens own := by
  obtain ⟨own, again, moved⟩ := reads.moved stands (standsAt_whole line)
  exact ⟨own, by rw [Sheet.readAll_eq, again.readFrom_eq], moved⟩

end Nesting

namespace Sheet

variable {sheet sheet' middle next : Sheet} {tokens others later : List Token}
  {statements first rest : List Statement} {separator : Token}

theorem Entered.joins (h : Token.Joins later others) :
    Entered sheet others next statements ↔ Entered sheet later next statements := by
  rcases h with rfl | ⟨separator, shape, rfl⟩
  · rfl
  · exact ⟨fun entered => entered.of_blank shape, .blank shape⟩

structure OneLine (tokens : List Token) : Prop where
  unseparated : ∀ token ∈ tokens, token.shape ≠ .separator
  nested : Nested tokens
  definition : ∀ token later outline, tokens = token :: later →
    token.shape = .definition outline → later = []

theorem Line.extent {source : String} {line more : List Token} {formula : Formula} {final : Token}
    (held : Line source line formula) (isBreak : final.shape = .separator)
    (alone : OneLine tokens) (shape : separator.shape = .separator)
    (same : line ++ final :: more = tokens ++ separator :: later) : line = tokens ∧ more = later := by
  rcases List.append_eq_append_iff.mp same with ⟨between, rfl, ending⟩ | ⟨between, rfl, ending⟩
  · cases between with
    | nil =>
      cases ending
      exact ⟨(List.append_nil _).symm, rfl⟩
    | cons token between =>
      cases ending
      exact absurd isBreak (alone.unseparated _ (by simp))
  · cases between with
    | nil =>
      cases ending
      exact ⟨List.append_nil _, rfl⟩
    | cons token between =>
      cases ending
      exact absurd held.unbroken (lineEnd_broken alone.nested shape _)

theorem Entered.split (h : Entered sheet (tokens ++ separator :: later) next statements)
    (alone : OneLine tokens) (shape : separator.shape = .separator) :
    ∃ middle first rest, Entered sheet tokens middle first ∧ Entered middle later next rest ∧
      statements = first ++ rest := by
  generalize whole : tokens ++ separator :: later = all at h
  cases h with
  | done => simp at whole
  | @blank _ _ final _ _ isBreak entered =>
    cases tokens with
    | nil =>
      cases whole
      exact ⟨sheet, [], statements, .done sheet, entered, rfl⟩
    | cons token tokens =>
      cases whole
      exact absurd isBreak (alone.unseparated _ List.mem_cons_self)
  | @definition _ middle _ token outline more defined rest isDefinition entered follows =>
    cases tokens with
    | nil =>
      cases whole
      rw [shape] at isDefinition
      contradiction
    | cons other tokens =>
      cases whole
      obtain rfl := alone.definition _ _ _ rfl isDefinition
      refine ⟨middle, defined, rest, ?_, by simpa [skipSeparator, shape] using follows, rfl⟩
      have only : Entered middle (skipSeparator []) middle [] := .done middle
      simpa using Entered.definition isDefinition entered only
  | last held =>
    subst whole
    exact absurd held.unbroken (lineEnd_broken alone.nested shape _)
  | @line _ _ line more final formula rest held isBreak entered =>
    obtain ⟨rfl, rfl⟩ := Line.extent held isBreak alone shape whole.symm
    exact ⟨sheet, [.formula formula], rest, .last held, entered, rfl⟩

inductive EntersEach : Sheet → List (List Token) → Sheet → List Statement → Prop
  | nil (sheet : Sheet) : EntersEach sheet [] sheet []
  | cons {sheet middle next : Sheet} {line : List Token} {lines : List (List Token)}
      {first rest : List Statement} : Entered sheet line middle first →
        EntersEach middle lines next rest → EntersEach sheet (line :: lines) next (first ++ rest)

theorem EntersEach.append {lines more : List (List Token)}
    (h : EntersEach sheet lines middle first) (follows : EntersEach middle more next rest) :
    EntersEach sheet (lines ++ more) next (first ++ rest) := by
  induction h with
  | nil => exact follows
  | cons entered _ ih =>
    rw [List.append_assoc]
    exact .cons entered (ih follows)

theorem EntersEach.of_append {lines more : List (List Token)}
    (h : EntersEach sheet (lines ++ more) next statements) :
    ∃ middle first rest, EntersEach sheet lines middle first ∧ EntersEach middle more next rest ∧
      statements = first ++ rest := by
  induction lines generalizing sheet statements with
  | nil => exact ⟨sheet, [], statements, .nil sheet, h, rfl⟩
  | cons line lines ih =>
    cases h with
    | @cons _ after _ _ _ own others entered follows =>
      obtain ⟨middle, first, rest, before, behind, rfl⟩ := ih follows
      exact ⟨middle, own ++ first, rest, .cons entered before, behind,
        (List.append_assoc ..).symm⟩

theorem EntersEach.source {lines : List (List Token)} (h : EntersEach sheet lines next statements) :
    next.source = sheet.source := by
  induction h with
  | nil => rfl
  | cons entered _ ih => exact ih.trans entered.source

def ReadsEach (source : String) (lines : List String) (each : List (List Token)) : Prop :=
  List.Forall₂ (fun line tokens => ∃ place : Place, StandsAt source place.index line.toList ∧
    Token.Reads .statements place line.toList tokens) lines each

structure Separable (line : String) : Prop where
  single : ∀ c ∈ line.toList, Text.isLineBreak c = false
  nested : Nested (Token.readAll .statements line).tokens

theorem toList_intercalate_cons (line next : String) (lines : List String) :
    ("\n".intercalate (line :: next :: lines)).toList =
      line.toList ++ '\n' :: ("\n".intercalate (next :: lines)).toList := by
  rw [String.intercalate_cons_cons, String.toList_append, String.toList_append, List.append_assoc]
  rfl

theorem standsAt_below {source : String} {place : Place} {line rest : List Char}
    (stands : StandsAt source place.index (line ++ '\n' :: rest)) :
    StandsAt source ((place.advanceAll line).advance '\n').index rest := by
  have below : StandsAt source _ (['\n'] ++ rest) := stands.right
  rw [← Place.advanceAll_index] at below
  exact below.right

theorem Separable.oneLine {source line : String} (separable : Separable line) {place : Place}
    (stands : StandsAt source place.index line.toList)
    (reads : Token.Reads .statements place line.toList tokens) : OneLine tokens where
  unseparated := reads.unseparated separable.single
  nested := by
    obtain ⟨own, read, moved⟩ := reads.alone stands
    have nested := separable.nested
    rw [read] at nested
    exact (nesting_moved moved 0).symm.trans nested
  definition := by
    rintro token later outline rfl shape
    exact reads.definition_last separable.single shape

theorem Entered.each {source : String} {lines : List String} {place : Place}
    (nonempty : lines ≠ []) (separable : ∀ line ∈ lines, Separable line)
    (stands : StandsAt source place.index ("\n".intercalate lines).toList)
    (reads : Token.Reads .statements place ("\n".intercalate lines).toList tokens)
    (entered : Entered sheet tokens next statements) :
    ∃ each, ReadsEach source lines each ∧ EntersEach sheet each next statements := by
  induction lines generalizing place sheet tokens statements with
  | nil => contradiction
  | cons line lines ih =>
    cases lines with
    | nil =>
      rw [String.intercalate_singleton] at stands reads
      refine ⟨[tokens], .cons ⟨place, stands, reads⟩ .nil, ?_⟩
      rw [← List.append_nil statements]
      exact .cons entered (.nil next)
    | cons second lines =>
      obtain ⟨own, others⟩ := List.forall_mem_cons.mp separable
      rw [toList_intercalate_cons] at stands reads
      obtain ⟨before, after, rfl, first, reads⟩ :=
        reads.of_append_lineBreak (Token.endsInLine_of_forall own.single) (by decide)
      obtain ⟨separator, later, tokens, rfl, shape, reads, joins⟩ := reads.of_lineBreak (by decide)
      obtain ⟨middle, one, more, here, follows, rfl⟩ :=
        entered.split (own.oneLine stands.left first) shape
      obtain ⟨each, readings, enters⟩ := ih (List.cons_ne_nil _ _) others (standsAt_below stands)
        reads ((Entered.joins joins).mpr follows)
      exact ⟨before :: each, .cons ⟨place, stands.left, first⟩ readings, .cons here enters⟩

theorem EntersEach.joined {lines : List String} {each : List (List Token)} {place : Place}
    (nonempty : lines ≠ []) (single : ∀ line ∈ lines, ∀ c ∈ line.toList, Text.isLineBreak c = false)
    (readings : ReadsEach sheet.source lines each) (enters : EntersEach sheet each next statements)
    (kin : Kindred (fun _ => True) sheet sheet')
    (stands : StandsAt sheet'.source place.index ("\n".intercalate lines).toList) :
    ∃ tokens next' statements',
      Token.Reads .statements place ("\n".intercalate lines).toList tokens ∧
      Entered sheet' tokens next' statements' ∧ Kindred (fun _ => True) next next' ∧
      List.Forall₂ (Statement.Matches (.sharing fun _ => True)) statements statements' := by
  have known : (fun _ : String => True) "s" := trivial
  induction lines generalizing place sheet sheet' each statements with
  | nil => contradiction
  | cons line lines ih =>
    obtain _ | ⟨⟨place', here, reads⟩, readings⟩ := readings
    obtain _ | ⟨entered, enters⟩ := enters
    cases lines with
    | nil =>
      rw [String.intercalate_singleton] at stands ⊢
      cases readings
      cases enters
      obtain ⟨tokens, reads, carried⟩ := reads.carried here stands (fun _ _ => trivial)
      obtain ⟨next', statements', entered, kin, same⟩ := entered.carried known trivial kin carried
      exact ⟨tokens, next', statements', reads, entered, kin, by simpa using same⟩
    | cons second lines =>
      obtain ⟨own, others⟩ := List.forall_mem_cons.mp single
      rw [toList_intercalate_cons] at stands ⊢
      obtain ⟨before, first, carried⟩ := reads.carried here stands.left (fun _ _ => trivial)
      obtain ⟨middle', one, entered', kin, same⟩ := entered.carried known trivial kin carried
      have below := standsAt_below stands
      rw [← entered'.source] at below
      obtain ⟨tokens, next', more, reads, follows, kin, rest⟩ :=
        ih (List.cons_ne_nil _ _) others (entered.source ▸ readings) enters kin below
      obtain ⟨separator, later, shape, reads, joins⟩ := reads.lineBreak (b := '\n') (by decide)
      have ends := Token.endsInLine_of_forall own
      refine ⟨before ++ separator :: later, next', one ++ more,
        first.append_lineBreak ends (by decide) reads,
        entered'.append shape ((Entered.joins joins).mp follows), kin, ?_⟩
      exact List.rel_append same rest

end Sheet

end FormulaSheet
