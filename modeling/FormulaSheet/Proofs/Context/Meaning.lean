import FormulaSheet.Proofs.Context.Extension
import FormulaSheet.Proofs.Lexing.Expression
import FormulaSheet.Proofs.Lexing.Lines

set_option autoImplicit false

namespace FormulaSheet

section Sources

variable {shared : String → Prop} {source : String}

theorem Token.names_lineBreaks {breaks : List Char} (all : ∀ c ∈ breaks, Text.isLineBreak c)
    (cs : List Char) : names (cs ++ breaks) = names cs := by
  have plain : ∀ c ∈ breaks, isNameStart c = false := fun c member => by
    have isBreak := all c member
    simp only [Text.isLineBreak, Bool.or_eq_true, decide_eq_true_eq] at isBreak
    rcases isBreak with rfl | rfl <;> decide
  have bounded : Bounded breaks := fun c head => by
    have isBreak := all c (List.mem_of_mem_head? head)
    simp only [Text.isLineBreak, Bool.or_eq_true, decide_eq_true_eq] at isBreak
    rcases isBreak with rfl | rfl <;> decide
  have none := names_skipAll plain []
  rw [List.append_nil, names] at none
  rw [names_append _ bounded, none, List.append_nil]

theorem standsAt_origin {text rest : List Char} (same : source.toList = text ++ rest) :
    StandsAt source Place.origin.index text :=
  ⟨[], rest, same, rfl⟩

theorem standsAt_after {head breaks text : List Char}
    (same : source.toList = head ++ (breaks ++ text)) :
    StandsAt source ((Place.origin.advanceAll head).advanceAll breaks).index text := by
  rw [Place.advanceAll_index, Place.advanceAll_index]
  exact StandsAt.right (StandsAt.right ⟨[], [], by rw [same, List.append_nil]; rfl, rfl⟩)

end Sources

section Lines

open Formula (chain lines lineEnd closeGroup addValue captured)

variable {shared : String → Prop} {source source' : String} {tokens : List Token}
  {formula : Formula}

theorem line_of_value {part : Part} (built : chain source [] tokens = .ok [part])
    (value : part.isValue) (unbroken : lineEnd 0 tokens = .input) : Line source tokens [part] := by
  refine line_of_input built unbroken (by simp) ?_
  cases part with
  | operator => contradiction
  | literal | name | bracket | call => rfl

theorem Line.bracketed (h : Line source tokens formula) {opening closing : Token}
    (opens : opening.shape = .leftParen) (closes : closing.shape = .rightParen) :
    Line source (opening :: (tokens ++ [closing])) [.bracket opening.site formula] := by
  have closed : closeGroup 0 (tokens ++ [closing]) = some (tokens, []) := by
    rw [closeGroup_nested (h.spells.nesting 0)]
    simp [closeGroup, closes]
  have group : Phrase.Spells source .value (opening :: (tokens ++ [closing])) :=
    .group opens closes (.last h.spells)
  have unbroken := group.lineEnd_append (by simp) []
  rw [List.append_nil] at unbroken
  refine line_of_value ((Formula.chain_group opens).mpr
    ⟨tokens, [], formula, closed, h.read, ?_⟩) rfl unbroken
  rw [chain]
  rfl

theorem line_of_name {token : Token} (shape : token.shape = .name) :
    Line source [token] [.name token.site] := by
  refine line_of_value ?_ rfl (by simp [lineEnd, shape])
  rw [Formula.chain_name shape, chain]
  rfl

theorem line_of_call {token : Token} {callee arguments : Capture} {values : List Formula}
    (shape : token.shape = .call callee arguments)
    (given : captured source .arguments arguments = .ok values) :
    Line source [token] [.call ⟨token.site, callee.text, .plain⟩ values] := by
  refine line_of_value ?_ rfl (by simp [lineEnd, shape])
  rw [Formula.chain_call shape, given]
  refine Outcome.bind_eq_ok.mpr ⟨values, rfl, ?_⟩
  rw [chain]
  rfl

theorem Line.captured (h : Line source tokens formula) (small : shared "s")
    {grammar : Token.Grammar} {place : Place} {cs : List Char}
    (reads : Token.Reads grammar place cs tokens) (here : StandsAt source place.index cs)
    (known : ∀ name ∈ Token.names cs, shared name) {capture : Capture}
    (holds : Token.Holds source' capture cs) :
    ∃ formula', Formula.captured source' grammar capture = .ok [formula'] ∧
      Formula.Matches (.sharing shared) formula formula' := by
  have text : capture.text.toList = cs := by rw [holds.text, String.toList_ofList]
  obtain ⟨place', index, read⟩ := Token.read_capture grammar (text ▸ holds.stands)
  obtain ⟨tokens', reads', carried⟩ := reads.carried here (index ▸ holds.stands) known
  obtain ⟨formula', line, same⟩ := Sheet.Line.carried small h carried
  rw [text, reads'.readFrom_eq] at read
  exact ⟨formula', Formula.captured_ok.mpr (by rw [read]; exact ⟨rfl, line.read⟩), same⟩

theorem captured_parameter {capture : Capture} {letter : Char}
    (holds : Token.Holds source capture [letter]) (alone : ∀ offset,
      Token.Grammar.statements.match? offset [letter] = some ⟨.ok .name, [letter], []⟩)
    (filled : Text.isBlank letter = false) :
    ∃ site : Site, site.text = String.singleton letter ∧
      Formula.captured source .statements capture = .ok [[.name site]] := by
  have text : capture.text.toList = [letter] := by rw [holds.text, String.toList_ofList]
  obtain ⟨place, -, read⟩ := Token.read_capture .statements (text ▸ holds.stands)
  have reads : Token.Reads .statements place [letter]
      [⟨⟨String.ofList [letter], place⟩, .name⟩] := .token filled (alone _) (.done _)
  rw [text, reads.readFrom_eq] at read
  refine ⟨⟨String.ofList [letter], place⟩, rfl, Formula.captured_ok.mpr ?_⟩
  rw [read]
  exact ⟨rfl, (line_of_name rfl).read⟩

theorem captured_nothing {grammar : Token.Grammar} {capture : Capture}
    (holds : Token.Holds source capture []) : Formula.captured source grammar capture = .ok [] := by
  have text : capture.text.toList = [] := by rw [holds.text, String.toList_ofList]
  obtain ⟨place, -, read⟩ := Token.read_capture grammar (text ▸ holds.stands)
  rw [text, Token.readFrom_nil] at read
  refine Formula.captured_ok.mpr ⟨by rw [read], ?_⟩
  rw [read, lines, Formula.rawLines, chain]
  rfl

end Lines

namespace Sheet

-- A word that is free to be bound: not the sequence's, and nowhere in the lines.
structure Fresh (name : String) (head line : List Char) : Prop where
  word : Token.Word name.toList
  small : "s" ≠ name
  large : "S" ≠ name
  unknown : name ∉ Token.names head
  absent : name ∉ Token.names line

theorem Entered.defined_called {sheet : Sheet} {site site' separator : Site} {name : String}
    {named listing written callee arguments : Capture} {parameters : List String}
    {formula : Formula} {values : List Formula} (free : ¬(name = "S" ∨ name = "s"))
    (names : named.text = name) (calls : callee.text = name)
    (lists : readParameters name listing.text.toList = .ok parameters)
    (writes : Formula.captured sheet.source .statements written = .ok [formula])
    (given : Formula.captured sheet.source .arguments arguments = .ok values) :
    Entered sheet [⟨site, .definition (.function named listing written)⟩, ⟨separator, .separator⟩,
      ⟨site', .call callee arguments⟩] (sheet.adding ⟨name, parameters, formula⟩)
      [.formula [.call ⟨site', name, .plain⟩ values]] := by
  subst names
  have entered : sheet.define site (.function named listing written) =
      .ok (sheet.adding ⟨named.text, parameters, formula⟩, []) :=
    define_iff.mpr (.function (fun reserved => free reserved.2) lists writes)
  have line : Line sheet.source [⟨site', .call callee arguments⟩]
      [.call ⟨site', named.text, .plain⟩ values] := calls ▸ line_of_call rfl given
  rw [← List.nil_append [Statement.formula _]]
  exact .definition rfl entered (.last line)

variable {limits : Limits} {outputs : List Output} {x : Float} {shared : String → Prop}
  {head breaks line : List Char} {source source' : String} {tokens lineTokens : List Token}
  {entered next sheet : Sheet} {statements : List Statement} {formula : Formula}

theorem Entered.of_number {place : Place} {statement : Statement} {plots : Nat}
    (h : Entered sheet lineTokens entered [statement])
    (reads : Token.Reads .statements place line lineTokens)
    (single : ∀ c ∈ line, Text.isLineBreak c = false)
    (put : next.outputs plots [statement] = .ok [.number x]) :
    entered = sheet ∧ ∃ formula, statement = .formula formula ∧
      Line sheet.source lineTokens formula := by
  have unseparated := reads.unseparated single
  generalize listed : [statement] = all at h
  cases h with
  | done => contradiction
  | blank shape => exact absurd shape (unseparated _ List.mem_cons_self)
  | line _ shape => exact absurd shape (unseparated _ (by simp))
  | last held =>
    cases listed
    exact ⟨rfl, _, rfl, held⟩
  | @definition _ middle _ token outline rest defined others shape entered later =>
    obtain rfl := reads.definition_last single shape
    obtain ⟨-, rfl⟩ := later.of_nil
    rw [List.append_nil] at listed
    subst listed
    obtain ⟨output, _, own, -, same⟩ := outputs_cons_ok.mp put
    cases same
    cases define_iff.mp entered with
    | plot =>
      obtain ⟨_, -, rest⟩ := Outcome.map_eq_ok.mp own
      cases rest

structure Continued (limits : Limits) (head breaks line : List Char) (outputs : List Output)
    (x : Float) (source : String) (tokens lineTokens : List Token) (entered next : Sheet)
    (statements : List Statement) (formula : Formula) : Prop where
  written : source.toList = head ++ (breaks ++ line)
  ends : Token.EndsInLine head
  broken : breaks ≠ []
  all : ∀ c ∈ breaks, Text.isLineBreak c
  single : ∀ c ∈ line, Text.isLineBreak c = false
  reads : Token.Reads .statements .origin head tokens
  lineReads : Token.Reads .statements ((Place.origin.advanceAll head).advanceAll breaks) line
    lineTokens
  lines : Entered (ofSource source limits) tokens entered statements
  last : Line source lineTokens formula
  valued : Valued entered statements formula next outputs x

theorem carried_head (reads : Token.Reads .statements .origin head tokens)
    {rest rest' : List Char} (here : source.toList = head ++ rest)
    (there : source'.toList = head ++ rest') (known : ∀ name ∈ Token.names head, shared name) :
    List.Forall₂ (Token.Carried shared source source') tokens tokens := by
  obtain ⟨tokens', reads', carried⟩ :=
    reads.carried (standsAt_origin here) (standsAt_origin there) known
  exact reads.unique reads' ▸ carried

theorem reads_broken {place : Place} {rest : List Char}
    (reads : Token.Reads .statements place (head ++ (breaks ++ rest)) tokens)
    (ends : Token.EndsInLine head) (broken : breaks ≠ [])
    (all : ∀ c ∈ breaks, Text.isLineBreak c) (start : ∀ c ∈ rest.head?, Text.isLineBreak c = false) :
    ∃ before separator after, tokens = before ++ separator :: after ∧
      separator.shape = .separator ∧ Token.Reads .statements place head before ∧
      Token.Reads .statements ((place.advanceAll head).advanceAll breaks) rest after := by
  have split : ∃ b more, breaks ++ rest = b :: more ∧ Text.isLineBreak b := by
    cases breaks with
    | nil => contradiction
    | cons b more => exact ⟨b, more ++ rest, rfl, all b List.mem_cons_self⟩
  obtain ⟨b, more, same, isBreak⟩ := split
  rw [same] at reads
  obtain ⟨before, after, rfl, first, second⟩ := reads.of_append_lineBreak ends isBreak
  rw [← same] at second
  obtain ⟨later, rfl, third⟩ := second.of_lineBreaks broken all start
  exact ⟨before, _, later, rfl, rfl, first, third⟩

theorem exists_continued {before line : String}
    (single : ∀ c ∈ line.toList, Text.isLineBreak c = false)
    (written : source.toList = before.toList ++ '\n' :: line.toList)
    (first : (ofSource before limits).runAll.2 = .ok outputs)
    (whole : (ofSource source limits).runAll.2 = .ok (outputs ++ [.number x])) :
    ∃ head breaks tokens lineTokens entered next statements formula,
      before.toList ++ ['\n'] = head ++ breaks ∧
      Continued limits head breaks line.toList outputs x source tokens lineTokens entered next
        statements formula := by
  obtain ⟨head, gap, same, ends, all⟩ := Token.exists_lineBreaks before.toList
  have broken : ∀ c ∈ gap ++ ['\n'], Text.isLineBreak c :=
    List.forall_mem_append.mpr ⟨all, List.forall_mem_singleton.mpr rfl⟩
  have start : ∀ c ∈ line.toList.head?, Text.isLineBreak c = false :=
    fun c head => single c (List.mem_of_mem_head? head)
  rw [same, List.append_assoc, ← List.singleton_append, ← List.append_assoc gap] at written
  obtain ⟨next, statements, parsed, put⟩ := runAll_eq_ok.mp whole
  obtain ⟨tokens, entered, reads, lines, checks⟩ := parse_eq_ok_iff.mp parsed
  change Token.Reads .statements .origin source.toList tokens at reads
  rw [written] at reads
  obtain ⟨tokens, separator, lineTokens, rfl, shape, reads, lineReads⟩ :=
    reads_broken reads ends (by simp) broken start
  obtain ⟨next₀, statements₀, parsed₀, put₀⟩ := runAll_eq_ok.mp first
  obtain ⟨tokens₀, entered₀, reads₀, lines₀, -⟩ := parse_eq_ok_iff.mp parsed₀
  change Token.Reads .statements .origin before.toList tokens₀ at reads₀
  have lines₀ : Entered (ofSource before limits) tokens entered₀ statements₀ := by
    by_cases ended : gap = []
    · rw [same, ended, List.append_nil] at reads₀
      exact reads.unique reads₀ ▸ lines₀
    · rw [same, ← List.append_nil gap] at reads₀
      obtain ⟨tokens', separator', after, rfl, shape', reads', none⟩ :=
        reads_broken reads₀ ends ended all (by simp)
      cases none
      exact reads.unique reads' ▸ lines₀.truncate shape'
  obtain ⟨middle, statements', lines', -, alike⟩ := lines₀.carried
    (show (fun _ => True) "s" from trivial) trivial (kindred_ofSource _ before source limits)
    (carried_head reads same written fun _ _ => trivial)
  obtain ⟨later, rfl, following⟩ := lines'.following shape lines
  have count := outputs_length put
  rw [List.length_append, outputs_length put₀, alike.length_eq, List.length_append,
    List.length_singleton] at count
  -- There is one output more than for the lines before, so the last line makes one statement.
  obtain ⟨statement, rfl⟩ := List.length_eq_one_iff.mp (show later.length = 1 by omega)
  obtain ⟨outputs', rest, putFirst, putLast, listed⟩ := outputs_append_ok.mp put
  have counted : outputs.length = outputs'.length := by
    rw [outputs_length put₀, alike.length_eq, outputs_length putFirst]
  obtain ⟨rfl, rfl⟩ := List.append_inj listed counted
  obtain ⟨rfl, formula, rfl, held⟩ := following.of_number lineReads single putLast
  have coherent := lines'.coherent (coherent_ofSource source limits)
  rw [lines'.source] at held
  exact ⟨head, gap ++ ['\n'], tokens, lineTokens, entered, next, statements', formula,
    by rw [same, List.append_assoc], written, ends, by simp, broken, single, reads, lineReads,
    lines', held, coherent, checks, putFirst, outputs_formula.mp putLast⟩

section Contexts

variable (h : Continued limits head breaks line outputs x source tokens lineTokens entered next
  statements formula)

include h

theorem Continued.replace (small : shared "s") (large : shared "S")
    (known : ∀ name ∈ Token.names head, shared name) {text : List Char} {others : List Token}
    (written : source'.toList = head ++ (breaks ++ text))
    (start : ∀ c ∈ text.head?, Text.isLineBreak c = false)
    (reads : Token.Reads .statements ((Place.origin.advanceAll head).advanceAll breaks) text others) :
    ∃ entered' statements', entered'.source = source' ∧ entered'.Coherent ∧
      Kindred shared entered entered' ∧
      List.Forall₂ (Statement.Matches (.sharing shared)) statements statements' ∧
      ∀ {last next' : Sheet} {formula' : Formula},
        Entered entered' others last [.formula formula'] →
        Valued last statements' formula' next' outputs x →
          (ofSource source' limits).runAll.2 = .ok (outputs ++ [.number x]) := by
  obtain ⟨entered', statements', lines', kin, same⟩ := h.lines.carried small large
    (kindred_ofSource shared source source' limits) (carried_head h.reads h.written written known)
  refine ⟨entered', statements', lines'.source, lines'.coherent (coherent_ofSource source' limits),
    kin, same, fun later valued => ?_⟩
  obtain ⟨b, more, first, isBreak⟩ : ∃ b more, breaks = b :: more ∧ Text.isLineBreak b := by
    obtain ⟨b, more, rfl⟩ := List.exists_cons_of_ne_nil h.broken
    exact ⟨b, more, rfl, h.all b List.mem_cons_self⟩
  have broken := reads.lineBreaks h.broken h.all start
  rw [first, List.cons_append] at broken
  have whole := h.reads.append_lineBreak h.ends isBreak broken
  rw [← List.cons_append, ← first, ← written] at whole
  exact runAll_eq_ok.mpr ⟨_, _, parse_eq_ok_iff.mpr
    ⟨_, _, whole, lines'.append rfl later, valued.checks⟩, valued.put⟩

theorem Continued.read_again (small : shared "s") (known : ∀ name ∈ Token.names line, shared name)
    {place : Place} (stands : StandsAt source' place.index line) :
    ∃ tokens' formula', Token.Reads .statements place line tokens' ∧
      Line source' tokens' formula' ∧ Formula.Matches (.sharing shared) formula formula' := by
  obtain ⟨tokens', reads', carried⟩ :=
    h.lineReads.carried (standsAt_after h.written) stands known
  obtain ⟨formula', last, same⟩ := Line.carried small h.last carried
  exact ⟨tokens', formula', reads', last, same⟩

theorem Continued.bracketed (written : source'.toList = head ++ (breaks ++ '(' :: (line ++ [')']))) :
    (ofSource source' limits).runAll.2 = .ok (outputs ++ [.number x]) := by
  have stands : StandsAt source' ((Place.origin.advanceAll head).advanceAll breaks).index
      (['('] ++ (line ++ [')'])) := standsAt_after written
  have stands := stands.right.left
  rw [← Place.advanceAll_index] at stands
  obtain ⟨tokens', formula', reads, last, matched⟩ :=
    h.read_again (show (fun _ => True) "s" from trivial) (fun _ _ => trivial) stands
  have nested := reads.balance last.spells.isInner 0
  rw [last.spells.nesting] at nested
  have closed := reads.before_closing last.spells.isInner ⟨h.single, 0, nested⟩
  obtain ⟨entered', statements', own, coherent, kin, same, run⟩ :=
    h.replace (show (fun _ => True) "s" from trivial) trivial (fun _ _ => trivial) written
      (by rintro _ ⟨⟩; rfl) (.token rfl rfl closed)
  obtain ⟨next', valued⟩ := h.valued.bracketed kin coherent same matched (fun _ => trivial) _
  rw [← own] at last
  exact run (.last (last.bracketed rfl rfl)) valued

omit h in
theorem Fresh.known {name : String} (fresh : Fresh name head line) :
    (∀ other ∈ Token.names head, other ≠ name) ∧ ∀ other ∈ Token.names line, other ≠ name :=
  ⟨fun _ member same => fresh.unknown (same ▸ member),
    fun _ member same => fresh.absent (same ▸ member)⟩

theorem Continued.defined_called {name : String} (fresh : Fresh name head line)
    (parameters gap body inside : List Char) (names : List String)
    (listed : ∀ c ∈ parameters, Token.isParameterText c)
    (bodyLine : ∀ c ∈ body, Text.isLineBreak c = false) (blank : Token.Blank gap)
    (filled : ∀ c ∈ body.head?, Text.isBlank c = false) (enclosed : Text.Enclosed inside)
    (written : source'.toList = head ++ (breaks ++ (name.toList ++ '(' :: (parameters ++ ')' :: ' ' ::
      '=' :: (' ' :: gap ++ (body ++ (['\n'] ++ (name.toList ++ '(' :: (inside ++ [')'])))))))))
    (lists : readParameters name parameters = .ok names)
    (made : ∀ definition arguments, Token.Holds source' definition body →
      Token.Holds source' arguments inside → ∃ formula' values,
        Formula.captured source' .statements definition = .ok [formula'] ∧
        Formula.captured source' .arguments arguments = .ok values ∧
        ∀ {entered' : Sheet} {statements' : List Statement}, entered'.Coherent →
          Kindred (· ≠ name) entered entered' →
          List.Forall₂ (Statement.Matches (.sharing (· ≠ name))) statements statements' →
          ∀ site, ∃ next', Valued (entered'.adding ⟨name, names, formula'⟩) statements'
            [.call ⟨site, name, .plain⟩ values] next' outputs x) :
    (ofSource source' limits).runAll.2 = .ok (outputs ++ [.number x]) := by
  have opens : Token.Blank (' ' :: gap) := List.forall_mem_cons.mpr ⟨rfl, blank⟩
  obtain ⟨site, named, listing, definition, separator, site', callee, arguments, isName, isListing,
      isBody, calls, isArgument, reads⟩ :=
    Token.Reads.defined_called fresh.word listed bodyLine filled opens enclosed
      (standsAt_after written)
  have start : ∀ c ∈ (name.toList ++ '(' :: (parameters ++ ')' :: ' ' :: '=' :: (' ' :: gap ++
      (body ++ (['\n'] ++ (name.toList ++ '(' :: (inside ++ [')']))))))).head?,
      Text.isLineBreak c = false := by
    obtain ⟨c, cs, same, letter⟩ := fresh.word.head _
    rw [same]
    rintro _ ⟨⟩
    exact Token.isLineBreak_of_isAlpha letter
  obtain ⟨entered', statements', own, coherent, kin, same, run⟩ :=
    h.replace fresh.small fresh.large fresh.known.1 written start reads
  obtain ⟨formula', values, defines, given, valued⟩ := made definition arguments isBody isArgument
  obtain ⟨next', valued⟩ := valued coherent kin same site'
  refine run (Entered.defined_called ?_ ?_ ?_ ?_ ?_ ?_) valued
  · rintro (rfl | rfl)
    · exact fresh.large rfl
    · exact fresh.small rfl
  · rw [isName, String.ofList_toList]
  · rw [calls, String.ofList_toList]
  · rw [isListing, String.toList_ofList]
    exact lists
  · rw [own]
    exact defines
  · rw [own]
    exact given

theorem Continued.called {name : String} (fresh : Fresh name head line)
    (written : source'.toList = head ++ (breaks ++ (name.toList ++ '(' :: ')' :: ' ' :: '=' :: ' ' ::
      (line ++ '\n' :: (name.toList ++ ['(', ')']))))) :
    (ofSource source' limits).runAll.2 = .ok (outputs ++ [.number x]) := by
  obtain ⟨gap, body, rfl, blank, filled⟩ := Token.exists_leading Text.isBlank line
  have known := fresh.known.2
  rw [Token.names_blank blank] at known
  refine h.defined_called fresh [] gap body [] [] (by simp)
    (fun c member => h.single c (List.mem_append_right _ member)) blank filled ⟨by simp, rfl⟩
    (by rw [written]; simp) rfl fun definition arguments isBody nothing => ?_
  have stands := (standsAt_after h.written).right
  rw [← Place.advanceAll_index] at stands
  obtain ⟨formula', read, matched⟩ :=
    h.last.captured fresh.small (h.lineReads.of_blanks blank) stands known isBody
  exact ⟨formula', [], read, captured_nothing nothing, fun coherent kin same site =>
    h.valued.called kin coherent same matched (fun _ => Iff.rfl) fresh.small site⟩

theorem Continued.argument {name : String} (fresh : Fresh name head line)
    (written : source'.toList = head ++ (breaks ++ (name.toList ++ '(' :: 't' :: ')' :: ' ' :: '=' ::
      ' ' :: 't' :: '\n' :: (name.toList ++ '(' :: (line ++ [')']))))) :
    (ofSource source' limits).runAll.2 = .ok (outputs ++ [.number x]) := by
  have balanced := h.lineReads.balance h.last.spells.isInner 0
  rw [h.last.spells.nesting] at balanced
  refine h.defined_called fresh ['t'] [] ['t'] line ["t"] (List.forall_mem_singleton.mpr rfl)
    (List.forall_mem_singleton.mpr rfl) (by simp [Token.Blank]) (by simp [Text.isBlank])
    ⟨h.single, balanced⟩ (by rw [written]; simp) rfl fun definition arguments isBody given => ?_
  obtain ⟨site', text, read⟩ := captured_parameter isBody (fun _ => rfl) rfl
  have reads := h.lineReads.arguments h.last.spells.isInner h.single
  obtain ⟨formula', passed, matched⟩ :=
    h.last.captured fresh.small reads (standsAt_after h.written) fresh.known.2 given
  exact ⟨_, [formula'], read, passed, fun coherent kin same site =>
    h.valued.argument kin coherent same matched (fun _ => Iff.rfl) fresh.small "t" site site' text⟩

end Contexts

section Results

variable {before expression k i : String}

theorem Fresh.of_append (fresh : Fresh k before.toList line)
    (same : before.toList ++ ['\n'] = head ++ breaks) (all : ∀ c ∈ breaks, Text.isLineBreak c) :
    Fresh k head line where
  word := fresh.word
  small := fresh.small
  large := fresh.large
  unknown := by
    have names := Token.names_lineBreaks all head
    rw [← same, Token.names_lineBreaks (List.forall_mem_singleton.mpr rfl)] at names
    rw [← names]
    exact fresh.unknown
  absent := fresh.absent

/-- An expression means the same in every context: on a line of its own, in brackets, as the body
of a new function without parameters and as the argument of a new function that gives its argument
back. -/
theorem runAll_in_context (single : ∀ c ∈ expression.toList, Text.isLineBreak c = false)
    (first : (ofSource before limits).runAll.2 = .ok outputs)
    (whole : (ofSource (before ++ "\n" ++ expression) limits).runAll.2 =
      .ok (outputs ++ [.number x]))
    (freshK : Fresh k before.toList expression.toList)
    (freshI : Fresh i before.toList expression.toList) :
    (ofSource (before ++ "\n(" ++ expression ++ ")") limits).runAll.2 =
        .ok (outputs ++ [.number x]) ∧
      (ofSource (before ++ "\n" ++ k ++ "() = " ++ expression ++ "\n" ++ k ++ "()") limits).runAll.2 =
        .ok (outputs ++ [.number x]) ∧
      (ofSource (before ++ "\n" ++ i ++ "(t) = t\n" ++ i ++ "(" ++ expression ++ ")") limits).runAll.2 =
        .ok (outputs ++ [.number x]) := by
  obtain ⟨head, breaks, tokens, lineTokens, entered, next, statements, formula, same, continued⟩ :=
    exists_continued single (by simp) first whole
  have after (text : List Char) : before.toList ++ '\n' :: text = head ++ (breaks ++ text) := by
    rw [← List.append_assoc, ← same, List.append_assoc]
    rfl
  refine ⟨continued.bracketed ?_, continued.called (freshK.of_append same continued.all) ?_,
    continued.argument (freshI.of_append same continued.all) ?_⟩
  all_goals
    rw [← after]
    simp

theorem runAll_in_context_calls :
    (ofSource ("f(a)=a/2\n1-f(3)" ++ "\n(" ++ " -f( 1/4)*(2+f(f(2)))" ++ ")") {}).runAll.2 =
        .ok [.number (-0.5), .number (-0.3125)] ∧
      (ofSource ("f(a)=a/2\n1-f(3)" ++ "\n" ++ "g" ++ "() = " ++ " -f( 1/4)*(2+f(f(2)))" ++ "\n" ++
          "g" ++ "()") {}).runAll.2 =
        .ok [.number (-0.5), .number (-0.3125)] ∧
      (ofSource ("f(a)=a/2\n1-f(3)" ++ "\n" ++ "t" ++ "(t) = t\n" ++ "t" ++ "(" ++
          " -f( 1/4)*(2+f(f(2)))" ++ ")") {}).runAll.2 =
        .ok [.number (-0.5), .number (-0.3125)] := by
  have first : (ofSource "f(a)=a/2\n1-f(3)" {}).runAll.2 = .ok [.number (-0.5)] := by
    decide +kernel
  have whole : (ofSource ("f(a)=a/2\n1-f(3)" ++ "\n" ++ " -f( 1/4)*(2+f(f(2)))") {}).runAll.2 =
      .ok ([.number (-0.5)] ++ [.number (-0.3125)]) := by
    decide +kernel
  have fresh (name : String) (free : name = "g" ∨ name = "t") :
      Fresh name "f(a)=a/2\n1-f(3)".toList " -f( 1/4)*(2+f(f(2)))".toList := by
    rcases free with rfl | rfl
    all_goals
      exact ⟨⟨by simp, by simp⟩, by decide, by decide, by decide +kernel, by decide +kernel⟩
  exact runAll_in_context (by simp [Text.isLineBreak]) first whole (fresh "g" (.inl rfl)) (fresh "t" (.inr rfl))

end Results

end Sheet

end FormulaSheet
