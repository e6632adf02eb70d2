import FormulaSheet.Proofs.Context.Extension
import FormulaSheet.Proofs.Context.Separating

set_option autoImplicit false

namespace FormulaSheet

def Outline.binds : Outline → List String
  | function name .. => [name.text]
  | plot _ => ["y"]
  | sequence .. => ["S", "s"]

def Shape.binds : Shape → List String
  | definition outline => outline.binds
  | _ => []

def Undefined (name : String) (tokens : List Token) : Prop :=
  ∀ token ∈ tokens, name ∉ token.shape.binds

instance (name : String) (tokens : List Token) : Decidable (Undefined name tokens) :=
  inferInstanceAs (Decidable (∀ token ∈ tokens, name ∉ token.shape.binds))

theorem Shape.Moved.binds {source source' : String} {shape shape' : Shape}
    (moved : shape.Moved source source' shape') : shape'.binds = shape.binds := by
  cases moved with
  | function named => exact congrArg (fun text => [text]) named.text
  | plot | sequence | call | query | plain => rfl

theorem Undefined.of_moved {source source' name : String} {tokens tokens' : List Token}
    (undefined : Undefined name tokens')
    (moved : List.Forall₂ (Token.Moved source source') tokens tokens') : Undefined name tokens := by
  intro token member
  obtain ⟨token', present, alike⟩ := exists_of_forall₂ (List.Forall₂.flip moved) member
  rw [← alike.shape.binds]
  exact undefined token' present

namespace Sheet

variable {shared : String → Prop} {sheet other next : Sheet} {statements : List Statement}

structure Agree (shared : String → Prop) (sheet other : Sheet) : Prop where
  source : other.source = sheet.source
  limits : other.limits = sheet.limits
  sequence : other.sequence? = sheet.sequence?
  symbols : ∀ name, shared name → other.symbols.find? name = sheet.symbols.find? name
  names : ∀ name, shared name →
    (name ∈ other.symbols.definedNames ↔ name ∈ sheet.symbols.definedNames)

section Agreement

theorem Agree.symm (agree : Agree shared sheet other) : Agree shared other sheet :=
  ⟨agree.source.symm, agree.limits.symm, agree.sequence.symm,
    fun name known => (agree.symbols name known).symm, fun name known => (agree.names name known).symm⟩

theorem Agree.trans (first : Agree shared sheet other) (second : Agree shared other next) :
    Agree shared sheet next :=
  ⟨second.source.trans first.source, second.limits.trans first.limits,
    second.sequence.trans first.sequence,
    fun name known => (second.symbols name known).trans (first.symbols name known),
    fun name known => (second.names name known).trans (first.names name known)⟩

theorem Agree.bind (agree : Agree shared sheet other) (name : String) (f : Function) :
    Agree shared { sheet with symbols := sheet.symbols.define name f }
      { other with symbols := other.symbols.define name f } where
  source := agree.source
  limits := agree.limits
  sequence := agree.sequence
  symbols := by
    intro asked known
    rw [SymbolTable.find?_define, SymbolTable.find?_define, agree.symbols asked known]
  names := by
    intro asked known
    rw [SymbolTable.mem_definedNames_define, SymbolTable.mem_definedNames_define,
      agree.names asked known]

theorem Agree.adding (sheet : Sheet) (definition : Definition) :
    Agree (fun name => name ≠ definition.name) sheet (sheet.adding definition) where
  source := rfl
  limits := rfl
  sequence := rfl
  symbols := by
    intro name apart
    rw [Sheet.adding, SymbolTable.find?_define, if_neg apart]
  names := by
    intro name apart
    rw [Sheet.adding, SymbolTable.mem_definedNames_define, or_iff_right apart]

theorem Agree.kindred {all : String → Prop} (agree : Agree (fun _ => True) sheet other)
    (kin : Kindred all other next) : Kindred all sheet next where
  limits := kin.limits.trans agree.limits
  symbols := by
    intro name known
    rw [← agree.symbols name trivial]
    exact kin.symbols known
  names := fun known member => (agree.names _ trivial).mp (kin.names known member)
  sequence := by
    rw [← agree.sequence, ← agree.source]
    exact kin.sequence

theorem Agree.define (agree : Agree shared sheet other) {site : Site} {outline : Outline}
    (known : ∀ name ∈ outline.binds, shared name)
    (entered : sheet.define site outline = .ok (next, statements)) :
    ∃ last, other.define site outline = .ok (last, statements) ∧ Agree shared next last := by
  cases define_iff.mp entered with
  | function free given read =>
    rw [← agree.sequence] at free
    rw [← agree.source] at read
    exact ⟨_, define_iff.mpr (.function free given read), agree.bind _ _⟩
  | plot read =>
    rw [← agree.source] at read
    exact ⟨_, define_iff.mpr (.plot read), agree.bind "y" _⟩
  | sequence free =>
    have large := agree.symbols "S" (known "S" (by simp [Outline.binds]))
    have small := agree.symbols "s" (known "s" (by simp [Outline.binds]))
    have both := (agree.bind "S" .sequence).bind "s" .sequence
    rw [SymbolTable.contains, SymbolTable.contains, ← large, ← small, ← agree.sequence] at free
    exact ⟨_, define_iff.mpr (.sequence free), both.source, both.limits, rfl, both.symbols,
      both.names⟩

theorem Entered.agree {tokens : List Token} (h : Entered sheet tokens next statements)
    (agree : Agree shared sheet other)
    (known : ∀ token ∈ tokens, ∀ name ∈ token.shape.binds, shared name) :
    ∃ last, Entered other tokens last statements ∧ Agree shared next last := by
  induction h generalizing other with
  | done => exact ⟨other, .done other, agree⟩
  | blank shape _ ih =>
    obtain ⟨last, entered, agree⟩ := ih agree (List.forall_mem_cons.mp known).2
    exact ⟨last, .blank shape entered, agree⟩
  | @definition _ _ _ token outline rest _ _ shape entered _ ih =>
    obtain ⟨own, others⟩ := List.forall_mem_cons.mp known
    rw [shape] at own
    obtain ⟨middle, entered, agree⟩ := agree.define own entered
    obtain ⟨last, follows, agree⟩ :=
      ih agree fun token member => others token (skipSeparator_subset rest member)
    exact ⟨last, .definition shape entered follows, agree⟩
  | last held => exact ⟨other, .last (agree.source ▸ held), agree⟩
  | line held shape _ ih =>
    obtain ⟨-, others⟩ := List.forall_mem_append.mp known
    obtain ⟨last, follows, agree'⟩ := ih agree (List.forall_mem_cons.mp others).2
    exact ⟨last, .line (agree.source ▸ held) shape follows, agree'⟩

theorem EntersEach.agree {lines : List (List Token)} (h : EntersEach sheet lines next statements)
    (agree : Agree shared sheet other)
    (known : ∀ line ∈ lines, ∀ token ∈ line, ∀ name ∈ token.shape.binds, shared name) :
    ∃ last, EntersEach other lines last statements ∧ Agree shared next last := by
  induction h generalizing other with
  | nil => exact ⟨other, .nil other, agree⟩
  | cons entered _ ih =>
    obtain ⟨own, others⟩ := List.forall_mem_cons.mp known
    obtain ⟨middle, entered, agree⟩ := entered.agree agree own
    obtain ⟨last, follows, agree⟩ := ih agree others
    exact ⟨last, .cons entered follows, agree⟩

end Agreement

section Sparing

variable {name : String}

structure Spares (name : String) (sheet next : Sheet) : Prop where
  symbol : next.symbols.find? name = sheet.symbols.find? name
  listed : name ∈ next.symbols.definedNames ↔ name ∈ sheet.symbols.definedNames
  sequence : name = "S" ∨ name = "s" → next.sequence? = sheet.sequence?

theorem Spares.refl (name : String) (sheet : Sheet) : Spares name sheet sheet :=
  ⟨rfl, Iff.rfl, fun _ => rfl⟩

theorem Spares.trans (first : Spares name sheet other) (second : Spares name other next) :
    Spares name sheet next :=
  ⟨second.symbol.trans first.symbol, second.listed.trans first.listed,
    fun reserved => (second.sequence reserved).trans (first.sequence reserved)⟩

theorem Spares.bind (sheet : Sheet) {bound : String} (apart : name ≠ bound) (f : Function) :
    Spares name sheet { sheet with symbols := sheet.symbols.define bound f } where
  symbol := by rw [SymbolTable.find?_define, if_neg apart]
  listed := by rw [SymbolTable.mem_definedNames_define, or_iff_right apart]
  sequence := fun _ => rfl

theorem spares_define {site : Site} {outline : Outline} (free : name ∉ outline.binds)
    (entered : sheet.define site outline = .ok (next, statements)) : Spares name sheet next := by
  cases define_iff.mp entered with
  | function | plot => exact .bind sheet (by simpa [Outline.binds] using free) _
  | sequence =>
    simp only [Outline.binds, List.mem_cons, List.not_mem_nil, or_false, not_or] at free
    have both := (Spares.bind sheet free.1 .sequence).trans (.bind _ free.2 .sequence)
    exact ⟨both.symbol, both.listed, fun reserved => absurd reserved (not_or.mpr free)⟩

theorem Entered.spares {tokens : List Token} (h : Entered sheet tokens next statements)
    (undefined : Undefined name tokens) : Spares name sheet next := by
  induction h with
  | done sheet => exact .refl name sheet
  | last => exact .refl name _
  | blank _ _ ih => exact ih (List.forall_mem_cons.mp undefined).2
  | @definition _ _ _ token outline rest _ _ shape entered _ ih =>
    obtain ⟨own, others⟩ := List.forall_mem_cons.mp undefined
    have later := ih fun token member => others token (skipSeparator_subset rest member)
    rw [shape] at own
    exact (spares_define own entered).trans later
  | line _ _ _ ih =>
    exact ih (List.forall_mem_cons.mp (List.forall_mem_append.mp undefined).2).2

theorem EntersEach.spares {lines : List (List Token)} (h : EntersEach sheet lines next statements)
    (undefined : ∀ line ∈ lines, Undefined name line) : Spares name sheet next := by
  induction h with
  | nil sheet => exact .refl name sheet
  | cons entered _ ih =>
    obtain ⟨own, others⟩ := List.forall_mem_cons.mp undefined
    exact (entered.spares own).trans (ih others)

end Sparing

section Moving

variable {token : Token} {named parameters body : Capture}

theorem entered_function (shape : token.shape = .definition (.function named parameters body)) :
    Entered sheet [token] next statements ↔ statements = [] ∧
      ¬(sheet.sequence?.isSome ∧ (named.text = "S" ∨ named.text = "s")) ∧
      ∃ names formula, readParameters named.text parameters.text.toList = .ok names ∧
        Formula.captured sheet.source .statements body = .ok [formula] ∧
        next = sheet.adding ⟨named.text, names, formula⟩ := by
  constructor
  · intro h
    generalize listed : [token] = tokens at h
    cases h with
    | done => contradiction
    | blank isBreak =>
      cases listed
      rw [shape] at isBreak
      contradiction
    | @definition _ middle _ _ outline rest defined others isDefinition entered follows =>
      cases listed
      rw [shape] at isDefinition
      cases isDefinition
      obtain ⟨rfl, rfl⟩ := Entered.of_nil follows
      cases define_iff.mp entered with
      | function free given read => exact ⟨rfl, free, _, _, given, read, rfl⟩
    | last held =>
      subst listed
      have stop := held.unbroken
      simp [Formula.lineEnd, shape] at stop
    | @line _ _ line rest separator formula others held isBreak follows =>
      cases line with
      | nil =>
        cases listed
        rw [shape] at isBreak
        contradiction
      | cons => simp at listed
  · rintro ⟨rfl, free, names, formula, given, read, rfl⟩
    have entered : sheet.define token.site (.function named parameters body) =
        .ok (sheet.adding ⟨named.text, names, formula⟩, []) :=
      define_iff.mpr (.function free given read)
    have only : Entered (sheet.adding ⟨named.text, names, formula⟩) (skipSeparator [])
        (sheet.adding ⟨named.text, names, formula⟩) [] := .done _
    exact .definition shape entered only

theorem Agree.whole {first second : Sheet} {definition : Definition}
    (agree : Agree (fun name => name ≠ definition.name) sheet other)
    (one : Spares definition.name (first.adding definition) sheet)
    (two : Spares definition.name (second.adding definition) other) :
    Agree (fun _ => True) sheet other where
  source := agree.source
  limits := agree.limits
  sequence := agree.sequence
  symbols := by
    intro name _
    by_cases own : name = definition.name
    · rw [own, one.symbol, two.symbol, Sheet.adding, Sheet.adding, SymbolTable.find?_define,
        SymbolTable.find?_define, if_pos rfl, if_pos rfl]
    · exact agree.symbols name own
  names := by
    intro name _
    by_cases own : name = definition.name
    · rw [own, one.listed, two.listed, Sheet.adding, Sheet.adding, SymbolTable.mem_definedNames_define,
        SymbolTable.mem_definedNames_define]
      simp
    · exact agree.names name own

theorem EntersEach.moved {before after front back : List (List Token)}
    (h : EntersEach sheet (before ++ [token] :: after) next statements)
    (shape : token.shape = .definition (.function named parameters body))
    (undefined : ∀ line ∈ before ++ after, Undefined named.text line)
    (same : before ++ after = front ++ back) :
    ∃ last, EntersEach sheet (front ++ [token] :: back) last statements ∧
      Agree (fun _ => True) next last := by
  have known {lines : List (List Token)} (undefined : ∀ line ∈ lines, Undefined named.text line) :
      ∀ line ∈ lines, ∀ token ∈ line, ∀ name ∈ token.shape.binds, name ≠ named.text := by
    rintro line there token member name binds rfl
    exact undefined line there token member binds
  obtain ⟨early, late⟩ := List.forall_mem_append.mp undefined
  obtain ⟨there, first, _, enters, follows, rfl⟩ := h.of_append
  obtain _ | ⟨defined, follows⟩ := follows
  obtain ⟨rfl, free, names, formula, given, read, rfl⟩ := (entered_function shape).mp defined
  -- Without the definition, the lines are the same in both orders.
  obtain ⟨plain, follows', agree⟩ := follows.agree (Agree.adding there _).symm (known late)
  have bare := enters.append follows'
  rw [same] at bare undefined
  obtain ⟨earlier, later⟩ := List.forall_mem_append.mp undefined
  obtain ⟨here, one, two, enters', behind, listed⟩ := bare.of_append
  have free' : ¬(here.sequence?.isSome ∧ (named.text = "S" ∨ named.text = "s")) := by
    rintro ⟨taken, reserved⟩
    rw [(enters'.spares earlier).sequence reserved, ← (enters.spares early).sequence reserved]
      at taken
    exact free ⟨taken, reserved⟩
  have defined' : Entered here [token] (here.adding ⟨named.text, names, formula⟩) [] := by
    rw [enters.source, ← enters'.source] at read
    exact (entered_function shape).mpr ⟨rfl, free', names, formula, given, read, rfl⟩
  obtain ⟨last, behind', agree'⟩ := behind.agree (.adding here ⟨named.text, names, formula⟩) (known later)
  refine ⟨last, ?_, (agree.trans agree').whole (follows.spares late) (behind'.spares later)⟩
  rw [List.nil_append, listed]
  exact enters'.append (.cons defined' behind')

end Moving

section Results

-- The line is the definition of a function by that name, and nothing else.
def DefinesOnly (name line : String) : Prop :=
  ∃ token named parameters body, (Token.readAll .statements line).toExcept = .ok [token] ∧
    token.shape = .definition (.function named parameters body) ∧ named.text = name

theorem DefinesOnly.read {source name line : String} (defines : DefinesOnly name line)
    {tokens : List Token} {place : Place} (stands : StandsAt source place.index line.toList)
    (reads : Token.Reads .statements place line.toList tokens) :
    ∃ token named parameters body, tokens = [token] ∧
      token.shape = .definition (.function named parameters body) ∧ named.text = name := by
  obtain ⟨own, named, parameters, body, alone, shape, rfl⟩ := defines
  obtain ⟨others, read, moved⟩ := reads.alone stands
  rw [read] at alone
  cases alone
  obtain _ | ⟨⟨-, moved⟩, ⟨⟩⟩ := moved
  rename_i token
  rw [shape] at moved
  generalize same : token.shape = there at moved
  cases moved with
  | function text => exact ⟨token, _, _, _, rfl, same, text.text.symm⟩
  | plain bare => contradiction

theorem undefined_of_reads {source name line : String}
    (undefined : Undefined name (Token.readAll .statements line).tokens) {tokens : List Token}
    {place : Place} (stands : StandsAt source place.index line.toList)
    (reads : Token.Reads .statements place line.toList tokens) : Undefined name tokens := by
  obtain ⟨own, read, moved⟩ := reads.alone stands
  rw [read] at undefined
  exact undefined.of_moved moved

theorem Kindred.runAll {source source' : String} {limits : Limits} {tokens tokens' : List Token}
    {entered entered' : Sheet} {statements statements' : List Statement} {outputs : List Output}
    (kin : Kindred (fun _ => True) entered entered')
    (same : List.Forall₂ (Statement.Matches (.sharing fun _ => True)) statements statements')
    (lines : Entered (ofSource source limits) tokens entered statements)
    (checks : Checks entered statements next) (put : next.outputs 0 statements = .ok outputs)
    (reads : Token.Reads .statements .origin source'.toList tokens')
    (lines' : Entered (ofSource source' limits) tokens' entered' statements') :
    (ofSource source' limits).runAll.2 = .ok outputs := by
  have coherent := lines.coherent (coherent_ofSource source limits)
  have coherent' := lines'.coherent (coherent_ofSource source' limits)
  obtain ⟨next', checks', -, -, kin', ⟨rank, ranked⟩, ⟨rank', ranked'⟩⟩ :=
    kin.checks (show (fun _ => True) "s" from trivial) coherent coherent' checks same
      (fun _ _ unshared => absurd trivial unshared)
      (fun _ _ _ _ _ unshared => absurd trivial unshared) (List.forall_mem_nil _)
  rw [List.append_nil] at checks'
  exact runAll_eq_ok.mpr ⟨next', statements', parse_eq_ok_iff.mpr
    ⟨tokens', entered', reads, lines', checks'⟩, kin'.outputs ranked ranked' same put⟩

/-- A definition of a function can be moved to any other line, unless another line defines the same
name: the source puts out the same. -/
theorem runAll_moved {limits : Limits} {before after front back : List String}
    {line name : String} {outputs : List Output}
    (separable : ∀ other ∈ before ++ line :: after, Separable other)
    (defines : DefinesOnly name line)
    (undefined : ∀ other ∈ before ++ after,
      Undefined name (Token.readAll .statements other).tokens)
    (same : before ++ after = front ++ back)
    (ran : (ofSource ("\n".intercalate (before ++ line :: after)) limits).runAll.2 = .ok outputs) :
    (ofSource ("\n".intercalate (front ++ line :: back)) limits).runAll.2 = .ok outputs := by
  have single : ∀ other ∈ front ++ line :: back, ∀ c ∈ other.toList,
      Text.isLineBreak c = false := by
    intro other member
    rw [List.perm_middle.mem_iff, ← same, ← List.perm_middle.mem_iff] at member
    exact (separable other member).single
  obtain ⟨next, statements, parsed, put⟩ := runAll_eq_ok.mp ran
  obtain ⟨tokens, entered, reads, lines, checks⟩ := parse_eq_ok_iff.mp parsed
  obtain ⟨_, readings, enters⟩ := lines.each (by simp) separable (standsAt_whole _) reads
  obtain ⟨early, _, rfl, earlier, readings⟩ := forall₂_append_left readings
  obtain _ | ⟨⟨place, here, own⟩, later⟩ := readings
  rename_i late
  obtain ⟨token, named, parameters, body, rfl, shape, rfl⟩ := defines.read here own
  have others : ReadsEach _ (before ++ after) (early ++ late) := List.rel_append earlier later
  have bare : ∀ tokens ∈ early ++ late, Undefined named.text tokens := by
    intro tokens member
    obtain ⟨other, present, place, stands, reads⟩ := exists_of_forall₂ others member
    exact undefined_of_reads (undefined other present) stands reads
  rw [same] at others
  obtain ⟨up, down, listed, above, below⟩ := forall₂_append_left others
  obtain ⟨last, enters, agree⟩ := enters.moved shape bare listed
  have readings : ReadsEach _ (front ++ line :: back) (up ++ [token] :: down) :=
    List.rel_append above (.cons ⟨place, here, own⟩ below)
  obtain ⟨tokens', entered', statements', reads', lines', kin, alike⟩ :=
    EntersEach.joined (by simp) single readings enters (kindred_ofSource _ _ _ limits)
      (standsAt_whole _)
  exact (agree.kindred kin).runAll alike lines checks put reads' lines'

theorem runAll_moved_last :
    (ofSource ("\n".intercalate ["1-f(3)", "f(a)=a/2", "", "g(b)=f(b)*2", "g(f(2))"]) {}).runAll.2 =
        .ok [.number (-0.5), .number 1] ∧
      (ofSource ("\n".intercalate ["1-f(3)", "", "g(b)=f(b)*2", "g(f(2))", "f(a)=a/2"]) {}).runAll.2 =
        .ok [.number (-0.5), .number 1] := by
  have ran : (ofSource ("\n".intercalate (["1-f(3)"] ++ "f(a)=a/2" ::
      ["", "g(b)=f(b)*2", "g(f(2))"])) {}).runAll.2 = .ok [.number (-0.5), .number 1] := by
    decide +kernel
  have single : ∀ line ∈ ["1-f(3)"] ++ "f(a)=a/2" :: ["", "g(b)=f(b)*2", "g(f(2))"],
      ∀ c ∈ line.toList, Text.isLineBreak c = false := by simp [Text.isLineBreak]
  have nested : ∀ line ∈ ["1-f(3)"] ++ "f(a)=a/2" :: ["", "g(b)=f(b)*2", "g(f(2))"],
      nesting 0 (Token.readAll .statements line).tokens = some 0 := by decide +kernel
  have defines : DefinesOnly "f" "f(a)=a/2" :=
    ⟨⟨⟨"f(a)=a/2", 0, 1, 1⟩, .definition (.function ⟨0, "f"⟩ ⟨2, "a"⟩ ⟨5, "a/2"⟩)⟩, _, _, _,
      by decide +kernel, rfl, rfl⟩
  have undefined : ∀ other ∈ ["1-f(3)"] ++ ["", "g(b)=f(b)*2", "g(f(2))"],
      Undefined "f" (Token.readAll .statements other).tokens := by decide +kernel
  have same : ["1-f(3)"] ++ ["", "g(b)=f(b)*2", "g(f(2))"] =
      ["1-f(3)", "", "g(b)=f(b)*2", "g(f(2))"] ++ [] := rfl
  have moved := runAll_moved (fun line member => ⟨single line member, nested line member⟩) defines
    undefined same ran
  simp only [List.cons_append, List.nil_append] at ran moved
  exact ⟨ran, moved⟩

end Results

end Sheet

end FormulaSheet
