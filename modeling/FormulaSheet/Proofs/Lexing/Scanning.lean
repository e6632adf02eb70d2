import FormulaSheet.Token.Lexer

set_option autoImplicit false

namespace FormulaSheet.Token

def Step.element : Step → Element
  | skip element | keep element => element

section Matches

variable {α : Type} {pattern : Pattern}

def Builder.feed : (step : Step) → Builder α (step :: pattern) → Capture → Builder α pattern
  | .skip _, build, _ => build
  | .keep _, build, capture => build capture

namespace Match

def after (text : List Char) (found : Match α) : Match α :=
  { found with consumed := text ++ found.consumed }

def extend (more : List Char) (found : Match α) : Match α :=
  { found with rest := found.rest ++ more }

end Match

namespace Pattern

theorem scan_cons (step : Step) (build : Builder α (step :: pattern)) (offset : Nat)
    (cs : List Char) :
    scan (step :: pattern) build offset cs =
      (step.element.split cs).bind fun (text, rest) =>
        (scan pattern (build.feed step ⟨offset, String.ofList text⟩)
          (offset + Text.byteLength text) rest).map (.after text) := by
  cases step <;> simp [scan, Step.element, Builder.feed, Option.map_eq_bind] <;>
    rfl

def accepts : Pattern → List Char → Bool
  | [], _ => true
  | step :: pattern, cs => (step.element.split cs).any fun (_, rest) => accepts pattern rest

theorem isSome_scan (build : Builder α pattern) (offset : Nat) (cs : List Char) :
    (pattern.scan build offset cs).isSome = pattern.accepts cs := by
  induction pattern generalizing offset cs with
  | nil => rfl
  | cons step pattern ih =>
    rw [scan_cons, accepts]
    cases step.element.split cs with
    | none => rfl
    | some split => simp [ih]

end Pattern

theorem Rule.match?_eq (rule : Rule) (offset : Nat) (cs : List Char) :
    rule.match? offset cs = (rule.pattern.scan rule.shape offset cs).map fun found =>
      { found with value := found.value found.consumed } := by
  simp only [match?, Option.map_eq_bind]
  rfl

theorem Rule.isSome_match? (rule : Rule) (offset : Nat) (cs : List Char) :
    (rule.match? offset cs).isSome = rule.pattern.accepts cs := by
  rw [match?_eq, Option.isSome_map, Pattern.isSome_scan]

theorem Rule.match?_eq_none {rule : Rule} {offset : Nat} {cs : List Char} :
    rule.match? offset cs = none ↔ rule.pattern.accepts cs = false := by
  rw [← rule.isSome_match? offset cs, Option.isSome_eq_false_iff, Option.isNone_iff_eq_none]

theorem Grammar.forall_rules {P : Rule → Prop} (function : P .function)
    (noFunction : P .noFunction) (plot : P .plot) (sequence : P .sequence)
    (longSequence : P .longSequence) (noSequence : P .noSequence)
    (noLongSequence : P .noLongSequence) (call : P .call) (indexOfTerm : P .indexOfTerm)
    (partialSum : P .partialSum) (indexOfPartialSum : P .indexOfPartialSum) (name : P .name)
    (number : P .number) (operator : ∀ operation, P (.operator operation)) (newline : P .newline)
    (opening : P (.mark '(' .leftParen rfl)) (closing : P (.mark ')' .rightParen rfl))
    (equals : P (.mark '=' .equals rfl)) (comma : P (.mark ',' .separator rfl))
    {grammar : Grammar} : ∀ rule ∈ grammar.rules, P rule := by
  have values : ∀ rule ∈ valueRules, P rule := by
    refine List.forall_mem_append.mpr ⟨?_, List.forall_mem_map.mpr fun operation _ =>
      operator operation⟩
    simp only [List.forall_mem_cons]
    exact ⟨call, indexOfTerm, partialSum, indexOfPartialSum, name, number, List.forall_mem_nil _⟩
  have brackets : ∀ rule ∈ bracketRules, P rule :=
    List.forall_mem_cons.mpr ⟨opening, List.forall_mem_singleton.mpr closing⟩
  cases grammar with
  | statements =>
    simp only [Grammar.rules, List.forall_mem_append, List.forall_mem_cons]
    exact ⟨⟨⟨⟨⟨function, plot, longSequence, sequence, List.forall_mem_nil _⟩, values⟩, newline,
      List.forall_mem_nil _⟩, brackets⟩, equals, List.forall_mem_nil _⟩
  | arguments =>
    simp only [Grammar.rules, List.forall_mem_append, List.forall_mem_cons]
    exact ⟨⟨⟨⟨noLongSequence, noSequence, noFunction, List.forall_mem_nil _⟩, values⟩, comma,
      List.forall_mem_nil _⟩, brackets⟩

end Matches

section Following

def Element.Keeps (more : List Char) (element : Element) (cs : List Char) : Prop :=
  element.split (cs ++ more) = (element.split cs).map fun (text, rest) => (text, rest ++ more)

def Element.rejects (c : Char) : Element → Bool
  | one accepts | oneOrMore accepts | many accepts => !accepts c
  | enclosed => Text.isLineBreak c

theorem refused_of_head?_dropWhile {p : Char → Bool} {cs : List Char} {c : Char}
    (first : c ∈ (cs.dropWhile p).head?) : p c = false := by
  have stop := List.head?_dropWhile_not p cs
  rw [Option.mem_def.mp first] at stop
  simpa using stop

theorem takeWhile_append_cons {p : Char → Bool} {c : Char} (refused : p c = false)
    (cs more : List Char) : (cs ++ c :: more).takeWhile p = cs.takeWhile p := by
  induction cs with
  | nil => simp [refused]
  | cons d cs ih => cases taken : p d <;> simp [taken, ih]

theorem dropWhile_append_cons {p : Char → Bool} {c : Char} (refused : p c = false)
    (cs more : List Char) : (cs ++ c :: more).dropWhile p = cs.dropWhile p ++ c :: more := by
  induction cs with
  | nil => simp [refused]
  | cons d cs ih => cases taken : p d <;> simp [taken, ih]

theorem splitEnclosed_append_lineBreak {c : Char} (isBreak : Text.isLineBreak c) (depth : Nat)
    (cs more : List Char) : splitEnclosed depth (cs ++ c :: more) =
      (splitEnclosed depth cs).map fun (inside, rest) => (inside, rest ++ c :: more) := by
  fun_induction splitEnclosed depth cs with
  | case1 => simp [splitEnclosed, isBreak]
  | case2 depth d cs ended => simp [splitEnclosed, ended]
  | case3 cs inner => simp [splitEnclosed, inner]
  | case4 cs depth inner ih => simp [splitEnclosed, inner, ih, Function.comp_def]
  | case5 depth d cs inner other depth' ih =>
    simp only [List.cons_append, splitEnclosed, inner, other, if_false, Bool.false_eq_true]
    simpa [Function.comp_def, depth'] using congrArg (Option.map _) ih

theorem Element.keeps_of_rejects {element : Element} {c : Char} (refused : element.rejects c)
    (more cs : List Char) : element.Keeps (c :: more) cs := by
  unfold Keeps
  cases element with
  | one accepts =>
    cases cs with
    | nil => simp_all [split, rejects]
    | cons d cs => by_cases taken : accepts d <;> simp [split, taken]
  | oneOrMore accepts =>
    have refused : accepts c = false := by simpa [rejects] using refused
    cases cs with
    | nil => simp [split, refused]
    | cons d cs =>
      by_cases taken : accepts d
      · simp [split, taken, takeWhile_append_cons refused, dropWhile_append_cons refused]
      · simp [split, taken]
  | many accepts =>
    have refused : accepts c = false := by simpa [rejects] using refused
    simp [split, takeWhile_append_cons refused, dropWhile_append_cons refused]
  | enclosed => exact splitEnclosed_append_lineBreak refused 0 cs more

theorem Element.keeps_of_mem {p : Char → Bool} {cs : List Char}
    (stops : ∃ d ∈ cs, p d = false) (more : List Char) : (oneOrMore p).Keeps more cs := by
  obtain ⟨d, member, other⟩ := stops
  obtain ⟨before, after, rfl⟩ := List.append_of_mem member
  have followed : before ++ d :: after ++ more = before ++ d :: (after ++ more) := by simp
  rw [Keeps, followed]
  cases before with
  | nil => simp [split, other]
  | cons c before =>
    simp only [List.cons_append, split, takeWhile_append_cons other, dropWhile_append_cons other]
    cases p c <;> simp

namespace Pattern

def Keeps (more : List Char) : Pattern → List Char → Prop
  | [], _ => True
  | step :: pattern, cs => step.element.Keeps more cs ∧
      ∀ text rest, step.element.split cs = some (text, rest) → Keeps more pattern rest

def rejects (c : Char) (pattern : Pattern) : Bool :=
  pattern.all fun step => step.element.rejects c

theorem keeps_of_rejects {pattern : Pattern} {c : Char} (refused : pattern.rejects c)
    (more cs : List Char) : pattern.Keeps (c :: more) cs := by
  induction pattern generalizing cs with
  | nil => trivial
  | cons step pattern ih =>
    simp only [rejects, List.all_cons, Bool.and_eq_true] at refused
    exact ⟨Element.keeps_of_rejects refused.1 more cs, fun _ rest _ => ih refused.2 rest⟩

theorem scan_following {α : Type} {pattern : Pattern} {more cs : List Char}
    (keeps : pattern.Keeps more cs) (build : Builder α pattern) (offset : Nat) :
    pattern.scan build offset (cs ++ more) =
      (pattern.scan build offset cs).map (.extend more) := by
  induction pattern generalizing offset cs with
  | nil => rfl
  | cons step pattern ih =>
    obtain ⟨first, later⟩ := keeps
    rw [scan_cons, scan_cons, first]
    cases found : step.element.split cs with
    | none => rfl
    | some split =>
      simp only [Option.map_some, Option.bind_some, ih (later split.1 split.2 found),
        Option.map_map]
      rfl

def spares (c : Char) : Pattern → Bool
  | [] => true
  | step :: pattern =>
    (match step.element with
      | .one accepted => !accepted c || !accepts pattern []
      | .oneOrMore accepted => !accepted c
      | .many _ => true
      | .enclosed => false) && spares c pattern

theorem accepts_of_spares {pattern : Pattern} {c : Char} (spared : pattern.spares c)
    {cs : List Char} (h : pattern.accepts (cs ++ [c])) : pattern.accepts cs := by
  induction pattern generalizing cs with
  | nil => rfl
  | cons step pattern ih =>
    simp only [spares, Bool.and_eq_true] at spared
    obtain ⟨here, later⟩ := spared
    simp only [accepts] at h ⊢
    cases element : step.element with
    | one accepted =>
      rw [element] at here h
      cases cs with
      | nil =>
        by_cases taken : accepted c
        · simp_all [Element.split]
        · simp [Element.split, taken] at h
      | cons d cs => by_cases taken : accepted d <;> simp_all [Element.split]
    | oneOrMore accepted =>
      rw [element] at here h
      have refused : accepted c = false := by simpa using here
      cases cs with
      | nil => simp [Element.split, refused] at h
      | cons d cs =>
        by_cases taken : accepted d
        · simp_all [Element.split, dropWhile_append_cons refused]
        · simp [Element.split, taken] at h
    | many accepted =>
      rw [element] at h
      simp only [Element.split, Option.any_some] at h ⊢
      cases refused : accepted c with
      | false =>
        rw [dropWhile_append_cons refused] at h
        exact ih later h
      | true =>
        -- The character is taken only together with the whole text before it.
        rw [List.dropWhile_append] at h
        split at h
        next all =>
          simp only [List.isEmpty_iff] at all
          simpa [refused, all] using h
        · exact ih later h
    | enclosed => simp [element] at here

end Pattern

structure Rule.Stays (more : List Char) (offset : Nat) (cs : List Char)
    (found : Match (Except GrammarFault Shape)) (rule : Rule) : Prop where
  fails : rule.pattern.accepts cs = false → rule.pattern.accepts (cs ++ more) = false
  finds : rule.match? offset cs = some found →
    rule.match? offset (cs ++ more) = some (found.extend more)

theorem Rule.stays_of_keeps {rule : Rule} {more cs : List Char} (keeps : rule.pattern.Keeps more cs)
    (offset : Nat) (found : Match (Except GrammarFault Shape)) :
    rule.Stays more offset cs found := by
  have same : rule.match? offset (cs ++ more) = (rule.match? offset cs).map (.extend more) := by
    rw [match?_eq, match?_eq, Pattern.scan_following keeps, Option.map_map, Option.map_map]
    rfl
  constructor
  · intro fails
    rw [← isSome_match? rule offset] at fails ⊢
    rw [same, Option.isSome_map, fails]
  · intro finds
    rw [same, finds]
    rfl

theorem Grammar.match?_append {grammar : Grammar} {offset : Nat} {cs : List Char}
    {found : Match (Except GrammarFault Shape)} (h : grammar.match? offset cs = some found) :
    found.consumed ++ found.rest = cs := by
  obtain ⟨rule, -, h⟩ := Grammar.exists_rule h
  exact Rule.match?_append h

theorem Grammar.match?_following {grammar : Grammar} {more cs : List Char} {offset : Nat}
    {found : Match (Except GrammarFault Shape)}
    (stays : ∀ rule ∈ grammar.rules, rule.Stays more offset cs found)
    (h : grammar.match? offset cs = some found) :
    grammar.match? offset (cs ++ more) = some (found.extend more) := by
  unfold match? at h ⊢
  generalize grammar.rules = rules at stays h
  induction rules with
  | nil => contradiction
  | cons rule rules ih =>
    obtain ⟨first, later⟩ := List.forall_mem_cons.mp stays
    rw [List.findSome?_cons] at h ⊢
    cases here : rule.match? offset cs with
    | some other =>
      rw [here] at h
      cases h
      rw [first.finds here]
    | none =>
      rw [here] at h
      rw [Rule.match?_eq_none.mpr (first.fails (Rule.match?_eq_none.mp here))]
      exact ih later h

end Following

end FormulaSheet.Token
