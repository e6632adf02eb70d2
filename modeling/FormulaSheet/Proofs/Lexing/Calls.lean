import FormulaSheet.Proofs.Lexing.Groups

set_option autoImplicit false

namespace FormulaSheet

def Query.marks : Query → List Char
  | indexOfTerm => ['?']
  | partialSum => ['!']
  | indexOfPartialSum => ['!', '!']

def Shape.callKind? : Shape → Option CallKind
  | call .. => some .plain
  | query asked _ => some (.query asked)
  | _ => none

namespace Token

/-- What stands before the opening parenthesis of a call that begins at the offset, and the shape
that the call has with its arguments. -/
inductive Heads (offset : Nat) : List Char → CallKind → (Capture → Shape) → Prop
  | plain {name gap : List Char} : Word name → Blank gap →
      Heads offset (name ++ gap) .plain (.call ⟨offset, String.ofList name⟩)
  | query {c : Char} {gap gap' : List Char} (asked : Query) : isSequenceName c → Blank gap →
      Blank gap' → Heads offset (c :: (gap ++ (asked.marks ++ gap'))) (.query asked) (.query asked)

variable {offset : Nat} {head text inside rest gap gap' cs : List Char} {kind : CallKind}
  {shape : Capture → Shape} {c : Char} {asked : Query}

section Heads

theorem takes_blanks (blank : Blank gap) {d : Char} (filled : Text.isBlank d = false)
    (cs : List Char) : Step.blanks.element.Takes gap (d :: cs) :=
  ⟨blank, by rintro _ ⟨⟩; exact filled⟩

theorem exists_mark (asked : Query) :
    ∃ d marks, asked.marks = d :: marks ∧ d ≠ '=' ∧ d ≠ '(' ∧ Text.isBlank d = false ∧
      d.isAlpha = false := by
  cases asked <;> exact ⟨_, _, rfl, by decide⟩

theorem Heads.unopened (heads : Heads offset head kind shape) : '(' ∉ head := by
  have spaced {gap : List Char} (blank : Blank gap) : '(' ∉ gap :=
    fun member => (isBlank_plain (blank _ member)).1 rfl
  cases heads with
  | plain word blank =>
    simp only [List.mem_append, not_or]
    exact ⟨fun member => absurd (word.letters _ member) (by decide), spaced blank⟩
  | @query c _ _ asked named blank blank' =>
    have marked : '(' ∉ asked.marks := by cases asked <;> decide
    have first : '(' ≠ c := by
      rintro rfl
      contradiction
    simp only [List.mem_cons, List.mem_append, not_or]
    exact ⟨first, spaced blank, marked, spaced blank'⟩

theorem accepts_marked {p : Char → Bool} {mark d : Char} {pattern : Pattern} (blank : Blank gap)
    (filled : Text.isBlank d = false) :
    Pattern.accepts (.skip (.one p) :: .blanks :: .char mark :: pattern) (c :: (gap ++ d :: cs)) =
      (p c && d = mark && pattern.accepts cs) := by
  cases taken : p c with
  | false => simp [Pattern.accepts, Step.element, Element.split, taken]
  | true =>
    have first : (Step.skip (.one p)).element.Takes [c] (gap ++ d :: cs) := ⟨c, taken, rfl⟩
    refine (Pattern.accepts_takes first).trans ?_
    rw [Pattern.accepts_takes (takes_blanks blank filled cs)]
    by_cases same : d = mark <;>
      simp [Pattern.accepts, Step.char, Step.element, Element.split, same]

theorem Heads.unassigned (heads : Heads offset head kind shape) (p : Char → Bool)
    (pattern : Pattern) (text : List Char) :
    Pattern.accepts (.skip (.one p) :: .blanks :: .char '=' :: pattern) (head ++ '(' :: text) =
      false := by
  cases heads with
  | @plain name gap word blank =>
    obtain ⟨nonempty, letters⟩ := word
    rcases name with _ | ⟨c, _ | ⟨d, name⟩⟩
    · contradiction
    · exact (accepts_marked blank rfl).trans (by simp)
    · have letter := letters d (by simp)
      have other : d ≠ '=' := by
        rintro rfl
        contradiction
      have none : Blank [] := by simp [Blank]
      refine (accepts_marked none (isBlank_of_isAlpha letter)).trans ?_
      simp [other]
  | @query c gap gap' asked named blank blank' =>
    obtain ⟨d, marks, split, other, -, filled, -⟩ := exists_mark asked
    simp only [split, List.cons_append, List.append_assoc]
    refine (accepts_marked blank filled).trans ?_
    simp [other]

theorem Heads.undefined (heads : Heads offset head kind shape)
    (unnamed : Rule.function.pattern.accepts (head ++ '(' :: text) = false) :
    ∀ rule ∈ [Rule.function, .plot, .longSequence, .sequence],
      rule.pattern.accepts (head ++ '(' :: text) = false := by
  simp only [List.forall_mem_cons]
  exact ⟨unnamed, heads.unassigned _ _ _, heads.unassigned _ _ _, heads.unassigned _ _ _, by simp⟩

theorem accepts_letters {pattern : Pattern} (named : isSequenceName c)
    (ends : ∀ d ∈ cs.head?, d.isAlpha = false) :
    Pattern.accepts (.letters :: pattern) (c :: cs) = pattern.accepts cs := by
  have letter : c.isAlpha := by
    simp only [isSequenceName, Bool.or_eq_true, decide_eq_true_eq] at named
    rcases named with rfl | rfl <;> rfl
  have takes : Step.letters.element.Takes [c] cs :=
    ⟨by simp, List.forall_mem_singleton.mpr letter, ends⟩
  exact Pattern.accepts_takes takes

theorem isAlpha_of_isBlank (space : Text.isBlank c) : c.isAlpha = false := by
  simp only [Text.isBlank, Bool.or_eq_true, decide_eq_true_eq] at space
  rcases space with rfl | rfl <;> decide

theorem asked_unnamed (named : isSequenceName c) (blank : Blank gap) (text : List Char) :
    Rule.function.pattern.accepts (c :: (gap ++ (asked.marks ++ text))) = false ∧
      Rule.call.pattern.accepts (c :: (gap ++ (asked.marks ++ text))) = false := by
  obtain ⟨d, marks, split, -, unopened, filled, notAlpha⟩ := exists_mark asked
  have ends : ∀ e ∈ (gap ++ d :: (marks ++ text)).head?, e.isAlpha = false ∧ e ≠ '(' := by
    intro e first
    cases gap with
    | nil =>
      cases first
      exact ⟨notAlpha, unopened⟩
    | cons _ gap =>
      cases first
      have space := blank e List.mem_cons_self
      exact ⟨isAlpha_of_isBlank space, (isBlank_plain space).1⟩
  have letters := fun e first => (ends e first).1
  rw [split]
  constructor
  · refine (accepts_letters named letters).trans ?_
    cases following : gap ++ d :: (marks ++ text) with
    | nil => rfl
    | cons e more =>
      have other := (ends e (by rw [following]; rfl)).2
      simp [Pattern.accepts, Step.char, Step.element, Element.split, other]
  · refine (accepts_letters named letters).trans ?_
    refine (Pattern.accepts_takes (takes_blanks blank filled _)).trans ?_
    simp [Pattern.accepts, Step.char, Step.element, Element.split, unopened]

end Heads

section Matching

theorem scan_arguments {α : Type} {build : Capture → α} (blank : Blank gap)
    (closes : Text.Closes text inside rest) (offset : Nat) :
    Pattern.scan .arguments build offset (gap ++ '(' :: text) =
      some ⟨build ⟨offset + Text.byteLength (gap ++ ['(']), String.ofList inside⟩,
        gap ++ '(' :: (inside ++ [')']), rest⟩ := by
  obtain ⟨rfl, enclosed⟩ := Text.closes_iff.mp closes
  have group : (Step.keep .enclosed).element.Takes inside (')' :: rest) := ⟨enclosed, rfl⟩
  rw [Text.byteLength_append, ← Nat.add_assoc]
  refine Pattern.scan_step (takes_blanks blank rfl _) ?_
  refine Pattern.scan_step (takes_char '(' _) ?_
  refine Pattern.scan_step group ?_
  exact Pattern.scan_step (takes_char ')' _) rfl

theorem match?_of_scan {rule : Rule} {build : List Char → Except GrammarFault Shape}
    {consumed : List Char} {read : Except GrammarFault Shape}
    (scanned : rule.pattern.scan rule.shape offset cs = some ⟨build, consumed, rest⟩)
    (built : build consumed = read) : rule.match? offset cs = some ⟨read, consumed, rest⟩ := by
  rw [Rule.match?_eq, scanned, ← built]
  rfl

theorem Word.takes (word : Word head) (ends : ∀ d ∈ cs.head?, d.isAlpha = false) :
    Step.letters.element.Takes head cs :=
  ⟨word.nonempty, word.letters, ends⟩

theorem scan_marked {α : Type} {mark : Char} {pattern : Pattern} {build : Builder α pattern}
    {value : α} {consumed : List Char} (named : isSequenceName c) (blank : Blank gap)
    (filled : Text.isBlank mark = false)
    (found : pattern.scan build (offset + Text.byteLength (c :: (gap ++ [mark]))) cs =
      some ⟨value, consumed, rest⟩) :
    Pattern.scan (.sequenceName :: .blanks :: .char mark :: pattern) build offset
      (c :: (gap ++ mark :: cs)) = some ⟨value, c :: (gap ++ mark :: consumed), rest⟩ := by
  have letter : Step.sequenceName.element.Takes [c] (gap ++ mark :: cs) := ⟨c, named, rfl⟩
  refine Pattern.scan_step letter ?_
  refine Pattern.scan_step (takes_blanks blank filled _) ?_
  refine Pattern.scan_step (takes_char mark _) ?_
  have place : offset + Text.byteLength [c] + Text.byteLength gap + Text.byteLength [mark] =
      offset + Text.byteLength (c :: (gap ++ [mark])) := by simp [Nat.add_assoc]
  rw [place]
  exact found

def rule : CallKind → Rule
  | .plain => .call
  | .query .indexOfTerm => .indexOfTerm
  | .query .partialSum => .partialSum
  | .query .indexOfPartialSum => .indexOfPartialSum

theorem Heads.match?_rule (heads : Heads offset head kind shape)
    (closes : Text.Closes text inside rest) :
    (rule kind).match? offset (head ++ '(' :: text) =
      some ⟨.ok (shape ⟨offset + Text.byteLength (head ++ ['(']), String.ofList inside⟩),
        head ++ '(' :: (inside ++ [')']), rest⟩ := by
  cases heads with
  | @plain name gap word blank =>
    have ends : ∀ d ∈ (gap ++ '(' :: text).head?, d.isAlpha = false := by
      intro d first
      cases gap with
      | nil =>
        cases first
        rfl
      | cons _ gap =>
        cases first
        exact isAlpha_of_isBlank (blank d List.mem_cons_self)
    have scanned : Rule.call.pattern.scan Rule.call.shape offset (name ++ (gap ++ '(' :: text)) =
        some ⟨fun _ => .ok (.call ⟨offset, String.ofList name⟩
          ⟨offset + Text.byteLength name + Text.byteLength (gap ++ ['(']), String.ofList inside⟩),
          name ++ (gap ++ '(' :: (inside ++ [')'])), rest⟩ :=
      Pattern.scan_step (word.takes ends) (scan_arguments blank closes _)
    simpa [rule, Nat.add_assoc] using match?_of_scan scanned rfl
  | @query c gap gap' asked named blank blank' =>
    cases asked with
    | indexOfTerm =>
      have scanned : Rule.indexOfTerm.pattern.scan Rule.indexOfTerm.shape offset
          (c :: (gap ++ '?' :: (gap' ++ '(' :: text))) =
          some ⟨fun _ => .ok (.query .indexOfTerm
            ⟨offset + Text.byteLength (c :: (gap ++ ['?'])) + Text.byteLength (gap' ++ ['(']),
              String.ofList inside⟩),
            c :: (gap ++ '?' :: (gap' ++ '(' :: (inside ++ [')']))), rest⟩ :=
        scan_marked named blank rfl (scan_arguments blank' closes _)
      simpa [rule, Query.marks, Nat.add_assoc] using match?_of_scan scanned rfl
    | partialSum =>
      have scanned : Rule.partialSum.pattern.scan Rule.partialSum.shape offset
          (c :: (gap ++ '!' :: (gap' ++ '(' :: text))) =
          some ⟨fun _ => .ok (.query .partialSum
            ⟨offset + Text.byteLength (c :: (gap ++ ['!'])) + Text.byteLength (gap' ++ ['(']),
              String.ofList inside⟩),
            c :: (gap ++ '!' :: (gap' ++ '(' :: (inside ++ [')']))), rest⟩ :=
        scan_marked named blank rfl (scan_arguments blank' closes _)
      simpa [rule, Query.marks, Nat.add_assoc] using match?_of_scan scanned rfl
    | indexOfPartialSum =>
      have scanned : Rule.indexOfPartialSum.pattern.scan Rule.indexOfPartialSum.shape offset
          (c :: (gap ++ '!' :: ('!' :: (gap' ++ '(' :: text)))) =
          some ⟨fun _ => .ok (.query .indexOfPartialSum
            ⟨offset + Text.byteLength (c :: (gap ++ ['!'])) + Text.byteLength ['!'] +
              Text.byteLength (gap' ++ ['(']), String.ofList inside⟩),
            c :: (gap ++ '!' :: ('!' :: (gap' ++ '(' :: (inside ++ [')'])))), rest⟩ :=
        scan_marked named blank rfl
          (Pattern.scan_step (takes_char '!' _) (scan_arguments blank' closes _))
      simpa [rule, Query.marks, Nat.add_assoc] using match?_of_scan scanned rfl

theorem Heads.findSome?_valueRules (heads : Heads offset head kind shape)
    {found : Match (Except GrammarFault Shape)}
    (matched : (rule kind).match? offset (head ++ '(' :: text) = some found) :
    valueRules.findSome? (·.match? offset (head ++ '(' :: text)) = some found := by
  simp only [valueRules, List.cons_append]
  cases heads with
  | plain =>
    have matched : Rule.call.match? offset _ = some found := matched
    rw [List.findSome?_cons, matched]
  | @query c gap gap' asked named blank blank' =>
    have uncalled : Rule.call.match? offset
        (c :: (gap ++ (asked.marks ++ gap')) ++ '(' :: text) = none := by
      rw [Rule.match?_eq_none]
      simpa using (asked_unnamed named blank (gap' ++ '(' :: text)).2
    rw [List.findSome?_cons, uncalled]
    cases asked with
    | indexOfTerm =>
      have matched : Rule.indexOfTerm.match? offset _ = some found := matched
      rw [List.findSome?_cons, matched]
    | partialSum =>
      have matched : Rule.partialSum.match? offset _ = some found := matched
      have other : Rule.indexOfTerm.match? offset
          (c :: (gap ++ (Query.partialSum.marks ++ gap')) ++ '(' :: text) = none := by
        rw [Rule.match?_eq_none, List.cons_append, List.append_assoc, List.append_assoc]
        exact (accepts_marked blank rfl).trans (by simp)
      rw [List.findSome?_cons, other, List.findSome?_cons, matched]
    | indexOfPartialSum =>
      have matched : Rule.indexOfPartialSum.match? offset _ = some found := matched
      have other : Rule.indexOfTerm.match? offset
          (c :: (gap ++ (Query.indexOfPartialSum.marks ++ gap')) ++ '(' :: text) = none := by
        rw [Rule.match?_eq_none, List.cons_append, List.append_assoc, List.append_assoc]
        exact (accepts_marked blank rfl).trans (by simp)
      have single : Rule.partialSum.match? offset
          (c :: (gap ++ (Query.indexOfPartialSum.marks ++ gap')) ++ '(' :: text) = none := by
        rw [Rule.match?_eq_none, List.cons_append, List.append_assoc, List.append_assoc]
        refine (accepts_marked blank rfl).trans ?_
        simp [Pattern.accepts, Pattern.arguments, Step.blanks, Step.char, Step.element,
          Element.split, Text.isBlank]
      rw [List.findSome?_cons, other, List.findSome?_cons, single, List.findSome?_cons, matched]

theorem Heads.grammar_match? (heads : Heads offset head kind shape)
    (unnamed : Rule.function.pattern.accepts (head ++ '(' :: text) = false)
    (closes : Text.Closes text inside rest) (grammar : Grammar) :
    grammar.match? offset (head ++ '(' :: text) =
      some ⟨.ok (shape ⟨offset + Text.byteLength (head ++ ['(']), String.ofList inside⟩),
        head ++ '(' :: (inside ++ [')']), rest⟩ := by
  have undefined := heads.undefined unnamed
  simp only [List.forall_mem_cons] at undefined
  obtain ⟨function, plot, longSequence, sequence, -⟩ := undefined
  have fails {rule : Rule} (refused : rule.pattern.accepts (head ++ '(' :: text) = false) :
      rule.match? offset (head ++ '(' :: text) = none := by
    rw [Rule.match?_eq_none, refused]
  have value := heads.findSome?_valueRules (heads.match?_rule closes)
  cases grammar with
  | statements =>
    simp only [Grammar.match?, Grammar.rules, List.findSome?_append, List.findSome?_cons,
      fails function, fails plot, fails longSequence, fails sequence, value]
    rfl
  | arguments =>
    have noFunction : Rule.noFunction.match? offset (head ++ '(' :: text) = none := fails function
    have noSequence : Rule.noSequence.match? offset (head ++ '(' :: text) = none := fails sequence
    have noLong : Rule.noLongSequence.match? offset (head ++ '(' :: text) = none :=
      fails longSequence
    simp only [Grammar.match?, Grammar.rules, List.findSome?_append, List.findSome?_cons,
      noFunction, noSequence, noLong, value]
    rfl

end Matching

section Calls

variable {grammar : Grammar} {source : String} {place after : Place} {token : Token}
  {before others consumed : List Char}

theorem Heads.starts (heads : Heads offset head kind shape) :
    ∃ c cs, head = c :: cs ∧ Text.isBlank c = false := by
  cases heads with
  | @plain name gap word blank =>
    obtain ⟨nonempty, letters⟩ := word
    cases name with
    | nil => contradiction
    | cons c name =>
      exact ⟨c, name ++ gap, rfl, isBlank_of_isAlpha (letters c List.mem_cons_self)⟩
  | @query c _ _ asked named =>
    refine ⟨c, _, rfl, ?_⟩
    simp only [isSequenceName, Bool.or_eq_true, decide_eq_true_eq] at named
    rcases named with rfl | rfl <;> rfl

theorem next_eq_token (filled : Text.isBlank c = false) :
    next grammar source place (c :: cs) = .token token after rest ↔
      ∃ read consumed, grammar.match? place.index (c :: cs) = some ⟨.ok read, consumed, rest⟩ ∧
        ⟨⟨String.ofList consumed, place⟩, read⟩ = token ∧ place.advanceAll consumed = after := by
  simp only [next, List.takeWhile_cons, List.dropWhile_cons, filled, Bool.false_eq_true, if_false,
    Place.advanceAll_nil]
  split
  · simp_all
  · simp_all
  · simp_all
    tauto

theorem append_opening_inj (first : '(' ∉ before) (second : '(' ∉ others)
    (same : before ++ '(' :: cs = others ++ '(' :: text) : before = others ∧ cs = text := by
  have front {before : List Char} (plain : '(' ∉ before) (cs : List Char) :
      (before ++ '(' :: cs).takeWhile (· ≠ '(') = before := by
    have all : ∀ c ∈ before, decide (c ≠ '(') := fun c member =>
      decide_eq_true fun opens => plain (opens ▸ member)
    rw [List.takeWhile_append_of_pos all]
    simp
  have fronts : before = others := by
    rw [← front first cs, same, front second]
  subst fronts
  exact ⟨rfl, List.cons.inj (List.append_cancel_left same) |>.2⟩

theorem Spelled.group {read : Shape} (h : Spelled read consumed rest)
    (called : read.callKind?.isSome) : ∃ before inside, '(' ∉ before ∧ Text.Enclosed inside ∧
      consumed = before ++ '(' :: (inside ++ [')']) := by
  cases h with
  | @call callee arguments gap _ word blank inside =>
    refine ⟨callee.text.toList ++ gap, _, ?_, inside, by simp⟩
    have heads : Heads 0 (callee.text.toList ++ gap) .plain _ := .plain word blank
    exact heads.unopened
  | query plain inside => exact ⟨_, _, fun member => (plain _ member).1 rfl, inside, rfl⟩
  | _ => contradiction

theorem Heads.callKind? (heads : Heads offset head kind shape) (arguments : Capture) :
    (shape arguments).callKind? = some kind := by
  cases heads <;> rfl

theorem Heads.next_eq (heads : Heads place.index head kind shape)
    (unnamed : Rule.function.pattern.accepts (head ++ '(' :: text) = false)
    (closes : Text.Closes text inside rest) (grammar : Grammar) (source : String) :
    next grammar source place (head ++ '(' :: text) =
      .token ⟨⟨String.ofList (head ++ '(' :: (inside ++ [')'])), place⟩,
          shape ⟨place.index + Text.byteLength (head ++ ['(']), String.ofList inside⟩⟩
        (place.advanceAll (head ++ '(' :: (inside ++ [')']))) rest := by
  have matched := heads.grammar_match? unnamed closes grammar
  obtain ⟨c, cs, rfl, filled⟩ := heads.starts
  exact (next_eq_token filled).mpr ⟨_, _, matched, rfl, rfl⟩

theorem Heads.closes (heads : Heads place.index head kind shape)
    (read : next grammar source place (head ++ '(' :: text) = .token token after rest)
    (called : token.shape.callKind?.isSome) : ∃ inside, Text.Closes text inside rest := by
  have unopened := heads.unopened
  obtain ⟨c, cs, rfl, filled⟩ := heads.starts
  obtain ⟨read, consumed, found, rfl, -⟩ := (next_eq_token filled).mp read
  obtain ⟨before, inside, plain, enclosed, rfl⟩ := (Grammar.spelled found).group called
  have split : before ++ '(' :: (inside ++ [')']) ++ rest = c :: cs ++ '(' :: text :=
    Grammar.match?_append found
  rw [List.append_assoc, List.cons_append, List.append_assoc] at split
  obtain ⟨-, rfl⟩ := append_opening_inj plain unopened split
  exact ⟨inside, Text.closes_iff.mpr ⟨rfl, enclosed⟩⟩

/-- Where a name or a letter of the sequence is followed by an opening parenthesis, and does not
begin the definition of a function, there is a call if and only if a count of parentheses comes
back to zero on the line. The call ends there, and its arguments are the text between the two; the
recursive rule for what stands inside a group, whose choices are ordered, stops at the same place
and fails as a whole where the count does not come to zero. -/
theorem next_call_iff_closes (grammar : Grammar) (source : String)
    (heads : Heads place.index head kind shape)
    (undefined : kind = .plain → Rule.function.match? place.index (head ++ '(' :: text) = none) :
    ((∃ token after rest,
        next grammar source place (head ++ '(' :: text) = .token token after rest ∧
          token.shape.callKind?.isSome) ↔ ∃ inside rest, Text.Closes text inside rest) ∧
      (∀ inside rest, Text.Closes text inside rest →
        (∀ arguments, (shape arguments).callKind? = some kind) ∧
          next grammar source place (head ++ '(' :: text) =
            .token ⟨⟨String.ofList (head ++ '(' :: (inside ++ [')'])), place⟩,
                shape ⟨place.index + Text.byteLength (head ++ ['(']), String.ofList inside⟩⟩
              (place.advanceAll (head ++ '(' :: (inside ++ [')']))) rest) ∧
      (∀ inside rest, Text.Closes text inside rest ↔ text = inside ++ ')' :: rest ∧
        Parsing.Derives Parsing.arguments text (some (')' :: rest))) ∧
      (Parsing.Derives Parsing.argumentsClosed text none ↔
        ¬∃ inside rest, Text.Closes text inside rest) := by
  have unnamed : Rule.function.pattern.accepts (head ++ '(' :: text) = false := by
    cases heads with
    | plain => exact Rule.match?_eq_none.mp (undefined rfl)
    | query asked named blank =>
      simpa using (asked_unnamed named blank (_ ++ '(' :: text)).1
  refine ⟨⟨?_, ?_⟩, fun inside rest closes => ⟨heads.callKind?, ?_⟩, ?_, ?_⟩
  · rintro ⟨token, after, rest, read, called⟩
    obtain ⟨inside, closes⟩ := heads.closes read called
    exact ⟨inside, rest, closes⟩
  · rintro ⟨inside, rest, closes⟩
    exact ⟨_, _, rest, heads.next_eq unnamed closes grammar source, by simp [heads.callKind?]⟩
  · exact heads.next_eq unnamed closes grammar source
  · intro inside rest
    exact Parsing.closes_iff_derives
  · exact Parsing.derives_argumentsClosed_none

theorem next_call_nested :
    next .statements "f (a(2))+1" (.after [])
        (['f', ' '] ++ '(' :: ['a', '(', '2', ')', ')', '+', '1']) =
      .token ⟨⟨String.ofList ['f', ' ', '(', 'a', '(', '2', ')', ')'], .after []⟩,
          .call ⟨0, String.ofList ['f']⟩ ⟨3, String.ofList ['a', '(', '2', ')']⟩⟩
        ((Place.after []).advanceAll ['f', ' ', '(', 'a', '(', '2', ')', ')']) ['+', '1'] ∧
    ¬∃ token after rest,
      next .arguments "S!((2)" (.after []) (['S', '!'] ++ '(' :: ['(', '2', ')']) =
        .token token after rest ∧ token.shape.callKind?.isSome := by
  constructor
  · have word : Word ['f'] := ⟨by simp, List.forall_mem_singleton.mpr rfl⟩
    have heads : Heads 0 (['f'] ++ [' ']) .plain (.call ⟨0, String.ofList ['f']⟩) :=
      .plain word (by simp [Blank, Text.isBlank])
    have closes : Text.Closes ['a', '(', '2', ')', ')', '+', '1'] ['a', '(', '2', ')']
        ['+', '1'] := Text.closes_iff.mpr ⟨rfl, by simp [Text.isLineBreak], rfl⟩
    have spelled := @next_call_iff_closes _ ['a', '(', '2', ')', ')', '+', '1'] _ _ (.after [])
      .statements "f (a(2))+1" heads fun _ => rfl
    exact (spelled.2.1 _ _ closes).2
  · have none : Blank [] := by simp [Blank]
    have heads : Heads 0 ['S', '!'] (.query .partialSum) (.query .partialSum) :=
      .query .partialSum rfl none none
    have spelled := @next_call_iff_closes _ ['(', '2', ')'] _ _ (.after []) .arguments "S!((2)"
      heads (by decide)
    rw [spelled.1, ← splitEnclosed_eq_none]
    rfl

end Calls

end Token

end FormulaSheet
