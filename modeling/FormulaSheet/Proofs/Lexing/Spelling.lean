import FormulaSheet.Proofs.Lexing.Scanning

set_option autoImplicit false

namespace FormulaSheet.Text

def balance : Nat → List Char → Option Nat
  | depth, [] => some depth
  | depth, c :: cs =>
    if c = '(' then balance (depth + 1) cs
    else if c = ')' then
      match depth with
      | 0 => none
      | depth + 1 => balance depth cs
    else balance depth cs

@[simp]
theorem balance_nil (depth : Nat) : balance depth [] = some depth := by rw [balance]

@[simp]
theorem balance_open (depth : Nat) (cs : List Char) :
    balance depth ('(' :: cs) = balance (depth + 1) cs := by
  rw [balance.eq_def]
  rfl

@[simp]
theorem balance_close (depth : Nat) (cs : List Char) :
    balance (depth + 1) (')' :: cs) = balance depth cs := by
  rw [balance.eq_def]
  rfl

@[simp]
theorem balance_close_zero (cs : List Char) : balance 0 (')' :: cs) = none := by
  rw [balance.eq_def]
  rfl

theorem balance_plain {c : Char} (left : c ≠ '(') (right : c ≠ ')') (depth : Nat)
    (cs : List Char) : balance depth (c :: cs) = balance depth cs := by
  rw [balance.eq_def]
  simp [left, right]

theorem balance_append (depth : Nat) (cs ds : List Char) :
    balance depth (cs ++ ds) = (balance depth cs).bind (balance · ds) := by
  fun_induction balance depth cs with
  | case1 => simp
  | case2 depth cs ih => simp [ih]
  | case3 => simp
  | case4 cs depth other ih => simp [ih]
  | case5 depth c cs left right ih => simp [balance_plain left right, ih]

theorem balance_of_forall {cs : List Char} (plain : ∀ c ∈ cs, c ≠ '(' ∧ c ≠ ')') (depth : Nat) :
    balance depth cs = some depth := by
  induction cs with
  | nil => rw [balance_nil]
  | cons c cs ih =>
    obtain ⟨⟨left, right⟩, later⟩ := List.forall_mem_cons.mp plain
    rw [balance_plain left right, ih later]

theorem balance_add {depth after : Nat} {cs : List Char} (h : balance depth cs = some after)
    (more : Nat) : balance (depth + more) cs = some (after + more) := by
  fun_induction balance depth cs with
  | case1 => simp_all
  | case2 depth cs ih =>
    rw [balance_open, Nat.add_right_comm]
    exact ih h
  | case3 => contradiction
  | case4 cs depth other ih =>
    rw [Nat.succ_eq_add_one, Nat.add_right_comm, balance_close]
    exact ih h
  | case5 depth c cs left right ih =>
    rw [balance_plain left right]
    exact ih h

-- One line whose parentheses are balanced.
structure Enclosed (cs : List Char) : Prop where
  line : ∀ c ∈ cs, isLineBreak c = false
  balanced : balance 0 cs = some 0

end FormulaSheet.Text

namespace FormulaSheet.Token

section Enclosed

theorem splitEnclosed_eq_some {depth : Nat} {cs inside rest : List Char}
    (h : splitEnclosed depth cs = some (inside, rest)) :
    (∀ c ∈ inside, Text.isLineBreak c = false) ∧ Text.balance depth inside = some 0 ∧
      rest.head? = some ')' := by
  induction cs generalizing depth inside with
  | nil => contradiction
  | cons c cs ih =>
    simp only [splitEnclosed] at h
    split at h
    · contradiction
    next inLine =>
      have first : Text.isLineBreak c = false := by simpa using inLine
      split at h
      next closes =>
        subst closes
        split at h
        · cases h
          exact ⟨by simp, Text.balance_nil 0, rfl⟩
        · obtain ⟨⟨a, b⟩, found, same⟩ := Option.map_eq_some_iff.mp h
          cases same
          obtain ⟨line, balanced, closing⟩ := ih found
          exact ⟨List.forall_mem_cons.mpr ⟨first, line⟩, by simpa using balanced, closing⟩
      next other =>
        obtain ⟨⟨a, b⟩, found, same⟩ := Option.map_eq_some_iff.mp h
        cases same
        obtain ⟨line, balanced, closing⟩ := ih found
        refine ⟨List.forall_mem_cons.mpr ⟨first, line⟩, ?_, closing⟩
        by_cases opens : c = '('
        · simpa [opens] using balanced
        · simpa [Text.balance_plain opens other, opens] using balanced

theorem splitEnclosed_of_balance {depth after : Nat} {inside : List Char}
    (line : ∀ c ∈ inside, Text.isLineBreak c = false)
    (h : Text.balance depth inside = some after) (rest : List Char) :
    splitEnclosed depth (inside ++ rest) =
      (splitEnclosed after rest).map fun (others, later) => (inside ++ others, later) := by
  induction inside generalizing depth with
  | nil => simp_all
  | cons c cs ih =>
    obtain ⟨first, later⟩ := List.forall_mem_cons.mp line
    by_cases opens : c = '('
    · subst opens
      simp [splitEnclosed, first, ih later (by simpa using h), Function.comp_def]
    by_cases closes : c = ')'
    · subst closes
      cases depth with
      | zero => simp at h
      | succ depth => simp [splitEnclosed, first, ih later (by simpa using h), Function.comp_def]
    · rw [Text.balance_plain opens closes] at h
      simp [splitEnclosed, first, opens, closes, ih later h, Function.comp_def]

theorem splitEnclosed_isSome {depth before after : Nat} {cs : List Char}
    (line : ∀ c ∈ cs, Text.isLineBreak c = false) (h : Text.balance before cs = some after)
    (closed : depth + after < before) : (splitEnclosed depth cs).isSome := by
  induction cs generalizing depth before with
  | nil =>
    rw [Text.balance_nil] at h
    cases h
    omega
  | cons c cs ih =>
    obtain ⟨first, later⟩ := List.forall_mem_cons.mp line
    by_cases opens : c = '('
    · subst opens
      rw [Text.balance_open] at h
      have found : (splitEnclosed (depth + 1) cs).isSome := ih later h (by omega)
      simpa [splitEnclosed, first] using found
    by_cases closes : c = ')'
    · subst closes
      cases depth with
      | zero => simp [splitEnclosed, first]
      | succ depth =>
        obtain ⟨before, rfl⟩ : ∃ n, before = n + 1 := ⟨before - 1, by omega⟩
        rw [Text.balance_close] at h
        have found : (splitEnclosed depth cs).isSome := ih later h (by omega)
        simpa [splitEnclosed, first] using found
    · rw [Text.balance_plain opens closes] at h
      simpa [splitEnclosed, first, opens, closes] using ih later h closed

end Enclosed

section Pieces

def Element.Takes : Element → List Char → List Char → Prop
  | one accepts, text, _ => ∃ c, accepts c ∧ text = [c]
  | oneOrMore accepts, text, rest => text ≠ [] ∧ (∀ c ∈ text, accepts c) ∧
      ∀ c ∈ rest.head?, accepts c = false
  | many accepts, text, rest => (∀ c ∈ text, accepts c) ∧ ∀ c ∈ rest.head?, accepts c = false
  | enclosed, text, rest => Text.Enclosed text ∧ rest.head? = some ')'

theorem Element.takes_of_split {element : Element} {cs text rest : List Char}
    (h : element.split cs = some (text, rest)) : element.Takes text rest := by
  have whole (p : Char → Bool) (cs : List Char) :
      (∀ c ∈ cs.takeWhile p, p c) ∧ ∀ c ∈ (cs.dropWhile p).head?, p c = false :=
    ⟨List.all_eq_true.mp List.all_takeWhile, fun _ => refused_of_head?_dropWhile⟩
  cases element with
  | one accepts =>
    cases cs with
    | nil => contradiction
    | cons c cs =>
      simp only [split] at h
      split at h
      next taken =>
        cases h
        exact ⟨c, taken, rfl⟩
      · contradiction
  | oneOrMore accepts =>
    cases cs with
    | nil => contradiction
    | cons c cs =>
      simp only [split] at h
      split at h
      next taken =>
        cases h
        exact ⟨by simp, List.forall_mem_cons.mpr ⟨taken, (whole _ _).1⟩, (whole _ _).2⟩
      · contradiction
  | many accepts =>
    cases h
    exact whole _ _
  | enclosed =>
    obtain ⟨line, balanced, closing⟩ := splitEnclosed_eq_some h
    exact ⟨⟨line, balanced⟩, closing⟩

def Pattern.Gives {α : Type} : (pattern : Pattern) → Builder α pattern → List Char → List Char →
    α → Prop
  | [], build, consumed, _, value => consumed = [] ∧ value = build
  | .skip element :: pattern, build, consumed, rest, value => ∃ text more,
      element.Takes text (more ++ rest) ∧ consumed = text ++ more ∧
        Gives pattern build more rest value
  | .keep element :: pattern, build, consumed, rest, value => ∃ (capture : Capture) (more : _),
      element.Takes capture.text.toList (more ++ rest) ∧
        consumed = capture.text.toList ++ more ∧ Gives pattern (build capture) more rest value

theorem Pattern.gives_of_scan {α : Type} {pattern : Pattern} {build : Builder α pattern}
    {offset : Nat} {cs : List Char} {found : Match α}
    (h : pattern.scan build offset cs = some found) :
    pattern.Gives build found.consumed found.rest found.value := by
  induction pattern generalizing offset cs found with
  | nil =>
    cases h
    exact ⟨rfl, rfl⟩
  | cons step pattern ih =>
    rw [scan_cons] at h
    obtain ⟨⟨text, rest⟩, split, h⟩ := Option.bind_eq_some_iff.mp h
    obtain ⟨more, later, rfl⟩ := Option.map_eq_some_iff.mp h
    have takes := Element.takes_of_split split
    rw [← scan_append later] at takes
    cases step with
    | skip element => exact ⟨text, more.consumed, takes, rfl, ih later⟩
    | keep element =>
      refine ⟨⟨offset, String.ofList text⟩, more.consumed, ?_, ?_, ih later⟩
      · rw [String.toList_ofList]
        exact takes
      · rw [String.toList_ofList]
        rfl

theorem Rule.gives_of_match? {rule : Rule} {offset : Nat} {cs consumed rest : List Char}
    {read : Except GrammarFault Shape} (h : rule.match? offset cs = some ⟨read, consumed, rest⟩) :
    ∃ build, rule.pattern.Gives rule.shape consumed rest build ∧ build consumed = read := by
  rw [match?_eq] at h
  obtain ⟨found, scanned, same⟩ := Option.map_eq_some_iff.mp h
  cases same
  exact ⟨found.value, Pattern.gives_of_scan scanned, rfl⟩

end Pieces

section Tokens

def Blank (cs : List Char) : Prop :=
  ∀ c ∈ cs, Text.isBlank c

structure Word (cs : List Char) : Prop where
  nonempty : cs ≠ []
  letters : ∀ c ∈ cs, c.isAlpha

def Ended (rest : List Char) : Prop :=
  ∀ c ∈ rest.head?, Text.isLineBreak c ∨ c = ','

inductive Spelled : Shape → List Char → List Char → Prop
  | function {name parameters body : Capture} {gap gap' rest : List Char} :
      Word name.text.toList → Blank gap → Blank gap' → Ended rest →
        Spelled (.definition (.function name parameters body))
          (name.text.toList ++ '(' :: (parameters.text.toList ++ ')' ::
            (gap ++ '=' :: (gap' ++ body.text.toList)))) rest
  | plot {body : Capture} {gap gap' rest : List Char} : Blank gap → Blank gap' → Ended rest →
      Spelled (.definition (.plot body)) ('y' :: (gap ++ '=' :: (gap' ++ body.text.toList))) rest
  | sequence {first second : Capture} {c : Char} {gap gap' rest : List Char} :
      Blank gap → Blank gap' → Ended rest →
        Spelled (.definition (.sequence first second none))
          (c :: (gap ++ '=' :: (gap' ++ (first.text.toList ++ ',' :: second.text.toList)))) rest
  | longSequence {first second third : Capture} {c : Char} {gap gap' rest : List Char} :
      Blank gap → Blank gap' → Ended rest →
        Spelled (.definition (.sequence first second (some third)))
          (c :: (gap ++ '=' :: (gap' ++ (first.text.toList ++ ',' ::
            (second.text.toList ++ ',' :: third.text.toList))))) rest
  | call {callee arguments : Capture} {gap rest : List Char} : Word callee.text.toList →
      Blank gap → Text.Enclosed arguments.text.toList →
        Spelled (.call callee arguments)
          (callee.text.toList ++ (gap ++ '(' :: (arguments.text.toList ++ [')']))) rest
  | query {query : Query} {arguments : Capture} {before rest : List Char} :
      (∀ c ∈ before, c ≠ '(' ∧ c ≠ ')') → Text.Enclosed arguments.text.toList →
        Spelled (.query query arguments)
          (before ++ '(' :: (arguments.text.toList ++ [')'])) rest
  | name {c : Char} {cs rest : List Char} : isNameStart c → (∀ d ∈ cs, isNameRest d) →
      (∀ d ∈ rest.head?, isNameRest d = false) → Spelled .name (c :: cs) rest
  | number {value : Float} {cs rest : List Char} : (∀ c ∈ cs, isNumberText c) →
      Spelled (.number value) cs rest
  | operator (operation : Operation) {rest : List Char} :
      Spelled (.operator operation) [operation.symbol] rest
  | newline {cs rest : List Char} : cs ≠ [] → (∀ c ∈ cs, Text.isLineBreak c) →
      Spelled .separator cs rest
  | comma {rest : List Char} : Spelled .separator [','] rest
  | opening {rest : List Char} : Spelled .leftParen ['('] rest
  | closing {rest : List Char} : Spelled .rightParen [')'] rest
  | equals {rest : List Char} : Spelled .equals ['='] rest

theorem isBlank_plain {c : Char} (h : Text.isBlank c) : c ≠ '(' ∧ c ≠ ')' := by
  simp only [Text.isBlank, Bool.or_eq_true, decide_eq_true_eq] at h
  rcases h with rfl | rfl <;> decide

variable {offset : Nat} {cs consumed rest : List Char} {shape : Shape}

theorem readNumber_eq_ok {text : List Char} (h : readNumber text = .ok shape) :
    ∃ value, shape = .number value := by
  unfold readNumber at h
  split at h
  · contradiction
  · split at h
    · cases h
      exact ⟨_, rfl⟩
    · contradiction

theorem gives_arguments {α : Type} {build : Capture → α} {value : α}
    (h : Pattern.Gives .arguments build consumed rest value) :
    ∃ gap arguments, Blank gap ∧ Text.Enclosed arguments.text.toList ∧
      consumed = gap ++ '(' :: (arguments.text.toList ++ [')']) ∧ value = build arguments := by
  obtain ⟨gap, _, ⟨blank, -⟩, rfl, _, _, ⟨_, left, rfl⟩, rfl, arguments, _, ⟨inside, -⟩, rfl,
    _, _, ⟨_, right, rfl⟩, rfl, rfl, rfl⟩ := h
  cases of_decide_eq_true left
  cases of_decide_eq_true right
  exact ⟨gap, arguments, blank, inside, rfl, rfl⟩

theorem spelled_query {query : Query} {marks gap gap' : List Char} {arguments : Capture} {s : Char}
    (named : isSequenceName s) (blank : Blank gap) (marked : ∀ c ∈ marks, c = '?' ∨ c = '!')
    (blank' : Blank gap') (inside : Text.Enclosed arguments.text.toList) :
    Spelled (.query query arguments)
      (s :: (gap ++ (marks ++ (gap' ++ '(' :: (arguments.text.toList ++ [')']))))) rest := by
  have plain : ∀ c ∈ s :: (gap ++ (marks ++ gap')), c ≠ '(' ∧ c ≠ ')' := by
    refine List.forall_mem_cons.mpr ⟨?_, List.forall_mem_append.mpr ⟨?_,
      List.forall_mem_append.mpr ⟨?_, ?_⟩⟩⟩
    · simp only [isSequenceName, Bool.or_eq_true, decide_eq_true_eq] at named
      rcases named with rfl | rfl <;> decide
    · exact fun c member => isBlank_plain (blank c member)
    · intro c member
      rcases marked c member with rfl | rfl <;> decide
    · exact fun c member => isBlank_plain (blank' c member)
  have spelled : Spelled (.query query arguments) _ rest := .query plain inside
  simpa using spelled

theorem spelled_value {rule : Rule} (member : rule ∈ valueRules)
    (h : rule.match? offset cs = some ⟨.ok shape, consumed, rest⟩) :
    Spelled shape consumed rest := by
  obtain ⟨build, gives, value⟩ := Rule.gives_of_match? h
  rcases List.mem_append.mp member with member | member
  · simp only [List.mem_cons, List.not_mem_nil, or_false] at member
    rcases member with rfl | rfl | rfl | rfl | rfl | rfl
    · obtain ⟨callee, _, ⟨nonempty, letters, -⟩, rfl, gives⟩ := gives
      obtain ⟨gap, arguments, blank, inside, rfl, rfl⟩ := gives_arguments gives
      cases value
      exact .call ⟨nonempty, letters⟩ blank inside
    · obtain ⟨_, _, ⟨s, named, rfl⟩, rfl, gap, _, ⟨blank, -⟩, rfl, _, _, ⟨c, asked, rfl⟩, rfl,
        gives⟩ := gives
      obtain ⟨gap', arguments, blank', inside, rfl, rfl⟩ := gives_arguments gives
      cases value
      have marked : ∀ d ∈ [c], d = '?' ∨ d = '!' :=
        List.forall_mem_singleton.mpr (.inl (of_decide_eq_true asked))
      exact spelled_query named blank marked blank' inside
    · obtain ⟨_, _, ⟨s, named, rfl⟩, rfl, gap, _, ⟨blank, -⟩, rfl, _, _, ⟨c, asked, rfl⟩, rfl,
        gives⟩ := gives
      obtain ⟨gap', arguments, blank', inside, rfl, rfl⟩ := gives_arguments gives
      cases value
      have marked : ∀ d ∈ [c], d = '?' ∨ d = '!' :=
        List.forall_mem_singleton.mpr (.inr (of_decide_eq_true asked))
      exact spelled_query named blank marked blank' inside
    · obtain ⟨_, _, ⟨s, named, rfl⟩, rfl, gap, _, ⟨blank, -⟩, rfl, _, _, ⟨c, asked, rfl⟩, rfl,
        _, _, ⟨d, again, rfl⟩, rfl, gives⟩ := gives
      obtain ⟨gap', arguments, blank', inside, rfl, rfl⟩ := gives_arguments gives
      cases value
      have marked : ∀ x ∈ [c, d], x = '?' ∨ x = '!' :=
        List.forall_mem_cons.mpr ⟨.inr (of_decide_eq_true asked),
          List.forall_mem_singleton.mpr (.inr (of_decide_eq_true again))⟩
      exact spelled_query named blank marked blank' inside
    · obtain ⟨_, _, ⟨c, starts, rfl⟩, rfl, text, _, ⟨goesOn, stops⟩, rfl, rfl, rfl⟩ := gives
      cases value
      simpa using Spelled.name starts goesOn stops
    · obtain ⟨text, _, ⟨-, digits, -⟩, rfl, rfl, rfl⟩ := gives
      obtain ⟨value, rfl⟩ := readNumber_eq_ok value
      simpa using Spelled.number digits
  · obtain ⟨operation, -, rfl⟩ := List.mem_map.mp member
    obtain ⟨_, _, ⟨_, symbol, rfl⟩, rfl, rfl, rfl⟩ := gives
    cases of_decide_eq_true symbol
    cases value
    exact .operator operation

theorem ended_of_body {body : List Char}
    (h : Element.Takes (.many (!Text.isLineBreak ·)) body rest) : Ended rest :=
  fun c head => .inl (by simpa using h.2 c head)

theorem ended_of_term {term : List Char} (h : Element.Takes (.many isTermText) term rest) :
    Ended rest := by
  intro c head
  have stop := h.2 c head
  by_cases comma : c = ','
  · exact .inr comma
  · exact .inl (by simpa [isTermText, comma] using stop)

theorem spelled_definition {rule : Rule}
    (member : rule ∈ [Rule.function, .plot, .longSequence, .sequence])
    (h : rule.match? offset cs = some ⟨.ok shape, consumed, rest⟩) :
    Spelled shape consumed rest := by
  obtain ⟨build, gives, value⟩ := Rule.gives_of_match? h
  simp only [List.mem_cons, List.not_mem_nil, or_false] at member
  rcases member with rfl | rfl | rfl | rfl
  · obtain ⟨name, _, ⟨nonempty, letters, -⟩, rfl, _, _, ⟨_, left, rfl⟩, rfl, parameters, _, -, rfl,
      _, _, ⟨_, right, rfl⟩, rfl, gap, _, ⟨blank, -⟩, rfl, _, _, ⟨_, equals, rfl⟩, rfl,
      gap', _, ⟨blank', -⟩, rfl, body, _, written, rfl, rfl, rfl⟩ := gives
    cases of_decide_eq_true left
    cases of_decide_eq_true right
    cases of_decide_eq_true equals
    cases value
    have spelled : Spelled (.definition (.function name parameters body)) _ rest :=
      .function ⟨nonempty, letters⟩ blank blank' (ended_of_body written)
    simpa using spelled
  · obtain ⟨_, _, ⟨_, y, rfl⟩, rfl, gap, _, ⟨blank, -⟩, rfl, _, _, ⟨_, equals, rfl⟩, rfl,
      gap', _, ⟨blank', -⟩, rfl, body, _, written, rfl, rfl, rfl⟩ := gives
    cases of_decide_eq_true y
    cases of_decide_eq_true equals
    cases value
    have spelled : Spelled (.definition (.plot body)) _ rest :=
      .plot blank blank' (ended_of_body written)
    simpa using spelled
  · obtain ⟨_, _, ⟨s, -, rfl⟩, rfl, gap, _, ⟨blank, -⟩, rfl, _, _, ⟨_, equals, rfl⟩, rfl,
      gap', _, ⟨blank', -⟩, rfl, first, _, -, rfl, _, _, ⟨_, comma, rfl⟩, rfl, second, _, -, rfl,
      _, _, ⟨_, comma', rfl⟩, rfl, third, _, written, rfl, rfl, rfl⟩ := gives
    cases of_decide_eq_true equals
    cases of_decide_eq_true comma
    cases of_decide_eq_true comma'
    cases value
    have spelled : Spelled (.definition (.sequence first second (some third))) (s :: _) rest :=
      .longSequence blank blank' (ended_of_term written)
    simpa using spelled
  · obtain ⟨_, _, ⟨s, -, rfl⟩, rfl, gap, _, ⟨blank, -⟩, rfl, _, _, ⟨_, equals, rfl⟩, rfl,
      gap', _, ⟨blank', -⟩, rfl, first, _, -, rfl, _, _, ⟨_, comma, rfl⟩, rfl, second, _, written,
      rfl, rfl, rfl⟩ := gives
    cases of_decide_eq_true equals
    cases of_decide_eq_true comma
    cases value
    have spelled : Spelled (.definition (.sequence first second none)) (s :: _) rest :=
      .sequence blank blank' (ended_of_term written)
    simpa using spelled

theorem spelled_mark {c : Char} {marked : Shape} {plain : marked.captures = []}
    (h : (Rule.mark c marked plain).match? offset cs = some ⟨.ok shape, consumed, rest⟩) :
    shape = marked ∧ consumed = [c] := by
  obtain ⟨build, gives, value⟩ := Rule.gives_of_match? h
  obtain ⟨_, _, ⟨_, same, rfl⟩, rfl, rfl, rfl⟩ := gives
  cases of_decide_eq_true same
  cases value
  exact ⟨rfl, rfl⟩

theorem spelled_bracket {rule : Rule} (member : rule ∈ bracketRules)
    (h : rule.match? offset cs = some ⟨.ok shape, consumed, rest⟩) :
    Spelled shape consumed rest := by
  simp only [bracketRules, List.mem_cons, List.not_mem_nil, or_false] at member
  rcases member with rfl | rfl
  · obtain ⟨rfl, rfl⟩ := spelled_mark h
    exact .opening
  · obtain ⟨rfl, rfl⟩ := spelled_mark h
    exact .closing

theorem Rule.shape_of_bounded {rule : Rule} {P : Shape → Prop}
    (every : Pattern.Bounded (fun read _ => ∀ text shape, read text = .ok shape → P shape)
      rule.pattern rule.shape 0)
    (h : rule.match? offset cs = some ⟨.ok shape, consumed, rest⟩) : P shape := by
  rw [match?_eq] at h
  obtain ⟨found, scanned, same⟩ := Option.map_eq_some_iff.mp h
  obtain ⟨_, reads, -⟩ := Pattern.exists_fits_of_bounded every scanned
  exact reads _ _ (congrArg Match.value same)

theorem Rule.not_ok {rule : Rule} (member : rule ∈ [noLongSequence, noSequence, noFunction])
    (h : rule.match? offset cs = some ⟨.ok shape, consumed, rest⟩) : False := by
  simp only [List.mem_cons, List.not_mem_nil, or_false] at member
  rcases member with rfl | rfl | rfl
  · refine shape_of_bounded (P := fun _ => False) ?_ h
    exact fun _ _ _ => nofun
  · refine shape_of_bounded (P := fun _ => False) ?_ h
    exact fun _ _ => nofun
  · refine shape_of_bounded (P := fun _ => False) ?_ h
    exact fun _ _ _ => nofun

theorem Rule.defines {rule : Rule} (member : rule ∈ [function, plot, longSequence, sequence])
    (h : rule.match? offset cs = some ⟨.ok shape, consumed, rest⟩) :
    ∃ outline, shape = .definition outline := by
  simp only [List.mem_cons, List.not_mem_nil, or_false] at member
  rcases member with rfl | rfl | rfl | rfl
  · refine shape_of_bounded (P := fun shape => ∃ outline, shape = .definition outline) ?_ h
    rintro name parameters body _ _ ⟨⟩
    exact ⟨_, rfl⟩
  · refine shape_of_bounded (P := fun shape => ∃ outline, shape = .definition outline) ?_ h
    rintro body _ _ ⟨⟩
    exact ⟨_, rfl⟩
  · refine shape_of_bounded (P := fun shape => ∃ outline, shape = .definition outline) ?_ h
    rintro first second third _ _ ⟨⟩
    exact ⟨_, rfl⟩
  · refine shape_of_bounded (P := fun shape => ∃ outline, shape = .definition outline) ?_ h
    rintro first second _ _ ⟨⟩
    exact ⟨_, rfl⟩

theorem Grammar.spelled {grammar : Grammar}
    (h : grammar.match? offset cs = some ⟨.ok shape, consumed, rest⟩) :
    Spelled shape consumed rest := by
  obtain ⟨rule, member, found⟩ := Grammar.exists_rule h
  cases grammar with
  | statements =>
    simp only [Grammar.rules, List.mem_append, List.mem_singleton] at member
    rcases member with (((member | member) | rfl) | member) | rfl
    · exact spelled_definition member found
    · exact spelled_value member found
    · obtain ⟨build, gives, value⟩ := Rule.gives_of_match? found
      obtain ⟨text, _, ⟨nonempty, breaks, -⟩, rfl, rfl, rfl⟩ := gives
      cases value
      simpa using Spelled.newline nonempty breaks
    · exact spelled_bracket member found
    · obtain ⟨rfl, rfl⟩ := spelled_mark found
      exact .equals
  | arguments =>
    simp only [Grammar.rules, List.mem_append, List.mem_singleton] at member
    rcases member with ((member | member) | rfl) | member
    · exact (Rule.not_ok member found).elim
    · exact spelled_value member found
    · obtain ⟨rfl, rfl⟩ := spelled_mark found
      exact .comma
    · exact spelled_bracket member found

end Tokens

end FormulaSheet.Token
