import FormulaSheet.Proofs.Grammar.Phrase
import FormulaSheet.Proofs.Lexing.Reading
import FormulaSheet.Proofs.Lexing.Spelling

set_option autoImplicit false

namespace FormulaSheet.Token

variable {grammar : Grammar} {place : Place} {cs : List Char} {tokens : List Token}

section Balance

theorem plain_of_isAlpha {c : Char} (h : c.isAlpha) : c ≠ '(' ∧ c ≠ ')' := by
  constructor <;> rintro rfl <;> contradiction

theorem Spelled.balance {shape : Shape} {consumed rest : List Char}
    (h : Spelled shape consumed rest) (inner : shape.isInner) (site : Site) (depth : Nat) :
    Text.balance depth consumed = nesting depth [⟨site, shape⟩] := by
  have quiet (still : nesting depth [⟨site, shape⟩] = some depth)
      (plain : ∀ c ∈ consumed, c ≠ '(' ∧ c ≠ ')') :
      Text.balance depth consumed = nesting depth [⟨site, shape⟩] := by
    rw [still, Text.balance_of_forall plain]
  have enclosed {before : List Char} {arguments : Capture} (plain : ∀ c ∈ before, c ≠ '(' ∧ c ≠ ')')
      (inside : Text.Enclosed arguments.text.toList) :
      Text.balance depth (before ++ '(' :: (arguments.text.toList ++ [')'])) = some depth := by
    have balanced := Text.balance_add inside.balanced (depth + 1)
    simp only [Nat.zero_add] at balanced
    simp [Text.balance_append, Text.balance_of_forall plain, balanced]
  cases h with
  | function | plot | sequence | longSequence | equals => contradiction
  | @call callee arguments gap _ word blank inside =>
    have plain : ∀ c ∈ callee.text.toList ++ gap, c ≠ '(' ∧ c ≠ ')' :=
      List.forall_mem_append.mpr ⟨fun c member => plain_of_isAlpha (word.letters c member),
        fun c member => isBlank_plain (blank c member)⟩
    have balanced := enclosed plain inside
    rw [List.append_assoc] at balanced
    rw [balanced]
    rfl
  | query plain inside =>
    rw [enclosed plain inside]
    rfl
  | @name c cs _ starts goesOn =>
    refine quiet rfl (List.forall_mem_cons.mpr ⟨?_, fun d member => ?_⟩)
    · constructor <;> rintro rfl <;> exact absurd starts (by decide)
    · have more := goesOn d member
      constructor <;> rintro rfl <;> exact absurd more (by decide)
  | number digits =>
    refine quiet rfl fun c member => ?_
    have digit := digits c member
    constructor <;> rintro rfl <;> contradiction
  | operator operation => exact quiet rfl (by cases operation <;> simp [Operation.symbol])
  | newline nonempty breaks =>
    refine quiet rfl fun c member => ?_
    have isBreak := breaks c member
    constructor <;> rintro rfl <;> contradiction
  | comma => exact quiet rfl (by simp)
  | opening => simp [nesting]
  | closing => cases depth <;> simp [nesting]

theorem Reads.balance (h : Reads grammar place cs tokens) (inner : ∀ token ∈ tokens, token.shape.isInner)
    (depth : Nat) : Text.balance depth cs = nesting depth tokens := by
  induction h generalizing depth with
  | done => simp [nesting]
  | @blank place c cs tokens blank _ ih =>
    obtain ⟨left, right⟩ := isBlank_plain blank
    rw [Text.balance_plain left right, ih inner]
  | @token place c cs consumed rest shape tokens filled found _ ih =>
    obtain ⟨first, later⟩ := List.forall_mem_cons.mp inner
    have split : consumed ++ rest = c :: cs := Grammar.match?_append found
    rw [← split, Text.balance_append,
      (Grammar.spelled found).balance first ⟨String.ofList consumed, place⟩]
    have whole := nesting_append depth [⟨⟨String.ofList consumed, place⟩, shape⟩] tokens
    simp only [ih later]
    exact whole.symm

end Balance

variable {offset : Nat} {c : Char} {shape : Shape} {consumed rest : List Char}

theorem Grammar.undefined (inner : shape.isInner)
    (h : Grammar.statements.match? offset cs = some ⟨.ok shape, consumed, rest⟩) :
    ∀ rule ∈ [Rule.function, .plot, .longSequence, .sequence], rule.match? offset cs = none := by
  rw [← List.findSome?_eq_none_iff]
  simp only [Grammar.match?, Grammar.rules, List.findSome?_append, Option.or_assoc] at h
  cases found : [Rule.function, .plot, .longSequence, .sequence].findSome?
      (·.match? offset cs) with
  | none => rfl
  | some other =>
    rw [found] at h
    cases h
    obtain ⟨rule, member, matched⟩ := List.exists_of_findSome?_eq_some found
    obtain ⟨outline, rfl⟩ := Rule.defines member matched
    contradiction

section Arguments

theorem Grammar.arguments_match? (inner : shape.isInner) (inLine : Text.isLineBreak c = false)
    (h : Grammar.statements.match? offset (c :: cs) = some ⟨.ok shape, consumed, rest⟩) :
    Grammar.arguments.match? offset (c :: cs) = some ⟨.ok shape, consumed, rest⟩ := by
  have undefined := Grammar.undefined inner h
  have refused : [Rule.noLongSequence, .noSequence, .noFunction].findSome?
      (·.match? offset (c :: cs)) = none := by
    have fails (rule other : Rule) (same : other.pattern = rule.pattern)
        (failed : rule.match? offset (c :: cs) = none) : other.match? offset (c :: cs) = none := by
      rw [Rule.match?_eq_none] at failed ⊢
      rw [same, failed]
    simp only [List.forall_mem_cons] at undefined
    obtain ⟨function, -, longSequence, sequence, -⟩ := undefined
    rw [List.findSome?_eq_none_iff]
    simp only [List.forall_mem_cons]
    exact ⟨fails .longSequence .noLongSequence rfl longSequence,
      fails .sequence .noSequence rfl sequence, fails .function .noFunction rfl function, by simp⟩
  have newline : [Rule.newline].findSome? (·.match? offset (c :: cs)) = none := by
    rw [List.findSome?_eq_none_iff, List.forall_mem_singleton, Rule.match?_eq_none]
    simp [Rule.newline, Pattern.accepts, Step.element, Element.split, inLine]
  rw [← List.findSome?_eq_none_iff] at undefined
  simp only [Grammar.match?, Grammar.rules, List.findSome?_append, undefined, refused, newline,
    Option.none_or, Option.or_assoc] at h ⊢
  cases value : valueRules.findSome? (·.match? offset (c :: cs)) with
  | some found =>
    rw [value] at h
    exact h
  | none =>
    rw [value, Option.none_or] at h
    simp only [Option.none_or]
    cases bracket : bracketRules.findSome? (·.match? offset (c :: cs)) with
    | none =>
      rw [bracket, Option.none_or] at h
      obtain ⟨rule, member, found⟩ := List.exists_of_findSome?_eq_some h
      cases List.mem_singleton.mp member
      obtain ⟨rfl, -⟩ := spelled_mark found
      contradiction
    | some found =>
      rw [bracket] at h
      cases h
      obtain ⟨rule, member, matched⟩ := List.exists_of_findSome?_eq_some bracket
      have first : c ≠ ',' := by
        rintro rfl
        simp only [bracketRules, List.mem_cons, List.not_mem_nil, or_false] at member
        rcases member with rfl | rfl <;> cases matched
      have comma : (Rule.mark ',' .separator rfl).match? offset (c :: cs) = none := by
        rw [Rule.match?_eq_none]
        simp [Rule.mark, Pattern.accepts, Step.char, Step.element, Element.split, first]
      simp [comma]

theorem Reads.arguments (h : Reads .statements place cs tokens)
    (inner : ∀ token ∈ tokens, token.shape.isInner)
    (line : ∀ c ∈ cs, Text.isLineBreak c = false) : Reads .arguments place cs tokens := by
  induction h with
  | done => exact .done _
  | blank blank _ ih => exact .blank blank (ih inner (List.forall_mem_cons.mp line).2)
  | @token place c cs consumed rest shape tokens filled found _ ih =>
    obtain ⟨first, later⟩ := List.forall_mem_cons.mp inner
    have split : consumed ++ rest = c :: cs := Grammar.match?_append found
    have matched := Grammar.arguments_match? first (line c List.mem_cons_self) found
    rw [← split] at line
    exact .token filled matched (ih later (List.forall_mem_append.mp line).2)

end Arguments

section Closing

structure Closing (cs : List Char) : Prop where
  line : ∀ c ∈ cs, Text.isLineBreak c = false
  closes : ∃ depth, Text.balance depth cs = some 0

theorem Closing.right {before : List Char} (h : Closing (before ++ cs)) : Closing cs := by
  obtain ⟨line, depth, closes⟩ := h
  rw [Text.balance_append] at closes
  obtain ⟨after, -, closes⟩ := Option.bind_eq_some_iff.mp closes
  exact ⟨(List.forall_mem_append.mp line).2, after, closes⟩

theorem Closing.enclosed_keeps (h : Closing ('(' :: cs)) : Element.enclosed.Keeps [')'] cs := by
  obtain ⟨line, depth, closes⟩ := h
  obtain ⟨-, line⟩ := List.forall_mem_cons.mp line
  rw [Text.balance_open] at closes
  have isSome : (splitEnclosed 0 cs).isSome := splitEnclosed_isSome line closes (by omega)
  obtain ⟨⟨inside, later⟩, found⟩ := Option.isSome_iff_exists.mp isSome
  obtain ⟨inLine, balanced, closing⟩ := splitEnclosed_eq_some found
  obtain ⟨after, rfl⟩ : ∃ after, later = ')' :: after := by
    cases later with
    | nil => contradiction
    | cons c after =>
      cases closing
      exact ⟨after, rfl⟩
  have same := splitEnclosed_append found
  subst same
  simp only [Element.Keeps, Element.split, List.append_assoc,
    splitEnclosed_of_balance inLine balanced]
  simp [splitEnclosed, Text.isLineBreak]

theorem Element.one_keeps (accepts : Char → Bool) (c : Char) (cs more : List Char) :
    (one accepts).Keeps more (c :: cs) := by
  by_cases taken : accepts c <;> simp [Keeps, split, taken]

theorem Closing.group_keeps (h : Closing cs) :
    Pattern.Keeps [')'] [.char '(', .keep .enclosed, .char ')'] cs := by
  refine ⟨Element.keeps_of_rejects rfl [] cs, fun text rest split => ?_⟩
  obtain ⟨c, opens, rfl⟩ := Element.takes_of_split split
  cases of_decide_eq_true opens
  rw [← Element.split_append split] at h
  refine ⟨h.enclosed_keeps, fun inside later closed => ⟨?_, fun _ _ _ => trivial⟩⟩
  obtain ⟨-, closing⟩ := Element.takes_of_split closed
  cases later with
  | nil => contradiction
  | cons c later => exact Element.one_keeps _ c later _

theorem Closing.keeps_append {before pattern : Pattern} (refused : before.rejects ')')
    (h : Closing cs)
    (later : ∀ cs, Closing cs → pattern.Keeps [')'] cs) : (before ++ pattern).Keeps [')'] cs := by
  induction before generalizing cs with
  | nil => exact later cs h
  | cons step before ih =>
    simp only [Pattern.rejects, List.all_cons, Bool.and_eq_true] at refused
    refine ⟨Element.keeps_of_rejects refused.1 [] cs, fun text rest split => ?_⟩
    rw [← Element.split_append split] at h
    exact ih refused.2 h.right

theorem Closing.value_keeps (h : Closing cs) {rule : Rule} (member : rule ∈ valueRules) :
    rule.pattern.Keeps [')'] cs := by
  have asked (before : Pattern) (refused : before.rejects ')') :
      Pattern.Keeps [')'] (before ++ [.char '(', .keep .enclosed, .char ')']) cs :=
    h.keeps_append refused fun _ => Closing.group_keeps
  rcases List.mem_append.mp member with member | member
  · simp only [List.mem_cons, List.not_mem_nil, or_false] at member
    rcases member with rfl | rfl | rfl | rfl | rfl | rfl
    · exact asked [.letters, .blanks] (by decide)
    · exact asked [.sequenceName, .blanks, .char '?', .blanks] (by decide)
    · exact asked [.sequenceName, .blanks, .char '!', .blanks] (by decide)
    · exact asked [.sequenceName, .blanks, .char '!', .char '!', .blanks] (by decide)
    · exact Pattern.keeps_of_rejects (by decide) [] cs
    · exact Pattern.keeps_of_rejects (by decide) [] cs
  · obtain ⟨operation, -, rfl⟩ := List.mem_map.mp member
    exact Pattern.keeps_of_rejects (by cases operation <;> decide) [] cs

theorem Closing.stays (h : Closing (c :: cs)) (inner : shape.isInner)
    (found : Grammar.statements.match? offset (c :: cs) = some ⟨.ok shape, consumed, rest⟩)
    {rule : Rule} (member : rule ∈ Grammar.statements.rules) :
    rule.Stays [')'] offset (c :: cs) ⟨.ok shape, consumed, rest⟩ := by
  have undefined := Grammar.undefined inner found
  simp only [Grammar.rules, List.mem_append, List.mem_singleton] at member
  rcases member with (((member | member) | rfl) | member) | rfl
  · refine ⟨fun fails => ?_, fun finds => ?_⟩
    · have spared : rule.pattern.spares ')' := by
        simp only [List.mem_cons, List.not_mem_nil, or_false] at member
        rcases member with rfl | rfl | rfl | rfl <;> decide
      exact Bool.eq_false_iff.mpr fun matched =>
        absurd (Pattern.accepts_of_spares spared matched) (by simp [fails])
    · rw [undefined rule member] at finds
      contradiction
  · exact Rule.stays_of_keeps (h.value_keeps member) _ _
  · exact Rule.stays_of_keeps (Pattern.keeps_of_rejects (by decide) [] _) _ _
  · simp only [bracketRules, List.mem_cons, List.not_mem_nil, or_false] at member
    rcases member with rfl | rfl
    · exact Rule.stays_of_keeps (Pattern.keeps_of_rejects (by decide) [] _) _ _
    · have keeps : (Rule.mark ')' .rightParen rfl).pattern.Keeps [')'] (c :: cs) :=
        ⟨Element.one_keeps _ c cs _, fun _ _ _ => trivial⟩
      exact Rule.stays_of_keeps keeps _ _
  · exact Rule.stays_of_keeps (Pattern.keeps_of_rejects (by decide) [] _) _ _

theorem Reads.before_closing (h : Reads .statements place cs tokens)
    (inner : ∀ token ∈ tokens, token.shape.isInner) (closing : Closing cs) :
    Reads .statements place (cs ++ [')'])
      (tokens ++ [⟨⟨String.ofList [')'], place.advanceAll cs⟩, .rightParen⟩]) := by
  induction h with
  | done place => exact .token rfl rfl (.done _)
  | @blank place c cs tokens blank _ ih =>
    have later : Closing ([c] ++ cs) := closing
    exact .blank blank (ih inner later.right)
  | @token place c cs consumed rest shape tokens filled found _ ih =>
    obtain ⟨first, later⟩ := List.forall_mem_cons.mp inner
    have split : consumed ++ rest = c :: cs := Grammar.match?_append found
    have matched := Grammar.match?_following
      (fun rule member => closing.stays first found member) found
    have after : Closing (consumed ++ rest) := split ▸ closing
    have ih := ih later after.right
    rw [← Place.advanceAll_append, split] at ih
    exact .token filled matched ih

end Closing

section Definitions

theorem Reads.definition_last {token : Token} (h : Reads .statements place cs (token :: tokens))
    (line : ∀ c ∈ cs, Text.isLineBreak c = false) {outline : Outline}
    (shape : token.shape = .definition outline) : tokens = [] := by
  generalize listed : token :: tokens = all at h
  induction h with
  | done => cases listed
  | blank blank _ ih => exact ih (List.forall_mem_cons.mp line).2 listed
  | @token place c cs consumed rest _ others filled found reads _ =>
    cases listed
    have split : consumed ++ rest = c :: cs := Grammar.match?_append found
    rw [← split] at line
    have ended : Ended rest := by
      cases Grammar.spelled found <;> first | assumption | contradiction
    have inLine := (List.forall_mem_append.mp line).2
    cases rest with
    | nil =>
      cases reads
      rfl
    | cons d rest =>
      -- A comma is all that could follow, and no token of a line begins with it.
      rcases ended d rfl with isBreak | rfl
      · rw [inLine d List.mem_cons_self] at isBreak
        contradiction
      · have unread (offset : Nat) : Grammar.statements.match? offset (',' :: rest) = none := rfl
        cases reads with
        | blank blank => contradiction
        | token _ found =>
          rw [unread] at found
          contradiction

end Definitions

end FormulaSheet.Token
