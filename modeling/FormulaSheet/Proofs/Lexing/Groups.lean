import FormulaSheet.Proofs.Lexing.Writing

set_option autoImplicit false

namespace FormulaSheet.Text

-- How many more parentheses the text opens than it closes.
def excess (cs : List Char) : Int :=
  cs.count '(' - cs.count ')'

/-- An opening parenthesis just before the text is closed on its line, after `inside`: the count
that begins with it comes to zero there, and not before. -/
structure Closes (text inside rest : List Char) : Prop where
  split : text = inside ++ ')' :: rest
  line : ∀ c ∈ inside, isLineBreak c = false
  open_before : ∀ before, before <+: inside → excess ('(' :: before) ≠ 0
  closed : excess ('(' :: (inside ++ [')'])) = 0

section Counting

variable {depth after : Nat} {cs : List Char}

@[simp]
theorem excess_nil : excess [] = 0 := rfl

@[simp]
theorem excess_open (cs : List Char) : excess ('(' :: cs) = excess cs + 1 := by
  simp only [excess, List.count_cons_self, List.count_cons_of_ne (by decide : '(' ≠ ')')]
  omega

@[simp]
theorem excess_close (cs : List Char) : excess (')' :: cs) = excess cs - 1 := by
  simp only [excess, List.count_cons_self, List.count_cons_of_ne (by decide : ')' ≠ '(')]
  omega

theorem excess_plain {c : Char} (left : c ≠ '(') (right : c ≠ ')') (cs : List Char) :
    excess (c :: cs) = excess cs := by
  simp only [excess, List.count_cons_of_ne left, List.count_cons_of_ne right]

theorem excess_append (cs ds : List Char) : excess (cs ++ ds) = excess cs + excess ds := by
  simp only [excess, List.count_append]
  omega

theorem excess_of_balance (h : balance depth cs = some after) : depth + excess cs = after := by
  fun_induction balance depth cs with
  | case1 =>
    cases h
    simp
  | case2 depth cs ih =>
    have counted := ih h
    rw [excess_open]
    omega
  | case3 => contradiction
  | case4 cs depth other ih =>
    have counted := ih h
    rw [excess_close]
    omega
  | case5 depth c cs left right ih =>
    have counted := ih h
    rw [excess_plain left right, counted]

theorem balance_of_excess (positive : ∀ before, before <+: cs → depth + 1 + excess before ≠ 0)
    (last : depth + excess cs = after) : balance depth cs = some after := by
  induction cs generalizing depth with
  | nil =>
    rw [excess_nil] at last
    rw [balance_nil]
    exact congrArg some (by omega)
  | cons c cs ih =>
    have later (before : List Char) (within : before <+: cs) :=
      positive (c :: before) ((List.prefix_cons_inj c).mpr within)
    by_cases opens : c = '('
    · subst opens
      rw [balance_open]
      refine ih (fun before within => ?_) ?_
      · have counted := later before within
        rw [excess_open] at counted
        omega
      · rw [excess_open] at last
        omega
    by_cases closes : c = ')'
    · subst closes
      cases depth with
      | zero =>
        have started := later [] List.nil_prefix
        simp at started
      | succ depth =>
        rw [balance_close]
        refine ih (fun before within => ?_) ?_
        · have counted := later before within
          rw [excess_close] at counted
          omega
        · rw [excess_close] at last
          omega
    · rw [balance_plain opens closes]
      refine ih (fun before within => ?_) ?_
      · have counted := later before within
        rwa [excess_plain opens closes] at counted
      · rwa [excess_plain opens closes] at last

theorem closes_iff {text inside rest : List Char} :
    Closes text inside rest ↔ text = inside ++ ')' :: rest ∧ Enclosed inside := by
  constructor
  · rintro ⟨split, line, positive, closed⟩
    refine ⟨split, line, balance_of_excess (fun before within => ?_) ?_⟩
    · have counted := positive before within
      rw [excess_open] at counted
      omega
    · rw [excess_open, excess_append, excess_close] at closed
      simp only [excess_nil] at closed
      omega
  · rintro ⟨split, line, balanced⟩
    refine ⟨split, line, ?_, ?_⟩
    · rintro before ⟨more, rfl⟩
      rw [balance_append] at balanced
      obtain ⟨depth, counted, -⟩ := Option.bind_eq_some_iff.mp balanced
      have counted := excess_of_balance counted
      rw [excess_open]
      omega
    · have counted := excess_of_balance balanced
      rw [excess_open, excess_append, excess_close, excess_nil]
      omega

end Counting

end FormulaSheet.Text

namespace FormulaSheet.Token

theorem splitEnclosed_iff_closes {text inside rest : List Char} :
    splitEnclosed 0 text = some (inside, ')' :: rest) ↔ Text.Closes text inside rest := by
  rw [Text.closes_iff]
  constructor
  · intro found
    obtain ⟨line, balanced, -⟩ := splitEnclosed_eq_some found
    exact ⟨(splitEnclosed_append found).symm, line, balanced⟩
  · rintro ⟨rfl, enclosed⟩
    have takes : Element.enclosed.Takes inside (')' :: rest) := ⟨enclosed, rfl⟩
    exact Element.split_of_takes takes

theorem splitEnclosed_eq_none {text : List Char} :
    splitEnclosed 0 text = none ↔ ¬∃ inside rest, Text.Closes text inside rest := by
  rw [← Option.not_isSome_iff_eq_none, Option.isSome_iff_exists]
  refine not_congr ⟨?_, ?_⟩
  · rintro ⟨⟨inside, rest⟩, found⟩
    obtain ⟨-, -, closing⟩ := splitEnclosed_eq_some found
    cases rest with
    | nil => contradiction
    | cons c rest =>
      cases closing
      exact ⟨inside, rest, splitEnclosed_iff_closes.mp found⟩
  · rintro ⟨inside, rest, closes⟩
    exact ⟨_, splitEnclosed_iff_closes.mpr closes⟩

-- A choice takes its first alternative where it can, a repetition takes all it can, and neither is
-- tried again.
inductive Parsing where
  | char (accepts : Char → Bool)
  | sequence (first second : Parsing)
  | choice (first second : Parsing)
  | many (each : Parsing)
  | unless (unwanted : Parsing)
  -- The rule by the name `balanced`.
  | balanced

namespace Parsing

def balancedRule : Parsing :=
  .choice (.sequence (.char (· = '(')) (.sequence (.many .balanced) (.char (· = ')'))))
    (.sequence
      (.unless (.choice (.char (· = '(')) (.choice (.char (· = ')')) (.char Text.isLineBreak))))
      (.char fun _ => true))

def arguments : Parsing :=
  .many .balanced

def argumentsClosed : Parsing :=
  .sequence arguments (.char (· = ')'))

inductive Derives : Parsing → List Char → Option (List Char) → Prop
  | char {accepts : Char → Bool} {c : Char} {cs : List Char} : accepts c →
      Derives (.char accepts) (c :: cs) (some cs)
  | other {accepts : Char → Bool} {c : Char} {cs : List Char} : accepts c = false →
      Derives (.char accepts) (c :: cs) none
  | ended {accepts : Char → Bool} : Derives (.char accepts) [] none
  | sequence {first second : Parsing} {cs rest : List Char} {result : Option (List Char)} :
      Derives first cs (some rest) → Derives second rest result →
        Derives (.sequence first second) cs result
  | stopped {first second : Parsing} {cs : List Char} : Derives first cs none →
      Derives (.sequence first second) cs none
  | first {first second : Parsing} {cs rest : List Char} : Derives first cs (some rest) →
      Derives (.choice first second) cs (some rest)
  | second {first second : Parsing} {cs : List Char} {result : Option (List Char)} :
      Derives first cs none → Derives second cs result → Derives (.choice first second) cs result
  | more {each : Parsing} {cs rest : List Char} {result : Option (List Char)} :
      Derives each cs (some rest) → Derives (.many each) rest result →
        Derives (.many each) cs result
  | enough {each : Parsing} {cs : List Char} : Derives each cs none →
      Derives (.many each) cs (some cs)
  | unwanted {unwanted : Parsing} {cs rest : List Char} : Derives unwanted cs (some rest) →
      Derives (.unless unwanted) cs none
  | clear {unwanted : Parsing} {cs : List Char} : Derives unwanted cs none →
      Derives (.unless unwanted) cs (some cs)
  | balanced {cs : List Char} {result : Option (List Char)} : Derives balancedRule cs result →
      Derives .balanced cs result

theorem Derives.unique {parsing : Parsing} {cs : List Char} {result other : Option (List Char)}
    (h : Derives parsing cs result) (again : Derives parsing cs other) : other = result := by
  induction h generalizing other with
  | char accepted =>
    cases again with
    | char => rfl
    | other refused => simp [accepted] at refused
  | other refused =>
    cases again with
    | char accepted => simp [accepted] at refused
    | other => rfl
  | ended =>
    cases again
    rfl
  | sequence _ _ ih ih' =>
    cases again with
    | sequence one two =>
      cases ih one
      exact ih' two
    | stopped one => cases ih one
  | stopped _ ih =>
    cases again with
    | sequence one => cases ih one
    | stopped => rfl
  | first _ ih =>
    cases again with
    | first one => exact ih one
    | second one => cases ih one
  | second _ _ ih ih' =>
    cases again with
    | first one => cases ih one
    | second _ two => exact ih' two
  | more _ _ ih ih' =>
    cases again with
    | more one two =>
      cases ih one
      exact ih' two
    | enough one => cases ih one
  | enough _ ih =>
    cases again with
    | more one => cases ih one
    | enough => rfl
  | unwanted _ ih =>
    cases again with
    | unwanted => rfl
    | clear one => cases ih one
  | clear _ ih =>
    cases again with
    | unwanted one => cases ih one
    | clear => rfl
  | balanced _ ih =>
    cases again with
    | balanced one => exact ih one

section Groups

variable {c : Char} {cs text inside rest : List Char}

theorem derives_balanced_nil : Derives .balanced [] none :=
  .balanced (.second (.stopped .ended) (.sequence (.clear (.second .ended (.second .ended .ended)))
    .ended))

theorem derives_balanced_stop (stop : c = ')' ∨ Text.isLineBreak c) :
    Derives .balanced (c :: cs) none := by
  have left : decide (c = '(') = false := by
    rcases stop with rfl | isBreak
    · rfl
    · refine decide_eq_false ?_
      rintro rfl
      contradiction
  have refused : Derives (.choice (.char (· = '(')) (.choice (.char (· = ')'))
      (.char Text.isLineBreak))) (c :: cs) (some cs) := by
    refine .second (.other left) ?_
    by_cases closes : c = ')'
    · exact .first (.char (decide_eq_true closes))
    · exact .second (.other (decide_eq_false closes)) (.char (stop.resolve_left closes))
  exact .balanced (.second (.stopped (.other left)) (.stopped (.unwanted refused)))

theorem derives_balanced_plain (left : c ≠ '(') (right : c ≠ ')')
    (line : Text.isLineBreak c = false) : Derives .balanced (c :: cs) (some cs) := by
  have unwanted : Derives (.choice (.char (· = '(')) (.choice (.char (· = ')'))
      (.char Text.isLineBreak))) (c :: cs) none :=
    .second (.other (decide_eq_false left))
      (.second (.other (decide_eq_false right)) (.other line))
  exact .balanced (.second (.stopped (.other (decide_eq_false left)))
    (.sequence (.clear unwanted) (.char rfl)))

theorem derives_balanced_group (inner : Derives arguments cs (some (')' :: rest))) :
    Derives .balanced ('(' :: cs) (some rest) :=
  .balanced (.first (.sequence (.char rfl) (.sequence inner (.char rfl))))

theorem derives_char_none (missing : text.head? ≠ some c) :
    Derives (.char (· = c)) text none := by
  cases text with
  | nil => exact .ended
  | cons d text =>
    refine .other (decide_eq_false ?_)
    rintro rfl
    exact missing rfl

theorem derives_balanced_open (inner : Derives arguments cs (some rest))
    (unclosed : rest.head? ≠ some ')') : Derives .balanced ('(' :: cs) none :=
  .balanced (.second
    (.sequence (.char rfl) (.sequence inner (derives_char_none unclosed)))
    (.stopped (.unwanted (.first (.char rfl)))))

theorem isSome_splitEnclosed_of_succ {depth : Nat} (h : (splitEnclosed (depth + 1) cs).isSome) :
    (splitEnclosed depth cs).isSome := by
  induction cs generalizing depth with
  | nil => contradiction
  | cons c cs ih =>
    simp only [splitEnclosed] at h ⊢
    split at h
    · contradiction
    next line =>
      rw [if_neg line]
      split at h
      next closes =>
        rw [if_pos closes]
        cases depth with
        | zero => rfl
        | succ depth =>
          simp only [Option.isSome_map] at h ⊢
          exact ih h
      next closes =>
        rw [if_neg closes]
        simp only [Option.isSome_map] at h ⊢
        by_cases opens : c = '('
        · simp only [opens, if_true] at h ⊢
          exact ih h
        · simp only [opens, if_false] at h ⊢
          exact ih h

theorem splitEnclosed_unclosed (unclosed : splitEnclosed 0 cs = none) :
    splitEnclosed 0 ('(' :: cs) = none := by
  refine Option.not_isSome_iff_eq_none.mp fun found => ?_
  have deeper : (splitEnclosed 1 cs).isSome := by
    simpa [splitEnclosed, Text.isLineBreak] using found
  have within := isSome_splitEnclosed_of_succ deeper
  rw [unclosed] at within
  contradiction

theorem splitEnclosed_group (found : splitEnclosed 0 cs = some (inside, ')' :: rest)) :
    splitEnclosed 0 ('(' :: cs) = (splitEnclosed 0 rest).map fun (others, later) =>
      ('(' :: (inside ++ [')']) ++ others, later) := by
  obtain ⟨line, balanced, -⟩ := splitEnclosed_eq_some found
  have split : '(' :: cs = '(' :: (inside ++ [')']) ++ rest := by
    rw [← splitEnclosed_append found]
    simp
  have whole : Text.balance 0 ('(' :: (inside ++ [')'])) = some 0 := by
    rw [Text.balance_open, Text.balance_append, Text.balance_add balanced 1]
    simp
  rw [split]
  refine splitEnclosed_of_balance ?_ whole rest
  exact List.forall_mem_cons.mpr ⟨rfl, List.forall_mem_append.mpr ⟨line, by simp; rfl⟩⟩

def Leaves (found : Option (List Char × List Char)) (rest : List Char) : Prop :=
  match found with
  | some (_, later) => rest = later
  | none => rest.head? ≠ some ')'

theorem leaves_map {found : Option (List Char × List Char)} (taken : List Char) :
    Leaves (found.map fun (others, later) => (taken ++ others, later)) rest ↔
      Leaves found rest := by
  cases found <;> rfl

theorem derives_arguments (text : List Char) :
    ∃ rest, Derives arguments text (some rest) ∧ Leaves (splitEnclosed 0 text) rest := by
  match text with
  | [] => exact ⟨[], .enough derives_balanced_nil, by simp [splitEnclosed, Leaves]⟩
  | c :: cs =>
    by_cases line : Text.isLineBreak c
    · refine ⟨c :: cs, .enough (derives_balanced_stop (.inr line)), ?_⟩
      simp only [splitEnclosed, line, if_true, Leaves]
      rintro ⟨⟩
      contradiction
    by_cases closes : c = ')'
    · subst closes
      refine ⟨_, .enough (derives_balanced_stop (.inl rfl)), ?_⟩
      simp [splitEnclosed, line, Leaves]
    by_cases opens : c = '('
    · subst opens
      obtain ⟨stop, inner, leaves⟩ := derives_arguments cs
      cases found : splitEnclosed 0 cs with
      | none =>
        rw [found] at leaves
        rw [splitEnclosed_unclosed found]
        exact ⟨_, .enough (derives_balanced_open inner leaves), by simp [Leaves]⟩
      | some split =>
        obtain ⟨inside, after⟩ := split
        rw [found] at leaves
        cases leaves
        obtain ⟨-, -, closing⟩ := splitEnclosed_eq_some found
        cases stop with
        | nil => contradiction
        | cons d after =>
          cases closing
          have shorter : after.length < cs.length := by
            rw [← splitEnclosed_append found, List.length_append, List.length_cons]
            omega
          -- What follows the group goes on as a text of its own.
          obtain ⟨rest, further, leaves⟩ := derives_arguments after
          rw [splitEnclosed_group found]
          exact ⟨rest, .more (derives_balanced_group inner) further, (leaves_map _).mpr leaves⟩
    · obtain ⟨rest, further, leaves⟩ := derives_arguments cs
      have plain : Derives .balanced (c :: cs) (some cs) :=
        derives_balanced_plain opens closes (Bool.eq_false_iff.mpr line)
      refine ⟨rest, .more plain further, ?_⟩
      simp only [splitEnclosed, line, closes, opens, if_false, Bool.false_eq_true]
      exact (leaves_map [c]).mpr leaves
termination_by text.length

theorem closes_iff_derives : Text.Closes text inside rest ↔
    text = inside ++ ')' :: rest ∧ Derives arguments text (some (')' :: rest)) := by
  obtain ⟨stop, derives, leaves⟩ := derives_arguments text
  constructor
  · intro closes
    rw [splitEnclosed_iff_closes.mpr closes] at leaves
    cases leaves
    exact ⟨closes.split, derives⟩
  · rintro ⟨split, again⟩
    cases derives.unique again
    cases found : splitEnclosed 0 text with
    | none =>
      rw [found] at leaves
      exact absurd rfl leaves
    | some pair =>
      obtain ⟨others, later⟩ := pair
      rw [found] at leaves
      cases leaves
      have same := (splitEnclosed_append found).trans split
      rw [List.append_cancel_right same] at found
      exact splitEnclosed_iff_closes.mp found

theorem derives_argumentsClosed_none :
    Derives argumentsClosed text none ↔ ¬∃ inside rest, Text.Closes text inside rest := by
  obtain ⟨stop, derives, leaves⟩ := derives_arguments text
  constructor
  · rintro failed ⟨inside, rest, closes⟩
    obtain ⟨-, derives⟩ := closes_iff_derives.mp closes
    have matched : Derives argumentsClosed text (some rest) := .sequence derives (.char rfl)
    cases failed.unique matched
  · intro unclosed
    rw [splitEnclosed_eq_none.mpr unclosed] at leaves
    exact .sequence derives (derives_char_none leaves)

end Groups

end Parsing

end FormulaSheet.Token
