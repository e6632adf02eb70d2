import FormulaSheet.Proofs.Lexing.Reading
import FormulaSheet.Proofs.Lexing.Spelling
import Mathlib.Data.List.TakeWhile

set_option autoImplicit false

namespace FormulaSheet.Token

def names : List Char → List String
  | [] => []
  | c :: cs =>
    if isNameStart c then
      String.ofList (c :: cs.takeWhile isNameRest) :: names (cs.dropWhile isNameRest)
    else names cs
termination_by cs => cs.length
decreasing_by
  · have := (List.dropWhile_suffix isNameRest (l := cs)).length_le
    simp only [List.length_cons]
    omega
  · simp

section Names

theorem names_start {c : Char} (starts : isNameStart c) (cs : List Char) :
    names (c :: cs) =
      String.ofList (c :: cs.takeWhile isNameRest) :: names (cs.dropWhile isNameRest) := by
  rw [names, if_pos starts]

theorem names_skip {c : Char} (other : isNameStart c = false) (cs : List Char) :
    names (c :: cs) = names cs := by
  rw [names, if_neg (by simp [other])]

theorem names_skipAll {cs : List Char} (other : ∀ c ∈ cs, isNameStart c = false)
    (ds : List Char) : names (cs ++ ds) = names ds := by
  induction cs with
  | nil => rfl
  | cons c cs ih =>
    obtain ⟨first, later⟩ := List.forall_mem_cons.mp other
    rw [List.cons_append, names_skip first, ih later]

def Bounded (cs : List Char) : Prop :=
  ∀ c ∈ cs.head?, isNameRest c = false

theorem names_append (cs : List Char) {ds : List Char} (bounded : Bounded ds) :
    names (cs ++ ds) = names cs ++ names ds := by
  have stops (cs : List Char) : (cs ++ ds).takeWhile isNameRest = cs.takeWhile isNameRest ∧
      (cs ++ ds).dropWhile isNameRest = cs.dropWhile isNameRest ++ ds := by
    cases ds with
    | nil => simp
    | cons d ds =>
      exact ⟨takeWhile_append_cons (bounded d rfl) cs ds, dropWhile_append_cons (bounded d rfl) cs ds⟩
  fun_induction names cs with
  | case1 => rfl
  | case2 c cs starts ih =>
    rw [List.cons_append, names_start starts, (stops cs).1, (stops cs).2, ih, List.cons_append]
  | case3 c cs other ih => rw [List.cons_append, names_skip (by simpa using other), ih]

def isMark (c : Char) : Bool :=
  !isNameStart c && !isNameRest c

theorem names_mark {c : Char} (mark : isMark c) (cs ds : List Char) :
    names (cs ++ c :: ds) = names cs ++ names ds := by
  simp only [isMark, Bool.and_eq_true, Bool.not_eq_true'] at mark
  rw [names_append cs (fun d head => ?_), names_skip mark.1]
  cases head
  exact mark.2

theorem isNameStart_of_isNumberText {c : Char} (h : isNumberText c) : isNameStart c = false := by
  simp only [isNumberText, Bool.or_eq_true, decide_eq_true_eq] at h
  rcases h with rfl | digit
  · decide
  · simp only [Char.isDigit, Bool.and_eq_true, decide_eq_true_eq, ge_iff_le,
      UInt32.le_iff_toNat_le] at digit
    have low : 48 ≤ c.val.toNat := digit.1
    have high : c.val.toNat ≤ 57 := digit.2
    have apart (d : Char) (later : 57 < d.val.toNat) : c ≠ d := by
      rintro rfl
      omega
    have upper : 'A'.val.toNat = 65 := rfl
    have lower : 'a'.val.toNat = 97 := rfl
    unfold isNameStart Char.isAlpha Char.isUpper Char.isLower
    simp only [apart '_' (by decide), apart 'π' (by decide), decide_false, Bool.false_or,
      Bool.or_eq_false_iff, Bool.and_eq_false_iff, decide_eq_false_iff_not, ge_iff_le,
      UInt32.le_iff_toNat_le]
    omega

theorem names_blank {gap : List Char} (blank : Blank gap) (cs : List Char) :
    names (gap ++ cs) = names cs := by
  refine names_skipAll (fun c member => ?_) cs
  have space := blank c member
  simp only [Text.isBlank, Bool.or_eq_true, decide_eq_true_eq] at space
  rcases space with rfl | rfl <;> decide

theorem Blank.bounded {gap : List Char} (blank : Blank gap) {cs : List Char}
    (bounded : Bounded cs) : Bounded (gap ++ cs) := by
  cases gap with
  | nil => exact bounded
  | cons c gap =>
    rintro _ ⟨⟩
    have space := blank c List.mem_cons_self
    simp only [Text.isBlank, Bool.or_eq_true, decide_eq_true_eq] at space
    rcases space with rfl | rfl <;> decide

theorem Ended.bounded {rest : List Char} (ended : Ended rest) : Bounded rest := by
  intro c head
  rcases ended c head with isBreak | rfl
  · simp only [Text.isLineBreak, Bool.or_eq_true, decide_eq_true_eq] at isBreak
    rcases isBreak with rfl | rfl <;> decide
  · decide

theorem Word.names {cs : List Char} (word : Word cs) : names cs = [String.ofList cs] := by
  obtain ⟨nonempty, letters⟩ := word
  cases cs with
  | nil => contradiction
  | cons c cs =>
    obtain ⟨first, later⟩ := List.forall_mem_cons.mp letters
    have starts : isNameStart c := by simp [isNameStart, first]
    have goesOn : ∀ d ∈ cs, isNameRest d := fun d member => by
      simp [isNameRest, Char.isAlphanum, later d member]
    rw [names_start starts, List.takeWhile_eq_self_iff.mpr goesOn,
      List.dropWhile_eq_nil_iff.mpr goesOn, Token.names]

end Names

theorem Spelled.names_subset {shape : Shape} {consumed rest : List Char}
    (h : Spelled shape consumed rest) :
    names rest ⊆ names (consumed ++ rest) ∧
      ∀ capture ∈ shape.captures, names capture.text.toList ⊆ names (consumed ++ rest) := by
  have left := names_mark (by decide : isMark '(')
  have right := names_mark (by decide : isMark ')')
  have equals := names_mark (by decide : isMark '=')
  have comma := names_mark (by decide : isMark ',')
  have assigned (c : Char) (gap ds : List Char) :
      names (c :: (gap ++ '=' :: ds)) = names (c :: gap) ++ names ds := equals (c :: gap) ds
  have plain {text : List Char} (same : names (text ++ rest) = names rest) :
      names rest ⊆ names (text ++ rest) ∧
        ∀ capture ∈ [], names (Capture.text capture).toList ⊆ names (text ++ rest) := by
    simp [same]
  cases h with
  | @function name parameters body gap gap' _ word blank blank' ended =>
    simp only [List.append_assoc, List.cons_append, left, right, equals, names_blank blank',
      names_append _ ended.bounded]
    simp +contextual [Shape.captures, Outline.captures, List.subset_def]
  | @plot body gap gap' _ blank blank' ended =>
    simp only [List.append_assoc, List.cons_append, assigned, names_blank blank',
      names_append _ ended.bounded]
    simp +contextual [Shape.captures, Outline.captures, List.subset_def]
  | @sequence first second c gap gap' _ blank blank' ended =>
    simp only [List.append_assoc, List.cons_append, assigned, names_blank blank', comma,
      names_append _ ended.bounded]
    simp +contextual [Shape.captures, Outline.captures, List.subset_def]
  | @longSequence first second third c gap gap' _ blank blank' ended =>
    simp only [List.append_assoc, List.cons_append, assigned, names_blank blank', comma,
      names_append _ ended.bounded]
    simp +contextual [Shape.captures, Outline.captures, List.subset_def]
  | @call callee arguments gap _ word blank inside =>
    have called (ds : List Char) : names (callee.text.toList ++ (gap ++ '(' :: ds)) =
        names callee.text.toList ++ names ds := by
      have bounded : Bounded ('(' :: ds) := by
        rintro _ ⟨⟩
        decide
      rw [names_append _ (blank.bounded bounded), names_blank blank, names_skip (by decide)]
    simp only [List.append_assoc, List.cons_append, List.nil_append, called, right]
    simp +contextual [Shape.captures, List.subset_def]
  | @query query arguments before _ _ inside =>
    simp only [List.append_assoc, List.cons_append, List.nil_append, left, right]
    simp +contextual [Shape.captures, List.subset_def]
  | @name c cs _ starts goesOn bounded =>
    rw [names_append _ bounded]
    simp [Shape.captures]
  | number digits =>
    exact plain (names_skipAll (fun c member => isNameStart_of_isNumberText (digits c member)) rest)
  | operator operation => exact plain (names_skip (by cases operation <;> decide) rest)
  | newline nonempty breaks =>
    refine plain (names_skipAll (fun c member => ?_) rest)
    have isBreak := breaks c member
    simp only [Text.isLineBreak, Bool.or_eq_true, decide_eq_true_eq] at isBreak
    rcases isBreak with rfl | rfl <;> decide
  | comma | opening | closing | equals => exact plain (names_skip (by decide) rest)

structure Shares (shared : String → Prop) (token : Token) : Prop where
  captures : ∀ capture ∈ token.shape.captures, ∀ name ∈ names capture.text.toList, shared name
  name : token.shape = .name → shared token.site.text
  callee : ∀ callee arguments, token.shape = .call callee arguments → shared callee.text

theorem Reads.shares {grammar : Grammar} {place : Place} {cs : List Char} {tokens : List Token}
    (h : Reads grammar place cs tokens) {shared : String → Prop}
    (known : ∀ name ∈ names cs, shared name) : ∀ token ∈ tokens, token.Shares shared := by
  induction h with
  | done => simp
  | @blank place c cs tokens blank _ ih =>
    have space : Blank [c] := List.forall_mem_singleton.mpr blank
    rw [show c :: cs = [c] ++ cs from rfl, names_blank space] at known
    exact ih known
  | @token place c cs consumed rest shape tokens filled found _ ih =>
    have split : consumed ++ rest = c :: cs := Grammar.match?_append found
    have spelled := Grammar.spelled found
    obtain ⟨later, captured⟩ := spelled.names_subset
    rw [← split] at known
    refine List.forall_mem_cons.mpr ⟨⟨?_, ?_, ?_⟩, ih fun name member => known name (later member)⟩
    · exact fun capture member name present => known name (captured capture member present)
    · rintro ⟨⟩
      cases spelled with
      | @name d ds _ starts goesOn bounded =>
        apply known
        rw [names_append _ bounded, names_start starts, List.takeWhile_eq_self_iff.mpr goesOn]
        simp
    · rintro callee arguments ⟨⟩
      cases spelled with
      | call word =>
        have named := captured callee (by simp [Shape.captures])
        rw [word.names] at named
        simpa using known _ (named List.mem_cons_self)

end FormulaSheet.Token
