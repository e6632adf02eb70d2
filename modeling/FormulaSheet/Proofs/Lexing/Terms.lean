import FormulaSheet.Proofs.Lexing.Expression
import FormulaSheet.Proofs.Lexing.Lines
import Mathlib.Data.List.TakeWhile

set_option autoImplicit false

namespace FormulaSheet

namespace Text

variable {cs : List Char}

theorem isWhiteSpace_of_trim (nothing : trim cs = []) : ∀ c ∈ cs, isWhiteSpace c := by
  unfold trim at nothing
  rw [List.reverse_eq_nil_iff, List.dropWhile_eq_nil_iff] at nothing
  have left : cs.dropWhile isWhiteSpace = [] := by
    cases kept : cs.dropWhile isWhiteSpace with
    | nil => rfl
    | cons c rest =>
      have first : isWhiteSpace c = false :=
        Token.refused_of_head?_dropWhile (by rw [kept]; rfl)
      have white := nothing c (by simp [kept])
      rw [first] at white
      contradiction
  exact List.dropWhile_eq_nil_iff.mp left

theorem mem_of_isWhiteSpace {c : Char} (white : isWhiteSpace c) :
    c.toNat ∈ [0x09, 0x0A, 0x0B, 0x0C, 0x0D, 0x20, 0x85, 0xA0, 0x1680, 0x2000, 0x2001, 0x2002,
      0x2003, 0x2004, 0x2005, 0x2006, 0x2007, 0x2008, 0x2009, 0x200A, 0x2028, 0x2029, 0x202F,
      0x205F, 0x3000] := by
  simp only [isWhiteSpace, whiteSpace, List.any_cons, List.any_nil, Bool.or_false, Bool.or_eq_true,
    Bool.and_eq_true, decide_eq_true_eq] at white
  simp only [List.mem_cons, List.not_mem_nil, or_false]
  omega

end Text

namespace Token

variable {place : Place} {cs rest : List Char} {tokens : List Token}

section Blanks

theorem Grammar.match?_whiteSpace {c : Char} (white : Text.isWhiteSpace c) (offset : Nat)
    (cs : List Char) : Grammar.arguments.match? offset (c :: cs) = none := by
  have known := Text.mem_of_isWhiteSpace white
  have same : c = Char.ofNat c.toNat := c.ofNat_toNat.symm
  rw [same]
  generalize c.toNat = n at known
  simp only [List.mem_cons, List.not_mem_nil, or_false] at known
  rcases known with
    rfl | rfl | rfl | rfl | rfl | rfl | rfl | rfl | rfl | rfl | rfl | rfl | rfl | rfl | rfl | rfl |
    rfl | rfl | rfl | rfl | rfl | rfl | rfl | rfl | rfl <;> rfl

theorem Reads.of_whiteSpace (h : Reads .arguments place cs tokens)
    (white : ∀ c ∈ cs, Text.isWhiteSpace c) : tokens = [] := by
  induction h with
  | done => rfl
  | blank _ _ ih => exact ih (List.forall_mem_cons.mp white).2
  | @token place c cs _ _ _ _ _ found =>
    rw [Grammar.match?_whiteSpace (white c List.mem_cons_self)] at found
    contradiction

end Blanks

section Terms

variable {gap first second more : List Char} {offset : Nat}

def termed (gap first second more : List Char) : List Char :=
  'S' :: ' ' :: '=' :: (gap ++ (first ++ ',' :: (second ++ more)))

def firstTerm (offset : Nat) (gap first : List Char) : Capture :=
  ⟨offset + 3 + Text.byteLength gap, String.ofList first⟩

def secondTerm (offset : Nat) (gap first second : List Char) : Capture :=
  ⟨offset + 3 + Text.byteLength gap + Text.byteLength first + 1, String.ofList second⟩

structure Cut (gap first second more : List Char) : Prop where
  blank : Blank gap
  one : ∀ c ∈ first, isTermText c
  filled : ∀ c ∈ first.head?, Text.isBlank c = false
  two : ∀ c ∈ second, isTermText c
  stop : ∀ c ∈ more.head?, isTermText c = false

theorem Cut.leading (cut : Cut gap first second more) :
    Step.blanks.element.Takes gap (first ++ ',' :: (second ++ more)) := by
  refine ⟨cut.blank, fun c head => ?_⟩
  have filled := cut.filled
  cases first with
  | nil =>
    cases head
    rfl
  | cons d first => exact filled c head

theorem Cut.scan {α : Type} {pattern : Pattern} (cut : Cut gap first second more)
    (build : Builder α (.sequenceName :: .blanks :: .char '=' :: .blanks :: .term :: .char ',' ::
      .term :: pattern)) :
    Pattern.scan _ build offset (termed gap first second more) =
      (pattern.scan (build (firstTerm offset gap first) (secondTerm offset gap first second))
        (offset + 3 + Text.byteLength gap + Text.byteLength first + 1 + Text.byteLength second)
        more).map fun found =>
          { found with consumed := termed gap first second found.consumed } := by
  have named : Step.sequenceName.element.Takes ['S']
      ([' '] ++ (['='] ++ (gap ++ (first ++ ([','] ++ (second ++ more)))))) := ⟨'S', rfl, rfl⟩
  have separate : Step.blanks.element.Takes [' ']
      (['='] ++ (gap ++ (first ++ ([','] ++ (second ++ more))))) :=
    ⟨List.forall_mem_singleton.mpr rfl, by rintro _ ⟨⟩; rfl⟩
  have leading : Step.blanks.element.Takes gap (first ++ ([','] ++ (second ++ more))) := cut.leading
  have one : Step.term.element.Takes first ([','] ++ (second ++ more)) :=
    ⟨cut.one, by rintro _ ⟨⟩; rfl⟩
  have two : Step.term.element.Takes second more := ⟨cut.two, cut.stop⟩
  have pieces : termed gap first second more =
      ['S'] ++ ([' '] ++ (['='] ++ (gap ++ (first ++ ([','] ++ (second ++ more)))))) := rfl
  rw [pieces, Pattern.scan_takes named, Pattern.scan_takes separate,
    Pattern.scan_takes (takes_char '=' _), Pattern.scan_takes leading, Pattern.scan_takes one,
    Pattern.scan_takes (takes_char ',' _), Pattern.scan_takes two]
  simp only [Option.map_map]
  rfl

theorem Cut.match?_sequence (cut : Cut gap first second []) (offset : Nat) :
    Grammar.statements.match? offset (termed gap first second []) =
      some ⟨.ok (.definition (.sequence (firstTerm offset gap first)
        (secondTerm offset gap first second) none)), termed gap first second [], []⟩ := by
  have unnamed : Rule.function.match? offset (termed gap first second []) = none := rfl
  have unplotted : Rule.plot.match? offset (termed gap first second []) = none := rfl
  have short : Rule.longSequence.match? offset (termed gap first second []) = none := by
    rw [Rule.match?_eq, Option.map_eq_none_iff]
    exact cut.scan Rule.longSequence.shape
  have found : Rule.sequence.match? offset (termed gap first second []) =
      some ⟨.ok (.definition (.sequence (firstTerm offset gap first)
        (secondTerm offset gap first second) none)), termed gap first second [], []⟩ := by
    rw [Rule.match?_eq]
    exact congrArg (Option.map _) (cut.scan Rule.sequence.shape)
  rw [Grammar.match?, Grammar.rules]
  simp only [List.append_assoc, List.cons_append, List.findSome?_cons, unnamed, unplotted, short,
    found]

theorem Cut.reads (cut : Cut gap first second []) (place : Place) :
    Reads .statements place (termed gap first second [])
      [⟨⟨String.ofList (termed gap first second []), place⟩, .definition (.sequence
        (firstTerm place.index gap first) (secondTerm place.index gap first second) none)⟩] :=
  .token rfl (cut.match?_sequence place.index) (.done _)

theorem Cut.match?_longSequence (cut : Cut gap first second (',' :: more)) (offset : Nat) :
    ∃ third consumed rest,
      Grammar.statements.match? offset (termed gap first second (',' :: more)) =
        some ⟨.ok (.definition (.sequence (firstTerm offset gap first)
          (secondTerm offset gap first second) (some third))), consumed, rest⟩ := by
  have unnamed : Rule.function.match? offset (termed gap first second (',' :: more)) = none := rfl
  have unplotted : Rule.plot.match? offset (termed gap first second (',' :: more)) = none := rfl
  have found : ∃ third consumed rest,
      Rule.longSequence.match? offset (termed gap first second (',' :: more)) =
        some ⟨.ok (.definition (.sequence (firstTerm offset gap first)
          (secondTerm offset gap first second) (some third))), consumed, rest⟩ := by
    rw [Rule.match?_eq]
    exact ⟨_, _, _, congrArg (Option.map _) (cut.scan Rule.longSequence.shape)⟩
  obtain ⟨third, consumed, rest, found⟩ := found
  refine ⟨third, consumed, rest, ?_⟩
  rw [Grammar.match?, Grammar.rules]
  simp only [List.append_assoc, List.cons_append, List.findSome?_cons, unnamed, unplotted, found]

section Places

variable {source : String}

@[simp]
theorem toList_firstTerm (offset : Nat) (gap first : List Char) :
    (firstTerm offset gap first).text.toList = first :=
  String.toList_ofList

@[simp]
theorem toList_secondTerm (offset : Nat) (gap first second : List Char) :
    (secondTerm offset gap first second).text.toList = second :=
  String.toList_ofList

theorem stands_firstTerm (same : source.toList = termed gap first second more) :
    StandsAt source (firstTerm 0 gap first).offset (firstTerm 0 gap first).text.toList := by
  have whole : StandsAt source 0 (['S', ' ', '='] ++ (gap ++ (first ++ ',' :: (second ++ more)))) :=
    ⟨[], [], by rw [same]; simp [termed], rfl⟩
  rw [toList_firstTerm]
  exact whole.right.right.left

theorem stands_secondTerm (same : source.toList = termed gap first second more) :
    StandsAt source (secondTerm 0 gap first second).offset
      (secondTerm 0 gap first second).text.toList := by
  have whole : StandsAt source 0
      (['S', ' ', '='] ++ (gap ++ (first ++ ([','] ++ (second ++ more))))) :=
    ⟨[], [], by rw [same]; simp [termed], rfl⟩
  rw [toList_secondTerm]
  exact whole.right.right.right.right.left

end Places

end Terms

end Token

end FormulaSheet
