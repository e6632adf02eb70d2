import FormulaSheet.Proofs.Lexing.Reading
import FormulaSheet.Proofs.Lexing.Spelling

set_option autoImplicit false

namespace FormulaSheet.Token

variable {text rest : List Char}

theorem takeWhile_of_forall {p : Char → Bool} (taken : ∀ c ∈ text, p c)
    (stop : ∀ c ∈ rest.head?, p c = false) :
    (text ++ rest).takeWhile p = text ∧ (text ++ rest).dropWhile p = rest := by
  rw [List.takeWhile_append_of_pos taken, List.dropWhile_append_of_pos taken]
  cases rest with
  | nil => simp
  | cons c rest => simp [stop c rfl]

theorem Element.split_of_takes {element : Element} (h : element.Takes text rest) :
    element.split (text ++ rest) = some (text, rest) := by
  cases element with
  | one accepts =>
    obtain ⟨c, taken, rfl⟩ := h
    simp [split, taken]
  | oneOrMore accepts =>
    obtain ⟨nonempty, taken, stop⟩ := h
    cases text with
    | nil => contradiction
    | cons c text =>
      obtain ⟨first, later⟩ := List.forall_mem_cons.mp taken
      obtain ⟨kept, left⟩ := takeWhile_of_forall later stop
      simp [split, first, kept, left]
  | many accepts =>
    obtain ⟨taken, stop⟩ := h
    obtain ⟨kept, left⟩ := takeWhile_of_forall taken stop
    simp [split, kept, left]
  | enclosed =>
    obtain ⟨inside, closing⟩ := h
    rw [split, splitEnclosed_of_balance inside.line inside.balanced]
    cases rest with
    | nil => contradiction
    | cons c rest =>
      cases closing
      simp [splitEnclosed, Text.isLineBreak]

theorem Pattern.scan_takes {α : Type} {step : Step} {pattern : Pattern}
    {build : Builder α (step :: pattern)} {offset : Nat} (takes : step.element.Takes text rest) :
    scan (step :: pattern) build offset (text ++ rest) =
      (scan pattern (build.feed step ⟨offset, String.ofList text⟩)
        (offset + Text.byteLength text) rest).map (.after text) := by
  rw [scan_cons, Element.split_of_takes takes]
  rfl

theorem Pattern.scan_step {α : Type} {step : Step} {pattern : Pattern}
    {build : Builder α (step :: pattern)} {offset : Nat} {value : α} {consumed later : List Char}
    (takes : step.element.Takes text rest)
    (found : scan pattern (build.feed step ⟨offset, String.ofList text⟩)
      (offset + Text.byteLength text) rest = some ⟨value, consumed, later⟩) :
    scan (step :: pattern) build offset (text ++ rest) =
      some ⟨value, text ++ consumed, later⟩ := by
  rw [scan_takes takes, found]
  rfl

theorem Pattern.accepts_takes {step : Step} {pattern : Pattern}
    (takes : step.element.Takes text rest) :
    accepts (step :: pattern) (text ++ rest) = pattern.accepts rest := by
  rw [accepts, Element.split_of_takes takes]
  rfl

theorem takes_char (c : Char) (rest : List Char) : (Step.char c).element.Takes [c] rest :=
  ⟨c, by simp, rfl⟩

theorem takes_word {name : List Char} (word : Word name) (rest : List Char) :
    Step.letters.element.Takes name ('(' :: rest) :=
  ⟨word.nonempty, word.letters, by rintro _ ⟨⟩; rfl⟩

section Call

variable {name inside : List Char}

theorem unassigned {p : Char → Bool} {pattern : Pattern} {c d : Char} {cs : List Char}
    (filled : Text.isBlank d = false) (other : d ≠ '=') :
    Pattern.accepts (.skip (.one p) :: .blanks :: .char '=' :: pattern) (c :: d :: cs) = false := by
  by_cases taken : p c <;>
    simp [Pattern.accepts, Step.element, Step.blanks, Step.char, Element.split, taken, filled,
      other]

theorem Word.undefined (word : Word name) (enclosed : Text.Enclosed inside) :
    ∀ rule ∈ [Rule.function, .plot, .longSequence, .sequence],
      rule.pattern.accepts (name ++ '(' :: (inside ++ [')'])) = false := by
  obtain ⟨c, d, cs, same, filled, other⟩ : ∃ c d cs, name ++ '(' :: (inside ++ [')']) =
      c :: d :: cs ∧ Text.isBlank d = false ∧ d ≠ '=' := by
    obtain ⟨nonempty, letters⟩ := word
    rcases name with _ | ⟨c, _ | ⟨d, name⟩⟩
    · contradiction
    · exact ⟨c, '(', _, rfl, rfl, by decide⟩
    · have letter := letters d (by simp)
      refine ⟨c, d, _, rfl, Bool.eq_false_iff.mpr ?_, ?_⟩
      · intro blank
        simp only [Text.isBlank, Bool.or_eq_true, decide_eq_true_eq] at blank
        rcases blank with rfl | rfl <;> contradiction
      · rintro rfl
        contradiction
  have unnamed : Rule.function.pattern.accepts (name ++ '(' :: (inside ++ [')'])) = false := by
    refine Bool.eq_false_iff.mpr fun matched => ?_
    have matched : Pattern.accepts
        (.parameters :: .char ')' :: .blanks :: .char '=' :: .blanks :: [.body])
        (inside ++ [')']) := by
      rw [← Pattern.accepts_takes (takes_char '(' _), List.singleton_append,
        ← Pattern.accepts_takes (takes_word word _)]
      exact matched
    -- The equals sign would have to come before the last closing parenthesis.
    have matched := Pattern.accepts_of_spares (by decide) matched
    have whole := List.takeWhile_append_dropWhile (p := isParameterText) (l := inside)
    have plain : ∀ c ∈ inside.takeWhile isParameterText, c ≠ '(' ∧ c ≠ ')' := fun c member => by
      have taken := List.all_eq_true.mp List.all_takeWhile c member
      constructor <;> rintro rfl <;> contradiction
    have balanced := enclosed.balanced
    rw [← whole, Text.balance_append, Text.balance_of_forall plain] at balanced
    simp only [Pattern.accepts, Step.parameters, Step.element, Element.split, Option.any_some]
      at matched
    cases left : inside.dropWhile isParameterText with
    | nil => simp [left, Step.char] at matched
    | cons c more =>
      by_cases closes : c = ')'
      · simp [left, closes] at balanced
      · simp [left, Step.char, closes] at matched
  simp only [List.forall_mem_cons]
  rw [same] at unnamed ⊢
  exact ⟨unnamed, unassigned filled other, unassigned filled other, unassigned filled other, by simp⟩

theorem Grammar.match?_call (word : Word name) (enclosed : Text.Enclosed inside) (offset : Nat) :
    Grammar.statements.match? offset (name ++ '(' :: (inside ++ [')'])) =
      some ⟨.ok (.call ⟨offset, String.ofList name⟩
        ⟨offset + Text.byteLength name + 1, String.ofList inside⟩),
        name ++ '(' :: (inside ++ [')']), []⟩ := by
  have refused : [Rule.function, .plot, .longSequence, .sequence].findSome?
      (·.match? offset (name ++ '(' :: (inside ++ [')']))) = none := by
    rw [List.findSome?_eq_none_iff]
    exact fun rule member => Rule.match?_eq_none.mpr (word.undefined enclosed rule member)
  have unspaced : Step.blanks.element.Takes [] ('(' :: (inside ++ [')'])) :=
    ⟨by simp, by rintro _ ⟨⟩; rfl⟩
  have group : (Step.keep .enclosed).element.Takes inside [')'] := ⟨enclosed, rfl⟩
  have scanned : Rule.call.pattern.scan Rule.call.shape offset (name ++ '(' :: (inside ++ [')'])) =
      some ⟨fun _ => .ok (.call ⟨offset, String.ofList name⟩
        ⟨offset + Text.byteLength name + 1, String.ofList inside⟩),
        name ++ '(' :: (inside ++ [')']), []⟩ := by
    refine Pattern.scan_step (takes_word word _) ?_
    refine Pattern.scan_step unspaced ?_
    refine Pattern.scan_step (takes_char '(' _) ?_
    refine Pattern.scan_step group ?_
    exact Pattern.scan_step (takes_char ')' _) rfl
  have found : Rule.call.match? offset (name ++ '(' :: (inside ++ [')'])) =
      some ⟨.ok (.call ⟨offset, String.ofList name⟩
        ⟨offset + Text.byteLength name + 1, String.ofList inside⟩),
        name ++ '(' :: (inside ++ [')']), []⟩ := by
    rw [Rule.match?_eq, scanned]
    rfl
  rw [Grammar.match?, Grammar.rules]
  simp only [List.append_assoc]
  rw [List.findSome?_append, refused, Option.none_or, valueRules, List.cons_append,
    List.cons_append, List.findSome?_cons, found]

end Call

section Definition

variable {name parameters body : List Char}

theorem Grammar.match?_function (word : Word name)
    (listed : ∀ c ∈ parameters, isParameterText c)
    (line : ∀ c ∈ body, Text.isLineBreak c = false) (filled : ∀ c ∈ body.head?, Text.isBlank c = false)
    {gap : List Char} (blank : Blank gap)
    (ends : ∀ c ∈ rest.head?, Text.isLineBreak c) (offset : Nat) :
    Grammar.statements.match? offset
        (name ++ '(' :: (parameters ++ ')' :: ' ' :: '=' :: (gap ++ (body ++ rest)))) =
      some ⟨.ok (.definition (.function ⟨offset, String.ofList name⟩
          ⟨offset + Text.byteLength name + 1, String.ofList parameters⟩
          ⟨offset + Text.byteLength name + 1 + Text.byteLength parameters + 3 + Text.byteLength gap,
            String.ofList body⟩)),
        name ++ '(' :: (parameters ++ ')' :: ' ' :: '=' :: (gap ++ body)), rest⟩ := by
  have separate : Step.blanks.element.Takes [' '] ('=' :: (gap ++ (body ++ rest))) :=
    ⟨List.forall_mem_singleton.mpr rfl, by rintro _ ⟨⟩; rfl⟩
  have leading : Step.blanks.element.Takes gap (body ++ rest) := by
    refine ⟨blank, fun c head => ?_⟩
    cases body with
    | cons d body => exact filled c head
    | nil =>
      have isBreak := ends c head
      simp only [Text.isLineBreak, Bool.or_eq_true, decide_eq_true_eq] at isBreak
      rcases isBreak with rfl | rfl <;> rfl
  have between : Step.parameters.element.Takes parameters
      (')' :: ' ' :: '=' :: (gap ++ (body ++ rest))) := ⟨listed, by rintro _ ⟨⟩; rfl⟩
  have written : Step.body.element.Takes body rest := by
    refine ⟨fun c member => ?_, fun c head => ?_⟩
    · simp [line c member]
    · simp [ends c head]
  have scanned : Rule.function.pattern.scan Rule.function.shape offset
        (name ++ '(' :: (parameters ++ ')' :: ' ' :: '=' :: (gap ++ (body ++ rest)))) =
      some ⟨fun _ => .ok (.definition (.function ⟨offset, String.ofList name⟩
          ⟨offset + Text.byteLength name + 1, String.ofList parameters⟩
          ⟨offset + Text.byteLength name + 1 + Text.byteLength parameters + 3 + Text.byteLength gap,
            String.ofList body⟩)),
        name ++ '(' :: (parameters ++ ')' :: ' ' :: '=' :: (gap ++ (body ++ []))), rest⟩ := by
    refine Pattern.scan_step (takes_word word _) ?_
    refine Pattern.scan_step (takes_char '(' _) ?_
    refine Pattern.scan_step between ?_
    refine Pattern.scan_step (takes_char ')' _) ?_
    refine Pattern.scan_step separate ?_
    refine Pattern.scan_step (takes_char '=' _) ?_
    refine Pattern.scan_step leading ?_
    exact Pattern.scan_step written rfl
  rw [List.append_nil] at scanned
  rw [Grammar.match?, Grammar.rules]
  simp only [List.append_assoc, List.cons_append]
  rw [List.findSome?_cons, Rule.match?_eq, scanned]
  rfl

end Definition

section Lines

variable {source : String} {place : Place} {name parameters body inside : List Char}

theorem Word.head (word : Word name) (rest : List Char) :
    ∃ c cs, name ++ rest = c :: cs ∧ c.isAlpha := by
  obtain ⟨nonempty, letters⟩ := word
  cases name with
  | nil => contradiction
  | cons c name => exact ⟨c, name ++ rest, rfl, letters c List.mem_cons_self⟩

theorem isBlank_of_isAlpha {c : Char} (letter : c.isAlpha) : Text.isBlank c = false := by
  refine Bool.eq_false_iff.mpr fun blank => ?_
  simp only [Text.isBlank, Bool.or_eq_true, decide_eq_true_eq] at blank
  rcases blank with rfl | rfl <;> contradiction

theorem isLineBreak_of_isAlpha {c : Char} (letter : c.isAlpha) : Text.isLineBreak c = false := by
  refine Bool.eq_false_iff.mpr fun isBreak => ?_
  simp only [Text.isLineBreak, Bool.or_eq_true, decide_eq_true_eq] at isBreak
  rcases isBreak with rfl | rfl <;> contradiction

theorem Grammar.match?_newline {breaks : List Char} (nonempty : breaks ≠ [])
    (all : ∀ c ∈ breaks, Text.isLineBreak c) (stop : ∀ c ∈ rest.head?, Text.isLineBreak c = false)
    (offset : Nat) :
    Grammar.statements.match? offset (breaks ++ rest) = some ⟨.ok .separator, breaks, rest⟩ := by
  have takes : (Step.skip (.oneOrMore Text.isLineBreak)).element.Takes breaks rest :=
    ⟨nonempty, all, stop⟩
  have scanned : Rule.newline.pattern.scan Rule.newline.shape offset (breaks ++ rest) =
      some ⟨fun _ => .ok .separator, breaks ++ [], rest⟩ := Pattern.scan_step takes rfl
  have others : ([Rule.function, .plot, .longSequence, .sequence] ++ valueRules).findSome?
      (·.match? offset (breaks ++ rest)) = none := by
    cases breaks with
    | nil => contradiction
    | cons b breaks =>
      have isBreak := all b List.mem_cons_self
      simp only [Text.isLineBreak, Bool.or_eq_true, decide_eq_true_eq] at isBreak
      rcases isBreak with rfl | rfl <;> rfl
  rw [List.append_nil] at scanned
  rw [Grammar.match?, Grammar.rules, List.append_assoc, List.append_assoc, List.findSome?_append,
    others, Option.none_or, List.singleton_append, List.findSome?_cons, Rule.match?_eq, scanned]
  rfl

theorem Reads.lineBreaks {breaks : List Char} (nonempty : breaks ≠ [])
    (all : ∀ c ∈ breaks, Text.isLineBreak c) (stop : ∀ c ∈ rest.head?, Text.isLineBreak c = false)
    {tokens : List Token} (h : Reads .statements (place.advanceAll breaks) rest tokens) :
    Reads .statements place (breaks ++ rest)
      (⟨⟨String.ofList breaks, place⟩, .separator⟩ :: tokens) := by
  have found := Grammar.match?_newline nonempty all stop place.index
  cases breaks with
  | nil => contradiction
  | cons b breaks =>
    have filled : Text.isBlank b = false := by
      have isBreak := all b List.mem_cons_self
      simp only [Text.isLineBreak, Bool.or_eq_true, decide_eq_true_eq] at isBreak
      rcases isBreak with rfl | rfl <;> rfl
    exact .token filled found h

structure Holds (source : String) (capture : Capture) (cs : List Char) : Prop where
  text : capture.text = String.ofList cs
  stands : StandsAt source capture.offset cs

theorem Reads.called (word : Word name) (enclosed : Text.Enclosed inside)
    (stands : StandsAt source place.index (name ++ '(' :: (inside ++ [')']))) :
    ∃ site callee arguments, callee.text = String.ofList name ∧ Holds source arguments inside ∧
      Reads .statements place (name ++ '(' :: (inside ++ [')']))
        [⟨site, .call callee arguments⟩] := by
  have found := Grammar.match?_call word enclosed place.index
  have opened : StandsAt source (place.index + Text.byteLength name) (['('] ++ (inside ++ [')'])) :=
    stands.right
  obtain ⟨c, cs, same, letter⟩ := word.head ('(' :: (inside ++ [')']))
  refine ⟨⟨String.ofList (name ++ '(' :: (inside ++ [')'])), place⟩,
    ⟨place.index, String.ofList name⟩,
    ⟨place.index + Text.byteLength name + 1, String.ofList inside⟩, rfl,
    ⟨rfl, opened.right.left⟩, ?_⟩
  rw [same] at found ⊢
  exact .token (isBlank_of_isAlpha letter) found (.done _)

theorem Reads.defined (word : Word name) (listed : ∀ c ∈ parameters, isParameterText c)
    (line : ∀ c ∈ body, Text.isLineBreak c = false)
    (filled : ∀ c ∈ body.head?, Text.isBlank c = false) {gap : List Char} (blank : Blank gap)
    (ends : ∀ c ∈ rest.head?, Text.isLineBreak c)
    (stands : StandsAt source place.index
      (name ++ '(' :: (parameters ++ ')' :: ' ' :: '=' :: (gap ++ (body ++ rest)))))
    {tokens : List Token}
    (later : Reads .statements
      (place.advanceAll (name ++ '(' :: (parameters ++ ')' :: ' ' :: '=' :: (gap ++ body))))
      rest tokens) :
    ∃ site named listing written, named.text = String.ofList name ∧
      listing.text = String.ofList parameters ∧ Holds source written body ∧
      Reads .statements place
        (name ++ '(' :: (parameters ++ ')' :: ' ' :: '=' :: (gap ++ (body ++ rest))))
        (⟨site, .definition (.function named listing written)⟩ :: tokens) := by
  have found := Grammar.match?_function word listed line filled blank ends place.index
  have opened : StandsAt source (place.index + Text.byteLength name)
      (['('] ++ (parameters ++ ([')', ' ', '='] ++ (gap ++ (body ++ rest))))) := stands.right
  obtain ⟨c, cs, same, letter⟩ :=
    word.head ('(' :: (parameters ++ ')' :: ' ' :: '=' :: (gap ++ (body ++ rest))))
  refine ⟨⟨String.ofList (name ++ '(' :: (parameters ++ ')' :: ' ' :: '=' :: (gap ++ body))),
    place⟩, ⟨place.index, String.ofList name⟩,
    ⟨place.index + Text.byteLength name + 1, String.ofList parameters⟩,
    ⟨place.index + Text.byteLength name + 1 + Text.byteLength parameters + 3 +
      Text.byteLength gap, String.ofList body⟩, rfl, rfl,
    ⟨rfl, opened.right.right.right.right.left⟩, ?_⟩
  rw [same] at found ⊢
  exact .token (isBlank_of_isAlpha letter) found later

theorem Reads.defined_called (word : Word name) (listed : ∀ c ∈ parameters, isParameterText c)
    (line : ∀ c ∈ body, Text.isLineBreak c = false)
    (filled : ∀ c ∈ body.head?, Text.isBlank c = false) {gap : List Char} (blank : Blank gap)
    (enclosed : Text.Enclosed inside)
    (stands : StandsAt source place.index
      (name ++ '(' :: (parameters ++ ')' :: ' ' :: '=' :: (gap ++ (body ++ (['\n'] ++
        (name ++ '(' :: (inside ++ [')'])))))))) :
    ∃ site named listing written separator site' callee arguments,
      named.text = String.ofList name ∧ listing.text = String.ofList parameters ∧
      Holds source written body ∧ callee.text = String.ofList name ∧
      Holds source arguments inside ∧
      Reads .statements place
        (name ++ '(' :: (parameters ++ ')' :: ' ' :: '=' :: (gap ++ (body ++ (['\n'] ++
          (name ++ '(' :: (inside ++ [')'])))))))
        [⟨site, .definition (.function named listing written)⟩, ⟨separator, .separator⟩,
          ⟨site', .call callee arguments⟩] := by
  have before : StandsAt source place.index
      ((name ++ '(' :: (parameters ++ ')' :: ' ' :: '=' :: (gap ++ body))) ++ (['\n'] ++
        (name ++ '(' :: (inside ++ [')'])))) := by simpa using stands
  have after : StandsAt source ((place.advanceAll
      (name ++ '(' :: (parameters ++ ')' :: ' ' :: '=' :: (gap ++ body)))).advanceAll ['\n']).index
      (name ++ '(' :: (inside ++ [')'])) := by
    rw [Place.advanceAll_index, Place.advanceAll_index]
    exact before.right.right
  obtain ⟨site', callee, arguments, calls, given, call⟩ := Reads.called word enclosed after
  have unbroken : ∀ c ∈ (name ++ '(' :: (inside ++ [')'])).head?, Text.isLineBreak c = false := by
    obtain ⟨c, cs, same, letter⟩ := word.head ('(' :: (inside ++ [')']))
    rw [same]
    rintro _ ⟨⟩
    exact isLineBreak_of_isAlpha letter
  have broken := Reads.lineBreaks (by simp) (List.forall_mem_singleton.mpr rfl) unbroken call
  obtain ⟨site, named, listing, written, names, lists, writes, reads⟩ :=
    Reads.defined word listed line filled blank (by rintro _ ⟨⟩; rfl) stands broken
  exact ⟨site, named, listing, written, _, site', callee, arguments, names, lists, writes, calls,
    given, reads⟩

end Lines

end FormulaSheet.Token
