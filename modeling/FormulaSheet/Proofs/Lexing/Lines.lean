import FormulaSheet.Proofs.Lexing.Writing
import Mathlib.Data.List.Induction

set_option autoImplicit false

namespace FormulaSheet.Token

variable {place : Place} {cs rest : List Char} {tokens : List Token}

theorem Grammar.match?_of_following {c b : Char} {more consumed : List Char} {offset : Nat}
    {shape : Shape} (ends : EndsInLine (c :: cs)) (isBreak : Text.isLineBreak b)
    (h : Grammar.statements.match? offset (c :: cs ++ b :: more) =
      some ⟨.ok shape, consumed, rest⟩) :
    ∃ later, rest = later ++ b :: more ∧
      Grammar.statements.match? offset (c :: cs) = some ⟨.ok shape, consumed, later⟩ := by
  have stays (found : Match (Except GrammarFault Shape)) :
      ∀ rule ∈ Grammar.statements.rules, rule.Stays (b :: more) offset (c :: cs) found :=
    fun rule member => Rule.stays_of_keeps (ends.rules_keep isBreak more member) _ _
  cases here : Grammar.statements.match? offset (c :: cs) with
  | none =>
    rw [Grammar.match?, List.findSome?_eq_none_iff] at here
    obtain ⟨rule, member, found⟩ := Grammar.exists_rule h
    have fails := (stays ⟨.ok shape, consumed, rest⟩ rule member).fails
      (Rule.match?_eq_none.mp (here rule member))
    rw [Rule.match?_eq_none.mpr fails] at found
    contradiction
  | some found =>
    have whole := Grammar.match?_following (stays found) here
    rw [h] at whole
    obtain ⟨value, taken, later⟩ := found
    cases whole
    exact ⟨later, rfl, rfl⟩

theorem Reads.of_append_lineBreak {b : Char} {more : List Char}
    (h : Reads .statements place (cs ++ b :: more) tokens) (ends : EndsInLine cs)
    (isBreak : Text.isLineBreak b) :
    ∃ before after, tokens = before ++ after ∧ Reads .statements place cs before ∧
      Reads .statements (place.advanceAll cs) (b :: more) after := by
  generalize whole : cs ++ b :: more = text at h
  induction h generalizing cs with
  | done => simp at whole
  | @blank place c tail tokens blank reads ih =>
    cases cs with
    | nil =>
      cases whole
      exact ⟨[], tokens, rfl, .done place, .blank blank reads⟩
    | cons d cs =>
      cases whole
      have later : EndsInLine ([c] ++ cs) := ends
      obtain ⟨before, after, rfl, first, second⟩ := ih later.right rfl
      exact ⟨before, after, rfl, .blank blank first, second⟩
  | @token place c tail consumed rest shape tokens filled found reads ih =>
    cases cs with
    | nil =>
      cases whole
      exact ⟨[], _, rfl, .done place, .token filled found reads⟩
    | cons d cs =>
      cases whole
      obtain ⟨later, rfl, alone⟩ := Grammar.match?_of_following ends isBreak found
      have split : consumed ++ later = c :: cs := Grammar.match?_append alone
      have within : EndsInLine (consumed ++ later) := split ▸ ends
      obtain ⟨before, after, rfl, first, second⟩ := ih within.right rfl
      rw [← Place.advanceAll_append, split] at second
      exact ⟨_ :: before, after, rfl, .token filled alone first, second⟩

theorem Reads.append_lineBreak {b : Char} {more : List Char} {others : List Token}
    (h : Reads .statements place cs tokens) (ends : EndsInLine cs) (isBreak : Text.isLineBreak b)
    (later : Reads .statements (place.advanceAll cs) (b :: more) others) :
    Reads .statements place (cs ++ b :: more) (tokens ++ others) := by
  have whole : readFrom .statements "" place (cs ++ b :: more) = _ :=
    h.before_lineBreak ends isBreak more
  rw [later.readFrom_eq] at whole
  exact readFrom_eq_iff.mp whole

theorem Reads.of_lineBreaks {breaks : List Char} (nonempty : breaks ≠ [])
    (all : ∀ c ∈ breaks, Text.isLineBreak c) (stop : ∀ c ∈ rest.head?, Text.isLineBreak c = false)
    (h : Reads .statements place (breaks ++ rest) tokens) :
    ∃ later, tokens = ⟨⟨String.ofList breaks, place⟩, .separator⟩ :: later ∧
      Reads .statements (place.advanceAll breaks) rest later := by
  have newline := Grammar.match?_newline nonempty all stop place.index
  cases breaks with
  | nil => contradiction
  | cons b breaks =>
    cases h with
    | blank blank =>
      have isBreak := all b List.mem_cons_self
      simp only [Text.isBlank, Text.isLineBreak, Bool.or_eq_true, decide_eq_true_eq]
        at blank isBreak
      rcases isBreak with rfl | rfl <;> rcases blank with same | same <;> contradiction
    | token filled found reads =>
      cases newline.symm.trans found
      exact ⟨_, rfl, reads⟩

theorem Reads.of_blanks {grammar : Grammar} {gap : List Char} (blank : Blank gap)
    (h : Reads grammar place (gap ++ cs) tokens) :
    Reads grammar (place.advanceAll gap) cs tokens := by
  induction gap generalizing place with
  | nil => exact h
  | cons c gap ih =>
    obtain ⟨first, later⟩ := List.forall_mem_cons.mp blank
    cases h with
    | blank _ reads => exact ih later reads
    | token filled =>
      rw [first] at filled
      contradiction

theorem exists_lineBreaks (cs : List Char) : ∃ line breaks, cs = line ++ breaks ∧
    EndsInLine line ∧ ∀ c ∈ breaks, Text.isLineBreak c := by
  induction cs using List.reverseRecOn with
  | nil => exact ⟨[], [], rfl, by simp [EndsInLine], by simp⟩
  | append_singleton cs c ih =>
    obtain ⟨line, breaks, rfl, ends, all⟩ := ih
    by_cases isBreak : Text.isLineBreak c
    · refine ⟨line, breaks ++ [c], by simp, ends, ?_⟩
      exact List.forall_mem_append.mpr ⟨all, List.forall_mem_singleton.mpr isBreak⟩
    · refine ⟨line ++ breaks ++ [c], [], by simp, ?_, by simp⟩
      intro before d same
      obtain ⟨-, last⟩ := List.append_inj' same rfl
      cases last
      simpa using isBreak

theorem exists_leading (p : Char → Bool) (cs : List Char) : ∃ before text, cs = before ++ text ∧
    (∀ c ∈ before, p c) ∧ ∀ c ∈ text.head?, p c = false := by
  refine ⟨cs.takeWhile p, cs.dropWhile p, List.takeWhile_append_dropWhile.symm, ?_,
    fun _ => refused_of_head?_dropWhile⟩
  exact fun c member => List.all_eq_true.mp List.all_takeWhile c member

def Joins (later tokens : List Token) : Prop :=
  tokens = later ∨ ∃ separator, separator.shape = .separator ∧ tokens = separator :: later

theorem Reads.of_lineBreak {b : Char} (isBreak : Text.isLineBreak b)
    (h : Reads .statements place (b :: cs) tokens) :
    ∃ separator later others, tokens = separator :: later ∧ separator.shape = .separator ∧
      Reads .statements (place.advance b) cs others ∧ Joins later others := by
  obtain ⟨breaks, text, rfl, all, stop⟩ := exists_leading Text.isLineBreak cs
  have together : ∀ c ∈ b :: breaks, Text.isLineBreak c := List.forall_mem_cons.mpr ⟨isBreak, all⟩
  rw [← List.cons_append] at h
  obtain ⟨later, rfl, reads⟩ := h.of_lineBreaks (List.cons_ne_nil _ _) together stop
  by_cases single : breaks = []
  · subst single
    exact ⟨_, later, later, rfl, rfl, reads, .inl rfl⟩
  · exact ⟨_, later, _, rfl, rfl, .lineBreaks single all stop reads, .inr ⟨_, rfl, rfl⟩⟩

theorem Reads.lineBreak {b : Char} (isBreak : Text.isLineBreak b) {others : List Token}
    (h : Reads .statements (place.advance b) cs others) :
    ∃ separator later, separator.shape = .separator ∧
      Reads .statements place (b :: cs) (separator :: later) ∧ Joins later others := by
  obtain ⟨breaks, text, rfl, all, stop⟩ := exists_leading Text.isLineBreak cs
  have together : ∀ c ∈ b :: breaks, Text.isLineBreak c := List.forall_mem_cons.mpr ⟨isBreak, all⟩
  by_cases single : breaks = []
  · subst single
    exact ⟨_, others, rfl, .lineBreaks (List.cons_ne_nil _ _) together stop h, .inl rfl⟩
  · obtain ⟨later, rfl, reads⟩ := h.of_lineBreaks single all stop
    exact ⟨_, later, rfl, .lineBreaks (List.cons_ne_nil _ _) together stop reads,
      .inr ⟨_, rfl, rfl⟩⟩

theorem endsInLine_of_forall (line : ∀ c ∈ cs, Text.isLineBreak c = false) : EndsInLine cs := by
  rintro before c rfl
  exact line c (by simp)

theorem Reads.unseparated (h : Reads .statements place cs tokens)
    (line : ∀ c ∈ cs, Text.isLineBreak c = false) :
    ∀ token ∈ tokens, token.shape ≠ .separator := by
  induction h with
  | done => simp
  | blank _ _ ih => exact ih (List.forall_mem_cons.mp line).2
  | @token place c cs consumed rest shape tokens filled found _ ih =>
    have split : consumed ++ rest = c :: cs := Grammar.match?_append found
    rw [← split] at line
    obtain ⟨here, later⟩ := List.forall_mem_append.mp line
    refine List.forall_mem_cons.mpr ⟨?_, ih later⟩
    rintro rfl
    cases Grammar.spelled found with
    | newline nonempty breaks =>
      cases consumed with
      | nil => exact absurd rfl nonempty
      | cons d consumed =>
        have isBreak := breaks d List.mem_cons_self
        rw [here d List.mem_cons_self] at isBreak
        contradiction
    | comma =>
      have unread : Grammar.statements.match? place.index (',' :: rest) = none := rfl
      rw [← split] at found
      rw [List.singleton_append, unread] at found
      cases found

end FormulaSheet.Token
