import FormulaSheet.Proofs.Lexing.Calls

set_option autoImplicit false

namespace FormulaSheet.Token

variable {text gap after : List Char}

section Without

def Element.loose : Element → Bool
  | one accepts => !accepts ' ' && !accepts '\t'
  | oneOrMore _ => false
  | many accepts => accepts ' ' && accepts '\t'
  | enclosed => true

def Element.looseLast : Element → Bool
  | one accepts | oneOrMore accepts => !accepts ' ' && !accepts '\t'
  | many _ => true
  | enclosed => false

def Pattern.loose : Pattern → Bool
  | [] => true
  | [step] => step.element.looseLast
  | step :: pattern => step.element.loose && loose pattern

theorem isBlank_iff {c : Char} : Text.isBlank c ↔ c = ' ' ∨ c = '\t' := by
  simp [Text.isBlank]

theorem refuses_blank {p : Char → Bool} (refused : (!p ' ' && !p '\t') = true) {c : Char}
    (space : Text.isBlank c) : p c = false := by
  simp only [Bool.and_eq_true, Bool.not_eq_true'] at refused
  rcases isBlank_iff.mp space with rfl | rfl
  · exact refused.1
  · exact refused.2

theorem accepts_blank {p : Char → Bool} (accepted : (p ' ' && p '\t') = true) {c : Char}
    (space : Text.isBlank c) : p c := by
  obtain ⟨space', tab⟩ := Bool.and_eq_true_iff.mp accepted
  rcases isBlank_iff.mp space with rfl | rfl
  · exact space'
  · exact tab

theorem splitEnclosed_blank (blank : Blank gap) (depth : Nat) (cs : List Char) :
    splitEnclosed depth (gap ++ cs) =
      (splitEnclosed depth cs).map fun (others, later) => (gap ++ others, later) := by
  refine splitEnclosed_of_balance (fun c member => ?_)
    (Text.balance_of_forall (fun c member => isBlank_plain (blank c member)) depth) cs
  rcases isBlank_iff.mp (blank c member) with rfl | rfl <;> decide

def Element.Rejoins (element : Element) (text gap after rest : List Char) : Prop :=
  ∃ taken, element.split (text ++ after) = some (taken, rest) ∨
    ∃ more, rest = more ++ (gap ++ after) ∧ element.split (text ++ after) = some (taken, more ++ after)

theorem splitEnclosed_rejoins (blank : Blank gap) {depth : Nat} {inside rest : List Char}
    (h : splitEnclosed depth (text ++ (gap ++ after)) = some (inside, rest)) :
    ∃ taken, splitEnclosed depth (text ++ after) = some (taken, rest) ∨
      ∃ more, rest = more ++ (gap ++ after) ∧
        splitEnclosed depth (text ++ after) = some (taken, more ++ after) := by
  induction text generalizing depth inside with
  | nil =>
    rw [List.nil_append, splitEnclosed_blank blank] at h
    obtain ⟨⟨others, later⟩, found, same⟩ := Option.map_eq_some_iff.mp h
    cases same
    exact ⟨others, .inl found⟩
  | cons c text ih =>
    have step {n : Nat}
        (h : (splitEnclosed n (text ++ (gap ++ after))).map (Prod.map (c :: ·) id) =
          some (inside, rest)) :
        ∃ taken, (splitEnclosed n (text ++ after)).map (Prod.map (c :: ·) id) = some (taken, rest) ∨
          ∃ more, rest = more ++ (gap ++ after) ∧
            (splitEnclosed n (text ++ after)).map (Prod.map (c :: ·) id) =
              some (taken, more ++ after) := by
      obtain ⟨⟨others, later⟩, found, same⟩ := Option.map_eq_some_iff.mp h
      cases same
      obtain ⟨taken, found | ⟨more, split, found⟩⟩ := ih found
      · exact ⟨c :: taken, .inl (by rw [found]; rfl)⟩
      · exact ⟨c :: taken, .inr ⟨more, split, by rw [found]; rfl⟩⟩
    simp only [List.cons_append, splitEnclosed] at h ⊢
    split at h
    · contradiction
    next line =>
      rw [if_neg line]
      split at h
      next closes =>
        rw [if_pos closes]
        cases depth with
        | zero =>
          cases h
          -- The group is closed before the gap, which stays in what is left.
          exact ⟨[], .inr ⟨c :: text, rfl, rfl⟩⟩
        | succ depth => exact step h
      next closes =>
        rw [if_neg closes]
        exact step h

theorem Element.rejoins {element : Element} (loose : element.loose) (blank : Blank gap)
    {taken rest : List Char} (h : element.split (text ++ (gap ++ after)) = some (taken, rest)) :
    element.Rejoins text gap after rest := by
  cases element with
  | one accepts =>
    cases text with
    | nil =>
      cases gap with
      | nil => exact ⟨taken, .inl h⟩
      | cons c gap => simp [split, refuses_blank loose (blank c List.mem_cons_self)] at h
    | cons c text =>
      simp only [List.cons_append, split] at h
      split at h
      next accepted =>
        cases h
        exact ⟨[c], .inr ⟨text, rfl, by simp [split, accepted]⟩⟩
      · contradiction
  | oneOrMore accepts => contradiction
  | many accepts =>
    have skipped : ∀ c ∈ gap, accepts c := fun c member => accepts_blank loose (blank c member)
    simp only [split, Option.some.injEq, Prod.mk.injEq] at h
    obtain ⟨-, rfl⟩ := h
    refine ⟨(text ++ after).takeWhile accepts, ?_⟩
    simp only [split, Option.some.injEq, Prod.mk.injEq, true_and]
    rw [List.dropWhile_append, List.dropWhile_append]
    split
    · exact .inl (List.dropWhile_append_of_pos skipped).symm
    · exact .inr ⟨_, rfl, rfl⟩
  | enclosed => exact splitEnclosed_rejoins blank h

theorem Pattern.accepts_cons {step : Step} {pattern : Pattern} {cs : List Char} :
    accepts (step :: pattern) cs ↔
      ∃ taken rest, step.element.split cs = some (taken, rest) ∧ accepts pattern rest := by
  rw [accepts]
  cases step.element.split cs with
  | none => simp
  | some pieces =>
    obtain ⟨taken, rest⟩ := pieces
    simp

theorem Element.splits_without {element : Element} (loose : element.looseLast) (blank : Blank gap)
    (h : (element.split (text ++ (gap ++ after))).isSome) :
    (element.split (text ++ after)).isSome := by
  cases element with
  | one accepts | oneOrMore accepts =>
    cases text with
    | nil =>
      cases gap with
      | nil => exact h
      | cons c gap =>
        simp [split, refuses_blank loose (blank c List.mem_cons_self)] at h
    | cons c text => cases accepted : accepts c <;> simp [split, accepted] at h ⊢
  | many accepts => rfl
  | enclosed => contradiction

theorem Pattern.accepts_without {pattern : Pattern} (loose : pattern.loose) (blank : Blank gap)
    (h : pattern.accepts (text ++ (gap ++ after))) : pattern.accepts (text ++ after) := by
  induction pattern generalizing text with
  | nil => rfl
  | cons step pattern ih =>
    cases pattern with
    | nil =>
      have last {cs : List Char} : accepts [step] cs = (step.element.split cs).isSome := by
        rw [accepts]
        cases step.element.split cs <;> rfl
      rw [last] at h ⊢
      exact Element.splits_without loose blank h
    | cons next pattern =>
      obtain ⟨first, later⟩ := Bool.and_eq_true_iff.mp loose
      obtain ⟨taken, rest, found, accepted⟩ := accepts_cons.mp h
      obtain ⟨taken', found' | ⟨more, rfl, found'⟩⟩ := Element.rejoins first blank found
      · exact accepts_cons.mpr ⟨taken', rest, found', accepted⟩
      · exact accepts_cons.mpr ⟨taken', _, found', ih later accepted⟩

-- No word goes on from the one text to the other.
def Seam (text after : List Char) : Prop :=
  ∀ c ∈ text.getLast?, ∀ d ∈ after.head?, c.isAlpha → d.isAlpha = false

theorem Pattern.accepts_letters_without {pattern : Pattern} (loose : pattern.loose)
    (blank : Blank gap) (seam : Seam text after)
    (h : accepts (.letters :: pattern) (text ++ (gap ++ after))) :
    accepts (.letters :: pattern) (text ++ after) := by
  cases gap with
  | nil => exact h
  | cons b gap =>
    have stop := isAlpha_of_isBlank (blank b List.mem_cons_self)
    have split := List.takeWhile_append_dropWhile (p := Char.isAlpha) (l := text)
    have letters : ∀ c ∈ text.takeWhile Char.isAlpha, c.isAlpha :=
      List.all_eq_true.mp List.all_takeWhile
    have ends : ∀ d ∈ (text.dropWhile Char.isAlpha).head?, d.isAlpha = false :=
      fun _ => refused_of_head?_dropWhile
    generalize text.takeWhile Char.isAlpha = word at split letters
    generalize text.dropWhile Char.isAlpha = more at split ends
    subst split
    by_cases empty : word = []
    · subst empty
      obtain ⟨_, _, found, -⟩ := accepts_cons.mp h
      cases more with
      | nil => simp [Step.letters, Step.element, Element.split, stop] at found
      | cons d more => simp [Step.letters, Step.element, Element.split, ends d rfl] at found
    have takes {later : List Char} (stops : more = [] → ∀ d ∈ later.head?, d.isAlpha = false) :
        Step.letters.element.Takes word (more ++ later) := by
      refine Word.takes ⟨empty, letters⟩ ?_
      cases more with
      | nil => exact stops rfl
      | cons d more => exact ends
    -- The word stops at the blank, and without the blank at what follows, where no word goes on.
    have spaced : more = [] → ∀ d ∈ (b :: gap ++ after).head?, d.isAlpha = false := by
      rintro - _ ⟨⟩
      exact stop
    have joined : more = [] → ∀ d ∈ after.head?, d.isAlpha = false := by
      rintro rfl d first
      rw [List.append_nil] at seam
      have last := List.getLast?_eq_some_getLast empty
      exact seam _ last d first (letters _ (List.getLast_mem empty))
    rw [List.append_assoc] at h ⊢
    rw [accepts_takes (takes spaced)] at h
    rw [accepts_takes (takes joined)]
    exact accepts_without loose blank h

def Rule.Loose (rule : Rule) : Prop :=
  rule.pattern.loose ∨ ∃ pattern : Pattern, rule.pattern = .letters :: pattern ∧ pattern.loose

theorem Rule.loose {grammar : Grammar} {rule : Rule} (member : rule ∈ grammar.rules) :
    rule.Loose := by
  refine Grammar.forall_rules ?function ?noFunction ?plot ?sequence ?longSequence ?noSequence
    ?noLongSequence ?call ?indexOfTerm ?partialSum ?indexOfPartialSum ?name ?number ?operator ?newline
    ?opening ?closing ?equals ?comma rule member
  case function | noFunction | call => exact .inr ⟨_, rfl, by decide⟩
  case operator => exact fun operation => .inl (by cases operation <;> decide)
  all_goals exact .inl (by decide)

theorem Rule.fails_spaced {grammar : Grammar} {rule : Rule} (member : rule ∈ grammar.rules)
    (blank : Blank gap) (seam : Seam text after) {offset : Nat}
    (failed : rule.match? offset (text ++ after) = none) :
    rule.match? offset (text ++ (gap ++ after)) = none := by
  rw [match?_eq_none] at failed ⊢
  refine Bool.eq_false_iff.mpr fun accepted => ?_
  have without : rule.pattern.accepts (text ++ after) := by
    rcases loose member with loose | ⟨pattern, same, loose⟩
    · exact Pattern.accepts_without loose blank accepted
    · rw [same] at accepted ⊢
      exact Pattern.accepts_letters_without loose blank seam accepted
  rw [failed] at without
  contradiction

end Without

section Before

variable {rest rest' cs consumed : List Char} {offset : Nat}

def Element.stopsAt (c : Char) : Element → Bool
  | one _ => true
  | oneOrMore accepts | many accepts => !accepts c
  | enclosed => false

def Pattern.stopsAt (c : Char) : Pattern → Bool
  | [] => true
  | step :: pattern =>
    (decide (0 < leastSkipped pattern) || step.element.stopsAt c) && stopsAt c pattern

theorem Element.Takes.before {element : Element} (takes : element.Takes text rest)
    (stops : rest'.head? = rest.head? ∨ ∃ c, rest'.head? = some c ∧ element.stopsAt c) :
    element.Takes text rest' := by
  cases element with
  | one accepts => exact takes
  | oneOrMore accepts =>
    obtain ⟨nonempty, taken, ended⟩ := takes
    refine ⟨nonempty, taken, ?_⟩
    rcases stops with same | ⟨c, first, stop⟩
    · rwa [same]
    · rw [first]
      rintro _ ⟨⟩
      simpa [stopsAt] using stop
  | many accepts =>
    obtain ⟨taken, ended⟩ := takes
    refine ⟨taken, ?_⟩
    rcases stops with same | ⟨c, first, stop⟩
    · rwa [same]
    · rw [first]
      rintro _ ⟨⟩
      simpa [stopsAt] using stop
  | enclosed =>
    rcases stops with same | ⟨c, first, stop⟩
    · exact ⟨takes.1, same.trans takes.2⟩
    · contradiction

theorem Pattern.consumed_ne_nil {α : Type} {pattern : Pattern} {build : Builder α pattern}
    {found : Match α} (filled : 0 < pattern.leastSkipped)
    (h : pattern.scan build offset cs = some found) : found.consumed ≠ [] := by
  induction pattern generalizing offset cs found with
  | nil => contradiction
  | cons step pattern ih =>
    rw [scan_cons] at h
    obtain ⟨⟨taken, later⟩, split, h⟩ := Option.bind_eq_some_iff.mp h
    obtain ⟨more, scanned, rfl⟩ := Option.map_eq_some_iff.mp h
    intro empty
    obtain ⟨none, rest⟩ := List.append_eq_nil_iff.mp empty
    have here := Element.least_le split
    have later : ¬0 < leastSkipped pattern := fun filled => ih filled scanned rest
    rw [none] at here
    cases step with
    | skip element =>
      simp only [leastSkipped] at filled
      simp only [Step.element, Text.byteLength_nil] at here
      omega
    | keep element => exact later filled

theorem Pattern.scan_before {α : Type} {pattern : Pattern} {build : Builder α pattern}
    {found : Match α} (h : pattern.scan build offset cs = some found)
    (stops : rest'.head? = found.rest.head? ∨ ∃ c, rest'.head? = some c ∧ pattern.stopsAt c) :
    pattern.scan build offset (found.consumed ++ rest') = some { found with rest := rest' } := by
  induction pattern generalizing offset cs found with
  | nil =>
    cases h
    rfl
  | cons step pattern ih =>
    rw [scan_cons] at h
    obtain ⟨⟨taken, later⟩, split, h⟩ := Option.bind_eq_some_iff.mp h
    obtain ⟨more, scanned, rfl⟩ := Option.map_eq_some_iff.mp h
    have takes := Element.takes_of_split split
    rw [← scan_append scanned] at takes
    have takes' : step.element.Takes taken (more.consumed ++ rest') := by
      refine takes.before ?_
      by_cases filled : more.consumed = []
      · rw [filled]
        refine stops.imp_right ?_
        rintro ⟨c, first, stop⟩
        have bare : ¬0 < leastSkipped pattern := fun least =>
          consumed_ne_nil least scanned filled
        simp only [stopsAt, bare, decide_false, Bool.false_or, Bool.and_eq_true] at stop
        exact ⟨c, first, stop.1⟩
      · obtain ⟨d, others, same⟩ := List.exists_cons_of_ne_nil filled
        rw [same]
        exact .inl rfl
    have further : more.rest = (Match.after taken more).rest := rfl
    rw [← further] at stops
    have stopsLater : rest'.head? = more.rest.head? ∨
        ∃ c, rest'.head? = some c ∧ stopsAt c pattern := by
      refine stops.imp_right ?_
      rintro ⟨c, first, stop⟩
      exact ⟨c, first, (Bool.and_eq_true_iff.mp stop).2⟩
    have found := ih scanned stopsLater
    rw [Match.after, List.append_assoc, scan_takes takes', found]
    rfl

theorem Rule.match?_before {rule : Rule} {read : Except GrammarFault Shape}
    (h : rule.match? offset cs = some ⟨read, consumed, rest⟩)
    (stops : rest'.head? = rest.head? ∨ ∃ c, rest'.head? = some c ∧ rule.pattern.stopsAt c) :
    rule.match? offset (consumed ++ rest') = some ⟨read, consumed, rest'⟩ := by
  rw [match?_eq] at h ⊢
  obtain ⟨found, scanned, same⟩ := Option.map_eq_some_iff.mp h
  cases same
  rw [Pattern.scan_before scanned stops]
  rfl

theorem Rule.stops_at_blank {grammar : Grammar} {rule : Rule} (member : rule ∈ grammar.rules)
    {shape : Shape} (h : rule.match? offset cs = some ⟨.ok shape, consumed, rest⟩)
    (plain : ∀ outline, shape ≠ .definition outline) {c : Char} (space : Text.isBlank c) :
    rule.pattern.stopsAt c := by
  have stops : ∀ b ∈ [' ', '\t'], ∀ rule ∈ valueRules ++ bracketRules ++
      [newline, mark '=' .equals rfl, mark ',' .separator rfl], rule.pattern.stopsAt b :=
    List.forall_mem_cons.mpr ⟨List.all_eq_true.mp (by decide),
      List.forall_mem_singleton.mpr (List.all_eq_true.mp (by decide))⟩
  have listed : c ∈ [' ', '\t'] := by
    rcases isBlank_iff.mp space with rfl | rfl <;> simp
  refine stops c listed rule ?_
  cases grammar with
  | statements =>
    rw [Grammar.rules, List.append_assoc, List.append_assoc, List.append_assoc] at member
    rcases List.mem_append.mp member with defines | member
    · obtain ⟨outline, same⟩ := Rule.defines defines h
      exact absurd same (plain outline)
    · simp only [List.mem_append, List.mem_cons, List.not_mem_nil, or_false] at member ⊢
      rcases member with value | line | bracket | equals
      · exact .inl (.inl value)
      · exact .inr (.inl line)
      · exact .inl (.inr bracket)
      · exact .inr (.inr (.inl equals))
  | arguments =>
    rw [Grammar.rules, List.append_assoc, List.append_assoc] at member
    rcases List.mem_append.mp member with refused | member
    · exact (Rule.not_ok refused h).elim
    · simp only [List.mem_append, List.mem_cons, List.not_mem_nil, or_false] at member ⊢
      rcases member with value | comma | bracket
      · exact .inl (.inl value)
      · exact .inr (.inr (.inr comma))
      · exact .inl (.inr bracket)

end Before

theorem Grammar.match?_spaced {grammar : Grammar} {offset : Nat} {consumed rest : List Char}
    {shape : Shape} (blank : Blank gap) (seam : Seam (consumed ++ rest) after)
    (h : grammar.match? offset (consumed ++ rest ++ after) =
      some ⟨.ok shape, consumed, rest ++ after⟩)
    (plain : rest = [] → ∀ outline, shape ≠ .definition outline) :
    grammar.match? offset (consumed ++ rest ++ (gap ++ after)) =
      some ⟨.ok shape, consumed, rest ++ (gap ++ after)⟩ := by
  obtain ⟨earlier, rule, later, split, found, failed⟩ := List.findSome?_eq_some_iff.mp h
  have members : ∀ other ∈ earlier ++ rule :: later, other ∈ grammar.rules := by
    rw [split]
    exact fun _ => id
  refine List.findSome?_eq_some_iff.mpr ⟨earlier, rule, later, split, ?_, fun other member => ?_⟩
  · rw [List.append_assoc]
    refine Rule.match?_before found ?_
    cases rest with
    | cons c rest => exact .inl rfl
    | nil =>
      cases gap with
      | nil => exact .inl rfl
      | cons c gap =>
        exact .inr ⟨c, rfl, Rule.stops_at_blank (members rule (by simp)) found (plain rfl)
          (blank c List.mem_cons_self)⟩
  · exact Rule.fails_spaced (members other (List.mem_append_left _ member)) blank seam
      (failed other member)

end FormulaSheet.Token
