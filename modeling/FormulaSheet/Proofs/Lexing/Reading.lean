import FormulaSheet.Proofs.Lexing.Relocation

set_option autoImplicit false

namespace FormulaSheet.Token

inductive Reads (grammar : Grammar) : Place → List Char → List Token → Prop
  | done (place : Place) : Reads grammar place [] []
  | blank {place : Place} {c : Char} {cs : List Char} {tokens : List Token} : Text.isBlank c →
      Reads grammar (place.advance c) cs tokens → Reads grammar place (c :: cs) tokens
  | token {place : Place} {c : Char} {cs consumed rest : List Char} {shape : Shape}
      {tokens : List Token} : Text.isBlank c = false →
      grammar.match? place.index (c :: cs) = some ⟨.ok shape, consumed, rest⟩ →
      Reads grammar (place.advanceAll consumed) rest tokens →
      Reads grammar place (c :: cs) (⟨⟨String.ofList consumed, place⟩, shape⟩ :: tokens)

variable {grammar : Grammar} {source : String} {place : Place} {c : Char} {cs : List Char}

theorem readFrom_nil : readFrom grammar source place [] = ⟨[], none⟩ := by
  rw [readFrom]
  rfl

theorem readFrom_blank (blank : Text.isBlank c) :
    readFrom grammar source place (c :: cs) =
      readFrom grammar source (place.advance c) cs := by
  have same : next grammar source place (c :: cs) = next grammar source (place.advance c) cs := by
    simp [next, blank]
  rw [readFrom.eq_def, readFrom.eq_def _ _ (place.advance c)]
  split <;> split <;> simp_all

theorem readFrom_token {shape : Shape} {consumed rest : List Char}
    (filled : Text.isBlank c = false)
    (found : grammar.match? place.index (c :: cs) = some ⟨.ok shape, consumed, rest⟩) :
    readFrom grammar source place (c :: cs) =
      (readFrom grammar source (place.advanceAll consumed) rest).cons
        ⟨⟨String.ofList consumed, place⟩, shape⟩ := by
  have step : next grammar source place (c :: cs) =
      .token ⟨⟨String.ofList consumed, place⟩, shape⟩ (place.advanceAll consumed) rest := by
    simp [next, filled, found]
  rw [readFrom.eq_def]
  split <;> simp_all

theorem Reads.readFrom_eq {tokens : List Token} (h : Reads grammar place cs tokens) :
    readFrom grammar source place cs = ⟨tokens, none⟩ := by
  induction h with
  | done => exact readFrom_nil
  | blank blank _ ih => rw [readFrom_blank blank, ih]
  | token filled found _ ih =>
    rw [readFrom_token filled found, ih]
    rfl

theorem Reads.blanks {blanks : List Char} (blank : ∀ c ∈ blanks, Text.isBlank c)
    {tokens : List Token} (h : Reads grammar (place.advanceAll blanks) cs tokens) :
    Reads grammar place (blanks ++ cs) tokens := by
  induction blanks generalizing place with
  | nil => exact h
  | cons c blanks ih =>
    obtain ⟨first, later⟩ := List.forall_mem_cons.mp blank
    exact .blank first (ih later h)

theorem reads_of_readFrom (unfailed : (readFrom grammar source place cs).failure = none) :
    Reads grammar place cs (readFrom grammar source place cs).tokens := by
  have leading (cs : List Char) : ∀ c ∈ cs.takeWhile Text.isBlank, Text.isBlank c :=
    List.all_eq_true.mp List.all_takeWhile
  fun_induction readFrom grammar source place cs with
  | case1 place cs step =>
    simp only [next] at step
    split at step
    next blank =>
      have all := List.takeWhile_append_dropWhile (p := Text.isBlank) (l := cs)
      rw [blank] at all
      rw [← all]
      exact (Reads.done _).blanks (leading cs)
    · split at step <;> contradiction
  | case2 => contradiction
  | case3 place cs token after rest step ih =>
    simp only [next] at step
    split at step
    · contradiction
    next c tail filled =>
      split at step
      · contradiction
      · contradiction
      next shape consumed later found =>
        cases step
        have nonblank : Text.isBlank c = false := by
          apply refused_of_head?_dropWhile
          rw [filled]
          rfl
        have all := List.takeWhile_append_dropWhile (p := Text.isBlank) (l := cs)
        rw [filled] at all
        have reads := (Reads.token nonblank found (ih unfailed)).blanks (leading cs)
        rwa [all] at reads

theorem readFrom_failure {e : Error} (h : (readFrom grammar source place cs).failure = some e) :
    ∃ fault position, e = .grammar fault position ∧
      ((∃ c, fault = .unreadable c) ∨ ∃ offset cs consumed rest,
        grammar.match? offset cs = some ⟨.error fault, consumed, rest⟩) := by
  fun_induction readFrom grammar source place cs with
  | case1 => contradiction
  | case2 place cs error step =>
    cases h
    simp only [next] at step
    split at step
    · contradiction
    · split at step
      · cases step
        exact ⟨_, _, rfl, .inl ⟨_, rfl⟩⟩
      next found =>
        cases step
        exact ⟨_, _, rfl, .inr ⟨_, _, _, _, found⟩⟩
      · contradiction
  | case3 place cs token after rest step ih => exact ih h

theorem readFrom_eq_iff {tokens : List Token} :
    readFrom grammar source place cs = ⟨tokens, none⟩ ↔ Reads grammar place cs tokens := by
  constructor
  · intro h
    have unfailed : (readFrom grammar source place cs).failure = none := by rw [h]
    have reads := reads_of_readFrom unfailed
    rwa [h] at reads
  · exact Reads.readFrom_eq

theorem Reads.unique {tokens others : List Token} (h : Reads grammar place cs tokens)
    (again : Reads grammar place cs others) : others = tokens := by
  have first : readFrom grammar "" place cs = ⟨tokens, none⟩ := h.readFrom_eq
  have second : readFrom grammar "" place cs = ⟨others, none⟩ := again.readFrom_eq
  exact congrArg Reading.tokens (second.symm.trans first)

section Following

def Reading.prepend (tokens : List Token) (reading : Reading) : Reading :=
  { reading with tokens := tokens ++ reading.tokens }

variable {tokens : List Token}

theorem readFrom_extended {shape : Shape} {consumed rest more : List Char}
    (filled : Text.isBlank c = false)
    (found : grammar.match? place.index (c :: cs) = some ⟨.ok shape, consumed, rest⟩)
    (stays : ∀ rule ∈ grammar.rules,
      rule.Stays more place.index (c :: cs) ⟨.ok shape, consumed, rest⟩) :
    readFrom grammar source place (c :: cs ++ more) =
      (readFrom grammar source (place.advanceAll consumed) (rest ++ more)).cons
        ⟨⟨String.ofList consumed, place⟩, shape⟩ :=
  readFrom_token filled (Grammar.match?_following stays found)

def EndsInLine (cs : List Char) : Prop :=
  ∀ before c, cs = before ++ [c] → Text.isLineBreak c = false

theorem EndsInLine.right {before : List Char} (h : EndsInLine (before ++ cs)) : EndsInLine cs :=
  fun others c same => h (before ++ others) c (by rw [same, List.append_assoc])

theorem EndsInLine.rules_keep (ends : EndsInLine (c :: cs)) {b : Char}
    (isBreak : Text.isLineBreak b) (more : List Char) {rule : Rule}
    (member : rule ∈ Grammar.statements.rules) : rule.pattern.Keeps (b :: more) (c :: cs) := by
  have stops : ∃ d ∈ c :: cs, Text.isLineBreak d = false := by
    rcases List.eq_nil_or_concat cs with rfl | ⟨before, d, rfl⟩
    · exact ⟨c, List.mem_cons_self, ends [] c rfl⟩
    · exact ⟨d, by simp, ends (c :: before) d (by simp)⟩
  simp only [Text.isLineBreak, Bool.or_eq_true, decide_eq_true_eq] at isBreak
  have rejected : ∀ rule ∈ [Rule.function, .plot, .longSequence, .sequence] ++ valueRules ++
      (bracketRules ++ [.mark '=' .equals rfl]), rule.pattern.rejects b := by
    rcases isBreak with rfl | rfl <;> exact List.all_eq_true.mp (by decide)
  rw [Grammar.rules, List.append_assoc, List.append_assoc] at member
  rcases List.mem_append.mp member with member | member
  · exact Pattern.keeps_of_rejects (rejected rule (List.mem_append_left _ member)) _ _
  rcases List.mem_append.mp member with member | member
  · cases List.mem_singleton.mp member
    exact ⟨Element.keeps_of_mem stops _, fun _ _ _ => trivial⟩
  · exact Pattern.keeps_of_rejects (rejected rule (List.mem_append_right _ member)) _ _

theorem Reads.before_lineBreak (h : Reads .statements place cs tokens) (ends : EndsInLine cs)
    {b : Char} (isBreak : Text.isLineBreak b) (more : List Char) :
    readFrom .statements source place (cs ++ b :: more) =
      (readFrom .statements source (place.advanceAll cs) (b :: more)).prepend tokens := by
  induction h with
  | done => rfl
  | @blank place c cs tokens blank _ ih =>
    have later : EndsInLine ([c] ++ cs) := ends
    rw [List.cons_append, readFrom_blank blank, ih later.right]
    rfl
  | @token place c cs consumed rest shape tokens filled found _ ih =>
    have split : consumed ++ rest = c :: cs := Grammar.match?_append found
    have later : EndsInLine (consumed ++ rest) := split ▸ ends
    rw [readFrom_extended filled found, ih later.right, ← split,
      Place.advanceAll_append]
    · rfl
    · intro rule member
      exact Rule.stays_of_keeps (ends.rules_keep isBreak more member) _ _

end Following

section Moving

variable {source' : String} {tokens : List Token}

structure Moved (source source' : String) (token token' : Token) : Prop where
  text : token'.site.text = token.site.text
  shape : token.shape.Moved source source' token'.shape

theorem Reads.moved (h : Reads grammar place cs tokens) {place' : Place}
    (here : StandsAt source place.index cs) (there : StandsAt source' place'.index cs) :
    ∃ tokens', Reads grammar place' cs tokens' ∧ List.Forall₂ (Moved source source') tokens tokens' := by
  induction h generalizing place' with
  | done => exact ⟨[], .done _, .nil⟩
  | @blank place c cs tokens blank _ ih =>
    have here : StandsAt source place.index ([c] ++ cs) := here
    have there : StandsAt source' place'.index ([c] ++ cs) := there
    have there : StandsAt source' (place'.advance c).index cs := there.right
    obtain ⟨tokens', reads, moved⟩ := ih here.right there
    exact ⟨tokens', .blank blank reads, moved⟩
  | @token place c cs consumed rest shape tokens filled found _ ih =>
    obtain ⟨shape', found', same⟩ := Grammar.match?_moved here there found
    have split : consumed ++ rest = c :: cs := Grammar.match?_append found
    rw [← split] at here there
    have there : StandsAt source' (place'.advanceAll consumed).index rest := by
      simpa using there.right
    obtain ⟨tokens', reads, moved⟩ := ih (by simpa using here.right) there
    exact ⟨_, .token filled found' reads, .cons ⟨rfl, same⟩ moved⟩

theorem read_range (grammar : Grammar) {before text after : List Char}
    (same : source.toList = before ++ (text ++ after)) :
    read grammar source (Text.byteLength before) (Text.byteLength before + Text.byteLength text) =
      readFrom grammar source (.after before) text := by
  rw [read, Text.sliceBytes, Nat.add_sub_cancel_left, same, Text.takeBytes_append,
    Text.dropBytes_append, Text.takeBytes_append]

theorem read_capture (grammar : Grammar) {capture : Capture}
    (stands : StandsAt source capture.offset capture.text.toList) :
    ∃ place, place.index = capture.offset ∧
      read grammar source capture.offset capture.stop =
        readFrom grammar source place capture.text.toList := by
  obtain ⟨before, after, same, offset⟩ := stands
  rw [Capture.stop, Capture.byteLength, ← Text.byteLength_toList, ← offset]
  exact ⟨.after before, rfl, read_range grammar same⟩

end Moving

end FormulaSheet.Token
