import FormulaSheet.Proofs.Lexing.Lossless

set_option autoImplicit false

namespace FormulaSheet

section Unplaced

def Capture.unplaced (capture : Capture) : Capture :=
  { capture with offset := 0 }

def Outline.unplaced : Outline → Outline
  | function name parameters body => function name.unplaced parameters.unplaced body.unplaced
  | plot body => plot body.unplaced
  | sequence first second third =>
    sequence first.unplaced second.unplaced (third.map Capture.unplaced)

def Shape.unplaced : Shape → Shape
  | definition outline => definition outline.unplaced
  | call callee arguments => call callee.unplaced arguments.unplaced
  | query asked arguments => query asked arguments.unplaced
  | shape => shape

-- The token without its place and those of its captures: its kind, its text, its value and the texts
-- of its captures.
def Token.unplaced (token : Token) : Token :=
  ⟨⟨token.site.text, .origin⟩, token.shape.unplaced⟩

theorem Capture.Moved.unplaced {source source' : String} {capture capture' : Capture}
    (moved : capture.Moved source source' capture') : capture'.unplaced = capture.unplaced := by
  rw [Capture.unplaced, Capture.unplaced, moved.text]

end Unplaced

namespace Token

variable {grammar : Grammar} {source source' : String} {place place' : Place} {c : Char}
  {cs : List Char} {tokens : List Token}

section Matching

def SameRead (read read' : List Char → Except GrammarFault Shape) : Prop :=
  ∀ text, (read' text).map Shape.unplaced = (read text).map Shape.unplaced

def Rule.ReadsAlike (source source' : String) (rule : Rule) : Prop :=
  rule.Relates source source' fun read read' => read'.map Shape.unplaced = read.map Shape.unplaced

theorem sameRead_refl (read : List Char → Except GrammarFault Shape) : SameRead read read :=
  fun _ => rfl

theorem sameRead_ok {shape shape' : Shape} (same : shape'.unplaced = shape.unplaced) :
    SameRead (fun _ => .ok shape) fun _ => .ok shape' :=
  fun _ => congrArg Except.ok same

theorem Rule.readsAlike {rule : Rule} (member : rule ∈ grammar.rules) :
    rule.ReadsAlike source source' := by
  refine Grammar.forall_rules ?function ?noFunction ?plot ?sequence ?longSequence ?noSequence
    ?noLongSequence ?call ?indexOfTerm ?partialSum ?indexOfPartialSum ?name ?number ?operator ?newline
    ?opening ?closing ?equals ?comma rule member
  case function =>
    intro name name' named parameters parameters' given body body' written
    refine sameRead_ok ?_
    simp only [Shape.unplaced, Outline.unplaced, named.unplaced, given.unplaced, written.unplaced]
  case plot =>
    intro body body' written
    refine sameRead_ok ?_
    simp only [Shape.unplaced, Outline.unplaced, written.unplaced]
  case sequence =>
    intro first first' one second second' two
    refine sameRead_ok ?_
    simp only [Shape.unplaced, Outline.unplaced, Option.map_none, one.unplaced, two.unplaced]
  case longSequence =>
    intro first first' one second second' two third third' three
    refine sameRead_ok ?_
    simp only [Shape.unplaced, Outline.unplaced, Option.map_some, one.unplaced, two.unplaced,
      three.unplaced]
  case noFunction | noLongSequence => exact fun _ _ _ _ _ _ _ _ _ => sameRead_refl _
  case noSequence => exact fun _ _ _ _ _ _ => sameRead_refl _
  case call =>
    intro callee callee' named arguments arguments' given
    exact sameRead_ok (congrArg₂ Shape.call named.unplaced given.unplaced)
  case indexOfTerm | partialSum | indexOfPartialSum =>
    intro arguments arguments' given
    exact sameRead_ok (congrArg (Shape.query _) given.unplaced)
  case operator => exact fun _ => sameRead_refl _
  case name | number | newline | opening | closing | equals | comma => exact sameRead_refl _

theorem Grammar.match?_none {offset offset' : Nat} (here : StandsAt source offset cs)
    (there : StandsAt source' offset' cs) (failed : grammar.match? offset cs = none) :
    grammar.match? offset' cs = none := by
  have each : ∀ rule ∈ grammar.rules, rule.ReadsAlike source source' := fun _ => Rule.readsAlike
  have alike := Grammar.match?_related each here there
  rw [failed] at alike
  generalize grammar.match? offset' cs = found at alike
  cases alike
  rfl

theorem Grammar.match?_some {offset offset' : Nat} {consumed rest : List Char}
    {read : Except GrammarFault Shape} (here : StandsAt source offset cs)
    (there : StandsAt source' offset' cs)
    (found : grammar.match? offset cs = some ⟨read, consumed, rest⟩) :
    ∃ read', grammar.match? offset' cs = some ⟨read', consumed, rest⟩ ∧
      read'.map Shape.unplaced = read.map Shape.unplaced :=
  Grammar.match?_some_related (fun _ => Rule.readsAlike) here there found

end Matching

section Derivations

structure Failure where
  fault : GrammarFault
  site : Site

def Failure.error (failure : Failure) (source : String) : Error :=
  .grammar failure.fault (failure.site.locate source)

inductive Scanned (grammar : Grammar) :
    Place → List Char → List Token → Option Failure → Prop
  | done (place : Place) : Scanned grammar place [] [] none
  | blank {place : Place} {c : Char} {cs : List Char} {tokens : List Token}
      {failure : Option Failure} : Text.isBlank c →
      Scanned grammar (place.advance c) cs tokens failure →
      Scanned grammar place (c :: cs) tokens failure
  | unreadable {place : Place} {c : Char} {cs : List Char} : Text.isBlank c = false →
      grammar.match? place.index (c :: cs) = none →
      Scanned grammar place (c :: cs) [] (some ⟨.unreadable c, ⟨String.singleton c, place⟩⟩)
  | refused {place : Place} {c : Char} {cs consumed rest : List Char} {fault : GrammarFault} :
      Text.isBlank c = false →
      grammar.match? place.index (c :: cs) = some ⟨.error fault, consumed, rest⟩ →
      Scanned grammar place (c :: cs) [] (some ⟨fault, ⟨String.ofList consumed, place⟩⟩)
  | token {place : Place} {c : Char} {cs consumed rest : List Char} {shape : Shape}
      {tokens : List Token} {failure : Option Failure} : Text.isBlank c = false →
      grammar.match? place.index (c :: cs) = some ⟨.ok shape, consumed, rest⟩ →
      Scanned grammar (place.advanceAll consumed) rest tokens failure →
      Scanned grammar place (c :: cs) (⟨⟨String.ofList consumed, place⟩, shape⟩ :: tokens) failure

variable {failure : Option Failure}

theorem readFrom_fault {error : Error} (step : next grammar source place cs = .fault error) :
    readFrom grammar source place cs = ⟨[], some error⟩ := by
  rw [readFrom.eq_def]
  split <;> simp_all

theorem Scanned.readFrom_eq (h : Scanned grammar place cs tokens failure) (source : String) :
    readFrom grammar source place cs = ⟨tokens, failure.map (·.error source)⟩ := by
  induction h with
  | done => exact readFrom_nil
  | blank blank _ ih => rw [readFrom_blank blank, ih]
  | unreadable filled failed => exact readFrom_fault (by simp [next, filled, failed, Failure.error])
  | refused filled found => exact readFrom_fault (by simp [next, filled, found, Failure.error])
  | token filled found _ ih =>
    rw [readFrom_token filled found, ih]
    rfl

theorem Grammar.byteLength_pos {offset : Nat} {consumed rest : List Char} {shape : Shape}
    (found : grammar.match? offset cs = some ⟨.ok shape, consumed, rest⟩) :
    0 < Text.byteLength consumed := by
  obtain ⟨rule, -, matched⟩ := Grammar.exists_rule found
  exact Nat.zero_lt_of_lt (Rule.captured_lt matched)

theorem exists_scanned (grammar : Grammar) (place : Place) (cs : List Char) :
    ∃ tokens failure, Scanned grammar place cs tokens failure := by
  induction size : Text.byteLength cs using Nat.strongRecOn generalizing place cs with
  | ind size ih =>
    subst size
    cases cs with
    | nil => exact ⟨[], none, .done place⟩
    | cons c cs =>
      cases filled : Text.isBlank c with
      | true =>
        have shorter : Text.byteLength cs < Text.byteLength (c :: cs) := by
          have := c.utf8Size_pos
          simp only [Text.byteLength_cons]
          omega
        obtain ⟨tokens, failure, scanned⟩ := ih _ shorter (place.advance c) cs rfl
        exact ⟨tokens, failure, .blank filled scanned⟩
      | false =>
        rcases found : grammar.match? place.index (c :: cs) with
          - | ⟨fault | shape, consumed, rest⟩
        · exact ⟨_, _, .unreadable filled found⟩
        · exact ⟨_, _, .refused filled found⟩
        · have shorter : Text.byteLength rest < Text.byteLength (c :: cs) := by
            have taken := Grammar.byteLength_pos found
            have whole : consumed ++ rest = c :: cs := Grammar.match?_append found
            rw [← whole, Text.byteLength_append]
            omega
          obtain ⟨tokens, failure, scanned⟩ := ih _ shorter (place.advanceAll consumed) rest rfl
          exact ⟨_, _, .token filled found scanned⟩

theorem Scanned.begins (h : Scanned grammar place cs tokens failure) :
    ∀ token ∈ tokens, place.index ≤ token.start ∧ token.start < token.stop := by
  induction h with
  | done | unreadable | refused => simp
  | @blank place c _ _ _ _ _ ih =>
    intro token member
    have further : (place.advance c).index = place.index + c.utf8Size := rfl
    have := ih token member
    omega
  | @token place _ _ consumed _ _ _ _ _ found _ ih =>
    have taken := Grammar.byteLength_pos found
    refine List.forall_mem_cons.mpr ⟨⟨Nat.le_refl _, ?_⟩, fun token member => ?_⟩
    · have size := Text.byteLength_toList (String.ofList consumed)
      rw [String.toList_ofList] at size
      simp only [stop]
      omega
    · have := ih token member
      rw [Place.advanceAll_index] at this
      omega

structure Failure.Shifted (offset offset' : Nat) (failure failure' : Failure) : Prop where
  fault : failure'.fault = failure.fault
  text : failure'.site.text = failure.site.text
  index : failure'.site.place.index + offset = failure.site.place.index + offset'

theorem Failure.Shifted.advanced {first second : Option Failure} {offset offset' size : Nat}
    (h : Option.Rel (Shifted (offset + size) (offset' + size)) first second) :
    Option.Rel (Shifted offset offset') first second := by
  cases h with
  | none => exact .none
  | some same => exact .some ⟨same.fault, same.text, by have := same.index; omega⟩

theorem Scanned.moved (h : Scanned grammar place cs tokens failure)
    (here : StandsAt source place.index cs) (there : StandsAt source' place'.index cs) :
    ∃ tokens' failure', Scanned grammar place' cs tokens' failure' ∧
      tokens'.map unplaced = tokens.map unplaced ∧
      Option.Rel (Failure.Shifted place.index place'.index) failure failure' := by
  induction h generalizing place' with
  | done => exact ⟨[], none, .done place', rfl, .none⟩
  | @blank place c cs _ _ blank _ ih =>
    have here : StandsAt source place.index ([c] ++ cs) := here
    have there : StandsAt source' place'.index ([c] ++ cs) := there
    have there : StandsAt source' (place'.advance c).index cs := there.right
    obtain ⟨tokens', failure', scanned, same, shifted⟩ := ih here.right there
    exact ⟨tokens', failure', .blank blank scanned, same, Failure.Shifted.advanced shifted⟩
  | @unreadable place c cs filled failed =>
    exact ⟨_, _, .unreadable filled (Grammar.match?_none here there failed), rfl, .some ⟨rfl, rfl, Nat.add_comm ..⟩⟩
  | @refused place c cs consumed rest fault filled found =>
    obtain ⟨read | shape, found', same⟩ := Grammar.match?_some here there found
    · cases same
      exact ⟨_, _, .refused filled found', rfl, .some ⟨rfl, rfl, Nat.add_comm ..⟩⟩
    · contradiction
  | @token place c cs consumed rest shape tokens failure filled found _ ih =>
    obtain ⟨read | shape', found', same⟩ := Grammar.match?_some here there found
    · contradiction
    have unplaced : shape'.unplaced = shape.unplaced := Except.ok.inj same
    have split : consumed ++ rest = c :: cs := Grammar.match?_append found
    rw [← split] at here there
    have there : StandsAt source' (place'.advanceAll consumed).index rest := by
      simpa using there.right
    obtain ⟨tokens', failure', scanned, same, shifted⟩ := ih (by simpa using here.right) there
    rw [Place.advanceAll_index, Place.advanceAll_index] at shifted
    refine ⟨_, failure', .token filled found' scanned, ?_, Failure.Shifted.advanced shifted⟩
    rw [List.map_cons, List.map_cons, same, Token.unplaced, Token.unplaced, unplaced]

end Derivations

end Token

end FormulaSheet
