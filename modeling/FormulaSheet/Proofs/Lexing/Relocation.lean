import FormulaSheet.Proofs.Lexing.Scanning
import Mathlib.Data.List.Forall2

set_option autoImplicit false

namespace FormulaSheet

-- The text stands in the source at that offset.
def StandsAt (source : String) (offset : Nat) (text : List Char) : Prop :=
  ∃ before after, source.toList = before ++ (text ++ after) ∧ Text.byteLength before = offset

theorem StandsAt.left {source : String} {offset : Nat} {text rest : List Char}
    (h : StandsAt source offset (text ++ rest)) : StandsAt source offset text := by
  obtain ⟨before, after, same, place⟩ := h
  exact ⟨before, rest ++ after, by rw [same, List.append_assoc], place⟩

theorem StandsAt.right {source : String} {offset : Nat} {text rest : List Char}
    (h : StandsAt source offset (text ++ rest)) :
    StandsAt source (offset + Text.byteLength text) rest := by
  obtain ⟨before, after, same, place⟩ := h
  refine ⟨before ++ text, after, ?_, ?_⟩
  · rw [same, List.append_assoc, List.append_assoc]
  · rw [Text.byteLength_append, place]

structure Capture.Moved (source source' : String) (capture capture' : Capture) : Prop where
  text : capture'.text = capture.text
  here : StandsAt source capture.offset capture.text.toList
  there : StandsAt source' capture'.offset capture.text.toList

inductive Shape.Moved (source source' : String) : Shape → Shape → Prop
  | function {name name' parameters parameters' body body' : Capture} :
      name.Moved source source' name' → parameters.Moved source source' parameters' →
        body.Moved source source' body' →
          Shape.Moved source source' (.definition (.function name parameters body))
            (.definition (.function name' parameters' body'))
  | plot {body body' : Capture} : body.Moved source source' body' →
      Shape.Moved source source' (.definition (.plot body)) (.definition (.plot body'))
  | sequence {first first' second second' : Capture} {third third' : Option Capture} :
      first.Moved source source' first' → second.Moved source source' second' →
        Option.Rel (Capture.Moved source source') third third' →
          Shape.Moved source source' (.definition (.sequence first second third))
            (.definition (.sequence first' second' third'))
  | call {callee callee' arguments arguments' : Capture} : callee.Moved source source' callee' →
      arguments.Moved source source' arguments' →
        Shape.Moved source source' (.call callee arguments) (.call callee' arguments')
  | query (query : Query) {arguments arguments' : Capture} :
      arguments.Moved source source' arguments' →
        Shape.Moved source source' (.query query arguments) (.query query arguments')
  | plain {shape : Shape} : shape.captures = [] → Shape.Moved source source' shape shape

namespace Token

variable {source source' : String}

def Pattern.Moves {α : Type} (source source' : String) (moved : α → α → Prop) :
    (pattern : Pattern) → Builder α pattern → Builder α pattern → Prop
  | [], value, value' => moved value value'
  | .skip _ :: pattern, build, build' => Moves source source' moved pattern build build'
  | .keep _ :: pattern, build, build' => ∀ capture capture',
      capture.Moved source source' capture' →
        Moves source source' moved pattern (build capture) (build' capture')

theorem Pattern.Moves.feed {α : Type} {moved : α → α → Prop} {step : Step} {pattern : Pattern}
    {build build' : Builder α (step :: pattern)}
    (moves : Moves source source' moved (step :: pattern) build build')
    {capture capture' : Capture} (same : capture.Moved source source' capture') :
    Moves source source' moved pattern (build.feed step capture) (build'.feed step capture') := by
  cases step with
  | skip => exact moves
  | keep => exact moves _ _ same

theorem Pattern.scan_moved {α : Type} {moved : α → α → Prop} {pattern : Pattern}
    {build build' : Builder α pattern} (moves : Moves source source' moved pattern build build')
    {offset offset' : Nat} {cs : List Char} (here : StandsAt source offset cs)
    (there : StandsAt source' offset' cs) :
    Option.Rel (fun found found' => moved found.value found'.value ∧
        found'.consumed = found.consumed ∧ found'.rest = found.rest)
      (pattern.scan build offset cs) (pattern.scan build' offset' cs) := by
  induction pattern generalizing offset offset' cs with
  | nil => exact .some ⟨moves, rfl, rfl⟩
  | cons step pattern ih =>
    rw [scan_cons, scan_cons]
    cases found : step.element.split cs with
    | none => exact .none
    | some split =>
      obtain ⟨text, rest⟩ := split
      rw [← Element.split_append found] at here there
      have capture : Capture.Moved source source' ⟨offset, String.ofList text⟩
          ⟨offset', String.ofList text⟩ :=
        ⟨rfl, by simpa using here.left, by simpa using there.left⟩
      simp only [Option.bind_some]
      have later := ih (moves.feed capture) here.right there.right
      generalize scan pattern _ (offset + Text.byteLength text) rest = first at later
      generalize scan pattern _ (offset' + Text.byteLength text) rest = second at later
      cases later with
      | none => exact .none
      | some same => exact .some ⟨same.1, congrArg (text ++ ·) same.2.1, same.2.2⟩

def ReadsMoved (source source' : String) (read read' : List Char → Except GrammarFault Shape) :
    Prop :=
  ∀ text shape, read text = .ok shape →
    ∃ shape', read' text = .ok shape' ∧ shape.Moved source source' shape'

def Rule.Moves (source source' : String) (rule : Rule) : Prop :=
  Pattern.Moves source source' (ReadsMoved source source') rule.pattern rule.shape rule.shape

theorem readsMoved_plain {shape : Shape} (bare : shape.captures = []) :
    ReadsMoved source source' (fun _ => .ok shape) fun _ => .ok shape := by
  rintro _ _ ⟨⟩
  exact ⟨shape, rfl, .plain bare⟩

theorem readsMoved_number : ReadsMoved source source' readNumber readNumber := by
  intro text shape h
  refine ⟨shape, h, .plain ?_⟩
  simp only [readNumber] at h
  split at h
  · contradiction
  · split at h
    · cases h
      rfl
    · contradiction

theorem Rule.moves {grammar : Grammar} {rule : Rule} (member : rule ∈ grammar.rules) :
    rule.Moves source source' := by
  refine Grammar.forall_rules ?function ?noFunction ?plot ?sequence ?longSequence ?noSequence
    ?noLongSequence ?call ?indexOfTerm ?partialSum ?indexOfPartialSum ?name ?number ?operator ?newline
    ?opening ?closing ?equals ?comma rule member
  case function =>
    rintro name name' named parameters parameters' given body body' written _ _ ⟨⟩
    exact ⟨_, rfl, .function named given written⟩
  case plot =>
    rintro body body' written _ _ ⟨⟩
    exact ⟨_, rfl, .plot written⟩
  case sequence =>
    rintro first first' one second second' two _ _ ⟨⟩
    exact ⟨_, rfl, .sequence one two .none⟩
  case longSequence =>
    rintro first first' one second second' two third third' three _ _ ⟨⟩
    exact ⟨_, rfl, .sequence one two (.some three)⟩
  case noFunction | noLongSequence => rintro _ _ - _ _ - _ _ - _ _ ⟨⟩
  case noSequence => rintro _ _ - _ _ - _ _ ⟨⟩
  case call =>
    rintro callee callee' named arguments arguments' given _ _ ⟨⟩
    exact ⟨_, rfl, .call named given⟩
  case indexOfTerm | partialSum | indexOfPartialSum =>
    rintro arguments arguments' given _ _ ⟨⟩
    exact ⟨_, rfl, .query _ given⟩
  case number => exact readsMoved_number
  case operator => exact fun _ => readsMoved_plain rfl
  case name | newline | opening | closing | equals | comma => exact readsMoved_plain rfl

section Matching

variable {S : Except GrammarFault Shape → Except GrammarFault Shape → Prop} {grammar : Grammar}
  {offset offset' : Nat} {cs : List Char}

def Rule.Relates (source source' : String)
    (S : Except GrammarFault Shape → Except GrammarFault Shape → Prop) (rule : Rule) : Prop :=
  Pattern.Moves source source' (fun read read' => ∀ text, S (read text) (read' text))
    rule.pattern rule.shape rule.shape

structure Match.Related (S : Except GrammarFault Shape → Except GrammarFault Shape → Prop)
    (found found' : Match (Except GrammarFault Shape)) : Prop where
  value : S found.value found'.value
  consumed : found'.consumed = found.consumed
  rest : found'.rest = found.rest

theorem Rule.match?_related {rule : Rule} (relates : rule.Relates source source' S)
    (here : StandsAt source offset cs) (there : StandsAt source' offset' cs) :
    Option.Rel (Match.Related S) (rule.match? offset cs) (rule.match? offset' cs) := by
  rw [match?_eq, match?_eq]
  have scanned := Pattern.scan_moved relates here there
  generalize rule.pattern.scan rule.shape offset cs = first at scanned
  generalize rule.pattern.scan rule.shape offset' cs = second at scanned
  cases scanned with
  | none => exact .none
  | some same =>
    obtain ⟨read, taken, left⟩ := same
    refine .some ⟨?_, taken, left⟩
    simp only [taken]
    exact read _

theorem Grammar.match?_related (each : ∀ rule ∈ grammar.rules, rule.Relates source source' S)
    (here : StandsAt source offset cs) (there : StandsAt source' offset' cs) :
    Option.Rel (Match.Related S) (grammar.match? offset cs) (grammar.match? offset' cs) := by
  unfold match?
  generalize grammar.rules = rules at each
  induction rules with
  | nil => exact .none
  | cons rule rules ih =>
    obtain ⟨first, others⟩ := List.forall_mem_cons.mp each
    have related := Rule.match?_related first here there
    rw [List.findSome?_cons, List.findSome?_cons]
    generalize rule.match? offset cs = found at related
    generalize rule.match? offset' cs = found' at related
    cases related with
    | none => exact ih others
    | some related => exact .some related

theorem Grammar.match?_some_related (each : ∀ rule ∈ grammar.rules, rule.Relates source source' S)
    (here : StandsAt source offset cs) (there : StandsAt source' offset' cs)
    {consumed rest : List Char} {read : Except GrammarFault Shape}
    (found : grammar.match? offset cs = some ⟨read, consumed, rest⟩) :
    ∃ read', grammar.match? offset' cs = some ⟨read', consumed, rest⟩ ∧ S read read' := by
  have related := Grammar.match?_related each here there
  rw [found] at related
  generalize grammar.match? offset' cs = again at related
  cases related with
  | @some _ found' related =>
    obtain ⟨read', consumed', rest'⟩ := found'
    obtain ⟨value, rfl, rfl⟩ := related
    exact ⟨read', rfl, value⟩

theorem Grammar.match?_moved {consumed rest : List Char} {shape : Shape}
    (here : StandsAt source offset cs) (there : StandsAt source' offset' cs)
    (h : grammar.match? offset cs = some ⟨.ok shape, consumed, rest⟩) :
    ∃ shape', grammar.match? offset' cs = some ⟨.ok shape', consumed, rest⟩ ∧
      shape.Moved source source' shape' := by
  have each : ∀ rule ∈ grammar.rules, rule.Relates source source' fun read read' =>
      ∀ shape, read = .ok shape → ∃ shape', read' = .ok shape' ∧ shape.Moved source source' shape' :=
    fun _ => Rule.moves
  obtain ⟨_, found, same⟩ := Grammar.match?_some_related each here there h
  obtain ⟨shape', rfl, moved⟩ := same shape rfl
  exact ⟨shape', found, moved⟩

end Matching

end Token

end FormulaSheet
