import FormulaSheet.Proofs.Grammar.Walk
import FormulaSheet.Proofs.Lexing.Expression
import FormulaSheet.Proofs.Places.Parts
import FormulaSheet.Proofs.Session.Frame

set_option autoImplicit false

namespace FormulaSheet

open Formula (chain captured lines rawLines lineEnd closeGroup)

-- The tokens of a source, and those of the parts of its tokens, in either grammar, at any depth.
inductive Token.Lexed (source : String) : Token → Prop
  | whole {grammar : Token.Grammar} {token : Token} :
      token ∈ (Token.readAll grammar source).tokens → Lexed source token
  | part {grammar : Token.Grammar} {outer token : Token} {capture : Capture} :
      Lexed source outer → capture ∈ outer.shape.captures →
        token ∈ (Token.read grammar source capture.offset capture.stop).tokens →
          Lexed source token

structure Token.Closed (source : String) (token : Token) : Prop where
  stands : ∀ capture ∈ token.shape.captures,
    StandsAt source capture.offset capture.text.toList
  enclosed : ∀ arguments, token.shape.arguments? = some arguments →
    Text.Enclosed arguments.text.toList

def GrammarFault.isBracket : GrammarFault → Bool
  | unclosedBracket | unexpectedClosing => true
  | _ => false

def Paired {α : Type} (x : Except Error α) : Prop :=
  ∀ fault position, x = .error (.grammar fault position) → fault.isBracket = false

namespace Paired

variable {α β : Type}

theorem ok (a : α) : Paired (.ok a) := nofun

theorem grammar {fault : GrammarFault} (other : fault.isBracket = false) (position : Position) :
    Paired (.error (.grammar fault position) : Except Error α) := by
  rintro _ _ ⟨⟩
  exact other

theorem bind {x : Except Error α} {f : α → Except Error β} (first : Paired x)
    (later : ∀ a, x = .ok a → Paired (f a)) : Paired (x >>= f) := by
  intro fault position failed
  rcases Outcome.bind_eq_error.mp failed with failed | ⟨a, done, failed⟩
  · exact first fault position failed
  · exact later a done fault position failed

theorem mapM {f : α → Except Error β} {xs : List α} (each : ∀ x ∈ xs, Paired (f x)) :
    Paired (xs.mapM f) := by
  intro fault position failed
  obtain ⟨x, member, failed⟩ := Outcome.mapM_error failed
  exact each x member fault position failed

end Paired

section Nesting

variable {depth : Nat} {tokens rest : List Token}

theorem closeGroup_of_nesting (h : nesting (depth + 1) tokens = some 0) :
    ∃ inside after, closeGroup depth tokens = some (inside, after) ∧
      nesting 0 after = some 0 := by
  induction tokens generalizing depth with
  | nil => cases h
  | cons token tokens ih =>
    have kept {n : Nat} (later : nesting (n + 1) tokens = some 0) : ∃ inside after,
        (closeGroup n tokens).map (Prod.map (token :: ·) id) = some (inside, after) ∧
          nesting 0 after = some 0 := by
      obtain ⟨inside, after, found, nested⟩ := ih later
      exact ⟨token :: inside, after, by rw [found]; rfl, nested⟩
    cases shape : token.shape with
    | leftParen =>
      simp only [nesting, closeGroup, shape] at h ⊢
      exact kept h
    | rightParen =>
      simp only [nesting, closeGroup, shape] at h ⊢
      cases depth with
      | zero => exact ⟨[], tokens, rfl, h⟩
      | succ depth => exact kept h
    | _ =>
      simp only [nesting, closeGroup, shape] at h ⊢
      exact kept h

theorem nesting_lineEnd (stop : lineEnd depth tokens = .separator rest) {after : Nat}
    (h : nesting depth tokens = some after) : nesting 0 rest = some after := by
  induction tokens generalizing depth with
  | nil => contradiction
  | cons token tokens ih =>
    cases shape : token.shape with
    | separator =>
      simp only [nesting, lineEnd, shape] at h stop
      split at stop
      next outer =>
        cases stop
        rwa [outer] at h
      · exact ih stop h
    | definition outline =>
      simp only [nesting, lineEnd, shape] at h stop
      split at stop
      · contradiction
      · exact ih stop h
    | rightParen =>
      simp only [nesting, lineEnd, shape] at h stop
      cases depth with
      | zero => contradiction
      | succ depth => exact ih stop h
    | _ =>
      simp only [nesting, lineEnd, shape] at h stop
      exact ih stop h

end Nesting

end FormulaSheet

namespace FormulaSheet.Token

variable {source : String} {grammar : Grammar} {place : Place} {cs : List Char}

structure Reserved (read : List Char → Except GrammarFault Shape) : Prop where
  fault : ∀ text fault, read text = .error fault → fault.isBracket = false
  inner : ∀ text shape, read text = .ok shape → shape.isInner

theorem reserved_plain {shape : Shape} (inner : shape.isInner) : Reserved fun _ => .ok shape :=
  ⟨fun _ _ => nofun, by rintro _ _ ⟨⟩; exact inner⟩

theorem reserved_refused {fault : GrammarFault} (other : fault.isBracket = false) :
    Reserved fun _ => .error fault :=
  ⟨by rintro _ _ ⟨⟩; exact other, fun _ _ => nofun⟩

theorem reserved_readNumber : Reserved readNumber := by
  refine ⟨fun text fault failed => ?_, fun text shape read => ?_⟩
  · unfold readNumber at failed
    split at failed
    · cases failed
      rfl
    · split at failed
      · contradiction
      · cases failed
        rfl
  · obtain ⟨value, rfl⟩ := readNumber_eq_ok read
    rfl

theorem Rule.reserved {rule : Rule} (member : rule ∈ Grammar.arguments.rules) :
    Pattern.Bounded (fun read _ => Reserved read) rule.pattern rule.shape 0 := by
  simp only [Grammar.rules, valueRules, bracketRules, List.mem_append, List.mem_cons,
    List.not_mem_nil, or_false] at member
  rcases member with
    (((rfl | rfl | rfl) | (rfl | rfl | rfl | rfl | rfl | rfl) | member) | rfl) | rfl | rfl
  · exact fun _ _ _ => reserved_refused rfl
  · exact fun _ _ => reserved_refused rfl
  · exact fun _ _ _ => reserved_refused rfl
  · exact fun _ _ => reserved_plain rfl
  · exact fun _ => reserved_plain rfl
  · exact fun _ => reserved_plain rfl
  · exact fun _ => reserved_plain rfl
  · exact reserved_plain rfl
  · exact reserved_readNumber
  · obtain ⟨operation, -, rfl⟩ := List.mem_map.mp member
    exact reserved_plain rfl
  · exact reserved_plain rfl
  · exact reserved_plain rfl
  · exact reserved_plain rfl

theorem Grammar.match?_reserved {offset : Nat} {read : Except GrammarFault Shape}
    {consumed rest : List Char}
    (h : Grammar.arguments.match? offset cs = some ⟨read, consumed, rest⟩) :
    (∀ fault, read = .error fault → fault.isBracket = false) ∧
      ∀ shape, read = .ok shape → shape.isInner := by
  obtain ⟨rule, member, found⟩ := Grammar.exists_rule h
  rw [Rule.match?_eq] at found
  obtain ⟨scanned, found, same⟩ := Option.map_eq_some_iff.mp found
  obtain ⟨_, reserved, -⟩ := Pattern.exists_fits_of_bounded (Rule.reserved member) found
  cases same
  exact ⟨reserved.fault _, reserved.inner _⟩

theorem readFrom_reserved {e : Error}
    (h : (readFrom .arguments source place cs).failure = some e) :
    ∃ fault position, e = .grammar fault position ∧ fault.isBracket = false := by
  obtain ⟨fault, position, rfl, ⟨c, rfl⟩ | ⟨_, _, _, _, found⟩⟩ := readFrom_failure h
  · exact ⟨_, position, rfl, rfl⟩
  · exact ⟨fault, position, rfl, (Grammar.match?_reserved found).1 _ rfl⟩

theorem readFrom_closed (here : StandsAt source place.index cs) {token : Token}
    (member : token ∈ (readFrom grammar source place cs).tokens) : token.Closed source := by
  obtain ⟨before, text, after, rfl, site, found⟩ := readFrom_stands member
  have start : token.start = place.index + Text.byteLength before := by
    rw [Token.start, site, Place.advanceAll_index]
  have there : StandsAt source token.start (text ++ after) := by
    rw [start]
    exact here.right
  refine ⟨(Grammar.cuts there found).stands, fun arguments asks => ?_⟩
  have spelled := Grammar.spelled found
  generalize token.shape = shape at asks spelled
  cases spelled with
  | call word blank inside =>
    cases asks
    exact inside
  | query plain inside =>
    cases asks
    exact inside
  | _ => contradiction

theorem read_closed {capture : Capture}
    (here : StandsAt source capture.offset capture.text.toList) {token : Token}
    (member : token ∈ (read grammar source capture.offset capture.stop).tokens) :
    token.Closed source := by
  obtain ⟨place, start, same⟩ := read_capture grammar here
  rw [same] at member
  rw [← start] at here
  exact readFrom_closed here member

theorem Lexed.exists_readFrom {token : Token} (lexed : token.Lexed source) :
    ∃ grammar place cs, StandsAt source place.index cs ∧
      token ∈ (readFrom grammar source place cs).tokens := by
  induction lexed with
  | @whole grammar token member =>
    have split : source.toList = [] ++ (source.toList ++ []) := (List.append_nil _).symm
    have whole := read_range grammar split
    rw [Text.byteLength_nil, Nat.zero_add] at whole
    rw [readAll, whole] at member
    exact ⟨grammar, _, _, ⟨[], [], split, rfl⟩, member⟩
  | @part grammar outer token capture _ present member ih =>
    obtain ⟨_, _, _, there, outside⟩ := ih
    have here := (readFrom_closed there outside).stands capture present
    obtain ⟨place, start, same⟩ := read_capture grammar here
    rw [same] at member
    rw [← start] at here
    exact ⟨grammar, place, _, here, member⟩

theorem Lexed.closed {token : Token} (lexed : token.Lexed source) : token.Closed source := by
  obtain ⟨_, _, _, here, member⟩ := lexed.exists_readFrom
  exact readFrom_closed here member

theorem nesting_of_enclosed {capture : Capture}
    (here : StandsAt source capture.offset capture.text.toList)
    (enclosed : Text.Enclosed capture.text.toList)
    (unfailed : (read .arguments source capture.offset capture.stop).failure = none) :
    nesting 0 (read .arguments source capture.offset capture.stop).tokens = some 0 := by
  obtain ⟨place, start, same⟩ := read_capture .arguments here
  rw [same] at unfailed ⊢
  rw [← (reads_of_readFrom unfailed).balance]
  · exact enclosed.balanced
  · intro token member
    obtain ⟨before, text, after, -, -, found⟩ := readFrom_stands member
    exact (Grammar.match?_reserved found).2 _ rfl

end FormulaSheet.Token

namespace FormulaSheet

open Token (Closed Lexed)

theorem Formula.addOperator_fault {done : Formula} {o : Operator} {fault : GrammarFault}
    (h : addOperator done o = .error fault) : fault.isBracket = false := by
  unfold addOperator at h
  split at h
  · split at h
    · contradiction
    · split at h
      · cases h
        rfl
      · split at h
        · cases h
          rfl
        · contradiction
  · split at h
    · contradiction
    · cases h
      rfl
  · contradiction

theorem Formula.finish_paired (source : String) (formula : Formula) :
    Paired (formula.finish source) := by
  simp only [finish]
  split
  · exact .grammar rfl _
  · exact .ok _

theorem Formula.building_paired (source : String) :
    (∀ done tokens, (∀ token ∈ tokens, token.Closed source) → nesting 0 tokens = some 0 →
      Paired (chain source done tokens)) ∧
    (∀ grammar capture, grammar = .arguments →
      StandsAt source capture.offset capture.text.toList → Text.Enclosed capture.text.toList →
        Paired (captured source grammar capture)) ∧
    (∀ tokens, (∀ token ∈ tokens, token.Closed source) → nesting 0 tokens = some 0 →
      Paired (lines source tokens)) ∧
    ∀ tokens, (∀ token ∈ tokens, token.Closed source) → nesting 0 tokens = some 0 →
      Paired (rawLines source tokens) := by
  -- The hypotheses on the tokens of a line are handed on to its groups, its calls and its other lines.
  refine chain.mutual_induct source
    (fun done tokens => (∀ token ∈ tokens, token.Closed source) → nesting 0 tokens = some 0 →
      Paired (chain source done tokens))
    (fun grammar capture => grammar = .arguments →
      StandsAt source capture.offset capture.text.toList → Text.Enclosed capture.text.toList →
        Paired (captured source grammar capture))
    (fun tokens => (∀ token ∈ tokens, token.Closed source) → nesting 0 tokens = some 0 →
      Paired (lines source tokens))
    (fun tokens => (∀ token ∈ tokens, token.Closed source) → nesting 0 tokens = some 0 →
      Paired (rawLines source tokens))
    ?nil ?separator ?definition ?number ?name ?operator ?refused ?unclosed ?group ?closing ?equals
    ?call ?query ?unread ?read ?lines ?rawLines
  case nil =>
    intro done _ _
    rw [chain]
    exact .ok _
  case separator =>
    intro done token rest shape _ _
    rw [chain_ended (.inl shape)]
    exact .ok _
  case definition =>
    intro done token rest outline shape _ _
    rw [chain_ended (.inr ⟨outline, shape⟩)]
    exact .ok _
  case number =>
    intro done token rest value shape ih closed nested
    rw [chain_number shape]
    simp only [nesting, shape] at nested
    exact ih (List.forall_mem_cons.mp closed).2 nested
  case name =>
    intro done token rest shape ih closed nested
    rw [chain_name shape]
    simp only [nesting, shape] at nested
    exact ih (List.forall_mem_cons.mp closed).2 nested
  case operator =>
    intro done token rest operation shape after added ih closed nested
    rw [chain_operator shape added]
    simp only [nesting, shape] at nested
    exact ih (List.forall_mem_cons.mp closed).2 nested
  case refused =>
    intro done token rest operation shape fault refused _ _
    rw [chain_operator_error shape refused]
    exact .grammar (addOperator_fault refused) _
  case unclosed =>
    intro done token rest shape unclosed _ nested
    simp only [nesting, shape] at nested
    obtain ⟨_, _, found, -⟩ := closeGroup_of_nesting nested
    rw [unclosed] at found
    contradiction
  case group =>
    intro done token rest shape inside after found ihInside ih closed nested
    simp only [nesting, shape] at nested
    obtain ⟨_, _, same, later⟩ := closeGroup_of_nesting nested
    rw [found] at same
    cases same
    obtain ⟨closing, rfl, -, within⟩ := closeGroup_eq_some found
    have closed := (List.forall_mem_cons.mp closed).2
    have inner := fun token member => closed token (List.mem_append_left _ member)
    have outer := fun token member =>
      closed token (List.mem_append_right _ (List.mem_cons_of_mem _ member))
    rw [chain_inside shape found]
    refine (ihInside inner within).bind fun groups _ => ?_
    split
    · exact ih _ outer later
    · exact .grammar rfl _
    · exact .grammar rfl _
  case closing =>
    intro done token rest shape _ nested
    simp [nesting, shape] at nested
  case equals =>
    intro done token rest shape _ _
    rw [chain_equals shape]
    exact .grammar rfl _
  case call =>
    intro done token rest callee arguments shape ihArguments ih closed nested
    obtain ⟨here, closed⟩ := List.forall_mem_cons.mp closed
    simp only [nesting, shape] at nested
    rw [chain_call shape]
    have built := ihArguments rfl (here.stands arguments (by simp [shape, Shape.captures]))
      (here.enclosed arguments (by rw [shape]; rfl))
    exact built.bind fun values _ => ih values closed nested
  case query =>
    intro done token rest query arguments shape ihArguments ih closed nested
    obtain ⟨here, closed⟩ := List.forall_mem_cons.mp closed
    simp only [nesting, shape] at nested
    rw [chain_query shape]
    have built := ihArguments rfl (here.stands arguments (by simp [shape, Shape.captures]))
      (here.enclosed arguments (by rw [shape]; rfl))
    exact built.bind fun values _ => ih values closed nested
  case unread =>
    rintro grammar capture reading error failed rfl here enclosed
    rw [captured, failed]
    obtain ⟨place, -, same⟩ := Token.read_capture .arguments here
    simp only [reading, same] at failed
    obtain ⟨fault, position, rfl, other⟩ := Token.readFrom_reserved failed
    exact .grammar other position
  case read =>
    rintro grammar capture reading read ih rfl here enclosed
    rw [captured, read]
    exact ih (fun token member => Token.read_closed here member)
      (Token.nesting_of_enclosed here enclosed read)
  case lines =>
    intro tokens ih closed nested
    rw [lines]
    exact (ih closed nested).bind fun raw _ => .mapM fun formula _ => finish_paired source formula
  case rawLines =>
    intro tokens ih later closed nested
    rw [rawLines_eq]
    refine (ih closed nested).bind fun formula _ => ?_
    have members := lineEnd_mem 0 tokens
    cases stop : lineEnd 0 tokens with
    | input => exact .ok _
    | separator rest =>
      rw [stop] at members
      have read := later rest stop (fun token member => closed token (members member))
        (nesting_lineEnd stop nested)
      exact read.bind fun others _ => .ok _
    | definition site outline rest => cases outline <;> exact .grammar rfl _

/-- However deep a call or a query of the sequence stands in a source, the tokens between its
parentheses nest, and building it never finds a group unclosed or closes one that is not open. The
count of open groups falls below zero in no pass over any tokens. -/
theorem calls_paired (source : String) :
    (∀ token : Token, token.Lexed source → ∀ callee capture,
      token.asks? = some (callee, capture) →
        ((Token.read .arguments source capture.offset capture.stop).failure = none →
          Nested (Token.read .arguments source capture.offset capture.stop).tokens) ∧
        ∀ sheet, sheet.source = source → ∀ fault position,
          (Session.call callee capture sheet).2 = .error (.error (.grammar fault position)) →
            fault ≠ .unclosedBracket ∧ fault ≠ .unexpectedClosing) ∧
    ∀ definitions tokens sheet,
      (Session.traverse definitions tokens sheet).2 ≠ .error .underflow := by
  constructor
  · intro token lexed callee capture asks
    have closed := lexed.closed
    obtain ⟨present, arguments⟩ :
        capture ∈ token.shape.captures ∧ token.shape.arguments? = some capture := by
      rcases shape_of_asks? asks with ⟨name, shape, -⟩ | ⟨query, shape, -⟩ <;>
        simp [shape, Shape.captures, Shape.arguments?]
    have here := closed.stands capture present
    have enclosed := closed.enclosed capture arguments
    refine ⟨Token.nesting_of_enclosed here enclosed, ?_⟩
    rintro sheet rfl fault position failed
    rw [Session.call_eq (Session.part_eq_captured sheet .arguments capture)] at failed
    obtain ⟨e, failed, same⟩ := Outcome.mapError_eq_error.mp failed
    cases same
    have paired := (Formula.building_paired sheet.source).2.1 _ capture rfl here enclosed
    have other := paired fault position (Outcome.map_eq_error.mp failed)
    constructor <;> rintro rfl <;> contradiction
  · intro definitions tokens sheet underflow
    have raised : ∃ x : Except Error (List Statement),
        (Session.traverse definitions tokens sheet).2 = x.mapError .error := by
      cases definitions with
      | false => exact ⟨_, congrArg Prod.snd (Session.traverse_below tokens sheet)⟩
      | true => exact ⟨_, congrArg Prod.snd (Session.traverse_top tokens sheet)⟩
    obtain ⟨x, same⟩ := raised
    rw [same] at underflow
    obtain ⟨e, -, other⟩ := Outcome.mapError_eq_error.mp underflow
    contradiction

theorem calls_paired_body :
    ∃ (token : Token) (callee : Callee) (capture : Capture),
      token.Lexed "f(x) = g((x), S?(x))" ∧ token.asks? = some (callee, capture) ∧
        Nested (Token.read .arguments "f(x) = g((x), S?(x))" capture.offset capture.stop).tokens ∧
        ∀ sheet, sheet.source = "f(x) = g((x), S?(x))" → ∀ fault position,
          (Session.call callee capture sheet).2 = .error (.error (.grammar fault position)) →
            fault ≠ .unclosedBracket ∧ fault ≠ .unexpectedClosing := by
  let outer : Token := ⟨⟨"f(x) = g((x), S?(x))", ⟨0, 1, 1⟩⟩,
    .definition (.function ⟨0, "f"⟩ ⟨2, "x"⟩ ⟨7, "g((x), S?(x))"⟩)⟩
  let token : Token := ⟨⟨"g((x), S?(x))", ⟨7, 1, 8⟩⟩, .call ⟨7, "g"⟩ ⟨9, "(x), S?(x)"⟩⟩
  have whole : outer ∈ (Token.readAll .statements "f(x) = g((x), S?(x))").tokens := by
    decide +kernel
  have inner : token ∈ (Token.read .statements "f(x) = g((x), S?(x))" 7
      (Capture.stop ⟨7, "g((x), S?(x))"⟩)).tokens := by
    decide +kernel
  have body : ⟨7, "g((x), S?(x))"⟩ ∈ outer.shape.captures := by
    decide
  have lexed : token.Lexed "f(x) = g((x), S?(x))" := .part (.whole whole) body inner
  have unfailed : (Token.read .arguments "f(x) = g((x), S?(x))" 9
      (Capture.stop ⟨9, "(x), S?(x)"⟩)).failure = none := by
    decide +kernel
  obtain ⟨nests, built⟩ := (calls_paired _).1 token lexed _ _ rfl
  exact ⟨token, _, _, lexed, rfl, nests unfailed, built⟩

end FormulaSheet
