import FormulaSheet.Proofs.Grammar.Drafting
import FormulaSheet.Proofs.Grammar.Lines

set_option autoImplicit false

namespace FormulaSheet

open Formula (lineEnd chain lines captured addValue addOperator finish Finishes closeGroup)

def Shape.isOperand : Shape → Bool
  | number _ | name | call .. | query .. | leftParen | rightParen => true
  | definition _ | operator _ | separator | equals => false

namespace Token

def operands (tokens : List Token) : List Token :=
  tokens.filter (·.shape.isOperand)

def segments : Nat → List Token → List (List Token)
  | _, [] => [[]]
  | depth, token :: rest =>
    match token.shape with
    | .separator =>
      if depth = 0 then [] :: segments 0 rest
      else (segments depth rest).modifyHead (token :: ·)
    | .leftParen => (segments (depth + 1) rest).modifyHead (token :: ·)
    | .rightParen => (segments (depth - 1) rest).modifyHead (token :: ·)
    | _ => (segments depth rest).modifyHead (token :: ·)

def filled (tokens : List Token) : List (List Token) :=
  (segments 0 tokens).filter (!·.isEmpty)

def asks? (token : Token) : Option (Callee × Capture) :=
  match token.shape with
  | .call callee arguments => some (⟨token.site, callee.text, .plain⟩, arguments)
  | .query query arguments => some (⟨token.site, "s", .query query⟩, arguments)
  | _ => none

end Token

-- What one token leaves in a formula.
inductive Leaf where
  | literal (site : Site) (value : Float)
  | name (site : Site)
  | call (callee : Callee) (arguments : List Formula)
  | opening (site : Site)
  | closing

namespace Formula

mutual

def walkPart : Part → List Leaf
  | .literal site value => [.literal site value]
  | .name site => [.name site]
  | .operator _ => []
  | .bracket opening inside => .opening opening :: (walk inside ++ [.closing])
  | .call callee arguments => [.call callee arguments]

def walk : List Part → List Leaf
  | [] => []
  | part :: rest => walkPart part ++ walk rest

end

-- Each formula is what its segment makes alone.
def Segmented (source : String) (tokens : List Token) (formulas : List Formula) : Prop :=
  List.Forall₂ (fun segment formula => lines source segment = .ok [formula])
    (Token.filled tokens) formulas

end Formula

structure Token.Calls (source : String) (token : Token) (callee : Callee)
    (arguments : List Formula) (capture : Capture) : Prop where
  asks : token.asks? = some (callee, capture)
  read : (Token.read .arguments source capture.offset capture.stop).failure = none
  segmented : Formula.Segmented source
    (Token.read .arguments source capture.offset capture.stop).tokens arguments

inductive Token.Occurs (source : String) (tokens : List Token) : Token → Prop
  | here {token : Token} : token ∈ tokens → Occurs source tokens token
  | argument {outer token : Token} {callee : Callee} {capture : Capture} :
      Occurs source tokens outer → outer.asks? = some (callee, capture) →
        token ∈ (Token.read .arguments source capture.offset capture.stop).tokens →
          Occurs source tokens token

/-- A number is a literal with its value, or with the opposite value if the minus that stands
directly before it was folded into it. -/
inductive Token.Stands (source : String) (tokens : List Token) : Token → Leaf → Prop
  | number {token : Token} {value : Float} : token.shape = .number value →
      Stands source tokens token (.literal token.site value)
  | negative {minus token : Token} {value : Float} : minus.shape = .operator .subtract →
      token.shape = .number value → [minus, token] <:+: tokens →
        Stands source tokens token
          (.literal ⟨Operation.subtract.text ++ token.site.text, minus.site.place⟩ (-value))
  | name {token : Token} : token.shape = .name → Stands source tokens token (.name token.site)
  | call {token : Token} {callee : Callee} {arguments : List Formula} {capture : Capture} :
      token.Calls source callee arguments capture →
        Stands source tokens token (.call callee arguments)
  | opening {token : Token} : token.shape = .leftParen →
      Stands source tokens token (.opening token.site)
  | closing {token : Token} : token.shape = .rightParen → Stands source tokens token .closing

def Walks (source : String) (tokens : List Token) (leaves : List Leaf) : Prop :=
  List.Forall₂ (Token.Stands source tokens) (Token.operands tokens) leaves

/-- Nothing is lost, nothing comes twice and nothing changes its place. -/
structure Formula.Preserves (source : String) (tokens : List Token) (formulas : List Formula) :
    Prop where
  walks : Walks source tokens (formulas.flatMap Formula.walk)
  segmented : Formula.Segmented source tokens formulas
  calls : ∀ formula ∈ formulas, ∀ callee arguments, formula.Has (.call callee arguments) →
    ∃ token capture, Token.Occurs source tokens token ∧ token.Calls source callee arguments capture

section Segments

open Token (segments filled)

variable {source : String} {tokens rest : List Token} {formulas : List Formula}

theorem segments_of_input {depth : Nat} (stop : lineEnd depth tokens = .input) :
    segments depth tokens = [tokens] := by
  fun_induction lineEnd depth tokens with
  | case1 => rfl
  | case2 | case4 => contradiction
  | case3 _ _ _ _ _ ih | case5 _ _ _ _ _ _ ih | case6 _ _ _ _ ih | case7 _ _ _ _ ih
  | case8 _ _ _ _ _ _ _ ih => simp [segments, ih stop, *]

theorem segments_of_separator {depth : Nat} (stop : lineEnd depth tokens = .separator rest) :
    ∃ line separator, tokens = line ++ separator :: rest ∧ separator.shape = .separator ∧
      segments depth tokens = line :: segments 0 rest := by
  fun_induction lineEnd depth tokens with
  | case1 | case4 => contradiction
  | case2 token tokens shape =>
    cases stop
    exact ⟨[], token, rfl, shape, by simp [segments, shape]⟩
  | case3 _ token _ _ _ ih | case5 _ token _ _ _ _ ih | case6 _ token _ _ ih
  | case7 _ token _ _ ih | case8 _ token _ _ _ _ _ ih =>
    obtain ⟨line, separator, rfl, ends, same⟩ := ih stop
    exact ⟨token :: line, separator, rfl, ends, by simp [segments, *]⟩

theorem mem_of_segments {depth : Nat} {segment : List Token}
    (member : segment ∈ segments depth tokens) : segment ⊆ tokens := by
  have step {token : Token} {tokens : List Token} {found : List (List Token)}
      (within : ∀ segment ∈ found, segment ⊆ tokens) {segment : List Token}
      (member : segment ∈ found.modifyHead (token :: ·)) : segment ⊆ token :: tokens := by
    cases found with
    | nil => simp at member
    | cons first others =>
      obtain ⟨first, others⟩ := List.forall_mem_cons.mp within
      rcases List.mem_cons.mp member with rfl | member
      · exact List.cons_subset_cons token first
      · exact List.subset_cons_of_subset token (others segment member)
  fun_induction segments depth tokens generalizing segment with
  | case1 => simp_all
  | case2 token tokens shape ih =>
    rcases List.mem_cons.mp member with rfl | member
    · simp
    · exact List.subset_cons_of_subset token (ih member)
  | case3 _ _ _ _ _ ih | case4 _ _ _ _ ih | case5 _ _ _ _ ih | case6 _ _ _ _ _ _ ih =>
    exact step (fun _ => ih) member

theorem Line.ne_nil {line : List Token} {formula : Formula} (h : Line source line formula) :
    line ≠ [] := by
  rintro rfl
  obtain ⟨raw, built, nonempty, -⟩ := h.built
  rw [chain] at built
  cases built
  exact nonempty rfl

theorem lines_segmented (h : lines source tokens = .ok formulas) :
    Formula.Segmented source tokens formulas := by
  obtain ⟨raw, read, finished⟩ := Formula.lines_ok.mp h
  clear h
  induction raw generalizing tokens formulas with
  | nil =>
    obtain ⟨_, -, ⟨-, same⟩ | ⟨_, _, -, -, same⟩⟩ := Formula.rawLines_ok.mp read
    · contradiction
    · contradiction
  | cons first raw ih =>
    obtain ⟨others, more, done⟩ := Formula.finishAll_cons_iff.mp finished
    obtain ⟨_, built, ⟨stop, same⟩ | ⟨rest, _, stop, later, same⟩⟩ := Formula.rawLines_ok.mp read
    · cases same
      cases more
      rw [Formula.Segmented, filled, segments_of_input stop]
      rcases done with ⟨rfl, rfl⟩ | ⟨nonempty, formula, done, rfl⟩
      · have split := (Formula.chain_spelled built).blank
        rw [stop] at split
        simp [show tokens = [] from split]
      · have line := line_of_input built stop nonempty done
        simp [line.ne_nil, line.read]
    · cases same
      have following := ih later more
      obtain ⟨line, _, whole, -, split⟩ := segments_of_separator stop
      rw [Formula.Segmented, filled, split]
      rcases done with ⟨rfl, rfl⟩ | ⟨nonempty, formula, done, rfl⟩
      · have blank := (Formula.chain_spelled built).blank
        rw [stop] at blank
        obtain ⟨separator, -, rfl⟩ := blank
        obtain ⟨rfl, -⟩ := List.append_inj' whole rfl
        exact following
      · obtain ⟨first, separator, rfl, -, held⟩ := line_of_separator built stop nonempty done
        obtain ⟨rfl, -⟩ := List.append_inj' whole rfl
        rw [List.filter_cons_of_pos (by simp [held.ne_nil])]
        exact .cons held.read following

end Segments

section Walks

open Formula (walk walkPart)
open Token (operands Stands)

variable {source : String} {tokens others spelled : List Token} {done after formula : Formula}

theorem operands_append (tokens others : List Token) :
    operands (tokens ++ others) = operands tokens ++ operands others :=
  List.filter_append ..

theorem walk_append (formula rest : Formula) : walk (formula ++ rest) = walk formula ++ walk rest := by
  induction formula with
  | nil => rfl
  | cons part formula ih => simp [walk, ih]

theorem walk_addValue (done : Formula) (part : Part) :
    walk (addValue done part).reverse = walk done.reverse ++ walkPart part := by
  unfold addValue
  split
  · simp [walk]
  · split <;> simp [walk, walk_append, walkPart]

theorem walk_addOperator {o : Operator} (added : addOperator done o = .ok after) :
    walk after.reverse = walk done.reverse := by
  rcases Formula.addOperator_cases added with rfl | ⟨last, plus, earlier, rfl, -, rfl⟩
  · simp [walk, walk_append, walkPart]
  · simp [walk, walk_append, walkPart]

theorem Token.Stands.mono {token : Token} {leaf : Leaf} (h : token.Stands source tokens leaf)
    (within : tokens <:+: others) : token.Stands source others leaf := by
  cases h with
  | number shape => exact .number shape
  | negative minus shape before => exact .negative minus shape (before.trans within)
  | name shape => exact .name shape
  | call calls => exact .call calls
  | opening shape => exact .opening shape
  | closing shape => exact .closing shape

theorem Walks.append {leaves more : List Leaf} (first : Walks source tokens leaves)
    (second : Walks source others more) : Walks source (tokens ++ others) (leaves ++ more) := by
  rw [Walks, operands_append]
  exact List.rel_append (first.imp fun _ _ h => h.mono (List.prefix_append ..).isInfix)
    (second.imp fun _ _ h => h.mono (List.suffix_append ..).isInfix)

inductive Makes (source : String) : List Token → Part → Prop
  | number {token : Token} {value : Float} :
      token.shape = .number value → Makes source [token] (.literal token.site value)
  | name {token : Token} : token.shape = .name → Makes source [token] (.name token.site)
  | call {token : Token} {callee : Callee} {arguments : List Formula} {capture : Capture} :
      token.Calls source callee arguments capture →
        Makes source [token] (.call callee arguments)
  | bracket {opening closing : Token} {inside : List Token} {group : Formula} :
      opening.shape = .leftParen → closing.shape = .rightParen → nesting 0 inside = some 0 →
        Walks source inside (walk group) →
          Makes source (opening :: (inside ++ [closing])) (.bracket opening.site group)

theorem Makes.isValue {part : Part} (h : Makes source spelled part) : part.isValue := by
  cases h with
  | number | name | call | bracket => rfl

theorem shape_of_asks? {token : Token} {callee : Callee} {capture : Capture}
    (h : token.asks? = some (callee, capture)) :
    (∃ name, token.shape = .call name capture ∧ callee = ⟨token.site, name.text, .plain⟩) ∨
      ∃ query, token.shape = .query query capture ∧ callee = ⟨token.site, "s", .query query⟩ := by
  unfold Token.asks? at h
  split at h
  next name arguments shape =>
    cases h
    exact .inl ⟨name, shape, rfl⟩
  next query arguments shape =>
    cases h
    exact .inr ⟨query, shape, rfl⟩
  · contradiction

theorem Token.Calls.isOperand {token : Token} {callee : Callee} {arguments : List Formula}
    {capture : Capture} (h : token.Calls source callee arguments capture) :
    token.shape.isOperand := by
  rcases shape_of_asks? h.asks with ⟨name, shape, -⟩ | ⟨query, shape, -⟩
  · rw [shape]
    rfl
  · rw [shape]
    rfl

theorem walks_one {token : Token} {leaf : Leaf} (operand : token.shape.isOperand)
    (stands : token.Stands source [token] leaf) : Walks source [token] [leaf] := by
  rw [Walks, operands, List.filter_singleton, operand]
  exact .cons stands .nil

theorem Makes.walks {part : Part} (h : Makes source spelled part) :
    Walks source spelled (walkPart part) := by
  cases h with
  | @number token value shape => exact walks_one (by rw [shape]; rfl) (.number shape)
  | @name token shape => exact walks_one (by rw [shape]; rfl) (.name shape)
  | call calls => exact walks_one calls.isOperand (.call calls)
  | bracket opens closes nested walks =>
    have first : Walks source [_] [_] := walks_one (by rw [opens]; rfl) (.opening opens)
    have last : Walks source [_] [_] := walks_one (by rw [closes]; rfl) (.closing closes)
    exact first.append (walks.append last)

theorem Makes.lineEnd {part : Part} (h : Makes source spelled part) (rest : List Token) :
    lineEnd 0 (spelled ++ rest) = lineEnd 0 rest := by
  cases h with
  | number shape | name shape => simp [Formula.lineEnd, shape]
  | call calls =>
    rcases shape_of_asks? calls.asks with ⟨name, shape, -⟩ | ⟨query, shape, -⟩
    · simp [Formula.lineEnd, shape]
    · simp [Formula.lineEnd, shape]
  | bracket opens closes nested _ => simpa using lineEnd_group opens closes nested rest

-- The tokens that a formula under construction was made from; its last part comes first.
inductive Drawn (source : String) : List Token → Formula → Prop
  | empty : Drawn source [] []
  | value {tokens spelled : List Token} {done : Formula} {part : Part} :
      Drawn source tokens done → Makes source spelled part →
        Drawn source (tokens ++ spelled) (addValue done part)
  | operator {tokens : List Token} {done after : Formula} {token : Token}
      {operation : Operation} : Drawn source tokens done → token.shape = .operator operation →
        addOperator done ⟨operation, token.site⟩ = .ok after →
          Drawn source (tokens ++ [token]) after

theorem Drawn.walks (drawn : Drawn source tokens done) :
    Walks source tokens (walk done.reverse) := by
  induction drawn with
  | empty => exact .nil
  | value _ makes ih =>
    rw [walk_addValue]
    exact ih.append makes.walks
  | @operator tokens done after token operation _ shape added ih =>
    have skipped : Walks source [token] [] := by simp [Walks, operands, shape, Shape.isOperand]
    rw [walk_addOperator added, ← List.append_nil (walk _)]
    exact ih.append skipped

theorem Drawn.of_nil (drawn : Drawn source tokens []) : tokens = [] := by
  generalize same : ([] : Formula) = done at drawn
  cases drawn with
  | empty => rfl
  | value => exact absurd same.symm (Formula.addValue_ne_nil _ _)
  | operator _ _ added => exact absurd same.symm (Formula.addOperator_eq_ok added).2.1

theorem Drawn.of_minus {o : Operator} (drawn : Drawn source tokens [.operator o])
    (minus : o.operation = .subtract) :
    ∃ sign, tokens = [sign] ∧ sign.shape = .operator .subtract ∧ sign.site = o.site := by
  generalize same : [Part.operator o] = done at drawn
  cases drawn with
  | empty => contradiction
  | @value tokens spelled done part _ makes =>
    have ends := Formula.endsInValue_addValue done makes.isValue
    rw [← same] at ends
    contradiction
  | @operator tokens done _ token operation drawn shape added =>
    rcases Formula.addOperator_cases added with rfl | ⟨last, plus, earlier, -, positive, rfl⟩
    · cases same
      rw [drawn.of_nil]
      exact ⟨token, rfl, by rw [shape, ← minus], rfl⟩
    · cases same
      rw [positive] at minus
      contradiction

theorem Drawn.signed (drawn : Drawn source tokens done) {o : Operator} {site : Site}
    {value : Float} (suffix : [.literal site value, .operator o] <:+ done)
    (minus : o.operation = .subtract) :
    ∃ sign number later, tokens = sign :: number :: later ∧
      sign.shape = .operator .subtract ∧ sign.site = o.site ∧
        number.shape = .number value ∧ number.site = site := by
  -- Adding to a formula leaves its first parts, and what made them, as they are.
  have extend {tokens : List Token} (more : List Token)
      (h : ∃ sign number later, tokens = sign :: number :: later ∧
        sign.shape = .operator .subtract ∧ sign.site = o.site ∧
          number.shape = .number value ∧ number.site = site) :
      ∃ sign number later, tokens ++ more = sign :: number :: later ∧
        sign.shape = .operator .subtract ∧ sign.site = o.site ∧
          number.shape = .number value ∧ number.site = site := by
    obtain ⟨sign, number, later, rfl, rest⟩ := h
    exact ⟨sign, number, later ++ more, rfl, rest⟩
  induction drawn with
  | empty => simp at suffix
  | @value tokens spelled done part drawn makes ih =>
    unfold addValue at suffix
    split at suffix
    · rcases List.suffix_cons_iff.mp suffix with same | suffix
      · cases same
      · simp at suffix
    next last earlier =>
      split at suffix
      next ended =>
        rcases List.suffix_cons_iff.mp suffix with same | suffix
        · cases same
        rcases List.suffix_cons_iff.mp suffix with same | suffix
        · cases same
        · exact extend spelled (ih suffix)
      · rcases List.suffix_cons_iff.mp suffix with same | suffix
        · cases same
          obtain ⟨sign, rfl, shape, there⟩ := drawn.of_minus minus
          cases makes with
          | @number token _ number => exact ⟨sign, token, [], rfl, shape, there, number, rfl⟩
        · exact extend spelled (ih suffix)
  | @operator tokens done after token operation drawn shape added ih =>
    apply extend [token]
    apply ih
    rcases Formula.addOperator_cases added with rfl | ⟨last, plus, earlier, rfl, -, rfl⟩
    · rcases List.suffix_cons_iff.mp suffix with same | suffix
      · cases same
      · exact suffix
    · rcases List.suffix_cons_iff.mp suffix with same | suffix
      · cases same
      · exact suffix.trans (List.suffix_cons _ _)

theorem Drawn.finished (drawn : Drawn source tokens formula.reverse) {final : Formula}
    (done : finish source formula = .ok final) : Walks source tokens (walk final) := by
  have walks := drawn.walks
  rw [List.reverse_reverse] at walks
  rw [Formula.finish_eq_ok done]
  unfold Formula.foldSign
  split
  next o site value rest =>
    split
    next minus =>
      have suffix : [.literal site value, .operator o] <:+
          (.operator o :: .literal site value :: rest : Formula).reverse := by simp
      obtain ⟨sign, number, later, rfl, shape, there, counts, rfl⟩ := drawn.signed suffix minus
      have first : operands (sign :: number :: later) = number :: operands later := by
        simp [operands, shape, counts, Shape.isOperand]
      rw [Walks, first] at walks ⊢
      obtain _ | ⟨-, others⟩ := walks
      rw [← there]
      exact .cons (.negative shape counts ⟨[], later, rfl⟩) others
    · exact walks
  · exact walks

def ChainDrawn (source : String) (done : Formula) (tokens : List Token) (formula : Formula) :
    Prop :=
  ∀ before, Drawn source before done → ∃ line, (lineEnd 0 tokens).Splits line tokens ∧
    Drawn source (before ++ line) formula.reverse

theorem ChainDrawn.ended (split : (lineEnd 0 tokens).Splits [] tokens) :
    ChainDrawn source done tokens done.reverse := by
  intro before drawn
  refine ⟨[], split, ?_⟩
  rwa [List.append_nil, List.reverse_reverse]

theorem ChainDrawn.value {part : Part} (makes : Makes source spelled part)
    (h : ChainDrawn source (addValue done part) tokens formula) :
    ChainDrawn source done (spelled ++ tokens) formula := by
  intro before drawn
  obtain ⟨line, split, more⟩ := h _ (.value drawn makes)
  refine ⟨spelled ++ line, ?_, ?_⟩
  · rw [makes.lineEnd]
    exact split.append spelled
  · rwa [← List.append_assoc]

theorem ChainDrawn.operator {token : Token} {operation : Operation}
    (shape : token.shape = .operator operation)
    (added : addOperator done ⟨operation, token.site⟩ = .ok after)
    (h : ChainDrawn source after tokens formula) :
    ChainDrawn source done (token :: tokens) formula := by
  intro before drawn
  obtain ⟨line, split, more⟩ := h _ (.operator drawn shape added)
  refine ⟨token :: line, ?_, ?_⟩
  · have skipped : lineEnd 0 (token :: tokens) = lineEnd 0 tokens := by
      simp [Formula.lineEnd, shape]
    rw [skipped]
    exact split.append [token]
  · rwa [List.append_cons]

theorem ChainDrawn.line (h : ChainDrawn source [] tokens formula) :
    ∃ line, (lineEnd 0 tokens).Splits line tokens ∧ ∀ others formulas,
      Finishes source formula others formulas →
        ∃ leaves, Walks source line leaves ∧
          formulas.flatMap walk = leaves ++ others.flatMap walk := by
  obtain ⟨line, split, drawn⟩ := h [] .empty
  refine ⟨line, split, ?_⟩
  rintro others formulas (⟨rfl, rfl⟩ | ⟨nonempty, final, done, rfl⟩)
  · obtain rfl : line = [] := drawn.of_nil
    exact ⟨[], .nil, rfl⟩
  · exact ⟨walk final, drawn.finished done, rfl⟩

theorem building_walks (source : String) :
    (∀ done tokens formula, chain source done tokens = .ok formula →
      ChainDrawn source done tokens formula) ∧
    ∀ tokens formulas, lines source tokens = .ok formulas →
      Walks source tokens (formulas.flatMap walk) := by
  refine Formula.build_induction (ChainDrawn source)
    (fun tokens formulas => Walks source tokens (formulas.flatMap walk))
    ?nil ?ended ?number ?name ?operator ?group ?call ?query ?last ?line
  case nil =>
    intro done
    exact .ended rfl
  case ended =>
    rintro done token rest (shape | ⟨outline, shape⟩)
    · apply ChainDrawn.ended
      simp only [Formula.lineEnd, shape]
      exact ⟨token, shape, rfl⟩
    · apply ChainDrawn.ended
      simp only [Formula.lineEnd, shape]
      trivial
  case number =>
    intro done token rest value formula shape ih
    exact ih.value (.number shape)
  case name =>
    intro done token rest formula shape ih
    exact ih.value (.name shape)
  case operator =>
    intro done token rest operation after formula shape added ih
    exact ih.operator shape added
  case group =>
    intro done token rest inside after group formula shape found inner ih
    obtain ⟨closing, rfl, closes, nested⟩ := closeGroup_eq_some found
    have walks : Walks source inside (walk group) := by simpa using inner
    simpa using ih.value (.bracket shape closes nested walks)
  case call =>
    intro done token rest callee arguments values formula shape given inner ih
    obtain ⟨read, built⟩ := Formula.captured_ok.mp given
    exact ih.value (.call ⟨by rw [Token.asks?, shape], read, lines_segmented built⟩)
  case query =>
    intro done token rest query arguments values formula shape given inner ih
    obtain ⟨read, built⟩ := Formula.captured_ok.mp given
    exact ih.value (.call ⟨by rw [Token.asks?, shape], read, lines_segmented built⟩)
  case last =>
    intro tokens formula formulas ih stop finished
    obtain ⟨line, split, leaves⟩ := ih.line
    obtain ⟨first, walks, same⟩ := leaves [] formulas finished
    rw [stop] at split
    obtain rfl : tokens = line := split
    simpa [same] using walks
  case line =>
    intro tokens formula rest others formulas ih stop later finished
    obtain ⟨line, split, leaves⟩ := ih.line
    obtain ⟨first, walks, same⟩ := leaves others formulas finished
    rw [stop] at split
    obtain ⟨separator, shape, rfl⟩ := split
    have skipped : Walks source [separator] [] := by
      simp [Walks, operands, shape, Shape.isOperand]
    rw [same]
    exact walks.append (skipped.append later)

theorem lines_walk {formulas : List Formula} (h : lines source tokens = .ok formulas) :
    Walks source tokens (formulas.flatMap walk) :=
  (building_walks source).2 tokens formulas h

end Walks

section Calls

open Formula (walk walkPart)

variable {source : String} {tokens : List Token}

theorem mem_walk {formula : Formula} {leaf : Leaf} :
    leaf ∈ walk formula ↔ ∃ part ∈ formula, leaf ∈ walkPart part := by
  induction formula with
  | nil => simp [walk]
  | cons part rest ih => simp [walk, ih]

theorem Walks.exists_token {leaves : List Leaf} (walks : Walks source tokens leaves) {leaf : Leaf}
    (member : leaf ∈ leaves) : ∃ token ∈ tokens, token.Stands source tokens leaf := by
  obtain ⟨token, operand, stands⟩ := exists_of_forall₂ walks member
  exact ⟨token, List.mem_of_mem_filter operand, stands⟩

theorem calls_of_leaves {formula : Formula}
    (stand : ∀ leaf ∈ walk formula,
      ∃ line token, Token.Occurs source tokens token ∧ token.Stands source line leaf)
    {callee : Callee} {arguments : List Formula} (has : formula.Has (.call callee arguments)) :
    ∃ token capture, Token.Occurs source tokens token ∧
      token.Calls source callee arguments capture := by
  induction formula using Formula.nesting_induction with
  | step formula inBracket inArgument =>
    have called {callee : Callee} {arguments : List Formula}
        (member : .call callee arguments ∈ formula) : ∃ token capture,
          Token.Occurs source tokens token ∧ token.Calls source callee arguments capture := by
      have leaf : .call callee arguments ∈ walkPart (.call callee arguments) :=
        List.mem_singleton.mpr rfl
      obtain ⟨line, token, occurs, stands⟩ := stand _ (mem_walk.mpr ⟨_, member, leaf⟩)
      cases stands with
      | call calls => exact ⟨token, _, occurs, calls⟩
    rcases Formula.has_iff.mp has with member | ⟨opening, inside, member, has⟩ |
      ⟨outer, given, member, argument, among, has⟩
    · exact called member
    · refine inBracket opening inside member (fun leaf within => stand leaf ?_) has
      refine mem_walk.mpr ⟨_, member, ?_⟩
      rw [walkPart]
      exact List.mem_cons_of_mem _ (List.mem_append_left _ within)
    · refine inArgument outer given member argument among (fun leaf within => ?_) has
      obtain ⟨token, capture, occurs, calls⟩ := called member
      obtain ⟨segment, found, built⟩ := exists_of_forall₂ calls.segmented among
      have walks := lines_walk built
      rw [List.flatMap_singleton] at walks
      obtain ⟨inner, there, stands⟩ := walks.exists_token within
      have read := mem_of_segments (List.mem_of_mem_filter found) there
      exact ⟨segment, inner, .argument occurs calls.asks read, stands⟩

end Calls

namespace Sheet

/-- Tokens that are read without an error make one formula for each of their segments, and every
token that makes a value or a bracket leaves what it stands for, once and in its place. -/
theorem readInner_preserves (sheet : Sheet) (tokens : List Token) (statements : List Statement)
    (read : sheet.readInner tokens = .ok statements) :
    ∃ formulas, statements = formulas.map .formula ∧
      Formula.Preserves sheet.source tokens formulas := by
  obtain ⟨formulas, built, rfl⟩ := Outcome.map_eq_ok.mp read
  have walks := lines_walk built
  refine ⟨formulas, rfl, walks, lines_segmented built, ?_⟩
  intro formula member callee arguments has
  refine calls_of_leaves (fun leaf within => ?_) has
  obtain ⟨token, there, stands⟩ :=
    walks.exists_token (List.mem_flatMap.mpr ⟨formula, member, within⟩)
  exact ⟨tokens, token, .here there, stands⟩

theorem readInner_preserves_arguments :
    ∃ formulas, formulas.length = 2 ∧ Formula.Preserves "(-2 a)f(1,,(-3))\n\n-b"
      (Token.readAll .statements "(-2 a)f(1,,(-3))\n\n-b").tokens formulas := by
  have lines : ((ofSource "(-2 a)f(1,,(-3))\n\n-b" {}).readInner
      (Token.readAll .statements "(-2 a)f(1,,(-3))\n\n-b").tokens).toOption.map List.length =
        some 2 := by
    decide +kernel
  cases read : (ofSource "(-2 a)f(1,,(-3))\n\n-b" {}).readInner
      (Token.readAll .statements "(-2 a)f(1,,(-3))\n\n-b").tokens with
  | error e =>
    rw [read] at lines
    contradiction
  | ok statements =>
    obtain ⟨formulas, rfl, preserves⟩ := readInner_preserves _ _ statements read
    rw [read] at lines
    exact ⟨formulas, by simpa [Except.toOption] using lines, preserves⟩

end Sheet

end FormulaSheet
