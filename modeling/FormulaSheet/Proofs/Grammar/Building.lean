import FormulaSheet.Proofs.Grammar.Phrase
import FormulaSheet.Proofs.Outcome

set_option autoImplicit false

namespace FormulaSheet.Formula

variable {source : String}

section Parts

def endsInValue : Formula → Bool
  | [] => false
  | last :: _ => last.isValue

theorem endsInValue_addValue (done : Formula) {part : Part} (value : part.isValue) :
    endsInValue (addValue done part) := by
  unfold addValue
  split
  · exact value
  · split <;> exact value

theorem addValue_ne_nil (done : Formula) (part : Part) : addValue done part ≠ [] := by
  unfold addValue
  split
  · simp
  · split <;> simp

theorem addOperator_value {done : Formula} (value : endsInValue done) (o : Operator) :
    addOperator done o = .ok (.operator o :: done) := by
  cases done with
  | nil => contradiction
  | cons last earlier =>
    cases last with
    | operator other => contradiction
    | literal | name | bracket | call => rfl

theorem addOperator_sign (done : Formula) {o : Operator} (sign : o.operation = .subtract) :
    ∃ after, addOperator done o = .ok after := by
  unfold addOperator
  split
  next last earlier =>
    by_cases minus : last.operation = .subtract
    · simp [minus, sign]
    · simp [minus, sign]
  · simp [sign]
  · exact ⟨_, rfl⟩

theorem addOperator_eq_ok {done after : Formula} {o : Operator}
    (h : addOperator done o = .ok after) :
    endsInValue after = false ∧ after ≠ [] ∧
      (endsInValue done = false → o.operation = .subtract) := by
  unfold addOperator at h
  split at h
  next last earlier =>
    split at h
    next minus =>
      cases h
      exact ⟨rfl, by simp, fun _ => minus.2⟩
    · split at h
      · contradiction
      · split at h
        · contradiction
        next minus =>
          cases h
          exact ⟨rfl, by simp, fun _ => by simpa using minus⟩
  · split at h
    next minus =>
      cases h
      exact ⟨rfl, by simp, fun _ => minus⟩
    · contradiction
  next other empty =>
    cases h
    refine ⟨rfl, by simp, ?_⟩
    intro awaiting
    cases done with
    | nil => contradiction
    | cons last earlier =>
      cases last with
      | operator o => exact absurd rfl (other o earlier)
      | literal | name | bracket | call => contradiction

theorem mem_foldSign {formula : Formula} {part : Part}
    (h : part ∈ formula.foldSign) :
    part ∈ formula ∨ ∃ site value, part = .literal site value := by
  unfold foldSign at h
  split at h
  · split at h
    · rcases List.mem_cons.mp h with rfl | member
      · exact .inr ⟨_, _, rfl⟩
      · exact .inl (List.mem_cons_of_mem _ (List.mem_cons_of_mem _ member))
    · exact .inl h
  · exact .inl h

theorem getLast?_foldSign {formula : Formula} {o : Operator} :
    formula.foldSign.getLast? = some (.operator o) ↔ formula.getLast? = some (.operator o) := by
  unfold foldSign
  split
  next sign site value rest =>
    split
    · cases rest with
      | nil => simp
      | cons next rest => simp [List.getLast?_cons_cons]
    · rfl
  · rfl

theorem endsInValue_reverse {formula : Formula} (nonempty : formula ≠ []) :
    endsInValue formula.reverse ↔ ∀ o, formula.getLast? ≠ some (.operator o) := by
  rcases List.eq_nil_or_concat formula with rfl | ⟨earlier, last, rfl⟩
  · contradiction
  · rw [List.concat_eq_append, List.reverse_append, List.getLast?_append]
    cases last <;> simp [endsInValue, Part.isValue]

theorem finish_eq_ok {formula finished : Formula}
    (h : finish source formula = .ok finished) :
    finished = formula.foldSign := by
  simp only [finish] at h
  split at h
  · contradiction
  · cases h
    rfl

theorem finish_ok_iff {formula : Formula} (nonempty : formula ≠ []) :
    (∃ finished, finish source formula = .ok finished) ↔ endsInValue formula.reverse := by
  rw [endsInValue_reverse nonempty]
  simp only [finish]
  constructor
  · rintro ⟨finished, done⟩ o last
    rw [getLast?_foldSign.mpr last] at done
    contradiction
  · intro value
    split
    next o last => exact absurd (getLast?_foldSign.mp last) (value o)
    · exact ⟨_, rfl⟩

theorem finishAll_cons_ok {formula : Formula} {raw formulas : List Formula} :
    finishAll source (formula :: raw) = .ok formulas ↔
      (formula = [] ∧ finishAll source raw = .ok formulas) ∨
      (formula ≠ [] ∧ ∃ finished others, finish source formula = .ok finished ∧
        finishAll source raw = .ok others ∧ formulas = finished :: others) := by
  cases formula with
  | nil => simp [finishAll]
  | cons part rest =>
    have listed : finishAll source ((part :: rest) :: raw) = do
        return (← finish source (part :: rest)) :: (← finishAll source raw) := by
      simp [finishAll]
    rw [listed, Outcome.bind_eq_ok]
    constructor
    · rintro ⟨finished, done, h⟩
      obtain ⟨others, later, h⟩ := Outcome.bind_eq_ok.mp h
      cases h
      exact .inr ⟨by simp, finished, others, done, later, rfl⟩
    · rintro (⟨empty, -⟩ | ⟨-, finished, others, done, later, rfl⟩)
      · contradiction
      · exact ⟨finished, done, Outcome.bind_eq_ok.mpr ⟨others, later, rfl⟩⟩

end Parts

section Equations

variable {done : Formula} {token : Token} {rest : List Token}

theorem lineEnd_mem (depth : Nat) (tokens : List Token) :
    match lineEnd depth tokens with
    | .input => True
    | .separator rest => rest ⊆ tokens
    | .definition site outline rest => rest ⊆ tokens ∧
        ∃ token ∈ tokens, token.site = site ∧ token.shape = .definition outline := by
  fun_induction lineEnd depth tokens with
  | case1 => trivial
  | case2 token rest => exact List.subset_cons_self token rest
  | case4 token rest outline shape =>
    exact ⟨List.subset_cons_self token rest, token, List.mem_cons_self, rfl, shape⟩
  | case3 _ token rest _ _ ih | case5 _ token rest _ _ _ ih | case6 _ token rest _ ih
  | case7 _ token rest _ ih | case8 _ token rest _ _ _ _ ih =>
    split at ih
    · trivial
    · exact List.subset_cons_of_subset token ih
    · obtain ⟨within, defining, member, same⟩ := ih
      exact ⟨List.subset_cons_of_subset token within, defining, List.mem_cons_of_mem token member,
        same⟩

theorem chain_ended (h : token.shape = .separator ∨ ∃ outline, token.shape = .definition outline) :
    chain source done (token :: rest) = .ok done.reverse := by
  rw [chain]
  split <;> simp_all

theorem chain_number {value : Float} (shape : token.shape = .number value) :
    chain source done (token :: rest) =
      chain source (addValue done (.literal token.site value)) rest := by
  rw [chain]
  split <;> simp_all

theorem chain_name (shape : token.shape = .name) :
    chain source done (token :: rest) = chain source (addValue done (.name token.site)) rest := by
  rw [chain]
  split <;> simp_all

theorem chain_operator {operation : Operation} (shape : token.shape = .operator operation)
    {after : Formula} (added : addOperator done ⟨operation, token.site⟩ = .ok after) :
    chain source done (token :: rest) = chain source after rest := by
  rw [chain]
  split <;> simp_all

theorem chain_operator_error {operation : Operation} (shape : token.shape = .operator operation)
    {fault : GrammarFault} (refused : addOperator done ⟨operation, token.site⟩ = .error fault) :
    chain source done (token :: rest) = .error (.grammar fault (token.site.locate source)) := by
  rw [chain]
  split <;> simp_all

theorem chain_closing (shape : token.shape = .rightParen) :
    chain source done (token :: rest) =
      .error (.grammar .unexpectedClosing (token.site.locate source)) := by
  rw [chain]
  split <;> simp_all

theorem chain_equals (shape : token.shape = .equals) :
    chain source done (token :: rest) =
      .error (.grammar .unexpectedEquals (token.site.locate source)) := by
  rw [chain]
  split <;> simp_all

theorem chain_unclosed (shape : token.shape = .leftParen) (unclosed : closeGroup 0 rest = none) :
    chain source done (token :: rest) =
      .error (.grammar .unclosedBracket (token.site.locate source)) := by
  rw [chain]
  split
  case h_6 =>
    split
    · rfl
    next found =>
      rw [unclosed] at found
      contradiction
  all_goals simp_all

theorem chain_inside {inside after : List Token} (shape : token.shape = .leftParen)
    (found : closeGroup 0 rest = some (inside, after)) :
    chain source done (token :: rest) = lines source inside >>= fun groups =>
      match groups with
      | [group] => chain source (addValue done (.bracket token.site group)) after
      | [] => .error (.grammar .emptyBrackets (token.site.locate source))
      | _ => .error (.grammar .severalInBrackets (token.site.locate source)) := by
  rw [chain]
  split
  case h_6 =>
    split
    next unclosed =>
      rw [found] at unclosed
      contradiction
    next same =>
      rw [found] at same
      cases same
      rfl
  all_goals simp_all

theorem chain_group {formula : Formula} (shape : token.shape = .leftParen) :
    chain source done (token :: rest) = .ok formula ↔
      ∃ inside after group, closeGroup 0 rest = some (inside, after) ∧
        lines source inside = .ok [group] ∧
        chain source (addValue done (.bracket token.site group)) after = .ok formula := by
  cases found : closeGroup 0 rest with
  | none => simp [chain_unclosed shape found]
  | some split =>
    obtain ⟨inside, after⟩ := split
    rw [chain_inside shape found, Outcome.bind_eq_ok]
    constructor
    · rintro ⟨groups, built, h⟩
      split at h
      next group => exact ⟨inside, after, group, rfl, built, h⟩
      · contradiction
      · contradiction
    · rintro ⟨inside, after, group, same, built, h⟩
      cases same
      exact ⟨[group], built, h⟩

theorem chain_call {callee arguments : Capture} (shape : token.shape = .call callee arguments) :
    chain source done (token :: rest) =
      captured source .arguments arguments >>= fun values =>
        chain source (addValue done (.call ⟨token.site, callee.text, .plain⟩ values)) rest := by
  rw [chain]
  split <;> simp_all

theorem chain_query {query : Query} {arguments : Capture}
    (shape : token.shape = .query query arguments) :
    chain source done (token :: rest) =
      captured source .arguments arguments >>= fun values =>
        chain source (addValue done (.call ⟨token.site, "s", .query query⟩ values)) rest := by
  rw [chain]
  split <;> simp_all

theorem chain_refused (h : token.shape = .rightParen ∨ token.shape = .equals ∨
      ∃ operation fault, token.shape = .operator operation ∧
        addOperator done ⟨operation, token.site⟩ = .error fault)
    (formula : Formula) : chain source done (token :: rest) ≠ .ok formula := by
  rcases h with shape | shape | ⟨operation, fault, shape, refused⟩
  · simp [chain_closing shape]
  · simp [chain_equals shape]
  · simp [chain_operator_error shape refused]

theorem rawLines_eq (source : String) (tokens : List Token) :
    rawLines source tokens = chain source [] tokens >>= fun formula =>
      match lineEnd 0 tokens with
      | .input => .ok [formula]
      | .separator rest => rawLines source rest >>= fun others => .ok (formula :: others)
      | .definition site outline _ =>
        .error (.grammar (notAllowed outline) (site.locate source)) := by
  rw [rawLines]
  congr 1
  funext formula
  split <;> split <;> simp_all <;> rfl

theorem rawLines_ok {tokens : List Token} {raw : List Formula} :
    rawLines source tokens = .ok raw ↔ ∃ formula, chain source [] tokens = .ok formula ∧
      ((lineEnd 0 tokens = .input ∧ raw = [formula]) ∨
        ∃ rest others, lineEnd 0 tokens = .separator rest ∧
          rawLines source rest = .ok others ∧ raw = formula :: others) := by
  rw [rawLines, Outcome.bind_eq_ok]
  refine exists_congr fun formula => and_congr_right fun _ => ?_
  split
  next stop => simp [stop, pure, Except.pure, eq_comm]
  next rest stop =>
    rw [Outcome.bind_eq_ok]
    simp [stop, pure, Except.pure, eq_comm]
  next stop => simp [stop, throw, throwThe, MonadExceptOf.throw]

theorem lines_ok {tokens : List Token} {formulas : List Formula} :
    lines source tokens = .ok formulas ↔
      ∃ raw, rawLines source tokens = .ok raw ∧ finishAll source raw = .ok formulas := by
  rw [lines, Outcome.bind_eq_ok]

theorem captured_ok {grammar : Token.Grammar} {capture : Capture} {formulas : List Formula} :
    captured source grammar capture = .ok formulas ↔
      (Token.read grammar source capture.offset capture.stop).failure = none ∧
        lines source (Token.read grammar source capture.offset capture.stop).tokens =
          .ok formulas := by
  rw [captured]
  split
  next failed => simp [failed]
  next read => simp [read]

end Equations

section Induction

def Finishes (source : String) (formula : Formula) (others formulas : List Formula) : Prop :=
  formula = [] ∧ formulas = others ∨
    formula ≠ [] ∧ ∃ finished, finish source formula = .ok finished ∧ formulas = finished :: others

theorem finishAll_cons_iff {formula : Formula} {raw formulas : List Formula} :
    finishAll source (formula :: raw) = .ok formulas ↔
      ∃ others, finishAll source raw = .ok others ∧ Finishes source formula others formulas := by
  rw [finishAll_cons_ok]
  constructor
  · rintro (⟨empty, more⟩ | ⟨nonempty, finished, others, done, more, rfl⟩)
    · exact ⟨formulas, more, .inl ⟨empty, rfl⟩⟩
    · exact ⟨others, more, .inr ⟨nonempty, finished, done, rfl⟩⟩
  · rintro ⟨others, more, ⟨empty, rfl⟩ | ⟨nonempty, finished, done, rfl⟩⟩
    · exact .inl ⟨empty, more⟩
    · exact .inr ⟨nonempty, finished, others, done, more, rfl⟩

theorem build_induction (chains : Formula → List Token → Formula → Prop)
    (reads : List Token → List Formula → Prop)
    (nil : ∀ done, chains done [] done.reverse)
    (ended : ∀ done token rest,
      (token.shape = .separator ∨ ∃ outline, token.shape = .definition outline) →
        chains done (token :: rest) done.reverse)
    (number : ∀ done token rest value formula, token.shape = .number value →
      chains (addValue done (.literal token.site value)) rest formula →
        chains done (token :: rest) formula)
    (name : ∀ done token rest formula, token.shape = .name →
      chains (addValue done (.name token.site)) rest formula → chains done (token :: rest) formula)
    (operator : ∀ done token rest operation after formula, token.shape = .operator operation →
      addOperator done ⟨operation, token.site⟩ = .ok after → chains after rest formula →
        chains done (token :: rest) formula)
    (group : ∀ done token rest inside after group formula, token.shape = .leftParen →
      closeGroup 0 rest = some (inside, after) → reads inside [group] →
        chains (addValue done (.bracket token.site group)) after formula →
          chains done (token :: rest) formula)
    (call : ∀ done token rest callee arguments values formula,
      token.shape = .call callee arguments →
      captured source .arguments arguments = .ok values →
      reads (Token.read .arguments source arguments.offset arguments.stop).tokens values →
        chains (addValue done (.call ⟨token.site, callee.text, .plain⟩ values)) rest formula →
          chains done (token :: rest) formula)
    (query : ∀ done token rest query arguments values formula,
      token.shape = .query query arguments →
      captured source .arguments arguments = .ok values →
      reads (Token.read .arguments source arguments.offset arguments.stop).tokens values →
        chains (addValue done (.call ⟨token.site, "s", .query query⟩ values)) rest formula →
          chains done (token :: rest) formula)
    (last : ∀ tokens formula formulas, chains [] tokens formula → lineEnd 0 tokens = .input →
      Finishes source formula [] formulas → reads tokens formulas)
    (line : ∀ tokens formula rest others formulas, chains [] tokens formula →
      lineEnd 0 tokens = .separator rest → reads rest others →
        Finishes source formula others formulas → reads tokens formulas) :
    (∀ done tokens formula, chain source done tokens = .ok formula →
      chains done tokens formula) ∧
    ∀ tokens formulas, lines source tokens = .ok formulas → reads tokens formulas := by
  -- The cases are those of `chain`, `captured`, `lines` and `rawLines`, which call each other.
  have cases := chain.mutual_induct source
    (fun done tokens => ∀ formula, chain source done tokens = .ok formula →
      chains done tokens formula)
    (fun grammar capture => ∀ formulas, captured source grammar capture = .ok formulas →
      (Token.read grammar source capture.offset capture.stop).failure = none ∧
        reads (Token.read grammar source capture.offset capture.stop).tokens formulas)
    (fun tokens => ∀ formulas, lines source tokens = .ok formulas → reads tokens formulas)
    (fun tokens => ∀ raw formulas, rawLines source tokens = .ok raw →
      finishAll source raw = .ok formulas → reads tokens formulas)
    ?nil ?separator ?definition ?number ?name ?operator ?refused ?unclosed ?group ?closing ?equals
    ?call ?query ?unread ?read ?lines ?rawLines
  · exact ⟨cases.1, cases.2.2.1⟩
  case nil =>
    intro done formula h
    rw [chain] at h
    cases h
    exact nil done
  case separator =>
    intro done token rest shape formula h
    rw [chain_ended (.inl shape)] at h
    cases h
    exact ended done token rest (.inl shape)
  case definition =>
    intro done token rest outline shape formula h
    rw [chain_ended (.inr ⟨outline, shape⟩)] at h
    cases h
    exact ended done token rest (.inr ⟨outline, shape⟩)
  case number =>
    intro done token rest value shape ih formula h
    rw [chain_number shape] at h
    exact number done token rest value formula shape (ih formula h)
  case name =>
    intro done token rest shape ih formula h
    rw [chain_name shape] at h
    exact name done token rest formula shape (ih formula h)
  case operator =>
    intro done token rest operation shape after added ih formula h
    rw [chain_operator shape added] at h
    exact operator done token rest operation after formula shape added (ih formula h)
  case refused =>
    intro done token rest operation shape fault failed formula h
    exact absurd h (chain_refused (.inr (.inr ⟨operation, fault, shape, failed⟩)) formula)
  case unclosed =>
    intro done token rest shape unclosed formula h
    obtain ⟨inside, after, group, found, -⟩ := (chain_group shape).mp h
    rw [unclosed] at found
    contradiction
  case group =>
    intro done token rest shape inside after found inner outer formula h
    obtain ⟨_, _, built, same, read, h⟩ := (chain_group shape).mp h
    rw [found] at same
    cases same
    exact group done token rest inside after built formula shape found (inner _ read)
      (outer built formula h)
  case closing =>
    intro done token rest shape formula h
    exact absurd h (chain_refused (.inl shape) formula)
  case equals =>
    intro done token rest shape formula h
    exact absurd h (chain_refused (.inr (.inl shape)) formula)
  case call =>
    intro done token rest callee arguments shape inner outer formula h
    rw [chain_call shape] at h
    obtain ⟨values, built, h⟩ := Outcome.bind_eq_ok.mp h
    exact call done token rest callee arguments values formula shape built (inner values built).2
      (outer values formula h)
  case query =>
    intro done token rest asked arguments shape inner outer formula h
    rw [chain_query shape] at h
    obtain ⟨values, built, h⟩ := Outcome.bind_eq_ok.mp h
    exact query done token rest asked arguments values formula shape built (inner values built).2
      (outer values formula h)
  case unread =>
    intro grammar capture reading error failed formulas h
    have read := (captured_ok.mp h).1
    rw [failed] at read
    contradiction
  case read =>
    intro grammar capture reading read ih formulas h
    exact ⟨read, ih formulas (captured_ok.mp h).2⟩
  case lines =>
    intro tokens ih formulas h
    obtain ⟨raw, read, finished⟩ := lines_ok.mp h
    exact ih raw formulas read finished
  case rawLines =>
    intro tokens first later raw formulas h finished
    obtain ⟨formula, built, ⟨stop, rfl⟩ | ⟨rest, others, stop, read, rfl⟩⟩ := rawLines_ok.mp h
    · obtain ⟨more, none, done⟩ := finishAll_cons_iff.mp finished
      cases none
      exact last tokens formula formulas (first formula built) stop done
    · obtain ⟨more, finishedRest, done⟩ := finishAll_cons_iff.mp finished
      exact line tokens formula rest more formulas (first formula built) stop
        (later rest stop others more read finishedRest) done

end Induction

end FormulaSheet.Formula
