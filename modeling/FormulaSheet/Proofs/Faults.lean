import FormulaSheet.Proofs.Evaluation
import FormulaSheet.Proofs.Grammar.Drafting
import FormulaSheet.Proofs.Precedence.Sweep

set_option autoImplicit false

namespace FormulaSheet

open Formula (endsInValue Apart)

namespace Formula

-- A sign where a value is awaited, and one more operator after it.
def Crowded (formula : Formula) : Prop :=
  ∃ (before : Formula) (first second : Operator) (after : Formula),
    formula = before ++ .operator first :: .operator second :: after ∧
      endsInValue before.reverse = false

end Formula

section Arithmetic

variable {limits : Limits} {source : String}

theorem Tree.firstFault?_arithmetic {tree : Tree} {e : Error}
    (h : tree.firstFault? limits source = some e) :
    ∃ fault position left right, e = .arithmetic fault position left right := by
  obtain ⟨operation, -, at_⟩ := List.exists_of_findSome?_eq_some h
  obtain ⟨a, -, failed⟩ := List.exists_of_findSome?_eq_some at_
  unfold Application.fault? at failed
  split at failed
  next left right _ _ =>
    split at failed
    · contradiction
    next evaluated =>
      cases failed
      obtain ⟨fault, -, rfl⟩ := Outcome.mapError_eq_error.mp evaluated
      exact ⟨fault, _, left, right, rfl⟩
  · contradiction

theorem Terms.reduce_error {terms : Terms Float} {e : Error}
    (h : Item.reduce limits source terms.items = .error e) :
    ∃ fault position left right, e = .arithmetic fault position left right := by
  rcases terms.reduce_items limits source with ⟨x, done, -⟩ | ⟨other, failed, first⟩
  · rw [done] at h
    contradiction
  · rw [failed] at h
    cases h
    exact Tree.firstFault?_arithmetic first

end Arithmetic

namespace Sheet

variable {sheet : Sheet} {run : Function → Callee → Scope → Except Error Answer}

section Shape

theorem endsInValue_concat (formula : Formula) (part : Part) :
    endsInValue (formula ++ [part]).reverse = part.isValue := by
  simp [endsInValue]

theorem endsInValue_tail {part : Part} {rest : Formula} (nonempty : rest ≠ []) :
    endsInValue (part :: rest).reverse = endsInValue rest.reverse := by
  obtain ⟨earlier, last, rfl⟩ := (List.eq_nil_or_concat rest).resolve_left nonempty
  simp [endsInValue]

theorem endsInValue_operator (o : Operator) (rest : Formula) :
    endsInValue (.operator o :: rest).reverse = endsInValue rest.reverse := by
  rcases rest.eq_nil_or_concat with rfl | ⟨earlier, last, rfl⟩
  · rfl
  · exact endsInValue_tail (by simp)

theorem items_terms {scope : Scope} {awaiting : Awaiting} {formula : Formula} {found : List Item}
    (apart : formula.IsChain Apart) (ends : endsInValue formula.reverse)
    (listed : items sheet run scope awaiting formula = .ok found) :
    (awaiting ≠ .operator → ∃ terms : Terms Float, found = terms.items) ∧
      (awaiting = .operator → (∀ part ∈ formula.head?, part.isValue = false) →
        ∃ o, ∃ terms : Terms Float, found = .operator o :: terms.items) := by
  replace listed := listed_of_items listed
  induction listed with
  | missing | ended => contradiction
  | @value _ part rest _ others value _ more ih =>
    obtain ⟨next, later⟩ := List.isChain_cons.mp apart
    refine ⟨fun _ => ?_, fun _ head => absurd value (by simp [head part rfl])⟩
    cases rest with
    | nil =>
      cases more
      exact ⟨⟨_, []⟩, rfl⟩
    | cons second rest =>
      rw [endsInValue_tail (by simp)] at ends
      obtain ⟨o, terms, rfl⟩ := (ih later ends).2 rfl fun part head => next part head value
      exact ⟨⟨_, (o, terms.first) :: terms.rest⟩, rfl⟩
  | sign _ _ ih =>
    rw [endsInValue_operator] at ends
    exact ⟨fun _ => (ih (List.isChain_cons.mp apart).2 ends).1 (by simp), by simp⟩
  | @operator o _ _ _ ih =>
    rw [endsInValue_operator] at ends
    obtain ⟨terms, rfl⟩ := (ih (List.isChain_cons.mp apart).2 ends).1 (by simp)
    exact ⟨by simp, fun _ _ => ⟨o, terms, rfl⟩⟩

def AwaitedAfter (before : Formula) : Awaiting → Prop
  | .operator => endsInValue before.reverse
  | .value none => endsInValue before.reverse = false
  | .value (some sign) =>
    ∃ earlier, before = earlier ++ [.operator sign] ∧ endsInValue earlier.reverse = false

theorem items_error_after {scope : Scope} {awaiting : Awaiting} {before rest : Formula} {e : Error}
    (state : AwaitedAfter before awaiting)
    (failed : items sheet run scope awaiting rest = .error e)
    (parts : ∀ part ∈ rest, part.isValue → partValue sheet run scope part ≠ .error e) :
    endsInValue (before ++ rest).reverse = false ∨
      ∃ o earlier later, before ++ rest = earlier ++ .operator o :: later ∧
        endsInValue earlier.reverse = false ∧
        e = sheet.grammarError .unexpectedOperator o.site ∧
        (o.operation.isSign → ∃ sign start, earlier = start ++ [.operator sign] ∧
          endsInValue start.reverse = false) := by
  replace failed := unlisted_of_items failed
  induction failed generalizing before with
  | missing =>
    obtain ⟨earlier, rfl, -⟩ := state
    exact .inl (by simp [endsInValue, Part.isValue])
  | @unexpected o rest other =>
    exact .inr ⟨o, before, rest, rfl, state, rfl, fun sign => absurd sign other⟩
  | @repeated sign o rest =>
    obtain ⟨earlier, rfl, unsigned⟩ := state
    refine .inr ⟨o, _, rest, rfl, ?_, rfl, fun _ => ⟨sign, earlier, rfl, unsigned⟩⟩
    exact endsInValue_concat earlier (.operator sign)
  | part value failed => exact absurd failed (parts _ List.mem_cons_self value)
  | @value _ part _ _ _ value _ _ ih =>
    have after : AwaitedAfter (before ++ [part]) .operator :=
      (endsInValue_concat before part).trans value
    simpa only [List.append_assoc, List.singleton_append] using
      ih after (List.forall_mem_cons.mp parts).2
  | @sign o _ _ _ _ ih =>
    have after : AwaitedAfter (before ++ [.operator o]) (.value (some o)) := ⟨before, rfl, state⟩
    simpa only [List.append_assoc, List.singleton_append] using
      ih after (List.forall_mem_cons.mp parts).2
  | @operator o _ _ _ ih =>
    have after : AwaitedAfter (before ++ [.operator o]) (.value none) :=
      endsInValue_concat before (.operator o)
    simpa only [List.append_assoc, List.singleton_append] using
      ih after (List.forall_mem_cons.mp parts).2

theorem composed_fault {formula : Formula} (composed : formula.Composed) {scope : Scope} {e : Error}
    (failed : formulaValue sheet run scope formula = .error e)
    (parts : ∀ part ∈ formula, part.isValue → partValue sheet run scope part ≠ .error e) :
    (∃ fault position left right, e = .arithmetic fault position left right) ∨
      formula.Crowded ∧ ∃ position, e = .grammar .unexpectedOperator position := by
  have ends := composed.endsInValue
  unfold formulaValue conclude at failed
  split at failed
  · contradiction
  · cases listed : items sheet run scope (.value none) formula with
    | error =>
      rw [listed] at failed
      cases failed
      have started : AwaitedAfter [] (.value none) := rfl
      rcases items_error_after started listed parts with unended | ⟨o, earlier, later, split,
        awaiting, rfl, second⟩
      · rw [List.nil_append, ends] at unended
        contradiction
      · rw [List.nil_append] at split
        obtain ⟨sign, start, rfl, unsigned⟩ := second (composed.isSign split awaiting)
        exact .inr ⟨⟨start, sign, o, later, by rw [split]; simp, unsigned⟩, _, rfl⟩
    | ok found =>
      rw [listed] at failed
      obtain ⟨terms, rfl⟩ := (items_terms composed.isChain ends listed).1 (by simp)
      exact .inl (Terms.reduce_error failed)

end Shape

end Sheet

end FormulaSheet
