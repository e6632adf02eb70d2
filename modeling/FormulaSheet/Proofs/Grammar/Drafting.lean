import FormulaSheet.Proofs.Grammar.Building
import FormulaSheet.Proofs.Nesting
import Mathlib.Data.List.Chain

set_option autoImplicit false

namespace FormulaSheet.Formula

section Drafts

inductive Draft : Formula → Prop
  | empty : Draft []
  | value {done : Formula} {part : Part} :
      Draft done → part.isValue → Draft (addValue done part)
  | operator {done after : Formula} {o : Operator} :
      Draft done → addOperator done o = .ok after → Draft after

variable {done after : Formula} {part added : Part} {o : Operator}

theorem mem_addValue (h : part ∈ addValue done added) :
    part = added ∨ part ∈ done ∨ ∃ o, part = .operator o := by
  unfold addValue at h
  split at h
  · exact .inl (List.mem_singleton.mp h)
  · split at h
    · rcases List.mem_cons.mp h with rfl | h
      · exact .inl rfl
      rcases List.mem_cons.mp h with rfl | h
      · exact .inr (.inr ⟨_, rfl⟩)
      · exact .inr (.inl h)
    · rcases List.mem_cons.mp h with rfl | h
      · exact .inl rfl
      · exact .inr (.inl h)

theorem addOperator_cases (h : addOperator done o = .ok after) :
    after = .operator o :: done ∨
      ∃ last plus earlier, done = .operator last :: earlier ∧ plus.operation = .add ∧
        after = .operator plus :: earlier := by
  unfold addOperator at h
  split at h
  next last earlier =>
    split at h
    · cases h
      exact .inr ⟨last, _, earlier, rfl, rfl, rfl⟩
    · split at h
      · contradiction
      · split at h
        · contradiction
        · cases h
          exact .inl rfl
  · split at h
    · cases h
      exact .inl rfl
    · contradiction
  · cases h
    exact .inl rfl

theorem mem_addOperator (h : addOperator done o = .ok after) (member : part ∈ after) :
    part ∈ done ∨ ∃ o, part = .operator o := by
  rcases addOperator_cases h with rfl | ⟨last, plus, earlier, rfl, -, rfl⟩
  · rcases List.mem_cons.mp member with rfl | member
    · exact .inr ⟨_, rfl⟩
    · exact .inl member
  · rcases List.mem_cons.mp member with rfl | member
    · exact .inr ⟨_, rfl⟩
    · exact .inl (List.mem_cons_of_mem _ member)

theorem Draft.isSign (draft : Draft done) {o : Operator} {earlier : Formula}
    (suffix : .operator o :: earlier <:+ done) (awaiting : endsInValue earlier = false) :
    o.operation.isSign := by
  induction draft with
  | empty => simp at suffix
  | @value done part draft value ih =>
    unfold addValue at suffix
    split at suffix
    · rcases List.suffix_cons_iff.mp suffix with same | suffix
      · cases same
        contradiction
      · simp at suffix
    next last before =>
      split at suffix
      next ended =>
        rcases List.suffix_cons_iff.mp suffix with same | suffix
        · cases same
          contradiction
        rcases List.suffix_cons_iff.mp suffix with same | suffix
        · cases same
          -- The multiplication that was put in stands after a value, where nothing is awaited.
          simp [endsInValue, ended] at awaiting
        · exact ih suffix
      · rcases List.suffix_cons_iff.mp suffix with same | suffix
        · cases same
          contradiction
        · exact ih suffix
  | @operator done after p draft added ih =>
    have minus := (addOperator_eq_ok added).2.2
    rcases addOperator_cases added with rfl | ⟨last, plus, before, rfl, positive, rfl⟩
    · rcases List.suffix_cons_iff.mp suffix with same | suffix
      · cases same
        rw [minus awaiting]
        rfl
      · exact ih suffix
    · rcases List.suffix_cons_iff.mp suffix with same | suffix
      · cases same
        rw [positive]
        rfl
      · exact ih (suffix.trans (List.suffix_cons _ _))

def Apart (first second : Part) : Prop :=
  first.isValue → second.isValue = false

theorem Draft.isChain (draft : Draft done) : done.IsChain Apart := by
  induction draft with
  | empty => exact .nil
  | @value done part draft value ih =>
    unfold addValue
    split
    · exact .singleton part
    next last earlier =>
      split
      · exact .cons_cons (fun _ => rfl) (.cons_cons (fun h => absurd h (by simp [Part.isValue])) ih)
      next ended => exact .cons_cons (fun _ => by simpa using ended) ih
  | @operator done after o draft added ih =>
    have anything (p : Operator) (part : Part) : Apart (.operator p) part :=
      fun value => absurd value (by simp [Part.isValue])
    rcases addOperator_cases added with rfl | ⟨last, plus, earlier, rfl, -, rfl⟩
    · exact List.isChain_cons.mpr ⟨fun part _ => anything o part, ih⟩
    · exact List.isChain_cons.mpr ⟨fun part _ => anything plus part, ih.tail⟩

end Drafts

section Composed

variable {formula : Formula}

def Composed (formula : Formula) : Prop :=
  ∃ done : Formula, Draft done ∧ endsInValue done ∧ formula = foldSign done.reverse

theorem Composed.endsInValue (h : Composed formula) : endsInValue formula.reverse := by
  obtain ⟨done, -, value, rfl⟩ := h
  have nonempty : done.reverse ≠ [] := by
    cases done with
    | nil => contradiction
    | cons => simp
  have folded : foldSign done.reverse ≠ [] := by
    unfold foldSign
    split
    · split <;> simp
    · exact nonempty
  rw [endsInValue_reverse folded]
  intro o
  rw [Ne, getLast?_foldSign]
  rw [← done.reverse_reverse, endsInValue_reverse nonempty] at value
  exact value o

theorem Composed.isSign (h : Composed formula) {before after : Formula} {o : Operator}
    (split : formula = before ++ .operator o :: after)
    (awaiting : Formula.endsInValue before.reverse = false) : o.operation.isSign := by
  obtain ⟨done, draft, -, rfl⟩ := h
  have drafted (before : Formula) (split : done.reverse = before ++ .operator o :: after)
      (awaiting : Formula.endsInValue before.reverse = false) : o.operation.isSign := by
    have suffix : .operator o :: before.reverse <:+ done :=
      ⟨after.reverse, by rw [← done.reverse_reverse, split]; simp⟩
    exact draft.isSign suffix awaiting
  unfold foldSign at split
  split at split
  next sign site value rest started =>
    split at split
    · cases before with
      | nil => simp at split
      | cons first before =>
        simp only [List.cons_append, List.cons.injEq] at split
        obtain ⟨rfl, rfl⟩ := split
        cases before with
        | nil => simp [Formula.endsInValue, Part.isValue] at awaiting
        | cons second before =>
          -- What is before the operator ends as it did before the sign was folded.
          refine drafted (.operator sign :: .literal site value :: second :: before)
            (by rw [started]; rfl) ?_
          have same (parts : Formula) : Formula.endsInValue
              (parts ++ (second :: before)).reverse = Formula.endsInValue
                (second :: before).reverse := by
            obtain ⟨earlier, last, same⟩ := List.eq_nil_or_concat (second :: before) |>.resolve_left
              (by simp)
            simp [same, Formula.endsInValue]
          rw [← List.singleton_append, same] at awaiting
          exact (same [.operator sign, .literal site value]).trans awaiting
    · exact drafted before (by rw [started]; exact split) awaiting
  · exact drafted before split awaiting

theorem Composed.isChain (h : Composed formula) : formula.IsChain Apart := by
  obtain ⟨done, draft, -, rfl⟩ := h
  have drafted : done.reverse.IsChain Apart := by
    rw [List.isChain_reverse]
    refine draft.isChain.imp fun first second apart value => ?_
    cases own : first.isValue with
    | false => rfl
    | true => simp [apart own] at value
  unfold foldSign
  split
  next sign site value rest started =>
    rw [started] at drafted
    split
    · obtain ⟨next, rest⟩ := List.isChain_cons.mp drafted.tail
      exact List.isChain_cons.mpr ⟨fun part head _ => next part head rfl, rest⟩
    · exact drafted
  · exact drafted

end Composed

def Built (formula : Formula) : Prop :=
  ∀ within, Within within formula → Composed within

end FormulaSheet.Formula

namespace FormulaSheet.Part

def Built : Part → Prop
  | bracket _ inside => Formula.Built inside
  | call _ arguments => ∀ argument ∈ arguments, Formula.Built argument
  | _ => True

theorem built_of_operator {part : Part} (h : ∃ o, part = operator o) : part.Built := by
  obtain ⟨o, rfl⟩ := h
  trivial

end FormulaSheet.Part

namespace FormulaSheet.Formula

variable {source : String} {formula done after : Formula}

theorem built_iff : formula.Built ↔ Composed formula ∧ ∀ part ∈ formula, part.Built := by
  constructor
  · intro built
    refine ⟨built formula (.refl formula), fun part member => ?_⟩
    cases part with
    | bracket opening inside => exact fun within deep => built within (.bracket member deep)
    | call callee arguments =>
      exact fun argument given within deep => built within (.argument member given deep)
    | literal | name | operator => trivial
  · rintro ⟨composed, inside⟩ within deep
    cases deep with
    | refl => exact composed
    | bracket member deep => exact inside _ member within deep
    | argument member given deep => exact inside _ member _ given within deep

section Building

structure Drafted (done : Formula) : Prop where
  draft : Draft done
  inside : ∀ part ∈ done, part.Built

theorem Drafted.empty : Drafted [] :=
  ⟨.empty, by simp⟩

theorem Drafted.value (drafted : Drafted done) {part : Part} (value : part.isValue)
    (inside : part.Built) : Drafted (addValue done part) := by
  refine ⟨.value drafted.draft value, fun other member => ?_⟩
  rcases mem_addValue member with rfl | member | implied
  · exact inside
  · exact drafted.inside other member
  · exact Part.built_of_operator implied

theorem Drafted.operator (drafted : Drafted done) {o : Operator}
    (added : addOperator done o = .ok after) : Drafted after := by
  refine ⟨.operator drafted.draft added, fun other member => ?_⟩
  rcases mem_addOperator added member with member | operator
  · exact drafted.inside other member
  · exact Part.built_of_operator operator

theorem Drafted.finish (drafted : Drafted formula.reverse) (nonempty : formula ≠ [])
    {finished : Formula} (h : finish source formula = .ok finished) : Built finished := by
  have value := (finish_ok_iff nonempty).mp ⟨finished, h⟩
  rw [finish_eq_ok h, built_iff]
  refine ⟨⟨formula.reverse, drafted.draft, value, by rw [List.reverse_reverse]⟩, ?_⟩
  intro part member
  rcases mem_foldSign member with member | ⟨site, x, rfl⟩
  · exact drafted.inside part (List.mem_reverse.mpr member)
  · trivial

theorem Drafted.finishes {others formulas : List Formula} (drafted : Drafted formula.reverse)
    (built : ∀ other ∈ others, Built other) (h : Finishes source formula others formulas) :
    ∀ other ∈ formulas, Built other := by
  rcases h with ⟨-, rfl⟩ | ⟨nonempty, finished, done, rfl⟩
  · exact built
  · exact List.forall_mem_cons.mpr ⟨drafted.finish nonempty done, built⟩

theorem building (source : String) :
    (∀ done tokens formula, chain source done tokens = .ok formula → Drafted done →
      Drafted formula.reverse) ∧
    ∀ tokens formulas, lines source tokens = .ok formulas → ∀ formula ∈ formulas, Built formula := by
  apply build_induction
  case nil =>
    intro done drafted
    rwa [List.reverse_reverse]
  case ended =>
    intro done token rest _ drafted
    rwa [List.reverse_reverse]
  case number =>
    intro done token rest value formula _ ih drafted
    exact ih (drafted.value rfl trivial)
  case name =>
    intro done token rest formula _ ih drafted
    exact ih (drafted.value rfl trivial)
  case operator =>
    intro done token rest operation after formula _ added ih drafted
    exact ih (drafted.operator added)
  case group =>
    intro done token rest inside after group formula _ _ inner ih drafted
    have built : Part.Built (.bracket token.site group) := inner group (by simp)
    exact ih (drafted.value rfl built)
  case call =>
    intro done token rest callee arguments values formula _ _ inner ih drafted
    have built : Part.Built (.call ⟨token.site, callee.text, .plain⟩ values) := inner
    exact ih (drafted.value rfl built)
  case query =>
    intro done token rest query arguments values formula _ _ inner ih drafted
    have built : Part.Built (.call ⟨token.site, "s", .query query⟩ values) := inner
    exact ih (drafted.value rfl built)
  case last =>
    intro tokens formula formulas ih _ finished
    exact (ih .empty).finishes (by simp) finished
  case line =>
    intro tokens formula rest others formulas ih _ later finished
    exact (ih .empty).finishes later finished

theorem built_of_captured {grammar : Token.Grammar} {capture : Capture} {formulas : List Formula}
    (h : captured source grammar capture = .ok formulas) : ∀ formula ∈ formulas, Built formula :=
  (building source).2 _ _ (captured_ok.mp h).2

end Building

end FormulaSheet.Formula
