import FormulaSheet.Formula.Reduce

set_option autoImplicit false

namespace FormulaSheet

-- What stands between operators, and the operators between.
structure Terms (α : Type) where
  first : α
  rest : List (Operator × α)

def Terms.items (terms : Terms Float) : List Item :=
  .value terms.first :: terms.rest.flatMap fun (o, value) => [.operator o, .value value]

@[simp]
theorem Terms.items_nil (x : Float) : (Terms.mk x []).items = [.value x] := rfl

@[simp]
theorem Terms.items_cons (x y : Float) (o : Operator) (rest : List (Operator × Float)) :
    (Terms.mk x ((o, y) :: rest)).items = .value x :: .operator o :: (Terms.mk y rest).items := rfl

inductive Tree where
  | leaf (value : Float)
  | apply (left : Tree) (operator : Operator) (right : Tree)

def splitAtLast {α : Type} (operation : Operation) : List (Operator × α) →
    Option (List (Operator × α) × (Operator × α) × List (Operator × α))
  | [] => none
  | term :: rest =>
    match splitAtLast operation rest with
    | some (before, last, after) => some (term :: before, last, after)
    | none => if term.1.operation = operation then some ([], term, rest) else none

-- Splits at the last of the loosest operators; `levels` names the tightest operation first.
def splitLoosest {α : Type} : List Operation → List (Operator × α) →
    Option (List (Operator × α) × (Operator × α) × List (Operator × α))
  | [], _ => none
  | tightest :: looser, rest => splitLoosest looser rest <|> splitAtLast tightest rest

theorem splitAtLast_eq_none {α : Type} {operation : Operation} {rest : List (Operator × α)}
    (h : splitAtLast operation rest = none) : ∀ term ∈ rest, term.1.operation ≠ operation := by
  induction rest with
  | nil => simp
  | cons term rest ih =>
    simp only [splitAtLast] at h
    split at h
    · contradiction
    next later =>
      split at h
      · contradiction
      next other =>
        intro found member
        rcases List.mem_cons.mp member with rfl | member
        · exact other
        · exact ih later found member

theorem splitAtLast_eq_some {α : Type} {operation : Operation}
    {rest before after : List (Operator × α)} {last : Operator × α}
    (h : splitAtLast operation rest = some (before, last, after)) :
    rest = before ++ last :: after ∧ last.1.operation = operation ∧
      ∀ term ∈ after, term.1.operation ≠ operation := by
  induction rest generalizing before with
  | nil => contradiction
  | cons term rest ih =>
    simp only [splitAtLast] at h
    split at h
    next found =>
      cases h
      obtain ⟨same, rightOperation, none⟩ := ih found
      exact ⟨by simp [same], rightOperation, none⟩
    next later =>
      split at h
      next here =>
        cases h
        exact ⟨rfl, here, splitAtLast_eq_none later⟩
      · contradiction

theorem splitAtLast_of_forall_ne {α : Type} {operation : Operation} {rest : List (Operator × α)}
    (h : ∀ term ∈ rest, term.1.operation ≠ operation) : splitAtLast operation rest = none := by
  cases found : splitAtLast operation rest with
  | none => rfl
  | some parts =>
    obtain ⟨before, last, after⟩ := parts
    obtain ⟨rfl, here, -⟩ := splitAtLast_eq_some found
    exact absurd here (h last (by simp))

theorem splitAtLast_append {α : Type} {operation : Operation} {before after : List (Operator × α)}
    {last : Operator × α} (here : last.1.operation = operation)
    (later : ∀ term ∈ after, term.1.operation ≠ operation) :
    splitAtLast operation (before ++ last :: after) = some (before, last, after) := by
  induction before with
  | nil => simp [splitAtLast, splitAtLast_of_forall_ne later, here]
  | cons term before ih => simp [splitAtLast, ih]

theorem splitLoosest_eq_some {α : Type} {levels : List Operation}
    {rest before after : List (Operator × α)} {last : Operator × α}
    (h : splitLoosest levels rest = some (before, last, after)) :
    rest = before ++ last :: after ∧ last.1.operation ∈ levels := by
  induction levels with
  | nil => contradiction
  | cons tightest looser ih =>
    simp only [splitLoosest, Option.orElse_eq_orElse, Option.orElse_eq_or,
      Option.or_eq_some_iff] at h
    rcases h with found | ⟨-, found⟩
    · obtain ⟨whole, member⟩ := ih found
      exact ⟨whole, List.mem_cons_of_mem _ member⟩
    · obtain ⟨whole, rfl, -⟩ := splitAtLast_eq_some found
      exact ⟨whole, List.mem_cons_self⟩

theorem splitLoosest_nil {α : Type} (levels : List Operation) :
    splitLoosest levels ([] : List (Operator × α)) = none := by
  induction levels with
  | nil => rfl
  | cons tightest looser ih => simp [splitLoosest, ih, splitAtLast]

theorem splitLoosest_eq_none {α : Type} {levels : List Operation} {rest : List (Operator × α)}
    (h : splitLoosest levels rest = none) : ∀ term ∈ rest, term.1.operation ∉ levels := by
  induction levels with
  | nil => simp
  | cons tightest looser ih =>
    simp only [splitLoosest, Option.orElse_eq_orElse, Option.orElse_eq_or,
      Option.or_eq_none_iff] at h
    intro term member
    simp only [List.mem_cons, not_or]
    exact ⟨splitAtLast_eq_none h.2 term member, ih h.1 term member⟩

namespace Tree

def ofTerms (levels : List Operation) (first : Tree) (rest : List (Operator × Tree)) : Tree :=
  match _root : splitLoosest levels rest with
  | none => first
  | some (before, (o, next), after) =>
    .apply (ofTerms levels first before) o (ofTerms levels next after)
termination_by rest.length
decreasing_by
  all_goals
    have := congrArg List.length (splitLoosest_eq_some _root).1
    simp only [List.length_append, List.length_cons] at this
    omega

theorem ofTerms_of_none {levels : List Operation} {first : Tree} {rest : List (Operator × Tree)}
    (h : splitLoosest levels rest = none) : ofTerms levels first rest = first := by
  rw [ofTerms]
  split
  · rfl
  next found => simp [h] at found

@[simp]
theorem ofTerms_nil (levels : List Operation) (first : Tree) : ofTerms levels first [] = first :=
  ofTerms_of_none (splitLoosest_nil levels)

theorem ofTerms_of_some {levels : List Operation} {first next : Tree} {o : Operator}
    {rest before after : List (Operator × Tree)}
    (h : splitLoosest levels rest = some (before, (o, next), after)) :
    ofTerms levels first rest =
      .apply (ofTerms levels first before) o (ofTerms levels next after) := by
  rw [ofTerms]
  split
  next missing => simp [h] at missing
  next found =>
    rw [h] at found
    cases found
    rfl

end Tree

def Terms.tree (terms : Terms Float) : Tree :=
  .ofTerms Operation.precedence (.leaf terms.first)
    (terms.rest.map fun (o, value) => (o, .leaf value))

def collapse (operation : Operation) (first : Tree) : List (Operator × Tree) → Terms Tree
  | [] => ⟨first, []⟩
  | (o, next) :: rest =>
    if o.operation = operation then collapse operation (.apply first o next) rest
    else
      let later := collapse operation next rest
      ⟨first, (o, later.first) :: later.rest⟩

def Terms.collapseAll (terms : Terms Tree) (levels : List Operation) : Terms Tree :=
  levels.foldl (fun terms operation => collapse operation terms.first terms.rest) terms

theorem mem_collapse {operation : Operation} {first : Tree} {rest : List (Operator × Tree)}
    {term : Operator × Tree} (h : term ∈ (collapse operation first rest).rest) :
    term.1.operation ≠ operation ∧ ∃ source ∈ rest, source.1 = term.1 := by
  fun_induction collapse operation first rest with
  | case1 => simp at h
  | case2 first o next rest here ih =>
    obtain ⟨other, source, member, same⟩ := ih h
    exact ⟨other, source, List.mem_cons_of_mem _ member, same⟩
  | case3 first o next rest other later ih =>
    rcases List.mem_cons.mp h with rfl | member
    · exact ⟨other, (o, next), by simp, rfl⟩
    · obtain ⟨other, source, found, same⟩ := ih member
      exact ⟨other, source, List.mem_cons_of_mem _ found, same⟩

theorem collapse_append {operation : Operation} {first next : Tree} {o : Operator}
    {before after : List (Operator × Tree)} (other : o.operation ≠ operation) :
    collapse operation first (before ++ (o, next) :: after) =
      ⟨(collapse operation first before).first,
        (collapse operation first before).rest ++
          (o, (collapse operation next after).first) :: (collapse operation next after).rest⟩ := by
  fun_induction collapse operation first before with
  | case1 => simp [collapse, other]
  | case2 first p item before here ih => simp only [List.cons_append, collapse, here, if_true, ih]
  | case3 first p item before apart later ih =>
    simp only [List.cons_append, collapse, apart, if_false, ih, later]

theorem collapse_of_forall_eq {operation : Operation} {first : Tree} {rest : List (Operator × Tree)}
    (all : ∀ term ∈ rest, term.1.operation = operation) :
    collapse operation first rest = ⟨(collapse operation first rest).first, []⟩ := by
  fun_induction collapse operation first rest with
  | case1 => rfl
  | case2 first o next rest here ih => exact ih fun term member => all term (by simp [member])
  | case3 first o next rest other => exact absurd (all (o, next) (by simp)) other

theorem collapse_concat {operation : Operation} {first next : Tree} {o : Operator}
    {before : List (Operator × Tree)} (here : o.operation = operation)
    (all : ∀ term ∈ before, term.1.operation = operation) :
    collapse operation first (before ++ [(o, next)]) =
      ⟨.apply (collapse operation first before).first o next, []⟩ := by
  fun_induction collapse operation first before with
  | case1 => simp [collapse, here]
  | case2 first p item before same ih =>
    simp only [List.cons_append, collapse, same, if_true]
    exact ih fun term member => all term (by simp [member])
  | case3 first p item before other => exact absurd (all (p, item) (by simp)) other

theorem splitAtLast_collapse {operation other : Operation} (apart : other ≠ operation)
    (first : Tree) (rest : List (Operator × Tree)) :
    splitAtLast other (collapse operation first rest).rest =
      (splitAtLast other rest).map fun (before, (o, next), after) =>
        ((collapse operation first before).rest, (o, (collapse operation next after).first),
          (collapse operation next after).rest) := by
  have absent {first : Tree} {rest : List (Operator × Tree)}
      (missing : ∀ term ∈ rest, term.1.operation ≠ other) :
      ∀ term ∈ (collapse operation first rest).rest, term.1.operation ≠ other := by
    intro term member
    obtain ⟨-, source, present, same⟩ := mem_collapse member
    rw [← same]
    exact missing source present
  cases found : splitAtLast other rest with
  | none =>
    rw [Option.map_none]
    exact splitAtLast_of_forall_ne (absent (splitAtLast_eq_none found))
  | some parts =>
    obtain ⟨before, ⟨o, next⟩, after⟩ := parts
    obtain ⟨rfl, level, later⟩ := splitAtLast_eq_some found
    simp only at level
    rw [collapse_append (by rw [level]; exact apart), Option.map_some]
    exact splitAtLast_append level (absent later)

theorem splitLoosest_collapse {operation : Operation} {levels : List Operation}
    (apart : operation ∉ levels) (first : Tree) (rest : List (Operator × Tree)) :
    splitLoosest levels (collapse operation first rest).rest =
      (splitLoosest levels rest).map fun (before, (o, next), after) =>
        ((collapse operation first before).rest, (o, (collapse operation next after).first),
          (collapse operation next after).rest) := by
  induction levels with
  | nil => rfl
  | cons tightest looser ih =>
    rw [List.mem_cons, not_or] at apart
    have here := splitAtLast_collapse (Ne.symm apart.1) first rest
    simp only [splitLoosest, ih apart.2, here]
    cases splitLoosest looser rest <;> rfl

theorem Tree.ofTerms_cons {operation : Operation} {looser : List Operation} {first : Tree}
    {rest : List (Operator × Tree)} (apart : operation ∉ looser)
    (known : ∀ term ∈ rest, term.1.operation ∈ operation :: looser) :
    ofTerms (operation :: looser) first rest =
      ofTerms looser (collapse operation first rest).first
        (collapse operation first rest).rest := by
  fun_induction ofTerms (operation :: looser) first rest with
  | case1 first rest missing =>
    have empty : rest = [] := by
      apply List.eq_nil_iff_forall_not_mem.mpr
      intro term member
      exact splitLoosest_eq_none missing term member (known term member)
    subst empty
    simp [collapse]
  | case2 first rest before o next after root leftHalf rightHalf =>
    have whole := (splitLoosest_eq_some root).1
    rw [leftHalf fun term member => known term (by simp [whole, member]),
      rightHalf fun term member => known term (by simp [whole, member])]
    simp only [splitLoosest, Option.orElse_eq_orElse, Option.orElse_eq_or,
      Option.or_eq_some_iff] at root
    rcases root with found | ⟨missing, found⟩
    · -- The root is looser than what is collapsed, so both halves collapse on their own.
      have image := splitLoosest_collapse apart first rest
      rw [found, Option.map_some] at image
      have outside : o.operation ≠ operation := by
        rintro rfl
        exact apart (splitLoosest_eq_some found).2
      rw [ofTerms_of_some image]
      congr 1
      rw [whole, collapse_append outside]
    · -- Only the collapsed operation is left, and its last operator is the last of all.
      obtain ⟨-, here, later⟩ := splitAtLast_eq_some found
      have same : ∀ term ∈ rest, term.1.operation = operation := by
        intro term member
        exact (List.mem_cons.mp (known term member)).resolve_right
          (splitLoosest_eq_none missing term member)
      have last : after = [] := by
        apply List.eq_nil_iff_forall_not_mem.mpr
        intro term member
        exact later term member (same term (by simp [whole, member]))
      subst last whole
      have before : ∀ term ∈ before, term.1.operation = operation :=
        fun term member => same term (by simp [member])
      rw [collapse_of_forall_eq before, collapse_concat here before]
      simp [collapse]

theorem Terms.collapseAll_eq_tree {levels : List Operation} (distinct : levels.Nodup)
    (terms : Terms Tree) (known : ∀ term ∈ terms.rest, term.1.operation ∈ levels) :
    terms.collapseAll levels = ⟨.ofTerms levels terms.first terms.rest, []⟩ := by
  induction levels generalizing terms with
  | nil =>
    obtain ⟨first, rest⟩ := terms
    have empty : rest = [] := by
      apply List.eq_nil_iff_forall_not_mem.mpr
      intro term member
      exact absurd (known term member) (by simp)
    subst empty
    simp [collapseAll]
  | cons operation looser ih =>
    obtain ⟨apart, distinct⟩ := List.nodup_cons.mp distinct
    rw [Tree.ofTerms_cons apart known]
    apply ih distinct
    intro term member
    obtain ⟨other, source, present, same⟩ := mem_collapse member
    have level := known source present
    rw [same] at level
    exact (List.mem_cons.mp level).resolve_left other

end FormulaSheet
