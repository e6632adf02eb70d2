import FormulaSheet.Proofs.Precedence.Tree
import FormulaSheet.Sheet.Evaluate
import Mathlib.Data.List.Forall2

set_option autoImplicit false

namespace FormulaSheet

structure Application where
  left : Tree
  operator : Operator
  right : Tree

def Tree.applications : Tree → List Application
  | leaf _ => []
  | apply left operator right =>
    left.applications ++ ⟨left, operator, right⟩ :: right.applications

def Terms.applications (terms : Terms Tree) : List Application :=
  terms.first.applications ++ terms.rest.flatMap fun (_, tree) => tree.applications

def Application.isOf (operation : Operation) (a : Application) : Bool :=
  a.operator.operation = operation

section Values

variable (limits : Limits) (source : String)

def Tree.value : Tree → Except Error Float
  | leaf value => .ok value
  | apply left operator right => do
    let left ← left.value
    let right ← right.value
    operator.evaluate limits source left right

-- An application without both its operands is not a failing one.
def Application.fault? (a : Application) : Option Error :=
  match a.left.value limits source, a.right.value limits source with
  | .ok left, .ok right =>
    match a.operator.evaluate limits source left right with
    | .ok _ => none
    | .error e => some e
  | _, _ => none

def faultAt? (applications : List Application) (operation : Operation) : Option Error :=
  (applications.filter (Application.isOf operation)).findSome? (Application.fault? limits source)

/-- The fault of the failing application that is first by sweep and then from left to right. -/
def Tree.firstFault? (tree : Tree) : Option Error :=
  Operation.precedence.findSome? (faultAt? limits source tree.applications)

structure Terms.Known (terms : Terms Tree) (values : Terms Float) : Prop where
  first : terms.first.value limits source = .ok values.first
  rest : List.Forall₂ (fun term value =>
    term.1 = value.1 ∧ term.2.value limits source = .ok value.2) terms.rest values.rest

end Values

section Sweep

variable {limits : Limits} {source : String}

theorem Tree.value_apply {left right : Tree} {x y : Float}
    (hleft : left.value limits source = .ok x) (hright : right.value limits source = .ok y)
    (o : Operator) :
    (Tree.apply left o right).value limits source = o.evaluate limits source x y := by
  simp [value, hleft, hright, bind, Except.bind]

theorem Tree.fault?_eq_none {tree : Tree} {x : Float} (h : tree.value limits source = .ok x) :
    ∀ a ∈ tree.applications, a.fault? limits source = none := by
  induction tree generalizing x with
  | leaf => simp [applications]
  | apply left o right ihLeft ihRight =>
    cases hleft : left.value limits source with
    | error e => simp [value, hleft, bind, Except.bind] at h
    | ok y =>
      cases hright : right.value limits source with
      | error e => simp [value, hleft, hright, bind, Except.bind] at h
      | ok z =>
        rw [value_apply hleft hright] at h
        intro a member
        simp only [applications, List.mem_append, List.mem_cons] at member
        rcases member with member | rfl | member
        · exact ihLeft hleft a member
        · simp [Application.fault?, hleft, hright, h]
        · exact ihRight hright a member

theorem faultAt?_eq_none {applications : List Application}
    (h : ∀ a ∈ applications, a.fault? limits source = none) (operation : Operation) :
    faultAt? limits source applications operation = none := by
  apply List.findSome?_eq_none_iff.mpr
  intro a member
  exact h a (List.mem_filter.mp member).1

theorem faultAt?_append (as bs : List Application) (operation : Operation) :
    faultAt? limits source (as ++ bs) operation =
      (faultAt? limits source as operation).or (faultAt? limits source bs operation) := by
  simp [faultAt?, List.filter_append, List.findSome?_append]

theorem collapse_applications (operation : Operation) (first : Tree)
    (rest : List (Operator × Tree)) :
    ∃ more, (collapse operation first rest).applications = first.applications ++ more := by
  fun_induction collapse operation first rest with
  | case1 first => exact ⟨[], by simp [Terms.applications]⟩
  | case2 first o next rest here ih =>
    obtain ⟨more, same⟩ := ih
    exact ⟨_, by rw [same, Tree.applications, List.append_assoc]⟩
  | case3 first o next rest other later ih => exact ⟨_, rfl⟩

theorem filter_collapse_applications {operation other : Operation} (apart : other ≠ operation)
    (first : Tree) (rest : List (Operator × Tree)) :
    (collapse operation first rest).applications.filter (Application.isOf other) =
      (Terms.mk first rest).applications.filter (Application.isOf other) := by
  fun_induction collapse operation first rest with
  | case1 => rfl
  | case2 first o next rest here ih =>
    have skipped : o.operation ≠ other := by rw [here]; exact Ne.symm apart
    rw [ih]
    simp [Terms.applications, Tree.applications, Application.isOf, skipped]
  | case3 first o next rest different later ih =>
    simp only [Terms.applications, List.filter_append, List.flatMap_cons] at ih ⊢
    rw [ih]

theorem sweep_join {operation : Operation} {o : Operator} (here : o.operation = operation)
    (done : List Item) (x y : Float) (terms : List (Operator × Float)) :
    Item.sweep limits source operation done (Terms.mk x ((o, y) :: terms)).items =
      (o.evaluate limits source x y).bind fun z =>
        Item.sweep limits source operation done (Terms.mk z terms).items := by
  simp [Terms.items, Item.sweep, here, bind]

theorem sweep_pass {operation : Operation} {o : Operator} (other : o.operation ≠ operation)
    (done : List Item) (x y : Float) (terms : List (Operator × Float)) :
    Item.sweep limits source operation done (Terms.mk x ((o, y) :: terms)).items =
      Item.sweep limits source operation (.operator o :: .value x :: done)
        (Terms.mk y terms).items := by
  simp [Terms.items, Item.sweep, other]

theorem sweep_known {operation : Operation} {first : Tree} {rest : List (Operator × Tree)}
    {x : Float} {terms : List (Operator × Float)}
    (known : Terms.Known limits source ⟨first, rest⟩ ⟨x, terms⟩) (done : List Item) :
    (∃ swept, Item.sweep limits source operation done (Terms.mk x terms).items =
        .ok (done.reverse ++ swept.items) ∧
      Terms.Known limits source (collapse operation first rest) swept) ∨
    ∃ e, Item.sweep limits source operation done (Terms.mk x terms).items = .error e ∧
      faultAt? limits source (collapse operation first rest).applications operation = some e := by
  obtain ⟨hfirst, hrest⟩ := known
  simp only at hfirst hrest
  induction hrest generalizing first x done with
  | nil =>
    refine .inl ⟨⟨x, []⟩, ?_, ⟨hfirst, .nil⟩⟩
    simp [Item.sweep]
  | @cons term value rest terms same others ih =>
    obtain ⟨o, next⟩ := term
    obtain ⟨p, y⟩ := value
    obtain ⟨rfl, hnext⟩ := same
    simp only at hnext
    have before := faultAt?_eq_none (Tree.fault?_eq_none hfirst) operation
    -- Joining two values is applying the operator in the tree; passing one by leaves both alone.
    by_cases here : o.operation = operation
    · have joined := Tree.value_apply hfirst hnext o
      rw [sweep_join here, collapse, if_pos here]
      cases result : o.evaluate limits source x y with
      | ok z => exact ih done (joined.trans result)
      | error e =>
        obtain ⟨more, same⟩ := collapse_applications operation (.apply first o next) rest
        have failing : (Application.mk first o next).fault? limits source = some e := by
          simp [Application.fault?, hfirst, hnext, result]
        refine .inr ⟨e, rfl, ?_⟩
        rw [same, Tree.applications, List.append_assoc, faultAt?_append, before]
        simp [faultAt?, Application.isOf, here, failing]
    · rw [sweep_pass here, collapse, if_neg here]
      rcases ih (.operator o :: .value x :: done) hnext with
        ⟨swept, result, later⟩ | ⟨e, result, fault⟩
      · refine .inl ⟨⟨x, (o, swept.first) :: swept.rest⟩, ?_,
          ⟨hfirst, .cons ⟨rfl, later.first⟩ later.rest⟩⟩
        rw [result, Terms.items_cons]
        simp
      · refine .inr ⟨e, result, ?_⟩
        rw [Terms.applications, faultAt?_append, before]
        simpa [Terms.applications] using fault

theorem faultAt?_collapseAll {levels : List Operation} {operation : Operation}
    (apart : operation ∉ levels) (terms : Terms Tree) :
    faultAt? limits source (terms.collapseAll levels).applications operation =
      faultAt? limits source terms.applications operation := by
  induction levels generalizing terms with
  | nil => rfl
  | cons tightest looser ih =>
    rw [List.mem_cons, not_or] at apart
    have later := ih apart.2 (collapse tightest terms.first terms.rest)
    refine later.trans ?_
    rw [faultAt?, filter_collapse_applications apart.1]
    rfl

theorem Terms.Known.faultAt?_eq_none {terms : Terms Tree} {values : Terms Float}
    (known : Terms.Known limits source terms values) (operation : Operation) :
    faultAt? limits source terms.applications operation = none := by
  obtain ⟨first, rest⟩ := terms
  obtain ⟨x, others⟩ := values
  obtain ⟨hfirst, hrest⟩ := known
  have none (tree : Tree) (y : Float) (h : tree.value limits source = .ok y) :=
    FormulaSheet.faultAt?_eq_none (Tree.fault?_eq_none h) operation
  simp only at hfirst hrest
  induction hrest generalizing first x with
  | nil => simpa [applications] using none first x hfirst
  | @cons term value rest others same _ ih =>
    have later := ih term.2 value.2 same.2
    simp only [applications, List.flatMap_cons, faultAt?_append, none first x hfirst] at later ⊢
    exact later

theorem sweeps_known {levels : List Operation} (distinct : levels.Nodup) {terms : Terms Tree}
    {values : Terms Float} (known : Terms.Known limits source terms values) :
    (∃ swept : Terms Float,
      levels.foldlM (fun items operation => Item.sweep limits source operation [] items)
        values.items = .ok swept.items ∧
      Terms.Known limits source (terms.collapseAll levels) swept) ∨
    ∃ e, levels.foldlM (fun items operation => Item.sweep limits source operation [] items)
        values.items = .error e ∧
      levels.findSome? (faultAt? limits source (terms.collapseAll levels).applications) =
        some e := by
  induction levels generalizing terms values with
  | nil => exact .inl ⟨values, rfl, known⟩
  | cons operation looser ih =>
    obtain ⟨apart, distinct⟩ := List.nodup_cons.mp distinct
    have collapsed : terms.collapseAll (operation :: looser) =
      (collapse operation terms.first terms.rest).collapseAll looser := rfl
    rw [List.foldlM_cons, List.findSome?_cons, collapsed, faultAt?_collapseAll apart]
    rcases sweep_known known [] with ⟨swept, result, later⟩ | ⟨e, result, fault⟩
    · rw [result, later.faultAt?_eq_none]
      exact ih distinct later
    · rw [result, fault]
      exact .inr ⟨e, rfl, rfl⟩

end Sweep

theorem Terms.known_leaves (limits : Limits) (source : String) (terms : Terms Float) :
    Terms.Known limits source
      ⟨.leaf terms.first, terms.rest.map fun (o, value) => (o, .leaf value)⟩ terms where
  first := rfl
  rest := List.forall₂_map_left_iff.mpr (List.forall₂_same.mpr fun _ _ => ⟨rfl, rfl⟩)

theorem Terms.collapseAll_leaves (terms : Terms Float) :
    (Terms.mk (.leaf terms.first) (terms.rest.map fun (o, value) => (o, .leaf value))).collapseAll
      Operation.precedence = ⟨terms.tree, []⟩ := by
  apply collapseAll_eq_tree (by decide)
  intro term _
  cases term.1.operation <;> decide

theorem Terms.reduce_items (limits : Limits) (source : String) (terms : Terms Float) :
    (∃ x, Item.reduce limits source terms.items = .ok x ∧
      terms.tree.value limits source = .ok x) ∨
    ∃ e, Item.reduce limits source terms.items = .error e ∧
      terms.tree.firstFault? limits source = some e := by
  rcases sweeps_known (by decide : Operation.precedence.Nodup) (terms.known_leaves limits source)
    with ⟨swept, result, known⟩ | ⟨e, result, fault⟩
  · rw [collapseAll_leaves] at known
    obtain ⟨x, rest⟩ := swept
    obtain rfl : rest = [] := List.forall₂_nil_left_iff.mp known.rest
    refine .inl ⟨x, ?_, known.first⟩
    simp [Item.reduce, result, bind, Except.bind, pure, Except.pure]
  · rw [collapseAll_leaves] at fault
    refine .inr ⟨e, ?_, ?_⟩
    · simp [Item.reduce, result, bind, Except.bind]
    · simpa [Tree.firstFault?, Terms.applications] using fault

theorem Tree.firstFault?_eq_none {limits : Limits} {source : String} {tree : Tree} {x : Float}
    (h : tree.value limits source = .ok x) : tree.firstFault? limits source = none := by
  apply List.findSome?_eq_none_iff.mpr
  intro operation _
  exact faultAt?_eq_none (fault?_eq_none h) operation

namespace Sheet

theorem conclude_of_items {sheet : Sheet} {run : Function → Callee → Scope → Except Error Answer}
    {scope : Scope} {formula : Formula} {found : List Item}
    (h : items sheet run scope (.value none) formula = .ok found) :
    sheet.conclude formula (.ok found) = Item.reduce sheet.limits sheet.source found := by
  unfold conclude
  split
  next o =>
    -- A lone operator has no items.
    cases sign : o.operation.isSign <;> simp [items, sign] at h
  · rfl

/-- Evaluating agrees with the precedence tree: it has the tree's value when the tree has one, and
otherwise the fault of the application that fails first, by sweep and then from left to right. -/
theorem evaluate_iff_tree (sheet : Sheet) (scope : Scope) (formula : Formula) (terms : Terms Float)
    (found : items sheet sheet.run scope (.value none) formula = .ok terms.items) :
    (∀ x, sheet.evaluate scope formula = .ok x ↔
      terms.tree.value sheet.limits sheet.source = .ok x) ∧
    ∀ e, sheet.evaluate scope formula = .error e ↔
      terms.tree.firstFault? sheet.limits sheet.source = some e := by
  have reduced : sheet.evaluate scope formula =
      Item.reduce sheet.limits sheet.source terms.items := by
    rw [evaluate, formulaValue, found, conclude_of_items found]
  rw [reduced]
  rcases terms.reduce_items sheet.limits sheet.source with ⟨x, result, value⟩ | ⟨e, result, fault⟩
  · simp [result, value, Tree.firstFault?_eq_none value]
  · have valueless (x : Float) : terms.tree.value sheet.limits sheet.source ≠ .ok x := by
      intro value
      simp [Tree.firstFault?_eq_none value] at fault
    simp [result, fault, valueless]

theorem evaluate_signed_mixture :
    let sheet := Sheet.ofSource "-9 - 2 * 3 ^ 2 - 1" {}
    let site (text : String) (index : Nat) : Site := ⟨text, ⟨index, 1, index + 1⟩⟩
    let first : Operator := ⟨.subtract, site "-" 3⟩
    let second : Operator := ⟨.subtract, site "-" 15⟩
    let times : Operator := ⟨.multiply, site "*" 7⟩
    let power : Operator := ⟨.power, site "^" 11⟩
    let formula : Formula := [.operator ⟨.subtract, site "-" 0⟩, .literal (site "9" 1) 9,
      .operator first, .literal (site "2" 5) 2, .operator times, .literal (site "3" 9) 3,
      .operator power, .literal (site "2" 13) 2, .operator second, .literal (site "1" 17) 1]
    let terms : Terms Float := ⟨-9, [(first, 2), (times, 3), (power, 2), (second, 1)]⟩
    items sheet sheet.run .empty (.value none) formula = .ok terms.items ∧
    terms.tree = .apply (.apply (.leaf (-9)) first
      (.apply (.leaf 2) times (.apply (.leaf 3) power (.leaf 2)))) second (.leaf 1) ∧
    (∀ x, sheet.evaluate .empty formula = .ok x ↔
      terms.tree.value sheet.limits sheet.source = .ok x) ∧
    ∀ e, sheet.evaluate .empty formula = .error e ↔
      terms.tree.firstFault? sheet.limits sheet.source = some e := by
  refine ⟨rfl, ?_, evaluate_iff_tree _ _ _ _ rfl⟩
  simp [Terms.tree, Tree.ofTerms, splitLoosest, splitAtLast, Operation.precedence]

end Sheet

end FormulaSheet
