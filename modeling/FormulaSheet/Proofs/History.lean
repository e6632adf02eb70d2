import FormulaSheet.Proofs.Reachable
import Mathlib.Data.List.Induction

set_option autoImplicit false

namespace FormulaSheet.SymbolTable

inductive Entry where
  | constant (name : String) (value : Float)
  | definition (name : String) (function : Function)

namespace Entry

def name : Entry → String
  | constant name _ | definition name _ => name

def symbol : Entry → Symbol
  | constant _ value => .constant value
  | definition _ function => .function function

def definedName? : Entry → Option String
  | constant .. => none
  | definition name _ => some name

end Entry

def enter (table : SymbolTable) : Entry → SymbolTable
  | .constant name value => table.insert name (.constant value)
  | .definition name function => table.define name function

def enterAll (table : SymbolTable) (history : List Entry) : SymbolTable :=
  history.foldl enter table

def latest? (history : List Entry) (name : String) : Option Symbol :=
  (history.reverse.find? (·.name = name)).map Entry.symbol

def everDefined (history : List Entry) : List String :=
  history.filterMap Entry.definedName?

/-- The names are those ever defined, each once, in the order of their first definitions. -/
structure InOrder (history : List Entry) (names : List String) : Prop where
  defined : ∀ name, name ∈ names ↔ name ∈ everDefined history
  ordered : names.Pairwise fun a b => (everDefined history).idxOf a < (everDefined history).idxOf b

/-- What the table holds after the history, if it began as `seed`. -/
structure Records (seed : SymbolTable) (history : List Entry) (table : SymbolTable) : Prop where
  found : ∀ name, table.find? name = (latest? history name).or (seed.find? name)
  sort : ∀ name, if table.contains name
    then (table.constant? name).isSome = !(table.function? name).isSome
    else table.constant? name = none ∧ table.function? name = none
  definitions : ∃ names : List String,
    (∀ name, name ∈ names ↔
      name ∈ everDefined history ∧ ∃ f, latest? history name = some (.function f)) ∧
    names.Pairwise (fun a b => (everDefined history).idxOf a < (everDefined history).idxOf b) ∧
    List.Forall₂ (fun name f => latest? history name = some (.function f)) names table.definitions

variable {table seed : SymbolTable} {history : List Entry} {entry : Entry} {name : String}

section Steps

theorem enterAll_concat (table : SymbolTable) (history : List Entry) (entry : Entry) :
    table.enterAll (history ++ [entry]) = (table.enterAll history).enter entry := by
  simp [enterAll]

theorem find?_enter (table : SymbolTable) (entry : Entry) (name : String) :
    (table.enter entry).find? name =
      if name = entry.name then some entry.symbol else table.find? name := by
  cases entry with
  | constant => exact find?_insert ..
  | definition => exact find?_define ..

theorem latest?_concat (history : List Entry) (entry : Entry) (name : String) :
    latest? (history ++ [entry]) name =
      if name = entry.name then some entry.symbol else latest? history name := by
  by_cases own : name = entry.name
  · simp [latest?, own]
  · simp [latest?, own, Ne.symm own]

theorem find?_enterAll (table : SymbolTable) (history : List Entry) (name : String) :
    (table.enterAll history).find? name = (latest? history name).or (table.find? name) := by
  induction history using List.reverseRecOn with
  | nil => rfl
  | append_singleton history entry ih =>
    rw [enterAll_concat, find?_enter, latest?_concat, ih]
    by_cases own : name = entry.name <;> simp [own]

theorem definedNames_define (table : SymbolTable) (name : String) (f : Function) :
    (table.define name f).definedNames =
      if name ∈ table.definedNames then table.definedNames else table.definedNames ++ [name] := by
  by_cases known : name ∈ table.definedNames <;> simp [define, SymbolTable.insert, known]

theorem InOrder.define {names : List String} (h : InOrder history names) (name : String)
    (f : Function) : InOrder (history ++ [.definition name f])
      (if name ∈ names then names else names ++ [name]) := by
  obtain ⟨defined, ordered⟩ := h
  have extended : everDefined (history ++ [.definition name f]) = everDefined history ++ [name] := by
    simp [everDefined, Entry.definedName?]
  -- A name that was defined before keeps its first place.
  have kept : ∀ other ∈ names, (everDefined history ++ [name]).idxOf other =
      (everDefined history).idxOf other := fun other member =>
    List.idxOf_append_of_mem ((defined other).mp member)
  have before : names.Pairwise fun a b => (everDefined history ++ [name]).idxOf a <
      (everDefined history ++ [name]).idxOf b :=
    ordered.imp_of_mem fun {a b} first second less => by rwa [kept a first, kept b second]
  by_cases known : name ∈ names
  · rw [if_pos known]
    refine ⟨fun other => ?_, by rwa [extended]⟩
    rw [extended, List.mem_append, List.mem_singleton, ← defined]
    exact ⟨.inl, fun given => given.elim id fun same => same ▸ known⟩
  · rw [if_neg known]
    refine ⟨fun other => ?_, ?_⟩
    · rw [extended, List.mem_append, List.mem_append, defined]
    · rw [extended, List.pairwise_append]
      refine ⟨before, List.pairwise_singleton _ _, fun other member last new => ?_⟩
      cases List.mem_singleton.mp new
      have fresh : name ∉ everDefined history := fun member => known ((defined name).mpr member)
      rw [kept other member, List.idxOf_append_of_notMem fresh]
      have within := List.idxOf_lt_length_of_mem ((defined other).mp member)
      omega

theorem inOrder_enterAll (bare : seed.definedNames = []) (history : List Entry) :
    InOrder history (seed.enterAll history).definedNames := by
  induction history using List.reverseRecOn with
  | nil =>
    have none : (seed.enterAll []).definedNames = [] := bare
    rw [none]
    exact ⟨by simp [everDefined], .nil⟩
  | append_singleton history entry ih =>
    rw [enterAll_concat]
    cases entry with
    | constant name value =>
      have same : everDefined (history ++ [.constant name value]) = everDefined history := by
        simp [everDefined, Entry.definedName?]
      exact ⟨same ▸ ih.defined, same ▸ ih.ordered⟩
    | definition name f =>
      rw [enter, definedNames_define]
      exact ih.define name f

end Steps

section Reading

theorem function?_eq_some {f : Function} :
    table.function? name = some f ↔ table.find? name = some (.function f) := by
  unfold function?
  split
  next g found => simp [found]
  next other =>
    constructor
    · intro none
      cases none
    · intro found
      exact absurd found (other f)

theorem sort_of_contains (table : SymbolTable) (name : String) : if table.contains name
    then (table.constant? name).isSome = !(table.function? name).isSome
    else table.constant? name = none ∧ table.function? name = none := by
  unfold contains constant? function?
  cases table.find? name with
  | none => simp
  | some symbol => cases symbol <;> simp

theorem exists_latest (member : name ∈ everDefined history) :
    ∃ symbol, latest? history name = some symbol := by
  obtain ⟨entry, present, own⟩ := List.mem_filterMap.mp member
  have named : entry.name = name := by
    cases entry with
    | constant => contradiction
    | definition => exact Option.some.inj own
  have found : (history.reverse.find? (·.name = name)).isSome := by
    rw [List.find?_isSome]
    exact ⟨entry, List.mem_reverse.mpr present, decide_eq_true named⟩
  obtain ⟨last, same⟩ := Option.isSome_iff_exists.mp found
  exact ⟨last.symbol, by rw [latest?, same, Option.map_some]⟩

theorem forall₂_definitions {R : String → Function → Prop} {names : List String}
    (each : ∀ name ∈ names, ∀ f, table.function? name = some f → R name f) :
    List.Forall₂ R (names.filter fun name => (table.function? name).isSome)
      (names.filterMap table.function?) := by
  induction names with
  | nil => exact .nil
  | cons name names ih =>
    obtain ⟨first, later⟩ := List.forall_mem_cons.mp each
    cases found : table.function? name with
    | none => simpa [found] using ih later
    | some f => simpa [found] using ⟨first f found, ih later⟩

theorem records_of_bare (bare : seed.definedNames = []) (history : List Entry) :
    Records seed history (seed.enterAll history) := by
  have found := find?_enterAll seed history
  have inOrder := inOrder_enterAll bare history
  generalize seed.enterAll history = table at found inOrder
  -- What a defined name is bound to is never left from the seed.
  have current {name : String} (member : name ∈ everDefined history) (f : Function) :
      table.function? name = some f ↔ latest? history name = some (.function f) := by
    obtain ⟨symbol, latest⟩ := exists_latest member
    rw [function?_eq_some, found, latest, Option.some_or]
  refine ⟨found, sort_of_contains table,
    table.definedNames.filter fun name => (table.function? name).isSome, ?_, ?_, ?_⟩
  · intro name
    rw [List.mem_filter, inOrder.defined, Option.isSome_iff_exists]
    exact and_congr_right fun member => exists_congr (current member)
  · exact inOrder.ordered.filter _
  · exact forall₂_definitions fun name member f bound =>
      (current ((inOrder.defined name).mp member) f).mp bound

end Reading

/-- The table holds what its history says. What a name is bound to was entered for it last, or else
comes from the seed; it is either a constant or a function; and the definitions are the current
functions of the names that were defined and have not been bound to a constant since, in the order
of their first definitions. -/
theorem enterAll_records (history : List Entry) : ∀ seed ∈ [empty, withBuiltins],
    Records seed history (seed.enterAll history) := by
  intro seed member
  apply records_of_bare
  simp only [List.mem_cons, List.not_mem_nil, or_false] at member
  rcases member with rfl | rfl
  · rfl
  · rfl

-- `g` is a constant for a while and comes back to its first place; `pi` stays a constant.
theorem enterAll_records_returning :
    withBuiltins ∈ [empty, withBuiltins] ∧
      Records withBuiltins
        [.definition "g" .sequence, .definition "sin" .sequence, .definition "pi" .sequence,
          .constant "g" 1, .constant "pi" 3, .definition "g" .sequence]
        (withBuiltins.enterAll
          [.definition "g" .sequence, .definition "sin" .sequence, .definition "pi" .sequence,
            .constant "g" 1, .constant "pi" 3, .definition "g" .sequence]) ∧
      (withBuiltins.enterAll
        [.definition "g" .sequence, .definition "sin" .sequence, .definition "pi" .sequence,
          .constant "g" 1, .constant "pi" 3, .definition "g" .sequence]).definedNames =
        ["g", "sin", "pi"] := by
  have member : withBuiltins ∈ [empty, withBuiltins] := by simp
  exact ⟨member, enterAll_records _ _ member, by decide⟩

example : ((empty.enterAll
    [.definition "g" (.user ⟨"g", [], []⟩), .definition "f" (.user ⟨"f", [], []⟩),
      .constant "g" 1, .definition "g" (.user ⟨"g", ["x"], []⟩)]).definitions.map fun f =>
        (f.name, f.parameters)) = [("g", ["x"]), ("f", [])] := by
  decide

end FormulaSheet.SymbolTable
