import FormulaSheet.Proofs.Grammar.Building
import FormulaSheet.Proofs.Nesting
import FormulaSheet.Proofs.Places.Tracking

set_option autoImplicit false

namespace FormulaSheet

variable {source : String}

structure Yields {α : Type} (source : String) (P : α → Prop) (x : Except Error α) : Prop where
  value : ∀ a, x = .ok a → P a
  error : ∀ e, x = .error e → Reports source e

namespace Yields

variable {α β : Type} {P : α → Prop} {Q : β → Prop}

theorem ok {a : α} (h : P a) : Yields source P (.ok a) where
  value := by
    rintro _ ⟨⟩
    exact h
  error := nofun

theorem fail {e : Error} (h : Reports source e) : Yields source P (.error e : Except Error α) where
  value := nofun
  error := by
    rintro _ ⟨⟩
    exact h

theorem bind {x : Except Error α} {f : α → Except Error β} (first : Yields source P x)
    (later : ∀ a, P a → Yields source Q (f a)) : Yields source Q (x >>= f) where
  value := by
    intro b done
    obtain ⟨a, found, done⟩ := Outcome.bind_eq_ok.mp done
    exact (later a (first.value a found)).value b done
  error := by
    intro e failed
    rcases Outcome.bind_eq_error.mp failed with failed | ⟨a, found, failed⟩
    · exact first.error e failed
    · exact (later a (first.value a found)).error e failed

theorem map {x : Except Error α} {f : α → β} (h : Yields source P x)
    (given : ∀ a, P a → Q (f a)) : Yields source Q (x.map f) where
  value := by
    intro b done
    obtain ⟨a, found, rfl⟩ := Outcome.map_eq_ok.mp done
    exact given a (h.value a found)
  error := fun e failed => h.error e (Outcome.map_eq_error.mp failed)

theorem mapM {f : α → Except Error β} {xs : List α} (each : ∀ x ∈ xs, Yields source Q (f x)) :
    Yields source (fun ys => ∀ y ∈ ys, Q y) (xs.mapM f) := by
  induction xs with
  | nil => exact ok (by simp)
  | cons x xs ih =>
    obtain ⟨first, later⟩ := List.forall_mem_cons.mp each
    rw [List.mapM_cons]
    exact first.bind fun y here => (ih later).bind fun ys there =>
      ok (List.forall_mem_cons.mpr ⟨here, there⟩)

theorem forM {f : α → Except Error PUnit} {xs : List α}
    (each : ∀ x ∈ xs, Yields source (fun _ => True) (f x)) :
    Yields source (fun _ => True) (xs.forM f) := by
  induction xs with
  | nil => exact ok trivial
  | cons x xs ih =>
    obtain ⟨first, later⟩ := List.forall_mem_cons.mp each
    exact first.bind fun _ _ => ih later

end Yields

theorem reports_at {site : Site} (placed : site.place.InLine source) {e : Error}
    (there : e.position? = some (site.locate source)) : Reports source e := by
  intro position found
  cases there.symm.trans found
  exact ⟨site, placed, rfl⟩

def Part.Placed (source : String) (part : Part) : Prop :=
  ∀ sub, Formula.Has [part] sub → sub.place.InLine source

def Formula.Placed (source : String) (formula : Formula) : Prop :=
  ∀ part ∈ formula, part.Placed source

section Parts

theorem Part.Placed.here {part : Part} (placed : part.Placed source) : part.place.InLine source :=
  placed part (.here List.mem_cons_self)

theorem Formula.Placed.has {formula : Formula} (placed : formula.Placed source) {part : Part}
    (has : formula.Has part) : part.place.InLine source := by
  obtain ⟨within, member, deep⟩ := Formula.has_iff_part.mp has
  exact placed within member part deep

theorem Formula.Placed.of_has {formula : Formula}
    (each : ∀ part, formula.Has part → part.place.InLine source) : formula.Placed source :=
  fun part member sub deep => each sub (Formula.has_iff_part.mpr ⟨part, member, deep⟩)

theorem Part.Placed.inside {opening : Site} {inside : Formula}
    (placed : (Part.bracket opening inside).Placed source) : inside.Placed source :=
  .of_has fun sub has => placed sub (.bracket List.mem_cons_self has)

theorem Part.Placed.arguments {callee : Callee} {arguments : List Formula}
    (placed : (Part.call callee arguments).Placed source) :
    ∀ argument ∈ arguments, argument.Placed source :=
  fun _ given => .of_has fun sub has => placed sub (.argument List.mem_cons_self given has)

theorem placed_plain {part : Part} (here : part.place.InLine source)
    (plain : ∀ sub, Formula.Has [part] sub → sub = part) : part.Placed source := by
  intro sub has
  rw [plain sub has]
  exact here

theorem placed_literal {site : Site} (value : Float) (here : site.place.InLine source) :
    (Part.literal site value).Placed source :=
  placed_plain here fun sub has => by simpa using Formula.has_iff.mp has

theorem placed_name {site : Site} (here : site.place.InLine source) :
    (Part.name site).Placed source :=
  placed_plain here fun sub has => by simpa using Formula.has_iff.mp has

theorem placed_operator {o : Operator} (here : o.site.place.InLine source) :
    (Part.operator o).Placed source :=
  placed_plain here fun sub has => by simpa using Formula.has_iff.mp has

theorem placed_bracket {opening : Site} {inside : Formula} (here : opening.place.InLine source)
    (placed : inside.Placed source) : (Part.bracket opening inside).Placed source := by
  intro sub has
  rcases Formula.has_iff.mp has with member | ⟨_, _, member, deep⟩ | ⟨_, _, member, -⟩
  · cases List.mem_singleton.mp member
    exact here
  · cases List.mem_singleton.mp member
    exact placed.has deep
  · cases List.mem_singleton.mp member

theorem placed_call {callee : Callee} {arguments : List Formula}
    (here : callee.site.place.InLine source) (placed : ∀ argument ∈ arguments, argument.Placed source) :
    (Part.call callee arguments).Placed source := by
  intro sub has
  rcases Formula.has_iff.mp has with member | ⟨_, _, member, -⟩ | ⟨_, _, member, argument, given, deep⟩
  · cases List.mem_singleton.mp member
    exact here
  · cases List.mem_singleton.mp member
  · cases List.mem_singleton.mp member
    exact (placed argument given).has deep

end Parts

namespace Formula

section Steps

variable {done after : Formula}

theorem Placed.reverse (placed : done.Placed source) : Placed source done.reverse :=
  fun part member => placed part (List.mem_reverse.mp member)

theorem Placed.addValue (placed : done.Placed source) {value : Part}
    (given : value.Placed source) : Placed source (addValue done value) := by
  unfold Formula.addValue
  split
  · exact List.forall_mem_singleton.mpr given
  · split
    · exact List.forall_mem_cons.mpr ⟨given, List.forall_mem_cons.mpr
        ⟨placed_operator given.here, placed⟩⟩
    · exact List.forall_mem_cons.mpr ⟨given, placed⟩

theorem Placed.addOperator (placed : done.Placed source) {o : Operator}
    (here : o.site.place.InLine source) (added : addOperator done o = .ok after) :
    after.Placed source := by
  have begun : Placed source (.operator o :: done) :=
    List.forall_mem_cons.mpr ⟨placed_operator here, placed⟩
  unfold Formula.addOperator at added
  split at added
  next last earlier =>
    obtain ⟨first, later⟩ := List.forall_mem_cons.mp placed
    split at added
    · cases added
      have plus : (⟨.add, ⟨Operation.add.text, last.site.place⟩⟩ : Operator).site.place.InLine source :=
        first.here
      exact List.forall_mem_cons.mpr ⟨placed_operator plus, later⟩
    · split at added
      · contradiction
      · split at added
        · contradiction
        · cases added
          exact begun
  · split at added
    · cases added
      exact begun
    · contradiction
  · cases added
    exact begun

theorem Placed.foldSign {formula : Formula} (placed : formula.Placed source) :
    Placed source formula.foldSign := by
  unfold Formula.foldSign
  split
  next o site value rest =>
    split
    · obtain ⟨sign, later⟩ := List.forall_mem_cons.mp placed
      have folded : (⟨Operation.subtract.text ++ site.text, o.site.place⟩ : Site).place.InLine
          source := sign.here
      exact List.forall_mem_cons.mpr ⟨placed_literal _ folded, (List.forall_mem_cons.mp later).2⟩
    · exact placed
  · exact placed

theorem Placed.finish {formula : Formula} (placed : formula.Placed source) :
    Yields source (Placed source) (formula.finish source) := by
  simp only [Formula.finish]
  split
  next o last => exact .fail (reports_at (placed.foldSign _ (List.mem_of_getLast? last)).here rfl)
  · exact .ok placed.foldSign

end Steps

theorem building_placed (source : String) :
    (∀ done tokens, Placed source done → (∀ token ∈ tokens, token.Placed source) →
        Yields source (Placed source) (chain source done tokens)) ∧
      (∀ grammar capture, capture.Inline source →
        Yields source (fun formulas => ∀ formula ∈ formulas, formula.Placed source)
          (captured source grammar capture)) := by
  -- The cases are those of `chain`, `captured`, `lines` and `rawLines`, which call each other.
  have cases := chain.mutual_induct source
    (fun done tokens => Placed source done → (∀ token ∈ tokens, token.Placed source) →
      Yields source (Placed source) (chain source done tokens))
    (fun grammar capture => capture.Inline source →
      Yields source (fun formulas => ∀ formula ∈ formulas, formula.Placed source)
        (captured source grammar capture))
    (fun tokens => (∀ token ∈ tokens, token.Placed source) →
      Yields source (fun formulas => ∀ formula ∈ formulas, formula.Placed source)
        (lines source tokens))
    (fun tokens => (∀ token ∈ tokens, token.Placed source) →
      Yields source (fun formulas => ∀ formula ∈ formulas, formula.Placed source)
        (rawLines source tokens))
    ?nil ?separator ?definition ?number ?name ?operator ?refused ?unclosed ?group ?closing ?equals
    ?call ?query ?unread ?read ?lines ?rawLines
  · exact ⟨cases.1, cases.2.1⟩
  case nil =>
    intro done placed _
    rw [chain]
    exact .ok placed.reverse
  case separator =>
    intro done token rest shape placed _
    rw [chain_ended (.inl shape)]
    exact .ok placed.reverse
  case definition =>
    intro done token rest outline shape placed _
    rw [chain_ended (.inr ⟨outline, shape⟩)]
    exact .ok placed.reverse
  case number =>
    intro done token rest value shape ih placed given
    obtain ⟨here, later⟩ := List.forall_mem_cons.mp given
    rw [chain_number shape]
    exact ih (placed.addValue (placed_literal value (here.site (by simp [shape])))) later
  case name =>
    intro done token rest shape ih placed given
    obtain ⟨here, later⟩ := List.forall_mem_cons.mp given
    rw [chain_name shape]
    exact ih (placed.addValue (placed_name (here.site (by simp [shape])))) later
  case operator =>
    intro done token rest operation shape after added ih placed given
    obtain ⟨here, later⟩ := List.forall_mem_cons.mp given
    rw [chain_operator shape added]
    exact ih (placed.addOperator (here.site (by simp [shape])) added) later
  case refused =>
    intro done token rest operation shape fault failed placed given
    have here := (List.forall_mem_cons.mp given).1.site (by simp [shape])
    rw [chain_operator_error shape failed]
    exact .fail (reports_at here rfl)
  case unclosed =>
    intro done token rest shape unclosed placed given
    have here := (List.forall_mem_cons.mp given).1.site (by simp [shape])
    rw [chain_unclosed shape unclosed]
    exact .fail (reports_at here rfl)
  case group =>
    intro done token rest shape inside after found inner outer placed given
    obtain ⟨first, later⟩ := List.forall_mem_cons.mp given
    have here := first.site (by simp [shape])
    obtain ⟨closing, rfl, -, -⟩ := closeGroup_eq_some found
    obtain ⟨within, behind⟩ := List.forall_mem_append.mp later
    rw [chain_inside shape found]
    refine (inner within).bind fun groups built => ?_
    split
    next group =>
      have bracket := placed_bracket here (built group List.mem_cons_self)
      exact outer group (placed.addValue bracket) (List.forall_mem_cons.mp behind).2
    · exact .fail (reports_at here rfl)
    · exact .fail (reports_at here rfl)
  case closing =>
    intro done token rest shape placed given
    have here := (List.forall_mem_cons.mp given).1.site (by simp [shape])
    rw [chain_closing shape]
    exact .fail (reports_at here rfl)
  case equals =>
    intro done token rest shape placed given
    have here := (List.forall_mem_cons.mp given).1.site (by simp [shape])
    rw [chain_equals shape]
    exact .fail (reports_at here rfl)
  case call =>
    intro done token rest callee arguments shape inner outer placed given
    obtain ⟨first, later⟩ := List.forall_mem_cons.mp given
    have here := first.site (by simp [shape])
    rw [chain_call shape]
    refine (inner (first.captures arguments (by simp [shape, Shape.captures]))).bind
      fun values built => ?_
    have called : Part.Placed source (.call ⟨token.site, callee.text, .plain⟩ values) :=
      placed_call here built
    exact outer values (placed.addValue called) later
  case query =>
    intro done token rest asked arguments shape inner outer placed given
    obtain ⟨first, later⟩ := List.forall_mem_cons.mp given
    have here := first.site (by simp [shape])
    rw [chain_query shape]
    refine (inner (first.captures arguments (by simp [shape, Shape.captures]))).bind
      fun values built => ?_
    have called : Part.Placed source (.call ⟨token.site, "s", .query asked⟩ values) :=
      placed_call here built
    exact outer values (placed.addValue called) later
  case unread =>
    intro grammar capture reading error failed inline
    rw [captured, failed]
    exact .fail ((Token.read_placed grammar inline).2 error failed)
  case read =>
    intro grammar capture reading read ih inline
    rw [captured, read]
    exact ih (Token.read_placed grammar inline).1
  case lines =>
    intro tokens ih given
    rw [lines]
    refine (ih given).bind fun raw built => .mapM fun formula member => ?_
    exact Placed.finish (built formula (List.mem_filter.mp member).1)
  case rawLines =>
    intro tokens first later given
    rw [rawLines]
    refine (first (List.forall_mem_nil _) given).bind fun formula built => ?_
    have ends := lineEnd_mem 0 tokens
    split
    · exact .ok (List.forall_mem_singleton.mpr built)
    next rest stop =>
      rw [stop] at ends
      exact (later rest stop fun token member => given token (ends member)).bind fun others there =>
        .ok (List.forall_mem_cons.mpr ⟨built, there⟩)
    next site outline rest stop =>
      rw [stop] at ends
      obtain ⟨-, token, member, rfl, shape⟩ := ends
      exact .fail (reports_at ((given token member).site (by simp [shape])) rfl)

end Formula

end FormulaSheet
