import FormulaSheet.Proofs.Evaluation
import FormulaSheet.Proofs.Places.Building

set_option autoImplicit false

namespace FormulaSheet

variable {source : String}

theorem reports_internal (fault : InternalFault) : Reports source (.internal fault) := nofun

namespace Yields

variable {α : Type} {P : α → Prop}

theorem mapError {ε : Type} {x : Except ε α} {f : ε → Error} (value : ∀ a, x = .ok a → P a)
    (reports : ∀ cause, Reports source (f cause)) : Yields source P (x.mapError f) where
  value := fun a found => value a (Outcome.mapError_eq_ok.mp found)
  error := by
    intro e failed
    obtain ⟨cause, -, rfl⟩ := Outcome.mapError_eq_error.mp failed
    exact reports cause

end Yields

namespace Item

variable {limits : Limits}

def Placed (source : String) (items : List Item) : Prop :=
  ∀ o, .operator o ∈ items → o.site.place.InLine source

theorem Placed.cons_value {items : List Item} (placed : Placed source items) (value : Float) :
    Placed source (.value value :: items) := by
  intro o member
  rcases List.mem_cons.mp member with same | member
  · contradiction
  · exact placed o member

theorem Placed.tail {item : Item} {items : List Item} (placed : Placed source (item :: items)) :
    Placed source items :=
  fun o member => placed o (List.mem_cons_of_mem _ member)

theorem Placed.cons {o : Operator} {items : List Item} (here : o.site.place.InLine source)
    (placed : Placed source items) : Placed source (.operator o :: items) := by
  intro other member
  rcases List.mem_cons.mp member with same | member
  · cases same
    exact here
  · exact placed other member

theorem sweep_placed {operation : Operation} {done items : List Item}
    (before : Placed source done) (after : Placed source items) :
    Yields source (Placed source) (sweep limits source operation done items) := by
  fun_induction sweep limits source operation done items with
  | case1 done => exact .ok fun o member => before o (List.mem_reverse.mp member)
  | case2 done v rest ih => exact ih (before.cons_value v) after.tail
  | case3 o left done right rest here ih =>
    have site := after o List.mem_cons_self
    refine .bind (P := fun _ => True) ?_ fun value _ => ?_
    · exact .mapError (fun _ _ => trivial) fun fault => reports_at site rfl
    · exact ih value (before.tail.cons_value value) after.tail.tail
  | case4 | case5 => exact .fail (reports_at (after _ List.mem_cons_self) rfl)
  | case6 done o rest other ih =>
    exact ih (before.cons (after o List.mem_cons_self)) after.tail

theorem reduce_placed {items : List Item} (placed : Placed source items) :
    Yields source (fun _ => True) (reduce limits source items) := by
  have sweeps (levels : List Operation) : Yields source (Placed source)
      (levels.foldlM (fun items operation => sweep limits source operation [] items) items) := by
    induction levels generalizing items with
    | nil => exact .ok placed
    | cons operation looser ih =>
      exact (sweep_placed (by simp [Placed]) placed).bind fun _ swept => ih swept
  refine (sweeps Operation.precedence).bind fun reduced _ => ?_
  split
  · exact .ok trivial
  · exact .fail (reports_internal _)
  · exact .fail (reports_internal _)

end Item

namespace Sheet

variable {sheet : Sheet} {run : Function → Callee → Scope → Except Error Answer}

structure Signposted (source : String) (awaiting : Awaiting) (formula : Formula) : Prop where
  operators : ∀ o, .operator o ∈ formula → o.site.place.InLine source
  sign : ∀ sign, awaiting = .value (some sign) → sign.site.place.InLine source

theorem Signposted.unsigned {awaiting : Awaiting} {part : Part} {rest : Formula}
    (h : Signposted source awaiting (part :: rest)) (awaiting' : Awaiting)
    (none : awaiting' = .value none ∨ awaiting' = .operator) : Signposted source awaiting' rest where
  operators := fun o member => h.operators o (List.mem_cons_of_mem _ member)
  sign := by rcases none with rfl | rfl <;> simp

theorem Signposted.signed {awaiting : Awaiting} {o : Operator} {rest : Formula}
    (h : Signposted source awaiting (.operator o :: rest)) :
    Signposted source (.value (some o)) rest where
  operators := fun other member => h.operators other (List.mem_cons_of_mem _ member)
  sign := by
    rintro _ ⟨⟩
    exact h.operators o List.mem_cons_self

theorem items_placed {scope : Scope} {awaiting : Awaiting} {formula : Formula}
    (placed : Signposted sheet.source awaiting formula) {listed : List Item}
    (h : items sheet run scope awaiting formula = .ok listed) :
    Item.Placed sheet.source listed := by
  replace h := listed_of_items h
  induction h with
  | missing | ended => simp [Item.Placed]
  | value _ _ _ ih => exact (ih (placed.unsigned _ (.inr rfl))).cons_value _
  | sign _ _ ih => exact ih placed.signed
  | operator _ ih =>
    have here := placed.operators _ List.mem_cons_self
    exact (ih (placed.unsigned _ (.inl rfl))).cons here

theorem items_reports {scope : Scope} {awaiting : Awaiting} {formula : Formula} {e : Error}
    (placed : Signposted sheet.source awaiting formula)
    (parts : ∀ part ∈ formula, part.isValue → partValue sheet run scope part ≠ .error e)
    (h : items sheet run scope awaiting formula = .error e) : Reports sheet.source e := by
  replace h := unlisted_of_items h
  induction h with
  | missing sign => exact reports_at (placed.sign sign rfl) rfl
  | unexpected | repeated => exact reports_at (placed.operators _ List.mem_cons_self) rfl
  | part value failed => exact absurd failed (parts _ List.mem_cons_self value)
  | value _ _ _ ih => exact ih (placed.unsigned _ (.inr rfl)) (List.forall_mem_cons.mp parts).2
  | sign _ _ ih => exact ih placed.signed (List.forall_mem_cons.mp parts).2
  | operator _ ih => exact ih (placed.unsigned _ (.inl rfl)) (List.forall_mem_cons.mp parts).2

theorem formulaValue_reports {formula : Formula} (placed : formula.Placed sheet.source)
    (runs : ∀ f callee scope, (∃ name, sheet.symbols.function? name = some f) →
      callee.site.place.InLine sheet.source → ∀ e, run f callee scope = .error e →
        Reports sheet.source e)
    {scope : Scope} {e : Error} (h : formulaValue sheet run scope formula = .error e) :
    Reports sheet.source e := by
  refine formulaValue_error_of ?level ?unbound ?call h
  case level =>
    intro within deep e failed parts
    have signposted : Signposted sheet.source (.value none) within :=
      ⟨fun o member => placed.has ⟨within, deep, member⟩, by simp⟩
    unfold formulaValue conclude at failed
    split at failed
    · cases failed
      exact reports_internal _
    · cases listed : items sheet run scope (.value none) within with
      | error =>
        rw [listed] at failed
        cases failed
        exact items_reports signposted parts listed
      | ok items =>
        rw [listed] at failed
        exact (Item.reduce_placed (items_placed signposted listed)).error e failed
  case unbound => exact fun site has _ => reports_at (placed.has has) rfl
  case call =>
    intro callee arguments has e fault
    have here : callee.site.place.InLine sheet.source := placed.has has
    cases fault with
    | unknown | points => exact reports_at here rfl
    | arity _ failed =>
      obtain ⟨fault, rfl⟩ := checkArity_error failed
      exact reports_at here rfl
    | run found _ _ failed => exact runs _ callee _ ⟨callee.name, found⟩ here e failed

section Running

variable {site : Site}

theorem askSequence_placed (here : site.place.InLine sheet.source) (kind : CallKind)
    (value : Float) :
    Yields sheet.source (fun _ => True) (sheet.askSequence site kind value) := by
  unfold askSequence
  split
  · exact .fail (reports_at here rfl)
  · exact .mapError (fun _ _ => trivial) fun fault => reports_at here rfl

theorem runBuiltin_placed (here : site.place.InLine sheet.source) (b : Builtin) (scope : Scope) :
    Yields sheet.source (fun _ => True) (sheet.runBuiltin b site scope) := by
  refine .bind (P := fun _ => True) (.mapError (fun _ _ => trivial) reports_internal)
    fun arguments _ => ?_
  simp only
  split
  · split
    · exact .ok trivial
    · exact .fail (reports_at here rfl)
  · exact .fail (reports_at here rfl)
  · exact .fail (reports_at here rfl)

end Running

structure Placed (sheet : Sheet) : Prop where
  bodies : ∀ name f definition, sheet.symbols.function? name = some f →
    f.definition? = some definition → definition.body.Placed sheet.source
  sequence : ∀ s, sheet.sequence? = some s → s.site.place.InLine sheet.source ∧
    ∀ term ∈ s.terms, term.Inline sheet.source

theorem Placed.runFunction (placed : sheet.Placed) {depth : Nat} {f : Function} {callee : Callee}
    {scope : Scope} (known : ∃ name, sheet.symbols.function? name = some f)
    (here : callee.site.place.InLine sheet.source) {e : Error}
    (h : sheet.runFunction depth f callee scope = .error e) : Reports sheet.source e := by
  induction depth generalizing f callee scope e with
  | zero =>
    cases h
    exact reports_internal _
  | succ depth ih =>
    obtain ⟨name, found⟩ := known
    cases f with
    | user definition =>
      exact formulaValue_reports (placed.bodies name _ definition found rfl)
        (fun _ _ _ known here _ => ih known here) (Outcome.map_eq_error.mp h)
    | plot definition =>
      obtain ⟨scope, -, failed⟩ := samples_error (Outcome.map_eq_error.mp h)
      exact formulaValue_reports (placed.bodies name _ definition found rfl)
        (fun _ _ _ known here _ => ih known here) failed
    | sequence =>
      have asked : Yields sheet.source (fun _ => True)
          (sheet.runFunction (depth + 1) .sequence callee scope) :=
        .bind (P := fun _ => True) (.mapError (fun _ _ => trivial) reports_internal) fun value _ =>
          (askSequence_placed here callee.kind value).bind fun _ _ => .ok trivial
      exact asked.error e h
    | builtin b => exact (runBuiltin_placed here b scope).error e (Outcome.map_eq_error.mp h)

theorem Placed.evaluate (placed : sheet.Placed) {formula : Formula}
    (given : formula.Placed sheet.source) {scope : Scope} {e : Error}
    (h : sheet.evaluate scope formula = .error e) : Reports sheet.source e := by
  have runs : ∀ f callee scope, (∃ name, sheet.symbols.function? name = some f) →
      callee.site.place.InLine sheet.source → ∀ e, sheet.run f callee scope = .error e →
        Reports sheet.source e := by
    intro f callee scope known here e failed
    unfold run at failed
    exact placed.runFunction known here failed
  exact formulaValue_reports given runs h

end Sheet

end FormulaSheet
