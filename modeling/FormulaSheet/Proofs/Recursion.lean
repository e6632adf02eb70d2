import FormulaSheet.Proofs.Nesting
import FormulaSheet.Proofs.Reachable

set_option autoImplicit false

namespace FormulaSheet

def Definition.HasCall (definition : Definition) (callee : Callee) : Prop :=
  ∃ arguments, definition.body.Has (.call callee arguments)

theorem Definition.mem_calls {definition : Definition} {callee : Callee} :
    callee ∈ definition.calls ↔ definition.HasCall callee :=
  Formula.mem_calls_iff_has

-- Only the definitions that `bodies` gives are followed.
inductive Reaches (bodies : String → Option Definition) : Definition → Callee → Prop
  | direct {definition : Definition} {target : Callee} :
      definition.HasCall target → Reaches bodies definition target
  | through {definition next : Definition} {callee target : Callee} :
      definition.HasCall callee → bodies callee.name = some next → Reaches bodies next target →
        Reaches bodies definition target

theorem Reaches.mono {bodies others : String → Option Definition} {definition : Definition}
    {target : Callee} (h : Reaches others definition target)
    (fewer : ∀ name next, others name = some next → bodies name = some next) :
    Reaches bodies definition target := by
  induction h with
  | direct has => exact .direct has
  | through has found _ ih => exact .through has (fewer _ _ found) ih

theorem Reaches.trans {bodies : String → Option Definition} {definition next : Definition}
    {callee target : Callee} (h : Reaches bodies definition callee)
    (found : bodies callee.name = some next) (later : Reaches bodies next target) :
    Reaches bodies definition target := by
  induction h with
  | direct has => exact .through has found later
  | through has first _ ih => exact .through has first (ih found)

section Search

def bodyIn (definitions : List Definition) (name : String) : Option Definition :=
  definitions.find? (·.name = name)

theorem bodyIn_others (definitions : List Definition) (callee : Callee) (name : String) :
    bodyIn (callee.others definitions) name =
      if name = callee.name then none else bodyIn definitions name := by
  unfold bodyIn Callee.others Callee.isTo
  rw [List.find?_filter]
  by_cases same : name = callee.name
  · rw [if_pos same, List.find?_eq_none]
    intro definition _
    simp [same]
  · rw [if_neg same]
    congr 1
    funext definition
    by_cases named : definition.name = name
    · simp [named, same]
    · simp [named]

theorem bodyIn_of_others {definitions : List Definition} {callee : Callee} {name : String}
    {next : Definition} (h : bodyIn (callee.others definitions) name = some next) :
    bodyIn definitions name = some next := by
  rw [bodyIn_others] at h
  split at h
  · contradiction
  · exact h

theorem Reaches.avoid {definitions : List Definition} {callee : Callee}
    {definition removed : Definition} {target : Callee}
    (found : bodyIn definitions callee.name = some removed)
    (h : Reaches (bodyIn definitions) definition target) :
    Reaches (bodyIn (callee.others definitions)) definition target ∨
      Reaches (bodyIn (callee.others definitions)) removed target := by
  induction h with
  | direct has => exact .inl (.direct has)
  | @through definition next step target has first _ ih =>
    by_cases same : step.name = callee.name
    · rw [same, found] at first
      cases first
      exact .inr (ih.elim id id)
    · rcases ih with later | later
      · refine .inl (.through has ?_ later)
        rw [bodyIn_others, if_neg same]
        exact first
      · exact .inr later

def Leads (bodies : String → Option Definition) (pending : List Callee) (target : Callee) : Prop :=
  target ∈ pending ∨
    ∃ callee ∈ pending, ∃ next, bodies callee.name = some next ∧ Reaches bodies next target

theorem leads_calls {bodies : String → Option Definition} {definition : Definition}
    {target : Callee} :
    Leads bodies definition.calls.reverse target ↔ Reaches bodies definition target := by
  have mem_calls {callee : Callee} :
      callee ∈ definition.calls.reverse ↔ definition.HasCall callee :=
    List.mem_reverse.trans Definition.mem_calls
  constructor
  · rintro (member | ⟨callee, member, next, found, later⟩)
    · exact .direct (mem_calls.mp member)
    · exact .through (mem_calls.mp member) found later
  · intro h
    cases h with
    | direct has => exact .inl (mem_calls.mpr has)
    | through has found later => exact .inr ⟨_, mem_calls.mpr has, _, found, later⟩

theorem leads_cons {definitions : List Definition} {callee target : Callee} {rest : List Callee}
    {definition : Definition} (found : bodyIn definitions callee.name = some definition) :
    Leads (bodyIn definitions) (callee :: rest) target ↔ target = callee ∨
      Leads (bodyIn (callee.others definitions)) (definition.calls.reverse ++ rest) target := by
  have fewer : ∀ name next, bodyIn (callee.others definitions) name = some next →
      bodyIn definitions name = some next := fun _ _ => bodyIn_of_others
  have followed : Reaches (bodyIn (callee.others definitions)) definition target →
      Leads (bodyIn (callee.others definitions)) (definition.calls.reverse ++ rest) target := by
    intro h
    rcases leads_calls.mpr h with member | ⟨step, member, next, first, later⟩
    · exact .inl (List.mem_append_left _ member)
    · exact .inr ⟨step, List.mem_append_left _ member, next, first, later⟩
  constructor
  · rintro (member | ⟨step, member, next, first, later⟩)
    · rcases List.mem_cons.mp member with same | member
      · exact .inl same
      · exact .inr (.inl (List.mem_append_right _ member))
    -- A way that comes past the followed definition is found from the calls it has put in.
    · rcases later.avoid found with later | later
      · by_cases same : step.name = callee.name
        · rw [same, found] at first
          cases first
          exact .inr (followed later)
        · have kept : bodyIn (callee.others definitions) step.name = some next := by
            rw [bodyIn_others, if_neg same, first]
          have waiting : step ∈ rest := by
            rcases List.mem_cons.mp member with rfl | member
            · contradiction
            · exact member
          exact .inr (.inr ⟨step, List.mem_append_right _ waiting, next, kept, later⟩)
      · exact .inr (followed later)
  · rintro (rfl | member | ⟨step, member, next, first, later⟩)
    · exact .inl List.mem_cons_self
    · rcases List.mem_append.mp member with member | member
      · have has := Definition.mem_calls.mp (List.mem_reverse.mp member)
        exact .inr ⟨callee, List.mem_cons_self, definition, found, .direct has⟩
      · exact .inl (List.mem_cons_of_mem _ member)
    · have first := bodyIn_of_others first
      have later := later.mono fewer
      rcases List.mem_append.mp member with member | member
      · have has := Definition.mem_calls.mp (List.mem_reverse.mp member)
        exact .inr ⟨callee, List.mem_cons_self, definition, found, .through has first later⟩
      · exact .inr ⟨step, List.mem_cons_of_mem _ member, next, first, later⟩

theorem callTo_sound {root : String} {unexplored : List Definition} {pending : List Callee}
    {target : Callee} (h : callTo root unexplored pending = some target) :
    target.name = root ∧ Leads (bodyIn unexplored) pending target := by
  fun_induction callTo root unexplored pending with
  | case1 => contradiction
  | case2 unexplored callee rest same =>
    cases h
    exact ⟨same, .inl List.mem_cons_self⟩
  | case3 unexplored callee rest other missing ih =>
    obtain ⟨named, leads⟩ := ih h
    refine ⟨named, ?_⟩
    rcases leads with member | ⟨step, member, reached⟩
    · exact .inl (List.mem_cons_of_mem _ member)
    · exact .inr ⟨step, List.mem_cons_of_mem _ member, reached⟩
  | case4 unexplored callee rest other definition found ih =>
    obtain ⟨named, leads⟩ := ih h
    exact ⟨named, (leads_cons found).mpr (.inr leads)⟩

theorem callTo_complete {root : String} {unexplored : List Definition} {pending : List Callee}
    (h : callTo root unexplored pending = none) {target : Callee}
    (leads : Leads (bodyIn unexplored) pending target) : target.name ≠ root := by
  fun_induction callTo root unexplored pending with
  | case1 =>
    rcases leads with member | ⟨step, member, reached⟩
    · contradiction
    · contradiction
  | case2 => contradiction
  | case3 unexplored callee rest other missing ih =>
    rcases leads with member | ⟨step, member, next, first, later⟩
    · rcases List.mem_cons.mp member with rfl | member
      · exact other
      · exact ih h (.inl member)
    · rcases List.mem_cons.mp member with rfl | member
      · have missing : bodyIn unexplored step.name = none := missing
        rw [missing] at first
        contradiction
      · exact ih h (.inr ⟨step, member, next, first, later⟩)
  | case4 unexplored callee rest other definition found ih =>
    rcases (leads_cons found).mp leads with rfl | leads
    · exact other
    · exact ih h leads

theorem selfCall?_eq_none {definition : Definition} {users : List Definition} :
    definition.selfCall? users = none ↔
      ∀ callee, Reaches (bodyIn users) definition callee → callee.name ≠ definition.name := by
  constructor
  · intro h callee reached
    exact callTo_complete h (leads_calls.mpr reached)
  · intro apart
    unfold Definition.selfCall?
    cases found : callTo definition.name users definition.calls.reverse with
    | none => rfl
    | some callee =>
      obtain ⟨named, leads⟩ := callTo_sound found
      exact absurd named (apart callee (leads_calls.mp leads))

end Search

namespace Sheet

variable {sheet : Sheet}

-- The bodies that the check follows, and those that run when a name is called.
def userBody? (sheet : Sheet) (name : String) : Option Definition :=
  (sheet.symbols.function? name).bind Function.user?

def body? (sheet : Sheet) (name : String) : Option Definition :=
  (sheet.symbols.function? name).bind Function.definition?

theorem userBody?_eq_some {name : String} {definition : Definition} :
    sheet.userBody? name = some definition ↔
      sheet.symbols.function? name = some (.user definition) := by
  unfold userBody?
  cases sheet.symbols.function? name with
  | none => simp
  | some f => cases f <;> simp [Function.user?]

theorem body?_iff {name : String} {definition : Definition} :
    sheet.body? name = some definition ↔
      ∃ f, sheet.symbols.function? name = some f ∧ f.definition? = some definition :=
  Option.bind_eq_some_iff

theorem body?_eq_some {name : String} {definition : Definition} :
    sheet.body? name = some definition ↔
      sheet.symbols.function? name = some (.user definition) ∨
        sheet.symbols.function? name = some (.plot definition) := by
  unfold body?
  cases sheet.symbols.function? name with
  | none => simp
  | some f => cases f <;> simp [Function.definition?]

theorem Coherent.named (coherent : sheet.Coherent) {name : String} {definition : Definition}
    (found : sheet.body? name = some definition) :
    definition.name = name ∧ name ∈ sheet.symbols.definedNames := by
  rcases body?_eq_some.mp found with found | found
  · exact coherent _ _ found
  · obtain ⟨named, -, known⟩ := coherent _ _ found
    exact ⟨named, known⟩

theorem Coherent.mem_definitions (coherent : sheet.Coherent) {definition : Definition} :
    (∃ f ∈ sheet.symbols.definitions, f.definition? = some definition) ↔
      sheet.body? definition.name = some definition := by
  constructor
  · rintro ⟨f, member, given⟩
    obtain ⟨name, -, found⟩ := SymbolTable.mem_definitions.mp member
    have body : sheet.body? name = some definition := body?_iff.mpr ⟨f, found, given⟩
    rw [(coherent.named body).1]
    exact body
  · intro body
    have known := (coherent.named body).2
    rcases body?_eq_some.mp body with found | found
    · exact ⟨_, SymbolTable.mem_definitions.mpr ⟨_, known, found⟩, rfl⟩
    · exact ⟨_, SymbolTable.mem_definitions.mpr ⟨_, known, found⟩, rfl⟩

theorem Coherent.bodyIn_users (coherent : sheet.Coherent) :
    bodyIn (sheet.symbols.definitions.filterMap Function.user?) = sheet.userBody? := by
  have sound {name : String} {definition : Definition}
      (found : bodyIn (sheet.symbols.definitions.filterMap Function.user?) name =
        some definition) : sheet.userBody? name = some definition := by
    have named : definition.name = name := by simpa using List.find?_some found
    obtain ⟨f, member, given⟩ := List.mem_filterMap.mp (List.mem_of_find?_eq_some found)
    obtain ⟨other, -, bound⟩ := SymbolTable.mem_definitions.mp member
    have body : sheet.userBody? other = some definition := by
      unfold userBody?
      rw [bound]
      exact given
    have same := (coherent _ _ (userBody?_eq_some.mp body)).1
    rw [← named, same]
    exact body
  funext name
  cases found : bodyIn (sheet.symbols.definitions.filterMap Function.user?) name with
  | some definition => rw [sound found]
  | none =>
    cases body : sheet.userBody? name with
    | none => rfl
    | some definition =>
      have bound := userBody?_eq_some.mp body
      obtain ⟨named, known⟩ := coherent _ _ bound
      have member : definition ∈ sheet.symbols.definitions.filterMap Function.user? :=
        List.mem_filterMap.mpr ⟨_, SymbolTable.mem_definitions.mpr ⟨_, known, bound⟩, rfl⟩
      have missing := List.find?_eq_none.mp found definition member
      exact absurd (decide_eq_true named) missing

theorem Coherent.checkSelfCalls_eq_ok (coherent : sheet.Coherent) :
    sheet.checkSelfCalls = .ok () ↔
      ∀ definition, sheet.body? definition.name = some definition →
        ∀ callee, Reaches sheet.userBody? definition callee → callee.name ≠ definition.name := by
  have passes (f : Function) : sheet.checkRecursion
      (sheet.symbols.definitions.filterMap Function.user?) f = .ok () ↔
        ∀ definition, f.definition? = some definition →
          ∀ callee, Reaches sheet.userBody? definition callee →
            callee.name ≠ definition.name := by
    unfold checkRecursion
    split
    next none => simp [none]
    next definition given =>
      rw [given, ← coherent.bodyIn_users]
      split
      next callee found => simp [← selfCall?_eq_none, found]
      next found => simp [← selfCall?_eq_none, found]
  unfold checkSelfCalls
  rw [Outcome.forM_eq_ok]
  constructor
  · intro checked definition body
    obtain ⟨f, member, given⟩ := coherent.mem_definitions.mpr body
    exact (passes f).mp (checked f member) definition given
  · intro apart f member
    rw [passes]
    intro definition given
    exact apart definition (coherent.mem_definitions.mp ⟨f, member, given⟩)

end Sheet

end FormulaSheet
