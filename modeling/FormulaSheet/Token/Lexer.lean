import FormulaSheet.Token.Rules

set_option autoImplicit false

namespace FormulaSheet.Token

def Rule.match? (rule : Rule) (offset : Nat) (cs : List Char) :
    Option (Match (Except GrammarFault Shape)) := do
  let found ← rule.pattern.scan rule.shape offset cs
  return { found with value := found.value found.consumed }

theorem Rule.match?_append {rule : Rule} {offset : Nat} {cs : List Char}
    {found : Match (Except GrammarFault Shape)} (h : rule.match? offset cs = some found) :
    found.consumed ++ found.rest = cs := by
  simp only [match?, Option.bind_eq_bind, Option.pure_def, Option.bind_eq_some_iff,
    Option.some.injEq] at h
  obtain ⟨inner, hinner, rfl⟩ := h
  have := Pattern.scan_append hinner
  exact this

theorem Rule.captured_lt {rule : Rule} {offset : Nat} {cs : List Char} {shape : Shape}
    {consumed rest : List Char}
    (h : rule.match? offset cs = some ⟨.ok shape, consumed, rest⟩) :
    shape.captured < Text.byteLength consumed := by
  simp only [match?, Option.bind_eq_bind, Option.pure_def, Option.bind_eq_some_iff,
    Option.some.injEq] at h
  obtain ⟨inner, hinner, hvalue⟩ := h
  obtain ⟨size, fits, hsize⟩ := Pattern.exists_fits_of_bounded rule.bounded hinner
  have progress := rule.progress
  simp only [Match.mk.injEq] at hvalue
  have := fits inner.consumed shape hvalue.1
  rw [← hvalue.2.1]
  omega

def Grammar.match? (grammar : Grammar) (offset : Nat) (cs : List Char) :
    Option (Match (Except GrammarFault Shape)) :=
  grammar.rules.findSome? fun rule => rule.match? offset cs

theorem Grammar.exists_rule {grammar : Grammar} {offset : Nat} {cs : List Char}
    {found : Match (Except GrammarFault Shape)} (h : grammar.match? offset cs = some found) :
    ∃ rule ∈ grammar.rules, rule.match? offset cs = some found :=
  List.exists_of_findSome?_eq_some h

inductive Next where
  | done
  | fault (error : Error)
  | token (token : Token) (place : Place) (rest : List Char)

def next (grammar : Grammar) (source : String) (place : Place) (cs : List Char) : Next :=
  let start := place.advanceAll (cs.takeWhile Text.isBlank)
  match cs.dropWhile Text.isBlank with
  | [] => .done
  | c :: rest =>
    match grammar.match? start.index (c :: rest) with
    | none =>
      let site : Site := ⟨String.singleton c, start⟩
      .fault (.grammar (.unreadable c) (site.locate source))
    | some ⟨.error fault, consumed, _⟩ =>
      let site : Site := ⟨String.ofList consumed, start⟩
      .fault (.grammar fault (site.locate source))
    | some ⟨.ok shape, consumed, later⟩ =>
      .token ⟨⟨String.ofList consumed, start⟩, shape⟩ (start.advanceAll consumed) later

theorem weight_add_le_of_next {grammar : Grammar} {source : String} {place after : Place}
    {cs rest : List Char} {token : Token}
    (h : next grammar source place cs = .token token after rest) :
    token.weight + Text.byteLength rest ≤ Text.byteLength cs := by
  have blanks :=
    congrArg Text.byteLength (List.takeWhile_append_dropWhile (p := Text.isBlank) (l := cs))
  simp only [next] at h
  split at h
  · contradiction
  next c tail hdrop =>
    split at h
    · contradiction
    · contradiction
    next shape consumed later hfound =>
      obtain ⟨rule, -, hrule⟩ := Grammar.exists_rule hfound
      have split := congrArg Text.byteLength (Rule.match?_append hrule)
      have captured := Rule.captured_lt hrule
      simp only [Next.token.injEq] at h
      rw [hdrop] at blanks
      simp only [Text.byteLength_append] at split blanks
      simp only [← h.1, ← h.2.2, weight]
      omega

structure Reading where
  tokens : List Token
  failure : Option Error

def Reading.cons (token : Token) (reading : Reading) : Reading :=
  { reading with tokens := token :: reading.tokens }

def Reading.toExcept (reading : Reading) : Except Error (List Token) :=
  match reading.failure with
  | some error => .error error
  | none => .ok reading.tokens

def readFrom (grammar : Grammar) (source : String) (place : Place) (cs : List Char) : Reading :=
  match _step : next grammar source place cs with
  | .done => ⟨[], none⟩
  | .fault error => ⟨[], some error⟩
  | .token token after rest =>
    (readFrom grammar source after rest).cons token
termination_by Text.byteLength cs
decreasing_by
  have := weight_add_le_of_next _step
  have := token.weight_pos
  omega

theorem weights_readFrom_le (grammar : Grammar) (source : String) (place : Place)
    (cs : List Char) :
    weights (readFrom grammar source place cs).tokens ≤ Text.byteLength cs := by
  fun_induction readFrom grammar source place cs with
  | case1 | case2 => simp
  | case3 place cs token after rest step ih =>
    have total := weight_add_le_of_next step
    simp only [Reading.cons, weights_cons]
    omega

def read (grammar : Grammar) (source : String) (start stop : Nat) : Reading :=
  readFrom grammar source (Place.after (Text.takeBytes start source.toList))
    (Text.sliceBytes start stop source.toList)

theorem weights_read_le (grammar : Grammar) (source : String) (start stop : Nat) :
    weights (read grammar source start stop).tokens ≤ stop - start :=
  Nat.le_trans (weights_readFrom_le ..) (Text.byteLength_sliceBytes_le ..)

def readAll (grammar : Grammar) (source : String) : Reading :=
  read grammar source 0 (Text.byteLength source.toList)

end FormulaSheet.Token
