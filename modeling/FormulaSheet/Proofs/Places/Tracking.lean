import FormulaSheet.Proofs.Lexing.Lossless
import FormulaSheet.Proofs.Lexing.Writing

set_option autoImplicit false

namespace FormulaSheet

def LineFed (source : String) : Prop :=
  ∀ before after, source.toList = before ++ '\r' :: after → after.head? = some '\n'

structure Place.Tracks (source : String) (before : List Char) (place : Place) : Prop where
  index : place.index = Text.byteLength before
  line : place.line = before.count '\n' + 1
  column : LineFed source → before.getLast? ≠ some '\r' →
    place.column = (before.reverse.takeWhile (· ≠ '\n')).length + 1

def Place.InLine (source : String) (place : Place) : Prop :=
  ∃ before c after, source.toList = before ++ c :: after ∧ Text.isLineBreak c = false ∧
    place.Tracks source before

structure Capture.Inline (source : String) (capture : Capture) : Prop where
  stands : StandsAt source capture.offset capture.text.toList
  line : ∀ c ∈ capture.text.toList, Text.isLineBreak c = false

structure Token.Placed (source : String) (token : Token) : Prop where
  site : token.shape ≠ .separator → token.site.place.InLine source
  captures : ∀ capture ∈ token.shape.captures, capture.Inline source

def Reports (source : String) (e : Error) : Prop :=
  ∀ position, e.position? = some position →
    ∃ site : Site, site.place.InLine source ∧ position = site.locate source

variable {source : String} {place : Place} {before after : List Char}

section Places

theorem tracks_after (source : String) (before : List Char) :
    (Place.after before).Tracks source before :=
  ⟨rfl, rfl, fun _ _ => rfl⟩

theorem Place.Tracks.advance (tracks : place.Tracks source before) {c : Char}
    (same : source.toList = before ++ c :: after) :
    (place.advance c).Tracks source (before ++ [c]) where
  index := by simp [Place.advance, tracks.index]
  line := by
    by_cases feed : c = '\n'
    · simp [Place.advance, feed, tracks.line]
    · simp [Place.advance, feed, tracks.line]
  column := by
    intro fed last
    have other : c ≠ '\r' := by simpa using last
    by_cases feed : c = '\n'
    · simp [Place.advance, feed]
    · have inLine : before.getLast? ≠ some '\r' := by
        intro ends
        obtain ⟨earlier, rfl⟩ := List.getLast?_eq_some_iff.mp ends
        have next := fed earlier (c :: after) (by simp [same])
        simp [feed] at next
      have column := tracks.column fed inLine
      simp [Place.advance, feed, other, column]

theorem Place.Tracks.advanceAll (tracks : place.Tracks source before) {text : List Char}
    (same : source.toList = before ++ (text ++ after)) :
    (place.advanceAll text).Tracks source (before ++ text) := by
  induction text generalizing place before with
  | nil => simpa using tracks
  | cons c text ih =>
    have next := ih (tracks.advance same) (by simp [same])
    simpa using next

end Places

namespace Token

section Captures

theorem Element.not_mem_of_rejects {element : Element} {c : Char} (refused : element.rejects c)
    {cs text rest : List Char} (split : element.split cs = some (text, rest)) : c ∉ text := by
  intro member
  have takes := Element.takes_of_split split
  cases element with
  | one accepts =>
    obtain ⟨d, taken, rfl⟩ := takes
    cases List.mem_singleton.mp member
    simp [rejects, taken] at refused
  | oneOrMore accepts => simp [rejects, takes.2.1 c member] at refused
  | many accepts => simp [rejects, takes.1 c member] at refused
  | enclosed => simp [rejects, takes.1.line c member] at refused

def Pattern.keepsBefore (c : Char) (pattern : Pattern) : Bool :=
  pattern.all fun
    | .skip _ => true
    | .keep element => element.rejects c

theorem Pattern.not_mem_captures {pattern : Pattern}
    {build : Builder (List Char → Except GrammarFault Shape) pattern} {kept : List Capture}
    (collects : Collects pattern build kept) {c : Char} (refused : pattern.keepsBefore c)
    (before : ∀ capture ∈ kept, c ∉ capture.text.toList) {offset : Nat} {cs : List Char}
    {found : Match (List Char → Except GrammarFault Shape)}
    (h : pattern.scan build offset cs = some found) {text : List Char} {shape : Shape}
    (read : found.value text = .ok shape) :
    ∀ capture ∈ shape.captures, c ∉ capture.text.toList := by
  induction pattern generalizing kept offset cs found with
  | nil =>
    cases h
    rw [collects text shape read]
    exact before
  | cons step pattern ih =>
    rw [scan_cons] at h
    obtain ⟨⟨piece, rest⟩, taken, h⟩ := Option.bind_eq_some_iff.mp h
    obtain ⟨more, found, rfl⟩ := Option.map_eq_some_iff.mp h
    obtain ⟨here, later⟩ := Bool.and_eq_true_iff.mp refused
    cases step with
    | skip element => exact ih collects later before found read
    | keep element =>
      refine ih (collects _) later ?_ found read
      refine List.forall_mem_append.mpr ⟨before, List.forall_mem_singleton.mpr ?_⟩
      rw [String.toList_ofList]
      exact Element.not_mem_of_rejects here taken

theorem Grammar.captures_line {grammar : Grammar} {offset : Nat} {cs consumed rest : List Char}
    {shape : Shape} (h : grammar.match? offset cs = some ⟨.ok shape, consumed, rest⟩) :
    ∀ capture ∈ shape.captures, ∀ c ∈ capture.text.toList, Text.isLineBreak c = false := by
  obtain ⟨rule, member, found⟩ := Grammar.exists_rule h
  rw [Rule.match?_eq] at found
  obtain ⟨scanned, found, same⟩ := Option.map_eq_some_iff.mp found
  obtain ⟨value, -, -⟩ := Match.mk.inj same
  have kept : ∀ b ∈ ['\n', '\r'], ∀ rule ∈ grammar.rules, rule.pattern.keepsBefore b := by
    cases grammar <;>
      exact List.forall_mem_cons.mpr ⟨List.all_eq_true.mp (by decide),
        List.forall_mem_singleton.mpr (List.all_eq_true.mp (by decide))⟩
  intro capture present c inside
  refine Bool.eq_false_iff.mpr fun isBreak => ?_
  have listed : c ∈ ['\n', '\r'] := by
    simpa [Text.isLineBreak] using isBreak
  exact Pattern.not_mem_captures (Rule.collects member) (kept c listed rule member) (by simp) found
    value capture present inside

theorem Cuts.stands {start stop : Nat} {captures : List Capture}
    (h : Cuts source start captures stop) :
    ∀ capture ∈ captures, StandsAt source capture.offset capture.text.toList := by
  induction h with
  | nil => simp
  | cons _ stands _ ih => exact List.forall_mem_cons.mpr ⟨stands, ih⟩

end Captures

section Readings

variable {cs : List Char}

theorem Grammar.match?_lineBreak {c : Char} (isBreak : Text.isLineBreak c) (cs : List Char)
    (offset : Nat) : ∃ consumed rest,
      Grammar.statements.match? offset (c :: cs) = some ⟨.ok .separator, consumed, rest⟩ := by
  have stops : ∀ d ∈ (cs.dropWhile Text.isLineBreak).head?, Text.isLineBreak d = false :=
    fun _ => refused_of_head?_dropWhile
  have newline := Grammar.match?_newline (List.cons_ne_nil c (cs.takeWhile Text.isLineBreak))
    (List.forall_mem_cons.mpr ⟨isBreak, fun d => List.all_eq_true.mp List.all_takeWhile d⟩)
    stops offset
  rw [List.cons_append, List.takeWhile_append_dropWhile] at newline
  exact ⟨_, _, newline⟩

theorem next_placed (grammar : Grammar) (tracks : place.Tracks source before)
    (same : source.toList = before ++ (cs ++ after))
    (within : grammar = .statements ∨ ∀ c ∈ cs, Text.isLineBreak c = false) :
    match next grammar source place cs with
    | .done => True
    | .fault e => Reports source e
    | .token token place' rest => token.Placed source ∧
        ∃ taken, cs = taken ++ rest ∧ place'.Tracks source (before ++ taken) := by
  have split := List.takeWhile_append_dropWhile (p := Text.isBlank) (l := cs)
  unfold next
  generalize cs.takeWhile Text.isBlank = gap at split
  generalize cs.dropWhile Text.isBlank = text at split
  subst split
  have tracks : (place.advanceAll gap).Tracks source (before ++ gap) :=
    tracks.advanceAll (by rw [same, List.append_assoc])
  have stands : StandsAt source (place.advanceAll gap).index text :=
    ⟨before ++ gap, after, by simp [same], tracks.index.symm⟩
  generalize place.advanceAll gap = start at tracks stands
  cases text with
  | nil => trivial
  | cons c text =>
    have starts : (∀ consumed later, grammar.match? start.index (c :: text) ≠
        some ⟨.ok .separator, consumed, later⟩) → start.InLine source := by
      refine fun other => ⟨before ++ gap, c, text ++ after, by simp [same], ?_, tracks⟩
      refine Bool.eq_false_iff.mpr fun isBreak => ?_
      rcases within with rfl | none
      · obtain ⟨consumed, later, found⟩ := Grammar.match?_lineBreak isBreak text start.index
        exact other consumed later found
      · rw [none c (by simp)] at isBreak
        contradiction
    have fails {fault : GrammarFault} {piece : String} (inLine : start.InLine source) :
        Reports source (.grammar fault (Site.locate ⟨piece, start⟩ source)) := by
      rintro _ ⟨⟩
      exact ⟨⟨piece, start⟩, inLine, rfl⟩
    rcases found : grammar.match? start.index (c :: text) with - | ⟨fault | shape, consumed, later⟩
    · simp only [found]
      exact fails (starts (by simp [found]))
    · simp only [found]
      exact fails (starts (by simp [found]))
    · simp only [found]
      have read : consumed ++ later = c :: text := Grammar.match?_append found
      refine ⟨⟨fun other => starts ?_, fun capture present => ⟨?_, ?_⟩⟩, gap ++ consumed, ?_, ?_⟩
      · intro _ _ again
        rw [found] at again
        cases again
        exact other rfl
      · exact (Grammar.cuts stands found).stands capture present
      · exact Grammar.captures_line found capture present
      · rw [List.append_assoc, read]
      · have whole : source.toList = before ++ gap ++ (consumed ++ (later ++ after)) := by
          rw [same, ← read]
          simp
        rw [← List.append_assoc]
        exact tracks.advanceAll whole

theorem readFrom_placed (grammar : Grammar) (tracks : place.Tracks source before)
    (same : source.toList = before ++ (cs ++ after))
    (within : grammar = .statements ∨ ∀ c ∈ cs, Text.isLineBreak c = false) :
    (∀ token ∈ (readFrom grammar source place cs).tokens, token.Placed source) ∧
      ∀ e, (readFrom grammar source place cs).failure = some e → Reports source e := by
  fun_induction readFrom grammar source place cs generalizing before with
  | case1 =>
    refine ⟨by simp, ?_⟩
    rintro _ ⟨⟩
  | case2 place cs error step =>
    have failed := next_placed grammar tracks same within
    rw [step] at failed
    refine ⟨by simp, ?_⟩
    rintro _ ⟨⟩
    exact failed
  | case3 place cs token place' rest step ih =>
    have took := next_placed grammar tracks same within
    rw [step] at took
    obtain ⟨placed, taken, rfl, tracks⟩ := took
    obtain ⟨tokens, failure⟩ := ih tracks (by simp [same]) (within.imp_right fun none c member =>
      none c (List.mem_append_right _ member))
    exact ⟨List.forall_mem_cons.mpr ⟨placed, tokens⟩, failure⟩

theorem readAll_placed (source : String) :
    (∀ token ∈ (readAll .statements source).tokens, token.Placed source) ∧
      ∀ e, (readAll .statements source).failure = some e → Reports source e := by
  have same : source.toList = [] ++ (source.toList ++ []) := by simp
  have whole := read_range .statements same
  rw [Text.byteLength_nil, Nat.zero_add] at whole
  rw [readAll, whole]
  exact readFrom_placed _ (tracks_after source []) same (.inl rfl)

theorem read_placed (grammar : Grammar) {capture : Capture} (inline : capture.Inline source) :
    (∀ token ∈ (read grammar source capture.offset capture.stop).tokens, token.Placed source) ∧
      ∀ e, (read grammar source capture.offset capture.stop).failure = some e →
        Reports source e := by
  obtain ⟨before, after, same, offset⟩ := inline.stands
  rw [Capture.stop, Capture.byteLength, ← Text.byteLength_toList, ← offset, read_range grammar same]
  exact readFrom_placed _ (tracks_after source before) same (.inr inline.line)

end Readings

end Token

end FormulaSheet
