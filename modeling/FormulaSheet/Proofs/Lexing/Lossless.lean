import FormulaSheet.Proofs.Lexing.Reading
import FormulaSheet.Proofs.Lexing.Spelling

set_option autoImplicit false

namespace FormulaSheet

theorem StandsAt.le {source : String} {offset : Nat} {text : List Char}
    (h : StandsAt source offset text) :
    offset + Text.byteLength text ≤ Text.byteLength source.toList := by
  obtain ⟨before, after, same, rfl⟩ := h
  simp only [same, Text.byteLength_append]
  omega

namespace Token

def start (token : Token) : Nat :=
  token.site.place.index

def stop (token : Token) : Nat :=
  token.start + token.site.text.utf8ByteSize

def Gap (source : String) (start stop : Nat) : Prop :=
  ∃ gap, Blank gap ∧ StandsAt source start gap ∧ stop = start + Text.byteLength gap

inductive Cuts (source : String) : Nat → List Capture → Nat → Prop
  | nil {start stop : Nat} : start ≤ stop → Cuts source start [] stop
  | cons {start stop : Nat} {capture : Capture} {rest : List Capture} : start ≤ capture.offset →
      StandsAt source capture.offset capture.text.toList → Cuts source capture.stop rest stop →
        Cuts source start (capture :: rest) stop

structure Faithful (source : String) (token : Token) : Prop where
  nonempty : token.site.text ≠ ""
  stands : StandsAt source token.start token.site.text.toList
  captures : Cuts source token.start token.shape.captures token.stop

/-- The tokens stand in the source one after the other, up to an offset, with blanks between them. -/
inductive Tiles (source : String) : Nat → List Token → Nat → Prop
  | nil (start : Nat) : Tiles source start [] start
  | cons {start stop : Nat} {token : Token} {rest : List Token} : Gap source start token.start →
      token.Faithful source → Tiles source token.stop rest stop →
        Tiles source start (token :: rest) stop

/-- A reading from one offset up to another that accounts for all of the source between them: the
tokens, and then either blanks up to the end or one failure after blanks. -/
structure Reading.Lossless (source : String) (start stop : Nat) (reading : Reading) : Prop where
  count : reading.tokens.length + reading.failure.toList.length ≤ stop - start
  tiles : ∃ last, Tiles source start reading.tokens last ∧ last ≤ stop ∧
    match reading.failure with
    | none => Gap source last stop
    | some error => ∃ fault position, error = .grammar fault position ∧
        Gap source last position.place.index ∧ position.place.index < stop

variable {source : String}

section Captures

theorem Cuts.append {start middle stop : Nat} {first second : List Capture}
    (h : Cuts source start first middle) (later : Cuts source middle second stop) :
    Cuts source start (first ++ second) stop := by
  induction h with
  | nil ordered =>
    cases later with
    | nil following => exact .nil (Nat.le_trans ordered following)
    | cons after stands rest => exact .cons (Nat.le_trans ordered after) stands rest
  | cons after stands _ ih => exact .cons after stands (ih later)

def Pattern.Collects : (pattern : Pattern) →
    Builder (List Char → Except GrammarFault Shape) pattern → List Capture → Prop
  | [], read, kept => ∀ text shape, read text = .ok shape → shape.captures = kept
  | .skip _ :: pattern, build, kept => Collects pattern build kept
  | .keep _ :: pattern, build, kept =>
    ∀ capture, Collects pattern (build capture) (kept ++ [capture])

theorem Pattern.captures_of_scan {pattern : Pattern}
    {build : Builder (List Char → Except GrammarFault Shape) pattern} {kept : List Capture}
    (collects : Collects pattern build kept) {start offset : Nat} {cs : List Char}
    {found : Match (List Char → Except GrammarFault Shape)}
    (before : Cuts source start kept offset) (stands : StandsAt source offset cs)
    (h : pattern.scan build offset cs = some found) {text : List Char} {shape : Shape}
    (read : found.value text = .ok shape) :
    Cuts source start shape.captures (offset + Text.byteLength found.consumed) := by
  induction pattern generalizing kept offset cs found with
  | nil =>
    cases h
    rw [collects text shape read]
    exact before
  | cons step pattern ih =>
    rw [scan_cons] at h
    obtain ⟨⟨piece, rest⟩, taken, h⟩ := Option.bind_eq_some_iff.mp h
    obtain ⟨more, found, rfl⟩ := Option.map_eq_some_iff.mp h
    rw [← Element.split_append taken] at stands
    have length : offset + Text.byteLength (Match.after piece more).consumed =
        offset + Text.byteLength piece + Text.byteLength more.consumed := by
      rw [Match.after, Text.byteLength_append, Nat.add_assoc]
    cases step with
    | skip element =>
      have here : Cuts source start kept (offset + Text.byteLength piece) := by
        simpa using before.append (.nil (Nat.le_add_right offset _))
      rw [length]
      exact ih collects here stands.right found read
    | keep element =>
      have piece_stands : StandsAt source offset (String.ofList piece).toList := by
        rw [String.toList_ofList]
        exact stands.left
      have stop : Capture.stop ⟨offset, String.ofList piece⟩ = offset + Text.byteLength piece := by
        rw [Capture.stop, Capture.byteLength, ← Text.byteLength_toList, String.toList_ofList]
      have one : Cuts source offset [⟨offset, String.ofList piece⟩]
          (offset + Text.byteLength piece) :=
        .cons (Nat.le_refl offset) piece_stands (.nil (Nat.le_of_eq stop))
      rw [length]
      exact ih (collects _) (before.append one) stands.right found read

def Rule.Collects (rule : Rule) : Prop :=
  Pattern.Collects rule.pattern rule.shape []

theorem collects_plain {shape : Shape} (bare : shape.captures = []) :
    Pattern.Collects [] (fun _ => .ok shape) [] := by
  rintro _ _ ⟨⟩
  exact bare

theorem Rule.collects {grammar : Grammar} {rule : Rule} (member : rule ∈ grammar.rules) :
    rule.Collects := by
  refine Grammar.forall_rules ?function ?noFunction ?plot ?sequence ?longSequence ?noSequence
    ?noLongSequence ?call ?indexOfTerm ?partialSum ?indexOfPartialSum ?name ?number ?operator ?newline
    ?opening ?closing ?equals ?comma rule member
  case function =>
    rintro name parameters body _ _ ⟨⟩
    rfl
  case plot =>
    rintro body _ _ ⟨⟩
    rfl
  case sequence =>
    rintro first second _ _ ⟨⟩
    rfl
  case longSequence =>
    rintro first second third _ _ ⟨⟩
    rfl
  case noFunction | noLongSequence => rintro _ _ _ _ _ ⟨⟩
  case noSequence => rintro _ _ _ _ ⟨⟩
  case call =>
    rintro callee arguments _ _ ⟨⟩
    rfl
  case indexOfTerm | partialSum | indexOfPartialSum =>
    rintro arguments _ _ ⟨⟩
    rfl
  case number =>
    intro text shape read
    obtain ⟨value, rfl⟩ := readNumber_eq_ok read
    rfl
  case operator => exact fun _ => collects_plain rfl
  case name | newline | opening | closing | equals | comma => exact collects_plain rfl

theorem Grammar.cuts {grammar : Grammar} {offset : Nat} {cs consumed rest : List Char}
    {shape : Shape} (stands : StandsAt source offset cs)
    (h : grammar.match? offset cs = some ⟨.ok shape, consumed, rest⟩) :
    Cuts source offset shape.captures (offset + Text.byteLength consumed) := by
  obtain ⟨rule, member, found⟩ := Grammar.exists_rule h
  rw [Rule.match?_eq] at found
  obtain ⟨scanned, found, same⟩ := Option.map_eq_some_iff.mp found
  obtain ⟨value, taken, left⟩ := Match.mk.inj same
  rw [← taken]
  exact Pattern.captures_of_scan (Rule.collects member) (.nil (Nat.le_refl offset)) stands found value

end Captures

section Readings

variable {grammar : Grammar} {place : Place} {cs : List Char}

theorem next_lossless (grammar : Grammar) (stands : StandsAt source place.index cs) :
    match next grammar source place cs with
    | .done => Gap source place.index (place.index + Text.byteLength cs)
    | .fault error => ∃ fault position, error = .grammar fault position ∧
        Gap source place.index position.place.index ∧
        position.place.index < place.index + Text.byteLength cs
    | .token token after rest => Gap source place.index token.start ∧ token.Faithful source ∧
        token.start < token.stop ∧ after.index = token.stop ∧ StandsAt source after.index rest ∧
        token.stop + Text.byteLength rest = place.index + Text.byteLength cs := by
  have split := List.takeWhile_append_dropWhile (p := Text.isBlank) (l := cs)
  have blank : Blank (cs.takeWhile Text.isBlank) :=
    fun c member => List.all_eq_true.mp List.all_takeWhile c member
  unfold next
  generalize cs.takeWhile Text.isBlank = gap at split blank
  generalize cs.dropWhile Text.isBlank = text at split
  subst split
  have skipped : Gap source place.index (place.advanceAll gap).index :=
    ⟨gap, blank, stands.left, Place.advanceAll_index place gap⟩
  have stands := stands.right
  rw [← Place.advanceAll_index] at stands
  have length : place.index + Text.byteLength (gap ++ text) =
      (place.advanceAll gap).index + Text.byteLength text := by
    rw [Text.byteLength_append, Place.advanceAll_index, Nat.add_assoc]
  rw [length]
  generalize place.advanceAll gap = start at skipped stands
  cases text with
  | nil => exact skipped
  | cons c text =>
    have inside := stands.le
    have filled := c.utf8Size_pos
    simp only [Text.byteLength_cons] at inside
    -- Both failures are found at the character after the blanks, which is in the range.
    have fails (fault : GrammarFault) (piece : String) :
        ∃ fault' position, Error.grammar fault (Site.locate ⟨piece, start⟩ source) =
            .grammar fault' position ∧
          Gap source place.index position.place.index ∧
          position.place.index < start.index + Text.byteLength (c :: text) := by
      have located : (Site.locate ⟨piece, start⟩ source).place.index = start.index :=
        Nat.min_eq_left (show start.index ≤ _ by omega)
      refine ⟨fault, _, rfl, ?_, ?_⟩
      · rw [located]
        exact skipped
      · rw [located, Text.byteLength_cons]
        omega
    rcases found : grammar.match? start.index (c :: text) with - | ⟨fault | shape, consumed, later⟩
    · simp only [found]
      exact fails _ _
    · simp only [found]
      exact fails _ _
    · simp only [found]
      have whole : consumed ++ later = c :: text := Grammar.match?_append found
      obtain ⟨rule, -, matched⟩ := Grammar.exists_rule found
      have taken := Rule.captured_lt matched
      have cuts := Grammar.cuts stands found
      rw [← whole] at stands
      have size : (String.ofList consumed).utf8ByteSize = Text.byteLength consumed := by
        rw [← Text.byteLength_toList, String.toList_ofList]
      refine ⟨skipped, ⟨?_, ?_, ?_⟩, ?_, ?_, ?_, ?_⟩
      · rintro empty
        simp only at empty
        rw [empty] at size
        change 0 = Text.byteLength consumed at size
        omega
      · rw [String.toList_ofList]
        exact stands.left
      · simp only [stop, size]
        exact cuts
      · simp only [stop, size]
        omega
      · rw [Place.advanceAll_index, stop, size]
        rfl
      · rw [Place.advanceAll_index]
        exact stands.right
      · rw [← whole, Text.byteLength_append, stop, size]
        exact Nat.add_assoc ..

theorem Tiles.le {start stop : Nat} {tokens : List Token} (h : Tiles source start tokens stop) :
    start ≤ stop := by
  induction h with
  | nil => exact Nat.le_refl _
  | @cons start stop token rest gap _ _ ih =>
    obtain ⟨text, -, -, same⟩ := gap
    have : token.start ≤ token.stop := Nat.le_add_right ..
    omega

theorem readFrom_lossless (place : Place) (stands : StandsAt source place.index cs) :
    (readFrom grammar source place cs).Lossless source place.index
      (place.index + Text.byteLength cs) := by
  fun_induction readFrom grammar source place cs with
  | case1 place cs step =>
    have skipped := next_lossless grammar stands
    rw [step] at skipped
    exact ⟨Nat.zero_le _, _, .nil _, Nat.le_add_right .., skipped⟩
  | case2 place cs error step =>
    have failed := next_lossless grammar stands
    rw [step] at failed
    obtain ⟨fault, position, same, gap, before⟩ := failed
    have following : place.index ≤ position.place.index := by
      obtain ⟨text, -, -, stop⟩ := gap
      omega
    refine ⟨?_, _, .nil _, Nat.le_add_right .., fault, position, same, gap, before⟩
    simp only [List.length_nil, Option.toList, List.length_singleton]
    omega
  | case3 place cs token after rest step ih =>
    have took := next_lossless grammar stands
    rw [step] at took
    obtain ⟨gap, faithful, filled, stop, stands, length⟩ := took
    have later := ih stands
    rw [stop, length] at later
    obtain ⟨count, last, tiles, ordered, ends⟩ := later
    have following : place.index ≤ token.start := by
      obtain ⟨text, -, -, stop⟩ := gap
      omega
    refine ⟨?_, last, .cons gap faithful tiles, ordered, ends⟩
    have := tiles.le
    simp only [Reading.cons, List.length_cons]
    omega

/-- Reading any range of a source, in either grammar, ends after at most as many items as there are
bytes in the range, and loses nothing. -/
theorem read_lossless (grammar : Grammar) {start : Nat} {text : List Char}
    (stands : StandsAt source start text) :
    (read grammar source start (start + Text.byteLength text)).Lossless source start
      (start + Text.byteLength text) := by
  obtain ⟨before, after, same, rfl⟩ := stands
  rw [read_range grammar same]
  exact readFrom_lossless (.after before) ⟨before, after, same, rfl⟩

-- The range begins after a character of two bytes, and its reading fails at `#`.
theorem read_lossless_unreadable :
    StandsAt "é\nh = f( π, 2) # 1" 7 "f( π, 2) # 1".toList ∧
      (read .statements "é\nh = f( π, 2) # 1" 7
        (7 + Text.byteLength "f( π, 2) # 1".toList)).Lossless "é\nh = f( π, 2) # 1" 7
        (7 + Text.byteLength "f( π, 2) # 1".toList) ∧
      (read .statements "é\nh = f( π, 2) # 1" 7
        (7 + Text.byteLength "f( π, 2) # 1".toList)).tokens =
          [⟨⟨"f( π, 2)", ⟨7, 2, 5⟩⟩, .call ⟨7, "f"⟩ ⟨9, " π, 2"⟩⟩] ∧
      (read .statements "é\nh = f( π, 2) # 1" 7
        (7 + Text.byteLength "f( π, 2) # 1".toList)).failure =
          some (.grammar (.unreadable '#') ⟨⟨"#", ⟨17, 2, 14⟩⟩, "h = f( π, 2) # 1"⟩) := by
  have stands : StandsAt "é\nh = f( π, 2) # 1" 7 "f( π, 2) # 1".toList :=
    ⟨"é\nh = ".toList, [], by decide, by decide⟩
  exact ⟨stands, read_lossless .statements stands, by decide +kernel, by decide +kernel⟩

end Readings

end Token

end FormulaSheet
