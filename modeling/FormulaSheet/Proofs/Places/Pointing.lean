import FormulaSheet.Proofs.Places.Reporting

set_option autoImplicit false

namespace FormulaSheet

/-- A character in a line of a text: the lines before it, the line up to it and after it, the carriage
returns at the end of the line, and the lines after it. -/
structure Spot where
  earlier : List Char
  start : List Char
  char : Char
  rest : List Char
  returns : List Char
  later : List Char

def Spot.shown (spot : Spot) : List Char :=
  spot.start ++ spot.char :: spot.rest

structure Spot.Splits (spot : Spot) (text : List Char) : Prop where
  whole : text = spot.earlier ++ (spot.shown ++ spot.returns) ++ spot.later
  begins : ∀ d ∈ spot.earlier.getLast?, d = '\n'
  ends : ∀ d ∈ spot.later.head?, d = '\n'
  line : '\n' ∉ spot.shown ++ spot.returns
  returns : ∀ d ∈ spot.returns, d = '\r'
  stripped : spot.shown.getLast? ≠ some '\r'

/-- The index of the position is that of a character of the source, its line counts the line feeds
before it, and the source line is the line around it. Where carriage returns stand only before line
feeds, the column counts the characters before it in the line, and the carets begin below it. -/
structure Position.PointsAt (position : Position) (source : String) (spot : Spot) : Prop where
  splits : spot.Splits source.toList
  index : position.place.index = Text.byteLength (spot.earlier ++ spot.start)
  inside : position.place.index < Text.byteLength source.toList
  line : position.place.line = (spot.earlier ++ spot.start).count '\n' + 1
  sourceLine : position.sourceLine = String.ofList spot.shown
  column : LineFed source → position.place.column = spot.start.length + 1
  width : LineFed source → position.caretOffset < position.sourceLine.length
  caret : LineFed source → position.sourceLine.toList[position.caretOffset]? = some spot.char

section Spots

variable {before after : List Char} {c : Char}

def spotAt (before : List Char) (c : Char) (after : List Char) : Spot where
  earlier := (before.reverse.dropWhile (· ≠ '\n')).reverse
  start := (before.reverse.takeWhile (· ≠ '\n')).reverse
  char := c
  rest := ((after.takeWhile (· ≠ '\n')).reverse.dropWhile (· = '\r')).reverse
  returns := ((after.takeWhile (· ≠ '\n')).reverse.takeWhile (· = '\r')).reverse
  later := after.dropWhile (· ≠ '\n')

theorem spotAt_before : (spotAt before c after).earlier ++ (spotAt before c after).start = before := by
  rw [spotAt, ← List.reverse_append, List.takeWhile_append_dropWhile, List.reverse_reverse]

theorem spotAt_line : (spotAt before c after).shown ++ (spotAt before c after).returns =
    (spotAt before c after).start ++ c :: after.takeWhile (· ≠ '\n') := by
  simp only [Spot.shown, spotAt, List.append_assoc, List.cons_append, ← List.reverse_append,
    List.takeWhile_append_dropWhile, List.reverse_reverse]

theorem spotAt_shown (inLine : Text.isLineBreak c = false) :
    (spotAt before c after).shown.reverse = ((spotAt before c after).start ++
      c :: after.takeWhile (· ≠ '\n')).reverse.dropWhile (· = '\r') := by
  have other : decide (c = '\r') = false := by
    simp only [Text.isLineBreak, Bool.or_eq_false_iff] at inLine
    exact inLine.2
  have dropped := Token.dropWhile_append_cons (p := (· = '\r')) other (after.takeWhile (· ≠ '\n')).reverse
    (before.reverse.takeWhile (· ≠ '\n'))
  simp only [Spot.shown, spotAt, List.reverse_append, List.reverse_cons, List.reverse_reverse,
    List.append_assoc, List.singleton_append]
  exact dropped.symm

theorem splits_spotAt (inLine : Text.isLineBreak c = false) :
    (spotAt before c after).Splits (before ++ c :: after) where
  whole := by
    rw [spotAt_line, ← List.append_assoc, spotAt_before]
    simp [spotAt, List.takeWhile_append_dropWhile]
  begins := by
    intro d last
    rw [spotAt, List.getLast?_reverse] at last
    simpa using Token.refused_of_head?_dropWhile last
  ends := by
    intro d first
    simpa using Token.refused_of_head?_dropWhile first
  line := by
    have plain (cs : List Char) : '\n' ∉ cs.takeWhile (· ≠ '\n') := fun member => by
      simpa using List.all_eq_true.mp List.all_takeWhile _ member
    rw [spotAt_line, List.mem_append, List.mem_cons]
    rintro (member | rfl | member)
    · exact plain _ (List.mem_reverse.mp member)
    · contradiction
    · exact plain _ member
  returns := by
    intro d member
    simpa using List.all_eq_true.mp List.all_takeWhile d (List.mem_reverse.mp member)
  stripped := by
    intro last
    rw [← List.head?_reverse, spotAt_shown inLine] at last
    simpa using Token.refused_of_head?_dropWhile (Option.mem_def.mpr last)

theorem lineAround_spotAt (inLine : Text.isLineBreak c = false) :
    lineAround (before ++ c :: after) (Text.byteLength before) = (spotAt before c after).shown := by
  have other : c ≠ '\n' := by
    rintro rfl
    contradiction
  rw [← List.reverse_inj, spotAt_shown inLine, lineAround, Text.takeBytes_append,
    Text.dropBytes_append, List.reverse_reverse]
  simp [spotAt, other]

theorem Place.InLine.exists_spot {source : String} {place : Place} (placed : place.InLine source)
    (text : String) : ∃ spot, (Site.locate ⟨text, place⟩ source).PointsAt source spot := by
  obtain ⟨before, c, after, same, inLine, tracks⟩ := placed
  have inside : place.index < Text.byteLength source.toList := by
    have filled := c.utf8Size_pos
    rw [tracks.index, same, Text.byteLength_append, Text.byteLength_cons]
    omega
  have index : (Site.locate ⟨text, place⟩ source).place.index = place.index :=
    Nat.min_eq_left (Nat.le_of_lt inside)
  have shown : (Site.locate ⟨text, place⟩ source).sourceLine =
      String.ofList (spotAt before c after).shown := by
    change String.ofList (lineAround source.toList
      (Site.locate ⟨text, place⟩ source).place.index) = _
    rw [index, tracks.index, same, lineAround_spotAt inLine]
  have column (fed : LineFed source) :
      place.column = (spotAt before c after).start.length + 1 := by
    rw [tracks.column fed ?_, spotAt, List.length_reverse]
    intro last
    obtain ⟨earlier, rfl⟩ := List.getLast?_eq_some_iff.mp last
    have next := fed earlier (c :: after) (by simp [same])
    cases next
    contradiction
  have caret (fed : LineFed source) : (Site.locate ⟨text, place⟩ source).caretOffset =
      (spotAt before c after).start.length := by
    change place.column - 1 = _
    rw [column fed, Nat.add_sub_cancel]
  refine ⟨spotAt before c after, ?splits, ?index, ?inside, tracks.line.trans ?line, shown, column,
    fun fed => ?width, fun fed => ?caret⟩
  case splits =>
    rw [same]
    exact splits_spotAt inLine
  case index => rw [index, tracks.index, spotAt_before]
  case inside =>
    rw [index]
    exact inside
  case line => rw [spotAt_before]
  case width =>
    rw [caret fed, shown, String.length_ofList, Spot.shown]
    simp
  case caret =>
    rw [caret fed, shown, String.toList_ofList, Spot.shown]
    simp [spotAt]

end Spots

/-- Every error that running a source ends in is internal, or it points at a character in one of the
source's lines. -/
theorem Sheet.runAll_points (source : String) (limits : Limits) (e : Error)
    (failed : (ofSource source limits).runAll.2 = .error e) :
    (∃ fault, e = .internal fault) ∨
      ∃ position spot, e.position? = some position ∧ position.PointsAt source spot := by
  cases known : e.position? with
  | none =>
    cases e with
    | internal fault => exact .inl ⟨fault, rfl⟩
    | grammar | naming | arithmetic => contradiction
  | some position =>
    obtain ⟨site, inLine, rfl⟩ := runAll_reports failed position known
    obtain ⟨spot, points⟩ := inLine.exists_spot site.text
    exact .inr ⟨_, spot, rfl, points⟩

theorem Sheet.runAll_points_body :
    (ofSource "1-2\r\nf(x)=π/(x-x)\r\n\r\n3+f(2)" {}).runAll.2 = .error (.arithmetic .divisionByZero
        ⟨⟨"/", 12, 2, 7⟩, "f(x)=π/(x-x)"⟩ 3.141592653589793 0) ∧
      ∃ spot, Position.PointsAt ⟨⟨"/", 12, 2, 7⟩, "f(x)=π/(x-x)"⟩
        "1-2\r\nf(x)=π/(x-x)\r\n\r\n3+f(2)" spot := by
  have failed : (ofSource "1-2\r\nf(x)=π/(x-x)\r\n\r\n3+f(2)" {}).runAll.2 =
      .error (.arithmetic .divisionByZero ⟨⟨"/", 12, 2, 7⟩, "f(x)=π/(x-x)"⟩ 3.141592653589793 0) := by
    decide +kernel
  refine ⟨failed, ?_⟩
  obtain ⟨fault, absurd⟩ | ⟨position, spot, known, points⟩ := runAll_points _ _ _ failed
  · contradiction
  · cases known
    exact ⟨spot, points⟩

end FormulaSheet
