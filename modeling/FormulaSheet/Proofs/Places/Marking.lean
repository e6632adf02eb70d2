import FormulaSheet.Position
import FormulaSheet.Proofs.Lexing.Scanning
import Mathlib.Order.Bounds.Defs

set_option autoImplicit false

namespace FormulaSheet

-- The line around an index, as the line feeds beside it cut it out of the text.
structure Text.LineAt (text : List Char) (index : Nat) (earlier line later : List Char) : Prop where
  whole : text = earlier ++ line ++ later
  unbroken : '\n' ∉ line
  begins : ∀ c ∈ earlier.getLast?, c = '\n'
  ends : ∀ c ∈ later.head?, c = '\n'
  reached : byteLength earlier ≤ index
  within : index ≤ byteLength (earlier ++ line)

def Position.Shows (position : Position) (source : String) (index : Nat) : Prop :=
  ∃ earlier shown returns later,
    Text.LineAt source.toList index earlier (shown ++ returns) later ∧
      (∀ c ∈ returns, c = '\r') ∧ shown.getLast? ≠ some '\r' ∧
      position.sourceLine = String.ofList shown

/-- So many carets may stand after the blanks, below a line and for a text of these lengths: at least
one, no more than there are characters in the text, and none past the end of the line unless the
first of them is. -/
structure Position.Fits (line blanks text carets : Nat) : Prop where
  one_le : 1 ≤ carets
  le_text : carets ≤ max 1 text
  le_line : blanks < line → blanks + carets ≤ line
  beyond : line ≤ blanks → carets = 1

namespace Text

section Lines

variable {text : List Char} {index : Nat}

theorem not_mem_takeWhile_ne (cs : List Char) : '\n' ∉ cs.takeWhile (· ≠ '\n') := fun member => by
  simpa using List.all_eq_true.mp List.all_takeWhile _ member

theorem eq_of_head?_dropWhile_ne {cs : List Char} {c : Char}
    (first : c ∈ (cs.dropWhile (· ≠ '\n')).head?) : c = '\n' := by
  simpa using Token.refused_of_head?_dropWhile first

theorem le_byteLength_takeBytes (inside : index ≤ byteLength text) : index ≤
    byteLength (takeBytes index text ++ (dropBytes index text).takeWhile (· ≠ '\n')) := by
  induction text generalizing index with
  | nil => simpa [takeBytes, dropBytes] using inside
  | cons c cs ih =>
    rw [byteLength_cons] at inside
    by_cases whole : c.utf8Size ≤ index
    · have later := ih (by omega : index - c.utf8Size ≤ byteLength cs)
      simp only [takeBytes, dropBytes, whole, if_true, List.cons_append, byteLength_cons]
      omega
    · by_cases feed : c = '\n'
      · have single : c.utf8Size = 1 := congrArg Char.utf8Size feed
        omega
      · have taken : (c :: cs).takeWhile (· ≠ '\n') = c :: cs.takeWhile (· ≠ '\n') :=
          List.takeWhile_cons_of_pos (by simpa using feed)
        simp only [takeBytes, dropBytes, whole, if_false, List.nil_append, taken, byteLength_cons]
        omega

theorem lineAt_takeBytes (inside : index ≤ byteLength text) :
    LineAt text index ((takeBytes index text).reverse.dropWhile (· ≠ '\n')).reverse
      (((takeBytes index text).reverse.takeWhile (· ≠ '\n')).reverse ++
        (dropBytes index text).takeWhile (· ≠ '\n'))
      ((dropBytes index text).dropWhile (· ≠ '\n')) := by
  have split : ((takeBytes index text).reverse.dropWhile (· ≠ '\n')).reverse ++
      ((takeBytes index text).reverse.takeWhile (· ≠ '\n')).reverse = takeBytes index text := by
    rw [← List.reverse_append, List.takeWhile_append_dropWhile, List.reverse_reverse]
  constructor
  case whole =>
    rw [← List.append_assoc, split, List.append_assoc, List.takeWhile_append_dropWhile,
      takeBytes_append_dropBytes]
  case unbroken =>
    rw [List.mem_append, List.mem_reverse]
    rintro (member | member)
    · exact not_mem_takeWhile_ne _ member
    · exact not_mem_takeWhile_ne _ member
  case begins =>
    intro c last
    rw [List.getLast?_reverse] at last
    exact eq_of_head?_dropWhile_ne last
  case ends => exact fun c first => eq_of_head?_dropWhile_ne first
  case reached =>
    have before := congrArg byteLength split
    have least := byteLength_takeBytes_le index text
    rw [byteLength_append] at before
    omega
  case within =>
    rw [← List.append_assoc, split]
    exact le_byteLength_takeBytes inside

theorem LineAt.strip {earlier line later : List Char} (h : LineAt text index earlier line later) :
    LineAt text index earlier ((line.reverse.dropWhile (· = '\r')).reverse ++
      (line.reverse.takeWhile (· = '\r')).reverse) later := by
  rw [← List.reverse_append, List.takeWhile_append_dropWhile, List.reverse_reverse]
  exact h

end Lines

end Text

theorem Site.locate_shows (site : Site) (source : String) :
    (site.locate source).Shows source
      (min site.place.index (Text.byteLength source.toList)) := by
  have line := (Text.lineAt_takeBytes (Nat.min_le_right site.place.index
    (Text.byteLength source.toList))).strip
  refine ⟨_, _, _, _, line, ?returns, ?stripped, rfl⟩
  case returns =>
    intro c member
    simpa using List.all_eq_true.mp List.all_takeWhile c (List.mem_reverse.mp member)
  case stripped =>
    intro last
    rw [List.getLast?_reverse] at last
    simpa using Token.refused_of_head?_dropWhile (Option.mem_def.mpr last)

namespace Position

theorem isGreatest_caretWidth (position : Position) : IsGreatest
    {carets | Fits position.sourceLine.length position.caretOffset position.site.text.length carets}
    position.caretWidth := by
  unfold caretWidth
  dsimp only
  constructor
  · refine ⟨?_, ?_, ?_, ?_⟩ <;> omega
  · rintro carets ⟨-, text, line, beyond⟩
    by_cases inside : position.caretOffset < position.sourceLine.length
    · have := line inside
      omega
    · have := beyond (by omega)
      omega

/-- Whatever the index, the column and the text, the position shows the line around the index, or
around the end of the source if the index lies past it. Below that line stand blanks for the columns
before, and then as many carets as fit. -/
theorem locate_caret (source text : String) (index line column : Nat) :
    let position := Site.locate ⟨text, ⟨index, line, column⟩⟩ source
    position.Shows source (min index (Text.byteLength source.toList)) ∧
      ∃ carets, IsGreatest {carets | Fits position.sourceLine.length (column - 1) text.length carets}
          carets ∧
        position.caret = position.sourceLine ++ "\n" ++
          String.ofList (List.replicate (column - 1) ' ') ++
          String.ofList (List.replicate carets '^') :=
  ⟨Site.locate_shows _ source, _, isGreatest_caretWidth _, rfl⟩

-- The index is that of the carriage return, and the text goes on past the end of the line.
example : (Site.locate ⟨"é\r\n2", ⟨8, 2, 5⟩⟩ "1\nπ+2é\r\n2").caret = "π+2é\n    ^" := by
  decide

end Position

end FormulaSheet
