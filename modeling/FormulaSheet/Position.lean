import FormulaSheet.Text.Bytes

set_option autoImplicit false

namespace FormulaSheet

-- The index counts bytes from 0; lines and columns count from 1, columns in characters.
structure Place where
  index : Nat
  line : Nat
  column : Nat
  deriving DecidableEq

namespace Place

def origin : Place := ⟨0, 1, 1⟩

def advance (place : Place) (c : Char) : Place where
  index := place.index + c.utf8Size
  line := if c = '\n' then place.line + 1 else place.line
  column := if c = '\n' ∨ c = '\r' then 1 else place.column + 1

def advanceAll (place : Place) (cs : List Char) : Place :=
  cs.foldl advance place

@[simp]
theorem advanceAll_nil (place : Place) : place.advanceAll [] = place := rfl

@[simp]
theorem advanceAll_cons (place : Place) (c : Char) (cs : List Char) :
    place.advanceAll (c :: cs) = (place.advance c).advanceAll cs := rfl

@[simp]
theorem advanceAll_append (place : Place) (cs ds : List Char) :
    place.advanceAll (cs ++ ds) = (place.advanceAll cs).advanceAll ds :=
  List.foldl_append

@[simp]
theorem advanceAll_index (place : Place) (cs : List Char) :
    (place.advanceAll cs).index = place.index + Text.byteLength cs := by
  induction cs generalizing place with
  | nil => simp
  | cons c cs ih => simp [ih, advance, Nat.add_assoc]

/-- Where reading starts when `before` is skipped: only line feeds end a line of skipped text. -/
def after (before : List Char) : Place where
  index := Text.byteLength before
  line := before.count '\n' + 1
  column := (before.reverse.takeWhile (· ≠ '\n')).length + 1

@[simp]
theorem after_nil : after [] = origin := rfl

end Place

structure Site where
  text : String
  place : Place
  deriving DecidableEq

structure Position where
  site : Site
  sourceLine : String
  deriving DecidableEq

def lineAround (source : List Char) (index : Nat) : List Char :=
  let before := (Text.takeBytes index source).reverse.takeWhile (· ≠ '\n')
  let after := (Text.dropBytes index source).takeWhile (· ≠ '\n')
  ((before.reverse ++ after).reverse.dropWhile (· = '\r')).reverse

def Site.locate (site : Site) (source : String) : Position :=
  let index := min site.place.index (Text.byteLength source.toList)
  { site := { site with place := { site.place with index } }
    sourceLine := String.ofList (lineAround source.toList index) }

namespace Position

def place (position : Position) : Place := position.site.place

def caretOffset (position : Position) : Nat :=
  position.place.column - 1

/-- As many carets as the text has characters, at least one, and none past the end of the line
unless the text starts there. -/
def caretWidth (position : Position) : Nat :=
  let remaining := position.sourceLine.length - position.caretOffset
  max 1 (min position.site.text.length (max remaining 1))

def caret (position : Position) : String :=
  position.sourceLine ++ "\n" ++ String.ofList (List.replicate position.caretOffset ' ') ++
    String.ofList (List.replicate position.caretWidth '^')

def describe (position : Position) : String :=
  "line " ++ toString position.place.line ++ ", column " ++ toString position.place.column

end Position

end FormulaSheet
