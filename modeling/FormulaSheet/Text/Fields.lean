set_option autoImplicit false

namespace FormulaSheet.Text

def fields : List Char → List (List Char)
  | [] => [[]]
  | c :: cs => if c = ',' then [] :: fields cs else (fields cs).modifyHead (c :: ·)

end FormulaSheet.Text
