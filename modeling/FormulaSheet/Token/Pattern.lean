import FormulaSheet.Text.Blank
import FormulaSheet.Token.Basic

/-!
Patterns of characters. A pattern is matched from left to right and never gives characters back:
each element takes all it can, and the pattern fails where an element finds nothing to take. What a
pattern keeps is handed, piece by piece, to the function that builds its result.
-/

set_option autoImplicit false

namespace FormulaSheet.Token

inductive Element where
  | one (accepts : Char → Bool)
  | oneOrMore (accepts : Char → Bool)
  | many (accepts : Char → Bool)
  | enclosed

/-- Splits at the closing parenthesis that matches an opening one just before the text. Fails when
the line ends first. -/
def splitEnclosed : Nat → List Char → Option (List Char × List Char)
  | _, [] => none
  | depth, c :: cs =>
    if Text.isLineBreak c then none
    else if c = ')' then
      match depth with
      | 0 => some ([], c :: cs)
      | depth + 1 => (splitEnclosed depth cs).map fun (inside, rest) => (c :: inside, rest)
    else
      let depth := if c = '(' then depth + 1 else depth
      (splitEnclosed depth cs).map fun (inside, rest) => (c :: inside, rest)

theorem splitEnclosed_append {depth : Nat} {cs inside rest : List Char}
    (h : splitEnclosed depth cs = some (inside, rest)) : inside ++ rest = cs := by
  induction cs generalizing depth inside with
  | nil => simp [splitEnclosed] at h
  | cons c cs ih =>
    simp only [splitEnclosed] at h
    split at h
    · contradiction
    · split at h
      · split at h
        · simp_all
        · simp only [Option.map_eq_some_iff, Prod.mk.injEq, Prod.exists] at h
          obtain ⟨a, b, hab, rfl, rfl⟩ := h
          simp [ih hab]
      · simp only [Option.map_eq_some_iff, Prod.mk.injEq, Prod.exists] at h
        obtain ⟨a, b, hab, rfl, rfl⟩ := h
        simp [ih hab]

namespace Element

def split : Element → List Char → Option (List Char × List Char)
  | one accepts, c :: cs => if accepts c then some ([c], cs) else none
  | one _, [] => none
  | oneOrMore accepts, c :: cs =>
    if accepts c then some (c :: cs.takeWhile accepts, cs.dropWhile accepts) else none
  | oneOrMore _, [] => none
  | many accepts, cs => some (cs.takeWhile accepts, cs.dropWhile accepts)
  | enclosed, cs => splitEnclosed 0 cs

theorem split_append {element : Element} {cs text rest : List Char}
    (h : element.split cs = some (text, rest)) : text ++ rest = cs := by
  cases element with
  | one | oneOrMore =>
    cases cs with
    | nil => simp [split] at h
    | cons c cs =>
      simp only [split] at h
      split at h
      · simp only [Option.some.injEq, Prod.mk.injEq] at h
        simp [← h.1, ← h.2]
      · contradiction
  | many =>
    simp only [split, Option.some.injEq, Prod.mk.injEq] at h
    simp [← h.1, ← h.2]
  | enclosed => exact splitEnclosed_append h

def least : Element → Nat
  | one _ | oneOrMore _ => 1
  | many _ | enclosed => 0

theorem least_le {element : Element} {cs text rest : List Char}
    (h : element.split cs = some (text, rest)) :
    element.least ≤ Text.byteLength text := by
  cases element with
  | one | oneOrMore =>
    cases cs with
    | nil => simp [split] at h
    | cons c cs =>
      simp only [split] at h
      split at h
      · have := c.utf8Size_pos
        simp only [Option.some.injEq, Prod.mk.injEq] at h
        simp only [least, ← h.1, Text.byteLength_cons]
        omega
      · contradiction
  | many | enclosed => exact Nat.zero_le _

end Element

inductive Step where
  | skip (element : Element)
  | keep (element : Element)

abbrev Pattern := List Step

def Builder (α : Type) : Pattern → Type
  | [] => α
  | .skip _ :: pattern => Builder α pattern
  | .keep _ :: pattern => Capture → Builder α pattern

structure Match (α : Type) where
  value : α
  consumed : List Char
  rest : List Char

namespace Pattern

def scan {α : Type} : (pattern : Pattern) → Builder α pattern → Nat → List Char →
    Option (Match α)
  | [], value, _, cs => some ⟨value, [], cs⟩
  | .skip element :: pattern, build, offset, cs => do
    let (text, rest) ← element.split cs
    let found ← scan pattern build (offset + Text.byteLength text) rest
    return { found with consumed := text ++ found.consumed }
  | .keep element :: pattern, build, offset, cs => do
    let (text, rest) ← element.split cs
    let found ←
      scan pattern (build ⟨offset, String.ofList text⟩) (offset + Text.byteLength text) rest
    return { found with consumed := text ++ found.consumed }

theorem scan_append {α : Type} {pattern : Pattern} {build : Builder α pattern} {offset : Nat}
    {cs : List Char} {found : Match α} (h : pattern.scan build offset cs = some found) :
    found.consumed ++ found.rest = cs := by
  induction pattern generalizing offset cs found with
  | nil => simp only [scan, Option.some.injEq] at h; simp [← h]
  | cons step pattern ih =>
    cases step with
    | skip element | keep element =>
      simp only [scan, Option.bind_eq_bind, Option.pure_def, Option.bind_eq_some_iff,
        Option.some.injEq, Prod.exists] at h
      obtain ⟨text, rest, hsplit, more, hmore, rfl⟩ := h
      simp [ih hmore, Element.split_append hsplit]

def leastSkipped : Pattern → Nat
  | [] => 0
  | .skip element :: pattern => element.least + leastSkipped pattern
  | .keep _ :: pattern => leastSkipped pattern

def Bounded {α : Type} (Fits : α → Nat → Prop) :
    (pattern : Pattern) → Builder α pattern → Nat → Prop
  | [], value, bound => Fits value bound
  | .skip _ :: pattern, build, bound => Bounded Fits pattern build bound
  | .keep _ :: pattern, build, bound =>
    ∀ capture : Capture, Bounded Fits pattern (build capture) (bound + capture.byteLength)

theorem exists_fits_of_bounded {α : Type} {Fits : α → Nat → Prop} {pattern : Pattern}
    {build : Builder α pattern} {bound offset : Nat} {cs : List Char} {found : Match α}
    (bounded : Bounded Fits pattern build bound)
    (h : pattern.scan build offset cs = some found) :
    ∃ size, Fits found.value size ∧
      size + pattern.leastSkipped ≤ bound + Text.byteLength found.consumed := by
  induction pattern generalizing bound offset cs found with
  | nil =>
    simp only [scan, Option.some.injEq] at h
    subst h
    exact ⟨bound, bounded, by simp [leastSkipped]⟩
  | cons step pattern ih =>
    cases step with
    | skip element =>
      simp only [scan, Option.bind_eq_bind, Option.pure_def, Option.bind_eq_some_iff,
        Option.some.injEq, Prod.exists] at h
      obtain ⟨text, rest, hsplit, more, hmore, rfl⟩ := h
      have least := Element.least_le hsplit
      obtain ⟨size, fits, hsize⟩ := ih bounded hmore
      refine ⟨size, fits, ?_⟩
      simp only [leastSkipped, Text.byteLength_append]
      omega
    | keep element =>
      simp only [scan, Option.bind_eq_bind, Option.pure_def, Option.bind_eq_some_iff,
        Option.some.injEq, Prod.exists] at h
      obtain ⟨text, rest, hsplit, more, hmore, rfl⟩ := h
      obtain ⟨size, fits, hsize⟩ := ih (bounded _) hmore
      refine ⟨size, fits, ?_⟩
      simp only [Capture.byteLength, ← Text.byteLength_toList, String.toList_ofList] at hsize
      simp only [leastSkipped, Text.byteLength_append]
      omega

end Pattern

end FormulaSheet.Token
