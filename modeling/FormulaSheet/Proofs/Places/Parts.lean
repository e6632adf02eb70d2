import FormulaSheet.Proofs.Places.Tracking
import Mathlib.Data.List.Induction

set_option autoImplicit false

namespace FormulaSheet

-- Each carriage return is followed by a line feed, though other characters may stand between them.
def Fed (before : List Char) : Prop :=
  ∀ earlier later, before = earlier ++ '\r' :: later → '\n' ∈ later

section Columns

variable {before line : List Char}

theorem fed_append_singleton {c : Char} :
    Fed (before ++ [c]) ↔ c = '\n' ∨ c ≠ '\r' ∧ Fed before := by
  constructor
  · intro fed
    by_cases feed : c = '\n'
    · exact .inl feed
    · refine .inr ⟨?_, fun earlier later same => ?_⟩
      · rintro rfl
        simpa using fed before [] rfl
      · have member := fed earlier (later ++ [c]) (by simp [same])
        simpa [Ne.symm feed] using member
  · rintro (rfl | ⟨other, fed⟩) earlier later same
    · cases later using List.reverseRecOn with
      | nil => simp at same
      | append_singleton later d =>
        rw [← List.cons_append, ← List.append_assoc] at same
        obtain ⟨-, last⟩ := List.append_inj' same rfl
        cases last
        simp
    · cases later using List.reverseRecOn with
      | nil =>
        obtain ⟨-, last⟩ := List.append_inj' same rfl
        exact absurd (List.cons.inj last).1 other
      | append_singleton later d =>
        rw [← List.cons_append, ← List.append_assoc] at same
        obtain ⟨same, -⟩ := List.append_inj' same rfl
        exact List.mem_append_left _ (fed earlier later same)

namespace Place

theorem advanceAll_line (place : Place) (cs : List Char) :
    (place.advanceAll cs).line = place.line + cs.count '\n' := by
  induction cs generalizing place with
  | nil => simp
  | cons c cs ih =>
    rw [advanceAll_cons, ih, List.count_cons]
    by_cases feed : c = '\n'
    · simp [advance, feed]
      omega
    · simp [advance, feed]

theorem after_append (inLine : ∀ c ∈ line, Text.isLineBreak c = false) (before : List Char) :
    (after before).advanceAll line = after (before ++ line) := by
  induction line generalizing before with
  | nil => simp
  | cons c line ih =>
    obtain ⟨here, later⟩ := List.forall_mem_cons.mp inLine
    have other : c ≠ '\n' ∧ c ≠ '\r' := by simpa [Text.isLineBreak] using here
    have one : (after before).advance c = after (before ++ [c]) := by
      simp [after, advance, other, Nat.add_assoc]
    rw [advanceAll_cons, one, ih later, List.append_assoc, List.singleton_append]

theorem after_append_column (inLine : ∀ c ∈ line, Text.isLineBreak c = false)
    (before : List Char) :
    (after (before ++ line)).column = (after before).column + line.length := by
  induction line using List.reverseRecOn with
  | nil => simp
  | append_singleton line c ih =>
    obtain ⟨earlier, here⟩ := List.forall_mem_append.mp inLine
    have other : c ≠ '\n' ∧ c ≠ '\r' := by
      simpa [Text.isLineBreak] using here c List.mem_cons_self
    have one : (after (before ++ (line ++ [c]))).column = (after (before ++ line)).column + 1 := by
      simp [after, other]
    rw [one, ih earlier, List.length_append, List.length_singleton, Nat.add_assoc]

theorem column_eq_iff_fed (before : List Char) :
    (origin.advanceAll before).column = (after before).column ↔ Fed before := by
  induction before using List.reverseRecOn with
  | nil => simp [Fed]
  | append_singleton before c ih =>
    rw [fed_append_singleton, ← ih]
    by_cases feed : c = '\n'
    · simp [feed, after, advance]
    by_cases back : c = '\r'
    · simp [back, after, advance]
    · simp [feed, back, after, advance]

end Place

end Columns

namespace Token

section Lines

variable {pattern : Pattern} {offset : Nat} {cs : List Char}

theorem Pattern.not_mem_consumed {c : Char} (refused : pattern.rejects c) {α : Type}
    {build : Builder α pattern} {found : Match α} (h : pattern.scan build offset cs = some found) :
    c ∉ found.consumed := by
  induction pattern generalizing offset cs found with
  | nil =>
    cases h
    simp
  | cons step pattern ih =>
    rw [scan_cons] at h
    obtain ⟨⟨piece, rest⟩, taken, h⟩ := Option.bind_eq_some_iff.mp h
    obtain ⟨more, found, rfl⟩ := Option.map_eq_some_iff.mp h
    obtain ⟨here, later⟩ := Bool.and_eq_true_iff.mp refused
    intro member
    rcases List.mem_append.mp member with member | member
    · exact Element.not_mem_of_rejects here taken member
    · exact ih later found member

def Step.skips : Step → Bool
  | skip _ => true
  | keep _ => false

theorem Pattern.captures_of_skips
    {build : Builder (List Char → Except GrammarFault Shape) pattern} {kept : List Capture}
    (collects : Collects pattern build kept) (skips : pattern.all Step.skips)
    {found : Match (List Char → Except GrammarFault Shape)}
    (h : pattern.scan build offset cs = some found) {text : List Char} {shape : Shape}
    (read : found.value text = .ok shape) : shape.captures = kept := by
  induction pattern generalizing offset cs found with
  | nil =>
    cases h
    exact collects text shape read
  | cons step pattern ih =>
    rw [scan_cons] at h
    obtain ⟨⟨piece, rest⟩, -, h⟩ := Option.bind_eq_some_iff.mp h
    obtain ⟨more, found, rfl⟩ := Option.map_eq_some_iff.mp h
    obtain ⟨here, later⟩ := Bool.and_eq_true_iff.mp skips
    cases step with
    | skip element => exact ih collects later found read
    | keep element => contradiction

theorem Grammar.line_of_captures {grammar : Grammar} {consumed rest : List Char} {shape : Shape}
    (h : grammar.match? offset cs = some ⟨.ok shape, consumed, rest⟩) (filled : shape.captures ≠ []) :
    ∀ c ∈ consumed, Text.isLineBreak c = false := by
  obtain ⟨rule, member, h⟩ := Grammar.exists_rule h
  rw [Rule.match?_eq] at h
  obtain ⟨scanned, found, same⟩ := Option.map_eq_some_iff.mp h
  obtain ⟨value, rfl, -⟩ := Match.mk.inj same
  have refused : ∀ b ∈ ['\n', '\r'], ∀ rule ∈ grammar.rules,
      rule.pattern.rejects b || rule.pattern.all Step.skips := by
    cases grammar <;>
      exact List.forall_mem_cons.mpr ⟨List.all_eq_true.mp (by decide),
        List.forall_mem_singleton.mpr (List.all_eq_true.mp (by decide))⟩
  intro c inside
  refine Bool.eq_false_iff.mpr fun isBreak => ?_
  have listed : c ∈ ['\n', '\r'] := by
    simpa [Text.isLineBreak] using isBreak
  rcases Bool.or_eq_true_iff.mp (refused c listed rule member) with rejects | skips
  · exact Pattern.not_mem_consumed rejects found inside
  · exact filled (Pattern.captures_of_skips (Rule.collects member) skips found value)

end Lines

section Readings

variable {grammar : Grammar} {source : String} {place : Place} {cs : List Char}

structure Sited (grammar : Grammar) (place : Place) (token : Token)
    (before text after : List Char) : Prop where
  site : token.site = ⟨String.ofList text, place.advanceAll before⟩
  found : grammar.match? token.start (text ++ after) = some ⟨.ok token.shape, text, after⟩

theorem next_stands {token : Token} {place' : Place} {rest : List Char}
    (h : next grammar source place cs = .token token place' rest) :
    ∃ before text, cs = before ++ (text ++ rest) ∧ token.Sited grammar place before text rest ∧
      place' = place.advanceAll (before ++ text) := by
  have split := List.takeWhile_append_dropWhile (p := Text.isBlank) (l := cs)
  unfold next at h
  generalize cs.takeWhile Text.isBlank = gap at split h
  generalize cs.dropWhile Text.isBlank = left at split h
  subst split
  cases left with
  | nil => contradiction
  | cons c left =>
    simp only at h
    split at h
    · contradiction
    · contradiction
    next shape text later found =>
      cases h
      have whole : text ++ rest = c :: left := Grammar.match?_append found
      refine ⟨gap, text, by rw [whole], ⟨rfl, ?_⟩, (Place.advanceAll_append ..).symm⟩
      rw [whole]
      exact found

theorem readFrom_stands {token : Token}
    (member : token ∈ (readFrom grammar source place cs).tokens) :
    ∃ before text after, cs = before ++ (text ++ after) ∧
      token.Sited grammar place before text after := by
  fun_induction readFrom grammar source place cs with
  | case1 | case2 => contradiction
  | case3 place cs first place' rest step ih =>
    obtain ⟨gap, taken, rfl, stands, rfl⟩ := next_stands step
    rcases List.mem_cons.mp member with rfl | member
    · exact ⟨gap, taken, rest, rfl, stands⟩
    · obtain ⟨before, text, after, rfl, site, found⟩ := ih member
      refine ⟨gap ++ taken ++ before, text, after, by simp, ?_, found⟩
      rw [site, Place.advanceAll_append place (gap ++ taken)]

theorem Cuts.le {start stop : Nat} {captures : List Capture}
    (h : Cuts source start captures stop) : start ≤ stop := by
  induction h with
  | nil ordered => exact ordered
  | @cons start stop capture rest after _ _ ih =>
    have : capture.offset ≤ capture.stop := Nat.le_add_right ..
    omega

theorem Cuts.within {start stop : Nat} {captures : List Capture}
    (h : Cuts source start captures stop) {capture : Capture} (member : capture ∈ captures) :
    start ≤ capture.offset ∧ capture.stop ≤ stop := by
  induction h with
  | nil => contradiction
  | @cons start stop first rest after _ later ih =>
    have : first.offset ≤ first.stop := Nat.le_add_right ..
    rcases List.mem_cons.mp member with rfl | member
    · exact ⟨after, later.le⟩
    · obtain ⟨following, ends⟩ := ih member
      exact ⟨by omega, ends⟩

end Readings

end Token

section Pieces

theorem Text.prefix_of_byteLength_le {as bs cs ds : List Char} (same : as ++ bs = cs ++ ds)
    (shorter : byteLength as ≤ byteLength cs) : ∃ more, cs = as ++ more := by
  rcases List.append_eq_append_iff.mp same with ⟨more, rfl, -⟩ | ⟨extra, rfl, -⟩
  · exact ⟨more, rfl⟩
  · have bounded := length_le_byteLength extra
    rw [byteLength_append] at shorter
    have empty : extra = [] := List.length_eq_zero_iff.mp (by omega)
    exact ⟨[], by simp [empty]⟩

variable {source : String}

theorem StandsAt.inside {before text after piece : List Char} {offset : Nat}
    (same : source.toList = before ++ (text ++ after)) (stands : StandsAt source offset piece)
    (starts : Text.byteLength before ≤ offset)
    (ends : offset + Text.byteLength piece ≤ Text.byteLength before + Text.byteLength text) :
    ∃ lead trail, text = lead ++ (piece ++ trail) ∧ offset = Text.byteLength (before ++ lead) := by
  obtain ⟨earlier, later, other, rfl⟩ := stands
  rw [same] at other
  obtain ⟨lead, rfl⟩ := Text.prefix_of_byteLength_le other starts
  rw [List.append_assoc, List.append_cancel_left_eq, ← List.append_assoc] at other
  rw [Text.byteLength_append] at ends
  have fits : Text.byteLength (lead ++ piece) ≤ Text.byteLength text := by
    rw [Text.byteLength_append]
    omega
  obtain ⟨trail, rfl⟩ := Text.prefix_of_byteLength_le other.symm fits
  exact ⟨lead, trail, List.append_assoc .., rfl⟩

end Pieces

namespace Token

variable {source : String} {token inner : Token} {capture : Capture} {grammar : Grammar}

theorem inner_place (member : token ∈ (readAll .statements source).tokens)
    (present : capture ∈ token.shape.captures)
    (within : inner ∈ (read grammar source capture.offset capture.stop).tokens) :
    ∃ before between after, source.toList = before ++ (between ++ after) ∧
      (∀ c ∈ between, Text.isLineBreak c = false) ∧
      token.site.place = Place.origin.advanceAll before ∧
      inner.site.place = Place.after (before ++ between) := by
  have split : source.toList = [] ++ (source.toList ++ []) := (List.append_nil _).symm
  have whole := read_range .statements split
  rw [Text.byteLength_nil, Nat.zero_add] at whole
  rw [readAll, whole, Place.after_nil] at member
  obtain ⟨before, text, after, same, site, found⟩ := readFrom_stands member
  have start : token.start = Text.byteLength before := by
    rw [Token.start, site, Place.advanceAll_index]
    exact Nat.zero_add _
  have here : StandsAt source token.start (text ++ after) :=
    ⟨before, [], by simp [same], start.symm⟩
  have cuts := Grammar.cuts here found
  have stands := cuts.stands capture present
  obtain ⟨starts, ends⟩ := cuts.within present
  rw [Capture.stop, Capture.byteLength, ← Text.byteLength_toList, start] at ends
  obtain ⟨lead, trail, rfl, offset⟩ := stands.inside same (start ▸ starts) ends
  have line := Grammar.line_of_captures found (List.ne_nil_of_mem present)
  -- The part is read from the place after all that stands before it.
  have range : source.toList = (before ++ lead) ++ (capture.text.toList ++ (trail ++ after)) := by
    simp [same]
  rw [Capture.stop, Capture.byteLength, ← Text.byteLength_toList, offset, read_range _ range]
    at within
  obtain ⟨gap, text, rest, inside, innerSite, -⟩ := readFrom_stands within
  rw [inside] at line same
  obtain ⟨leading, others⟩ := List.forall_mem_append.mp line
  have skipped : ∀ c ∈ gap, Text.isLineBreak c = false := fun c member => others c (by simp [member])
  refine ⟨before, lead ++ gap, text ++ rest ++ trail ++ after, by simp [same],
    List.forall_mem_append.mpr ⟨leading, skipped⟩, by rw [site], ?_⟩
  rw [innerSite, Place.after_append skipped, List.append_assoc]

end Token

/-- A token that is read from a part of another is in the same line as that token, and its column is
by so many characters further as stand between them, just where each carriage return before the token
is followed by a line feed there. -/
theorem read_part_places (source : String) :
    ∀ token ∈ (Token.readAll .statements source).tokens, ∀ capture ∈ token.shape.captures,
      ∀ grammar, ∀ inner ∈ (Token.read grammar source capture.offset capture.stop).tokens,
        token.start ≤ inner.start ∧ inner.site.place.line = token.site.place.line ∧
          (inner.site.place.column = token.site.place.column +
              (Text.sliceBytes token.start inner.start source.toList).length ↔
            Fed (Text.takeBytes token.start source.toList)) := by
  intro token member capture present grammar inner within
  obtain ⟨before, between, after, same, inLine, outer, inside⟩ :=
    Token.inner_place member present within
  have start : token.start = Text.byteLength before := by
    rw [Token.start, outer, Place.advanceAll_index]
    exact Nat.zero_add _
  have innerStart : inner.start = Text.byteLength before + Text.byteLength between := by
    rw [Token.start, inside, ← Text.byteLength_append]
    rfl
  have lead : Text.takeBytes token.start source.toList = before := by
    rw [start, same, Text.takeBytes_append]
  have slice : Text.sliceBytes token.start inner.start source.toList = between := by
    rw [start, innerStart, same, Text.sliceBytes, Nat.add_sub_cancel_left, Text.dropBytes_append,
      Text.takeBytes_append]
  have feeds : between.count '\n' = 0 :=
    List.count_eq_zero.mpr fun member => absurd (inLine _ member) (by decide)
  refine ⟨by omega, ?_, ?_⟩
  · rw [outer, inside, Place.advanceAll_line]
    simp [Place.after, Place.origin, feeds, Nat.add_comm]
  · rw [lead, slice, outer, inside, Place.after_append_column inLine, ← Place.column_eq_iff_fed]
    omega

-- The carriage return in the first line is followed by a line feed, after another character.
theorem read_part_places_call :
    ∃ token ∈ (Token.readAll .statements "a\rb\ng(1, h(π))").tokens,
      ∃ capture ∈ token.shape.captures,
        ∃ inner ∈ (Token.read .arguments "a\rb\ng(1, h(π))" capture.offset capture.stop).tokens,
          inner.site.text = "h(π)" ∧ inner.site.place.line = token.site.place.line ∧
            inner.site.place.column = token.site.place.column +
              (Text.sliceBytes token.start inner.start "a\rb\ng(1, h(π))".toList).length := by
  let token : Token := ⟨⟨"g(1, h(π))", ⟨4, 2, 1⟩⟩, .call ⟨4, "g"⟩ ⟨6, "1, h(π)"⟩⟩
  let inner : Token := ⟨⟨"h(π)", ⟨9, 2, 6⟩⟩, .call ⟨9, "h"⟩ ⟨11, "π"⟩⟩
  have outer : token ∈ (Token.readAll .statements "a\rb\ng(1, h(π))").tokens := by
    decide +kernel
  have given : ⟨6, "1, h(π)"⟩ ∈ token.shape.captures := by
    decide
  have within : inner ∈ (Token.read .arguments "a\rb\ng(1, h(π))" 6
      (Capture.stop ⟨6, "1, h(π)"⟩)).tokens := by
    decide +kernel
  have fed : Fed (Text.takeBytes token.start "a\rb\ng(1, h(π))".toList) :=
    (Place.column_eq_iff_fed _).mp (by decide +kernel)
  obtain ⟨-, line, column⟩ := read_part_places _ token outer _ given .arguments inner within
  exact ⟨token, outer, _, given, inner, within, rfl, line, column.mpr fed⟩

-- After a carriage return alone, the argument is placed as if the line had begun before it.
theorem read_part_places_returned :
    ∃ token ∈ (Token.readAll .statements "1\rf(2)").tokens, ∃ capture ∈ token.shape.captures,
      ∃ inner ∈ (Token.read .arguments "1\rf(2)" capture.offset capture.stop).tokens,
        inner.site.place.column ≠ token.site.place.column +
          (Text.sliceBytes token.start inner.start "1\rf(2)".toList).length := by
  refine ⟨⟨⟨"f(2)", ⟨2, 1, 1⟩⟩, .call ⟨2, "f"⟩ ⟨4, "2"⟩⟩, ?_, ⟨4, "2"⟩, ?_,
    ⟨⟨"2", ⟨4, 1, 5⟩⟩, .number 2⟩, ?_, ?_⟩
  all_goals decide +kernel

end FormulaSheet
