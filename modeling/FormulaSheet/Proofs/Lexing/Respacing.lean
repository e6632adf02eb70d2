import FormulaSheet.Proofs.Context.Lines
import FormulaSheet.Proofs.Lexing.Failing
import FormulaSheet.Proofs.Lexing.Spacing
import FormulaSheet.Proofs.Places.Parts
import Mathlib.Logic.Relation

set_option autoImplicit false

namespace FormulaSheet

namespace Token

variable {grammar : Grammar} {place : Place} {text gap after cs consumed rest : List Char}
  {shape : Shape} {tokens earlier later : List Token} {failure : Option Failure}

section Seams

theorem Seam.of_last {p : Char → Bool} (refused : ∀ c, p c → c.isAlpha = false)
    (last : ∀ c ∈ text.getLast?, p c) : Seam text after := by
  intro c member d _ letter
  rw [refused c (last c member)] at letter
  contradiction

theorem Seam.of_next (next : ∀ d ∈ after.head?, d.isAlpha = false) : Seam text after :=
  fun _ _ d first _ => next d first

theorem Seam.prepend (seam : Seam text after) (filled : text ≠ []) (before : List Char) :
    Seam (before ++ text) after := by
  rwa [Seam, List.getLast?_append_of_ne_nil before filled]

theorem isAlpha_of_isLineBreak {c : Char} (ends : Text.isLineBreak c) : c.isAlpha = false := by
  simp only [Text.isLineBreak, Bool.or_eq_true, decide_eq_true_eq] at ends
  rcases ends with rfl | rfl <;> decide

theorem isAlpha_of_isNumberText {c : Char} (number : isNumberText c) : c.isAlpha = false := by
  have other := isNameStart_of_isNumberText number
  simp only [isNameStart, Bool.or_eq_false_iff] at other
  exact other.2

theorem Ended.isAlpha (ended : Ended rest) : ∀ d ∈ rest.head?, d.isAlpha = false := by
  intro d first
  rcases ended d first with ends | rfl
  · exact isAlpha_of_isLineBreak ends
  · decide

theorem Spelled.seam (h : Spelled shape consumed rest) : Seam consumed rest := by
  have closing : Seam [')'] rest := .of_last (p := fun c => !c.isAlpha) (by simp) (by simp)
  cases h with
  | function _ _ _ ended | plot _ _ ended | sequence _ _ ended | longSequence _ _ ended =>
    exact .of_next ended.isAlpha
  | @call callee arguments gap =>
    simpa using closing.prepend (by simp)
      (callee.text.toList ++ (gap ++ '(' :: arguments.text.toList))
  | @query _ arguments before =>
    simpa using closing.prepend (by simp) (before ++ '(' :: arguments.text.toList)
  | name _ _ stops =>
    refine .of_next fun d first => ?_
    have stop := stops d first
    simp only [isNameRest, Char.isAlphanum, Bool.or_eq_false_iff] at stop
    exact stop.2.1
  | number digits =>
    exact .of_last (fun _ => isAlpha_of_isNumberText)
      fun c last => digits c (List.mem_of_getLast? last)
  | newline _ breaks =>
    exact .of_last (fun _ => isAlpha_of_isLineBreak)
      fun c last => breaks c (List.mem_of_getLast? last)
  | operator operation =>
    refine .of_last (p := fun c => !c.isAlpha) (by simp) ?_
    cases operation <;> simp [Operation.symbol]
  | comma | opening | closing | equals =>
    exact .of_last (p := fun c => !c.isAlpha) (by simp) (by simp)

end Seams

section Before

inductive ReadsBefore (grammar : Grammar) (after : List Char) :
    Place → List Char → List Token → Prop
  | done (place : Place) : ReadsBefore grammar after place [] []
  | blank {place : Place} {c : Char} {cs : List Char} {tokens : List Token} : Text.isBlank c →
      ReadsBefore grammar after (place.advance c) cs tokens →
      ReadsBefore grammar after place (c :: cs) tokens
  | token {place : Place} {c : Char} {cs consumed rest : List Char} {shape : Shape}
      {tokens : List Token} : Text.isBlank c = false →
      grammar.match? place.index (c :: cs ++ after) = some ⟨.ok shape, consumed, rest ++ after⟩ →
      ReadsBefore grammar after (place.advanceAll consumed) rest tokens →
      ReadsBefore grammar after place (c :: cs)
        (⟨⟨String.ofList consumed, place⟩, shape⟩ :: tokens)

theorem Scanned.none_before (h : Scanned grammar place cs (earlier ++ later) failure)
    (left : ∀ token ∈ earlier.getLast?, token.stop ≤ place.index) : earlier = [] := by
  cases last : earlier.getLast? with
  | none => exact List.getLast?_eq_none_iff.mp last
  | some token =>
    have ends := left token last
    have begins := h.begins token (List.mem_append_left _ (List.mem_of_getLast? last))
    omega

theorem Scanned.stop_le (h : Scanned grammar place cs (earlier ++ later) failure) {first : Token}
    {bound : Nat} (ends : first.stop ≤ place.index)
    (left : ∀ token ∈ (first :: earlier).getLast?, token.stop ≤ bound) : first.stop ≤ bound := by
  cases last : earlier.getLast? with
  | none =>
    rw [List.getLast?_eq_none_iff.mp last] at left
    exact left first rfl
  | some token =>
    have inTime := left token (by rw [List.getLast?_cons, last]; rfl)
    have begins := h.begins token (List.mem_append_left _ (List.mem_of_getLast? last))
    omega

theorem eq_nil_of_byteLength {offset : Nat} (short : offset + Text.byteLength text ≤ offset) :
    text = [] := by
  have counted := Text.length_le_byteLength text
  exact List.length_eq_zero_iff.mp (by omega)

theorem Scanned.before (h : Scanned grammar place (text ++ after) (earlier ++ later) failure)
    (left : ∀ token ∈ earlier.getLast?, token.stop ≤ place.index + Text.byteLength text)
    (right : ∀ token ∈ later.head?, place.index + Text.byteLength text ≤ token.start)
    (failing : later = [] → ∀ stopped ∈ failure,
      place.index + Text.byteLength text ≤ stopped.site.place.index) :
    ReadsBefore grammar after place text earlier := by
  generalize whole : text ++ after = cs at h
  generalize all : earlier ++ later = tokens at h
  induction h generalizing text earlier with
  | done =>
    obtain ⟨rfl, -⟩ := List.append_eq_nil_iff.mp whole
    obtain ⟨rfl, -⟩ := List.append_eq_nil_iff.mp all
    exact .done _
  | unreadable | refused =>
    obtain ⟨rfl, rfl⟩ := List.append_eq_nil_iff.mp all
    obtain rfl := eq_nil_of_byteLength (failing rfl _ rfl)
    exact .done _
  | @blank place c cs tokens failure blank scanned ih =>
    cases text with
    | nil =>
      subst all
      obtain rfl := (Scanned.blank blank scanned).none_before left
      exact .done _
    | cons d text =>
      obtain ⟨rfl, same⟩ := List.cons.inj whole
      have further : (place.advance d).index + Text.byteLength text =
          place.index + Text.byteLength (d :: text) := Nat.add_assoc ..
      refine .blank blank (ih ?_ ?_ ?_ same all)
      · rwa [further]
      · rwa [further]
      · rwa [further]
  | @token place c cs consumed rest shape tokens failure filled found scanned ih =>
    cases earlier with
    | nil =>
      subst all
      obtain rfl := eq_nil_of_byteLength (right _ rfl)
      exact .done _
    | cons first earlier =>
      obtain ⟨rfl, rfl⟩ := List.cons.inj all
      have size : stop ⟨⟨String.ofList consumed, place⟩, shape⟩ =
          place.index + Text.byteLength consumed := by
        rw [stop, start, ← Text.byteLength_toList, String.toList_ofList]
      -- The last token ends in time, so this one does, and lies within the text.
      have inTime := scanned.stop_le (by rw [size, Place.advanceAll_index]) left
      have fits : Text.byteLength consumed ≤ Text.byteLength text := by omega
      have split : consumed ++ rest = text ++ after :=
        (Grammar.match?_append found).trans whole.symm
      obtain ⟨more, rfl⟩ := Text.prefix_of_byteLength_le split fits
      have following : rest = more ++ after := by
        rwa [List.append_assoc, List.append_cancel_left_eq] at split
      subst following
      have further : (place.advanceAll consumed).index + Text.byteLength more =
          place.index + Text.byteLength (consumed ++ more) := by
        rw [Place.advanceAll_index, Text.byteLength_append, Nat.add_assoc]
      have reads : ReadsBefore grammar after (place.advanceAll consumed) more earlier := by
        refine ih (fun token last => ?_) ?_ ?_ rfl rfl
        · rw [further]
          exact left token (by rw [List.getLast?_cons, Option.mem_def.mp last]; rfl)
        · rwa [further]
        · rwa [further]
      have taken := Grammar.byteLength_pos found
      cases consumed with
      | nil => contradiction
      | cons d consumed =>
        obtain ⟨rfl, rfl⟩ := List.cons.inj whole
        exact .token filled found reads

theorem Grammar.match?_split {offset : Nat}
    (found : grammar.match? offset (cs ++ after) = some ⟨.ok shape, consumed, rest ++ after⟩) :
    consumed ++ rest = cs := by
  have whole : consumed ++ (rest ++ after) = cs ++ after := Grammar.match?_append found
  rwa [← List.append_assoc, List.append_cancel_right_eq] at whole

theorem ReadsBefore.readFrom_eq (h : ReadsBefore grammar after place text tokens) (source : String) :
    readFrom grammar source place (text ++ after) =
      (readFrom grammar source (place.advanceAll text) after).prepend tokens := by
  induction h with
  | done => rfl
  | blank blank _ ih =>
    rw [List.cons_append, readFrom_blank blank, ih]
    rfl
  | @token place c cs consumed rest shape tokens filled found _ ih =>
    have split := Grammar.match?_split found
    refine (readFrom_token filled found).trans ?_
    rw [ih, ← split, Place.advanceAll_append]
    rfl

theorem ReadsBefore.seam (h : ReadsBefore grammar after place text tokens) : Seam text after := by
  induction h with
  | done => exact fun _ => nofun
  | @blank place c cs tokens blank _ ih =>
    by_cases filled : cs = []
    · subst filled
      exact .of_last (fun _ => isAlpha_of_isBlank) (by simpa using blank)
    · exact ih.prepend filled [c]
  | @token place c cs consumed rest shape tokens filled found _ ih =>
    have split := Grammar.match?_split found
    rw [← split]
    by_cases more : rest = []
    · subst more
      simpa using (Grammar.spelled found).seam
    · exact ih.prepend more consumed

theorem ReadsBefore.none (h : ReadsBefore grammar after place [] tokens) : tokens = [] := by
  cases h
  rfl

theorem ReadsBefore.spaced (h : ReadsBefore grammar after place text tokens) (blank : Blank gap)
    (plain : ∀ token ∈ tokens.getLast?, ∀ outline, token.shape ≠ .definition outline) :
    ReadsBefore grammar (gap ++ after) place text tokens := by
  induction h with
  | done => exact .done _
  | blank space _ ih => exact .blank space (ih plain)
  | @token place c cs consumed rest shape tokens filled found later ih =>
    have split := Grammar.match?_split found
    have seam := (ReadsBefore.token filled found later).seam
    refine .token filled ?_ (ih fun token last => plain token ?_)
    · rw [← split] at found seam ⊢
      refine Grammar.match?_spaced blank seam found ?_
      rintro rfl
      cases later.none
      exact plain _ rfl
    · rw [List.getLast?_cons, Option.mem_def.mp last]
      rfl

end Before

section Whole

/-- Blanks are put into the source where the tokens that are read first have ended, the last of them
no definition, and where nothing that is read after them has begun. -/
structure SpacedAt (grammar : Grammar) (source spaced : String) (before gap after : List Char)
    (earlier later : List Token) : Prop where
  joined : source.toList = before ++ after
  parted : spaced.toList = before ++ (gap ++ after)
  blank : Blank gap
  tokens : (readAll grammar source).tokens = earlier ++ later
  left : ∀ token ∈ earlier.getLast?, token.stop ≤ Text.byteLength before ∧
    ∀ outline, token.shape ≠ .definition outline
  right : ∀ token ∈ later.head?, Text.byteLength before ≤ token.start
  failing : later = [] → ∀ error ∈ (readAll grammar source).failure,
    ∀ position ∈ error.position?, Text.byteLength before ≤ position.place.index

def Spaces (grammar : Grammar) (source spaced : String) : Prop :=
  ∃ before gap after earlier later, SpacedAt grammar source spaced before gap after earlier later

/-- The same fault of the grammar, found at the same text and as far from the end of the source. -/
inductive Refound (source source' : String) : Error → Error → Prop
  | grammar {fault : GrammarFault} {position position' : Position} :
      position'.site.text = position.site.text →
      position'.place.index + Text.byteLength source.toList =
        position.place.index + Text.byteLength source'.toList →
      Refound source source' (.grammar fault position) (.grammar fault position')

/-- The second source is read as the same tokens, apart from their places, and fails as the first
does. -/
structure ReadsAs (grammar : Grammar) (source source' : String) : Prop where
  tokens : (readAll grammar source').tokens.map unplaced =
    (readAll grammar source).tokens.map unplaced
  failure : Option.Rel (Refound source source') (readAll grammar source).failure
    (readAll grammar source').failure

variable {source source' source'' spaced : String} {before : List Char}

theorem Failure.Shifted.refound {first second : Option Failure} {offset offset' : Nat}
    (h : Option.Rel (Shifted offset offset') first second)
    (same : offset' + Text.byteLength source.toList = offset + Text.byteLength source'.toList) :
    Option.Rel (Refound source source') (first.map (·.error source))
      (second.map (·.error source')) := by
  cases h with
  | none => exact .none
  | @some failure failure' shifted =>
    obtain ⟨fault, text, index⟩ := shifted
    obtain ⟨fault', site'⟩ := failure'
    cases fault
    simp only at index
    refine .some (.grammar text ?_)
    simp only [Position.place, Site.locate]
    omega

theorem Scanned.readAll_eq (h : Scanned grammar .origin source.toList tokens failure) :
    readAll grammar source = ⟨tokens, failure.map (·.error source)⟩ :=
  (Sheet.readAll_eq grammar source).trans (h.readFrom_eq source)

theorem readFrom_blanks (blank : Blank gap) (source : String) (place : Place) :
    readFrom grammar source place (gap ++ cs) =
      readFrom grammar source (place.advanceAll gap) cs := by
  induction gap generalizing place with
  | nil => rfl
  | cons c gap ih =>
    obtain ⟨first, later⟩ := List.forall_mem_cons.mp blank
    exact (readFrom_blank first).trans (ih later _)

theorem SpacedAt.reads
    (h : SpacedAt grammar source spaced before gap after earlier later) :
    ReadsBefore grammar after .origin before earlier := by
  obtain ⟨tokens, failure, scanned⟩ := exists_scanned grammar .origin source.toList
  have read := scanned.readAll_eq
  have same : tokens = earlier ++ later := by rw [← h.tokens, read]
  have start : Place.origin.index + Text.byteLength before = Text.byteLength before :=
    Nat.zero_add _
  subst same
  rw [h.joined] at scanned
  refine scanned.before (fun token last => ?_) (fun token first => ?_) fun empty stopped member => ?_
  · rw [start]
    exact (h.left token last).1
  · rw [start]
    exact h.right token first
  · have failed : stopped.error source ∈ (readAll grammar source).failure := by
      rw [read, Option.mem_def.mp member]
      rfl
    have further := h.failing empty _ failed _ rfl
    simp only [Position.place, Site.locate] at further
    omega

theorem SpacedAt.readsAs
    (h : SpacedAt grammar source spaced before gap after earlier later) :
    ReadsAs grammar source spaced := by
  obtain ⟨tokens, failure, scanned⟩ :=
    exists_scanned grammar (Place.origin.advanceAll before) after
  have here : StandsAt source (Place.origin.advanceAll before).index after := by
    refine ⟨before, [], by rw [h.joined, List.append_nil], ?_⟩
    rw [Place.advanceAll_index]
    exact (Nat.zero_add _).symm
  have there : StandsAt spaced ((Place.origin.advanceAll before).advanceAll gap).index after := by
    refine ⟨before ++ gap, [], by rw [h.parted, List.append_nil, List.append_assoc], ?_⟩
    rw [← Place.advanceAll_append, Place.advanceAll_index]
    exact (Nat.zero_add _).symm
  obtain ⟨tokens', failure', scanned', same, shifted⟩ := scanned.moved here there
  have read : readAll grammar source = ⟨earlier ++ tokens, failure.map (·.error source)⟩ := by
    rw [Sheet.readAll_eq, h.joined, h.reads.readFrom_eq, scanned.readFrom_eq]
    rfl
  have read' : readAll grammar spaced = ⟨earlier ++ tokens', failure'.map (·.error spaced)⟩ := by
    have reads := h.reads.spaced h.blank fun token last => (h.left token last).2
    rw [Sheet.readAll_eq, h.parted, reads.readFrom_eq, readFrom_blanks h.blank,
      scanned'.readFrom_eq]
    rfl
  constructor
  · rw [read, read', List.map_append, List.map_append, same]
  · rw [read, read']
    refine Failure.Shifted.refound shifted ?_
    simp only [h.joined, h.parted, Text.byteLength_append, Place.advanceAll_index]
    omega

theorem ReadsAs.refl (grammar : Grammar) (source : String) : ReadsAs grammar source source := by
  refine ⟨rfl, ?_⟩
  obtain ⟨tokens, failure, scanned⟩ := exists_scanned grammar .origin source.toList
  have same : Option.Rel (Failure.Shifted 0 0) failure failure := by
    cases failure with
    | none => exact .none
    | some => exact .some ⟨rfl, rfl, rfl⟩
  rw [scanned.readAll_eq]
  exact Failure.Shifted.refound same rfl

theorem Refound.trans {first second third : Error} (h : Refound source source' first second)
    (later : Refound source' source'' second third) : Refound source source'' first third := by
  cases h with
  | grammar text index =>
    cases later with
    | grammar text' index' => exact .grammar (text'.trans text) (by omega)

theorem ReadsAs.trans (h : ReadsAs grammar source source')
    (later : ReadsAs grammar source' source'') : ReadsAs grammar source source'' := by
  refine ⟨later.tokens.trans h.tokens, ?_⟩
  have first := h.failure
  have second := later.failure
  generalize (readAll grammar source).failure = one at first
  generalize (readAll grammar source').failure = two at first second
  generalize (readAll grammar source'').failure = three at second
  cases first with
  | none =>
    cases second
    exact .none
  | some same =>
    cases second with
    | some again => exact .some (same.trans again)

/-- Blanks may be put before the first token and between tokens of which the first is no definition,
at one place after another. -/
theorem readsAs_of_spaced (h : Relation.ReflTransGen (Spaces grammar) source spaced) :
    ReadsAs grammar source spaced := by
  induction h with
  | refl => exact .refl grammar source
  | tail _ step ih =>
    obtain ⟨before, gap, after, earlier, later, spaced⟩ := step
    exact ih.trans spaced.readsAs

-- Between the two operands of the addition; the reading fails at the dollar sign.
theorem readsAs_of_spaced_sum :
    Relation.ReflTransGen (Spaces .statements) "f(x)=x\na+S?(b)$" "f(x)=x\na \t+S?(b)$" ∧
      ReadsAs .statements "f(x)=x\na+S?(b)$" "f(x)=x\na \t+S?(b)$" ∧
      (readAll .statements "f(x)=x\na \t+S?(b)$").tokens.map (·.site) =
        [⟨"f(x)=x", ⟨0, 1, 1⟩⟩, ⟨"\n", ⟨6, 1, 7⟩⟩, ⟨"a", ⟨7, 2, 1⟩⟩, ⟨"+", ⟨10, 2, 4⟩⟩,
          ⟨"S?(b)", ⟨11, 2, 5⟩⟩] ∧
      (readAll .statements "f(x)=x\na \t+S?(b)$").failure =
        some (.grammar (.unreadable '$') ⟨⟨"$", ⟨16, 2, 10⟩⟩, "a \t+S?(b)$"⟩) := by
  have spaced : SpacedAt .statements "f(x)=x\na+S?(b)$" "f(x)=x\na \t+S?(b)$"
      "f(x)=x\na".toList [' ', '\t'] "+S?(b)$".toList
      ((readAll .statements "f(x)=x\na+S?(b)$").tokens.take 3)
      ((readAll .statements "f(x)=x\na+S?(b)$").tokens.drop 3) :=
    { joined := by decide
      parted := by decide
      blank := List.all_eq_true.mp (by decide)
      tokens := (List.take_append_drop 3 _).symm
      left := by
        have last : ((readAll .statements "f(x)=x\na+S?(b)$").tokens.take 3).getLast? =
            some ⟨⟨"a", ⟨7, 2, 1⟩⟩, .name⟩ := by decide +kernel
        rw [last]
        rintro _ ⟨⟩
        exact ⟨by decide, by rintro _ ⟨⟩⟩
      right := by decide +kernel
      failing := fun empty => absurd empty (by decide +kernel) }
  have spaces : Relation.ReflTransGen (Spaces .statements) _ _ :=
    .single ⟨_, _, _, _, _, spaced⟩
  exact ⟨spaces, readsAs_of_spaced spaces, by decide +kernel, by decide +kernel⟩

end Whole

end Token

end FormulaSheet
