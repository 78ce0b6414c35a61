import ArtifactGC.Json.Printer
import ArtifactGC.Proofs.Digits

/-!
# Printed JSON values read back

Whatever the blanks between its tokens, a printed value is read back as itself: strings with
their escapes, numbers with the form of their literal, lists and objects with their order. The
reader counts down its steps; twice the length of the text is always enough of them. A text that
follows the value is left alone, as long as it does not continue a number.
-/

namespace ArtifactGC.Json

/-! ### Blanks -/

/-- Blanks in front of a text are skipped. -/
theorem skipSpace_append {blanks : List Char} (h : ∀ c ∈ blanks, isSpace c = true)
    (cs : List Char) : skipSpace (blanks ++ cs) = skipSpace cs :=
  List.dropWhile_append_of_pos h

/-- Nothing is skipped in front of a character that is no blank. -/
theorem skipSpace_cons {c : Char} (h : isSpace c = false) (cs : List Char) :
    skipSpace (c :: cs) = c :: cs := by
  simp [skipSpace, h]

/-- A layout that puts nothing but blanks between tokens, and a colon behind the name of a
member. -/
structure Layout.IsBlank (layout : Layout) : Prop where
  /-- The gaps are blank. -/
  gap : ∀ level, ∀ c ∈ layout.gap level, isSpace c = true
  /-- Blanks follow the colon. -/
  colon : ∃ blanks, layout.colon = ':' :: blanks ∧ ∀ c ∈ blanks, isSpace c = true

/-- The value of a member stands behind a colon and blanks. -/
theorem Layout.IsBlank.skipSpace_colon {layout : Layout} (h : layout.IsBlank) :
    ∃ blanks, (∀ c ∈ blanks, isSpace c = true) ∧
      ∀ cs, skipSpace (layout.colon ++ cs) = ':' :: (blanks ++ cs) := by
  obtain ⟨blanks, hcolon, hblanks⟩ := h.colon
  refine ⟨blanks, hblanks, fun cs => ?_⟩
  rw [hcolon, List.cons_append, skipSpace_cons (by decide)]

theorem Layout.isBlank_compact : Layout.compact.IsBlank where
  gap := by simp [Layout.compact]
  colon := ⟨[], by simp [Layout.compact]⟩

theorem Layout.isBlank_pretty : Layout.pretty.IsBlank where
  gap := by
    intro level c hc
    rcases List.mem_cons.mp hc with rfl | hc
    · decide
    · rw [List.eq_of_mem_replicate hc]
      decide
  colon := ⟨[' '], rfl, List.forall_mem_singleton.mpr rfl⟩

/-! ### Strings -/

private theorem hexValue?_hexDigit : ∀ n < 16, hexValue? (hexDigit n) = some n := by
  decide

/-- An escaped character is read as its code. -/
theorem readCodes?_escapeChar (c : Char) {rest rest' : List Char} {codes : List Nat}
    (hrest : readCodes? rest = some (codes, rest')) :
    readCodes? (escapeChar c ++ rest) = some (c.toNat :: codes, rest') := by
  unfold escapeChar
  split
  iterate 7 · simp [readCodes?, escapeValue?, hrest]
  split
  · rename_i hc
    have hhigh := hexValue?_hexDigit (c.toNat / 16) (by omega)
    have hlow := hexValue?_hexDigit (c.toNat % 16) (by omega)
    have hnumber : c.toNat / 16 * 16 + c.toNat % 16 = c.toNat := by omega
    have hzero : hexValue? '0' = some 0 := by decide
    simp [readCodes?, hhigh, hlow, hzero, hnumber, hrest]
  · rename_i hquote hslash _ _ _ _ _ hc
    rw [List.singleton_append, readCodes?.eq_def]
    split
    · contradiction
    · exact absurd (List.cons.inj ‹_›).1 hquote
    · exact absurd (List.cons.inj ‹_›).1 hslash
    · exact absurd (List.cons.inj ‹_›).1 hslash
    · obtain ⟨rfl, rfl⟩ := List.cons.inj ‹_›
      rw [if_neg hc, hrest]
      rfl

/-- The codes of characters are those of the characters; none is half of a surrogate pair. -/
theorem pairSurrogates?_toNat (cs : List Char) :
    pairSurrogates? (cs.map Char.toNat) = some cs := by
  have hcode (c : Char) : c.toNat < 0xd800 ∨ 0xdfff < c.toNat := by
    rcases c.valid with h | ⟨h, _⟩
    · exact .inl h
    · exact .inr h
  induction cs with
  | nil => rfl
  | cons c cs ih =>
    cases cs with
    | nil => simp [pairSurrogates?, hcode c]
    | cons next cs =>
      simp only [List.map_cons] at ih ⊢
      simp [pairSurrogates?, hcode c, ih]

/-- A printed string starts with a quote and reads back behind it. -/
theorem exists_stringChars (s : Option String) :
    ∃ body, stringChars s = '"' :: body ∧
      ∀ rest, readString? (body ++ rest) = some (s, rest) := by
  cases s with
  | none => exact ⟨_, rfl, fun rest => rfl⟩
  | some s =>
    refine ⟨s.toList.flatMap escapeChar ++ ['"'], rfl, fun rest => ?_⟩
    have hcodes (cs : List Char) :
        readCodes? (cs.flatMap escapeChar ++ '"' :: rest) = some (cs.map Char.toNat, rest) := by
      induction cs with
      | nil => simp [readCodes?]
      | cons c cs ih =>
        rw [List.flatMap_cons, List.append_assoc, readCodes?_escapeChar c ih]
        rfl
    rw [List.append_assoc, List.singleton_append, readString?, hcodes]
    simp [pairSurrogates?_toNat]

/-! ### Numbers -/

/-- A text that does not continue a number. -/
def EndsNumber (rest : List Char) : Prop :=
  ∀ c ∈ rest.head?, c.isDigit = false ∧ c ≠ '.' ∧ c ≠ 'e' ∧ c ≠ 'E'

theorem EndsNumber.noDigit {rest : List Char} (h : EndsNumber rest) : NoDigit rest :=
  fun c hc => (h c hc).1

@[simp] theorem endsNumber_nil : EndsNumber [] := by
  intro c hc
  cases hc

@[simp] theorem endsNumber_cons {c : Char} {rest : List Char} :
    EndsNumber (c :: rest) ↔ c.isDigit = false ∧ c ≠ '.' ∧ c ≠ 'e' ∧ c ≠ 'E' := by
  simp [EndsNumber]

/-- A text that starts with a blank does not continue a number. -/
theorem endsNumber_of_isSpace {c : Char} {rest : List Char} (h : isSpace c = true) :
    EndsNumber (c :: rest) := by
  simp only [isSpace, Bool.or_eq_true, decide_eq_true_eq] at h
  rcases h with ((rfl | rfl) | rfl) | rfl <;> exact endsNumber_cons.mpr (by decide)

/-- Whether blanks follow a value or not, what comes after them does not continue a number. -/
theorem EndsNumber.append {blanks rest : List Char} (hblanks : ∀ c ∈ blanks, isSpace c = true)
    (h : EndsNumber rest) : EndsNumber (blanks ++ rest) := by
  cases blanks with
  | nil => exact h
  | cons c blanks => exact endsNumber_of_isSpace (hblanks c List.mem_cons_self)

/-- The exponent of a literal as it is printed. -/
def exponentChars : Option Int → List Char
  | none => []
  | some e => 'e' :: (if e < 0 then '-' else '+') :: Nat.toDigits 10 e.natAbs

/-- The digits behind the point of a literal as they are printed. -/
def fractionChars (places coefficient : Nat) : List Char :=
  if places = 0 then [] else '.' :: Text.padded places (coefficient % 10 ^ places)

/-- A printed exponent reads back. -/
theorem readExponent?_exponentChars (exponent : Option Int) {rest : List Char}
    (h : EndsNumber rest) :
    readExponent? (exponentChars exponent ++ rest) = some (exponent, rest) := by
  cases exponent with
  | none =>
    cases rest with
    | nil => rfl
    | cons c rest =>
      obtain ⟨_, _, hlower, hupper⟩ := endsNumber_cons.mp h
      simp [exponentChars, readExponent?, hlower, hupper]
  | some e =>
    have hdigits (sign : Int) :
        readExponentDigits? sign (Nat.toDigits 10 e.natAbs ++ rest) =
          some (some (sign * e.natAbs), rest) := by
      rw [readExponentDigits?,
        splitDigits_append (fun _ => isDigit_of_mem_toDigits_ten) h.noDigit]
      simp [Nat.ofDigitChars_ten_toDigits]
    by_cases he : e < 0
    · have hvalue : -1 * (e.natAbs : Int) = e := by omega
      simp only [exponentChars, he, if_pos, List.cons_append, readExponent?, true_or, hdigits,
        hvalue]
    · have hvalue : (1 : Int) * e.natAbs = e := by omega
      simp only [exponentChars, he, if_neg, not_false_eq_true, List.cons_append, readExponent?,
        true_or, if_pos, hdigits, hvalue]

/-- A printed exponent does not start with a digit or a point. -/
theorem exponentChars_append (exponent : Option Int) {rest : List Char} (h : EndsNumber rest) :
    NoDigit (exponentChars exponent ++ rest) ∧
      ∀ c ∈ (exponentChars exponent ++ rest).head?, c ≠ '.' := by
  cases exponent with
  | none => exact ⟨h.noDigit, fun c hc => (h c hc).2.1⟩
  | some e => simp [exponentChars]

/-- The printed digits behind the point read back, as many as there are places. -/
theorem readFraction?_fractionChars (places coefficient : Nat) {rest : List Char}
    (hdigit : NoDigit rest) (hpoint : ∀ c ∈ rest.head?, c ≠ '.') :
    ∃ digits, readFraction? (fractionChars places coefficient ++ rest) = some (digits, rest) ∧
      digits.length = places ∧
      Nat.ofDigitChars 10 digits 0 = coefficient % 10 ^ places := by
  by_cases hplaces : places = 0
  · subst hplaces
    refine ⟨[], ?_, rfl, by simp [Nat.mod_one]⟩
    rw [fractionChars, if_pos rfl, List.nil_append]
    cases rest with
    | nil => rfl
    | cons c rest =>
      have hc : c ≠ '.' := hpoint c rfl
      rw [readFraction?.eq_def]
      split
      · simp_all
      · rfl
  · have hlength : (Text.padded places (coefficient % 10 ^ places)).length = places :=
      Text.length_padded (by omega) (Nat.mod_lt _ (Nat.pow_pos (by omega)))
    refine ⟨_, ?_, hlength, Text.ofDigitChars_padded _ _⟩
    rw [fractionChars, if_neg hplaces, List.cons_append, readFraction?,
      splitDigits_append (fun _ => Text.isDigit_of_mem_padded) hdigit]
    simp [Text.padded_ne_nil]

/-- The digits of a number in front of the point of a literal, and the rest of the literal. -/
theorem numberChars_eq (n : NumberLiteral) :
    numberChars n = (if n.negative then ['-'] else []) ++
      (Nat.toDigits 10 (n.coefficient / 10 ^ n.places) ++
        (fractionChars n.places n.coefficient ++ exponentChars n.exponent)) := by
  simp only [numberChars, fractionChars, exponentChars, List.append_assoc]
  cases n.exponent <;> rfl

/-- The literal of a number reads back behind its sign. -/
theorem readUnsigned?_digits (n : NumberLiteral) {rest : List Char} (h : EndsNumber rest) :
    readUnsigned? n.negative (Nat.toDigits 10 (n.coefficient / 10 ^ n.places) ++
      (fractionChars n.places n.coefficient ++ exponentChars n.exponent) ++ rest) =
        some (.number n, rest) := by
  obtain ⟨hdigit, hpoint⟩ := exponentChars_append n.exponent h
  obtain ⟨fraction, hfraction, hlength, hvalue⟩ :=
    readFraction?_fractionChars n.places n.coefficient hdigit hpoint
  have hnext : NoDigit (fractionChars n.places n.coefficient ++
      (exponentChars n.exponent ++ rest)) := by
    unfold fractionChars
    split
    · exact hdigit
    · exact noDigit_cons.mpr (by decide)
  have hleading : ¬ ((Nat.toDigits 10 (n.coefficient / 10 ^ n.places)).isEmpty ∨
      ((Nat.toDigits 10 (n.coefficient / 10 ^ n.places)).head? = some '0' ∧
        1 < (Nat.toDigits 10 (n.coefficient / 10 ^ n.places)).length)) := by
    rintro (hempty | ⟨hzero, hlong⟩)
    · exact Nat.toDigits_ne_nil (List.isEmpty_iff.mp hempty)
    · rw [head?_toDigits_eq_zero hzero] at hlong
      exact absurd hlong (by decide)
  have hcoefficient : Nat.ofDigitChars 10
      (Nat.toDigits 10 (n.coefficient / 10 ^ n.places) ++ fraction) 0 = n.coefficient := by
    rw [Nat.ofDigitChars_append, Nat.ofDigitChars_ten_toDigits,
      Nat.ofDigitChars_eq_ofDigitChars_zero, hlength, hvalue, Nat.div_add_mod]
  rw [List.append_assoc, List.append_assoc, readUnsigned?,
    splitDigits_append (fun _ => isDigit_of_mem_toDigits_ten) hnext]
  simp only [hleading, if_false, hfraction, readExponent?_exponentChars n.exponent h,
    Option.bind_eq_bind, Option.bind_some, hcoefficient, hlength]

/-- A printed number starts with a minus sign or a digit. -/
theorem exists_numberChars (n : NumberLiteral) :
    ∃ c cs, numberChars n = c :: cs ∧ (c = '-' ∨ c.isDigit = true) := by
  rw [numberChars_eq]
  cases n.negative with
  | true => exact ⟨'-', _, rfl, .inl rfl⟩
  | false =>
    cases hdigits : Nat.toDigits 10 (n.coefficient / 10 ^ n.places) with
    | nil => exact absurd hdigits Nat.toDigits_ne_nil
    | cons c cs =>
      exact ⟨c, _, rfl, .inr (isDigit_of_mem_toDigits_ten (hdigits ▸ List.mem_cons_self))⟩

/-- A printed number reads back. -/
theorem readNumber?_numberChars (n : NumberLiteral) {rest : List Char} (h : EndsNumber rest) :
    readNumber? (numberChars n ++ rest) = some (.number n, rest) := by
  have hread := readUnsigned?_digits n h
  rw [numberChars_eq]
  cases hsign : n.negative with
  | true =>
    rw [hsign] at hread
    exact hread
  | false =>
    rw [hsign] at hread
    rw [if_neg Bool.false_ne_true, List.nil_append, readNumber?.eq_def]
    split
    · rename_i cs hminus
      cases hdigits : Nat.toDigits 10 (n.coefficient / 10 ^ n.places) with
      | nil => exact absurd hdigits Nat.toDigits_ne_nil
      | cons c digits =>
        rw [hdigits] at hminus
        have hc : c = '-' := by simpa using (List.cons.inj hminus).1
        have hdigit : c.isDigit = true :=
          isDigit_of_mem_toDigits_ten (hdigits ▸ List.mem_cons_self)
        subst hc
        exact absurd hdigit (by decide)
    · exact hread

/-! ### Values -/

/-- A character with which a value may start. -/
private def StartsValue (c : Char) : Prop := isSpace c = false ∧ c ≠ ']' ∧ c ≠ '\x7d'

/-- A number starts a value and none of the other kinds does so with its first character. -/
private theorem startsValue_number {c : Char} (h : c = '-' ∨ c.isDigit = true) :
    StartsValue c ∧ c ≠ 'n' ∧ c ≠ 't' ∧ c ≠ 'f' ∧ c ≠ '"' ∧ c ≠ '[' ∧ c ≠ '\x7b' := by
  rcases h with rfl | h
  · exact ⟨⟨by decide, by decide, by decide⟩, by decide⟩
  · have hother (d : Char) (hd : d.isDigit = false) : c ≠ d := by
      rintro rfl
      simp [h] at hd
    refine ⟨⟨?_, hother _ (by decide), hother _ (by decide)⟩, hother _ (by decide),
      hother _ (by decide), hother _ (by decide), hother _ (by decide), hother _ (by decide),
      hother _ (by decide)⟩
    simp [isSpace, hother ' ' (by decide), hother '\n' (by decide), hother '\t' (by decide),
      hother '\r' (by decide)]

/-- A printed value starts with a character with which a value may start. -/
private theorem exists_chars (layout : Layout) (level : Nat) (j : Json) :
    ∃ c cs, j.chars layout level = c :: cs ∧ StartsValue c := by
  have hstart (c : Char) (cs : List Char) (hc : isSpace c = false ∧ c ≠ ']' ∧ c ≠ '\x7d') :
      ∃ d ds, c :: cs = d :: ds ∧ StartsValue d := ⟨c, cs, rfl, hc⟩
  cases j with
  | null => exact hstart _ _ (by decide)
  | bool b => cases b <;> exact hstart _ _ (by decide)
  | number n =>
    obtain ⟨c, cs, hcs, hc⟩ := exists_numberChars n
    exact ⟨c, cs, by rw [chars, hcs], (startsValue_number hc).1⟩
  | string s =>
    obtain ⟨body, hbody, _⟩ := exists_stringChars s
    rw [chars, hbody]
    exact hstart _ _ (by decide)
  | array items => cases items <;> exact hstart _ _ (by decide)
  | object members =>
    cases members with
    | nil => exact hstart _ _ (by decide)
    | cons m members => exact hstart _ _ (by decide)

/-- A value is read as a number when it starts like one. -/
private theorem readValue?_of_number {steps : Nat} {c : Char} {cs : List Char}
    (h : c = '-' ∨ c.isDigit = true) :
    readValue? (steps + 1) (c :: cs) = readNumber? (c :: cs) := by
  obtain ⟨⟨hspace, _, _⟩, hn, ht, hf, hquote, hlist, hobject⟩ := startsValue_number h
  rw [readValue?, skipSpace_cons hspace]
  split
  · exact absurd (List.cons.inj ‹_›).1 hn
  · exact absurd (List.cons.inj ‹_›).1 ht
  · exact absurd (List.cons.inj ‹_›).1 hf
  · exact absurd (List.cons.inj ‹_›).1 hquote
  · exact absurd (List.cons.inj ‹_›).1 hlist
  · exact absurd (List.cons.inj ‹_›).1 hobject
  · rfl

variable {layout : Layout}

/-- Blanks in front of a value change nothing. -/
private theorem readValue?_append {blanks : List Char} (h : ∀ c ∈ blanks, isSpace c = true)
    (steps : Nat) (cs : List Char) : readValue? steps (blanks ++ cs) = readValue? steps cs := by
  cases steps with
  | zero => simp [readValue?]
  | succ steps => rw [readValue?, readValue?, skipSpace_append h]

/-- Blanks in front of an item change nothing. -/
private theorem readItems?_append {blanks : List Char} (h : ∀ c ∈ blanks, isSpace c = true)
    (steps : Nat) (cs : List Char) : readItems? steps (blanks ++ cs) = readItems? steps cs := by
  cases steps with
  | zero => simp [readItems?]
  | succ steps => rw [readItems?, readItems?, readValue?_append h]

/-- Blanks in front of a member change nothing. -/
private theorem readMembers?_append {blanks : List Char} (h : ∀ c ∈ blanks, isSpace c = true)
    (steps : Nat) (cs : List Char) :
    readMembers? steps (blanks ++ cs) = readMembers? steps cs := by
  cases steps with
  | zero => simp [readMembers?]
  | succ steps => rw [readMembers?, readMembers?, skipSpace_append h]

/-- Printed values read back within a number of steps. -/
private def ReadsValues (layout : Layout) (steps : Nat) : Prop :=
  ∀ level j rest, EndsNumber rest → 2 * (j.chars layout level).length + 1 ≤ steps →
    readValue? steps (j.chars layout level ++ rest) = some (j, rest)

/-- Printed items read back within a number of steps, together with the bracket that closes
their list. -/
private def ReadsItems (layout : Layout) (steps : Nat) : Prop :=
  ∀ level item items gap rest, (∀ c ∈ gap, isSpace c = true) →
    2 * ((item.chars layout level).length +
      (chars.laterItems layout level items).length) + 2 ≤ steps →
    readItems? steps (item.chars layout level ++
      (chars.laterItems layout level items ++ (gap ++ ']' :: rest))) = some (item :: items, rest)

/-- Printed members read back within a number of steps, together with the bracket that closes
their object. -/
private def ReadsMembers (layout : Layout) (steps : Nat) : Prop :=
  ∀ level name value members gap rest, (∀ c ∈ gap, isSpace c = true) →
    2 * ((value.chars layout level).length +
      (chars.laterMembers layout level members).length) + 2 ≤ steps →
    readMembers? steps (stringChars name ++ (layout.colon ++ (value.chars layout level ++
      (chars.laterMembers layout level members ++ (gap ++ '\x7d' :: rest))))) =
        some ((name, value) :: members, rest)

private theorem readsValues_succ (hlayout : layout.IsBlank) {steps : Nat}
    (hitems : ReadsItems layout steps) (hmembers : ReadsMembers layout steps) :
    ReadsValues layout (steps + 1) := by
  intro level j rest hrest hsteps
  cases j with
  | null => rfl
  | bool b => cases b <;> rfl
  | number n =>
    obtain ⟨c, cs, hcs, hc⟩ := exists_numberChars n
    have hread := readNumber?_numberChars n hrest
    rw [hcs, List.cons_append] at hread
    rw [chars, hcs, List.cons_append, readValue?_of_number hc, hread]
  | string s =>
    obtain ⟨body, hbody, hread⟩ := exists_stringChars s
    rw [chars, hbody, List.cons_append, readValue?, skipSpace_cons (by decide)]
    simp [hread]
  | array items =>
    cases items with
    | nil => rfl
    | cons item items =>
      simp only [chars, List.cons_append, List.append_assoc, List.nil_append, List.length_cons,
        List.length_append] at hsteps ⊢
      have hread := hitems (level + 1) item items (layout.gap level) rest (hlayout.gap level)
        (by omega)
      obtain ⟨c, cs, hcs, hspace, hclose, _⟩ := exists_chars layout (level + 1) item
      rw [hcs, List.cons_append] at hread ⊢
      simp only [readValue?, skipSpace_cons (show isSpace '[' = false by decide),
        skipSpace_append (hlayout.gap (level + 1)), skipSpace_cons hspace]
      split
      · exact absurd (List.cons.inj ‹_›).1 hclose
      · rw [hread]
        rfl
  | object members =>
    cases members with
    | nil => rfl
    | cons member members =>
      obtain ⟨name, value⟩ := member
      simp only [chars, List.cons_append, List.append_assoc, List.nil_append, List.length_cons,
        List.length_append] at hsteps ⊢
      have hread := hmembers (level + 1) name value members (layout.gap level) rest
        (hlayout.gap level) (by omega)
      obtain ⟨body, hbody, _⟩ := exists_stringChars name
      rw [hbody, List.cons_append] at hread ⊢
      simp only [readValue?, skipSpace_cons (show isSpace '\x7b' = false by decide),
        skipSpace_append (hlayout.gap (level + 1)),
        skipSpace_cons (show isSpace '"' = false by decide)]
      simp [hread]

private theorem readsItems_succ (hlayout : layout.IsBlank) {steps : Nat}
    (hvalues : ReadsValues layout steps) (hitems : ReadsItems layout steps) :
    ReadsItems layout (steps + 1) := by
  intro level item items gap rest hgap hsteps
  cases items with
  | nil =>
    simp only [chars.laterItems, List.length_nil, List.nil_append] at hsteps ⊢
    have hitem := hvalues level item (gap ++ ']' :: rest)
      (.append hgap (endsNumber_cons.mpr (by decide))) (by omega)
    simp [readItems?, hitem, skipSpace_append hgap,
      skipSpace_cons (show isSpace ']' = false by decide)]
  | cons next items =>
    simp only [chars.laterItems, List.cons_append, List.append_assoc, List.length_cons,
      List.length_append] at hsteps ⊢
    have hitem := hvalues level item (',' :: (layout.gap level ++ (next.chars layout level ++
      (chars.laterItems layout level items ++ (gap ++ ']' :: rest)))))
      (endsNumber_cons.mpr (by decide)) (by omega)
    have hlater := hitems level next items gap rest hgap (by omega)
    simp [readItems?, hitem, skipSpace_cons (show isSpace ',' = false by decide),
      readItems?_append (hlayout.gap level), hlater]

private theorem readsMembers_succ (hlayout : layout.IsBlank) {steps : Nat}
    (hvalues : ReadsValues layout steps) (hmembers : ReadsMembers layout steps) :
    ReadsMembers layout (steps + 1) := by
  intro level name value members gap rest hgap hsteps
  obtain ⟨body, hbody, hname⟩ := exists_stringChars name
  obtain ⟨blanks, hblanks, hcolon⟩ := hlayout.skipSpace_colon
  have hquote := skipSpace_cons (show isSpace '"' = false by decide)
  cases members with
  | nil =>
    simp only [chars.laterMembers, List.length_nil, List.nil_append] at hsteps ⊢
    have hvalue := hvalues level value (gap ++ '\x7d' :: rest)
      (.append hgap (endsNumber_cons.mpr (by decide))) (by omega)
    simp [readMembers?, hbody, hquote, hname, hcolon, readValue?_append hblanks, hvalue,
      skipSpace_append hgap, skipSpace_cons (show isSpace '\x7d' = false by decide)]
  | cons next members =>
    obtain ⟨nextName, next⟩ := next
    simp only [chars.laterMembers, List.cons_append, List.append_assoc, List.length_cons,
      List.length_append] at hsteps ⊢
    have hvalue := hvalues level value (',' :: (layout.gap level ++ (stringChars nextName ++
      (layout.colon ++ (next.chars layout level ++
        (chars.laterMembers layout level members ++ (gap ++ '\x7d' :: rest)))))))
      (endsNumber_cons.mpr (by decide)) (by omega)
    have hlater := hmembers level nextName next members gap rest hgap (by omega)
    simp [readMembers?, hbody, hquote, hname, hcolon, readValue?_append hblanks, hvalue,
      skipSpace_cons (show isSpace ',' = false by decide),
      readMembers?_append (hlayout.gap level), hlater]

/-- Every reader reads what was printed. Items and members are read with one step less than the
value that holds them, so the three are proved together by induction on the steps. -/
private theorem reads (hlayout : layout.IsBlank) (steps : Nat) :
    ReadsValues layout steps ∧ ReadsItems layout steps ∧ ReadsMembers layout steps := by
  induction steps with
  | zero =>
    refine ⟨?_, ?_, ?_⟩
    · intro level j rest hrest hsteps
      omega
    · intro level item items gap rest hgap hsteps
      omega
    · intro level name value members gap rest hgap hsteps
      omega
  | succ steps ih =>
    obtain ⟨hvalues, hitems, hmembers⟩ := ih
    exact ⟨readsValues_succ hlayout hitems hmembers, readsItems_succ hlayout hvalues hitems,
      readsMembers_succ hlayout hvalues hmembers⟩

/-- A printed value is the only value of its text, blanks behind it apart. -/
theorem parse?_chars (hlayout : layout.IsBlank) (j : Json) (blanks : List Char)
    (hblanks : ∀ c ∈ blanks, isSpace c = true) :
    parse? (.ofList (j.chars layout 0 ++ blanks)) = some j := by
  have hends : EndsNumber blanks := by
    have happend := EndsNumber.append hblanks endsNumber_nil
    rwa [List.append_nil] at happend
  have hread : readValue? (2 * (j.chars layout 0 ++ blanks).length + 1)
      (j.chars layout 0 ++ blanks) = some (j, blanks) := by
    apply (reads hlayout _).1 0 j blanks hends
    simp only [List.length_append]
    omega
  have hskip : skipSpace blanks = [] := by
    have happend := skipSpace_append hblanks []
    rwa [List.append_nil] at happend
  simp only [parse?, String.toList_ofList, hread, Option.bind_eq_bind, Option.bind_some, hskip,
    List.isEmpty_nil, if_true]

/-- A value reads back from its text without blanks. -/
@[simp] theorem parse?_compact (j : Json) : parse? j.compact = some j := by
  have hread := parse?_chars Layout.isBlank_compact j [] (by simp)
  rwa [List.append_nil] at hread

/-- A value reads back from its text with one line per item or member. -/
@[simp] theorem parse?_pretty (j : Json) : parse? j.pretty = some j := by
  have hread := parse?_chars Layout.isBlank_pretty j [] (by simp)
  rwa [List.append_nil] at hread

end ArtifactGC.Json
