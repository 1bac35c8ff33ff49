import EntityDiagram.Proofs.Source.LexemeText
import EntityDiagram.Proofs.Source.NumeralSpelling
import Mathlib.Algebra.Group.Nat.Defs
import Mathlib.Data.List.Basic

/-!
# Reading quoted texts

Whatever decodes to a text is read as the text, so decoding says exactly what is read. The quoted form
of a text decodes to it: the escapes of two and of four hexadecimal digits stand for the characters with
these code points. The escape of eight digits is not one that is read, so the law is about texts that need
none: their characters above U+FFFF are printable. All surrogates lie below.
-/

namespace EntityDiagram.Text

/-- The quoted form of the text needs no escape of eight digits. -/
def IsQuotable (text : List Character) : Prop :=
  ∀ c ∈ text, 0xFFFF < c.code → c.isIn isPrintable = true

end EntityDiagram.Text

namespace EntityDiagram.Source

open Text (hexEscape hexPadded hexValue? isPrintable IsQuotable quotedChar quotedScalar quoteFor)

/-! ## Hexadecimal digits -/

theorem length_hexPadded
    {width n : Nat} (hwidth : 0 < width) (hn : n < 16 ^ width) :
    (hexPadded width n).length = width := by
  have hlength : (Nat.toDigits 16 n).length ≤ width :=
    (Nat.length_toDigits_le_iff (by decide) hwidth).mpr hn
  simp only [hexPadded, List.length_append, List.length_replicate]
  omega

theorem forall_mem_hexPadded
    {width n : Nat} :
    ∀ d ∈ hexPadded width n, Text.isHex d = true := by
  intro d hd
  rw [hexPadded, List.mem_append] at hd
  rcases hd with hzero | hdigit
  · obtain rfl := List.eq_of_mem_replicate hzero
    rfl
  · exact Numeral.forall_mem_toDigits (by decide) (P := fun d => Text.isHex d = true) (by decide) n d
      hdigit

/-- Zeros in front do not change a number. -/
theorem ofDigits_zeros
    (base count : Nat) (digits : List Nat) :
    Numeral.ofDigits base (List.replicate count 0 ++ digits) = Numeral.ofDigits base digits := by
  induction count with
  | zero => rw [List.replicate_zero, List.nil_append]
  | succ count ih =>
    rw [List.replicate_succ, List.cons_append, ← ih]
    simp [Numeral.ofDigits]

/-- Padded digits stand for the number that they were made from. -/
theorem ofDigits_hexPadded
    (width n : Nat) :
    Numeral.ofDigits 16 ((hexPadded width n).filterMap hexValue?) = n := by
  have hzero : hexValue? '0' = some 0 := by decide
  rw [hexPadded, List.filterMap_append, List.filterMap_replicate_of_some hzero, ofDigits_zeros]
  exact Numeral.ofDigits_filterMap_toDigits (by decide) Numeral.hexValue?_digitChar n

/-! ## Escapes -/

theorem ofCode?_code
    (c : Character) :
    Character.ofCode? c.code = some c :=
  Character.ofCode?_eq_some_iff.mpr rfl

/-- Digits with the value of a code point are read as its character. -/
theorem hexNumber?_bind_ofCode?_eq
    {digits : List Char} {c : Character} (hdigits : ∀ d ∈ digits, Text.isHex d = true)
    (hvalue : c.code = Numeral.ofDigits 16 (digits.filterMap hexValue?)) :
    (hexNumber? digits.length digits).bind Character.ofCode? = some c := by
  rw [hexNumber?, if_pos ⟨rfl, List.filterMap_length_eq_length.mpr hdigits⟩, ← hvalue]
  exact ofCode?_code c

/-- What stands in front of a text and has a certain width is taken and dropped. -/
theorem take_drop_left
    {width : Nat} {front : List Char} (hwidth : front.length = width) (behind : List Char) :
    (front ++ behind).take width = front ∧ (front ++ behind).drop width = behind := by
  subst hwidth
  exact ⟨List.take_left, List.drop_left⟩

/-- An escape of a code point is read as its character, whatever is behind it. -/
theorem EscapesCodePoint.codePointEscape?_eq
    {letter : Char} {escape : List Char} {c : Character} (h : EscapesCodePoint (letter :: escape) c)
    (behind : List Char) :
    codePointEscape? letter (escape ++ behind) = some (c, behind) := by
  have hbrace : Text.isHex '\x7b' = false ∧ Text.isHex '\x7d' = false := by decide
  generalize hwhole : letter :: escape = whole at h
  cases h with
  | @short digits _ hlength hdigits hvalue =>
    obtain ⟨rfl, rfl⟩ := List.cons.inj hwhole
    obtain ⟨htake, hdrop⟩ := take_drop_left hlength behind
    have hread := hexNumber?_bind_ofCode?_eq hdigits hvalue
    rw [hlength] at hread
    rw [codePointEscape?.eq_def, if_pos rfl, htake, hdrop, hread]
    rfl
  | @long digits _ hlength hdigits hvalue =>
    obtain ⟨rfl, rfl⟩ := List.cons.inj hwhole
    obtain ⟨htake, hdrop⟩ := take_drop_left hlength behind
    have hread := hexNumber?_bind_ofCode?_eq hdigits hvalue
    rw [hlength] at hread
    rw [codePointEscape?.eq_def, if_neg (by decide)]
    split
    · rename_i body hopen
      -- A brace would be the first of the digits.
      cases escape with
      | nil => cases hlength
      | cons d more =>
        obtain ⟨rfl, -⟩ := List.cons.inj hopen
        exact absurd (hdigits _ List.mem_cons_self) (Bool.eq_false_iff.mp hbrace.1)
    · rw [htake, hdrop, hread]
      rfl
  | @braced digits _ hnonempty hdigits hvalue =>
    obtain ⟨rfl, rfl⟩ := List.cons.inj hwhole
    have hread := hexNumber?_bind_ofCode?_eq hdigits hvalue
    have htake : (digits ++ '\x7d' :: behind).takeWhile Text.isHex = digits := by
      rw [List.takeWhile_append_of_pos hdigits, List.takeWhile_cons_of_neg (by simp [hbrace.2]),
        List.append_nil]
    have hbody : ('\x7b' :: digits).append ['\x7d'] ++ behind =
        '\x7b' :: (digits ++ '\x7d' :: behind) := by
      simp
    rw [codePointEscape?.eq_def, if_neg (by decide), hbody]
    simp only [htake, List.drop_left, hnonempty, ne_eq, not_false_eq_true, List.head?_cons, and_self,
      if_true, hread, Option.map_some, List.tail_cons]

/-! ## What is decoded is read -/

section Quoted

variable {quote : Char} (hquote : quote = '\'' ∨ quote = '"')

theorem readString_plain
    {c : Char} (hline : c ≠ '\n') (hc : c ≠ quote) (hbackslash : c ≠ '\\') (behind : List Char) :
    readString quote (c :: behind) = (readString quote behind).map (prepend [.scalar c]) := by
  rw [readString.eq_def]
  simp only [if_neg hline, if_neg hc, if_neg hbackslash]

include hquote

theorem readString_continuation
    (behind : List Char) :
    readString quote ('\\' :: '\n' :: behind) = readString quote behind := by
  have hstart : '\\' ≠ '\n' := by decide
  have hletter : ¬('\n' = 'u' ∨ '\n' = 'x') := by decide
  have hbackslash : '\\' ≠ quote := by rcases hquote with rfl | rfl <;> decide
  rw [readString.eq_def]
  simp only [if_neg hstart, if_neg hbackslash, if_neg hletter, if_true]

theorem readString_letter
    {letter : Char} (hcode : ¬(letter = 'u' ∨ letter = 'x')) (hline : letter ≠ '\n')
    (behind : List Char) :
    readString quote ('\\' :: letter :: behind) =
      (readString quote behind).map (prepend [.scalar (plainEscape letter)]) := by
  have hstart : '\\' ≠ '\n' := by decide
  have hbackslash : '\\' ≠ quote := by rcases hquote with rfl | rfl <;> decide
  rw [readString.eq_def]
  simp only [if_neg hstart, if_neg hbackslash, if_neg hcode, if_neg hline, if_true]

theorem readString_codePoint
    {escape : List Char} {c : Character} (hescape : EscapesCodePoint escape c) (behind : List Char) :
    readString quote ('\\' :: escape ++ behind) = (readString quote behind).map (prepend [c]) := by
  have hline : '\\' ≠ '\n' := by decide
  have hbackslash : '\\' ≠ quote := by rcases hquote with rfl | rfl <;> decide
  obtain ⟨letter, digits, rfl, hletter⟩ : ∃ letter digits, escape = letter :: digits ∧
      (letter = 'u' ∨ letter = 'x') := by
    cases hescape with
    | short => exact ⟨_, _, rfl, .inr rfl⟩
    | long | braced => exact ⟨_, _, rfl, .inl rfl⟩
  have hread := hescape.codePointEscape?_eq behind
  rw [List.cons_append, List.cons_append, readString.eq_def]
  simp only [if_neg hline, if_neg hbackslash, if_pos hletter, if_true]
  split
  · rename_i hnone
    cases hnone.symm.trans hread
  · rename_i hsome
    obtain ⟨rfl, rfl⟩ := Prod.mk.inj (Option.some.inj (hsome.symm.trans hread))
    rfl

/-- Whatever decodes to a text is read as the text, up to the closing quote. -/
theorem readString_of_decodes
    {body : List Char} {text : List Character} (h : Decodes quote body text) (behind : List Char) :
    readString quote (body ++ quote :: behind) = .ok (text, behind) := by
  induction h with
  | nil =>
    have hline : quote ≠ '\n' := by rcases hquote with rfl | rfl <;> decide
    rw [List.nil_append, readString.eq_def]
    simp only [if_neg hline, if_true]
  | plain hc hbackslash hline _ ih =>
    rw [List.cons_append, readString_plain hline hc hbackslash, ih]
    rfl
  | continuation _ ih => exact (readString_continuation hquote _).trans ih
  | letter hline hx hu _ ih =>
    rw [List.cons_append, List.cons_append, readString_letter hquote (by simp [hx, hu]) hline, ih]
    rfl
  | codePoint hescape _ ih =>
    rw [List.append_assoc, readString_codePoint hquote hescape, ih]
    rfl

/-! ## Quoted forms -/

omit hquote

theorem decodes_hexEscape
    {c : Character} (hc : c.code ≤ 0xFFFF) {body : List Char} {text : List Character}
    (hmore : Decodes quote body text) :
    Decodes quote (hexEscape c.code ++ body) (c :: text) := by
  by_cases hshort : c.code ≤ 0xFF
  · have hescape : EscapesCodePoint ('x' :: hexPadded 2 c.code) c :=
      .short (length_hexPadded (by decide) (by omega)) forall_mem_hexPadded
        (ofDigits_hexPadded 2 c.code).symm
    rw [hexEscape, if_pos hshort]
    exact .codePoint hescape hmore
  · have hescape : EscapesCodePoint ('u' :: hexPadded 4 c.code) c :=
      .long (length_hexPadded (by decide) (by omega)) forall_mem_hexPadded
        (ofDigits_hexPadded 4 c.code).symm
    rw [hexEscape, if_neg hshort, if_pos hc]
    exact .codePoint hescape hmore

include hquote

theorem decodes_quotedScalar
    {c : Char} (hc : 0xFFFF < c.toNat → isPrintable c = true) {body : List Char}
    {text : List Character} (hmore : Decodes quote body text) :
    Decodes quote (quotedScalar quote c ++ body) (.scalar c :: text) := by
  rw [quotedScalar]
  by_cases hself : c = quote ∨ c = '\\'
  · have hplain : c ≠ 'u' ∧ c ≠ 'x' ∧ c ≠ '\n' ∧ plainEscape c = c := by
      rcases hself with rfl | rfl
      · rcases hquote with rfl | rfl <;> decide
      · decide
    obtain ⟨hu, hx, hline, hescape⟩ := hplain
    rw [if_pos (by simpa using hself)]
    have hletter : Decodes quote ('\\' :: c :: body) (plainEscape c :: text) :=
      .letter hline hx hu hmore
    rwa [hescape] at hletter
  rw [if_neg (by simpa using hself)]
  rw [not_or] at hself
  by_cases hline : c = '\n'
  · subst hline
    exact .letter (by decide) (by decide) (by decide) hmore
  rw [if_neg hline]
  by_cases hreturn : c = '\r'
  · subst hreturn
    exact .letter (by decide) (by decide) (by decide) hmore
  rw [if_neg hreturn]
  by_cases htab : c = '\t'
  · subst htab
    exact .letter (by decide) (by decide) (by decide) hmore
  rw [if_neg htab]
  by_cases hprintable : isPrintable c = true
  · rw [if_pos hprintable]
    exact .plain hself.1 hself.2 hline hmore
  · have hsmall : (Character.scalar c).code ≤ 0xFFFF := by
      by_contra hlarge
      exact hprintable (hc (Nat.lt_of_not_le hlarge))
    rw [if_neg hprintable]
    exact decodes_hexEscape hsmall hmore

/-- The quoted form of a character decodes to the character. -/
theorem decodes_quotedChar
    {c : Character} (hc : 0xFFFF < c.code → c.isIn isPrintable = true) {body : List Char}
    {text : List Character} (hmore : Decodes quote body text) :
    Decodes quote (quotedChar quote c ++ body) (c :: text) := by
  cases c with
  | scalar c => exact decodes_quotedScalar hquote hc hmore
  | surrogate index =>
    have hindex := index.isLt
    refine decodes_hexEscape ?_ hmore
    simp only [Character.code, Character.firstSurrogate]
    omega

theorem decodes_quotedText
    {text : List Character} (htext : IsQuotable text) :
    Decodes quote (text.flatMap (quotedChar quote)) text := by
  induction text with
  | nil => exact .nil
  | cons c text ih =>
    obtain ⟨hc, hmore⟩ := List.forall_mem_cons.mp htext
    exact decodes_quotedChar hquote hc (ih hmore)

/-- The quoted form of a text is read as the text, up to the closing quote. -/
theorem readString_quotedText
    {text : List Character} (htext : IsQuotable text) (behind : List Char) :
    readString quote (text.flatMap (quotedChar quote) ++ quote :: behind) = .ok (text, behind) :=
  readString_of_decodes hquote (decodes_quotedText hquote htext) behind

end Quoted

theorem quoteFor_eq
    (text : List Character) :
    quoteFor text = '\'' ∨ quoteFor text = '"' := by
  rw [quoteFor]
  split
  · exact .inr rfl
  · exact .inl rfl

end EntityDiagram.Source
