import EntityDiagram.Source.Stream

/-!
# The text of a lexeme

What stands in a source text where a lexeme was read. Names, numerals, regular expressions and marks
stand there as they are; a template stands between back quotes; a string stands between quotes, and
its text is what is decoded between them. The relation does not mention how a lexeme is read, so it
says what the readers lose: nothing but the way in which a string is escaped.
-/

namespace EntityDiagram.Source

/-- The part of an escape behind its backslash stands for the character with a given code point:
`xHH`, `uHHHH` or `u{H…}`. -/
inductive EscapesCodePoint : List Char → Character → Prop
  | short {digits : List Char} {c : Character} (hlength : digits.length = 2)
      (hdigits : ∀ d ∈ digits, Text.isHex d = true)
      (hvalue : c.code = Numeral.ofDigits 16 (digits.filterMap Text.hexValue?)) :
    EscapesCodePoint ('x' :: digits) c
  | long {digits : List Char} {c : Character} (hlength : digits.length = 4)
      (hdigits : ∀ d ∈ digits, Text.isHex d = true)
      (hvalue : c.code = Numeral.ofDigits 16 (digits.filterMap Text.hexValue?)) :
    EscapesCodePoint ('u' :: digits) c
  | braced {digits : List Char} {c : Character} (hnonempty : digits ≠ [])
      (hdigits : ∀ d ∈ digits, Text.isHex d = true)
      (hvalue : c.code = Numeral.ofDigits 16 (digits.filterMap Text.hexValue?)) :
    EscapesCodePoint ('u' :: '\x7b' :: digits ++ ['\x7d']) c

/-- What stands between two quotes decodes to a text. No quote stands there without a backslash in
front of it, and no line break. -/
inductive Decodes (quote : Char) : List Char → List Character → Prop
  | nil : Decodes quote [] []
  | plain {c : Char} {body : List Char} {text : List Character} (hquote : c ≠ quote)
      (hbackslash : c ≠ '\\')
      (hline : c ≠ '\n') (hmore : Decodes quote body text) :
    Decodes quote (c :: body) (c :: text)
  /-- An escaped line break stands for nothing. -/
  | continuation {body : List Char} {text : List Character} (hmore : Decodes quote body text) :
    Decodes quote ('\\' :: '\n' :: body) text
  | letter {c : Char} {body : List Char} {text : List Character} (hline : c ≠ '\n') (hx : c ≠ 'x')
      (hu : c ≠ 'u') (hmore : Decodes quote body text) :
    Decodes quote ('\\' :: c :: body) (plainEscape c :: text)
  | codePoint {escape : List Char} {c : Character} {body : List Char} {text : List Character}
      (hescape : EscapesCodePoint escape c) (hmore : Decodes quote body text) :
    Decodes quote ('\\' :: escape ++ body) (c :: text)

/-- The characters may stand in a text for the lexeme. -/
def IsTextOf (text : List Char) : Lexeme → Prop
  | .ident s | .number s | .regex s | .punct s => text = s.toList
  | .template s => text = '\x60' :: s.toList ++ ['\x60']
  | .string s => ∃ quote body, (quote = '\'' ∨ quote = '"') ∧ Decodes quote body s.toList ∧
      text = quote :: body ++ [quote]

/-! ## Strings -/

theorem map_eq_error
    {ε α β : Type} {f : α → β} {read : Except ε α} {e : ε} (h : read.map f = .error e) :
    read = .error e := by
  cases read with
  | error found => exact congrArg Except.error (Except.error.inj h)
  | ok value => cases h

theorem hexNumber?_eq_some
    {width n : Nat} {cs : List Char} (h : hexNumber? width cs = some n) :
    cs.length = width ∧ (∀ d ∈ cs, Text.isHex d = true) ∧
      n = Numeral.ofDigits 16 (cs.filterMap Text.hexValue?) := by
  simp only [hexNumber?] at h
  split at h
  · rename_i hwidth
    obtain ⟨hlength, hdigits⟩ := hwidth
    refine ⟨hlength, ?_, (Option.some.inj h).symm⟩
    exact List.filterMap_length_eq_length.mp (hdigits.trans hlength.symm)
  · cases h

/-- The character of hexadecimal digits has the code point that they spell. -/
theorem hexNumber?_bind_ofCode?
    {width : Nat} {digits : List Char} {c : Character}
    (h : (hexNumber? width digits).bind Character.ofCode? = some c) :
    digits.length = width ∧ (∀ d ∈ digits, Text.isHex d = true) ∧
      c.code = Numeral.ofDigits 16 (digits.filterMap Text.hexValue?) := by
  obtain ⟨n, hnumber, hcode⟩ := Option.bind_eq_some_iff.mp h
  obtain ⟨hlength, hdigits, rfl⟩ := hexNumber?_eq_some hnumber
  exact ⟨hlength, hdigits, Character.ofCode?_eq_some_iff.mp hcode⟩

theorem codePointEscape?_eq_some
    {letter : Char} {c : Character} {cs behind : List Char} (hletter : letter = 'u' ∨ letter = 'x')
    (h : codePointEscape? letter cs = some (c, behind)) :
    ∃ escape, EscapesCodePoint (letter :: escape) c ∧ cs = escape ++ behind := by
  unfold codePointEscape? at h
  split at h
  · rename_i hx
    subst hx
    obtain ⟨found, hfound, heq⟩ := Option.map_eq_some_iff.mp h
    obtain ⟨rfl, rfl⟩ := Prod.mk.inj heq
    obtain ⟨hlength, hdigits, hvalue⟩ := hexNumber?_bind_ofCode? hfound
    exact ⟨cs.take 2, .short hlength hdigits hvalue, (List.take_append_drop 2 cs).symm⟩
  · rename_i hx
    obtain rfl : letter = 'u' := hletter.resolve_right hx
    split at h
    · rename_i body
      simp only at h
      split at h
      · rename_i hclosed
        obtain ⟨hnonempty, hbrace⟩ := hclosed
        obtain ⟨found, hfound, heq⟩ := Option.map_eq_some_iff.mp h
        obtain ⟨rfl, rfl⟩ := Prod.mk.inj heq
        obtain ⟨-, hdigits, hvalue⟩ := hexNumber?_bind_ofCode? hfound
        refine ⟨'\x7b' :: body.takeWhile Text.isHex ++ ['\x7d'],
          .braced hnonempty hdigits hvalue, ?_⟩
        have hbody : body.takeWhile Text.isHex ++ body.drop (body.takeWhile Text.isHex).length =
            body := List.prefix_iff_eq_append.mp (List.takeWhile_prefix _)
        cases hbehind : body.drop (body.takeWhile Text.isHex).length with
        | nil => simp [hbehind] at hbrace
        | cons brace behind =>
          rw [hbehind] at hbody hbrace
          obtain rfl : brace = '\x7d' := by simpa using hbrace
          simp only [List.tail_cons, List.cons_append, List.append_assoc, List.nil_append, hbody]
      · cases h
    · obtain ⟨found, hfound, heq⟩ := Option.map_eq_some_iff.mp h
      obtain ⟨rfl, rfl⟩ := Prod.mk.inj heq
      obtain ⟨hlength, hdigits, hvalue⟩ := hexNumber?_bind_ofCode? hfound
      exact ⟨cs.take 4, .long hlength hdigits hvalue, (List.take_append_drop 4 cs).symm⟩

/-- What is read up to a closing quote decodes to what was read. -/
theorem readString_eq_ok
    {quote : Char} {cs behind : List Char} {text : List Character}
    (h : readString quote cs = .ok (text, behind)) :
    ∃ body, Decodes quote body text ∧ cs = body ++ quote :: behind := by
  fun_induction readString quote cs generalizing text with
  | case1 => simp at h
  | case2 => simp at h
  | case3 rest =>
    obtain ⟨rfl, rfl⟩ := Prod.mk.inj (Except.ok.inj h)
    exact ⟨[], .nil, rfl⟩
  | case4 => simp at h
  | case5 => simp at h
  | case6 letter rest hletter decoded more hescape _ _ ih =>
    obtain ⟨text, hread, rfl⟩ := map_prepend_eq_ok h
    obtain ⟨body, hbody, rfl⟩ := ih hread
    obtain ⟨escape, hcode, rfl⟩ := codePointEscape?_eq_some hletter hescape
    exact ⟨'\\' :: letter :: escape ++ body, .codePoint hcode hbody, by simp⟩
  | case7 rest _ _ _ ih =>
    obtain ⟨body, hbody, rfl⟩ := ih h
    exact ⟨'\\' :: '\n' :: body, .continuation hbody, rfl⟩
  | case8 letter rest hletter hline _ _ ih =>
    obtain ⟨text, hread, rfl⟩ := map_prepend_eq_ok h
    obtain ⟨body, hbody, rfl⟩ := ih hread
    rw [not_or] at hletter
    exact ⟨'\\' :: letter :: body, .letter hline hletter.2 hletter.1 hbody, rfl⟩
  | case9 c rest hline hquote hbackslash ih =>
    obtain ⟨text, hread, rfl⟩ := map_prepend_eq_ok h
    obtain ⟨body, hbody, rfl⟩ := ih hread
    exact ⟨c :: body, .plain hquote hbackslash hline hbody, rfl⟩

/-! ## Templates and regular expressions -/

theorem readTemplate_quote
    (position : Position) (rest : List Char) :
    readTemplate 0 position ('\x60' :: rest) = .ok ⟨[], position.right 1, rest⟩ := by
  rw [readTemplate.eq_def]
  simp

theorem readTemplate_escaped
    (depth : Nat) (position : Position) (c : Char) (rest : List Char) :
    readTemplate depth position ('\\' :: c :: rest) =
      (readTemplate depth (position.right 2) rest).map (.prepend ['\\', c]) := by
  rw [readTemplate.eq_def]
  simp

theorem readTemplate_substitution
    (depth : Nat) (position : Position) (rest : List Char) :
    readTemplate depth position ('$' :: '\x7b' :: rest) =
      (readTemplate (depth + 1) (position.right 2) rest).map (.prepend ['$', '\x7b']) := by
  rw [readTemplate.eq_def]
  simp

theorem readTemplate_plain
    {depth : Nat} {c : Char} {rest : List Char} (hbackslash : c ≠ '\\')
    (hquote : ¬(c = '\x60' ∧ depth = 0)) (hopen : ¬(c = '$' ∧ rest.head? = some '\x7b'))
    (position : Position) :
    readTemplate depth position (c :: rest) =
      (readTemplate (if c = '\x7d' then depth - 1 else depth) (position.advance c) rest).map
        (.prepend [c]) := by
  rw [readTemplate.eq_def]
  simp only [if_neg hbackslash, if_neg hquote, if_neg hopen]

theorem readTemplate_eq_ok
    {depth : Nat} {position : Position} {cs : List Char} {span : TemplateSpan}
    (h : readTemplate depth position cs = .ok span) :
    cs = span.text ++ '\x60' :: span.rest := by
  fun_induction readTemplate depth position cs generalizing span with
  | case1 => simp at h
  | case2 => simp at h
  | case3 =>
    rename_i ih
    obtain ⟨found, hread, rfl⟩ := map_templatePrepend_eq_ok h
    rw [ih hread]
    rfl
  | case4 =>
    rename_i hclose
    obtain ⟨rfl, rfl⟩ := hclose
    obtain rfl := Except.ok.inj h
    rfl
  | case5 => simp at h
  | case6 =>
    rename_i ih
    obtain ⟨found, hread, rfl⟩ := map_templatePrepend_eq_ok h
    rw [ih hread]
    rfl
  | case7 =>
    rename_i ih
    obtain ⟨found, hread, rfl⟩ := map_templatePrepend_eq_ok h
    rw [ih hread]
    rfl

theorem readRegexBody_eq_some
    {inClass : Bool} {cs body behind : List Char}
    (h : readRegexBody inClass cs = some (body, behind)) :
    cs = body ++ behind := by
  fun_induction readRegexBody inClass cs generalizing body with
  | case1 => simp at h
  | case2 => simp at h
  | case3 => simp at h
  | case4 => simp at h
  | case5 inClass escaped rest _ _ ih =>
    obtain ⟨⟨more, left⟩, hread, heq⟩ := Option.map_eq_some_iff.mp h
    obtain ⟨rfl, rfl⟩ := Prod.mk.inj heq
    rw [ih hread]
    rfl
  | case6 =>
    obtain ⟨rfl, rfl⟩ := Prod.mk.inj (Option.some.inj h)
    rfl
  | case7 inClass c rest _ _ _ ih =>
    obtain ⟨⟨more, left⟩, hread, heq⟩ := Option.map_eq_some_iff.mp h
    obtain ⟨rfl, rfl⟩ := Prod.mk.inj heq
    rw [ih hread]
    rfl

/-! ## Numerals -/

namespace Numeral

/-- A front that goes on with a front of what is left is a front. -/
theorem append_isPrefix
    {front more cs : List Char} (hfront : front <+: cs) (hmore : more <+: cs.drop front.length) :
    front ++ more <+: cs := by
  conv => rhs; rw [← List.prefix_iff_eq_append.mp hfront]
  exact (List.prefix_append_right_inj front).mpr hmore

theorem suffixPart_isPrefix
    (cs : List Char) :
    suffixPart cs <+: cs := by
  unfold suffixPart
  split
  · exact List.prefix_append ['n'] _
  · exact List.nil_prefix

theorem signPart_isPrefix
    (cs : List Char) :
    signPart cs <+: cs := by
  unfold signPart
  split
  · rename_i c rest
    split
    · exact List.prefix_append [c] rest
    · exact List.nil_prefix
  · exact List.nil_prefix

theorem exponentPart_isPrefix
    (cs : List Char) :
    exponentPart cs <+: cs := by
  cases cs with
  | nil => exact List.nil_prefix
  | cons letter rest =>
    simp only [exponentPart]
    split
    · rw [List.cons_append, List.cons_prefix_cons]
      exact ⟨rfl, append_isPrefix (signPart_isPrefix rest) (List.takeWhile_prefix _)⟩
    · exact List.nil_prefix

theorem fractionPart_isPrefix
    (cs : List Char) :
    fractionPart cs <+: cs := by
  unfold fractionPart
  split
  · rw [List.cons_prefix_cons]
    exact ⟨rfl, List.takeWhile_prefix _⟩
  · exact List.nil_prefix

theorem withSuffix_isPrefix
    {cs digits : List Char} (h : digits <+: cs) :
    withSuffix cs digits <+: cs :=
  append_isPrefix h (suffixPart_isPrefix _)

theorem basedSpelling?_isPrefix
    {cs spelling : List Char} (h : basedSpelling? cs = some spelling) :
    spelling <+: cs := by
  unfold basedSpelling? at h
  split at h
  · simp only at h
    split at h
    · cases h
    · obtain rfl := Option.some.inj h
      refine withSuffix_isPrefix ?_
      rw [List.cons_prefix_cons, List.cons_prefix_cons]
      exact ⟨rfl, rfl, List.takeWhile_prefix _⟩
  · cases h

theorem decimalSpelling?_isPrefix
    {cs spelling : List Char} (h : decimalSpelling? cs = some spelling) :
    spelling <+: cs := by
  unfold decimalSpelling? at h
  split at h
  · cases h
  · rename_i c rest
    have hdigits : c :: rest.takeWhile isDecimalPart <+: c :: rest :=
      List.cons_prefix_cons.mpr ⟨rfl, List.takeWhile_prefix _⟩
    split at h
    · obtain rfl := Option.some.inj h
      have hmantissa := append_isPrefix hdigits (fractionPart_isPrefix _)
      exact withSuffix_isPrefix (append_isPrefix hmantissa (exponentPart_isPrefix _))
    · split at h
      · obtain rfl := Option.some.inj h
        exact withSuffix_isPrefix (append_isPrefix hdigits (exponentPart_isPrefix _))
      · cases h

/-- A numeral is spelled as it stands in the text. -/
theorem spelling?_isPrefix
    {cs spelling : List Char} (h : spelling? cs = some spelling) :
    spelling <+: cs := by
  unfold spelling? at h
  cases hbased : basedSpelling? cs with
  | some found =>
    rw [hbased] at h
    exact basedSpelling?_isPrefix (hbased.trans h)
  | none =>
    rw [hbased] at h
    exact decimalSpelling?_isPrefix h

end Numeral

/-! ## The lexeme at the front of a text -/

theorem markAt_isPrefix
    (c : Char) (rest : List Char) :
    markAt c rest <+: c :: rest := by
  unfold markAt
  split
  · rename_i harrow
    obtain ⟨rfl, hhead⟩ := harrow
    obtain ⟨more, rfl⟩ := List.head?_eq_some_iff.mp hhead
    exact List.prefix_append ['=', '>'] more
  · split
    · rename_i hdots
      obtain ⟨rfl, htake⟩ := hdots
      rw [← htake, List.cons_prefix_cons]
      exact ⟨rfl, List.take_prefix 2 rest⟩
    · exact List.prefix_append [c] rest

/-- The front of a text is a lexeme that is spelled as it stands there. -/
inductive StandsAs (c : Char) (rest : List Char) : List Char → Lexeme → Prop
  | name :
    StandsAs c rest (c :: rest.takeWhile isNamePart)
      (.ident (String.ofList (c :: rest.takeWhile isNamePart)))
  | number {spelling : List Char} (h : Numeral.spelling? (c :: rest) = some spelling) :
    StandsAs c rest spelling (.number (String.ofList spelling))
  | regex {body behind : List Char} (h : readRegexBody false rest = some (body, behind)) :
    StandsAs c rest (c :: body ++ behind.takeWhile isNamePart)
      (.regex (String.ofList (c :: body ++ behind.takeWhile isNamePart)))
  | mark : StandsAs c rest (markAt c rest) (.punct (String.ofList (markAt c rest)))

/-- A lexeme is spelled as it stands, or is a literal with a value; or there is an error about what
starts with the character. -/
inductive LexemeOutcome (previous : Option Lexeme) (start : Position) (c : Char) (rest : List Char) :
    Except SourceError LexemeSpan → Prop
  | plain {front : List Char} {lexeme : Lexeme} (h : StandsAs c rest front lexeme) :
    LexemeOutcome previous start c rest
      (.ok ⟨lexeme, start, start.right front.length, (c :: rest).drop front.length⟩)
  | string {text : List Character} {behind : List Char} (hquote : c = '\'' ∨ c = '"')
      (hread : readString c rest = .ok (text, behind)) :
    LexemeOutcome previous start c rest (.ok ⟨.string (.ofList text), start,
      start.right ((c :: rest).length - behind.length), behind⟩)
  | template {found : TemplateSpan} (hquote : c = '\x60')
      (hread : readTemplate 0 (start.right 1) rest = .ok found) :
    LexemeOutcome previous start c rest (.ok ⟨.template (String.ofList found.text),
      ⟨found.behind.line, start.column⟩, found.behind, found.rest⟩)
  | badNumber (hstart : startsNumeral c rest = true)
      (hread : Numeral.spelling? (c :: rest) = none) :
    LexemeOutcome previous start c rest (.error ⟨.invalidNumber, start⟩)
  | badString {fault : Fault} (hquote : c = '\'' ∨ c = '"')
      (hread : readString c rest = .error fault) :
    LexemeOutcome previous start c rest (.error ⟨fault, start⟩)
  | badTemplate {ending : Position} (hquote : c = '\x60')
      (hread : readTemplate 0 (start.right 1) rest = .error ending) :
    LexemeOutcome previous start c rest (.error ⟨.unterminatedTemplate, ⟨ending.line, start.column⟩⟩)
  | badRegex (hslash : c = '/') (hallowed : regexAllowedAfter previous = true)
      (hread : readRegexBody false rest = none) :
    LexemeOutcome previous start c rest (.error ⟨.unterminatedRegex, start⟩)

/-- The regular expression is the front of the text, with its flags behind the closing slash. -/
theorem regex_eq_append
    {c : Char} {rest body behind : List Char} (h : readRegexBody false rest = some (body, behind)) :
    c :: rest = (c :: body ++ behind.takeWhile isNamePart) ++ behind.dropWhile isNamePart := by
  rw [List.append_assoc, List.takeWhile_append_dropWhile, readRegexBody_eq_some h]
  rfl

theorem readLexeme_outcome
    (previous : Option Lexeme) (start : Position) (c : Char) (rest : List Char) :
    LexemeOutcome previous start c rest (readLexeme previous start c rest) := by
  rw [readLexeme]
  by_cases hname : isNameStart c = true
  · rw [if_pos hname]
    exact .plain .name
  by_cases hnumber : startsNumeral c rest = true
  · rw [if_neg hname, if_pos hnumber]
    cases hread : Numeral.spelling? (c :: rest) with
    | none => exact .badNumber hnumber hread
    | some spelling => exact .plain (.number hread)
  by_cases hquote : c = '\'' ∨ c = '"'
  · rw [if_neg hname, if_neg hnumber, if_pos hquote]
    cases hread : readString c rest with
    | error fault => exact .badString hquote hread
    | ok read => exact .string hquote hread
  by_cases hbackquote : c = '\x60'
  · rw [if_neg hname, if_neg hnumber, if_neg hquote, if_pos hbackquote]
    cases hread : readTemplate 0 (start.right 1) rest with
    | error ending => exact .badTemplate hbackquote hread
    | ok found => exact .template hbackquote hread
  rw [if_neg hname, if_neg hnumber, if_neg hquote, if_neg hbackquote]
  by_cases hslash : c = '/' ∧ regexAllowedAfter previous = true
  · rw [if_pos hslash]
    cases hread : readRegexBody false rest with
    | none => exact .badRegex hslash.1 hslash.2 hread
    | some read =>
      obtain ⟨body, behind⟩ := read
      have hplain : LexemeOutcome previous start c rest _ := .plain (.regex hread)
      rwa [regex_eq_append hread, List.drop_left] at hplain
  · rw [if_neg hslash]
    exact .plain .mark

theorem StandsAs.isPrefix
    {c : Char} {rest front : List Char} {lexeme : Lexeme} (h : StandsAs c rest front lexeme) :
    front <+: c :: rest := by
  cases h with
  | name => exact List.cons_prefix_cons.mpr ⟨rfl, List.takeWhile_prefix _⟩
  | number h => exact Numeral.spelling?_isPrefix h
  | regex h => exact ⟨_, (regex_eq_append h).symm⟩
  | mark => exact markAt_isPrefix c rest

theorem StandsAs.isTextOf
    {c : Char} {rest front : List Char} {lexeme : Lexeme} (h : StandsAs c rest front lexeme) :
    IsTextOf front lexeme := by
  cases h with
  | name | number | regex | mark => exact String.toList_ofList.symm

/-- What is read as a lexeme stands at the front of the text, and the rest stands behind it. -/
theorem readLexeme_eq_ok
    {previous : Option Lexeme} {start : Position} {c : Char} {rest : List Char} {span : LexemeSpan}
    (h : readLexeme previous start c rest = .ok span) :
    ∃ text, IsTextOf text span.lexeme ∧ c :: rest = text ++ span.rest := by
  have houtcome := readLexeme_outcome previous start c rest
  rw [h] at houtcome
  cases houtcome with
  | @plain front _ hplain =>
    exact ⟨front, hplain.isTextOf, (List.prefix_iff_eq_append.mp hplain.isPrefix).symm⟩
  | @string text behind hquote hread =>
    obtain ⟨body, hbody, rfl⟩ := readString_eq_ok hread
    exact ⟨c :: body ++ [c], ⟨c, body, hquote, hbody, rfl⟩, by simp⟩
  | @template found hquote hread =>
    obtain rfl := hquote
    refine ⟨'\x60' :: found.text ++ ['\x60'], ?_, by simp [readTemplate_eq_ok hread]⟩
    simp only [IsTextOf, String.toList_ofList]

end EntityDiagram.Source
