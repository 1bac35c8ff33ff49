import EntityDiagram.Proofs.Source.Gaps
import Mathlib.Data.List.Induction

/-!
# Where tokens and errors stand

The true position of a character is one line below the line feeds in front of it and one column
behind the characters that follow the last of them. Tokens, the end of a text and errors have true
positions, but for two things. An escaped line feed inside a lexeme is counted as any other
character, so all that stands behind it in the text seems to stand further up and further to the
right. And a template has the line of its end, as does the error about a template without one.
-/

namespace EntityDiagram.Source

/-! ## True positions -/

/-- The position of the character behind a text. -/
def positionBehind (front : List Char) : Position where
  line := 1 + front.count '\n'
  column := 1 + (front.reverse.takeWhile (· ≠ '\n')).length

theorem start_after
    (front : List Char) :
    Position.start.after front = positionBehind front := by
  induction front using List.reverseRecOn with
  | nil => rfl
  | append_singleton front c ih =>
    rw [Position.after_append, ih, Position.after_cons, Position.after_nil, Position.advance]
    by_cases hc : c = '\n'
    · subst hc
      simp [positionBehind, Position.nextLine, Nat.add_assoc]
    · simp [positionBehind, Position.right, hc]
      omega

/-- On one line only the column moves. -/
theorem Position.after_eq_right
    {cs : List Char} (h : '\n' ∉ cs) (p : Position) :
    p.after cs = p.right cs.length := by
  induction cs generalizing p with
  | nil => rfl
  | cons c rest ih =>
    obtain ⟨hc, hrest⟩ := List.ne_and_not_mem_of_not_mem_cons h
    rw [Position.after_cons, Position.advance, if_neg hc.symm, ih hrest, List.length_cons,
      Position.right, Position.right, Position.right, Nat.add_comm rest.length, Nat.add_assoc]

/-! ## Escaped line feeds -/

/-- A text in which another character stands for every escaped line feed. -/
def counted : List Char → List Char
  | '\\' :: c :: rest => '\\' :: (if c = '\n' then ' ' else c) :: counted rest
  | c :: rest => c :: counted rest
  | [] => []

theorem counted_escape
    (c : Char) (rest : List Char) :
    counted ('\\' :: c :: rest) = '\\' :: (if c = '\n' then ' ' else c) :: counted rest := by
  rw [counted]

theorem counted_cons
    {c : Char} (hc : c ≠ '\\') (rest : List Char) :
    counted (c :: rest) = c :: counted rest := by
  rw [counted]
  rintro _ _ rfl
  exact absurd rfl hc

theorem counted_append
    {front : List Char} (h : '\\' ∉ front) (rest : List Char) :
    counted (front ++ rest) = front ++ counted rest := by
  induction front with
  | nil => rfl
  | cons c front ih =>
    obtain ⟨hc, hfront⟩ := List.ne_and_not_mem_of_not_mem_cons h
    rw [List.cons_append, counted_cons hc.symm, ih hfront, List.cons_append]

theorem length_counted
    (cs : List Char) :
    (counted cs).length = cs.length := by
  fun_induction counted cs with
  | case1 c rest ih => simp only [List.length_cons, ih]
  | case2 c rest _ ih => rw [List.length_cons, List.length_cons, ih]
  | case3 => rfl

theorem newline_notMem_counted
    {cs : List Char} (h : '\n' ∉ cs) :
    '\n' ∉ counted cs := by
  fun_induction counted cs with
  | case1 c rest ih =>
    simp only [List.mem_cons, not_or] at h ⊢
    refine ⟨h.1, ?_, ih h.2.2⟩
    rw [if_neg (Ne.symm h.2.1)]
    exact h.2.1
  | case2 c rest _ ih =>
    simp only [List.mem_cons, not_or] at h ⊢
    exact ⟨h.1, ih h.2⟩
  | case3 => exact h

/-- Without escaped line feeds a text is counted as it stands. -/
theorem counted_eq_self
    {cs : List Char} (h : ¬ ['\\', '\n'] <:+: cs) :
    counted cs = cs := by
  fun_induction counted cs with
  | case1 c rest ih =>
    have hc : c ≠ '\n' := by
      rintro rfl
      exact h (List.prefix_append ['\\', '\n'] rest).isInfix
    have hrest : ¬ ['\\', '\n'] <:+: rest := fun hwithin =>
      h (hwithin.trans ((List.suffix_append ['\\', c] rest).isInfix))
    rw [if_neg hc, ih hrest]
  | case2 c rest _ ih =>
    rw [ih fun hwithin => h (List.infix_cons hwithin)]
  | case3 => rfl

/-! ## Tokens and errors in their places -/

/-- The column of the first character of a text, and the line behind its last one. -/
def endLinePosition (front text : List Char) : Position where
  line := (positionBehind (front ++ text)).line
  column := (positionBehind front).column

/-- Where a lexeme with a text is placed. -/
def Lexeme.placeBehind (front text : List Char) : Lexeme → Position
  | .template _ => endLinePosition front text
  | _ => positionBehind front

/-- Where an error about a text is placed. -/
def Fault.placeBehind (front text : List Char) : Fault → Position
  | .unterminatedTemplate => endLinePosition front text
  | _ => positionBehind front

/-- The fault is that of the comment, the literal or the number at the start of the text. A slash starts a
regular expression only behind certain lexemes, and none that starts a comment does. -/
inductive Offends (previous : Option Lexeme) : Fault → List Char → Prop
  | comment {rest : List Char} (hopen : ¬ ['*', '/'] <:+: rest) :
    Offends previous .unterminatedComment ('/' :: '*' :: rest)
  | number {c : Char} {rest : List Char} (hstart : startsNumeral c rest = true)
      (hinvalid : Numeral.spelling? (c :: rest) = none) :
    Offends previous .invalidNumber (c :: rest)
  | string {quote : Char} {rest : List Char} {fault : Fault} (hquote : quote = '\'' ∨ quote = '"')
      (hopen : readString quote rest = .error fault) :
    Offends previous fault (quote :: rest)
  | template {position ending : Position} {rest : List Char}
      (hopen : readTemplate 0 position rest = .error ending) :
    Offends previous .unterminatedTemplate ('\x60' :: rest)
  | regex {rest : List Char} (hstarts : StartsLexeme '/' rest)
      (hallowed : regexAllowedAfter previous = true) (hopen : readRegexBody false rest = none) :
    Offends previous .unterminatedRegex ('/' :: rest)

/-- No gap goes on in front of the text, and the lexeme is what is read there behind another one. -/
inductive IsReadBehind (previous : Option Lexeme) (lexeme : Lexeme) (text behind : List Char) : Prop
  | mk {c : Char} {rest : List Char} {start place ending : Position}
      (htext : text ++ behind = c :: rest) (hstarts : StartsLexeme c rest)
      (hread : readLexeme previous start c rest = .ok ⟨lexeme, place, ending, behind⟩) :
    IsReadBehind previous lexeme text behind

/-- A stream with one more token in front. -/
def TokenStream.cons (token : Token) (stream : TokenStream) : TokenStream :=
  { stream with tokens := token :: stream.tokens }

/-- The text behind `front` and behind the lexeme `previous` consists of gaps, of the lexemes that are read
there one after the other, and at its end of a gap or of what the error is about. All of them stand in
their places when the text of a lexeme is counted as `count` says. -/
inductive Located (count : List Char → List Char) :
    Option Lexeme → List Char → List Char → Except SourceError TokenStream → Prop
  | ending {previous : Option Lexeme} {front : List Char} {lead : Lead} {pieces : List GapPiece}
      (hfits : GapFits [] pieces)
      (hplace : lead.position = positionBehind (front ++ gapText pieces)) :
    Located count previous front (gapText pieces) (.ok ⟨[], lead⟩)
  | token {previous : Option Lexeme} {front text behind : List Char} {pieces : List GapPiece}
      {token : Token} {result : Except SourceError TokenStream}
      (hfits : GapFits (text ++ behind) pieces) (htext : IsTextOf text token.lexeme)
      (hread : IsReadBehind previous token.lexeme text behind)
      (hplace : token.lead.position =
        token.lexeme.placeBehind (front ++ gapText pieces) (count text))
      (hbehind : Located count (some token.lexeme) (front ++ gapText pieces ++ count text) behind
        result) :
    Located count previous front (gapText pieces ++ text ++ behind) (result.map (.cons token))
  | refused {previous : Option Lexeme} {front offender : List Char} {pieces : List GapPiece}
      {fault : Fault} (hfits : GapFits offender pieces)
      (hoffends : Offends previous fault offender) :
    Located count previous front (gapText pieces ++ offender)
      (.error ⟨fault, fault.placeBehind (front ++ gapText pieces) (count offender)⟩)

/-! ## Gaps -/

theorem commentBody_eq_none_iff
    {cs : List Char} :
    commentBody cs = none ↔ ¬ ['*', '/'] <:+: cs := by
  constructor
  · intro h
    induction cs with
    | nil => simp
    | cons c rest ih =>
      unfold commentBody at h
      split at h
      · cases h
      · rename_i hopen
        rw [List.infix_cons_iff]
        rintro (⟨behind, hclose⟩ | hwithin)
        · obtain ⟨rfl, rfl⟩ := List.cons.inj hclose
          exact hopen behind rfl rfl
        · exact ih (Option.map_eq_none_iff.mp h) hwithin
  · intro hopen
    rw [Option.eq_none_iff_forall_ne_some]
    rintro ⟨body, behind⟩ hclosed
    apply hopen
    rw [(commentBody_eq_some hclosed).1]
    exact ⟨body, behind, by simp⟩

/-- A gap was read up to a text that starts with a lexeme, or with a comment without an end. -/
inductive GapOutcome (start : Position) (pieces : List GapPiece) (rest : List Char) :
    Except SourceError (Lead × List Char) → Prop
  | read {lead : Lead} (hplace : lead.position = start.after (gapText pieces)) :
    GapOutcome start pieces rest (.ok (lead, rest))
  | refused (hoffends : ∀ previous, Offends previous .unterminatedComment rest) :
    GapOutcome start pieces rest
      (.error ⟨.unterminatedComment, start.after (gapText pieces)⟩)

theorem GapOutcome.cons
    {start : Position} {piece : GapPiece} {pieces : List GapPiece} {rest : List Char}
    {result : Except SourceError (Lead × List Char)}
    (h : GapOutcome (start.after piece.text) pieces rest result) :
    GapOutcome start (piece :: pieces) rest result := by
  have hafter : start.after (gapText (piece :: pieces)) =
      (start.after piece.text).after (gapText pieces) := by
    rw [gapText_cons, Position.after_append]
  cases h with
  | read hplace => exact .read (hplace.trans hafter.symm)
  | refused hoffends =>
    rw [← hafter]
    exact .refused hoffends

/-- A line comment takes as many columns as it has characters. -/
theorem after_line
    {rest body : List Char} (h : rest = body ++ rest.dropWhile (· ≠ '\n')) (hbody : '\n' ∉ body)
    (start : Position) :
    start.right (('/' :: '/' :: rest).takeWhile (· ≠ '\n')).length =
      start.after (GapPiece.line body).text := by
  have hfront : rest.takeWhile (· ≠ '\n') = body :=
    List.append_cancel_right (List.takeWhile_append_dropWhile.trans h)
  have hline : '\n' ∉ '/' :: '/' :: body := by simpa using hbody
  rw [GapPiece.text, Position.after_eq_right hline, List.takeWhile_cons_of_pos (by decide),
    List.takeWhile_cons_of_pos (by decide), hfront]

/-- Every text starts with a gap, and what ends the gap is found in its true place. -/
theorem readGap_outcome
    (lead : Lead) (cs : List Char) :
    ∃ pieces rest, cs = gapText pieces ++ rest ∧ GapFits rest pieces ∧
      GapOutcome lead.position pieces rest (readGap lead cs) := by
  fun_induction readGap lead cs with
  | case1 lead => exact ⟨[], [], rfl, trivial, .read rfl⟩
  | case2 lead rest ih =>
    obtain ⟨pieces, behind, rfl, hfits, hfound⟩ := ih
    have hblank : Text.isBlank '\n' = true := by decide
    exact ⟨.blank '\n' :: pieces, behind, rfl, ⟨hblank, hfits⟩, .cons hfound⟩
  | case3 lead c rest hline hblank ih =>
    obtain ⟨pieces, behind, rfl, hfits, hfound⟩ := ih
    refine ⟨.blank c :: pieces, behind, rfl, ⟨hblank, hfits⟩, .cons ?_⟩
    rw [GapPiece.text, Position.after_cons, Position.after_nil, Position.advance, if_neg hline]
    exact hfound
  | case4 lead c rest _ _ hslash width ih =>
    obtain ⟨pieces, behind, hrest, hfits, hfound⟩ := ih
    obtain ⟨rfl, hhead⟩ := hslash
    obtain ⟨rest, rfl⟩ := List.head?_eq_some_iff.mp hhead
    rw [List.dropWhile_cons_of_pos (by decide)] at hrest hfound ⊢
    obtain ⟨body, hwhole, hbody, hnext⟩ := exists_line rest
    have hplace := after_line hwhole hbody lead.position
    rw [hrest] at hnext
    refine ⟨.line body :: pieces, behind, ?_, ⟨⟨hbody, hnext⟩, hfits⟩, .cons ?_⟩
    · rw [hwhole, hrest, gapText_cons, List.append_assoc, GapPiece.text]
      rfl
    · rw [← hplace]
      exact hfound
  | case5 lead c rest _ _ _ hstar hbody =>
    obtain ⟨rfl, hhead⟩ := hstar
    obtain ⟨rest, rfl⟩ := List.head?_eq_some_iff.mp hhead
    exact ⟨[], '/' :: '*' :: rest, rfl, trivial,
      .refused fun _ => .comment (commentBody_eq_none_iff.mp hbody)⟩
  | case6 lead c rest _ _ _ hstar body left hbody ih =>
    obtain ⟨pieces, behind, rfl, hfits, hfound⟩ := ih
    obtain ⟨rfl, hhead⟩ := hstar
    obtain ⟨rest, rfl⟩ := List.head?_eq_some_iff.mp hhead
    obtain ⟨hrest, hfirst⟩ := commentBody_eq_some hbody
    refine ⟨.block body :: pieces, behind, ?_, ⟨hfirst, hfits⟩, .cons hfound⟩
    rw [gapText_cons, List.append_assoc, GapPiece.text, blockComment, List.append_assoc]
    exact congrArg ('/' :: '*' :: ·) hrest
  | case7 lead c rest => exact ⟨[], c :: rest, rfl, trivial, .read rfl⟩

/-- What a piece of a gap does to a position is what its text does. -/
theorem Lead.afterPiece_position
    {piece : GapPiece} {behind : List Char} (h : piece.Fits behind) (lead : Lead) :
    (lead.afterPiece piece).position = lead.position.after piece.text := by
  cases piece with
  | blank c =>
    rw [GapPiece.text, Position.after_cons, Position.after_nil, Position.advance, Lead.afterPiece]
    split <;> rfl
  | line body =>
    have hline : '\n' ∉ '/' :: '/' :: body := by simpa using h.1
    rw [GapPiece.text, Position.after_eq_right hline]
    rfl
  | block body => rfl

theorem foldl_afterPiece_position
    {pieces : List GapPiece} {behind : List Char} (h : GapFits behind pieces) (lead : Lead) :
    (pieces.foldl Lead.afterPiece lead).position = lead.position.after (gapText pieces) := by
  induction pieces generalizing lead with
  | nil => rfl
  | cons piece more ih =>
    rw [List.foldl_cons, ih h.2, Lead.afterPiece_position h.1, gapText_cons, Position.after_append]

/-! ## Lexemes -/

theorem EscapesCodePoint.newline_notMem
    {escape : List Char} {c : Character} (h : EscapesCodePoint escape c) {rest : List Char}
    (hrest : '\n' ∉ counted rest) :
    '\n' ∉ counted ('\\' :: escape ++ rest) := by
  have hdigits : ∀ digits : List Char, (∀ d ∈ digits, Text.isHex d = true) →
      '\n' ∉ digits ∧ '\\' ∉ digits := fun digits hhex =>
    ⟨fun hmem => absurd (hhex _ hmem) (by decide), fun hmem => absurd (hhex _ hmem) (by decide)⟩
  cases h with
  | @short digits _ _ hhex | @long digits _ _ hhex =>
    obtain ⟨hline, hbackslash⟩ := hdigits digits hhex
    simp only [List.cons_append, counted_escape, counted_append hbackslash, List.mem_cons,
      List.mem_append, hline, hrest]
    decide
  | @braced digits _ _ hhex =>
    obtain ⟨hline, hbackslash⟩ := hdigits digits hhex
    have hbrace : counted ('\x7b' :: (digits ++ '\x7d' :: rest)) =
        '\x7b' :: (digits ++ '\x7d' :: counted rest) := by
      rw [counted_cons (by decide), counted_append hbackslash, counted_cons (by decide)]
    simp only [List.cons_append, List.append_assoc, List.nil_append, counted_escape, hbrace,
      List.mem_cons, List.mem_append, hline, hrest]
    decide

/-- All line feeds of a string are escaped. -/
theorem Decodes.newline_notMem
    {quote : Char} {body : List Char} {text : List Character} (h : Decodes quote body text)
    {rest : List Char}
    (hrest : '\n' ∉ counted rest) :
    '\n' ∉ counted (body ++ rest) := by
  induction h with
  | nil => exact hrest
  | plain _ hbackslash hline _ ih =>
    rw [List.cons_append, counted_cons hbackslash, List.mem_cons, not_or]
    exact ⟨Ne.symm hline, ih⟩
  | continuation _ ih =>
    simp only [List.cons_append, counted_escape, List.mem_cons, ih]
    decide
  | letter hline _ _ _ ih =>
    simp only [List.cons_append, counted_escape, if_neg hline, List.mem_cons, ih, Ne.symm hline]
    decide
  | codePoint hescape _ ih =>
    rw [List.append_assoc]
    exact hescape.newline_notMem ih

theorem Position.after_escape
    (p : Position) (c : Char) (rest : List Char) :
    p.after (counted ('\\' :: c :: rest)) = (p.right 2).after (counted rest) := by
  have hc : (if c = '\n' then ' ' else c) ≠ '\n' := by
    split
    · decide
    · assumption
  rw [counted_escape, Position.after_cons, Position.after_cons, Position.advance,
    Position.advance, if_neg hc]
  rfl

theorem Position.after_counted_cons
    {c : Char} (hc : c ≠ '\\') (p : Position) (rest : List Char) :
    p.after (counted (c :: rest)) = (p.advance c).after (counted rest) := by
  rw [counted_cons hc, Position.after_cons]

theorem Position.after_substitution
    (p : Position) (rest : List Char) :
    p.after (counted ('$' :: '\x7b' :: rest)) = (p.right 2).after (counted rest) := by
  rw [p.after_counted_cons (by decide), Position.after_counted_cons (by decide)]
  rfl

theorem readTemplate_behind
    {depth : Nat} {position : Position} {cs : List Char} {span : TemplateSpan}
    (h : readTemplate depth position cs = .ok span) :
    span.behind = position.after (counted (span.text ++ ['\x60'])) := by
  fun_induction readTemplate depth position cs generalizing span with
  | case1 => cases h
  | case2 => cases h
  | case3 depth position escaped behind ih =>
    obtain ⟨found, hread, rfl⟩ := map_templatePrepend_eq_ok h
    rw [TemplateSpan.prepend, ih hread]
    exact (position.after_escape escaped _).symm
  | case4 =>
    obtain rfl := Except.ok.inj h
    rfl
  | case5 => cases h
  | case6 depth position c _ _ brace behind hopen ih =>
    obtain ⟨found, hread, rfl⟩ := map_templatePrepend_eq_ok h
    obtain ⟨rfl, hbrace⟩ := hopen
    obtain rfl := Option.some.inj hbrace
    rw [TemplateSpan.prepend, ih hread]
    exact (position.after_substitution _).symm
  | case7 depth position c rest hbackslash =>
    rename_i ih
    obtain ⟨found, hread, rfl⟩ := map_templatePrepend_eq_ok h
    rw [TemplateSpan.prepend, ih hread]
    exact (position.after_counted_cons hbackslash _).symm

/-- A template without an end is left in the line of the end of the text. -/
theorem readTemplate_eq_error
    {depth : Nat} {position ending : Position} {cs : List Char}
    (h : readTemplate depth position cs = .error ending) :
    ending.line = (position.after (counted cs)).line := by
  fun_induction readTemplate depth position cs with
  | case1 =>
    obtain rfl := Except.error.inj h
    rfl
  | case2 =>
    obtain rfl := Except.error.inj h
    rfl
  | case3 depth position escaped behind ih =>
    rw [ih (map_eq_error h), position.after_escape]
  | case4 => cases h
  | case5 _ _ _ _ _ hopen => cases hopen.2
  | case6 depth position c _ _ brace behind hopen ih =>
    obtain ⟨rfl, hbrace⟩ := hopen
    obtain rfl := Option.some.inj hbrace
    rw [ih (map_eq_error h), position.after_substitution]
  | case7 depth position c rest hbackslash =>
    rename_i ih
    rw [ih (map_eq_error h), position.after_counted_cons hbackslash]

/-- No numeral goes beyond its line: what follows a line feed is not looked at. -/
theorem Numeral.newline_notMem_of_spelling?
    {cs spelling : List Char} (h : Numeral.spelling? cs = some spelling) :
    '\n' ∉ spelling := by
  obtain ⟨body, hcs, hbody, hnext⟩ := exists_line cs
  have htail : Breaks (cs.dropWhile (· ≠ '\n')) := by
    intro c hhead
    obtain hnil | hline := hnext
    · rw [hnil] at hhead
      cases hhead
    · exact Option.some.inj (hhead.symm.trans hline)
  rw [hcs, Numeral.spelling?_append htail.stopsLexemes] at h
  exact fun hmem => hbody ((Numeral.spelling?_isPrefix h).subset hmem)

theorem newline_notMem_takeWhile
    (cs : List Char) :
    '\n' ∉ cs.takeWhile isNamePart := by
  intro hmem
  have hpart := List.mem_takeWhile_imp hmem
  exact absurd hpart (by decide)

theorem readRegexBody_newline_notMem
    {inClass : Bool} {cs body behind : List Char}
    (h : readRegexBody inClass cs = some (body, behind)) :
    '\n' ∉ body := by
  fun_induction readRegexBody inClass cs generalizing body with
  | case1 => simp at h
  | case2 => simp at h
  | case3 => simp at h
  | case4 => simp at h
  | case5 inClass escaped rest hescaped _ ih =>
    obtain ⟨⟨more, left⟩, hread, heq⟩ := Option.map_eq_some_iff.mp h
    obtain ⟨rfl, rfl⟩ := Prod.mk.inj heq
    simp [ih hread, Ne.symm hescaped]
  | case6 inClass c rest hline =>
    obtain ⟨rfl, rfl⟩ := Prod.mk.inj (Option.some.inj h)
    simpa using Ne.symm hline
  | case7 inClass c rest hline _ _ ih =>
    obtain ⟨⟨more, left⟩, hread, heq⟩ := Option.map_eq_some_iff.mp h
    obtain ⟨rfl, rfl⟩ := Prod.mk.inj heq
    simp [ih hread, Ne.symm hline]

theorem markAt_newline_notMem
    {c : Char} (hc : c ≠ '\n') (rest : List Char) :
    '\n' ∉ markAt c rest := by
  unfold markAt
  split
  · decide
  · split
    · decide
    · simpa using Ne.symm hc

/-- A text of one line moves the position by its length, however it is counted. -/
theorem Position.right_eq_after_counted
    {text : List Char} (h : '\n' ∉ counted text) (p : Position) :
    p.right text.length = p.after (counted text) := by
  rw [Position.after_eq_right h, length_counted]

/-- A lexeme that is spelled as it stands does not go beyond its line. -/
theorem StandsAs.newline_notMem
    {c : Char} {rest front : List Char} {lexeme : Lexeme} (h : StandsAs c rest front lexeme)
    (hc : c ≠ '\n') :
    '\n' ∉ front := by
  cases h with
  | name => exact List.not_mem_cons_of_ne_of_not_mem hc.symm (newline_notMem_takeWhile rest)
  | number hread => exact Numeral.newline_notMem_of_spelling? hread
  | regex hread =>
    simp [newline_notMem_takeWhile, readRegexBody_newline_notMem hread, hc.symm]
  | mark => exact markAt_newline_notMem hc rest

/-- Behind a lexeme the text goes on where its counted text ends. -/
theorem readLexeme_behind
    {previous : Option Lexeme} {start : Position} {c : Char} {rest text : List Char}
    {span : LexemeSpan} (hc : c ≠ '\n') (h : readLexeme previous start c rest = .ok span)
    (htext : c :: rest = text ++ span.rest) :
    span.behind = start.after (counted text) := by
  have houtcome := readLexeme_outcome previous start c rest
  rw [h] at houtcome
  cases houtcome with
  | @plain front _ hplain =>
    obtain rfl : front = text :=
      List.append_cancel_right ((List.prefix_iff_eq_append.mp hplain.isPrefix).trans htext)
    exact Position.right_eq_after_counted (newline_notMem_counted (hplain.newline_notMem hc)) start
  | @string value behind hquote hread =>
    obtain ⟨body, hbody, rfl⟩ := readString_eq_ok hread
    have hbackslash : c ≠ '\\' := by
      rcases hquote with rfl | rfl
      · decide
      · decide
    have hend : '\n' ∉ counted [c] := newline_notMem_counted (by simpa using hc.symm)
    have hline : '\n' ∉ counted (c :: (body ++ [c])) := by
      rw [counted_cons hbackslash]
      exact List.not_mem_cons_of_ne_of_not_mem hc.symm (hbody.newline_notMem hend)
    obtain rfl : c :: (body ++ [c]) = text := List.append_cancel_right (by simpa using htext)
    rw [← Position.right_eq_after_counted hline]
    simp [Position.right]
    omega
  | @template found hquote hread =>
    obtain rfl := hquote
    have hcut := readTemplate_eq_ok hread
    obtain rfl : '\x60' :: (found.text ++ ['\x60']) = text :=
      List.append_cancel_right (by simpa [hcut] using htext)
    rw [Position.after_counted_cons (by decide)]
    exact readTemplate_behind hread

theorem after_positionBehind
    (front cs : List Char) :
    (positionBehind front).after cs = positionBehind (front ++ cs) := by
  rw [← start_after, ← start_after, Position.after_append]

theorem readLexeme_place
    {previous : Option Lexeme} {front : List Char} {c : Char} {rest text : List Char}
    {span : LexemeSpan} (h : readLexeme previous (positionBehind front) c rest = .ok span)
    (hbehind : span.behind = positionBehind (front ++ counted text)) :
    span.place = span.lexeme.placeBehind front (counted text) := by
  have houtcome := readLexeme_outcome previous (positionBehind front) c rest
  rw [h] at houtcome
  cases houtcome with
  | plain hplain =>
    cases hplain with
    | name | number | regex | mark => rfl
  | string => rfl
  | template => simp only [Lexeme.placeBehind, endLinePosition, ← hbehind]

theorem readString_eq_error
    {quote : Char} {cs : List Char} {fault : Fault} (h : readString quote cs = .error fault) :
    fault = .unterminatedString ∨ fault = .invalidEscape := by
  fun_induction readString quote cs with
  | case1 | case2 | case4 => exact .inl (Except.error.inj h).symm
  | case3 => cases h
  | case5 => exact .inr (Except.error.inj h).symm
  | case6 letter rest _ _ _ _ _ _ ih => exact ih (map_eq_error h)
  | case7 rest _ _ _ ih => exact ih h
  | case8 letter rest _ _ _ _ ih => exact ih (map_eq_error h)
  | case9 c rest _ _ _ ih => exact ih (map_eq_error h)

/-- A lexeme is refused for what starts in its place. -/
theorem readLexeme_eq_error
    {previous : Option Lexeme} {front : List Char} {c : Char} {rest : List Char} {e : SourceError}
    (hstarts : StartsLexeme c rest)
    (h : readLexeme previous (positionBehind front) c rest = .error e) :
    Offends previous e.fault (c :: rest) ∧
      e.position = e.fault.placeBehind front (counted (c :: rest)) := by
  have houtcome := readLexeme_outcome previous (positionBehind front) c rest
  rw [h] at houtcome
  cases houtcome with
  | badNumber hstart hread => exact ⟨.number hstart hread, rfl⟩
  | badString hquote hread =>
    refine ⟨.string hquote hread, ?_⟩
    rcases readString_eq_error hread with rfl | rfl
    · rfl
    · rfl
  | badTemplate hquote hread =>
    obtain rfl := hquote
    refine ⟨.template hread, ?_⟩
    have hline := readTemplate_eq_error hread
    simp only [Fault.placeBehind, endLinePosition, ← after_positionBehind,
      Position.after_counted_cons (show '\x60' ≠ '\\' by decide)]
    exact congrArg (Position.mk · _) hline
  | badRegex hslash hallowed hread =>
    obtain rfl := hslash
    exact ⟨.regex hstarts hallowed hread, rfl⟩

theorem readGap_openComment {rest : List Char} (hopen : ¬ ['*', '/'] <:+: rest) (lead : Lead) :
    readGap lead ('/' :: '*' :: rest) = .error ⟨.unterminatedComment, lead.position⟩ := by
  rw [readGap, if_neg (by decide), if_neg (by decide), if_neg (by simp), if_pos (by simp)]
  split
  · rfl
  · rename_i hclosed
    cases (commentBody_eq_none_iff.mpr hopen).symm.trans hclosed

/-- Where a template starts does not matter for whether it ends. -/
theorem readTemplate_eq_error_of_eq_error
    {position ending : Position} {rest : List Char} (h : readTemplate 0 position rest = .error ending)
    (start : Position) :
    ∃ ending', readTemplate 0 start rest = .error ending' := by
  have hnone : StopsLexemes [] := fun c hc => by cases hc
  cases hread : readTemplate 0 start rest with
  | error ending' => exact ⟨ending', rfl⟩
  | ok span =>
    obtain ⟨behind, hagain⟩ := readTemplate_append hnone hread position
    rw [List.append_nil, h] at hagain
    cases hagain

/-- A comment without an end, or a literal or a number that cannot be read. -/
theorem Offends.refused
    {previous : Option Lexeme} {fault : Fault} {offender : List Char}
    (h : Offends previous fault offender) (lead : Lead) :
    readGap lead offender = .error ⟨fault, lead.position⟩ ∧ fault = .unterminatedComment ∨
      ∃ c rest position, offender = c :: rest ∧ StartsLexeme c rest ∧
        readLexeme previous lead.position c rest = .error ⟨fault, position⟩ := by
  cases h with
  | @comment rest hopen => exact .inl ⟨readGap_openComment hopen lead, rfl⟩
  | @number c rest hstart hinvalid =>
    obtain ⟨hname, hblank, hslash⟩ := first_of_startsNumeral hstart
    refine .inr ⟨c, rest, lead.position, rfl, startsLexeme_of_ne_slash hblank hslash rest, ?_⟩
    rw [readLexeme, if_neg (by simp [hname]), if_pos hstart, hinvalid]
  | @string quote rest _ hquote hopen =>
    have hfirst : isNameStart quote = false ∧ Text.isDigit quote = false ∧ quote ≠ '.' ∧
        Text.isBlank quote = false ∧ quote ≠ '/' := by
      rcases hquote with rfl | rfl <;> decide +kernel
    obtain ⟨hname, hdigit, hpoint, hblank, hslash⟩ := hfirst
    refine .inr ⟨quote, rest, lead.position, rfl, startsLexeme_of_ne_slash hblank hslash rest, ?_⟩
    rw [readLexeme, if_neg (by simp [hname]), if_neg (by simp [startsNumeral, hdigit, hpoint]),
      if_pos hquote, hopen]
  | @template position ending rest hopen =>
    have hdigit : Text.isDigit '\x60' = false := by decide +kernel
    obtain ⟨ending', hread⟩ := readTemplate_eq_error_of_eq_error hopen (lead.position.right 1)
    refine .inr ⟨'\x60', rest, ⟨ending'.line, lead.position.column⟩, rfl,
      startsLexeme_of_ne_slash (by decide) (by decide) rest, ?_⟩
    rw [readLexeme, if_neg (by decide +kernel), if_neg (by simp [startsNumeral, hdigit]),
      if_neg (by decide), if_pos rfl, hread]
  | @regex rest hstarts hallowed hopen =>
    have hdigit : Text.isDigit '/' = false := by decide +kernel
    refine .inr ⟨'/', rest, lead.position, rfl, hstarts, ?_⟩
    rw [readLexeme, if_neg (by decide +kernel), if_neg (by simp [startsNumeral, hdigit]),
      if_neg (by decide), if_neg (by decide), if_pos ⟨rfl, hallowed⟩, hopen]

/-! ## Texts -/

theorem readGap_ne_newline
    {lead lead' : Lead} {cs rest : List Char} {c : Char}
    (h : readGap lead cs = .ok (lead', c :: rest)) :
    c ≠ '\n' := by
  rintro rfl
  have hnil : Breaks [] := fun _ hnone => absurd hnone.symm (Option.some_ne_none _)
  have hstop := readGap_stop hnil h ⟨.start, false, []⟩
  rw [List.append_nil, readGap_newline] at hstop
  obtain ⟨_, _, _, hnewline, _⟩ := readGap_eq_ok hstop
  simp at hnewline

theorem readGap_ok_place
    {front cs rest : List Char} {lead : Lead}
    (h : readGap ⟨positionBehind front, false, []⟩ cs = .ok (lead, rest)) :
    ∃ pieces, cs = gapText pieces ++ rest ∧ GapFits rest pieces ∧
      lead.position = positionBehind (front ++ gapText pieces) := by
  obtain ⟨pieces, behind, hcs, hfits, hfound⟩ := readGap_outcome ⟨positionBehind front, false, []⟩ cs
  rw [h] at hfound
  cases hfound with
  | read hplace => exact ⟨pieces, hcs, hfits, hplace.trans (after_positionBehind front _)⟩

/-- What ends a gap with an error is refused in its place. -/
theorem Located.of_readGap
    {count : List Char → List Char} {front cs : List Char} {e : SourceError}
    (h : readGap ⟨positionBehind front, false, []⟩ cs = .error e) (previous : Option Lexeme) :
    Located count previous front cs (.error e) := by
  obtain ⟨pieces, behind, rfl, hfits, hfound⟩ :=
    readGap_outcome ⟨positionBehind front, false, []⟩ cs
  rw [h] at hfound
  cases hfound with
  | refused hoffends =>
    rw [after_positionBehind]
    exact .refused hfits (hoffends previous)

/-- A lexeme that is read behind a gap has its place, and its counted text is what moves on the
places of all that follows. -/
theorem Located.of_readLexeme
    {count : List Char → List Char} {front cs rest : List Char} {previous : Option Lexeme}
    {lead : Lead} {c : Char} {span : LexemeSpan} {result : Except SourceError TokenStream}
    (hcount : ∀ text, text <:+: cs → count text = counted text)
    (hgap : readGap ⟨positionBehind front, false, []⟩ cs = .ok (lead, c :: rest))
    (hlexeme : readLexeme previous lead.position c rest = .ok span)
    (hbehind : ∀ {front'}, span.behind = positionBehind front' →
      (∀ text, text <:+: span.rest → count text = counted text) →
        Located count (some span.lexeme) front' span.rest result) :
    Located count previous front cs
      (result.map (.cons ⟨span.lexeme, { lead with position := span.place }⟩)) := by
  have hc := readGap_ne_newline hgap
  obtain ⟨pieces, rfl, hfits, hlead⟩ := readGap_ok_place hgap
  rw [hlead] at hlexeme
  obtain ⟨text, htext, hrest⟩ := readLexeme_eq_ok hlexeme
  have hafter := readLexeme_behind hc hlexeme hrest
  rw [after_positionBehind] at hafter
  have hplace := readLexeme_place hlexeme hafter
  rw [hrest] at hcount hfits ⊢
  have hwithin : text <:+: gapText pieces ++ (text ++ span.rest) :=
    (List.prefix_append text _).isInfix.trans (List.suffix_append _ _).isInfix
  rw [← hcount text hwithin] at hafter hplace
  rw [← List.append_assoc]
  have hread : IsReadBehind previous span.lexeme text span.rest :=
    ⟨hrest.symm, startsLexeme_of_readGap hgap, hlexeme⟩
  refine .token hfits htext hread hplace (hbehind hafter fun part hpart => hcount part ?_)
  exact hpart.trans ((List.suffix_append text _).isInfix.trans (List.suffix_append _ _).isInfix)

/-- Reading on from a true position finds everything in its place. -/
theorem readTokens_located
    {count : List Char → List Char} {front : List Char} {previous : Option Lexeme}
    {position : Position} {cs : List Char} (hposition : position = positionBehind front)
    (hcount : ∀ text, text <:+: cs → count text = counted text) :
    Located count previous front cs (readTokens previous position cs) := by
  fun_induction readTokens previous position cs generalizing front with
  | case1 previous position cs e hgap =>
    subst hposition
    exact .of_readGap hgap previous
  | case2 previous position cs lead hgap =>
    subst hposition
    obtain ⟨pieces, rfl, hfits, hlead⟩ := readGap_ok_place hgap
    rw [List.append_nil]
    exact .ending hfits hlead
  | case3 previous position cs lead c rest hgap e hlexeme =>
    subst hposition
    obtain ⟨pieces, rfl, hfits, hlead⟩ := readGap_ok_place hgap
    rw [hlead] at hlexeme
    obtain ⟨hoffends, hplace⟩ := readLexeme_eq_error (startsLexeme_of_readGap hgap) hlexeme
    rw [← hcount _ (List.suffix_append _ _).isInfix] at hplace
    have hrefused : Located count previous front _ _ := .refused hfits hoffends
    rw [← hplace] at hrefused
    exact hrefused
  | case4 previous position cs lead c rest hgap span hlexeme e hmore ih =>
    subst hposition
    rw [hmore] at ih
    exact .of_readLexeme hcount hgap hlexeme ih
  | case5 previous position cs lead c rest hgap span hlexeme more hmore =>
    rename_i ih
    subst hposition
    rw [hmore] at ih
    exact .of_readLexeme hcount hgap hlexeme ih

/-- No other error stands in its place. -/
theorem Located.readTokens_eq_error
    {previous : Option Lexeme} {front cs : List Char} {e : SourceError}
    (h : Located counted previous front cs (.error e)) :
    readTokens previous (positionBehind front) cs = .error e := by
  generalize hresult : Except.error e = result at h
  induction h with
  | ending => cases hresult
  | @token previous front text behind pieces token result hfits htext hread hplace _ ih =>
    obtain rfl : result = .error e := map_eq_error hresult.symm
    obtain @⟨c, rest, start, place, ending, hcut, hstarts, hlexeme⟩ := hread
    have hnone : StopsLexemes [] := fun c hc => by cases hc
    have hgap := readGap_gapText hfits ⟨positionBehind front, false, []⟩
    have hposition := foldl_afterPiece_position hfits ⟨positionBehind front, false, []⟩
    generalize pieces.foldl Lead.afterPiece ⟨positionBehind front, false, []⟩ = lead at hgap hposition
    rw [hcut, hstarts.readGap_eq] at hgap
    obtain ⟨place', ending', hagain⟩ := readLexeme_append hnone hlexeme rfl lead.position
    rw [List.append_nil, List.append_nil] at hagain
    have hc : c ≠ '\n' := by
      rintro rfl
      exact absurd hstarts.blank (by decide)
    have hending : ending' = positionBehind (front ++ gapText pieces ++ counted text) := by
      refine (readLexeme_behind hc hagain hcut.symm).trans ?_
      rw [hposition, after_positionBehind, after_positionBehind]
    rw [List.append_assoc, hcut, readTokens_eq, hgap]
    simp only [hagain, hending, ih rfl]
    rfl
  | @refused previous front offender pieces fault hfits hoffends =>
    obtain rfl := Except.error.inj hresult
    have hgap := readGap_gapText hfits ⟨positionBehind front, false, []⟩
    have hposition := foldl_afterPiece_position hfits ⟨positionBehind front, false, []⟩
    generalize pieces.foldl Lead.afterPiece ⟨positionBehind front, false, []⟩ = lead at hgap hposition
    rw [after_positionBehind] at hposition
    obtain ⟨hcomment, rfl⟩ | ⟨c, rest, position, rfl, hstarts, hlexeme⟩ := hoffends.refused lead
    · rw [readTokens_eq, hgap, hcomment, hposition]
      rfl
    · rw [hposition] at hlexeme
      obtain ⟨-, hplace⟩ := readLexeme_eq_error hstarts hlexeme
      simp only at hplace
      rw [readTokens_eq, hgap, hstarts.readGap_eq]
      simp only [hposition, hlexeme, hplace]

/-- The tokens of a text and its end have their true positions, and so has an error, when escaped line
feeds are counted as other characters and templates are placed in the line of their end. Where no line
feed is escaped, everything is counted as it stands. An error that has its position in this sense is the
one that is reported. -/
theorem TokenStream.located_ofText
    (text : String) :
    Located counted none [] text.toList (TokenStream.ofText text) ∧
      (¬ ['\\', '\n'] <:+: text.toList →
        Located id none [] text.toList (TokenStream.ofText text)) ∧
      ∀ e, Located counted none [] text.toList (.error e) → TokenStream.ofText text = .error e := by
  refine ⟨readTokens_located rfl fun _ _ => rfl, fun hplain => readTokens_located rfl ?_,
    fun _ herror => herror.readTokens_eq_error⟩
  intro part hpart
  exact (counted_eq_self fun hwithin => hplain (hwithin.trans hpart)).symm

/-- A string over two lines and a name behind it. -/
def continuedText : String :=
  "'a\\\nb' c"

/-- A template over two lines. -/
def tallTemplate : String :=
  "\x60a\nb\x60"

/-- The name stands in the second line, and the template starts in the first one. -/
theorem ofText_continuedText :
    TokenStream.ofText continuedText = .ok ⟨[⟨.string "ab", ⟨⟨1, 1⟩, false, []⟩⟩,
        ⟨.ident "c", ⟨⟨1, 8⟩, false, []⟩⟩], ⟨⟨1, 9⟩, false, []⟩⟩ ∧
      positionBehind "'a\\\nb' ".toList = ⟨2, 4⟩ ∧
      TokenStream.ofText tallTemplate =
        .ok ⟨[⟨.template "a\nb", ⟨⟨2, 1⟩, false, []⟩⟩], ⟨⟨2, 3⟩, false, []⟩⟩ ∧
      positionBehind [] = ⟨1, 1⟩ := by
  have hquote : readGap ⟨.start, false, []⟩ continuedText.toList =
      .ok (⟨⟨1, 1⟩, false, []⟩, continuedText.toList) := by cbv
  have hstring : readLexeme none ⟨1, 1⟩ '\'' "a\\\nb' c".toList =
      .ok ⟨.string "ab", ⟨1, 1⟩, ⟨1, 7⟩, " c".toList⟩ := by
    have hread : readString '\'' "a\\\nb' c".toList = .ok (("ab" : Text).toList, " c".toList) := by
      simp [readString, Except.map, prepend]
    rw [readLexeme, if_neg (by decide), if_neg (by decide), if_pos (by decide), hread]
    rfl
  have hblank : readGap ⟨⟨1, 7⟩, false, []⟩ " c".toList =
      .ok (⟨⟨1, 8⟩, false, []⟩, "c".toList) := by cbv
  have hname : readLexeme (some (.string "ab")) ⟨1, 8⟩ 'c' [] =
      .ok ⟨.ident "c", ⟨1, 8⟩, ⟨1, 9⟩, []⟩ := by rfl
  have hending : ∀ position, readGap ⟨position, false, []⟩ [] =
      .ok (⟨position, false, []⟩, []) := by
    intro position
    rw [readGap]
  have hmark : readGap ⟨.start, false, []⟩ tallTemplate.toList =
      .ok (⟨⟨1, 1⟩, false, []⟩, tallTemplate.toList) := by cbv
  have htemplate : readLexeme none ⟨1, 1⟩ '\x60' "a\nb\x60".toList =
      .ok ⟨.template "a\nb", ⟨2, 1⟩, ⟨2, 3⟩, []⟩ := by rfl
  refine ⟨?_, by decide, ?_, by decide⟩
  · exact readTokens_token hquote hstring
      (readTokens_token hblank hname (readTokens_ending (hending _)))
  · exact readTokens_token hmark htemplate (readTokens_ending (hending _))

end EntityDiagram.Source
