import EntityDiagram.Proofs.Source.Gaps
import EntityDiagram.Proofs.Source.NumeralReading
import EntityDiagram.Proofs.Source.QuotedReading
import EntityDiagram.Proofs.Source.Writing

/-!
# Tokens that are written again

The tokens of a text can be written with nothing but white space between them, strings quoted anew, and
are read as the same tokens. Each kind of lexeme has an argument of its own, all of one form: in front of
any white space the spelling is read as the lexeme. Whether a slash is a mark or starts a regular
expression depends on the lexeme before, which is the same in both texts.
-/

namespace EntityDiagram.Source

/-! ## Lexemes that stand alone -/

/-- White space in front of a text changes nothing but the lead. -/
theorem readGap_blanks
    {blanks : List Char} (hblanks : ∀ c ∈ blanks, Text.isBlank c = true) (lead : Lead)
    (cs : List Char) :
    ∃ lead', readGap lead (blanks ++ cs) = readGap lead' cs := by
  induction blanks generalizing lead with
  | nil => exact ⟨lead, rfl⟩
  | cons c blanks ih =>
    obtain ⟨hc, hmore⟩ := List.forall_mem_cons.mp hblanks
    rw [List.cons_append, readGap]
    by_cases hnewline : c = '\n'
    · rw [if_pos hnewline]
      exact ih hmore _
    · rw [if_neg hnewline, if_pos hc]
      exact ih hmore _

/-- In front of white space and behind another lexeme, the spelling is read as the lexeme. -/
def StandsAlone (previous : Option Lexeme) (lexeme : Lexeme) : Prop :=
  ∀ tail, StartsBlank tail → ∃ c rest, lexeme.spelling.toList ++ tail = c :: rest ∧
    StartsLexeme c rest ∧
    ∀ start, ∃ place behind, readLexeme previous start c rest = .ok ⟨lexeme, place, behind, tail⟩

theorem spelling_append_eq
    {lexeme : Lexeme} {text tail written : List Char} (h : lexeme.spelling = String.ofList text)
    (hwritten : text ++ tail = written) :
    lexeme.spelling.toList ++ tail = written := by
  rw [h, String.toList_ofList, hwritten]

theorem StartsBlank.startsApart
    {tail : List Char} (h : StartsBlank tail) :
    StartsApart tail :=
  fun c hc => isNamePart_of_isBlank (h c hc)

theorem standsAlone_name
    {name : String} (hname : IsName name.toList) (previous : Option Lexeme) :
    StandsAlone previous (.ident name) := by
  intro tail htail
  obtain ⟨c, rest, hchars, hstart, hrest⟩ := hname.exists_cons
  have hpart := isNamePart_of_isNameStart hstart
  have hslash : c ≠ '/' := by
    rintro rfl
    exact absurd hpart (by decide +kernel)
  have hread := readLexeme_name hstart hrest htail.startsApart previous
  rw [← hchars, String.ofList_toList] at hread
  have hspelling : (Lexeme.ident name).spelling.toList ++ tail = c :: (rest ++ tail) := by
    rw [← List.cons_append, ← hchars]
    rfl
  refine ⟨c, rest ++ tail, hspelling, ?_, fun start => ⟨_, _, hread start⟩⟩
  exact startsLexeme_of_ne_slash (isBlank_of_isNamePart hpart) hslash _

theorem standsAlone_number
    {c : Char} {rest spelling : List Char} (h : Numeral.spelling? (c :: rest) = some spelling)
    (previous : Option Lexeme) :
    StandsAlone previous (.number (String.ofList spelling)) := by
  intro tail htail
  obtain ⟨behind, hbehind⟩ := Numeral.spelling?_isPrefix h
  cases spelling with
  | nil => exact absurd rfl (Numeral.spelling?_ne_nil h)
  | cons first more =>
    obtain ⟨rfl, -⟩ := List.cons.inj hbehind
    have hread : Numeral.spelling? (first :: (more ++ tail)) = some (first :: more) :=
      Numeral.spelling?_again h htail
    have hnumeral := Numeral.startsNumeral_of_spelling? hread
    obtain ⟨hname, hblank, hslash⟩ := first_of_startsNumeral hnumeral
    refine ⟨first, more ++ tail, spelling_append_eq rfl rfl,
      startsLexeme_of_ne_slash hblank hslash _, fun start => ?_⟩
    have hdrop : (first :: (more ++ tail)).drop (first :: more).length = tail := List.drop_left
    rw [readLexeme, if_neg (by simp [hname]), if_pos hnumeral, hread]
    simp only [hdrop]
    exact ⟨_, _, rfl⟩

/-! ## Texts with closing marks -/

/-- A string is written between quotes that are not the ones in it, or are escaped there. -/
theorem standsAlone_string
    {text : Text} (htext : Text.IsQuotable text.toList) (previous : Option Lexeme) :
    StandsAlone previous (.string text) := by
  intro tail htail
  have hquote := quoteFor_eq text.toList
  have hspelling : (Lexeme.string text).spelling.toList ++ tail =
      Text.quoteFor text.toList :: (text.toList.flatMap (Text.quotedChar
        (Text.quoteFor text.toList)) ++ Text.quoteFor text.toList :: tail) := by
    simp [Lexeme.spelling, Text.quoted, Text.quotedChars]
  have hread := readString_quotedText hquote htext tail
  generalize Text.quoteFor text.toList = quote at hquote hspelling hread
  have hmark : Text.isBlank quote = false ∧ quote ≠ '/' := by
    rcases hquote with rfl | rfl <;> decide +kernel
  obtain ⟨hblank, hslash⟩ := hmark
  refine ⟨quote, _, hspelling, startsLexeme_of_ne_slash hblank hslash _, fun start => ?_⟩
  rw [readLexeme_quote hquote hread]
  exact ⟨_, _, rfl⟩

/-- What a template holds does not depend on what follows its closing mark. -/
theorem readTemplate_again
    {depth : Nat} {position : Position} {cs : List Char} {span : TemplateSpan}
    (h : readTemplate depth position cs = .ok span) (other : Position) (tail : List Char) :
    ∃ behind, readTemplate depth other (span.text ++ '\x60' :: tail) =
      .ok ⟨span.text, behind, tail⟩ := by
  fun_induction readTemplate depth position cs generalizing span other with
  | case1 | case2 | case5 => cases h
  | case3 depth position escaped rest ih =>
    obtain ⟨more, hread, rfl⟩ := map_templatePrepend_eq_ok h
    obtain ⟨behind, hmore⟩ := ih hread (other.right 2)
    refine ⟨behind, ?_⟩
    simp only [TemplateSpan.prepend, List.cons_append, List.nil_append]
    rw [readTemplate_escaped, hmore]
    rfl
  | case4 depth position c rest hbackslash hclose =>
    obtain rfl := Except.ok.inj h
    obtain ⟨rfl, rfl⟩ := hclose
    exact ⟨other.right 1, readTemplate_quote other tail⟩
  | case6 depth position c hbackslash hclose brace rest hopen ih =>
    obtain ⟨more, hread, rfl⟩ := map_templatePrepend_eq_ok h
    obtain ⟨behind, hmore⟩ := ih hread (other.right 2)
    obtain ⟨rfl, hbrace⟩ := hopen
    obtain rfl := Option.some.inj hbrace
    refine ⟨behind, ?_⟩
    simp only [TemplateSpan.prepend, List.cons_append, List.nil_append]
    rw [readTemplate_substitution, hmore]
    rfl
  | case7 depth position c rest hbackslash hclose hopen =>
    rename_i ih
    obtain ⟨more, hread, rfl⟩ := map_templatePrepend_eq_ok h
    obtain ⟨behind, hmore⟩ := ih hread (other.advance c)
    have hhead : (more.text ++ '\x60' :: tail).head? = rest.head? := by
      rw [readTemplate_eq_ok hread]
      cases more.text <;> rfl
    have hopen' : ¬(c = '$' ∧ (more.text ++ '\x60' :: tail).head? = some '\x7b') := by
      rwa [hhead]
    refine ⟨behind, ?_⟩
    simp only [TemplateSpan.prepend, List.cons_append, List.nil_append]
    rw [readTemplate_plain hbackslash hclose hopen', hmore]
    rfl

theorem readLexeme_template
    {start : Position} {rest : List Char} {span : TemplateSpan}
    (h : readTemplate 0 (start.right 1) rest = .ok span) (previous : Option Lexeme) :
    readLexeme previous start '\x60' rest =
      .ok ⟨.template (String.ofList span.text), ⟨span.behind.line, start.column⟩, span.behind,
        span.rest⟩ := by
  have hnumeral : ¬startsNumeral '\x60' rest = true := by
    have hdigit : Text.isDigit '\x60' = false := by decide +kernel
    simp [startsNumeral, hdigit]
  rw [readLexeme, if_neg (by decide +kernel), if_neg hnumeral, if_neg (by decide), if_pos rfl, h]

theorem standsAlone_template
    {position : Position} {rest : List Char} {found : TemplateSpan}
    (h : readTemplate 0 position rest = .ok found) (previous : Option Lexeme) :
    StandsAlone previous (.template (String.ofList found.text)) := by
  intro tail htail
  have hspelling : (Lexeme.template (String.ofList found.text)).spelling.toList ++ tail =
      '\x60' :: (found.text ++ '\x60' :: tail) := by
    simp [Lexeme.spelling]
  refine ⟨'\x60', _, hspelling, startsLexeme_of_ne_slash (by decide) (by decide) _,
    fun start => ?_⟩
  obtain ⟨behind, hread⟩ := readTemplate_again h (start.right 1) tail
  exact ⟨_, _, readLexeme_template hread previous⟩

/-- What a regular expression holds does not depend on what follows its closing slash. -/
theorem readRegexBody_again
    {inClass : Bool} {cs body behind : List Char}
    (h : readRegexBody inClass cs = some (body, behind)) (tail : List Char) :
    readRegexBody inClass (body ++ tail) = some (body, tail) := by
  fun_induction readRegexBody inClass cs generalizing body with
  | case1 | case2 | case3 | case4 => cases h
  | case5 inClass escaped rest hescaped hline ih =>
    obtain ⟨⟨more, left⟩, hread, heq⟩ := Option.map_eq_some_iff.mp h
    obtain ⟨rfl, rfl⟩ := Prod.mk.inj heq
    simp only [List.cons_append, List.nil_append]
    rw [readRegexBody.eq_def]
    simp only [if_neg hline, if_true, if_neg hescaped]
    rw [ih hread]
    rfl
  | case6 inClass c rest hline hbackslash hslash =>
    obtain ⟨rfl, rfl⟩ := Prod.mk.inj (Option.some.inj h)
    rw [List.cons_append, List.nil_append, readRegexBody.eq_def]
    simp only [if_neg hline, if_neg hbackslash, if_pos hslash]
  | case7 inClass c rest hline hbackslash hslash ih =>
    obtain ⟨⟨more, left⟩, hread, heq⟩ := Option.map_eq_some_iff.mp h
    obtain ⟨rfl, rfl⟩ := Prod.mk.inj heq
    rw [List.cons_append, List.nil_append, List.cons_append, readRegexBody.eq_def]
    simp only [if_neg hline, if_neg hbackslash, if_neg hslash]
    rw [ih hread]
    rfl

/-- A slash where an expression may begin starts a regular expression. -/
theorem readLexeme_regex
    {previous : Option Lexeme} (hallowed : regexAllowedAfter previous = true)
    {rest body behind : List Char} (h : readRegexBody false rest = some (body, behind))
    (start : Position) :
    readLexeme previous start '/' rest = .ok ⟨
      .regex (String.ofList ('/' :: body ++ behind.takeWhile isNamePart)), start,
      start.right ('/' :: body ++ behind.takeWhile isNamePart).length,
      behind.dropWhile isNamePart⟩ := by
  have hnumeral : ¬startsNumeral '/' rest = true := by
    have hdigit : Text.isDigit '/' = false := by decide +kernel
    simp [startsNumeral, hdigit]
  rw [readLexeme, if_neg (by decide +kernel), if_neg hnumeral, if_neg (by decide),
    if_neg (by decide), if_pos ⟨rfl, hallowed⟩, h]

theorem standsAlone_regex
    {previous : Option Lexeme} (hallowed : regexAllowedAfter previous = true)
    {rest body behind : List Char} (hstarts : StartsLexeme '/' rest)
    (h : readRegexBody false rest = some (body, behind)) :
    StandsAlone previous (.regex (String.ofList ('/' :: body ++ behind.takeWhile isNamePart))) := by
  intro tail htail
  have hread := readRegexBody_again h (behind.takeWhile isNamePart ++ tail)
  have hflags : (behind.takeWhile isNamePart ++ tail).takeWhile isNamePart =
      behind.takeWhile isNamePart := takeWhile_again htail.startsApart behind
  have hrest : (behind.takeWhile isNamePart ++ tail).dropWhile isNamePart = tail :=
    dropWhile_append_of_stop (fun _ hc => List.mem_takeWhile_imp hc) htail.startsApart
  have hhead : (body ++ (behind.takeWhile isNamePart ++ tail)).head? = rest.head? := by
    have hlength := readRegexBody_length h
    rw [readRegexBody_eq_some h] at hlength ⊢
    cases body with
    | nil => exact absurd hlength (Nat.lt_irrefl _)
    | cons c body => rfl
  have hspelling : (Lexeme.regex (String.ofList
      ('/' :: body ++ behind.takeWhile isNamePart))).spelling.toList ++ tail =
        '/' :: (body ++ (behind.takeWhile isNamePart ++ tail)) := by
    refine spelling_append_eq rfl ?_
    rw [List.append_assoc, List.cons_append]
  refine ⟨'/', body ++ (behind.takeWhile isNamePart ++ tail), hspelling,
    ⟨hstarts.blank, ?_, ?_⟩, fun start => ?_⟩
  · rw [hhead]
    exact hstarts.line
  · rw [hhead]
    exact hstarts.block
  · rw [readLexeme_regex hallowed hread, hflags, hrest]
    exact ⟨_, _, rfl⟩

/-! ## Marks -/

/-- A mark of several characters is seen from the character behind its first one. -/
theorem markAt_cases
    (c : Char) (rest : List Char) :
    c = '=' ∧ markAt c rest = ['=', '>'] ∨ c = '.' ∧ markAt c rest = ['.', '.', '.'] ∨
      markAt c rest = [c] := by
  unfold markAt
  split_ifs with harrow hdots
  · exact .inl ⟨harrow.1, rfl⟩
  · exact .inr (.inl ⟨hdots.1, rfl⟩)
  · exact .inr (.inr rfl)

/-- No mark of several characters goes on in white space. -/
theorem markAt_of_startsBlank
    {tail : List Char} (htail : StartsBlank tail) (c : Char) :
    markAt c tail = [c] := by
  have harrow : ¬(c = '=' ∧ tail.head? = some '>') := fun h =>
    htail.head?_ne (by decide) h.2
  have hdots : ¬(c = '.' ∧ tail.take 2 = ['.', '.']) := by
    rintro ⟨-, htake⟩
    cases tail with
    | nil => cases htake
    | cons first more =>
      obtain ⟨rfl, -⟩ := List.cons.inj htake
      exact absurd htail.cons (by decide)
  rw [markAt, if_neg harrow, if_neg hdots]

theorem standsAlone_mark
    {previous : Option Lexeme} {c : Char} {rest : List Char} (hblank : Text.isBlank c = false)
    (hname : ¬isNameStart c = true) (hnumeral : ¬startsNumeral c rest = true)
    (hquote : ¬(c = '\'' ∨ c = '"')) (hback : c ≠ '\x60')
    (hslash : ¬(c = '/' ∧ regexAllowedAfter previous = true)) :
    StandsAlone previous (.punct (String.ofList (markAt c rest))) := by
  intro tail htail
  have hpoint : Text.isDigit '.' = false := by decide +kernel
  have hequals : Text.isDigit '=' = false := by decide +kernel
  rcases markAt_cases c rest with ⟨rfl, hmark⟩ | ⟨rfl, hmark⟩ | hmark
  · rw [hmark]
    refine ⟨'=', '>' :: tail, spelling_append_eq rfl rfl,
      startsLexeme_of_ne_slash hblank (by decide) _, fun start => ?_⟩
    exact ⟨_, _, readLexeme_punct hname (by simp [startsNumeral, hequals]) hquote hback hslash
      (if_pos ⟨rfl, rfl⟩) rfl start⟩
  · rw [hmark]
    refine ⟨'.', '.' :: '.' :: tail, spelling_append_eq rfl rfl,
      startsLexeme_of_ne_slash hblank (by decide) _, fun start => ?_⟩
    exact ⟨_, _, readLexeme_punct hname (by simp [startsNumeral, hpoint]) hquote hback hslash
      (by simp [markAt]) rfl start⟩
  · rw [hmark]
    have hstarts : StartsLexeme c tail :=
      ⟨hblank, fun h => htail.head?_ne (by decide) h.2, fun h => htail.head?_ne (by decide) h.2⟩
    have hdigits : ¬startsNumeral c tail = true := by
      have hdigit : Text.isDigit c = false := by
        rw [startsNumeral, Bool.or_eq_true, not_or] at hnumeral
        exact Bool.not_eq_true _ ▸ hnumeral.1
      have hnext : tail.head?.any Text.isDigit = false := by
        cases tail with
        | nil => rfl
        | cons d more =>
          exact isDigit_eq_false_of_isNamePart (isNamePart_of_isBlank htail.cons)
      simp [startsNumeral, hdigit, hnext]
    refine ⟨c, tail, spelling_append_eq rfl rfl, hstarts, fun start => ?_⟩
    exact ⟨_, _, readLexeme_punct hname hdigits hquote hback hslash (markAt_of_startsBlank htail c)
      rfl start⟩

/-! ## All lexemes -/

/-- If the lexeme is a string, it can be quoted without an escape of eight digits. -/
def Lexeme.IsQuotable : Lexeme → Prop
  | .string text => Text.IsQuotable text.toList
  | _ => True

/-- Whatever is read as a lexeme, its spelling stands alone. -/
theorem standsAlone_of_readLexeme
    {previous : Option Lexeme} {start : Position} {c : Char} {rest : List Char} {span : LexemeSpan}
    (h : readLexeme previous start c rest = .ok span) (hstarts : StartsLexeme c rest)
    (hquotable : span.lexeme.IsQuotable) :
    StandsAlone previous span.lexeme := by
  by_cases hname : isNameStart c = true
  · have hisName : ∀ name, span.lexeme = .ident name → IsName name.toList :=
      fun _ => isName_of_readLexeme h
    rw [readLexeme, if_pos hname] at h
    obtain rfl := Except.ok.inj h
    exact standsAlone_name (hisName _ rfl) previous
  by_cases hnumeral : startsNumeral c rest = true
  · rw [readLexeme, if_neg hname, if_pos hnumeral] at h
    cases hread : Numeral.spelling? (c :: rest) with
    | none =>
      rw [hread] at h
      cases h
    | some spelling =>
      rw [hread] at h
      obtain rfl := Except.ok.inj h
      exact standsAlone_number hread previous
  by_cases hquote : c = '\'' ∨ c = '"'
  · rw [readLexeme, if_neg hname, if_neg hnumeral, if_pos hquote] at h
    split at h
    · cases h
    · obtain rfl := Except.ok.inj h
      exact standsAlone_string hquotable previous
  by_cases hback : c = '\x60'
  · rw [readLexeme, if_neg hname, if_neg hnumeral, if_neg hquote, if_pos hback] at h
    cases hread : readTemplate 0 (start.right 1) rest with
    | error ending =>
      rw [hread] at h
      cases h
    | ok found =>
      rw [hread] at h
      obtain rfl := Except.ok.inj h
      exact standsAlone_template hread previous
  rw [readLexeme, if_neg hname, if_neg hnumeral, if_neg hquote, if_neg hback] at h
  by_cases hslash : c = '/' ∧ regexAllowedAfter previous = true
  · rw [if_pos hslash] at h
    obtain ⟨rfl, hallowed⟩ := hslash
    cases hread : readRegexBody false rest with
    | none =>
      rw [hread] at h
      cases h
    | some read =>
      obtain ⟨body, behind⟩ := read
      rw [hread] at h
      obtain rfl := Except.ok.inj h
      exact standsAlone_regex hallowed hstarts hread
  · rw [if_neg hslash] at h
    obtain rfl := Except.ok.inj h
    exact standsAlone_mark hstarts.blank hname hnumeral hquote hback hslash

/-! ## Whole texts -/

/-- The pieces in order, with white space between any two of them. -/
inductive Spaced : List String → List Char → Prop
  | nil : Spaced [] []
  | single (piece : String) : Spaced [piece] piece.toList
  | cons {piece next : String} {pieces : List String} {blanks text : List Char} (hne : blanks ≠ [])
      (hblanks : ∀ c ∈ blanks, Text.isBlank c = true) (hmore : Spaced (next :: pieces) text) :
    Spaced (piece :: next :: pieces) (piece.toList ++ (blanks ++ text))

theorem spaced_intercalate
    (pieces : List String) :
    Spaced pieces (" ".intercalate pieces).toList := by
  rw [String.toList_intercalate]
  induction pieces with
  | nil => exact .nil
  | cons piece pieces ih =>
    cases pieces with
    | nil =>
      rw [List.map_singleton, List.intercalate_singleton]
      exact .single piece
    | cons next pieces =>
      rw [List.map_cons, List.map_cons, List.intercalate_cons_cons, List.append_assoc]
      refine .cons (List.cons_ne_nil _ _) ?_ ih
      exact List.forall_mem_singleton.mpr (by decide)

/-- Behind a lexeme the text is read as the given lexemes, wherever it stands. -/
def ReadsLexemes (lexemes : List Lexeme) (previous : Option Lexeme) (cs : List Char) : Prop :=
  ∀ position, ∃ stream, readTokens previous position cs = .ok stream ∧
    stream.tokens.map Token.lexeme = lexemes

theorem readsLexemes_nil
    {blanks : List Char} (hblanks : ∀ c ∈ blanks, Text.isBlank c = true)
    (previous : Option Lexeme) :
    ReadsLexemes [] previous blanks := by
  intro position
  obtain ⟨lead, hgap⟩ := readGap_blanks hblanks ⟨position, false, []⟩ []
  rw [List.append_nil, readGap] at hgap
  exact ⟨_, readTokens_ending hgap, rfl⟩

/-- One more lexeme that stands alone, and white space in front of it. -/
theorem ReadsLexemes.cons
    {lexemes : List Lexeme} {previous : Option Lexeme} {lexeme : Lexeme} {blanks tail : List Char}
    (hmore : ReadsLexemes lexemes (some lexeme) tail) (halone : StandsAlone previous lexeme)
    (htail : StartsBlank tail) (hblanks : ∀ c ∈ blanks, Text.isBlank c = true) :
    ReadsLexemes (lexeme :: lexemes) previous (blanks ++ (lexeme.spelling.toList ++ tail)) := by
  intro position
  obtain ⟨c, rest, hspelling, hstarts, hread⟩ := halone tail htail
  obtain ⟨lead, hgap⟩ := readGap_blanks hblanks ⟨position, false, []⟩ (c :: rest)
  rw [hstarts.readGap_eq] at hgap
  obtain ⟨place, behind, hlexeme⟩ := hread lead.position
  obtain ⟨stream, hstream, hlexemes⟩ := hmore behind
  rw [hspelling]
  exact ⟨_, readTokens_token hgap hlexeme hstream, congrArg (lexeme :: ·) hlexemes⟩

/-- The spellings of the lexemes of a text are read as these lexemes, behind any white space. -/
theorem readsLexemes_of_spaced
    {previous : Option Lexeme} {position : Position} {cs : List Char} {stream : TokenStream}
    (h : readTokens previous position cs = .ok stream)
    (hquotable : ∀ token ∈ stream.tokens, token.lexeme.IsQuotable) {written : List Char}
    (hwritten : Spaced (stream.tokens.map fun token => token.lexeme.spelling) written)
    {blanks : List Char} (hblanks : ∀ c ∈ blanks, Text.isBlank c = true) :
    ReadsLexemes (stream.tokens.map Token.lexeme) previous (blanks ++ written) := by
  fun_induction readTokens previous position cs generalizing stream written blanks with
  | case1 => cases h
  | case2 =>
    obtain rfl := Except.ok.inj h
    cases hwritten
    rw [List.append_nil]
    exact readsLexemes_nil hblanks _
  | case3 => cases h
  | case4 => cases h
  | case5 previous position cs lead c rest hgap span hlexeme more hmore token =>
    rename_i ih
    obtain rfl := Except.ok.inj h
    obtain ⟨hfirst, hrest⟩ := List.forall_mem_cons.mp hquotable
    have halone : StandsAlone previous span.lexeme :=
      standsAlone_of_readLexeme hlexeme (startsLexeme_of_readGap hgap) hfirst
    have hbehind : ∀ {written}, Spaced (more.tokens.map fun token => token.lexeme.spelling) written →
        ∀ {blanks}, (∀ c ∈ blanks, Text.isBlank c = true) →
        ReadsLexemes (more.tokens.map Token.lexeme) (some span.lexeme) (blanks ++ written) :=
      fun hspaced _ hblanks => ih hmore hrest hspaced hblanks
    rw [List.map_cons] at hwritten
    generalize more.tokens.map (fun token => token.lexeme.spelling) = pieces at hwritten hbehind
    cases hwritten with
    | single =>
      have hnone := hbehind .nil (List.forall_mem_nil _)
      have htail : StartsBlank [] := fun c hc => by cases hc
      rw [← List.append_nil span.lexeme.spelling.toList]
      exact hnone.cons halone htail hblanks
    | cons hne hblanks' hmore' =>
      exact (hbehind hmore' hblanks').cons halone (startsBlank_append hne hblanks' _) hblanks

/-- The spellings of the tokens, in order. -/
def TokenStream.spellings (stream : TokenStream) : List String :=
  stream.tokens.map fun token => token.lexeme.spelling

/-- The spellings of a text's tokens are read as the same lexemes again, be it with single spaces
between them or with other white space. -/
theorem TokenStream.ofText_spaced
    {text : String} {stream : TokenStream} (h : ofText text = .ok stream)
    (hquotable : ∀ token ∈ stream.tokens, token.lexeme.IsQuotable) :
    (∃ again, ofText (" ".intercalate stream.spellings) = .ok again ∧
      again.tokens.map Token.lexeme = stream.tokens.map Token.lexeme) ∧
    ∀ written : String, Spaced stream.spellings written.toList →
      ∃ again, ofText written = .ok again ∧
        again.tokens.map Token.lexeme = stream.tokens.map Token.lexeme := by
  have hread : ∀ written : String, Spaced stream.spellings written.toList →
      ∃ again, ofText written = .ok again ∧
        again.tokens.map Token.lexeme = stream.tokens.map Token.lexeme := by
    intro written hwritten
    exact readsLexemes_of_spaced h hquotable hwritten (List.forall_mem_nil _) .start
  exact ⟨hread _ (spaced_intercalate _), hread⟩

/-- The first slash starts a regular expression with a slash in it, the last one divides. The string ends
in a surrogate. -/
def slashedText : String :=
  "a=/[/]/g\n\"it's\\ud800\"/1.5"

def slashedString : Text :=
  "it's" ++ .ofList [.surrogate ⟨0, by decide⟩]

def slashedTokens : TokenStream where
  tokens := [⟨.ident "a", ⟨⟨1, 1⟩, false, []⟩⟩, ⟨.punct "=", ⟨⟨1, 2⟩, false, []⟩⟩,
    ⟨.regex "/[/]/g", ⟨⟨1, 3⟩, false, []⟩⟩, ⟨.string slashedString, ⟨⟨2, 1⟩, true, []⟩⟩,
    ⟨.punct "/", ⟨⟨2, 13⟩, false, []⟩⟩, ⟨.number "1.5", ⟨⟨2, 14⟩, false, []⟩⟩]
  ending := ⟨⟨2, 17⟩, false, []⟩

theorem isQuotable_slashedString :
    Text.IsQuotable slashedString.toList := by
  unfold Text.IsQuotable
  decide

theorem ofText_slashedText :
    TokenStream.ofText slashedText = .ok slashedTokens := by
  have hname : readGap ⟨⟨1, 1⟩, false, []⟩ slashedText.toList =
      .ok (⟨⟨1, 1⟩, false, []⟩, slashedText.toList) := by cbv
  have hequals : readGap ⟨⟨1, 2⟩, false, []⟩ "=/[/]/g\n\"it's\\ud800\"/1.5".toList =
      .ok (⟨⟨1, 2⟩, false, []⟩, "=/[/]/g\n\"it's\\ud800\"/1.5".toList) := by cbv
  have hmark : readLexeme (some (.ident "a")) ⟨1, 2⟩ '=' "/[/]/g\n\"it's\\ud800\"/1.5".toList =
      .ok ⟨.punct "=", ⟨1, 2⟩, ⟨1, 3⟩, "/[/]/g\n\"it's\\ud800\"/1.5".toList⟩ :=
    readLexeme_punct (by decide +kernel) (by decide +kernel) (by decide) (by decide) (by decide)
      (by decide : markAt _ _ = ['=']) rfl _
  have hregex : readGap ⟨⟨1, 3⟩, false, []⟩ "/[/]/g\n\"it's\\ud800\"/1.5".toList =
      .ok (⟨⟨1, 3⟩, false, []⟩, "/[/]/g\n\"it's\\ud800\"/1.5".toList) := by cbv
  have hbody : readLexeme (some (.punct "=")) ⟨1, 3⟩ '/' "[/]/g\n\"it's\\ud800\"/1.5".toList =
      .ok ⟨.regex "/[/]/g", ⟨1, 3⟩, ⟨1, 9⟩, "\n\"it's\\ud800\"/1.5".toList⟩ := by
    have hread : readRegexBody false "[/]/g\n\"it's\\ud800\"/1.5".toList =
        some ("[/]/".toList, "g\n\"it's\\ud800\"/1.5".toList) := by decide +kernel
    have hflags : "g\n\"it's\\ud800\"/1.5".toList.takeWhile isNamePart = ['g'] ∧
        "g\n\"it's\\ud800\"/1.5".toList.dropWhile isNamePart = "\n\"it's\\ud800\"/1.5".toList := by
      decide +kernel
    rw [readLexeme, if_neg (by decide +kernel), if_neg (by decide +kernel), if_neg (by decide),
      if_neg (by decide), if_pos (by decide +kernel), hread]
    simp only [hflags]
    rfl
  have hquote : readGap ⟨⟨1, 9⟩, false, []⟩ "\n\"it's\\ud800\"/1.5".toList =
      .ok (⟨⟨2, 1⟩, true, []⟩, "\"it's\\ud800\"/1.5".toList) := by cbv
  have hstring : readLexeme (some (.regex "/[/]/g")) ⟨2, 1⟩ '"' "it's\\ud800\"/1.5".toList =
      .ok ⟨.string slashedString, ⟨2, 1⟩, ⟨2, 13⟩, "/1.5".toList⟩ := by
    have hread : readString '"' "it's\\ud800\"/1.5".toList =
        .ok (slashedString.toList, "/1.5".toList) := by
      have hquoted : slashedString.toList.flatMap (Text.quotedChar '"') = "it's\\ud800".toList := by
        decide +kernel
      have htext := readString_quotedText (.inr rfl) isQuotable_slashedString "/1.5".toList
      rwa [hquoted] at htext
    rw [readLexeme, if_neg (by decide +kernel), if_neg (by decide +kernel), if_pos (by decide),
      hread]
    rfl
  have hdivide : readGap ⟨⟨2, 13⟩, false, []⟩ "/1.5".toList =
      .ok (⟨⟨2, 13⟩, false, []⟩, "/1.5".toList) := by cbv
  have hslash : readLexeme (some (.string slashedString)) ⟨2, 13⟩ '/' "1.5".toList =
      .ok ⟨.punct "/", ⟨2, 13⟩, ⟨2, 14⟩, "1.5".toList⟩ :=
    readLexeme_punct (by decide +kernel) (by decide +kernel) (by decide) (by decide)
      (by decide +kernel) (by decide : markAt _ _ = ['/']) rfl _
  have hnumber : readGap ⟨⟨2, 14⟩, false, []⟩ "1.5".toList =
      .ok (⟨⟨2, 14⟩, false, []⟩, "1.5".toList) := by cbv
  have hdecimal : readLexeme (some (.punct "/")) ⟨2, 14⟩ '1' ".5".toList =
      .ok ⟨.number "1.5", ⟨2, 14⟩, ⟨2, 17⟩, []⟩ := by
    have hread : Numeral.spelling? ('1' :: ".5".toList) = some "1.5".toList := by decide +kernel
    rw [readLexeme, if_neg (by decide +kernel), if_pos (by decide +kernel), hread]
    rfl
  have hending : readGap ⟨⟨2, 17⟩, false, []⟩ [] = .ok (⟨⟨2, 17⟩, false, []⟩, []) := by cbv
  exact readTokens_token hname rfl (readTokens_token hequals hmark (readTokens_token hregex hbody
    (readTokens_token hquote hstring (readTokens_token hdivide hslash
      (readTokens_token hnumber hdecimal (readTokens_ending hending))))))

theorem respelled_slashedText :
    TokenStream.ofText slashedText = .ok slashedTokens ∧
      ∃ again, TokenStream.ofText "a = /[/]/g \"it's\\ud800\" / 1.5" = .ok again ∧
        again.tokens.map Token.lexeme = slashedTokens.tokens.map Token.lexeme := by
  have hquotable : ∀ token ∈ slashedTokens.tokens, token.lexeme.IsQuotable := by
    simp only [slashedTokens, List.forall_mem_cons, Lexeme.IsQuotable, isQuotable_slashedString]
    simp
  obtain ⟨hspaced, -⟩ := TokenStream.ofText_spaced ofText_slashedText hquotable
  have hspellings : " ".intercalate slashedTokens.spellings = "a = /[/]/g \"it's\\ud800\" / 1.5" := by
    decide +kernel
  rw [hspellings] at hspaced
  exact ⟨ofText_slashedText, hspaced⟩

end EntityDiagram.Source
