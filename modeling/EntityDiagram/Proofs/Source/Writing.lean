import EntityDiagram.Proofs.Source.Names

/-!
# Written lexemes

A text that is put together from names, marks and spaces is read as these names and marks, if no name
runs into what follows it. Names are told apart by a character that no name goes on with. A dot stands
in front of a name, so it starts no numeral. The other marks that are written here are read alone,
whatever is behind them.
-/

namespace EntityDiagram.Source

/-- A character that is a token by itself, whatever is behind it. -/
def isLoneMark (c : Char) : Bool :=
  !isNamePart c && !Text.isBlank c && !(['\'', '"', '\x60', '/', '=', '.'].contains c)

/-- No name that ends in front of the text goes on in it. -/
def StartsApart (cs : List Char) : Prop :=
  ∀ c ∈ cs.head?, isNamePart c = false

/-- The lexemes as they stand in the text. -/
inductive Writes : List Lexeme → List Char → Prop
  | nil : Writes [] []
  | name {name : String} {lexemes : List Lexeme} {cs : List Char} (hname : IsName name.toList)
      (hbehind : StartsApart cs) (hmore : Writes lexemes cs) :
    Writes (.ident name :: lexemes) (name.toList ++ cs)
  | dot {lexemes : List Lexeme} {c : Char} {cs : List Char} (hbehind : isNameStart c = true)
      (hmore : Writes lexemes (c :: cs)) :
    Writes (.punct "." :: lexemes) ('.' :: c :: cs)
  | mark {c : Char} {lexemes : List Lexeme} {cs : List Char} (hmark : isLoneMark c = true)
      (hmore : Writes lexemes cs) :
    Writes (.punct (String.ofList [c]) :: lexemes) (c :: cs)
  | space {lexemes : List Lexeme} {cs : List Char} (hmore : Writes lexemes cs) :
    Writes lexemes (' ' :: cs)

/-! ## Single lexemes -/

theorem readLexeme_name
    {c : Char} {rest behind : List Char} (hstart : isNameStart c = true)
    (hrest : ∀ d ∈ rest, isNamePart d = true) (hbehind : StartsApart behind)
    (previous : Option Lexeme) (start : Position) :
    readLexeme previous start c (rest ++ behind) =
      .ok ⟨.ident (String.ofList (c :: rest)), start, start.right (c :: rest).length, behind⟩ := by
  have hdrop : (c :: (rest ++ behind)).drop (c :: rest).length = behind := List.drop_left
  rw [readLexeme, if_pos hstart, takeWhile_append_of_stop hrest hbehind]
  simp only [hdrop]

/-- A mark of any length is read where nothing else starts. -/
theorem readLexeme_punct
    {previous : Option Lexeme} {c : Char} {rest mark behind : List Char}
    (hname : ¬isNameStart c = true) (hnumeral : ¬startsNumeral c rest = true)
    (hquote : ¬(c = '\'' ∨ c = '"')) (hback : c ≠ '\x60')
    (hslash : ¬(c = '/' ∧ regexAllowedAfter previous = true)) (hmark : markAt c rest = mark)
    (hrest : c :: rest = mark ++ behind) (start : Position) :
    readLexeme previous start c rest =
      .ok ⟨.punct (String.ofList mark), start, start.right mark.length, behind⟩ := by
  rw [readLexeme, if_neg hname, if_neg hnumeral, if_neg hquote, if_neg hback, if_neg hslash, hmark,
    hrest]
  simp only [List.drop_left]

/-- A single character is read as a mark where nothing else starts. -/
theorem readLexeme_mark
    {c : Char} (hname : isNamePart c = false) (hplain : c ∉ ['\'', '"', '\x60', '/'])
    {rest : List Char} (hnumeral : startsNumeral c rest = false) (hmark : markAt c rest = [c])
    (previous : Option Lexeme) (start : Position) :
    readLexeme previous start c rest =
      .ok ⟨.punct (String.ofList [c]), start, start.right 1, rest⟩ := by
  have hstart : ¬isNameStart c = true := by
    intro hstart
    rw [isNamePart_of_isNameStart hstart] at hname
    cases hname
  simp only [List.mem_cons, List.not_mem_nil, or_false, not_or] at hplain
  obtain ⟨hsingle, hdouble, hback, hslash⟩ := hplain
  exact readLexeme_punct hstart (by simp [hnumeral]) (by simp [hsingle, hdouble]) hback
    (by simp [hslash]) hmark rfl start

theorem isDigit_eq_false_of_isNamePart
    {c : Char} (h : isNamePart c = false) :
    Text.isDigit c = false := by
  rw [← Bool.not_eq_true]
  intro hdigit
  simp [isNamePart, Text.isAlphanumeric, hdigit] at h

theorem readLexeme_loneMark
    {c : Char} (h : isLoneMark c = true) (rest : List Char) (previous : Option Lexeme)
    (start : Position) :
    readLexeme previous start c rest =
      .ok ⟨.punct (String.ofList [c]), start, start.right 1, rest⟩ := by
  simp only [isLoneMark, Bool.and_eq_true, Bool.not_eq_true', List.contains_eq_mem,
    decide_eq_false_iff_not, List.mem_cons, List.not_mem_nil, or_false, not_or] at h
  obtain ⟨⟨hname, -⟩, hsingle, hdouble, hback, hslash, hequals, hdot⟩ := h
  have hnumeral : startsNumeral c rest = false := by
    simp [startsNumeral, isDigit_eq_false_of_isNamePart hname, hdot]
  have hmark : markAt c rest = [c] := by
    rw [markAt, if_neg (by simp [hequals]), if_neg (by simp [hdot])]
  exact readLexeme_mark hname (by simp [hsingle, hdouble, hback, hslash]) hnumeral hmark previous
    start

theorem readLexeme_dot
    {c : Char} (h : isNameStart c = true) (rest : List Char) (previous : Option Lexeme)
    (start : Position) :
    readLexeme previous start '.' (c :: rest) =
      .ok ⟨.punct ".", start, start.right 1, c :: rest⟩ := by
  have hdigit : Text.isDigit c = false := by
    rw [← Bool.not_eq_true]
    intro hdigit
    rw [isNameStart_of_isDigit hdigit] at h
    cases h
  have hdot : c ≠ '.' := by
    rintro rfl
    exact absurd h (by decide +kernel)
  have hnumeral : startsNumeral '.' (c :: rest) = false := by
    have hlone : Text.isDigit '.' = false := by decide +kernel
    simp [startsNumeral, hlone, hdigit]
  have hmark : markAt '.' (c :: rest) = ['.'] := by
    rw [markAt, if_neg (by simp), if_neg (by simp [hdot])]
  exact readLexeme_mark (by decide +kernel) (by decide) hnumeral hmark previous start

/-! ## Written texts -/

theorem readGap_of_not_blank
    {c : Char} (hblank : Text.isBlank c = false) (hslash : c ≠ '/') (lead : Lead)
    (rest : List Char) :
    readGap lead (c :: rest) = .ok (lead, c :: rest) := by
  have hline : c ≠ '\n' := by
    rintro rfl
    exact absurd hblank (by decide)
  rw [readGap, if_neg hline, if_neg (by simp [hblank]), if_neg fun h => hslash h.1,
    if_neg fun h => hslash h.1]

theorem readGap_space
    (lead : Lead) (rest : List Char) :
    readGap lead (' ' :: rest) = readGap { lead with position := lead.position.right 1 } rest := by
  rw [readGap, if_neg (by decide), if_pos (by decide)]

theorem isBlank_of_isNamePart
    {c : Char} (h : isNamePart c = true) :
    Text.isBlank c = false := by
  rw [← Bool.not_eq_true]
  intro hblank
  rw [isNamePart_of_isBlank hblank] at h
  cases h

/-- The text can be read, and its tokens are the lexemes, all of them on one line and without
documentation. -/
def ReadsAs (lexemes : List Lexeme) (result : Except SourceError TokenStream) : Prop :=
  ∃ stream, result = .ok stream ∧ stream.tokens.map Token.lexeme = lexemes ∧
    ∀ token ∈ stream.tokens, token.lead.newline = false ∧ token.lead.docs = []

theorem ReadsAs.token
    {c : Char} {rest behind : List Char} {lexeme : Lexeme} {lexemes : List Lexeme}
    {previous : Option Lexeme} {position place next : Position} (hblank : Text.isBlank c = false)
    (hslash : c ≠ '/')
    (hlexeme : readLexeme previous position c rest = .ok ⟨lexeme, place, next, behind⟩)
    (hmore : ReadsAs lexemes (readTokens (some lexeme) next behind)) :
    ReadsAs (lexeme :: lexemes) (readTokens previous position (c :: rest)) := by
  obtain ⟨stream, hstream, hlexemes, hplain⟩ := hmore
  rw [readTokens_eq, readGap_of_not_blank hblank hslash]
  simp only [hlexeme, hstream]
  exact ⟨_, rfl, congrArg _ hlexemes, List.forall_mem_cons.mpr ⟨⟨rfl, rfl⟩, hplain⟩⟩

theorem Writes.readsAs
    {lexemes : List Lexeme} {cs : List Char} (h : Writes lexemes cs) (previous : Option Lexeme)
    (position : Position) :
    ReadsAs lexemes (readTokens previous position cs) := by
  induction h generalizing previous position with
  | nil =>
    rw [readTokens_eq, readGap]
    exact ⟨_, rfl, rfl, List.forall_mem_nil _⟩
  | @name name lexemes cs hname hbehind hmore ih =>
    obtain ⟨c, rest, hchars, hstart, hrest⟩ := hname.exists_cons
    have hpart := isNamePart_of_isNameStart hstart
    have hslash : c ≠ '/' := by
      rintro rfl
      exact absurd hpart (by decide +kernel)
    have hread := readLexeme_name hstart hrest hbehind previous position
    rw [← hchars, String.ofList_toList] at hread
    rw [hchars]
    exact .token (isBlank_of_isNamePart hpart) hslash hread (ih _ _)
  | dot hbehind hmore ih =>
    exact .token (by decide) (by decide) (readLexeme_dot hbehind _ _ _) (ih _ _)
  | mark hmark hmore ih =>
    have hplain := hmark
    simp only [isLoneMark, Bool.and_eq_true, Bool.not_eq_true'] at hplain
    refine .token hplain.1.2 ?_ (readLexeme_loneMark hmark _ _ _) (ih _ _)
    rintro rfl
    exact absurd hplain.2 (by decide)
  | space hmore ih =>
    rw [readTokens_eq, readGap_space, ← readTokens_eq]
    exact ih _ _

end EntityDiagram.Source
