import EntityDiagram.Proofs.Source.LexemeText
import Mathlib.Data.List.Basic
import Mathlib.Data.List.TakeWhile

/-!
# Tokens tile their text

A text from which tokens can be read is cut into gaps and lexemes, which alternate and leave nothing
out. Each token belongs to the lexeme behind a gap, and its lead says what the gap says: whether it
contains a line break, and which documentation blocks stand in it. The end of the text has the last
gap as its lead.
-/

namespace EntityDiagram.Source

/-! ## Gaps -/

/-- One piece of a gap; the texts of comments are given without their marks. -/
inductive GapPiece where
  | blank (c : Char)
  | line (body : List Char)
  | block (body : List Char)

def GapPiece.text : GapPiece → List Char
  | .blank c => [c]
  | .line body => '/' :: '/' :: body
  | .block body => blockComment body

/-- The text of a gap. -/
def gapText (pieces : List GapPiece) : List Char :=
  pieces.flatMap GapPiece.text

/-- The piece may stand in front of the given text: a line comment ends with its line, and a block
comment ends where it is closed first. -/
def GapPiece.Fits (behind : List Char) : GapPiece → Prop
  | .blank c => Text.isBlank c = true
  | .line body => '\n' ∉ body ∧ (behind = [] ∨ behind.head? = some '\n')
  | .block body => ∀ front back, body ++ ['*', '/'] = front ++ ['*', '/'] ++ back → back = []

/-- Every piece of the gap may stand in front of what follows it. -/
def GapFits (behind : List Char) : List GapPiece → Prop
  | [] => True
  | piece :: more => piece.Fits (gapText more ++ behind) ∧ GapFits behind more

/-- The documentation that a piece is: a block comment with a second star, other than `/**/`. -/
def GapPiece.doc? : GapPiece → Option String
  | .block body =>
    if ['/', '*', '*'] <+: blockComment body ∧ blockComment body ≠ ['/', '*', '*', '/'] then
      some (String.ofList (blockComment body))
    else none
  | _ => none

/-- The documentation of a gap, verbatim and in order. -/
def gapDocs (pieces : List GapPiece) : List String :=
  pieces.filterMap GapPiece.doc?

theorem gapText_cons
    (piece : GapPiece) (more : List GapPiece) :
    gapText (piece :: more) = piece.text ++ gapText more :=
  rfl

/-- The lead says of the gap whether there is a line break in it, and its documentation. -/
structure Lead.Describes (lead : Lead) (pieces : List GapPiece) : Prop where
  newline : lead.newline = true ↔ '\n' ∈ gapText pieces
  docs : lead.docs = gapDocs pieces

/-- A text consists of gaps and lexemes in turn, one lexeme for each token, and of a last gap. -/
inductive Tiles : List Token → Lead → List Char → Prop
  | ending {lead : Lead} {pieces : List GapPiece} (hfits : GapFits [] pieces)
      (hlead : lead.Describes pieces) :
    Tiles [] lead (gapText pieces)
  | token {token : Token} {tokens : List Token} {ending : Lead} {pieces : List GapPiece}
      {text behind : List Char} (hfits : GapFits (text ++ behind) pieces)
      (hlead : token.lead.Describes pieces) (htext : IsTextOf text token.lexeme)
      (hbehind : Tiles tokens ending behind) :
    Tiles (token :: tokens) ending (gapText pieces ++ text ++ behind)

/-! ## Reading a gap -/

/-- The body of a comment ends at the first mark that closes it. -/
theorem commentBody_eq_some
    {cs body behind : List Char} (h : commentBody cs = some (body, behind)) :
    cs = body ++ '*' :: '/' :: behind ∧
      ∀ front back, body ++ ['*', '/'] = front ++ ['*', '/'] ++ back → back = [] := by
  induction cs generalizing body with
  | nil => simp [commentBody] at h
  | cons c rest ih =>
    unfold commentBody at h
    split at h
    · obtain ⟨rfl, rfl⟩ := Prod.mk.inj (Option.some.inj h)
      refine ⟨rfl, fun front back heq => ?_⟩
      have hlength := congrArg List.length heq
      simp only [List.length_append, List.length_cons, List.length_nil] at hlength
      exact List.length_eq_zero_iff.mp (by omega)
    · rename_i hopen
      obtain ⟨⟨more, left⟩, hmore, heq⟩ := Option.map_eq_some_iff.mp h
      obtain ⟨rfl, rfl⟩ := Prod.mk.inj heq
      obtain ⟨hrest, hfirst⟩ := ih hmore
      refine ⟨by rw [hrest]; rfl, fun front back heq => ?_⟩
      cases front with
      | nil =>
        -- A mark at the very start would have closed the comment there.
        obtain ⟨rfl, hslash⟩ := List.cons.inj heq
        have hclosed : rest = '/' :: (back ++ left) := by
          rw [hrest, List.append_cons, List.append_cons, List.append_assoc more]
          exact congrArg (· ++ left) hslash
        exact (hopen (back ++ left) rfl hclosed).elim
      | cons _ front => exact hfirst front back (List.cons.inj heq).2

/-- A comment documents when it starts with a second star and is not just `/**/`. -/
theorem isDocumentation_iff
    (body : List Char) :
    isDocumentation body = true ↔
      ['/', '*', '*'] <+: blockComment body ∧ blockComment body ≠ ['/', '*', '*', '/'] := by
  cases body with
  | nil => simp [isDocumentation, blockComment]
  | cons c rest =>
    have hlong : blockComment (c :: rest) ≠ ['/', '*', '*', '/'] := by
      intro heq
      have hlength := congrArg List.length heq
      simp only [blockComment, List.length_append, List.length_cons, List.length_nil] at hlength
      omega
    rw [and_iff_left hlong, blockComment, List.cons_append, List.cons_append, List.cons_append]
    simp only [List.cons_prefix_cons, List.nil_prefix, isDocumentation, List.head?_cons,
      Option.some_beq_some, beq_iff_eq, true_and, and_true]
    exact eq_comm

theorem doc?_block
    (body : List Char) :
    GapPiece.doc? (.block body) =
      if isDocumentation body then some (String.ofList (blockComment body)) else none := by
  rw [GapPiece.doc?]
  simp only [isDocumentation_iff]

/-- A line ends where the text ends or in front of a line break. -/
theorem exists_line
    (cs : List Char) :
    ∃ body, cs = body ++ cs.dropWhile (· ≠ '\n') ∧ '\n' ∉ body ∧
      (cs.dropWhile (· ≠ '\n') = [] ∨ (cs.dropWhile (· ≠ '\n')).head? = some '\n') := by
  refine ⟨cs.takeWhile (· ≠ '\n'), List.takeWhile_append_dropWhile.symm, ?_, ?_⟩
  · intro hmem
    have hother := List.mem_takeWhile_imp hmem
    simp at hother
  · cases hnext : cs.dropWhile (· ≠ '\n') with
    | nil => exact .inl rfl
    | cons c rest =>
      have hstop := List.head?_dropWhile_not (· ≠ '\n') cs
      rw [hnext] at hstop
      simpa using hstop

/-- A gap in front of the lead's gap adds what it has to the lead. -/
theorem readGap_eq_ok
    {lead lead' : Lead} {cs behind : List Char} (h : readGap lead cs = .ok (lead', behind)) :
    ∃ pieces, cs = gapText pieces ++ behind ∧ GapFits behind pieces ∧
      (lead'.newline = true ↔ lead.newline = true ∨ '\n' ∈ gapText pieces) ∧
      lead'.docs = lead.docs ++ gapDocs pieces := by
  fun_induction readGap lead cs with
  | case1 lead =>
    obtain ⟨rfl, rfl⟩ := Prod.mk.inj (Except.ok.inj h)
    exact ⟨[], rfl, trivial, by simp [gapText], by simp [gapDocs]⟩
  | case2 lead rest ih =>
    obtain ⟨pieces, rfl, hfits, hnewline, hdocs⟩ := ih h
    have hblank : Text.isBlank '\n' = true := by decide
    refine ⟨.blank '\n' :: pieces, rfl, ⟨hblank, hfits⟩, ?_, hdocs⟩
    simp [hnewline, gapText, GapPiece.text]
  | case3 lead c rest hline hblank ih =>
    obtain ⟨pieces, rfl, hfits, hnewline, hdocs⟩ := ih h
    refine ⟨.blank c :: pieces, rfl, ⟨hblank, hfits⟩, ?_, hdocs⟩
    simp [hnewline, gapText, GapPiece.text, Ne.symm hline]
  | case4 lead c rest _ _ hslash width ih =>
    obtain ⟨pieces, hrest, hfits, hnewline, hdocs⟩ := ih h
    obtain ⟨rfl, hhead⟩ := hslash
    obtain ⟨rest, rfl⟩ := List.head?_eq_some_iff.mp hhead
    rw [List.dropWhile_cons_of_pos (by decide)] at hrest
    obtain ⟨body, hwhole, hbody, hnext⟩ := exists_line rest
    rw [hrest] at hwhole hnext
    refine ⟨.line body :: pieces, ?_, ⟨⟨hbody, hnext⟩, hfits⟩, ?_, hdocs⟩
    · rw [gapText_cons, List.append_assoc, GapPiece.text, hwhole]
      rfl
    · rw [gapText_cons, List.mem_append, GapPiece.text]
      simp [hnewline, hbody]
  | case5 => simp at h
  | case6 lead c rest _ _ _ hstar body left hbody ih =>
    obtain ⟨pieces, rfl, hfits, hnewline, hdocs⟩ := ih h
    obtain ⟨rfl, hhead⟩ := hstar
    obtain ⟨rest, rfl⟩ := List.head?_eq_some_iff.mp hhead
    obtain ⟨hrest, hfirst⟩ := commentBody_eq_some hbody
    refine ⟨.block body :: pieces, ?_, ⟨hfirst, hfits⟩, ?_, ?_⟩
    · rw [gapText_cons, List.append_assoc, GapPiece.text, blockComment, List.append_assoc]
      exact congrArg ('/' :: '*' :: ·) hrest
    · rw [gapText_cons, List.mem_append, GapPiece.text]
      simp [hnewline, Lead.afterComment, blockComment, or_assoc]
    · rw [hdocs, gapDocs, gapDocs, List.filterMap_cons, doc?_block, Lead.afterComment]
      by_cases hdoc : isDocumentation body = true
      · simp [hdoc]
      · simp [hdoc]
  | case7 lead c rest =>
    obtain ⟨rfl, rfl⟩ := Prod.mk.inj (Except.ok.inj h)
    exact ⟨[], rfl, trivial, by simp [gapText], by simp [gapDocs]⟩

/-! ## Reading tokens -/

theorem readTokens_ending
    {previous : Option Lexeme} {position : Position} {cs : List Char} {lead : Lead}
    (hgap : readGap ⟨position, false, []⟩ cs = .ok (lead, [])) :
    readTokens previous position cs = .ok ⟨[], lead⟩ := by
  rw [readTokens_eq, hgap]

/-- A quote is the start of a string, whatever stands in front of it. -/
theorem readLexeme_quote
    {quote : Char} (hquote : quote = '\'' ∨ quote = '"') {rest behind : List Char}
    {text : List Character} (h : readString quote rest = .ok (text, behind))
    (previous : Option Lexeme) (start : Position) :
    readLexeme previous start quote rest =
      .ok ⟨.string (.ofList text), start,
        start.right ((quote :: rest).length - behind.length), behind⟩ := by
  have hmark : isNameStart quote = false ∧ Text.isDigit quote = false ∧ quote ≠ '.' := by
    rcases hquote with rfl | rfl <;> decide +kernel
  obtain ⟨hname, hdigit, hpoint⟩ := hmark
  rw [readLexeme, if_neg (by simp [hname]), if_neg (by simp [startsNumeral, hdigit, hpoint]),
    if_pos hquote, h]

theorem readTokens_token
    {previous : Option Lexeme} {position : Position} {cs rest : List Char} {c : Char} {lead : Lead}
    {span : LexemeSpan} {stream : TokenStream}
    (hgap : readGap ⟨position, false, []⟩ cs = .ok (lead, c :: rest))
    (hlexeme : readLexeme previous lead.position c rest = .ok span)
    (hmore : readTokens (some span.lexeme) span.behind span.rest = .ok stream) :
    readTokens previous position cs = .ok {
      tokens := ⟨span.lexeme, { lead with position := span.place }⟩ :: stream.tokens
      ending := stream.ending } := by
  rw [readTokens_eq, hgap]
  simp only [hlexeme, hmore]

theorem readTokens_tiles
    {previous : Option Lexeme} {position : Position} {cs : List Char} {stream : TokenStream}
    (h : readTokens previous position cs = .ok stream) :
    Tiles stream.tokens stream.ending cs := by
  fun_induction readTokens previous position cs generalizing stream with
  | case1 => cases h
  | case2 previous position cs lead hgap =>
    obtain rfl := Except.ok.inj h
    obtain ⟨pieces, rfl, hfits, hnewline, hdocs⟩ := readGap_eq_ok hgap
    rw [List.append_nil]
    exact .ending hfits ⟨by simpa using hnewline, by simpa using hdocs⟩
  | case3 => cases h
  | case4 => cases h
  | case5 previous position cs lead c rest hgap span hlexeme more hmore token =>
    rename_i ih
    obtain rfl := Except.ok.inj h
    obtain ⟨pieces, rfl, hfits, hnewline, hdocs⟩ := readGap_eq_ok hgap
    obtain ⟨text, htext, hrest⟩ := readLexeme_eq_ok hlexeme
    rw [hrest] at hfits ⊢
    rw [← List.append_assoc]
    exact .token hfits ⟨by simpa using hnewline, by simpa using hdocs⟩ htext (ih hmore)

/-- Tokenizing loses nothing: a text from which tokens are read is tiled by them. -/
theorem TokenStream.tiles_of_ofText
    {text : String} {stream : TokenStream} (h : ofText text = .ok stream) :
    Tiles stream.tokens stream.ending text.toList :=
  readTokens_tiles h

/-- A name with documentation in front, a string with two escapes, a template over two lines, and a
comment behind it. -/
def exampleText : String :=
  "/** d */\nx'\\ud83d\\''\x60t\n\x60 // e"

def exampleTokens : TokenStream where
  tokens := [⟨.ident "x", ⟨⟨2, 1⟩, true, ["/** d */"]⟩⟩,
    ⟨.string (.ofList [.surrogate 0x3d, .scalar '\'']), ⟨⟨2, 2⟩, false, []⟩⟩,
    ⟨.template "t\n", ⟨⟨3, 12⟩, false, []⟩⟩]
  ending := ⟨⟨3, 7⟩, false, []⟩

theorem ofText_exampleText :
    TokenStream.ofText exampleText = .ok exampleTokens := by
  have hgap : readGap ⟨.start, false, []⟩ exampleText.toList =
      .ok (⟨⟨2, 1⟩, true, ["/** d */"]⟩, "x'\\ud83d\\''\x60t\n\x60 // e".toList) := by cbv
  have hname : readLexeme none ⟨2, 1⟩ 'x' "'\\ud83d\\''\x60t\n\x60 // e".toList =
      .ok ⟨.ident "x", ⟨2, 1⟩, ⟨2, 2⟩, "'\\ud83d\\''\x60t\n\x60 // e".toList⟩ := by rfl
  have hquote : readGap ⟨⟨2, 2⟩, false, []⟩ "'\\ud83d\\''\x60t\n\x60 // e".toList =
      .ok (⟨⟨2, 2⟩, false, []⟩, "'\\ud83d\\''\x60t\n\x60 // e".toList) := by cbv
  have hstring : readString '\'' "\\ud83d\\''\x60t\n\x60 // e".toList =
      .ok ([.surrogate 0x3d, .scalar '\''], "\x60t\n\x60 // e".toList) := by decide +kernel
  have hmark : readGap ⟨⟨2, 12⟩, false, []⟩ "\x60t\n\x60 // e".toList =
      .ok (⟨⟨2, 12⟩, false, []⟩, "\x60t\n\x60 // e".toList) := by cbv
  have htemplate : readLexeme (some (.string (.ofList [.surrogate 0x3d, .scalar '\'']))) ⟨2, 12⟩ '\x60'
      "t\n\x60 // e".toList = .ok ⟨.template "t\n", ⟨3, 12⟩, ⟨3, 2⟩, " // e".toList⟩ := by
    have hread : readTemplate 0 ⟨2, 13⟩ "t\n\x60 // e".toList =
        .ok ⟨"t\n".toList, ⟨3, 2⟩, " // e".toList⟩ := by cbv
    have hright : (⟨2, 12⟩ : Position).right 1 = ⟨2, 13⟩ := rfl
    rw [readLexeme, if_neg (by decide +kernel), if_neg (by decide +kernel), if_neg (by decide),
      if_pos rfl, hright, hread]
    simp only [String.ofList_toList]
  have hending : readGap ⟨⟨3, 2⟩, false, []⟩ " // e".toList = .ok (⟨⟨3, 7⟩, false, []⟩, []) := by
    cbv
  exact readTokens_token hgap hname (readTokens_token hquote (readLexeme_quote (.inl rfl) hstring _ _)
    (readTokens_token hmark htemplate (readTokens_ending hending)))

theorem tiles_exampleText :
    TokenStream.ofText exampleText = .ok exampleTokens ∧
      Tiles exampleTokens.tokens exampleTokens.ending exampleText.toList :=
  ⟨ofText_exampleText, TokenStream.tiles_of_ofText ofText_exampleText⟩

end EntityDiagram.Source
