import EntityDiagram.Proofs.Source.Names
import EntityDiagram.Proofs.Source.Tiling

/-!
# Gaps piece by piece

A gap is read piece by piece up to where a lexeme starts, and what a piece does to the lead does not
depend on the pieces around it. So a gap that fits in front of a text is read to its end, whatever the
text is.
-/

namespace EntityDiagram.Source

/-! ## Where a lexeme starts -/

/-- A gap ends in front of the text: neither white space nor a comment starts here. -/
structure StartsLexeme (c : Char) (rest : List Char) : Prop where
  blank : Text.isBlank c = false
  line : ¬(c = '/' ∧ rest.head? = some '/')
  block : ¬(c = '/' ∧ rest.head? = some '*')

theorem startsLexeme_of_ne_slash
    {c : Char} (hblank : Text.isBlank c = false) (hslash : c ≠ '/') (rest : List Char) :
    StartsLexeme c rest :=
  ⟨hblank, fun h => hslash h.1, fun h => hslash h.1⟩

theorem startsLexeme_of_readGap
    {lead lead' : Lead} {c : Char} {cs rest : List Char}
    (h : readGap lead cs = .ok (lead', c :: rest)) :
    StartsLexeme c rest := by
  fun_induction readGap lead cs with
  | case1 => cases h
  | case2 _ _ ih => exact ih h
  | case3 _ _ _ _ _ ih => exact ih h
  | case4 _ _ _ _ _ _ _ ih => exact ih h
  | case5 => cases h
  | case6 _ _ _ _ _ _ _ _ _ _ ih => exact ih h
  | case7 lead c rest _ hblank hline hblock =>
    obtain ⟨-, heq⟩ := Prod.mk.inj (Except.ok.inj h)
    obtain ⟨rfl, rfl⟩ := List.cons.inj heq
    exact ⟨Bool.not_eq_true _ ▸ hblank, hline, hblock⟩

theorem StartsLexeme.readGap_eq
    {c : Char} {rest : List Char} (h : StartsLexeme c rest) (lead : Lead) :
    readGap lead (c :: rest) = .ok (lead, c :: rest) := by
  have hnewline : c ≠ '\n' := by
    rintro rfl
    exact absurd h.blank (by decide)
  rw [readGap, if_neg hnewline, if_neg (by simp [h.blank]), if_neg h.line, if_neg h.block]

theorem StartsLexeme.cut
    {c : Char} {front tail : List Char} (h : StartsLexeme c (front ++ tail)) :
    StartsLexeme c front := by
  have hhead : ∀ d, front.head? = some d → (front ++ tail).head? = some d := fun d hd => by
    rw [List.head?_append, hd, Option.some_or]
  exact ⟨h.blank, fun hopen => h.line ⟨hopen.1, hhead _ hopen.2⟩,
    fun hopen => h.block ⟨hopen.1, hhead _ hopen.2⟩⟩

/-! ## One piece and all of them -/

/-- The lead behind one more piece of a gap. -/
def Lead.afterPiece (lead : Lead) : GapPiece → Lead
  | .blank c =>
    if c = '\n' then { lead with position := lead.position.nextLine, newline := true }
    else { lead with position := lead.position.right 1 }
  | .line body => { lead with position := lead.position.right (body.length + 2) }
  | .block body => lead.afterComment body

/-- The body of a comment that is not closed earlier is read to its end. -/
theorem commentBody_of_closed
    {body : List Char}
    (h : ∀ front back, body ++ ['*', '/'] = front ++ ['*', '/'] ++ back → back = [])
    (behind : List Char) :
    commentBody (body ++ '*' :: '/' :: behind) = some (body, behind) := by
  induction body with
  | nil => rfl
  | cons c rest ih =>
    have hrest : ∀ front back, rest ++ ['*', '/'] = front ++ ['*', '/'] ++ back → back = [] := by
      intro front back heq
      apply h (c :: front) back
      rw [List.cons_append, heq]
      rfl
    rw [List.cons_append, commentBody]
    · rw [ih hrest]
      rfl
    · -- A star with a slash behind it would close the comment here.
      rintro more rfl hslash
      cases rest with
      | nil => exact absurd (List.cons.inj hslash).1 (by decide)
      | cons slash rest =>
        obtain ⟨rfl, -⟩ := List.cons.inj hslash
        have hnil := h [] (rest ++ ['*', '/']) rfl
        simp at hnil

theorem readGap_line
    {body behind : List Char} (hbody : '\n' ∉ body)
    (hbehind : behind = [] ∨ behind.head? = some '\n') (lead : Lead) :
    readGap lead ('/' :: '/' :: (body ++ behind)) =
      readGap { lead with position := lead.position.right (body.length + 2) } behind := by
  have hline : ∀ c ∈ '/' :: body, (decide (c ≠ '\n')) = true := by
    simp only [decide_eq_true_eq]
    rintro c hc rfl
    obtain hslash | hmem := List.mem_cons.mp hc
    · exact absurd hslash (by decide)
    · exact hbody hmem
  have hstop : ∀ c ∈ behind.head?, (decide (c ≠ '\n')) = false := by
    rintro c hc
    obtain rfl | hhead := hbehind
    · cases hc
    · simpa using (Option.some.inj (hhead.symm.trans hc)).symm
  have hwidth : ('/' :: '/' :: (body ++ behind)).takeWhile (· ≠ '\n') = '/' :: '/' :: body := by
    rw [List.takeWhile_cons_of_pos (by decide)]
    exact congrArg ('/' :: ·) (takeWhile_append_of_stop hline hstop)
  have hrest : ('/' :: body ++ behind).dropWhile (· ≠ '\n') = behind :=
    dropWhile_append_of_stop hline hstop
  rw [List.cons_append] at hrest
  rw [readGap, if_neg (by decide), if_neg (by decide), if_pos (by simp)]
  simp only [hwidth, hrest, List.length_cons]

/-- A piece of a gap is read as what it is. -/
theorem readGap_piece
    {piece : GapPiece} {behind : List Char} (h : piece.Fits behind) (lead : Lead) :
    readGap lead (piece.text ++ behind) = readGap (lead.afterPiece piece) behind := by
  cases piece with
  | blank c =>
    have hblank : Text.isBlank c = true := h
    by_cases hline : c = '\n'
    · rw [hline, Lead.afterPiece, if_pos rfl]
      exact readGap_newline lead behind
    · rw [Lead.afterPiece, if_neg hline, GapPiece.text, List.singleton_append, readGap, if_neg hline,
        if_pos hblank]
  | line body => exact readGap_line h.1 h.2 lead
  | block body =>
    have hbody := commentBody_of_closed h behind
    have htext : (GapPiece.block body).text ++ behind =
        '/' :: '*' :: (body ++ '*' :: '/' :: behind) := by
      simp [GapPiece.text, blockComment]
    rw [htext, readGap_block hbody]
    rfl

/-- A gap in front of a text that it fits is read to its end. -/
theorem readGap_gapText
    {pieces : List GapPiece} {behind : List Char} (h : GapFits behind pieces) (lead : Lead) :
    readGap lead (gapText pieces ++ behind) = readGap (pieces.foldl Lead.afterPiece lead) behind := by
  induction pieces generalizing lead with
  | nil => rfl
  | cons piece more ih =>
    rw [gapText_cons, List.append_assoc, readGap_piece h.1, ih h.2]
    rfl

/-- Whether a piece of a gap may stand in front of a text is seen from the text's first character. -/
theorem GapPiece.Fits.of_head?
    {piece : GapPiece} {behind behind' : List Char} (h : piece.Fits behind)
    (hhead : behind'.head? = behind.head?) :
    piece.Fits behind' := by
  cases piece with
  | blank c => exact h
  | line body =>
    obtain ⟨hbody, hbehind⟩ := h
    refine ⟨hbody, ?_⟩
    rwa [← List.head?_eq_none_iff, hhead, List.head?_eq_none_iff]
  | block body => exact h

theorem GapFits.of_head?
    {pieces : List GapPiece} {behind behind' : List Char} (h : GapFits behind pieces)
    (hhead : behind'.head? = behind.head?) :
    GapFits behind' pieces := by
  induction pieces with
  | nil => trivial
  | cons piece more ih =>
    refine ⟨h.1.of_head? ?_, ih h.2⟩
    rw [List.head?_append, List.head?_append, hhead]

/-- A gap fits in front of a text that goes on, or it ends with a line comment that does not end. -/
theorem GapFits.extend_or
    {pieces : List GapPiece} {behind : List Char} (h : GapFits behind pieces) :
    (∀ tail, GapFits (behind ++ tail) pieces) ∨
      behind = [] ∧ ∃ front comment, pieces = front ++ [.line comment] ∧ '\n' ∉ comment := by
  induction pieces with
  | nil => exact .inl fun _ => trivial
  | cons piece more ih =>
    obtain ⟨hpiece, hmore⟩ := h
    obtain hextend | ⟨hnil, front, comment, hmore, hcomment⟩ := ih hmore
    · cases hnext : gapText more ++ behind with
      | nil =>
        obtain ⟨hnone, rfl⟩ := List.append_eq_nil_iff.mp hnext
        cases piece with
        | blank c => exact .inl fun tail => ⟨hpiece, hextend tail⟩
        | block body => exact .inl fun tail => ⟨hpiece, hextend tail⟩
        | line comment =>
          obtain rfl : more = [] := by
            cases more with
            | nil => rfl
            | cons next rest => cases next <;> cases hnone
          exact .inr ⟨rfl, [], comment, rfl, hpiece.1⟩
      | cons c rest =>
        refine .inl fun tail => ⟨hpiece.of_head? ?_, hextend tail⟩
        rw [← List.append_assoc, hnext]
        rfl
    · exact .inr ⟨hnil, piece :: front, comment, by rw [hmore]; rfl, hcomment⟩

theorem gapFits_of_append
    {front : List GapPiece} {piece : GapPiece} {behind : List Char}
    (h : GapFits behind (front ++ [piece])) :
    GapFits (piece.text ++ behind) front := by
  induction front with
  | nil => trivial
  | cons first more ih =>
    obtain ⟨hfirst, hmore⟩ := h
    refine ⟨?_, ih hmore⟩
    simpa [gapText] using hfirst

/-- The pieces of a gap that was read, which make the lead that was found. -/
theorem readGap_eq_gapText
    {lead lead' : Lead} {cs rest : List Char} (h : readGap lead cs = .ok (lead', rest)) :
    ∃ pieces, cs = gapText pieces ++ rest ∧ GapFits rest pieces ∧
      pieces.foldl Lead.afterPiece lead = lead' := by
  obtain ⟨pieces, rfl, hfits, -, -⟩ := readGap_eq_ok h
  refine ⟨pieces, rfl, hfits, ?_⟩
  have hread := (readGap_gapText hfits lead).symm.trans h
  cases rest with
  | nil =>
    rw [readGap] at hread
    exact (Prod.mk.inj (Except.ok.inj hread)).1
  | cons c rest =>
    rw [(startsLexeme_of_readGap h).readGap_eq] at hread
    exact (Prod.mk.inj (Except.ok.inj hread)).1

/-- A gap is read to its end whatever is behind, unless it ends inside a line comment. -/
theorem readGap_closed_or
    {lead lead' : Lead} {cs rest : List Char} (h : readGap lead cs = .ok (lead', rest)) :
    (∀ tail, readGap lead (cs ++ tail) = readGap lead' (rest ++ tail)) ∨
      rest = [] ∧ ∃ pieces comment, cs = gapText pieces ++ '/' :: '/' :: comment ∧
        '\n' ∉ comment ∧ GapFits ('/' :: '/' :: comment) pieces := by
  obtain ⟨pieces, rfl, hfits, hlead⟩ := readGap_eq_gapText h
  obtain hextend | ⟨rfl, front, comment, rfl, hcomment⟩ := hfits.extend_or
  · refine .inl fun tail => ?_
    rw [List.append_assoc, readGap_gapText (hextend tail), hlead]
  · have hfront := gapFits_of_append hfits
    rw [List.append_nil] at hfront
    refine .inr ⟨rfl, front, comment, ?_, hcomment, hfront⟩
    simp [gapText, GapPiece.text]

/-- A gap that fits in front of more text fits at the end of a text. -/
theorem GapFits.cut
    {pieces : List GapPiece} {behind : List Char} (h : GapFits behind pieces) :
    GapFits [] pieces := by
  induction pieces with
  | nil => trivial
  | cons piece more ih =>
    obtain ⟨hpiece, hmore⟩ := h
    refine ⟨?_, ih hmore⟩
    rw [List.append_nil]
    cases piece with
    | blank c => exact hpiece
    | block body => exact hpiece
    | line body =>
      obtain ⟨hbody, hbehind⟩ := hpiece
      refine ⟨hbody, ?_⟩
      cases hnext : gapText more with
      | nil => exact .inl rfl
      | cons c rest =>
        rw [hnext] at hbehind
        exact .inr (by simpa using hbehind)

end EntityDiagram.Source
