import EntityDiagram.Proofs.Source.Concatenation
import EntityDiagram.Proofs.Source.Respelling
import EntityDiagram.Proofs.Source.TruePositions

/-!
# Regular expressions as they are written

A regular expression is read up to its own closing slash, whatever stands in it: an escaped slash does
not close it, nor does a slash in a class, and quotes and brackets in it are no tokens. Where it stands
behind another text, the tokens of that text stay what they are, each in its place, and reading goes
on behind the flags. Two things are asked of the text in front: an expression may begin at its end, and it
does not end inside a line comment, which would take in the slash.
-/

namespace EntityDiagram.Source

/-! ## Bodies -/

/-- What may stand between the brackets of a class. -/
inductive IsClassContent : List Char → Prop
  | nil : IsClassContent []
  | char {c : Char} {rest : List Char} (hc : c ∉ [']', '\\', '\n']) (hrest : IsClassContent rest) :
    IsClassContent (c :: rest)
  | escape {c : Char} {rest : List Char} (hc : c ≠ '\n') (hrest : IsClassContent rest) :
    IsClassContent ('\\' :: c :: rest)

/-- What may stand between the slashes of a regular expression. -/
inductive IsRegexBody : List Char → Prop
  | nil : IsRegexBody []
  | char {c : Char} {rest : List Char} (hc : c ∉ ['/', '[', '\\', '\n'])
      (hrest : IsRegexBody rest) :
    IsRegexBody (c :: rest)
  | escape {c : Char} {rest : List Char} (hc : c ≠ '\n') (hrest : IsRegexBody rest) :
    IsRegexBody ('\\' :: c :: rest)
  | bracketed {content rest : List Char} (hcontent : IsClassContent content)
      (hrest : IsRegexBody rest) :
    IsRegexBody ('[' :: content ++ ']' :: rest)

theorem map_prepend_map_prepend
    (front more : List Char) (read : Option (List Char × List Char)) :
    (read.map (prepend more)).map (prepend front) = read.map (prepend (front ++ more)) := by
  rw [Option.map_map]
  congr 1
  funext found
  simp [prepend]

theorem readRegexBody_escape
    {c : Char} (hc : c ≠ '\n') (inClass : Bool) (rest : List Char) :
    readRegexBody inClass ('\\' :: c :: rest) =
      (readRegexBody inClass rest).map (prepend ['\\', c]) := by
  rw [readRegexBody.eq_def]
  simp only [if_true, if_neg hc, if_neg (show '\\' ≠ '\n' by decide)]

theorem readRegexBody_char
    {inClass : Bool} {c : Char} (hline : c ≠ '\n') (hbackslash : c ≠ '\\')
    (hslash : ¬(c = '/' ∧ inClass = false)) (rest : List Char) :
    readRegexBody inClass (c :: rest) =
      (readRegexBody (c = '[' || (inClass && c != ']')) rest).map (prepend [c]) := by
  rw [readRegexBody.eq_def]
  simp only [if_neg hline, if_neg hbackslash, if_neg hslash]

/-- A class is left at its closing bracket. -/
theorem readRegexBody_class
    {content : List Char} (h : IsClassContent content) (rest : List Char) :
    readRegexBody true (content ++ ']' :: rest) =
      (readRegexBody false rest).map (prepend (content ++ [']'])) := by
  induction h with
  | nil => exact readRegexBody_char (by decide) (by decide) (by decide) rest
  | @char c more hc _ ih =>
    simp only [List.mem_cons, List.not_mem_nil, or_false, not_or] at hc
    obtain ⟨hclose, hbackslash, hline⟩ := hc
    have hclass : (decide (c = '[') || (true && c != ']')) = true := by simp [hclose]
    rw [List.cons_append, readRegexBody_char hline hbackslash (by simp), hclass, ih,
      map_prepend_map_prepend]
    rfl
  | escape hc _ ih =>
    rw [List.cons_append, List.cons_append, readRegexBody_escape hc, ih, map_prepend_map_prepend]
    rfl

/-- A body is read to the slash behind it. -/
theorem readRegexBody_body
    {body : List Char} (h : IsRegexBody body) (rest : List Char) :
    readRegexBody false (body ++ '/' :: rest) = some (body ++ ['/'], rest) := by
  induction h with
  | nil =>
    rw [List.nil_append, readRegexBody.eq_def]
    simp only [if_neg (show '/' ≠ '\n' by decide), if_neg (show '/' ≠ '\\' by decide), and_self,
      if_true]
    rfl
  | @char c more hc _ ih =>
    simp only [List.mem_cons, List.not_mem_nil, or_false, not_or] at hc
    obtain ⟨hslash, hopen, hbackslash, hline⟩ := hc
    have hclass : (decide (c = '[') || (false && c != ']')) = false := by simp [hopen]
    rw [List.cons_append, readRegexBody_char hline hbackslash (by simp [hslash]), hclass, ih]
    rfl
  | escape hc _ ih =>
    rw [List.cons_append, List.cons_append, readRegexBody_escape hc, ih]
    rfl
  | @bracketed content more hcontent _ ih =>
    have hclass : '[' :: content ++ ']' :: more ++ '/' :: rest =
        '[' :: (content ++ ']' :: (more ++ '/' :: rest)) := by
      simp
    have hopen : (decide ('[' = '[') || (false && '[' != ']')) = true := by decide
    rw [hclass, readRegexBody_char (by decide) (by decide) (by decide), hopen,
      readRegexBody_class hcontent, ih]
    simp [prepend]

/-! ## Lexemes in their places -/

/-- Where a lexeme is placed that starts and ends at the given positions. -/
def Lexeme.placeBetween (start behind : Position) : Lexeme → Position
  | .template _ => ⟨behind.line, start.column⟩
  | _ => start

theorem readLexeme_placeBetween
    {previous : Option Lexeme} {start : Position} {c : Char} {rest : List Char} {span : LexemeSpan}
    (h : readLexeme previous start c rest = .ok span) :
    span.place = span.lexeme.placeBetween start span.behind := by
  have houtcome := readLexeme_outcome previous start c rest
  rw [h] at houtcome
  cases houtcome with
  | plain hplain =>
    cases hplain with
    | name | number | regex | mark => rfl
  | string => rfl
  | template => rfl

/-- A lexeme that is read from the same characters at the same position is in the same place. -/
theorem readLexeme_samePlace
    {previous : Option Lexeme} {start : Position} {c : Char} (hc : c ≠ '\n') {rest rest' text : List Char}
    {span span' : LexemeSpan} (h : readLexeme previous start c rest = .ok span)
    (h' : readLexeme previous start c rest' = .ok span') (hlexeme : span'.lexeme = span.lexeme)
    (htext : c :: rest = text ++ span.rest) (htext' : c :: rest' = text ++ span'.rest) :
    span'.place = span.place ∧ span'.behind = span.behind := by
  have hbehind : span'.behind = span.behind :=
    (readLexeme_behind hc h' htext').trans (readLexeme_behind hc h htext).symm
  refine ⟨?_, hbehind⟩
  rw [readLexeme_placeBetween h, readLexeme_placeBetween h', hlexeme, hbehind]

theorem readString_cut
    {quote : Char} (hquote : quote = '\'' ∨ quote = '"') {text : List Character}
    {rest left tail : List Char} (h : readString quote (rest ++ tail) = .ok (text, left ++ tail)) :
    readString quote rest = .ok (text, left) := by
  obtain ⟨body, hbody, hcut⟩ := readString_eq_ok h
  have hrest : rest = body ++ quote :: left := List.append_cancel_right (hcut.trans (by simp))
  rw [hrest, readString_of_decodes hquote hbody]

theorem readTemplate_cut
    {start : Position} {rest left tail : List Char} {span : TemplateSpan}
    (h : readTemplate 0 start (rest ++ tail) = .ok span) (hleft : span.rest = left ++ tail) :
    ∃ behind, readTemplate 0 start rest = .ok ⟨span.text, behind, left⟩ := by
  have hcut := readTemplate_eq_ok h
  rw [hleft] at hcut
  have hrest : rest = span.text ++ '\x60' :: left :=
    List.append_cancel_right (hcut.trans (by simp))
  obtain ⟨behind, hagain⟩ := readTemplate_again h start left
  exact ⟨behind, hrest ▸ hagain⟩

theorem readRegexBody_cut
    {rest body left tail : List Char}
    (h : readRegexBody false (rest ++ tail) = some (body, left ++ tail)) :
    readRegexBody false rest = some (body, left) := by
  have hcut := readRegexBody_eq_some h
  have hrest : rest = body ++ left := List.append_cancel_right (hcut.trans (by simp))
  rw [hrest, readRegexBody_again h left]

/-- A lexeme that ends in front of a line break or a slash is read without what is behind, too. -/
theorem readLexeme_cut
    {tail : List Char} (htail : StopsLexemes tail) {previous : Option Lexeme} {start : Position}
    {c : Char} {rest left : List Char} {span : LexemeSpan}
    (h : readLexeme previous start c (rest ++ tail) = .ok span) (hleft : span.rest = left ++ tail) :
    ∃ place behind, readLexeme previous start c rest = .ok ⟨span.lexeme, place, behind, left⟩ := by
  have hdrop : ∀ {front}, front <+: c :: rest →
      (c :: (rest ++ tail)).drop front.length = (c :: rest).drop front.length ++ tail :=
    fun hfront => List.drop_append_of_le_length hfront.length_le
  unfold readLexeme at h ⊢
  rw [startsNumeral_append htail] at h
  split at h
  · obtain rfl := Except.ok.inj h
    have hname : c :: rest.takeWhile isNamePart <+: c :: rest :=
      List.cons_prefix_cons.mpr ⟨rfl, List.takeWhile_prefix _⟩
    rw [if_pos ‹_›]
    simp only [takeWhile_append htail isNamePart_stop, hdrop hname] at hleft ⊢
    rw [List.append_cancel_right hleft]
    exact ⟨_, _, rfl⟩
  · rw [if_neg ‹_›]
    split at h
    · rw [if_pos ‹_›]
      have hspelling := Numeral.spelling?_append htail (c :: rest)
      rw [List.cons_append] at hspelling
      rw [hspelling] at h
      split at h
      · cases h
      · rename_i spelling hfound
        obtain rfl := Except.ok.inj h
        simp only [hdrop (Numeral.spelling?_isPrefix hfound)] at hleft
        rw [List.append_cancel_right hleft]
        exact ⟨_, _, rfl⟩
    · rw [if_neg ‹_›]
      split at h
      · rename_i hquote
        rw [if_pos hquote]
        split at h
        · cases h
        · rename_i text behind hread
          obtain rfl := Except.ok.inj h
          obtain rfl : behind = left ++ tail := hleft
          rw [readString_cut hquote hread]
          exact ⟨_, _, rfl⟩
      · rw [if_neg ‹_›]
        split at h
        · rw [if_pos ‹_›]
          split at h
          · cases h
          · rename_i found hread
            obtain rfl := Except.ok.inj h
            obtain ⟨behind, hread'⟩ := readTemplate_cut hread hleft
            rw [hread']
            exact ⟨_, _, rfl⟩
        · rw [if_neg ‹_›]
          split at h
          · rw [if_pos ‹_›]
            split at h
            · cases h
            · rename_i body behind hread
              obtain rfl := Except.ok.inj h
              obtain ⟨front, rfl⟩ : ∃ front, behind = front ++ tail := by
                refine ⟨behind.takeWhile isNamePart ++ left, ?_⟩
                rw [List.append_assoc, ← hleft, List.takeWhile_append_dropWhile]
              simp only [takeWhile_append htail isNamePart_stop,
                dropWhile_append htail isNamePart_stop] at hleft ⊢
              rw [readRegexBody_cut hread]
              simp only [List.append_cancel_right hleft]
              exact ⟨_, _, rfl⟩
          · rw [if_neg ‹_›]
            obtain rfl := Except.ok.inj h
            simp only [markAt_append htail, hdrop (markAt_isPrefix c rest)] at hleft ⊢
            rw [List.append_cancel_right hleft]
            exact ⟨_, _, rfl⟩

/-- The lexeme at the front of a text is the same, and in the same place, in front of a line break or a
slash. -/
theorem readLexeme_append_inPlace
    {tail : List Char} (htail : StopsLexemes tail) {previous : Option Lexeme} {start : Position}
    {c : Char} (hc : c ≠ '\n') {rest : List Char} {span : LexemeSpan}
    (h : readLexeme previous start c rest = .ok span) :
    readLexeme previous start c (rest ++ tail) = .ok { span with rest := span.rest ++ tail } := by
  obtain ⟨place, behind, hread⟩ := readLexeme_append htail h rfl start
  obtain ⟨text, -, htext⟩ := readLexeme_eq_ok h
  have htext' : c :: (rest ++ tail) = text ++ (span.rest ++ tail) := by
    rw [← List.cons_append, htext, List.append_assoc]
  obtain ⟨hplace, hbehind⟩ := readLexeme_samePlace hc h hread rfl htext htext'
  rw [hread]
  simp only at hplace hbehind
  rw [hplace, hbehind]

/-! ## Tokens in their places -/

/-- The text behind the given lexeme ends inside a line comment: what stands in front of the comment has
the same tokens. -/
def EndsInLineComment (previous : Option Lexeme) (position : Position) (tokens : List Token)
    (cs : List Char) : Prop :=
  ∃ front lead comment, readTokens previous position front = .ok ⟨tokens, lead⟩ ∧ '\n' ∉ comment ∧
    cs = front ++ '/' :: '/' :: comment

theorem endsInLineComment_nil
    {pieces : List GapPiece} {comment : List Char} (hcomment : '\n' ∉ comment)
    (hfits : GapFits ('/' :: '/' :: comment) pieces) (previous : Option Lexeme) (position : Position) :
    EndsInLineComment previous position [] (gapText pieces ++ '/' :: '/' :: comment) := by
  have hgap := readGap_gapText hfits.cut ⟨position, false, []⟩
  rw [List.append_nil, readGap] at hgap
  exact ⟨gapText pieces, _, comment, readTokens_ending hgap, hcomment, rfl⟩

/-- A token in front of a text that ends inside a line comment. -/
theorem EndsInLineComment.cons
    {previous : Option Lexeme} {position : Position} {tokens : List Token} {cs rest : List Char}
    {c : Char} {lead : Lead} {span : LexemeSpan}
    (hgap : readGap ⟨position, false, []⟩ cs = .ok (lead, c :: rest))
    (hlexeme : readLexeme previous lead.position c rest = .ok span)
    (h : EndsInLineComment (some span.lexeme) span.behind tokens span.rest) :
    EndsInLineComment previous position
      (⟨span.lexeme, { lead with position := span.place }⟩ :: tokens) cs := by
  obtain ⟨front, ending, comment, hmore, hcomment, hrest⟩ := h
  obtain ⟨pieces, rfl, hfits, hlead⟩ := readGap_eq_gapText hgap
  obtain ⟨text, -, htext⟩ := readLexeme_eq_ok hlexeme
  have hc := readGap_ne_newline hgap
  have htail : StopsLexemes ('/' :: '/' :: comment) := by
    intro d hd
    obtain rfl : '/' = d := Option.some.inj hd
    decide
  -- The lexeme is not empty, so the text without the comment starts with the same character.
  obtain ⟨rest', rfl, hcut⟩ : ∃ rest', rest = rest' ++ '/' :: '/' :: comment ∧
      c :: rest' = text ++ front := by
    rw [hrest] at htext
    cases text with
    | nil =>
      have hlength := readLexeme_length hlexeme
      rw [hrest, htext] at hlength
      exact absurd hlength (Nat.lt_irrefl _)
    | cons d text =>
      obtain ⟨rfl, rfl⟩ := List.cons.inj htext
      exact ⟨text ++ front, by simp, rfl⟩
  obtain ⟨place, behind, hread⟩ := readLexeme_cut htail hlexeme hrest
  obtain ⟨hplace, hbehind⟩ := readLexeme_samePlace hc hlexeme hread rfl htext hcut
  simp only at hplace hbehind
  have hstarts : StartsLexeme c rest' := (startsLexeme_of_readGap hgap).cut
  have hfits' : GapFits (c :: rest') pieces := hfits.of_head? rfl
  have hgap' : readGap ⟨position, false, []⟩ (gapText pieces ++ c :: rest') =
      .ok (lead, c :: rest') := by
    rw [readGap_gapText hfits', hlead, hstarts.readGap_eq]
  rw [hplace, hbehind] at hread
  refine ⟨gapText pieces ++ c :: rest', ending, comment, ?_, hcomment, by simp⟩
  exact readTokens_token hgap' hread hmore

/-- Behind a slash that ends a text no expression begins. -/
theorem regexAllowedAfter_slash
    {previous : Option Lexeme} {start : Position} {span : LexemeSpan}
    (h : readLexeme previous start '/' [] = .ok span) :
    regexAllowedAfter (some span.lexeme) = false ∧ span.rest = [] := by
  have hlength := readLexeme_length h
  refine ⟨?_, List.length_eq_zero_iff.mp (by simpa using hlength)⟩
  have houtcome := readLexeme_outcome previous start '/' []
  rw [h] at houtcome
  cases houtcome with
  | plain hplain =>
    cases hplain with
    | name =>
      have hword : regexAllowedAfter (some (.ident (String.ofList ['/']))) = false := by decide
      exact hword
    | number => rfl
    | regex => rfl
    | mark =>
      have hmark : regexAllowedAfter (some (.punct (String.ofList ['/']))) = false := by decide
      exact hmark
  | string => rfl
  | template => rfl

/-- A slash alone at the end of a text is a mark behind which no expression begins. -/
theorem rest_ne_nil_of_slash
    {previous : Option Lexeme} {start : Position} {rest : List Char} {span : LexemeSpan}
    {more : TokenStream} (hlexeme : readLexeme previous start '/' rest = .ok span)
    (hmore : readTokens (some span.lexeme) span.behind span.rest = .ok more)
    (hallowed : regexAllowedAfter (lastLexeme (some span.lexeme) more.tokens) = true) :
    rest ≠ [] := by
  rintro rfl
  obtain ⟨hnot, hrest⟩ := regexAllowedAfter_slash hlexeme
  have hgap : readGap ⟨span.behind, false, []⟩ [] = .ok (⟨span.behind, false, []⟩, []) := by
    rw [readGap]
  rw [hrest, readTokens_ending hgap] at hmore
  obtain rfl := Except.ok.inj hmore
  exact Bool.false_ne_true (hnot.symm.trans hallowed)

/-- The tokens of a text at whose end an expression may begin are the same, each in its place, in front of
a line break or a slash. -/
theorem readTokens_append
    {tail : List Char} (htail : StopsLexemes tail) {previous : Option Lexeme} {position : Position}
    {cs : List Char} {stream : TokenStream} (h : readTokens previous position cs = .ok stream)
    (hallowed : regexAllowedAfter (lastLexeme previous stream.tokens) = true)
    (hcomment : ¬EndsInLineComment previous position stream.tokens cs) :
    readTokens previous position (cs ++ tail) =
      (readFrom (lastLexeme previous stream.tokens) stream.ending tail).map
        (TokenStream.behind stream.tokens) := by
  fun_induction readTokens previous position cs generalizing stream with
  | case1 => cases h
  | case2 previous position cs lead hgap =>
    obtain rfl := Except.ok.inj h
    obtain hclosed | ⟨-, pieces, comment, rfl, hline, hfits⟩ := readGap_closed_or hgap
    · have hread : readTokens previous position (cs ++ tail) = readFrom previous lead tail := by
        rw [readTokens_eq_readFrom, readFrom, hclosed tail, List.nil_append, readFrom]
      have hlast : lastLexeme previous [] = previous := rfl
      rw [hread, hlast]
      cases readFrom previous lead tail <;> rfl
    · exact absurd (endsInLineComment_nil hline hfits previous position) hcomment
  | case3 => cases h
  | case4 => cases h
  | case5 previous position cs lead c rest hgap span hlexeme more hmore token =>
    rename_i ih
    obtain rfl := Except.ok.inj h
    simp only [lastLexeme_cons] at hallowed ⊢
    have hslash : ∀ other, c = '/' → (rest ++ tail).head? = some other → rest.head? = some other := by
      rintro other rfl hhead
      obtain ⟨first, more, rfl⟩ :=
        List.exists_cons_of_ne_nil (rest_ne_nil_of_slash hlexeme hmore hallowed)
      exact hhead
    have hstarts := startsLexeme_of_readGap hgap
    have hstop : StartsLexeme c (rest ++ tail) :=
      ⟨hstarts.blank, fun hopen => hstarts.line ⟨hopen.1, hslash _ hopen.1 hopen.2⟩,
        fun hopen => hstarts.block ⟨hopen.1, hslash _ hopen.1 hopen.2⟩⟩
    have hread : readGap ⟨position, false, []⟩ (cs ++ tail) = .ok (lead, c :: (rest ++ tail)) := by
      obtain hclosed | ⟨hnil, -⟩ := readGap_closed_or hgap
      · exact (hclosed tail).trans (hstop.readGap_eq lead)
      · cases hnil
    have hnext := readLexeme_append_inPlace htail (readGap_ne_newline hgap) hlexeme
    have hinner : ¬EndsInLineComment (some span.lexeme) span.behind more.tokens span.rest :=
      fun hends => hcomment (hends.cons hgap hlexeme)
    rw [readTokens_eq, hread]
    simp only [hnext, ih hmore hallowed hinner]
    cases readFrom (lastLexeme (some span.lexeme) more.tokens) more.ending tail <;> rfl

/-! ## A regular expression behind a text -/

/-- A regular expression as it is written. -/
def regexText (body flags : String) : String :=
  "/" ++ body ++ "/" ++ flags

theorem toList_regexText
    (body flags : String) :
    (regexText body flags).toList = '/' :: (body.toList ++ ['/']) ++ flags.toList := by
  simp [regexText]

theorem IsRegexBody.head?_ne_slash
    {body : List Char} (h : IsRegexBody body) :
    body.head? ≠ some '/' := by
  rintro hhead
  cases h with
  | nil => cases hhead
  | char hc =>
    obtain rfl := Option.some.inj hhead
    exact hc List.mem_cons_self
  | escape => exact absurd (Option.some.inj hhead) (by decide)
  | bracketed => exact absurd (Option.some.inj hhead) (by decide)

/-- A regular expression is one token, and reading goes on behind its flags. -/
theorem readFrom_regex
    {previous : Option Lexeme} (hallowed : regexAllowedAfter previous = true) {body flags : String}
    (hbody : IsRegexBody body.toList) (hnonempty : body ≠ "") (hstar : body.toList.head? ≠ some '*')
    (hflags : ∀ c ∈ flags.toList, isNamePart c = true) {rest : List Char}
    (hrest : ∀ c ∈ rest.head?, isNamePart c = false) (lead : Lead) :
    readFrom previous lead ((regexText body flags).toList ++ rest) =
      (readTokens (some (.regex (regexText body flags)))
        (lead.position.right (regexText body flags).length) rest).map
          (TokenStream.behind [⟨.regex (regexText body flags), lead⟩]) := by
  have htext : (regexText body flags).toList ++ rest =
      '/' :: (body.toList ++ '/' :: (flags.toList ++ rest)) := by
    simp [toList_regexText]
  have hhead : (body.toList ++ '/' :: (flags.toList ++ rest)).head? = body.toList.head? := by
    obtain ⟨c, more, hcons⟩ := List.exists_cons_of_ne_nil (String.toList_eq_nil_iff.not.mpr hnonempty)
    rw [hcons]
    rfl
  have hstarts : StartsLexeme '/' (body.toList ++ '/' :: (flags.toList ++ rest)) := by
    refine ⟨by decide, fun hopen => ?_, fun hopen => ?_⟩
    · exact hbody.head?_ne_slash (hhead.symm.trans hopen.2)
    · exact hstar (hhead.symm.trans hopen.2)
  have hlexeme := readLexeme_regex hallowed (readRegexBody_body hbody (flags.toList ++ rest))
    lead.position
  rw [takeWhile_append_of_stop hflags hrest, dropWhile_append_of_stop hflags hrest,
    ← toList_regexText, String.ofList_toList, String.length_toList] at hlexeme
  rw [htext, readFrom, hstarts.readGap_eq]
  simp only [hlexeme]
  cases readTokens (some (.regex (regexText body flags)))
    (lead.position.right (regexText body flags).length) rest <;> rfl

/-- A regular expression behind a text at whose end an expression may begin is the next token behind
those of the text, and what is behind its flags is read as it would be anywhere behind a regular
expression. -/
theorem TokenStream.ofText_regex
    {front body flags rest : String} {stream : TokenStream}
    (h : TokenStream.ofText front = .ok stream)
    (hallowed : regexAllowedAfter (lastLexeme none stream.tokens) = true)
    (hcomment : ¬EndsInLineComment none .start stream.tokens front.toList)
    (hbody : IsRegexBody body.toList) (hnonempty : body ≠ "") (hstar : body.toList.head? ≠ some '*')
    (hflags : ∀ c ∈ flags.toList, isNamePart c = true)
    (hrest : ∀ c ∈ rest.toList.head?, isNamePart c = false) :
    TokenStream.ofText (front ++ regexText body flags ++ rest) =
      (readTokens (some (.regex (regexText body flags)))
        (stream.ending.position.right (regexText body flags).length) rest.toList).map
          (TokenStream.behind
            (stream.tokens ++ [⟨.regex (regexText body flags), stream.ending⟩])) := by
  have htail : StopsLexemes ((regexText body flags).toList ++ rest.toList) := by
    intro c hc
    rw [toList_regexText] at hc
    obtain rfl : '/' = c := Option.some.inj hc
    decide
  have htext : (front ++ regexText body flags ++ rest).toList =
      front.toList ++ ((regexText body flags).toList ++ rest.toList) := by
    rw [String.toList_append, String.toList_append, List.append_assoc]
  rw [TokenStream.ofText, htext, readTokens_append htail h hallowed hcomment,
    readFrom_regex hallowed hbody hnonempty hstar hflags hrest]
  cases readTokens (some (.regex (regexText body flags)))
    (stream.ending.position.right (regexText body flags).length) rest.toList with
  | error e => rfl
  | ok found => simp [Except.map, TokenStream.behind]

/-- The text in front of a regular expression. -/
def assignedText : String :=
  "x = "

def assignedTokens : TokenStream where
  tokens := [⟨.ident "x", ⟨⟨1, 1⟩, false, []⟩⟩, ⟨.punct "=", ⟨⟨1, 3⟩, false, []⟩⟩]
  ending := ⟨⟨1, 5⟩, false, []⟩

theorem ofText_assignedText :
    TokenStream.ofText assignedText = .ok assignedTokens := by
  have hname : readGap ⟨.start, false, []⟩ assignedText.toList =
      .ok (⟨⟨1, 1⟩, false, []⟩, "x = ".toList) := by cbv
  have hequals : readGap ⟨⟨1, 2⟩, false, []⟩ " = ".toList =
      .ok (⟨⟨1, 3⟩, false, []⟩, "= ".toList) := by cbv
  have hmark : readLexeme (some (.ident "x")) ⟨1, 3⟩ '=' " ".toList =
      .ok ⟨.punct "=", ⟨1, 3⟩, ⟨1, 4⟩, " ".toList⟩ :=
    readLexeme_punct (by decide +kernel) (by decide +kernel) (by decide) (by decide) (by decide)
      (by decide : markAt _ _ = ['=']) rfl _
  have hending : readGap ⟨⟨1, 4⟩, false, []⟩ " ".toList = .ok (⟨⟨1, 5⟩, false, []⟩, []) := by cbv
  exact readTokens_token hname rfl (readTokens_token hequals hmark (readTokens_ending hending))

/-- A class with a slash and both quotes in it, and an escaped slash. -/
theorem isRegexBody_quotes :
    IsRegexBody "[/'\"]\\/".toList := by
  have hcontent : IsClassContent ['/', '\'', '"'] :=
    .char (by decide) (.char (by decide) (.char (by decide) .nil))
  exact .bracketed hcontent (.escape (by decide) .nil)

theorem ofText_regex_quotes :
    TokenStream.ofText assignedText = .ok assignedTokens ∧
      regexAllowedAfter (lastLexeme none assignedTokens.tokens) = true ∧
      ¬EndsInLineComment none .start assignedTokens.tokens assignedText.toList ∧
      IsRegexBody "[/'\"]\\/".toList ∧
      TokenStream.ofText "x = /[/'\"]\\//g;" = .ok ⟨assignedTokens.tokens ++ [
        ⟨.regex "/[/'\"]\\//g", ⟨⟨1, 5⟩, false, []⟩⟩,
        ⟨.punct ";", ⟨⟨1, 15⟩, false, []⟩⟩], ⟨⟨1, 16⟩, false, []⟩⟩ := by
  have hallowed : regexAllowedAfter (lastLexeme none assignedTokens.tokens) = true := by decide
  have hcomment : ¬EndsInLineComment none .start assignedTokens.tokens assignedText.toList := by
    rintro ⟨front, lead, comment, -, -, htext⟩
    have hslash : '/' ∈ assignedText.toList := by simp [htext]
    exact absurd hslash (by decide)
  have hrest : ∀ c ∈ ";".toList.head?, isNamePart c = false := by
    intro c hc
    obtain rfl : ';' = c := Option.some.inj hc
    decide +kernel
  have hflags : ∀ c ∈ "g".toList, isNamePart c = true := by
    intro c hc
    obtain rfl : c = 'g' := List.mem_singleton.mp hc
    decide +kernel
  have hread := TokenStream.ofText_regex ofText_assignedText hallowed hcomment isRegexBody_quotes
    (by decide) (by decide) hflags hrest
  have hmark : readGap ⟨⟨1, 15⟩, false, []⟩ ";".toList = .ok (⟨⟨1, 15⟩, false, []⟩, [';']) := by cbv
  have hlexeme : readLexeme (some (.regex "/[/'\"]\\//g")) ⟨1, 15⟩ ';' [] =
      .ok ⟨.punct ";", ⟨1, 15⟩, ⟨1, 16⟩, []⟩ :=
    readLexeme_punct (by decide +kernel) (by decide +kernel) (by decide) (by decide) (by decide)
      (by decide : markAt _ _ = [';']) rfl _
  have hending : readGap ⟨⟨1, 16⟩, false, []⟩ [] = .ok (⟨⟨1, 16⟩, false, []⟩, []) := by cbv
  have hmore := readTokens_token hmark hlexeme (readTokens_ending hending)
  refine ⟨ofText_assignedText, hallowed, hcomment, isRegexBody_quotes, ?_⟩
  exact hread.trans (congrArg (Except.map _) hmore)

end EntityDiagram.Source
