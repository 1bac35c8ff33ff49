import EntityDiagram.Proofs.Source.LexemeText
import Mathlib.Data.List.Forall2

/-!
# Reading a text in front of a line break

No lexeme but a template goes beyond its line, and a template is read to its closing mark. So the
lexemes of a text stay the same when a line break and more text follow, and only the gap at its end
goes on. Nor do they depend on where the text stands: what was read before it matters to a slash in
front alone. A slash behind a lexeme leaves it the same as a line break does.
-/

namespace EntityDiagram.Source

/-- Nothing, or a text that starts with one of the characters. -/
def StartsWithin (starts tail : List Char) : Prop :=
  ∀ c ∈ tail.head?, c ∈ starts

section StartsWithin

variable {starts tail : List Char} (htail : StartsWithin starts tail)

include htail

theorem eq_false_of_head?
    {p : Char → Bool} (hp : starts.any p = false) :
    ∀ c ∈ tail.head?, p c = false := by
  intro c hc
  rw [List.any_eq_false] at hp
  exact Bool.eq_false_iff.mpr (hp c (htail c hc))

theorem takeWhile_append
    {p : Char → Bool} (hp : starts.any p = false) (cs : List Char) :
    (cs ++ tail).takeWhile p = cs.takeWhile p := by
  induction cs with
  | nil =>
    cases tail with
    | nil => rfl
    | cons c more =>
      have hc := eq_false_of_head? htail hp c rfl
      rw [List.nil_append, List.takeWhile_cons_of_neg (by simp [hc]), List.takeWhile_nil]
  | cons c rest ih => simp only [List.cons_append, List.takeWhile_cons, ih]

theorem dropWhile_append
    {p : Char → Bool} (hp : starts.any p = false) (cs : List Char) :
    (cs ++ tail).dropWhile p = cs.dropWhile p ++ tail := by
  induction cs with
  | nil =>
    cases tail with
    | nil => rfl
    | cons c more =>
      have hc := eq_false_of_head? htail hp c rfl
      rw [List.nil_append, List.dropWhile_cons_of_neg (by simp [hc]), List.dropWhile_nil,
        List.nil_append]
  | cons c rest ih =>
    simp only [List.cons_append, List.dropWhile_cons, ih]
    split <;> rfl

theorem head?_append_eq_some_iff
    {c : Char} (hc : c ∉ starts) (cs : List Char) :
    (cs ++ tail).head? = some c ↔ cs.head? = some c := by
  cases cs with
  | nil =>
    rw [List.nil_append, List.head?_nil]
    refine ⟨fun hhead => absurd (htail c hhead) hc, fun hhead => by cases hhead⟩
  | cons first rest => exact Iff.rfl

theorem head?_any_append
    {p : Char → Bool} (hp : starts.any p = false) (cs : List Char) :
    (cs ++ tail).head?.any p = cs.head?.any p := by
  cases cs with
  | nil =>
    cases tail with
    | nil => rfl
    | cons c more => simpa using eq_false_of_head? htail hp c rfl
  | cons first rest => rfl

end StartsWithin

/-- Nothing, or a line break and what follows it. -/
def Breaks (tail : List Char) : Prop :=
  ∀ c ∈ tail.head?, c = '\n'

/-- Nothing, or a line break or a slash and what follows it. No lexeme goes on with either. -/
def StopsLexemes (tail : List Char) : Prop :=
  StartsWithin ['\n', '/'] tail

theorem Breaks.startsWithin
    {tail : List Char} (h : Breaks tail) :
    StartsWithin ['\n'] tail :=
  fun c hc => List.mem_singleton.mpr (h c hc)

theorem Breaks.stopsLexemes
    {tail : List Char} (h : Breaks tail) :
    StopsLexemes tail := by
  intro c hc
  rw [h c hc]
  decide

theorem StopsLexemes.eq
    {tail : List Char} (h : StopsLexemes tail) :
    tail = [] ∨ (∃ more, tail = '\n' :: more) ∨ ∃ more, tail = '/' :: more := by
  cases tail with
  | nil => exact .inl rfl
  | cons c more =>
    have hc : c ∈ ['\n', '/'] := h c rfl
    obtain rfl | rfl : c = '\n' ∨ c = '/' := by simpa using hc
    · exact .inr (.inl ⟨more, rfl⟩)
    · exact .inr (.inr ⟨more, rfl⟩)

/-! ## Gaps -/

theorem readGap_newline
    (lead : Lead) (rest : List Char) :
    readGap lead ('\n' :: rest) =
      readGap { lead with position := lead.position.nextLine, newline := true } rest := by
  rw [readGap, if_pos rfl]

theorem readGap_block
    {rest body behind : List Char} (h : commentBody rest = some (body, behind)) (lead : Lead) :
    readGap lead ('/' :: '*' :: rest) = readGap (lead.afterComment body) behind := by
  rw [readGap, if_neg (by decide), if_neg (by decide), if_neg (by simp), if_pos (by simp)]
  split
  · rename_i hnone
    cases hnone.symm.trans h
  · rename_i hsome
    obtain ⟨rfl, rfl⟩ := Prod.mk.inj (Option.some.inj (hsome.symm.trans h))
    rfl

theorem commentBody_append
    {cs body behind : List Char} (h : commentBody cs = some (body, behind)) (tail : List Char) :
    commentBody (cs ++ tail) = some (body, behind ++ tail) := by
  induction cs generalizing body with
  | nil => cases h
  | cons c rest ih =>
    unfold commentBody at h
    split at h
    · obtain ⟨rfl, rfl⟩ := Prod.mk.inj (Option.some.inj h)
      rfl
    · rename_i hopen
      obtain ⟨⟨more, left⟩, hmore, heq⟩ := Option.map_eq_some_iff.mp h
      obtain ⟨rfl, rfl⟩ := Prod.mk.inj heq
      have hread := ih hmore
      rw [List.cons_append, commentBody]
      · rw [hread]
        rfl
      · intro behind hstar hslash
        cases rest with
        | nil => cases hmore
        | cons slash rest =>
          obtain ⟨rfl, -⟩ := List.cons.inj hslash
          exact hopen rest hstar rfl

/-- A gap is left where a lexeme starts, whatever follows in the text. -/
theorem readGap_stop
    {tail : List Char} (htail : Breaks tail) {lead lead' : Lead} {c : Char} {cs rest : List Char}
    (h : readGap lead cs = .ok (lead', c :: rest)) (other : Lead) :
    readGap other (c :: (rest ++ tail)) = .ok (other, c :: (rest ++ tail)) := by
  fun_induction readGap lead cs with
  | case1 => cases h
  | case2 _ _ ih => exact ih h
  | case3 _ _ _ _ _ ih => exact ih h
  | case4 _ _ _ _ _ _ _ ih => exact ih h
  | case5 => cases h
  | case6 _ _ _ _ _ _ _ _ _ _ ih => exact ih h
  | case7 lead c rest hline hblank hslash hstar =>
    obtain ⟨rfl, heq⟩ := Prod.mk.inj (Except.ok.inj h)
    obtain ⟨rfl, rfl⟩ := List.cons.inj heq
    rw [readGap, if_neg hline, if_neg hblank,
      if_neg (by rwa [head?_append_eq_some_iff htail.startsWithin (by decide)]),
      if_neg (by rwa [head?_append_eq_some_iff htail.startsWithin (by decide)])]

/-- What a gap adds to its lead does not depend on where the gap stands. -/
theorem readGap_append
    {tail : List Char} (htail : Breaks tail) {lead lead' other : Lead} {cs rest : List Char}
    (h : readGap lead cs = .ok (lead', rest)) (hdocs : other.docs = lead.docs) :
    ∃ other', readGap other (cs ++ tail) = readGap other' (rest ++ tail) ∧
      other'.docs = lead'.docs ∧
      (other.newline = lead.newline → other'.newline = lead'.newline) := by
  fun_induction readGap lead cs generalizing other with
  | case1 lead =>
    obtain ⟨rfl, rfl⟩ := Prod.mk.inj (Except.ok.inj h)
    exact ⟨other, rfl, hdocs, id⟩
  | case2 lead rest ih =>
    let next : Lead := { other with position := other.position.nextLine, newline := true }
    have hdocs' : next.docs = lead.docs := hdocs
    obtain ⟨other', hread, hfound, hnewline⟩ := ih h hdocs'
    rw [List.cons_append, readGap_newline]
    exact ⟨other', hread, hfound, fun _ => hnewline rfl⟩
  | case3 lead c rest hline hblank ih =>
    rw [List.cons_append, readGap, if_neg hline, if_pos hblank]
    exact ih h hdocs
  | case4 lead c rest hline hblank hslash =>
    rename_i ih
    rw [List.cons_append, readGap, if_neg hline, if_neg hblank,
      if_pos (by rwa [head?_append_eq_some_iff htail.startsWithin (by decide)]),
      dropWhile_append htail.startsWithin (by decide)]
    exact ih h hdocs
  | case5 => cases h
  | case6 lead c rest hline hblank hslash hstar body behind hbody ih =>
    obtain ⟨rfl, hhead⟩ := hstar
    obtain ⟨rest, rfl⟩ := List.head?_eq_some_iff.mp hhead
    have hdocs' : (other.afterComment body).docs = (lead.afterComment body).docs := by
      simp only [Lead.afterComment, hdocs]
    obtain ⟨other', hread, hfound, hnewline⟩ := ih h hdocs'
    have hbody' : commentBody rest = some (body, behind) := hbody
    rw [List.cons_append, List.cons_append, readGap_block (commentBody_append hbody' tail)]
    refine ⟨other', hread, hfound, fun heq => hnewline ?_⟩
    simp only [Lead.afterComment, heq]
  | case7 lead c rest =>
    obtain ⟨rfl, rfl⟩ := Prod.mk.inj (Except.ok.inj h)
    exact ⟨other, rfl, hdocs, id⟩

/-! ## Strings, templates and regular expressions -/

theorem take_drop_append
    {width : Nat} {cs : List Char} (h : (cs.take width).length = width) (tail : List Char) :
    (cs ++ tail).take width = cs.take width ∧ (cs ++ tail).drop width = cs.drop width ++ tail := by
  have hwidth : width ≤ cs.length := by
    rw [List.length_take] at h
    omega
  exact ⟨List.take_append_of_le_length hwidth, List.drop_append_of_le_length hwidth⟩

theorem map_hexNumber?_append
    {width : Nat} {cs behind : List Char} {c : Character}
    (h : ((hexNumber? width (cs.take width)).bind Character.ofCode?).map
          (fun c => (c, cs.drop width)) =
      some (c, behind)) (tail : List Char) :
    ((hexNumber? width ((cs ++ tail).take width)).bind Character.ofCode?).map
      (fun c => (c, (cs ++ tail).drop width)) = some (c, behind ++ tail) := by
  obtain ⟨found, hfound, heq⟩ := Option.map_eq_some_iff.mp h
  obtain ⟨rfl, rfl⟩ := Prod.mk.inj heq
  obtain ⟨hlength, -, -⟩ := hexNumber?_bind_ofCode? hfound
  obtain ⟨htake, hdrop⟩ := take_drop_append hlength tail
  rw [htake, hdrop, hfound, Option.map_some]

theorem codePointEscape?_append
    {tail : List Char} (htail : StopsLexemes tail) {letter : Char} {c : Character}
    {cs behind : List Char} (h : codePointEscape? letter cs = some (c, behind)) :
    codePointEscape? letter (cs ++ tail) = some (c, behind ++ tail) := by
  unfold codePointEscape? at h ⊢
  split at h
  · rw [if_pos ‹_›]
    exact map_hexNumber?_append h tail
  · rw [if_neg ‹_›]
    cases cs with
    | nil => simp [hexNumber?] at h
    | cons first rest =>
      split at h
      · rename_i body heq
        obtain ⟨rfl, rfl⟩ := List.cons.inj heq
        have htake := takeWhile_append htail (p := Text.isHex) (by decide) rest
        have hdrop : (rest ++ tail).drop (rest.takeWhile Text.isHex).length =
            rest.drop (rest.takeWhile Text.isHex).length ++ tail :=
          List.drop_append_of_le_length (List.takeWhile_prefix _).length_le
        simp only [List.cons_append, htake, hdrop] at h ⊢
        split at h
        · rename_i hclosed
          rw [if_pos ⟨hclosed.1, (head?_append_eq_some_iff htail (by decide) _).mpr hclosed.2⟩]
          obtain ⟨behind', hbehind⟩ := List.head?_eq_some_iff.mp hclosed.2
          obtain ⟨found, hfound, heq⟩ := Option.map_eq_some_iff.mp h
          obtain ⟨rfl, rfl⟩ := Prod.mk.inj heq
          rw [hfound, hbehind]
          rfl
        · cases h
      · rename_i hbrace
        split
        · rename_i body heq
          obtain ⟨rfl, -⟩ := List.cons.inj heq
          exact absurd rfl (hbrace rest)
        · exact map_hexNumber?_append h tail

theorem readString_append
    {tail : List Char} (htail : StopsLexemes tail) {quote : Char} {cs behind : List Char}
    {text : List Character} (h : readString quote cs = .ok (text, behind)) :
    readString quote (cs ++ tail) = .ok (text, behind ++ tail) := by
  fun_induction readString quote cs generalizing text with
  | case1 | case2 | case4 | case5 => cases h
  | case3 rest hline =>
    obtain ⟨rfl, rfl⟩ := Prod.mk.inj (Except.ok.inj h)
    rw [List.cons_append, readString.eq_def]
    simp only [if_neg hline, if_true]
  | case6 letter rest hletter decoded more hescape hline hquote ih =>
    obtain ⟨text, hread, rfl⟩ := map_prepend_eq_ok h
    rw [List.cons_append, List.cons_append, readString.eq_def]
    simp only [if_neg hline, if_neg hquote, if_true, if_pos hletter]
    split
    · rename_i hnone
      cases hnone.symm.trans (codePointEscape?_append htail hescape)
    · rename_i hsome
      obtain ⟨rfl, rfl⟩ :=
        Prod.mk.inj (Option.some.inj (hsome.symm.trans (codePointEscape?_append htail hescape)))
      rw [ih hread]
      rfl
  | case7 rest hletter hline hquote ih =>
    rw [List.cons_append, List.cons_append, readString.eq_def]
    simp only [if_neg hline, if_neg hquote, if_true, if_neg hletter]
    exact ih h
  | case8 letter rest hletter hletter' hline hquote ih =>
    obtain ⟨text, hread, rfl⟩ := map_prepend_eq_ok h
    rw [List.cons_append, List.cons_append, readString.eq_def]
    simp only [if_neg hline, if_neg hquote, if_true, if_neg hletter, if_neg hletter']
    rw [ih hread]
    rfl
  | case9 c rest hline hquote hbackslash ih =>
    obtain ⟨text, hread, rfl⟩ := map_prepend_eq_ok h
    rw [List.cons_append, readString.eq_def]
    simp only [if_neg hline, if_neg hquote, if_neg hbackslash]
    rw [ih hread]
    rfl

theorem readRegexBody_append
    {tail : List Char} {inClass : Bool} {cs body behind : List Char}
    (h : readRegexBody inClass cs = some (body, behind)) :
    readRegexBody inClass (cs ++ tail) = some (body, behind ++ tail) := by
  fun_induction readRegexBody inClass cs generalizing body with
  | case1 | case2 | case3 | case4 => cases h
  | case5 inClass escaped rest hline hescaped ih =>
    obtain ⟨⟨more, left⟩, hread, heq⟩ := Option.map_eq_some_iff.mp h
    obtain ⟨rfl, rfl⟩ := Prod.mk.inj heq
    rw [List.cons_append, List.cons_append, readRegexBody.eq_def]
    simp only [if_neg hline, if_true, if_neg hescaped]
    rw [ih hread]
    rfl
  | case6 inClass c rest hline hbackslash hslash =>
    obtain ⟨rfl, rfl⟩ := Prod.mk.inj (Option.some.inj h)
    rw [List.cons_append, readRegexBody.eq_def]
    simp only [if_neg hline, if_neg hbackslash, if_pos hslash]
  | case7 inClass c rest hline hbackslash hslash ih =>
    obtain ⟨⟨more, left⟩, hread, heq⟩ := Option.map_eq_some_iff.mp h
    obtain ⟨rfl, rfl⟩ := Prod.mk.inj heq
    rw [List.cons_append, readRegexBody.eq_def]
    simp only [if_neg hline, if_neg hbackslash, if_neg hslash]
    rw [ih hread]
    rfl

/-- A template has the same text wherever it stands. -/
theorem readTemplate_append
    {tail : List Char} (htail : StopsLexemes tail) {depth : Nat} {position : Position} {cs : List Char}
    {span : TemplateSpan} (h : readTemplate depth position cs = .ok span) (other : Position) :
    ∃ behind, readTemplate depth other (cs ++ tail) =
      .ok ⟨span.text, behind, span.rest ++ tail⟩ := by
  fun_induction readTemplate depth position cs generalizing span other with
  | case1 | case2 | case5 => cases h
  | case3 depth position escaped rest ih =>
    obtain ⟨more, hread, rfl⟩ := map_templatePrepend_eq_ok h
    obtain ⟨behind, hmore⟩ := ih hread (other.right 2)
    refine ⟨behind, ?_⟩
    rw [List.cons_append, List.cons_append, readTemplate_escaped, hmore]
    rfl
  | case4 depth position c rest hbackslash hclose =>
    obtain rfl := Except.ok.inj h
    obtain ⟨rfl, rfl⟩ := hclose
    exact ⟨other.right 1, readTemplate_quote other _⟩
  | case6 depth position c hbackslash hclose brace rest hopen ih =>
    obtain ⟨more, hread, rfl⟩ := map_templatePrepend_eq_ok h
    obtain ⟨behind, hmore⟩ := ih hread (other.right 2)
    obtain ⟨rfl, hbrace⟩ := hopen
    obtain rfl := Option.some.inj hbrace
    refine ⟨behind, ?_⟩
    rw [List.cons_append, List.cons_append, readTemplate_substitution, hmore]
    rfl
  | case7 depth position c rest hbackslash hclose hopen =>
    rename_i ih
    obtain ⟨more, hread, rfl⟩ := map_templatePrepend_eq_ok h
    obtain ⟨behind, hmore⟩ := ih hread (other.advance c)
    have hopen' : ¬(c = '$' ∧ (rest ++ tail).head? = some '\x7b') := by
      rwa [head?_append_eq_some_iff htail (by decide)]
    refine ⟨behind, ?_⟩
    rw [List.cons_append, readTemplate_plain hbackslash hclose hopen', hmore]
    rfl

/-! ## Numerals -/

namespace Numeral

theorem isBasedPart_stop
    (marker : Char) :
    ['\n', '/'].any (isBasedPart marker) = false := by
  unfold isBasedPart
  split_ifs <;> decide

/-- A zero is no numeral of another base without a marker behind it. -/
theorem basedSpelling?_stop
    {stop : Char} (hstop : ∀ digit, isBasedPart stop digit = false) (c : Char) (more : List Char) :
    basedSpelling? (c :: stop :: more) = none := by
  by_cases hzero : c = '0'
  · have hnone : more.takeWhile (isBasedPart stop) = [] := by
      cases more <;> simp [hstop]
    simp [basedSpelling?, hzero, hnone]
  · simp [basedSpelling?, hzero]

variable {tail : List Char} (htail : StopsLexemes tail)

include htail

theorem suffixPart_append
    (cs : List Char) :
    suffixPart (cs ++ tail) = suffixPart cs := by
  cases cs with
  | nil =>
    obtain rfl | ⟨more, rfl⟩ | ⟨more, rfl⟩ := htail.eq
    · rfl
    · rfl
    · rfl
  | cons c rest =>
    unfold suffixPart
    split <;> simp_all

theorem signPart_append
    (cs : List Char) :
    signPart (cs ++ tail) = signPart cs := by
  cases cs with
  | nil =>
    obtain rfl | ⟨more, rfl⟩ | ⟨more, rfl⟩ := htail.eq
    · rfl
    · rfl
    · rfl
  | cons c rest => rfl

theorem exponentPart_append
    (cs : List Char) :
    exponentPart (cs ++ tail) = exponentPart cs := by
  cases cs with
  | nil =>
    obtain rfl | ⟨more, rfl⟩ | ⟨more, rfl⟩ := htail.eq
    · rfl
    · simp [exponentPart]
    · simp [exponentPart]
  | cons letter rest =>
    have hdrop : (rest ++ tail).drop (signPart rest).length =
        rest.drop (signPart rest).length ++ tail :=
      List.drop_append_of_le_length (signPart_isPrefix rest).length_le
    simp only [List.cons_append, exponentPart, signPart_append htail, hdrop,
      takeWhile_append htail (p := Text.isDecimal) (by decide)]

theorem fractionPart_append
    (cs : List Char) :
    fractionPart (cs ++ tail) = fractionPart cs := by
  cases cs with
  | nil =>
    obtain rfl | ⟨more, rfl⟩ | ⟨more, rfl⟩ := htail.eq
    · rfl
    · rfl
    · rfl
  | cons c rest =>
    by_cases hpoint : c = '.'
    · subst hpoint
      exact congrArg ('.' :: ·) (takeWhile_append htail (by decide) rest)
    · simp [fractionPart, hpoint]

theorem withSuffix_append
    {cs digits : List Char} (hdigits : digits <+: cs) :
    withSuffix (cs ++ tail) digits = withSuffix cs digits := by
  rw [withSuffix, List.drop_append_of_le_length hdigits.length_le, suffixPart_append htail,
    withSuffix]

theorem basedSpelling?_append
    (cs : List Char) :
    basedSpelling? (cs ++ tail) = basedSpelling? cs := by
  have hdigits : ∀ marker rest, (rest ++ tail).takeWhile (isBasedPart marker) =
      rest.takeWhile (isBasedPart marker) := fun marker =>
    takeWhile_append htail (isBasedPart_stop marker)
  match cs with
  | [] =>
    obtain rfl | ⟨more, rfl⟩ | ⟨more, rfl⟩ := htail.eq
    · rfl
    · rfl
    · rfl
  | [c] =>
    obtain rfl | ⟨more, rfl⟩ | ⟨more, rfl⟩ := htail.eq
    · rfl
    · exact (basedSpelling?_stop (by simp [isBasedPart]) c more).trans (by simp [basedSpelling?])
    · exact (basedSpelling?_stop (by simp [isBasedPart]) c more).trans (by simp [basedSpelling?])
  | c :: marker :: rest =>
    by_cases hzero : c = '0'
    · subst hzero
      have hprefix : '0' :: marker :: rest.takeWhile (isBasedPart marker) <+:
          '0' :: marker :: rest :=
        List.cons_prefix_cons.mpr ⟨rfl, List.cons_prefix_cons.mpr ⟨rfl, List.takeWhile_prefix _⟩⟩
      have hsuffix := withSuffix_append htail hprefix
      rw [List.cons_append, List.cons_append] at hsuffix
      simp only [List.cons_append, basedSpelling?, hdigits, hsuffix]
    · simp [basedSpelling?, hzero]

theorem decimalSpelling?_append
    (cs : List Char) :
    decimalSpelling? (cs ++ tail) = decimalSpelling? cs := by
  cases cs with
  | nil =>
    have hdecimal : Text.isDecimal '\n' = false ∧ Text.isDecimal '/' = false := by decide
    obtain rfl | ⟨more, rfl⟩ | ⟨more, rfl⟩ := htail.eq
    · rfl
    · simp [decimalSpelling?, hdecimal]
    · simp [decimalSpelling?, hdecimal]
  | cons c rest =>
    have hpart : ['\n', '/'].any isDecimalPart = false := by decide
    have hwhole : c :: rest.takeWhile isDecimalPart <+: c :: rest :=
      List.cons_prefix_cons.mpr ⟨rfl, List.takeWhile_prefix _⟩
    have hspelled : ∀ {mantissa}, mantissa <+: c :: rest →
        withSuffix (c :: rest ++ tail)
          (mantissa ++ exponentPart ((c :: rest ++ tail).drop mantissa.length)) =
        withSuffix (c :: rest) (mantissa ++ exponentPart ((c :: rest).drop mantissa.length)) := by
      intro mantissa hmantissa
      rw [List.drop_append_of_le_length hmantissa.length_le, exponentPart_append htail]
      exact withSuffix_append htail (append_isPrefix hmantissa (exponentPart_isPrefix _))
    have hmantissa := append_isPrefix hwhole (fractionPart_isPrefix _)
    have hfraction : ∀ {whole}, whole <+: c :: rest →
        fractionPart ((c :: rest ++ tail).drop whole.length) =
          fractionPart ((c :: rest).drop whole.length) := by
      intro whole hwhole
      rw [List.drop_append_of_le_length hwhole.length_le, fractionPart_append htail]
    have hpoint := hspelled hwhole
    have hreal := hspelled hmantissa
    have hdecimals := hfraction hwhole
    have hhead := head?_any_append htail (p := Text.isDecimal) (by decide) rest
    unfold decimalSpelling?
    simp only [List.cons_append] at hpoint hreal hdecimals ⊢
    simp only [takeWhile_append htail hpart, hhead, hdecimals, hpoint, hreal]

/-- No numeral goes beyond its line, nor beyond a slash. -/
theorem spelling?_append
    (cs : List Char) :
    spelling? (cs ++ tail) = spelling? cs := by
  rw [spelling?, basedSpelling?_append htail, decimalSpelling?_append htail, spelling?]

end Numeral

/-! ## Lexemes -/

theorem isNamePart_stop :
    ['\n', '/'].any isNamePart = false := by
  decide

theorem markAt_append
    {tail : List Char} (htail : StopsLexemes tail) (c : Char) (rest : List Char) :
    markAt c (rest ++ tail) = markAt c rest := by
  have hdots : (rest ++ tail).take 2 = ['.', '.'] ↔ rest.take 2 = ['.', '.'] := by
    match rest with
    | [] =>
      obtain rfl | ⟨more, rfl⟩ | ⟨more, rfl⟩ := htail.eq
      · rfl
      · simp
      · simp
    | [first] =>
      obtain rfl | ⟨more, rfl⟩ | ⟨more, rfl⟩ := htail.eq
      · rfl
      · simp
      · simp
    | first :: second :: rest => rfl
  simp only [markAt, head?_append_eq_some_iff htail (show '>' ∉ ['\n', '/'] by decide), hdots]

theorem startsNumeral_append
    {tail : List Char} (htail : StopsLexemes tail) (c : Char) (rest : List Char) :
    startsNumeral c (rest ++ tail) = startsNumeral c rest := by
  rw [startsNumeral, head?_any_append htail (by decide), startsNumeral]

/-- The lexeme at the front of a text is the same in another place and in front of a line break or a
slash. -/
theorem readLexeme_append
    {tail : List Char} (htail : StopsLexemes tail) {previous previous' : Option Lexeme} {start : Position}
    {c : Char} {rest : List Char} {span : LexemeSpan}
    (h : readLexeme previous start c rest = .ok span)
    (hregex : regexAllowedAfter previous' = regexAllowedAfter previous) (other : Position) :
    ∃ place behind, readLexeme previous' other c (rest ++ tail) =
      .ok ⟨span.lexeme, place, behind, span.rest ++ tail⟩ := by
  have hdrop : ∀ {front}, front <+: c :: rest →
      (c :: (rest ++ tail)).drop front.length = (c :: rest).drop front.length ++ tail :=
    fun hfront => List.drop_append_of_le_length hfront.length_le
  unfold readLexeme at h ⊢
  rw [startsNumeral_append htail, hregex]
  split at h
  · obtain rfl := Except.ok.inj h
    have hname : c :: rest.takeWhile isNamePart <+: c :: rest :=
      List.cons_prefix_cons.mpr ⟨rfl, List.takeWhile_prefix _⟩
    rw [if_pos ‹_›]
    simp only [takeWhile_append htail isNamePart_stop, hdrop hname]
    exact ⟨_, _, rfl⟩
  · rw [if_neg ‹_›]
    split at h
    · rw [if_pos ‹_›]
      have hspelling := Numeral.spelling?_append htail (c :: rest)
      rw [List.cons_append] at hspelling
      rw [hspelling]
      split at h
      · cases h
      · rename_i spelling hfound
        obtain rfl := Except.ok.inj h
        simp only [hdrop (Numeral.spelling?_isPrefix hfound)]
        exact ⟨_, _, rfl⟩
    · rw [if_neg ‹_›]
      split at h
      · rw [if_pos ‹_›]
        split at h
        · cases h
        · rename_i text behind hread
          obtain rfl := Except.ok.inj h
          rw [readString_append htail hread]
          exact ⟨_, _, rfl⟩
      · rw [if_neg ‹_›]
        split at h
        · rw [if_pos ‹_›]
          split at h
          · cases h
          · rename_i found hread
            obtain rfl := Except.ok.inj h
            obtain ⟨behind, hmore⟩ := readTemplate_append htail hread (other.right 1)
            rw [hmore]
            exact ⟨_, _, rfl⟩
        · rw [if_neg ‹_›]
          split at h
          · rw [if_pos ‹_›]
            split at h
            · cases h
            · rename_i body behind hread
              obtain rfl := Except.ok.inj h
              rw [readRegexBody_append hread]
              simp only [takeWhile_append htail isNamePart_stop,
                dropWhile_append htail isNamePart_stop]
              exact ⟨_, _, rfl⟩
          · rw [if_neg ‹_›]
            obtain rfl := Except.ok.inj h
            rw [markAt_append htail]
            simp only [hdrop (markAt_isPrefix c rest)]
            exact ⟨_, _, rfl⟩

/-! ## Tokens -/

/-- The token in another place. -/
structure SameToken (token token' : Token) : Prop where
  lexeme : token'.lexeme = token.lexeme
  newline : token'.lead.newline = token.lead.newline
  docs : token'.lead.docs = token.lead.docs

/-- The tokens in another place, where the first one may stand on a new line or not. -/
inductive Moved : List Token → List Token → Prop
  | nil : Moved [] []
  | cons {token token' : Token} {rest rest' : List Token}
      (hlexeme : token'.lexeme = token.lexeme) (hdocs : token'.lead.docs = token.lead.docs)
      (hrest : List.Forall₂ SameToken rest rest') :
    Moved (token :: rest) (token' :: rest')

/-- The tokens of the text behind the given lexeme, from the middle of a gap. -/
def readFrom (previous : Option Lexeme) (lead : Lead) (cs : List Char) :
    Except SourceError TokenStream :=
  match readGap lead cs with
  | .error e => .error e
  | .ok (lead, []) => .ok ⟨[], lead⟩
  | .ok (lead, c :: rest) =>
    match readLexeme previous lead.position c rest with
    | .error e => .error e
    | .ok span =>
      match readTokens (some span.lexeme) span.behind span.rest with
      | .error e => .error e
      | .ok stream =>
        let token := ⟨span.lexeme, { lead with position := span.place }⟩
        .ok { stream with tokens := token :: stream.tokens }

theorem readTokens_eq_readFrom
    (previous : Option Lexeme) (position : Position) (cs : List Char) :
    readTokens previous position cs = readFrom previous ⟨position, false, []⟩ cs :=
  readTokens_eq previous position cs

/-- The lexeme that was read last. -/
def lastLexeme (previous : Option Lexeme) (tokens : List Token) : Option Lexeme :=
  (tokens.getLast?.map Token.lexeme).or previous

/-- The tokens, and behind them those of another stream, which ends as that one does. -/
def TokenStream.behind (tokens : List Token) (stream : TokenStream) : TokenStream :=
  { stream with tokens := tokens ++ stream.tokens }

theorem lastLexeme_cons
    (previous : Option Lexeme) (token : Token) (tokens : List Token) :
    lastLexeme previous (token :: tokens) = lastLexeme (some token.lexeme) tokens := by
  cases tokens with
  | nil => rfl
  | cons next rest => simp [lastLexeme, List.getLast?_cons]

/-- A text in front of a line break, in another place, has the same tokens, and then reading goes on
in the middle of the gap at its end. -/
theorem readFrom_append
    {tail : List Char} (htail : Breaks tail) {previous previous' : Option Lexeme}
    {lead lead' : Lead} {cs : List Char} {stream : TokenStream}
    (h : readFrom previous lead cs = .ok stream)
    (hregex : regexAllowedAfter previous' = regexAllowedAfter previous)
    (hdocs : lead'.docs = lead.docs) :
    ∃ tokens ending, Moved stream.tokens tokens ∧
      (lead'.newline = lead.newline → List.Forall₂ SameToken stream.tokens tokens) ∧
      ending.docs = stream.ending.docs ∧
      readFrom previous' lead' (cs ++ tail) =
        (readFrom (lastLexeme previous' tokens) ending tail).map (TokenStream.behind tokens) := by
  -- A gap and a lexeme are taken at a time, so the induction is on the length of the text.
  induction hlength : cs.length using Nat.strongRecOn
    generalizing cs previous previous' lead lead' stream with
  | ind length ih =>
    rw [readFrom] at h
    cases hgap : readGap lead cs with
    | error e =>
      rw [hgap] at h
      cases h
    | ok found =>
      obtain ⟨found, rest⟩ := found
      obtain ⟨other, hread, hfound, hnewline⟩ := readGap_append htail hgap hdocs
      have hstep : readFrom previous' lead' (cs ++ tail) =
          readFrom previous' other (rest ++ tail) := by
        rw [readFrom, hread, readFrom]
      rw [hgap] at h
      rw [hstep]
      cases rest with
      | nil =>
        obtain rfl := Except.ok.inj h
        refine ⟨[], other, .nil, fun _ => .nil, hfound, ?_⟩
        rw [List.nil_append, lastLexeme, List.getLast?_nil, Option.map_none, Option.none_or]
        cases readFrom previous' other tail <;> rfl
      | cons c rest =>
        cases hlexeme : readLexeme previous found.position c rest with
        | error e =>
          simp only [hlexeme] at h
          cases h
        | ok span =>
          cases hmore : readTokens (some span.lexeme) span.behind span.rest with
          | error e =>
            simp only [hlexeme, hmore] at h
            cases h
          | ok more =>
            simp only [hlexeme, hmore] at h
            obtain rfl := Except.ok.inj h
            obtain ⟨place, behind, hlexeme'⟩ :=
              readLexeme_append htail.stopsLexemes hlexeme hregex other.position
            have hstop := readGap_stop htail hgap other
            have hlt : span.rest.length < length := by
              have := readLexeme_length hlexeme
              have := readGap_length hgap
              omega
            rw [readTokens_eq_readFrom] at hmore
            have hnext : (⟨behind, false, []⟩ : Lead).docs = [] := rfl
            obtain ⟨tokens, ending, -, hsame, hending, hrest⟩ := ih _ hlt hmore rfl hnext rfl
            refine ⟨⟨span.lexeme, { other with position := place }⟩ :: tokens, ending,
              .cons rfl hfound (hsame rfl),
              fun heq => .cons ⟨rfl, hnewline heq, hfound⟩ (hsame rfl), hending, ?_⟩
            rw [List.cons_append, readFrom, hstop]
            simp only [hlexeme', readTokens_eq_readFrom, hrest, lastLexeme_cons]
            cases readFrom (lastLexeme (some span.lexeme) tokens) ending tail <;> rfl

theorem lastLexeme_eq
    {tokens tokens' : List Token} (h : List.Forall₂ SameToken tokens tokens')
    (previous : Option Lexeme) :
    lastLexeme previous tokens' = lastLexeme previous tokens := by
  induction h generalizing previous with
  | nil => rfl
  | cons hsame _ ih => rw [lastLexeme_cons, lastLexeme_cons, hsame.lexeme, ih]

/-- The tokens of two texts with a line break between them, where no documentation stands at the end
of the first one: those of the first text, and behind them those of the second. -/
theorem TokenStream.ofText_append
    {text text' : String} {stream stream' : TokenStream} (h : TokenStream.ofText text = .ok stream)
    (h' : TokenStream.ofText text' = .ok stream') (hdocs : stream.ending.docs = [])
    (hregex : regexAllowedAfter (lastLexeme none stream.tokens) = true) :
    ∃ tokens tokens' ending, TokenStream.ofText (text ++ "\n" ++ text') =
        .ok ⟨tokens ++ tokens', ending⟩ ∧
      List.Forall₂ SameToken stream.tokens tokens ∧ Moved stream'.tokens tokens' := by
  rw [TokenStream.ofText, readTokens_eq_readFrom] at h h'
  have hbreaks : Breaks ('\n' :: text'.toList) := by
    intro c hc
    exact (Option.some.inj hc).symm
  have hnil : Breaks [] := by
    intro c hc
    cases hc
  obtain ⟨tokens, ending, -, hsame, hending, hread⟩ := readFrom_append hbreaks h rfl rfl
  have hlast := lastLexeme_eq (hsame rfl) none
  let next : Lead := { ending with position := ending.position.nextLine, newline := true }
  have hnext : next.docs = [] := hending.trans hdocs
  have hline : ∀ previous, readFrom previous ending ('\n' :: text'.toList) =
      readFrom previous next text'.toList := by
    intro previous
    rw [readFrom, readGap_newline, readFrom]
  obtain ⟨tokens', ending', hmoved, -, -, hread'⟩ :=
    readFrom_append hnil h' hregex hnext
  refine ⟨tokens, tokens', ending', ?_, hsame rfl, hmoved⟩
  have htext : (text ++ "\n" ++ text').toList = text.toList ++ '\n' :: text'.toList := by
    simp
  rw [List.append_nil] at hread'
  rw [TokenStream.ofText, readTokens_eq_readFrom, htext, hread, hlast, hline, hread']
  simp [readFrom, readGap, Except.map, TokenStream.behind]

end EntityDiagram.Source
