import EntityDiagram.Proofs.Source.TemplateMarks

/-!
# Templates inside templates

A template may hold substitutions, and the code of a substitution may hold braces of its own and further
templates. Every closing brace counts in the search for the end, whatever it closes, but no opening brace
other than that of a substitution. So a template with code in it is read as one token always if the code
holds no templates, and always if all braces are those of substitutions; in between it depends on where
the back quotes stand.
-/

namespace EntityDiagram.Source

/-! ## The grammar of templates -/

mutual

/-- What stands between the back quotes of a template. -/
inductive TemplateBody where
  | done
  | char (c : Char) (rest : TemplateBody)
  /-- A backslash and the character that it protects. -/
  | escape (c : Char) (rest : TemplateBody)
  | substitution (code : TemplateCode) (rest : TemplateBody)

/-- What stands inside the braces of a substitution. -/
inductive TemplateCode where
  | done
  | char (c : Char) (rest : TemplateCode)
  /-- Braces around code. -/
  | group (inner : TemplateCode) (rest : TemplateCode)
  | template (inner : TemplateBody) (rest : TemplateCode)

end

mutual

def TemplateBody.chars : TemplateBody → List Char
  | .done => []
  | .char c rest => c :: rest.chars
  | .escape c rest => '\\' :: c :: rest.chars
  | .substitution code rest => '$' :: '\x7b' :: (code.chars ++ '\x7d' :: rest.chars)

def TemplateCode.chars : TemplateCode → List Char
  | .done => []
  | .char c rest => c :: rest.chars
  | .group inner rest => '\x7b' :: (inner.chars ++ '\x7d' :: rest.chars)
  | .template inner rest => '\x60' :: (inner.chars ++ '\x60' :: rest.chars)

end

mutual

/-- No character of the text starts anything else: it is no back quote and no backslash, and if it is a
dollar sign no opening brace follows. -/
def TemplateBody.isWellFormed : TemplateBody → Bool
  | .done => true
  | .char c rest =>
    c != '\x60' && c != '\\' && !(c == '$' && rest.chars.head? == some '\x7b') && rest.isWellFormed
  | .escape _ rest => rest.isWellFormed
  | .substitution code rest => code.isWellFormed && rest.isWellFormed

/-- No character of the code is a quote of any kind, a brace, a backslash or a slash. -/
def TemplateCode.isWellFormed : TemplateCode → Bool
  | .done => true
  | .char c rest =>
    !List.contains ['\'', '"', '\x60', '\x7b', '\x7d', '\\', '/'] c && rest.isWellFormed
  | .group inner rest => inner.isWellFormed && rest.isWellFormed
  | .template inner rest => inner.isWellFormed && rest.isWellFormed

end

mutual

/-- There is a template in some code of the template. -/
def TemplateBody.holdsTemplate : TemplateBody → Bool
  | .done => false
  | .char _ rest => rest.holdsTemplate
  | .escape _ rest => rest.holdsTemplate
  | .substitution code rest => code.holdsTemplate || rest.holdsTemplate

/-- There is a template in the code. -/
def TemplateCode.holdsTemplate : TemplateCode → Bool
  | .done => false
  | .char _ rest => rest.holdsTemplate
  | .group inner rest => inner.holdsTemplate || rest.holdsTemplate
  | .template _ _ => true

end

mutual

/-- There is a closing brace that is not the end of a substitution. -/
def TemplateBody.hasLooseBrace : TemplateBody → Bool
  | .done => false
  | .char c rest => c == '\x7d' || rest.hasLooseBrace
  | .escape _ rest => rest.hasLooseBrace
  | .substitution code rest => code.hasLooseBrace || rest.hasLooseBrace

/-- There is a closing brace that is not the end of a substitution. -/
def TemplateCode.hasLooseBrace : TemplateCode → Bool
  | .done => false
  | .char _ rest => rest.hasLooseBrace
  | .group _ _ => true
  | .template inner rest => inner.hasLooseBrace || rest.hasLooseBrace

end

/-- A character of the text of a template, by itself. -/
structure IsBodyChar (c : Char) (next : Option Char) : Prop where
  quote : c ≠ '\x60'
  backslash : c ≠ '\\'
  opening : ¬(c = '$' ∧ next = some '\x7b')

/-- A character of the code of a template, by itself. -/
structure IsCodeChar (c : Char) : Prop where
  quote : c ≠ '\x60'
  backslash : c ≠ '\\'
  brace : c ≠ '\x7b'
  closing : c ≠ '\x7d'

theorem TemplateBody.isWellFormed_char
    {c : Char} {rest : TemplateBody} (h : (TemplateBody.char c rest).isWellFormed = true) :
    IsBodyChar c rest.chars.head? ∧ rest.isWellFormed = true := by
  simp only [TemplateBody.isWellFormed, Bool.and_eq_true, bne_iff_ne, Bool.not_eq_true',
    Bool.and_eq_false_iff, beq_eq_false_iff_ne] at h
  obtain ⟨⟨⟨hquote, hbackslash⟩, hopening⟩, hrest⟩ := h
  refine ⟨⟨hquote, hbackslash, ?_⟩, hrest⟩
  rintro ⟨hdollar, hbrace⟩
  exact hopening.elim (absurd hdollar) (absurd hbrace)

theorem TemplateCode.isWellFormed_char
    {c : Char} {rest : TemplateCode} (h : (TemplateCode.char c rest).isWellFormed = true) :
    IsCodeChar c ∧ rest.isWellFormed = true := by
  simp only [TemplateCode.isWellFormed, Bool.and_eq_true, Bool.not_eq_true',
    List.contains_eq_mem, decide_eq_false_iff_not, List.mem_cons, List.not_mem_nil, or_false,
    not_or] at h
  obtain ⟨⟨-, -, hquote, hbrace, hclosing, hbackslash, -⟩, hrest⟩ := h
  exact ⟨⟨hquote, hbackslash, hbrace, hclosing⟩, hrest⟩

theorem IsBodyChar.mark
    {c : Char} {next : Option Char} (h : IsBodyChar c next) :
    templateMark? c next = if c = '\x7d' then some .closing else none := by
  rw [templateMark?, if_neg h.quote, if_neg h.opening]

theorem IsCodeChar.mark
    {c : Char} (h : IsCodeChar c) (next : Option Char) :
    templateMark? c next = if c = '$' ∧ next = some '\x7b' then some .opening else none := by
  rw [templateMark?, if_neg h.quote, if_neg h.closing]

theorem endsWhole_enclosed
    {first last : Char} (hfirst : first ≠ '\\') (hlast : last ≠ '\\') {inner : List Char}
    (h : endsWhole inner = true) (rest : List Char) :
    endsWhole (first :: (inner ++ last :: rest)) = endsWhole rest := by
  rw [endsWhole_cons hfirst, endsWhole_append h, endsWhole_cons hlast]

mutual

theorem TemplateBody.endsWhole_chars :
    (body : TemplateBody) → body.isWellFormed = true → endsWhole body.chars = true
  | .done, _ => rfl
  | .char _ rest, h => by
    obtain ⟨hc, hrest⟩ := TemplateBody.isWellFormed_char h
    exact (endsWhole_cons hc.backslash _).trans (rest.endsWhole_chars hrest)
  | .escape _ rest, h => rest.endsWhole_chars h
  | .substitution code rest, h => by
    obtain ⟨hcode, hrest⟩ := Bool.and_eq_true_iff.mp h
    rw [TemplateBody.chars, endsWhole_cons (by decide),
      endsWhole_enclosed (by decide) (by decide) (code.endsWhole_chars hcode)]
    exact rest.endsWhole_chars hrest

theorem TemplateCode.endsWhole_chars :
    (code : TemplateCode) → code.isWellFormed = true → endsWhole code.chars = true
  | .done, _ => rfl
  | .char _ rest, h => by
    obtain ⟨hc, hrest⟩ := TemplateCode.isWellFormed_char h
    exact (endsWhole_cons hc.backslash _).trans (rest.endsWhole_chars hrest)
  | .group inner rest, h => by
    obtain ⟨hinner, hrest⟩ := Bool.and_eq_true_iff.mp h
    exact (endsWhole_enclosed (by decide) (by decide) (inner.endsWhole_chars hinner) _).trans
      (rest.endsWhole_chars hrest)
  | .template inner rest, h => by
    obtain ⟨hinner, hrest⟩ := Bool.and_eq_true_iff.mp h
    exact (endsWhole_enclosed (by decide) (by decide) (inner.endsWhole_chars hinner) _).trans
      (rest.endsWhole_chars hrest)

end

/-! ## Marks of templates -/

theorem templateMarks_opening
    (rest : List Char) :
    templateMarks ('$' :: '\x7b' :: rest) = .opening :: templateMarks rest := by
  rw [templateMarks_cons (by decide), templateMarks_cons (by decide)]
  rfl

/-- A brace that no dollar sign precedes is no mark. -/
theorem templateMarks_brace
    (rest : List Char) :
    templateMarks ('\x7b' :: rest) = templateMarks rest := by
  rw [templateMarks_cons (by decide)]
  rfl

theorem templateMarks_closing
    {inner : List Char} (h : endsWhole inner = true) (rest : List Char) :
    templateMarks (inner ++ '\x7d' :: rest) =
      templateMarks inner ++ .closing :: templateMarks rest := by
  have hhead : ('\x7d' :: rest).head? ≠ some '\x7b' := by simp
  rw [templateMarks_append h hhead, templateMarks_cons (by decide)]
  rfl

theorem templateMarks_quote
    (rest : List Char) :
    templateMarks ('\x60' :: rest) = .quote :: templateMarks rest := by
  rw [templateMarks_cons (by decide)]
  rfl

theorem templateMarks_substitution
    {code : List Char} (h : endsWhole code = true) (rest : List Char) :
    templateMarks ('$' :: '\x7b' :: (code ++ '\x7d' :: rest)) =
      .opening :: (templateMarks code ++ .closing :: templateMarks rest) := by
  rw [templateMarks_opening, templateMarks_closing h]

theorem templateMarks_group
    {inner : List Char} (h : endsWhole inner = true) (rest : List Char) :
    templateMarks ('\x7b' :: (inner ++ '\x7d' :: rest)) =
      templateMarks inner ++ .closing :: templateMarks rest := by
  rw [templateMarks_brace, templateMarks_closing h]

theorem templateMarks_template
    {inner : List Char} (h : endsWhole inner = true) (rest : List Char) :
    templateMarks ('\x60' :: (inner ++ '\x60' :: rest)) =
      .quote :: (templateMarks inner ++ .quote :: templateMarks rest) := by
  have hhead : ('\x60' :: rest).head? ≠ some '\x7b' := by simp
  rw [templateMarks_quote, templateMarks_append h hhead, templateMarks_quote]

/-- Behind the marks no more substitutions are open than in front. -/
def NeverRises (marks : List TemplateMark) : Prop :=
  ∀ depth, depthBehindAll depth marks ≤ depth

theorem NeverRises.append
    {marks more : List TemplateMark} (h : NeverRises marks) (hmore : NeverRises more) :
    NeverRises (marks ++ more) := by
  intro depth
  rw [depthBehindAll_append]
  exact (hmore _).trans (h depth)

theorem NeverRises.closing
    {marks : List TemplateMark} (h : NeverRises marks) :
    NeverRises (.closing :: marks) :=
  fun depth => (h (depth - 1)).trans (Nat.sub_le depth 1)

theorem NeverRises.quote
    {marks : List TemplateMark} (h : NeverRises marks) :
    NeverRises (.quote :: marks) :=
  h

/-- What is opened first is closed by the brace at the end of the code, at the latest. -/
theorem NeverRises.substitution
    {marks more : List TemplateMark} (h : NeverRises marks) (hmore : NeverRises more) :
    NeverRises (.opening :: (marks ++ .closing :: more)) := by
  intro depth
  calc depthBehindAll depth (.opening :: (marks ++ .closing :: more))
      = depthBehindAll (depthBehindAll (depth + 1) marks - 1) more :=
        depthBehindAll_append (depth + 1) marks (.closing :: more)
    _ ≤ depthBehindAll (depth + 1) marks - 1 := hmore _
    _ ≤ depth := Nat.sub_le_of_le_add (h (depth + 1))

mutual

theorem TemplateBody.neverRises :
    (body : TemplateBody) → body.isWellFormed = true → NeverRises (templateMarks body.chars)
  | .done, _ => fun depth => Nat.le_refl depth
  | .char c rest, h => by
    obtain ⟨hc, hrest⟩ := TemplateBody.isWellFormed_char h
    have hmore := rest.neverRises hrest
    rw [TemplateBody.chars, templateMarks_cons hc.backslash, hc.mark]
    split
    · exact hmore.closing
    · exact hmore
  | .escape _ rest, h => rest.neverRises h
  | .substitution code rest, h => by
    obtain ⟨hcode, hrest⟩ := Bool.and_eq_true_iff.mp h
    rw [TemplateBody.chars, templateMarks_substitution (code.endsWhole_chars hcode)]
    exact (code.neverRises hcode).1.substitution (rest.neverRises hrest)

/-- A dollar sign in front of a group opens a substitution, which the brace of the group closes. -/
theorem TemplateCode.neverRises :
    (code : TemplateCode) → code.isWellFormed = true → NeverRises (templateMarks code.chars) ∧
      (code.chars.head? = some '\x7b' → NeverRises (.opening :: templateMarks code.chars))
  | .done, _ => ⟨fun depth => Nat.le_refl depth, nofun⟩
  | .char c rest, h => by
    obtain ⟨hc, hrest⟩ := TemplateCode.isWellFormed_char h
    obtain ⟨hmore, hgroup⟩ := rest.neverRises hrest
    refine ⟨?_, fun hhead => absurd (Option.some.inj hhead) hc.brace⟩
    rw [TemplateCode.chars, templateMarks_cons hc.backslash, hc.mark]
    split
    · rename_i hopening
      exact hgroup hopening.2
    · exact hmore
  | .group inner rest, h => by
    obtain ⟨hinner, hrest⟩ := Bool.and_eq_true_iff.mp h
    have hfirst := (inner.neverRises hinner).1
    have hmore := (rest.neverRises hrest).1
    rw [TemplateCode.chars, templateMarks_group (inner.endsWhole_chars hinner)]
    exact ⟨hfirst.append hmore.closing, fun _ => hfirst.substitution hmore⟩
  | .template inner rest, h => by
    obtain ⟨hinner, hrest⟩ := Bool.and_eq_true_iff.mp h
    refine ⟨?_, fun hhead => absurd hhead (by simp [TemplateCode.chars])⟩
    rw [TemplateCode.chars, templateMarks_template (inner.endsWhole_chars hinner)]
    exact ((inner.neverRises hinner).append (rest.neverRises hrest).1.quote).quote

end

/-! ## Templates without templates in them -/

mutual

theorem TemplateBody.quote_notMem :
    (body : TemplateBody) → body.isWellFormed = true → body.holdsTemplate = false →
      .quote ∉ templateMarks body.chars
  | .done, _, _ => List.not_mem_nil
  | .char c rest, h, hnone => by
    obtain ⟨hc, hrest⟩ := TemplateBody.isWellFormed_char h
    have hmore := rest.quote_notMem hrest hnone
    rw [TemplateBody.chars, templateMarks_cons hc.backslash, hc.mark]
    split <;> simpa using hmore
  | .escape _ rest, h, hnone => rest.quote_notMem h hnone
  | .substitution code rest, h, hnone => by
    obtain ⟨hcode, hrest⟩ := Bool.and_eq_true_iff.mp h
    obtain ⟨hnoneCode, hnoneRest⟩ := Bool.or_eq_false_iff.mp hnone
    have hfirst := code.quote_notMem hcode hnoneCode
    have hmore := rest.quote_notMem hrest hnoneRest
    rw [TemplateBody.chars, templateMarks_substitution (code.endsWhole_chars hcode)]
    simp [hfirst, hmore]

theorem TemplateCode.quote_notMem :
    (code : TemplateCode) → code.isWellFormed = true → code.holdsTemplate = false →
      .quote ∉ templateMarks code.chars
  | .done, _, _ => List.not_mem_nil
  | .char c rest, h, hnone => by
    obtain ⟨hc, hrest⟩ := TemplateCode.isWellFormed_char h
    have hmore := rest.quote_notMem hrest hnone
    rw [TemplateCode.chars, templateMarks_cons hc.backslash, hc.mark]
    split <;> simpa using hmore
  | .group inner rest, h, hnone => by
    obtain ⟨hinner, hrest⟩ := Bool.and_eq_true_iff.mp h
    obtain ⟨hnoneInner, hnoneRest⟩ := Bool.or_eq_false_iff.mp hnone
    have hfirst := inner.quote_notMem hinner hnoneInner
    have hmore := rest.quote_notMem hrest hnoneRest
    rw [TemplateCode.chars, templateMarks_group (inner.endsWhole_chars hinner)]
    simp [hfirst, hmore]

end

/-! ## Templates whose braces are those of substitutions -/

/-- From a depth on, back quotes stand inside substitutions and the depth is the same behind the marks. -/
def IsSteadyFrom (least : Nat) (marks : List TemplateMark) : Prop :=
  ∀ depth, least ≤ depth → staysOpen depth marks = true ∧ depthBehindAll depth marks = depth

theorem IsSteadyFrom.append
    {least : Nat} {marks more : List TemplateMark} (h : IsSteadyFrom least marks)
    (hmore : IsSteadyFrom least more) :
    IsSteadyFrom least (marks ++ more) := by
  intro depth hdepth
  obtain ⟨hopen, hsame⟩ := h depth hdepth
  rw [staysOpen_append, depthBehindAll_append, hopen, hsame, Bool.true_and]
  exact hmore depth hdepth

/-- Inside a substitution a back quote is passed. -/
theorem IsSteadyFrom.quote
    {marks : List TemplateMark} (h : IsSteadyFrom 1 marks) :
    IsSteadyFrom 1 (.quote :: marks) := by
  intro depth hdepth
  obtain ⟨hopen, hsame⟩ := h depth hdepth
  refine ⟨?_, hsame⟩
  have hpositive : (depth != 0) = true := bne_iff_ne.mpr (Nat.ne_of_gt hdepth)
  rw [staysOpen, hpositive, Bool.or_true, Bool.true_and]
  exact hopen

theorem IsSteadyFrom.substitution
    {code more : List TemplateMark} (h : IsSteadyFrom 1 code) (hmore : IsSteadyFrom 0 more) :
    IsSteadyFrom 0 (.opening :: (code ++ .closing :: more)) := by
  intro depth hdepth
  obtain ⟨hopen, hsame⟩ := h (depth + 1) (Nat.le_add_left 1 depth)
  obtain ⟨hopenMore, hsameMore⟩ := hmore depth hdepth
  constructor
  · have hcode : staysOpen (depth + 1) (code ++ .closing :: more) = true := by
      rw [staysOpen_append, hopen, hsame, Bool.true_and]
      exact hopenMore
    exact hcode
  · have hcode : depthBehindAll (depth + 1) (code ++ .closing :: more) = depth := by
      rw [depthBehindAll_append, hsame]
      exact hsameMore
    exact hcode

mutual

theorem TemplateBody.isSteadyFrom :
    (body : TemplateBody) → body.isWellFormed = true → body.hasLooseBrace = false →
      IsSteadyFrom 0 (templateMarks body.chars)
  | .done, _, _ => fun _ _ => ⟨rfl, rfl⟩
  | .char c rest, h, hnone => by
    obtain ⟨hc, hrest⟩ := TemplateBody.isWellFormed_char h
    obtain ⟨hclosing, hnoneRest⟩ := Bool.or_eq_false_iff.mp hnone
    rw [TemplateBody.chars, templateMarks_cons hc.backslash, hc.mark,
      if_neg (beq_eq_false_iff_ne.mp hclosing)]
    exact rest.isSteadyFrom hrest hnoneRest
  | .escape _ rest, h, hnone => rest.isSteadyFrom h hnone
  | .substitution code rest, h, hnone => by
    obtain ⟨hcode, hrest⟩ := Bool.and_eq_true_iff.mp h
    obtain ⟨hnoneCode, hnoneRest⟩ := Bool.or_eq_false_iff.mp hnone
    rw [TemplateBody.chars, templateMarks_substitution (code.endsWhole_chars hcode)]
    exact (code.isSteadyFrom hcode hnoneCode).1.substitution (rest.isSteadyFrom hrest hnoneRest)

/-- Without groups no brace in the code can make a substitution of a dollar sign. -/
theorem TemplateCode.isSteadyFrom :
    (code : TemplateCode) → code.isWellFormed = true → code.hasLooseBrace = false →
      IsSteadyFrom 1 (templateMarks code.chars) ∧ code.chars.head? ≠ some '\x7b'
  | .done, _, _ => ⟨fun _ _ => ⟨rfl, rfl⟩, nofun⟩
  | .char c rest, h, hnone => by
    obtain ⟨hc, hrest⟩ := TemplateCode.isWellFormed_char h
    obtain ⟨hmore, hhead⟩ := rest.isSteadyFrom hrest hnone
    refine ⟨?_, fun hbrace => hc.brace (Option.some.inj hbrace)⟩
    rw [TemplateCode.chars, templateMarks_cons hc.backslash, hc.mark,
      if_neg fun hopening => hhead hopening.2]
    exact hmore
  | .template inner rest, h, hnone => by
    obtain ⟨hinner, hrest⟩ := Bool.and_eq_true_iff.mp h
    obtain ⟨hnoneInner, hnoneRest⟩ := Bool.or_eq_false_iff.mp hnone
    have hfirst : IsSteadyFrom 1 (templateMarks inner.chars) := fun depth _ =>
      inner.isSteadyFrom hinner hnoneInner depth (Nat.zero_le depth)
    refine ⟨?_, by simp [TemplateCode.chars]⟩
    rw [TemplateCode.chars, templateMarks_template (inner.endsWhole_chars hinner)]
    exact (hfirst.append (rest.isSteadyFrom hrest hnoneRest).1.quote).quote

end

/-! ## Which templates are one token -/

/-- A template is read as one token if and only if every back quote in it stands inside a substitution,
by the count of closing braces. So it is if its code holds no templates, and if no closing brace stands
anywhere but at the end of a substitution. -/
theorem TemplateBody.isOneTemplate
    {body : TemplateBody} (h : body.isWellFormed = true) :
    (IsOneTemplate body.chars ↔ QuotesInside (templateMarks body.chars)) ∧
      (body.holdsTemplate = false → IsOneTemplate body.chars) ∧
      (body.hasLooseBrace = false → IsOneTemplate body.chars) := by
  have hiff : IsOneTemplate body.chars ↔ QuotesInside (templateMarks body.chars) :=
    isOneTemplate_iff (body.endsWhole_chars h) (Nat.le_zero.mp (body.neverRises h 0))
  refine ⟨hiff, fun hnone => hiff.mpr ?_, fun hnone => hiff.mpr ?_⟩
  · rintro front back heq
    exact absurd (by simp [heq]) (body.quote_notMem h hnone)
  · exact quotesInside_iff.mpr (body.isSteadyFrom h hnone 0 (Nat.le_refl 0)).1

/-- A template in braces in the code of a substitution, and one in the code of that template. -/
def TemplateBody.nestedExample : TemplateBody :=
  .char 'a' (.substitution
    (.group (.template (.substitution (.template (.char 'b' .done) .done) .done) .done)
      (.char '+' .done))
    (.escape '\x60' .done))

theorem TemplateBody.isOneTemplate_nestedExample :
    nestedExample.chars = "a$\x7b\x7b`$\x7b`b`\x7d`\x7d+\x7d\\`".toList ∧
      nestedExample.isWellFormed = true ∧ IsOneTemplate nestedExample.chars := by
  have hformed : nestedExample.isWellFormed = true := by decide
  have hinside : QuotesInside (templateMarks nestedExample.chars) := by decide
  exact ⟨by decide, hformed, (isOneTemplate hformed).1.mpr hinside⟩

/-- A substitution with empty braces in front of a template. -/
def TemplateBody.closedGroupExample : TemplateBody :=
  .substitution (.group .done (.template (.char 'x' .done) .done)) .done

/-- The closing brace of the group is taken for the end of the substitution, and the next back quote for
that of the template. -/
theorem TemplateBody.not_isOneTemplate_closedGroupExample :
    closedGroupExample.chars = "$\x7b\x7b\x7d`x`\x7d".toList ∧
      closedGroupExample.isWellFormed = true ∧ ¬IsOneTemplate closedGroupExample.chars := by
  have hiff : IsOneTemplate closedGroupExample.chars ↔
      QuotesInside (templateMarks closedGroupExample.chars) :=
    isOneTemplate_iff (by decide) (by decide)
  exact ⟨by decide, by decide, fun hone => absurd (hiff.mp hone) (by decide)⟩

end EntityDiagram.Source
