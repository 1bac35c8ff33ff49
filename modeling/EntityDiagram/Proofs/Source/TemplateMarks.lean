import Mathlib.Data.List.Induction
import EntityDiagram.Proofs.Source.Respelling

/-!
# The end of a template

The search for the end of a template goes by one number, which grows with every opening of a
substitution and falls with every closing brace. So a back quote is taken for the end unless some
substitution that was opened in front of it has not been closed since, by whatever brace. A text is read
as one template exactly if this is so for none of its back quotes.
-/

namespace EntityDiagram.Source

/-! ## Marks -/

/-- What counts in the search for the end of a template. -/
inductive TemplateMark where
  /-- The start of a substitution. -/
  | opening
  | closing
  | quote
  deriving DecidableEq, Repr

/-- What a character in front of another one counts for. -/
def templateMark? (c : Char) (next : Option Char) : Option TemplateMark :=
  if c = '\x60' then some .quote
  else if c = '$' ∧ next = some '\x7b' then some .opening
  else if c = '\x7d' then some .closing
  else none

/-- What counts in a text, in order. An escaped character does not count. -/
def templateMarks : List Char → List TemplateMark
  | [] => []
  | c :: rest =>
    if c = '\\' then
      match rest with
      | [] => []
      | _ :: behind => templateMarks behind
    else (templateMark? c rest.head?).toList ++ templateMarks rest

/-- The last character of the text is not a backslash that escapes what follows. -/
def endsWhole : List Char → Bool
  | [] => true
  | c :: rest =>
    if c = '\\' then
      match rest with
      | [] => false
      | _ :: behind => endsWhole behind
    else endsWhole rest

/-- Some stretch that ends here opens more substitutions than it has closing braces. -/
def IsInside (front : List TemplateMark) : Prop :=
  ∃ stretch, stretch <:+ front ∧ stretch.count .closing < stretch.count .opening

/-- Every back quote stands inside a substitution. -/
def QuotesInside (marks : List TemplateMark) : Prop :=
  ∀ front back, marks = front ++ .quote :: back → IsInside front

/-- The number of open substitutions behind a mark. -/
def TemplateMark.depthBehind (depth : Nat) : TemplateMark → Nat
  | opening => depth + 1
  | closing => depth - 1
  | quote => depth

/-- The number of open substitutions behind some marks. -/
def depthBehindAll (depth : Nat) (marks : List TemplateMark) : Nat :=
  marks.foldl TemplateMark.depthBehind depth

/-- No back quote stands where no substitution is open. -/
def staysOpen : Nat → List TemplateMark → Bool
  | _, [] => true
  | depth, mark :: rest =>
    (mark != .quote || depth != 0) && staysOpen (mark.depthBehind depth) rest

theorem depthBehindAll_append
    (depth : Nat) (marks more : List TemplateMark) :
    depthBehindAll depth (marks ++ more) = depthBehindAll (depthBehindAll depth marks) more :=
  List.foldl_append

theorem staysOpen_append
    (depth : Nat) (marks more : List TemplateMark) :
    staysOpen depth (marks ++ more) =
      (staysOpen depth marks && staysOpen (depthBehindAll depth marks) more) := by
  induction marks generalizing depth with
  | nil => rfl
  | cons mark marks ih =>
    rw [List.cons_append, staysOpen, staysOpen, ih, Bool.and_assoc]
    rfl

theorem staysOpen_eq_true_iff
    {depth : Nat} {marks : List TemplateMark} :
    staysOpen depth marks = true ↔
      ∀ front back, marks = front ++ .quote :: back → 0 < depthBehindAll depth front := by
  induction marks generalizing depth with
  | nil => simp [staysOpen]
  | cons mark marks ih =>
    have hmark : (mark != .quote || depth != 0) = true ↔ (mark = .quote → 0 < depth) := by
      simp [Nat.pos_iff_ne_zero, imp_iff_not_or]
    rw [staysOpen, Bool.and_eq_true, ih, hmark]
    constructor
    · rintro ⟨hquote, hmarks⟩ front back heq
      cases front with
      | nil => exact hquote (List.cons.inj heq).1
      | cons first front =>
        obtain ⟨rfl, hrest⟩ := List.cons.inj heq
        exact hmarks front back hrest
    · intro h
      refine ⟨fun hquote => h [] marks (by rw [hquote]; rfl), fun front back heq => ?_⟩
      exact h (mark :: front) back (by rw [heq]; rfl)

/-- Every stretch up to a last mark is empty or goes on in front of it. -/
theorem exists_suffix_concat_iff
    {marks : List TemplateMark} {mark : TemplateMark} {p : List TemplateMark → Prop}
    (hnil : ¬p []) :
    (∃ stretch, stretch <:+ marks ++ [mark] ∧ p stretch) ↔
      ∃ stretch, stretch <:+ marks ∧ p (stretch ++ [mark]) := by
  constructor
  · rintro ⟨stretch, hsuffix, hp⟩
    obtain rfl | ⟨front, rfl, hfront⟩ := List.suffix_concat_iff.mp hsuffix
    · exact absurd hp hnil
    · exact ⟨front, hfront, hp⟩
  · rintro ⟨stretch, hsuffix, hp⟩
    exact ⟨stretch ++ [mark], List.suffix_concat_iff.mpr (.inr ⟨stretch, rfl, hsuffix⟩), hp⟩

/-- The number of open substitutions is by how many some stretch opens more than it closes, at most. -/
theorem lt_depthBehindAll_iff
    {marks : List TemplateMark} {d : Nat} :
    d < depthBehindAll 0 marks ↔
      ∃ stretch, stretch <:+ marks ∧ stretch.count .closing + d < stretch.count .opening := by
  induction marks using List.reverseRecOn generalizing d with
  | nil => simp [depthBehindAll]
  | append_singleton marks mark ih =>
    rw [exists_suffix_concat_iff (by simp), depthBehindAll_append]
    cases mark with
    | opening =>
      cases d with
      | zero =>
        refine iff_of_true (Nat.succ_pos _) ⟨[], List.nil_suffix, ?_⟩
        decide
      | succ d =>
        refine Nat.succ_lt_succ_iff.trans (ih.trans (exists_congr fun stretch => ?_))
        simp [← Nat.add_assoc]
    | closing =>
      refine Nat.lt_sub_iff_add_lt.trans (ih.trans (exists_congr fun stretch => ?_))
      simp [Nat.add_assoc, Nat.add_comm 1 d]
    | quote =>
      refine ih.trans (exists_congr fun stretch => ?_)
      simp

theorem quotesInside_iff
    {marks : List TemplateMark} :
    QuotesInside marks ↔ staysOpen 0 marks = true := by
  rw [staysOpen_eq_true_iff]
  refine forall_congr' fun front => forall_congr' fun back => imp_congr_right fun _ => ?_
  exact (lt_depthBehindAll_iff (d := 0)).symm

instance (marks : List TemplateMark) : Decidable (QuotesInside marks) :=
  decidable_of_iff _ quotesInside_iff.symm

/-! ## Marks of longer texts -/

theorem templateMarks_cons
    {c : Char} (h : c ≠ '\\') (rest : List Char) :
    templateMarks (c :: rest) = (templateMark? c rest.head?).toList ++ templateMarks rest := by
  rw [templateMarks.eq_def]
  simp only [if_neg h]

theorem endsWhole_cons
    {c : Char} (h : c ≠ '\\') (rest : List Char) :
    endsWhole (c :: rest) = endsWhole rest := by
  rw [endsWhole.eq_def]
  simp only [if_neg h]

theorem endsWhole_append
    {cs : List Char} (h : endsWhole cs = true) (rest : List Char) :
    endsWhole (cs ++ rest) = endsWhole rest := by
  induction cs using templateMarks.induct with
  | case1 => rfl
  | case2 => cases h
  | case3 c cs ih => exact ih h
  | case4 c cs hbackslash ih =>
    rw [endsWhole_cons hbackslash] at h
    rw [List.cons_append, endsWhole_cons hbackslash, ih h]

/-- Only an opening brace behind a text could change what its last character counts for. -/
theorem templateMark?_append
    {rest : List Char} (h : rest.head? ≠ some '\x7b') (c : Char) (cs : List Char) :
    templateMark? c (cs ++ rest).head? = templateMark? c cs.head? := by
  cases cs with
  | nil => simp [templateMark?, h]
  | cons d cs => rfl

theorem templateMarks_append
    {cs rest : List Char} (hwhole : endsWhole cs = true) (hrest : rest.head? ≠ some '\x7b') :
    templateMarks (cs ++ rest) = templateMarks cs ++ templateMarks rest := by
  induction cs using templateMarks.induct with
  | case1 => rfl
  | case2 => cases hwhole
  | case3 c cs ih => exact ih hwhole
  | case4 c cs hbackslash ih =>
    rw [endsWhole_cons hbackslash] at hwhole
    rw [List.cons_append, templateMarks_cons hbackslash, templateMarks_cons hbackslash,
      templateMark?_append hrest, ih hwhole, List.append_assoc]

/-! ## The end of a template -/

theorem map_prepend_nil
    (read : Except Position TemplateSpan) :
    read.map (TemplateSpan.prepend []) = read := by
  cases read <;> rfl

theorem map_prepend_append
    (front more : List Char) (read : Except Position TemplateSpan) :
    (read.map (TemplateSpan.prepend more)).map (TemplateSpan.prepend front) =
      read.map (TemplateSpan.prepend (front ++ more)) := by
  cases read with
  | error ending => rfl
  | ok span => simp [Except.map, TemplateSpan.prepend]

/-- The dollar sign opens the substitution, and the brace behind it is passed like any other character. -/
theorem readTemplate_opening
    (depth : Nat) (position : Position) (rest : List Char) :
    readTemplate depth position ('$' :: '\x7b' :: rest) =
      (readTemplate (depth + 1) (position.right 1) ('\x7b' :: rest)).map (.prepend ['$']) := by
  have hbrace : readTemplate (depth + 1) (position.right 1) ('\x7b' :: rest) =
      (readTemplate (depth + 1) (position.right 2) rest).map (.prepend ['\x7b']) :=
    readTemplate_plain (by decide) (by simp) (by simp) _
  rw [hbrace, map_prepend_append, readTemplate_substitution]
  rfl

theorem staysOpen_templateMark?_iff
    {depth : Nat} {c : Char} {next : Option Char} :
    staysOpen depth (templateMark? c next).toList = true ↔ ¬(c = '\x60' ∧ depth = 0) := by
  rw [templateMark?]
  split_ifs with hquote hopen hclose <;> simp [staysOpen, hquote]

/-- The search goes on behind a character that is not the end, at the depth behind its mark. -/
theorem exists_readTemplate_cons
    {depth : Nat} {c : Char} {rest : List Char} (hbackslash : c ≠ '\\')
    (hquote : ¬(c = '\x60' ∧ depth = 0)) (position : Position) :
    ∃ behind, readTemplate depth position (c :: rest) =
      (readTemplate (depthBehindAll depth (templateMark? c rest.head?).toList) behind rest).map
        (.prepend [c]) := by
  by_cases hopen : c = '$' ∧ rest.head? = some '\x7b'
  · obtain ⟨rfl, hbrace⟩ := hopen
    cases rest with
    | nil => cases hbrace
    | cons brace rest =>
      obtain rfl := Option.some.inj hbrace
      exact ⟨_, readTemplate_opening depth position rest⟩
  · have hdepth : (if c = '\x7d' then depth - 1 else depth) =
        depthBehindAll depth (templateMark? c rest.head?).toList := by
      rw [templateMark?, if_neg hopen]
      split_ifs with hclose hback
      · subst hclose
        cases hback
      · rfl
      · rfl
      · rfl
    exact ⟨position.advance c, hdepth ▸ readTemplate_plain hbackslash hquote hopen position⟩

/-- A text in which every back quote stands inside a substitution belongs to the template. -/
theorem exists_readTemplate_append
    {depth : Nat} {cs rest : List Char} (hwhole : endsWhole cs = true)
    (hrest : rest.head? ≠ some '\x7b') (h : staysOpen depth (templateMarks cs) = true)
    (position : Position) :
    ∃ behind, readTemplate depth position (cs ++ rest) =
      (readTemplate (depthBehindAll depth (templateMarks cs)) behind rest).map (.prepend cs) := by
  induction cs using templateMarks.induct generalizing depth position with
  | case1 => exact ⟨position, (map_prepend_nil _).symm⟩
  | case2 => cases hwhole
  | case3 c cs ih =>
    obtain ⟨behind, hread⟩ := ih hwhole h (position.right 2)
    refine ⟨behind, ?_⟩
    rw [List.cons_append, List.cons_append, readTemplate_escaped, hread, map_prepend_append]
    rfl
  | case4 c cs hbackslash ih =>
    rw [endsWhole_cons hbackslash] at hwhole
    rw [templateMarks_cons hbackslash, staysOpen_append, Bool.and_eq_true] at h
    obtain ⟨hfirst, hmore⟩ := h
    rw [← templateMark?_append hrest] at hmore
    obtain ⟨next, hstep⟩ := exists_readTemplate_cons hbackslash
      (staysOpen_templateMark?_iff.mp hfirst) position
    obtain ⟨behind, hread⟩ := ih hwhole hmore next
    refine ⟨behind, ?_⟩
    rw [List.cons_append, hstep, hread, map_prepend_append, templateMarks_cons hbackslash,
      depthBehindAll_append, templateMark?_append hrest]
    rfl

/-- A back quote outside of all substitutions ends the template. -/
theorem exists_readTemplate_lt
    {depth : Nat} {cs : List Char} (h : staysOpen depth (templateMarks cs) = false)
    (position : Position) (rest : List Char) :
    ∃ span, readTemplate depth position (cs ++ rest) = .ok span ∧ span.text.length < cs.length := by
  induction cs using templateMarks.induct generalizing depth position with
  | case1 => cases h
  | case2 => cases h
  | case3 c cs ih =>
    obtain ⟨span, hread, hlength⟩ := ih h (position.right 2)
    refine ⟨span.prepend ['\\', c], ?_, ?_⟩
    · rw [List.cons_append, List.cons_append, readTemplate_escaped, hread]
      rfl
    · simpa [TemplateSpan.prepend] using hlength
  | case4 c cs hbackslash ih =>
    by_cases hquote : c = '\x60' ∧ depth = 0
    · obtain ⟨rfl, rfl⟩ := hquote
      exact ⟨_, readTemplate_quote position _, Nat.succ_pos _⟩
    · rw [templateMarks_cons hbackslash, staysOpen_append,
        staysOpen_templateMark?_iff.mpr hquote, Bool.true_and] at h
      cases cs with
      | nil => cases h
      | cons d cs =>
        obtain ⟨next, hstep⟩ : ∃ next, readTemplate depth position (c :: (d :: cs ++ rest)) = _ :=
          exists_readTemplate_cons hbackslash hquote position
        obtain ⟨span, hread, hlength⟩ := ih h next
        have hmore := congrArg (Except.map (TemplateSpan.prepend [c])) hread
        refine ⟨span.prepend [c], hstep.trans hmore, ?_⟩
        simpa [TemplateSpan.prepend] using hlength

/-! ## Texts that are one template -/

/-- Between back quotes the text is read as one template, and nothing else. -/
def IsOneTemplate (inside : List Char) : Prop :=
  ∃ lead ending, TokenStream.ofText (String.ofList ('\x60' :: (inside ++ ['\x60']))) =
    .ok ⟨[⟨.template (String.ofList inside), lead⟩], ending⟩

theorem readGap_quote
    (lead : Lead) (rest : List Char) :
    readGap lead ('\x60' :: rest) = .ok (lead, '\x60' :: rest) :=
  (startsLexeme_of_ne_slash (by decide) (by decide) rest).readGap_eq lead

theorem TokenStream.ofText_ofList
    (cs : List Char) :
    TokenStream.ofText (String.ofList cs) = readTokens none .start cs := by
  rw [TokenStream.ofText, String.toList_ofList]

/-- The first token of a text that starts with a back quote is what was read as a template. -/
theorem lexeme_eq_of_ofText
    {rest : List Char} {span : TemplateSpan}
    (h : readTemplate 0 (Position.start.right 1) rest = .ok span) {token : Token}
    {tokens : List Token} {ending : Lead}
    (htokens : TokenStream.ofText (String.ofList ('\x60' :: rest)) = .ok ⟨token :: tokens, ending⟩) :
    token.lexeme = .template (String.ofList span.text) := by
  rw [TokenStream.ofText_ofList, readTokens_eq, readGap_quote] at htokens
  simp only [readLexeme_template h] at htokens
  split at htokens
  · cases htokens
  · have hstream := Except.ok.inj htokens
    obtain ⟨hfirst, -⟩ := List.cons.inj (congrArg TokenStream.tokens hstream)
    rw [← hfirst]

/-- A text whose substitutions are closed is one template if and only if all its back quotes stand
inside them. -/
theorem isOneTemplate_iff
    {inside : List Char} (hwhole : endsWhole inside = true)
    (hclosed : depthBehindAll 0 (templateMarks inside) = 0) :
    IsOneTemplate inside ↔ QuotesInside (templateMarks inside) := by
  rw [quotesInside_iff]
  constructor
  · rintro ⟨lead, ending, htokens⟩
    by_contra hopen
    obtain ⟨span, hread, hlength⟩ := exists_readTemplate_lt (Bool.not_eq_true _ ▸ hopen)
      (Position.start.right 1) ['\x60']
    have hlexeme := lexeme_eq_of_ofText hread htokens
    have htext := Lexeme.template.inj hlexeme
    rw [String.ofList_inj] at htext
    rw [htext] at hlength
    exact Nat.lt_irrefl _ hlength
  · intro hopen
    have hend : ['\x60'].head? ≠ some '\x7b' := by decide
    obtain ⟨behind, hread⟩ :=
      exists_readTemplate_append hwhole hend hopen (Position.start.right 1)
    rw [hclosed, readTemplate_quote] at hread
    have hspan : readTemplate 0 (Position.start.right 1) (inside ++ ['\x60']) =
        .ok ⟨inside, behind.right 1, []⟩ := by
      rw [hread]
      simp [Except.map, TemplateSpan.prepend]
    have hgap : readGap ⟨behind.right 1, false, []⟩ [] = .ok (⟨behind.right 1, false, []⟩, []) := by
      rw [readGap]
    have htokens := readTokens_token (readGap_quote ⟨.start, false, []⟩ _)
      (readLexeme_template hspan none) (readTokens_ending hgap)
    exact ⟨_, _, (TokenStream.ofText_ofList _).trans htokens⟩

end EntityDiagram.Source
