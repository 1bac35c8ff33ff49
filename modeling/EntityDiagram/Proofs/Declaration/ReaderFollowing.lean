import EntityDiagram.Proofs.Declaration.FileReading
import EntityDiagram.Proofs.Declaration.Following

/-!
# The elementary readers follow each other

Marks, words and names, lists with commas, chains, dotted names and bracketed text. The readers of
items may be different ones on the two sides, as long as they follow each other on short lists; so
may the budgets of repetitions, as long as they exceed the number of tokens.
-/

namespace EntityDiagram.Declaration

open Source (Fault Lead Lexeme Token)

namespace Parse

variable {α γ : Type} {keep : DocsMap} {behind tokens tokens' : List Token}
  {least : Nat} {rise : Int} {loose : Bool} {view : α → γ}

/-! ## Marks, words and names -/

theorem markAt_eq_true_iff
    {tokens : List Token} {offset : Nat} {mark : String} :
    markAt tokens offset mark = true ↔ lexemeAt? tokens offset = some (.punct mark) := by
  simp [markAt]

theorem wordAt_eq_true_iff
    {tokens : List Token} {offset : Nat} {word : String} :
    wordAt tokens offset word = true ↔ lexemeAt? tokens offset = some (.ident word) := by
  simp [wordAt]

theorem nameAt?_eq_some_iff
    {tokens : List Token} {offset : Nat} {name : String} :
    nameAt? tokens offset = some name ↔ lexemeAt? tokens offset = some (.ident name) := by
  unfold nameAt?
  split <;> simp_all

theorem expect_follows
    {mark : String} (hmark : mark ≠ ";") (h : Continues keep behind tokens tokens') :
    Follows keep behind 1 (turn (.punct mark)) false id tokens (expect mark tokens)
      (expect mark tokens') := by
  by_cases hnext : markAt tokens 0 mark = true
  · obtain ⟨lead, lead', rest, rest', rfl, rfl, -, -, hrest⟩ :=
      h.exists_cons (markAt_eq_true_iff.mp hnext)
    rw [run_expect_cons, run_expect_cons]
    exact ((Follows.pure rfl hrest).step (by simpa using hmark)).weaken
      ⟨Nat.le_refl _, by omega, id⟩
  · have hread : expect mark tokens = .error ⟨.expectedMark mark (lexemeAt? tokens 0), tokens⟩ := by
      simp [expect, hnext]
    rw [hread]
    refine .error rfl h fun hbehind => ?_
    have hnext' : markAt tokens' 0 mark = markAt tokens 0 mark := by
      rw [markAt, h.lexemeAt?_zero (.inl hbehind), markAt]
    simp [expect, hnext', hnext, h.lexemeAt?_zero (.inl hbehind)]

/-- A mark that is taken where it stands. -/
theorem eat_follows
    {mark : String} (hmark : opens (.punct mark) = false)
    (h : Continues keep behind tokens tokens') :
    Follows keep behind 0 0 (mark == ";") id tokens (eat mark tokens) (eat mark tokens') := by
  by_cases hnext : markAt tokens 0 mark = true
  · obtain ⟨lead, lead', rest, rest', rfl, rfl, -, -, hrest⟩ :=
      h.exists_cons (markAt_eq_true_iff.mp hnext)
    rw [run_eat_cons, run_eat_cons]
    have hturn : turn (.punct mark) ≤ 0 := by
      rw [turn, hmark, if_neg (by simp)]
      split <;> omega
    have htaken : Follows keep behind 0 0 (mark == ";") id rest (.ok (true, rest))
        (.ok (true, rest')) :=
      (Follows.pure rfl hrest).weaken ⟨Nat.le_refl _, Int.le_refl _, fun _ => rfl⟩
    refine (htaken.step ?_).weaken ⟨Nat.zero_le _, by omega, id⟩
    intro hsemicolon _
    simpa using hsemicolon
  · rw [run_eat_of_false (by simpa using hnext)]
    have hleft : Follows keep behind 0 0 (mark == ";") id tokens (.ok (false, tokens))
        (.ok (false, tokens')) :=
      (Follows.pure rfl h).weaken ⟨Nat.le_refl _, Int.le_refl _, fun _ => rfl⟩
    refine hleft.of_live fun hlive => run_eat_of_false ?_
    rw [markAt, h.lexemeAt?_zero hlive]
    simpa [markAt] using hnext

theorem ident_follows
    (h : Continues keep behind tokens tokens') :
    Follows keep behind 1 0 false id tokens (ident tokens) (ident tokens') := by
  cases hname : nameAt? tokens 0 with
  | some name =>
    obtain ⟨lead, lead', rest, rest', rfl, rfl, -, -, hrest⟩ :=
      h.exists_cons (nameAt?_eq_some_iff.mp hname)
    rw [run_ident_cons, run_ident_cons]
    exact .word (.pure rfl hrest)
  | none =>
    have hread : ident tokens = .error ⟨.expectedIdentifier (lexemeAt? tokens 0), tokens⟩ := by
      simp [ident, hname]
    rw [hread]
    refine .error rfl h fun hbehind => ?_
    have hname' : nameAt? tokens' 0 = none := by
      rw [nameAt?, h.lexemeAt?_zero (.inl hbehind)]
      exact hname
    simp [ident, hname', h.lexemeAt?_zero (.inl hbehind)]

theorem expectEnd_follows
    (h : Continues keep [] tokens tokens') :
    Follows keep [] 0 0 false id tokens (expectEnd tokens) (expectEnd tokens') := by
  cases h with
  | ending => exact .pure rfl .ending
  | token halike hfinal hrest =>
    refine .error rfl (.token halike hfinal hrest) fun _ => ?_
    rw [← halike.lexeme]
    rfl

theorem markAt_zero_eq
    (h : Continues keep behind tokens tokens') (mark : String) (hlive : Live behind tokens) :
    markAt tokens' 0 mark = markAt tokens 0 mark := by
  rw [markAt, h.lexemeAt?_zero hlive, markAt]

/-- A choice by a mark that is taken where it stands. -/
theorem ifEat_follows
    {mark : String} (hmark : turn (.punct mark) ≤ 0) (hsemicolon : loose = false → mark ≠ ";")
    {p p' q q' : Parse α} (h : Continues keep behind tokens tokens')
    (hthen : ∀ rest rest', rest.length < tokens.length → Continues keep behind rest rest' →
      Follows keep behind least rise loose view rest (p rest) (p' rest'))
    (helse : Follows keep behind least rise loose view tokens (q tokens) (q' tokens')) :
    Follows keep behind least rise loose view tokens ((do if ← eat mark then p else q) tokens)
      ((do if ← eat mark then p' else q') tokens') := by
  by_cases hnext : markAt tokens 0 mark = true
  · obtain ⟨lead, lead', rest, rest', rfl, rfl, -, -, hrest⟩ :=
      h.exists_cons (markAt_eq_true_iff.mp hnext)
    simp only [run_bind, run_eat_cons, ok_bind, if_true]
    refine ((hthen rest rest' (by simp) hrest).step ?_).weaken ⟨by omega, by omega, id⟩
    simpa using fun hloose _ => hsemicolon hloose
  · have hleft := run_eat_of_false (by simpa using hnext)
    simp only [run_bind, hleft, ok_bind, Bool.false_eq_true, if_false]
    refine helse.of_live fun hlive => ?_
    rw [run_eat_of_false (by rw [markAt_zero_eq h mark hlive]; simpa using hnext)]
    simp

theorem wordAt_zero_eq
    (h : Continues keep behind tokens tokens') (word : String) (hlive : Live behind tokens) :
    wordAt tokens' 0 word = wordAt tokens 0 word := by
  rw [wordAt, h.lexemeAt?_zero hlive, wordAt]

/-- A choice by a word that is taken where it stands. -/
theorem ifEatWord_follows
    {word : String} {p p' q q' : Parse α} (h : Continues keep behind tokens tokens')
    (hthen : ∀ rest rest', rest.length < tokens.length → Continues keep behind rest rest' →
      Follows keep behind least 0 loose view rest (p rest) (p' rest'))
    (helse : Follows keep behind least 0 loose view tokens (q tokens) (q' tokens')) :
    Follows keep behind least 0 loose view tokens ((do if ← eatWord word then p else q) tokens)
      ((do if ← eatWord word then p' else q') tokens') := by
  by_cases hnext : wordAt tokens 0 word = true
  · obtain ⟨lead, lead', rest, rest', rfl, rfl, -, -, hrest⟩ :=
      h.exists_cons (wordAt_eq_true_iff.mp hnext)
    simp only [run_bind, run_eatWord_cons, ok_bind, if_true]
    exact .weaken (.word (hthen rest rest' (by simp) hrest)) ⟨by omega, Int.le_refl _, id⟩
  · have hleft := run_eatWord_of_false (by simpa using hnext)
    simp only [run_bind, hleft, ok_bind, Bool.false_eq_true, if_false]
    refine helse.of_live fun hlive => ?_
    rw [run_eatWord_of_false (by rw [wordAt_zero_eq h word hlive]; simpa using hnext)]
    simp

theorem behind_follows
    {mark : String} (hmark : turn (.punct mark) ≤ 0) (hsemicolon : mark ≠ ";")
    {reader reader' : Parse α} (h : Continues keep behind tokens tokens')
    (hreader : ∀ rest rest', rest.length < tokens.length → Continues keep behind rest rest' →
      Follows keep behind 0 0 false view rest (reader rest) (reader' rest')) :
    Follows keep behind 0 0 false (Option.map view) tokens (Parse.behind mark reader tokens)
      (Parse.behind mark reader' tokens') := by
  refine ifEat_follows hmark (fun _ => hsemicolon) h (fun rest rest' hlength hrest => ?_)
    (.pure rfl h)
  exact .weaken (.bind (hreader rest rest' hlength hrest) fun _ _ _ _ hview hrest _ =>
    .pure (congrArg some hview) hrest) ⟨Nat.le_refl _, Int.le_refl _, by decide⟩

/-! ## Lists -/

/-- Items of a list follow each other where less than so many tokens are left. -/
def ItemsFollow
    (keep : DocsMap) (behind : List Token) (bound least : Nat) (loose : Bool) (view : α → γ)
    (item item' : Parse α) : Prop :=
  ∀ ⦃tokens tokens'⦄, tokens.length < bound → Continues keep behind tokens tokens' →
    Follows keep behind least 0 loose view tokens (item tokens) (item' tokens')

theorem ItemsFollow.loosen
    {bound : Nat} {item item' : Parse α}
    (h : ItemsFollow keep behind bound least loose view item item') :
    ItemsFollow keep behind bound 0 true view item item' :=
  fun _ _ hbound hrest => .weaken (h hbound hrest) ⟨Nat.zero_le _, Int.le_refl _, by simp⟩

theorem commaListWithin_follows
    {bound : Nat} {closer : String} {item item' : Parse α}
    (hitem : ItemsFollow keep behind bound 0 true view item item') (hbound : tokens.length < bound)
    (h : Continues keep behind tokens tokens') {steps steps' : Nat}
    (hsteps : tokens.length < steps) (hsteps' : tokens'.length < steps') :
    Follows keep behind 0 0 true (List.map view) tokens (commaListWithin closer item steps tokens)
      (commaListWithin closer item' steps' tokens') := by
  -- The induction is on one budget; the other one only has to exceed the tokens on its side.
  induction steps generalizing tokens tokens' steps' with
  | zero => omega
  | succ steps ih =>
    obtain ⟨steps', rfl⟩ := Nat.exists_eq_succ_of_ne_zero (Nat.ne_zero_of_lt hsteps')
    refine .ite (markAt_zero_eq h closer) (fun _ => .weaken (.pure rfl h) (by decide)) fun _ => ?_
    refine .weaken (.bind (hitem hbound h) fun first first' left left' hfirst hleft hlength =>
      (?_ : Follows keep behind 0 0 true (List.map view) left _ _)) (by decide)
    have hcomma : turn (.punct ",") ≤ 0 := by decide
    refine ifEat_follows hcomma (by decide) hleft (fun rest rest' hlt hrest => ?_) ?_
    · have hmore : Follows keep behind 0 0 true (List.map view) rest
          (commaListWithin closer item steps rest) (commaListWithin closer item' steps' rest') := by
        have := h.length_eq
        have := hrest.length_eq
        exact ih (by omega) hrest (by omega) (by omega)
      refine .weaken (.bind hmore fun more more' _ _ hmore hrest _ => .pure ?_ hrest) (by decide)
      rw [List.map_cons, List.map_cons, hfirst, hmore]
    · refine .weaken (.pure ?_ hleft) (by decide)
      rw [List.map_cons, List.map_cons, hfirst]

theorem commaList_follows
    {bound : Nat} {closer : String} (hcloser : closer ≠ ";") {item item' : Parse α}
    (hitem : ItemsFollow keep behind bound 0 true view item item') (hbound : tokens.length < bound)
    (h : Continues keep behind tokens tokens') :
    Follows keep behind 1 (turn (.punct closer)) false (List.map view) tokens
      (commaList closer item tokens) (commaList closer item' tokens') := by
  refine .get (.weaken (.bind (commaListWithin_follows hitem hbound h (Nat.lt_succ_self _)
    (Nat.lt_succ_self _)) fun items items' _ _ hitems hleft _ =>
      .bind (expect_follows hcloser hleft) fun _ _ _ _ _ hrest _ => .pure hitems hrest)
    ⟨by decide, by omega, by decide⟩)

theorem chainWithin_follows
    {bound : Nat} {mark : String} (hmark : turn (.punct mark) ≤ 0) (hsemicolon : mark ≠ ";")
    {item item' : Parse α} (hitem : ItemsFollow keep behind bound 1 false view item item')
    (hbound : tokens.length < bound) (h : Continues keep behind tokens tokens') {steps steps' : Nat}
    (hsteps : tokens.length < steps) (hsteps' : tokens'.length < steps') :
    Follows keep behind 1 0 false (List.map view) tokens (chainWithin mark item steps tokens)
      (chainWithin mark item' steps' tokens') := by
  induction steps generalizing tokens tokens' steps' with
  | zero => omega
  | succ steps ih =>
    obtain ⟨steps', rfl⟩ := Nat.exists_eq_succ_of_ne_zero (Nat.ne_zero_of_lt hsteps')
    refine .weaken (.bind (hitem hbound h) fun first first' left left' hfirst hleft hlength =>
      (?_ : Follows keep behind 0 0 false (List.map view) left _ _)) (by decide)
    refine ifEat_follows hmark (fun _ => hsemicolon) hleft (fun rest rest' hlt hrest => ?_) ?_
    · have hmore : Follows keep behind 1 0 false (List.map view) rest
          (chainWithin mark item steps rest) (chainWithin mark item' steps' rest') := by
        have := h.length_eq
        have := hrest.length_eq
        exact ih (by omega) hrest (by omega) (by omega)
      refine .weaken (.bind hmore fun more more' _ _ hmore hrest _ => .pure ?_ hrest) (by decide)
      rw [List.map_cons, List.map_cons, hfirst, hmore]
    · refine .pure ?_ hleft
      rw [List.map_cons, List.map_cons, hfirst]

theorem chain_follows
    {bound : Nat} {mark : String} (hmark : turn (.punct mark) ≤ 0) (hsemicolon : mark ≠ ";")
    {item item' : Parse α} (hitem : ItemsFollow keep behind bound 1 false view item item')
    (hbound : tokens.length < bound) (h : Continues keep behind tokens tokens') :
    Follows keep behind 1 0 false (List.map view) tokens (chain mark item tokens)
      (chain mark item' tokens') :=
  .get (chainWithin_follows hmark hsemicolon hitem hbound h (Nat.lt_succ_self _)
    (Nat.lt_succ_self _))

/-! ## Names with dots and text in brackets -/

/-- The further parts of a dotted name, as a reader. -/
def dots : Parse (List String) :=
  fun tokens => .ok (dottedParts tokens)

theorem entityName_eq :
    entityName = do
      let first ← ident
      let more ← dots
      return ".".intercalate (first :: more) :=
  rfl

theorem dots_cons
    (dot lead : Lead) (name : String) (rest : List Token) :
    dots (⟨.punct ".", dot⟩ :: ⟨.ident name, lead⟩ :: rest) =
      (do let more ← dots; return name :: more : Parse (List String)) rest :=
  rfl

theorem dots_of_not_dot
    {tokens : List Token} (h : (markAt tokens 0 "." && identAt tokens 1) = false) :
    dots tokens = .ok ([], tokens) := by
  unfold dots
  fun_cases dottedParts tokens with
  | case1 dot part rest name hname hdot => simp [markAt, identAt, nameAt?, hdot, hname] at h
  | case2 => rfl
  | case3 => rfl

theorem identAt_iff
    {tokens : List Token} {offset : Nat} :
    identAt tokens offset = true ↔ ∃ name, lexemeAt? tokens offset = some (.ident name) := by
  simp [identAt, Option.isSome_iff_exists, nameAt?_eq_some_iff]

theorem dots_follows
    (h : Continues keep behind tokens tokens') :
    Follows keep behind 0 0 false id tokens (dots tokens) (dots tokens') := by
  -- A dot and a name are taken at a time, so the induction is on the number of tokens.
  induction hlength : tokens.length using Nat.strong_induction_on generalizing tokens tokens' with
  | _ length ih =>
    cases hnext : markAt tokens 0 "." && identAt tokens 1 with
    | true =>
      rw [Bool.and_eq_true] at hnext
      obtain ⟨dot, dot', more, more', rfl, rfl, -, -, hmore⟩ :=
        h.exists_cons (markAt_eq_true_iff.mp hnext.1)
      obtain ⟨name, hname⟩ := identAt_iff.mp hnext.2
      obtain ⟨lead, lead', rest, rest', rfl, rfl, -, -, hrest⟩ := hmore.exists_cons hname
      rw [dots_cons, dots_cons]
      have hdots : Follows keep behind 0 0 false id rest (dots rest) (dots rest') :=
        ih rest.length (by simp only [← hlength, List.length_cons]; omega) hrest rfl
      refine .weaken (.step (.word (.bind hdots fun more more' _ _ hview hleft _ => .pure ?_ hleft))
        (by simp)) (by decide)
      exact congrArg (List.cons name) hview
    | false =>
      rw [dots_of_not_dot hnext]
      refine .of_live (.pure rfl h) fun hlive => dots_of_not_dot ?_
      rw [← hnext, Bool.eq_iff_iff]
      obtain ⟨hzero, ⟨_, hlexeme, rfl | rfl⟩ | ⟨hone, -⟩⟩ := h.window hlive <;>
        simp [markAt, identAt, nameAt?, *]

theorem entityName_follows
    (h : Continues keep behind tokens tokens') :
    Follows keep behind 1 0 false id tokens (entityName tokens) (entityName tokens') := by
  rw [entityName_eq]
  refine .weaken (.bind (ident_follows h) fun first first' _ _ hfirst hleft _ =>
    .bind (dots_follows hleft) fun more more' _ _ hmore hrest _ => .pure ?_ hrest) (by decide)
  obtain rfl : first' = first := hfirst
  obtain rfl : more' = more := hmore
  rfl

/-- The spellings up to the mark that closes the open brackets, as a reader. -/
def group (closer : String) (depth : Nat) : Parse (List String) :=
  fun tokens =>
    match bracketed? depth tokens with
    | none => .error ⟨.unclosed closer, []⟩
    | some read => .ok read

/-- The number of open brackets behind a lexeme. -/
def depthBehind (depth : Nat) (lexeme : Lexeme) : Nat :=
  if opens lexeme then depth + 1 else if closes lexeme then depth - 1 else depth

theorem depthBehind_eq
    {depth : Nat} (hdepth : 0 < depth) (lexeme : Lexeme) :
    (depthBehind depth lexeme : Int) = depth + turn lexeme := by
  unfold depthBehind turn
  split
  · omega
  · split <;> omega

theorem group_cons
    (closer : String) (depth : Nat) (token : Token) (rest : List Token) :
    group closer depth (token :: rest) =
      if depthBehind depth token.lexeme = 0 then .ok ([token.lexeme.spelling], rest)
      else (do
        let parts ← group closer (depthBehind depth token.lexeme)
        return token.lexeme.spelling :: parts : Parse (List String)) rest := by
  by_cases hdepth : depthBehind depth token.lexeme = 0
  · rw [depthBehind] at hdepth
    simp [group, bracketed?, depthBehind, hdepth]
  · rw [if_neg hdepth]
    rw [depthBehind] at hdepth
    simp only [group, bracketed?, depthBehind, hdepth, if_false, run_bind]
    cases bracketed? _ rest <;> rfl

theorem group_follows
    (closer : String) {depth : Nat} (hdepth : 0 < depth)
    (h : Continues keep behind tokens tokens') :
    Follows keep behind 1 (-depth) false id tokens (group closer depth tokens)
      (group closer depth tokens') := by
  -- What is taken closes the open brackets, and `depth` counts how many of them there are.
  induction tokens generalizing tokens' depth with
  | nil =>
    refine .error rfl h fun hbehind => ?_
    subst hbehind
    cases h
    rfl
  | cons token rest ih =>
    obtain ⟨lexeme, lead⟩ := token
    obtain ⟨lead, lead', rest, rest', ⟨⟩, rfl, -, -, hrest⟩ :=
      h.exists_cons (lexemeAt?_cons_zero ⟨lexeme, lead⟩ rest)
    simp only [group_cons]
    have hturn := depthBehind_eq hdepth lexeme
    by_cases hclosed : depthBehind depth lexeme = 0
    · rw [if_pos hclosed, if_pos hclosed]
      have hclosing : lexeme ≠ .punct ";" := by
        rintro rfl
        have : turn (.punct ";") = 0 := by decide
        omega
      exact .weaken (.step (.pure rfl hrest) fun _ _ => hclosing) ⟨by omega, by omega, by decide⟩
    · rw [if_neg hclosed, if_neg hclosed]
      refine .weaken (.step (.bind (ih (Nat.pos_of_ne_zero hclosed) hrest)
        fun parts parts' _ _ hparts hleft _ => .pure ?_ hleft) (by simp))
          ⟨by omega, by omega, by decide⟩
      exact congrArg (List.cons lexeme.spelling) hparts

theorem bracketedText_of_noBracket
    {tokens : List Token}
    (hbracket : (nextText (tokens.map Token.lexeme)).string?.bind closerOf? = none) :
    bracketedText tokens = .error ⟨.noBracket (nextText (tokens.map Token.lexeme)), tokens⟩ := by
  have hopener : ((lexemeAt? tokens 0).map Lexeme.text).getD "" =
      nextText (tokens.map Token.lexeme) := by
    cases tokens <;> rfl
  have hmark : (nextText (tokens.map Token.lexeme)).string?.bind (fun mark =>
      (closerOf? mark).map (mark, ·)) = none := by
    simpa [Option.bind_eq_none_iff] using hbracket
  simp only [bracketedText, hopener, hmark]

theorem bracketedText_cons
    {lexeme : Lexeme} {mark closer : String} (hmark : lexeme.text.string? = some mark)
    (hcloser : closerOf? mark = some closer) (lead : Lead) (rest : List Token) :
    bracketedText (⟨lexeme, lead⟩ :: rest) =
      (do
        let parts ← group closer 1
        return String.join (mark :: parts) : Parse String) rest := by
  simp only [bracketedText, lexemeAt?_cons_zero, Option.map_some, Option.getD_some, hmark,
    Option.bind_some, hcloser, List.tail_cons, run_bind, group]
  cases bracketed? 1 rest <;> rfl

theorem bracketedText_follows
    {lexeme : Lexeme} (hopener : (lexeme.text.string?.bind closerOf?).isSome = true)
    {lead lead' : Lead} {rest rest' : List Token} (hrest : Continues keep behind rest rest') :
    Follows keep behind 1 0 false id (⟨lexeme, lead⟩ :: rest)
      (bracketedText (⟨lexeme, lead⟩ :: rest)) (bracketedText (⟨lexeme, lead'⟩ :: rest')) := by
  obtain ⟨closer, hfound⟩ := Option.isSome_iff_exists.mp hopener
  obtain ⟨mark, hmark, hcloser⟩ := Option.bind_eq_some_iff.mp hfound
  rw [bracketedText_cons hmark hcloser, bracketedText_cons hmark hcloser]
  have hturn := turn_le_one lexeme
  refine .weaken (.step (.bind (group_follows closer Nat.one_pos hrest)
    fun parts parts' _ _ hparts hleft _ => .pure ?_ hleft) (by simp))
      ⟨by omega, by omega, by decide⟩
  obtain rfl : parts' = parts := hparts
  rfl

/-- A default value ends where the brackets that it has opened are closed. -/
theorem behindDefault_follows
    (depth : Int) (h : Continues keep behind tokens tokens') :
    Follows keep behind 0 (-depth) true id tokens
      ((modify (behindDefault depth) : Parse PUnit) tokens)
      ((modify (behindDefault depth) : Parse PUnit) tokens') := by
  induction tokens generalizing tokens' depth with
  | nil =>
    refine .nil 0 (.of_live (.weaken (.pure rfl h) (by decide)) fun hlive => ?_)
    obtain rfl : behind = [] := hlive.resolve_right (not_not.mpr rfl)
    cases h
    rfl
  | cons token rest ih =>
    obtain ⟨lexeme, lead⟩ := token
    obtain ⟨lead, lead', rest, rest', ⟨⟩, rfl, -, -, hrest⟩ :=
      h.exists_cons (lexemeAt?_cons_zero ⟨lexeme, lead⟩ rest)
    by_cases hstop : depth = 0 ∧ (lexeme = .punct "," ∨ lexeme = .punct ")")
    · simp only [run_modify, behindDefault, hstop, if_true, and_self]
      exact .weaken (.pure rfl h) ⟨Nat.le_refl _, by omega, by simp⟩
    · have hmore : ∀ lead rest, behindDefault depth (⟨lexeme, lead⟩ :: rest) =
          behindDefault (depth + turn lexeme) rest := by
        intro lead rest
        rw [behindDefault, if_neg hstop, turn]
        split
        · rfl
        · split
          · rfl
          · rw [Int.add_zero]
      simp only [run_modify, hmore]
      exact .weaken (.step (ih (depth + turn lexeme) hrest) (by simp))
        ⟨by omega, by omega, by decide⟩

end Parse

end EntityDiagram.Declaration
