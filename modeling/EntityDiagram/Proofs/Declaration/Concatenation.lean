import EntityDiagram.Proofs.Declaration.StatementFollowing
import EntityDiagram.Proofs.Source.Concatenation

/-!
# Statements in front of others

Statements that are read to an end of their own stay what they are when more tokens follow. An
interface ends with its brace, an alias and a skipped statement with their semicolons; without a
semicolon the tokens behind might have belonged to them.
-/

namespace EntityDiagram.Declaration

open Source (Lead Lexeme Moved SameToken Token TokenStream)

/-! ## One statement after the other -/

theorem eq_of_suffix
    {tokens rest rest' : List Token} (h : rest <:+ tokens) (h' : rest' <:+ tokens)
    (hlength : rest.length = rest'.length) :
    rest = rest' :=
  (List.suffix_of_suffix_length_le h h' (Nat.le_of_eq hlength)).eq_of_length hlength

/-- Readers of the same tokens that follow each other have the same result. -/
theorem Follows.result_eq
    {α γ : Type} {view : α → γ} (hview : ∀ value value', view value' = view value → value' = value)
    {least least' : Nat} {rise rise' : Int} {loose loose' : Bool} {tokens : List Token}
    {result result' : Except ParseFailure (α × List Token)}
    (h : Follows id [] least rise loose view tokens result result')
    (h' : Took least' rise' loose' tokens result') :
    result' = result := by
  have hrest : ∀ {rest rest' : List Token}, rest <:+ tokens → rest' <:+ tokens →
      Continues id [] rest rest' → rest' = rest := fun hsuffix hsuffix' hcontinues =>
    eq_of_suffix hsuffix' hsuffix hcontinues.length_eq
  cases result with
  | ok read =>
    obtain ⟨value, rest⟩ := read
    obtain ⟨value', rest', rfl, hvalue, hcontinues⟩ := h.value value rest rfl (.inl rfl)
    rw [hview value value' hvalue,
      hrest (h.took.suffix value rest rfl) (h'.suffix value' rest' rfl) hcontinues]
  | error failure =>
    obtain ⟨⟨fault', left'⟩, rfl, hfault, hcontinues⟩ := h.failure rfl failure rfl
    obtain ⟨fault, left⟩ := failure
    obtain rfl : fault' = fault := hfault
    obtain rfl : left' = left :=
      hrest (h.took.remaining _ rfl) (h'.remaining _ rfl) hcontinues
    rfl

theorem statement_eq_of_mapDocs
    (statement statement' : Statement) (h : statement'.mapDocs id = statement.mapDocs id) :
    statement' = statement := by
  rwa [Statement.mapDocs_id, Statement.mapDocs_id] at h

theorem statements_eq_of_mapDocs
    (statements statements' : List Statement)
    (h : statements'.map (Statement.mapDocs id) = statements.map (Statement.mapDocs id)) :
    statements' = statements := by
  rwa [map_eq_self Statement.mapDocs_id, map_eq_self Statement.mapDocs_id] at h

/-- The statement that comes first, and the tokens behind it. -/
def Statement.first (tokens : List Token) : Except ParseFailure (Statement × List Token) :=
  Parse.statement (Parse.typeWithin (tokens.length + 1)) tokens

theorem Statement.first_follows
    {keep : DocsMap} {behind : List Token} {token token' : Token} {rest rest' : List Token}
    (h : Continues keep behind (token :: rest) (token' :: rest')) {depth : Nat}
    (hdepth : rest.length < depth) :
    Follows keep behind 1 (token :: rest).length true (Statement.mapDocs keep) (token :: rest)
      (Statement.first (token :: rest))
      (Parse.statement (Parse.typeWithin depth) (token' :: rest')) := by
  have hsize : rest.length + 1 ≤ (token :: rest).length + 1 := Nat.le_succ _
  exact Parse.statement_follows (Parse.typeWithin_follows keep behind hsize hdepth)
    (Nat.lt_succ_self rest.length) h

/-- How deep types may nest and how many statements there may be does not matter, as long as the
budgets exceed the tokens. -/
theorem Parse.statementsWithin_eq_wholeFile
    {tokens : List Token} {depth steps : Nat} (hdepth : tokens.length ≤ depth)
    (hsteps : tokens.length < steps) :
    statementsWithin (typeWithin depth) steps tokens = wholeFile tokens.length tokens := by
  have hrefl := Continues.refl id tokens
  have hfollows := statementsWithin_follows (typeWithin_follows id [] (Nat.le_succ tokens.length)
    hdepth) (Nat.le_refl _) hrefl (Nat.lt_succ_self _) hsteps
  have htook := statementsWithin_follows (typeWithin_follows id [] hdepth hdepth) (Nat.le_refl _)
    hrefl hsteps hsteps
  exact hfollows.result_eq statements_eq_of_mapDocs htook.took

theorem Statement.listOfTokens_semicolon
    (lead : Lead) (rest : List Token) :
    Statement.listOfTokens (⟨.punct ";", lead⟩ :: rest) = Statement.listOfTokens rest := by
  have hdepth : rest.length ≤ (⟨.punct ";", lead⟩ :: rest : List Token).length + 1 :=
    Nat.le_add_right _ 2
  have hsteps : rest.length < (⟨.punct ";", lead⟩ :: rest : List Token).length :=
    Nat.lt_succ_self _
  have hread : Parse.wholeFile (⟨.punct ";", lead⟩ :: rest : List Token).length
      (⟨.punct ";", lead⟩ :: rest) = Parse.wholeFile rest.length rest := by
    rw [← Parse.statementsWithin_eq_wholeFile hdepth hsteps, Parse.wholeFile,
      Parse.statementsWithin]
    simp
  rw [Statement.listOfTokens_eq, Statement.listOfTokens_eq, hread]

theorem Statement.listOfTokens_statement
    {tokens : List Token} (hstart : markAt tokens 0 ";" = false) (hne : tokens ≠ []) :
    Statement.listOfTokens tokens = (Statement.first tokens).bind fun read =>
      (Statement.listOfTokens read.2).map (read.1 :: ·) := by
  have hunfold : Parse.wholeFile tokens.length tokens =
      (Statement.first tokens).bind fun read =>
        (Parse.statementsWithin (Parse.typeWithin (tokens.length + 1)) tokens.length read.2).bind
          fun more => .ok (read.1 :: more.1, more.2) := by
    rw [Parse.wholeFile, Parse.statementsWithin, Statement.first]
    simp [hne, Parse.run_eat_of_false hstart]
  rw [Statement.listOfTokens_eq, hunfold]
  cases hread : Statement.first tokens with
  | error failure => rfl
  | ok read =>
    obtain ⟨statement, rest⟩ := read
    have hlength : rest.length + 1 ≤ tokens.length := by
      obtain ⟨token, more, rfl⟩ := List.exists_cons_of_ne_nil hne
      have hrefl := Continues.refl id (token :: more)
      exact (Statement.first_follows hrefl (Nat.lt_succ_self _)).took.length statement rest hread
    simp only [Parse.ok_bind]
    rw [Parse.statementsWithin_eq_wholeFile (by omega) hlength, Statement.listOfTokens_eq]
    cases Parse.wholeFile rest.length rest <;> rfl

/-- Tokens that do not start with a semicolon spell a first statement and others behind it. -/
theorem Statement.listOfTokens_eq_ok
    {tokens : List Token} {statements : List Statement} (hstart : markAt tokens 0 ";" = false)
    (hne : tokens ≠ []) (hread : Statement.listOfTokens tokens = .ok statements) :
    ∃ statement rest more, Statement.first tokens = .ok (statement, rest) ∧
      Statement.listOfTokens rest = .ok more ∧ statements = statement :: more := by
  rw [Statement.listOfTokens_statement hstart hne] at hread
  obtain ⟨⟨statement, rest⟩, hfirst, hothers⟩ := Parse.bind_eq_ok hread
  obtain ⟨more, hmore, rfl⟩ := Parse.map_eq_ok hothers
  exact ⟨statement, rest, more, hfirst, hmore, rfl⟩

/-- Tokens that go on alike to the end spell the same statements. -/
theorem Statement.listOfTokens_of_continues
    {tokens tokens' : List Token} (h : Continues id [] tokens tokens')
    {statements : List Statement} (hread : Statement.listOfTokens tokens = .ok statements) :
    Statement.listOfTokens tokens' = .ok statements := by
  have hfollows := Parse.wholeFile_follows h (Nat.le_refl _) (Nat.le_of_eq h.length_eq.symm)
  rw [Statement.listOfTokens_eq] at hread ⊢
  obtain ⟨⟨found, rest⟩, hfile, rfl⟩ := Parse.map_eq_ok hread
  obtain ⟨found', rest', hfile', hview, -⟩ := hfollows.value found rest hfile (.inl rfl)
  obtain rfl := statements_eq_of_mapDocs _ _ hview
  rw [hfile']
  rfl

section Lead

variable {lead lead' : Lead}

theorem lexemeAt?_lead
    (lead lead' : Lead) (lexeme : Lexeme) (rest : List Token) :
    lexemeAt? (⟨lexeme, lead'⟩ :: rest) = lexemeAt? (⟨lexeme, lead⟩ :: rest) := by
  funext offset
  cases offset <;> rfl

theorem declarationAhead?_lead
    (lead lead' : Lead) (lexeme : Lexeme) (rest : List Token) :
    declarationAhead? (⟨lexeme, lead'⟩ :: rest) = declarationAhead? (⟨lexeme, lead⟩ :: rest) := by
  have hnext := lexemeAt?_lead lead lead' lexeme rest
  have hcount : modifierCount (⟨lexeme, lead'⟩ :: rest) = modifierCount (⟨lexeme, lead⟩ :: rest) :=
    rfl
  have hword : wordAt (⟨lexeme, lead'⟩ :: rest) = wordAt (⟨lexeme, lead⟩ :: rest) := by
    funext offset word
    rw [wordAt, hnext, wordAt]
  have hname : identAt (⟨lexeme, lead'⟩ :: rest) = identAt (⟨lexeme, lead⟩ :: rest) := by
    funext offset
    rw [identAt, nameAt?, hnext, identAt, nameAt?]
  have hmark : markAt (⟨lexeme, lead'⟩ :: rest) = markAt (⟨lexeme, lead⟩ :: rest) := by
    funext offset mark
    rw [markAt, hnext, markAt]
  simp only [declarationAhead?, hcount, hword, hname, hmark]

theorem skipStatement_lead
    (lead lead' : Lead) (lexeme : Lexeme) (rest : List Token) :
    skipStatement (⟨lexeme, lead'⟩ :: rest) = skipStatement (⟨lexeme, lead⟩ :: rest) := by
  have hscope : opensScope (⟨lexeme, lead'⟩ :: rest) = opensScope (⟨lexeme, lead⟩ :: rest) := by
    rw [opensScope, lexemeAt?_lead lead lead']
    rfl
  rw [skipStatement, hscope]
  rfl

theorem Parse.statement_lead
    (type : TypeReader) (hdocs : lead'.docs = lead.docs) (lexeme : Lexeme) (rest : List Token) :
    statement type (⟨lexeme, lead'⟩ :: rest) = statement type (⟨lexeme, lead⟩ :: rest) := by
  have hahead' := declarationAhead?_lead lead lead' lexeme rest
  have hdocumented : documentation (⟨lexeme, lead'⟩ :: rest) =
      documentation (⟨lexeme, lead⟩ :: rest) :=
    documentation_lead hdocs lexeme rest
  cases hahead : declarationAhead? (⟨lexeme, lead⟩ :: rest) with
  | none =>
    rw [statement_of_other type hahead, statement_of_other type (hahead'.trans hahead),
      skipStatement_lead lead lead']
    rfl
  | some found =>
    obtain ⟨kind, modifiers⟩ := found
    rw [statement_of_declaration type hahead, statement_of_declaration type (hahead'.trans hahead),
      hdocumented]
    cases modifiers with
    | succ modifiers => rfl
    | zero => cases kind <;> rfl

/-- Whether the first token stands on a new line does not matter. -/
theorem Statement.listOfTokens_lead
    (hdocs : lead'.docs = lead.docs) (lexeme : Lexeme) (rest : List Token) :
    Statement.listOfTokens (⟨lexeme, lead'⟩ :: rest) =
      Statement.listOfTokens (⟨lexeme, lead⟩ :: rest) := by
  by_cases hsemicolon : lexeme = .punct ";"
  · subst hsemicolon
    rw [Statement.listOfTokens_semicolon, Statement.listOfTokens_semicolon]
  · have hstart : ∀ lead, markAt (⟨lexeme, lead⟩ :: rest) 0 ";" = false := by
      simp [markAt, hsemicolon]
    rw [Statement.listOfTokens_statement (hstart lead') (List.cons_ne_nil _ _),
      Statement.listOfTokens_statement (hstart lead) (List.cons_ne_nil _ _), Statement.first,
      Parse.statement_lead _ hdocs]
    rfl

end Lead

/-! ## Statements that close themselves -/

/-- The statement, which took all of the tokens, ended with a mark of its own: the brace of an
interface, the semicolon behind an alias, or the semicolon that ends a skipped statement outside of
its brackets. -/
inductive ClosesItself (tokens : List Token) : Statement → Prop
  | interface {declaration : Interface} : ClosesItself tokens (.interface declaration)
  | typeAlias {declaration : Alias} {last : Token} (hlast : last ∈ tokens.getLast?)
      (hsemicolon : last.lexeme = .punct ";") :
    ClosesItself tokens (.alias declaration)
  | skipped {keyword : Option String} {front : List Token} {lead : Lead}
      (htokens : tokens = front ++ [⟨.punct ";", lead⟩])
      (hdepth : (front.map Token.lexeme).foldlM depthBehind? 0 = some 0) :
    ClosesItself tokens (.other keyword)

/-- Reading the tokens statement by statement ends behind a semicolon between statements, or with a
statement that closes itself. -/
inductive EndsClosed : List Token → Prop
  | semicolon {lead : Lead} : EndsClosed [⟨.punct ";", lead⟩]
  | closing {tokens : List Token} {statement : Statement} (hstart : markAt tokens 0 ";" = false)
      (hread : Statement.first tokens = .ok (statement, []))
      (hclosed : ClosesItself tokens statement) :
    EndsClosed tokens
  | behindSemicolon {lead : Lead} {rest : List Token} (hrest : EndsClosed rest) :
    EndsClosed (⟨.punct ";", lead⟩ :: rest)
  | behindStatement {tokens rest : List Token} {statement : Statement}
      (hstart : markAt tokens 0 ";" = false)
      (hread : Statement.first tokens = .ok (statement, rest)) (hrest : EndsClosed rest) :
    EndsClosed tokens

section Closing

variable {behind tokens : List Token}

theorem first_nil :
    Statement.first [] = .ok (.other none, []) :=
  rfl

theorem EndsClosed.ne_nil
    (h : EndsClosed tokens) :
    tokens ≠ [] := by
  induction h with
  | semicolon | behindSemicolon => exact List.cons_ne_nil _ _
  | @closing tokens statement hstart hread hclosed =>
    rintro rfl
    rw [first_nil] at hread
    obtain rfl : Statement.other none = statement := (Prod.mk.inj (Except.ok.inj hread)).1
    cases hclosed with
    | skipped htokens => simp at htokens
  | @behindStatement tokens rest statement hstart hread hrest ih =>
    rintro rfl
    rw [first_nil] at hread
    exact ih (Prod.mk.inj (Except.ok.inj hread)).2.symm

/-- A reader that leaves one token leaves the same one in front of what stands behind. -/
theorem Follows.leaves
    {α γ : Type} {keep : DocsMap} {view : α → γ} {least : Nat} {rise : Int} {loose : Bool}
    {result result' : Except ParseFailure (α × List Token)} {value : α} {lexeme : Lexeme}
    {lead : Lead} (h : Follows keep behind least rise loose view tokens result result')
    (hread : result = .ok (value, [⟨lexeme, lead⟩])) :
    ∃ value' lead', result' = .ok (value', ⟨lexeme, lead'⟩ :: behind) ∧
      view value' = view value := by
  obtain ⟨value', left', hread', hview, hleft⟩ := h.value _ _ hread (live_cons _ _ _)
  obtain ⟨lead, lead', rest, rest', ⟨⟩, rfl, -, -, hrest⟩ :=
    hleft.exists_cons (lexemeAt?_cons_zero _ _)
  cases hrest
  exact ⟨value', lead', hread', hview⟩

theorem getLast?_of_suffix
    {last : Token} (h : [last] <:+ tokens) :
    tokens.getLast? = some last := by
  obtain ⟨front, rfl⟩ := h
  exact List.getLast?_concat

/-! ### Declarations -/

theorem openDeclaration_alias
    {type : TypeReader} {docs : Option Documentation} {declaration : Statement}
    {rest : List Token}
    (h : Parse.openDeclaration type docs .alias tokens = .ok (declaration, rest)) :
    ∃ found, declaration = .alias found := by
  rw [Parse.openDeclaration, Parse.run_map] at h
  obtain ⟨⟨found, left⟩, -, hread⟩ := Parse.bind_eq_ok h
  exact ⟨found, (Prod.mk.inj (Except.ok.inj hread)).1.symm⟩

/-- The mark that closes a declaration. -/
def finalMark : DeclarationKind → String
  | .interface => "\x7d"
  | .alias => ";"

theorem isFinal_finalMark
    (kind : DeclarationKind) :
    IsFinal (.punct (finalMark kind)) := by
  cases kind with
  | interface => exact .inr rfl
  | «alias» => exact .inl rfl

theorem run_closing
    {kind : DeclarationKind} (h : markAt tokens 0 (finalMark kind) = true) :
    Parse.closing kind tokens = .ok ((), tokens.drop 1) := by
  cases kind with
  | interface => exact Parse.run_expect h
  | «alias» =>
    rw [finalMark] at h
    simp [Parse.closing, Parse.run_eat_of_true h]

/-- The end of a declaration that takes all tokens is its mark, or nothing behind an alias. -/
theorem closing_eq_ok
    {kind : DeclarationKind} (h : Parse.closing kind tokens = .ok ((), [])) :
    (kind = .alias ∧ tokens = []) ∨ ∃ lead, tokens = [⟨.punct (finalMark kind), lead⟩] := by
  by_cases hmark : markAt tokens 0 (finalMark kind) = true
  · right
    rw [run_closing hmark] at h
    have hrest : tokens.drop 1 = [] := (Prod.mk.inj (Except.ok.inj h)).2
    match tokens with
    | [] => simp [markAt] at hmark
    | [⟨lexeme, lead⟩] =>
      obtain rfl := Option.some.inj (Parse.markAt_eq_true_iff.mp hmark)
      exact ⟨lead, rfl⟩
    | _ :: _ :: _ => cases hrest
  · left
    rw [Bool.not_eq_true] at hmark
    cases kind with
    | interface =>
      rw [finalMark] at hmark
      simp [Parse.closing, Parse.expect, hmark] at h
    | «alias» =>
      rw [finalMark] at hmark
      simp [Parse.closing, Parse.run_eat_of_false hmark] at h
      exact ⟨rfl, h⟩

theorem declaration_took
    {kind : DeclarationKind} {modifiers : Nat}
    (hahead : declarationAhead? tokens = some (kind, modifiers)) :
    Took 1 1 (kind == .interface) (tokens.drop modifiers)
      (Parse.openDeclaration (Parse.typeWithin (tokens.length + 1)) (Parse.documentation tokens)
        kind (tokens.drop modifiers)) :=
  have htype := Parse.typeWithin_follows id [] (Nat.le_succ tokens.length) (Nat.le_succ _)
  have hrefl := Continues.refl id tokens
  (Parse.declaration_follows htype (Nat.le_refl _) hrefl (.inl rfl) hahead).took

/-- A declaration that closes itself is read up to its mark. -/
theorem openDeclaration_of_first
    {kind : DeclarationKind} {modifiers : Nat} {statement : Statement}
    (hahead : declarationAhead? tokens = some (kind, modifiers))
    (hread : Statement.first tokens = .ok (statement, []))
    (hclosed : ClosesItself tokens statement) :
    ∃ lead, Parse.openDeclaration (Parse.typeWithin (tokens.length + 1))
        (Parse.documentation tokens) kind (tokens.drop modifiers) =
      .ok (statement, [⟨.punct (finalMark kind), lead⟩]) := by
  have htook := declaration_took hahead
  rw [Statement.first, Parse.statement_of_declaration _ hahead, Parse.run_bind] at hread
  obtain ⟨⟨declaration, left⟩, hopen, hread⟩ := Parse.bind_eq_ok hread
  rw [Parse.run_bind] at hread
  obtain ⟨⟨⟨⟩, behind⟩, hclosing, hread⟩ := Parse.bind_eq_ok hread
  obtain ⟨rfl, rfl⟩ := Prod.mk.inj (Except.ok.inj hread)
  obtain ⟨rfl, rfl⟩ | ⟨lead, rfl⟩ := closing_eq_ok hclosing
  · -- Without a mark the alias would have taken a semicolon, and no type ends with one.
    obtain ⟨found, rfl⟩ := openDeclaration_alias hopen
    cases hclosed with
    | @typeAlias _ last hlast hsemicolon =>
      have hlength := htook.length _ _ hopen
      have hdrop : (tokens.drop modifiers).getLast? = some last := by
        rw [List.length_drop, List.length_nil] at hlength
        rw [List.getLast?_drop, if_neg (by omega)]
        exact hlast
      exact absurd hsemicolon (htook.last rfl _ hopen last hdrop)
  · exact ⟨lead, hopen⟩

theorem declaration_append
    {kind : DeclarationKind} {modifiers : Nat} {statement : Statement}
    (hahead : declarationAhead? tokens = some (kind, modifiers))
    (hread : Statement.first tokens = .ok (statement, []))
    (hclosed : ClosesItself tokens statement) :
    (∀ last ∈ tokens.getLast?, IsFinal last.lexeme) ∧
      ∀ behind, Statement.first (tokens ++ behind) = .ok (statement, behind) := by
  obtain ⟨lead, hopen⟩ := openDeclaration_of_first hahead hread hclosed
  have hsuffix := (declaration_took hahead).suffix _ _ hopen
  have hlast : tokens.getLast? = some ⟨.punct (finalMark kind), lead⟩ :=
    getLast?_of_suffix (hsuffix.trans (List.drop_suffix _ _))
  have hfinal : ∀ last ∈ tokens.getLast?, IsFinal last.lexeme := by
    intro last hmem
    rw [hlast] at hmem
    obtain rfl := Option.some.inj hmem
    exact isFinal_finalMark kind
  refine ⟨hfinal, fun behind => ?_⟩
  have hcontinues := Continues.append id behind hfinal
  have hlive : Live behind tokens := by
    refine .inr ?_
    rintro rfl
    simp at hlast
  have hahead' := (hcontinues.declarationAhead?_eq hlive).trans hahead
  have hsize : tokens.length ≤ (tokens ++ behind).length + 1 := by
    rw [List.length_append]
    omega
  obtain ⟨statement', lead', hopen', hview⟩ := (Parse.declaration_follows
    (Parse.typeWithin_follows id behind (Nat.le_succ tokens.length) hsize) (Nat.le_refl _)
    hcontinues hlive hahead).leaves hopen
  obtain rfl := statement_eq_of_mapDocs _ _ hview
  -- The mark that was the last token is taken in front of `behind` as well.
  rw [Statement.first, Parse.statement_of_declaration _ hahead', Parse.run_bind, hopen',
    Parse.ok_bind, Parse.run_bind, run_closing (by simp)]
  rfl

/-! ### Skipped statements -/

theorem isFinal_getLast?_semicolon
    (front : List Token) (lead : Lead) :
    ∀ last ∈ (front ++ [⟨.punct ";", lead⟩] : List Token).getLast?, IsFinal last.lexeme := by
  intro last hlast
  rw [List.getLast?_concat] at hlast
  obtain rfl := Option.some.inj hlast
  exact .inl rfl

/-- Skipping starts with the token in front, and what the tokens behind the semicolon are does not
show there. -/
theorem continues_semicolon
    (token : Token) (front : List Token) (lead : Lead) (behind : List Token) :
    Continues id behind (token :: (front ++ [⟨.punct ";", lead⟩]))
      (token :: (front ++ ⟨.punct ";", lead⟩ :: behind)) := by
  have happend := Continues.append id behind (isFinal_getLast?_semicolon (token :: front) lead)
  rwa [List.append_assoc, List.singleton_append] at happend

theorem skipFrom_append
    {inScope : Bool} {lead : Lead} {front : List Token} {depth : Nat} (behind : List Token)
    (hdepth : (front.map Token.lexeme).foldlM depthBehind? depth = some 0)
    (hskip : skipFrom inScope depth (front ++ [⟨.punct ";", lead⟩]) = []) :
    skipFrom inScope depth (front ++ ⟨.punct ";", lead⟩ :: behind) = behind := by
  induction front generalizing depth with
  | nil =>
    obtain rfl : depth = 0 := Option.some.inj hdepth
    simp [skipFrom, resumesAt, identAt, nameAt?, depthBehind?, opens, closerOf?, closes]
  | cons token front ih =>
    have hresume := (continues_semicolon token front lead behind).resumesAt_eq (live_cons _ _ _)
      inScope depth
    rw [List.cons_append, skipFrom] at hskip
    split at hskip
    · cases hskip
    · rw [List.cons_append, skipFrom, hresume, if_neg ‹_›]
      rw [List.map_cons, List.foldlM_cons] at hdepth
      cases hnext : depthBehind? depth token.lexeme with
      | none =>
        rw [hnext] at hdepth
        cases hdepth
      | some depth' =>
        rw [hnext] at hdepth hskip
        exact ih hdepth hskip

theorem skipStatement_append
    {lead : Lead} {front : List Token} (behind : List Token)
    (hdepth : (front.map Token.lexeme).foldlM depthBehind? 0 = some 0)
    (hskip : skipStatement (front ++ [⟨.punct ";", lead⟩]) = []) :
    skipStatement (front ++ ⟨.punct ";", lead⟩ :: behind) = behind := by
  cases front with
  | nil => simp [skipStatement, depthBehind?, opens, closerOf?, closes]
  | cons token front =>
    have hscope := (continues_semicolon token front lead behind).opensScope_eq (live_cons _ _ _)
    simp only [List.cons_append, skipStatement] at hskip ⊢
    rw [List.map_cons, List.foldlM_cons] at hdepth
    cases hnext : depthBehind? 0 token.lexeme with
    | none =>
      rw [hnext] at hdepth
      cases hdepth
    | some depth =>
      rw [hnext] at hdepth hskip
      rw [hscope]
      exact skipFrom_append behind hdepth hskip

/-- A statement that closes itself is read the same in front of whatever stands behind. -/
theorem closing_append
    {statement : Statement} (hread : Statement.first tokens = .ok (statement, []))
    (hclosed : ClosesItself tokens statement) :
    (∀ last ∈ tokens.getLast?, IsFinal last.lexeme) ∧
      ∀ behind, Statement.first (tokens ++ behind) = .ok (statement, behind) := by
  cases hahead : declarationAhead? tokens with
  | some found => exact declaration_append hahead hread hclosed
  | none =>
    rw [Statement.first, Parse.statement_of_other _ hahead] at hread
    obtain ⟨rfl, hskip⟩ := Prod.mk.inj (Except.ok.inj hread)
    cases hclosed with
    | @skipped _ front lead htokens hdepth =>
      subst htokens
      have hfinal := isFinal_getLast?_semicolon front lead
      refine ⟨hfinal, fun behind => ?_⟩
      have hcontinues := Continues.append id behind hfinal
      have hlive : Live behind (front ++ [⟨.punct ";", lead⟩] : List Token) := .inr (by simp)
      have hahead' := (hcontinues.declarationAhead?_eq hlive).trans hahead
      have hname := hcontinues.lexemeAt?_zero hlive
      rw [Statement.first, Parse.statement_of_other _ hahead', nameAt?, hname, List.append_assoc,
        List.singleton_append, skipStatement_append behind hdepth hskip]
      rfl

theorem first_suffix
    {statement : Statement} {rest : List Token}
    (hread : Statement.first tokens = .ok (statement, rest)) :
    rest <:+ tokens := by
  cases tokens with
  | nil =>
    rw [first_nil] at hread
    obtain ⟨-, rfl⟩ := Prod.mk.inj (Except.ok.inj hread)
    exact List.suffix_rfl
  | cons token more =>
    exact (Statement.first_follows (Continues.refl id (token :: more))
      (Nat.lt_succ_self _)).took.suffix _ _ hread

/-- Where tokens are left, the first statement leaves them in front of whatever stands behind. -/
theorem first_append
    {statement : Statement} {rest : List Token}
    (hfinal : ∀ last ∈ tokens.getLast?, IsFinal last.lexeme)
    (hread : Statement.first tokens = .ok (statement, rest)) (hrest : rest ≠ []) :
    Statement.first (tokens ++ behind) = .ok (statement, rest ++ behind) := by
  cases tokens with
  | nil =>
    rw [first_nil] at hread
    exact absurd (Prod.mk.inj (Except.ok.inj hread)).2.symm hrest
  | cons token more =>
    have happend : Continues id behind (token :: more) (token :: (more ++ behind)) :=
      Continues.append id behind hfinal
    have hdepth : more.length < (token :: (more ++ behind)).length + 1 := by
      rw [List.length_cons, List.length_append]
      omega
    obtain ⟨statement', rest', hread', hview, hcontinues⟩ :=
      (Statement.first_follows happend hdepth).value statement rest hread (.inr hrest)
    obtain rfl := statement_eq_of_mapDocs _ _ hview
    rw [← Statement.first] at hread'
    have hsuffix := first_suffix hread'
    have hsuffix' : rest ++ behind <:+ token :: (more ++ behind) := by
      obtain ⟨front, hfront⟩ := first_suffix hread
      exact ⟨front, by rw [← List.append_assoc, hfront, List.cons_append]⟩
    have hlength : rest'.length = (rest ++ behind).length := by
      rw [hcontinues.length_eq, List.length_append]
    rw [List.cons_append, hread', eq_of_suffix hsuffix hsuffix' hlength]

/-! ## Lists of statements -/

theorem EndsClosed.isFinal
    (h : EndsClosed tokens) :
    ∀ last ∈ tokens.getLast?, IsFinal last.lexeme := by
  induction h with
  | @semicolon lead => exact isFinal_getLast?_semicolon [] lead
  | closing _ hread hclosed => exact (closing_append hread hclosed).1
  | @behindSemicolon lead rest hrest ih =>
    rwa [← List.singleton_append, List.getLast?_append_of_ne_nil _ hrest.ne_nil]
  | behindStatement _ hread hrest ih =>
    obtain ⟨front, rfl⟩ := first_suffix hread
    rwa [List.getLast?_append_of_ne_nil _ hrest.ne_nil]

/-- What ends closed is read as if nothing stood behind, and what stands behind as if it stood
alone. -/
theorem EndsClosed.listOfTokens_append
    (h : EndsClosed tokens) (behind : List Token) {statements : List Statement}
    (hread : Statement.listOfTokens tokens = .ok statements) :
    Statement.listOfTokens (tokens ++ behind) =
      (Statement.listOfTokens behind).map (statements ++ ·) := by
  have hbehind : ∀ {tokens : List Token}, tokens ≠ [] → markAt tokens 0 ";" = false →
      Statement.listOfTokens (tokens ++ behind) = (Statement.first (tokens ++ behind)).bind
        fun read => (Statement.listOfTokens read.2).map (read.1 :: ·) := by
    intro tokens hne hstart
    obtain ⟨token, more, rfl⟩ := List.exists_cons_of_ne_nil hne
    exact Statement.listOfTokens_statement hstart (List.cons_ne_nil _ _)
  have hmap : ∀ first (more : List Statement) (read : Except ParseFailure (List Statement)),
      (read.map (more ++ ·)).map (first :: ·) = read.map (first :: more ++ ·) := by
    rintro first more (_ | _) <;> rfl
  induction h generalizing statements with
  | semicolon =>
    rw [Statement.listOfTokens_semicolon] at hread
    obtain rfl : [] = statements := Except.ok.inj hread
    rw [List.singleton_append, Statement.listOfTokens_semicolon]
    cases Statement.listOfTokens behind <;> rfl
  | behindSemicolon _ ih =>
    rw [Statement.listOfTokens_semicolon] at hread
    rw [List.cons_append, Statement.listOfTokens_semicolon]
    exact ih hread
  | @closing tokens statement hstart hfirst hclosed =>
    have hne := (EndsClosed.closing hstart hfirst hclosed).ne_nil
    rw [Statement.listOfTokens_statement hstart hne, hfirst] at hread
    obtain rfl : [statement] = statements := Except.ok.inj hread
    rw [hbehind hne hstart, (closing_append hfirst hclosed).2 behind]
    rfl
  | @behindStatement tokens rest statement hstart hfirst hrest ih =>
    have hclosed := EndsClosed.behindStatement hstart hfirst hrest
    have hne := hclosed.ne_nil
    obtain ⟨_, _, more, hfirst', hmore, rfl⟩ := Statement.listOfTokens_eq_ok hstart hne hread
    obtain ⟨rfl, rfl⟩ := Prod.mk.inj (Except.ok.inj (hfirst.symm.trans hfirst'))
    rw [hbehind hne hstart, first_append hclosed.isFinal hfirst hrest.ne_nil, Parse.ok_bind,
      ih hmore, hmap]

end Closing

/-! ## Texts -/

theorem alike_of_sameToken
    {token token' : Token} (h : SameToken token token') :
    Alike id token token' :=
  ⟨h.lexeme, h.newline, by rw [h.docs]⟩

/-- Moved tokens spell the same statements. -/
theorem Statement.listOfTokens_of_moved
    {tokens tokens' : List Token} {statements : List Statement} (h : Moved tokens tokens')
    (hread : Statement.listOfTokens tokens = .ok statements) :
    Statement.listOfTokens tokens' = .ok statements := by
  cases h with
  | nil => exact hread
  | @cons token token' rest rest' hlexeme hdocs hrest =>
    obtain ⟨lexeme, lead⟩ := token
    obtain ⟨lexeme', lead'⟩ := token'
    obtain rfl : lexeme' = lexeme := hlexeme
    have hcontinues : Continues id [] (⟨lexeme', lead⟩ :: rest) (⟨lexeme', lead⟩ :: rest') :=
      .of_forall₂ (.cons (.refl id _) (hrest.imp fun _ _ => alike_of_sameToken))
    rw [Statement.listOfTokens_lead hdocs]
    exact Statement.listOfTokens_of_continues hcontinues hread

/-- Behind a mark that may end a declaration a slash starts a regular expression, as it does at the
start of a text. -/
theorem regexAllowedAfter_lastLexeme
    {tokens : List Token} (hclosed : tokens = [] ∨ EndsClosed tokens) :
    Source.regexAllowedAfter (Source.lastLexeme none tokens) = true := by
  obtain rfl | hclosed := hclosed
  · rfl
  · cases hlast : tokens.getLast? with
    | none => exact absurd (List.getLast?_eq_none_iff.mp hlast) hclosed.ne_nil
    | some last =>
      rw [Source.lastLexeme, hlast, Option.map_some, Option.some_or]
      obtain hmark | hmark := hclosed.isFinal last hlast
      · rw [hmark]
        decide
      · rw [hmark]
        decide

theorem statements_of_ofText
    {name text : String} {stream : TokenStream} {file : SourceFile}
    (hstream : TokenStream.ofText text = .ok stream)
    (hfile : SourceFile.ofText name text = .ok file) :
    Statement.listOfTokens stream.tokens = .ok file.statements := by
  rw [SourceFile.ofText_eq hstream] at hfile
  cases hread : Statement.listOfTokens stream.tokens with
  | error failure =>
    rw [hread] at hfile
    cases hfile
  | ok statements =>
    rw [hread] at hfile
    obtain rfl : ⟨name, statements⟩ = file := Except.ok.inj hfile
    rfl

/-- Two texts with a line break between them spell the statements of both. -/
theorem SourceFile.ofText_append
    {name name' text text' : String} {stream : TokenStream} {file file' : SourceFile}
    (hstream : TokenStream.ofText text = .ok stream)
    (hfile : SourceFile.ofText name text = .ok file)
    (hfile' : SourceFile.ofText name' text' = .ok file') (hdocs : stream.ending.docs = [])
    (hclosed : stream.tokens = [] ∨ EndsClosed stream.tokens) (whole : String) :
    SourceFile.ofText whole (text ++ "\n" ++ text') =
      .ok ⟨whole, file.statements ++ file'.statements⟩ := by
  cases hstream' : TokenStream.ofText text' with
  | error e =>
    simp only [SourceFile.ofText, hstream'] at hfile'
    cases hfile'
  | ok stream' =>
    have hread := statements_of_ofText hstream hfile
    have hread' := statements_of_ofText hstream' hfile'
    obtain ⟨tokens, tokens', ending, htokens, hsame, hmoved⟩ :=
      TokenStream.ofText_append hstream hstream' hdocs (regexAllowedAfter_lastLexeme hclosed)
    have hbehind := Statement.listOfTokens_of_moved hmoved hread'
    have happend : Statement.listOfTokens (stream.tokens ++ tokens') =
        .ok (file.statements ++ file'.statements) := by
      obtain hempty | hclosed := hclosed
      · rw [hempty] at hread ⊢
        obtain hnone : [] = file.statements := Except.ok.inj hread
        rw [← hnone]
        exact hbehind
      · rw [hclosed.listOfTokens_append _ hread, hbehind]
        rfl
    have hcontinues : Continues id [] (stream.tokens ++ tokens') (tokens ++ tokens') :=
      .of_forall₂ (List.rel_append (hsame.imp fun _ _ => alike_of_sameToken)
        (List.forall₂_same.mpr fun token _ => .refl id token))
    rw [SourceFile.ofText_eq htokens, Statement.listOfTokens_of_continues hcontinues happend]
    rfl

end EntityDiagram.Declaration
