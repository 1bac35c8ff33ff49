import EntityDiagram.Proofs.Declaration.TypeFollowing

/-!
# Statements follow each other
-/

namespace EntityDiagram.Declaration

open Source (Lead Lexeme SourceError Token TokenStream)

/-! ## What starts at the next token -/

/-- The declaration whose keyword comes next. -/
def keywordAhead? (tokens : List Token) : Option DeclarationKind :=
  if wordAt tokens 0 "interface" && identAt tokens 1 then some .interface
  else if wordAt tokens 0 "type" && identAt tokens 1 &&
      (markAt tokens 2 "=" || markAt tokens 2 "<") then some .alias
  else none

theorem declarationAhead?_eq_map
    (tokens : List Token) :
    declarationAhead? tokens =
      (keywordAhead? (tokens.drop (modifierCount tokens))).map (·, modifierCount tokens) := by
  generalize hcount : modifierCount tokens = count
  have hnext : ∀ offset,
      lexemeAt? (tokens.drop count) offset = lexemeAt? tokens (count + offset) := by
    simp [lexemeAt?]
  have hword : ∀ word, wordAt (tokens.drop count) 0 word = wordAt tokens count word := fun _ => by
    rw [wordAt, hnext, Nat.add_zero, wordAt]
  have hname : identAt (tokens.drop count) 1 = identAt tokens (count + 1) := by
    rw [identAt, nameAt?, hnext, identAt, nameAt?]
  have hmark : ∀ mark, markAt (tokens.drop count) 2 mark = markAt tokens (count + 2) mark :=
    fun _ => by rw [markAt, hnext, markAt]
  simp only [declarationAhead?, hcount, keywordAhead?, hword, hname, hmark,
    apply_ite (Option.map _), Option.map_some, Option.map_none]

theorem identAt_of_lt_modifierCount
    (tokens : List Token) :
    ∀ offset < modifierCount tokens, identAt tokens offset = true := by
  intro offset h
  induction tokens generalizing offset with
  | nil => simp [modifierCount] at h
  | cons token rest ih =>
    obtain ⟨lexeme, lead⟩ := token
    cases lexeme with
    | ident name =>
      cases offset with
      | zero => rfl
      | succ offset =>
        refine ih offset ?_
        simp only [modifierCount] at h
        split at h <;> omega
    | _ => simp [modifierCount] at h

namespace Continues

variable {keep : DocsMap} {behind tokens tokens' : List Token}

/-- Behind names the lists still go on alike. -/
theorem drop
    (h : Continues keep behind tokens tokens') (hlive : Live behind tokens) {count : Nat}
    (hcount : ∀ offset < count, identAt tokens offset = true) :
    Live behind (tokens.drop count) ∧
      Continues keep behind (tokens.drop count) (tokens'.drop count) := by
  induction count generalizing tokens tokens' with
  | zero => exact ⟨hlive, h⟩
  | succ count ih =>
    obtain ⟨name, hname⟩ := Parse.identAt_iff.mp (hcount 0 (Nat.succ_pos _))
    obtain ⟨lead, lead', rest, rest', rfl, rfl, -, hopen, hrest⟩ := h.exists_cons hname
    exact ih hrest (hopen (by simp [IsFinal])) fun offset hoffset =>
      hcount (offset + 1) (Nat.succ_lt_succ hoffset)

theorem modifierCount_eq
    (h : Continues keep behind tokens tokens') (hlive : Live behind tokens) :
    modifierCount tokens' = modifierCount tokens := by
  induction h with
  | ending =>
    obtain rfl | hne := hlive
    · rfl
    · exact absurd rfl hne
  | @token token token' rest rest' halike hfinal hrest ih =>
    obtain ⟨lexeme, lead⟩ := token
    obtain ⟨lexeme', lead'⟩ := token'
    obtain rfl : lexeme' = lexeme := halike.lexeme
    cases lexeme' with
    | ident name =>
      simp only [modifierCount]
      rw [ih ((Continues.token halike hfinal hrest).live_rest (by simp [IsFinal]))]
    | _ => rfl

theorem keywordAhead?_eq
    (h : Continues keep behind tokens tokens') (hlive : Live behind tokens) :
    keywordAhead? tokens' = keywordAhead? tokens := by
  obtain ⟨hzero, ⟨_, hlexeme, rfl | rfl⟩ | ⟨hone, ⟨_, hlexeme, rfl | rfl⟩ | htwo⟩⟩ :=
    h.window hlive <;> simp [keywordAhead?, wordAt, identAt, nameAt?, markAt, *]

theorem declarationAhead?_eq
    (h : Continues keep behind tokens tokens') (hlive : Live behind tokens) :
    declarationAhead? tokens' = declarationAhead? tokens := by
  obtain ⟨hlive', hdrop⟩ := h.drop hlive (identAt_of_lt_modifierCount tokens)
  rw [declarationAhead?_eq_map, declarationAhead?_eq_map, h.modifierCount_eq hlive,
    hdrop.keywordAhead?_eq hlive']

theorem opensScope_eq
    (h : Continues keep behind tokens tokens') (hlive : Live behind tokens) :
    opensScope tokens' = opensScope tokens := by
  obtain ⟨hlive', hdrop⟩ := h.drop hlive (identAt_of_lt_modifierCount tokens)
  have hnext := hdrop.lexemeAt?_zero hlive'
  simp only [lexemeAt?, List.getElem?_drop, Nat.add_zero] at hnext
  simp only [opensScope, h.modifierCount_eq hlive, lexemeAt?, hnext]

theorem resumesAt_eq
    (h : Continues keep behind tokens tokens') (hlive : Live behind tokens) (inScope : Bool)
    (depth : Nat) :
    resumesAt inScope depth tokens' = resumesAt inScope depth tokens := by
  have hname : nameAt? tokens' 0 = nameAt? tokens 0 := by
    rw [nameAt?, h.lexemeAt?_zero hlive, nameAt?]
  simp only [resumesAt, identAt, oneOfAt, h.onNewLine_eq hlive, hname, h.declarationAhead?_eq hlive]

end Continues

/-- Names in front of what is read. -/
theorem Follows.words
    {α γ : Type} {keep : DocsMap} {behind tokens : List Token} {least : Nat} (rise : Int)
    {loose : Bool} {view : α → γ} {count : Nat}
    {result result' : Except ParseFailure (α × List Token)}
    (hcount : ∀ offset < count, identAt tokens offset = true)
    (h : Follows keep behind least rise loose view (tokens.drop count) result result') :
    Follows keep behind least rise loose view tokens result result' := by
  induction count generalizing tokens with
  | zero => exact h
  | succ count ih =>
    obtain ⟨name, hname⟩ := Parse.identAt_iff.mp (hcount 0 (Nat.succ_pos _))
    match tokens with
    | [] => simp at hname
    | ⟨lexeme, lead⟩ :: rest =>
      obtain rfl : lexeme = .ident name := Option.some.inj hname
      have hrest := ih (fun offset hoffset => hcount (offset + 1) (Nat.succ_lt_succ hoffset)) h
      exact .weaken (.word hrest) ⟨Nat.le_succ _, Int.le_refl _, id⟩

namespace Parse

variable {keep : DocsMap} {behind tokens tokens' : List Token} {bound : Nat}
  {type type' : TypeReader}

/-! ## Skipped statements -/

theorem skipFrom_suffix
    (inScope : Bool) (depth : Nat) (tokens : List Token) :
    skipFrom inScope depth tokens <:+ tokens := by
  induction tokens generalizing depth with
  | nil => exact List.suffix_rfl
  | cons token rest ih =>
    unfold skipFrom
    split
    · exact List.suffix_rfl
    · split
      · exact List.suffix_cons _ _
      · exact (ih _).trans (List.suffix_cons _ _)

/-- Skipping stops alike, unless it reaches the end in front of something. -/
theorem skipFrom_continues
    (inScope : Bool) {depth : Nat} (h : Continues keep behind tokens tokens')
    (hlive : Live behind (skipFrom inScope depth tokens)) :
    Continues keep behind (skipFrom inScope depth tokens) (skipFrom inScope depth tokens') := by
  induction h generalizing depth with
  | ending =>
    obtain rfl | hne := hlive
    · exact .ending
    · exact absurd rfl hne
  | @token token token' rest rest' halike hfinal hrest ih =>
    have hresume := (Continues.token halike hfinal hrest).resumesAt_eq (live_cons _ _ _) inScope
      depth
    unfold skipFrom at hlive ⊢
    rw [hresume, halike.lexeme]
    split
    · exact .token halike hfinal hrest
    · rw [if_neg ‹_›] at hlive
      cases hdepth : depthBehind? depth token.lexeme with
      | none => exact hrest
      | some depth' =>
        simp only [hdepth] at hlive
        exact ih hlive

theorem skipStatement_suffix
    (token : Token) (rest : List Token) :
    skipStatement (token :: rest) <:+ rest := by
  simp only [skipStatement]
  cases depthBehind? 0 token.lexeme with
  | none => exact List.suffix_rfl
  | some depth => exact skipFrom_suffix _ _ _

theorem skipStatement_continues
    {token token' : Token} {rest rest' : List Token}
    (h : Continues keep behind (token :: rest) (token' :: rest'))
    (hlive : Live behind (skipStatement (token :: rest))) :
    Continues keep behind (skipStatement (token :: rest)) (skipStatement (token' :: rest')) := by
  have hscope := h.opensScope_eq (live_cons _ _ _)
  have hlexeme := h.lexemeAt?_zero (live_cons _ _ _)
  simp only [lexemeAt?_cons_zero, Option.some.injEq] at hlexeme
  simp only [skipStatement, hscope, hlexeme] at hlive ⊢
  cases hdepth : depthBehind? 0 token.lexeme with
  | none => exact h.rest_of_cons
  | some depth =>
    simp only [hdepth] at hlive
    exact skipFrom_continues _ h.rest_of_cons hlive

theorem skipped_follows
    {token token' : Token} {rest rest' : List Token}
    (h : Continues keep behind (token :: rest) (token' :: rest')) :
    Follows keep behind 1 (token :: rest).length true id (token :: rest)
      ((set (skipStatement (token :: rest)) : Parse PUnit) (token :: rest))
      ((set (skipStatement (token' :: rest')) : Parse PUnit) (token' :: rest')) where
  took := by
    have hsuffix := skipStatement_suffix token rest
    refine ⟨?_, ?_, ?_, fun hloose => absurd hloose (by simp), ?_, ?_⟩
    · rintro _ _ ⟨⟩
      exact hsuffix.trans (List.suffix_cons _ _)
    · rintro _ _ ⟨⟩
      exact Nat.succ_le_succ hsuffix.length_le
    · rintro _ _ ⟨⟩ _
      exact balance_le_of_suffix (hsuffix.trans (List.suffix_cons _ _))
    · rintro _ ⟨⟩
    · rintro _ ⟨⟩
  value := by
    rintro _ _ ⟨⟩ hlive
    exact ⟨.unit, _, rfl, rfl, skipStatement_continues h hlive⟩
  failure := by
    rintro _ _ ⟨⟩

/-! ## Interfaces and aliases -/

theorem heritageEntry_follows
    (htype : TypesFollow keep behind bound type type') :
    ItemsFollow keep behind bound 1 false (Heritage.mapDocs keep) (heritageEntry type)
      (heritageEntry type') := by
  intro tokens tokens' hbound h
  refine .weaken (.bind (entityName_follows h) fun name name' _ _ hname hleft hlength =>
    .bind (typeArguments_follows htype (by omega) hleft)
      fun arguments arguments' _ _ harguments hrest _ => .pure ?_ hrest) (by decide)
  obtain rfl : name' = name := hname
  simp only [Heritage.mapDocs, harguments]

theorem heritage_follows
    (htype : TypesFollow keep behind bound type type') (hbound : tokens.length ≤ bound)
    (h : Continues keep behind tokens tokens') :
    Follows keep behind 0 0 false (List.map (Heritage.mapDocs keep)) tokens (heritage type tokens)
      (heritage type' tokens') :=
  ifEatWord_follows h (fun _ _ hlt hrest => .weaken (chain_follows (by decide) (by decide)
    (heritageEntry_follows htype) (by omega) hrest) (by decide)) (.pure rfl h)

/-- An interface without the brace that closes it. -/
def openInterface (type : TypeReader) (docs : Option Documentation) : Parse Interface := do
  skip 1
  let name ← ident
  let parameters ← typeParameters type
  let bases ← heritage type
  expect "\x7b"
  let tokens ← get
  let found ← membersWithin type (tokens.length + 1)
  return { name, members := found, heritage := bases, parameters, docs }

theorem openInterface_follows
    (htype : TypesFollow keep behind bound type type') {docs docs' : Option Documentation}
    (hdocs : keep docs' = keep docs) {word : String} {lead lead' : Lead} {rest rest' : List Token}
    (hbound : rest.length < bound) (hrest : Continues keep behind rest rest') :
    Follows keep behind 1 1 true (Interface.mapDocs keep) (⟨.ident word, lead⟩ :: rest)
      (openInterface type docs (⟨.ident word, lead⟩ :: rest))
      (openInterface type' docs' (⟨.ident word, lead'⟩ :: rest')) := by
  refine .weaken (.skipWord (.bind (ident_follows hrest) fun name name' _ _ hname hnamed hlength =>
    .bind (typeParameters_follows htype (by omega) hnamed)
      fun parameters parameters' _ _ hparameters hleft hlength₁ =>
    .bind (heritage_follows htype (by omega) hleft) fun bases bases' _ _ hbases hread hlength₂ =>
    .bind (expect_follows (by decide) hread) fun _ _ _ _ _ hopened hlength₃ =>
    .get (.bind (membersWithin_follows htype (by omega) hopened (Nat.lt_succ_self _)
      (Nat.lt_succ_self _)) fun found found' _ _ hfound hleft _ => .pure ?_ hleft))) (by decide)
  obtain rfl : name' = name := hname
  simp only [Interface.mapDocs, hparameters, hbases, hfound, hdocs]

/-- An alias without its semicolon. -/
def openAlias (type : TypeReader) (docs : Option Documentation) : Parse Alias := do
  skip 1
  let name ← ident
  let parameters ← typeParameters type
  expect "="
  let aliased ← type true
  return { name, type := aliased, parameters, docs }

theorem openAlias_follows
    (htype : TypesFollow keep behind bound type type') {docs docs' : Option Documentation}
    (hdocs : keep docs' = keep docs) {word : String} {lead lead' : Lead} {rest rest' : List Token}
    (hbound : rest.length < bound) (hrest : Continues keep behind rest rest') :
    Follows keep behind 1 0 false (Alias.mapDocs keep) (⟨.ident word, lead⟩ :: rest)
      (openAlias type docs (⟨.ident word, lead⟩ :: rest))
      (openAlias type' docs' (⟨.ident word, lead'⟩ :: rest')) := by
  refine .weaken (.skipWord (.bind (ident_follows hrest) fun name name' _ _ hname hnamed hlength =>
    .bind (typeParameters_follows htype (by omega) hnamed)
      fun parameters parameters' _ _ hparameters hleft hlength₁ =>
    .bind (expect_follows (by decide) hleft) fun _ _ _ _ _ hequals hlength₂ =>
    .bind (htype true (by omega) hequals) fun aliased aliased' _ _ haliased hleft _ =>
    .pure ?_ hleft)) (by decide)
  obtain rfl : name' = name := hname
  simp only [Alias.mapDocs, hparameters, haliased, hdocs]

/-! ## Statements -/

/-- A declaration behind its modifiers, without the mark that closes it. -/
def openDeclaration
    (type : TypeReader) (docs : Option Documentation) : DeclarationKind → Parse Statement
  | .interface => Statement.interface <$> openInterface type docs
  | .alias => Statement.alias <$> openAlias type docs

/-- The mark that closes a declaration; an alias may do without. -/
def closing : DeclarationKind → Parse Unit
  | .interface => expect "\x7d"
  | .alias => do
    let _ ← eat ";"

theorem openDeclaration_follows
    (htype : TypesFollow keep behind bound type type') {docs docs' : Option Documentation}
    (hdocs : keep docs' = keep docs) (kind : DeclarationKind) {word : String} {lead lead' : Lead}
    {rest rest' : List Token} (hbound : rest.length < bound)
    (hrest : Continues keep behind rest rest') :
    Follows keep behind 1 1 (kind == .interface) (Statement.mapDocs keep)
      (⟨.ident word, lead⟩ :: rest)
      (openDeclaration type docs kind (⟨.ident word, lead⟩ :: rest))
      (openDeclaration type' docs' kind (⟨.ident word, lead'⟩ :: rest')) := by
  cases kind with
  | interface =>
    exact .map (openInterface_follows htype hdocs hbound hrest)
      fun _ _ => congrArg Statement.interface
  | «alias» =>
    exact .map (.weaken (openAlias_follows htype hdocs hbound hrest) (by decide))
      fun _ _ => congrArg Statement.alias

theorem closing_follows
    (kind : DeclarationKind) (h : Continues keep behind tokens tokens') :
    Follows keep behind 0 0 true id tokens (closing kind tokens) (closing kind tokens') := by
  cases kind with
  | interface => exact .weaken (expect_follows (by decide) h) (by decide)
  | «alias» =>
    exact .weaken (.bind (eat_follows (by decide) h) fun _ _ _ _ _ hleft _ => .pure rfl hleft)
      (by decide)

theorem statement_of_declaration
    (type : TypeReader) {kind : DeclarationKind} {modifiers : Nat}
    (hahead : declarationAhead? tokens = some (kind, modifiers)) :
    statement type tokens =
      (do
        let declaration ← openDeclaration type (documentation tokens) kind
        closing kind
        return declaration : Parse Statement) (tokens.drop modifiers) := by
  cases kind with
  | interface =>
    have hread : statement type tokens = (do
        skip modifiers
        let declaration ← interfaceDeclaration type (documentation tokens)
        return .interface declaration : Parse Statement) tokens := by
      simp only [statement, run_bind, run_get, ok_bind, hahead]
    have hclosing : (do
        let declaration ← interfaceDeclaration type (documentation tokens)
        return .interface declaration) = do
        let declaration ← openDeclaration type (documentation tokens) .interface
        closing .interface
        return declaration := by
      simp only [interfaceDeclaration, openDeclaration, openInterface, closing, members, bind_assoc,
        pure_bind, map_bind, map_pure]
    rw [hread, hclosing]
    rfl
  | «alias» =>
    have hread : statement type tokens = (do
        skip modifiers
        let declaration ← aliasDeclaration type (documentation tokens)
        return .alias declaration : Parse Statement) tokens := by
      simp only [statement, run_bind, run_get, ok_bind, hahead]
    have hclosing : (do
        let declaration ← aliasDeclaration type (documentation tokens)
        return .alias declaration) = do
        let declaration ← openDeclaration type (documentation tokens) .alias
        closing .alias
        return declaration := by
      simp only [aliasDeclaration, openDeclaration, openAlias, closing, bind_assoc, pure_bind,
        map_bind, map_pure]
    rw [hread, hclosing]
    rfl

theorem statement_of_other
    (type : TypeReader) (hahead : declarationAhead? tokens = none) :
    statement type tokens = .ok (.other (nameAt? tokens 0), skipStatement tokens) := by
  simp only [statement, run_bind, run_get, ok_bind, hahead, run_set, run_pure]

theorem keywordAhead?_eq_some
    {kind : DeclarationKind} (h : keywordAhead? tokens = some kind) :
    ∃ word, lexemeAt? tokens 0 = some (.ident word) := by
  unfold keywordAhead? at h
  split_ifs at h with hinterface halias
  · rw [Bool.and_eq_true, wordAt_eq_true_iff] at hinterface
    exact ⟨_, hinterface.1⟩
  · rw [Bool.and_eq_true, Bool.and_eq_true, wordAt_eq_true_iff] at halias
    exact ⟨_, halias.1.1⟩

/-- Where a declaration starts, its keyword stands behind its modifiers. -/
theorem keywordAhead?_drop
    {kind : DeclarationKind} {modifiers : Nat}
    (hahead : declarationAhead? tokens = some (kind, modifiers)) :
    modifiers = modifierCount tokens ∧ keywordAhead? (tokens.drop modifiers) = some kind := by
  rw [declarationAhead?_eq_map, Option.map_eq_some_iff] at hahead
  obtain ⟨_, hkeyword, heq⟩ := hahead
  obtain ⟨rfl, rfl⟩ := Prod.mk.inj heq
  exact ⟨rfl, hkeyword⟩

theorem declaration_follows
    (htype : TypesFollow keep behind bound type type') (hbound : tokens.length ≤ bound)
    (h : Continues keep behind tokens tokens') (hlive : Live behind tokens) {kind : DeclarationKind}
    {modifiers : Nat} (hahead : declarationAhead? tokens = some (kind, modifiers)) :
    Follows keep behind 1 1 (kind == .interface) (Statement.mapDocs keep) (tokens.drop modifiers)
      (openDeclaration type (documentation tokens) kind (tokens.drop modifiers))
      (openDeclaration type' (documentation tokens') kind (tokens'.drop modifiers)) := by
  obtain ⟨rfl, hkeyword⟩ := keywordAhead?_drop hahead
  obtain ⟨-, hdrop⟩ := h.drop hlive (identAt_of_lt_modifierCount tokens)
  obtain ⟨word, hword⟩ := keywordAhead?_eq_some hkeyword
  obtain ⟨lead, lead', rest, rest', hleft, hright, -, -, hrest⟩ := hdrop.exists_cons hword
  have hlength := congrArg List.length hleft
  simp only [List.length_drop, List.length_cons] at hlength
  rw [hleft, hright]
  exact openDeclaration_follows htype (h.documentation_eq hlive) kind (by omega) hrest

theorem statement_follows
    (htype : TypesFollow keep behind bound type type') {token token' : Token}
    {rest rest' : List Token} (hbound : rest.length < bound)
    (h : Continues keep behind (token :: rest) (token' :: rest')) :
    Follows keep behind 1 (token :: rest).length true (Statement.mapDocs keep) (token :: rest)
      (statement type (token :: rest)) (statement type' (token' :: rest')) := by
  have hlive := live_cons behind token rest
  have hahead' := h.declarationAhead?_eq hlive
  cases hahead : declarationAhead? (token :: rest) with
  | none =>
    have hname : nameAt? (token' :: rest') 0 = nameAt? (token :: rest) 0 := by
      rw [nameAt?, h.lexemeAt?_zero hlive, nameAt?]
    rw [statement_of_other type hahead, statement_of_other type' (hahead'.trans hahead), hname]
    have hread : Follows keep behind 1 (token :: rest).length true (Statement.mapDocs keep)
        (token :: rest)
        ((set (skipStatement (token :: rest)) >>= fun _ =>
          return .other (nameAt? (token :: rest) 0) : Parse Statement) (token :: rest))
        ((set (skipStatement (token' :: rest')) >>= fun _ =>
          return .other (nameAt? (token :: rest) 0) : Parse Statement) (token' :: rest')) :=
      .bounded (.bind (skipped_follows h) fun _ _ _ _ _ hleft _ => .pure rfl hleft)
    exact hread
  | some found =>
    obtain ⟨kind, modifiers⟩ := found
    have hmodifiers : ∀ offset < modifiers, identAt (token :: rest) offset = true := by
      rw [(keywordAhead?_drop hahead).1]
      exact identAt_of_lt_modifierCount _
    have hsize : (token :: rest).length ≤ bound := Nat.succ_le_of_lt hbound
    rw [statement_of_declaration type hahead, statement_of_declaration type' (hahead'.trans hahead)]
    exact .bounded (.words 1 hmodifiers (.weaken
      (.bind (declaration_follows htype hsize h hlive hahead)
        fun _ _ _ _ hdeclaration hclosed _ => .bind (closing_follows kind hclosed)
        fun _ _ _ _ _ hrest _ => .pure hdeclaration hrest)
      ⟨Nat.le_refl _, by decide, by simp⟩))

theorem statementsWithin_follows
    (htype : TypesFollow keep behind bound type type') (hbound : tokens.length ≤ bound)
    (h : Continues keep behind tokens tokens') {steps steps' : Nat} (hsteps : tokens.length < steps)
    (hsteps' : tokens'.length < steps') :
    Follows keep behind 0 tokens.length true (List.map (Statement.mapDocs keep)) tokens
      (statementsWithin type steps tokens) (statementsWithin type' steps' tokens') := by
  induction steps generalizing tokens tokens' steps' with
  | zero => omega
  | succ steps ih =>
    obtain ⟨steps', rfl⟩ := Nat.exists_eq_succ_of_ne_zero (Nat.ne_zero_of_lt hsteps')
    cases h with
    | ending =>
      refine .nil 0 (.of_live (.weaken (.pure rfl .ending) (by decide)) fun hlive => ?_)
      obtain rfl : behind = [] := hlive.resolve_right (not_not.mpr rfl)
      rfl
    | @token token token' rest rest' halike hfinal hrest =>
      have hcount := hrest.length_eq
      have hread : ∀ (type : TypeReader) steps token rest,
          statementsWithin type (steps + 1) (token :: rest) =
            (do
              if ← eat ";" then statementsWithin type steps
              else
                let first ← statement type
                let more ← statementsWithin type steps
                return first :: more : Parse (List Statement)) (token :: rest) :=
        fun _ _ _ _ => rfl
      rw [hread, hread]
      simp only [List.length_cons] at hbound hsteps hsteps'
      have hmore : ∀ {left left' : List Token}, left.length ≤ rest.length →
          Continues keep behind left left' →
          Follows keep behind 0 (token :: rest).length true (List.map (Statement.mapDocs keep)) left
            (statementsWithin type steps left) (statementsWithin type' steps' left') := by
        intro left left' hle hleft
        have := hleft.length_eq
        refine .weaken (ih (by omega) hleft (by omega) (by omega)) ⟨Nat.le_refl _, ?_, id⟩
        simp only [List.length_cons]
        omega
      refine ifEat_follows (by decide) (by simp) (.token halike hfinal hrest)
        (fun left left' hlt hleft => hmore (Nat.le_of_lt_succ hlt) hleft) ?_
      refine .weaken (.bounded (.bind
        (statement_follows htype (by omega) (.token halike hfinal hrest))
        fun first first' left left' hfirst hleft hlength =>
          .bind (hmore (Nat.le_of_succ_le_succ hlength) hleft)
        fun more more' _ _ hmore hrest _ => .pure ?_ hrest))
          ⟨Nat.zero_le _, Int.le_refl _, by decide⟩
      rw [List.map_cons, List.map_cons, hfirst, hmore]

/-! ## Whole lists of tokens -/

/-- A type up to the end. -/
def wholeType (depth : Nat) : Parse TypeExpr := do
  let type ← typeWithin depth true
  expectEnd
  return type

theorem wholeType_follows
    (h : Continues keep [] tokens tokens') :
    Follows keep [] 1 0 false (TypeExpr.mapDocs keep) tokens (wholeType (tokens.length + 1) tokens)
      (wholeType (tokens'.length + 1) tokens') := by
  rw [show tokens'.length = tokens.length from h.length_eq]
  exact .weaken (.bind (typeWithin_follows keep [] (Nat.le_refl _) (Nat.le_refl _) true
    (Nat.lt_succ_self _) h) fun _ _ _ _ htype hleft _ =>
      .bind (expectEnd_follows hleft) fun _ _ _ _ _ hrest _ => .pure htype hrest) (by decide)

/-- The statements up to the end, with the budgets that the number of tokens gives. -/
def wholeFile (size : Nat) : Parse (List Statement) :=
  statementsWithin (typeWithin (size + 1)) (size + 1)

theorem wholeFile_follows
    (h : Continues keep [] tokens tokens') {size size' : Nat} (hsize : tokens.length ≤ size)
    (hsize' : tokens.length ≤ size') :
    Follows keep [] 0 tokens.length true (List.map (Statement.mapDocs keep)) tokens
      (wholeFile size tokens) (wholeFile size' tokens') := by
  have hcount : tokens'.length = tokens.length := h.length_eq
  exact statementsWithin_follows (typeWithin_follows keep [] (Nat.le_succ_of_le hsize)
    (Nat.le_succ_of_le hsize')) (Nat.le_refl _) h (Nat.lt_succ_of_le hsize) (by omega)

end Parse

theorem TypeExpr.ofTokens_eq
    (tokens : List Token) :
    TypeExpr.ofTokens tokens = (Parse.wholeType (tokens.length + 1) tokens).map Prod.fst :=
  rfl

theorem Statement.listOfTokens_eq
    (tokens : List Token) :
    Statement.listOfTokens tokens = (Parse.wholeFile tokens.length tokens).map Prod.fst :=
  rfl

/-- What was read from a stream, with the place of a failure. -/
def placed {α : Type} (stream : TokenStream) (result : Except ParseFailure α) :
    Except SourceError α :=
  result.mapError (·.located stream.ending)

theorem SourceFile.ofText_eq
    {text : String} {stream : TokenStream} (hstream : TokenStream.ofText text = .ok stream)
    (name : String) :
    SourceFile.ofText name text =
      (placed stream (Statement.listOfTokens stream.tokens)).map (SourceFile.mk name) := by
  simp only [SourceFile.ofText, hstream, bind, Except.bind]
  cases Statement.listOfTokens stream.tokens <;> rfl

theorem TypeExpr.ofText_eq
    {text : String} {stream : TokenStream} (hstream : TokenStream.ofText text = .ok stream) :
    TypeExpr.ofText text = placed stream (TypeExpr.ofTokens stream.tokens) := by
  simp only [TypeExpr.ofText, hstream, bind, Except.bind]
  cases TypeExpr.ofTokens stream.tokens <;> rfl

end EntityDiagram.Declaration
