import EntityDiagram.Declaration.Parse.Statements
import EntityDiagram.Proofs.Declaration.TypeReading

/-!
# Declarations come back from their spelling

The statements of a file are read one behind the other, and every interface and every type alias ends
where its own spelling ends: an interface at its closing brace, an alias at its semicolon. So a file
comes back declaration by declaration.
-/

namespace EntityDiagram.Declaration

open Source (Lead Lexeme Token)

namespace Parse

variable {type : TypeReader} {bound : Nat}

@[simp]
theorem run_eatWord_cons
    (word : String) (lead : Lead) (rest : List Token) :
    eatWord word (⟨.ident word, lead⟩ :: rest) = .ok (true, rest) := by
  simp [eatWord]

theorem run_eatWord_of_false
    {word : String} {tokens : List Token} (h : wordAt tokens 0 word = false) :
    eatWord word tokens = .ok (false, tokens) := by
  simp [eatWord, h]

/-! ## Type parameters -/

theorem dropVariance_cons
    {name : String} (hname : name ∉ varianceWords) (lead : Lead) (rest : List Token) :
    dropVariance (⟨.ident name, lead⟩ :: rest) = ⟨.ident name, lead⟩ :: rest := by
  have hwords : ["in", "out", "const"].contains name = false := by
    simpa [varianceWords] using hname
  have hone : oneOfAt (⟨.ident name, lead⟩ :: rest) 0 ["in", "out", "const"] = false := by
    simp only [oneOfAt, nameAt?_ident_cons, Option.any_some, hwords]
  simp [dropVariance, hone]

theorem typeParameter_reads
    (htype : ReadsBelow type bound) {parameter : TypeParameter} (hwell : parameter.WellFormed)
    (hlength : parameter.lexemes.length ≤ bound) :
    Reads (typeParameter type) parameter.lexemes parameter (SeesOneOf [",", ">"]) := by
  obtain ⟨name, upper, default⟩ := parameter
  intro tokens rest htokens hrest
  simp only [TypeParameter.lexemes, List.length_append, List.length_cons, List.cons_append]
    at htokens hlength
  obtain ⟨lead, _, rfl, -, htokens⟩ := spells_cons_iff.mp htokens
  obtain ⟨front, back, rfl, hfront, hback⟩ := spells_append_iff.mp htokens
  have hname := dropVariance_cons hwell.name lead (front ++ (back ++ rest))
  have hshort : (TypeExpr.lexemesOf? [.punct "="] default).length ≤ bound := by omega
  have hdefault : behind "=" (type true) (back ++ rest) = .ok (default, rest) :=
    annotated_reads htype hwell.default hshort hback
      ⟨fun _ _ => hrest.stops (by decide), fun _ => hrest.markAt_eq_false (by decide)⟩
  have hsees := seesOneOf_lexemesOf? hback fun _ => hrest
  cases upper with
  | none =>
    obtain rfl := spells_nil_iff.mp hfront
    have hword := run_eatWord_of_false (wordAt_of_not_ident hsees.identAt_eq_false "extends")
    simp only [List.nil_append] at hname
    simp [typeParameter, hname, hword, hdefault]
  | some t =>
    obtain ⟨word, front, rfl, -, hfront⟩ := spells_cons_iff.mp hfront
    have hbound : type true (front ++ (back ++ rest)) = .ok (t, back ++ rest) := by
      refine htype (hwell.bound t rfl) ?_ (.inl rfl) hfront (hsees.stops (by decide))
      simp only [TypeExpr.lexemesOf?, List.length_append, List.length_cons] at hlength
      omega
    simp only [List.cons_append] at hname
    simp [typeParameter, hname, hbound, hdefault]

theorem typeParameters_reads
    (htype : ReadsBelow type bound) {parameters : List TypeParameter}
    (hwell : ∀ parameter ∈ parameters, parameter.WellFormed)
    (hlength : (angled (parameters.map TypeParameter.lexemes)).length ≤ bound) :
    Reads (typeParameters type) (angled (parameters.map TypeParameter.lexemes)) parameters
      fun rest => markAt rest 0 "<" = false := by
  intro tokens rest htokens hrest
  cases parameters with
  | nil =>
    obtain rfl := spells_nil_iff.mp htokens
    simp [typeParameters, run_eat_of_false hrest]
  | cons first more =>
    have hangled : angled ((first :: more).map TypeParameter.lexemes) = .punct "<" ::
        (separated "," ((first :: more).map TypeParameter.lexemes) ++ [.punct ">"]) := rfl
    rw [hangled] at htokens hlength
    obtain ⟨lead, tokens, rfl, -, htokens⟩ := spells_cons_iff.mp htokens
    have hitem : ∀ parameter ∈ first :: more,
        Reads (typeParameter type) parameter.lexemes parameter (SeesOneOf [",", ">"]) := by
      intro parameter hparameter
      have hshort := length_le_of_mem_separated ","
        (List.mem_map_of_mem (f := TypeParameter.lexemes) hparameter)
      refine typeParameter_reads htype (hwell parameter hparameter) ?_
      simp only [List.length_cons, List.length_append] at hlength
      omega
    have hopen : ∀ parameter ∈ first :: more, ∃ lexeme behind,
        parameter.lexemes = lexeme :: behind ∧ lexeme ≠ .punct ">" := by
      intro parameter _
      simp [TypeParameter.lexemes]
    have hlist : commaList ">" (typeParameter type) (tokens ++ rest) = .ok (first :: more, rest) :=
      commaList_reads (by decide) hitem hopen htokens trivial
    simp [typeParameters, hlist]

/-! ## Interfaces and aliases -/

theorem heritageEntry_reads
    (htype : ReadsBelow type bound) {entry : Heritage}
    (hwell : ∀ argument ∈ entry.arguments, argument.WellFormed)
    (hlength : entry.lexemes.length ≤ bound) :
    Reads (heritageEntry type) entry.lexemes entry (SeesOneOf [",", "\x7b"]) := by
  obtain ⟨expression, arguments⟩ := entry
  intro tokens rest htokens hrest
  simp only [Heritage.lexemes, List.length_append] at htokens hlength
  obtain ⟨front, back, rfl, hfront, hback⟩ := spells_append_iff.mp htokens
  have hshort : (angled (TypeExpr.lexemesOfAll arguments)).length ≤ bound := by omega
  have harguments : typeArguments type (back ++ rest) = .ok (arguments, rest) :=
    typeArguments_reads htype hwell hshort hback fun _ => hrest.markAt_eq_false (by decide)
  have hdot : markAt (back ++ rest) 0 "." = false := by
    cases arguments with
    | nil =>
      obtain rfl := spells_nil_iff.mp hback
      exact hrest.markAt_eq_false (by decide)
    | cons first more =>
      obtain ⟨lead, back, rfl, -, -⟩ := spells_cons_iff.mp hback
      simp
  have hexpression := entityName_reads expression hfront hdot
  simp [heritageEntry, hexpression, harguments]

/-- The types that an interface extends end in front of the brace that opens its body. -/
theorem heritage_reads
    (htype : ReadsBelow type bound) {entries : List Heritage}
    (hwell : ∀ entry ∈ entries, ∀ argument ∈ entry.arguments, argument.WellFormed)
    (hlength : (Heritage.lexemesOfAll entries).length ≤ bound) :
    Reads (heritage type) (Heritage.lexemesOfAll entries) entries (SeesOneOf ["\x7b"]) := by
  intro tokens rest htokens hrest
  cases entries with
  | nil =>
    obtain rfl := spells_nil_iff.mp htokens
    have hword := wordAt_of_not_ident hrest.identAt_eq_false "extends"
    simp [heritage, run_eatWord_of_false hword]
  | cons entry entries =>
    have hlexemes : Heritage.lexemesOfAll (entry :: entries) =
        .ident "extends" :: separated "," ((entry :: entries).map Heritage.lexemes) := rfl
    rw [hlexemes] at htokens hlength
    obtain ⟨lead, tokens, rfl, -, htokens⟩ := spells_cons_iff.mp htokens
    have hread : ∀ other ∈ entry :: entries,
        Reads (heritageEntry type) other.lexemes other (SeesOneOf [",", "\x7b"]) := by
      intro other hother
      have hshort := length_le_of_mem_separated ","
        (List.mem_map_of_mem (f := Heritage.lexemes) hother)
      refine heritageEntry_reads htype (hwell other hother) ?_
      simp only [List.length_cons] at hlength
      omega
    have hinner : ∀ other ∈ (entry :: entries).dropLast, Reads (heritageEntry type) other.lexemes
        other fun rest => markAt rest 0 "," = true :=
      fun other hother => (hread other (List.dropLast_subset _ hother)).mono
        fun _ hcomma => ⟨",", by simp, hcomma⟩
    have hlast : Reads (heritageEntry type) ((entry :: entries).getLast (by simp)).lexemes
        ((entry :: entries).getLast (by simp)) (SeesOneOf ["\x7b"]) :=
      (hread _ (List.getLast_mem (by simp))).mono fun _ hsees => hsees.cons ","
    have hnonempty : ∀ other ∈ entry :: entries, other.lexemes ≠ [] := by
      intro other _
      obtain ⟨head, more, -, hname⟩ := nameLexemes_eq other.expression
      simp [Heritage.lexemes, hname]
    have hchain : chain "," (heritageEntry type) (tokens ++ rest) = .ok (entry :: entries, rest) :=
      chain_reads hinner hlast (fun _ hsees => hsees.markAt_eq_false (by decide)) hnonempty
        htokens hrest
    simp [heritage, hchain]

/-- An interface up to the brace that opens its body. -/
def headLexemes (declaration : Interface) : List Lexeme :=
  [.ident "interface", .ident declaration.name] ++
    angled (declaration.parameters.map TypeParameter.lexemes) ++
    Heritage.lexemesOfAll declaration.heritage ++ [.punct "\x7b"]

theorem lexemes_interface
    (declaration : Interface) :
    declaration.lexemes = headLexemes declaration ++
      (Member.lexemesOfAll declaration.members ++ [.punct "\x7d"]) := by
  simp [Interface.lexemes, headLexemes]

/-- An interface comes back if its members do. -/
theorem interfaceDeclaration_of_members
    (htype : ReadsBelow type bound) {declaration : Interface} (hwell : declaration.WellFormed)
    (hlength : (headLexemes declaration).length ≤ bound) {front back rest : List Token}
    (hfront : Spells front (headLexemes declaration))
    (hmembers : members type back = .ok (declaration.members, rest)) :
    interfaceDeclaration type none (front ++ back) = .ok (declaration, rest) := by
  obtain ⟨name, ms, entries, parameters, docs⟩ := declaration
  obtain ⟨-, hheritage, hparameters, rfl⟩ := hwell
  dsimp only at hheritage hparameters hmembers
  simp only [headLexemes, List.cons_append, List.nil_append, List.append_assoc,
    List.length_append, List.length_cons] at hfront hlength
  obtain ⟨keyword, _, rfl, -, hfront⟩ := spells_cons_iff.mp hfront
  obtain ⟨nameLead, _, rfl, -, hfront⟩ := spells_cons_iff.mp hfront
  obtain ⟨first, _, rfl, hfirst, hfront⟩ := spells_append_iff.mp hfront
  obtain ⟨middle, _, rfl, hmiddle, hfront⟩ := spells_append_iff.mp hfront
  obtain ⟨brace, rfl, -⟩ := spells_singleton_iff.mp hfront
  have hbrace : SeesOneOf ["\x7b"] (⟨.punct "\x7b", brace⟩ :: back) :=
    seesOneOf_singleton (by simp)
  have hangle : markAt (middle ++ ⟨.punct "\x7b", brace⟩ :: back) 0 "<" = false := by
    cases entries with
    | nil =>
      obtain rfl := spells_nil_iff.mp hmiddle
      simp
    | cons entry entries =>
      obtain ⟨lead, middle, rfl, -, -⟩ := spells_cons_iff.mp hmiddle
      simp
  have htypeParameters := typeParameters_reads htype hparameters (by omega) hfirst hangle
  have hentries := heritage_reads htype hheritage (by omega) hmiddle hbrace
  simp [interfaceDeclaration, htypeParameters, hentries, hmembers]

/-- An interface comes back, up to its closing brace. -/
theorem interfaceDeclaration_reads
    (htype : ReadsBelow type bound) {declaration : Interface} (hwell : declaration.WellFormed)
    (hlength : declaration.lexemes.length ≤ bound) :
    Reads (interfaceDeclaration type none) declaration.lexemes declaration fun _ => True := by
  intro tokens rest htokens _
  rw [lexemes_interface] at htokens hlength
  simp only [List.length_append] at hlength
  obtain ⟨front, back, rfl, hfront, hback⟩ := spells_append_iff.mp htokens
  have hread : members type (back ++ rest) = .ok (declaration.members, rest) :=
    members_reads htype hwell.members (by omega) hback trivial
  rw [List.append_assoc]
  exact interfaceDeclaration_of_members htype hwell (by omega) hfront hread

/-- An alias comes back, up to its semicolon. -/
theorem aliasDeclaration_reads
    (htype : ReadsBelow type bound) {declaration : Alias} (hwell : declaration.WellFormed)
    (hlength : declaration.lexemes.length ≤ bound) :
    Reads (aliasDeclaration type none) declaration.lexemes declaration fun _ => True := by
  obtain ⟨name, aliased, parameters, docs⟩ := declaration
  obtain ⟨haliased, hparameters, rfl⟩ := hwell
  dsimp only at haliased hparameters
  intro tokens rest htokens _
  simp only [Alias.lexemes, List.cons_append, List.nil_append, List.append_assoc,
    List.length_append, List.length_cons] at htokens hlength
  obtain ⟨keyword, _, rfl, -, htokens⟩ := spells_cons_iff.mp htokens
  obtain ⟨nameLead, _, rfl, -, htokens⟩ := spells_cons_iff.mp htokens
  obtain ⟨front, _, rfl, hfront, htokens⟩ := spells_append_iff.mp htokens
  obtain ⟨equals, _, rfl, -, htokens⟩ := spells_cons_iff.mp htokens
  obtain ⟨back, _, rfl, hback, htokens⟩ := spells_append_iff.mp htokens
  obtain ⟨semicolon, rfl, -⟩ := spells_singleton_iff.mp htokens
  have hsemicolon : SeesOneOf [";"] (⟨.punct ";", semicolon⟩ :: rest) :=
    seesOneOf_singleton (by simp)
  have hangle : markAt (⟨.punct "=", equals⟩ :: (back ++ ⟨.punct ";", semicolon⟩ :: rest)) 0 "<" =
      false := by simp
  have hfirst := typeParameters_reads htype hparameters (by omega) hfront hangle
  have hsecond : type true (back ++ ⟨.punct ";", semicolon⟩ :: rest) =
      .ok (aliased, ⟨.punct ";", semicolon⟩ :: rest) :=
    htype haliased (by omega) (.inl rfl) hback (hsemicolon.stops (by decide))
  simp [aliasDeclaration, hfirst, hsecond]

/-! ## Statements -/

theorem lexemeAt?_append
    (front back : List Token) (offset : Nat) :
    lexemeAt? (front ++ back) (front.length + offset) = lexemeAt? back offset := by
  rw [lexemeAt?, lexemeAt?, List.getElem?_append_right (Nat.le_add_right _ _),
    Nat.add_sub_cancel_left]

/-- Modifiers are counted up to the first word that is none. -/
theorem modifierCount_eq
    {modifiers : List String} (hmodifiers : ∀ modifier ∈ modifiers, modifier ∈ declarationModifiers)
    {tokens : List Token} (htokens : Spells tokens (modifiers.map Lexeme.ident)) {word : String}
    (hword : word ∉ declarationModifiers) (lead : Lead) (rest : List Token) :
    modifierCount (tokens ++ ⟨.ident word, lead⟩ :: rest) = tokens.length := by
  induction modifiers generalizing tokens with
  | nil =>
    obtain rfl := spells_nil_iff.mp htokens
    simp [modifierCount, hword]
  | cons modifier modifiers ih =>
    obtain ⟨first, tokens, rfl, -, htokens⟩ := spells_cons_iff.mp htokens
    have hmodifier : modifier ∈ declarationModifiers := hmodifiers modifier List.mem_cons_self
    have hmore := ih (fun other hother => hmodifiers other (List.mem_cons_of_mem _ hother)) htokens
    simp [modifierCount, hmodifier, hmore]

theorem declarationAhead?_interface
    {modifiers : List String} (hmodifiers : ∀ modifier ∈ modifiers, modifier ∈ declarationModifiers)
    {tokens : List Token} (htokens : Spells tokens (modifiers.map Lexeme.ident))
    {name : String} (keyword lead : Lead) (rest : List Token) :
    declarationAhead? (tokens ++ ⟨.ident "interface", keyword⟩ :: ⟨.ident name, lead⟩ :: rest) =
      some (.interface, tokens.length) := by
  have hcount := modifierCount_eq hmodifiers htokens
    (by decide : "interface" ∉ declarationModifiers)
    keyword (⟨.ident name, lead⟩ :: rest)
  have hahead := lexemeAt?_append tokens
    (⟨.ident "interface", keyword⟩ :: ⟨.ident name, lead⟩ :: rest)
  have hzero := hahead 0
  rw [Nat.add_zero] at hzero
  simp [declarationAhead?, hcount, wordAt, identAt, nameAt?, hzero, hahead]

theorem declarationAhead?_alias
    {modifiers : List String} (hmodifiers : ∀ modifier ∈ modifiers, modifier ∈ declarationModifiers)
    {tokens : List Token} (htokens : Spells tokens (modifiers.map Lexeme.ident))
    {name : String} (keyword lead : Lead) {rest : List Token} (hrest : SeesOneOf ["<", "="] rest) :
    declarationAhead? (tokens ++ ⟨.ident "type", keyword⟩ :: ⟨.ident name, lead⟩ :: rest) =
      some (.alias, tokens.length) := by
  have hcount := modifierCount_eq hmodifiers htokens (by decide : "type" ∉ declarationModifiers)
    keyword (⟨.ident name, lead⟩ :: rest)
  have hahead := lexemeAt?_append tokens
    (⟨.ident "type", keyword⟩ :: ⟨.ident name, lead⟩ :: rest)
  have hzero := hahead 0
  rw [Nat.add_zero] at hzero
  have hmark : lexemeAt? rest 0 = some (.punct "=") ∨ lexemeAt? rest 0 = some (.punct "<") := by
    obtain ⟨mark, hmem, hsees⟩ := hrest
    simp only [markAt, beq_iff_eq] at hsees
    simp only [List.mem_cons, List.not_mem_nil, or_false] at hmem
    rcases hmem with rfl | rfl
    · exact .inr hsees
    · exact .inl hsees
  rcases hmark with hmark | hmark <;>
    simp [declarationAhead?, hcount, wordAt, markAt, identAt, nameAt?, hzero, hahead, hmark]

theorem documentation_of_spells
    {tokens rest : List Token} {first : Lexeme} {more : List Lexeme}
    (htokens : Spells tokens (first :: more)) :
    documentation (tokens ++ rest) = none := by
  obtain ⟨lead, tokens, rfl, hplain, -⟩ := spells_cons_iff.mp htokens
  exact documentation_of_docs_eq_nil hplain.docs

theorem declared_opens
    {declared : Declared} (hwell : declared.WellFormed) :
    ∃ word more, declared.lexemes = .ident word :: more := by
  cases hwell with
  | @interface modifiers | @typeAlias modifiers =>
    cases modifiers with
    | nil => exact ⟨_, _, rfl⟩
    | cons modifier modifiers => exact ⟨_, _, rfl⟩

/-- A declaration is found behind its modifiers and comes back. -/
theorem statement_reads
    (htype : ReadsBelow type bound) {declared : Declared} (hwell : declared.WellFormed)
    (hlength : declared.lexemes.length ≤ bound) :
    Reads (statement type) declared.lexemes declared.statement fun _ => True := by
  intro tokens rest htokens _
  obtain ⟨word, more, hopens⟩ := declared_opens hwell
  have hdocs : documentation (tokens ++ rest) = none := documentation_of_spells (hopens ▸ htokens)
  cases hwell with
  | @interface modifiers declaration hmodifiers hdeclaration =>
    simp only [Declared.lexemes, List.length_append] at htokens hlength
    obtain ⟨front, back, rfl, hfront, hback⟩ := spells_append_iff.mp htokens
    have hread : interfaceDeclaration type none (back ++ rest) = .ok (declaration, rest) :=
      interfaceDeclaration_reads htype hdeclaration (by omega) hback trivial
    have hahead : declarationAhead? (front ++ (back ++ rest)) =
        some (.interface, front.length) := by
      simp only [Interface.lexemes, List.cons_append] at hback
      obtain ⟨keyword, _, rfl, -, hback⟩ := spells_cons_iff.mp hback
      obtain ⟨lead, behind, rfl, -, -⟩ := spells_cons_iff.mp hback
      exact declarationAhead?_interface hmodifiers hfront keyword lead (behind ++ rest)
    rw [List.append_assoc] at hdocs ⊢
    simp [statement, hdocs, hahead, hread]
  | @typeAlias modifiers declaration hmodifiers hdeclaration =>
    simp only [Declared.lexemes, List.length_append] at htokens hlength
    obtain ⟨front, back, rfl, hfront, hback⟩ := spells_append_iff.mp htokens
    have hread : aliasDeclaration type none (back ++ rest) = .ok (declaration, rest) :=
      aliasDeclaration_reads htype hdeclaration (by omega) hback trivial
    have hahead : declarationAhead? (front ++ (back ++ rest)) = some (.alias, front.length) := by
      simp only [Alias.lexemes, List.cons_append, List.nil_append, List.append_assoc] at hback
      obtain ⟨keyword, _, rfl, -, hback⟩ := spells_cons_iff.mp hback
      obtain ⟨lead, behind, rfl, -, hbehind⟩ := spells_cons_iff.mp hback
      refine declarationAhead?_alias hmodifiers hfront keyword lead ?_
      obtain ⟨parameters, _, rfl, hparameters, hequals⟩ := spells_append_iff.mp hbehind
      obtain ⟨equals, behind, rfl, -, -⟩ := spells_cons_iff.mp hequals
      cases hlist : declaration.parameters with
      | nil =>
        rw [hlist] at hparameters
        obtain rfl := spells_nil_iff.mp hparameters
        exact ⟨"=", by decide, by simp⟩
      | cons parameter others =>
        rw [hlist] at hparameters
        obtain ⟨opener, parameters, rfl, -, -⟩ := spells_cons_iff.mp hparameters
        exact ⟨"<", by decide, by simp⟩
    rw [List.append_assoc] at hdocs ⊢
    simp [statement, hdocs, hahead, hread]

/-- Every declaration is read as one statement, and nothing is left between them. -/
theorem statementsWithin_eq
    (htype : ReadsBelow type bound) {declarations : List Declared}
    (hwell : ∀ declared ∈ declarations, declared.WellFormed)
    (hlength : (declarations.flatMap Declared.lexemes).length ≤ bound) {tokens : List Token}
    (htokens : Spells tokens (declarations.flatMap Declared.lexemes)) {steps : Nat}
    (hsteps : declarations.length < steps) :
    statementsWithin type steps tokens = .ok (declarations.map Declared.statement, []) := by
  induction declarations generalizing tokens steps with
  | nil =>
    obtain ⟨steps, rfl⟩ := Nat.exists_eq_succ_of_ne_zero (Nat.ne_zero_of_lt hsteps)
    obtain rfl := spells_nil_iff.mp htokens
    simp [statementsWithin]
  | cons declared declarations ih =>
    obtain ⟨steps, rfl⟩ := Nat.exists_eq_succ_of_ne_zero (Nat.ne_zero_of_lt hsteps)
    rw [List.flatMap_cons] at htokens hlength
    rw [List.length_append] at hlength
    obtain ⟨front, back, rfl, hfront, hback⟩ := spells_append_iff.mp htokens
    have hdeclared := hwell declared List.mem_cons_self
    have hfirst : statement type (front ++ back) = .ok (declared.statement, back) :=
      statement_reads htype hdeclared (by omega) hfront trivial
    have hmore : statementsWithin type steps back =
        .ok (declarations.map Declared.statement, []) :=
      ih (fun other hother => hwell other (List.mem_cons_of_mem _ hother)) (by omega) hback
        (Nat.lt_of_succ_lt_succ hsteps)
    obtain ⟨word, more, hopens⟩ := declared_opens hdeclared
    obtain ⟨lead, front, rfl, -, -⟩ := spells_cons_iff.mp (hopens ▸ hfront)
    have hsemicolon : ∀ behind, eat ";" (⟨.ident word, lead⟩ :: behind) =
        .ok (false, ⟨.ident word, lead⟩ :: behind) := fun _ => run_eat_of_false (by simp)
    rw [List.cons_append] at hfirst ⊢
    simp [statementsWithin, hsemicolon, hfirst, hmore]

end Parse

/-- A file of declarations comes back declaration by declaration. -/
theorem statements_of_spells
    {declarations : List Declared} (hwell : ∀ declared ∈ declarations, declared.WellFormed)
    {tokens : List Token} (htokens : Spells tokens (declarations.flatMap Declared.lexemes)) :
    Statement.listOfTokens tokens = .ok (declarations.map Declared.statement) := by
  have hcount : declarations.length ≤ (declarations.flatMap Declared.lexemes).length := by
    refine length_le_length_flatMap fun declared hdeclared => ?_
    obtain ⟨word, more, hopens⟩ := Parse.declared_opens (hwell declared hdeclared)
    simp [hopens]
  rw [← htokens.length_eq] at hcount
  have hlength : (declarations.flatMap Declared.lexemes).length ≤ tokens.length + 1 := by
    rw [htokens.length_eq]
    exact Nat.le_succ _
  have hread := Parse.statementsWithin_eq (Parse.readsBelow_typeWithin (tokens.length + 1)) hwell
    hlength htokens (Nat.lt_succ_of_le hcount)
  simp only [Statement.listOfTokens, hread]
  rfl

end EntityDiagram.Declaration
