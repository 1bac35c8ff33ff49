import EntityDiagram.Declaration.Parse.Members
import EntityDiagram.Proofs.Declaration.Lookahead

/-!
# Names, parameters and members come back

The parts of a type that hold types themselves. They are read with a reader of types that is only
known to read the shorter ones, which is all that a part needs: whatever it holds is shorter than
the part.
-/

namespace EntityDiagram.Declaration

open Source (Lead Lexeme Token)

/-- The reader reads every well-formed type of less than so many lexemes, in front of whatever does
not continue the type. A conditional type is only read where it may stand. -/
def ReadsBelow
    (type : TypeReader) (bound : Nat) : Prop :=
  ∀ ⦃t : TypeExpr⦄, t.WellFormed → t.lexemes.length < bound → ∀ {mayBeConditional : Bool},
    (mayBeConditional = true ∨ 1 ≤ t.tightness) →
      Reads (type mayBeConditional) t.lexemes t (t.StopsAt 0)

namespace Parse

/-! ## Marks and words -/

@[simp]
theorem markAt_cons_zero
    (mark : String) (token : Token) (rest : List Token) :
    markAt (token :: rest) 0 mark = decide (token.lexeme = .punct mark) := by
  rw [Bool.eq_iff_iff]
  simp [markAt]

@[simp]
theorem wordAt_cons_zero
    (word : String) (token : Token) (rest : List Token) :
    wordAt (token :: rest) 0 word = decide (token.lexeme = .ident word) := by
  rw [Bool.eq_iff_iff]
  simp [wordAt]

@[simp]
theorem nameAt?_ident_cons
    (name : String) (lead : Lead) (rest : List Token) :
    nameAt? (⟨.ident name, lead⟩ :: rest) 0 = some name :=
  rfl

@[simp]
theorem nameAt?_punct_cons
    (mark : String) (lead : Lead) (rest : List Token) :
    nameAt? (⟨.punct mark, lead⟩ :: rest) 0 = none :=
  rfl

@[simp]
theorem nameAt?_cons_succ
    (token : Token) (rest : List Token) (offset : Nat) :
    nameAt? (token :: rest) (offset + 1) = nameAt? rest offset :=
  rfl

@[simp]
theorem markAt_cons_succ
    (mark : String) (token : Token) (rest : List Token) (offset : Nat) :
    markAt (token :: rest) (offset + 1) mark = markAt rest offset mark :=
  rfl

@[simp]
theorem wordAt_cons_succ
    (word : String) (token : Token) (rest : List Token) (offset : Nat) :
    wordAt (token :: rest) (offset + 1) word = wordAt rest offset word :=
  rfl

@[simp]
theorem run_eat_cons
    (mark : String) (lead : Lead) (rest : List Token) :
    eat mark (⟨.punct mark, lead⟩ :: rest) = .ok (true, rest) :=
  run_eat_of_true (by simp)

@[simp]
theorem run_expect_cons
    (mark : String) (lead : Lead) (rest : List Token) :
    expect mark (⟨.punct mark, lead⟩ :: rest) = .ok ((), rest) :=
  run_expect (by simp)

@[simp]
theorem run_ident_cons
    (name : String) (lead : Lead) (rest : List Token) :
    ident (⟨.ident name, lead⟩ :: rest) = .ok (name, rest) :=
  rfl

theorem behind_reads
    {mark : String} {reader : Parse TypeExpr} {value : Option TypeExpr}
    {follow : List Token → Prop} (hvalue : ∀ t ∈ value, Reads reader t.lexemes t follow) :
    Reads (behind mark reader) (TypeExpr.lexemesOf? [.punct mark] value) value
      fun rest => follow rest ∧ (value = none → markAt rest 0 mark = false) := by
  rintro tokens rest htokens ⟨hfollow, hmark⟩
  cases value with
  | none =>
    obtain rfl := spells_nil_iff.mp htokens
    simp [behind, run_eat_of_false (hmark rfl)]
  | some t =>
    obtain ⟨lead, tokens, rfl, -, htokens⟩ := spells_cons_iff.mp htokens
    have ht := hvalue t rfl htokens hfollow
    simp [behind, ht]

/-- A mark comes back as a flag, in front of tokens that do not start with it. -/
theorem eat_reads
    (mark : String) (flag : Bool) :
    Reads (eat mark) (lexemeIf flag (.punct mark)) flag fun rest => markAt rest 0 mark = false := by
  intro tokens rest htokens hrest
  cases flag with
  | false =>
    obtain rfl := spells_nil_iff.mp htokens
    exact run_eat_of_false hrest
  | true =>
    obtain ⟨lead, rfl, -⟩ := spells_singleton_iff.mp htokens
    exact run_eat_cons mark lead rest

/-! ## Names -/

theorem dottedParts_of_not_dot
    {tokens : List Token} (h : markAt tokens 0 "." = false) :
    dottedParts tokens = ([], tokens) := by
  unfold dottedParts
  split
  · split
    · simp_all [markAt]
    · rfl
  · rfl

theorem dottedParts_eq
    {parts : List String} {tokens rest : List Token}
    (htokens : Spells tokens (parts.flatMap fun part => [.punct ".", .ident part]))
    (hrest : markAt rest 0 "." = false) :
    dottedParts (tokens ++ rest) = (parts, rest) := by
  induction parts generalizing tokens with
  | nil =>
    obtain rfl := spells_nil_iff.mp htokens
    exact dottedParts_of_not_dot hrest
  | cons part parts ih =>
    obtain ⟨dot, _, rfl, -, htokens⟩ := spells_cons_iff.mp htokens
    obtain ⟨lead, tokens, rfl, -, htokens⟩ := spells_cons_iff.mp htokens
    simp [dottedParts, ih htokens]

theorem intercalate_nameParts
    (name : String) :
    ".".intercalate (nameParts name) = name := by
  have hparts : (nameParts name).map String.toList = name.toList.splitOn '.' := by
    simp [nameParts, Function.comp_def]
  rw [← String.toList_inj, String.toList_intercalate, hparts]
  exact List.intercalate_splitOn '.'

theorem entityName_reads
    (name : String) :
    Reads entityName (nameLexemes name) name fun rest => markAt rest 0 "." = false := by
  intro tokens rest htokens hrest
  obtain ⟨head, more, hparts, hname⟩ := nameLexemes_eq name
  rw [hname] at htokens
  obtain ⟨lead, tokens, rfl, -, htokens⟩ := spells_cons_iff.mp htokens
  have hmore := dottedParts_eq htokens hrest
  have hjoin := intercalate_nameParts name
  rw [hparts] at hjoin
  simp [entityName, hmore, hjoin]

/-! ## Type arguments, parameters and results -/

section

variable {type : TypeReader} {bound : Nat}

theorem length_lexemes_le_of_mem
    (mark : String) {types : List TypeExpr} {t : TypeExpr} (ht : t ∈ types) :
    t.lexemes.length ≤ (separated mark (TypeExpr.lexemesOfAll types)).length := by
  rw [TypeExpr.lexemesOfAll_eq_map]
  exact length_le_of_mem_separated mark (List.mem_map_of_mem ht)

theorem typeArguments_reads
    (htype : ReadsBelow type bound) {arguments : List TypeExpr}
    (hwell : ∀ argument ∈ arguments, argument.WellFormed)
    (hlength : (angled (TypeExpr.lexemesOfAll arguments)).length ≤ bound) :
    Reads (typeArguments type) (angled (TypeExpr.lexemesOfAll arguments)) arguments
      fun rest => arguments = [] → markAt rest 0 "<" = false := by
  intro tokens rest htokens hrest
  cases arguments with
  | nil =>
    obtain rfl := spells_nil_iff.mp htokens
    simp [typeArguments, run_eat_of_false (hrest rfl)]
  | cons first more =>
    have hangled : angled (TypeExpr.lexemesOfAll (first :: more)) =
        .punct "<" :: (separated "," (TypeExpr.lexemesOfAll (first :: more)) ++ [.punct ">"]) := rfl
    rw [hangled] at htokens hlength
    obtain ⟨lead, tokens, rfl, -, htokens⟩ := spells_cons_iff.mp htokens
    have hitem : ∀ t ∈ first :: more, Reads (type true) t.lexemes t (SeesOneOf [",", ">"]) := by
      intro t ht
      have hshort : t.lexemes.length < bound := by
        have := length_lexemes_le_of_mem "," ht
        simp only [List.length_cons, List.length_append] at hlength
        omega
      exact (htype (hwell t ht) hshort (.inl rfl)).mono fun rest hmark => hmark.stops (by decide)
    have hopen : ∀ t ∈ first :: more, ∃ lexeme behind,
        t.lexemes = lexeme :: behind ∧ lexeme ≠ .punct ">" := by
      intro t ht
      obtain ⟨lexeme, behind, hlexemes, hstarts⟩ := (hwell t ht).opens.first
      exact ⟨lexeme, behind, hlexemes, ne_punct_of_startsType hstarts rfl⟩
    rw [TypeExpr.lexemesOfAll_eq_map] at htokens
    have hlist : commaList ">" (type true) (tokens ++ rest) = .ok (first :: more, rest) :=
      commaList_reads (by decide) hitem hopen htokens trivial
    simp [typeArguments, hlist]

theorem annotated_reads
    (htype : ReadsBelow type bound) {mark : String} {annotated : Option TypeExpr}
    (hwell : ∀ t ∈ annotated, t.WellFormed)
    (hlength : (TypeExpr.lexemesOf? [.punct mark] annotated).length ≤ bound) :
    Reads (behind mark (type true)) (TypeExpr.lexemesOf? [.punct mark] annotated) annotated
      fun rest => (∀ t ∈ annotated, t.StopsAt 0 rest) ∧
        (annotated = none → markAt rest 0 mark = false) := by
  refine behind_reads fun t ht => ?_
  have hshort : t.lexemes.length < bound := by
    obtain rfl : annotated = some t := ht
    simp only [TypeExpr.lexemesOf?, List.length_append, List.length_cons] at hlength
    omega
  exact (htype (hwell t ht) hshort (.inl rfl)).mono fun _ hstops => hstops t ht

/-- A name is not taken for an access modifier in front of what follows a parameter's name. -/
theorem dropAccess_cons
    (token : Token) {rest : List Token} (hident : identAt rest 0 = false)
    (hbrace : markAt rest 0 "\x7b" = false) (hbracket : markAt rest 0 "[" = false) :
    dropAccess (token :: rest) = token :: rest := by
  simp [dropAccess, hident, hbrace, hbracket]

/-- What may be annotated is followed by the mark of the annotation, or by what follows the whole. -/
theorem seesOneOf_lexemesOf?
    {mark : String} {annotated : Option TypeExpr} {tokens rest : List Token} {marks : List String}
    (htokens : Spells tokens (TypeExpr.lexemesOf? [.punct mark] annotated))
    (hrest : annotated = none → SeesOneOf marks rest) :
    SeesOneOf (mark :: marks) (tokens ++ rest) := by
  cases annotated with
  | none =>
    obtain rfl := spells_nil_iff.mp htokens
    exact (hrest rfl).cons mark
  | some t =>
    obtain ⟨lead, tokens, rfl, -, -⟩ := spells_cons_iff.mp htokens
    exact ⟨mark, List.mem_cons_self, by simp⟩

theorem seesOneOf_lexemeIf
    {flag : Bool} {mark : String} {tokens rest : List Token} {marks : List String}
    (htokens : Spells tokens (lexemeIf flag (.punct mark))) (hrest : SeesOneOf marks rest) :
    SeesOneOf (mark :: marks) (tokens ++ rest) := by
  cases flag with
  | false =>
    obtain rfl := spells_nil_iff.mp htokens
    exact hrest.cons mark
  | true =>
    obtain ⟨lead, tokens, rfl, -, -⟩ := spells_cons_iff.mp htokens
    exact ⟨mark, List.mem_cons_self, by simp⟩

theorem parameter_reads
    (htype : ReadsBelow type bound) {param : Parameter} (hwell : param.WellFormed)
    (hlength : param.lexemes.length ≤ bound) :
    Reads (parameter type) param.lexemes param (SeesOneOf [",", ")"]) := by
  obtain ⟨name, annotated, isOptional, isRest⟩ := param
  obtain ⟨hannotated⟩ := hwell
  intro tokens rest htokens hrest
  rw [Parameter.lexemes, List.append_assoc] at htokens
  obtain ⟨dots, _, rfl, hdots, htokens⟩ := spells_append_iff.mp htokens
  obtain ⟨lead, behind, rfl, -, hbehind⟩ := spells_cons_iff.mp htokens
  obtain ⟨question, colon, rfl, hquestion, hcolon⟩ := spells_append_iff.mp hbehind
  have hlength' : (TypeExpr.lexemesOf? [.punct ":"] annotated).length ≤ bound := by
    simp only [Parameter.lexemes, List.length_append, List.length_cons] at hlength
    omega
  have hseesColon := seesOneOf_lexemesOf? hcolon fun _ => hrest
  have hsees := seesOneOf_lexemeIf hquestion hseesColon
  have hdotsEnd : ∀ more, markAt (⟨.ident name, lead⟩ :: more) 0 "..." = false := by simp
  have hfirst := eat_reads "..." isRest hdots (hdotsEnd (question ++ (colon ++ rest)))
  have hname := dropAccess_cons ⟨.ident name, lead⟩ hsees.identAt_eq_false
    (hsees.markAt_eq_false (by decide)) (hsees.markAt_eq_false (by decide))
  have hsecond := eat_reads "?" isOptional hquestion (hseesColon.markAt_eq_false (by decide))
  have hthird := annotated_reads htype hannotated hlength' hcolon
    ⟨fun _ _ => hrest.stops (by decide), fun _ => hrest.markAt_eq_false (by decide)⟩
  have hdefault := run_eat_of_false (hrest.markAt_eq_false (by decide : "=" ∉ [",", ")"]))
  simp [parameter, parameterName, annotation, hfirst, hname, hsecond, hthird, hdefault]

theorem parameters_reads
    (htype : ReadsBelow type bound) {params : List Parameter}
    (hwell : ∀ param ∈ params, param.WellFormed)
    (hlength : (parenthesizedList (Parameter.lexemesOfAll params)).length ≤ bound) :
    Reads (parameters type) (parenthesizedList (Parameter.lexemesOfAll params)) params
      fun _ => True := by
  intro tokens rest htokens _
  obtain ⟨lead, tokens, rfl, -, htokens⟩ := spells_cons_iff.mp htokens
  rw [Parameter.lexemesOfAll_eq_map] at htokens hlength
  have hitem : ∀ param ∈ params,
      Reads (parameter type) param.lexemes param (SeesOneOf [",", ")"]) := by
    intro param hparam
    have hshort := length_le_of_mem_separated ","
      (List.mem_map_of_mem (f := Parameter.lexemes) hparam)
    refine parameter_reads htype (hwell param hparam) ?_
    simp only [parenthesizedList, List.length_append, List.length_cons] at hlength
    omega
  have hopen : ∀ param ∈ params, ∃ first more,
      param.lexemes = first :: more ∧ first ≠ .punct ")" := by
    rintro ⟨name, annotated, isOptional, isRest⟩ -
    cases isRest <;> simp [Parameter.lexemes, lexemeIf]
  have hlist : commaList ")" (parameter type) (tokens ++ rest) = .ok (params, rest) :=
    commaList_reads (by decide) hitem hopen htokens trivial
  simp [parameters, hlist]

/-- What is not spelled like a type predicate is not taken for one. A single name could only become
one through the word behind it. -/
theorem predicateAhead_eq_false
    {lexemes : List Lexeme} {tokens rest : List Token} (hplain : startsPredicate lexemes = false)
    (hne : lexemes ≠ []) (htokens : Spells tokens lexemes)
    (hrest : ∀ word, nameAt? rest 0 = some word → startsPredicate (lexemes ++ [.ident word]) =
      false) :
    (wordAt (tokens ++ rest) 0 "asserts" && identAt (tokens ++ rest) 1) = false ∧
      (identAt (tokens ++ rest) 0 && wordAt (tokens ++ rest) 1 "is") = false := by
  obtain ⟨first, more, rfl⟩ := List.exists_cons_of_ne_nil hne
  obtain ⟨lead, behind, rfl, -, hbehind⟩ := spells_cons_iff.mp htokens
  cases more with
  | nil =>
    obtain rfl := spells_nil_iff.mp hbehind
    cases hname : nameAt? rest 0 with
    | none =>
      have hident : identAt rest 0 = false := by rw [identAt, hname]; rfl
      have hbehindFirst : identAt (⟨first, lead⟩ :: rest) 1 = false := hident
      have hword : wordAt (⟨first, lead⟩ :: rest) 1 "is" = false := wordAt_of_not_ident hident "is"
      simp [hbehindFirst, hword]
    | some word =>
      have hpredicate := hrest word hname
      have hword : wordAt rest 0 "is" = decide (word = "is") := wordAt_of_nameAt? hname "is"
      cases first with
      | ident name =>
        have hnames : name ≠ "asserts" ∧ word ≠ "is" := by simpa [startsPredicate] using hpredicate
        simp [hword, hnames]
      | _ => simp [identAt, nameAt?]
  | cons second more =>
    obtain ⟨lead', behind, rfl, -, -⟩ := spells_cons_iff.mp hbehind
    cases first with
    | ident name =>
      cases second with
      | ident next =>
        have hnames : name ≠ "asserts" ∧ next ≠ "is" := by simpa [startsPredicate] using hplain
        simp [wordAt, hnames]
      | _ => simp [wordAt, identAt, nameAt?]
    | _ => simp [wordAt, identAt, nameAt?]

/-- A result type is read as a type unless it starts like a type predicate. -/
theorem result_reads
    (htype : ReadsBelow type bound) {t : TypeExpr} (hwell : t.WellFormed)
    (hplain : startsPredicate t.lexemes = false) (hlength : t.lexemes.length < bound) :
    Reads (result type) t.lexemes t t.ResultStopsAt := by
  intro tokens rest htokens hrest
  have hread := htype hwell hlength (.inl rfl) htokens (hrest.stopsAt 0)
  obtain ⟨hassertion, hpredicate⟩ :=
    predicateAhead_eq_false hplain hwell.lexemes_ne_nil htokens fun word hword =>
      (Bool.or_eq_false_iff.mp (hrest.apart word hword)).1
  rw [result, run_bind, run_get, ok_bind, hassertion, hpredicate]
  exact hread

theorem annotatedResult_reads
    (htype : ReadsBelow type bound) {annotated : Option TypeExpr}
    (hwell : ∀ t ∈ annotated, t.WellFormed)
    (hplain : ∀ t ∈ annotated, startsPredicate t.lexemes = false)
    (hlength : (TypeExpr.lexemesOf? [.punct ":"] annotated).length ≤ bound) :
    Reads (behind ":" (result type)) (TypeExpr.lexemesOf? [.punct ":"] annotated) annotated
      fun rest => (∀ t ∈ annotated, t.ResultStopsAt rest) ∧
        (annotated = none → markAt rest 0 ":" = false) := by
  refine behind_reads fun t ht => ?_
  have hshort : t.lexemes.length < bound := by
    obtain rfl : annotated = some t := ht
    simp only [TypeExpr.lexemesOf?, List.length_append, List.length_cons] at hlength
    omega
  exact (result_reads htype (hwell t ht) (hplain t ht) hshort).mono fun _ hstops => hstops t ht

/-! ## Members -/

theorem documentation_of_docs_eq_nil
    {token : Token} {rest : List Token} (h : token.lead.docs = []) :
    documentation (token :: rest) = none := by
  simp [documentation, h, Documentation.ofBlocks?]

theorem documentation_lead
    {lead lead' : Lead} (hdocs : lead'.docs = lead.docs) (lexeme : Lexeme) (rest : List Token) :
    documentation (⟨lexeme, lead'⟩ :: rest) = documentation (⟨lexeme, lead⟩ :: rest) := by
  simp only [documentation, List.head?_cons, Option.bind_some, hdocs]

@[simp]
theorem memberNameAt_cons_succ
    (token : Token) (rest : List Token) (offset : Nat) :
    memberNameAt (token :: rest) (offset + 1) = memberNameAt rest offset :=
  rfl

theorem memberNameAt_keyLexeme
    (name : Text) (kind : NameKind) (lead : Lead) (rest : List Token) :
    memberNameAt (⟨keyLexeme name kind, lead⟩ :: rest) 0 = true := by
  cases kind <;> rfl

theorem memberName_keyLexeme
    {name : Text} {kind : NameKind} (hkind : kind ≠ .computed) (hkey : IsKey name kind)
    (lead : Lead) (rest : List Token) :
    memberName (⟨keyLexeme name kind, lead⟩ :: rest) = .ok ((name, kind), rest) := by
  cases kind with
  | computed => contradiction
  | string => simp [memberName, keyLexeme]
  | identifier | numeric =>
    obtain ⟨string, rfl⟩ := hkey (by decide)
    simp [memberName, keyLexeme]

theorem memberNameAt_eq_false
    {marks : List String} {rest : List Token} (h : SeesOneOf marks rest) (hbracket : "[" ∉ marks) :
    memberNameAt rest 0 = false := by
  obtain ⟨mark, hmark, hrest⟩ := h
  have hne : mark ≠ "[" := fun heq => hbracket (heq ▸ hmark)
  simp only [markAt, beq_iff_eq] at hrest
  simp [memberNameAt, hrest, hne]

/-- A property or a method is read behind its modifier. What decides is that no name stands behind
its name: otherwise the name would count as a modifier. -/
theorem member_named
    (type : TypeReader) (name : Text) (kind : NameKind) {isReadonly : Bool}
    {modifier rest : List Token} {lead : Lead}
    (hmodifier : Spells modifier (lexemeIf isReadonly (.ident "readonly")))
    (hlead : lead.docs = []) (hname : memberNameAt rest 0 = false)
    (hnew : keyLexeme name kind = .ident "new" →
      markAt rest 0 "(" = false ∧ markAt rest 0 "<" = false) :
    member type (modifier ++ ⟨keyLexeme name kind, lead⟩ :: rest) =
      namedMember type isReadonly none (⟨keyLexeme name kind, lead⟩ :: rest) := by
  have hconstruct : ¬(keyLexeme name kind = .ident "new" ∧
      (markAt rest 0 "(" = true ∨ markAt rest 0 "<" = true)) := by
    rintro ⟨hkey, hmark⟩
    simp [hnew hkey] at hmark
  have hdocs : documentation (⟨keyLexeme name kind, lead⟩ :: rest) = none :=
    documentation_of_docs_eq_nil hlead
  have hkeyAt := memberNameAt_keyLexeme name kind lead rest
  cases isReadonly with
  | false =>
    obtain rfl := spells_nil_iff.mp hmodifier
    simp [member, hdocs, hname, hconstruct]
  | true =>
    obtain ⟨first, rfl, hplain⟩ := spells_singleton_iff.mp hmodifier
    have hdocs' : documentation (⟨.ident "readonly", first⟩ :: ⟨keyLexeme name kind, lead⟩ ::
        rest) = none := documentation_of_docs_eq_nil hplain.docs
    simp [member, hdocs', hkeyAt, hname, hconstruct]

theorem property_reads
    (htype : ReadsBelow type bound) {name : Text} {kind : NameKind} {annotated : Option TypeExpr}
    {isOptional isReadonly : Bool} (hkind : kind ≠ .computed) (hkey : IsKey name kind)
    (hannotated : ∀ t ∈ annotated, t.WellFormed)
    (hlength : (TypeExpr.lexemesOf? [.punct ":"] annotated).length ≤ bound) :
    Reads (member type) (Member.property name kind annotated isOptional isReadonly none).lexemes
      (.property name kind annotated isOptional isReadonly none)
      (Member.property name kind annotated isOptional isReadonly none).StopsAt := by
  intro tokens rest htokens hrest
  rw [Member.lexemes, List.append_assoc] at htokens
  obtain ⟨modifier, _, rfl, hmodifier, htokens⟩ := spells_append_iff.mp htokens
  obtain ⟨lead, _, rfl, hplain, htokens⟩ := spells_cons_iff.mp htokens
  obtain ⟨question, colon, rfl, hquestion, hcolon⟩ := spells_append_iff.mp htokens
  have hseesColon := seesOneOf_lexemesOf? hcolon hrest.bare
  have hsees := seesOneOf_lexemeIf hquestion hseesColon
  have hmember := member_named type name kind hmodifier hplain.docs
    (memberNameAt_eq_false hsees (by decide))
    fun _ => ⟨hsees.markAt_eq_false (by decide), hsees.markAt_eq_false (by decide)⟩
  have heat := eat_reads "?" isOptional hquestion (hseesColon.markAt_eq_false (by decide))
  have hparenthesis : markAt (colon ++ rest) 0 "(" = false :=
    hseesColon.markAt_eq_false (by decide)
  have hangle : markAt (colon ++ rest) 0 "<" = false := hseesColon.markAt_eq_false (by decide)
  have hread := annotated_reads htype hannotated hlength hcolon
    ⟨annotated_stopsAt hrest.stops hrest.apart,
      fun hnone => (hrest.bare hnone).markAt_eq_false (by decide)⟩
  simp [hmember, namedMember, annotation, memberName_keyLexeme hkind hkey, heat, hparenthesis, hangle,
    hread]

/-- A parameter list and a result behind it, as methods and call signatures have them. -/
theorem parameters_annotatedResult
    (htype : ReadsBelow type bound) {params : List Parameter} {resultType : Option TypeExpr}
    (hparams : ∀ param ∈ params, param.WellFormed) (hresult : ∀ t ∈ resultType, t.WellFormed)
    (hplain : ∀ t ∈ resultType, startsPredicate t.lexemes = false)
    (hlength : (parenthesizedList (Parameter.lexemesOfAll params) ++
      TypeExpr.lexemesOf? [.punct ":"] resultType).length ≤ bound)
    {front back rest : List Token}
    (hfront : Spells front (parenthesizedList (Parameter.lexemesOfAll params)))
    (hback : Spells back (TypeExpr.lexemesOf? [.punct ":"] resultType))
    (hstops : ∀ t ∈ resultType, t.ResultStopsAt rest)
    (hbare : resultType = none → SeesOneOf memberMarks rest) :
    typeParameters type (front ++ (back ++ rest)) = .ok ([], front ++ (back ++ rest)) ∧
      parameters type (front ++ (back ++ rest)) = .ok (params, back ++ rest) ∧
      behind ":" (result type) (back ++ rest) = .ok (resultType, rest) := by
  rw [List.length_append] at hlength
  have hparameters : parameters type (front ++ (back ++ rest)) = .ok (params, back ++ rest) :=
    parameters_reads htype hparams (by omega) hfront trivial
  have hback' := annotatedResult_reads htype hresult hplain (by omega) hback
    ⟨hstops, fun hnone => (hbare hnone).markAt_eq_false (by decide)⟩
  obtain ⟨lead, front, rfl, -, -⟩ := spells_cons_iff.mp hfront
  have hangle : markAt (⟨.punct "(", lead⟩ :: (front ++ (back ++ rest))) 0 "<" = false := by simp
  exact ⟨by simp [typeParameters, run_eat_of_false hangle], hparameters, hback'⟩

theorem method_reads
    (htype : ReadsBelow type bound) {name : Text} {kind : NameKind} {params : List Parameter}
    {resultType : Option TypeExpr} {isOptional : Bool} (hkind : kind ≠ .computed)
    (hkey : IsKey name kind)
    (hnew : kind = .identifier → isOptional = false → name ≠ "new")
    (hparams : ∀ param ∈ params, param.WellFormed) (hresult : ∀ t ∈ resultType, t.WellFormed)
    (hplain : ∀ t ∈ resultType, startsPredicate t.lexemes = false)
    (hlength : (parenthesizedList (Parameter.lexemesOfAll params) ++
      TypeExpr.lexemesOf? [.punct ":"] resultType).length ≤ bound) :
    Reads (member type) (Member.method name kind params resultType isOptional none).lexemes
      (.method name kind params resultType isOptional none)
      (Member.method name kind params resultType isOptional none).StopsAt := by
  intro tokens rest htokens hrest
  simp only [Member.lexemes, List.append_assoc, List.cons_append] at htokens
  obtain ⟨lead, _, rfl, hfirst, htokens⟩ := spells_cons_iff.mp htokens
  obtain ⟨question, _, rfl, hquestion, htokens⟩ := spells_append_iff.mp htokens
  obtain ⟨front, back, rfl, hfront, hback⟩ := spells_append_iff.mp htokens
  obtain ⟨htypeParameters, hparameters, hback'⟩ :=
    parameters_annotatedResult htype hparams hresult hplain hlength hfront hback
      (result_stopsAt hrest.stops hrest.apart) hrest.bare
  have hparenthesis : markAt (front ++ (back ++ rest)) 0 "(" = true := by
    obtain ⟨lead, front, rfl, -, -⟩ := spells_cons_iff.mp hfront
    simp
  have hsees := seesOneOf_lexemeIf hquestion (seesOneOf_singleton hparenthesis)
  have heat := eat_reads "?" isOptional hquestion
    ((seesOneOf_singleton hparenthesis).markAt_eq_false (by decide))
  have hconstruct : keyLexeme name kind = .ident "new" →
      markAt (question ++ (front ++ (back ++ rest))) 0 "(" = false ∧
        markAt (question ++ (front ++ (back ++ rest))) 0 "<" = false := by
    intro hword
    obtain ⟨rfl, rfl⟩ : kind = .identifier ∧ name = "new" := by
      cases kind with
      | computed => contradiction
      | string | numeric => cases hword
      | identifier =>
        obtain ⟨string, rfl⟩ := hkey (by decide)
        obtain rfl : string = "new" := by simpa [keyLexeme] using hword
        exact ⟨rfl, rfl⟩
    cases isOptional with
    | false => exact absurd rfl (hnew rfl rfl)
    | true =>
      obtain ⟨lead, question, rfl, -, -⟩ := spells_cons_iff.mp hquestion
      simp
  have hmodifier : Spells [] (lexemeIf false (.ident "readonly")) := spells_nil_iff.mpr rfl
  have hmember := member_named type name kind hmodifier hfirst.docs
    (memberNameAt_eq_false hsees (by decide)) hconstruct
  rw [List.nil_append] at hmember
  simp [hmember, namedMember, resultAnnotation, memberName_keyLexeme hkind hkey, heat, hparenthesis,
    htypeParameters, hparameters, hback']

theorem index_reads
    (htype : ReadsBelow type bound) {name : String} {key : TypeExpr} {value : Option TypeExpr}
    {isReadonly : Bool} (hkey : key.WellFormed) (hvalue : ∀ t ∈ value, t.WellFormed)
    (hkeyLength : key.lexemes.length < bound)
    (hvalueLength : (TypeExpr.lexemesOf? [.punct ":"] value).length ≤ bound) :
    Reads (member type) (Member.index (.mk name (some key) false false) value isReadonly).lexemes
      (.index (.mk name (some key) false false) value isReadonly)
      (Member.index (.mk name (some key) false false) value isReadonly).StopsAt := by
  intro tokens rest htokens hrest
  simp only [Member.lexemes, List.append_assoc, List.cons_append, TypeExpr.lexemesOf?,
    List.nil_append] at htokens
  obtain ⟨modifier, _, rfl, hmodifier, htokens⟩ := spells_append_iff.mp htokens
  obtain ⟨opener, _, rfl, hplain, htokens⟩ := spells_cons_iff.mp htokens
  obtain ⟨nameLead, _, rfl, -, htokens⟩ := spells_cons_iff.mp htokens
  obtain ⟨colon, _, rfl, -, htokens⟩ := spells_cons_iff.mp htokens
  obtain ⟨inner, _, rfl, hinner, htokens⟩ := spells_append_iff.mp htokens
  obtain ⟨closer, back, rfl, -, hback⟩ := spells_cons_iff.mp htokens
  have hclosed : SeesOneOf ["]"] (⟨.punct "]", closer⟩ :: (back ++ rest)) :=
    seesOneOf_singleton (by simp)
  have hkeyRead : type true (inner ++ ⟨.punct "]", closer⟩ :: (back ++ rest)) =
      .ok (key, ⟨.punct "]", closer⟩ :: (back ++ rest)) :=
    htype hkey hkeyLength (.inl rfl) hinner (hclosed.stops (by decide))
  have hvalueRead := annotated_reads htype hvalue hvalueLength hback
    ⟨annotated_stopsAt hrest.stops hrest.apart,
      fun hnone => (hrest.bare hnone).markAt_eq_false (by decide)⟩
  have hquestion : eat "?" (back ++ rest) = .ok (false, back ++ rest) :=
    run_eat_of_false ((seesOneOf_lexemesOf? hback hrest.bare).markAt_eq_false (by decide))
  cases isReadonly with
  | false =>
    obtain rfl := spells_nil_iff.mp hmodifier
    simp [member, oneOfAt, identAt, indexSignature, annotation, hkeyRead, hquestion, hvalueRead]
  | true =>
    obtain ⟨first, rfl, hfirst⟩ := spells_singleton_iff.mp hmodifier
    simp [member, memberNameAt, oneOfAt, identAt, indexSignature, annotation, hkeyRead, hquestion,
      hvalueRead]

theorem call_reads
    (htype : ReadsBelow type bound) {params : List Parameter} {resultType : Option TypeExpr}
    {isConstructor : Bool} (hparams : ∀ param ∈ params, param.WellFormed)
    (hresult : ∀ t ∈ resultType, t.WellFormed)
    (hplain : ∀ t ∈ resultType, startsPredicate t.lexemes = false)
    (hlength : (parenthesizedList (Parameter.lexemesOfAll params) ++
      TypeExpr.lexemesOf? [.punct ":"] resultType).length ≤ bound) :
    Reads (member type) (Member.call params resultType isConstructor).lexemes
      (.call params resultType isConstructor)
      (Member.call params resultType isConstructor).StopsAt := by
  intro tokens rest htokens hrest
  simp only [Member.lexemes, List.append_assoc] at htokens
  obtain ⟨keyword, _, rfl, hkeyword, htokens⟩ := spells_append_iff.mp htokens
  obtain ⟨front, back, rfl, hfront, hback⟩ := spells_append_iff.mp htokens
  obtain ⟨htypeParameters, hparameters, hback'⟩ :=
    parameters_annotatedResult htype hparams hresult hplain hlength hfront hback
      (result_stopsAt hrest.stops hrest.apart) hrest.bare
  have hparenthesis : lexemeAt? (front ++ (back ++ rest)) 0 = some (.punct "(") :=
    hfront.lexemeAt?_zero
  cases isConstructor with
  | false =>
    obtain rfl := spells_nil_iff.mp hkeyword
    simp [member, callSignature, resultAnnotation, markAt, wordAt, oneOfAt, nameAt?, hparenthesis,
      htypeParameters, hparameters, hback']
  | true =>
    obtain ⟨first, rfl, hfirst⟩ := spells_singleton_iff.mp hkeyword
    simp [member, callSignature, resultAnnotation, markAt, wordAt, oneOfAt, nameAt?, hparenthesis,
      htypeParameters, hparameters, hback']

theorem member_reads
    (htype : ReadsBelow type bound) {m : Member} (hwell : m.WellFormed)
    (hlength : m.lexemes.length ≤ bound) :
    Reads (member type) m.lexemes m m.StopsAt := by
  cases hwell with
  | property hkind hkey hannotated =>
    refine property_reads htype hkind hkey hannotated ?_
    simp only [Member.lexemes, List.length_append, List.length_cons] at hlength
    omega
  | method hkind hkey hnew hparams hresult hplain =>
    refine method_reads htype hkind hkey hnew hparams hresult hplain ?_
    simp only [Member.lexemes, List.length_append, List.length_cons] at hlength ⊢
    omega
  | index hkey hvalue =>
    simp only [Member.lexemes, List.length_append, List.length_cons, TypeExpr.lexemesOf?]
      at hlength
    exact index_reads htype hkey hvalue (by omega) (by omega)
  | call hparams hresult hplain =>
    refine call_reads htype hparams hresult hplain ?_
    simp only [Member.lexemes, List.length_append] at hlength ⊢
    omega

theorem member_opens
    (m : Member) :
    ∃ first more, m.lexemes = first :: more ∧
      first ≠ .punct "\x7d" ∧ first ≠ .punct ";" ∧ first ≠ .punct "," := by
  rcases m with ⟨name, kind, _, _, _ | _, _⟩ | ⟨name, kind⟩ | ⟨⟨name, _, _, _⟩, _, _ | _⟩ |
    ⟨_, _, _ | _⟩ <;> simp [Member.lexemes, lexemeIf, parenthesizedList]

theorem membersWithin_eq
    (htype : ReadsBelow type bound) {ms : List Member} (hwell : ∀ m ∈ ms, m.WellFormed)
    (hlength : (Member.lexemesOfAll ms).length ≤ bound) {tokens rest : List Token}
    (htokens : Spells tokens (Member.lexemesOfAll ms)) (hrest : markAt rest 0 "\x7d" = true)
    {steps : Nat} (hsteps : 2 * ms.length < steps) :
    membersWithin type steps (tokens ++ rest) = .ok (ms, rest) := by
  induction ms generalizing tokens steps with
  | nil =>
    obtain ⟨steps, rfl⟩ := Nat.exists_eq_succ_of_ne_zero (Nat.ne_zero_of_lt hsteps)
    obtain rfl := spells_nil_iff.mp htokens
    simp [membersWithin, hrest]
  | cons m ms ih =>
    obtain ⟨steps, rfl⟩ : ∃ k, steps = k + 2 := ⟨steps - 2, by simp at hsteps; omega⟩
    obtain ⟨front, _, rfl, hfront, htokens⟩ := spells_append_iff.mp htokens
    obtain ⟨lead, back, rfl, -, hback⟩ := spells_cons_iff.mp htokens
    simp only [Member.lexemesOfAll, List.length_append, List.length_cons] at hlength hsteps
    have hsees : SeesOneOf memberMarks (⟨.punct ";", lead⟩ :: (back ++ rest)) :=
      ⟨";", by decide, by simp⟩
    have hfirst :=
      member_reads htype (hwell m List.mem_cons_self) (by omega) hfront (hsees.memberStops m)
    have hmore : membersWithin type steps (back ++ rest) = .ok (ms, rest) :=
      ih (fun m' hm' => hwell m' (List.mem_cons_of_mem _ hm')) (by omega) hback (by omega)
    obtain ⟨first, more, hlexemes, hbrace, hsemicolon, hcomma⟩ := member_opens m
    have hhead : ∀ mark, first ≠ .punct mark →
        markAt (front ++ ⟨.punct ";", lead⟩ :: (back ++ rest)) 0 mark = false := by
      intro mark hne
      simp [markAt, (hlexemes ▸ hfront).lexemeAt?_zero, hne]
    simp [membersWithin, hhead _ hbrace, hhead _ hsemicolon, hhead _ hcomma, hfirst, hmore]

/-- A member has at least one lexeme, and a semicolon behind it. -/
theorem two_mul_length_le
    (ms : List Member) :
    2 * ms.length ≤ (Member.lexemesOfAll ms).length := by
  induction ms with
  | nil => simp
  | cons m ms ih =>
    obtain ⟨first, more, hlexemes, -⟩ := member_opens m
    simp only [Member.lexemesOfAll, hlexemes, List.length_append, List.length_cons]
    omega

theorem members_reads
    (htype : ReadsBelow type bound) {ms : List Member} (hwell : ∀ m ∈ ms, m.WellFormed)
    (hlength : (Member.lexemesOfAll ms).length ≤ bound) :
    Reads (members type) (Member.lexemesOfAll ms ++ [.punct "\x7d"]) ms fun _ => True := by
  intro tokens rest htokens _
  obtain ⟨front, _, rfl, hfront, htokens⟩ := spells_append_iff.mp htokens
  obtain ⟨lead, rfl, -⟩ := spells_singleton_iff.mp htokens
  have hsteps : 2 * ms.length < (front ++ ⟨.punct "\x7d", lead⟩ :: rest).length + 1 := by
    have hcount := two_mul_length_le ms
    rw [List.length_append, hfront.length_eq]
    omega
  have hmark : markAt (⟨.punct "\x7d", lead⟩ :: rest) 0 "\x7d" = true := by simp
  have hread := membersWithin_eq htype hwell hlength hfront hmark hsteps
  rw [List.append_assoc, List.singleton_append]
  simp [members, -List.length_append, hread]

end

end Parse

end EntityDiagram.Declaration
