import EntityDiagram.Declaration.Parse.Types
import EntityDiagram.Proofs.Declaration.SignatureReading

/-!
# Types come back from their spelling

A type is read level by level. On each level the reader takes the spelling of every type that binds
at least as tightly as the level, in front of tokens that do not continue it. What stands inside
brackets, and every other part that is a full type, is shorter than the whole; so the readers of all
depths are covered by one induction on the depth, and the number of tokens is depth enough.
-/

namespace EntityDiagram.Declaration

open Source (Lead Lexeme Token)

namespace Parse

variable {type : TypeReader} {bound : Nat}

/-! ## Bracketed types -/

theorem functionType_reads
    (htype : ReadsBelow type bound) {params : List Parameter} {resultType : TypeExpr}
    (isConstructor : Bool) (hparams : ∀ param ∈ params, param.WellFormed)
    (hresult : resultType.WellFormed) (hplain : startsPredicate resultType.lexemes = false)
    (hlength : (parenthesizedList (Parameter.lexemesOfAll params)).length +
      resultType.lexemes.length ≤ bound) :
    Reads (functionType type isConstructor)
      (parenthesizedList (Parameter.lexemesOfAll params) ++ .punct "=>" :: resultType.lexemes)
      (.function params (some resultType) isConstructor) resultType.ResultStopsAt := by
  intro tokens rest htokens hrest
  obtain ⟨front, _, rfl, hfront, htokens⟩ := spells_append_iff.mp htokens
  obtain ⟨arrow, back, rfl, -, hback⟩ := spells_cons_iff.mp htokens
  have hopens : 0 < (parenthesizedList (Parameter.lexemesOfAll params)).length := by
    simp [parenthesizedList]
  have hparameters : parameters type (front ++ ⟨.punct "=>", arrow⟩ :: (back ++ rest)) =
      .ok (params, ⟨.punct "=>", arrow⟩ :: (back ++ rest)) :=
    parameters_reads htype hparams (by omega) hfront trivial
  have hresultType := result_reads htype hresult hplain (by omega) hback hrest
  obtain ⟨lead, front, rfl, -, -⟩ := spells_cons_iff.mp hfront
  have hangle : ∀ more, eat "<" (⟨.punct "(", lead⟩ :: more) =
      .ok (false, ⟨.punct "(", lead⟩ :: more) := fun _ => run_eat_of_false (by simp)
  simp only [List.cons_append] at hparameters
  simp [functionType, typeParameters, hangle, hparameters, hresultType]

theorem optionalSign_of_seesOneOf
    {rest : List Token} {marks : List String} (h : SeesOneOf marks rest) (hplus : "+" ∉ marks)
    (hminus : "-" ∉ marks) :
    optionalSign rest = .ok ((), rest) := by
  simp [optionalSign, run_eat_of_false (h.markAt_eq_false hplus),
    run_eat_of_false (h.markAt_eq_false hminus)]

theorem mappedType_reads
    (htype : ReadsBelow type bound) {name : String} {keys : TypeExpr} {value : Option TypeExpr}
    (hkeys : keys.WellFormed) (hvalue : ∀ t ∈ value, t.WellFormed)
    (hlength : (TypeExpr.mapped name (some keys) value).lexemes.length ≤ bound) :
    Reads (mappedType type) (TypeExpr.mapped name (some keys) value).lexemes
      (.mapped name (some keys) value) fun _ => True := by
  intro tokens rest htokens _
  simp only [TypeExpr.lexemes, TypeExpr.lexemesOf?, List.cons_append, List.nil_append,
    List.append_assoc, List.length_cons, List.length_append, List.length_nil] at htokens hlength
  obtain ⟨brace, _, rfl, -, htokens⟩ := spells_cons_iff.mp htokens
  obtain ⟨bracket, _, rfl, -, htokens⟩ := spells_cons_iff.mp htokens
  obtain ⟨nameLead, _, rfl, -, htokens⟩ := spells_cons_iff.mp htokens
  obtain ⟨word, _, rfl, -, htokens⟩ := spells_cons_iff.mp htokens
  obtain ⟨inner, _, rfl, hinner, htokens⟩ := spells_append_iff.mp htokens
  obtain ⟨closer, _, rfl, -, htokens⟩ := spells_cons_iff.mp htokens
  obtain ⟨colon, _, rfl, hcolon, htokens⟩ := spells_append_iff.mp htokens
  obtain ⟨last, rfl, -⟩ := spells_singleton_iff.mp htokens
  have hlast : SeesOneOf ["\x7d"] (⟨.punct "\x7d", last⟩ :: rest) :=
    seesOneOf_singleton (by simp)
  have hsees := seesOneOf_lexemesOf? hcolon fun _ => hlast
  have hclosed : SeesOneOf ["]"]
      (⟨.punct "]", closer⟩ :: (colon ++ ⟨.punct "\x7d", last⟩ :: rest)) :=
    seesOneOf_singleton (by simp)
  have hkeysRead : type true
      (inner ++ ⟨.punct "]", closer⟩ :: (colon ++ ⟨.punct "\x7d", last⟩ :: rest)) =
        .ok (keys, ⟨.punct "]", closer⟩ :: (colon ++ ⟨.punct "\x7d", last⟩ :: rest)) :=
    htype hkeys (by omega) (.inl rfl) hinner (hclosed.stops (by decide))
  have hsign := optionalSign_of_seesOneOf hsees (by decide) (by decide)
  have hquestion := run_eat_of_false (hsees.markAt_eq_false (by decide : "?" ∉ [":", "\x7d"]))
  have hvalueRead := annotated_reads htype hvalue (by omega) hcolon
    ⟨fun _ _ => hlast.stops (by decide), fun _ => hlast.markAt_eq_false (by decide)⟩
  have hsemicolon := run_eat_of_false (hlast.markAt_eq_false (by decide : ";" ∉ ["\x7d"]))
  have hopening : ∀ more, optionalSign (⟨.punct "[", bracket⟩ :: more) =
      .ok ((), ⟨.punct "[", bracket⟩ :: more) := by
    intro more
    have hbracket : SeesOneOf ["["] (⟨.punct "[", bracket⟩ :: more) :=
      seesOneOf_singleton (by simp)
    exact optionalSign_of_seesOneOf hbracket (by decide) (by decide)
  simp [mappedType, annotation, eatWord, hopening, hkeysRead, hsign, hquestion, hvalueRead,
    hsemicolon]

theorem tupleElement_reads
    (htype : ReadsBelow type bound) {t : TypeExpr} (hwell : t.WellFormed)
    (hlength : t.lexemes.length < bound) :
    Reads (tupleElement type) t.lexemes t (SeesOneOf [",", "]"]) := by
  intro tokens rest htokens hrest
  have hread : type true (tokens ++ rest) = .ok (t, rest) :=
    htype hwell hlength (.inl rfl) htokens (hrest.stops (by decide))
  have hdots : markAt (tokens ++ rest) 0 "..." = false := hwell.markAt_eq_false rfl htokens rest
  obtain ⟨⟨first, more, hlexemes, -⟩, hsecond⟩ := hwell.opens
  -- An element that starts with a name has neither a colon nor a question mark behind it.
  have hunnamed : identAt (tokens ++ rest) 0 = true →
      markAt (tokens ++ rest) 1 ":" = false ∧ markAt (tokens ++ rest) 1 "?" = false := by
    rw [hlexemes] at htokens
    obtain ⟨lead, behind, rfl, -, hbehind⟩ := spells_cons_iff.mp htokens
    intro hident
    cases more with
    | nil =>
      obtain rfl := spells_nil_iff.mp hbehind
      exact ⟨hrest.markAt_eq_false (by decide), hrest.markAt_eq_false (by decide)⟩
    | cons second more =>
      obtain ⟨lead', behind, rfl, -, -⟩ := spells_cons_iff.mp hbehind
      cases first with
      | ident name => simpa using hsecond name second more hlexemes
      | _ => simp [identAt, nameAt?] at hident
  have hquestion := run_eat_of_false (hrest.markAt_eq_false (by decide : "?" ∉ [",", "]"]))
  have hname : ¬(identAt (tokens ++ rest) 0 = true ∧ (markAt (tokens ++ rest) 1 ":" = true ∨
      markAt (tokens ++ rest) 1 "?" = true ∧ markAt (tokens ++ rest) 2 ":" = true)) := by
    rintro ⟨hident, hmarks⟩
    simp [hunnamed hident] at hmarks
  simp [tupleElement, run_eat_of_false hdots, hname, hread, hquestion]

theorem tupleType_reads
    (htype : ReadsBelow type bound) {elements : List TypeExpr}
    (hwell : ∀ element ∈ elements, element.WellFormed)
    (hlength : (TypeExpr.tuple elements).lexemes.length ≤ bound) :
    Reads (tupleType type) (TypeExpr.tuple elements).lexemes (.tuple elements) fun _ => True := by
  intro tokens rest htokens _
  rw [TypeExpr.lexemes] at htokens hlength
  obtain ⟨lead, tokens, rfl, -, htokens⟩ := spells_cons_iff.mp htokens
  have hitem : ∀ element ∈ elements,
      Reads (tupleElement type) element.lexemes element (SeesOneOf [",", "]"]) := by
    intro element helement
    have hshort := length_lexemes_le_of_mem "," helement
    simp only [List.length_append, List.length_cons] at hlength
    exact tupleElement_reads htype (hwell element helement) (by omega)
  have hopen : ∀ element ∈ elements, ∃ first more,
      element.lexemes = first :: more ∧ first ≠ .punct "]" := by
    intro element helement
    obtain ⟨first, more, hlexemes, hstarts⟩ := (hwell element helement).opens.first
    exact ⟨first, more, hlexemes, ne_punct_of_startsType hstarts rfl⟩
  rw [TypeExpr.lexemesOfAll_eq_map] at htokens
  have hlist : commaList "]" (tupleElement type) (tokens ++ rest) = .ok (elements, rest) :=
    commaList_reads (by decide) hitem hopen htokens trivial
  simp [tupleType, hlist]

/-! ## References -/

/-- Behind the name of a reference nothing makes it longer or turns it into another kind of type. -/
theorem notContinued_angled
    {name : String} {arguments : List TypeExpr} {tokens rest : List Token} {level : Nat}
    (htokens : Spells tokens (angled (TypeExpr.lexemesOfAll arguments)))
    (hrest : (TypeExpr.reference name arguments).StopsAt level rest) :
    markAt (tokens ++ rest) 0 "." = false ∧ markAt (tokens ++ rest) 0 "(" = false ∧
      (name = "abstract" → wordAt (tokens ++ rest) 0 "new" = false) := by
  cases arguments with
  | nil =>
    obtain rfl := spells_nil_iff.mp htokens
    refine ⟨hrest.stops.dot, hrest.stops.parenthesis, ?_⟩
    rintro rfl
    rw [List.nil_append]
    cases hword : nameAt? rest 0 with
    | none =>
      have hident : identAt rest 0 = false := by rw [identAt, hword]; rfl
      exact wordAt_of_not_ident hident "new"
    | some word =>
      have hapart := hrest.apart word hword
      rw [wordAt_of_nameAt? hword]
      simpa [TypeExpr.absorbs] using hapart
  | cons first more =>
    obtain ⟨lead, tokens, rfl, -, -⟩ := spells_cons_iff.mp htokens
    simp

/-- Type arguments are only looked for on the line of the name, and there they are found. -/
theorem typeArguments_onLine
    (htype : ReadsBelow type bound) {arguments : List TypeExpr}
    (hwell : ∀ argument ∈ arguments, argument.WellFormed)
    (hlength : (angled (TypeExpr.lexemesOfAll arguments)).length ≤ bound)
    {level : Nat} {tokens rest : List Token}
    (htokens : Spells tokens (angled (TypeExpr.lexemesOfAll arguments)))
    (hrest : Stops level rest) :
    (onNewLine (tokens ++ rest) = true ∧ tokens = [] ∧ arguments = []) ∨
      (onNewLine (tokens ++ rest) = false ∧
        typeArguments type (tokens ++ rest) = .ok (arguments, rest)) := by
  have hread : (arguments = [] → markAt rest 0 "<" = false) →
      typeArguments type (tokens ++ rest) = .ok (arguments, rest) :=
    typeArguments_reads htype hwell hlength htokens
  cases arguments with
  | nil =>
    obtain rfl := spells_nil_iff.mp htokens
    rw [List.nil_append] at hread ⊢
    cases hline : onNewLine rest with
    | true => exact .inl ⟨rfl, rfl, rfl⟩
    | false =>
      have hangle : markAt rest 0 "<" = false := by simpa [hline] using hrest.arguments
      exact .inr ⟨rfl, hread fun _ => hangle⟩
  | cons first more =>
    obtain ⟨lead, tokens, rfl, hplain, -⟩ := spells_cons_iff.mp htokens
    have hline : lead.newline = false := hplain.newline_eq_false fun hmay => hmay.2.1 rfl
    exact .inr ⟨hline, hread (by simp)⟩

/-- A name that may be that of a reference is taken for nothing else. -/
theorem namedType_of_isReferenceName
    (type : TypeReader) {name head : String} {more : List String}
    (hname : isReferenceName name = true) (hparts : nameParts name = head :: more) (lead : Lead)
    {tokens : List Token}
    (hdot : more ≠ [] → markAt tokens 0 "." = true)
    (hparenthesis : markAt tokens 0 "(" = false)
    (hconstruct : head = "abstract" → wordAt tokens 0 "new" = false) :
    namedType type head (⟨.ident head, lead⟩ :: tokens) =
      (do
        let path ← entityName
        let remaining ← get
        let arguments ← if onNewLine remaining then pure [] else typeArguments type
        return .reference path arguments : Parse TypeExpr) (⟨.ident head, lead⟩ :: tokens) := by
  -- A dotted name is only kept from starting with a reserved head; any other goes on with a dot.
  have hhead : head ∉ reservedHeads ∧ (head ∈ reservedWords → markAt tokens 0 "." = true) := by
    simp only [isReferenceName, hparts] at hname
    cases more with
    | nil =>
      have hword : head ∉ reservedWords := by simpa using hname
      exact ⟨fun hmem => hword (by simp_all [reservedWords]), fun hmem => absurd hmem hword⟩
    | cons second more =>
      exact ⟨by simpa using hname, fun _ => hdot (by simp)⟩
  obtain ⟨hreserved, hword⟩ := hhead
  have hdotted : head ∈ reservedWords → lexemeAt? tokens 0 = some (.punct ".") := by
    intro hmem
    simpa [markAt] using hword hmem
  have htruth : head ≠ "true" ∧ head ≠ "false" ∧ head ≠ "typeof" := by
    simpa [reservedHeads] using hreserved
  have hnew : ¬(head = "new" ∧ (markAt tokens 0 "(" = true ∨ markAt tokens 0 "<" = true)) := by
    rintro ⟨rfl, hmark⟩
    simp [markAt, hdotted (by decide)] at hmark
  have habstract : ¬(head = "abstract" ∧ wordAt tokens 0 "new" = true) := by
    rintro ⟨hhead, hword⟩
    simp [hconstruct hhead] at hword
  have hkeyword : ¬(keywordTypes.contains head = true ∧ markAt tokens 0 "." = false) := by
    rintro ⟨hmem, hmark⟩
    have hreserved : head ∈ reservedWords := by
      simp only [List.contains_iff_mem] at hmem
      simp [reservedWords, hmem]
    simp [markAt, hdotted hreserved] at hmark
  have himport : ¬(head = "import" ∧ markAt tokens 0 "(" = true) := by
    simp [hparenthesis]
  simp only [List.contains_iff_mem] at hkeyword
  simp [namedType, htruth, hnew, habstract, himport, hkeyword]

theorem reference_reads
    (htype : ReadsBelow type bound) {name : String} {arguments : List TypeExpr}
    (hname : isReferenceName name = true)
    (hwell : ∀ argument ∈ arguments, argument.WellFormed)
    (hlength : (TypeExpr.reference name arguments).lexemes.length ≤ bound) :
    Reads (primaryType type) (TypeExpr.reference name arguments).lexemes
      (.reference name arguments) ((TypeExpr.reference name arguments).StopsAt 5) := by
  intro tokens rest htokens hrest
  rw [TypeExpr.lexemes, List.length_append] at hlength
  rw [TypeExpr.lexemes] at htokens
  obtain ⟨front, back, rfl, hfront, hback⟩ := spells_append_iff.mp htokens
  obtain ⟨hdot, hparenthesis, hconstruct⟩ := notContinued_angled hback hrest
  have hpath : entityName (front ++ (back ++ rest)) = .ok (name, back ++ rest) :=
    entityName_reads name hfront hdot
  have harguments := typeArguments_onLine htype hwell (by omega) hback hrest.stops
  obtain ⟨head, more, hparts, hlexemes⟩ := nameLexemes_eq name
  rw [hlexemes] at hfront
  obtain ⟨lead, front, rfl, -, hmore⟩ := spells_cons_iff.mp hfront
  have hbehind : (more ≠ [] → markAt (front ++ (back ++ rest)) 0 "." = true) ∧
      markAt (front ++ (back ++ rest)) 0 "(" = false ∧
      (head = "abstract" → wordAt (front ++ (back ++ rest)) 0 "new" = false) := by
    cases more with
    | nil =>
      obtain rfl := spells_nil_iff.mp hmore
      have hname : head = name := by simpa [hparts] using intercalate_nameParts name
      exact ⟨by simp, hparenthesis, fun hhead => hconstruct (hname.symm.trans hhead)⟩
    | cons part more =>
      obtain ⟨lead, front, rfl, -, -⟩ := spells_cons_iff.mp hmore
      simp
  obtain ⟨hdots, hopening, hword⟩ := hbehind
  have hnamed := namedType_of_isReferenceName type hname hparts lead hdots hopening hword
  rw [List.cons_append] at hpath
  simp only [List.append_assoc, List.cons_append, primaryType, run_bind, run_get, ok_bind,
    lexemeAt?_cons_zero, hnamed, hpath]
  rcases harguments with ⟨hline, rfl, rfl⟩ | ⟨hline, hread⟩
  · rw [List.nil_append] at hline ⊢
    simp [hline]
  · simp [hline, hread]

/-! ## Primary types -/

theorem keyword_reads
    {name : String} (hname : name ∈ keywordTypes) :
    Reads (primaryType type) [.ident name] (.keyword name) ((TypeExpr.keyword name).StopsAt 5) := by
  intro tokens rest htokens hrest
  obtain ⟨lead, rfl, -⟩ := spells_singleton_iff.mp htokens
  have hkeywords : ∀ word ∈ ["true", "false", "new", "abstract", "typeof", "import"],
      word ∉ keywordTypes := by decide
  have hother : ∀ word ∈ ["true", "false", "new", "abstract", "typeof", "import"], name ≠ word := by
    rintro word hword rfl
    exact hkeywords _ hword hname
  simp only [List.mem_cons, List.not_mem_nil, or_false, forall_eq_or_imp, forall_eq] at hother
  simp [primaryType, namedType, hother, hname, hrest.stops.dot]

theorem integer_reads
    (value : Int) :
    Reads (primaryType type) (Literal.integer value).lexemes (.literal (some (.integer value)))
      fun _ => True := by
  intro tokens rest htokens _
  cases value with
  | ofNat n =>
    obtain ⟨lead, rfl, -⟩ := spells_singleton_iff.mp htokens
    simp [primaryType, numeral, Literal.ofNumeral_spellingOf]
  | negSucc n =>
    obtain ⟨sign, _, rfl, -, htokens⟩ := spells_cons_iff.mp htokens
    obtain ⟨lead, rfl, -⟩ := spells_singleton_iff.mp htokens
    simp [primaryType, markedType, numeral, Literal.ofNumeral_spellingOf, Literal.neg,
      Int.negSucc_eq]

theorem parenthesized_reads
    (htype : ReadsBelow type bound) {inner : TypeExpr} (hinner : inner.WellFormed)
    (hlength : (TypeExpr.parenthesized inner).lexemes.length ≤ bound) :
    Reads (primaryType type) (TypeExpr.parenthesized inner).lexemes (.parenthesized inner)
      ((TypeExpr.parenthesized inner).StopsAt 5) := by
  intro tokens rest htokens hrest
  rw [TypeExpr.lexemes] at htokens hlength
  obtain ⟨first, tokens, rfl, -, htokens⟩ := spells_cons_iff.mp htokens
  obtain ⟨front, _, rfl, hfront, htokens⟩ := spells_append_iff.mp htokens
  obtain ⟨last, rfl, -⟩ := spells_singleton_iff.mp htokens
  simp only [List.length_cons, List.length_append] at hlength
  have hclosed : SeesOneOf [")"] (⟨.punct ")", last⟩ :: rest) := seesOneOf_singleton (by simp)
  have hread : type true (front ++ ⟨.punct ")", last⟩ :: rest) =
      .ok (inner, ⟨.punct ")", last⟩ :: rest) :=
    htype hinner (by omega) (.inl rfl) hfront (hclosed.stops (by decide))
  have hahead : functionTypeAhead (⟨.punct "(", first⟩ :: (front ++ ⟨.punct ")", last⟩ :: rest)) =
      false := functionTypeAhead_parenthesized hfront hinner hrest.stops.arrow
  simp [primaryType, markedType, hahead, hread]

theorem object_reads
    (htype : ReadsBelow type bound) {ms : List Member} (hwell : ∀ m ∈ ms, m.WellFormed)
    (hlength : (TypeExpr.object ms).lexemes.length ≤ bound) :
    Reads (primaryType type) (TypeExpr.object ms).lexemes (.object ms) fun _ => True := by
  intro tokens rest htokens _
  rw [TypeExpr.lexemes] at htokens hlength
  obtain ⟨first, tokens, rfl, -, htokens⟩ := spells_cons_iff.mp htokens
  simp only [List.length_cons, List.length_append] at hlength
  have hread : members type (tokens ++ rest) = .ok (ms, rest) :=
    members_reads htype hwell (by omega) htokens trivial
  have hahead : mappedTypeAhead (⟨.punct "\x7b", first⟩ :: (tokens ++ rest)) = false := by
    obtain ⟨front, _, rfl, hfront, htokens⟩ := spells_append_iff.mp htokens
    obtain ⟨last, rfl, -⟩ := spells_singleton_iff.mp htokens
    rw [List.append_assoc]
    exact mappedTypeAhead_object hfront hwell
  simp [primaryType, markedType, hahead, hread]

theorem mapped_reads
    (htype : ReadsBelow type bound) {name : String} {keys : TypeExpr} {value : Option TypeExpr}
    (hkeys : keys.WellFormed) (hvalue : ∀ t ∈ value, t.WellFormed)
    (hlength : (TypeExpr.mapped name (some keys) value).lexemes.length ≤ bound) :
    Reads (primaryType type) (TypeExpr.mapped name (some keys) value).lexemes
      (.mapped name (some keys) value) fun _ => True := by
  intro tokens rest htokens _
  have hread : mappedType type (tokens ++ rest) = .ok (.mapped name (some keys) value, rest) :=
    mappedType_reads htype hkeys hvalue hlength htokens trivial
  simp only [TypeExpr.lexemes, List.cons_append] at htokens
  obtain ⟨brace, _, rfl, -, htokens⟩ := spells_cons_iff.mp htokens
  obtain ⟨bracket, _, rfl, -, htokens⟩ := spells_cons_iff.mp htokens
  obtain ⟨nameLead, _, rfl, -, htokens⟩ := spells_cons_iff.mp htokens
  obtain ⟨word, _, rfl, -, htokens⟩ := spells_cons_iff.mp htokens
  simp only [List.cons_append] at hread ⊢
  simp [primaryType, markedType, mappedTypeAhead, identAt, hread]

theorem function_reads
    (htype : ReadsBelow type bound) {params : List Parameter} {resultType : TypeExpr}
    (isConstructor : Bool) (hparams : ∀ param ∈ params, param.WellFormed)
    (hresult : resultType.WellFormed) (hplain : startsPredicate resultType.lexemes = false)
    (hlength : (TypeExpr.function params (some resultType) isConstructor).lexemes.length ≤ bound) :
    Reads (primaryType type) (TypeExpr.function params (some resultType) isConstructor).lexemes
      (.function params (some resultType) isConstructor) resultType.ResultStopsAt := by
  intro tokens rest htokens hrest
  simp only [TypeExpr.lexemes, TypeExpr.lexemesOf?, List.nil_append, List.append_assoc,
    List.length_append, List.length_cons] at htokens hlength
  obtain ⟨keyword, tokens, rfl, hkeyword, htokens⟩ := spells_append_iff.mp htokens
  have hread :=
    functionType_reads htype isConstructor hparams hresult hplain (by omega) htokens hrest
  obtain ⟨front, _, rfl, hfront, htokens⟩ := spells_append_iff.mp htokens
  obtain ⟨arrow, back, rfl, -, -⟩ := spells_cons_iff.mp htokens
  obtain ⟨first, front, rfl, -, hfront⟩ := spells_cons_iff.mp hfront
  cases isConstructor with
  | false =>
    obtain rfl := spells_nil_iff.mp hkeyword
    obtain ⟨inner, _, rfl, hinner, hclose⟩ := spells_append_iff.mp hfront
    obtain ⟨last, rfl, -⟩ := spells_singleton_iff.mp hclose
    have hahead : functionTypeAhead (⟨.punct "(", first⟩ ::
        (inner ++ ⟨.punct ")", last⟩ :: ⟨.punct "=>", arrow⟩ :: (back ++ rest))) = true :=
      functionTypeAhead_function hinner (by simp)
    simp only [List.cons_append, List.append_assoc, List.nil_append] at hread ⊢
    simp [primaryType, markedType, hahead, hread]
  | true =>
    obtain ⟨new, rfl, -⟩ := spells_singleton_iff.mp hkeyword
    simp only [List.cons_append, List.append_assoc] at hread ⊢
    simp [primaryType, namedType, hread]

theorem primary_reads
    (htype : ReadsBelow type bound) {t : TypeExpr} (hwell : t.WellFormed)
    (htight : 5 ≤ t.tightness) (hlength : t.lexemes.length ≤ bound) :
    Reads (primaryType type) t.lexemes t (t.StopsAt 5) := by
  cases hwell with
  | keyword hname => exact keyword_reads hname
  | reference hname harguments => exact reference_reads htype hname harguments hlength
  | text | truth | template =>
    intro tokens rest htokens _
    obtain ⟨lead, rfl, -⟩ := spells_singleton_iff.mp htokens
    simp [primaryType, namedType]
  | integer => exact (integer_reads _).mono fun _ _ => trivial
  | object hmembers => exact (object_reads htype hmembers hlength).mono fun _ _ => trivial
  | mapped hkeys hvalue => exact (mapped_reads htype hkeys hvalue hlength).mono fun _ _ => trivial
  | @tuple elements helements =>
    intro tokens rest htokens _
    have hread : tupleType type (tokens ++ rest) = .ok (.tuple elements, rest) :=
      tupleType_reads htype helements hlength htokens trivial
    obtain ⟨lead, tokens, rfl, -, htokens⟩ := spells_cons_iff.mp htokens
    simp only [List.cons_append] at hread ⊢
    simp [primaryType, markedType, hread]
  | parenthesized hinner => exact parenthesized_reads htype hinner hlength
  | _ => simp [TypeExpr.tightness] at htight

/-! ## Suffixes -/

/-- The type with a suffix behind it: an index, or nothing for the array suffix. -/
def withSuffix (base : TypeExpr) : Option TypeExpr → TypeExpr
  | none => .array base
  | some index => .indexed base index

/-- The lexemes of a suffix. -/
def suffixLexemes (suffix : Option TypeExpr) : List Lexeme :=
  .punct "[" :: TypeExpr.lexemesOf? [] suffix ++ [.punct "]"]

/-- The type is a primary type with suffixes behind it. -/
structure Suffixed
    (t core : TypeExpr) (suffixes : List (Option TypeExpr)) : Prop where
  wellFormed : core.WellFormed
  tight : 5 ≤ core.tightness
  indices : ∀ suffix ∈ suffixes, ∀ index ∈ suffix, index.WellFormed
  eq : t = suffixes.foldl withSuffix core
  lexemes : t.lexemes = core.lexemes ++ suffixes.flatMap suffixLexemes

theorem suffixed_of_primary
    {t : TypeExpr} (hwell : t.WellFormed) (htight : 5 ≤ t.tightness) :
    Suffixed t t [] :=
  ⟨hwell, htight, by simp, rfl, by simp⟩

theorem Suffixed.snoc
    {t core : TypeExpr} {suffixes : List (Option TypeExpr)} (h : Suffixed t core suffixes)
    (suffix : Option TypeExpr) (hsuffix : ∀ index ∈ suffix, index.WellFormed)
    (hlexemes : (withSuffix t suffix).lexemes = t.lexemes ++ suffixLexemes suffix) :
    Suffixed (withSuffix t suffix) core (suffixes ++ [suffix]) where
  wellFormed := h.wellFormed
  tight := h.tight
  indices := by
    intro other hother
    rcases List.mem_append.mp hother with hmem | hmem
    · exact h.indices other hmem
    · rwa [List.mem_singleton.mp hmem]
  eq := by rw [List.foldl_append, ← h.eq, List.foldl_cons, List.foldl_nil]
  lexemes := by
    rw [hlexemes, h.lexemes, List.flatMap_append, List.append_assoc, List.flatMap_singleton]

/-- A type on the level of suffixes is a primary type with suffixes. -/
theorem exists_suffixed
    {t : TypeExpr} (hwell : t.WellFormed) (htight : 4 ≤ t.tightness) :
    ∃ core suffixes, Suffixed t core suffixes := by
  by_cases hprimary : 5 ≤ t.tightness
  · exact ⟨t, [], suffixed_of_primary hwell hprimary⟩
  cases hwell with
  | @array element helement_tight helement =>
    obtain ⟨core, suffixes, hsuffixed⟩ := exists_suffixed helement helement_tight
    exact ⟨core, suffixes ++ [none], hsuffixed.snoc none (by simp) rfl⟩
  | @indexed base index hbase_tight hbase hindex =>
    obtain ⟨core, suffixes, hsuffixed⟩ := exists_suffixed hbase hbase_tight
    have hlexemes : (withSuffix base (some index)).lexemes =
        base.lexemes ++ suffixLexemes (some index) := by
      simp [withSuffix, TypeExpr.lexemes, suffixLexemes, TypeExpr.lexemesOf?]
    have hsuffix : ∀ other ∈ some index, other.WellFormed := by simpa using hindex
    exact ⟨core, suffixes ++ [some index], hsuffixed.snoc (some index) hsuffix hlexemes⟩
  | _ => simp [TypeExpr.tightness] at htight hprimary
termination_by t

theorem suffixesWithin_eq
    (htype : ReadsBelow type bound) {suffixes : List (Option TypeExpr)}
    (hindices : ∀ suffix ∈ suffixes, ∀ index ∈ suffix, index.WellFormed)
    (hlength : (suffixes.flatMap suffixLexemes).length ≤ bound) (base : TypeExpr)
    {tokens rest : List Token} (htokens : Spells tokens (suffixes.flatMap suffixLexemes))
    (hrest : (markAt rest 0 "[" && !onNewLine rest) = false) {steps : Nat}
    (hsteps : suffixes.length < steps) :
    suffixesWithin type steps base (tokens ++ rest) =
      .ok (suffixes.foldl withSuffix base, rest) := by
  induction suffixes generalizing base tokens steps with
  | nil =>
    obtain ⟨steps, rfl⟩ := Nat.exists_eq_succ_of_ne_zero (Nat.ne_zero_of_lt hsteps)
    obtain rfl := spells_nil_iff.mp htokens
    rw [suffixesWithin, run_bind, run_get, ok_bind]
    simp only [List.nil_append, hrest]
    rfl
  | cons suffix suffixes ih =>
    obtain ⟨steps, rfl⟩ := Nat.exists_eq_succ_of_ne_zero (Nat.ne_zero_of_lt hsteps)
    rw [List.flatMap_cons] at htokens hlength
    obtain ⟨front, back, rfl, hfront, hback⟩ := spells_append_iff.mp htokens
    obtain ⟨opener, _, rfl, hopener, hfront⟩ := spells_cons_iff.mp hfront
    obtain ⟨inner, _, rfl, hinner, hclose⟩ := spells_append_iff.mp hfront
    obtain ⟨closer, rfl, -⟩ := spells_singleton_iff.mp hclose
    rw [List.length_append] at hlength
    have hline : opener.newline = false := hopener.newline_eq_false fun hmay => hmay.1 rfl
    have hmore : suffixesWithin type steps (withSuffix base suffix) (back ++ rest) =
        .ok (suffixes.foldl withSuffix (withSuffix base suffix), rest) :=
      ih (fun s hs => hindices s (List.mem_cons_of_mem _ hs)) (by omega) (withSuffix base suffix)
        hback (Nat.lt_of_succ_lt_succ hsteps)
    cases suffix with
    | none =>
      obtain rfl := spells_nil_iff.mp hinner
      simp only [withSuffix] at hmore
      simp [suffixesWithin, hline, hmore, withSuffix]
    | some index =>
      have hindex : index.WellFormed := hindices (some index) List.mem_cons_self index rfl
      simp only [suffixLexemes, TypeExpr.lexemesOf?, List.nil_append, List.length_cons,
        List.length_append] at hinner hlength
      have hclosed : SeesOneOf ["]"] (⟨.punct "]", closer⟩ :: (back ++ rest)) :=
        seesOneOf_singleton (by simp)
      have hread : type true (inner ++ ⟨.punct "]", closer⟩ :: (back ++ rest)) =
          .ok (index, ⟨.punct "]", closer⟩ :: (back ++ rest)) :=
        htype hindex (by omega) (.inl rfl) hinner (hclosed.stops (by decide))
      -- A type does not start with the bracket that would make the suffix that of an array.
      have hnone : markAt (inner ++ ⟨.punct "]", closer⟩ :: (back ++ rest)) 0 "]" = false :=
        hindex.markAt_eq_false rfl hinner _
      simp only [withSuffix] at hmore
      simp [suffixesWithin, hline, run_eat_of_false hnone, hread, hmore, withSuffix]

theorem endsOpen_of_primary
    {t : TypeExpr} (htight : 5 ≤ t.tightness) :
    t.endsOpen = false := by
  cases t with
  | union | intersection | operator | function | conditional =>
    simp [TypeExpr.tightness] at htight
  | _ => rfl

theorem suffixed_reads
    (htype : ReadsBelow type bound) {t : TypeExpr} (hwell : t.WellFormed)
    (htight : 4 ≤ t.tightness) (hlength : t.lexemes.length ≤ bound) :
    Reads (suffixedType type) t.lexemes t (t.StopsAt 4) := by
  obtain ⟨core, suffixes, hsuffixed⟩ := exists_suffixed hwell htight
  intro tokens rest htokens hrest
  rw [hsuffixed.lexemes] at htokens hlength
  rw [List.length_append] at hlength
  obtain ⟨front, back, rfl, hfront, hback⟩ := spells_append_iff.mp htokens
  have hstops : core.StopsAt 5 (back ++ rest) := by
    cases suffixes with
    | nil =>
      obtain rfl := spells_nil_iff.mp hback
      obtain rfl : t = core := hsuffixed.eq
      exact hrest.mono (by omega)
    | cons suffix suffixes =>
      obtain ⟨lead, back, rfl, -, -⟩ := spells_cons_iff.mp hback
      have hbracket : markAt (⟨.punct "[", lead⟩ :: (back ++ rest)) 0 "[" = true := by simp
      exact (stops_of_bracket hbracket).stopsAt_of_mark hbracket
        (endsOpen_of_primary hsuffixed.tight)
  have hcore : primaryType type (front ++ (back ++ rest)) = .ok (core, back ++ rest) :=
    primary_reads htype hsuffixed.wellFormed hsuffixed.tight (by omega) hfront hstops
  have hsteps : suffixes.length < (back ++ rest).length + 1 := by
    have hcount : suffixes.length ≤ (suffixes.flatMap suffixLexemes).length :=
      length_le_length_flatMap fun _ _ => List.cons_ne_nil _ _
    rw [List.length_append, hback.length_eq]
    omega
  have hsuffixes := suffixesWithin_eq htype hsuffixed.indices (by omega) core hback
    (hrest.of_reach.suffix (by omega)) hsteps
  rw [List.append_assoc]
  simp [suffixedType, -List.length_append, hcore, hsuffixes, hsuffixed.eq]

/-! ## Operators -/

/-- The lexemes do not start with a type operator, other than as the first part of a dotted name. -/
def NamesNoOperator (lexemes : List Lexeme) : Prop :=
  ∀ name more, lexemes = .ident name :: more → name ∈ "infer" :: typeOperators →
    ∃ behind, more = .punct "." :: behind

theorem NamesNoOperator.append
    {front back : List Lexeme} (h : NamesNoOperator front) (hne : front ≠ []) :
    NamesNoOperator (front ++ back) := by
  obtain ⟨first, more, rfl⟩ := List.exists_cons_of_ne_nil hne
  intro name behind heq hname
  rw [List.cons_append, List.cons.injEq] at heq
  obtain ⟨after, rfl⟩ := h name more (by rw [heq.1]) hname
  exact ⟨after ++ back, by rw [← heq.2, List.cons_append]⟩

theorem namesNoOperator_of_first
    {first : Lexeme} {more : List Lexeme}
    (h : ∀ name ∈ "infer" :: typeOperators, first ≠ .ident name) :
    NamesNoOperator (first :: more) := by
  intro name behind heq hname
  rw [List.cons.injEq] at heq
  exact absurd heq.1 (h name hname)

theorem namesNoOperator_of_reference
    {name : String} (hname : isReferenceName name = true) :
    NamesNoOperator (nameLexemes name) := by
  obtain ⟨head, more, hparts, hlexemes⟩ := nameLexemes_eq name
  rw [hlexemes]
  cases more with
  | nil =>
    have hword : head ∉ reservedWords := by simpa [isReferenceName, hparts] using hname
    have hoperators : ∀ word ∈ "infer" :: typeOperators, word ∈ reservedWords := by decide
    refine namesNoOperator_of_first fun word hmem heq => hword ?_
    obtain rfl : head = word := Lexeme.ident.inj heq
    exact hoperators head hmem
  | cons part more =>
    rintro _ behind heq -
    rw [List.flatMap_cons, List.cons.injEq] at heq
    exact ⟨_, heq.2.symm⟩

theorem namesNoOperator_of_wellFormed
    {t : TypeExpr} (hwell : t.WellFormed) (htight : 5 ≤ t.tightness) :
    NamesNoOperator t.lexemes := by
  cases hwell with
  | keyword hname =>
    have hoperators : ∀ word ∈ "infer" :: typeOperators, word ∉ keywordTypes := by decide
    refine namesNoOperator_of_first fun word hmem heq => ?_
    obtain rfl : _ = word := Lexeme.ident.inj heq
    exact hoperators _ hmem hname
  | @reference name _ hname _ =>
    refine (namesNoOperator_of_reference hname).append ?_
    obtain ⟨head, more, -, hlexemes⟩ := nameLexemes_eq name
    simp [hlexemes]
  | @truth value => exact namesNoOperator_of_first (by cases value <;> decide)
  | @integer value => cases value <;> exact namesNoOperator_of_first (by simp)
  | text | template | object | mapped | tuple | parenthesized =>
    exact namesNoOperator_of_first (by simp)
  | _ => simp [TypeExpr.tightness] at htight

/-- Where no operator is named, none is seen. -/
theorem operatorAhead?_eq_none
    {lexemes : List Lexeme} (h : NamesNoOperator lexemes) (hne : lexemes ≠ [])
    {tokens : List Token} (htokens : Spells tokens lexemes) (rest : List Token) :
    operatorAhead? (tokens ++ rest) = none ∧
      (wordAt (tokens ++ rest) 0 "infer" && identAt (tokens ++ rest) 1) = false := by
  obtain ⟨first, more, rfl⟩ := List.exists_cons_of_ne_nil hne
  obtain ⟨lead, behind, rfl, -, hbehind⟩ := spells_cons_iff.mp htokens
  cases first with
  | ident name =>
    by_cases hname : name ∈ "infer" :: typeOperators
    · obtain ⟨after, rfl⟩ := h name more rfl hname
      obtain ⟨dot, behind, rfl, -, -⟩ := spells_cons_iff.mp hbehind
      simp [operatorAhead?, operandAt, identAt]
    · simp only [typeOperators, List.mem_cons, List.not_mem_nil, or_false, not_or] at hname
      simp [operatorAhead?, hname]
  | _ => simp [operatorAhead?, nameAt?]

/-- A type without operators in front is read on the level of suffixes. -/
theorem operatorType_of_suffixedType
    {t : TypeExpr} {follow : List Token → Prop}
    (hread : Reads (suffixedType type) t.lexemes t follow)
    (hnames : NamesNoOperator t.lexemes) (hwell : t.WellFormed) :
    Reads (operatorType type) t.lexemes t follow := by
  intro tokens rest htokens hrest
  have hne := hwell.lexemes_ne_nil
  obtain ⟨hoperator, hinfer⟩ := operatorAhead?_eq_none hnames hne htokens rest
  have hsuffixed := hread htokens hrest
  obtain ⟨first, more, hlexemes⟩ := List.exists_cons_of_ne_nil hne
  obtain ⟨lead, tokens, rfl, -, -⟩ := spells_cons_iff.mp (hlexemes ▸ htokens)
  rw [List.cons_append] at hoperator hinfer hsuffixed ⊢
  rw [operatorType, hoperator]
  show inferredType type _ = _
  rw [inferredType, run_bind, run_get, ok_bind, hinfer]
  exact hsuffixed

theorem function_suffixed_reads
    (htype : ReadsBelow type bound) {params : List Parameter} {resultType : TypeExpr}
    (isConstructor : Bool) (hparams : ∀ param ∈ params, param.WellFormed)
    (hresult : resultType.WellFormed) (hplain : startsPredicate resultType.lexemes = false)
    (hlength : (TypeExpr.function params (some resultType) isConstructor).lexemes.length ≤ bound) :
    Reads (suffixedType type) (TypeExpr.function params (some resultType) isConstructor).lexemes
      (.function params (some resultType) isConstructor) resultType.ResultStopsAt := by
  intro tokens rest htokens hrest
  have hread := function_reads htype isConstructor hparams hresult hplain hlength htokens hrest
  have hbracket := hrest.stops.suffix (Nat.zero_le 4)
  have hsuffixes : suffixesWithin type (rest.length + 1)
      (.function params (some resultType) isConstructor) rest =
        .ok (.function params (some resultType) isConstructor, rest) := by
    rw [suffixesWithin, run_bind, run_get, ok_bind, hbracket]
    rfl
  simp [suffixedType, hread, hsuffixes]

/-- The levels of operators and of suffixes differ only for types that start with an operator. -/
theorem suffixed_operator_reads
    (htype : ReadsBelow type bound) {t : TypeExpr} (hwell : t.WellFormed)
    (htight : 4 ≤ t.tightness) (hlength : t.lexemes.length ≤ bound) :
    Reads (operatorType type) t.lexemes t (t.StopsAt 3) := by
  obtain ⟨core, suffixes, hsuffixed⟩ := exists_suffixed hwell htight
  have hnames : NamesNoOperator t.lexemes := by
    rw [hsuffixed.lexemes]
    exact (namesNoOperator_of_wellFormed hsuffixed.wellFormed hsuffixed.tight).append
      hsuffixed.wellFormed.lexemes_ne_nil
  have hread := suffixed_reads htype hwell htight hlength
  exact operatorType_of_suffixedType (hread.mono fun _ hrest => hrest.mono (by omega)) hnames hwell

theorem operator_reads
    (htype : ReadsBelow type bound) :
    (t : TypeExpr) → t.WellFormed → 3 ≤ t.tightness → t.lexemes.length ≤ bound →
      Reads (operatorType type) t.lexemes t (t.StopsAt 3)
  | .operator name operand, .operator hname htight hoperand, _, hlength => by
    intro tokens rest htokens hrest
    obtain ⟨lead, tokens, rfl, -, htokens⟩ := spells_cons_iff.mp htokens
    have hshort : operand.lexemes.length ≤ bound := Nat.le_of_succ_le hlength
    have hread :=
      operator_reads htype operand hoperand htight hshort htokens ⟨hrest.stops, hrest.apart⟩
    have hoperandAt : operandAt (tokens ++ rest) 0 = true := by
      obtain ⟨first, more, hlexemes, hstarts⟩ := hoperand.opens.first
      simp [operandAt_eq, (hlexemes ▸ htokens).lexemeAt?_zero, hstarts]
    have hahead : operatorAhead? (⟨.ident name, lead⟩ :: (tokens ++ rest)) = some name := by
      have hbehind : operandAt (⟨.ident name, lead⟩ :: (tokens ++ rest)) 1 = true := hoperandAt
      have hcontains : ["keyof", "unique", "readonly"].contains name = true :=
        List.contains_iff_mem.mpr hname
      rw [operatorAhead?, nameAt?_ident_cons]
      exact Option.filter_some_pos (by rw [hcontains, hbehind]; rfl)
    rw [List.cons_append, operatorType, hahead]
    show (operatorType type (tokens ++ rest)).bind _ = _
    rw [hread]
    rfl
  | .function params (some resultType) isConstructor, hwell, _, hlength => by
    have hnames : NamesNoOperator
        (TypeExpr.function params (some resultType) isConstructor).lexemes := by
      cases isConstructor <;> exact namesNoOperator_of_first (by decide)
    cases hwell with
    | function hparams hresult hplain =>
      refine operatorType_of_suffixedType ?_ hnames (.function hparams hresult hplain)
      exact (function_suffixed_reads htype isConstructor hparams hresult hplain hlength).mono
        fun _ hrest => hrest.result
  | .array _, hwell, _, hlength | .indexed _ _, hwell, _, hlength
  | .keyword _, hwell, _, hlength | .reference _ _, hwell, _, hlength
  | .literal _, hwell, _, hlength | .template _, hwell, _, hlength
  | .object _, hwell, _, hlength | .mapped _ _ _, hwell, _, hlength
  | .tuple _, hwell, _, hlength | .parenthesized _, hwell, _, hlength =>
    suffixed_operator_reads htype hwell (by simp [TypeExpr.tightness]) hlength

/-! ## Intersections and unions -/

/-- Types with a mark between them come back if each of them does on the level below. No mark stands
in front of them. -/
theorem marked_chain_eq
    {mark : String} {item : Parse TypeExpr} {level : Nat} {x : TypeExpr} {xs : List TypeExpr}
    (hmark : startsType (.punct mark) = false)
    (hwell : ∀ y ∈ x :: xs, y.WellFormed)
    (hitem : ∀ y ∈ x :: xs, Reads item y.lexemes y (y.StopsAt (level + 1)))
    (hclosed : ∀ y ∈ (x :: xs).dropLast, y.endsOpen = false)
    (hbetween : ∀ rest, markAt rest 0 mark = true → Stops (level + 1) rest)
    (hend : ∀ rest, Stops level rest → markAt rest 0 mark = false)
    {tokens rest : List Token}
    (htokens : Spells tokens (separated mark (TypeExpr.lexemesOfAll (x :: xs))))
    (hrest : ((x :: xs).getLast (by simp)).StopsAt level rest) :
    eat mark (tokens ++ rest) = .ok (false, tokens ++ rest) ∧
      chain mark item (tokens ++ rest) = .ok (x :: xs, rest) := by
  have hfirst : eat mark (tokens ++ rest) = .ok (false, tokens ++ rest) := by
    obtain ⟨first, more, hlexemes, hstarts⟩ := (hwell x List.mem_cons_self).opens.first
    have hne := ne_punct_of_startsType hstarts hmark
    have hspells : ∃ behind, Spells tokens (first :: behind) := by
      cases xs with
      | nil => exact ⟨more, by simpa [TypeExpr.lexemesOfAll, hlexemes] using htokens⟩
      | cons y ys => exact ⟨_, by simpa [TypeExpr.lexemesOfAll, hlexemes] using htokens⟩
    obtain ⟨behind, hspells⟩ := hspells
    exact run_eat_of_false (by simp [markAt, hspells.lexemeAt?_zero, hne])
  have hinner : ∀ y ∈ (x :: xs).dropLast,
      Reads item y.lexemes y fun rest => markAt rest 0 mark = true := by
    intro y hy
    exact (hitem y (List.dropLast_subset _ hy)).mono fun rest hmark =>
      (hbetween rest hmark).stopsAt_of_mark hmark (hclosed y hy)
  have hlast : Reads item ((x :: xs).getLast (by simp)).lexemes ((x :: xs).getLast (by simp))
      (((x :: xs).getLast (by simp)).StopsAt level) :=
    (hitem _ (List.getLast_mem (by simp))).mono fun _ hrest => hrest.mono (Nat.le_succ level)
  have hfollow : ∀ rest, ((x :: xs).getLast (by simp)).StopsAt level rest →
      markAt rest 0 mark = false :=
    fun rest hrest => hend rest hrest.of_reach
  rw [TypeExpr.lexemesOfAll_eq_map] at htokens
  exact ⟨hfirst, chain_reads hinner hlast hfollow (fun y hy => (hwell y hy).lexemes_ne_nil)
    htokens hrest⟩

/-- The type is bound more tightly than the level, or combines such types on the level. Only the last
of them may take in what follows. -/
def CombinesAt
    (combine : List TypeExpr → TypeExpr) (level : Nat) (t : TypeExpr) : Prop :=
  level < t.tightness ∨ ∃ x y ys, t = combine (x :: y :: ys) ∧
    (∀ member ∈ x :: y :: ys, level < member.tightness) ∧
    (∀ member ∈ (x :: y :: ys).dropLast, member.endsOpen = false) ∧
    ∀ member ∈ x :: y :: ys, member.WellFormed

/-- A level of the grammar on which types are combined with a mark. -/
theorem combined_reads
    {mark : String} {item : Parse TypeExpr} {combine : List TypeExpr → TypeExpr} {level : Nat}
    (hmark : startsType (.punct mark) = false)
    (hitem : ∀ t : TypeExpr, t.WellFormed → level < t.tightness → t.lexemes.length ≤ bound →
      Reads item t.lexemes t (t.StopsAt (level + 1)))
    (hbetween : ∀ rest, markAt rest 0 mark = true → Stops (level + 1) rest)
    (hend : ∀ rest, Stops level rest → markAt rest 0 mark = false)
    (hlexemes : ∀ types, (combine types).lexemes = separated mark (TypeExpr.lexemesOfAll types))
    (hopen : ∀ types, (combine types).endsOpen = TypeExpr.lastEndsOpen types)
    (habsorbs : ∀ types word, (combine types).absorbs word = TypeExpr.lastAbsorbs word types)
    {t : TypeExpr} (hwell : t.WellFormed) (hcombines : CombinesAt combine level t)
    (hlength : t.lexemes.length ≤ bound) {tokens rest : List Token}
    (htokens : Spells tokens t.lexemes)
    (hrest : t.StopsAt level rest) :
    ∃ types, eat mark (tokens ++ rest) = .ok (false, tokens ++ rest) ∧
      chain mark item (tokens ++ rest) = .ok (types, rest) ∧ combined combine types = t := by
  rcases hcombines with htight | ⟨x, y, ys, rfl, htight, hclosed, hmembers⟩
  · have hsingle : Spells tokens (separated mark (TypeExpr.lexemesOfAll [t])) := by
      simpa [TypeExpr.lexemesOfAll] using htokens
    have hwell' : ∀ y ∈ [t], y.WellFormed := by simpa using hwell
    have hread : ∀ y ∈ [t], Reads item y.lexemes y (y.StopsAt (level + 1)) := by
      simpa using hitem t hwell htight hlength
    obtain ⟨hfirst, hchain⟩ :=
      marked_chain_eq hmark hwell' hread (by simp) hbetween hend hsingle hrest
    exact ⟨[t], hfirst, hchain, rfl⟩
  · rw [hlexemes] at htokens hlength
    have hne : x :: y :: ys ≠ [] := List.cons_ne_nil x (y :: ys)
    have hlast : ((x :: y :: ys).getLast hne).StopsAt level rest := by
      obtain ⟨hstops, hapart⟩ := hrest
      rw [TypeExpr.reach, hopen, lastEndsOpen_eq hne] at hstops
      refine ⟨hstops, fun word hword => ?_⟩
      rw [← lastAbsorbs_eq hne, ← habsorbs]
      exact hapart word hword
    have hread : ∀ member ∈ x :: y :: ys,
        Reads item member.lexemes member (member.StopsAt (level + 1)) := by
      intro member hmember
      have hshort := length_lexemes_le_of_mem mark hmember
      exact hitem member (hmembers member hmember) (htight member hmember)
        (Nat.le_trans hshort hlength)
    obtain ⟨hfirst, hchain⟩ :=
      marked_chain_eq hmark hmembers hread hclosed hbetween hend htokens hlast
    exact ⟨x :: y :: ys, hfirst, hchain, rfl⟩

theorem exists_cons_cons_of_length
    {α : Type} {xs : List α} (h : 2 ≤ xs.length) :
    ∃ x y ys, xs = x :: y :: ys := by
  match xs, h with
  | x :: y :: ys, _ => exact ⟨x, y, ys, rfl⟩

theorem combinesAt_intersection
    {t : TypeExpr} (hwell : t.WellFormed) (htight : 2 ≤ t.tightness) :
    CombinesAt .intersection 2 t := by
  by_cases hsingle : 2 < t.tightness
  · exact .inl hsingle
  · cases hwell with
    | intersection hlength hmemberTight hclosed hmembers =>
      obtain ⟨x, y, ys, rfl⟩ := exists_cons_cons_of_length hlength
      exact .inr ⟨x, y, ys, rfl, hmemberTight, hclosed, hmembers⟩
    | _ => simp [TypeExpr.tightness] at hsingle htight

theorem combinesAt_union
    {t : TypeExpr} (hwell : t.WellFormed) (htight : 1 ≤ t.tightness) :
    CombinesAt .union 1 t := by
  by_cases hsingle : 1 < t.tightness
  · exact .inl hsingle
  · cases hwell with
    | union hlength hmemberTight hclosed hmembers =>
      obtain ⟨x, y, ys, rfl⟩ := exists_cons_cons_of_length hlength
      exact .inr ⟨x, y, ys, rfl, hmemberTight, hclosed, hmembers⟩
    | _ => simp [TypeExpr.tightness] at hsingle htight

theorem intersection_reads
    (htype : ReadsBelow type bound) {t : TypeExpr} (hwell : t.WellFormed)
    (htight : 1 < t.tightness) (hlength : t.lexemes.length ≤ bound) :
    Reads (intersectionType type) t.lexemes t (t.StopsAt 2) := by
  intro tokens rest htokens hrest
  obtain ⟨types, hmark, hchain, rfl⟩ := combined_reads rfl (operator_reads htype)
    (fun _ => stops_of_ampersand) (fun _ hstops => hstops.intersection (Nat.le_refl 2))
    (fun _ => rfl) (fun _ => rfl) (fun _ _ => rfl) hwell (combinesAt_intersection hwell htight) hlength htokens hrest
  simp [intersectionType, hmark, hchain]

theorem union_reads
    (htype : ReadsBelow type bound) {t : TypeExpr} (hwell : t.WellFormed)
    (htight : 0 < t.tightness) (hlength : t.lexemes.length ≤ bound) :
    Reads (unionType type) t.lexemes t (t.StopsAt 1) := by
  intro tokens rest htokens hrest
  obtain ⟨types, hmark, hchain, rfl⟩ := combined_reads rfl
    (fun _ hwell htight hlength => intersection_reads htype hwell htight hlength)
    (fun _ => stops_of_bar) (fun _ hstops => hstops.union (Nat.le_refl 1))
    (fun _ => rfl) (fun _ => rfl) (fun _ _ => rfl) hwell (combinesAt_union hwell htight) hlength htokens hrest
  simp [unionType, hmark, hchain]

/-! ## Conditional types and the bound on the depth -/

/-- The reader of types around a reader reads one lexeme more. -/
theorem readsBelow_typeFrom
    (htype : ReadsBelow type bound) :
    ReadsBelow (typeFrom type) (bound + 1) := by
  intro t hwell hlength mayBeConditional hmay tokens rest htokens hrest
  by_cases htight : 0 < t.tightness
  · have hread := union_reads htype hwell htight (Nat.le_of_lt_succ hlength) htokens
      (hrest.mono (Nat.zero_le _))
    have hplain : (mayBeConditional && wordAt rest 0 "extends" && !onNewLine rest) = false := by
      rw [Bool.and_assoc, hrest.of_reach.bound rfl, Bool.and_false]
    rw [typeFrom, run_bind, hread, ok_bind, run_bind, run_get, ok_bind, hplain]
    rfl
  · cases hwell with
    | @conditional check extended whenTrue whenFalse hcheckTight hcheckClosed hextendedTight hcheck
        hextended hwhenTrue hwhenFalse =>
      have hconditional : mayBeConditional = true := by simpa [TypeExpr.tightness] using hmay
      subst hconditional
      simp only [TypeExpr.lexemes, List.append_assoc, List.cons_append, List.length_append,
        List.length_cons] at htokens hlength
      obtain ⟨front, _, rfl, hfront, htokens⟩ := spells_append_iff.mp htokens
      obtain ⟨word, _, rfl, hword, htokens⟩ := spells_cons_iff.mp htokens
      obtain ⟨middle, _, rfl, hmiddle, htokens⟩ := spells_append_iff.mp htokens
      obtain ⟨question, _, rfl, -, htokens⟩ := spells_cons_iff.mp htokens
      obtain ⟨yes, _, rfl, hyes, htokens⟩ := spells_append_iff.mp htokens
      obtain ⟨colon, no, rfl, -, hno⟩ := spells_cons_iff.mp htokens
      have hline : word.newline = false := hword.newline_eq_false fun hmay => hmay.2.2 rfl
      have hextends : check.StopsAt 1 (⟨.ident "extends", word⟩ ::
          (middle ++ ⟨.punct "?", question⟩ :: (yes ++ ⟨.punct ":", colon⟩ :: (no ++ rest)))) := by
        refine ⟨?_, ?_⟩
        · rw [TypeExpr.reach, hcheckClosed]
          exact stops_of_extends (by simp)
        · rintro _ ⟨⟩
          exact check.absorbs_eq_false (by decide) hcheckClosed
      have hquestion : SeesOneOf ["?"]
          (⟨.punct "?", question⟩ :: (yes ++ ⟨.punct ":", colon⟩ :: (no ++ rest))) :=
        seesOneOf_singleton (by simp)
      have hcolon : SeesOneOf [":"] (⟨.punct ":", colon⟩ :: (no ++ rest)) :=
        seesOneOf_singleton (by simp)
      have hfirst := union_reads htype hcheck hcheckTight (by omega) hfront hextends
      have hsecond : type false (middle ++ ⟨.punct "?", question⟩ ::
          (yes ++ ⟨.punct ":", colon⟩ :: (no ++ rest))) = .ok (extended, _) :=
        htype hextended (by omega) (.inr hextendedTight) hmiddle (hquestion.stops (by decide))
      have hthird : type true (yes ++ ⟨.punct ":", colon⟩ :: (no ++ rest)) = .ok (whenTrue, _) :=
        htype hwhenTrue (by omega) (.inl rfl) hyes (hcolon.stops (by decide))
      have hfourth : type true (no ++ rest) = .ok (whenFalse, rest) :=
        htype hwhenFalse (by omega) (.inl rfl) hno ⟨hrest.stops.mono (Nat.zero_le _), hrest.apart⟩
      simp [typeFrom, hfirst, hline, hsecond, hthird, hfourth]
    | _ => simp [TypeExpr.tightness] at htight

theorem readsBelow_typeWithin
    (depth : Nat) :
    ReadsBelow (typeWithin depth) depth := by
  induction depth with
  | zero =>
    intro t _ hlength
    exact absurd hlength (Nat.not_lt_zero _)
  | succ depth ih => exact readsBelow_typeFrom ih

end Parse

/-- Reading undoes spelling: every well-formed type comes back from the tokens of its spelling, up
to the last one. -/
theorem TypeExpr.ofTokens_of_spells
    {t : TypeExpr} (hwell : t.WellFormed) {tokens : List Token}
    (htokens : Spells tokens t.lexemes) :
    TypeExpr.ofTokens tokens = .ok t := by
  have hdepth : t.lexemes.length < tokens.length + 1 := by
    rw [htokens.length_eq]
    exact Nat.lt_succ_self _
  have hread : Parse.typeWithin (tokens.length + 1) true (tokens ++ []) = .ok (t, []) :=
    Parse.readsBelow_typeWithin _ hwell hdepth (.inl rfl) htokens stops_nil
  rw [List.append_nil] at hread
  simp only [TypeExpr.ofTokens, Parse.run_bind, hread, Parse.ok_bind, Parse.expectEnd,
    Parse.run_pure]
  rfl

/-- A union of an operator type and a constructor type. -/
def exampleType : TypeExpr :=
  .union [
    .operator "keyof" (.array (.reference "Shop.Order" [.keyword "string"])),
    .function [.mk "first" (some (.keyword "number")) true false]
      (some (.conditional (.reference "Row" []) (.literal (some (.text "id")))
        (.tuple [.literal (some (.integer (-7)))])
        (.object [.property "readonly" .identifier (some (.keyword "this")) true true none]))) true]

theorem exampleType_wellFormed :
    exampleType.WellFormed := by
  have hword : ∀ name ∈ keywordTypes, (TypeExpr.keyword name).WellFormed :=
    fun _ hname => .keyword hname
  have horder : (TypeExpr.reference "Shop.Order" [.keyword "string"]).WellFormed :=
    .reference (by decide) (List.forall_mem_singleton.mpr (hword "string" (by decide)))
  have hoperator : (TypeExpr.operator "keyof"
      (.array (.reference "Shop.Order" [.keyword "string"]))).WellFormed :=
    .operator (by decide) (by decide) (.array (by decide) horder)
  have hmember : (Member.property "readonly" .identifier (some (.keyword "this")) true true
      none).WellFormed :=
    .property (by decide) (fun _ => ⟨"readonly", rfl⟩) fun _ ht =>
      Option.some.inj ht ▸ hword "this" (by decide)
  have hparameter : (Parameter.mk "first" (some (.keyword "number")) true false).WellFormed :=
    .mk fun _ ht => Option.some.inj ht ▸ hword "number" (by decide)
  have hresult : (TypeExpr.conditional (.reference "Row" []) (.literal (some (.text "id")))
      (.tuple [.literal (some (.integer (-7)))])
      (.object [.property "readonly" .identifier (some (.keyword "this")) true true
        none])).WellFormed :=
    .conditional (by decide) (by decide) (by decide)
      (.reference (by decide) (List.forall_mem_nil _)) .text
      (.tuple (List.forall_mem_singleton.mpr .integer))
      (.object (List.forall_mem_singleton.mpr hmember))
  refine .union (by decide) (by decide) (by decide) ?_
  refine List.forall_mem_cons.mpr ⟨hoperator, List.forall_mem_singleton.mpr ?_⟩
  exact .function (List.forall_mem_singleton.mpr hparameter) hresult (by decide)

theorem ofTokens_exampleType :
    exampleType.WellFormed ∧
      Spells (tokensOnLine exampleType.lexemes) exampleType.lexemes ∧
      TypeExpr.ofTokens (tokensOnLine exampleType.lexemes) = .ok exampleType :=
  ⟨exampleType_wellFormed, spells_tokensOnLine _,
    TypeExpr.ofTokens_of_spells exampleType_wellFormed (spells_tokensOnLine _)⟩

/-- A function whose result, the keys of `is.Order`, starts like a type predicate about `keyof`. -/
def predicateLikeType : TypeExpr :=
  .function [] (some (.operator "keyof" (.reference "is.Order" []))) false

/-- Without the restrictions on results and on the names of references, types are lost: the first
one here is refused, the second one comes back as another type. -/
theorem ofTokens_predicateLikeType :
    (TypeExpr.operator "keyof" (.reference "is.Order" [])).WellFormed ∧
      TypeExpr.ofTokens (tokensOnLine predicateLikeType.lexemes) =
        .error ⟨.noType (some (.punct ".")), tokensOnLine [.punct ".", .ident "Order"]⟩ ∧
      TypeExpr.ofTokens (tokensOnLine (TypeExpr.reference "string" []).lexemes) =
        .ok (.keyword "string") := by
  refine ⟨?_, rfl, rfl⟩
  have hreference : (TypeExpr.reference "is.Order" []).WellFormed :=
    .reference (by decide) (List.forall_mem_nil _)
  exact .operator (by decide) (by decide) hreference

end EntityDiagram.Declaration
