import EntityDiagram.Proofs.Declaration.ReaderFollowing

/-!
# Signatures follow each other
-/

namespace EntityDiagram.Declaration

open Source (Lexeme Token)

namespace Parse

/-- Two readers of types follow each other where less than so many tokens are left. -/
def TypesFollow
    (keep : DocsMap) (behind : List Token) (bound : Nat) (type type' : TypeReader) : Prop :=
  ∀ conditional,
    ItemsFollow keep behind bound 1 false (TypeExpr.mapDocs keep) (type conditional)
      (type' conditional)

variable {keep : DocsMap} {behind tokens tokens' : List Token} {bound : Nat}
  {type type' : TypeReader}

theorem annotation_follows
    (htype : TypesFollow keep behind bound type type') (hbound : tokens.length ≤ bound)
    (h : Continues keep behind tokens tokens') :
    Follows keep behind 0 0 false (Option.map (TypeExpr.mapDocs keep)) tokens
      ( annotation type tokens) ( annotation type' tokens') :=
  behind_follows (by decide) (by decide) h fun _ _ hlt hrest =>
    .weaken (htype true (by omega) hrest) (by decide)

/-! ## Type parameters -/

/-- Words are dropped as long as something certain comes behind them. -/
theorem dropWords_follows
    {drop : List Token → List Token} {words : List String} {ahead : List Token → Bool}
    (hnil : drop [] = [])
    (hcons : ∀ token rest, drop (token :: rest) =
      if oneOfAt (token :: rest) 0 words && ahead rest then drop rest else token :: rest)
    (hahead : ∀ {rest rest' : List Token}, Continues keep behind rest rest' → Live behind rest →
      ahead rest' = ahead rest)
    (h : Continues keep behind tokens tokens') :
    Follows keep behind 0 0 false id tokens ((modify drop : Parse PUnit) tokens)
      ((modify drop : Parse PUnit) tokens') := by
  induction tokens generalizing tokens' with
  | nil =>
    rw [run_modify, hnil]
    refine .of_live (.pure rfl h) fun hlive => ?_
    obtain rfl : behind = [] := hlive.resolve_right (not_not.mpr rfl)
    cases h
    rw [run_modify, hnil]
    rfl
  | cons token rest ih =>
    obtain ⟨lexeme, lead⟩ := token
    obtain ⟨lead, lead', rest, rest', ⟨⟩, rfl, -, hopen, hrest⟩ :=
      h.exists_cons (lexemeAt?_cons_zero ⟨lexeme, lead⟩ rest)
    have hword' : oneOfAt (⟨lexeme, lead'⟩ :: rest') 0 words =
      oneOfAt (⟨lexeme, lead⟩ :: rest) 0 words := rfl
    cases hword : oneOfAt (⟨lexeme, lead⟩ :: rest) 0 words with
    | false =>
      simp only [run_modify, hcons, hword', hword, Bool.false_and, Bool.false_eq_true, if_false]
      exact .pure rfl h
    | true =>
      obtain ⟨name, rfl⟩ : ∃ name, lexeme = .ident name := by
        cases lexeme <;> simp_all [oneOfAt, nameAt?]
      have hagree := hahead hrest (hopen (by simp [IsFinal]))
      simp only [run_modify, hcons, hword', hword, hagree, Bool.true_and]
      split
      · exact .weaken (.word (ih hrest)) (by decide)
      · exact .pure rfl h

theorem identAt_zero_eq
    (h : Continues keep behind tokens tokens') (hlive : Live behind tokens) :
    identAt tokens' 0 = identAt tokens 0 := by
  rw [identAt, nameAt?, h.lexemeAt?_zero hlive, identAt, nameAt?]

theorem wordBeforeIdent_eq
    (h : Continues keep behind tokens tokens') (word : String) (hlive : Live behind tokens) :
    (wordAt tokens' 0 word && identAt tokens' 1) = (wordAt tokens 0 word && identAt tokens 1) := by
  rw [Bool.eq_iff_iff]
  obtain ⟨hzero, ⟨_, hlexeme, rfl | rfl⟩ | ⟨hone, -⟩⟩ := h.window hlive <;>
    simp [wordAt, identAt, nameAt?, *]

theorem dropVariance_follows
    (h : Continues keep behind tokens tokens') :
    Follows keep behind 0 0 false id tokens ((modify dropVariance : Parse PUnit) tokens)
      ((modify dropVariance : Parse PUnit) tokens') :=
  dropWords_follows rfl (fun _ _ => rfl) identAt_zero_eq h

/-- What comes behind a word, if the word comes next. -/
def behindWord {α : Type} (word : String) (reader : Parse α) : Parse (Option α) := do
  if ← eatWord word then some <$> reader else return none

theorem behindWord_follows
    {α γ : Type} {view : α → γ} {word : String} {reader reader' : Parse α}
    (h : Continues keep behind tokens tokens')
    (hreader : ∀ rest rest', rest.length < tokens.length → Continues keep behind rest rest' →
      Follows keep behind 0 0 false view rest (reader rest) (reader' rest')) :
    Follows keep behind 0 0 false (Option.map view) tokens (behindWord word reader tokens)
      (behindWord word reader' tokens') :=
  ifEatWord_follows h (fun rest rest' hlt hrest => .map (hreader rest rest' hlt hrest)
    fun _ _ hview => congrArg some hview) (.pure rfl h)

theorem typeParameter_eq
    (type : TypeReader) :
    typeParameter type = do
      modify dropVariance
      let name ← ident
      let bound ← behindWord "extends" (type true)
      let default ← Parse.behind "=" (type true)
      return { name, bound, default } := by
  simp only [typeParameter, behindWord, bind_assoc]
  refine bind_congr fun _ => bind_congr fun name => bind_congr fun found => ?_
  cases found <;> rfl

theorem typeParameter_follows
    (htype : TypesFollow keep behind bound type type') :
    ItemsFollow keep behind bound 1 false (TypeParameter.mapDocs keep) (typeParameter type)
      (typeParameter type') := by
  intro tokens tokens' hbound h
  rw [typeParameter_eq, typeParameter_eq]
  refine .weaken (.bind (dropVariance_follows h) fun _ _ _ _ _ hbare hlength =>
    .bind (ident_follows hbare) fun name name' _ _ hname hnamed hlength' =>
    .bind (behindWord_follows hnamed fun _ _ hlt hrest =>
        .weaken (htype true (by omega) hrest) (by decide))
      fun upper upper' _ _ hupper hbounded hlength'' =>
    .bind (behind_follows (by decide) (by decide) hbounded fun _ _ hlt hrest =>
        .weaken (htype true (by omega) hrest) (by decide))
      fun default default' _ _ hdefault hrest _ => .pure ?_ hrest) (by decide)
  obtain rfl : name' = name := hname
  simp only [TypeParameter.mapDocs, hupper, hdefault]

theorem typeParameters_follows
    (htype : TypesFollow keep behind bound type type') (hbound : tokens.length ≤ bound)
    (h : Continues keep behind tokens tokens') :
    Follows keep behind 0 0 false (List.map (TypeParameter.mapDocs keep)) tokens
      (typeParameters type tokens) (typeParameters type' tokens') := by
  refine ifEat_follows (by decide) (by decide) h (fun rest rest' hlt hrest => ?_) (.pure rfl h)
  exact .weaken (commaList_follows (by decide) (typeParameter_follows htype).loosen (by omega)
    hrest) (by decide)

theorem typeArguments_follows
    (htype : TypesFollow keep behind bound type type') (hbound : tokens.length ≤ bound)
    (h : Continues keep behind tokens tokens') :
    Follows keep behind 0 0 false (List.map (TypeExpr.mapDocs keep)) tokens
      (typeArguments type tokens) (typeArguments type' tokens') := by
  refine ifEat_follows (by decide) (by decide) h (fun rest rest' hlt hrest => ?_) (.pure rfl h)
  exact .weaken (commaList_follows (by decide) (htype true).loosen (by omega) hrest) (by decide)

/-! ## Parameters and results -/

theorem dropAccess_follows
    (h : Continues keep behind tokens tokens') :
    Follows keep behind 0 0 false id tokens ((modify dropAccess : Parse PUnit) tokens)
      ((modify dropAccess : Parse PUnit) tokens') := by
  refine dropWords_follows rfl (fun _ _ => rfl) (fun hrest hlive => ?_) h
  simp only [identAt_zero_eq hrest hlive, markAt_zero_eq hrest _ hlive]

theorem parameterName_follows
    (h : Continues keep behind tokens tokens') :
    Follows keep behind 1 0 false id tokens (parameterName tokens) (parameterName tokens') := by
  refine .get (.ite (fun hlive => ?_) (fun hbracket => ?_) fun _ => ident_follows h)
  · simp only [markAt_zero_eq h _ hlive]
  · rw [Bool.or_eq_true, markAt_eq_true_iff, markAt_eq_true_iff] at hbracket
    rcases hbracket with hbrace | hsquare
    · obtain ⟨lead, lead', rest, rest', rfl, rfl, -, -, hrest⟩ := h.exists_cons hbrace
      exact bracketedText_follows (by decide) hrest
    · obtain ⟨lead, lead', rest, rest', rfl, rfl, -, -, hrest⟩ := h.exists_cons hsquare
      exact bracketedText_follows (by decide) hrest

/-- The default value of a parameter, which is left out. -/
def dropDefault : Parse Unit := do
  if ← eat "=" then modify (behindDefault 0)

theorem dropDefault_follows
    (h : Continues keep behind tokens tokens') :
    Follows keep behind 0 0 true id tokens (dropDefault tokens) (dropDefault tokens') :=
  ifEat_follows (by decide) (by decide) h (fun _ _ _ hrest => behindDefault_follows 0 hrest)
    (.weaken (.pure rfl h) (by decide))

theorem parameter_eq
    (type : TypeReader) :
    parameter type = do
      let isRest ← eat "..."
      modify dropAccess
      let name ← parameterName
      let isOptional ← eat "?"
      let annotated ← annotation type
      dropDefault
      return .mk name annotated isOptional isRest := by
  simp only [parameter, dropDefault, bind_assoc]
  refine bind_congr fun isRest => bind_congr fun _ => bind_congr fun name =>
    bind_congr fun isOptional => bind_congr fun annotated => bind_congr fun found => ?_
  cases found <;> rfl

theorem parameter_follows
    (htype : TypesFollow keep behind bound type type') :
    ItemsFollow keep behind bound 1 true (Parameter.mapDocs keep) (parameter type)
      (parameter type') := by
  intro tokens tokens' hbound h
  rw [parameter_eq, parameter_eq]
  refine .weaken (.bind (eat_follows (by decide) h) fun isRest isRest' _ _ hisRest hleft hlength =>
    .bind (dropAccess_follows hleft) fun _ _ _ _ _ hbare hlength₁ =>
    .bind (parameterName_follows hbare) fun name name' _ _ hname hnamed hlength₂ =>
    .bind (eat_follows (by decide) hnamed)
      fun isOptional isOptional' _ _ hisOptional hmarked hlength₃ =>
    .bind (annotation_follows htype (by omega) hmarked)
      fun annotated annotated' _ _ hannotated hread _ =>
    .bind (dropDefault_follows hread) fun _ _ _ _ _ hrest _ => .pure ?_ hrest) (by decide)
  obtain rfl : isRest' = isRest := hisRest
  obtain rfl : name' = name := hname
  obtain rfl : isOptional' = isOptional := hisOptional
  simp only [Parameter.mapDocs, TypeExpr.mapDocs?_eq, hannotated]

theorem parameters_follows
    (htype : TypesFollow keep behind bound type type') (hbound : tokens.length ≤ bound)
    (h : Continues keep behind tokens tokens') :
    Follows keep behind 1 0 false (List.map (Parameter.mapDocs keep)) tokens
      (parameters type tokens) (parameters type' tokens') :=
  .weaken (.bind (expect_follows (by decide) h) fun _ _ _ _ _ hrest hlength =>
    commaList_follows (by decide) (parameter_follows htype).loosen (by omega) hrest) (by decide)

/-- The type of a type predicate, which is left out. -/
def dropPredicate (type : TypeReader) : Parse Unit := do
  if ← eatWord "is" then
    let _ ← type true

theorem dropPredicate_follows
    (htype : TypesFollow keep behind bound type type') (hbound : tokens.length < bound)
    (h : Continues keep behind tokens tokens') :
    Follows keep behind 0 0 false id tokens (dropPredicate type tokens)
      (dropPredicate type' tokens') :=
  ifEatWord_follows h (fun _ _ hlt hrest => .weaken (.bind (htype true (by omega) hrest)
    fun _ _ _ _ _ hleft _ => .pure rfl hleft) (by decide)) (.pure rfl h)

theorem result_eq
    (type : TypeReader) :
    result type = (do
      let tokens ← get
      if wordAt tokens 0 "asserts" && identAt tokens 1 then
        skip 2
        dropPredicate type
        return .keyword "void"
      else if identAt tokens 0 && wordAt tokens 1 "is" then
        skip 2
        let _ ← type true
        return .keyword "boolean"
      else type true) := by
  refine bind_congr fun tokens => ?_
  split
  · simp only [dropPredicate, bind_assoc]
    refine bind_congr fun _ => bind_congr fun found => ?_
    cases found <;> simp
  · rfl

theorem result_follows
    (htype : TypesFollow keep behind bound type type') (hbound : tokens.length < bound)
    (h : Continues keep behind tokens tokens') :
    Follows keep behind 1 0 false (TypeExpr.mapDocs keep) tokens (result type tokens)
      (result type' tokens') := by
  rw [result_eq, result_eq]
  apply Follows.get
  refine .ite (wordBeforeIdent_eq h _) (fun hasserts => ?_) fun _ =>
    .ite (fun hlive => ?_) (fun hpredicate => ?_) fun _ => htype true hbound h
  · rw [Bool.and_eq_true, wordAt_eq_true_iff, identAt_iff] at hasserts
    obtain ⟨hword, name, hname⟩ := hasserts
    obtain ⟨lead, lead', rest, rest', rfl, rfl, -, -, hrest⟩ := h.exists_cons hword
    obtain ⟨lead, lead', rest, rest', rfl, rfl, -, -, hrest⟩ := hrest.exists_cons hname
    simp only [List.length_cons] at hbound
    exact .weaken (.word (.word (.bind (dropPredicate_follows htype (by omega) hrest)
      fun _ _ _ _ _ hleft _ => .pure rfl hleft))) (by decide)
  · rw [Bool.eq_iff_iff]
    obtain ⟨hzero, ⟨_, hlexeme, rfl | rfl⟩ | ⟨hone, -⟩⟩ := h.window hlive <;>
      simp [wordAt, identAt, nameAt?, *]
  · rw [Bool.and_eq_true, identAt_iff, wordAt_eq_true_iff] at hpredicate
    obtain ⟨⟨name, hname⟩, hword⟩ := hpredicate
    obtain ⟨lead, lead', rest, rest', rfl, rfl, -, -, hrest⟩ := h.exists_cons hname
    obtain ⟨lead, lead', rest, rest', rfl, rfl, -, -, hrest⟩ := hrest.exists_cons hword
    simp only [List.length_cons] at hbound
    exact .weaken (.word (.word (.bind (htype true (by omega) hrest)
      fun _ _ _ _ _ hleft _ => .pure rfl hleft))) (by decide)

theorem resultAnnotation_follows
    (htype : TypesFollow keep behind bound type type') (hbound : tokens.length ≤ bound)
    (h : Continues keep behind tokens tokens') :
    Follows keep behind 0 0 false (Option.map (TypeExpr.mapDocs keep)) tokens
      ( resultAnnotation type tokens) ( resultAnnotation type' tokens') :=
  behind_follows (by decide) (by decide) h fun _ _ hlt hrest =>
    .weaken (result_follows htype (by omega) hrest) (by decide)

end Parse

end EntityDiagram.Declaration
