import Mathlib.Data.List.Infix
import EntityDiagram.Proofs.Declaration.StatementFollowing

/-!
# Positions

A position is the number of tokens in front of those that are left, so a reader whose tokens are
left over from the ones that it was given never goes back and never leaves the text. All readers are
of this kind, whatever tokens they are given, and whether they give a value or fail.
-/

namespace EntityDiagram.Declaration

open Source (Fault Lexeme Token)

/-- The tokens that are left, behind a value or at a failure. -/
def leftOver {α : Type} : Except ParseFailure (α × List Token) → List Token
  | .ok (_, rest) => rest
  | .error failure => failure.remaining

namespace Parse

variable {α β : Type}

/-- What is made of a value does not change what is left behind it. -/
theorem leftOver_bind_ok
    (f : α → β) (read : Except ParseFailure (α × List Token)) :
    leftOver (read.bind fun found => .ok (f found.1, found.2)) = leftOver read := by
  cases read <;> rfl

/-- Whatever the tokens are, those that the reader leaves are the last ones of them. -/
def StaysInside (reader : Parse α) : Prop :=
  ∀ tokens, leftOver (reader tokens) <:+ tokens

namespace StaysInside

theorem pure
    (value : α) :
    StaysInside (Pure.pure value) :=
  fun _ => List.suffix_rfl

theorem bind
    {reader : Parse α} {next : α → Parse β} (h : StaysInside reader)
    (hnext : ∀ value, StaysInside (next value)) :
    StaysInside (reader >>= next) := by
  intro tokens
  have hleft := h tokens
  rw [run_bind]
  cases hread : reader tokens with
  | error failure =>
    rw [hread] at hleft
    exact hleft
  | ok read =>
    obtain ⟨value, rest⟩ := read
    rw [hread] at hleft
    exact (hnext value rest).trans hleft

theorem map
    {reader : Parse α} (h : StaysInside reader) (f : α → β) :
    StaysInside (f <$> reader) := by
  rw [map_eq_pure_bind]
  exact h.bind fun value => .pure (f value)

theorem ite
    {c : Prop} [Decidable c] {reader other : Parse α} (h : StaysInside reader)
    (hother : StaysInside other) :
    StaysInside (if c then reader else other) := by
  split
  · exact h
  · exact hother

theorem get :
    StaysInside MonadState.get :=
  fun _ => List.suffix_rfl

theorem fail
    (fault : Option Lexeme → Fault) :
    StaysInside (Parse.fail (α := α) fault) :=
  fun _ => List.suffix_rfl

end StaysInside

/-! ## Elementary readers -/

theorem modify_inside
    {f : List Token → List Token} (h : ∀ tokens, f tokens <:+ tokens) :
    StaysInside (modify f) :=
  h

theorem skip_inside
    (count : Nat) :
    StaysInside (skip count) :=
  fun tokens => List.drop_suffix count tokens

theorem eat_inside
    (mark : String) :
    StaysInside (eat mark) := by
  intro tokens
  unfold eat
  split
  · exact List.drop_suffix 1 tokens
  · exact List.suffix_rfl

theorem eatWord_inside
    (word : String) :
    StaysInside (eatWord word) := by
  intro tokens
  unfold eatWord
  split
  · exact List.drop_suffix 1 tokens
  · exact List.suffix_rfl

theorem expect_inside
    (mark : String) :
    StaysInside (expect mark) := by
  intro tokens
  unfold expect
  split
  · exact List.drop_suffix 1 tokens
  · exact List.suffix_rfl

theorem ident_inside :
    StaysInside ident := by
  intro tokens
  unfold ident
  split
  · exact List.drop_suffix 1 tokens
  · exact List.suffix_rfl

theorem expectEnd_inside :
    StaysInside expectEnd := by
  intro tokens
  cases tokens <;> exact List.suffix_rfl

theorem sees_inside
    (mark : String) :
    StaysInside (sees mark) :=
  fun _ => List.suffix_rfl

theorem numeral_inside
    (spelling : String) :
    StaysInside (numeral spelling) := by
  intro tokens
  unfold numeral
  split <;> exact List.suffix_rfl

theorem behind_inside
    {reader : Parse α} (h : StaysInside reader) (mark : String) :
    StaysInside (behind mark reader) :=
  .bind (eat_inside mark) fun _ => .ite (.bind h fun _ => .pure _) (.pure _)

theorem behindWord_inside
    {reader : Parse α} (h : StaysInside reader) (word : String) :
    StaysInside (behindWord word reader) :=
  .bind (eatWord_inside word) fun _ => .ite (.map h some) (.pure _)

theorem commaListWithin_inside
    {item : Parse α} (h : StaysInside item) (closer : String) (steps : Nat) :
    StaysInside (commaListWithin closer item steps) := by
  induction steps with
  | zero => exact .pure []
  | succ steps ih =>
    exact .bind (sees_inside closer) fun _ => .ite (.pure []) (.bind h fun _ =>
      .bind (eat_inside ",") fun _ => .ite (.bind ih fun _ => .pure _) (.pure _))

theorem commaList_inside
    {item : Parse α} (h : StaysInside item) (closer : String) :
    StaysInside (commaList closer item) :=
  .bind .get fun tokens => .bind (commaListWithin_inside h closer (tokens.length + 1)) fun _ =>
    .bind (expect_inside closer) fun _ => .pure _

theorem chainWithin_inside
    {item : Parse α} (h : StaysInside item) (mark : String) (steps : Nat) :
    StaysInside (chainWithin mark item steps) := by
  induction steps with
  | zero => exact .pure []
  | succ steps ih =>
    exact .bind h fun _ => .bind (eat_inside mark) fun _ =>
      .ite (.bind ih fun _ => .pure _) (.pure _)

theorem chain_inside
    {item : Parse α} (h : StaysInside item) (mark : String) :
    StaysInside (chain mark item) :=
  .bind .get fun tokens => chainWithin_inside h mark (tokens.length + 1)

/-! ## Names with dots and text in brackets -/

theorem dottedParts_suffix
    (tokens : List Token) :
    (dottedParts tokens).2 <:+ tokens := by
  fun_induction dottedParts tokens with
  | case1 dot part rest name hname hdot more remaining hmore ih =>
    rw [hmore] at ih
    exact ih.trans ((List.suffix_cons part rest).trans (List.suffix_cons dot (part :: rest)))
  | case2 => exact List.suffix_rfl
  | case3 => exact List.suffix_rfl

theorem dots_inside :
    StaysInside dots :=
  dottedParts_suffix

theorem entityName_inside :
    StaysInside entityName := by
  rw [entityName_eq]
  exact .bind ident_inside fun _ => .bind dots_inside fun _ => .pure _

theorem group_inside
    (closer : String) (depth : Nat) :
    StaysInside (group closer depth) := by
  intro tokens
  induction tokens generalizing depth with
  | nil => exact List.suffix_rfl
  | cons token rest ih =>
    rw [group_cons]
    split
    · exact List.suffix_cons token rest
    · have hrest := ih (depthBehind depth token.lexeme)
      rw [← leftOver_bind_ok (token.lexeme.spelling :: ·)] at hrest
      exact hrest.trans (List.suffix_cons token rest)

theorem bracketedText_inside :
    StaysInside bracketedText := by
  intro tokens
  cases tokens with
  | nil => exact List.suffix_rfl
  | cons token rest =>
    obtain ⟨lexeme, lead⟩ := token
    cases hopener : lexeme.text.string?.bind closerOf? with
    | none =>
      rw [bracketedText_of_noBracket (by exact hopener)]
      exact List.suffix_rfl
    | some closer =>
      obtain ⟨mark, hmark, hcloser⟩ := Option.bind_eq_some_iff.mp hopener
      rw [bracketedText_cons hmark hcloser]
      have htext := (group_inside closer 1).bind
        fun parts => .pure (String.join (mark :: parts))
      exact (htext rest).trans (List.suffix_cons _ rest)

theorem behindDefault_suffix
    (depth : Int) (tokens : List Token) :
    behindDefault depth tokens <:+ tokens := by
  fun_induction behindDefault depth tokens with
  | case1 => exact List.suffix_rfl
  | case2 => exact List.suffix_rfl
  | case3 _ token rest _ _ ih => exact ih.trans (List.suffix_cons token rest)
  | case4 _ token rest _ _ _ ih => exact ih.trans (List.suffix_cons token rest)
  | case5 _ token rest _ _ _ ih => exact ih.trans (List.suffix_cons token rest)

/-! ## Parts without types -/

theorem dropVariance_suffix
    (tokens : List Token) :
    dropVariance tokens <:+ tokens := by
  fun_induction dropVariance tokens with
  | case1 => exact List.suffix_rfl
  | case2 token rest _ ih => exact ih.trans (List.suffix_cons token rest)
  | case3 => exact List.suffix_rfl

theorem dropAccess_suffix
    (tokens : List Token) :
    dropAccess tokens <:+ tokens := by
  fun_induction dropAccess tokens with
  | case1 => exact List.suffix_rfl
  | case2 token rest _ ih => exact ih.trans (List.suffix_cons token rest)
  | case3 => exact List.suffix_rfl

theorem parameterName_inside :
    StaysInside parameterName :=
  .bind .get fun _ => .ite bracketedText_inside ident_inside

theorem dropDefault_inside :
    StaysInside dropDefault :=
  .bind (eat_inside "=") fun _ => .ite (modify_inside (behindDefault_suffix 0)) (.pure _)

theorem memberName_inside :
    StaysInside memberName := by
  refine .bind .get fun tokens => ?_
  split
  · exact .bind (skip_inside 1) fun _ => .pure _
  · exact .bind (skip_inside 1) fun _ => .pure _
  · exact .bind (skip_inside 1) fun _ => .pure _
  · exact .bind bracketedText_inside fun _ => .pure _
  · exact .fail _

theorem skipIf_inside
    (isModifier : Bool) :
    StaysInside (skipIf isModifier) :=
  .ite (skip_inside 1) (.pure _)

theorem optionalSign_inside :
    StaysInside optionalSign :=
  .bind (eat_inside "+") fun _ => .ite (.pure _) (.bind (eat_inside "-") fun _ => .pure _)

theorem dropElementName_inside :
    StaysInside dropElementName :=
  .bind .get fun _ => .ite
    (.bind (skip_inside 1) fun _ => .bind (eat_inside "?") fun _ => expect_inside ":") (.pure _)

theorem skipStatement_inside :
    StaysInside (modify skipStatement) := by
  refine modify_inside fun tokens => ?_
  cases tokens with
  | nil => exact List.suffix_rfl
  | cons token rest => exact (skipStatement_suffix token rest).trans (List.suffix_cons token rest)

/-! ## Signatures -/

section Types

variable {type : TypeReader} (htype : ∀ conditional, StaysInside (type conditional))

include htype

theorem annotation_inside :
    StaysInside ( annotation type) :=
  behind_inside (htype true) ":"

theorem typeParameter_inside :
    StaysInside (typeParameter type) := by
  rw [typeParameter_eq]
  exact .bind (modify_inside dropVariance_suffix) fun _ => .bind ident_inside fun _ =>
    .bind (behindWord_inside (htype true) "extends") fun _ =>
    .bind (behind_inside (htype true) "=") fun _ => .pure _

theorem typeParameters_inside :
    StaysInside (typeParameters type) :=
  .bind (eat_inside "<") fun _ =>
    .ite (commaList_inside (typeParameter_inside htype) ">") (.pure [])

theorem typeArguments_inside :
    StaysInside (typeArguments type) :=
  .bind (eat_inside "<") fun _ => .ite (commaList_inside (htype true) ">") (.pure [])

theorem parameter_inside :
    StaysInside (parameter type) := by
  rw [parameter_eq]
  exact .bind (eat_inside "...") fun _ => .bind (modify_inside dropAccess_suffix) fun _ =>
    .bind parameterName_inside fun _ => .bind (eat_inside "?") fun _ =>
    .bind (annotation_inside htype) fun _ => .bind dropDefault_inside fun _ => .pure _

theorem parameters_inside :
    StaysInside (parameters type) :=
  .bind (expect_inside "(") fun _ => commaList_inside (parameter_inside htype) ")"

theorem dropPredicate_inside :
    StaysInside (dropPredicate type) :=
  .bind (eatWord_inside "is") fun _ => .ite (.bind (htype true) fun _ => .pure _) (.pure _)

theorem result_inside :
    StaysInside (result type) := by
  rw [result_eq]
  exact .bind .get fun _ =>
    .ite (.bind (skip_inside 2) fun _ => .bind (dropPredicate_inside htype) fun _ => .pure _)
      (.ite (.bind (skip_inside 2) fun _ => .bind (htype true) fun _ => .pure _) (htype true))

theorem resultAnnotation_inside :
    StaysInside ( resultAnnotation type) :=
  behind_inside (result_inside htype) ":"

/-! ## Members -/

theorem callSignature_inside
    (isConstructor : Bool) :
    StaysInside (callSignature type isConstructor) :=
  .bind (typeParameters_inside htype) fun _ => .bind (parameters_inside htype) fun _ =>
    .bind (resultAnnotation_inside htype) fun _ => .pure _

theorem indexSignature_inside
    (isReadonly : Bool) :
    StaysInside (indexSignature type isReadonly) :=
  .bind (expect_inside "[") fun _ => .bind ident_inside fun _ => .bind (expect_inside ":") fun _ =>
    .bind (htype true) fun _ => .bind (expect_inside "]") fun _ => .bind (eat_inside "?") fun _ =>
    .bind (annotation_inside htype) fun _ => .pure _

theorem namedMember_inside
    (isReadonly : Bool) (docs : Option Documentation) :
    StaysInside (namedMember type isReadonly docs) :=
  .bind memberName_inside fun _ => .bind (eat_inside "?") fun _ => .bind .get fun _ =>
    .ite
      (.bind (typeParameters_inside htype) fun _ => .bind (parameters_inside htype) fun _ =>
        .bind (resultAnnotation_inside htype) fun _ => .pure _)
      (.bind (annotation_inside htype) fun _ => .pure _)

theorem memberBody_inside
    (isReadonly : Bool) (docs : Option Documentation) :
    StaysInside (memberBody type isReadonly docs) :=
  .bind .get fun _ =>
    .ite (callSignature_inside htype false) <|
    .ite (.bind (skip_inside 1) fun _ => callSignature_inside htype true) <|
    .ite (indexSignature_inside htype isReadonly) (namedMember_inside htype isReadonly docs)

theorem member_inside :
    StaysInside (member type) := by
  rw [member_eq]
  exact .bind .get fun _ => .bind (skipIf_inside _) fun _ => .bind .get fun _ =>
    .bind (skipIf_inside _) fun _ => memberBody_inside htype _ _

theorem membersWithin_inside
    (steps : Nat) :
    StaysInside (membersWithin type steps) := by
  induction steps with
  | zero => exact .pure []
  | succ steps ih =>
    exact .bind .get fun _ => .ite (.pure []) <| .ite (.fail _) <|
      .ite (.bind (skip_inside 1) fun _ => ih)
        (.bind (member_inside htype) fun _ => .bind ih fun _ => .pure _)

theorem members_inside :
    StaysInside (members type) :=
  .bind .get fun tokens => .bind (membersWithin_inside htype (tokens.length + 1)) fun _ =>
    .bind (expect_inside "\x7d") fun _ => .pure _

/-! ## Types -/

theorem importText_inside :
    StaysInside (importText type) := by
  have hread : importText type = (do
      skip 1
      let group ← bracketedText
      let more ← dots
      let _ ← typeArguments type
      return ".".intercalate (("import" ++ group) :: more)) := rfl
  rw [hread]
  exact .bind (skip_inside 1) fun _ => .bind bracketedText_inside fun _ =>
    .bind dots_inside fun _ => .bind (typeArguments_inside htype) fun _ => .pure _

theorem functionType_inside
    (isConstructor : Bool) :
    StaysInside (functionType type isConstructor) :=
  .bind (typeParameters_inside htype) fun _ => .bind (parameters_inside htype) fun _ =>
    .bind (expect_inside "=>") fun _ => .bind (result_inside htype) fun _ => .pure _

theorem dropRenaming_inside :
    StaysInside (dropRenaming type) :=
  .bind (eatWord_inside "as") fun _ => .ite (.bind (htype true) fun _ => .pure _) (.pure _)

theorem mappedBody_inside
    (name : String) :
    StaysInside (mappedBody type name) :=
  .bind (htype true) fun _ => .bind (dropRenaming_inside htype) fun _ =>
    .bind (expect_inside "]") fun _ => .bind optionalSign_inside fun _ =>
    .bind (eat_inside "?") fun _ => .bind (annotation_inside htype) fun _ =>
    .bind (eat_inside ";") fun _ => .bind (expect_inside "\x7d") fun _ => .pure _

theorem mappedType_inside :
    StaysInside (mappedType type) := by
  rw [mappedType_eq]
  exact .bind (expect_inside "\x7b") fun _ => .bind optionalSign_inside fun _ =>
    .bind (eatWord_inside "readonly") fun _ => .bind (expect_inside "[") fun _ =>
    .bind ident_inside fun _ => .bind (skip_inside 1) fun _ => mappedBody_inside htype _

theorem tupleElement_inside :
    StaysInside (tupleElement type) := by
  rw [tupleElement_eq]
  exact .bind (eat_inside "...") fun _ => .bind dropElementName_inside fun _ =>
    .bind (htype true) fun _ => .bind (eat_inside "?") fun _ => .pure _

theorem tupleType_inside :
    StaysInside (tupleType type) :=
  .bind (expect_inside "[") fun _ => .bind (commaList_inside (tupleElement_inside htype) "]")
    fun _ => .pure _

theorem markedType_inside
    (mark : String) :
    StaysInside (markedType type mark) := by
  refine .bind .get fun tokens => .ite ?_ <| .ite ?_ <| .ite (functionType_inside htype false) <|
    .ite (.ite (mappedType_inside htype) ?_) <| .ite (tupleType_inside htype) (.fail _)
  · split
    · exact .bind (skip_inside 2) fun _ => .bind (numeral_inside _) fun _ => .pure _
    · exact .fail _
  · exact .ite (functionType_inside htype false) (.bind (skip_inside 1) fun _ =>
      .bind (htype true) fun _ => .bind (expect_inside ")") fun _ => .pure _)
  · exact .bind (skip_inside 1) fun _ => .bind (members_inside htype) fun _ => .pure _

theorem namedType_inside
    (name : String) :
    StaysInside (namedType type name) := by
  refine .bind .get fun tokens => .ite ?_ <| .ite ?_ <| .ite ?_ <| .ite ?_ <| .ite ?_ <|
    .ite ?_ ?_
  · exact .bind (skip_inside 1) fun _ => .pure _
  · exact .bind (skip_inside 1) fun _ => functionType_inside htype true
  · exact .bind (skip_inside 2) fun _ => functionType_inside htype true
  · refine .bind (skip_inside 1) fun _ => ?_
    split
    · exact .bind (importText_inside htype) fun _ => .bind (typeArguments_inside htype)
        fun _ => .pure _
    · exact .bind entityName_inside fun _ => .bind (typeArguments_inside htype) fun _ => .pure _
  · exact .bind (importText_inside htype) fun _ => .pure _
  · exact .bind (skip_inside 1) fun _ => .pure _
  · refine .bind entityName_inside fun _ => .bind .get fun remaining => ?_
    split
    · exact .bind (.pure []) fun _ => .pure _
    · exact .bind (typeArguments_inside htype) fun _ => .pure _

theorem primaryType_inside :
    StaysInside (primaryType type) := by
  refine .bind .get fun tokens => ?_
  split
  · exact .bind (skip_inside 1) fun _ => .pure _
  · exact .bind (skip_inside 1) fun _ => .bind (numeral_inside _) fun _ => .pure _
  · exact .bind (skip_inside 1) fun _ => .pure _
  · exact markedType_inside htype _
  · exact namedType_inside htype _
  · exact .fail _

theorem suffix_inside
    (inner : TypeExpr) :
    StaysInside (suffix type inner) :=
  .bind (eat_inside "]") fun _ => .ite (.pure _) (.bind (htype true) fun _ =>
    .bind (expect_inside "]") fun _ => .pure _)

theorem suffixesWithin_inside
    (steps : Nat) (inner : TypeExpr) :
    StaysInside (suffixesWithin type steps inner) := by
  induction steps generalizing inner with
  | zero => exact .pure inner
  | succ steps ih =>
    rw [suffixesWithin_succ]
    exact .bind .get fun _ => .ite
      (.bind (.bind (skip_inside 1) fun _ => suffix_inside htype inner) ih) (.pure inner)

theorem suffixedType_inside :
    StaysInside (suffixedType type) :=
  .bind (primaryType_inside htype) fun inner => .bind .get fun tokens =>
    suffixesWithin_inside htype (tokens.length + 1) inner

theorem dropBound_inside :
    StaysInside (dropBound type) :=
  .bind .get fun _ =>
    .ite (.bind (skip_inside 1) fun _ => .bind (htype false) fun _ => .pure _) (.pure _)

theorem inferredType_inside :
    StaysInside (inferredType type) := by
  rw [inferredType_eq]
  exact .bind .get fun _ => .ite
    (.bind (skip_inside 1) fun _ => .bind ident_inside fun _ => .bind (dropBound_inside htype)
      fun _ => .pure _)
    (suffixedType_inside htype)

theorem operatorType_inside :
    StaysInside (operatorType type) := by
  intro tokens
  induction tokens with
  | nil => exact inferredType_inside htype []
  | cons token rest ih =>
    unfold operatorType
    split
    · rename_i name _
      rw [← leftOver_bind_ok (TypeExpr.operator name)] at ih
      exact ih.trans (List.suffix_cons token rest)
    · exact inferredType_inside htype (token :: rest)

theorem intersectionType_inside :
    StaysInside (intersectionType type) :=
  .bind (eat_inside "&") fun _ => .bind (chain_inside (operatorType_inside htype) "&")
    fun _ => .pure _

theorem unionType_inside :
    StaysInside (unionType type) :=
  .bind (eat_inside "|") fun _ => .bind (chain_inside (intersectionType_inside htype) "|")
    fun _ => .pure _

theorem typeFrom_inside
    (conditional : Bool) :
    StaysInside (typeFrom type conditional) :=
  .bind (unionType_inside htype) fun _ => .bind .get fun _ => .ite
    (.bind (skip_inside 1) fun _ => .bind (htype false) fun _ => .bind (expect_inside "?") fun _ =>
      .bind (htype true) fun _ => .bind (expect_inside ":") fun _ => .bind (htype true)
      fun _ => .pure _)
    (.pure _)

/-! ## Statements -/

theorem heritageEntry_inside :
    StaysInside (heritageEntry type) :=
  .bind entityName_inside fun _ => .bind (typeArguments_inside htype) fun _ => .pure _

theorem heritage_inside :
    StaysInside (heritage type) :=
  .bind (eatWord_inside "extends") fun _ =>
    .ite (chain_inside (heritageEntry_inside htype) ",") (.pure [])

theorem interfaceDeclaration_inside
    (docs : Option Documentation) :
    StaysInside (interfaceDeclaration type docs) :=
  .bind (skip_inside 1) fun _ => .bind ident_inside fun _ =>
    .bind (typeParameters_inside htype) fun _ => .bind (heritage_inside htype) fun _ =>
    .bind (expect_inside "\x7b") fun _ => .bind (members_inside htype) fun _ => .pure _

theorem aliasDeclaration_inside
    (docs : Option Documentation) :
    StaysInside (aliasDeclaration type docs) :=
  .bind (skip_inside 1) fun _ => .bind ident_inside fun _ =>
    .bind (typeParameters_inside htype) fun _ => .bind (expect_inside "=") fun _ =>
    .bind (htype true) fun _ => .bind (eat_inside ";") fun _ => .pure _

theorem statement_inside :
    StaysInside (statement type) := by
  intro tokens
  cases hahead : declarationAhead? tokens with
  | none =>
    rw [statement_of_other type hahead]
    exact skipStatement_inside tokens
  | some found =>
    obtain ⟨kind, modifiers⟩ := found
    have hkeyword : StaysInside (skip modifiers) := skip_inside modifiers
    simp only [statement, run_bind, run_get, ok_bind, hahead]
    cases kind with
    | interface =>
      exact hkeyword.bind (fun _ => .bind (interfaceDeclaration_inside htype _) fun _ => .pure _)
        tokens
    | «alias» =>
      exact hkeyword.bind (fun _ => .bind (aliasDeclaration_inside htype _) fun _ => .pure _)
        tokens

theorem statementsWithin_inside
    (steps : Nat) :
    StaysInside (statementsWithin type steps) := by
  induction steps with
  | zero => exact .pure []
  | succ steps ih =>
    exact .bind .get fun _ => .ite (.pure []) <| .bind (eat_inside ";") fun _ => .ite ih <|
      .bind (statement_inside htype) fun _ => .bind ih fun _ => .pure _

end Types

theorem typeWithin_inside
    (depth : Nat) (conditional : Bool) :
    StaysInside (typeWithin depth conditional) := by
  induction depth generalizing conditional with
  | zero => exact .fail _
  | succ depth ih => exact typeFrom_inside ih conditional

/-! ## All readers -/

/-- The readers of the grammar stay inside, where types are read by the given reader. -/
structure ReadersStayInside (type : TypeReader) : Prop where
  marks : ∀ mark, StaysInside (eat mark) ∧ StaysInside (expect mark)
  words : ∀ word, StaysInside (eatWord word)
  names : StaysInside ident ∧ StaysInside entityName
  ending : StaysInside expectEnd
  brackets : StaysInside bracketedText
  defaults : ∀ depth, StaysInside (modify (behindDefault depth))
  skipped : StaysInside (modify skipStatement)
  statements : ∀ steps, StaysInside (statementsWithin type steps)
  statement : StaysInside (statement type)
  interface : ∀ docs, StaysInside (interfaceDeclaration type docs)
  «alias» : ∀ docs, StaysInside (aliasDeclaration type docs)
  heritage : StaysInside (heritage type)
  typeParameters : StaysInside (typeParameters type)
  typeArguments : StaysInside (typeArguments type)
  members : StaysInside (members type)
  member : StaysInside (member type)
  memberName : StaysInside memberName
  indexSignature : ∀ isReadonly, StaysInside (indexSignature type isReadonly)
  parameters : StaysInside (parameters type)
  result : StaysInside (result type) ∧ StaysInside ( resultAnnotation type)
  nested : ∀ conditional, StaysInside (type conditional)
  union : StaysInside (unionType type)
  intersection : StaysInside (intersectionType type)
  operator : StaysInside (operatorType type)
  suffixed : StaysInside (suffixedType type)
  primary : StaysInside (primaryType type)
  imported : StaysInside (importText type)
  function : ∀ isConstructor, StaysInside (functionType type isConstructor)
  mapped : StaysInside (mappedType type)
  tuple : StaysInside (tupleType type)

theorem readersStayInside
    {type : TypeReader} (htype : ∀ conditional, StaysInside (type conditional)) :
    ReadersStayInside type where
  marks mark := ⟨eat_inside mark, expect_inside mark⟩
  words := eatWord_inside
  names := ⟨ident_inside, entityName_inside⟩
  ending := expectEnd_inside
  brackets := bracketedText_inside
  defaults depth := modify_inside (behindDefault_suffix depth)
  skipped := skipStatement_inside
  statements := statementsWithin_inside htype
  statement := statement_inside htype
  interface := interfaceDeclaration_inside htype
  «alias» := aliasDeclaration_inside htype
  heritage := heritage_inside htype
  typeParameters := typeParameters_inside htype
  typeArguments := typeArguments_inside htype
  members := members_inside htype
  member := member_inside htype
  memberName := memberName_inside
  indexSignature := indexSignature_inside htype
  parameters := parameters_inside htype
  result := ⟨result_inside htype, resultAnnotation_inside htype⟩
  nested := htype
  union := unionType_inside htype
  intersection := intersectionType_inside htype
  operator := operatorType_inside htype
  suffixed := suffixedType_inside htype
  primary := primaryType_inside htype
  imported := importText_inside htype
  function := functionType_inside htype
  mapped := mappedType_inside htype
  tuple := tupleType_inside htype

end Parse

end EntityDiagram.Declaration
