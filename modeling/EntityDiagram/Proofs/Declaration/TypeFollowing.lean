import EntityDiagram.Proofs.Declaration.PrimaryFollowing

/-!
# Types follow each other

A nested type is read with a smaller budget than the type around it and starts at least one token
behind it. So the budgets of the two sides need not be the same, as long as each of them exceeds the
number of tokens.
-/

namespace EntityDiagram.Declaration

open Source (Lead Lexeme Token)

namespace Parse

variable {keep : DocsMap} {behind tokens tokens' : List Token} {bound : Nat}
  {type type' : TypeReader}

/-! ## Suffixes and operators -/

/-- One suffix of a type, behind its bracket. -/
def suffix (type : TypeReader) (inner : TypeExpr) : Parse TypeExpr := do
  if ← eat "]" then return .array inner
  else
    let index ← type true
    expect "]"
    return .indexed inner index

theorem suffixesWithin_succ
    (type : TypeReader) (steps : Nat) (inner : TypeExpr) :
    suffixesWithin type (steps + 1) inner = (do
      let tokens ← get
      if markAt tokens 0 "[" && !onNewLine tokens then
        let outer ← skip 1 >>= fun _ => suffix type inner
        suffixesWithin type steps outer
      else return inner) := by
  rw [suffixesWithin]
  refine bind_congr fun tokens => ?_
  split
  · simp only [suffix, bind_assoc]
    refine bind_congr fun _ => bind_congr fun found => ?_
    cases found <;> simp
  · rfl

theorem suffix_follows
    (htype : TypesFollow keep behind bound type type') {inner inner' : TypeExpr}
    (hinner : inner'.mapDocs keep = inner.mapDocs keep) {lead lead' : Lead}
    {rest rest' : List Token} (hbound : rest.length < bound)
    (h : Continues keep behind (⟨.punct "[", lead⟩ :: rest) (⟨.punct "[", lead'⟩ :: rest')) :
    Follows keep behind 1 0 false (TypeExpr.mapDocs keep) (⟨.punct "[", lead⟩ :: rest)
      ((skip 1 >>= fun _ => suffix type inner) (⟨.punct "[", lead⟩ :: rest))
      ((skip 1 >>= fun _ => suffix type' inner') (⟨.punct "[", lead'⟩ :: rest')) := by
  have hrest := h.rest_of_cons
  have hlive : Live behind rest := h.live_rest (by simp [IsFinal])
  have hopened : ∀ (type : TypeReader) inner lead rest,
      (skip 1 >>= fun _ => suffix type inner) (⟨.punct "[", lead⟩ :: rest) =
        suffix type inner rest := fun _ _ _ _ => rfl
  rw [hopened, hopened]
  cases hclosed : markAt rest 0 "]" with
  | true =>
    obtain ⟨closer, closer', more, more', rfl, rfl, -, -, hmore⟩ :=
      hrest.exists_cons (markAt_eq_true_iff.mp hclosed)
    have harray : ∀ (type : TypeReader) inner lead rest,
        suffix type inner (⟨.punct "]", lead⟩ :: rest) = .ok (.array inner, rest) := by
      intro type inner lead rest
      simp [suffix]
    rw [harray, harray]
    exact .weaken (.step (.step (.pure (congrArg TypeExpr.array hinner) hmore) (by simp)) (by simp))
      (by decide)
  | false =>
    have hindexed : ∀ (type : TypeReader) inner {rest}, markAt rest 0 "]" = false →
        suffix type inner rest =
          (do
            let index ← type true
            expect "]"
            return .indexed inner index : Parse TypeExpr) rest := by
      intro type inner rest hopen
      simp [suffix, run_eat_of_false hopen]
    have hclosed' := (markAt_zero_eq hrest "]" hlive).trans hclosed
    rw [hindexed type inner hclosed, hindexed type' inner' hclosed']
    refine .weaken (.step (.bind (htype true hbound hrest) fun index index' _ _ hindex hread _ =>
      .bind (expect_follows (by decide) hread) fun _ _ _ _ _ hleft _ => .pure ?_ hleft) (by simp))
        (by decide)
    simp only [TypeExpr.mapDocs, hinner, hindex]

theorem suffixesWithin_follows
    (htype : TypesFollow keep behind bound type type') (hbound : tokens.length ≤ bound)
    {inner inner' : TypeExpr} (hinner : inner'.mapDocs keep = inner.mapDocs keep)
    (h : Continues keep behind tokens tokens') {steps steps' : Nat} (hsteps : tokens.length < steps)
    (hsteps' : tokens'.length < steps') :
    Follows keep behind 0 0 false (TypeExpr.mapDocs keep) tokens
      (suffixesWithin type steps inner tokens) (suffixesWithin type' steps' inner' tokens') := by
  induction steps generalizing tokens tokens' steps' inner inner' with
  | zero => omega
  | succ steps ih =>
    obtain ⟨steps', rfl⟩ := Nat.exists_eq_succ_of_ne_zero (Nat.ne_zero_of_lt hsteps')
    rw [suffixesWithin_succ, suffixesWithin_succ]
    apply Follows.get
    refine .ite (fun hlive => ?_) (fun hahead => ?_) fun _ => .pure hinner h
    · rw [markAt_zero_eq h _ hlive, h.onNewLine_eq hlive]
    · rw [Bool.and_eq_true, markAt_eq_true_iff] at hahead
      obtain ⟨lead, lead', rest, rest', rfl, rfl, -, -, hrest⟩ := h.exists_cons hahead.1
      have hcount := hrest.length_eq
      simp only [List.length_cons] at hbound hsteps hsteps'
      refine .weaken (.bind (suffix_follows htype hinner (by omega) h)
        fun outer outer' left left' houter hleft hlength =>
          (?_ : Follows keep behind 0 0 false (TypeExpr.mapDocs keep) left _ _)) (by decide)
      have := hleft.length_eq
      simp only [List.length_cons] at hlength
      exact ih (by omega) houter hleft (by omega) (by omega)

theorem suffixedType_follows
    (htype : TypesFollow keep behind bound type type') (hbound : tokens.length ≤ bound)
    (h : Continues keep behind tokens tokens') :
    Follows keep behind 1 0 false (TypeExpr.mapDocs keep) tokens (suffixedType type tokens)
      (suffixedType type' tokens') :=
  .weaken (.bind (primaryType_follows htype hbound h) fun _ _ _ _ hinner hleft hlength =>
    .get (suffixesWithin_follows htype (by omega) hinner hleft (Nat.lt_succ_self _)
      (Nat.lt_succ_self _))) (by decide)

/-- The bound of a type variable, which is left out. -/
def dropBound (type : TypeReader) : Parse Unit := do
  let tokens ← get
  if wordAt tokens 0 "extends" && identAt tokens 1 then
    skip 1
    let _ ← type false

theorem dropBound_follows
    (htype : TypesFollow keep behind bound type type') (hbound : tokens.length ≤ bound)
    (h : Continues keep behind tokens tokens') :
    Follows keep behind 0 0 false id tokens (dropBound type tokens) (dropBound type' tokens') := by
  apply Follows.get
  refine .ite (wordBeforeIdent_eq h _) (fun hahead => ?_) fun _ => .pure rfl h
  rw [Bool.and_eq_true, wordAt_eq_true_iff] at hahead
  obtain ⟨lead, lead', rest, rest', rfl, rfl, -, -, hrest⟩ := h.exists_cons hahead.1
  simp only [List.length_cons] at hbound
  exact .weaken (.skipWord (.bind (htype false (by omega) hrest) fun _ _ _ _ _ hleft _ =>
    .pure rfl hleft)) (by decide)

theorem inferredType_eq
    (type : TypeReader) :
    inferredType type = (do
      let tokens ← get
      if wordAt tokens 0 "infer" && identAt tokens 1 then
        skip 1
        let name ← ident
        dropBound type
        return .operator "infer" (.reference name [])
      else suffixedType type) := by
  refine bind_congr fun tokens => ?_
  split
  · simp only [dropBound, bind_assoc]
    refine bind_congr fun _ => bind_congr fun name => bind_congr fun behindName => ?_
    split <;> simp
  · rfl

theorem inferredType_follows
    (htype : TypesFollow keep behind bound type type') (hbound : tokens.length ≤ bound)
    (h : Continues keep behind tokens tokens') :
    Follows keep behind 1 0 false (TypeExpr.mapDocs keep) tokens (inferredType type tokens)
      (inferredType type' tokens') := by
  rw [inferredType_eq, inferredType_eq]
  apply Follows.get
  refine .ite (wordBeforeIdent_eq h _) (fun hahead => ?_) fun _ =>
    suffixedType_follows htype hbound h
  rw [Bool.and_eq_true, wordAt_eq_true_iff] at hahead
  obtain ⟨lead, lead', rest, rest', rfl, rfl, -, -, hrest⟩ := h.exists_cons hahead.1
  simp only [List.length_cons] at hbound
  refine .weaken (.skipWord (.bind (ident_follows hrest) fun name name' _ _ hname hnamed hlength =>
    .bind (dropBound_follows htype (by omega) hnamed) fun _ _ _ _ _ hleft _ => .pure ?_ hleft))
    (by decide)
  obtain rfl : name' = name := hname
  rfl

theorem inferredType_nil
    (type : TypeReader) :
    inferredType type [] = .error ⟨.noType none, []⟩ :=
  rfl

theorem operatorAhead?_eq
    (h : Continues keep behind tokens tokens') (hlive : Live behind tokens) :
    operatorAhead? tokens' = operatorAhead? tokens := by
  obtain ⟨hzero, ⟨_, hlexeme, rfl | rfl⟩ | ⟨hone, -⟩⟩ := h.window hlive <;>
    simp [operatorAhead?, nameAt?, operandAt, *]

theorem operatorType_follows
    (htype : TypesFollow keep behind bound type type') :
    ItemsFollow keep behind (bound + 1) 1 false (TypeExpr.mapDocs keep) (operatorType type)
      (operatorType type') := by
  intro tokens tokens' hbound h
  induction tokens generalizing tokens' with
  | nil =>
    rw [operatorType, inferredType_nil]
    refine .error rfl h fun hbehind => ?_
    subst hbehind
    cases h
    rfl
  | cons token rest ih =>
    obtain ⟨lexeme, lead⟩ := token
    obtain ⟨lead, lead', rest, rest', ⟨⟩, rfl, -, -, hrest⟩ :=
      h.exists_cons (lexemeAt?_cons_zero ⟨lexeme, lead⟩ rest)
    have hahead := operatorAhead?_eq h (live_cons _ _ _)
    cases hname : operatorAhead? (⟨lexeme, lead⟩ :: rest) with
    | none =>
      rw [hname] at hahead
      simp only [operatorType, hname, hahead]
      exact inferredType_follows htype (Nat.le_of_lt_succ hbound) h
    | some name =>
      have hread : ∀ (type : TypeReader) {lead rest},
          operatorAhead? (⟨lexeme, lead⟩ :: rest) = some name →
          operatorType type (⟨lexeme, lead⟩ :: rest) =
            (do
              let operand ← operatorType type
              return .operator name operand : Parse TypeExpr) rest := by
        intro type lead rest hname
        simp only [operatorType, hname]
        rfl
      rw [hread type hname, hread type' (hahead.trans hname)]
      obtain ⟨word, rfl⟩ : ∃ word, lexeme = .ident word := by
        cases lexeme <;> simp_all [operatorAhead?, nameAt?]
      refine .weaken (.word (.bind (ih (Nat.lt_of_succ_lt hbound) hrest)
        fun operand operand' _ _ hoperand hleft _ => .pure ?_ hleft)) (by decide)
      simp only [TypeExpr.mapDocs, hoperand]

theorem mapDocs_combined
    (f : DocsMap) {combine : List TypeExpr → TypeExpr}
    (hcombine : ∀ types, (combine types).mapDocs f = combine (types.map (TypeExpr.mapDocs f)))
    (types : List TypeExpr) :
    (combined combine types).mapDocs f = combined combine (types.map (TypeExpr.mapDocs f)) := by
  match types with
  | [] => exact hcombine []
  | [single] => rfl
  | first :: second :: rest => exact hcombine _

theorem intersectionType_follows
    (htype : TypesFollow keep behind bound type type') :
    ItemsFollow keep behind (bound + 1) 1 false (TypeExpr.mapDocs keep) (intersectionType type)
      (intersectionType type') := by
  intro tokens tokens' hbound h
  refine .weaken (.bind (eat_follows (by decide) h) fun _ _ _ _ _ hleft hlength =>
    .bind (chain_follows (by decide) (by decide) (operatorType_follows htype) (by omega) hleft)
      fun types types' _ _ htypes hrest _ => .pure ?_ hrest) (by decide)
  have hcombine : ∀ types : List TypeExpr, (TypeExpr.intersection types).mapDocs keep =
      .intersection (types.map (TypeExpr.mapDocs keep)) := fun types => by
    rw [TypeExpr.mapDocs, TypeExpr.mapDocsAll_eq]
  rw [mapDocs_combined keep hcombine, mapDocs_combined keep hcombine, htypes]

theorem unionType_follows
    (htype : TypesFollow keep behind bound type type') :
    ItemsFollow keep behind (bound + 1) 1 false (TypeExpr.mapDocs keep) (unionType type)
      (unionType type') := by
  intro tokens tokens' hbound h
  refine .weaken (.bind (eat_follows (by decide) h) fun _ _ _ _ _ hleft hlength =>
    .bind (chain_follows (by decide) (by decide) (intersectionType_follows htype) (by omega) hleft)
      fun types types' _ _ htypes hrest _ => .pure ?_ hrest) (by decide)
  have hcombine : ∀ types : List TypeExpr, (TypeExpr.union types).mapDocs keep =
      .union (types.map (TypeExpr.mapDocs keep)) := fun types => by
    rw [TypeExpr.mapDocs, TypeExpr.mapDocsAll_eq]
  rw [mapDocs_combined keep hcombine, mapDocs_combined keep hcombine, htypes]

theorem typeFrom_follows
    (htype : TypesFollow keep behind bound type type') :
    TypesFollow keep behind (bound + 1) (typeFrom type) (typeFrom type') := by
  intro conditional tokens tokens' hbound h
  refine .weaken (.bind (unionType_follows htype hbound h)
      fun check check' left left' hcheck hleft hlength =>
    (?_ : Follows keep behind 0 0 false (TypeExpr.mapDocs keep) left _ _)) (by decide)
  apply Follows.get
  refine .ite (fun hlive => ?_) (fun hahead => ?_) fun _ => .pure hcheck hleft
  · rw [wordAt_zero_eq hleft _ hlive, hleft.onNewLine_eq hlive]
  · rw [Bool.and_eq_true, Bool.and_eq_true, wordAt_eq_true_iff] at hahead
    obtain ⟨lead, lead', rest, rest', rfl, rfl, -, -, hrest⟩ := hleft.exists_cons hahead.1.2
    simp only [List.length_cons] at hlength
    refine .weaken (.skipWord (.bind (htype false (by omega) hrest)
        fun upper upper' _ _ hupper hread hlength₁ =>
      .bind (expect_follows (by decide) hread) fun _ _ _ _ _ hmarked hlength₂ =>
      .bind (htype true (by omega) hmarked) fun whenTrue whenTrue' _ _ hwhenTrue hread hlength₃ =>
      .bind (expect_follows (by decide) hread) fun _ _ _ _ _ hcolon hlength₄ =>
      .bind (htype true (by omega) hcolon) fun whenFalse whenFalse' _ _ hwhenFalse hrest _ =>
      .pure ?_ hrest)) (by decide)
    simp only [TypeExpr.mapDocs, hcheck, hupper, hwhenTrue, hwhenFalse]

/-- Types follow each other whatever the budgets are, as long as they suffice. -/
theorem typeWithin_follows
    (keep : DocsMap) (behind : List Token) {bound depth depth' : Nat} (hdepth : bound ≤ depth)
    (hdepth' : bound ≤ depth') :
    TypesFollow keep behind bound (typeWithin depth) (typeWithin depth') := by
  -- The induction is on the number of tokens, which both budgets exceed, and not on a budget.
  induction bound generalizing depth depth' with
  | zero =>
    intro _ tokens _ hbound
    exact absurd hbound (Nat.not_lt_zero _)
  | succ bound ih =>
    obtain ⟨depth, rfl⟩ := Nat.exists_eq_succ_of_ne_zero (Nat.ne_zero_of_lt hdepth)
    obtain ⟨depth', rfl⟩ := Nat.exists_eq_succ_of_ne_zero (Nat.ne_zero_of_lt hdepth')
    exact typeFrom_follows (ih (Nat.le_of_succ_le_succ hdepth) (Nat.le_of_succ_le_succ hdepth'))

end Parse

end EntityDiagram.Declaration
