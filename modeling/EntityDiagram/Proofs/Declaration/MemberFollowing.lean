import EntityDiagram.Proofs.Declaration.SignatureFollowing

/-!
# Members follow each other
-/

namespace EntityDiagram.Declaration

open Source (Lexeme Token)

namespace Parse

variable {keep : DocsMap} {behind tokens tokens' : List Token} {bound : Nat}
  {type type' : TypeReader}

theorem memberName_follows
    (h : Continues keep behind tokens tokens') :
    Follows keep behind 1 0 false id tokens (memberName tokens) (memberName tokens') := by
  have hfail : ∀ tokens : List Token, memberNameAt tokens 0 = false →
      memberName tokens = fail .expectedMemberName tokens := by
    intro tokens hnone
    unfold memberNameAt at hnone
    simp only [memberName, run_bind, run_get, ok_bind]
    generalize lexemeAt? tokens 0 = next at hnone ⊢
    split <;> simp_all
  cases hnext : memberNameAt tokens 0 with
  | false =>
    rw [hfail tokens hnext]
    refine .of_live (.fail (fun _ => rfl) h) fun hlive => hfail tokens' ?_
    rw [← hnext, memberNameAt, h.lexemeAt?_zero hlive, memberNameAt]
  | true =>
    obtain ⟨lexeme, hlexeme⟩ : ∃ lexeme, lexemeAt? tokens 0 = some lexeme := by
      cases hlexeme : lexemeAt? tokens 0 <;> simp_all [memberNameAt]
    obtain ⟨lead, lead', rest, rest', rfl, rfl, -, -, hrest⟩ := h.exists_cons hlexeme
    cases lexeme with
    | ident name => exact .word (.pure rfl hrest)
    | string text => exact .plain (.pure rfl hrest) (by simp)
    | number spelling => exact .plain (.pure rfl hrest) (by simp)
    | punct mark =>
      obtain rfl : mark = "[" := by simpa [memberNameAt] using hnext
      have hcomputed : ∀ lead rest, memberName (⟨.punct "[", lead⟩ :: rest) =
          (do let text ← bracketedText; return ((text : Text), .computed) : Parse (Text × NameKind))
            (⟨.punct "[", lead⟩ :: rest) := fun _ _ => rfl
      rw [hcomputed, hcomputed]
      refine .weaken (.bind (bracketedText_follows (by decide) hrest)
        fun text text' _ _ htext hleft _ => .pure ?_ hleft) (by decide)
      exact congrArg (fun text : String => ((text : Text), NameKind.computed)) htext
    | template text => simp [memberNameAt] at hnext
    | regex spelling => simp [memberNameAt] at hnext

theorem callSignature_follows
    (htype : TypesFollow keep behind bound type type') (isConstructor : Bool)
    (hbound : tokens.length < bound) (h : Continues keep behind tokens tokens') :
    Follows keep behind 1 0 false (Member.mapDocs keep) tokens
      (callSignature type isConstructor tokens) (callSignature type' isConstructor tokens') := by
  refine .weaken (.bind (typeParameters_follows htype (by omega) h) fun _ _ _ _ _ hleft hlength =>
    .bind (parameters_follows htype (by omega) hleft)
      fun params params' _ _ hparams hread hlength₁ =>
    .bind (resultAnnotation_follows htype (by omega) hread)
      fun result result' _ _ hresult hrest _ => .pure ?_ hrest) (by decide)
  simp only [Member.mapDocs, Parameter.mapDocsAll_eq, TypeExpr.mapDocs?_eq, hparams, hresult]

theorem indexSignature_follows
    (htype : TypesFollow keep behind bound type type') (isReadonly : Bool)
    (hbound : tokens.length < bound) (h : Continues keep behind tokens tokens') :
    Follows keep behind 1 0 false (Member.mapDocs keep) tokens
      (indexSignature type isReadonly tokens) (indexSignature type' isReadonly tokens') := by
  refine .weaken (.bind (expect_follows (by decide) h) fun _ _ _ _ _ hopened hlength =>
    .bind (ident_follows hopened) fun name name' _ _ hname hnamed hlength₁ =>
    .bind (expect_follows (by decide) hnamed) fun _ _ _ _ _ hcolon hlength₂ =>
    .bind (htype true (by omega) hcolon) fun key key' _ _ hkey hread hlength₃ =>
    .bind (expect_follows (by decide) hread) fun _ _ _ _ _ hclosed hlength₄ =>
    .bind (eat_follows (by decide) hclosed) fun _ _ _ _ _ hmarked hlength₅ =>
    .bind (annotation_follows htype (by omega) hmarked) fun value value' _ _ hvalue hrest _ =>
    .pure ?_ hrest) (by decide)
  obtain rfl : name' = name := hname
  simp only [Member.mapDocs, Parameter.mapDocs, TypeExpr.mapDocs?_eq, Option.map_some, hkey, hvalue]

theorem namedMember_follows
    (htype : TypesFollow keep behind bound type type') (isReadonly : Bool)
    {docs docs' : Option Documentation} (hdocs : keep docs' = keep docs)
    (hbound : tokens.length < bound) (h : Continues keep behind tokens tokens') :
    Follows keep behind 1 0 false (Member.mapDocs keep) tokens
      (namedMember type isReadonly docs tokens) (namedMember type' isReadonly docs' tokens') := by
  refine .weaken (.bind (memberName_follows h) fun name name' _ _ hname hnamed hlength =>
    .bind (eat_follows (by decide) hnamed)
      fun isOptional isOptional' rest rest' hisOptional hmarked hlength₁ =>
    (?_ : Follows keep behind 0 0 false (Member.mapDocs keep) rest _ _)) (by decide)
  obtain rfl : name' = name := hname
  obtain rfl : isOptional' = isOptional := hisOptional
  apply Follows.get
  refine .ite (fun hlive => ?_) (fun _ => ?_) fun _ => ?_
  · simp only [markAt_zero_eq hmarked _ hlive]
  · refine .weaken (.bind (typeParameters_follows htype (by omega) hmarked)
        fun _ _ _ _ _ hleft hlength₂ =>
      .bind (parameters_follows htype (by omega) hleft)
        fun params params' _ _ hparams hread hlength₃ =>
      .bind (resultAnnotation_follows htype (by omega) hread)
        fun result result' _ _ hresult hrest _ => .pure ?_ hrest) (by decide)
    simp only [Member.mapDocs, Parameter.mapDocsAll_eq, TypeExpr.mapDocs?_eq, hparams, hresult,
      hdocs]
  · refine .weaken (.bind (annotation_follows htype (by omega) hmarked)
      fun annotated annotated' _ _ hannotated hrest _ => .pure ?_ hrest) (by decide)
    simp only [Member.mapDocs, TypeExpr.mapDocs?_eq, hannotated, hdocs]

/-- A member behind its modifiers. -/
def memberBody
    (type : TypeReader) (isReadonly : Bool) (docs : Option Documentation) : Parse Member := do
  let tokens ← get
  if markAt tokens 0 "(" || markAt tokens 0 "<" then callSignature type false
  else if wordAt tokens 0 "new" && (markAt tokens 1 "(" || markAt tokens 1 "<") then
    skip 1
    callSignature type true
  else if markAt tokens 0 "[" && identAt tokens 1 && markAt tokens 2 ":" then
    indexSignature type isReadonly
  else namedMember type isReadonly docs

/-- A modifier that is left out. -/
def skipIf (isModifier : Bool) : Parse Unit :=
  if isModifier then skip 1 else pure ()

theorem member_eq
    (type : TypeReader) :
    member type = (do
      let start ← get
      let isReadonly := wordAt start 0 "readonly" && memberNameAt start 1
      skipIf isReadonly
      let afterReadonly ← get
      skipIf (oneOfAt afterReadonly 0 ["get", "set"] && memberNameAt afterReadonly 1)
      memberBody type isReadonly (documentation start)) := by
  have hskip : ∀ (isModifier : Bool) (next : Unit → Parse Member), (skipIf isModifier >>= next) =
      if isModifier then skip 1 >>= next else next () := by
    intro isModifier next
    cases isModifier <;> rfl
  simp only [member, hskip]
  rfl

theorem skipIf_follows
    {isModifier isModifier' : Bool} (hagree : Live behind tokens → isModifier' = isModifier)
    (hword : isModifier = true → identAt tokens 0 = true)
    (h : Continues keep behind tokens tokens') :
    Follows keep behind 0 0 false id tokens (skipIf isModifier tokens)
      (skipIf isModifier' tokens') := by
  refine .ite hagree (fun hmodifier => ?_) fun _ => .pure rfl h
  obtain ⟨name, hname⟩ := identAt_iff.mp (hword hmodifier)
  obtain ⟨lead, lead', rest, rest', rfl, rfl, -, -, hrest⟩ := h.exists_cons hname
  exact .weaken (.word (.pure rfl hrest)) (by decide)

theorem memberBody_follows
    (htype : TypesFollow keep behind bound type type') (isReadonly : Bool)
    {docs docs' : Option Documentation} (hdocs : keep docs' = keep docs)
    (hbound : tokens.length < bound) (h : Continues keep behind tokens tokens') :
    Follows keep behind 1 0 false (Member.mapDocs keep) tokens
      (memberBody type isReadonly docs tokens) (memberBody type' isReadonly docs' tokens') := by
  apply Follows.get
  refine .ite (fun hlive => ?_) (fun _ => callSignature_follows htype false hbound h) fun _ =>
    .ite (fun hlive => ?_) (fun hnew => ?_) fun _ =>
    .ite (fun hlive => ?_) (fun _ => indexSignature_follows htype isReadonly hbound h) fun _ =>
    namedMember_follows htype isReadonly hdocs hbound h
  · simp only [markAt_zero_eq h _ hlive]
  · rw [Bool.eq_iff_iff]
    obtain ⟨hzero, ⟨_, hlexeme, rfl | rfl⟩ | ⟨hone, -⟩⟩ := h.window hlive <;>
      simp [wordAt, markAt, *]
  · rw [Bool.and_eq_true, wordAt_eq_true_iff] at hnew
    obtain ⟨lead, lead', rest, rest', rfl, rfl, -, -, hrest⟩ := h.exists_cons hnew.1
    exact .weaken (.word (callSignature_follows htype true (Nat.lt_of_succ_lt hbound) hrest))
      (by decide)
  · rw [Bool.eq_iff_iff]
    obtain ⟨hzero, ⟨_, hlexeme, rfl | rfl⟩ | ⟨hone, ⟨_, hlexeme, rfl | rfl⟩ | htwo⟩⟩ :=
      h.window hlive <;> simp [markAt, identAt, nameAt?, *]

theorem member_nil
    (type : TypeReader) :
    member type [] = .error ⟨.expectedMemberName none, []⟩ :=
  rfl

theorem member_follows
    (htype : TypesFollow keep behind bound type type') (hbound : tokens.length < bound)
    (h : Continues keep behind tokens tokens') :
    Follows keep behind 1 0 false (Member.mapDocs keep) tokens (member type tokens)
      (member type' tokens') := by
  by_cases hlive : Live behind tokens
  · rw [member_eq, member_eq]
    have hreadonly : (wordAt tokens' 0 "readonly" && memberNameAt tokens' 1) =
        (wordAt tokens 0 "readonly" && memberNameAt tokens 1) := by
      rw [Bool.eq_iff_iff]
      obtain ⟨hzero, ⟨_, hlexeme, rfl | rfl⟩ | ⟨hone, -⟩⟩ := h.window hlive <;>
        simp [wordAt, memberNameAt, *]
    apply Follows.get
    rw [hreadonly]
    refine .weaken (.bind (skipIf_follows (fun _ => rfl) (fun hmodifier => ?_) h)
      fun _ _ left left' _ hleft hlength =>
        (?_ : Follows keep behind 1 0 false (Member.mapDocs keep) left _ _)) (by decide)
    · rw [Bool.and_eq_true, wordAt_eq_true_iff] at hmodifier
      exact identAt_iff.mpr ⟨_, hmodifier.1⟩
    · apply Follows.get
      refine .weaken (.bind (skipIf_follows (fun hlive => ?_) (fun hmodifier => ?_) hleft)
        fun _ _ _ _ _ hbody hlength₁ =>
          memberBody_follows htype _ (h.documentation_eq hlive) (by omega) hbody) (by decide)
      · rw [Bool.eq_iff_iff]
        obtain ⟨hzero, ⟨_, hlexeme, rfl | rfl⟩ | ⟨hone, -⟩⟩ := hleft.window hlive <;>
          simp [oneOfAt, nameAt?, memberNameAt, *]
      · rw [Bool.and_eq_true, oneOfAt, Option.any_eq_true] at hmodifier
        obtain ⟨⟨name, hname, -⟩, -⟩ := hmodifier
        exact identAt_iff.mpr ⟨name, nameAt?_eq_some_iff.mp hname⟩
  · -- At the end there is no member, and what stands behind is not compared.
    obtain rfl : tokens = [] := not_not.mp (not_or.mp hlive).2
    rw [member_nil]
    exact .error rfl h fun hbehind => absurd (.inl hbehind) hlive

theorem membersWithin_follows
    (htype : TypesFollow keep behind bound type type') (hbound : tokens.length < bound)
    (h : Continues keep behind tokens tokens') {steps steps' : Nat} (hsteps : tokens.length < steps)
    (hsteps' : tokens'.length < steps') :
    Follows keep behind 0 0 true (List.map (Member.mapDocs keep)) tokens
      (membersWithin type steps tokens) (membersWithin type' steps' tokens') := by
  induction steps generalizing tokens tokens' steps' with
  | zero => omega
  | succ steps ih =>
    obtain ⟨steps', rfl⟩ := Nat.exists_eq_succ_of_ne_zero (Nat.ne_zero_of_lt hsteps')
    have hcount := h.length_eq
    apply Follows.get
    refine .ite (markAt_zero_eq h _) (fun _ => .weaken (.pure rfl h) (by decide)) fun _ =>
      .ite (fun hlive => ?_) (fun _ => .fail (fun _ => rfl) h) fun hnonempty =>
      .ite (fun hlive => ?_) (fun hmark => ?_) fun _ => ?_
    · simpa using h.isEmpty_eq hlive
    · simp only [markAt_zero_eq h _ hlive]
    · have hseparator : ∀ {mark : String}, turn (.punct mark) ≤ 0 → markAt tokens 0 mark = true →
          Follows keep behind 0 0 true (List.map (Member.mapDocs keep)) tokens
            ((skip 1 >>= fun _ => membersWithin type steps) tokens)
            ((skip 1 >>= fun _ => membersWithin type' steps') tokens') := by
        intro mark hturn hmark
        obtain ⟨lead, lead', rest, rest', rfl, rfl, -, -, hrest⟩ :=
          h.exists_cons (markAt_eq_true_iff.mp hmark)
        simp only [List.length_cons] at hbound hsteps hsteps'
        exact .weaken (.skip (ih (by omega) hrest (by omega) (by omega)) (by simp))
          ⟨Nat.zero_le _, by omega, by decide⟩
      rw [Bool.or_eq_true] at hmark
      exact hmark.elim (hseparator (by decide)) (hseparator (by decide))
    · refine .weaken (.bind (member_follows htype hbound h)
          fun first first' left left' hfirst hleft hlength =>
        .bind (ih (by omega) hleft ?_ ?_) fun more more' _ _ hmore hrest _ => .pure ?_ hrest)
          (by decide)
      · omega
      · have := hleft.length_eq
        omega
      · rw [List.map_cons, List.map_cons, hfirst, hmore]

theorem members_follows
    (htype : TypesFollow keep behind bound type type') (hbound : tokens.length < bound)
    (h : Continues keep behind tokens tokens') :
    Follows keep behind 1 (-1) false (List.map (Member.mapDocs keep)) tokens (members type tokens)
      (members type' tokens') := by
  apply Follows.get
  exact .weaken (.bind (membersWithin_follows htype hbound h (Nat.lt_succ_self _)
    (Nat.lt_succ_self _)) fun found found' _ _ hfound hleft _ =>
    .bind (expect_follows (by decide) hleft) fun _ _ _ _ _ hrest _ => .pure hfound hrest)
      (by decide)

end Parse

end EntityDiagram.Declaration
