import EntityDiagram.Proofs.Declaration.FileReading
import EntityDiagram.Proofs.Declaration.MemberFollowing

/-!
# Separators between members

A member may be closed by a semicolon, by a comma, or by nothing where the next member starts a
line. It comes back from each of these alike, and every gap between members may be closed in its
own way.

A line break is no separator where the name behind it becomes part of the type in front of it. A
lone result turns into a type predicate in front of `is`, or when it is `asserts` in front of any
name; and `abstract` in front of `new` starts a constructor type.
-/

namespace EntityDiagram.Declaration

open Source (Lead Lexeme Token)

/-- The tokens have the given lexemes and are plain, but for the first one, which may start a line
whatever it is. -/
inductive SpellsAnew : List Token → List Lexeme → Prop
  | intro {first : Token} {more : List Token} {lexemes : List Lexeme}
      (hdocs : first.lead.docs = []) (hmore : Spells more lexemes) :
    SpellsAnew (first :: more) (first.lexeme :: lexemes)

/-- A property, a method or an index signature with a type at its end. -/
def Member.isAnnotated : Member → Bool
  | .call .. => false
  | member => member.type?.isSome

/-- The tokens are members, each closed by a semicolon, by a comma or by a line break; the last one
may also stand alone. A line break closes a member that does not absorb the name behind the
break. -/
inductive Body : List Member → List Token → Prop
  | nil : Body [] []
  | last {m : Member} {tokens : List Token} (hm : SpellsAnew tokens m.lexemes) : Body [m] tokens
  | marked {m : Member} {ms : List Member} {tokens rest : List Token} {mark : Token}
      (hm : SpellsAnew tokens m.lexemes)
      (hmark : mark.lexeme = .punct ";" ∨ mark.lexeme = .punct ",") (hrest : Body ms rest) :
    Body (m :: ms) (tokens ++ mark :: rest)
  | broken {m next : Member} {ms : List Member} {tokens rest : List Token}
      (hm : SpellsAnew tokens m.lexemes) (hline : onNewLine rest = true)
      (hapart : ∀ word, nameAt? rest 0 = some word → m.absorbs word = false)
      (hrest : Body (next :: ms) rest) :
    Body (m :: next :: ms) (tokens ++ rest)

theorem SpellsAnew.exists_cons
    {tokens : List Token} {lexemes : List Lexeme} (h : SpellsAnew tokens lexemes) :
    ∃ first more, tokens = first :: more := by
  cases h with
  | @intro first more => exact ⟨first, more, rfl⟩

theorem SpellsAnew.length_pos
    {tokens : List Token} {lexemes : List Lexeme} (h : SpellsAnew tokens lexemes) :
    0 < tokens.length := by
  obtain ⟨first, more, rfl⟩ := h.exists_cons
  exact Nat.zero_lt_succ _

/-- A member with a type at its end starts with a name or with a bracket. -/
theorem Member.opens_of_isAnnotated
    {m : Member} (hannotated : m.isAnnotated = true) :
    ∃ first more, m.lexemes = first :: more ∧
      ∀ lead rest, memberNameAt (⟨first, lead⟩ :: rest) 0 = true := by
  cases m with
  | property name kind type isOptional isReadonly docs =>
    cases isReadonly with
    | true => exact ⟨_, _, rfl, fun _ _ => rfl⟩
    | false => exact ⟨_, _, rfl, Parse.memberNameAt_keyLexeme name kind⟩
  | method name kind params result isOptional docs =>
    exact ⟨_, _, rfl, Parse.memberNameAt_keyLexeme name kind⟩
  | index parameter value isReadonly =>
    obtain ⟨name, key, _, _⟩ := parameter
    cases isReadonly with
    | true => exact ⟨_, _, rfl, fun _ _ => rfl⟩
    | false => exact ⟨_, _, rfl, fun _ _ => rfl⟩
  | call => exact absurd hannotated (by simp [Member.isAnnotated])

theorem SpellsAnew.memberNameAt
    {tokens : List Token} {m : Member} (h : SpellsAnew tokens m.lexemes)
    (hannotated : m.isAnnotated = true) (rest : List Token) :
    memberNameAt (tokens ++ rest) 0 = true := by
  obtain ⟨lexeme, behind, hlexemes, hname⟩ := Member.opens_of_isAnnotated hannotated
  rw [hlexemes] at h
  cases h with
  | @intro first more => exact hname first.lead (more ++ rest)

theorem markAt_of_memberNameAt
    {rest : List Token} (hname : memberNameAt rest 0 = true) {mark : String} (hmark : mark ≠ "[") :
    markAt rest 0 mark = false := by
  rw [memberNameAt] at hname
  rw [markAt, beq_eq_false_iff_ne]
  intro hlexeme
  simp only [hlexeme, beq_iff_eq] at hname
  exact hmark hname

/-- What starts a member on a new line does not continue a type. -/
theorem stops_of_onNewLine
    {rest : List Token} (hline : onNewLine rest = true) (hname : memberNameAt rest 0 = true) :
    Stops 0 rest where
  dot := markAt_of_memberNameAt hname (by decide)
  parenthesis := markAt_of_memberNameAt hname (by decide)
  arrow := markAt_of_memberNameAt hname (by decide)
  arguments := by simp [hline]
  suffix := by simp [hline]
  intersection _ := markAt_of_memberNameAt hname (by decide)
  union _ := markAt_of_memberNameAt hname (by decide)
  bound := by simp [hline]

/-- A body that is not empty starts with the name of its first member. -/
theorem Body.exists_cons
    {m : Member} {ms : List Member} {body : List Token} (hbody : Body (m :: ms) body)
    (hannotated : m.isAnnotated = true) :
    ∃ first more, body = first :: more ∧ ∀ rest, memberNameAt (first :: rest) 0 = true := by
  obtain ⟨tokens, behind, rfl, hm⟩ : ∃ tokens behind, body = tokens ++ behind ∧
      SpellsAnew tokens m.lexemes := by
    cases hbody with
    | last hm => exact ⟨body, [], (List.append_nil body).symm, hm⟩
    | marked hm => exact ⟨_, _, rfl, hm⟩
    | broken hm => exact ⟨_, _, rfl, hm⟩
  have hname := hm.memberNameAt hannotated
  obtain ⟨first, more, rfl⟩ := hm.exists_cons
  exact ⟨first, more ++ behind, rfl, hname⟩

/-- A member ends in front of a member on a new line, unless it absorbs the name there. -/
theorem Body.stopsAt
    {m next : Member} {ms : List Member} {body : List Token} (hbody : Body (next :: ms) body)
    (hnext : next.isAnnotated = true) (hannotated : m.isAnnotated = true)
    (hline : onNewLine body = true)
    (hapart : ∀ word, nameAt? body 0 = some word → m.absorbs word = false) (rest : List Token) :
    m.StopsAt (body ++ rest) := by
  obtain ⟨first, more, rfl, hname⟩ := hbody.exists_cons hnext
  have hbare : m.type? ≠ none := by
    cases m with
    | call => exact absurd hannotated (by simp [Member.isAnnotated])
    | _ => exact Option.ne_none_iff_isSome.mpr hannotated
  exact ⟨stops_of_onNewLine hline (hname _), fun hnone => absurd hnone hbare, hapart⟩

namespace Parse

variable {type : TypeReader} {bound : Nat}

/-- Behind the modifiers of a member only the lexeme of the next token counts. -/
theorem memberBody_lead
    (type : TypeReader) (isReadonly : Bool) (docs : Option Documentation) (lead lead' : Lead)
    {lexeme : Lexeme} {rest : List Token}
    (hname : memberNameAt (⟨lexeme, lead⟩ :: rest) 0 = true) :
    memberBody type isReadonly docs (⟨lexeme, lead'⟩ :: rest) =
      memberBody type isReadonly docs (⟨lexeme, lead⟩ :: rest) := by
  cases lexeme with
  | ident name =>
    by_cases hnew : name = "new" ∧ (markAt rest 0 "(" = true ∨ markAt rest 0 "<" = true)
    · simp [memberBody, hnew]
    · have hnamed : ∀ lead, memberBody type isReadonly docs (⟨.ident name, lead⟩ :: rest) =
          namedMember type isReadonly docs (⟨.ident name, lead⟩ :: rest) := by
        intro lead
        simp [memberBody, hnew]
      rw [hnamed, hnamed]
      rfl
  | string | number => rfl
  | punct mark =>
    obtain rfl : mark = "[" := by simpa [memberNameAt] using hname
    by_cases hindex : identAt rest 0 = true ∧ markAt rest 1 ":" = true
    · have hindexed : ∀ lead, memberBody type isReadonly docs (⟨.punct "[", lead⟩ :: rest) =
          indexSignature type isReadonly (⟨.punct "[", lead⟩ :: rest) := by
        intro lead
        have hahead : identAt (⟨.punct "[", lead⟩ :: rest) 1 = true := hindex.1
        simp [memberBody, hahead, hindex]
      rw [hindexed, hindexed]
      rfl
    · have hnamed : ∀ lead, memberBody type isReadonly docs (⟨.punct "[", lead⟩ :: rest) =
          namedMember type isReadonly docs (⟨.punct "[", lead⟩ :: rest) := by
        intro lead
        have hahead : ¬(identAt (⟨.punct "[", lead⟩ :: rest) 1 = true ∧
          markAt rest 1 ":" = true) := hindex
        simp [memberBody, hahead]
      rw [hnamed, hnamed]
      rfl
  | _ => cases hname

/-- Whether the first token of a member stands on a new line does not matter. -/
theorem member_lead
    (type : TypeReader) (lead lead' : Lead) (hdocs : lead'.docs = lead.docs) {lexeme : Lexeme}
    {rest : List Token} (hname : memberNameAt (⟨lexeme, lead⟩ :: rest) 0 = true) :
    member type (⟨lexeme, lead'⟩ :: rest) = member type (⟨lexeme, lead⟩ :: rest) := by
  have hdocumented : documentation (⟨lexeme, lead'⟩ :: rest) =
      documentation (⟨lexeme, lead⟩ :: rest) :=
    documentation_lead hdocs lexeme rest
  -- Where a modifier is left out, the same tokens stand behind it.
  have hskip : ∀ (isModifier : Bool) (next : Unit → Parse Member),
      next () (⟨lexeme, lead'⟩ :: rest) = next () (⟨lexeme, lead⟩ :: rest) →
        (skipIf isModifier >>= next) (⟨lexeme, lead'⟩ :: rest) =
          (skipIf isModifier >>= next) (⟨lexeme, lead⟩ :: rest) := by
    intro isModifier next hnext
    cases isModifier with
    | true => rfl
    | false => exact hnext
  rw [member_eq, run_bind, run_bind, run_get, run_get, ok_bind, ok_bind, hdocumented]
  apply hskip
  rw [run_bind, run_bind, run_get, run_get, ok_bind, ok_bind]
  apply hskip
  exact memberBody_lead type _ _ lead lead' hname

/-- A member comes back wherever its first token stands. -/
theorem member_anew
    (htype : ReadsBelow type bound) {m : Member} (hwell : m.WellFormed)
    (hannotated : m.isAnnotated = true) {tokens rest : List Token}
    (htokens : SpellsAnew tokens m.lexemes) (hlength : tokens.length ≤ bound)
    (hrest : m.StopsAt rest) :
    member type (tokens ++ rest) = .ok (m, rest) := by
  have hname := htokens.memberNameAt hannotated rest
  generalize hlexemes : m.lexemes = lexemes at htokens
  cases htokens with
  | @intro first more lexemes hdocs hmore =>
    obtain ⟨lexeme, lead⟩ := first
    have hplain : Spells (⟨lexeme, { lead with newline := false }⟩ :: more) m.lexemes := by
      rw [hlexemes]
      exact spells_cons_iff.mpr ⟨_, more, rfl, ⟨hdocs, Bool.noConfusion⟩, hmore⟩
    have hshort : m.lexemes.length ≤ bound := by
      rw [← hplain.length_eq]
      exact hlength
    have hread := member_reads htype hwell hshort hplain hrest
    rw [List.cons_append] at hread ⊢
    rw [member_lead type { lead with newline := false } lead rfl hname, hread]

/-- A closing brace ends the members and is left where it is. -/
theorem membersWithin_brace
    {steps : Nat} (hsteps : 0 < steps) (brace : Lead) (rest : List Token) :
    membersWithin type steps (⟨.punct "\x7d", brace⟩ :: rest) =
      .ok ([], ⟨.punct "\x7d", brace⟩ :: rest) := by
  obtain ⟨steps, rfl⟩ := Nat.exists_eq_succ_of_ne_zero (Nat.ne_of_gt hsteps)
  simp [membersWithin]

/-- A semicolon or a comma between members is skipped. -/
theorem membersWithin_mark
    {steps : Nat} {mark : Token} (hmark : mark.lexeme = .punct ";" ∨ mark.lexeme = .punct ",")
    (rest : List Token) :
    membersWithin type (steps + 1) (mark :: rest) = membersWithin type steps rest := by
  rcases hmark with hmark | hmark
  · simp [membersWithin, hmark]
  · simp [membersWithin, hmark]

/-- A member and the members behind it. -/
theorem membersWithin_member
    (htype : ReadsBelow type bound) {m : Member} (hwell : m.WellFormed)
    (hannotated : m.isAnnotated = true) {tokens rest left : List Token}
    (htokens : SpellsAnew tokens m.lexemes) (hlength : tokens.length ≤ bound)
    (hrest : m.StopsAt rest) {steps : Nat} {ms : List Member}
    (hmore : membersWithin type steps rest = .ok (ms, left)) :
    membersWithin type (steps + 1) (tokens ++ rest) = .ok (m :: ms, left) := by
  have hname := htokens.memberNameAt hannotated rest
  have hmark : ∀ mark, mark ≠ "[" → markAt (tokens ++ rest) 0 mark = false :=
    fun _ => markAt_of_memberNameAt hname
  have hne : tokens ++ rest ≠ [] := by
    intro hnil
    rw [hnil] at hname
    cases hname
  simp [membersWithin, hmark, hne, member_anew htype hwell hannotated htokens hlength hrest, hmore]

/-- The members of a body come back, however the gaps between them are closed. -/
theorem membersWithin_of_body
    (htype : ReadsBelow type bound) {ms : List Member} {body : List Token} (hbody : Body ms body)
    (hwell : ∀ m ∈ ms, m.WellFormed) (hannotated : ∀ m ∈ ms, m.isAnnotated = true)
    (hlength : body.length ≤ bound) (brace : Lead) (rest : List Token) {steps : Nat}
    (hsteps : body.length < steps) :
    membersWithin type steps (body ++ ⟨.punct "\x7d", brace⟩ :: rest) =
      .ok (ms, ⟨.punct "\x7d", brace⟩ :: rest) := by
  -- A member takes one step of the loop and a mark another, and each of them has a token at least.
  induction hbody generalizing steps with
  | nil => exact membersWithin_brace hsteps brace rest
  | @last m tokens hm =>
    have hpos := hm.length_pos
    obtain ⟨steps, rfl⟩ := Nat.exists_eq_succ_of_ne_zero (Nat.ne_zero_of_lt hsteps)
    have hclosed : SeesOneOf memberMarks (⟨.punct "\x7d", brace⟩ :: rest) :=
      ⟨"\x7d", by decide, by simp⟩
    apply membersWithin_member htype (hwell m List.mem_cons_self)
      (hannotated m List.mem_cons_self) hm hlength (hclosed.memberStops m)
    exact membersWithin_brace (by omega) brace rest
  | @marked m ms tokens behind mark hm hmark hrest ih =>
    have hpos := hm.length_pos
    rw [List.length_append, List.length_cons] at hlength hsteps
    obtain ⟨steps, rfl⟩ : ∃ k, steps = k + 2 := ⟨steps - 2, by omega⟩
    have hclosed : SeesOneOf memberMarks
        (mark :: (behind ++ ⟨.punct "\x7d", brace⟩ :: rest)) := by
      rcases hmark with hmark | hmark
      · exact ⟨";", by decide, by simp [hmark]⟩
      · exact ⟨",", by decide, by simp [hmark]⟩
    rw [List.append_assoc]
    apply membersWithin_member htype (hwell m List.mem_cons_self)
      (hannotated m List.mem_cons_self) hm (by omega) (hclosed.memberStops m)
    rw [membersWithin_mark hmark]
    exact ih (List.forall_mem_cons.mp hwell).2 (List.forall_mem_cons.mp hannotated).2
      (by omega) (by omega)
  | @broken m next ms tokens behind hm hline hapart hrest ih =>
    have hpos := hm.length_pos
    obtain ⟨hm_annotated, hannotated⟩ := List.forall_mem_cons.mp hannotated
    rw [List.length_append] at hlength hsteps
    obtain ⟨steps, rfl⟩ := Nat.exists_eq_succ_of_ne_zero (Nat.ne_zero_of_lt hsteps)
    have hstops := hrest.stopsAt (hannotated next List.mem_cons_self) hm_annotated hline hapart
      (⟨.punct "\x7d", brace⟩ :: rest)
    rw [List.append_assoc]
    apply membersWithin_member htype (hwell m List.mem_cons_self) hm_annotated hm (by omega) hstops
    exact ih (List.forall_mem_cons.mp hwell).2 hannotated (by omega) (by omega)

theorem members_of_body
    (htype : ReadsBelow type bound) {ms : List Member} {body : List Token} (hbody : Body ms body)
    (hwell : ∀ m ∈ ms, m.WellFormed) (hannotated : ∀ m ∈ ms, m.isAnnotated = true)
    (hlength : body.length ≤ bound) (brace : Lead) (rest : List Token) :
    members type (body ++ ⟨.punct "\x7d", brace⟩ :: rest) = .ok (ms, rest) := by
  have hsteps : body.length < (body ++ ⟨.punct "\x7d", brace⟩ :: rest).length + 1 := by
    rw [List.length_append]
    omega
  have hread := membersWithin_of_body htype hbody hwell hannotated hlength brace rest hsteps
  simp [members, -List.length_append, hread]

/-- An interface without modifiers is a statement. -/
theorem statement_of_interface
    (type : TypeReader) {declaration : Interface} {front back rest : List Token}
    (hfront : Spells front (headLexemes declaration))
    (hread : interfaceDeclaration type none (front ++ back) = .ok (declaration, rest)) :
    statement type (front ++ back) = .ok (.interface declaration, rest) := by
  have hdocs : documentation (front ++ back) = none := documentation_of_spells hfront
  have hahead : declarationAhead? (front ++ back) = some (.interface, 0) := by
    obtain ⟨keyword, behind, rfl, -, hbehind⟩ := spells_cons_iff.mp hfront
    obtain ⟨nameLead, behind, rfl, -, -⟩ := spells_cons_iff.mp hbehind
    have hnone : ∀ modifier ∈ [], modifier ∈ declarationModifiers := by simp
    exact declarationAhead?_interface hnone (spells_nil_iff.mpr rfl) keyword nameLead
      (behind ++ back)
  simp [statement, hdocs, hahead, hread]

end Parse

/-- An interface comes back with its members, whether each gap between them is closed by a
semicolon, by a comma, or by a line break behind which the next member does not become part of the
one before. -/
theorem Statement.listOfTokens_of_body
    {declaration : Interface} (hwell : declaration.WellFormed)
    (hannotated : ∀ m ∈ declaration.members, m.isAnnotated = true) {front body : List Token}
    (hfront : Spells front (Parse.headLexemes declaration)) (hbody : Body declaration.members body)
    (brace : Lead) :
    Statement.listOfTokens (front ++ (body ++ [⟨.punct "\x7d", brace⟩])) =
      .ok [.interface declaration] := by
  generalize hwhole : front ++ (body ++ [(⟨.punct "\x7d", brace⟩ : Token)]) = tokens
  have hlength : tokens.length = front.length + (body.length + 1) := by
    rw [← hwhole, List.length_append, List.length_append, List.length_singleton]
  have hhead : (Parse.headLexemes declaration).length ≤ tokens.length + 1 := by
    rw [← hfront.length_eq]
    omega
  have htype := Parse.readsBelow_typeWithin (tokens.length + 1)
  have hmembers := Parse.members_of_body htype hbody hwell.members hannotated (by omega) brace []
  have hdeclaration := Parse.interfaceDeclaration_of_members htype hwell hhead hfront hmembers
  have hstatement := Parse.statement_of_interface _ hfront hdeclaration
  have hstart : tokens ≠ [] ∧ Parse.eat ";" tokens = .ok (false, tokens) := by
    obtain ⟨keyword, behind, rfl, -, -⟩ := spells_cons_iff.mp hfront
    rw [← hwhole]
    exact ⟨List.cons_ne_nil _ _, Parse.run_eat_of_false (by simp)⟩
  have hending : ∀ steps, Parse.statementsWithin (Parse.typeWithin (tokens.length + 1)) steps [] =
      .ok ([], []) := by
    rintro (_ | steps)
    · rfl
    · rfl
  have hread : Parse.statementsWithin (Parse.typeWithin (tokens.length + 1)) (tokens.length + 1)
      tokens = .ok ([.interface declaration], []) := by
    rw [hwhole] at hstatement
    simp [Parse.statementsWithin, hstart, hstatement, hending]
  simp only [listOfTokens, hread]
  rfl

theorem spellsAnew_tokensOnNewLine
    {lexemes : List Lexeme} (h : lexemes ≠ []) :
    SpellsAnew (tokensOnNewLine lexemes) lexemes := by
  obtain ⟨first, more, rfl⟩ := List.exists_cons_of_ne_nil h
  exact .intro rfl (spells_tokensOnLine more)

/-- A mark on the line of the token before it. -/
def markToken (mark : String) : Token :=
  ⟨.punct mark, ⟨.start, false, []⟩⟩

/-- Members with names that have a meaning of their own elsewhere. -/
def exampleInterface : Interface where
  name := "Mixed"
  members := [
    .method "a" .identifier [] (some (.keyword "string")) false none,
    .index (.mk "key" (some (.keyword "string")) false false) (some (.reference "abstract" []))
      false,
    .property "is" .string (some (.reference "asserts" [])) true false none,
    .property "extends" .identifier
      (some (.function [] (some (.reference "is" [])) false)) false true none,
    .property "new" .identifier (some (.keyword "number")) false false none]
  heritage := []
  parameters := []
  docs := none

/-- The members with a comma, two line breaks, a semicolon and nothing behind them. -/
def exampleBody : List Token :=
  match exampleInterface.members.map fun m => tokensOnNewLine m.lexemes with
  | [first, second, third, fourth, fifth] =>
    first ++ markToken "," :: (second ++ (third ++ markToken ";" :: (fourth ++ fifth)))
  | _ => []

theorem exampleInterface_wellFormed :
    exampleInterface.WellFormed ∧ ∀ m ∈ exampleInterface.members, m.isAnnotated = true := by
  have hword : ∀ name ∈ keywordTypes, ∀ t ∈ some (TypeExpr.keyword name), t.WellFormed := by
    rintro name hname _ ⟨⟩
    exact .keyword hname
  have hname : ∀ name, isReferenceName name = true →
      ∀ t ∈ some (TypeExpr.reference name []), t.WellFormed := by
    rintro name hname _ ⟨⟩
    exact .reference hname (List.forall_mem_nil _)
  have hmethod :
      (Member.method "a" .identifier [] (some (.keyword "string")) false none).WellFormed := by
    refine .method (by decide) (isKey_ofString _ _) (by decide) (List.forall_mem_nil _)
      (hword _ (by decide)) ?_
    rintro _ ⟨⟩
    decide
  have hindex : (Member.index (.mk "key" (some (.keyword "string")) false false)
      (some (.reference "abstract" [])) false).WellFormed :=
    .index (.keyword (by decide)) (hname _ (by decide))
  have hfunction : ∀ t ∈ some (TypeExpr.function [] (some (.reference "is" [])) false),
      t.WellFormed := by
    rintro _ ⟨⟩
    exact .function (List.forall_mem_nil _) (hname _ (by decide) _ rfl) (by decide)
  refine ⟨⟨?_, List.forall_mem_nil _, List.forall_mem_nil _, rfl⟩, by decide⟩
  simp only [exampleInterface, List.forall_mem_cons]
  exact ⟨hmethod, hindex, .property (by decide) (isKey_ofString _ _) (hname _ (by decide)),
    .property (by decide) (isKey_ofString _ _) hfunction,
    .property (by decide) (isKey_ofString _ _) (hword _ (by decide)), List.forall_mem_nil _⟩

theorem listOfTokens_exampleBody :
    Body exampleInterface.members exampleBody ∧
      Statement.listOfTokens (tokensOnLine (Parse.headLexemes exampleInterface) ++
        (exampleBody ++ [markToken "\x7d"])) = .ok [.interface exampleInterface] := by
  have hspells : ∀ m : Member, SpellsAnew (tokensOnNewLine m.lexemes) m.lexemes := by
    intro m
    obtain ⟨first, more, hlexemes, -⟩ := Parse.member_opens m
    exact spellsAnew_tokensOnNewLine (by simp [hlexemes])
  have hbody : Body exampleInterface.members exampleBody := by
    refine .marked (hspells _) (.inr rfl) (.broken (hspells _) rfl (by decide) ?_)
    refine .marked (hspells _) (.inl rfl) (.broken (hspells _) rfl ?_ (.last (hspells _)))
    rintro _ ⟨⟩
    decide
  obtain ⟨hwell, hannotated⟩ := exampleInterface_wellFormed
  exact ⟨hbody, Statement.listOfTokens_of_body hwell hannotated (spells_tokensOnLine _) hbody _⟩

/-- An interface of two members, with tokens between them, and what it is read as. -/
def readPair (first second : Member) (between : List Token) :
    Except ParseFailure (List Statement) :=
  Statement.listOfTokens (tokensOnLine [.ident "interface", .ident "A", .punct "\x7b"] ++
    (tokensOnNewLine first.lexemes ++ between ++ tokensOnNewLine second.lexemes ++
      [markToken "\x7d"]))

/-- A method with a lone result, and a property that is named by the word of type predicates. -/
def predicatePair : Member × Member :=
  (.method "a" .identifier [] (some (.keyword "string")) false none,
    .property "is" .identifier (some (.keyword "number")) false false none)

/-- A property of a type named `abstract`, and a property that is named `new`. -/
def constructorPair : Member × Member :=
  (.property "a" .identifier (some (.reference "abstract" [])) false false none,
    .property "new" .identifier (some (.keyword "number")) false false none)

/-- The interface of two members. -/
def pairInterface (pair : Member × Member) : Interface :=
  { name := "A", members := [pair.1, pair.2], heritage := [], parameters := [], docs := none }

/-- Behind a semicolon these members come back, but a line break does not separate them. -/
theorem listOfTokens_absorbedNames :
    (∀ pair ∈ [predicatePair, constructorPair],
      pair.1.isAnnotated = true ∧ pair.2.isAnnotated = true) ∧
      readPair predicatePair.1 predicatePair.2 [markToken ";"] =
        .ok [.interface (pairInterface predicatePair)] ∧
      readPair predicatePair.1 predicatePair.2 [] =
        .error ⟨.noType (some (.punct ":")),
          tokensOnLine [.punct ":", .ident "number"] ++ [markToken "\x7d"]⟩ ∧
      readPair constructorPair.1 constructorPair.2 [markToken ";"] =
        .ok [.interface (pairInterface constructorPair)] ∧
      readPair constructorPair.1 constructorPair.2 [] =
        .error ⟨.expectedMark "(" (some (.punct ":")),
          tokensOnLine [.punct ":", .ident "number"] ++ [markToken "\x7d"]⟩ :=
  ⟨by decide, rfl, rfl, rfl, rfl⟩

end EntityDiagram.Declaration
