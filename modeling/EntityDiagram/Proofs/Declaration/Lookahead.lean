import EntityDiagram.Proofs.Declaration.Reading

/-!
# Looking ahead over spellings

What the readers see when they look at a spelling from its front. Three facts carry all lookaheads:
how a type opens, that its brackets are balanced, and which tokens do not continue it.
-/

namespace EntityDiagram.Declaration

open Source (Lead Lexeme Token)

/-! ## What continues a type -/

/-- The tokens do not continue a type that binds at least as tightly as the level says. What a name
in front of them would do depends on the type. -/
structure Stops (level : Nat) (rest : List Token) : Prop where
  dot : markAt rest 0 "." = false
  parenthesis : markAt rest 0 "(" = false
  arrow : markAt rest 0 "=>" = false
  arguments : (markAt rest 0 "<" && !onNewLine rest) = false
  suffix : level ≤ 4 → (markAt rest 0 "[" && !onNewLine rest) = false
  intersection : level ≤ 2 → markAt rest 0 "&" = false
  union : level ≤ 1 → markAt rest 0 "|" = false
  bound : level = 0 → (wordAt rest 0 "extends" && !onNewLine rest) = false

theorem Stops.mono
    {low high : Nat} {rest : List Token} (h : Stops low rest) (hle : low ≤ high) :
    Stops high rest where
  dot := h.dot
  parenthesis := h.parenthesis
  arrow := h.arrow
  arguments := h.arguments
  suffix hlevel := h.suffix (by omega)
  intersection hlevel := h.intersection (by omega)
  union hlevel := h.union (by omega)
  bound hlevel := h.bound (by omega)

/-- The level from which on nothing may continue the type, where it is read on the given level. -/
def TypeExpr.reach (type : TypeExpr) (level : Nat) : Nat :=
  if type.endsOpen then 0 else level

theorem TypeExpr.reach_le
    (type : TypeExpr) (level : Nat) :
    type.reach level ≤ level := by
  unfold TypeExpr.reach
  split <;> omega

theorem TypeExpr.reach_mono
    (type : TypeExpr) {low high : Nat} (hle : low ≤ high) :
    type.reach low ≤ type.reach high := by
  unfold TypeExpr.reach
  split <;> omega

/-- A type that is read on the level ends in front of the tokens. -/
structure TypeExpr.StopsAt (type : TypeExpr) (level : Nat) (rest : List Token) : Prop where
  stops : Stops (type.reach level) rest
  apart : ∀ word, nameAt? rest 0 = some word → type.absorbs word = false

/-- A type that is the result of a signature ends in front of the tokens. -/
structure TypeExpr.ResultStopsAt (type : TypeExpr) (rest : List Token) : Prop where
  stops : Stops 0 rest
  apart : ∀ word, nameAt? rest 0 = some word → type.resultAbsorbs word = false

section StopsAt

variable {type : TypeExpr} {rest : List Token}

theorem TypeExpr.StopsAt.mono
    {low high : Nat} (h : type.StopsAt low rest) (hle : low ≤ high) :
    type.StopsAt high rest :=
  ⟨h.stops.mono (type.reach_mono hle), h.apart⟩

theorem TypeExpr.StopsAt.of_reach
    {level : Nat} (h : type.StopsAt level rest) :
    Stops level rest :=
  h.stops.mono (type.reach_le level)

theorem TypeExpr.ResultStopsAt.stopsAt
    (h : type.ResultStopsAt rest) (level : Nat) :
    type.StopsAt level rest where
  stops := h.stops.mono (Nat.zero_le _)
  apart word hword := by
    have hresult := h.apart word hword
    rw [TypeExpr.resultAbsorbs, Bool.or_eq_false_iff] at hresult
    exact hresult.2

/-- A function type ends where its result does. -/
theorem TypeExpr.StopsAt.result
    {parameters : List Parameter} {isConstructor : Bool} {level : Nat}
    (h : (TypeExpr.function parameters (some type) isConstructor).StopsAt level rest) :
    type.ResultStopsAt rest :=
  ⟨h.stops, h.apart⟩

end StopsAt

/-- The marks that stand behind a complete type. -/
def closingMarks : List String :=
  [")", "]", "\x7d", ">", ",", ";", ":", "?", "="]

theorem stops_nil
    {type : TypeExpr} {level : Nat} :
    type.StopsAt level [] := by
  constructor
  · constructor <;> simp [markAt, wordAt]
  · simp [nameAt?]

theorem nameAt?_of_identAt_eq_false
    {rest : List Token} {offset : Nat} (h : identAt rest offset = false) :
    nameAt? rest offset = none :=
  Option.isNone_iff_eq_none.mp (Option.isSome_eq_false_iff.mp h)

theorem wordAt_of_nameAt?
    {rest : List Token} {offset : Nat} {name : String} (h : nameAt? rest offset = some name)
    (word : String) :
    wordAt rest offset word = decide (name = word) := by
  cases hlexeme : lexemeAt? rest offset with
  | none => simp [nameAt?, hlexeme] at h
  | some lexeme =>
    cases lexeme with
    | ident other =>
      obtain rfl : other = name := by simpa [nameAt?, hlexeme] using h
      rw [Bool.eq_iff_iff]
      simp [wordAt, hlexeme]
    | _ => simp [nameAt?, hlexeme] at h

theorem SeesOneOf.stopsLevel
    {marks : List String} {rest : List Token} (h : SeesOneOf marks rest)
    (hmarks : ∀ mark ∈ marks, mark ∈ closingMarks) :
    Stops 0 rest := by
  have hother : ∀ other, other ∉ closingMarks → markAt rest 0 other = false := by
    intro other hother
    exact h.markAt_eq_false fun hmem => hother (hmarks other hmem)
  exact {
    dot := hother "." (by decide)
    parenthesis := hother "(" (by decide)
    arrow := hother "=>" (by decide)
    arguments := by simp [hother "<" (by decide)]
    suffix := by simp [hother "[" (by decide)]
    intersection := fun _ => hother "&" (by decide)
    union := fun _ => hother "|" (by decide)
    bound := by simp [wordAt_of_not_ident h.identAt_eq_false] }

theorem SeesOneOf.resultStops
    {marks : List String} {rest : List Token} (h : SeesOneOf marks rest)
    (hmarks : ∀ mark ∈ marks, mark ∈ closingMarks) {type : TypeExpr} :
    type.ResultStopsAt rest where
  stops := h.stopsLevel hmarks
  apart := by simp [nameAt?_of_identAt_eq_false h.identAt_eq_false]

theorem SeesOneOf.stops
    {marks : List String} {rest : List Token} (h : SeesOneOf marks rest)
    (hmarks : ∀ mark ∈ marks, mark ∈ closingMarks) {type : TypeExpr} {level : Nat} :
    type.StopsAt level rest :=
  (h.resultStops hmarks).stopsAt level

/-- The marks that stand behind a member. -/
def memberMarks : List String :=
  ["\x7d", ";", ","]

/-- A member ends in front of the tokens. One without a type at its end needs a mark behind it. -/
structure Member.StopsAt (m : Member) (rest : List Token) : Prop where
  stops : Stops 0 rest
  bare : m.type? = none → SeesOneOf memberMarks rest
  apart : ∀ word, nameAt? rest 0 = some word → m.absorbs word = false

theorem annotated_stopsAt
    {annotated : Option TypeExpr} {rest : List Token} (hstops : Stops 0 rest)
    (hapart : ∀ word, nameAt? rest 0 = some word → annotated.any (TypeExpr.absorbs word) = false) :
    ∀ t ∈ annotated, t.StopsAt 0 rest := by
  rintro t rfl
  exact ⟨hstops.mono (Nat.zero_le _), hapart⟩

theorem result_stopsAt
    {annotated : Option TypeExpr} {rest : List Token} (hstops : Stops 0 rest)
    (hapart : ∀ word, nameAt? rest 0 = some word →
      annotated.any (TypeExpr.resultAbsorbs word) = false) :
    ∀ t ∈ annotated, t.ResultStopsAt rest := by
  rintro t rfl
  exact ⟨hstops, hapart⟩

theorem SeesOneOf.memberStops
    {rest : List Token} (h : SeesOneOf memberMarks rest) (m : Member) :
    Member.StopsAt m rest where
  stops := h.stopsLevel (by decide)
  bare _ := h
  apart := by simp [nameAt?_of_identAt_eq_false h.identAt_eq_false]

theorem stops_of_bar
    {rest : List Token} (hrest : markAt rest 0 "|" = true) :
    Stops 2 rest := by
  simp only [markAt, beq_iff_eq] at hrest
  constructor <;> simp [markAt, hrest]

theorem stops_of_ampersand
    {rest : List Token} (hrest : markAt rest 0 "&" = true) :
    Stops 3 rest := by
  simp only [markAt, beq_iff_eq] at hrest
  constructor <;> simp [markAt, hrest]

theorem stops_of_bracket
    {rest : List Token} (hrest : markAt rest 0 "[" = true) :
    Stops 5 rest := by
  simp only [markAt, beq_iff_eq] at hrest
  constructor <;> simp [markAt, hrest]

theorem stops_of_extends
    {rest : List Token} (hrest : wordAt rest 0 "extends" = true) :
    Stops 1 rest := by
  simp only [wordAt, beq_iff_eq] at hrest
  constructor <;> simp [markAt, hrest]

/-- A type whose last part is no full type ends in front of a mark that stops its level. -/
theorem Stops.stopsAt_of_mark
    {level : Nat} {rest : List Token} (h : Stops level rest) {mark : String}
    (hmark : markAt rest 0 mark = true) {type : TypeExpr} (hclosed : type.endsOpen = false) :
    type.StopsAt level rest where
  stops := by
    rw [TypeExpr.reach, hclosed]
    exact h
  apart := by
    simp [nameAt?_of_identAt_eq_false (seesOneOf_singleton hmark).identAt_eq_false]

theorem lastEndsOpen_eq
    {members : List TypeExpr} (hmembers : members ≠ []) :
    TypeExpr.lastEndsOpen members = (members.getLast hmembers).endsOpen := by
  induction members with
  | nil => contradiction
  | cons first rest ih =>
    cases rest with
    | nil => rfl
    | cons second rest => exact ih (by simp)

theorem lastAbsorbs_eq
    {members : List TypeExpr} (hmembers : members ≠ []) (word : String) :
    TypeExpr.lastAbsorbs word members = (members.getLast hmembers).absorbs word := by
  induction members with
  | nil => contradiction
  | cons first rest ih =>
    cases rest with
    | nil => rfl
    | cons second rest => exact ih (by simp)

mutual

/-- Only a result turns into a type predicate, so a type whose last part is no full type has no use
for other words than `new`. -/
theorem TypeExpr.absorbs_eq_false
    {word : String} (hword : word ≠ "new") :
    (type : TypeExpr) → type.endsOpen = false → type.absorbs word = false
  | .reference name [], _ => by simp [TypeExpr.absorbs, hword]
  | .operator _ operand, hclosed => operand.absorbs_eq_false hword hclosed
  | .union members, hclosed | .intersection members, hclosed =>
    TypeExpr.lastAbsorbs_eq_false hword members hclosed
  | .function .., hclosed | .conditional .., hclosed => by simp [TypeExpr.endsOpen] at hclosed
  | .reference _ (_ :: _), _ | .keyword _, _ | .array _, _ | .indexed .., _ | .literal _, _
  | .template _, _ | .object _, _ | .mapped .., _ | .tuple _, _ | .parenthesized _, _
  | .query _, _ => rfl

theorem TypeExpr.lastAbsorbs_eq_false
    {word : String} (hword : word ≠ "new") :
    (members : List TypeExpr) → TypeExpr.lastEndsOpen members = false →
      TypeExpr.lastAbsorbs word members = false
  | [], _ => rfl
  | [last], hclosed => last.absorbs_eq_false hword hclosed
  | _ :: second :: rest, hclosed =>
    TypeExpr.lastAbsorbs_eq_false hword (second :: rest) hclosed

end

/-! ## How a type opens -/

/-- A lexeme that a type may start with. -/
def startsType : Lexeme → Bool
  | .ident _ | .string _ | .number _ | .template _ => true
  | .punct mark => mark == "(" || mark == "[" || mark == "\x7b" || mark == "-"
  | .regex _ => false

theorem ne_punct_of_startsType
    {lexeme : Lexeme} {mark : String} (h : startsType lexeme = true)
    (hmark : startsType (.punct mark) = false) :
    lexeme ≠ .punct mark := by
  rintro rfl
  exact absurd h (by simp [hmark])

theorem operandAt_eq
    (tokens : List Token) (offset : Nat) :
    operandAt tokens offset = (lexemeAt? tokens offset).any startsType := by
  unfold operandAt
  cases lexemeAt? tokens offset with
  | none => rfl
  | some lexeme => cases lexeme <;> rfl

/-- The lexemes start like a type, and not with the name of a tuple's element. -/
structure Opens (lexemes : List Lexeme) : Prop where
  first : ∃ first more, lexemes = first :: more ∧ startsType first = true
  second : ∀ name second more, lexemes = .ident name :: second :: more →
    second ≠ .punct ":" ∧ second ≠ .punct "?"

theorem opens_singleton
    {lexeme : Lexeme} (h : startsType lexeme = true) :
    Opens [lexeme] :=
  ⟨⟨lexeme, [], rfl, h⟩, by simp⟩

theorem opens_of_mark
    {mark : String} {more : List Lexeme} (h : startsType (.punct mark) = true) :
    Opens (.punct mark :: more) :=
  ⟨⟨.punct mark, more, rfl, h⟩, by simp⟩

theorem opens_of_ident
    {name : String} {second : Lexeme} {more : List Lexeme}
    (hcolon : second ≠ .punct ":") (hoptional : second ≠ .punct "?") :
    Opens (.ident name :: second :: more) := by
  refine ⟨⟨.ident name, second :: more, rfl, rfl⟩, ?_⟩
  rintro _ _ _ heq
  simp only [List.cons.injEq] at heq
  exact heq.2.1 ▸ ⟨hcolon, hoptional⟩

theorem Opens.append
    {front : List Lexeme} {next : Lexeme} {back : List Lexeme} (hfront : Opens front)
    (hcolon : next ≠ .punct ":") (hoptional : next ≠ .punct "?") :
    Opens (front ++ next :: back) := by
  obtain ⟨⟨first, more, rfl, hfirst⟩, hsecond⟩ := hfront
  refine ⟨⟨first, more ++ next :: back, rfl, hfirst⟩, ?_⟩
  rintro name second behind heq
  cases more with
  | nil =>
    simp only [List.cons_append, List.nil_append, List.cons.injEq] at heq
    exact heq.2.1 ▸ ⟨hcolon, hoptional⟩
  | cons other more =>
    simp only [List.cons_append, List.cons.injEq] at heq
    exact hsecond name second more (by rw [heq.1, heq.2.1])

theorem nameLexemes_eq
    (name : String) :
    ∃ head more, nameParts name = head :: more ∧
      nameLexemes name = .ident head :: more.flatMap fun part => [.punct ".", .ident part] := by
  have hparts : ∀ (head : String) (more : List String),
      separated "." ((head :: more).map fun part => [Lexeme.ident part]) =
        .ident head :: more.flatMap fun part => [.punct ".", .ident part] := by
    intro head more
    induction more generalizing head with
    | nil => simp
    | cons second more ih =>
      have hmore := ih second
      rw [List.map_cons] at hmore
      rw [List.map_cons, List.map_cons, separated_cons_cons, hmore]
      rfl
  have hne : nameParts name ≠ [] := by simp [nameParts]
  obtain ⟨head, more, hname⟩ := List.exists_cons_of_ne_nil hne
  exact ⟨head, more, hname, by rw [nameLexemes, hname, hparts]⟩

theorem TypeExpr.lexemesOfAll_eq_map
    (types : List TypeExpr) :
    TypeExpr.lexemesOfAll types = types.map TypeExpr.lexemes := by
  induction types with
  | nil => rfl
  | cons type rest ih => rw [TypeExpr.lexemesOfAll, ih, List.map_cons]

theorem Parameter.lexemesOfAll_eq_map
    (parameters : List Parameter) :
    Parameter.lexemesOfAll parameters = parameters.map Parameter.lexemes := by
  induction parameters with
  | nil => rfl
  | cons parameter rest ih => rw [Parameter.lexemesOfAll, ih, List.map_cons]

/-- Two or more types with a mark between them open like the first one. -/
theorem Opens.separated
    {mark : String} (hmark : mark ≠ ":" ∧ mark ≠ "?") {first second : TypeExpr}
    {rest : List TypeExpr} (hfirst : Opens first.lexemes) :
    Opens (separated mark (TypeExpr.lexemesOfAll (first :: second :: rest))) := by
  rw [TypeExpr.lexemesOfAll, TypeExpr.lexemesOfAll, separated_cons_cons]
  exact hfirst.append (by simpa using hmark.1) (by simpa using hmark.2)

/-- Every type opens like a type. The induction goes down the left edge of the tree. -/
theorem TypeExpr.WellFormed.opens :
    {type : TypeExpr} → type.WellFormed → Opens type.lexemes
  | .keyword name, _ => opens_singleton rfl
  | .reference name arguments, _ => by
    obtain ⟨head, more, -, hname⟩ := nameLexemes_eq name
    rw [TypeExpr.lexemes, hname]
    cases more with
    | cons second more => exact opens_of_ident (by simp) (by simp)
    | nil =>
      unfold angled
      split
      · exact opens_singleton rfl
      · exact opens_of_ident (by simp) (by simp)
  | .array element, .array _ helement => helement.opens.append (by simp) (by simp)
  | .union (first :: second :: rest), .union _ _ _ hmembers =>
    (hmembers first List.mem_cons_self).opens.separated (by decide)
  | .intersection (first :: second :: rest), .intersection _ _ _ hmembers =>
    (hmembers first List.mem_cons_self).opens.separated (by decide)
  | .literal (some (.integer (.ofNat n))), _ => opens_singleton rfl
  | .literal (some (.integer (.negSucc n))), _ => opens_of_mark rfl
  | .literal (some (.text _)), _ => opens_singleton rfl
  | .literal (some (.truth _)), _ => opens_singleton rfl
  | .template _, _ => opens_singleton rfl
  | .object members, _ => opens_of_mark rfl
  | .mapped _ (some _) _, _ => opens_of_mark rfl
  | .tuple elements, _ => opens_of_mark rfl
  | .function _ (some _) true, _ => opens_of_ident (by simp) (by simp)
  | .function _ (some _) false, _ => opens_of_mark rfl
  | .parenthesized inner, _ => opens_of_mark rfl
  | .operator name operand, .operator _ _ hoperand => by
    obtain ⟨first, more, hfirst, hstarts⟩ := hoperand.opens.first
    rw [TypeExpr.lexemes, hfirst]
    exact opens_of_ident (ne_punct_of_startsType hstarts rfl) (ne_punct_of_startsType hstarts rfl)
  | .indexed base _, .indexed _ hbase _ => by
    rw [TypeExpr.lexemes, List.append_assoc]
    exact hbase.opens.append (by simp) (by simp)
  | .conditional check _ _ _, .conditional _ _ _ hcheck _ _ _ => by
    simp only [TypeExpr.lexemes, List.append_assoc]
    exact hcheck.opens.append (by simp) (by simp)

theorem TypeExpr.WellFormed.lexemes_ne_nil
    {type : TypeExpr} (h : type.WellFormed) :
    type.lexemes ≠ [] := by
  obtain ⟨first, more, hlexemes, -⟩ := h.opens.first
  simp [hlexemes]

/-- No mark stands in front of a type unless a type may start with it. -/
theorem TypeExpr.WellFormed.markAt_eq_false
    {type : TypeExpr} (h : type.WellFormed) {mark : String}
    (hmark : startsType (.punct mark) = false) {tokens : List Token}
    (htokens : Spells tokens type.lexemes) (rest : List Token) :
    markAt (tokens ++ rest) 0 mark = false := by
  obtain ⟨first, more, hlexemes, hstarts⟩ := h.opens.first
  have hne := ne_punct_of_startsType hstarts hmark
  simp [markAt, (hlexemes ▸ htokens).lexemeAt?_zero, hne]

/-! ## Balanced brackets -/

/-- Looking for the arrow behind open brackets passes over the lexemes. -/
def Balanced (lexemes : List Lexeme) : Prop :=
  ∀ ⦃depth : Nat⦄ ⦃tokens : List Token⦄ (rest : List Token), 0 < depth →
    tokens.map Token.lexeme = lexemes →
    arrowBehindBrackets depth (tokens ++ rest) = arrowBehindBrackets depth rest

theorem balanced_nil :
    Balanced [] := by
  intro depth tokens rest _ htokens
  rw [List.map_eq_nil_iff.mp htokens, List.nil_append]

theorem Balanced.append
    {front back : List Lexeme} (hfront : Balanced front) (hback : Balanced back) :
    Balanced (front ++ back) := by
  intro depth tokens rest hdepth htokens
  obtain ⟨first, second, rfl, hfirst, hsecond⟩ := List.map_eq_append_iff.mp htokens
  rw [List.append_assoc, hfront _ hdepth hfirst, hback _ hdepth hsecond]

theorem balanced_singleton
    {lexeme : Lexeme} (hopens : opens lexeme = false) (hcloses : closes lexeme = false) :
    Balanced [lexeme] := by
  intro depth tokens rest _ htokens
  obtain ⟨token, _, rfl, rfl, hmore⟩ := List.map_eq_cons_iff.mp htokens
  obtain rfl := List.map_eq_nil_iff.mp hmore
  simp [arrowBehindBrackets, hopens, hcloses]

theorem Balanced.cons
    {lexeme : Lexeme} {lexemes : List Lexeme} (h : Balanced lexemes)
    (hopens : opens lexeme = false := by rfl) (hcloses : closes lexeme = false := by rfl) :
    Balanced (lexeme :: lexemes) :=
  (balanced_singleton hopens hcloses).append h

theorem Balanced.bracketed
    {opener closer : String} {lexemes : List Lexeme} (h : Balanced lexemes)
    (hopener : opens (.punct opener) = true := by rfl)
    (hcloser : opens (.punct closer) = false ∧ closes (.punct closer) = true := by decide) :
    Balanced (.punct opener :: lexemes ++ [.punct closer]) := by
  intro depth tokens rest hdepth htokens
  obtain ⟨first, behind, rfl, hfirst, hbehind⟩ := List.map_eq_cons_iff.mp htokens
  obtain ⟨inner, last, rfl, hinner, hlast⟩ := List.map_eq_append_iff.mp hbehind
  obtain ⟨last, _, rfl, hclose, hnil⟩ := List.map_eq_cons_iff.mp hlast
  obtain rfl := List.map_eq_nil_iff.mp hnil
  have hle : ¬ depth + 1 ≤ 1 := by omega
  rw [List.cons_append, List.append_assoc, arrowBehindBrackets, hfirst, if_pos hopener,
    h _ (by omega : 0 < depth + 1) hinner, List.singleton_append, arrowBehindBrackets, hclose,
    if_neg (by simp [hcloser.1]), if_pos hcloser.2, if_neg hle, Nat.add_sub_cancel]

theorem balanced_separated
    {mark : String} (hopens : opens (.punct mark) = false) (hcloses : closes (.punct mark) = false)
    {parts : List (List Lexeme)} (hparts : ∀ part ∈ parts, Balanced part) :
    Balanced (separated mark parts) := by
  induction parts with
  | nil => exact balanced_nil
  | cons first rest ih =>
    have hfirst := hparts first List.mem_cons_self
    have hrest := ih fun part hpart => hparts part (List.mem_cons_of_mem _ hpart)
    cases rest with
    | nil => rwa [separated_singleton]
    | cons second rest =>
      rw [separated_cons_cons]
      exact hfirst.append (hrest.cons hopens hcloses)

theorem balanced_lexemeIf
    {flag : Bool} {lexeme : Lexeme} (hopens : opens lexeme = false := by rfl)
    (hcloses : closes lexeme = false := by rfl) :
    Balanced (lexemeIf flag lexeme) := by
  cases flag with
  | false => exact balanced_nil
  | true => exact balanced_singleton hopens hcloses

theorem balanced_colon :
    Balanced [.punct ":"] :=
  balanced_singleton rfl rfl

theorem balanced_nameLexemes
    (name : String) :
    Balanced (nameLexemes name) := by
  refine balanced_separated rfl rfl fun part hpart => ?_
  obtain ⟨word, -, rfl⟩ := List.mem_map.mp hpart
  exact balanced_singleton rfl rfl

theorem balanced_angled
    {parts : List (List Lexeme)} (hparts : ∀ part ∈ parts, Balanced part) :
    Balanced (angled parts) := by
  unfold angled
  split
  · exact balanced_nil
  · exact ((balanced_separated rfl rfl hparts).cons).append (balanced_singleton rfl rfl)

theorem balanced_parenthesizedList
    {parts : List (List Lexeme)} (hparts : ∀ part ∈ parts, Balanced part) :
    Balanced (parenthesizedList parts) :=
  (balanced_separated rfl rfl hparts).bracketed

theorem balanced_keyLexeme
    (name : Text) (kind : NameKind) :
    Balanced [keyLexeme name kind] := by
  cases kind <;> exact balanced_singleton rfl rfl

mutual

/-- The brackets in the spelling of any tree are balanced. -/
theorem TypeExpr.balanced :
    (type : TypeExpr) → Balanced type.lexemes
  | .keyword name => balanced_singleton rfl rfl
  | .reference name arguments =>
    (balanced_nameLexemes name).append (balanced_angled (TypeExpr.balancedAll arguments))
  | .array element => element.balanced.append balanced_nil.bracketed
  | .union members => balanced_separated rfl rfl (TypeExpr.balancedAll members)
  | .intersection members => balanced_separated rfl rfl (TypeExpr.balancedAll members)
  | .literal none => balanced_nil
  | .literal (some (.text _)) => balanced_singleton rfl rfl
  | .literal (some (.truth _)) => balanced_singleton rfl rfl
  | .literal (some (.integer (.ofNat _))) => balanced_singleton rfl rfl
  | .literal (some (.integer (.negSucc _))) => (balanced_singleton rfl rfl).cons
  | .literal (some (.real _)) => balanced_nil
  | .template _ => balanced_singleton rfl rfl
  | .object members => (Member.balancedAll members).bracketed
  | .mapped parameter keys value => by
    have hkeys := TypeExpr.balanced? keys balanced_nil
    have hvalue := TypeExpr.balanced? value balanced_colon
    have hhead : Balanced (.punct "[" :: (.ident parameter :: .ident "in" ::
        TypeExpr.lexemesOf? [] keys) ++ [.punct "]"]) := hkeys.cons.cons.bracketed
    simpa [TypeExpr.lexemes] using (hhead.append hvalue).bracketed
  | .tuple elements =>
    (balanced_separated rfl rfl (TypeExpr.balancedAll elements)).bracketed
  | .function parameters result isConstructor =>
    (Balanced.append balanced_lexemeIf
      (balanced_parenthesizedList (Parameter.balancedAll parameters))).append
      (TypeExpr.balanced? result balanced_nil).cons
  | .parenthesized inner => inner.balanced.bracketed
  | .operator name operand => operand.balanced.cons
  | .query _ => balanced_nil
  | .indexed base index => by
    rw [TypeExpr.lexemes, List.append_assoc]
    exact base.balanced.append index.balanced.bracketed
  | .conditional check bound whenTrue whenFalse => by
    simp only [TypeExpr.lexemes, List.append_assoc, List.cons_append]
    exact check.balanced.append
      (bound.balanced.append (whenTrue.balanced.append whenFalse.balanced.cons).cons).cons

theorem TypeExpr.balancedAll :
    (types : List TypeExpr) → ∀ part ∈ TypeExpr.lexemesOfAll types, Balanced part
  | [], _, hpart => absurd hpart List.not_mem_nil
  | type :: rest, part, hpart => by
    rcases List.mem_cons.mp hpart with rfl | hrest
    · exact type.balanced
    · exact TypeExpr.balancedAll rest part hrest

theorem TypeExpr.balanced? :
    (type : Option TypeExpr) → {front : List Lexeme} → Balanced front →
      Balanced (TypeExpr.lexemesOf? front type)
  | none, _, _ => balanced_nil
  | some type, _, hfront => hfront.append type.balanced

theorem Parameter.balanced :
    (parameter : Parameter) → Balanced parameter.lexemes
  | .mk name type isOptional isRest => by
    have htype := TypeExpr.balanced? type balanced_colon
    rw [Parameter.lexemes, List.append_assoc]
    exact Balanced.append balanced_lexemeIf (Balanced.append balanced_lexemeIf htype).cons

theorem Parameter.balancedAll :
    (parameters : List Parameter) → ∀ part ∈ Parameter.lexemesOfAll parameters, Balanced part
  | [], _, hpart => absurd hpart List.not_mem_nil
  | parameter :: rest, part, hpart => by
    rcases List.mem_cons.mp hpart with rfl | hrest
    · exact parameter.balanced
    · exact Parameter.balancedAll rest part hrest

theorem Member.balanced :
    (member : Member) → Balanced member.lexemes
  | .property name nameKind type isOptional isReadonly _ => by
    have htype := TypeExpr.balanced? type balanced_colon
    have hname := balanced_keyLexeme name nameKind
    rw [Member.lexemes, List.append_assoc]
    exact Balanced.append balanced_lexemeIf (hname.append (Balanced.append balanced_lexemeIf htype))
  | .method name nameKind parameters result isOptional _ => by
    have hresult := TypeExpr.balanced? result balanced_colon
    have hname := balanced_keyLexeme name nameKind
    have hparameters := balanced_parenthesizedList (Parameter.balancedAll parameters)
    exact ((hname.append balanced_lexemeIf).append hparameters).append hresult
  | .index (.mk name key _ _) value isReadonly => by
    have hkey := TypeExpr.balanced? key balanced_colon
    have hvalue := TypeExpr.balanced? value balanced_colon
    have hhead : Balanced (.punct "[" :: (.ident name :: TypeExpr.lexemesOf? [.punct ":"] key) ++
        [.punct "]"]) := hkey.cons.bracketed
    simpa [Member.lexemes] using (Balanced.append balanced_lexemeIf hhead).append hvalue
  | .call parameters result isConstructor => by
    have hresult := TypeExpr.balanced? result balanced_colon
    have hparameters := balanced_parenthesizedList (Parameter.balancedAll parameters)
    exact (Balanced.append balanced_lexemeIf hparameters).append hresult

theorem Member.balancedAll :
    (members : List Member) → Balanced (Member.lexemesOfAll members)
  | [] => balanced_nil
  | member :: rest => member.balanced.append (Member.balancedAll rest).cons

end

/-! ## The lookaheads of the grammar -/

/-- Whether an arrow stands behind a parenthesis is decided right behind its own closer. -/
theorem arrowBehindBrackets_parenthesis
    {tokens : List Token} {lexemes : List Lexeme} (htokens : Spells tokens lexemes)
    (hbalanced : Balanced lexemes) (first last : Lead) (rest : List Token) :
    arrowBehindBrackets 0 (⟨.punct "(", first⟩ :: (tokens ++ ⟨.punct ")", last⟩ :: rest)) =
      markAt rest 0 "=>" := by
  have hopens : opens (.punct "(") = true := rfl
  have hcloser : opens (.punct ")") = false := rfl
  have hcloses : closes (.punct ")") = true := rfl
  simp only [arrowBehindBrackets, hopens, if_true]
  rw [hbalanced _ Nat.one_pos htokens.1]
  simp [arrowBehindBrackets, hcloser, hcloses]

theorem functionTypeAhead_parenthesized
    {tokens rest : List Token} {inner : TypeExpr} {first last : Lead}
    (htokens : Spells tokens inner.lexemes) (hinner : inner.WellFormed)
    (hrest : markAt rest 0 "=>" = false) :
    functionTypeAhead (⟨.punct "(", first⟩ :: (tokens ++ ⟨.punct ")", last⟩ :: rest)) = false := by
  have harrow := arrowBehindBrackets_parenthesis htokens inner.balanced first last rest
  have hcloser : markAt (⟨.punct "(", first⟩ :: (tokens ++ ⟨.punct ")", last⟩ :: rest)) 1 ")" =
      false := hinner.markAt_eq_false rfl htokens _
  have hdots : markAt (⟨.punct "(", first⟩ :: (tokens ++ ⟨.punct ")", last⟩ :: rest)) 1 "..." =
      false := hinner.markAt_eq_false rfl htokens _
  rw [functionTypeAhead, harrow, hrest, hcloser, hdots]
  rfl

theorem functionTypeAhead_function
    {tokens rest : List Token} {parameters : List Parameter} {first last : Lead}
    (htokens : Spells tokens (separated "," (Parameter.lexemesOfAll parameters)))
    (hrest : markAt rest 0 "=>" = true) :
    functionTypeAhead (⟨.punct "(", first⟩ :: (tokens ++ ⟨.punct ")", last⟩ :: rest)) = true := by
  have hbalanced : Balanced (separated "," (Parameter.lexemesOfAll parameters)) :=
    balanced_separated rfl rfl (Parameter.balancedAll parameters)
  rw [functionTypeAhead, arrowBehindBrackets_parenthesis htokens hbalanced, hrest, Bool.or_true]

theorem lexemeAt?_eq_getElem?
    (tokens : List Token) (offset : Nat) :
    lexemeAt? tokens offset = (tokens.map Token.lexeme)[offset]? :=
  List.getElem?_map.symm

/-- The lexemes do not start like the key of a mapped type: no square bracket stands in front or
behind `readonly`, or a colon follows the name behind the bracket. -/
inductive NoMappedKey : List Lexeme → Prop
  | plain {first : Lexeme} {more : List Lexeme}
      (hfirst : first ∉ [.punct "[", .punct "+", .punct "-"])
      (hmore : first = .ident "readonly" → more.head? ≠ some (.punct "[")) :
    NoMappedKey (first :: more)
  | index {name : String} {more : List Lexeme} :
    NoMappedKey (.punct "[" :: .ident name :: .punct ":" :: more)
  | readonlyIndex {name : String} {more : List Lexeme} :
    NoMappedKey (.ident "readonly" :: .punct "[" :: .ident name :: .punct ":" :: more)

theorem NoMappedKey.mappedTypeAhead_eq_false
    {lexemes : List Lexeme} (h : NoMappedKey lexemes) {tokens : List Token}
    (htokens : tokens.map Token.lexeme = lexemes) (brace : Token) :
    mappedTypeAhead (brace :: tokens) = false := by
  simp only [mappedTypeAhead, markAt, wordAt, identAt, nameAt?, lexemeAt?_eq_getElem?,
    List.map_cons, htokens]
  cases h with
  | @plain first more hfirst hmore =>
    by_cases hreadonly : first = .ident "readonly"
    · have hbracket : more[0]? ≠ some (.punct "[") := by
        rw [← List.head?_eq_getElem?]
        exact hmore hreadonly
      simp [hreadonly, hbracket]
    · simp only [List.mem_cons, List.not_mem_nil, or_false, not_or] at hfirst
      simp [hreadonly, hfirst]
  | index => simp
  | readonlyIndex => simp

@[simp]
theorem keyLexeme_ne_punct
    (name : Text) (kind : NameKind) (mark : String) :
    keyLexeme name kind ≠ .punct mark := by
  cases kind <;> simp [keyLexeme]

/-- What looks most like the key of a mapped type is an index signature, and that has a colon in the
place of `in`. -/
theorem Member.WellFormed.noMappedKey
    {member : Member} (h : member.WellFormed) (more : List Lexeme) :
    NoMappedKey (member.lexemes ++ .punct ";" :: more) := by
  cases h with
  | @property name kind type isOptional isReadonly =>
    cases isReadonly with
    | true => exact .plain (by simp) (by simp)
    | false =>
      refine .plain (by simp) fun _ => ?_
      cases isOptional with
      | true => simp [lexemeIf]
      | false => cases type <;> simp [lexemeIf, TypeExpr.lexemesOf?]
  | @method name kind parameters result isOptional =>
    refine .plain (by simp) fun _ => ?_
    cases isOptional <;> simp [lexemeIf, parenthesizedList]
  | @index _ _ _ isReadonly =>
    cases isReadonly with
    | true => exact .readonlyIndex
    | false => exact .index
  | @call _ _ isConstructor =>
    cases isConstructor with
    | true => exact .plain (by simp) (by simp)
    | false => exact .plain (by simp) (by simp)

/-- The members of an object type never look like the key of a mapped type. -/
theorem mappedTypeAhead_object
    {tokens rest : List Token} {members : List Member} {first last : Lead}
    (htokens : Spells tokens (Member.lexemesOfAll members))
    (hmembers : ∀ member ∈ members, member.WellFormed) :
    mappedTypeAhead (⟨.punct "\x7b", first⟩ :: (tokens ++ ⟨.punct "\x7d", last⟩ :: rest)) =
      false := by
  cases members with
  | nil =>
    obtain rfl := spells_nil_iff.mp htokens
    have hbrace : NoMappedKey (.punct "\x7d" :: rest.map Token.lexeme) := .plain (by simp) (by simp)
    exact hbrace.mappedTypeAhead_eq_false rfl _
  | cons member members =>
    have hkey := (hmembers member List.mem_cons_self).noMappedKey
      (Member.lexemesOfAll members ++ .punct "\x7d" :: rest.map Token.lexeme)
    refine hkey.mappedTypeAhead_eq_false ?_ _
    rw [List.map_append, htokens.1, Member.lexemesOfAll, List.append_assoc]
    rfl

end EntityDiagram.Declaration
