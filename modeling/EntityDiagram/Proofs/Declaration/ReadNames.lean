import EntityDiagram.Proofs.Declaration.Positions
import EntityDiagram.Proofs.Source.Names

/-!
# Names in what is read

The names that a type is resolved to, the names of declarations and those in the types of properties
come from the names among the tokens, joined by dots. A built-in type is never read as a reference
unless a dot behind it is left over, and nothing that closes a type starts with a dot. So the lone name
of a built-in type is a reference nowhere in a type that is read to its end.
-/

namespace EntityDiagram.Declaration

open Source (Fault HasNames IsName Lead Lexeme SourceError Token TokenStream)

/-! ## Dotted names -/

/-- The parts of the name between its dots are names. -/
def IsDottedName (name : String) : Prop :=
  ∀ part ∈ nameParts name, IsName part.toList

theorem nameParts_intercalate
    {parts : List String} (hne : parts ≠ []) (hparts : ∀ part ∈ parts, IsName part.toList) :
    nameParts (".".intercalate parts) = parts := by
  have hdots : ∀ cs ∈ parts.map String.toList, '.' ∉ cs := by
    intro cs hcs
    obtain ⟨part, hpart, rfl⟩ := List.mem_map.mp hcs
    exact (hparts part hpart).notMem (by decide +kernel)
  have hsplit : (".".intercalate parts).toList.splitOn '.' = parts.map String.toList := by
    rw [String.toList_intercalate]
    exact List.splitOn_intercalate '.' hdots (by simpa using hne)
  rw [nameParts, hsplit, List.map_map]
  exact (List.map_congr_left fun _ _ => String.ofList_toList).trans (List.map_id parts)

theorem eq_dot_or_mem_of_mem_intercalate
    {pieces : List (List Char)} {c : Char} (h : c ∈ ['.'].intercalate pieces) :
    c = '.' ∨ ∃ piece ∈ pieces, c ∈ piece := by
  induction pieces with
  | nil => simp at h
  | cons first rest ih =>
    cases rest with
    | nil => exact .inr ⟨first, List.mem_cons_self, by simpa using h⟩
    | cons second rest =>
      rw [List.intercalate_cons_cons, List.append_assoc, List.mem_append, List.mem_append] at h
      obtain hfirst | hdot | hrest := h
      · exact .inr ⟨first, List.mem_cons_self, hfirst⟩
      · exact .inl (List.mem_singleton.mp hdot)
      · obtain hdot | ⟨piece, hpiece, hmem⟩ := ih hrest
        · exact .inl hdot
        · exact .inr ⟨piece, List.mem_cons_of_mem first hpiece, hmem⟩

/-- A dotted name consists of dots and of characters that may continue a name. -/
theorem IsDottedName.eq_dot_or_isNamePart
    {name : String} (h : IsDottedName name) {c : Char} (hc : c ∈ name.toList) :
    c = '.' ∨ Source.isNamePart c = true := by
  rw [← Parse.intercalate_nameParts name, String.toList_intercalate] at hc
  obtain hdot | ⟨piece, hpiece, hmem⟩ := eq_dot_or_mem_of_mem_intercalate hc
  · exact .inl hdot
  · obtain ⟨part, hpart, rfl⟩ := List.mem_map.mp hpiece
    exact .inr ((h part hpart).isNamePart c hmem)

/-- No character but the dot occurs in a dotted name that cannot be part of a name. -/
theorem IsDottedName.notMem
    {name : String} (h : IsDottedName name) {c : Char} (hdot : c ≠ '.')
    (hc : Source.isNamePart c = false) :
    c ∉ name.toList := by
  intro hmem
  obtain heq | hpart := h.eq_dot_or_isNamePart hmem
  · exact hdot heq
  · rw [hc] at hpart
    cases hpart

/-! ## What is known of a type -/

/-- The name is one of those that the type is resolved to. -/
inductive TypeExpr.Mentions : TypeExpr → String → Prop
  | reference {name : String} {arguments : List TypeExpr} :
    TypeExpr.Mentions (.reference name arguments) name
  | argument {name mentioned : String} {arguments : List TypeExpr} {argument : TypeExpr}
      (hargument : argument ∈ arguments) (h : argument.Mentions mentioned) :
    TypeExpr.Mentions (.reference name arguments) mentioned
  | array {element : TypeExpr} {mentioned : String} (h : element.Mentions mentioned) :
    TypeExpr.Mentions (.array element) mentioned
  | member {members : List TypeExpr} {type : TypeExpr} {mentioned : String}
      (hmember : type ∈ members) (h : type.Mentions mentioned) :
    TypeExpr.Mentions (.union members) mentioned

/-- The type is resolved to dotted names. -/
def TypeExpr.HasDottedNames (type : TypeExpr) : Prop :=
  ∀ name, type.Mentions name → IsDottedName name

/-- If the member is a property with an annotation, the annotation has the property. -/
def Member.Annotates (P : TypeExpr → Prop) : Member → Prop
  | .property _ _ type _ _ _ => ∀ annotated ∈ type, P annotated
  | _ => True

/-- The type has the property, and so have the annotations in an object type. -/
structure TypeExpr.Annotates (P : TypeExpr → Prop) (type : TypeExpr) : Prop where
  self : P type
  members : ∀ members, type = .object members → ∀ member ∈ members, member.Annotates P

/-- The declaration has a name, and the annotations of its properties have the property. -/
def Statement.Annotates (P : TypeExpr → Prop) : Statement → Prop
  | .interface declaration => IsName declaration.name.toList ∧
      ∀ member ∈ declaration.members, member.Annotates P
  | .alias declaration => IsName declaration.name.toList ∧
      ∀ members, declaration.type = .object members → ∀ member ∈ members, member.Annotates P
  | .other _ => True

/-- If the member is a property, its type is resolved to dotted names. -/
def Member.HasDottedNames : Member → Prop
  | .property _ _ type _ _ _ => ∀ annotated ∈ type, annotated.HasDottedNames
  | _ => True

/-- The declaration has a name, and the types of its properties are resolved to dotted names. -/
def Statement.HasDottedNames : Statement → Prop
  | .interface declaration => IsName declaration.name.toList ∧
      ∀ member ∈ declaration.members, member.HasDottedNames
  | .alias declaration => IsName declaration.name.toList ∧
      ∀ members, declaration.type = .object members → ∀ member ∈ members, member.HasDottedNames
  | .other _ => True

theorem Member.hasDottedNames_iff
    {member : Member} :
    member.HasDottedNames ↔ member.Annotates TypeExpr.HasDottedNames := by
  cases member <;> rfl

theorem Statement.hasDottedNames_iff
    {statement : Statement} :
    statement.HasDottedNames ↔ statement.Annotates TypeExpr.HasDottedNames := by
  cases statement <;>
    simp only [Statement.HasDottedNames, Statement.Annotates, Member.hasDottedNames_iff]

/-- A type in front of the tokens behind it. Only a dot can follow the lone name of a built-in type
that is taken for a reference. -/
structure TypeExpr.NamedBefore (type : TypeExpr) (rest : List Token) : Prop where
  dotted : type.HasDottedNames
  unfinished : ∀ name, type.Mentions name → name ∈ keywordTypes → markAt rest 0 "." = true
  members : ∀ members, type = .object members → ∀ member ∈ members, member.HasDottedNames

namespace TypeExpr

theorem NamedBefore.of_not_dot
    {type : TypeExpr} {rest : List Token} (h : type.NamedBefore rest)
    (hdot : markAt rest 0 "." = false) (rest' : List Token) :
    type.NamedBefore rest' := by
  refine ⟨h.dotted, fun name hmentions hkeyword => ?_, h.members⟩
  rw [h.unfinished name hmentions hkeyword] at hdot
  cases hdot

theorem NamedBefore.annotates
    {type : TypeExpr} {rest : List Token} (h : type.NamedBefore rest) :
    type.Annotates HasDottedNames :=
  ⟨h.dotted, fun members hobject member hmember =>
    Member.hasDottedNames_iff.mp (h.members members hobject member hmember)⟩

/-- The type is resolved to no name, whatever its parts are. -/
def isSilent : TypeExpr → Bool
  | .reference .. | .array _ | .union _ | .object _ => false
  | _ => true

theorem namedBefore_of_isSilent
    {type : TypeExpr} (h : type.isSilent = true) (rest : List Token) :
    type.NamedBefore rest := by
  have hsilent : ∀ name, ¬type.Mentions name := by
    rintro name ⟨⟩ <;> cases h
  refine ⟨fun name hmentions => (hsilent name hmentions).elim,
    fun name hmentions => (hsilent name hmentions).elim, ?_⟩
  rintro members rfl
  cases h

theorem namedBefore_object
    {members : List Member} (h : ∀ member ∈ members, member.HasDottedNames) (rest : List Token) :
    (TypeExpr.object members).NamedBefore rest := by
  refine ⟨nofun, nofun, ?_⟩
  rintro _ ⟨⟩
  exact h

theorem namedBefore_array
    {element : TypeExpr} {rest : List Token} (h : element.NamedBefore rest) :
    (TypeExpr.array element).NamedBefore rest := by
  refine ⟨?_, ?_, nofun⟩
  · rintro name ⟨⟩
    rename_i hmentions
    exact h.dotted name hmentions
  · rintro name ⟨⟩
    rename_i hmentions
    exact h.unfinished name hmentions

theorem namedBefore_union
    {members : List TypeExpr} {rest : List Token} (h : ∀ member ∈ members, member.NamedBefore rest) :
    (TypeExpr.union members).NamedBefore rest := by
  refine ⟨?_, ?_, nofun⟩
  · rintro name ⟨⟩
    rename_i member hmember hmentions
    exact (h member hmember).dotted name hmentions
  · rintro name ⟨⟩
    rename_i member hmember hmentions
    exact (h member hmember).unfinished name hmentions

end TypeExpr

namespace Parse

variable {α β : Type}

/-! ## Conditions before and after reading -/

/-- Where the first condition holds of the tokens, the second one holds of the value that is read and
of the tokens behind it. -/
def Ensures
    (pre : List Token → Prop) (reader : Parse α) (post : α → List Token → Prop) : Prop :=
  ∀ ⦃tokens value rest⦄, pre tokens → reader tokens = .ok (value, rest) → post value rest

/-- Where the condition holds of tokens, it holds of those that are left of them. -/
class Hereditary (pre : List Token → Prop) : Prop where
  of_suffix {tokens rest : List Token} : pre tokens → rest <:+ tokens → pre rest

instance : Hereditary HasNames :=
  ⟨HasNames.of_suffix⟩

namespace Ensures

variable {pre : List Token → Prop} {post : α → List Token → Prop}

theorem pure
    {value : α} (h : ∀ rest, pre rest → post value rest) :
    Ensures pre (Pure.pure value) post := by
  rintro tokens _ _ hpre ⟨⟩
  exact h tokens hpre

theorem bind
    {reader : Parse β} {next : β → Parse α} {mid : β → List Token → Prop}
    (h : Ensures pre reader mid) (hnext : ∀ value, Ensures (mid value) (next value) post) :
    Ensures pre (reader >>= next) post := by
  intro tokens value rest hpre hread
  obtain ⟨⟨first, behind⟩, hfirst, hmore⟩ := bind_eq_ok hread
  exact hnext first (h hpre hfirst) hmore

section Hereditary

variable [Hereditary pre]

/-- The first condition holds of the tokens that are left as well. -/
theorem kept
    {reader : Parse α} (hinside : StaysInside reader) (h : Ensures pre reader post) :
    Ensures pre reader fun value rest => pre rest ∧ post value rest := by
  intro tokens value rest hpre hread
  have hleft := hinside tokens
  rw [hread] at hleft
  exact ⟨Hereditary.of_suffix hpre hleft, h hpre hread⟩

/-- Reading something of which only the value matters. -/
theorem andThen
    {reader : Parse β} {next : β → Parse α} {P : β → Prop} (hinside : StaysInside reader)
    (h : Ensures pre reader fun value _ => P value)
    (hnext : ∀ value, P value → Ensures pre (next value) post) :
    Ensures pre (reader >>= next) post :=
  bind (kept hinside h) fun value _ _ _ hmid => hnext value hmid.2 hmid.1

/-- Reading something of which nothing has to be known. -/
theorem after
    {reader : Parse β} {next : β → Parse α} (hinside : StaysInside reader)
    (hnext : ∀ value, Ensures pre (next value) post) :
    Ensures pre (reader >>= next) post :=
  andThen (P := fun _ => True) hinside (fun _ _ _ _ _ => trivial) fun value _ => hnext value

end Hereditary

theorem weaken
    {pre' : List Token → Prop} {reader : Parse α} (h : Ensures pre reader post)
    (hpre : ∀ tokens, pre' tokens → pre tokens) :
    Ensures pre' reader post :=
  fun _ _ _ hpre' hread => h (hpre _ hpre') hread

/-- Looking at the tokens that are left: from here on they are known. -/
theorem looking
    {next : List Token → Parse α}
    (h : ∀ tokens, pre tokens → Ensures (· = tokens) (next tokens) post) :
    Ensures pre (MonadState.get >>= next) post :=
  fun tokens _ _ hpre hread => h tokens hpre rfl hread

theorem ite
    {c : Prop} [Decidable c] {reader other : Parse α} (h : Ensures pre reader post)
    (hother : Ensures pre other post) :
    Ensures pre (if c then reader else other) post := by
  split
  · exact h
  · exact hother

theorem fail
    (fault : Option Lexeme → Fault) :
    Ensures pre (Parse.fail fault) post := by
  rintro tokens value rest _ ⟨⟩

end Ensures

/-! ## Names -/

theorem ident_ensures :
    Ensures HasNames ident fun name _ => IsName name.toList := by
  intro tokens name rest hnames hread
  unfold ident at hread
  split at hread
  · rename_i found hfound
    obtain ⟨rfl, -⟩ := Prod.mk.inj (Except.ok.inj hread)
    cases tokens with
    | nil => cases hfound
    | cons token rest =>
      have hlexeme := nameAt?_eq_some_iff.mp hfound
      exact hnames token List.mem_cons_self _ (Option.some.inj hlexeme)
  · cases hread

theorem dottedParts_names
    {tokens : List Token} (h : HasNames tokens) :
    ∀ part ∈ (dottedParts tokens).1, IsName part.toList := by
  fun_induction dottedParts tokens with
  | case1 dot part rest name hname hdot more remaining hmore ih =>
    rw [hmore] at ih
    have hpart : IsName name.toList := h part (by simp) name hname
    have hrest := ih (h.of_suffix ((List.suffix_cons part rest).trans (List.suffix_cons dot _)))
    exact List.forall_mem_cons.mpr ⟨hpart, hrest⟩
  | case2 => exact List.forall_mem_nil _
  | case3 => exact List.forall_mem_nil _

theorem dottedParts_of_nil
    {tokens : List Token} (h : (dottedParts tokens).1 = []) :
    (dottedParts tokens).2 = tokens := by
  fun_cases dottedParts tokens with
  | case1 dot part rest name hname hdot more remaining hmore => simp [dottedParts, hname, hdot] at h
  | case2 => rfl
  | case3 => rfl

/-- A dotted name starts with the first token; its other parts are read behind it. -/
theorem entityName_eq_ok
    {tokens rest : List Token} {path : String} (hnames : HasNames tokens)
    (h : entityName tokens = .ok (path, rest)) :
    IsDottedName path ∧ ∃ head lead behind, tokens = ⟨.ident head, lead⟩ :: behind ∧
      nameParts path = head :: (dottedParts behind).1 ∧ rest = (dottedParts behind).2 := by
  rw [entityName_eq] at h
  obtain ⟨⟨head, behind⟩, hhead, h⟩ := bind_eq_ok h
  obtain ⟨rfl, rfl⟩ := Prod.mk.inj (Except.ok.inj h)
  unfold ident at hhead
  split at hhead
  · rename_i found hfound
    obtain ⟨rfl, rfl⟩ := Prod.mk.inj (Except.ok.inj hhead)
    cases tokens with
    | nil => cases hfound
    | cons token behind =>
      obtain ⟨lexeme, lead⟩ := token
      obtain rfl : lexeme = .ident found := Option.some.inj (nameAt?_eq_some_iff.mp hfound)
      have hfirst : IsName found.toList := hnames _ List.mem_cons_self found rfl
      have hall : ∀ part ∈ found :: (dottedParts behind).1, IsName part.toList :=
        List.forall_mem_cons.mpr
          ⟨hfirst, dottedParts_names (hnames.of_suffix (List.suffix_cons _ behind))⟩
      have hparts : nameParts (".".intercalate (found :: (dottedParts behind).1)) =
          found :: (dottedParts behind).1 :=
        nameParts_intercalate (List.cons_ne_nil _ _) hall
      refine ⟨fun part hpart => hall part (hparts ▸ hpart), found, lead, behind, rfl, hparts, rfl⟩
  · cases hhead

/-! ## Lists -/

section Lists

variable {pre : List Token → Prop} [Hereditary pre] {item : Parse α}
  {post : α → List Token → Prop}

theorem commaListWithin_ensures
    (hinside : StaysInside item) (hitem : Ensures pre item post)
    (hfree : ∀ value rest, post value rest → markAt rest 0 "." = false →
      ∀ rest', post value rest')
    (closer : String) (steps : Nat) :
    Ensures pre (commaListWithin closer item steps) fun values rest =>
      ∀ value ∈ values, post value rest := by
  induction steps with
  | zero => exact .pure fun _ _ => List.forall_mem_nil _
  | succ steps ih =>
    refine .after (sees_inside closer) fun _ => .ite (.pure fun _ _ => List.forall_mem_nil _) ?_
    refine .bind (.kept hinside hitem) fun first => ?_
    intro tokens values rest hmid hread
    obtain ⟨hpre, hfirst⟩ := hmid
    by_cases hcomma : markAt tokens 0 "," = true
    · simp only [run_bind, run_eat_of_true hcomma, ok_bind, if_true] at hread
      obtain ⟨⟨more, behind⟩, hmore, hread⟩ := bind_eq_ok hread
      obtain ⟨rfl, rfl⟩ := Prod.mk.inj (Except.ok.inj hread)
      have hdot : markAt tokens 0 "." = false :=
        (seesOneOf_singleton hcomma).markAt_eq_false (by decide)
      have hrest := ih (Hereditary.of_suffix hpre (List.drop_suffix 1 tokens)) hmore
      exact List.forall_mem_cons.mpr ⟨hfree first tokens hfirst hdot _, hrest⟩
    · simp only [run_bind, run_eat_of_false (Bool.not_eq_true _ ▸ hcomma), ok_bind] at hread
      obtain ⟨rfl, rfl⟩ := Prod.mk.inj (Except.ok.inj hread)
      exact List.forall_mem_singleton.mpr hfirst

/-- The mark that closes a list is no dot. -/
theorem commaList_ensures
    (hinside : StaysInside item) (hitem : Ensures pre item post)
    (hfree : ∀ value rest, post value rest → markAt rest 0 "." = false →
      ∀ rest', post value rest')
    {closer : String} (hcloser : closer ≠ ".") :
    Ensures pre (commaList closer item) fun values _ =>
      ∀ value ∈ values, ∀ rest, post value rest := by
  refine .after .get fun tokens => .bind (commaListWithin_ensures hinside hitem hfree closer _) ?_
  intro values tokens found rest hvalues hread
  by_cases hclosed : markAt tokens 0 closer = true
  · have hdot : markAt tokens 0 "." = false :=
      (seesOneOf_singleton hclosed).markAt_eq_false (by simpa using hcloser.symm)
    simp only [run_bind, run_expect hclosed, ok_bind, run_pure] at hread
    obtain ⟨rfl, rfl⟩ := Prod.mk.inj (Except.ok.inj hread)
    exact fun value hvalue => hfree value tokens (hvalues value hvalue) hdot
  · simp [expect, hclosed, Except.bind] at hread

theorem chain_ensures
    (hinside : StaysInside item) (hitem : Ensures pre item post)
    (hfree : ∀ value rest, post value rest → markAt rest 0 "." = false →
      ∀ rest', post value rest')
    {mark : String} (hmark : mark ≠ ".") :
    Ensures pre (chain mark item) fun values rest => ∀ value ∈ values, post value rest := by
  refine .after .get fun tokens => ?_
  generalize tokens.length + 1 = steps
  induction steps with
  | zero => exact .pure fun _ _ => List.forall_mem_nil _
  | succ steps ih =>
    refine .bind (.kept hinside hitem) fun first => ?_
    intro tokens values rest hmid hread
    obtain ⟨hpre, hfirst⟩ := hmid
    by_cases hmore : markAt tokens 0 mark = true
    · simp only [run_bind, run_eat_of_true hmore, ok_bind, if_true] at hread
      obtain ⟨⟨more, behind⟩, hmoreRead, hread⟩ := bind_eq_ok hread
      obtain ⟨rfl, rfl⟩ := Prod.mk.inj (Except.ok.inj hread)
      have hdot : markAt tokens 0 "." = false :=
        (seesOneOf_singleton hmore).markAt_eq_false (by simpa using hmark.symm)
      have hrest := ih (Hereditary.of_suffix hpre (List.drop_suffix 1 tokens)) hmoreRead
      exact List.forall_mem_cons.mpr ⟨hfree first tokens hfirst hdot _, hrest⟩
    · simp only [run_bind, run_eat_of_false (Bool.not_eq_true _ ▸ hmore), ok_bind] at hread
      obtain ⟨rfl, rfl⟩ := Prod.mk.inj (Except.ok.inj hread)
      exact List.forall_mem_singleton.mpr hfirst

end Lists

/-! ## Members -/

section Members

variable {pre : List Token → Prop} [Hereditary pre] {type : TypeReader}
  (hinside : ∀ conditional, StaysInside (type conditional))

/-- The property holds of index and call signatures, and of what is read as a property or a method. -/
structure Admits (pre : List Token → Prop) (type : TypeReader) (M : Member → Prop) : Prop where
  index : ∀ parameter annotated isReadonly, M (.index parameter annotated isReadonly)
  call : ∀ parameters result isConstructor, M (.call parameters result isConstructor)
  named : ∀ isReadonly docs, Ensures pre (namedMember type isReadonly docs) fun found _ => M found

section Admitted

variable {M : Member → Prop} (hadmits : Admits pre type M)

include hinside hadmits

theorem member_ensures :
    Ensures pre (member type) fun found _ => M found := by
  rw [member_eq]
  refine .after .get fun _ => .after (skipIf_inside _) fun _ => .after .get fun _ =>
    .after (skipIf_inside _) fun _ => .after .get fun _ => ?_
  have hcall : ∀ isConstructor, Ensures pre (callSignature type isConstructor)
      fun found _ => M found := fun _ =>
    .after (typeParameters_inside hinside) fun _ => .after (parameters_inside hinside) fun _ =>
      .after (resultAnnotation_inside hinside) fun _ => .pure fun _ _ => hadmits.call _ _ _
  refine .ite (hcall false) <| .ite (.after (skip_inside 1) fun _ => hcall true) <|
    .ite ?_ (hadmits.named _ _)
  exact .after (expect_inside "[") fun _ => .after ident_inside fun _ =>
    .after (expect_inside ":") fun _ => .after (hinside true) fun _ =>
    .after (expect_inside "]") fun _ => .after (eat_inside "?") fun _ =>
    .after (annotation_inside hinside) fun _ => .pure fun _ _ => hadmits.index _ _ _

theorem membersWithin_ensures
    (steps : Nat) :
    Ensures pre (membersWithin type steps) fun found _ => ∀ member ∈ found, M member := by
  induction steps with
  | zero => exact .pure fun _ _ => List.forall_mem_nil _
  | succ steps ih =>
    refine .after .get fun _ => .ite (.pure fun _ _ => List.forall_mem_nil _) <|
      .ite (.fail _) <| .ite (.after (skip_inside 1) fun _ => ih) ?_
    refine .andThen (member_inside hinside) (member_ensures hinside hadmits) fun first hfirst =>
      .bind ih fun more => .pure fun _ hmore => ?_
    exact List.forall_mem_cons.mpr ⟨hfirst, hmore⟩

/-- What is known of every member that is read is known of the members between braces. -/
theorem members_ensures :
    Ensures pre (members type) fun found _ => ∀ member ∈ found, M member :=
  .after .get fun tokens => .andThen (membersWithin_inside hinside (tokens.length + 1))
    (membersWithin_ensures hinside hadmits _) fun _ hfound =>
      .after (expect_inside "\x7d") fun _ => .pure fun _ _ => hfound

end Admitted

section Annotations

variable {P : TypeExpr → Prop}
  (htype : Ensures pre (type true) fun annotated _ => annotated.Annotates P)

include hinside htype

omit hinside in
theorem annotation_ensures :
    Ensures pre ( annotation type) fun annotated _ => ∀ t ∈ annotated, P t := by
  refine .after (eat_inside ":") fun _ => .ite ?_ (.pure fun _ _ => by simp)
  refine .bind htype fun t => .pure fun rest hannotates => ?_
  rintro _ ⟨⟩
  exact hannotates.self

theorem admits_annotates :
    Admits pre type (Member.Annotates P) where
  index _ _ _ := trivial
  call _ _ _ := trivial
  named isReadonly docs := by
    refine .after memberName_inside fun _ => .after (eat_inside "?") fun _ => .after .get fun _ =>
      .ite ?_ ?_
    · exact .after (typeParameters_inside hinside) fun _ => .after (parameters_inside hinside) fun _ =>
        .after (resultAnnotation_inside hinside) fun _ => .pure fun _ _ => trivial
    · exact .bind (annotation_ensures htype) fun _ => .pure fun _ hannotated => hannotated

end Annotations

end Members

/-! ## Types -/

section Types

variable {type : TypeReader} (hinside : ∀ conditional, StaysInside (type conditional))
  (htype : ∀ conditional, Ensures HasNames (type conditional) TypeExpr.NamedBefore)

include hinside htype

theorem typeArguments_ensures :
    Ensures HasNames (typeArguments type) fun arguments _ =>
      ∀ argument ∈ arguments, ∀ rest, argument.NamedBefore rest :=
  .after (eat_inside "<") fun _ => .ite
    (commaList_ensures (hinside true) (htype true) (fun _ _ => TypeExpr.NamedBefore.of_not_dot)
      (by decide))
    (.pure fun _ _ => List.forall_mem_nil _)

omit hinside htype in
/-- In front of a dot there are no type arguments. -/
theorem typeArguments_of_dot
    {tokens : List Token} (hdot : markAt tokens 0 "." = true) :
    typeArguments type tokens = .ok ([], tokens) := by
  have hangle : markAt tokens 0 "<" = false :=
    (seesOneOf_singleton hdot).markAt_eq_false (by decide)
  simp [typeArguments, run_eat_of_false hangle]

omit hinside htype in
/-- The lone name of a built-in type is read as a reference only in front of a dot. -/
theorem markAt_dot_of_keyword
    {tokens rest : List Token} {path name : String} (hnames : HasNames tokens)
    (h : entityName tokens = .ok (path, rest)) (hname : lexemeAt? tokens 0 = some (.ident name))
    (hdotted : ¬(keywordTypes.contains name = true ∧ markAt tokens 1 "." = false))
    (hpath : path ∈ keywordTypes) :
    markAt rest 0 "." = true := by
  have hlone : ∀ word ∈ keywordTypes, nameParts word = [word] := by decide +kernel
  obtain ⟨-, head, lead, behind, rfl, hparts, rfl⟩ := entityName_eq_ok hnames h
  rw [hlone path hpath] at hparts
  obtain ⟨rfl, hmore⟩ := List.cons.inj hparts
  obtain rfl : path = name := Lexeme.ident.inj (Option.some.inj hname)
  rw [dottedParts_of_nil hmore.symm]
  by_contra hdot
  exact hdotted ⟨List.contains_iff_mem.mpr hpath, Bool.not_eq_true _ ▸ hdot⟩

omit htype in
theorem functionType_ensures
    (isConstructor : Bool) :
    Ensures HasNames (functionType type isConstructor) TypeExpr.NamedBefore := by
  refine .after (typeParameters_inside hinside) fun _ => .after (parameters_inside hinside) fun _ =>
    .after (expect_inside "=>") fun _ => .after (result_inside hinside) fun _ => .pure fun rest _ => ?_
  exact TypeExpr.namedBefore_of_isSilent rfl rest

/-- A reference: its name, and its arguments if there are any. -/
theorem reference_namedBefore
    {name path : String} {tokens behind rest : List Token} {arguments : List TypeExpr}
    (hnames : HasNames tokens) (hname : lexemeAt? tokens 0 = some (.ident name))
    (hdotted : ¬(keywordTypes.contains name = true ∧ markAt tokens 1 "." = false))
    (hpath : entityName tokens = .ok (path, behind))
    (harguments : typeArguments type behind = .ok (arguments, rest) ∨
      arguments = [] ∧ rest = behind) :
    (TypeExpr.reference path arguments).NamedBefore rest := by
  have hbehind : HasNames behind := by
    have hleft := entityName_inside tokens
    rw [hpath] at hleft
    exact hnames.of_suffix hleft
  have hsettled : ∀ argument ∈ arguments, ∀ rest, argument.NamedBefore rest := by
    obtain hread | ⟨rfl, -⟩ := harguments
    · exact typeArguments_ensures hinside htype hbehind hread
    · exact List.forall_mem_nil _
  have hfront : markAt behind 0 "." = true → rest = behind := by
    intro hdot
    obtain hread | ⟨-, rfl⟩ := harguments
    · rw [typeArguments_of_dot hdot] at hread
      exact (Prod.mk.inj (Except.ok.inj hread)).2.symm
    · rfl
  refine ⟨?_, ?_, nofun⟩
  · intro mentioned hmentions
    cases hmentions with
    | reference => exact (entityName_eq_ok hnames hpath).1
    | argument hargument h => exact (hsettled _ hargument rest).dotted mentioned h
  · intro mentioned hmentions hkeyword
    cases hmentions with
    | reference =>
      have hdot := markAt_dot_of_keyword hnames hpath hname hdotted hkeyword
      rwa [hfront hdot]
    | argument hargument h => exact (hsettled _ hargument rest).unfinished mentioned h hkeyword

theorem namedType_ensures
    (name : String) :
    Ensures (fun tokens => HasNames tokens ∧ lexemeAt? tokens 0 = some (.ident name))
      (namedType type name) TypeExpr.NamedBefore := by
  rintro tokens t rest ⟨hnames, hname⟩ h
  have hfunction := functionType_ensures hinside true
  have hpure : ∀ t : TypeExpr, t.isSilent = true →
      Ensures HasNames (pure t) TypeExpr.NamedBefore :=
    fun _ hsilent => .pure fun rest _ => TypeExpr.namedBefore_of_isSilent hsilent rest
  rw [namedType, run_bind, run_get, ok_bind] at h
  dsimp only at h
  split_ifs at h with htruth hnew habstract htypeof himported himport hkeyword
  · exact Ensures.after (skip_inside 1) (fun _ => hpure _ rfl) hnames h
  · exact Ensures.after (skip_inside 1) (fun _ => hfunction) hnames h
  · exact Ensures.after (skip_inside 2) (fun _ => hfunction) hnames h
  · refine Ensures.after (skip_inside 1) (fun _ => ?_) hnames h
    exact .after (importText_inside hinside) fun _ =>
      .after (typeArguments_inside hinside) fun _ => hpure _ rfl
  · refine Ensures.after (skip_inside 1) (fun _ => ?_) hnames h
    exact .after entityName_inside fun _ =>
      .after (typeArguments_inside hinside) fun _ => hpure _ rfl
  · exact Ensures.after (importText_inside hinside) (fun _ => hpure _ rfl) hnames h
  · exact Ensures.after (skip_inside 1) (fun _ => hpure _ rfl) hnames h
  · obtain ⟨⟨path, behind⟩, hpath, h⟩ := bind_eq_ok h
    dsimp only at h
    rw [run_bind, run_get, ok_bind] at h
    dsimp only at h
    split_ifs at h
    · obtain ⟨rfl, rfl⟩ := Prod.mk.inj (Except.ok.inj h)
      exact reference_namedBefore hinside htype hnames hname hkeyword hpath (.inr ⟨rfl, rfl⟩)
    · obtain ⟨⟨arguments, remaining⟩, harguments, h⟩ := bind_eq_ok h
      obtain ⟨rfl, rfl⟩ := Prod.mk.inj (Except.ok.inj h)
      exact reference_namedBefore hinside htype hnames hname hkeyword hpath (.inl harguments)

/-! ## All kinds of types -/

theorem markedType_ensures
    (mark : String) :
    Ensures HasNames (markedType type mark) TypeExpr.NamedBefore := by
  have hpure : ∀ t : TypeExpr, t.isSilent = true →
      Ensures HasNames (pure t) TypeExpr.NamedBefore :=
    fun _ hsilent => .pure fun rest _ => TypeExpr.namedBefore_of_isSilent hsilent rest
  have hfunction := functionType_ensures hinside false
  refine .after .get fun tokens => .ite ?_ <| .ite (.ite hfunction ?_) <| .ite hfunction <|
    .ite (.ite ?_ ?_) <| .ite ?_ (.fail _)
  · split
    · exact .after (skip_inside 2) fun _ => .after (numeral_inside _) fun _ => hpure _ rfl
    · exact .fail _
  · exact .after (skip_inside 1) fun _ => .after (hinside true) fun _ =>
      .after (expect_inside ")") fun _ => hpure _ rfl
  · rw [mappedType_eq]
    exact .after (expect_inside "\x7b") fun _ => .after optionalSign_inside fun _ =>
      .after (eatWord_inside "readonly") fun _ => .after (expect_inside "[") fun _ =>
      .after ident_inside fun _ => .after (skip_inside 1) fun _ => .after (hinside true) fun _ =>
      .after (dropRenaming_inside hinside) fun _ => .after (expect_inside "]") fun _ =>
      .after optionalSign_inside fun _ => .after (eat_inside "?") fun _ =>
      .after (annotation_inside hinside) fun _ => .after (eat_inside ";") fun _ =>
      .after (expect_inside "\x7d") fun _ => hpure _ rfl
  · have hannotates : Ensures HasNames (type true) fun t _ => t.Annotates TypeExpr.HasDottedNames :=
      fun _ _ _ hnames hread => (htype true hnames hread).annotates
    exact .after (skip_inside 1) fun _ =>
      .bind (members_ensures hinside (admits_annotates hinside hannotates)) fun _ =>
      .pure fun rest hfound => TypeExpr.namedBefore_object
        (fun member hmember => Member.hasDottedNames_iff.mpr (hfound member hmember)) rest
  · exact .after (expect_inside "[") fun _ =>
      .after (commaList_inside (tupleElement_inside hinside) "]") fun _ => hpure _ rfl

theorem primaryType_ensures :
    Ensures HasNames (primaryType type) TypeExpr.NamedBefore := by
  have hpure : ∀ t : TypeExpr, t.isSilent = true →
      Ensures HasNames (pure t) TypeExpr.NamedBefore :=
    fun _ hsilent => .pure fun rest _ => TypeExpr.namedBefore_of_isSilent hsilent rest
  refine .looking fun tokens hnames => ?_
  have hhere : ∀ {reader : Parse TypeExpr}, Ensures HasNames reader TypeExpr.NamedBefore →
      Ensures (· = tokens) reader TypeExpr.NamedBefore :=
    fun h => h.weaken fun _ heq => heq ▸ hnames
  split
  · exact hhere (.after (skip_inside 1) fun _ => hpure _ rfl)
  · exact hhere (.after (skip_inside 1) fun _ => .after (numeral_inside _) fun _ => hpure _ rfl)
  · exact hhere (.after (skip_inside 1) fun _ => hpure _ rfl)
  · exact hhere (markedType_ensures hinside htype _)
  · rename_i name hname
    exact (namedType_ensures hinside htype name).weaken fun _ heq => heq ▸ ⟨hnames, hname⟩
  · exact .fail _

omit htype in
/-- Brackets can follow a type only where no dot does. -/
theorem suffixesWithin_ensures
    (steps : Nat) (inner : TypeExpr) :
    Ensures (fun tokens => HasNames tokens ∧ inner.NamedBefore tokens)
      (suffixesWithin type steps inner) TypeExpr.NamedBefore := by
  induction steps generalizing inner with
  | zero => exact .pure fun _ hinner => hinner.2
  | succ steps ih =>
    rintro tokens t rest ⟨hnames, hinner⟩ h
    rw [suffixesWithin_succ, run_bind, run_get, ok_bind] at h
    dsimp only at h
    split at h
    · rename_i hbracket
      have hdot : markAt tokens 0 "." = false := by
        simp only [Bool.and_eq_true] at hbracket
        exact (seesOneOf_singleton hbracket.1).markAt_eq_false (by decide)
      obtain ⟨⟨outer, behind⟩, houter, h⟩ := bind_eq_ok h
      have hsuffix : Ensures HasNames (skip 1 >>= fun _ => suffix type inner)
          TypeExpr.NamedBefore := by
        refine .after (skip_inside 1) fun _ => .after (eat_inside "]") fun _ => .ite ?_ ?_
        · exact .pure fun rest _ => TypeExpr.namedBefore_array (hinner.of_not_dot hdot rest)
        · exact .after (hinside true) fun _ => .after (expect_inside "]") fun _ =>
            .pure fun rest _ => TypeExpr.namedBefore_of_isSilent rfl rest
      have hinner' : StaysInside (skip 1 >>= fun _ => suffix type inner) :=
        .bind (skip_inside 1) fun _ => suffix_inside hinside inner
      exact ih outer (hsuffix.kept hinner' hnames houter) h
    · obtain ⟨rfl, rfl⟩ := Prod.mk.inj (Except.ok.inj h)
      exact hinner

theorem suffixedType_ensures :
    Ensures HasNames (suffixedType type) TypeExpr.NamedBefore :=
  .bind (.kept (primaryType_inside hinside) (primaryType_ensures hinside htype)) fun inner =>
    .looking fun tokens hinner =>
      (suffixesWithin_ensures hinside (tokens.length + 1) inner).weaken fun _ heq => heq ▸ hinner

theorem operatorType_ensures :
    Ensures HasNames (operatorType type) TypeExpr.NamedBefore := by
  have hinferred : Ensures HasNames (inferredType type) TypeExpr.NamedBefore := by
    rw [inferredType_eq]
    refine .after .get fun _ => .ite ?_ (suffixedType_ensures hinside htype)
    exact .after (skip_inside 1) fun _ => .after ident_inside fun _ =>
      .after (dropBound_inside hinside) fun _ =>
        .pure fun rest _ => TypeExpr.namedBefore_of_isSilent rfl rest
  intro tokens t rest hnames h
  cases tokens with
  | nil => exact hinferred hnames h
  | cons token behind =>
    unfold operatorType at h
    split at h
    · obtain ⟨⟨operand, remaining⟩, -, h⟩ := bind_eq_ok h
      obtain ⟨rfl, rfl⟩ := Prod.mk.inj (Except.ok.inj h)
      exact TypeExpr.namedBefore_of_isSilent rfl _
    · exact hinferred hnames h

omit hinside htype in
/-- One type stays as it is, and more are combined. -/
theorem combined_namedBefore
    {combine : List TypeExpr → TypeExpr} {rest : List Token}
    (hcombine : ∀ types : List TypeExpr, (∀ t ∈ types, t.NamedBefore rest) →
      (combine types).NamedBefore rest)
    {types : List TypeExpr} (h : ∀ t ∈ types, t.NamedBefore rest) :
    (combined combine types).NamedBefore rest := by
  unfold combined
  split
  · exact h _ List.mem_cons_self
  · exact hcombine types h

theorem unionType_ensures :
    Ensures HasNames (unionType type) TypeExpr.NamedBefore := by
  have hfree : ∀ t rest, TypeExpr.NamedBefore t rest → markAt rest 0 "." = false →
      ∀ rest', t.NamedBefore rest' := fun _ _ => TypeExpr.NamedBefore.of_not_dot
  have hintersection : Ensures HasNames (intersectionType type) TypeExpr.NamedBefore := by
    have hchain : Ensures HasNames (chain "&" (operatorType type)) _ :=
      chain_ensures (operatorType_inside hinside) (operatorType_ensures hinside htype) hfree
        (by decide)
    exact .after (eat_inside "&") fun _ => .bind hchain fun types => .pure fun rest h =>
      combined_namedBefore (fun _ _ => TypeExpr.namedBefore_of_isSilent rfl rest) h
  have hchain : Ensures HasNames (chain "|" (intersectionType type)) _ :=
    chain_ensures (intersectionType_inside hinside) hintersection hfree (by decide)
  exact .after (eat_inside "|") fun _ => .bind hchain fun types => .pure fun rest h =>
    combined_namedBefore (fun _ => TypeExpr.namedBefore_union) h

theorem typeFrom_ensures
    (conditional : Bool) :
    Ensures HasNames (typeFrom type conditional) TypeExpr.NamedBefore := by
  refine .bind (.kept (unionType_inside hinside) (unionType_ensures hinside htype)) fun check =>
    .looking fun tokens hcheck => .ite ?_ (.pure fun _ heq => heq ▸ hcheck.2)
  refine Ensures.weaken (?_ : Ensures HasNames _ _) fun _ heq => heq ▸ hcheck.1
  exact .after (skip_inside 1) fun _ => .after (hinside false) fun _ =>
    .after (expect_inside "?") fun _ => .after (hinside true) fun _ =>
    .after (expect_inside ":") fun _ => .after (hinside true) fun _ =>
      .pure fun rest _ => TypeExpr.namedBefore_of_isSilent rfl rest

end Types

theorem typeWithin_ensures
    (depth : Nat) (conditional : Bool) :
    Ensures HasNames (typeWithin depth conditional) TypeExpr.NamedBefore := by
  induction depth generalizing conditional with
  | zero => exact .fail _
  | succ depth ih => exact typeFrom_ensures (typeWithin_inside depth) ih conditional

/-! ## Statements -/

section Statements

variable {pre : List Token → Prop} [Hereditary pre] {type : TypeReader}
  (hinside : ∀ conditional, StaysInside (type conditional))

/-- The property holds of statements that are left out, and of what is read as a declaration. -/
structure AdmitsStatements
    (pre : List Token → Prop) (type : TypeReader) (S : Statement → Prop) : Prop where
  other : ∀ keyword, S (.other keyword)
  interface : ∀ docs, Ensures pre (interfaceDeclaration type docs) fun declaration _ =>
    S (.interface declaration)
  «alias» : ∀ docs, Ensures pre (aliasDeclaration type docs) fun declaration _ =>
    S (.alias declaration)

section Admitted

variable {S : Statement → Prop} (hadmits : AdmitsStatements pre type S)

include hadmits

theorem statement_ensures :
    Ensures pre (statement type) fun found _ => S found := by
  intro tokens found rest hpre h
  cases hahead : declarationAhead? tokens with
  | none =>
    rw [statement_of_other type hahead] at h
    obtain ⟨rfl, -⟩ := Prod.mk.inj (Except.ok.inj h)
    exact hadmits.other _
  | some ahead =>
    obtain ⟨kind, modifiers⟩ := ahead
    have hbehind : pre (tokens.drop modifiers) :=
      Hereditary.of_suffix hpre (List.drop_suffix modifiers tokens)
    simp only [statement, run_bind, run_get, ok_bind, hahead] at h
    cases kind with
    | interface =>
      have hread : Ensures pre
          (interfaceDeclaration type (documentation tokens) >>= fun declaration =>
            pure (Statement.interface declaration))
          fun found _ => S found :=
        .bind (hadmits.interface _) fun _ => .pure fun _ hfound => hfound
      exact hread hbehind h
    | «alias» =>
      have hread : Ensures pre
          (aliasDeclaration type (documentation tokens) >>= fun declaration =>
            pure (Statement.alias declaration))
          fun found _ => S found :=
        .bind (hadmits.alias _) fun _ => .pure fun _ hfound => hfound
      exact hread hbehind h

include hinside

theorem statementsWithin_ensures
    (steps : Nat) :
    Ensures pre (statementsWithin type steps) fun found _ => ∀ statement ∈ found, S statement := by
  induction steps with
  | zero => exact .pure fun _ _ => List.forall_mem_nil _
  | succ steps ih =>
    refine .after .get fun _ => .ite (.pure fun _ _ => List.forall_mem_nil _) <|
      .after (eat_inside ";") fun _ => .ite ih ?_
    exact .andThen (statement_inside hinside) (statement_ensures hadmits) fun _ hfirst =>
      .bind ih fun _ => .pure fun _ hmore => List.forall_mem_cons.mpr ⟨hfirst, hmore⟩

end Admitted

include hinside in
theorem admits_statementAnnotates
    {P : TypeExpr → Prop}
    (htype : Ensures HasNames (type true) fun annotated _ => annotated.Annotates P) :
    AdmitsStatements HasNames type (Statement.Annotates P) where
  other _ := trivial
  interface _ :=
    .after (skip_inside 1) fun _ => .andThen ident_inside ident_ensures fun _ hname =>
      .after (typeParameters_inside hinside) fun _ => .after (heritage_inside hinside) fun _ =>
      .after (expect_inside "\x7b") fun _ =>
      .bind (members_ensures hinside (admits_annotates hinside htype)) fun _ =>
        .pure fun _ hfound => ⟨hname, hfound⟩
  «alias» _ :=
    .after (skip_inside 1) fun _ => .andThen ident_inside ident_ensures fun _ hname =>
      .after (typeParameters_inside hinside) fun _ => .after (expect_inside "=") fun _ =>
      .andThen (hinside true) htype fun _ haliased => .after (eat_inside ";") fun _ =>
        .pure fun _ _ => ⟨hname, haliased.members⟩

end Statements

end Parse

/-! ## Texts -/

/-- A type that was read takes up all tokens of its text. -/
theorem TypeExpr.typeWithin_of_ofText
    {text : String} {type : TypeExpr} (h : TypeExpr.ofText text = .ok type) :
    ∃ stream, TokenStream.ofText text = .ok stream ∧
      Parse.typeWithin (stream.tokens.length + 1) true stream.tokens = .ok (type, []) := by
  obtain ⟨stream, hstream, h⟩ := Parse.bind_eq_ok h
  cases hread : TypeExpr.ofTokens stream.tokens with
  | error failure =>
    rw [hread] at h
    cases h
  | ok found =>
    rw [hread] at h
    obtain rfl : found = type := Except.ok.inj h
    obtain ⟨⟨_, rest⟩, hreader, h⟩ := Parse.bind_eq_ok hread
    obtain rfl := Except.ok.inj h
    obtain ⟨⟨type, behind⟩, htype, hend⟩ := Parse.bind_eq_ok hreader
    cases behind with
    | cons token behind => cases hend
    | nil =>
      obtain ⟨rfl, rfl⟩ := Prod.mk.inj (Except.ok.inj hend)
      exact ⟨stream, hstream, htype⟩

/-- Whatever a type that was read is resolved to is a dotted name, and not that of a built-in type. -/
theorem TypeExpr.dotted_of_ofText
    {text : String} {type : TypeExpr} (h : TypeExpr.ofText text = .ok type) :
    ∀ name, type.Mentions name → IsDottedName name ∧ name ∉ keywordTypes := by
  obtain ⟨stream, hstream, hread⟩ := typeWithin_of_ofText h
  have hnamed := Parse.typeWithin_ensures _ _ (Source.TokenStream.hasNames_of_ofText hstream) hread
  intro name hmentions
  refine ⟨hnamed.dotted name hmentions, fun hkeyword => ?_⟩
  exact absurd (hnamed.unfinished name hmentions hkeyword) (by decide)

/-- What holds of every statement that is read holds of those of a text. -/
theorem SourceFile.forall_statements_of_ofText
    {name text : String} {file : SourceFile} (h : SourceFile.ofText name text = .ok file) :
    ∃ stream, TokenStream.ofText text = .ok stream ∧
      ∀ (pre : List Token → Prop) [Parse.Hereditary pre] (S : Statement → Prop), pre stream.tokens →
        (∀ depth, Parse.AdmitsStatements pre (Parse.typeWithin depth) S) →
        ∀ statement ∈ file.statements, S statement := by
  obtain ⟨stream, hstream, h⟩ := Parse.bind_eq_ok h
  refine ⟨stream, hstream, fun pre _ S hpre hadmits => ?_⟩
  cases hread : Statement.listOfTokens stream.tokens with
  | error failure =>
    rw [hread] at h
    cases h
  | ok found =>
    rw [hread] at h
    obtain rfl := Except.ok.inj h
    obtain ⟨⟨statements, rest⟩, hstatements, h⟩ := Parse.bind_eq_ok hread
    obtain rfl := Except.ok.inj h
    exact Parse.statementsWithin_ensures (Parse.typeWithin_inside _) (hadmits _) _ hpre hstatements

/-- What holds of every type that is read holds of the annotations in a text. -/
theorem SourceFile.annotates_of_ofText
    {P : TypeExpr → Prop}
    (htype : ∀ depth, Parse.Ensures HasNames (Parse.typeWithin depth true) fun annotated _ =>
      annotated.Annotates P)
    {name text : String} {file : SourceFile} (h : SourceFile.ofText name text = .ok file) :
    ∀ statement ∈ file.statements, statement.Annotates P := by
  obtain ⟨stream, hstream, hall⟩ := forall_statements_of_ofText h
  have hadmits : ∀ depth,
      Parse.AdmitsStatements HasNames (Parse.typeWithin depth) (Statement.Annotates P) :=
    fun depth => Parse.admits_statementAnnotates (Parse.typeWithin_inside depth) (htype depth)
  exact hall HasNames _ (Source.TokenStream.hasNames_of_ofText hstream) hadmits

theorem SourceFile.dotted_of_ofText
    {name text : String} {file : SourceFile} (h : SourceFile.ofText name text = .ok file) :
    ∀ statement ∈ file.statements, statement.HasDottedNames := by
  have hannotates := annotates_of_ofText
    (fun depth _ _ _ hnames hread => (Parse.typeWithin_ensures depth true hnames hread).annotates) h
  exact fun statement hmem => Statement.hasDottedNames_iff.mpr (hannotates statement hmem)

end EntityDiagram.Declaration
