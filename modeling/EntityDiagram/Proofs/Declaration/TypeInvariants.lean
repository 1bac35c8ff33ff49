import EntityDiagram.Proofs.Declaration.ReadNames

/-!
# Properties of types that are read

Types are read level by level of the grammar. What is read is a reference, an array, a union, an object
type, or one of the kinds of types whose parts do not matter. So a property of types holds of whatever
is read if it holds of the latter and passes from the parts of the others to the whole.
-/

namespace EntityDiagram.Declaration

open Source (Token)

namespace Parse

variable {α : Type} {pre : List Token → Prop} {P : TypeExpr → Prop}

/-- From tokens with the condition, the reader reads only types with the property. -/
def Produces (pre : List Token → Prop) (P : TypeExpr → Prop) (reader : Parse TypeExpr) : Prop :=
  Ensures pre reader fun type _ => P type

/-- The property passes from the parts of types to the types that are read. The members of an object
type are known by how they are read. -/
structure IsReadInvariant (pre : List Token → Prop) (P : TypeExpr → Prop) : Prop where
  silent : ∀ type : TypeExpr, type.isSilent = true → P type
  reference : ∀ name arguments, (∀ argument ∈ arguments, P argument) → P (.reference name arguments)
  array : ∀ element, P element → P (.array element)
  union : ∀ members, 1 < members.length → (∀ member ∈ members, P member) → P (.union members)
  object : ∀ type : TypeReader, (∀ conditional, StaysInside (type conditional)) →
    (∀ conditional, Produces pre P (type conditional)) →
    Ensures pre (members type) fun found _ => P (.object found)

/-! ## Several types -/

theorem chain_ne_nil
    {mark : String} {item : Parse α} {tokens rest : List Token} {values : List α}
    (h : chain mark item tokens = .ok (values, rest)) :
    values ≠ [] := by
  rw [chain, run_bind, run_get, ok_bind, chainWithin] at h
  obtain ⟨⟨first, behind⟩, -, h⟩ := bind_eq_ok h
  obtain ⟨⟨found, behind'⟩, -, h⟩ := bind_eq_ok h
  dsimp only at h
  split at h
  · obtain ⟨⟨more, behind''⟩, -, h⟩ := bind_eq_ok h
    obtain ⟨rfl, -⟩ := Prod.mk.inj (Except.ok.inj h)
    exact List.cons_ne_nil _ _
  · obtain ⟨rfl, -⟩ := Prod.mk.inj (Except.ok.inj h)
    exact List.cons_ne_nil _ _

/-- One type stays as it is; otherwise there are several to combine. -/
theorem combined_of_forall
    {combine : List TypeExpr → TypeExpr} {types : List TypeExpr} (hne : types ≠ [])
    (h : ∀ type ∈ types, P type) (hcombine : 1 < types.length → P (combine types)) :
    P (combined combine types) := by
  unfold combined
  split
  · exact h _ List.mem_cons_self
  · rename_i hseveral
    apply hcombine
    match types with
    | [] => exact absurd rfl hne
    | [single] => exact absurd rfl (hseveral single)
    | _ :: _ :: _ => simp

/-- Types with marks between them, which are combined if there are several. -/
theorem chain_produces
    [Hereditary pre] {item : Parse TypeExpr} (hinside : StaysInside item)
    (hitem : Produces pre P item) {mark : String} (hmark : mark ≠ ".")
    {combine : List TypeExpr → TypeExpr}
    (hcombine : ∀ types, 1 < types.length → (∀ type ∈ types, P type) → P (combine types)) :
    Produces pre P (chain mark item >>= fun types => pure (combined combine types)) := by
  intro tokens found rest hpre h
  obtain ⟨⟨types, behind⟩, htypes, h⟩ := bind_eq_ok h
  obtain ⟨rfl, rfl⟩ := Prod.mk.inj (Except.ok.inj h)
  have hall : ∀ type ∈ types, P type :=
    chain_ensures hinside hitem (fun _ _ h _ _ => h) hmark hpre htypes
  exact combined_of_forall (chain_ne_nil htypes) hall fun hlength => hcombine types hlength hall

/-! ## The levels of the grammar -/

section Types

variable [Hereditary pre] (hinvariant : IsReadInvariant pre P) {type : TypeReader}
  (hinside : ∀ conditional, StaysInside (type conditional))
  (htype : ∀ conditional, Produces pre P (type conditional))

include hinvariant

omit [Hereditary pre] in
theorem produces_silent
    {type : TypeExpr} (h : type.isSilent = true) :
    Produces pre P (pure type) :=
  .pure fun _ _ => hinvariant.silent type h

include hinside

theorem functionType_produces
    (isConstructor : Bool) :
    Produces pre P (functionType type isConstructor) :=
  .after (typeParameters_inside hinside) fun _ => .after (parameters_inside hinside) fun _ =>
    .after (expect_inside "=>") fun _ => .after (result_inside hinside) fun _ =>
      produces_silent hinvariant rfl

include htype

theorem markedType_produces
    (mark : String) :
    Produces pre P (markedType type mark) := by
  have hsilent : ∀ t : TypeExpr, t.isSilent = true → Produces pre P (pure t) :=
    fun _ => produces_silent hinvariant
  have hfunction := functionType_produces hinvariant hinside false
  refine .after .get fun tokens => .ite ?_ <| .ite (.ite hfunction ?_) <| .ite hfunction <|
    .ite (.ite ?_ ?_) <| .ite ?_ (.fail _)
  · split
    · exact .after (skip_inside 2) fun _ => .after (numeral_inside _) fun _ => hsilent _ rfl
    · exact .fail _
  · exact .after (skip_inside 1) fun _ => .after (hinside true) fun _ =>
      .after (expect_inside ")") fun _ => hsilent _ rfl
  · rw [mappedType_eq]
    exact .after (expect_inside "\x7b") fun _ => .after optionalSign_inside fun _ =>
      .after (eatWord_inside "readonly") fun _ => .after (expect_inside "[") fun _ =>
      .after ident_inside fun _ => .after (skip_inside 1) fun _ => .after (hinside true) fun _ =>
      .after (dropRenaming_inside hinside) fun _ => .after (expect_inside "]") fun _ =>
      .after optionalSign_inside fun _ => .after (eat_inside "?") fun _ =>
      .after (annotation_inside hinside) fun _ => .after (eat_inside ";") fun _ =>
      .after (expect_inside "\x7d") fun _ => hsilent _ rfl
  · exact .after (skip_inside 1) fun _ =>
      .bind (hinvariant.object type hinside htype) fun _ => .pure fun _ hobject => hobject
  · exact .after (expect_inside "[") fun _ =>
      .after (commaList_inside (tupleElement_inside hinside) "]") fun _ => hsilent _ rfl

omit hinvariant in
theorem typeArguments_produce :
    Ensures pre (typeArguments type) fun arguments _ => ∀ argument ∈ arguments, P argument := by
  refine .after (eat_inside "<") fun _ => .ite ?_ (.pure fun _ _ => List.forall_mem_nil _)
  intro tokens arguments rest hpre hread
  have hall := commaList_ensures (hinside true) (htype true) (fun _ _ h _ _ => h) (by decide) hpre
    hread
  exact fun argument hargument => hall argument hargument rest

theorem namedType_produces
    (name : String) :
    Produces pre P (namedType type name) := by
  have hsilent : ∀ t : TypeExpr, t.isSilent = true → Produces pre P (pure t) :=
    fun _ => produces_silent hinvariant
  have hfunction := functionType_produces hinvariant hinside true
  refine .after .get fun tokens => .ite ?_ <| .ite ?_ <| .ite ?_ <| .ite ?_ <| .ite ?_ <| .ite ?_ ?_
  · exact .after (skip_inside 1) fun _ => hsilent _ rfl
  · exact .after (skip_inside 1) fun _ => hfunction
  · exact .after (skip_inside 2) fun _ => hfunction
  · refine .after (skip_inside 1) fun _ => ?_
    dsimp only
    split
    · exact .after (importText_inside hinside) fun _ =>
        .after (typeArguments_inside hinside) fun _ => hsilent _ rfl
    · exact .after entityName_inside fun _ =>
        .after (typeArguments_inside hinside) fun _ => hsilent _ rfl
  · exact .after (importText_inside hinside) fun _ => hsilent _ rfl
  · exact .after (skip_inside 1) fun _ => hsilent _ rfl
  · refine .after entityName_inside fun path => .after .get fun behind => ?_
    dsimp only
    split
    · exact .pure fun _ _ => hinvariant.reference path [] (List.forall_mem_nil _)
    · exact .bind (typeArguments_produce hinside htype) fun _ =>
        .pure fun _ harguments => hinvariant.reference path _ harguments

theorem primaryType_produces :
    Produces pre P (primaryType type) := by
  have hsilent : ∀ t : TypeExpr, t.isSilent = true → Produces pre P (pure t) :=
    fun _ => produces_silent hinvariant
  refine .after .get fun tokens => ?_
  split
  · exact .after (skip_inside 1) fun _ => hsilent _ rfl
  · exact .after (skip_inside 1) fun _ => .after (numeral_inside _) fun _ => hsilent _ rfl
  · exact .after (skip_inside 1) fun _ => hsilent _ rfl
  · exact markedType_produces hinvariant hinside htype _
  · exact namedType_produces hinvariant hinside htype _
  · exact .fail _

omit htype in
theorem suffixesWithin_produces
    (steps : Nat) {inner : TypeExpr} (hinner : P inner) :
    Produces pre P (suffixesWithin type steps inner) := by
  induction steps generalizing inner with
  | zero => exact .pure fun _ _ => hinner
  | succ steps ih =>
    refine .after .get fun _ => .ite ?_ (.pure fun _ _ => hinner)
    refine .after (skip_inside 1) fun _ => .after (eat_inside "]") fun _ => .ite ?_ ?_
    · exact ih (hinvariant.array inner hinner)
    · exact .after (hinside true) fun _ => .after (expect_inside "]") fun _ =>
        ih (hinvariant.silent _ rfl)

theorem operatorType_produces :
    Produces pre P (operatorType type) := by
  have hsuffixed : Produces pre P (suffixedType type) :=
    .andThen (primaryType_inside hinside) (primaryType_produces hinvariant hinside htype)
      fun _ hinner => .after .get fun _ => suffixesWithin_produces hinvariant hinside _ hinner
  have hinferred : Produces pre P (inferredType type) := by
    rw [inferredType_eq]
    exact .after .get fun _ => .ite (.after (skip_inside 1) fun _ => .after ident_inside fun _ =>
      .after (dropBound_inside hinside) fun _ => produces_silent hinvariant rfl) hsuffixed
  intro tokens t rest hpre h
  cases tokens with
  | nil => exact hinferred hpre h
  | cons token behind =>
    unfold operatorType at h
    split at h
    · obtain ⟨⟨operand, remaining⟩, -, h⟩ := bind_eq_ok h
      obtain ⟨rfl, rfl⟩ := Prod.mk.inj (Except.ok.inj h)
      exact hinvariant.silent _ rfl
    · exact hinferred hpre h

theorem unionType_produces :
    Produces pre P (unionType type) := by
  have hintersection : Produces pre P (intersectionType type) :=
    .after (eat_inside "&") fun _ => chain_produces (operatorType_inside hinside)
      (operatorType_produces hinvariant hinside htype) (by decide) fun _ _ _ =>
        hinvariant.silent _ rfl
  exact .after (eat_inside "|") fun _ => chain_produces (intersectionType_inside hinside)
    hintersection (by decide) hinvariant.union

theorem typeFrom_produces
    (conditional : Bool) :
    Produces pre P (typeFrom type conditional) := by
  refine .andThen (unionType_inside hinside) (unionType_produces hinvariant hinside htype)
    fun check hcheck => .after .get fun tokens => .ite ?_ (.pure fun _ _ => hcheck)
  exact .after (skip_inside 1) fun _ => .after (hinside false) fun _ =>
    .after (expect_inside "?") fun _ => .after (hinside true) fun _ =>
    .after (expect_inside ":") fun _ => .after (hinside true) fun _ =>
      produces_silent hinvariant rfl

end Types

/-- The property holds of every type that is read, however deep types are nested in it. -/
theorem IsReadInvariant.typeWithin
    [Hereditary pre] (hinvariant : IsReadInvariant pre P) (depth : Nat) (conditional : Bool) :
    Produces pre P (typeWithin depth conditional) := by
  induction depth generalizing conditional with
  | zero => exact .fail _
  | succ depth ih => exact typeFrom_produces hinvariant (typeWithin_inside depth) ih conditional

end Parse

end EntityDiagram.Declaration
