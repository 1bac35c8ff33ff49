import EntityDiagram.Proofs.Declaration.TypeInvariants

/-!
# Unions in what is read

A union that is read has two members at least: a type with no bar behind it stays as it is. This holds of
every union that the resolution of a type comes to, be it an argument of a reference, an element of an
array or a member of another union.
-/

namespace EntityDiagram.Declaration

open Source (HasNames)

namespace TypeExpr

/-- Resolving the type comes to the part. -/
inductive Reaches : TypeExpr → TypeExpr → Prop
  | self (type : TypeExpr) : Reaches type type
  | argument {name : String} {arguments : List TypeExpr} {argument part : TypeExpr}
      (hargument : argument ∈ arguments) (h : argument.Reaches part) :
    Reaches (.reference name arguments) part
  | element {element part : TypeExpr} (h : element.Reaches part) : Reaches (.array element) part
  | member {members : List TypeExpr} {type part : TypeExpr} (hmember : type ∈ members)
      (h : type.Reaches part) :
    Reaches (.union members) part

/-- The names that a part is resolved to are among those of the whole type. -/
theorem Reaches.mentions
    {type part : TypeExpr} (h : type.Reaches part) {name : String} (hpart : part.Mentions name) :
    type.Mentions name := by
  induction h with
  | self type => exact hpart
  | argument hargument _ ih => exact .argument hargument (ih hpart)
  | element _ ih => exact .array (ih hpart)
  | member hmember _ ih => exact .member hmember (ih hpart)

theorem Reaches.trans
    {type part inner : TypeExpr} (h : type.Reaches part) (hinner : part.Reaches inner) :
    type.Reaches inner := by
  induction h with
  | self type => exact hinner
  | argument hargument _ ih => exact .argument hargument (ih hinner)
  | element _ ih => exact .element (ih hinner)
  | member hmember _ ih => exact .member hmember (ih hinner)

/-- Every union that is reached has two members at least. -/
def HasBranchingUnions (type : TypeExpr) : Prop :=
  ∀ members, type.Reaches (.union members) → 1 < members.length

/-- All unions branch, in an object type those of its annotations. -/
def Branches (type : TypeExpr) : Prop :=
  type.Annotates HasBranchingUnions

theorem branches_of_isSilent
    {type : TypeExpr} (h : type.isSilent = true) :
    type.Branches := by
  constructor
  · rintro members ⟨⟩ <;> cases h
  · rintro members rfl
    cases h

theorem branches_object
    {members : List Member} (h : ∀ member ∈ members, member.Annotates HasBranchingUnions) :
    (TypeExpr.object members).Branches := by
  constructor
  · rintro _ ⟨⟩
  · rintro _ ⟨⟩
    exact h

theorem branches_reference
    {arguments : List TypeExpr} (h : ∀ argument ∈ arguments, argument.Branches) (name : String) :
    (TypeExpr.reference name arguments).Branches := by
  refine ⟨fun members hreaches => ?_, nofun⟩
  cases hreaches with
  | argument hargument hreaches => exact (h _ hargument).self members hreaches

theorem branches_array
    {element : TypeExpr} (h : element.Branches) :
    (TypeExpr.array element).Branches := by
  refine ⟨fun members hreaches => ?_, nofun⟩
  cases hreaches with
  | element hreaches => exact h.self members hreaches

theorem branches_union
    {members : List TypeExpr} (hlength : 1 < members.length)
    (h : ∀ member ∈ members, member.Branches) :
    (TypeExpr.union members).Branches := by
  refine ⟨fun found hreaches => ?_, nofun⟩
  cases hreaches with
  | self => exact hlength
  | member hmember hreaches => exact (h _ hmember).self found hreaches

end TypeExpr

namespace Parse

theorem isReadInvariant_branches :
    IsReadInvariant HasNames TypeExpr.Branches where
  silent _ := TypeExpr.branches_of_isSilent
  reference name _ harguments := TypeExpr.branches_reference harguments name
  array _ := TypeExpr.branches_array
  union _ := TypeExpr.branches_union
  object type hinside htype := by
    intro tokens found rest hnames hread
    have hannotated := members_ensures hinside (admits_annotates hinside (htype true)) hnames hread
    exact TypeExpr.branches_object hannotated

end Parse

/-- Every union in a type that was read has two members at least. -/
theorem TypeExpr.hasBranchingUnions_of_ofText
    {text : String} {type : TypeExpr} (h : TypeExpr.ofText text = .ok type) :
    type.HasBranchingUnions := by
  obtain ⟨stream, hstream, hread⟩ := typeWithin_of_ofText h
  have hnames := Source.TokenStream.hasNames_of_ofText hstream
  exact (Parse.isReadInvariant_branches.typeWithin _ _ hnames hread).self

/-- Every union in the type of a property that was read has two members at least. -/
theorem SourceFile.branching_of_ofText
    {name text : String} {file : SourceFile} (h : SourceFile.ofText name text = .ok file) :
    ∀ statement ∈ file.statements, statement.Annotates TypeExpr.HasBranchingUnions :=
  annotates_of_ofText (fun depth => Parse.isReadInvariant_branches.typeWithin depth true) h

end EntityDiagram.Declaration
