import Mathlib.Logic.Relation
import EntityDiagram.Proofs.Model.MemberLocality
import EntityDiagram.Proofs.Model.UnionCollapse

/-!
# Annotations that become nullable

The union of a type with `null` or `undefined` is the type itself, made optional, and whether an
attribute is optional is decided by its question mark. Only a type that is named `null` or `undefined` is
resolved to another one in such a union, and neither of the two gives rise to a relationship.
-/

namespace EntityDiagram.Declaration

/-- The members of the union of a type with `null` or `undefined`, on either side. -/
def TypeExpr.IsNullablePair (type : TypeExpr) (members : List TypeExpr) : Prop :=
  ∃ word : String, Model.isNullishName word = true ∧
    (members = [type, .keyword word] ∨ members = [.keyword word, type])

/-- The type of a property becomes its union with `null` or `undefined`. -/
inductive Member.MakesNullable (type : TypeExpr) : Member → Member → Prop
  | mk {members : List TypeExpr} (h : type.IsNullablePair members) (name : Text) (kind : NameKind)
      (isOptional isReadonly : Bool) (docs : Option Documentation) :
    MakesNullable type (.property name kind (some type) isOptional isReadonly docs)
      (.property name kind (some (.union members)) isOptional isReadonly docs)

/-- In some declaration the type of a property becomes nullable. -/
def SourceFile.MakeNullable (files files' : List SourceFile) : Prop :=
  ∃ owner, ListChanges (fun member member' => ∃ type : TypeExpr, member.MakesNullable type member')
    owner files files'

end EntityDiagram.Declaration

namespace EntityDiagram.Model

open Declaration (Member NameKind SourceFile TypeExpr)

namespace AttributeType

/-! ## Types that are joined with `null` -/

/-- Neither the type nor the stem of its name can be that of an entity. -/
structure RefersToNothing (type : AttributeType) : Prop where
  isReference : type.isReference = false
  target : type.target = none
  stem : KeyRole.stem? type.name = none

theorem stem?_of_isNullishName
    {name : Text} (h : isNullishName name = true) :
    KeyRole.stem? name = none := by
  rcases isNullishName_eq_true_iff.mp h with rfl | rfl <;> decide

theorem resolve_fields_of_isNullishName
    {type : TypeExpr} (h : isNullishName (resolve type).name = true) :
    (resolve type).isReference = false ∧ (resolve type).target = none := by
  fun_induction TypeExpr.core type with
  | case1 element ih => exact ih h
  | case2 element rest ih => exact ih h
  | case3 type harray hreference =>
    cases type with
    | array element => exact (harray element rfl).elim
    | keyword name =>
      rw [resolve, ofKeyword]
      split <;> exact ⟨rfl, rfl⟩
    | reference name arguments =>
      rw [resolve_reference_of_core hreference] at h ⊢
      have hprimitive : isPrimitiveName name = true :=
        List.contains_iff_mem.mpr (mem_primitiveNames_of_isNullishName h)
      simp [named, hprimitive]
    | union members =>
      rw [resolve] at h ⊢
      by_cases hsingle : (solid (resolveAll members)).length = 1
      · obtain ⟨single, hsolid⟩ := List.length_eq_one_iff.mp hsingle
        have hmem : single ∈ solid (resolveAll members) := hsolid ▸ List.mem_singleton_self single
        rw [ofUnion_single hsolid] at h
        exact absurd h (by simpa using (List.mem_filter.mp hmem).2)
      · rw [ofUnion_several hsingle]
        exact ⟨rfl, rfl⟩
    | literal value => cases value <;> exact ⟨rfl, rfl⟩
    | _ => exact ⟨rfl, rfl⟩

/-- What is named `null` or `undefined` refers to nothing. -/
theorem refersToNothing_of_isNullishName
    {type : TypeExpr} (h : isNullishName (resolve type).name = true) :
    (resolve type).RefersToNothing := by
  obtain ⟨hreference, htarget⟩ := resolve_fields_of_isNullishName h
  exact ⟨hreference, htarget, stem?_of_isNullishName h⟩

/-- Beside the type stands one that is named `null` or `undefined`. -/
theorem exists_of_isNullablePair
    {type : TypeExpr} {members : List TypeExpr} (h : type.IsNullablePair members) :
    ∃ other, isNullishName (resolve other).name = true ∧
      (members = [type, other] ∨ members = [other, type]) := by
  obtain ⟨word, hword, hmembers⟩ := h
  refine ⟨.keyword word, ?_, hmembers⟩
  rwa [resolve_keyword_of_primitive (mem_primitiveNames_of_isNullishName hword)]

/-- The type itself is left, made optional. -/
theorem resolve_union_of_solid
    {type : TypeExpr} {members : List TypeExpr} (h : type.IsNullablePair members)
    (hname : isNullishName (resolve type).name = false) :
    resolve (.union members) = { resolve type with isOptional := true } := by
  obtain ⟨other, hother, hmembers⟩ := exists_of_isNullablePair h
  have hsolid : solid (members.map resolve) = [resolve type] := by
    rcases hmembers with rfl | rfl <;> simp [solid, hname, hother]
  have hlength : members.length = 2 := by
    rcases hmembers with rfl | rfl <;> rfl
  rw [resolve, resolveAll_eq_map, ofUnion_single hsolid, List.length_map, hlength]
  rfl

/-- No member is left, and all are kept. -/
theorem resolve_union_of_nullish
    {type : TypeExpr} {members : List TypeExpr} (h : type.IsNullablePair members)
    (hname : isNullishName (resolve type).name = true) :
    (resolve (.union members)).RefersToNothing := by
  obtain ⟨other, hother, hmembers⟩ := exists_of_isNullablePair h
  have hsolid : (solid (members.map resolve)).length ≠ 1 := by
    rcases hmembers with rfl | rfl <;> simp [solid, hname, hother]
  rw [resolve, resolveAll_eq_map, ofUnion_several hsolid]
  refine ⟨rfl, rfl, ?_⟩
  have hnames : ∀ first ∈ (["null", "undefined"] : List Text),
      ∀ second ∈ (["null", "undefined"] : List Text),
        KeyRole.stem? (Text.intercalate " | " [first, second]) = none := by decide +kernel
  have hfirst : (resolve type).name ∈ (["null", "undefined"] : List Text) := by
    simpa using isNullishName_eq_true_iff.mp hname
  have hsecond : (resolve other).name ∈ (["null", "undefined"] : List Text) := by
    simpa using isNullishName_eq_true_iff.mp hother
  rcases hmembers with rfl | rfl
  · exact hnames _ hfirst _ hsecond
  · exact hnames _ hsecond _ hfirst

end AttributeType

/-! ## Attributes -/

/-- Unless the type is named `null` or `undefined`, the attribute stays the same. -/
theorem Attribute.ofMember?_of_makesNullable
    {type : TypeExpr} {member member' : Member} (h : member.MakesNullable type member')
    (hname : isNullishName (AttributeType.resolve type).name = false) :
    ofMember? member' = ofMember? member := by
  cases h with
  | mk h name kind isOptional isReadonly docs =>
    have hresolve := AttributeType.resolve_union_of_solid h hname
    cases kind <;> simp only [ofMember?, AttributeType.resolve?, hresolve]

namespace Relationship

theorem ofAttribute?_eq_none
    {field : Attribute} (h : field.type.RefersToNothing) (names : List Text) (entity : Text) :
    ofAttribute? names entity field = none := by
  have hdirect : directTarget? names field.type = none := by
    rw [directTarget?, if_neg (by simp [h.isReference])]
  have hkey : keyTarget? names field.type = none := by
    rw [keyTarget?, h.target]
    exact congrArg (Option.filter names.contains) h.stem
  simp only [ofAttribute?, hdirect, hkey]
  split <;> rfl

theorem ofMember?_property_eq_none
    {type : TypeExpr} (h : (AttributeType.resolve type).RefersToNothing) (names : List Text)
    (entity name : Text) (kind : NameKind) (isOptional isReadonly : Bool)
    (docs : Option Declaration.Documentation) :
    ofMember? names entity (.property name kind (some type) isOptional isReadonly docs) = none := by
  cases kind with
  | identifier | string =>
    rw [ofMember?, Attribute.ofMember?, Option.bind_some]
    apply ofAttribute?_eq_none
    exact ⟨h.isReference, h.target, h.stem⟩
  | numeric | computed => rfl

/-- A property gives rise to the same relationship as before, if to any. -/
theorem ofMember?_of_makesNullable
    {type : TypeExpr} {member member' : Member} (h : member.MakesNullable type member')
    (names : List Text) (entity : Text) :
    ofMember? names entity member' = ofMember? names entity member := by
  by_cases hname : isNullishName (AttributeType.resolve type).name = true
  · cases h with
    | mk h name kind isOptional isReadonly docs =>
      have hbefore := AttributeType.refersToNothing_of_isNullishName hname
      have hbehind := AttributeType.resolve_union_of_nullish h hname
      rw [ofMember?_property_eq_none hbefore, ofMember?_property_eq_none hbehind]
  · rw [ofMember?, ofMember?, Attribute.ofMember?_of_makesNullable h (Bool.not_eq_true _ ▸ hname)]

end Relationship

/-! ## Diagrams -/

theorem Diagram.relationships_of_makeNullable
    {files files' : List SourceFile} (h : SourceFile.MakeNullable files files') :
    (ofFiles files').relationships = (ofFiles files).relationships := by
  obtain ⟨owner, h⟩ := h
  obtain ⟨names, links, links', hdiffer, hlinks, hlinks'⟩ := relationships_of_listChanges h
  rw [hlinks, hlinks']
  cases hdiffer with
  | same => rfl
  | member h front back =>
    obtain ⟨type, h⟩ := h
    rw [Relationship.ofMember?_of_makesNullable h names owner]

/-- However many properties become nullable in their annotations, the relationships stay the same. So
does an attribute, unless its type was named `null` or `undefined` before. -/
theorem Diagram.relationships_of_nullable :
    (∀ files files', Relation.ReflTransGen SourceFile.MakeNullable files files' →
      (ofFiles files').relationships = (ofFiles files).relationships) ∧
    ∀ type member member', Member.MakesNullable type member member' →
      isNullishName (AttributeType.resolve type).name = false →
      Attribute.ofMember? member' = Attribute.ofMember? member := by
  constructor
  · intro files files' h
    induction h with
    | refl => rfl
    | tail _ hstep ih => exact (relationships_of_makeNullable hstep).trans ih
  · intro type member member' h hname
    exact Attribute.ofMember?_of_makesNullable h hname

/-- An entity with two keys, and an entity that one of them may name. -/
def annotatedFiles (first second : TypeExpr) : List SourceFile :=
  [{ name := "a.ts"
     statements := [
      .interface {
        name := "A"
        members := [
          .property "bId" .identifier (some first) false false none,
          .property "noId" .identifier (some second) true false none] },
      .interface { name := "B" }] }]

def nullableKey : TypeExpr :=
  .union [.reference "BId" [], .keyword "null"]

def nullishUnion : TypeExpr :=
  .union [.keyword "undefined", .keyword "null"]

/-- The first key becomes nullable, and then the second one, which is `null` already. -/
theorem Diagram.relationships_annotatedFiles :
    Relation.ReflTransGen SourceFile.MakeNullable
        (annotatedFiles (.reference "BId" []) (.keyword "null"))
        (annotatedFiles nullableKey nullishUnion) ∧
      (ofFiles (annotatedFiles nullableKey nullishUnion)).relationships =
        [⟨"A", "B", .oneToOne, "bId", true⟩] ∧
      Attribute.ofMember? (.property "bId" .identifier (some nullableKey) false false none) =
        Attribute.ofMember? (.property "bId" .identifier (some (.reference "BId" [])) false false
          none) := by
  have hkey : Member.MakesNullable (.reference "BId" [])
      (.property "bId" .identifier (some (.reference "BId" [])) false false none)
      (.property "bId" .identifier (some nullableKey) false false none) :=
    .mk ⟨"null", rfl, .inl rfl⟩ _ _ _ _ _
  have hnullish : Member.MakesNullable (.keyword "null")
      (.property "noId" .identifier (some (.keyword "null")) true false none)
      (.property "noId" .identifier (some nullishUnion) true false none) :=
    .mk ⟨"undefined", rfl, .inr rfl⟩ _ _ _ _ _
  have hfirst : SourceFile.MakeNullable
      (annotatedFiles (.reference "BId" []) (.keyword "null"))
      (annotatedFiles nullableKey (.keyword "null")) :=
    ⟨"A", .statement (.interfaceMember (.self ⟨_, hkey⟩) { name := "A" } rfl [] _) "a.ts" [] _ [] []⟩
  have hsecond : SourceFile.MakeNullable (annotatedFiles nullableKey (.keyword "null"))
      (annotatedFiles nullableKey nullishUnion) :=
    ⟨"A", .statement (.interfaceMember (.self ⟨_, hnullish⟩) { name := "A" } rfl
      [.property "bId" .identifier (some nullableKey) false false none] []) "a.ts" [] _ [] []⟩
  have hsteps := (Relation.ReflTransGen.single hfirst).tail hsecond
  obtain ⟨hrelationships, hattribute⟩ := relationships_of_nullable
  refine ⟨hsteps, ?_, hattribute _ _ _ hkey rfl⟩
  rw [hrelationships _ _ hsteps]
  decide +kernel

end EntityDiagram.Model
