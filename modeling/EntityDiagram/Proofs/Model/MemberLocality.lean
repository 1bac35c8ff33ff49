import EntityDiagram.Model.Diagram
import EntityDiagram.Proofs.Declaration.MemberChange

/-!
# What depends on one member

A change of one member reaches at most one relationship: the one that the member itself gives rise to,
if it belongs to a declaration. A member of an object type inside an annotation reaches nothing, since
an object type is resolved to the same type whatever its members are.
-/

namespace EntityDiagram.Model

open Declaration (Alias Interface Member SourceFile Statement TypeExpr)

variable {change : Member → Member → Prop}

/-! ## Types -/

namespace AttributeType

theorem resolveAll_replace
    {type type' : TypeExpr} (h : resolve type = resolve type') (front back : List TypeExpr) :
    resolveAll (front ++ type :: back) = resolveAll (front ++ type' :: back) := by
  simp only [resolveAll_eq_map, List.map_append, List.map_cons, h]

/-- The members of object types do not matter to what a type is resolved to. -/
theorem resolve_of_changes {type type' : TypeExpr} :
    type.Changes change type' → resolve type = resolve type'
  | .argument h name front back =>
    congrArg (ofReference name) (resolveAll_replace (resolve_of_changes h) front back)
  | .element h => congrArg (fun element => { element with isArray := true }) (resolve_of_changes h)
  | .alternative h front back =>
    congrArg ofUnion (resolveAll_replace (resolve_of_changes h) front back)
  | .conjunct .. | .member .. | .mappedKeys .. | .mappedValue .. | .component .. | .parameter ..
  | .result .. | .parenthesized _ | .operand .. | .indexedObject .. | .indexedIndex .. | .check ..
  | .bound .. | .whenTrue .. | .whenFalse .. => rfl

end AttributeType

/-! ## Relationships of members -/

namespace Relationship

/-- The relationship that a member of an entity gives rise to. -/
def ofMember? (names : List Text) (entity : Text) (member : Member) : Option Relationship :=
  (Attribute.ofMember? member).bind (ofAttribute? names entity)

/-- Of a changed member nothing is left but the change of the member itself. -/
theorem ofMember?_of_changes
    {member member' : Member} (h : member.Changes change member') (names : List Text)
    (entity : Text) :
    change member member' ∨ ofMember? names entity member = ofMember? names entity member' := by
  cases h with
  | self h => exact .inl h
  | annotation h name kind isOptional isReadonly docs =>
    right
    have hresolve := AttributeType.resolve_of_changes h
    cases kind <;> simp only [ofMember?, Attribute.ofMember?, AttributeType.resolve?, hresolve]
  | _ => exact .inr rfl

/-- The lists are the same but for what one member of the entity gives rise to. -/
inductive Differ
    (change : Member → Member → Prop) (names : List Text) (entity : Text) :
    List Relationship → List Relationship → Prop
  | same (links : List Relationship) : Differ change names entity links links
  | member {member member' : Member} (h : change member member') (front back : List Relationship) :
    Differ change names entity (front ++ (ofMember? names entity member).toList ++ back)
      (front ++ (ofMember? names entity member').toList ++ back)

namespace Differ

variable {names : List Text} {entity : Text}

theorem surrounded
    {links links' : List Relationship} (h : Differ change names entity links links')
    (front back : List Relationship) :
    Differ change names entity (front ++ links ++ back) (front ++ links' ++ back) := by
  cases h with
  | same => exact .same _
  | member h before behind =>
    have hmember : Differ change names entity _ _ := .member h (front ++ before) (behind ++ back)
    simpa only [List.append_assoc] using hmember

theorem of_members
    {member member' : Member} (h : member.Changes change member') (front back : List Member) :
    Differ change names entity ((front ++ member :: back).filterMap (ofMember? names entity))
      ((front ++ member' :: back).filterMap (ofMember? names entity)) := by
  have hsplit : ∀ m, (front ++ m :: back).filterMap (ofMember? names entity) =
      front.filterMap (ofMember? names entity) ++ (ofMember? names entity m).toList ++
        back.filterMap (ofMember? names entity) := by
    intro m
    rw [List.filterMap_append, List.filterMap_cons, List.append_assoc]
    cases ofMember? names entity m <;> rfl
  rw [hsplit, hsplit]
  obtain hself | hsame := ofMember?_of_changes h names entity
  · exact .member hself _ _
  · rw [hsame]
    exact .same _

end Differ

end Relationship

/-! ## Entities -/

open Relationship (Differ ofEntity)

theorem Relationship.ofEntity_eq
    {entity : Entity} {members : List Member}
    (h : entity.attributes = members.filterMap Attribute.ofMember?) (names : List Text) :
    ofEntity names entity = members.filterMap (ofMember? names entity.name) ++
      (entity.parents.getD []).filterMap (ofParent? names entity.name) := by
  rw [ofEntity, h, List.filterMap_filterMap]
  rfl

/-- One member of an entity changes: the entities have the same name, and what they give rise to is the
same but for the member. -/
structure Entity.Varies
    (change : Member → Member → Prop) (owner : String) (entity entity' : Entity) : Prop where
  name : entity.name = owner
  name' : entity'.name = owner
  differ : ∀ names, Differ change names owner (ofEntity names entity) (ofEntity names entity')

theorem Entity.varies_of_members
    {owner : String} {entity entity' : Entity} {member member' : Member}
    (h : member.Changes change member') {front back : List Member}
    (hattributes : entity.attributes = (front ++ member :: back).filterMap Attribute.ofMember?)
    (hattributes' : entity'.attributes = (front ++ member' :: back).filterMap Attribute.ofMember?)
    (hname : entity.name = owner) (hname' : entity'.name = owner)
    (hparents : entity'.parents = entity.parents) :
    Varies change owner entity entity' := by
  refine ⟨hname, hname', fun names => ?_⟩
  rw [Relationship.ofEntity_eq hattributes, Relationship.ofEntity_eq hattributes', hname, hname',
    hparents]
  exact (Differ.of_members h front back).surrounded [] _

/-- What an entity gives rise to depends on its name, its attributes and its parents. -/
theorem Entity.varies_of_eq
    {owner : String} {entity entity' : Entity} (hname : entity.name = owner)
    (hname' : entity'.name = owner) (hattributes : entity'.attributes = entity.attributes)
    (hparents : entity'.parents = entity.parents) :
    Varies change owner entity entity' := by
  refine ⟨hname, hname', fun names => ?_⟩
  have hsame : ofEntity names entity' = ofEntity names entity := by
    rw [ofEntity, ofEntity, hname, hname', hattributes, hparents]
  rw [hsame]
  exact .same _

/-- A changed declaration is no entity before and after, or it is the same one but for the member. -/
theorem Entity.ofStatement?_of_changes
    {owner : String} {statement statement' : Statement}
    (h : statement.Changes change owner statement') (file : String) :
    ofStatement? file statement = ofStatement? file statement' ∨
      ∃ entity entity', ofStatement? file statement = some entity ∧
        ofStatement? file statement' = some entity' ∧ Varies change owner entity entity' := by
  cases h with
  | interfaceMember h declaration hname front back =>
    refine .inr ⟨_, _, rfl, rfl, ?_⟩
    exact varies_of_members h rfl rfl (hname ▸ rfl) (hname ▸ rfl) rfl
  | heritage h declaration hname front back =>
    refine .inr ⟨_, _, rfl, rfl, varies_of_eq (hname ▸ rfl) (hname ▸ rfl) rfl ?_⟩
    cases h with
    | argument h expression before behind =>
      have hplain : ∀ arguments, Declaration.Heritage.isPlain ⟨expression, arguments⟩ =
          Declaration.Heritage.isPlain ⟨expression, []⟩ := fun _ => rfl
      simp only [ofInterface, List.filter_append, List.filter_cons, List.map_append, hplain]
      split <;> rfl
  | interfaceParameter h declaration hname front back =>
    refine .inr ⟨_, _, rfl, rfl, ?_⟩
    exact varies_of_eq (hname ▸ rfl) (hname ▸ rfl) rfl rfl
  | aliasType h declaration hname =>
    cases h with
    | member h front back =>
      refine .inr ⟨_, _, rfl, rfl, ?_⟩
      exact varies_of_members h rfl rfl (hname ▸ rfl) (hname ▸ rfl) rfl
    | _ => exact .inl rfl
  | aliasParameter h declaration hname front back =>
    obtain ⟨name, type, parameters, docs⟩ := declaration
    cases type with
    | object members =>
      refine .inr ⟨_, _, rfl, rfl, ?_⟩
      exact varies_of_eq (hname ▸ rfl) (hname ▸ rfl) rfl rfl
    | _ => exact .inl rfl

/-! ## Diagrams -/

theorem Diagram.entities_of_listChanges
    {owner : String} {files files' : List SourceFile}
    (h : SourceFile.ListChanges change owner files files') :
    (ofFiles files).entities = (ofFiles files').entities ∨
      ∃ before behind entity entity', Entity.Varies change owner entity entity' ∧
        (ofFiles files).entities = before ++ entity :: behind ∧
        (ofFiles files').entities = before ++ entity' :: behind := by
  cases h with
  | @statement statement statement' h name front back files more =>
    have hentities : ∀ s, (ofFiles (files ++ ⟨name, front ++ s :: back⟩ :: more)).entities =
        files.flatMap Entity.listOfFile ++ front.filterMap (Entity.ofStatement? name) ++
          ((Entity.ofStatement? name s).toList ++
            (back.filterMap (Entity.ofStatement? name) ++ more.flatMap Entity.listOfFile)) := by
      intro s
      have hfile : Entity.listOfFile ⟨name, front ++ s :: back⟩ =
          front.filterMap (Entity.ofStatement? name) ++ ((Entity.ofStatement? name s).toList ++
            back.filterMap (Entity.ofStatement? name)) := by
        rw [Entity.listOfFile, List.filterMap_append, List.filterMap_cons]
        cases Entity.ofStatement? name s <;> rfl
      change (files ++ _ :: more).flatMap Entity.listOfFile = _
      rw [List.flatMap_append, List.flatMap_cons, hfile]
      simp only [List.append_assoc]
    rw [hentities, hentities]
    obtain hsame | ⟨entity, entity', hentity, hentity', hvaries⟩ :=
      Entity.ofStatement?_of_changes h name
    · rw [hsame]
      exact .inl rfl
    · rw [hentity, hentity']
      exact .inr ⟨_, _, entity, entity', hvaries, rfl, rfl⟩

/-- Where one member changes, the relationships are derived from lists that are the same but for what
this member of the declaration gives rise to. -/
theorem Diagram.relationships_of_listChanges
    {owner : String} {files files' : List SourceFile}
    (h : SourceFile.ListChanges change owner files files') :
    ∃ names links links', Differ change names owner links links' ∧
      (ofFiles files).relationships = Relationship.distinct links ∧
      (ofFiles files').relationships = Relationship.distinct links' := by
  have hderive : ∀ list, (ofFiles list).relationships =
      Relationship.distinct ((ofFiles list).entities.flatMap
        (ofEntity ((ofFiles list).entities.map Entity.name))) := fun _ => rfl
  rw [hderive, hderive]
  obtain hsame | ⟨before, behind, entity, entity', hvaries, hentities, hentities'⟩ :=
    entities_of_listChanges h
  · rw [hsame]
    exact ⟨[], _, _, .same _, rfl, rfl⟩
  · have hnames : (before ++ entity' :: behind).map Entity.name =
        (before ++ entity :: behind).map Entity.name := by
      simp only [List.map_append, List.map_cons, hvaries.name, hvaries.name']
    rw [hentities, hentities', hnames]
    generalize (before ++ entity :: behind).map Entity.name = names
    have hdiffer := (hvaries.differ names).surrounded (before.flatMap (ofEntity names))
      (behind.flatMap (ofEntity names))
    refine ⟨names, _, _, hdiffer, ?_, ?_⟩
    · rw [List.flatMap_append, List.flatMap_cons, List.append_assoc]
    · rw [List.flatMap_append, List.flatMap_cons, List.append_assoc]

end EntityDiagram.Model
