import EntityDiagram.Proofs.Declaration.ReadUnions
import EntityDiagram.Proofs.Model.EntityMembers

/-!
# The types of attributes that are read

What is read is resolved to few kinds of types: primitive and unknown types, references with dotted
names, and unions of several types, and besides these to arrays and optional types, which are copies of
others. So a property of types that holds of these kinds holds of all attributes of a diagram that was
read.
-/

namespace EntityDiagram.Declaration

/-! ## Annotations -/

/-- The type is resolved to dotted names, and all its unions branch. -/
def TypeExpr.IsRegular (type : TypeExpr) : Prop :=
  type.HasDottedNames ∧ type.HasBranchingUnions

theorem Member.Annotates.and
    {P Q : TypeExpr → Prop} {member : Member} (hleft : member.Annotates P)
    (hright : member.Annotates Q) :
    member.Annotates fun type => P type ∧ Q type := by
  cases member with
  | property => exact fun annotated hmem => ⟨hleft annotated hmem, hright annotated hmem⟩
  | _ => trivial

theorem Statement.Annotates.and
    {P Q : TypeExpr → Prop} {statement : Statement} (hleft : statement.Annotates P)
    (hright : statement.Annotates Q) :
    statement.Annotates fun type => P type ∧ Q type := by
  cases statement with
  | interface declaration =>
    exact ⟨hleft.1, fun member hmem => (hleft.2 member hmem).and (hright.2 member hmem)⟩
  | «alias» declaration =>
    refine ⟨hleft.1, fun members hobject member hmem => ?_⟩
    exact (hleft.2 members hobject member hmem).and (hright.2 members hobject member hmem)
  | other => trivial

theorem SourceFile.regular_of_ofText
    {name text : String} {file : SourceFile} (h : SourceFile.ofText name text = .ok file) :
    ∀ statement ∈ file.statements, statement.Annotates TypeExpr.IsRegular := by
  intro statement hstatement
  have hnames := Statement.hasDottedNames_iff.mp (dotted_of_ofText h statement hstatement)
  exact hnames.and (branching_of_ofText h statement hstatement)

end EntityDiagram.Declaration

namespace EntityDiagram.Model

open Declaration (IsDottedName Literal Member SourceFile Statement TypeExpr)

/-- The text is a name that a record can be declared with. -/
def IsRecordName (name : Text) : Prop :=
  ∃ declared : String, name = declared ∧ Source.IsName declared.toList

/-- What is known of a statement is known of the record that it declares. -/
theorem Declares.annotates
    {P : TypeExpr → Prop} {statement : Statement} {name : Text} {members : List Member}
    (h : Declares statement name members) (hstatement : statement.Annotates P) :
    IsRecordName name ∧ ∀ member ∈ members, member.Annotates P := by
  cases h with
  | interface => exact ⟨⟨_, rfl, hstatement.1⟩, hstatement.2⟩
  | typeAlias hobject => exact ⟨⟨_, rfl, hstatement.1⟩, hstatement.2 members hobject⟩

namespace AttributeType

/-! ## Properties of resolved types -/

/-- The property holds of the kinds of types that what is read is resolved to, and it does not depend on
the marks of arrays and optional types and on literals. -/
structure IsInvariant (P : AttributeType → Prop) : Prop where
  unknown : P unknown
  primitive : ∀ name ∈ primitiveNames, P (primitive name)
  named : ∀ name arguments, IsDottedName name → (∀ argument ∈ arguments, P argument) →
    P (named name arguments)
  union : ∀ members isOptional, 1 < members.length → (∀ member ∈ members, P member) →
    P { name := Text.intercalate " | " (members.map AttributeType.name)
        isOptional
        alternatives := some members }
  marked : ∀ type isArray isOptional literal, P type → P { type with isArray, isOptional, literal }

theorem eq_of_mem_someArguments
    {arguments types : List AttributeType} (h : types ∈ someArguments arguments) :
    types = arguments := by
  unfold someArguments at h
  split at h
  · cases h
  · exact (Option.some.inj h).symm

section Invariants

variable {P : AttributeType → Prop} (hinvariant : IsInvariant P)

include hinvariant

theorem IsInvariant.ofKeyword
    (name : String) :
    P (ofKeyword name) := by
  unfold AttributeType.ofKeyword
  split
  · rename_i hprimitive
    exact hinvariant.primitive name (List.contains_iff_mem.mp hprimitive)
  · exact hinvariant.unknown

theorem IsInvariant.ofReference
    {name : String} (hname : IsDottedName name) {arguments : List AttributeType}
    (h : ∀ argument ∈ arguments, P argument) :
    P (ofReference name arguments) := by
  unfold AttributeType.ofReference
  split
  · split
    · exact hinvariant.marked _ _ _ _ (h _ List.mem_cons_self)
    · exact hinvariant.named name _ hname h
  · exact hinvariant.named name _ hname h

theorem IsInvariant.ofUnion
    {members : List AttributeType} (hlength : 1 < members.length)
    (h : ∀ member ∈ members, P member) :
    P (ofUnion members) := by
  obtain ⟨single, hsingle, isOptional, hunion⟩ | ⟨isOptional, hunion⟩ := ofUnion_cases members
  · rw [hunion]
    exact hinvariant.marked single _ _ _ (h single hsingle)
  · rw [hunion]
    exact hinvariant.union members isOptional hlength h

theorem IsInvariant.ofLiteral
    (value : Option Literal) :
    P (ofLiteral value) := by
  cases value with
  | none => exact hinvariant.unknown
  | some value =>
    have hname : literalName value ∈ primitiveNames := by
      cases value <;> simp [literalName, primitiveNames]
    exact hinvariant.marked _ _ _ _ (hinvariant.primitive _ hname)

end Invariants

mutual

theorem IsInvariant.resolve
    {P : AttributeType → Prop} (hinvariant : IsInvariant P) :
    (type : TypeExpr) → type.HasDottedNames → type.HasBranchingUnions → P (resolve type)
  | .keyword name, _, _ => hinvariant.ofKeyword name
  | .reference name arguments, hnames, hunions =>
    hinvariant.ofReference (hnames name .reference)
      (hinvariant.resolveAll arguments (fun _ hmem _ hmentions => hnames _ (.argument hmem hmentions))
        fun _ hmem _ hreaches => hunions _ (.argument hmem hreaches))
  | .array element, hnames, hunions =>
    hinvariant.marked _ _ _ _ (hinvariant.resolve element
      (fun _ hmentions => hnames _ (.array hmentions)) fun _ hreaches => hunions _ (.element hreaches))
  | .union members, hnames, hunions => by
    refine hinvariant.ofUnion ?_ (hinvariant.resolveAll members
      (fun _ hmem _ hmentions => hnames _ (.member hmem hmentions))
      fun _ hmem _ hreaches => hunions _ (.member hmem hreaches))
    rw [resolveAll_eq_map, List.length_map]
    exact hunions members (.self _)
  | .literal value, _, _ => hinvariant.ofLiteral value
  | .intersection _, _, _ | .template _, _, _ | .object _, _, _ | .mapped .., _, _ | .tuple _, _, _
  | .function .., _, _ | .parenthesized _, _, _ | .operator .., _, _ | .query _, _, _
  | .indexed .., _, _ | .conditional .., _, _ => hinvariant.unknown

theorem IsInvariant.resolveAll
    {P : AttributeType → Prop} (hinvariant : IsInvariant P) :
    (types : List TypeExpr) → (∀ type ∈ types, type.HasDottedNames) →
      (∀ type ∈ types, type.HasBranchingUnions) → ∀ type ∈ resolveAll types, P type
  | [], _, _ => List.forall_mem_nil _
  | type :: rest, hnames, hunions => by
    obtain ⟨hname, hnames⟩ := List.forall_mem_cons.mp hnames
    obtain ⟨hunion, hunions⟩ := List.forall_mem_cons.mp hunions
    exact List.forall_mem_cons.mpr
      ⟨hinvariant.resolve type hname hunion, hinvariant.resolveAll rest hnames hunions⟩

end

section Diagrams

variable {P : AttributeType → Prop} (hinvariant : IsInvariant P)

include hinvariant

theorem IsInvariant.of_members
    {members : List Member} (h : ∀ member ∈ members, member.Annotates TypeExpr.IsRegular) :
    ∀ field ∈ members.filterMap Attribute.ofMember?, P field.type := by
  intro field hfield
  obtain ⟨member, hmember, hfield⟩ := List.mem_filterMap.mp hfield
  have hannotated := h member hmember
  cases member with
  | property name nameKind type isOptional isReadonly docs =>
    have htype : P (resolve? type) := by
      cases type with
      | none => exact hinvariant.unknown
      | some type =>
        obtain ⟨hnames, hunions⟩ := hannotated type rfl
        exact hinvariant.resolve type hnames hunions
    cases nameKind with
    | identifier | string =>
      obtain rfl := Option.some.inj hfield
      exact hinvariant.marked _ _ _ _ htype
    | numeric | computed => cases hfield
  | _ => cases hfield

/-- The property holds of the types of all attributes that were read. -/
theorem IsInvariant.of_ofText
    {name text : String} {diagram : Diagram} (h : Diagram.ofText name text = .ok diagram) :
    ∀ entity ∈ diagram.entities, ∀ field ∈ entity.attributes, P field.type := by
  obtain ⟨file, hfile, -, hentities⟩ := Diagram.exists_file_of_ofText h
  intro entity hentity
  obtain ⟨statement, hstatement, members, hdeclares, hattributes⟩ := hentities entity hentity
  rw [hattributes]
  exact hinvariant.of_members
    (hdeclares.annotates (SourceFile.regular_of_ofText hfile statement hstatement)).2

end Diagrams

end AttributeType

end EntityDiagram.Model
