import EntityDiagram.Proofs.Model.EntityMembers
import EntityDiagram.Proofs.Model.RelationshipRules
import EntityDiagram.Proofs.Model.TypeCoherence

/-!
# Entities that are added

References and parents that are found among some entities are found among more of them. The rule
for foreign keys is not monotone: the name of a key type may turn out to be the name of an entity
that is added, and then the attribute refers to this entity instead. No other key is lost. So a
diagram of the files of two lists has the keys of the two diagrams merged, apart from such foreign
keys.
-/

namespace EntityDiagram.Model

open Declaration (Member SourceFile TypeExpr)

/-! ## References have targets -/

/-- A reference has its name as its target. -/
def AttributeType.NamesTarget (type : AttributeType) : Prop :=
  type.isReference = true → type.target = some type.name

theorem AttributeType.IsCoherent.namesTarget
    {type : AttributeType} (h : type.IsCoherent) :
    type.NamesTarget := by
  intro hreference
  obtain ⟨name, hname⟩ := Option.isSome_iff_exists.mp (h.reference.mp hreference)
  rw [hname, h.target name hname]

theorem AttributeType.namesTarget_resolve?
    (type : Option TypeExpr) :
    (resolve? type).NamesTarget := by
  cases type with
  | none => exact (isWellFormed_unknown _ (.self _)).namesTarget
  | some type => exact (isWellFormed_resolve type _ (.self _)).namesTarget

theorem namesTarget_ofMember?
    {member : Member} {field : Attribute} (h : Attribute.ofMember? member = some field) :
    field.type.NamesTarget := by
  cases member with
  | property name nameKind type isOptional isReadonly docs =>
    cases nameKind with
    | identifier | string =>
      obtain rfl := Option.some.inj h
      exact AttributeType.namesTarget_resolve? type
    | numeric | computed => cases h
  | _ => cases h

/-- The attributes of what was read from files are attributes of members. -/
theorem namesTarget_of_mem_listOfFile
    {file : SourceFile} {entity : Entity} (hentity : entity ∈ Entity.listOfFile file)
    {field : Attribute} (hfield : field ∈ entity.attributes) :
    field.type.NamesTarget := by
  obtain ⟨statement, -, members, -, hattributes⟩ := Entity.exists_declares_of_mem_listOfFile hentity
  rw [hattributes] at hfield
  obtain ⟨member, -, hmember⟩ := List.mem_filterMap.mp hfield
  exact namesTarget_ofMember? hmember

theorem namesTarget_of_mem_ofFiles
    {files : List SourceFile} {entity : Entity}
    (hentity : entity ∈ (Diagram.ofFiles files).entities) (field : Attribute)
    (hfield : field ∈ entity.attributes) :
    field.type.NamesTarget := by
  obtain ⟨file, -, hentity⟩ := List.mem_flatMap.mp hentity
  exact namesTarget_of_mem_listOfFile hentity hfield

/-! ## The rules among more names -/

theorem RefersTo.mono
    {names names' : List Text} {field : Attribute} {target : Text}
    (h : RefersTo names field target) (hsub : names ⊆ names') :
    RefersTo names' field target :=
  { h with known := hsub h.known }

theorem RefersTo.typeName_eq
    {names : List Text} {field : Attribute} {target : Text}
    (h : RefersTo names field target) :
    typeName field.type = target := by
  rw [typeName, h.resolved]
  exact if_neg h.nonempty

/-- A key names an entity among more names as well, unless its type now refers to one. -/
theorem NamesKeyOf.namesKeyOf_or_refersTo
    {names names' : List Text} {field : Attribute} {target : Text}
    (h : NamesKeyOf names field target) (hsub : names ⊆ names') :
    NamesKeyOf names' field target ∨
      RefersTo names' field (typeName field.type) ∧ typeName field.type ∉ names := by
  by_cases hrefers : ∃ other, RefersTo names' field other
  · obtain ⟨other, hother⟩ := hrefers
    right
    rw [hother.typeName_eq]
    -- Had its name been known, the attribute would have referred to that entity before.
    refine ⟨hother, fun hknown => ?_⟩
    exact h.refersToNone other { hother with known := hknown }
  · left
    exact { h with refersToNone := not_exists.mp hrefers, known := hsub h.known }

theorem NamesKeyOf.typeName_ne_empty
    {names : List Text} {field : Attribute} {target : Text}
    (h : NamesKeyOf names field target) :
    typeName field.type ≠ "" := by
  rw [h.named, ne_eq, ← Text.toList_eq_nil_iff]
  simp

/-- A reference whose name is known refers to the entity with this name. -/
theorem AttributeType.NamesTarget.refersTo
    {names : List Text} {field : Attribute} (h : field.type.NamesTarget)
    (hreference : field.type.isReference = true) (hnonempty : typeName field.type ≠ "")
    (hknown : typeName field.type ∈ names) :
    RefersTo names field (typeName field.type) := by
  have htarget := h hreference
  have hname : typeName field.type = field.type.name := by simp [typeName, htarget]
  exact ⟨hreference, by rw [htarget, hname], hnonempty, hknown⟩

namespace Relationship

theorem candidates_subset
    {entities whole : List Entity} (hsub : entities ⊆ whole) :
    candidates entities ⊆ candidates whole := by
  intro candidate hcandidate
  obtain ⟨entity, hentity, hkind⟩ := mem_candidates_iff.mp hcandidate
  exact mem_candidates_iff.mpr ⟨entity, hsub hentity, hkind⟩

theorem mem_attributes_of_mem_candidates
    {entities : List Entity} {entity : Entity} {field : Attribute}
    (h : (entity, Sum.inl field) ∈ candidates entities) :
    entity ∈ entities ∧ field ∈ entity.attributes := by
  obtain ⟨owner, howner, ⟨own, hown, heq⟩ | ⟨parent, -, heq⟩⟩ := mem_candidates_iff.mp h
  · cases heq
    exact ⟨howner, hown⟩
  · cases heq

theorem mem_keys_derive_of_yields
    {entities : List Entity} {candidate : Candidate} {link : Relationship}
    (hcandidate : candidate ∈ candidates entities)
    (hyields : Yields (entities.map Entity.name) candidate link) :
    link.key ∈ (derive entities).map key :=
  (mem_keys_derive_iff_exists entities link.key).mpr ⟨candidate, hcandidate, link, hyields, rfl⟩

/-! ## Adding entities -/

/-- The only way in which a key is lost when entities are added: it is that of a foreign key, and
the name of its type, a reference, is the name of an entity that was added. The reference to this
entity is there instead. -/
def Displaced (entities added : List Entity) (k : Text × Text × Text) : Prop :=
  ∃ entity ∈ entities, ∃ field ∈ entity.attributes, ∃ target,
    k = (entity.name, target, field.name) ∧
      NamesKeyOf (entities.map Entity.name) field target ∧
      field.type.isReference = true ∧ typeName field.type ∈ added.map Entity.name ∧
      (entity.name, typeName field.type, field.name) ∈ (derive (entities ++ added)).map key

theorem displaced_of_lost
    {entities added : List Entity} {k : Text × Text × Text}
    (hkey : k ∈ (derive entities).map key) (hlost : k ∉ (derive (entities ++ added)).map key) :
    Displaced entities added k := by
  have hnames : entities.map Entity.name ⊆ (entities ++ added).map Entity.name := by
    rw [List.map_append]
    exact List.subset_append_left _ _
  obtain ⟨candidate, hcandidate, link, hyields, rfl⟩ :=
    (mem_keys_derive_iff_exists entities k).mp hkey
  have hmore := candidates_subset (List.subset_append_left entities added) hcandidate
  cases hyields with
  | reference hrefers =>
    exact absurd (mem_keys_derive_of_yields hmore (.reference (hrefers.mono hnames))) hlost
  | parent hknown =>
    exact absurd (mem_keys_derive_of_yields hmore (.parent (hnames hknown))) hlost
  | @foreignKey entity field target hnamed =>
    obtain hstill | ⟨hrefers, hnew⟩ := hnamed.namesKeyOf_or_refersTo hnames
    · exact absurd (mem_keys_derive_of_yields hmore (.foreignKey hstill)) hlost
    · have hadded : typeName field.type ∈ added.map Entity.name := by
        have hknown := hrefers.known
        rw [List.map_append, List.mem_append] at hknown
        exact hknown.resolve_left hnew
      obtain ⟨hentity, hfield⟩ := mem_attributes_of_mem_candidates hcandidate
      exact ⟨entity, hentity, field, hfield, target, rfl, hnamed, hrefers.isReference, hadded,
        mem_keys_derive_of_yields hmore (.reference hrefers)⟩

/-- What becomes of a relationship that comes from a candidate, by the rule that it comes from, in
the relationships of more entities. -/
structure Kept
    (names added : List Text) (whole : List Relationship) (candidate : Candidate)
    (link : Relationship) : Prop where
  reference : ∀ field target, candidate.2 = .inl field → RefersTo names field target →
    link.key ∈ whole.map key
  parent : ∀ name, candidate.2 = .inr name → link.key ∈ whole.map key
  foreignKey : ∀ field target, candidate.2 = .inl field → NamesKeyOf names field target →
    if field.type.isReference = true ∧ typeName field.type ∈ added then
      (link.source, typeName field.type, link.label) ∈ whole.map key
    else link.key ∈ whole.map key

theorem kept_of_subset
    {entities whole : List Entity} {added : List Text} (hsub : entities ⊆ whole)
    (hnames : ∀ name, name ∈ whole.map Entity.name ↔
      name ∈ entities.map Entity.name ∨ name ∈ added)
    (htypes : ∀ entity ∈ entities, ∀ field ∈ entity.attributes, field.type.NamesTarget)
    {candidate : Candidate} (hcandidate : candidate ∈ candidates entities) {link : Relationship}
    (hyields : Yields (entities.map Entity.name) candidate link) :
    Kept (entities.map Entity.name) added (derive whole) candidate link := by
  have hknown : entities.map Entity.name ⊆ whole.map Entity.name :=
    fun name hname => (hnames name).mpr (.inl hname)
  have hmore := candidates_subset hsub hcandidate
  cases hyields with
  | reference hrefers =>
    have hkey := mem_keys_derive_of_yields hmore (.reference (hrefers.mono hknown))
    refine ⟨fun _ _ _ _ => hkey, fun _ _ => hkey, ?_⟩
    rintro field target ⟨⟩ hnamed
    exact absurd hrefers (hnamed.refersToNone _)
  | parent hparent =>
    have hkey := mem_keys_derive_of_yields hmore (.parent (hknown hparent))
    refine ⟨fun _ _ _ _ => hkey, fun _ _ => hkey, ?_⟩
    rintro field target ⟨⟩
  | @foreignKey entity field target hnamed =>
    constructor
    · rintro _ other ⟨⟩ hrefers
      exact absurd hrefers (hnamed.refersToNone other)
    · rintro name ⟨⟩
    · rintro _ _ ⟨⟩ -
      split
      · rename_i hadded
        obtain ⟨hentity, hfield⟩ := mem_attributes_of_mem_candidates hcandidate
        have hrefers := (htypes entity hentity field hfield).refersTo hadded.1
          hnamed.typeName_ne_empty ((hnames _).mpr (.inr hadded.2))
        exact mem_keys_derive_of_yields hmore (.reference hrefers)
      · rename_i hnone
        obtain hstill | ⟨hrefers, hnew⟩ := hnamed.namesKeyOf_or_refersTo hknown
        · exact mem_keys_derive_of_yields hmore (.foreignKey hstill)
        · have hadded := ((hnames _).mp hrefers.known).resolve_left hnew
          exact absurd ⟨hrefers.isReference, hadded⟩ hnone

/-! ## Two lists of files -/

theorem mem_merge_pair
    {first second : Diagram} {link : Relationship}
    (h : link ∈ (Diagram.merge [first, second]).relationships) :
    link ∈ first.relationships ∨ link ∈ second.relationships := by
  have hmem := mem_of_mem_distinct h
  simpa using hmem

/-- The relationship was found in one of two lists of files, and the files of both have it as well,
up to foreign keys whose type the other list declares. -/
structure KeptJointly (files files' : List SourceFile) (link : Relationship) : Prop where
  /-- It was derived from one of the lists. -/
  origin :
    (∃ candidate ∈ candidates (Diagram.ofFiles files).entities,
        Yields ((Diagram.ofFiles files).entities.map Entity.name) candidate link) ∨
      ∃ candidate ∈ candidates (Diagram.ofFiles files').entities,
        Yields ((Diagram.ofFiles files').entities.map Entity.name) candidate link
  /-- What it comes from in the first list keeps it when the second list is added. -/
  first : ∀ candidate ∈ candidates (Diagram.ofFiles files).entities,
    Yields ((Diagram.ofFiles files).entities.map Entity.name) candidate link →
      Kept ((Diagram.ofFiles files).entities.map Entity.name)
        ((Diagram.ofFiles files').entities.map Entity.name)
        (Diagram.ofFiles (files ++ files')).relationships candidate link
  /-- What it comes from in the second list keeps it when the first list is added. -/
  second : ∀ candidate ∈ candidates (Diagram.ofFiles files').entities,
    Yields ((Diagram.ofFiles files').entities.map Entity.name) candidate link →
      Kept ((Diagram.ofFiles files').entities.map Entity.name)
        ((Diagram.ofFiles files).entities.map Entity.name)
        (Diagram.ofFiles (files ++ files')).relationships candidate link

theorem entities_ofFiles_append
    (files files' : List SourceFile) :
    (Diagram.ofFiles (files ++ files')).entities =
      (Diagram.ofFiles files).entities ++ (Diagram.ofFiles files').entities :=
  List.flatMap_append

theorem keptJointly_of_mem_merge
    {files files' : List SourceFile} {link : Relationship}
    (h : link ∈
      (Diagram.merge [Diagram.ofFiles files, Diagram.ofFiles files']).relationships) :
    KeptJointly files files' link := by
  have hwhole := entities_ofFiles_append files files'
  have hfirst :
      (Diagram.ofFiles files).entities ⊆ (Diagram.ofFiles (files ++ files')).entities := by
    rw [hwhole]
    exact List.subset_append_left _ _
  have hsecond :
      (Diagram.ofFiles files').entities ⊆ (Diagram.ofFiles (files ++ files')).entities := by
    rw [hwhole]
    exact List.subset_append_right _ _
  have hnames : ∀ name,
      name ∈ (Diagram.ofFiles (files ++ files')).entities.map Entity.name ↔
        name ∈ (Diagram.ofFiles files).entities.map Entity.name ∨
          name ∈ (Diagram.ofFiles files').entities.map Entity.name := by
    intro name
    rw [hwhole, List.map_append, List.mem_append]
  constructor
  · obtain hlink | hlink := mem_merge_pair h
    · exact .inl (exists_yields_of_mem_derive hlink)
    · exact .inr (exists_yields_of_mem_derive hlink)
  · intro candidate hcandidate hyields
    exact kept_of_subset hfirst hnames (fun _ => namesTarget_of_mem_ofFiles) hcandidate hyields
  · intro candidate hcandidate hyields
    exact kept_of_subset hsecond (fun name => (hnames name).trans or_comm)
      (fun _ => namesTarget_of_mem_ofFiles) hcandidate hyields

/-- Entities that are added displace foreign keys and no other relationship; and what two lists of
files have when they are read one by one they have, in the same sense, when they are read
together. -/
theorem derive_keeps_keys :
    (∀ (entities added : List Entity) (k : Text × Text × Text),
      k ∈ (derive entities).map key → k ∉ (derive (entities ++ added)).map key →
        Displaced entities added k) ∧
    ∀ (files files' : List SourceFile) (link : Relationship),
      link ∈ (Diagram.merge [Diagram.ofFiles files, Diagram.ofFiles files']).relationships →
        KeptJointly files files' link := by
  constructor
  · intro entities added k hkey hlost
    exact displaced_of_lost hkey hlost
  · intro files files' link h
    exact keptJointly_of_mem_merge h

/-- A key of a user, until the type of the key is declared as an entity. -/
example :
    let owner : Attribute :=
      { name := "ownerId", type := AttributeType.named "UserId" [], key := some .foreign }
    let entities : List Entity := [{ name := "Order", attributes := [owner] }, { name := "User" }]
    (derive entities).map key = [(("Order", "User", "ownerId") : Text × Text × Text)] ∧
      (derive (entities ++ [{ name := "UserId" }])).map key =
        [(("Order", "UserId", "ownerId") : Text × Text × Text)] := by
  decide

end Relationship

end EntityDiagram.Model
