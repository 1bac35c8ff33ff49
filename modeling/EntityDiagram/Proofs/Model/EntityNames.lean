import EntityDiagram.Proofs.Model.GraphInvariant
import EntityDiagram.Proofs.Model.ReadTypes

/-!
# Names in diagrams that are read from texts

An entity is named like its declaration, so its name consists of the characters of names. The names in
the types of attributes are dotted names, names of primitive types, or such names with bars between
them; no line break occurs in them. The names of attributes may be strings and are not restricted.
-/

namespace EntityDiagram.Model

open Declaration (Member SourceFile TypeExpr)

/-! ## Types -/

/-- No line break occurs in the name of the type or in that of an argument. -/
inductive AttributeType.IsOneLine : AttributeType → Prop
  | mk {type : AttributeType} (hname : .scalar '\n' ∉ type.name.toList)
      (harguments : ∀ types ∈ type.arguments, ∀ argument ∈ types, argument.IsOneLine) :
    AttributeType.IsOneLine type

namespace AttributeType

theorem IsOneLine.name
    {type : AttributeType} (h : type.IsOneLine) :
    .scalar '\n' ∉ type.name.toList := by
  cases h with
  | mk hname _ => exact hname

theorem IsOneLine.arguments
    {type : AttributeType} (h : type.IsOneLine) :
    ∀ types ∈ type.arguments, ∀ argument ∈ types, argument.IsOneLine := by
  cases h with
  | mk _ harguments => exact harguments

/-- Only names matter. -/
theorem IsOneLine.congr
    {type type' : AttributeType} (h : type.IsOneLine) (hname : type'.name = type.name)
    (harguments : type'.arguments = type.arguments) :
    type'.IsOneLine :=
  ⟨hname ▸ h.name, harguments ▸ h.arguments⟩

theorem isOneLine_of_name
    {name : Text} (h : .scalar '\n' ∉ name.toList) (isPrimitive : Bool) :
    IsOneLine { name, isPrimitive } :=
  ⟨h, nofun⟩

theorem isOneLine_named
    {name : Text} (hname : .scalar '\n' ∉ name.toList) {arguments : List AttributeType}
    (harguments : ∀ argument ∈ arguments, argument.IsOneLine) :
    (named name arguments).IsOneLine := by
  refine ⟨hname, fun types htypes => ?_⟩
  obtain rfl := eq_of_mem_someArguments htypes
  exact harguments

/-- Between the names of a union stand bars and spaces. -/
theorem newline_notMem_intercalate
    {names : List Text} (h : ∀ name ∈ names, .scalar '\n' ∉ name.toList) :
    .scalar '\n' ∉ (Text.intercalate " | " names).toList := by
  induction names with
  | nil => decide
  | cons first rest ih =>
    obtain ⟨hfirst, hrest⟩ := List.forall_mem_cons.mp h
    have hmore := ih hrest
    cases rest with
    | nil => simpa using hfirst
    | cons second rest =>
      rw [Text.intercalate_cons_cons]
      simp only [Text.toList_append, List.mem_append, not_or]
      exact ⟨⟨hfirst, by decide⟩, hmore⟩

theorem isInvariant_isOneLine :
    IsInvariant IsOneLine where
  unknown := isOneLine_of_name (by decide) false
  primitive name hname := by
    have hnames : ∀ primitive ∈ primitiveNames, .scalar '\n' ∉ primitive.toList := by decide +kernel
    exact isOneLine_of_name (hnames name hname) true
  named name arguments hname harguments :=
    isOneLine_named (mt Text.scalar_mem_scalars.mp (hname.notMem (by decide) (by decide)))
      harguments
  union members isOptional _ hmembers := by
    refine ⟨newline_notMem_intercalate fun name hname => ?_, nofun⟩
    obtain ⟨member, hmember, rfl⟩ := List.mem_map.mp hname
    exact (hmembers member hmember).name
  marked type isArray isOptional literal h := h.congr rfl rfl

end AttributeType

/-! ## Attributes and entities -/

/-- What is known of an attribute that was read, apart from its name. -/
structure Attribute.IsOneLine (field : Attribute) : Prop where
  type : field.type.IsOneLine
  key : ∀ role ∈ field.key, .scalar '\n' ∉ role.mark.toList

/-- What is known of an entity that was read. -/
structure Entity.IsNamed (entity : Entity) : Prop where
  name : IsRecordName entity.name
  attributes : ∀ field ∈ entity.attributes, field.IsOneLine

/-- The roles that documentation and names give. -/
def KeyRole.inferred : List KeyRole :=
  [primary, foreign, unique]

theorem KeyRole.mem_inferred_of_infer?
    {name : Text} {docs : Option Declaration.Documentation} {role : KeyRole}
    (h : infer? name docs = some role) :
    role ∈ inferred := by
  have htags : ∀ entry ∈ tagNames, entry.2 ∈ inferred := by decide
  obtain hdocs | ⟨-, hname⟩ := Option.or_eq_some_iff.mp h
  · obtain ⟨docs, -, hdocs⟩ := Option.bind_eq_some_iff.mp hdocs
    obtain ⟨entry, hentry, rfl⟩ := Option.map_eq_some_iff.mp hdocs
    exact htags entry (List.mem_of_find?_eq_some hentry)
  · unfold ofName? at hname
    split_ifs at hname
    · obtain rfl := Option.some.inj hname
      decide
    · obtain rfl := Option.some.inj hname
      decide

theorem Attribute.mem_inferred_key
    {member : Member} {field : Attribute} (h : ofMember? member = some field) :
    ∀ role ∈ field.key, role ∈ KeyRole.inferred := by
  cases member with
  | property name nameKind =>
    cases nameKind with
    | identifier | string =>
      obtain rfl := Option.some.inj h
      exact fun _ hrole => KeyRole.mem_inferred_of_infer? hrole
    | numeric | computed => cases h
  | _ => cases h

theorem Attribute.isOneLine_of_members
    {members : List Member} (h : ∀ member ∈ members, member.Annotates TypeExpr.IsRegular) :
    ∀ field ∈ members.filterMap ofMember?, field.IsOneLine := by
  intro field hfield
  obtain ⟨member, -, hmember⟩ := List.mem_filterMap.mp hfield
  have hmarks : ∀ role ∈ KeyRole.inferred, .scalar '\n' ∉ role.mark.toList := by decide
  exact ⟨AttributeType.isInvariant_isOneLine.of_members h field hfield,
    fun role hrole => hmarks role (mem_inferred_key hmember role hrole)⟩

/-! ## Diagrams -/

/-- What is known of a diagram that was read: its entities, and the ends of its relationships. -/
structure Diagram.IsNamed (diagram : Diagram) : Prop where
  entities : ∀ entity ∈ diagram.entities, entity.IsNamed
  sources : ∀ link ∈ diagram.relationships, IsRecordName link.source
  targets : ∀ link ∈ diagram.relationships, IsRecordName link.target

theorem Diagram.isNamed_of_ofText
    {name text : String} {diagram : Diagram} (h : Diagram.ofText name text = .ok diagram) :
    diagram.IsNamed := by
  obtain ⟨file, hfile, rfl, hdeclared⟩ := exists_file_of_ofText h
  have hentities : ∀ entity ∈ (ofFiles [file]).entities, entity.IsNamed := by
    intro entity hentity
    obtain ⟨statement, hstatement, members, hdeclares, hattributes⟩ := hdeclared entity hentity
    obtain ⟨hname, hmembers⟩ :=
      hdeclares.annotates (SourceFile.regular_of_ofText hfile statement hstatement)
    exact ⟨hname, hattributes ▸ Attribute.isOneLine_of_members hmembers⟩
  have hnames : ∀ name ∈ (ofFiles [file]).entities.map Entity.name, IsRecordName name := by
    intro name hmem
    obtain ⟨entity, hentity, rfl⟩ := List.mem_map.mp hmem
    exact (hentities entity hentity).name
  have hedges := (isGraph_ofFiles [file]).edges
  exact ⟨hentities, fun link hlink => hnames _ (hedges link hlink).source,
    fun link hlink => hnames _ (hedges link hlink).target⟩

end EntityDiagram.Model
