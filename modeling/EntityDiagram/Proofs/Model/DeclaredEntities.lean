import Mathlib.Data.List.Forall2
import EntityDiagram.Model.Entity
import EntityDiagram.Proofs.Declaration.FileReading

/-!
# The entities of a file

A file declares one entity for each of its records, in the order of the records: the interfaces, and
the aliases of object types. An entity has one attribute for each field of its record, again in order.
Together with the law that declarations come back from their spelling this says which entities a list
of tokens stands for.
-/

namespace EntityDiagram.Model

open Declaration (Alias Declared Documentation Heritage Interface Member SourceFile Spells
  Statement TypeExpr isKey_ofString isReferenceName predicateLikeType spells_tokensOnLine tokensOnLine)
open Source (Token)

/-- A property whose key is a name or a string. -/
def isField : Member → Bool
  | .property _ nameKind .. => nameKind == .identifier || nameKind == .string
  | _ => false

/-- An interface, or an alias of an object type. -/
def isRecord : Statement → Bool
  | .interface _ => true
  | .alias ⟨_, .object _, _, _⟩ => true
  | _ => false

/-- The attribute has the name and the type of the property, and the property's own question mark.
Its documentation is that of the property, and its key is the one that this or the name gives. -/
inductive IsFieldOf : Attribute → Member → Prop
  | property {field : Attribute} {nameKind type isOptional isReadonly docs}
      (htype : field.type = { AttributeType.resolve? type with isOptional })
      (hdocs : field.docs = docs.bind Documentation.tidy?)
      (hkey : field.key = KeyRole.infer? field.name field.docs) :
    IsFieldOf field (.property field.name nameKind type isOptional isReadonly docs)

/-- The short text of the type that an annotation stands for. -/
def annotationText (type : TypeExpr) : Text :=
  (AttributeType.resolve type).shortText

/-- The type parameter has the name of the declared one, and texts for its bound and its default
where these are declared. -/
structure IsParameterOf
    (parameter : TypeParameter) (declared : Declaration.TypeParameter) : Prop where
  name : parameter.name = declared.name
  bound : parameter.bound = declared.bound.map annotationText
  default : parameter.default = declared.default.map annotationText

/-- The entity keeps the list, and has none in place of an empty one. -/
structure Keeps {α : Type} (kept : Option (List α)) (items : List α) : Prop where
  getD : kept.getD [] = items
  ne_nil : kept ≠ some []

/-- The entity has the name, the type parameters and the documentation of the record, its fields as
attributes and, if it is an interface, the plain names that it extends as parents. -/
inductive IsRecordOf (file : String) : Entity → Statement → Prop
  | interface {entity : Entity} {declaration : Interface} {parameters : List TypeParameter}
      (hname : entity.name = declaration.name) (hkind : entity.kind = .interface)
      (hfile : entity.file = some file) (hkept : Keeps entity.parameters parameters)
      (hparameters : List.Forall₂ IsParameterOf parameters declaration.parameters)
      (hattributes :
        List.Forall₂ IsFieldOf entity.attributes (declaration.members.filter isField))
      (hparents : Keeps entity.parents (((declaration.heritage.map Heritage.expression).filter
        fun name => '.' ∉ name.toList).map Text.ofString))
      (hdocs : entity.docs = declaration.docs.bind Documentation.tidy?) :
    IsRecordOf file entity (.interface declaration)
  | typeAlias {entity : Entity} {declaration : Alias} {members : List Member}
      {parameters : List TypeParameter}
      (hname : entity.name = declaration.name) (hkind : entity.kind = .alias)
      (hfile : entity.file = some file) (hobject : declaration.type = .object members)
      (hkept : Keeps entity.parameters parameters)
      (hparameters : List.Forall₂ IsParameterOf parameters declaration.parameters)
      (hattributes : List.Forall₂ IsFieldOf entity.attributes (members.filter isField))
      (hparents : entity.parents = none)
      (hdocs : entity.docs = declaration.docs.bind Documentation.tidy?) :
    IsRecordOf file entity (.alias declaration)

/-- What a partial function gives stands in the order of the items that it is defined on. -/
theorem forall₂_filterMap
    {α β : Type} {f : β → Option α} {p : β → Bool} {r : α → β → Prop}
    (hsome : ∀ b a, f b = some a → p b = true ∧ r a b) (hnone : ∀ b, f b = none → p b = false)
    (items : List β) :
    List.Forall₂ r (items.filterMap f) (items.filter p) := by
  induction items with
  | nil => exact .nil
  | cons b items ih =>
    cases hb : f b with
    | none =>
      rw [List.filterMap_cons_none hb, List.filter_cons_of_neg (by simp [hnone b hb])]
      exact ih
    | some a =>
      obtain ⟨hp, hr⟩ := hsome b a hb
      rw [List.filterMap_cons_some hb, List.filter_cons_of_pos hp]
      exact .cons hr ih

theorem attributes_forall₂
    (members : List Member) :
    List.Forall₂ IsFieldOf (members.filterMap Attribute.ofMember?) (members.filter isField) := by
  refine forall₂_filterMap ?_ ?_ members
  · intro member field hfield
    cases member with
    | property name nameKind type isOptional isReadonly docs =>
      cases nameKind with
      | identifier | string =>
        obtain rfl := Option.some.inj hfield
        exact ⟨rfl, .property rfl rfl rfl⟩
      | numeric | computed => simp [Attribute.ofMember?] at hfield
    | _ => simp [Attribute.ofMember?] at hfield
  · intro member hnone
    cases member with
    | property name nameKind => cases nameKind <;> simp_all [Attribute.ofMember?, isField]
    | _ => rfl

theorem keeps_someList
    {α : Type} (items : List α) :
    Keeps (someList items) items := by
  unfold someList
  cases items with
  | nil => exact ⟨rfl, nofun⟩
  | cons => exact ⟨rfl, by simp⟩

theorem parameters_forall₂
    (parameters : List Declaration.TypeParameter) :
    List.Forall₂ IsParameterOf (parameters.map TypeParameter.ofDeclared) parameters :=
  List.forall₂_map_left_iff.mpr (List.forall₂_same.mpr fun _ _ => ⟨rfl, rfl, rfl⟩)

theorem isRecordOf_ofInterface
    (declaration : Interface) (file : String) :
    IsRecordOf file (Entity.ofInterface declaration file) (.interface declaration) := by
  have hplain : ((declaration.heritage.map Heritage.expression).filter
      fun name => '.' ∉ name.toList) =
        (declaration.heritage.filter Heritage.isPlain).map Heritage.expression := by
    rw [List.filter_map]
    congr 1
    refine List.filter_congr fun entry _ => ?_
    simp [Heritage.isPlain]
  refine .interface rfl rfl rfl (keeps_someList _) (parameters_forall₂ _) (attributes_forall₂ _) ?_ rfl
  rw [hplain, List.map_map]
  exact keeps_someList _

/-- A file declares one entity for each of its records, in order. -/
theorem listOfFile_forall₂
    (file : SourceFile) :
    List.Forall₂ (IsRecordOf file.name) (Entity.listOfFile file)
      (file.statements.filter isRecord) := by
  refine forall₂_filterMap ?_ ?_ file.statements
  · rintro (declaration | ⟨name, type, parameters, docs⟩ | keyword) entity hentity
    · obtain rfl := Option.some.inj hentity
      exact ⟨rfl, isRecordOf_ofInterface declaration file.name⟩
    · cases type with
      | object members =>
        obtain rfl := Option.some.inj hentity
        exact ⟨rfl, .typeAlias rfl rfl rfl rfl (keeps_someList _) (parameters_forall₂ parameters)
          (attributes_forall₂ members) rfl rfl⟩
      | _ => simp [Entity.ofStatement?, Entity.ofAlias?] at hentity
    · simp [Entity.ofStatement?] at hentity
  · rintro (declaration | ⟨name, type, parameters, docs⟩ | keyword) hnone
    · simp [Entity.ofStatement?] at hnone
    · cases type with
      | object members => simp [Entity.ofStatement?, Entity.ofAlias?] at hnone
      | _ => rfl
    · rfl

/-- The tokens of a file of declarations stand for these declarations, and its entities for the
records among them. -/
theorem listOfFile_of_spells
    {declarations : List Declared} (hwell : ∀ declared ∈ declarations, declared.WellFormed)
    {tokens : List Token} (htokens : Spells tokens (declarations.flatMap Declared.lexemes))
    (name : String) :
    Statement.listOfTokens tokens = .ok (declarations.map Declared.statement) ∧
      List.Forall₂ (IsRecordOf name)
        (Entity.listOfFile ⟨name, declarations.map Declared.statement⟩)
        ((declarations.map Declared.statement).filter isRecord) :=
  ⟨Declaration.statements_of_spells hwell htokens,
    listOfFile_forall₂ ⟨name, declarations.map Declared.statement⟩⟩

/-- An interface that extends another one, and an alias that is no record. -/
def exampleDeclarations : List Declared :=
  [⟨["export"], .interface {
      name := "Order"
      parameters := [⟨"T", some (.keyword "object"), none⟩,
        ⟨"U", none, some (.reference "Map" [.keyword "string", .reference "T" []])⟩]
      heritage := [⟨"Base.Record", [.reference "T" []]⟩]
      members := [
        .property "id" .string (some (.keyword "string")) false true none,
        .method "get" .identifier [.mk "key" none true false] none false none,
        .property "new" .identifier (some (.array (.reference "Item" []))) true false none] }⟩,
    ⟨[], .alias { name := "Id", type := .keyword "string" }⟩]

theorem exampleDeclarations_wellFormed :
    ∀ declared ∈ exampleDeclarations, declared.WellFormed := by
  have hobject : (TypeExpr.keyword "object").WellFormed := .keyword (by decide)
  have hstring : (TypeExpr.keyword "string").WellFormed := .keyword (by decide)
  have hname : ∀ name, isReferenceName name = true → (TypeExpr.reference name []).WellFormed :=
    fun _ hname => .reference hname (List.forall_mem_nil _)
  have hmap : (TypeExpr.reference "Map" [.keyword "string", .reference "T" []]).WellFormed :=
    .reference (by decide)
      (List.forall_mem_cons.mpr
        ⟨hstring, List.forall_mem_singleton.mpr (hname "T" (by decide))⟩)
  have hid : (Member.property "id" .string (some (.keyword "string")) false true none).WellFormed :=
    .property (by decide) (isKey_ofString _ _) fun _ ht => Option.some.inj ht ▸ hstring
  have hget : (Member.method "get" .identifier [.mk "key" none true false] none false
      none).WellFormed :=
    .method (by decide) (isKey_ofString _ _) (by decide)
      (List.forall_mem_singleton.mpr (.mk (by simp))) (by simp)
      (by simp)
  have hnew : (Member.property "new" .identifier (some (.array (.reference "Item" []))) true false
      none).WellFormed :=
    .property (by decide) (isKey_ofString _ _) fun _ ht =>
      Option.some.inj ht ▸ .array (by decide) (hname "Item" (by decide))
  refine List.forall_mem_cons.mpr ⟨.interface (by decide) ?_, List.forall_mem_singleton.mpr ?_⟩
  · exact {
      members := List.forall_mem_cons.mpr
        ⟨hid, List.forall_mem_cons.mpr ⟨hget, List.forall_mem_singleton.mpr hnew⟩⟩
      heritage := List.forall_mem_singleton.mpr
        (List.forall_mem_singleton.mpr (hname "T" (by decide)))
      parameters := List.forall_mem_cons.mpr
        ⟨⟨by decide, fun _ ht => Option.some.inj ht ▸ hobject, by simp⟩,
          List.forall_mem_singleton.mpr
            ⟨by decide, by simp, fun _ ht => Option.some.inj ht ▸ hmap⟩⟩
      docs := rfl }
  · exact .typeAlias (by decide) ⟨hstring, by simp, rfl⟩

theorem listOfFile_exampleDeclarations :
    (∀ declared ∈ exampleDeclarations, declared.WellFormed) ∧
      Spells (tokensOnLine (exampleDeclarations.flatMap Declared.lexemes))
        (exampleDeclarations.flatMap Declared.lexemes) ∧
      Statement.listOfTokens (tokensOnLine (exampleDeclarations.flatMap Declared.lexemes)) =
        .ok (exampleDeclarations.map Declared.statement) ∧
      List.Forall₂ (IsRecordOf "order.ts")
        (Entity.listOfFile ⟨"order.ts", exampleDeclarations.map Declared.statement⟩)
        ((exampleDeclarations.map Declared.statement).filter isRecord) :=
  ⟨exampleDeclarations_wellFormed, spells_tokensOnLine _,
    listOfFile_of_spells exampleDeclarations_wellFormed (spells_tokensOnLine _) "order.ts"⟩

/-- The name of a function type whose result starts like a type predicate. -/
def predicateLikeAlias : Declared :=
  ⟨[], .alias { name := "Key", type := predicateLikeType }⟩

/-- No declaration of a file comes back where one of them has a result like this. -/
theorem listOfTokens_predicateLikeAlias :
    (TypeExpr.operator "keyof" (.reference "is.Order" [])).WellFormed ∧
      Statement.listOfTokens (tokensOnLine predicateLikeAlias.lexemes) =
        .error ⟨.noType (some (.punct ".")),
          tokensOnLine [.punct ".", .ident "Order", .punct ";"]⟩ := by
  refine ⟨?_, rfl⟩
  have hreference : (TypeExpr.reference "is.Order" []).WellFormed :=
    .reference (by decide) (List.forall_mem_nil _)
  exact .operator (by decide) (by decide) hreference

end EntityDiagram.Model
