import EntityDiagram.Model.Diagram
import EntityDiagram.Proofs.Model.RelationshipRules

/-!
# Diagrams are graphs

However a diagram was put together from files and other diagrams, its relationships are the edges of
a graph on its entities: no two share a key, and both ends are entities of the same diagram. Their
cardinalities are those of references, and what is not identifying is optional.
-/

namespace EntityDiagram.Model

open Declaration (SourceFile)

/-- The diagram was built from files, or merged from diagrams of this kind. -/
inductive Assembled : Diagram → Prop
  | built (files : List SourceFile) : Assembled (Diagram.ofFiles files)
  | merged {diagrams : List Diagram} (h : ∀ diagram ∈ diagrams, Assembled diagram) :
    Assembled (Diagram.merge diagrams)

/-- The text of the cardinality ends in this way. -/
def Cardinality.EndsIn (cardinality : Cardinality) (ending : String) : Prop :=
  ending.toList <:+ cardinality.text.toList

instance (cardinality : Cardinality) (ending : String) : Decidable (cardinality.EndsIn ending) :=
  inferInstanceAs (Decidable (ending.toList <:+ cardinality.text.toList))

/-- The texts of the cardinalities of references. -/
def referenceCardinalities : List String :=
  ["one-to-one", "one-to-many", "one-to-zero-or-one", "one-to-zero-or-more"]

/-- The relationship is an edge between these names, with a cardinality that fits it. -/
structure IsEdgeAmong (names : List Text) (link : Relationship) : Prop where
  source : link.source ∈ names
  target : link.target ∈ names
  cardinality : link.cardinality.text ∈ referenceCardinalities
  isIdentifying : link.isIdentifying = false ↔
    link.cardinality.EndsIn "zero-or-one" ∨ link.cardinality.EndsIn "zero-or-more"

/-- The relationships are the edges of a graph on the entities. -/
structure Diagram.IsGraph (diagram : Diagram) : Prop where
  nodup : (diagram.relationships.map Relationship.key).Nodup
  edges : ∀ link ∈ diagram.relationships,
    IsEdgeAmong (diagram.entities.map Entity.name) link

theorem IsEdgeAmong.mono
    {names names' : List Text} {link : Relationship} (h : IsEdgeAmong names link)
    (hsub : names ⊆ names') :
    IsEdgeAmong names' link :=
  { h with
    source := hsub h.source
    target := hsub h.target }

theorem ofReference_text_mem
    (isArray isOptional : Bool) :
    (Cardinality.ofReference isArray isOptional).text ∈ referenceCardinalities := by
  cases isArray <;> cases isOptional <;> decide

/-- The zero of a cardinality is that of an optional reference. -/
theorem not_isOptional_eq_false_iff
    (isArray isOptional : Bool) :
    (!isOptional) = false ↔
      (Cardinality.ofReference isArray isOptional).EndsIn "zero-or-one" ∨
        (Cardinality.ofReference isArray isOptional).EndsIn "zero-or-more" := by
  cases isArray <;> cases isOptional <;> decide

theorem Yields.isEdgeAmong
    {names : List Text} {candidate : Candidate} {link : Relationship}
    (h : Yields names candidate link) (hsource : candidate.1.name ∈ names) :
    IsEdgeAmong names link := by
  cases h with
  | reference hrefers =>
    exact ⟨hsource, hrefers.known, ofReference_text_mem _ _, not_isOptional_eq_false_iff _ _⟩
  | foreignKey hnamed =>
    exact ⟨hsource, hnamed.known, ofReference_text_mem _ _, not_isOptional_eq_false_iff _ _⟩
  | parent hknown =>
    exact ⟨hsource, hknown, ofReference_text_mem false false,
      not_isOptional_eq_false_iff false false⟩

theorem isGraph_ofFiles
    (files : List SourceFile) :
    (Diagram.ofFiles files).IsGraph := by
  constructor
  · exact Relationship.nodup_keys_distinctFrom [] _
  · intro link hlink
    obtain ⟨candidate, hcandidate, hyields⟩ := Relationship.exists_yields_of_mem_derive hlink
    obtain ⟨entity, hentity, hkind⟩ := Relationship.mem_candidates_iff.mp hcandidate
    have howner : candidate.1 = entity := by
      obtain ⟨field, -, rfl⟩ | ⟨parent, -, rfl⟩ := hkind <;> rfl
    apply hyields.isEdgeAmong
    rw [howner]
    exact List.mem_map_of_mem hentity

theorem isGraph_merge
    {diagrams : List Diagram} (h : ∀ diagram ∈ diagrams, diagram.IsGraph) :
    (Diagram.merge diagrams).IsGraph := by
  constructor
  · exact Relationship.nodup_keys_distinctFrom [] _
  · intro link hlink
    obtain ⟨diagram, hdiagram, hown⟩ :=
      List.mem_flatMap.mp (Relationship.mem_of_mem_distinct hlink)
    apply ((h diagram hdiagram).edges link hown).mono
    apply List.map_subset
    intro entity hentity
    exact List.mem_flatMap.mpr ⟨diagram, hdiagram, hentity⟩

theorem Assembled.isGraph
    {diagram : Diagram} (h : Assembled diagram) :
    diagram.IsGraph := by
  induction h with
  | built files => exact isGraph_ofFiles files
  | merged _ ih => exact isGraph_merge ih

end EntityDiagram.Model
