import Mathlib.Data.List.Perm.Basic
import EntityDiagram.Model.Diagram
import EntityDiagram.Proofs.Model.RelationshipRules

/-!
# The order of declarations

Relationships are looked up by the names of all entities, so it does not matter where an entity is
declared. Where names are distinct, no two entities give rise to relationships with the same key:
what is derived is what every entity gives rise to by itself, entity by entity, and another order of
the entities is only another order of these blocks. Where a name is shared, the order may decide
which of several relationships with one key is kept, but not which keys there are.
-/

namespace EntityDiagram.Model

open Declaration (SourceFile)

namespace Relationship

/-! ## Keeping the first of every key -/

/-- Only those keys matter that can still come up. -/
theorem distinctFrom_congr
    {seen seen' : List (Text × Text × Text)} {relationships : List Relationship}
    (h : ∀ relationship ∈ relationships, relationship.key ∈ seen ↔ relationship.key ∈ seen') :
    distinctFrom seen relationships = distinctFrom seen' relationships := by
  induction relationships generalizing seen seen' with
  | nil => rfl
  | cons first rest ih =>
    have hrest : ∀ relationship ∈ rest,
        relationship.key ∈ seen ↔ relationship.key ∈ seen' := fun relationship hmem =>
      h relationship (List.mem_cons_of_mem first hmem)
    have hseen : seen.contains first.key = seen'.contains first.key := by
      rw [Bool.eq_iff_iff, List.contains_iff_mem, List.contains_iff_mem]
      exact h first List.mem_cons_self
    rw [distinctFrom, distinctFrom, hseen, ih hrest]
    congr 2
    apply ih
    intro relationship hmem
    rw [List.mem_cons, List.mem_cons, hrest relationship hmem]

theorem distinctFrom_append
    (seen : List (Text × Text × Text)) (relationships more : List Relationship) :
    distinctFrom seen (relationships ++ more) =
      distinctFrom seen relationships ++
        distinctFrom ((distinctFrom seen relationships).map key ++ seen) more := by
  induction relationships generalizing seen with
  | nil => rfl
  | cons first rest ih =>
    rw [List.cons_append, distinctFrom, distinctFrom]
    split
    · exact ih seen
    · rw [ih, List.cons_append, List.map_cons]
      congr 2
      -- The keys of what is kept have been seen, if in another order.
      apply distinctFrom_congr
      intro relationship _
      simp only [List.mem_append, List.mem_cons]
      tauto

/-- Lists without a key in common can be cleared of repetitions one by one. -/
theorem distinct_append
    {relationships more : List Relationship}
    (h : ∀ k ∈ relationships.map key, k ∉ more.map key) :
    distinct (relationships ++ more) = distinct relationships ++ distinct more := by
  rw [distinct, distinctFrom_append, List.append_nil]
  congr 1
  apply distinctFrom_congr
  intro relationship hmem
  refine iff_of_false (fun hkey => ?_) List.not_mem_nil
  exact h _ (mem_keys_distinct_iff.mp hkey) (List.mem_map_of_mem hmem)

/-! ## What an entity gives rise to -/

theorem source_of_mem_ofEntity
    {names : List Text} {entity : Entity} {relationship : Relationship}
    (h : relationship ∈ ofEntity names entity) :
    relationship.source = entity.name := by
  rw [ofEntity, List.mem_append, List.mem_filterMap, List.mem_filterMap] at h
  obtain ⟨field, -, hfield⟩ | ⟨parent, -, hparent⟩ := h
  · cases yields_of_ofAttribute? hfield <;> rfl
  · have hyields : Yields names (entity, .inr parent) relationship :=
      ofCandidate?_eq_some_iff.mp hparent
    cases hyields
    rfl

/-- Of the names of all entities only their set matters. -/
theorem ofEntity_congr
    {names names' : List Text} (h : ∀ name, name ∈ names' ↔ name ∈ names) (entity : Entity) :
    ofEntity names' entity = ofEntity names entity := by
  have hcontains : ∀ name, names'.contains name = names.contains name := by
    intro name
    rw [Bool.eq_iff_iff, List.contains_iff_mem, List.contains_iff_mem, h]
  have hfunction : names'.contains = names.contains := funext hcontains
  have hattribute : ofAttribute? names' = ofAttribute? names := by
    funext entity field
    simp only [ofAttribute?, directTarget?, keyTarget?, hcontains, hfunction]
  have hparent : ofParent? names' = ofParent? names := by
    funext entity parent
    simp only [ofParent?, hcontains]
  rw [ofEntity, ofEntity, hattribute, hparent]

/-- The relationships that an entity gives rise to, the first one of every key. -/
def leaving (names : List Text) (entity : Entity) : List Relationship :=
  distinct (ofEntity names entity)

theorem source_of_mem_leaving
    {names : List Text} {entity : Entity} {relationship : Relationship}
    (h : relationship ∈ leaving names entity) :
    relationship.source = entity.name :=
  source_of_mem_ofEntity (mem_of_mem_distinct h)

/-- Entities with distinct names do not take keys from each other. -/
theorem distinct_flatMap_ofEntity
    (names : List Text) {entities : List Entity} (h : (entities.map Entity.name).Nodup) :
    distinct (entities.flatMap (ofEntity names)) = entities.flatMap (leaving names) := by
  induction entities with
  | nil => rfl
  | cons first rest ih =>
    rw [List.map_cons, List.nodup_cons] at h
    obtain ⟨hfirst, hrest⟩ := h
    rw [List.flatMap_cons, List.flatMap_cons, ← ih hrest]
    apply distinct_append
    intro k hk hmore
    obtain ⟨link, hlink, rfl⟩ := List.mem_map.mp hk
    obtain ⟨other, hother, heq⟩ := List.mem_map.mp hmore
    obtain ⟨entity, hentity, hother⟩ := List.mem_flatMap.mp hother
    have hname : entity.name = first.name := by
      rw [← source_of_mem_ofEntity hother, ← source_of_mem_ofEntity hlink]
      exact congrArg Prod.fst heq
    exact hfirst (hname ▸ List.mem_map_of_mem hentity)

theorem derive_eq_flatMap
    {entities : List Entity} (h : (entities.map Entity.name).Nodup) :
    derive entities = entities.flatMap (leaving (entities.map Entity.name)) :=
  distinct_flatMap_ofEntity _ h

/-- Of all blocks only that of the entity with the name is left. -/
theorem filter_flatMap_leaving
    (names : List Text) (entities : List Entity) (name : Text) :
    (entities.flatMap (leaving names)).filter (·.source == name) =
      (entities.filter (·.name == name)).flatMap (leaving names) := by
  induction entities with
  | nil => rfl
  | cons first rest ih =>
    rw [List.flatMap_cons, List.filter_append, ih, List.filter_cons]
    split
    · rename_i hname
      rw [List.flatMap_cons, List.filter_eq_self.mpr]
      intro relationship hmem
      rwa [source_of_mem_leaving hmem]
    · rename_i hname
      rw [List.filter_eq_nil_iff.mpr, List.nil_append]
      intro relationship hmem
      rwa [source_of_mem_leaving hmem]

/-! ## Reordering -/

/-- Relationships that were derived from the same entities in another order. -/
structure Reordered (names : List Text) (links links' : List Relationship) : Prop where
  /-- The keys are the same. -/
  keys : ∀ k, k ∈ links'.map key ↔ k ∈ links.map key
  /-- Where names are distinct, so are the relationships. -/
  perm : names.Nodup → links'.Perm links
  /-- Where names are distinct, what leaves an entity stays in order. -/
  leaving : names.Nodup → ∀ name,
    links'.filter (·.source == name) = links.filter (·.source == name)

theorem filter_name_eq_of_perm
    {entities entities' : List Entity} (h : entities.Perm entities')
    (hnames : (entities.map Entity.name).Nodup) (name : Text) :
    entities'.filter (·.name == name) = entities.filter (·.name == name) := by
  have hperm := h.filter (·.name == name)
  have hlength : (entities.filter (·.name == name)).length ≤ 1 := by
    have hcount := List.nodup_iff_count.mp hnames name
    rwa [List.count, List.countP_map, List.countP_eq_length_filter] at hcount
  generalize entities.filter (·.name == name) = found at hperm hlength ⊢
  match found with
  | [] => exact List.nil_perm.mp hperm
  | [_] => exact (List.singleton_perm.mp hperm).symm

theorem derive_reordered
    {entities entities' : List Entity} (h : entities.Perm entities') :
    Reordered (entities.map Entity.name) (derive entities) (derive entities') := by
  have hnames := h.map Entity.name
  have hofEntity : ofEntity (entities'.map Entity.name) = ofEntity (entities.map Entity.name) :=
    funext fun entity => ofEntity_congr (fun _ => hnames.mem_iff.symm) entity
  have hleaving : Relationship.leaving (entities'.map Entity.name) =
      Relationship.leaving (entities.map Entity.name) := by
    funext entity
    rw [Relationship.leaving, Relationship.leaving, hofEntity]
  constructor
  · intro k
    rw [derive, derive, mem_keys_distinct_iff, mem_keys_distinct_iff, hofEntity]
    exact ((h.flatMap_right _).map key).mem_iff.symm
  · intro hnodup
    rw [derive_eq_flatMap hnodup, derive_eq_flatMap (hnames.nodup_iff.mp hnodup), hleaving]
    exact (h.flatMap_right _).symm
  · intro hnodup name
    rw [derive_eq_flatMap hnodup, derive_eq_flatMap (hnames.nodup_iff.mp hnodup), hleaving,
      filter_flatMap_leaving, filter_flatMap_leaving, filter_name_eq_of_perm h hnodup]

/-- The order in which entities are declared, or in which files are read, does not matter: keys stay
the same, and where no two entities share a name, so do the relationships and the order of those
that leave one entity. -/
theorem reordered_of_perm :
    (∀ entities entities' : List Entity, entities.Perm entities' →
      Reordered (entities.map Entity.name) (derive entities) (derive entities')) ∧
    ∀ files files' : List SourceFile, files.Perm files' →
      Reordered ((Diagram.ofFiles files).entities.map Entity.name)
        (Diagram.ofFiles files).relationships (Diagram.ofFiles files').relationships := by
  constructor
  · intro entities entities' h
    exact derive_reordered h
  · intro files files' h
    exact derive_reordered (h.flatMap_right Entity.listOfFile)

end Relationship

end EntityDiagram.Model
