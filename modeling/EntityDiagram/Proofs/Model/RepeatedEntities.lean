import EntityDiagram.Proofs.Model.Merging

/-!
# Entities that are seen again

Entities that occur already add no name and no key, wherever they stand and however often they are
repeated: what decides is the first candidate of every key, and that one stands among the entities
themselves. So the relationships of a diagram are found again in its entities when the diagram was
merged with itself, in one step or in several.
-/

namespace EntityDiagram.Model

open Declaration (SourceFile)

namespace Relationship

/-- Every key that the repeated entities give rise to is that of a relationship that is kept. -/
theorem key_mem_derive_of_subset
    {entities again : List Entity} (h : again ⊆ entities) {link : Relationship}
    (hlink : link ∈ again.flatMap (ofEntity (entities.map Entity.name))) :
    link.key ∈ (derive entities).map key := by
  obtain ⟨entity, hentity, hlink⟩ := List.mem_flatMap.mp hlink
  rw [derive, mem_keys_distinct_iff]
  exact List.mem_map_of_mem (List.mem_flatMap.mpr ⟨entity, h hentity, hlink⟩)

theorem derive_append_of_subset
    {entities again : List Entity} (h : again ⊆ entities) :
    derive (entities ++ again) = derive entities := by
  have hnames : ∀ name,
      name ∈ (entities ++ again).map Entity.name ↔ name ∈ entities.map Entity.name := by
    intro name
    rw [List.map_append, List.mem_append]
    exact or_iff_left_of_imp fun hname => List.map_subset Entity.name h hname
  have hofEntity : ofEntity ((entities ++ again).map Entity.name) =
      ofEntity (entities.map Entity.name) :=
    funext fun entity => ofEntity_congr hnames entity
  have hseen : ∀ link ∈ again.flatMap (ofEntity (entities.map Entity.name)),
      link.key ∈ (derive entities).map key ++ [] := by
    intro link hlink
    rw [List.append_nil]
    exact key_mem_derive_of_subset h hlink
  calc derive (entities ++ again)
      = distinctFrom [] (entities.flatMap (ofEntity (entities.map Entity.name)) ++
          again.flatMap (ofEntity (entities.map Entity.name))) := by
        rw [derive, hofEntity, List.flatMap_append, distinct]
    _ = derive entities ++ [] := by
        rw [distinctFrom_append]
        exact congrArg (derive entities ++ ·) (distinctFrom_eq_nil hseen)
    _ = derive entities := List.append_nil _

/-- Diagrams one after the other have the entities of the first one again where all are equal to it. -/
theorem derive_flatMap_of_eq
    {diagrams : List Diagram} (hne : diagrams ≠ []) {files : List SourceFile}
    (h : ∀ diagram ∈ diagrams, diagram = Diagram.ofFiles files) :
    derive (diagrams.flatMap Diagram.entities) = (Diagram.ofFiles files).relationships := by
  cases diagrams with
  | nil => exact absurd rfl hne
  | cons first rest =>
    obtain ⟨rfl, hrest⟩ := List.forall_mem_cons.mp h
    have hagain : rest.flatMap Diagram.entities ⊆ (Diagram.ofFiles files).entities := by
      intro entity hentity
      obtain ⟨diagram, hdiagram, hentity⟩ := List.mem_flatMap.mp hentity
      rwa [hrest diagram hdiagram] at hentity
    rw [List.flatMap_cons, derive_append_of_subset hagain]
    rfl

theorem entities_result
    (plan : MergePlan) :
    plan.result.entities = plan.leaves.flatMap Diagram.entities := by
  rw [← (MergePlan.standFor_result plan).entities, List.flatMap_singleton]

/-- Entities that occur already change no relationship. So the entities of a diagram that was merged
with itself, at once or by any plan, lead to the relationships of the diagram. -/
theorem derive_again :
    (∀ entities again : List Entity, again ⊆ entities →
      derive (entities ++ again) = derive entities) ∧
    (∀ (files : List SourceFile) (copies : Nat), 1 ≤ copies →
      derive (Diagram.merge (List.replicate copies (Diagram.ofFiles files))).entities =
        (Diagram.ofFiles files).relationships) ∧
    ∀ (files : List SourceFile) (plan : MergePlan), plan.leaves ≠ [] →
      (∀ leaf ∈ plan.leaves, leaf = Diagram.ofFiles files) →
        derive plan.result.entities = (Diagram.ofFiles files).relationships := by
  refine ⟨fun entities again h => derive_append_of_subset h, ?_, ?_⟩
  · intro files copies hcopies
    refine derive_flatMap_of_eq ?_ fun diagram => List.eq_of_mem_replicate
    rw [Ne, List.replicate_eq_nil_iff]
    exact Nat.ne_of_gt hcopies
  · intro files plan hne h
    rw [entities_result]
    exact derive_flatMap_of_eq hne h

/-- A user with many orders. -/
def buyer : Entity where
  name := "User"
  attributes := [{ name := "order", type := { AttributeType.named "Order" [] with isArray := true } }]

/-- A user declared anew, now with one order. -/
def singleBuyer : Entity where
  name := "User"
  attributes := [{ name := "order", type := AttributeType.named "Order" [] }]

/-- A file in which a list refers back to its own interface. -/
def treeFile : SourceFile where
  name := "tree.ts"
  statements := [.interface {
    name := "Tree"
    members := [.property "children" .identifier (some (.array (.reference "Tree" []))) false false
      none] }]

/-- The later declaration is seen again in front of the others, and a tree that was merged with itself
twice. -/
theorem derive_again_buyer :
    [singleBuyer, { name := "Order" }, singleBuyer] ⊆
        [buyer, { name := "Order" }, singleBuyer] ∧
      derive ([buyer, { name := "Order" }, singleBuyer] ++
          [singleBuyer, { name := "Order" }, singleBuyer]) =
        [{ source := "User", target := "Order", cardinality := .oneToMany, label := "order"
           isIdentifying := true }] ∧
      derive (Diagram.merge [Diagram.ofFiles [treeFile],
          Diagram.merge [Diagram.ofFiles [treeFile], Diagram.ofFiles [treeFile]]]).entities =
        [{ source := "Tree", target := "Tree", cardinality := .oneToMany, label := "children"
           isIdentifying := true }] := by
  have hagain : [singleBuyer, { name := "Order" }, singleBuyer] ⊆
      [buyer, { name := "Order" }, singleBuyer] := by
    simp
  let tree : MergePlan := .diagram (Diagram.ofFiles [treeFile])
  let twice : MergePlan := .merge [tree, .merge [tree, tree]]
  have hne : twice.leaves ≠ [] := List.cons_ne_nil _ _
  have hleaves : ∀ leaf ∈ twice.leaves, leaf = Diagram.ofFiles [treeFile] :=
    fun leaf => List.eq_of_mem_replicate (n := 3)
  refine ⟨hagain, (derive_again.1 _ _ hagain).trans (by decide), ?_⟩
  exact (derive_again.2.2 [treeFile] twice hne hleaves).trans (by decide)

end Relationship

end EntityDiagram.Model
