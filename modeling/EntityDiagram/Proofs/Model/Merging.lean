import EntityDiagram.Model.Diagram
import EntityDiagram.Proofs.Model.DeclarationOrder

/-!
# Merging in any order of steps

Diagrams may be merged all at once, or some of them first and the results later. Removing repeated
relationships early loses nothing that a later merge would keep: what decides is the first relationship
of every key, and that one survives every merge on its way. So only the order of the merged diagrams
counts, and not how they were grouped.
-/

namespace EntityDiagram.Model

namespace Relationship

/-! ## Removing repetitions more than once -/

/-- The two lists add the same relationships to whatever has been seen. -/
def AddTheSame (links links' : List Relationship) : Prop :=
  ∀ seen, distinctFrom seen links = distinctFrom seen links'

theorem AddTheSame.append
    {links links' more more' : List Relationship}
    (h : AddTheSame links links') (hmore : AddTheSame more more') :
    AddTheSame (links ++ more) (links' ++ more') := by
  intro seen
  rw [distinctFrom_append, distinctFrom_append, h seen, hmore]

theorem distinctFrom_distinctFrom
    {seen seen' : List (Text × Text × Text)} (h : seen' ⊆ seen)
    (links : List Relationship) :
    distinctFrom seen (distinctFrom seen' links) = distinctFrom seen links := by
  induction links generalizing seen seen' with
  | nil => rfl
  | cons first rest ih =>
    rw [distinctFrom]
    by_cases hinner : first.key ∈ seen'
    · rw [if_pos (List.contains_iff_mem.mpr hinner), ih h, distinctFrom,
        if_pos (List.contains_iff_mem.mpr (h hinner))]
    · rw [if_neg (List.contains_iff_mem.not.mpr hinner), distinctFrom, distinctFrom]
      by_cases houter : first.key ∈ seen
      · have hkeys : first.key :: seen' ⊆ seen := List.cons_subset.mpr ⟨houter, h⟩
        rw [if_pos (List.contains_iff_mem.mpr houter), if_pos (List.contains_iff_mem.mpr houter),
          ih hkeys]
      · have hkeys : first.key :: seen' ⊆ first.key :: seen := List.cons_subset_cons first.key h
        rw [if_neg (List.contains_iff_mem.not.mpr houter),
          if_neg (List.contains_iff_mem.not.mpr houter), ih hkeys]

theorem distinct_addTheSame
    (links : List Relationship) :
    AddTheSame (distinct links) links :=
  fun seen => distinctFrom_distinctFrom (List.nil_subset seen) links

/-- Distinct relationships that have not been seen all stay. -/
theorem distinctFrom_eq_self
    {seen : List (Text × Text × Text)} {links : List Relationship}
    (hdistinct : (links.map key).Nodup) (hnew : ∀ link ∈ links, link.key ∉ seen) :
    distinctFrom seen links = links := by
  induction links generalizing seen with
  | nil => rfl
  | cons first rest ih =>
    rw [List.map_cons, List.nodup_cons] at hdistinct
    obtain ⟨hfirst, hrest⟩ := hdistinct
    have hnewRest : ∀ link ∈ rest, link.key ∉ first.key :: seen := by
      intro link hmem hkey
      obtain heq | hseen := List.mem_cons.mp hkey
      · exact hfirst (heq ▸ List.mem_map_of_mem hmem)
      · exact hnew link (List.mem_cons_of_mem first hmem) hseen
    rw [distinctFrom, if_neg (List.contains_iff_mem.not.mpr (hnew first List.mem_cons_self)),
      ih hrest hnewRest]

/-- Of relationships whose keys have all been seen none stays. -/
theorem distinctFrom_eq_nil
    {seen : List (Text × Text × Text)} {links : List Relationship}
    (h : ∀ link ∈ links, link.key ∈ seen) :
    distinctFrom seen links = [] := by
  rw [← List.map_eq_nil_iff (f := key), List.eq_nil_iff_forall_not_mem]
  intro k hk
  obtain ⟨hmem, hnew⟩ := mem_keys_distinctFrom_iff.mp hk
  obtain ⟨link, hlink, rfl⟩ := List.mem_map.mp hmem
  exact hnew (h link hlink)

end Relationship

/-- A plan for merging: a diagram, or a merge of the results of other plans. -/
inductive MergePlan where
  | diagram (diagram : Diagram)
  | merge (parts : List MergePlan)

namespace MergePlan

mutual

/-- The diagram that a plan ends with. -/
def result : MergePlan → Diagram
  | diagram value => value
  | merge parts => Diagram.merge (results parts)

/-- The diagrams that plans end with. -/
def results : List MergePlan → List Diagram
  | [] => []
  | part :: rest => result part :: results rest

end

mutual

/-- The diagrams that a plan starts from, from left to right. -/
def leaves : MergePlan → List Diagram
  | diagram value => [value]
  | merge parts => leavesOfAll parts

/-- The diagrams that plans start from, from left to right. -/
def leavesOfAll : List MergePlan → List Diagram
  | [] => []
  | part :: rest => leaves part ++ leavesOfAll rest

end

/-! ## What a plan keeps of its leaves -/

/-- The diagrams on the left can stand for those on the right in a merge. -/
structure StandFor (diagrams leaves : List Diagram) : Prop where
  entities : diagrams.flatMap Diagram.entities = leaves.flatMap Diagram.entities
  sources : diagrams.flatMap Diagram.sources = leaves.flatMap Diagram.sources
  relationships : Relationship.AddTheSame (diagrams.flatMap Diagram.relationships)
    (leaves.flatMap Diagram.relationships)

theorem StandFor.append
    {diagrams leaves more moreLeaves : List Diagram}
    (h : StandFor diagrams leaves) (hmore : StandFor more moreLeaves) :
    StandFor (diagrams ++ more) (leaves ++ moreLeaves) := by
  constructor
  · rw [List.flatMap_append, List.flatMap_append, h.entities, hmore.entities]
  · rw [List.flatMap_append, List.flatMap_append, h.sources, hmore.sources]
  · rw [List.flatMap_append, List.flatMap_append]
    exact h.relationships.append hmore.relationships

/-- One merge does not look behind the diagrams that stand for others. -/
theorem StandFor.merge_eq
    {diagrams leaves : List Diagram} (h : StandFor diagrams leaves) :
    Diagram.merge diagrams = Diagram.merge leaves := by
  rw [Diagram.merge, h.entities, h.sources, Relationship.distinct, h.relationships]
  rfl

theorem standFor_merge
    {diagrams leaves : List Diagram} (h : StandFor diagrams leaves) :
    StandFor [Diagram.merge diagrams] leaves := by
  rw [h.merge_eq]
  constructor
  · exact List.flatMap_singleton Diagram.entities _
  · exact List.flatMap_singleton Diagram.sources _
  · rw [List.flatMap_singleton]
    exact Relationship.distinct_addTheSame _

mutual

theorem standFor_result : ∀ plan : MergePlan, StandFor [plan.result] plan.leaves
  | diagram _ => ⟨rfl, rfl, fun _ => rfl⟩
  | merge parts => standFor_merge (standFor_results parts)

theorem standFor_results : ∀ parts : List MergePlan, StandFor (results parts) (leavesOfAll parts)
  | [] => ⟨rfl, rfl, fun _ => rfl⟩
  | part :: rest => (standFor_result part).append (standFor_results rest)

end

end MergePlan

namespace Diagram

/-- A diagram in which the first relationship of every key is kept. -/
def withoutRepetitions (diagram : Diagram) : Diagram :=
  { diagram with relationships := Relationship.distinct diagram.relationships, reader := engine }

theorem relationships_merge_copies
    {diagram : Diagram} (h : (diagram.relationships.map Relationship.key).Nodup) (copies : Nat) :
    (merge (diagram :: List.replicate copies diagram)).relationships = diagram.relationships := by
  have hself : Relationship.distinctFrom [] diagram.relationships = diagram.relationships :=
    Relationship.distinctFrom_eq_self h fun _ _ => List.not_mem_nil
  have hcopies : ∀ link ∈ (List.replicate copies diagram).flatMap Diagram.relationships,
      link.key ∈ diagram.relationships.map Relationship.key ++ [] := by
    intro link hmem
    obtain ⟨copy, hcopy, hlink⟩ := List.mem_flatMap.mp hmem
    obtain rfl := List.eq_of_mem_replicate hcopy
    rw [List.append_nil]
    exact List.mem_map_of_mem hlink
  calc (merge (diagram :: List.replicate copies diagram)).relationships
      = Relationship.distinctFrom [] (diagram.relationships ++
          (List.replicate copies diagram).flatMap Diagram.relationships) := rfl
    _ = diagram.relationships ++ [] := by
        rw [Relationship.distinctFrom_append, hself, Relationship.distinctFrom_eq_nil hcopies]
    _ = diagram.relationships := List.append_nil _

/-- However diagrams are grouped, merging the groups and then their results is merging all diagrams at
once, from left to right. A diagram without contents adds nothing on either side, and neither do
copies of a diagram whose relationships have distinct keys. -/
theorem merge_grouped :
    (∀ parts : List MergePlan,
      (MergePlan.merge parts).result = merge (MergePlan.merge parts).leaves) ∧
    (∀ (diagram : Diagram) (reader : String),
      merge [{ reader }, diagram] = diagram.withoutRepetitions ∧
      merge [diagram, { reader }] = diagram.withoutRepetitions) ∧
    ∀ diagram : Diagram, (diagram.relationships.map Relationship.key).Nodup → ∀ copies : Nat,
      (merge (diagram :: List.replicate copies diagram)).relationships = diagram.relationships := by
  refine ⟨fun parts => ?_, fun diagram reader => ⟨?_, ?_⟩, fun diagram h copies => ?_⟩
  · exact (MergePlan.standFor_results parts).merge_eq
  · simp [merge, withoutRepetitions]
  · simp [merge, withoutRepetitions]
  · exact relationships_merge_copies h copies

/-- A diagram whose two relationships have the same ends and different labels. -/
def twiceLinked : Diagram where
  entities := [{ name := "A" }, { name := "B" }]
  relationships :=
    [{ source := "A", target := "B", cardinality := .oneToOne, label := "first"
       isIdentifying := true },
     { source := "A", target := "B", cardinality := .oneToMany, label := "others"
       isIdentifying := false }]
  sources := ["pair.ts"]

theorem merge_grouped_twiceLinked :
    (twiceLinked.relationships.map Relationship.key).Nodup ∧
      (merge [twiceLinked, twiceLinked, twiceLinked]).relationships = twiceLinked.relationships := by
  have hdistinct : (twiceLinked.relationships.map Relationship.key).Nodup := by decide
  exact ⟨hdistinct, merge_grouped.2.2 twiceLinked hdistinct 2⟩

end Diagram

end EntityDiagram.Model
