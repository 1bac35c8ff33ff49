import EntityDiagram.Layout.Sugiyama.Engine
import Mathlib.Data.List.Perm.Basic

/-!
# The components of a graph

Of an engine it is only relied on that it splits the names of a graph: every name is in one component,
once, and no component is empty. The engine that is used splits them. It starts from one group for
every name, and a link joins two groups without losing or repeating a name.
-/

namespace EntityDiagram.Layout

open Model (Diagram Entity)
open Number (Scalar)

variable {α : Type}

/-- The components hold every name of the graph once, and something each. -/
structure Splits (graph : Layered.Graph α) (components : List (Component α)) :
    Prop where
  names : (components.flatten.map Prod.fst).Perm graph.names
  nonempty : ∀ component ∈ components, component ≠ []

namespace Layered

/-! ## The names of a graph -/

theorem nodup_eraseDups :
    ∀ names : List Text, names.eraseDups.Nodup
  | [] => by simp
  | name :: rest => by
    rw [List.eraseDups_cons, List.nodup_cons]
    exact ⟨by simp, nodup_eraseDups _⟩
termination_by names => names.length
decreasing_by
  exact Nat.lt_succ_of_le (List.length_filter_le _ rest)

theorem Graph.names_ofDiagram
    [Scalar α] (metrics : Metrics α) (diagram : Diagram) :
    (Graph.ofDiagram metrics diagram).names = (diagram.entities.map Entity.name).eraseDups := by
  simp [Graph.names, Graph.ofDiagram, Function.comp_def]

theorem Graph.nodup_names_ofDiagram
    [Scalar α] (metrics : Metrics α) (diagram : Diagram) :
    (Graph.ofDiagram metrics diagram).names.Nodup :=
  names_ofDiagram metrics diagram ▸ nodup_eraseDups _

theorem Graph.mem_names_ofDiagram
    [Scalar α] {metrics : Metrics α} {diagram : Diagram} {name : Text} :
    name ∈ (Graph.ofDiagram metrics diagram).names ↔ name ∈ diagram.entities.map Entity.name := by
  rw [names_ofDiagram, List.mem_eraseDups]

end Layered

namespace Sugiyama

open Layered (Graph Link)

/-! ## Joining groups -/

/-- Names that are added to the group of a name are added once. -/
theorem flatten_extended_perm
    {groups : List (List Text)} (hnodup : groups.flatten.Nodup) {name : Text}
    (hname : name ∈ groups.flatten) (added : List Text) :
    (groups.map fun group => if group.contains name then group ++ added else group).flatten.Perm
      (groups.flatten ++ added) := by
  induction groups with
  | nil => cases hname
  | cons group rest ih =>
    rw [List.flatten_cons, List.nodup_append] at hnodup
    obtain ⟨-, hrest, hapart⟩ := hnodup
    rw [List.map_cons, List.flatten_cons, List.flatten_cons]
    by_cases hgroup : name ∈ group
    · have hsame : (rest.map fun other => if other.contains name then other ++ added else other) =
          rest.map id := by
        refine List.map_congr_left fun other hother => if_neg ?_
        rw [List.contains_iff_mem]
        exact fun hmem => hapart name hgroup name (List.mem_flatten_of_mem hother hmem) rfl
      rw [if_pos (List.contains_iff_mem.mpr hgroup), hsame, List.map_id, List.append_assoc,
        List.append_assoc]
      exact List.perm_append_comm.append_left group
    · have hmem : name ∈ rest.flatten := by
        rw [List.flatten_cons, List.mem_append] at hname
        exact hname.resolve_left hgroup
      rw [if_neg (fun hcontains => hgroup (List.contains_iff_mem.mp hcontains)), List.append_assoc]
      exact (ih hrest hmem).append_left group

/-- A link between names of different groups joins these groups, and any other link none. -/
theorem flatten_joinGroups_perm
    {groups : List (List Text)} (hnodup : groups.flatten.Nodup) {link : Link}
    (hsource : link.1 ∈ groups.flatten) :
    (joinGroups groups link).flatten.Perm groups.flatten := by
  unfold joinGroups
  split
  · exact List.Perm.refl _
  rename_i targets hfind
  split
  · exact List.Perm.refl _
  rename_i hdifferent
  obtain ⟨htarget, before, after, rfl, -⟩ := List.find?_eq_some_iff_append.mp hfind
  rw [List.contains_iff_mem] at htarget hdifferent
  -- The group of the target is first taken out, and then added behind the group of the source.
  have hmoved : (before ++ targets :: after).flatten.Perm
      ((before ++ after).flatten ++ targets) :=
    (List.perm_middle.trans (List.perm_append_singleton targets (before ++ after)).symm).flatten.trans
      (List.Perm.of_eq (by simp))
  obtain ⟨hothers, -, hapart⟩ := List.nodup_append.mp (hmoved.nodup_iff.mp hnodup)
  have hkept : ∀ group ∈ before ++ after, (!group.contains link.2) = true := by
    intro group hgroup
    have hnot : link.2 ∉ group := fun hmem =>
      hapart link.2 (List.mem_flatten_of_mem hgroup hmem) link.2 htarget rfl
    simpa using hnot
  have hfilter : (before ++ targets :: after).filter (fun group => !group.contains link.2) =
      before ++ after := by
    obtain ⟨hbefore, hafter⟩ := List.forall_mem_append.mp hkept
    rw [List.filter_append, List.filter_eq_self.mpr hbefore,
      List.filter_cons_of_neg (by simpa using htarget), List.filter_eq_self.mpr hafter]
  have hmem : link.1 ∈ (before ++ after).flatten :=
    (List.mem_append.mp (hmoved.mem_iff.mp hsource)).resolve_right hdifferent
  rw [hfilter]
  exact (flatten_extended_perm hothers hmem targets).trans hmoved.symm

theorem ne_nil_of_mem_joinGroups
    {groups : List (List Text)} (hgroups : ∀ group ∈ groups, group ≠ []) (link : Link) :
    ∀ group ∈ joinGroups groups link, group ≠ [] := by
  unfold joinGroups
  split
  · exact hgroups
  · split
    · exact hgroups
    · intro group hgroup
      obtain ⟨other, hother, rfl⟩ := List.mem_map.mp hgroup
      have hne := hgroups other (List.mem_filter.mp hother).1
      split
      · exact List.append_ne_nil_of_left_ne_nil hne _
      · exact hne

/-! ## The components -/

/-- Joining groups by links keeps the names in the groups. -/
theorem foldl_joinGroups_perm
    {groups : List (List Text)} (hnodup : groups.flatten.Nodup)
    (hgroups : ∀ group ∈ groups, group ≠ []) {links : List Link}
    (hlinks : ∀ link ∈ links, link.1 ∈ groups.flatten) :
    (links.foldl joinGroups groups).flatten.Perm groups.flatten ∧
      ∀ group ∈ links.foldl joinGroups groups, group ≠ [] := by
  induction links generalizing groups with
  | nil => exact ⟨List.Perm.refl _, hgroups⟩
  | cons link rest ih =>
    obtain ⟨hlink, hrest⟩ := List.forall_mem_cons.mp hlinks
    have hstep := flatten_joinGroups_perm hnodup hlink
    obtain ⟨hperm, hne⟩ := ih (hstep.nodup_iff.mpr hnodup) (ne_nil_of_mem_joinGroups hgroups link)
      fun other hother => hstep.mem_iff.mpr (hrest other hother)
    exact ⟨hperm.trans hstep, hne⟩

theorem map_fst_centresOf
    [Scalar α] (metrics : Metrics α) (graph : Graph α) (component : List Text) :
    (centresOf metrics graph component).map Prod.fst = component := by
  simp [centresOf, Function.comp_def]

theorem map_fst_engine
    [Scalar α] (metrics : Metrics α) (graph : Graph α) :
    (engine metrics graph).map (List.map Prod.fst) = components graph := by
  rw [engine, List.map_map]
  exact (List.map_congr_left fun component _ => map_fst_centresOf metrics graph component).trans
    (List.map_id _)

/-- The engine splits the graph of every diagram. -/
theorem splits_engine
    [Scalar α] (metrics : Metrics α) (diagram : Diagram) :
    Splits (Graph.ofDiagram metrics diagram)
      (engine metrics (Graph.ofDiagram metrics diagram)) := by
  generalize hgraph : Graph.ofDiagram metrics diagram = graph
  have hnodup : graph.names.Nodup := hgraph ▸ Graph.nodup_names_ofDiagram metrics diagram
  have hlinks : ∀ link ∈ graph.links, link.1 ∈ graph.names := by
    intro link hlink
    rw [← hgraph] at hlink
    rw [← hgraph, Graph.names_ofDiagram]
    obtain ⟨-, hends⟩ := List.mem_filter.mp (List.mem_eraseDups.mp hlink)
    simp only [Bool.and_eq_true, List.contains_iff_mem] at hends
    exact hends.1.2
  have hstart : (graph.names.map fun name => [name]).flatten = graph.names := by
    rw [← List.flatMap_def, List.flatMap_singleton']
  obtain ⟨hperm, hne⟩ := @foldl_joinGroups_perm (graph.names.map fun name => [name])
    (hstart.symm ▸ hnodup) (by simp) graph.links (hstart.symm ▸ hlinks)
  refine ⟨?_, ?_⟩
  · rw [List.map_flatten, map_fst_engine]
    exact hperm.trans (List.Perm.of_eq hstart)
  · rintro component hcomponent rfl
    have hmem : [] ∈ components graph :=
      map_fst_engine metrics graph ▸ List.mem_map_of_mem hcomponent
    exact hne [] hmem rfl

end Sugiyama

end EntityDiagram.Layout
