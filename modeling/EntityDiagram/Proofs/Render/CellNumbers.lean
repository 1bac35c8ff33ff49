import EntityDiagram.Proofs.Render.WrittenDocuments

/-!
# The numbers of cells

Cells are told apart by their numbers, and edges refer to containers by them. The numbers follow the
document: every entity takes one number for its container and one for each of its rows, and behind
all entities every relationship takes one, whether or not its edge is drawn. So the number of a cell
says what the cell is, and no two cells share one.

Where several entities have a name, an edge is attached to the container of the last of them.
-/

namespace EntityDiagram.Render.Drawio

open Layout (DrawingEngine Placement)
open Model (Attribute Diagram Entity Relationship)
open Number (Measure)
open Text.Markup (readDocument)

/-- How many cells entities have: a container each, and a row for every attribute. -/
def cellTotal : List Entity → Nat
  | [] => 0
  | entity :: rest => 1 + entity.attributes.length + cellTotal rest

/-- The number of the container of the entity with an index. -/
def containerNumber (entities : List Entity) (index : Nat) : Nat :=
  2 + cellTotal (entities.take index)

/-- The number that belongs to the relationship with an index. -/
def edgeNumber (diagram : Diagram) (index : Nat) : Nat :=
  2 + cellTotal diagram.entities + index

/-- The index is that of the last entity with the name. -/
def IsLastNamed (entities : List Entity) (name : Text) (index : Nat) : Prop :=
  (entities.map Entity.name)[index]? = some name ∧
    ∀ later, index < later → (entities.map Entity.name)[later]? ≠ some name

/-- The cells that belong to a diagram, each with its number. -/
inductive IsCellOf
    (options : DrawioOptions) (placement : Placement Measure) (diagram : Diagram) : Cell → Prop
  | container {index : Nat} {entity : Entity} {box : Layout.Box Measure}
      (hentity : diagram.entities[index]? = some entity)
      (hbox : placement.box? entity.name = some box) :
    IsCellOf options placement diagram
      (.container (containerNumber diagram.entities index) entity.name box)
  | row {index : Nat} {entity : Entity} {place : Nat} {field : Attribute}
      (hentity : diagram.entities[index]? = some entity)
      (hfield : entity.attributes[place]? = some field) :
    IsCellOf options placement diagram
      (.row (containerNumber diagram.entities index + 1 + place)
        (containerNumber diagram.entities index) (rowText options field)
        (field.key == some .primary))
  | edge {index : Nat} {link : Relationship} {source target : Nat}
      (hlink : diagram.relationships[index]? = some link)
      (hsource : IsLastNamed diagram.entities link.source source)
      (htarget : IsLastNamed diagram.entities link.target target) :
    IsCellOf options placement diagram
      (.edge (edgeNumber diagram index) link.label link.cardinality
        (containerNumber diagram.entities source) (containerNumber diagram.entities target))

/-! ## Runs of numbers -/

theorem map_id_rowsFrom
    (options : DrawioOptions) (parent id : Nat) (fields : List Attribute) :
    (rowsFrom options parent id fields).map Cell.id = List.range' id fields.length := by
  induction fields generalizing id with
  | nil => rfl
  | cons field rest ih => rw [rowsFrom, List.map_cons, ih, List.length_cons, List.range'_succ]; rfl

theorem map_id_entityCellsFrom
    (options : DrawioOptions) (placement : Placement Measure) (id : Nat) (entities : List Entity) :
    (entityCellsFrom options placement id entities).map Cell.id =
      List.range' id (cellTotal entities) := by
  induction entities generalizing id with
  | nil => rfl
  | cons entity rest ih =>
    have hblock : List.range' id (1 + entity.attributes.length) =
        id :: List.range' (id + 1) entity.attributes.length := by
      rw [Nat.add_comm, List.range'_succ]
    rw [entityCellsFrom, List.map_append, List.map_cons, map_id_rowsFrom, ih, cellTotal,
      ← List.range'_append_1, hblock, cellCount, Nat.add_comm 1]
    rfl

/-- Edges have the numbers of their relationships, and some are left out. -/
theorem map_id_edgeCellsFrom_sublist
    (containers : List (Text × Nat)) (id : Nat) (links : List Relationship) :
    ((edgeCellsFrom containers id links).map Cell.id).Sublist (List.range' id links.length) := by
  induction links generalizing id with
  | nil => exact List.Sublist.slnil
  | cons link rest ih =>
    rw [edgeCellsFrom, List.map_append, List.length_cons, List.range'_succ]
    cases hedge : edge? containers id link with
    | none => exact (ih (id + 1)).cons id
    | some cell =>
      obtain ⟨source, -, htarget⟩ := Option.bind_eq_some_iff.mp hedge
      obtain ⟨target, -, hcell⟩ := Option.bind_eq_some_iff.mp htarget
      obtain rfl := Option.some.inj hcell
      exact (ih (id + 1)).cons_cons id

theorem foldl_cellCount
    (id : Nat) (entities : List Entity) :
    (entities.map cellCount).foldl (· + ·) id = id + cellTotal entities := by
  induction entities generalizing id with
  | nil => rfl
  | cons entity rest ih =>
    rw [List.map_cons, List.foldl_cons, ih, cellTotal, cellCount]
    omega

/-- The cells of a document come in the order of their numbers, behind the two root cells. -/
theorem pairwise_id_cells
    (options : DrawioOptions) (placement : Placement Measure) (diagram : Diagram) :
    (0 :: 1 :: (cells options placement diagram).map Cell.id).Pairwise (· < ·) := by
  have hrange : 0 :: 1 :: List.range' 2 (cellTotal diagram.entities + diagram.relationships.length)
      = List.range' 0 (cellTotal diagram.entities + diagram.relationships.length + 1 + 1) := by
    rw [List.range'_succ, List.range'_succ]
  refine List.Pairwise.sublist (List.Sublist.cons_cons 0 (List.Sublist.cons_cons 1 ?_))
    (hrange ▸ List.pairwise_lt_range')
  rw [cells, List.map_append, map_id_entityCellsFrom, foldl_cellCount, ← List.range'_append_1]
  exact (List.Sublist.refl _).append (map_id_edgeCellsFrom_sublist _ _ _)

/-! ## Which cells there are -/

theorem mem_rowsFrom_iff
    {options : DrawioOptions} {parent id : Nat} {fields : List Attribute} {cell : Cell} :
    cell ∈ rowsFrom options parent id fields ↔
      ∃ place field, fields[place]? = some field ∧
        cell = .row (id + place) parent (rowText options field) (field.key == some .primary) := by
  induction fields generalizing id with
  | nil => simp [rowsFrom]
  | cons field rest ih =>
    rw [rowsFrom, List.mem_cons, ih]
    constructor
    · rintro (rfl | ⟨place, other, hother, rfl⟩)
      · exact ⟨0, field, rfl, rfl⟩
      · exact ⟨place + 1, other, hother, by rw [Nat.add_right_comm, Nat.add_assoc]⟩
    · rintro ⟨_ | place, other, hother, rfl⟩
      · obtain rfl := Option.some.inj hother
        exact .inl rfl
      · exact .inr ⟨place, other, hother, by rw [Nat.add_right_comm, Nat.add_assoc]⟩

/-- A cell of entities is the container of one of them or one of its rows. -/
theorem mem_entityCellsFrom_iff
    {options : DrawioOptions} {placement : Placement Measure} {start : Nat}
    {entities : List Entity} {cell : Cell} :
    cell ∈ entityCellsFrom options placement start entities ↔
      ∃ index entity, entities[index]? = some entity ∧
        let id := start + cellTotal (entities.take index)
        (cell = .container id entity.name (boxOf placement entity.name) ∨
          cell ∈ rowsFrom options id (id + 1) entity.attributes) := by
  induction entities generalizing start with
  | nil => simp [entityCellsFrom]
  | cons entity rest ih =>
    have hshift : ∀ index, start + cellTotal ((entity :: rest).take (index + 1)) =
        start + cellCount entity + cellTotal (rest.take index) := by
      intro index
      rw [List.take_succ_cons, cellTotal, cellCount]
      omega
    rw [entityCellsFrom, List.mem_append, List.mem_cons, ih]
    constructor
    · rintro (hfirst | ⟨index, other, hother, hcell⟩)
      · exact ⟨0, entity, rfl, hfirst⟩
      · refine ⟨index + 1, other, hother, ?_⟩
        rw [hshift]
        exact hcell
    · rintro ⟨_ | index, other, hother, hcell⟩
      · obtain rfl := Option.some.inj hother
        exact .inl hcell
      · rw [hshift] at hcell
        exact .inr ⟨index, other, hother, hcell⟩

theorem isLastNamed_cons_iff
    {entity : Entity} {rest : List Entity} {name : Text} {index : Nat} :
    IsLastNamed (entity :: rest) name index ↔
      (∃ before, index = before + 1 ∧ IsLastNamed rest name before) ∨
        (index = 0 ∧ entity.name = name ∧ name ∉ rest.map Entity.name) := by
  cases index with
  | zero =>
    constructor
    · rintro ⟨hname, hlater⟩
      refine .inr ⟨rfl, Option.some.inj hname, fun hmem => ?_⟩
      obtain ⟨later, hmem⟩ := List.mem_iff_getElem?.mp hmem
      exact hlater (later + 1) (Nat.succ_pos later) hmem
    · rintro (⟨before, hzero, -⟩ | ⟨-, rfl, hnone⟩)
      · exact absurd hzero.symm (Nat.succ_ne_zero before)
      · refine ⟨rfl, fun later hlater hmem => ?_⟩
        obtain ⟨before, rfl⟩ := Nat.exists_eq_succ_of_ne_zero (Nat.ne_of_gt hlater)
        exact hnone (List.mem_iff_getElem?.mpr ⟨before, hmem⟩)
  | succ index =>
    constructor
    · rintro ⟨hname, hlater⟩
      exact .inl ⟨index, rfl, hname, fun later hlt => hlater (later + 1) (Nat.succ_lt_succ hlt)⟩
    · rintro (⟨before, hbefore, hname, hlater⟩ | ⟨hzero, -⟩)
      · obtain rfl := Nat.succ.inj hbefore
        refine ⟨hname, fun later hlt => ?_⟩
        obtain ⟨earlier, rfl⟩ := Nat.exists_eq_succ_of_ne_zero (Nat.ne_zero_of_lt hlt)
        exact hlater earlier (Nat.lt_of_succ_lt_succ hlt)
      · exact absurd hzero (Nat.succ_ne_zero index)

theorem exists_isLastNamed_iff
    {entities : List Entity} {name : Text} :
    (∃ index, IsLastNamed entities name index) ↔ name ∈ entities.map Entity.name := by
  induction entities with
  | nil => simp [IsLastNamed]
  | cons entity rest ih =>
    by_cases hrest : name ∈ rest.map Entity.name
    · obtain ⟨index, hindex⟩ := ih.mpr hrest
      simp only [List.map_cons, List.mem_cons, hrest, or_true, iff_true]
      exact ⟨index + 1, isLastNamed_cons_iff.mpr (.inl ⟨index, rfl, hindex⟩)⟩
    · simp only [isLastNamed_cons_iff, List.map_cons, List.mem_cons, hrest, or_false,
        not_false_eq_true, and_true]
      constructor
      · rintro ⟨_, ⟨before, -, hbefore⟩ | ⟨-, hname⟩⟩
        · exact absurd (ih.mp ⟨before, hbefore⟩) hrest
        · exact hname.symm
      · rintro rfl
        exact ⟨0, .inr ⟨rfl, rfl⟩⟩

/-- The container that is looked up for a name is that of the last entity with the name. -/
theorem containerOf?_eq_some_iff
    {start : Nat} {entities : List Entity} {name : Text} {id : Nat} :
    containerOf? (containersFrom start entities) name = some id ↔
      ∃ index, IsLastNamed entities name index ∧
        id = start + cellTotal (entities.take index) := by
  induction entities generalizing start id with
  | nil => simp [containerOf?, containersFrom, IsLastNamed]
  | cons entity rest ih =>
    -- The containers behind the first one are searched first.
    have hsearch : containerOf? (containersFrom start (entity :: rest)) name =
        (containerOf? (containersFrom (start + cellCount entity) rest) name).or
          (if entity.name = name then some start else none) := by
      rw [containerOf?, containerOf?, containersFrom, List.reverse_cons, List.find?_append]
      cases (containersFrom (start + cellCount entity) rest).reverse.find? (·.1 == name) with
      | some entry => rfl
      | none => by_cases hname : entity.name = name <;> simp [hname]
    have hshift : ∀ index, start + cellTotal ((entity :: rest).take (index + 1)) =
        start + cellCount entity + cellTotal (rest.take index) := by
      intro index
      rw [List.take_succ_cons, cellTotal, cellCount]
      omega
    rw [hsearch, Option.or_eq_some_iff, ih]
    constructor
    · rintro (⟨index, hindex, rfl⟩ | ⟨hnone, hfirst⟩)
      · exact ⟨index + 1, isLastNamed_cons_iff.mpr (.inl ⟨index, rfl, hindex⟩), (hshift index).symm⟩
      · have hname : entity.name = name := by
          by_contra hne
          simp [hne] at hfirst
        have hrest : name ∉ rest.map Entity.name := by
          intro hmem
          obtain ⟨index, hindex⟩ := exists_isLastNamed_iff.mpr hmem
          have hsome := (@ih (start + cellCount entity) _).mpr ⟨index, hindex, rfl⟩
          exact Option.some_ne_none _ (hsome.symm.trans hnone)
        refine ⟨0, isLastNamed_cons_iff.mpr (.inr ⟨rfl, hname, hrest⟩), ?_⟩
        rw [if_pos hname] at hfirst
        exact (Option.some.inj hfirst).symm
    · rintro ⟨index, hindex, rfl⟩
      obtain ⟨before, rfl, hbefore⟩ | ⟨rfl, hname, hrest⟩ := isLastNamed_cons_iff.mp hindex
      · exact .inl ⟨before, hbefore, hshift before⟩
      · refine .inr ⟨?_, by rw [if_pos hname]; rfl⟩
        rw [Option.eq_none_iff_forall_ne_some]
        intro id hsome
        obtain ⟨before, hbefore, -⟩ := ih.mp hsome
        exact hrest (exists_isLastNamed_iff.mp ⟨before, hbefore⟩)

theorem edge?_eq_some_iff
    {entities : List Entity} {id : Nat} {link : Relationship} {cell : Cell} :
    edge? (containersFrom firstId entities) id link = some cell ↔
      ∃ source target, IsLastNamed entities link.source source ∧
        IsLastNamed entities link.target target ∧
        cell = .edge id link.label link.cardinality (containerNumber entities source)
          (containerNumber entities target) := by
  constructor
  · intro hedge
    obtain ⟨_, hfrom, hrest⟩ := Option.bind_eq_some_iff.mp hedge
    obtain ⟨_, hto, hcell⟩ := Option.bind_eq_some_iff.mp hrest
    obtain ⟨source, hsource, rfl⟩ := containerOf?_eq_some_iff.mp hfrom
    obtain ⟨target, htarget, rfl⟩ := containerOf?_eq_some_iff.mp hto
    exact ⟨source, target, hsource, htarget, (Option.some.inj hcell).symm⟩
  · rintro ⟨source, target, hsource, htarget, rfl⟩
    rw [edge?, containerOf?_eq_some_iff.mpr ⟨source, hsource, rfl⟩,
      containerOf?_eq_some_iff.mpr ⟨target, htarget, rfl⟩]
    rfl

theorem mem_edgeCellsFrom_iff
    {containers : List (Text × Nat)} {id : Nat} {links : List Relationship} {cell : Cell} :
    cell ∈ edgeCellsFrom containers id links ↔
      ∃ index link, links[index]? = some link ∧ edge? containers (id + index) link = some cell := by
  induction links generalizing id with
  | nil => simp [edgeCellsFrom]
  | cons link rest ih =>
    rw [edgeCellsFrom, List.mem_append, Option.mem_toList, ih]
    constructor
    · rintro (hfirst | ⟨index, other, hother, hcell⟩)
      · exact ⟨0, link, rfl, hfirst⟩
      · exact ⟨index + 1, other, hother, by rwa [Nat.add_right_comm, Nat.add_assoc] at hcell⟩
    · rintro ⟨_ | index, other, hother, hcell⟩
      · obtain rfl := Option.some.inj hother
        exact .inl hcell
      · exact .inr ⟨index, other, hother, by rwa [Nat.add_right_comm, Nat.add_assoc]⟩

/-- Where every entity has a box, the document has the cells that belong to the diagram. -/
theorem mem_cells_iff
    {options : DrawioOptions} {placement : Placement Measure} {diagram : Diagram}
    (hboxes : ∀ entity ∈ diagram.entities, (placement.box? entity.name).isSome) {cell : Cell} :
    cell ∈ cells options placement diagram ↔ IsCellOf options placement diagram cell := by
  rw [cells, List.mem_append, foldl_cellCount, mem_entityCellsFrom_iff, mem_edgeCellsFrom_iff]
  constructor
  · rintro (⟨index, entity, hentity, hcell⟩ | ⟨index, link, hlink, hedge⟩)
    · obtain rfl | hrow := hcell
      · obtain ⟨box, hbox⟩ :=
          Option.isSome_iff_exists.mp (hboxes entity (List.mem_of_getElem? hentity))
        rw [boxOf, hbox]
        exact .container hentity hbox
      · obtain ⟨place, field, hfield, rfl⟩ := mem_rowsFrom_iff.mp hrow
        exact .row hentity hfield
    · obtain ⟨source, target, hsource, htarget, rfl⟩ := edge?_eq_some_iff.mp hedge
      exact .edge hlink hsource htarget
  · intro hcell
    cases hcell with
    | @container index entity box hentity hbox =>
      refine .inl ⟨index, entity, hentity, .inl ?_⟩
      rw [boxOf, hbox]
      rfl
    | @row index entity place field hentity hfield =>
      exact .inl ⟨index, entity, hentity, .inr (mem_rowsFrom_iff.mpr ⟨place, field, hfield, rfl⟩)⟩
    | @edge index link source target hlink hsource htarget =>
      exact .inr ⟨index, link, hlink, edge?_eq_some_iff.mpr ⟨source, target, hsource, htarget, rfl⟩⟩

theorem cellTotal_take_lt
    {entities : List Entity} {index : Nat} {entity : Entity}
    (h : entities[index]? = some entity) :
    cellTotal (entities.take index) + entity.attributes.length < cellTotal entities := by
  induction entities generalizing index with
  | nil => cases h
  | cons first rest ih =>
    cases index with
    | zero =>
      obtain rfl := Option.some.inj h
      simp only [List.take_zero, cellTotal]
      omega
    | succ index =>
      have hrest := ih h
      simp only [List.take_succ_cons, cellTotal]
      omega

/-- A relationship's number is that of a cell if and only if both its ends are entities. -/
theorem exists_id_eq_edgeNumber_iff
    {options : DrawioOptions} {placement : Placement Measure} {diagram : Diagram}
    (hboxes : ∀ entity ∈ diagram.entities, (placement.box? entity.name).isSome)
    {index : Nat} {link : Relationship} (hlink : diagram.relationships[index]? = some link) :
    (∃ cell ∈ cells options placement diagram, cell.id = edgeNumber diagram index) ↔
      link.source ∈ diagram.entities.map Entity.name ∧
        link.target ∈ diagram.entities.map Entity.name := by
  simp only [mem_cells_iff hboxes, ← exists_isLastNamed_iff]
  constructor
  · rintro ⟨cell, hcell, hid⟩
    cases hcell with
    | @container place entity box hentity =>
      have hlt := cellTotal_take_lt hentity
      simp only [Cell.id, containerNumber, edgeNumber] at hid
      omega
    | @row place entity offset field hentity hfield =>
      have hlt := cellTotal_take_lt hentity
      obtain ⟨hbound, -⟩ := List.getElem?_eq_some_iff.mp hfield
      simp only [Cell.id, containerNumber, edgeNumber] at hid
      omega
    | @edge other link' source target hother hsource htarget =>
      obtain rfl : other = index := Nat.add_left_cancel hid
      obtain rfl : link = link' := Option.some.inj (hlink.symm.trans hother)
      exact ⟨⟨source, hsource⟩, ⟨target, htarget⟩⟩
  · rintro ⟨⟨source, hsource⟩, ⟨target, htarget⟩⟩
    exact ⟨_, .edge hlink hsource htarget, rfl⟩

/-- What edges are attached to is in the document. -/
theorem exists_container_mem_cells
    {options : DrawioOptions} {placement : Placement Measure} {diagram : Diagram}
    (hboxes : ∀ entity ∈ diagram.entities, (placement.box? entity.name).isSome)
    {name : Text} {index : Nat} (h : IsLastNamed diagram.entities name index) :
    ∃ box, .container (containerNumber diagram.entities index) name box ∈
      cells options placement diagram := by
  have hname : (diagram.entities[index]?).map Entity.name = some name := by
    rw [← List.getElem?_map]
    exact h.1
  obtain ⟨entity, hentity, rfl⟩ := Option.map_eq_some_iff.mp hname
  obtain ⟨box, hbox⟩ := Option.isSome_iff_exists.mp (hboxes entity (List.mem_of_getElem? hentity))
  exact ⟨box, (mem_cells_iff hboxes).mpr (.container hentity hbox)⟩

/-- In any placement with a box for every entity, the cells are those that belong to the diagram, in
the strict order of their numbers and behind the root cells zero and one; the edge of a relationship
is among them if and only if both its ends are entities, and it is attached to containers that are
among them. Where the placement is that of some engine and options, there is a document if and only if
its numbers can be written, and the document is read back as exactly these cells. -/
theorem cells_numbered
    {options : DrawioOptions} {diagram : Diagram} {placement : Placement Measure}
    (hboxes : ∀ entity ∈ diagram.entities, (placement.box? entity.name).isSome) :
    (0 :: 1 :: (cells options placement diagram).map Cell.id).Pairwise (· < ·) ∧
      (∀ cell, cell ∈ cells options placement diagram ↔
        IsCellOf options placement diagram cell) ∧
      (∀ index link, diagram.relationships[index]? = some link →
        ((∃ cell ∈ cells options placement diagram, cell.id = edgeNumber diagram index) ↔
          link.source ∈ diagram.entities.map Entity.name ∧
            link.target ∈ diagram.entities.map Entity.name)) ∧
      (∀ name index, IsLastNamed diagram.entities name index →
        ∃ box, .container (containerNumber diagram.entities index) name box ∈
          cells options placement diagram) ∧
      ∀ (engine : DrawingEngine) (moment : CommandLine.Moment),
        placementOf engine options diagram = .ok placement →
          ((∃ text, render engine options moment.text diagram = .ok text) ↔
            IsWritable options placement diagram) ∧
          ∀ text, render engine options moment.text diagram = .ok text →
            readDocument text.toList =
              some (documentAround (modifiedText options moment.text)
                (rootElements ++ (cells options placement diagram).map (cellElement options))) := by
  refine ⟨pairwise_id_cells options placement diagram, fun _ => mem_cells_iff hboxes,
    fun _ _ => exists_id_eq_edgeNumber_iff hboxes, fun _ _ => exists_container_mem_cells hboxes, ?_⟩
  intro engine moment hplacement
  refine ⟨exists_render_iff hplacement moment.text, fun text htext => ?_⟩
  exact readDocument_of_render (fun _ => isFixedText_moment moment) hplacement htext

/-- Two entities share a name, and one relationship leads nowhere. -/
def twinDiagram : Diagram where
  entities := [
    { name := "A", attributes := [{ name := "b", type := { name := "B" } }] },
    { name := "B" },
    { name := "A" }]
  relationships := [⟨"A", "C", .oneToOne, "c", true⟩, ⟨"B", "A", .oneToOne, "a", true⟩]

/-- The relationship that leads nowhere uses up the number six, and the other one leads to the second
of the two entities with its name. -/
theorem cells_twinDiagram :
    ∃ placement text, placementOf idleEngine {} twinDiagram = .ok placement ∧
      (∀ entity ∈ twinDiagram.entities, (placement.box? entity.name).isSome) ∧
      (cells {} placement twinDiagram).map Cell.id = [2, 3, 4, 5, 7] ∧
      IsCellOf {} placement twinDiagram (.edge 7 "a" .oneToOne 4 5) ∧
      (∀ cell ∈ cells {} placement twinDiagram, cell.id ≠ edgeNumber twinDiagram 0) ∧
      render idleEngine {} (CommandLine.Moment.mk 0).text twinDiagram = .ok text ∧
      readDocument text.toList =
        some (documentAround (CommandLine.Moment.mk 0).text
          (rootElements ++ (cells {} placement twinDiagram).map (cellElement {}))) := by
  obtain ⟨text, htext⟩ : ∃ text,
      render idleEngine {} (CommandLine.Moment.mk 0).text twinDiagram = .ok text :=
    exists_of_isOk (by decide +kernel)
  obtain ⟨placement, hplacement, -⟩ := render_eq_ok_iff.mp htext
  have hboxes := isSome_box?_of_grid rfl hplacement
  obtain ⟨-, hcells, hedges, -, hread⟩ := cells_numbered hboxes
  refine ⟨placement, text, hplacement, hboxes, by rfl, (hcells _).mp ?_, ?_, htext,
    (hread _ _ hplacement).2 text htext⟩
  · exact List.mem_of_getElem? (i := 4) rfl
  · intro cell hcell hid
    have hends := (hedges 0 _ rfl).mp ⟨cell, hcell, hid⟩
    exact absurd hends (by decide)

end EntityDiagram.Render.Drawio
