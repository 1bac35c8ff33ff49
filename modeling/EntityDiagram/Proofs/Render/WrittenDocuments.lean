import EntityDiagram.Proofs.Layout.GridNumbers
import EntityDiagram.Proofs.Render.CellElements
import EntityDiagram.Render.Renderer

/-!
# Which documents are written

A placed diagram has a document if its numbers can be written. The numbers of boxes have to be in the
range of doubles. The sizes of a row are written as they were given, and as whole numbers they must not
have too many digits; this matters where there is a row. What is written is read back as its cells.

In rows every entity has a box. There is a placement if all sizes are whole, and otherwise unless a
whole number beyond the range of doubles meets a double.
-/

namespace EntityDiagram.Number

/-- A whole number with at most as many digits as numbers are written with, or a double. -/
def Measure.IsShort : Measure → Prop
  | .whole n => (Nat.toDigits 10 n.natAbs).length ≤ 4300
  | .binary _ => True

theorem Measure.textFault?_eq_none_iff
    {a : Measure} :
    a.textFault? = none ↔ a.IsShort := by
  cases a with
  | whole n =>
    rw [textFault?, ite_eq_right_iff, imp_iff_not (by simp), Nat.not_lt]
    rfl
  | binary x => simp [textFault?, IsShort]

theorem Measure.eq_tooLong_of_textFault?
    {a : Measure} {fault : NumberFault} (h : a.textFault? = some fault) :
    fault = .tooLong := by
  cases a with
  | whole n =>
    rw [textFault?] at h
    split at h
    · exact (Option.some.inj h).symm
    · cases h
  | binary x => cases h

end EntityDiagram.Number

namespace EntityDiagram.Layout

open Number (Measure NumberFault)

/-- All numbers of a box are in the range of doubles. -/
def Box.IsDrawable (box : Box Measure) : Prop :=
  ∀ a ∈ box.numbers, a.double?.isSome = true

instance (box : Box Measure) : Decidable box.IsDrawable :=
  inferInstanceAs (Decidable (∀ a ∈ box.numbers, _))

theorem Box.fault?_eq_none_iff
    {box : Box Measure} :
    box.fault? = none ↔ box.IsDrawable := by
  simp only [fault?, IsDrawable, numbers, List.findSome?_eq_none_iff, Measure.plainTextFault?,
    ite_eq_left_iff, Bool.not_eq_true, reduceCtorEq, imp_false, Bool.not_eq_false]

theorem Box.eq_tooLarge_of_fault?
    {box : Box Measure} {fault : NumberFault} (h : box.fault? = some fault) :
    fault = .tooLarge := by
  obtain ⟨a, -, hfault⟩ := List.exists_of_findSome?_eq_some h
  rw [Measure.plainTextFault?] at hfault
  split at hfault
  · cases hfault
  · exact (Option.some.inj hfault).symm

end EntityDiagram.Layout

namespace EntityDiagram.Render.Drawio

open Declaration.Parse (bind_eq_ok)
open Layout (Box DrawingEngine LayoutFault Metrics Placement)
open Model (Diagram Entity)
open Number (Measure)

variable {engine : DrawingEngine} {options : DrawioOptions} {placement : Placement Measure}
  {diagram : Diagram}

/-! ## Documents of placed diagrams -/

/-- The sizes of a row have few enough digits to be written. -/
def HasShortRows (options : DrawioOptions) : Prop :=
  options.entityWidth.IsShort ∧ options.rowHeight.IsShort

theorem rowFault?_eq_none_iff :
    rowFault? options = none ↔ HasShortRows options := by
  simp [rowFault?, HasShortRows, Measure.textFault?_eq_none_iff]

/-- The container of an entity and its rows can be written. -/
structure CanWrite
    (options : DrawioOptions) (placement : Placement Measure) (entity : Entity) : Prop where
  box : ∃ box, placement.box? entity.name = some box ∧ box.IsDrawable
  rows : entity.attributes ≠ [] → HasShortRows options

/-- The document of a placed diagram can be written. -/
def IsWritable
    (options : DrawioOptions) (placement : Placement Measure) (diagram : Diagram) : Prop :=
  ∀ entity ∈ diagram.entities, CanWrite options placement entity

/-- Why the container of an entity or its rows cannot be written. -/
inductive IsObstacle
    (options : DrawioOptions) (placement : Placement Measure) (entity : Entity) : LayoutFault → Prop
  | unplaced (h : placement.box? entity.name = none) :
    IsObstacle options placement entity (.unplaced entity.name)
  | tooLarge {box : Box Measure} (hbox : placement.box? entity.name = some box)
      (h : ¬box.IsDrawable) :
    IsObstacle options placement entity (.number .tooLarge)
  | tooLong (hrows : entity.attributes ≠ []) (h : ¬HasShortRows options) :
    IsObstacle options placement entity (.number .tooLong)

theorem entityFault?_eq_none_iff
    {entity : Entity} :
    entityFault? options placement entity = none ↔ CanWrite options placement entity := by
  rw [entityFault?]
  cases hbox : placement.box? entity.name with
  | none =>
    simp only [reduceCtorEq, false_iff]
    rintro ⟨⟨box, hsome, -⟩, -⟩
    exact Option.some_ne_none box (hsome.symm.trans hbox)
  | some box =>
    simp only [Option.map_eq_none_iff, Option.or_eq_none_iff, Box.fault?_eq_none_iff]
    constructor
    · rintro ⟨hdrawable, hrows⟩
      refine ⟨⟨box, hbox, hdrawable⟩, fun hne => rowFault?_eq_none_iff.mp ?_⟩
      rwa [if_neg (by simpa using hne)] at hrows
    · rintro ⟨⟨other, hother, hdrawable⟩, hrows⟩
      obtain rfl := Option.some.inj (hbox.symm.trans hother)
      refine ⟨hdrawable, ?_⟩
      split
      · rfl
      · rename_i hne
        exact rowFault?_eq_none_iff.mpr (hrows (by simpa using hne))

theorem isObstacle_of_entityFault?
    {entity : Entity} {fault : LayoutFault} (h : entityFault? options placement entity = some fault) :
    IsObstacle options placement entity fault := by
  rw [entityFault?] at h
  cases hbox : placement.box? entity.name with
  | none =>
    rw [hbox] at h
    obtain rfl := Option.some.inj h
    exact .unplaced hbox
  | some box =>
    rw [hbox] at h
    obtain ⟨reason, hreason, rfl⟩ := Option.map_eq_some_iff.mp h
    obtain hfault | ⟨-, hrows⟩ := Option.or_eq_some_iff.mp hreason
    · obtain rfl := Box.eq_tooLarge_of_fault? hfault
      refine .tooLarge hbox fun hdrawable => ?_
      rw [Box.fault?_eq_none_iff.mpr hdrawable] at hfault
      cases hfault
    · split at hrows
      · cases hrows
      · rename_i hne
        obtain ⟨a, -, hfault⟩ := List.exists_of_findSome?_eq_some hrows
        obtain rfl := Measure.eq_tooLong_of_textFault? hfault
        refine .tooLong (by simpa using hne) fun hshort => ?_
        rw [rowFault?_eq_none_iff.mpr hshort] at hrows
        cases hrows

theorem renderBoxed_eq_ok_iff
    {now : String} {text : Text} :
    renderBoxed options now placement diagram = .ok text ↔
      IsWritable options placement diagram ∧ renderPlaced options now placement diagram = text := by
  have hnone : diagram.entities.findSome? (entityFault? options placement) = none ↔
      IsWritable options placement diagram := by
    simp only [List.findSome?_eq_none_iff, entityFault?_eq_none_iff, IsWritable]
  rw [renderBoxed, ← hnone]
  split
  · rename_i fault hfault
    simp [hfault]
  · rename_i hfault
    simp [hfault]

theorem exists_isObstacle_of_renderBoxed
    {now : String} {fault : LayoutFault}
    (h : renderBoxed options now placement diagram = .error fault) :
    ∃ entity ∈ diagram.entities, IsObstacle options placement entity fault := by
  rw [renderBoxed] at h
  split at h
  · rename_i other hother
    obtain rfl := Except.error.inj h
    obtain ⟨entity, hentity, hfault⟩ := List.exists_of_findSome?_eq_some hother
    exact ⟨entity, hentity, isObstacle_of_entityFault? hfault⟩
  · cases h

theorem render_of_placementOf
    (hplacement : placementOf engine options diagram = .ok placement) (now : String) :
    render engine options now diagram = renderBoxed options now placement diagram := by
  rw [render, hplacement]
  rfl

theorem exists_render_iff
    (hplacement : placementOf engine options diagram = .ok placement) (now : String) :
    (∃ text, render engine options now diagram = .ok text) ↔
      IsWritable options placement diagram := by
  rw [render_of_placementOf hplacement]
  simp [renderBoxed_eq_ok_iff]

/-- A document is that of the cells of the diagram, with the boxes of a placement. -/
theorem render_eq_ok_iff
    {now : String} {text : Text} :
    render engine options now diagram = .ok text ↔
      ∃ placement, placementOf engine options diagram = .ok placement ∧
        IsWritable options placement diagram ∧
        renderPlaced options now placement diagram = text := by
  constructor
  · intro h
    obtain ⟨placement, hplacement, hboxed⟩ := bind_eq_ok h
    exact ⟨placement, hplacement, renderBoxed_eq_ok_iff.mp hboxed⟩
  · rintro ⟨placement, hplacement, hwritten⟩
    rw [render_of_placementOf hplacement]
    exact renderBoxed_eq_ok_iff.mpr hwritten

theorem exists_render_iff_placed
    {now : String} :
    (∃ text, render engine options now diagram = .ok text) ↔
      ∃ placement, placementOf engine options diagram = .ok placement ∧
        IsWritable options placement diagram := by
  simp [render_eq_ok_iff]

/-- A document is read back as its cells. -/
theorem readDocument_of_render
    {now : String} (hnow : options.modified.bind Text.nonempty? = none → IsFixedText now)
    (hplacement : placementOf engine options diagram = .ok placement) {text : Text}
    (h : render engine options now diagram = .ok text) :
    Text.Markup.readDocument text.toList =
      some (documentAround (modifiedText options now)
        (rootElements ++ (cells options placement diagram).map (cellElement options))) := by
  obtain ⟨other, hother, -, rfl⟩ := render_eq_ok_iff.mp h
  obtain rfl := Except.ok.inj (hplacement.symm.trans hother)
  exact readDocument_renderPlaced hnow placement diagram

/-! ## Documents in rows -/

/-- All sizes are whole numbers, and so is the length of a row. -/
def HasWholeSizes (options : DrawioOptions) : Prop :=
  (∃ sizes : Metrics Int, metricsOf options = sizes.map .whole) ∧
    ∃ perRow : Int, options.entitiesPerRow = .whole perRow

theorem placementOf_grid
    (hlayout : options.layout = "grid") (engine : DrawingEngine) (diagram : Diagram) :
    placementOf engine options diagram =
      Layout.gridPlacement (metricsOf options) options.entitiesPerRow diagram.entities := by
  rw [placementOf, if_neg (by rw [hlayout]; decide)]

theorem isZero_eq_false_of_fault?
    (hvalid : (Options.drawio options).fault? = none) :
    options.entitiesPerRow.isZero = false := by
  refine Measure.isZero_eq_false_of_less ?_
  rw [Bool.eq_false_iff]
  intro hless
  simp [Options.fault?, hless] at hvalid

/-- In rows of an accepted length whole sizes always lead to a placement. -/
theorem exists_placementOf_of_hasWholeSizes
    (hlayout : options.layout = "grid") (hvalid : (Options.drawio options).fault? = none)
    (hwhole : HasWholeSizes options) (engine : DrawingEngine) (diagram : Diagram) :
    ∃ placement, placementOf engine options diagram = .ok placement := by
  obtain ⟨⟨sizes, hsizes⟩, perRow, hrow⟩ := hwhole
  have hnonzero := isZero_eq_false_of_fault? hvalid
  rw [placementOf_grid hlayout, hsizes, hrow]
  exact Layout.exists_gridPlacement_of_whole (by simpa [hrow, Measure.isZero] using hnonzero) sizes _

/-- In rows every entity has a box. -/
theorem isSome_box?_of_grid
    (hlayout : options.layout = "grid")
    (hplacement : placementOf engine options diagram = .ok placement) :
    ∀ entity ∈ diagram.entities, (placement.box? entity.name).isSome := by
  intro entity hentity
  rw [placementOf_grid hlayout] at hplacement
  obtain ⟨box, hbox, -⟩ :=
    Layout.exists_box?_gridPlacement hplacement (List.mem_map_of_mem hentity)
  rw [hbox]
  rfl

/-- Why a diagram has no document in rows. -/
inductive IsRowsFault (options : DrawioOptions) (diagram : Diagram) : LayoutFault → Prop
  /-- A whole number beyond the range of doubles meets a double while the boxes are placed. -/
  | computed (hsizes : ¬HasWholeSizes options)
      (h : Layout.gridPlacement (metricsOf options) options.entitiesPerRow diagram.entities =
        .error (.number .tooLarge)) :
    IsRowsFault options diagram (.number .tooLarge)
  /-- The box of an entity has a whole number beyond the range of doubles. -/
  | drawn {placement : Placement Measure} {entity : Entity} {box : Box Measure}
      (hplacement : Layout.gridPlacement (metricsOf options) options.entitiesPerRow
        diagram.entities = .ok placement)
      (hentity : entity ∈ diagram.entities) (hbox : placement.box? entity.name = some box)
      (h : ¬box.IsDrawable) :
    IsRowsFault options diagram (.number .tooLarge)
  /-- An entity has a row whose width or height has too many digits. -/
  | written {entity : Entity} (hentity : entity ∈ diagram.entities)
      (hrows : entity.attributes ≠ []) (h : ¬HasShortRows options) :
    IsRowsFault options diagram (.number .tooLong)

theorem isRowsFault_of_render
    (hlayout : options.layout = "grid") (hvalid : (Options.drawio options).fault? = none)
    {now : String} {fault : LayoutFault} (h : render engine options now diagram = .error fault) :
    IsRowsFault options diagram fault := by
  cases hplacement : placementOf engine options diagram with
  | error other =>
    rw [render, hplacement] at h
    obtain rfl := Except.error.inj h
    have hsizes : ¬HasWholeSizes options := by
      intro hwhole
      obtain ⟨placement, hsome⟩ :=
        exists_placementOf_of_hasWholeSizes hlayout hvalid hwhole engine diagram
      cases hsome.symm.trans hplacement
    rw [placementOf_grid hlayout] at hplacement
    obtain rfl := Layout.gridPlacement_eq_error (isZero_eq_false_of_fault? hvalid) hplacement
    exact .computed hsizes hplacement
  | ok placement =>
    rw [render_of_placementOf hplacement] at h
    have hboxes := isSome_box?_of_grid hlayout hplacement
    obtain ⟨entity, hentity, hobstacle⟩ := exists_isObstacle_of_renderBoxed h
    cases hobstacle with
    | unplaced hnone =>
      have hsome := hboxes entity hentity
      rw [hnone] at hsome
      cases hsome
    | tooLarge hbox hdrawable =>
      exact .drawn (placementOf_grid hlayout engine diagram ▸ hplacement) hentity hbox hdrawable
    | tooLong hrows hshort => exact .written hentity hrows hshort

/-! ## Examples -/

/-- An engine that finds no components, for drawings in rows. -/
def idleEngine : DrawingEngine := fun _ _ => []

/-- Boxes that are too wide for doubles. -/
def wideOptions : DrawioOptions where
  entityWidth := .whole (Int.ofNat (Nat.pow 10 309))
  modified := some "now"

theorem hasWholeSizes_wideOptions :
    HasWholeSizes wideOptions :=
  ⟨⟨⟨_, 26, 80, 80⟩, rfl⟩, 3, rfl⟩

theorem exists_of_isOk
    {ε α : Type} {x : Except ε α} (h : x.isOk = true) :
    ∃ a, x = .ok a := by
  cases x with
  | error fault => cases h
  | ok a => exact ⟨a, rfl⟩

end EntityDiagram.Render.Drawio
