import EntityDiagram.Proofs.Layout.Components
import EntityDiagram.Proofs.Layout.Placements
import Mathlib.Data.Rat.Floor
import Mathlib.Order.Bounds.Basic
import Mathlib.Tactic.Linarith
import Mathlib.Tactic.NormNum
import Mathlib.Tactic.Ring

/-!
# Components stand side by side

Wherever an engine puts the centres, a component starts at its offset, below the margin, and ends a
spacing in front of the offset of the next one. So without rounding the boxes of different components
are at least the spacing apart. Rounding moves a corner by half a unit at most, so it takes one unit
from that distance at most.
-/

namespace EntityDiagram.Number

/-! ## Rounding -/

theorem roundToEven_bounds
    (r : ℚ) :
    r - 1 / 2 ≤ roundToEven r ∧ roundToEven r ≤ r + 1 / 2 := by
  have hlower := Rat.floor_le r
  have hupper := Rat.lt_floor_add_one r
  push_cast at hupper
  unfold roundToEven
  simp only
  split_ifs
  all_goals
    push_cast
    constructor <;> linarith

/-- Rounding does not go below a whole number. -/
theorem le_roundToEven
    {n : ℤ} {r : ℚ} (h : n ≤ r) :
    n ≤ roundToEven r := by
  have hlower := Rat.le_floor_iff.mpr h
  unfold roundToEven
  simp only
  split_ifs
  all_goals omega

theorem roundToEven_intCast
    (n : ℤ) :
    roundToEven n = n := by
  simp [roundToEven, Rat.floor_intCast]

namespace Scalar

theorem half_eq
    (a : ℚ) :
    half a = a / 2 :=
  rfl

/-! ## Smallest and largest numbers -/

theorem lesser_spec
    (a b : ℚ) :
    lesser a b ≤ a ∧ lesser a b ≤ b ∧ (lesser a b = a ∨ lesser a b = b) := by
  have hlesser : lesser a b = if b < a then b else a := rfl
  rw [hlesser]
  split_ifs with hless
  · exact ⟨hless.le, le_rfl, .inr rfl⟩
  · exact ⟨le_rfl, not_lt.mp hless, .inl rfl⟩

theorem greater_spec
    (a b : ℚ) :
    a ≤ greater a b ∧ b ≤ greater a b := by
  have hgreater : greater a b = if a < b then b else a := rfl
  rw [hgreater]
  split_ifs with hless
  · exact ⟨hless.le, le_rfl⟩
  · exact ⟨le_rfl, not_lt.mp hless⟩

theorem isLeast_smallest
    (first : ℚ) (others : List ℚ) :
    IsLeast {x | x ∈ first :: others} (smallest first others) := by
  induction others generalizing first with
  | nil => exact ⟨List.mem_singleton_self first, fun x hx => (List.mem_singleton.mp hx).ge⟩
  | cons next rest ih =>
    obtain ⟨hfirst, hnext, hone⟩ := lesser_spec first next
    obtain ⟨hmem, hlower⟩ := ih (lesser first next)
    have hle := hlower (List.mem_cons_self : lesser first next ∈ lesser first next :: rest)
    constructor
    · obtain hsame | hrest := List.mem_cons.mp hmem
      · obtain heq | heq := hone
        · exact List.mem_cons.mpr (.inl (hsame.trans heq))
        · exact List.mem_cons_of_mem _ (List.mem_cons.mpr (.inl (hsame.trans heq)))
      · exact List.mem_cons_of_mem _ (List.mem_cons_of_mem _ hrest)
    · intro x hx
      obtain rfl | hx := List.mem_cons.mp hx
      · exact hle.trans hfirst
      · obtain rfl | hx := List.mem_cons.mp hx
        · exact hle.trans hnext
        · exact hlower (List.mem_cons_of_mem _ hx)

theorem le_largest
    {first x : ℚ} {others : List ℚ} (hx : x ∈ first :: others) :
    x ≤ largest first others := by
  induction others generalizing first x with
  | nil => exact (List.mem_singleton.mp hx).le
  | cons next rest ih =>
    obtain ⟨hfirst, hnext⟩ := greater_spec first next
    have hle : greater first next ≤ largest (greater first next) rest := ih List.mem_cons_self
    obtain rfl | hx := List.mem_cons.mp hx
    · exact hfirst.trans hle
    · obtain rfl | hx := List.mem_cons.mp hx
      · exact hnext.trans hle
      · exact ih (List.mem_cons_of_mem _ hx)

end Scalar

end EntityDiagram.Number

namespace EntityDiagram.Layout

open Layered (Graph lastHeight)
open Model (Diagram Entity)
open Number (Scalar roundToEven)
open Number.Scalar (half_eq)

/-! ## Before rounding -/

/-- The smallest value of a function on a list that is not empty. -/
def smallestOf {β : Type} (f : β → ℚ) : List β → ℚ
  | [] => 0
  | first :: rest => Scalar.smallest (f first) (rest.map f)

/-- The largest value of a function on a list that is not empty. -/
def largestOf {β : Type} (f : β → ℚ) : List β → ℚ
  | [] => 0
  | first :: rest => Scalar.largest (f first) (rest.map f)

section

variable (metrics : Metrics ℚ) (heightOf : Text → ℚ)

/-- The boxes of a component at an offset, with the corners as they are before they are rounded. -/
def unroundedGroup (offset : ℚ) (component : Component ℚ) : Placement ℚ :=
  component.map fun entry => (entry.1, {
    x := leftEdge metrics entry - smallestOf (leftEdge metrics) component + offset
    y := topEdge heightOf entry - smallestOf (topEdge heightOf) component + 40
    width := metrics.entityWidth
    height := heightOf entry.1 })

/-- The offset behind a component. -/
def behindGroup (offset : ℚ) (component : Component ℚ) : ℚ :=
  offset + (largestOf (rightEdge metrics) component - smallestOf (leftEdge metrics) component +
    metrics.horizontalSpacing)

/-- The boxes of components, a group for each of them, before rounding. -/
def unroundedGroups : ℚ → List (Component ℚ) → List (Placement ℚ)
  | _, [] => []
  | offset, component :: rest =>
    unroundedGroup metrics heightOf offset component ::
      unroundedGroups (behindGroup metrics offset component) rest

end

/-- A box with its corner rounded. -/
def Box.rounded (box : Box ℚ) : Box ℚ :=
  { box with
    x := roundToEven box.x
    y := roundToEven box.y }

/-- Boxes with their corners rounded. -/
def Placement.rounded (placement : Placement ℚ) : Placement ℚ :=
  placement.map fun (name, box) => (name, box.rounded)

variable {metrics : Metrics ℚ} {heightOf : Text → ℚ}

theorem boxesWithin_eq
    (offset : ℚ) (first : Text × Centre ℚ) (rest : Component ℚ) :
    boxesWithin metrics heightOf offset (extentOf metrics heightOf first rest) (first :: rest) =
      (unroundedGroup metrics heightOf offset (first :: rest)).rounded := by
  rw [unroundedGroup, Placement.rounded, List.map_map]
  rfl

theorem offsetBehind_eq
    (offset : ℚ) (first : Text × Centre ℚ) (rest : Component ℚ) :
    offsetBehind metrics offset (extentOf metrics heightOf first rest) =
      behindGroup metrics offset (first :: rest) :=
  rfl

theorem placeComponents_eq
    {components : List (Component ℚ)} (hcomponents : ∀ component ∈ components,
      component ≠ []) (offset : ℚ) :
    placeComponents metrics heightOf offset components =
      ((unroundedGroups metrics heightOf offset components).map Placement.rounded).flatten := by
  induction components generalizing offset with
  | nil => rfl
  | cons component rest ih =>
    obtain ⟨hcomponent, hrest⟩ := List.forall_mem_cons.mp hcomponents
    cases component with
    | nil => exact absurd rfl hcomponent
    | cons first more =>
      rw [placeComponents, boxesWithin_eq, offsetBehind_eq, unroundedGroups, List.map_cons,
        List.flatten_cons, ← ih hrest]

theorem names_unroundedGroups
    (offset : ℚ) (components : List (Component ℚ)) :
    (unroundedGroups metrics heightOf offset components).map (List.map Prod.fst) =
      components.map (List.map Prod.fst) := by
  induction components generalizing offset with
  | nil => rfl
  | cons component rest ih =>
    rw [unroundedGroups, List.map_cons, List.map_cons, ih]
    congr 1
    simp [unroundedGroup, Function.comp_def]

/-- No box of the groups has a negative width. -/
def HaveWidths (groups : List (Placement ℚ)) : Prop :=
  ∀ group ∈ groups, ∀ entry ∈ group, 0 ≤ entry.2.width

theorem haveWidths_unroundedGroups
    (hwidth : 0 ≤ metrics.entityWidth) (offset : ℚ)
    (components : List (Component ℚ)) :
    HaveWidths (unroundedGroups metrics heightOf offset components) := by
  induction components generalizing offset with
  | nil => exact List.forall_mem_nil _
  | cons component rest ih =>
    exact List.forall_mem_cons.mpr ⟨List.forall_mem_map.mpr fun _ _ => hwidth, ih _⟩

/-! ## One component -/

theorem isLeast_smallestOf
    {β : Type} {items : List β} (hitems : items ≠ []) (f : β → ℚ) :
    IsLeast {x | ∃ item ∈ items, f item = x} (smallestOf f items) := by
  cases items with
  | nil => exact absurd rfl hitems
  | cons first rest =>
    have hleast := Scalar.isLeast_smallest (f first) (rest.map f)
    have hset : {x | ∃ item ∈ first :: rest, f item = x} = {x | x ∈ f first :: rest.map f} := by
      ext x
      rw [Set.mem_ofPred_eq, Set.mem_ofPred_eq, ← List.map_cons, List.mem_map]
    exact hset ▸ hleast

theorem le_largestOf
    {β : Type} {items : List β} {item : β} (hitem : item ∈ items) (f : β → ℚ) :
    f item ≤ largestOf f items := by
  cases items with
  | nil => cases hitem
  | cons first rest =>
    have hmem : f item ∈ (first :: rest).map f := List.mem_map_of_mem hitem
    exact Scalar.le_largest hmem

/-- Boxes that start at an offset, below the margin, and end a spacing in front of another offset. -/
structure Fills (spacing offset : ℚ) (group : Placement ℚ) (behind : ℚ) : Prop where
  left : IsLeast {x | ∃ entry ∈ group, entry.2.x = x} offset
  top : IsLeast {y | ∃ entry ∈ group, entry.2.y = y} 40
  right : ∀ entry ∈ group, entry.2.x + entry.2.width + spacing ≤ behind

/-- The smallest of shifted values is the shifted smallest value. -/
theorem isLeast_shifted
    {β : Type} {items : List β} (hitems : items ≠ []) (f : β → ℚ) (start : ℚ) :
    IsLeast {x | ∃ item ∈ items, f item - smallestOf f items + start = x} start := by
  obtain ⟨⟨item, hitem, hsame⟩, hlower⟩ := isLeast_smallestOf hitems f
  refine ⟨⟨item, hitem, by rw [hsame, sub_self, zero_add]⟩, ?_⟩
  rintro x ⟨other, hother, rfl⟩
  have hle : smallestOf f items ≤ f other := hlower ⟨other, hother, rfl⟩
  linarith

/-- Wherever its centres are, a component fills the space from its offset to the next one. -/
theorem fills_unroundedGroup
    {component : Component ℚ} (hcomponent : component ≠ []) (offset : ℚ) :
    Fills metrics.horizontalSpacing offset (unroundedGroup metrics heightOf offset component)
      (behindGroup metrics offset component) where
  left := by
    have hleast := isLeast_shifted hcomponent (leftEdge metrics) offset
    simpa [unroundedGroup] using hleast
  top := by
    have hleast := isLeast_shifted hcomponent (topEdge heightOf) 40
    simpa [unroundedGroup] using hleast
  right := by
    intro entry hentry
    obtain ⟨centred, hcentred, rfl⟩ := List.mem_map.mp hentry
    have hright := le_largestOf hcentred (rightEdge metrics)
    have hedges : rightEdge metrics centred = leftEdge metrics centred + metrics.entityWidth := by
      simp only [rightEdge, leftEdge, half_eq]
      ring
    simp only [behindGroup]
    linarith

/-! ## All components -/

/-- Groups of boxes that fill the space behind an offset one after the other. -/
inductive FillsInTurn (spacing : ℚ) : ℚ → List (Placement ℚ) → Prop
  | nil (offset : ℚ) : FillsInTurn spacing offset []
  | cons {offset behind : ℚ} {group : Placement ℚ} {rest : List (Placement ℚ)}
      (hgroup : Fills spacing offset group behind) (hrest : FillsInTurn spacing behind rest) :
    FillsInTurn spacing offset (group :: rest)

theorem fillsInTurn_unroundedGroups
    {components : List (Component ℚ)} (hcomponents : ∀ component ∈ components,
      component ≠ []) (offset : ℚ) :
    FillsInTurn metrics.horizontalSpacing offset
      (unroundedGroups metrics heightOf offset components) := by
  induction components generalizing offset with
  | nil => exact .nil offset
  | cons component rest ih =>
    obtain ⟨hcomponent, hrest⟩ := List.forall_mem_cons.mp hcomponents
    exact .cons (fills_unroundedGroup hcomponent offset) (ih hrest _)

theorem FillsInTurn.offset_le
    {spacing offset : ℚ} {groups : List (Placement ℚ)} (h : FillsInTurn spacing offset groups)
    (hspacing : 0 ≤ spacing) (hwidths : HaveWidths groups) :
    ∀ group ∈ groups, ∀ entry ∈ group, offset ≤ entry.2.x := by
  induction h with
  | nil => exact List.forall_mem_nil _
  | @cons offset behind group rest hgroup _ ih =>
    obtain ⟨hfirst, hrest⟩ := List.forall_mem_cons.mp hwidths
    -- The box at the offset has a width, so the next group starts behind the offset.
    obtain ⟨⟨leftmost, hleftmost, hoffset⟩, hlower⟩ := hgroup.left
    have hbehind : offset ≤ behind := by
      linarith [hgroup.right leftmost hleftmost, hfirst leftmost hleftmost]
    refine List.forall_mem_cons.mpr ⟨fun entry hentry => hlower ⟨entry, hentry, rfl⟩, ?_⟩
    exact fun other hother entry hentry => hbehind.trans (ih hrest other hother entry hentry)

/-- A box of an earlier group ends the spacing in front of every box of a later one. -/
theorem FillsInTurn.pairwise
    {spacing offset : ℚ} {groups : List (Placement ℚ)} (h : FillsInTurn spacing offset groups)
    (hspacing : 0 ≤ spacing) (hwidths : HaveWidths groups) :
    groups.Pairwise fun before after => ∀ u ∈ before, ∀ v ∈ after,
      u.2.x + u.2.width + spacing ≤ v.2.x := by
  induction h with
  | nil => exact List.Pairwise.nil
  | cons hgroup hturn ih =>
    obtain ⟨-, hrest⟩ := List.forall_mem_cons.mp hwidths
    refine List.pairwise_cons.mpr ⟨?_, ih hrest⟩
    intro later hlater u hu v hv
    exact (hgroup.right u hu).trans (hturn.offset_le hspacing hrest later hlater v hv)

theorem FillsInTurn.top
    {spacing offset : ℚ} {groups : List (Placement ℚ)} (h : FillsInTurn spacing offset groups) :
    ∀ group ∈ groups, IsLeast {y | ∃ entry ∈ group, entry.2.y = y} 40 := by
  induction h with
  | nil => exact List.forall_mem_nil _
  | cons hgroup _ ih => exact List.forall_mem_cons.mpr ⟨hgroup.top, ih⟩

theorem FillsInTurn.left
    {spacing offset : ℚ} {groups : List (Placement ℚ)} (h : FillsInTurn spacing offset groups)
    {first : Placement ℚ} (hfirst : groups.head? = some first) :
    IsLeast {x | ∃ entry ∈ first, entry.2.x = x} offset := by
  cases h with
  | nil => cases hfirst
  | cons hgroup _ =>
    obtain rfl := Option.some.inj hfirst
    exact hgroup.left

/-! ## After rounding -/

/-- Rounding keeps a smallest coordinate that is a whole number. -/
theorem isLeast_rounded
    {group : Placement ℚ} {coordinate : Box ℚ → ℚ} {n : ℤ}
    (hrounded : ∀ box : Box ℚ, coordinate box.rounded = roundToEven (coordinate box))
    (h : IsLeast {x | ∃ entry ∈ group, coordinate entry.2 = x} n) :
    IsLeast {x | ∃ entry ∈ group.rounded, coordinate entry.2 = x} n := by
  obtain ⟨⟨least, hleast, hvalue⟩, hlower⟩ := h
  constructor
  · refine ⟨_, List.mem_map_of_mem hleast, ?_⟩
    rw [hrounded, hvalue, Number.roundToEven_intCast]
  · rintro x ⟨entry, hentry, rfl⟩
    obtain ⟨original, horiginal, rfl⟩ := List.mem_map.mp hentry
    rw [hrounded]
    exact_mod_cast Number.le_roundToEven (hlower ⟨original, horiginal, rfl⟩)

/-- The boxes of a diagram in layers, with the corners as they are before they are rounded. -/
def unroundedPlacementBy (engine : Engine ℚ) (metrics : Metrics ℚ) (diagram : Diagram) :
    Placement ℚ :=
  let graph := Graph.ofDiagram metrics diagram
  (unroundedGroups metrics (lastHeight metrics diagram.entities) 40 (engine metrics graph)).flatten

theorem layeredPlacementBy_eq
    {engine : Engine ℚ} {diagram : Diagram}
    (hsplits : Splits (Graph.ofDiagram metrics diagram)
      (engine metrics (Graph.ofDiagram metrics diagram))) :
    layeredPlacementBy engine metrics diagram =
      (unroundedPlacementBy engine metrics diagram).rounded := by
  rw [unroundedPlacementBy, Placement.rounded, List.map_flatten]
  exact placeComponents_eq hsplits.nonempty 40

/-- Groups of boxes that start at the margins and stand side by side, a distance apart. -/
structure SideBySide (distance : ℚ) (groups : List (Placement ℚ)) : Prop where
  top : ∀ group ∈ groups, IsLeast {y | ∃ entry ∈ group, entry.2.y = y} 40
  left : ∀ first, groups.head? = some first → IsLeast {x | ∃ entry ∈ first, entry.2.x = x} 40
  apart : groups.Pairwise fun before after => ∀ u ∈ before, ∀ v ∈ after,
    u.2.x + u.2.width + distance ≤ v.2.x

/-- Two boxes lose one unit of their distance when their corners are rounded, and nothing if these
are whole numbers. -/
theorem FillsInTurn.sideBySide_rounded
    {spacing : ℚ} {groups : List (Placement ℚ)} (h : FillsInTurn spacing 40 groups)
    (hspacing : 0 ≤ spacing) (hwidths : HaveWidths groups) :
    SideBySide (spacing - 1) (groups.map Placement.rounded) ∧
      ((∀ entry ∈ groups.flatten, ∃ n : ℤ, entry.2.x = n) →
        SideBySide spacing (groups.map Placement.rounded)) := by
  have htop : ∀ group ∈ groups.map Placement.rounded,
      IsLeast {y | ∃ entry ∈ group, entry.2.y = y} 40 := by
    refine List.forall_mem_map.mpr fun group hgroup => ?_
    exact_mod_cast isLeast_rounded (n := 40) (fun _ => rfl) (by exact_mod_cast h.top group hgroup)
  have hleft : ∀ first, (groups.map Placement.rounded).head? = some first →
      IsLeast {x | ∃ entry ∈ first, entry.2.x = x} 40 := by
    intro first hfirst
    rw [List.head?_map, Option.map_eq_some_iff] at hfirst
    obtain ⟨group, hgroup, rfl⟩ := hfirst
    exact_mod_cast isLeast_rounded (n := 40) (fun _ => rfl) (by exact_mod_cast h.left hgroup)
  have hpairs := h.pairwise hspacing hwidths
  refine ⟨⟨htop, hleft, List.pairwise_map.mpr ?_⟩, fun hwhole =>
    ⟨htop, hleft, List.pairwise_map.mpr ?_⟩⟩
  · refine hpairs.imp fun {before after} hpair => List.forall_mem_map.mpr fun u hu =>
      List.forall_mem_map.mpr fun v hv => ?_
    have hexact := hpair u hu v hv
    have hfirst := (Number.roundToEven_bounds u.2.x).2
    have hsecond := (Number.roundToEven_bounds v.2.x).1
    simp only [Box.rounded]
    linarith
  · refine hpairs.imp_of_mem fun {before after} hbefore hafter hpair =>
      List.forall_mem_map.mpr fun u hu => List.forall_mem_map.mpr fun v hv => ?_
    obtain ⟨m, hm⟩ := hwhole u (List.mem_flatten_of_mem hbefore hu)
    obtain ⟨n, hn⟩ := hwhole v (List.mem_flatten_of_mem hafter hv)
    have hexact := hpair u hu v hv
    simp only [Box.rounded]
    rw [hm, hn] at hexact ⊢
    rwa [Number.roundToEven_intCast, Number.roundToEven_intCast]

/-- Wherever an engine puts the centres of the names that it splits into components, every entity name
has one box, of the common width and the height of its last entity. The boxes form one group for each
component; the groups start at the margins, and boxes of different groups are apart by the spacing less
one, or by the whole spacing if the corners are whole numbers before they are rounded. -/
theorem sideBySide_layeredPlacementBy
    {engine : Engine ℚ} {metrics : Metrics ℚ} {diagram : Diagram} (hsizes : metrics.IsNonneg)
    (hsplits : Splits (Graph.ofDiagram metrics diagram)
      (engine metrics (Graph.ofDiagram metrics diagram))) :
    let placement := layeredPlacementBy engine metrics diagram
    (placement.map Prod.fst).Nodup ∧
      (∀ name, name ∈ placement.map Prod.fst ↔ name ∈ diagram.entities.map Entity.name) ∧
      (∀ before entity after, diagram.entities = before ++ entity :: after →
        entity.name ∉ after.map Entity.name →
          ∃ box, placement.box? entity.name = some box ∧ box.width = metrics.entityWidth ∧
            box.height = 30 + entity.attributes.length * metrics.rowHeight) ∧
      placement = (unroundedPlacementBy engine metrics diagram).rounded ∧
      ∃ groups : List (Placement ℚ), placement = groups.flatten ∧
        groups.map (List.map Prod.fst) =
          (engine metrics (Graph.ofDiagram metrics diagram)).map (List.map Prod.fst) ∧
        SideBySide (metrics.horizontalSpacing - 1) groups ∧
        ((∀ entry ∈ unroundedPlacementBy engine metrics diagram, ∃ n : ℤ, entry.2.x = n) →
          SideBySide metrics.horizontalSpacing groups) := by
  intro placement
  have hnames : placement.map Prod.fst = _ := map_fst_layeredPlacementBy engine metrics diagram
  have hperm := hnames ▸ hsplits.names
  have hmem : ∀ name, name ∈ placement.map Prod.fst ↔ name ∈ diagram.entities.map Entity.name :=
    fun name => hperm.mem_iff.trans Graph.mem_names_ofDiagram
  refine ⟨hperm.nodup_iff.mpr (Graph.nodup_names_ofDiagram metrics diagram), hmem, ?_,
    layeredPlacementBy_eq hsplits, ?_⟩
  · intro before entity after hentities hlast
    refine exists_box?_layeredPlacementBy hentities hlast (hnames ▸ (hmem entity.name).mpr ?_)
    simp [hentities]
  · let graph := Graph.ofDiagram metrics diagram
    let groups := unroundedGroups metrics (lastHeight metrics diagram.entities) 40
      (engine metrics graph)
    have hfills : FillsInTurn metrics.horizontalSpacing 40 groups :=
      fillsInTurn_unroundedGroups hsplits.nonempty 40
    have hwidths : HaveWidths groups := haveWidths_unroundedGroups hsizes.entityWidth _ _
    have hside := hfills.sideBySide_rounded hsizes.horizontalSpacing hwidths
    refine ⟨groups.map Placement.rounded, placeComponents_eq hsplits.nonempty 40, ?_, hside⟩
    have hrounded : ∀ group : Placement ℚ, group.rounded.map Prod.fst = group.map Prod.fst :=
      fun group => by simp [Placement.rounded, Function.comp_def]
    have hgroups : groups.map (List.map Prod.fst) = _ := names_unroundedGroups 40 _
    rw [List.map_map, ← hgroups]
    exact List.map_congr_left fun group _ => hrounded group

/-- Two entities that are linked, and one beside them. -/
def linkedAndAlone : Diagram where
  entities := [{ name := "A" }, { name := "C" }, { name := "B" }]
  relationships := [{
    source := "A"
    target := "B"
    cardinality := .oneToOne
    label := "b"
    isIdentifying := true }]

/-- The boxes of the linked entities end in front of the box of the other one. -/
theorem sideBySide_linkedAndAlone :
    ∃ a b c : Box ℚ,
      layeredPlacementBy Sugiyama.engine ⟨201, 26, 80, 80⟩ linkedAndAlone =
          ([("A", a), ("B", b), ("C", c)] : Placement ℚ) ∧
        a.x + a.width + (80 - 1) ≤ c.x ∧ b.x + b.width + (80 - 1) ≤ c.x := by
  have hsizes : Metrics.IsNonneg ⟨201, 26, 80, 80⟩ := by constructor <;> norm_num
  obtain ⟨-, -, -, -, groups, hplacement, hnames, ⟨-, -, hapart⟩, -⟩ :=
    sideBySide_layeredPlacementBy hsizes (Sugiyama.splits_engine ⟨201, 26, 80, 80⟩ linkedAndAlone)
  have hcomponents : groups.map (List.map Prod.fst) =
      ([["A", "B"], ["C"]] : List (List Text)) := by
    rw [hnames, Sugiyama.map_fst_engine]
    decide
  simp only [List.map_eq_cons_iff, List.map_eq_nil_iff] at hcomponents
  obtain ⟨_, _, rfl, ⟨⟨_, a⟩, _, rfl, rfl, ⟨_, b⟩, _, rfl, rfl, rfl⟩,
    _, _, rfl, ⟨⟨_, c⟩, _, rfl, rfl, rfl⟩, rfl⟩ := hcomponents
  have hpair := List.rel_of_pairwise_cons hapart (List.mem_singleton_self _)
  have hc := List.mem_singleton_self (("C", c) : Text × Box ℚ)
  exact ⟨a, b, c, hplacement, hpair ("A", a) (by simp) _ hc, hpair ("B", b) (by simp) _ hc⟩

end EntityDiagram.Layout
