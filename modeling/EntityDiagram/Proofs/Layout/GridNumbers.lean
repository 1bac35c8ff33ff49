import EntityDiagram.Proofs.Layout.Placements

/-!
# The numbers of boxes in rows

Boxes in rows are computed with a sum, a product and one division by the length of a row. So with whole
sizes all numbers of boxes can be computed, unless the length of a row is zero. With other sizes, all
that can fail is that a whole number beyond the range of doubles meets a double.
-/

namespace EntityDiagram.Number

/-! ## Lengths of rows -/

theorem Binary64.value_eq_zero
    {x : Binary64} (h : x.isZero = true) :
    x.value = 0 := by
  have hmagnitude : x.bits.toNat % 0x8000000000000000 = 0 := by simpa [isZero, magnitude] using h
  have hbits : x.bits.toNat < 0x10000000000000000 := x.bits.toNat_lt
  have hexponent : x.exponentField = 0 := by
    unfold exponentField exponentUnit
    omega
  have hfraction : x.fractionField = 0 := by
    unfold fractionField exponentUnit
    omega
  have hsignificand : x.significand = 0 := by rw [significand, if_pos hexponent, hfraction]
  simp [value, hsignificand]

/-- A zero is less than one. -/
theorem Measure.isZero_eq_false_of_less
    {a : Measure} (h : a.less (.whole 1) = false) :
    a.isZero = false := by
  rw [Bool.eq_false_iff]
  intro hzero
  cases a with
  | whole n =>
    have hn : n = 0 := by simpa [isZero] using hzero
    simp [less, hn] at h
  | binary x =>
    have hx : x.isZero = true := hzero
    have hfinite : x.isFinite = true := by
      have hmagnitude : x.magnitude = 0 := by simpa [Binary64.isZero] using hx
      simp [Binary64.isFinite, hmagnitude, Binary64.infinityBits, Binary64.exponentUnit]
    have hless : x.value < ((1 : Int) : Rat) := by
      rw [Binary64.value_eq_zero hx]
      decide
    simp only [less, hfinite, if_true, hless, decide_true] at h
    cases h

/-! ## Computing -/

theorem Measure.double_eq_error
    {x : Measure} {fault : NumberFault} (h : x.double = .error fault) :
    fault = .tooLarge := by
  rw [Measure.double] at h
  split at h
  · cases h
  · exact (Except.error.inj h).symm

namespace Computed

/-- The number could be computed, and is whole. -/
def IsWhole (a : Computed) : Prop :=
  ∃ n : Int, a = .ok (.whole n)

/-- Nothing keeps the number from being computed, unless a whole number beyond the range of doubles meets
a double. -/
def MayOverflow (a : Computed) : Prop :=
  ∀ fault, a = .error fault → fault = .tooLarge

theorem IsWhole.add
    {a b : Computed} (ha : a.IsWhole) (hb : b.IsWhole) :
    (a + b).IsWhole := by
  obtain ⟨m, rfl⟩ := ha
  obtain ⟨n, rfl⟩ := hb
  exact ⟨m + n, rfl⟩

theorem IsWhole.mul
    {a b : Computed} (ha : a.IsWhole) (hb : b.IsWhole) :
    (a * b).IsWhole := by
  obtain ⟨m, rfl⟩ := ha
  obtain ⟨n, rfl⟩ := hb
  exact ⟨m * n, rfl⟩

theorem mayOverflow_ok
    (x : Measure) :
    MayOverflow (.ok x) := by
  intro fault h
  cases h

/-- A computation fails where its first part fails, or behind it. -/
theorem MayOverflow.bind
    {x : Except NumberFault Binary64} (hx : ∀ fault, x = .error fault → fault = .tooLarge)
    {next : Binary64 → Computed} (hnext : ∀ d, MayOverflow (next d)) :
    MayOverflow (x >>= next) := by
  cases x with
  | error fault => exact fun other h => hx other (congrArg Except.error (Except.error.inj h))
  | ok d => exact hnext d

theorem mayOverflow_combine
    (wholes : Int → Int → Int) (doubles : Binary64 → Binary64 → Binary64) (x y : Measure) :
    MayOverflow (Measure.combine wholes doubles x y) := by
  unfold Measure.combine
  split
  · exact mayOverflow_ok _
  · exact .bind (fun _ => Measure.double_eq_error) fun _ =>
      .bind (fun _ => Measure.double_eq_error) fun _ => mayOverflow_ok _

theorem mayOverflow_divide
    {y : Measure} (hy : y.isZero = false) (wholes : Int → Int → Int)
    (doubles : Binary64 → Binary64 → Binary64) (x : Measure) :
    MayOverflow (Measure.divide wholes doubles x y) := by
  rw [Measure.divide, if_neg (Bool.not_eq_true _ ▸ hy)]
  exact mayOverflow_combine wholes doubles x y

theorem MayOverflow.apply
    {operation : Measure → Measure → Computed} (h : ∀ x y, MayOverflow (operation x y))
    {a b : Computed} (ha : a.MayOverflow) (hb : b.MayOverflow) :
    MayOverflow (Computed.apply operation a b) := by
  cases a with
  | error fault => exact ha
  | ok x =>
    cases b with
    | error fault => exact hb
    | ok y => exact h x y

theorem MayOverflow.add
    {a b : Computed} (ha : a.MayOverflow) (hb : b.MayOverflow) :
    (a + b).MayOverflow :=
  ha.apply (mayOverflow_combine _ _) hb

theorem MayOverflow.mul
    {a b : Computed} (ha : a.MayOverflow) (hb : b.MayOverflow) :
    (a * b).MayOverflow :=
  ha.apply (mayOverflow_combine _ _) hb

end Computed

end EntityDiagram.Number

namespace EntityDiagram.Layout

open Model (Entity)
open Number (Computed Measure NumberFault Scalar)

variable {α : Type}

/-- The numbers of a box. -/
def Box.numbers (box : Box α) : List α :=
  [box.x, box.y, box.width, box.height]

/-- What sums and products keep and all numbers have that boxes in rows are computed from, all numbers
of these boxes have. -/
theorem forall_mem_gridFrom
    [Scalar α] {P : α → Prop} (hadd : ∀ {a b}, P a → P b → P (a + b))
    (hmul : ∀ {a b}, P a → P b → P (a * b)) (hcount : ∀ n, P (Scalar.ofNat n))
    {metrics : Metrics α} {perRow : α} (hwidth : P metrics.entityWidth)
    (hheight : P metrics.rowHeight) (hbeside : P metrics.horizontalSpacing)
    (hbelow : P metrics.verticalSpacing) (hcolumn : ∀ index, P (gridColumn perRow index))
    (hrow : ∀ index, P (gridRow perRow index)) (start : Nat) (entities : List Entity) :
    ∀ entry ∈ gridFrom metrics perRow start entities, ∀ a ∈ entry.2.numbers, P a := by
  induction entities generalizing start with
  | nil => exact List.forall_mem_nil _
  | cons entity rest ih =>
    refine List.forall_mem_cons.mpr ⟨?_, ih (start + 1)⟩
    simp only [Box.numbers, gridBox, entityHeight, List.forall_mem_cons]
    exact ⟨hadd (hmul (hcolumn _) (hadd hwidth hbeside)) (hcount _),
      hadd (hmul (hrow _) (hadd (hcount _) hbelow)) (hcount _), hwidth,
      hadd (hcount _) (hmul (hcount _) hheight), List.forall_mem_nil _⟩

/-- Where boxes in rows cannot be placed, a number of one of them could not be computed. -/
theorem exists_of_gridPlacement_eq_error
    {metrics : Metrics Measure} {perRow : Measure} {entities : List Entity} {fault : LayoutFault}
    (h : gridPlacement metrics perRow entities = .error fault) :
    ∃ reason : NumberFault, fault = .number reason ∧
      ∃ entry ∈ gridFrom metrics.computed (.ok perRow) 0 entities,
        .error reason ∈ entry.2.numbers := by
  rw [gridPlacement] at h
  cases hsettled : Placement.settled (gridFrom metrics.computed (.ok perRow) 0 entities) with
  | ok placement =>
    rw [hsettled] at h
    cases h
  | error reason =>
    obtain ⟨entry, hentry, hbox⟩ := Placement.exists_of_settled_eq_error hsettled
    rw [hsettled] at h
    exact ⟨reason, (Except.error.inj h).symm, entry, hentry, Box.eq_error_of_settled hbox⟩

/-- Boxes in rows can be placed if all sizes are whole and the length of a row is not zero. -/
theorem exists_gridPlacement_of_whole
    {perRow : Int} (hrow : perRow ≠ 0) (metrics : Metrics Int) (entities : List Entity) :
    ∃ placement, gridPlacement (metrics.map .whole) (.whole perRow) entities = .ok placement := by
  have hwhole : ∀ n : Int, Computed.IsWhole (.ok (.whole n)) := fun n => ⟨n, rfl⟩
  have hdivide : ∀ wholes doubles (index : Nat), Computed.IsWhole
      (Measure.divide wholes doubles (.whole index) (.whole perRow)) := by
    intro wholes doubles index
    rw [Measure.divide, if_neg (by simpa [Measure.isZero] using hrow)]
    exact hwhole _
  cases hplaced : gridPlacement (metrics.map .whole) (.whole perRow) entities with
  | ok placement => exact ⟨placement, rfl⟩
  | error fault =>
    obtain ⟨reason, -, entry, hentry, hfails⟩ := exists_of_gridPlacement_eq_error hplaced
    obtain ⟨n, hn⟩ := forall_mem_gridFrom Computed.IsWhole.add Computed.IsWhole.mul
      (fun n => hwhole n) (hwhole _) (hwhole _) (hwhole _) (hwhole _) (hdivide Int.fmod _)
      (hdivide Int.fdiv _) 0 entities entry hentry _ hfails
    cases hn

/-- Where boxes in rows of some length cannot be placed, a whole number beyond the range of doubles
meets a double. -/
theorem gridPlacement_eq_error
    {metrics : Metrics Measure} {perRow : Measure} (hrow : perRow.isZero = false)
    {entities : List Entity} {fault : LayoutFault}
    (h : gridPlacement metrics perRow entities = .error fault) :
    fault = .number .tooLarge := by
  obtain ⟨reason, rfl, entry, hentry, hfails⟩ := exists_of_gridPlacement_eq_error h
  have hrange := forall_mem_gridFrom Computed.MayOverflow.add Computed.MayOverflow.mul
    (fun _ => Computed.mayOverflow_ok _) (Computed.mayOverflow_ok _) (Computed.mayOverflow_ok _)
    (Computed.mayOverflow_ok _) (Computed.mayOverflow_ok _)
    (fun _ => Computed.mayOverflow_divide hrow Int.fmod _ _)
    (fun _ => Computed.mayOverflow_divide hrow Int.fdiv _ _) 0 entities entry hentry _ hfails
  rw [hrange reason rfl]

end EntityDiagram.Layout
