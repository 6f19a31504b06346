import GridCopy.Proofs.Validity

/-!
# The preconditions of a plan

`Plan.preconditions` lists what a plan relies on, over unbounded naturals and in the order of the
checks, each condition with the reason that is given when it is the first one to fail. Validation
computes on sizes and folds its overflows into these reasons, and still decides exactly this list.

Results:
1. `Tiling.make_of_firstFailing`, `Plan.make_of_firstFailing`: the first condition that fails is
   the one reported.
2. `Plan.valid_iff_preconditions`: nothing else is checked.
3. `Plan.make_decides_preconditions`: both together, and validation meets no fault.
-/

namespace GridCopy

/-- A condition with the reason for a refusal when it does not hold. -/
structure Precondition where
  holds : Prop
  reason : CopyError

/-- The reason belongs to the first condition of the list that does not hold. -/
inductive FirstFailing : List Precondition → CopyError → Prop
  | here {holds : Prop} {reason : CopyError} {rest : List Precondition} :
      ¬ holds → FirstFailing (⟨holds, reason⟩ :: rest) reason
  | later {holds : Prop} {reason error : CopyError} {rest : List Precondition} :
      holds → FirstFailing rest error → FirstFailing (⟨holds, reason⟩ :: rest) error

namespace FirstFailing

variable {error : CopyError}

/-- A list of conditions holds, or one of them is the first that does not. -/
theorem all_or_exists (conditions : List Precondition) :
    (∀ condition ∈ conditions, condition.holds) ∨ ∃ error, FirstFailing conditions error := by
  induction conditions with
  | nil => exact .inl fun _ member => absurd member List.not_mem_nil
  | cons condition rest ih =>
      by_cases holds : condition.holds
      · rcases ih with all | ⟨error, failing⟩
        · exact .inl (List.forall_mem_cons.mpr ⟨holds, all⟩)
        · exact .inr ⟨error, .later holds failing⟩
      · exact .inr ⟨condition.reason, .here holds⟩

theorem of_append {first second : List Precondition}
    (failing : FirstFailing (first ++ second) error) :
    FirstFailing first error ∨
      (∀ condition ∈ first, condition.holds) ∧ FirstFailing second error := by
  induction first with
  | nil => exact .inr ⟨fun _ member => absurd member List.not_mem_nil, failing⟩
  | cons condition rest ih =>
      cases failing with
      | here fails => exact .inl (.here fails)
      | later holds failing =>
          rcases ih failing with early | ⟨all, late⟩
          · exact .inl (.later holds early)
          · exact .inr ⟨List.forall_mem_cons.mpr ⟨holds, all⟩, late⟩

end FirstFailing

theorem Shape.isEmpty_iff {shape : Shape} :
    shape.isEmpty = true ↔ ¬ (0 < shape.rows ∧ 0 < shape.cols) := by
  rw [← Shape.isEmpty_eq_false_iff, Bool.not_eq_false]

namespace Tiling

/-- What a tiling relies on. -/
def preconditions (layout : Layout) (tile : Shape) : List Precondition :=
  [⟨0 < layout.shape.rows ∧ 0 < layout.shape.cols, .zeroExtent "shape" layout.shape⟩,
    ⟨0 < tile.rows ∧ 0 < tile.cols, .zeroExtent "tile" tile⟩,
    ⟨layout.shape.rows * layout.shape.cols ≤ 2 ^ 32 - 1, .tooLarge layout.shape (2 ^ 32 - 1)⟩,
    ⟨tile.rows ∣ layout.shape.rows ∧ tile.cols ∣ layout.shape.cols,
      .notDivisible layout.shape tile⟩]

variable {layout : Layout} {tile : Shape} {error : CopyError}

theorem valid_iff_preconditions :
    (mk layout tile).Valid ↔ ∀ condition ∈ preconditions layout tile, condition.holds := by
  simp only [preconditions, List.forall_mem_cons, List.not_mem_nil, false_implies, implies_true,
    and_true]
  constructor
  · rintro ⟨shapeFull, tileFull, small, whole⟩
    exact ⟨shapeFull, tileFull, small, whole⟩
  · rintro ⟨shapeFull, tileFull, small, whole⟩
    exact ⟨shapeFull, tileFull, small, whole⟩

theorem make_of_firstFailing (failing : FirstFailing (preconditions layout tile) error) :
    make layout tile = .error error := by
  unfold preconditions at failing
  cases failing with
  | here shapeEmpty =>
      simp [make, Shape.isEmpty_iff.mpr shapeEmpty]
  | later shapePositive failing =>
  have shapeFull := Shape.isEmpty_eq_false_iff.mpr shapePositive
  cases failing with
  | here tileEmpty =>
      simp [make, shapeFull, Shape.isEmpty_iff.mpr tileEmpty]
  | later tilePositive failing =>
  have tileFull := Shape.isEmpty_eq_false_iff.mpr tilePositive
  cases failing with
  | here large =>
      have beyond : layout.shape.size?.all (maxElements < ·) = true := by
        rw [← Bool.not_eq_false, Shape.size?_all_eq_false_iff]
        exact large
      simp only [make, shapeFull, tileFull, beyond, Bool.false_eq_true, if_false, if_true]
      rfl
  | later small failing =>
  have sized := Shape.size?_all_eq_false_iff.mpr (show layout.shape.area ≤ maxElements from small)
  cases failing with
  | here uneven =>
      have broken : layout.shape.isMultipleOf tile = false := by
        rw [← Bool.not_eq_true, Shape.isMultipleOf_iff]
        exact fun whole => uneven whole.2
      simp [make, shapeFull, tileFull, sized, broken]
  | later _ failing => cases failing

end Tiling

namespace Layout

theorem contiguousMode_eq_rows_iff {layout : Layout} :
    layout.contiguousMode = .rows ↔
      layout.rowStride = 1 ∧ (layout.colStride ≠ 1 ∨ 1 < layout.shape.rows) := by
  unfold contiguousMode
  split <;> simp_all

end Layout

namespace Plan

/-- A vector of one element, or one that extends along a single mode in which neighbours lie next to
each other in memory. -/
def LiesInMemory (layout : Layout) (vector : Shape) : Prop :=
  vector.rows * vector.cols = 1 ∨
    (1 < vector.rows ∧ ¬ 1 < vector.cols ∧ layout.rowStride = 1) ∨
    (1 < vector.cols ∧ ¬ 1 < vector.rows ∧ layout.colStride = 1)

/-- What a plan relies on, in the order in which it is checked. -/
def preconditions (layout : Layout) (tile : Shape) (threads : Arrangement) (policy : Policy) :
    List Precondition :=
  let units := threads.shape
  let vector := policy.vector
  Tiling.preconditions layout tile ++
    [⟨0 < units.rows ∧ 0 < units.cols, .zeroExtent "threads" units⟩,
      ⟨0 < vector.rows ∧ 0 < vector.cols, .zeroExtent "vector" vector⟩,
      ⟨units.rows * units.cols ≤ 1024,
        .tooManyUnits (min (units.rows * units.cols) (2 ^ 64 - 1)) 1024⟩,
      ⟨units.rows * vector.rows ∣ tile.rows ∧ units.cols * vector.cols ∣ tile.cols,
        .arrangementMismatch tile units vector⟩,
      ⟨LiesInMemory layout vector, .uncoalescedVector vector⟩,
      ⟨vector.rows * vector.cols ∈ [1, 2, 4, 8, 16],
        .unsupportedVectorWidth (vector.rows * vector.cols)⟩]

variable {layout : Layout} {tile : Shape} {threads : Arrangement} {policy : Policy}
  {error : CopyError}

/-- For a vector that fits into the shape, the test on the walked mode is one on strides, also where
both strides are one. -/
theorem liesInMemory_iff {vector : Shape} (positive : 0 < vector.rows ∧ 0 < vector.cols)
    (rowsFit : vector.rows ≤ layout.shape.rows) (colsFit : vector.cols ≤ layout.shape.cols) :
    LiesInMemory layout vector ↔
      vector.area = 1 ∨ alongContiguousMode layout vector = true := by
  by_cases single : vector.area = 1
  · exact ⟨fun _ => .inl single, fun _ => .inl single⟩
  have wide : 1 < vector.rows * vector.cols := by
    have full : 0 < vector.area := Nat.mul_pos positive.1 positive.2
    simp only [Shape.area] at single full
    omega
  simp only [LiesInMemory, Nat.ne_of_gt wide, single, false_or]
  unfold alongContiguousMode
  cases walked : layout.contiguousMode with
  | rows =>
      obtain ⟨unit, apart⟩ := Layout.contiguousMode_eq_rows_iff.mp walked
      simp only [beq_iff_eq]
      constructor
      · rintro (⟨-, flat, -⟩ | ⟨long, -, colUnit⟩)
        · omega
        · rcases Layout.colStride_of_rows_walked walked with whole | column
          · omega
          · omega
      · intro flat
        rw [flat, Nat.mul_one] at wide
        exact .inl ⟨wide, by omega, unit⟩
  | cols =>
      have unit := Layout.colStride_of_contiguousMode walked
      have other : ¬ (layout.rowStride = 1 ∧ (layout.colStride ≠ 1 ∨ 1 < layout.shape.rows)) := by
        rw [← Layout.contiguousMode_eq_rows_iff, walked]
        exact Mode.noConfusion
      simp only [beq_iff_eq]
      constructor
      · rintro (⟨long, -, rowUnit⟩ | ⟨-, flat, -⟩)
        · exact absurd ⟨rowUnit, .inr (by omega)⟩ other
        · omega
      · intro flat
        rw [flat, Nat.one_mul] at wide
        exact .inr ⟨wide, by omega, unit⟩

theorem not_liesInMemory_iff {vector : Shape} (positive : 0 < vector.rows ∧ 0 < vector.cols)
    (rowsFit : vector.rows ≤ layout.shape.rows) (colsFit : vector.cols ≤ layout.shape.cols) :
    ¬ LiesInMemory layout vector ↔
      1 < vector.area ∧ alongContiguousMode layout vector = false := by
  have full : 0 < vector.area := Nat.mul_pos positive.1 positive.2
  rw [liesInMemory_iff positive rowsFit colsFit, not_or, Bool.not_eq_true]
  exact and_congr_left' ⟨fun many => by omega, Nat.ne_of_gt⟩

/-- In whole tiles, an arrangement that fills the tile makes both modes divide evenly. -/
theorem axes_fit (tiled : (Tiling.mk layout tile).Valid)
    (threadsFull : 0 < threads.shape.rows ∧ 0 < threads.shape.cols)
    (vectorFull : 0 < policy.vector.rows ∧ 0 < policy.vector.cols)
    (arranged : threads.shape.rows * policy.vector.rows ∣ tile.rows ∧
      threads.shape.cols * policy.vector.cols ∣ tile.cols) :
    (mk ⟨layout, tile⟩ threads policy).rowAxis.Fits ∧
      (mk ⟨layout, tile⟩ threads policy).colAxis.Fits :=
  ⟨⟨tiled.shapePositive.1, threadsFull.1, vectorFull.1, arranged.1, tiled.tileDivides.1⟩,
    ⟨tiled.shapePositive.2, threadsFull.2, vectorFull.2, arranged.2, tiled.tileDivides.2⟩⟩

/-- Acceptance, as the list of its conditions. -/
theorem valid_iff_preconditions :
    (mk ⟨layout, tile⟩ threads policy).Valid ↔
      ∀ condition ∈ preconditions layout tile threads policy, condition.holds := by
  simp only [preconditions, List.forall_mem_append, ← Tiling.valid_iff_preconditions,
    List.forall_mem_cons, List.not_mem_nil, false_implies, implies_true, and_true]
  constructor
  · intro valid
    have vectorFull := And.intro valid.rows.vectorPositive valid.cols.vectorPositive
    have lies := (liesInMemory_iff vectorFull valid.rows.parts_le_extent.2.2
      valid.cols.parts_le_extent.2.2).mpr valid.alongMemory
    exact ⟨valid.tiling, ⟨valid.rows.threadsPositive, valid.cols.threadsPositive⟩, vectorFull,
      valid.unitsLimited, ⟨valid.rows.stepDivides, valid.cols.stepDivides⟩, lies,
      valid.widthSupported⟩
  · rintro ⟨tiled, threadsFull, vectorFull, limited, arranged, lies, supported⟩
    obtain ⟨rows, cols⟩ := axes_fit tiled threadsFull vectorFull arranged
    have along := (liesInMemory_iff vectorFull rows.parts_le_extent.2.2
      cols.parts_le_extent.2.2).mp lies
    exact ⟨rows, cols, tiled.small, limited, along, supported⟩

/-- A request beyond all sizes is reported as the largest size. -/
theorem requested_exact (shape : Shape) :
    shape.size?.getD Size.largest = min (shape.rows * shape.cols) (2 ^ 64 - 1) := by
  have largest : Size.largest = 2 ^ 64 - 1 := rfl
  by_cases sized : shape.area < Size.bound
  · have known : shape.size? = some shape.area := Size.mul?_of_lt sized
    rw [known, Option.getD_some]
    exact (Nat.min_eq_left (Nat.le_pred_of_lt sized)).symm
  · have unknown : shape.size? = none := Size.mul?_of_ge (Nat.not_lt.mp sized)
    rw [unknown, Option.getD_none, largest]
    exact (Nat.min_eq_right ((Nat.pred_le _).trans (Nat.not_lt.mp sized))).symm

theorem make_of_firstFailing
    (failing : FirstFailing (preconditions layout tile threads policy) error) :
    make layout tile threads policy = refuse error := by
  rcases failing.of_append with early | ⟨tileable, late⟩
  · simp only [make, Tiling.make_of_firstFailing early]
  have valid := Tiling.valid_iff_preconditions.mpr tileable
  have tiled := Tiling.make_eq_ok_iff.mpr ⟨rfl, valid⟩
  cases late with
  | here empty =>
      simp only [make, tiled, Shape.isEmpty_iff.mpr empty, if_true]
  | later threadsFull late =>
  have threadsKnown := Shape.isEmpty_eq_false_iff.mpr threadsFull
  cases late with
  | here empty =>
      simp only [make, tiled, threadsKnown, Shape.isEmpty_iff.mpr empty, Bool.false_eq_true,
        if_false, if_true]
  | later vectorFull late =>
  have vectorKnown := Shape.isEmpty_eq_false_iff.mpr vectorFull
  cases late with
  | here many =>
      have beyond : maxUnits < threads.shape.size?.getD Size.largest :=
        Nat.not_le.mp fun limited => many (requested_le_iff.mp limited)
      rw [requested_exact] at beyond
      simp only [make, tiled, threadsKnown, vectorKnown, requested_exact, if_pos beyond,
        Bool.false_eq_true, if_false]
      rfl
  | later limited late =>
  have limitKnown := Nat.not_lt.mpr (requested_le_iff.mpr limited)
  have fits : arrangementFits tile threads.shape policy.vector = true ↔ _ :=
    arrangementFits_iff valid.tilePositive valid.tile_lt_bound
  cases late with
  | here broken =>
      have mismatch : arrangementFits tile threads.shape policy.vector = false := by
        rw [← Bool.not_eq_true, fits]
        exact broken
      simp only [make, tiled, threadsKnown, vectorKnown, limitKnown, mismatch, Bool.false_eq_true,
        Bool.not_false, if_false, if_true]
  | later arranged late =>
  have arrangedKnown := fits.mpr arranged
  -- From here on the vector lies inside the buffer, so its size is a size.
  obtain ⟨rows, cols⟩ := axes_fit valid threadsFull vectorFull arranged
  have rowsFit : policy.vector.rows ≤ layout.shape.rows := rows.parts_le_extent.2.2
  have colsFit : policy.vector.cols ≤ layout.shape.cols := cols.parts_le_extent.2.2
  have sized : policy.vector.size = .ok policy.vector.area :=
    Shape.size_of_small ((Nat.mul_le_mul rowsFit colsFit).trans valid.small)
  have crossing := not_liesInMemory_iff vectorFull rowsFit colsFit
  cases late with
  | here apart =>
      obtain ⟨wide, across⟩ := crossing.mp apart
      simp only [make, tiled, threadsKnown, vectorKnown, limitKnown, arrangedKnown, sized,
        across, decide_eq_true wide, Bool.false_eq_true, Bool.not_true, Bool.not_false,
        Bool.and_self, if_false, if_true]
  | later lies late =>
  have coalesced :
      ¬ (1 < policy.vector.area ∧ alongContiguousMode layout policy.vector = false) :=
    mt crossing.mpr (not_not_intro lies)
  cases late with
  | here unsupported =>
      have missing : policy.vector.area ∉ lineSizes := unsupported
      simp [make, tiled, threadsKnown, vectorKnown, limitKnown, arrangedKnown, sized, coalesced,
        missing]
      rfl
  | later _ late => cases late

/-- Validation gives the plan, or the reason of the first precondition that fails. -/
theorem make_cases (layout : Layout) (tile : Shape) (threads : Arrangement) (policy : Policy) :
    make layout tile threads policy = .ok ⟨⟨layout, tile⟩, threads, policy⟩ ∨
      ∃ error, FirstFailing (preconditions layout tile threads policy) error ∧
        make layout tile threads policy = refuse error := by
  rcases FirstFailing.all_or_exists (preconditions layout tile threads policy) with
    all | ⟨error, failing⟩
  · exact .inl (make_eq_ok_iff.mpr ⟨rfl, valid_iff_preconditions.mpr all⟩)
  · exact .inr ⟨error, failing, make_of_firstFailing failing⟩

/-- Validation accepts a plan exactly when all its preconditions hold over unbounded naturals, and
otherwise gives the reason of the first one that fails. It never meets a fault. -/
theorem make_decides_preconditions (layout : Layout) (tile : Shape) (threads : Arrangement)
    (policy : Policy) :
    (∀ plan, make layout tile threads policy = .ok plan ↔
      plan = ⟨⟨layout, tile⟩, threads, policy⟩ ∧
        ∀ condition ∈ preconditions layout tile threads policy, condition.holds) ∧
      (∀ error, make layout tile threads policy = refuse error ↔
        FirstFailing (preconditions layout tile threads policy) error) ∧
      ∀ fault, make layout tile threads policy ≠ .error (.fault fault) := by
  refine ⟨fun plan => ?_, fun error => ⟨fun refused => ?_, make_of_firstFailing⟩,
    fun fault met => ?_⟩
  · rw [make_eq_ok_iff]
    constructor
    · rintro ⟨rfl, valid⟩
      exact ⟨rfl, valid_iff_preconditions.mp valid⟩
    · rintro ⟨rfl, all⟩
      exact ⟨rfl, valid_iff_preconditions.mpr all⟩
  · rcases make_cases layout tile threads policy with accepted | ⟨first, failing, reported⟩
    · rw [accepted] at refused
      contradiction
    · rw [reported] at refused
      cases refused
      exact failing
  · rcases make_cases layout tile threads policy with accepted | ⟨first, -, reported⟩
    · rw [accepted] at met
      contradiction
    · rw [reported] at met
      cases met

example : make (.columnMajor ⟨64, 64⟩) ⟨32, 32⟩ ⟨⟨2 ^ 32, 2 ^ 32⟩⟩ .striped =
    refuse (.tooManyUnits (2 ^ 64 - 1) 1024) := rfl
example : make (.columnMajor ⟨1, 8⟩) ⟨1, 8⟩ ⟨⟨1, 2⟩⟩ (.vectorized ⟨1, 4⟩) =
    .ok ⟨⟨.columnMajor ⟨1, 8⟩, ⟨1, 8⟩⟩, ⟨⟨1, 2⟩⟩, .vectorized ⟨1, 4⟩⟩ := rfl

end Plan

end GridCopy
