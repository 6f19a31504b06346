import Mathlib.Algebra.Order.Ring.Nat
import GridCopy.Plan.Basic

/-!
# One mode of a plan

A plan divides each of its two modes in the same way: the extent into tiles, a tile into
repetitions of a step, a step into one vector for each thread, and a vector into lanes. So a place
of the mode is a number with four digits, and `start` and the four digit functions are inverse to
each other.
-/

namespace GridCopy

structure Axis where
  extent : Nat
  tile : Nat
  threads : Nat
  vector : Nat
deriving DecidableEq, Repr

namespace Axis

variable {axis : Axis}

/-- What all threads cover with one vector each. -/
def step (axis : Axis) : Nat := axis.threads * axis.vector

def tiles (axis : Axis) : Nat := axis.extent / axis.tile

def repeats (axis : Axis) : Nat := axis.tile / axis.step

/-- Nothing is empty, and every part fills its whole exactly. -/
structure Fits (axis : Axis) : Prop where
  extentPositive : 0 < axis.extent
  threadsPositive : 0 < axis.threads
  vectorPositive : 0 < axis.vector
  stepDivides : axis.step ∣ axis.tile
  tileDivides : axis.tile ∣ axis.extent

/-- The first place of the vector of a thread in one repetition of a tile. -/
def start (axis : Axis) (tile thread repetition : Nat) : Nat :=
  tile * axis.tile + (thread * axis.vector + repetition * axis.step)

def tileOf (axis : Axis) (place : Nat) : Nat := place / axis.tile

def threadOf (axis : Axis) (place : Nat) : Nat :=
  place % axis.tile / axis.vector % axis.threads

def repetitionOf (axis : Axis) (place : Nat) : Nat := place % axis.tile / axis.step

def laneOf (axis : Axis) (place : Nat) : Nat := place % axis.vector

/-- The highest digit outweighs all that a lower one can hold. -/
theorem digit_lt {high low base count : Nat} (highInside : high < count) (lowInside : low < base) :
    high * base + low < count * base := by
  calc
    high * base + low < high * base + base := Nat.add_lt_add_left lowInside _
    _ = (high + 1) * base := (Nat.succ_mul high base).symm
    _ ≤ count * base := Nat.mul_le_mul_right base highInside

/-- A pair of digits, the low one counting fastest. -/
theorem pair_lt {low base high count : Nat} (lowInside : low < base) (highInside : high < count) :
    low + base * high < base * count := by
  have below := digit_lt highInside lowInside
  rw [Nat.mul_comm base high, Nat.mul_comm base count]
  omega

theorem pair_mod {low base : Nat} (lowInside : low < base) (high : Nat) :
    (low + base * high) % base = low := by
  rw [Nat.add_mul_mod_self_left, Nat.mod_eq_of_lt lowInside]

theorem pair_div {low base : Nat} (lowInside : low < base) (high : Nat) :
    (low + base * high) / base = high := by
  rw [Nat.add_mul_div_left _ _ (Nat.zero_lt_of_lt lowInside), Nat.div_eq_of_lt lowInside,
    Nat.zero_add]

/-- No intermediate result is larger than the place in the tile that it leads to. -/
theorem offset_steps (axis : Axis) (thread repetition : Nat)
    (small : thread * axis.vector + repetition * axis.step < Size.bound) :
    Size.mul thread axis.vector = .ok (thread * axis.vector) ∧
      Size.mul repetition axis.step = .ok (repetition * axis.step) ∧
      Size.add (thread * axis.vector) (repetition * axis.step) =
        .ok (thread * axis.vector + repetition * axis.step) :=
  ⟨Size.mul_of_lt (Nat.lt_of_le_of_lt (Nat.le_add_right _ _) small),
    Size.mul_of_lt (Nat.lt_of_le_of_lt (Nat.le_add_left _ _) small), Size.add_of_lt small⟩

namespace Fits

theorem stepPositive (fits : axis.Fits) : 0 < axis.step :=
  Nat.mul_pos fits.threadsPositive fits.vectorPositive

theorem tilePositive (fits : axis.Fits) : 0 < axis.tile :=
  Nat.pos_of_dvd_of_pos fits.tileDivides fits.extentPositive

theorem tiles_mul_tile (fits : axis.Fits) : axis.tiles * axis.tile = axis.extent :=
  Nat.div_mul_cancel fits.tileDivides

theorem repeats_mul_step (fits : axis.Fits) : axis.repeats * axis.step = axis.tile :=
  Nat.div_mul_cancel fits.stepDivides

theorem tilesPositive (fits : axis.Fits) : 0 < axis.tiles :=
  Nat.div_pos (Nat.le_of_dvd fits.extentPositive fits.tileDivides) fits.tilePositive

theorem repeatsPositive (fits : axis.Fits) : 0 < axis.repeats :=
  Nat.div_pos (Nat.le_of_dvd fits.tilePositive fits.stepDivides) fits.stepPositive

/-- The four extents multiply to the extent of the mode. -/
theorem tiles_mul_repeats_mul_threads_mul_vector (fits : axis.Fits) :
    axis.tiles * (axis.repeats * (axis.threads * axis.vector)) = axis.extent := by
  calc
    axis.tiles * (axis.repeats * (axis.threads * axis.vector)) = axis.tiles * axis.tile := by
      rw [← fits.repeats_mul_step]
      rfl
    _ = axis.extent := fits.tiles_mul_tile

theorem tile_le_extent (fits : axis.Fits) : axis.tile ≤ axis.extent :=
  Nat.le_of_dvd fits.extentPositive fits.tileDivides

theorem step_le_tile (fits : axis.Fits) : axis.step ≤ axis.tile :=
  Nat.le_of_dvd fits.tilePositive fits.stepDivides

theorem parts_le_extent (fits : axis.Fits) :
    axis.tiles ≤ axis.extent ∧ axis.threads ≤ axis.extent ∧ axis.vector ≤ axis.extent := by
  have step : axis.step ≤ axis.extent := fits.step_le_tile.trans fits.tile_le_extent
  exact ⟨Nat.div_le_self _ _, (Nat.le_mul_of_pos_right _ fits.vectorPositive).trans step,
    (Nat.le_mul_of_pos_left _ fits.threadsPositive).trans step⟩

theorem vector_dvd_tile (fits : axis.Fits) : axis.vector ∣ axis.tile :=
  (Nat.dvd_mul_left _ _).trans fits.stepDivides

theorem vector_dvd_extent (fits : axis.Fits) : axis.vector ∣ axis.extent :=
  fits.vector_dvd_tile.trans fits.tileDivides

/-- Vectors start at multiples of their extent. -/
theorem vector_dvd_start (fits : axis.Fits) (tile thread repetition : Nat) :
    axis.vector ∣ axis.start tile thread repetition := by
  have origin : axis.vector ∣ tile * axis.tile := fits.vector_dvd_tile.mul_left tile
  have moved : axis.vector ∣ repetition * axis.step :=
    (Nat.dvd_mul_left axis.vector axis.threads).mul_left repetition
  exact Nat.dvd_add origin (Nat.dvd_add (Nat.dvd_mul_left _ thread) moved)

/-- A lane of a vector stays inside the tile. -/
theorem offset_lt_tile (fits : axis.Fits) {thread repetition lane : Nat}
    (threadInside : thread < axis.threads) (repetitionInside : repetition < axis.repeats)
    (laneInside : lane < axis.vector) :
    thread * axis.vector + repetition * axis.step + lane < axis.tile := by
  have inStep : thread * axis.vector + lane < axis.step := digit_lt threadInside laneInside
  have inTile : repetition * axis.step + (thread * axis.vector + lane) <
      axis.repeats * axis.step := digit_lt repetitionInside inStep
  rw [fits.repeats_mul_step] at inTile
  omega

/-- A lane of a vector stays inside the mode. -/
theorem start_add_lt (fits : axis.Fits) {tile thread repetition lane : Nat}
    (tileInside : tile < axis.tiles) (threadInside : thread < axis.threads)
    (repetitionInside : repetition < axis.repeats) (laneInside : lane < axis.vector) :
    axis.start tile thread repetition + lane < axis.extent := by
  have inTile := fits.offset_lt_tile threadInside repetitionInside laneInside
  have inExtent := digit_lt tileInside inTile
  rw [fits.tiles_mul_tile] at inExtent
  unfold start
  omega

theorem tileOf_lt (fits : axis.Fits) {place : Nat} (inside : place < axis.extent) :
    axis.tileOf place < axis.tiles := by
  rw [tileOf, Nat.div_lt_iff_lt_mul fits.tilePositive, fits.tiles_mul_tile]
  exact inside

theorem threadOf_lt (fits : axis.Fits) (place : Nat) : axis.threadOf place < axis.threads :=
  Nat.mod_lt _ fits.threadsPositive

theorem repetitionOf_lt (fits : axis.Fits) (place : Nat) :
    axis.repetitionOf place < axis.repeats := by
  rw [repetitionOf, Nat.div_lt_iff_lt_mul fits.stepPositive, fits.repeats_mul_step]
  exact Nat.mod_lt place fits.tilePositive

theorem laneOf_lt (fits : axis.Fits) (place : Nat) : axis.laneOf place < axis.vector :=
  Nat.mod_lt place fits.vectorPositive

/-- The four digits of a place give the place back. -/
theorem start_add_laneOf (fits : axis.Fits) (place : Nat) :
    axis.start (axis.tileOf place) (axis.threadOf place) (axis.repetitionOf place) +
      axis.laneOf place = place := by
  -- Within the tile, the repetition is the quotient by a step and the thread that of the rest.
  have thread : axis.threadOf place = place % axis.tile % axis.step / axis.vector :=
    (Nat.mod_mul_left_div_self _ _ _).symm
  have lane : axis.laneOf place = place % axis.tile % axis.step % axis.vector := by
    rw [step, Nat.mod_mul_left_mod, Nat.mod_mod_of_dvd _ fits.vector_dvd_tile, laneOf]
  have restInStep := Nat.div_add_mod' (place % axis.tile % axis.step) axis.vector
  have restInTile := Nat.div_add_mod' (place % axis.tile) axis.step
  have whole := Nat.div_add_mod' place axis.tile
  rw [← thread, ← lane] at restInStep
  rw [start, tileOf, repetitionOf]
  omega

end Fits

end Axis

end GridCopy
