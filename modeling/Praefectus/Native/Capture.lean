import Praefectus.Native.Coordinates

/-!
# Regions that are captured

The content around a point is hashed over a region of at most 64 by 64 pixels of the
display that the point is on. The sums and differences are checked or cut off at the ends
of the range; on a display that is accepted, none of them is cut off where it matters.
-/

/-! ### Checked and cut-off arithmetic -/

namespace Int64

def checkedAdd (a b : Int64) : Option Int64 :=
  if Int64.minValue.toInt ≤ a.toInt + b.toInt ∧ a.toInt + b.toInt ≤ Int64.maxValue.toInt then
    some (.ofInt (a.toInt + b.toInt))
  else none

theorem checkedAdd_eq_some {a b sum : Int64} :
    checkedAdd a b = some sum ↔ sum.toInt = a.toInt + b.toInt := by
  have above := sum.le_toInt
  have below := sum.toInt_lt
  unfold checkedAdd
  rw [minValue_toInt, maxValue_toInt]
  split
  next inside =>
    have exact : (Int64.ofInt (a.toInt + b.toInt)).toInt = a.toInt + b.toInt :=
      Int64.toInt_ofInt_of_le (by omega) (by omega)
    rw [Option.some.injEq, ← Int64.toInt_inj, exact, eq_comm]
  next outside => exact iff_of_false nofun fun same => outside (by omega)

theorem checkedAdd_isSome {a b : Int64} :
    (checkedAdd a b).isSome = true ↔ -2 ^ 63 ≤ a.toInt + b.toInt ∧ a.toInt + b.toInt < 2 ^ 63 := by
  unfold checkedAdd
  rw [minValue_toInt, maxValue_toInt]
  split
  next inside => exact iff_of_true rfl (by omega)
  next outside => exact iff_of_false nofun (by omega)

theorem toInt_max (a b : Int64) : (max a b).toInt = max a.toInt b.toInt := by
  have value : max a b = if a ≤ b then b else a := rfl
  rw [value]
  split
  next le =>
    have le := Int64.le_iff_toInt_le.mp le
    omega
  next gt =>
    have gt := mt Int64.le_iff_toInt_le.mpr gt
    omega

theorem toInt_min (a b : Int64) : (min a b).toInt = min a.toInt b.toInt := by
  have value : min a b = if a ≤ b then a else b := rfl
  rw [value]
  split
  next le =>
    have le := Int64.le_iff_toInt_le.mp le
    omega
  next gt =>
    have gt := mt Int64.le_iff_toInt_le.mpr gt
    omega

end Int64

namespace Praefectus.Native

/-- A difference that is cut off at the ends of the range. -/
theorem toInt_saturatingSub (a b : Int64) :
    (saturatingSub a b).toInt = max (-2 ^ 63) (min (a.toInt - b.toInt) (2 ^ 63 - 1)) := by
  have low := Int64.minValue_toInt
  have high := Int64.maxValue_toInt
  unfold saturatingSub Int64.ofIntClamp
  split
  next above =>
    split
    next below =>
      rw [Int64.toInt_ofIntLE]
      omega
    next => omega
  next => omega

/-! ### The region around a point -/

def targetCaptureBounds (display : NativeBounds) (point : NativePoint) : Option NativeBounds := do
  let right ← display.x.checkedAdd display.width
  let bottom ← display.y.checkedAdd display.height
  if display.width ≤ 0 || display.height ≤ 0 || point.x < display.x || point.y < display.y ||
      point.x ≥ right || point.y ≥ bottom then none
  else
    let x := max (saturatingSub point.x 32) display.x
    let y := max (saturatingSub point.y 32) display.y
    some ⟨x, y, min (saturatingSub right x) 64, min (saturatingSub bottom y) 64⟩

/-- A point inside a display that has a size, and whose edges are numbers. -/
structure OnDisplay (display : NativeBounds) (point : NativePoint) : Prop where
  sized : 0 < display.width.toInt ∧ 0 < display.height.toInt
  right : display.x.toInt + display.width.toInt < 2 ^ 63
  bottom : display.y.toInt + display.height.toInt < 2 ^ 63
  columns : display.x.toInt ≤ point.x.toInt ∧
    point.x.toInt < display.x.toInt + display.width.toInt
  rows : display.y.toInt ≤ point.y.toInt ∧
    point.y.toInt < display.y.toInt + display.height.toInt

/-- A region with a size of at most 64, which has the point and is inside the display. -/
structure Captures (display : NativeBounds) (point : NativePoint) (region : NativeBounds) :
    Prop where
  width : 1 ≤ region.width.toInt ∧ region.width.toInt ≤ 64
  height : 1 ≤ region.height.toInt ∧ region.height.toInt ≤ 64
  columns : region.x.toInt ≤ point.x.toInt ∧
    point.x.toInt < region.x.toInt + region.width.toInt
  rows : region.y.toInt ≤ point.y.toInt ∧
    point.y.toInt < region.y.toInt + region.height.toInt
  insideColumns : display.x.toInt ≤ region.x.toInt ∧
    region.x.toInt + region.width.toInt ≤ display.x.toInt + display.width.toInt
  insideRows : display.y.toInt ≤ region.y.toInt ∧
    region.y.toInt + region.height.toInt ≤ display.y.toInt + display.height.toInt

/-- One side of the region: where it starts and how long it is. -/
theorem side_exact {start edge position : Int64} (inside : start.toInt ≤ position.toInt)
    (before : position.toInt < edge.toInt) (short : edge.toInt - start.toInt < 2 ^ 63) :
    let first := max (saturatingSub position 32) start
    let length := min (saturatingSub edge first) 64
    (1 ≤ length.toInt ∧ length.toInt ≤ 64) ∧
      (first.toInt ≤ position.toInt ∧ position.toInt < first.toInt + length.toInt) ∧
      start.toInt ≤ first.toInt ∧ first.toInt + length.toInt ≤ edge.toInt := by
  intro first length
  have above := start.le_toInt
  have below := position.toInt_lt
  have limit : (64 : Int64).toInt = 64 := rfl
  have half : (32 : Int64).toInt = 32 := rfl
  -- below the start of the display, the cut off has no effect
  have firstly : first.toInt = max (position.toInt - 32) start.toInt := by
    rw [Int64.toInt_max, toInt_saturatingSub, half]
    omega
  have lengthy : length.toInt = min (edge.toInt - first.toInt) 64 := by
    rw [Int64.toInt_min, toInt_saturatingSub, limit]
    omega
  omega

theorem targetCaptureBounds_some {display region : NativeBounds} {point : NativePoint}
    (found : targetCaptureBounds display point = some region) :
    OnDisplay display point ∧ Captures display point region := by
  obtain ⟨right, hasRight, found⟩ := Option.bind_eq_some_iff.mp found
  obtain ⟨bottom, hasBottom, found⟩ := Option.bind_eq_some_iff.mp found
  have hasRight := Int64.checkedAdd_eq_some.mp hasRight
  have hasBottom := Int64.checkedAdd_eq_some.mp hasBottom
  split at found
  · cases found
  next inside =>
    simp only [ge_iff_le, Bool.or_eq_true, decide_eq_true_eq, not_or, Int64.le_iff_toInt_le,
      Int64.lt_iff_toInt_lt, not_le, not_lt] at inside
    obtain ⟨⟨⟨⟨⟨width, height⟩, left⟩, top⟩, beforeRight⟩, beforeBottom⟩ := inside
    have width : 0 < display.width.toInt := width
    have height : 0 < display.height.toInt := height
    have rightmost := right.toInt_lt
    have lowest := bottom.toInt_lt
    have widest := display.width.toInt_lt
    have highest := display.height.toInt_lt
    have columns := side_exact left beforeRight (by omega)
    have rows := side_exact top beforeBottom (by omega)
    obtain rfl := Option.some.inj found
    rw [hasRight] at beforeRight columns
    rw [hasBottom] at beforeBottom rows
    refine ⟨⟨⟨width, height⟩, by omega, by omega, ⟨left, beforeRight⟩, top, beforeBottom⟩, ?_⟩
    exact ⟨columns.1, rows.1, columns.2.1, rows.2.1, columns.2.2, rows.2.2⟩

theorem targetCaptureBounds_isSome {display : NativeBounds} {point : NativePoint}
    (inside : OnDisplay display point) :
    ∃ region, targetCaptureBounds display point = some region := by
  have left := display.x.le_toInt
  have top := display.y.le_toInt
  obtain ⟨⟨width, height⟩, right, bottom, ⟨afterLeft, beforeRight⟩, afterTop, beforeBottom⟩ := inside
  obtain ⟨edge, hasRight⟩ := Option.isSome_iff_exists.mp
    (Int64.checkedAdd_isSome.mpr (by omega) : (display.x.checkedAdd display.width).isSome = true)
  obtain ⟨floor, hasBottom⟩ := Option.isSome_iff_exists.mp
    (Int64.checkedAdd_isSome.mpr (by omega) : (display.y.checkedAdd display.height).isSome = true)
  have edges := Int64.checkedAdd_eq_some.mp hasRight
  have floors := Int64.checkedAdd_eq_some.mp hasBottom
  have zero : (0 : Int64).toInt = 0 := rfl
  refine ⟨_, Option.bind_eq_some_iff.mpr ⟨edge, hasRight,
    Option.bind_eq_some_iff.mpr ⟨floor, hasBottom, if_neg ?_⟩⟩⟩
  simp only [ge_iff_le, Bool.or_eq_true, decide_eq_true_eq, not_or, Int64.le_iff_toInt_le,
    Int64.lt_iff_toInt_lt, not_le, not_lt, zero]
  omega

/-- **Capture regions stay on the display.** -/
theorem capture_region (display : NativeBounds) (point : NativePoint) :
    ((targetCaptureBounds display point).isSome = true ↔ OnDisplay display point) ∧
      ∀ region, targetCaptureBounds display point = some region →
        Captures display point region := by
  refine ⟨⟨?_, ?_⟩, fun region found => (targetCaptureBounds_some found).2⟩
  · intro some
    obtain ⟨region, found⟩ := Option.isSome_iff_exists.mp some
    exact (targetCaptureBounds_some found).1
  · intro inside
    obtain ⟨region, found⟩ := targetCaptureBounds_isSome inside
    rw [found]
    rfl

/-- A point in the last row and column of a display at the end of the range. -/
theorem capture_region_corner :
    Captures ⟨9223372036854775797, 0, 10, 10⟩ ⟨9223372036854775806, 9⟩
      ⟨9223372036854775797, 0, 10, 10⟩ :=
  (capture_region ⟨9223372036854775797, 0, 10, 10⟩ ⟨9223372036854775806, 9⟩).2 _
    (by decide +kernel)

end Praefectus.Native
