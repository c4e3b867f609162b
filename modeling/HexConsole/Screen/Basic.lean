import HexConsole.Layout

/-! # The screen

The screen has 64 by 32 cells, each a byte that is one where the pixel is lit and zero where
it is dark. Both coordinates wrap around, each at its own size, so every pair of numbers
names a cell. Two screens are equal when all their cells agree.
-/

namespace HexConsole

/-- The cells of the screen, row by row. -/
structure Screen where
  cells : Vector (Vector UInt8 screenWidth) screenHeight
  deriving DecidableEq

namespace Screen

/-- The column of a horizontal coordinate. -/
def column (x : Nat) : Fin screenWidth := Fin.ofNat _ x

/-- The row of a vertical coordinate. -/
def row (y : Nat) : Fin screenHeight := Fin.ofNat _ y

/-- All pixels are dark. -/
def dark : Screen := ⟨Vector.replicate _ (Vector.replicate _ 0)⟩

/-- The level of a pixel: one if it is lit and zero if it is dark. -/
def level (on : Bool) : UInt8 := if on then 1 else 0

/-- The cell at a point. -/
def cell (s : Screen) (x y : Nat) : UInt8 := s.cells[row y][column x]

/-- The cell at a point is given a value. -/
def setCell (s : Screen) (x y : Nat) (value : UInt8) : Screen :=
  ⟨s.cells.set (row y) (s.cells[row y].set (column x) value)⟩

/-- Whether the pixel at a point is lit. -/
def get (s : Screen) (x y : Nat) : Bool := s.cell x y == 1

/-- The pixel at a point is lit or darkened. -/
def set (s : Screen) (x y : Nat) (on : Bool) : Screen := s.setCell x y (level on)

/-- The pixel at a point is inverted; the answer is whether it was lit. -/
def toggle (s : Screen) (x y : Nat) : Bool × Screen :=
  (s.get x y, s.setCell x y (s.cell x y ^^^ 1))

/-- The cells, row by row from the top. -/
def rows (s : Screen) : List (List UInt8) :=
  s.cells.toList.map fun r => r.toList

/-- The number of lit pixels. -/
def litPixels (s : Screen) : Nat := s.rows.flatten.count 1

/-- The pixels at the given points are lit. -/
def light (s : Screen) (points : List (Nat × Nat)) : Screen :=
  points.foldl (fun s p => s.set p.1 p.2 true) s

theorem column_eq_iff {x x' : Nat} :
    column x = column x' ↔ x % screenWidth = x' % screenWidth := by
  simp [column, Fin.ofNat, Fin.ext_iff]

theorem row_eq_iff {y y' : Nat} : row y = row y' ↔ y % screenHeight = y' % screenHeight := by
  simp [row, Fin.ofNat, Fin.ext_iff]

theorem cell_setCell (s : Screen) (x y : Nat) (value : UInt8) (a b : Nat) :
    (s.setCell x y value).cell a b =
      if column a = column x ∧ row b = row y then value else s.cell a b := by
  by_cases hy : row b = row y
  · by_cases hx : column a = column x
    · simp [cell, setCell, hx, hy]
    · have : (column x).val ≠ (column a).val := fun h => hx (Fin.ext h.symm)
      simp [cell, setCell, hx, hy, Vector.getElem_set_ne, this]
  · have : (row y).val ≠ (row b).val := fun h => hy (Fin.ext h.symm)
    simp [cell, setCell, hy, Vector.getElem_set_ne, this]

@[simp]
theorem cell_dark (x y : Nat) : dark.cell x y = 0 := by
  simp [dark, cell]

theorem get_set (s : Screen) (x y : Nat) (on : Bool) (a b : Nat) :
    (s.set x y on).get a b = if column a = column x ∧ row b = row y then on else s.get a b := by
  rw [get, set, cell_setCell]
  split
  · cases on <;> rfl
  · rfl

theorem ext_cell {s t : Screen} (h : ∀ x y, s.cell x y = t.cell x y) : s = t := by
  obtain ⟨c⟩ := s
  obtain ⟨d⟩ := t
  congr
  refine Vector.ext fun j hj => Vector.ext fun i hi => ?_
  have hx : column i = ⟨i, hi⟩ := Fin.ext (Nat.mod_eq_of_lt hi)
  have hy : row j = ⟨j, hj⟩ := Fin.ext (Nat.mod_eq_of_lt hj)
  simpa [cell, hx, hy] using h i j

end Screen

end HexConsole
