import HexConsole.Proofs.Reachability
import HexConsole.Screen.Edit
import Mathlib.Algebra.BigOperators.Fin
import Mathlib.Data.Finset.Prod
import Mathlib.Data.Fintype.Prod

/-! # The screen as a set of pixels

A pixel is a column and a row. On a screen whose cells are zero or one the lit pixels say all
there is to say: inverting a point adds its pixel to them or takes it away, and the number of lit
cells is the size of the set.
-/

namespace HexConsole

theorem toList_eq_ofFn {α : Type} {n : Nat} (v : Vector α n) : v.toList = List.ofFn v.get :=
  List.ext_getElem (by simp) fun i hi hi' => by simp [Vector.get]

theorem sum_map_toList {α : Type} {n : Nat} (v : Vector α n) (f : α → Nat) :
    (v.toList.map f).sum = ∑ i : Fin n, f (v.get i) := by
  rw [toList_eq_ofFn, List.map_ofFn, List.sum_ofFn]
  rfl

theorem count_toList_eq_sum {n : Nat} (v : Vector UInt8 n) (a : UInt8) :
    v.toList.count a = ∑ i : Fin n, if v.get i = a then 1 else 0 := by
  rw [← sum_map_toList v fun b => if b = a then 1 else 0]
  induction v.toList with
  | nil => rfl
  | cons b l ih =>
    simp only [List.count_cons, ih, List.map_cons, List.sum_cons, add_comm, beq_iff_eq]

namespace Screen

/-- A column and a row of the screen. -/
abbrev Pixel := Fin screenWidth × Fin screenHeight

/-- The pixel at a point. -/
def pixel (x y : Nat) : Pixel := (column x, row y)

/-- The lit pixels. -/
def lit (s : Screen) : Finset Pixel := {p | s.cells[p.2][p.1] = 1}

variable {s : Screen} {x y : Nat} {p : Pixel}

@[simp]
theorem column_val (i : Fin screenWidth) : column i = i := Fin.ext (Nat.mod_eq_of_lt i.isLt)

@[simp]
theorem row_val (j : Fin screenHeight) : row j = j := Fin.ext (Nat.mod_eq_of_lt j.isLt)

theorem pixel_eq_iff : pixel x y = p ↔ x % screenWidth = p.1 ∧ y % screenHeight = p.2 := by
  rw [pixel, Prod.ext_iff, Fin.ext_iff, Fin.ext_iff]
  rfl

theorem cell_pixel (s : Screen) (x y : Nat) :
    s.cell (pixel x y).1 (pixel x y).2 = s.cell x y := by
  simp only [cell, pixel, column_val, row_val]

theorem ext_pixel {t : Screen} (h : ∀ p : Pixel, s.cell p.1 p.2 = t.cell p.1 p.2) : s = t := by
  apply ext_cell
  intro x y
  rw [← cell_pixel, h, cell_pixel]

theorem mem_lit : p ∈ s.lit ↔ s.cell p.1 p.2 = 1 := by
  simp only [lit, Finset.mem_filter_univ, cell, column_val, row_val]

theorem litPixels_eq_card (s : Screen) : s.litPixels = s.lit.card := by
  rw [litPixels, rows, List.count_flatten, List.map_map, sum_map_toList, lit,
    Finset.card_filter, Fintype.sum_prod_type_right]
  exact Finset.sum_congr rfl fun j _ => count_toList_eq_sum s.cells[j] 1

-- Otherwise Lean goes through all pixels of the screen when it compares sets.
attribute [irreducible] lit

theorem mem_lit_iff_get : p ∈ s.lit ↔ s.get p.1 p.2 = true := mem_lit.trans beq_iff_eq.symm

theorem pixel_mem_lit : pixel x y ∈ s.lit ↔ s.get x y = true := by
  rw [mem_lit, cell_pixel, get, beq_iff_eq]

theorem cell_setCell_pixel (s : Screen) (x y : Nat) (value : UInt8) (p : Pixel) :
    (s.setCell x y value).cell p.1 p.2 = if pixel x y = p then value else s.cell p.1 p.2 := by
  have hp : (column p.1 = column x ∧ row p.2 = row y) ↔ pixel x y = p := by
    rw [column_val, row_val, pixel, Prod.ext_iff, eq_comm, @eq_comm _ p.2]
  simp only [cell_setCell, hp]

theorem cell_toggle (s : Screen) (x y : Nat) (p : Pixel) :
    (s.toggle x y).2.cell p.1 p.2 =
      if pixel x y = p then s.cell p.1 p.2 ^^^ 1 else s.cell p.1 p.2 := by
  rw [toggle, cell_setCell_pixel]
  split
  case isTrue he => rw [← he, cell_pixel]
  case isFalse => rfl

/-- Inverting a point changes whether its pixel is lit, and no other. -/
theorem Binary.mem_lit_toggle (h : s.Binary) :
    p ∈ (s.toggle x y).2.lit ↔ (p ∈ s.lit ↔ pixel x y ≠ p) := by
  rw [mem_lit, mem_lit, cell_toggle]
  split
  case isTrue he =>
    rcases h p.1 p.2 with hc | hc <;> simp [hc, he]
  case isFalse he => simp [he]

/-- An inversion takes a lit pixel away or adds one. -/
theorem Binary.card_lit_toggle (h : s.Binary) (x y : Nat) :
    (s.toggle x y).2.lit.card + 2 * (s.get x y).toNat = s.lit.card + 1 := by
  cases hg : s.get x y with
  | true =>
    have hp : pixel x y ∈ s.lit := pixel_mem_lit.mpr hg
    have hl : (s.toggle x y).2.lit = s.lit.erase (pixel x y) := by
      ext p
      rw [h.mem_lit_toggle, Finset.mem_erase]
      rcases eq_or_ne (pixel x y) p with rfl | hne
      · simp [hp]
      · simp [hne, hne.symm]
    have hc := Finset.card_erase_add_one hp
    rw [hl, Bool.toNat_true]
    omega
  | false =>
    have hp : pixel x y ∉ s.lit := fun hp => Bool.false_ne_true (hg.symm.trans (pixel_mem_lit.mp hp))
    have hl : (s.toggle x y).2.lit = insert (pixel x y) s.lit := by
      ext p
      rw [h.mem_lit_toggle, Finset.mem_insert]
      rcases eq_or_ne (pixel x y) p with rfl | hne
      · simp [hp]
      · simp [hne, hne.symm]
    rw [hl, Finset.card_insert_of_notMem hp, Bool.toNat_false, Nat.mul_zero, Nat.add_zero]

theorem Binary.set (h : s.Binary) (x y : Nat) (on : Bool) : (s.set x y on).Binary := by
  intro a b
  rw [Screen.set, cell_setCell]
  split
  · cases on
    · exact .inl rfl
    · exact .inr rfl
  · exact h a b

theorem Binary.edit (h : s.Binary) (e : Edit) : (s.edit e).Binary := by
  cases e with
  | clear => exact binary_dark
  | set x y on => exact h.set x y on
  | toggle x y => exact h.toggle x y
  | draw x y sprite => exact h.drawSprite x y sprite

theorem binary_ofEdits (edits : List Edit) : (ofEdits edits).Binary := by
  have hb (s : Screen) (h : s.Binary) : (edits.foldl Screen.edit s).Binary := by
    induction edits generalizing s with
    | nil => exact h
    | cons e edits ih => exact ih _ (h.edit e)
  exact hb dark binary_dark

end Screen

end HexConsole
