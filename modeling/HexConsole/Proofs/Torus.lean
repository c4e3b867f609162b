import HexConsole.Proofs.Drawing
import Mathlib.Data.Finset.SymmDiff

/-! # Screens as sets of points

The points of the screen lie on a torus, as both coordinates wrap around. A screen that was made by
edits is a set of such points, whichever way it is looked at: point by point, row by row, by the
number of lit pixels or by comparison with another screen. Each edit is an operation on the set:
setting puts a point in or takes it out, inverting changes one point, and drawing changes the
points that an odd number of set bits falls on.
-/

namespace HexConsole.Screen

variable {s t : Screen} {pixels pixels' : Finset Pixel} {x y : Nat} {p : Pixel}
  {sprite : List UInt8}

/-- The pixels that an odd number of set bits of a sprite falls on. -/
def oddlyCovered (x y : Nat) (sprite : List UInt8) : Finset Pixel :=
  {p | cover x y sprite p % 2 = 1}

theorem mem_oddlyCovered : p ∈ oddlyCovered x y sprite ↔ cover x y sprite p % 2 = 1 := by
  rw [oddlyCovered, Finset.mem_filter_univ]

-- Like the lit pixels, this set is known by its members only.
attribute [irreducible] oddlyCovered

/-- What an edit does to a set of pixels. -/
def Edit.onPixels : Edit → Finset Pixel → Finset Pixel
  | .clear, _ => ∅
  | .set x y on, pixels => if on then insert (pixel x y) pixels else pixels.erase (pixel x y)
  | .toggle x y, pixels => symmDiff pixels {pixel x y}
  | .draw x y sprite, pixels => symmDiff pixels (oddlyCovered x y sprite)

/-- The set that edits make of the empty one, one after another. -/
def pixelsOf (edits : List Edit) : Finset Pixel :=
  edits.foldl (fun pixels e => e.onPixels pixels) ∅

/-- Every view of a screen shows the same set of pixels. -/
structure Represents (s : Screen) (pixels : Finset Pixel) : Prop where
  get_iff : ∀ x y, s.get x y = true ↔ pixel x y ∈ pixels
  rows_eq : s.rows = List.ofFn fun j => List.ofFn fun i => if (i, j) ∈ pixels then 1 else 0
  litPixels_eq : s.litPixels = pixels.card

/-- A pixel becomes lit or dark, and all others stay as they are. -/
structure ChangesOnly (p : Pixel) (on : Prop) (pixels pixels' : Finset Pixel) : Prop where
  mem_iff : p ∈ pixels' ↔ on
  mem_iff_of_ne : ∀ q ≠ p, q ∈ pixels' ↔ q ∈ pixels

theorem rows_eq_ofFn (s : Screen) :
    s.rows = List.ofFn fun j : Fin screenHeight =>
      List.ofFn fun i : Fin screenWidth => s.cell i j := by
  rw [rows, toList_eq_ofFn, List.map_ofFn]
  refine congrArg List.ofFn (funext fun j => ?_)
  refine (toList_eq_ofFn (s.cells.get j)).trans (congrArg List.ofFn (funext fun i => ?_))
  simp only [cell, row_val, column_val]
  rfl

/-- A screen represents a set exactly if its cells are one in the set and zero outside. -/
theorem represents_iff :
    s.Represents pixels ↔ ∀ p : Pixel, s.cell p.1 p.2 = if p ∈ pixels then 1 else 0 := by
  constructor
  · rintro h ⟨i, j⟩
    have hr := h.rows_eq
    rw [rows_eq_ofFn, List.ofFn_inj] at hr
    exact congrFun (List.ofFn_injective (congrFun hr j)) i
  · intro h
    have hl : s.lit = pixels := by
      ext p
      rw [mem_lit, h]
      simp
    constructor
    · intro x y
      rw [← pixel_mem_lit, hl]
    · rw [rows_eq_ofFn]
      simp only [fun i j => h (i, j)]
    · rw [litPixels_eq_card, hl]

theorem Represents.cell_eq (h : s.Represents pixels) (p : Pixel) :
    s.cell p.1 p.2 = if p ∈ pixels then 1 else 0 :=
  represents_iff.mp h p

theorem Represents.binary (h : s.Represents pixels) : s.Binary := by
  intro x y
  rw [← cell_pixel, h.cell_eq]
  split
  · exact .inr rfl
  · exact .inl rfl

theorem Represents.mem_iff (h : s.Represents pixels) : p ∈ pixels ↔ s.get p.1 p.2 = true := by
  rw [h.get_iff, pixel, column_val, row_val]

/-- Screens are compared like the sets that they represent. -/
theorem Represents.eq_iff (h : s.Represents pixels) (h' : t.Represents pixels') :
    s = t ↔ pixels = pixels' := by
  constructor
  · rintro rfl
    ext p
    rw [h.mem_iff, h'.mem_iff]
  · rintro rfl
    apply ext_pixel
    intro p
    rw [h.cell_eq, h'.cell_eq]

theorem represents_dark : dark.Represents ∅ := by
  rw [represents_iff]
  intro p
  simp

theorem Represents.set (h : s.Represents pixels) (x y : Nat) (on : Bool) :
    (s.set x y on).Represents ((Edit.set x y on).onPixels pixels) := by
  rw [represents_iff]
  intro p
  rw [Screen.set, cell_setCell_pixel, h.cell_eq]
  rcases eq_or_ne (pixel x y) p with rfl | hp
  · cases on <;> simp [Edit.onPixels, level]
  · cases on <;> simp [Edit.onPixels, hp, hp.symm]

theorem Represents.toggle (h : s.Represents pixels) (x y : Nat) :
    (s.toggle x y).2.Represents ((Edit.toggle x y).onPixels pixels) := by
  rw [represents_iff]
  intro p
  rw [cell_toggle, h.cell_eq]
  simp only [Edit.onPixels, Finset.mem_symmDiff, Finset.mem_singleton]
  rcases eq_or_ne (pixel x y) p with rfl | hp
  · by_cases hm : pixel x y ∈ pixels <;> simp [hm]
  · simp [hp, hp.symm]

theorem Represents.drawSprite (h : s.Represents pixels) (x y : Nat) (sprite : List UInt8) :
    (s.drawSprite x y sprite).2.Represents ((Edit.draw x y sprite).onPixels pixels) := by
  rw [represents_iff]
  intro p
  rw [cell_drawSprite, h.cell_eq]
  simp only [Edit.onPixels, Finset.mem_symmDiff, mem_oddlyCovered]
  rcases Nat.mod_two_eq_zero_or_one (cover x y sprite p) with hc | hc
  · simp [hc]
  · by_cases hm : p ∈ pixels <;> simp [hc, hm]

theorem Represents.edit (h : s.Represents pixels) (e : Edit) :
    (s.edit e).Represents (e.onPixels pixels) := by
  cases e with
  | clear => exact represents_dark
  | set x y on => exact h.set x y on
  | toggle x y => exact h.toggle x y
  | draw x y sprite => exact h.drawSprite x y sprite

theorem represents_ofEdits (edits : List Edit) : (ofEdits edits).Represents (pixelsOf edits) := by
  have hf (s : Screen) (pixels : Finset Pixel) (h : s.Represents pixels) :
      (edits.foldl Screen.edit s).Represents
        (edits.foldl (fun pixels e => e.onPixels pixels) pixels) := by
    induction edits generalizing s pixels with
    | nil => exact h
    | cons e edits ih => exact ih _ _ (h.edit e)
  exact hf dark ∅ represents_dark

theorem changesOnly_set (pixels : Finset Pixel) (x y : Nat) (on : Bool) :
    ChangesOnly (pixel x y) (on = true) pixels ((Edit.set x y on).onPixels pixels) := by
  constructor
  · cases on <;> simp [Edit.onPixels]
  · intro q hq
    cases on <;> simp [Edit.onPixels, hq]

theorem changesOnly_toggle (pixels : Finset Pixel) (x y : Nat) :
    ChangesOnly (pixel x y) (pixel x y ∉ pixels) pixels ((Edit.toggle x y).onPixels pixels) := by
  constructor
  · simp [Edit.onPixels, Finset.mem_symmDiff]
  · intro q hq
    simp [Edit.onPixels, Finset.mem_symmDiff, hq]

theorem Represents.hit_drawSprite_iff (h : s.Represents pixels) :
    (s.drawSprite x y sprite).1 = true ↔
      ∃ p, 1 ≤ cover x y sprite p ∧ p ∈ pixels ∨ 2 ≤ cover x y sprite p := by
  rw [h.binary.hit_drawSprite_iff]
  simp only [h.mem_iff]

/-- Edits of a dark screen, at coordinates of any size, make a set of pixels, and every view of the
screen shows that set. Setting and inverting a point change the set only there, and inverting
tells whether the pixel was in the set. Drawing changes the pixels that are covered an odd number
of times, and tells whether a set bit fell on a pixel in the set or two on the same pixel. Two
screens are equal exactly if their sets are. -/
theorem ofEdits_refines_pixels (edits : List Edit) :
    let s := ofEdits edits
    let pixels := pixelsOf edits
    s.Represents pixels ∧
    (∀ x y on, ∃ pixels', (s.set x y on).Represents pixels' ∧
      ChangesOnly (pixel x y) (on = true) pixels pixels') ∧
    (∀ x y, ((s.toggle x y).1 = true ↔ pixel x y ∈ pixels) ∧
      ∃ pixels', (s.toggle x y).2.Represents pixels' ∧
        ChangesOnly (pixel x y) (pixel x y ∉ pixels) pixels pixels') ∧
    (∀ x y sprite, (s.drawSprite x y sprite).2.Represents
        (symmDiff pixels (oddlyCovered x y sprite)) ∧
      ((s.drawSprite x y sprite).1 = true ↔
        ∃ p, 1 ≤ cover x y sprite p ∧ p ∈ pixels ∨ 2 ≤ cover x y sprite p)) ∧
    ∀ edits', s = ofEdits edits' ↔ pixels = pixelsOf edits' := by
  intro s pixels
  have h : s.Represents pixels := represents_ofEdits edits
  refine ⟨h, ?_, ?_, ?_, ?_⟩
  · intro x y on
    exact ⟨_, h.set x y on, changesOnly_set pixels x y on⟩
  · intro x y
    exact ⟨h.get_iff x y, _, h.toggle x y, changesOnly_toggle pixels x y⟩
  · intro x y sprite
    exact ⟨h.drawSprite x y sprite, h.hit_drawSprite_iff⟩
  · intro edits'
    exact h.eq_iff (represents_ofEdits edits')

-- A point is set at coordinates beyond the edges, and inverted at those to which they wrap around.
example : ofEdits [.set 65 34 true, .toggle 1 2] = dark := by decide +kernel

end HexConsole.Screen
