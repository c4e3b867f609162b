import HexConsole.Proofs.Pixels

/-! # What drawing does

Drawing a sprite inverts each pixel as often as a set bit falls on it, so only the parity counts.
It hits if a bit falls on a pixel that is lit then, and such a hit takes a lit pixel away where
every other bit adds one.
-/

namespace HexConsole.Screen

variable {s : Screen} {x y : Nat} {sprite : List UInt8} {p : Pixel} {points : List (Nat × Nat)}

/-- The set bits of a sprite: each is a row and a place in it. -/
def setBits (sprite : List UInt8) : Finset (Nat × Nat) :=
  {bit ∈ Finset.range sprite.length ×ˢ Finset.range 8 |
    spriteBit (sprite.getD bit.1 0) bit.2 = true}

/-- How many set bits of a sprite fall on a pixel. -/
def cover (x y : Nat) (sprite : List UInt8) (p : Pixel) : Nat :=
  Finset.card {bit ∈ setBits sprite |
    (x + bit.2) % screenWidth = p.1 ∧ (y + bit.1) % screenHeight = p.2}

/-- How many of some points are at a pixel. -/
def countAt (points : List (Nat × Nat)) (p : Pixel) : Nat :=
  points.countP fun q => pixel q.1 q.2 = p

/-- How many of some points are lit when they are inverted one after another. -/
def hits (s : Screen) : List (Nat × Nat) → Nat
  | [] => 0
  | q :: points => (s.toggle q.1 q.2).2.hits points + (s.get q.1 q.2).toNat

theorem mem_setBits {r k : Nat} : (r, k) ∈ setBits sprite ↔
    (r < sprite.length ∧ k < 8) ∧ spriteBit (sprite.getD r 0) k = true := by
  rw [setBits, Finset.mem_filter, Finset.mem_product, Finset.mem_range, Finset.mem_range]

theorem one_le_cover_iff :
    1 ≤ cover x y sprite p ↔ ∃ r k, (r, k) ∈ setBits sprite ∧ pixel (x + k) (y + r) = p := by
  simp only [cover, Finset.one_le_card, Finset.Nonempty, Finset.mem_filter, Prod.exists,
    pixel_eq_iff]

section Counting

variable (holds : Nat × Nat → Prop) [DecidablePred holds]

theorem countP_rowPoints (x y : Nat) (byte : UInt8) :
    (rowPoints x y byte).countP (fun q => decide (holds q)) =
      ∑ k ∈ Finset.range 8, if spriteBit byte k = true ∧ holds (x + k, y) then 1 else 0 := by
  have hr : Finset.card {k ∈ Finset.range 8 | spriteBit byte k = true ∧ holds (x + k, y)} =
      (List.range 8).countP fun k => decide (spriteBit byte k = true ∧ holds (x + k, y)) := by
    rw [List.countP_eq_length_filter]
    rfl
  rw [rowPoints, List.countP_map, List.countP_filter, ← Finset.card_filter, hr]
  exact List.countP_congr fun k _ => by simp [and_comm]

/-- The points of a sprite are those of its set bits. -/
theorem card_setBits_filter (x y : Nat) (sprite : List UInt8) :
    Finset.card {bit ∈ setBits sprite | holds (x + bit.2, y + bit.1)} =
      (spritePoints x y sprite).countP fun q => decide (holds q) := by
  rw [setBits, Finset.filter_filter, Finset.card_filter, Finset.sum_product]
  induction sprite generalizing y with
  | nil => rfl
  | cons byte sprite ih =>
    rw [List.length_cons, Finset.sum_range_succ', spritePoints, List.countP_append,
      countP_rowPoints, Nat.add_comm, ← ih (y + 1)]
    simp only [List.getD_cons_succ, List.getD_cons_zero, Nat.add_zero, Nat.add_assoc,
      Nat.add_comm 1]

end Counting

theorem countAt_cons (q : Nat × Nat) (points : List (Nat × Nat)) (p : Pixel) :
    countAt (q :: points) p = countAt points p + if pixel q.1 q.2 = p then 1 else 0 := by
  rw [countAt, List.countP_cons]
  simp only [decide_eq_true_eq, countAt]

theorem cover_eq_countAt (x y : Nat) (sprite : List UInt8) (p : Pixel) :
    cover x y sprite p = countAt (spritePoints x y sprite) p := by
  rw [countAt, ← card_setBits_filter, cover]
  simp only [pixel_eq_iff]

theorem card_setBits (x y : Nat) (sprite : List UInt8) :
    (setBits sprite).card = (spritePoints x y sprite).length := by
  have h := card_setBits_filter (fun _ => True) x y sprite
  rwa [Finset.filter_true, decide_true, List.countP_true] at h

/-- Eight columns and at most as many rows as the screen has do not meet again. -/
theorem cover_le_one (h : sprite.length ≤ 32) : cover x y sprite p ≤ 1 := by
  rw [cover, Finset.card_le_one]
  simp only [Finset.mem_filter, Prod.forall, mem_setBits]
  rintro r k ⟨⟨⟨hr, hk⟩, -⟩, hx, hy⟩ r' k' ⟨⟨⟨hr', hk'⟩, -⟩, hx', hy'⟩
  have hk : (x + k) % 64 = (x + k') % 64 := hx.trans hx'.symm
  have hr : (y + r) % 32 = (y + r') % 32 := hy.trans hy'.symm
  rw [Prod.mk.injEq]
  omega

theorem cover_congr {x' y' : Nat} (hx : x' % 64 = x % 64) (hy : y' % 32 = y % 32) :
    cover x' y' sprite p = cover x y sprite p := by
  have hx (k : Nat) : (x' + k) % screenWidth = (x + k) % screenWidth := by
    rw [Nat.add_mod, hx, ← Nat.add_mod]
  have hy (r : Nat) : (y' + r) % screenHeight = (y + r) % screenHeight := by
    rw [Nat.add_mod, hy, ← Nat.add_mod]
  simp only [cover, hx, hy]

theorem parity_xor (m n : Nat) :
    UInt8.ofNat (m % 2) ^^^ UInt8.ofNat (n % 2) = UInt8.ofNat ((m + n) % 2) := by
  rw [Nat.add_mod]
  rcases Nat.mod_two_eq_zero_or_one m with hm | hm <;>
    rcases Nat.mod_two_eq_zero_or_one n with hn | hn <;> rw [hm, hn] <;> rfl

/-- Whether a cell is inverted in the end depends on the parity of the points at its pixel. -/
theorem cell_foldl_toggleNext (drawn : Bool × Screen) (points : List (Nat × Nat)) (p : Pixel) :
    (points.foldl toggleNext drawn).2.cell p.1 p.2 =
      drawn.2.cell p.1 p.2 ^^^ UInt8.ofNat (countAt points p % 2) := by
  induction points generalizing drawn with
  | nil => simp [countAt]
  | cons q points ih =>
    have ht : (toggleNext drawn q).2 = (drawn.2.toggle q.1 q.2).2 := rfl
    rw [List.foldl_cons, ih, ht, cell_toggle, countAt_cons]
    split
    · rw [UInt8.xor_assoc, Nat.add_comm, ← parity_xor 1]
      rfl
    · rw [Nat.add_zero]

theorem hit_foldl_toggleNext (drawn : Bool × Screen) (points : List (Nat × Nat)) :
    (points.foldl toggleNext drawn).1 = true ↔ drawn.1 = true ∨ 0 < drawn.2.hits points := by
  induction points generalizing drawn with
  | nil => simp [hits]
  | cons q points ih =>
    have ht : toggleNext drawn q =
        (drawn.1 || drawn.2.get q.1 q.2, (drawn.2.toggle q.1 q.2).2) := rfl
    rw [List.foldl_cons, ih, ht, hits, Bool.or_eq_true, or_assoc]
    refine or_congr_right ?_
    cases drawn.2.get q.1 q.2 <;> simp

/-- Every point adds a lit pixel, except that a hit takes one away. -/
theorem card_lit_foldl_toggleNext (drawn : Bool × Screen) (h : drawn.2.Binary)
    (points : List (Nat × Nat)) :
    (points.foldl toggleNext drawn).2.lit.card + 2 * drawn.2.hits points =
      drawn.2.lit.card + points.length := by
  induction points generalizing drawn with
  | nil => rfl
  | cons q points ih =>
    have ht : (toggleNext drawn q).2 = (drawn.2.toggle q.1 q.2).2 := rfl
    have hp := ih (toggleNext drawn q) (h.toggle q.1 q.2)
    have hq := h.card_lit_toggle q.1 q.2
    rw [ht] at hp
    rw [List.foldl_cons, List.length_cons, hits]
    omega

/-- There is a hit if some point falls on a lit pixel or two points fall on the same one. -/
theorem Binary.hits_pos_iff (h : s.Binary) :
    0 < s.hits points ↔
      ∃ p : Pixel, 1 ≤ countAt points p ∧ p ∈ s.lit ∨ 2 ≤ countAt points p := by
  induction points generalizing s with
  | nil => simp [hits, countAt]
  | cons q points ih =>
    have hg : 0 < (s.get q.1 q.2).toNat ↔ pixel q.1 q.2 ∈ s.lit := by
      rw [pixel_mem_lit]
      cases s.get q.1 q.2 <;> decide
    rw [hits, Nat.add_pos_iff_pos_or_pos, ih (h.toggle q.1 q.2), hg]
    simp only [h.mem_lit_toggle, countAt_cons]
    constructor
    · rintro (⟨p, hp⟩ | hq)
      · refine ⟨p, ?_⟩
        by_cases he : pixel q.1 q.2 = p
        · rw [if_pos he]
          omega
        · simpa [he] using hp
      · exact ⟨_, .inl ⟨by simp, hq⟩⟩
    · rintro ⟨p, hp⟩
      by_cases he : pixel q.1 q.2 = p
      · by_cases hl : p ∈ s.lit
        · exact .inr (he ▸ hl)
        · -- Two points at a dark pixel: the first lights it and the second hits it.
          rw [if_pos he] at hp
          have hc : 2 ≤ countAt points p + 1 := hp.resolve_left fun h => hl h.2
          exact .inl ⟨p, .inl ⟨Nat.le_of_succ_le_succ hc, by simp [he, hl]⟩⟩
      · exact .inl ⟨p, by simpa [he] using hp⟩

theorem cell_drawSprite (s : Screen) (x y : Nat) (sprite : List UInt8) (p : Pixel) :
    (s.drawSprite x y sprite).2.cell p.1 p.2 =
      s.cell p.1 p.2 ^^^ UInt8.ofNat (cover x y sprite p % 2) := by
  rw [drawSprite_eq_toggleAll, cover_eq_countAt]
  exact cell_foldl_toggleNext (false, s) _ p

theorem hit_drawSprite (s : Screen) (x y : Nat) (sprite : List UInt8) :
    (s.drawSprite x y sprite).1 = true ↔ 0 < s.hits (spritePoints x y sprite) := by
  rw [drawSprite_eq_toggleAll, toggleAll, hit_foldl_toggleNext, or_iff_right Bool.false_ne_true]

theorem Binary.hit_drawSprite_iff (h : s.Binary) :
    (s.drawSprite x y sprite).1 = true ↔
      ∃ p : Pixel, 1 ≤ cover x y sprite p ∧ s.get p.1 p.2 = true ∨ 2 ≤ cover x y sprite p := by
  rw [hit_drawSprite, h.hits_pos_iff]
  simp only [cover_eq_countAt, mem_lit_iff_get]

theorem Binary.get_drawSprite_of_cover_eq_one (h : s.Binary) (hc : cover x y sprite p = 1) :
    (s.drawSprite x y sprite).2.get p.1 p.2 = !s.get p.1 p.2 := by
  rw [get, cell_drawSprite, hc, get]
  rcases h p.1 p.2 with hp | hp <;> rw [hp] <;> rfl

theorem get_drawSprite_of_cover_eq_zero (hc : cover x y sprite p = 0) :
    (s.drawSprite x y sprite).2.get p.1 p.2 = s.get p.1 p.2 := by
  rw [get, cell_drawSprite, hc, get]
  simp

/-- A sprite that does not overlap itself hits if it covers a lit pixel. -/
theorem Binary.hit_drawSprite_iff_covers (h : s.Binary) (hl : sprite.length ≤ 32) :
    (s.drawSprite x y sprite).1 = true ↔
      ∃ p : Pixel, 1 ≤ cover x y sprite p ∧ s.get p.1 p.2 = true := by
  rw [h.hit_drawSprite_iff]
  apply exists_congr
  intro p
  have hc : cover x y sprite p ≤ 1 := cover_le_one hl
  apply or_iff_left
  omega

/-- It hits if it takes a lit pixel away. -/
theorem Binary.hit_drawSprite_iff_erased (h : s.Binary) (hl : sprite.length ≤ 32) :
    (s.drawSprite x y sprite).1 = true ↔
      ∃ p : Pixel, s.get p.1 p.2 = true ∧ (s.drawSprite x y sprite).2.get p.1 p.2 = false := by
  rw [h.hit_drawSprite_iff_covers hl]
  apply exists_congr
  intro p
  rw [and_comm]
  apply and_congr_right
  intro hp
  have hc : cover x y sprite p ≤ 1 := cover_le_one hl
  rcases Nat.le_one_iff_eq_zero_or_eq_one.mp hc with h0 | h1
  · simp [get_drawSprite_of_cover_eq_zero h0, hp, h0]
  · simp [h.get_drawSprite_of_cover_eq_one h1, hp, h1]

/-- Moving a sprite by whole screens makes no difference. -/
theorem Binary.drawSprite_congr {x' y' : Nat} (h : s.Binary) (hx : x' % 64 = x % 64)
    (hy : y' % 32 = y % 32) : s.drawSprite x' y' sprite = s.drawSprite x y sprite := by
  refine Prod.ext (Bool.eq_iff_iff.mpr ?_) (ext_pixel fun p => ?_)
  · simp only [h.hit_drawSprite_iff, cover_congr hx hy]
  · rw [cell_drawSprite, cover_congr hx hy, ← cell_drawSprite]

/-- Drawing a sprite inverts each pixel as often as a set bit falls on it. It hits if a bit falls
on a pixel that was lit or two bits fall on the same pixel; a sprite that is not higher than the
screen hits if it takes a lit pixel away. Coordinates count only as far as they wrap around. -/
theorem drawSprite_inverts (h : s.Binary) (x y : Nat) (sprite : List UInt8) :
    let drawn := s.drawSprite x y sprite
    (∀ p : Pixel, drawn.2.cell p.1 p.2 =
      s.cell p.1 p.2 ^^^ UInt8.ofNat (cover x y sprite p % 2)) ∧
    (drawn.1 = true ↔ ∃ p : Pixel,
      1 ≤ cover x y sprite p ∧ s.get p.1 p.2 = true ∨ 2 ≤ cover x y sprite p) ∧
    (sprite.length ≤ 32 → (drawn.1 = true ↔
      ∃ p : Pixel, s.get p.1 p.2 = true ∧ drawn.2.get p.1 p.2 = false)) ∧
    ∀ x' y', x' % 64 = x % 64 → y' % 32 = y % 32 → s.drawSprite x' y' sprite = drawn :=
  ⟨cell_drawSprite s x y sprite, h.hit_drawSprite_iff, h.hit_drawSprite_iff_erased,
    fun _ _ => h.drawSprite_congr⟩

/-- A sprite at the last corner of the screen takes away the pixel at the first, and one that is
higher than the screen hits itself. -/
theorem drawSprite_inverts_corner :
    let s := (dark.toggle 0 0).2
    let small : List UInt8 := [0xC0, 0xC0]
    let high : List UInt8 := .replicate 33 0x80
    s.Binary ∧ small.length ≤ 32 ∧ (s.drawSprite 63 31 small).1 = true ∧
      s.drawSprite 127 63 small = s.drawSprite 63 31 small ∧
      dark.Binary ∧ cover 0 0 high (0, 0) = 2 ∧ (dark.drawSprite 0 0 high).1 = true ∧
      (dark.drawSprite 0 0 high).2.cell 0 0 = 0 := by
  intro s small high
  have hs : s.Binary := binary_dark.toggle 0 0
  have hc : cover 0 0 high (0, 0) = 2 := by decide +kernel
  obtain ⟨-, -, hl, hw⟩ := drawSprite_inverts hs 63 31 small
  obtain ⟨hp, hd, -, -⟩ := drawSprite_inverts binary_dark 0 0 high
  refine ⟨hs, by decide, (hl (by decide)).mpr ⟨(0, 0), ?_, ?_⟩, hw 127 63 rfl rfl, binary_dark, hc,
    hd.mpr ⟨(0, 0), .inr hc.ge⟩, ?_⟩
  · decide +kernel
  · decide +kernel
  · have h0 := hp (0, 0)
    rwa [hc] at h0

/-- Every set bit lights a pixel, except that a hit takes one away; so the number of lit pixels
tells whether there was a hit. -/
theorem litPixels_drawSprite (h : s.Binary) (x y : Nat) (sprite : List UInt8) :
    let drawn := s.drawSprite x y sprite
    let bits := (setBits sprite).card
    let erased := s.hits (spritePoints x y sprite)
    drawn.2.litPixels ≤ s.litPixels + bits ∧
    drawn.2.litPixels + 2 * erased = s.litPixels + bits ∧
    (drawn.1 = true ↔ 0 < erased) ∧
    (drawn.1 = true ↔ drawn.2.litPixels ≠ s.litPixels + bits) := by
  intro drawn bits erased
  have hl : drawn.2.litPixels + 2 * erased = s.litPixels + bits := by
    have hdr : drawn = (spritePoints x y sprite).foldl toggleNext (false, s) :=
      drawSprite_eq_toggleAll s x y sprite
    have hf := card_lit_foldl_toggleNext (false, s) h (spritePoints x y sprite)
    rw [← card_setBits] at hf
    rw [litPixels_eq_card, litPixels_eq_card, hdr]
    exact hf
  have hd : drawn.1 = true ↔ 0 < erased := hit_drawSprite s x y sprite
  refine ⟨by omega, hl, hd, ?_⟩
  rw [hd]
  omega

/-- A sprite of 33 points in one column covers all of it, and the first pixel twice. -/
theorem litPixels_drawSprite_column :
    let s := (dark.toggle 0 0).2
    let high : List UInt8 := .replicate 33 0x80
    let drawn := s.drawSprite 0 0 high
    s.Binary ∧ s.litPixels = 1 ∧ (setBits high).card = 33 ∧
      s.hits (spritePoints 0 0 high) = 1 ∧ drawn.2.litPixels = 32 ∧ drawn.1 = true := by
  intro s high drawn
  have hs : s.Binary := binary_dark.toggle 0 0
  have hl : s.litPixels = 1 := by decide +kernel
  have hb : (setBits high).card = 33 := by decide +kernel
  have he : s.hits (spritePoints 0 0 high) = 1 := by decide +kernel
  obtain ⟨-, hsum, hd, -⟩ := litPixels_drawSprite hs 0 0 high
  rw [hl, hb, he] at hsum
  exact ⟨hs, hl, hb, he, Nat.add_right_cancel hsum, hd.mpr (he ▸ Nat.one_pos)⟩

end HexConsole.Screen
