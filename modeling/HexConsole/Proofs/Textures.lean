import HexConsole.Guarded.Texture
import HexConsole.Proofs.Pixels

/-! # Pictures of frames

A texture has three equal bytes for each pixel, and the pixels follow one another row by row. So
the place of a byte tells its pixel and its colour, and the bytes tell the frame.
-/

namespace HexConsole

section

variable {α β : Type} {f : α → List β} {l : List α} {n : Nat}

theorem length_flatMap_of_length (hl : ∀ a ∈ l, (f a).length = n) :
    (l.flatMap f).length = l.length * n := by
  rw [List.length_flatMap, List.map_congr_left hl, List.map_const', List.sum_replicate,
    smul_eq_mul]

/-- Where every element becomes equally many, the place of one tells which element it comes from. -/
theorem getElem?_flatMap_of_length (hl : ∀ a ∈ l, (f a).length = n) {j : Nat} (hj : j < n)
    (i : Nat) :
    (l.flatMap f)[n * i + j]? = l[i]?.bind fun a => (f a)[j]? := by
  induction l generalizing i with
  | nil => simp
  | cons a l ih =>
    have ha : (f a).length = n := hl a List.mem_cons_self
    rw [List.flatMap_cons]
    cases i with
    | zero =>
      rw [Nat.mul_zero, Nat.zero_add, List.getElem?_append_left (ha ▸ hj)]
      rfl
    | succ i =>
      have hi : n * (i + 1) + j = n + (n * i + j) := by rw [Nat.mul_succ]; omega
      rw [hi, List.getElem?_append_right (by omega), ha, Nat.add_sub_cancel_left,
        ih fun a h => hl a (List.mem_cons_of_mem _ h)]
      rfl

end

namespace Screen

variable {s : Screen} {x y : Nat}

theorem length_of_mem_rows {row : List UInt8} (h : row ∈ s.rows) : row.length = screenWidth := by
  obtain ⟨r, -, rfl⟩ := List.mem_map.mp h
  exact r.length_toList

theorem length_flatten_rows (s : Screen) :
    s.rows.flatten.length = screenHeight * screenWidth := by
  have hr : s.rows.length = screenHeight := by simp [rows]
  rw [← hr, ← List.flatMap_id]
  exact length_flatMap_of_length fun _ => length_of_mem_rows

theorem getElem?_flatten_rows (hx : x < screenWidth) (hy : y < screenHeight) :
    s.rows.flatten[screenWidth * y + x]? = some (s.cell x y) := by
  rw [← List.flatMap_id]
  refine (getElem?_flatMap_of_length (fun _ => length_of_mem_rows) hx y).trans ?_
  have hc : column x = ⟨x, hx⟩ := column_val ⟨x, hx⟩
  have hr : row y = ⟨y, hy⟩ := row_val ⟨y, hy⟩
  simp [rows, cell, hc, hr, hx, hy]

theorem Binary.of_mem_flatten_rows (h : s.Binary) {level : UInt8} (hl : level ∈ s.rows.flatten) :
    level = 0 ∨ level = 1 := by
  obtain ⟨i, hi⟩ := List.mem_iff_getElem?.mp hl
  obtain ⟨hlt, -⟩ := List.getElem?_eq_some_iff.mp hi
  rw [length_flatten_rows] at hlt
  have hx : i % screenWidth < screenWidth := Nat.mod_lt i (by decide)
  have hy : i / screenWidth < screenHeight := Nat.div_lt_of_lt_mul (Nat.mul_comm _ _ ▸ hlt)
  have hc := getElem?_flatten_rows (s := s) hx hy
  rw [Nat.div_add_mod, hi] at hc
  rw [Option.some.inj hc]
  exact h _ _

end Screen

namespace Window

variable {s t : Screen} {x y c : Nat}

theorem texture_eq_flatMap (s : Screen) : texture s = s.rows.flatten.flatMap pixelBytes := by
  rw [← List.flatMap_id, List.flatMap_assoc]
  rfl

theorem length_pixelBytes (level : UInt8) : (pixelBytes level).length = 3 := List.length_replicate

theorem length_texture (s : Screen) :
    (texture s).length = screenWidth * screenHeight * 3 := by
  rw [texture_eq_flatMap, length_flatMap_of_length fun level _ => length_pixelBytes level,
    Screen.length_flatten_rows, Nat.mul_comm screenWidth]

theorem getElem?_texture (hx : x < screenWidth) (hy : y < screenHeight) (hc : c < 3) :
    (texture s)[3 * (screenWidth * y + x) + c]? = some (s.cell x y * 255) := by
  rw [texture_eq_flatMap, getElem?_flatMap_of_length (fun level _ => length_pixelBytes level) hc,
    Screen.getElem?_flatten_rows hx hy, Option.bind_some]
  exact List.getElem?_replicate_of_lt hc

theorem colour_of_binary (h : s.Binary) (x y : Nat) :
    s.cell x y * 255 = if s.get x y then 255 else 0 := by
  rcases h x y with hc | hc <;> simp [Screen.get, hc]

/-- The bytes of a frame whose cells are zero or one tell which of them are one. -/
theorem eq_of_texture_eq (hs : s.Binary) (ht : t.Binary) (h : texture s = texture t) : s = t := by
  apply Screen.ext_pixel
  intro p
  have hb : s.cell p.1 p.2 * 255 = t.cell p.1 p.2 * 255 := by
    apply Option.some.inj
    rw [← getElem?_texture p.1.isLt p.2.isLt (Nat.zero_lt_succ 2), h,
      getElem?_texture p.1.isLt p.2.isLt (Nat.zero_lt_succ 2)]
  rcases hs p.1 p.2 with hp | hp <;> rcases ht p.1 p.2 with hq | hq <;> rw [hp, hq] at hb ⊢
  · exact absurd hb (by decide)
  · exact absurd hb (by decide)

theorem guarded_pixelBytes {level : UInt8} (h : level = 0 ∨ level = 1) :
    Guarded.pixelBytes level = .ok (pixelBytes level) := by
  have hp : level.toNat * 255 < UInt8.size := by rcases h with rfl | rfl <;> decide
  rw [Guarded.pixelBytes, Guarded.product_ok hp, Guarded.ok_bind, UInt8.ofNat_mul,
    UInt8.ofNat_toNat]
  rfl

/-- No product of a frame whose cells are zero or one is too great for a byte. -/
theorem guarded_texture (h : s.Binary) : Guarded.texture s = .ok (texture s) := by
  have hm : s.rows.flatten.mapM Guarded.pixelBytes = .ok (s.rows.flatten.map pixelBytes) :=
    Guarded.mapM_ok fun level hl => guarded_pixelBytes (h.of_mem_flatten_rows hl)
  rw [Guarded.texture, hm, Guarded.ok_bind, ← List.flatMap_def, ← texture_eq_flatMap]
  rfl

/-- The texture of a frame that was made by edits has three bytes for each pixel, which are 255 if
the pixel is lit and 0 if it is dark. Nothing overflows on the way, and frames with the same
texture are the same. -/
theorem texture_pictures_frame (edits : List Screen.Edit) :
    let s := Screen.ofEdits edits
    (texture s).length = 64 * 32 * 3 ∧
    (∀ x < 64, ∀ y < 32, ∀ c < 3,
      (texture s)[3 * (64 * y + x) + c]? = some (if s.get x y then 255 else 0)) ∧
    Guarded.texture s = .ok (texture s) ∧
    ∀ edits', texture (Screen.ofEdits edits') = texture s → Screen.ofEdits edits' = s := by
  intro s
  have hs : s.Binary := Screen.binary_ofEdits edits
  refine ⟨length_texture s, ?_, guarded_texture hs, ?_⟩
  · intro x hx y hy c hc
    rw [← colour_of_binary hs]
    exact getElem?_texture hx hy hc
  · intro edits' h
    exact eq_of_texture_eq (Screen.binary_ofEdits edits') hs h

-- The second pixel of the first row is named by the column behind the right edge, too.
example : (texture (Screen.ofEdits [.set 65 0 true])).take 6 = [0, 0, 0, 255, 255, 255] := by
  decide +kernel

end Window

end HexConsole
