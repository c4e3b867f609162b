import HexConsole.Proofs.Drawing
import Mathlib.Algebra.BigOperators.Ring.Nat
import Mathlib.Data.List.GetD

/-! # Drawing again

What many drawings leave of a pixel depends only on the number of set bits that fell on it, so
their order does not matter and equal drawings cancel in pairs. In particular a draw instruction
that is executed twice restores the screen; each of the two hits tells a part of the pixels under
the sprite, the first those that were lit and the second those that were dark.
-/

namespace HexConsole

namespace Screen

variable {s : Screen} {x y : Nat} {sprite : List UInt8} {p : Pixel}

/-- A sprite and the point at which its top left corner is drawn. -/
structure Drawing where
  x : Nat
  y : Nat
  sprite : List UInt8
  deriving DecidableEq

/-- The screen after drawings, one after another. -/
def drawAll (s : Screen) (drawings : List Drawing) : Screen :=
  drawings.foldl (fun s d => (s.drawSprite d.x d.y d.sprite).2) s

/-- How many set bits of some drawings fall on a pixel. -/
def coverAll (drawings : List Drawing) (p : Pixel) : Nat :=
  (drawings.map fun d => cover d.x d.y d.sprite p).sum

theorem cell_drawAll (s : Screen) (drawings : List Drawing) (p : Pixel) :
    (s.drawAll drawings).cell p.1 p.2 =
      s.cell p.1 p.2 ^^^ UInt8.ofNat (coverAll drawings p % 2) := by
  induction drawings generalizing s with
  | nil => simp [drawAll, coverAll]
  | cons d drawings ih =>
    have hd : s.drawAll (d :: drawings) =
        (s.drawSprite d.x d.y d.sprite).2.drawAll drawings := rfl
    have hc : coverAll (d :: drawings) p =
        cover d.x d.y d.sprite p + coverAll drawings p := List.sum_cons
    rw [hd, ih, cell_drawSprite, UInt8.xor_assoc, parity_xor, hc]

theorem coverAll_perm {drawings drawings' : List Drawing} (h : drawings.Perm drawings')
    (p : Pixel) : coverAll drawings p = coverAll drawings' p :=
  (h.map _).sum_eq

/-- Only the parity of the bits on each pixel counts. -/
theorem drawAll_congr {drawings drawings' : List Drawing}
    (h : ∀ p, coverAll drawings p % 2 = coverAll drawings' p % 2) (s : Screen) :
    s.drawAll drawings = s.drawAll drawings' := by
  apply ext_pixel
  intro p
  rw [cell_drawAll, cell_drawAll, h]

theorem drawAll_perm {drawings drawings' : List Drawing} (h : drawings.Perm drawings')
    (s : Screen) : s.drawAll drawings = s.drawAll drawings' := by
  apply drawAll_congr
  intro p
  rw [coverAll_perm h]

theorem even_coverAll {drawings : List Drawing} (h : ∀ d ∈ drawings, Even (drawings.count d))
    (p : Pixel) : Even (coverAll drawings p) := by
  rw [coverAll, Finset.sum_list_map_count]
  apply Finset.even_sum
  intro d hd
  rw [smul_eq_mul]
  exact (h d (List.mem_toFinset.mp hd)).mul_right _

theorem drawAll_of_even {drawings : List Drawing}
    (h : ∀ d ∈ drawings, Even (drawings.count d)) (s : Screen) : s.drawAll drawings = s := by
  have hp (p : Pixel) : coverAll drawings p % 2 = coverAll [] p % 2 :=
    Nat.even_iff.mp (even_coverAll h p)
  exact drawAll_congr hp s

theorem drawSprite_twice (s : Screen) (x y : Nat) (sprite : List UInt8) :
    ((s.drawSprite x y sprite).2.drawSprite x y sprite).2 = s := by
  let drawing : Drawing := ⟨x, y, sprite⟩
  have he : ∀ d ∈ [drawing, drawing], Even ([drawing, drawing].count d) := by
    intro d hd
    obtain rfl : d = drawing := by simpa using hd
    simp
  exact drawAll_of_even he s

/-- The order of drawings makes no difference, whatever the cells hold, and drawings of which
each occurs an even number of times leave the screen as it was: all that counts is the parity of
the set bits that fall on a pixel. -/
theorem drawAll_unordered (s : Screen) :
    (∀ drawings p, (s.drawAll drawings).cell p.1 p.2 =
      s.cell p.1 p.2 ^^^ UInt8.ofNat (coverAll drawings p % 2)) ∧
    (∀ drawings drawings', drawings.Perm drawings' →
      s.drawAll drawings = s.drawAll drawings') ∧
    ∀ drawings, (∀ d ∈ drawings, Even (drawings.count d)) → s.drawAll drawings = s :=
  ⟨cell_drawAll s, fun _ _ h => drawAll_perm h s, fun _ h => drawAll_of_even h s⟩

/-- Two sprites overlap, one of them across the corner of the screen. -/
theorem drawAll_unordered_overlap :
    let s := (dark.toggle 0 0).2
    let small : Drawing := ⟨62, 30, [0xF0, 0x90, 0x90, 0xF0]⟩
    let high : Drawing := ⟨0, 0, .replicate 33 0xFF⟩
    [small, high].Perm [high, small] ∧ s.drawAll [small, high] = s.drawAll [high, small] ∧
      (∀ d ∈ [small, high, high, small], Even ([small, high, high, small].count d)) ∧
      s.drawAll [small, high, high, small] = s ∧
      coverAll [small, high] (1, 1) = 2 ∧ (s.drawAll [small, high]).cell 1 1 = 0 := by
  intro s small high
  have hp : [small, high].Perm [high, small] := .swap _ _ _
  have he : ∀ d ∈ [small, high, high, small], Even ([small, high, high, small].count d) := by
    decide +kernel
  have hc : coverAll [small, high] (1, 1) = 2 := by decide +kernel
  obtain ⟨hcell, hperm, heven⟩ := drawAll_unordered s
  have h1 := hcell [small, high] (1, 1)
  rw [hc] at h1
  exact ⟨hp, hperm _ _ hp, he, heven _ he, hc, h1.trans (by decide +kernel)⟩

theorem exists_spriteBit {byte : UInt8} (h : byte ≠ 0) : ∃ k < 8, spriteBit byte k = true := by
  have h0 : byte.toNat ≠ 0 := fun h0 => h (UInt8.toNat.inj h0)
  obtain ⟨i, hi⟩ := Nat.exists_testBit_of_ne_zero h0
  have hp : 2 ^ i < 2 ^ 8 := Nat.lt_of_le_of_lt (Nat.ge_two_pow_of_testBit hi) byte.toNat_lt
  have hi8 : i < 8 := (Nat.pow_lt_pow_iff_right (by decide)).mp hp
  refine ⟨7 - i, by omega, ?_⟩
  rwa [spriteBit, Nat.sub_sub_self (Nat.le_of_lt_succ hi8)]

theorem exists_cover_pos_iff : (∃ p, 1 ≤ cover x y sprite p) ↔ ∃ byte ∈ sprite, byte ≠ 0 := by
  constructor
  · rintro ⟨p, hp⟩
    obtain ⟨r, k, hb, -⟩ := one_le_cover_iff.mp hp
    obtain ⟨⟨hr, -⟩, hk⟩ := mem_setBits.mp hb
    rw [List.getD_eq_getElem _ _ hr] at hk
    refine ⟨sprite[r], List.getElem_mem hr, ?_⟩
    intro h0
    rw [h0, spriteBit] at hk
    simp at hk
  · rintro ⟨byte, hm, h0⟩
    obtain ⟨r, hr, rfl⟩ := List.getElem_of_mem hm
    obtain ⟨k, hk8, hk⟩ := exists_spriteBit h0
    rw [← List.getD_eq_getElem _ 0 hr] at hk
    exact ⟨_, one_le_cover_iff.mpr ⟨r, k, mem_setBits.mpr ⟨⟨hr, hk8⟩, hk⟩, rfl⟩⟩

/-- Drawn once more, the sprite hits if it covered a dark pixel before. -/
theorem Binary.hit_drawSprite_twice_iff (h : s.Binary) (hl : sprite.length ≤ 32) :
    ((s.drawSprite x y sprite).2.drawSprite x y sprite).1 = true ↔
      ∃ p : Pixel, 1 ≤ cover x y sprite p ∧ s.get p.1 p.2 = false := by
  rw [(h.drawSprite x y sprite).hit_drawSprite_iff_covers hl]
  apply exists_congr
  intro p
  apply and_congr_right
  intro hp
  rw [h.get_drawSprite_of_cover_eq_one (Nat.le_antisymm (cover_le_one hl) hp),
    Bool.not_eq_true']

/-- One of two equal drawings hits unless the sprite is blank. -/
theorem Binary.hit_or_hit_iff (h : s.Binary) (hl : sprite.length ≤ 32) :
    ((s.drawSprite x y sprite).1 = true ∨
      ((s.drawSprite x y sprite).2.drawSprite x y sprite).1 = true) ↔
      ∃ byte ∈ sprite, byte ≠ 0 := by
  rw [h.hit_drawSprite_iff_covers hl, h.hit_drawSprite_twice_iff hl, ← exists_or,
    ← exists_cover_pos_iff (x := x) (y := y)]
  apply exists_congr
  intro p
  cases s.get p.1 p.2 <;> simp

end Screen

namespace State

variable {s : State} {x y : Register} {sprite : List UInt8}

/-- What a drawing leaves as it was; the flag is zero or one after it. -/
structure Drawn (s t : State) : Prop where
  memory : t.memory = s.memory
  index : t.index = s.index
  stack : t.stack = s.stack
  delay : t.delay = s.delay
  sound : t.sound = s.sound
  registers : ∀ r, r ≠ flagRegister → t.reg r = s.reg r
  flag : t.reg flagRegister = 0 ∨ t.reg flagRegister = 1

theorem flag_drawSprite (s : State) (x y : Register) (sprite : List UInt8) :
    (s.drawSprite x y sprite).reg flagRegister =
      if (s.screen.drawSprite (s.reg x).toNat (s.reg y).toNat sprite).1 then 1 else 0 :=
  reg_setReg_self _ _ _

theorem flag_drawSprite_iff :
    (s.drawSprite x y sprite).reg flagRegister = 1 ↔
      (s.screen.drawSprite (s.reg x).toNat (s.reg y).toNat sprite).1 = true := by
  rw [flag_drawSprite]
  cases (s.screen.drawSprite (s.reg x).toNat (s.reg y).toNat sprite).1 <;> decide

theorem drawn_drawSprite (s : State) (x y : Register) (sprite : List UInt8) :
    s.Drawn (s.drawSprite x y sprite) where
  memory := rfl
  index := rfl
  stack := rfl
  delay := rfl
  sound := rfl
  registers _ hr := reg_setReg_of_ne hr
  flag := by
    rw [flag_drawSprite]
    split
    · exact .inr rfl
    · exact .inl rfl

theorem Drawn.trans {t u : State} (h : s.Drawn t) (h' : t.Drawn u) : s.Drawn u where
  memory := h'.memory.trans h.memory
  index := h'.index.trans h.index
  stack := h'.stack.trans h.stack
  delay := h'.delay.trans h.delay
  sound := h'.sound.trans h.sound
  registers r hr := (h'.registers r hr).trans (h.registers r hr)
  flag := h'.flag

end State

namespace Instruction

open Screen

variable {s t : State} {x y : Register} {height : Fin 16} {key : Key} {byte : UInt8}
  {next : UInt16}

/-- A draw instruction that does not take its point from the flag register can be executed again
wherever the machine is by then. This restores the screen, whose cells are zero or one like those
of every machine that runs; the second flag says whether the sprite covered a dark pixel at first,
and one of the flags is set unless the sprite is blank. -/
theorem execute_draw_twice (hx : x ≠ flagRegister) (hy : y ≠ flagRegister)
    (hs : s.screen.Binary) (h : (draw x y height).execute key byte s = (.ok next, t))
    (pc : UInt16) (key' : Key) (byte' : UInt8) :
    let sprite := s.memory.slice s.index.toNat height
    let covered (p : Pixel) := 1 ≤ cover (s.reg x).toNat (s.reg y).toNat sprite p
    ∃ next' u, (draw x y height).execute key' byte' { t with pc } = (.ok next', u) ∧
      u.screen = s.screen ∧
      (u.reg flagRegister = 1 ↔ ∃ p : Pixel, covered p ∧ s.screen.get p.1 p.2 = false) ∧
      (t.reg flagRegister = 1 ∨ u.reg flagRegister = 1 ↔ ∃ row ∈ sprite, row ≠ 0) ∧
      s.Drawn t ∧ s.Drawn u := by
  intro sprite covered
  obtain ⟨hf, -, ht⟩ := execute_eq_ok_iff.mp h
  have ht : s.drawSprite x y sprite = t := ht
  subst ht
  -- Neither the range of the sprite nor its point has moved.
  let t' : State := { s.drawSprite x y sprite with pc }
  have hd : s.Drawn t' := { s.drawn_drawSprite x y sprite with }
  have hf' : (draw x y height).fault? t' = none :=
    State.rangeFault?_eq_none_iff.mpr (State.rangeFault?_eq_none_iff.mp hf)
  have hx' : t'.reg x = s.reg x := hd.registers x hx
  have hy' : t'.reg y = s.reg y := hd.registers y hy
  have hl : sprite.length ≤ 32 := by
    rw [Memory.length_slice]
    omega
  refine ⟨_, t'.drawSprite x y sprite, execute_of_none hf', ?_, ?_, ?_,
    s.drawn_drawSprite x y sprite, hd.trans (t'.drawn_drawSprite x y sprite)⟩
  · calc (t'.drawSprite x y sprite).screen
        = (t'.screen.drawSprite (t'.reg x).toNat (t'.reg y).toNat sprite).2 := rfl
      _ = s.screen := by rw [hx', hy']; exact drawSprite_twice s.screen _ _ sprite
  · rw [State.flag_drawSprite_iff, hx', hy']
    exact hs.hit_drawSprite_twice_iff hl
  · rw [State.flag_drawSprite_iff, State.flag_drawSprite_iff, hx', hy']
    exact hs.hit_or_hit_iff hl

/-- A glyph across the corner of the screen hits the one pixel that is lit, and then the others. -/
theorem execute_draw_twice_corner :
    let s : State :=
      { State.initial.setRegs [63, 31] with screen := (Screen.dark.toggle 63 31).2 }
    let t := ((draw 0 1 5).execute .released 0 s).2
    (0 : Register) ≠ flagRegister ∧ (1 : Register) ≠ flagRegister ∧ s.screen.Binary ∧
      (draw 0 1 5).execute .released 0 s = (.ok 0x202, t) ∧ t.screen ≠ s.screen ∧
      ∃ next u, (draw 0 1 5).execute .released 0 { t with pc := 0x202 } = (.ok next, u) ∧
        u.screen = s.screen ∧ u.reg flagRegister = 1 ∧ s.Drawn u := by
  intro s t
  have hs : s.screen.Binary := binary_dark.toggle 63 31
  have hn : (draw 0 1 5).fault? s = none := by decide +kernel
  have hp : UInt16.ofNat ((draw 0 1 5).destination .released s) = 0x202 := by decide +kernel
  have ht : (draw 0 1 5).execute .released 0 s = (.ok 0x202, t) :=
    execute_eq_ok_iff.mpr ⟨hn, hp, (congrArg Prod.snd (execute_of_none hn)).symm⟩
  obtain ⟨next, u, hu, hscreen, hflag, -, -, hd⟩ :=
    execute_draw_twice (by decide) (by decide) hs ht 0x202 .released 0
  refine ⟨by decide, by decide, hs, ht, ?_, next, u, hu, hscreen, hflag.mpr ⟨(0, 31), ?_, ?_⟩, hd⟩
  · intro he
    have hc := congrArg (fun screen : Screen => screen.cell 63 31) he
    revert hc
    decide +kernel
  · decide +kernel
  · decide +kernel

end Instruction

end HexConsole
