import HexConsole.Proofs.Loading
import HexConsole.Proofs.Redrawing
import HexConsole.Proofs.Transfers

/-! # Glyphs

Loading a program puts the font at the start of memory, and only the instructions that store can
change it. As long as they store behind it, the glyph of a digit is where the index register is set
for that digit, and the sprite that is drawn there is the glyph.
-/

namespace HexConsole

open Opcode

namespace Memory

/-- The font is where a program finds it. -/
def HoldsFont (m : Memory) : Prop := ∀ a < 80, m.get a = font.getD a 0

theorem HoldsFont.slice_eq {m : Memory} (h : m.HoldsFont) {a len : Nat} (hl : a + len ≤ 80) :
    m.slice a len = (font.drop a).take len := by
  have hf : font.length = 80 := rfl
  refine List.ext_getElem ?_ fun k hk hk' => ?_
  · rw [length_slice, List.length_take, List.length_drop]
    omega
  · rw [length_slice] at hk
    simp [slice, h (a + k) (by omega), hf, show a + k < 80 by omega]

end Memory

namespace State

variable {s t : State} {x a b : Register}

/-- A sprite is drawn at the point that two registers name: the screen and the flag are those of the
drawing, and nothing else has changed. -/
structure DrawsSprite (s : State) (a b : Register) (sprite : List UInt8) (t : State) : Prop where
  screen : t.screen = (s.screen.drawSprite (s.reg a).toNat (s.reg b).toNat sprite).2
  flag : t.reg flagRegister =
    if (s.screen.drawSprite (s.reg a).toNat (s.reg b).toNat sprite).1 then 1 else 0
  others : s.Drawn t

theorem drawsSprite_drawSprite (s : State) (a b : Register) (sprite : List UInt8) :
    s.DrawsSprite a b sprite (s.drawSprite a b sprite) where
  screen := rfl
  flag := flag_drawSprite s a b sprite
  others := drawn_drawSprite s a b sprite

theorem executes_pointGlyph (s : State) (x : Register) :
    s.Executes (ofByte 0xF x 0x29)
      { s with index := UInt16.ofNat (fontStart + (s.reg x).toNat * glyphSize) } :=
  executes_of_decode (Instruction.decode_encode (.pointGlyph x) trivial) rfl (fun _ => rfl)
    (fun _ _ => rfl)

theorem toNat_glyphIndex (value : UInt8) :
    (UInt16.ofNat (fontStart + value.toNat * glyphSize)).toNat = 5 * value.toNat := by
  have := value.toNat_lt
  rw [UInt16.toNat_ofNat']
  change (0 + value.toNat * 5) % 65536 = 5 * value.toNat
  omega

theorem executes_draw (a b : Register) (height : Fin 16) (h : s.index.toNat + height.val ≤ 4096) :
    s.Executes (ofDigits 0xD a b height.val)
      (s.drawSprite a b (s.memory.slice s.index.toNat height.val)) :=
  executes_of_decode (Instruction.decode_encode (.draw a b height) trivial)
    (rangeFault?_eq_none_iff.mpr h) (fun _ => rfl) (fun _ _ => rfl)

end State

namespace Machine

variable {m : Machine} {event : Event} {events : List Event} {program : List UInt8}

/-- If the event is a step that stores something, this is stored behind the font. -/
def SparesFont (m : Machine) : Event → Prop
  | .step _ => ∀ w, m.state.fetch = .ok w → family w = 0xF → kk w = 0x33 ∨ kk w = 0x55 →
    80 ≤ m.state.index.toNat
  | .tick | .key _ => True

theorem holdsFont_react (hm : m.state.memory.HoldsFont) (h : m.SparesFont event) :
    (m.react event).2.state.memory.HoldsFont := by
  cases event with
  | tick => exact hm
  | key key => exact hm
  | step byte =>
    cases hf : m.state.fault? with
    | some fault =>
      simp only [react, step_of_fault hf]
      exact hm
    | none =>
      simp only [react, step_of_none hf]
      intro a ha
      refine Eq.trans ?_ (hm a ha)
      by_contra hn
      -- a byte that changed was stored, and not before the index register
      obtain ⟨hw, hi, hk⟩ := (State.framed_next hf).bytes a hn
      have hw' := State.fetch_eq_ok_iff.mpr ⟨(State.fault?_eq_none_iff.mp hf).1, rfl⟩
      have := h m.state.word hw' hw (hk.imp And.left And.left)
      omega

theorem holdsFont_after (hm : m.state.memory.HoldsFont) (h : m.Throughout SparesFont events) :
    (m.after events).state.memory.HoldsFont := by
  induction events generalizing m with
  | nil => exact hm
  | cons event events ih => exact ih (holdsFont_react hm h.1) h.2

/-- As long as nothing is stored below the end of the font, the font stays as it was loaded. The
index register is then set to the glyph of a digit, and what is drawn there is the glyph. For
a value that is no digit it is set further behind, but never so far that a sprite would not fit. -/
theorem draws_glyph (h : (m.load (.whole program)).2.Throughout SparesFont events) :
    let s := ((m.load (.whole program)).2.after events).state
    s.memory.slice 0 80 = font ∧
    ∀ x, ∃ t, s.Executes (ofByte 0xF x 0x29) t ∧ t = { s with index := t.index } ∧
      t.index.toNat = 5 * (s.reg x).toNat ∧
      ∀ t' : State, t'.memory = t.memory → t'.index = t.index → ∀ a b,
        (∀ digit : Fin 16, (s.reg x).toNat = digit.val →
          ∃ u, t'.Executes (ofDigits 0xD a b 5) u ∧ t'.DrawsSprite a b (glyph digit) u) ∧
        ∀ height : Fin 16, ∃ u, t'.Executes (ofDigits 0xD a b height.val) u := by
  intro s
  have hfont : s.memory.HoldsFont := holdsFont_after (loaded_ofProgram program).font h
  refine ⟨hfont.slice_eq (Nat.le_refl 80), fun x => ?_⟩
  have hx := (s.reg x).toNat_lt
  have hi := State.toNat_glyphIndex (s.reg x)
  refine ⟨_, s.executes_pointGlyph x, rfl, hi, ?_⟩
  intro t' hm' hi' a b
  have hi' : t'.index.toNat = 5 * (s.reg x).toNat := hi' ▸ hi
  constructor
  · intro digit hd
    -- the last glyph ends where the font ends
    have hd' := digit.isLt
    have hs : t'.memory.slice t'.index.toNat 5 = glyph digit := by
      rw [hm', hi', hd]
      exact hfont.slice_eq (by omega)
    have he : t'.Executes (ofDigits 0xD a b 5)
        (t'.drawSprite a b (t'.memory.slice t'.index.toNat 5)) :=
      State.executes_draw a b 5 (by omega)
    rw [hs] at he
    exact ⟨_, he, t'.drawsSprite_drawSprite a b (glyph digit)⟩
  · intro height
    exact ⟨_, State.executes_draw a b height (by omega)⟩

/-- Two registers are stored directly behind the font, and the digit in one of them is drawn. -/
theorem draws_glyph_behind_font :
    let program : List UInt8 := [0x61, 0x0A, 0xA0, 0x50, 0xF1, 0x55]
    let loaded := (initial.load (.whole program)).2
    let events : List Event := [.step 0, .tick, .step 0, .key (.press 1), .step 0]
    let s := (loaded.after events).state
    loaded.Throughout SparesFont events ∧ s.memory.get 81 = 0x0A ∧ s.memory.slice 0 80 = font ∧
      ∃ t, s.Executes 0xF129 t ∧ t.index = 50 ∧
        ∃ u, t.Executes 0xD005 u ∧ t.DrawsSprite 0 0 [0xF0, 0x90, 0xF0, 0x90, 0x90] u := by
  intro program loaded events s
  have h : loaded.Throughout SparesFont events := by
    refine ⟨?_, trivial, ?_, trivial, ?_, trivial⟩
    all_goals
      intro w hw
      obtain ⟨-, rfl⟩ := State.fetch_eq_ok_iff.mp hw
      decide +kernel
  have hs : ((initial.load (.whole program)).2.after events).state = s := rfl
  have hg := draws_glyph h
  rw [hs] at hg
  obtain ⟨hfont, hglyph⟩ := hg
  have hx : (s.reg 1).toNat = (0xA : Fin 16).val := by decide +kernel
  obtain ⟨t, ht, -, hi, hdraw⟩ := hglyph 1
  rw [hx] at hi
  obtain ⟨u, hu, hd⟩ := (hdraw t rfl rfl 0 0).1 0xA hx
  exact ⟨h, by decide +kernel, hfont, t, ht, UInt16.toNat.inj hi, u, hu, hd⟩

end Machine

end HexConsole
