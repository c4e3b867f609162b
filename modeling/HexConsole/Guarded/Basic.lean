import HexConsole.Layout

/-! # Guarded computations

A computation with words and arrays goes wrong where an index or a range leaves its array, where
ranges of different lengths are copied, and where a number does not fit into its word. A guarded
computation looks before each of these and breaks off.
-/

namespace HexConsole

/-- Why a computation is broken off. -/
inductive Breach where
  /-- An index that its array does not have. -/
  | index
  /-- A range that is not within its array. -/
  | range
  /-- A copy between ranges of different lengths. -/
  | lengths
  /-- A number that its word cannot hold. -/
  | overflow
  deriving DecidableEq, Repr

/-- A value, unless the computation is broken off. -/
abbrev Guarded (α : Type) := Except Breach α

namespace Guarded

variable {α β σ : Type} {n : Nat}

/-- An index of an array with `n` elements. -/
def index (n i : Nat) : Guarded (Fin n) := if h : i < n then .ok ⟨i, h⟩ else .error .index

def element (xs : List α) (i : Nat) : Guarded α :=
  match xs[i]? with
  | some x => .ok x
  | none => .error .index

/-- A range is within an array with `n` elements. -/
def within (n start stop : Nat) : Guarded Unit :=
  if start ≤ stop ∧ stop ≤ n then .ok () else .error .range

def slice (xs : Vector α n) (start stop : Nat) : Guarded (List α) := do
  within n start stop
  return (xs.toList.take stop).drop start

/-- The elements from an index on are replaced by others, as far as both go. -/
def overwrite (xs : Vector α n) (start : Nat) (ys : List α) : Vector α n :=
  .ofFn fun i => if start ≤ i then ys.getD (i - start) xs[i] else xs[i]

/-- The elements of a range are replaced by as many others. -/
def replace (xs : Vector α n) (start stop : Nat) (ys : List α) : Guarded (Vector α n) := do
  within n start stop
  if ys.length = stop - start then return overwrite xs start ys else .error .lengths

/-- A sum in words that hold the numbers below a size. -/
def sum (size a b : Nat) : Guarded Nat := if a + b < size then .ok (a + b) else .error .overflow

/-- A product in words that hold the numbers below a size. -/
def product (size a b : Nat) : Guarded Nat :=
  if a * b < size then .ok (a * b) else .error .overflow

def difference (a b : Nat) : Guarded Nat := if b ≤ a then .ok (a - b) else .error .overflow

/-- A byte shifted to the right by less than its width. -/
def shiftedRight (byte : UInt8) (places : Nat) : Guarded UInt8 :=
  if places < 8 then .ok (byte >>> UInt8.ofNat places) else .error .overflow

@[simp]
theorem ok_bind (a : α) (f : α → Guarded β) : ((.ok a : Guarded α) >>= f) = f a := rfl

@[simp]
theorem pure_eq_ok (a : α) : (pure a : Guarded α) = .ok a := rfl

@[simp]
theorem index_val (i : Fin n) : index n i.val = .ok i := dif_pos i.isLt

theorem within_ok {start stop : Nat} (h : start ≤ stop) (h' : stop ≤ n) :
    within n start stop = .ok () :=
  if_pos ⟨h, h'⟩

theorem slice_ok {xs : Vector α n} {start stop : Nat} (h : start ≤ stop) (h' : stop ≤ n) :
    slice xs start stop = .ok ((xs.toList.take stop).drop start) := by
  rw [slice, within_ok h h']
  rfl

theorem replace_ok {xs : Vector α n} {start stop : Nat} {ys : List α} (h : start ≤ stop)
    (h' : stop ≤ n) (hl : ys.length = stop - start) :
    replace xs start stop ys = .ok (overwrite xs start ys) := by
  rw [replace, within_ok h h', ok_bind, if_pos hl]
  rfl

/-- What was copied to a range is what is found there. -/
theorem slice_overwrite {xs : Vector α n} {start stop : Nat} {ys : List α} (h : start ≤ stop)
    (h' : stop ≤ n) (hl : ys.length = stop - start) :
    slice (overwrite xs start ys) start stop = .ok ys := by
  rw [slice_ok h h']
  refine congrArg _ (List.ext_getElem ?_ fun k hk hk' => ?_)
  · rw [List.length_drop, List.length_take, Vector.length_toList, Nat.min_eq_left h', hl]
  · simp [overwrite, hk']

theorem sum_ok {size a b : Nat} (h : a + b < size) : sum size a b = .ok (a + b) := if_pos h

theorem product_ok {size a b : Nat} (h : a * b < size) : product size a b = .ok (a * b) :=
  if_pos h

theorem difference_ok {a b : Nat} (h : b ≤ a) : difference a b = .ok (a - b) := if_pos h

theorem shiftedRight_ok {byte : UInt8} {places : Nat} (h : places < 8) :
    shiftedRight byte places = .ok (byte >>> UInt8.ofNat places) :=
  if_pos h

/-- A loop of which no turn breaks off. -/
theorem foldlM_ok {f : σ → α → Guarded σ} {g : σ → α → σ} {xs : List α}
    (h : ∀ x ∈ xs, ∀ s, f s x = .ok (g s x)) (s : σ) : xs.foldlM f s = .ok (xs.foldl g s) := by
  induction xs generalizing s with
  | nil => rfl
  | cons x xs ih =>
    rw [List.foldlM_cons, h x List.mem_cons_self, ok_bind, List.foldl_cons]
    exact ih (fun x hx => h x (List.mem_cons_of_mem _ hx)) _

theorem mapM_ok {f : α → Guarded β} {g : α → β} {xs : List α} (h : ∀ x ∈ xs, f x = .ok (g x)) :
    xs.mapM f = .ok (xs.map g) := by
  induction xs with
  | nil => rfl
  | cons x xs ih =>
    rw [List.mapM_cons, h x List.mem_cons_self, ok_bind,
      ih fun x hx => h x (List.mem_cons_of_mem _ hx)]
    rfl

end Guarded

end HexConsole
