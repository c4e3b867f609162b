/-! # Hexadecimal text

Numbers are written in upper-case hexadecimal, filled up with zeros to a least width and
longer where the number needs it. Reading the digits gives the number back, whatever the
width.
-/

namespace HexConsole.Text.Hex

/-- The upper-case character of a digit below 16. -/
def digit (d : Nat) : Char :=
  if d < 10 then Char.ofNat (48 + d) else Char.ofNat (55 + d)

/-- The value of a digit's character. -/
def digitValue (c : Char) : Nat :=
  if c.toNat < 58 then c.toNat - 48 else c.toNat - 55

/-- The digits of a number, the most significant first and without leading zeros. -/
def digits (n : Nat) : List Char :=
  if n < 16 then [digit n] else digits (n / 16) ++ [digit (n % 16)]

/-- The number that a row of digits writes. -/
def value (cs : List Char) : Nat :=
  cs.foldl (fun n c => 16 * n + digitValue c) 0

/-- Whether a character is one of the digits. -/
def isDigit (c : Char) : Bool := ('0' ≤ c && c ≤ '9') || ('A' ≤ c && c ≤ 'F')

/-- The number at the front of a text, and what follows its digits. -/
def scan (cs : List Char) : Nat × List Char :=
  (value (cs.takeWhile isDigit), cs.dropWhile isDigit)

/-- The digits of a number after as many zeros as bring them to the width. -/
def padded (width n : Nat) : List Char :=
  List.replicate (width - (digits n).length) '0' ++ digits n

/-- The text of a number in at least so many digits. -/
def text (width n : Nat) : String :=
  String.ofList (padded width n)

/-- The text of a number after the mark of hexadecimal. -/
def marked (width n : Nat) : String :=
  "0x" ++ text width n

theorem digitValue_digit {d : Nat} (h : d < 16) : digitValue (digit d) = d := by
  have all : ∀ d : Fin 16, digitValue (digit d) = d := by decide
  exact all ⟨d, h⟩

theorem value_append_singleton (cs : List Char) (c : Char) :
    value (cs ++ [c]) = 16 * value cs + digitValue c := by
  simp [value, List.foldl_append]

theorem value_digits (n : Nat) : value (digits n) = n := by
  fun_induction digits n with
  | case1 n h => simp [value, digitValue_digit h]
  | case2 n h ih =>
    rw [value_append_singleton, ih, digitValue_digit (Nat.mod_lt _ (by decide))]
    omega

theorem value_zeros_append (k : Nat) (cs : List Char) :
    value (List.replicate k '0' ++ cs) = value cs := by
  induction k with
  | zero => simp
  | succ k ih =>
    rw [List.replicate_succ, List.cons_append]
    exact ih

theorem value_padded (width n : Nat) : value (padded width n) = n := by
  rw [padded, value_zeros_append, value_digits]

theorem isDigit_digit {d : Nat} (h : d < 16) : isDigit (digit d) = true := by
  have all : ∀ d : Fin 16, isDigit (digit d) = true := by decide
  exact all ⟨d, h⟩

theorem isDigit_of_mem_digits {n : Nat} {c : Char} (h : c ∈ digits n) : isDigit c = true := by
  fun_induction digits n with
  | case1 n hn =>
    rw [List.mem_singleton.mp h]
    exact isDigit_digit hn
  | case2 n hn ih =>
    rcases List.mem_append.mp h with h | h
    · exact ih h
    · rw [List.mem_singleton.mp h]
      exact isDigit_digit (Nat.mod_lt _ (by decide))

theorem isDigit_of_mem_padded {width n : Nat} {c : Char} (h : c ∈ padded width n) :
    isDigit c = true := by
  rcases List.mem_append.mp h with h | h
  · rw [List.eq_of_mem_replicate h]
    rfl
  · exact isDigit_of_mem_digits h

/-- A number is read back if what follows it does not begin with a digit. -/
theorem scan_padded_append (width n : Nat) {cs : List Char}
    (h : ∀ c ∈ cs.head?, isDigit c = false) : scan (padded width n ++ cs) = (n, cs) := by
  have hd : ∀ c ∈ padded width n, isDigit c = true := fun _ => isDigit_of_mem_padded
  have hs : cs.takeWhile isDigit = [] ∧ cs.dropWhile isDigit = cs := by
    cases cs with
    | nil => exact ⟨rfl, rfl⟩
    | cons c cs => simp [h c rfl]
  rw [scan, List.takeWhile_append_of_pos hd, List.dropWhile_append_of_pos hd, hs.1, hs.2,
    List.append_nil, value_padded]

end HexConsole.Text.Hex
