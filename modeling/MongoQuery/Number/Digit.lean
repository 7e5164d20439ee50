/-!
# Decimal digits

A digit is a number below ten.  `Digit.ofNat n` are the digits of `n`, most significant
first and without leading zeros, and `Digit.value` reads a run of digits as a number.
Reading and writing digits as characters knows the ten ASCII digits only.  Decimal numbers
are scaled by the powers of ten.
-/

namespace MongoQuery

/-- A power of ten. -/
def tenTo (n : Nat) : Nat := Nat.pow 10 n

/-- A decimal digit. -/
abbrev Digit := Fin 10

namespace Digit

/-- The character of a digit. -/
def toChar (d : Digit) : Char :=
  Char.ofNat (48 + d.val)

/-- The digit that a character writes. -/
def ofChar? (c : Char) : Option Digit :=
  if h : 48 ≤ c.toNat ∧ c.toNat < 58 then some ⟨c.toNat - 48, by omega⟩ else none

/-- The number that a run of digits writes. -/
def value (digits : List Digit) : Nat :=
  digits.foldl (fun n d => 10 * n + d.val) 0

private def append (n : Nat) (tail : List Digit) : List Digit :=
  let digits := ⟨n % 10, Nat.mod_lt n (by decide)⟩ :: tail
  if n / 10 = 0 then digits else append (n / 10) digits
termination_by n

/-- The digits of a number; those of zero are a single zero. -/
def ofNat (n : Nat) : List Digit :=
  append n []

private theorem value_append (n : Nat) (tail : List Digit) :
  value (append n tail) = tail.foldl (fun m d => 10 * m + d.val) n
  := by
  induction n using Nat.strongRecOn generalizing tail with
  | ind n ih =>
      rw [append]
      split
      · have hdigit : 10 * 0 + n % 10 = n := by omega
        rw [value, List.foldl_cons, hdigit]
      · have hdigit : 10 * (n / 10) + n % 10 = n := by omega
        rw [ih (n / 10) (by omega), List.foldl_cons, hdigit]

/-- The digits of a number write that number. -/
theorem value_ofNat (n : Nat) :
  value (ofNat n) = n
  := by
  rw [ofNat, value_append, List.foldl_nil]

private theorem append_eq (n : Nat) (tail : List Digit) :
  append n tail = append n [] ++ tail
  := by
  induction n using Nat.strongRecOn generalizing tail with
  | ind n ih =>
      rw [append, append.eq_def n []]
      by_cases hlast : n / 10 = 0
      · rw [if_pos hlast, if_pos hlast]
        rfl
      · rw [if_neg hlast, if_neg hlast, ih (n / 10) (by omega), ih (n / 10) (by omega) [_],
          List.append_assoc]
        rfl

/-- A number below ten is its own digit. -/
theorem ofNat_val (d : Digit) :
  ofNat d.val = [d]
  := by
  have hmod : d.val % 10 = d.val := Nat.mod_eq_of_lt d.isLt
  have hdiv : d.val / 10 = 0 := Nat.div_eq_of_lt d.isLt
  rw [ofNat, append, if_pos hdiv]
  simp only [hmod]

/-- A digit behind those of a positive number. -/
theorem ofNat_ten_mul_add {n : Nat} (h : 0 < n) (d : Digit) :
  ofNat (10 * n + d.val) = ofNat n ++ [d]
  := by
  have hmod : (10 * n + d.val) % 10 = d.val := by omega
  have hdiv : (10 * n + d.val) / 10 = n := by omega
  rw [ofNat, append]
  simp only [hmod, hdiv]
  rw [if_neg (by omega), append_eq, ofNat]

/-- The digits at the front of a text, and what follows them. -/
def scan : List Char → List Digit × List Char
  | [] => ([], [])
  | c :: rest =>
    match ofChar? c with
    | some d => let (digits, rest) := scan rest; (d :: digits, rest)
    | none => ([], c :: rest)

/-- The text of a run of digits. -/
def text (digits : List Digit) : List Char :=
  digits.map toChar

/-! ### Digits as characters -/

theorem toChar_eq_of_ofChar? {c : Char} {d : Digit} (h : ofChar? c = some d) :
  c = d.toChar
  := by
  rw [ofChar?] at h
  split at h
  · next hrange =>
      rw [← Option.some.inj h, toChar]
      have hcode : 48 + (c.toNat - 48) = c.toNat := by omega
      rw [hcode, Char.ofNat_toNat]
  · cases h

theorem ofChar?_toChar (d : Digit) :
  ofChar? d.toChar = some d
  := by
  revert d
  decide

/-- What is scanned and what follows is the text. -/
theorem text_append_of_scan {cs rest : List Char} {digits : List Digit}
    (h : scan cs = (digits, rest)) :
  cs = text digits ++ rest
  := by
  induction cs generalizing digits with
  | nil =>
      rw [scan] at h
      cases h
      rfl
  | cons c cs ih =>
      rw [scan] at h
      split at h
      · next d hd =>
          cases h
          rw [toChar_eq_of_ofChar? hd]
          simp only [text, List.map_cons, List.cons_append, List.cons.injEq, true_and]
          apply ih rfl
      · cases h
        rfl

/-- Of a run of digits everything is scanned. -/
theorem scan_text (digits : List Digit) :
  scan (text digits) = (digits, [])
  := by
  induction digits with
  | nil => rfl
  | cons d rest ih =>
      rw [text, List.map_cons, ← text, scan, ofChar?_toChar]
      simp only [ih]

/-- A run of digits begins with no other character. -/
theorem text_ne_cons {c : Char} (h : ofChar? c = none) (digits : List Digit) (rest : List Char) :
  text digits ≠ c :: rest
  := by
  intro htext
  cases digits with
  | nil => cases htext
  | cons d digits =>
      rw [← (List.cons.inj htext).1, ofChar?_toChar] at h
      cases h

/-- The decimal text of a natural number. -/
def ofNatText (n : Nat) : List Char :=
  text (ofNat n)

/-- The decimal text of a number, filled with zeros on the left up to a width. -/
def padded (width n : Nat) : List Char :=
  let digits := ofNatText n
  List.replicate (width - digits.length) '0' ++ digits

end Digit

end MongoQuery
