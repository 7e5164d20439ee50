import Mathlib.Data.List.Basic
import Mathlib.Tactic.Use
import MongoQuery.Json.Reader
import MongoQuery.Json.Writer

/-!
# Printed values

The form of a value over several lines is its form on one line with white space between the
tokens.  `squeeze` takes the white space outside of string literals away; it reads a text from
left to right and remembers whether it is in a literal and whether a backslash was just read
there.  Every token is printed without control characters, whatever strings a value has.

Main statements: squeezing the form over several lines gives the form on one line, and on that
line there is no control character.
-/

namespace MongoQuery.Json

/-! ### White space outside of string literals -/

/-- Where a reader stands in the text of a value. -/
inductive Spot where
  | outside
  /-- In a string literal. -/
  | inside
  /-- In a string literal, behind the backslash of an escape. -/
  | escaping

/-- The text without the white space outside of string literals. -/
def squeeze : Spot → List Char → List Char
  | _, [] => []
  | .outside, c :: rest =>
    if isSpace c then squeeze .outside rest
    else c :: squeeze (if c = '"' then .inside else .outside) rest
  | .inside, c :: rest =>
    c :: squeeze (if c = '"' then .outside else if c = '\\' then .escaping else .inside) rest
  | .escaping, c :: rest => c :: squeeze .inside rest

/-- White space goes. -/
theorem squeeze_append_of_space {cs : List Char} (h : ∀ c ∈ cs, isSpace c) (rest : List Char) :
  squeeze .outside (cs ++ rest) = squeeze .outside rest
  := by
  induction cs with
  | nil => rfl
  | cons c cs ih =>
      obtain ⟨hc, hcs⟩ := List.forall_mem_cons.mp h
      rw [List.cons_append, squeeze, if_pos hc, ih hcs]

theorem squeeze_space (rest : List Char) :
  squeeze .outside (' ' :: rest) = squeeze .outside rest
  := by
  rfl

/-- A character of a token that is not a string literal. -/
def IsBare (c : Char) : Prop :=
  isSpace c = false ∧ c ≠ '"' ∧ 32 ≤ c.toNat

instance (c : Char) : Decidable (IsBare c) :=
  inferInstanceAs (Decidable (_ ∧ _))

theorem squeeze_cons_of_isBare {c : Char} (h : IsBare c) (rest : List Char) :
  squeeze .outside (c :: rest) = c :: squeeze .outside rest
  := by
  obtain ⟨hspace, hquote, -⟩ := h
  simp [squeeze, hspace, hquote]

/-- Tokens that are not string literals stay. -/
theorem squeeze_append_of_isBare {cs : List Char} (h : ∀ c ∈ cs, IsBare c) (rest : List Char) :
  squeeze .outside (cs ++ rest) = cs ++ squeeze .outside rest
  := by
  induction cs with
  | nil => rfl
  | cons c cs ih =>
      obtain ⟨hc, hcs⟩ := List.forall_mem_cons.mp h
      rw [List.cons_append, squeeze_cons_of_isBare hc, ih hcs, List.cons_append]

theorem isSpace_newline (level : Nat) :
  ∀ c ∈ newline level, isSpace c
  := by
  intro c hc
  rcases List.mem_cons.mp hc with rfl | hc
  · decide
  · rw [List.eq_of_mem_replicate hc]
    decide

/-! ### Tokens -/

theorem isBare_toChar (d : Digit) :
  IsBare d.toChar
  := by
  revert d
  decide

theorem isBare_of_mem_numeral {n : Numeral} {c : Char} (h : c ∈ n.text) :
  IsBare c
  := by
  rcases Numeral.mem_text h with hc | ⟨d, rfl⟩
  · simp only [List.mem_cons, List.not_mem_nil, or_false] at hc
    rcases hc with rfl | rfl | rfl | rfl <;> decide
  · apply isBare_toChar

/-- A character that stands for itself in a string literal. -/
def IsInert (c : Char) : Prop :=
  c ≠ '"' ∧ c ≠ '\\' ∧ 32 ≤ c.toNat

instance (c : Char) : Decidable (IsInert c) :=
  inferInstanceAs (Decidable (_ ∧ _))

theorem squeeze_append_of_isInert {cs : List Char} (h : ∀ c ∈ cs, IsInert c) (rest : List Char) :
  squeeze .inside (cs ++ rest) = cs ++ squeeze .inside rest
  := by
  induction cs with
  | nil => rfl
  | cons c cs ih =>
      obtain ⟨⟨hquote, hbackslash, -⟩, hcs⟩ := List.forall_mem_cons.mp h
      rw [List.cons_append, squeeze, if_neg hquote, if_neg hbackslash, ih hcs, List.cons_append]

theorem isInert_of_mem_padded {width n : Nat} {c : Char} (h : c ∈ Hex.padded width n) :
  IsInert c
  := by
  have hdigit : ∀ k : Fin 16, IsInert (Hex.digit k) := by decide
  induction width generalizing n with
  | zero => cases h
  | succ width ih =>
      rw [Hex.padded, List.mem_append, List.mem_singleton] at h
      rcases h with h | rfl
      · apply ih h
      · apply hdigit ⟨n % 16, Nat.mod_lt n (by decide)⟩

/-- A character of a string is written as itself or as an escape: a backslash, a character and
maybe digits. -/
theorem escape_cases (c : Char) :
  IsInert c ∧ escape c = [c]
    ∨ ∃ d digits, 32 ≤ d.toNat ∧ (∀ e ∈ digits, IsInert e) ∧ escape c = '\\' :: d :: digits
  := by
  unfold escape
  split
  · exact .inr ⟨'"', [], by decide, nofun, rfl⟩
  split
  · exact .inr ⟨'\\', [], by decide, nofun, rfl⟩
  split
  · exact .inr ⟨'b', [], by decide, nofun, rfl⟩
  split
  · exact .inr ⟨'f', [], by decide, nofun, rfl⟩
  split
  · exact .inr ⟨'n', [], by decide, nofun, rfl⟩
  split
  · exact .inr ⟨'r', [], by decide, nofun, rfl⟩
  split
  · exact .inr ⟨'t', [], by decide, nofun, rfl⟩
  split
  · exact .inr ⟨'u', Hex.padded 4 c.toNat, by decide, fun _ => isInert_of_mem_padded, rfl⟩
  · next hquote hbackslash _ _ _ _ _ hprinted =>
      exact .inl ⟨⟨hquote, hbackslash, by omega⟩, rfl⟩

/-- In a string literal every written character stays. -/
theorem squeeze_escape_append (c : Char) (rest : List Char) :
  squeeze .inside (escape c ++ rest) = escape c ++ squeeze .inside rest
  := by
  rcases escape_cases c with ⟨hc, heq⟩ | ⟨d, digits, -, hdigits, heq⟩
  · rw [heq]
    apply squeeze_append_of_isInert (List.forall_mem_singleton.mpr hc)
  · rw [heq, List.cons_append, List.cons_append, squeeze, if_neg (by decide), if_pos rfl, squeeze,
      squeeze_append_of_isInert hdigits, List.cons_append, List.cons_append]

theorem squeeze_flatMap_escape (cs rest : List Char) :
  squeeze .inside (cs.flatMap escape ++ rest) = cs.flatMap escape ++ squeeze .inside rest
  := by
  induction cs with
  | nil => rfl
  | cons c cs ih =>
      rw [List.flatMap_cons, List.append_assoc, squeeze_escape_append, ih, List.append_assoc]

/-- String literals stay. -/
theorem squeeze_stringToken_append (s : String) (rest : List Char) :
  squeeze .outside (stringToken s ++ rest) = stringToken s ++ squeeze .outside rest
  := by
  have htoken : ∀ tail : List Char,
      stringToken s ++ tail = '"' :: (s.toList.flatMap escape ++ '"' :: tail) := by
    intro tail
    rw [stringToken, List.cons_append, List.cons_append, List.append_assoc]
    rfl
  rw [htoken, htoken, squeeze, if_neg (by decide), if_pos rfl, squeeze_flatMap_escape, squeeze,
    if_pos rfl]

/-! ### Values -/

mutual

/-- A value over several lines is squeezed to the value on one line. -/
theorem squeeze_prettyChars_append (level : Nat) :
    ∀ (j : Json) (rest : List Char),
      squeeze .outside (prettyChars level j ++ rest) = compactChars j ++ squeeze .outside rest
  | .null, rest => by
    rfl
  | .bool b, rest => by
    cases b <;> rfl
  | .number n, rest => by
    rw [prettyChars, compactChars]
    apply squeeze_append_of_isBare fun c => isBare_of_mem_numeral
  | .string s, rest => by
    rw [prettyChars, compactChars]
    apply squeeze_stringToken_append
  | .array [], rest => by
    rfl
  | .array (item :: items), rest => by
    rw [prettyChars, compactChars]
    simp only [List.cons_append, List.append_assoc, List.nil_append]
    rw [squeeze_cons_of_isBare (by decide), squeeze_prettyItems_append,
      squeeze_append_of_space (isSpace_newline level), squeeze_cons_of_isBare (by decide)]
  | .object [], rest => by
    rfl
  | .object (member :: members), rest => by
    rw [prettyChars, compactChars]
    simp only [List.cons_append, List.append_assoc, List.nil_append]
    rw [squeeze_cons_of_isBare (by decide), squeeze_prettyMembers_append,
      squeeze_append_of_space (isSpace_newline level), squeeze_cons_of_isBare (by decide)]

theorem squeeze_prettyItems_append (level : Nat) :
    ∀ (items : List Json) (rest : List Char),
      squeeze .outside (prettyItems level items ++ rest)
        = compactItems items ++ squeeze .outside rest
  | [], rest => by
    rfl
  | [item], rest => by
    rw [prettyItems, compactItems, List.append_assoc,
      squeeze_append_of_space (isSpace_newline level), squeeze_prettyChars_append level item]
  | item :: next :: items, rest => by
    rw [prettyItems, compactItems]
    simp only [List.cons_append, List.append_assoc]
    rw [squeeze_append_of_space (isSpace_newline level), squeeze_prettyChars_append level item,
      squeeze_cons_of_isBare (by decide), squeeze_prettyItems_append level (next :: items)]
    · nofun
    · nofun

theorem squeeze_prettyMembers_append (level : Nat) :
    ∀ (members : List (String × Json)) (rest : List Char),
      squeeze .outside (prettyMembers level members ++ rest)
        = compactMembers members ++ squeeze .outside rest
  | [], rest => by
    rfl
  | [(name, value)], rest => by
    rw [prettyMembers, compactMembers]
    simp only [List.cons_append, List.append_assoc]
    rw [squeeze_append_of_space (isSpace_newline level), squeeze_stringToken_append,
      squeeze_cons_of_isBare (by decide), squeeze_space, squeeze_prettyChars_append level value]
  | (name, value) :: next :: members, rest => by
    rw [prettyMembers, compactMembers]
    simp only [List.cons_append, List.append_assoc]
    rw [squeeze_append_of_space (isSpace_newline level), squeeze_stringToken_append,
      squeeze_cons_of_isBare (by decide), squeeze_space, squeeze_prettyChars_append level value,
      squeeze_cons_of_isBare (by decide), squeeze_prettyMembers_append level (next :: members)]
    · nofun
    · nofun

end

/-- Squeezing the form of a value over several lines gives its form on one line. -/
theorem squeeze_toList_pretty (j : Json) :
  squeeze .outside j.pretty.toList = j.compact.toList
  := by
  have happend := squeeze_prettyChars_append 0 j []
  rw [List.append_nil, squeeze, List.append_nil] at happend
  rw [pretty, compact, String.toList_ofList, String.toList_ofList, happend]

/-! ### Control characters -/

/-- A character that is no control character of ASCII below the space. -/
def isPrinted (c : Char) : Bool :=
  32 ≤ c.toNat

theorem all_isPrinted_of_isInert {cs : List Char} (h : ∀ c ∈ cs, IsInert c) :
  cs.all isPrinted
  := by
  rw [List.all_eq_true]
  intro c hc
  apply decide_eq_true (h c hc).2.2

theorem all_isPrinted_escape (c : Char) :
  (escape c).all isPrinted
  := by
  rcases escape_cases c with ⟨hc, heq⟩ | ⟨d, digits, hd, hdigits, heq⟩
  · rw [heq]
    apply all_isPrinted_of_isInert (List.forall_mem_singleton.mpr hc)
  · rw [heq, List.all_cons, List.all_cons, all_isPrinted_of_isInert hdigits, Bool.and_true,
      Bool.and_eq_true]
    use by decide
    apply decide_eq_true hd

theorem all_isPrinted_stringToken (s : String) :
  (stringToken s).all isPrinted
  := by
  rw [stringToken, List.all_append, List.all_cons, List.all_flatMap]
  have hescape : s.toList.all (fun c => (escape c).all isPrinted) := by
    rw [List.all_eq_true]
    intro c _
    apply all_isPrinted_escape
  rw [hescape]
  rfl

mutual

/-- On one line a value has no control characters. -/
theorem all_isPrinted_compactChars :
    ∀ j : Json, (compactChars j).all isPrinted
  | .null => by
    rfl
  | .bool b => by
    cases b <;> rfl
  | .number n => by
    rw [compactChars, List.all_eq_true]
    intro c hc
    apply decide_eq_true (isBare_of_mem_numeral hc).2.2
  | .string s => by
    rw [compactChars]
    apply all_isPrinted_stringToken
  | .array items => by
    rw [compactChars, List.all_append, List.all_cons, all_isPrinted_compactItems items]
    rfl
  | .object members => by
    rw [compactChars, List.all_append, List.all_cons, all_isPrinted_compactMembers members]
    rfl

theorem all_isPrinted_compactItems :
    ∀ items : List Json, (compactItems items).all isPrinted
  | [] => by
    rfl
  | [item] => by
    rw [compactItems]
    apply all_isPrinted_compactChars item
  | item :: next :: items => by
    rw [compactItems, List.all_append, List.all_cons, all_isPrinted_compactChars item,
      all_isPrinted_compactItems (next :: items)]
    · rfl
    · nofun

theorem all_isPrinted_compactMembers :
    ∀ members : List (String × Json), (compactMembers members).all isPrinted
  | [] => by
    rfl
  | [(name, value)] => by
    rw [compactMembers, List.all_append, List.all_cons, all_isPrinted_stringToken,
      all_isPrinted_compactChars value]
    rfl
  | (name, value) :: next :: members => by
    rw [compactMembers, List.all_append, List.all_append, List.all_cons, List.all_cons,
      all_isPrinted_stringToken, all_isPrinted_compactChars value,
      all_isPrinted_compactMembers (next :: members)]
    · rfl
    · nofun

end

/-- The form of a value on one line is one line. -/
theorem ne_of_mem_compact {j : Json} {c : Char} (h : c ∈ j.compact.toList) :
  c ≠ '\n' ∧ c ≠ '\r'
  := by
  rw [compact, String.toList_ofList] at h
  have hprinted := List.all_eq_true.mp (all_isPrinted_compactChars j) c h
  constructor
  · rintro rfl
    revert hprinted
    decide
  · rintro rfl
    revert hprinted
    decide

end MongoQuery.Json
