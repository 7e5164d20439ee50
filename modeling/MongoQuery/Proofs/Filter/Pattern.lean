import Mathlib.Data.List.Forall2
import Mathlib.Tactic.Use
import MongoQuery.Filter.Condition
import MongoQuery.Proofs.Fields

/-!
# Reading patterns

A pattern is read from left to right.  A backslash and the character after it are that
character, and of the other characters some are operators where they stand alone.  The pattern
of a beginning reads as the start anchor and then the characters of the beginning, whatever
they are, since every character that could be an operator has its backslash.

Main statement: the condition that a text begins with given characters is read in this way, is
met by the texts that begin with them up to case, and differs from that of other characters.
-/

namespace MongoQuery

namespace Pattern

/-! ### Tokens -/

/-- What is read in a pattern. -/
inductive Token where
  /-- A character that stands for itself. -/
  | literal (c : Char)
  /-- A character with a meaning of its own. -/
  | operator (c : Char)
deriving DecidableEq, Repr

/-- The characters that are operators where they stand alone. -/
def operators : List Char :=
  ['\\', '.', '+', '*', '?', '(', ')', '|', '[', ']', Char.ofNat 0x7b, Char.ofNat 0x7d, '^', '$']

/-- The token of a character that stands alone. -/
def Token.ofChar (c : Char) : Token :=
  if c ∈ operators then .operator c else .literal c

/-- The tokens of a pattern, where `escaped` tells whether a backslash stands before it.  One
that nothing follows stands alone. -/
def tokens : (escaped : Bool) → List Char → List Token
  | false, [] => []
  | true, [] => [.ofChar '\\']
  | true, c :: rest => .literal c :: tokens false rest
  | false, c :: rest => if c = '\\' then tokens true rest else .ofChar c :: tokens false rest

/-- The tokens of a pattern. -/
def read (pattern : String) : List Token :=
  tokens false pattern.toList

/-! ### Reading what is written -/

theorem mem_special_of_mem_operators {c : Char} (h : c ∈ operators) :
  c ∈ special
  := by
  have hsubset : operators ⊆ special := by decide
  apply hsubset h

/-- A written character is read as itself, and the reader goes on behind it with no backslash
left. -/
theorem tokens_escape_append (c : Char) (rest : List Char) :
  tokens false (escape c ++ rest) = .literal c :: tokens false rest
  := by
  rw [escape]
  split
  · rfl
  · next hc =>
      have hbackslash : c ≠ '\\' := by
        rintro rfl
        apply hc
        decide
      have hoperator : c ∉ operators := by
        intro hmem
        apply hc (mem_special_of_mem_operators hmem)
      rw [List.singleton_append, tokens, if_neg hbackslash, Token.ofChar, if_neg hoperator]

/-- Written characters are read as themselves, one by one. -/
theorem tokens_flatMap_escape (cs : List Char) :
  tokens false (cs.flatMap escape) = cs.map .literal
  := by
  induction cs with
  | nil => rfl
  | cons c rest ih => rw [List.flatMap_cons, tokens_escape_append, ih, List.map_cons]

/-- The pattern of a beginning is the start anchor and then the characters of the beginning. -/
theorem read_startingWith (text : String) :
  read (startingWith text) = .operator '^' :: text.toList.map .literal
  := by
  rw [read, startingWith, String.toList_ofList, ← tokens_flatMap_escape]
  rfl

theorem startingWith_injective :
  Function.Injective startingWith
  := by
  intro text other h
  have hread : read (startingWith text) = read (startingWith other) := by rw [h]
  rw [read_startingWith, read_startingWith, List.cons_inj_right] at hread
  have hliteral : Function.Injective Token.literal := by
    intro c d hcd
    apply Token.literal.inj hcd
  apply String.toList_inj.mp
  apply List.map_injective_iff.mpr hliteral hread

/-! ### Matching -/

section Matching

variable (same : Char → Char → Prop)

/-- Tokens match the characters from a position on, where `start` tells whether it is the
first one.  The start anchor takes no character; there is no rule for the other operators. -/
inductive MatchesFrom : (start : Bool) → List Token → List Char → Prop
  | done (start : Bool) (text : List Char) : MatchesFrom start [] text
  | anchor {rest : List Token} {text : List Char} :
      MatchesFrom true rest text → MatchesFrom true (.operator '^' :: rest) text
  | literal (start : Bool) {c d : Char} {rest : List Token} {text : List Char} :
      same c d → MatchesFrom false rest text → MatchesFrom start (.literal c :: rest) (d :: text)

/-- Tokens match a text at some position. -/
def Matches (pattern : List Token) (text : List Char) : Prop :=
  ∃ before after, text = before ++ after ∧ MatchesFrom same before.isEmpty pattern after

/-- Literals match where the text goes on with the same characters. -/
theorem matchesFrom_literals_iff (start : Bool) (cs text : List Char) :
  MatchesFrom same start (cs.map .literal) text
    ↔ ∃ beginning after, text = beginning ++ after ∧ List.Forall₂ same cs beginning
  := by
  induction cs generalizing start text with
  | nil =>
      constructor
      · intro _
        use [], text, rfl
        apply List.Forall₂.nil
      · intro _
        apply MatchesFrom.done
  | cons c rest ih =>
      constructor
      · intro h
        cases h with
        | @literal _ _ d _ _ hsame hrest =>
            obtain ⟨beginning, after, rfl, hall⟩ := (ih false _).mp hrest
            use d :: beginning, after, rfl
            apply List.Forall₂.cons hsame hall
      · rintro ⟨beginning, after, rfl, hall⟩
        cases hall with
        | @cons _ d _ others hsame hrest =>
            apply MatchesFrom.literal start hsame
            apply (ih false _).mpr
            use others, after, rfl

/-- Behind the start anchor nothing matches but at the first position. -/
theorem matches_anchor_iff (rest : List Token) (text : List Char) :
  Matches same (.operator '^' :: rest) text ↔ MatchesFrom same true rest text
  := by
  constructor
  · rintro ⟨before, after, rfl, hmatch⟩
    cases before with
    | nil =>
        cases hmatch with
        | anchor hrest => apply hrest
    | cons c more => cases hmatch
  · intro h
    use [], text, rfl
    apply MatchesFrom.anchor h

/-- The pattern of a beginning matches the texts that begin with the same characters. -/
theorem matches_startingWith_iff (beginning : String) (text : List Char) :
  Matches same (read (startingWith beginning)) text
    ↔ ∃ front after, text = front ++ after ∧ List.Forall₂ same beginning.toList front
  := by
  rw [read_startingWith, matches_anchor_iff, matchesFrom_literals_iff]

end Matching

end Pattern

/-- A text meets the document of a pattern: the pattern matches it, with characters compared up
to case when the options say so. -/
def Document.MatchesText (upToCase : Char → Char → Prop) (d : Document) (text : String) : Prop :=
  ∃ pattern options, d.get? "$regex" = some (.string pattern)
    ∧ d.get? "$options" = some (.string options)
    ∧ Pattern.Matches (if 'i' ∈ options.toList then upToCase else Eq) (Pattern.read pattern)
      text.toList

/-! ### The main statement -/

/-- The condition that a text begins with given characters has the document of a pattern that
reads as the start anchor and these characters and nothing else.  A text meets it when it
begins with the characters up to case, and the pattern of other characters is another one. -/
theorem Condition.startsWith_reads (now : Instant) (beginning : String) :
  ∃ (d : Document) (pattern : String),
    (Condition.startsWith beginning).fragment now = .direct (.document d)
    ∧ d.get? "$regex" = some (.string pattern)
    ∧ Pattern.read pattern = .operator '^' :: beginning.toList.map .literal
    ∧ (∀ (upToCase : Char → Char → Prop) (text : String), d.MatchesText upToCase text
      ↔ ∃ front after, text.toList = front ++ after
        ∧ List.Forall₂ upToCase beginning.toList front)
    ∧ ∀ (other : String) (e : Document), other ≠ beginning →
      (Condition.startsWith other).fragment now = .direct (.document e) →
        e.get? "$regex" ≠ some (.string pattern)
  := by
  use [("$regex", .string (Pattern.startingWith beginning)), ("$options", .string "i")],
    Pattern.startingWith beginning, rfl, rfl, Pattern.read_startingWith beginning
  constructor
  · intro upToCase text
    rw [← Pattern.matches_startingWith_iff]
    constructor
    · rintro ⟨pattern, options, hpattern, hoptions, hmatch⟩
      cases hpattern
      cases hoptions
      apply hmatch
    · intro hmatch
      use Pattern.startingWith beginning, "i", rfl, rfl
      apply hmatch
  · intro other e hother he hpattern
    cases he
    apply hother
    apply Pattern.startingWith_injective
    apply Value.string.inj (Option.some.inj hpattern)

/-- The pattern of a beginning with a backslash and a plus sign, which matches a text with
letters of the other case, and not that of the same characters the other way round. -/
theorem Condition.startsWith_reads_backslash :
  "+\\A" ≠ "a\\+" ∧ ∃ d e : Document,
    (Condition.startsWith "a\\+").fragment ⟨0⟩ = .direct (.document d)
    ∧ (Condition.startsWith "+\\A").fragment ⟨0⟩ = .direct (.document e)
    ∧ d.MatchesText (fun c d => c.toLower = d.toLower) "A\\+b"
    ∧ e.get? "$regex" ≠ d.get? "$regex"
  := by
  have hother : "+\\A" ≠ "a\\+" := by decide
  obtain ⟨d, pattern, hd, hpattern, -, hmatches, hothers⟩ := startsWith_reads ⟨0⟩ "a\\+"
  obtain ⟨e, -, he, -⟩ := startsWith_reads ⟨0⟩ "+\\A"
  use hother, d, e, hd, he
  constructor
  · apply (hmatches _ _).mpr
    use ['A', '\\', '+'], ['b'], rfl
    simp
  · rw [hpattern]
    apply hothers "+\\A" e hother he

end MongoQuery
