import Mathlib
import MongoQuery.Command.Settings
import MongoQuery.Proofs.Number.Decimal
import MongoQuery.Proofs.Text.Padding

/-!
# Options and the environment

A variable of the environment stands in for the option that is not given, and is looked at
only then.  Its value is cut back to what it pads: the variable of the instant has to spell a
word of 64 bits and the variable of the form has to be one of nine words, in letters of either
case.

Main statement: a variable with the text of an instant is as good as the option with that
instant and every other text is reported as it stands; environments that agree on the variables
of the options that are not given have the same result; of two variables at fault the one of the
instant is reported; and the variable of the form is read as on or off from exactly the nine
words.
-/

namespace MongoQuery.Command

/-! ### The variable of the instant -/

/-- A value writes an instant: the text of its milliseconds with white space around it. -/
def WritesInstant (t : Instant) (value : String) : Prop :=
  ∃ core, Integer.SpelledBy t.millis.toInt core ∧ Text.Pads core value

theorem not_isBlank_of_spelledBy {n : Int} {cs : List Char} (h : Integer.SpelledBy n cs) :
  ∀ c ∈ cs, ¬ Text.isBlank c
  := by
  have hdigit : ∀ d : Digit, ¬ Text.isBlank d.toChar := by decide
  obtain ⟨sign, zeros, hsign, rfl⟩ := h
  intro c hc
  rw [List.mem_append, List.mem_append] at hc
  rcases hc with hc | hc | hc
  · rcases hsign.mem c hc with rfl | rfl
    · decide
    · decide
  · rw [List.eq_of_mem_replicate hc]
    decide
  · obtain ⟨d, -, rfl⟩ := List.mem_map.mp hc
    apply hdigit

/-- Behind the white space the values that are read as an instant write it. -/
theorem int64OfText?_trim_eq_some_iff (value : String) (millis : Int64) :
  Integer.int64OfText? (Text.trim value) = some millis ↔ WritesInstant ⟨millis⟩ value
  := by
  rw [Integer.int64OfText?_eq_some_iff]
  constructor
  · intro h
    exact ⟨(Text.trim value).toList, h, Text.pads_trim value⟩
  · rintro ⟨core, hspelled, hpads⟩
    rw [Text.toList_trim_of_pads (not_isBlank_of_spelledBy hspelled) hpads]
    apply hspelled

theorem environmentNow_of_writesInstant {env : Environment} {value : String} {t : Instant}
    (henv : env nowVariable = some value) (h : WritesInstant t value) :
  environmentNow env = .ok (some t)
  := by
  simp only [environmentNow, henv, (int64OfText?_trim_eq_some_iff value t.millis).mpr h]

theorem environmentNow_of_not_writesInstant {env : Environment} {value : String}
    (henv : env nowVariable = some value) (h : ∀ t, ¬ WritesInstant t value) :
  environmentNow env = .error ⟨nowVariable, value⟩
  := by
  have hnone : Integer.int64OfText? (Text.trim value) = none := by
    rw [Option.eq_none_iff_forall_ne_some]
    intro millis hread
    apply h ⟨millis⟩ ((int64OfText?_trim_eq_some_iff value millis).mp hread)
  simp only [environmentNow, henv, hnone]

/-! ### The variable of the form -/

/-- The words for on and for off. -/
def switchWords : Bool → List String
  | true => ["1", "true", "yes", "on"]
  | false => ["", "0", "false", "no", "off"]

/-- A run of characters is a word with some of its letters in upper case. -/
def CasingOf (word : String) (cs : List Char) : Prop :=
  List.Forall₂ (fun c d => c = d ∨ c = d.toUpper) cs word.toList

/-- A value writes on or off: one of the words in any casing with white space around it. -/
def WritesSwitch (on : Bool) (value : String) : Prop :=
  ∃ word ∈ switchWords on, ∃ core, CasingOf word core ∧ Text.Pads core value

/-- The characters of the words are in lower case and in neither case white space. -/
theorem plain_of_mem_switchWords {on : Bool} {word : String} (h : word ∈ switchWords on) :
  ∀ d ∈ word.toList, d.toLower = d ∧ ¬ Text.isBlank d ∧ ¬ Text.isBlank d.toUpper
  := by
  have hall : ∀ word ∈ switchWords on, word.toList.all fun d =>
      d.toLower == d && !Text.isBlank d && !Text.isBlank d.toUpper := by
    cases on <;> decide
  intro d hd
  have hplain := List.all_eq_true.mp (hall word h) d hd
  simpa only [Bool.and_eq_true, beq_iff_eq, Bool.not_eq_true', Bool.not_eq_true, and_assoc]
    using hplain

/-- A character is its lower case or the upper case of that. -/
theorem eq_or_eq_toUpper_toLower (c : Char) :
  c = c.toLower ∨ c = c.toLower.toUpper
  := by
  by_cases hupper : c.isUpper
  · right
    rw [Char.toUpper_toLower_eq_toUpper,
      Char.toUpper_eq_of_not_isLower (Char.not_isLower_of_isUpper hupper)]
  · left
    rw [Char.toLower_eq_of_not_isUpper hupper]

theorem toLower_eq_iff {d : Char} (h : d.toLower = d) (c : Char) :
  c.toLower = d ↔ c = d ∨ c = d.toUpper
  := by
  constructor
  · rintro rfl
    apply eq_or_eq_toUpper_toLower
  · rintro (rfl | rfl)
    · apply h
    · rw [Char.toLower_toUpper_eq_toLower, h]

/-- The casings of a word are what it is in lower case. -/
theorem casingOf_iff {on : Bool} {word : String} (h : word ∈ switchWords on) (cs : List Char) :
  CasingOf word cs ↔ cs.map Char.toLower = word.toList
  := by
  have hplain := plain_of_mem_switchWords h
  rw [CasingOf, ← List.forall₂_eq_eq_eq, List.forall₂_map_left_iff, List.forall₂_iff_get,
    List.forall₂_iff_get]
  apply and_congr_right
  intro hlength
  apply forall_congr'
  intro i
  apply forall_congr'
  intro hi
  apply forall_congr'
  intro hi'
  apply (toLower_eq_iff (hplain _ (List.get_mem _ _)).1 _).symm

theorem not_isBlank_of_casingOf {on : Bool} {word : String} (h : word ∈ switchWords on)
    {cs : List Char} (hcasing : CasingOf word cs) :
  ∀ c ∈ cs, ¬ Text.isBlank c
  := by
  intro c hc
  have hmem : c.toLower ∈ word.toList := by
    rw [← (casingOf_iff h cs).mp hcasing]
    apply List.mem_map_of_mem hc
  obtain ⟨-, hlower, hupper⟩ := plain_of_mem_switchWords h _ hmem
  rcases eq_or_eq_toUpper_toLower c with heq | heq
  · rw [heq]
    apply hlower
  · rw [heq]
    apply hupper

theorem switch?_eq_some_iff_mem (value : String) (on : Bool) :
  switch? value = some on
    ↔ String.ofList ((Text.trim value).toList.map Char.toLower) ∈ switchWords on
  := by
  have happart : ∀ word ∈ switchWords true, word ∉ switchWords false := by decide
  generalize hword : String.ofList ((Text.trim value).toList.map Char.toLower) = word
  have hswitch : switch? value = if word ∈ switchWords true then some true
      else if word ∈ switchWords false then some false else none := by
    rw [← hword]
    rfl
  rw [hswitch]
  by_cases htrue : word ∈ switchWords true
  · have hfalse := happart word htrue
    rw [if_pos htrue]
    cases on <;> simp [htrue, hfalse]
  · rw [if_neg htrue]
    cases on <;> simp [htrue]

/-- The values that are read as on or off are the words in any casing and padding. -/
theorem switch?_eq_some_iff (value : String) (on : Bool) :
  switch? value = some on ↔ WritesSwitch on value
  := by
  rw [switch?_eq_some_iff_mem]
  constructor
  · intro hword
    refine ⟨_, hword, _, (casingOf_iff hword _).mpr ?_, Text.pads_trim value⟩
    rw [String.toList_ofList]
  · rintro ⟨word, hword, core, hcasing, hpads⟩
    rw [Text.toList_trim_of_pads (not_isBlank_of_casingOf hword hcasing) hpads,
      (casingOf_iff hword core).mp hcasing, String.ofList_toList]
    apply hword

theorem environmentCompact_of_writesSwitch {env : Environment} {value : String} {on : Bool}
    (henv : env compactVariable = some value) (h : WritesSwitch on value) :
  environmentCompact env = .ok on
  := by
  simp only [environmentCompact, henv, (switch?_eq_some_iff value on).mpr h]

theorem environmentCompact_of_not_writesSwitch {env : Environment} {value : String}
    (henv : env compactVariable = some value) (h : ∀ on, ¬ WritesSwitch on value) :
  environmentCompact env = .error ⟨compactVariable, value⟩
  := by
  have hnone : switch? value = none := by
    rw [Option.eq_none_iff_forall_ne_some]
    intro on hread
    apply h on ((switch?_eq_some_iff value on).mp hread)
  simp only [environmentCompact, henv, hnone]

/-! ### Options with the environment -/

namespace Options

variable {options : Options} {env : Environment}

/-- The instant of the options or else that of the environment. -/
def instantIn (options : Options) (env : Environment) :
    Except InvalidSetting (Option Instant) :=
  match options.now with
  | some t => .ok (some t)
  | none => environmentNow env

/-- The form of the options or else that of the environment. -/
def formIn (options : Options) (env : Environment) : Except InvalidSetting Bool :=
  if options.compact then .ok true else environmentCompact env

/-- The options are completed by the instant and then by the form. -/
theorem resolve_eq (options : Options) (env : Environment) :
  options.resolve env = options.instantIn env >>= fun now =>
    (options.formIn env).map fun compact => { options with now, compact }
  := by
  rw [resolve, instantIn, formIn]
  cases options.now with
  | some t =>
      cases options.compact with
      | true => rfl
      | false => cases environmentCompact env <;> rfl
  | none =>
      cases environmentNow env with
      | error e => rfl
      | ok now =>
          cases options.compact with
          | true => rfl
          | false => cases environmentCompact env <;> rfl

theorem instantIn_of_none (hnow : options.now = none) :
  options.instantIn env = environmentNow env
  := by
  rw [instantIn, hnow]

/-- With nothing left open about it, the instant is that of the options. -/
theorem instantIn_of_given (hnow : options.now = none → env nowVariable = none) :
  options.instantIn env = .ok options.now
  := by
  cases h : options.now with
  | none => simp only [instantIn_of_none h, environmentNow, hnow h]
  | some t => rw [instantIn, h]

theorem formIn_of_false (hcompact : options.compact = false) :
  options.formIn env = environmentCompact env
  := by
  rw [formIn, hcompact]
  rfl

/-- What the environment says of the instant is as good as the option. -/
theorem resolve_of_environmentNow {t : Instant} (hnow : options.now = none)
    (henv : environmentNow env = .ok (some t)) :
  options.resolve env = { options with now := some t }.resolve env
  := by
  rw [resolve_eq, resolve_eq, instantIn_of_none hnow, henv]
  rfl

/-- A fault in the variable of the instant comes before all else. -/
theorem resolve_of_environmentNow_error {e : InvalidSetting} (hnow : options.now = none)
    (henv : environmentNow env = .error e) :
  options.resolve env = .error e
  := by
  rw [resolve_eq, instantIn_of_none hnow, henv]
  rfl

/-- With nothing left open about the instant, the form is what the environment says. -/
theorem resolve_of_environmentCompact (hnow : options.now = none → env nowVariable = none)
    (hcompact : options.compact = false) :
  options.resolve env = (environmentCompact env).map fun on => { options with compact := on }
  := by
  rw [resolve_eq, instantIn_of_given hnow, formIn_of_false hcompact]
  rfl

/-- Only the variables of the options that are not given are looked at. -/
theorem resolve_congr {other : Environment}
    (hnow : options.now = none → env nowVariable = other nowVariable)
    (hcompact : options.compact = false → env compactVariable = other compactVariable) :
  options.resolve env = options.resolve other
  := by
  have hinstant : options.instantIn env = options.instantIn other := by
    cases h : options.now with
    | none => rw [instantIn_of_none h, instantIn_of_none h, environmentNow, hnow h, environmentNow]
    | some t => rw [instantIn, instantIn, h]
  have hform : options.formIn env = options.formIn other := by
    cases h : options.compact with
    | true => rw [formIn, formIn, h]; rfl
    | false =>
        rw [formIn_of_false h, formIn_of_false h, environmentCompact, hcompact h,
          environmentCompact]
  rw [resolve_eq, resolve_eq, hinstant, hform]

/-! ### The main statement -/

/-- A variable that writes an instant is as good as the option with that instant, and any other
value of it is reported as it stands, whatever the other variable holds.  The variable of the
form is on or off where it writes that and is reported otherwise.  Environments that agree on the
variables of the options that are not given have the same result. -/
theorem resolve_agrees (options : Options) (env : Environment) :
  (∀ value, options.now = none → env nowVariable = some value →
    (∀ t, WritesInstant t value →
      options.resolve env = { options with now := some t }.resolve env)
    ∧ ((∀ t, ¬ WritesInstant t value) → options.resolve env = .error ⟨nowVariable, value⟩))
  ∧ (∀ value, (options.now = none → env nowVariable = none) → options.compact = false →
    env compactVariable = some value →
    (∀ on, WritesSwitch on value → options.resolve env = .ok { options with compact := on })
    ∧ ((∀ on, ¬ WritesSwitch on value) →
      options.resolve env = .error ⟨compactVariable, value⟩))
  ∧ (∀ other : Environment,
    (options.now = none → env nowVariable = other nowVariable) →
    (options.compact = false → env compactVariable = other compactVariable) →
    options.resolve env = options.resolve other)
  ∧ ∀ now compact, options.now = none → options.compact = false →
    env nowVariable = some now → env compactVariable = some compact →
    (∀ t, ¬ WritesInstant t now) → (∀ on, ¬ WritesSwitch on compact) →
    options.resolve env = .error ⟨nowVariable, now⟩
  := by
  constructor
  · intro value hnow henv
    constructor
    · intro t ht
      apply resolve_of_environmentNow hnow (environmentNow_of_writesInstant henv ht)
    · intro hfault
      apply resolve_of_environmentNow_error hnow
        (environmentNow_of_not_writesInstant henv hfault)
  constructor
  · intro value hnow hcompact henv
    constructor
    · intro on hon
      rw [resolve_of_environmentCompact hnow hcompact, environmentCompact_of_writesSwitch henv hon]
      rfl
    · intro hfault
      rw [resolve_of_environmentCompact hnow hcompact,
        environmentCompact_of_not_writesSwitch henv hfault]
      rfl
  constructor
  · intro other hnow hcompact
    apply resolve_congr hnow hcompact
  · intro now compact hnow _ henv _ hfault _
    apply resolve_of_environmentNow_error hnow (environmentNow_of_not_writesInstant henv hfault)

/-- The variables hold an instant before 1970 and the word for on, both of them padded. -/
def paddedEnvironment : Environment := fun name =>
  if name = nowVariable then some "\u00a0-0042\n"
  else if name = compactVariable then some "\tYeS "
  else none

/-- The variables hold what they cannot have. -/
def faultyEnvironment : Environment := fun name =>
  if name = nowVariable then some " -"
  else if name = compactVariable then some "maybe"
  else none

theorem writesInstant_padded :
  WritesInstant ⟨-42⟩ "\u00a0-0042\n"
  := by
  have hspelled : Integer.SpelledBy (-42) ['-', '0', '0', '4', '2'] := by
    refine ⟨['-'], 2, .minus (by decide), ?_⟩
    decide +kernel
  refine ⟨_, hspelled, ['\u00a0'], ['\n'], ?_, ?_, rfl⟩
  · rw [List.forall_mem_singleton]
    decide
  · rw [List.forall_mem_singleton]
    decide

theorem writesSwitch_padded :
  WritesSwitch true "\tYeS "
  := by
  have hcasing : CasingOf "yes" ['Y', 'e', 'S'] := by
    rw [@casingOf_iff true _ (by decide)]
    decide
  refine ⟨"yes", by decide, _, hcasing, ['\t'], [' '], ?_, ?_, rfl⟩
  · rw [List.forall_mem_singleton]
    decide
  · rw [List.forall_mem_singleton]
    decide

theorem not_writesInstant_faulty (t : Instant) :
  ¬ WritesInstant t " -"
  := by
  intro h
  have hnone : Integer.int64OfText? (Text.trim " -") = none := by decide +kernel
  rw [(int64OfText?_trim_eq_some_iff _ t.millis).mpr h] at hnone
  cases hnone

theorem not_writesSwitch_faulty (on : Bool) :
  ¬ WritesSwitch on "maybe"
  := by
  rw [← switch?_eq_some_iff]
  revert on
  decide +kernel

/-- Padded variables complete options that leave all open; faulty ones are not looked at where
both options are given, and else the one of the instant is reported. -/
theorem resolve_agrees_padded :
  empty.resolve paddedEnvironment = .ok ⟨none, some ⟨-42⟩, true⟩
    ∧ Options.resolve ⟨none, some ⟨7⟩, true⟩ faultyEnvironment
      = Options.resolve ⟨none, some ⟨7⟩, true⟩ paddedEnvironment
    ∧ empty.resolve faultyEnvironment = .error ⟨nowVariable, " -"⟩
  := by
  obtain ⟨hinstant, -, -, -⟩ := resolve_agrees empty paddedEnvironment
  obtain ⟨-, hform, -, -⟩ := resolve_agrees ⟨none, some ⟨-42⟩, false⟩ paddedEnvironment
  obtain ⟨-, -, hcongr, -⟩ := resolve_agrees ⟨none, some ⟨7⟩, true⟩ faultyEnvironment
  obtain ⟨-, -, -, hfault⟩ := resolve_agrees empty faultyEnvironment
  constructor
  · rw [(hinstant _ rfl rfl).1 _ writesInstant_padded]
    apply (hform _ nofun rfl rfl).1 _ writesSwitch_padded
  constructor
  · apply hcongr _ nofun nofun
  · apply hfault _ _ rfl rfl rfl rfl not_writesInstant_faulty not_writesSwitch_faulty

end Options

end MongoQuery.Command
