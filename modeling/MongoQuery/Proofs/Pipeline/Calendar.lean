import MongoQuery.Proofs.Bson.Equality
import MongoQuery.Proofs.Pipeline.NestedCount
import MongoQuery.Proofs.Time.Period

/-!
# Equal values of BSON as keys

Different values of BSON can be equal: the zeros of floating point are, and so are documents
whose fields are in another order.  On the engine of this module equal values are the same key,
and dates are written in the formats of the intervals.

Main statement: the engine respects every level.
-/

namespace MongoQuery

namespace Engine

/-- The text of a date in a format, and null for what is no date. -/
def calendarText (format : String) : Option Value → Option Value
  | some (.date t) => some (.string (t.format format))
  | _ => some .null

/-- The engine for which values that are equal are the same key, which writes dates in formats
and knows no arithmetic. -/
def calendar : Engine :=
  ofSame (fun v w => v.equal w && w.equal v)
    (fun v w h => by rw [Bool.and_comm, h])
    (fun u v w h h' => by
      rw [Bool.and_eq_true] at h h' ⊢
      exact ⟨Value.equal_trans h.1 h'.1, Value.equal_trans h'.2 h.2⟩)
    (fun _ _ => true) (fun x values => values.any fun v => x.any v.equal)
    (fun _ _ => none) (fun _ _ => none) (fun _ => none) calendarText

theorem alike_calendar_cases {x y : Option Value} (h : calendar.alike x y) :
  x = none ∧ y = none ∨ ∃ v w, x = some v ∧ y = some w ∧ v.equal w ∧ w.equal v
  := by
  cases x with
  | none =>
      cases y with
      | none => exact .inl ⟨rfl, rfl⟩
      | some w => cases h
  | some v =>
      cases y with
      | none => cases h
      | some w => exact .inr ⟨v, w, rfl, rfl, (Bool.and_eq_true _ _).mp h⟩

theorem calendarText_of_forall_ne (format : String) {v : Value} (h : ∀ t, v ≠ .date t) :
  calendarText format (some v) = some .null
  := by
  cases v with
  | date t => exact absurd rfl (h t)
  | _ => rfl

/-- Dates are equal only when they are the same. -/
theorem alike_calendarText (format : String) {x y : Option Value} (h : calendar.alike x y) :
  calendar.alike (calendarText format x) (calendarText format y)
  := by
  obtain ⟨rfl, rfl⟩ | ⟨v, w, rfl, rfl, hvw, hwv⟩ := alike_calendar_cases h
  · rfl
  · by_cases hdate : ∃ t, v = .date t
    · obtain ⟨t, rfl⟩ := hdate
      rw [Value.eq_of_equal rfl hvw]
      apply (Bool.and_eq_true _ _).mpr
      exact ⟨Value.equal_self_of_isScalar rfl, Value.equal_self_of_isScalar rfl⟩
    · have hdate' : ∀ t, w ≠ .date t := by
        rintro t rfl
        exact hdate ⟨t, Value.eq_of_equal rfl hwv⟩
      rw [calendarText_of_forall_ne format (not_exists.mp hdate),
        calendarText_of_forall_ne format hdate']
      rfl

/-- What equals one of two equal values equals the other. -/
theorem among_calendar_of_alike (values : List Value) {x y : Option Value}
    (h : calendar.alike x y) :
  calendar.among x values = calendar.among y values
  := by
  obtain ⟨rfl, rfl⟩ | ⟨v, w, rfl, rfl, hvw, hwv⟩ := alike_calendar_cases h
  · rfl
  · have hequal : ∀ u : Value, u.equal v = u.equal w := by
      intro u
      apply Bool.eq_iff_iff.mpr
      exact ⟨fun hu => Value.equal_trans hu hvw, fun hu => Value.equal_trans hu hwv⟩
    change (values.any fun u => u.equal v) = values.any fun u => u.equal w
    simp only [hequal]

end Engine

theorem Level.respectedBy_calendar (level : Level) :
  level.RespectedBy Engine.calendar
  := by
  constructor
  · intro x y h
    unfold rounded
    split
    · apply h
    · rfl
    · apply Engine.alike_calendarText _ h
  · intro values _ x y h
    apply Engine.among_calendar_of_alike values h

end MongoQuery
