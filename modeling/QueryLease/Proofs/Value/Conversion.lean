import Mathlib.Data.Set.Function
import QueryLease.Cell
import QueryLease.Proofs.Text.Encoding

namespace QueryLease

def refusal {ε α : Type} : Except ε α → Option ε
  | .error e => some e
  | .ok _ => none

section
variable {ε α β : Type} {x : Except ε α}

@[simp] theorem refusal_pure (a : α) : refusal (pure a : Except ε α) = none := rfl

@[simp] theorem refusal_map (f : α → β) : refusal (f <$> x) = refusal x := by cases x <;> rfl

theorem refusal_bind {f : α → Except ε β} {r : Option ε} (h : ∀ a, refusal (f a) = r) :
    refusal (x >>= f) = (refusal x).or r := by
  cases x with
  | error e => rfl
  | ok a => exact h a

theorem Except.bind_eq_ok {f : α → Except ε β} {b : β} :
    x >>= f = .ok b ↔ ∃ a, x = .ok a ∧ f a = .ok b := by
  cases x with
  | error e => simp [bind, Except.bind]
  | ok a => simp [bind, Except.bind]

theorem refusal_eq_none : refusal x = none ↔ ∃ a, x = .ok a := by
  cases x <;> simp [refusal]

theorem refusal_eq_some {e : ε} : refusal x = some e ↔ x = .error e := by
  cases x <;> simp [refusal]

end

theorem TextRole.decode_eq_ok {role : TextRole} {bytes : Utf8.Octets} {s : String} :
    role.decode bytes = .ok s ↔ Utf8.encode s = bytes := by
  rw [← Utf8.decode_eq_ok, TextRole.decode]
  cases Utf8.decode bytes <;> simp [Except.mapError]

theorem TextRole.decode_eq_error {role : TextRole} {bytes : Utf8.Octets} {fault : Fault} :
    role.decode bytes = .error fault ↔ ¬ Utf8.WellFormed bytes ∧ fault = .notUtf8 role := by
  rw [← Utf8.isOk_decode, TextRole.decode]
  cases Utf8.decode bytes <;> simp [Except.mapError, Except.isOk, Except.toBool, eq_comm]

namespace Cell

mutual

/-- The texts of a cell with what they are read as, in the order in which they stand in it, the
name of a field before what is in the field. -/
def texts : Cell → List (TextRole × Utf8.Octets)
  | null | bool _ | integer _ | float _ => []
  | text bytes => [(.stringValue, bytes)]
  | list items => textsIn items
  | struct fields => textsOf fields

def textsIn : List Cell → List (TextRole × Utf8.Octets)
  | [] => []
  | c :: rest => c.texts ++ textsIn rest

def textsOf : List (Utf8.Octets × Cell) → List (TextRole × Utf8.Octets)
  | [] => []
  | (k, c) :: rest => [(.fieldName, k)] ++ c.texts ++ textsOf rest

end

def textFault (t : TextRole × Utf8.Octets) : Option Fault := refusal (t.1.decode t.2)

mutual

theorem refusal_toValue (c : Cell) : refusal c.toValue = c.texts.findSome? textFault := by
  cases c with
  | null | bool | integer | float => rfl
  | text bytes => simp [toValue, texts, textFault]
  | list items => rw [toValue, refusal_map, refusal_toValues, texts]
  | struct fields => rw [toValue, refusal_map, refusal_toFields, texts]

theorem refusal_toValues (items : List Cell) :
    refusal (toValues items) = (textsIn items).findSome? textFault := by
  cases items with
  | nil => rfl
  | cons c rest =>
    rw [toValues, textsIn, List.findSome?_append, ← refusal_toValue c, ← refusal_toValues rest]
    refine refusal_bind fun v => ?_
    rw [refusal_bind fun _ => refusal_pure _, Option.or_none]

theorem refusal_toFields (fields : List (Utf8.Octets × Cell)) :
    refusal (toFields fields) = (textsOf fields).findSome? textFault := by
  cases fields with
  | nil => rfl
  | cons f rest =>
    obtain ⟨k, c⟩ := f
    rw [toFields, textsOf, List.findSome?_append, List.findSome?_append, List.findSome?_singleton,
      ← refusal_toValue c, ← refusal_toFields rest, Option.or_assoc]
    refine refusal_bind fun k => refusal_bind fun v => ?_
    rw [refusal_bind fun _ => refusal_pure _, Option.or_none]

end

mutual

theorem toValue_ofValue (v : Value) : (ofValue v).toValue = .ok v := by
  cases v with
  | null | bool | integer | float => rfl
  | string s =>
    rw [ofValue, toValue, TextRole.decode_eq_ok.2 rfl]
    rfl
  | list items =>
    rw [ofValue, toValue, toValues_ofValues items]
    rfl
  | struct fields =>
    rw [ofValue, toValue, toFields_ofFields fields]
    rfl

theorem toValues_ofValues (items : List Value) : toValues (ofValues items) = .ok items := by
  cases items with
  | nil => rfl
  | cons v rest =>
    rw [ofValues, toValues, toValue_ofValue v, toValues_ofValues rest]
    rfl

theorem toFields_ofFields (fields : List (String × Value)) :
    toFields (ofFields fields) = .ok fields := by
  cases fields with
  | nil => rfl
  | cons f rest =>
    obtain ⟨k, v⟩ := f
    rw [ofFields, toFields, TextRole.decode_eq_ok.2 rfl, toValue_ofValue v, toFields_ofFields rest]
    rfl

end

mutual

theorem ofValue_of_toValue (c : Cell) (v : Value) (h : c.toValue = .ok v) : ofValue v = c := by
  cases c with
  | null | bool | integer | float =>
    cases h
    rfl
  | text bytes =>
    obtain ⟨s, read, rfl⟩ := Except.map_eq_ok.1 h
    rw [ofValue, TextRole.decode_eq_ok.1 read]
  | list items =>
    obtain ⟨vs, read, rfl⟩ := Except.map_eq_ok.1 h
    rw [ofValue, ofValues_of_toValues items vs read]
  | struct fields =>
    obtain ⟨vs, read, rfl⟩ := Except.map_eq_ok.1 h
    rw [ofValue, ofFields_of_toFields fields vs read]

theorem ofValues_of_toValues (items : List Cell) (vs : List Value) (h : toValues items = .ok vs) :
    ofValues vs = items := by
  cases items with
  | nil =>
    cases h
    rfl
  | cons c rest =>
    obtain ⟨v, read, h⟩ := Except.bind_eq_ok.1 h
    obtain ⟨vs, reads, h⟩ := Except.bind_eq_ok.1 h
    cases h
    rw [ofValues, ofValue_of_toValue c v read, ofValues_of_toValues rest vs reads]

theorem ofFields_of_toFields (fields : List (Utf8.Octets × Cell)) (vs : List (String × Value))
    (h : toFields fields = .ok vs) : ofFields vs = fields := by
  cases fields with
  | nil =>
    cases h
    rfl
  | cons f rest =>
    obtain ⟨k, c⟩ := f
    obtain ⟨s, name, h⟩ := Except.bind_eq_ok.1 h
    obtain ⟨v, read, h⟩ := Except.bind_eq_ok.1 h
    obtain ⟨vs, reads, h⟩ := Except.bind_eq_ok.1 h
    cases h
    rw [ofFields, TextRole.decode_eq_ok.1 name, ofValue_of_toValue c v read,
      ofFields_of_toFields rest vs reads]

end

theorem toValue_eq_ok {c : Cell} {v : Value} : c.toValue = .ok v ↔ ofValue v = c := by
  constructor
  · exact ofValue_of_toValue c v
  · rintro rfl
    exact toValue_ofValue v

theorem textFault_eq_none {t : TextRole × Utf8.Octets} :
    textFault t = none ↔ Utf8.WellFormed t.2 := by
  rw [textFault, refusal_eq_none, Utf8.WellFormed]
  exact exists_congr fun _ => TextRole.decode_eq_ok

theorem textFault_eq_some {t : TextRole × Utf8.Octets} {fault : Fault} :
    textFault t = some fault ↔ ¬ Utf8.WellFormed t.2 ∧ fault = .notUtf8 t.1 := by
  rw [textFault, refusal_eq_some, TextRole.decode_eq_error]

/-- A cell is turned into a value exactly if all its texts spell something, and the value is then
the one that is laid out as that cell: no two cells become one value, and every value is read back.
Otherwise the first text that spells nothing decides the failure. -/
theorem conversion_exact :
    (∀ c : Cell, (∃ v, c.toValue = .ok v) ↔ ∀ t ∈ c.texts, Utf8.WellFormed t.2) ∧
    (∀ (c : Cell) (v : Value), c.toValue = .ok v ↔ ofValue v = c) ∧
    Set.InjOn toValue {c | ∃ v, c.toValue = .ok v} ∧
    (∀ v : Value, (ofValue v).toValue = .ok v) ∧
    (∀ (c : Cell) (fault : Fault), c.toValue = .error fault ↔
      ∃ before t after, c.texts = before ++ t :: after ∧
        (¬ Utf8.WellFormed t.2 ∧ fault = .notUtf8 t.1) ∧ ∀ u ∈ before, Utf8.WellFormed u.2) ∧
    (∀ role, (Fault.notUtf8 role).code = -2) ∧
    (Fault.notUtf8 .stringValue).message = "string value is not utf-8" ∧
    (Fault.notUtf8 .fieldName).message = "struct field name is not utf-8" := by
  refine ⟨fun c => ?_, fun _ _ => toValue_eq_ok, ?_, toValue_ofValue, fun c fault => ?_,
    fun _ => rfl, rfl, rfl⟩
  · rw [← refusal_eq_none, refusal_toValue, List.findSome?_eq_none_iff]
    simp only [textFault_eq_none]
  · rintro c ⟨v, read⟩ d - same
    rw [← toValue_eq_ok.1 read, toValue_eq_ok.1 (same ▸ read)]
  · rw [← refusal_eq_some, refusal_toValue, List.findSome?_eq_some_iff]
    simp only [textFault_eq_none, textFault_eq_some]

example : toValue (.list [.text [0x61], .struct [([0xC3], .text [0xFF])], .text [0xFF]]) =
    .error (.notUtf8 .fieldName) := rfl

end Cell

end QueryLease
