/-!
# Steps that may fail

Readers and writers give a result or an error, and the longer ones are put together from shorter
ones: one behind the other, with the result changed, with the error changed.  Each lemma says when
the whole has a given outcome in terms of its parts (`bind_eq_ok_iff`, `map_eq_ok_iff`,
`mapError_eq_ok_iff`, `mapError_eq_error_iff`, `toOption_eq_some_iff`), so that no proof about a
reader takes such a combination apart again.  Things with distinct names are found by them
(`find?_name_eq_some_iff`), which is how the readers of names choose.
-/

set_option autoImplicit false

namespace ErrorQuery

/-! ### Outcomes -/

section Outcomes

variable {ε ε' α β : Type}

/-- Behind a step with a result, the rest goes on from this result. -/
theorem ok_bind (a : α) (f : α → Except ε β) : (Except.ok a >>= f) = f a := rfl

/-- Two steps have a result exactly if the first has one and the second has it from there. -/
theorem bind_eq_ok_iff {result : Except ε α} {f : α → Except ε β} {b : β} :
    (result >>= f) = .ok b ↔ ∃ a, result = .ok a ∧ f a = .ok b := by
  cases result with
  | error e =>
      show (Except.error e : Except ε β) = .ok b ↔ _
      simp
  | ok a =>
      show f a = .ok b ↔ _
      simp

/-- A changed result is the change of a result. -/
theorem map_eq_ok_iff {result : Except ε α} {f : α → β} {b : β} :
    result.map f = .ok b ↔ ∃ a, result = .ok a ∧ f a = b := by
  cases result with
  | error e => simp [Except.map]
  | ok a => simp [Except.map]

/-- A change of the error leaves results alone. -/
theorem mapError_eq_ok_iff {result : Except ε α} {f : ε → ε'} {a : α} :
    result.mapError f = .ok a ↔ result = .ok a := by
  cases result with
  | error e =>
      show (Except.error (f e) : Except ε' α) = .ok a ↔ _
      simp
  | ok b =>
      show (Except.ok b : Except ε' α) = .ok a ↔ _
      simp

/-- A changed error is the change of an error. -/
theorem mapError_eq_error_iff {result : Except ε α} {f : ε → ε'} {e : ε'} :
    result.mapError f = .error e ↔ ∃ e', result = .error e' ∧ f e' = e := by
  cases result with
  | error e' =>
      show (Except.error (f e') : Except ε' α) = .error e ↔ _
      simp
  | ok a =>
      show (Except.ok a : Except ε' α) = .error e ↔ _
      simp

/-- Forgetting why a step failed leaves its results. -/
theorem toOption_eq_some_iff {result : Except ε α} {a : α} :
    result.toOption = some a ↔ result = .ok a := by
  cases result with
  | error e => simp [Except.toOption]
  | ok a => simp [Except.toOption]

/-- What is written item by item is read item by item, if each item is read back. -/
theorem mapM_map_ok {write : α → β} {read : β → Except ε α} (h : ∀ a, read (write a) = .ok a)
    (items : List α) : (items.map write).mapM read = .ok items := by
  induction items with
  | nil => rfl
  | cons a items ih =>
      rw [List.map_cons, List.mapM_cons, h, ih]
      rfl

end Outcomes

/-! ### Choices by name -/

section Names

variable {α : Type} {all : List α} {nameOf : α → String}

/-- A value is found again by its name, as long as no other has it. -/
theorem find?_name {a : α} (ha : a ∈ all) (hname : ∀ b, nameOf b = nameOf a → b = a) :
    all.find? (nameOf · == nameOf a) = some a := by
  cases hfind : all.find? (nameOf · == nameOf a) with
  | none =>
      rw [List.find?_eq_none] at hfind
      exact absurd (hfind a ha) (by simp)
  | some b =>
      have hsame : nameOf b = nameOf a := by simpa using List.find?_some hfind
      rw [hname b hsame]

/-- Among all things with distinct names, that of a name is found by it. -/
theorem find?_name_eq_some_iff (hall : ∀ a, a ∈ all) (hname : Function.Injective nameOf)
    {name : String} {a : α} : all.find? (nameOf · == name) = some a ↔ name = nameOf a := by
  constructor
  · intro h
    have hsame : nameOf a = name := by simpa using List.find?_some h
    exact hsame.symm
  · rintro rfl
    exact find?_name (hall a) fun b hb => hname hb

end Names

end ErrorQuery
