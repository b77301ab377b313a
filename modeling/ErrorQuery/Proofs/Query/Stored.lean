import ErrorQuery.Proofs.DateTime.Stored
import ErrorQuery.Proofs.Fallible
import ErrorQuery.Query.Stored

/-!
# Stored queries are read back

Every part of a query has a stored form, and reading that form gives the part back: names of fields,
operators and connectors, moments, operands, conditions and date ranges, and from them whole queries
(`stored_queries_are_read_back`).  The readers of records look their members up by name, so each law needs
only that the name is there and that what stands behind it is read back.
-/

set_option autoImplicit false

namespace ErrorQuery

/-! ### The shapes of stored values -/

namespace Json

/-- A choice is read back from its name. -/
theorem choose_name {α : Type} {all : List α} {nameOf : α → String} {a : α} (ha : a ∈ all)
    (hname : ∀ b, nameOf b = nameOf a → b = a) : choose all nameOf (nameOf a) = .ok a := by
  rw [choose, find?_name ha hname]

/-- A choice that is stored by its name is read back. -/
theorem asName_string {α : Type} {all : List α} {nameOf : α → String} {a : α} (ha : a ∈ all)
    (hname : ∀ b, nameOf b = nameOf a → b = a) :
    asName all nameOf (.string (nameOf a)) = .ok a := by
  simp only [asName, asChoice, choose_name ha hname]

/-- The first member of the name is read. -/
theorem field?_cons_self {α : Type} {read : Json → Except Mismatch α} {j : Json} {a : α}
    (h : read j = .ok a) (name : String) (members : List (String × Json)) :
    field? ((name, j) :: members) name read = .ok (some a) := by
  rw [field?, List.lookup_cons_self]
  simp only [h]
  rfl

/-- Members of other names do not count. -/
theorem field?_cons_of_ne {α : Type} {read : Json → Except Mismatch α} {name other : String}
    (h : name ≠ other) (j : Json) (members : List (String × Json)) :
    field? ((other, j) :: members) name read = field? members name read := by
  have hother : (name == other) = false := by simpa using h
  rw [field?, List.lookup_cons, hother]
  rfl

end Json

open Json

/-! ### Parts of a query -/

/-- A stored moment is read back. -/
theorem DateTime.ofJson_toJson (t : DateTime) : DateTime.ofJson t.toJson = .ok t := by
  simp only [DateTime.ofJson, DateTime.toJson, asString, ok_bind, DateTime.parse_print]
  rfl

/-- A stored range is read back. -/
theorem DateRange.ofJson_toJson (r : DateRange) : DateRange.ofJson r.toJson = .ok r := by
  simp only [DateRange.ofJson, DateRange.toJson, field?_cons_self (DateTime.ofJson_toJson _),
    field?_cons_of_ne, ne_eq, String.reduceEq, not_false_eq_true, required, ok_bind]
  rfl

/-- A stored operand is read back. -/
theorem Operand.ofJson_toJson (operand : Operand) : Operand.ofJson operand.toJson = .ok operand := by
  have hname (form : Operand.Form) :
      choose Operand.Form.all Operand.Form.name form.name = .ok form :=
    choose_name (by cases form <;> decide) (by intro other; cases form <;> cases other <;> decide)
  cases operand with
  | single value =>
      simp only [Operand.ofJson, Operand.toJson, asChoice, hname, Json.content, asString, ok_bind]
      rfl
  | list values =>
      have hitem (s : String) : asString "a string" (.string s) = .ok s := rfl
      simp only [Operand.ofJson, Operand.toJson, asChoice, hname, Json.content, asList,
        mapM_map_ok hitem, ok_bind]
      rfl

namespace Condition

/-- A stored connector is read back. -/
theorem connectorOfJson_name (c : Connector) :
    connectorOfJson (.string c.name) = .ok (some c) := by
  have hname : asName Connector.all Connector.name (.string c.name) = .ok c :=
    asName_string c.mem_all fun _ => Connector.name_inj.mp
  simp only [connectorOfJson, Json.optional, hname]
  rfl

/-- A condition is read from its members, whatever is written for its connector. -/
theorem ofJson_members (f : Field) (op : Operator) (operand : Operand)
    {connector : Option Connector} {j : Json} (hconnector : connectorOfJson j = .ok connector) :
    Condition.ofJson (.object [("connector", j), ("object", .string f.name),
      ("operator", .string op.name), ("value", operand.toJson)]) =
        .ok ⟨f, op, operand, connector⟩ := by
  have hfield : fieldOfJson (.string f.name) = .ok f :=
    asName_string f.mem_all fun _ => Field.name_inj.mp
  have hoperator : operatorOfJson (.string op.name) = .ok op :=
    asName_string op.mem_all fun _ => Operator.name_inj.mp
  simp only [Condition.ofJson, field?_cons_self hconnector, field?_cons_self hfield,
    field?_cons_self hoperator, field?_cons_self operand.ofJson_toJson, field?_cons_of_ne, ne_eq,
    String.reduceEq, not_false_eq_true, required, ok_bind]
  rfl

/-- A stored condition is read back, with or without a connector. -/
theorem ofJson_toJson (c : Condition) : Condition.ofJson c.toJson = .ok c := by
  obtain ⟨f, op, operand, connector⟩ := c
  cases connector with
  | none => exact ofJson_members f op operand rfl
  | some c => exact ofJson_members f op operand (connectorOfJson_name c)

end Condition

namespace Query

/-- A stored limit is read back. -/
theorem limitOfJson_number (n : UInt32) :
    limitOfJson (.number (.integer n.toNat)) = .ok (some n) := by
  have hrange : (0 : Int) ≤ (n.toNat : Int) ∧ (n.toNat : Int) < 4294967296 := by
    have hlt := n.toNat_lt
    omega
  simp only [limitOfJson, Json.optional, if_pos hrange, Int.toNat_natCast, UInt32.ofNat_toNat]
  rfl

/-- A query is read from its members, whatever is written for its limit. -/
theorem ofJson_members (range : DateRange) (conditions : List Condition) {limit : Option UInt32}
    {j : Json} (hlimit : limitOfJson j = .ok limit) :
    Query.ofJson (.object [("date_range", range.toJson), ("limit", j),
      ("match_conditions", .array (conditions.map Condition.toJson))]) =
        .ok ⟨range, limit, conditions⟩ := by
  have hconditions : conditionsOfJson (.array (conditions.map Condition.toJson)) =
      .ok conditions := by
    simp only [conditionsOfJson, asList, ok_bind]
    exact mapM_map_ok Condition.ofJson_toJson conditions
  simp only [Query.ofJson, field?_cons_self range.ofJson_toJson, field?_cons_self hlimit,
    field?_cons_self hconditions, field?_cons_of_ne, ne_eq, String.reduceEq, not_false_eq_true,
    required, ok_bind]
  rfl

end Query

/-- Reading what is stored for a query gives the query back. -/
theorem stored_queries_are_read_back (q : Query) : Query.ofJson q.toJson = .ok q := by
  obtain ⟨range, limit, conditions⟩ := q
  cases limit with
  | none => exact Query.ofJson_members range conditions rfl
  | some n => exact Query.ofJson_members range conditions (Query.limitOfJson_number n)

end ErrorQuery
