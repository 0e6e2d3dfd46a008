import Facade.Mapping.Rule
import Facade.Log

/-!
# The mapping table

**Input.**  Rules in the order in which they are offered.

**Algorithm.**  A registry accepts rules until it is frozen: a rule for a key that already has one
is refused, and so is every rule once the registry is frozen.  A look-up takes the rule for the
key of the shape, and otherwise the first rule whose pattern holds of the shape.

**Results.**
* `Table.find?_eq_some`: the rule found is a rule of the table that applies to the shape.
* `Registry.add_eq_ok`: an accepted rule is appended and changes nothing else.
* `Registry.addAll_frozen`: a frozen registry stays as it is.
-/

namespace Facade
namespace Mapping

/-- The rules that look-ups see, in the order of their acceptance. -/
structure Table where
  rules : List Rule := []

namespace Table

/-- The rule for a key. -/
def findExact? (t : Table) (key : Key) : Option Rule :=
  t.rules.find? fun r => r.key? == some key

/-- The first of some rules whose pattern holds of a shape. -/
def firstHolding? (s : Shape) : List Rule → Except Text.Overlong (Option Rule)
  | [] => .ok none
  | r :: rest =>
      match r.holds s with
      | .error o => .error o
      | .ok true => .ok (some r)
      | .ok false => firstHolding? s rest

/-- The rule that applies to a shape: rules for its key come first. -/
def find? (t : Table) (s : Shape) : Except Text.Overlong (Option Rule) :=
  match t.findExact? s.key with
  | some r => .ok (some r)
  | none => firstHolding? s t.rules

/-- The conversion that applies to a shape. -/
def conversion? (t : Table) (s : Shape) : Except Text.Overlong (Option Conversion) :=
  (t.find? s).map fun found => found.map Rule.conversion

/-- The number of rules for one type. -/
def exactCount (t : Table) : Nat :=
  t.rules.countP Rule.isExact

/-- The number of rules with a pattern. -/
def patternedCount (t : Table) : Nat :=
  t.rules.countP fun r => !r.isExact

/-- What is logged when a table is frozen. -/
def frozenLine (t : Table) : Log.Line :=
  Log.debug ("Type mapping table frozen with " ++ toString t.exactCount ++ " exact and " ++
    toString t.patternedCount ++ " predicate rules")

end Table

/-- A table under construction. -/
structure Registry where
  table : Table := {}
  frozen : Bool := false

namespace Registry

/-- A registry without rules. -/
def empty : Registry := {}

/-- Offers a rule. -/
def add (g : Registry) (r : Rule) : Except RegistrationError Registry :=
  if g.frozen then .error .frozen
  else
    match r.key?.filter fun key => (g.table.findExact? key).isSome with
    | some key => .error (.duplicate key)
    | none => .ok { g with table := ⟨g.table.rules ++ [r]⟩ }

/-- Offers rules one after the other up to the first that is refused; the rules accepted before it
stay. -/
def addAll (g : Registry) : List Rule → Registry × Except RegistrationError Unit
  | [] => (g, .ok ())
  | r :: rest =>
      match g.add r with
      | .ok g' => g'.addAll rest
      | .error e => (g, .error e)

/-- Ends the registration of rules. -/
def freeze (g : Registry) : Registry :=
  { g with frozen := true }

/-- The table, once it is frozen. -/
def frozen? (g : Registry) : Option Table :=
  if g.frozen then some g.table else none

end Registry

theorem Table.firstHolding?_eq_some
    {s : Shape} {rules : List Rule} {r : Rule}
    (h : firstHolding? s rules = .ok (some r)) :
    r ∈ rules ∧ r.holds s = .ok true := by
  induction rules with
  | nil => simp [firstHolding?] at h
  | cons first rest ih =>
      rw [firstHolding?] at h
      split at h
      · simp at h
      · next hholds =>
          obtain rfl := by simpa using h
          exact ⟨by simp, hholds⟩
      · obtain ⟨hmem, hholds⟩ := ih h
        exact ⟨by simp [hmem], hholds⟩

/-- The rule found is a rule of the table that applies to the shape, by its key or by its pattern.
-/
theorem Table.find?_eq_some
    {t : Table} {s : Shape} {r : Rule}
    (h : t.find? s = .ok (some r)) :
    r ∈ t.rules ∧ (r.key? = some s.key ∨ r.holds s = .ok true) := by
  rw [Table.find?] at h
  split at h
  · next hexact =>
      obtain rfl := by simpa using h
      exact ⟨List.mem_of_find?_eq_some hexact, .inl (by simpa using List.find?_some hexact)⟩
  · obtain ⟨hmem, hholds⟩ := firstHolding?_eq_some h
    exact ⟨hmem, .inr hholds⟩

/-- An accepted rule is appended and changes nothing else. -/
theorem Registry.add_eq_ok
    {g g' : Registry} {r : Rule}
    (h : g.add r = .ok g') :
    g'.table.rules = g.table.rules ++ [r] ∧ g'.frozen = g.frozen := by
  rw [Registry.add] at h
  split at h
  · simp at h
  · split at h
    · simp at h
    · obtain rfl := by simpa using h
      exact ⟨rfl, rfl⟩

/-- A frozen registry stays as it is. -/
theorem Registry.addAll_frozen
    {g : Registry} (h : g.frozen = true) (rules : List Rule) :
    (g.addAll rules).1 = g := by
  cases rules with
  | nil => rfl
  | cons r rest => simp [Registry.addAll, Registry.add, h]

end Mapping
end Facade
