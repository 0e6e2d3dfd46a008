import Facade.Shape.Source
import Facade.Text.Word

/-!
# Names in generated code

**Input.**  Names of native declarations, which may be anything, and the texts of generated
expressions.

**Algorithm.**
* `safe` puts a name between backticks when it is a hard keyword or no identifier.
* `short` names positions `a`, `b`, …, `z`, `aa`, `ab`, …
* `fresh` appends underscores to a preferred name until it is not taken.
* `lambdaParameters` takes short names in order, skipping every identifier of the expression that
  the lambda calls.

**Results.**
* `shortLetters_ne_nil`: every position has a name.
* `lambdaParameters_eq_take`: parameters are the first short names that the target does not mention.
* `not_mem_identifiers_of_mem_lambdaParameters`: no parameter is mentioned by the target.
-/

namespace Facade
namespace Name

/-- The words that are never identifiers. -/
def hardKeywords : List String :=
  ["as", "break", "class", "continue", "do", "else", "false", "for", "fun", "if", "in", "interface",
    "is", "null", "object", "package", "return", "super", "this", "throw", "true", "try",
    "typealias", "typeof", "val", "var", "when", "while"]

/-- The name as it is written in source. -/
def safe (name : String) : String :=
  if name ∈ hardKeywords ∨ Text.isIdentifier name = false then "`" ++ name ++ "`" else name

/-- The letter at a position of the alphabet. -/
def letter (i : Nat) : Char :=
  Char.ofNat (97 + i % 26)

/-- The letters of the short name of a position. -/
def shortLetters (i : Nat) : List Char :=
  if i < 26 then [letter i] else shortLetters (i / 26 - 1) ++ [letter i]
termination_by i
decreasing_by omega

/-- The short name of a position. -/
def short (i : Nat) : String :=
  String.ofList (shortLetters i)

/-- A position below zero, which has no short name. -/
structure NegativeIndex where
  index : Int
deriving DecidableEq, Repr

/-- What is said about a negative position. -/
def NegativeIndex.message (e : NegativeIndex) : String :=
  "negative parameter index " ++ toString e.index

/-- The short name of a position given as an integer. -/
def short? (i : Int) : Except NegativeIndex String :=
  if i < 0 then .error ⟨i⟩ else .ok (short i.toNat)

/-- Underscores are appended while the name is taken, at most `tries` times. -/
def freshFrom (taken : List String) : (tries : Nat) → String → String
  | 0, name => name
  | tries + 1, name => if name ∈ taken then freshFrom taken tries (name ++ "_") else name

/-- The preferred name with the fewest underscores after it that make it untaken. -/
def fresh (preferred : String) (taken : List String) : String :=
  freshFrom taken taken.length preferred

/-- The first `count` short names from position `start` on that are not taken; at most `tries`
positions are looked at. -/
def untaken (taken : List String) : (count tries start : Nat) → List String
  | 0, _, _ => []
  | _ + 1, 0, _ => []
  | count + 1, tries + 1, start =>
      let name := short start
      if name ∈ taken then untaken taken (count + 1) tries (start + 1)
      else name :: untaken taken count tries (start + 1)

/-- Names for the parameters of a lambda that calls `target`. -/
def lambdaParameters (count : Nat) (target : String) : List String :=
  let taken := Text.identifiers target
  untaken taken count (count + taken.length) 0

/-- The package of the wrappers of a package. -/
def facadePackage (package : String) (erase : Bool) : String :=
  if erase then "" else if package.isEmpty then "js" else package ++ ".js"

/-- The name under which a facade file imports the native declaration. -/
def nativeAlias (simpleName : String) : String :=
  "Common" ++ simpleName

/-- The object that holds the entries of an enumeration. -/
def entriesHolder (simpleName : String) : String :=
  simpleName ++ "s"

/-- The function that turns a wrapper into its native value. -/
def importer (exportName : String) : String :=
  "import" ++ exportName

/-- The function that turns a native value into its wrapper. -/
def exporter (exportName : String) : String :=
  "export" ++ exportName

theorem shortLetters_ne_nil (i : Nat) :
    shortLetters i ≠ [] := by
  rw [shortLetters]
  split <;> simp

/-- The search for names that are not taken is a filter over the names tried. -/
theorem untaken_eq_take
    (taken : List String) (count tries start : Nat) :
    untaken taken count tries start =
      (((List.range' start tries).map short).filter (· ∉ taken)).take count := by
  induction tries generalizing count start with
  | zero => cases count <;> simp [untaken]
  | succ tries ih =>
      cases count with
      | zero => simp [untaken]
      | succ count =>
          by_cases h : short start ∈ taken
          · simp [untaken, List.range'_succ, h, ih]
          · simp [untaken, List.range'_succ, h, ih]

/-- Parameters are the first short names that the target does not mention. -/
theorem lambdaParameters_eq_take
    (count : Nat) (target : String) :
    lambdaParameters count target =
      (((List.range (count + (Text.identifiers target).length)).map short).filter
        (· ∉ Text.identifiers target)).take count := by
  rw [lambdaParameters, untaken_eq_take, List.range_eq_range']

/-- No parameter of a lambda is mentioned by what the lambda calls. -/
theorem not_mem_identifiers_of_mem_lambdaParameters
    {count : Nat} {target name : String}
    (h : name ∈ lambdaParameters count target) :
    name ∉ Text.identifiers target := by
  rw [lambdaParameters_eq_take] at h
  have := (List.mem_filter.1 (List.mem_of_mem_take h)).2
  simpa using this

end Name
end Facade
