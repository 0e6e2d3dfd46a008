import Facade.Wrapper.Member

/-!
# Wrappers of enumerations

**Input.**  An enumeration and the context of its session.

**Algorithm.**  The wrapper holds the native entry and shows its name.  An object holds one
wrapper per entry in declaration order; one function lists them all, another finds one by its
name.

**Results.**
* `repeated_eq_nil_iff`: there is nothing to complain about exactly when no entry occurs twice.
-/

namespace Facade
namespace Wrapper

open Code Source

/-- The entries that occur more than once, in order. -/
def repeated (entries : List String) : List String :=
  ((entries.filter fun e => 1 < entries.count e).eraseDups).mergeSort (· ≤ ·)

/-- The names that are listed as repeated are those that occur more than once. -/
theorem mem_repeated_iff
    {entries : List String} {entry : String} :
    entry ∈ repeated entries ↔ 1 < entries.count entry := by
  rw [repeated, (List.mergeSort_perm _ _).mem_iff, List.mem_eraseDups, List.mem_filter]
  constructor
  · rintro ⟨_, h⟩
    simpa using h
  · intro h
    exact ⟨List.count_pos_iff.1 (Nat.lt_trans Nat.zero_lt_one h), by simpa using h⟩

/-- No name is repeated exactly if all entries are different. -/
theorem repeated_eq_nil_iff
    {entries : List String} :
    repeated entries = [] ↔ entries.Nodup := by
  rw [List.nodup_iff_count, List.eq_nil_iff_forall_not_mem]
  constructor
  · intro h entry
    exact Nat.le_of_not_lt fun hlt => h entry (mem_repeated_iff.2 hlt)
  · intro h entry hmem
    exact Nat.not_lt_of_le (h entry) (mem_repeated_iff.1 hmem)

/-- The name of the property that holds the native entry. -/
def entryProperty : String := "value"

/-- An entry, as a member of the object that holds the entries. -/
def entryRef (holder accessor : String) : Expr :=
  .member (.name holder) false accessor

/-- An enumeration with repeated entries, or whose holder clashes with another declaration, is
refused. -/
def checkEntries (ctx : Context) (e : EnumDecl) : Except Failure Unit :=
  let duplicates := repeated e.entries
  let holder := Name.entriesHolder e.simpleName
  if !duplicates.isEmpty then
    .error (.refused { cause := .repeatedEntries e.simpleName duplicates, location := e.origin })
  else if ctx.declares e.package holder then
    .error (.refused { cause := .holderClash e.simpleName holder, location := e.origin })
  else .ok ()

/-- The wrapper of one entry. -/
def entryClass (name : String) (native : Shape) : TypeDef :=
  { kind := .cls, name, modifiers := ["public"], annotations := [.jsExport],
    primary := some (holding entryProperty native ["internal", "val"] ["internal"]),
    properties :=
      [{ name := "name", type := .string, modifiers := ["public"],
         initializer := some (.member (.name entryProperty) false "name") }] }

/-- The object that holds the wrappers of all entries. -/
def entriesObject (holder native exportName : String) (wrapper : Shape) (accessors : List String) :
    TypeDef :=
  { kind := .object, name := holder, modifiers := ["public"], annotations := [.jsExport],
    properties := accessors.map fun a =>
      { name := a, type := wrapper, modifiers := ["public"],
        initializer := some ((entryRef native a).send false (Name.exporter exportName)) } }

/-- The function that lists the wrappers of all entries. -/
def valuesFunction (holder exportName : String) (wrapper : Shape) (accessors : List String) :
    FunctionDef :=
  { name := exportName ++ "_values", result := some (.arrayOf wrapper), modifiers := ["public"],
    annotations := [.jsExport],
    expression := some (.call (.name "arrayOf") (accessors.map (entryRef holder))) }

/-- The function that finds the wrapper of an entry by name. -/
def valueOfFunction (holder exportName : String) (wrapper : Shape) (accessors : List String) :
    FunctionDef :=
  { name := exportName ++ "_valueOf", params := [{ name := "name", type := .string }],
    result := some (wrapper.withNullable true), modifiers := ["public"],
    annotations := [.jsExport],
    body := some
      (accessors.map (fun a => .retIfNamed "name" (entryRef holder a)) ++
        [.ret (.name "null")]) }

/-- The file of the wrapper of an enumeration. -/
def ofEnumeration (ctx : Context) (e : EnumDecl) : Except Failure File := do
  checkEntries ctx e
  let package := ctx.facadePackage e.package
  let name := e.simpleName
  let native := e.toHeader.shape
  let wrapper : Shape := { name, package }
  let holder := Name.entriesHolder name
  let accessors := e.entries.map Name.safe
  .ok (fileOf package name native name
    [.type (entryClass name native),
      .function (importFunction name wrapper native (.name entryProperty)),
      .function (exportFunction name wrapper native (.call (.name name) [.self])),
      .type (entriesObject holder (Name.nativeAlias name) name wrapper accessors),
      .function (valuesFunction holder name wrapper accessors),
      .function (valueOfFunction holder name wrapper accessors)])

end Wrapper
end Facade
