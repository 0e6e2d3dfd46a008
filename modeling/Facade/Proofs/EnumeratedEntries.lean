import Facade.Proofs.Conditions

/-!
# Entries of enumerations

The file of an enumeration holds its entries three times: as the properties of an object, as the
elements of an array, and as the branches of a lookup by name.  All three follow the declaration,
because names stay apart when they are written in source.

**Input.**  An enumeration with any entries, and the context of its session.

**Algorithm.**  The code of the lookup is read statement by statement: its parameter holds a text,
the name of an object stands for the object, and a member of the object is an entry, which has a
name of its own.

**Results.**
* `safe_injective`: different names are written differently.
* `returned_lookup`: a lookup returns the entry that has the given name, and null if there is none.
* `enumerations_list_their_entries`: when there is a file, and what it lists.
-/

namespace Facade

namespace Name

/-- A name is written as it is, which is an identifier, or between backticks. -/
theorem safe_eq_or (name : String) :
    safe name = "`" ++ name ++ "`" ∨ safe name = name ∧ Text.isIdentifier name = true := by
  by_cases h : name ∈ hardKeywords ∨ Text.isIdentifier name = false
  · exact .inl (if_pos h)
  · exact .inr ⟨if_neg h, by simpa using (not_or.1 h).2⟩

theorem not_isIdentifier_quoted (name : String) :
    Text.isIdentifier ("`" ++ name ++ "`") = false := by
  have hstart : Text.isIdentifierStart '`' = false := by decide
  simp [Text.isIdentifier, hstart]

/-- Names stay apart when they are written in source: no identifier starts with a backtick. -/
theorem safe_injective : Function.Injective safe := by
  intro name other h
  rcases safe_eq_or name with hname | ⟨hname, hplain⟩
  · rcases safe_eq_or other with hother | ⟨hother, hplain'⟩
    · rw [hname, hother] at h
      simpa [← String.toList_inj] using h
    · rw [hname, hother] at h
      rw [← h, not_isIdentifier_quoted] at hplain'
      simp at hplain'
  · rcases safe_eq_or other with hother | ⟨hother, -⟩
    · rw [hname, hother] at h
      rw [h, not_isIdentifier_quoted] at hplain
      simp at hplain
    · rw [hname, hother] at h
      exact h

theorem append_ne_append {before after : String} (name : String)
    (h : before.length ≠ after.length) :
    before ++ name ≠ name ++ after := by
  refine ne_of_apply_ne String.length ?_
  rw [String.length_append, String.length_append]
  omega

/-- The holder is none of the words that mean something else in the code of a lookup. -/
theorem entriesHolder_ne_of_getLast? {word : String} (name : String)
    (h : word.toList.getLast? ≠ some 's') :
    entriesHolder name ≠ word := by
  rintro rfl
  simp [entriesHolder] at h

end Name

namespace Code

/-- What the code of a lookup works on. -/
inductive Datum where
  | null
  | text (value : String)
  /-- An object, by the names of its properties. -/
  | object (properties : List String)
  /-- An entry, by the property that holds it. -/
  | entry (accessor : String)
deriving DecidableEq, Repr

section Lookup

variable (nameOf : String → String) (scope : String → Option Datum)

/-- The value of a name or of a member; `nameOf` gives the names of the entries. -/
def Expr.datum : Expr → Option Datum
  | .name ident => scope ident
  | .member target false field =>
      match target.datum with
      | some (.object properties) => if field ∈ properties then some (.entry field) else none
      | some (.entry accessor) => if field = "name" then some (.text (nameOf accessor)) else none
      | _ => none
  | _ => none

/-- What statements return that are run one after the other. -/
def Stmt.returned : List Stmt → Option Datum
  | .ret value :: _ => value.datum nameOf scope
  | .retIfNamed argument entry :: rest => do
      let given ← scope argument
      let name ← (Expr.member entry false "name").datum nameOf scope
      if given = name then entry.datum nameOf scope else returned rest
  | _ => none

end Lookup

section Lookup

variable {nameOf : String → String} {scope : String → Option Datum}
variable {holder : String} {accessors : List String}

/-- A reference to an entry of the holder is that entry. -/
theorem datum_entryRef {accessor : String}
    (hholder : scope holder = some (.object accessors))
    (hmem : accessor ∈ accessors) :
    (Wrapper.entryRef holder accessor).datum nameOf scope = some (.entry accessor) := by
  simp [Wrapper.entryRef, Expr.datum, hholder, hmem]

theorem mapM_datum_entryRef {entries : List String}
    (hholder : scope holder = some (.object accessors))
    (haccessors : ∀ entry ∈ entries, Name.safe entry ∈ accessors) :
    ((entries.map Name.safe).map (Wrapper.entryRef holder)).mapM (Expr.datum nameOf scope) =
      some (entries.map fun entry => .entry (Name.safe entry)) := by
  induction entries with
  | nil => rfl
  | cons entry rest ih =>
      have hentry : (Wrapper.entryRef holder (Name.safe entry)).datum nameOf scope =
          some (.entry (Name.safe entry)) :=
        datum_entryRef hholder (haccessors entry (by simp))
      have hrest := ih fun e he => haccessors e (by simp [he])
      rw [List.map_cons, List.map_cons, List.mapM_cons, hentry, hrest]
      rfl

/-- The branches of a lookup are tried in order, so the induction is over the entries that are
left; all of them have to be properties of the holder. -/
theorem returned_lookup {argument text : String} {entries : List String}
    (hholder : scope holder = some (.object accessors))
    (hargument : scope argument = some (.text text))
    (hnull : scope "null" = some .null)
    (haccessors : ∀ entry ∈ entries, Name.safe entry ∈ accessors)
    (hnames : ∀ entry ∈ entries, nameOf (Name.safe entry) = entry) :
    Stmt.returned nameOf scope
        ((entries.map Name.safe).map
          (fun a => .retIfNamed argument (Wrapper.entryRef holder a)) ++ [.ret (.name "null")]) =
      some (if text ∈ entries then .entry (Name.safe text) else .null) := by
  induction entries with
  | nil => simpa [Stmt.returned, Expr.datum] using hnull
  | cons entry rest ih =>
      have hentry : (Wrapper.entryRef holder (Name.safe entry)).datum nameOf scope =
          some (.entry (Name.safe entry)) :=
        datum_entryRef hholder (haccessors entry (by simp))
      have hname : nameOf (Name.safe entry) = entry := hnames entry (by simp)
      have hrest := ih (fun e he => haccessors e (by simp [he])) fun e he => hnames e (by simp [he])
      by_cases htext : text = entry
      · subst htext
        simp [Stmt.returned, Expr.datum, hentry, hname, hargument]
      · simpa [Stmt.returned, Expr.datum, hentry, hname, hargument, htext] using hrest

end Lookup

end Code

namespace Source
namespace File

open Code

/-- What the names in the body of a function stand for: parameters come before the objects of the
file. -/
def scope (F : File) (f : FunctionDef) (args : List Datum) (ident : String) : Option Datum :=
  if ident = "null" then some .null
  else (Dictionary.get? ((f.params.map ParameterDef.name).zip args) ident).or <|
    ((F.type? ident).filter (·.kind = .object)).map fun t =>
      .object (t.properties.map PropertyDef.name)

/-- What a function of a file returns. -/
def returns (F : File) (nameOf : String → String) (function : String) (args : List Datum) :
    Option Datum := do
  let f ← F.function? function
  let body ← f.body
  Stmt.returned nameOf (F.scope f args) body

/-- The elements of the array that a function of a file gives. -/
def lists (F : File) (nameOf : String → String) (function : String) : Option (List Datum) := do
  let f ← F.function? function
  match f.expression with
  | some (.call (.name "arrayOf") items) => items.mapM (Expr.datum nameOf (F.scope f []))
  | _ => none

end File
end Source

namespace Wrapper

open Source Code

/-- There is no file for an enumeration: an entry occurs twice, or a declaration of the session is
exported next to the enumeration under the name of the holder of its entries. -/
def Unlistable (ctx : Context) (e : EnumDecl) : Prop :=
  (∃ entry, 1 < e.entries.count entry) ∨
    ∃ package, (package, e.simpleName ++ "s") ∈ ctx.exportedNames ∧
      ctx.facadePackage package = ctx.facadePackage e.package

/-- A file lists the entries of an enumeration. -/
structure Enumerates (F : File) (e : EnumDecl) : Prop where
  /-- There is one object, with one property per entry in declaration order, each for the native
  entry of its own name. -/
  holder : ∃ t, F.types.filter (·.kind = .object) = [t] ∧ t.name = e.simpleName ++ "s" ∧
    t.properties.map PropertyDef.name = e.entries.map Name.safe ∧
    (t.properties.map PropertyDef.name).Nodup ∧
    t.properties.map PropertyDef.initializer = e.entries.map fun entry =>
      some ((entryRef (Name.nativeAlias e.simpleName) (Name.safe entry)).send false
        (Name.exporter e.simpleName))
  /-- The array has the properties of the object as its elements. -/
  values : ∀ nameOf, F.lists nameOf (e.simpleName ++ "_values") =
    some (e.entries.map fun entry => .entry (Name.safe entry))
  /-- The lookup finds every entry by its name, and nothing else. -/
  valueOf : ∀ nameOf : String → String, (∀ entry ∈ e.entries, nameOf (Name.safe entry) = entry) →
    ∀ text, F.returns nameOf (e.simpleName ++ "_valueOf") [.text text] =
      some (if text ∈ e.entries then .entry (Name.safe text) else .null)

section Refusals

variable {ctx : Context} {e : EnumDecl}

/-- A context declares a name in a package if some wrapper of that name goes to the same package. -/
theorem Context.declares_iff {package name : String} :
    ctx.declares package name = true ↔
      ∃ p, (p, name) ∈ ctx.exportedNames ∧ ctx.facadePackage p = ctx.facadePackage package := by
  rw [Context.declares, List.any_eq_true]
  constructor
  · rintro ⟨⟨p, n⟩, hmem, h⟩
    rw [Bool.and_eq_true, decide_eq_true_eq, decide_eq_true_eq] at h
    obtain ⟨rfl, hpackage⟩ := h
    exact ⟨p, hmem, hpackage⟩
  · rintro ⟨p, hmem, hpackage⟩
    exact ⟨_, hmem, by simp [hpackage]⟩

theorem exists_repeated_iff {entries : List String} :
    (∃ entry, 1 < entries.count entry) ↔ ¬ entries.Nodup := by
  rw [List.nodup_iff_count]
  simp

/-- The entries cannot be listed exactly if the condition on them is violated. -/
theorem unlistable_iff :
    Unlistable ctx e ↔ ∃ f, (Condition.entries e).Violated ctx f := by
  constructor
  · intro h
    by_cases hnodup : e.entries.Nodup
    · rcases h with hrepeated | hclash
      · exact absurd hnodup (exists_repeated_iff.1 hrepeated)
      · exact ⟨_, .holder hnodup (Context.declares_iff.2 hclash)⟩
    · exact ⟨_, .repeatedEntries hnodup⟩
  · rintro ⟨f, hf⟩
    cases hf with
    | repeatedEntries hrepeated => exact .inl (exists_repeated_iff.2 hrepeated)
    | holder _ hclash => exact .inr (Context.declares_iff.1 hclash)

/-- The only condition on an enumeration is that on its entries. -/
theorem ofEnumeration_eq_error_iff {f : Failure} :
    ofEnumeration ctx e = .error f ↔ (Condition.entries e).Violated ctx f := by
  rw [← Condition.check_eq_error_iff, Condition.check, ofEnumeration]
  cases checkEntries ctx e with
  | ok _ => simp [bind, Except.bind]
  | error _ => simp [bind, Except.bind]

theorem kind_of_violated_entries {f : Failure}
    (h : (Condition.entries e).Violated ctx f) :
    ∃ r, f = .refused r ∧ r.cause.kind = .unsupported := by
  cases h with
  | repeatedEntries _ => exact ⟨_, rfl, rfl⟩
  | holder _ _ => exact ⟨_, rfl, rfl⟩

end Refusals

section Files

variable {ctx : Context} {e : EnumDecl} {F : File}

/-- The type that an enumeration is shown as. -/
def shownAs (ctx : Context) (e : EnumDecl) : Shape :=
  { name := e.simpleName, package := ctx.facadePackage e.package }

/-- The file of an enumeration declares the class of the entries and the object that holds them. -/
theorem types_of_ofEnumeration
    (h : ofEnumeration ctx e = .ok F) :
    F.types = [entryClass e.simpleName e.toHeader.shape,
      entriesObject (Name.entriesHolder e.simpleName) (Name.nativeAlias e.simpleName) e.simpleName
        (shownAs ctx e) (e.entries.map Name.safe)] := by
  rw [ofEnumeration_eq_ok h]
  rfl

theorem type?_entriesHolder
    (h : ofEnumeration ctx e = .ok F) :
    F.type? (Name.entriesHolder e.simpleName) = some
      (entriesObject (Name.entriesHolder e.simpleName) (Name.nativeAlias e.simpleName) e.simpleName
        (shownAs ctx e) (e.entries.map Name.safe)) := by
  have hne := ne_entriesHolder e.simpleName
  simp [File.type?, types_of_ofEnumeration h, entryClass, entriesObject, hne]

theorem functions_of_ofEnumeration
    (h : ofEnumeration ctx e = .ok F) :
    F.functions = [importFunction e.simpleName (shownAs ctx e) e.toHeader.shape
        (.name entryProperty),
      exportFunction e.simpleName (shownAs ctx e) e.toHeader.shape
        (.call (.name e.simpleName) [.self]),
      valuesFunction (Name.entriesHolder e.simpleName) e.simpleName (shownAs ctx e)
        (e.entries.map Name.safe),
      valueOfFunction (Name.entriesHolder e.simpleName) e.simpleName (shownAs ctx e)
        (e.entries.map Name.safe)] := by
  rw [ofEnumeration_eq_ok h]
  rfl

/-- The functions of the file are told apart by the lengths of their names. -/
theorem function?_values
    (h : ofEnumeration ctx e = .ok F) :
    F.function? (e.simpleName ++ "_values") = some
      (valuesFunction (Name.entriesHolder e.simpleName) e.simpleName (shownAs ctx e)
        (e.entries.map Name.safe)) := by
  have himporter : Name.importer e.simpleName ≠ e.simpleName ++ "_values" :=
    Name.append_ne_append _ (by decide)
  have hexporter : Name.exporter e.simpleName ≠ e.simpleName ++ "_values" :=
    Name.append_ne_append _ (by decide)
  simp [File.function?, functions_of_ofEnumeration h, importFunction, exportFunction,
    valuesFunction, himporter, hexporter]

theorem function?_valueOf
    (h : ofEnumeration ctx e = .ok F) :
    F.function? (e.simpleName ++ "_valueOf") = some
      (valueOfFunction (Name.entriesHolder e.simpleName) e.simpleName (shownAs ctx e)
        (e.entries.map Name.safe)) := by
  have himporter : Name.importer e.simpleName ≠ e.simpleName ++ "_valueOf" :=
    Name.append_ne_append _ (by decide)
  have hexporter : Name.exporter e.simpleName ≠ e.simpleName ++ "_valueOf" :=
    Name.append_ne_append _ (by decide)
  simp [File.function?, functions_of_ofEnumeration h, importFunction, exportFunction,
    valuesFunction, valueOfFunction, himporter, hexporter]

/-- The holder is in the scope of every function whose parameters do not hide it. -/
theorem scope_entriesHolder
    (h : ofEnumeration ctx e = .ok F) {f : FunctionDef} {args : List Datum}
    (hparams : Dictionary.get? ((f.params.map ParameterDef.name).zip args)
      (Name.entriesHolder e.simpleName) = none) :
    F.scope f args (Name.entriesHolder e.simpleName) =
      some (.object (e.entries.map Name.safe)) := by
  have hnull : Name.entriesHolder e.simpleName ≠ "null" :=
    Name.entriesHolder_ne_of_getLast? _ (by decide)
  rw [File.scope, if_neg hnull, hparams, type?_entriesHolder h]
  simp [entriesObject, Function.comp_def]

/-- The function of the values lists all entries in order. -/
theorem lists_of_ofEnumeration
    (h : ofEnumeration ctx e = .ok F) (nameOf : String → String) :
    F.lists nameOf (e.simpleName ++ "_values") =
      some (e.entries.map fun entry => .entry (Name.safe entry)) := by
  rw [File.lists, function?_values h]
  exact mapM_datum_entryRef (scope_entriesHolder h rfl) fun entry hentry =>
    List.mem_map_of_mem hentry

/-- The function of a value finds the entry of a name, and nothing for any other text. -/
theorem returns_of_ofEnumeration
    (h : ofEnumeration ctx e = .ok F) {nameOf : String → String}
    (hnames : ∀ entry ∈ e.entries, nameOf (Name.safe entry) = entry) (text : String) :
    F.returns nameOf (e.simpleName ++ "_valueOf") [.text text] =
      some (if text ∈ e.entries then .entry (Name.safe text) else .null) := by
  have hparam : "name" ≠ Name.entriesHolder e.simpleName :=
    (Name.entriesHolder_ne_of_getLast? _ (by decide)).symm
  rw [File.returns, function?_valueOf h]
  refine returned_lookup (scope_entriesHolder h ?_) ?_ ?_ ?_ hnames
  · simp [valueOfFunction, Dictionary.get?, hparam]
  · simp [File.scope, valueOfFunction, Dictionary.get?]
  · simp [File.scope]
  · exact fun entry hentry => List.mem_map_of_mem hentry

/-- The file of an enumeration with different entries enumerates them. -/
theorem enumerates_of_ofEnumeration
    (h : ofEnumeration ctx e = .ok F)
    (hnodup : e.entries.Nodup) :
    Enumerates F e where
  holder := by
    have hproperties : ∀ wrapper, (entriesObject (Name.entriesHolder e.simpleName)
        (Name.nativeAlias e.simpleName) e.simpleName wrapper
        (e.entries.map Name.safe)).properties.map PropertyDef.name = e.entries.map Name.safe := by
      simp [entriesObject, Function.comp_def]
    refine ⟨_, by rw [types_of_ofEnumeration h]; rfl, rfl, hproperties _, ?_, ?_⟩
    · rw [hproperties]
      exact hnodup.map Name.safe_injective
    · simp [entriesObject, Function.comp_def]
  values := lists_of_ofEnumeration h
  valueOf _ hnames := returns_of_ofEnumeration h hnames

end Files

/-- There is no file for an enumeration exactly when an entry is repeated or the holder of the
entries clashes with a declaration of the session; otherwise the file lists the entries. -/
theorem enumerations_list_their_entries (ctx : Context) (e : EnumDecl) :
    ((∃ r, ofEnumeration ctx e = .error (.refused r) ∧ r.cause.kind = .unsupported) ↔
      Unlistable ctx e) ∧
    (¬ Unlistable ctx e → ∃ F, ofEnumeration ctx e = .ok F ∧ Enumerates F e) := by
  refine ⟨⟨?_, ?_⟩, ?_⟩
  · rintro ⟨r, herror, -⟩
    exact unlistable_iff.2 ⟨_, ofEnumeration_eq_error_iff.1 herror⟩
  · intro hunlistable
    obtain ⟨f, hf⟩ := unlistable_iff.1 hunlistable
    obtain ⟨r, rfl, hkind⟩ := kind_of_violated_entries hf
    exact ⟨r, ofEnumeration_eq_error_iff.2 hf, hkind⟩
  · intro hlistable
    cases hfile : ofEnumeration ctx e with
    | ok F =>
        have hnodup : e.entries.Nodup := by
          by_contra hrepeated
          exact hlistable (.inl (exists_repeated_iff.2 hrepeated))
        exact ⟨F, rfl, enumerates_of_ofEnumeration hfile hnodup⟩
    | error f => exact absurd (unlistable_iff.2 ⟨f, ofEnumeration_eq_error_iff.1 hfile⟩) hlistable

/-- Entries may be keywords or no identifiers at all, and the name of the holder may be in use in
another package. -/
theorem enumerations_list_their_entries_of_modes :
    let ctx : Context :=
      { table := {}, exportedNames := [("ui", "Mode"), ("audio", "Modes")] }
    let modes : EnumDecl :=
      { package := "ui", simpleName := "Mode", entries := ["on", "when", "`when`", "2x"] }
    ¬ Unlistable ctx modes ∧ ∃ F, ofEnumeration ctx modes = .ok F ∧ Enumerates F modes := by
  intro ctx modes
  have hlistable : ¬ Unlistable ctx modes := by
    rintro (hrepeated | hclash)
    · exact exists_repeated_iff.1 hrepeated (by decide)
    · exact absurd (Context.declares_iff.2 hclash) (by decide)
  exact ⟨hlistable, (enumerations_list_their_entries ctx modes).2 hlistable⟩

end Wrapper
end Facade
