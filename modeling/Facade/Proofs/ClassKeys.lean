import Facade.Proofs.Descriptions
import Facade.Proofs.TypeNames
import Facade.Session.Basic

/-!
# Keys of compiled classes

A class is described under its package and its simple name.  Other classes refer to it by its
binary name, in which the classes around a nested class stand before the simple name.  The two keys
are the same exactly for classes that are not nested.

**Input.**  A compiled class whose names are those of the virtual machine.

**Algorithm.**  The binary name of a class is its package, a dot, what encloses the class and its
simple name.  Replacing the nesting sign by a dot keeps the length of a name, so what encloses a
nested class never disappears.

**Results.**
* `ownKey_qualified`: the key that a binary name stands for.
* `dotted_eq_iff`: when that key has the simple name of the class.
* `classes_keyed_alike_iff_top_level`: when a class and the permitted subclasses of a sealed class
  are described under the keys by which they are referred to.
-/

namespace Facade

namespace Compiled

/-- The name of a nested class in the words of the source. -/
def dotted (name : String) : String :=
  Text.replaceChar '$' "." name

theorem toList_dotted (name : String) :
    (dotted name).toList = name.toList.map fun c => if c = '$' then '.' else c := by
  rw [dotted, Text.replaceChar, String.toList_ofList, List.map_eq_flatMap]
  refine List.flatMap_congr fun c _ => ?_
  split
  · rfl
  · rfl

/-- Nothing is lost when nesting signs are replaced. -/
theorem dotted_eq_iff {enclosing name : String} :
    dotted (enclosing ++ name) = name ↔ enclosing = "" ∧ '$' ∉ name.toList := by
  rw [← String.toList_inj, toList_dotted, String.toList_append]
  constructor
  · intro h
    -- Every character is replaced by one character, so the length of `enclosing` must be zero.
    have hlength := congrArg List.length h
    rw [List.length_map, List.length_append] at hlength
    have hempty : enclosing.toList = [] := List.length_eq_zero_iff.1 (by omega)
    rw [hempty, List.nil_append] at h
    have hkept := List.map_eq_map_iff.1 (h.trans (List.map_id _).symm)
    refine ⟨String.toList_eq_nil_iff.1 hempty, fun hmem => ?_⟩
    simpa using hkept '$' hmem
  · rintro ⟨rfl, hplain⟩
    have hkept : ∀ c ∈ name.toList, (if c = '$' then '.' else c) = c :=
      fun c hc => if_neg fun (h : c = '$') => hplain (h ▸ hc)
    exact (List.map_congr_left hkept).trans (List.map_id _)

/-- The key of a dotted name is its package and its name with the nesting signs replaced. -/
theorem ownKey_qualified {k : Key}
    (h : k.IsPlain) :
    Shape.ownKey k.qualified = ⟨k.package, dotted k.name⟩ := by
  by_cases hpackaged : k.IsPackaged
  · rw [Shape.ownKey, Key.cutLast?_qualified hpackaged h]
    simp [dotted]
  · have hpackage : k.package = "" := not_not.1 hpackaged
    have hname : k.qualified = k.name := by simp [Key.qualified, hpackage]
    rw [Shape.ownKey, hname, Text.cutLast?_eq_none h]
    simp [dotted, hpackage]

/-- The binary name stands for no type that has a name of its own. -/
def KeepsName (binaryName : String) : Prop :=
  (Shape.primitives.get? binaryName).or (Shape.boxed.get? binaryName) = none ∧
    Shape.knownClasses.get? binaryName = none ∧ Shape.functionInterface? binaryName = none

instance (binaryName : String) : Decidable (KeepsName binaryName) :=
  inferInstanceAs (Decidable (_ ∧ _ ∧ _))

/-- A name that is not translated is referred to by its own key. -/
theorem key_ofBinaryName {binaryName : String}
    (h : KeepsName binaryName) (args : List Shape) (nullable : Bool) :
    (Shape.ofBinaryName binaryName args nullable).key = Shape.ownKey binaryName := by
  obtain ⟨hprimitive, hknown, hfunction⟩ := h
  rw [Shape.ofBinaryName, hprimitive, hknown, hfunction]
  rfl

/-- The names that the virtual machine tells of a class: the binary name is the package and, after
a dot, what encloses the class and its simple name. -/
structure ClassNames.NamedIn (n : ClassNames) (enclosing : String) : Prop where
  name : n.name = Key.qualified ⟨n.package, enclosing ++ n.simpleName⟩
  plain : Key.IsPlain ⟨n.package, enclosing ++ n.simpleName⟩

/-- The key under which a class is described, compared with the type that refers to it. -/
structure KeyedAs (n : ClassNames) (enclosing : String) (key : Key) (reference : Shape) : Prop where
  refers : (TypeRef.named n.name).shape = .ok reference
  described : key = ⟨n.package, n.simpleName⟩
  referred : reference.key = ⟨n.package, dotted (enclosing ++ n.simpleName)⟩
  /-- The keys are the same exactly if nothing encloses the class, nor looks as if it did. -/
  alike : key = reference.key ↔ enclosing = "" ∧ '$' ∉ n.simpleName.toList

/-- A class that is named in its enclosing classes has one key by its description and one by
references to it. -/
theorem exists_keyedAs {n : ClassNames} {enclosing : String}
    (hnamed : n.NamedIn enclosing)
    (hkeeps : KeepsName n.name) :
    ∃ reference, KeyedAs n enclosing ⟨n.package, n.simpleName⟩ reference := by
  have hreferred : (Shape.ofBinaryName n.name [] false).key =
      ⟨n.package, dotted (enclosing ++ n.simpleName)⟩ := by
    rw [key_ofBinaryName hkeeps, hnamed.name, ownKey_qualified hnamed.plain]
  refine ⟨_, rfl, rfl, hreferred, ?_⟩
  rw [hreferred, ← dotted_eq_iff]
  exact ⟨fun h => (Key.mk.inj h).2.symm, fun h => by rw [h]⟩

section Described

variable {c : Class} {origin : Option Location} {d : Declaration}

/-- What the description of a class takes over from its names and from those of its permitted
subclasses. -/
structure TakesNames (c : Class) (n : ClassNames) (d : Declaration) : Prop where
  native : ∃ native name, Session.nativeType d = .ok (native, name) ∧
    native.key = ⟨n.package, n.simpleName⟩
  permitted : ∀ s, d = .sealed s → ∃ permitted, c.model.permitted = .ok permitted ∧
    s.subclasses = permitted.map fun sub => ⟨sub.package, sub.simpleName⟩

/-- A description takes its package and its name from the class. -/
theorem takesNames_of_describe
    (h : c.describe origin = .ok d) :
    ∃ n, c.names = .ok n ∧ TakesNames c n d := by
  obtain ⟨n, hn, ⟨entries, rfl⟩ | hmembers⟩ := Class.describe_eq_ok h
  · exact ⟨n, hn, ⟨_, _, rfl, rfl⟩, fun s hs => by simp at hs⟩
  · refine ⟨n, hn, ?_⟩
    obtain ⟨typeParams, members, -, -, ⟨supers, -, rfl⟩ | ⟨params, subclasses, -, hsub, rfl⟩ |
      ⟨supers, params, -, -, rfl⟩⟩ := Class.describeMembers_eq_ok hmembers
    · exact ⟨⟨_, _, rfl, rfl⟩, fun s hs => by simp at hs⟩
    · refine ⟨⟨_, _, rfl, rfl⟩, fun s hs => ?_⟩
      obtain rfl := Declaration.sealed.inj hs
      obtain ⟨permitted, hpermitted, hsub⟩ := Outcome.bind_eq_ok_iff.1 hsub
      exact ⟨permitted, hpermitted, (Except.ok.inj hsub).symm⟩
    · exact ⟨⟨_, _, rfl, rfl⟩, fun s hs => by simp at hs⟩

/-- The keys under which a class and its permitted subclasses are described. -/
structure KeyedAlike (c : Class) (d : Declaration) : Prop where
  own : ∃ n, c.names = .ok n ∧ n.name = c.name ∧
    ∀ enclosing, n.NamedIn enclosing → KeepsName n.name →
      ∃ native name reference, Session.nativeType d = .ok (native, name) ∧
        KeyedAs n enclosing native.key reference
  permitted : ∀ s, d = .sealed s → ∃ permitted, c.model.permitted = .ok permitted ∧
    List.Forall₂ (fun n sub => ∀ enclosing, n.NamedIn enclosing → KeepsName n.name →
      ∃ reference, KeyedAs n enclosing sub.shape.key reference) permitted s.subclasses

/-- A class that is described, and every permitted subclass of a sealed class, is described under
the key by which others refer to it exactly if no class encloses it. -/
theorem classes_keyed_alike_iff_top_level
    (h : c.describe origin = .ok d) :
    KeyedAlike c d where
  own := by
    obtain ⟨n, hn, htakes⟩ := takesNames_of_describe h
    obtain ⟨simpleName, -, hnames⟩ := Outcome.bind_eq_ok_iff.1 hn
    refine ⟨n, hn, by rw [← Except.ok.inj hnames], fun enclosing hnamed hkeeps => ?_⟩
    obtain ⟨native, name, hnative, hkey⟩ := htakes.native
    obtain ⟨reference, hreference⟩ := exists_keyedAs hnamed hkeeps
    exact ⟨native, name, reference, hnative, hkey ▸ hreference⟩
  permitted s hs := by
    obtain ⟨n, -, htakes⟩ := takesNames_of_describe h
    obtain ⟨permitted, hpermitted, hsubclasses⟩ := htakes.permitted s hs
    refine ⟨permitted, hpermitted, ?_⟩
    rw [hsubclasses, List.forall₂_map_right_iff]
    exact List.forall₂_same.2 fun sub _ enclosing hnamed hkeeps => exists_keyedAs hnamed hkeeps

/-- The names of a class that is nested in another one. -/
def circleNames : ClassNames := ⟨"app.Figure$Circle", "app", "Circle"⟩

/-- A sealed class with a nested subclass and one that stands on its own. -/
def figure : Class where
  name := "app.Figure"
  model :=
    { package := "app"
      simpleName := .ok "Figure"
      isSealed := true
      permitted := .ok [circleNames, ⟨"app.Square", "app", "Square"⟩] }

def figureDecl : SealedDecl :=
  { package := "app", simpleName := "Figure", subclasses := [⟨"app", "Circle"⟩, ⟨"app", "Square"⟩] }

theorem describe_figure :
    figure.describe none = .ok (.sealed figureDecl) := by
  decide +kernel

theorem namedIn_circle :
    circleNames.NamedIn "Figure$" :=
  ⟨by decide +kernel, by decide +kernel⟩

theorem classes_keyed_alike_iff_top_level_of_figure :
    figure.describe none = .ok (.sealed figureDecl) ∧
      (ClassNames.NamedIn ⟨"app.Figure", "app", "Figure"⟩ "" ∧ KeepsName "app.Figure") ∧
      ∃ native name reference, Session.nativeType (.sealed figureDecl) = .ok (native, name) ∧
        (TypeRef.named "app.Figure").shape = .ok reference ∧ native.key = reference.key := by
  have hnamed : ClassNames.NamedIn ⟨"app.Figure", "app", "Figure"⟩ "" :=
    ⟨by decide +kernel, by decide +kernel⟩
  have hkeeps : KeepsName "app.Figure" := by decide +kernel
  obtain ⟨n, hn, -, hkeyed⟩ := (classes_keyed_alike_iff_top_level describe_figure).own
  obtain rfl : (⟨"app.Figure", "app", "Figure"⟩ : ClassNames) = n := Except.ok.inj hn
  obtain ⟨native, name, reference, hnative, hkeyed⟩ := hkeyed "" hnamed hkeeps
  refine ⟨describe_figure, ⟨hnamed, hkeeps⟩, native, name, reference, hnative, hkeyed.refers, ?_⟩
  exact hkeyed.alike.2 ⟨rfl, by decide +kernel⟩

/-- A nested class is described under one key and referred to by another, also where a sealed class
lists it. -/
theorem exists_nested_class_keyed_apart :
    ∃ c n d native name reference, Class.describe c none = .ok d ∧
      c.names = .ok n ∧ n.NamedIn "Figure$" ∧ KeepsName n.name ∧
      Session.nativeType d = .ok (native, name) ∧
      (TypeRef.named n.name).shape = .ok reference ∧ native.key ≠ reference.key ∧
      ∃ base permitted s sub, Class.describe base none = .ok (.sealed s) ∧
        base.model.permitted = .ok permitted ∧ permitted.head? = some n ∧
        s.subclasses.head? = some sub ∧ sub.shape.key ≠ reference.key :=
  ⟨⟨"app.Figure$Circle", { package := "app", simpleName := .ok "Circle" }⟩, circleNames,
    .cls { package := "app", simpleName := "Circle" }, { name := "Circle", package := "app" },
    "Circle", .ofBinaryName "app.Figure$Circle" [] false, by decide +kernel, rfl, namedIn_circle,
    by decide +kernel, by decide +kernel, rfl, by decide +kernel, figure, _, figureDecl,
    ⟨"app", "Circle"⟩, describe_figure, rfl, rfl, rfl, by decide +kernel⟩

end Described

end Compiled
end Facade
