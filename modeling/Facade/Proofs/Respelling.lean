import Facade.Proofs.Plan
import Facade.Source.Render
import Mathlib.Algebra.BigOperators.Group.List.Basic
import Mathlib.Data.List.TakeWhile
import Mathlib.Tactic.Ring

/-!
# Files with another name for a type

The printer writes the name of a type wherever the type stands, alone, as an argument or inside a
function type.

**Input.**  Two namers that differ in the name of one type, and a file.

**Algorithm.**  The letters `x` of a text are counted.  Line ends, indentation, separators and
keywords have none, so the count of a text is the sum of the counts of its parts, and every
occurrence of the type adds as many letters as its name has more.  Without an occurrence the texts
are the same.  Both are carried through the printer by one relation, form by form.

**Results.**
* `Shift`: the relation, with its rules for pairs, lists and functions that keep the count.
* `shift_name`: it holds of the two names of every type.
* `File.shift_renderBy`: it holds of the two texts of a file.
-/

namespace Facade

namespace Text

/-- The sum of the weights of a list. -/
def total {α : Type} (weigh : α → Nat) (items : List α) : Nat :=
  (items.map weigh).sum

section Total

variable {α β : Type} (weigh : α → Nat)

@[simp] theorem total_nil : total weigh [] = 0 := rfl

@[simp] theorem total_cons (a : α) (items : List α) :
    total weigh (a :: items) = weigh a + total weigh items := by
  simp [total]

@[simp] theorem total_append (items items' : List α) :
    total weigh (items ++ items') = total weigh items + total weigh items' := by
  simp [total]

theorem total_map (f : β → α) (items : List β) :
    total weigh (items.map f) = total (fun b => weigh (f b)) items := by
  simp [total, Function.comp_def]

theorem total_congr {weigh weigh' : α → Nat} {items : List α}
    (h : ∀ a, weigh a = weigh' a) :
    total weigh items = total weigh' items := by
  rw [funext h]

end Total

/-- The number of letters `x` in a text. -/
def weight (s : String) : Nat :=
  s.toList.count 'x'

@[simp] theorem weight_append (s t : String) :
    weight (s ++ t) = weight s + weight t := by
  simp [weight]

theorem count_intercalate {c : Char} {separator : List Char} (ls : List (List Char))
    (h : c ∉ separator) :
    (separator.intercalate ls).count c = total (List.count c) ls := by
  match ls with
  | [] => rfl
  | [l] => simp
  | l :: next :: rest =>
      have hseparator : separator.count c = 0 := List.count_eq_zero.2 h
      rw [List.intercalate_cons_cons, List.count_append, List.count_append, hseparator,
        count_intercalate (next :: rest) h, total_cons _ l, Nat.add_zero]

theorem weight_intercalate {separator : String} (ls : List String)
    (h : 'x' ∉ separator.toList) :
    weight (separator.intercalate ls) = total weight ls := by
  rw [weight, String.toList_intercalate, count_intercalate _ h, total_map]
  rfl

theorem weight_unlines (ls : List String) :
    weight (unlines ls) = total weight ls :=
  weight_intercalate ls (by decide)

/-- The lines of a text have all its letters. -/
theorem total_lines (s : String) :
    total weight (lines s) = weight s := by
  rw [lines, splitAt, total_map, weight]
  conv_rhs => rw [← intercalate_pieces '\n' s.toList]
  rw [count_intercalate _ (by decide)]
  exact total_congr fun cs => by simp [weight]

theorem count_dropWhile_isBlank (cs : List Char) :
    (cs.dropWhile isBlank).count 'x' = cs.count 'x' := by
  have hblank : (cs.takeWhile isBlank).count 'x' = 0 := by
    refine List.count_eq_zero.2 fun hx => ?_
    exact absurd (List.mem_takeWhile_imp hx) (by decide)
  conv_rhs => rw [← List.takeWhile_append_dropWhile (p := isBlank) (l := cs)]
  rw [List.count_append, hblank, Nat.zero_add]

/-- No letter is trimmed. -/
@[simp] theorem weight_trimEnd (s : String) :
    weight (trimEnd s) = weight s := by
  simp [weight, trimEnd, trimEndChars, count_dropWhile_isBlank]

theorem weight_indentBy {margin : String} (s : String)
    (h : weight margin = 0) :
    weight (indentBy margin s) = weight s := by
  rw [indentBy, weight_unlines, total_map, ← total_lines s]
  refine total_congr fun line => ?_
  split
  · next hblank =>
      have hnone : 'x' ∉ line.toList := fun hx =>
        absurd (List.all_eq_true.1 hblank 'x' hx) (by decide)
      exact (List.count_eq_zero.2 hnone).symm
  · rw [weight_append, h, Nat.zero_add]

/-- No letter is added by indenting. -/
theorem weight_indent (s : String) :
    weight (indent s) = weight s :=
  weight_indentBy s (by decide)

end Text

/-- The second text arises from the first when `k` occurrences of a name get `d` letters longer
each, and nothing else changes. -/
structure Shift {α : Type} (weigh : α → Nat) (d : Int) (k : Nat) (a b : α) : Prop where
  longer : (weigh b : Int) = weigh a + k * d
  same : k = 0 → a = b

namespace Shift

open Text

variable {α β : Type} {weigh : α → Nat} {weigh' : β → Nat} {d : Int} {k k' : Nat}

theorem refl (a : α) :
    Shift weigh d 0 a a :=
  ⟨by simp, fun _ => rfl⟩

theorem pair {a b : α} {a' b' : β}
    (h : Shift weigh d k a b)
    (h' : Shift weigh' d k' a' b') :
    Shift (fun p => weigh p.1 + weigh' p.2) d (k + k') (a, a') (b, b') where
  longer := by
    push_cast
    rw [h.longer, h'.longer]
    ring
  same hzero := by
    obtain ⟨rfl, rfl⟩ := Nat.add_eq_zero_iff.1 hzero
    rw [h.same rfl, h'.same rfl]

/-- A function that keeps weights keeps shifts. -/
theorem through {a b : α} (f : α → β)
    (hf : ∀ a, weigh' (f a) = weigh a)
    (h : Shift weigh d k a b) :
    Shift weigh' d k (f a) (f b) where
  longer := by rw [hf, hf, h.longer]
  same hzero := congrArg f (h.same hzero)

/-- Two texts that are shifted are shifted together as often as both. -/
theorem append {s s' t t' : String}
    (h : Shift weight d k s t)
    (h' : Shift weight d k' s' t') :
    Shift weight d (k + k') (s ++ s') (t ++ t') :=
  (h.pair h').through (fun p => p.1 ++ p.2) fun p => weight_append p.1 p.2

theorem append_left {s t : String} (head : String)
    (h : Shift weight d k s t) :
    Shift weight d k (head ++ s) (head ++ t) := by
  simpa using (refl head).append h

theorem append_right {s t : String} (tail : String)
    (h : Shift weight d k s t) :
    Shift weight d k (s ++ tail) (t ++ tail) := by
  simpa using h.append (refl tail)

section Lists

variable {as bs as' bs' : List α} {a b : α}

theorem cons
    (h : Shift weigh d k a b)
    (h' : Shift (total weigh) d k' as bs) :
    Shift (total weigh) d (k + k') (a :: as) (b :: bs) :=
  (h.pair h').through (fun p => p.1 :: p.2) fun p => total_cons weigh p.1 p.2

theorem cons_left (a : α)
    (h : Shift (total weigh) d k as bs) :
    Shift (total weigh) d k (a :: as) (a :: bs) := by
  simpa using (refl a).cons h

theorem concat
    (h : Shift (total weigh) d k as bs)
    (h' : Shift (total weigh) d k' as' bs') :
    Shift (total weigh) d (k + k') (as ++ as') (bs ++ bs') :=
  (h.pair h').through (fun p => p.1 ++ p.2) fun p => total_append weigh p.1 p.2

theorem concat_left (head : List α)
    (h : Shift (total weigh) d k as bs) :
    Shift (total weigh) d k (head ++ as) (head ++ bs) := by
  simpa using (refl head).concat h

theorem singleton
    (h : Shift weigh d k a b) :
    Shift (total weigh) d k [a] [b] :=
  h.cons (refl [])

/-- The items of a list are shifted as often as all of them together. -/
theorem map {ι : Type} {items : List ι} {f g : ι → α} {count : ι → Nat}
    (h : ∀ i ∈ items, Shift weigh d (count i) (f i) (g i)) :
    Shift (total weigh) d (items.map count).sum (items.map f) (items.map g) := by
  induction items with
  | nil => exact refl []
  | cons i rest ih =>
      exact (h i List.mem_cons_self).cons (ih fun j hj => h j (List.mem_cons_of_mem _ hj))

end Lists

/-- Joining texts adds no letter. -/
theorem intercalate {separator : String} {as bs : List String}
    (hseparator : 'x' ∉ separator.toList)
    (h : Shift (total weight) d k as bs) :
    Shift weight d k (separator.intercalate as) (separator.intercalate bs) :=
  h.through _ fun ls => weight_intercalate ls hseparator

end Shift

namespace Source

open Text Code

section Names

theorem weight_bracketed (args : List String) :
    weight (Shape.bracketed args) = total weight args := by
  rw [Shape.bracketed]
  split
  · next h => simp [List.isEmpty_iff.1 h, weight]
  · have hmarks : weight "<" = 0 ∧ weight ">" = 0 := by decide
    rw [weight_append, weight_append, weight_intercalate args (by decide), hmarks.1, hmarks.2,
      Nat.zero_add, Nat.add_zero]

theorem weight_arrow (args : List String) (nullable : Bool) :
    weight (Shape.arrow args nullable) = total weight args := by
  have hplain : weight ("(" ++ ", ".intercalate args.dropLast ++ ") -> " ++ args.getLastD "") =
      total weight args := by
    have hmarks : weight "(" = 0 ∧ weight ") -> " = 0 := by decide
    rw [weight_append, weight_append, weight_append, weight_intercalate _ (by decide), hmarks.1,
      hmarks.2, Nat.zero_add, Nat.add_zero]
    rcases List.eq_nil_or_concat args with rfl | ⟨front, last, rfl⟩
    · rfl
    · simp
  rw [Shape.arrow]
  split
  · have hmarks : weight "(" = 0 ∧ weight ")?" = 0 := by decide
    rw [weight_append, weight_append, hplain, hmarks.1, hmarks.2, Nat.zero_add, Nat.add_zero]
  · exact hplain

/-- How often the type of a key stands in a list, function types apart. -/
def occurrences (key : Key) (shapes : List Shape) : Nat :=
  shapes.countP fun s => !s.isFunction && s.key = key

variable {n n' : Namer} {d : Int} {key : Key}

/-- Two namers differ in the name of one type, which is `d` letters longer in the second. -/
def Respelled (n n' : Namer) (d : Int) (key : Key) (shapes : List Shape) : Prop :=
  ∀ s ∈ shapes, s.isFunction = false →
    Shift weight d (if s.key = key then 1 else 0) (n.rawName s.key) (n'.rawName s.key)

theorem Respelled.mono {shapes shapes' : List Shape}
    (h : Respelled n n' d key shapes)
    (hsubset : shapes' ⊆ shapes) :
    Respelled n n' d key shapes' :=
  fun s hs => h s (hsubset hs)

theorem respelled_append {shapes shapes' : List Shape} :
    Respelled n n' d key (shapes ++ shapes') ↔
      Respelled n n' d key shapes ∧ Respelled n n' d key shapes' :=
  List.forall_mem_append

theorem occurrences_append (shapes shapes' : List Shape) :
    occurrences key (shapes ++ shapes') = occurrences key shapes + occurrences key shapes' :=
  List.countP_append

theorem occurrences_flatMap {α : Type} (items : List α) (shapes : α → List Shape) :
    occurrences key (items.flatMap shapes) =
      (items.map fun i => occurrences key (shapes i)).sum :=
  List.countP_flatMap

/-- Names that are respelled in a whole are respelled in its parts. -/
theorem Respelled.of_mem_flatMap {α : Type} {items : List α} {shapes : α → List Shape}
    (h : Respelled n n' d key (items.flatMap shapes)) {i : α}
    (hi : i ∈ items) :
    Respelled n n' d key (shapes i) :=
  h.mono fun _ hs => List.mem_flatMap.2 ⟨i, hi, hs⟩

/-- The text of a type changes once for every occurrence of the respelled type in it. -/
theorem shift_name {s : Shape}
    (h : Respelled n n' d key s.parts) :
    Shift weight d (occurrences key s.parts) (n.name s) (n'.name s) := by
  induction s using Shape.induction with
  | step ident package args nullable ih =>
      rw [Mapping.parts_eq] at h ⊢
      have hargs : Shift (total weight) d (occurrences key (args.flatMap Shape.parts))
          (args.map n.name) (args.map n'.name) := by
        rw [occurrences_flatMap]
        refine Shift.map fun a ha => ih a ha ?_
        exact Respelled.of_mem_flatMap (h.mono (List.subset_cons_self _ _)) ha
      rw [Namer.name, Namer.name, Namer.nameAll_eq_map, Namer.nameAll_eq_map]
      cases hfunction : Shape.isFunction ⟨ident, package, args, nullable⟩ with
      | true =>
          rw [occurrences, List.countP_cons_of_neg (by simp [hfunction])]
          exact hargs.through (fun texts => Shape.arrow texts nullable)
            fun texts => weight_arrow texts nullable
      | false =>
          have hraw := h _ List.mem_cons_self hfunction
          have hcount : occurrences key (⟨ident, package, args, nullable⟩ ::
              args.flatMap Shape.parts) =
                (if Shape.key ⟨ident, package, args, nullable⟩ = key then 1 else 0) +
                  occurrences key (args.flatMap Shape.parts) := by
            rw [occurrences, List.countP_cons, occurrences, Nat.add_comm]
            simp [hfunction]
          rw [hcount]
          exact (hraw.append (hargs.through _ weight_bracketed)).append_right _

theorem shift_names {shapes : List Shape}
    (h : Respelled n n' d key (Shape.partsAll shapes)) :
    Shift (total weight) d (occurrences key (Shape.partsAll shapes)) (shapes.map n.name)
      (shapes.map n'.name) := by
  rw [Shape.partsAll_eq_flatMap] at h ⊢
  rw [occurrences_flatMap]
  exact Shift.map fun s hs => shift_name (h.of_mem_flatMap hs)

end Names

section Printer

variable {n n' : Namer} {d : Int} {key : Key}

theorem shift_annotationLines {annotations : List Shape}
    (h : Respelled n n' d key (Shape.partsAll annotations)) :
    Shift (total weight) d (occurrences key (Shape.partsAll annotations))
      (annotationLines n annotations) (annotationLines n' annotations) := by
  rw [Shape.partsAll_eq_flatMap] at h ⊢
  rw [occurrences_flatMap]
  exact Shift.map fun a ha => (shift_name (h.of_mem_flatMap ha)).append_left "@"

theorem parameterParts_eq_flatMap (params : List ParameterDef) :
    parameterParts params = params.flatMap fun p => p.type.parts := by
  rw [parameterParts, Shape.partsAll_eq_flatMap, List.flatMap_map]

/-- Parameters change once for every occurrence in their types. -/
theorem shift_parameters {params : List ParameterDef}
    (h : Respelled n n' d key (parameterParts params)) :
    Shift (total weight) d (occurrences key (parameterParts params))
      (params.map (ParameterDef.render n)) (params.map (ParameterDef.render n')) := by
  rw [parameterParts_eq_flatMap] at h ⊢
  rw [occurrences_flatMap]
  exact Shift.map fun p hp => (shift_name (h.of_mem_flatMap hp)).append_left _

theorem shift_parametersText {params : List ParameterDef}
    (h : Respelled n n' d key (parameterParts params)) :
    Shift weight d (occurrences key (parameterParts params)) (parametersText n params)
      (parametersText n' params) :=
  (((shift_parameters h).intercalate (by decide)).append_left "(").append_right ")"

/-- An optional type, with a text before and after it. -/
theorem shift_optional {type : Option Shape} (before after : String)
    (h : Respelled n n' d key (optionalParts type)) :
    Shift weight d (occurrences key (optionalParts type))
      (type.elim "" fun s => before ++ n.name s ++ after)
      (type.elim "" fun s => before ++ n'.name s ++ after) := by
  cases type with
  | none => exact Shift.refl ""
  | some s =>
      simp only [optionalParts, Option.toList_some, Shape.partsAll, List.append_nil] at h ⊢
      exact ((shift_name h).append_left before).append_right after

/-- A property changes once for every occurrence in it. -/
theorem PropertyDef.shift_render {p : PropertyDef}
    (h : Respelled n n' d key p.references) :
    Shift (total weight) d (occurrences key p.references) (p.render n) (p.render n') := by
  obtain ⟨htype, hannotations⟩ := respelled_append.1 h
  have hhead := (shift_name htype).append_left
    (modifiersText p.modifiers ++ (if p.isMutable then "var " else "val ") ++ p.name ++ ": ")
  rw [PropertyDef.references, occurrences_append, Nat.add_comm, PropertyDef.render,
    PropertyDef.render]
  refine (shift_annotationLines hannotations).concat ?_
  cases p.initializer with
  | some value => exact ((hhead.append_right " = ").append_right value.source).singleton
  | none => exact hhead.cons (Shift.refl _)

/-- A function up to its body. -/
def FunctionDef.head (n : Namer) (g : FunctionDef) : String :=
  modifiersText g.modifiers ++ "fun " ++ (g.receiver.elim "" fun s => "" ++ n.name s ++ ".") ++
    g.name ++ parametersText n g.params ++ (g.result.elim "" fun s => ": " ++ n.name s ++ "")

theorem FunctionDef.render_eq (n : Namer) (g : FunctionDef) :
    g.render n = annotationLines n g.annotations ++
      match g.expression, g.body with
      | some value, _ => [g.head n ++ " = " ++ value.source]
      | none, some statements =>
          (g.head n ++ " \x7b") :: (statements.map (fun s => indent s.source) ++ ["\x7d"])
      | none, none => [g.head n] := by
  rw [FunctionDef.render, FunctionDef.head]
  cases g.receiver <;> cases g.result <;> cases g.expression <;> cases g.body <;> simp

/-- A function changes once for every occurrence in it. -/
theorem FunctionDef.shift_render {g : FunctionDef}
    (h : Respelled n n' d key g.references) :
    Shift (total weight) d (occurrences key g.references) (g.render n) (g.render n') := by
  obtain ⟨hsignature, hannotations⟩ := respelled_append.1 h
  obtain ⟨hinputs, hresult⟩ := respelled_append.1 hsignature
  obtain ⟨hreceiver, hparams⟩ := respelled_append.1 hinputs
  have hhead : Shift weight d
      (occurrences key (optionalParts g.receiver) + occurrences key (parameterParts g.params) +
        occurrences key (optionalParts g.result)) (g.head n) (g.head n') :=
    ((((shift_optional "" "." hreceiver).append_left _).append_right g.name).append
      (shift_parametersText hparams)).append (shift_optional ": " "" hresult)
  rw [FunctionDef.references, occurrences_append, Nat.add_comm, occurrences_append,
    occurrences_append, FunctionDef.render_eq, FunctionDef.render_eq]
  refine (shift_annotationLines hannotations).concat ?_
  cases g.expression with
  | some value => exact ((hhead.append_right " = ").append_right value.source).singleton
  | none =>
      cases g.body with
      | some statements => exact (hhead.append_right " \x7b").cons (Shift.refl _)
      | none => exact hhead.singleton

theorem ConstructorDef.shift_render {c : ConstructorDef}
    (h : Respelled n n' d key (parameterParts c.params)) :
    Shift weight d (occurrences key (parameterParts c.params)) (c.render n) (c.render n') :=
  ((shift_parametersText h).append_left _).append_right _

theorem total_commaLines (ls : List String) :
    total weight (commaLines ls) = total weight ls := by
  fun_induction commaLines ls with
  | case1 => rfl
  | case2 line => rfl
  | case3 line next rest ih =>
      have hcomma : weight "," = 0 := by decide
      rw [total_cons, total_cons, ih, weight_append, hcomma, Nat.add_zero]

/-- Empty lines between blocks add no letter. -/
theorem total_separated (blocks : List (List String)) :
    total weight (separated blocks) = total (total weight) blocks := by
  fun_induction separated blocks with
  | case1 => rfl
  | case2 block => simp
  | case3 block next rest ih =>
      have hempty : weight "" = 0 := by decide
      rw [total_append, total_cons, total_cons, ih, hempty, Nat.zero_add]

theorem headLines_of_params (n : Namer) (head : String) {c : ConstructorDef}
    (h : c.params ≠ []) :
    headLines n head (some c) =
      ((if c.modifiers.isEmpty then head ++ "("
          else head ++ " " ++ " ".intercalate c.modifiers ++ " constructor(") ::
        commaLines (c.params.map fun p => indentation ++ p.render n), ")") := by
  simp [headLines, h]

/-- The head of a type: some lines, and the start of one more. -/
theorem shift_headLines (head : String) {primary : Option ConstructorDef}
    (h : Respelled n n' d key
      (parameterParts (primary.toList.flatMap ConstructorDef.params))) :
    Shift (fun p => total weight p.1 + weight p.2) d
      (occurrences key (parameterParts (primary.toList.flatMap ConstructorDef.params)))
      (headLines n head primary) (headLines n' head primary) := by
  cases primary with
  | none => exact Shift.refl _
  | some c =>
      have hparams : (some c).toList.flatMap ConstructorDef.params = c.params := by simp
      rw [hparams] at h ⊢
      by_cases hempty : c.params = []
      · -- without parameters no type is written
        have hsame : headLines n head (some c) = headLines n' head (some c) := by
          simp [headLines, hempty]
        rw [hsame, hempty]
        exact Shift.refl _
      · have hindented : Shift (total weight) d (occurrences key (parameterParts c.params))
            (c.params.map fun p => indentation ++ p.render n)
            (c.params.map fun p => indentation ++ p.render n') := by
          rw [parameterParts_eq_flatMap] at h ⊢
          rw [occurrences_flatMap]
          exact Shift.map fun p hp =>
            ((shift_name (h.of_mem_flatMap hp)).append_left _).append_left _
        rw [headLines_of_params n head hempty, headLines_of_params n' head hempty]
        exact ((hindented.through _ total_commaLines).cons_left _).pair (Shift.refl ")")

/-- The supertypes of a type change once for every occurrence in them. -/
theorem shift_supersText {t : TypeDef}
    (hsuperclass : Respelled n n' d key (optionalParts t.superclass))
    (hinterfaces : Respelled n n' d key (Shape.partsAll t.interfaces)) :
    Shift weight d
      (occurrences key (optionalParts t.superclass) +
        occurrences key (Shape.partsAll t.interfaces)) (supersText n t) (supersText n' t) := by
  have hsupers : Shift (total weight) d
      (occurrences key (optionalParts t.superclass) +
        occurrences key (Shape.partsAll t.interfaces))
      (t.superclass.toList.map (fun s => n.name s ++ "()") ++ t.interfaces.map n.name)
      (t.superclass.toList.map (fun s => n'.name s ++ "()") ++ t.interfaces.map n'.name) := by
    refine Shift.concat ?_ (shift_names hinterfaces)
    rw [optionalParts, Shape.partsAll_eq_flatMap] at hsuperclass ⊢
    rw [occurrences_flatMap]
    exact Shift.map fun s hs => (shift_name (hsuperclass.of_mem_flatMap hs)).append_right "()"
  refine hsupers.through (fun supers =>
    if supers.isEmpty then "" else " : " ++ ", ".intercalate supers) fun supers => ?_
  split
  · next h => simp [List.isEmpty_iff.1 h, weight]
  · have hcolon : weight " : " = 0 := by decide
    rw [weight_append, weight_intercalate supers (by decide), hcolon, Nat.zero_add]

theorem TypeDef.shift_blocks {t : TypeDef}
    (hproperties : Respelled n n' d key (t.properties.flatMap PropertyDef.references))
    (hconstructors :
      Respelled n n' d key (t.constructors.flatMap fun c => parameterParts c.params))
    (hfunctions : Respelled n n' d key (t.functions.flatMap FunctionDef.references)) :
    Shift (total (total weight)) d
      (occurrences key (t.properties.flatMap PropertyDef.references) +
        occurrences key (t.constructors.flatMap fun c => parameterParts c.params) +
        occurrences key (t.functions.flatMap FunctionDef.references)) (t.blocks n)
      (t.blocks n') := by
  refine Shift.concat (Shift.concat ?_ ?_) ?_
  · rw [occurrences_flatMap]
    exact Shift.map fun p hp => PropertyDef.shift_render (hproperties.of_mem_flatMap hp)
  · rw [occurrences_flatMap]
    exact Shift.map fun c hc =>
      (ConstructorDef.shift_render (hconstructors.of_mem_flatMap hc)).singleton
  · rw [occurrences_flatMap]
    exact Shift.map fun g hg => FunctionDef.shift_render (hfunctions.of_mem_flatMap hg)

/-- The lines of a type after its annotations, from its head, supertypes and members. -/
def assembled (parts : (List String × String) × String × List (List String)) : List String :=
  let head := parts.1.2 ++ parts.2.1
  parts.1.1 ++
    if parts.2.2.isEmpty then [head]
    else (head ++ " \x7b") :: (separated (parts.2.2.map (List.map indent)) ++ ["\x7d"])

theorem total_assembled (parts : (List String × String) × String × List (List String)) :
    total weight (assembled parts) =
      total weight parts.1.1 + weight parts.1.2 +
        (weight parts.2.1 + total (total weight) parts.2.2) := by
  obtain ⟨⟨opening, last⟩, supers, blocks⟩ := parts
  have hindented : total (total weight) (blocks.map (List.map indent)) =
      total (total weight) blocks := by
    rw [total_map]
    refine total_congr fun block => ?_
    rw [total_map]
    exact total_congr weight_indent
  have hbraces : weight " \x7b" = 0 ∧ weight "\x7d" = 0 := by decide
  rw [assembled]
  dsimp only
  split
  · next h => simp [List.isEmpty_iff.1 h, Nat.add_assoc]
  · simp only [total_append, total_cons, total_nil, weight_append, total_separated, hindented,
      hbraces.1, hbraces.2]
    omega

/-- The lines of a type are its documentation, its annotations, and its head with the blocks of its
members. -/
theorem TypeDef.render_eq (n : Namer) (t : TypeDef) :
    t.render n = docLines t.doc ++ (annotationLines n t.annotations ++
      assembled (headLines n (modifiersText t.modifiers ++ t.kind.keyword ++ " " ++ t.name)
        t.primary, supersText n t, t.blocks n)) := by
  simp [TypeDef.render, assembled]

/-- A type changes once for every occurrence in it, also in its members. -/
theorem TypeDef.shift_render {t : TypeDef}
    (h : Respelled n n' d key t.references) :
    Shift (total weight) d (occurrences key t.references) (t.render n) (t.render n') := by
  simp only [TypeDef.references, respelled_append] at h
  obtain ⟨⟨⟨⟨⟨⟨hannotations, hprimary⟩, hsuperclass⟩, hinterfaces⟩, hproperties⟩,
    hconstructors⟩, hfunctions⟩ := h
  have hparts := ((shift_headLines (modifiersText t.modifiers ++ t.kind.keyword ++ " " ++ t.name)
    hprimary).pair ((shift_supersText hsuperclass hinterfaces).pair
      (t.shift_blocks hproperties hconstructors hfunctions))).through assembled total_assembled
  have hcount : occurrences key t.references =
      occurrences key (Shape.partsAll t.annotations) +
        (occurrences key (parameterParts (t.primary.toList.flatMap ConstructorDef.params)) +
          (occurrences key (optionalParts t.superclass) +
            occurrences key (Shape.partsAll t.interfaces) +
            (occurrences key (t.properties.flatMap PropertyDef.references) +
              occurrences key (t.constructors.flatMap fun c => parameterParts c.params) +
              occurrences key (t.functions.flatMap FunctionDef.references)))) := by
    simp only [TypeDef.references, occurrences_append]
    omega
  rw [hcount, TypeDef.render_eq, TypeDef.render_eq]
  exact ((shift_annotationLines hannotations).concat hparts).concat_left _

theorem MemberDef.shift_render {m : MemberDef}
    (h : Respelled n n' d key m.references) :
    Shift (total weight) d (occurrences key m.references) (m.render n) (m.render n') := by
  cases m with
  | type t => exact t.shift_render h
  | function g => exact g.shift_render h
  | property p => exact p.shift_render h

/-- Tidying a text adds and takes no letter. -/
theorem weight_tidied (ls : List String) :
    weight (tidied ls) = total weight ls := by
  have hend : weight "\n" = 0 := by decide
  rw [tidied, weight_append, weight_unlines, total_map, total_congr weight_trimEnd, total_lines,
    weight_unlines, hend, Nat.add_zero]

/-- Every occurrence of a type makes the text longer by as much as its name. -/
theorem File.shift_renderBy {f : File}
    (himports : n.imports = n'.imports)
    (h : Respelled n n' d key f.references) :
    Shift weight d (occurrences key f.references) (f.renderBy n) (f.renderBy n') := by
  have himports : n.importsOf f = n'.importsOf f := by
    rw [Namer.importsOf, Namer.importsOf, Namer.sortedImports, Namer.sortedImports, himports]
  have hmembers : Shift (total (total weight)) d (occurrences key f.references)
      (f.members.map (MemberDef.render n)) (f.members.map (MemberDef.render n')) := by
    rw [File.references, occurrences_flatMap]
    exact Shift.map fun m hm => m.shift_render (h.of_mem_flatMap hm)
  rw [File.renderBy, File.renderBy, himports]
  exact ((hmembers.through _ total_separated).concat_left _).through _ weight_tidied

end Printer

end Source

end Facade
