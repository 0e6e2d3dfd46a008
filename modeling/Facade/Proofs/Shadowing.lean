import Facade.Proofs.ConversionCode
import Facade.Proofs.Faults
import Facade.Proofs.Mentions

/-!
# Names of nested lambdas

The lambda for a function takes names that the called expression does not mention.  What it calls
need not mention all that is in scope: an argument is called by its own name only, an element of a
collection is called `it`, and a function that was checked for null is called `fn`.

**Input.**  A table of a session, a direction and a type that can be converted.

**Algorithm.**  The conversion of a result calls the function with all its arguments, so that the
lambda for a result avoids everything in scope.  The lambda for an argument, for an element or for a
nullable function starts over with the first short names.

**Results.**
* `Table.clear_of_chained`: if only results are functions with parameters, no name is taken twice.
* `Table.chained_of_avoids`: a name of any other function is taken twice for some expression.
* `lambdas_shadow_nothing_iff`: the two together.
-/

namespace Facade

namespace Text

variable {text after word : List Char}

/-- Characters that belong to no word do not add any. -/
theorem scanIdentifiers_append_of_not_isWord
    (h : ∀ c ∈ after, isWord c = false)
    (pending : List Char) :
    scanIdentifiers pending (text ++ after) = scanIdentifiers pending text := by
  have hafter : ∀ {after : List Char}, (∀ c ∈ after, isWord c = false) →
      scanIdentifiers [] after = [] := by
    intro after h
    induction after with
    | nil => rfl
    | cons c rest ih =>
        obtain ⟨hc, hrest⟩ := List.forall_mem_cons.1 h
        have hstart : ¬ isScanStart c = true := fun h => by simp [isWord_of_isScanStart h] at hc
        rw [scanIdentifiers, if_neg hstart, ih hrest]
  induction text generalizing pending with
  | nil =>
      rw [List.nil_append]
      cases pending with
      | nil => exact hafter h
      | cons p ps =>
          cases after with
          | nil => rfl
          | cons c rest =>
              obtain ⟨hc, hrest⟩ := List.forall_mem_cons.1 h
              simp [scanIdentifiers, hc, hafter hrest]
  | cons c rest ih =>
      cases pending with
      | nil => simp only [List.cons_append, scanIdentifiers, ih]
      | cons p ps => simp only [List.cons_append, scanIdentifiers, ih]

theorem scanIdentifiers_of_isWord
    (h : ∀ c ∈ word, isWord c = true)
    (p : Char) (ps : List Char) :
    scanIdentifiers (p :: ps) word = [String.ofList ((p :: ps).reverse ++ word)] := by
  induction word generalizing p ps with
  | nil => simp [scanIdentifiers]
  | cons c rest ih =>
      obtain ⟨hc, hrest⟩ := List.forall_mem_cons.1 h
      rw [scanIdentifiers, if_pos hc, ih hrest]
      simp

end Text

namespace Name

theorem short_zero :
    short 0 = "a" := by
  rw [short, shortLetters]
  rfl

/-- The only identifier in a short name is the name. -/
theorem identifiers_short (i : Nat) :
    Text.identifiers (short i) = [short i] := by
  have hletters : ∀ c ∈ shortLetters i, Text.isScanStart c = true :=
    fun c hc => Text.isScanStart_of_mem_shortLetters hc
  rw [short, Text.identifiers, String.toList_ofList]
  obtain ⟨c, word, hcons⟩ := List.exists_cons_of_ne_nil (shortLetters_ne_nil i)
  rw [hcons] at hletters ⊢
  obtain ⟨hc, hword⟩ := List.forall_mem_cons.1 hletters
  rw [Text.scanIdentifiers, if_pos hc, Text.scanIdentifiers_of_isWord fun c' hc' =>
    Text.isWord_of_isScanStart (hword c' hc')]
  rfl

/-- The first short name is taken unless it is mentioned. -/
theorem mem_lambdaParameters_succ {target : String} (count : Nat)
    (h : short 0 ∉ Text.identifiers target) :
    short 0 ∈ lambdaParameters (count + 1) target := by
  rw [lambdaParameters, Nat.add_right_comm, untaken, if_neg h]
  exact List.mem_cons_self

end Name

namespace Code

namespace Expr

mutual

/-- The names that lambdas take although they are in scope.  The implicit parameter of a block is in
scope there, but it is not a name that was taken. -/
def shadowed : Expr → (scope : List String) → List String
  | .text _, _ => []
  | .name _, _ => []
  | .member target _ _, scope => target.shadowed scope
  | .call function args, scope => function.shadowed scope ++ shadowedAll args scope
  | .named _ value, scope => value.shadowed scope
  | .cast value _ _, scope => value.shadowed scope
  | .trailing function block, scope => function.shadowed scope ++ block.shadowed scope
  | .implicit body, scope => body.shadowed ("it" :: scope)
  | .lambda params body, scope =>
      (params.map Binder.name).filter (· ∈ scope) ++
        body.shadowed (params.map Binder.name ++ scope)
  | .typed _ _, _ => []
  | .safeCast value _, scope => value.shadowed scope
  | .orElse value other, scope => value.shadowed scope ++ other.shadowed scope
  | .dispatch _ _, _ => []

/-- The names that lambdas of some expressions take although they are in scope. -/
def shadowedAll : List Expr → (scope : List String) → List String
  | [], _ => []
  | e :: rest, scope => e.shadowed scope ++ shadowedAll rest scope

end

/-- No lambda takes a name that is in scope. -/
def Clear (e : Expr) (scope : List String) : Prop :=
  e.shadowed scope = []

instance (e : Expr) (scope : List String) : Decidable (e.Clear scope) :=
  inferInstanceAs (Decidable (e.shadowed scope = []))

theorem mem_namesAll {es : List Expr} {x : String} :
    x ∈ namesAll es ↔ ∃ e ∈ es, x ∈ e.names := by
  induction es with
  | nil => simp [namesAll]
  | cons e rest ih => simp [namesAll, ih]

section Clear

variable {scope : List String}

/-- Several pieces of code shadow nothing exactly if none of them does. -/
theorem shadowedAll_eq_nil_iff {es : List Expr} :
    shadowedAll es scope = [] ↔ ∀ e ∈ es, e.Clear scope := by
  induction es with
  | nil => simp [shadowedAll]
  | cons e rest ih => simp [shadowedAll, ih, Clear]

@[simp] theorem clear_name (ident : String) :
    (Expr.name ident).Clear scope :=
  rfl

@[simp] theorem clear_it :
    Expr.it.Clear scope :=
  rfl

@[simp] theorem clear_member {e : Expr} {safe : Bool} {field : String} :
    (Expr.member e safe field).Clear scope ↔ e.Clear scope :=
  .rfl

@[simp] theorem clear_named {label : String} {e : Expr} :
    (Expr.named label e).Clear scope ↔ e.Clear scope :=
  .rfl

@[simp] theorem clear_cast {e : Expr} {type : Key} {nullable : Bool} :
    (Expr.cast e type nullable).Clear scope ↔ e.Clear scope :=
  .rfl

@[simp] theorem clear_implicit {e : Expr} :
    (Expr.implicit e).Clear scope ↔ e.Clear ("it" :: scope) :=
  .rfl

@[simp] theorem clear_call {f : Expr} {args : List Expr} :
    (Expr.call f args).Clear scope ↔ f.Clear scope ∧ ∀ a ∈ args, a.Clear scope := by
  rw [Clear, shadowed, List.append_eq_nil_iff, shadowedAll_eq_nil_iff]
  rfl

@[simp] theorem clear_trailing {f block : Expr} :
    (Expr.trailing f block).Clear scope ↔ f.Clear scope ∧ block.Clear scope := by
  rw [Clear, shadowed, List.append_eq_nil_iff]
  rfl

theorem clear_orElse {value other : Expr} :
    (Expr.orElse value other).Clear scope ↔ value.Clear scope ∧ other.Clear scope := by
  rw [Clear, shadowed, List.append_eq_nil_iff]
  rfl

/-- A lambda is clear if its parameters are new and its body is clear with them. -/
@[simp] theorem clear_lambda {params : List Binder} {body : Expr} :
    (Expr.lambda params body).Clear scope ↔
      (∀ x ∈ params.map Binder.name, x ∉ scope) ∧
        body.Clear (params.map Binder.name ++ scope) := by
  rw [Clear, shadowed, List.append_eq_nil_iff, List.filter_eq_nil_iff]
  simp [Clear]

@[simp] theorem clear_send {e : Expr} {safe : Bool} {m : String} :
    (e.send safe m).Clear scope ↔ e.Clear scope := by
  simp [send]

/-- The body that is mapped over a collection has the implicit parameter in its scope. -/
@[simp] theorem clear_mapped {e body : Expr} {safe : Bool} :
    (e.mapped safe body).Clear scope ↔ e.Clear scope ∧ body.Clear ("it" :: scope) := by
  simp [mapped]

mutual

/-- What takes no name of a scope takes none of a smaller one. -/
theorem Clear.anti {scope scope' : List String} : (e : Expr) → scope ⊆ scope' → e.Clear scope' →
    e.Clear scope
  | .text _, _, _ => rfl
  | .name _, _, _ => rfl
  | .member target _ _, hscope, h => Clear.anti target hscope h
  | .call f args, hscope, h =>
      clear_call.2 ⟨Clear.anti f hscope (clear_call.1 h).1,
        Clear.antiAll args hscope (clear_call.1 h).2⟩
  | .named _ value, hscope, h => Clear.anti value hscope h
  | .cast value _ _, hscope, h => Clear.anti value hscope h
  | .trailing f block, hscope, h =>
      clear_trailing.2 ⟨Clear.anti f hscope (clear_trailing.1 h).1,
        Clear.anti block hscope (clear_trailing.1 h).2⟩
  | .implicit body, hscope, h => Clear.anti body (List.cons_subset_cons "it" hscope) h
  | .lambda _ body, hscope, h =>
      clear_lambda.2 ⟨fun x hx hmem => (clear_lambda.1 h).1 x hx (hscope hmem),
        Clear.anti body (List.append_subset.2 ⟨List.subset_append_left _ _,
          List.Subset.trans hscope (List.subset_append_right _ _)⟩) (clear_lambda.1 h).2⟩
  | .typed _ _, _, _ => rfl
  | .safeCast value _, hscope, h => Clear.anti value hscope h
  | .orElse value other, hscope, h =>
      clear_orElse.2 ⟨Clear.anti value hscope (clear_orElse.1 h).1,
        Clear.anti other hscope (clear_orElse.1 h).2⟩
  | .dispatch _ _, _, _ => rfl

theorem Clear.antiAll {scope scope' : List String} : (es : List Expr) → scope ⊆ scope' →
    (∀ e ∈ es, e.Clear scope') → ∀ e ∈ es, e.Clear scope
  | [], _, _ => List.forall_mem_nil _
  | e :: rest, hscope, h =>
      List.forall_mem_cons.2 ⟨Clear.anti e hscope (h e List.mem_cons_self),
        Clear.antiAll rest hscope fun e' he' => h e' (List.mem_cons_of_mem _ he')⟩

end

end Clear

end Expr

end Code

namespace Mapping

open Code

/-- The conversion takes no names and mentions all that is converted. -/
structure Extends (x e : Expr) : Prop where
  clear : ∀ scope, x.Clear scope ↔ e.Clear scope
  names : e.names ⊆ x.names

section Forms

variable {e inner : Expr}

theorem extends_send (e : Expr) (safe : Bool) (m : String) :
    Extends (e.send safe m) e :=
  ⟨fun _ => Expr.clear_send, by simp [Expr.send, Expr.names]⟩

theorem Direction.extends_long (d : Direction) (e : Expr) (nullable : Bool) :
    Extends (d.long e nullable) e := by
  cases d with
  | importing => exact extends_send e nullable "toLong"
  | exporting => exact extends_send e nullable "toDouble"

/-- Mapping a body that is clear everywhere adds nothing that could shadow. -/
theorem extends_mapped (safe : Bool)
    (h : ∀ scope, inner.Clear scope) :
    Extends (e.mapped safe inner) e :=
  ⟨fun _ => by simp [h], by simp [Expr.mapped, Expr.names]⟩

/-- Code that extends an extension extends the code. -/
theorem Extends.trans {x y z : Expr}
    (h : Extends x y)
    (h' : Extends y z) :
    Extends x z :=
  ⟨fun scope => (h.clear scope).trans (h'.clear scope), List.Subset.trans h'.names h.names⟩

theorem Direction.extends_longArray (d : Direction) (e : Expr) (nullable : Bool) :
    Extends (d.longArray e nullable) e := by
  have hitem : ∀ scope, (d.long .it false).Clear scope :=
    fun scope => ((d.extends_long .it false).clear scope).2 Expr.clear_it
  cases d with
  | importing => exact (extends_send _ _ _).trans (extends_mapped nullable hitem)
  | exporting => exact (extends_send _ _ _).trans (extends_mapped nullable hitem)

theorem Direction.extends_exception (d : Direction) (e : Expr) (nullable : Bool) (type : Key) :
    Extends (d.exception e nullable type) e := by
  cases d with
  | importing => exact ⟨fun _ => .rfl, List.Subset.refl _⟩
  | exporting =>
      cases nullable with
      | false =>
          exact ⟨fun _ => by simp [exception, errorOf],
            by simp [exception, errorOf, Expr.names, Expr.namesAll]⟩
      | true =>
          exact ⟨fun _ => by simp [exception, errorOf],
            by simp [exception, errorOf, Expr.names]⟩

theorem Direction.extends_wrapper (d : Direction) (e : Expr) (nullable : Bool) (type : Key) :
    Extends (d.wrapper e nullable type) e := by
  cases d with
  | importing => exact extends_send e nullable _
  | exporting => exact extends_send e nullable _

theorem Direction.length_lt_list (d : Direction) (e : Expr) (nullable : Bool) (inner : Expr) :
    e.source.length < (d.list e nullable inner).source.length := by
  cases d with
  | importing =>
      rw [list]
      split
      · exact length_lt_send e nullable _
      · exact length_lt_mapped e nullable inner
  | exporting =>
      rw [list]
      split
      · exact length_lt_send e nullable _
      · exact Nat.lt_trans (length_lt_mapped e nullable inner) (length_lt_send _ _ _)

theorem source_guarded_ne_it (nullable : Bool) (params : List Binder) (body : Expr) :
    (Direction.guarded .it nullable (.lambda params body)).source ≠ "it" := by
  refine source_ne_it ?_
  cases nullable with
  | true => exact Nat.lt_trans (length_lt_member .it true "let") (length_lt_trailing _ _)
  | false => exact two_lt_length_lambda params body

end Forms

/-- The conversion descends into type arguments. -/
def Conversion.descends : Conversion → Bool
  | .array | .list | .function => true
  | _ => false

namespace Table

/-- Parameters, the names that they are called by, and their conversions go together. -/
structure Argued (T : Table) (d : Direction) (names : List String) (params : List Shape)
    (args : List Expr) : Prop where
  param : ∀ p ∈ params, ∃ n ∈ names, ∃ arg ∈ args, T.convert d (.name n) p = .ok arg
  name : ∀ n ∈ names, ∃ p ∈ params, ∃ arg ∈ args, T.convert d (.name n) p = .ok arg
  arg : ∀ arg ∈ args, ∃ n ∈ names, ∃ p ∈ params, T.convert d (.name n) p = .ok arg

/-- The arguments of a call are the converted parameters, by name. -/
theorem argued_of_convertArgs {T : Table} {d : Direction} {names : List String}
    {params : List Shape} {args : List Expr}
    (hlength : names.length = params.length)
    (h : T.convertArgs d names params = .ok args) :
    T.Argued d names params args := by
  induction params generalizing names args with
  | nil =>
      obtain rfl : names = [] := List.length_eq_zero_iff.1 hlength
      obtain rfl := Except.ok.inj h
      exact ⟨by simp, by simp, by simp⟩
  | cons p params ih =>
      cases names with
      | nil => simp at hlength
      | cons n names =>
          obtain ⟨arg, harg, h⟩ := Outcome.bind_eq_ok_iff.1 h
          obtain ⟨rest, hrest, h⟩ := Outcome.bind_eq_ok_iff.1 h
          obtain rfl := Except.ok.inj h
          have htail : T.Argued d names params rest := ih (by simpa using hlength) hrest
          have harg : T.convert d (.name n) p = .ok arg := harg
          refine ⟨List.forall_mem_cons.2 ⟨⟨n, by simp, arg, by simp, harg⟩, fun p' hp' => ?_⟩,
            List.forall_mem_cons.2 ⟨⟨p, by simp, arg, by simp, harg⟩, fun n' hn' => ?_⟩,
            List.forall_mem_cons.2 ⟨⟨n, by simp, p, by simp, harg⟩, fun arg' harg' => ?_⟩⟩
          · obtain ⟨n', hn', arg', harg', hconvert⟩ := htail.param p' hp'
            exact ⟨n', by simp [hn'], arg', by simp [harg'], hconvert⟩
          · obtain ⟨p', hp', arg', harg', hconvert⟩ := htail.name n' hn'
            exact ⟨p', by simp [hp'], arg', by simp [harg'], hconvert⟩
          · obtain ⟨n', hn', p', hp', hconvert⟩ := htail.arg arg' harg'
            exact ⟨n', by simp [hn'], p', by simp [hp'], hconvert⟩

/-- What the conversion of a type is made of. -/
inductive Unfolds (T : Table) (d : Direction) (e : Expr) (s : Shape) (x : Expr) : Prop
  | plain {c : Option Conversion}
      (hc : T.conversion? s = .ok c)
      (hplain : ∀ k ∈ c, k.descends = false)
      (hx : Extends x e)
  | element {c : Conversion} {a : Shape} {rest : List Shape} {inner : Expr}
      (hc : T.conversion? s = .ok (some c))
      (hcollection : c = .array ∨ c = .list)
      (hargs : s.args = a :: rest)
      (hinner : T.convert d .it a = .ok inner)
      (hx : x = Direction.array e s.nullable inner ∨ x = d.list e s.nullable inner)
  | function {params : List Shape} {result : Shape} {binders : List Binder} {args : List Expr}
      {body : Expr}
      (hc : T.conversion? s = .ok (some .function))
      (hargs : s.args = params ++ [result])
      (hbinders : binders.map Binder.name =
        Name.lambdaParameters params.length (Direction.callee e s.nullable).source)
      (hargued : T.Argued d.flip (binders.map Binder.name) params args)
      (hbody : T.convert d (.call (Direction.callee e s.nullable) args) result = .ok body)
      (hx : x = Direction.guarded e s.nullable (.lambda binders body))

section Session

variable {exported : List (Shape × String)} {extra : List Shape} {erase : Bool} {T : Table}
variable {d : Direction} {e x : Expr} {s : Shape} {scope : List String}

theorem exists_element_of_convertFirst {key : Key} {args : List Shape} {inner : Expr}
    (h : T.convertFirst d key args = .ok inner) :
    ∃ a rest, args = a :: rest ∧ T.convert d .it a = .ok inner := by
  cases args with
  | nil => simp [convertFirst] at h
  | cons a rest => exact ⟨a, rest, rfl, h⟩

theorem unfolds_of_function
    (hc : T.conversion? s = .ok (some .function))
    (hfunction : s.isFunction = true)
    (h : T.convert d e s = .ok x) :
    T.Unfolds d e s x := by
  obtain ⟨params, result, hargs⟩ := Shape.exists_params_of_isFunction hfunction
  obtain ⟨args, body, types, hconverted, hbody, htypes, rfl⟩ := (convert_function hc hargs).1 h
  have hlength :=
    Name.length_lambdaParameters params.length (Direction.callee e s.nullable).source
  have hbinders : (((Name.lambdaParameters params.length
      (Direction.callee e s.nullable).source).zip types).map typedBinder).map Binder.name =
      Name.lambdaParameters params.length (Direction.callee e s.nullable).source := by
    rw [List.map_map]
    exact List.map_fst_zip (Nat.le_of_eq (hlength.trans htypes.length_eq))
  refine .function hc hargs hbinders ?_ hbody rfl
  rw [hbinders]
  exact argued_of_convertArgs hlength hconverted

/-- The code of a conversion unfolds by the kind of its rule. -/
theorem unfolds_of_convert
    (hT : Table.ofSession exported extra erase = .ok T)
    (h : T.convert d e s = .ok x) :
    T.Unfolds d e s x := by
  cases hc : T.conversion? s with
  | error o => simp [convert_eq, hc] at h
  | ok c =>
      have hwhole := h
      rw [convert_eq, hc] at h
      cases lookup_ofSession hT hc with
      | identity hkey =>
          obtain rfl := Except.ok.inj h
          exact .plain hc (by simp [Conversion.descends]) ⟨fun _ => .rfl, List.Subset.refl _⟩
      | long hkey =>
          obtain rfl := Except.ok.inj h
          exact .plain hc (by simp [Conversion.descends]) (d.extends_long e _)
      | longArray hkey =>
          obtain rfl := Except.ok.inj h
          exact .plain hc (by simp [Conversion.descends]) (d.extends_longArray e _)
      | array hkey =>
          obtain ⟨inner, hinner, h⟩ := Outcome.bind_eq_ok_iff.1 h
          obtain ⟨a, rest, hargs, hinner⟩ := exists_element_of_convertFirst hinner
          exact .element hc (.inl rfl) hargs hinner (.inl (Except.ok.inj h).symm)
      | list hkey =>
          obtain ⟨inner, hinner, h⟩ := Outcome.bind_eq_ok_iff.1 h
          obtain ⟨a, rest, hargs, hinner⟩ := exists_element_of_convertFirst hinner
          exact .element hc (.inr rfl) hargs hinner (.inr (Except.ok.inj h).symm)
      | exception hkey hnew =>
          obtain rfl := Except.ok.inj h
          exact .plain hc (by simp [Conversion.descends]) (d.extends_exception e _ _)
      | declared hmem hargs hkey hnew =>
          obtain rfl := Except.ok.inj h
          exact .plain hc (by simp [Conversion.descends]) (d.extends_wrapper e _ _)
      | function hfunction hread => exact unfolds_of_function hc hfunction hwhole
      | instantiated hmem hkey hargs hnew hfunction =>
          obtain rfl := Except.ok.inj h
          exact .plain hc (by simp [Conversion.descends]) (d.extends_wrapper e _ _)
      | unknown hnew hfunction =>
          obtain ⟨_, -, h⟩ := Outcome.bind_eq_ok_iff.1 h
          obtain rfl := Except.ok.inj h
          exact .plain hc (by simp) ⟨fun _ => .rfl, List.Subset.refl _⟩

/-- Code for a type that is neither a collection nor a function only extends its argument. -/
theorem Unfolds.extends {c : Option Conversion}
    (h : T.Unfolds d e s x)
    (hc : T.conversion? s = .ok c)
    (hplain : ∀ k ∈ c, k.descends = false) :
    Extends x e := by
  cases h with
  | plain _ _ hx => exact hx
  | element hc' hcollection =>
      obtain rfl := Except.ok.inj (hc.symm.trans hc')
      have hdescends := hplain _ rfl
      rcases hcollection with rfl | rfl
      · simp [Conversion.descends] at hdescends
      · simp [Conversion.descends] at hdescends
  | function hc' =>
      obtain rfl := Except.ok.inj (hc.symm.trans hc')
      simpa [Conversion.descends] using hplain _ rfl

/-- The code for a collection is made from that for its element. -/
theorem Unfolds.exists_inner {c : Conversion} {a : Shape} {rest : List Shape}
    (h : T.Unfolds d e s x)
    (hc : T.conversion? s = .ok (some c))
    (hcollection : c = .array ∨ c = .list)
    (hargs : s.args = a :: rest) :
    ∃ inner, T.convert d .it a = .ok inner ∧
      (x = Direction.array e s.nullable inner ∨ x = d.list e s.nullable inner) := by
  cases h with
  | plain hc' hplain =>
      obtain rfl := Except.ok.inj (hc.symm.trans hc')
      have hdescends := hplain _ rfl
      rcases hcollection with rfl | rfl
      · simp [Conversion.descends] at hdescends
      · simp [Conversion.descends] at hdescends
  | element hc' hcollection' hargs' hinner hx =>
      obtain ⟨rfl, rfl⟩ := List.cons.inj (hargs.symm.trans hargs')
      exact ⟨_, hinner, hx⟩
  | function hc' =>
      obtain rfl := Option.some.inj (Except.ok.inj (hc.symm.trans hc'))
      simp at hcollection

/-- The code for a function is a lambda over the code for its result. -/
theorem Unfolds.exists_body {params : List Shape} {result : Shape}
    (h : T.Unfolds d e s x)
    (hc : T.conversion? s = .ok (some .function))
    (hargs : s.args = params ++ [result]) :
    ∃ binders args body,
      binders.map Binder.name =
        Name.lambdaParameters params.length (Direction.callee e s.nullable).source ∧
      T.Argued d.flip (binders.map Binder.name) params args ∧
      T.convert d (.call (Direction.callee e s.nullable) args) result = .ok body ∧
      x = Direction.guarded e s.nullable (.lambda binders body) := by
  cases h with
  | plain hc' hplain =>
      obtain rfl := Except.ok.inj (hc.symm.trans hc')
      simpa [Conversion.descends] using hplain _ rfl
  | element hc' hcollection' =>
      obtain rfl := Option.some.inj (Except.ok.inj (hc.symm.trans hc'))
      simp at hcollection'
  | function hc' hargs' hbinders hargued hbody hx =>
      obtain ⟨rfl, hresult⟩ := List.append_inj (hargs.symm.trans hargs') (by
        simpa using congrArg List.length (hargs.symm.trans hargs'))
      obtain rfl := List.singleton_inj.1 hresult
      exact ⟨_, _, _, hbinders, hargued, hbody, hx⟩

/-- An element that is printed as it is was not converted. -/
theorem clear_of_source_eq_it
    (hT : Table.ofSession exported extra erase = .ok T)
    (h : T.convert d .it s = .ok x)
    (hsource : x.source = "it") :
    x.Clear scope := by
  cases unfolds_of_convert hT h with
  | plain hc hplain hx => exact (hx.clear scope).2 Expr.clear_it
  | element hc hcollection hargs hinner hx =>
      rcases hx with rfl | rfl
      · rw [Direction.array] at hsource ⊢
        split at hsource
        · next hinner =>
            rw [if_pos hinner]
            exact Expr.clear_it
        · exact absurd hsource (source_send_ne_it _ _ (Nat.le_of_lt (length_lt_mapped _ _ _)))
      · exact absurd hsource (source_ne_it (d.length_lt_list _ _ _))
  | function hc hargs hbinders hargued hbody hx =>
      rw [hx] at hsource
      exact absurd hsource (source_guarded_ne_it _ _ _)

/-- A collection is clear if its elements are, which are converted where `it` is in scope. -/
theorem clear_element_iff {a : Shape} {inner : Expr}
    (hT : Table.ofSession exported extra erase = .ok T)
    (hinner : T.convert d .it a = .ok inner)
    (hx : x = Direction.array e s.nullable inner ∨ x = d.list e s.nullable inner) :
    x.Clear scope ↔ e.Clear scope ∧ inner.Clear ("it" :: scope) := by
  by_cases hit : inner.source = "it"
  · rw [and_iff_left (clear_of_source_eq_it hT hinner hit)]
    rcases hx with rfl | rfl
    · rw [Direction.array, if_pos hit]
    · cases d with
      | importing => rw [Direction.list, if_pos hit, Expr.clear_send]
      | exporting => rw [Direction.list, if_pos hit, Expr.clear_send]
  · rcases hx with rfl | rfl
    · rw [Direction.array, if_neg hit, Expr.clear_send, Expr.clear_mapped]
    · cases d with
      | importing => rw [Direction.list, if_neg hit, Expr.clear_mapped]
      | exporting => rw [Direction.list, if_neg hit, Expr.clear_send, Expr.clear_mapped]

theorem names_subset_element {inner : Expr}
    (hx : x = Direction.array e s.nullable inner ∨ x = d.list e s.nullable inner) :
    e.names ⊆ x.names := by
  have hmapped : e.names ⊆ (e.mapped s.nullable inner).names := by simp [Expr.mapped, Expr.names]
  rcases hx with rfl | rfl
  · rw [Direction.array]
    split
    · exact List.Subset.refl _
    · exact List.Subset.trans hmapped (extends_send _ _ _).names
  · cases d with
    | importing =>
        rw [Direction.list]
        split
        · exact (extends_send _ _ _).names
        · exact hmapped
    | exporting =>
        rw [Direction.list]
        split
        · exact (extends_send _ _ _).names
        · exact List.Subset.trans hmapped (extends_send _ _ _).names

/-- Whatever is converted is part of its conversion. -/
theorem clear_of_convert
    (hT : Table.ofSession exported extra erase = .ok T)
    (s : Shape) {e : Expr}
    (h : T.convert d e s = .ok x)
    (hclear : x.Clear scope) :
    e.Clear scope := by
  induction s using Shape.induction generalizing e x scope with
  | step name package args nullable ih =>
      cases unfolds_of_convert hT h with
      | plain hc hplain hx => exact (hx.clear scope).1 hclear
      | element hc hcollection hargs hinner hx =>
          exact ((clear_element_iff hT hinner hx).1 hclear).1
      | @function params result binders converted body hc hargs hbinders hargued hbody hx =>
          subst hx
          cases nullable with
          | true => exact (Expr.clear_trailing.1 hclear).1
          | false =>
              have hargs : args = params ++ [result] := hargs
              have hcall := ih result (by simp [hargs]) hbody (Expr.clear_lambda.1 hclear).2
              exact Expr.Clear.anti e (List.subset_append_right _ _) (Expr.clear_call.1 hcall).1

/-- The conversion of the type takes no names at all: there are no functions with parameters in it,
and none that may be null. -/
inductive Quiet (T : Table) : Shape → Prop
  | plain {s : Shape} {c : Option Conversion}
      (hc : T.conversion? s = .ok c)
      (hplain : ∀ k ∈ c, k.descends = false) :
      Quiet T s
  | collection {s a : Shape} {rest : List Shape} {c : Conversion}
      (hc : T.conversion? s = .ok (some c))
      (hcollection : c = .array ∨ c = .list)
      (hargs : s.args = a :: rest)
      (ha : Quiet T a) :
      Quiet T s
  | supplier {s result : Shape}
      (hc : T.conversion? s = .ok (some .function))
      (hnullable : s.nullable = false)
      (hargs : s.args = [result])
      (hresult : Quiet T result) :
      Quiet T s

/-- Functions with parameters stand only at the end of a chain of results. -/
inductive Chained (T : Table) : Shape → Prop
  | quiet {s : Shape}
      (h : T.Quiet s) :
      Chained T s
  | function {s result : Shape} {params : List Shape}
      (hc : T.conversion? s = .ok (some .function))
      (hnullable : s.nullable = false)
      (hargs : s.args = params ++ [result])
      (hparams : ∀ p ∈ params, T.Quiet p)
      (hresult : Chained T result) :
      Chained T s

/-- Code for a quiet type only extends its argument. -/
theorem Quiet.extends
    (hT : Table.ofSession exported extra erase = .ok T)
    (hs : T.Quiet s)
    (h : T.convert d e s = .ok x) :
    Extends x e := by
  induction hs generalizing e x with
  | plain hc hplain => exact (unfolds_of_convert hT h).extends hc hplain
  | collection hc hcollection hargs ha ih =>
      obtain ⟨inner, hinner, hx⟩ := (unfolds_of_convert hT h).exists_inner hc hcollection hargs
      refine ⟨fun scope => ?_, names_subset_element hx⟩
      rw [clear_element_iff hT hinner hx, and_iff_left (((ih hinner).clear _).2 Expr.clear_it)]
  | supplier hc hnullable hargs hresult ih =>
      rw [← List.nil_append [_]] at hargs
      obtain ⟨binders, args, body, hbinders, hargued, hbody, hx⟩ :=
        (unfolds_of_convert hT h).exists_body hc hargs
      obtain rfl : binders = [] := by
        have hlength := congrArg List.length hbinders
        rw [List.length_map, Name.length_lambdaParameters] at hlength
        exact List.length_eq_zero_iff.1 hlength
      obtain rfl : args = [] := List.eq_nil_iff_forall_not_mem.2 fun arg harg => by
        obtain ⟨n, hn, -⟩ := hargued.arg arg harg
        exact absurd hn (List.not_mem_nil)
      rw [hnullable] at hbody hx
      subst hx
      have hcall := ih hbody
      refine ⟨fun scope => (Expr.clear_lambda.trans ?_).trans ((hcall.clear scope).trans ?_), ?_⟩
      · simp
      · simp [Direction.callee]
      · exact List.Subset.trans (by simp [Direction.callee, Expr.names]) hcall.names

/-- A lambda in a chain avoids all names in scope, because what it calls mentions them. -/
theorem clear_of_chained
    (hT : Table.ofSession exported extra erase = .ok T)
    (hs : T.Chained s)
    (h : T.convert d e s = .ok x)
    (he : ∀ scope, e.Clear scope)
    (hscope : scope ⊆ e.names) :
    x.Clear scope := by
  induction hs generalizing e x scope with
  | quiet hquiet => exact ((hquiet.extends hT h).clear scope).2 (he scope)
  | @function s result params hc hnullable hargs hparams hresult ih =>
      obtain ⟨binders, args, body, hbinders, hargued, hbody, hx⟩ :=
        (unfolds_of_convert hT h).exists_body hc hargs
      rw [hnullable] at hbinders hbody hx
      subst hx
      have harg : ∀ arg ∈ args, ∀ scope, arg.Clear scope := by
        intro arg hmem scope
        obtain ⟨n, -, p, hp, hconvert⟩ := hargued.arg arg hmem
        exact (((hparams p hp).extends hT hconvert).clear scope).2 (Expr.clear_name n)
      refine Expr.clear_lambda.2 ⟨fun n hn hmem => ?_, ih hbody (fun scope => ?_) ?_⟩
      · rw [hbinders] at hn
        exact Expr.not_mem_names_of_mem_lambdaParameters hn (hscope hmem)
      · exact Expr.clear_call.2 ⟨he scope, fun arg hmem => harg arg hmem scope⟩
      · refine List.append_subset.2
          ⟨fun n hn => ?_, List.Subset.trans hscope (List.subset_append_left _ _)⟩
        obtain ⟨p, hp, arg, hmem, hconvert⟩ := hargued.name n hn
        refine List.mem_append_right _ (Expr.mem_namesAll.2 ⟨arg, hmem, ?_⟩)
        exact ((hparams p hp).extends hT hconvert).names (List.mem_singleton_self n)

/-- The conversion of `e` exists and takes no name of the scope. -/
def Avoids (T : Table) (d : Direction) (s : Shape) (e : Expr) (scope : List String) : Prop :=
  ∃ x, T.convert d e s = .ok x ∧ x.Clear scope

/-- If the code for a collection is clear, so is that for its element below the implicit parameter.
-/
theorem Avoids.element {c : Conversion} {a : Shape} {rest : List Shape}
    (hT : Table.ofSession exported extra erase = .ok T)
    (hc : T.conversion? s = .ok (some c))
    (hcollection : c = .array ∨ c = .list)
    (hargs : s.args = a :: rest)
    (h : T.Avoids d s e scope) :
    T.Avoids d a .it ("it" :: scope) := by
  obtain ⟨x, hconvert, hclear⟩ := h
  obtain ⟨inner, hinner, hx⟩ := (unfolds_of_convert hT hconvert).exists_inner hc hcollection hargs
  exact ⟨inner, hinner, ((clear_element_iff hT hinner hx).1 hclear).2⟩

/-- Inside the check for null, no other function that may be null is converted. -/
theorem Avoids.nullable {params : List Shape} {result : Shape}
    (hT : Table.ofSession exported extra erase = .ok T)
    (hc : T.conversion? s = .ok (some .function))
    (hargs : s.args = params ++ [result])
    (hscope : Direction.checkedFunction ∈ scope)
    (h : T.Avoids d s e scope) :
    s.nullable = false := by
  obtain ⟨x, hconvert, hclear⟩ := h
  obtain ⟨binders, args, body, -, -, -, rfl⟩ :=
    (unfolds_of_convert hT hconvert).exists_body hc hargs
  by_contra hnullable
  rw [Bool.not_eq_false] at hnullable
  rw [hnullable, Direction.guarded, if_pos rfl] at hclear
  exact (Expr.clear_lambda.1 (Expr.clear_trailing.1 hclear).2).1 _ (by simp) hscope

/-- What is clear inside a lambda: its names, its arguments and its result. -/
theorem Avoids.function {params : List Shape} {result : Shape}
    (hT : Table.ofSession exported extra erase = .ok T)
    (hc : T.conversion? s = .ok (some .function))
    (hargs : s.args = params ++ [result])
    (hnullable : s.nullable = false)
    (h : T.Avoids d s e scope) :
    (∀ n ∈ Name.lambdaParameters params.length e.source, n ∉ scope) ∧
      (∀ p ∈ params, ∃ n ∈ Name.lambdaParameters params.length e.source,
        T.Avoids d.flip p (.name n) (Name.lambdaParameters params.length e.source ++ scope)) ∧
      ∃ args, (params = [] → args = []) ∧
        T.Avoids d result (.call e args)
          (Name.lambdaParameters params.length e.source ++ scope) := by
  obtain ⟨x, hconvert, hclear⟩ := h
  obtain ⟨binders, args, body, hbinders, hargued, hbody, rfl⟩ :=
    (unfolds_of_convert hT hconvert).exists_body hc hargs
  rw [hnullable] at hbinders hbody hclear
  obtain ⟨hnames, hclear⟩ := Expr.clear_lambda.1 hclear
  rw [hbinders] at hnames hclear hargued
  refine ⟨hnames, fun p hp => ?_, args, ?_, body, hbody, hclear⟩
  · obtain ⟨n, hn, arg, harg, hconverted⟩ := hargued.param p hp
    have hcall := clear_of_convert hT result hbody hclear
    exact ⟨n, hn, arg, hconverted, (Expr.clear_call.1 hcall).2 arg harg⟩
  · rintro rfl
    refine List.eq_nil_iff_forall_not_mem.2 fun arg harg => ?_
    obtain ⟨n, -, p, hp, -⟩ := hargued.arg arg harg
    exact absurd hp List.not_mem_nil

theorem identifiers_call_nil (e : Expr) :
    Text.identifiers (Expr.call e []).source = Text.identifiers e.source := by
  have hsource : (Expr.call e []).source.toList = e.source.toList ++ ['(', ')'] := by
    simp [Expr.source, Expr.sources]
  have hbrackets : ['(', ')'].all (fun c => Text.isWord c = false) = true := by decide
  rw [Text.identifiers, hsource]
  exact Text.scanIdentifiers_append_of_not_isWord (by simpa using hbrackets) []

/-- If a first short name is in scope and unmentioned, only quiet types avoid it. -/
theorem quiet_of_avoids
    (hT : Table.ofSession exported extra erase = .ok T)
    (s : Shape) {e e' : Expr} {scope scope' : List String}
    (hchecked : Direction.checkedFunction ∈ scope)
    (h : T.Avoids d s e scope)
    (hshort : Name.short 0 ∈ scope')
    (hunmentioned : Name.short 0 ∉ Text.identifiers e'.source)
    (h' : T.Avoids d s e' scope') :
    T.Quiet s := by
  induction s using Shape.induction generalizing d e e' scope scope' with
  | step name package args nullable ih =>
      obtain ⟨x, hconvert, -⟩ := id h
      cases unfolds_of_convert hT hconvert with
      | plain hc hplain hx => exact .plain hc hplain
      | @element c a rest inner hc hcollection hargs hinner hx =>
          refine .collection hc hcollection hargs
            (ih a ?_ ?_ (h.element hT hc hcollection hargs) ?_ ?_
              (h'.element hT hc hcollection hargs))
          · have hargs : args = a :: rest := hargs
            simp [hargs]
          · exact List.mem_cons_of_mem _ hchecked
          · exact List.mem_cons_of_mem _ hshort
          · rw [Name.short_zero]
            decide
      | @function params result binders converted body hc hargs _ _ _ _ =>
          have hnullable := h.nullable hT hc hargs hchecked
          obtain ⟨hnames, -, -⟩ := h'.function hT hc hargs hnullable
          obtain rfl : params = [] := by
            cases params with
            | nil => rfl
            | cons p params =>
                exact absurd hshort (hnames _ (Name.mem_lambdaParameters_succ _ hunmentioned))
          obtain ⟨-, -, called, hcalled, hresult⟩ := h.function hT hc hargs hnullable
          obtain ⟨-, -, called', hcalled', hresult'⟩ := h'.function hT hc hargs hnullable
          rw [hcalled' rfl] at hresult'
          refine .supplier hc hnullable hargs (ih result ?_ ?_ hresult ?_ ?_ hresult')
          · have hargs : args = [] ++ [result] := hargs
            simp [hargs]
          · exact List.mem_append_right _ hchecked
          · exact List.mem_append_right _ hshort
          · rwa [identifiers_call_nil]

/-- If a first short name is in scope and mentioned, only chained types avoid it. -/
theorem chained_of_avoids
    (hT : Table.ofSession exported extra erase = .ok T)
    (s : Shape) {e e' : Expr} {scope scope' : List String}
    (hchecked : Direction.checkedFunction ∈ scope)
    (h : T.Avoids d s e scope)
    (hshort : Name.short 0 ∈ scope')
    (hmentioned : Name.short 0 ∈ e'.names)
    (h' : T.Avoids d s e' scope') :
    T.Chained s := by
  induction s using Shape.induction generalizing d e e' scope scope' with
  | step name package args nullable ih =>
      obtain ⟨x, hconvert, -⟩ := id h
      cases unfolds_of_convert hT hconvert with
      | plain hc hplain hx => exact .quiet (.plain hc hplain)
      | @element c a rest inner hc hcollection hargs hinner hx =>
          refine .quiet (.collection hc hcollection hargs
            (quiet_of_avoids hT a ?_ (h.element hT hc hcollection hargs) ?_ ?_
              (h'.element hT hc hcollection hargs)))
          · exact List.mem_cons_of_mem _ hchecked
          · exact List.mem_cons_of_mem _ hshort
          · rw [Name.short_zero]
            decide
      | @function params result binders converted body hc hargs _ _ _ _ =>
          have hnullable := h.nullable hT hc hargs hchecked
          obtain ⟨-, hparams, called, -, hresult⟩ := h.function hT hc hargs hnullable
          obtain ⟨-, hparams', called', -, hresult'⟩ := h'.function hT hc hargs hnullable
          refine .function hc hnullable hargs (fun p hp => ?_)
            (ih result ?_ ?_ hresult ?_ ?_ hresult')
          · obtain ⟨n, -, hn⟩ := hparams p hp
            obtain ⟨n', hmem, hn'⟩ := hparams' p hp
            refine quiet_of_avoids hT p (List.mem_append_right _ hchecked) hn
              (List.mem_append_right _ hshort) ?_ hn'
            -- the first short name is mentioned by what the lambda calls, so it took others
            obtain ⟨i, rfl⟩ := Name.exists_short_of_mem_lambdaParameters hmem
            have hne : Name.short 0 ≠ Name.short i := fun heq =>
              Expr.not_mem_names_of_mem_lambdaParameters hmem (heq ▸ hmentioned)
            rw [Expr.source, Name.identifiers_short]
            simpa using hne
          · have hargs : args = params ++ [result] := hargs
            simp [hargs]
          · exact List.mem_append_right _ hchecked
          · exact List.mem_append_right _ hshort
          · exact List.mem_append_left _ hmentioned

/-- A type whose code is clear avoids the names in scope. -/
theorem avoids_of_convert {e' : Expr}
    (hs : ∃ e x, T.convert d e s = .ok x)
    (h : ∀ x, T.convert d e' s = .ok x → x.Clear scope) :
    T.Avoids d s e' scope := by
  obtain ⟨e, hexists⟩ := hs
  obtain ⟨x, hx⟩ := (T.convertsAsShown s d e').exists_ok_iff.2
    ((T.convertsAsShown s d e).exists_ok_iff.1 hexists)
  exact ⟨x, hx, h x hx⟩

end Session

end Table

section Lambdas

variable {exported : List (Shape × String)} {extra : List Shape} {erase : Bool} {T : Table}
variable {d : Direction} {s : Shape}

/-- The code for a type shadows no name exactly if the functions in the type are chained. -/
theorem lambdas_shadow_nothing_iff
    (hT : Table.ofSession exported extra erase = .ok T)
    (hs : ∃ e x, T.convert d e s = .ok x) :
    (∀ ident, Text.isIdentifier ident = true →
      ∀ x, T.convert d (.name ident) s = .ok x → x.Clear [ident]) ↔ T.Chained s := by
  constructor
  · intro hclear
    have hchecked := Table.avoids_of_convert hs
      (hclear Direction.checkedFunction (by decide))
    have hshort := Table.avoids_of_convert hs
      (hclear (Name.short 0) (by rw [Name.short_zero]; decide))
    exact Table.chained_of_avoids hT s List.mem_cons_self hchecked List.mem_cons_self
      List.mem_cons_self hshort
  · intro hchained ident _ x hx
    exact Table.clear_of_chained hT hchained hx (fun _ => rfl) (List.Subset.refl _)

/-- A function that returns another one. -/
def curried : Shape :=
  .functionOf [.long] (.functionOf [.long] .unit)

theorem lambdas_shadow_nothing_iff_of_curried :
    Table.ofSession [] [] false = .ok builtinTable ∧
      (∃ e x, builtinTable.convert .exporting e curried = .ok x) ∧
      ∀ ident, Text.isIdentifier ident = true →
        ∀ x, builtinTable.convert .exporting (.name ident) curried = .ok x → x.Clear [ident] := by
  have hT := ofSession_builtinTable
  have hs : ∃ e x, builtinTable.convert .exporting e curried = .ok x := ⟨.name "f", _, rfl⟩
  have hlong : builtinTable.Quiet .long :=
    .plain (c := some .long) rfl (by simp [Conversion.descends])
  have hunit : builtinTable.Quiet .unit :=
    .plain (c := some .identity) rfl (by simp [Conversion.descends])
  have hparams : ∀ p ∈ [Shape.long], builtinTable.Quiet p := by simpa using hlong
  refine ⟨hT, hs, (lambdas_shadow_nothing_iff hT hs).2 ?_⟩
  exact .function rfl rfl rfl hparams (.function rfl rfl rfl hparams (.quiet hunit))

/-- A function with two callbacks. -/
def twoCallbacks : Shape :=
  .functionOf [.functionOf [.long] .unit, .functionOf [.long] .unit] .unit

/-- The lambda for each callback takes the name of the other one. -/
theorem twoCallbacks_shadow_each_other :
    Table.ofSession [] [] false = .ok builtinTable ∧ Text.isIdentifier "f" = true ∧
      (builtinTable.convert .exporting (.name "f") twoCallbacks).toOption.map
        (fun x => x.shadowed ["f"]) = some ["b", "a"] :=
  ⟨ofSession_builtinTable, by decide, by decide +kernel⟩

end Lambdas

end Mapping

end Facade
