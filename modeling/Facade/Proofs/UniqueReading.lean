import Facade.Proofs.Plan
import Facade.Proofs.TypeNames
import Mathlib.Data.Set.Function

/-!
# Types can be read back from their texts

A type is written by its name, its arguments between angle brackets and a question mark; a function
type by its parameters between parentheses, an arrow and its result, and once more in parentheses
before a question mark.

**Input.**  A file whose types and aliases are called by words.

**Algorithm.**  Two types with the same text are compared from the left.  A text followed by a
comma, a closing bracket or nothing cannot go on, so equal texts split at the same places, and the
parts are equal by induction over the type.

**Results.**
* `Namer.Legible.readable`: a text and what follows it determine the type and what follows.
* `name_injOn_references`: no two types of a file have the same text.
-/

namespace Facade

namespace Text

/-- One or more letters, numerals and underscores. -/
def IsWord (s : String) : Prop :=
  s ≠ "" ∧ s.toList.all isWord = true

instance (s : String) : Decidable (IsWord s) :=
  inferInstanceAs (Decidable (s ≠ "" ∧ s.toList.all isWord = true))

/-- The characters of words joined by dots. -/
def isDotted (c : Char) : Bool :=
  isWord c || c == '.'

/-- What may follow a type inside another one: nothing, or a mark that cannot continue it. -/
def Closed (rest : List Char) : Prop :=
  ∀ c ∈ rest.head?, c = ',' ∨ c = '>' ∨ c = ')'

theorem closed_cons {c : Char} {rest : List Char} :
    Closed (c :: rest) ↔ c = ',' ∨ c = '>' ∨ c = ')' := by
  simp [Closed]

theorem IsWord.plain {s : String}
    (h : IsWord s) :
    '.' ∉ s.toList :=
  fun hdot => absurd (List.all_eq_true.1 h.2 '.' hdot) (by decide)

theorem IsWord.dotted {s : String}
    (h : IsWord s) :
    ∀ c ∈ s.toList, isDotted c = true := by
  intro c hc
  simp [isDotted, List.all_eq_true.1 h.2 c hc]

/-- A character of a text is a separator or in one of the pieces. -/
theorem mem_or_mem_piece (separator : Char) {c : Char} {cs : List Char}
    (h : c ∈ cs) :
    c = separator ∨ ∃ piece ∈ pieces separator cs, c ∈ piece := by
  induction cs with
  | nil => exact absurd h List.not_mem_nil
  | cons d rest ih =>
      rw [pieces]
      split
      · next hd =>
          rcases List.mem_cons.1 h with rfl | h
          · exact .inl hd
          · refine (ih h).imp_right ?_
            rintro ⟨piece, hpiece, hc⟩
            exact ⟨piece, List.mem_cons_of_mem _ hpiece, hc⟩
      · cases hpieces : pieces separator rest with
        | nil => exact absurd hpieces (pieces_ne_nil separator rest)
        | cons p ps =>
            rw [hpieces] at ih
            rcases List.mem_cons.1 h with rfl | h
            · exact .inr ⟨c :: p, List.mem_cons_self, List.mem_cons_self⟩
            · refine (ih h).imp_right ?_
              rintro ⟨piece, hpiece, hc⟩
              rcases List.mem_cons.1 hpiece with rfl | hpiece
              · exact ⟨d :: piece, List.mem_cons_self, List.mem_cons_of_mem _ hc⟩
              · exact ⟨piece, List.mem_cons_of_mem _ hpiece, hc⟩

/-- Equal texts start with the same run of characters of one kind. -/
theorem append_inj_of_run {kind : Char → Bool} {run run' rest rest' : List Char}
    (hrun : ∀ c ∈ run, kind c = true)
    (hrun' : ∀ c ∈ run', kind c = true)
    (hrest : ∀ c ∈ rest.head?, kind c = false)
    (hrest' : ∀ c ∈ rest'.head?, kind c = false)
    (h : run ++ rest = run' ++ rest') :
    run = run' ∧ rest = rest' := by
  have hstop : ∀ {l : List Char}, (∀ c ∈ l.head?, kind c = false) → l.takeWhile kind = [] := by
    intro l hl
    cases l with
    | nil => rfl
    | cons c l => simp [hl c rfl]
  have hprefix := congrArg (List.takeWhile kind) h
  rw [List.takeWhile_append_of_pos hrun, List.takeWhile_append_of_pos hrun', hstop hrest,
    hstop hrest', List.append_nil, List.append_nil] at hprefix
  subst hprefix
  exact ⟨rfl, List.append_cancel_left h⟩

end Text

/-- A shape is its key, its arguments and whether it may be null. -/
theorem Shape.eq_of_key_eq {s t : Shape}
    (hkey : s.key = t.key)
    (hargs : s.args = t.args)
    (hnullable : s.nullable = t.nullable) :
    s = t := by
  obtain ⟨name, package, args, nullable⟩ := s
  obtain ⟨name', package', args', nullable'⟩ := t
  obtain ⟨rfl, rfl⟩ := Key.mk.inj hkey
  exact congrArg₂ (Shape.mk name package) hargs hnullable

namespace Source

open Text

namespace Namer

section Spelling

variable (n : Namer)

/-- What follows the first of several types: the others, each after a comma, and the mark that ends
the list. -/
def following (stop : Char) (rest : List Char) : List Shape → List Char
  | [] => stop :: rest
  | s :: more => ',' :: ' ' :: ((n.name s).toList ++ following stop rest more)

/-- A list of types up to the mark that ends it. -/
def listed (stop : Char) (rest : List Char) : List Shape → List Char
  | [] => stop :: rest
  | s :: more => (n.name s).toList ++ n.following stop rest more

/-- The type arguments of a type, and what follows. -/
def argued (rest : List Char) : List Shape → List Char
  | [] => rest
  | s :: more => '<' :: n.listed '>' rest (s :: more)

theorem toList_intercalate_name (stop : Char) (rest : List Char) (shapes : List Shape) :
    (", ".intercalate (shapes.map n.name)).toList ++ stop :: rest = n.listed stop rest shapes := by
  cases shapes with
  | nil => rfl
  | cons s more =>
      rw [String.toList_intercalate, listed]
      induction more generalizing s with
      | nil => simp [following]
      | cons s' more ih =>
          have hnext := ih s'
          simp only [List.map_cons] at hnext ⊢
          rw [List.intercalate_cons_cons, following, ← hnext]
          simp

/-- A type is written as its name, its arguments and the mark for null. -/
theorem name_of_type {s : Shape} (rest : List Char)
    (h : s.isFunction = false) :
    (n.name s).toList ++ rest =
      (n.rawName s.key).toList ++ n.argued ((Shape.mark s.nullable).toList ++ rest) s.args := by
  obtain ⟨name, package, args, nullable⟩ := s
  rw [Namer.name, if_neg (by simp [h]), nameAll_eq_map]
  cases args with
  | nil => simp [argued, Shape.bracketed, Shape.key]
  | cons s more =>
      rw [argued, ← toList_intercalate_name]
      simp [Shape.bracketed, Shape.key]

/-- The text of a function type that is not nullable. -/
theorem name_of_function {s : Shape} {params : List Shape} {result : Shape} (rest : List Char)
    (h : s.isFunction = true)
    (hargs : s.args = params ++ [result])
    (hnullable : s.nullable = false) :
    (n.name s).toList ++ rest =
      '(' :: n.listed ')' (" -> ".toList ++ ((n.name result).toList ++ rest)) params := by
  obtain ⟨name, package, args, nullable⟩ := s
  obtain rfl : args = params ++ [result] := hargs
  obtain rfl : nullable = false := hnullable
  rw [Namer.name, if_pos h, nameAll_eq_map, ← toList_intercalate_name]
  simp [Shape.arrow]

/-- A function type that may be null is written in brackets. -/
theorem name_of_nullable_function {s : Shape} (rest : List Char)
    (h : s.isFunction = true)
    (hnullable : s.nullable = true) :
    (n.name s).toList ++ rest =
      '(' :: ((n.name (s.withNullable false)).toList ++ ')' :: '?' :: rest) := by
  obtain ⟨name, package, args, nullable⟩ := s
  obtain rfl : nullable = true := hnullable
  have h' : Shape.isFunction ⟨name, package, args, false⟩ = true := h
  rw [Shape.withNullable, Namer.name, Namer.name, if_pos h, if_pos h']
  simp [Shape.arrow]

end Spelling

section Reading

variable {n : Namer} {R : Shape → Prop}

/-- Types whose names can be told apart and from the marks around them. -/
structure Legible (n : Namer) (R : Shape → Prop) : Prop where
  args : ∀ {s a}, R s → a ∈ s.args → R a
  required : ∀ {s}, R s → R (s.withNullable false)
  ne_empty : ∀ {s}, R s → s.isFunction = false → n.rawName s.key ≠ ""
  dotted : ∀ {s}, R s → s.isFunction = false →
    ∀ c ∈ (n.rawName s.key).toList, isDotted c = true
  injective : ∀ {s t}, R s → R t → s.isFunction = false → t.isFunction = false →
    n.rawName s.key = n.rawName t.key → s.key = t.key
  canonical : ∀ {s}, R s → s.isFunction = true →
    s.name = "Function" ++ toString (s.args.length - 1)

/-- The text of a type and what follows it determine both. -/
def Readable (n : Namer) (R : Shape → Prop) (s : Shape) : Prop :=
  ∀ ⦃t rest rest'⦄, R t → Closed rest → Closed rest' →
    (n.name s).toList ++ rest = (n.name t).toList ++ rest' → s = t ∧ rest = rest'

/-- A text starts with a letter or an opening parenthesis. -/
theorem Legible.head_name {s : Shape}
    (h : Legible n R)
    (hs : R s) :
    ∃ c rest, (n.name s).toList = c :: rest ∧ (if s.isFunction then c = '(' else isDotted c) := by
  cases hfunction : s.isFunction with
  | false =>
      obtain ⟨c, rest, hname⟩ := List.exists_cons_of_ne_nil
        (by simpa using h.ne_empty hs hfunction : (n.rawName s.key).toList ≠ [])
      have htext := n.name_of_type [] hfunction
      rw [List.append_nil, hname] at htext
      exact ⟨c, _, htext, h.dotted hs hfunction c (by simp [hname])⟩
  | true =>
      cases hnullable : s.nullable with
      | false =>
          obtain ⟨params, result, hargs⟩ := Shape.exists_params_of_isFunction hfunction
          have htext := n.name_of_function [] hfunction hargs hnullable
          rw [List.append_nil] at htext
          exact ⟨_, _, htext, rfl⟩
      | true =>
          have htext := n.name_of_nullable_function [] hfunction hnullable
          rw [List.append_nil] at htext
          exact ⟨_, _, htext, rfl⟩

theorem closed_following {stop : Char} (rest : List Char) (shapes : List Shape)
    (hstop : stop = '>' ∨ stop = ')') :
    Closed (n.following stop rest shapes) := by
  cases shapes with
  | nil => exact closed_cons.2 (.inr hstop)
  | cons s more => exact closed_cons.2 (.inl rfl)

/-- A list that ends is not one that goes on. -/
theorem Legible.stop_ne_name {stop : Char} {rest tail : List Char} {s : Shape}
    (h : Legible n R)
    (hs : R s)
    (hstop : stop = '>' ∨ stop = ')') :
    stop :: rest ≠ (n.name s).toList ++ tail := by
  obtain ⟨c, more, hname, hc⟩ := h.head_name hs
  rw [hname]
  rintro heq
  obtain rfl := (List.cons.inj heq).1
  split at hc
  · rcases hstop with rfl | rfl <;> exact absurd hc (by decide)
  · rcases hstop with rfl | rfl <;> exact absurd hc (by decide)

/-- The rest of a list of types can be read back. -/
theorem following_injective {stop : Char} {rest rest' : List Char} {shapes shapes' : List Shape}
    (hread : ∀ s ∈ shapes, Readable n R s)
    (hR : ∀ s ∈ shapes', R s)
    (hstop : stop = '>' ∨ stop = ')')
    (h : n.following stop rest shapes = n.following stop rest' shapes') :
    shapes = shapes' ∧ rest = rest' := by
  have hcomma : stop ≠ ',' := by rcases hstop with rfl | rfl <;> decide
  induction shapes generalizing shapes' with
  | nil =>
      cases shapes' with
      | nil => exact ⟨rfl, (List.cons.inj h).2⟩
      | cons s' more' => exact absurd (List.cons.inj h).1 hcomma
  | cons s more ih =>
      cases shapes' with
      | nil => exact absurd (List.cons.inj h).1.symm hcomma
      | cons s' more' =>
          have htexts := (List.cons.inj (List.cons.inj h).2).2
          obtain ⟨rfl, htails⟩ := hread s List.mem_cons_self (hR s' List.mem_cons_self)
            (closed_following rest more hstop) (closed_following rest' more' hstop) htexts
          obtain ⟨rfl, hrest⟩ := ih (fun a ha => hread a (List.mem_cons_of_mem _ ha))
            (fun a ha => hR a (List.mem_cons_of_mem _ ha)) htails
          exact ⟨rfl, hrest⟩

/-- A list of types can be read back up to its closing bracket. -/
theorem Legible.listed_injective {stop : Char} {rest rest' : List Char}
    {shapes shapes' : List Shape}
    (h : Legible n R)
    (hread : ∀ s ∈ shapes, Readable n R s)
    (hshapes : ∀ s ∈ shapes, R s)
    (hshapes' : ∀ s ∈ shapes', R s)
    (hstop : stop = '>' ∨ stop = ')')
    (heq : n.listed stop rest shapes = n.listed stop rest' shapes') :
    shapes = shapes' ∧ rest = rest' := by
  cases shapes with
  | nil =>
      cases shapes' with
      | nil => exact ⟨rfl, (List.cons.inj heq).2⟩
      | cons s' more' => exact absurd heq (h.stop_ne_name (hshapes' s' List.mem_cons_self) hstop)
  | cons s more =>
      cases shapes' with
      | nil => exact absurd heq.symm (h.stop_ne_name (hshapes s List.mem_cons_self) hstop)
      | cons s' more' =>
          obtain ⟨rfl, htails⟩ := hread s List.mem_cons_self (hshapes' s' List.mem_cons_self)
            (closed_following rest more hstop) (closed_following rest' more' hstop) heq
          obtain ⟨rfl, hrest⟩ := following_injective
            (fun a ha => hread a (List.mem_cons_of_mem _ ha))
            (fun a ha => hshapes' a (List.mem_cons_of_mem _ ha)) hstop htails
          exact ⟨rfl, hrest⟩

/-- A type name and a function type start differently. -/
theorem Legible.isFunction_eq {s t : Shape} {rest rest' : List Char}
    (h : Legible n R)
    (hs : R s)
    (ht : R t)
    (heq : (n.name s).toList ++ rest = (n.name t).toList ++ rest') :
    s.isFunction = t.isFunction := by
  obtain ⟨c, more, hname, hc⟩ := h.head_name hs
  obtain ⟨c', more', hname', hc'⟩ := h.head_name ht
  rw [hname, hname'] at heq
  obtain rfl := (List.cons.inj heq).1
  cases hfunction : s.isFunction <;> cases hfunction' : t.isFunction <;>
    simp only [hfunction, hfunction', if_true, Bool.false_eq_true, if_false] at hc hc' ⊢
  · subst hc'
    exact absurd hc (by decide)
  · subst hc
    exact absurd hc' (by decide)

/-- The question mark of a type is no part of what follows. -/
theorem mark_injective {b b' : Bool} {rest rest' : List Char}
    (hrest : Closed rest)
    (hrest' : Closed rest')
    (h : (Shape.mark b).toList ++ rest = (Shape.mark b').toList ++ rest') :
    b = b' ∧ rest = rest' := by
  cases b <;> cases b'
  · exact ⟨rfl, h⟩
  · obtain rfl : rest = '?' :: rest' := h
    exact absurd (closed_cons.1 hrest) (by decide)
  · obtain rfl : '?' :: rest = rest' := h
    exact absurd (closed_cons.1 hrest') (by decide)
  · exact ⟨rfl, (List.cons.inj h).2⟩

/-- What follows the arguments of a type: a question mark, or what follows the type. -/
theorem head_mark {b : Bool} {rest : List Char} {c : Char}
    (hrest : Closed rest)
    (h : c ∈ ((Shape.mark b).toList ++ rest).head?) :
    c ∈ ['?', ',', '>', ')'] := by
  cases b with
  | false => simpa using .inr (hrest c h)
  | true =>
      obtain rfl : '?' = c := Option.some.inj h
      simp

/-- The arguments of a type can be read back, also if there are none. -/
theorem Legible.argued_injective {rest rest' : List Char} {shapes shapes' : List Shape}
    (h : Legible n R)
    (hread : ∀ s ∈ shapes, Readable n R s)
    (hshapes : ∀ s ∈ shapes, R s)
    (hshapes' : ∀ s ∈ shapes', R s)
    (hrest : '<' ∉ rest.head?)
    (hrest' : '<' ∉ rest'.head?)
    (heq : n.argued rest shapes = n.argued rest' shapes') :
    shapes = shapes' ∧ rest = rest' := by
  cases shapes with
  | nil =>
      cases shapes' with
      | nil => exact ⟨rfl, heq⟩
      | cons s' more' =>
          obtain rfl : rest = '<' :: _ := heq
          exact absurd rfl hrest
  | cons s more =>
      cases shapes' with
      | nil =>
          obtain rfl : '<' :: _ = rest' := heq
          exact absurd rfl hrest'
      | cons s' more' =>
          exact h.listed_injective hread hshapes hshapes' (.inl rfl) (List.cons.inj heq).2

/-- A type is read back if its arguments are. -/
theorem Legible.readable_type {s : Shape}
    (h : Legible n R)
    (hs : R s)
    (hfunction : s.isFunction = false)
    (hread : ∀ a ∈ s.args, Readable n R a) :
    Readable n R s := by
  intro t rest rest' ht hrest hrest' heq
  have hfunction' : t.isFunction = false := by rw [← h.isFunction_eq hs ht heq, hfunction]
  -- brackets and marks are no part of a name
  have hstop : ∀ {b : Bool} {rest : List Char} {shapes : List Shape}, Closed rest →
      ∀ c ∈ (n.argued ((Shape.mark b).toList ++ rest) shapes).head?, isDotted c = false := by
    intro b rest shapes hclosed c hc
    cases shapes with
    | nil =>
        have hmarks : (['?', ',', '>', ')'].all fun c => !isDotted c) = true := by decide
        simpa using List.all_eq_true.1 hmarks c (head_mark hclosed hc)
    | cons a more =>
        obtain rfl : '<' = c := Option.some.inj hc
        decide
  have hbracket : ∀ {b : Bool} {rest : List Char}, Closed rest →
      '<' ∉ ((Shape.mark b).toList ++ rest).head? :=
    fun hclosed hc => absurd (head_mark hclosed hc) (by decide)
  rw [n.name_of_type rest hfunction, n.name_of_type rest' hfunction'] at heq
  obtain ⟨hname, htail⟩ := append_inj_of_run (h.dotted hs hfunction) (h.dotted ht hfunction')
    (hstop hrest) (hstop hrest') heq
  have hkey := h.injective hs ht hfunction hfunction' (String.toList_inj.1 hname)
  obtain ⟨hargs, hmark⟩ := h.argued_injective hread (fun a => h.args hs) (fun a => h.args ht)
    (hbracket hrest) (hbracket hrest') htail
  obtain ⟨hnullable, rfl⟩ := mark_injective hrest hrest' hmark
  exact ⟨Shape.eq_of_key_eq hkey hargs hnullable, rfl⟩

/-- After the parameters of a function type an arrow follows, no question mark. -/
theorem following_ne_question (text rest : List Char) (shapes : List Shape) :
    n.following ')' (" -> ".toList ++ text) shapes ≠ ')' :: '?' :: rest := by
  cases shapes with
  | nil => simp [following]
  | cons s more => simp [following]

/-- The parameters of a function type are no function type in parentheses with a question mark. -/
theorem Legible.listed_ne_question {s : Shape} {text rest : List Char} {params : List Shape}
    (h : Legible n R)
    (hs : R s)
    (hparams : ∀ p ∈ params, R p)
    (hread : Readable n R s ∨ ∀ p ∈ params, Readable n R p) :
    n.listed ')' (" -> ".toList ++ text) params ≠ (n.name s).toList ++ ')' :: '?' :: rest := by
  cases params with
  | nil => exact h.stop_ne_name hs (.inr rfl)
  | cons p more =>
      intro heq
      have hmore := closed_following (n := n) (" -> ".toList ++ text) more (.inr rfl)
      have hend : Closed (')' :: '?' :: rest) := closed_cons.2 (.inr (.inr rfl))
      rcases hread with hread | hread
      · obtain ⟨-, htails⟩ := hread (hparams p List.mem_cons_self) hend hmore heq.symm
        exact following_ne_question _ _ _ htails.symm
      · obtain ⟨-, htails⟩ := hread p List.mem_cons_self hs hmore hend heq
        exact following_ne_question _ _ _ htails

theorem Legible.function_eq {s t : Shape}
    (h : Legible n R)
    (hs : R s)
    (ht : R t)
    (hfunction : s.isFunction = true)
    (hfunction' : t.isFunction = true)
    (hargs : s.args = t.args)
    (hnullable : s.nullable = t.nullable) :
    s = t := by
  have hpackage : ∀ {u : Shape}, u.isFunction = true → u.package = "kotlin" := by
    intro u hu
    simp only [Shape.isFunction, Bool.and_eq_true, beq_iff_eq] at hu
    exact hu.1.1
  refine Shape.eq_of_key_eq ?_ hargs hnullable
  rw [Shape.key, Shape.key, h.canonical hs hfunction, h.canonical ht hfunction', hargs,
    hpackage hfunction, hpackage hfunction']

/-- A function type is read back if its parameters and its result are. -/
theorem Legible.readable_function {s : Shape}
    (h : Legible n R)
    (hs : R s)
    (hfunction : s.isFunction = true)
    (hnullable : s.nullable = false)
    (hread : ∀ a ∈ s.args, Readable n R a) :
    Readable n R s := by
  intro t rest rest' ht hrest hrest' heq
  have hfunction' : t.isFunction = true := by rw [← h.isFunction_eq hs ht heq, hfunction]
  obtain ⟨params, result, hargs⟩ := Shape.exists_params_of_isFunction hfunction
  have hmem : ∀ p ∈ params, p ∈ s.args := fun p hp => hargs ▸ List.mem_append_left _ hp
  rw [n.name_of_function rest hfunction hargs hnullable] at heq
  cases hnullable' : t.nullable with
  | false =>
      obtain ⟨params', result', hargs'⟩ := Shape.exists_params_of_isFunction hfunction'
      rw [n.name_of_function rest' hfunction' hargs' hnullable'] at heq
      obtain ⟨rfl, htails⟩ := h.listed_injective (fun p hp => hread p (hmem p hp))
        (fun p hp => h.args hs (hmem p hp))
        (fun p hp => h.args ht (hargs' ▸ List.mem_append_left _ hp)) (.inr rfl)
        (List.cons.inj heq).2
      obtain ⟨rfl, rfl⟩ := hread result (by simp [hargs]) (h.args ht (by simp [hargs'])) hrest
        hrest' (List.append_cancel_left htails)
      exact ⟨h.function_eq hs ht hfunction hfunction' (hargs.trans hargs'.symm)
        (hnullable.trans hnullable'.symm), rfl⟩
  | true =>
      rw [n.name_of_nullable_function rest' hfunction' hnullable'] at heq
      exact absurd (List.cons.inj heq).2 (h.listed_ne_question (h.required ht)
        (fun p hp => h.args hs (hmem p hp)) (.inr fun p hp => hread p (hmem p hp)))

theorem Legible.readable_nullable_function {s : Shape}
    (h : Legible n R)
    (hs : R s)
    (hfunction : s.isFunction = true)
    (hnullable : s.nullable = true)
    (hread : Readable n R (s.withNullable false)) :
    Readable n R s := by
  intro t rest rest' ht hrest hrest' heq
  have hfunction' : t.isFunction = true := by rw [← h.isFunction_eq hs ht heq, hfunction]
  rw [n.name_of_nullable_function rest hfunction hnullable] at heq
  cases hnullable' : t.nullable with
  | false =>
      obtain ⟨params, result, hargs⟩ := Shape.exists_params_of_isFunction hfunction'
      rw [n.name_of_function rest' hfunction' hargs hnullable'] at heq
      exact absurd (List.cons.inj heq).2.symm (h.listed_ne_question (h.required hs)
        (fun p hp => h.args ht (hargs ▸ List.mem_append_left _ hp)) (.inl hread))
  | true =>
      rw [n.name_of_nullable_function rest' hfunction' hnullable'] at heq
      obtain ⟨hsame, htails⟩ := hread (h.required ht) (closed_cons.2 (.inr (.inr rfl)))
        (closed_cons.2 (.inr (.inr rfl))) (List.cons.inj heq).2
      have hargs : (s.withNullable false).args = (t.withNullable false).args :=
        congrArg Shape.args hsame
      exact ⟨h.function_eq hs ht hfunction hfunction' hargs (hnullable.trans hnullable'.symm),
        (List.cons.inj (List.cons.inj htails).2).2⟩

/-- In a legible text every type can be read back, by induction over the type. -/
theorem Legible.readable {s : Shape}
    (h : Legible n R)
    (hs : R s) :
    Readable n R s := by
  induction s using Shape.induction with
  | step name package args nullable ih =>
      have hargs : ∀ a ∈ args, Readable n R a := fun a ha => ih a ha (h.args hs ha)
      cases hfunction : Shape.isFunction ⟨name, package, args, nullable⟩ with
      | false => exact h.readable_type hs hfunction hargs
      | true =>
          have hrequired : Readable n R ⟨name, package, args, false⟩ :=
            h.readable_function (h.required hs) hfunction rfl hargs
          cases nullable with
          | false => exact hrequired
          | true => exact h.readable_nullable_function hs hfunction rfl hrequired

end Reading

end Namer

section References

/-- With every type, its arguments are in the list. -/
def ArgsClosed (shapes : List Shape) : Prop :=
  ∀ s ∈ shapes, ∀ a ∈ s.args, a ∈ shapes

theorem ArgsClosed.append {shapes shapes' : List Shape}
    (h : ArgsClosed shapes)
    (h' : ArgsClosed shapes') :
    ArgsClosed (shapes ++ shapes') := by
  intro s hs a ha
  rcases List.mem_append.1 hs with hs | hs
  · exact List.mem_append_left _ (h s hs a ha)
  · exact List.mem_append_right _ (h' s hs a ha)

theorem ArgsClosed.flatMap {α : Type} {items : List α} {shapes : α → List Shape}
    (h : ∀ item ∈ items, ArgsClosed (shapes item)) :
    ArgsClosed (items.flatMap shapes) := by
  intro s hs a ha
  obtain ⟨item, hitem, hs⟩ := List.mem_flatMap.1 hs
  exact List.mem_flatMap.2 ⟨item, hitem, h item hitem s hs a ha⟩

/-- The parts of a type are closed under arguments. -/
theorem argsClosed_parts (s : Shape) :
    ArgsClosed s.parts := by
  induction s using Shape.induction with
  | step name package args nullable ih =>
      rw [Mapping.parts_eq]
      intro s hs a ha
      refine List.mem_cons_of_mem _ ?_
      rcases List.mem_cons.1 hs with rfl | hs
      · exact List.mem_flatMap.2 ⟨a, ha, a.self_mem_parts⟩
      · exact ArgsClosed.flatMap ih s hs a ha

theorem argsClosed_partsAll (shapes : List Shape) :
    ArgsClosed (Shape.partsAll shapes) := by
  rw [Shape.partsAll_eq_flatMap]
  exact ArgsClosed.flatMap fun s _ => argsClosed_parts s

theorem PropertyDef.argsClosed_references (p : PropertyDef) :
    ArgsClosed p.references :=
  (argsClosed_parts p.type).append (argsClosed_partsAll _)

theorem FunctionDef.argsClosed_references (g : FunctionDef) :
    ArgsClosed g.references :=
  (((argsClosed_partsAll _).append (argsClosed_partsAll _)).append (argsClosed_partsAll _)).append
    (argsClosed_partsAll _)

theorem TypeDef.argsClosed_references (t : TypeDef) :
    ArgsClosed t.references := by
  refine ArgsClosed.append (ArgsClosed.append (ArgsClosed.append ?_ ?_) ?_) ?_
  · exact (((argsClosed_partsAll _).append (argsClosed_partsAll _)).append
      (argsClosed_partsAll _)).append (argsClosed_partsAll _)
  · exact ArgsClosed.flatMap fun p _ => p.argsClosed_references
  · exact ArgsClosed.flatMap fun c _ => argsClosed_partsAll _
  · exact ArgsClosed.flatMap fun g _ => g.argsClosed_references

/-- The types that a file refers to are closed under arguments. -/
theorem File.argsClosed_references (f : File) :
    ArgsClosed f.references := by
  refine ArgsClosed.flatMap fun m _ => ?_
  cases m with
  | type t => exact t.argsClosed_references
  | function g => exact g.argsClosed_references
  | property p => exact p.argsClosed_references

end References

section File

variable {f : File}

/-- Types, packages and aliases are called by words, function types by their number of
parameters, and no two aliases are the same. -/
structure File.IsLegible (f : File) : Prop where
  names : ∀ s ∈ f.references, IsWord s.name
  packages : ∀ s ∈ f.references, ∀ segment ∈ splitAt '.' s.package, IsWord segment
  aliases : ∀ entry ∈ f.aliases, IsWord entry.2
  distinct : f.HasDistinctAliases
  functions : ∀ s ∈ f.references, s.isFunction = true →
    s.name = "Function" ++ toString (s.args.length - 1)

theorem dotted_of_segments {package : String}
    (h : ∀ segment ∈ splitAt '.' package, IsWord segment) :
    ∀ c ∈ package.toList, isDotted c = true := by
  intro c hc
  rcases mem_or_mem_piece '.' hc with rfl | ⟨piece, hpiece, hc⟩
  · decide
  · exact (h _ (List.mem_map_of_mem hpiece)).dotted c (by simpa using hc)

theorem package_ne_of_segments {package : String}
    (h : ∀ segment ∈ splitAt '.' package, IsWord segment) :
    package ≠ "" := by
  rintro rfl
  exact (h "" (by decide)).1 rfl

theorem File.IsLegible.mem_keys {s : Shape}
    (h : f.IsLegible)
    (hs : s ∈ f.references)
    (hfunction : s.isFunction = false) :
    s.key ∈ Namer.keys f :=
  Namer.mem_keys.2 ⟨s, hs, hfunction, rfl, package_ne_of_segments (h.packages s hs)⟩

/-- The names in a legible file have no dots. -/
theorem File.IsLegible.hasPlainNames
    (h : f.IsLegible) :
    f.HasPlainNames :=
  fun s hs => (h.names s hs).plain

theorem File.IsLegible.plain_aliases
    (h : f.IsLegible) :
    ∀ entry ∈ f.aliases, '.' ∉ entry.2.toList :=
  fun entry hentry => (h.aliases entry hentry).plain

/-- In a legible file, every type is called by words joined by dots. -/
theorem File.IsLegible.rawName_dotted {s : Shape}
    (h : f.IsLegible)
    (hs : s ∈ f.references)
    (hfunction : s.isFunction = false) :
    (Namer.ofFile f).rawName s.key ≠ "" ∧
      ∀ c ∈ ((Namer.ofFile f).rawName s.key).toList, isDotted c = true := by
  have hpackage := h.packages s hs
  rcases Namer.rawName_cases h.hasPlainNames (h.mem_keys hs hfunction) with
    ⟨short, hentry, hname⟩ | ⟨-, hname⟩ | hname
  · rw [hname]
    exact ⟨(h.aliases _ hentry).1, (h.aliases _ hentry).dotted⟩
  · rw [hname]
    exact ⟨(h.names s hs).1, (h.names s hs).dotted⟩
  · have hlist := Key.toList_qualified (k := s.key) (package_ne_of_segments hpackage)
    rw [hname]
    refine ⟨?_, ?_⟩
    · intro hempty
      rw [hempty] at hlist
      simp at hlist
    · intro c hc
      rw [hlist, List.mem_append, List.mem_cons] at hc
      rcases hc with hc | rfl | hc
      · exact dotted_of_segments hpackage c hc
      · decide
      · exact (h.names s hs).dotted c hc

/-- The types that a file refers to, with any nullability. -/
def File.Mentions (f : File) (s : Shape) : Prop :=
  ∃ u ∈ f.references, u.key = s.key ∧ u.args = s.args

theorem isFunction_congr {s u : Shape}
    (hkey : u.key = s.key)
    (hargs : u.args = s.args) :
    u.isFunction = s.isFunction := by
  obtain ⟨hpackage, hname⟩ := Key.mk.inj hkey
  rw [Shape.isFunction, Shape.isFunction, hpackage, hname, hargs]

/-- Types can be read back if their names can be told apart. -/
theorem File.legible_mentions
    (hdotted : ∀ s ∈ f.references, s.isFunction = false →
      (Namer.ofFile f).rawName s.key ≠ "" ∧
        ∀ c ∈ ((Namer.ofFile f).rawName s.key).toList, isDotted c = true)
    (hinjective : ∀ s ∈ f.references, ∀ t ∈ f.references, s.isFunction = false →
      t.isFunction = false → (Namer.ofFile f).rawName s.key = (Namer.ofFile f).rawName t.key →
      s.key = t.key)
    (hfunctions : ∀ s ∈ f.references, s.isFunction = true →
      s.name = "Function" ++ toString (s.args.length - 1)) :
    Namer.Legible (Namer.ofFile f) f.Mentions where
  args := by
    rintro s a ⟨u, hu, -, hargs⟩ ha
    exact ⟨a, f.argsClosed_references u hu a (hargs ▸ ha), rfl, rfl⟩
  required := fun ⟨u, hu, hkey, hargs⟩ => ⟨u, hu, hkey, hargs⟩
  ne_empty := by
    rintro s ⟨u, hu, hkey, hargs⟩ hfunction
    rw [← hkey]
    exact (hdotted u hu ((isFunction_congr hkey hargs).trans hfunction)).1
  dotted := by
    rintro s ⟨u, hu, hkey, hargs⟩ hfunction
    rw [← hkey]
    exact (hdotted u hu ((isFunction_congr hkey hargs).trans hfunction)).2
  injective := by
    rintro s t ⟨u, hu, hkey, hargs⟩ ⟨v, hv, hkey', hargs'⟩ hfunction hfunction' hname
    rw [← hkey, ← hkey'] at hname ⊢
    exact hinjective u hu v hv ((isFunction_congr hkey hargs).trans hfunction)
      ((isFunction_congr hkey' hargs').trans hfunction') hname
  canonical := by
    rintro s ⟨u, hu, hkey, hargs⟩ hfunction
    have hname : u.name = s.name := congrArg Key.name hkey
    rw [← hname, ← hargs]
    exact hfunctions u hu ((isFunction_congr hkey hargs).trans hfunction)

/-- The names in a legible file are legible. -/
theorem File.IsLegible.legible
    (h : f.IsLegible) :
    Namer.Legible (Namer.ofFile f) f.Mentions := by
  refine File.legible_mentions (fun s hs => h.rawName_dotted hs) ?_ h.functions
  intro s hs t ht hfunction hfunction' hname
  exact Namer.rawName_injective h.hasPlainNames h.distinct h.plain_aliases
    (h.mem_keys hs hfunction) (h.mem_keys ht hfunction') hname

/-- No two types that a file refers to have the same text. -/
theorem name_injOn_references
    (h : f.IsLegible) :
    Set.InjOn (Namer.ofFile f).name {s | s ∈ f.references} := by
  intro s hs t ht htext
  have hclosed : Closed [] := by simp [Closed]
  have hread := h.legible.readable ⟨s, hs, rfl, rfl⟩
  exact (hread ⟨t, ht, rfl, rfl⟩ hclosed hclosed (by rw [htext])).1

/-- Boxes of three packages, and function types that differ in a question mark. -/
def boxes : File where
  package := "app"
  name := "Boxes"
  aliases := [("c.Box", "OtherBox")]
  members :=
    [.function
      { name := "pack"
        params :=
          [{ name := "lazy"
             type := .functionOf [] { name := "Box", package := "a", nullable := true } },
           { name := "optional"
             type := .functionOf [] { name := "Box", package := "a" } true },
           { name := "nested"
             type := .functionOf [.functionOf [] { name := "Box", package := "a" }]
               { name := "Box", package := "b" } }]
        result := some { name := "Box", package := "c", args := [.double] } }]

theorem name_injOn_references_of_boxes :
    boxes.IsLegible ∧ Set.InjOn (Namer.ofFile boxes).name {s | s ∈ boxes.references} := by
  have hlegible : boxes.IsLegible :=
    { names := by decide +kernel
      packages := by decide +kernel
      aliases := by decide +kernel
      distinct := by decide
      functions := by decide +kernel }
  exact ⟨hlegible, name_injOn_references hlegible⟩

end File

end Source

end Facade
