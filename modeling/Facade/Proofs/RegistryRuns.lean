import Facade.Mapping.Registry
import Facade.Proofs.ConversionCode

/-!
# Runs of a registry

A registry is filled, frozen and asked.  What it answers is fixed by the history of its operations:
by the rules that were accepted before it was frozen, in the order of their acceptance.

**Input.**  A list of operations, made one after the other on an empty registry: registrations of
one rule, registrations of all built-in rules, which may stop half-way, freezing, and look-ups.

**Results.**
* `rules_after`: a registry holds the rules that were accepted in the course of its run.
* `after_of_frozen`: nothing changes a frozen registry.
* `find?_eq_iff`: what a look-up finds, from the accepted rules alone.
* `run_keeps_contract`: all of this for every run.
-/

namespace Facade
namespace Mapping

/-- The registration of one rule. -/
inductive Registration where
  /-- Any rule. -/
  | rule (r : Rule)
  /-- A rule for the type of a shape. -/
  | type (s : Shape) (conversion : Conversion)
  /-- A type that is shown as it is. -/
  | identity (s : Shape)
  /-- A rule for all shapes that meet a condition. -/
  | pattern (condition : Pattern) (description : String) (conversion : Conversion)
  | exception (s : Shape)
  /-- A declaration of the session. -/
  | exported (native : Shape) (exportName : String) (erase : Bool)

/-- The rule that is offered. -/
def Registration.offered : Registration → Rule
  | .rule r => r
  | .type s conversion => .exact s conversion
  | .identity s => .exact s .identity
  | .pattern condition description conversion => .patterned condition description conversion
  | .exception s => .exception s
  | .exported native exportName erase => .exported native exportName erase

/-- A look-up. -/
inductive Question where
  | rule (s : Shape)
  | exported (s : Shape)
  | isIdentity (s : Shape)
  | convert (d : Direction) (e : Code.Expr) (s : Shape)

/-- What a look-up gives. -/
inductive Reply where
  | rule (r : Option Rule)
  | shape (s : Shape)
  | flag (b : Bool)
  | code (e : Code.Expr)

/-- What is done with a registry. -/
inductive Operation where
  | register (r : Registration)
  | registerBuiltins (extraExceptions : List Shape)
  | freeze
  | ask (q : Question)

/-- The rules that an operation offers, in order. -/
def Operation.offers : Operation → List Rule
  | .register r => [r.offered]
  | .registerBuiltins extraExceptions => builtinRules extraExceptions
  | .freeze => []
  | .ask _ => []

namespace Registry

/-- The answer to a look-up. -/
def ask (g : Registry) : Question → Except QueryError Reply
  | .rule s => (g.find? s).map .rule
  | .exported s => (g.exported s).map .shape
  | .isIdentity s => (g.isIdentity s).map .flag
  | .convert d e s => (g.convert d e s).map .code

/-- Whether the registration of a rule is accepted. -/
def verdict (g : Registry) (r : Registration) : Except RegistrationError Unit :=
  (g.addAll [r.offered]).2

/-- The registry after an operation. -/
def perform (g : Registry) : Operation → Registry
  | .register r => (g.addAll [r.offered]).1
  | .registerBuiltins extraExceptions => (g.addAll (builtinRules extraExceptions)).1
  | .freeze => g.freeze
  | .ask _ => g

/-- The registry after a run of operations. -/
def after (g : Registry) : List Operation → Registry
  | [] => g
  | op :: rest => (g.perform op).after rest

/-- The offered rules that are accepted: all up to the first that is refused. -/
def accepts (g : Registry) : List Rule → List Rule
  | [] => []
  | r :: rest =>
      match g.add r with
      | .ok g' => r :: g'.accepts rest
      | .error _ => []

/-- The rules that are accepted in the course of a run, in order. -/
def accepted (g : Registry) : List Operation → List Rule
  | [] => []
  | op :: rest => g.accepts op.offers ++ (g.perform op).accepted rest

end Registry

/-- What a look-up of a shape finds among accepted rules. -/
inductive Finds (accepted : List Rule) (s : Shape) : Except QueryError (Option Rule) → Prop
  /-- The rule for the key of the shape. -/
  | exact {r : Rule}
      (hmem : r ∈ accepted)
      (hkey : r.key? = some s.key) :
      Finds accepted s (.ok (some r))
  /-- The earliest rule whose pattern holds, when there is no rule for the key. -/
  | pattern {earlier later : List Rule} {r : Rule}
      (hexact : ∀ q ∈ accepted, q.key? ≠ some s.key)
      (hsplit : accepted = earlier ++ r :: later)
      (hearlier : ∀ q ∈ earlier, q.holds s = .ok false)
      (hholds : r.holds s = .ok true) :
      Finds accepted s (.ok (some r))
  /-- Nothing, when no pattern holds either. -/
  | nothing
      (hexact : ∀ q ∈ accepted, q.key? ≠ some s.key)
      (hnone : ∀ q ∈ accepted, q.holds s = .ok false) :
      Finds accepted s (.ok none)
  /-- A pattern that comes before all that hold cannot be decided. -/
  | undecided {earlier later : List Rule} {r : Rule} {o : Text.Overlong}
      (hexact : ∀ q ∈ accepted, q.key? ≠ some s.key)
      (hsplit : accepted = earlier ++ r :: later)
      (hearlier : ∀ q ∈ earlier, q.holds s = .ok false)
      (hfails : r.holds s = .error o) :
      Finds accepted s (.error (.fault (.overlong o)))

section Steps

variable {g : Registry}

theorem Registry.add_of_frozen
    (h : g.frozen = true) (r : Rule) :
    g.add r = .error .frozen := by
  rw [add, if_pos h]

/-- Rules that are offered together are appended as far as they are accepted. -/
theorem Registry.rules_addAll (g : Registry) (rules : List Rule) :
    (g.addAll rules).1.table.rules = g.table.rules ++ g.accepts rules := by
  induction rules generalizing g with
  | nil => simp [addAll, accepts]
  | cons r rest ih =>
      rw [addAll, accepts]
      cases hadd : g.add r with
      | ok g' => simp [ih, (add_eq_ok hadd).1]
      | error e => simp

theorem Registry.frozen_addAll (g : Registry) (rules : List Rule) :
    (g.addAll rules).1.frozen = g.frozen := by
  induction rules generalizing g with
  | nil => rfl
  | cons r rest ih =>
      rw [addAll]
      cases hadd : g.add r with
      | ok g' => simp [ih, (add_eq_ok hadd).2]
      | error e => rfl

/-- One operation appends the rules that it offers, up to the first that is refused. -/
theorem Registry.rules_perform (g : Registry) (op : Operation) :
    (g.perform op).table.rules = g.table.rules ++ g.accepts op.offers := by
  cases op with
  | register r => exact rules_addAll g _
  | registerBuiltins extra => exact rules_addAll g _
  | freeze => simp [perform, Registry.freeze, Operation.offers, accepts]
  | ask q => simp [perform, Operation.offers, accepts]

/-- Only freezing freezes. -/
theorem Registry.frozen_perform_iff (op : Operation) :
    (g.perform op).frozen = true ↔ g.frozen = true ∨ op = .freeze := by
  cases op with
  | register r => simp [perform, frozen_addAll]
  | registerBuiltins extra => simp [perform, frozen_addAll]
  | freeze => simp [perform, Registry.freeze]
  | ask q => simp [perform]

/-- A frozen registry stays as it is. -/
theorem Registry.perform_of_frozen
    (h : g.frozen = true) (op : Operation) :
    g.perform op = g := by
  cases op with
  | register r => exact addAll_frozen h _
  | registerBuiltins extra => exact addAll_frozen h _
  | freeze =>
      obtain ⟨table, frozen⟩ := g
      obtain rfl : frozen = true := h
      rfl
  | ask q => rfl

/-- Whatever is done, no key gets a second rule. -/
theorem Registry.nodup_perform (op : Operation)
    (hnodup : (g.table.rules.filterMap Rule.key?).Nodup) :
    ((g.perform op).table.rules.filterMap Rule.key?).Nodup := by
  cases op with
  | register r => exact nodup_addAll _ hnodup
  | registerBuiltins extra => exact nodup_addAll _ hnodup
  | freeze => exact hnodup
  | ask q => exact hnodup

/-- An open registry accepts every rule for a new key. -/
theorem Registry.verdict_eq_ok
    (hopen : g.frozen = false) {r : Registration}
    (hnew : ∀ q ∈ g.table.rules, r.offered.key?.isSome → q.key? ≠ r.offered.key?) :
    g.verdict r = .ok () := by
  have hfresh : (r.offered.key?.filter fun key => (g.table.findExact? key).isSome) = none := by
    cases hkey : r.offered.key? with
    | none => rfl
    | some key =>
        have hnone : g.table.findExact? key = none := by
          rw [Table.findExact?, List.find?_eq_none]
          intro q hq
          simpa [hkey] using hnew q hq
        simp [hnone]
  simp only [verdict, addAll, add, hopen, Bool.false_eq_true, if_false, hfresh]

/-- A rule that is refused changes nothing. -/
theorem Registry.perform_of_verdict_eq_error {r : Registration} {e : RegistrationError}
    (h : g.verdict r = .error e) :
    g.perform (.register r) = g := by
  rw [verdict, addAll] at h
  rw [perform, addAll]
  cases hadd : g.add r.offered with
  | ok g' => simp [hadd, addAll] at h
  | error e' => rfl

/-- A registry that is not frozen answers nothing. -/
theorem Registry.ask_of_unfrozen
    (h : g.frozen = false) (q : Question) :
    g.ask q = .error .unfrozen := by
  have hquery : ∀ {α : Type} (f : Table → Except Fault α), g.query f = .error .unfrozen := by
    intro α f
    rw [query, h]
    rfl
  cases q with
  | rule s => rw [ask, find?, hquery]; rfl
  | exported s => rw [ask, Registry.exported, hquery]; rfl
  | isIdentity s => rw [ask, Registry.isIdentity, hquery]; rfl
  | convert d e s => rw [ask, Registry.convert, hquery]; rfl

end Steps

section Runs

variable {g : Registry}

/-- The rules after a run are those before it and those that were accepted. -/
theorem Registry.rules_after (g : Registry) (ops : List Operation) :
    (g.after ops).table.rules = g.table.rules ++ g.accepted ops := by
  induction ops generalizing g with
  | nil => simp [after, accepted]
  | cons op rest ih => rw [after, accepted, ih, rules_perform, List.append_assoc]

/-- A registry is frozen after a run exactly if it was before or the run froze it. -/
theorem Registry.frozen_after_iff (ops : List Operation) :
    (g.after ops).frozen = true ↔ g.frozen = true ∨ .freeze ∈ ops := by
  induction ops generalizing g with
  | nil => simp [after]
  | cons op rest ih =>
      rw [after, ih, frozen_perform_iff, List.mem_cons, or_assoc, @eq_comm _ op]

theorem Registry.after_of_frozen
    (h : g.frozen = true) (ops : List Operation) :
    g.after ops = g := by
  induction ops with
  | nil => rfl
  | cons op rest ih => rw [after, perform_of_frozen h, ih]

/-- No run gives a key two rules. -/
theorem Registry.nodup_after (ops : List Operation)
    (hnodup : (g.table.rules.filterMap Rule.key?).Nodup) :
    ((g.after ops).table.rules.filterMap Rule.key?).Nodup := by
  induction ops generalizing g with
  | nil => exact hnodup
  | cons op rest ih => exact ih (nodup_perform op hnodup)

end Runs

section Answers

variable {s : Shape} {rules : List Rule}

theorem Table.firstHolding?_append {earlier : List Rule}
    (h : ∀ q ∈ earlier, q.holds s = .ok false) (rest : List Rule) :
    firstHolding? s (earlier ++ rest) = firstHolding? s rest := by
  induction earlier with
  | nil => rfl
  | cons q earlier ih =>
      rw [List.cons_append, firstHolding?, h q List.mem_cons_self]
      exact ih fun q' hq' => h q' (List.mem_cons_of_mem _ hq')

/-- Patterns are asked in order up to the first that does not say no. -/
theorem Table.firstHolding?_cases (s : Shape) (rules : List Rule) :
    (∀ q ∈ rules, q.holds s = .ok false) ∨
      ∃ earlier r later, rules = earlier ++ r :: later ∧ (∀ q ∈ earlier, q.holds s = .ok false) ∧
        (r.holds s = .ok true ∨ ∃ o, r.holds s = .error o) := by
  induction rules with
  | nil => exact .inl (by simp)
  | cons q rest ih =>
      cases hq : q.holds s with
      | error o => exact .inr ⟨[], q, rest, rfl, by simp, .inr ⟨o, hq⟩⟩
      | ok b =>
          cases b with
          | true => exact .inr ⟨[], q, rest, rfl, by simp, .inl hq⟩
          | false =>
              rcases ih with hnone | ⟨earlier, r, later, rfl, hearlier, hr⟩
              · exact .inl (List.forall_mem_cons.2 ⟨hq, hnone⟩)
              · exact .inr ⟨q :: earlier, r, later, rfl, List.forall_mem_cons.2 ⟨hq, hearlier⟩, hr⟩

/-- Where keys have one rule each, the rule for a key is found. -/
theorem Table.findExact?_eq_some_iff {t : Table} {key : Key} {r : Rule}
    (hnodup : (t.rules.filterMap Rule.key?).Nodup) :
    t.findExact? key = some r ↔ r ∈ t.rules ∧ r.key? = some key := by
  constructor
  · intro h
    exact ⟨List.mem_of_find?_eq_some h, by simpa using List.find?_some h⟩
  · rintro ⟨hmem, hkey⟩
    obtain ⟨earlier, later, hsplit⟩ := List.append_of_mem hmem
    have hearlier : ∀ q ∈ earlier, q.key? ≠ some key := by
      intro q hq hqkey
      rw [hsplit, List.filterMap_append, List.filterMap_cons, hkey] at hnodup
      have hleft : key ∈ earlier.filterMap Rule.key? := List.mem_filterMap.2 ⟨q, hq, hqkey⟩
      exact (List.nodup_append.1 hnodup).2.2 key hleft key List.mem_cons_self rfl
    rw [findExact?, hsplit, List.find?_append]
    have hnone : earlier.find? (fun q => q.key? == some key) = none := by
      rw [List.find?_eq_none]
      intro q hq
      simpa using hearlier q hq
    rw [hnone]
    simp [hkey]

/-- A frozen registry answers as its table does. -/
theorem Registry.find?_eq {g : Registry}
    (hfrozen : g.frozen = true) (s : Shape) :
    g.find? s = ((g.table.find? s).mapError Fault.overlong).mapError .fault := by
  rw [find?, query, if_pos hfrozen]

/-- A look-up by key does not see the patterns, and patterns are asked only when it finds none. -/
theorem Registry.find?_eq_iff {g : Registry} {a : Except QueryError (Option Rule)}
    (hfrozen : g.frozen = true)
    (hnodup : (g.table.rules.filterMap Rule.key?).Nodup) :
    g.find? s = a ↔ Finds g.table.rules s a := by
  have hnone : (∀ q ∈ g.table.rules, q.key? ≠ some s.key) ↔ g.table.findExact? s.key = none := by
    simp [Table.findExact?, List.find?_eq_none]
  rw [find?_eq hfrozen, Table.find?]
  constructor
  · rintro rfl
    cases hexact : g.table.findExact? s.key with
    | some r =>
        obtain ⟨hmem, hkey⟩ := (Table.findExact?_eq_some_iff hnodup).1 hexact
        exact .exact hmem hkey
    | none =>
        have hfree := hnone.2 hexact
        rcases Table.firstHolding?_cases s g.table.rules with
          hall | ⟨earlier, r, later, hsplit, hearlier, hholds | ⟨o, hfails⟩⟩
        · have hend := Table.firstHolding?_append hall []
          rw [List.append_nil] at hend
          rw [hend]
          exact .nothing hfree hall
        · rw [hsplit, Table.firstHolding?_append hearlier, Table.firstHolding?, hholds, ← hsplit]
          exact .pattern hfree hsplit hearlier hholds
        · rw [hsplit, Table.firstHolding?_append hearlier, Table.firstHolding?, hfails, ← hsplit]
          exact .undecided hfree hsplit hearlier hfails
  · intro h
    cases h with
    | exact hmem hkey => rw [(Table.findExact?_eq_some_iff hnodup).2 ⟨hmem, hkey⟩]; rfl
    | pattern hexact hsplit hearlier hholds =>
        rw [hnone.1 hexact, hsplit, Table.firstHolding?_append hearlier, Table.firstHolding?,
          hholds]
        rfl
    | nothing hexact hall =>
        have hend := Table.firstHolding?_append hall []
        rw [List.append_nil] at hend
        rw [hnone.1 hexact, hend]
        rfl
    | undecided hexact hsplit hearlier hfails =>
        rw [hnone.1 hexact, hsplit, Table.firstHolding?_append hearlier, Table.firstHolding?,
          hfails]
        rfl

end Answers

/-- What holds of a registry after a run of operations. -/
structure Contract (before : List Operation) (g : Registry) : Prop where
  /-- A registry that was not frozen answers no look-up. -/
  unfrozen : .freeze ∉ before → ∀ q, g.ask q = .error .unfrozen
  /-- A rule is accepted before that, unless its key has one. -/
  accepting : .freeze ∉ before → ∀ r : Registration,
    (∀ q ∈ Registry.empty.accepted before, r.offered.key?.isSome → q.key? ≠ r.offered.key?) →
      g.verdict r = .ok ()
  /-- A rule that is refused leaves no trace. -/
  refused : ∀ r e, g.verdict r = .error e → g.perform (.register r) = g
  /-- A frozen registry refuses every rule. -/
  frozen : .freeze ∈ before → ∀ r, g.verdict r = .error .frozen
  /-- Nothing changes it any more. -/
  final : .freeze ∈ before → ∀ later, g.after later = g
  /-- There is at most one rule for a key. -/
  unique : ((Registry.empty.accepted before).filterMap Rule.key?).Nodup
  /-- Its look-ups follow from the accepted rules. -/
  found : .freeze ∈ before → ∀ s a, g.find? s = a ↔ Finds (Registry.empty.accepted before) s a

/-- After any operations, a registry has at most one rule for a key, accepts rules until it is
frozen, and answers only after that, as the accepted rules say. -/
theorem run_keeps_contract (before : List Operation) :
    Contract before (Registry.empty.after before) := by
  have hrules : (Registry.empty.after before).table.rules = Registry.empty.accepted before :=
    Registry.rules_after Registry.empty before
  have hfrozen : (Registry.empty.after before).frozen = true ↔ .freeze ∈ before := by
    rw [Registry.frozen_after_iff]
    simp [Registry.empty]
  have hnodup := Registry.nodup_after (g := Registry.empty) before List.nodup_nil
  constructor
  case unfrozen =>
    intro hopen
    exact Registry.ask_of_unfrozen (Bool.eq_false_iff.2 fun h => hopen (hfrozen.1 h))
  case accepting =>
    intro hopen r hnew
    refine Registry.verdict_eq_ok (Bool.eq_false_iff.2 fun h => hopen (hfrozen.1 h)) ?_
    rwa [hrules]
  case refused =>
    intro r e h
    exact Registry.perform_of_verdict_eq_error h
  case frozen =>
    intro h r
    rw [Registry.verdict, Registry.addAll, Registry.add_of_frozen (hfrozen.2 h)]
  case final =>
    intro h
    exact Registry.after_of_frozen (hfrozen.2 h)
  case unique => rwa [← hrules]
  case found =>
    intro h s a
    rw [← hrules]
    exact Registry.find?_eq_iff (hfrozen.2 h) hnodup

/-- A type is shown as it is before the built-in rules are offered, which stop at the rule for that
type. -/
def stoppedBuiltins : List Operation :=
  [.register (.identity .long), .registerBuiltins [],
    .register (.pattern .always "every type" .identity), .register (.identity .string), .freeze]

theorem run_keeps_contract_of_stoppedBuiltins :
    .freeze ∈ stoppedBuiltins ∧
      ∃ r : Rule, r.description = "every type" ∧
        (Registry.empty.after stoppedBuiltins).find? .list = .ok (some r) ∧
        Finds (Registry.empty.accepted stoppedBuiltins) .list (.ok (some r)) := by
  have hmem : .freeze ∈ stoppedBuiltins := by simp [stoppedBuiltins]
  have hfound : ((Registry.empty.after stoppedBuiltins).find? .list).toOption.join.any
      (fun r => r.description == "every type") = true := by decide +kernel
  obtain ⟨r, hr, hdescription⟩ := (Option.any_eq_true _ _).1 hfound
  have hlist : (Registry.empty.after stoppedBuiltins).find? .list = .ok (some r) := by
    cases hanswer : (Registry.empty.after stoppedBuiltins).find? .list with
    | error e => simp [hanswer, Except.toOption] at hr
    | ok found => simpa [hanswer, Except.toOption] using hr
  exact ⟨hmem, r, by simpa using hdescription, hlist,
    ((run_keeps_contract stoppedBuiltins).found hmem _ _).1 hlist⟩

section Undecided

/-- The built-in rules alone. -/
def builtinRun : List Operation :=
  [.registerBuiltins [], .freeze]

theorem after_builtinRun :
    Registry.empty.after builtinRun = ⟨⟨builtinRules []⟩, true⟩ := by
  have hnodup : ((Registry.empty.table.rules ++ builtinRules []).filterMap Rule.key?).Nodup := by
    decide
  have hadd := Registry.addAll_of_nodup (g := Registry.empty) rfl hnodup
  rw [builtinRun, Registry.after, Registry.perform, hadd]
  rfl

theorem accepted_builtinRun :
    Registry.empty.accepted builtinRun = builtinRules [] := by
  have hrules := Registry.rules_after Registry.empty builtinRun
  rw [after_builtinRun] at hrules
  exact hrules.symm

/-- No built-in type has the name of a function type. -/
theorem key?_ne_longNumber {count : Nat} {q : Rule}
    (hq : q ∈ builtinRules []) :
    q.key? ≠ some (longNumber count).key := by
  intro hkey
  have hbuiltin : ∀ key ∈ (builtinRules []).filterMap Rule.key?,
      Text.afterChars? "Function".toList key.name.toList = none := by decide +kernel
  have hnone := hbuiltin _ (List.mem_filterMap.2 ⟨q, hq, hkey⟩)
  have hname : (longNumber count).key.name.toList =
      "Function".toList ++ List.replicate count '1' := by
    simp [longNumber, Shape.kotlin, Shape.key]
  rw [hname, Text.afterChars?_append] at hnone
  simp at hnone

/-- No built-in rule applies to a number that cannot be read. -/
theorem holds_longNumber_ne {count : Nat} {q : Rule}
    (h : Text.maxDigits < count)
    (hq : q ∈ builtinRules []) :
    q.holds (longNumber count) ≠ .ok true := by
  have hfunction : (longNumber count).checkFunction = .error ⟨count⟩ := by
    rw [Shape.checkFunction, overlong?_longNumber h]
  simp only [builtinRules, List.mem_append, List.mem_map, List.mem_cons, List.not_mem_nil,
    or_false] at hq
  rcases hq with ((⟨t, -, rfl⟩ | rfl | rfl | rfl | rfl) | ⟨t, -, rfl⟩) | rfl
  case inr => simp [Rule.patterned, Rule.holds, Pattern.holds, hfunction]
  all_goals simp [Rule.exact, Rule.exception, Rule.holds]

/-- A type whose number cannot be read has no rule, and still the look-up does not say so. -/
theorem exists_undecided_lookup :
    ∃ before s, .freeze ∈ before ∧
      (∀ q ∈ Registry.empty.accepted before, q.key? ≠ some s.key ∧ q.holds s ≠ .ok true) ∧
      (Registry.empty.after before).find? s ≠ .ok none := by
  have hlong : Text.maxDigits < 4301 := by decide
  have hnodup : ((builtinRules []).filterMap Rule.key?).Nodup := by decide
  refine ⟨builtinRun, longNumber 4301, by simp [builtinRun], ?_, ?_⟩
  · rw [accepted_builtinRun]
    exact fun q hq => ⟨key?_ne_longNumber hq, holds_longNumber_ne hlong hq⟩
  · rw [after_builtinRun]
    intro hfound
    have hnothing := (Registry.find?_eq_iff rfl hnodup).1 hfound
    cases hnothing with
    | nothing hexact hnone =>
        have hfunction : (longNumber 4301).checkFunction = .ok false :=
          hnone (.patterned .function "kotlin.FunctionN" .function) (by simp [builtinRules])
        rw [Shape.checkFunction, overlong?_longNumber hlong] at hfunction
        simp at hfunction

end Undecided

end Mapping
end Facade
