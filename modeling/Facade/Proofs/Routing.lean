import Facade.Proofs.WrapperFile
import Mathlib.Data.List.Find

/-!
# Routing native types to their wrappers

The table of a session is built before any file, from what the requests register.  A file is built
later, on its own.  The two agree: a native type is converted by the functions that the file of the
first request for it declares.

**Input.**  The requests of a session.  Requests for one declaration carry the same description,
instances have a name and type arguments, and no built-in type is asked for.

**Results.**
* `conversion?_of_registered`: a type that is registered is converted through its wrapper.
* `Coherent.exists_start`: such a session starts.
* `agrees_of_conversion?`: the table and a file agree once the table routes the native type to the
  wrapper of the file, which the session does for the first request that succeeds.
-/

namespace Facade

open Wrapper Source Mapping Code

namespace Shape

/-- Whether a type goes by a name that is kept for function types. -/
def hasFunctionName (s : Shape) : Bool :=
  s.package == "kotlin" && (functionDigits? s.name).isSome

theorem checkFunction_of_hasFunctionName {s : Shape}
    (h : s.hasFunctionName = false) :
    s.checkFunction = .ok false := by
  rw [checkFunction_eq_ok_iff]
  by_cases hpackage : s.package = "kotlin"
  · have hdigits : functionDigits? s.name = none := by simpa [hasFunctionName, hpackage] using h
    constructor
    · simp [overlong?, hdigits]
    · simp [isFunction, functionArity?, hdigits]
  · constructor
    · simp [overlong?, hpackage]
    · simp [isFunction, hpackage]

end Shape

section Registered

variable {known : Dictionary Shape String} {extra : List Shape} {erase : Bool} {T : Table}
variable {native : Shape} {name : String}

/-- A key that is neither built in nor an exception has the rule of its declaration. -/
theorem keyConversion?_of_not_mem {key : Key}
    (hbuiltin : key ∉ builtinKeys)
    (hexception : key ∉ exceptionKeys extra) :
    keyConversion? known extra erase key =
      (known.find? fun entry => entry.1.args.isEmpty && entry.1.key == key).map fun entry =>
        .wrapper (wrapperKey entry.1 entry.2 erase) := by
  simp only [builtinKeys, List.mem_append, List.mem_cons, List.not_mem_nil, or_false, not_or]
    at hbuiltin
  obtain ⟨hidentity, hlong, hlongArray, harray, hlist⟩ := hbuiltin
  rw [keyConversion?, if_neg hidentity, if_neg hlong, if_neg hlongArray, if_neg harray,
    if_neg hlist, if_neg hexception]

/-- A declared type without arguments is converted by its wrapper. -/
theorem conversion?_of_declared
    (hT : Table.ofSession known extra erase = .ok T)
    (hnullable : ∀ entry ∈ known, entry.1.nullable = false)
    (hfind : known.find? (fun entry => entry.1 = native) = some (native, name))
    (hargs : native.args = [])
    (hbuiltin : native.key ∉ builtinKeys)
    (hexception : native.key ∉ exceptionKeys extra) :
    T.conversion? native = .ok (some (.wrapper (wrapperKey native name erase))) := by
  have hnative : native.nullable = false := hnullable _ (List.mem_of_find?_eq_some hfind)
  have hsame : (known.find? fun entry => entry.1.args.isEmpty && entry.1.key == native.key) =
      some (native, name) := by
    rw [← hfind]
    refine List.find?_congr fun entry hmem => ?_
    rw [Bool.eq_iff_iff]
    simp only [Bool.and_eq_true, List.isEmpty_iff, beq_iff_eq, decide_eq_true_eq,
      Shape.eq_iff_of_nullable (hnullable entry hmem) hnative, hargs]
    exact and_comm
  rw [conversion?_ofSession hT, keyConversion?_of_not_mem hbuiltin hexception, hsame]
  rfl

/-- A type without arguments is found by its key, an instance by its key and its arguments. -/
theorem conversion?_of_registered
    (hT : Table.ofSession known extra erase = .ok T)
    (hnullable : ∀ entry ∈ known, entry.1.nullable = false)
    (hfind : known.find? (fun entry => entry.1 = native) = some (native, name))
    (hbuiltin : native.key ∉ builtinKeys)
    (hexception : native.key ∉ exceptionKeys extra)
    (hfunction : native.hasFunctionName = false)
    (hinstance : native.args ≠ [] → ∀ entry ∈ known, entry.1.key = native.key →
      entry.1.args ≠ []) :
    T.conversion? native = .ok (some (.wrapper (wrapperKey native name erase))) := by
  have hnative : native.nullable = false := hnullable _ (List.mem_of_find?_eq_some hfind)
  have heq : ∀ entry ∈ known,
      (entry.1 = native ↔ entry.1.key = native.key ∧ entry.1.args = native.args) :=
    fun entry hmem => Shape.eq_iff_of_nullable (hnullable entry hmem) hnative
  -- both searches test for the native type itself, as long as only registered types are tested
  by_cases hargs : native.args = []
  · exact conversion?_of_declared hT hnullable hfind hargs hbuiltin hexception
  · have hnone : (known.find? fun entry => entry.1.args.isEmpty && entry.1.key == native.key) =
        none := by
      rw [List.find?_eq_none]
      intro entry hmem hholds
      simp only [Bool.and_eq_true, List.isEmpty_iff, beq_iff_eq] at hholds
      exact hinstance hargs entry hmem hholds.2 hholds.1
    have hsame : (known.find? fun entry => !entry.1.args.isEmpty &&
        (native.key == entry.1.key && native.args == entry.1.args)) = some (native, name) := by
      rw [← hfind]
      refine List.find?_congr fun entry hmem => ?_
      rw [Bool.eq_iff_iff]
      simp only [Bool.and_eq_true, Bool.not_eq_true', List.isEmpty_eq_false_iff, beq_iff_eq,
        decide_eq_true_eq, heq entry hmem]
      constructor
      · rintro ⟨-, hkey, hargs'⟩
        exact ⟨hkey.symm, hargs'.symm⟩
      · rintro ⟨hkey, hargs'⟩
        exact ⟨hargs' ▸ hargs, hkey.symm, hargs'.symm⟩
    rw [conversion?_ofSession hT, keyConversion?_of_not_mem hbuiltin hexception, hnone,
      Shape.checkFunction_of_hasFunctionName hfunction, instanceConversion?, hsame]
    rfl

end Registered

/-- Registered types never clash with each other, so that a session starts unless one of them
clashes with a built-in type or an exception. -/
theorem exists_ofSession {known : Dictionary Shape String} {extra : List Shape} {erase : Bool}
    {T₀ : Table}
    (hextra : Table.ofSession [] extra erase = .ok T₀)
    (hnodup : known.keys.Nodup)
    (hnullable : ∀ entry ∈ known, entry.1.nullable = false)
    (hbuiltin : ∀ entry ∈ known, entry.1.key ∉ builtinKeys)
    (hexception : ∀ entry ∈ known, entry.1.key ∉ exceptionKeys extra) :
    ∃ T, Table.ofSession known extra erase = .ok T := by
  have hbuiltins := exists_ofSession_iff.1 ⟨T₀, hextra⟩
  refine exists_ofSession_iff.2 ⟨hbuiltins.exceptions, hbuiltins.builtin,
    nodup_declaredKeys hnodup hnullable, ?_⟩
  intro key hkey
  obtain ⟨native, name, hentry, -, rfl⟩ := mem_declaredKeys.1 hkey
  exact ⟨hbuiltin _ hentry, hexception _ hentry⟩

/-- An instance has type arguments. -/
def Request.IsApplied : Request → Prop
  | .generics _ _ args _ => args ≠ []
  | .declaration _ _ => True

instance (r : Request) : Decidable r.IsApplied :=
  match r with
  | .generics _ _ args _ => inferInstanceAs (Decidable (args ≠ []))
  | .declaration _ _ => inferInstanceAs (Decidable True)

/-- The requests of a session fit together and leave the built-in types alone. -/
structure Coherent (requests : List Request) (extra : List Shape) : Prop where
  wrappable : ∀ r ∈ requests, r.decl.isWrappable
  named : ∀ r ∈ requests, r.IsNamed
  applied : ∀ r ∈ requests, r.IsApplied
  consistent : ∀ q ∈ requests, ∀ r ∈ requests,
    q.decl.header.shape = r.decl.header.shape → q.decl = r.decl
  builtin : ∀ r ∈ requests, r.native.key ∉ builtinKeys
  exception : ∀ r ∈ requests, r.native.key ∉ exceptionKeys extra
  function : ∀ r ∈ requests, r.native.hasFunctionName = false

namespace Coherent

variable {requests : List Request} {extra : List Shape} {erase : Bool}

/-- A session of coherent requests starts. -/
theorem exists_start {ctx₀ : Context}
    (h : Coherent requests extra)
    (hextra : Session.start [] extra erase = .ok ctx₀) :
    ∃ ctx, Session.start requests extra erase = .ok ctx := by
  obtain ⟨known₀, hknown₀, hT₀, -⟩ := Session.start_eq_ok hextra
  obtain rfl : [] = known₀ := Except.ok.inj hknown₀
  obtain ⟨known, hknown⟩ := Session.exists_exportedTypes h.wrappable
  have hentries : ∀ entry ∈ known, ∃ r ∈ requests, entry.1 = r.native := by
    intro entry hmem
    obtain ⟨r, hr, hregistered⟩ := Session.mem_exportedTypes hknown hmem
    exact ⟨r, hr, Request.native_of_registered? hregistered⟩
  obtain ⟨T, hT⟩ : ∃ T, Table.ofSession known extra erase = .ok T := by
    refine exists_ofSession hT₀ (Session.nodup_keys_exportedTypes hknown)
      (fun _ hmem => Session.nullable_of_mem_exportedTypes hknown hmem) ?_ ?_
    · intro entry hmem
      obtain ⟨r, hr, heq⟩ := hentries entry hmem
      exact heq ▸ h.builtin r hr
    · intro entry hmem
      obtain ⟨r, hr, heq⟩ := hentries entry hmem
      exact heq ▸ h.exception r hr
  exact ⟨_, Session.start_eq_ok_iff.2 ⟨known, T, hknown, hT, rfl⟩⟩

variable {known : Dictionary Shape String} {before after : List Request} {r : Request}

/-- The first request for a native type decides on its name. -/
theorem find?_native {name : String}
    (hknown : Session.exportedTypes requests = .ok known)
    (hsplit : requests = before ++ r :: after)
    (hfirst : ∀ q ∈ before, q.native ≠ r.native)
    (hregistered : r.registered? = some (r.native, name)) :
    known.find? (fun entry => entry.1 = r.native) = some (r.native, name) := by
  have hbefore : (before.filterMap Request.registered?).find? (fun entry => entry.1 = r.native) =
      none := by
    rw [List.find?_eq_none]
    rintro ⟨native, name'⟩ hmem heq
    obtain ⟨q, hq, hregistered'⟩ := List.mem_filterMap.1 hmem
    rw [Request.native_of_registered? hregistered'] at heq
    exact hfirst q hq (by simpa using heq)
  rw [Session.find?_exportedTypes hknown, hsplit, List.filterMap_append, List.find?_append, hbefore,
    List.filterMap_cons, hregistered]
  simp

/-- Next to a successful instance, nothing is registered for the bare declaration. -/
theorem args_ne_nil {ctx : Context} {F : File} {entry : Shape × String}
    (h : Coherent requests extra)
    (hknown : Session.exportedTypes requests = .ok known)
    (hr : r ∈ requests)
    (hbuild : r.build ctx = .ok F)
    (hargs : r.native.args ≠ [])
    (hentry : entry ∈ known)
    (hkey : entry.1.key = r.native.key) :
    entry.1.args ≠ [] := by
  obtain ⟨q, hq, hregistered⟩ := Session.mem_exportedTypes hknown hentry
  rw [Request.native_of_registered? hregistered] at hkey ⊢
  have hdecl : q.decl = r.decl := by
    refine h.consistent q hq r hr ?_
    rw [Shape.eq_iff_of_nullable rfl rfl, ← q.key_native, ← r.key_native]
    exact ⟨hkey, rfl⟩
  cases q with
  | generics name d args sources => exact h.applied _ hq
  | declaration d sources =>
      have hclosed : d.typeParams = [] := Request.typeParams_of_registered? hregistered
      cases r with
      | declaration d' sources' =>
          obtain rfl : d = d' := hdecl
          rwa [Request.native_declaration d sources sources']
      | generics name' d' args' sources' =>
          -- the declaration is closed, so that it has no instances
          obtain rfl : d = d' := hdecl
          obtain ⟨subject, hsubject, -⟩ := Outcome.bind_eq_ok_iff.1 hbuild
          rw [Request.subject, Outcome.mapError_eq_ok_iff] at hsubject
          obtain ⟨hlength, -⟩ := nativeType_of_instantiate hsubject (h.named _ hr)
          rw [hclosed] at hlength
          exact absurd (List.length_eq_zero_iff.1 hlength.symm) (h.applied _ hr)

end Coherent

section Wrapper

variable {T : Table} {s : Shape} {k : Key}

/-- A type with a wrapper is shown as the wrapper. -/
theorem exported_of_wrapper
    (hc : T.conversion? s = .ok (some (.wrapper k))) :
    T.exported s = .ok ((Shape.ofKey k).withNullable s.nullable) := by
  obtain ⟨name, package, args, nullable⟩ := s
  rw [Table.exported]
  simp only [hc]

theorem convert_of_wrapper
    (hc : T.conversion? s = .ok (some (.wrapper k))) (d : Direction) (e : Expr) :
    T.convert d e s = .ok (d.wrapper e s.nullable k) := by
  obtain ⟨name, package, args, nullable⟩ := s
  rw [Table.convert]
  simp only [hc]

end Wrapper

/-- The table shows a native type as the wrapper that a file declares, and converts it by the
functions that the file declares. -/
structure Agrees (T : Table) (native : Shape) (F : File) : Prop where
  shown : T.exported native = .ok { name := F.name, package := F.package }
  imported : ∀ e, T.importExpr e native = .ok (e.send false (Name.importer F.name))
  exported : ∀ e, T.exportExpr e native = .ok (e.send false (Name.exporter F.name))
  declares : Declares F native { name := F.name, package := F.package }

/-- A table agrees with the file of a wrapper if it converts the native type by that wrapper. -/
theorem agrees_of_conversion? {T : Table} {native : Shape} {F : File} {erase : Bool}
    (hc : T.conversion? native = .ok (some (.wrapper (wrapperKey native F.name erase))))
    (hnullable : native.nullable = false)
    (hdeclares : Declares F native
      { name := F.name, package := Name.facadePackage native.package erase }) :
    Agrees T native F := by
  have hpackage : F.package = Name.facadePackage native.package erase := hdeclares.package
  refine ⟨?_, ?_, ?_, ?_⟩
  · rw [exported_of_wrapper hc, hnullable, hpackage]
    rfl
  · intro e
    rw [Table.importExpr, convert_of_wrapper hc, hnullable]
    rfl
  · intro e
    rw [Table.exportExpr, convert_of_wrapper hc, hnullable]
    rfl
  · rwa [hpackage]

/-- A session of coherent requests starts, and its table converts each type by the wrapper, and the
functions, that the file of its first request declares. -/
theorem table_agrees_with_wrapper {requests : List Request} {extra : List Shape} {erase : Bool}
    {ctx₀ : Context}
    (hextra : Session.start [] extra erase = .ok ctx₀)
    (hrequests : Coherent requests extra) :
    ∃ ctx, Session.start requests extra erase = .ok ctx ∧
      ∀ before r after F,
        requests = before ++ r :: after →
        (∀ q ∈ before, q.native ≠ r.native) →
        (r.fulfil ctx).file = some F →
        Agrees ctx.table r.native F := by
  obtain ⟨ctx, hctx⟩ := hrequests.exists_start hextra
  refine ⟨ctx, hctx, ?_⟩
  intro before r after F hsplit hfirst hfile
  obtain ⟨known, hknown, hT, rfl⟩ := Session.start_eq_ok hctx
  have hr : r ∈ requests := by simp [hsplit]
  have hbuild := Request.build_of_fulfil hfile
  obtain ⟨hregistered, hdeclares⟩ := Request.build_declares hbuild (hrequests.named r hr)
  have hnullable : ∀ entry ∈ known, entry.1.nullable = false := by
    intro entry hmem
    obtain ⟨q, -, hq⟩ := Session.mem_exportedTypes hknown hmem
    rw [Request.native_of_registered? hq, q.nullable_native]
  have hc : ctx.table.conversion? r.native =
      .ok (some (.wrapper (wrapperKey r.native F.name ctx.erase))) := by
    refine conversion?_of_registered hT hnullable ?_ (hrequests.builtin r hr)
      (hrequests.exception r hr) (hrequests.function r hr) ?_
    · exact Coherent.find?_native hknown hsplit hfirst hregistered
    · intro hargs entry hentry hkey
      exact hrequests.args_ne_nil hknown hr hbuild hargs hentry hkey
  exact agrees_of_conversion? hc r.nullable_native hdeclares

/-- An instance of a generic class. -/
def albumBox : Request :=
  .generics "AlbumBox"
    (.cls { package := "music", simpleName := "Box", typeParams := ["T"],
            properties := [{ name := "value", type := { name := "T" } }] })
    [{ name := "Album", package := "music" }] []

/-- An instance of a generic class after the class that it is applied to. -/
def boxRequests : List Request :=
  [.declaration (.cls { package := "music", simpleName := "Album" }) [], albumBox]

theorem coherent_boxRequests : Coherent boxRequests [] where
  wrappable := by decide
  named := by decide
  applied := by decide
  consistent := by decide
  builtin := by decide
  exception := by decide
  function := by decide

theorem isSome_fulfil_albumBox {ctx : Context}
    (hctx : Session.start boxRequests [] false = .ok ctx) :
    (albumBox.fulfil ctx).file.isSome := by
  obtain rfl := Except.ok.inj hctx
  decide +kernel

theorem table_agrees_with_wrapper_of_albumBox :
    (∃ ctx₀, Session.start [] [] false = .ok ctx₀) ∧ Coherent boxRequests [] ∧
      ∃ ctx, Session.start boxRequests [] false = .ok ctx ∧
        ∃ F, (albumBox.fulfil ctx).file = some F ∧ Agrees ctx.table albumBox.native F := by
  obtain ⟨ctx₀, hextra⟩ : ∃ ctx₀, Session.start [] [] false = .ok ctx₀ := ⟨_, rfl⟩
  refine ⟨⟨ctx₀, hextra⟩, coherent_boxRequests, ?_⟩
  obtain ⟨ctx, hctx, hagrees⟩ := table_agrees_with_wrapper hextra coherent_boxRequests
  obtain ⟨F, hfile⟩ := Option.isSome_iff_exists.1 (isSome_fulfil_albumBox hctx)
  exact ⟨ctx, hctx, F, hfile, hagrees [_] albumBox [] F rfl (by decide) hfile⟩

end Facade
