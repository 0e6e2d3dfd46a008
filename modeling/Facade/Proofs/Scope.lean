import Facade.Proofs.Closure
import Facade.Proofs.WrittenNames

/-!
# Conversion functions in scope

Code calls conversion functions by their bare names, while a file imports the types that it refers
to and nothing else.  A function of another package is therefore out of reach, unless a type happens
to have its dotted name.

**Input.**  A session that has started, and a request that succeeds.

**Results.**
* `File.exists_reference_of_inScope`: an import that brings a function of another package into scope
  is an import of a type.
* `scoped_conversions`: the conversions of a wrapper are in scope in the package of the wrapper
  only.
* `conversions_scoped_by_package`: so a session whose wrappers share a package finds all its
  conversions, and any other session loses those that it calls across packages.
-/

namespace Facade

open Wrapper Source Mapping Code

namespace Source

/-- A function of a package can be called by its bare name: the file is of the same package, or one
of its imports introduces the function by that name. -/
def File.InScope (F : File) (package function : String) : Prop :=
  package = F.package ∨
    ∃ i ∈ F.imports, i.qualified = (Key.mk package function).qualified ∧ i.name = function

/-- An import that brings a function of another package into scope is that of a type. -/
theorem File.exists_reference_of_inScope {F : File} {package function : String}
    (hother : package ≠ F.package)
    (halias : ∀ entry ∈ F.aliases, entry.2 ≠ function)
    (h : F.InScope package function) :
    ∃ u ∈ F.references, u.qualified = (Key.mk package function).qualified := by
  obtain ⟨i, hi, hqualified, hname⟩ := h.resolve_left hother
  rcases File.mem_imports.1 hi with ⟨q, hq, rfl⟩ | ⟨entry, hentry, rfl⟩
  · obtain ⟨u, hu, hq⟩ := Namer.exists_reference_of_mem_imports hq
    exact ⟨u, hu, hq.trans hqualified⟩
  · exact absurd hname (halias entry hentry)

end Source

section Conversions

variable (ctx : Context) (F : File)

/-- The functions that convert from and to a wrapper. -/
def conversionNames (name : String) : List String :=
  [Name.importer name, Name.exporter name]

/-- Both conversions of a wrapper are in scope. -/
def Reachable (native : Shape) (name : String) : Prop :=
  ∀ function ∈ conversionNames name, F.InScope (ctx.facadePackage native.package) function

/-- The conversions of a wrapper are in scope in its own package only, unless a type has the dotted
name of one. -/
def ScopedByPackage (native : Shape) (name : String) : Prop :=
  ∀ function ∈ conversionNames name,
    (F.InScope (ctx.facadePackage native.package) function ↔
        ctx.facadePackage native.package = F.package) ∨
      ∃ u ∈ F.references,
        u.qualified = (Key.mk (ctx.facadePackage native.package) function).qualified

variable {ctx F}

/-- The alias of a native type is no conversion function. -/
theorem nativeAlias_not_mem_conversionNames (simpleName name : String) :
    Name.nativeAlias simpleName ∉ conversionNames name := by
  intro hmem
  rcases List.mem_pair.1 hmem with h | h
  all_goals
    have hletter := congrArg (fun s => s.toList.head?) h
    simp [Name.nativeAlias, Name.importer, Name.exporter] at hletter

/-- The conversions of a wrapper are in scope in the package of the wrapper only, unless a type has
the dotted name of one. -/
theorem scoped_conversions {d : Declaration}
    (hbuild : ofDeclaration ctx d = .ok F)
    (native : Shape) (name : String) :
    ScopedByPackage ctx F native name := by
  intro function hfunction
  have halias : ∀ entry ∈ F.aliases, entry.2 ≠ function := by
    rw [(heading_of_ofDeclaration hbuild).2]
    intro entry hentry hsame
    obtain rfl := List.mem_singleton.1 hentry
    obtain rfl : Name.nativeAlias d.header.simpleName = function := hsame
    exact nativeAlias_not_mem_conversionNames d.header.simpleName name hfunction
  by_cases htype : ∃ u ∈ F.references,
      u.qualified = (Key.mk (ctx.facadePackage native.package) function).qualified
  · exact .inr htype
  · refine .inl ⟨fun hscope => ?_, .inl⟩
    by_contra hother
    exact htype (File.exists_reference_of_inScope hother halias hscope)

theorem reachable_of_facadePackage {native : Shape} (name : String)
    (h : ctx.facadePackage native.package = F.package) :
    Reachable ctx F native name :=
  fun _ _ => .inl h

end Conversions

/-- A request of the session registers the wrapper of a native type. -/
def RegisteredBy (requests : List Request) (native : Shape) (name : String) : Prop :=
  ∃ q ∈ requests, q.registered? = some (native, name)

/-- The conversions that the file of a request calls are in scope exactly if they are of its
package, so a session whose wrappers share a package finds them all. -/
theorem conversions_scoped_by_package {requests : List Request} {extra : List Shape} {erase : Bool}
    {ctx : Context} {r : Request} {F : File}
    (hctx : Session.start requests extra erase = .ok ctx)
    (hnamed : r.IsNamed)
    (hr : r ∈ requests)
    (hfile : (r.fulfil ctx).file = some F) :
    ∃ d, r.subject = .ok d ∧
      F.Uses (declarationVocabulary ctx
        (fun native name => RegisteredBy requests native name ∧ ScopedByPackage ctx F native name)
        (ScopedByPackage ctx F) d) ∧
      ((∀ q ∈ requests, ctx.facadePackage q.native.package = F.package) →
        (∀ s ∈ d.subclasses, ctx.facadePackage s.package = F.package) →
        F.Uses (declarationVocabulary ctx (Reachable ctx F) (Reachable ctx F) d)) := by
  obtain ⟨d, hd, hbuild⟩ := Outcome.bind_eq_ok_iff.1 (Request.build_of_fulfil hfile)
  have hown : ∀ native name, Session.nativeType d = .ok (native, name) →
      r.registered? = some (native, name) := fun native name =>
    Request.registered?_of_subject hd hnamed (ofDeclaration_declares hbuild).1
  refine ⟨d, hd, ?_, ?_⟩
  · refine (ofDeclaration_within (covers_session hctx ?_ ?_ hr hown) hbuild).uses
    · intro q hq native name hregistered
      exact ⟨⟨q, hq, hregistered⟩, scoped_conversions hbuild native name⟩
    · intro s _
      exact scoped_conversions hbuild s.shape s.simpleName
  · intro hpackages hsubclasses
    refine (ofDeclaration_within (covers_session hctx ?_ ?_ hr hown) hbuild).uses
    · intro q hq native name hregistered
      refine reachable_of_facadePackage name ?_
      rw [Request.native_of_registered? hregistered]
      exact hpackages q hq
    · intro s hs
      exact reachable_of_facadePackage s.simpleName (hsubclasses s hs)

theorem conversions_scoped_by_package_of_animal :
    animal.IsNamed ∧ animal ∈ [animal, dog] ∧
      ∃ ctx, Session.start [animal, dog] [] false = .ok ctx ∧
        ∃ F, (animal.fulfil ctx).file = some F ∧
          F.Uses (declarationVocabulary ctx (Reachable ctx F) (Reachable ctx F)
            (.sealed animalRoot)) := by
  have hnamed : animal.IsNamed := by decide
  obtain ⟨ctx, hctx⟩ : ∃ ctx, Session.start [animal, dog] [] false = .ok ctx := ⟨_, rfl⟩
  obtain ⟨F, hfile⟩ := Option.isSome_iff_exists.1 (ok_fulfil_zoo hctx).1
  refine ⟨hnamed, List.mem_cons_self, ctx, hctx, F, hfile, ?_⟩
  obtain ⟨d, hd, -, hscope⟩ :=
    conversions_scoped_by_package hctx hnamed List.mem_cons_self hfile
  obtain rfl : .sealed animalRoot = d := Except.ok.inj hd
  have hpackage : F.package = ctx.facadePackage "zoo" :=
    (Request.build_declares (Request.build_of_fulfil hfile) hnamed).2.package
  refine hscope ?_ ?_
  · intro q hq
    rw [hpackage]
    rcases List.mem_cons.1 hq with rfl | hq
    · rfl
    · obtain rfl := List.mem_singleton.1 hq
      rfl
  · intro s hs
    obtain rfl := List.mem_singleton.1 hs
    exact hpackage.symm

section Shop

def person : Request :=
  .declaration (.cls { package := "people", simpleName := "Person" }) []

/-- A class with a property whose type is wrapped in another package. -/
def order : Request :=
  .declaration
    (.cls
      { package := "shop", simpleName := "Order",
        properties := [{ name := "buyer", type := { name := "Person", package := "people" } }] })
    []

theorem file_fulfil_order {ctx : Context}
    (hctx : Session.start [order, person] [] false = .ok ctx) :
    ∃ F, (order.fulfil ctx).file = some F ∧ F.package = "shop.js" ∧
      "exportPerson" ∉ F.aliases.map Prod.snd ∧
      "common.buyer.exportPerson()" ∈ F.code.map Expr.source ∧
      "people.js.exportPerson" ∉ F.references.map Shape.qualified := by
  have hfile : ((order.fulfil ctx).file.any fun F => F.package = "shop.js" ∧
      "exportPerson" ∉ F.aliases.map Prod.snd ∧
      "common.buyer.exportPerson()" ∈ F.code.map Expr.source ∧
      "people.js.exportPerson" ∉ F.references.map Shape.qualified) = true := by
    obtain rfl := Except.ok.inj hctx
    decide +kernel
  obtain ⟨F, hF, hholds⟩ := (Option.any_eq_true _ _).1 hfile
  exact ⟨F, hF, of_decide_eq_true hholds⟩

/-- A property whose type is wrapped in another package is read through a function that the file
does not import. -/
theorem exists_call_out_of_scope :
    ∃ requests ctx, Session.start requests [] false = .ok ctx ∧
      ∃ r ∈ requests, ∃ F, (r.fulfil ctx).file = some F ∧
        ∃ native name, RegisteredBy requests native name ∧
          "common.buyer." ++ Name.exporter name ++ "()" ∈ F.code.map Expr.source ∧
          ¬ F.InScope (ctx.facadePackage native.package) (Name.exporter name) := by
  obtain ⟨ctx, hctx⟩ : ∃ ctx, Session.start [order, person] [] false = .ok ctx := ⟨_, rfl⟩
  obtain ⟨F, hfile, hpackage, haliases, hcode, hreferences⟩ := file_fulfil_order hctx
  have hfacade : ctx.facadePackage "people" = "people.js" := by
    obtain rfl := Except.ok.inj hctx
    rfl
  refine ⟨[order, person], ctx, hctx, order, List.mem_cons_self, F, hfile,
    { name := "Person", package := "people" }, "Person", ?_, hcode, ?_⟩
  · exact ⟨person, List.mem_cons_of_mem _ List.mem_cons_self, rfl⟩
  · rw [hfacade]
    intro hscope
    have hother : "people.js" ≠ F.package := by
      rw [hpackage]
      decide
    obtain ⟨u, hu, hname⟩ := File.exists_reference_of_inScope hother
      (fun entry hentry hsame => haliases (List.mem_map.2 ⟨entry, hentry, hsame⟩)) hscope
    exact hreferences (List.mem_map.2 ⟨u, hu, hname⟩)

end Shop

end Facade
