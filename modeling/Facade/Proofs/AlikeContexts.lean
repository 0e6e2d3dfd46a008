import Facade.Proofs.ConversionCode
import Facade.Session.Request

/-!
# Sessions that look alike

A wrapper asks its session what the conversion of a shape is, which package a wrapper goes to, which
classes are sealed and which names are taken.  Two sessions that answer alike give the same result
for every request, however their tables came about.

**Input.**  Two contexts that answer alike.

**Results.**
* `Table.exported_congr` and `Table.convert_congr`: shown types and conversions only depend on the
  conversions that the table finds.
* `Context.Alike.ofDeclaration`: the file of a declaration is the same in both contexts.
* `Context.Alike.fulfil`: so is the result of a request.
-/

namespace Facade

open Mapping Wrapper Code

namespace Mapping.Table

variable {t t' : Table}

theorem exportedAll_congr {args : List Shape}
    (h : ∀ a ∈ args, t.exported a = t'.exported a) :
    t.exportedAll args = t'.exportedAll args := by
  induction args with
  | nil => rfl
  | cons a rest ih =>
      rw [exportedAll, exportedAll, h a List.mem_cons_self,
        ih fun b hb => h b (List.mem_cons_of_mem _ hb)]

theorem exportedFirst_congr {args : List Shape} (collection : Key)
    (h : ∀ a ∈ args, t.exported a = t'.exported a) :
    t.exportedFirst collection args = t'.exportedFirst collection args := by
  cases args with
  | nil => rfl
  | cons a rest => exact h a List.mem_cons_self

/-- What is shown for a type only rests on the conversions that the table finds. -/
theorem exported_congr
    (h : ∀ s, t.conversion? s = t'.conversion? s) (s : Shape) :
    t.exported s = t'.exported s := by
  induction s using Shape.induction with
  | step name package args nullable ih =>
      rw [exported_eq, exported_eq, h, exportedAll_congr ih, exportedFirst_congr _ ih]

theorem parameterType_congr
    (h : ∀ s, t.conversion? s = t'.conversion? s) (d : Direction) :
    t.parameterType d = t'.parameterType d := by
  funext param
  simp only [parameterType, exported_congr h]

theorem convertFirst_congr {args : List Shape} (d : Direction) (collection : Key)
    (h : ∀ a ∈ args, ∀ d e, t.convert d e a = t'.convert d e a) :
    t.convertFirst d collection args = t'.convertFirst d collection args := by
  cases args with
  | nil => rfl
  | cons a rest => exact h a List.mem_cons_self d .it

/-- The arguments of a call are converted one by one, so it is enough that each of them is converted
alike. -/
theorem convertCall_congr {args : List Shape} (d : Direction) (target : Expr)
    (names : List String) (done : List Expr)
    (h : ∀ a ∈ args, ∀ d e, t.convert d e a = t'.convert d e a) :
    t.convertCall d target names done args = t'.convertCall d target names done args := by
  induction args generalizing names done with
  | nil => rfl
  | cons param rest ih =>
      cases rest with
      | nil => exact h param List.mem_cons_self d _
      | cons next rest =>
          rw [convertCall, convertCall, h param List.mem_cons_self]
          refine congrArg _ (funext fun arg => ?_)
          exact ih names.tail (done ++ [arg]) fun a ha => h a (List.mem_cons_of_mem _ ha)

/-- The code of a conversion only rests on the conversions that the table finds. -/
theorem convert_congr
    (h : ∀ s, t.conversion? s = t'.conversion? s) (d : Direction) (e : Expr) (s : Shape) :
    t.convert d e s = t'.convert d e s := by
  induction s using Shape.induction generalizing d e with
  | step name package args nullable ih =>
      have hcall : ∀ target names, t.convertCall d target names [] args =
          t'.convertCall d target names [] args :=
        fun target names => convertCall_congr d target names [] fun a ha d e => ih a ha d e
      have hfirst : ∀ collection, t.convertFirst d collection args =
          t'.convertFirst d collection args :=
        fun collection => convertFirst_congr d collection fun a ha d e => ih a ha d e
      rw [convert_eq, convert_eq, h]
      simp only [exported_congr h, parameterType_congr h, hcall, hfirst]

end Mapping.Table

namespace Wrapper.Context

/-- Two contexts give the same answers. -/
structure Alike (ctx ctx' : Context) : Prop where
  conversion : ∀ s, ctx.table.conversion? s = ctx'.table.conversion? s
  erase : ctx.erase = ctx'.erase
  sealedBases : ∀ key, key ∈ ctx.sealedBases ↔ key ∈ ctx'.sealedBases
  exportedNames : ∀ entry, entry ∈ ctx.exportedNames ↔ entry ∈ ctx'.exportedNames

namespace Alike

variable {ctx ctx' : Context}

/-- Contexts that are alike show the same types. -/
theorem shown (h : Alike ctx ctx') : ctx.shown = ctx'.shown := by
  funext member s
  rw [Context.shown, Context.shown, Table.exported_congr h.conversion]

/-- Contexts that are alike write the same conversions. -/
theorem convert (h : Alike ctx ctx') : ctx.convert = ctx'.convert := by
  funext d e s
  rw [Context.convert, Context.convert, Table.convert_congr h.conversion]

theorem convertIn (h : Alike ctx ctx') : ctx.convertIn = ctx'.convertIn := by
  funext member d e s
  rw [Context.convertIn, Context.convertIn, Table.convert_congr h.conversion]

theorem visible (h : Alike ctx ctx') : ctx.visible = ctx'.visible := by
  funext side member s
  cases side with
  | importing => rfl
  | exporting => exact congrFun (congrFun h.shown member) s

theorem facadePackage (h : Alike ctx ctx') : ctx.facadePackage = ctx'.facadePackage := by
  funext package
  rw [Context.facadePackage, Context.facadePackage, h.erase]

theorem isSealedBase (h : Alike ctx ctx') : ctx.isSealedBase = ctx'.isSealedBase := by
  funext key
  simp only [Context.isSealedBase, h.sealedBases]

/-- Contexts that are alike know the same wrappers. -/
theorem declares (h : Alike ctx ctx') : ctx.declares = ctx'.declares := by
  funext package name
  rw [Bool.eq_iff_iff, Context.declares, Context.declares, List.any_eq_true, List.any_eq_true,
    h.facadePackage]
  simp only [h.exportedNames]

/- Every part of a wrapper sees its context through the answers above. -/

theorem wrapProperty (h : Alike ctx ctx') :
    Wrapper.wrapProperty ctx = Wrapper.wrapProperty ctx' := by
  funext side delegate modifiers p
  simp only [Wrapper.wrapProperty, h.convertIn, h.visible]

theorem wrapParameter (h : Alike ctx ctx') :
    Wrapper.wrapParameter ctx = Wrapper.wrapParameter ctx' := by
  funext side function p
  simp only [Wrapper.wrapParameter, h.visible]

theorem passArgument (h : Alike ctx ctx') :
    Wrapper.passArgument ctx = Wrapper.passArgument ctx' := by
  funext side function p
  simp only [Wrapper.passArgument, h.convertIn]

/-- A function is wrapped alike: its parameters, its arguments and its result are. -/
theorem wrapFunction (h : Alike ctx ctx') :
    Wrapper.wrapFunction ctx = Wrapper.wrapFunction ctx' := by
  funext side delegate modifiers f
  simp only [Wrapper.wrapFunction, h.wrapParameter, h.passArgument, h.convertIn, h.visible]

theorem abstractProperty (h : Alike ctx ctx') :
    Wrapper.abstractProperty ctx = Wrapper.abstractProperty ctx' := by
  funext modifiers p
  simp only [Wrapper.abstractProperty, h.shown]

theorem abstractFunction (h : Alike ctx ctx') :
    Wrapper.abstractFunction ctx = Wrapper.abstractFunction ctx' := by
  funext modifiers f
  simp only [Wrapper.abstractFunction, h.wrapParameter, h.shown]

/-- The supertypes of a class are accepted, and refused, alike. -/
theorem checkedAncestry (h : Alike ctx ctx') :
    Wrapper.checkedAncestry ctx = Wrapper.checkedAncestry ctx' := by
  have hadd : Ancestry.add ctx = Ancestry.add ctx' := by
    funext d a s
    simp only [Ancestry.add, h.shown, h.isSealedBase]
  funext d
  simp only [Wrapper.checkedAncestry, Ancestry.ofClass, hadd]

theorem publicConstructor (h : Alike ctx ctx') :
    Wrapper.publicConstructor ctx = Wrapper.publicConstructor ctx' := by
  funext c
  simp only [Wrapper.publicConstructor, h.shown, h.convert]

/-- The file of a class is the same in contexts that are alike. -/
theorem ofClass (h : Alike ctx ctx') (c : ClassDecl) :
    Wrapper.ofClass ctx c = Wrapper.ofClass ctx' c := by
  simp only [Wrapper.ofClass, h.checkedAncestry, h.facadePackage, h.publicConstructor,
    h.wrapProperty, h.wrapFunction]

/-- The file of an interface is the same in contexts that are alike. -/
theorem ofInterface (h : Alike ctx ctx') (i : InterfaceDecl) :
    Wrapper.ofInterface ctx i = Wrapper.ofInterface ctx' i := by
  have hshown : Wrapper.shownInterface ctx i = Wrapper.shownInterface ctx' i := by
    simp only [Wrapper.shownInterface, h.shown, h.abstractProperty, h.abstractFunction]
  have hadapter : Wrapper.adapter ctx = Wrapper.adapter ctx' := by
    funext side name delegate held implemented i
    simp only [Wrapper.adapter, h.wrapProperty, h.wrapFunction]
  simp only [Wrapper.ofInterface, h.facadePackage, hshown, hadapter]

theorem ofSealed (h : Alike ctx ctx') (d : SealedDecl) :
    Wrapper.ofSealed ctx d = Wrapper.ofSealed ctx' d := by
  have htype : Wrapper.sealedType ctx d = Wrapper.sealedType ctx' d := by
    simp only [Wrapper.sealedType, h.abstractProperty, h.abstractFunction]
  have hdispatch : Wrapper.importDispatch ctx d = Wrapper.importDispatch ctx' d := by
    simp only [Wrapper.importDispatch, h.facadePackage]
  simp only [Wrapper.ofSealed, h.facadePackage, htype, hdispatch]

theorem ofEnumeration (h : Alike ctx ctx') (e : EnumDecl) :
    Wrapper.ofEnumeration ctx e = Wrapper.ofEnumeration ctx' e := by
  have hentries : Wrapper.checkEntries ctx e = Wrapper.checkEntries ctx' e := by
    simp only [Wrapper.checkEntries, h.declares]
  simp only [Wrapper.ofEnumeration, h.facadePackage, hentries]

/-- The file of a declaration is the same in contexts that are alike, whatever its kind. -/
theorem ofDeclaration (h : Alike ctx ctx') (d : Declaration) :
    Wrapper.ofDeclaration ctx d = Wrapper.ofDeclaration ctx' d := by
  cases d with
  | cls c => exact h.ofClass c
  | interface i => exact h.ofInterface i
  | sealed d => exact h.ofSealed d
  | enumeration e => exact h.ofEnumeration e
  | other kind header => rfl

/-- Requests are answered alike in contexts that are alike. -/
theorem fulfil (h : Alike ctx ctx') :
    Request.fulfil ctx = Request.fulfil ctx' := by
  funext r
  have hbuild : r.build ctx = r.build ctx' := by
    rw [Request.build, Request.build]
    exact congrArg _ (funext h.ofDeclaration)
  rw [Request.fulfil, Request.fulfil, hbuild]

end Alike

end Wrapper.Context

end Facade
