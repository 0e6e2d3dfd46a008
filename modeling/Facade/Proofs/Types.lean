import Facade.Proofs.SessionTable
import Facade.Code.Expr

/-!
# Types of generated code

The shapes of declarations are plain data.  Generated code computes with types: classes, arrays,
lists, functions and their nullable versions.  Every shape has a type.  The spelling of the number
in the name of a function type makes no difference, and neither do arguments written after a
built-in type that takes none.

**Results.**
* `ty_arrayOf`, `ty_function` and the other equations give the type of a shape by the kind of its
  key.
* `ty_wrapperKey`: the wrapper of a declaration is a class.
-/

namespace Facade

namespace Code

/-- The types of values that generated code computes with. -/
inductive Ty where
  /-- Instances of a class; the shape carries no nullability mark. -/
  | object (type : Shape)
  | longArray
  | array (element : Ty)
  | list (element : Ty)
  | function (params : List Ty) (result : Ty)
  | nullable (type : Ty)

namespace Ty

/-- The type, with null added when the mark is set. -/
def mark : Bool → Ty → Ty
  | false, t => t
  | true, t => .nullable t

/-- The type with null added; a nullable type stays as it is. -/
def orNull : Ty → Ty
  | .nullable t => .nullable t
  | t => .nullable t

/-- The type of a member access whose receiver is checked for null when `safe` is set. -/
def after : Bool → Ty → Ty
  | false, t => t
  | true, t => t.orNull

/-- The type of a shape without nullability mark, from the types of its arguments. -/
def named (s : Shape) (args : List Ty) : Ty :=
  if s.isFunction then .function args.dropLast (args.getLastD (.object s))
  else if s.key = Shape.longArray.key then .longArray
  else if s.key = Shape.array.key then
    match args with
    | [t] => .array t
    | _ => .object s
  else if s.key = Shape.list.key then
    match args with
    | [t] => .list t
    | _ => .object s
  else if s.key ∈ Mapping.builtinKeys then .object (.ofKey s.key)
  else .object s

end Ty

end Code

namespace Shape

open Code Mapping

mutual

/-- The type that a shape stands for. -/
def ty : Shape → Ty
  | ⟨name, package, args, nullable⟩ =>
      (Ty.named ⟨name, package, args, false⟩ (tys args)).mark nullable

/-- The types that some shapes stand for. -/
def tys : List Shape → List Ty
  | [] => []
  | s :: rest => s.ty :: tys rest

end

theorem tys_eq_map (shapes : List Shape) :
    tys shapes = shapes.map ty := by
  induction shapes with
  | nil => rfl
  | cons s rest ih => simp [tys, ih]

/-- The type that a shape stands for, by its key and its arguments. -/
theorem ty_eq (s : Shape) :
    s.ty = (Ty.named (s.withNullable false) (tys s.args)).mark s.nullable := by
  obtain ⟨name, package, args, nullable⟩ := s
  rw [ty]
  rfl

@[simp] theorem isFunction_withNullable (s : Shape) (b : Bool) :
    (s.withNullable b).isFunction = s.isFunction := rfl

/-- No built-in type is a function type. -/
theorem isFunction_of_mem_builtinKeys {s : Shape}
    (h : s.key ∈ builtinKeys) :
    s.isFunction = false := by
  have harity : ∀ k ∈ builtinKeys, functionArity? k.name = none := by decide
  have hname : functionArity? s.name = none := harity s.key h
  simp [isFunction, hname]

theorem ty_of_longArray {s : Shape}
    (h : s.key = longArray.key) :
    s.ty = Ty.longArray.mark s.nullable := by
  have hfunction : s.isFunction = false :=
    isFunction_of_mem_builtinKeys (h ▸ by decide)
  simp [ty_eq, Ty.named, hfunction, h]

theorem ty_of_array {s a : Shape}
    (h : s.key = array.key)
    (hargs : s.args = [a]) :
    s.ty = (Ty.array a.ty).mark s.nullable := by
  have hfunction : s.isFunction = false :=
    isFunction_of_mem_builtinKeys (h ▸ by decide)
  have hlong : array.key ≠ longArray.key := by decide
  simp [ty_eq, Ty.named, hfunction, h, hargs, hlong, tys_eq_map]

theorem ty_of_list {s a : Shape}
    (h : s.key = list.key)
    (hargs : s.args = [a]) :
    s.ty = (Ty.list a.ty).mark s.nullable := by
  have hfunction : s.isFunction = false :=
    isFunction_of_mem_builtinKeys (h ▸ by decide)
  have hlong : list.key ≠ longArray.key := by decide
  have harray : list.key ≠ array.key := by decide
  simp [ty_eq, Ty.named, hfunction, h, hargs, hlong, harray, tys_eq_map]

theorem ty_of_long {s : Shape}
    (h : s.key = long.key) :
    s.ty = (Ty.object long).mark s.nullable := by
  have hmem : long.key ∈ builtinKeys := by decide
  have hfunction : s.isFunction = false := isFunction_of_mem_builtinKeys (h ▸ hmem)
  have hlong : long.key ≠ longArray.key := by decide
  have harray : long.key ≠ array.key := by decide
  have hlist : long.key ≠ list.key := by decide
  simp only [ty_eq, Ty.named, isFunction_withNullable, hfunction, key_withNullable, h, hlong,
    harray, hlist, hmem, if_true, if_false, Bool.false_eq_true]
  rfl

/-- A shape whose key is not built in is a class, unless it is a function type. -/
theorem ty_of_not_mem_builtinKeys {s : Shape}
    (h : s.key ∉ builtinKeys)
    (hfunction : s.isFunction = false) :
    s.ty = (Ty.object (s.withNullable false)).mark s.nullable := by
  have hlong : s.key ≠ longArray.key := fun e => h (e ▸ by decide)
  have harray : s.key ≠ array.key := fun e => h (e ▸ by decide)
  have hlist : s.key ≠ list.key := fun e => h (e ▸ by decide)
  simp [ty_eq, Ty.named, hfunction, h, hlong, harray, hlist]

/-- A function type stands for functions from its parameters to its result. -/
theorem ty_of_isFunction {s result : Shape} {params : List Shape}
    (h : s.isFunction = true)
    (hargs : s.args = params ++ [result]) :
    s.ty = (Ty.function (params.map ty) result.ty).mark s.nullable := by
  simp [ty_eq, Ty.named, h, hargs, tys_eq_map]

theorem ty_arrayOf (a : Shape) (nullable : Bool) :
    (arrayOf a nullable).ty = (Ty.array a.ty).mark nullable :=
  ty_of_array (s := arrayOf a nullable) rfl rfl

theorem ty_double (nullable : Bool) :
    (double.withNullable nullable).ty = (Ty.object double).mark nullable := by
  cases nullable <;> rfl

theorem ty_error (nullable : Bool) :
    (error.withNullable nullable).ty = (Ty.object error).mark nullable := by
  cases nullable <;> rfl

end Shape

namespace Mapping

open Code

/-- Packages of wrappers are the root, or end as such packages do. -/
theorem facadePackage_eq_empty_or_ends (package : String) (erase : Bool) :
    Name.facadePackage package erase = "" ∨
      (Name.facadePackage package erase).toList.reverse.take 2 = ['s', 'j'] := by
  rw [Name.facadePackage]
  split_ifs
  · exact .inl rfl
  · exact .inr (by decide)
  · exact .inr (by simp)

/-- Wrappers live in packages of their own. -/
theorem wrapperKey_package_ne
    (native : Shape) (name : String) (erase : Bool) {package : String}
    (hne : package ≠ "")
    (hend : package.toList.reverse.take 2 ≠ ['s', 'j']) :
    (wrapperKey native name erase).package ≠ package := by
  rintro rfl
  rcases facadePackage_eq_empty_or_ends native.package erase with h | h
  · exact hne h
  · exact hend h

/-- No wrapper is a built-in type. -/
theorem wrapperKey_not_mem_builtinKeys (native : Shape) (name : String) (erase : Bool) :
    wrapperKey native name erase ∉ builtinKeys := by
  have hpackages : ∀ k ∈ builtinKeys,
      k.package ≠ "" ∧ k.package.toList.reverse.take 2 ≠ ['s', 'j'] := by
    decide
  intro hmem
  obtain ⟨hne, hend⟩ := hpackages _ hmem
  exact wrapperKey_package_ne native name erase hne hend rfl

theorem overlong?_wrapperKey (native : Shape) (name : String) (erase nullable : Bool) :
    ((Shape.ofKey (wrapperKey native name erase)).withNullable nullable).overlong? = none := by
  have hpackage : (wrapperKey native name erase).package ≠ "kotlin" :=
    wrapperKey_package_ne native name erase (by decide) (by decide)
  rw [Shape.overlong?, if_neg]
  exact hpackage

/-- A wrapper stands for its objects. -/
theorem ty_wrapperKey (native : Shape) (name : String) (erase nullable : Bool) :
    ((Shape.ofKey (wrapperKey native name erase)).withNullable nullable).ty =
      (Ty.object (Shape.ofKey (wrapperKey native name erase))).mark nullable :=
  Shape.ty_of_not_mem_builtinKeys
    (s := (Shape.ofKey (wrapperKey native name erase)).withNullable nullable)
    (wrapperKey_not_mem_builtinKeys native name erase)
    (by simp [Shape.isFunction, Shape.ofKey, Shape.withNullable])

end Mapping

end Facade
