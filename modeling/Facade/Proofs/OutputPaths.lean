import Facade.Output.Basic
import Facade.Proofs.DeclaredTypes
import Facade.Proofs.StoreWrites

/-!
# Where the files of a session are written

**Input.**  The output directory, and requests whose names and packages hold no slash.

**Algorithm.**  The file of a request is named after its wrapper and lies in the directory of its
package.

**Results.**
* `Request.name_of_build`: the name and the package of a file are those of the wrapper that was
  asked for.
* `pathFor_eq`: a file lies below the output directory, at the parts `partsFor`.
* `isFileParts_partsFor`: these parts are plain names that do not lead to the manifest.
-/

namespace Facade

namespace Text

/-- Parts without slashes can be told from their path. -/
theorem intercalate_slash_injective {parts others : List String}
    (hparts : parts ≠ [])
    (hothers : others ≠ [])
    (hplain : ∀ part ∈ parts, '/' ∉ part.toList)
    (hplain' : ∀ part ∈ others, '/' ∉ part.toList)
    (h : "/".intercalate parts = "/".intercalate others) :
    parts = others := by
  have hchars := congrArg (fun s => pieces '/' s.toList) h
  have hslash : "/".toList = ['/'] := rfl
  simp only [String.toList_intercalate, hslash] at hchars
  rw [pieces_intercalate (by simpa using hparts) (by simpa using hplain),
    pieces_intercalate (by simpa using hothers) (by simpa using hplain')] at hchars
  exact (List.map_inj_right fun a b hab => String.toList_inj.1 hab).1 hchars

end Text

namespace Path

theorem anchorOf_of_not_slash {cs : List Char}
    (h : '/' ∉ cs) :
    anchorOf cs = .current := by
  cases cs with
  | nil => rfl
  | cons c rest =>
      have hc : c ≠ '/' := (List.ne_and_not_mem_of_not_mem_cons h).1.symm
      rw [anchorOf] <;> simp [hc]

theorem ofString_of_not_slash {s : String}
    (h : '/' ∉ s.toList) :
    ofString s = ⟨.current, [s].filter isPart⟩ := by
  rw [ofString, anchorOf_of_not_slash h, Text.splitAt_of_not_mem h]

theorem join_join (p : Path) (parts others : List String) :
    (p.join ⟨.current, parts⟩).join ⟨.current, others⟩ = p.join ⟨.current, parts ++ others⟩ := by
  simp [join_relative]

theorem join_injective {p : Path} {parts others : List String}
    (h : p.join ⟨.current, parts⟩ = p.join ⟨.current, others⟩) :
    parts = others := by
  simpa [join_relative] using h

/-- Joining the segments of a package one by one is joining its parts. -/
theorem foldl_join {segments : List String}
    (directory : Path)
    (h : ∀ segment ∈ segments, '/' ∉ segment.toList) :
    segments.foldl (fun p segment => p.join (.ofString segment)) directory =
      directory.join ⟨.current, segments.filter isPart⟩ := by
  induction segments generalizing directory with
  | nil => simp [join_relative]
  | cons segment rest ih =>
      rw [List.foldl_cons, ih _ fun q hq => h q (List.mem_cons_of_mem _ hq),
        ofString_of_not_slash (h segment List.mem_cons_self), join_join, ← List.filter_append]
      rfl

end Path

namespace Output

/-- The parts that lead from the output directory to the file with the given package and name. -/
def partsFor (package name : String) : List String :=
  (Text.splitAt '.' package).filter Path.isPart ++ [name ++ ".kt"]

section Parts

variable {package name : String}

/-- A file lies below the output directory, at the parts of its package and its name. -/
theorem pathFor_eq
    (directory : Path)
    (hpackage : '/' ∉ package.toList)
    (hname : '/' ∉ name.toList) :
    pathFor directory package name = directory.join ⟨.current, partsFor package name⟩ := by
  have hsegments : ∀ segment ∈ Text.splitAt '.' package, '/' ∉ segment.toList :=
    fun segment hsegment hslash => hpackage (Text.mem_of_mem_splitAt hsegment hslash).1
  have hfolder : (if package.isEmpty then directory
      else (Text.splitAt '.' package).foldl (fun p segment => p.join (.ofString segment))
        directory) = directory.join ⟨.current, (Text.splitAt '.' package).filter Path.isPart⟩ := by
    split
    · next hempty =>
        obtain rfl := String.isEmpty_iff.1 hempty
        simp [Path.join_relative, Text.splitAt, Text.pieces, Path.isPart]
    · exact Path.foldl_join directory hsegments
  have hlast : [name ++ ".kt"].filter Path.isPart = [name ++ ".kt"] := by
    have hne : name ++ ".kt" ≠ "" := by simp
    have hdot : name ++ ".kt" ≠ "." := by
      intro h
      have hend := congrArg (fun s => s.toList.getLast?) h
      simp at hend
    simp [Path.isPart, hne, hdot]
  rw [pathFor, hfolder, Path.ofString_of_not_slash (by simpa using hname), hlast, Path.join_join]
  rfl

/-- Parts that lead down to a file that is not the manifest. -/
structure IsFileParts (parts : List String) : Prop where
  nonempty : parts ≠ []
  downwards : ".." ∉ parts
  slashFree : ∀ part ∈ parts, '/' ∉ part.toList
  notManifest : parts ≠ [manifestName]

/-- Segments of a package hold no dot, and the name of a file ends with a letter that the name of
the manifest does not end with. -/
theorem isFileParts_partsFor
    (hpackage : '/' ∉ package.toList)
    (hname : '/' ∉ name.toList) :
    IsFileParts (partsFor package name) where
  nonempty := by simp [partsFor]
  downwards := by
    intro h
    rcases List.mem_append.1 h with h | h
    · have hdot := Text.mem_of_mem_splitAt (List.mem_filter.1 h).1 (c := '.') (by decide)
      exact hdot.2 rfl
    · have hend := congrArg (fun s => s.toList.getLast?) (List.mem_singleton.1 h)
      simp at hend
  slashFree := by
    intro part hpart hslash
    rcases List.mem_append.1 hpart with h | h
    · exact hpackage (Text.mem_of_mem_splitAt (List.mem_filter.1 h).1 hslash).1
    · obtain rfl := List.mem_singleton.1 h
      simp [hname] at hslash
  notManifest := by
    intro h
    have hlast : name ++ ".kt" = manifestName := by
      simpa [partsFor] using congrArg List.getLast? h
    have hend := congrArg (fun s => s.toList.getLast?) hlast
    simp [manifestName] at hend

end Parts

end Output

namespace Request

open Wrapper Source

/-- The name and the package of the wrapper that a request asks for hold no slash. -/
def IsPlain (r : Request) : Prop :=
  '/' ∉ r.exportName.toList ∧ '/' ∉ r.decl.header.package.toList

instance (r : Request) : Decidable r.IsPlain :=
  inferInstanceAs (Decidable (_ ∧ _))

theorem package_of_nativeType {d : Declaration} {native : Shape} {name : String}
    (h : Session.nativeType d = .ok (native, name)) :
    native.package = d.header.package := by
  cases d with
  | other kind header => simp [Session.nativeType] at h
  | _ =>
      obtain ⟨rfl, -⟩ := Prod.mk.inj (Except.ok.inj h)
      rfl

/-- The file of a request has the name and the package that the request asks for. -/
theorem name_of_build {ctx : Context} {r : Request} {F : File}
    (h : r.build ctx = .ok F) :
    F.name = r.exportName ∧ F.package = r.exportPackage ctx.erase := by
  obtain ⟨d, hd, hbuild⟩ := Outcome.bind_eq_ok_iff.1 h
  obtain ⟨-, native, name, hnative, hdeclares⟩ := ofDeclaration_declares hbuild
  obtain ⟨hname, hpackage, -⟩ := exportName_of_subject hd hnative
  refine ⟨hdeclares.name.trans hname.symm, hdeclares.package.trans ?_⟩
  rw [exportPackage, hpackage, ← package_of_nativeType hnative]
  rfl

theorem plain_of_build {ctx : Context} {r : Request} {F : File}
    (hplain : r.IsPlain)
    (h : r.build ctx = .ok F) :
    '/' ∉ F.package.toList ∧ '/' ∉ F.name.toList := by
  obtain ⟨hname, hpackage⟩ := name_of_build h
  refine ⟨?_, hname ▸ hplain.1⟩
  rw [hpackage, exportPackage, Name.facadePackage]
  have hpackage := hplain.2
  split
  · simp
  · split
    · decide
    · simp [hpackage]

end Request

end Facade
