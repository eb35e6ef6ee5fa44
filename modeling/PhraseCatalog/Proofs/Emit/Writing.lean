import PhraseCatalog.Emit.Write
import PhraseCatalog.Language.Table
import PhraseCatalog.Proofs.Files.Making

/-! What writing the modules leaves in a tree. The data module is written first; so a failure leaves
all files as they were, unless only the runtime module has a directory in its way. Then the data module
is replaced alone. -/

set_option autoImplicit false

namespace PhraseCatalog.Emit

open Files

def dataPlace (outputDir : String) : List String := (Path.ofString outputDir).place ++ [dataName]

def runtimePlace (outputDir : String) : List String :=
  (Path.ofString outputDir).place ++ [runtimeName]

section Put
variable {tree : Node} {outputDir : String} (hdir : tree.DirAt (Path.ofString outputDir).place)
  (hdata : ¬ tree.DirAt (dataPlace outputDir)) (data runtime : Content)
include hdir hdata

theorem sameDirs_put_data : tree.SameDirs (tree.put (dataPlace outputDir) (.file data)) :=
  Node.dirAt_put_file hdir hdata data

theorem fileAt_put_data (place : List String) :
    (tree.put (dataPlace outputDir) (.file data)).fileAt place
      = if place = dataPlace outputDir then some data else tree.fileAt place :=
  Node.fileAt_put_file hdir hdata data place

variable (hruntime : ¬ tree.DirAt (runtimePlace outputDir))
include hruntime

theorem sameDirs_put_modules : tree.SameDirs
    ((tree.put (dataPlace outputDir) (.file data)).put (runtimePlace outputDir) (.file runtime)) := by
  have hfirst := sameDirs_put_data hdir hdata data
  exact hfirst.trans (Node.dirAt_put_file ((hfirst _).mpr hdir)
    (fun h => hruntime ((hfirst _).mp h)) runtime)

theorem fileAt_put_modules (place : List String) :
    ((tree.put (dataPlace outputDir) (.file data)).put (runtimePlace outputDir)
        (.file runtime)).fileAt place
      = if place = runtimePlace outputDir then some runtime
        else if place = dataPlace outputDir then some data else tree.fileAt place := by
  have hfirst := sameDirs_put_data hdir hdata data
  rw [← fileAt_put_data hdir hdata data]
  exact Node.fileAt_put_file ((hfirst _).mpr hdir) (fun h => hruntime ((hfirst _).mp h)) runtime place

end Put

/-! ## The ways in which writing ends -/

/-- How writing a data module and a runtime module ends, and the tree that it leaves. -/
inductive Ends (tree : Node) (outputDir : String) (data runtime : Content) :
    Node → Except Fault Paths → Prop
  | noDirectory {made : Node} {fault : Fault}
    (making : tree.makeDirectories (.ofString outputDir) = (made, some fault)) :
    Ends tree outputDir data runtime made (.error fault)
  | dataBlocked {made : Node}
    (making : tree.makeDirectories (.ofString outputDir) = (made, none))
    (blocked : made.DirAt (dataPlace outputDir)) :
    Ends tree outputDir data runtime made
      (.error ⟨.isDirectory, ((Path.ofString outputDir).child dataName).text⟩)
  | runtimeBlocked {made : Node}
    (making : tree.makeDirectories (.ofString outputDir) = (made, none))
    (free : ¬ made.DirAt (dataPlace outputDir)) (blocked : made.DirAt (runtimePlace outputDir)) :
    Ends tree outputDir data runtime (made.put (dataPlace outputDir) (.file data))
      (.error ⟨.isDirectory, ((Path.ofString outputDir).child runtimeName).text⟩)
  | written {made : Node}
    (making : tree.makeDirectories (.ofString outputDir) = (made, none))
    (dataFree : ¬ made.DirAt (dataPlace outputDir))
    (runtimeFree : ¬ made.DirAt (runtimePlace outputDir)) :
    Ends tree outputDir data runtime
      ((made.put (dataPlace outputDir) (.file data)).put (runtimePlace outputDir) (.file runtime))
      (.ok (.inDirectory (.ofString outputDir)))

theorem ends_writeModules (locales : Language.Locales) (tree : Node) (outputDir : String)
    (catalog : Catalog) (languages : List String) :
    Ends tree outputDir (textContent (dataModule catalog))
      (textContent (runtimeModule locales catalog languages))
      (writeModules locales tree outputDir catalog languages).1
      (writeModules locales tree outputDir catalog languages).2.outcome := by
  have hname : dataName ≠ ".." ∧ runtimeName ≠ ".." := by decide
  unfold writeModules
  generalize textContent (dataModule catalog) = data
  generalize textContent (runtimeModule locales catalog languages) = runtime
  rcases hmake : tree.makeDirectories (.ofString outputDir) with ⟨made, _ | fault⟩
  · have hdir := Node.isDirAt_of_makeDirectories hmake
    by_cases hdata : made.DirAt (dataPlace outputDir)
    · have hfirst := Node.writeFile_child_of_dirAt hdir hname.1 hdata data
      simpa [hmake, Paths.inDirectory, hfirst] using Ends.dataBlocked hmake hdata
    have hfirst : made.writeFile ((Path.ofString outputDir).child dataName) data
        = .ok (made.put (dataPlace outputDir) (.file data)) :=
      (Node.writeFile_child_eq_ok_iff hdir hname.1).mpr ⟨hdata, rfl⟩
    have hsame := sameDirs_put_data (Node.dirAt_of_isDirAt hdir) hdata data
    have hdir' := hsame.isDirAt_iff.mpr hdir
    by_cases hruntime : made.DirAt (runtimePlace outputDir)
    · have hsecond := Node.writeFile_child_of_dirAt hdir' hname.2 ((hsame _).mpr hruntime) runtime
      simpa [hmake, Paths.inDirectory, hfirst, hsecond]
        using Ends.runtimeBlocked hmake hdata hruntime
    · have hsecond : (made.put (dataPlace outputDir) (.file data)).writeFile
            ((Path.ofString outputDir).child runtimeName) runtime
          = .ok ((made.put (dataPlace outputDir) (.file data)).put (runtimePlace outputDir)
            (.file runtime)) :=
        (Node.writeFile_child_eq_ok_iff hdir' hname.2).mpr
          ⟨fun h => hruntime ((hsame _).mp h), rfl⟩
      simpa [hmake, Paths.inDirectory, hfirst, hsecond]
        using Ends.written hmake hdata hruntime
  · simpa [hmake] using Ends.noDirectory hmake

/-! ## What is left -/

section Making
variable {tree made : Node} {outputDir : String}

theorem fileAt_of_making {fault : Option Fault}
    (making : tree.makeDirectories (.ofString outputDir) = (made, fault)) (place : List String) :
    made.fileAt place = tree.fileAt place := by
  have hmade := Node.fileAt_makeDirectories tree (.ofString outputDir) place
  rwa [making] at hmade

theorem dirAt_output_of_making
    (making : tree.makeDirectories (.ofString outputDir) = (made, none)) :
    made.DirAt (Path.ofString outputDir).place :=
  Node.dirAt_of_isDirAt (Node.isDirAt_of_makeDirectories making)

end Making

namespace Ends
variable {tree after : Node} {outputDir : String} {data runtime : Content}
  {outcome : Except Fault Paths} (h : Ends tree outputDir data runtime after outcome)
include h

/-- Writing changes no file but the two modules, whether or not it fails. -/
theorem fileAt_of_ne {place : List String} (hdata : place ≠ dataPlace outputDir)
    (hruntime : place ≠ runtimePlace outputDir) : after.fileAt place = tree.fileAt place := by
  cases h with
  | noDirectory making => exact fileAt_of_making making place
  | dataBlocked making => exact fileAt_of_making making place
  | runtimeBlocked making free =>
    rw [fileAt_put_data (dirAt_output_of_making making) free, if_neg hdata,
      fileAt_of_making making]
  | written making dataFree runtimeFree =>
    rw [fileAt_put_modules (dirAt_output_of_making making) dataFree data runtime runtimeFree,
      if_neg hruntime, if_neg hdata, fileAt_of_making making]

end Ends

/-- The paths are those of the modules, and both modules are in the tree. -/
def Holds (after : Node) (outputDir : String) (data runtime : Content) (paths : Paths) : Prop :=
  paths = .inDirectory (.ofString outputDir) ∧ after.fileAt (dataPlace outputDir) = some data
    ∧ after.fileAt (runtimePlace outputDir) = some runtime

end PhraseCatalog.Emit
