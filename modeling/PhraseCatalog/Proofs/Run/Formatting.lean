import PhraseCatalog.Proofs.Run.Course
import PhraseCatalog.Proofs.Scan.Apart

/-! What formatting leaves of a run's files. A formatter overwrites files of the output directory, each
by what it holds; the store and the source code are none of its files. -/

set_option autoImplicit false

namespace PhraseCatalog.Run

open Emit Files

/-! ## Files written -/

structure Wrote (dir : List String) (name : String) (content : Content) (before after : Node) :
    Prop where
  dirs : Node.SameDirs before after
  file : ∀ place, after.fileAt place
    = if place = dir ++ [name] then some content else before.fileAt place
  scan : ∀ root, Scan.Apart root dir → Scan.loadPhrases after root = Scan.loadPhrases before root

theorem wrote {tree : Node} {dir : List String} {name : String} (hdir : tree.DirAt dir)
    (hold : ¬ tree.DirAt (dir ++ [name])) (content : Content) :
    Wrote dir name content tree (tree.put (dir ++ [name]) (.file content)) where
  dirs := Node.dirAt_put_file hdir hold content
  file := Node.fileAt_put_file hdir hold content
  scan _ hapart := Scan.loadPhrases_put hapart hdir hold content

theorem wrote_over {tree : Node} {dir : List String} {name : String} {old : Content}
    (h : tree.fileAt (dir ++ [name]) = some old) (content : Content) :
    Wrote dir name content tree (tree.put (dir ++ [name]) (.file content)) :=
  wrote (Node.dirAt_of_fileAt h) (Node.not_dirAt_of_fileAt h) content

/-- Both modules were written. -/
structure WroteModules (settings : Settings) (data runtime : Content) (before after : Node) :
    Prop where
  dirs : Node.SameDirs before after
  file : ∀ place, after.fileAt place
    = if place = settings.runtimePlace then some runtime
      else if place = settings.dataPlace then some data else before.fileAt place
  scan : ∀ root, Scan.Apart root settings.outputPlace →
    Scan.loadPhrases after root = Scan.loadPhrases before root

theorem wroteModules {settings : Settings} {tree : Node} (hdir : tree.DirAt settings.outputPlace)
    (hdata : ¬ tree.DirAt settings.dataPlace) (hruntime : ¬ tree.DirAt settings.runtimePlace)
    (data runtime : Content) : WroteModules settings data runtime tree
      ((tree.put settings.dataPlace (.file data)).put settings.runtimePlace (.file runtime)) := by
  have hfirst : Wrote settings.outputPlace dataName data tree _ := wrote hdir hdata data
  have hsecond : Wrote settings.outputPlace runtimeName runtime
      (tree.put settings.dataPlace (.file data)) _ :=
    wrote ((hfirst.dirs _).mpr hdir) (fun h => hruntime ((hfirst.dirs _).mp h)) runtime
  exact
    { dirs := sameDirs_put_modules hdir hdata data runtime hruntime
      file := fileAt_put_modules hdir hdata data runtime hruntime
      scan := fun root hapart => (hsecond.scan root hapart).trans (hfirst.scan root hapart) }

/-! ## Files overwritten -/

/-- Files in the output directory were overwritten one after another, but neither the store nor
files that are scanned. -/
inductive Overwrites (settings : Settings) (files : Node) : Node → Prop
  | none : Overwrites settings files files
  | file {files' : Node} {inner : List String} {name : String} {old : Content}
    (earlier : Overwrites settings files files')
    (there : files'.fileAt (settings.outputPlace ++ inner ++ [name]) = some old)
    (other : settings.outputPlace ++ inner ++ [name] ≠ settings.storePlace)
    (apart : Scan.Apart settings.sourceRoot (settings.outputPlace ++ inner)) (content : Content) :
    Overwrites settings files
      (files'.put (settings.outputPlace ++ inner ++ [name]) (.file content))

/-- The trees have the same files outside the output directory. -/
def Settings.SameOutside (settings : Settings) (files files' : Node) : Prop :=
  ∀ place, ¬ settings.outputPlace <+: place → files'.fileAt place = files.fileAt place

namespace Overwrites
variable {settings : Settings} {files files' : Node} (h : Overwrites settings files files')
include h

theorem dirs : Node.SameDirs files files' := by
  induction h with
  | none => exact .refl files
  | file _ there _ _ content ih => exact ih.trans (wrote_over there content).dirs

theorem scan : Scan.loadPhrases files' settings.sourceRoot
    = Scan.loadPhrases files settings.sourceRoot := by
  induction h with
  | none => rfl
  | file _ there _ hapart content ih =>
    exact ((wrote_over there content).scan _ hapart).trans ih

theorem fileAt_storePlace :
    files'.fileAt settings.storePlace = files.fileAt settings.storePlace := by
  induction h with
  | none => rfl
  | file _ there other _ content ih =>
    rw [(wrote_over there content).file, if_neg other.symm, ih]

theorem sameOutside : settings.SameOutside files files' := by
  intro place hplace
  induction h with
  | none => rfl
  | @file _ inner name _ _ there _ _ content ih =>
    have hne : place ≠ settings.outputPlace ++ inner ++ [name] := by
      rintro rfl
      exact hplace ⟨inner ++ [name], (List.append_assoc _ _ _).symm⟩
    rw [(wrote_over there content).file, if_neg hne, ih]

end Overwrites

/-! ## Formatters -/

/-- The formatter overwrites files in the output directory, and what becomes of a file depends on what
it holds and on the files outside that directory. -/
structure Formatter.Tidies (formatter : Formatter) (settings : Settings) : Prop where
  overwrites : ∀ files,
    Overwrites settings files (formatter (formatCommand settings.outputDir) files).2
  alone : ∀ files files', settings.SameOutside files files' → ∀ place,
    files'.fileAt place = files.fileAt place →
    (formatter (formatCommand settings.outputDir) files').2.fileAt place
      = (formatter (formatCommand settings.outputDir) files).2.fileAt place

theorem Shell.tidies (shell : Shell) (settings : Settings) : shell.formatter.Tidies settings where
  overwrites _ := .none
  alone _ _ _ _ hsame := hsame

namespace Settings
variable {settings : Settings} {formatter : Formatter}
  (h : settings.formatOutput = true → formatter.Tidies settings)
include h

theorem formatted_overwrites (files : Node) :
    Overwrites settings files (settings.formatted formatter files) := by
  unfold formatted
  split
  · rename_i hformat
    exact (h hformat).overwrites files
  · exact .none

theorem fileAt_formatted_eq {files files' : Node} (houtside : settings.SameOutside files files')
    {place : List String} (hsame : files'.fileAt place = files.fileAt place) :
    (settings.formatted formatter files').fileAt place
      = (settings.formatted formatter files).fileAt place := by
  unfold formatted
  split
  · rename_i hformat
    exact (h hformat).alone files files' houtside place hsame
  · exact hsame

end Settings
end PhraseCatalog.Run
