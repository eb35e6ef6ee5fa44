import PhraseCatalog.Text.Blank

/-! Paths: their parts, and their normal spelling. -/

set_option autoImplicit false

namespace PhraseCatalog.Files

open Text

/-- Where a path starts. -/
inductive Anchor
  | here
  | root
  /-- A root of its own, as two slashes may be one. -/
  | doubleRoot
deriving DecidableEq, Repr

/-- The anchor of a text: two slashes at its start are one of their own, and any other number of them
is the root. -/
def Anchor.ofChars : List Char → Anchor
  | '/' :: '/' :: '/' :: _ => .root
  | '/' :: '/' :: _ => .doubleRoot
  | '/' :: _ => .root
  | _ => .here

def Anchor.text : Anchor → String
  | .here => ""
  | .root => "/"
  | .doubleRoot => "//"

/-- A path without empty parts and without `.`; `..` is kept. -/
structure Path where
  anchor : Anchor
  parts : List String
deriving DecidableEq, Repr

namespace Path

/-- The path that a text names. -/
def ofString (text : String) : Path :=
  { anchor := .ofChars text.toList
    parts := ((splitOn '/' text.toList).map String.ofList).filter fun part =>
      part ≠ "" && part ≠ "." }

/-- The normal spelling of a path; a point stands for the working directory. -/
def text (path : Path) : String :=
  let joined := String.intercalate "/" path.parts
  if path.anchor = .here && path.parts.isEmpty then "." else path.anchor.text ++ joined

def child (path : Path) (name : String) : Path := { path with parts := path.parts ++ [name] }

/-- The path of a place below a directory. -/
def below (path : Path) (names : List String) : Path := { path with parts := path.parts ++ names }

def parent (path : Path) : Path := { path with parts := path.parts.dropLast }

end Path

/-- A text that names an entry of a directory, with one slash between the two. -/
def joinText (directory name : String) : String :=
  if directory = "" || directory.toList.getLast? = some '/' then directory ++ name
  else directory ++ "/" ++ name

/-- The text of the directory that holds what a text names, and the part after its last slash;
slashes at the end of the directory are dropped. -/
def splitText (text : List Char) : List Char × List Char :=
  let last := (text.reverse.takeWhile (· ≠ '/')).reverse
  let before := (text.reverse.dropWhile (· ≠ '/')).reverse
  let trimmed := (before.reverse.dropWhile (· = '/')).reverse
  (if trimmed.isEmpty then before else trimmed, last)

end PhraseCatalog.Files
