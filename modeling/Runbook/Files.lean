/-!
This module contains the text files that settings are read from, and the paths to them. A path leads
from the working directory, or from the home directory if it begins with `~/`, step by step through
directories to a file. An empty step and a dot stay where they are, two dots lead to the directory
above. What lies above the two directories that paths begin in cannot be reached.
-/

namespace Runbook

/-- Text files with the paths under which they were put. -/
structure Files where
  entries : List (String × String) := []

namespace Files

/-- The names on the way to a file or a directory, its own name first. -/
abbrev Place := List String

def workingDirectory : Place :=
  []

def homeDirectory : Place :=
  ["~"]

def step? (place : Place) (name : String) : Option Place :=
  if name = "" ∨ name = "." then
    some place
  else if name = ".." then
    if place = workingDirectory ∨ place = homeDirectory then none else some place.tail
  else
    some (name :: place)

/-- The places that a path leaves behind, which have to be directories, and the one it ends at. -/
def way? (path : String) : Option (List Place × Place) :=
  if path.toList.head? = some '/' then
    none
  else
    (path.splitOn "/").foldlM
      (fun (left, place) name => (step? place name).map fun next => (place :: left, next))
      ([], workingDirectory)

/-- The directories: the two that paths begin in, and those on the way to a file. -/
def directories (files : Files) : List Place :=
  workingDirectory :: homeDirectory ::
    files.entries.flatMap fun (path, _) => ((way? path).map Prod.fst).getD []

/-- The text of the file that a path leads to. -/
def read? (files : Files) (path : String) : Option String :=
  (way? path).bind fun (left, place) =>
    if left.all (files.directories.contains ·) then
      files.entries.findSome? fun (other, text) =>
        if (way? other).map Prod.snd = some place then some text else none
    else
      none

end Files

end Runbook
