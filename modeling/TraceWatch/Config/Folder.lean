import TraceWatch.Config.Files
import TraceWatch.Text.Octets
import TraceWatch.Text.Parts

/-!
# A folder of files

A folder holds files under relative paths. `Folder.read` follows a path through it; nothing is
known about what is outside.
-/

namespace TraceWatch

/-- Files, each under the names that lead to it. -/
abbrev Folder := List (List String × String)

namespace Folder

/-- The names in a path. Empty ones and `.` lead nowhere. -/
def names (path : String) : List String :=
  ((Text.parts (· = '/') path.toList).map String.ofList).filter fun name =>
    name ≠ "" ∧ name ≠ "."

/-- The folder of files under the given paths. -/
def ofFiles (files : List (String × String)) : Folder :=
  files.map fun (path, text) => (names path, text)

/-- The text of the file at a place. -/
def file? (folder : Folder) (place : List String) : Option String :=
  (folder.find? (·.1 = place)).map Prod.snd

/-- Whether a place is a folder on the way to a file, or the folder itself. -/
def isFolder (folder : Folder) (place : List String) : Bool :=
  place.isEmpty ||
    folder.any fun (names, _) => place.length < names.length && place.isPrefixOf names

/-- The number of octets of a text. -/
def size (text : String) : Nat := (text.toList.flatMap Text.octets).length

/-- The longest name of a file, in octets. -/
def maxName : Nat := 255

/-- A path must be shorter than this, in octets. -/
def pathLimit : Nat := 4096

/-- What the names of a path lead to outside the folder: only the folders around it are known to be
there. -/
def outside (names : List String) : FileError :=
  if names.all (· = "..") then .directory else .missing

/-- The place that names lead to, from a place in the folder. Two full stops lead back. -/
def walk (folder : Folder) (place : List String) : List String → Except FileError (List String)
  | [] => .ok place
  | name :: rest =>
    if folder.isFolder place then
      if name = ".." then
        if place.isEmpty then .error (outside rest) else walk folder place.dropLast rest
      else if maxName < size name then .error .nameTooLong
      else
        let next := place ++ [name]
        if folder.isFolder next || (folder.file? next).isSome then walk folder next rest
        else .error .missing
    else .error .throughFile

/-- Whether a path ends so that it asks for a folder. -/
def asksForFolder (path : String) : Bool :=
  match (Text.parts (· = '/') path.toList).getLast? with
  | some last => last = [] || last = ['.']
  | none => false

/-- What reading a path gives. -/
def read (folder : Folder) : Files := fun path =>
  if path.toList.contains '\x00' then .error .zeroCharacter
  else if path.isEmpty then .error .missing
  else if pathLimit ≤ size path then .error .nameTooLong
  else if path.toList.head? = some '/' then
    if (names path).isEmpty then .error .directory else .error .missing
  else
    match folder.walk [] (names path) with
    | .error error => .error error
    | .ok place =>
      match folder.file? place with
      | some text => if asksForFolder path then .error .throughFile else .ok text
      | none => .error .directory

end Folder

end TraceWatch
