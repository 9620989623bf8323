import Cashflow.Document.File
import Cashflow.Text.Encoding

/-!
# Directories

The files that a command sees. A path is walked name by name: every name but the last must lead to a
directory, `.` stays where it is and `..` goes one directory up. The directories above the working
directory are there, but nothing is known to be in them.

* `content` : what a path leads to when it is read, written in its shortest form;
* `opened` : the place that a path opens for writing, or why it opens none;
* `write` : the directory with a text at that place.
-/

namespace Cashflow

/-- Why a file cannot be opened. -/
inductive OpenFault where
  | absent
  | notDirectory
  | directory
  | nameTooLong
  | nullCharacter
  | unencodable (fault : Text.EncodingFault)
deriving DecidableEq

def OpenFault.message (path : String) : OpenFault → String
  | .absent => s!"[Errno 2] No such file or directory: {Text.quoted path}"
  | .notDirectory => s!"[Errno 20] Not a directory: {Text.quoted path}"
  | .directory => s!"[Errno 21] Is a directory: {Text.quoted path}"
  | .nameTooLong => s!"[Errno 36] File name too long: {Text.quoted path}"
  | .nullCharacter => "embedded null byte"
  | .unencodable f => f.message

/-- Names from the working directory down, after one `..` for every directory above it, or after the
root. -/
abbrev Location := List (List Char)

namespace Location

def here : List Char := ['.']

def up : List Char := ['.', '.']

def root : List Char := ['/']

/-- The directory above a directory; the root is above itself. -/
def parent (l : Location) : Location :=
  match l.getLast? with
  | none => [up]
  | some name => if name = up then l ++ [up] else if name = root then l else l.dropLast

/-- The working directory or one above it. -/
def isAround (l : Location) : Bool := l.all fun name => name = up || name = root

/-- Where a path starts. -/
def start (path : List Char) : Location := if path.head? = some '/' then [root] else []

/-- The location that a path spells. -/
def ofPath (path : String) : Location :=
  (Text.pathParts path.toList).foldl (fun l name => if name = up then l.parent else l ++ [name])
    (start path.toList)

end Location

/-- What stands at the end of a walk. -/
inductive Found where
  | file (place : Location) (text : String)
  | folder (place : Location)
  | nothing (place : Location)

structure Directory where
  files : List (Location × String)

namespace Directory

def ofFiles (files : List (String × String)) : Directory :=
  ⟨files.map fun f => (Location.ofPath f.1, f.2)⟩

def file? (d : Directory) (l : Location) : Option String :=
  (d.files.find? fun f => f.1 = l).map Prod.snd

/-- Some file lies below the location, or it is around the files. -/
def hasFolder (d : Directory) (l : Location) : Bool :=
  l.isAround || d.files.any fun f => l.isPrefixOf f.1 && l.length < f.1.length

/-! ## Walking -/

/-- The bytes of a name; a surrogate keeps a single byte. -/
def byteLength (name : List Char) : Nat :=
  (Text.codesOf name).foldl
    (fun n code => n + if Text.isSurrogate code then 1 else (Char.ofNat code).utf8Size) 0

/-- The most bytes of a name. -/
def nameLimit : Nat := 255

/-- The bytes from which on a path is too long. -/
def pathLimit : Nat := 4096

/-- What keeps a path from being walked at all. -/
def pathFault? (path : String) : Option OpenFault :=
  match Text.pathEncodingFault? path with
  | some f => some (.unencodable f)
  | none =>
    if path.toList.contains '\x00' then some .nullCharacter
    else if pathLimit ≤ byteLength path.toList then some .nameTooLong
    else none

def look (d : Directory) (folder : Location) (name : List Char) : Except OpenFault Found :=
  if name = Location.here then .ok (.folder folder)
  else if name = Location.up then .ok (.folder folder.parent)
  else if nameLimit < byteLength name then .error .nameTooLong
  else
    let place := folder ++ [name]
    match d.file? place with
    | some text => .ok (.file place text)
    | none => .ok (if d.hasFolder place then .folder place else .nothing place)

/-- The directory that was found, if it is one. -/
def enter : Found → Except OpenFault Location
  | .folder place => .ok place
  | .file _ _ => .error .notDirectory
  | .nothing _ => .error .absent

def walk (d : Directory) (found : Found) : List (List Char) → Except OpenFault Found
  | [] => .ok found
  | name :: rest =>
    match enter found with
    | .error f => .error f
    | .ok folder =>
      match d.look folder name with
      | .error f => .error f
      | .ok found => d.walk found rest

/-- The names of a path, also those that stand for a place. -/
def names (path : List Char) : List (List Char) := (Text.splitSlash path).filter (· ≠ [])

def find (d : Directory) (path : String) : Except OpenFault Found :=
  match pathFault? path with
  | some f => .error f
  | none => d.walk (.folder (Location.start path.toList)) (names path.toList)

/-! ## Reading and writing -/

def content (d : Directory) (path : String) : FileContent :=
  match d.find (Text.normalPath path) with
  | .ok (.file _ text) => .text text
  | .ok (.folder _) => .directory
  | .ok (.nothing _) => .absent
  | .error .nameTooLong => .nameTooLong
  | .error _ => .absent

/-- Whether a path can end in a directory only. -/
def endsInFolder (path : List Char) : Bool :=
  path.getLast? = some '/' ||
    (match (names path).getLast? with
    | some name => name = Location.here || name = Location.up
    | none => true)

def opened (d : Directory) (path : String) : Except OpenFault Location :=
  match pathFault? path with
  | some f => .error f
  | none => do
    let ns := names path.toList
    let folder ← enter (← d.walk (.folder (Location.start path.toList)) ns.dropLast)
    if endsInFolder path.toList then .error .directory
    else
      match ← d.look folder (ns.getLast?.getD []) with
      | .folder _ => .error .directory
      | .file place _ | .nothing place => .ok place

def put (d : Directory) (l : Location) (text : String) : Directory :=
  ⟨(d.files.filter fun f => f.1 ≠ l) ++ [(l, text)]⟩

def write (d : Directory) (path text : String) : Except OpenFault Directory :=
  (d.opened path).map fun l => d.put l text

end Directory

end Cashflow
