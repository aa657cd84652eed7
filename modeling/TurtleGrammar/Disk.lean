import TurtleGrammar.Text.Quoted

/-!
# `TurtleGrammar.Disk` — files and folders

A disk holds folders and files under absolute paths, and one of its folders is the working one. A
path text is walked component by component from the working folder, or from the root if it starts
with a slash; every component but the last must lead to a folder.

## Contents
- `Path`, `Path.text`, `Path.normal`: absolute paths; `Path.root`: how their texts start.
- `Disk`, `Disk.walk`: what a path text leads to.
- `Disk.read`, `Disk.write`, `Disk.makeFolders`: the operations, with `DiskFault` when they fail.
- `Disk.deliver`: a file with the folders that it stands in.
-/

namespace TurtleGrammar

/-- An absolute path as the list of its components. -/
abbrev Path := List String

namespace Path

/-- The text of an absolute path with what is written for the root. -/
def textFrom (root : String) (p : Path) : String := root ++ String.intercalate "/" p

/-- The text of an absolute path. -/
def text (p : Path) : String := p.textFrom "/"

/-- What is written for the root of a path text: two slashes if it starts with exactly two. -/
def root (path : String) : String :=
  if path.startsWith "//" && !path.startsWith "///" then "//" else "/"

/-- The components of a path text; an empty component names the folder itself. -/
def components (path : String) : List String :=
  (path.splitOn "/").filter (· != "")

/-- One more component: a point stays, two points lead to the folder above. -/
def enter (p : Path) (component : String) : Path :=
  if component = "." then p else if component = ".." then p.dropLast else p ++ [component]

/-- The absolute path that a text denotes if every component is a folder. -/
def normal (home : Path) (path : String) : Path :=
  (components path).foldl enter (if path.startsWith "/" then [] else home)

end Path

/-- Why the disk refuses an operation. -/
inductive DiskCause where
  | missing
  | exists
  | notFolder
  | isFolder
  | nameTooLong
  deriving DecidableEq, Repr

namespace DiskCause

/-- The number by which the cause is known. -/
def code : DiskCause → Nat
  | missing => 2
  | .exists => 17
  | notFolder => 20
  | isFolder => 21
  | nameTooLong => 36

def text : DiskCause → String
  | missing => "No such file or directory"
  | .exists => "File exists"
  | notFolder => "Not a directory"
  | isFolder => "Is a directory"
  | nameTooLong => "File name too long"

end DiskCause

/-- A refused operation. -/
inductive DiskFault where
  | refused (cause : DiskCause) (path : String)
  /-- A path that holds the null character is no path. -/
  | nullCharacter
  deriving DecidableEq, Repr

def DiskFault.message : DiskFault → String
  | refused cause path =>
    "[Errno " ++ toString cause.code ++ "] " ++ cause.text ++ ": " ++ Text.quoted path
  | nullCharacter => "embedded null byte"

/-- The content of a file. -/
abbrev Content := List UInt8

/-- Folders and files under absolute paths, each path once, and the working folder. -/
structure Disk where
  home : Path
  folders : List Path
  files : List (Path × Content)

namespace Disk

/-- What the last component of a path text leads to: a folder, a file, or a free name in a folder.
    -/
inductive Spot where
  | folder (path : Path)
  | file (path : Path)
  | free (path : Path)
  deriving DecidableEq

/-- The content of the file with an absolute path. -/
def content? (d : Disk) (p : Path) : Option Content := d.files.lookup p

/-- Is there a folder with an absolute path? The working folder and those above it always exist. -/
def isFolder (d : Disk) (p : Path) : Bool := p.isPrefixOf d.home || d.folders.contains p

/-- The greatest number of bytes of a component. -/
def maxName : Nat := 255

/-- The least number of bytes that a path text cannot have. -/
def maxPath : Nat := 4096

/-- Walk from a folder along components. -/
def walk (d : Disk) (p : Path) : List String → Except DiskCause Spot
  | [] => .ok (.folder p)
  | name :: rest =>
    if name = "." || name = ".." then d.walk (p.enter name) rest
    else if name.utf8ByteSize > maxName then .error .nameTooLong
    else
      let next := p ++ [name]
      if d.isFolder next then d.walk next rest
      else if (d.content? next).isSome then
        if rest.isEmpty then .ok (.file next) else .error .notFolder
      else if rest.isEmpty then .ok (.free next)
      else .error .missing

/-- Does the text hold the null character? -/
def hasNull (path : String) : Bool := path.contains (Char.ofNat 0)

/-- What components lead to from where a path text starts. -/
def follow (d : Disk) (path : String) (components : List String) : Except DiskFault Spot :=
  if hasNull path then .error .nullCharacter
  else if path.isEmpty then .error (.refused .missing path)
  else if path.utf8ByteSize ≥ maxPath then .error (.refused .nameTooLong path)
  else (d.walk (if path.startsWith "/" then [] else d.home) components).mapError (.refused · path)

/-- What a path text leads to. -/
def locate (d : Disk) (path : String) : Except DiskFault Spot :=
  d.follow path (Path.components path)

/-- The content of the file that a path text leads to. A slash at the end asks for a folder. -/
def read (d : Disk) (path : String) : Except DiskFault Content := do
  match ← d.locate path with
  | .folder _ => .error (.refused .isFolder path)
  | .free _ => .error (.refused .missing path)
  | .file p =>
    if path.endsWith "/" then .error (.refused .notFolder path)
    else match d.content? p with
      | some content => .ok content
      | none => .error (.refused .missing path)

/-- The files with one content set; a new file goes last. -/
def setFile (p : Path) (content : Content) : List (Path × Content) → List (Path × Content)
  | [] => [(p, content)]
  | f :: rest => if f.1 = p then (p, content) :: rest else f :: setFile p content rest

/-- Where a file may be written: at a free name or over a file. With a slash at its end a path text
    asks for a folder, whatever its last component leads to. -/
def place (d : Disk) (path : String) : Except DiskFault Path := do
  if path.endsWith "/" then
    match ← d.follow path (Path.components path).dropLast with
    | .folder _ => .error (.refused .isFolder path)
    | .file _ => .error (.refused .notFolder path)
    | .free _ => .error (.refused .missing path)
  else
    match ← d.locate path with
    | .folder _ => .error (.refused .isFolder path)
    | .file p => return p
    | .free p => return p

/-- The disk with a file written at an absolute path. -/
def put (d : Disk) (p : Path) (content : Content) : Disk :=
  { d with files := setFile p content d.files }

/-- Write a file. -/
def write (d : Disk) (path : String) (content : Content) : Except DiskFault Disk :=
  (d.place path).map fun p => d.put p content

/-- The refusal of a folder with a place and a name: the name holds the null character, the path or
    the name is too long, or a file stands where the parent should. -/
def folderFault? (d : Disk) (root : String) (p : Path) (name : String) : Option DiskFault :=
  let text := (p ++ [name]).textFrom root
  if hasNull name then some .nullCharacter
  else if text.utf8ByteSize ≥ maxPath then some (.refused .nameTooLong text)
  else if (d.content? p).isSome then some (.refused .notFolder text)
  else if name.utf8ByteSize > maxName then some (.refused .nameTooLong text)
  else none

/-- Make the folders along components from a folder on that do not exist yet; refusals write `root`
    for the root. The folders that were made before a refusal stay. -/
def makeFolders (d : Disk) (root : String) (p : Path) : List String → Disk × Except DiskFault Unit
  | [] => (d, .ok ())
  | name :: rest =>
    let next := p ++ [name]
    match d.folderFault? root p name with
    | some fault => (d, .error fault)
    | none =>
      if d.isFolder next then d.makeFolders root next rest
      else if (d.content? next).isSome then
        if rest.isEmpty then (d, .error (.refused .exists (next.textFrom root)))
        else d.makeFolders root next rest
      else { d with folders := d.folders ++ [next] }.makeFolders root next rest

/-- Make the folders that a file with the given path text is to stand in. -/
def makeParent (d : Disk) (path : String) : Disk × Except DiskFault Unit :=
  d.makeFolders (Path.root path) [] (Path.normal d.home path).dropLast

/-- Write a file after making the folders it stands in. Whatever fails, no file changes. -/
def deliver (d : Disk) (path : String) (content : Content) : Disk × Except DiskFault Unit :=
  match d.makeParent path with
  | (made, .error fault) => (made, .error fault)
  | (made, .ok ()) =>
    match made.write path content with
    | .error fault => (made, .error fault)
    | .ok written => (written, .ok ())

end Disk

end TurtleGrammar
