import Intcode.CommandLine.FileSystem
import Intcode.CommandLine.Path

/-!
Directories: a file system of files that are held in memory, by paths relative to where a command is
run. A path is followed part by part, and the first part that cannot be followed decides what is
wrong with it.
-/
namespace Intcode.CommandLine

inductive Base where
  | above (levels : Nat)
  | system
  deriving Repr, DecidableEq

structure Place where
  base : Base
  parts : List String
  deriving Repr, DecidableEq

namespace Place

def here : Place :=
  { base := .above 0, parts := [] }

def start (path : Path) : Place :=
  if path.root.isEmpty then here else { base := .system, parts := [] }

def child (place : Place) (part : String) : Place :=
  { place with parts := place.parts ++ [part] }

def up (place : Place) : Place :=
  match place with
  | { base := .above levels, parts := [] } => { base := .above (levels + 1), parts := [] }
  | { base, parts } => { base, parts := parts.dropLast }

def along : Place → List String → Place
  | folder, [] => folder
  | folder, part :: rest =>
    if part = "." then folder.along rest
    else if part = ".." then folder.up.along rest
    else (folder.child part).along rest

def contains (place other : Place) : Bool :=
  place.base = other.base && place.parts.isPrefixOf other.parts

def system (parts : List String) : Place :=
  { base := .system, parts }

def common : List Place :=
  [["dev", "fd"], ["etc"], ["home"], ["proc", "self", "fd"], ["root"], ["tmp"], ["usr", "bin"],
    ["var", "log"]].map system

def nullDevice : Place :=
  system ["dev", "null"]

def outputs : List Place :=
  [["dev", "stdout"], ["dev", "fd", "1"], ["proc", "self", "fd", "1"]].map system

end Place

def Path.place (path : Path) : Place :=
  (Place.start path).along path.parts

structure Directory where
  files : List (Place × List UInt8)
  folders : List Place := []
  deriving Repr, DecidableEq

inductive Entry where
  | file (bytes : List UInt8)
  | folder
  | free (place : Place)
  | missing
  | blocked
  | tooLong
  deriving Repr, DecidableEq

namespace Directory

def maxPart : Nat := 255

def maxPath : Nat := 4095

def ofFiles (files : List (Path × List UInt8)) : Directory :=
  { files := files.map fun (path, bytes) => ({ Place.start path with parts := path.parts }, bytes) }

def isFolder (d : Directory) (place : Place) : Bool :=
  place.parts.isEmpty
    || (d.folders ++ Place.common).any place.contains
    || d.files.any fun (file, _) => place.contains file && place != file

def file? (d : Directory) (place : Place) : Option (List UInt8) :=
  if place = Place.nullDevice then
    some []
  else
    (d.files.find? fun (file, _) => file == place).map (·.2)

def follow (d : Directory) : (folder : Place) → List String → Entry
  | _, [] => .folder
  | folder, part :: rest =>
    if part = "." then d.follow folder rest
    else if part = ".." then d.follow folder.up rest
    else if maxPart < part.utf8ByteSize then .tooLong
    else
      let place := folder.child part
      match d.file? place with
      | some bytes => if rest.isEmpty then .file bytes else .blocked
      | none =>
        if d.isFolder place then d.follow place rest
        else if rest.isEmpty then .free place
        else .missing

def lookup (d : Directory) (path : Path) : Entry :=
  if maxPath < path.render.utf8ByteSize then .tooLong else d.follow (Place.start path) path.parts

def hasNul (s : String) : Bool :=
  s.toList.contains '\x00'

def readAs (d : Directory) (shown : String) (path : Path) : Except SystemError (List UInt8) :=
  if hasNul shown then
    .error .nulByte
  else
    match d.lookup path with
    | .file bytes => .ok bytes
    | .folder => .error (.isADirectory shown)
    | .free _ | .missing => .error (.missing shown)
    | .blocked => .error (.notADirectory shown)
    | .tooLong => .error (.nameTooLong shown)

def read (d : Directory) (path : String) : Except SystemError (List UInt8) :=
  d.readAs (Path.ofString path).render (Path.ofString path)

def makeFolder (d : Directory) (path : Path) : Except SystemError Directory :=
  let shown := path.render
  if hasNul shown then
    .error .nulByte
  else
    match d.lookup path with
    | .free place => .ok { d with folders := place :: d.folders }
    | .file _ | .folder => .error (.alreadyExists shown)
    | .missing => .error (.missing shown)
    | .blocked => .error (.notADirectory shown)
    | .tooLong => .error (.nameTooLong shown)

def settle (d : Directory) (path : Path) (result : Except SystemError Directory)
    : Except SystemError Directory :=
  match result with
  | .ok d => .ok d
  | .error e => if d.lookup path = .folder then .ok d else .error e

def makeFolders (d : Directory) (path : Path) : Except SystemError Directory :=
  go path.parts.reverse
where
  go : (lastFirst : List String) → Except SystemError Directory
    | [] => d.settle { path with parts := [] } (d.makeFolder { path with parts := [] })
    | part :: before =>
      let path := { path with parts := (part :: before).reverse }
      match d.makeFolder path with
      | .error (.missing _) => do
        let d ← go before
        d.settle path (d.makeFolder path)
      | result => d.settle path result

def makeFile (d : Directory) (path : Path) : Except SystemError Directory :=
  match d.readAs path.render path, d.lookup path with
  | .error (.missing _), .free place => .ok { d with files := (place, []) :: d.files }
  | .error e, _ => .error e
  | .ok _, _ => .ok d

def prepare (d : Directory) (path : String) : Except SystemError Directory := do
  let d ← d.makeFolders (Path.ofString path).parent
  d.makeFile (Path.ofString path).collapse

def put (d : Directory) (place : Place) (bytes : List UInt8) : Directory :=
  { d with files := (place, bytes) :: d.files }

def append (d : Directory) (path : String) (bytes : List UInt8) : Directory :=
  let place := (Path.ofString path).collapse.place
  d.put place ((d.file? place).getD [] ++ bytes)

end Directory

instance : FileSystem Directory where
  read path d := d.read path
  openLog path d := d.prepare path
  append path bytes d := d.append path bytes
  echoes path _ := Place.outputs.contains (Path.ofString path).collapse.place

end Intcode.CommandLine
