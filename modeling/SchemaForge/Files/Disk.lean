import SchemaForge.Files.FileStore
import SchemaForge.Files.PathName

/-! A disk as a value: which files and directories there are, and what the files hold. Names are followed
component by component, and every component but the last must lead to a directory. -/
namespace SchemaForge

/-- The way from the root to a file or directory. -/
abbrev Location := List String

inductive DiskNode where
  | file (text : String)
  | directory
deriving DecidableEq

/-- Files and directories by location, and the directory that names are relative to. The root is always
a directory. -/
structure Disk where
  nodes : List (Location × DiskNode)
  home : Location

namespace Disk

/-- A disk with an empty directory that names are relative to. -/
def empty : Disk :=
  { nodes := [(["home"], .directory)], home := ["home"] }

def nodeAt? (disk : Disk) (location : Location) : Option DiskNode :=
  if location.isEmpty then some .directory
  else (disk.nodes.find? fun entry => entry.1 = location).map Prod.snd

def place (disk : Disk) (location : Location) (node : DiskNode) : Disk :=
  { disk with nodes := (location, node) :: disk.nodes.filter fun entry => entry.1 ≠ location }

def remove (disk : Disk) (location : Location) : Disk :=
  { disk with nodes := disk.nodes.filter fun entry => entry.1 ≠ location }

/-- Where a component leads from a directory. -/
def stepTo (location : Location) (component : String) : Location :=
  if component = "." then location
  else if component = ".." then location.dropLast
  else location ++ [component]

/-- Follows components from a location. -/
def walk (disk : Disk) (location : Location) : List String → Except FileError Location
  | [] => .ok location
  | component :: rest =>
      match disk.nodeAt? location with
      | some .directory => walk disk (stepTo location component) rest
      | some (.file _) => .error .notDirectory
      | none => .error .notFound

/-- Where the components of a name start from. -/
def base (disk : Disk) (name : String) : Location :=
  if PathName.isAbsolute name then [] else disk.home

/-- The location that a name leads to, whether there is something or not. -/
def locate (disk : Disk) (name : String) : Except FileError Location :=
  if name = "" then .error .notFound
  else disk.walk (disk.base name) (PathName.components name)

def find (disk : Disk) (name : String) : Except FileError DiskNode :=
  match disk.locate name with
  | .error cause => .error cause
  | .ok location =>
      match disk.nodeAt? location with
      | none => .error .notFound
      | some .directory => .ok .directory
      | some (.file text) =>
          if PathName.demandsDirectory name then .error .notDirectory else .ok (.file text)

def present (disk : Disk) (name : String) : Bool :=
  match disk.find name with
  | .ok _ => true
  | .error _ => false

def readText (disk : Disk) (name : String) : Except FileError String :=
  match disk.find name with
  | .ok (.file text) => .ok text
  | .ok .directory => .error .isDirectory
  | .error cause => .error cause

/-- The components lead to a directory. -/
def isDirectoryAt (disk : Disk) (start : Location) (names : List String) : Bool :=
  match disk.walk start names with
  | .ok location => disk.nodeAt? location == some .directory
  | .error _ => false

/-- Makes the directory that the components lead to. The one that holds it must be there. -/
def makeDirectory (disk : Disk) (start : Location) (names : List String) : Except FileError Disk :=
  match disk.walk start names with
  | .error cause => .error cause
  | .ok location =>
      match disk.nodeAt? location with
      | some _ => .error .alreadyExists
      | none => .ok (disk.place location .directory)

/-- Makes the directory that the components lead to unless it is there. -/
def ensureDirectory (disk : Disk) (start : Location) (names : List String) :
    Except FileError Unit × Disk :=
  match disk.makeDirectory start names with
  | .ok made => (.ok (), made)
  | .error cause => if disk.isDirectoryAt start names then (.ok (), disk) else (.error cause, disk)

/-- Makes the directory that components in reverse lead to, after those above it if they are missing.
Those made before a failure stay. -/
def ensureDirectories (disk : Disk) (start : Location) : List String → Except FileError Unit × Disk
  | [] => (.ok (), disk)
  | name :: above =>
      let names := (name :: above).reverse
      match disk.ensureDirectory start names with
      | (.error .notFound, _) =>
          match ensureDirectories disk start above with
          | (.ok _, prepared) => prepared.ensureDirectory start names
          | failed => failed
      | done => done

/-- Makes a directory and all those above it that are missing. -/
def makeDirectories (disk : Disk) (name : String) : Except FileError Unit × Disk :=
  disk.ensureDirectories (disk.base name) (PathName.components name).reverse

/-- Writes a file, which is made if it is missing. A name that demands a directory names no file to
write, whatever is there. -/
def writeText (disk : Disk) (name text : String) : Except FileError Disk :=
  match disk.locate name with
  | .error cause => .error cause
  | .ok location =>
      if PathName.demandsDirectory name ∨ disk.nodeAt? location = some .directory then
        .error .isDirectory
      else .ok (disk.place location (.file text))

/-- The files below the directory that names are relative to, by their names there. -/
def filesAtHome (disk : Disk) : List (String × String) :=
  disk.nodes.filterMap fun (location, node) =>
    match node with
    | .file text =>
        if disk.home.isPrefixOf location then
          some ("/".intercalate (location.drop disk.home.length), text)
        else none
    | .directory => none

end Disk

/-- Replaces the disk if writing succeeds. -/
def writeOn (name text : String) (disk : Disk) : Except FileError Unit × Disk :=
  match disk.writeText name text with
  | .ok changed => (.ok (), changed)
  | .error cause => (.error cause, disk)

instance : FileStore (StateM Disk) where
  present name := fun disk => (disk.present name, disk)
  readText name := fun disk => (disk.readText name, disk)
  makeDirectories name := fun disk => disk.makeDirectories name
  writeText name text := fun disk => writeOn name text disk

end SchemaForge
