/-! Access to files as programs use it. Programs are written for any store of files, so that they run on
the files of a machine as well as on a disk that is only a value. -/
namespace SchemaForge

inductive FileError where
  | notFound
  | isDirectory
  | notDirectory
  | alreadyExists
  | other (text : String)
deriving DecidableEq

def FileError.message : FileError → String
  | .notFound => "No such file or directory"
  | .isDirectory => "Is a directory"
  | .notDirectory => "Not a directory"
  | .alreadyExists => "File exists"
  | .other text => text

/-- A store of files by name. Directories are made with all those above them. -/
class FileStore (m : Type → Type) where
  present : String → m Bool
  readText : String → m (Except FileError String)
  makeDirectories : String → m (Except FileError Unit)
  writeText : String → String → m (Except FileError Unit)

end SchemaForge
