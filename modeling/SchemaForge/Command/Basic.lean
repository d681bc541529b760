/-! The commands of the command line. -/
namespace SchemaForge

/-- A command and what is given with it. -/
inductive Command where
  | generate (input output config : Option String) (watch preview : Bool)
  | init (output : String) (force : Bool)
  | validate (path : String) (input config : Option String)
  | check (input dataDirectory config : Option String)
  | payload (typeName file : String) (update input config : Option String)
deriving DecidableEq

end SchemaForge
