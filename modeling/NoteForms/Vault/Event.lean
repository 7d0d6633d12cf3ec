/-! What lives at the paths of a vault, and the changes that a vault reports. -/

namespace NoteForms

/-- What was found at a path. -/
inductive Place where
  | file (path : String)
  | folder (path : String)
  deriving DecidableEq, Repr

def Place.path : Place → String
  | .file path | .folder path => path

namespace Event

inductive Kind where
  | create
  | delete
  | modify
  | rename
  deriving DecidableEq, Repr

def Kind.all : List Kind := [.create, .delete, .modify, .rename]

end Event

/-- A change in a vault. What was renamed is at its new path already. -/
inductive Event where
  | create (place : Place)
  | delete (place : Place)
  | modify (place : Place)
  | rename (place : Place) (oldPath : String)
  deriving DecidableEq, Repr

namespace Event

def kind : Event → Kind
  | .create _ => .create
  | .delete _ => .delete
  | .modify _ => .modify
  | .rename _ _ => .rename

def place : Event → Place
  | .create p | .delete p | .modify p | .rename p _ => p

end Event

end NoteForms
