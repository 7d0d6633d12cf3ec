import NoteForms.Vault.Basic

/-! A tracker follows what is known of one path. It is resolved when it is opened
and from then on reacts to the changes that the vault reports for the path. It does
not go along when the file is renamed, and it writes only where it found a file. -/

namespace NoteForms

/-- Where a tracker stands with its path. -/
inductive FileState where
  /-- The path is not looked up yet. -/
  | unresolved
  | resolved
  | notFound
  | notAFile
  /-- The file was moved away. -/
  | renamed (source target : String)
  /-- The last write failed. -/
  | failed (path : String)
  deriving DecidableEq, Repr

namespace FileState

def ofPlace : Option Place → FileState
  | some (.file _) => .resolved
  | some (.folder _) => .notAFile
  | none => .notFound

/-- What is wrong with the file at a path in a state. -/
def fault? (path : String) : FileState → Option FileFault
  | .unresolved | .resolved => none
  | .notFound => some (.notFound path)
  | .notAFile => some (.notAFile path)
  | .renamed source target => some (.renamed source target)
  | .failed path => some (.unmodified path)

/-- The file may be read and written. -/
def isOpen : FileState → Bool
  | .resolved | .failed _ => true
  | _ => false

/-- Why the file may not be read and written. -/
def refusal (path : String) (s : FileState) : FileFault := (s.fault? path).getD (.notFound path)

end FileState

structure Tracker (α : Type) where
  path : String
  state : FileState := .unresolved
  /-- None until loaded, and after the file is deleted. -/
  data : Option α := none
  /-- How often the data was replaced. -/
  revision : Nat := 0
  /-- How often something was published: a new state, or data. -/
  published : Nat := 0
  /-- A read that was asked for in another epoch is dropped. -/
  epoch : Nat := 0
  /-- How many users hold the tracker. -/
  handles : Nat := 1
  /-- Its listeners on the bus. -/
  listeners : List Nat := []

namespace Tracker

variable {α : Type}

def fault? (t : Tracker α) : Option FileFault := t.state.fault? t.path

def isLive (t : Tracker α) : Bool := t.handles ≠ 0

def isListening (t : Tracker α) : Bool := !t.listeners.isEmpty

/-! ### Publishing -/

/-- Publishes a state, if it is another one. -/
def setState (t : Tracker α) (s : FileState) : Tracker α :=
  if t.state = s then t else { t with state := s, published := t.published + 1 }

def setData (t : Tracker α) (data : Option α) : Tracker α :=
  { t with data, revision := t.revision + 1, published := t.published + 1 }

def resolve (t : Tracker α) (v : Vault) : Tracker α := t.setState (.ofPlace (v.lookup t.path))

/-- Drops the reads that are under way. -/
def invalidate (t : Tracker α) : Tracker α := { t with epoch := t.epoch + 1 }

/-! ### Writes -/

def writeSucceeded (t : Tracker α) : Tracker α :=
  match t.state with
  | .failed _ => t.setState .resolved
  | _ => t

def writeFailed (t : Tracker α) : Tracker α := t.setState (.failed t.path)

/-! ### Events -/

/-- What an event means for a path. -/
inductive Change where
  | unrelated
  /-- Something is at the path now. -/
  | arrived
  | modified
  | deleted
  | left (target : String)
  deriving DecidableEq, Repr

/-- A file that is renamed away from the path has left it, even if it is renamed
onto the path. -/
def Change.of (path : String) (e : Event) : Change :=
  match e with
  | .create p => if p.path = path then .arrived else .unrelated
  | .modify p => if p.path = path then .modified else .unrelated
  | .delete p => if p.path = path then .deleted else .unrelated
  | .rename p oldPath =>
    if oldPath = path then .left p.path
    else if p.path = path then .arrived
    else .unrelated

/-- The tracker after a change, and whether its data is to be loaded anew. -/
def react (t : Tracker α) (v : Vault) : Change → Tracker α × Bool
  | .unrelated => (t, false)
  | .arrived => (t.resolve v, true)
  | .modified => (t, true)
  | .deleted => ((t.invalidate.setState .resolved).setData none, false)
  | .left target => (t.invalidate.setState (.renamed t.path target), false)

/-! ### Loading -/

/-- Loads the frontmatter kept by the vault. -/
def loadNote (t : Tracker Object) (v : Vault) : Tracker Object :=
  if t.state.isOpen then t.setData (v.frontmatter? t.path) else t

/-- Takes the result of a read. -/
def takeText (t : Tracker String) (result : Except VaultFault String) : Tracker String :=
  match result with
  | .ok text => t.setData (some text)
  | .error fault =>
    match fault.fileFault? with
    | none => t
    | some (.notAFile _) => t.setState .notAFile
    | some _ => t.setState .notFound

/-- Reads the text, unless the read was asked for in another epoch. -/
def loadText (t : Tracker String) (read : String → Except VaultFault String) (epoch : Nat) :
    Tracker String :=
  if t.state.isOpen ∧ t.epoch = epoch then t.takeText (read t.path) else t

end Tracker

end NoteForms
