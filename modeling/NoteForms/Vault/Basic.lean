import NoteForms.Vault.Event
import NoteForms.Note.Frontmatter
import NoteForms.Fault

/-! A vault of notes. Files and folders are kept apart: nothing stops a folder from
being made at the path of a file. With each file goes the frontmatter that its text
held when it was last written. Every change is reported as one event; a vault can
be set to reject writes. -/

namespace NoteForms

structure StoredFile where
  text : String
  /-- The frontmatter at the last write, none when it had faults. -/
  frontmatter : Option Object
  deriving DecidableEq

def StoredFile.ofText (text : String) : StoredFile := ⟨text, (Note.parse text).bind (·.frontmatter)⟩

structure Vault where
  files : Entries StoredFile := []
  folders : List String := []
  failWrites : Bool := false

namespace Vault

/-! ### Looking -/

def hasFile (v : Vault) (path : String) : Bool := (v.files.lookup path).isSome

def lookup (v : Vault) (path : String) : Option Place :=
  if v.hasFile path then some (.file path)
  else if v.folders.contains path then some (.folder path)
  else none

def text? (v : Vault) (path : String) : Option String := (v.files.lookup path).map (·.text)

/-- The frontmatter kept with a file. -/
def frontmatter? (v : Vault) (path : String) : Option Object :=
  (v.files.lookup path).bind (·.frontmatter)

def read (v : Vault) (path : String) : Except VaultFault String :=
  match v.files.lookup path with
  | some f => .ok f.text
  | none => if v.folders.contains path then .error (.notAFile path) else .error (.missing path)

/-! ### Changing from outside -/

def putFile (v : Vault) (path : String) (f : StoredFile) : Vault :=
  { v with files := v.files.put path f }

def addFolder (v : Vault) (path : String) : Vault :=
  if v.folders.contains path then v else { v with folders := v.folders ++ [path] }

/-- Makes a file or overwrites it. -/
def insert (v : Vault) (path text : String) : Event × Vault :=
  (if v.hasFile path then .modify (.file path) else .create (.file path),
    v.putFile path (.ofText text))

def createFolder (v : Vault) (path : String) : Event × Vault :=
  (.create (.folder path), v.addFolder path)

/-- Removes the file at a path, or else the folder. -/
def delete (v : Vault) (path : String) : Option (Event × Vault) :=
  match v.lookup path with
  | none => none
  | some (.file _) => some (.delete (.file path), { v with files := v.files.remove path })
  | some (.folder _) => some (.delete (.folder path), { v with folders := v.folders.erase path })

/-- Moves a file over whatever file is at the target. -/
def rename (v : Vault) (source target : String) : Option (Event × Vault) :=
  (v.files.lookup source).map fun f =>
    (.rename (.file target) source, { v with files := (v.files.remove source).put target f })

/-! ### Writing through the vault -/

/-- Why the file at a path cannot be written, if it cannot. -/
def writeFault? (v : Vault) (path : String) : Option VaultFault :=
  if v.failWrites then some (.rejected path "writes are disabled")
  else if v.hasFile path then none
  else some (.missing path)

/-- Replaces the text of a file. -/
def write (v : Vault) (path text : String) : Except VaultFault (Event × Vault) :=
  match v.writeFault? path with
  | some fault => .error fault
  | none => .ok (.modify (.file path), v.putFile path (.ofText text))

/-- Replaces the frontmatter of a file and keeps its body. The new frontmatter is
kept with the file as it is, an empty one too, though it leaves no block in the text. -/
def process (v : Vault) (path : String) (f : Object → Object) :
    Except VaultFault (Event × Vault) :=
  match v.writeFault? path with
  | some fault => .error fault
  | none =>
    match Note.parse ((v.text? path).getD "") with
    | none => .error (.frontmatter path Setup.Format.yamlReason)
    | some note =>
      let fm := f (note.frontmatter.getD [])
      .ok (.modify (.file path), v.putFile path ⟨Note.render fm note.body, some fm⟩)

end Vault

end NoteForms
