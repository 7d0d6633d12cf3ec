import NoteForms.Setup.Language
import NoteForms.Decode.Failure

/-! What can go wrong, by where it goes wrong, with the texts shown to the user and
how grave each fault is. Every fault leaves the rest of the program working. -/

namespace NoteForms

/-- A warning leaves a form usable, an error stops a part of it from loading or
saving, and a critical fault stops it from showing at all. -/
inductive Severity where
  | warning
  | error
  | critical
  deriving DecidableEq, Repr

/-! ### Files -/

/-- Faults of a tracked file. -/
inductive FileFault where
  | notFound (path : String)
  | notAFile (path : String)
  | renamed (source target : String)
  /-- The last write failed. -/
  | unmodified (path : String)
  deriving DecidableEq, Repr

namespace FileFault

def message : FileFault → String
  | .notFound path => "Unable to find file at path \"" ++ path ++ "\"."
  | .notAFile path => "Cannot read contents of \"" ++ path ++ "\" as it is not a file."
  | .renamed source target => "\"" ++ source ++ "\" has been renamed to \"" ++ target ++ "\""
  | .unmodified path => "Could not modify file at \"" ++ path ++ "\""

/-- The path that the fault is about, the old one after a renaming. -/
def path : FileFault → String
  | .notFound path | .notAFile path | .unmodified path => path
  | .renamed source _ => source

def severity : FileFault → Severity
  | .renamed _ _ => .warning
  | _ => .error

end FileFault

/-! ### The vault -/

/-- Faults of reading or writing in the vault. -/
inductive VaultFault where
  | missing (path : String)
  | notAFile (path : String)
  | rejected (path reason : String)
  | frontmatter (path reason : String)
  deriving DecidableEq, Repr

namespace VaultFault

def message : VaultFault → String
  | .missing path => "no file at \"" ++ path ++ "\""
  | .notAFile path => "\"" ++ path ++ "\" is a folder"
  | .rejected path reason => "write to \"" ++ path ++ "\" rejected: " ++ reason
  | .frontmatter path reason => "invalid frontmatter in \"" ++ path ++ "\": " ++ reason

/-- The fault of the file itself, if it is one. -/
def fileFault? : VaultFault → Option FileFault
  | .missing path => some (.notFound path)
  | .notAFile path => some (.notAFile path)
  | _ => none

end VaultFault

/-! ### Configuration -/

/-- Faults of a form block. -/
inductive BlockFault where
  | unsupportedLanguage (language : String)
  | unreadable (format : Setup.Format) (reason : String)
  | invalid (failures : Decode.Failures)
  deriving DecidableEq, Repr

def BlockFault.message : BlockFault → String
  | .unsupportedLanguage language => "unsupported code block language: " ++ language
  | .unreadable format reason => "failed to parse " ++ format.name ++ " code block: " ++ reason
  | .invalid failures => "invalid configuration:\n" ++ failures.message

/-! ### Records -/

/-- Faults of loading or saving records. -/
inductive RecordsFault where
  | file (fault : FileFault)
  | shape (location : String) (failures : Decode.Failures)
  | json (path : String) (fault : Json.Fault)
  | serialize (fault : Json.Fault)
  | nothingSelected
  deriving DecidableEq, Repr

namespace RecordsFault

def message : RecordsFault → String
  | .file fault => fault.message
  | .shape location failures =>
    location ++ " must hold an array of objects:\n" ++ Decode.Failures.message failures
  | .json path fault => "failed to parse JSON in \"" ++ path ++ "\": " ++ fault.message
  | .serialize fault => "failed to serialize records: " ++ fault.message
  | .nothingSelected => "no form is selected"

def severity : RecordsFault → Severity
  | .file fault => fault.severity
  | .nothingSelected => .warning
  | _ => .error

end RecordsFault

/-! ### Settings -/

/-- Faults of loading or saving settings. -/
inductive SettingsFault where
  /-- The stored settings have another shape. -/
  | shape
  | store (reason : String)
  deriving DecidableEq, Repr

/-- The text of a fault; the shape of stored settings has none. -/
def SettingsFault.message? : SettingsFault → Option String
  | .shape => none
  | .store reason => some ("plugin data store failed: " ++ reason)

/-! ### All faults -/

inductive Fault where
  | block (fault : BlockFault)
  | file (fault : FileFault)
  | records (fault : RecordsFault)
  | settings (fault : SettingsFault)
  | vault (fault : VaultFault)
  deriving DecidableEq, Repr

namespace Fault

def message? : Fault → Option String
  | .block fault => some fault.message
  | .file fault => some fault.message
  | .records fault => some fault.message
  | .settings fault => fault.message?
  | .vault fault => some fault.message

def severity : Fault → Severity
  | .block _ => .critical
  | .file fault => fault.severity
  | .records fault => fault.severity
  | .settings _ | .vault _ => .error

end Fault

end NoteForms
