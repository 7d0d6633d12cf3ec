import NoteForms.Form.Mounted

/-! The plugin: its settings, the roster that its forms share, and what becomes of a
form block. A block that cannot be read at all is also reported by a notice. -/

namespace NoteForms.Form

open Setup

structure Plugin where
  settings : Settings
  roster : Roster := {}

/-- What becomes of a form block. -/
inductive Block where
  | form (form : Mounted)
  | failed (fallback : Fallback)

namespace Plugin

section Storage

variable {σ : Type} (k : Storage σ)

/-- A plugin with the settings that are stored. -/
def loadFrom (c : σ) : Except SettingsFault Plugin × σ :=
  let (settings, c) := k.settings c
  (settings.map fun s => { settings := s }, c)

/-- Stores other settings and takes them on. Forms that are mounted keep theirs. -/
def updateIn (p : Plugin) (s : Settings) (c : σ) : Except SettingsFault Unit × Plugin × σ :=
  match k.putSettings s c with
  | (.error fault, c) => (.error fault, p, c)
  | (.ok (), c) => (.ok (), { p with settings := s }, c)

end Storage

def load (d : DataStore) : Except SettingsFault Plugin := (loadFrom DataStore.storage d).1

def updateSettings (p : Plugin) (s : Settings) (d : DataStore) :
    Except SettingsFault (Plugin × DataStore) :=
  let (result, p, d) := p.updateIn DataStore.storage s d
  result.map fun _ => (p, d)

structure Processed where
  block : Block
  notice : Option String
  host : Host
  plugin : Plugin

/-- The notice of a block that cannot be read. -/
def noticeOf (fault : BlockFault) : Option String :=
  match fault with
  | .unreadable _ _ => some fault.message
  | _ => none

/-- Makes a form of a block in the note at a path. -/
def process (p : Plugin) (h : Host) (language body notePath : String) : Processed :=
  match Configuration.read language body (p.settings.defaults notePath) with
  | .error fault => ⟨.failed (.of fault.message), noticeOf fault, h, p⟩
  | .ok c =>
    let (form, h, roster) := Mounted.mount c h p.roster
    ⟨.form form, none, h, { p with roster }⟩

end Plugin

end NoteForms.Form
