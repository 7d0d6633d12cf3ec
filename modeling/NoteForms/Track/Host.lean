import NoteForms.Track.Tracker

/-! A vault together with all that follows it: the bus of listeners, the trackers,
and the reads that wait to be run. Trackers come in two flavours. One of
frontmatter loads what the vault keeps with the file as soon as it hears of a
change. One of text has to read the file, and reads that a change asks for wait
until they are run, oldest first. -/

namespace NoteForms

/-! ### The bus -/

/-- A tracker by its flavour and number. -/
inductive TrackerId where
  | note (n : Nat)
  | text (n : Nat)
  deriving DecidableEq, Repr

inductive Receiver where
  | tracker (id : TrackerId)
  /-- Writes down the events it hears. -/
  | recorder
  deriving DecidableEq, Repr

structure Listener where
  id : Nat
  kind : Event.Kind
  receiver : Receiver
  deriving DecidableEq, Repr

/-- Listeners in the order in which they were registered. -/
structure Bus where
  listeners : List Listener := []
  next : Nat := 0

namespace Bus

def register (b : Bus) (kind : Event.Kind) (receiver : Receiver) : Nat × Bus :=
  (b.next, ⟨b.listeners ++ [⟨b.next, kind, receiver⟩], b.next + 1⟩)

def remove (b : Bus) (ids : List Nat) : Bus :=
  { b with listeners := b.listeners.filter fun l => !ids.contains l.id }

/-- Who hears an event of a kind. -/
def receivers (b : Bus) (kind : Event.Kind) : List Receiver :=
  (b.listeners.filter (·.kind = kind)).map (·.receiver)

/-- A listener for every kind of event. -/
def registerAll (b : Bus) (receiver : Receiver) : List Nat × Bus :=
  Event.Kind.all.foldl (fun (ids, b) kind =>
    let (id, b) := b.register kind receiver
    (ids ++ [id], b)) ([], b)

end Bus

/-! ### Hosts -/

/-- A read of a text tracker, with the tracker's epoch when it was asked for. -/
structure PendingRead where
  tracker : Nat
  epoch : Nat
  deriving DecidableEq, Repr

structure Host where
  vault : Vault := {}
  bus : Bus := {}
  notes : List (Tracker Object) := []
  texts : List (Tracker String) := []
  /-- The reads that wait, the oldest first. -/
  pending : List PendingRead := []
  /-- Reads can wait; otherwise those that a change asks for are left out. -/
  canWait : Bool := true
  /-- Reads of trackers are rejected. -/
  failReads : Bool := false
  /-- The events that recorders heard. -/
  recorded : List Event := []

namespace Host

/-- A change of a tracker that does not depend on its flavour. -/
abbrev Adjustment := {α : Type} → Tracker α → Tracker α

def adjust (h : Host) (id : TrackerId) (f : Adjustment) : Host :=
  match id with
  | .note n => { h with notes := h.notes.modify n f }
  | .text n => { h with texts := h.texts.modify n f }

/-- What a function tells of a tracker, whatever its flavour. -/
def ask {β : Type} (h : Host) (id : TrackerId) (f : {α : Type} → Tracker α → β) : Option β :=
  match id with
  | .note n => (h.notes[n]?).map f
  | .text n => (h.texts[n]?).map f

/-- Reads a file for a tracker. -/
def read (h : Host) (path : String) : Except VaultFault String :=
  if h.failReads then .error (.rejected path "reads are disabled") else h.vault.read path

/-! ### Events -/

/-- One receiver hears an event. -/
def deliver (e : Event) (h : Host) (receiver : Receiver) : Host :=
  match receiver with
  | .recorder => { h with recorded := h.recorded ++ [e] }
  | .tracker (.note n) =>
    { h with notes := h.notes.modify n fun t =>
        let (t, load) := t.react h.vault (.of t.path e)
        if load then t.loadNote h.vault else t }
  | .tracker (.text n) =>
    match h.texts[n]? with
    | none => h
    | some t =>
      let (t, load) := t.react h.vault (.of t.path e)
      { h with
        texts := h.texts.set n t
        pending := if load && h.canWait then h.pending ++ [⟨n, t.epoch⟩] else h.pending }

/-- All who listen hear an event, in the order in which they were registered. -/
def emit (h : Host) (e : Event) : Host := (h.bus.receivers e.kind).foldl (deliver e) h

/-- The vault has changed, and reports it. -/
def changed (h : Host) (change : Event × Vault) : Host :=
  { h with vault := change.2 }.emit change.1

/-- The next read that waits is run. If nobody holds its tracker, it does nothing. -/
def runRead (h : Host) (r : PendingRead) : Host :=
  { h with texts := h.texts.modify r.tracker fun t =>
      if t.isLive then t.loadText h.read r.epoch else t }

/-- Runs all reads that wait. -/
def drain (h : Host) : Host := h.pending.foldl runRead { h with pending := [] }

/-! ### Listening -/

/-- Starts listening, unless the tracker listens already. -/
def listen (h : Host) (id : TrackerId) : Host :=
  match h.ask id Tracker.isListening with
  | some false =>
    let (ids, bus) := h.bus.registerAll (.tracker id)
    { h with bus }.adjust id fun t => { t with listeners := ids }
  | _ => h

def unlisten (h : Host) (id : TrackerId) : Host :=
  let ids := (h.ask id Tracker.listeners).getD []
  { h with bus := h.bus.remove ids }.adjust id fun t => { t with listeners := [] }

/-! ### Handles -/

/-- Opens a tracker of frontmatter. -/
def openNote (h : Host) (path : String) : Nat × Host :=
  let n := h.notes.length
  let t := (({ path } : Tracker Object).resolve h.vault).loadNote h.vault
  (n, { h with notes := h.notes ++ [t] }.listen (.note n))

/-- Opens a tracker of text. It is read at once. -/
def openText (h : Host) (path : String) : Nat × Host :=
  let n := h.texts.length
  let t := (({ path } : Tracker String).resolve h.vault).loadText h.read 0
  (n, { h with texts := h.texts ++ [t] }.listen (.text n))

/-- One more user holds the tracker. -/
def share (h : Host) (id : TrackerId) : Host :=
  h.adjust id fun t => { t with handles := t.handles + 1 }

def isLive (h : Host) (id : TrackerId) : Bool := (h.ask id Tracker.isLive).getD false

/-- One user lets go of the tracker. The last one stops it from listening. -/
def drop (h : Host) (id : TrackerId) : Host :=
  let h := h.adjust id fun t => { t with handles := t.handles - 1 }
  if h.isLive id then h else h.unlisten id

/-! ### Loading and writing through trackers -/

/-- Loads the data anew, at once. -/
def refresh (h : Host) (id : TrackerId) : Host :=
  match id with
  | .note n => { h with notes := h.notes.modify n (·.loadNote h.vault) }
  | .text n => { h with texts := h.texts.modify n fun t => t.loadText h.read t.epoch }

/-- Why the file of a tracker may not be written. -/
def refusal? (h : Host) (id : TrackerId) : Option FileFault :=
  (h.ask id fun t => if t.state.isOpen then none else some (t.state.refusal t.path)).join

def path (h : Host) (id : TrackerId) : String := (h.ask id Tracker.path).getD ""

/-- Takes note of the outcome of a write that the vault was asked for. The event of
the write comes first, then what the tracker keeps of it. -/
def settle (h : Host) (id : TrackerId) (keep : Host → Host)
    (outcome : Except VaultFault (Event × Vault)) : Except FileFault Unit × Host :=
  match outcome with
  | .error _ => (.error (.unmodified (h.path id)), h.adjust id Tracker.writeFailed)
  | .ok change => (.ok (), (keep (h.changed change)).adjust id Tracker.writeSucceeded)

/-- Replaces the frontmatter of the tracked note. The tracker hears of it by the event. -/
def modifyNote (h : Host) (n : Nat) (f : Object → Object) : Except FileFault Unit × Host :=
  match h.refusal? (.note n) with
  | some fault => (.error fault, h)
  | none => h.settle (.note n) id (h.vault.process (h.path (.note n)) f)

/-- Keeps a written text and drops the reads that are under way. -/
def keepText (n : Nat) (text : String) (h : Host) : Host :=
  { h with texts := h.texts.modify n fun t => t.invalidate.setData (some text) }

/-- Replaces the text of the tracked file. -/
def writeText (h : Host) (n : Nat) (text : String) : Except FileFault Unit × Host :=
  match h.refusal? (.text n) with
  | some fault => (.error fault, h)
  | none => h.settle (.text n) (keepText n text) (h.vault.write (h.path (.text n)) text)

/-! ### Changes from outside -/

def insert (h : Host) (path text : String) : Host := h.changed (h.vault.insert path text)

def createFolder (h : Host) (path : String) : Host := h.changed (h.vault.createFolder path)

/-- Tells whether there was something to remove. -/
def delete (h : Host) (path : String) : Bool × Host :=
  match h.vault.delete path with
  | none => (false, h)
  | some change => (true, h.changed change)

/-- Tells whether there was a file to move. -/
def rename (h : Host) (source target : String) : Bool × Host :=
  match h.vault.rename source target with
  | none => (false, h)
  | some change => (true, h.changed change)

def write (h : Host) (path text : String) : Except VaultFault Unit × Host :=
  match h.vault.write path text with
  | .error fault => (.error fault, h)
  | .ok change => (.ok (), h.changed change)

def process (h : Host) (path : String) (f : Object → Object) : Except VaultFault Unit × Host :=
  match h.vault.process path f with
  | .error fault => (.error fault, h)
  | .ok change => (.ok (), h.changed change)

def setFailWrites (h : Host) (fail : Bool) : Host :=
  { h with vault := { h.vault with failWrites := fail } }

end Host

end NoteForms
