import NoteForms.Form.Plugin
import NoteForms.Proofs.Form.Balance

/-! Custody of trackers. Handles of trackers are opened, asked for, shared and dropped, forms are
mounted and unmounted, form blocks are processed, paths are released, and the vault changes in
between. Every move keeps the balance of trackers with their holders. -/

namespace NoteForms.Form

open Records Setup

/-! ### Forms -/

namespace Mounted

theorem sync_holds (f : Mounted) (h : Host) : (f.sync h).2.holds = f.holds := by
  simp only [sync, syncSchema]
  split <;> rfl

theorem submit_holds (f : Mounted) (h : Host) : (f.submit h).2.1.holds = f.holds := by
  obtain ⟨h', -, ⟨fault, he⟩ | he⟩ := f.submit_cases h <;> rw [he]
  · exact f.sync_holds h
  · exact ((f.sync h).2.sync_holds h').trans (f.sync_holds h)

theorem submit_sameWires (f : Mounted) (h : Host) : Host.SameWires h (f.submit h).2.2 := by
  rcases f.submit_host h with he | ⟨rs, he, -⟩ <;> rw [he]
  · exact .rfl
  · unfold Store.persist
    cases f.store.tracker with
    | note n => exact Host.act_sameWires h (a := .modifyNote n _) trivial
    | text n => exact Host.act_sameWires h (a := .writeText n _) trivial

end Mounted

/-! ### Worlds -/

namespace World

/-- The trackers that the forms of a world hold. -/
def holds (w : World) : List TrackerId := w.forms.flatMap fun f? => f?.elim [] Mounted.holds

/-- A step by which nobody takes hold of a tracker or lets go of it, starts or stops it. -/
def Step.KeepsWires : Step → Prop
  | .act (.host a) => a.KeepsWires
  | .act (.edit _ _) | .act (.sync _) | .act (.view _) | .act (.submit _) => True
  | .act (.mount _) | .act (.unmount _) | .act (.release _) | .act .releaseAll => False
  | .setFailReads _ | .setCanWait _ => True

variable {w : World}

theorem flatMap_set {α β : Type} {xs : List α} {n : Nat} {x : α} (hx : xs[n]? = some x)
    (g : α → List β) (y : α) : (g x ++ (xs.set n y).flatMap g).Perm (g y ++ xs.flatMap g) := by
  induction xs generalizing n with
  | nil => simp at hx
  | cons x' xs ih =>
    cases n with
    | zero =>
      obtain rfl : x' = x := Option.some.inj hx
      simp only [List.set_cons_zero, List.flatMap_cons]
      exact List.perm_append_comm_assoc _ _ _
    | succ n =>
      simp only [List.set_cons_succ, List.flatMap_cons]
      refine (List.perm_append_comm_assoc _ _ _).trans ?_
      exact ((ih hx).append_left _).trans (List.perm_append_comm_assoc _ _ _)

theorem getElem?_of_form? {n : Nat} {f : Mounted} (hf : w.form? n = some f) :
    w.forms[n]? = some (some f) := by
  rw [form?] at hf
  cases hn : w.forms[n]? with
  | none => simp [hn] at hf
  | some f? =>
    rw [hn] at hf
    exact congrArg some hf

/-- A form that lets go of all it holds leaves the rest as it is. -/
theorem holds_unmount {n : Nat} {f : Mounted} (hf : w.form? n = some f) (h : Host) :
    w.holds.Perm (f.holds ++ ({ w with host := h, forms := w.forms.set n none } : World).holds) :=
  (flatMap_set (getElem?_of_form? hf) (fun f? => f?.elim [] Mounted.holds) none).symm

theorem holds_setForm {n : Nat} {f f' : Mounted} (hf : w.form? n = some f)
    (hh : f'.holds = f.holds) (h : Host) :
    ({ w with host := h }.setForm n f').holds.Perm w.holds := by
  have hp := flatMap_set (getElem?_of_form? hf) (fun f? => f?.elim [] Mounted.holds) (some f')
  simp only [Option.elim_some, hh] at hp
  exact (List.perm_append_left_iff _).mp hp

/-- A plain step leaves the roster, the wires and the holders as they are. -/
theorem step_keepsWires {s : Step} (hs : s.KeepsWires) : Host.SameWires w.host (w.step s).host ∧
    (w.step s).roster = w.roster ∧ (w.step s).holds.Perm w.holds := by
  have hstays : Host.SameWires w.host w.host ∧ w.roster = w.roster ∧ w.holds.Perm w.holds :=
    ⟨.rfl, rfl, .rfl⟩
  cases s with
  | setFailReads | setCanWait => exact ⟨⟨rfl, fun _ => rfl⟩, rfl, .rfl⟩
  | act a =>
    cases a with
    | host a => exact ⟨Host.act_sameWires w.host hs, rfl, .rfl⟩
    | edit n a =>
      simp only [step, act]
      split
      · exact hstays
      · next f hf =>
        have hh : ({ (f.sync w.host).2 with editor := (f.sync w.host).2.editor.act a } :
            Mounted).holds = f.holds := f.sync_holds w.host
        exact ⟨.rfl, rfl, holds_setForm hf hh w.host⟩
    | sync n | view n =>
      simp only [step, act]
      split
      · exact hstays
      · next f hf => exact ⟨.rfl, rfl, holds_setForm hf (f.sync_holds w.host) w.host⟩
    | submit n =>
      simp only [step, act]
      split
      · exact hstays
      · next f hf =>
        exact ⟨f.submit_sameWires w.host, rfl, holds_setForm hf (f.submit_holds w.host) _⟩
    | mount | unmount | release | releaseAll => exact False.elim hs

end World

/-! ### Moves -/

/-- A world, and those who hold trackers of it. -/
structure Custody where
  world : World := {}
  /-- The handles, but for those of forms. -/
  handles : List TrackerId := []
  /-- What the roster ever handed out, with the path that it was asked for. -/
  enrolled : List (String × TrackerId) := []
  /-- What was ever released. -/
  released : List TrackerId := []

namespace Custody

inductive Move where
  /-- A tracker is opened without the roster. -/
  | openAs (k : Flavour) (path : String)
  /-- A tracker is asked of the roster. -/
  | request (k : Flavour) (path : String)
  | share (id : TrackerId)
  | drop (id : TrackerId)
  | listen (id : TrackerId)
  | unlisten (id : TrackerId)
  | mount (c : Configuration)
  | unmount (n : Nat)
  /-- A form block is processed, and its form mounted unless the block is rejected. -/
  | block (settings : Settings) (language body notePath : String)
  | release (path : String)
  | releaseAll
  | plain (s : World.Step) (hs : s.KeepsWires)

def holders (c : Custody) : List TrackerId := c.handles ++ c.world.holds

def release (c : Custody) (path : String) : Custody :=
  { c with
    world := c.world.act (.release path)
    released := c.world.roster.releasing c.world.host path ++ c.released }

def processed (c : Custody) (settings : Settings) (language body notePath : String) :
    Plugin.Processed :=
  Plugin.process ⟨settings, c.world.roster⟩ c.world.host language body notePath

/-- What a move asks of the roster, the last request first, and what is handed out for it. -/
def requested (c : Custody) : Move → List (String × TrackerId)
  | .request k path => [(path, (c.world.roster.request c.world.host k path).1)]
  | .mount cfg => (Mounted.mount cfg c.world.host c.world.roster).1.requests
  | .block settings language body notePath =>
    match (c.processed settings language body notePath).block with
    | .form f => f.requests
    | .failed _ => []
  | _ => []

/-- Nobody can use a handle that he does not have. -/
def move (c : Custody) (m : Move) : Custody :=
  match m with
  | .openAs k path =>
    let (id, host) := c.world.host.openAs k path
    { c with world := { c.world with host }, handles := id :: c.handles }
  | .request k path =>
    let (id, host, roster) := c.world.roster.request c.world.host k path
    { c with
      world := { c.world with host, roster }
      handles := id :: c.handles
      enrolled := c.requested m ++ c.enrolled }
  | .share id =>
    if id ∈ c.holders then
      { c with world := { c.world with host := c.world.host.share id }, handles := id :: c.handles }
    else c
  | .drop id =>
    if id ∈ c.handles then
      { c with
        world := { c.world with host := c.world.host.drop id }
        handles := c.handles.erase id }
    else c
  | .listen id =>
    if id ∈ c.holders then { c with world := { c.world with host := c.world.host.listen id } }
    else c
  | .unlisten id =>
    if id ∈ c.holders then { c with world := { c.world with host := c.world.host.unlisten id } }
    else c
  | .mount cfg =>
    { c with world := c.world.act (.mount cfg), enrolled := c.requested m ++ c.enrolled }
  | .unmount n => { c with world := c.world.act (.unmount n) }
  | .block settings language body notePath =>
    let p := c.processed settings language body notePath
    let forms := match p.block with
      | .form f => [some f]
      | .failed _ => []
    { c with
      world := ⟨p.host, p.plugin.roster, c.world.forms ++ forms⟩
      enrolled := c.requested m ++ c.enrolled }
  | .release path => c.release path
  | .releaseAll => (c.world.roster.paths c.world.host).foldl release c
  | .plain s _ => { c with world := c.world.step s }

def run (c : Custody) (ms : List Move) : Custody := ms.foldl move c

/-- To release all is to release path by path what the roster then has. -/
theorem world_releaseAll (c : Custody) : (c.move .releaseAll).world = c.world.act .releaseAll := by
  simp only [move, World.act, Roster.releaseAll]
  generalize c.world.roster.paths c.world.host = paths
  induction paths generalizing c with
  | nil => rfl
  | cons path paths ih => exact ih (c.release path)

variable {c c' : Custody} {m : Move} {es : List (String × TrackerId)}

/-! ### Requests -/

/-- A move by which trackers are asked of the roster. -/
def Move.Asks : Move → Prop
  | .request _ _ | .mount _ | .block _ _ _ _ => True
  | _ => False

theorem asks_of_requested {e : String × TrackerId} (he : e ∈ c.requested m) : m.Asks := by
  cases m with
  | request | mount | block => trivial
  | _ => contradiction

/-- Trackers were asked of the roster, and those who asked hold them. -/
structure Asked (c c' : Custody) (es : List (String × TrackerId)) : Prop where
  enrols : Enrols c.world.host c.world.roster es c'.world.host c'.world.roster
  holders : c'.holders.Perm (es.map Prod.snd ++ c.holders)
  enrolled : c'.enrolled = es ++ c.enrolled
  released : c'.released = c.released

theorem asked_mount (c : Custody) (cfg : Configuration) :
    Asked c (c.move (.mount cfg)) (c.requested (.mount cfg)) := by
  refine ⟨Mounted.mount_enrols cfg c.world.host c.world.roster, ?_, rfl, rfl⟩
  have hholds : (c.move (.mount cfg)).holders =
      c.handles ++ (c.world.holds ++ (c.requested (.mount cfg)).map Prod.snd) := by
    simp [holders, move, World.act, World.holds, requested, Mounted.holds]
  rw [hholds, ← List.append_assoc]
  exact List.perm_append_comm

/-- A block that is rejected changes nothing, and any other is a mount. -/
theorem move_block (c : Custody) (settings : Settings) (language body notePath : String) :
    (c.move (.block settings language body notePath) = c ∧
        c.requested (.block settings language body notePath) = []) ∨
      ∃ cfg, c.move (.block settings language body notePath) = c.move (.mount cfg) ∧
        c.requested (.block settings language body notePath) = c.requested (.mount cfg) := by
  simp only [move, requested, processed, Plugin.process]
  split
  · exact .inl ⟨by simp, rfl⟩
  · next cfg _ => exact .inr ⟨cfg, rfl, rfl⟩

theorem move_asked (c : Custody) (hm : m.Asks) : Asked c (c.move m) (c.requested m) := by
  cases m with
  | request k path =>
    exact ⟨.single c.world.host c.world.roster k path, .rfl, rfl, rfl⟩
  | mount cfg => exact asked_mount c cfg
  | block settings language body notePath =>
    rcases c.move_block settings language body notePath with ⟨he, hr⟩ | ⟨cfg, he, hr⟩ <;>
      rw [he, hr]
    · exact ⟨.none, .rfl, rfl, rfl⟩
    · exact asked_mount c cfg
  | _ => exact False.elim hm

/-! ### What a move keeps -/

/-- All trackers are held by the holders, and those that were handed out are in their places. -/
def Balanced (c : Custody) : Prop :=
  NoteForms.Balanced c.world.host c.world.roster c.holders c.enrolled c.released

theorem balanced_empty : ({} : Custody).Balanced := NoteForms.Balanced.empty

theorem Balanced.asked (hb : c.Balanced) (ha : Asked c c' es) : c'.Balanced := by
  have hb' := (NoteForms.Balanced.enrols hb ha.enrols).1.perm ha.holders.symm
  rwa [← ha.enrolled, ← ha.released] at hb'

theorem Balanced.release (hb : c.Balanced) (path : String) : (c.release path).Balanced :=
  NoteForms.Balanced.release hb path

/-- What a move releases is released path by path. -/
theorem releaseAll_rec {P : Custody → Prop} (h0 : P c)
    (hstep : ∀ c path, P c → P (c.release path)) : P (c.move .releaseAll) :=
  List.foldlRecOn (c.world.roster.paths c.world.host) release (motive := P) h0
    fun c hc path _ => hstep c path hc

theorem Balanced.unmount (hb : c.Balanced) (n : Nat) : (c.move (.unmount n)).Balanced := by
  simp only [move, World.act]
  split
  · exact hb
  · next f hf =>
    have hp : c.holders.Perm (f.holds ++ (c.handles ++
        ({ c.world with host := f.unmount c.world.host, forms := c.world.forms.set n none } :
          World).holds)) :=
      ((World.holds_unmount hf _).append_left _).trans (List.perm_append_comm_assoc _ _ _)
    have hd := (NoteForms.Balanced.perm hb hp).drops
    rwa [← f.unmount_eq] at hd

theorem Balanced.move (hb : c.Balanced) (m : Move) : (c.move m).Balanced := by
  cases m with
  | openAs k path => exact NoteForms.Balanced.openAs hb k path
  | request | mount | block => exact hb.asked (c.move_asked trivial)
  | share id =>
    simp only [Custody.move]
    split
    · next hid => exact NoteForms.Balanced.share hb hid
    · exact hb
  | drop id =>
    simp only [Custody.move]
    split
    · next hid =>
      have hp : c.holders.Perm (id :: (c.handles.erase id ++ c.world.holds)) :=
        (List.perm_cons_erase hid).append_right _
      exact (NoteForms.Balanced.perm hb hp).drop
    · exact hb
  | listen id =>
    simp only [Custody.move]
    split
    · next hid =>
      have hh := hb.held.listen hid
      exact NoteForms.Balanced.congr hb hh (Host.listen_advances _ id) fun _ h => h
    · exact hb
  | unlisten id =>
    simp only [Custody.move]
    split
    · have hh := hb.held.unlisten id
      exact NoteForms.Balanced.congr hb hh (Host.unlisten_advances _ id) fun _ h => h
    · exact hb
  | unmount n => exact hb.unmount n
  | release path => exact hb.release path
  | releaseAll => exact releaseAll_rec hb fun _ path hc => hc.release path
  | plain s hs =>
    obtain ⟨hwires, hroster, hholds⟩ := World.step_keepsWires (w := c.world) hs
    have hp := hholds.append_left c.handles
    have hb' := NoteForms.Balanced.congr hb ((hb.held.congr hwires).perm hp.symm)
      (World.step_advances c.world s) fun _ => hp.mem_iff.mp
    rwa [← hroster] at hb'

theorem Balanced.run (hb : c.Balanced) (ms : List Move) : (c.run ms).Balanced := by
  induction ms generalizing c with
  | nil => exact hb
  | cons m ms ih => exact ih (hb.move m)

end Custody

end NoteForms.Form
