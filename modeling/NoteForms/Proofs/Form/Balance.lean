import NoteForms.Proofs.Form.Site
import NoteForms.Proofs.Form.Wakes

/-! The balance of trackers with their holders. Whatever was handed out for a path, is held and
was not released is the tracker that is entered under the path, so there is one of each flavour
at most. Requests, handles that are shared and dropped, and releases keep the balance. -/

namespace NoteForms

variable {h h' : Host} {r r' : Roster} {es : List (String × TrackerId)} {id : TrackerId}

/-- The trackers are held by the holders, and of those that were handed out for a path, each
that is held and was not released is still the one that is entered under the path. -/
structure Balanced (h : Host) (r : Roster) (holders : List TrackerId)
    (enrolled : List (String × TrackerId)) (released : List TrackerId) : Prop where
  held : h.HeldBy holders
  distinct : r.Distinct
  sited : r.Sited h
  at' : ∀ {path id}, (path, id) ∈ enrolled → h.At id path
  known : ∀ {id}, id ∈ released → h.Knows id
  entered : ∀ {path id}, (path, id) ∈ enrolled → id ∈ holders → id ∉ released →
    r.entered? id.flavour path = some id
  fresh : ∀ {k path id}, r.entered? k path = some id → id ∉ released

namespace Balanced

variable {holders released : List TrackerId} {enrolled : List (String × TrackerId)}

theorem empty : Balanced {} {} [] [] [] where
  held := Host.heldBy_empty
  distinct := ⟨.nil, .nil⟩
  sited := ⟨nofun, nofun⟩
  at' := nofun
  known := nofun
  entered := nofun
  fresh _ := nofun

/-- Nothing changes for the roster. -/
theorem congr {holders' : List TrackerId} (hb : Balanced h r holders enrolled released)
    (hh : h'.HeldBy holders') (ha : h.Advances h') (hsub : ∀ id ∈ holders', id ∈ holders) :
    Balanced h' r holders' enrolled released where
  held := hh
  distinct := hb.distinct
  sited := hb.sited.advances ha
  at' he := (hb.at' he).advances ha
  known hid := ha.knows (hb.known hid)
  entered he hid hnot := hb.entered he (hsub _ hid) hnot
  fresh := hb.fresh

theorem perm {holders' : List TrackerId} (hb : Balanced h r holders enrolled released)
    (hp : holders.Perm holders') : Balanced h r holders' enrolled released :=
  hb.congr (hb.held.perm hp) .rfl fun _ => hp.mem_iff.mpr

theorem share (hb : Balanced h r holders enrolled released) (hid : id ∈ holders) :
    Balanced (h.share id) r (id :: holders) enrolled released :=
  hb.congr (hb.held.share hid) (Host.share_advances h id) fun id' hm => by
    rcases List.mem_cons.mp hm with rfl | hm <;> assumption

theorem drop (hb : Balanced h r (id :: holders) enrolled released) :
    Balanced (h.drop id) r holders enrolled released := by
  have hh := hb.held.drop (List.mem_cons_self (a := id) (l := holders))
  rw [List.erase_cons_head] at hh
  exact hb.congr hh (Host.drop_advances h id) fun _ => List.mem_cons_of_mem _

theorem drops {ids : List TrackerId} (hb : Balanced h r (ids ++ holders) enrolled released) :
    Balanced (ids.foldr (fun id h => h.drop id) h) r holders enrolled released := by
  induction ids generalizing holders with
  | nil => exact hb
  | cons id ids ih => exact (ih (hb.perm List.perm_middle.symm)).drop

/-- A tracker that was not there is opened. -/
theorem openAs (hb : Balanced h r holders enrolled released) (k : Flavour) (path : String) :
    Balanced (h.openAs k path).2 r ((h.openAs k path).1 :: holders) enrolled released := by
  have ha := h.openAs_advances k path
  have hh : (h.openAs k path).2.HeldBy ((h.openAs k path).1 :: holders) := by
    cases k with
    | note => exact hb.held.openNote path
    | text => exact hb.held.openText path
  refine ⟨hh, hb.distinct, hb.sited.advances ha, fun he => (hb.at' he).advances ha,
    fun hid => ha.knows (hb.known hid), fun he hid hnot => ?_, hb.fresh⟩
  have hnew := (h.openAs_new k path).1
  refine hb.entered he ((List.mem_cons.mp hid).resolve_left fun heq => hnew ?_) hnot
  exact heq ▸ (hb.at' he).knows

/-- What is handed out is entered, and was not released. -/
theorem request (hb : Balanced h r holders enrolled released) (k : Flavour) (path : String) :
    Balanced (r.request h k path).2.1 (r.request h k path).2.2
        ((r.request h k path).1 :: holders) ((path, (r.request h k path).1) :: enrolled) released ∧
      (r.request h k path).1 ∉ released := by
  rw [Roster.request_eq]
  cases hh : r.held? h k path with
  | some id =>
    obtain ⟨he, hlive⟩ := Option.filter_eq_some_iff.mp hh
    have hs := hb.share (hb.held.isLive_iff.mp hlive)
    have hk := Roster.entered?_flavour he
    refine ⟨⟨hs.held, hs.distinct, hs.sited, fun hm => ?_, hs.known, fun hm hid hnot => ?_,
      hs.fresh⟩, hb.fresh he⟩
    · rcases List.mem_cons.mp hm with heq | hm
      · obtain ⟨rfl, rfl⟩ := Prod.mk.inj heq
        exact (hb.sited.at' he).advances (Host.share_advances h _)
      · exact hs.at' hm
    · rcases List.mem_cons.mp hm with heq | hm
      · obtain ⟨rfl, rfl⟩ := Prod.mk.inj heq
        rw [hk]
        exact he
      · exact hs.entered hm hid hnot
  | none =>
    have ho := hb.openAs k path
    obtain ⟨hnew, hk⟩ := h.openAs_new k path
    have hat := h.openAs_at k path
    have hgone : (h.openAs k path).1 ∉ released := fun hid => hnew (hb.known hid)
    refine ⟨⟨ho.held, ho.distinct.enter path _, ho.sited.enter hat, fun hm => ?_, ho.known,
      fun hm hid hnot => ?_, fun he => ?_⟩, hgone⟩
    · rcases List.mem_cons.mp hm with heq | hm
      · obtain ⟨rfl, rfl⟩ := Prod.mk.inj heq
        exact hat
      · exact ho.at' hm
    · rw [Roster.entered?_enter]
      rcases List.mem_cons.mp hm with heq | hm
      · obtain ⟨rfl, rfl⟩ := Prod.mk.inj heq
        exact if_pos ⟨rfl, rfl⟩
      · have he := ho.entered hm hid hnot
        split
        · next hsame =>
          -- the one that was entered would have been handed out
          have hne := (List.mem_cons.mp hid).resolve_left fun heq =>
            hnew (heq ▸ (hb.at' hm).knows)
          rw [hsame.1, hk, hsame.2] at he
          rw [Roster.held?, he, Option.filter_some, if_pos (hb.held.isLive_iff.mpr hne)] at hh
          contradiction
        · exact he
    · rw [Roster.entered?_enter] at he
      split at he
      · exact Option.some.inj he ▸ hgone
      · exact hb.fresh he

theorem enrols (hb : Balanced h r holders enrolled released) (he : Enrols h r es h' r') :
    Balanced h' r' (es.map Prod.snd ++ holders) (es ++ enrolled) released ∧
      ∀ e ∈ es, e.2 ∉ released := by
  induction he with
  | none => exact ⟨hb, nofun⟩
  | request _ k path ih =>
    obtain ⟨hb', hfresh⟩ := ih.1.request k path
    refine ⟨hb', fun e hm => ?_⟩
    rcases List.mem_cons.mp hm with rfl | hm
    · exact hfresh
    · exact ih.2 e hm

/-- Who holds a tracker keeps it when its path is released; it is not entered any more. -/
theorem release (hb : Balanced h r holders enrolled released) (path : String) :
    Balanced (r.release h path).2.1 (r.release h path).2.2 holders enrolled
      (r.releasing h path ++ released) := by
  have hs := hb.sited.release path
  have ha := Roster.release_advances h r path
  rw [Roster.release_eq] at hs ha ⊢
  have hat : ∀ {id}, id ∈ r.releasing h path → h.At id path := fun hid =>
    hb.sited.at' (Option.filter_eq_some_iff.mp (Roster.mem_releasing.mp hid)).1
  have hheld : ((r.releasing h path).foldl Host.unlisten h).HeldBy holders :=
    List.foldlRecOn (r.releasing h path) _ (motive := fun (h : Host) => h.HeldBy holders) hb.held
      fun _ hh id _ => hh.unlisten id
  have hother : ∀ {p k id}, (r.forget path).entered? k p = some id →
      p ≠ path ∧ r.entered? k p = some id := fun {p k id} he => by
    have hp : p ≠ path := fun heq => by
      rw [heq, hb.distinct.entered?_forget] at he
      contradiction
    exact ⟨hp, by rwa [Roster.entered?_forget_of_ne hp] at he⟩
  refine ⟨hheld, hb.distinct.forget path, hs, fun he => (hb.at' he).advances ha,
    fun hid => ha.knows ?_, fun {p id} he hid hnot => ?_, fun {k p id} he hid => ?_⟩
  · rcases List.mem_append.mp hid with hid | hid
    · exact (hat hid).knows
    · exact hb.known hid
  · have hmem := hb.entered he hid fun hm => hnot (List.mem_append_right _ hm)
    have hp : p ≠ path := fun heq => hnot (List.mem_append_left _ (Roster.mem_releasing.mpr (by
      rw [Roster.held?, ← heq, hmem, Option.filter_some, if_pos (hb.held.isLive_iff.mpr hid)])))
    rwa [Roster.entered?_forget_of_ne hp]
  · obtain ⟨hp, he⟩ := hother he
    rcases List.mem_append.mp hid with hid | hid
    · exact hp ((hb.sited.at' he).path_eq.symm.trans (hat hid).path_eq)
    · exact hb.fresh he hid

end Balanced

end NoteForms
