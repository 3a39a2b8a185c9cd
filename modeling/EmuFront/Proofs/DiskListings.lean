import EmuFront.Proofs.Listing
import EmuFront.Proofs.OverlayRuns

/-!
# What disk image pickers list

The disk images of a directory are its plain files that are named like one, each listed once and in
ascending order, however the directory is read. A picker lists those that stood in a directory when it
was made, for as long as it is showing.
-/

namespace EmuFront

open Storage

/-! ## The disk images of a directory -/

namespace Storage.Tree

variable {t t' : Tree} {directory : Path}

/-- What is to be listed of a directory that can be read: the plain files in it that have the name of
a disk image, each once, in ascending order. -/
structure ListsDisks (t : Tree) (directory : Path) (images : List Path) (names : List Name) :
    Prop where
  whole : images = names.map fun name => directory.join name.text
  ascending : names.Pairwise fun a b => a.text < b.text
  mem_iff : ∀ name, name ∈ names ↔ ∃ dir, t.ListableAt directory dir ∧ t.HoldsFile dir name ∧
    name.isText = true ∧ DiskImage.isName name.text = true

theorem exists_listsDisks (t : Tree) (directory : Path) :
    ∃ names, t.ListsDisks directory (t.diskImages directory) names := by
  obtain ⟨names, found, ascending, mem_iff⟩ := t.exists_filesIn directory DiskImage.isName
  exact ⟨names, found, ascending, mem_iff⟩

/-- The same disk images are found in whatever order a directory is read. -/
theorem SameEntries.diskImages_eq (same : t.SameEntries t') (directory : Path) :
    t.diskImages directory = t'.diskImages directory := by
  rw [diskImages, diskImages, same.filesIn_eq]

end Storage.Tree

/-! ## Pickers that are put on -/

/-- An overlay that is a picker lists the disk images of a directory as they were in some tree. -/
def Overlay.ListsDisks (o : Overlay) : Prop :=
  ∀ images, o.images? = some images → ∃ (t : Tree) (directory : Path), images = t.diskImages directory

/-- Every picker that is put on in a history lists disk images. -/
def PickersList (history : List Event) : Prop := ∀ o ∈ acceptedOf history, o.ListsDisks

section Histories
variable {first rest history : List Event}

theorem acceptedOf_append : acceptedOf (first ++ rest) = acceptedOf first ++ acceptedOf rest := by
  rw [acceptedOf, changesOf_append, List.filterMap_append]
  rfl

theorem mem_acceptedOf {o : Overlay} : o ∈ acceptedOf history ↔ .pushed o ∈ changesOf history := by
  rw [acceptedOf, List.mem_filterMap]
  constructor
  · rintro ⟨c, member, put⟩
    cases c with
    | pushed p =>
      obtain rfl := Option.some.inj put
      exact member
    | _ => cases put
  · exact fun member => ⟨_, member, rfl⟩

theorem PickersList.append (before : PickersList first) (after : PickersList rest) :
    PickersList (first ++ rest) := by
  rw [PickersList, acceptedOf_append]
  exact List.forall_mem_append.2 ⟨before, after⟩

theorem pickersList_of_apart (apart : ∀ e ∈ history, e.isApart = true) : PickersList history := by
  rw [PickersList, acceptedOf, changesOf_eq_nil apart]
  exact List.forall_mem_nil _

theorem PickersList.nil : PickersList [] := List.forall_mem_nil _

/-- A change that puts nothing on. -/
theorem pickersList_committed {e : EngineRef} {c : Change} (other : c.putOn? = none) :
    PickersList [.committed e c] := by
  have none : acceptedOf [.committed e c] = [] := by
    show [c].filterMap Change.putOn? = []
    simp [other]
  rw [PickersList, none]
  exact List.forall_mem_nil _

end Histories

/-- Whatever passes, the pickers that are put on list disk images. -/
theorem Passage.pickersList {allows : Op → Prop} {broken : Bool} {w v : World}
    (passage : Passage allows broken w v) : w.machine.Adds PickersList v.machine := by
  have taken : ∀ (w : World) (o : Overlay),
      w.machine.Adds PickersList (w.commit (.removed o.detach)).machine := fun w o =>
    ⟨_, rfl, pickersList_committed rfl⟩
  induction passage with
  | plain plain =>
    obtain ⟨added, timeline, events⟩ := plain.machine.events
    exact ⟨added, timeline, pickersList_of_apart fun e member => isApart_of_isPlain (events e member)⟩
  | trans _ _ first rest => exact first.trans .append rest
  | install | panic => exact .refl .nil _
  | passOn installed =>
    rw [World.after, Work.run_passOn]
    exact ⟨_, rfl, pickersList_of_apart
      (List.forall_mem_cons.2 ⟨rfl, fun e => isApart_of_mem_crossing⟩)⟩
  | tell genuine =>
    rw [World.told_eq]
    exact ⟨_, rfl, pickersList_of_apart
      (List.forall_mem_cons.2 ⟨rfl, fun e => isApart_of_mem_crossing⟩)⟩
  | @change w c apart =>
    have other : c.putOn? = none := by
      cases c with
      | pushed => cases apart
      | _ => rfl
    exact ⟨_, rfl, pickersList_committed other⟩
  | @put w content absent listed =>
    refine ⟨_, rfl, List.forall_mem_singleton.2 fun images shown => ?_⟩
    have picker : content = .disksMenu images := by
      cases content <;> cases shown
      rfl
    obtain ⟨directory, same⟩ := listed images picker
    exact ⟨_, directory, same⟩
  | refuse => exact ⟨_, rfl, .nil⟩
  | @remove w v o _ _ within =>
    have back : v.machine.Adds PickersList
        (v.after (Work.observe (.returned v.front.engine o.detach))).machine := ⟨_, rfl, .nil⟩
    exact (taken w o).trans .append (within.trans .append back)
  | @lose w v o _ _ _ within => exact (taken w o).trans .append within

/-! ## Pickers that are showing -/

/-- Whatever changes, a picker keeps its images. -/
theorem OverlayContent.images?_after (content : OverlayContent) (changes : List Change) (id : Nat)
    (bounds : Option SurfaceSize) :
    (⟨id, content.after changes, bounds⟩ : Overlay).images? =
      (⟨id, content, bounds⟩ : Overlay).images? := by
  induction changes generalizing content with
  | nil => rfl
  | cons c rest ih =>
    have step : (⟨id, content.apply c, bounds⟩ : Overlay).images? =
        (⟨id, content, bounds⟩ : Overlay).images? := by
      cases content <;> cases c <;> rfl
    exact (ih (content.apply c)).trans step

theorem Overlay.images?_congr {o p : Overlay} (same : o.content = p.content) :
    o.images? = p.images? := by
  rw [images?, images?, same]

theorem Overlay.StemsFrom.exists_pushed {o : Overlay} {changes : List Change}
    (stems : o.StemsFrom changes) :
    ∃ p, .pushed p ∈ changes ∧ p.id = o.id ∧ p.images? = o.images? := by
  obtain ⟨before, p, after, rfl, id, -, content⟩ := stems
  refine ⟨p, List.mem_append_right _ List.mem_cons_self, id.symm, ?_⟩
  have kept := p.content.images?_after after p.id p.bounds
  exact kept.symm.trans (images?_congr content.symm)

namespace Run

variable {r : Run} {history : List Event} {s : SessionState}

theorem pickersList (r : Run) : PickersList r.timeline := by
  have passed : r.start.machine.Adds PickersList r.final.machine :=
    Op.runAll_passes (motive := fun w v => w.machine.Adds PickersList v.machine)
      (fun w => .refl .nil _) (fun first rest => first.trans .append rest)
      (fun passage => passage.pickersList) (fun _ _ => trivial) fun _ _ _ _ => trivial
  obtain ⟨added, timeline, listed⟩ := passed
  -- the run starts with nothing behind it
  have all : r.timeline = added := timeline
  rw [all]
  exact listed

namespace Reaches

/-- What led to a state is where the run began. -/
theorem isPrefix (h : r.Reaches history s) : history <+: r.trace := by
  cases h with
  | final => exact List.prefix_rfl
  | called split | begun split => exact ⟨_, split.symm⟩

theorem exists_changesOf (h : r.Reaches history s) :
    ∃ rest, changesOf r.timeline = changesOf history ++ changesOf rest := by
  obtain ⟨rest, whole⟩ := h.isPrefix
  refine ⟨rest, ?_⟩
  have trace : history ++ rest = r.timeline.filter Event.ofSession := whole
  rw [← changesOf_filter, ← trace, changesOf_append]

/-- Every overlay showing is one that was put on. -/
theorem stemsFrom (h : r.Reaches history s) {o : Overlay} (showing : o ∈ s.stack) :
    o.StemsFrom (changesOf history) := by
  obtain ⟨rest, whole⟩ := h.exists_changesOf
  have admitted := r.custody.recorded.admitted
  rw [whole, SessionState.admitsAll_append] at admitted
  rw [h.takesAll.2] at showing
  exact admitted.1.holds.showing o showing

theorem acceptedOf_prefix (h : r.Reaches history s) : acceptedOf history <+: acceptedOf r.timeline := by
  obtain ⟨rest, whole⟩ := h.exists_changesOf
  rw [acceptedOf, acceptedOf, whole, List.filterMap_append]
  exact List.prefix_append _ _

/-- Overlays that were put on under one number are one. -/
theorem pushed_inj (h : r.Reaches history s) {o p : Overlay} (put : .pushed o ∈ changesOf history)
    (put' : .pushed p ∈ changesOf history) (same : o.id = p.id) : o = p := by
  have once := (r.account r.timeline.length).accepted_once
  rw [List.take_length] at once
  have once' := once.sublist (h.acceptedOf_prefix.sublist.map Overlay.id)
  exact List.inj_on_of_nodup_map once' (mem_acceptedOf.2 put) (mem_acceptedOf.2 put') same

/-- A picker that is showing lists disk images, and those that it listed when it was put on. -/
theorem picker (h : r.Reaches history s) {menu : Overlay} (showing : menu ∈ s.stack) :
    menu.ListsDisks ∧ (∃ p, .pushed p ∈ changesOf history ∧ p.id = menu.id) ∧
      ∀ p, .pushed p ∈ changesOf history → p.id = menu.id → p.images? = menu.images? := by
  obtain ⟨put, member, id, images⟩ := (h.stemsFrom showing).exists_pushed
  refine ⟨?_, ⟨put, member, id⟩, fun p member' id' => ?_⟩
  · rw [Overlay.ListsDisks, ← images]
    exact r.pickersList put (h.acceptedOf_prefix.subset (mem_acceptedOf.2 member))
  · rw [h.pushed_inj member' member (id'.trans id.symm), images]

end Reaches
end Run
end EmuFront
