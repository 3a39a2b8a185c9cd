import EmuFront.Crash.Reporter
import EmuFront.Proofs.Scanning
import EmuFront.Proofs.WorkEnsures

/-!
# Deleting artifacts

Artifacts are deleted one after the other, each dump with its processed form. No deletion takes away
the file of an artifact that comes later, so that each of those that a scan found goes, and counts.
-/

namespace EmuFront

open Storage Storage.Tree

namespace CrashArtifact

variable {t : Tree} {dataDir : Path}

/-- The files that go with an artifact. -/
def removals (a : CrashArtifact) : List Path :=
  match a.origin with
  | .managed => [a.path]
  | .native => [a.path, processedPath a.path]

theorem path_mem_removals (a : CrashArtifact) : a.path ∈ a.removals := by
  unfold removals
  split <;> exact List.mem_cons_self

/-! ## Artifacts in each other's way -/

/-- Deleting the first artifact leaves the file of the second. -/
def Spares (t : Tree) (a b : CrashArtifact) : Prop :=
  ∀ p ∈ a.removals, ∀ loc, t.walk p = .ok loc → t.walk b.path ≠ .ok loc

theorem spares_managed {a b : CrashArtifact} {loc dir : Location} {name : Name}
    (managed : ManagedAt t dataDir a loc) (dump : DumpAt t dataDir b dir name) : Spares t a b := by
  intro p member l led led'
  obtain ⟨contents, place, -⟩ := dump.file
  rw [removals, managed.origin, List.mem_singleton] at member
  rw [member, managed.path] at led
  obtain ⟨front, rfl⟩ := exists_of_walk_join isText_managedName led
  obtain ⟨-, rfl⟩ : front = dir ∧ managedName = name := by
    simpa using Except.ok.inj (led'.symm.trans place)
  exact absurd dump.named (by decide)

theorem spares_dump {a b : CrashArtifact} {dir dir' : Location} {name name' : Name}
    (first : DumpAt t dataDir a dir name) (second : DumpAt t dataDir b dir' name')
    (other : name ≠ name') : Spares t a b := by
  intro p member l led led'
  obtain ⟨contents, place, -⟩ := second.file
  obtain rfl := Except.ok.inj (led'.symm.trans place)
  rw [removals, first.origin, List.mem_cons, List.mem_singleton] at member
  rcases member with rfl | rfl
  · obtain ⟨contents', place', -⟩ := first.file
    obtain ⟨-, same⟩ : dir' = dir ∧ name' = name := by
      simpa using Except.ok.inj (led.symm.trans place')
    exact other same.symm
  · -- a processed form is no dump
    have beside := Except.ok.inj (led.symm.trans first.walk_processedPath)
    obtain ⟨-, rfl⟩ : dir' = dir ∧ name' = processedForm name first.isText first.named := by
      simpa using beside
    exact absurd second.named (by simp [processedName_not_dump first.named])

/-- No artifact that a scan found is in the way of a later one. -/
theorem pairwise_spares (t : Tree) (dataDir : Path) :
    (allIn t dataDir).Pairwise (Spares t) := by
  rw [allIn, List.pairwise_append]
  refine ⟨?_, ?_, ?_⟩
  · rw [managed?_eq]
    split
    · exact List.pairwise_singleton _ _
    · exact .nil
  · obtain ⟨names, listed, ascending, mem_iff⟩ := exists_dumps t dataDir
    rw [listed, List.pairwise_map]
    refine ascending.imp_of_mem fun {name name'} member member' before => ?_
    obtain ⟨dir, listable, holds, isText, named⟩ := (mem_iff name).1 member
    obtain ⟨dir', listable', holds', isText', named'⟩ := (mem_iff name').1 member'
    refine spares_dump (dumpAt_of_holdsFile listable holds isText named)
      (dumpAt_of_holdsFile listable' holds' isText' named') ?_
    rintro rfl
    exact String.lt_irrefl _ before
  · intro a managed b dump
    obtain ⟨loc, managed⟩ := mem_managed?_iff.1 managed
    obtain ⟨dir, name, dump⟩ := mem_dumps_iff.1 dump
    exact spares_managed managed dump

theorem Spares.isFile_withoutAll {a b : CrashArtifact} (spares : Spares t a b) :
    (t.withoutAll a.removals).isFile b.path = t.isFile b.path := by
  have sameDirs := t.sameDirectories_withoutAll a.removals
  rw [Bool.eq_iff_iff, isFile_iff, isFile_iff]
  unfold FileAt
  simp only [← sameDirs.walk_iff]
  refine exists_congr fun loc => exists_congr fun contents => and_congr_right fun led => ?_
  rw [node?_withoutAll_of_ne fun p member place => spares p member loc place led]

theorem Spares.of_sameDirectories {t' : Tree} {a b : CrashArtifact} (spares : Spares t a b)
    (same : SameDirectories t t') : Spares t' a b := by
  intro p member loc led
  rw [Ne, ← same.walk_iff]
  exact spares p member loc (same.symm.walk_of_ok led)

end CrashArtifact

namespace CrashReporter

open CrashArtifact Work

variable {m : Machine}

/-! ## One artifact -/

theorem ensures_deleteOne (a : CrashArtifact) :
    (deleteOne a).Ensures m fun gone v =>
      gone = m.disk.tree.isFile a.path ∧ v.disk.tree = m.disk.tree.withoutAll a.removals := by
  unfold deleteOne
  refine (ensures_removeFile a.path).bind fun removed m₁ ⟨gone, tree₁⟩ => ?_
  -- the processed form is looked after alike whether or not the artifact could be removed
  have tail {m₂ : Machine} (tree₂ : m₂.disk.tree = m.disk.tree.without a.path) :
      (do
        if a.origin = .native then
          let processed := processedPath a.path
          if ← askTree fun t => t.isFile processed then
            let _ ← removeFile processed
        return removed.isOk : Work Bool).Ensures m₂ fun gone v =>
          gone = m.disk.tree.isFile a.path ∧
            v.disk.tree = m.disk.tree.withoutAll a.removals := by
    rw [← gone]
    cases origin : a.origin with
    | managed =>
      have only : a.removals = [a.path] := by rw [removals, origin]
      rw [if_neg (by decide), only, withoutAll_cons, withoutAll_nil]
      exact ⟨rfl, tree₂⟩
    | native =>
      have both : a.removals = [a.path, processedPath a.path] := by rw [removals, origin]
      rw [if_pos rfl, both, withoutAll_cons, withoutAll_cons, withoutAll_nil, ← tree₂]
      refine ensures_askTree_bind.2 ?_
      split
      · exact (ensures_removeFile _).bind fun _ v ⟨_, tree⟩ => ⟨rfl, tree⟩
      · rename_i nothing
        obtain ⟨loc, contents, stands, -⟩ | ⟨-, kept⟩ :=
          m₂.disk.tree.without_cases (processedPath a.path)
        · exact absurd (isFile_iff.2 ⟨loc, contents, stands⟩) nothing
        · exact ⟨rfl, kept.symm⟩
  cases removed with
  | ok _ => exact tail tree₁
  | error e => exact (ensures_log _ _).bind fun _ m₂ disk => tail (disk ▸ tree₁)

/-! ## All of them -/

/-- Deleting artifacts attempts to remove all their files. -/
theorem ensures_delete (as : List CrashArtifact) :
    (delete as).Ensures m fun gone v =>
      v.disk.tree = m.disk.tree.withoutAll (as.flatMap removals) ∧
        ((∀ a ∈ as, m.disk.tree.isFile a.path = true) → as.Pairwise (Spares m.disk.tree) →
          gone = as.length) := by
  induction as generalizing m with
  | nil => exact ⟨rfl, fun _ _ => rfl⟩
  | cons a rest ih =>
    refine (ensures_deleteOne a).bind fun gone m₁ ⟨went, tree₁⟩ => ?_
    refine (ih (m := m₁)).bind fun more v ⟨tree, counted⟩ => ensures_pure.2 ⟨?_, ?_⟩
    · rw [tree, tree₁, List.flatMap_cons, withoutAll_append]
    · intro files apart
      obtain ⟨file, files⟩ := List.forall_mem_cons.1 files
      obtain ⟨spared, apart⟩ := List.pairwise_cons.1 apart
      have sameDirs := m.disk.tree.sameDirectories_withoutAll a.removals
      rw [counted, went, file, if_pos rfl, List.length_cons, Nat.add_comm]
      · intro b member
        rw [tree₁, (spared b member).isFile_withoutAll]
        exact files b member
      · rw [tree₁]
        exact apart.imp fun spares => spares.of_sameDirectories sameDirs

/-- Of the artifacts that a scan found, all go. -/
theorem ensures_delete_allIn {dataDir : Path} :
    (delete (allIn m.disk.tree dataDir)).Ensures m fun gone v =>
      gone = (allIn m.disk.tree dataDir).length ∧
        v.disk.tree = m.disk.tree.withoutAll ((allIn m.disk.tree dataDir).flatMap removals) :=
  (ensures_delete _).mono fun _ _ ⟨tree, counted⟩ =>
    ⟨counted (fun _ => isFile_of_mem_allIn) (pairwise_spares _ _), tree⟩

end CrashReporter
end EmuFront
