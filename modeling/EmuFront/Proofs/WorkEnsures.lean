import EmuFront.Machine.Basic
import EmuFront.Proofs.Places

/-!
# What work ensures

Work on a machine always ends with a result. `Ensures` states what is true of the result and of the
machine then, and the lemmas take it apart along the steps of the work.
-/

namespace EmuFront.Work

open Storage

variable {α β : Type} {m : Machine}

/-- What is true of the result of work on a machine, and of the machine afterwards. -/
def Ensures (part : Work α) (m : Machine) (done : α → Machine → Prop) : Prop :=
  done (part m).1 (part m).2

/-! ## Putting work together -/

section Rules
variable {done : α → Machine → Prop}

theorem ensures_pure {a : α} : (pure a : Work α).Ensures m done ↔ done a m := Iff.rfl

theorem Ensures.mono {part : Work α} {done' : α → Machine → Prop} (h : part.Ensures m done)
    (weaker : ∀ a v, done a v → done' a v) : part.Ensures m done' := weaker _ _ h

theorem Ensures.bind {part : Work β} {next : β → Work α} {mid : β → Machine → Prop}
    (first : part.Ensures m mid) (rest : ∀ b v, mid b v → (next b).Ensures v done) :
    (part >>= next).Ensures m done := rest _ _ first

theorem Ensures.and {part : Work α} {done' : α → Machine → Prop} (h : part.Ensures m done)
    (h' : part.Ensures m done') : part.Ensures m fun a v => done a v ∧ done' a v := ⟨h, h'⟩

theorem ensures_askTree_bind {question : Tree → β} {next : β → Work α} :
    (askTree question >>= next).Ensures m done ↔ (next (question m.disk.tree)).Ensures m done :=
  Iff.rfl

end Rules

/-! ## Events -/

theorem ensures_observe (e : Event) :
    (observe e).Ensures m fun _ v => v = { m with timeline := m.timeline ++ [e] } := rfl

/-- A log line leaves the disk alone. -/
theorem ensures_log (level : LogLevel) (message : String) :
    (log level message).Ensures m fun _ v => v.disk = m.disk := rfl

/-! ## Files -/

/-- A file is removed if there is one. -/
theorem ensures_removeFile (path : Path) :
    (removeFile path).Ensures m fun removed v =>
      removed.isOk = m.disk.tree.isFile path ∧ v.disk.tree = m.disk.tree.without path := by
  show (m.disk.remove path).1.isOk = _ ∧ (m.disk.remove path).2.tree = _
  rw [← Tree.isOk_remove]
  unfold Disk.remove Tree.without
  cases m.disk.tree.remove path with
  | ok tree => exact ⟨rfl, rfl⟩
  | error e => exact ⟨rfl, rfl⟩

end EmuFront.Work
