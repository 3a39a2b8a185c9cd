import EmuFront.Crash.Retry
import EmuFront.Proofs.Attempts

/-!
# What repeated reading gives

A file that is tried several times is opened until an open succeeds, fails for good or was the last.
What each open gives is a schedule that the disk holds in store, and what reading leaves of it is
exactly what comes after the opens that were made. So a file that stands is read exactly if the faults
in store for it are all transient and fewer than the attempts.
-/

namespace EmuFront

open Storage

/-! ## Opens -/

/-- The file that an event opens, and what for. -/
def Event.opening? : Event → Option (Path × OpenMode)
  | .opened path mode => some (path, mode)
  | _ => none

/-- The opens that were made, in order. -/
def Machine.opens (m : Machine) : List (Path × OpenMode) := m.timeline.filterMap Event.opening?

namespace Work

variable {m : Machine}

/-- An event opens at most one path. -/
theorem opens_observe (e : Event) (m : Machine) :
    ((observe e) m).2.opens = m.opens ++ e.opening?.toList := by
  show (m.timeline ++ [e]).filterMap Event.opening? = _
  rw [List.filterMap_append, List.filterMap_cons, List.filterMap_nil, Machine.opens]
  cases e.opening? <;> rfl

/-- A log line opens nothing. -/
theorem ensures_log_unopened (level : LogLevel) (message : String) :
    (log level message).Ensures m fun _ v => v.disk = m.disk ∧ v.opens = m.opens :=
  ⟨rfl, (opens_observe _ m).trans (List.append_nil _)⟩

/-- A read opens its path once, and gives what the disk does. -/
theorem ensures_read (path : Path) :
    (read path).Ensures m fun result v => result = (m.disk.read path).1 ∧
      v.disk = (m.disk.read path).2 ∧ v.opens = m.opens ++ [(path, .reading)] :=
  ⟨rfl, rfl, opens_observe _ m⟩

end Work

/-! ## The schedule of a path -/

namespace Storage.Disk

variable {d : Disk} {path : Path}

/-- The disk after a path was read so many times. -/
def afterReads (d : Disk) (path : Path) : Nat → Disk
  | 0 => d
  | n + 1 => (d.read path).2.afterReads path n

/-- What reading a path gives after it was read so many times. -/
def readAfter (d : Disk) (path : Path) (before : Nat) : Except OsError Text.Bytes :=
  ((d.afterReads path before).read path).1

/-- So many times, reading a path first fails with an error that may pass. -/
def Interrupted (d : Disk) (path : Path) (count : Nat) : Prop :=
  ∀ k < count, ∃ e, d.readAfter path k = .error e ∧ e.isTransient = true

theorem interrupted_zero (d : Disk) (path : Path) : d.Interrupted path 0 :=
  fun k before => absurd before (Nat.not_lt_zero k)

/-- Reads are interrupted if the first is, and then those that are left. -/
theorem interrupted_succ {count : Nat} :
    d.Interrupted path (count + 1) ↔
      (∃ e, (d.read path).1 = .error e ∧ e.isTransient = true) ∧
        (d.read path).2.Interrupted path count := Nat.forall_lt_succ_left

/-- Reads in a row use up faults in a row. -/
theorem afterReads_add (d : Disk) (path : Path) (j k : Nat) :
    (d.afterReads path j).afterReads path k = d.afterReads path (j + k) := by
  induction j generalizing d with
  | zero => rw [Nat.zero_add, afterReads]
  | succ j ih => rw [afterReads, ih, Nat.succ_add, afterReads]

/-- A read uses up a fault and changes nothing else. -/
theorem read_snd (d : Disk) (path : Path) :
    (d.read path).2 = (d.openPath path .reading).2 := by
  unfold read
  rcases d.openPath path .reading with ⟨_ | e, d'⟩ <;> rfl

/-- Reading changes no file and uses up no faults but those of the path it reads. -/
theorem afterReads_spares (d : Disk) (path : Path) (n : Nat) :
    d.SameFiles (d.afterReads path n) ∧
      ∀ other mode, ¬ (other = path ∧ mode = .reading) →
        (d.afterReads path n).pending other mode = d.pending other mode := by
  induction n generalizing d with
  | zero => exact ⟨.refl d, fun _ _ _ => rfl⟩
  | succ n ih =>
    have first := d.sameFiles_openPath path .reading
    rw [← read_snd] at first
    obtain ⟨files, pending⟩ := ih (d.read path).2
    refine ⟨first.trans files, fun other mode apart => ?_⟩
    rw [afterReads, pending other mode apart, read_snd, pending_openPath_of_ne apart]

/-- What is interrupted so many times is so fewer times. -/
theorem Interrupted.mono {j k : Nat} (h : d.Interrupted path k) (le : j ≤ k) :
    d.Interrupted path j := fun i before => h i (Nat.lt_of_lt_of_le before le)

/-- The reads that are interrupted come to an end in one place at most. -/
theorem eq_of_interrupted {j k : Nat} (before : d.Interrupted path j)
    (ends : ¬ d.Interrupted path (j + 1)) (before' : d.Interrupted path k)
    (ends' : ¬ d.Interrupted path (k + 1)) : j = k := by
  obtain less | same | greater := Nat.lt_trichotomy j k
  · exact absurd (before'.mono less) ends
  · exact same
  · exact absurd (before.mono greater) ends'

/-- A read that succeeds ends the interruptions. -/
theorem not_interrupted_of_ok {k : Nat} {contents : Text.Bytes}
    (gave : d.readAfter path k = .ok contents) : ¬ d.Interrupted path (k + 1) := by
  intro interrupted
  obtain ⟨e, failed, -⟩ := interrupted k (Nat.lt_succ_self k)
  exact absurd (gave.symm.trans failed) nofun

/-- So does one that fails for good. -/
theorem not_interrupted_of_permanent {k : Nat} {e : OsError}
    (gave : d.readAfter path k = .error e) (permanent : ¬ e.isTransient = true) :
    ¬ d.Interrupted path (k + 1) := by
  intro interrupted
  obtain ⟨e', failed, transient⟩ := interrupted k (Nat.lt_succ_self k)
  obtain rfl := Except.error.inj (gave.symm.trans failed)
  exact permanent transient

/-! ## Trying several times -/

/-- How trying a path up to `left` times ends, after how many opens, and with what text. -/
inductive ReadEnds (d : Disk) (path : Path) (left : Nat) : (opens : Nat) → Option String → Prop
  | succeeded {k : Nat} {contents : Text.Bytes} (soon : k < left)
      (interrupted : d.Interrupted path k) (gave : d.readAfter path k = .ok contents) :
      ReadEnds d path left (k + 1) (some (Text.decode contents))
  | failed {k : Nat} {e : OsError} (soon : k < left) (interrupted : d.Interrupted path k)
      (gave : d.readAfter path k = .error e) (permanent : ¬ e.isTransient = true) :
      ReadEnds d path left (k + 1) none
  | exhausted (interrupted : d.Interrupted path left) : ReadEnds d path left left none

namespace ReadEnds

variable {left opens : Nat} {text : Option String}

/-- An interrupted read is one more, before what comes after it. -/
theorem again {e : OsError} (first : (d.read path).1 = .error e) (transient : e.isTransient = true)
    (ends : (d.read path).2.ReadEnds path left opens text) :
    d.ReadEnds path (left + 1) (opens + 1) text := by
  have more {k : Nat} (interrupted : (d.read path).2.Interrupted path k) :
      d.Interrupted path (k + 1) := interrupted_succ.2 ⟨⟨e, first, transient⟩, interrupted⟩
  cases ends with
  | succeeded soon interrupted gave =>
    exact .succeeded (Nat.succ_lt_succ soon) (more interrupted) gave
  | failed soon interrupted gave permanent =>
    exact .failed (Nat.succ_lt_succ soon) (more interrupted) gave permanent
  | exhausted interrupted => exact .exhausted (more interrupted)

/-- Reading ends at the first read that is not interrupted, or after all of them. -/
theorem opens_eq (ends : d.ReadEnds path left opens text) :
    (∃ k, opens = k + 1 ∧ d.Interrupted path k ∧ ¬ d.Interrupted path (k + 1)) ∨
      opens = left ∧ d.Interrupted path left := by
  cases ends with
  | succeeded soon interrupted gave =>
    exact .inl ⟨_, rfl, interrupted, not_interrupted_of_ok gave⟩
  | failed soon interrupted gave permanent =>
    exact .inl ⟨_, rfl, interrupted, not_interrupted_of_permanent gave permanent⟩
  | exhausted interrupted => exact .inr ⟨rfl, interrupted⟩

/-- Where the interruptions end decides how many opens there are. -/
theorem opens_of_interrupted (ends : d.ReadEnds path left opens text) {k : Nat} (soon : k < left)
    (before : d.Interrupted path k) (stops : ¬ d.Interrupted path (k + 1)) : opens = k + 1 := by
  obtain ⟨j, rfl, before', stops'⟩ | ⟨-, all⟩ := ends.opens_eq
  · rw [eq_of_interrupted before stops before' stops']
  · exact absurd (all.mono soon) stops

theorem opens_of_exhausted (ends : d.ReadEnds path left opens text)
    (all : d.Interrupted path left) : opens = left := by
  cases ends with
  | succeeded soon interrupted gave => exact absurd (all.mono soon) (not_interrupted_of_ok gave)
  | failed soon interrupted gave permanent =>
    exact absurd (all.mono soon) (not_interrupted_of_permanent gave permanent)
  | exhausted interrupted => rfl

/-- Text is read exactly if some attempt in time succeeds, with all before it interrupted. -/
theorem text_eq_some_iff (ends : d.ReadEnds path left opens text) {s : String} :
    text = some s ↔ ∃ k < left, d.Interrupted path k ∧
      ∃ contents, d.readAfter path k = .ok contents ∧ s = Text.decode contents := by
  constructor
  · rintro rfl
    cases ends with
    | succeeded soon interrupted gave => exact ⟨_, soon, interrupted, _, gave, rfl⟩
  · rintro ⟨k, soon, before, contents, gave, rfl⟩
    have stops := not_interrupted_of_ok gave
    have count := ends.opens_of_interrupted soon before stops
    cases ends with
    | succeeded soon' interrupted gave' =>
      obtain rfl := Nat.succ.inj count
      rw [Except.ok.inj (gave'.symm.trans gave)]
    | failed soon' interrupted gave' permanent =>
      obtain rfl := Nat.succ.inj count
      exact absurd (gave'.symm.trans gave) nofun
    | exhausted all => exact absurd (all.mono soon) stops

end ReadEnds

/-! ## Files that stand -/

section Stands
variable {contents : Text.Bytes} (stands : d.tree.read path = .ok contents)
include stands

/-- A file that stands uses up one fault in store with each read. -/
theorem pending_afterReads (k : Nat) :
    (d.afterReads path k).pending path .reading = (d.pending path .reading).drop k := by
  induction k generalizing d with
  | zero => rfl
  | succ k ih =>
    have stands' : (d.read path).2.tree.read path = .ok contents := by rw [tree_read, stands]
    rw [afterReads, ih stands', (read_of_stands stands).2, List.drop_tail]

/-- The schedule of a file that stands is that of the faults in store. -/
theorem readAfter_eq (k : Nat) :
    d.readAfter path k = (d.pending path .reading)[k]?.elim (.ok contents) .error := by
  have stands' : (d.afterReads path k).tree.read path = .ok contents := by
    rw [(d.afterReads_spares path k).1.1, stands]
  rw [readAfter, (read_of_stands stands').1, pending_afterReads stands, List.head?_drop]

/-- Such a file is read once its faults are used up. -/
theorem readAfter_eq_ok {k : Nat} {c : Text.Bytes} :
    d.readAfter path k = .ok c ↔ (d.pending path .reading).length ≤ k ∧ c = contents := by
  rw [readAfter_eq stands, ← List.getElem?_eq_none_iff]
  cases (d.pending path .reading)[k]? <;> simp [eq_comm]

/-- Until then its reads fail with them, in order. -/
theorem readAfter_eq_error {k : Nat} {e : OsError} :
    d.readAfter path k = .error e ↔ (d.pending path .reading)[k]? = some e := by
  rw [readAfter_eq stands]
  cases (d.pending path .reading)[k]? <;> simp

/-- A file that stands is readable exactly if a read succeeds in time, after interrupted ones only. -/
theorem readableWithin_iff {n : Nat} :
    d.ReadableWithin path n ↔
      ∃ k < n, d.Interrupted path k ∧ ∃ c, d.readAfter path k = .ok c := by
  constructor
  · rintro ⟨transient, few⟩
    refine ⟨_, few, fun i before => ?_, contents, (readAfter_eq_ok stands).2 ⟨Nat.le_refl _, rfl⟩⟩
    exact ⟨_, (readAfter_eq_error stands).2 (List.getElem?_eq_getElem before),
      transient _ (List.getElem_mem before)⟩
  · rintro ⟨k, soon, interrupted, c, gave⟩
    obtain ⟨few, -⟩ := (readAfter_eq_ok stands).1 gave
    refine ⟨fun e member => ?_, Nat.lt_of_le_of_lt few soon⟩
    obtain ⟨i, before, rfl⟩ := List.getElem_of_mem member
    obtain ⟨e, failed, transient⟩ := interrupted i (Nat.lt_of_lt_of_le before few)
    have first := (readAfter_eq_error stands).1 failed
    rw [List.getElem?_eq_getElem before] at first
    rwa [Option.some.inj first]

end Stands

end Storage.Disk

/-! ## Reading -/

open Work

/-- The loop of attempts follows the schedule of its path, by induction on the attempts left. -/
theorem ensures_readAttempts_schedule {m : Machine} (path : Path) (attempt left : Nat) :
    (readAttempts path attempt left).Ensures m fun text v =>
      ∃ opens, m.disk.ReadEnds path left opens text ∧ v.disk = m.disk.afterReads path opens ∧
        v.opens = m.opens ++ List.replicate opens (path, .reading) := by
  induction left generalizing m attempt with
  | zero =>
    exact ⟨0, .exhausted (Disk.interrupted_zero _ path), rfl, (List.append_nil _).symm⟩
  | succ left ih =>
    refine (ensures_read path).bind fun result m₁ ⟨gave, disk, opens⟩ => ?_
    cases result with
    | ok contents =>
      exact ⟨1, .succeeded (Nat.succ_pos left) (Disk.interrupted_zero _ path) gave.symm, disk, opens⟩
    | error e =>
      show Ensures (if e.isTransient then _ else _) m₁ _
      split
      · rename_i transient
        refine (ensures_log_unopened _ _).bind fun _ m₂ ⟨disk₂, opens₂⟩ => ?_
        refine (ih (m := m₂) _).mono fun text v ⟨count, ends, after, more⟩ => ?_
        rw [disk₂, disk] at ends after
        refine ⟨count + 1, ends.again gave.symm transient, after, ?_⟩
        rw [more, opens₂, opens, List.append_assoc, List.replicate_succ]
        rfl
      · rename_i permanent
        refine (ensures_log_unopened _ _).bind fun _ m₂ ⟨disk₂, opens₂⟩ => ensures_pure.2 ?_
        exact ⟨1, .failed (Nat.succ_pos left) (Disk.interrupted_zero _ path) gave.symm permanent,
          disk₂.trans disk, opens₂.trans opens⟩

/-- Reading gives a text exactly if some open within the attempts succeeds after interrupted ones
only, and then that of the file. It opens the path once more than it was interrupted, or as often as
it may if it always was, and nothing else. What the opens give that were not made is left as it was,
and so are the files and the faults of other paths. -/
theorem readWithRetry_follows_schedule (path : Path) (n : Nat) (m : Machine) :
    let text := (readWithRetry path n m).1
    let after := (readWithRetry path n m).2
    (∀ s, text = some s ↔ ∃ k < n, m.disk.Interrupted path k ∧
      ∃ contents, m.disk.readAfter path k = .ok contents ∧ s = Text.decode contents) ∧
    ∃ opens, after.opens = m.opens ++ List.replicate opens (path, .reading) ∧
      (∀ k < n, m.disk.Interrupted path k → ¬ m.disk.Interrupted path (k + 1) → opens = k + 1) ∧
      (m.disk.Interrupted path n → opens = n) ∧
      (∀ k, after.disk.readAfter path k = m.disk.readAfter path (opens + k)) ∧
      after.disk.tree = m.disk.tree ∧
      ∀ other mode, ¬ (other = path ∧ mode = .reading) →
        after.disk.pending other mode = m.disk.pending other mode := by
  intro text after
  obtain ⟨opens, ends, disk, opened⟩ := ensures_readAttempts_schedule (m := m) path 1 n
  have left : after.disk = m.disk.afterReads path opens := disk
  obtain ⟨files, pending⟩ := m.disk.afterReads_spares path opens
  refine ⟨fun s => ends.text_eq_some_iff, opens, opened, fun k => ends.opens_of_interrupted,
    ends.opens_of_exhausted, fun k => ?_, ?_, ?_⟩
  · rw [left, Disk.readAfter, Disk.afterReads_add, Disk.readAfter]
  · rw [left, files.1]
  · rw [left]
    exact pending

/-! ## Readable files -/

section Reading
variable {m : Machine} {path : Path} {contents : Text.Bytes}

/-- What trying to read a file that stands tells of the faults in store, and leaves of them. -/
structure Tried (attempts : Nat) (path : Path) (contents : Text.Bytes) (before after : Disk)
    (text : Option String) : Prop where
  files : before.SameFiles after
  read : text = some (Text.decode contents) ∨ text = none
  isSome_iff : text.isSome = true ↔ before.ReadableWithin path attempts
  self : text.isSome = true → after.pending path .reading = []
  others : ∀ other, other ≠ path → after.pending other .reading = before.pending other .reading

namespace Tried

variable {attempts : Nat} {before after : Disk} {text : Option String}

theorem of_readEnds {opens : Nat} (stands : before.tree.read path = .ok contents)
    (ends : before.ReadEnds path attempts opens text) :
    Tried attempts path contents before (before.afterReads path opens) text where
  files := (before.afterReads_spares path opens).1
  read := by
    cases text with
    | none => exact .inr rfl
    | some s =>
      obtain ⟨k, -, -, c, gave, rfl⟩ := ends.text_eq_some_iff.1 rfl
      rw [((Disk.readAfter_eq_ok stands).1 gave).2]
      exact .inl rfl
  isSome_iff := by
    rw [Option.isSome_iff_exists, Disk.readableWithin_iff stands]
    constructor
    · rintro ⟨s, found⟩
      obtain ⟨k, soon, interrupted, c, gave, -⟩ := ends.text_eq_some_iff.1 found
      exact ⟨k, soon, interrupted, c, gave⟩
    · rintro ⟨k, soon, interrupted, c, gave⟩
      exact ⟨_, ends.text_eq_some_iff.2 ⟨k, soon, interrupted, c, gave, rfl⟩⟩
  self found := by
    obtain ⟨s, rfl⟩ := Option.isSome_iff_exists.1 found
    cases ends with
    | succeeded soon interrupted gave =>
      obtain ⟨few, -⟩ := (Disk.readAfter_eq_ok stands).1 gave
      rw [Disk.pending_afterReads stands, List.drop_eq_nil_of_le (Nat.le_succ_of_le few)]
  others other ne := (before.afterReads_spares path opens).2 other .reading fun same => ne same.1

/-- What was readable is readable again: the faults of the path itself are used up. -/
theorem readableWithin (tried : Tried attempts path contents before after text) {other : Path}
    (readable : before.ReadableWithin other attempts) : after.ReadableWithin other attempts := by
  by_cases same : other = path
  · subst same
    rw [Disk.ReadableWithin, tried.self (tried.isSome_iff.2 readable)]
    exact ⟨fun e none => absurd none List.not_mem_nil, Nat.zero_lt_of_lt readable.2⟩
  · rwa [Disk.ReadableWithin, tried.others other same]

/-- What is readable after a success was readable before. -/
theorem readableWithin_of_after (tried : Tried attempts path contents before after text)
    (success : text.isSome = true) {other : Path} (readable : after.ReadableWithin other attempts) :
    before.ReadableWithin other attempts := by
  by_cases same : other = path
  · exact same ▸ tried.isSome_iff.1 success
  · rwa [Disk.ReadableWithin, tried.others other same] at readable

end Tried

/-- The whole reading goes by the faults that the file has in store. -/
theorem ensures_readWithRetry (stands : m.disk.tree.read path = .ok contents) (attempts : Nat) :
    (readWithRetry path attempts).Ensures m fun text v =>
      Tried attempts path contents m.disk v.disk text :=
  (ensures_readAttempts_schedule path 1 attempts).mono fun _ _ ⟨_, ends, disk, _⟩ =>
    disk ▸ .of_readEnds stands ends

end Reading

end EmuFront
