import EmuFront.Proofs.Decoding
import EmuFront.Proofs.Transmission

/-!
# From a failure to the report

What becomes of failures that are recorded through one capture: the engine is told of each, the crash
file holds the records that could be written, one after the other, and a later report opens with
them, character by character. No record is cut inside a character, so that nothing is replaced when
the file is read back.
-/

namespace EmuFront

open Storage Storage.Tree Work
open Text (Bytes utf8)

/-- Whether an event is that a failure was passed on to an engine. -/
def Event.isFailureOf (engine : EngineRef) : Event → Bool
  | .failed e _ _ => e = engine
  | _ => false

/-- The failures that were passed on to an engine, in order. -/
def Machine.failuresOf (m : Machine) (engine : EngineRef) : List Event :=
  m.timeline.filter (Event.isFailureOf engine)

namespace CrashCapture

variable {c : CrashCapture} {m : Machine}

/-! ## A run of failures -/

/-- The contents of the crash file, if there is one. -/
def stored (c : CrashCapture) (m : Machine) : Option Bytes :=
  (m.disk.tree.read (managedCrashFile c.dataDir)).toOption

theorem stored_eq_some {contents : Bytes} :
    c.stored m = some contents ↔
      m.disk.tree.read (managedCrashFile c.dataDir) = .ok contents := by
  unfold stored
  cases m.disk.tree.read (managedCrashFile c.dataDir) with
  | error e => exact ⟨nofun, nofun⟩
  | ok found => exact ⟨fun h => congrArg _ (Option.some.inj h), fun h => congrArg _ (Except.ok.inj h)⟩

/-- A failure to be recorded, and what happens on the machine before: anything that leaves the crash
file alone and passes no failure on. Faults may be planted then. -/
structure Incident (c : CrashCapture) where
  meanwhile : Machine → Machine
  kind : CrashKind
  trace : String
  stored_meanwhile : ∀ m, c.stored (meanwhile m) = c.stored m
  failuresOf_meanwhile : ∀ m, (meanwhile m).failuresOf c.engine = m.failuresOf c.engine

/-- A failure before which faults are planted. -/
def Incident.planting (c : CrashCapture) (faults : List Fault) (kind : CrashKind) (trace : String) :
    c.Incident where
  meanwhile m := { m with disk := { m.disk with faults := m.disk.faults ++ faults } }
  kind := kind
  trace := trace
  stored_meanwhile _ := rfl
  failuresOf_meanwhile _ := rfl

/-- The record of a failure. -/
def Incident.record (i : c.Incident) : CrashRecord :=
  .managed c.fingerprint i.kind i.trace c.budget

/-- Records failures one after the other. -/
def recordAll (c : CrashCapture) : List c.Incident → Work (List (CrashRecord × Except Failure Path))
  | [] => return []
  | i :: rest => do
    modify i.meanwhile
    let one ← c.record i.kind i.trace
    return one :: (← c.recordAll rest)

/-- The texts of the records that were written. -/
def keptTexts (results : List (CrashRecord × Except Failure Path)) : List String :=
  results.filterMap fun one => if one.2.isOk then some one.1.text else none

/-! ## One failure -/

theorem ensures_passOn (engine : EngineRef) (home : Path) (text : String) :
    (passOn engine home text).Ensures m fun _ v =>
      v.disk = m.disk ∧
        v.failuresOf engine = m.failuresOf engine ++ [.failed engine home text] := by
  refine (ensures_observe _).bind fun _ m₁ eq => ?_
  subst eq
  unfold cross
  -- crossing over to native code adds no failure
  split <;> refine ⟨rfl, ?_⟩ <;>
    simp [Machine.failuresOf, Event.isFailureOf, run_pure, run_observe, run_log]

/-- What the crash file holds after a record was added to it. -/
theorem stored_written {v : Machine} {new : Bytes}
    (written : m.disk.Written (managedCrashFile c.dataDir) (fun old => old ++ new) v.disk) :
    c.stored v = some ((c.stored m).getD [] ++ new) := by
  obtain ⟨old, read, before⟩ := read_write written.1
  rw [stored_eq_some.2 read]
  obtain held | ⟨nothing, rfl⟩ := before
  · rw [stored_eq_some.2 held, Option.getD_some]
  · have stored : c.stored m = none := by
      refine Option.eq_none_iff_forall_ne_some.2 fun contents held => ?_
      obtain ⟨loc, stands⟩ := read_eq_ok.1 (stored_eq_some.1 held)
      rw [isFile_iff.2 ⟨loc, contents, stands⟩] at nothing
      exact absurd nothing (by decide)
    rw [stored, Option.getD_none]

theorem ensures_persist (c : CrashCapture) (r : CrashRecord) :
    (r.persist c.dataDir).Ensures m fun written v =>
      v.failuresOf c.engine = m.failuresOf c.engine ∧
      match written with
      | .ok _ => c.stored v = some ((c.stored m).getD [] ++ utf8 r.text)
      | .error _ => v.disk.tree = m.disk.tree := by
  have opened : (append (managedCrashFile c.dataDir) (utf8 r.text)).Ensures m fun _ v =>
      v.failuresOf c.engine = m.failuresOf c.engine := by
    refine (ensures_observe _).bind fun _ m₁ eq => ?_
    subst eq
    show (m.timeline ++ [_]).filter _ = m.timeline.filter _
    rw [List.filter_append]
    exact List.append_nil _
  refine ((ensures_append _ _).and opened).bind fun result v ⟨changed, failures⟩ => ?_
  cases result with
  | ok _ => exact ⟨failures, stored_written changed⟩
  | error e => exact ⟨failures, changed.1.1⟩

/-- One failure: its record is added to the crash file, or no file changes, and in either case the
record is passed on. -/
theorem ensures_record (c : CrashCapture) (kind : CrashKind) (trace : String) :
    (c.record kind trace).Ensures m fun result v =>
      result.1 = .managed c.fingerprint kind trace c.budget ∧
      v.failuresOf c.engine =
        m.failuresOf c.engine ++ [.failed c.engine c.homeDir result.1.text] ∧
      match result.2 with
      | .ok _ => c.stored v = some ((c.stored m).getD [] ++ utf8 result.1.text)
      | .error _ => v.disk.tree = m.disk.tree := by
  refine (c.ensures_persist _).bind fun written m₁ ⟨failures₁, file⟩ => ?_
  refine (ensures_passOn _ _ _).bind fun _ v ⟨disk, failures⟩ => ensures_pure.2 ⟨rfl, ?_, ?_⟩
  · rw [failures, failures₁]
  · have stored : c.stored v = c.stored m₁ := by rw [stored, disk, stored]
    rw [stored, disk]
    exact file

/-! ## All failures -/

/-- Texts added to a file one after the other. -/
def appended (old : Option Bytes) (texts : List String) : Option Bytes :=
  texts.foldl (fun file text => some (file.getD [] ++ utf8 text)) old

theorem appended_some (old : Bytes) (texts : List String) :
    appended (some old) texts = some (old ++ utf8 (String.join texts)) := by
  induction texts generalizing old with
  | nil => simp [appended]
  | cons text texts ih =>
    show appended (some (old ++ utf8 text)) texts = _
    rw [ih, String.join_cons, Text.utf8_append, List.append_assoc]

/-- A file that did not exist is made by the first text that is added. -/
theorem appended_none {texts : List String} (some : texts ≠ []) :
    appended none texts = .some (utf8 (String.join texts)) := by
  obtain ⟨text, texts, rfl⟩ := List.exists_cons_of_ne_nil some
  show appended (.some ([] ++ utf8 text)) texts = _
  rw [appended_some, String.join_cons, Text.utf8_append, List.nil_append]

theorem ensures_recordAll (c : CrashCapture) (incidents : List c.Incident) :
    (c.recordAll incidents).Ensures m fun results v =>
      results.map Prod.fst = incidents.map Incident.record ∧
      v.failuresOf c.engine = m.failuresOf c.engine ++
        results.map (fun one => .failed c.engine c.homeDir one.1.text) ∧
      c.stored v = appended (c.stored m) (keptTexts results) := by
  induction incidents generalizing m with
  | nil => exact ⟨rfl, (List.append_nil _).symm, rfl⟩
  | cons i rest ih =>
    have before : (modify i.meanwhile : Work PUnit).Ensures m fun _ v => v = i.meanwhile m := rfl
    rw [recordAll]
    refine before.bind fun _ m₀ eq => ?_
    refine (c.ensures_record i.kind i.trace).bind fun one m₁ ⟨record, failures₁, file⟩ => ?_
    refine ih.bind fun more v ⟨records, failures, stored⟩ => ensures_pure.2 ⟨?_, ?_, ?_⟩
    · rw [List.map_cons, List.map_cons, records, record]
      rfl
    · rw [failures, failures₁, eq, i.failuresOf_meanwhile, List.append_assoc, List.map_cons]
      rfl
    · rw [eq, i.stored_meanwhile] at file
      rw [stored]
      obtain ⟨r, written⟩ := one
      cases written with
      | ok path =>
        dsimp only at file
        rw [file]
        rfl
      | error e =>
        dsimp only at file
        have same : c.stored m₁ = c.stored m := by
          rw [← i.stored_meanwhile m, CrashCapture.stored, file, CrashCapture.stored]
        rw [same]
        rfl

/-! ## The report -/

/-- On a disk without faults every source is readable. -/
theorem readableWithin_of_faultless {d : Disk} (faultless : d.faults = []) (path : Path)
    {attempts : Nat} (pos : 0 < attempts) : d.ReadableWithin path attempts := by
  have none : d.pending path .reading = [] := by rw [Disk.pending, faultless]; rfl
  rw [Disk.ReadableWithin, none]
  exact ⟨fun e member => absurd member List.not_mem_nil, pos⟩

/-- A report opens with the crash file, if there is one and no fault keeps it from being read. -/
theorem reportOf_managed {d : Disk} {attempts : Nat} {dataDir : Path} {text : String}
    {entries : List (CrashArtifact × Option String)} (faultless : d.faults = [])
    (pos : 0 < attempts)
    (held : d.tree.read (managedCrashFile dataDir) = .ok (utf8 text))
    (gathered : CrashReporter.Gathered d attempts (CrashArtifact.allIn d.tree dataDir) entries) :
    ∃ rest, CrashArtifact.reportOf d.tree entries =
      "=== Managed crash: " ++ (managedCrashFile dataDir).text ++ " ===\n" ++ text ++ "\n" ++
        rest := by
  obtain ⟨loc, stands⟩ := read_eq_ok.1 held
  have first : CrashArtifact.managed? d.tree dataDir = [⟨.managed, managedCrashFile dataDir⟩] :=
    if_pos (isFile_iff.2 ⟨loc, _, stands⟩)
  have artifacts := gathered.artifacts
  rw [CrashArtifact.allIn, first, List.singleton_append, List.map_eq_cons_iff] at artifacts
  obtain ⟨⟨a, read⟩, rest, rfl, rfl, -⟩ := artifacts
  have read_some := gathered.read _ List.mem_cons_self (readableWithin_of_faultless faultless _ pos)
  obtain ⟨s, rfl⟩ := Option.isSome_iff_exists.1 read_some
  obtain ⟨contents, source, rfl⟩ := gathered.texts _ List.mem_cons_self s rfl
  obtain rfl : contents = utf8 text := Except.ok.inj (source.symm.trans held)
  refine ⟨String.join (rest.map fun e => e.1.entry d.tree e.2), ?_⟩
  rw [CrashArtifact.reportOf, List.map_cons, String.join_cons]
  show "=== " ++ "Managed" ++ " crash: " ++ _ ++ " ===\n" ++ Text.decode (utf8 text) ++ "\n" ++ _ = _
  rw [Text.decode_utf8]
  rfl

/-- A fresh reporter on a disk without faults sends what the crash file holds, if a directory takes
the report and what sends it accepts a report that it can read. -/
theorem exists_sent_report {r : CrashReporter} {send : Path → Work (Except Failure Unit)}
    {text : String} (held : c.stored m = some (utf8 text)) (faultless : m.disk.faults = [])
    (directory_eq : r.dataDir = c.dataDir) (fresh : r.sent = false)
    (writable : ∃ directory ∈ r.targets m.disk.tree, ∃ change tree,
      m.disk.tree.write (CrashReporter.reportFile directory) change = .ok tree)
    (accepts : ∀ report v, v.disk.faults = [] →
      (∃ contents, v.disk.tree.read report = .ok contents) → (send report v).1 = .ok ()) :
    ∃ report v rest,
      v.disk.tree.read report = .ok (utf8 ("=== Managed crash: " ++
        (managedCrashFile c.dataDir).text ++ " ===\n" ++ text ++ "\n" ++ rest)) ∧
      r.transmit send m = (send report >>= r.begun.conclude report (r.scan m).1) v ∧
      (r.transmit send m).1.1 = .ok (.sent report (r.scan m).1.length) := by
  have read := stored_eq_some.1 held
  obtain ⟨loc, stands⟩ := read_eq_ok.1 read
  obtain ⟨goes, transmission, run⟩ := r.exists_transmission m
  cases transmission with
  | nothingToSend nothing kept =>
    have path : managedCrashFile c.dataDir =
        r.dataDir.join CrashArtifact.managedName.text := by
      rw [directory_eq]
      exact CrashArtifact.managedCrashFile_eq c.dataDir
    have member : (⟨.managed, managedCrashFile c.dataDir⟩ : CrashArtifact) ∈
        CrashArtifact.allIn m.disk.tree r.dataDir :=
      CrashArtifact.mem_allIn_iff.2 (.inl ⟨loc, rfl, path, _, stands⟩)
    rw [nothing] at member
    exact absurd member List.not_mem_nil
  | alreadySent some again kept => exact absurd (fresh.symm.trans again) (by decide)
  | unwritten some first files blocked =>
    obtain ⟨directory, target, change, tree, written⟩ := writable
    obtain refused | ⟨f, member, -⟩ := blocked directory target
    · exact absurd written (refused change tree)
    · rw [faultless] at member
      exact absurd member List.not_mem_nil
  | @handedOver v directory entries some first target gathered written =>
    obtain ⟨old, file, -⟩ := read_write written.1
    rw [directory_eq] at gathered
    obtain ⟨rest, report⟩ := reportOf_managed faultless r.attempts_pos read gathered
    have faultless' : v.disk.faults = [] := List.sublist_nil.1 (faultless ▸ written.2)
    have accepted := accepts _ v faultless' ⟨_, file⟩
    rw [report] at file
    rw [r.scan_eq]
    refine ⟨CrashReporter.reportFile directory, v, rest, file, run send, ?_⟩
    rw [run, (r.begun.ensures_accepted _ _ accepted).1]

/-- Of failures that are recorded through one capture, where there is no crash file yet, the engine
is told of each once and in order. The crash file then holds the records that could be written, in
order; a record that could not be written changes no file. A later report of that file opens with
these records under one heading, as they are. -/
theorem recorded_failures_reported (c : CrashCapture) (incidents : List c.Incident) (m : Machine)
    (start : c.stored m = none) :
    let results := (c.recordAll incidents m).1
    let after := (c.recordAll incidents m).2
    let texts := keptTexts results
    results.map Prod.fst = incidents.map Incident.record ∧
    after.failuresOf c.engine = m.failuresOf c.engine ++
      results.map (fun one => .failed c.engine c.homeDir one.1.text) ∧
    c.stored after = (if texts = [] then none else some (utf8 (String.join texts))) ∧
    (∀ kind trace u e, (c.record kind trace u).1.2 = .error e →
      (c.record kind trace u).2.disk.tree = u.disk.tree) ∧
    (texts ≠ [] → ∀ (later : Machine) (r : CrashReporter) (send : Path → Work (Except Failure Unit)),
      c.stored later = c.stored after → later.disk.faults = [] →
      r.dataDir = c.dataDir → r.sent = false →
      (∃ directory ∈ r.targets later.disk.tree, ∃ change tree,
        later.disk.tree.write (CrashReporter.reportFile directory) change = .ok tree) →
      (∀ report v, v.disk.faults = [] → (∃ contents, v.disk.tree.read report = .ok contents) →
        (send report v).1 = .ok ()) →
      ∃ report v rest,
        v.disk.tree.read report = .ok (utf8 ("=== Managed crash: " ++
          (managedCrashFile c.dataDir).text ++ " ===\n" ++ String.join texts ++ "\n" ++ rest)) ∧
        r.transmit send later = (send report >>= r.begun.conclude report (r.scan later).1) v ∧
        (r.transmit send later).1.1 = .ok (.sent report (r.scan later).1.length)) := by
  intro results after texts
  obtain ⟨records, failures, held⟩ := c.ensures_recordAll (m := m) incidents
  have stored : c.stored after = appended none texts := start ▸ held
  refine ⟨records, failures, ?_, fun kind trace u e failed => ?_, fun kept => ?_⟩
  · rw [stored]
    split
    · rename_i nothing
      rw [nothing]
      rfl
    · rename_i kept
      exact appended_none kept
  · obtain ⟨-, -, file⟩ := c.ensures_record (m := u) kind trace
    rw [failed] at file
    exact file
  · intro later r send untouched
    rw [stored, appended_none kept] at untouched
    exact exists_sent_report untouched

/-- Of three failures the second cannot be written. The report of the other two is sent. -/
theorem recorded_failures_reported_oneLost :
    let c : CrashCapture := ⟨⟨1, .direct⟩, ⟨"home"⟩, ⟨"data"⟩, .unknown, CrashRecord.defaultBudget⟩
    let incidents : List c.Incident := [.planting c [] .panic "first",
      .planting c [⟨⟨"data/managed_crash.txt"⟩, .writing, .noSpace⟩] .nullDeref "second",
      .planting c [] .panic "third"]
    let m := Machine.new (Disk.empty.actAll [.makeDirectory ⟨"data"⟩, .makeDirectory ⟨"out"⟩])
    let after := (c.recordAll incidents m).2
    let r : CrashReporter := ⟨⟨"data"⟩, none, ⟨"out"⟩, 1, false, false, by decide⟩
    let send : Path → Work (Except Failure Unit) := fun _ => pure (.ok ())
    c.stored m = none ∧ after.disk.faults = [] ∧
      (keptTexts (c.recordAll incidents m).1).length = 2 ∧
      ∃ report, (r.transmit send after).1.1 = .ok (.sent report (r.scan after).1.length) := by
  intro c incidents m after r send
  have start : c.stored m = none := by decide +kernel
  have faultless : after.disk.faults = [] := by decide +kernel
  have two : (keptTexts (c.recordAll incidents m).1).length = 2 := by decide +kernel
  have kept : keptTexts (c.recordAll incidents m).1 ≠ [] := by
    intro none
    rw [none] at two
    exact absurd two (by decide)
  obtain ⟨-, -, -, -, reported⟩ := recorded_failures_reported c incidents m start
  obtain ⟨report, -, -, -, -, sent⟩ := reported kept after r send rfl faultless rfl rfl
    ⟨⟨"out"⟩, by decide +kernel, fun _ => [], _, write_eq_ok.2
      ⟨[.ofText "out" (by decide), .ofText "emu_crash.txt" (by decide)], by decide +kernel,
        by decide +kernel, rfl⟩⟩
    fun _ _ _ _ => rfl
  exact ⟨start, faultless, two, report, sent⟩

end CrashCapture
end EmuFront
