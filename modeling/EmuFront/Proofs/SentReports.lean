import EmuFront.Proofs.Transmission

/-!
# What a sent report carries

A report that was accepted has one part for each artifact that is then deleted. The part carries the
text of the artifact if its source could be read, and a mark in its place otherwise; the artifact is
deleted all the same.
-/

namespace EmuFront.CrashReporter

open Storage Storage.Tree CrashArtifact Work

variable {r : CrashReporter} {m : Machine}

/-- A report of entries was handed over on a machine and accepted there, and then the artifacts were
deleted. -/
structure Accepted (r : CrashReporter) (m : Machine) (send : Path → Work (Except Failure Unit))
    (report : Path) (entries : List (CrashArtifact × Option String)) (v : Machine) : Prop where
  artifacts : entries.map Prod.fst = (r.scan m).1
  /-- The file that was handed over holds the entries. -/
  file : v.disk.tree.read report = .ok (Text.utf8 (reportOf m.disk.tree entries))
  accepted : (send report v).1 = .ok ()
  deleted : (r.transmit send m).2.disk.tree =
    (send report v).2.disk.tree.withoutAll ((r.scan m).1.flatMap removals)

/-- A report that was sent was accepted, and its entries are what was read for the artifacts. -/
theorem exists_accepted {send : Path → Work (Except Failure Unit)} {report : Path} {n : Nat}
    (sent : (r.transmit send m).1.1 = .ok (.sent report n)) :
    ∃ v entries, r.Accepted m send report entries v ∧
      Gathered m.disk r.attempts (r.scan m).1 entries := by
  obtain ⟨goes, transmission, run⟩ := r.exists_transmission m
  rw [run] at sent
  cases transmission with
  | nothingToSend => exact nomatch sent
  | alreadySent => exact nomatch sent
  | unwritten => exact nomatch sent
  | @handedOver v directory entries some first target gathered written =>
    -- what the transmission did after the answer is decided by the answer
    have answer : (send (reportFile directory) v).1 = .ok () := by
      dsimp only [run_bind] at sent
      cases answer : (send (reportFile directory) v).1 with
      | error e =>
        rw [answer] at sent
        exact nomatch sent
      | ok _ => rfl
    obtain ⟨result, tree⟩ :=
      r.begun.ensures_accepted (reportFile directory) (allIn m.disk.tree r.dataDir) answer
    rw [result] at sent
    obtain ⟨rfl, rfl⟩ : reportFile directory = report ∧ _ = n := by simpa using sent
    obtain ⟨old, file, -⟩ := read_write written.1
    rw [← scan_eq] at gathered tree
    refine ⟨v, entries, ⟨gathered.artifacts, file, answer, ?_⟩, gathered⟩
    rw [run, ← scan_eq, tree]

/-- The artifacts that go with a sent report, and what the report carries for them. An entry has the
text of its source, or none. A source is read if the faults in store for it are all transient and
fewer than the attempts, and only if that is so of every source does the report carry every text. -/
theorem sent_report_complete_iff {send : Path → Work (Except Failure Unit)} {report : Path}
    {n : Nat} (sent : (r.transmit send m).1.1 = .ok (.sent report n)) :
    ∃ v entries, r.Accepted m send report entries v ∧
      (∀ e ∈ entries, e.2 = none ∨ ∃ text, e.2 = some text ∧ e.1.HasText m.disk.tree text) ∧
      (∀ e ∈ entries, m.disk.ReadableWithin (e.1.source m.disk.tree) r.attempts →
        e.2.isSome = true) ∧
      ((∀ e ∈ entries, e.2.isSome = true) ↔
        ∀ a ∈ (r.scan m).1, m.disk.ReadableWithin (a.source m.disk.tree) r.attempts) := by
  obtain ⟨v, entries, accepted, gathered⟩ := exists_accepted sent
  refine ⟨v, entries, accepted, fun e member => ?_, gathered.read, gathered.readable, ?_⟩
  · cases text : e.2 with
    | none => exact .inl rfl
    | some s => exact .inr ⟨s, rfl, gathered.texts e member s text⟩
  · intro readable e member
    refine gathered.read e member (readable e.1 ?_)
    rw [← gathered.artifacts]
    exact List.mem_map_of_mem member

/-- With one transient fault in store and two attempts, the report carries the text of the dump. -/
theorem sent_report_complete_iff_interrupted :
    let r : CrashReporter := ⟨⟨"data"⟩, none, ⟨"out"⟩, 2, false, false, by decide⟩
    let m := Machine.new (Disk.empty.actAll
      [.makeDirectory ⟨"out"⟩, .putFile ⟨"data/a.dmp"⟩ (Text.utf8 "dump"),
        .plantFaults ⟨"data/a.dmp"⟩ .reading 1 .wouldBlock])
    let send : Path → Work (Except Failure Unit) := fun _ => pure (.ok ())
    (r.transmit send m).1.1 = .ok (.sent ⟨"out/emu_crash.txt"⟩ 1) ∧
      ∃ v entries, r.Accepted m send ⟨"out/emu_crash.txt"⟩ entries v ∧
        ∀ e ∈ entries, e.2.isSome = true := by
  intro r m send
  have sent : (r.transmit send m).1.1 = .ok (.sent ⟨"out/emu_crash.txt"⟩ 1) := by decide +kernel
  have found : (r.scan m).1 = [⟨.native, ⟨"data/a.dmp"⟩⟩] := by decide +kernel
  obtain ⟨v, entries, accepted, -, -, complete⟩ := sent_report_complete_iff sent
  refine ⟨sent, v, entries, accepted, complete.2 ?_⟩
  rw [found, List.forall_mem_singleton]
  exact ⟨by decide +kernel, by decide +kernel⟩

/-- A dump that cannot be opened for reading is reported as unreadable, and deleted. -/
theorem exists_unreadable_deleted :
    let r : CrashReporter := ⟨⟨"data"⟩, none, ⟨"out"⟩, 1, false, false, by decide⟩
    let m := Machine.new (Disk.empty.actAll
      [.makeDirectory ⟨"out"⟩, .putFile ⟨"data/a.dmp"⟩ (Text.utf8 "dump"),
        .plantFaults ⟨"data/a.dmp"⟩ .reading 1 .permissionDenied])
    let send : Path → Work (Except Failure Unit) := fun _ => pure (.ok ())
    let after := (r.transmit send m).2.disk.tree
    (r.transmit send m).1.1 = .ok (.sent ⟨"out/emu_crash.txt"⟩ 1) ∧
      m.disk.tree.read ⟨"data/a.dmp"⟩ = .ok (Text.utf8 "dump") ∧
      after.read ⟨"out/emu_crash.txt"⟩ =
        .ok (Text.utf8 "=== Native crash: data/a.dmp ===\n<unreadable>\n") ∧
      after.read ⟨"data/a.dmp"⟩ = .error .notFound := by
  decide +kernel

end EmuFront.CrashReporter
