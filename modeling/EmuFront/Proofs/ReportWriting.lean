import EmuFront.Crash.Reporter
import EmuFront.Proofs.Readings

/-!
# Where a report is written

A report is written to the first file that takes it. The files that may are tried in turn, the one
in shared storage before the one in the fallback directory, each up to a number of times. Which
attempts fail is a schedule that the disk holds in store.
-/

namespace EmuFront

open Storage Work CrashReporter

/-! ## Files tried in turn -/

namespace Storage.Disk

variable {d d' d'' : Disk} {contents : Text.Bytes} {path : Path} {plan plan' : List Path}
  {refusals refusals' : List (Path × OsError)} {taken : Option Path}

/-- Writing to these paths in turn fails with these errors, and leaves the disk `d'`. -/
def Refuses (d : Disk) (contents : Text.Bytes) : List (Path × OsError) → (d' : Disk) → Prop
  | [], d' => d' = d
  | (path, e) :: rest, d' =>
    (d.write path contents).1 = .error e ∧ (d.write path contents).2.Refuses contents rest d'

/-- Writes that are refused in a row are refused one after the other. -/
theorem Refuses.append (first : d.Refuses contents refusals d')
    (then_ : d'.Refuses contents refusals' d'') : d.Refuses contents (refusals ++ refusals') d'' := by
  induction refusals generalizing d with
  | nil =>
    obtain rfl := first
    exact then_
  | cons refusal rest ih => exact ⟨first.1, ih first.2⟩

theorem changed_write (d : Disk) (path : Path) (contents : Text.Bytes) :
    d.Changed path (fun _ => contents) (d.write path contents).1 (d.write path contents).2 :=
  d.changed_changeFile _ _

theorem written_of_ok (taken : d.write path contents = (.ok (), d')) :
    d.Written path (fun _ => contents) d' := by
  have changed := d.changed_write path contents
  rw [taken] at changed
  exact changed

/-- What is refused changes no file, and something stands in the way of each path. -/
theorem Refuses.blocked (refuses : d.Refuses contents refusals d') :
    d.SameFiles d' ∧ ∀ path ∈ refusals.map Prod.fst, d.Blocked path := by
  induction refusals generalizing d with
  | nil =>
    obtain rfl := refuses
    exact ⟨.refl _, fun path none => absurd none List.not_mem_nil⟩
  | cons refusal rest ih =>
    have changed := d.changed_write refusal.1 contents
    rw [refuses.1] at changed
    obtain ⟨files, blocked⟩ := changed
    obtain ⟨files', blocked'⟩ := ih refuses.2
    refine ⟨files.trans files', List.forall_mem_cons.2 ⟨blocked, fun path member => ?_⟩⟩
    exact (blocked' path member).of_sameFiles files

/-- How trying paths in turn ends: some refuse, and then one takes what is written or none is left. -/
inductive WriteEnds (d : Disk) (contents : Text.Bytes) (plan : List Path) :
    List (Path × OsError) → Option Path → (d' : Disk) → Prop
  | written {refusals : List (Path × OsError)} {path : Path} {d' d'' : Disk}
      (refuses : d.Refuses contents refusals d')
      (next : refusals.map Prod.fst ++ [path] <+: plan)
      (takes : d'.write path contents = (.ok (), d'')) :
      WriteEnds d contents plan refusals (some path) d''
  | exhausted {refusals : List (Path × OsError)} {d' : Disk}
      (refuses : d.Refuses contents refusals d') (all : refusals.map Prod.fst = plan) :
      WriteEnds d contents plan refusals none d'

namespace WriteEnds

/-- Paths that would have come later make no difference once one was written. -/
theorem widen (ends : d.WriteEnds contents plan refusals (some path) d') :
    d.WriteEnds contents (plan ++ plan') refusals (some path) d' := by
  cases ends with
  | written refuses next takes =>
    exact .written refuses (next.trans (List.prefix_append _ _)) takes

/-- When all have refused, what comes next are the paths that come later. -/
theorem orElse (first : d.WriteEnds contents plan refusals none d')
    (then_ : d'.WriteEnds contents plan' refusals' taken d'') :
    d.WriteEnds contents (plan ++ plan') (refusals ++ refusals') taken d'' := by
  cases first with
  | exhausted refuses all =>
    cases then_ with
    | written refuses' next takes =>
      refine .written (refuses.append refuses') ?_ takes
      rw [List.map_append, List.append_assoc, all]
      exact (List.prefix_append_right_inj _).2 next
    | exhausted refuses' all' =>
      refine .exhausted (refuses.append refuses') ?_
      rw [List.map_append, all, all']

end WriteEnds
end Storage.Disk

/-! ## The failure that is reported -/

/-- The failure that is kept: that of the last refusal. -/
def Failure.afterRefusals (last : Failure) (refusals : List (Path × OsError)) : Failure :=
  refusals.foldl (fun _ refusal => .io refusal.1 refusal.2) last

theorem Failure.afterRefusals_append (last : Failure) (first then_ : List (Path × OsError)) :
    last.afterRefusals (first ++ then_) = (last.afterRefusals first).afterRefusals then_ :=
  List.foldl_append

/-- The file of the last refusal and its error, where the last path is known. -/
theorem Failure.exists_afterRefusals {refusals : List (Path × OsError)} {before : List Path}
    {path : Path} (all : refusals.map Prod.fst = before ++ [path]) :
    ∃ cause, refusals.getLast? = some (path, cause) ∧
      ∀ last : Failure, last.afterRefusals refusals = .io path cause := by
  obtain ⟨front, back, rfl, -, back_eq⟩ := List.map_eq_append_iff.1 all
  obtain ⟨⟨file, cause⟩, rfl, rfl⟩ := List.map_eq_singleton_iff.1 back_eq
  refine ⟨cause, List.getLast?_concat, fun last => ?_⟩
  rw [afterRefusals_append]
  rfl

/-! ## Writing with several attempts -/

/-- Writing to the paths of a plan in turn leads from one machine to another, with the path that
took what was written or the failure of the last, and opens the paths that it tries. -/
def Wrote (contents : Text.Bytes) (plan : List Path) (last : Failure) (m : Machine)
    (result : Except Failure Path) (v : Machine) : Prop :=
  ∃ refusals, m.disk.WriteEnds contents plan refusals result.toOption v.disk ∧
    v.opens = m.opens ++
      (refusals.map Prod.fst ++ result.toOption.toList).map (fun path => (path, .writing)) ∧
    ∀ e, result = .error e → e = last.afterRefusals refusals

namespace Wrote

variable {contents : Text.Bytes} {plan plan' : List Path} {last e : Failure} {path : Path}
  {result : Except Failure Path} {m m' v : Machine}

theorem nothing (last : Failure) (m : Machine) : Wrote contents [] last m (.error last) m :=
  ⟨[], .exhausted rfl rfl, (List.append_nil _).symm, fun _ eq => (Except.error.inj eq).symm⟩

/-- Paths that are not come to make no difference. -/
theorem widen (wrote : Wrote contents plan last m (.ok path) v) :
    Wrote contents (plan ++ plan') last m (.ok path) v := by
  obtain ⟨refusals, ends, opens, -⟩ := wrote
  exact ⟨refusals, ends.widen, opens, nofun⟩

/-- Where all paths of a plan are refused, the next plan is tried. -/
theorem orElse (first : Wrote contents plan last m (.error e) m')
    (then_ : Wrote contents plan' e m' result v) :
    Wrote contents (plan ++ plan') last m result v := by
  obtain ⟨refusals, ends, opens, failure⟩ := first
  obtain ⟨refusals', ends', opens', failure'⟩ := then_
  refine ⟨refusals ++ refusals', ends.orElse ends', ?_, fun e' failed => ?_⟩
  · rw [opens', opens]
    simp only [Except.toOption, Option.toList_none, List.append_nil, List.map_append,
      List.append_assoc]
  · rw [failure' e' failed, failure e rfl, Failure.afterRefusals_append]

/-- The failure to begin with is not reported if there is a path to try. -/
theorem of_ne_nil (some : plan ≠ []) (wrote : Wrote contents plan last m result v)
    (other : Failure) : Wrote contents plan other m result v := by
  obtain ⟨refusals, ends, opens, failure⟩ := wrote
  refine ⟨refusals, ends, opens, fun e failed => ?_⟩
  subst failed
  cases ends with
  | exhausted refuses all =>
    obtain rfl | ⟨before, path, rfl⟩ := List.eq_nil_or_concat plan
    · exact absurd rfl some
    · obtain ⟨cause, -, reported⟩ :=
        Failure.exists_afterRefusals (all.trans List.concat_eq_append)
      rw [failure e rfl, reported, reported]

/-- What opens nothing and leaves the disk alone may come first. -/
theorem of_unopened (disk : m'.disk = m.disk) (opens : m'.opens = m.opens)
    (wrote : Wrote contents plan last m' result v) : Wrote contents plan last m result v := by
  unfold Wrote at wrote ⊢
  rwa [disk, opens] at wrote

/-- What was written is a file of the plan. Otherwise no file changes, and something stands in the way
of each of them. -/
theorem changed (wrote : Wrote contents plan last m result v) :
    match result with
    | .ok path => path ∈ plan ∧ m.disk.Written path (fun _ => contents) v.disk
    | .error _ => m.disk.SameFiles v.disk ∧ ∀ path ∈ plan, m.disk.Blocked path := by
  obtain ⟨refusals, ends, -, -⟩ := wrote
  cases result with
  | ok path =>
    cases ends with
    | written refuses next takes =>
      refine ⟨next.subset (List.mem_append_right _ (List.mem_singleton_self _)), ?_⟩
      exact (Disk.written_of_ok takes).after refuses.blocked.1
  | error e =>
    cases ends with
    | exhausted refuses all => exact all ▸ refuses.blocked

end Wrote

section Attempts
variable {m : Machine}

/-- One attempt to write. -/
theorem ensures_write_once (path : Path) (contents : Text.Bytes) (last : Failure) :
    (Work.write path contents).Ensures m fun result v =>
      Wrote contents [path] last m
        ((result.map fun _ => path).mapError fun e => .io path e) v := by
  have disk : (Work.write path contents m).2.disk = (m.disk.write path contents).2 := rfl
  have opens : (Work.write path contents m).2.opens = m.opens ++ [(path, .writing)] :=
    opens_observe _ m
  show Wrote _ _ _ _ ((((m.disk.write path contents).1).map fun _ => path).mapError _) _
  cases result : (m.disk.write path contents).1 with
  | ok _ =>
    refine ⟨[], .written rfl (List.prefix_refl _) ?_, opens, nofun⟩
    rw [disk, ← result]
  | error e =>
    refine ⟨[(path, e)], .exhausted ⟨result, disk⟩ rfl, opens, fun e' failed => ?_⟩
    exact (Except.error.inj failed).symm

/-- A loop of attempts tries one path so many times. -/
theorem ensures_writeAttempts_inTurn (path : Path) (text : String) (attempt left : Nat)
    (last : Failure) :
    (writeAttempts path text attempt left last).Ensures m fun result v =>
      Wrote (Text.utf8 text) (List.replicate left path) last m (result.map fun _ => path) v := by
  induction left generalizing m attempt last with
  | zero => exact .nothing last m
  | succ left ih =>
    rw [List.replicate_succ, ← List.singleton_append]
    refine (ensures_write_once path _ last).bind fun result m₁ once => ?_
    cases result with
    | ok _ => exact once.widen
    | error e =>
      refine (ensures_log_unopened _ _).bind fun _ m₂ ⟨disk, opens⟩ => ?_
      exact (ih _ _).mono fun _ _ more => once.orElse (more.of_unopened disk opens)

/-- The loop over directories tries the paths of one after those of the other. -/
theorem ensures_writeInto_inTurn (r : CrashReporter) (report : String) (directories : List Path)
    (last : Failure) :
    (r.writeInto report directories last).Ensures m fun result v =>
      Wrote (Text.utf8 report)
        (directories.flatMap fun directory =>
          List.replicate r.attempts (reportFile directory)) last m result v := by
  induction directories generalizing m last with
  | nil => exact .nothing last m
  | cons directory rest ih =>
    rw [List.flatMap_cons]
    refine (ensures_log_unopened _ _).bind fun _ m₁ ⟨disk, opens⟩ => ?_
    refine (ensures_writeAttempts_inTurn _ report 1 r.attempts .noStorage).bind
      fun result m₂ first => ?_
    have some : List.replicate r.attempts (reportFile directory) ≠ [] := by
      rw [Ne, List.replicate_eq_nil_iff]
      exact Nat.ne_of_gt r.attempts_pos
    have first := (first.of_ne_nil some last).of_unopened disk opens
    cases result with
    | ok _ => exact first.widen
    | error e => exact (ih e).mono fun _ _ more => first.orElse more

end Attempts

/-! ## The report -/

/-- The files that a report may be written to, in order, each as often as it may be tried. -/
def CrashReporter.plan (r : CrashReporter) (t : Tree) : List Path :=
  ((r.sharedDir.toList.filter t.isDirectory).flatMap fun directory =>
    List.replicate r.attempts (reportFile directory)) ++
  List.replicate r.attempts (reportFile r.fallbackDir)

/-- The fallback directory is the last to be tried. -/
theorem CrashReporter.exists_plan_eq (r : CrashReporter) (t : Tree) :
    ∃ before, r.plan t = before ++ [reportFile r.fallbackDir] := by
  obtain ⟨left, attempts⟩ := Nat.exists_eq_add_one.2 r.attempts_pos
  rw [plan, attempts, List.replicate_succ', ← List.append_assoc]
  exact ⟨_, rfl⟩

/-- A whole report is written along one plan. -/
theorem ensures_writeAggregate_inTurn {m : Machine} (r : CrashReporter) (report : String) :
    (r.writeAggregate report).Ensures m fun result v =>
      Wrote (Text.utf8 report) (r.plan m.disk.tree) .noStorage m result v := by
  have plan_eq : r.plan m.disk.tree =
      (r.sharedDir.toList.filter m.disk.tree.isDirectory ++ [r.fallbackDir]).flatMap fun directory =>
        List.replicate r.attempts (reportFile directory) := by
    rw [CrashReporter.plan, List.flatMap_append, List.flatMap_singleton]
  rw [plan_eq]
  exact ensures_askTree_bind.2 (ensures_writeInto_inTurn r report _ _)

/-- A report is written to the first path of the plan that takes it, after all before it have
refused, and no other file changes. Or all refuse, which changes no file, and the failure is that of
the last attempt in the fallback directory. No path but those is opened. -/
theorem writeAggregate_follows_plan (r : CrashReporter) (report : String) (m : Machine) :
    let contents := Text.utf8 report
    let plan := r.plan m.disk.tree
    let after := (r.writeAggregate report m).2
    match (r.writeAggregate report m).1 with
    | .ok path => ∃ refusals d, m.disk.Refuses contents refusals d ∧
        d.write path contents = (.ok (), after.disk) ∧
        refusals.map Prod.fst ++ [path] <+: plan ∧
        after.opens = m.opens ++
          (refusals.map Prod.fst ++ [path]).map (fun path => (path, .writing)) ∧
        after.disk.tree.read path = .ok contents ∧
        ∀ loc, m.disk.tree.walk path ≠ .ok loc →
          after.disk.tree.node? loc = m.disk.tree.node? loc
    | .error e => ∃ refusals cause, m.disk.Refuses contents refusals after.disk ∧
        refusals.map Prod.fst = plan ∧
        after.opens = m.opens ++ plan.map (fun path => (path, .writing)) ∧
        refusals.getLast? = some (reportFile r.fallbackDir, cause) ∧
        e = .io (reportFile r.fallbackDir) cause ∧ after.disk.tree = m.disk.tree := by
  intro contents plan after
  have wrote : Wrote contents plan .noStorage m (r.writeAggregate report m).1 after :=
    ensures_writeAggregate_inTurn r report
  obtain ⟨refusals, ends, opens, failure⟩ := wrote
  revert ends opens failure
  cases (r.writeAggregate report m).1 with
  | ok path =>
    intro ends opens _
    cases ends with
    | written refuses next takes =>
      have written := (Disk.written_of_ok takes).after refuses.blocked.1
      obtain ⟨-, reads, -⟩ := Tree.read_write written.1
      exact ⟨refusals, _, refuses, takes, next, opens, reads,
        fun loc other => Tree.node?_write_of_ne written.1 other⟩
  | error e =>
    intro ends opens failure
    cases ends with
    | exhausted refuses all =>
      obtain ⟨before, last⟩ := r.exists_plan_eq m.disk.tree
      obtain ⟨cause, final, reported⟩ := Failure.exists_afterRefusals (all.trans last)
      refine ⟨refusals, cause, refuses, all, ?_, final, ?_, refuses.blocked.1.1⟩
      · rw [opens, ← all]
        simp only [Except.toOption, Option.toList_none, List.append_nil]
      · rw [failure e rfl, reported]

end EmuFront
