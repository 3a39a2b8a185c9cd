import EmuFront.Proofs.Ensures
import EmuFront.Proofs.ReporterRuns

/-!
# Reports of a native host

All bridges of a host share one machine, but each has a reporter of its own. A bridge hands over one
report at most, and tells at most once that there are artifacts. The host as a whole keeps to
neither: its next bridge starts anew.
-/

namespace EmuFront.Native

open Storage

/-! ## Histories -/

/-- What a host does about crash reports, and what others do to the disk in between. -/
inductive HostStep
  /-- Makes a front end of a configuration. -/
  | make (config : Config) (engine : EngineModel)
  /-- Makes a bridge as native code asks for it. -/
  | makeBridge (engine : EngineModel) (params : Option BridgeParams)
  | destroy (handle : Handle)
  | checkCrashes (handle : Handle)
  | send (handle : Handle) (sender : Sender)
  | discard (handle : Handle)
  | others (change : Disk → Disk)

namespace HostStep

/-- The call of a reporter that a step is, and the handle it is made on. -/
def asks? : HostStep → Option (Handle × ReporterOp)
  | checkCrashes handle => some (handle, .checkOnce)
  | send handle sender => some (handle, .transmit sender)
  | discard handle => some (handle, .discard)
  | _ => none

/-- The handle of the bridge whose reporter is called. -/
def bridge? (s : HostStep) : Handle := s.asks?.bind Prod.fst

end HostStep

/-- The host with one more bridge. -/
def NativeHost.add (h : NativeHost) (config : Config) (engine : EngineModel) : NativeHost :=
  { h with bridges := h.bridges ++ [some ⟨.new config ⟨h.bridges.length, .native⟩, engine⟩] }

/-- Performs a step. -/
def HostStep.perform : HostStep → HostAct Result
  | make config engine => do
    modify fun h => h.add config engine
    return .nothing
  | makeBridge engine params => do
    let _ ← newBridge engine params
    return .nothing
  | destroy handle => do
    destroyBridge handle
    return .nothing
  | checkCrashes handle => EntryOp.checkCrashes.call handle
  | send handle sender => number handle (-1) (transmitWith sender.send)
  | discard handle => EntryOp.discard.call handle
  | others change => do
    HostAct.work (Work.onDisk fun d => ((), change d))
    return .nothing

/-- A step that was performed, with its result and the reports that it handed over. -/
structure Deed where
  step : HostStep
  result : Result
  handed : List Path

namespace Deed

/-- How many reports a step has handed over. -/
def reports (d : Deed) : Nat := d.handed.length

/-- Whether a step has told that there are artifacts, as a number. -/
def alarms (d : Deed) : Nat :=
  match d.step with
  | .checkCrashes _ => if d.result = .truth true then 1 else 0
  | _ => 0

/-- What a step counts for the bridge behind a handle. -/
def share (count : Deed → Nat) (handle : Nat) (d : Deed) : Nat :=
  if d.step.bridge? = some handle then count d else 0

/-- What steps count together. -/
def total (count : Deed → Nat) : List Deed → Nat
  | [] => 0
  | d :: rest => count d + total count rest

end Deed

/-- Performs a step, and tells what came of it. -/
def HostStep.run (s : HostStep) (h : NativeHost) : Deed × NativeHost :=
  let v := (s.perform h).2
  (⟨s, (s.perform h).1, v.machine.handOvers.drop h.machine.handOvers.length⟩, v)

/-- Performs steps in order. -/
def HostStep.runAll : List HostStep → NativeHost → List Deed × NativeHost
  | [], h => ([], h)
  | s :: rest, h =>
    let (deed, v) := s.run h
    let (deeds, u) := runAll rest v
    (deed :: deeds, u)

/-! ## What a bridge may still do -/

/-- What is left of the one use of a bridge that a flag of its reporter stands for. -/
def NativeHost.left (used : CrashReporter → Bool) (handle : Nat) (h : NativeHost) : Nat :=
  match h.bridges[handle]? with
  | none => 1
  | some none => 0
  | some (some b) => if used b.front.reporter then 0 else 1

section Left
variable {used : CrashReporter → Bool} {handle i : Nat} {h : NativeHost} {m : Machine}

/-- A bridge may use its reporter once. -/
theorem NativeHost.left_le_one : h.left used handle ≤ 1 := by
  unfold left
  split
  · exact Nat.le_refl 1
  · exact Nat.zero_le 1
  · split <;> omega

/-- A bridge that is yet to be made may still do everything. -/
theorem NativeHost.left_add {config : Config} {engine : EngineModel}
    (unused : used config.reporter = false) :
    (h.add config engine).left used handle = h.left used handle := by
  unfold left add
  rcases Nat.lt_trichotomy handle h.bridges.length with before | rfl | after
  · rw [List.getElem?_append_left before]
  · simp [FrontEnd.new, unused]
  · have outside : h.bridges.length ≤ handle := Nat.le_of_lt after
    rw [List.getElem?_append_right outside, List.getElem?_eq_none outside,
      List.getElem?_eq_none (by simp; omega)]

/-- A bridge that is destroyed has nothing left. -/
theorem NativeHost.left_set_none_le :
    NativeHost.left used handle ⟨m, h.bridges.set i none⟩ ≤ h.left used handle := by
  by_cases same : i = handle
  · subst same
    unfold left
    by_cases inside : i < h.bridges.length
    · simp [List.getElem?_set_self inside]
    · simp [inside]
  · unfold left
    rw [List.getElem?_set_ne same]

/-- What a bridge has left is told by the flag of its reporter. -/
theorem NativeHost.left_of_made {b : Bridge} (made : h.bridges[handle]? = some (some b)) :
    h.left used handle = if used b.front.reporter then 0 else 1 := by
  unfold left
  rw [made]

theorem NativeHost.left_set_self {b b' : Bridge} (made : h.bridges[handle]? = some (some b)) :
    NativeHost.left used handle ⟨m, h.bridges.set handle (some b')⟩
      = if used b'.front.reporter then 0 else 1 :=
  left_of_made (List.getElem?_set_self (List.getElem?_eq_some_iff.1 made).1)

/-- A change of one bridge leaves the others what they had. -/
theorem NativeHost.left_set_ne {b : Option Bridge} (other : i ≠ handle) :
    NativeHost.left used handle ⟨m, h.bridges.set i b⟩ = h.left used handle := by
  unfold left
  rw [List.getElem?_set_ne other]

end Left

/-! ## What a step does -/

/-- What a call of a reporter makes of a host: nothing without a bridge. -/
inductive Asked (op : ReporterOp) (handle : Handle) (h : NativeHost) : NativeHost → Prop
  | absent (missing : h.bridge? handle = none) : Asked op handle h h
  | done {i : Nat} {b b' : Bridge} {m : Machine} (behind : handle = some i)
      (made : h.bridges[i]? = some (some b))
      (leaves : op.Leaves b.front.reporter h.machine b'.front.reporter m) :
      Asked op handle h ⟨m, h.bridges.set i (some b')⟩

section Asking
variable {α : Type} {op : ReporterOp} {handle : Handle} {h : NativeHost}

/-- Does a call of a reporter with the front end of a world. -/
def Asks (op : ReporterOp) (part : Act α) : Prop := ∀ w : World,
  part.Ensures w (fun _ v => op.Leaves w.front.reporter w.machine v.front.reporter v.machine)
    fun v => op.Leaves w.front.reporter w.machine v.front.reporter v.machine

/-- A call with a handle reaches the bridge behind it, or none. -/
theorem asked_withBridge {part : Act α} (asks : Asks op part) (fallback : α) :
    Asked op handle h (HostAct.withBridge handle fallback part h).2 := by
  cases handle with
  | none => exact .absent rfl
  | some i =>
    unfold HostAct.withBridge
    cases found : h.bridge? (some i) with
    | none => exact .absent found
    | some b =>
      have made : h.bridges[i]? = some (some b) := Option.join_eq_some_iff.1 found
      exact .done rfl made (asks ⟨h.machine, b.front, b.engine, []⟩).after

/-- What a reporter does on the machine of a front end, the front end does. -/
theorem asks_withReporter {part : CrashReporter → Work (α × CrashReporter)}
    (leaves : ∀ r m, op.Leaves r m (part r m).1.2 (part r m).2) :
    Asks op (Act.withReporter part) := fun _ => leaves _ _

/-- What follows a call may hand nothing over and leave the reporter as it is. -/
theorem Asks.andThen {β : Type} {part : Act α} {next : α → Act β} (asks : Asks op part)
    (rest : ∀ a w, (next a).Ensures w
      (fun _ v => v.front.reporter = w.front.reporter ∧ v.machine.handOvers = w.machine.handOvers)
      fun _ => False) : Asks op (part >>= next) := by
  intro w
  refine (asks w).bind (fun a v leaves => ?_) fun _ leaves => leaves
  refine (rest a v).mono (fun _ u kept => ?_) fun _ => False.elim
  rw [kept.1]
  exact leaves.of_handOvers kept.2

/-- Sending asks the reporter to transmit, and only logs what comes of it. -/
theorem asks_transmitWith (s : Sender) : Asks (.transmit s) (transmitWith s.send) := by
  have sends : Asks (.transmit s) (Act.withReporter fun r => r.transmit s.send) := by
    refine asks_withReporter fun r m => ?_
    have leaves := (ReporterOp.transmit s).leaves_perform (r := r) (m := m)
    rw [Work.Ensures, ReporterOp.perform_transmit] at leaves
    exact leaves
  refine sends.andThen fun result w => ?_
  cases result with
  | ok _ => exact ⟨rfl, rfl⟩
  | error e => exact ⟨rfl, (Work.ensures_log_kept _ _).2⟩

theorem asks_checkOnce :
    Asks .checkOnce (do return (← Act.withReporter CrashReporter.checkOnce).isSome) := by
  have checks : Asks .checkOnce (Act.withReporter CrashReporter.checkOnce) :=
    asks_withReporter fun _ _ => ReporterOp.checkOnce.leaves_perform
  exact checks.andThen fun _ _ => ⟨rfl, rfl⟩

theorem asks_discard :
    Asks .discard (do return (← Act.work (← get).front.reporter.discard) : Act Int) :=
  fun _ => ReporterOp.discard.leaves_perform

end Asking

/-! ## Single steps -/

/-- A flag that a reporter is made without, and that stays set. -/
structure Lasting (used : CrashReporter → Bool) : Prop where
  fresh : ∀ config : Config, used config.reporter = false
  kept : ∀ {op : ReporterOp} {r r' : CrashReporter} {m m' : Machine}, op.Leaves r m r' m' →
    used r = true → used r' = true

/-- The guard of a reporter is never let go. -/
theorem lasting_sent : Lasting CrashReporter.sent :=
  ⟨fun _ => rfl, fun leaves sent => leaves.sent.2 (.inl sent)⟩

/-- Nor is the flag that artifacts were looked for. -/
theorem lasting_checked : Lasting CrashReporter.checked :=
  ⟨fun _ => rfl, fun leaves checked => leaves.checked.2 (.inl checked)⟩

section Steps
variable {used : CrashReporter → Bool} {op : ReporterOp} {handle : Handle} {h v : NativeHost}

/-- A call only takes from what the bridges may do. -/
theorem Asked.left_le (asked : Asked op handle h v) (lasting : Lasting used) (i : Nat) :
    v.left used i ≤ h.left used i := by
  cases asked with
  | absent => exact Nat.le_refl _
  | @done j b b' m _ made leaves =>
    by_cases same : j = i
    · subst same
      rw [NativeHost.left_set_self made, NativeHost.left_of_made made]
      have kept := lasting.kept leaves
      split <;> split <;> simp_all
    · rw [NativeHost.left_set_ne same]

/-- A null handle is ignored. -/
theorem Asked.eq_of_null (asked : Asked op none h v) : v = h := by
  cases asked with
  | absent => rfl
  | done behind => cases behind

/-- A call only adds to the reports handed over. -/
theorem Asked.handOvers (asked : Asked op handle h v) :
    h.machine.handOvers <+: v.machine.handOvers := by
  cases asked with
  | absent => exact List.prefix_rfl
  | done _ _ leaves =>
    obtain kept | ⟨-, -, report, handed⟩ := leaves.handOvers
    · exact ⟨[], by rw [List.append_nil, kept]⟩
    · exact ⟨[report], handed.symm⟩

/-- A report uses up what its bridge may hand over. -/
theorem Asked.reports_le {i : Nat} {reports : List Path} (asked : Asked op (some i) h v)
    (adds : v.machine.handOvers = h.machine.handOvers ++ reports) :
    reports.length + v.left CrashReporter.sent i ≤ h.left CrashReporter.sent i := by
  have rest := asked.left_le lasting_sent i
  cases asked with
  | absent =>
    rw [List.self_eq_append_right.1 adds, List.length_nil, Nat.zero_add]
  | done behind made leaves =>
    cases behind
    obtain kept | ⟨unsent, sent, report, handed⟩ := leaves.handOvers
    · have silent : reports = [] := List.self_eq_append_right.1 (kept.symm.trans adds)
      rw [silent, List.length_nil, Nat.zero_add]
      exact rest
    · have one : reports = [report] := List.append_cancel_left (adds.symm.trans handed)
      rw [NativeHost.left_set_self made, NativeHost.left_of_made made, one, sent, unsent]
      exact Nat.le_refl 1

/-- A bridge tells that there are artifacts only where its reporter looks for the first time. -/
theorem unchecked_of_alarm {i : Nat}
    (alarm : (EntryOp.checkCrashes.call (some i) h).1 = .truth true) :
    ∃ b, h.bridges[i]? = some (some b) ∧ b.front.reporter.checked = false := by
  have told : (HostAct.withBridge (some i) false
      (do return (← Act.withReporter CrashReporter.checkOnce).isSome) h).1 = true :=
    Result.truth.inj alarm
  unfold HostAct.withBridge at told
  cases found : h.bridge? (some i) with
  | none =>
    rw [found] at told
    cases told
  | some b =>
    rw [found] at told
    obtain ⟨artifacts, first⟩ : ∃ artifacts,
        (b.front.reporter.checkOnce h.machine).1.1 = some artifacts :=
      Option.isSome_iff_exists.1 told
    obtain ⟨-, -, -, looks⟩ :=
      CrashReporter.ensures_checkOnce (r := b.front.reporter) (m := h.machine)
    exact ⟨b, Option.join_eq_some_iff.1 found, ((looks artifacts).1 first).1⟩

/-- An alarm uses up what its bridge may tell. -/
theorem Asked.alarm_le {i : Nat} (asked : Asked .checkOnce (some i) h v)
    (first : ∃ b, h.bridges[i]? = some (some b) ∧ b.front.reporter.checked = false) :
    1 + v.left CrashReporter.checked i ≤ h.left CrashReporter.checked i := by
  obtain ⟨b, made, unchecked⟩ := first
  cases asked with
  | absent missing =>
    rw [NativeHost.bridge?, made] at missing
    cases missing
  | @done _ c b' m behind made' leaves =>
    cases behind
    obtain rfl : b = c := by simpa using made.symm.trans made'
    rw [NativeHost.left_set_self made, NativeHost.left_of_made made, leaves.checked.2 (.inr rfl),
      unchecked]
    exact Nat.le_refl 1

/-- What neither asks a reporter for anything nor lets a bridge do anything more. -/
structure Plain (h v : NativeHost) : Prop where
  handOvers : v.machine.handOvers = h.machine.handOvers
  left : ∀ {used : CrashReporter → Bool}, Lasting used → ∀ i, v.left used i ≤ h.left used i

/-- A bridge that is made asks for nothing yet. -/
theorem NativeHost.plain_add (h : NativeHost) (config : Config) (engine : EngineModel) :
    Plain h (h.add config engine) :=
  ⟨rfl, fun lasting _ => Nat.le_of_eq (NativeHost.left_add (lasting.fresh config))⟩

/-- Routine work is done past all bridges. -/
theorem HostAct.plain_work {α : Type} {part : Work α} (routine : part.Routine) (h : NativeHost) :
    Plain h (HostAct.work part h).2 :=
  ⟨routine.ensures_handOvers, fun _ _ => Nat.le_refl _⟩

theorem Plain.refl (h : NativeHost) : Plain h h := ⟨rfl, fun _ _ => Nat.le_refl _⟩

theorem Plain.trans {u : NativeHost} (first : Plain h v) (second : Plain v u) : Plain h u :=
  ⟨second.handOvers.trans first.handOvers,
    fun lasting i => (second.left lasting i).trans (first.left lasting i)⟩

namespace HostStep

/-- Each step that asks a reporter for something asks just that. -/
theorem asked_perform {s : HostStep} (asks : s.asks? = some (handle, op)) (h : NativeHost) :
    Asked op handle h (s.perform h).2 := by
  cases s with
  | make | makeBridge | destroy | others => cases asks
  | checkCrashes handle =>
    cases asks
    exact asked_withBridge asks_checkOnce false
  | send handle sender =>
    cases asks
    exact asked_withBridge (asks_transmitWith sender) (-1)
  | discard handle =>
    cases asks
    exact asked_withBridge asks_discard 0

/-- All other steps make, destroy or pass by bridges. -/
theorem plain_perform {s : HostStep} (asks : s.asks? = none) (h : NativeHost) :
    Plain h (s.perform h).2 := by
  cases s with
  | checkCrashes | send | discard => cases asks
  | make config engine => exact h.plain_add config engine
  | others change => exact HostAct.plain_work (.onDisk fun d => ((), change d)) h
  | makeBridge engine params =>
    show Plain h (newBridge engine params h).2
    cases params with
    | none => exact .refl h
    | some p =>
      unfold newBridge
      dsimp only
      cases dataDir : p.dataDir with
      | none => exact HostAct.plain_work (Work.routine_log _ _) h
      | some dataDir =>
        exact (HostAct.plain_work (Work.routine_log _ _) h).trans (NativeHost.plain_add _ _ _)
  | destroy handle =>
    show Plain h (destroyBridge handle h).2
    cases handle with
    | none => exact .refl h
    | some i =>
      simp only [destroyBridge, bind, StateT.bind, get, getThe, MonadStateOf.get, StateT.get, pure]
      cases h.bridge? (some i) with
      | none => exact .refl h
      | some b =>
        have removed : Plain h { h with bridges := h.bridges.set i none } :=
          ⟨rfl, fun _ _ => NativeHost.left_set_none_le⟩
        exact removed.trans (HostAct.plain_work (Work.routine_log _ _) _)

/-- No step gives a bridge anything back. -/
theorem left_run_le (lasting : Lasting used) (s : HostStep) (h : NativeHost) (i : Nat) :
    (s.run h).2.left used i ≤ h.left used i := by
  cases asks : s.asks? with
  | none => exact (plain_perform asks h).left lasting i
  | some ask => exact (asked_perform asks h).left_le lasting i

/-- A step only adds to what was handed over. -/
theorem handOvers_run (s : HostStep) (h : NativeHost) :
    (s.run h).2.machine.handOvers = h.machine.handOvers ++ (s.run h).1.handed := by
  refine (List.prefix_iff_eq_append.1 ?_).symm
  cases asks : s.asks? with
  | none =>
    have kept := (plain_perform asks h).handOvers
    exact ⟨[], by rw [List.append_nil]; exact kept.symm⟩
  | some ask => exact (asked_perform asks h).handOvers

/-- Each report uses up what its bridge may hand over. -/
theorem reports_run_le {s : HostStep} {i : Nat} (bridge : s.bridge? = some i) (h : NativeHost) :
    (s.run h).1.reports + (s.run h).2.left CrashReporter.sent i ≤ h.left CrashReporter.sent i := by
  obtain ⟨⟨_, op⟩, asks, rfl⟩ := Option.bind_eq_some_iff.1 bridge
  exact (asked_perform asks h).reports_le (s.handOvers_run h)

/-- Each alarm uses up what its bridge may tell. -/
theorem alarms_run_le {s : HostStep} {i : Nat} (bridge : s.bridge? = some i) (h : NativeHost) :
    (s.run h).1.alarms + (s.run h).2.left CrashReporter.checked i
      ≤ h.left CrashReporter.checked i := by
  have kept := left_run_le lasting_checked s h i
  cases s with
  | checkCrashes handle =>
    obtain rfl : handle = some i := bridge
    by_cases alarm : ((checkCrashes (some i)).run h).1.result = .truth true
    · have counted : ((checkCrashes (some i)).run h).1.alarms = 1 := if_pos alarm
      have asked := asked_perform (s := .checkCrashes (some i)) rfl h
      rw [counted]
      exact asked.alarm_le (unchecked_of_alarm alarm)
    · have silent : ((checkCrashes (some i)).run h).1.alarms = 0 := if_neg alarm
      rw [silent, Nat.zero_add]
      exact kept
  | _ => exact (Nat.zero_add _).trans_le kept

/-- Without a bridge nothing is handed over. -/
theorem reports_run_of_none {s : HostStep} (none : s.bridge? = none) (h : NativeHost) :
    (s.run h).1.reports = 0 := by
  have kept : (s.run h).2.machine.handOvers = h.machine.handOvers := by
    cases asks : s.asks? with
    | none => exact (plain_perform asks h).handOvers
    | some ask =>
      obtain ⟨handle, op⟩ := ask
      obtain rfl : handle = Option.none := by simpa [bridge?, asks] using none
      have same : (s.perform h).2 = h := (asked_perform asks h).eq_of_null
      exact congrArg (fun v => v.machine.handOvers) same
  have silent := List.self_eq_append_right.1 (kept.symm.trans (s.handOvers_run h))
  rw [Deed.reports, silent, List.length_nil]

/-- Without a bridge nothing is told. -/
theorem alarms_run_of_none {s : HostStep} (none : s.bridge? = none) (h : NativeHost) :
    (s.run h).1.alarms = 0 := by
  cases s with
  | checkCrashes handle =>
    obtain rfl : handle = Option.none := none
    rfl
  | _ => rfl

/-! ## Steps in order -/

variable {count : Deed → Nat}

/-- What weighs no more in each step than it takes off a measure weighs no more than the measure
in all steps together. -/
theorem total_runAll_le (measure : NativeHost → Nat)
    (step : ∀ (s : HostStep) (h : NativeHost), count (s.run h).1 + measure (s.run h).2 ≤ measure h)
    (steps : List HostStep) (h : NativeHost) : Deed.total count (runAll steps h).1 ≤ measure h := by
  induction steps generalizing h with
  | nil => exact Nat.zero_le _
  | cons s rest ih =>
    have first := step s h
    have others := ih (s.run h).2
    show count (s.run h).1 + Deed.total count (runAll rest (s.run h).2).1 ≤ measure h
    omega

/-- What uses up what a bridge may do happens once for the bridge at most. -/
theorem total_share_le (lasting : Lasting used)
    (uses : ∀ {s : HostStep} {i : Nat}, s.bridge? = some i → ∀ h : NativeHost,
      count (s.run h).1 + (s.run h).2.left used i ≤ h.left used i)
    (steps : List HostStep) (h : NativeHost) (i : Nat) :
    Deed.total (Deed.share count i) (runAll steps h).1 ≤ 1 := by
  refine (total_runAll_le (NativeHost.left used i) (fun s h => ?_) steps h).trans
    NativeHost.left_le_one
  unfold Deed.share
  split
  · exact uses ‹_› h
  · rw [Nat.zero_add]
    exact left_run_le lasting s h i

/-- Where only one bridge is asked, it counts for all. -/
theorem total_share_eq (absent : ∀ {s : HostStep}, s.bridge? = none → ∀ h, count (s.run h).1 = 0)
    {steps : List HostStep} {i : Nat} (only : ∀ s ∈ steps, ∀ j, s.bridge? = some j → j = i)
    (h : NativeHost) :
    Deed.total (Deed.share count i) (runAll steps h).1 = Deed.total count (runAll steps h).1 := by
  induction steps generalizing h with
  | nil => rfl
  | cons s rest ih =>
    obtain ⟨first, others⟩ := List.forall_mem_cons.1 only
    have counted : Deed.share count i (s.run h).1 = count (s.run h).1 := by
      show (if s.bridge? = some i then count (s.run h).1 else 0) = _
      cases bridge : s.bridge? with
      | none => simp [absent bridge]
      | some j => simp [first j bridge]
    exact congrArg₂ (· + ·) counted (ih others _)

/-- The reports handed over in a run are those of its steps together. -/
theorem length_handOvers_runAll (steps : List HostStep) (h : NativeHost) :
    (runAll steps h).2.machine.handOvers.length
      = h.machine.handOvers.length + Deed.total Deed.reports (runAll steps h).1 := by
  induction steps generalizing h with
  | nil => rfl
  | cons s rest ih =>
    show (runAll rest (s.run h).2).2.machine.handOvers.length = h.machine.handOvers.length
      + ((s.run h).1.reports + Deed.total Deed.reports (runAll rest (s.run h).2).1)
    rw [ih, s.handOvers_run, List.length_append, Deed.reports, Nat.add_assoc]

end HostStep
end Steps

/-! ## Runs -/

/-- A run of a host that has made no bridge yet. -/
structure HostRun where
  machine : Machine
  steps : List HostStep

namespace HostRun

open HostStep

/-- What came of the steps, on a machine on which nothing had happened before, and the host
afterwards. -/
def outcome (run : HostRun) : List Deed × NativeHost :=
  HostStep.runAll run.steps (.new { run.machine with timeline := [] })

def deeds (run : HostRun) : List Deed := run.outcome.1

/-- The reports that were handed over in the process, in order. -/
def handOvers (run : HostRun) : List Path := run.outcome.2.machine.handOvers

/-- A bridge hands over one report at most, and tells at most once that there are artifacts. So the
process as a whole keeps to it where only one bridge is ever asked. -/
theorem each_bridge_once (run : HostRun) (handle : Nat) :
    Deed.total (Deed.share Deed.reports handle) run.deeds ≤ 1 ∧
      Deed.total (Deed.share Deed.alarms handle) run.deeds ≤ 1 ∧
      ((∀ s ∈ run.steps, ∀ i, s.bridge? = some i → i = handle) →
        run.handOvers.length ≤ 1 ∧ Deed.total Deed.alarms run.deeds ≤ 1) := by
  let start : NativeHost := .new { run.machine with timeline := [] }
  have reports := total_share_le lasting_sent reports_run_le run.steps start handle
  have alarms := total_share_le lasting_checked alarms_run_le run.steps start handle
  refine ⟨reports, alarms, fun only => ⟨?_, ?_⟩⟩
  · rw [total_share_eq reports_run_of_none only] at reports
    have total : run.handOvers.length = 0 + _ := length_handOvers_runAll run.steps start
    rw [total, Nat.zero_add]
    exact reports
  · rw [total_share_eq alarms_run_of_none only] at alarms
    exact alarms

/-- A host makes a bridge over a dump and a shared directory, looks for artifacts and sends in vain.
Then it destroys the bridge and does the same with another, which sends the report. -/
def oneAfterAnother : HostRun where
  machine := .new <| Disk.empty.actAll
    [.putFile ⟨"data/a.dmp"⟩ (Text.utf8 "dump"), .makeDirectory ⟨"out"⟩]
  steps :=
    let params : BridgeParams :=
      ⟨some (Text.utf8 "data"), none, some (Text.utf8 "out"), none, none, none, none, .silent⟩
    [.makeBridge ⟨.empty, []⟩ (some params), .checkCrashes (some 0),
      .send (some 0) (.native false), .destroy (some 0),
      .makeBridge ⟨.empty, []⟩ (some params), .checkCrashes (some 1),
      .send (some 1) (.native true)]

/-- The process hands over two reports and tells twice that there are artifacts. -/
theorem exists_two_reports :
    oneAfterAnother.handOvers = [⟨"out/emu_crash.txt"⟩, ⟨"out/emu_crash.txt"⟩] ∧
      Deed.total Deed.alarms oneAfterAnother.deeds = 2 := by
  decide +kernel

end HostRun
end EmuFront.Native
