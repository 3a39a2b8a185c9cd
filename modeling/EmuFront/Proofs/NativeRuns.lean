import EmuFront.Proofs.EntryPassage
import EmuFront.Proofs.NativeMessages

/-!
# Runs of a native host

A host, an app and others act in one process. A front end gets its paths from texts without a NUL,
and entry points take 32-bit numbers. So whatever is done, each message of a front end to its engine
becomes one call of a native function that says the same.
-/

namespace EmuFront.Native

open Act Storage

/-! ## Runs -/

/-- What is done in a process. -/
inductive NativeStep
  | make (engine : EngineModel) (params : Option BridgeParams)
  | destroy (handle : Handle)
  /-- A native host calls an entry point. -/
  | enter (handle : Handle) (op : EntryOp)
  /-- An app calls an entry point. -/
  | enterApp (handle : Handle) (op : App.AppOp)
  | setReply (handle : Handle) (flags : TouchFlags)
  /-- A host reports a failure that it caught itself. -/
  | reportCrash (kind : Int32) (trace : Option Text.Bytes)
  /-- A failure is reported within the process, in any words. -/
  | report (kind : CrashKind) (trace : String)
  | panic (p : Panic)
  /-- Others change the disk. -/
  | others (change : Disk → Disk)

namespace NativeStep

def perform : NativeStep → HostAct Unit
  | make engine params => do
    let _ ← newBridge engine params
  | destroy handle => destroyBridge handle
  | enter handle op => do
    let _ ← op.call handle
  | enterApp handle op => do
    let _ ← op.call handle
  | setReply handle flags => Native.setReply handle flags
  | reportCrash kind trace => do
    let _ ← Native.reportCrash kind trace
  | report kind trace => do
    let _ ← HostAct.work (Work.report kind trace)
  | panic p => HostAct.work (Work.onPanic p)
  | others change => HostAct.work (Work.onDisk fun d => ((), change d))

def performAll : List NativeStep → HostAct Unit
  | [] => pure ()
  | s :: rest => do
    s.perform
    performAll rest

/-- The engine that is handed over, if a step makes a bridge to one, does only what is allowed. -/
def Allows (allows : Op → Prop) : NativeStep → Prop
  | make engine _ => engine.Allows allows
  | _ => True

variable {allows : Op → Prop}

theorem passes_perform (touches : ∀ action count index xs ys,
      allows (.host (.touch (batchOf action count index xs ys)))) {s : NativeStep}
    (ready : s.Allows allows) : s.perform.Passes allows := by
  cases s with
  | make engine params => exact (passes_newBridge ready params).result _
  | destroy handle => exact passes_destroyBridge handle
  | enter handle op => exact (op.passes_call touches handle).result _
  | enterApp handle op => exact (op.passes_call touches handle).result _
  | setReply handle flags => exact passes_setReply handle flags
  | reportCrash kind trace =>
    exact (HostAct.passes_work fun w => Work.passesFrom_report _ _ w).result _
  | report kind trace => exact (HostAct.passes_work fun w => Work.passesFrom_report _ _ w).result _
  | panic p => exact HostAct.passes_work fun w => Work.passesFrom_onPanic p w
  | others change =>
    exact HostAct.passes_work fun _ => (Work.Routine.onDisk _).plain.passesFrom

/-- Steps in order make a passage. -/
theorem passes_performAll (touches : ∀ action count index xs ys,
      allows (.host (.touch (batchOf action count index xs ys)))) {steps : List NativeStep}
    (ready : ∀ s ∈ steps, s.Allows allows) : (performAll steps).Passes allows := by
  induction steps with
  | nil => exact HostAct.passes_pure ()
  | cons s rest ih =>
    obtain ⟨first, others⟩ := List.forall_mem_cons.1 ready
    intro h bridges
    have passage := passes_perform touches first h bridges
    exact passage.trans (ih others _ (passage.allows bridges))

end NativeStep

/-- A run of a process: its disk at first, and what is done in order. -/
structure NativeRun where
  disk : Disk
  steps : List NativeStep

namespace NativeRun

/-- The process after the run. -/
def final (run : NativeRun) : NativeHost :=
  (NativeStep.performAll run.steps (.new (.new run.disk))).2

/-- All that happened in the run. -/
def timeline (run : NativeRun) : List Event := run.final.machine.timeline

end NativeRun

/-! ## Hosts without a NUL -/

/-- A host in which neither a front end nor the capture knows a path with a NUL. -/
structure NativeHost.NulFree (h : NativeHost) : Prop where
  bridges : ∀ b : Bridge, some b ∈ h.bridges → b.front.NulFree
  capture : ∀ c, h.machine.capture = some c → c.NulFree

/-- The front end of a bridge starts without a NUL. -/
theorem nulFree_new (p : BridgeParams) (dataDir : Text.Bytes) {engine : EngineRef}
    (native : engine.boundary = .native) : (FrontEnd.new (p.config dataDir) engine).NulFree := by
  have free := nulFree_textOf
  obtain ⟨_, home, shared, _, _, _, _, _⟩ := p
  refine ⟨native, ?_, ?_, fun _ => nofun⟩
  · cases home <;> cases shared <;> exact free dataDir
  · cases home with
    | none => cases shared <;> exact free dataDir
    | some home => cases shared <;> exact free home

/-- In a passage of a host without a NUL, every message is taken over to native code, and no NUL comes
up. -/
theorem HostPassage.rendered {h v : NativeHost} (passage : HostPassage Op.Enterable h v)
    (free : h.NulFree) : v.NulFree ∧ h.machine.Adds Rendered v.machine := by
  induction passage with
  | refl h => exact ⟨free, .refl .nil _⟩
  | trans _ _ first rest =>
    obtain ⟨mid, before⟩ := first free
    obtain ⟨last, after⟩ := rest mid
    exact ⟨last, before.trans .append after⟩
  | @within _ h i b w made passage =>
    have start : World.NulFree ⟨h.machine, b.front, b.engine, []⟩ :=
      ⟨free.bridges b (List.mem_of_getElem? made), free.capture⟩
    obtain ⟨after, changed⟩ := passage.rendered start
    refine ⟨⟨forall_bridges_set free.bridges i ?_, after.capture⟩, changed⟩
    rintro _ ⟨⟩
    exact after.front
  | @work h m passage =>
    -- work on the machine does not depend on the front end that it is done for
    let front := FrontEnd.new (.new ⟨""⟩) ⟨0, .native⟩
    have start : World.NulFree ⟨h.machine, front, ⟨.empty, []⟩, []⟩ :=
      ⟨⟨rfl, by simp [front, FrontEnd.new, Config.new, Text.NulFree],
        by simp [front, FrontEnd.new, Config.new, Text.NulFree], fun _ => nofun⟩, free.capture⟩
    obtain ⟨after, changed⟩ := (passage front ⟨.empty, []⟩).rendered start
    exact ⟨⟨free.bridges, after.capture⟩, changed⟩
  | @make h p dataDir engine ready =>
    refine ⟨⟨forall_bridges_add free.bridges ?_, free.capture⟩, .refl .nil _⟩
    exact nulFree_new p dataDir rfl
  | @destroy h i =>
    exact ⟨⟨forall_bridges_set free.bridges i (by simp), free.capture⟩, .refl .nil _⟩

namespace NativeRun

/-- A run whose engines do only what is allowed makes a passage. -/
theorem passage {allows : Op → Prop} (touches : ∀ action count index xs ys,
      allows (.host (.touch (batchOf action count index xs ys)))) (run : NativeRun)
    (ready : ∀ s ∈ run.steps, s.Allows allows) :
    HostPassage allows (.new (.new run.disk)) run.final :=
  NativeStep.passes_performAll touches ready _ fun _ => nofun

end NativeRun

namespace NativeRun

/-- Where engines ask of front ends only what native code can ask, each message of a front end to its
engine becomes one call of a native function that says the same, in order. What the engine replies to
a touch comes back unchanged. -/
theorem messages_rendered (run : NativeRun) (enterable : ∀ s ∈ run.steps, s.Allows Op.Enterable) :
    Rendered run.timeline ∧
      ∀ depth batch (w : World), w.front.session.state.graphicsReady = true →
        w.front.session.state.stack = [] →
        (FrontEnd.touch (tellWithin depth) batch).Ensures w
          (fun outcome _ => outcome.flags = w.engine.reply) fun _ => True := by
  have passage := run.passage index_batchOf_lt enterable
  have start : NativeHost.NulFree (.new (.new run.disk)) := ⟨fun _ => nofun, fun _ => nofun⟩
  obtain ⟨-, added, timeline, rendered⟩ := passage.rendered start
  constructor
  · rw [NativeRun.timeline, timeline]
    exact rendered
  · intro depth batch w ready empty
    have any : w.Allows fun _ => True := fun _ _ _ _ => trivial
    refine (FrontEnd.ensures_touch depth batch any ready empty).mono ?_ fun _ _ => trivial
    rintro _ _ ⟨rfl, -⟩
    rfl

/-- A run in which an engine, told that graphics are ready, makes a touch of more pointers than there
are coordinates, and in which a failure comes up whose text holds a NUL. -/
def failing : NativeRun where
  disk := .empty
  steps := [
    .make ⟨.empty, [⟨.graphicsReady, [.host (.touch (batchOf 5 40 (-7) [.zero] [.zero]))]⟩]⟩
      (some ⟨some [100, 97, 116, 97], none, none, none, none, none, none, .silent⟩),
    .enter (some 0) (.create true none),
    .enter (some 0) (.graphicsReady 800 480),
    .report .panic "broken\x00here"]

/-- The text of the failure is cut, and nothing else. -/
theorem messages_rendered_failing :
    (crossingsOf failing.timeline).map Prod.snd =
        [.create "data" .silent, .graphicsReady ⟨800, 480⟩, .touch 5 1 0 [.zero] [.zero],
          .pause false, .uncaughtFailure "data"
            ("\n\n\n\nDevice sample rate:0\nDevice mono buffer size:0\n" ++
              "Device stereo buffer size:0\npanic\nbroken")] ∧
      Rendered failing.timeline := by
  have enterable : ∀ s ∈ failing.steps, s.Allows Op.Enterable := by
    have touch : Op.Enterable (.host (.touch (batchOf 5 40 (-7) [.zero] [.zero]))) :=
      index_batchOf_lt ..
    intro s member
    simp only [failing, List.mem_cons, List.not_mem_nil, or_false] at member
    obtain rfl | rfl | rfl | rfl := member
    · simpa [NativeStep.Allows, EngineModel.Allows] using touch
    · trivial
    · trivial
    · trivial
  exact ⟨by decide +kernel, (failing.messages_rendered enterable).1⟩

end NativeRun
end EmuFront.Native
