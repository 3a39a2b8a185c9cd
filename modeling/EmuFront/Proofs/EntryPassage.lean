import EmuFront.App.Entry
import EmuFront.Proofs.HostPassage
import Mathlib.Algebra.Group.Nat.Defs

/-!
# Passages of a host

Every entry point for native hosts and for apps makes a passage of the front end behind its handle,
unless it only makes or destroys a bridge or works on the machine.
-/

namespace EmuFront.Native

open Act Storage

/-! ## What entry points do with a front end -/

section Parts
variable {allows : Op → Prop}

theorem plain_nativePath (path : Path) : (nativePath path).Plain := by
  unfold nativePath
  split
  · exact .pure _
  · exact (Work.plain_log _ _).bind fun _ => .pure _

/-- The setup by a function of a native host is a matter of course, whatever it answers. -/
theorem plain_setUpBy (function : Option Bool) (directory : Path) :
    (setUpBy function directory).Plain := by
  cases function with
  | none => exact .pure _
  | some succeeds =>
    refine (plain_nativePath directory).bind fun text => ?_
    cases text with
    | none => exact .pure _
    | some text => exact (Work.plain_observe rfl).bind fun _ => .pure _

/-- So is sending a report by a function of the host. -/
theorem plain_sendBy (accept : Bool) (report : Path) : (sendBy accept report).Plain := by
  refine (plain_nativePath report).bind fun text => ?_
  cases text with
  | none => exact .pure _
  | some text =>
    exact (Work.routine_contents? report).plain.bind fun _ => (Work.plain_observe rfl).bind fun _ =>
      .pure _

theorem plain_logFailure {α : Type} (heading : String) (result : Except Failure α) :
    (logFailure heading result).Plain := by
  cases result with
  | ok a => exact plain_pure ()
  | error e => exact plain_log _ _

/-- A front end is created behind an entry point, and a failure only logged. -/
theorem passes_createWith (heading : String) (configured : Bool)
    {setUp : Path → Work (Except Failure Unit)} (plain : ∀ directory, (setUp directory).Plain) :
    (createWith heading configured setUp).Passes allows := by
  have flagged : (modify fun w => { w with machine := { w.machine with configured } } :
      Act PUnit).Plain := fun _ => ⟨rfl, rfl, rfl, List.Subset.refl _, rfl, rfl, [], by simp, by simp⟩
  refine flagged.andThen fun _ => (passes_react fun _ h => FrontEnd.passes_create h plain).bind
    fun result => ?_
  exact (plain_logFailure heading result).andThen fun _ => (plain_pure _).passes allows

/-- A report that is sent, or not, is answered and logged. -/
theorem plain_transmitWith {send : Path → Work (Except Failure Unit)}
    (plain : ∀ report, (send report).Plain) : (transmitWith send).Plain :=
  (Act.plain_withReporter fun r => Work.plain_transmit r plain).bind fun result =>
    (plain_logFailure _ result).bind fun _ => plain_pure _

/-- An index that is negative chooses nothing. -/
theorem passes_chosenBy {α : Type} (index : Int32) {choose : Nat → Act (Option α)}
    (h : ∀ i, (choose i).Passes allows) : (chosenBy index choose).Passes allows := by
  unfold chosenBy
  split
  · exact (plain_pure false).passes allows
  · exact (h _).result

/-- The arrays of a touch are passed on as the host gave them. -/
theorem passes_touchWith {batch : TouchBatch} (allowed : allows (.host (.touch batch))) :
    (touchWith batch).Passes allows :=
  (passes_react fun _ h => FrontEnd.passes_touch h allowed).result

/-- The index of a batch of raw numbers fits into 32 bits. -/
theorem index_batchOf_lt (action count index : Int32) (xs ys : List Single) :
    (batchOf action count index xs ys).index < 2 ^ 31 := by
  have bound := index.toInt_lt
  show index.toInt.toNat < 2 ^ 31
  omega

end Parts

/-! ## Passages -/

/-- What can happen to a host where only some operations are done: a passage of one of its front
ends, work on the machine, a bridge that is made or destroyed. -/
inductive HostPassage (allows : Op → Prop) : NativeHost → NativeHost → Prop
  | refl (h : NativeHost) : HostPassage allows h h
  | trans {g h k : NativeHost} (first : HostPassage allows g h) (rest : HostPassage allows h k) :
      HostPassage allows g k
  | within {broken : Bool} {h : NativeHost} {i : Nat} {b : Bridge} {w : World}
      (made : h.bridges[i]? = some (some b))
      (passage : Passage allows broken ⟨h.machine, b.front, b.engine, []⟩ w) :
      HostPassage allows h ⟨w.machine, h.bridges.set i (some ⟨w.front, w.engine⟩)⟩
  | work {h : NativeHost} {m : Machine}
      (passage : ∀ front engine, Passage allows false ⟨h.machine, front, engine, []⟩
        ⟨m, front, engine, []⟩) : HostPassage allows h ⟨m, h.bridges⟩
  | make {h : NativeHost} (p : BridgeParams) (dataDir : Text.Bytes) {engine : EngineModel}
      (ready : engine.Allows allows) :
      HostPassage allows h
        ⟨h.machine, h.bridges ++ [some ⟨.new (p.config dataDir) ⟨h.bridges.length, .native⟩, engine⟩]⟩
  | destroy {h : NativeHost} (i : Nat) : HostPassage allows h ⟨h.machine, h.bridges.set i none⟩

/-- Every operation that the engines of a host will do from inside their calls is allowed. -/
def NativeHost.Allows (allows : Op → Prop) (h : NativeHost) : Prop :=
  ∀ b : Bridge, some b ∈ h.bridges → b.engine.Allows allows

section Bridges
variable {p : Bridge → Prop} {bridges : List (Option Bridge)} (h : ∀ b, some b ∈ bridges → p b)
include h

/-- What holds of every bridge of a host holds after one of them is replaced or destroyed. -/
theorem forall_bridges_set (i : Nat) {other : Option Bridge} (replaced : ∀ b, other = some b → p b) :
    ∀ b, some b ∈ bridges.set i other → p b := by
  intro b member
  obtain before | new := List.mem_or_eq_of_mem_set member
  · exact h b before
  · exact replaced b new.symm

/-- What holds of every bridge of a host holds after another is made. -/
theorem forall_bridges_add {other : Bridge} (added : p other) :
    ∀ b, some b ∈ bridges ++ [some other] → p b := by
  intro b member
  obtain before | new := List.mem_append.1 member
  · exact h b before
  · obtain rfl := Option.some.inj (List.mem_singleton.1 new)
    exact added

end Bridges

/-- What the engines behind bridges may do only becomes less. -/
theorem HostPassage.allows {allows : Op → Prop} {h v : NativeHost} (passage : HostPassage allows h v)
    (ready : h.Allows allows) : v.Allows allows := by
  induction passage with
  | refl => exact ready
  | trans _ _ first rest => exact rest (first ready)
  | @within _ h i b w made passage =>
    have before : World.Allows allows ⟨h.machine, b.front, b.engine, []⟩ :=
      ready b (List.mem_of_getElem? made)
    refine forall_bridges_set ready _ ?_
    rintro _ ⟨⟩
    exact passage.allows before
  | work => exact ready
  | make p dataDir engineReady => exact forall_bridges_add ready engineReady
  | destroy i => exact forall_bridges_set ready i (by simp)

/-! ## Entry points -/

namespace HostAct

variable {allows : Op → Prop} {α : Type}

/-- What a host does makes a passage from every host whose engines do only what is allowed. -/
def Passes (act : HostAct α) (allows : Op → Prop) : Prop :=
  ∀ h : NativeHost, h.Allows allows → HostPassage allows h (act h).2

/-- An answer alone is a passage in which nothing happens. -/
theorem passes_pure (a : α) : (pure a : HostAct α).Passes allows := fun h _ => .refl h

theorem Passes.result {β : Type} {act : HostAct β} (h : act.Passes allows) (next : β → α) :
    (act >>= fun b => pure (next b)).Passes allows := h

/-- A call to the front end behind a handle makes its passage; a null handle makes none. -/
theorem passes_withBridge {part : Act α} (passes : part.Passes allows) (handle : Handle)
    (fallback : α) : (withBridge handle fallback part).Passes allows := by
  intro h ready
  cases handle with
  | none => exact .refl h
  | some i =>
    unfold withBridge
    cases found : h.bridge? (some i) with
    | none => exact .refl h
    | some b =>
      have made : h.bridges[i]? = some (some b) := Option.join_eq_some_iff.1 found
      have passed := passes ⟨h.machine, b.front, b.engine, []⟩ (ready b (List.mem_of_getElem? made))
      -- a panic ends the passage of the front end, and goes no further
      have after : ∃ broken, Passage allows broken ⟨h.machine, b.front, b.engine, []⟩
          (part ⟨h.machine, b.front, b.engine, []⟩).2 :=
        Ensures.after (p := fun w => ∃ broken,
          Passage allows broken ⟨h.machine, b.front, b.engine, []⟩ w)
          (passed.mono (fun _ _ passage => ⟨false, passage⟩) fun _ passage => ⟨true, passage⟩)
      obtain ⟨broken, passage⟩ := after
      exact .within made passage

/-- Work of the host on the machine passes all bridges by. -/
theorem passes_work {part : Work α}
    (passes : ∀ w : World, Work.PassesFrom part allows w) : (work part).Passes allows :=
  fun h _ => .work fun front engine => passes ⟨h.machine, front, engine, []⟩

theorem passes_silent {part : Act Unit} (passes : part.Passes allows) (handle : Handle) :
    (silent handle part).Passes allows := (passes_withBridge passes handle ()).result _

theorem passes_truth {part : Act Bool} (passes : part.Passes allows) (handle : Handle) :
    (truth handle part).Passes allows := (passes_withBridge passes handle false).result _

theorem passes_number {part : Act Int} (passes : part.Passes allows) (handle : Handle)
    (fallback : Int) : (number handle fallback part).Passes allows :=
  (passes_withBridge passes handle fallback).result _

end HostAct

section Entry
variable {allows : Op → Prop}

open HostAct FrontEnd

/-- A bridge is made with an engine that keeps to what is allowed. -/
theorem passes_newBridge {engine : EngineModel} (ready : engine.Allows allows)
    (params : Option BridgeParams) : (newBridge engine params).Passes allows := by
  intro h _
  have logged : ∀ level message, HostPassage allows h (HostAct.work (Work.log level message) h).2 :=
    fun _ _ => .work fun _ _ => .plain (World.plain_after (Work.plain_log _ _) _)
  cases params with
  | none => exact .refl h
  | some p =>
    unfold newBridge
    dsimp only
    cases p.dataDir with
    | none => exact logged _ _
    | some dataDir => exact (logged _ _).trans (.make p dataDir ready)

/-- A bridge that is destroyed makes no more passages. -/
theorem passes_destroyBridge (handle : Handle) : (destroyBridge handle).Passes allows := by
  intro h _
  cases handle with
  | none => exact .refl h
  | some i =>
    simp only [destroyBridge, bind, StateT.bind, get, getThe, MonadStateOf.get, StateT.get, pure]
    cases h.bridge? (some i) with
    | none => exact .refl h
    | some b =>
      exact (HostPassage.destroy i).trans
        (.work fun _ _ => .plain (World.plain_after (Work.plain_log _ _) _))

/-- Every entry point for native hosts makes a passage. -/
theorem EntryOp.passes_call
    (touches : ∀ action count index xs ys,
      allows (.host (.touch (batchOf action count index xs ys)))) (op : EntryOp) (handle : Handle) :
    (op.call handle).Passes allows := by
  cases op with
  | create configured setUp =>
    exact passes_number (passes_createWith _ configured (plain_setUpBy setUp)) handle _
  | graphicsReady width height =>
    exact passes_silent (passes_react fun _ h => passes_graphicsReady h width height) handle
  | graphicsResized width height =>
    exact passes_silent (passes_react fun _ h => passes_graphicsResized h width height) handle
  | keyDown code modifiers =>
    exact passes_truth (passes_react fun _ h => passes_keyDown h code modifiers) handle
  | keyUp code modifiers =>
    exact passes_truth (passes_react fun _ h => passes_keyUp h code modifiers) handle
  | touch action count index xs ys =>
    cases xs with
    | none => exact passes_pure _
    | some xs =>
      cases ys with
      | none => exact passes_pure _
      | some ys => exact passes_number (passes_touchWith (touches ..)) handle _
  | render => exact passes_silent (passes_react fun _ h => passes_render h) handle
  | hostPaused => exact passes_silent (passes_react fun _ h => passes_hostPaused h) handle
  | hostResumed => exact passes_silent (passes_react fun _ h => passes_hostResumed h) handle
  | showMainMenu => exact passes_truth (passes_react fun _ h => passes_showNew h .mainMenu) handle
  | topOverlay =>
    refine passes_number (plain_state.andThen fun s => ?_) handle _
    split <;> exact (plain_pure _).passes allows
  | pressSplash button =>
    exact passes_truth (passes_react fun _ h => passes_pressSplash h _).result handle
  | selectMainMenu index =>
    exact passes_truth (passes_chosenBy index fun i =>
      passes_react fun _ h => passes_selectMainMenu h i) handle
  | selectSetting index =>
    refine passes_number ((passes_chosenBy index fun i => (plain_selectSetting i).passes allows).bind
      fun chosen => ?_) handle _
    exact .ite ((plain_pure _).passes allows) ((plain_pure _).passes allows)
  | chooseDisk index driveA readOnly =>
    exact passes_truth (passes_chosenBy index fun i =>
      passes_react fun _ h => passes_chooseDisk h i driveA readOnly) handle
  | maybeQuit => exact passes_truth (passes_react fun _ h => passes_showNew h (.confirm .quit)) handle
  | maybeReboot =>
    exact passes_truth (passes_react fun _ h => passes_showNew h (.confirm .reboot)) handle
  | confirm kind accepted =>
    exact passes_number (passes_react fun _ h => passes_confirm h _ accepted).result handle _
  | checkCrashes =>
    exact passes_truth (((plain_withReporter fun r => (Work.routine_checkOnce r).plain).bind
      fun _ => plain_pure _).passes allows) handle
  | send accept =>
    exact passes_number ((plain_transmitWith (plain_sendBy accept)).passes allows) handle _
  | discard =>
    exact passes_number ((plain_get.bind fun _ =>
      (plain_work (Work.routine_discard _).plain).bind fun _ => plain_pure _).passes allows) handle _

/-- The flags of the next touches are a matter of the engine alone. -/
theorem passes_setReply (handle : Handle) (flags : TouchFlags) :
    (setReply handle flags).Passes allows := by
  have set : (modify fun w => { w with engine := { w.engine with reply := flags } } :
      Act PUnit).Plain := fun _ => ⟨rfl, rfl, rfl, List.Subset.refl _, .refl _⟩
  exact passes_withBridge (set.passes allows) handle ()

end Entry
end EmuFront.Native

/-! ## Entry points for apps -/

namespace EmuFront.App

open Act Native HostAct

variable {allows : Op → Prop}

/-- An object of the app that is called back adds its call to the timeline, or a failure. -/
theorem plain_callBack (object : Callback) {call : Work HostCall} (plain : call.Plain)
    (noString noResult : Failure) : (callBack object call noString noResult).Plain := by
  have called : ∀ c, (Work.observe (.calledBack c)).Plain := fun _ => Work.plain_observe rfl
  have threw : (Work.observe .threw).Plain := Work.plain_observe rfl
  cases object with
  | returns value => exact plain.bind fun c => (called c).bind fun _ => .pure _
  | throws => exact plain.bind fun c => (called c).bind fun _ => threw.bind fun _ => .pure _
  | lacksMethod => exact threw.bind fun _ => .pure _
  | outOfMemory => exact threw.bind fun _ => .pure _

theorem plain_setUpBy (extractor : Option Callback) (directory : Path) :
    (setUpBy extractor directory).Plain := by
  cases extractor with
  | none => exact .pure _
  | some object =>
    refine (plain_callBack object (.pure _) _ _).bind fun result => ?_
    cases result <;> exact .pure _

theorem plain_sendBy (sender : Callback) (report : Path) : (sendBy sender report).Plain := by
  have read := (Work.routine_contents? report).plain.bind fun contents =>
    Work.Plain.pure (HostCall.send report contents)
  refine (plain_callBack sender read _ _).bind fun result => ?_
  cases result <;> exact .pure _

/-- Every entry point for apps makes a passage. -/
theorem AppOp.passes_call
    (touches : ∀ action count index xs ys,
      allows (.host (.touch (batchOf action count index xs ys)))) (op : AppOp) (handle : Handle) :
    (op.call handle).Passes allows := by
  have native : ∀ op : EntryOp, (op.call handle).Passes allows := fun op =>
    EntryOp.passes_call touches op handle
  cases op with
  | create configured extractor =>
    exact passes_number (passes_createWith _ _ (plain_setUpBy extractor)) handle _
  | touch action count index xs ys =>
    have unread : (do
        HostAct.work (Work.log .warn "nativeTouch: could not read coordinates")
        return .number 0 : HostAct Result).Passes allows :=
      (HostAct.passes_work fun _ => (Work.plain_log _ _).passesFrom).result _
    cases xs with
    | none => exact unread
    | some xs =>
      cases ys with
      | none => exact unread
      | some ys => exact native _
  | chooseDisk index driveA readOnly => exact native (.chooseDisk index _ _)
  | confirm kind accepted => exact native (.confirm kind _)
  | send sender =>
    cases sender with
    | none => exact passes_pure _
    | some sender =>
      exact passes_number ((plain_transmitWith (plain_sendBy sender)).passes allows) handle _
  | plain op => exact native op

end EmuFront.App
