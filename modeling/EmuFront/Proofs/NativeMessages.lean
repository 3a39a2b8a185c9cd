import EmuFront.Proofs.Directories
import EmuFront.Proofs.HostPassage
import EmuFront.Proofs.NulFree
import Mathlib.Data.List.Forall2

/-!
# Messages in native form

What a front end tells an engine, and the call of a native function that each message becomes. A
message is dropped or altered only for a path that holds a NUL or a number that does not fit into 32
bits. Nothing of the kind comes up in a passage of a front end without such a path, so that all its
messages are taken over, one for one and in order.
-/

namespace EmuFront

open Native (NativeCall)

/-! ## Messages -/

/-- What a front end tells an engine: a signal, or a failure that is passed on. -/
inductive Message
  | signal (call : EngineCall)
  | failure (home : Path) (text : String)

/-- A call of a native function says what a message says. Only the text of a failure is cut, at its
first NUL. -/
inductive Message.Renders : Message → NativeCall → Prop
  | create (dataDir : Path) (audio : AudioParams) :
      Renders (.signal (.create dataDir audio)) (.create dataDir.text audio)
  | graphicsReady (size : SurfaceSize) : Renders (.signal (.graphicsReady size)) (.graphicsReady size)
  | graphicsResized (size : SurfaceSize) :
      Renders (.signal (.graphicsResized size)) (.graphicsResized size)
  | keyDown (code modifiers : Int32) :
      Renders (.signal (.keyDown code modifiers)) (.keyDown code modifiers)
  | keyUp (code modifiers : Int32) : Renders (.signal (.keyUp code modifiers)) (.keyUp code modifiers)
  | pause (host : Bool) : Renders (.signal (.pause host)) (.pause host)
  | resume (host : Bool) : Renders (.signal (.resume host)) (.resume host)
  | quit : Renders (.signal .quit) .quit
  | reboot : Renders (.signal .reboot) .reboot
  | render : Renders (.signal .render) .render
  | touch {s : TouchSample} {count index : Int32} (sameCount : count.toInt = s.count)
      (sameIndex : index.toInt = s.index) :
      Renders (.signal (.touch s)) (.touch s.action.code count index s.visibleXs s.visibleYs)
  | chooseDisk (path : Path) (driveA readOnly : Bool) :
      Renders (.signal (.chooseDisk path driveA readOnly)) (.chooseDisk path.text driveA readOnly)
  | failure (home : Path) (text : String) :
      Renders (.failure home text) (.uncaughtFailure home.text (Text.beforeNul text))

/-- The message of an event, with the engine that it is for. -/
def Event.message? : Event → Option (EngineRef × Message)
  | .told engine call _ => some (engine, .signal call)
  | .failed engine home text => some (engine, .failure home text)
  | _ => none

/-- The call of an event that went over to native code, with its engine. -/
def Event.crossing? : Event → Option (EngineRef × NativeCall)
  | .crossed engine call => some (engine, call)
  | _ => none

/-- The messages of a history, in order. -/
def messagesOf (history : List Event) : List (EngineRef × Message) := history.filterMap Event.message?

/-- The calls of a history that went over to native code, in order. -/
def crossingsOf (history : List Event) : List (EngineRef × NativeCall) :=
  history.filterMap Event.crossing?

/-- Each message of a history went over to native code as one call that says the same, in order. -/
def Rendered (history : List Event) : Prop :=
  List.Forall₂ (fun m c => m.1 = c.1 ∧ m.2.Renders c.2) (messagesOf history) (crossingsOf history)

/-- Messages that went over one history after the other have gone over in order. -/
theorem Rendered.append {first rest : List Event} (before : Rendered first) (after : Rendered rest) :
    Rendered (first ++ rest) := by
  rw [Rendered, messagesOf, crossingsOf, List.filterMap_append, List.filterMap_append]
  exact List.rel_append before after

section Plain
variable {history : List Event} (plain : ∀ e ∈ history, e.isPlain = true)
include plain

/-- What is a matter of course tells an engine nothing. -/
theorem messagesOf_eq_nil : messagesOf history = [] := by
  refine List.filterMap_eq_nil_iff.2 fun e member => ?_
  have := plain e member
  cases e <;> simp_all [Event.isPlain, Event.message?]

/-- And nothing of it goes over to native code. -/
theorem crossingsOf_eq_nil : crossingsOf history = [] := by
  refine List.filterMap_eq_nil_iff.2 fun e member => ?_
  have := plain e member
  cases e <;> simp_all [Event.isPlain, Event.crossing?]

theorem rendered_of_isPlain : Rendered history := by
  rw [Rendered, messagesOf_eq_nil plain, crossingsOf_eq_nil plain]
  exact .nil

end Plain

/-! ## Calls that can be taken over -/

/-- Whether a call can be taken over as it is: its path holds no NUL, its number fits into 32 bits. -/
def EngineCall.Fitting : EngineCall → Prop
  | create dataDir _ => Text.NulFree dataDir.text
  | touch sample => sample.index < 2 ^ 31
  | chooseDisk path _ _ => Text.NulFree path.text
  | _ => True

/-- A text without a NUL is taken over as it is. -/
theorem Native.nativeText_eq_ok {text : String} (h : Text.NulFree text) :
    Native.nativeText text = .ok text := by
  rw [nativeText, Text.nulOffset?_eq_none h]

theorem toInt_ofNat {n : Nat} (small : n < 2 ^ 31) : (Int32.ofNat n).toInt = n :=
  Int32.toInt_ofNat_of_lt small

/-- A call that fits is taken over, and says the same. -/
theorem EngineCall.Fitting.exists_ofCall {call : EngineCall} (h : call.Fitting) :
    ∃ c, NativeCall.ofCall call = .ok c ∧ (Message.signal call).Renders c := by
  cases call with
  | create dataDir audio =>
    refine ⟨_, ?_, .create dataDir audio⟩
    rw [NativeCall.ofCall, Native.nativeText_eq_ok h]
    rfl
  | chooseDisk path driveA readOnly =>
    refine ⟨_, ?_, .chooseDisk path driveA readOnly⟩
    rw [NativeCall.ofCall, Native.nativeText_eq_ok h]
    rfl
  | touch s =>
    have count : s.count < 2 ^ 31 := s.count_le.trans_lt (by decide)
    exact ⟨_, rfl, .touch (toInt_ofNat count) (toInt_ofNat h)⟩
  | graphicsReady size => exact ⟨_, rfl, .graphicsReady size⟩
  | graphicsResized size => exact ⟨_, rfl, .graphicsResized size⟩
  | keyDown code modifiers => exact ⟨_, rfl, .keyDown code modifiers⟩
  | keyUp code modifiers => exact ⟨_, rfl, .keyUp code modifiers⟩
  | pause host => exact ⟨_, rfl, .pause host⟩
  | resume host => exact ⟨_, rfl, .resume host⟩
  | quit => exact ⟨_, rfl, .quit⟩
  | reboot => exact ⟨_, rfl, .reboot⟩
  | render => exact ⟨_, rfl, .render⟩

section Crossing
variable {engine : EngineRef} (native : engine.boundary = .native)
include native

theorem crossing_ok (c : NativeCall) :
    Work.crossing engine (.ok c) = [.crossed engine c] := by
  unfold Work.crossing
  rw [native]

/-- What a native engine is told goes over as one call. -/
theorem rendered_telling {call : EngineCall} (fitting : call.Fitting) {w : World}
    (same : w.front.engine = engine) : Rendered (w.telling call) := by
  obtain ⟨c, crosses, renders⟩ := fitting.exists_ofCall
  rw [World.telling, same, crosses, crossing_ok native]
  exact .cons ⟨rfl, renders⟩ .nil

/-- A failure goes over as one call, with its text up to the first NUL. -/
theorem rendered_passingOn {home : Path} (nulFree : Text.NulFree home.text) (text : String) :
    Rendered (Work.passingOn engine home text) := by
  have crosses : NativeCall.ofFailure home text =
      .ok (.uncaughtFailure home.text (Text.beforeNul text)) := by
    rw [NativeCall.ofFailure, Native.nativeText_eq_ok nulFree]
    rfl
  rw [Work.passingOn, crosses, crossing_ok native]
  exact .cons ⟨rfl, .failure home text⟩ .nil

end Crossing

/-! ## Front ends without a NUL -/

/-- What native code can ask of a front end: an index of a touch is a 32-bit number, and the crash
capture is installed by a creation only. -/
def Op.Enterable : Op → Prop
  | .host (.touch batch) => batch.index < 2 ^ 31
  | .machine (.install ..) => False
  | _ => True

/-- An overlay of which no disk image has a NUL in its path. -/
def Overlay.NulFree (o : Overlay) : Prop :=
  ∀ images, o.images? = some images → ∀ path ∈ images, Text.NulFree path.text

/-- A capture for a native engine whose path holds no NUL. -/
structure CrashCapture.NulFree (c : CrashCapture) : Prop where
  native : c.engine.boundary = .native
  homeDir : Text.NulFree c.homeDir.text

/-- A front end of a native engine none of whose paths holds a NUL. -/
structure FrontEnd.NulFree (front : FrontEnd) : Prop where
  native : front.engine.boundary = .native
  dataDir : Text.NulFree front.config.dataDir.text
  homeDir : Text.NulFree front.config.homeDir.text
  stack : ∀ o ∈ front.session.state.stack, o.NulFree

/-- A world in which neither the front end nor the capture knows a path with a NUL. -/
structure World.NulFree (w : World) : Prop where
  front : w.front.NulFree
  capture : ∀ c, w.machine.capture = some c → c.NulFree

namespace Overlay

variable {o : Overlay}

/-- Whether a path holds a NUL is a matter of the images alone. -/
theorem nulFree_of_content {o' : Overlay} (h : o.NulFree) (same : o'.images? = o.images?) :
    o'.NulFree := by
  intro images
  rw [same]
  exact h images

theorem NulFree.setDismissable (h : o.NulFree) (value : Bool) : (o.setDismissable value).NulFree := by
  refine nulFree_of_content h ?_
  unfold Overlay.setDismissable
  cases content : o.content <;> simp [images?, content]

end Overlay

namespace SessionState

variable {s : SessionState}

/-- A change that puts nothing on brings no path with a NUL. -/
theorem nulFree_apply (h : ∀ o ∈ s.stack, o.NulFree) {c : Change}
    (other : ∀ o, c ≠ .pushed o) : ∀ o ∈ (s.apply c).stack, o.NulFree := by
  cases c with
  | pushed o => exact absurd rfl (other o)
  | removed o => exact fun shown member => h shown (List.mem_of_mem_eraseP member)
  | dismissableSet value =>
    exact List.forall_mem_map.2 fun o member => (h o member).setDismissable value
  | hostPaused | hostResumed | graphicsReady => exact h
  | resized size =>
    cases ready : s.graphicsReady with
    | true =>
      simp only [SessionState.apply, ready, if_true]
      exact List.forall_mem_map.2 fun o member => Overlay.nulFree_of_content (h o member) rfl
    | false =>
      simp only [SessionState.apply, ready, Bool.false_eq_true, if_false]
      exact h

end SessionState

namespace World.NulFree

variable {w v : World}

/-- No change but a push can bring a path with a NUL. -/
theorem commit (h : w.NulFree) {c : Change} (other : ∀ o, c ≠ .pushed o) : (w.commit c).NulFree where
  front := ⟨h.front.native, h.front.dataDir, h.front.homeDir,
    SessionState.nulFree_apply h.front.stack other⟩
  capture := h.capture

/-- A matter of course leaves all paths as they are. -/
theorem plain (h : w.NulFree) (plain : w.Plain v) : v.NulFree where
  front := by
    refine ⟨?_, ?_, ?_, ?_⟩
    · rw [plain.engine]
      exact h.front.native
    · rw [plain.config]
      exact h.front.dataDir
    · rw [plain.config]
      exact h.front.homeDir
    · rw [plain.state]
      exact h.front.stack
  capture := by
    rw [plain.machine.capture]
    exact h.capture

end World.NulFree

/-- The index of a sample is that of its batch, or zero if that pointer was dropped. -/
theorem TouchBatch.index_sample_le (b : TouchBatch) : b.sample.index ≤ b.index := by
  show (if b.pointerDropped then 0 else b.index) ≤ b.index
  split
  · exact Nat.zero_le _
  · exact Nat.le_refl _

/-- A genuine call of a front end without a NUL can be taken over. -/
theorem EngineCall.Genuine.fitting {w : World} (h : w.NulFree) {call : EngineCall}
    (genuine : call.Genuine Op.Enterable w) : call.Fitting := by
  cases call with
  | create dataDir audio =>
    rw [show dataDir = w.front.config.dataDir from genuine]
    exact h.front.dataDir
  | touch sample =>
    obtain ⟨batch, small, rfl⟩ := genuine
    exact batch.index_sample_le.trans_lt small
  | chooseDisk path driveA readOnly =>
    obtain ⟨menu, showing, images, listed, member⟩ := genuine
    exact h.front.stack menu showing images listed path member
  | _ => trivial

/-- In a passage of a front end without a NUL, every message is taken over to native code, and no NUL
comes up. -/
theorem Passage.rendered {broken : Bool} {w v : World} (passage : Passage Op.Enterable broken w v)
    (h : w.NulFree) : v.NulFree ∧ w.machine.Adds Rendered v.machine := by
  induction passage with
  | plain plain =>
    obtain ⟨added, timeline, events⟩ := plain.machine.events
    exact ⟨h.plain plain, added, timeline, rendered_of_isPlain events⟩
  | trans _ _ first rest =>
    obtain ⟨mid, before⟩ := first h
    obtain ⟨last, after⟩ := rest mid
    exact ⟨last, before.trans .append after⟩
  | @install w c missing asked =>
    have free : c.NulFree := by
      obtain rfl | ⟨config, engine, allowed, -⟩ := asked
      · exact ⟨h.front.native, h.front.homeDir⟩
      · exact allowed.elim
    refine ⟨⟨h.front, ?_⟩, .refl .nil _⟩
    rintro _ ⟨⟩
    exact free
  | @passOn w c text installed =>
    obtain ⟨native, homeDir⟩ := h.capture c installed
    rw [World.after, Work.run_passOn]
    exact ⟨⟨h.front, h.capture⟩, _, rfl, rendered_passingOn native homeDir text⟩
  | @tell w call genuine =>
    rw [World.told_eq]
    exact ⟨⟨h.front, h.capture⟩, _, rfl, rendered_telling h.front.native (genuine.fitting h) rfl⟩
  | @change w c apart =>
    have other : ∀ o, c ≠ .pushed o := by
      rintro o rfl
      cases apart
    exact ⟨h.commit other, _, rfl, .nil⟩
  | @put w content absent listed =>
    refine ⟨⟨⟨h.front.native, h.front.dataDir, h.front.homeDir, ?_⟩, h.capture⟩, _, rfl, .nil⟩
    refine List.forall_mem_cons.2 ⟨fun images shown path member => ?_, h.front.stack⟩
    have picker : content = .disksMenu images := by
      cases content <;> cases shown
      rfl
    -- the images of a picker are files
    obtain ⟨directory, rfl⟩ := listed images picker
    exact Storage.Tree.nulFree_of_isFile (Storage.Tree.isFile_of_mem_filesIn member)
  | refuse showing => exact ⟨⟨h.front, h.capture⟩, _, rfl, .nil⟩
  | @remove w v o found _ within =>
    obtain ⟨after, added⟩ := within (h.commit nofun)
    have taken : w.machine.Adds Rendered (w.commit (.removed o.detach)).machine := ⟨_, rfl, .nil⟩
    have back : v.machine.Adds Rendered
        (v.after (Work.observe (.returned v.front.engine o.detach))).machine := ⟨_, rfl, .nil⟩
    exact ⟨⟨after.front, after.capture⟩, taken.trans .append (added.trans .append back)⟩
  | @lose w v o found signalled _ within =>
    obtain ⟨after, added⟩ := within (h.commit nofun)
    have taken : w.machine.Adds Rendered (w.commit (.removed o.detach)).machine := ⟨_, rfl, .nil⟩
    exact ⟨after, taken.trans .append added⟩
  | panic w => exact ⟨h, .refl .nil _⟩

end EmuFront
