import EmuFront.Proofs.NativeRuns
import EmuFront.Proofs.TouchSlots

/-!
# Touch arrays of apps

An app hands over two arrays of coordinates of any lengths. They are cut to the slots and to the
shorter one before the native entry point reads them, and the sample is cut again when it is made. The
first cut changes nothing: the engine receives the sample of the whole arrays.
-/

namespace EmuFront

open Native

/-! ## Cutting a batch -/

namespace TouchBatch

/-- To the front end, too, a cut that leaves room for the pointers that are kept makes no difference. -/
theorem touchWith_cut {b : TouchBatch} {length : Nat} (enough : b.kept ≤ length) :
    touchWith (b.cut length) = touchWith b := by
  have forward : ∀ tell, FrontEnd.forward tell (b.cut length) = FrontEnd.forward tell b := by
    intro tell
    unfold FrontEnd.forward
    rw [pointerDropped_cut enough, sample_cut enough]
    rfl
  unfold touchWith FrontEnd.touch
  simp only [forward]

end TouchBatch

/-! ## Samples -/

/-- An event that tells an engine of a touch does so by the sample of a batch. -/
def Event.Sampled : Event → Prop
  | .told _ (.touch sample) _ => ∃ batch : TouchBatch, sample = batch.sample
  | _ => True

theorem sampled_of_isPlain {e : Event} (plain : e.isPlain = true) : e.Sampled := by
  cases e with
  | told => cases plain
  | _ => trivial

/-- Engines are told of samples of batches only. -/
def Sampled (history : List Event) : Prop := ∀ e ∈ history, e.Sampled

theorem Sampled.nil : Sampled [] := List.forall_mem_nil _

theorem Sampled.append {first rest : List Event} (before : Sampled first) (after : Sampled rest) :
    Sampled (first ++ rest) := List.forall_mem_append.2 ⟨before, after⟩

theorem Sampled.cons {e : Event} {rest : List Event} (first : e.Sampled) (after : Sampled rest) :
    Sampled (e :: rest) := List.forall_mem_cons.2 ⟨first, after⟩

theorem Work.sampled_crossing (engine : EngineRef) (call : Except String NativeCall) :
    Sampled (Work.crossing engine call) := by
  unfold Work.crossing
  split <;> simp [Sampled, Event.Sampled]

theorem Passage.sampled {allows : Op → Prop} {broken : Bool} {w v : World}
    (passage : Passage allows broken w v) : w.machine.Adds Sampled v.machine := by
  have taken : ∀ (w : World) (o : Overlay),
      w.machine.Adds Sampled (w.commit (.removed o)).machine := fun w o =>
    ⟨_, rfl, .cons trivial .nil⟩
  induction passage with
  | plain plain =>
    obtain ⟨added, timeline, events⟩ := plain.machine.events
    exact ⟨added, timeline, fun e member => sampled_of_isPlain (events e member)⟩
  | trans _ _ first rest => exact first.trans .append rest
  | install | panic => exact .refl .nil _
  | passOn installed =>
    rw [World.after, Work.run_passOn]
    exact ⟨_, rfl, .cons trivial (Work.sampled_crossing _ _)⟩
  | @tell w call genuine =>
    rw [World.told_eq]
    refine ⟨_, rfl, .cons ?_ (Work.sampled_crossing _ _)⟩
    cases call with
    | touch sample =>
      obtain ⟨batch, -, rfl⟩ := genuine
      exact ⟨batch, rfl⟩
    | _ => trivial
  | change | put | refuse => exact ⟨_, rfl, .cons trivial .nil⟩
  | @remove w v o _ _ within =>
    have back : v.machine.Adds Sampled
        (v.after (Work.observe (.returned v.front.engine o.detach))).machine :=
      ⟨_, rfl, .cons trivial .nil⟩
    exact (taken w o.detach).trans .append (within.trans .append back)
  | @lose w v o _ _ _ within => exact (taken w o.detach).trans .append within

theorem Native.HostPassage.sampled {allows : Op → Prop} {h v : NativeHost}
    (passage : HostPassage allows h v) : h.machine.Adds Sampled v.machine := by
  induction passage with
  | refl | make | destroy => exact .refl .nil _
  | trans _ _ first rest => exact first.trans .append rest
  | within made passage => exact passage.sampled
  | work passage => exact (passage (.new (.new ⟨""⟩) ⟨0, .native⟩) ⟨.empty, []⟩).sampled

/-- Whatever is done in a process, engines are told of samples of batches only. -/
theorem Native.NativeRun.sampled (run : NativeRun) : Sampled run.timeline := by
  have passage : HostPassage (fun _ => True) (.new (.new run.disk)) run.final :=
    run.passage (fun _ _ _ _ _ => trivial) fun s _ => by
      cases s with
      | make => exact fun _ _ _ _ => trivial
      | _ => trivial
  obtain ⟨added, timeline, sampled⟩ := passage.sampled
  rw [NativeRun.timeline, timeline]
  exact sampled

/-! ## Receiving a call -/

/-- From one world to another, the engine receives a call before it is told anything else. -/
def World.Receives (w : World) (call : EngineCall) (v : World) : Prop :=
  ∃ added rest, v.machine.timeline = w.machine.timeline ++ added ∧
    messagesOf added = (w.front.engine, .signal call) :: rest

theorem World.Hears.receives {allows : Op → Prop} {call : EngineCall} {broken : Bool} {w v : World}
    (h : w.Hears allows call broken v) : w.Receives call v := by
  obtain ⟨u, plain, passage⟩ := h
  obtain ⟨first, timeline, events⟩ := plain.machine.events
  obtain ⟨later, timeline', -⟩ := passage.sampled
  refine ⟨first ++ (u.telling call ++ later),
    messagesOf (Work.crossing u.front.engine (NativeCall.ofCall call) ++ later), ?_, ?_⟩
  · rw [timeline', World.told_eq]
    show u.machine.timeline ++ u.telling call ++ later = _
    rw [timeline, List.append_assoc, List.append_assoc]
  · rw [messagesOf, List.filterMap_append, ← messagesOf, messagesOf_eq_nil events, ← plain.engine]
    rfl

/-! ## Touches of apps -/

namespace App

open Act

/-- The batch of raw numbers and whole arrays. -/
def wholeBatch (action count index : Int32) (xs ys : List Single) : TouchBatch :=
  ⟨.ofCode action, count.toInt.toNat, index.toInt.toNat, xs, ys⟩

section Whole
variable (action count index : Int32) (xs ys : List Single)

theorem kept_wholeBatch_le : (wholeBatch action count index xs ys).kept ≤ pointerCount xs ys := by
  simp only [TouchBatch.kept, wholeBatch, pointerCount]
  omega

/-- The arrays that an app's entry point passes on are as long as each other. -/
theorem batchOf_take :
    batchOf action count index (xs.take (pointerCount xs ys)) (ys.take (pointerCount xs ys)) =
      (wholeBatch action count index xs ys).cut (pointerCount xs ys) := by
  have left : pointerCount xs ys ≤ xs.length := by unfold pointerCount; omega
  have right : pointerCount xs ys ≤ ys.length := by unfold pointerCount; omega
  simp only [batchOf, wholeBatch, TouchBatch.cut, List.length_take, List.take_take,
    min_eq_left left, min_eq_left right, min_self]

/-- An app's entry point does what the front end does with the whole arrays. -/
theorem call_touch (handle : Handle) :
    (AppOp.touch action count index (some xs) (some ys)).call handle =
      number handle 0 (touchWith (wholeBatch action count index xs ys)) := by
  show number handle 0 (touchWith (batchOf _ _ _ _ _)) = _
  rw [batchOf_take, TouchBatch.touchWith_cut (kept_wholeBatch_le action count index xs ys)]

end Whole

section Answers
variable {w : World} {batch : TouchBatch}

/-- The number that a touch is answered by tells the outcome. -/
theorem ensures_touchWith {got : TouchOutcome → World → Prop} {ended : World → Prop}
    (touched : (FrontEnd.touch (tellWithin w.engine.reactions.length) batch).Ensures w got ended) :
    (touchWith batch).Ensures w (fun bits v => ∃ outcome, bits = outcomeBits outcome ∧ got outcome v)
      ended := by
  have reacted : (react fun tell => FrontEnd.touch tell batch).Ensures w got ended :=
    ensures_bind.2 (ensures_get.2 touched)
  exact reacted.bind (fun outcome v got => ⟨outcome, rfl, got⟩) fun _ => id

/-- A batch is received as its sample while no overlay is showing, and answered by the bits of the
reply. -/
theorem ensures_received (ready : w.front.session.state.graphicsReady = true)
    (empty : w.front.session.state.stack = []) :
    (touchWith batch).Ensures w
      (fun bits v => bits = outcomeBits (.ofFlags w.engine.reply) ∧
        w.Receives (.touch batch.sample) v)
      (w.Receives (.touch batch.sample)) := by
  have any : w.Allows fun _ => True := fun _ _ _ _ => trivial
  have touched := FrontEnd.ensures_touch w.engine.reactions.length batch any ready empty
  refine (ensures_touchWith touched).mono (fun bits v heard => ?_) fun _ => World.Hears.receives
  obtain ⟨_, rfl, rfl, hears⟩ := heard
  exact ⟨rfl, hears.receives⟩

/-- Otherwise nothing happens. -/
theorem ensures_blocked
    (blocked : w.front.session.state.graphicsReady = false ∨ w.front.session.state.stack ≠ []) :
    (touchWith batch).Ensures w (fun bits v => bits = 0 ∧ v = w) fun _ => False := by
  have stops : (!w.front.session.state.graphicsReady ||
      decide (0 < w.front.session.state.depth)) = true := by
    obtain early | showing := blocked
    · simp [early]
    · simp [SessionState.depth, List.length_pos_iff.2 showing]
  have touched : ∀ tell, (FrontEnd.touch tell batch).Ensures w
      (fun outcome v => outcome = .neutral ∧ v = w) fun _ => False := by
    intro tell
    refine ensures_bind.2 (ensures_state.2 ?_)
    rw [if_pos stops]
    exact ⟨rfl, rfl⟩
  refine (ensures_touchWith (touched _)).mono (fun bits v after => ?_) fun _ => id
  obtain ⟨_, rfl, rfl, same⟩ := after
  exact ⟨rfl, same⟩

end Answers

/-- An app's touch does, in every state, what the front end does with the whole arrays: the engine
receives their sample and its reply is answered, or nothing happens. In a process, every sample that an
engine is told of has at most 32 pointers, and one of them for an action that is about a pointer. -/
theorem touch_reads_whole_arrays (action count index : Int32) (xs ys : List Single) :
    (∀ handle, (AppOp.touch action count index (some xs) (some ys)).call handle =
      number handle 0 (touchWith (wholeBatch action count index xs ys))) ∧
    (∀ w : World, w.front.session.state.graphicsReady = true → w.front.session.state.stack = [] →
      (touchWith (wholeBatch action count index xs ys)).Ensures w
        (fun bits v => bits = outcomeBits (.ofFlags w.engine.reply) ∧
          w.Receives (.touch (wholeBatch action count index xs ys).sample) v)
        (w.Receives (.touch (wholeBatch action count index xs ys).sample))) ∧
    (∀ w : World, w.front.session.state.graphicsReady = false ∨ w.front.session.state.stack ≠ [] →
      (touchWith (wholeBatch action count index xs ys)).Ensures w (fun bits v => bits = 0 ∧ v = w)
        fun _ => False) ∧
    ∀ run : NativeRun, ∀ engine sample session,
      Event.told engine (.touch sample) session ∈ run.timeline →
        sample.count ≤ maxPointers ∧
          (sample.action.indexesPointer = true → sample.index < sample.count) := by
  refine ⟨call_touch action count index xs ys, fun w => ensures_received, fun w => ensures_blocked,
    fun run engine sample session told => ⟨sample.count_le, ?_⟩⟩
  obtain ⟨batch, rfl⟩ := run.sampled _ told
  exact batch.index_sample_lt

/-- A front end whose graphics are ready, of an engine that handles every touch. -/
def playing : World :=
  World.commit ⟨.new .empty, .new (.new ⟨"data"⟩) ⟨0, .native⟩, ⟨⟨0x11⟩, []⟩, []⟩
    (.graphicsReady ⟨800, 480⟩)

/-- A pointer down at index 33, of 40 pointers with 35 and 40 coordinates, is received as a move of 32
pointers, and answered by a key click. -/
theorem touch_reads_whole_arrays_crowded :
    let batch := wholeBatch 5 40 33 (.replicate 35 ⟨1⟩) (.replicate 40 ⟨2⟩)
    (batch.sample.action = .move ∧ batch.sample.count = 32 ∧ batch.sample.index = 0) ∧
      (touchWith batch).Ensures playing
        (fun bits v => bits = 3 ∧ playing.Receives (.touch batch.sample) v)
        (playing.Receives (.touch batch.sample)) :=
  ⟨by decide, (touch_reads_whole_arrays 5 40 33 (.replicate 35 ⟨1⟩) (.replicate 40 ⟨2⟩)).2.1 playing
    rfl rfl⟩

end App

end EmuFront
