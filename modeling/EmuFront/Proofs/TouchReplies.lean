import EmuFront.Proofs.Removals

/-!
# Replies to touches

What comes of a touch batch, while the engine only listens. Before graphics are ready, and while an
overlay is showing, the engine does not hear of it. Otherwise the outcome carries the engine's reply
as it is, and a reply that handles the batch and asks for the menu raises it.
-/

namespace EmuFront

/-- Flags hold a single bit if it is set. -/
theorem TouchFlags.contains_twoPow {f part : TouchFlags} {i : Nat} (bound : i < 32)
    (single : part.bits.toBitVec = BitVec.twoPow 32 i) :
    f.contains part = f.bits.toNat.testBit i := by
  have masked : (f.bits &&& part.bits).toBitVec =
      if f.bits.toBitVec.getLsbD i then BitVec.twoPow 32 i else 0#32 := by
    rw [UInt32.toBitVec_and, single, BitVec.and_twoPow]
  rw [contains, Bool.eq_iff_iff, decide_eq_true_iff, ← UInt32.toBitVec_inj, masked, single]
  show _ ↔ f.bits.toBitVec.getLsbD i = true
  cases f.bits.toBitVec.getLsbD i with
  | true => exact iff_of_true (if_pos rfl) rfl
  | false =>
    refine iff_of_false (fun none => ?_) Bool.false_ne_true
    have bit := congrArg (fun b : BitVec 32 => b.getLsbD i) none
    simp [bound] at bit

theorem TouchFlags.contains_handled (f : TouchFlags) :
    f.contains .handled = f.bits.toNat.testBit 0 := contains_twoPow (by decide) rfl

theorem TouchFlags.contains_requestShowMenu (f : TouchFlags) :
    f.contains .requestShowMenu = f.bits.toNat.testBit 1 := contains_twoPow (by decide) rfl

namespace FrontEnd

open Act OverlayStack

variable {tell : Tell} {w : World}

/-- An overlay that is absent is made and put on. -/
theorem yields_showNew (listens : tell.Listens) (free : w.front.session.locked = false)
    (listening : w.engine.reactions = []) (spec : OverlaySpec)
    (absent : w.front.session.state.shows spec.kind = false) :
    let o := (make spec w.machine).1
    (showNew tell spec).Yields w true (w.front.session.state.apply (pushing w.front.session.state o))
      [⟨.pause false, w.front.session.state.apply (pushing w.front.session.state o)⟩] := by
  intro o
  have absent' : w.front.session.state.shows o.kind = false := by
    rw [spec.kind_make w.machine]
    exact absent
  refine yields_work (Work.quiet_make spec) listening ?_
  have pushed : (push tell .unknown o).Yields (w.after (make spec)) () _ _ :=
    yields_push listens free listening absent'
  exact (pushed.map fun _ => true).of_run_eq (run_present_eq .unknown absent')

/-- The engine hears of the sample of a batch, and its reply comes back. -/
theorem yields_forward (listens : tell.Listens) (listening : w.engine.reactions = [])
    (batch : TouchBatch) :
    (forward tell batch).Yields w w.engine.reply w.front.session.state
      [⟨.touch batch.sample, w.front.session.state⟩] := by
  have sent : ∀ v : World, v.engine = w.engine → v.front = w.front → (do
      let flags := (← get).engine.reply
      tell (.touch batch.sample)
      log .trace s!"{batch.sample.text} -> {Text.hex flags.bits.toNat}"
      return flags : Act TouchFlags).Yields v w.engine.reply w.front.session.state
        [⟨.touch batch.sample, w.front.session.state⟩] := by
    intro v engine front
    rw [← engine, ← front]
    refine yields_get ((listens (.touch batch.sample) v (engine ▸ listening)).bind fun u told => ?_)
    rw [← told.state]
    exact yields_work (Work.quiet_log _ _) told.listening (yields_pure _ told.listening)
  unfold forward
  split
  · exact yields_work (Work.quiet_log _ _) listening (sent _ rfl rfl)
  · exact sent w rfl rfl

variable (batch : TouchBatch)

/-- A batch is kept from the engine before graphics are ready and while an overlay is showing. -/
theorem yields_touch_of_held (listening : w.engine.reactions = [])
    (held : w.front.session.state.graphicsReady = false ∨ w.front.session.state.stack ≠ []) :
    (touch tell batch).Yields w .neutral w.front.session.state [] := by
  have kept : (!w.front.session.state.graphicsReady ||
      decide (0 < w.front.session.state.depth)) = true := by
    rcases held with unready | showing
    · rw [unready]
      rfl
    · have deep : 0 < w.front.session.state.depth := List.length_pos_iff.2 showing
      rw [decide_eq_true deep, Bool.or_true]
  refine yields_state ?_
  rw [if_pos kept]
  exact yields_pure _ listening

/-- A batch that is not kept from the engine is forwarded first. -/
private theorem run_touch_of_ready (listens : tell.Listens) (listening : w.engine.reactions = [])
    (ready : w.front.session.state.graphicsReady = true)
    (empty : w.front.session.state.stack = []) :
    ∃ v, w.Yields v w.front.session.state [⟨.touch batch.sample, w.front.session.state⟩] ∧
      touch tell batch w = (if (TouchOutcome.ofFlags w.engine.reply).showMenu then do
          let _ ← showMainMenu tell
          return .ofFlags w.engine.reply
        else return .ofFlags w.engine.reply : Act TouchOutcome) v := by
  have passed : ¬ (!w.front.session.state.graphicsReady ||
      decide (0 < w.front.session.state.depth)) = true := by
    simp [ready, SessionState.depth, empty]
  obtain ⟨v, ran, before⟩ := yields_forward listens listening batch
  refine ⟨v, before, (congrFun (if_neg passed) w).trans ?_⟩
  rw [run_bind, ran]

/-- A reply that does not ask for the menu, or does not handle the batch, leaves the session as it
is. -/
theorem yields_touch_of_not_showMenu (listens : tell.Listens) (listening : w.engine.reactions = [])
    (ready : w.front.session.state.graphicsReady = true)
    (empty : w.front.session.state.stack = [])
    (plain : (TouchOutcome.ofFlags w.engine.reply).showMenu = false) :
    (touch tell batch).Yields w (.ofFlags w.engine.reply) w.front.session.state
      [⟨.touch batch.sample, w.front.session.state⟩] := by
  obtain ⟨v, before, run⟩ := run_touch_of_ready batch listens listening ready empty
  rw [plain, if_neg Bool.false_ne_true] at run
  exact ⟨v, run, before⟩

/-- A reply that handles the batch and asks for the menu puts it on. -/
theorem yields_touch_of_showMenu (listens : tell.Listens) (free : w.front.session.locked = false)
    (listening : w.engine.reactions = [])
    (ready : w.front.session.state.graphicsReady = true)
    (empty : w.front.session.state.stack = [])
    (asked : (TouchOutcome.ofFlags w.engine.reply).showMenu = true) :
    ∃ menu : Overlay, menu.kind = .mainMenu ∧ menu.bounds = some w.front.session.state.bounds ∧
      (touch tell batch).Yields w (.ofFlags w.engine.reply)
        (w.front.session.state.apply (.pushed menu))
        [⟨.touch batch.sample, w.front.session.state⟩,
          ⟨.pause false, w.front.session.state.apply (.pushed menu)⟩] := by
  obtain ⟨v, before, run⟩ := run_touch_of_ready batch listens listening ready empty
  rw [asked, if_pos rfl] at run
  have absent : v.front.session.state.shows .mainMenu = false := by
    rw [before.state, SessionState.shows, empty]
    rfl
  have raised := yields_showNew listens (before.free free) before.listening .mainMenu absent
  obtain ⟨u, ran, after⟩ := raised.map fun _ => TouchOutcome.ofFlags w.engine.reply
  rw [before.state] at after
  exact ⟨_, rfl, rfl, u, run.trans ran, before.trans after⟩

end FrontEnd

open FrontEnd

/-- Whatever the session is like, while the engine only listens, a touch batch has the neutral outcome
and is not heard of before graphics are ready or while an overlay is showing. Otherwise the engine
hears of its sample once, and the outcome carries the reply bit by bit; the batch is consumed if and
only if the lowest bit of the reply is set. If the next bit is set as well, the main menu is put on,
alone, and the engine hears of the pause; the next batch is then not heard of. With any other reply
the session stays as it is. -/
theorem World.touch_answers (w : World) (free : w.front.session.locked = false)
    (listening : w.engine.reactions = []) (depth : Nat) (batch : TouchBatch) :
    let s := w.front.session.state
    let reply := w.engine.reply
    let outcome := TouchOutcome.ofFlags reply
    let touch := FrontEnd.touch (tellWithin depth)
    (s.graphicsReady = false ∨ s.stack ≠ [] → (touch batch).Yields w .neutral s []) ∧
    (s.graphicsReady = true → s.stack = [] →
      outcome.flags = reply ∧
      (outcome.consumed = true ↔ reply.bits.toNat.testBit 0 = true) ∧
      (reply.bits.toNat.testBit 0 = true ∧ reply.bits.toNat.testBit 1 = true →
        ∃ menu : Overlay, menu.kind = .mainMenu ∧ menu.bounds = some s.bounds ∧
          let raised := { s with stack := [menu], run := s.run.pause .overlay }
          (touch batch).Yields w outcome raised [⟨.touch batch.sample, s⟩, ⟨.pause false, raised⟩] ∧
          ∀ next, (do let _ ← touch batch; touch next).Yields w .neutral raised
            [⟨.touch batch.sample, s⟩, ⟨.pause false, raised⟩]) ∧
      (¬ (reply.bits.toNat.testBit 0 = true ∧ reply.bits.toNat.testBit 1 = true) →
        (touch batch).Yields w outcome s [⟨.touch batch.sample, s⟩])) := by
  intro s reply outcome touch
  have listens := listens_tellWithin depth
  have showMenu : outcome.showMenu = (reply.bits.toNat.testBit 0 && reply.bits.toNat.testBit 1) := by
    rw [← reply.contains_handled, ← reply.contains_requestShowMenu]
    rfl
  refine ⟨yields_touch_of_held batch listening, fun ready empty =>
    ⟨rfl, ?_, fun both => ?_, fun other => ?_⟩⟩
  · rw [← reply.contains_handled]
    rfl
  · have asked : outcome.showMenu = true := by rw [showMenu, both.1, both.2]; rfl
    obtain ⟨menu, kind, bounds, raised⟩ :=
      yields_touch_of_showMenu batch listens free listening ready empty asked
    have alone : w.front.session.state.apply (.pushed menu) =
        { s with stack := [menu], run := s.run.pause .overlay } := by
      show { s with stack := menu :: s.stack, run := _ } = _
      rw [empty]
    rw [alone] at raised
    refine ⟨menu, kind, bounds, raised, fun next => raised.bind fun v before => ?_⟩
    have showing : v.front.session.state.stack ≠ [] := before.state ▸ List.cons_ne_nil _ _
    have kept : (touch next).Yields v .neutral v.front.session.state [] :=
      yields_touch_of_held next before.listening (.inr showing)
    rw [before.state] at kept
    exact kept
  · refine yields_touch_of_not_showMenu batch listens listening ready empty ?_
    rw [showMenu, Bool.eq_false_iff, ne_eq, Bool.and_eq_true]
    exact other

/-- A run that leaves no overlay, and an engine that answers touches with the menu bit, the bit that
marks them handled, and one without a meaning. -/
def Run.menuOnTouch : Run where
  machine := default
  config := .new ⟨"data"⟩
  reactions := []
  ops := [.host (.graphicsReady 800 480), .host (.pressSplash .start),
    .outside (.setReply ⟨0x80000003⟩)]

/-- A finger that is put down. -/
def TouchBatch.tap : TouchBatch := ⟨.down, 1, 0, [.zero], [.zero]⟩

/-- The first of two batches raises the menu, and the engine does not hear of the second. -/
theorem World.touch_answers_menuOnTouch :
    ∃ raised : SessionState, raised.stack.map Overlay.kind = [.mainMenu] ∧
      raised.run.holds .overlay = true ∧
      (FrontEnd.touch (tellWithin 0) .tap).Yields Run.menuOnTouch.final
        ⟨⟨0x80000003⟩, true, true, false⟩ raised
        [⟨.touch TouchBatch.tap.sample, Run.menuOnTouch.state⟩, ⟨.pause false, raised⟩] ∧
      (do
        let _ ← FrontEnd.touch (tellWithin 0) .tap
        FrontEnd.touch (tellWithin 0) .tap).Yields Run.menuOnTouch.final .neutral raised
        [⟨.touch TouchBatch.tap.sample, Run.menuOnTouch.state⟩, ⟨.pause false, raised⟩] := by
  have free : Run.menuOnTouch.final.front.session.locked = false := by decide +kernel
  have reply : Run.menuOnTouch.final.engine = ⟨⟨0x80000003⟩, []⟩ := by decide +kernel
  have ready : Run.menuOnTouch.final.front.session.state.graphicsReady = true := by decide +kernel
  have empty : Run.menuOnTouch.final.front.session.state.stack = [] := by decide +kernel
  obtain ⟨-, answered⟩ := Run.menuOnTouch.final.touch_answers free (by rw [reply]) 0 .tap
  obtain ⟨-, -, raises, -⟩ := answered ready empty
  rw [reply] at raises
  obtain ⟨menu, kind, -, raised, after⟩ := raises (by decide)
  refine ⟨_, ?_, rfl, raised, after .tap⟩
  rw [List.map_singleton, kind]

end EmuFront
