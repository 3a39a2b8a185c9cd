import EmuFront.Proofs.Keeping

/-!
# Strokes of keys

The engine is told of the presses and releases of keys that are begun, in their order, but for those
of the volume keys and for the releases of Back and Menu, which work the overlays. A key that is
released as often as it is pressed is therefore so in the engine too, unless it is one of these two:
their presses are passed on, and nothing ever releases them.
-/

namespace EmuFront

/-! ## Strokes -/

/-- A key that is pressed or released. -/
structure Stroke where
  code : Int32
  modifiers : Int32
  down : Bool
deriving DecidableEq

/-- The stroke that a call tells of. -/
def EngineCall.stroke? : EngineCall → Option Stroke
  | keyDown code modifiers => some ⟨code, modifiers, true⟩
  | keyUp code modifiers => some ⟨code, modifiers, false⟩
  | _ => none

/-- The stroke that an operation is about. -/
def Op.stroke? : Op → Option Stroke
  | .host (.keyDown code modifiers) => some ⟨code, modifiers, true⟩
  | .host (.keyUp code modifiers) => some ⟨code, modifiers, false⟩
  | _ => none

/-- The stroke that the engine is told of in an event. -/
def Event.stroke? : Event → Option Stroke
  | .told _ call _ => call.stroke?
  | _ => none

/-- The strokes that the engine is told of in a history, in order. -/
def strokesHeard (history : List Event) : List Stroke := history.filterMap Event.stroke?

/-- The strokes that are begun in a history, by the host or by the engine, in order. -/
def strokesBegun (history : List Event) : List Stroke := (opsOf history).filterMap Op.stroke?

theorem strokesHeard_append (first rest : List Event) :
    strokesHeard (first ++ rest) = strokesHeard first ++ strokesHeard rest := List.filterMap_append ..

theorem strokesBegun_append (first rest : List Event) :
    strokesBegun (first ++ rest) = strokesBegun first ++ strokesBegun rest := by
  rw [strokesBegun, opsOf_append, List.filterMap_append]
  rfl

/-- Whether the release of a key works the overlays. -/
def FrontEnd.isOverlayKey (code : Int32) : Bool := code = backKey || code = menuKey

theorem FrontEnd.isOverlayKey_of_isVolumeKey {code : Int32} (volume : isVolumeKey code = true) :
    isOverlayKey code = false := by
  obtain (rfl | rfl) | rfl : (code = 24 ∨ code = 25) ∨ code = 164 := by
    simpa [isVolumeKey] using volume
  all_goals rfl

namespace Stroke

open FrontEnd

/-- Whether the engine is told of a stroke. -/
def isPassedOn (k : Stroke) : Bool := !isVolumeKey k.code && (k.down || !isOverlayKey k.code)

/-- The strokes of one key. -/
def ofKey (code : Int32) (strokes : List Stroke) : List Stroke :=
  strokes.filter fun k => k.code = code

/-- How often a key is pressed. -/
def presses (code : Int32) (strokes : List Stroke) : Nat := (ofKey code strokes).countP down

/-- How often a key is released. -/
def releases (code : Int32) (strokes : List Stroke) : Nat :=
  (ofKey code strokes).countP fun k => !k.down

/-- Every key is released as often as it is pressed. -/
def Balanced (strokes : List Stroke) : Prop := ∀ code, presses code strokes = releases code strokes

/-- Whether the last stroke of a key is a press. -/
def leftDown (code : Int32) (strokes : List Stroke) : Bool :=
  (ofKey code strokes).getLast?.any down

/-- What is true of no strokes is true of those of every key if it is of the keys that are struck. -/
theorem forall_ofKey {strokes : List Stroke} {motive : List Stroke → Prop} (nothing : motive []) :
    (∀ code, motive (ofKey code strokes)) ↔ ∀ k ∈ strokes, motive (ofKey k.code strokes) := by
  refine ⟨fun every k _ => every k.code, fun struck code => ?_⟩
  cases member : ofKey code strokes with
  | nil => exact nothing
  | cons k rest =>
    have found : k ∈ ofKey code strokes := member ▸ List.mem_cons_self
    obtain ⟨among, same⟩ := List.mem_filter.1 found
    obtain rfl : k.code = code := by simpa using same
    rw [← member]
    exact struck k among

instance (strokes : List Stroke) : Decidable (Balanced strokes) :=
  decidable_of_iff (∀ k ∈ strokes, presses k.code strokes = releases k.code strokes)
    (forall_ofKey (motive := fun struck => struck.countP down = struck.countP fun k => !k.down)
      rfl).symm

instance (strokes : List Stroke) : Decidable (∀ code, leftDown code strokes = false) :=
  decidable_of_iff (∀ k ∈ strokes, leftDown k.code strokes = false)
    (forall_ofKey (motive := fun struck => struck.getLast?.any down = false) rfl).symm

/-! ### Strokes that are passed on -/

section
variable {code : Int32} (strokes : List Stroke)

/-- Nothing is passed on of the volume keys. -/
theorem ofKey_passedOn_of_volume (volume : isVolumeKey code = true) :
    ofKey code (strokes.filter isPassedOn) = [] := by
  refine List.filter_eq_nil_iff.2 fun k member => ?_
  have passed := (List.mem_filter.1 member).2
  simp only [decide_eq_true_eq]
  rintro rfl
  simp [isPassedOn, volume] at passed

/-- Of Back and Menu, only what goes down is passed on. -/
theorem ofKey_passedOn_of_overlay (overlay : isOverlayKey code = true) :
    ofKey code (strokes.filter isPassedOn) = (ofKey code strokes).filter down := by
  have other : isVolumeKey code = false :=
    Bool.eq_false_iff.2 fun volume => Bool.false_ne_true <|
      (isOverlayKey_of_isVolumeKey volume).symm.trans overlay
  rw [ofKey, ofKey, List.filter_comm]
  refine List.filter_congr fun k member => ?_
  obtain rfl : k.code = code := by simpa using (List.mem_filter.1 member).2
  simp [isPassedOn, overlay, other]

/-- Every other key is passed on as it goes down and up. -/
theorem ofKey_passedOn (volume : isVolumeKey code = false) (overlay : isOverlayKey code = false) :
    ofKey code (strokes.filter isPassedOn) = ofKey code strokes := by
  rw [ofKey, ofKey, List.filter_comm]
  refine List.filter_eq_self.2 fun k member => ?_
  obtain rfl : k.code = code := by simpa using (List.mem_filter.1 member).2
  simp [isPassedOn, overlay, volume]

/-- Of a key that works the overlays the presses are passed on, and nothing releases it. -/
theorem presses_passedOn_of_overlay (overlay : isOverlayKey code = true) :
    presses code (strokes.filter isPassedOn) = presses code strokes ∧
      releases code (strokes.filter isPassedOn) = 0 := by
  rw [presses, releases, ofKey_passedOn_of_overlay strokes overlay]
  refine ⟨?_, List.countP_eq_zero.2 fun k member => ?_⟩
  · rw [List.countP_filter, presses]
    simp only [Bool.and_self]
  · simp [(List.mem_filter.1 member).2]

/-- A key that is released as often as it is pressed is so where its strokes are passed on, but for
the presses of a key that works the overlays. -/
theorem surplus_passedOn (balanced : presses code strokes = releases code strokes) :
    presses code (strokes.filter isPassedOn) = releases code (strokes.filter isPassedOn) +
      if isOverlayKey code then presses code strokes else 0 := by
  cases overlay : isOverlayKey code with
  | true =>
    obtain ⟨pressed, released⟩ := presses_passedOn_of_overlay strokes overlay
    rw [pressed, released, if_pos rfl, Nat.zero_add]
  | false =>
    rw [if_neg Bool.false_ne_true, Nat.add_zero, presses, releases]
    cases volume : isVolumeKey code with
    | true => rw [ofKey_passedOn_of_volume strokes volume]; rfl
    | false =>
      rw [ofKey_passedOn strokes volume overlay]
      exact balanced

/-- A key that works the overlays is left down once it has been pressed. -/
theorem leftDown_passedOn_of_overlay (overlay : isOverlayKey code = true) :
    leftDown code (strokes.filter isPassedOn) = false ↔ presses code strokes = 0 := by
  rw [leftDown, presses, ofKey_passedOn_of_overlay strokes overlay, List.countP_eq_zero]
  constructor
  · intro up k member pressed
    have some : (ofKey code strokes).filter down ≠ [] :=
      List.ne_nil_of_mem (List.mem_filter.2 ⟨member, pressed⟩)
    have last := List.getLast_mem some
    rw [List.getLast?_eq_some_getLast some, Option.any_some, (List.mem_filter.1 last).2] at up
    cases up
  · intro none
    rw [List.filter_eq_nil_iff.2 none]
    rfl

/-- A key that is not left down is so where its strokes are passed on, unless it works the overlays
and has been pressed. -/
theorem leftDown_passedOn (up : leftDown code strokes = false) :
    leftDown code (strokes.filter isPassedOn) = false ↔
      isOverlayKey code = true → presses code strokes = 0 := by
  cases overlay : isOverlayKey code with
  | true =>
    rw [leftDown_passedOn_of_overlay strokes overlay]
    exact ⟨fun none _ => none, fun none => none rfl⟩
  | false =>
    refine iff_of_true ?_ nofun
    cases volume : isVolumeKey code with
    | true =>
      rw [leftDown, ofKey_passedOn_of_volume strokes volume]
      rfl
    | false =>
      rw [leftDown, ofKey_passedOn strokes volume overlay]
      exact up

/-- The keys that work the overlays are Back and Menu. -/
theorem forall_presses_eq_zero :
    (∀ code, isOverlayKey code = true → presses code strokes = 0) ↔
      presses backKey strokes = 0 ∧ presses menuKey strokes = 0 := by
  simp [isOverlayKey]

end
end Stroke

/-! ## From scene to scene -/

namespace Scene

variable {first : List Stroke} {a b c : Scene}

/-- From one scene to another the engine is told of these strokes first, and then of those that are
begun and passed on. -/
def Strikes (first : List Stroke) (a b : Scene) : Prop :=
  ∃ added, b.trace = a.trace ++ added ∧
    strokesHeard added = first ++ (strokesBegun added).filter Stroke.isPassedOn

/-- What strikes no further key adds nothing to what was heard. -/
theorem Strikes.trans (before : a.Strikes first b) (rest : b.Strikes [] c) : a.Strikes first c := by
  obtain ⟨xs, trace, heard⟩ := before
  obtain ⟨ys, trace', heard'⟩ := rest
  refine ⟨xs ++ ys, by rw [trace', trace, List.append_assoc], ?_⟩
  rw [strokesHeard_append, strokesBegun_append, heard, heard', List.filter_append,
    List.nil_append, List.append_assoc]

/-- A call is heard as the stroke that it passes on, if it is one. -/
theorem strikes_told (a : Scene) (call : EngineCall) :
    a.Strikes call.stroke?.toList (a.observe (.told a.engine call a.session)) := by
  refine ⟨[.told a.engine call a.session], rfl, ?_⟩
  show [Event.told a.engine call a.session].filterMap Event.stroke? = _ ++ []
  rw [List.append_nil]
  cases told : call.stroke? with
  | none => exact List.filterMap_cons_none told
  | some k => exact List.filterMap_cons_some told

/-- The stroke of an operation is passed on by the call that it makes of itself. -/
theorem Strikes.of_began {e : EngineRef} {op : Op} {s : SessionState}
    (h : (a.observe (.began e op s)).Strikes (op.stroke?.filter Stroke.isPassedOn).toList b) :
    a.Strikes [] b := by
  obtain ⟨added, trace, heard⟩ := h
  refine ⟨.began e op s :: added, ?_, ?_⟩
  · rw [trace, observe, List.append_assoc]
    rfl
  · show strokesHeard added = ((op :: opsOf added).filterMap Op.stroke?).filter Stroke.isPassedOn
    rw [heard, strokesBegun]
    cases struck : op.stroke? with
    | none =>
      rw [List.filterMap_cons_none struck]
      rfl
    | some k =>
      rw [List.filterMap_cons_some struck, List.filter_cons, Option.filter_some]
      split <;> rfl

/-- From one scene to another these operations are begun, in order and among others. -/
def Begins (ops : List Op) (a b : Scene) : Prop :=
  ∃ added, b.trace = a.trace ++ added ∧ ops.Sublist (opsOf added)

/-- What is begun in a row is heard in a row. -/
theorem Begins.trans {ops more : List Op} (before : a.Begins ops b) (rest : b.Begins more c) :
    a.Begins (ops ++ more) c := by
  obtain ⟨xs, trace, begun⟩ := before
  obtain ⟨ys, trace', begun'⟩ := rest
  refine ⟨xs ++ ys, by rw [trace', trace, List.append_assoc], ?_⟩
  rw [opsOf_append]
  exact begun.append begun'

theorem Begins.of_began {e : EngineRef} {op : Op} {s : SessionState}
    (h : (a.observe (.began e op s)).Strikes first b) : a.Begins [op] b := by
  obtain ⟨added, trace, -⟩ := h
  refine ⟨.began e op s :: added, ?_, List.singleton_sublist.2 List.mem_cons_self⟩
  rw [trace, observe, List.append_assoc]
  rfl

/-- The engine is told of the strokes that are begun and passed on. -/
def striking : Rule where
  Holds := Strikes []
  Allows _ _ := True
  ordinary _ := trivial
  same trace _ := ⟨[], trace.trans (List.append_nil _).symm, rfl⟩
  commit _ := ⟨_, rfl, rfl⟩
  trans := .trans

end Scene

/-! ## Operations -/

open Act FrontEnd

/-- A way to call the engine in which it is told of the stroke of the call, and then of those that are
begun from inside. -/
def Tell.Strikes (tell : Tell) : Prop :=
  ∀ (call : EngineCall) (w : World), Act.Ensures (tell call) w
    (fun _ v => w.scene.Strikes call.stroke?.toList v.scene)
    fun v => w.scene.Strikes call.stroke?.toList v.scene

variable {tell : Tell}

theorem Tell.Strikes.keeps (h : tell.Strikes) : tell.Keeps Scene.striking := by
  intro call other w
  have struck := h call w
  cases call with
  | keyDown | keyUp => cases other
  | _ => exact struck

/-- What goes on without strokes of its own goes on from where that began. -/
theorem Act.Keeps.strikes {α : Type} {act : Act α} {first : List Stroke} {w v : World}
    (h : act.Keeps Scene.striking) (before : w.scene.Strikes first v.scene) :
    act.Ensures v (fun _ u => w.scene.Strikes first u.scene) fun u => w.scene.Strikes first u.scene :=
  (h v).mono (fun _ _ => before.trans) fun _ => before.trans

namespace Op

/-- The call by which an operation passes its stroke on tells of that stroke. -/
theorem stroke?_filter (op : Op) :
    op.stroke?.filter Stroke.isPassedOn = op.keyCall?.bind EngineCall.stroke? := by
  cases op with
  | host op =>
    cases op with
    | keyDown code modifiers =>
      show (if _ then _ else _) = (if _ then _ else _ : Option EngineCall).bind _
      cases volume : isVolumeKey code <;> simp [Stroke.isPassedOn, volume, EngineCall.stroke?]
    | keyUp code modifiers =>
      show (if _ then _ else _) = (if _ then _ else _ : Option EngineCall).bind _
      by_cases back : code = backKey
      · simp [Stroke.isPassedOn, isOverlayKey, back]
      · by_cases menu : code = menuKey
        · simp [Stroke.isPassedOn, isOverlayKey, menu]
        · cases volume : isVolumeKey code <;>
            simp [Stroke.isPassedOn, isOverlayKey, back, menu, volume, EngineCall.stroke?]
    | _ => rfl
  | stack | crash | machine | outside => rfl

/-- What an operation does of itself is to pass its stroke on. -/
theorem strikes_body (h : tell.Strikes) (op : Op) (w : World) :
    (op.body tell).Ensures w
      (fun _ v => w.scene.Strikes (op.stroke?.filter Stroke.isPassedOn).toList v.scene)
      fun v => w.scene.Strikes (op.stroke?.filter Stroke.isPassedOn).toList v.scene := by
  rw [stroke?_filter]
  cases passes : op.keyCall? with
  | none => exact keeps_body h.keeps passes (fun _ => trivial) w
  | some call =>
    rw [body_of_keyCall passes]
    exact (h call w).bind (fun _ _ told => told) fun _ => id

/-- Every operation passes on the stroke that it begins with, and no other. -/
theorem strikes_perform (h : tell.Strikes) (op : Op) : (op.perform tell).Keeps Scene.striking := by
  intro w
  apply ensures_perform
  intro v begun
  have struck := strikes_body h op v
  rw [begun] at struck
  exact struck.mono (fun _ _ => .of_began) fun _ => .of_began

/-- An operation is begun, whatever comes of it. -/
theorem begins_perform (h : tell.Strikes) (op : Op) (w : World) :
    (op.perform tell).Ensures w (fun _ v => w.scene.Begins [op] v.scene)
      fun v => w.scene.Begins [op] v.scene := by
  apply ensures_perform
  intro v begun
  have struck := strikes_body h op v
  rw [begun] at struck
  exact struck.mono (fun _ _ => Scene.Begins.of_began) fun _ => Scene.Begins.of_began

end Op

theorem Act.strikes_deliver : Tell.Strikes deliver := fun call w =>
  (ensures_deliver call w).mono (fun _ v told => by
    rw [told]
    exact w.scene.strikes_told call) fun _ => False.elim

/-- However deep the engine calls back, it is told of the stroke of a call first. -/
theorem strikes_tellWithin (depth : Nat) : (tellWithin depth).Strikes := by
  induction depth with
  | zero => exact strikes_deliver
  | succ depth ih =>
    intro call w
    refine (strikes_deliver call w).bind (fun _ v told => Keeps.strikes ?_ told) fun _ => id
    refine (still_takeReaction call.name).thenKeeps fun reaction => ?_
    cases reaction with
    | none => exact (still_pure ()).keeps
    | some reaction => exact Op.keeps_performAll (Op.strikes_perform ih) reaction.ops

/-! ## Runs -/

/-- What the host does is begun, one operation after the other. -/
theorem Op.begins_runAll (ops : List Op) (w : World) :
    w.scene.Begins ops (runAll ops w).2.scene := by
  induction ops generalizing w with
  | nil => exact ⟨[], (List.append_nil _).symm, .slnil⟩
  | cons op rest ih =>
    have ran : (react op.perform).Ensures w (fun _ v => w.scene.Begins [op] v.scene)
        fun v => w.scene.Begins [op] v.scene := by
      rw [react, ensures_bind, ensures_get]
      exact op.begins_perform (strikes_tellWithin _) w
    exact ran.after.trans (ih _)

namespace Run

open Stroke

/-- The engine is told of the strokes that are begun, in order, but for those that are not passed
on. -/
theorem strokesHeard_trace (r : Run) :
    strokesHeard r.trace = (strokesBegun r.trace).filter isPassedOn := by
  obtain ⟨added, trace, heard⟩ := Op.holds_runAll
    (fun depth => Op.strikes_perform (strikes_tellWithin depth)) r.ops r.start
  have all : r.trace = added := trace
  rw [all]
  exact heard

/-- The strokes of the host are begun, in order, among those that the engine begins. -/
theorem strokes_sublist (r : Run) :
    (r.ops.filterMap Op.stroke?).Sublist (strokesBegun r.trace) := by
  obtain ⟨added, trace, begun⟩ := Op.begins_runAll r.ops r.start
  have all : r.trace = added := trace
  rw [all]
  exact begun.filterMap _

/-- Where the keys that are pressed are released, by the host or from inside a call of the engine, and
whatever else is done meanwhile, the engine is told of the same strokes but for those of the volume
keys and for the releases of Back and Menu. So every key is released in the engine as often as it is
pressed there, but for the presses of Back and Menu, which all remain; and where the host leaves no
key down, the engine is left with none exactly if neither of the two was pressed. -/
theorem engine_keys_balance_iff (r : Run) (balanced : Balanced (strokesBegun r.trace)) :
    let begun := strokesBegun r.trace
    let heard := strokesHeard r.trace
    (r.ops.filterMap Op.stroke?).Sublist begun ∧ heard = begun.filter isPassedOn ∧
    (∀ code, presses code heard = releases code heard +
      if isOverlayKey code then presses code begun else 0) ∧
    (Balanced heard ↔ presses backKey begun = 0 ∧ presses menuKey begun = 0) ∧
    ((∀ code, leftDown code begun = false) → ((∀ code, leftDown code heard = false) ↔
      presses backKey begun = 0 ∧ presses menuKey begun = 0)) := by
  intro begun heard
  have passed : heard = begun.filter isPassedOn := r.strokesHeard_trace
  have surplus : ∀ code, presses code heard = releases code heard +
      if isOverlayKey code then presses code begun else 0 := by
    intro code
    rw [passed]
    exact surplus_passedOn begun (balanced code)
  refine ⟨r.strokes_sublist, passed, surplus, ?_, fun up => ?_⟩
  · rw [← forall_presses_eq_zero]
    refine forall_congr' fun code => ?_
    rw [surplus code, Nat.add_eq_left, ite_eq_right_iff]
  · rw [← forall_presses_eq_zero, passed]
    exact forall_congr' fun code => leftDown_passedOn begun (up code)

/-- A run in which the engine presses a key from inside the press of another and then panics. The host
releases both, and meanwhile closes the main menu. -/
def typing : Run where
  machine := default
  config := .new ⟨"data"⟩
  reactions := [⟨.keyDown,
    [.host .showMainMenu, .host (.keyDown 31 0), .stack (.push .mainMenu .unknown)]⟩]
  ops := [.host (.graphicsReady 800 480), .host (.keyDown 30 1), .host (.keyDown 24 0),
    .host (.keyUp 24 0), .stack .pop, .host (.keyUp 31 0), .host (.keyUp 30 0)]

/-- The engine is told of all but the volume key, and is left with no key down. -/
theorem engine_keys_balance_iff_typing :
    Balanced (strokesBegun typing.trace) ∧ (∀ code, leftDown code (strokesBegun typing.trace) = false) ∧
      strokesHeard typing.trace = [⟨30, 1, true⟩, ⟨31, 0, true⟩, ⟨31, 0, false⟩, ⟨30, 0, false⟩] ∧
      Balanced (strokesHeard typing.trace) ∧
      ∀ code, leftDown code (strokesHeard typing.trace) = false := by
  have balanced : Balanced (strokesBegun typing.trace) := by decide +kernel
  have up : ∀ code, leftDown code (strokesBegun typing.trace) = false := by decide +kernel
  have unpressed : presses backKey (strokesBegun typing.trace) = 0 ∧
      presses menuKey (strokesBegun typing.trace) = 0 := by decide +kernel
  obtain ⟨-, heard, -, balances, released⟩ := typing.engine_keys_balance_iff balanced
  refine ⟨balanced, up, ?_, balances.2 unpressed, (released up).2 unpressed⟩
  rw [heard]
  decide +kernel

/-- The Menu key is pressed and released, and the engine is left with it down. -/
theorem exists_key_left_down :
    ∃ r : Run, r.ops = [.host (.keyDown menuKey 0), .host (.keyUp menuKey 0)] ∧ r.reactions = [] ∧
      Balanced (strokesBegun r.trace) ∧ (∀ code, leftDown code (strokesBegun r.trace) = false) ∧
      strokesHeard r.trace = [⟨menuKey, 0, true⟩] ∧ ¬ Balanced (strokesHeard r.trace) ∧
      leftDown menuKey (strokesHeard r.trace) = true :=
  ⟨⟨default, .new ⟨"data"⟩, [], [.host (.keyDown menuKey 0), .host (.keyUp menuKey 0)]⟩, rfl, rfl,
    by decide +kernel, by decide +kernel, by decide +kernel, by decide +kernel, by decide +kernel⟩

end Run
end EmuFront
