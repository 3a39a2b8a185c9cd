import EmuFront.Proofs.Reached

/-!
# Invariants of the session

What holds of the session in every state that a run comes by: which overlays can be showing, and
which operations so far have each pause held.
-/

namespace EmuFront

/-! ## What was begun -/

/-- Whether an operation starts graphics. -/
def Op.startsGraphics : Op → Bool
  | .host (.graphicsReady ..) => true
  | _ => false

/-- Whether an operation is the host's going to the background (`true`) or its coming back
(`false`), if it is one of them. -/
def Op.background? : Op → Option Bool
  | .host .hostPaused => some true
  | .host .hostResumed => some false
  | _ => none

/-- Whether an event begins an operation that starts graphics. -/
def Event.startsGraphics : Event → Bool
  | .began _ op _ => op.startsGraphics
  | _ => false

/-- The host's going to the background or coming back, if an event begins it. -/
def Event.background? : Event → Option Bool
  | .began _ op _ => op.background?
  | _ => none

/-- Whether a change starts graphics. -/
def Change.startsGraphics : Change → Bool
  | .graphicsReady _ => true
  | _ => false

/-- Whether the host's pause is held after a change, if the change is about it. -/
def Change.background? : Change → Option Bool
  | .hostPaused => some true
  | .hostResumed => some false
  | _ => none

/-- What an operation asks for says whether it starts graphics. -/
theorem Op.startsGraphics_eq (op : Op) :
    op.startsGraphics = op.change?.any Change.startsGraphics := by
  cases op with
  | host op => cases op <;> rfl
  | stack | crash | machine | outside => rfl

theorem Op.background?_eq (op : Op) : op.background? = op.change?.bind Change.background? := by
  cases op with
  | host op => cases op <;> rfl
  | stack | crash | machine | outside => rfl

/-- An event that begins no operation on graphics or on the host's going and coming. -/
def Event.IsSilent (x : Event) : Prop := x.startsGraphics = false ∧ x.background? = none

namespace Event

variable {e : EngineRef}

theorem isSilent_committed (c : Change) : (committed e c).IsSilent := ⟨rfl, rfl⟩

theorem isSilent_told (call : EngineCall) (seen : Session) :
    (told e call seen).IsSilent := ⟨rfl, rfl⟩

theorem isSilent_began {op : Op} (plain : op.change? = none) (s : SessionState) :
    (began e op s).IsSilent := by
  refine ⟨?_, ?_⟩
  · rw [startsGraphics, op.startsGraphics_eq, plain]
    rfl
  · rw [background?, op.background?_eq, plain]
    rfl

theorem isSilent_of_mem_events {s : SessionState} {c : Change} {poisoned : Bool} {x : Event}
    (member : x ∈ s.events e c poisoned) : x.IsSilent := by
  simp only [SessionState.events, List.mem_cons, Option.mem_toList,
    Option.map_eq_some_iff] at member
  obtain rfl | ⟨call, _, rfl⟩ := member
  · exact isSilent_committed c
  · exact isSilent_told call _

end Event

/-! ## What the session recalls -/

namespace SessionState

theorem graphicsReady_apply (s : SessionState) (c : Change) :
    (s.apply c).graphicsReady = (s.graphicsReady || c.startsGraphics) := by
  cases c with
  | graphicsReady size => exact (Bool.or_true _).symm
  | _ => exact (Bool.or_false _).symm

theorem host_apply (s : SessionState) (c : Change) :
    (s.apply c).run.host = c.background?.getD s.run.host := by
  cases c with
  | removed o => exact host_removed o
  | _ => rfl

/-- The session has graphics ready and holds the host's pause as a history of operations has it. -/
structure Recalls (history : List Event) (s : SessionState) : Prop where
  graphics : s.graphicsReady = history.any Event.startsGraphics
  host : s.run.host = (history.filterMap Event.background?).getLast?.getD false

variable {e : EngineRef} {history rest : List Event} {s t : SessionState}

/-- Of what happens, only the operations begun are recalled. -/
theorem Recalls.append (h : s.Recalls history) (begun : List Event) (silent : ∀ x ∈ rest, x.IsSilent)
    (graphics : t.graphicsReady = (s.graphicsReady || begun.any Event.startsGraphics))
    (host : t.run.host = (begun.filterMap Event.background?).getLast?.getD s.run.host) :
    t.Recalls (history ++ (begun ++ rest)) := by
  have starts : rest.any Event.startsGraphics = false :=
    List.any_eq_false.2 fun x member => Bool.not_eq_true _ ▸ (silent x member).1
  have hides : rest.filterMap Event.background? = [] :=
    List.filterMap_eq_nil_iff.2 fun x member => (silent x member).2
  refine ⟨?_, ?_⟩
  · rw [graphics, h.graphics, List.any_append, List.any_append, starts, Bool.or_false]
  · rw [host, h.host, List.filterMap_append, List.filterMap_append, hides, List.append_nil,
      List.getLast?_append]
    cases (begun.filterMap Event.background?).getLast? <;> rfl

/-- What begins no operation and leaves graphics and the host's pause alone is not recalled. -/
theorem Recalls.append_silent (h : s.Recalls history) (silent : ∀ x ∈ rest, x.IsSilent)
    (graphics : t.graphicsReady = s.graphicsReady) (host : t.run.host = s.run.host) :
    t.Recalls (history ++ rest) :=
  h.append [] silent (graphics.trans (Bool.or_false _).symm) host

theorem Recalls.step {events : List Event} (h : s.Recalls history) (move : Move e s events t) :
    t.Recalls (history ++ events) := by
  cases move with
  | @began op plain =>
    have silent : ∀ x ∈ [Event.began e op s], x.IsSilent := by
      simpa using Event.isSilent_began plain s
    exact h.append_silent silent rfl rfl
  | @told call poisoned plain fits =>
    have silent : ∀ x ∈ [Event.told e call ⟨s, false, poisoned⟩], x.IsSilent := by
      simpa using Event.isSilent_told _ _
    exact h.append_silent silent rfl rfl
  | @stack c poisoned admitted =>
    -- no change of the stack is about graphics or about the host's going and coming
    have unrelated : c.startsGraphics = false ∧ c.background? = none := by
      cases c with
      | pushed | removed | dismissableSet => exact ⟨rfl, rfl⟩
      | _ => exact admitted.elim
    refine h.append_silent (fun _ => Event.isSilent_of_mem_events) ?_ ?_
    · rw [graphicsReady_apply, unrelated.1, Bool.or_false]
    · rw [host_apply, unrelated.2]
      rfl
  | @host op c poisoned asked foreground =>
    -- the operation begun says of graphics and of the host what its change says
    refine h.append [.began e op s] (fun _ => Event.isSilent_of_mem_events) ?_ ?_
    · rw [graphicsReady_apply]
      simp [Event.startsGraphics, op.startsGraphics_eq, asked]
    · rw [host_apply]
      cases background : c.background? <;>
        simp [Event.background?, op.background?_eq, asked, background]
  | @background op poisoned asked =>
    rw [List.cons_append]
    refine h.append [.began e op s] ?_ ?_ ?_
    -- of the events that follow, the changes come first and the call last
    · intro x member
      obtain committed | told := List.mem_append.1
        (show x ∈ s.backgrounding.map (.committed e) ++ [_] from member)
      · rcases List.mem_map.1 committed with ⟨c, _, rfl⟩
        exact Event.isSilent_committed c
      · obtain rfl := List.mem_singleton.1 told
        exact Event.isSilent_told _ _
    · rw [backgrounded_graphicsReady]
      simp [Event.startsGraphics, op.startsGraphics_eq, asked, Change.startsGraphics]
    · rw [backgrounded_host]
      simp [Event.background?, op.background?_eq, asked, Change.background?]

theorem recalls_new : new.Recalls [] := ⟨rfl, rfl⟩

end SessionState

/-! ## Runs -/

namespace Run

variable {r : Run} {history : List Event} {s : SessionState}

theorem Reaches.recalls (h : r.Reaches history s) : s.Recalls history := by
  refine h.invariant (motive := fun history s => s.Recalls history) SessionState.recalls_new
    (fun _ _ _ _ before move => before.step move) fun history e call seen t after => ?_
  have graphics := after.graphics
  have host := after.host
  -- the call that is not part of the history yet begins nothing
  have starts : [Event.told e call seen].any Event.startsGraphics = false := rfl
  have hides : [Event.told e call seen].filterMap Event.background? = [] := rfl
  rw [List.any_append, starts, Bool.or_false] at graphics
  rw [List.filterMap_append, hides, List.append_nil] at host
  exact ⟨graphics, host⟩

/-- In every state that a run comes by, the overlays showing differ in kind and are attached; the
overlay pause is held while one is showing, the startup pause until an operation has started
graphics, and the host's pause from its going to the background until it comes back. -/
theorem session_invariants (r : Run) {history : List Event} {s : SessionState}
    (h : r.Reaches history s) :
    (s.stack.map Overlay.kind).Nodup ∧ s.depth ≤ 6 ∧ (∀ o ∈ s.stack, o.isAttached = true) ∧
      (s.run.holds .overlay = true ↔ s.stack ≠ []) ∧
      (s.run.holds .startup = true ↔ ∀ x ∈ history, x.startsGraphics = false) ∧
      (s.graphicsReady = false ↔ ∀ x ∈ history, x.startsGraphics = false) ∧
      (s.run.holds .host = true ↔
        (history.filterMap Event.background?).getLast? = some true) := by
  have sound := h.sound
  have recalls := h.recalls
  have unready : s.graphicsReady = false ↔ ∀ x ∈ history, x.startsGraphics = false := by
    rw [recalls.graphics]
    simp
  have startup : s.run.holds .startup = true ↔ ∀ x ∈ history, x.startsGraphics = false := by
    rw [RunState.holds, sound.startup, Bool.not_eq_true', unready]
  have host : s.run.holds .host = true ↔
      (history.filterMap Event.background?).getLast? = some true := by
    rw [RunState.holds, recalls.host]
    cases (history.filterMap Event.background?).getLast? <;> simp
  exact ⟨sound.kinds, sound.depth_le, sound.attached, sound.overlay, startup, unready, host⟩

/-- A run in which the engine, told that graphics are ready, puts on a main menu beside the one that
is showing: a panic. -/
def doublePush : Run where
  machine := default
  config := .new ⟨"data"⟩
  reactions := [⟨.graphicsReady, [.host .showMainMenu, .stack (.push .mainMenu .unknown)]⟩]
  ops := [.host (.graphicsReady 800 480)]

/-- The panic leaves an overlay showing, and its pause held. -/
theorem session_invariants_doublePush :
    doublePush.state.stack ≠ [] ∧ doublePush.state.run.holds .overlay = true := by
  have showing : doublePush.state.stack ≠ [] := by decide +kernel
  rcases doublePush.session_invariants .final with ⟨_, _, _, overlay, _⟩
  exact ⟨showing, overlay.2 showing⟩

end Run
end EmuFront
