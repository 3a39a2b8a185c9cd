import EmuFront.Front.Run

/-!
# What an action ensures

An action on a front end ends with a result or with a panic. `Ensures` states what is true in either
case, and the lemmas take it apart along the steps of an action, each of which starts from a known
world.
-/

namespace EmuFront.Act

variable {α β : Type}

/-- What is true after an action on a world: `done` of its result, `ended` after a panic. -/
def Ensures (act : Act α) (w : World) (done : α → World → Prop) (ended : World → Prop) : Prop :=
  match act w with
  | (.ok a, v) => done a v
  | (.error _, v) => ended v

/-! ## Putting actions together -/

section Rules
variable {w : World} {done : α → World → Prop} {ended : World → Prop}

/-- A panic of the first part is a panic of the whole, in the same world. -/
theorem run_bind (act : Act β) (next : β → Act α) (w : World) :
    (act >>= next) w = match act w with
      | (.ok b, v) => next b v
      | (.error p, v) => (.error p, v) := by
  show (ExceptT.bindCont next (act w).1) (act w).2 = _
  rcases act w with ⟨result, v⟩
  cases result <;> rfl

theorem ensures_bind {act : Act β} {next : β → Act α} :
    (act >>= next).Ensures w done ended ↔
      act.Ensures w (fun b v => (next b).Ensures v done ended) ended := by
  unfold Ensures
  rw [run_bind]
  rcases act w with ⟨result, v⟩
  cases result <;> rfl

theorem Ensures.mono {act : Act α} {done' : α → World → Prop} {ended' : World → Prop}
    (h : act.Ensures w done ended) (hdone : ∀ a v, done a v → done' a v)
    (hended : ∀ v, ended v → ended' v) : act.Ensures w done' ended' := by
  unfold Ensures at h ⊢
  revert h
  rcases act w with ⟨result, v⟩
  intro h
  cases result with
  | ok a => exact hdone a v h
  | error p => exact hended v h

theorem Ensures.bind {act : Act β} {next : β → Act α} {mid : β → World → Prop}
    {cut : World → Prop} (first : act.Ensures w mid cut)
    (rest : ∀ b v, mid b v → (next b).Ensures v done ended) (hcut : ∀ v, cut v → ended v) :
    (act >>= next).Ensures w done ended :=
  ensures_bind.2 (first.mono rest hcut)

/-- After an action that does not panic, only the rest has to be looked at. -/
theorem Ensures.andThen {act : Act β} {next : β → Act α} {mid : β → World → Prop}
    (first : act.Ensures w mid fun _ => False)
    (rest : ∀ b v, mid b v → (next b).Ensures v done ended) :
    (act >>= next).Ensures w done ended :=
  first.bind rest fun _ h => h.elim

/-- What is true after a result and after a panic alike is true afterwards. -/
theorem Ensures.after {act : Act α} {w : World} {p : World → Prop}
    (h : act.Ensures w (fun _ => p) p) : p (act w).2 := by
  unfold Ensures at h
  revert h
  rcases act w with ⟨result, v⟩
  cases result <;> exact id

end Rules

/-! ## Primitives -/

section Primitives
variable {w : World} {ended : World → Prop}

theorem ensures_get {done : World → World → Prop} :
    (get : Act World).Ensures w done ended ↔ done w w := Iff.rfl

theorem ensures_work {part : Work α} {done : α → World → Prop} :
    (work part).Ensures w done ended ↔
      done (part w.machine).1 { w with machine := (part w.machine).2 } := Iff.rfl

theorem ensures_state {done : SessionState → World → Prop} :
    state.Ensures w done ended ↔ done w.front.session.state w := Iff.rfl

end Primitives
end EmuFront.Act
