import EmuFront.Single

/-!
# Touch samples

One batch of pointer coordinates. A sample has 32 slots; those from its count on hold zero, so that
two samples built from the same visible coordinates are equal in every slot.
-/

namespace EmuFront

/-! ## Actions -/

/-- What a touch batch reports. -/
inductive TouchAction
  | down | up | move | cancel | pointerDown | pointerUp
deriving Repr, DecidableEq

namespace TouchAction

/-- The code by which hosts and engines name an action. -/
def code : TouchAction → Int32
  | down => 0 | up => 1 | move => 2 | cancel => 3 | pointerDown => 5 | pointerUp => 6

/-- The action with a code. Unknown gestures end the interaction rather than start one. -/
def ofCode (code : Int32) : TouchAction :=
  if code = 0 then down
  else if code = 1 then up
  else if code = 2 then move
  else if code = 5 then pointerDown
  else if code = 6 then pointerUp
  else cancel

@[simp] theorem ofCode_code (a : TouchAction) : ofCode a.code = a := by cases a <;> decide

def name : TouchAction → String
  | down => "Down" | up => "Up" | move => "Move" | cancel => "Cancel"
  | pointerDown => "PointerDown" | pointerUp => "PointerUp"

/-- Whether the action is about the pointer at the action index. -/
def indexesPointer : TouchAction → Bool
  | pointerDown | pointerUp => true
  | _ => false

end TouchAction

/-! ## Batches and samples -/

/-- A touch batch as the host hands it over. -/
structure TouchBatch where
  action : TouchAction
  count : Nat
  index : Nat
  xs : List Single
  ys : List Single
deriving Repr, DecidableEq

/-- Pointer slots forwarded per batch. Further simultaneous touches are dropped. -/
def maxPointers : Nat := 32

/-- The leading `count` coordinates, followed by zeros up to the last slot. -/
def slots (count : Nat) (coords : List Single) : List Single :=
  coords.take count ++ List.replicate (maxPointers - (coords.take count).length) Single.zero

/-- All slots are there, however many coordinates are given. -/
theorem length_slots {count : Nat} (coords : List Single) (h : count ≤ maxPointers) :
    (slots count coords).length = maxPointers := by
  simp only [slots, List.length_append, List.length_take, List.length_replicate]
  omega

/-- A batch cut to the slots, as it is forwarded to the engine. -/
structure TouchSample where
  action : TouchAction
  count : Nat
  index : Nat
  xs : List Single
  ys : List Single
  count_le : count ≤ maxPointers := by omega
  length_xs : xs.length = maxPointers
  length_ys : ys.length = maxPointers
deriving DecidableEq

namespace TouchBatch

/-- The number of pointers that are kept: capped by the slots and by the shorter array. -/
def kept (b : TouchBatch) : Nat := min (min (min b.count maxPointers) b.xs.length) b.ys.length

theorem kept_le (b : TouchBatch) : b.kept ≤ maxPointers := by unfold kept; omega

/-- Whether the action is about a pointer that is not kept. -/
def pointerDropped (b : TouchBatch) : Bool := b.action.indexesPointer && decide (b.kept ≤ b.index)

/-- The sample made of a batch. An action whose own pointer is dropped becomes a move of the
pointers that are kept. -/
def sample (b : TouchBatch) : TouchSample where
  action := if b.pointerDropped then .move else b.action
  count := b.kept
  index := if b.pointerDropped then 0 else b.index
  xs := slots b.kept b.xs
  ys := slots b.kept b.ys
  count_le := b.kept_le
  length_xs := length_slots _ b.kept_le
  length_ys := length_slots _ b.kept_le

end TouchBatch

namespace TouchSample

/-- The coordinates below the count. -/
def visibleXs (s : TouchSample) : List Single := s.xs.take s.count

def visibleYs (s : TouchSample) : List Single := s.ys.take s.count

/-- Equality of samples: equal action, count and index, and numerically equal slots. -/
def equal (a b : TouchSample) : Bool :=
  decide (a.action = b.action) && decide (a.count = b.count) && decide (a.index = b.index)
    && (a.xs.zip b.xs).all (fun (x, y) => x.equal y)
    && (a.ys.zip b.ys).all (fun (x, y) => x.equal y)

/-- Coordinates as they stand in log messages. -/
def coordsText (coords : List Single) : String :=
  "[" ++ ", ".intercalate (coords.map Single.text) ++ "]"

/-- The sample as it stands in log messages. -/
def text (s : TouchSample) : String :=
  "TouchSample \x7b action: " ++ s.action.name ++ ", action_index: " ++ toString s.index
    ++ ", xs: " ++ coordsText s.visibleXs ++ ", ys: " ++ coordsText s.visibleYs ++ " \x7d"

end TouchSample
end EmuFront
