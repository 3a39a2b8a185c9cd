import EmuFront.Touch.Sample
import Mathlib.Data.List.Forall2

/-!
# Slots of a sample

A sample is a normal form of the batches that it can be made of. Its slots from the count on hold zero
and its action is about a pointer that has a slot, so that the visible part says everything: a sample
made of it is the same, and samples are equal in all 32 slots if and only if their visible parts are.
-/

namespace EmuFront

/-! ## Slots -/

theorem slots_take {count length : Nat} (enough : count ≤ length) (coords : List Single) :
    slots count (coords.take length) = slots count coords := by
  rw [slots, List.take_take, Nat.min_eq_left enough, ← slots]

theorem take_slots {count : Nat} {coords : List Single} (enough : count ≤ coords.length) :
    (slots count coords).take count = coords.take count := by
  have filled : count ≤ (coords.take count).length := Nat.le_of_eq (List.length_take_of_le enough).symm
  rw [slots, List.take_append_of_le_length filled, List.take_take, Nat.min_self]

theorem getElem?_slots {count : Nat} {coords : List Single} (enough : count ≤ coords.length) {i : Nat}
    (slot : i < maxPointers) :
    (slots count coords)[i]? = if i < count then coords[i]? else some .zero := by
  rw [slots, List.getElem?_append, List.length_take_of_le enough]
  split
  next below => rw [List.getElem?_take_of_lt below]
  next hidden => exact List.getElem?_replicate_of_lt (by omega)

/-- Slots are related if the coordinates that fill them are, and zero to itself. -/
theorem forall₂_slots {related : Single → Single → Prop} (zero : related .zero .zero) {count : Nat}
    {xs ys : List Single} (visible : List.Forall₂ related (xs.take count) (ys.take count)) :
    List.Forall₂ related (slots count xs) (slots count ys) := by
  have hidden : ∀ n, List.Forall₂ related (List.replicate n .zero) (List.replicate n .zero) :=
    fun n => List.forall₂_same.2 fun x member => by
      rw [List.eq_of_mem_replicate member]
      exact zero
  rw [slots, slots, visible.length_eq]
  exact List.rel_append visible (hidden _)

/-! ## Cutting a batch -/

namespace TouchBatch

/-- The batch with its coordinates cut to a length. -/
def cut (b : TouchBatch) (length : Nat) : TouchBatch :=
  { b with xs := b.xs.take length, ys := b.ys.take length }

theorem kept_le_xs (b : TouchBatch) : b.kept ≤ b.xs.length := by
  unfold kept
  omega

theorem kept_le_ys (b : TouchBatch) : b.kept ≤ b.ys.length := by
  unfold kept
  omega

section Cut
variable {b : TouchBatch} {length : Nat} (enough : b.kept ≤ length)
include enough

theorem kept_cut : (b.cut length).kept = b.kept := by
  have kept : b.kept = min (min (min b.count maxPointers) b.xs.length) b.ys.length := rfl
  simp only [TouchBatch.kept, cut, List.length_take]
  omega

theorem pointerDropped_cut : (b.cut length).pointerDropped = b.pointerDropped := by
  unfold pointerDropped
  rw [kept_cut enough]
  rfl

/-- A cut that leaves room for the pointers that are kept leaves the sample as it is. -/
theorem sample_cut : (b.cut length).sample = b.sample := by
  unfold sample
  simp only [TouchSample.mk.injEq]
  rw [pointerDropped_cut enough, kept_cut enough]
  exact ⟨rfl, rfl, rfl, slots_take enough b.xs, slots_take enough b.ys⟩

end Cut

/-- A sample whose action is about a pointer has a coordinate for that pointer. -/
theorem index_sample_lt (b : TouchBatch) (indexes : b.sample.action.indexesPointer = true) :
    b.sample.index < b.sample.count := by
  change (if b.pointerDropped then TouchAction.move else b.action).indexesPointer = true at indexes
  show (if b.pointerDropped then 0 else b.index) < b.kept
  cases dropped : b.pointerDropped with
  | true =>
    rw [dropped] at indexes
    cases indexes
  | false =>
    rw [dropped] at indexes
    simp only [pointerDropped, Bool.and_eq_false_iff, decide_eq_false_iff_not] at dropped
    obtain other | kept := dropped
    · exact absurd indexes (by simp [other])
    · simpa using kept

end TouchBatch

/-! ## Clear samples -/

namespace TouchSample

/-- The slots that are not visible hold zero, and an action about a pointer is about one that has a
slot. -/
structure Clear (s : TouchSample) : Prop where
  xs : slots s.count s.xs = s.xs
  ys : slots s.count s.ys = s.ys
  index : s.action.indexesPointer = true → s.index < s.count

/-- The batch of what a sample shows. -/
def visible (s : TouchSample) : TouchBatch := ⟨s.action, s.count, s.index, s.visibleXs, s.visibleYs⟩

theorem kept_visible (s : TouchSample) : s.visible.kept = s.count := by
  have slots := s.count_le
  simp only [TouchBatch.kept, visible, visibleXs, visibleYs, List.length_take, s.length_xs, s.length_ys]
  omega

theorem Clear.pointerDropped_visible {s : TouchSample} (clear : s.Clear) :
    s.visible.pointerDropped = false := by
  rw [TouchBatch.pointerDropped, kept_visible, Bool.and_eq_false_iff, decide_eq_false_iff_not, Nat.not_le,
    ← Bool.not_eq_true]
  exact (em (s.action.indexesPointer = true)).symm.imp_right clear.index

/-- What a clear sample shows makes the same sample again. -/
theorem Clear.sample_visible {s : TouchSample} (clear : s.Clear) : s.visible.sample = s := by
  have xs : slots s.count s.visibleXs = s.xs := (slots_take (Nat.le_refl _) s.xs).trans clear.xs
  have ys : slots s.count s.visibleYs = s.ys := (slots_take (Nat.le_refl _) s.ys).trans clear.ys
  have dropped := clear.pointerDropped_visible
  have kept := s.kept_visible
  obtain ⟨action, count, index, sxs, sys, _, _, _⟩ := s
  simp only [TouchBatch.sample, TouchSample.mk.injEq]
  rw [dropped, kept]
  exact ⟨rfl, rfl, rfl, xs, ys⟩

/-- Samples are clear, and every clear sample is the sample of a batch. -/
theorem clear_iff_exists_sample {s : TouchSample} : s.Clear ↔ ∃ b : TouchBatch, b.sample = s := by
  constructor
  · exact fun clear => ⟨s.visible, clear.sample_visible⟩
  · rintro ⟨b, rfl⟩
    have again : ∀ coords : List Single, b.kept ≤ coords.length →
        slots b.kept (slots b.kept coords) = slots b.kept coords := fun coords enough => by
      rw [← slots_take (Nat.le_refl _) (slots _ _), take_slots enough, slots_take (Nat.le_refl _)]
    exact ⟨again _ b.kept_le_xs, again _ b.kept_le_ys, b.index_sample_lt⟩

/-! ## Equality -/

/-- Numerical equality, one by one. -/
def SameNumbers : List Single → List Single → Prop := List.Forall₂ fun x y => x.equal y = true

/-- Samples are equal if their actions, counts and indexes are, and the numbers in all their slots. -/
theorem equal_iff {a b : TouchSample} : a.equal b = true ↔
    a.action = b.action ∧ a.count = b.count ∧ a.index = b.index ∧ SameNumbers a.xs b.xs ∧
      SameNumbers a.ys b.ys := by
  have lengthXs : a.xs.length = b.xs.length := a.length_xs.trans b.length_xs.symm
  have lengthYs : a.ys.length = b.ys.length := a.length_ys.trans b.length_ys.symm
  simp only [equal, Bool.and_eq_true, decide_eq_true_eq, List.all_eq_true, Prod.forall, SameNumbers,
    List.forall₂_iff_zip, lengthXs, lengthYs, true_and, and_assoc]

/-- Of two clear samples with the same count, the slots are equal if and only if the visible ones are. -/
theorem sameNumbers_slots {count : Nat} {xs ys : List Single} (clearXs : slots count xs = xs)
    (clearYs : slots count ys = ys) :
    SameNumbers xs ys ↔ SameNumbers (xs.take count) (ys.take count) := by
  refine ⟨List.forall₂_take count, fun visible => ?_⟩
  rw [← clearXs, ← clearYs]
  exact forall₂_slots (by decide) visible

theorem Clear.equal_iff {a b : TouchSample} (clear : a.Clear) (clear' : b.Clear) :
    a.equal b = true ↔ a.action = b.action ∧ a.index = b.index ∧ a.count = b.count ∧
      SameNumbers a.visibleXs b.visibleXs ∧ SameNumbers a.visibleYs b.visibleYs := by
  have numbers (counts : a.count = b.count) : SameNumbers a.xs b.xs ∧ SameNumbers a.ys b.ys ↔
      SameNumbers a.visibleXs b.visibleXs ∧ SameNumbers a.visibleYs b.visibleYs := by
    rw [sameNumbers_slots clear.xs (counts ▸ clear'.xs), sameNumbers_slots clear.ys (counts ▸ clear'.ys),
      visibleXs, visibleXs, visibleYs, visibleYs, counts]
  rw [TouchSample.equal_iff]
  constructor
  · exact fun ⟨action, counts, index, same⟩ => ⟨action, index, counts, (numbers counts).1 same⟩
  · exact fun ⟨action, index, counts, same⟩ => ⟨action, counts, index, (numbers counts).2 same⟩

end TouchSample

/-! ## Samples of batches -/

namespace TouchBatch

/-- A sample keeps the coordinates below its count and clears the other slots; an action about a pointer
that is not kept becomes a move. What it shows makes the same sample again, and samples of two batches
are equal if and only if what they show is. -/
theorem sample_is_normal_form (b : TouchBatch) :
    b.sample.count = min (min (min b.count 32) b.xs.length) b.ys.length ∧
    b.sample.visibleXs = b.xs.take b.sample.count ∧ b.sample.visibleYs = b.ys.take b.sample.count ∧
    (∀ i < 32,
      b.sample.xs[i]? = (if i < b.sample.count then b.xs[i]? else some .zero) ∧
      b.sample.ys[i]? = if i < b.sample.count then b.ys[i]? else some .zero) ∧
    (b.sample.action, b.sample.index) =
      (if (b.action = .pointerDown ∨ b.action = .pointerUp) ∧ ¬b.index < b.sample.count then (.move, 0)
        else (b.action, b.index)) ∧
    TouchBatch.sample ⟨b.sample.action, b.sample.count, b.sample.index, b.sample.visibleXs,
      b.sample.visibleYs⟩ = b.sample ∧
    ∀ b' : TouchBatch, b.sample.equal b'.sample = true ↔
      b.sample.action = b'.sample.action ∧ b.sample.index = b'.sample.index ∧
      b.sample.count = b'.sample.count ∧
      TouchSample.SameNumbers b.sample.visibleXs b'.sample.visibleXs ∧
      TouchSample.SameNumbers b.sample.visibleYs b'.sample.visibleYs := by
  have clear (b : TouchBatch) : b.sample.Clear := TouchSample.clear_iff_exists_sample.2 ⟨b, rfl⟩
  have dropped : b.pointerDropped = true ↔
      (b.action = .pointerDown ∨ b.action = .pointerUp) ∧ ¬b.index < b.sample.count := by
    rw [pointerDropped, Bool.and_eq_true, decide_eq_true_eq, Nat.not_lt]
    exact and_congr_left' (by cases b.action <;> decide)
  refine ⟨rfl, take_slots b.kept_le_xs, take_slots b.kept_le_ys, fun i slot =>
    ⟨getElem?_slots b.kept_le_xs slot, getElem?_slots b.kept_le_ys slot⟩, ?_, (clear b).sample_visible,
    fun b' => (clear b).equal_iff (clear b')⟩
  show (if b.pointerDropped = true then TouchAction.move else b.action,
    if b.pointerDropped = true then 0 else b.index) = _
  simp only [dropped]
  split <;> rfl

/-- Three coordinates on one axis and two on the other leave no slot for the third pointer, and a slot
beyond the count holds zero. -/
example : (sample ⟨.pointerUp, 3, 2, [⟨1⟩, ⟨2⟩, ⟨3⟩], [⟨4⟩, ⟨5⟩]⟩).action = .move ∧
    (sample ⟨.pointerUp, 3, 2, [⟨1⟩, ⟨2⟩, ⟨3⟩], [⟨4⟩, ⟨5⟩]⟩).xs.take 3 = [⟨1⟩, ⟨2⟩, .zero] := by
  decide

end TouchBatch
end EmuFront
