import Windowing.Proofs.WindowedList.Publishing

/-!
# Several changes, published once

A list takes several changes in two ways: it publishes after each of them, or once when all are
made. What a change does depends on the rows and the viewport, not on the window that was published
last, and so both ways end in the same list. Only the listener can tell them apart. Along the way
it may hear of many windows, from a batch of one at most.

Results:
1. `foldl_publish`: silent changes may publish one by one.
2. `run_single`, `run_setHeight_setOffset`: the batches of the library in single steps.
3. `batch_eq_run_steps`: both ways of every batch, and what the listener hears of it.
-/

namespace Windowing

/-- The action that records one entry of a batch. -/
def Action.single {σ : Type} : Nat × Option UInt32 → Action σ
  | (row, some size) => .measure row size
  | (row, none) => .forget row

namespace WindowedList

/-! ## Changes that publish nothing -/

section

variable {σ : Type}

/-- A change that neither looks at the published window nor replaces it. -/
def Silent (change : WindowedList σ → WindowedList σ) : Prop :=
  ∀ l window, change { l with published := window } = { change l with published := window }

theorem silent_movedTo (offset : Nat) : Silent fun l : WindowedList σ => l.movedTo offset :=
  fun _ _ => rfl

theorem silent_withHeight (height : UInt32) :
    Silent fun l : WindowedList σ => l.withHeight height :=
  fun _ _ => rfl

variable [RowLayout σ] {change : WindowedList σ → WindowedList σ}

/-- What was published before a silent change is forgotten once the list publishes after it. -/
theorem Silent.publish_eq (silent : Silent change) (l : WindowedList σ) :
    (change l.publish.state).publish.state = (change l).publish.state := by
  have kept : change l.publish.state = { change l with published := l.currentWindow } :=
    silent l l.currentWindow
  rw [kept]
  rfl

/-- Silent changes that publish one by one end where they end when they publish together. -/
theorem foldl_publish {changes : List (WindowedList σ → WindowedList σ)}
    (silent : ∀ change ∈ changes, Silent change) (l : WindowedList σ) :
    changes.foldl (fun l change => (change l).publish.state) l.publish.state =
      (changes.foldl (fun l change => change l) l).publish.state := by
  induction changes generalizing l with
  | nil => rfl
  | cons change changes ih =>
    obtain ⟨first, rest⟩ := List.forall_mem_cons.mp silent
    rw [List.foldl_cons, List.foldl_cons, first.publish_eq]
    exact ih rest (change l)

end

/-! ## Measurements -/

section

variable {σ : Type} [Refinable σ] {l : WindowedList σ}

theorem silent_record (row : Nat) (size : Option UInt32) :
    Silent fun l : WindowedList σ => l.record row size :=
  fun _ _ => rfl

theorem silent_foldl_record (entries : List (Nat × Option UInt32)) :
    Silent fun l : WindowedList σ => entries.foldl (fun l entry => l.record entry.1 entry.2) l := by
  intro l window
  induction entries generalizing l with
  | nil => rfl
  | cons entry entries ih => exact ih (l.record entry.1 entry.2)

theorem state_act_single (l : WindowedList σ) (entry : Nat × Option UInt32) :
    (l.act (.single entry)).state = (l.record entry.1 entry.2).publish.state := by
  obtain ⟨row, size⟩ := entry
  cases size <;> rfl

/-- Measurements that are recorded or dropped one by one end as in one batch. -/
theorem run_single (current : l.published = l.currentWindow)
    (entries : List (Nat × Option UInt32)) :
    l.run (entries.map .single) = (l.recordAll entries).state := by
  have silent : ∀ change ∈ entries.map fun entry (l : WindowedList σ) => l.record entry.1 entry.2,
      Silent change := List.forall_mem_map.mpr fun entry _ => silent_record entry.1 entry.2
  have begun : l.publish.state = l := congrArg Outcome.state (publish_of_current current.symm)
  have together := foldl_publish silent l
  rw [begun, List.foldl_map, List.foldl_map] at together
  unfold run
  simp only [List.foldl_map, state_act_single]
  exact together

/-- Two batches end as one. -/
theorem recordAll_append (l : WindowedList σ) (first second : List (Nat × Option UInt32)) :
    (l.recordAll (first ++ second)).state = ((l.recordAll first).state.recordAll second).state := by
  have joined : l.recordAll (first ++ second) =
      (first.foldl (fun l entry => l.record entry.1 entry.2) l).recordAll second :=
    congrArg publish List.foldl_append
  rw [joined]
  exact ((silent_foldl_record second).publish_eq _).symm

end

/-! ## Height and position -/

section

variable {σ : Type} [Refinable σ] (l : WindowedList σ) (height : UInt32) (offset : Nat)

theorem run_setHeight_setOffset :
    l.run [.setHeight height, .setOffset offset] = (l.setFrame height offset).state :=
  (silent_movedTo offset).publish_eq (l.withHeight height)

/-- The direction of a move is told by the two positions, so the height may change afterwards. -/
theorem run_setOffset_setHeight :
    l.run [.setOffset offset, .setHeight height] = (l.setFrame height offset).state :=
  (silent_withHeight height).publish_eq (l.movedTo offset)

end

/-! ## Batches and their steps -/

section

variable {σ : Type} [Refinable σ]

/-- At any time in the life of a list, a batch of measurements leaves the list that its entries
leave when they are recorded or dropped one by one, whatever rows they name and however often. A
new frame leaves the list that height and position leave when they are set one after the other, in
either order. The listener hears of the window that is published at the end, if it is another than
the one before the batch, and of no window on the way. -/
theorem batch_eq_run_steps (rows : σ) (options : Options) (view : Viewport)
    (actions : List (Action σ)) (entries : List (Nat × Option UInt32)) (height : UInt32)
    (offset : Nat) :
    let l := (ofRows rows options view).run actions
    (l.recordAll entries).state = l.run (entries.map .single) ∧
      (l.setFrame height offset).state = l.run [.setHeight height, .setOffset offset] ∧
      (l.setFrame height offset).state = l.run [.setOffset offset, .setHeight height] ∧
      ∀ o ∈ [l.recordAll entries, l.setFrame height offset],
        o.notified =
          if options.announces ∧ o.state.published ≠ l.published then [o.state.published] else [] := by
  intro l
  obtain ⟨current, announces⟩ : l.published = l.currentWindow ∧
      l.options.announces = options.announces := run_current rfl actions
  refine ⟨(run_single current entries).symm, (run_setHeight_setOffset l height offset).symm,
    (run_setOffset_setHeight l height offset).symm, ?_⟩
  have publishes : ∀ o ∈ [l.recordAll entries, l.setFrame height offset], Publishes l o := by
    simpa using ⟨publishes_recordAll l entries, publishes_publish rfl rfl⟩
  intro o mem
  rw [(publishes o mem).notified_eq_ite, announces]

end

end WindowedList

end Windowing
