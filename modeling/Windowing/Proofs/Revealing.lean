import Windowing.Proofs.Coverage
import Windowing.WindowedList.Basic

/-!
# A row that is scrolled to is seen

To reveal a row is to find a scroll position for it. At two positions an end of the row meets
the same end of the viewport, and wherever the row is to land, the target lies between them
(`Align.target_between`). From there a row that is no higher than the viewport is seen as a
whole, and a higher one fills the viewport. The limit of the list spoils neither, for a row
ends within the track.

Results:
1. `Align.target_between`: where a target lies.
2. `showsWhole_revealOffset`: a row that is no higher than the viewport is seen as a whole.
3. `meets_revealOffset`: a row of any positive size is seen.
4. `reveal_shows_row`: so the list shows the row that it was told to reveal.
5. `nearest_moves_least`: to the nearest place the viewport moves no further than it must, and
   to no other position it moves as little.
6. `reveal_nearest_again`: so a row that is no higher than the viewport, once revealed, stays
   where it is. A higher row does not: at no position it is seen as a whole, and from each of
   its two ends the list scrolls on to the other.
-/

namespace Windowing

variable {σ : Type}

/-- A row number cut down to the last row. -/
def clampRow [RowLayout σ] (rows : σ) (row : Nat) : Nat := min row (RowLayout.count rows - 1)

/-- A scroll position within the limit of the list at which a whole row lies in the viewport. A
row of size `0` lies at its start. -/
structure ShowsWhole [RowLayout σ] (rows : σ) (height : UInt32) (row offset : Nat) : Prop where
  le_limit : offset ≤ scrollLimit rows height
  le_start : offset ≤ RowLayout.start rows row
  stop_le : RowLayout.start rows row + (RowLayout.size rows row).toNat ≤ offset + height.toNat

/-! ## Targets -/

namespace Align

variable {start size : Nat}

theorem target_between (align : Align) (view : Viewport) (room : start + size ≤ Offset.limit) :
    min start (start + size - view.height.toNat) ≤ align.target view start size (start + size) ∧
      align.target view start size (start + size) ≤
        max start (start + size - view.height.toNat) := by
  have first : min start (start + size - view.height.toNat) ≤ start ∧
      start ≤ max start (start + size - view.height.toNat) :=
    ⟨Nat.min_le_left _ _, Nat.le_max_left _ _⟩
  have last : min start (start + size - view.height.toNat) ≤ start + size - view.height.toNat ∧
      start + size - view.height.toNat ≤ max start (start + size - view.height.toNat) :=
    ⟨Nat.min_le_right _ _, Nat.le_max_right _ _⟩
  cases align with
  | top => exact first
  | bottom => exact last
  | middle =>
    -- Both halves are rounded down, which moves the target by less than a pixel.
    show min start (start + size - view.height.toNat) ≤
        Offset.add start (size / 2) - view.height.toNat / 2 ∧
      Offset.add start (size / 2) - view.height.toNat / 2 ≤
        max start (start + size - view.height.toNat)
    rw [Offset.add_eq (by omega)]
    omega
  | nearest =>
    unfold target
    dsimp only
    split
    · next seen =>
      have stop : view.stop ≤ view.offset + view.height.toNat := Nat.min_le_left _ _
      omega
    · split
      · exact first
      · exact last

/-- The nearest place of a row that is no higher than the viewport: the position stays where
it is, or is cut down to the positions at which the row is seen. -/
theorem target_nearest {view : Viewport} (low : size ≤ view.height.toNat)
    (room : start + size ≤ Offset.limit) :
    nearest.target view start size (start + size) =
      max (start + size - view.height.toNat) (min start view.offset) := by
  have stop : view.stop = min (view.offset + view.height.toNat) Offset.limit := rfl
  unfold target
  dsimp only
  split
  · next seen => omega
  · split
    · next above => omega
    · next unseen _ => omega

/-- The nearest place of a row that is higher than the viewport: its start if that is above the
viewport, and else its end, which is never at the top of the viewport itself. -/
theorem target_nearest_of_lt {view : Viewport} (high : view.height.toNat < size) :
    nearest.target view start size (start + size) =
      if start < view.offset then start else start + size - view.height.toNat := by
  have stop : view.stop ≤ view.offset + view.height.toNat := Nat.min_le_left _ _
  unfold target
  dsimp only
  exact if_neg fun seen => by omega

end Align

/-! ## Offsets that reveal a row -/

section

variable [RowLayout σ] {rows : σ} {sizes : List UInt32} {view : Viewport}

theorem LaysOut.stop_le_extent (laid : LaysOut rows sizes) (i : Nat) :
    RowLayout.start rows i + (RowLayout.size rows i).toNat ≤ RowLayout.extent rows := by
  rw [laid.stop_eq, laid.extent_eq]
  exact startOf_le_extentOf sizes (i + 1)

theorem LaysOut.stop_le_limit (laid : LaysOut rows sizes) (fits : Fits sizes) (i : Nat) :
    RowLayout.start rows i + (RowLayout.size rows i).toNat ≤ Offset.limit := by
  have within := laid.stop_le_extent i
  rw [laid.extent_eq] at within
  exact Nat.le_trans within fits

theorem revealOffset_eq_min (laid : LaysOut rows sizes) (fits : Fits sizes)
    (some : 0 < RowLayout.count rows) (row : Nat) (align : Align) :
    revealOffset rows view row align =
      min (align.target view (RowLayout.start rows (clampRow rows row))
          (RowLayout.size rows (clampRow rows row)).toNat
          (RowLayout.start rows (clampRow rows row) +
            (RowLayout.size rows (clampRow rows row)).toNat))
        (RowLayout.extent rows - view.height.toNat) := by
  rw [← Offset.add_eq (laid.stop_le_limit fits _)]
  exact if_neg (Nat.ne_of_gt some)

theorem revealOffset_le_scrollLimit (rows : σ) (view : Viewport) (row : Nat) (align : Align) :
    revealOffset rows view row align ≤ scrollLimit rows view.height := by
  unfold revealOffset
  dsimp only
  split
  · exact Nat.zero_le _
  · exact Nat.min_le_right _ _

theorem showsWhole_revealOffset (laid : LaysOut rows sizes) (fits : Fits sizes)
    (some : 0 < RowLayout.count rows) {row : Nat}
    (low : (RowLayout.size rows (clampRow rows row)).toNat ≤ view.height.toNat) (align : Align) :
    ShowsWhole rows view.height (clampRow rows row) (revealOffset rows view row align) := by
  obtain ⟨first, last⟩ := align.target_between view (laid.stop_le_limit fits (clampRow rows row))
  have extent := laid.stop_le_extent (clampRow rows row)
  refine ⟨revealOffset_le_scrollLimit rows view row align, ?_, ?_⟩
  · rw [revealOffset_eq_min laid fits some]
    omega
  · rw [revealOffset_eq_min laid fits some]
    omega

theorem meets_revealOffset (laid : LaysOut rows sizes) (fits : Fits sizes)
    (high : 0 < view.height.toNat) {row : Nat}
    (positive : 0 < (RowLayout.size rows (clampRow rows row)).toNat) (align : Align) :
    Meets rows ⟨revealOffset rows view row align, view.height⟩ (clampRow rows row) := by
  have inside := lt_length_of_size_pos laid positive
  have some : 0 < RowLayout.count rows := Nat.zero_lt_of_lt (laid.count_eq ▸ inside)
  obtain ⟨first, last⟩ := align.target_between view (laid.stop_le_limit fits (clampRow rows row))
  have extent := laid.stop_le_extent (clampRow rows row)
  have stays : clampOffset rows view.height (revealOffset rows view row align) =
      revealOffset rows view row align :=
    Nat.min_eq_left (revealOffset_le_scrollLimit rows view row align)
  let shown : Viewport := ⟨revealOffset rows view row align, view.height⟩
  have shown_high : 0 < shown.height.toNat := high
  refine (meets_iff laid shown_high positive).mpr ?_
  rw [← laid.stop_eq, ← laid.start_eq]
  show clampOffset rows view.height (revealOffset rows view row align) < _ ∧
    _ < clampOffset rows view.height (revealOffset rows view row align) + view.height.toNat
  rw [stays, revealOffset_eq_min laid fits some]
  omega

theorem revealOffset_nearest (laid : LaysOut rows sizes) (fits : Fits sizes)
    (some : 0 < RowLayout.count rows) {row : Nat}
    (low : (RowLayout.size rows (clampRow rows row)).toNat ≤ view.height.toNat) :
    revealOffset rows view row .nearest =
      max (RowLayout.start rows (clampRow rows row) +
          (RowLayout.size rows (clampRow rows row)).toNat - view.height.toNat)
        (min (min (RowLayout.start rows (clampRow rows row)) (scrollLimit rows view.height))
          view.offset) := by
  have extent := laid.stop_le_extent (clampRow rows row)
  rw [revealOffset_eq_min laid fits some, Align.target_nearest low (laid.stop_le_limit fits _)]
  unfold scrollLimit
  omega

/-- The positions at which a row is seen as a whole are those between two bounds. -/
theorem showsWhole_iff {height : UInt32} {row offset : Nat} :
    ShowsWhole rows height row offset ↔
      RowLayout.start rows row + (RowLayout.size rows row).toNat - height.toNat ≤ offset ∧
        offset ≤ min (RowLayout.start rows row) (scrollLimit rows height) := by
  constructor
  · rintro ⟨le_limit, le_start, stop_le⟩
    exact ⟨Nat.sub_le_of_le_add stop_le, Nat.le_min.mpr ⟨le_start, le_limit⟩⟩
  · rintro ⟨first, last⟩
    obtain ⟨le_start, le_limit⟩ := Nat.le_min.mp last
    exact ⟨le_limit, le_start, Nat.le_add_of_sub_le first⟩

/-- Once a row that is no higher than the viewport was revealed, the nearest place is here. -/
theorem revealOffset_nearest_again (laid : LaysOut rows sizes) (fits : Fits sizes) {row : Nat}
    (low : (RowLayout.size rows (clampRow rows row)).toNat ≤ view.height.toNat) :
    let shown : Viewport := { view with offset := revealOffset rows view row .nearest }
    revealOffset rows shown row .nearest = revealOffset rows view row .nearest := by
  intro shown
  by_cases none : RowLayout.count rows = 0
  · exact (if_pos none).trans (if_pos none).symm
  · have some : 0 < RowLayout.count rows := Nat.pos_of_ne_zero none
    have shows : ShowsWhole rows view.height (clampRow rows row) shown.offset :=
      showsWhole_revealOffset laid fits some low .nearest
    obtain ⟨first, last⟩ := showsWhole_iff.mp shows
    have again : revealOffset rows shown row .nearest = max _ (min _ shown.offset) :=
      revealOffset_nearest laid fits some low
    rw [again, Nat.min_eq_right last, Nat.max_eq_right first]

theorem revealOffset_nearest_of_lt (laid : LaysOut rows sizes) (fits : Fits sizes) {row : Nat}
    (high : view.height.toNat < (RowLayout.size rows (clampRow rows row)).toNat) :
    revealOffset rows view row .nearest =
      if RowLayout.start rows (clampRow rows row) < view.offset then
        RowLayout.start rows (clampRow rows row)
      else
        RowLayout.start rows (clampRow rows row) +
          (RowLayout.size rows (clampRow rows row)).toNat - view.height.toNat := by
  have inside := lt_length_of_size_pos laid (Nat.zero_lt_of_lt high)
  have some : 0 < RowLayout.count rows := Nat.zero_lt_of_lt (laid.count_eq ▸ inside)
  have extent := laid.stop_le_extent (clampRow rows row)
  rw [revealOffset_eq_min laid fits some, Align.target_nearest_of_lt high]
  -- Both ends of the row lie within the limit of the list.
  exact Nat.min_eq_left (by split <;> omega)

/-- A row that is higher than the viewport is revealed from its start and from its end by turns,
for after the one the nearest place is the other. -/
theorem revealOffset_nearest_turns (laid : LaysOut rows sizes) (fits : Fits sizes) {row : Nat}
    (high : view.height.toNat < (RowLayout.size rows (clampRow rows row)).toNat) :
    let first := revealOffset rows view row .nearest
    let again := revealOffset rows ⟨first, view.height⟩ row .nearest
    again ≠ first ∧ revealOffset rows ⟨again, view.height⟩ row .nearest = first := by
  intro first again
  have turn (offset : Nat) : revealOffset rows ⟨offset, view.height⟩ row .nearest = _ :=
    revealOffset_nearest_of_lt laid fits high
  have at_first : first = _ := turn view.offset
  have at_again : again = _ := turn first
  have apart : RowLayout.start rows (clampRow rows row) <
      RowLayout.start rows (clampRow rows row) +
        (RowLayout.size rows (clampRow rows row)).toNat - view.height.toNat := by omega
  rw [turn again]
  by_cases above : RowLayout.start rows (clampRow rows row) < view.offset
  · rw [if_pos above] at at_first
    rw [at_first, if_neg (Nat.lt_irrefl _)] at at_again
    rw [at_again, at_first, if_pos apart]
    exact ⟨Nat.ne_of_gt apart, rfl⟩
  · rw [if_neg above] at at_first
    rw [at_first, if_pos apart] at at_again
    rw [at_again, at_first, if_neg (Nat.lt_irrefl _)]
    exact ⟨Nat.ne_of_lt apart, rfl⟩

end

/-- Of the numbers between two bounds, the one to which a number is cut down is nearest. -/
theorem natAbs_sub_lt_of_ne {first last here offset : Nat} (le : first ≤ offset)
    (ge : offset ≤ last) (other : offset ≠ max first (min last here)) :
    ((here : Int) - (max first (min last here) : Nat)).natAbs < ((here : Int) - offset).natAbs := by
  omega

/-! ## Revealing a row again -/

/-- To scroll to where the list is already is to do nothing. -/
theorem WindowedList.reveal_of_stays [RowLayout σ] {l : WindowedList σ}
    (current : l.currentWindow = l.published) {row : Nat} {align : Align}
    (stays : revealOffset l.rows l.view row align = l.view.offset) :
    l.reveal row align = ⟨l, l.view.offset, []⟩ := by
  have here : l.movedTo l.view.offset = l := by
    unfold movedTo
    rw [if_neg (Nat.lt_irrefl _), if_neg (Nat.lt_irrefl _)]
  unfold reveal
  dsimp only
  rw [stays, setOffset, here, publish_of_current current]
  rfl

/-! ## Reached layouts -/

variable [ExactLayout σ]

/-- After a list was told to reveal a row, wherever it is to land, it is at the position that
it answered, within its limit. The row is visible, and if it is no higher than the viewport,
it is so as a whole. -/
theorem reveal_shows_row {l : WindowedList σ} (reached : ExactLayout.Reached l.rows)
    (high : 0 < l.view.height.toNat) (row : Nat) (align : Align)
    (positive : 0 < (RowLayout.size l.rows (clampRow l.rows row)).toNat) :
    let offset := (l.reveal row align).reply
    let after := (l.reveal row align).state
    after.view.offset = offset ∧ offset ≤ scrollLimit after.rows after.view.height ∧
      clampRow l.rows row ∈ after.visible.rows ∧
      ((RowLayout.size after.rows (clampRow l.rows row)).toNat ≤ after.view.height.toNat →
        ShowsWhole after.rows after.view.height (clampRow l.rows row) offset) := by
  intro offset after
  have laid := ExactLayout.laysOut reached
  have fits := ExactLayout.fits reached
  have inside := lt_length_of_size_pos laid positive
  have some : 0 < RowLayout.count l.rows := Nat.zero_lt_of_lt (laid.count_eq ▸ inside)
  refine ⟨rfl, revealOffset_le_scrollLimit l.rows l.view row align, ?_, fun low => ?_⟩
  · have after_high : 0 < after.view.height.toNat := high
    exact (mem_visibleRange_iff laid fits after_high positive).mpr
      (meets_revealOffset laid fits high positive align)
  · have low : (RowLayout.size l.rows (clampRow l.rows row)).toNat ≤ l.view.height.toNat := low
    exact showsWhole_revealOffset laid fits some low align

/-- Four rows of size `5`, the second of them measured as `30`. -/
def steep : MeasuredRows :=
  MeasuredRows.edit ⟨fun _ => 5, #[⟨5, false⟩, ⟨5, false⟩, ⟨5, false⟩, ⟨5, false⟩],
    .ofSizes [5, 5, 5, 5]⟩ (.measure 1 30)

theorem reached_steep : steep.Reached := by
  have built : MeasuredRows.ofEstimate 4 (fun _ => 5) =
      .ok ⟨fun _ => 5, #[⟨5, false⟩, ⟨5, false⟩, ⟨5, false⟩, ⟨5, false⟩],
        .ofSizes [5, 5, 5, 5]⟩ := rfl
  exact .edit _ (.ofEstimate built (by decide)) (by decide)

/-- A viewport of height `12` that is scrolled too far shows the middle of the high row, or
the whole of the last one. -/
theorem reveal_shows_row_steep :
    let l : WindowedList MeasuredRows := .ofRows steep {} ⟨100, 12⟩
    (l.reveal 1 .middle).reply = 14 ∧ 1 ∈ (l.reveal 1 .middle).state.visible.rows ∧
      (l.reveal 9 .top).reply = 33 ∧ ShowsWhole steep 12 3 33 := by
  intro l
  obtain ⟨_, _, seen, _⟩ := reveal_shows_row (l := l) reached_steep (by decide) 1 .middle
    (by decide +kernel)
  obtain ⟨_, _, _, whole⟩ := reveal_shows_row (l := l) reached_steep (by decide) 9 .top
    (by decide +kernel)
  have middle : (l.reveal 1 .middle).reply = 14 := by decide +kernel
  have top : (l.reveal 9 .top).reply = 33 := by decide +kernel
  have last := whole (by decide +kernel)
  rw [top] at last
  exact ⟨middle, seen, top, last⟩

/-- From any scroll position, also one past the limit, a row that is no higher than the
viewport is revealed at the nearest position at which it is seen as a whole. -/
theorem nearest_moves_least {rows : σ} (reached : ExactLayout.Reached rows)
    (some : 0 < RowLayout.count rows) (view : Viewport) {row : Nat}
    (low : (RowLayout.size rows (clampRow rows row)).toNat ≤ view.height.toNat) :
    let nearest := revealOffset rows view row .nearest
    ShowsWhole rows view.height (clampRow rows row) nearest ∧
      ∀ offset, ShowsWhole rows view.height (clampRow rows row) offset → offset ≠ nearest →
        ((view.offset : Int) - nearest).natAbs < ((view.offset : Int) - offset).natAbs := by
  intro nearest
  have laid := ExactLayout.laysOut reached
  have fits := ExactLayout.fits reached
  refine ⟨showsWhole_revealOffset laid fits some low .nearest, fun offset shows other => ?_⟩
  obtain ⟨first, last⟩ := showsWhole_iff.mp shows
  have cut : nearest = _ := revealOffset_nearest laid fits some low
  rw [cut] at other ⊢
  exact natAbs_sub_lt_of_ne first last other

/-- The third row is seen as a whole from `28` to `33`. A viewport that is scrolled too far
stops at `33`. -/
theorem nearest_moves_least_steep :
    revealOffset steep ⟨100, 12⟩ 2 .nearest = 33 ∧ ShowsWhole steep 12 2 33 ∧
      ShowsWhole steep 12 2 28 ∧
      ∀ offset, ShowsWhole steep 12 2 offset → offset ≠ 33 →
        ((100 : Int) - 33).natAbs < ((100 : Int) - offset).natAbs := by
  have nearest : revealOffset steep ⟨100, 12⟩ 2 .nearest = 33 := by decide +kernel
  obtain ⟨shows, least⟩ := nearest_moves_least reached_steep (by decide) ⟨100, 12⟩
    (show (RowLayout.size steep (clampRow steep 2)).toNat ≤ (12 : UInt32).toNat by decide +kernel)
  rw [nearest] at shows least
  have early : ShowsWhole steep 12 2 28 :=
    ⟨by decide +kernel, by decide +kernel, by decide +kernel⟩
  exact ⟨nearest, shows, early, least⟩

/-- Once a row was revealed at the nearest place, to reveal it again changes nothing, answers the
same and tells no listener, if and only if the row is no higher than the viewport. A higher row
is revealed from its start and from its end by turns. -/
theorem reveal_nearest_again {l : WindowedList σ} (reached : ExactLayout.Reached l.rows)
    (row : Nat) :
    let first := l.reveal row .nearest
    let again := first.state.reveal row .nearest
    (again = ⟨first.state, first.reply, []⟩ ↔
        (RowLayout.size l.rows (clampRow l.rows row)).toNat ≤ l.view.height.toNat) ∧
      (l.view.height.toNat < (RowLayout.size l.rows (clampRow l.rows row)).toNat →
        again.reply ≠ first.reply ∧ (again.state.reveal row .nearest).reply = first.reply) := by
  intro first again
  have laid := ExactLayout.laysOut reached
  have fits := ExactLayout.fits reached
  have turns (high : l.view.height.toNat < (RowLayout.size l.rows (clampRow l.rows row)).toNat) :
      again.reply ≠ first.reply ∧ (again.state.reveal row .nearest).reply = first.reply :=
    revealOffset_nearest_turns laid fits high
  refine ⟨⟨fun settled => ?_, fun low => ?_⟩, turns⟩
  · rcases Nat.lt_or_ge l.view.height.toNat
      (RowLayout.size l.rows (clampRow l.rows row)).toNat with high | low
    · exact absurd (congrArg Outcome.reply settled) (turns high).1
    · exact low
  · exact WindowedList.reveal_of_stays rfl (revealOffset_nearest_again laid fits low)

/-- A viewport of height `12` that is scrolled too far stays once it shows the third row. The
second row is higher, and is revealed from its start, then from its end. -/
theorem reveal_nearest_again_steep :
    let l : WindowedList MeasuredRows := .ofRows steep {} ⟨100, 12⟩
    let low := l.reveal 2 .nearest
    let high := l.reveal 1 .nearest
    low.state.reveal 2 .nearest = ⟨low.state, 33, []⟩ ∧ high.reply = 5 ∧
      (high.state.reveal 1 .nearest).reply ≠ 5 := by
  intro l low high
  obtain ⟨settles, _⟩ := reveal_nearest_again (l := l) reached_steep 2
  obtain ⟨_, turns⟩ := reveal_nearest_again (l := l) reached_steep 1
  have at_low : low.reply = 33 := by decide +kernel
  have at_high : high.reply = 5 := by decide +kernel
  have stays := settles.mpr (by decide +kernel)
  obtain ⟨moves, _⟩ := turns (by decide +kernel)
  rw [at_low] at stays
  rw [at_high] at moves
  exact ⟨stays, at_high, moves⟩

/-- The second of two rows of height `30`, revealed twice in a viewport of height `12`: the list
scrolls to its start, and then to its end. -/
theorem high_row_moves_again :
    let l : WindowedList UniformRows := .ofRows ⟨2, 30, by decide⟩ {} ⟨40, 12⟩
    let first := l.reveal 1 .nearest
    let again := first.state.reveal 1 .nearest
    ExactLayout.Reached l.rows ∧ first.reply = 30 ∧ again.reply = 48 ∧
      again.state.view ≠ first.state.view :=
  ⟨show (30 : UInt32).toNat * 2 ≤ Offset.limit by decide, by decide, by decide, by decide⟩

end Windowing
