namespace SphereMotion

/-- A rectangle of entries inside a grid. -/
structure Window where
  row : Nat
  col : Nat
  rows : Nat
  cols : Nat
  deriving DecidableEq, Repr

/-- A dense two-dimensional array, stored column after column. -/
structure Grid (β : Type) where
  rows : Nat
  cols : Nat
  entries : Array β
  size_entries : entries.size = rows * cols

namespace Grid

variable {β γ δ : Type}

theorem index_lt {rows cols row col : Nat} (inRow : row < rows) (inCol : col < cols) :
    row + rows * col < rows * cols := by
  have full : rows * (col + 1) ≤ rows * cols := Nat.mul_le_mul_left rows inCol
  rw [Nat.mul_succ] at full
  omega

def size (g : Grid β) : Nat := g.rows * g.cols

def isEmpty (g : Grid β) : Bool := g.size == 0

/-- The entry at a linear index, counted down the columns. -/
def get (g : Grid β) (i : Fin g.size) : β :=
  have : i < g.entries.size := by rw [g.size_entries]; exact i.isLt
  g.entries[i]

def get? (g : Grid β) (i : Nat) : Option β := g.entries[i]?

def cell (g : Grid β) (row : Fin g.rows) (col : Fin g.cols) : β :=
  g.get ⟨row + g.rows * col, index_lt row.isLt col.isLt⟩

def cell? (g : Grid β) (row col : Nat) : Option β :=
  if h : row < g.rows ∧ col < g.cols then some (g.cell ⟨row, h.1⟩ ⟨col, h.2⟩) else none

def build (rows cols : Nat) (entry : Fin rows → Fin cols → β) : Grid β where
  rows := rows
  cols := cols
  entries := Array.ofFn fun i : Fin (rows * cols) =>
    entry ⟨i % rows, Nat.mod_lt _ (Nat.pos_of_mul_pos_right (Nat.zero_lt_of_lt i.isLt))⟩
      ⟨i / rows, Nat.div_lt_of_lt_mul i.isLt⟩
  size_entries := Array.size_ofFn

def single (entry : β) : Grid β := ⟨1, 1, #[entry], rfl⟩

def map (f : β → γ) (g : Grid β) : Grid γ := ⟨g.rows, g.cols, g.entries.map f, by simp [g.size_entries]⟩

def mapIdx (f : Nat → β → γ) (g : Grid β) : Grid γ :=
  ⟨g.rows, g.cols, g.entries.mapIdx f, by simp [g.size_entries]⟩

def zipWith? (f : β → γ → δ) (g : Grid β) (h : Grid γ) : Option (Grid δ) :=
  if same : g.rows = h.rows ∧ g.cols = h.cols then
    some ⟨g.rows, g.cols, Array.zipWith f g.entries h.entries,
      by simp [g.size_entries, h.size_entries, same.1, same.2]⟩
  else none

end Grid

def Window.Fits (w : Window) (rows cols : Nat) : Prop := w.row + w.rows ≤ rows ∧ w.col + w.cols ≤ cols

instance (w : Window) (rows cols : Nat) : Decidable (w.Fits rows cols) := inferInstanceAs (Decidable (_ ∧ _))

namespace Grid

variable {β γ : Type}

/-- A copy of the entries inside a window. -/
def window (g : Grid β) (w : Window) (fits : w.Fits g.rows g.cols) : Grid β :=
  build w.rows w.cols fun row col =>
    g.cell ⟨w.row + row, by have := fits.1; omega⟩ ⟨w.col + col, by have := fits.2; omega⟩

def window? (g : Grid β) (w : Window) : Option (Grid β) :=
  if fits : w.Fits g.rows g.cols then some (g.window w fits) else none

@[simp] theorem rows_map (f : β → γ) (g : Grid β) : (g.map f).rows = g.rows := rfl

@[simp] theorem cols_map (f : β → γ) (g : Grid β) : (g.map f).cols = g.cols := rfl

@[ext] theorem ext {g h : Grid β} (rows : g.rows = h.rows) (cols : g.cols = h.cols)
    (entries : g.entries = h.entries) : g = h := by
  cases g; cases h; simp_all

theorem map_map {δ : Type} (f : β → γ) (f' : γ → δ) (g : Grid β) : (g.map f).map f' = g.map (f' ∘ f) := by
  simp [map]

theorem get?_map (f : β → γ) (g : Grid β) (i : Nat) : (g.map f).get? i = (g.get? i).map f := by
  simp [get?, map]

theorem cell?_eq_get? (g : Grid β) (row col : Nat) :
    g.cell? row col = if row < g.rows ∧ col < g.cols then g.get? (row + g.rows * col) else none := by
  unfold cell?
  split
  next inside =>
    have : row + g.rows * col < g.entries.size := g.size_entries ▸ index_lt inside.1 inside.2
    simp [cell, get, get?, this]
  next => rfl

@[simp] theorem cell?_map (f : β → γ) (g : Grid β) (row col : Nat) :
    (g.map f).cell? row col = (g.cell? row col).map f := by
  rw [cell?_eq_get?, cell?_eq_get?, get?_map, rows_map, cols_map]
  split <;> simp

@[simp] theorem cell_build {rows cols : Nat} (f : Fin rows → Fin cols → β) (row : Fin rows) (col : Fin cols) :
    (build rows cols f).cell row col = f row col := by
  have down : (row.val + rows * col.val) % rows = row := by
    rw [Nat.add_mul_mod_self_left, Nat.mod_eq_of_lt row.isLt]
  have right : (row.val + rows * col.val) / rows = col := by
    rw [Nat.add_mul_div_left _ _ (Nat.zero_lt_of_lt row.isLt), Nat.div_eq_of_lt row.isLt, Nat.zero_add]
  simp [cell, get, build, down, right]

theorem cell?_window (g : Grid β) (w : Window) (fits : w.Fits g.rows g.cols) (row col : Nat) :
    (g.window w fits).cell? row col =
      if row < w.rows ∧ col < w.cols then g.cell? (w.row + row) (w.col + col) else none := by
  unfold cell?
  have shape : (g.window w fits).rows = w.rows ∧ (g.window w fits).cols = w.cols := ⟨rfl, rfl⟩
  by_cases inside : row < w.rows ∧ col < w.cols
  · have := fits.1
    have := fits.2
    rw [dif_pos (by rwa [shape.1, shape.2]), if_pos inside, dif_pos (by omega)]
    exact congrArg some (cell_build _ ⟨row, inside.1⟩ ⟨col, inside.2⟩)
  · rw [dif_neg (by rwa [shape.1, shape.2]), if_neg inside]

theorem ext_cell {g h : Grid β} (rows : g.rows = h.rows) (cols : g.cols = h.cols)
    (entries : ∀ row col, g.cell? row col = h.cell? row col) : g = h := by
  refine ext rows cols (Array.ext_getElem? fun i => ?_)
  have sameSize : h.rows * h.cols = g.rows * g.cols := by rw [rows, cols]
  by_cases inside : i < g.rows * g.cols
  · have positive : 0 < g.rows := Nat.pos_of_mul_pos_right (Nat.zero_lt_of_lt inside)
    have place : i % g.rows < g.rows ∧ i / g.rows < g.cols :=
      ⟨Nat.mod_lt _ positive, Nat.div_lt_of_lt_mul inside⟩
    have atIndex := entries (i % g.rows) (i / g.rows)
    rw [cell?_eq_get?, cell?_eq_get?, ← rows, ← cols, if_pos place, if_pos place, Nat.mod_add_div] at atIndex
    exact atIndex
  · rw [Array.getElem?_eq_none (by rw [g.size_entries]; omega),
      Array.getElem?_eq_none (by rw [h.size_entries]; omega)]

/-- Mapping the entries and cutting out a window may be done in either order. -/
theorem window?_map (f : β → γ) (g : Grid β) (w : Window) : (g.map f).window? w = (g.window? w).map (map f) := by
  by_cases fits : w.Fits g.rows g.cols
  · have fitsMap : w.Fits (g.map f).rows (g.map f).cols := fits
    rw [window?, window?, dif_pos fits, dif_pos fitsMap, Option.map_some, Option.some_inj]
    refine ext_cell rfl rfl fun row col => ?_
    rw [cell?_window, cell?_map, cell?_map, cell?_window]
    split <;> rfl
  · have fitsNot : ¬w.Fits (g.map f).rows (g.map f).cols := fits
    rw [window?, window?, dif_neg fits, dif_neg fitsNot, Option.map_none]

end Grid

end SphereMotion
