import Mathlib.Data.List.Basic

/-!
# The tables of `lithos_ps`: `render_table`

`render_table` (ascii.rs) prints columns side by side.  It turns each column
into its cells, the title's first, each padded by `format!` to the column's
width, and then runs a loop: each column in turn pops its next cell and prints
it with a space after it, and `println!` ends the row.  The function returns
as soon as a column has no cell left, which may be in the middle of a row.

The model keeps what the loop writes, write by write (`renderLoop`), and runs
the loop for a given number of passes, since the loop need not end.  The text
`{:.1}` writes for an `f64` is the standard library's and is a parameter
(`FloatFormat`); only the `Bytes` and `Percent` columns use it.

* `renderLoop_nil`: with no column the loop never returns, and every pass
  prints an empty line.
* `renderLoop_eq`: when the shortest column has `n` cells, the loop has not
  returned after `n` passes, and returns in pass `n + 1`, having printed the
  first `n` rows in full and then row `n` of the columns before the first one
  that ran out (`tableWrites`).
* `renderColumn_text_width`, `renderColumn_ordinal_width`: every cell of a
  `Text` or an `Ordinal` column is exactly as wide as the column, its widest
  item and at least 3, when the title is not wider.  A `Text` item is measured
  in bytes and padded in chars, so a non-ASCII item widens its column, and
  every cell still has the column's width.
-/

namespace Lithos

/-! ## Cells -/

/-- `format!("{1:<0$}", width, s)`: `s` padded with spaces on the right to
`width` chars. -/
def padRight (width : Nat) (s : String) : String :=
  s ++ String.mk (List.replicate (width - s.length) ' ')

/-- `format!("{1:>0$}", width, s)`, and `format!("{1:0$}", width, x)` of a
number: `s` padded with spaces on the left to `width` chars. -/
def padLeft (width : Nat) (s : String) : String :=
  String.mk (List.replicate (width - s.length) ' ') ++ s

@[simp] theorem length_padRight (width : Nat) (s : String) :
    (padRight width s).length = max width s.length := by
  simp only [padRight, String.length_append]
  show s.length + (List.replicate _ ' ').length = _
  rw [List.length_replicate]
  omega

@[simp] theorem length_padLeft (width : Nat) (s : String) :
    (padLeft width s).length = max width s.length := by
  simp only [padLeft, String.length_append]
  show (List.replicate _ ' ').length + s.length = _
  rw [List.length_replicate]
  omega

/-- `ascii::Column`; the `f64`s of `Percent` are of a type `F`. -/
inductive Column (F : Type) where
  | text (items : List String)
  | bytes (items : List Nat)
  | ordinal (items : List Nat)
  | percent (items : List F)

/-- What `render_table` uses of `f64`, which is the standard library's. -/
structure FloatFormat (F : Type) where
  /-- `(x as f64) / k`. -/
  div : Nat → Nat → F
  /-- `format!("{:.1}", v)`. -/
  fixed1 : F → String

/-- The divisor and unit of a `Bytes` column, by its largest item: the `match`
on `max`, whose last arm also takes `0`. -/
def bytesUnit (largest : Nat) : Nat × String :=
  if 1 ≤ largest ∧ largest ≤ 10240 then (1, "B")
  else if 10241 ≤ largest ∧ largest ≤ 10485760 then (1024, "kiB")
  else if 10485761 ≤ largest ∧ largest ≤ 10737418240 then (1048576, "MiB")
  else (1073741824, "GiB")

/-- The width of a `Text` column: `max(3, ..)` of the byte lengths `x.len()` of
its items, `3` for none. -/
def textWidth (items : List String) : Nat :=
  max 3 ((items.map String.utf8ByteSize).max?.getD 3)

/-- The width of an `Ordinal` column: `max(3, ..)` of the lengths of its items
in decimal, `3` for none. -/
def ordinalWidth (items : List Nat) : Nat :=
  max 3 ((items.map fun x => (toString x).length).max?.getD 3)

variable {F : Type}

/-- The cells of one column, the title's first: the `values` of
`render_table` before `values.reverse()`, so that `pop` takes them in this
order. -/
def renderColumn (fmt : FloatFormat F) (title : String) : Column F → List String
  | .bytes items =>
    let unit := bytesUnit (items.max?.getD 1)
    padLeft (7 + unit.2.length) title ::
      items.map fun x => padLeft 7 (fmt.fixed1 (fmt.div x unit.1)) ++ unit.2
  | .text items => padRight (textWidth items) title :: items.map (padRight (textWidth items))
  | .ordinal items =>
    padLeft (ordinalWidth items) title :: items.map fun x => padLeft (ordinalWidth items) (toString x)
  | .percent items => padLeft 5 title :: items.map fun x => padLeft 5 (fmt.fixed1 x)

/-- A column has a cell for its title and one for each item. -/
theorem length_renderColumn (fmt : FloatFormat F) (title : String) (col : Column F) :
    (renderColumn fmt title col).length =
      (match col with
        | .text items => items.length
        | .bytes items => items.length
        | .ordinal items => items.length
        | .percent items => items.length) + 1 := by
  cases col <;> simp [renderColumn]

theorem length_le_utf8ByteSize (s : String) : s.length ≤ s.utf8ByteSize := by
  obtain ⟨l⟩ := s
  show l.length ≤ String.utf8ByteSize.go l
  induction l with
  | nil => exact le_rfl
  | cons c l ih =>
    have := c.utf8Size_pos
    simp only [List.length_cons, String.utf8ByteSize.go]
    omega

/-- **A text column is aligned.**  When the title is no wider than the column,
every cell of a `Text` column has the column's width in chars. -/
theorem renderColumn_text_width (fmt : FloatFormat F) (title : String) (items : List String)
    (h : title.length ≤ textWidth items) :
    ∀ s ∈ renderColumn fmt title (.text items), s.length = textWidth items := by
  simp only [renderColumn, List.mem_cons, List.mem_map]
  rintro s (rfl | ⟨x, hx, rfl⟩)
  · simp [h]
  · have h1 := length_le_utf8ByteSize x
    have h2 : x.utf8ByteSize ≤ (items.map String.utf8ByteSize).max?.getD 3 :=
      List.le_max?_getD_of_mem (List.mem_map_of_mem _ hx)
    simp only [length_padRight, textWidth] at h2 ⊢
    omega

/-- The `NAME` column of two processes. -/
theorem renderColumn_text_width_name :
    "NAME".length ≤ textWidth ["init", "web"] ∧
      ∀ s ∈ renderColumn (⟨fun _ _ => (), fun _ => ""⟩ : FloatFormat Unit) "NAME"
        (.text ["init", "web"]), s.length = textWidth ["init", "web"] :=
  ⟨by decide, renderColumn_text_width _ _ _ (by decide)⟩

/-- **An ordinal column is aligned.**  When the title is no wider than the
column, every cell of an `Ordinal` column has the column's width. -/
theorem renderColumn_ordinal_width (fmt : FloatFormat F) (title : String) (items : List Nat)
    (h : title.length ≤ ordinalWidth items) :
    ∀ s ∈ renderColumn fmt title (.ordinal items), s.length = ordinalWidth items := by
  simp only [renderColumn, List.mem_cons, List.mem_map]
  rintro s (rfl | ⟨x, hx, rfl⟩)
  · simp [h]
  · have h2 : (toString x).length ≤ (items.map fun x => (toString x).length).max?.getD 3 :=
      List.le_max?_getD_of_mem (List.mem_map_of_mem (fun x => (toString x).length) hx)
    simp only [length_padLeft, ordinalWidth] at h2 ⊢
    omega

/-- The `PID` column of two processes. -/
theorem renderColumn_ordinal_width_pid :
    "PID".length ≤ ordinalWidth [1, 4242] ∧
      ∀ s ∈ renderColumn (⟨fun _ _ => (), fun _ => ""⟩ : FloatFormat Unit) "PID"
        (.ordinal [1, 4242]), s.length = ordinalWidth [1, 4242] :=
  ⟨by decide, renderColumn_ordinal_width _ _ _ (by decide)⟩

/-! ## The output loop -/

/-- One pass of the `loop`: each column in turn pops its next cell and
`print!("{} ", ..)` writes it; at a column with no cell left the function
returns (`none`).  The writes, and the columns left. -/
def renderRow : List (List String) → List String × Option (List (List String))
  | [] => ([], some [])
  | [] :: _ => ([], none)
  | (c :: cs) :: cols =>
    let r := renderRow cols
    ((c ++ " ") :: r.1, r.2.map (cs :: ·))

/-- The loop for at most `fuel` passes, `println!("")` after each full one:
its writes, and whether the function returned. -/
def renderLoop : Nat → List (List String) → List String × Bool
  | 0, _ => ([], false)
  | fuel + 1, cols =>
    match renderRow cols with
    | (out, none) => (out, true)
    | (out, some cols') =>
      let r := renderLoop fuel cols'
      (out ++ "\n" :: r.1, r.2)

/-- `render_table`, its loop run for at most `fuel` passes. -/
def renderTable (fmt : FloatFormat F) (fuel : Nat) (columns : List (String × Column F)) :
    List String × Bool :=
  renderLoop fuel (columns.map fun c => renderColumn fmt c.1 c.2)

/-- The writes of row `i`: every column's `i`-th cell, with a space after it. -/
def rowCells (cols : List (List String)) (i : Nat) : List String :=
  cols.map fun c => c.getD i "" ++ " "

/-- What the loop writes when the shortest column has `n` cells: rows `0` to
`n - 1` in full, each ended by a newline, then row `n` of the columns before
the first one with no `n`-th cell. -/
def tableWrites (cols : List (List String)) (n : Nat) : List String :=
  (List.range n).flatMap (fun i => rowCells cols i ++ ["\n"]) ++
    rowCells (cols.takeWhile fun c => n < c.length) n

/-- A pass over columns that all have a cell writes row `0` and pops it. -/
theorem renderRow_of_forall {cols : List (List String)} (h : ∀ c ∈ cols, c ≠ []) :
    renderRow cols = (rowCells cols 0, some (cols.map List.tail)) := by
  induction cols with
  | nil => rfl
  | cons c cols ih =>
    obtain ⟨x, xs, rfl⟩ := List.exists_cons_of_ne_nil (h c (List.mem_cons_self _ _))
    simp [renderRow, ih fun c hc => h c (List.mem_cons_of_mem _ hc), rowCells]

/-- A pass that meets a column with no cell writes the cells of the columns
before it, and returns. -/
theorem renderRow_of_exists {cols : List (List String)} (h : ∃ c ∈ cols, c = []) :
    renderRow cols = (rowCells (cols.takeWhile fun c => 0 < c.length) 0, none) := by
  induction cols with
  | nil => simp at h
  | cons c cols ih =>
    cases c with
    | nil => rfl
    | cons x xs =>
      have h' : ∃ c ∈ cols, c = [] := by simpa using h
      simp [renderRow, ih h', rowCells]

theorem rowCells_map_tail (cols : List (List String)) (i : Nat) :
    rowCells (cols.map List.tail) i = rowCells cols (i + 1) := by
  simp only [rowCells, List.map_map]
  congr 1
  funext c
  cases c <;> rfl

/-- After a full pass, the writes left are those of the popped columns. -/
theorem tableWrites_succ (cols : List (List String)) (n : Nat) :
    tableWrites cols (n + 1) = rowCells cols 0 ++ "\n" :: tableWrites (cols.map List.tail) n := by
  have hlast : (cols.map List.tail).takeWhile (fun c => n < c.length) =
      (cols.takeWhile fun c => n + 1 < c.length).map List.tail := by
    rw [List.takeWhile_map]
    congr 2
    funext c
    simp only [Function.comp, List.length_tail]
    cases c <;> simp
  simp only [tableWrites, List.range_succ_eq_map, List.flatMap_cons, List.flatMap_map, hlast,
    rowCells_map_tail, List.append_assoc, List.cons_append, List.nil_append, Nat.succ_eq_add_one]

/-- **With no column, `render_table` never returns.**  Every pass of its loop
prints an empty line, however many passes it makes. -/
theorem renderLoop_nil (fuel : Nat) : renderLoop fuel [] = (List.replicate fuel "\n", false) := by
  induction fuel with
  | zero => rfl
  | succ fuel ih => simp [renderLoop, renderRow, ih, List.replicate_succ]

/-- **What `render_table` prints.**  When the shortest column has `n` cells,
the loop has not returned after `n` passes, and in pass `n + 1` it returns,
having written the first `n` rows in full, each followed by a newline, and then
row `n` of the columns before the first one with no `n`-th cell. -/
theorem renderLoop_eq (cols : List (List String)) (n : Nat) (hle : ∀ c ∈ cols, n ≤ c.length)
    (hmin : ∃ c ∈ cols, c.length = n) :
    (∀ fuel ≤ n, (renderLoop fuel cols).2 = false) ∧
    ∀ fuel, n < fuel → renderLoop fuel cols = (tableWrites cols n, true) := by
  induction n generalizing cols with
  | zero =>
    refine ⟨fun fuel hf => by rw [Nat.le_zero.1 hf]; rfl, fun fuel hf => ?_⟩
    obtain ⟨fuel, rfl⟩ := Nat.exists_eq_add_of_lt hf
    obtain ⟨c, hc, hc0⟩ := hmin
    rw [renderLoop, renderRow_of_exists ⟨c, hc, List.eq_nil_of_length_eq_zero hc0⟩]
    simp [tableWrites]
  | succ n ih =>
    have hne : ∀ c ∈ cols, c ≠ [] := fun c hc h0 => by have := hle c hc; simp [h0] at this
    have hrow := renderRow_of_forall hne
    obtain ⟨hrun, hdone⟩ := ih (cols.map List.tail)
      (fun c hc => by
        obtain ⟨c', hc', rfl⟩ := List.mem_map.1 hc
        have := hle c' hc'
        simp only [List.length_tail]
        omega)
      (by
        obtain ⟨c, hc, hcn⟩ := hmin
        exact ⟨c.tail, List.mem_map_of_mem _ hc, by simp [hcn]⟩)
    refine ⟨fun fuel hf => ?_, fun fuel hf => ?_⟩
    · cases fuel with
      | zero => rfl
      | succ fuel => simp [renderLoop, hrow, hrun fuel (by omega)]
    · obtain ⟨fuel, rfl⟩ := Nat.exists_eq_add_of_lt hf
      simp [renderLoop, hrow, hdone (n + 1 + fuel) (by omega), tableWrites_succ]

/-- A name column of three cells beside a pid column of two: the loop returns
in its third pass, in the middle of the row. -/
theorem renderLoop_eq_ragged :
    (∀ c ∈ [["NAME", "init", "web"], ["PID", "1"]], 2 ≤ c.length) ∧
    (∃ c ∈ [["NAME", "init", "web"], ["PID", "1"]], c.length = 2) ∧
    (∀ fuel ≤ 2, (renderLoop fuel [["NAME", "init", "web"], ["PID", "1"]]).2 = false) ∧
    ∀ fuel, 2 < fuel → renderLoop fuel [["NAME", "init", "web"], ["PID", "1"]] =
      (tableWrites [["NAME", "init", "web"], ["PID", "1"]] 2, true) :=
  ⟨by decide, by decide, renderLoop_eq _ 2 (by decide) (by decide)⟩

example : tableWrites [["NAME", "init", "web"], ["PID", "1"]] 2 =
    ["NAME ", "PID ", "\n", "init ", "1 ", "\n", "web "] := by decide

end Lithos
