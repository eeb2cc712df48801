import Mathlib.Data.List.Basic

/-!
# Coloured words: `Printer`

`Printer` (ascii.rs) builds a line of words.  Each of `norm`, `red`, `blue` and
`green` writes a space when the buffer is not empty, and then its word; with
colours on, the three colours wrap the word in the escapes that set the colour
and bold, and those that reset both.  `unwrap` gives the buffer back as text.

* `printLine_eq`: the line is the words as written, joined by single spaces,
  without the empty words before the first one that is not empty.  With
  colours on a coloured word is never empty, so only empty `norm` words are
  left out.
* `shown_printLine`: a terminal shows the same line in both modes (`shown`
  drops the colour escapes), when no word holds an escape char and no coloured
  word is empty.  With an empty coloured word first, the colour line has a
  space the plain line has not.
-/

namespace Lithos

/-- `ascii::Printer`: whether it colours, and its buffer.  Every write is a
`str`, so the buffer is kept as the chars written, and `String::from_utf8` in
`unwrap` gives them back. -/
structure Printer where
  /-- `PrinterFactory(color)`. -/
  color : Bool
  /-- `buf`. -/
  buf : List Char

namespace Printer

/-- `PrinterFactory::new`: a printer with an empty buffer. -/
def new (color : Bool) : Printer := ⟨color, []⟩

/-- The start every method shares: a space when the buffer is not empty, then
the text. -/
def push (p : Printer) (text : String) : Printer :=
  { p with buf := p.buf ++ (if p.buf.isEmpty then [] else [' ']) ++ text.toList }

/-- The text a colour method writes for `val`: with colours on, `val` between
the escapes that set colour `code` and bold, and those that reset both. -/
def colored (color : Bool) (code val : String) : String :=
  if color then "\x1b[" ++ code ++ "m\x1b[1m" ++ val ++ "\x1b[0m\x1b[22m" else val

/-- `Printer::norm`. -/
def norm (p : Printer) (val : String) : Printer := p.push val

/-- The body of `red`, `blue` and `green`, for the colour `code`. -/
def paint (code : String) (p : Printer) (val : String) : Printer := p.push (colored p.color code val)

/-- `Printer::red`. -/
def red : Printer → String → Printer := paint "31"

/-- `Printer::blue`. -/
def blue : Printer → String → Printer := paint "34"

/-- `Printer::green`. -/
def green : Printer → String → Printer := paint "32"

/-- `Printer::unwrap`. -/
def unwrap (p : Printer) : String := String.mk p.buf

end Printer

/-- Which method writes a word. -/
inductive Paint where
  | norm
  | red
  | blue
  | green
  deriving DecidableEq, Repr

/-- One call of a chain `printer.norm(..).red(..)...`. -/
def Printer.write (p : Printer) : Paint × String → Printer
  | (.norm, v) => p.norm v
  | (.red, v) => p.red v
  | (.blue, v) => p.blue v
  | (.green, v) => p.green v

/-- The line a chain of calls on a new printer unwraps to. -/
def printLine (color : Bool) (ws : List (Paint × String)) : String :=
  (ws.foldl Printer.write (Printer.new color)).unwrap

/-- The text a call writes after the space. -/
def wordText (color : Bool) : Paint × String → String
  | (.norm, v) => v
  | (.red, v) => Printer.colored color "31" v
  | (.blue, v) => Printer.colored color "34" v
  | (.green, v) => Printer.colored color "32" v

theorem Printer.write_eq (p : Printer) (w : Paint × String) : p.write w = p.push (wordText p.color w) := by
  obtain ⟨_ | _ | _ | _, v⟩ := w <;> rfl

@[simp] theorem Printer.push_color (p : Printer) (t : String) : (p.push t).color = p.color := rfl

/-- Words joined by single spaces. -/
def joinWords : List String → List Char
  | [] => []
  | t :: ts => t.toList ++ ts.flatMap (' ' :: ·.toList)

/-- The buffer after a chain of words, from a buffer that is not empty: each
word after a space. -/
theorem buf_foldl_write_of_ne {p : Printer} (hp : p.buf ≠ []) (ws : List (Paint × String)) :
    (ws.foldl Printer.write p).buf =
      p.buf ++ (ws.map (wordText p.color)).flatMap (' ' :: ·.toList) := by
  induction ws generalizing p with
  | nil => simp
  | cons w ws ih =>
    have hne : (p.write w).buf ≠ [] := by simp [Printer.write_eq, Printer.push, hp]
    rw [List.foldl_cons, ih hne]
    simp [Printer.write_eq, Printer.push, hp, List.isEmpty_iff]

/-- The buffer of a chain of calls on a new printer: the words joined by single
spaces, without the empty words before the first one that is not empty. -/
theorem buf_foldl_write_new (color : Bool) (ws : List (Paint × String)) :
    (ws.foldl Printer.write (Printer.new color)).buf =
      joinWords ((ws.map (wordText color)).dropWhile (· == "")) := by
  induction ws with
  | nil => rfl
  | cons w ws ih =>
    by_cases hw : wordText color w = ""
    · have : (Printer.new color).write w = Printer.new color := by
        simp [Printer.write_eq, Printer.new, Printer.push, hw]
      simp [this, ih, hw]
    · have hne : ((Printer.new color).write w).buf ≠ [] := by
        simpa [Printer.write_eq, Printer.new, Printer.push, String.ext_iff] using hw
      rw [List.foldl_cons, buf_foldl_write_of_ne hne]
      simp [Printer.write_eq, Printer.new, Printer.push, hw, joinWords]

/-- **What a line reads.**  A chain of calls on a new printer unwraps to its
words as written, joined by single spaces, without the empty words before the
first one that is not empty. -/
theorem printLine_eq (color : Bool) (ws : List (Paint × String)) :
    printLine color ws = String.mk (joinWords ((ws.map (wordText color)).dropWhile (· == ""))) := by
  rw [printLine, Printer.unwrap, buf_foldl_write_new]

/-! ## What a terminal shows -/

/-- What a terminal shows of a line, read in state `inEsc`: outside a control
sequence every char shows; an `ESC` starts a sequence, and the `m` that ends a
colour sequence closes it. -/
def shownAux : Bool → List Char → List Char
  | _, [] => []
  | false, c :: s => if c = '\x1b' then shownAux true s else c :: shownAux false s
  | true, c :: s => if c = 'm' then shownAux false s else shownAux true s

/-- What a terminal shows of a line. -/
def shown (s : List Char) : List Char := shownAux false s

theorem shownAux_cons_of_ne {c : Char} (hc : c ≠ '\x1b') (s : List Char) :
    shownAux false (c :: s) = c :: shownAux false s :=
  if_neg hc

theorem shownAux_append_of_not_mem {a : List Char} (ha : '\x1b' ∉ a) (b : List Char) :
    shownAux false (a ++ b) = a ++ shownAux false b := by
  induction a with
  | nil => rfl
  | cons c a ih =>
    rw [List.cons_append, shownAux_cons_of_ne (fun h => ha (h ▸ List.mem_cons_self _ _)),
      ih fun h => ha (List.mem_cons_of_mem _ h), List.cons_append]

theorem shownAux_escape {a : List Char} (ha : 'm' ∉ a) (b : List Char) :
    shownAux true (a ++ 'm' :: b) = shownAux false b := by
  induction a with
  | nil => simp [shownAux]
  | cons c a ih =>
    have hc : c ≠ 'm' := fun h => ha (h ▸ List.mem_cons_self _ _)
    simp [shownAux, hc, ih fun h => ha (List.mem_cons_of_mem _ h)]

/-- A terminal shows a coloured word as the word. -/
theorem shownAux_colored {code v : String} (hcode : 'm' ∉ code.toList) (hv : '\x1b' ∉ v.toList)
    (b : List Char) :
    shownAux false ((Printer.colored true code v).toList ++ b) = v.toList ++ shownAux false b := by
  simp [Printer.colored, shownAux, shownAux_escape (a := code.data) hcode,
    shownAux_append_of_not_mem (a := v.data) hv]

theorem shownAux_wordText {w : Paint × String} (hw : '\x1b' ∉ w.2.toList) (b : List Char) :
    shownAux false ((wordText true w).toList ++ b) = (wordText false w).toList ++ shownAux false b := by
  obtain ⟨_ | _ | _ | _, v⟩ := w
  · exact shownAux_append_of_not_mem hw b
  all_goals exact shownAux_colored (by decide) hw b

theorem shown_joinWords {ws : List (Paint × String)} (hesc : ∀ w ∈ ws, '\x1b' ∉ w.2.toList) :
    shown (joinWords (ws.map (wordText true))) = joinWords (ws.map (wordText false)) := by
  have hrest : ∀ ws : List (Paint × String), (∀ w ∈ ws, '\x1b' ∉ w.2.toList) →
      shownAux false ((ws.map (wordText true)).flatMap (' ' :: ·.toList)) =
        (ws.map (wordText false)).flatMap (' ' :: ·.toList) := by
    intro ws hesc
    induction ws with
    | nil => rfl
    | cons w ws ih =>
      rw [List.map_cons, List.map_cons, List.flatMap_cons, List.flatMap_cons, List.cons_append,
        List.cons_append, shownAux_cons_of_ne (by decide),
        shownAux_wordText (hesc w (List.mem_cons_self _ _)),
        ih fun w hw => hesc w (List.mem_cons_of_mem _ hw)]
  cases ws with
  | nil => rfl
  | cons w ws =>
    rw [List.map_cons, List.map_cons, joinWords, joinWords, shown,
      shownAux_wordText (hesc w (List.mem_cons_self _ _)),
      hrest ws fun w hw => hesc w (List.mem_cons_of_mem _ hw)]

theorem wordText_beq_empty (color : Bool) {w : Paint × String} (h : w.1 ≠ .norm → w.2 ≠ "") :
    (wordText color w == "") = (w.2 == "") := by
  obtain ⟨_ | _ | _ | _, v⟩ := w
  · rfl
  all_goals
    have hv : v ≠ "" := h nofun
    cases color <;> simp [wordText, Printer.colored, hv, String.ext_iff]

theorem dropWhile_wordText (color : Bool) :
    ∀ ws : List (Paint × String), (∀ w ∈ ws, w.1 ≠ .norm → w.2 ≠ "") →
      (ws.map (wordText color)).dropWhile (· == "") =
        (ws.dropWhile (·.2 == "")).map (wordText color)
  | [], _ => rfl
  | w :: ws, h => by
    have hw := wordText_beq_empty color (h w (List.mem_cons_self _ _))
    simp only [List.map_cons, List.dropWhile_cons, hw]
    split
    · exact dropWhile_wordText color ws fun w hw => h w (List.mem_cons_of_mem _ hw)
    · rfl

/-- **Colours add only escapes.**  When no word holds an escape char and no
coloured word is empty, a terminal shows the line of a chain of calls with
colours on as the same text as the line with colours off. -/
theorem shown_printLine (ws : List (Paint × String)) (hesc : ∀ w ∈ ws, '\x1b' ∉ w.2.toList)
    (hne : ∀ w ∈ ws, w.1 ≠ .norm → w.2 ≠ "") :
    shown (printLine true ws).toList = (printLine false ws).toList := by
  show shown (ws.foldl Printer.write (Printer.new true)).buf = (ws.foldl Printer.write (Printer.new false)).buf
  rw [buf_foldl_write_new, buf_foldl_write_new, dropWhile_wordText true ws hne,
    dropWhile_wordText false ws hne]
  exact shown_joinWords fun w hw => hesc w ((List.dropWhile_sublist _).subset hw)

/-- `web.0` in plain text and `dead` in red: the terminal shows the same line
with colours on as with colours off. -/
theorem shown_printLine_web :
    (∀ w ∈ [(Paint.norm, "web.0"), (.red, "dead")], '\x1b' ∉ w.2.toList) ∧
    (∀ w ∈ [(Paint.norm, "web.0"), (.red, "dead")], w.1 ≠ .norm → w.2 ≠ "") ∧
    shown (printLine true [(.norm, "web.0"), (.red, "dead")]).toList =
      (printLine false [(.norm, "web.0"), (.red, "dead")]).toList :=
  ⟨by decide, by decide, shown_printLine _ (by decide) (by decide)⟩

/-- An empty red word first: the colour line shows a space before `web.0` that
the plain line has not. -/
example : shown (printLine true [(.red, ""), (.norm, "web.0")]).toList = " web.0".toList ∧
    (printLine false [(.red, ""), (.norm, "web.0")]).toList = "web.0".toList := by decide

end Lithos
