import Lithos.Time
import Mathlib.Data.List.Basic
import Mathlib.Data.String.Basic

/-!
# The start queue

`Monitor.start_queue` is a `PriorityQueue<(i64, Rc<String>)>`: Rust's
`PriorityQueue` is a max-heap, so the monitor stores the *negated* second at
which an instance may start, and the greatest entry is the earliest.  Tuples
compare lexicographically and `Rc<String>` compares the strings, so among
entries with the same second the greatest name comes first.

A heap is a multiset with a maximum, and that is how it is kept here: a list of
entries in no particular order, `top` the greatest of them under that order,
and `pop` the erasure of the top.  The monitor uses four operations:

* `push`, a cons;
* `top`, in `_top_time` (the timer `_wait_signal` arms) and in the guard of
  `_start_processes`'s loop, `Timespec::new(-ptime, 0) < time`, which is `due`;
* `pop`, the erasure of the entry the guard looked at;
* `clear`, when the main loop ends.

What the invariants of the monitor count is how often a name is queued, so
`queued q n` is that count, with one lemma per operation.
-/

namespace Lithos

/-- An entry of `start_queue`: the negated second before which the instance is
not started, and the instance's name. -/
abbrev Entry := Int × String

namespace Entry

/-- `a ≤ b` in the order of `(i64, Rc<String>)`. -/
def le (a b : Entry) : Bool := a.1 < b.1 || (a.1 == b.1 && decide (a.2 ≤ b.2))

/-- The time an entry stands for, `Timespec::new(-ptime, 0)`. -/
def time (e : Entry) : Timespec := Timespec.new (-e.1) 0

/-- The guard of `_start_processes`'s loop: the entry is due at `now`. -/
def due (now : Timespec) (e : Entry) : Bool := decide (e.time < now)

end Entry

namespace StartQueue

/-- `start_queue.top()`: the greatest entry. -/
def top : List Entry → Option Entry
  | [] => none
  | e :: q =>
    match top q with
    | none => some e
    | some t => some (if Entry.le e t then t else e)

/-- `_top_time`: when the earliest queued instance may start. -/
def topTime (q : List Entry) : Option Timespec := (top q).map Entry.time

/-- The entry `_start_processes` pops next at `now`, if its loop goes on. -/
def dueTop (q : List Entry) (now : Timespec) : Option Entry :=
  match top q with
  | some e => if e.due now then some e else none
  | none => none

/-- How many entries of the queue name `n`. -/
def queued (q : List Entry) (n : String) : Nat := (q.map Prod.snd).count n

theorem top_mem : ∀ {q : List Entry} {e : Entry}, top q = some e → e ∈ q
  | [], _, h => by simp [top] at h
  | x :: q, e, h => by
    simp only [top] at h
    split at h
    · cases h; exact List.mem_cons_self _ _
    · rename_i t ht
      split at h <;> cases h
      · exact List.mem_cons_of_mem _ (top_mem ht)
      · exact List.mem_cons_self _ _

@[simp] theorem top_eq_none {q : List Entry} : top q = none ↔ q = [] := by
  cases q with
  | nil => simp [top]
  | cons x q => simp only [top, reduceCtorEq, iff_false]; split <;> simp

theorem fst_le_of_le {a b : Entry} (h : Entry.le a b = true) : a.1 ≤ b.1 := by
  simp only [Entry.le, Bool.or_eq_true, decide_eq_true_eq, Bool.and_eq_true, beq_iff_eq] at h
  rcases h with h | ⟨h, -⟩ <;> omega

theorem fst_le_of_not_le {a b : Entry} (h : Entry.le a b = false) : b.1 ≤ a.1 := by
  simp only [Entry.le, Bool.or_eq_false_iff, decide_eq_false_iff_not] at h
  omega

/-- **The top entry has the greatest key.** -/
theorem top_fst_max : ∀ {q : List Entry} {t : Entry}, top q = some t → ∀ x ∈ q, x.1 ≤ t.1
  | [], _, h => by simp [top] at h
  | e :: q, t, h => by
    simp only [top] at h
    split at h
    · rename_i hq
      cases h
      simp [top_eq_none.1 hq]
    · rename_i t' ht'
      have ih := top_fst_max ht'
      intro x hx
      have hx' := List.mem_cons.1 hx
      cases hle : Entry.le e t' <;> simp only [hle, Bool.false_eq_true, if_false, if_true,
        Option.some.injEq] at h <;> subst h
      · have := fst_le_of_not_le hle
        rcases hx' with rfl | hx' <;> [exact le_refl _; exact (ih x hx').trans this]
      · rcases hx' with rfl | hx' <;> [exact fst_le_of_le hle; exact ih x hx']

/-- A greater key is an earlier time. -/
theorem time_le_of_fst_le {a b : Entry} (h : a.1 ≤ b.1) : b.time ≤ a.time := by
  simp only [Entry.time, Timespec.le_def, Timespec.new_ns, nsPerSec]
  omega

theorem dueTop_eq_some {q : List Entry} {now : Timespec} {e : Entry} :
    dueTop q now = some e ↔ top q = some e ∧ e.due now = true := by
  unfold dueTop
  cases top q with
  | none => simp
  | some t =>
    simp only [Option.some.injEq]
    constructor
    · intro h; split at h <;> cases h; exact ⟨rfl, ‹_›⟩
    · rintro ⟨rfl, hd⟩; simp [hd]

/-- **`_top_time` is the earliest time**, and `None` only for an empty queue. -/
theorem topTime_spec (q : List Entry) :
    (topTime q = none ↔ q = []) ∧
      ∀ x, topTime q = some x → (∃ e ∈ q, e.time = x) ∧ ∀ e ∈ q, x ≤ e.time := by
  refine ⟨by simp [topTime], fun x hx => ?_⟩
  obtain ⟨t, ht, rfl⟩ := Option.map_eq_some'.1 hx
  exact ⟨⟨t, top_mem ht, rfl⟩, fun e he => time_le_of_fst_le (top_fst_max ht e he)⟩

/-- When the top entry is not due, no entry is. -/
theorem not_due_of_dueTop_eq_none {q : List Entry} {now : Timespec}
    (h : dueTop q now = none) : ∀ x ∈ q, x.due now = false := by
  intro x hx
  unfold dueTop at h
  cases ht : top q with
  | none => simp [top_eq_none.1 ht] at hx
  | some t =>
    rw [ht] at h
    have htd : t.due now = false := by simpa using h
    simp only [Entry.due, decide_eq_false_iff_not, Timespec.lt_def, not_lt] at htd ⊢
    exact le_trans htd (time_le_of_fst_le (top_fst_max ht x hx))

theorem dueTop_mem {q : List Entry} {now : Timespec} {e : Entry}
    (h : dueTop q now = some e) : e ∈ q :=
  top_mem (dueTop_eq_some.1 h).1

@[simp] theorem queued_nil (n : String) : queued [] n = 0 := rfl

@[simp] theorem queued_cons (e : Entry) (q : List Entry) (n : String) :
    queued (e :: q) n = queued q n + if e.2 = n then 1 else 0 := by
  simp [queued, List.count_cons]

theorem queued_erase {q : List Entry} {e : Entry} (h : e ∈ q) (n : String) :
    queued (q.erase e) n + (if e.2 = n then 1 else 0) = queued q n := by
  induction q with
  | nil => cases h
  | cons x q ih =>
    by_cases hx : x = e
    · subst hx; simp
    · have he : e ∈ q := (List.mem_cons.1 h).resolve_left (Ne.symm hx)
      rw [List.erase_cons_tail (by simpa using hx), queued_cons, queued_cons, ← ih he]
      omega

theorem pos_queued_of_mem {q : List Entry} {e : Entry} (h : e ∈ q) : 0 < queued q e.2 := by
  have := queued_erase h e.2
  simp only [if_true] at this
  omega

theorem mem_of_pos_queued {q : List Entry} {n : String} (h : 0 < queued q n) :
    ∃ e ∈ q, e.2 = n := by
  simpa [queued, List.count_pos_iff] using h

end StartQueue

end Lithos
