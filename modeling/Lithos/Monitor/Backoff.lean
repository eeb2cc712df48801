import Lithos.Monitor.Owners

/-!
# Backoff in whole seconds

Both places that queue a restart store `-(t + restart_timeout).sec`: the
`Child` branch with `t` the child's start time, `_start_processes` with `t` the
time it woke at after a failed spawn.  The guard then compares
`Timespec::new(-key, 0)` with the clock.  The sum is cut to whole seconds
before it is compared, so the restart may come up to a second before
`t + restart_timeout`:

* `due_requeue_iff` says exactly when a re-queued entry is due, and
  `due_requeue_after` what that leaves of the backoff: the attempt comes less
  than a second before `t + restart_timeout`, and `restart_attempt_early` is a
  run in which it comes 0.4 s before.
* A failed spawn re-queues its instance inside the same loop.  When the cut
  puts the new entry before the wake-up time, the loop pops it again, and with a
  spawn that keeps failing it never ends (`start_processes_spins`, with the
  zero timeout `lithos_cmd` uses).  With timeouts of a second or more, as
  `lithos_tree` uses, a re-queued entry is never due in the same wake-up and
  the loop ends after at most one pass per due entry, whatever the spawns
  answer (`startProcesses_returns`).
-/

namespace Lithos

variable {ε : Type}

/-- **When a re-queued entry is due.**  The entry `-(t + d).sec` is due at
`now` exactly when the whole second of `t + d` is before `now`. -/
theorem due_requeue_iff (t now : Timespec) (d : Duration) (n : String) :
    Entry.due now (-(t + d).sec, n) = true ↔ (Timespec.new (t + d).sec 0).ns < now.ns := by
  simp [Entry.due, Entry.time]

/-- A re-queued entry is due less than a second before `t + d`. -/
theorem due_requeue_after {t now : Timespec} {d : Duration} {n : String}
    (h : Entry.due now (-(t + d).sec, n) = true) : t.ns + d.ns - nsPerSec < now.ns := by
  have := Timespec.lt_new_sec_add_one (t + d)
  rw [due_requeue_iff] at h
  simp only [Timespec.add_ns] at this
  omega

/-- With a backoff of a second or more, a re-queued entry is not due at the
wake-up time it was queued at. -/
theorem not_due_requeue (t : Timespec) {d : Duration} (hd : nsPerSec ≤ d.ns) (n : String) :
    Entry.due t (-(t + d).sec, n) = false := by
  have := Timespec.lt_new_sec_add_one (t + d)
  simp only [Timespec.add_ns] at this
  simp only [Entry.due, Entry.time, Int.neg_neg, decide_eq_false_iff_not, Timespec.lt_def]
  omega

/-- **An early restart.**  `web.0` is started at 10.9 s after a wake-up at
10.8 s, with a backoff of one second; its child exits, and at a wake-up at
11.5 s the entry the `Child` branch queued is due, 0.4 s before 10.9 s + 1 s. -/
theorem restart_attempt_early :
    ∃ s : Sys Unit,
      (Sys.init [⟨"web.0", (), Duration.seconds 1, none⟩] [] true).Reaches s ∧
      s.phase = .starting ⟨11500000000⟩ ∧
      StartQueue.dueTop s.mon.startQueue ⟨11500000000⟩ = some (-11, "web.0") ∧
      (s.mon.processes.lookup "web.0").bind Process.startTime = some ⟨10900000000⟩ ∧
      11500000000 < 10900000000 + (Duration.seconds 1).ns :=
  ⟨_, Sys.Reaches.of_runEvents
    (Sys.init [⟨"web.0", (), Duration.seconds 1, none⟩] [] true)
    [.wake ⟨10800000000⟩, .pass (.ok 7 ⟨10900000000⟩), .pass .err, .exit 7,
      .wake ⟨11500000000⟩] rfl,
    rfl, by decide, by decide, by decide⟩

/-! ## When `_start_processes` returns -/

/-- The entries of a queue that are due at `now`. -/
def dueCount (q : List Entry) (now : Timespec) : Nat := (q.filter (Entry.due now)).length

theorem dueCount_erase {q : List Entry} {now : Timespec} {e : Entry} (h : e ∈ q)
    (hd : e.due now = true) : dueCount (q.erase e) now + 1 = dueCount q now := by
  induction q with
  | nil => cases h
  | cons x q ih =>
    by_cases hx : x = e
    · subst hx; simp [dueCount, List.filter_cons, hd]
    · have he : e ∈ q := (List.mem_cons.1 h).resolve_left (Ne.symm hx)
      have := ih he
      rw [List.erase_cons_tail (by simpa using hx)]
      simp only [dueCount, List.filter_cons] at this ⊢
      split <;> (try simp only [List.length_cons]) <;> omega

/-- Every record's backoff is a second or more. -/
def SlowRestarts (m : Monitor ε) : Prop :=
  ∀ n prc, m.processes.lookup n = some prc → nsPerSec ≤ prc.restartTimeout.ns

/-- A pass that goes on leaves one due entry fewer, when the backoff of the
instance it pops is a second or more. -/
theorem dueCount_startPass {m m' : Monitor ε} {time : Timespec} {r : Spawn} {e : Entry}
    (h : m.startPass time r = .next e m')
    (hslow : ∀ prc, m.processes.lookup e.2 = some prc → nsPerSec ≤ prc.restartTimeout.ns) :
    dueCount m'.startQueue time + 1 = dueCount m.startQueue time := by
  obtain ⟨prc, he, hprc, ⟨pid, started, -, rfl⟩ | ⟨-, rfl⟩⟩ := Monitor.startPass_eq_next h
  all_goals have hc := dueCount_erase (StartQueue.dueTop_mem he) (StartQueue.dueTop_eq_some.1 he).2
  · exact hc
  · simpa [dueCount, List.filter_cons, not_due_requeue time (hslow prc hprc)] using hc

/-- A pass that goes on leaves one due entry fewer, when every backoff is a
second or more, and keeps the backoffs. -/
theorem startPass_dueCount {m m' : Monitor ε} {time : Timespec} {r : Spawn} {e : Entry}
    (hslow : SlowRestarts m) (h : m.startPass time r = .next e m') :
    dueCount m'.startQueue time + 1 = dueCount m.startQueue time ∧ SlowRestarts m' := by
  refine ⟨dueCount_startPass h (hslow e.2), ?_⟩
  obtain ⟨prc, -, hprc, ⟨pid, started, -, rfl⟩ | ⟨-, rfl⟩⟩ := Monitor.startPass_eq_next h
  · intro n p hn
    by_cases hne : n = e.2
    · subst hne; rw [AList.lookup_insert] at hn; cases hn; exact hslow e.2 prc hprc
    · rw [AList.lookup_insert_ne hne] at hn; exact hslow n p hn
  · exact hslow

/-- **`_start_processes` returns, when every backoff is a second or more.**
Whatever the spawns answer, the loop has broken or panicked once it has been
given one answer more than there are due entries. -/
theorem startProcesses_returns {m : Monitor ε} {time : Timespec} (hslow : SlowRestarts m)
    (rs : List Spawn) (hlen : dueCount m.startQueue time < rs.length) :
    ∀ m', m.startProcesses time rs ≠ .running m' := by
  induction rs generalizing m with
  | nil => cases hlen
  | cons r rs ih =>
    intro m' hrun
    simp only [Monitor.startProcesses] at hrun
    split at hrun
    · cases hrun
    · cases hrun
    · rename_i e m'' hm
      obtain ⟨hc, hslow'⟩ := startPass_dueCount hslow hm
      exact ih hslow' (by simp only [List.length_cons] at hlen; omega) m' hrun

/-- Whether `_start_processes` is still looping. -/
def Loop.isRunning : Loop ε → Bool
  | .running _ => true
  | _ => false

/-- The `lithos_cmd` instance: added with no pid and `Duration::milliseconds(0)`. -/
def cmdMonitor : Monitor Unit := Monitor.new.add "web.cmd" () (Duration.milliseconds 0) none

/-- `cmdMonitor` after its first failed spawn at 10.5 s: the entry is queued at
`-(10.5 s + 0).sec = -10`, that is at 10 s. -/
def cmdRequeued : Monitor Unit := { cmdMonitor with startQueue := [(-10, "web.cmd")] }

/-- At 10.5 s the entry queued at 10 s is due, and a failed spawn queues it at
10 s again: the pass leaves the monitor as it found it. -/
theorem cmdRequeued_pass :
    cmdRequeued.startPass ⟨10500000000⟩ .err = .next (-10, "web.cmd") cmdRequeued := rfl

theorem cmdRequeued_spins (k : Nat) :
    cmdRequeued.startProcesses ⟨10500000000⟩ (List.replicate k .err) = .running cmdRequeued := by
  induction k with
  | zero => rfl
  | succ k ih => rw [List.replicate_succ, Monitor.startProcesses, cmdRequeued_pass]; exact ih

/-- **`_start_processes` need not return.**  For `lithos_cmd`'s monitor, woken
at 10.5 s, with a spawn that keeps failing, no number of passes ends the loop:
each failed spawn queues the instance at the whole second 10, which is before
10.5 s, so the next pass pops it again. -/
theorem start_processes_spins :
    ¬ ∀ (m : Monitor Unit) (time : Timespec) (answers : Nat → Spawn),
      ∃ k, (m.startProcesses time ((List.range k).map answers)).isRunning = false := by
  intro h
  obtain ⟨k, hk⟩ := h cmdMonitor ⟨10500000000⟩ fun _ => .err
  rw [List.map_const', List.length_range] at hk
  cases k with
  | zero => cases hk
  | succ k =>
    have h1 : cmdMonitor.startPass ⟨10500000000⟩ .err = .next (0, "web.cmd") cmdRequeued := rfl
    simp only [List.replicate_succ, Monitor.startProcesses, h1, cmdRequeued_spins] at hk
    cases hk

end Lithos
