import Lithos.Monitor.Backoff

/-!
# The order in which `_start_processes` starts instances

The start queue is a max-heap on `(-time, name)`, so its top is the entry of
the earliest time (`StartQueue.top_fst_max`), and `_top_time` is the earliest
time in the queue (`StartQueue.topTime_spec`).  `_start_processes` pops the top
while it is due.  `pops` lists the entries it pops, in order, over a given
sequence of spawn answers, the pass that panics included.

* Every popped entry was due, because the guard says so.
* When the loop breaks, the top is not due, so no entry is.
* The popped entries come in order of time as long as a failed spawn never
  queues its instance before the entry it popped.  A failed spawn queues it at
  `-(time + restart_timeout).sec`.  The whole second of `time + restart_timeout`
  is no earlier than the popped entry's whole second, which is before `time`,
  when `restart_timeout` is zero or more (`requeue_time_le`).  Every monitor
  `lithos_tree` and `lithos_cmd` build has such timeouts (one second, zero
  seconds, zero milliseconds).  `Monitor::add` itself takes any `Duration`,
  and with a negative one the order breaks (`negative_timeout_pops_back`).

`start_processes_order` puts the four together.
-/

namespace Lithos

variable {ε : Type}

namespace Monitor

/-- Every record's backoff is zero or more. -/
def NonnegRestarts (m : Monitor ε) : Prop :=
  ∀ p ∈ m.processes.entries, 0 ≤ p.2.restartTimeout.ns

instance (m : Monitor ε) : Decidable m.NonnegRestarts :=
  inferInstanceAs (Decidable (∀ p ∈ m.processes.entries, 0 ≤ p.2.restartTimeout.ns))

/-- The entries `_start_processes` woken at `time` pops, in the order it pops
them, its spawns answered by `rs`: the due top of every pass, the pass that
panics included. -/
def pops (time : Timespec) : List Spawn → Monitor ε → List Entry
  | [], _ => []
  | r :: rs, m =>
    match StartQueue.dueTop m.startQueue time with
    | none => []
    | some e =>
      match m.startPass time r with
      | .next _ m' => e :: pops time rs m'
      | _ => [e]

/-- A failed spawn queues its instance no earlier than the entry it popped,
when the backoff is zero or more. -/
theorem requeue_time_le {e : Entry} {time : Timespec} {d : Duration} (hd : e.due time = true)
    (h0 : 0 ≤ d.ns) (n : String) : e.time ≤ Entry.time (-(time + d).sec, n) := by
  have := Timespec.lt_new_sec_add_one (time + d)
  simp only [Entry.due, Entry.time, decide_eq_true_eq, Timespec.lt_def, Timespec.le_def,
    Timespec.new_ns, Timespec.add_ns, Int.neg_neg, nsPerSec] at hd this ⊢
  omega

/-- **One pass.**  A pass that goes on popped a due entry no later than every
entry it leaves queued, and keeps the backoffs. -/
theorem startPass_order {m m' : Monitor ε} {time : Timespec} {r : Spawn} {e : Entry}
    (hnn : m.NonnegRestarts) (h : m.startPass time r = .next e m') :
    (∀ x ∈ m'.startQueue, e.time ≤ x.time) ∧ m'.NonnegRestarts := by
  obtain ⟨prc, he, hprc, hcase⟩ := startPass_eq_next h
  obtain ⟨htop, hd⟩ := StartQueue.dueTop_eq_some.1 he
  have hmin : ∀ x ∈ m.startQueue.erase e, e.time ≤ x.time := fun x hx =>
    StartQueue.time_le_of_fst_le (StartQueue.top_fst_max htop x (List.mem_of_mem_erase hx))
  rcases hcase with ⟨pid, started, -, rfl⟩ | ⟨-, rfl⟩
  · refine ⟨hmin, fun p hp => ?_⟩
    rw [AList.insert_entries, List.mem_cons] at hp
    rcases hp with rfl | hp
    · exact hnn ⟨e.2, prc⟩ (AList.mem_lookup_iff.1 hprc)
    · exact hnn p ((List.kerase_sublist _ _).subset hp)
  · refine ⟨fun x hx => ?_, hnn⟩
    rcases List.mem_cons.1 hx with rfl | hx
    · exact requeue_time_le hd (hnn ⟨e.2, prc⟩ (AList.mem_lookup_iff.1 hprc)) e.2
    · exact hmin x hx

/-- Every entry `_start_processes` pops is due. -/
theorem pops_due (time : Timespec) :
    ∀ (rs : List Spawn) (m : Monitor ε), ∀ e ∈ pops time rs m, e.time < time
  | [], _ => by simp [pops]
  | r :: rs, m => by
    unfold pops
    split
    next => simp
    next e he =>
      have hdue : e.time < time := of_decide_eq_true (StartQueue.dueTop_eq_some.1 he).2
      split
      · intro x hx
        rcases List.mem_cons.1 hx with rfl | hx
        · exact hdue
        · exact pops_due time rs _ x hx
      · intro x hx
        rw [List.mem_singleton.1 hx]
        exact hdue

/-- **The whole loop.**  When every backoff is zero or more, every popped entry
is no earlier than a bound of the queue it was popped from, and the popped
entries come in order of time. -/
theorem pops_sorted (time : Timespec) :
    ∀ (rs : List Spawn) (m : Monitor ε), m.NonnegRestarts →
      (∀ e ∈ pops time rs m, ∀ lo : Timespec, (∀ x ∈ m.startQueue, lo ≤ x.time) → lo ≤ e.time) ∧
        (pops time rs m).Pairwise (fun a b => a.time ≤ b.time)
  | [], _, _ => by simp [pops]
  | r :: rs, m, hnn => by
    unfold pops
    split
    next => simp
    next e he =>
      have hmem : e ∈ m.startQueue := StartQueue.dueTop_mem he
      split
      · rename_i e' m' hm
        obtain rfl : e = e' := Option.some.inj (he.symm.trans (startPass_eq_next hm).choose_spec.1)
        obtain ⟨hmin, hnn'⟩ := startPass_order hnn hm
        obtain ⟨hrest, hsorted⟩ := pops_sorted time rs m' hnn'
        refine ⟨?_, List.pairwise_cons.2 ⟨fun b hb => hrest b hb e.time hmin, hsorted⟩⟩
        intro x hx lo hlo
        rcases List.mem_cons.1 hx with rfl | hx
        · exact hlo x hmem
        · exact Timespec.le_trans (hlo e hmem) (hrest x hx e.time hmin)
      · refine ⟨fun x hx lo hlo => ?_, List.pairwise_singleton _ _⟩
        rw [List.mem_singleton.1 hx]
        exact hlo e hmem

/-- When `_start_processes` returns, its last pass found the top not due. -/
theorem dueTop_of_returned (time : Timespec) :
    ∀ (rs : List Spawn) (m m' : Monitor ε), m.startProcesses time rs = .returned m' →
      StartQueue.dueTop m'.startQueue time = none
  | [], _, _, h => by cases h
  | r :: rs, m, m', h => by
    simp only [startProcesses] at h
    split at h
    · rename_i hstop
      cases h
      exact startPass_eq_stop.1 hstop
    · cases h
    · exact dueTop_of_returned time rs _ m' h

/-- **What `_start_processes` pops, and what it leaves.**  Woken at `time`,
whatever its spawns answer: every entry it pops is due at `time`; when every
backoff is zero or more, it pops them in order of time; when it returns, no
queued entry is due.  And `_top_time` is the earliest time of a queue, `None`
exactly for an empty one. -/
theorem start_processes_order (time : Timespec) (rs : List Spawn) (m : Monitor ε) :
    (∀ e ∈ pops time rs m, e.time < time) ∧
    (m.NonnegRestarts → (pops time rs m).Pairwise (fun a b => a.time ≤ b.time)) ∧
    (∀ m', m.startProcesses time rs = .returned m' → ∀ e ∈ m'.startQueue, ¬ e.time < time) ∧
    ∀ q : List Entry, (StartQueue.topTime q = none ↔ q = []) ∧
      ∀ x, StartQueue.topTime q = some x → (∃ e ∈ q, e.time = x) ∧ ∀ e ∈ q, x ≤ e.time := by
  refine ⟨pops_due time rs m, fun hnn => (pops_sorted time rs m hnn).2, fun m' hm e he => ?_,
    StartQueue.topTime_spec⟩
  have := StartQueue.not_due_of_dueTop_eq_none (dueTop_of_returned time rs m m' hm) e he
  simpa [Entry.due] using this

theorem start_processes_order_cmd :
    cmdMonitor.NonnegRestarts ∧
    (∀ e ∈ pops ⟨10500000000⟩ [.err, .err] cmdMonitor, e.time < ⟨10500000000⟩) ∧
    (pops ⟨10500000000⟩ [.err, .err] cmdMonitor).Pairwise (fun a b => a.time ≤ b.time) ∧
    (∀ m', cmdMonitor.startProcesses ⟨10500000000⟩ [.err, .err] = .returned m' →
      ∀ e ∈ m'.startQueue, ¬ e.time < ⟨10500000000⟩) ∧
    ∀ q : List Entry, (StartQueue.topTime q = none ↔ q = []) ∧
      ∀ x, StartQueue.topTime q = some x → (∃ e ∈ q, e.time = x) ∧ ∀ e ∈ q, x ≤ e.time :=
  have h := start_processes_order ⟨10500000000⟩ [.err, .err] cmdMonitor
  ⟨by decide, h.1, h.2.1 (by decide), h.2.2⟩

/-- A monitor built by `Monitor::add` with a backoff of -15 s, its instance
queued at 10 s. -/
def negativeTimeoutMonitor : Monitor Unit :=
  { Monitor.new.add "a" () (Duration.seconds (-15)) none with startQueue := [(-10, "a")] }

/-- **A negative backoff pops back in time.**  Woken at 20 s with two failed
spawns, `_start_processes` pops the entry of 10 s, queues the instance at
20 s - 15 s = 5 s, and pops that next. -/
theorem negative_timeout_pops_back :
    ¬ ∀ (time : Timespec) (rs : List Spawn) (m : Monitor Unit),
      (pops time rs m).Pairwise (fun a b => a.time ≤ b.time) := by
  intro h
  have hpops : pops ⟨20000000000⟩ [.err, .err] negativeTimeoutMonitor = [(-10, "a"), (-5, "a")] := by
    decide
  have := h ⟨20000000000⟩ [.err, .err] negativeTimeoutMonitor
  rw [hpops] at this
  revert this
  decide

end Monitor

end Lithos
