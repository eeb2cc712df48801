import Lithos.Monitor.Basic
import Mathlib.Logic.Relation

/-!
# `Monitor::run` among its children

`Monitor::run` is one thread that blocks in `_wait_signal` and then runs one
branch.  What it can be told depends on the operating system: a child's exit is
reported once, after the child has died, and a pid is not handed to a new child
while an old one still holds it.  So the run is a step function on a pair, the
monitor and the children the kernel holds for it (`Sys`), and every event the
environment may produce is an `Event`.  `Sys.step` answers `none` for an event
that cannot happen in the state, and otherwise the state after it.

Where the thread is, is the `Phase`:

* `main`, blocked in the main loop's `_wait_signal`;
* `starting time`, inside `_start_processes`, which read the clock as `time`:
  each `Event.pass` is one pass of its loop, so a loop that never breaks is a
  run that never leaves this phase, and every state inside it is a state of the
  run;
* `shutdown left`, in the shut down loop, waiting for the pids of `left`;
* `returned r`, after `run` returned `r`, and `panicked`, after an `unwrap` or
  an index failed.

A child carries a ghost: the instance it was spawned or adopted for (`Child`).
The code never reads it; it is what lets a theorem say "a second child of the
same instance", which is what `Lithos.Monitor.Owners` is about.  The children of the
supervisor that the monitor was never told of (`lithos_tree` sends them
`SIGTERM`) are live too, with no owner.

The run starts from the `Monitor::add` calls made before `run`
(`Sys.init`): `add` borrows the monitor mutably and so does `run`, so no `add`
happens once it runs.  `Sys.Reaches` is the reflexive-transitive closure of the
step, and `Sys.Reaches.rec_inv` is the one induction every invariant goes
through.
-/

namespace Lithos

/-- `monitor::MonitorResult`. -/
inductive MonitorResult where
  | killed
  | reboot
  deriving DecidableEq, Repr

/-- Where the monitor's thread is. -/
inductive Phase (ε : Type) where
  /-- Blocked in `_wait_signal` in the main loop. -/
  | main
  /-- Inside `_start_processes`, woken at `time`. -/
  | starting (time : Timespec)
  /-- In the shut down loop, waiting for the children of `left`. -/
  | shutdown (left : AList (fun _ : Pid => Process ε))
  /-- `run` returned. -/
  | returned (r : MonitorResult)
  /-- An `unwrap` or an index panicked. -/
  | panicked

/-- A child of the supervisor that the kernel has not reaped yet, with the
instance it was spawned or adopted for. -/
structure Child where
  /-- Its pid. -/
  pid : Pid
  /-- The instance it runs for, if the monitor spawned or adopted it. -/
  owner : Option String
  deriving DecidableEq, Repr

/-- The monitor, where its thread is, its live children, and every signal it
has sent. -/
structure Sys (ε : Type) where
  /-- The monitor's tables. -/
  mon : Monitor ε
  /-- Where its thread is. -/
  phase : Phase ε
  /-- The children the kernel holds for it. -/
  live : List Child
  /-- The signals sent, `(pid, signal)`, in order. -/
  sent : List (Pid × Int)

/-- What can happen next. -/
inductive Event where
  /-- `_wait_signal` returns `Timeout`, and `get_time()` then reads `time`. -/
  | wake (time : Timespec)
  /-- One pass of `_start_processes`'s loop; a spawn it makes answers `r`. -/
  | pass (r : Spawn)
  /-- A child exits and `_wait_signal` returns `Child(pid, _)`. -/
  | exit (pid : Pid)
  /-- `_wait_signal` returns `Terminate(sig)`. -/
  | terminate (sig : Int)
  /-- `_wait_signal` returns `Reboot`; it passes `allow_reboot` to
  `signal::wait_next`, which reports `Reboot` only when the flag is set. -/
  | reboot

/-- One `Monitor::add` made before `run`. -/
structure AddCall (ε : Type) where
  /-- The instance's name. -/
  name : String
  /-- Its executor. -/
  executor : ε
  /-- Its restart timeout. -/
  timeout : Duration
  /-- The pid and start time of a child it already has. -/
  current : Option (Pid × Timespec)

namespace Sys

variable {ε : Type}

/-- The pids of the live children. -/
def livePids (s : Sys ε) : List Pid := s.live.map Child.pid

/-- The check of the shut down loop, `while left.len() > 0`. -/
def closeIfDone (l : AList (fun _ : Pid => Process ε)) : Phase ε :=
  if l.entries.isEmpty then .returned .killed else .shutdown l

/-- The children after `pid` is reaped. -/
def reap (live : List Child) (pid : Pid) : List Child := live.filter (·.pid ≠ pid)

/-- The run, one event at a time. -/
def step (s : Sys ε) : Event → Option (Sys ε)
  | .wake time =>
    match s.phase with
    | .main => some { s with phase := .starting time }
    | _ => none
  | .pass r =>
    match s.phase with
    | .starting time =>
      match s.mon.startPass time r with
      | .stop => some { s with phase := .main }
      | .panic => some { s with phase := .panicked }
      | .next e m =>
        match r with
        | .ok pid _ =>
          if pid ∈ s.livePids then none
          else some { s with mon := m, live := ⟨pid, some e.2⟩ :: s.live }
        | .err => some { s with mon := m }
    | _ => none
  | .exit pid =>
    if pid ∈ s.livePids then
      match s.phase with
      | .main =>
        match s.mon.onChild pid with
        | some m => some { s with mon := m, live := reap s.live pid }
        | none => some { s with live := reap s.live pid, phase := .panicked }
      | .shutdown l => some { s with live := reap s.live pid, phase := closeIfDone (l.erase pid) }
      | _ => none
    else none
  | .terminate sig =>
    match s.phase with
    | .main => some { s with
        sent := s.sent ++ s.mon.terminateSignals sig
        mon := { s.mon with startQueue := [], processes := ∅ }
        phase := closeIfDone s.mon.left }
    | .shutdown l => some { s with
        sent := s.sent ++ l.entries.filterMap fun p => p.2.currentPid.map (·, sig) }
    | _ => none
  | .reboot =>
    if s.mon.allowReboot then
      match s.phase with
      | .main => some { s with phase := .returned .reboot }
      | .shutdown _ => some { s with phase := .returned .reboot }
      | _ => none
    else none

/-- The monitor after the `add` calls, in order. -/
def addAll (calls : List (AddCall ε)) (m : Monitor ε) : Monitor ε :=
  calls.foldl (fun m c => m.add c.name c.executor c.timeout c.current) m

/-- The children the `add` calls adopt. -/
def adopted (calls : List (AddCall ε)) : List Child :=
  calls.filterMap fun c => c.current.map fun cur => ⟨cur.1, some c.name⟩

/-- The state `run` starts from: `Monitor::new`, the `add` calls, maybe
`allow_reboot()`; the adopted children and `strays`, children the monitor was
not told of, are live. -/
def init (calls : List (AddCall ε)) (strays : List Pid) (allowReboot : Bool) : Sys ε where
  mon := { addAll calls Monitor.new with allowReboot := allowReboot }
  phase := .main
  live := adopted calls ++ strays.map (⟨·, none⟩)
  sent := []

/-- `t` is reached from `s` by some run. -/
def Reaches (s t : Sys ε) : Prop := Relation.ReflTransGen (fun a b => ∃ e, a.step e = some b) s t

/-- **The one induction.**  A property that holds at the start and that every
step keeps holds of every state a run reaches. -/
theorem Reaches.rec_inv {P : Sys ε → Prop} {s t : Sys ε} (h : Reaches s t) (h0 : P s)
    (hstep : ∀ a e b, P a → a.step e = some b → P b) : P t := by
  induction h with
  | refl => exact h0
  | tail _ hab ih => obtain ⟨e, he⟩ := hab; exact hstep _ e _ ih he

theorem Reaches.single {s t : Sys ε} {e : Event} (h : s.step e = some t) : Reaches s t :=
  Relation.ReflTransGen.single ⟨e, h⟩

/-- The state after the events `es` in turn, if each of them can happen. -/
def runEvents (s : Sys ε) : List Event → Option (Sys ε)
  | [] => some s
  | e :: es => (s.step e).bind (·.runEvents es)

theorem Reaches.of_runEvents (s : Sys ε) (es : List Event) {t : Sys ε}
    (h : s.runEvents es = some t) :
    Reaches s t := by
  induction es generalizing s with
  | nil => cases h; exact Relation.ReflTransGen.refl
  | cons e es ih =>
    simp only [runEvents, Option.bind_eq_some] at h
    obtain ⟨u, hu, ht⟩ := h
    exact Relation.ReflTransGen.head ⟨e, hu⟩ (ih u ht)

theorem Reaches.trans {s t u : Sys ε} (h₁ : Reaches s t) (h₂ : Reaches t u) : Reaches s u :=
  Relation.ReflTransGen.trans h₁ h₂

/-! ## What each event does, said once -/

variable {s s' : Sys ε}

theorem step_wake {time : Timespec} (h : s.step (.wake time) = some s') :
    s.phase = .main ∧ s' = { s with phase := .starting time } := by
  simp only [step] at h
  split at h <;> cases h
  exact ⟨‹_›, rfl⟩

theorem step_pass {r : Spawn} (h : s.step (.pass r) = some s') :
    ∃ time, s.phase = .starting time ∧
      ((s.mon.startPass time r = .stop ∧ s' = { s with phase := .main }) ∨
       (s.mon.startPass time r = .panic ∧ s' = { s with phase := .panicked }) ∨
       ∃ e m, s.mon.startPass time r = .next e m ∧
         ((∃ pid started, r = .ok pid started ∧ pid ∉ s.livePids ∧
            s' = { s with mon := m, live := ⟨pid, some e.2⟩ :: s.live }) ∨
          (r = .err ∧ s' = { s with mon := m }))) := by
  simp only [step] at h
  split at h
  · rename_i time htime
    refine ⟨time, htime, ?_⟩
    split at h
    · cases h; exact .inl ⟨‹_›, rfl⟩
    · cases h; exact .inr (.inl ⟨‹_›, rfl⟩)
    · rename_i e m hm
      refine .inr (.inr ⟨e, m, hm, ?_⟩)
      split at h
      · split at h
        · cases h
        · cases h; exact .inl ⟨_, _, rfl, ‹_›, rfl⟩
      · cases h; exact .inr ⟨rfl, rfl⟩
  · cases h

theorem step_exit {pid : Pid} (h : s.step (.exit pid) = some s') :
    pid ∈ s.livePids ∧
      ((s.phase = .main ∧
        ((∃ m, s.mon.onChild pid = some m ∧ s' = { s with mon := m, live := reap s.live pid }) ∨
         (s.mon.onChild pid = none ∧
            s' = { s with live := reap s.live pid, phase := .panicked }))) ∨
       ∃ l, s.phase = .shutdown l ∧
         s' = { s with live := reap s.live pid, phase := closeIfDone (l.erase pid) }) := by
  simp only [step] at h
  split at h
  · refine ⟨‹_›, ?_⟩
    split at h
    · split at h <;> cases h
      · exact .inl ⟨‹_›, .inl ⟨_, ‹_›, rfl⟩⟩
      · exact .inl ⟨‹_›, .inr ⟨‹_›, rfl⟩⟩
    · cases h; exact .inr ⟨_, ‹_›, rfl⟩
    · cases h
  · cases h

theorem step_terminate {sig : Int} (h : s.step (.terminate sig) = some s') :
    (s.phase = .main ∧ s' = { s with
        sent := s.sent ++ s.mon.terminateSignals sig
        mon := { s.mon with startQueue := [], processes := ∅ }
        phase := closeIfDone s.mon.left }) ∨
    ∃ l, s.phase = .shutdown l ∧ s' = { s with
        sent := s.sent ++ l.entries.filterMap fun p => p.2.currentPid.map (·, sig) } := by
  simp only [step] at h
  split at h <;> cases h
  · exact .inl ⟨‹_›, rfl⟩
  · exact .inr ⟨_, ‹_›, rfl⟩

theorem step_reboot (h : s.step .reboot = some s') :
    s.mon.allowReboot = true ∧ s' = { s with phase := .returned .reboot } := by
  simp only [step] at h
  split at h
  · refine ⟨‹_›, ?_⟩
    split at h <;> cases h <;> rfl
  · cases h

/-- Once `run` has returned, nothing more happens. -/
theorem step_returned {r : MonitorResult} (h : s.phase = .returned r) (e : Event) :
    s.step e = none := by
  cases e <;> simp [step, h]

theorem closeIfDone_ne_panicked (l : AList (fun _ : Pid => Process ε)) :
    closeIfDone l ≠ .panicked := by
  unfold closeIfDone; split <;> nofun

/-- No event changes `allow_reboot`. -/
theorem allowReboot_step {e : Event} (h : s.step e = some s') :
    s'.mon.allowReboot = s.mon.allowReboot := by
  cases e with
  | wake time => obtain ⟨-, rfl⟩ := step_wake h; rfl
  | pass r =>
    obtain ⟨time, -, ⟨-, rfl⟩ | ⟨-, rfl⟩ | ⟨e, m, hm, ⟨_, _, -, -, rfl⟩ | ⟨-, rfl⟩⟩⟩ := step_pass h
    exacts [rfl, rfl, Monitor.startPass_allowReboot hm, Monitor.startPass_allowReboot hm]
  | exit pid =>
    obtain ⟨-, ⟨-, ⟨m, hm, rfl⟩ | ⟨-, rfl⟩⟩ | ⟨l, -, rfl⟩⟩ := step_exit h
    exacts [Monitor.onChild_allowReboot hm, rfl, rfl]
  | terminate sig => obtain ⟨-, rfl⟩ | ⟨l, -, rfl⟩ := step_terminate h <;> rfl
  | reboot => obtain ⟨-, rfl⟩ := step_reboot h; rfl

theorem closeIfDone_cases (l : AList (fun _ : Pid => Process ε)) :
    closeIfDone l = .shutdown l ∨ closeIfDone l = .returned .killed := by
  unfold closeIfDone; split
  · exact .inr rfl
  · exact .inl rfl

/-- Only the `Reboot` event makes `run` return `Reboot`. -/
theorem eq_reboot_of_step {e : Event} (h : s.step e = some s') (hr : s'.phase = .returned .reboot) :
    e = .reboot := by
  have hclose : ∀ l : AList (fun _ : Pid => Process ε), closeIfDone l ≠ .returned .reboot := fun l => by
    rcases closeIfDone_cases l with h | h <;> rw [h] <;> nofun
  cases e with
  | reboot => rfl
  | wake time => obtain ⟨-, rfl⟩ := step_wake h; cases hr
  | pass r =>
    obtain ⟨time, hph, ⟨-, rfl⟩ | ⟨-, rfl⟩ | ⟨e, m, -, ⟨_, _, -, -, rfl⟩ | ⟨-, rfl⟩⟩⟩ := step_pass h
    · cases hr
    · cases hr
    all_goals rw [hph] at hr; cases hr
  | exit pid =>
    obtain ⟨-, ⟨hph, ⟨m, -, rfl⟩ | ⟨-, rfl⟩⟩ | ⟨l, -, rfl⟩⟩ := step_exit h
    · rw [hph] at hr; cases hr
    · cases hr
    · exact absurd hr (hclose _)
  | terminate sig =>
    obtain ⟨-, rfl⟩ | ⟨l, hph, rfl⟩ := step_terminate h
    · exact absurd hr (hclose _)
    · rw [hph] at hr; cases hr

/-- A monitor whose `allow_reboot` was never called never returns `Reboot`. -/
theorem not_reboot_of_reaches {s t : Sys ε} (hs : s.mon.allowReboot = false)
    (hph : s.phase ≠ .returned .reboot) (h : s.Reaches t) : t.phase ≠ .returned .reboot :=
  (h.rec_inv (P := fun t => t.mon.allowReboot = false ∧ t.phase ≠ .returned .reboot) ⟨hs, hph⟩
    fun _ _ _ ⟨ha, _⟩ hab => ⟨(allowReboot_step hab).trans ha, fun hb => by
      rw [eq_reboot_of_step hab hb] at hab
      rw [(step_reboot hab).1] at ha
      cases ha⟩).2

end Sys

end Lithos
