import Lithos.Monitor.Queue
import Mathlib.Data.List.AList

/-!
# The monitor's tables and what each branch of `run` does to them

`monitor.rs` keeps three structures that different branches update:

* `processes`, a `TreeMap` from an instance's name to its `Process` record;
* `start_queue`, the queue of `Lithos.Monitor.Queue`;
* `pids`, a `HashMap` from a child's pid back to the name it was spawned for.

Both maps are `AList`s here: a map is its list of entries with distinct keys,
`insert` replaces the entry of a key that is already there, as `TreeMap::insert`
and `HashMap::insert` do, and `lookup` is `find`.  The executor a record holds is
a type parameter `ε`: the monitor only keeps it and asks it for a command, and
what the command does is not the monitor's business.  How a spawn answers is
the environment's, and is an argument (`Spawn`).  `myname` is left out: it
appears only in log lines.

The functions below are the branches of `Monitor::run` one at a time, each a
plain function of the tables:

* `Monitor.add`;
* `Monitor.startPass`, one pass of `_start_processes`'s `loop`, and
  `Monitor.startProcesses`, the loop itself over a given sequence of spawn
  answers;
* `Monitor.onChild`, the `signal::Child` branch of the main loop;
* `Monitor.terminateSignals` and `Monitor.left`, the `signal::Terminate` branch
  and the map the shut down loop waits on.

A branch that can panic (`find_mut(..).unwrap()`, `processes[..]`,
`start_time.unwrap()`) says so in its result.  Each function comes with the
inversion lemma that says everything it can do, so that the invariants of
`Lithos.Monitor.Run` never unfold it.
-/

namespace Lithos

/-- `libc::pid_t`. -/
abbrev Pid := Int

/-- `monitor::Process`: the supervision record of one instance. -/
structure Process (ε : Type) where
  /-- The instance's name. -/
  name : String
  /-- The pid of the instance's child, once it has one. -/
  currentPid : Option Pid
  /-- The clock reading recorded when that child was started or adopted. -/
  startTime : Option Timespec
  /-- The backoff before a restart. -/
  restartTimeout : Duration
  /-- The `Box<Executor>` that builds the instance's command. -/
  executor : ε
  deriving DecidableEq, Repr

/-- `monitor::Monitor`, without `myname`. -/
structure Monitor (ε : Type) where
  /-- `processes: TreeMap<Rc<String>, Process>`. -/
  processes : AList (fun _ : String => Process ε)
  /-- `start_queue: PriorityQueue<(i64, Rc<String>)>`. -/
  startQueue : List Entry
  /-- `pids: HashMap<pid_t, Rc<String>>`. -/
  pids : AList (fun _ : Pid => String)
  /-- `allow_reboot`, set by `Monitor::allow_reboot`. -/
  allowReboot : Bool

/-- How `prc.executor.command().spawn()` answered. -/
inductive Spawn where
  /-- The child's pid, and the `get_time()` stored as its `start_time`. -/
  | ok (pid : Pid) (started : Timespec)
  /-- The spawn failed. -/
  | err
  deriving DecidableEq, Repr

/-- What one pass of `_start_processes`'s loop ends in. -/
inductive Pass (ε : Type) where
  /-- The top entry is not due: the loop's `break`. -/
  | stop
  /-- `find_mut(&name).unwrap()` failed. -/
  | panic
  /-- The pass popped entry `e` and spawned its instance; the loop goes on. -/
  | next (e : Entry) (m : Monitor ε)

/-- Where `_start_processes` is after a given sequence of spawn answers. -/
inductive Loop (ε : Type) where
  /-- The loop broke, and the function returned this monitor. -/
  | returned (m : Monitor ε)
  /-- A pass panicked. -/
  | panicked
  /-- Every answer was used and the loop still goes on. -/
  | running (m : Monitor ε)

namespace Monitor

variable {ε : Type}

/-- `Monitor::new`. -/
def new : Monitor ε := ⟨∅, [], ∅, false⟩

/-- `Monitor::add`: register `name`, queued for an immediate start unless it
comes with the pid and start time of a child it already has. -/
def add (m : Monitor ε) (name : String) (executor : ε) (timeout : Duration)
    (current : Option (Pid × Timespec)) : Monitor ε :=
  { m with
    startQueue := if current.isSome then m.startQueue else (0, name) :: m.startQueue
    processes := m.processes.insert name
      { name := name, currentPid := current.map Prod.fst, startTime := current.map Prod.snd,
        restartTimeout := timeout, executor := executor } }

/-- `Monitor::has`. -/
def has (m : Monitor ε) (name : String) : Bool := (m.processes.lookup name).isSome

/-- One pass of `_start_processes`'s loop, woken at `time`: pop the top entry if
it is due, and spawn its instance. -/
def startPass (m : Monitor ε) (time : Timespec) (r : Spawn) : Pass ε :=
  match StartQueue.dueTop m.startQueue time with
  | none => .stop
  | some e =>
    match m.processes.lookup e.2 with
    | none => .panic
    | some prc =>
      match r with
      | .ok pid started => .next e { m with
          startQueue := m.startQueue.erase e
          processes := m.processes.insert e.2
            { prc with currentPid := some pid, startTime := some started }
          pids := m.pids.insert pid prc.name }
      | .err => .next e { m with
          startQueue := (-(time + prc.restartTimeout).sec, e.2) :: m.startQueue.erase e }

/-- `_start_processes` woken at `time`, its spawns answered by `rs` in turn. -/
def startProcesses (time : Timespec) : List Spawn → Monitor ε → Loop ε
  | [], m => .running m
  | r :: rs, m =>
    match m.startPass time r with
    | .stop => .returned m
    | .panic => .panicked
    | .next _ m' => startProcesses time rs m'

/-- The `signal::Child(pid, status)` branch of the main loop; `none` where
`processes[*name]` or `start_time.unwrap()` panics. -/
def onChild (m : Monitor ε) (pid : Pid) : Option (Monitor ε) :=
  match m.pids.lookup pid with
  | none => some m
  | some name =>
    match m.processes.lookup name with
    | none => none
    | some prc =>
      match prc.startTime with
      | none => none
      | some started => some { m with
          startQueue := (-(started + prc.restartTimeout).sec, prc.name) :: m.startQueue }

/-- The signals the `signal::Terminate(sig)` branch sends: `sig` to every
record's current pid, newest `add` first, where the `TreeMap` goes by name; the
pids signalled are the same. -/
def terminateSignals (m : Monitor ε) (sig : Int) : List (Pid × Int) :=
  m.processes.entries.filterMap fun p => p.2.currentPid.map (·, sig)

/-- One element of the `collect` that builds `left`: a record with a pid goes in
under it, replacing a record already there. -/
def leftInsert (acc : AList (fun _ : Pid => Process ε)) (p : Σ _ : String, Process ε) :
    AList (fun _ : Pid => Process ε) :=
  match p.2.currentPid with
  | some pid => acc.insert pid p.2
  | none => acc

/-- The shut down loop's `left`: the records that have a pid, keyed by it. -/
def left (m : Monitor ε) : AList (fun _ : Pid => Process ε) :=
  m.processes.entries.foldl leftInsert ∅

/-! ## What each branch does, said once -/

@[simp] theorem new_processes : (new : Monitor ε).processes = ∅ := rfl
@[simp] theorem new_startQueue : (new : Monitor ε).startQueue = [] := rfl
@[simp] theorem new_pids : (new : Monitor ε).pids = ∅ := rfl

variable {m m' : Monitor ε} {name : String} {executor : ε} {timeout : Duration}
  {current : Option (Pid × Timespec)}

@[simp] theorem add_startQueue :
    (m.add name executor timeout current).startQueue =
      if current.isSome then m.startQueue else (0, name) :: m.startQueue := rfl

@[simp] theorem add_processes :
    (m.add name executor timeout current).processes = m.processes.insert name
      { name := name, currentPid := current.map Prod.fst, startTime := current.map Prod.snd,
        restartTimeout := timeout, executor := executor } := rfl

@[simp] theorem add_pids : (m.add name executor timeout current).pids = m.pids := rfl

@[simp] theorem add_allowReboot :
    (m.add name executor timeout current).allowReboot = m.allowReboot := rfl

theorem has_iff : m.has name = true ↔ name ∈ m.processes := AList.lookup_isSome

/-- **Every pass of `_start_processes`.**  A pass that goes on popped the due
top entry `e` of a registered instance, and either recorded the new child or
queued the instance again at `-(time + restart_timeout).sec`. -/
theorem startPass_eq_next {time : Timespec} {r : Spawn} {e : Entry}
    (h : m.startPass time r = .next e m') :
    ∃ prc, StartQueue.dueTop m.startQueue time = some e ∧
      m.processes.lookup e.2 = some prc ∧
      ((∃ pid started, r = .ok pid started ∧ m' = { m with
          startQueue := m.startQueue.erase e
          processes := m.processes.insert e.2
            { prc with currentPid := some pid, startTime := some started }
          pids := m.pids.insert pid prc.name }) ∨
       (r = .err ∧ m' = { m with
          startQueue := (-(time + prc.restartTimeout).sec, e.2) :: m.startQueue.erase e })) := by
  unfold startPass at h
  split at h
  · cases h
  · rename_i e' he
    split at h
    · cases h
    · rename_i prc hprc
      cases r <;> cases h
      · exact ⟨prc, he, hprc, .inl ⟨_, _, rfl, rfl⟩⟩
      · exact ⟨prc, he, hprc, .inr ⟨rfl, rfl⟩⟩

theorem startPass_allowReboot {time : Timespec} {r : Spawn} {e : Entry}
    (h : m.startPass time r = .next e m') : m'.allowReboot = m.allowReboot := by
  obtain ⟨_, -, -, ⟨_, _, -, rfl⟩ | ⟨-, rfl⟩⟩ := startPass_eq_next h <;> rfl

theorem startPass_eq_panic {time : Timespec} {r : Spawn} (h : m.startPass time r = .panic) :
    ∃ e, StartQueue.dueTop m.startQueue time = some e ∧ m.processes.lookup e.2 = none := by
  unfold startPass at h
  split at h
  · cases h
  · split at h
    · exact ⟨_, ‹_›, ‹_›⟩
    · cases r <;> cases h

theorem startPass_eq_stop {time : Timespec} {r : Spawn} :
    m.startPass time r = .stop ↔ StartQueue.dueTop m.startQueue time = none := by
  unfold startPass
  split
  · simp [*]
  · split
    · simp [*]
    · cases r <;> simp [*]

/-- **The `Child` branch.**  An unknown pid changes nothing; a known one queues
its instance at `-(start_time + restart_timeout).sec`, and nothing else. -/
theorem onChild_eq_some {pid : Pid} (h : m.onChild pid = some m') :
    (m.pids.lookup pid = none ∧ m' = m) ∨
    ∃ name prc started, m.pids.lookup pid = some name ∧ m.processes.lookup name = some prc ∧
      prc.startTime = some started ∧ m' = { m with
        startQueue := (-(started + prc.restartTimeout).sec, prc.name) :: m.startQueue } := by
  unfold onChild at h
  split at h
  · cases h; exact .inl ⟨‹_›, rfl⟩
  · split at h
    · cases h
    · split at h
      · cases h
      · cases h; exact .inr ⟨_, _, _, ‹_›, ‹_›, ‹_›, rfl⟩

theorem onChild_allowReboot {pid : Pid} (h : m.onChild pid = some m') :
    m'.allowReboot = m.allowReboot := by
  obtain ⟨-, rfl⟩ | ⟨_, _, _, -, -, -, rfl⟩ := onChild_eq_some h <;> rfl

theorem onChild_eq_none {pid : Pid} (h : m.onChild pid = none) :
    ∃ name, m.pids.lookup pid = some name ∧
      ∀ prc, m.processes.lookup name = some prc → prc.startTime = none := by
  unfold onChild at h
  split at h
  · cases h
  · rename_i name hname
    refine ⟨name, hname, fun prc hprc => ?_⟩
    rw [hprc] at h
    simp only at h
    split at h
    · assumption
    · cases h

/-- `left` holds a pid exactly when some record's current pid is that pid. -/
theorem mem_left {p : Pid} :
    p ∈ m.left ↔ ∃ x ∈ m.processes.entries, x.2.currentPid = some p := by
  suffices ∀ (l : List (Σ _ : String, Process ε)) (acc : AList (fun _ : Pid => Process ε)),
      p ∈ l.foldl leftInsert acc ↔ p ∈ acc ∨ ∃ x ∈ l, x.2.currentPid = some p by
    simpa [left] using this m.processes.entries ∅
  intro l
  induction l with
  | nil => simp
  | cons x l ih =>
    intro acc
    obtain ⟨k, prc⟩ := x
    rw [List.foldl_cons, ih, leftInsert]
    cases h : prc.currentPid with
    | none => simp [h]
    | some q => simp [h, AList.mem_insert, or_and_right, exists_or]; tauto

/-- Every record of `left` is filed under its own current pid. -/
theorem currentPid_of_mem_left {x : Σ _ : Pid, Process ε} (hx : x ∈ m.left.entries) :
    x.2.currentPid = some x.1 := by
  suffices ∀ (l : List (Σ _ : String, Process ε)) (acc : AList (fun _ : Pid => Process ε)),
      (∀ y ∈ acc.entries, y.2.currentPid = some y.1) →
      ∀ y ∈ (l.foldl leftInsert acc).entries, y.2.currentPid = some y.1 from
    this _ ∅ (by simp) x hx
  intro l
  induction l with
  | nil => exact fun _ h => h
  | cons p l ih =>
    refine fun acc hacc => ih _ fun y hy => ?_
    unfold leftInsert at hy
    split at hy
    · rename_i pid hpid
      rw [AList.insert_entries, List.mem_cons] at hy
      rcases hy with rfl | hy
      · exact hpid
      · exact hacc y ((List.kerase_sublist _ _).subset hy)
    · exact hacc y hy

end Monitor

end Lithos
