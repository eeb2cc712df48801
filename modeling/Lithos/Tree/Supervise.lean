import Lithos.Monitor.Supervised
import Lithos.Tree.Adoption

/-!
# `lithos_tree` as a whole: the reconciliation, then `Monitor::run`

`lithos_tree::run` ends with `mon.run()` on the monitor `reconcile` built.  This
file starts the run of `Lithos.Monitor.Run` from that monitor, blocked in the
main loop, among whatever children the kernel holds (`treeStart`, and
`TreeReaches` for the states of its runs), and reads the run invariants of the
monitor modules off it.  What the reconciliation contributes is said once:

* `tables_reconcile`: the monitor is built from `Monitor::new` by `add` calls
  alone, so its tables agree and no pid is filed;
* `queued_reconcile`: the instances queued are exactly those of the config
  groups that no `/proc` entry is registered under, each once;
* `spawns_reconcile`: every queued instance has the executor the scheduling
  loop gives it, the `Child` of its group with the group's config text;
* `reconcile_removed_iff`: the state directories removed are exactly those
  whose names are text that no `/proc` entry is registered under;
* `reconcile_signals_children`: `SIGTERM` goes to children of the supervisor
  only, and each of its children is signalled or registered, where a child is
  what `_is_child` accepts, which is the parent pid field when the task name
  has no `)`;
* `tree_reaches_run_iff`: `run` gets to `mon.run()` exactly when the stem of
  every kept config file is text; otherwise `filestem_str().unwrap()` panics.

The results hold for every config directory, every `/proc`, every state
directory and every run:

* `tree_run_never_panics`: no `unwrap` or index of the monitor fails;
* `tree_spawns_group_children`: every command a run asks for is
  `Child::command` of an instance of a config group, with that group's config;
  `UnidentifiedChild::command`, which is `unreachable!()`, is never called;
* `tree_start_loop_returns`: every restart it queues waits a second, so no
  failing spawn makes `_start_processes` spin;
* `tree_missing_supervised`: an instance that had no child at the start stays
  queued, or running in a child filed under it, while the main loop runs;
* `tree_adopted_forgotten`: an instance adopted from `/proc` is never queued
  and never filed, so once its child exits it is never started again;
* `tree_one_child_each`: when no two `/proc` children are registered under one
  name, no instance is ever queued or running twice;
* `tree_terminate_reaches_children`: under the same conditions, a `Terminate`
  in the main loop signals every live child spawned or adopted for an
  instance, and the shut down loop waits for each;
* `tree_reboot_adopts_spawned`: a child the run starts is adopted, with the same
  executor and unsignalled, by the reconciliation of the next `lithos_tree`
  over the same config directory.
-/

namespace Lithos

/-- The argv `Executor::command` builds: `Child::command`'s, and `none` for
`UnidentifiedChild::command`, which is `unreachable!()`. -/
def TreeExecutor.argv (rootBinary globalFile : String) : TreeExecutor → Option (List String)
  | .child name serialized => some (childArgv rootBinary name globalFile serialized)
  | .unidentified _ => none

variable {J : Type}

/-- The executor and the timeout the scheduling loop gives instance `n`: the
`Child` named `n` of an instance of a group of `children`, with the group's
config text, restarted after `Duration::seconds(1)`. -/
def GroupChild (children : AList fun _ : List UInt8 => ChildEntry J) (n : String)
    (ex : TreeExecutor) (timeout : Duration) : Prop :=
  ∃ p ∈ children.entries, ∃ stem, filestemStr p.1 = some stem ∧ ∃ i < p.2.cfg.instances,
    n = instanceName stem i ∧ ex = .child n p.2.serialized ∧ timeout = Duration.seconds 1

/-- `n` is an instance of a group of `children`. -/
def IsInstance (children : AList fun _ : List UInt8 => ChildEntry J) (n : String) : Prop :=
  ∃ p ∈ children.entries, ∃ stem, filestemStr p.1 = some stem ∧ ∃ i < p.2.cfg.instances,
    n = instanceName stem i

theorem Monitor.has_add {ε : Type} {m : Monitor ε} {name n : String} {executor : ε}
    {timeout : Duration} {current : Option (Pid × Timespec)} :
    (m.add name executor timeout current).has n = true ↔ m.has n = true ∨ n = name := by
  simp only [Monitor.has_iff, Monitor.add_processes, AList.mem_insert]
  exact or_comm

/-! ## The monitor `reconcile` builds -/

section Build

variable [DecidableEq J] (L : Libs J) {configFile : String} {mypid : Pid} {now : Timespec}
  {children : AList fun _ : List UInt8 => ChildEntry J}

omit [DecidableEq J] in
theorem recoveredName_pid {e : ProcEntry} {n : String}
    (h : recoveredName L configFile mypid e = some n) : ∃ pid, e.pid = some pid := by
  unfold recoveredName at h
  split at h
  · cases h
  · exact ⟨_, ‹_›⟩

/-- A step of the loop over `/proc` that registers its entry under `n` adds a
record for `n` with the entry's pid. -/
theorem recoverChild_registered (children : AList fun _ : List UInt8 => ChildEntry J) (now : Timespec)
    (r : Recovery) {e : ProcEntry} {n : String}
    (hn : recoveredName L configFile mypid e = some n) :
    ∃ ex d pid, e.pid = some pid ∧
      (recoverChild L children configFile mypid now r e).mon = r.mon.add n ex d (some (pid, now)) := by
  unfold recoveredName at hn
  split at hn
  · cases hn
  · rename_i pid hpid
    split at hn
    · rename_i hc
      obtain ⟨⟨fullname, childname, current⟩, hg, rfl⟩ := Option.map_eq_some'.1 hn
      simp only [recoverChild, hpid, hc, ↓reduceIte, hg]
      split <;> exact ⟨_, _, pid, rfl, rfl⟩
    · cases hn

/-- **Every step of the loop over `/proc`**, for the names registered: a name
is registered after the step when it was before, or when the entry is
registered under it. -/
theorem has_recoverChild (r : Recovery) (e : ProcEntry) (n : String) :
    (recoverChild L children configFile mypid now r e).mon.has n = true ↔
      r.mon.has n = true ∨ recoveredName L configFile mypid e = some n := by
  by_cases hr : recoveredName L configFile mypid e = some n
  · obtain ⟨_, _, _, -, hm⟩ := recoverChild_registered L children now r hr
    simp [hm, Monitor.has_add, hr]
  · rcases recoverChild_mon L r e with hm | ⟨name, _, _, _, hname, hm⟩ <;> rw [hm]
    · simp [hr]
    · rw [Monitor.has_add]
      exact or_congr_right ⟨fun h => absurd (h ▸ hname) hr, fun h => absurd h hr⟩

theorem has_foldl_recoverChild (procs : List ProcEntry) (r : Recovery) (n : String) :
    (procs.foldl (recoverChild L children configFile mypid now) r).mon.has n = true ↔
      r.mon.has n = true ∨ ∃ e ∈ procs, recoveredName L configFile mypid e = some n := by
  induction procs generalizing r with
  | nil => simp
  | cons e procs ih => simp [ih, has_recoverChild, or_assoc]

/-- After the loop over `/proc`, the names registered are those entries are
registered under. -/
theorem has_recoverAll (procs : List ProcEntry) (n : String) :
    (recoverAll L children configFile mypid now procs).mon.has n = true ↔
      ∃ e ∈ procs, recoveredName L configFile mypid e = some n := by
  rw [recoverAll, has_foldl_recoverChild]
  simp [Monitor.has]

theorem tables_recoverAll (procs : List ProcEntry) :
    Tables (recoverAll L children configFile mypid now procs).mon ∧
      (recoverAll L children configFile mypid now procs).mon.pids = ∅ :=
  List.foldlRecOn (motive := fun r : Recovery => Tables r.mon ∧ r.mon.pids = ∅) procs _ _
    ⟨⟨by simp, by simp, by simp⟩, rfl⟩ fun r hr e _ => by
      rcases recoverChild_mon L r e with hm | ⟨_, _, _, _, _, hm⟩ <;> rw [hm]
      exacts [hr, ⟨hr.1.add hr.2 .., hr.2⟩]

/-- After the loop over `/proc`, when no two entries are registered under one
name, the record of a registered name has its entry's pid as current pid. -/
theorem currentPid_recoverAll {procs : List ProcEntry}
    (hnames : (procs.filterMap (recoveredName L configFile mypid)).Nodup) {e : ProcEntry}
    (he : e ∈ procs) {n : String} (hn : recoveredName L configFile mypid e = some n) :
    ∃ pid, e.pid = some pid ∧ ∃ prc,
      (recoverAll L children configFile mypid now procs).mon.processes.lookup n = some prc ∧
        prc.currentPid = some pid := by
  obtain ⟨s, t, rfl⟩ := List.append_of_mem he
  have hlater : ∀ e' ∈ t, recoveredName L configFile mypid e' ≠ some n := by
    rw [List.filterMap_append, List.filterMap_cons_some hn, List.nodup_append,
      List.nodup_cons] at hnames
    exact fun e' he' hn' => hnames.2.1.1 (List.mem_filterMap.2 ⟨e', he', hn'⟩)
  obtain ⟨ex, d, pid, hpid, hm⟩ := recoverChild_registered L children now
    (s.foldl (recoverChild L children configFile mypid now) ⟨Monitor.new, []⟩) hn
  refine ⟨pid, hpid, ?_⟩
  rw [recoverAll, List.foldl_append, List.foldl_cons]
  refine List.foldlRecOn (motive := fun r : Recovery =>
      ∃ prc, r.mon.processes.lookup n = some prc ∧ prc.currentPid = some pid) t _ _ ?_
    fun r ⟨prc, hprc, hcur⟩ e' he' => ⟨prc, (lookup_recoverChild_of_ne L r (hlater e' he')).trans hprc, hcur⟩
  show ∃ prc, _ ∧ _
  rw [hm, Monitor.add_processes, AList.lookup_insert]
  exact ⟨_, rfl, rfl⟩

end Build

section Schedule

variable (children : AList fun _ : List UInt8 => ChildEntry J) (rec : Monitor TreeExecutor)

/-- What the scheduling loop keeps, against the monitor `rec` it started from:
it drops no record, adds only instances of the groups, and has queued, once,
exactly the instances it registered. -/
structure Scheduled (m : Monitor TreeExecutor) : Prop where
  /-- No record of `rec` is dropped. -/
  mono : ∀ n, rec.has n = true → m.has n = true
  /-- A new record is an instance of a group. -/
  inst : ∀ n, m.has n = true → rec.has n = true ∨ IsInstance children n
  /-- The instances registered here are queued once, and nothing else is. -/
  queued : ∀ n, StartQueue.queued m.startQueue n = if m.has n && !rec.has n then 1 else 0

theorem Scheduled.start (h : rec.startQueue = []) : Scheduled children rec rec :=
  ⟨fun _ => id, fun _ => .inl, fun n => by simp [h]⟩

theorem Scheduled.scheduleInstance {m : Monitor TreeExecutor} (h : Scheduled children rec m)
    {p : Σ _ : List UInt8, ChildEntry J} (hp : p ∈ children.entries) {stem : String}
    (hs : filestemStr p.1 = some stem) {i : Nat} (hi : i < p.2.cfg.instances) :
    Scheduled children rec (scheduleInstance p.2.serialized stem m i) := by
  unfold Lithos.scheduleInstance
  split
  · exact h
  · rename_i hk
    have hrec : rec.has (instanceName stem i) = false :=
      Bool.eq_false_iff.2 fun hr => hk (h.mono _ hr)
    refine ⟨fun n hn => Monitor.has_add.2 (.inl (h.mono n hn)), fun n hn => ?_, fun n => ?_⟩
    · rcases Monitor.has_add.1 hn with hn | rfl
      · exact h.inst n hn
      · exact .inr ⟨p, hp, stem, hs, i, hi, rfl⟩
    · have hq := h.queued n
      by_cases hn : n = instanceName stem i
      · subst hn
        simp only [Bool.not_eq_true] at hk
        simp [hk] at hq
        simp [hq, hrec, Monitor.has_add]
      · simp [hq, Monitor.has_add, hn, Ne.symm hn]

/-- A property of the monitor that every `add` of an instance of a group keeps
holds after scheduling. -/
theorem scheduleNew_rec {motive : Monitor TreeExecutor → Prop} {m : Monitor TreeExecutor}
    (hm : scheduleNew children rec = some m) (h : motive rec)
    (hadd : ∀ m' p, p ∈ children.entries → ∀ stem, filestemStr p.1 = some stem →
      ∀ i < p.2.cfg.instances, motive m' → motive (Lithos.scheduleInstance p.2.serialized stem m' i)) :
    motive m :=
  foldlM_option_rec hm h fun p hp _ _ hm' hg => by
    obtain ⟨stem, hs, rfl⟩ := scheduleGroup_eq_some.1 hg
    exact List.foldlRecOn (motive := motive) _ _ _ hm' fun m' hm' i hi =>
      hadd m' p hp stem hs i (List.mem_range.1 hi) hm'

theorem Scheduled.scheduleNew {m : Monitor TreeExecutor} (hm : scheduleNew children rec = some m)
    (h : Scheduled children rec rec) : Scheduled children rec m :=
  scheduleNew_rec children rec hm h fun _ _ hp _ hs _ hi hm' => hm'.scheduleInstance children rec hp hs hi

theorem spawns_scheduleNew {m : Monitor TreeExecutor} (hm : scheduleNew children rec = some m)
    (h : Spawns (GroupChild children) rec) (hp : rec.pids = ∅) : Spawns (GroupChild children) m :=
  (scheduleNew_rec children rec (motive := fun m => Spawns (GroupChild children) m ∧ m.pids = ∅) hm
    ⟨h, hp⟩ fun _ p hpm stem hs i hi hm' => by
      unfold scheduleInstance
      split
      · exact hm'
      · exact ⟨hm'.1.add hm'.2 ⟨p, hpm, stem, hs, i, hi, rfl, rfl, rfl⟩ _, hm'.2⟩).1

theorem tables_scheduleNew {m : Monitor TreeExecutor} (hm : scheduleNew children rec = some m)
    (h : Tables rec ∧ rec.pids = ∅) : Tables m ∧ m.pids = ∅ :=
  scheduleNew_rec children rec (motive := fun m => Tables m ∧ m.pids = ∅) hm h
    fun _ _ _ _ _ _ _ hm' => by
      unfold scheduleInstance
      split
      exacts [hm', ⟨hm'.1.add hm'.2 .., hm'.2⟩]

end Schedule

variable [DecidableEq J] (L : Libs J) (configFile : String) (mypid : Pid) (now : Timespec)
  (dir : List (List UInt8 × Option ChildConfig)) (procs : List ProcEntry)
  (stateDirs : List (List UInt8))

section Reconciled

variable {L configFile mypid now dir procs stateDirs} {m : Monitor TreeExecutor}
  (hm : (reconcile L configFile mypid now dir procs stateDirs).mon = some m)
include hm

/-- The monitor `reconcile` builds has tables that agree and no pid filed. -/
theorem tables_reconcile : Tables m ∧ m.pids = ∅ := by
  obtain ⟨m', hm', rfl⟩ := reconcile_mon_eq_some.1 hm
  have h := tables_scheduleNew _ _ hm' (tables_recoverAll L procs)
  exact ⟨⟨h.1.name_eq, h.1.queued, h.1.pids⟩, h.2⟩

/-- Every instance the monitor `reconcile` builds may spawn has the executor
the scheduling loop gave it. -/
theorem spawns_reconcile : Spawns (GroupChild (loadChildren L dir)) m := by
  obtain ⟨m', hm', rfl⟩ := reconcile_mon_eq_some.1 hm
  have hp : (recoverAll L (loadChildren L dir) configFile mypid now procs).mon.pids = ∅ :=
    (tables_recoverAll L procs).2
  have hs := spawns_scheduleNew _ _ hm' (Spawns.of_empty (startQueue_recover L procs rfl) hp) hp
  exact ⟨hs.queued, hs.filed⟩

/-- **The instances `lithos_tree` queues.**  Each instance is queued at most
once, and an instance is queued exactly when it is an instance of a config
group and no `/proc` entry is registered under its name. -/
theorem queued_reconcile (n : String) :
    StartQueue.queued m.startQueue n ≤ 1 ∧
    (0 < StartQueue.queued m.startQueue n ↔
      IsInstance (loadChildren L dir) n ∧ ∀ e ∈ procs, recoveredName L configFile mypid e ≠ some n) := by
  obtain ⟨m', hm', rfl⟩ := reconcile_mon_eq_some.1 hm
  set rec := (recoverAll L (loadChildren L dir) configFile mypid now procs).mon
  have hs : Scheduled (loadChildren L dir) rec m' :=
    (Scheduled.start _ _ (startQueue_recover L procs rfl)).scheduleNew _ _ hm'
  have hrec : rec.has n = true ↔ ∃ e ∈ procs, recoveredName L configFile mypid e = some n :=
    has_recoverAll L procs n
  show StartQueue.queued m'.startQueue n ≤ 1 ∧ (0 < StartQueue.queued m'.startQueue n ↔ _)
  rw [hs.queued n]
  refine ⟨by split <;> omega, ⟨fun hpos => ?_, fun ⟨hi, hnot⟩ => ?_⟩⟩
  · split at hpos
    · rename_i hh
      simp only [Bool.and_eq_true, Bool.not_eq_true'] at hh
      refine ⟨(hs.inst n hh.1).resolve_left (by simp [hh.2]), fun e he hen => ?_⟩
      rw [hrec.2 ⟨e, he, hen⟩] at hh
      cases hh.2
    · cases hpos
  · have hnr : rec.has n = false := Bool.eq_false_iff.2 fun h => by
      obtain ⟨e, he, hen⟩ := hrec.1 h
      exact hnot e he hen
    obtain ⟨p, hp, stem, hfs, i, hi, rfl⟩ := hi
    simp [hnr, has_scheduleNew hm' hp hfs hi]

end Reconciled

/-- **The state directories `lithos_tree` removes.**  At startup it removes
exactly the entries of its state directory whose names are text that no
`/proc` entry is registered under: the directory of an instance whose child it
adopts is kept, every other one, of an instance it will start afresh or of no
instance at all, is removed, and an entry whose name is not UTF-8 is kept. -/
theorem reconcile_removed_iff (b : List UInt8) :
    b ∈ (reconcile L configFile mypid now dir procs stateDirs).removed ↔
      b ∈ stateDirs ∧ ∃ n, fromUtf8 b = some n ∧
        ∀ e ∈ procs, recoveredName L configFile mypid e ≠ some n := by
  rw [show (reconcile L configFile mypid now dir procs stateDirs).removed =
      danglingDirs (recoverAll L (loadChildren L dir) configFile mypid now procs).mon stateDirs
    from rfl, danglingDirs, List.mem_filter]
  rcases fromUtf8 b with _ | n
  · simp
  · simp only [Bool.not_eq_true', Bool.eq_false_iff, ne_eq, has_recoverAll, Option.some.injEq,
      exists_eq_left', not_exists, not_and]

/-- The state `mon.run()` starts from in `lithos_tree::run`: the monitor
`reconcile` built, blocked in the main loop, among the children `live` the
kernel holds; `none` where `run` panics before it gets there. -/
def treeStart (live : List Child) : Option (Sys TreeExecutor) :=
  (reconcile L configFile mypid now dir procs stateDirs).mon.map fun m => ⟨m, .main, live, []⟩

/-- **`lithos_tree` reaches `mon.run()` exactly when the stem of every kept
config file is text.**  A `.yaml` file that parses to a `Daemon` config and
whose stem is not UTF-8 is kept, since `filestem_str` answers `None` and not
`Some("")`, and `path.filestem_str().unwrap()` then panics in the scheduling
loop, after the signals are sent and the state directories removed. -/
theorem tree_reaches_run_iff (live : List Child) :
    (treeStart L configFile mypid now dir procs stateDirs live).isSome ↔
      ∀ fn c, IsDesired dir fn c → (filestemStr fn).isSome := by
  rw [treeStart, Option.isSome_map']
  exact isSome_reconcile_mon L

example : (treeStart Libs.sample "/etc/lithos/tree.yaml" 1 ⟨0⟩
    [(0xFF :: strBytes ".yaml", some webConfig)] [] [] []).isSome = false := by decide

section Start

variable {L configFile mypid now dir procs stateDirs} {live : List Child} {s₀ : Sys TreeExecutor}
  (h0 : treeStart L configFile mypid now dir procs stateDirs live = some s₀)
include h0

theorem treeStart_eq_some :
    ∃ m, (reconcile L configFile mypid now dir procs stateDirs).mon = some m ∧
      s₀ = ⟨m, .main, live, []⟩ := by
  obtain ⟨m, hm, rfl⟩ := Option.map_eq_some'.1 h0
  exact ⟨m, hm, rfl⟩

theorem treeStart_sound : s₀.Sound := by
  obtain ⟨m, hm, rfl⟩ := treeStart_eq_some h0
  exact ⟨nofun, fun _ => (tables_reconcile hm).1⟩

theorem spawns_treeStart : Spawns (GroupChild (loadChildren L dir)) s₀.mon := by
  obtain ⟨m, hm, rfl⟩ := treeStart_eq_some h0
  exact spawns_reconcile hm

end Start

/-- `t` is a state of a run of the monitor `lithos_tree` starts, among the
children `live`. -/
def TreeReaches (live : List Child) (t : Sys TreeExecutor) : Prop :=
  ∃ s₀, treeStart L configFile mypid now dir procs stateDirs live = some s₀ ∧ s₀.Reaches t

/-- Along every run from the start, the tables agree and every record that may
be spawned is a group's `Child`. -/
theorem TreeReaches.spawns {live : List Child} {t : Sys TreeExecutor}
    (h : TreeReaches L configFile mypid now dir procs stateDirs live t) :
    t.Sound ∧ Spawns (GroupChild (loadChildren L dir)) t.mon :=
  let ⟨_, h0, h⟩ := h
  Spawns.of_reaches (treeStart_sound h0) (spawns_treeStart h0) h

/-- **`lithos_tree`'s monitor never panics.**  Whatever the config directory,
`/proc` and the state directory held, and whatever children the kernel holds,
no state of any run of the monitor `lithos_tree` starts has panicked, and while
the loops use the tables, they agree. -/
theorem tree_run_never_panics (live : List Child) {s : Sys TreeExecutor}
    (h : TreeReaches L configFile mypid now dir procs stateDirs live s) :
    s.phase ≠ .panicked ∧ (s.phase.running → Tables s.mon) :=
  let hs := (h.spawns L configFile mypid now dir procs stateDirs).1
  ⟨hs.not_panicked, hs.tables⟩

/-- `lithos_tree` with the group `web.yaml` and an empty `/proc` starts `web.0`
as pid 7 at 1 s; pid 7 exits, and the monitor is woken again at 2 s. -/
theorem tree_run_never_panics_web :
    ∃ s : Sys TreeExecutor,
      TreeReaches Libs.sample "/etc/lithos/tree.yaml" 1 ⟨0⟩ [(strBytes "web.yaml", some webConfig)]
        [] [] [] s ∧
      s.phase = .starting ⟨2000000000⟩ ∧ s.phase ≠ .panicked ∧ (s.phase.running → Tables s.mon) :=
  have h : TreeReaches Libs.sample "/etc/lithos/tree.yaml" 1 ⟨0⟩
      [(strBytes "web.yaml", some webConfig)] [] [] [] _ :=
    ⟨_, rfl, Sys.Reaches.of_runEvents _
      [.wake ⟨1000000000⟩, .pass (.ok 7 ⟨1000000000⟩), .pass .err, .exit 7, .wake ⟨2000000000⟩] rfl⟩
  ⟨_, h, rfl, tree_run_never_panics Libs.sample _ _ _ _ _ _ _ h⟩

/-- **`lithos_tree` only spawns its groups' children.**  In every state of
every run of the monitor `lithos_tree` starts, the instance a pass of
`_start_processes` pops is instance `i` of a config group, below the group's
`instances`, and the command it asks for is `Child::command` with that name and
the group's config text; `UnidentifiedChild::command`, which is
`unreachable!()`, is never called. -/
theorem tree_spawns_group_children (rootBinary globalFile : String) (live : List Child)
    {t : Sys TreeExecutor} (h : TreeReaches L configFile mypid now dir procs stateDirs live t)
    {time : Timespec} (hph : t.phase = .starting time) {e : Entry}
    (he : StartQueue.dueTop t.mon.startQueue time = some e) :
    ∃ prc, t.mon.processes.lookup e.2 = some prc ∧
      ∃ p ∈ (loadChildren L dir).entries, ∃ stem, filestemStr p.1 = some stem ∧
        ∃ i < p.2.cfg.instances, e.2 = instanceName stem i ∧
        prc.executor.argv rootBinary globalFile =
          some (childArgv rootBinary e.2 globalFile p.2.serialized) := by
  obtain ⟨s₀, h0, h⟩ := h
  obtain ⟨prc, hprc, p, hp, stem, hs, i, hi, hn, hex, -⟩ :=
    spawns_forever (treeStart_sound h0) (spawns_treeStart h0) h hph he
  exact ⟨prc, hprc, p, hp, stem, hs, i, hi, hn, by rw [hex]; rfl⟩

/-- The first pass of `lithos_tree` with the group `web.yaml` and an empty
`/proc` pops `web.0` and asks `Child::command` for it. -/
theorem tree_spawns_group_children_web :
    ∃ t : Sys TreeExecutor,
      TreeReaches Libs.sample "/etc/lithos/tree.yaml" 1 ⟨0⟩ [(strBytes "web.yaml", some webConfig)]
        [] [] [] t ∧
      t.phase = .starting ⟨1000000000⟩ ∧
      StartQueue.dueTop t.mon.startQueue ⟨1000000000⟩ = some (0, "web.0") ∧
      ∃ prc, t.mon.processes.lookup "web.0" = some prc ∧
        ∃ p ∈ (loadChildren Libs.sample [(strBytes "web.yaml", some webConfig)]).entries,
          ∃ stem, filestemStr p.1 = some stem ∧ ∃ i < p.2.cfg.instances,
          "web.0" = instanceName stem i ∧
          prc.executor.argv "/usr/bin/lithos_knot" "/etc/lithos/tree.yaml" =
            some (childArgv "/usr/bin/lithos_knot" "web.0" "/etc/lithos/tree.yaml" p.2.serialized) :=
  have h : TreeReaches Libs.sample "/etc/lithos/tree.yaml" 1 ⟨0⟩
      [(strBytes "web.yaml", some webConfig)] [] [] [] _ :=
    ⟨_, rfl, Sys.Reaches.of_runEvents _ [.wake ⟨1000000000⟩] rfl⟩
  ⟨_, h, rfl, rfl, tree_spawns_group_children Libs.sample _ _ _ _ _ _ _ _ [] h rfl rfl⟩

/-- **A child `lithos_tree` starts is adopted by the next `lithos_tree`.**  Let
every config group's stem be a nonempty run of `[\w-]`.  In every state of every
run of the monitor `lithos_tree` starts, the instance a pass of
`_start_processes` pops has a `Child` executor with some config text.  Start
`lithos_tree` again, with the same config directory and config file, over a
`/proc` that holds a direct child `Child::command` spawned from that executor,
the only entry registered under the instance's name and the only one with its
pid: the new `lithos_tree` reaches `mon.run()`, and its monitor registers the
child under that name, with its pid and the same executor, and sends it
nothing. -/
theorem tree_reboot_adopts_spawned (rootBinary : String)
    (hbin : L.filename rootBinary = some "lithos_knot")
    (hnul : '\x00' ∉ rootBinary.toList ∧ '\x00' ∉ configFile.toList)
    (hdir : (dir.map Prod.fst).Nodup)
    (hstem : ∀ fn c, IsDesired dir fn c → ∀ stem, filestemStr fn = some stem →
      ∀ x ∈ stem.toList, L.nameChar x = true)
    (live : List Child) {t : Sys TreeExecutor}
    (h : TreeReaches L configFile mypid now dir procs stateDirs live t)
    {time : Timespec} (hph : t.phase = .starting time) {e : Entry}
    (he : StartQueue.dueTop t.mon.startQueue time = some e) :
    ∃ prc serialized, t.mon.processes.lookup e.2 = some prc ∧
      prc.executor = .child e.2 serialized ∧
      ∀ (mypid' : Pid) (now' : Timespec) (procs' : List ProcEntry)
        (stateDirs' : List (List UInt8)) (pid : Pid) (e' : ProcEntry), e' ∈ procs' →
        Spawned L rootBinary configFile mypid' e.2 serialized pid e' →
        (∀ e'' ∈ procs', recoveredName L configFile mypid' e'' = some e.2 → e'' = e') →
        (∀ e'' ∈ procs', e''.pid = some pid → e'' = e') →
        ∃ m, (reconcile L configFile mypid' now' dir procs' stateDirs').mon = some m ∧
          m.processes.lookup e.2 = some (adopted e.2 serialized pid now') ∧
          pid ∉ (reconcile L configFile mypid' now' dir procs' stateDirs').sent := by
  obtain ⟨s₀, h0, h⟩ := h
  obtain ⟨m₀, hm₀, -⟩ := treeStart_eq_some h0
  have hsome : ∀ fn c, IsDesired dir fn c → (filestemStr fn).isSome :=
    (isSome_reconcile_mon L).1 (Option.isSome_iff_exists.2 ⟨m₀, hm₀⟩)
  obtain ⟨prc, hprc, p, hp, stem, hs, i, -, hn, hex, -⟩ :=
    spawns_forever (treeStart_sound h0) (spawns_treeStart h0) h hph he
  obtain ⟨c, hd, hc⟩ := isDesired_of_lookup_loadChildren L (AList.mem_lookup_iff.2 hp)
  refine ⟨prc, p.2.serialized, hprc, hex,
    fun mypid' now' procs' stateDirs' pid e' he' hsp hone hpid => ?_⟩
  rw [hc] at hsp ⊢
  rw [hn] at hsp hone ⊢
  obtain ⟨m, hm⟩ : ∃ m, (reconcile L configFile mypid' now' dir procs' stateDirs').mon = some m :=
    Option.isSome_iff_exists.1 ((isSome_reconcile_mon L).2 hsome)
  obtain ⟨hlookup, hsent⟩ := reconcile_adopts L hd hdir hbin hnul hs (hstem _ c hd stem hs) he' hsp
    hone hpid
  exact ⟨m, hm, hlookup m hm, hsent⟩

/-- The first pass of `lithos_tree` with the group `web.yaml` pops `web.0`,
whose executor a later `lithos_tree` adopts the child of. -/
theorem tree_reboot_adopts_spawned_web :
    ∃ t : Sys TreeExecutor,
      TreeReaches Libs.sample "/etc/lithos/tree.yaml" 1 ⟨0⟩ [(strBytes "web.yaml", some webConfig)]
        [] [] [] t ∧
      t.phase = .starting ⟨1000000000⟩ ∧
      StartQueue.dueTop t.mon.startQueue ⟨1000000000⟩ = some (0, "web.0") ∧
      ∃ prc serialized, t.mon.processes.lookup "web.0" = some prc ∧
        prc.executor = .child "web.0" serialized ∧
        ∀ (mypid' : Pid) (now' : Timespec) (procs' : List ProcEntry)
          (stateDirs' : List (List UInt8)) (pid : Pid) (e' : ProcEntry), e' ∈ procs' →
          Spawned Libs.sample "/usr/bin/lithos_knot" "/etc/lithos/tree.yaml" mypid' "web.0"
            serialized pid e' →
          (∀ e'' ∈ procs', recoveredName Libs.sample "/etc/lithos/tree.yaml" mypid' e'' =
            some "web.0" → e'' = e') →
          (∀ e'' ∈ procs', e''.pid = some pid → e'' = e') →
          ∃ m, (reconcile Libs.sample "/etc/lithos/tree.yaml" mypid' now'
              [(strBytes "web.yaml", some webConfig)] procs' stateDirs').mon = some m ∧
            m.processes.lookup "web.0" = some (adopted "web.0" serialized pid now') ∧
            pid ∉ (reconcile Libs.sample "/etc/lithos/tree.yaml" mypid' now'
              [(strBytes "web.yaml", some webConfig)] procs' stateDirs').sent :=
  have h : TreeReaches Libs.sample "/etc/lithos/tree.yaml" 1 ⟨0⟩
      [(strBytes "web.yaml", some webConfig)] [] [] [] _ :=
    ⟨_, rfl, Sys.Reaches.of_runEvents _ [.wake ⟨1000000000⟩] rfl⟩
  ⟨_, h, rfl, rfl, tree_reboot_adopts_spawned Libs.sample _ _ _ _ _ _ "/usr/bin/lithos_knot"
    (by decide) (by decide) (by decide)
    (fun fn c hd stem hs => by
      obtain ⟨rfl, rfl⟩ := isDesired_singleton hd
      obtain rfl : stem = "web" := Option.some.inj (hs.symm.trans (by decide))
      decide) [] h rfl rfl⟩

/-- **`lithos_tree`'s start loop always returns.**  Every record the monitor
`lithos_tree` starts may pop or queue has the restart timeout
`Duration::seconds(1)`, so a failed spawn is never due again in the same
wake-up.  In every state of every run in which the main loop or the start loop
runs, a call of `_start_processes` woken at any time returns, whatever the
spawns answer, once it has had one answer more than there are due entries. -/
theorem tree_start_loop_returns (live : List Child) {t : Sys TreeExecutor}
    (h : TreeReaches L configFile mypid now dir procs stateDirs live t)
    (hrun : t.phase.running) (time : Timespec) (rs : List Spawn)
    (hlen : dueCount t.mon.startQueue time < rs.length) :
    ∃ m', t.mon.startProcesses time rs = .returned m' := by
  obtain ⟨hs, hsp⟩ := h.spawns L configFile mypid now dir procs stateDirs
  refine hsp.startProcesses_returned ?_ (hs.tables hrun) time rs hlen
  rintro _ _ _ ⟨-, -, -, -, -, -, -, -, rfl⟩
  exact le_of_eq (Int.one_mul _).symm

/-- `lithos_tree` with the group `web.yaml` and an empty `/proc`, woken at 1 s
with every spawn failing: the loop pops `web.0`, queues it again for 2 s, and
returns at the second pass. -/
theorem tree_start_loop_returns_web :
    ∃ t : Sys TreeExecutor,
      TreeReaches Libs.sample "/etc/lithos/tree.yaml" 1 ⟨0⟩ [(strBytes "web.yaml", some webConfig)]
        [] [] [] t ∧ t.phase = .main ∧
      ∃ m', t.mon.startProcesses ⟨1000000000⟩ [.err, .err] = .returned m' :=
  have h : TreeReaches Libs.sample "/etc/lithos/tree.yaml" 1 ⟨0⟩
      [(strBytes "web.yaml", some webConfig)] [] [] [] _ :=
    ⟨_, rfl, Relation.ReflTransGen.refl⟩
  ⟨_, h, rfl, tree_start_loop_returns Libs.sample _ _ _ _ _ _ [] h trivial _ _ (by decide)⟩

/-- **An instance with no child is kept running.**  An instance of a config
group that no `/proc` entry is registered under is, in every state of every
run of the monitor `lithos_tree` starts, as long as the main loop or the start
loop runs, queued or running in a live child filed under it, so the exit of
that child queues it again. -/
theorem tree_missing_supervised {n : String} (hi : IsInstance (loadChildren L dir) n)
    (hnot : ∀ e ∈ procs, recoveredName L configFile mypid e ≠ some n) (live : List Child)
    {t : Sys TreeExecutor} (h : TreeReaches L configFile mypid now dir procs stateDirs live t) :
    t.phase.running → Supervised n t := by
  obtain ⟨s₀, h0, h⟩ := h
  obtain ⟨m, hm, rfl⟩ := treeStart_eq_some h0
  exact supervised_forever (treeStart_sound h0) (fun _ => .inl ((queued_reconcile hm n).2.2 ⟨hi, hnot⟩)) h

/-- `web.0`, which had no child, runs as pid 7 filed under it. -/
theorem tree_missing_supervised_web :
    ∃ t : Sys TreeExecutor,
      TreeReaches Libs.sample "/etc/lithos/tree.yaml" 1 ⟨0⟩ [(strBytes "web.yaml", some webConfig)]
        [] [] [] t ∧
      t.phase = .main ∧ t.live = [⟨7, some "web.0"⟩] ∧ Supervised "web.0" t :=
  have h : TreeReaches Libs.sample "/etc/lithos/tree.yaml" 1 ⟨0⟩
      [(strBytes "web.yaml", some webConfig)] [] [] [] _ :=
    ⟨_, rfl, Sys.Reaches.of_runEvents _
      [.wake ⟨1000000000⟩, .pass (.ok 7 ⟨1000000000⟩), .pass .err] rfl⟩
  ⟨_, h, rfl, rfl, tree_missing_supervised Libs.sample _ _ _ _ [] [] (n := "web.0")
    ⟨⟨strBytes "web.yaml", childEntry Libs.sample webConfig⟩, List.mem_singleton_self _, "web",
      by decide, 0, by decide, by decide⟩ (by simp) [] h trivial⟩

/-- **An adopted instance is never started again.**  An instance that a `/proc`
entry is registered under is, in every state of every run of the monitor
`lithos_tree` starts, neither queued nor filed under any pid, and no run adds a
child for it: once the child it was adopted with exits, nothing restarts it. -/
theorem tree_adopted_forgotten {n : String} {e : ProcEntry} (he : e ∈ procs)
    (hn : recoveredName L configFile mypid e = some n) (live : List Child) {t : Sys TreeExecutor}
    (h : TreeReaches L configFile mypid now dir procs stateDirs live t) :
    StartQueue.queued t.mon.startQueue n = 0 ∧ (∀ p, t.mon.pids.lookup p ≠ some n) ∧
      owned t.live n ≤ owned live n := by
  obtain ⟨s₀, h0, h⟩ := h
  obtain ⟨m, hm, rfl⟩ := treeStart_eq_some h0
  have hq := queued_reconcile hm n
  have hf : Forgotten n ⟨m, .main, live, []⟩ :=
    ⟨Nat.eq_zero_of_not_pos fun hpos => (hq.2.1 hpos).2 e he hn, fun p => by
      simp [(tables_reconcile hm).2]⟩
  obtain ⟨hf', hle⟩ := forgotten_forever (treeStart_sound h0) hf h
  exact ⟨hf'.not_queued, hf'.not_filed, hle⟩

/-- `web.0`, adopted as pid 100, exits and is not started at 1 s. -/
theorem tree_adopted_forgotten_web :
    ∃ t : Sys TreeExecutor,
      TreeReaches Libs.sample "/etc/lithos/tree.yaml" 1 ⟨0⟩ [(strBytes "web.yaml", some webConfig)]
        [sampleChild 100 "web.0"] [] [⟨100, some "web.0"⟩] t ∧
      t.phase = .main ∧ t.live = [] ∧
      StartQueue.queued t.mon.startQueue "web.0" = 0 ∧ (∀ p, t.mon.pids.lookup p ≠ some "web.0") ∧
      owned t.live "web.0" ≤ owned [⟨100, some "web.0"⟩] "web.0" :=
  have h : TreeReaches Libs.sample "/etc/lithos/tree.yaml" 1 ⟨0⟩
      [(strBytes "web.yaml", some webConfig)] [sampleChild 100 "web.0"] [] [⟨100, some "web.0"⟩] _ :=
    ⟨_, rfl, Sys.Reaches.of_runEvents _ [.exit 100, .wake ⟨1000000000⟩, .pass .err] rfl⟩
  ⟨_, h, rfl, rfl, tree_adopted_forgotten Libs.sample _ _ _ _ _ [] (List.mem_singleton_self _)
    (by decide) _ h⟩

/-- The children the loop over `/proc` registers, each a live child of the
instance it is registered under. -/
def adoptedChildren : List Child :=
  procs.filterMap fun e =>
    (recoveredName L configFile mypid e).bind fun n => e.pid.map fun pid => ⟨pid, some n⟩

omit [DecidableEq J] in
theorem owned_adoptedChildren (k : String) :
    owned (adoptedChildren L configFile mypid procs) k =
      (procs.filterMap (recoveredName L configFile mypid)).count k := by
  induction procs with
  | nil => rfl
  | cons e procs ih =>
    cases hr : recoveredName L configFile mypid e with
    | none => simpa [adoptedChildren, hr] using ih
    | some n =>
      obtain ⟨pid, hpid⟩ := recoveredName_pid L hr
      simp only [adoptedChildren, List.filterMap_cons, hr, hpid, Option.some_bind, Option.map_some',
        owned_cons, List.count_cons, beq_iff_eq, Option.some.injEq] at ih ⊢
      rw [ih]

section Adopted

variable {L configFile mypid now dir procs stateDirs} (strays : List Pid)
  (hnames : (procs.filterMap (recoveredName L configFile mypid)).Nodup) {s₀ : Sys TreeExecutor}
  (h0 : treeStart L configFile mypid now dir procs stateDirs
    (adoptedChildren L configFile mypid procs ++ strays.map (Child.mk · none)) = some s₀)
include hnames h0

/-- The start of `lithos_tree`'s monitor keeps one instance to one child, when
the kernel's children are those the loop over `/proc` registers and `strays`,
with distinct pids, and no two `/proc` entries are registered under one name. -/
theorem owners_treeStart
    (hpids : ((adoptedChildren L configFile mypid procs ++ strays.map (Child.mk · none)).map
      Child.pid).Nodup) :
    Owners s₀ := by
  obtain ⟨m, hm, rfl⟩ := treeStart_eq_some h0
  have hown : ∀ k, owned (adoptedChildren L configFile mypid procs ++ strays.map (Child.mk · none)) k =
      (procs.filterMap (recoveredName L configFile mypid)).count k := fun k => by
    rw [owned_append, owned_adoptedChildren]
    simp [owned, List.count_eq_zero]
  refine ⟨hpids, fun c _ => .inl ?_, fun k => ?_⟩
  · simp [(tables_reconcile hm).2]
  · have hq := queued_reconcile hm k
    have hk := List.nodup_iff_count_le_one.1 hnames k
    show StartQueue.queued m.startQueue k +
      owned (adoptedChildren L configFile mypid procs ++ strays.map (Child.mk · none)) k ≤ 1
    rw [hown]
    by_cases hpos : 0 < (procs.filterMap (recoveredName L configFile mypid)).count k
    · obtain ⟨e, he, hek⟩ := List.mem_filterMap.1 (List.count_pos_iff.1 hpos)
      have : ¬ 0 < StartQueue.queued _ k := fun hq' => (hq.2.1 hq').2 e he hek
      omega
    · omega

/-- At the start of `lithos_tree`'s monitor, every child the loop over `/proc`
registered is the current pid of its record, when no two `/proc` entries are
registered under one name. -/
theorem current_treeStart : Current s₀ := by
  obtain ⟨m, hm, rfl⟩ := treeStart_eq_some h0
  obtain ⟨m', hm', rfl⟩ := reconcile_mon_eq_some.1 hm
  intro c hc n hn
  rcases List.mem_append.1 hc with hc | hc
  · obtain ⟨e, he, hce⟩ := List.mem_filterMap.1 hc
    obtain ⟨n', hn', hce⟩ := Option.bind_eq_some.1 hce
    obtain ⟨pid, hpid, rfl⟩ := Option.map_eq_some'.1 hce
    cases hn
    obtain ⟨pid', hpid', prc, hprc, hcur⟩ := currentPid_recoverAll L hnames he hn'
    rw [hpid] at hpid'
    cases hpid'
    exact ⟨prc, lookup_scheduleNew hm' hprc, hcur⟩
  · obtain ⟨p, -, rfl⟩ := List.mem_map.1 hc
    cases hn

end Adopted

/-- **No instance is ever queued or running twice.**  Let the kernel's children
be those the loop over `/proc` registers, each running for the instance it is
registered under, and `strays` running for none, all with distinct pids.  When
no two `/proc` entries are registered under one name, then in every state of
every run of the monitor `lithos_tree` starts, every instance is queued at most
once or runs in at most one live child, never both. -/
theorem tree_one_child_each (strays : List Pid)
    (hpids : ((adoptedChildren L configFile mypid procs ++ strays.map (Child.mk · none)).map Child.pid).Nodup)
    (hnames : (procs.filterMap (recoveredName L configFile mypid)).Nodup) {t : Sys TreeExecutor}
    (h : TreeReaches L configFile mypid now dir procs stateDirs
      (adoptedChildren L configFile mypid procs ++ strays.map (Child.mk · none)) t) (n : String) :
    StartQueue.queued t.mon.startQueue n + owned t.live n ≤ 1 :=
  let ⟨_, h0, h⟩ := h
  (Owners.of_reaches (treeStart_sound h0) (owners_treeStart strays hnames h0 hpids) h).2.once n

/-- `web.0` adopted as pid 100, with a stray child 7; pid 100 exits. -/
theorem tree_one_child_each_web :
    ∃ t : Sys TreeExecutor,
      TreeReaches Libs.sample "/etc/lithos/tree.yaml" 1 ⟨0⟩ [(strBytes "web.yaml", some webConfig)]
        [sampleChild 100 "web.0"] []
        (adoptedChildren Libs.sample "/etc/lithos/tree.yaml" 1 [sampleChild 100 "web.0"] ++
          [7].map (Child.mk · none)) t ∧
      t.live = [⟨7, none⟩] ∧
      ∀ n, StartQueue.queued t.mon.startQueue n + owned t.live n ≤ 1 :=
  have h : TreeReaches Libs.sample "/etc/lithos/tree.yaml" 1 ⟨0⟩
      [(strBytes "web.yaml", some webConfig)] [sampleChild 100 "web.0"] []
      (adoptedChildren Libs.sample "/etc/lithos/tree.yaml" 1 [sampleChild 100 "web.0"] ++
        [7].map (Child.mk · none)) _ :=
    ⟨_, rfl, Sys.Reaches.of_runEvents _ [.exit 100] rfl⟩
  ⟨_, h, rfl, tree_one_child_each Libs.sample _ _ _ _ _ [] [7] (by decide) (by decide) h⟩

/-- **A `Terminate` reaches every child of the tree.**  Let the kernel's
children be those the loop over `/proc` registers and `strays`, all with
distinct pids, and let no two `/proc` entries be registered under one name.  In
every state of every run of the monitor `lithos_tree` starts in which the main
loop waits, `Terminate(sig)` sends `sig` to every live child spawned or adopted
for an instance, and the shut down loop waits for each of them. -/
theorem tree_terminate_reaches_children (strays : List Pid)
    (hpids : ((adoptedChildren L configFile mypid procs ++ strays.map (Child.mk · none)).map Child.pid).Nodup)
    (hnames : (procs.filterMap (recoveredName L configFile mypid)).Nodup) {t : Sys TreeExecutor}
    (h : TreeReaches L configFile mypid now dir procs stateDirs
      (adoptedChildren L configFile mypid procs ++ strays.map (Child.mk · none)) t)
    (hph : t.phase = .main) (sig : Int) :
    ∃ t', t.step (.terminate sig) = some t' ∧ ∀ c ∈ t.live, c.owner ≠ none →
      (c.pid, sig) ∈ t'.sent ∧ ∃ l, t'.phase = .shutdown l ∧ c.pid ∈ l := by
  obtain ⟨s₀, h0, h⟩ := h
  have hc := Current.of_reaches (treeStart_sound h0) (owners_treeStart strays hnames h0 hpids)
    (fun _ => current_treeStart strays hnames h0) h
  exact (hc (by simp [hph, Phase.running])).terminate hph sig

/-- `web.0` adopted as pid 100, with a stray child 7: a `Terminate(15)` signals
pid 100 and the shut down loop waits for it. -/
theorem tree_terminate_reaches_children_web :
    ∃ t : Sys TreeExecutor,
      TreeReaches Libs.sample "/etc/lithos/tree.yaml" 1 ⟨0⟩ [(strBytes "web.yaml", some webConfig)]
        [sampleChild 100 "web.0"] []
        (adoptedChildren Libs.sample "/etc/lithos/tree.yaml" 1 [sampleChild 100 "web.0"] ++
          [7].map (Child.mk · none)) t ∧ t.phase = .main ∧
      ∃ t', t.step (.terminate 15) = some t' ∧ ∀ c ∈ t.live, c.owner ≠ none →
        (c.pid, 15) ∈ t'.sent ∧ ∃ l, t'.phase = .shutdown l ∧ c.pid ∈ l :=
  have h : TreeReaches Libs.sample "/etc/lithos/tree.yaml" 1 ⟨0⟩
      [(strBytes "web.yaml", some webConfig)] [sampleChild 100 "web.0"] []
      (adoptedChildren Libs.sample "/etc/lithos/tree.yaml" 1 [sampleChild 100 "web.0"] ++
        [7].map (Child.mk · none)) _ :=
    ⟨_, rfl, Relation.ReflTransGen.refl⟩
  ⟨_, h, rfl, tree_terminate_reaches_children Libs.sample _ _ _ _ _ [] [7] (by decide) (by decide) h
    rfl 15⟩

end Lithos
