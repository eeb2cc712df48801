import Lithos.Tree.Supervise

/-!
# `lithos_cmd`: one command under a monitor, beside `lithos_tree`

`lithos_cmd::run` (lithos_cmd.rs) runs one command of the tree's config
directory.  It asserts that the command's name matches
`^[a-zA-Z0-9][a-zA-Z0-9_.-]+$`, prepares the state directory
`.cmd.<name>.<pid>` under the tree's `state_dir`, and runs a `Monitor` with one
instance, `<name>.cmd`, queued for a start with a backoff of zero milliseconds;
it never calls `allow_reboot`.

* `cmd_restarted`: in every run of that monitor, whenever the main loop runs
  with no child running the command, as after its exit, the command is queued,
  and a wake-up once it is due and a spawn that succeeds start it again.
  `Target::finish` answers `false`, "Do not restart", but `Monitor::run` never
  calls `finish`.
* `cmd_single_child`: still, at most one child runs the command at a time, the
  monitor never panics, and `mon.run()`, whose value `run` drops, can only
  return `Killed`.
* `reconcile_removes_dot_dirs`: the startup of `lithos_tree` removes every
  entry of the state directory whose name is text starting with `.`, since no
  name a `/proc` entry is registered under starts so.  The state directory of a
  `lithos_cmd` run, `.cmd.<name>.<pid>`, is such an entry, under the same
  `state_dir`.
-/

namespace Lithos

/-- `[a-zA-Z0-9_.-]`. -/
def isCmdNameChar (c : Char) : Bool := c.isAlphanum || c == '_' || c == '.' || c == '-'

/-- The `assert!` of `run`: `^[a-zA-Z0-9][a-zA-Z0-9_.-]+$`, a letter or digit
and then one or more name characters. -/
def validCmdName : List Char → Bool
  | c :: rest => c.isAlphanum && !rest.isEmpty && rest.all isCmdNameChar
  | [] => false

/-- `format!(".cmd.{}.{}", name, getpid())`: the state directory of a run. -/
def cmdStateDir (name : String) (pid : Pid) : String := ".cmd." ++ name ++ "." ++ toString pid

/-- `Target`: the executor of the command, with what its `command()` passes on.
`name` is the instance's name, `<name>.cmd`. -/
structure Target where
  /-- `name`. -/
  name : String
  /-- `local.executable`. -/
  executable : String
  /-- `local.arguments`. -/
  arguments : List String
  /-- `args`, the command line's arguments after the name. -/
  args : List String

/-- The argv of `Target::command`: the executable, the config's `arguments`,
then the command line's. -/
def Target.argv (t : Target) : List String := t.executable :: (t.arguments ++ t.args)

/-- The state `mon.run()` starts from in `run`: one `add` of `<name>.cmd` with
no child and `Duration::milliseconds(0)`, no reboots, among the children
`strays` the process already has. -/
def cmdStart (name : String) (target : Target) (strays : List Pid) : Sys Target :=
  Sys.init [⟨name ++ ".cmd", target, Duration.milliseconds 0, none⟩] strays false

/-- The records of `lithos_cmd`'s monitor: every record an entry of the queue
or a pid leads to is the command's. -/
theorem cmd_spawns (name : String) (target : Target) (strays : List Pid) :
    Spawns (fun n _ _ => n = name ++ ".cmd") (cmdStart name target strays).mon := by
  have h : Spawns (fun n (_ : Target) (_ : Duration) => n = name ++ ".cmd")
      (Monitor.new.add (name ++ ".cmd") target (Duration.milliseconds 0) none) :=
    (Spawns.of_empty rfl rfl).add rfl rfl none
  exact ⟨h.queued, h.filed⟩

/-- Along every run of `lithos_cmd`'s monitor, among strays with distinct pids,
the tables agree while the loops run and one instance has one child. -/
theorem cmd_owners (name : String) (target : Target) {strays : List Pid} (hstrays : strays.Nodup)
    {t : Sys Target} (h : (cmdStart name target strays).Reaches t) : t.Sound ∧ Owners t :=
  Owners.of_reaches (Sys.sound_init _ _ _)
    (Sys.owners_init [⟨name ++ ".cmd", target, Duration.milliseconds 0, none⟩] strays false
      (List.nodup_singleton _) (by simpa [Sys.init, Sys.livePids, Sys.adopted, List.map_map,
        Function.comp_def] using hstrays)) h

/-- **`lithos_cmd` starts its command again after each exit.**  In every state
of every run of the monitor `lithos_cmd` starts, among children with distinct
pids, once the main loop runs with no live child running the command, as after
the command's exit, the command is queued: there is a time after which a
wake-up and a spawn that succeeds start it again in the new child.
`Target::finish` answers `false`, "Do not restart", but `Monitor::run` never
calls `finish`. -/
theorem cmd_restarted (name : String) (target : Target) {strays : List Pid}
    (hstrays : strays.Nodup) {t : Sys Target} (h : (cmdStart name target strays).Reaches t)
    (hph : t.phase = .main) (hidle : owned t.live (name ++ ".cmd") = 0) :
    ∃ due : Timespec, ∀ time, due < time → ∀ pid started, pid ∉ t.livePids →
      ∃ t', t.runEvents [.wake time, .pass (.ok pid started)] = some t' ∧
        ⟨pid, some (name ++ ".cmd")⟩ ∈ t'.live := by
  obtain ⟨hs, ho⟩ := cmd_owners name target hstrays h
  have hQ := (Spawns.of_reaches (Sys.sound_init _ _ _) (cmd_spawns name target strays) h).2
  have hpos := (supervised_forever (n := name ++ ".cmd") (Sys.sound_init _ _ _)
    (fun _ => .inl (by simp [cmdStart, Sys.init, Sys.addAll])) h (by rw [hph]; trivial)).queued_of_idle
    ho hidle
  -- the command is queued, so the top of the queue is its entry
  obtain ⟨e₀, he₀, -⟩ := StartQueue.mem_of_pos_queued hpos
  obtain ⟨e, htop⟩ := Option.ne_none_iff_exists'.1
    (mt StartQueue.top_eq_none.1 (List.ne_nil_of_mem he₀))
  have hmem := StartQueue.top_mem htop
  obtain ⟨prc, hprc⟩ := Option.isSome_iff_exists.1
    (AList.lookup_isSome.2 ((hs.tables_main hph).queued e hmem))
  have hname : e.2 = name ++ ".cmd" := hQ.queued e hmem prc hprc
  exact ⟨e.time, fun time htime pid started hfresh =>
    hname ▸ Sys.start_of_top hph htop htime hprc hfresh started⟩

/-- `lithos_cmd web` starts its command as pid 7 at 1 s and pid 7 exits: woken
at 2 s with pid 8 spawned, it runs the command again. -/
theorem cmd_restarted_web :
    ∃ t : Sys Target, (cmdStart "web" ⟨"web.cmd", "/bin/web", [], []⟩ []).Reaches t ∧
      t.phase = .main ∧ t.live = [] ∧ owned t.live ("web" ++ ".cmd") = 0 ∧
      ∃ due : Timespec, ∀ time, due < time → ∀ pid started, pid ∉ t.livePids →
        ∃ t', t.runEvents [.wake time, .pass (.ok pid started)] = some t' ∧
          ⟨pid, some ("web" ++ ".cmd")⟩ ∈ t'.live :=
  have h := Sys.Reaches.of_runEvents (cmdStart "web" ⟨"web.cmd", "/bin/web", [], []⟩ [])
    [.wake ⟨1000000000⟩, .pass (.ok 7 ⟨1000000000⟩), .pass .err, .exit 7] rfl
  ⟨_, h, rfl, rfl, rfl, cmd_restarted _ _ List.nodup_nil h rfl rfl⟩

/-- **`lithos_cmd` runs its command once at a time, and its monitor ends only
with `Killed`.**  Among children with distinct pids, in every state of every
run of the monitor `lithos_cmd` starts, at most one live child runs the
command, nothing has panicked, and if `run` returned, it returned `Killed`:
`lithos_cmd` never calls `allow_reboot`, and the value of `mon.run()` that it
drops is always `Killed`. -/
theorem cmd_single_child (name : String) (target : Target) {strays : List Pid}
    (hstrays : strays.Nodup) {t : Sys Target} (h : (cmdStart name target strays).Reaches t) :
    owned t.live (name ++ ".cmd") ≤ 1 ∧ t.phase ≠ .panicked ∧
      ∀ r, t.phase = .returned r → r = .killed := by
  obtain ⟨hs, ho⟩ := cmd_owners name target hstrays h
  refine ⟨(Nat.le_add_left _ _).trans (ho.once _), hs.not_panicked, fun r hr => ?_⟩
  cases r
  · rfl
  · exact absurd hr (Sys.not_reboot_of_reaches rfl (fun h => by cases h) h)

/-- `lithos_cmd web` starts its command as pid 7; pid 7 exits, the command is
started again as pid 8, and `Terminate(15)` comes: one child runs the command,
and the shut down loop waits for it. -/
theorem cmd_single_child_web :
    ∃ t : Sys Target, (cmdStart "web" ⟨"web.cmd", "/bin/web", [], []⟩ []).Reaches t ∧
      t.live = [⟨8, some "web.cmd"⟩] ∧
      owned t.live ("web" ++ ".cmd") ≤ 1 ∧ t.phase ≠ .panicked ∧
      ∀ r, t.phase = .returned r → r = .killed :=
  have h := Sys.Reaches.of_runEvents (cmdStart "web" ⟨"web.cmd", "/bin/web", [], []⟩ [])
    [.wake ⟨1000000000⟩, .pass (.ok 7 ⟨1000000000⟩), .pass .err, .exit 7, .wake ⟨2000000000⟩,
      .pass (.ok 8 ⟨2000000000⟩), .pass .err, .terminate 15] rfl
  ⟨_, h, rfl, cmd_single_child _ _ List.nodup_nil h⟩

/-! ## What `lithos_tree` does to the state directory -/

variable {J : Type} (L : Libs J)

/-- A name `^([\w-]+)\.\d+$` matches starts with a `[\w-]` character. -/
theorem matchName_head {name g : List Char} (h : matchName L name = some g) :
    ∃ c rest, name = c :: rest ∧ L.nameChar c = true := by
  unfold matchName at h
  split at h
  · split at h
    · rename_i hc
      cases name with
      | nil => exact absurd rfl hc.1
      | cons c rest =>
        refine ⟨c, rest, rfl, ?_⟩
        by_contra hn
        exact hc.1 (by simp [List.takeWhile_cons, hn])
    · cases h
  · cases h

/-- The name a `/proc` entry is registered under starts with a `[\w-]`
character. -/
theorem recoveredName_head {configFile : String} {mypid : Pid} {e : ProcEntry} {n : String}
    (h : recoveredName L configFile mypid e = some n) :
    ∃ c rest, n.toList = c :: rest ∧ L.nameChar c = true := by
  unfold recoveredName at h
  split at h
  · cases h
  · split at h
    · obtain ⟨⟨name, g, j⟩, hg, rfl⟩ := Option.map_eq_some'.1 h
      unfold getName at hg
      split at hg
      · cases hg
      · obtain ⟨g', hm, hg'⟩ := Option.map_eq_some'.1 hg
        cases hg'
        exact matchName_head L hm
    · cases h

variable [DecidableEq J]

/-- **`lithos_tree` removes every dot directory of its state directory.**
Whatever the config directory and `/proc` hold, the startup of `lithos_tree`
removes every entry of the state directory whose name is text starting with
`.`: only the names `/proc` entries are registered under are kept, and each of
those starts with a `[\w-]` character.  A name that is not UTF-8 is skipped,
whatever its first byte. -/
theorem reconcile_removes_dot_dirs (configFile : String) (mypid : Pid) (now : Timespec)
    (dir : List (List UInt8 × Option ChildConfig)) (procs : List ProcEntry)
    (stateDirs : List (List UInt8)) {b : List UInt8} (hb : b ∈ stateDirs) {n : String}
    (hn : fromUtf8 b = some n) (hdot : n.toList.head? = some '.') :
    b ∈ (reconcile L configFile mypid now dir procs stateDirs).removed := by
  refine List.mem_filter.2 ⟨hb, ?_⟩
  rw [hn, Bool.not_eq_true', Bool.eq_false_iff]
  intro hhas
  obtain ⟨e, -, he⟩ := (has_recoverAll L procs n).1 hhas
  obtain ⟨c, rest, hc, hname⟩ := recoveredName_head L he
  rw [hc] at hdot
  cases hdot
  simp [nameChar_dot] at hname

/-- The state directory of `lithos_cmd web` run as pid 4242 is removed when
`lithos_tree` starts with the group `web.yaml` and its child `web.0` running. -/
theorem reconcile_removes_dot_dirs_cmd :
    strBytes (cmdStateDir "web" 4242) ∈ [strBytes "web.0", strBytes (cmdStateDir "web" 4242)] ∧
    fromUtf8 (strBytes (cmdStateDir "web" 4242)) = some (cmdStateDir "web" 4242) ∧
    (cmdStateDir "web" 4242).toList.head? = some '.' ∧
    strBytes (cmdStateDir "web" 4242) ∈ (reconcile Libs.sample "/etc/lithos/tree.yaml" 1 ⟨0⟩
      [(strBytes "web.yaml", some webConfig)] [sampleChild 100 "web.0"]
      [strBytes "web.0", strBytes (cmdStateDir "web" 4242)]).removed :=
  have hn : fromUtf8 (strBytes (cmdStateDir "web" 4242)) = some (cmdStateDir "web" 4242) := by
    decide
  ⟨by decide, hn, by decide, reconcile_removes_dot_dirs Libs.sample _ _ _ _ _ _ (by decide) hn
    (by decide)⟩

end Lithos
