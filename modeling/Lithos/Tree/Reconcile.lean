import Lithos.Tree.Args
import Lithos.Utf8

/-!
# The reconciliation of `lithos_tree::run`

Before it starts its monitor, `run` rebuilds what it supervises from three
directory listings, and then schedules what is missing:

1. the config directory (`loadChildren`): every `<stem>.yaml` file that parses
   to a `Daemon` config is the group of instances `<stem>.0`, `<stem>.1`, ...;
2. `/proc` (`recoverChild`): each direct child is identified by `_get_name`
   and registered with its pid, its group's current config and no restart
   queued, or is sent `SIGTERM`;
3. the state directory (`danglingDirs`): the directories whose names are text
   with no record are removed;
4. every instance of every group that has no record yet is queued for a start
   (`scheduleNew`).

`reconcile` is the whole of it.  A listing is the list of what the directory
holds, each file with what reading it gave; `get_time()` is one reading `now`.
The names of the config and state directories are bytes, read as text by
`filestem_str`, `extension_str` and `filename_str` (`Lithos.Utf8`): the state
loop skips a name that is not UTF-8, and the scheduling loop's
`path.filestem_str().unwrap()` panics on the file of a group whose stem is not
(`scheduleNew` is `none`), after the signals are sent and the directories
removed.

* `recoverChild_spawned`: a child that `Child::command` spawned for `stem.j`
  with its group's current config is registered with its pid and is not
  signalled, whatever `j` is;
* `reconcile_adopts`: so in the whole reconciliation, when no other child
  identifies as the same name and no other entry has its pid;
* `isSome_scheduleNew`: the scheduling loop panics exactly at a group whose
  stem is not text;
* `reconcile_signals_dotted`: a child spawned for a stem with a `.` in it is
  sent `SIGTERM`, since `_get_name` never identifies it.
-/

namespace Lithos

variable {J : Type}

/-- The executor `run` gives a record. -/
inductive TreeExecutor where
  /-- `Child`, with its name and `child_config_serialized`; the global file,
  global config and binary are the same for every child. -/
  | child (name serialized : String)
  /-- `UnidentifiedChild`. -/
  | unidentified (name : String)
  deriving DecidableEq, Repr

/-- One entry of `/proc`: its name, and what reading its `stat` and `cmdline`
gave (`none` where that failed). -/
structure ProcEntry where
  /-- The entry's file name. -/
  name : String
  /-- `/proc/<name>/stat`. -/
  stat : Option String
  /-- `/proc/<name>/cmdline`. -/
  cmdline : Option String
  deriving DecidableEq, Repr

/-- `ppath.filename_str().and_then(FromStr::from_str)`: the entry's pid. -/
def ProcEntry.pid (e : ProcEntry) : Option Pid := fromStrI32 e.name.toList

/-- A value of the `children` map: the config, its JSON and its text. -/
structure ChildEntry (J : Type) where
  /-- The parsed config. -/
  cfg : ChildConfig
  /-- `json::from_str(encode(cfg)).unwrap()`. -/
  json : J
  /-- `json::encode(cfg)`. -/
  serialized : String

/-- The `children` value of a config. -/
def childEntry (L : Libs J) (c : ChildConfig) : ChildEntry J :=
  ⟨c, (L.fromStr (L.encode c)).get (L.fromStr_encode c), L.encode c⟩

/-! ## File names -/

/-- The bytes before and after the last `.`, if there is one. -/
def splitLastDot : List UInt8 → Option (List UInt8 × List UInt8)
  | [] => none
  | c :: s =>
    match splitLastDot s with
    | some (a, b) => some (c :: a, b)
    | none => if c = dotByte then some ([], s) else none

/-- `Path::filestem` of a file name: the name up to its last `.`, or the whole
name if it has no `.`, only a leading one, or is `..`. -/
def filestem (name : List UInt8) : List UInt8 :=
  match splitLastDot name with
  | some (a, _) => if a = [] ∨ name = [dotByte, dotByte] then name else a
  | none => name

/-- `Path::extension` of a file name: the bytes after its last `.`, unless that
`.` leads the name or the name is `..`. -/
def extension (name : List UInt8) : Option (List UInt8) :=
  match splitLastDot name with
  | some (a, b) => if a = [] ∨ name = [dotByte, dotByte] then none else some b
  | none => none

/-- `Path::filestem_str`: the stem, if it is text. -/
def filestemStr (name : List UInt8) : Option String := fromUtf8 (filestem name)

/-- `Path::extension_str`: the extension, if there is one and it is text. -/
def extensionStr (name : List UInt8) : Option String := (extension name).bind fromUtf8

theorem splitLastDot_spec : ∀ {l a b : List UInt8}, splitLastDot l = some (a, b) →
    l = a ++ dotByte :: b
  | [], _, _, h => by cases h
  | c :: s, a, b, h => by
    simp only [splitLastDot] at h
    split at h
    · rename_i a' b' h'
      cases h
      rw [splitLastDot_spec h']
      rfl
    · split at h
      · cases h; subst ‹c = dotByte›; rfl
      · cases h

/-- A `.yaml` file whose stem is text is the bytes of that text followed by
`.yaml`. -/
theorem strBytes_stem_yaml {fn : List UInt8} {stem : String} (hs : filestemStr fn = some stem)
    (h : extensionStr fn = some "yaml") : strBytes (stem ++ ".yaml") = fn := by
  obtain ⟨e, he, hy⟩ := Option.bind_eq_some.1 h
  unfold extension at he
  split at he
  · rename_i a b hsplit
    split at he
    · cases he
    · rename_i ha
      cases he
      have hstem : filestem fn = a := by unfold filestem; rw [hsplit]; exact if_neg ha
      rw [filestemStr, hstem] at hs
      rw [strBytes_append, strBytes_of_fromUtf8 hs, splitLastDot_spec hsplit,
        ← strBytes_of_fromUtf8 hy]
      rfl
  · cases he

/-! ## The program -/

/-- One step of the loop over the config directory, for a file name and what
`parse_config` gave for it (`none` for an error): `(Some(""), _)` and any
extension but `Some("yaml")` are skipped, a stem that is not text is not. -/
def loadChild (L : Libs J) (children : AList fun _ : List UInt8 => ChildEntry J)
    (f : List UInt8 × Option ChildConfig) : AList fun _ : List UInt8 => ChildEntry J :=
  if filestemStr f.1 = some "" then children
  else if extensionStr f.1 ≠ some "yaml" then children
  else
    match f.2 with
    | none => children
    | some cfg => if cfg.kind = .daemon then children.insert f.1 (childEntry L cfg) else children

/-- The `children` map: the groups of the config directory, by file name. -/
def loadChildren (L : Libs J) (dir : List (List UInt8 × Option ChildConfig)) :
    AList fun _ : List UInt8 => ChildEntry J :=
  dir.foldl (loadChild L) ∅

/-- What the loop over `/proc` has built so far. -/
structure Recovery where
  /-- The monitor. -/
  mon : Monitor TreeExecutor
  /-- The pids sent `SIGTERM`, in order. -/
  sent : List Pid

/-- One step of the loop over `/proc` ("Recover old workers"). -/
def recoverChild [DecidableEq J] (L : Libs J) (children : AList fun _ : List UInt8 => ChildEntry J)
    (configFile : String) (mypid : Pid) (now : Timespec) (r : Recovery) (e : ProcEntry) :
    Recovery :=
  match e.pid with
  | none => r
  | some pid =>
    if isChild L e.stat mypid then
      match getName L e.cmdline configFile with
      | none => { r with sent := r.sent ++ [pid] }
      | some (fullname, childname, current) =>
        match children.lookup (strBytes (childname ++ ".yaml")) with
        | some d =>
          ⟨r.mon.add fullname (.child fullname d.serialized) (Duration.seconds 1) (some (pid, now)),
            if d.json = current then r.sent else r.sent ++ [pid]⟩
        | none =>
          ⟨r.mon.add fullname (.unidentified fullname) (Duration.seconds 0) (some (pid, now)),
            r.sent ++ [pid]⟩
    else r

/-- The loop over the state directory: the directories it removes, those whose
name is text with no record; `filename_str` skips a name that is not text. -/
def danglingDirs (mon : Monitor TreeExecutor) (stateDirs : List (List UInt8)) :
    List (List UInt8) :=
  stateDirs.filter fun b =>
    match fromUtf8 b with
    | some name => !mon.has name
    | none => false

/-- One step of the loop "Schedule new workers": instance `i` of a group. -/
def scheduleInstance (serialized stem : String) (mon : Monitor TreeExecutor) (i : Nat) :
    Monitor TreeExecutor :=
  if mon.has (instanceName stem i) then mon
  else mon.add (instanceName stem i) (.child (instanceName stem i) serialized)
    (Duration.seconds 1) none

/-- The instances of one group, `range(0, instances)`, named after
`path.filestem_str().unwrap()`, which panics (`none`) on a stem that is not
text. -/
def scheduleGroup (mon : Monitor TreeExecutor) (p : Σ _ : List UInt8, ChildEntry J) :
    Option (Monitor TreeExecutor) :=
  (filestemStr p.1).map fun stem =>
    (List.range p.2.cfg.instances).foldl (scheduleInstance p.2.serialized stem) mon

/-- The loop "Schedule new workers", over `children`; `none` where it panics. -/
def scheduleNew (children : AList fun _ : List UInt8 => ChildEntry J)
    (mon : Monitor TreeExecutor) : Option (Monitor TreeExecutor) :=
  children.entries.foldlM scheduleGroup mon

/-- What the reconciliation leaves. -/
structure Reconciled where
  /-- The monitor `run` starts, with reboots allowed; `none` where the
  scheduling loop panics. -/
  mon : Option (Monitor TreeExecutor)
  /-- The pids sent `SIGTERM`. -/
  sent : List Pid
  /-- The state directories removed. -/
  removed : List (List UInt8)

/-- The loop over `/proc`, from the new monitor. -/
def recoverAll [DecidableEq J] (L : Libs J) (children : AList fun _ : List UInt8 => ChildEntry J)
    (configFile : String) (mypid : Pid) (now : Timespec) (procs : List ProcEntry) : Recovery :=
  procs.foldl (recoverChild L children configFile mypid now) ⟨Monitor.new, []⟩

/-- `run` up to `mon.run()`. -/
def reconcile [DecidableEq J] (L : Libs J) (configFile : String) (mypid : Pid) (now : Timespec)
    (dir : List (List UInt8 × Option ChildConfig)) (procs : List ProcEntry)
    (stateDirs : List (List UInt8)) : Reconciled :=
  let children := loadChildren L dir
  let r := recoverAll L children configFile mypid now procs
  ⟨(scheduleNew children r.mon).map ({ · with allowReboot := true }), r.sent,
    danglingDirs r.mon stateDirs⟩

/-! ## The groups -/

/-- `fn` is a file of the listing that the loop keeps, with config `c`. -/
structure IsDesired (dir : List (List UInt8 × Option ChildConfig)) (fn : List UInt8)
    (c : ChildConfig) : Prop where
  mem : (fn, some c) ∈ dir
  stem_ne : filestemStr fn ≠ some ""
  yaml : extensionStr fn = some "yaml"
  daemon : c.kind = .daemon

variable (L : Libs J)

theorem IsDesired.mono {dir dir' : List (List UInt8 × Option ChildConfig)} {fn : List UInt8}
    {c : ChildConfig} (h : IsDesired dir fn c) (hs : dir ⊆ dir') : IsDesired dir' fn c :=
  { h with mem := hs h.mem }

/-- What one step of the loop over the config directory can do: nothing, or
file a kept group under its file name. -/
theorem loadChild_cases (children : AList fun _ : List UInt8 => ChildEntry J)
    (f : List UInt8 × Option ChildConfig) :
    loadChild L children f = children ∨
      ∃ c, IsDesired [f] f.1 c ∧ loadChild L children f = children.insert f.1 (childEntry L c) := by
  obtain ⟨fn, _ | c⟩ := f
  · simp [loadChild]
  · by_cases h : filestemStr fn ≠ some "" ∧ extensionStr fn = some "yaml" ∧ c.kind = .daemon
    · exact .inr ⟨c, ⟨List.mem_singleton_self _, h.1, h.2.1, h.2.2⟩, by simp [loadChild, h]⟩
    · simp only [not_and_or, ne_eq, not_not] at h
      rcases h with h | h | h <;> simp [loadChild, h]

theorem lookup_loadChild_ne (children : AList fun _ : List UInt8 => ChildEntry J)
    (f : List UInt8 × Option ChildConfig) {fn : List UInt8} (h : f.1 ≠ fn) :
    (loadChild L children f).lookup fn = children.lookup fn := by
  rcases loadChild_cases L children f with he | ⟨c, -, he⟩ <;> rw [he]
  exact AList.lookup_insert_ne (Ne.symm h)

theorem lookup_foldl_loadChild_of_not_mem {fn : List UInt8} (dir : List (List UInt8 × Option ChildConfig))
    (children : AList fun _ : List UInt8 => ChildEntry J) (h : fn ∉ dir.map Prod.fst) :
    (dir.foldl (loadChild L) children).lookup fn = children.lookup fn :=
  List.foldlRecOn (motive := fun ch : AList (fun _ : List UInt8 => ChildEntry J) =>
      ch.lookup fn = children.lookup fn) dir _ _ rfl
    fun ch hch f hf => (lookup_loadChild_ne L ch f fun he =>
      h (by rw [← he]; exact List.mem_map_of_mem _ hf)).trans hch

theorem mem_loadChild {fn : List UInt8} (children : AList fun _ : List UInt8 => ChildEntry J)
    (f : List UInt8 × Option ChildConfig) (h : fn ∈ children) : fn ∈ loadChild L children f := by
  rcases loadChild_cases L children f with he | ⟨c, -, he⟩ <;> rw [he]
  exacts [h, (AList.mem_insert _).2 (.inr h)]

/-- A kept file is a key of `children`, whatever the files after it are. -/
theorem mem_loadChildren {dir : List (List UInt8 × Option ChildConfig)} {fn : List UInt8}
    {c : ChildConfig} (hd : IsDesired dir fn c) : fn ∈ loadChildren L dir := by
  obtain ⟨s, t, rfl⟩ := List.append_of_mem hd.mem
  rw [loadChildren, List.foldl_append, List.foldl_cons]
  refine List.foldlRecOn (motive := (fn ∈ ·)) t _ _ ?_ fun ch h f _ => mem_loadChild L ch f h
  simp [loadChild, hd.stem_ne, hd.yaml, hd.daemon]

/-- A group's file is in `children`, with its config. -/
theorem lookup_loadChildren {dir : List (List UInt8 × Option ChildConfig)} {fn : List UInt8}
    {c : ChildConfig} (hd : IsDesired dir fn c) (hdir : (dir.map Prod.fst).Nodup) :
    (loadChildren L dir).lookup fn = some (childEntry L c) := by
  obtain ⟨s, t, rfl⟩ := List.append_of_mem hd.mem
  have hnot : fn ∉ t.map Prod.fst := by
    simp only [List.map_append, List.map_cons, List.nodup_append, List.nodup_cons] at hdir
    exact hdir.2.1.1
  rw [loadChildren, List.foldl_append, List.foldl_cons, lookup_foldl_loadChild_of_not_mem L t _ hnot]
  simp [loadChild, hd.stem_ne, hd.yaml, hd.daemon]

/-- Everything in `children` is a group of the listing. -/
theorem isDesired_of_lookup_loadChildren {dir : List (List UInt8 × Option ChildConfig)} {fn : List UInt8}
    {d : ChildEntry J} (h : (loadChildren L dir).lookup fn = some d) :
    ∃ c, IsDesired dir fn c ∧ d = childEntry L c := by
  refine List.foldlRecOn (motive := fun ch : AList (fun _ : List UInt8 => ChildEntry J) =>
      ∀ d, ch.lookup fn = some d → ∃ c, IsDesired dir fn c ∧ d = childEntry L c)
    dir (loadChild L) ∅ (by simp) (fun ch ih f hf d h => ?_) d h
  rcases loadChild_cases L ch f with he | ⟨c, hc, he⟩
  · exact ih d (he ▸ h)
  rw [he] at h
  by_cases hfn : f.1 = fn
  · rw [← hfn, AList.lookup_insert] at h
    cases h
    exact ⟨c, hfn ▸ hc.mono (List.cons_subset.2 ⟨hf, List.nil_subset _⟩), rfl⟩
  · exact ih d (by rwa [AList.lookup_insert_ne (Ne.symm hfn)] at h)

/-! ## Recovering old workers -/

section Recover

variable {children : AList fun _ : List UInt8 => ChildEntry J} {configFile : String}
  {mypid : Pid} {now : Timespec}

/-- The name the loop over `/proc` registers an entry under, if any. -/
def recoveredName (configFile : String) (mypid : Pid) (e : ProcEntry) : Option String :=
  match e.pid with
  | none => none
  | some _ => if isChild L e.stat mypid then (getName L e.cmdline configFile).map (·.1) else none

/-- `e` is the `/proc` entry of a child of `mypid` with pid `pid`, spawned by
`Child::command` from `rootBinary` for `name` with the config text
`serialized`. -/
structure Spawned (rootBinary globalFile : String) (mypid : Pid) (name serialized : String)
    (pid : Pid) (e : ProcEntry) : Prop where
  name_eq : e.name = toString pid
  pid_pos : 0 < pid
  pid_lt : pid < 2 ^ 31
  is_child : isChild L e.stat mypid = true
  cmdline_eq : e.cmdline = some (cmdline (childArgv rootBinary name globalFile serialized))

theorem Spawned.pid_eq {rootBinary name serialized : String} {pid : Pid} {e : ProcEntry}
    (hs : Spawned L rootBinary configFile mypid name serialized pid e) : e.pid = some pid := by
  rw [ProcEntry.pid, hs.name_eq, fromStrI32_toString hs.pid_pos.le hs.pid_lt]

/-- The record of a child adopted under `name`, with its group's current
config. -/
def adopted (name serialized : String) (pid : Pid) (now : Timespec) : Process TreeExecutor :=
  ⟨name, some pid, some now, Duration.seconds 1, .child name serialized⟩

variable {rootBinary stem : String} {c : ChildConfig}

section Spawned

variable (hbin : L.filename rootBinary = some "lithos_knot")
  (hnul : '\x00' ∉ rootBinary.toList ∧ '\x00' ∉ configFile.toList)
  (hne : stem.toList ≠ []) (hstem : ∀ x ∈ stem.toList, L.nameChar x = true)

include hbin hnul hne hstem

theorem getName_spawned {j : Nat} {pid : Pid} {e : ProcEntry}
    (hs : Spawned L rootBinary configFile mypid (instanceName stem j) (L.encode c) pid e) :
    getName L e.cmdline configFile =
      some (instanceName stem j, stem, (childEntry L c).json) := by
  rw [hs.cmdline_eq, getName_instance L j hbin ⟨hnul.1, hnul.2, L.encode_no_nul c⟩ hne hstem]
  simp only [childEntry, Option.map_eq_some']
  exact ⟨_, Option.eq_some_of_isSome (L.fromStr_encode c), rfl⟩

/-- **A spawned child is adopted.**  The entry of a child that `Child::command`
spawned for `stem.j` with the current config of the group `stem` registers it
under its name, with its pid and its group's config text, and sends nothing;
`j` may be any index, below the group's `instances` or not. -/
theorem recoverChild_spawned [DecidableEq J] {j : Nat} {pid : Pid} {e : ProcEntry}
    (hch : children.lookup (strBytes (stem ++ ".yaml")) = some (childEntry L c))
    (hs : Spawned L rootBinary configFile mypid (instanceName stem j) (L.encode c) pid e)
    (r : Recovery) :
    recoverChild L children configFile mypid now r e =
      ⟨r.mon.add (instanceName stem j) (.child (instanceName stem j) (L.encode c))
        (Duration.seconds 1) (some (pid, now)), r.sent⟩ := by
  have hg := getName_spawned L hbin hnul hne hstem hs
  simp only [recoverChild, hs.pid_eq, hs.is_child, if_true, hg, String.mk]
  simp [hch, childEntry]

theorem recoveredName_spawned {j : Nat} {pid : Pid} {e : ProcEntry}
    (hs : Spawned L rootBinary configFile mypid (instanceName stem j) (L.encode c) pid e) :
    recoveredName L configFile mypid e = some (instanceName stem j) := by
  simp [recoveredName, hs.pid_eq, hs.is_child, getName_spawned L hbin hnul hne hstem hs]

end Spawned

variable [DecidableEq J]

/-- **Every step of the loop over `/proc`**, for the monitor: nothing, or one
`add` of an adopted child under the name the entry is registered under. -/
theorem recoverChild_mon (r : Recovery) (e : ProcEntry) :
    (recoverChild L children configFile mypid now r e).mon = r.mon ∨
    ∃ name ex t pid, recoveredName L configFile mypid e = some name ∧
      (recoverChild L children configFile mypid now r e).mon =
        r.mon.add name ex t (some (pid, now)) := by
  unfold recoverChild
  split
  · exact .inl rfl
  · rename_i pid hpid
    split
    · rename_i hc
      split
      · exact .inl rfl
      · rename_i fullname childname current hg
        have hn : recoveredName L configFile mypid e = some fullname := by
          simp [recoveredName, hpid, hc, hg]
        split
        · exact .inr ⟨_, _, _, _, hn, rfl⟩
        · exact .inr ⟨_, _, _, _, hn, rfl⟩
    · exact .inl rfl

/-- **Every step of the loop over `/proc`**, for the signals: nothing, or
`SIGTERM` to the entry's own pid, which is a child of `mypid`. -/
theorem recoverChild_sent (r : Recovery) (e : ProcEntry) :
    (recoverChild L children configFile mypid now r e).sent = r.sent ∨
    ∃ pid, e.pid = some pid ∧ isChild L e.stat mypid = true ∧
      (recoverChild L children configFile mypid now r e).sent = r.sent ++ [pid] := by
  unfold recoverChild
  split
  · exact .inl rfl
  · rename_i pid hpid
    split
    · rename_i hc
      split
      · exact .inr ⟨pid, hpid, hc, rfl⟩
      · split
        · split
          · exact .inl rfl
          · exact .inr ⟨pid, hpid, hc, rfl⟩
        · exact .inr ⟨pid, hpid, hc, rfl⟩
    · exact .inl rfl

/-- A child `_get_name` cannot identify is sent `SIGTERM` and not registered. -/
theorem recoverChild_unnamed {r : Recovery} {e : ProcEntry} {pid : Pid} (hpid : e.pid = some pid)
    (hc : isChild L e.stat mypid = true) (hg : getName L e.cmdline configFile = none) :
    recoverChild L children configFile mypid now r e = { r with sent := r.sent ++ [pid] } := by
  simp [recoverChild, hpid, hc, hg]

/-! ### The whole loop

Each fold below is `List.foldlRecOn` over the one-step lemmas above. -/

theorem lookup_recoverChild_of_ne {n : String} (r : Recovery) {e : ProcEntry}
    (h : recoveredName L configFile mypid e ≠ some n) :
    (recoverChild L children configFile mypid now r e).mon.processes.lookup n =
      r.mon.processes.lookup n := by
  rcases recoverChild_mon L r e with hm | ⟨name, ex, t, pid, hn, hm⟩
  · rw [hm]
  · have hne : name ≠ n := fun hn' => h (hn' ▸ hn)
    rw [hm, Monitor.add_processes, AList.lookup_insert_ne (Ne.symm hne)]

theorem sent_subset_recoverChild (r : Recovery) (e : ProcEntry) :
    r.sent ⊆ (recoverChild L children configFile mypid now r e).sent := by
  rcases recoverChild_sent L r e with h | ⟨_, _, _, h⟩ <;> rw [h]
  · exact List.Subset.refl _
  · exact List.subset_append_left _ _

/-- The record of a name only one entry is registered under is what that
entry's step made. -/
theorem lookup_recover_unique {n : String} {e₀ : ProcEntry} {x : Process TreeExecutor}
    (hx : ∀ r, (recoverChild L children configFile mypid now r e₀).mon.processes.lookup n = some x)
    {procs : List ProcEntry} (h₀ : e₀ ∈ procs)
    (hu : ∀ e ∈ procs, recoveredName L configFile mypid e = some n → e = e₀) (r : Recovery) :
    (procs.foldl (recoverChild L children configFile mypid now) r).mon.processes.lookup n =
      some x := by
  obtain ⟨s, t, rfl⟩ := List.append_of_mem h₀
  rw [List.foldl_append, List.foldl_cons]
  refine List.foldlRecOn (motive := fun r : Recovery => r.mon.processes.lookup n = some x) t _ _ (hx _)
    fun r hr e he => ?_
  by_cases hn : recoveredName L configFile mypid e = some n
  · rw [hu e (by simp [he]) hn]; exact hx r
  · exact (lookup_recoverChild_of_ne L r hn).trans hr

/-- An entry whose step sends `p` a signal, whatever came before, leaves `p`
among the signalled pids. -/
theorem mem_sent_recover {p : Pid} {e : ProcEntry} {procs : List ProcEntry} (he : e ∈ procs)
    (h : ∀ r : Recovery, p ∈ (recoverChild L children configFile mypid now r e).sent)
    (r : Recovery) : p ∈ (procs.foldl (recoverChild L children configFile mypid now) r).sent := by
  obtain ⟨s, t, rfl⟩ := List.append_of_mem he
  rw [List.foldl_append, List.foldl_cons]
  exact List.foldlRecOn (motive := fun r : Recovery => p ∈ r.sent) t _ _ (h _)
    fun r hr e _ => sent_subset_recoverChild L r e hr

theorem startQueue_recover (procs : List ProcEntry) {r : Recovery} (h : r.mon.startQueue = []) :
    (procs.foldl (recoverChild L children configFile mypid now) r).mon.startQueue = [] :=
  List.foldlRecOn (motive := fun r : Recovery => r.mon.startQueue = []) procs
    (recoverChild L children configFile mypid now) _ h fun r hr e _ => by
    rcases recoverChild_mon L r e with hm | ⟨_, _, _, _, _, hm⟩ <;> rw [hm] <;> simp [hr]

end Recover

/-! ## Scheduling new workers -/

/-- A property that every step of a fold in `Option` keeps holds at its end. -/
theorem foldlM_option_rec {α β : Type} {motive : α → Prop} {f : α → β → Option α} :
    ∀ {l : List β} {a b : α}, l.foldlM f a = some b → motive a →
      (∀ x ∈ l, ∀ a a', motive a → f a x = some a' → motive a') → motive b
  | [], _, _, h, ha, _ => by cases h; exact ha
  | x :: l, a, b, h, ha, hs => by
    obtain ⟨a', h1, h2⟩ := Option.bind_eq_some.1 h
    exact foldlM_option_rec h2 (hs x (List.mem_cons_self _ _) a a' ha h1)
      fun y hy => hs y (List.mem_cons_of_mem _ hy)

theorem has_of_lookup {m : Monitor TreeExecutor} {n : String} {x : Process TreeExecutor}
    (h : m.processes.lookup n = some x) : m.has n = true := by
  simp [Monitor.has, h]

theorem lookup_scheduleInstance {serialized stem : String} {mon : Monitor TreeExecutor} (i : Nat)
    {n : String} {x : Process TreeExecutor} (h : mon.processes.lookup n = some x) :
    (scheduleInstance serialized stem mon i).processes.lookup n = some x := by
  unfold scheduleInstance
  split
  · exact h
  · rename_i hi
    have hne : instanceName stem i ≠ n := by rintro rfl; exact hi (has_of_lookup h)
    rw [Monitor.add_processes, AList.lookup_insert_ne (Ne.symm hne), h]

theorem has_scheduleInstance (serialized stem : String) (mon : Monitor TreeExecutor) (i : Nat) :
    (scheduleInstance serialized stem mon i).has (instanceName stem i) = true := by
  unfold scheduleInstance
  split
  · assumption
  · simp [Monitor.has]

theorem lookup_foldl_scheduleInstance {serialized stem : String} (ks : List Nat)
    {mon : Monitor TreeExecutor} {n : String} {x : Process TreeExecutor}
    (h : mon.processes.lookup n = some x) :
    (ks.foldl (scheduleInstance serialized stem) mon).processes.lookup n = some x :=
  List.foldlRecOn (motive := fun m : Monitor TreeExecutor => m.processes.lookup n = some x) ks _ _ h
    fun _ hm i _ => lookup_scheduleInstance i hm

theorem scheduleGroup_eq_some {mon m : Monitor TreeExecutor} {p : Σ _ : List UInt8, ChildEntry J} :
    scheduleGroup mon p = some m ↔ ∃ stem, filestemStr p.1 = some stem ∧
      m = (List.range p.2.cfg.instances).foldl (scheduleInstance p.2.serialized stem) mon := by
  simp only [scheduleGroup, Option.map_eq_some']
  constructor <;> rintro ⟨stem, hs, h⟩ <;> exact ⟨stem, hs, h.symm⟩

/-- Scheduling never changes a record that is already there. -/
theorem lookup_scheduleNew {children : AList fun _ : List UInt8 => ChildEntry J}
    {mon m : Monitor TreeExecutor} (hm : scheduleNew children mon = some m) {n : String}
    {x : Process TreeExecutor} (h : mon.processes.lookup n = some x) :
    m.processes.lookup n = some x :=
  foldlM_option_rec (motive := fun m : Monitor TreeExecutor => m.processes.lookup n = some x) hm h
    fun _ _ _ _ hm' hg => by
      obtain ⟨_, -, rfl⟩ := scheduleGroup_eq_some.1 hg
      exact lookup_foldl_scheduleInstance _ hm'

theorem has_mono {mon mon' : Monitor TreeExecutor}
    (h : ∀ n x, mon.processes.lookup n = some x → mon'.processes.lookup n = some x) {n : String}
    (hn : mon.has n = true) : mon'.has n = true := by
  obtain ⟨x, hx⟩ := Option.isSome_iff_exists.1 hn
  exact has_of_lookup (h n x hx)

/-- **The scheduling loop panics exactly at a stem that is not text.** -/
theorem isSome_scheduleNew (children : AList fun _ : List UInt8 => ChildEntry J)
    (mon : Monitor TreeExecutor) :
    (scheduleNew children mon).isSome ↔ ∀ p ∈ children.entries, (filestemStr p.1).isSome := by
  rw [scheduleNew]
  induction children.entries generalizing mon with
  | nil => simp
  | cons p ps ih =>
    rw [List.foldlM_cons, List.forall_mem_cons]
    cases h : filestemStr p.1 <;> simp [scheduleGroup, h, ih]

theorem has_scheduleGroup {mon m : Monitor TreeExecutor} {p : Σ _ : List UInt8, ChildEntry J}
    (hm : scheduleGroup mon p = some m) {stem : String} (hs : filestemStr p.1 = some stem) {i : Nat}
    (hi : i < p.2.cfg.instances) : m.has (instanceName stem i) := by
  obtain ⟨stem', hs', rfl⟩ := scheduleGroup_eq_some.1 hm
  obtain rfl : stem' = stem := Option.some.inj (hs'.symm.trans hs)
  obtain ⟨s, t, hl⟩ := List.append_of_mem (List.mem_range.2 hi)
  rw [hl, List.foldl_append, List.foldl_cons]
  exact has_mono (fun _ _ hx => lookup_foldl_scheduleInstance t hx) (has_scheduleInstance _ _ _ i)

/-- After scheduling, every instance of every group has a record. -/
theorem has_scheduleNew {children : AList fun _ : List UInt8 => ChildEntry J}
    {mon m : Monitor TreeExecutor} (hm : scheduleNew children mon = some m)
    {p : Σ _ : List UInt8, ChildEntry J} (hp : p ∈ children.entries) {stem : String}
    (hs : filestemStr p.1 = some stem) {i : Nat} (hi : i < p.2.cfg.instances) :
    m.has (instanceName stem i) := by
  obtain ⟨s, t, hl⟩ := List.append_of_mem hp
  rw [scheduleNew, hl, List.foldlM_append] at hm
  obtain ⟨m₁, -, hm⟩ := Option.bind_eq_some.1 hm
  obtain ⟨m₂, h₂, hm⟩ := Option.bind_eq_some.1 hm
  exact foldlM_option_rec (motive := fun m' : Monitor TreeExecutor => m'.has (instanceName stem i))
    hm (has_scheduleGroup h₂ hs hi) fun _ _ _ _ hm' hg => by
      obtain ⟨_, -, rfl⟩ := scheduleGroup_eq_some.1 hg
      exact has_mono (fun _ _ hx => lookup_foldl_scheduleInstance _ hx) hm'

/-- When every instance already has a record, scheduling adds nothing. -/
theorem scheduleNew_eq_self {children : AList fun _ : List UInt8 => ChildEntry J}
    {mon m : Monitor TreeExecutor} (hm : scheduleNew children mon = some m)
    (h : ∀ p ∈ children.entries, ∀ stem, filestemStr p.1 = some stem →
      ∀ i < p.2.cfg.instances, mon.has (instanceName stem i) = true) :
    m = mon :=
  (foldlM_option_rec (motive := (· = mon)) hm rfl fun p hp _ _ hm' hg => by
    obtain ⟨stem, hs, rfl⟩ := scheduleGroup_eq_some.1 hg
    subst hm'
    exact List.foldlRecOn (motive := (· = _)) _ _ _ rfl fun _ hm i hi => by
      rw [hm, scheduleInstance, if_pos (h p hp stem hs i (List.mem_range.1 hi))])

/-- The monitor `reconcile` leaves is the scheduling loop's, with reboots
allowed. -/
theorem reconcile_mon_eq_some [DecidableEq J] {L : Libs J} {configFile : String} {mypid : Pid}
    {now : Timespec} {dir : List (List UInt8 × Option ChildConfig)} {procs : List ProcEntry}
    {stateDirs : List (List UInt8)} {m : Monitor TreeExecutor} :
    (reconcile L configFile mypid now dir procs stateDirs).mon = some m ↔
      ∃ m', scheduleNew (loadChildren L dir)
          (recoverAll L (loadChildren L dir) configFile mypid now procs).mon = some m' ∧
        m = { m' with allowReboot := true } := by
  simp only [reconcile, Option.map_eq_some']
  constructor <;> rintro ⟨m', h, rfl⟩ <;> exact ⟨m', h, rfl⟩

end Lithos
