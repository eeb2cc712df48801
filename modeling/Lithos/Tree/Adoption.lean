import Lithos.Tree.Reconcile

/-!
# What the reconciliation guarantees, and where it does not

`Lithos.Tree.Reconcile` says what each loop of `run` does to one entry.  This
file puts the loops together.

## A reboot disturbs no child it spawned

`spawned_children_adopted`: take config groups whose stems are text, runs of
`[\w-]`, and a `/proc` with, for every instance `stem.i` of every group, a
direct child that `Child::command` spawned for it with the group's current
config.  If no
two entries identify as the same name and no two have the same pid, then every
one of those children is registered under its own name with its pid, none is
sent `SIGTERM`, `run` reaches `mon.run()` (`isSome_reconcile_mon`), and no
start is queued.  It rests on three facts:

* `lookup_recoverAll_spawned`: the record of such a child after the loop over
  `/proc` is the one its own step made, since no other step touches that name;
* `not_mem_sent_recoverAll`: no step sends its pid anything;
* `scheduleNew_eq_self`: scheduling adds nothing when every instance has a
  record.

## Where it does not

* A stem with a `.` in it (`web.v2.yaml`) makes instance names `_get_name` does
  not accept, so each of its children is sent `SIGTERM` on every reboot
  (`reconcile_signals_dotted`), and `dotted_stem_counterexample` is such a run.
* The loop over `/proc` looks up only the group's file, never the index: a
  child spawned for `web.5` while `web.yaml` asks for one instance is adopted
  and not signalled (`reconcile_adopts` holds for every index), as
  `out_of_range_child_adopted` shows.
-/

namespace Lithos

variable {J : Type} (L : Libs J)

section
variable {configFile : String} {mypid : Pid} {now : Timespec}
  {dir : List (List UInt8 × Option ChildConfig)} {procs : List ProcEntry}
  {stateDirs : List (List UInt8)} {rootBinary : String} {fn : List UInt8} {stem : String}
  {c : ChildConfig}

theorem stem_toList_ne_nil (hd : IsDesired dir fn c) (hfs : filestemStr fn = some stem) :
    stem.toList ≠ [] :=
  fun h => hd.stem_ne (hfs.trans (congrArg some (String.ext h)))

theorem lookup_loadChildren_stem (hd : IsDesired dir fn c) (hdir : (dir.map Prod.fst).Nodup)
    (hfs : filestemStr fn = some stem) :
    (loadChildren L dir).lookup (strBytes (stem ++ ".yaml")) = some (childEntry L c) := by
  rw [strBytes_stem_yaml hfs hd.yaml]
  exact lookup_loadChildren L hd hdir

/-- The keys of `children` are the kept files. -/
theorem mem_entries_loadChildren {p : Σ _ : List UInt8, ChildEntry J}
    (hp : p ∈ (loadChildren L dir).entries) : ∃ c, IsDesired dir p.1 c :=
  (isDesired_of_lookup_loadChildren L (AList.mem_lookup_iff.2 hp)).imp fun _ h => h.1

/-- **`lithos_tree` reaches `mon.run()` exactly when the stem of every kept
config file is text.**  Otherwise `path.filestem_str().unwrap()` panics in the
scheduling loop, after the signals are sent and the state directories removed:
a file whose stem is not UTF-8 is still kept, since `filestem_str` answers
`None` and not `Some("")`. -/
theorem isSome_reconcile_mon [DecidableEq J] :
    (reconcile L configFile mypid now dir procs stateDirs).mon.isSome ↔
      ∀ fn c, IsDesired dir fn c → (filestemStr fn).isSome := by
  rw [reconcile, Option.isSome_map', isSome_scheduleNew]
  constructor
  · intro h fn c hd
    obtain ⟨d, hd'⟩ := AList.lookup_isSome.2 (mem_loadChildren L hd) |> Option.isSome_iff_exists.1
    exact h ⟨fn, d⟩ (AList.mem_lookup_iff.1 hd')
  · intro h p hp
    obtain ⟨c, hd⟩ := mem_entries_loadChildren L hp
    exact h p.1 c hd

variable [DecidableEq J]

section Spawned

variable (hd : IsDesired dir fn c) (hdir : (dir.map Prod.fst).Nodup)
  (hbin : L.filename rootBinary = some "lithos_knot")
  (hnul : '\x00' ∉ rootBinary.toList ∧ '\x00' ∉ configFile.toList)
  (hfs : filestemStr fn = some stem) (hstem : ∀ x ∈ stem.toList, L.nameChar x = true)
  {j : Nat} {p : Pid} {e : ProcEntry} (he : e ∈ procs)
  (hs : Spawned L rootBinary configFile mypid (instanceName stem j) (L.encode c) p e)

include hd hdir hbin hnul hfs hstem he hs

/-- After the loop over `/proc`, a spawned child that is the only entry
identifying as its name has the record its own step made. -/
theorem lookup_recoverAll_spawned
    (hone : ∀ e' ∈ procs, recoveredName L configFile mypid e' = some (instanceName stem j) →
      e' = e) :
    (recoverAll L (loadChildren L dir) configFile mypid now procs).mon.processes.lookup
      (instanceName stem j) = some (adopted (instanceName stem j) (L.encode c) p now) :=
  lookup_recover_unique L (fun r => by
    rw [recoverChild_spawned L hbin hnul (stem_toList_ne_nil hd hfs) hstem
      (lookup_loadChildren_stem L hd hdir hfs) hs r]
    simp [adopted]) he hone _

/-- No step of the loop over `/proc` sends `SIGTERM` to a spawned child's pid,
when no other entry has it. -/
theorem not_mem_sent_recoverAll (hpid : ∀ e' ∈ procs, e'.pid = some p → e' = e) :
    p ∉ (recoverAll L (loadChildren L dir) configFile mypid now procs).sent := by
  refine List.foldlRecOn (motive := fun r : Recovery => p ∉ r.sent) procs _ _ (List.not_mem_nil p)
    fun r hr e' he' => ?_
  by_cases hee : e' = e
  · subst hee
    rw [recoverChild_spawned L hbin hnul (stem_toList_ne_nil hd hfs) hstem
      (lookup_loadChildren_stem L hd hdir hfs) hs r]
    exact hr
  · rcases recoverChild_sent L r e' with h | ⟨q, hq, -, h⟩
    · rw [h]; exact hr
    · have hqp : q ≠ p := fun hqp => hee (hpid e' he' (hqp ▸ hq))
      rw [h, List.mem_append, List.mem_singleton, not_or]
      exact ⟨hr, Ne.symm hqp⟩

/-- **A spawned child is adopted, whatever its index.**  A child that
`Child::command` spawned for instance `j` of a group, with the group's current
config, is registered under its name with its pid in the monitor `run`
starts, and is not sent `SIGTERM`, when no other entry identifies as that name
or has that pid.  Nothing asks `j` to be below the group's `instances`. -/
theorem reconcile_adopts
    (hone : ∀ e' ∈ procs, recoveredName L configFile mypid e' = some (instanceName stem j) →
      e' = e)
    (hpid : ∀ e' ∈ procs, e'.pid = some p → e' = e) :
    (∀ m, (reconcile L configFile mypid now dir procs stateDirs).mon = some m →
      m.processes.lookup (instanceName stem j) =
        some (adopted (instanceName stem j) (L.encode c) p now)) ∧
    p ∉ (reconcile L configFile mypid now dir procs stateDirs).sent := by
  refine ⟨fun m hm => ?_, not_mem_sent_recoverAll L hd hdir hbin hnul hfs hstem he hs hpid⟩
  obtain ⟨m', hm', rfl⟩ := reconcile_mon_eq_some.1 hm
  exact lookup_scheduleNew hm' (lookup_recoverAll_spawned L hd hdir hbin hnul hfs hstem he hs hone)

end Spawned

/-- **A stem with a `.` is never recovered.**  The pid of a child spawned for
`stem.j` is sent `SIGTERM` when the stem has a `.` in it. -/
theorem reconcile_signals_dotted {serialized : String} (hdot : '.' ∈ stem.toList)
    (hnulStem : '\x00' ∉ stem.toList) (hnulText : '\x00' ∉ serialized.toList)
    (hbin : L.filename rootBinary = some "lithos_knot")
    (hnul : '\x00' ∉ rootBinary.toList ∧ '\x00' ∉ configFile.toList)
    {j : Nat} {p : Pid} {e : ProcEntry} (he : e ∈ procs)
    (hs : Spawned L rootBinary configFile mypid (instanceName stem j) serialized p e)
    (hparse : (L.fromStr serialized).isSome) :
    p ∈ (reconcile L configFile mypid now dir procs stateDirs).sent := by
  obtain ⟨json, hjson⟩ := Option.isSome_iff_exists.1 hparse
  have hr : readArgs L e.cmdline configFile = some (instanceName stem j, json) := by
    rw [hs.cmdline_eq, readArgs_cmdline L hbin hnul.1 (nul_not_mem_instanceName j hnulStem) hnul.2
      hnulText, hjson]
    rfl
  refine mem_sent_recover L he (fun r => ?_) _
  rw [recoverChild_unnamed L hs.pid_eq hs.is_child (getName_dotted L j hdot hr)]
  exact List.mem_append_right _ (List.mem_singleton_self p)

end

variable [DecidableEq J]

/-- **A reboot disturbs no child it spawned.**  Let the stem of every config
group be text, a nonempty run of `[\w-]`, and let `/proc` hold, for every
instance `stem.i` of every group, a direct child that `Child::command` spawned
for it with the group's current config; let no two entries identify as the same
name or have the same pid.  Then `run` reaches `mon.run()`, no start is queued,
and each of those children is registered under its own name with its pid and
its group's config, and is not sent `SIGTERM`. -/
theorem spawned_children_adopted (rootBinary configFile : String) (mypid : Pid) (now : Timespec)
    (dir : List (List UInt8 × Option ChildConfig)) (procs : List ProcEntry)
    (stateDirs : List (List UInt8))
    (hbin : L.filename rootBinary = some "lithos_knot")
    (hnul : '\x00' ∉ rootBinary.toList ∧ '\x00' ∉ configFile.toList)
    (hdir : (dir.map Prod.fst).Nodup)
    (hstem : ∀ fn c, IsDesired dir fn c →
      ∃ stem, filestemStr fn = some stem ∧ ∀ x ∈ stem.toList, L.nameChar x = true)
    (hlive : ∀ fn c, IsDesired dir fn c → ∀ stem, filestemStr fn = some stem →
      ∀ i < c.instances, ∃ p, ∃ e ∈ procs,
        Spawned L rootBinary configFile mypid (instanceName stem i) (L.encode c) p e)
    (hone : ∀ e ∈ procs, ∀ e' ∈ procs, (recoveredName L configFile mypid e).isSome →
      recoveredName L configFile mypid e = recoveredName L configFile mypid e' → e = e')
    (hpid : ∀ e ∈ procs, ∀ e' ∈ procs, e.pid.isSome → e.pid = e'.pid → e = e') :
    ∃ m, (reconcile L configFile mypid now dir procs stateDirs).mon = some m ∧
    m.startQueue = [] ∧
    ∀ fn c, IsDesired dir fn c → ∀ stem, filestemStr fn = some stem → ∀ i < c.instances, ∀ p,
      ∀ e ∈ procs, Spawned L rootBinary configFile mypid (instanceName stem i) (L.encode c) p e →
      m.processes.lookup (instanceName stem i) =
        some (adopted (instanceName stem i) (L.encode c) p now) ∧
      p ∉ (reconcile L configFile mypid now dir procs stateDirs).sent := by
  have hstem' : ∀ fn c, IsDesired dir fn c → ∀ stem, filestemStr fn = some stem →
      ∀ x ∈ stem.toList, L.nameChar x = true := fun fn c hd stem hfs => by
    obtain ⟨stem', hfs', h⟩ := hstem fn c hd
    rwa [Option.some.inj (hfs.symm.trans hfs')]
  have hone' : ∀ fn c, IsDesired dir fn c → ∀ stem, filestemStr fn = some stem → ∀ i p,
      ∀ e ∈ procs, Spawned L rootBinary configFile mypid (instanceName stem i) (L.encode c) p e →
      ∀ e' ∈ procs, recoveredName L configFile mypid e' = some (instanceName stem i) → e' = e :=
    fun fn c hd stem hfs i p e he hs e' he' hn => hone e' he' e he (by simp [hn]) (by
      rw [hn, recoveredName_spawned L hbin hnul (stem_toList_ne_nil hd hfs) (hstem' fn c hd stem hfs)
        hs])
  have hpid' : ∀ p, ∀ e ∈ procs, e.pid = some p → ∀ e' ∈ procs, e'.pid = some p → e' = e :=
    fun p e he hp e' he' hq => hpid e' he' e he (by simp [hq]) (hq.trans hp.symm)
  obtain ⟨m, hm⟩ := Option.isSome_iff_exists.1 ((isSome_reconcile_mon L).2 fun fn c hd => by
    obtain ⟨stem, hfs, -⟩ := hstem fn c hd
    simp [hfs])
  refine ⟨m, hm, ?_, fun fn c hd stem hfs i _ p e he hs =>
    (reconcile_adopts L hd hdir hbin hnul hfs (hstem' fn c hd stem hfs) he hs
      (hone' fn c hd stem hfs i p e he hs) (hpid' p e he hs.pid_eq)).imp_left fun h => h m hm⟩
  obtain ⟨m', hm', rfl⟩ := reconcile_mon_eq_some.1 hm
  show m'.startQueue = []
  rw [scheduleNew_eq_self hm']
  · exact startQueue_recover L procs rfl
  · intro ⟨fn, d⟩ hq stem hfs i hi
    obtain ⟨c, hd, hqc⟩ := isDesired_of_lookup_loadChildren L (AList.mem_lookup_iff.2 hq)
    subst hqc
    obtain ⟨p, e, he, hs⟩ := hlive _ c hd stem hfs i hi
    exact has_of_lookup (lookup_recoverAll_spawned L hd hdir hbin hnul hfs (hstem' _ c hd stem hfs)
      he hs (hone' _ c hd stem hfs i p e he hs))

/-! ## Runs on fixed inputs -/

/-- A library to run the reconciliation on fixed inputs: the ASCII parts of the
regex classes, an encoder that writes `{}` for every config, and a parser that
keeps the text. -/
def Libs.sample : Libs String where
  encode _ := "\x7b\x7d"
  fromStr s := some s
  word c := c.isAlphanum || c == '_'
  digit c := c.isDigit
  space c := c == ' '
  filename s := some (String.mk (s.toList.reverse.takeWhile (· != '/')).reverse)
  fromStr_encode _ := rfl
  encode_no_nul _ := show '\x00' ∉ "\x7b\x7d".toList by decide
  word_dot := rfl
  word_nul := rfl
  word_of_digit c h := by simp [Char.isAlphanum, h]
  digit_ascii _ h := h

/-- **A task name with a `)` moves the parent pid.**  The pattern's
`\([^)]*\)` ends at the first `)` of the name.  A child of pid 1 named `a) b`
is not a child for `_is_child`; a process whose parent is 999, named `x) R 1 `,
is one.  Both names are within the kernel's 15 bytes, and the sample's classes
are the Unicode ones on these ASCII texts. -/
theorem comm_paren_misreads_ppid :
    isChild Libs.sample (some (statLine 100 "a) b" 'S' 1 "1 1 0")) 1 = false ∧
    isChild Libs.sample (some (statLine 200 "x) R 1 " 'S' 999 "999 999 0")) 1 = true := by
  decide

/-- A group of one instance. -/
def webConfig : ChildConfig := ⟨1, "web", "/config/web.yaml", [], .daemon⟩

/-- The `/proc` entry of a child of pid 1, spawned with pid `pid` for `name`
from `/usr/bin/lithos_knot` with the global config `/etc/lithos/tree.yaml`. -/
def sampleChild (pid : Pid) (name : String) : ProcEntry :=
  ⟨toString pid, some (toString pid ++ " (lithos_knot) S 1 0 0"),
    some (cmdline (childArgv "/usr/bin/lithos_knot" name "/etc/lithos/tree.yaml" "\x7b\x7d"))⟩

theorem sampleChild_spawned (pid : Pid) (name : String) (h0 : 0 < pid) (h1 : pid < 2 ^ 31)
    (hc : isChild Libs.sample (sampleChild pid name).stat 1 = true) :
    Spawned Libs.sample "/usr/bin/lithos_knot" "/etc/lithos/tree.yaml" 1 name "\x7b\x7d" pid
      (sampleChild pid name) :=
  ⟨rfl, h0, h1, hc, rfl⟩

theorem isDesired_singleton {f fn : List UInt8} {c₀ c : ChildConfig}
    (hd : IsDesired [(f, some c₀)] fn c) : fn = f ∧ c = c₀ := by
  simpa using hd.mem

/-- A `/proc` with one spawned child for the one instance of a one-group
directory has a child for every instance. -/
theorem live_singleton {f : List UInt8} {stem : String} (hf : filestemStr f = some stem)
    {e : ProcEntry}
    (hs : Spawned Libs.sample "/usr/bin/lithos_knot" "/etc/lithos/tree.yaml" 1
      (instanceName stem 0) "\x7b\x7d" 100 e) :
    ∀ fn c, IsDesired [(f, some webConfig)] fn c → ∀ stem', filestemStr fn = some stem' →
      ∀ i < c.instances, ∃ p, ∃ e' ∈ [e], Spawned Libs.sample "/usr/bin/lithos_knot"
        "/etc/lithos/tree.yaml" 1 (instanceName stem' i) (Libs.sample.encode c) p e' := by
  intro fn c hd stem' hfs i hi
  obtain ⟨rfl, rfl⟩ := isDesired_singleton hd
  obtain rfl : stem' = stem := Option.some.inj (hfs.symm.trans hf)
  obtain rfl : i = 0 := by simpa [webConfig] using hi
  exact ⟨100, e, List.mem_singleton_self _, hs⟩

/-- The adoption at `web.yaml` with its one child `web.0` running. -/
theorem spawned_children_adopted_web :
    ∃ m, (reconcile Libs.sample "/etc/lithos/tree.yaml" 1 ⟨0⟩
        [(strBytes "web.yaml", some webConfig)] [sampleChild 100 (instanceName "web" 0)] []).mon =
      some m ∧ m.startQueue = [] ∧
      m.processes.lookup (instanceName "web" 0) =
        some (adopted (instanceName "web" 0) "\x7b\x7d" 100 ⟨0⟩) := by
  have hf : filestemStr (strBytes "web.yaml") = some "web" := by decide
  have hs := sampleChild_spawned 100 (instanceName "web" 0) (by decide) (by decide) (by decide)
  have hd : IsDesired [(strBytes "web.yaml", some webConfig)] (strBytes "web.yaml") webConfig :=
    ⟨List.mem_singleton_self _, by decide, by decide, rfl⟩
  obtain ⟨m, hm, hq, hall⟩ := spawned_children_adopted Libs.sample "/usr/bin/lithos_knot"
    "/etc/lithos/tree.yaml" 1 ⟨0⟩ [(strBytes "web.yaml", some webConfig)]
    [sampleChild 100 (instanceName "web" 0)] [] (by decide) (by decide) (by decide)
    (fun fn c hd' => by
      obtain ⟨rfl, rfl⟩ := isDesired_singleton hd'
      exact ⟨"web", hf, by decide⟩)
    (live_singleton hf hs) (by simp) (by simp)
  exact ⟨m, hm, hq, (hall _ _ hd "web" hf 0 (by decide) 100 _ (List.mem_singleton_self _) hs).1⟩

/-- **A reboot signals the children of a dotted stem.**  With the group
`web.v2.yaml` and its one child `web.v2.0` running as it was spawned, every
condition of the adoption holds except that the stem is a run of `[\w-]`, and
the child is sent `SIGTERM`. -/
theorem dotted_stem_counterexample :
    ¬ ∀ (rootBinary configFile : String) (mypid : Pid) (now : Timespec)
        (dir : List (List UInt8 × Option ChildConfig)) (procs : List ProcEntry)
        (stateDirs : List (List UInt8)),
      Libs.sample.filename rootBinary = some "lithos_knot" →
      '\x00' ∉ rootBinary.toList ∧ '\x00' ∉ configFile.toList →
      (dir.map Prod.fst).Nodup →
      (∀ fn c, IsDesired dir fn c → ∀ stem, filestemStr fn = some stem →
        ∀ i < c.instances, ∃ p, ∃ e ∈ procs,
          Spawned Libs.sample rootBinary configFile mypid (instanceName stem i)
            (Libs.sample.encode c) p e) →
      (∀ e ∈ procs, ∀ e' ∈ procs, (recoveredName Libs.sample configFile mypid e).isSome →
        recoveredName Libs.sample configFile mypid e =
          recoveredName Libs.sample configFile mypid e' → e = e') →
      (∀ e ∈ procs, ∀ e' ∈ procs, e.pid.isSome → e.pid = e'.pid → e = e') →
      ∃ m, (reconcile Libs.sample configFile mypid now dir procs stateDirs).mon = some m ∧
      m.startQueue = [] ∧
      ∀ fn c, IsDesired dir fn c → ∀ stem, filestemStr fn = some stem → ∀ i < c.instances, ∀ p,
        ∀ e ∈ procs, Spawned Libs.sample rootBinary configFile mypid (instanceName stem i)
          (Libs.sample.encode c) p e →
        m.processes.lookup (instanceName stem i) =
          some (adopted (instanceName stem i) (Libs.sample.encode c) p now) ∧
        p ∉ (reconcile Libs.sample configFile mypid now dir procs stateDirs).sent := by
  intro h
  have hf : filestemStr (strBytes "web.v2.yaml") = some "web.v2" := by decide
  have hs := sampleChild_spawned 100 (instanceName "web.v2" 0) (by decide) (by decide) (by decide)
  have hd : IsDesired [(strBytes "web.v2.yaml", some webConfig)] (strBytes "web.v2.yaml")
      webConfig :=
    ⟨List.mem_singleton_self _, by decide, by decide, rfl⟩
  obtain ⟨m, -, -, hall⟩ := h "/usr/bin/lithos_knot" "/etc/lithos/tree.yaml" 1 ⟨0⟩
    [(strBytes "web.v2.yaml", some webConfig)] [sampleChild 100 (instanceName "web.v2" 0)]
    [] (by decide) (by decide) (by decide) (live_singleton hf hs) (by simp) (by simp)
  exact (hall _ _ hd "web.v2" hf 0 (by decide) 100 _ (List.mem_singleton_self _) hs).2
    (reconcile_signals_dotted Libs.sample (by decide) (by decide) (by decide) (by decide)
      (by decide) (List.mem_singleton_self _) hs rfl)

/-- **A child with an index out of range is adopted.**  `web.yaml` asks for one
instance, and a child spawned for `web.5` with the current config is running:
it is registered under `web.5` with its pid in the monitor `run` starts, and is
not sent `SIGTERM`. -/
theorem out_of_range_child_adopted :
    ∃ m, (reconcile Libs.sample "/etc/lithos/tree.yaml" 1 ⟨0⟩
        [(strBytes "web.yaml", some webConfig)] [sampleChild 100 "web.5"] []).mon = some m ∧
      m.processes.lookup "web.5" = some (adopted "web.5" "\x7b\x7d" 100 ⟨0⟩) ∧
    100 ∉ (reconcile Libs.sample "/etc/lithos/tree.yaml" 1 ⟨0⟩
        [(strBytes "web.yaml", some webConfig)] [sampleChild 100 "web.5"] []).sent ∧
    webConfig.instances ≤ 5 := by
  have hf : filestemStr (strBytes "web.yaml") = some "web" := by decide
  have hd : IsDesired [(strBytes "web.yaml", some webConfig)] (strBytes "web.yaml") webConfig :=
    ⟨List.mem_singleton_self _, by decide, by decide, rfl⟩
  have hname : instanceName "web" 5 = "web.5" := by decide
  have hs := sampleChild_spawned 100 (instanceName "web" 5) (by decide) (by decide) (by decide)
  obtain ⟨hlookup, hsent⟩ := reconcile_adopts Libs.sample hd (by decide) (by decide) (by decide) hf
    (by decide) (List.mem_singleton_self _) hs (by simp) (by simp)
  obtain ⟨m, hm⟩ : ∃ m, (reconcile Libs.sample "/etc/lithos/tree.yaml" 1 ⟨0⟩
      [(strBytes "web.yaml", some webConfig)] [sampleChild 100 (instanceName "web" 5)] []).mon =
        some m :=
    Option.isSome_iff_exists.1 ((isSome_reconcile_mon Libs.sample).2 fun fn c hd' => by
      obtain ⟨rfl, rfl⟩ := isDesired_singleton hd'
      simp [hf])
  rw [← hname]
  exact ⟨m, hm, hlookup m hm, hsent, by decide⟩

end Lithos
