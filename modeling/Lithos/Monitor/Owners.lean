import Lithos.Monitor.Tables

/-!
# One instance, one child

Count, for an instance `n`, the entries of the start queue that name it and the
live children that run for it.  `Owners` says the sum is at most one in every
state: an instance is either waiting to start or running in one child, never
both and never twice.  Two facts about the environment make it hold, and both
are in `Sys.step`: an exit is reported once and only for a live child, and a
pid is not handed out while a live child holds it.  The one fact about the code
it needs is that `pids` never sends an exit to the wrong instance
(`Owners.pids`): `pids[p]` is overwritten whenever `p` is handed out again, so a
live child's entry, when it has one, names the instance it runs for.

`no_two_children` is the result.  The same bookkeeping shows two things the
code gets wrong, stated after it:

* `add` with a current pid never files the pid in `pids`, so when an adopted
  child exits, the `Child` branch does not know it and its instance is never
  queued again (`Forgotten`, `adopted_child_exit_unsupervised`);
* the `Child` branch queues a restart but leaves `current_pid` on the dead
  pid, so a `Terminate` that comes before the restart signals that pid and the
  shut down loop waits for it forever (`shutdown_waits_forever`,
  `stale_pid_blocks_shutdown`).
-/

namespace Lithos

variable {ε : Type}

/-- How many live children run for instance `n`. -/
def owned (live : List Child) (n : String) : Nat := (live.map Child.owner).count (some n)

@[simp] theorem owned_nil (n : String) : owned [] n = 0 := rfl

@[simp] theorem owned_cons (c : Child) (live : List Child) (n : String) :
    owned (c :: live) n = owned live n + if c.owner = some n then 1 else 0 := by
  simp [owned, List.count_cons]

theorem owned_append (l₁ l₂ : List Child) (n : String) :
    owned (l₁ ++ l₂) n = owned l₁ n + owned l₂ n := by
  simp [owned, List.count_append]

theorem mem_reap {live : List Child} {p : Pid} {c : Child} :
    c ∈ Sys.reap live p ↔ c ∈ live ∧ c.pid ≠ p := by
  simp [Sys.reap]

theorem reap_cons (x : Child) (live : List Child) (p : Pid) :
    Sys.reap (x :: live) p = if x.pid = p then Sys.reap live p else x :: Sys.reap live p := by
  by_cases h : x.pid = p <;> simp [Sys.reap, List.filter_cons, h]

theorem reap_of_not_mem {live : List Child} {p : Pid} (h : p ∉ live.map Child.pid) :
    Sys.reap live p = live :=
  List.filter_eq_self.2 fun y hy => by
    have : y.pid ≠ p := fun he => h (he ▸ List.mem_map_of_mem _ hy)
    simpa using this

theorem nodup_reap {live : List Child} (h : (live.map Child.pid).Nodup) (p : Pid) :
    ((Sys.reap live p).map Child.pid).Nodup :=
  (List.filter_sublist _).map _ |>.nodup h

/-- Reaping a child takes exactly it off the count of its instance. -/
theorem owned_reap {live : List Child} (h : (live.map Child.pid).Nodup) {c : Child}
    (hc : c ∈ live) (n : String) :
    owned (Sys.reap live c.pid) n + (if c.owner = some n then 1 else 0) = owned live n := by
  induction live with
  | nil => cases hc
  | cons x live ih =>
    rw [List.map_cons, List.nodup_cons] at h
    rcases List.mem_cons.1 hc with rfl | hc
    · rw [reap_cons, if_pos rfl, reap_of_not_mem h.1, owned_cons]
    · have hne : x.pid ≠ c.pid := fun he => h.1 (he ▸ List.mem_map_of_mem _ hc)
      rw [reap_cons, if_neg hne, owned_cons, owned_cons, ← ih h.2 hc]
      omega

theorem owned_reap_le {live : List Child} (p : Pid) (n : String) :
    owned (Sys.reap live p) n ≤ owned live n :=
  ((List.filter_sublist _).map _).count_le _

/-- What keeps one instance to one child. -/
structure Owners (s : Sys ε) : Prop where
  /-- The kernel's pids are distinct. -/
  nodup : (s.live.map Child.pid).Nodup
  /-- A live child's entry in `pids`, when it has one, names its instance. -/
  pids : ∀ c ∈ s.live, s.mon.pids.lookup c.pid = none ∨ s.mon.pids.lookup c.pid = c.owner
  /-- An instance is queued once, or runs in one child, or neither. -/
  once : ∀ n, StartQueue.queued s.mon.startQueue n + owned s.live n ≤ 1

namespace Owners

variable {s s' : Sys ε}

theorem congr (ho : Owners s) (hm : s'.mon = s.mon) (hl : s'.live = s.live) : Owners s' := by
  obtain ⟨h1, h2, h3⟩ := ho
  exact ⟨hl ▸ h1, hm ▸ hl ▸ h2, hm ▸ hl ▸ h3⟩

theorem of_reap (ho : Owners s) {p : Pid} (hm : s'.mon = s.mon) (hl : s'.live = Sys.reap s.live p) :
    Owners s' where
  nodup := hl ▸ nodup_reap ho.nodup p
  pids c hc := hm ▸ ho.pids c (mem_reap.1 (hl ▸ hc)).1
  once n := hm ▸ hl ▸ (Nat.add_le_add_left (owned_reap_le p n) _).trans (ho.once n)

/-- A pass of `_start_processes` keeps `Owners`: the instance it pops is
queued, so by `once` no live child runs for it, and a spawn makes one. -/
theorem startPass (ho : Owners s) (ht : Tables s.mon) {time : Timespec} {r : Spawn}
    {e : Entry} {m : Monitor ε} (hm : s.mon.startPass time r = .next e m) :
    (∀ pid started, r = .ok pid started → pid ∉ s.livePids →
      Owners { s with mon := m, live := ⟨pid, some e.2⟩ :: s.live }) ∧
    (r = .err → Owners { s with mon := m }) := by
  obtain ⟨prc, he, hprc, hok | herr⟩ := Monitor.startPass_eq_next hm
  · obtain ⟨pid, started, rfl, rfl⟩ := hok
    have hname := ht.name_eq _ _ hprc
    refine ⟨fun pid' started' hr hfresh => ?_, nofun⟩
    cases hr
    refine ⟨List.nodup_cons.2 ⟨hfresh, ho.nodup⟩, fun c hc => ?_, fun n => ?_⟩
    · rcases List.mem_cons.1 hc with rfl | hc
      · exact .inr (by simp [AList.lookup_insert, hname])
      · have hne : c.pid ≠ pid := fun h => hfresh (h ▸ List.mem_map_of_mem _ hc)
        simpa [AList.lookup_insert_ne hne] using ho.pids c hc
    · have := StartQueue.queued_erase (StartQueue.dueTop_mem he) n
      have := ho.once n
      simp only [owned_cons, Option.some.injEq]
      omega
  · obtain ⟨rfl, rfl⟩ := herr
    refine ⟨nofun, fun _ => ⟨ho.nodup, ho.pids, fun n => ?_⟩⟩
    have := StartQueue.queued_erase (StartQueue.dueTop_mem he) n
    have := ho.once n
    simp only [StartQueue.queued_cons]
    omega

/-- The `Child` branch keeps `Owners`: the exit of a child the monitor spawned
moves its instance from running to queued. -/
theorem onChild (ho : Owners s) (ht : Tables s.mon) {pid : Pid} (hpid : pid ∈ s.livePids)
    {m : Monitor ε} (hm : s.mon.onChild pid = some m) :
    Owners { s with mon := m, live := Sys.reap s.live pid } := by
  obtain ⟨c, hc, rfl⟩ := List.mem_map.1 hpid
  obtain ⟨-, rfl⟩ | ⟨n, prc, started, hn, hprc, -, rfl⟩ := Monitor.onChild_eq_some hm
  · exact ho.of_reap rfl rfl
  · have hown : c.owner = some n := by
      rcases ho.pids c hc with h | h <;> rw [hn] at h
      · cases h
      · exact h.symm
    refine ⟨nodup_reap ho.nodup _, fun c' hc' => ho.pids c' (mem_reap.1 hc').1, fun k => ?_⟩
    have := owned_reap ho.nodup hc k
    have := ho.once k
    simp only [StartQueue.queued_cons, ht.name_eq n prc hprc, hown, Option.some.injEq] at *
    omega

/-- Every event keeps `Owners`. -/
theorem step (hs : s.Sound) (ho : Owners s) {e : Event} (h : s.step e = some s') : Owners s' := by
  cases e with
  | wake time => obtain ⟨-, rfl⟩ := Sys.step_wake h; exact ho.congr rfl rfl
  | pass r =>
    obtain ⟨time, hph, ⟨-, rfl⟩ | ⟨-, rfl⟩ | ⟨e, m, hm, ⟨pid, started, rfl, hfresh, rfl⟩ | ⟨rfl, rfl⟩⟩⟩ :=
      Sys.step_pass h
    · exact ho.congr rfl rfl
    · exact ho.congr rfl rfl
    · exact (ho.startPass (hs.tables_starting hph) hm).1 _ _ rfl hfresh
    · exact (ho.startPass (hs.tables_starting hph) hm).2 rfl
  | exit pid =>
    obtain ⟨hpid, ⟨hph, ⟨m, hm, rfl⟩ | ⟨-, rfl⟩⟩ | ⟨l, -, rfl⟩⟩ := Sys.step_exit h
    · exact ho.onChild (hs.tables_main hph) hpid hm
    · exact ho.of_reap rfl rfl
    · exact ho.of_reap rfl rfl
  | terminate sig =>
    obtain ⟨-, rfl⟩ | ⟨l, -, rfl⟩ := Sys.step_terminate h
    · exact ⟨ho.nodup, ho.pids, fun n => by simpa using (Nat.le_add_left _ _).trans (ho.once n)⟩
    · exact ho.congr rfl rfl
  | reboot => obtain ⟨-, rfl⟩ := Sys.step_reboot h; exact ho.congr rfl rfl

end Owners

theorem queued_addAll (calls : List (AddCall ε)) (m : Monitor ε) (n : String) :
    StartQueue.queued (Sys.addAll calls m).startQueue n + owned (Sys.adopted calls) n =
      StartQueue.queued m.startQueue n + (calls.map AddCall.name).count n := by
  induction calls generalizing m with
  | nil => rfl
  | cons c calls ih =>
    have := ih (m.add c.name c.executor c.timeout c.current)
    simp only [Sys.addAll, Sys.adopted, List.foldl_cons, List.filterMap_cons] at this ⊢
    cases hc : c.current <;> simp_all [List.count_cons] <;> omega

theorem Sys.owners_init (calls : List (AddCall ε)) (strays : List Pid) (allowReboot : Bool)
    (hnames : (calls.map AddCall.name).Nodup)
    (hpids : (Sys.init calls strays allowReboot).livePids.Nodup) :
    Owners (Sys.init calls strays allowReboot) where
  nodup := hpids
  pids c _ := .inl (by simp [Sys.init, Tables.addAll_pids])
  once n := by
    have := queued_addAll calls Monitor.new n
    have := List.nodup_iff_count_le_one.1 hnames n
    have hstray : owned (strays.map (⟨·, none⟩)) n = 0 := by simp [owned, List.count_eq_zero]
    simp only [Sys.init, owned_append, hstray]
    simp at *
    omega

/-- **No instance has two children.**  From `add` calls with distinct names and
distinct live pids, in every state of every run: a name is queued at most once;
the entry a pass of `_start_processes` is about to pop belongs to an instance
with no live child; and no instance runs in two live children. -/
theorem no_two_children (calls : List (AddCall ε)) (strays : List Pid) (allowReboot : Bool)
    (hnames : (calls.map AddCall.name).Nodup)
    (hpids : (Sys.init calls strays allowReboot).livePids.Nodup)
    {s : Sys ε} (h : (Sys.init calls strays allowReboot).Reaches s) :
    (∀ n, StartQueue.queued s.mon.startQueue n ≤ 1) ∧
    (∀ time e, s.phase = .starting time → StartQueue.dueTop s.mon.startQueue time = some e →
      ∀ c ∈ s.live, c.owner ≠ some e.2) ∧
    (∀ n, owned s.live n ≤ 1) := by
  have ho : Owners s := (h.rec_inv (P := fun s => s.Sound ∧ Owners s)
    ⟨Sys.sound_init calls strays allowReboot, Sys.owners_init calls strays allowReboot hnames hpids⟩
    fun _ _ _ ha he => ⟨ha.1.step he, ha.2.step ha.1 he⟩).2
  refine ⟨fun n => (Nat.le_add_right _ _).trans (ho.once n), fun time e _ he c hc hown => ?_,
    fun n => (Nat.le_add_left _ _).trans (ho.once n)⟩
  have h1 := StartQueue.pos_queued_of_mem (StartQueue.dueTop_mem he)
  have h2 : 0 < owned s.live e.2 :=
    List.count_pos_iff.2 (List.mem_map.2 ⟨c, hc, hown⟩)
  have := ho.once e.2
  omega

/-- `web.0` spawned as pid 7 at 1 s, exited, and spawned again as pid 8 at
3 s: in the start loop after the restart, nothing is queued twice, the entry
due next has no child, and one child runs `web.0`. -/
theorem no_two_children_web :
    ∃ s : Sys Unit, (Sys.init [⟨"web.0", (), Duration.seconds 1, none⟩] [] true).Reaches s ∧
      s.live = [⟨8, some "web.0"⟩] ∧
      (∀ n, StartQueue.queued s.mon.startQueue n ≤ 1) ∧
      (∀ time e, s.phase = .starting time → StartQueue.dueTop s.mon.startQueue time = some e →
        ∀ c ∈ s.live, c.owner ≠ some e.2) ∧
      (∀ n, owned s.live n ≤ 1) :=
  have h := Sys.Reaches.of_runEvents (Sys.init [⟨"web.0", (), Duration.seconds 1, none⟩] [] true)
    [.wake ⟨1000000000⟩, .pass (.ok 7 ⟨1000000000⟩), .pass .err, .exit 7, .wake ⟨3000000000⟩,
      .pass (.ok 8 ⟨3000000000⟩)] rfl
  ⟨_, h, rfl, no_two_children _ _ _ (by decide) (by decide) h⟩

/-! ## An adopted instance is forgotten

`Monitor::add` with a current pid stores the pid in the record but not in
`pids`.  Only a spawn files a pid in `pids`, and only a queued instance is
spawned, so an instance that is neither queued nor filed stays so for good, and
the children running for it only go. -/

/-- Instance `n` is not queued and no pid is filed under it. -/
structure Forgotten (n : String) (s : Sys ε) : Prop where
  /-- It is not queued. -/
  not_queued : StartQueue.queued s.mon.startQueue n = 0
  /-- No pid leads to it. -/
  not_filed : ∀ p, s.mon.pids.lookup p ≠ some n

namespace Forgotten

variable {n : String} {s s' : Sys ε}

theorem congr (hf : Forgotten n s) (hm : s'.mon = s.mon) : Forgotten n s' :=
  ⟨hm ▸ hf.not_queued, hm ▸ hf.not_filed⟩

/-- A pass of `_start_processes` keeps `n` forgotten: the instance it pops is
queued, so it is not `n`, and a spawn files its pid under that instance. -/
theorem startPass (hf : Forgotten n s) (ht : Tables s.mon) {time : Timespec} {r : Spawn}
    {e : Entry} {m : Monitor ε} (hm : s.mon.startPass time r = .next e m) :
    e.2 ≠ n ∧ Forgotten n { s with mon := m } := by
  obtain ⟨prc, he, hprc, hm'⟩ := Monitor.startPass_eq_next hm
  have hq := StartQueue.queued_erase (StartQueue.dueTop_mem he) n
  have hpos := StartQueue.pos_queued_of_mem (StartQueue.dueTop_mem he)
  have hne : e.2 ≠ n := fun h => by rw [h, hf.not_queued] at hpos; cases hpos
  rw [if_neg hne, hf.not_queued] at hq
  refine ⟨hne, ?_⟩
  obtain ⟨pid, started, -, rfl⟩ | ⟨-, rfl⟩ := hm'
  · refine ⟨hq, fun p => ?_⟩
    by_cases hp : p = pid
    · subst hp; simpa [ht.name_eq _ _ hprc] using hne
    · simpa [AList.lookup_insert_ne hp] using hf.not_filed p
  · exact ⟨by simpa [hne] using hq, hf.not_filed⟩

/-- The `Child` branch keeps `n` forgotten: the pid that exits is not filed
under `n`, so the instance it queues is another. -/
theorem onChild (hf : Forgotten n s) (ht : Tables s.mon) {pid : Pid} {m : Monitor ε}
    (hm : s.mon.onChild pid = some m) : Forgotten n { s with mon := m } := by
  obtain ⟨-, rfl⟩ | ⟨k, prc, started, hk, hprc, -, rfl⟩ := Monitor.onChild_eq_some hm
  · exact hf.congr rfl
  · have hkn : k ≠ n := fun h => hf.not_filed pid (h ▸ hk)
    exact ⟨by simpa [ht.name_eq _ _ hprc, hkn] using hf.not_queued, hf.not_filed⟩

/-- Every event keeps an instance forgotten, and adds no child for it. -/
theorem step (hs : s.Sound) (hf : Forgotten n s) {e : Event} (h : s.step e = some s') :
    Forgotten n s' ∧ owned s'.live n ≤ owned s.live n := by
  cases e with
  | wake time => obtain ⟨-, rfl⟩ := Sys.step_wake h; exact ⟨hf.congr rfl, le_rfl⟩
  | pass r =>
    obtain ⟨time, hph, ⟨-, rfl⟩ | ⟨-, rfl⟩ | ⟨e, m, hm, ⟨pid, started, rfl, -, rfl⟩ | ⟨rfl, rfl⟩⟩⟩ :=
      Sys.step_pass h
    · exact ⟨hf.congr rfl, le_rfl⟩
    · exact ⟨hf.congr rfl, le_rfl⟩
    · obtain ⟨hne, hf'⟩ := hf.startPass (hs.tables_starting hph) hm
      exact ⟨hf'.congr rfl, by simp [hne]⟩
    · exact ⟨(hf.startPass (hs.tables_starting hph) hm).2, le_rfl⟩
  | exit pid =>
    obtain ⟨-, ⟨hph, ⟨m, hm, rfl⟩ | ⟨-, rfl⟩⟩ | ⟨l, -, rfl⟩⟩ := Sys.step_exit h
    · exact ⟨(hf.onChild (hs.tables_main hph) hm).congr rfl, owned_reap_le pid n⟩
    · exact ⟨hf.congr rfl, owned_reap_le pid n⟩
    · exact ⟨hf.congr rfl, owned_reap_le pid n⟩
  | terminate sig =>
    obtain ⟨-, rfl⟩ | ⟨l, -, rfl⟩ := Sys.step_terminate h
    · exact ⟨⟨rfl, hf.not_filed⟩, le_rfl⟩
    · exact ⟨hf.congr rfl, le_rfl⟩
  | reboot => obtain ⟨-, rfl⟩ := Sys.step_reboot h; exact ⟨hf.congr rfl, le_rfl⟩

end Forgotten

/-- **A forgotten instance stays forgotten.**  From a sound state in which `n`
is neither queued nor filed under a pid, no run ever queues `n`, and no run
adds a child for it. -/
theorem forgotten_forever {n : String} {s t : Sys ε} (hs : s.Sound) (hf : Forgotten n s)
    (h : s.Reaches t) : Forgotten n t ∧ owned t.live n ≤ owned s.live n :=
  (h.rec_inv (P := fun t => t.Sound ∧ Forgotten n t ∧ owned t.live n ≤ owned s.live n)
    ⟨hs, hf, le_rfl⟩ fun _ _ _ ha he =>
      let h' := ha.2.1.step ha.1 he
      ⟨ha.1.step he, h'.1, h'.2.trans ha.2.2⟩).2

/-- **The adopted child's exit is lost.**  An instance adopted by
`add(.., Some((100, t)))` whose child then exits is registered, not queued, and
runs in no child, and it stays so in every run from there: the `Child` branch
does not know pid 100, so it never queues the instance again. -/
theorem adopted_child_exit_unsupervised :
    ∃ s : Sys Unit,
      (Sys.init [⟨"web.0", (), Duration.seconds 1, some (100, ⟨0⟩)⟩] [] true).step (.exit 100) =
        some s ∧
      "web.0" ∈ s.mon.processes ∧
      ∀ t, s.Reaches t →
        StartQueue.queued t.mon.startQueue "web.0" = 0 ∧ owned t.live "web.0" = 0 := by
  refine ⟨_, rfl, by decide, fun t ht => ?_⟩
  have hs := (Sys.sound_init (ε := Unit) [⟨"web.0", (), Duration.seconds 1, some (100, ⟨0⟩)⟩]
    [] true).step (e := .exit 100) rfl
  have := forgotten_forever (n := "web.0") hs ⟨by decide, fun p => by simp [Sys.init, Tables.addAll_pids]⟩ ht
  exact ⟨this.1.not_queued, Nat.le_zero.1 (this.2.trans (by decide))⟩

/-! ## A stale pid blocks the shut down loop

The `Child` branch queues a restart and leaves `current_pid` naming the child
that just died.  If `Terminate` comes before the restart, the signal goes to
that pid and `left` waits for it; no exit of it can be reported again, so the
shut down loop never ends with `Killed`. -/

theorem closeIfDone_of_mem {l : AList (fun _ : Pid => Process ε)} {p : Pid} (h : p ∈ l) :
    Sys.closeIfDone l = .shutdown l := by
  have : l.entries ≠ [] := fun he => by
    rw [AList.mem_keys, AList.keys, he] at h; cases h
  simp [Sys.closeIfDone, List.isEmpty_iff, this]

/-- **The shut down loop waits forever for a dead pid.**  From a state of the
shut down loop whose `left` holds a pid that no live child has, no run ends
with `Killed`; the only way out is a reboot. -/
theorem shutdown_waits_forever {s t : Sys ε} {l : AList (fun _ : Pid => Process ε)} {p : Pid}
    (hph : s.phase = .shutdown l) (hp : p ∈ l) (hdead : p ∉ s.livePids) (h : s.Reaches t) :
    t.phase ≠ .returned .killed := by
  have key := h.rec_inv (P := fun t => (∃ l, t.phase = .shutdown l ∧ p ∈ l ∧ p ∉ t.livePids) ∨
      t.phase = .returned .reboot) (.inl ⟨l, hph, hp, hdead⟩) fun a e b ha hab => by
    rcases ha with ⟨l, hph, hp, hdead⟩ | hph
    · cases e with
      | wake time => obtain ⟨h, -⟩ := Sys.step_wake hab; rw [hph] at h; cases h
      | pass r => obtain ⟨time, h, -⟩ := Sys.step_pass hab; rw [hph] at h; cases h
      | exit q =>
        obtain ⟨hq, ⟨h, -⟩ | ⟨l', h, rfl⟩⟩ := Sys.step_exit hab <;> rw [hph] at h <;> cases h
        have hpq : p ≠ q := fun he => hdead (he ▸ hq)
        have hp' : p ∈ l.erase q := AList.mem_erase.2 ⟨hpq, hp⟩
        refine .inl ⟨_, closeIfDone_of_mem hp', hp', fun hl => hdead ?_⟩
        obtain ⟨c, hc, rfl⟩ := List.mem_map.1 hl
        exact List.mem_map_of_mem _ (mem_reap.1 hc).1
      | terminate sig =>
        obtain ⟨h, -⟩ | ⟨l', h, rfl⟩ := Sys.step_terminate hab <;> rw [hph] at h <;> cases h
        exact .inl ⟨l, hph, hp, hdead⟩
      | reboot => obtain ⟨-, rfl⟩ := Sys.step_reboot hab; exact .inr rfl
    · rw [Sys.step_returned hph] at hab; cases hab
  rcases key with ⟨l, h, -⟩ | h <;> rw [h] <;> nofun

/-- **A `Terminate` after an exit blocks the shut down.**  `web.0` starts as
pid 100 at 1 s; pid 100 exits, and the `Child` branch queues `web.0` again but
leaves its `current_pid` at 100, a pid no live child has.  A `Terminate` then
signals pid 100 and waits for it, and with no child left, no run ever returns
`Killed`. -/
theorem stale_pid_blocks_shutdown :
    ∃ s₄ s₅ : Sys Unit,
      (Sys.init [⟨"web.0", (), Duration.seconds 1, none⟩] [] true).Reaches s₄ ∧
      (s₄.mon.processes.lookup "web.0").bind Process.currentPid = some 100 ∧
      100 ∉ s₄.livePids ∧ StartQueue.queued s₄.mon.startQueue "web.0" = 1 ∧
      s₄.step (.terminate 15) = some s₅ ∧ (100, 15) ∈ s₅.sent ∧ s₅.live = [] ∧
      ∀ t, s₅.Reaches t → t.phase ≠ .returned .killed := by
  refine ⟨_, _, Sys.Reaches.of_runEvents
    (Sys.init [⟨"web.0", (), Duration.seconds 1, none⟩] [] true)
    [.wake ⟨1000000000⟩, .pass (.ok 100 ⟨1000000000⟩), .pass .err, .exit 100] rfl,
    by decide, by decide, by decide, rfl, by decide, rfl, fun t ht => ?_⟩
  exact shutdown_waits_forever (p := 100) rfl (by decide) (by decide) ht

end Lithos
