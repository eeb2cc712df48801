import Lithos.Monitor.Backoff

/-!
# What the monitor spawns, and which instances it keeps running

Three invariants of `Monitor::run` over whole runs, for any executor type.

* `Spawns Q`: every instance that a pass of `_start_processes` may pop has a
  record whose executor and restart timeout satisfy `Q`.  A pass pops a queued
  instance, and the `Child` branch queues an instance filed under a pid; no
  branch changes the executor or the timeout of a record.  So `Q` holds of the
  executor whose `command()` a pass calls, in every state of every run
  (`spawns_forever`); and when `Q` asks for a timeout of a second or more,
  every call of `_start_processes` returns (`Spawns.startProcesses_returned`).
* `Supervised n`: instance `n` is queued, or a live child is filed under it in
  `pids`.  A pass that pops it files the child it spawns, or queues it again;
  the exit of a filed child queues it again.  So an instance supervised when
  the main loop runs stays supervised for as long as the main loop and the
  start loop run (`supervised_forever`).  This is the safety half of "every exit
  is followed by a restart".  The progress half, `Sys.start_of_top`, needs the
  environment's part, a wake-up once the entry is due and a spawn that
  succeeds; with no live child running it, a supervised instance is queued
  (`Supervised.queued_of_idle`).

* `Current`: every live child spawned or adopted for an instance is the
  current pid of the instance's record, while the loops run.  A spawn changes
  the pid of a queued instance only, and `Owners` says no live child runs for
  one.  So `Terminate` signals every such child and the shut down loop waits
  for it (`Current.terminate`).

`Forgotten` of `Lithos.Monitor.Owners` is the other side of `Supervised`: an
instance neither queued nor filed is never started again.

Last, the shut down loop.  `terminate_killed_iff`: a `Terminate` in the main
loop can end with `Killed` exactly when every current pid of a record is a live
child.  `shutdown_starts_nothing`: from that `Terminate` on, no child is
started, the tables stay cleared, the main loop is never entered again, and
every signal goes to a pid of `left`.
-/

namespace Lithos

variable {ε : Type}

/-- A lookup after an insert finds the inserted value or an older one. -/
theorem lookup_insert_some {α β : Type} [DecidableEq α] {l : AList (fun _ : α => β)} {k n : α}
    {x y : β} (h : (l.insert k x).lookup n = some y) :
    (n = k ∧ y = x) ∨ (n ≠ k ∧ l.lookup n = some y) := by
  by_cases hn : n = k
  · subst hn; rw [AList.lookup_insert] at h; exact .inl ⟨rfl, (Option.some.inj h).symm⟩
  · rw [AList.lookup_insert_ne hn] at h; exact .inr ⟨hn, h⟩

/-- The phase the shut down check leaves is not one in which the loops run. -/
theorem Sys.closeIfDone_not_running (l : AList (fun _ : Pid => Process ε)) :
    ¬ (Sys.closeIfDone l).running := by
  unfold Sys.closeIfDone; split <;> nofun

/-! ## The executors the monitor asks for commands -/

/-- Every instance a pass may pop, and every instance the `Child` branch may
queue, has a record whose executor and restart timeout satisfy `Q`. -/
structure Spawns (Q : String → ε → Duration → Prop) (m : Monitor ε) : Prop where
  /-- The record of a queued instance. -/
  queued : ∀ e ∈ m.startQueue, ∀ prc, m.processes.lookup e.2 = some prc →
    Q e.2 prc.executor prc.restartTimeout
  /-- The record of an instance filed under a pid. -/
  filed : ∀ p n, m.pids.lookup p = some n →
    ∀ prc, m.processes.lookup n = some prc → Q n prc.executor prc.restartTimeout

namespace Spawns

variable {Q : String → ε → Duration → Prop} {m m' : Monitor ε}

/-- A pass pops an instance whose record satisfies `Q`, and keeps `Spawns Q`:
the record it rewrites keeps its executor and timeout. -/
theorem startPass (h : Spawns Q m) (ht : Tables m) {time : Timespec} {r : Spawn} {e : Entry}
    (hp : m.startPass time r = .next e m') :
    (∃ prc, m.processes.lookup e.2 = some prc ∧ Q e.2 prc.executor prc.restartTimeout) ∧
      Spawns Q m' := by
  obtain ⟨prc, he, hprc, hcase⟩ := Monitor.startPass_eq_next hp
  have hQ := h.queued e (StartQueue.dueTop_mem he) prc hprc
  refine ⟨⟨prc, hprc, hQ⟩, ?_⟩
  rcases hcase with ⟨pid, started, -, rfl⟩ | ⟨-, rfl⟩
  · refine ⟨fun x hx q hq => ?_, fun p n hn q hq => ?_⟩
    · rcases lookup_insert_some hq with ⟨hx2, rfl⟩ | ⟨-, hq⟩
      · rw [hx2]; exact hQ
      · exact h.queued x (List.mem_of_mem_erase hx) q hq
    · rcases lookup_insert_some hq with ⟨rfl, rfl⟩ | ⟨hne, hq⟩
      · exact hQ
      · rcases lookup_insert_some hn with ⟨-, rfl⟩ | ⟨-, hn⟩
        · exact absurd (ht.name_eq _ _ hprc) hne
        · exact h.filed p n hn q hq
  · refine ⟨fun x hx q hq => ?_, h.filed⟩
    rcases List.mem_cons.1 hx with rfl | hx
    · obtain rfl := Option.some.inj (hq.symm.trans hprc)
      exact hQ
    · exact h.queued x (List.mem_of_mem_erase hx) q hq

/-- The `Child` branch keeps `Spawns Q`: the instance it queues is filed under
the pid that exited. -/
theorem onChild (h : Spawns Q m) (ht : Tables m) {pid : Pid} (hc : m.onChild pid = some m') :
    Spawns Q m' := by
  obtain ⟨-, rfl⟩ | ⟨n, prc, started, hn, hprc, -, rfl⟩ := Monitor.onChild_eq_some hc
  · exact h
  · refine ⟨fun x hx q hq => ?_, h.filed⟩
    rcases List.mem_cons.1 hx with rfl | hx
    · have hname := ht.name_eq n prc hprc
      rw [hname] at hq ⊢
      obtain rfl := Option.some.inj (hq.symm.trans hprc)
      exact h.filed pid n hn q hprc
    · exact h.queued x hx q hq

/-- A monitor with nothing queued and no pid filed spawns nothing. -/
theorem of_empty (hq : m.startQueue = []) (hp : m.pids = ∅) : Spawns Q m :=
  ⟨by simp [hq], by simp [hp]⟩

/-- `Monitor::add` of an executor that `Q` allows keeps `Spawns Q`, on a monitor
with no pid filed. -/
theorem add (h : Spawns Q m) (hp : m.pids = ∅) {name : String} {executor : ε} {timeout : Duration}
    (hQ : Q name executor timeout) (current : Option (Pid × Timespec)) :
    Spawns Q (m.add name executor timeout current) where
  queued x hx q hq := by
    rw [Monitor.add_processes] at hq
    rcases lookup_insert_some hq with ⟨hn, rfl⟩ | ⟨hne, hq⟩
    · rw [hn]; exact hQ
    · refine h.queued x ?_ q hq
      rw [Monitor.add_startQueue] at hx
      split at hx
      · exact hx
      · exact (List.mem_cons.1 hx).resolve_left fun hx => hne (by rw [hx])
  filed p n hn := by simp [hp] at hn

/-- Every event keeps `Spawns Q`. -/
theorem step {s s' : Sys ε} (hs : s.Sound) (h : Spawns Q s.mon) {e : Event}
    (hst : s.step e = some s') : Spawns Q s'.mon := by
  cases e with
  | wake time => obtain ⟨-, rfl⟩ := Sys.step_wake hst; exact h
  | pass r =>
    obtain ⟨time, hph, ⟨-, rfl⟩ | ⟨-, rfl⟩ | ⟨e, m, hm, ⟨_, _, -, -, rfl⟩ | ⟨-, rfl⟩⟩⟩ :=
      Sys.step_pass hst
    · exact h
    · exact h
    · exact (h.startPass (hs.tables_starting hph) hm).2
    · exact (h.startPass (hs.tables_starting hph) hm).2
  | exit pid =>
    obtain ⟨-, ⟨hph, ⟨m, hm, rfl⟩ | ⟨-, rfl⟩⟩ | ⟨l, -, rfl⟩⟩ := Sys.step_exit hst
    · exact h.onChild (hs.tables_main hph) hm
    · exact h
    · exact h
  | terminate sig =>
    obtain ⟨-, rfl⟩ | ⟨l, -, rfl⟩ := Sys.step_terminate hst
    · exact ⟨nofun, fun _ _ _ _ hq => by simp at hq⟩
    · exact h
  | reboot => obtain ⟨-, rfl⟩ := Sys.step_reboot hst; exact h

end Spawns

/-- **`_start_processes` returns when `Q` asks for slow restarts.**  When every
timeout `Q` allows is a second or more, a call of `_start_processes` on a
monitor whose tables agree and that satisfies `Spawns Q` returns, whatever the
spawns answer, once it has been given one answer more than there are due
entries. -/
theorem Spawns.startProcesses_returned {Q : String → ε → Duration → Prop}
    (hQ : ∀ n ex d, Q n ex d → nsPerSec ≤ d.ns) {m : Monitor ε} (h : Spawns Q m) (ht : Tables m)
    (time : Timespec) (rs : List Spawn) (hlen : dueCount m.startQueue time < rs.length) :
    ∃ m', m.startProcesses time rs = .returned m' := by
  induction rs generalizing m with
  | nil => exact absurd hlen (Nat.not_lt_zero _)
  | cons r rs ih =>
    simp only [Monitor.startProcesses]
    split
    · exact ⟨m, rfl⟩
    · exact absurd ‹_› (ht.startPass_ne_panic time r)
    · rename_i e m' hm
      obtain ⟨-, he, -⟩ := Monitor.startPass_eq_next hm
      have hc := dueCount_startPass hm fun prc hprc =>
        hQ _ _ _ (h.queued e (StartQueue.dueTop_mem he) prc hprc)
      exact ih (h.startPass ht hm).2 (ht.startPass hm)
        (by simp only [List.length_cons] at hlen; omega)

/-- From a sound state whose monitor satisfies `Spawns Q`, every state a run
reaches is sound and its monitor satisfies `Spawns Q`. -/
theorem Spawns.of_reaches {Q : String → ε → Duration → Prop} {s t : Sys ε} (hs : s.Sound)
    (h : Spawns Q s.mon) (hr : s.Reaches t) : t.Sound ∧ Spawns Q t.mon :=
  hr.rec_inv (P := fun t => t.Sound ∧ Spawns Q t.mon) ⟨hs, h⟩
    fun _ _ _ ha hab => ⟨ha.1.step hab, ha.2.step ha.1 hab⟩

/-- **Every command a run asks for comes from an executor `Q` allows.**  From a
sound state whose monitor satisfies `Spawns Q`, in every state a run reaches,
the instance a pass of `_start_processes` is about to pop has a record, and its
executor and timeout satisfy `Q`. -/
theorem spawns_forever {Q : String → ε → Duration → Prop} {s t : Sys ε} (hs : s.Sound)
    (h : Spawns Q s.mon) (hr : s.Reaches t) {time : Timespec} (hph : t.phase = .starting time)
    {e : Entry} (he : StartQueue.dueTop t.mon.startQueue time = some e) :
    ∃ prc, t.mon.processes.lookup e.2 = some prc ∧ Q e.2 prc.executor prc.restartTimeout := by
  have ht := Spawns.of_reaches hs h hr
  have hmem := StartQueue.dueTop_mem he
  obtain ⟨prc, hprc⟩ := Option.isSome_iff_exists.1
    (AList.lookup_isSome.2 ((ht.1.tables_starting hph).queued e hmem))
  exact ⟨prc, hprc, ht.2.queued e hmem prc hprc⟩

/-! ## The instances the monitor keeps running -/

/-- Instance `n` will be started again: it is queued, or a live child is filed
under it in `pids`, whose exit the `Child` branch turns into a start. -/
def Supervised (n : String) (s : Sys ε) : Prop :=
  0 < StartQueue.queued s.mon.startQueue n ∨ ∃ c ∈ s.live, s.mon.pids.lookup c.pid = some n

namespace Supervised

variable {n : String} {s s' : Sys ε}

/-- A pass keeps an instance supervised: the popped instance gets its new child
filed under it, or is queued again, and every other keeps its entries. -/
theorem startPass (hsup : Supervised n s) (ht : Tables s.mon) {time : Timespec} {r : Spawn}
    {e : Entry} {m : Monitor ε} (hm : s.mon.startPass time r = .next e m) :
    (∀ pid started, r = .ok pid started → pid ∉ s.livePids →
      Supervised n { s with mon := m, live := ⟨pid, some e.2⟩ :: s.live }) ∧
    (r = .err → Supervised n { s with mon := m }) := by
  obtain ⟨prc, he, hprc, hok | herr⟩ := Monitor.startPass_eq_next hm
  · obtain ⟨pid, started, rfl, rfl⟩ := hok
    refine ⟨fun pid' started' hr hfresh => ?_, nofun⟩
    cases hr
    by_cases hn : e.2 = n
    · refine .inr ⟨_, List.mem_cons_self _ _, ?_⟩
      simp [ht.name_eq _ _ hprc, hn]
    · have hq := StartQueue.queued_erase (StartQueue.dueTop_mem he) n
      rw [if_neg hn, Nat.add_zero] at hq
      rcases hsup with hpos | ⟨c, hc, hcn⟩
      · exact .inl (hq ▸ hpos)
      · have hne : c.pid ≠ pid := fun h => hfresh (h ▸ List.mem_map_of_mem _ hc)
        exact .inr ⟨c, List.mem_cons_of_mem _ hc, by simpa [AList.lookup_insert_ne hne] using hcn⟩
  · obtain ⟨rfl, rfl⟩ := herr
    refine ⟨nofun, fun _ => ?_⟩
    have hq := StartQueue.queued_erase (StartQueue.dueTop_mem he) n
    by_cases hn : e.2 = n
    · exact .inl (by simp [hn])
    · rw [if_neg hn, Nat.add_zero] at hq
      rcases hsup with hpos | hlive
      · exact .inl (by rw [StartQueue.queued_cons, if_neg hn, Nat.add_zero, hq]; exact hpos)
      · exact .inr hlive

/-- The `Child` branch keeps an instance supervised: the exit of the child
filed under it queues it. -/
theorem onChild (hsup : Supervised n s) (ht : Tables s.mon) {pid : Pid} {m : Monitor ε}
    (hm : s.mon.onChild pid = some m) : Supervised n { s with mon := m, live := Sys.reap s.live pid } := by
  obtain ⟨hnone, rfl⟩ | ⟨k, prc, started, hk, hprc, -, rfl⟩ := Monitor.onChild_eq_some hm
  · rcases hsup with hpos | ⟨c, hc, hcn⟩
    · exact .inl hpos
    · have hne : c.pid ≠ pid := fun h => by rw [h, hnone] at hcn; cases hcn
      exact .inr ⟨c, mem_reap.2 ⟨hc, hne⟩, hcn⟩
  · have hq : StartQueue.queued s.mon.startQueue n ≤
        StartQueue.queued ((-(started + prc.restartTimeout).sec, prc.name) :: s.mon.startQueue) n := by
      simp
    rcases hsup with hpos | ⟨c, hc, hcn⟩
    · exact .inl (lt_of_lt_of_le hpos hq)
    · by_cases hne : c.pid = pid
      · rw [hne, hk] at hcn
        cases hcn
        exact .inl (by simp [ht.name_eq _ _ hprc])
      · exact .inr ⟨c, mem_reap.2 ⟨hc, hne⟩, hcn⟩

/-- Every event keeps an instance supervised while the loops run. -/
theorem step (hs : s.Sound) (hsup : s.phase.running → Supervised n s) {e : Event}
    (h : s.step e = some s') : s'.phase.running → Supervised n s' := by
  cases e with
  | wake time =>
    obtain ⟨hph, rfl⟩ := Sys.step_wake h
    exact fun _ => hsup (by simp [hph, Phase.running])
  | pass r =>
    obtain ⟨time, hph, ⟨-, rfl⟩ | ⟨-, rfl⟩ | ⟨e, m, hm, ⟨pid, started, rfl, hfresh, rfl⟩ | ⟨rfl, rfl⟩⟩⟩ :=
      Sys.step_pass h <;>
      have hrun : s.phase.running := by simp [hph, Phase.running]
    · exact fun _ => hsup hrun
    · exact nofun
    · exact fun _ => ((hsup hrun).startPass (hs.tables_starting hph) hm).1 _ _ rfl hfresh
    · exact fun _ => ((hsup hrun).startPass (hs.tables_starting hph) hm).2 rfl
  | exit pid =>
    obtain ⟨-, ⟨hph, ⟨m, hm, rfl⟩ | ⟨-, rfl⟩⟩ | ⟨l, -, rfl⟩⟩ := Sys.step_exit h
    · exact fun _ => (hsup (by simp [hph, Phase.running])).onChild (hs.tables_main hph) hm
    · exact nofun
    · exact fun hr => absurd hr (Sys.closeIfDone_not_running _)
  | terminate sig =>
    obtain ⟨-, rfl⟩ | ⟨l, hph, rfl⟩ := Sys.step_terminate h
    · exact fun hr => absurd hr (Sys.closeIfDone_not_running _)
    · exact fun hr => by simp [hph, Phase.running] at hr
  | reboot => obtain ⟨-, rfl⟩ := Sys.step_reboot h; exact nofun

end Supervised

/-- **A supervised instance stays supervised.**  From a sound state in which
instance `n` is supervised while the loops run, in every state a run reaches,
as long as the main loop or the start loop runs, `n` is queued or a live child
of it is filed under its pid: every exit of its child is followed by a start. -/
theorem supervised_forever {n : String} {s t : Sys ε} (hs : s.Sound)
    (hsup : s.phase.running → Supervised n s) (h : s.Reaches t) :
    t.phase.running → Supervised n t :=
  (h.rec_inv (P := fun t => t.Sound ∧ (t.phase.running → Supervised n t)) ⟨hs, hsup⟩
    fun _ _ _ ha hab => ⟨ha.1.step hab, Supervised.step ha.1 ha.2 hab⟩).2

/-- A supervised instance that no live child runs is queued. -/
theorem Supervised.queued_of_idle {n : String} {s : Sys ε} (ho : Owners s) (hsup : Supervised n s)
    (hidle : owned s.live n = 0) : 0 < StartQueue.queued s.mon.startQueue n := by
  refine hsup.resolve_right fun ⟨c, hc, hpid⟩ => ?_
  have hown : c.owner = some n := by
    rcases ho.pids c hc with hn | hn <;> rw [hpid] at hn
    · cases hn
    · exact hn.symm
  have : 0 < owned s.live n := List.count_pos_iff.2 (List.mem_map.2 ⟨c, hc, hown⟩)
  omega

/-- **A due instance is started.**  In the main loop, when the entry `e` on top
of the queue is due at `time` and has a record, a wake-up at `time` and a spawn
that succeeds with a pid no live child has start a child filed under `e.2`.
This is the progress half: the wake-up and the spawn are the environment's. -/
theorem Sys.start_of_top {s : Sys ε} (hph : s.phase = .main) {e : Entry}
    (htop : StartQueue.top s.mon.startQueue = some e) {time : Timespec} (htime : e.time < time)
    {prc : Process ε} (hprc : s.mon.processes.lookup e.2 = some prc) {pid : Pid}
    (hfresh : pid ∉ s.livePids) (started : Timespec) :
    ∃ t, s.runEvents [.wake time, .pass (.ok pid started)] = some t ∧
      ⟨pid, some e.2⟩ ∈ t.live := by
  have hdue : StartQueue.dueTop s.mon.startQueue time = some e :=
    StartQueue.dueTop_eq_some.2 ⟨htop, by simpa [Entry.due] using htime⟩
  have hfresh' : pid ∉ ({ s with phase := .starting time } : Sys ε).livePids := hfresh
  simp only [Sys.runEvents, Sys.step, hph, Option.some_bind, Monitor.startPass, hdue, hprc,
    if_neg hfresh', Option.bind_some]
  exact ⟨_, rfl, List.mem_cons_self _ _⟩

/-! ## Every child the monitor knows is a record's current pid

A record's pid changes only in a spawn, which pops a queued instance, and by
`Owners.once` no live child runs for a queued instance.  So while the loops
run, every live child spawned or adopted for an instance is the current pid of
that instance's record, and the `Terminate` branch, which signals every
record's current pid and waits for each, reaches it. -/

theorem Monitor.onChild_processes {m m' : Monitor ε} {pid : Pid} (h : m.onChild pid = some m') :
    m'.processes = m.processes := by
  obtain ⟨-, rfl⟩ | ⟨_, _, _, -, -, -, rfl⟩ := Monitor.onChild_eq_some h <;> rfl

/-- Every live child spawned or adopted for an instance is the current pid of
the instance's record. -/
def Current (s : Sys ε) : Prop :=
  ∀ c ∈ s.live, ∀ n, c.owner = some n →
    ∃ prc, s.mon.processes.lookup n = some prc ∧ prc.currentPid = some c.pid

namespace Current

variable {s s' : Sys ε}

theorem mono (h : Current s) (hp : s'.mon.processes = s.mon.processes) (hl : s'.live ⊆ s.live) :
    Current s' := fun c hc n hn => hp ▸ h c (hl hc) n hn

/-- A pass of `_start_processes` keeps `Current`: the record it gives a pid
belongs to a queued instance, which no live child runs for. -/
theorem startPass (h : Current s) (ho : Owners s) {time : Timespec} {r : Spawn} {e : Entry}
    {m : Monitor ε} (hm : s.mon.startPass time r = .next e m) :
    (∀ pid started, r = .ok pid started →
      Current { s with mon := m, live := ⟨pid, some e.2⟩ :: s.live }) ∧
    (r = .err → Current { s with mon := m }) := by
  obtain ⟨prc, he, -, ⟨pid, started, rfl, rfl⟩ | ⟨rfl, rfl⟩⟩ := Monitor.startPass_eq_next hm
  · refine ⟨fun pid' started' hr => ?_, nofun⟩
    cases hr
    intro c hc n hn
    rcases List.mem_cons.1 hc with rfl | hc
    · cases hn
      exact ⟨_, AList.lookup_insert _, rfl⟩
    · have hne : n ≠ e.2 := by
        rintro rfl
        have h1 := StartQueue.pos_queued_of_mem (StartQueue.dueTop_mem he)
        have h2 : 0 < owned s.live e.2 := List.count_pos_iff.2 (List.mem_map.2 ⟨c, hc, hn⟩)
        have := ho.once e.2
        omega
      simpa [AList.lookup_insert_ne hne] using h c hc n hn
  · exact ⟨nofun, fun _ => h.mono rfl (List.Subset.refl _)⟩

/-- Every event keeps `Current` while the loops run. -/
theorem step (ho : Owners s) (hc : s.phase.running → Current s) {e : Event}
    (h : s.step e = some s') : s'.phase.running → Current s' := by
  cases e with
  | wake time =>
    obtain ⟨hph, rfl⟩ := Sys.step_wake h
    exact fun _ => hc (by simp [hph, Phase.running])
  | pass r =>
    obtain ⟨time, hph, ⟨-, rfl⟩ | ⟨-, rfl⟩ | ⟨e, m, hm, ⟨pid, started, rfl, -, rfl⟩ | ⟨rfl, rfl⟩⟩⟩ :=
      Sys.step_pass h <;>
      have hrun : s.phase.running := by simp [hph, Phase.running]
    · exact fun _ => hc hrun
    · exact nofun
    · exact fun _ => ((hc hrun).startPass ho hm).1 _ _ rfl
    · exact fun _ => ((hc hrun).startPass ho hm).2 rfl
  | exit pid =>
    obtain ⟨-, ⟨hph, ⟨m, hm, rfl⟩ | ⟨-, rfl⟩⟩ | ⟨l, -, rfl⟩⟩ := Sys.step_exit h
    · exact fun _ => (hc (by simp [hph, Phase.running])).mono (Monitor.onChild_processes hm)
        fun _ hc => (mem_reap.1 hc).1
    · exact nofun
    · exact fun hr => absurd hr (Sys.closeIfDone_not_running _)
  | terminate sig =>
    obtain ⟨-, rfl⟩ | ⟨l, hph, rfl⟩ := Sys.step_terminate h
    · exact fun hr => absurd hr (Sys.closeIfDone_not_running _)
    · exact fun hr => by simp [hph, Phase.running] at hr
  | reboot => obtain ⟨-, rfl⟩ := Sys.step_reboot h; exact nofun

end Current

/-- From a sound state that keeps one instance to one child, every state a run
reaches is sound and keeps it. -/
theorem Owners.of_reaches {s t : Sys ε} (hs : s.Sound) (ho : Owners s) (h : s.Reaches t) :
    t.Sound ∧ Owners t :=
  h.rec_inv (P := fun t => t.Sound ∧ Owners t) ⟨hs, ho⟩
    fun _ _ _ ha hab => ⟨ha.1.step hab, ha.2.step ha.1 hab⟩

/-- From such a state with `Current` while the loops run, every state a run
reaches has `Current` while the loops run. -/
theorem Current.of_reaches {s t : Sys ε} (hs : s.Sound) (ho : Owners s)
    (hc : s.phase.running → Current s) (h : s.Reaches t) : t.phase.running → Current t :=
  (h.rec_inv (P := fun t => t.Sound ∧ Owners t ∧ (t.phase.running → Current t)) ⟨hs, ho, hc⟩
    fun _ _ _ ha hab => ⟨ha.1.step hab, ha.2.1.step ha.1 hab, Current.step ha.2.1 ha.2.2 hab⟩).2.2

namespace Current

variable {s : Sys ε}

/-- A `Terminate` in the main loop signals every live child spawned or adopted
for an instance, and the shut down loop waits for it. -/
theorem terminate (h : Current s) (hph : s.phase = .main) (sig : Int) :
    ∃ s', s.step (.terminate sig) = some s' ∧ ∀ c ∈ s.live, c.owner ≠ none →
      (c.pid, sig) ∈ s'.sent ∧ ∃ l, s'.phase = .shutdown l ∧ c.pid ∈ l := by
  refine ⟨_, by simp only [Sys.step, hph]; rfl, fun c hc hown => ?_⟩
  obtain ⟨n, hn⟩ := Option.ne_none_iff_exists'.1 hown
  obtain ⟨prc, hprc, hpid⟩ := h c hc n hn
  have hmem := AList.mem_lookup_iff.1 hprc
  have hleft : c.pid ∈ s.mon.left := Monitor.mem_left.2 ⟨_, hmem, hpid⟩
  exact ⟨List.mem_append_right _ (List.mem_filterMap.2 ⟨_, hmem, by simp [hpid]⟩),
    _, closeIfDone_of_mem hleft, hleft⟩

end Current

/-! ## When the shut down loop ends

The shut down loop waits for the pids of `left` and returns `Killed` once each
has exited.  A pid of `left` that no live child has is never reported
(`shutdown_waits_forever`); when every pid of `left` is a live child, their
exits, one by one, end the loop. -/

/-- From the shut down check on `l`, with every pid of `l` a live child, the
exits of those children end the loop with `Killed`. -/
theorem Sys.reaches_killed : ∀ (k : Nat) {s : Sys ε} {l : AList (fun _ : Pid => Process ε)},
    l.keys.length = k → s.phase = Sys.closeIfDone l → (∀ p ∈ l, p ∈ s.livePids) →
      ∃ t, s.Reaches t ∧ t.phase = .returned .killed
  | 0, s, l, hk, hph, _ => by
    have : l.entries = [] := by simpa [AList.keys, List.keys, List.map_eq_nil_iff] using hk
    exact ⟨s, Relation.ReflTransGen.refl, by simp [hph, Sys.closeIfDone, this]⟩
  | k + 1, s, l, hk, hph, hlive => by
    obtain ⟨p, hp⟩ : ∃ p, p ∈ l := by
      obtain ⟨p, ks, hks⟩ := List.exists_cons_of_length_eq_add_one hk
      exact ⟨p, AList.mem_keys.2 (by rw [hks]; exact List.mem_cons_self _ _)⟩
    have hstep : s.step (.exit p) =
        some { s with live := Sys.reap s.live p, phase := Sys.closeIfDone (l.erase p) } := by
      simp only [Sys.step, if_pos (hlive p hp), hph, closeIfDone_of_mem hp]
    have hk' : (l.erase p).keys.length = k := by
      rw [AList.keys_erase, List.length_erase_of_mem (AList.mem_keys.1 hp), hk, Nat.add_sub_cancel]
    obtain ⟨t, ht, hkill⟩ := Sys.reaches_killed k
      (s := { s with live := Sys.reap s.live p, phase := Sys.closeIfDone (l.erase p) }) hk' rfl
      fun q hq => by
      obtain ⟨hqp, hq⟩ := AList.mem_erase.1 hq
      obtain ⟨c, hc, rfl⟩ := List.mem_map.1 (hlive q hq)
      show c.pid ∈ (Sys.reap s.live p).map Child.pid
      exact List.mem_map_of_mem _ (mem_reap.2 ⟨hc, hqp⟩)
    exact ⟨t, Relation.ReflTransGen.head ⟨_, hstep⟩ ht, hkill⟩

/-- **When a `Terminate` can end with `Killed`.**  In the main loop, a
`Terminate(sig)` leads to a state from which some run returns `Killed` exactly
when every pid a record holds as its current pid is a live child; a record
left on a dead pid blocks the shut down loop for good. -/
theorem terminate_killed_iff {s : Sys ε} (hph : s.phase = .main) (sig : Int) :
    ∃ s', s.step (.terminate sig) = some s' ∧
      ((∃ t, s'.Reaches t ∧ t.phase = .returned .killed) ↔ ∀ p ∈ s.mon.left, p ∈ s.livePids) := by
  obtain ⟨s', hstep, hph', hlive⟩ : ∃ s', s.step (.terminate sig) = some s' ∧
      s'.phase = Sys.closeIfDone s.mon.left ∧ s'.livePids = s.livePids :=
    ⟨{ s with sent := s.sent ++ s.mon.terminateSignals sig
              mon := { s.mon with startQueue := [], processes := ∅ }
              phase := Sys.closeIfDone s.mon.left }, by simp only [Sys.step, hph], rfl, rfl⟩
  refine ⟨s', hstep, ⟨?_, fun h => Sys.reaches_killed _ rfl hph' (hlive ▸ h)⟩⟩
  rintro ⟨t, ht, hkill⟩ p hp
  by_contra hdead
  exact shutdown_waits_forever (hph'.trans (closeIfDone_of_mem hp)) hp (hlive ▸ hdead) ht hkill

/-- `web.0` runs as pid 7 when `Terminate(15)` comes: the exit of pid 7 ends
the shut down loop with `Killed`. -/
theorem terminate_killed_iff_web :
    ∃ s : Sys Unit, (Sys.init [⟨"web.0", (), Duration.seconds 1, none⟩] [] true).Reaches s ∧
      s.phase = .main ∧ s.live = [⟨7, some "web.0"⟩] ∧
      ∃ s', s.step (.terminate 15) = some s' ∧
        ((∃ t, s'.Reaches t ∧ t.phase = .returned .killed) ↔ ∀ p ∈ s.mon.left, p ∈ s.livePids) :=
  have h := Sys.Reaches.of_runEvents (Sys.init [⟨"web.0", (), Duration.seconds 1, none⟩] [] true)
    [.wake ⟨1000000000⟩, .pass (.ok 7 ⟨1000000000⟩), .pass .err] rfl
  ⟨_, h, rfl, rfl, terminate_killed_iff rfl 15⟩

/-! ## The shut down loop starts nothing

`Terminate` leaves the main loop for good: it clears `start_queue`, swaps
`processes` out, and the shut down loop only waits for exits, forwards
`Terminate` to the records of `left`, and may return. -/

namespace Sys

/-- What the shut down loop keeps, relative to the main loop's state `s` at the
`Terminate`. -/
structure Winding (s t : Sys ε) : Prop where
  /-- No child was started. -/
  live : ∀ c ∈ t.live, c ∈ s.live
  /-- The tables are as `Terminate` left them. -/
  mon : t.mon = { s.mon with startQueue := [], processes := ∅ }
  /-- The shut down loop waits on records of `s`'s `left`, or `run` returned. -/
  phase : (∃ l, t.phase = .shutdown l ∧ ∀ x ∈ l.entries, x ∈ s.mon.left.entries) ∨
    ∃ r, t.phase = .returned r
  /-- Every signal sent since went to a pid of `left`. -/
  sent : ∀ q ∈ t.sent, q ∈ s.sent ∨ q.1 ∈ s.mon.left

variable {s t t' : Sys ε}

/-- The shut down check on records of `left` is a `Winding` phase. -/
theorem Winding.phase_closeIfDone {l : AList (fun _ : Pid => Process ε)}
    (hl : ∀ x ∈ l.entries, x ∈ s.mon.left.entries) :
    (∃ l', closeIfDone l = .shutdown l' ∧ ∀ x ∈ l'.entries, x ∈ s.mon.left.entries) ∨
      ∃ r, closeIfDone l = .returned r := by
  rcases closeIfDone_cases l with h | h
  · exact .inl ⟨l, h, hl⟩
  · exact .inr ⟨_, h⟩

/-- A signal of a `Terminate` goes to the current pid of one of the records. -/
theorem exists_of_mem_signals {α : Type} {l : List (Σ _ : α, Process ε)} {sig : Int}
    {q : Pid × Int} (hq : q ∈ l.filterMap fun p => p.2.currentPid.map (·, sig)) :
    ∃ x ∈ l, x.2.currentPid = some q.1 := by
  obtain ⟨x, hx, hxq⟩ := List.mem_filterMap.1 hq
  obtain ⟨p, hp, rfl⟩ := Option.map_eq_some'.1 hxq
  exact ⟨x, hx, hp⟩

/-- The state right after a `Terminate` in the main loop. -/
theorem Winding.terminate {sig : Int} (hph : s.phase = .main) (h : s.step (.terminate sig) = some t) :
    Winding s t := by
  obtain ⟨-, rfl⟩ | ⟨l, hl, -⟩ := step_terminate h
  · exact ⟨fun _ => id, rfl, phase_closeIfDone fun _ => id, fun q hq =>
      (List.mem_append.1 hq).imp id fun hq => Monitor.mem_left.2 (exists_of_mem_signals hq)⟩
  · rw [hph] at hl; cases hl

/-- The loop waits on records of `s`'s `left`. -/
theorem Winding.entries (hw : Winding s t) {l : AList (fun _ : Pid => Process ε)}
    (hph : t.phase = .shutdown l) : ∀ x ∈ l.entries, x ∈ s.mon.left.entries := by
  obtain ⟨l', hl', hx⟩ | ⟨r, hr⟩ := hw.phase <;> rw [hph] at *
  · cases hl'; exact hx
  · cases hr

/-- Every event of the shut down loop keeps `Winding`. -/
theorem Winding.step (hw : Winding s t) {e : Event} (h : t.step e = some t') : Winding s t' := by
  have hloops : t.phase ≠ .main ∧ ∀ time, t.phase ≠ .starting time := by
    rcases hw.phase with ⟨l, hl, -⟩ | ⟨r, hl⟩ <;> rw [hl] <;> exact ⟨nofun, fun _ => nofun⟩
  cases e with
  | wake time => exact absurd (step_wake h).1 hloops.1
  | pass r => obtain ⟨time, hph, -⟩ := step_pass h; exact absurd hph (hloops.2 time)
  | exit pid =>
    obtain ⟨-, ⟨hph, -⟩ | ⟨l, hph, rfl⟩⟩ := step_exit h
    · exact absurd hph hloops.1
    · exact ⟨fun c hc => hw.live c (mem_reap.1 hc).1, hw.mon,
        phase_closeIfDone fun x hx => hw.entries hph x ((List.kerase_sublist _ _).subset hx), hw.sent⟩
  | terminate sig =>
    obtain ⟨hph, -⟩ | ⟨l, hph, rfl⟩ := step_terminate h
    · exact absurd hph hloops.1
    · refine ⟨hw.live, hw.mon, hw.phase, fun q hq => (List.mem_append.1 hq).elim (hw.sent q) fun hq => ?_⟩
      obtain ⟨x, hxl, hp⟩ := exists_of_mem_signals hq
      have hmem := hw.entries hph x hxl
      rw [Monitor.currentPid_of_mem_left hmem, Option.some.injEq] at hp
      exact .inr (hp ▸ AList.mem_keys.2 (List.mem_keys_of_mem hmem))
  | reboot =>
    obtain ⟨-, rfl⟩ := step_reboot h
    exact ⟨hw.live, hw.mon, .inr ⟨_, rfl⟩, hw.sent⟩

end Sys

/-- **After `Terminate`, the monitor starts nothing.**  From a `Terminate` in
the main loop on, every state a run reaches has no child but the children
live at the `Terminate`, the cleared tables `Terminate` left, is in the shut
down loop or has returned (never back in the main loop or the start loop, and
never panicked), and every signal sent since went to a pid that a record held
as its current pid at the `Terminate`. -/
theorem shutdown_starts_nothing {s s' t : Sys ε} {sig : Int} (hph : s.phase = .main)
    (hs' : s.step (.terminate sig) = some s') (h : s'.Reaches t) :
    (∀ c ∈ t.live, c ∈ s.live) ∧ t.mon = s'.mon ∧
      ((∃ l, t.phase = .shutdown l) ∨ ∃ r, t.phase = .returned r) ∧
      ∀ q ∈ t.sent, q ∈ s.sent ∨ q.1 ∈ s.mon.left := by
  have hw := h.rec_inv (Sys.Winding.terminate hph hs') fun _ _ _ ha he => ha.step he
  exact ⟨hw.live, hw.mon.trans (Sys.Winding.terminate hph hs').mon.symm,
    hw.phase.imp (fun ⟨l, hl, _⟩ => ⟨l, hl⟩) id, hw.sent⟩

/-- `web.0` runs as pid 7 and the adopted `web.1` as pid 8 when `Terminate(15)`
comes; pid 7 exits and `Terminate(15)` comes again: nothing was started, and
every signal went to pid 7 or pid 8. -/
theorem shutdown_starts_nothing_web :
    ∃ s s' t : Sys Unit,
      (Sys.init [⟨"web.0", (), Duration.seconds 1, none⟩,
        ⟨"web.1", (), Duration.seconds 1, some (8, ⟨0⟩)⟩] [] true).Reaches s ∧
      s.phase = .main ∧ s.step (.terminate 15) = some s' ∧
      s'.runEvents [.exit 7, .terminate 15] = some t ∧
      (∀ c ∈ t.live, c ∈ s.live) ∧ t.mon = s'.mon ∧
      ((∃ l, t.phase = .shutdown l) ∨ ∃ r, t.phase = .returned r) ∧
      ∀ q ∈ t.sent, q ∈ s.sent ∨ q.1 ∈ s.mon.left :=
  have h := Sys.Reaches.of_runEvents (Sys.init [⟨"web.0", (), Duration.seconds 1, none⟩,
      ⟨"web.1", (), Duration.seconds 1, some (8, ⟨0⟩)⟩] [] true)
    [.wake ⟨1000000000⟩, .pass (.ok 7 ⟨1000000000⟩), .pass .err] rfl
  ⟨_, _, _, h, rfl, rfl, rfl,
    shutdown_starts_nothing rfl rfl (Sys.Reaches.of_runEvents _ [.exit 7, .terminate 15] rfl)⟩

end Lithos
