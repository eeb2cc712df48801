import Lithos.Monitor.Run

/-!
# The tables agree: no `unwrap` of the monitor fails

Three places in `monitor.rs` assume that one table agrees with another:

* `_start_processes` pops a name and calls `processes.find_mut(&name).unwrap()`;
* the `Child` branch looks a pid up in `pids` and indexes `processes[*name]`;
* it then takes `prc.start_time.unwrap()`.

`Tables` is the agreement they need, plus the fact that makes the second one
close: every record is filed under its own name, so the name `_start_processes`
files a new pid under (`prc.name`) is a key of `processes`.  The `add` calls
make it true (`Tables.addAll`, while `pids` is still empty), one pass of the
start loop and the `Child` branch keep it (`Tables.startPass`,
`Tables.onChild`), and neither can panic while it holds.  Once the main loop
ends the tables are swapped out and never looked at again, so the invariant of
the run, `Sys.Sound`, asks for `Tables` only while the thread is in the main
loop or the start loop.  `run_never_panics` is the result: from any `add`
calls, every run keeps the tables in agreement and never reaches a panic.
-/

namespace Lithos

variable {ε : Type}

/-- The agreement between the monitor's three tables. -/
structure Tables (m : Monitor ε) : Prop where
  /-- A record is filed under its own name. -/
  name_eq : ∀ n prc, m.processes.lookup n = some prc → prc.name = n
  /-- A queued name is a registered one. -/
  queued : ∀ e ∈ m.startQueue, e.2 ∈ m.processes
  /-- A pid leads to a registered record that has a start time. -/
  pids : ∀ p n, m.pids.lookup p = some n →
    ∃ prc, m.processes.lookup n = some prc ∧ prc.startTime.isSome

namespace Tables

variable {m m' : Monitor ε}

/-- Filing a record under its own name keeps every record filed under its
own name. -/
theorem name_eq_insert {l : AList (fun _ : String => Process ε)}
    (h : ∀ n prc, l.lookup n = some prc → prc.name = n) {k : String} {prc : Process ε}
    (hk : prc.name = k) : ∀ n p, (l.insert k prc).lookup n = some p → p.name = n := by
  intro n p hn
  by_cases hne : n = k
  · subst hne; rw [AList.lookup_insert] at hn; cases hn; exact hk
  · rw [AList.lookup_insert_ne hne] at hn; exact h n p hn

theorem add (h : Tables m) (hp : m.pids = ∅) (name : String) (executor : ε) (timeout : Duration)
    (current : Option (Pid × Timespec)) : Tables (m.add name executor timeout current) where
  name_eq := by rw [Monitor.add_processes]; exact name_eq_insert h.name_eq rfl
  queued e he := by
    simp only [Monitor.add_startQueue, Monitor.add_processes, AList.mem_insert] at he ⊢
    split at he
    · exact .inr (h.queued e he)
    · rcases List.mem_cons.1 he with rfl | he
      · exact .inl rfl
      · exact .inr (h.queued e he)
  pids p n hn := by simp [hp] at hn

theorem addAll_pids (calls : List (AddCall ε)) (m : Monitor ε) :
    (Sys.addAll calls m).pids = m.pids := by
  induction calls generalizing m with
  | nil => rfl
  | cons c calls ih => simp only [Sys.addAll, List.foldl_cons] at ih ⊢; rw [ih]; rfl

theorem addAll (calls : List (AddCall ε)) : Tables (Sys.addAll calls (Monitor.new : Monitor ε)) := by
  suffices ∀ m : Monitor ε, Tables m → m.pids = ∅ → Tables (Sys.addAll calls m) from
    this _ ⟨by simp, by simp, by simp⟩ rfl
  induction calls with
  | nil => exact fun m h _ => h
  | cons c calls ih => exact fun m h hp => ih _ (h.add hp ..) hp

theorem startPass_ne_panic (h : Tables m) (time : Timespec) (r : Spawn) :
    m.startPass time r ≠ .panic := fun hp => by
  obtain ⟨e, he, hnone⟩ := Monitor.startPass_eq_panic hp
  have := h.queued e (StartQueue.dueTop_mem he)
  rw [← AList.lookup_isSome, hnone] at this
  cases this

/-- One pass of `_start_processes` keeps the tables in agreement. -/
theorem startPass (h : Tables m) {time : Timespec} {r : Spawn} {e : Entry}
    (hp : m.startPass time r = .next e m') : Tables m' := by
  obtain ⟨prc, he, hprc, ⟨pid, started, -, rfl⟩ | ⟨-, rfl⟩⟩ := Monitor.startPass_eq_next hp
  · have hname := h.name_eq _ _ hprc
    refine ⟨name_eq_insert h.name_eq hname, fun e' he' => ?_, fun p n hn => ?_⟩
    · exact AList.mem_insert _ |>.2 (.inr (h.queued e' (List.mem_of_mem_erase he')))
    · by_cases hne : n = e.2
      · subst hne; exact ⟨_, AList.lookup_insert _, rfl⟩
      rw [AList.lookup_insert_ne hne]
      by_cases hpid : p = pid
      · subst hpid; rw [AList.lookup_insert] at hn; cases hn; exact absurd hname hne
      · rw [AList.lookup_insert_ne hpid] at hn; exact h.pids p n hn
  · refine ⟨h.name_eq, fun e' he' => ?_, h.pids⟩
    rcases List.mem_cons.1 he' with rfl | he'
    · rw [← AList.lookup_isSome, hprc]; rfl
    · exact h.queued e' (List.mem_of_mem_erase he')

theorem onChild_ne_none (h : Tables m) (pid : Pid) : m.onChild pid ≠ none := fun hc => by
  obtain ⟨n, hn, hnone⟩ := Monitor.onChild_eq_none hc
  obtain ⟨prc, hprc, hst⟩ := h.pids pid n hn
  rw [hnone prc hprc] at hst
  cases hst

/-- The `Child` branch keeps the tables in agreement. -/
theorem onChild (h : Tables m) {pid : Pid} (hc : m.onChild pid = some m') : Tables m' := by
  obtain ⟨-, rfl⟩ | ⟨n, prc, started, -, hprc, -, rfl⟩ := Monitor.onChild_eq_some hc
  · exact h
  · refine ⟨h.name_eq, fun e he => ?_, h.pids⟩
    rcases List.mem_cons.1 he with rfl | he
    · rw [h.name_eq n prc hprc, ← AList.lookup_isSome, hprc]; rfl
    · exact h.queued e he

end Tables

/-- The phases in which the thread uses the tables: the main loop and the start
loop. -/
def Phase.running : Phase ε → Prop
  | .main => True
  | .starting _ => True
  | _ => False

namespace Sys

/-- The invariant of every run: no panic so far, and while the tables are in
use, they agree. -/
structure Sound (s : Sys ε) : Prop where
  /-- No `unwrap` or index has failed. -/
  not_panicked : s.phase ≠ .panicked
  /-- The tables agree while the loops use them. -/
  tables : s.phase.running → Tables s.mon

theorem Sound.tables_main {s : Sys ε} (hs : s.Sound) (h : s.phase = .main) : Tables s.mon :=
  hs.tables (by rw [h]; trivial)

theorem Sound.tables_starting {s : Sys ε} {time : Timespec} (hs : s.Sound)
    (h : s.phase = .starting time) : Tables s.mon :=
  hs.tables (by rw [h]; trivial)

theorem sound_init (calls : List (AddCall ε)) (strays : List Pid) (allowReboot : Bool) :
    (init calls strays allowReboot).Sound :=
  ⟨nofun, fun _ => by
    have h := Tables.addAll calls (ε := ε)
    exact ⟨h.name_eq, h.queued, h.pids⟩⟩

/-- Every event keeps `Sound`. -/
theorem Sound.step {s s' : Sys ε} {e : Event} (hs : s.Sound) (h : s.step e = some s') :
    s'.Sound := by
  cases e with
  | wake time =>
    obtain ⟨hph, rfl⟩ := step_wake h
    exact ⟨nofun, fun _ => hs.tables_main hph⟩
  | pass r =>
    obtain ⟨time, hph, ⟨-, rfl⟩ | ⟨hp, rfl⟩ | ⟨e, m, hm, ⟨_, _, -, -, rfl⟩ | ⟨-, rfl⟩⟩⟩ := step_pass h
    · exact ⟨nofun, fun _ => hs.tables_starting hph⟩
    · exact absurd hp ((hs.tables_starting hph).startPass_ne_panic time r)
    · exact ⟨by simp [hph], fun _ => (hs.tables_starting hph).startPass hm⟩
    · exact ⟨by simp [hph], fun _ => (hs.tables_starting hph).startPass hm⟩
  | exit pid =>
    obtain ⟨-, ⟨hph, ⟨m, hm, rfl⟩ | ⟨hm, -⟩⟩ | ⟨l, hph, rfl⟩⟩ := step_exit h
    · exact ⟨by simp [hph], fun _ => (hs.tables_main hph).onChild hm⟩
    · exact absurd hm ((hs.tables_main hph).onChild_ne_none pid)
    · refine ⟨closeIfDone_ne_panicked _, fun hr => ?_⟩
      simp only [closeIfDone] at hr; split at hr <;> cases hr
  | terminate sig =>
    obtain ⟨hph, rfl⟩ | ⟨l, hph, rfl⟩ := step_terminate h
    · refine ⟨closeIfDone_ne_panicked _, fun hr => ?_⟩
      simp only [closeIfDone] at hr; split at hr <;> cases hr
    · exact ⟨by simp [hph], fun hr => by simp [hph, Phase.running] at hr⟩
  | reboot =>
    obtain ⟨-, rfl⟩ := step_reboot h
    exact ⟨nofun, nofun⟩

end Sys

/-- **No `unwrap` or index of the monitor fails.**  From any `add` calls, every
state a run of `Monitor::run` reaches has not panicked, and while the main loop
or the start loop uses the tables, every queued name and every name in `pids`
is a key of `processes`, and every record reached through `pids` has a start
time. -/
theorem run_never_panics (calls : List (AddCall ε)) (strays : List Pid) (allowReboot : Bool)
    {s : Sys ε} (h : (Sys.init calls strays allowReboot).Reaches s) :
    s.phase ≠ .panicked ∧ (s.phase.running → Tables s.mon) :=
  let hs := h.rec_inv (Sys.sound_init calls strays allowReboot) fun _ _ _ ha he => ha.step he
  ⟨hs.not_panicked, hs.tables⟩

/-- `web.0` woken at 1 s, spawned as pid 7, exited, and woken again at 2 s: the
state reached has not panicked and its tables agree. -/
theorem run_never_panics_web :
    ∃ s : Sys Unit, (Sys.init [⟨"web.0", (), Duration.seconds 1, none⟩] [] true).Reaches s ∧
      s.phase = .starting ⟨2000000000⟩ ∧ s.phase ≠ .panicked ∧ (s.phase.running → Tables s.mon) :=
  have h := Sys.Reaches.of_runEvents (Sys.init [⟨"web.0", (), Duration.seconds 1, none⟩] [] true)
    [.wake ⟨1000000000⟩, .pass (.ok 7 ⟨1000000000⟩), .pass .err, .exit 7, .wake ⟨2000000000⟩] rfl
  ⟨_, h, rfl, run_never_panics _ _ _ h⟩

end Lithos
