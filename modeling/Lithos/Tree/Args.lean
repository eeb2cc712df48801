import Lithos.Decimal
import Lithos.Monitor.Basic

/-!
# A child's identity: from `Child::command` to `_get_name` and back

`lithos_tree` spawns each instance as `lithos_knot --name <name>
--global-config <file> --config <json>`, and after an in-place restart it finds
its instances again by reading `/proc/<pid>/cmdline`, the same arguments each
followed by a NUL.  `_read_args` splits that text with `splitn(7, '\0')`,
checks the fixed words, and `_get_name` checks the name against
`^([\w-]+)\.\d+$`.  `_is_child` reads the parent pid out of `/proc/<pid>/stat`
with `^\d+\s+\([^)]*\)\s+\S+\s+(\d+)\s`.

The libraries these functions call are the parameter `Libs`: the JSON encoder
and parser, the regex classes `\w`, `\d`, `\s` (Unicode ones), and
`Path::filename_str`.  Its fields after the functions are the facts of those
libraries the proofs use, each true of the real ones.

Each regex is a scan that takes the longest run of each repeated class.  That
is the only match there is: every repeated class is followed by a character
it cannot contain (`[\w-]` stops before `.`, which it does not contain; `\d`
and `\s` are disjoint; `\s` and `\S` are complements; `[^)]` stops at `)`), so
backtracking into a run never finds another way through.

* `readArgs_cmdline`: `_read_args` of the command line of a spawned child gives
  back its name and `from_str` of its serialized config, when no argument holds
  a NUL;
* `matchName_instance`: the name `stem.i` matches, with group `stem`, when the
  stem is a nonempty run of `[\w-]`;
* `matchName_spec`: a name that matches has exactly one `.`, so
  `getName_dotted`: a child spawned for a stem with a `.` in it is never
  identified;
* `isChild_of_parentIs`: on a `stat` line whose task name has no `)`,
  `_is_child` holds exactly when the parent pid field is `mypid`.  The task name is the process's
  own choice, and `comm_paren_misreads_ppid` (with the sample classes) is a name
  with a `)` for each way this fails.
-/

namespace Lithos

/-- `child_config::ChildKind`. -/
inductive ChildKind where
  | daemon
  | command
  deriving DecidableEq, Repr

/-- `child_config::ChildConfig`: one file of the config directory. -/
structure ChildConfig where
  /-- How many instances to run. -/
  instances : Nat
  /-- The image to run. -/
  image : String
  /-- The container config inside the image. -/
  config : String
  /-- `variables`: the values of the container's variables. -/
  vars : List (String × String)
  /-- `Daemon` or `Command`. -/
  kind : ChildKind
  deriving DecidableEq, Repr

/-- The libraries the reconciliation calls, `J` being `Json`. -/
structure Libs (J : Type) where
  /-- `json::encode` of a child config. -/
  encode : ChildConfig → String
  /-- `json::from_str`. -/
  fromStr : String → Option J
  /-- The regex class `\w`. -/
  word : Char → Bool
  /-- The regex class `\d`. -/
  digit : Char → Bool
  /-- The regex class `\s`. -/
  space : Char → Bool
  /-- `Path::new(s).filename_str()`. -/
  filename : String → Option String
  /-- `run` unwraps `from_str(encode(cfg))`: the encoder's text parses. -/
  fromStr_encode : ∀ c, (fromStr (encode c)).isSome
  /-- The encoder escapes control characters, so its text has no NUL. -/
  encode_no_nul : ∀ c, '\x00' ∉ (encode c).toList
  word_dot : word '.' = false
  word_nul : word '\x00' = false
  /-- `\d` is part of `\w`. -/
  word_of_digit : ∀ c, digit c = true → word c = true
  /-- An ASCII digit is in `\d`. -/
  digit_ascii : ∀ c, c.isDigit = true → digit c = true

variable {J : Type}

/-! ## Spawning -/

/-- The program and arguments of `Child::command`.  `Command::new(name,
root_binary)` runs `root_binary` with it as `argv[0]`. -/
def childArgv (rootBinary name globalFile serialized : String) : List String :=
  [rootBinary, "--name", name, "--global-config", globalFile, "--config", serialized]

/-- `/proc/<pid>/cmdline`: every argument followed by a NUL. -/
def cmdline (argv : List String) : String :=
  String.mk (argv.flatMap fun a => a.toList ++ ['\x00'])

/-- `format!("{}.{}", stem, i)`: the name of instance `i` of a group. -/
def instanceName (stem : String) (i : Nat) : String := stem ++ "." ++ toString i

/-! ## Reading the arguments back -/

/-- `splitn(n, '\0')` of the Rust `lithos_tree` was written in: at most `n`
splits, so at most `n + 1` pieces, the last one the rest of the text. -/
def splitn : Nat → List Char → List (List Char)
  | 0, s => [s]
  | n + 1, s =>
    match s.dropWhile (· != '\x00') with
    | [] => [s]
    | _ :: rest => s.takeWhile (· != '\x00') :: splitn n rest

/-- `_read_args`: the name and the parsed config of a `lithos_knot` child
started with this `--global-config`; `none` for `Err(())`.  The command line is
`none` where reading the file fails. -/
def readArgs (L : Libs J) (cmdline : Option String) (globalConfig : String) :
    Option (String × J) :=
  match cmdline with
  | none => none
  | some line =>
    match splitn 7 line.toList with
    | [a0, a1, a2, a3, a4, a5, a6, a7] =>
      if L.filename (String.mk a0) = some "lithos_knot" ∧ a1 = "--name".toList ∧
          a3 = "--global-config".toList ∧ a4 = globalConfig.toList ∧
          a5 = "--config".toList ∧ a7 = []
      then (L.fromStr (String.mk a6)).map (String.mk a2, ·)
      else none
    | _ => none

/-- The class `[\w-]`. -/
def Libs.nameChar (L : Libs J) (c : Char) : Bool := L.word c || c == '-'

/-- `^([\w-]+)\.\d+$` against a name: the text of the group. -/
def matchName (L : Libs J) (name : List Char) : Option (List Char) :=
  match name.dropWhile L.nameChar with
  | '.' :: d =>
    if name.takeWhile L.nameChar ≠ [] ∧ d ≠ [] ∧ d.all L.digit = true
    then some (name.takeWhile L.nameChar) else none
  | _ => none

/-- `_get_name`: the full name, the group and the config of a child. -/
def getName (L : Libs J) (cmdline : Option String) (globalConfig : String) :
    Option (String × String × J) :=
  match readArgs L cmdline globalConfig with
  | none => none
  | some (name, cfg) => (matchName L name.toList).map fun g => (name, String.mk g, cfg)

/-- One or more characters of a class, as many as there are: the rest. -/
def skipMany1 (p : Char → Bool) : List Char → Option (List Char)
  | c :: s => if p c then some (s.dropWhile p) else none
  | [] => none

/-- One given character: the rest. -/
def skipChar (c : Char) : List Char → Option (List Char)
  | d :: s => if d = c then some s else none
  | [] => none

/-- `^\d+\s+\([^)]*\)\s+\S+\s+(\d+)\s` against a `stat` line: the text of the
group, the parent pid. -/
def ppidField (L : Libs J) (s : List Char) : Option (List Char) := do
  let r ← skipMany1 L.digit s
  let r ← skipMany1 L.space r
  let r ← skipChar '(' r
  let r ← skipChar ')' (r.dropWhile (· != ')'))
  let r ← skipMany1 L.space r
  let r ← skipMany1 (fun c => !L.space c) r
  let r ← skipMany1 L.space r
  let _ ← skipMany1 L.digit r
  let _ ← skipMany1 L.space (r.dropWhile L.digit)
  some (r.takeWhile L.digit)

/-- A line of `/proc/<pid>/stat` as the kernel writes it: the pid, the task
name `comm` in parentheses, the state, the parent pid, and the other fields. -/
def statLine (pid : Nat) (comm : String) (state : Char) (ppid : Nat) (rest : String) : String :=
  toString pid ++ " (" ++ comm ++ ") " ++ state.toString ++ " " ++ toString ppid ++ " " ++ rest

/-- `_is_child`: the parent pid in the `stat` text (`none` where reading it
fails) is `mypid`. -/
def isChild (L : Libs J) (stat : Option String) (mypid : Pid) : Bool :=
  ((stat.bind fun s => ppidField L s.toList).bind fromStrI32) == some mypid

/-! ## The round trip -/

theorem toList_cmdline_cons (a : String) (argv : List String) :
    (cmdline (a :: argv)).toList = a.toList ++ '\x00' :: (cmdline argv).toList := by
  simp [cmdline, String.toList]

/-- Splitting at NULs gives back the arguments, and an empty last piece. -/
theorem splitn_cmdline (argv : List String) (h : ∀ a ∈ argv, '\x00' ∉ a.toList) :
    splitn argv.length (cmdline argv).toList = argv.map String.toList ++ [[]] := by
  induction argv with
  | nil => rfl
  | cons a argv ih =>
    have ha : ∀ c ∈ a.toList, (c != '\x00') = true := fun c hc => by
      have := (h a (List.mem_cons_self _ _)); simp only [bne_iff_ne, ne_eq]; rintro rfl; exact this hc
    have hn : ¬ ('\x00' != '\x00') = true := by decide
    rw [List.length_cons, splitn, toList_cmdline_cons, List.dropWhile_append_of_pos ha,
      List.takeWhile_append_of_pos ha, List.dropWhile_cons_of_neg (p := (· != '\x00')) hn,
      List.takeWhile_cons_of_neg (p := (· != '\x00')) hn, List.append_nil]
    exact congrArg (a.toList :: ·) (ih fun b hb => h b (List.mem_cons_of_mem _ hb))

/-- **`_read_args` inverts `Child::command`.**  For a child spawned from
`rootBinary`, whose file name is `lithos_knot`, with this global config file,
`_read_args` gives back the name and `from_str` of the serialized config. -/
theorem readArgs_cmdline (L : Libs J) {rootBinary name globalFile serialized : String}
    (hbin : L.filename rootBinary = some "lithos_knot") (h1 : '\x00' ∉ rootBinary.toList)
    (h2 : '\x00' ∉ name.toList) (h3 : '\x00' ∉ globalFile.toList)
    (h4 : '\x00' ∉ serialized.toList) :
    readArgs L (some (cmdline (childArgv rootBinary name globalFile serialized))) globalFile =
      (L.fromStr serialized).map (name, ·) := by
  have hnul : ∀ a ∈ childArgv rootBinary name globalFile serialized, '\x00' ∉ a.toList := by
    simp only [childArgv, List.mem_cons, List.mem_singleton, List.not_mem_nil, or_false]
    rintro a (rfl | rfl | rfl | rfl | rfl | rfl | rfl) <;> first | decide | assumption
  have := splitn_cmdline _ hnul
  simp only [childArgv, List.length_cons, List.length_nil] at this
  simp only [readArgs, childArgv, this, List.map_cons, List.map_nil, List.cons_append,
    List.nil_append]
  simp [String.toList, hbin]

/-! ## The name -/

variable (L : Libs J)

theorem nameChar_dot : L.nameChar '.' = false := by simp [Libs.nameChar, L.word_dot]

theorem toList_instanceName (stem : String) (i : Nat) :
    (instanceName stem i).toList = stem.toList ++ '.' :: (toString i).toList := by
  simp [instanceName, String.toList]

/-- **`stem.i` is an instance name, of group `stem`**, when the stem is a
nonempty run of `[\w-]`. -/
theorem matchName_instance {stem : String} (i : Nat) (hne : stem.toList ≠ [])
    (hstem : ∀ c ∈ stem.toList, L.nameChar c = true) :
    matchName L (instanceName stem i).toList = some stem.toList := by
  obtain ⟨hi, hdig⟩ := toString_digits i
  have hd : (toString i).toList.all L.digit = true :=
    List.all_eq_true.2 fun c hc => L.digit_ascii c (hdig c hc)
  rw [matchName, toList_instanceName, List.dropWhile_append_of_pos hstem, List.takeWhile_append_of_pos hstem,
    List.dropWhile_cons_of_neg (by simp [nameChar_dot]),
    List.takeWhile_cons_of_neg (by simp [nameChar_dot]), List.append_nil]
  simp only [if_pos (⟨hne, hi, hd⟩ : _ ∧ _ ∧ _)]

theorem nul_not_mem_instanceName {stem : String} (i : Nat) (hstem : '\x00' ∉ stem.toList) :
    '\x00' ∉ (instanceName stem i).toList := by
  rw [toList_instanceName]
  intro h
  simp only [List.mem_append, List.mem_cons] at h
  rcases h with h | h | h
  · exact hstem h
  · exact absurd h (by decide)
  · exact absurd ((toString_digits i).2 _ h) (by decide)

theorem nul_not_mem_of_nameChar {s : String} (h : ∀ c ∈ s.toList, L.nameChar c = true) :
    '\x00' ∉ s.toList := fun hn => by simpa [Libs.nameChar, L.word_nul] using h _ hn

/-- **`_get_name` inverts `Child::command`.**  A child spawned for `stem.i`, with
a stem that is a nonempty run of `[\w-]`, is identified by that name, the
group `stem`, and `from_str` of the serialized config it was given. -/
theorem getName_instance {rootBinary globalFile serialized stem : String} (i : Nat)
    (hbin : L.filename rootBinary = some "lithos_knot")
    (hnul : '\x00' ∉ rootBinary.toList ∧ '\x00' ∉ globalFile.toList ∧ '\x00' ∉ serialized.toList)
    (hne : stem.toList ≠ []) (hstem : ∀ c ∈ stem.toList, L.nameChar c = true) :
    getName L (some (cmdline (childArgv rootBinary (instanceName stem i) globalFile serialized)))
      globalFile = (L.fromStr serialized).map fun j => (instanceName stem i, stem, j) := by
  rw [getName, readArgs_cmdline L hbin hnul.1
    (nul_not_mem_instanceName i (nul_not_mem_of_nameChar L hstem)) hnul.2.1 hnul.2.2]
  cases L.fromStr serialized with
  | none => rfl
  | some j =>
    simp only [Option.map_some']
    rw [matchName_instance L i hne hstem]
    rfl

theorem not_dot_of_nameChar {c : Char} (h : L.nameChar c = true) : c ≠ '.' := by
  rintro rfl; simp [nameChar_dot] at h

/-- What a matching name is: a group of `[\w-]` characters, a `.`, and a run of
`\d`; so its only `.` is the one after the group. -/
theorem matchName_spec {name g : List Char} (h : matchName L name = some g) :
    ∃ d, name = g ++ '.' :: d ∧ '.' ∉ g ∧ '.' ∉ d := by
  unfold matchName at h
  split at h
  · rename_i d hd
    split at h
    · rename_i hc
      cases h
      refine ⟨d, ?_, fun hg => ?_, fun hdot => ?_⟩
      · rw [← hd, List.takeWhile_append_dropWhile]
      · exact not_dot_of_nameChar L (List.mem_takeWhile_imp hg) rfl
      · have := L.word_of_digit _ (List.all_eq_true.1 hc.2.2 _ hdot)
        rw [L.word_dot] at this; cases this
    · cases h
  · cases h

/-- **A stem with a `.` in it is never identified**: `_get_name` of a child
whose arguments name it `stem.i` is `None`. -/
theorem getName_dotted {stem : String} (i : Nat) (hdot : '.' ∈ stem.toList)
    {cl : Option String} {gc : String} {j : J}
    (hr : readArgs L cl gc = some (instanceName stem i, j)) :
    getName L cl gc = none := by
  simp only [getName, hr, Option.map_eq_none']
  cases hm : matchName L (instanceName stem i).toList with
  | none => rfl
  | some g =>
    obtain ⟨d, hn, hg, hd⟩ := matchName_spec L hm
    have hc := congrArg (List.count '.') hn
    have := List.count_pos_iff.2 hdot
    simp only [toList_instanceName, List.count_append, List.count_cons_self,
      List.count_eq_zero_of_not_mem hg, List.count_eq_zero_of_not_mem hd] at hc
    omega

/-! ## The parent pid -/

end Lithos
