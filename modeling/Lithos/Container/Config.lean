import Lithos.Container.Vars
import Lithos.Tree.Args
import Mathlib.Data.List.Dedup

/-!
# Container configs: `instantiate`, and what `lithos_check` checks before it

`ContainerConfig::instantiate` substitutes the variables of a container config
for one instance: every reference in the arguments, the environment and the
keys of `tcp_ports` goes through `replace_vars` with a replacer that looks the
name up in the child's variables (then `lithos:name`,
`lithos:config_filename`), and every `tcp_ports` key must then parse as a
`u16`.  It fails with the set of unknown names and the set of bad ports.

`lithos_check` runs two checks first: `validate_substitutions` reports every
referenced name that is not a declared variable of the config, and
`validate_variable_types` every declared variable that the child does not
define or defines with a value of the wrong type.

* `instantiate_ok_iff`: `instantiate` succeeds exactly when every name it
  passes to the replacer is known and every port key parses;
* `known_of_checks`: when the two checks pass, every name is known;
* `checked_instantiate_ok_iff`: so, once the checks pass, `instantiate`
  succeeds exactly when every port key parses after substitution; nothing the
  checker does looks at that (its own comment says so), and
  `unchecked_port_counterexample` is a config with the key `http` that passes
  both checks and fails;
* `instantiate_error_of_ref`: every name passed to the replacer keeps the `@{`
  of its reference, so a config with a reference fails to instantiate for a
  child whose variable names do not begin with `@`, and
  `validateSubstitutions_ne_nil_of_ref`: `lithos_check` reports such a config.

The fields `instantiate` only copies (volumes, ids, limits, ...) are left out;
the sandbox enters only through `in_range(&sandbox.allow_tcp_ports, ·)`, a
parameter.
-/

namespace Lithos

/-! ## Texts -/

/-- `std::num::IntErrorKind`, as far as `str::parse::<u16>` can fail. -/
inductive IntErrorKind where
  | empty
  | invalidDigit
  | posOverflow
  deriving DecidableEq, Repr

/-- `Display for ParseIntError`. -/
def IntErrorKind.description : IntErrorKind → String
  | .empty => "cannot parse integer from empty string"
  | .invalidDigit => "invalid digit found in string"
  | .posOverflow => "number too large to fit in target type"

/-- The digit loop of `u16::from_str_radix(s, 10)`, from the value read so far. -/
def parseDigitsU16 : List Char → Nat → Except IntErrorKind Nat
  | [], acc => .ok acc
  | c :: s, acc =>
    match toDigit c with
    | none => .error .invalidDigit
    | some d => if acc * 10 + d < 2 ^ 16 then parseDigitsU16 s (acc * 10 + d) else .error .posOverflow

/-- `str::parse::<u16>`: an optional `+`, then ASCII digits. -/
def parseU16 : List Char → Except IntErrorKind Nat
  | [] => .error .empty
  | ['+'] => .error .invalidDigit
  | '+' :: s => parseDigitsU16 s 0
  | s => parseDigitsU16 s 0

/-- The digit loop of `from_str_radix(s, 10)` for an unsigned type whose values
are below `bound`. -/
def parseDigitsBelow (bound : Nat) : List Char → Nat → Except IntErrorKind Nat
  | [], acc => .ok acc
  | c :: s, acc =>
    match toDigit c with
    | none => .error .invalidDigit
    | some d =>
      if acc * 10 + d < bound then parseDigitsBelow bound s (acc * 10 + d) else .error .posOverflow

/-- `str::parse` of an unsigned type whose values are below `bound`. -/
def parseUnsigned (bound : Nat) : List Char → Except IntErrorKind Nat
  | [] => .error .empty
  | ['+'] => .error .invalidDigit
  | '+' :: s => parseDigitsBelow bound s 0
  | s => parseDigitsBelow bound s 0

/-- `str::parse::<u32>`. -/
def parseU32 (s : List Char) : Except IntErrorKind Nat := parseUnsigned (2 ^ 32) s

theorem parseDigitsU16_eq : ∀ (s : List Char) (acc : Nat),
    parseDigitsU16 s acc = parseDigitsBelow (2 ^ 16) s acc
  | [], _ => rfl
  | c :: s, acc => by
    simp only [parseDigitsU16, parseDigitsBelow]
    cases toDigit c <;> simp only [parseDigitsU16_eq s]

/-- `parseU16` is the member of the family for `u16`. -/
theorem parseU16_eq (s : List Char) : parseU16 s = parseUnsigned (2 ^ 16) s := by
  unfold parseU16 parseUnsigned
  split <;> simp only [parseDigitsU16_eq]

theorem parseDigitsBelow_lt {bound : Nat} : ∀ {s : List Char} {acc n : Nat}, acc < bound →
    parseDigitsBelow bound s acc = .ok n → n < bound
  | [], _, _, h, he => by cases he; exact h
  | c :: s, acc, n, h, he => by
    simp only [parseDigitsBelow] at he
    split at he
    · cases he
    · split at he
      · exact parseDigitsBelow_lt ‹_› he
      · cases he

/-- The value read so far only grows. -/
theorem le_of_foldl_digitStep : ∀ {s : List Char} {acc v : Nat},
    s.foldl digitStep (some acc) = some v → acc ≤ v
  | [], _, _, h => by cases h; exact le_rfl
  | c :: s, acc, v, h => by
    rw [List.foldl_cons] at h
    cases hc : toDigit c with
    | none => simp [digitStep, hc] at h
    | some d =>
      simp only [digitStep, hc, Option.some_bind, Option.map_some'] at h
      have := le_of_foldl_digitStep h
      omega

/-- The digit loop reads a run of digits as `digitsValue` does, when the value
is below the bound: the overflow check after every digit is the check of the
final value. -/
theorem parseDigitsBelow_of_foldl {bound : Nat} : ∀ {s : List Char} {acc v : Nat},
    s.foldl digitStep (some acc) = some v → v < bound → parseDigitsBelow bound s acc = .ok v
  | [], _, _, h, _ => by cases h; rfl
  | c :: s, acc, v, h, hv => by
    rw [List.foldl_cons] at h
    cases hc : toDigit c with
    | none => simp [digitStep, hc] at h
    | some d =>
      simp only [digitStep, hc, Option.some_bind, Option.map_some'] at h
      have hlt : acc * 10 + d < bound := (le_of_foldl_digitStep h).trans_lt hv
      simp only [parseDigitsBelow, hc, if_pos hlt]
      exact parseDigitsBelow_of_foldl h hv

/-- **`str::parse` reads a printed number back**, when it fits. -/
theorem parseUnsigned_toString {bound n : Nat} (h : n < bound) :
    parseUnsigned bound (toString n).toList = .ok n := by
  obtain ⟨hne, hdig⟩ := toString_digits n
  obtain ⟨c, t, hct⟩ := List.exists_cons_of_ne_nil hne
  have hc : c ≠ '+' := fun hc => absurd (hdig c (hct ▸ List.mem_cons_self c t)) (by rw [hc]; decide)
  have hparse : parseDigitsBelow bound (toString n).toList 0 = .ok n :=
    parseDigitsBelow_of_foldl (digitsValue_toString n) h
  rw [hct] at hparse ⊢
  unfold parseUnsigned
  split
  · contradiction
  · rename_i heq; cases heq; exact absurd rfl hc
  · rename_i heq; cases heq; exact absurd rfl hc
  · exact hparse

/-- What the digit loop accepts is all ASCII digits. -/
theorem isDigit_of_parseDigitsBelow {bound : Nat} : ∀ {s : List Char} {acc n : Nat},
    parseDigitsBelow bound s acc = .ok n → ∀ c ∈ s, c.isDigit
  | [], _, _, _ => by simp
  | c :: s, acc, n, h => by
    simp only [parseDigitsBelow] at h
    split at h
    · cases h
    · rename_i d hd
      split at h
      · exact List.forall_mem_cons.2 ⟨isDigit_of_toDigit hd, isDigit_of_parseDigitsBelow h⟩
      · cases h

/-- What `str::parse` accepts is ASCII digits and `+` signs. -/
theorem isDigit_of_parseUnsigned {bound : Nat} {s : List Char} {n : Nat}
    (h : parseUnsigned bound s = .ok n) : ∀ c ∈ s, c.isDigit ∨ c = '+' := by
  unfold parseUnsigned at h
  split at h
  · cases h
  · cases h
  · exact List.forall_mem_cons.2 ⟨.inr rfl, fun c hc => .inl (isDigit_of_parseDigitsBelow h c hc)⟩
  · exact fun c hc => .inl (isDigit_of_parseDigitsBelow h c hc)

/-- What `str::parse` gives is below the bound. -/
theorem lt_of_parseUnsigned {bound : Nat} (hb : 0 < bound) {s : List Char} {n : Nat}
    (h : parseUnsigned bound s = .ok n) : n < bound := by
  unfold parseUnsigned at h
  split at h
  · cases h
  · cases h
  · exact parseDigitsBelow_lt hb h
  · exact parseDigitsBelow_lt hb h

/-- How `{:?}` writes a character of a `str`. -/
def escapeDebug (c : Char) : List Char :=
  if c = '\t' then ['\\', 't'] else if c = '\r' then ['\\', 'r']
  else if c = '\n' then ['\\', 'n'] else if c = '\\' then ['\\', '\\']
  else if c = '"' then ['\\', '"']
  else if c.toNat < 0x20 ∨ c.toNat = 0x7f then
    "\\u\x7b".toList ++ Nat.toDigits 16 c.toNat ++ ['\x7d']
  else [c]

/-- `format!("{:?}", s)` of a `str`. -/
def debugStr (s : String) : String := "\"" ++ String.mk (s.toList.flatMap escapeDebug) ++ "\""

/-- `format!("{:?}", v)` of a `Vec<String>`. -/
def debugList (l : List String) : String := "[" ++ ", ".intercalate (l.map debugStr) ++ "]"

/-! ## The config -/

/-- `container_config::Variable`: the type of a declared variable. -/
inductive Variable where
  | tcpPort
  | name
  | choice (choices : List String)
  deriving DecidableEq, Repr

/-- `Variable::validate`: whether `value` is a value of the type, with the
message otherwise.  `allowTcpPorts` is `in_range(&sandbox.allow_tcp_ports, ·)`. -/
def Variable.validate (allowTcpPorts : Nat → Bool) (v : Variable) (value : String) :
    Except String Unit :=
  match v with
  | .tcpPort =>
    match parseU16 value.toList with
    | .error e => .error ("invalid TcpPort " ++ debugStr value ++ ": " ++ e.description)
    | .ok port =>
      if allowTcpPorts port then .ok ()
      else .error ("TcpPort " ++ toString port ++ " is not in allowed range")
  | .name =>
    if value.toList.all fun x => x.isAlphanum || x == '-' || x == '_' then .ok ()
    else .error ("Value " ++ debugStr value ++
      " contains characters that are invalid for names (alphanumeric, `-` and `_`)")
  | .choice choices =>
    if choices.any (· == value) then .ok ()
    else .error ("variable value " ++ debugStr value ++ " is not one of " ++ debugList choices)

/-- `container_config::TcpPort`, which `instantiate` carries over unchanged. -/
structure TcpPort where
  host : String
  fd : Int
  reuseAddr : Bool
  reusePort : Bool
  listenBacklog : Nat
  deriving DecidableEq, Repr

/-- `container_config::ContainerConfig`: the fields `instantiate` and the checks
read. -/
structure ContainerConfig where
  /-- `variables`: the declared variables and their types. -/
  vars : List (String × Variable)
  /-- The command line arguments. -/
  arguments : List String
  /-- The environment. -/
  environ : List (String × String)
  /-- The ports to open, keyed by a text that may hold references. -/
  tcpPorts : List (String × TcpPort)
  deriving DecidableEq, Repr

/-- `container_config::Variables`. -/
structure Variables where
  /-- The child's variables. -/
  userVars : List (String × String)
  /-- `lithos_name`. -/
  lithosName : String
  /-- `lithos_config_filename`. -/
  lithosConfigFilename : String

/-- The value the replacer of `instantiate` finds for a name. -/
def Variables.lookup (v : Variables) (varname : String) : Option String :=
  match v.userVars.lookup varname with
  | some x => some x
  | none =>
    if varname = "lithos:name" then some v.lithosName
    else if varname = "lithos:config_filename" then some v.lithosConfigFilename
    else none

/-- The replacer of `instantiate`. -/
def Variables.replacer (v : Variables) (varname : String) : String :=
  (v.lookup varname).getD ("<<no var " ++ debugStr varname ++ ">>")

/-- `container_config::InstantiatedConfig`: the fields `instantiate` computes. -/
structure InstantiatedConfig where
  arguments : List String
  environ : List (String × String)
  tcpPorts : AList fun _ : Nat => TcpPort

namespace ContainerConfig

variable (c : ContainerConfig) (v : Variables)

/-- The names `instantiate` passes to the replacer, in the order it passes
them: arguments, environment, port keys. -/
def refNames (f : String → String) : List String :=
  (c.arguments.map fun a => (replaceVars f a.toList).2).flatten ++
    (c.environ.map fun e => (replaceVars f e.2.toList).2).flatten ++
    (c.tcpPorts.map fun p => (replaceVars f p.1.toList).2).flatten

/-- One entry of `tcp_ports` in `instantiate`: the port, and the error for a
key that does not parse. -/
def portOf (p : String × TcpPort) : Nat × Option String :=
  match parseU16 (replaceVars v.replacer p.1.toList).1 with
  | .ok port => (port, none)
  | .error e => (0, some ("Bad port " ++ debugStr p.1 ++ ": " ++ e.description))

/-- `errors1`: the unknown names. -/
def errors1 : List String :=
  (((c.refNames v.replacer).filter fun n => (v.lookup n).isNone).map fun n =>
    "unknown variable " ++ debugStr n).dedup

/-- `errors2`: the bad ports. -/
def errors2 : List String := (c.tcpPorts.filterMap fun p => (portOf v p).2).dedup

/-- `ContainerConfig::instantiate`. -/
def instantiate : Except (List String) InstantiatedConfig :=
  if c.errors1 v = [] ∧ c.errors2 v = [] then
    .ok { arguments := c.arguments.map fun a => String.mk (replaceVars v.replacer a.toList).1
          environ := c.environ.map fun e => (e.1, String.mk (replaceVars v.replacer e.2.toList).1)
          tcpPorts := c.tcpPorts.foldl (fun m p => m.insert (portOf v p).1 p.2) ∅ }
  else .error (c.errors1 v ++ c.errors2 v)

end ContainerConfig

/-- `lithos_check::validate_substitutions`: the errors it reports. -/
def validateSubstitutions (c : ContainerConfig) : List String :=
  let check := fun s : String =>
    ((replaceVars (fun _ => "") s.toList).2.filter fun n => !c.vars.any (·.1 == n)).map
      fun n => "undefined variable " ++ debugStr n
  (c.tcpPorts.map fun p => check p.1).flatten ++ (c.environ.map fun e => check e.2).flatten ++
    (c.arguments.map check).flatten

/-- The error `validate_variable_types` reports for one declared variable. -/
def variableTypeError (allowTcpPorts : Nat → Bool) (child : ChildConfig)
    (d : String × Variable) : Option String :=
  match child.vars.lookup d.1 with
  | some value =>
    match d.2.validate allowTcpPorts value with
    | .error e => some ("Variable " ++ debugStr d.1 ++ " is invalid: " ++ e)
    | .ok () => none
  | none => some ("Variable " ++ debugStr d.1 ++ " is undefined")

/-- `lithos_check::validate_variable_types`: the errors it reports. -/
def validateVariableTypes (allowTcpPorts : Nat → Bool) (c : ContainerConfig)
    (child : ChildConfig) : List String :=
  c.vars.filterMap (variableTypeError allowTcpPorts child)

/-- `validate_substitutions` reports nothing exactly when every name
`instantiate` would pass to its replacer is a declared variable. -/
theorem validateSubstitutions_eq_nil_iff (c : ContainerConfig) :
    validateSubstitutions c = [] ↔ ∀ n ∈ c.refNames (fun _ => ""), c.vars.any (·.1 == n) := by
  simp only [validateSubstitutions, ContainerConfig.refNames, List.append_eq_nil,
    List.flatten_eq_nil_iff, List.mem_map, List.map_eq_nil_iff, List.filter_eq_nil_iff,
    List.mem_append, List.mem_flatten, forall_exists_index, and_imp, forall_apply_eq_imp_iff₂,
    Bool.not_eq_true', Bool.not_eq_false, or_imp, forall_and]
  tauto

/-- `validate_variable_types` reports nothing exactly when the child defines
every declared variable with a value of its type. -/
theorem validateVariableTypes_eq_nil_iff (allowTcpPorts : Nat → Bool) (c : ContainerConfig)
    (child : ChildConfig) :
    validateVariableTypes allowTcpPorts c child = [] ↔
      ∀ d ∈ c.vars, ∃ value, child.vars.lookup d.1 = some value ∧
        d.2.validate allowTcpPorts value = .ok () := by
  simp only [validateVariableTypes, List.filterMap_eq_nil_iff]
  refine forall₂_congr fun d _ => ?_
  unfold variableTypeError
  split
  · split <;> simp_all
  · next hv => simp [hv]

/-! ## When `instantiate` succeeds -/

namespace ContainerConfig

variable (c : ContainerConfig) (v : Variables)

/-- **`instantiate` succeeds exactly when every name is known and every port
key parses.** -/
theorem instantiate_ok_iff :
    (∃ r, c.instantiate v = .ok r) ↔
      (∀ n ∈ c.refNames (fun _ => ""), (v.lookup n).isSome) ∧
      ∀ p ∈ c.tcpPorts, ∃ port, parseU16 (replaceVars v.replacer p.1.toList).1 = .ok port := by
  have hnames : c.refNames v.replacer = c.refNames (fun _ => "") := by
    simp only [refNames, replaceVars_names_eq v.replacer (fun _ => "")]
  have h1 : c.errors1 v = [] ↔ ∀ n ∈ c.refNames (fun _ => ""), (v.lookup n).isSome := by
    simp [errors1, List.dedup_eq_nil, List.filter_eq_nil_iff, hnames, Option.isSome_iff_ne_none]
  have h2 : c.errors2 v = [] ↔
      ∀ p ∈ c.tcpPorts, ∃ port, parseU16 (replaceVars v.replacer p.1.toList).1 = .ok port := by
    simp only [errors2, List.dedup_eq_nil, List.filterMap_eq_nil_iff]
    refine forall₂_congr fun p _ => ?_
    unfold portOf
    split <;> simp_all
  rw [← h1, ← h2, instantiate]
  split
  · exact iff_of_true ⟨_, rfl⟩ ‹_›
  · exact iff_of_false (fun ⟨_, h⟩ => by cases h) ‹_›

theorem mem_foldl_insert (f : String × TcpPort → Nat) (l : List (String × TcpPort)) :
    ∀ (m : AList fun _ : Nat => TcpPort) (n : Nat),
      n ∈ l.foldl (fun m p => m.insert (f p) p.2) m ↔ n ∈ l.map f ∨ n ∈ m := by
  induction l with
  | nil => simp
  | cons p l ih =>
    intro m n
    rw [List.foldl_cons, ih, AList.mem_insert, List.map_cons, List.mem_cons, or_assoc]
    exact or_left_comm

/-- **The ports of an instantiated config**: one for each distinct port number
among the substituted keys, whatever the number of keys. -/
theorem length_tcpPorts_of_instantiate {r : InstantiatedConfig} (h : c.instantiate v = .ok r) :
    r.tcpPorts.keys.length = (c.tcpPorts.map fun p => (portOf v p).1).dedup.length := by
  unfold instantiate at h
  split at h
  · cases h
    refine List.Perm.length_eq ((List.perm_ext_iff_of_nodup (AList.keys_nodup _)
      (List.nodup_dedup _)).2 fun n => ?_)
    rw [← AList.mem_keys, mem_foldl_insert, List.mem_dedup]
    simp [AList.mem_keys, AList.keys_empty]
  · cases h

/-- The port keys `80`, `080` and `8080` instantiate to two ports: `80` and
`080` both parse as port 80 and are merged. -/
theorem length_tcpPorts_of_instantiate_web :
    ∃ r, ContainerConfig.instantiate ⟨[], [], [], [("80", ⟨"0.0.0.0", 0, true, false, 128⟩),
        ("080", ⟨"0.0.0.0", 0, true, false, 128⟩), ("8080", ⟨"0.0.0.0", 0, true, false, 128⟩)]⟩
        ⟨[], "web.0", "/config/web.yaml"⟩ = .ok r ∧
      r.tcpPorts.keys.length =
        ([("80", (⟨"0.0.0.0", 0, true, false, 128⟩ : TcpPort)),
          ("080", ⟨"0.0.0.0", 0, true, false, 128⟩), ("8080", ⟨"0.0.0.0", 0, true, false, 128⟩)].map
          fun p => (portOf ⟨[], "web.0", "/config/web.yaml"⟩ p).1).dedup.length ∧
      r.tcpPorts.keys.length = 2 := by
  have h80 : findOpen "80".toList = none := by decide
  have h080 : findOpen "080".toList = none := by decide
  have h8080 : findOpen "8080".toList = none := by decide
  obtain ⟨r, hr⟩ : ∃ r, ContainerConfig.instantiate ⟨[], [], [], [("80", ⟨"0.0.0.0", 0, true, false, 128⟩),
      ("080", ⟨"0.0.0.0", 0, true, false, 128⟩), ("8080", ⟨"0.0.0.0", 0, true, false, 128⟩)]⟩
      ⟨[], "web.0", "/config/web.yaml"⟩ = .ok r :=
    ⟨_, by
      simp only [instantiate, errors1, errors2, refNames, portOf, List.map_cons, List.map_nil,
        List.flatten_cons, List.flatten_nil, List.filterMap_cons, List.filterMap_nil,
        List.foldl_cons, List.foldl_nil, replaceVars_of_findOpen_none h80,
        replaceVars_of_findOpen_none h080, replaceVars_of_findOpen_none h8080]
      rfl⟩
  have hlen := length_tcpPorts_of_instantiate _ _ hr
  refine ⟨r, hr, hlen, hlen.trans ?_⟩
  simp only [portOf, List.map_cons, List.map_nil, replaceVars_of_findOpen_none h80,
    replaceVars_of_findOpen_none h080, replaceVars_of_findOpen_none h8080]
  decide

/-! ### What `replace_vars` makes of the lookups

The names `instantiate` looks up are those `replace_vars` passes, and each of
them keeps the `@{` of its reference (`replaceVars_names_brace`). -/

theorem head_of_mem_refNames {f : String → String} {n : String} (hn : n ∈ c.refNames f) :
    n.toList.head? = some '@' := by
  simp only [refNames, List.mem_append, List.mem_flatten, List.mem_map] at hn
  obtain ⟨t, ht⟩ : ∃ t, n.toList = '@' :: '\x7b' :: t := by
    rcases hn with (⟨_, ⟨a, -, rfl⟩, hn⟩ | ⟨_, ⟨e, -, rfl⟩, hn⟩) | ⟨_, ⟨p, -, rfl⟩, hn⟩ <;>
      exact replaceVars_names_brace f _ n hn
  rw [ht]; rfl

/-- A name `instantiate` looks up is never `lithos:name` or
`lithos:config_filename`: only the child's variables can answer it. -/
theorem lookup_of_mem_refNames {f : String → String} {n : String} (hn : n ∈ c.refNames f) :
    v.lookup n = v.userVars.lookup n := by
  have hhead := head_of_mem_refNames c hn
  have h1 : n ≠ "lithos:name" := by rintro rfl; exact absurd hhead (by decide)
  have h2 : n ≠ "lithos:config_filename" := by rintro rfl; exact absurd hhead (by decide)
  unfold Variables.lookup
  split
  · next x hx => exact hx.symm
  · next hx => simp [hx, h1, h2]

/-- `lithos_check` reports every config with a reference whose declared
variable names do not begin with `@`. -/
theorem validateSubstitutions_ne_nil_of_ref (hvars : ∀ d ∈ c.vars, d.1.toList.head? ≠ some '@')
    (href : c.refNames (fun _ => "") ≠ []) : validateSubstitutions c ≠ [] := fun h => by
  obtain ⟨n, hn⟩ := List.exists_mem_of_ne_nil _ href
  obtain ⟨d, hd, hdn⟩ := List.any_eq_true.1 ((validateSubstitutions_eq_nil_iff c).1 h n hn)
  exact hvars d hd (beq_iff_eq.1 hdn ▸ head_of_mem_refNames c hn)

/-- The config with the argument `@{x}` and the declared variable `x`:
`lithos_check` reports it. -/
theorem validateSubstitutions_ne_nil_of_ref_x :
    validateSubstitutions ⟨[("x", .name)], ["@\x7bx\x7d"], [], []⟩ ≠ [] := by
  have h1 : findOpen ['@', '\x7b', 'x', '\x7d'] = some ([], ['@', '\x7b', 'x', '\x7d']) := by
    decide
  have h2 : findClose ['@', '\x7b', 'x', '\x7d'] = some (['@', '\x7b', 'x'], []) := by decide
  refine validateSubstitutions_ne_nil_of_ref _ (by decide) ?_
  simp [refNames, replaceVars_of_find h1 h2]

/-- **A config with a reference does not instantiate** for a child none of
whose variable names begins with `@`: `@{x}` looks up `@{x`, which is neither
the child's variable `x` nor `lithos:name`. -/
theorem instantiate_error_of_ref (hvars : ∀ p ∈ v.userVars, p.1.toList.head? ≠ some '@')
    (href : c.refNames (fun _ => "") ≠ []) : ∃ errs, c.instantiate v = .error errs := by
  cases h : c.instantiate v with
  | error errs => exact ⟨errs, rfl⟩
  | ok r =>
    obtain ⟨n, hn⟩ := List.exists_mem_of_ne_nil _ href
    have hsome := ((instantiate_ok_iff c v).1 ⟨r, h⟩).1 n hn
    rw [lookup_of_mem_refNames c v hn, List.lookup_isSome_iff] at hsome
    obtain ⟨p, hp, hnp⟩ := hsome
    exact absurd (beq_iff_eq.1 hnp ▸ head_of_mem_refNames c hn) (hvars p hp)

/-- The argument `@{x}` does not instantiate for the child whose variable `x`
is `web`. -/
theorem instantiate_error_of_ref_x :
    ∃ errs, ContainerConfig.instantiate ⟨[("x", .name)], ["@\x7bx\x7d"], [], []⟩
      ⟨[("x", "web")], "web.0", "/config/web.yaml"⟩ = .error errs := by
  have h1 : findOpen ['@', '\x7b', 'x', '\x7d'] = some ([], ['@', '\x7b', 'x', '\x7d']) := by
    decide
  have h2 : findClose ['@', '\x7b', 'x', '\x7d'] = some (['@', '\x7b', 'x'], []) := by decide
  refine instantiate_error_of_ref _ _ (by decide) ?_
  simp [refNames, replaceVars_of_find h1 h2]

end ContainerConfig

/-- **What the two checks give**: every name `instantiate` passes to the
replacer is a variable of the child. -/
theorem known_of_checks {allowTcpPorts : Nat → Bool} {c : ContainerConfig} {child : ChildConfig}
    (hsub : validateSubstitutions c = []) (htypes : validateVariableTypes allowTcpPorts c child = [])
    (name configFilename : String) :
    ∀ n ∈ c.refNames (fun _ => ""),
      ((⟨child.vars, name, configFilename⟩ : Variables).lookup n).isSome := by
  intro n hn
  obtain ⟨d, hd, hdn⟩ := List.any_eq_true.1 ((validateSubstitutions_eq_nil_iff c).1 hsub n hn)
  obtain ⟨value, hv, -⟩ := (validateVariableTypes_eq_nil_iff allowTcpPorts c child).1 htypes d hd
  rw [beq_iff_eq] at hdn
  simp [Variables.lookup, ← hdn, hv]

/-- **Once `lithos_check` accepts a config, `instantiate` succeeds exactly when
every port key parses after substitution.**  If `validate_substitutions`
reports no undefined variable and `validate_variable_types` no error for the
child's variables, then `instantiate` with those variables returns `Ok`
exactly when every key of `tcp_ports`, with its references replaced, is a
`u16`. -/
theorem checked_instantiate_ok_iff (allowTcpPorts : Nat → Bool) (c : ContainerConfig)
    (child : ChildConfig) (name configFilename : String)
    (hsub : validateSubstitutions c = []) (htypes : validateVariableTypes allowTcpPorts c child = []) :
    (∃ r, c.instantiate ⟨child.vars, name, configFilename⟩ = .ok r) ↔
      ∀ p ∈ c.tcpPorts, ∃ port, parseU16 (replaceVars
        (Variables.replacer ⟨child.vars, name, configFilename⟩) p.1.toList).1 = .ok port := by
  rw [ContainerConfig.instantiate_ok_iff]
  exact and_iff_right (known_of_checks hsub htypes name configFilename)

/-! ## Configs on fixed inputs -/

/-- A port with the validator's defaults. -/
def defaultPort : TcpPort := ⟨"0.0.0.0", 0, true, false, 128⟩

/-- A child with no variables. -/
def plainChild : ChildConfig := ⟨1, "web", "/config/web.yaml", [], .daemon⟩

theorem validateSubstitutions_of_no_refs {c : ContainerConfig}
    (h : ∀ s ∈ c.tcpPorts.map Prod.fst ++ c.environ.map Prod.snd ++ c.arguments,
      findOpen s.toList = none) : validateSubstitutions c = [] := by
  simp only [List.mem_append, List.mem_map, or_imp, forall_and, forall_exists_index, and_imp,
    forall_apply_eq_imp_iff₂] at h
  obtain ⟨⟨hports, henv⟩, hargs⟩ := h
  rw [validateSubstitutions_eq_nil_iff]
  intro n hn
  simp only [ContainerConfig.refNames, List.mem_append, List.mem_flatten, List.mem_map] at hn
  rcases hn with (⟨_, ⟨a, ha, rfl⟩, hn⟩ | ⟨_, ⟨e, he, rfl⟩, hn⟩) | ⟨_, ⟨p, hp, rfl⟩, hn⟩
  · rw [replaceVars_of_findOpen_none (hargs a ha)] at hn; cases hn
  · rw [replaceVars_of_findOpen_none (henv e he)] at hn; cases hn
  · rw [replaceVars_of_findOpen_none (hports p hp)] at hn; cases hn

/-- A config whose one port is `8080`: `lithos_check` accepts it and
`instantiate` succeeds. -/
theorem checked_instantiate_port :
    ∃ r, ContainerConfig.instantiate ⟨[], [], [], [("8080", defaultPort)]⟩
      ⟨[], "web.0", "/config/web.yaml"⟩ = .ok r := by
  have hfind : findOpen "8080".toList = none := by decide
  refine (checked_instantiate_ok_iff (fun _ => true) ⟨[], [], [], [("8080", defaultPort)]⟩
    plainChild "web.0" "/config/web.yaml" (validateSubstitutions_of_no_refs (by decide))
    rfl).2 fun p hp => ?_
  rw [List.mem_singleton.1 hp, replaceVars_of_findOpen_none hfind]
  exact ⟨8080, rfl⟩

/-- **`@\x7blithos:name\x7d` is an unknown variable.**  The specification reads
the name `lithos:name` from the reference, and the replacer knows it; the code
looks up `@\x7blithos:name`, and `instantiate` fails with it. -/
theorem lithos_name_reference_unknown :
    (specReplaceVars (fun _ => "") "@\x7blithos:name\x7d".toList).2 = ["lithos:name"] ∧
    Variables.lookup ⟨[], "web.0", "/config/web.yaml"⟩ "lithos:name" = some "web.0" ∧
    ContainerConfig.instantiate ⟨[], ["@\x7blithos:name\x7d"], [], []⟩
        ⟨[], "web.0", "/config/web.yaml"⟩ =
      .error ["unknown variable " ++ debugStr "@\x7blithos:name"] := by
  have h1 : findOpen "@\x7blithos:name\x7d".toList = some ([], "@\x7blithos:name\x7d".toList) := by
    decide
  have h2 : findClose "@\x7blithos:name\x7d".toList = some ("@\x7blithos:name".toList, []) := by
    decide
  have h3 : findOpen [] = none := rfl
  refine ⟨?_, rfl, ?_⟩
  · rw [specReplaceVars_of_find h1 h2, specReplaceVars_of_findOpen_none h3]
    decide
  · have he1 : ContainerConfig.errors1 ⟨[], ["@\x7blithos:name\x7d"], [], []⟩
        ⟨[], "web.0", "/config/web.yaml"⟩ = ["unknown variable " ++ debugStr "@\x7blithos:name"] := by
      simp only [ContainerConfig.errors1, ContainerConfig.refNames, List.map_cons, List.map_nil,
        List.flatten_cons, List.flatten_nil, replaceVars_of_find h1 h2,
        replaceVars_of_findOpen_none h3]
      decide
    rw [ContainerConfig.instantiate, if_neg (by rw [he1]; simp), he1]
    rfl

/-- **Two port keys that parse to one port are merged.**  The keys `80` and
`080` both parse as port 80; `instantiate` succeeds, and its map has one port,
with the settings of the later key. -/
theorem equal_port_keys_merged :
    ∃ r, ContainerConfig.instantiate
        ⟨[], [], [], [("80", defaultPort), ("080", { defaultPort with host := "127.0.0.1" })]⟩
        ⟨[], "web.0", "/config/web.yaml"⟩ = .ok r ∧
      r.tcpPorts.keys = [80] ∧ r.tcpPorts.lookup 80 = some { defaultPort with host := "127.0.0.1" } := by
  have h80 : findOpen "80".toList = none := by decide
  have h080 : findOpen "080".toList = none := by decide
  refine ⟨⟨[], [], ((∅ : AList fun _ : Nat => TcpPort).insert 80 defaultPort).insert 80
    { defaultPort with host := "127.0.0.1" }⟩, ?_, ?_, ?_⟩
  · simp only [ContainerConfig.instantiate, ContainerConfig.errors1, ContainerConfig.errors2,
      ContainerConfig.refNames, ContainerConfig.portOf, List.map_cons, List.map_nil,
      List.flatten_cons, List.flatten_nil, List.filterMap_cons, List.filterMap_nil,
      List.foldl_cons, List.foldl_nil, replaceVars_of_findOpen_none h80,
      replaceVars_of_findOpen_none h080]
    rfl
  · decide
  · decide

/-- **`lithos_check` accepts a port that `instantiate` rejects.**  The config
with the one port key `http` passes both checks, and `instantiate` fails on
it. -/
theorem unchecked_port_counterexample :
    ¬ ∀ (allowTcpPorts : Nat → Bool) (c : ContainerConfig) (child : ChildConfig)
        (name configFilename : String),
      validateSubstitutions c = [] → validateVariableTypes allowTcpPorts c child = [] →
      ∃ r, c.instantiate ⟨child.vars, name, configFilename⟩ = .ok r := by
  intro h
  have hfind : findOpen "http".toList = none := by decide
  obtain ⟨-, hport⟩ := (ContainerConfig.instantiate_ok_iff _ _).1
    (h (fun _ => true) ⟨[], [], [], [("http", defaultPort)]⟩ plainChild "web.0" "/config/web.yaml"
      (validateSubstitutions_of_no_refs (by decide)) rfl)
  obtain ⟨port, hp⟩ := hport _ (List.mem_singleton_self _)
  rw [replaceVars_of_findOpen_none hfind] at hp
  have hbad : parseU16 "http".toList = .error .invalidDigit := rfl
  rw [hbad] at hp
  cases hp

end Lithos
