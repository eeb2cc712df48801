import Lithos.Sandbox.Range
import Lithos.Utf8

/-!
# Image paths: `SandboxConfig::check_path`

`lithos_check` accepts a container's `image` only if `sandbox.check_path(image)`
holds, and then opens `image_dir.join(image)`.  `check_path` walks the
components of the path, as `std::path::Path::components` yields them, and
counts them: every one must be a `Normal` component that is valid UTF-8, and
there must be `image_dir_levels` of them.

A path is its bytes here, as an `OsStr` is on Unix.  `Path::components` is the
standard library's and is not in the repository; `components` follows its
documented parse: a leading `/` is `RootDir`, a leading `.` followed by `/` or
by nothing is `CurDir`, and then every part between separators is a component,
except the empty parts and `.`, which are dropped, and `..`, which is
`ParentDir`.  `to_str().is_some()` is `utf8Valid` of `Lithos.Utf8`, Unicode's
table of well-formed UTF-8 sequences, which accepts exactly the bytes
`str::from_utf8` reads as text (`utf8Valid_eq_isSome`).

The count is a `u32`, so `num += 1` overflows after `u32::MAX` components (a
panic in a debug build); `checkPath` answers `none` there.

* `checkComponents_eq`: on fewer than `2^32` components, the loop answers
  whether every component is a valid `Normal` one and their number is
  `image_dir_levels`;
* `components_join`: `join` of a relative path whose first component is not
  `CurDir` adds its components after those of the base;
* `check_path_spec`: so an accepted path is relative, has no `.` or `..`, and
  `image_dir.join(p)` is `image_dir` and `image_dir_levels` normal components;
* `deep_path_panics`: a path of `2^32` components makes the count overflow.
-/

namespace Lithos

/-- `std::path::Component` on Unix, which has no `Prefix`. -/
inductive Component where
  | rootDir
  | curDir
  | parentDir
  | normal (x : List UInt8)
  deriving DecidableEq, Repr

/-- `Components::parse_single_component` for a part after the start: the empty
part and `.` are dropped, `..` is `ParentDir`. -/
def partComponent : List UInt8 → Option Component
  | [] => none
  | [46] => none
  | [46, 46] => some .parentDir
  | x => some (.normal x)

/-- The components of the body of a path, `cur` the part read so far,
reversed. -/
def componentsBody : List UInt8 → List UInt8 → List Component
  | [], cur => (partComponent cur.reverse).toList
  | b :: s, cur =>
    if b = slashByte then (partComponent cur.reverse).toList ++ componentsBody s []
    else componentsBody s (b :: cur)

/-- `Path::components`: `RootDir` for a leading `/`; `CurDir` for a leading `.`
that is the whole path or is followed by `/` (`include_cur_dir`); then the
body. -/
def components : List UInt8 → List Component
  | [] => []
  | b :: s =>
    if b = slashByte then .rootDir :: componentsBody s []
    else if b = dotByte ∧ s.head?.all (· == slashByte) then .curDir :: componentsBody s []
    else componentsBody (b :: s) []

/-- `PathBuf::join`: an absolute path replaces the base; a relative one is
appended, after a `/` unless the base is empty or already ends with one. -/
def join (base p : List UInt8) : List UInt8 :=
  if p.head? = some slashByte then p
  else if base = [] ∨ base.getLast? = some slashByte then base ++ p
  else base ++ slashByte :: p

/-- `Component::Normal(x) if x.to_str().is_some()`. -/
def Component.isValidNormal : Component → Bool
  | .normal x => utf8Valid x
  | _ => false

/-- The fields of `SandboxConfig` that `check_path` and `lithos_check`'s image
check read. -/
structure SandboxConfig where
  /-- `image_dir`. -/
  imageDir : List UInt8
  /-- `image_dir_levels`, which the validator keeps within `1..16`. -/
  imageDirLevels : UInt32

/-- The loop of `check_path` from the count `num`; `none` where `num += 1`
overflows. -/
def checkComponents (levels : UInt32) : List Component → UInt32 → Option Bool
  | [], num => some (num == levels)
  | .normal x :: cs, num =>
    if utf8Valid x then (addU32 num 1).bind (checkComponents levels cs) else some false
  | _ :: _, _ => some false

/-- `SandboxConfig::check_path`. -/
def SandboxConfig.checkPath (c : SandboxConfig) (path : List UInt8) : Option Bool :=
  checkComponents c.imageDirLevels (components path) 0

/-! ## The count -/

theorem u32_beq_eq (a b : UInt32) : (a == b) = (a.toNat == b.toNat) := by
  by_cases h : a = b
  · subst h; simp
  · have : a.toNat ≠ b.toNat := fun h' => h (UInt32.toNat.inj h')
    simp [h, this]

/-- **The loop of `check_path`.**  From the count `num`, on fewer than `2^32 -
num` components, it answers whether every component is a valid `Normal` one
and `num` plus their number is `levels`. -/
theorem checkComponents_eq (levels : UInt32) :
    ∀ (cs : List Component) (num : UInt32), num.toNat + cs.length < 2 ^ 32 →
      checkComponents levels cs num =
        some (cs.all Component.isValidNormal && num.toNat + cs.length == levels.toNat)
  | [], num, _ => by simp [checkComponents, u32_beq_eq]
  | .normal x :: cs, num, h => by
    simp only [List.length_cons] at h
    have hlt : num.toNat + (1 : UInt32).toNat < 2 ^ 32 := by rw [u32_toNat_one]; omega
    have hnum : (num + 1).toNat = num.toNat + 1 := Nat.mod_eq_of_lt hlt
    have hadd : addU32 num 1 = some (num + 1) := addU32_eq_some.2 ⟨hlt, hnum⟩
    by_cases hx : utf8Valid x
    · rw [checkComponents, if_pos hx, hadd, Option.some_bind,
        checkComponents_eq levels cs (num + 1) (by omega), hnum]
      simp only [List.all_cons, Component.isValidNormal, hx, Bool.true_and, List.length_cons,
        Nat.add_assoc, Nat.add_comm 1]
    · simp [checkComponents, hx, Component.isValidNormal]
  | .rootDir :: cs, _, _ => by simp [checkComponents, Component.isValidNormal]
  | .curDir :: cs, _, _ => by simp [checkComponents, Component.isValidNormal]
  | .parentDir :: cs, _, _ => by simp [checkComponents, Component.isValidNormal]

/-! ## Components and `join` -/

theorem componentsBody_append_slash (xs ys : List UInt8) :
    ∀ cur, componentsBody (xs ++ slashByte :: ys) cur =
      componentsBody xs cur ++ componentsBody ys [] := by
  induction xs with
  | nil => intro cur; simp [componentsBody]
  | cons x xs ih =>
    intro cur
    by_cases hx : x = slashByte
    · simp [componentsBody, hx, ih]
    · simp [componentsBody, hx, ih]

theorem components_append_slash {base : List UInt8} (hb : base ≠ []) (p : List UInt8) :
    components (base ++ slashByte :: p) = components base ++ componentsBody p [] := by
  obtain ⟨b, s, rfl⟩ := List.exists_cons_of_ne_nil hb
  have hhead : (s ++ slashByte :: p).head?.all (· == slashByte) = s.head?.all (· == slashByte) := by
    cases s <;> simp
  simp only [List.cons_append, components, hhead]
  split_ifs
  · rw [componentsBody_append_slash]; rfl
  · rw [componentsBody_append_slash]; rfl
  · rw [← List.cons_append, componentsBody_append_slash]

/-- **`join` of a relative path** whose components are its body (no `CurDir`
in front): the base's components, then the path's. -/
theorem components_join (base : List UInt8) {p : List UInt8} (hrel : p.head? ≠ some slashByte)
    (hp : components p = componentsBody p []) :
    components (join base p) = components base ++ componentsBody p [] := by
  unfold join
  rw [if_neg hrel]
  split_ifs with h
  · rcases h with rfl | h
    · simpa [components] using hp
    rcases List.eq_nil_or_concat base with rfl | ⟨l, a, rfl⟩
    · cases h
    simp only [List.concat_eq_append, List.getLast?_concat, Option.some.injEq] at h ⊢
    subst h
    rcases List.eq_nil_or_concat l with rfl | ⟨l, b, rfl⟩
    · simp [components, componentsBody, partComponent]
    · have hne : l.concat b ≠ [] := by simp
      rw [List.append_assoc, List.singleton_append, components_append_slash hne,
        components_append_slash hne]
      simp [componentsBody, partComponent]
  · exact components_append_slash (by rintro rfl; exact h (Or.inl rfl)) p

/-! ## What `check_path` accepts -/

theorem exists_normals {cs : List Component} (h : cs.all Component.isValidNormal = true) :
    ∃ xs : List (List UInt8), cs = xs.map .normal ∧ ∀ x ∈ xs, utf8Valid x = true := by
  induction cs with
  | nil => exact ⟨[], rfl, by simp⟩
  | cons c cs ih =>
    rw [List.all_cons, Bool.and_eq_true] at h
    obtain ⟨xs, rfl, hxs⟩ := ih h.2
    cases c with
    | normal x => exact ⟨x :: xs, rfl, List.forall_mem_cons.2 ⟨h.1, hxs⟩⟩
    | rootDir => cases h.1
    | curDir => cases h.1
    | parentDir => cases h.1

/-- A path whose components are all `Normal` is relative, and its components
are those of its body. -/
theorem components_eq_body_of_normal {p : List UInt8}
    (h : (components p).all Component.isValidNormal = true) :
    p.head? ≠ some slashByte ∧ components p = componentsBody p [] := by
  cases p with
  | nil => simp [components, componentsBody, partComponent]
  | cons b s =>
    simp only [components] at h ⊢
    split_ifs at h ⊢ with h1 h2
    · simp [Component.isValidNormal] at h
    · simp [Component.isValidNormal] at h
    · exact ⟨by simpa using h1, rfl⟩

/-- **`check_path` on a path of fewer than `2^32` components.**  It answers
whether every component is a valid `Normal` one and there are
`image_dir_levels` of them.  A path it accepts is relative, has no `.` or `..`
component, and joined onto `image_dir` it gives the components of `image_dir`
followed by `image_dir_levels` normal ones. -/
theorem check_path_spec (c : SandboxConfig) (p : List UInt8)
    (hlen : (components p).length < 2 ^ 32) :
    c.checkPath p = some ((components p).all Component.isValidNormal &&
      (components p).length == c.imageDirLevels.toNat) ∧
    (c.checkPath p = some true →
      p.head? ≠ some slashByte ∧ Component.curDir ∉ components p ∧
      Component.parentDir ∉ components p ∧
      ∃ xs : List (List UInt8), xs.length = c.imageDirLevels.toNat ∧
        (∀ x ∈ xs, utf8Valid x = true) ∧ components p = xs.map .normal ∧
        components (join c.imageDir p) = components c.imageDir ++ xs.map .normal) := by
  have hcheck : c.checkPath p = some ((components p).all Component.isValidNormal &&
      (components p).length == c.imageDirLevels.toNat) := by
    simpa using checkComponents_eq c.imageDirLevels (components p) 0 (by simpa using hlen)
  refine ⟨hcheck, fun hacc => ?_⟩
  rw [hcheck, Option.some.injEq, Bool.and_eq_true, beq_iff_eq] at hacc
  obtain ⟨hall, hn⟩ := hacc
  obtain ⟨hrel, hbody⟩ := components_eq_body_of_normal hall
  obtain ⟨xs, hxs, hvalid⟩ := exists_normals hall
  refine ⟨hrel, fun hc => ?_, fun hc => ?_, xs, by rw [← hn, hxs, List.length_map], hvalid, hxs,
    by rw [components_join _ hrel hbody, ← hbody, hxs]⟩
  · simpa [Component.isValidNormal] using List.all_eq_true.1 hall _ hc
  · simpa [Component.isValidNormal] using List.all_eq_true.1 hall _ hc

/-- `check_path` with `image_dir = /img` and two levels, on `web/v1`. -/
theorem check_path_spec_web :
    (components [119, 101, 98, 47, 118, 49]).length < 2 ^ 32 ∧
    ((⟨[47, 105, 109, 103], 2⟩ : SandboxConfig).checkPath [119, 101, 98, 47, 118, 49] =
      some ((components [119, 101, 98, 47, 118, 49]).all Component.isValidNormal &&
        (components [119, 101, 98, 47, 118, 49]).length ==
          (⟨[47, 105, 109, 103], 2⟩ : SandboxConfig).imageDirLevels.toNat) ∧
    ((⟨[47, 105, 109, 103], 2⟩ : SandboxConfig).checkPath [119, 101, 98, 47, 118, 49] = some true →
      List.head? [119, 101, 98, 47, 118, 49] ≠ some slashByte ∧
      Component.curDir ∉ components [119, 101, 98, 47, 118, 49] ∧
      Component.parentDir ∉ components [119, 101, 98, 47, 118, 49] ∧
      ∃ xs : List (List UInt8),
        xs.length = (⟨[47, 105, 109, 103], 2⟩ : SandboxConfig).imageDirLevels.toNat ∧
        (∀ x ∈ xs, utf8Valid x = true) ∧ components [119, 101, 98, 47, 118, 49] = xs.map .normal ∧
        components (join (⟨[47, 105, 109, 103], 2⟩ : SandboxConfig).imageDir
          [119, 101, 98, 47, 118, 49]) =
          components (⟨[47, 105, 109, 103], 2⟩ : SandboxConfig).imageDir ++ xs.map .normal)) :=
  ⟨by decide, check_path_spec ⟨[47, 105, 109, 103], 2⟩ [119, 101, 98, 47, 118, 49] (by decide)⟩

/-! ## A path too deep for the count -/

theorem addU32_eq_none {a b : UInt32} : addU32 a b = none ↔ 2 ^ 32 ≤ a.toNat + b.toNat := by
  unfold addU32
  split <;> simp <;> omega

/-- From `num`, `2^32 - num` valid `Normal` components overflow the count. -/
theorem checkComponents_overflow (levels : UInt32) {x : List UInt8} (hx : utf8Valid x = true) :
    ∀ (k : Nat) (num : UInt32), num.toNat + k = 2 ^ 32 →
      checkComponents levels (List.replicate k (.normal x)) num = none
  | 0, num, h => absurd h (by have := u32_toNat_lt num; omega)
  | k + 1, num, h => by
    rw [List.replicate_succ, checkComponents, if_pos hx]
    by_cases hlt : num.toNat + (1 : UInt32).toNat < 2 ^ 32
    · have hnum : (num + 1).toNat = num.toNat + 1 := Nat.mod_eq_of_lt hlt
      rw [show addU32 num 1 = some (num + 1) from addU32_eq_some.2 ⟨hlt, hnum⟩, Option.some_bind]
      exact checkComponents_overflow levels hx k (num + 1) (by omega)
    · rw [addU32_eq_none.2 (by omega)]
      rfl

/-- The path `a/a/…/a` of `n + 1` parts. -/
def repeatedPath (n : Nat) : List UInt8 := 97 :: (List.replicate n [slashByte, 97]).flatten

theorem components_repeatedPath (n : Nat) :
    components (repeatedPath n) = List.replicate (n + 1) (.normal [97]) := by
  have hbody : ∀ n, componentsBody (repeatedPath n) [] = List.replicate (n + 1) (.normal [97]) := by
    intro n
    induction n with
    | zero => rfl
    | succ n ih =>
      have : repeatedPath (n + 1) = [97] ++ slashByte :: repeatedPath n := rfl
      rw [this, componentsBody_append_slash, ih]
      rfl
  rw [← hbody]
  rfl

/-- **A path of `2^32` components overflows the count**: `a/a/…/a` with
`2^32` parts, all valid `Normal` components, makes `num += 1` overflow, where
the law says `check_path` returns `false`. -/
theorem deep_path_panics :
    ¬ ∀ (c : SandboxConfig) (p : List UInt8), c.checkPath p =
      some ((components p).all Component.isValidNormal &&
        (components p).length == c.imageDirLevels.toNat) := by
  intro h
  have hnone : (⟨[], 1⟩ : SandboxConfig).checkPath (repeatedPath (2 ^ 32 - 1)) = none := by
    rw [SandboxConfig.checkPath, components_repeatedPath]
    exact checkComponents_overflow 1 (x := [97]) rfl _ 0 rfl
  rw [h] at hnone
  cases hnone

end Lithos
