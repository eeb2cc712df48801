import Mathlib.Data.List.Infix

/-!
# Variable references: `replace_vars`

`container_config::replace_vars(s, f)` replaces each reference `@{name}` of a
string by `f(name)`.  It finds the first `@{`, copies the text before it, and
then finds the first `}` in the text *from* the `@{` on; the name it passes to
`f` is that text up to the `}`, trimmed.  So the name keeps its `@{`:
`replace_vars("@{x}", f)` calls `f("@{x")`.  The five tests of the source all
pass a constant `f` and cannot see it.

A text is its `List Char` here, and the result is the text `replace_vars`
returns together with the names it passed to `f`, in order: `f` is an `FnMut`,
and its callers use the calls for their side effects (`instantiate` collects
the unknown names, `validate_substitutions` reports them).

* `replaceVars_names_eq`: the names passed to `f` do not depend on `f`;
* `replaceVars_names_brace`: every one of them begins with `@{`;
* `specReplaceVars` is the substitution as the specification words it, with
  the name between the braces; `replace_vars_passes_brace` is the input where
  the two part, and `replaceVars_eq_spec` says how far: when no name begins with
  white space, `replace_vars` is the specification's substitution with `f`
  called on `@{` and the name.
-/

namespace Lithos

/-- `char::is_whitespace`: the Unicode `White_Space` characters. -/
def isWhitespace (c : Char) : Bool :=
  let n := c.toNat
  (9 ≤ n && n ≤ 13) || n == 32 || n == 0x85 || n == 0xA0 || n == 0x1680 ||
    (0x2000 ≤ n && n ≤ 0x200A) || n == 0x2028 || n == 0x2029 || n == 0x202F ||
    n == 0x205F || n == 0x3000

/-- `str::trim_end`. -/
def trimEnd (s : List Char) : List Char := ((s.reverse.dropWhile isWhitespace).reverse)

/-- `str::trim`. -/
def trim (s : List Char) : List Char := trimEnd (s.dropWhile isWhitespace)

/-- `s.find("@{")`: the text before the first `@{`, and the text from it on. -/
def findOpen : List Char → Option (List Char × List Char)
  | [] => none
  | c :: s =>
    if c = '@' ∧ s.head? = some '\x7b' then some ([], c :: s)
    else (findOpen s).map fun p => (c :: p.1, p.2)

/-- `s.find('}')` and the slices around it: the text before the first `}`, and
the text after it. -/
def findClose : List Char → Option (List Char × List Char)
  | [] => none
  | c :: s => if c = '\x7d' then some ([], s) else (findClose s).map fun p => (c :: p.1, p.2)

theorem findOpen_spec : ∀ {s a b : List Char}, findOpen s = some (a, b) →
    s = a ++ b ∧ ∃ t, b = '@' :: '\x7b' :: t
  | [], _, _, h => by cases h
  | c :: s, a, b, h => by
    unfold findOpen at h
    split at h
    · rename_i hc
      cases h
      obtain ⟨rfl, hs⟩ := hc
      obtain ⟨t, rfl⟩ : ∃ t, s = '\x7b' :: t := by
        cases s with
        | nil => cases hs
        | cons d t => cases hs; exact ⟨t, rfl⟩
      exact ⟨rfl, t, rfl⟩
    · obtain ⟨⟨a', b'⟩, h', he⟩ := Option.map_eq_some'.1 h
      cases he
      obtain ⟨rfl, hb⟩ := findOpen_spec h'
      exact ⟨rfl, hb⟩

theorem findClose_spec : ∀ {s a b : List Char}, findClose s = some (a, b) →
    s = a ++ '\x7d' :: b ∧ '\x7d' ∉ a
  | [], _, _, h => by cases h
  | c :: s, a, b, h => by
    unfold findClose at h
    split at h
    · cases h; subst ‹c = _›; exact ⟨rfl, List.not_mem_nil _⟩
    · obtain ⟨⟨a', b'⟩, h', he⟩ := Option.map_eq_some'.1 h
      cases he
      obtain ⟨rfl, ha⟩ := findClose_spec h'
      exact ⟨rfl, by simp [*, Ne.symm ‹¬c = _›]⟩

theorem length_lt_of_find {s before rest inner after : List Char}
    (h1 : findOpen s = some (before, rest)) (h2 : findClose rest = some (inner, after)) :
    after.length < s.length := by
  rw [(findOpen_spec h1).1, (findClose_spec h2).1]
  simp only [List.length_append, List.length_cons]
  omega

/-- `replace_vars(s, f)`: the text with its references replaced, and the names
passed to `f`. -/
def replaceVars (f : String → String) (s : List Char) : List Char × List String :=
  match _h1 : findOpen s with
  | none => (s, [])
  | some (before, rest) =>
    match _h2 : findClose rest with
    | none => (before ++ rest, [])
    | some (inner, after) =>
      let var := String.mk (trim inner)
      let r := replaceVars f after
      (before ++ (f var).toList ++ r.1, var :: r.2)
termination_by s.length
decreasing_by exact length_lt_of_find _h1 _h2

/-- The substitution in the specification's words: the name is the text
between `@{` and the first later `}`, trimmed. -/
def specReplaceVars (f : String → String) (s : List Char) : List Char × List String :=
  match _h1 : findOpen s with
  | none => (s, [])
  | some (before, rest) =>
    match _h2 : findClose rest with
    | none => (before ++ rest, [])
    | some (inner, after) =>
      let var := String.mk (trim (inner.drop 2))
      let r := specReplaceVars f after
      (before ++ (f var).toList ++ r.1, var :: r.2)
termination_by s.length
decreasing_by exact length_lt_of_find _h1 _h2

/-! ## What one step does -/

variable {f : String → String} {s before rest inner after : List Char}

theorem replaceVars_of_findOpen_none (h : findOpen s = none) : replaceVars f s = (s, []) := by
  rw [replaceVars]; split <;> simp_all

theorem replaceVars_of_findClose_none (h1 : findOpen s = some (before, rest))
    (h2 : findClose rest = none) : replaceVars f s = (before ++ rest, []) := by
  rw [replaceVars]; split
  · simp_all
  · split <;> simp_all

theorem replaceVars_of_find (h1 : findOpen s = some (before, rest))
    (h2 : findClose rest = some (inner, after)) :
    replaceVars f s = (before ++ (f (String.mk (trim inner))).toList ++ (replaceVars f after).1,
      String.mk (trim inner) :: (replaceVars f after).2) := by
  rw [replaceVars]; split
  · simp_all
  · split <;> simp_all

theorem specReplaceVars_of_findOpen_none (h : findOpen s = none) :
    specReplaceVars f s = (s, []) := by
  rw [specReplaceVars]; split <;> simp_all

theorem specReplaceVars_of_findClose_none (h1 : findOpen s = some (before, rest))
    (h2 : findClose rest = none) : specReplaceVars f s = (before ++ rest, []) := by
  rw [specReplaceVars]; split
  · simp_all
  · split <;> simp_all

theorem specReplaceVars_of_find (h1 : findOpen s = some (before, rest))
    (h2 : findClose rest = some (inner, after)) :
    specReplaceVars f s =
      (before ++ (f (String.mk (trim (inner.drop 2)))).toList ++ (specReplaceVars f after).1,
        String.mk (trim (inner.drop 2)) :: (specReplaceVars f after).2) := by
  rw [specReplaceVars]; split
  · simp_all
  · split <;> simp_all

/-! ## The names passed to `f` -/

/-- The names passed to `f` do not depend on what `f` answers. -/
theorem replaceVars_names_eq (f g : String → String) (s : List Char) :
    (replaceVars f s).2 = (replaceVars g s).2 := by
  induction s using replaceVars.induct f with
  | case1 s h1 => rw [replaceVars_of_findOpen_none h1, replaceVars_of_findOpen_none h1]
  | case2 s before rest h1 h2 =>
    rw [replaceVars_of_findClose_none h1 h2, replaceVars_of_findClose_none h1 h2]
  | case3 s before rest h1 inner after h2 ih =>
    rw [replaceVars_of_find h1 h2, replaceVars_of_find h1 h2, ih]

theorem trimEnd_cons {c : Char} (hc : isWhitespace c = false) (l : List Char) :
    trimEnd (c :: l) = c :: trimEnd l := by
  simp only [trimEnd, List.reverse_cons, List.dropWhile_append]
  split
  · rename_i he
    simp only [List.isEmpty_iff] at he
    simp [List.dropWhile_cons, hc, he]
  · simp

/-- The name of a reference, as `replace_vars` takes it, keeps its `@{`. -/
theorem trim_brace (t : List Char) : trim ('@' :: '\x7b' :: t) = '@' :: '\x7b' :: trimEnd t := by
  have h1 : isWhitespace '@' = false := by decide
  have h2 : isWhitespace '\x7b' = false := by decide
  rw [trim, List.dropWhile_cons_of_neg (by simp [h1]), trimEnd_cons h1, trimEnd_cons h2]

/-- The text up to the `}` of a reference begins with the reference's `@{`. -/
theorem findClose_brace {t inner after : List Char}
    (h : findClose ('@' :: '\x7b' :: t) = some (inner, after)) :
    ∃ u, inner = '@' :: '\x7b' :: u := by
  obtain ⟨hr, -⟩ := findClose_spec h
  rcases inner with _ | ⟨a, _ | ⟨b, u⟩⟩
  · cases hr
  · simp at hr
  · simp only [List.cons_append, List.cons.injEq] at hr
    exact ⟨u, by rw [hr.1, hr.2.1]⟩

/-- **Every name `replace_vars` passes to `f` begins with `@{`.** -/
theorem replaceVars_names_brace (f : String → String) (s : List Char) :
    ∀ v ∈ (replaceVars f s).2, ∃ t, v.toList = '@' :: '\x7b' :: t := by
  induction s using replaceVars.induct f with
  | case1 s h1 => simp [replaceVars_of_findOpen_none h1]
  | case2 s before rest h1 h2 => simp [replaceVars_of_findClose_none h1 h2]
  | case3 s before rest h1 inner after h2 ih =>
    rw [replaceVars_of_find h1 h2]
    refine List.forall_mem_cons.2 ⟨?_, ih⟩
    obtain ⟨t, rfl⟩ := (findOpen_spec h1).2
    obtain ⟨u, rfl⟩ := findClose_brace h2
    exact ⟨trimEnd u, by rw [trim_brace]; rfl⟩

/-! ## The code against the specification -/

/-- The text starts a reference whose name begins with white space. -/
def spaceOpens : List Char → Bool
  | '@' :: '\x7b' :: c :: _ => isWhitespace c
  | _ => false

/-- No reference `replace_vars` reads from the text has white space right
after its `@{`: the recursion of `replaceVars`, checking each reference it
reads. -/
def noSpaceRefs (s : List Char) : Bool :=
  match _h1 : findOpen s with
  | none => true
  | some (_, rest) =>
    match _h2 : findClose rest with
    | none => true
    | some (_, after) => !spaceOpens rest && noSpaceRefs after
termination_by s.length
decreasing_by exact length_lt_of_find _h1 _h2

theorem noSpaceRefs_of_find (h1 : findOpen s = some (before, rest))
    (h2 : findClose rest = some (inner, after)) :
    noSpaceRefs s = (!spaceOpens rest && noSpaceRefs after) := by
  rw [noSpaceRefs]; split
  · simp_all
  · split <;> simp_all

/-- When a reference's name does not begin with white space, the name the
specification reads from it is the code's without its `@{`. -/
theorem trim_of_spaceOpens {u x : List Char} (h : spaceOpens ('@' :: '\x7b' :: (u ++ x)) = false) :
    trim u = trimEnd u := by
  cases u with
  | nil => rfl
  | cons c u =>
    have hc : isWhitespace c = false := h
    rw [trim, List.dropWhile_cons_of_neg (by simp [hc])]

/-- **`replace_vars` is the specification's substitution with `@{` put back.**
When no reference that `replace_vars` reads has white space right after its
`@{`, `replace_vars(s, f)` gives the text the specification's substitution
gives with the replacer `v ↦ f("@{" + v)`, and passes `f` the specification's
names, each after `@{`. -/
theorem replaceVars_eq_spec (f : String → String) (s : List Char) (hs : noSpaceRefs s = true) :
    replaceVars f s = ((specReplaceVars (fun v => f ("@\x7b" ++ v)) s).1,
      (specReplaceVars (fun v => f ("@\x7b" ++ v)) s).2.map ("@\x7b" ++ ·)) := by
  induction s using replaceVars.induct f with
  | case1 s h1 => rw [replaceVars_of_findOpen_none h1, specReplaceVars_of_findOpen_none h1]; rfl
  | case2 s before rest h1 h2 =>
    rw [replaceVars_of_findClose_none h1 h2, specReplaceVars_of_findClose_none h1 h2]; rfl
  | case3 s before rest h1 inner after h2 ih =>
    rw [noSpaceRefs_of_find h1 h2, Bool.and_eq_true, Bool.not_eq_true'] at hs
    obtain ⟨-, t, rfl⟩ := findOpen_spec h1
    obtain ⟨u, rfl⟩ := findClose_brace h2
    have ht : t = u ++ '\x7d' :: after := by simpa using (findClose_spec h2).1
    rw [ht] at hs
    rw [replaceVars_of_find h1 h2, specReplaceVars_of_find h1 h2, ih hs.2, trim_brace,
      List.drop, List.drop, List.drop, trim_of_spaceOpens hs.1]
    rfl

/-- `@{a@{ b}` is one reference, whose name `a@{ b` begins with no white
space: `replace_vars` passes `@{a@{ b` to `f`, the specification `a@{ b`. -/
theorem replaceVars_eq_spec_nested :
    noSpaceRefs "@\x7ba@\x7b b\x7d".toList = true ∧
    replaceVars id "@\x7ba@\x7b b\x7d".toList =
      ((specReplaceVars (fun v => id ("@\x7b" ++ v)) "@\x7ba@\x7b b\x7d".toList).1,
        (specReplaceVars (fun v => id ("@\x7b" ++ v)) "@\x7ba@\x7b b\x7d".toList).2.map
          ("@\x7b" ++ ·)) := by
  have h1 : findOpen "@\x7ba@\x7b b\x7d".toList = some ([], "@\x7ba@\x7b b\x7d".toList) := by decide
  have h2 : findClose "@\x7ba@\x7b b\x7d".toList = some ("@\x7ba@\x7b b".toList, []) := by decide
  have hs : noSpaceRefs "@\x7ba@\x7b b\x7d".toList = true := by
    rw [noSpaceRefs_of_find h1 h2, noSpaceRefs]
    rfl
  exact ⟨hs, replaceVars_eq_spec _ _ hs⟩

/-- **Where `replace_vars` and the specification part.**  For `@{x}` the code
passes `@{x` to `f`, the specification `x`. -/
theorem replace_vars_passes_brace :
    (replaceVars id "@\x7bx\x7d".toList).2 = ["@\x7bx"] ∧
      (specReplaceVars id "@\x7bx\x7d".toList).2 = ["x"] := by
  have h1 : findOpen "@\x7bx\x7d".toList = some ([], "@\x7bx\x7d".toList) := by decide
  have h2 : findClose "@\x7bx\x7d".toList = some ("@\x7bx".toList, []) := by decide
  have h3 : findOpen [] = none := rfl
  rw [replaceVars_of_find h1 h2, specReplaceVars_of_find h1 h2, replaceVars_of_findOpen_none h3,
    specReplaceVars_of_findOpen_none h3]
  constructor <;> decide

end Lithos
