import Mathlib.Tactic.IntervalCases
import Mathlib.Data.Nat.Digits

/-!
# Decimal numerals

Two places read a decimal numeral back: the name of a `/proc` entry and the
parent pid in its `stat` line (`FromStr` for `pid_t`, that is `i32`).  Two places
print one: the index in an instance name (`format!("{}.{}", stem, i)`) and the
pid of the `/proc` entry.  Printing is Lean's `toString`, which is the same
shortest decimal form as Rust's `{}`.

`from_str_radix` reads digits left to right, `result * 10 + digit`, and gives
`None` at the first character that is not an ASCII digit (`char::to_digit`)
or at an overflow.  The value read so far only grows, so checking for overflow
after every digit is the same as checking the final value once; that is how
`fromStrI32` is written.

* `digitsValue_toString`: reading `toString n` back gives `n`;
* `fromStrI32_toString`: so does the `i32` parse, for `0 ≤ n < 2^31`;
* `isDigit_of_digitsValue`: whatever reads as a value is all ASCII digits.
-/

namespace Lithos

/-- `char::to_digit(10)`. -/
def toDigit (c : Char) : Option Nat :=
  if c.isDigit then some (c.toNat - '0'.toNat) else none

/-- One step of `from_str_radix`'s loop. -/
def digitStep (acc : Option Nat) (c : Char) : Option Nat :=
  acc.bind fun v => (toDigit c).map (v * 10 + ·)

/-- The digits of `s` read as a number, `none` if one of them is not an ASCII
digit; the empty run reads as `0`. -/
def digitsValue (s : List Char) : Option Nat := s.foldl digitStep (some 0)

/-- `FromStr for i32` (`from_str_radix(s, 10)`): no characters is `None`; a
leading `-` reads the rest as a negative number. -/
def fromStrI32 : List Char → Option Int
  | [] => none
  | c :: s =>
    if c = '-' then (digitsValue s).bind fun v => if v ≤ 2 ^ 31 then some (-(v : Int)) else none
    else (digitsValue (c :: s)).bind fun v => if v < 2 ^ 31 then some (v : Int) else none

theorem toDigit_digitChar {k : Nat} (h : k < 10) : toDigit (Nat.digitChar k) = some k := by
  interval_cases k <;> rfl

theorem isDigit_of_toDigit {c : Char} {k : Nat} (h : toDigit c = some k) : c.isDigit := by
  unfold toDigit at h
  split at h
  · assumption
  · cases h

@[simp] theorem foldl_digitStep_none (s : List Char) : s.foldl digitStep none = none := by
  induction s with
  | nil => rfl
  | cons c s ih => exact ih

theorem digitsValue_append_digitChar (s : List Char) {k : Nat} (h : k < 10) :
    digitsValue (s ++ [Nat.digitChar k]) = (digitsValue s).map (· * 10 + k) := by
  simp only [digitsValue, List.foldl_append, List.foldl_cons, List.foldl_nil]
  cases s.foldl digitStep (some 0) <;> simp [digitStep, toDigit_digitChar h]

/-- `toDigitsCore` puts each new digit in front of what it has made. -/
theorem toDigitsCore_append (f n : Nat) (ds : List Char) :
    Nat.toDigitsCore 10 f n ds = Nat.toDigitsCore 10 f n [] ++ ds := by
  induction f generalizing n ds with
  | zero => rfl
  | succ f ih =>
    simp only [Nat.toDigitsCore]
    split
    · rfl
    · rw [ih _ (_ :: ds), ih _ [_], List.append_assoc, List.singleton_append]

theorem digitsValue_toDigitsCore {f n : Nat} (h : n < f) :
    digitsValue (Nat.toDigitsCore 10 f n []) = some n := by
  induction f generalizing n with
  | zero => omega
  | succ f ih =>
    have hk : n % 10 < 10 := Nat.mod_lt _ (by omega)
    simp only [Nat.toDigitsCore]
    split
    · rw [← List.nil_append [_], digitsValue_append_digitChar _ hk]
      simp only [digitsValue, List.foldl_nil, Option.map_some', Option.some.injEq]
      omega
    · rw [toDigitsCore_append, digitsValue_append_digitChar _ hk, ih (by omega)]
      simp only [Option.map_some', Option.some.injEq]
      omega

/-- **Reading a printed number back gives the number.** -/
theorem digitsValue_toString (n : Nat) : digitsValue (toString n).toList = some n :=
  digitsValue_toDigitsCore (Nat.lt_succ_self n)

theorem isDigit_of_foldl_digitStep {s : List Char} {acc : Option Nat} {v : Nat}
    (h : s.foldl digitStep acc = some v) : ∀ c ∈ s, c.isDigit := by
  induction s generalizing acc with
  | nil => simp
  | cons c s ih =>
    rw [List.foldl_cons] at h
    intro d hd
    rcases List.mem_cons.1 hd with rfl | hd
    · cases hc : toDigit d with
      | none => cases acc <;> simp [digitStep, hc] at h
      | some k => exact isDigit_of_toDigit hc
    · exact ih h d hd

/-- Whatever reads as a value is all ASCII digits. -/
theorem isDigit_of_digitsValue {s : List Char} {v : Nat} (h : digitsValue s = some v) :
    ∀ c ∈ s, c.isDigit :=
  isDigit_of_foldl_digitStep h

/-- A printed number is a nonempty run of ASCII digits. -/
theorem toString_digits (n : Nat) :
    (toString n).toList ≠ [] ∧ ∀ c ∈ (toString n).toList, c.isDigit := by
  refine ⟨fun h => ?_, isDigit_of_digitsValue (digitsValue_toString n)⟩
  have h2 : (toString n).toList = Nat.toDigitsCore 10 (n + 1) n [] := rfl
  rw [h2, Nat.toDigitsCore] at h
  split at h
  · cases h
  · rw [toDigitsCore_append] at h; simp at h

/-- **The `i32` parse reads a printed pid back.** -/
theorem fromStrI32_toString {p : Int} (h0 : 0 ≤ p) (h1 : p < 2 ^ 31) :
    fromStrI32 (toString p).toList = some p := by
  obtain ⟨n, rfl⟩ := Int.eq_ofNat_of_zero_le h0
  have hs : (toString (n : Int)).toList = (toString n).toList := rfl
  obtain ⟨hne, hdig⟩ := toString_digits n
  rw [hs]
  obtain ⟨c, s, hcs⟩ := List.exists_cons_of_ne_nil hne
  have hc : c ≠ '-' := fun h => by
    have := hdig c (hcs ▸ List.mem_cons_self c s); subst h; exact absurd this (by decide)
  rw [hcs, fromStrI32, if_neg hc, ← hcs, digitsValue_toString]
  simp only [Option.some_bind]
  rw [if_pos (by omega)]

end Lithos
