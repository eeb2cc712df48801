import Lithos.Container.Config

/-!
# Id ranges: `sandbox_config::Range`

A sandbox lists the user ids, group ids and ports it allows as ranges, each
read from a text `"a"` or `"a-b"` by `Range`'s `Deserialize`.  `Range::len`
computes `end - start + 1` and `Range::shift` drops the first `val` ids, both in
`u32`.  Rust's `u32` arithmetic panics on overflow in a debug build (and wraps in
a release build), so here each operation that can overflow answers `none` where
it would.

Nothing keeps `start ≤ end`:

* `len_eq_some_iff`: `len` computes the number of ids exactly when
  `start ≤ end` and the range is not the whole of `u32`;
* `deserialize_toString`: the texts `"a"` and `"a-b"` of `u32` values are read
  back as the ranges they write;
* `deserialize_accepts_bad_ranges`: `"5-1"` is accepted with `start > end`, and
  `"0-4294967295"` with a length that overflows;
* `shift_of_lt`: a shift by less than the length keeps the last ids, and
  `shift_by_len_fails` is the boundary `val = len` that the assertion lets
  through: the result cannot be measured, or the sum overflows.
-/

namespace Lithos

/-- `sandbox_config::Range`: the ids from `start` to `end`, both included. -/
structure Range where
  /-- The first id. -/
  start : UInt32
  /-- The last id. -/
  «end» : UInt32
  deriving DecidableEq, Repr

/-- `a - b` on `u32`, `none` where it would go below zero. -/
def subU32 (a b : UInt32) : Option UInt32 := if b ≤ a then some (a - b) else none

/-- `a + b` on `u32`, `none` where it would pass `u32::MAX`. -/
def addU32 (a b : UInt32) : Option UInt32 := if a.toNat + b.toNat < 2 ^ 32 then some (a + b) else none

theorem u32_le_iff (a b : UInt32) : a ≤ b ↔ a.toNat ≤ b.toNat := Iff.rfl

theorem u32_toNat_lt (a : UInt32) : a.toNat < 2 ^ 32 := a.toNat_lt_size

@[simp] theorem u32_toNat_one : (1 : UInt32).toNat = 1 := rfl

@[simp] theorem subU32_eq_some {a b c : UInt32} :
    subU32 a b = some c ↔ b.toNat ≤ a.toNat ∧ c.toNat = a.toNat - b.toNat := by
  unfold subU32
  by_cases h : b ≤ a
  · rw [if_pos h, Option.some.injEq, ← UInt32.toNat_sub_of_le _ _ h]
    exact ⟨fun he => ⟨h, he ▸ rfl⟩, fun ⟨_, hc⟩ => (UInt32.toNat.inj hc).symm⟩
  · rw [if_neg h]
    exact iff_of_false (Option.noConfusion ·) fun ⟨h', _⟩ => h h'

@[simp] theorem addU32_eq_some {a b c : UInt32} :
    addU32 a b = some c ↔ a.toNat + b.toNat < 2 ^ 32 ∧ c.toNat = a.toNat + b.toNat := by
  unfold addU32
  by_cases h : a.toNat + b.toNat < 2 ^ 32
  · have hadd : (a + b).toNat = a.toNat + b.toNat := Nat.mod_eq_of_lt h
    rw [if_pos h, Option.some.injEq]
    exact ⟨fun he => ⟨h, he ▸ hadd⟩, fun ⟨_, hc⟩ => UInt32.toNat.inj (hadd.trans hc.symm)⟩
  · rw [if_neg h]
    exact iff_of_false (Option.noConfusion ·) fun ⟨h', _⟩ => h h'

namespace Range

/-- `Range::new`. -/
def new (start «end» : UInt32) : Range := ⟨start, «end»⟩

/-- `Range::len`: `end - start + 1`. -/
def len (r : Range) : Option UInt32 := (subU32 r.end r.start).bind (addU32 · 1)

/-- `Range::shift`: the assertion `end - start + 1 >= val`, then
`Range::new(start + val, end)`. -/
def shift (r : Range) (val : UInt32) : Option Range :=
  ((subU32 r.end r.start).bind (addU32 · 1)).bind fun l =>
    if val ≤ l then (addU32 r.start val).map (new · r.end) else none

/-- The ids the range stands for. -/
def ids (r : Range) : List Nat := List.range' r.start.toNat (r.end.toNat + 1 - r.start.toNat)

/-- `Range`'s `Deserialize` of the text `val`: one `u32`, else
`val.splitn(2, '-')` and a `u32` on each side. -/
def deserialize (val : String) : Except String Range :=
  match parseU32 val.toList with
  | .ok num => .ok (new num.toUInt32 num.toUInt32)
  | .error _ =>
    match parseU32 (val.toList.takeWhile (· != '-')) with
    | .error _ => .error "Error parsing range"
    | .ok a =>
      match val.toList.dropWhile (· != '-') with
      | [] => .error "Error parsing range"
      | _ :: rest =>
        match parseU32 rest with
        | .ok b => .ok (new a.toUInt32 b.toUInt32)
        | .error _ => .error "Error parsing range"

@[simp] theorem length_ids (r : Range) : r.ids.length = r.end.toNat + 1 - r.start.toNat := by
  simp [ids]

/-- **When `len` is the number of ids.**  It computes without overflow exactly
when `start ≤ end` and the range is not all of `u32`, and then it is the
number of ids from `start` to `end`. -/
theorem len_eq_some_iff {r : Range} {l : UInt32} :
    r.len = some l ↔ r.start.toNat ≤ r.end.toNat ∧ r.end.toNat - r.start.toNat + 1 < 2 ^ 32 ∧
      l.toNat = r.ids.length := by
  simp only [len, Option.bind_eq_some, subU32_eq_some, addU32_eq_some, length_ids]
  constructor
  · rintro ⟨d, ⟨h1, hd⟩, h2, hl⟩
    simp only [hd, u32_toNat_one] at h2 hl
    exact ⟨h1, h2, by omega⟩
  · rintro ⟨h1, h2, hl⟩
    refine ⟨r.end - r.start, ⟨h1, UInt32.toNat_sub_of_le _ _ h1⟩, ?_⟩
    simp only [UInt32.toNat_sub_of_le _ _ h1, u32_toNat_one]
    exact ⟨h2, by omega⟩

/-- **`Deserialize` accepts ranges `len` cannot measure.**  `"5-1"` gives
`start = 5 > end = 1`, and `len` underflows; `"0-4294967295"` gives
`start ≤ end`, and `len` overflows. -/
theorem deserialize_accepts_bad_ranges :
    deserialize "5-1" = .ok (new 5 1) ∧ (new 5 1).end < (new 5 1).start ∧
      (new 5 1).len = none ∧
    deserialize "0-4294967295" = .ok (new 0 4294967295) ∧ (new 0 4294967295).len = none :=
  ⟨rfl, by decide, rfl, rfl, rfl⟩

theorem toNat_toUInt32 (a : UInt32) : a.toNat.toUInt32 = a :=
  UInt32.toNat.inj (UInt32.toNat_ofNat_of_lt a.toNat_lt_size)

/-- A text with a `-` is not one `u32`. -/
theorem parseU32_minus {s t : List Char} {n : Nat} (h : parseU32 (s ++ '-' :: t) = .ok n) : False := by
  have := isDigit_of_parseUnsigned h '-' (List.mem_append_right _ (List.mem_cons_self _ _))
  exact absurd this (by decide)

/-- **`Deserialize` reads back the texts of a range.**  For all `u32` values
`a` and `b`, the text `"a"` is the range of `a` alone, and `"a-b"` is the range
from `a` to `b`. -/
theorem deserialize_toString (a b : UInt32) :
    deserialize (toString a.toNat) = .ok (new a a) ∧
      deserialize (toString a.toNat ++ "-" ++ toString b.toNat) = .ok (new a b) := by
  have hnum : ∀ x : UInt32, parseU32 (toString x.toNat).toList = .ok x.toNat :=
    fun x => parseUnsigned_toString (u32_toNat_lt x)
  have hminus : ∀ c ∈ (toString a.toNat).toList, (c != '-') = true := fun c hc => by
    have := (toString_digits a.toNat).2 c hc
    exact bne_iff_ne.2 fun h => absurd (h ▸ this) (by decide)
  have hs : (toString a.toNat ++ "-" ++ toString b.toNat).toList =
      (toString a.toNat).toList ++ '-' :: (toString b.toNat).toList := by simp
  have htake : ((toString a.toNat).toList ++ '-' :: (toString b.toNat).toList).takeWhile (· != '-') =
      (toString a.toNat).toList := by
    rw [List.takeWhile_append_of_pos hminus, List.takeWhile_cons_of_neg (by decide), List.append_nil]
  have hdrop : ((toString a.toNat).toList ++ '-' :: (toString b.toNat).toList).dropWhile (· != '-') =
      '-' :: (toString b.toNat).toList := by
    rw [List.dropWhile_append_of_pos hminus, List.dropWhile_cons_of_neg (by decide)]
  refine ⟨by simp only [deserialize, hnum, toNat_toUInt32], ?_⟩
  unfold deserialize
  rw [hs]
  split
  · rename_i heq; exact (parseU32_minus heq).elim
  · rw [htake, hnum, hdrop]
    simp only [hnum, toNat_toUInt32]

/-- **A shift by less than the length.**  It computes `start + val` without
overflow, and the range it gives has `len - val` ids, the last ones of `r`. -/
theorem shift_of_lt {r : Range} {l val : UInt32} (hl : r.len = some l) (hv : val < l) :
    ∃ r', r.shift val = some r' ∧ r'.len = some (l - val) ∧ r'.ids = r.ids.drop val.toNat := by
  obtain ⟨h1, h2, hlen⟩ := len_eq_some_iff.1 hl
  simp only [length_ids] at hlen
  have hv' : val.toNat < l.toNat := hv
  have hvle : val ≤ l := (u32_le_iff _ _).2 (Nat.le_of_lt hv')
  have hsum : r.start.toNat + val.toNat < 2 ^ 32 := by have := u32_toNat_lt r.end; omega
  have hstart : (r.start + val).toNat = r.start.toNat + val.toNat := Nat.mod_eq_of_lt hsum
  have hs : addU32 r.start val = some (r.start + val) := addU32_eq_some.2 ⟨hsum, hstart⟩
  refine ⟨new (r.start + val) r.end, ?_, ?_, ?_⟩
  · have hl' : (subU32 r.end r.start).bind (addU32 · 1) = some l := hl
    simp only [shift, hl', Option.some_bind, if_pos hvle, hs, Option.map_some']
  · refine len_eq_some_iff.2 ⟨?_, ?_, ?_⟩ <;>
      simp only [new, length_ids, hstart, UInt32.toNat_sub_of_le _ _ hvle] <;> omega
  · have hsplit : r.end.toNat + 1 - r.start.toNat =
        (r.end.toNat + 1 - (r.start.toNat + val.toNat)) + val.toNat := by omega
    simp only [ids, new, hstart]
    rw [hsplit, ← List.range'_append_1, List.drop_left' (List.length_range' _ _ _)]

/-- The user ids 1000 to 1999 shifted by 10: the last 990 of them. -/
theorem shift_of_lt_users :
    ∃ r', (new 1000 1999).shift 10 = some r' ∧ r'.len = some (1000 - 10) ∧
      r'.ids = (new 1000 1999).ids.drop (10 : UInt32).toNat :=
  shift_of_lt rfl (by decide)

/-- **The boundary the assertion lets through.**  `Range::new(0, 0)` has one
id, and `shift(1)` passes the assertion but gives `Range::new(1, 0)`, whose
`len` underflows; `Range::new(u32::MAX, u32::MAX)` has one id, and `shift(1)`
overflows `start + val`. -/
theorem shift_by_len_fails :
    (new 0 0).len = some 1 ∧ (new 0 0).shift 1 = some (new 1 0) ∧ (new 1 0).len = none ∧
    (new 4294967295 4294967295).len = some 1 ∧ (new 4294967295 4294967295).shift 1 = none :=
  ⟨rfl, rfl, rfl, rfl, rfl⟩

end Range

end Lithos
