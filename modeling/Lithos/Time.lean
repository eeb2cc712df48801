import Mathlib.Data.Int.Defs

/-!
# Clock readings and durations

The monitor reads the clock through `time::get_time()`, which answers a
`Timespec { sec, nsec }` kept normalised (`0 ≤ nsec < 10⁹`), and it measures
backoff in `std::time::Duration`.  Neither crate is part of the repository, so
this file models exactly what `monitor.rs` does with them:

* `Timespec::new(sec, 0)`, the readings `.sec`, the sum `Timespec + Duration`
  (which the crate normalises again), and the derived order on `(sec, nsec)`;
* `Duration::seconds` and `Duration::milliseconds`, the only constructors the
  callers of `Monitor::add` use.

Both are kept as a count of nanoseconds.  Then `sec` and `nsec` are the quotient
and the remainder of that count by `10⁹` (Euclidean division, so a reading
before the epoch still has `0 ≤ nsec`), the sum is addition, and the crate's
lexicographic order on `(sec, nsec)` is the order of the counts:
`Timespec.lt_iff_lex` says so, and it is the one place where the encoding is
checked against the crate's own definition.

The one thing the code does that this encoding makes visible is the loss in
`.sec`: a queue key keeps whole seconds only, and `Timespec.new_sec_le` and
`Timespec.lt_new_sec_add_one` bound what is lost.
-/

namespace Lithos

/-- Nanoseconds in a second, the `NSEC_PER_SEC` of the time crate. -/
def nsPerSec : Int := 1000000000

/-- `time::Timespec`: a clock reading, as its count of nanoseconds. -/
structure Timespec where
  /-- The reading in nanoseconds since the epoch. -/
  ns : Int
  deriving DecidableEq, Repr

/-- `std::time::Duration`, as its count of nanoseconds. -/
structure Duration where
  /-- The length in nanoseconds. -/
  ns : Int
  deriving DecidableEq, Repr

namespace Timespec

/-- The `sec` field of the normalised reading. -/
def sec (t : Timespec) : Int := t.ns / nsPerSec

/-- The `nsec` field of the normalised reading. -/
def nsec (t : Timespec) : Int := t.ns % nsPerSec

/-- `Timespec::new(sec, nsec)`. -/
def new (sec nsec : Int) : Timespec := ⟨sec * nsPerSec + nsec⟩

instance : LT Timespec := ⟨fun a b => a.ns < b.ns⟩

instance : LE Timespec := ⟨fun a b => a.ns ≤ b.ns⟩

instance (a b : Timespec) : Decidable (a < b) := inferInstanceAs (Decidable (a.ns < b.ns))

instance (a b : Timespec) : Decidable (a ≤ b) := inferInstanceAs (Decidable (a.ns ≤ b.ns))

/-- `Timespec + Duration`. -/
instance : HAdd Timespec Duration Timespec := ⟨fun t d => ⟨t.ns + d.ns⟩⟩

@[simp] theorem lt_def (a b : Timespec) : a < b ↔ a.ns < b.ns := Iff.rfl

@[simp] theorem le_def (a b : Timespec) : a ≤ b ↔ a.ns ≤ b.ns := Iff.rfl

@[simp] theorem add_ns (t : Timespec) (d : Duration) : (t + d).ns = t.ns + d.ns := rfl

@[simp] theorem new_ns (s n : Int) : (new s n).ns = s * nsPerSec + n := rfl

theorem le_trans {a b c : Timespec} (h₁ : a ≤ b) (h₂ : b ≤ c) : a ≤ c := Int.le_trans h₁ h₂

theorem nsec_nonneg (t : Timespec) : 0 ≤ t.nsec := Int.emod_nonneg _ (by decide)

theorem nsec_lt (t : Timespec) : t.nsec < nsPerSec := Int.emod_lt_of_pos _ (by decide)

theorem ns_eq (t : Timespec) : t.ns = t.sec * nsPerSec + t.nsec := by
  rw [sec, nsec, Int.mul_comm]; exact (Int.ediv_add_emod _ _).symm

/-- **The order is the crate's.**  The derived `PartialOrd` of `Timespec`
compares `sec` first and `nsec` second; on normalised readings that is the
order of the nanosecond counts. -/
theorem lt_iff_lex (a b : Timespec) :
    a < b ↔ a.sec < b.sec ∨ a.sec = b.sec ∧ a.nsec < b.nsec := by
  have ha := a.ns_eq; have hb := b.ns_eq
  have := a.nsec_nonneg; have := a.nsec_lt; have := b.nsec_nonneg; have := b.nsec_lt
  simp only [lt_def, nsPerSec] at *
  constructor <;> intro h <;> omega

/-- A whole-second reading is never later than the reading it was cut from. -/
theorem new_sec_le (t : Timespec) : (new t.sec 0).ns ≤ t.ns := by
  have := t.ns_eq; have := t.nsec_nonneg
  simp only [new_ns]; omega

/-- Cutting a reading to whole seconds loses less than a second. -/
theorem lt_new_sec_add_one (t : Timespec) : t.ns < (new t.sec 0).ns + nsPerSec := by
  have := t.ns_eq; have := t.nsec_lt
  simp only [new_ns]; omega

end Timespec

namespace Duration

/-- `Duration::seconds(n)`. -/
def seconds (n : Int) : Duration := ⟨n * nsPerSec⟩

/-- `Duration::milliseconds(n)`. -/
def milliseconds (n : Int) : Duration := ⟨n * 1000000⟩

@[simp] theorem seconds_ns (n : Int) : (seconds n).ns = n * nsPerSec := rfl

@[simp] theorem milliseconds_ns (n : Int) : (milliseconds n).ns = n * 1000000 := rfl

end Duration

end Lithos
