import Mathlib.Data.List.Basic
import Mathlib.Data.Option.Defs

/-!
# Bytes and text

A file name on Unix is bytes, and lithos reads it as text only where it asks
for it: `Path::filename_str`, `filestem_str` and `extension_str` of the old
`std::path` answer `None` on bytes that are not UTF-8 (`str::from_utf8`), and
`OsStr::to_str` does the same in `SandboxConfig::check_path`.  This file says
once what those conversions are:

* `utf8Valid` is Unicode's table of well-formed UTF-8 sequences, which
  `str::from_utf8` checks;
* `strBytes` is `str::as_bytes`, the UTF-8 encoding of a text;
* `fromUtf8` is `str::from_utf8`: it reads each sequence by its lead byte and
  keeps the character only where the character's encoding is the sequence it
  read, so that `strBytes_of_fromUtf8`, the text it gives has exactly the
  input's bytes, holds by construction.

Then it proves that the three fit together:

* `fromUtf8_strBytes`: the bytes of every text are UTF-8 and read back as that
  text, so `fromUtf8 b = some s` exactly when `strBytes s = b`
  (`fromUtf8_eq_some_iff`);
* `utf8Valid_eq_isSome`: the table accepts exactly the bytes `fromUtf8` reads,
  so `to_str` in `check_path` and the `_str` methods of `Path` agree on what
  is text.

The proofs read `utf8EncodeChar` and `utf8Lead` as numbers (`utf8EncodeChar_two`,
`utf8Lead_toNat`); the facts about single bytes are decided over all 256 of
them (`forall_uint8`).
-/

namespace Lithos

/-- The byte `/`. -/
def slashByte : UInt8 := 47

/-- The byte `.`. -/
def dotByte : UInt8 := 46

/-- A byte `10xxxxxx` that continues a UTF-8 sequence. -/
def isCont (b : UInt8) : Bool := 0x80 ≤ b && b ≤ 0xBF

/-- A lead byte: how many continuation bytes follow it, and the range the first
of them must lie in. -/
def utf8Lead (b : UInt8) : Option (Nat × UInt8 × UInt8) :=
  if b ≤ 0x7F then some (0, 0, 0)
  else if 0xC2 ≤ b ∧ b ≤ 0xDF then some (1, 0x80, 0xBF)
  else if b = 0xE0 then some (2, 0xA0, 0xBF)
  else if 0xE1 ≤ b ∧ b ≤ 0xEC then some (2, 0x80, 0xBF)
  else if b = 0xED then some (2, 0x80, 0x9F)
  else if 0xEE ≤ b ∧ b ≤ 0xEF then some (2, 0x80, 0xBF)
  else if b = 0xF0 then some (3, 0x90, 0xBF)
  else if 0xF1 ≤ b ∧ b ≤ 0xF3 then some (3, 0x80, 0xBF)
  else if b = 0xF4 then some (3, 0x80, 0x8F)
  else none

/-- `OsStr::to_str(x).is_some()`: the bytes are well-formed UTF-8. -/
def utf8Valid : List UInt8 → Bool
  | [] => true
  | b :: s =>
    match utf8Lead b, s with
    | some (0, _, _), s => utf8Valid s
    | some (1, lo, hi), c :: s => lo ≤ c && c ≤ hi && utf8Valid s
    | some (2, lo, hi), c₁ :: c₂ :: s => lo ≤ c₁ && c₁ ≤ hi && isCont c₂ && utf8Valid s
    | some (3, lo, hi), c₁ :: c₂ :: c₃ :: s =>
      lo ≤ c₁ && c₁ ≤ hi && isCont c₂ && isCont c₃ && utf8Valid s
    | _, _ => false

/-- `str::as_bytes`: the UTF-8 encoding of a text. -/
def strBytes (s : String) : List UInt8 := s.toList.flatMap String.utf8EncodeChar

/-- Put the character with code point `v` before the characters `rest`, when
the sequence `seq` read for it is that character's encoding. -/
def consChar (seq : List UInt8) (v : Nat) (rest : List Char) : Option (List Char) :=
  if String.utf8EncodeChar (Char.ofNat v) = seq then some (Char.ofNat v :: rest) else none

/-- The characters of UTF-8 bytes: each sequence is a lead byte and the number
of continuation bytes `utf8Lead` gives for it, and its code point is the lead
byte's low bits followed by six bits of each continuation byte.  An overlong
sequence, a surrogate or a code point past `U+10FFFF` has no character whose
encoding it is, and is rejected. -/
def decodeUtf8 : List UInt8 → Option (List Char)
  | [] => some []
  | b :: s =>
    match utf8Lead b, s with
    | some (0, _, _), s => (decodeUtf8 s).bind (consChar [b] b.toNat)
    | some (1, _, _), c :: s =>
      (decodeUtf8 s).bind (consChar [b, c] (b.toNat % 32 * 64 + c.toNat % 64))
    | some (2, _, _), c₁ :: c₂ :: s =>
      (decodeUtf8 s).bind
        (consChar [b, c₁, c₂] ((b.toNat % 16 * 64 + c₁.toNat % 64) * 64 + c₂.toNat % 64))
    | some (3, _, _), c₁ :: c₂ :: c₃ :: s =>
      (decodeUtf8 s).bind (consChar [b, c₁, c₂, c₃]
        (((b.toNat % 8 * 64 + c₁.toNat % 64) * 64 + c₂.toNat % 64) * 64 + c₃.toNat % 64))
    | _, _ => none

/-- `str::from_utf8(b).ok()`: the text whose encoding the bytes are. -/
def fromUtf8 (b : List UInt8) : Option String := (decodeUtf8 b).map String.mk

@[simp] theorem strBytes_append (s t : String) : strBytes (s ++ t) = strBytes s ++ strBytes t :=
  List.flatMap_append _ _ _

theorem consChar_eq_some {seq : List UInt8} {v : Nat} {rest cs : List Char}
    (h : consChar seq v rest = some cs) :
    cs = Char.ofNat v :: rest ∧ String.utf8EncodeChar (Char.ofNat v) = seq := by
  unfold consChar at h
  split at h
  · exact ⟨(Option.some.inj h).symm, ‹_›⟩
  · cases h

/-- What `decodeUtf8` reads is the encoding of the characters it gives. -/
theorem flatMap_of_decodeUtf8 {b : List UInt8} {cs : List Char} (h : decodeUtf8 b = some cs) :
    cs.flatMap String.utf8EncodeChar = b := by
  induction b using decodeUtf8.induct generalizing cs with
  | case1 => cases h; rfl
  | case2 b _ _ s hb ih | case3 b _ _ _ s hb ih | case4 b _ _ _ _ s hb ih
  | case5 b _ _ _ _ _ s hb ih =>
    unfold decodeUtf8 at h
    rw [hb] at h
    obtain ⟨t, ht, h⟩ := Option.bind_eq_some.1 h
    obtain ⟨rfl, henc⟩ := consChar_eq_some h
    rw [List.flatMap_cons, henc, ih ht]
    rfl
  | case6 b s h0 h1 h2 h3 =>
    unfold decodeUtf8 at h
    split at h
    · exact (h0 _ _ ‹_›).elim
    · exact (h1 _ _ _ _ ‹_› rfl).elim
    · exact (h2 _ _ _ _ _ ‹_› rfl).elim
    · exact (h3 _ _ _ _ _ _ ‹_› rfl).elim
    · cases h

/-- **`str::from_utf8` gives the text of exactly the input's bytes.** -/
theorem strBytes_of_fromUtf8 {b : List UInt8} {s : String} (h : fromUtf8 b = some s) :
    strBytes s = b := by
  obtain ⟨cs, hcs, rfl⟩ := Option.map_eq_some'.1 h
  exact flatMap_of_decodeUtf8 hcs

/-! ## The round trip -/

theorem forall_uint8 {P : UInt8 → Prop} (h : ∀ n < 256, P (UInt8.ofNat n)) (b : UInt8) : P b := by
  have hb : UInt8.ofNat b.toNat = b := UInt8.toNat.inj (by simp [UInt8.toNat, UInt8.ofNat])
  exact hb ▸ h _ b.toBitVec.isLt

set_option maxRecDepth 2000 in
/-- The bytes `utf8EncodeChar` writes: six payload bits under `10`, and the
lead bytes' payload bits under `110`, `1110` and `11110`. -/
theorem toNat_marked : ∀ x : UInt8,
    (x &&& 0x3f ||| 0x80).toNat = x.toNat % 64 + 0x80 ∧
    (x &&& 0x1f ||| 0xc0).toNat = x.toNat % 32 + 0xc0 ∧
    (x &&& 0x0f ||| 0xe0).toNat = x.toNat % 16 + 0xe0 ∧
    (x &&& 0x07 ||| 0xf0).toNat = x.toNat % 8 + 0xf0 :=
  forall_uint8 (by decide)

set_option maxRecDepth 2000 in
/-- The bytes `utf8Lead` refuses, in numbers. -/
theorem utf8Lead_eq_none : ∀ b : UInt8,
    utf8Lead b = none → 0x80 ≤ b.toNat ∧ b.toNat < 0xC2 ∨ 0xF5 ≤ b.toNat :=
  forall_uint8 (by decide)

set_option maxRecDepth 2000 in
set_option synthInstance.maxSize 512 in
/-- What `utf8Lead` says of the other bytes, in numbers: by the number of
continuation bytes, the range of the lead byte and of the first continuation
byte. -/
theorem utf8Lead_toNat : ∀ b : UInt8, ∀ t ∈ utf8Lead b,
      (t.1 = 0 → b.toNat < 0x80) ∧
      (t.1 = 1 → 0xC2 ≤ b.toNat ∧ b.toNat < 0xE0 ∧ t.2.1.toNat = 0x80 ∧ t.2.2.toNat = 0xBF) ∧
      (t.1 = 2 → 0xE0 ≤ b.toNat ∧ b.toNat < 0xF0 ∧
        (b.toNat = 0xE0 ∧ t.2.1.toNat = 0xA0 ∨ b.toNat ≠ 0xE0 ∧ t.2.1.toNat = 0x80) ∧
        (b.toNat = 0xED ∧ t.2.2.toNat = 0x9F ∨ b.toNat ≠ 0xED ∧ t.2.2.toNat = 0xBF)) ∧
      (t.1 = 3 → 0xF0 ≤ b.toNat ∧ b.toNat < 0xF5 ∧
        (b.toNat = 0xF0 ∧ t.2.1.toNat = 0x90 ∨ b.toNat ≠ 0xF0 ∧ t.2.1.toNat = 0x80) ∧
        (b.toNat = 0xF4 ∧ t.2.2.toNat = 0x8F ∨ b.toNat ≠ 0xF4 ∧ t.2.2.toNat = 0xBF)) ∧
      t.1 < 4 :=
  forall_uint8 (by decide)

theorem toNat_toUInt8 (v : UInt32) : v.toUInt8.toNat = v.toNat % 256 := by
  simp [UInt32.toUInt8, UInt8.toNat, UInt8.ofNat, BitVec.toNat_ofNat]

theorem toNat_toUInt8_shiftRight (c : Char) {k : Nat} (hk : k < 32) :
    (c.val >>> UInt32.ofNat k).toUInt8.toNat = c.toNat / Nat.pow 2 k % 256 := by
  rw [toNat_toUInt8]
  show (c.val.toBitVec >>> (UInt32.mod (UInt32.ofNat k) 32).toBitVec).toNat % 256 = _
  simp only [BitVec.ushiftRight_eq', BitVec.toNat_ushiftRight, Nat.shiftRight_eq_div_pow]
  congr 3
  show (UInt32.ofNat k % 32).toNat = k
  rw [UInt32.toNat_mod, UInt32.toNat_ofNat_of_lt (by unfold UInt32.size; omega)]
  exact Nat.mod_eq_of_lt hk

theorem val_le_iff (c : Char) {m : Nat} (hm : m < UInt32.size) :
    c.val ≤ UInt32.ofNat m ↔ c.toNat ≤ m := by
  rw [UInt32.le_def, BitVec.le_def]
  show c.toNat ≤ (UInt32.ofNat m).toNat ↔ _
  rw [UInt32.toNat_ofNat_of_lt hm]

/-! What `utf8EncodeChar` writes for a character, by the range of its code
point: the lead byte's marker over the point's high bits, then six bits a
byte. -/

theorem utf8EncodeChar_one (c : Char) (h : c.toNat < 0x80) :
    ∃ b, String.utf8EncodeChar c = [b] ∧ b.toNat = c.toNat := by
  have h1 : c.val ≤ 0x7f := (val_le_iff c (m := 0x7f) (by decide)).2 (by omega)
  simp only [String.utf8EncodeChar, h1, if_true]
  exact ⟨_, rfl, (toNat_toUInt8 c.val).trans (Nat.mod_eq_of_lt (by show c.toNat < 256; omega))⟩

theorem utf8EncodeChar_two (c : Char) (h : 0x80 ≤ c.toNat ∧ c.toNat < 0x800) :
    ∃ b₁ b₂, String.utf8EncodeChar c = [b₁, b₂] ∧
      b₁.toNat = c.toNat / 64 + 0xC0 ∧ b₂.toNat = c.toNat % 64 + 0x80 := by
  have h1 : ¬ c.val ≤ 0x7f := mt (val_le_iff c (m := 0x7f) (by decide)).1 (by omega)
  have h2 : c.val ≤ 0x7ff := (val_le_iff c (m := 0x7ff) (by decide)).2 (by omega)
  have h6 : (c.val >>> 6).toUInt8.toNat = c.toNat / 64 % 256 :=
    toNat_toUInt8_shiftRight c (k := 6) (by decide)
  have h0 : c.val.toUInt8.toNat = c.toNat % 256 := toNat_toUInt8 c.val
  simp only [String.utf8EncodeChar, h1, h2, if_true, if_false]
  refine ⟨_, _, rfl, ?_, ?_⟩
  · rw [(toNat_marked _).2.1, h6]; omega
  · rw [(toNat_marked _).1, h0]; omega

theorem utf8EncodeChar_three (c : Char) (h : 0x800 ≤ c.toNat ∧ c.toNat < 0x10000) :
    ∃ b₁ b₂ b₃, String.utf8EncodeChar c = [b₁, b₂, b₃] ∧ b₁.toNat = c.toNat / 4096 + 0xE0 ∧
      b₂.toNat = c.toNat / 64 % 64 + 0x80 ∧ b₃.toNat = c.toNat % 64 + 0x80 := by
  have h1 : ¬ c.val ≤ 0x7f := mt (val_le_iff c (m := 0x7f) (by decide)).1 (by omega)
  have h2 : ¬ c.val ≤ 0x7ff := mt (val_le_iff c (m := 0x7ff) (by decide)).1 (by omega)
  have h3 : c.val ≤ 0xffff := (val_le_iff c (m := 0xffff) (by decide)).2 (by omega)
  have h6 : (c.val >>> 6).toUInt8.toNat = c.toNat / 64 % 256 :=
    toNat_toUInt8_shiftRight c (k := 6) (by decide)
  have h12 : (c.val >>> 12).toUInt8.toNat = c.toNat / 4096 % 256 :=
    toNat_toUInt8_shiftRight c (k := 12) (by decide)
  have h0 : c.val.toUInt8.toNat = c.toNat % 256 := toNat_toUInt8 c.val
  simp only [String.utf8EncodeChar, h1, h2, h3, if_true, if_false]
  refine ⟨_, _, _, rfl, ?_, ?_, ?_⟩
  · rw [(toNat_marked _).2.2.1, h12]; omega
  · rw [(toNat_marked _).1, h6]; omega
  · rw [(toNat_marked _).1, h0]; omega

theorem utf8EncodeChar_four (c : Char) (h : 0x10000 ≤ c.toNat ∧ c.toNat < 0x110000) :
    ∃ b₁ b₂ b₃ b₄, String.utf8EncodeChar c = [b₁, b₂, b₃, b₄] ∧
      b₁.toNat = c.toNat / 262144 + 0xF0 ∧ b₂.toNat = c.toNat / 4096 % 64 + 0x80 ∧
      b₃.toNat = c.toNat / 64 % 64 + 0x80 ∧ b₄.toNat = c.toNat % 64 + 0x80 := by
  have h1 : ¬ c.val ≤ 0x7f := mt (val_le_iff c (m := 0x7f) (by decide)).1 (by omega)
  have h2 : ¬ c.val ≤ 0x7ff := mt (val_le_iff c (m := 0x7ff) (by decide)).1 (by omega)
  have h3 : ¬ c.val ≤ 0xffff := mt (val_le_iff c (m := 0xffff) (by decide)).1 (by omega)
  have h6 : (c.val >>> 6).toUInt8.toNat = c.toNat / 64 % 256 :=
    toNat_toUInt8_shiftRight c (k := 6) (by decide)
  have h12 : (c.val >>> 12).toUInt8.toNat = c.toNat / 4096 % 256 :=
    toNat_toUInt8_shiftRight c (k := 12) (by decide)
  have h18 : (c.val >>> 18).toUInt8.toNat = c.toNat / 262144 % 256 :=
    toNat_toUInt8_shiftRight c (k := 18) (by decide)
  have h0 : c.val.toUInt8.toNat = c.toNat % 256 := toNat_toUInt8 c.val
  simp only [String.utf8EncodeChar, h1, h2, h3, if_false]
  refine ⟨_, _, _, _, rfl, ?_, ?_, ?_, ?_⟩
  · rw [(toNat_marked _).2.2.2, h18]; omega
  · rw [(toNat_marked _).1, h12]; omega
  · rw [(toNat_marked _).1, h6]; omega
  · rw [(toNat_marked _).1, h0]; omega

theorem utf8Lead_eq_some {b lo hi : UInt8} {w : Nat} (hl : utf8Lead b = some (w, lo, hi)) :
    (w = 0 → b.toNat < 0x80) ∧
    (w = 1 → 0xC2 ≤ b.toNat ∧ b.toNat < 0xE0 ∧ lo.toNat = 0x80 ∧ hi.toNat = 0xBF) ∧
    (w = 2 → 0xE0 ≤ b.toNat ∧ b.toNat < 0xF0 ∧
      (b.toNat = 0xE0 ∧ lo.toNat = 0xA0 ∨ b.toNat ≠ 0xE0 ∧ lo.toNat = 0x80) ∧
      (b.toNat = 0xED ∧ hi.toNat = 0x9F ∨ b.toNat ≠ 0xED ∧ hi.toNat = 0xBF)) ∧
    (w = 3 → 0xF0 ≤ b.toNat ∧ b.toNat < 0xF5 ∧
      (b.toNat = 0xF0 ∧ lo.toNat = 0x90 ∨ b.toNat ≠ 0xF0 ∧ lo.toNat = 0x80) ∧
      (b.toNat = 0xF4 ∧ hi.toNat = 0x8F ∨ b.toNat ≠ 0xF4 ∧ hi.toNat = 0xBF)) ∧
    w < 4 :=
  utf8Lead_toNat b _ hl

theorem utf8Lead_of_toNat {b : UInt8} {w : Nat}
    (hw : w = 0 ∧ b.toNat < 0x80 ∨ w = 1 ∧ 0xC2 ≤ b.toNat ∧ b.toNat < 0xE0 ∨
      w = 2 ∧ 0xE0 ≤ b.toNat ∧ b.toNat < 0xF0 ∨ w = 3 ∧ 0xF0 ≤ b.toNat ∧ b.toNat < 0xF5) :
    ∃ lo hi, utf8Lead b = some (w, lo, hi) := by
  rcases hl : utf8Lead b with _ | ⟨w', lo, hi⟩
  · have := utf8Lead_eq_none b hl
    omega
  · have := utf8Lead_eq_some hl
    obtain rfl : w' = w := by omega
    exact ⟨lo, hi, rfl⟩

theorem consChar_encode (c : Char) {v : Nat} (hv : v = c.toNat) :
    consChar (String.utf8EncodeChar c) v = some ∘ (c :: ·) := by
  subst hv
  funext rest
  simp [consChar]

/-- The code point of a character, by the number of bytes its encoding takes. -/
theorem toNat_ranges (c : Char) :
    c.toNat < 0x80 ∨ 0x80 ≤ c.toNat ∧ c.toNat < 0x800 ∨
      0x800 ≤ c.toNat ∧ c.toNat < 0x10000 ∧ (c.toNat < 0xD800 ∨ 0xDFFF < c.toNat) ∨
      0x10000 ≤ c.toNat ∧ c.toNat < 0x110000 := by
  have hv : c.toNat < 0xD800 ∨ 0xDFFF < c.toNat ∧ c.toNat < 0x110000 := c.valid
  omega

/-- A character's encoding reads back as that character. -/
theorem decodeUtf8_encode (c : Char) (rest : List UInt8) :
    decodeUtf8 (String.utf8EncodeChar c ++ rest) = (decodeUtf8 rest).map (c :: ·) := by
  rcases toNat_ranges c with h | h | h | h
  · obtain ⟨b, he, hb⟩ := utf8EncodeChar_one c h
    obtain ⟨lo, hi, hl⟩ := utf8Lead_of_toNat (b := b) (w := 0) (by omega)
    rw [he, List.singleton_append, decodeUtf8.eq_2 _ _ _ _ hl, ← he]
    rw [consChar_encode c hb, Option.map_eq_bind]
  · obtain ⟨b, b₂, he, hb, hb₂⟩ := utf8EncodeChar_two c h
    obtain ⟨lo, hi, hl⟩ := utf8Lead_of_toNat (b := b) (w := 1) (by omega)
    rw [he, List.cons_append, List.singleton_append, decodeUtf8.eq_3 _ _ _ _ _ hl, ← he]
    rw [consChar_encode c (by omega), Option.map_eq_bind]
  · obtain ⟨b, b₂, b₃, he, hb, hb₂, hb₃⟩ := utf8EncodeChar_three c ⟨h.1, h.2.1⟩
    obtain ⟨lo, hi, hl⟩ := utf8Lead_of_toNat (b := b) (w := 2) (by omega)
    rw [he, List.cons_append, List.cons_append, List.singleton_append,
      decodeUtf8.eq_4 _ _ _ _ _ _ hl, ← he]
    rw [consChar_encode c (by omega), Option.map_eq_bind]
  · obtain ⟨b, b₂, b₃, b₄, he, hb, hb₂, hb₃, hb₄⟩ := utf8EncodeChar_four c h
    obtain ⟨lo, hi, hl⟩ := utf8Lead_of_toNat (b := b) (w := 3) (by omega)
    rw [he, List.cons_append, List.cons_append, List.cons_append, List.singleton_append,
      decodeUtf8.eq_5 _ _ _ _ _ _ _ hl, ← he]
    rw [consChar_encode c (by omega), Option.map_eq_bind]

theorem decodeUtf8_flatMap (cs : List Char) :
    decodeUtf8 (cs.flatMap String.utf8EncodeChar) = some cs := by
  induction cs with
  | nil => rfl
  | cons c cs ih => rw [List.flatMap_cons, decodeUtf8_encode, ih]; rfl

/-- **Every text's bytes are UTF-8**, and `str::from_utf8` reads them back. -/
theorem fromUtf8_strBytes (s : String) : fromUtf8 (strBytes s) = some s := by
  rw [fromUtf8, strBytes, decodeUtf8_flatMap]
  rfl

example : fromUtf8 (strBytes "é€😀") = some "é€😀" := by decide

theorem fromUtf8_eq_some_iff {b : List UInt8} {s : String} : fromUtf8 b = some s ↔ strBytes s = b :=
  ⟨strBytes_of_fromUtf8, by rintro rfl; exact fromUtf8_strBytes s⟩

/-! ## The table and the decoder agree -/

theorem toNat_charOfNat {v : Nat} (h : v < 0xD800 ∨ 0xDFFF < v ∧ v < 0x110000) :
    (Char.ofNat v).toNat = v := by
  unfold Char.ofNat
  rw [dif_pos h]
  rfl

theorem uint8_le_iff {a b : UInt8} : a ≤ b ↔ a.toNat ≤ b.toNat := Iff.rfl

theorem isCont_iff {b : UInt8} : isCont b = true ↔ 0x80 ≤ b.toNat ∧ b.toNat ≤ 0xBF := by
  simp only [isCont, Bool.and_eq_true, decide_eq_true_eq, uint8_le_iff]
  rfl

/-- The table accepts every character's encoding. -/
theorem utf8Valid_encode (c : Char) (rest : List UInt8) :
    utf8Valid (String.utf8EncodeChar c ++ rest) = utf8Valid rest := by
  rcases toNat_ranges c with h | h | h | h
  · obtain ⟨b, he, hb⟩ := utf8EncodeChar_one c h
    obtain ⟨lo, hi, hl⟩ := utf8Lead_of_toNat (b := b) (w := 0) (by omega)
    rw [he, List.singleton_append, utf8Valid.eq_2 _ _ _ _ hl]
  · obtain ⟨b, b₂, he, hb, hb₂⟩ := utf8EncodeChar_two c h
    obtain ⟨lo, hi, hl⟩ := utf8Lead_of_toNat (b := b) (w := 1) (by omega)
    have := (utf8Lead_eq_some hl).2.1 rfl
    rw [he, List.cons_append, List.singleton_append, utf8Valid.eq_3 _ _ _ _ _ hl,
      show (decide (lo ≤ b₂) && decide (b₂ ≤ hi)) = true by
        simp only [Bool.and_eq_true, decide_eq_true_eq, uint8_le_iff]; omega, Bool.true_and]
  · obtain ⟨b, b₂, b₃, he, hb, hb₂, hb₃⟩ := utf8EncodeChar_three c ⟨h.1, h.2.1⟩
    obtain ⟨lo, hi, hl⟩ := utf8Lead_of_toNat (b := b) (w := 2) (by omega)
    have := (utf8Lead_eq_some hl).2.2.1 rfl
    rw [he, List.cons_append, List.cons_append, List.singleton_append,
      utf8Valid.eq_4 _ _ _ _ _ _ hl,
      show (decide (lo ≤ b₂) && decide (b₂ ≤ hi) && isCont b₃) = true by
        simp only [Bool.and_eq_true, decide_eq_true_eq, uint8_le_iff, isCont_iff]; omega,
      Bool.true_and]
  · obtain ⟨b, b₂, b₃, b₄, he, hb, hb₂, hb₃, hb₄⟩ := utf8EncodeChar_four c h
    obtain ⟨lo, hi, hl⟩ := utf8Lead_of_toNat (b := b) (w := 3) (by omega)
    have := (utf8Lead_eq_some hl).2.2.2.1 rfl
    rw [he, List.cons_append, List.cons_append, List.cons_append, List.singleton_append,
      utf8Valid.eq_5 _ _ _ _ _ _ _ hl,
      show (decide (lo ≤ b₂) && decide (b₂ ≤ hi) && isCont b₃ && isCont b₄) = true by
        simp only [Bool.and_eq_true, decide_eq_true_eq, uint8_le_iff, isCont_iff]; omega,
      Bool.true_and]

theorem utf8Valid_flatMap (cs : List Char) : utf8Valid (cs.flatMap String.utf8EncodeChar) = true := by
  induction cs with
  | nil => rfl
  | cons c cs ih => rw [List.flatMap_cons, utf8Valid_encode, ih]

/-! The character a well-formed sequence of bytes stands for: its code point
`v` is valid, and the bytes are those `utf8EncodeChar` writes for it. -/

theorem utf8EncodeChar_ofNat_one {v : Nat} {b : UInt8} (hv : v < 0x80) (hb : b.toNat = v) :
    String.utf8EncodeChar (Char.ofNat v) = [b] := by
  have hn := toNat_charOfNat (v := v) (by omega)
  obtain ⟨x, he, hx⟩ := utf8EncodeChar_one (Char.ofNat v) (by omega)
  rw [he, UInt8.toNat.inj (by omega : x.toNat = b.toNat)]

theorem utf8EncodeChar_ofNat_two {v : Nat} {b₁ b₂ : UInt8} (hv : 0x80 ≤ v ∧ v < 0x800)
    (hb₁ : b₁.toNat = v / 64 + 0xC0) (hb₂ : b₂.toNat = v % 64 + 0x80) :
    String.utf8EncodeChar (Char.ofNat v) = [b₁, b₂] := by
  have hn := toNat_charOfNat (v := v) (by omega)
  obtain ⟨x₁, x₂, he, hx₁, hx₂⟩ := utf8EncodeChar_two (Char.ofNat v) (by omega)
  rw [he, UInt8.toNat.inj (by omega : x₁.toNat = b₁.toNat),
    UInt8.toNat.inj (by omega : x₂.toNat = b₂.toNat)]

theorem utf8EncodeChar_ofNat_three {v : Nat} {b₁ b₂ b₃ : UInt8}
    (hv : 0x800 ≤ v ∧ v < 0x10000 ∧ (v < 0xD800 ∨ 0xDFFF < v))
    (hb₁ : b₁.toNat = v / 4096 + 0xE0) (hb₂ : b₂.toNat = v / 64 % 64 + 0x80)
    (hb₃ : b₃.toNat = v % 64 + 0x80) :
    String.utf8EncodeChar (Char.ofNat v) = [b₁, b₂, b₃] := by
  have hn := toNat_charOfNat (v := v) (by omega)
  obtain ⟨x₁, x₂, x₃, he, hx₁, hx₂, hx₃⟩ := utf8EncodeChar_three (Char.ofNat v) (by omega)
  rw [he, UInt8.toNat.inj (by omega : x₁.toNat = b₁.toNat),
    UInt8.toNat.inj (by omega : x₂.toNat = b₂.toNat), UInt8.toNat.inj (by omega : x₃.toNat = b₃.toNat)]

theorem utf8EncodeChar_ofNat_four {v : Nat} {b₁ b₂ b₃ b₄ : UInt8} (hv : 0x10000 ≤ v ∧ v < 0x110000)
    (hb₁ : b₁.toNat = v / 262144 + 0xF0) (hb₂ : b₂.toNat = v / 4096 % 64 + 0x80)
    (hb₃ : b₃.toNat = v / 64 % 64 + 0x80) (hb₄ : b₄.toNat = v % 64 + 0x80) :
    String.utf8EncodeChar (Char.ofNat v) = [b₁, b₂, b₃, b₄] := by
  have hn := toNat_charOfNat (v := v) (by omega)
  obtain ⟨x₁, x₂, x₃, x₄, he, hx₁, hx₂, hx₃, hx₄⟩ := utf8EncodeChar_four (Char.ofNat v) (by omega)
  rw [he, UInt8.toNat.inj (by omega : x₁.toNat = b₁.toNat),
    UInt8.toNat.inj (by omega : x₂.toNat = b₂.toNat), UInt8.toNat.inj (by omega : x₃.toNat = b₃.toNat),
    UInt8.toNat.inj (by omega : x₄.toNat = b₄.toNat)]

/-- Bytes the table accepts are the encoding of characters: each sequence is
that of the character its code point names. -/
theorem flatMap_of_utf8Valid {b : List UInt8} (h : utf8Valid b = true) :
    ∃ cs : List Char, cs.flatMap String.utf8EncodeChar = b := by
  induction b using utf8Valid.induct with
  | case1 => exact ⟨[], rfl⟩
  | case2 b _ _ s hl ih =>
    rw [utf8Valid.eq_2 _ _ _ _ hl] at h
    obtain ⟨cs, rfl⟩ := ih h
    refine ⟨Char.ofNat b.toNat :: cs, ?_⟩
    rw [List.flatMap_cons, utf8EncodeChar_ofNat_one ((utf8Lead_eq_some hl).1 rfl) rfl]
    rfl
  | case3 b _ _ c s hl ih =>
    rw [utf8Valid.eq_3 _ _ _ _ _ hl] at h
    simp only [Bool.and_eq_true, decide_eq_true_eq, uint8_le_iff] at h
    obtain ⟨⟨h₁, h₂⟩, hs⟩ := h
    obtain ⟨cs, rfl⟩ := ih hs
    have := (utf8Lead_eq_some hl).2.1 rfl
    refine ⟨Char.ofNat (b.toNat % 32 * 64 + c.toNat % 64) :: cs, ?_⟩
    rw [List.flatMap_cons, utf8EncodeChar_ofNat_two ?_ ?_ ?_]
    · rfl
    all_goals omega
  | case4 b _ _ c₁ c₂ s hl ih =>
    rw [utf8Valid.eq_4 _ _ _ _ _ _ hl] at h
    simp only [Bool.and_eq_true, decide_eq_true_eq, uint8_le_iff, isCont_iff] at h
    obtain ⟨⟨⟨h₁, h₂⟩, h₃⟩, hs⟩ := h
    obtain ⟨cs, rfl⟩ := ih hs
    have := (utf8Lead_eq_some hl).2.2.1 rfl
    refine ⟨Char.ofNat ((b.toNat % 16 * 64 + c₁.toNat % 64) * 64 + c₂.toNat % 64) :: cs, ?_⟩
    rw [List.flatMap_cons, utf8EncodeChar_ofNat_three ?_ ?_ ?_ ?_]
    · rfl
    all_goals omega
  | case5 b _ _ c₁ c₂ c₃ s hl ih =>
    rw [utf8Valid.eq_5 _ _ _ _ _ _ _ hl] at h
    simp only [Bool.and_eq_true, decide_eq_true_eq, uint8_le_iff, isCont_iff] at h
    obtain ⟨⟨⟨⟨h₁, h₂⟩, h₃⟩, h₄⟩, hs⟩ := h
    obtain ⟨cs, rfl⟩ := ih hs
    have := (utf8Lead_eq_some hl).2.2.2.1 rfl
    refine ⟨Char.ofNat (((b.toNat % 8 * 64 + c₁.toNat % 64) * 64 + c₂.toNat % 64) * 64 +
      c₃.toNat % 64) :: cs, ?_⟩
    rw [List.flatMap_cons, utf8EncodeChar_ofNat_four ?_ ?_ ?_ ?_ ?_]
    · rfl
    all_goals omega
  | case6 b s h0 h1 h2 h3 =>
    rw [utf8Valid.eq_6 _ _ h0 h1 h2 h3] at h
    cases h

/-- **The table of well-formed sequences is `str::from_utf8`'s check**: the
bytes pass it exactly when they are the encoding of a text. -/
theorem utf8Valid_eq_isSome (b : List UInt8) : utf8Valid b = (fromUtf8 b).isSome := by
  rcases hf : fromUtf8 b with _ | s
  · cases hv : utf8Valid b
    · rfl
    · obtain ⟨cs, rfl⟩ := flatMap_of_utf8Valid hv
      rw [show cs.flatMap String.utf8EncodeChar = strBytes (String.mk cs) from rfl,
        fromUtf8_strBytes] at hf
      cases hf
  · rw [← strBytes_of_fromUtf8 hf]
    exact utf8Valid_flatMap _

/-- An overlong `.` is refused by both. -/
example : utf8Valid [0xC0, 0xAE] = false ∧ fromUtf8 [0xC0, 0xAE] = none := by decide

end Lithos
