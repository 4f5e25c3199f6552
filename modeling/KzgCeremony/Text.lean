import Mathlib.Data.List.Basic
import Mathlib.Data.Nat.Digits
import Mathlib.Tactic.IntervalCases

/-!
# Rust strings, hex digits and decimal integers

A Rust `&str` is a sequence of Unicode scalar values stored as UTF-8. It is
modelled as `List Char`; byte lengths and byte-indexed slices are computed from
`Char.utf8Size`, and a slice off a character boundary, where Rust panics,
returns `none`. `str::split` on a character is `List.splitOn`, which keeps the
empty pieces exactly as the Rust iterator yields them. `hex::encode`,
`hex::decode` and the decimal `Display`/`FromStr` of `u64` work on the same
character lists. Error kinds of the two parsers are dropped: every caller in
the identity parser maps them to one error of its own. `dec_to_hex` of the Ethereum
login options composes `u64::from_str` with the lowercase hex format.
-/

namespace KzgCeremony.Text

/-- Results of fallible calls are compared as values. -/
instance decEqExcept {ε α : Type} [DecidableEq ε] [DecidableEq α] : DecidableEq (Except ε α)
  | .error x, .error y => if h : x = y then isTrue (h ▸ rfl) else isFalse fun e => by cases e; exact h rfl
  | .ok x, .ok y => if h : x = y then isTrue (h ▸ rfl) else isFalse fun e => by cases e; exact h rfl
  | .error _, .ok _ => isFalse fun e => by cases e
  | .ok _, .error _ => isFalse fun e => by cases e

/-! ### Byte lengths and slices -/

/-- Byte length of a string, as `str::len` reports it. -/
def byteLen (s : List Char) : Nat := (s.map Char.utf8Size).sum

@[simp] theorem byteLen_nil : byteLen [] = 0 := rfl

@[simp] theorem byteLen_cons (c : Char) (s : List Char) :
    byteLen (c :: s) = c.utf8Size + byteLen s := by
  simp [byteLen]

@[simp] theorem byteLen_append (s t : List Char) : byteLen (s ++ t) = byteLen s + byteLen t := by
  simp [byteLen]

/-- Split a string at a byte index, as `&s[..i]` and `&s[i..]` do. The result is
`none` exactly where Rust panics: past the end or inside a multi-byte character. -/
def splitAtByte : List Char → Nat → Option (List Char × List Char)
  | s, 0 => some ([], s)
  | [], _ + 1 => none
  | c :: s, i + 1 =>
    if c.utf8Size ≤ i + 1 then
      (splitAtByte s (i + 1 - c.utf8Size)).map fun p => (c :: p.1, p.2)
    else none

/-- Only the empty string has no bytes. -/
theorem byteLen_eq_zero {a : List Char} : byteLen a = 0 ↔ a = [] := by
  cases a with
  | nil => simp
  | cons c a => have := Char.utf8Size_pos c; simp; omega

/-- A byte slice succeeds exactly at the byte length of a prefix, and then cuts
the string into that prefix and the rest. -/
theorem splitAtByte_eq_some {s a b : List Char} {i : Nat} :
    splitAtByte s i = some (a, b) ↔ s = a ++ b ∧ byteLen a = i := by
  induction s, i using splitAtByte.induct generalizing a b with
  | case1 s =>
    simp only [splitAtByte, Option.some.injEq, Prod.mk.injEq]
    constructor
    · rintro ⟨rfl, rfl⟩
      simp
    · rintro ⟨rfl, h⟩
      obtain rfl := byteLen_eq_zero.1 h
      simp
  | case2 i => simp only [splitAtByte, reduceCtorEq, false_iff, not_and]; intro h; simp_all
  | case3 c s i h ih =>
    cases a with
    | nil => simp [splitAtByte, h]
    | cons d a =>
      simp only [splitAtByte, if_pos h, Option.map_eq_some', ih, Prod.exists, Prod.mk.injEq,
        List.cons_append, List.cons.injEq, byteLen_cons]
      constructor
      · rintro ⟨a', b', ⟨rfl, h'⟩, ⟨rfl, rfl⟩, rfl⟩
        exact ⟨⟨rfl, rfl⟩, by omega⟩
      · rintro ⟨⟨rfl, hs⟩, h'⟩
        exact ⟨a, b, ⟨hs, by omega⟩, ⟨rfl, rfl⟩, rfl⟩
  | case4 c s i h =>
    simp only [splitAtByte, if_neg h, reduceCtorEq, false_iff, not_and]
    cases a with
    | nil => simp
    | cons d a =>
      simp only [List.cons_append, List.cons.injEq, byteLen_cons]
      rintro ⟨rfl, -⟩
      omega

/-- Slicing off an all-ASCII prefix of the right byte length never panics. -/
theorem splitAtByte_append {a b : List Char} :
    splitAtByte (a ++ b) (byteLen a) = some (a, b) :=
  splitAtByte_eq_some.2 ⟨rfl, rfl⟩

/-- A byte slice panics exactly when no prefix of the string has that byte length. -/
theorem splitAtByte_eq_none_iff {s : List Char} {i : Nat} :
    splitAtByte s i = none ↔ ∀ k, byteLen (s.take k) ≠ i := by
  constructor
  · intro h k hk
    exact Option.noConfusion
      (h.symm.trans (splitAtByte_eq_some.2 ⟨(List.take_append_drop k s).symm, hk⟩))
  · intro h
    rcases hs : splitAtByte s i with _ | ⟨a, b⟩
    · rfl
    · obtain ⟨rfl, ha⟩ := splitAtByte_eq_some.1 hs
      exact absurd (by simpa using ha) (h a.length)

/-- `str::as_bytes`: the UTF-8 encoding of a string. -/
def utf8Bytes (s : List Char) : List UInt8 := s.flatMap String.utf8EncodeChar

/-! ### Characters by code point -/

theorem char_le_iff {a b : Char} : a ≤ b ↔ a.toNat ≤ b.toNat := by
  simp [Char.le_def, UInt32.le_def, BitVec.le_def, Char.toNat, UInt32.toNat]

theorem char_eq_of_toNat_eq {a b : Char} (h : a.toNat = b.toNat) : a = b := by
  rw [← Char.ofNat_toNat a, h, Char.ofNat_toNat]

theorem toNat_ofNat_of_lt {n : Nat} (h : n < 0xd800) : (Char.ofNat n).toNat = n := by
  simp [Char.ofNat, Nat.isValidChar, h, Char.ofNatAux, Char.toNat, UInt32.toNat]

/-- An ASCII character is one byte of UTF-8. -/
theorem utf8Size_of_toNat_lt {c : Char} (h : c.toNat < 128) : c.utf8Size = 1 := by
  have h' : c.val.toBitVec.toNat < 128 := h
  simp [Char.utf8Size, UInt32.le_def, BitVec.le_def]
  omega

/-- `to_lowercase` on ASCII, as `Char.toLower` computes it: `A`–`Z` move up by 32. -/
theorem toNat_toLower (c : Char) :
    c.toLower.toNat = if 65 ≤ c.toNat ∧ c.toNat ≤ 90 then c.toNat + 32 else c.toNat := by
  dsimp only [Char.toLower]
  split_ifs with h
  · exact toNat_ofNat_of_lt (by omega)
  · rfl

theorem isDigit_iff {c : Char} : c.isDigit = true ↔ 48 ≤ c.toNat ∧ c.toNat ≤ 57 := by
  simp [Char.isDigit, UInt32.le_def, BitVec.le_def, Char.toNat, UInt32.toNat]

theorem toNat_digitChar {d : Nat} (h : d < 16) :
    (Nat.digitChar d).toNat = if d < 10 then d + 48 else d + 87 := by
  interval_cases d <;> rfl

/-! ### Hex digits -/

/-- `hex::encode`: two lowercase digits per byte, high half first. -/
def hexEncode (bytes : List UInt8) : List Char :=
  bytes.flatMap fun b => [Nat.digitChar (b.toNat / 16), Nat.digitChar (b.toNat % 16)]

/-- Value of one digit as `hex::decode` reads it, in either case. -/
def hexVal (c : Char) : Option Nat :=
  if '0' ≤ c ∧ c ≤ '9' then some (c.toNat - '0'.toNat)
  else if 'a' ≤ c ∧ c ≤ 'f' then some (c.toNat - 'a'.toNat + 10)
  else if 'A' ≤ c ∧ c ≤ 'F' then some (c.toNat - 'A'.toNat + 10)
  else none

/-- `hex::decode`: an even number of digits, two to a byte. The crate reads bytes;
a multi-byte character holds no digit byte, so reading characters accepts the same
strings and gives the same bytes. -/
def hexDecode : List Char → Option (List UInt8)
  | [] => some []
  | [_] => none
  | hi :: lo :: rest => do
    let h ← hexVal hi
    let l ← hexVal lo
    let tail ← hexDecode rest
    pure (UInt8.ofNat (16 * h + l) :: tail)

/-- `hexVal` by code point. -/
theorem hexVal_eq (c : Char) : hexVal c =
    if 48 ≤ c.toNat ∧ c.toNat ≤ 57 then some (c.toNat - 48)
    else if 97 ≤ c.toNat ∧ c.toNat ≤ 102 then some (c.toNat - 97 + 10)
    else if 65 ≤ c.toNat ∧ c.toNat ≤ 70 then some (c.toNat - 65 + 10)
    else none := by
  simp only [hexVal, char_le_iff, show '0'.toNat = 48 from rfl, show '9'.toNat = 57 from rfl,
    show 'a'.toNat = 97 from rfl, show 'f'.toNat = 102 from rfl, show 'A'.toNat = 65 from rfl,
    show 'F'.toNat = 70 from rfl]

/-- Lowercasing a character changes nothing `hex::decode` reads. -/
theorem hexVal_toLower (c : Char) : hexVal c.toLower = hexVal c := by
  by_cases hu : 65 ≤ c.toNat ∧ c.toNat ≤ 90
  · -- an uppercase letter reads as its lowercase letter: `A`–`F` as `a`–`f`, the rest as nothing
    have hd : ¬(48 ≤ c.toNat ∧ c.toNat ≤ 57) ∧ ¬(48 ≤ c.toNat + 32 ∧ c.toNat + 32 ≤ 57) ∧
        ¬(97 ≤ c.toNat ∧ c.toNat ≤ 102) ∧ ¬(65 ≤ c.toNat + 32 ∧ c.toNat + 32 ≤ 70) := by omega
    rw [hexVal_eq, hexVal_eq c, toNat_toLower, if_pos hu, if_neg hd.1, if_neg hd.2.1,
      if_neg hd.2.2.1, if_neg hd.2.2.2]
    by_cases hA : c.toNat ≤ 70
    · rw [if_pos (by omega), if_pos (by omega), Option.some.injEq]
      omega
    · rw [if_neg (by omega), if_neg (by omega)]
  · rw [show c.toLower = c from if_neg hu]

/-- A digit of either case is the lowercase digit of its value. -/
theorem digitChar_of_hexVal {c : Char} {d : Nat} (h : hexVal c = some d) :
    d < 16 ∧ Nat.digitChar d = c.toLower := by
  rw [hexVal_eq] at h
  have key : d < 16 ∧ (if d < 10 then d + 48 else d + 87) =
      if 65 ≤ c.toNat ∧ c.toNat ≤ 90 then c.toNat + 32 else c.toNat := by
    split_ifs at h <;> cases h <;> split_ifs <;> omega
  exact ⟨key.1, char_eq_of_toNat_eq (by rw [toNat_digitChar key.1, toNat_toLower, key.2])⟩

/-- A hex digit is one byte of UTF-8. -/
theorem utf8Size_of_hexVal {c : Char} {d : Nat} (h : hexVal c = some d) : c.utf8Size = 1 := by
  rw [hexVal_eq] at h
  exact utf8Size_of_toNat_lt (by split_ifs at h <;> omega)

/-- Each of the sixteen lowercase digits reads back as its own value. -/
theorem hexVal_digitChar {d : Nat} (h : d < 16) : hexVal (Nat.digitChar d) = some d := by
  interval_cases d <;> rfl

@[simp] theorem hexEncode_nil : hexEncode [] = [] := rfl

@[simp] theorem hexEncode_cons (b : UInt8) (bs : List UInt8) :
    hexEncode (b :: bs) =
      Nat.digitChar (b.toNat / 16) :: Nat.digitChar (b.toNat % 16) :: hexEncode bs := rfl

/-- A byte is rebuilt from its two hex digits. -/
theorem ofNat_hexDigits (b : UInt8) : UInt8.ofNat (16 * (b.toNat / 16) + b.toNat % 16) = b := by
  rw [Nat.div_add_mod]
  exact UInt8.toNat.inj (UInt8.toNat_ofNat_of_lt b.toNat_lt_size)

/-- `hex::decode` reads back what `hex::encode` wrote. -/
theorem hexDecode_hexEncode (bs : List UInt8) : hexDecode (hexEncode bs) = some bs := by
  induction bs with
  | nil => rfl
  | cons b bs ih =>
    have hb : b.toNat < 256 := b.toNat_lt_size
    rw [hexEncode_cons, hexDecode, hexVal_digitChar (show b.toNat / 16 < 16 by omega),
      hexVal_digitChar (show b.toNat % 16 < 16 by omega), ih]
    simp [ofNat_hexDigits]

/-- `hex::decode` reads a string as it reads its lowercase form. -/
theorem hexDecode_map_toLower (s : List Char) : hexDecode (s.map Char.toLower) = hexDecode s := by
  induction s using hexDecode.induct with
  | case1 => rfl
  | case2 => rfl
  | case3 hi lo rest ih => simp only [List.map_cons, hexDecode, hexVal_toLower, ih]

/-- What `hex::decode` accepted, `hex::encode` writes back in lowercase. -/
theorem hexEncode_hexDecode {s : List Char} {bs : List UInt8} (h : hexDecode s = some bs) :
    hexEncode bs = s.map Char.toLower := by
  induction s using hexDecode.induct generalizing bs with
  | case1 => cases h; rfl
  | case2 => cases h
  | case3 hi lo rest ih =>
    simp only [hexDecode, Option.bind_eq_bind, Option.bind_eq_some, Option.pure_def,
      Option.some.injEq] at h
    obtain ⟨dh, hh, dl, hl, tail, ht, rfl⟩ := h
    obtain ⟨hdh, eh⟩ := digitChar_of_hexVal hh
    obtain ⟨hdl, el⟩ := digitChar_of_hexVal hl
    have hbyte : (UInt8.ofNat (16 * dh + dl)).toNat = 16 * dh + dl :=
      UInt8.toNat_ofNat_of_lt (show 16 * dh + dl < 256 by omega)
    rw [hexEncode_cons, hbyte, ih ht, show (16 * dh + dl) / 16 = dh by omega,
      show (16 * dh + dl) % 16 = dl by omega, eh, el]
    rfl

/-- The digits `hex::decode` accepts are one byte each. -/
theorem byteLen_of_hexDecode {s : List Char} {bs : List UInt8} (h : hexDecode s = some bs) :
    byteLen s = 2 * bs.length := by
  induction s using hexDecode.induct generalizing bs with
  | case1 => cases h; rfl
  | case2 => cases h
  | case3 hi lo rest ih =>
    simp only [hexDecode, Option.bind_eq_bind, Option.bind_eq_some, Option.pure_def,
      Option.some.injEq] at h
    obtain ⟨dh, hh, dl, hl, tail, ht, rfl⟩ := h
    simp only [byteLen_cons, utf8Size_of_hexVal hh, utf8Size_of_hexVal hl, ih ht, List.length_cons]
    omega

/-! ### Decimal `u64` -/

/-- `Display` of a `u64`: its decimal digits, with no sign and no leading zero. -/
def displayU64 (n : UInt64) : List Char := Nat.toDigits 10 n.toNat

/-- The digit loop of `u64::from_str`: every character must be a decimal digit, and
`checked_mul(10)` followed by `checked_add(digit)` must stay below `2^64`. -/
def accumulateDigits : List Char → Nat → Option Nat
  | [], acc => some acc
  | c :: cs, acc =>
    if c.isDigit ∧ acc * 10 + (c.toNat - '0'.toNat) < UInt64.size then
      accumulateDigits cs (acc * 10 + (c.toNat - '0'.toNat))
    else none

/-- `u64::from_str`: an optional leading `+`, then the digit loop. A lone sign fails,
and `-` is not stripped for an unsigned type, so it fails as a digit. -/
def parseU64 : List Char → Option UInt64
  | [] => none
  | ['+'] => none
  | ['-'] => none
  | '+' :: digits => (accumulateDigits digits 0).map UInt64.ofNat
  | digits => (accumulateDigits digits 0).map UInt64.ofNat

theorem accumulateDigits_append (xs ys : List Char) (acc : Nat) :
    accumulateDigits (xs ++ ys) acc = (accumulateDigits xs acc).bind (accumulateDigits ys) := by
  induction xs generalizing acc with
  | nil => rfl
  | cons c xs ih => simp only [List.cons_append, accumulateDigits]; split <;> simp [ih]

/-- The ten decimal digits are digits, and read back as their own values. -/
theorem digitChar_decimal {d : Nat} (h : d < 10) :
    (Nat.digitChar d).isDigit = true ∧ (Nat.digitChar d).toNat - '0'.toNat = d := by
  interval_cases d <;> decide

theorem toDigitsCore_append (b f n : Nat) (ds : List Char) :
    Nat.toDigitsCore b f n ds = Nat.toDigitsCore b f n [] ++ ds := by
  induction f generalizing n ds with
  | zero => rfl
  | succ f ih =>
    simp only [Nat.toDigitsCore]
    split
    · rfl
    · rw [ih _ (_ :: ds), ih _ [_]]
      simp

/-- Any fuel above the number itself gives the same digits. -/
theorem toDigitsCore_fuel {b : Nat} (hb : 1 < b) (f g n : Nat) (hf : n < f) (hg : n < g) :
    Nat.toDigitsCore b f n [] = Nat.toDigitsCore b g n [] := by
  induction f generalizing n g with
  | zero => omega
  | succ f ih =>
    obtain ⟨g, rfl⟩ : ∃ g', g = g' + 1 := ⟨g - 1, by omega⟩
    simp only [Nat.toDigitsCore]
    split
    · rfl
    · rename_i hq
      have hlt : n / b < n := Nat.div_lt_self (Nat.pos_of_ne_zero fun h => hq (by simp [h])) hb
      rw [toDigitsCore_append b f, toDigitsCore_append b g, ih g (n / b) (by omega) (by omega)]

theorem toDigits_of_lt {b n : Nat} (h : n < b) : Nat.toDigits b n = [Nat.digitChar n] := by
  simp [Nat.toDigits, Nat.toDigitsCore, Nat.div_eq_of_lt h, Nat.mod_eq_of_lt h]

/-- A number of two digits or more prints as its quotient by the base, then its last digit. -/
theorem toDigits_of_le {b n : Nat} (hb : 1 < b) (h : b ≤ n) :
    Nat.toDigits b n = Nat.toDigits b (n / b) ++ [Nat.digitChar (n % b)] := by
  have hq : n / b ≠ 0 := (Nat.div_pos h (by omega)).ne'
  have hlt : n / b < n := Nat.div_lt_self (by omega) hb
  rw [Nat.toDigits, Nat.toDigitsCore, if_neg hq, toDigitsCore_append,
    toDigitsCore_fuel hb n (n / b + 1) _ (by omega) (by omega)]
  rfl

/-- One more digit multiplies the value read so far by ten and adds the digit. -/
theorem accumulateDigits_digitChar {d : Nat} (h : d < 10) (acc : Nat) :
    accumulateDigits [Nat.digitChar d] acc =
      if acc * 10 + d < UInt64.size then some (acc * 10 + d) else none := by
  obtain ⟨h1, h2⟩ := digitChar_decimal h
  rw [accumulateDigits, h2]
  split_ifs <;> simp_all [accumulateDigits]

theorem accumulateDigits_toDigits {n : Nat} (h : n < UInt64.size) :
    accumulateDigits (Nat.toDigits 10 n) 0 = some n := by
  induction n using Nat.strong_induction_on with
  | _ n ih =>
    rcases Nat.lt_or_ge n 10 with hn | hn
    · rw [toDigits_of_lt hn, accumulateDigits_digitChar hn, if_pos (by omega)]
      simp
    · rw [toDigits_of_le (by norm_num) hn, accumulateDigits_append, ih (n / 10) (by omega) (by omega),
        Option.some_bind, accumulateDigits_digitChar (Nat.mod_lt n (by norm_num)),
        Nat.div_add_mod', if_pos h]

/-- The first character printed for a number is a digit, never a sign. -/
theorem toDigits_head (n : Nat) : ∃ c cs, Nat.toDigits 10 n = c :: cs ∧ c.isDigit = true := by
  induction n using Nat.strong_induction_on with
  | _ n ih =>
    rcases Nat.lt_or_ge n 10 with hn | hn
    · exact ⟨_, _, toDigits_of_lt hn, (digitChar_decimal hn).1⟩
    · obtain ⟨c, cs, he, hc⟩ := ih (n / 10) (by omega)
      exact ⟨c, cs ++ _, by rw [toDigits_of_le (by norm_num) hn, he]; rfl, hc⟩

/-- Every character printed for a number is a decimal digit. -/
theorem isDigit_of_mem_toDigits {n : Nat} {c : Char} (h : c ∈ Nat.toDigits 10 n) :
    c.isDigit = true := by
  induction n using Nat.strong_induction_on with
  | _ n ih =>
    rcases Nat.lt_or_ge n 10 with hn | hn
    · rw [toDigits_of_lt hn, List.mem_singleton] at h
      exact h ▸ (digitChar_decimal hn).1
    · rw [toDigits_of_le (by norm_num) hn, List.mem_append, List.mem_singleton] at h
      rcases h with h | rfl
      · exact ih (n / 10) (by omega) h
      · exact (digitChar_decimal (Nat.mod_lt n (by norm_num))).1

/-- A string starting with a digit takes the unsigned branch of `u64::from_str`. -/
theorem parseU64_of_isDigit {c : Char} (hc : c.isDigit = true) (cs : List Char) :
    parseU64 (c :: cs) = (accumulateDigits (c :: cs) 0).map UInt64.ofNat := by
  unfold parseU64
  split <;> simp_all [Char.isDigit]

/-- `u64::from_str` reads back what `Display` wrote. -/
theorem parseU64_displayU64 (n : UInt64) : parseU64 (displayU64 n) = some n := by
  obtain ⟨c, cs, he, hc⟩ := toDigits_head n.toNat
  rw [displayU64, he, parseU64_of_isDigit hc, ← he, accumulateDigits_toDigits n.toNat_lt_size]
  exact congrArg some (UInt64.toNat.inj (UInt64.toNat_ofNat_of_lt n.toNat_lt_size))

/-! ### What `u64::from_str` accepts -/

/-- A decimal digit is the digit character of its value. -/
theorem digitChar_of_isDigit {c : Char} (h : c.isDigit = true) :
    c.toNat - '0'.toNat < 10 ∧ Nat.digitChar (c.toNat - '0'.toNat) = c := by
  rw [isDigit_iff] at h
  have hlt : c.toNat - '0'.toNat < 10 := by simp only [show '0'.toNat = 48 from rfl]; omega
  refine ⟨hlt, char_eq_of_toNat_eq ?_⟩
  rw [toNat_digitChar (by omega), if_pos hlt]
  simp only [show '0'.toNat = 48 from rfl]
  omega

/-- The digit loop returns no more than `u64` holds. -/
theorem accumulateDigits_lt {ds : List Char} {acc n : Nat} (hacc : acc < UInt64.size)
    (h : accumulateDigits ds acc = some n) : n < UInt64.size := by
  induction ds generalizing acc with
  | nil => cases h; exact hacc
  | cons c cs ih =>
    simp only [accumulateDigits] at h
    split_ifs at h with hc
    exact ih hc.2 h

/-- From a positive value, the digit loop appends the digits it reads to the value's
decimal form. -/
theorem toDigits_accumulateDigits {ds : List Char} {acc n : Nat} (hacc : 0 < acc)
    (h : accumulateDigits ds acc = some n) : Nat.toDigits 10 n = Nat.toDigits 10 acc ++ ds := by
  induction ds generalizing acc with
  | nil => cases h; simp
  | cons c cs ih =>
    simp only [accumulateDigits] at h
    split_ifs at h with hc
    obtain ⟨hd, hdc⟩ := digitChar_of_isDigit hc.1
    rw [ih (by omega) h, toDigits_of_le (by norm_num) (by omega),
      show (acc * 10 + (c.toNat - '0'.toNat)) / 10 = acc by omega,
      show (acc * 10 + (c.toNat - '0'.toNat)) % 10 = c.toNat - '0'.toNat by omega, hdc]
    simp

/-- Leading zeros read from zero leave zero. -/
theorem accumulateDigits_zeros {zeros : List Char} (hz : ∀ c ∈ zeros, c = '0') (ds : List Char) :
    accumulateDigits (zeros ++ ds) 0 = accumulateDigits ds 0 := by
  induction zeros with
  | nil => rfl
  | cons z zs ih =>
    obtain rfl := hz z (List.mem_cons_self z zs)
    rw [List.cons_append, accumulateDigits, if_pos (by decide),
      show 0 * 10 + ('0'.toNat - '0'.toNat) = 0 from rfl, ih fun c hc => hz c (List.mem_cons_of_mem _ hc)]

/-- A nonempty string that the digit loop reads from zero is leading zeros followed by the
decimal form of the value. -/
theorem eq_zeros_append_toDigits {ds : List Char} {n : Nat} (hne : ds ≠ [])
    (h : accumulateDigits ds 0 = some n) :
    ∃ zeros, (∀ c ∈ zeros, c = '0') ∧ ds = zeros ++ Nat.toDigits 10 n := by
  induction ds with
  | nil => exact absurd rfl hne
  | cons c cs ih =>
    simp only [accumulateDigits] at h
    split_ifs at h with hc
    obtain ⟨hd, hdc⟩ := digitChar_of_isDigit hc.1
    by_cases h0 : c.toNat - '0'.toNat = 0
    · -- a leading zero
      rw [h0, Nat.zero_mul, Nat.zero_add] at h
      have hc0 : c = '0' := by rw [← hdc, h0]; rfl
      subst hc0
      by_cases hcs : cs = []
      · subst hcs
        cases h
        exact ⟨[], by simp, rfl⟩
      · obtain ⟨zeros, hz, rfl⟩ := ih hcs h
        exact ⟨'0' :: zeros, by simpa using hz, rfl⟩
    · -- the first significant digit
      rw [Nat.zero_mul, Nat.zero_add] at h
      refine ⟨[], by simp, ?_⟩
      rw [List.nil_append, toDigits_accumulateDigits (Nat.pos_of_ne_zero h0) h, toDigits_of_lt hd, hdc]
      rfl

theorem parseU64_plus {x : List Char} (hx : x ≠ []) :
    parseU64 ('+' :: x) = (accumulateDigits x 0).map UInt64.ofNat := by
  cases x with
  | nil => exact absurd rfl hx
  | cons c cs => rfl

/-- `u64::from_str` accepts exactly the decimal form of a number, after an optional `+` and
any number of leading zeros. -/
theorem parseU64_eq_some_iff {s : List Char} {n : UInt64} :
    parseU64 s = some n ↔ ∃ sign zeros, (sign = [] ∨ sign = ['+']) ∧ (∀ c ∈ zeros, c = '0') ∧
      s = sign ++ zeros ++ displayU64 n := by
  have hread : ∀ {ds : List Char}, ds ≠ [] → (accumulateDigits ds 0).map UInt64.ofNat = some n →
      ∃ zeros, (∀ c ∈ zeros, c = '0') ∧ ds = zeros ++ displayU64 n := by
    intro ds hne h
    obtain ⟨m, hm, rfl⟩ := Option.map_eq_some'.1 h
    obtain ⟨zeros, hz, rfl⟩ := eq_zeros_append_toDigits hne hm
    refine ⟨zeros, hz, ?_⟩
    rw [displayU64, UInt64.toNat_ofNat_of_lt (accumulateDigits_lt (by decide) hm)]
  constructor
  · intro h
    unfold parseU64 at h
    split at h
    · cases h
    · cases h
    · cases h
    · next digits hne =>
      obtain ⟨zeros, hz, rfl⟩ := hread hne h
      exact ⟨['+'], zeros, .inr rfl, hz, rfl⟩
    · next hne _ _ _ =>
      obtain ⟨zeros, hz, rfl⟩ := hread hne h
      exact ⟨[], zeros, .inl rfl, hz, rfl⟩
  · rintro ⟨sign, zeros, hsign, hz, rfl⟩
    have hacc : (accumulateDigits (zeros ++ displayU64 n) 0).map UInt64.ofNat = some n := by
      rw [accumulateDigits_zeros hz, displayU64, accumulateDigits_toDigits n.toNat_lt_size,
        Option.map_some']
      exact congrArg some (UInt64.toNat.inj (UInt64.toNat_ofNat_of_lt n.toNat_lt_size))
    obtain ⟨c, cs, he, hc⟩ := toDigits_head n.toNat
    rcases hsign with rfl | rfl
    · rw [List.nil_append]
      cases zeros with
      | nil => rwa [List.nil_append, displayU64, he, parseU64_of_isDigit hc, ← he]
      | cons z zs =>
        obtain rfl := hz z (List.mem_cons_self z zs)
        rwa [List.cons_append, parseU64_of_isDigit (by decide), ← List.cons_append]
    · rwa [List.singleton_append, List.cons_append, parseU64_plus (by simp [displayU64, he])]

/-! ### `dec_to_hex` -/

/-- `dec_to_hex` of `oauth/ethereum.rs`, which turns the decimal block height of the options
into the hex quantity the node is asked about: `u64::from_str`, then `format!("0x{:x}")`,
lowercase digits with no leading zero; `none` is the `ParseIntError`. -/
def decToHex (input : List Char) : Option (List Char) :=
  (parseU64 input).map fun n => '0' :: 'x' :: Nat.toDigits 16 n.toNat

end KzgCeremony.Text
