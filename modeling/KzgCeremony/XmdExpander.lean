import KzgCeremony.Text
import Mathlib.Algebra.Order.Floor.Div

/-!
# `expand_message_xmd`

`ExpanderXmd::expand` reuses one hasher for every block: each `finalize_reset`
returns the digest of everything fed since the previous one and empties the
hasher. The hash function is abstract, with a fixed output size `b_len`. The
loop `for i in 2..=ell` keeps the previous block `bi` and the bytes so far;
by induction it produces `b_1 ‖ … ‖ b_ell` of RFC 9380, written out below as
a second, recursive definition. The two assertions, the `usize` arithmetic
and the final slice are the places where `expand` can panic; it completes
exactly when `n < 2^16` and `⌈n / b_len⌉ ≤ 255`, and then returns the first
`n` bytes of the RFC's output.
-/

namespace KzgCeremony.XmdExpander

open Text

/-- The hash function of a `DynDigest`: a fixed output size and the digest of a byte
string, every digest of that size. -/
structure Digest where
  /-- `output_size()`, the digest length `b_len`. -/
  outputSize : Nat
  /-- The digest of a byte string. -/
  hash : List UInt8 → List UInt8
  /-- Every digest has the output size. -/
  length_hash : ∀ m, (hash m).length = outputSize

/-- A `DynDigest` hasher: the bytes given to `update` since the last `finalize_reset`. -/
structure Hasher where
  /-- The bytes absorbed since the last reset. -/
  pending : List UInt8

/-- `update`: absorb more bytes. -/
def Hasher.update (h : Hasher) (bytes : List UInt8) : Hasher := ⟨h.pending ++ bytes⟩

/-- `finalize_reset`: the digest of the pending bytes, and the hasher emptied. -/
def Hasher.finalizeReset (D : Digest) (h : Hasher) : List UInt8 × Hasher :=
  (D.hash h.pending, ⟨[]⟩)

@[simp] theorem Hasher.pending_update (h : Hasher) (bytes : List UInt8) :
    (h.update bytes).pending = h.pending ++ bytes := rfl

/-- Feeding bytes one at a time absorbs them all. -/
theorem Hasher.foldl_update (bytes : List UInt8) (h : Hasher) :
    bytes.foldl (fun h byte => h.update [byte]) h = h.update bytes := by
  induction bytes generalizing h with
  | nil => simp [Hasher.update]
  | cons b bytes ih =>
    rw [List.foldl_cons, ih]
    simp [Hasher.update]

/-- `MAX_DST_LENGTH`. -/
def maxDstLength : Nat := 255

/-- `LONG_DST_PREFIX`, the bytes of `H2C-OVERSIZE-DST-`. -/
def longDstPrefix : List UInt8 := utf8Bytes "H2C-OVERSIZE-DST-".toList

/-- `ExpanderXmd`: a hasher, the domain separation tag and the hash's block size. -/
structure ExpanderXmd where
  /-- The hasher every call clones. -/
  hasher : Hasher
  /-- The domain separation tag. -/
  dst : List UInt8
  /-- The block size of the hash, the length of `Z_pad`. -/
  blockSize : Nat

/-- `construct_dst_prime`: the tag, hashed first when longer than 255 bytes, followed by
its length as one byte. -/
def ExpanderXmd.constructDstPrime (D : Digest) (x : ExpanderXmd) : List UInt8 :=
  let dstPrime :=
    if x.dst.length > maxDstLength then
      (((x.hasher.update longDstPrefix).update x.dst).finalizeReset D).1
    else x.dst
  dstPrime ++ [UInt8.ofNat dstPrime.length]

/-- `b0 XOR bi`, byte by byte over the pairs `zip` yields. -/
def xorBytes (a b : List UInt8) : List UInt8 := List.zipWith (· ^^^ ·) a b

/-- `k` rounds of the loop `for i in 2..=ell`, from round `i`: feed `b0 XOR bi` one byte at
a time, then `i as u8` and `DST'`, take the new `bi` and append it. -/
def expandLoop (D : Digest) (b0 dstPrime : List UInt8) :
    Nat → Nat → Hasher → List UInt8 → List UInt8 → Hasher × List UInt8 × List UInt8
  | 0, _, hasher, bi, uniformBytes => (hasher, bi, uniformBytes)
  | k + 1, i, hasher, bi, uniformBytes =>
    let hasher := (xorBytes b0 bi).foldl (fun h byte => h.update [byte]) hasher
    let hasher := (hasher.update [UInt8.ofNat i]).update dstPrime
    let next := hasher.finalizeReset D
    expandLoop D b0 dstPrime k (i + 1) next.2 next.1 (uniformBytes ++ next.1)

/-- `ExpanderXmd::expand`; `none` is a panic. The two assertions panic, and so do the
`usize` arithmetic on an output size of 0 and the slice `uniform_bytes[0..n]` past its
end. `n + (b_len - 1)` is checked for overflow as in a debug build; a release build
wraps there, and its `n < 2^16` assertion panics instead. -/
def ExpanderXmd.expand (D : Digest) (x : ExpanderXmd) (msg : List UInt8) (n : Nat) :
    Option (List UInt8) :=
  let bLen := D.outputSize
  if bLen = 0 ∨ 2 ^ 64 ≤ n + (bLen - 1) then none else
  let ell := (n + (bLen - 1)) / bLen
  if 255 < ell then none else
  let dstPrime := x.constructDstPrime D
  let zPad := List.replicate x.blockSize (0 : UInt8)
  if 2 ^ 16 ≤ n then none else
  let libStr := [UInt8.ofNat (n / 256), UInt8.ofNat (n % 256)]
  let first := ((((x.hasher.update zPad).update msg).update libStr).update [0]).update dstPrime
  let b0 := first.finalizeReset D
  let b1 := (((b0.2.update b0.1).update [1]).update dstPrime).finalizeReset D
  let uniformBytes := (expandLoop D b0.1 dstPrime (ell - 1) 2 b1.2 b1.1 b1.1).2.2
  if n ≤ uniformBytes.length then some (uniformBytes.take n) else none

/-! ### RFC 9380 -/

/-- RFC 9380 `DST_prime`: the tag, replaced by `H("H2C-OVERSIZE-DST-" ‖ DST)` when longer
than 255 bytes, followed by `I2OSP(len, 1)`. -/
def rfcDstPrime (D : Digest) (dst : List UInt8) : List UInt8 :=
  let dst' := if 255 < dst.length then D.hash (longDstPrefix ++ dst) else dst
  dst' ++ [UInt8.ofNat dst'.length]

/-- RFC 9380 `b_i`: `b_1 = H(b_0 ‖ 1 ‖ DST_prime)` and
`b_i = H((b_0 XOR b_{i-1}) ‖ I2OSP(i, 1) ‖ DST_prime)`. -/
def rfcB (D : Digest) (b0 dstPrime : List UInt8) : Nat → List UInt8
  | 0 => b0
  | 1 => D.hash (b0 ++ [1] ++ dstPrime)
  | i + 2 => D.hash (xorBytes b0 (rfcB D b0 dstPrime (i + 1)) ++ [UInt8.ofNat (i + 2)] ++ dstPrime)

/-- RFC 9380 `expand_message_xmd(msg, DST, n)`: the first `n` bytes of `b_1 ‖ … ‖ b_ell`
with `ell = ⌈n / b_len⌉` and
`b_0 = H(Z_pad ‖ msg ‖ I2OSP(n, 2) ‖ 0 ‖ DST_prime)`. -/
def expandMessageXmd (D : Digest) (dst msg : List UInt8) (blockSize n : Nat) : List UInt8 :=
  let dstPrime := rfcDstPrime D dst
  let b0 := D.hash (List.replicate blockSize 0 ++ msg ++
    [UInt8.ofNat (n / 256), UInt8.ofNat (n % 256)] ++ [0] ++ dstPrime)
  ((List.range (n ⌈/⌉ D.outputSize)).flatMap fun j => rfcB D b0 dstPrime (j + 1)).take n

/-- Every block past `b_0` has the digest's length. -/
theorem length_rfcB (D : Digest) (b0 dstPrime : List UInt8) {i : Nat} (hi : 0 < i) :
    (rfcB D b0 dstPrime i).length = D.outputSize := by
  match i, hi with
  | 1, _ => simp [rfcB, D.length_hash]
  | i + 2, _ => simp [rfcB, D.length_hash]

/-- `b_1 ‖ … ‖ b_m` is `m` digests long. -/
theorem length_flatMap_rfcB (D : Digest) (b0 dstPrime : List UInt8) (m : Nat) :
    ((List.range m).flatMap fun j => rfcB D b0 dstPrime (j + 1)).length = m * D.outputSize := by
  induction m with
  | zero => simp
  | succ m ih =>
    rw [List.range_succ, List.flatMap_append, List.length_append, ih]
    simp [length_rfcB D b0 dstPrime (Nat.succ_pos m), Nat.succ_mul]

/-! ### The loop computes the RFC's blocks -/

/-- The loop invariant: entering round `i + 2` with an empty hasher and `bi = b_{i+1}`,
`k` rounds append `b_{i+2} ‖ … ‖ b_{i+k+1}`. -/
theorem expandLoop_eq (D : Digest) (b0 dstPrime : List UInt8) (k i : Nat) (acc : List UInt8) :
    (expandLoop D b0 dstPrime k (i + 2) ⟨[]⟩ (rfcB D b0 dstPrime (i + 1)) acc).2.2 =
      acc ++ (List.range k).flatMap fun j => rfcB D b0 dstPrime (j + (i + 2)) := by
  induction k generalizing i acc with
  | zero => simp [expandLoop]
  | succ k ih =>
    have hb : ((((⟨[]⟩ : Hasher).update (xorBytes b0 (rfcB D b0 dstPrime (i + 1)))).update
        [UInt8.ofNat (i + 2)]).update dstPrime).finalizeReset D =
        (rfcB D b0 dstPrime (i + 2), ⟨[]⟩) := by
      simp [rfcB, Hasher.finalizeReset]
    simp only [expandLoop, Hasher.foldl_update, hb]
    rw [show i + 2 + 1 = (i + 1) + 2 by omega, ih, List.range_succ_eq_map, List.flatMap_cons,
      List.flatMap_map, List.append_assoc]
    simp [Nat.add_assoc, Nat.add_comm 1]

/-- From `b_1`, the loop of `expand` leaves `b_1 ‖ … ‖ b_{k+1}`. -/
theorem expandLoop_two (D : Digest) (b0 dstPrime : List UInt8) (k : Nat) :
    (expandLoop D b0 dstPrime k 2 ⟨[]⟩ (D.hash (b0 ++ [1] ++ dstPrime))
        (D.hash (b0 ++ [1] ++ dstPrime))).2.2 =
      (List.range (k + 1)).flatMap fun j => rfcB D b0 dstPrime (j + 1) := by
  have h := expandLoop_eq D b0 dstPrime k 0 (rfcB D b0 dstPrime 1)
  rw [Nat.zero_add] at h
  rw [show D.hash (b0 ++ [1] ++ dstPrime) = rfcB D b0 dstPrime 1 from rfl, h,
    List.range_succ_eq_map, List.flatMap_cons, List.flatMap_map]

/-- From a fresh hasher, `construct_dst_prime` is the RFC's `DST_prime`. -/
theorem constructDstPrime_eq (D : Digest) {x : ExpanderXmd} (hx : x.hasher.pending = []) :
    x.constructDstPrime D = rfcDstPrime D x.dst := by
  simp [ExpanderXmd.constructDstPrime, rfcDstPrime, maxDstLength, Hasher.finalizeReset, hx]

/-- From a fresh hasher and with `1 ≤ b_len ≤ 255`, `expand` completes exactly when
`n < 2^16` and `⌈n / b_len⌉ ≤ 255`, and then returns `expand_message_xmd`, which is `n`
bytes long. -/
theorem expand_eq_expandMessageXmd (D : Digest) (x : ExpanderXmd) (hx : x.hasher.pending = [])
    (hb : 1 ≤ D.outputSize) (hb' : D.outputSize ≤ 255) (msg : List UInt8) (n : Nat) :
    x.expand D msg n =
      (if n < 2 ^ 16 ∧ n ⌈/⌉ D.outputSize ≤ 255 then
        some (expandMessageXmd D x.dst msg x.blockSize n) else none) ∧
    (n < 2 ^ 16 → n ⌈/⌉ D.outputSize ≤ 255 →
      (expandMessageXmd D x.dst msg x.blockSize n).length = n) := by
  have hell : (n + (D.outputSize - 1)) / D.outputSize = n ⌈/⌉ D.outputSize := by
    rw [Nat.ceilDiv_eq_add_pred_div]; congr 1; omega
  have hcover : n ≤ (n ⌈/⌉ D.outputSize) * D.outputSize :=
    mul_comm D.outputSize _ ▸ le_smul_ceilDiv (show 0 < D.outputSize by omega)
  refine ⟨?_, fun _ _ => ?_⟩
  · dsimp only [ExpanderXmd.expand]
    simp only [constructDstPrime_eq D hx, Hasher.finalizeReset, Hasher.update, hx, List.nil_append,
      hell, expandLoop_two, length_flatMap_rfcB]
    by_cases hok : n < 2 ^ 16 ∧ n ⌈/⌉ D.outputSize ≤ 255
    · -- every guard passes, and the loop covers the `n` bytes
      have hsize : ¬(D.outputSize = 0 ∨ 2 ^ 64 ≤ n + (D.outputSize - 1)) := by omega
      have hcover' : n ≤ (n ⌈/⌉ D.outputSize - 1 + 1) * D.outputSize :=
        hcover.trans (Nat.mul_le_mul_right _ (by omega))
      rw [if_neg hsize, if_neg (Nat.not_lt.2 hok.2), if_neg (Nat.not_le.2 hok.1), if_pos hcover',
        if_pos hok]
      obtain h0 | h0 := Nat.eq_zero_or_pos (n ⌈/⌉ D.outputSize)
      · have hn : n = 0 := by simpa [h0] using hcover
        simp [hn, expandMessageXmd]
      · rw [Nat.sub_add_cancel h0]; rfl
    · -- one of the two assertions fails
      rw [if_neg hok]
      split_ifs <;> first | rfl | omega
  · simp only [expandMessageXmd, List.length_take, length_flatMap_rfcB]
    omega

/-- A two-byte digest, the byte sum and the length, to run the expander on. -/
def pairDigest : Digest := ⟨2, fun m => [m.foldl (· + ·) 0, UInt8.ofNat m.length], fun _ => rfl⟩

/-- Three bytes from a two-byte digest: `ell = 2`, one round of the loop, and a slice that
cuts `b_2`. -/
theorem expand_pairDigest_three :
    (⟨⟨[]⟩, [7], 4⟩ : ExpanderXmd).expand pairDigest [1, 2] 3 =
      some (expandMessageXmd pairDigest [7] [1, 2] 4 3) ∧
    expandMessageXmd pairDigest [7] [1, 2] 4 3 = [34, 5, 68] := by
  refine ⟨?_, by decide⟩
  rw [(expand_eq_expandMessageXmd pairDigest ⟨⟨[]⟩, [7], 4⟩ rfl (by decide) (by decide) [1, 2] 3).1]
  exact if_pos (by decide)

end KzgCeremony.XmdExpander
