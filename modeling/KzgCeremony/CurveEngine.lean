import Mathlib

/-!
# The curve engine and BLS signatures

The engine backends are not among the sources, so the engine is modelled from
the spec: compressed points decode to points of the curve or fail with a
reason, and `decode` adds the check that the point lies in the prime-order
subgroup. `add_tau_g1`/`add_tau_g2` decode every point to the curve without that
check, compute `[1, τ, τ², …]` by successive multiplication and multiply
pointwise, and BLS signatures are `τ · H(msg)` in G1, checked by one pairing
equation. Groups are vector spaces over the scalar field and the pairing is a
bilinear map carrying its two laws. `BlsSignature` and its `sign`/`prune`
follow `signature/mod.rs`. A small engine over `ZMod 5` evaluates the model on
concrete inputs.
-/

namespace KzgCeremony.CurveEngine

/-- Why a compressed point fails to decode. -/
inductive ParseError where
  | badEncoding
  | wrongLength
  | notOnCurve
  | notInSubgroup
  deriving DecidableEq

/-- The variants of `CeremonyError` the engine calls raise here. -/
inductive CeremonyError where
  | invalidG1Power (index : Nat) (reason : ParseError)
  | invalidG2Power (index : Nat) (reason : ParseError)
  deriving DecidableEq

/-- Compressed points `P` of a curve whose points are `C`, with the prime-order group `G`
inside it as the subgroup the ceremony works in. Parsing a point checks its encoding and that
it lies on the curve; the subgroup check is a step of its own, which `validate_g1` and
`validate_g2` make and `add_tau_g1` and `add_tau_g2` skip. A scalar multiplies a curve point
by its integer representative, which on the subgroup is the scalar field's action. -/
structure PointCodec (F G C P : Type) [Field F] [AddCommGroup G] [Module F G] where
  /-- Parse one compressed point and check that it lies on the curve. -/
  decodeCurve : P → Except ParseError C
  /-- Compress a curve point. -/
  encodeCurve : C → P
  /-- Compressed curve points parse back to themselves. -/
  decodeCurve_encodeCurve : ∀ c, decodeCurve (encodeCurve c) = .ok c
  /-- The subgroup, as points of the curve. -/
  ofSubgroup : G → C
  /-- The subgroup check: the element of the subgroup a curve point is, if it is one. -/
  toSubgroup : C → Option G
  /-- Points of the subgroup pass the subgroup check. -/
  toSubgroup_ofSubgroup : ∀ g, toSubgroup (ofSubgroup g) = some g
  /-- A point that passes the subgroup check is that element of the subgroup. -/
  ofSubgroup_of_toSubgroup : ∀ c g, toSubgroup c = some g → ofSubgroup g = c
  /-- A scalar times a curve point. -/
  smul : F → C → C
  /-- On the subgroup, a scalar acts as in the scalar field's module. -/
  smul_ofSubgroup : ∀ (a : F) g, smul a (ofSubgroup g) = ofSubgroup (a • g)

/-- A pairing `G1 × G2 → GT`, bilinear over the scalar field `F`. -/
structure Pairing (F G1 G2 GT : Type) [Field F] [AddCommGroup G1] [Module F G1]
    [AddCommGroup G2] [Module F G2] [AddCommGroup GT] [Module F GT] where
  /-- The pairing itself. -/
  pair : G1 → G2 → GT
  /-- Linearity in the first argument. -/
  map_smul_left : ∀ (a : F) g h, pair (a • g) h = a • pair g h
  /-- Linearity in the second argument. -/
  map_smul_right : ∀ (a : F) g h, pair g (a • h) = a • pair g h

/-- Modelled from the spec: the engine, a backend of the `Engine` trait, over the
scalar field `F`, with curve points `C1`, `C2` and wire types `P1`, `P2` for compressed G1
and G2 points. -/
structure Engine (F G1 G2 GT C1 C2 P1 P2 : Type) [Field F] [AddCommGroup G1] [Module F G1]
    [AddCommGroup G2] [Module F G2] [AddCommGroup GT] [Module F GT] where
  /-- Compressed G1 points. -/
  g1 : PointCodec F G1 C1 P1
  /-- Compressed G2 points. -/
  g2 : PointCodec F G2 C2 P2
  /-- `G1::one()`, the generator of G1. -/
  g1One : G1
  /-- `G2::one()`, the generator of G2. -/
  g2One : G2
  /-- The pairing of the curve. -/
  pairing : Pairing F G1 G2 GT
  /-- Hash to G1, through `expand_message_xmd`. -/
  hashToCurve : List UInt8 → G1

/- Each `[Module F G]` binder needs `AddCommMonoid G`, which the default order of instances finds
only after trying the rest of the algebraic hierarchy. -/
attribute [local instance (high)] AddCommGroup.toAddCommMonoid

variable {F G1 G2 GT C1 C2 P1 P2 G C P : Type} [Field F] [AddCommGroup G1] [Module F G1]
  [AddCommGroup G2] [Module F G2] [AddCommGroup GT] [Module F GT] [AddCommGroup G] [Module F G]

namespace PointCodec

variable (codec : PointCodec F G C P)

/-- Parse a point with every check: its encoding, the curve and the subgroup. -/
def decode (p : P) : Except ParseError G :=
  match codec.decodeCurve p with
  | .error e => .error e
  | .ok c =>
    match codec.toSubgroup c with
    | some g => .ok g
    | none => .error .notInSubgroup

/-- Compress an element of the subgroup. -/
def encode (g : G) : P := codec.encodeCurve (codec.ofSubgroup g)

@[simp] theorem decodeCurve_encode (g : G) :
    codec.decodeCurve (codec.encode g) = .ok (codec.ofSubgroup g) :=
  codec.decodeCurve_encodeCurve _

@[simp] theorem decode_encode (g : G) : codec.decode (codec.encode g) = .ok g := by
  simp [decode, toSubgroup_ofSubgroup]

@[simp] theorem encodeCurve_smul_ofSubgroup (a : F) (g : G) :
    codec.encodeCurve (codec.smul a (codec.ofSubgroup g)) = codec.encode (a • g) := by
  rw [smul_ofSubgroup]; rfl

/-- A point that passes every check lies on the curve as its element of the subgroup. -/
theorem decodeCurve_of_decode {p : P} {g : G} (h : codec.decode p = .ok g) :
    codec.decodeCurve p = .ok (codec.ofSubgroup g) := by
  unfold decode at h
  split at h
  · cases h
  · next c hc =>
    split at h
    · next hs => cases h; rw [hc, codec.ofSubgroup_of_toSubgroup c _ hs]
    · cases h

end PointCodec

/-! ### Parsing point vectors -/

/-- Parse every point of a vector, reporting the index of the first failure. -/
def decodeAll {α : Type} (dec : P → Except ParseError α) (err : Nat → ParseError → CeremonyError) :
    Nat → List P → Except CeremonyError (List α)
  | _, [] => .ok []
  | i, p :: ps =>
    match dec p with
    | .error e => .error (err i e)
    | .ok g => (g :: ·) <$> decodeAll dec err (i + 1) ps

section DecodeAll

variable {α : Type} {dec : P → Except ParseError α} {err : Nat → ParseError → CeremonyError}

/-- Vectors of compressed values parse back to the values. -/
theorem decodeAll_map {enc : α → P} (h : ∀ a, dec (enc a) = .ok a) (i : Nat) (as : List α) :
    decodeAll dec err i (as.map enc) = .ok as := by
  induction as generalizing i with
  | nil => rfl
  | cons a as ih =>
    simp only [List.map_cons, decodeAll, h, ih]
    rfl

/-- A parsed vector is as long as the point vector. -/
theorem length_of_decodeAll {i : Nat} {ps : List P} {as : List α}
    (h : decodeAll dec err i ps = .ok as) : as.length = ps.length := by
  induction ps generalizing i as with
  | nil => cases h; rfl
  | cons p ps ih =>
    simp only [decodeAll] at h
    split at h
    · cases h
    · cases hr : decodeAll dec err (i + 1) ps <;> rw [hr] at h <;> cases h
      simp [ih hr]

/-- Parsing one point at index `i`, with the point dropped: the reason it fails, at `i`. -/
theorem map_decodeAll_singleton (i : Nat) (p : P) :
    (fun _ => ()) <$> decodeAll dec err i [p] =
      match dec p with
      | .ok _ => .ok ()
      | .error e => .error (err i e) := by
  simp only [decodeAll]; cases dec p <;> rfl

/-- Compressed images of values, index by index, parse back to those values. -/
theorem decodeAll_mapIdx {enc : α → P} (h : ∀ a, dec (enc a) = .ok a) (i : Nat) (as : List α)
    (f : Nat → α → α) :
    decodeAll dec err i (as.mapIdx fun j a => enc (f j a)) = .ok (as.mapIdx f) := by
  have : (as.mapIdx fun j a => enc (f j a)) = (as.mapIdx f).map enc := by
    apply List.ext_getElem <;> simp
  rw [this, decodeAll_map h]

end DecodeAll

/-- Points that pass every check lie on the curve as their elements of the subgroup. -/
theorem decodeAll_decodeCurve_of_decode {codec : PointCodec F G C P}
    {err : Nat → ParseError → CeremonyError} {i : Nat} {ps : List P} {gs : List G}
    (h : decodeAll codec.decode err i ps = .ok gs) :
    decodeAll codec.decodeCurve err i ps = .ok (gs.map codec.ofSubgroup) := by
  induction ps generalizing i gs with
  | nil => cases h; rfl
  | cons p ps ih =>
    simp only [decodeAll] at h ⊢
    cases hp : codec.decode p <;> rw [hp] at h
    · cases h
    · cases hr : decodeAll codec.decode err (i + 1) ps <;> rw [hr] at h <;> cases h
      rw [codec.decodeCurve_of_decode hp, ih hr]
      rfl

/-! ### Powers of tau -/

/-- `[c, cτ, cτ², …]` of length `n`, by successive multiplication. -/
def powersOf (tau : F) : Nat → F → List F
  | 0, _ => []
  | n + 1, c => c :: powersOf tau n (c * tau)

@[simp] theorem length_powersOf (tau : F) (n : Nat) (c : F) : (powersOf tau n c).length = n := by
  induction n generalizing c with
  | zero => rfl
  | succ n ih => simp [powersOf, ih]

/-- The successive products are the powers of `τ`. -/
theorem getElem_powersOf (tau : F) (n : Nat) (c : F) (i : Nat) (h : i < (powersOf tau n c).length) :
    (powersOf tau n c)[i] = c * tau ^ i := by
  induction n generalizing c i with
  | zero => simp at h
  | succ n ih =>
    cases i with
    | zero => simp [powersOf]
    | succ i => simp [powersOf, ih, pow_succ', mul_assoc]

/-- `pts[i] ← τ^i · pts[i]` on parsed curve points, by the powers computed above. -/
def mulPowers (codec : PointCodec F G C P) (tau : F) (cs : List C) : List P :=
  List.zipWith (fun t c => codec.encodeCurve (codec.smul t c)) (powersOf tau cs.length 1) cs

/-- The pointwise product is the `i`-th power on the `i`-th point. -/
theorem mulPowers_eq_mapIdx (codec : PointCodec F G C P) (tau : F) (cs : List C) :
    mulPowers codec tau cs = cs.mapIdx fun i c => codec.encodeCurve (codec.smul (tau ^ i) c) := by
  apply List.ext_getElem
  · simp [mulPowers]
  · intro i h1 h2
    simp [mulPowers, getElem_powersOf]

/-- `add_tau_g1`/`add_tau_g2`: parse all points, with no subgroup check, then multiply them
by the powers of `τ`. -/
def addTauG (codec : PointCodec F G C P) (err : Nat → ParseError → CeremonyError)
    (tau : F) (ps : List P) : Except CeremonyError (List P) :=
  mulPowers codec tau <$> decodeAll codec.decodeCurve err 0 ps

section AddTauG

variable {codec : PointCodec F G C P} {err : Nat → ParseError → CeremonyError} {tau : F}

/-- What a successful `add_tau_g` did: every point lay on the curve, and the `i`-th became
`τ^i` times it. -/
theorem addTauG_eq_ok {ps qs : List P} :
    addTauG codec err tau ps = .ok qs ↔
      ∃ cs, decodeAll codec.decodeCurve err 0 ps = .ok cs ∧
        qs = cs.mapIdx fun i c => codec.encodeCurve (codec.smul (tau ^ i) c) := by
  unfold addTauG
  cases decodeAll codec.decodeCurve err 0 ps with
  | error e => simp [Functor.map, Except.map]
  | ok cs =>
    simp only [Functor.map, Except.map, Except.ok.injEq, exists_eq_left', mulPowers_eq_mapIdx]
    exact eq_comm

/-- On points that pass every check, `add_tau_g` multiplies in the subgroup. -/
theorem addTauG_of_decodeAll {ps : List P} {gs : List G}
    (h : decodeAll codec.decode err 0 ps = .ok gs) :
    addTauG codec err tau ps = .ok (gs.mapIdx fun i g => codec.encode (tau ^ i • g)) := by
  refine addTauG_eq_ok.2 ⟨_, decodeAll_decodeCurve_of_decode h, ?_⟩
  apply List.ext_getElem <;> simp

/-- The array `[one, p]` after a successful `add_tau_g`: its second entry is `τ` times
the curve point `p` parses to. -/
theorem addTauG_pair {one : G} {p : P} {temp : List P}
    (h : addTauG codec err tau [codec.encode one, p] = .ok temp) :
    ∃ k, codec.decodeCurve p = .ok k ∧ temp.getD 1 p = codec.encodeCurve (codec.smul tau k) := by
  obtain ⟨cs, hd, rfl⟩ := addTauG_eq_ok.1 h
  simp only [decodeAll, PointCodec.decodeCurve_encode] at hd
  cases hk : codec.decodeCurve p with
  | error e => simp [hk] at hd
  | ok k =>
    simp only [hk] at hd
    cases hd
    exact ⟨k, rfl, by simp⟩

end AddTauG

/-- The compressed vector `[x^0 · one, x^1 · one, …]` of length `n`. -/
def powersList (codec : PointCodec F G C P) (one : G) (x : F) (n : Nat) : List P :=
  (List.range n).map fun i => codec.encode (x ^ i • one)

@[simp] theorem length_powersList (codec : PointCodec F G C P) (one : G) (x : F) (n : Nat) :
    (powersList codec one x n).length = n := by
  simp [powersList]

/-- `τ^i·x^i = (τx)^i` on every position: the powers of `x` become the powers of `τx`. -/
theorem addTauG_powersList (codec : PointCodec F G C P) (err : Nat → ParseError → CeremonyError)
    (tau x : F) (one : G) (n : Nat) :
    addTauG codec err tau (powersList codec one x n) = .ok (powersList codec one (tau * x) n) := by
  have hps : powersList codec one x n =
      ((List.range n).map fun i => x ^ i • one).map codec.encode := by
    simp [powersList]
  rw [hps, addTauG_of_decodeAll (decodeAll_map codec.decode_encode 0 _)]
  congr 1
  apply List.ext_getElem <;> simp [powersList, mul_pow, mul_smul]

/-- The vector of `n` generators is the powers of `1`. -/
theorem replicate_eq_powersList (codec : PointCodec F G C P) (one : G) (n : Nat) :
    List.replicate n (codec.encode one) = powersList codec one (1 : F) n := by
  apply List.ext_getElem <;> simp [powersList]

/-! ### Engine operations -/

namespace Engine

variable (E : Engine F G1 G2 GT C1 C2 P1 P2)

/-- `add_tau_g1`. -/
def addTauG1 (tau : F) (ps : List P1) : Except CeremonyError (List P1) :=
  addTauG E.g1 .invalidG1Power tau ps

/-- `add_tau_g2`. -/
def addTauG2 (tau : F) (ps : List P2) : Except CeremonyError (List P2) :=
  addTauG E.g2 .invalidG2Power tau ps

/-- `validate_g1`: every point passes every check, or the first failure with its index. -/
def validateG1 (ps : List P1) : Except CeremonyError Unit :=
  (fun _ => ()) <$> decodeAll E.g1.decode .invalidG1Power 0 ps

/-- `validate_g2`. -/
def validateG2 (ps : List P2) : Except CeremonyError Unit :=
  (fun _ => ()) <$> decodeAll E.g2.decode .invalidG2Power 0 ps

/-- `sign_message`: the BLS signature `τ · H(msg)` in G1. -/
def signMessage (tau : F) (message : List UInt8) : Option P1 :=
  some (E.g1.encode (tau • E.hashToCurve message))

/-- `verify_signature`: `e(sig, G2::one()) = e(H(msg), pk)` on the decoded points. -/
def verifySignature [DecidableEq GT] (sig : P1) (message : List UInt8) (pk : P2) : Bool :=
  match E.g1.decode sig, E.g2.decode pk with
  | .ok s, .ok k => decide (E.pairing.pair s E.g2One = E.pairing.pair (E.hashToCurve message) k)
  | _, _ => false

/-- On signatures and keys that are multiples of `H(msg)` and `G2::one()`, verification
compares the two scalars through the pairing. -/
theorem verifySignature_smul [DecidableEq GT] (a b : F) (message : List UInt8) :
    E.verifySignature (E.g1.encode (a • E.hashToCurve message)) message (E.g2.encode (b • E.g2One)) =
      decide (a • E.pairing.pair (E.hashToCurve message) E.g2One =
        b • E.pairing.pair (E.hashToCurve message) E.g2One) := by
  simp [verifySignature, PointCodec.decode_encode, E.pairing.map_smul_left, E.pairing.map_smul_right]

/-- When `e(H(msg), G2::one()) ≠ 0`, a signature by `a` verifies under the key of `b`
exactly when `a = b`. -/
theorem verifySignature_smul_iff [DecidableEq GT] {a b : F} {message : List UInt8}
    (hne : E.pairing.pair (E.hashToCurve message) E.g2One ≠ 0) :
    E.verifySignature (E.g1.encode (a • E.hashToCurve message)) message
      (E.g2.encode (b • E.g2One)) = true ↔ a = b := by
  rw [verifySignature_smul, decide_eq_true_iff]
  exact (smul_left_injective F hne).eq_iff

end Engine

/-! ### BLS signatures -/

/-- `BlsSignature`: a compressed G1 point, or nothing when unsigned or pruned. -/
structure BlsSignature (P1 : Type) where
  /-- The signature point, if any. -/
  point : Option P1
  deriving DecidableEq

/-- `BlsSignature::empty`. -/
def BlsSignature.empty : BlsSignature P1 := ⟨none⟩

/-- `BlsSignature::sign`: the engine's signature of the message under the secret `sk`. -/
def BlsSignature.sign (E : Engine F G1 G2 GT C1 C2 P1 P2) (message : List UInt8) (sk : F) :
    BlsSignature P1 :=
  ⟨E.signMessage sk message⟩

/-- `BlsSignature::prune`: keep the signature only if it verifies for the message and key. -/
def BlsSignature.prune [DecidableEq GT] (E : Engine F G1 G2 GT C1 C2 P1 P2) (sig : BlsSignature P1)
    (message : List UInt8) (pk : P2) : BlsSignature P1 :=
  ⟨sig.point.bind fun s => if E.verifySignature s message pk then some s else none⟩

/-- Pruning keeps a present signature exactly when it verifies. -/
theorem BlsSignature.prune_eq_self_iff [DecidableEq GT] (E : Engine F G1 G2 GT C1 C2 P1 P2) (s : P1)
    (message : List UInt8) (pk : P2) :
    (⟨some s⟩ : BlsSignature P1).prune E message pk = ⟨some s⟩ ↔
      E.verifySignature s message pk = true := by
  simp only [BlsSignature.prune, Option.some_bind, BlsSignature.mk.injEq]
  split_ifs with h <;> simp [h]

/-- Pruning drops a present signature exactly when it does not verify. -/
theorem BlsSignature.prune_eq_empty_iff [DecidableEq GT] (E : Engine F G1 G2 GT C1 C2 P1 P2) (s : P1)
    (message : List UInt8) (pk : P2) :
    (⟨some s⟩ : BlsSignature P1).prune E message pk = .empty ↔
      E.verifySignature s message pk = false := by
  simp only [BlsSignature.prune, Option.some_bind, BlsSignature.empty, BlsSignature.mk.injEq]
  split_ifs with h <;> simp [h]

/-- Pruning twice with one message and key is pruning once. -/
theorem BlsSignature.prune_prune [DecidableEq GT] (E : Engine F G1 G2 GT C1 C2 P1 P2)
    (sig : BlsSignature P1) (message : List UInt8) (pk : P2) :
    (sig.prune E message pk).prune E message pk = sig.prune E message pk := by
  rcases sig with ⟨_ | s⟩
  · rfl
  · by_cases h : E.verifySignature s message pk <;> simp [BlsSignature.prune, h]

/-- A signature by `τ` survives pruning under the key `τ' · G2::one()` exactly when `τ' = τ`,
when `e(H(msg), G2::one()) ≠ 0`; pruning the result again changes nothing. -/
theorem BlsSignature.prune_sign [DecidableEq F] [DecidableEq GT] (E : Engine F G1 G2 GT C1 C2 P1 P2) (tau tau' : F)
    (message : List UInt8) (hne : E.pairing.pair (E.hashToCurve message) E.g2One ≠ 0) :
    (BlsSignature.sign E message tau).prune E message (E.g2.encode (tau' • E.g2One)) =
        (if tau' = tau then BlsSignature.sign E message tau else .empty) ∧
      ((BlsSignature.sign E message tau).prune E message (E.g2.encode (tau' • E.g2One))).prune E
          message (E.g2.encode (tau' • E.g2One)) =
        (BlsSignature.sign E message tau).prune E message (E.g2.encode (tau' • E.g2One)) := by
  refine ⟨?_, BlsSignature.prune_prune ..⟩
  by_cases h : tau' = tau
  · simp [BlsSignature.sign, BlsSignature.prune, Engine.signMessage,
      Engine.verifySignature_smul_iff E hne, h]
  · simp [BlsSignature.sign, BlsSignature.prune, Engine.signMessage, BlsSignature.empty,
      Engine.verifySignature_smul_iff E hne, h, Ne.symm h]

/-! ### A small engine -/

instance fact_prime_five : Fact (Nat.Prime 5) := ⟨by decide⟩

/-- The scalar field acting on itself, given directly: every group of the small engine needs it,
and the search through the module hierarchy is slow. -/
instance module_zmod_five : Module (ZMod 5) (ZMod 5) := Semiring.toModule

/-- Compressed points of a curve of order `10`, `ZMod 5 × ZMod 2`, whose subgroup of order `5`
is `ZMod 5 × {0}`: a point `(g, 0)` of the subgroup is the number `g`, a point `(g, 1)` outside
it the number `10 + g`, and other numbers do not parse. A scalar multiplies both parts by its
representative in `0..4`. -/
def toyCodec : PointCodec (ZMod 5) (ZMod 5) (ZMod 5 × ZMod 2) Nat where
  decodeCurve n :=
    if n < 5 then .ok (n, 0) else if 10 ≤ n ∧ n < 15 then .ok (n - 10, 1) else .error .badEncoding
  encodeCurve c := if c.2 = 0 then c.1.val else 10 + c.1.val
  decodeCurve_encodeCurve := by
    rintro ⟨g, t⟩
    have hg := ZMod.val_lt g
    fin_cases t
    · simp [hg, ZMod.natCast_zmod_val]
    · simp [show ¬10 + g.val < 5 by omega, show 10 + g.val < 15 by omega]
  ofSubgroup g := (g, 0)
  toSubgroup c := if c.2 = 0 then some c.1 else none
  toSubgroup_ofSubgroup g := if_pos rfl
  ofSubgroup_of_toSubgroup := by
    rintro ⟨g, t⟩ g' h
    dsimp only at h
    split_ifs at h with ht
    cases h
    rw [ht]
  smul a c := (a * c.1, (a.val : ZMod 2) * c.2)
  smul_ofSubgroup a g := by simp

/-- An engine over `ZMod 5`: every group is `ZMod 5`, the curves are `ZMod 5 × ZMod 2`, the
pairing is the product and every message hashes to `1`. -/
def toyEngine :
    Engine (ZMod 5) (ZMod 5) (ZMod 5) (ZMod 5) (ZMod 5 × ZMod 2) (ZMod 5 × ZMod 2) Nat Nat where
  g1 := toyCodec
  g2 := toyCodec
  g1One := 1
  g2One := 1
  pairing := ⟨(· * ·), fun a g h => by simp [mul_assoc], fun a g h => by simp [mul_left_comm]⟩
  hashToCurve _ := 1

/-- Under the small engine, a signature by `2` survives pruning under its own key `2` and is
dropped under the key `3`. -/
theorem prune_sign_toy :
    toyEngine.pairing.pair (toyEngine.hashToCurve []) toyEngine.g2One ≠ 0 ∧
      (BlsSignature.sign toyEngine [] 2).prune toyEngine [] (toyEngine.g2.encode ((2 : ZMod 5) • toyEngine.g2One)) =
        BlsSignature.sign toyEngine [] 2 ∧
      (BlsSignature.sign toyEngine [] 2).prune toyEngine [] (toyEngine.g2.encode ((3 : ZMod 5) • toyEngine.g2One)) =
        .empty := by
  have hne : toyEngine.pairing.pair (toyEngine.hashToCurve []) toyEngine.g2One ≠ 0 := by decide
  exact ⟨hne, (BlsSignature.prune_sign toyEngine 2 2 [] hne).1,
    (BlsSignature.prune_sign toyEngine 2 3 [] hne).1⟩

end KzgCeremony.CurveEngine
