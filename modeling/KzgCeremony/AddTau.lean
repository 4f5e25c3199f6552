import KzgCeremony.CurveEngine
import KzgCeremony.IdentityString

/-!
# Contributions and `add_tau`

A contribution holds the G1 and G2 powers of tau of one sub-ceremony, the
PoT public key and a BLS signature. `add_tau` rewrites the two vectors in
place through the engine, then moves the public key through the two-entry
array `[G2::one(), pot_pubkey]`, then signs the contributor's identity with
`τ`. Each engine call may fail on a point that does not decode; the calls are
made one after another on the contribution itself, so a later failure leaves
the earlier vectors rewritten. The transcript invariant, a single `x` with
`g1[i] = x^i · G1::one()` and `g2[j] = x^j · G2::one()`, is preserved with
`x ↦ τx`, and from the genesis contribution a run of calls reaches the
product of its scalars. The signature, in contrast, is made by the last `τ`
alone. `add_tau` parses every point but leaves the subgroup check to `validate`:
it accepts every contribution `validate` accepts, keeping it valid, and also
curve points outside the subgroup, which `validate` rejects.
-/

namespace KzgCeremony.AddTau

open CurveEngine IdentityString Text

/-- `Powers`: the G1 and G2 powers of one sub-ceremony. -/
structure Powers (P1 P2 : Type) where
  /-- The G1 powers. -/
  g1 : List P1
  /-- The G2 powers. -/
  g2 : List P2
  deriving DecidableEq

/-- `Contribution`. -/
structure Contribution (P1 P2 : Type) where
  /-- The powers of tau. -/
  powers : Powers P1 P2
  /-- `x · G2::one()` for the running product `x`. -/
  potPubkey : P2
  /-- The signature of the last contributor's identity. -/
  blsSignature : BlsSignature P1
  deriving DecidableEq

/- Each `[Module F G]` binder needs `AddCommMonoid G`, which the default order of instances finds
only after trying the rest of the algebraic hierarchy. -/
attribute [local instance (high)] AddCommGroup.toAddCommMonoid

variable {F G1 G2 GT C1 C2 P1 P2 : Type} [Field F] [AddCommGroup G1] [Module F G1]
  [AddCommGroup G2] [Module F G2] [AddCommGroup GT] [Module F GT]
  (E : Engine F G1 G2 GT C1 C2 P1 P2)

/-- Modelled from the spec: `Powers::new(n1, n2)`, every power the generator. -/
def Powers.new (n1 n2 : Nat) : Powers P1 P2 :=
  ⟨List.replicate n1 (E.g1.encode E.g1One), List.replicate n2 (E.g2.encode E.g2One)⟩

/-- Modelled from the spec: the genesis contribution of sizes `n1`, `n2`, with no
entropy and no signature. -/
def Contribution.genesis (n1 n2 : Nat) : Contribution P1 P2 :=
  ⟨Powers.new E n1 n2, E.g2.encode E.g2One, .empty⟩

/-- `Contribution::has_entropy`. -/
def Contribution.hasEntropy [DecidableEq P2] (c : Contribution P1 P2) : Bool :=
  c.potPubkey ≠ E.g2.encode E.g2One

/-- `Contribution::add_tau`, acting on the contribution in place: the contribution
after the call and the call's result. `temp[1]` is read after `add_tau_g2`, which
keeps the array's two entries. -/
def Contribution.addTau (c : Contribution P1 P2) (tau : F) (identity : Identity) :
    Contribution P1 P2 × Except CeremonyError Unit :=
  match E.addTauG1 tau c.powers.g1 with
  | .error e => (c, .error e)
  | .ok g1 =>
    let c := { c with powers := { c.powers with g1 := g1 } }
    match E.addTauG2 tau c.powers.g2 with
    | .error e => (c, .error e)
    | .ok g2 =>
      let c := { c with powers := { c.powers with g2 := g2 } }
      match E.addTauG2 tau [E.g2.encode E.g2One, c.potPubkey] with
      | .error e => (c, .error e)
      | .ok temp =>
        ({ c with
            blsSignature := BlsSignature.sign E (utf8Bytes identity.toString) tau
            potPubkey := temp.getD 1 c.potPubkey }, .ok ())

/-- `Contribution::validate`: both vectors, then the public key alone. -/
def Contribution.validate (c : Contribution P1 P2) : Except CeremonyError Unit := do
  E.validateG1 c.powers.g1
  E.validateG2 c.powers.g2
  E.validateG2 [c.potPubkey]

/-! ### What one call does -/

/-- A successful `add_tau` made three successful engine calls and wrote their results,
the public key from the second entry of the array. -/
theorem addTau_eq_ok {c c' : Contribution P1 P2} {tau : F} {identity : Identity} :
    c.addTau E tau identity = (c', .ok ()) ↔
      ∃ g1 g2 temp, E.addTauG1 tau c.powers.g1 = .ok g1 ∧ E.addTauG2 tau c.powers.g2 = .ok g2 ∧
        E.addTauG2 tau [E.g2.encode E.g2One, c.potPubkey] = .ok temp ∧
        c' = ⟨⟨g1, g2⟩, temp.getD 1 c.potPubkey,
          BlsSignature.sign E (utf8Bytes identity.toString) tau⟩ := by
  unfold Contribution.addTau
  cases h1 : E.addTauG1 tau c.powers.g1 <;> cases h2 : E.addTauG2 tau c.powers.g2 <;>
    cases h3 : E.addTauG2 tau [E.g2.encode E.g2One, c.potPubkey] <;> simp [h1, h2, h3, eq_comm]

/-- A failed `add_tau` made one failing engine call after some successful ones, and kept
what those wrote: nothing, the G1 vector, or both vectors. The public key and the
signature are never touched. -/
theorem addTau_eq_error {c c' : Contribution P1 P2} {tau : F} {identity : Identity}
    {e : CeremonyError} :
    c.addTau E tau identity = (c', .error e) ↔
      (E.addTauG1 tau c.powers.g1 = .error e ∧ c' = c) ∨
      (∃ g1, E.addTauG1 tau c.powers.g1 = .ok g1 ∧ E.addTauG2 tau c.powers.g2 = .error e ∧
        c' = { c with powers := { c.powers with g1 := g1 } }) ∨
      (∃ g1 g2, E.addTauG1 tau c.powers.g1 = .ok g1 ∧ E.addTauG2 tau c.powers.g2 = .ok g2 ∧
        E.addTauG2 tau [E.g2.encode E.g2One, c.potPubkey] = .error e ∧
        c' = { c with powers := ⟨g1, g2⟩ }) := by
  unfold Contribution.addTau
  cases h1 : E.addTauG1 tau c.powers.g1 <;> cases h2 : E.addTauG2 tau c.powers.g2 <;>
    cases h3 : E.addTauG2 tau [E.g2.encode E.g2One, c.potPubkey] <;> simp [h1, h2, h3, eq_comm, and_comm]

/-- One successful call, point by point: every point lay on the curve, the `i`-th power
became `τ^i` times it, the public key became `τ` times its point, and the signature is `τ`'s. -/
theorem addTau_ok_spec {c c' : Contribution P1 P2} {tau : F} {identity : Identity}
    (h : c.addTau E tau identity = (c', .ok ())) :
    (∃ cs, decodeAll E.g1.decodeCurve .invalidG1Power 0 c.powers.g1 = .ok cs ∧
      c'.powers.g1 = cs.mapIdx fun i p => E.g1.encodeCurve (E.g1.smul (tau ^ i) p)) ∧
    (∃ cs, decodeAll E.g2.decodeCurve .invalidG2Power 0 c.powers.g2 = .ok cs ∧
      c'.powers.g2 = cs.mapIdx fun i p => E.g2.encodeCurve (E.g2.smul (tau ^ i) p)) ∧
    (∃ k, E.g2.decodeCurve c.potPubkey = .ok k ∧
      c'.potPubkey = E.g2.encodeCurve (E.g2.smul tau k)) ∧
    c'.blsSignature = BlsSignature.sign E (utf8Bytes identity.toString) tau := by
  obtain ⟨g1, g2, temp, h1, h2, h3, rfl⟩ := (addTau_eq_ok E).1 h
  exact ⟨addTauG_eq_ok.1 h1, addTauG_eq_ok.1 h2, addTauG_pair h3, rfl⟩

/-- A successful call keeps the lengths of both vectors. -/
theorem addTau_lengths {c c' : Contribution P1 P2} {tau : F} {identity : Identity}
    (h : c.addTau E tau identity = (c', .ok ())) :
    c'.powers.g1.length = c.powers.g1.length ∧ c'.powers.g2.length = c.powers.g2.length := by
  obtain ⟨⟨gs1, hd1, e1⟩, ⟨gs2, hd2, e2⟩, -⟩ := addTau_ok_spec E h
  rw [e1, e2, List.length_mapIdx, List.length_mapIdx, length_of_decodeAll hd1,
    length_of_decodeAll hd2]
  exact ⟨rfl, rfl⟩

/-! ### The transcript invariant -/

/-- The transcript invariant for `x`: `g1[i] = x^i · G1::one()` and `g2[j] = x^j · G2::one()`. -/
def Contribution.PowersOf (x : F) (c : Contribution P1 P2) : Prop :=
  c.powers.g1 = powersList E.g1 E.g1One x c.powers.g1.length ∧
  c.powers.g2 = powersList E.g2 E.g2One x c.powers.g2.length

/-- `add_tau` takes the powers of `x` to the powers of `τx`. -/
theorem addTau_powersOf {c c' : Contribution P1 P2} {tau x : F} {identity : Identity}
    (hx : c.PowersOf E x) (h : c.addTau E tau identity = (c', .ok ())) :
    c'.PowersOf E (tau * x) := by
  obtain ⟨g1, g2, temp, h1, h2, -, rfl⟩ := (addTau_eq_ok E).1 h
  rw [hx.1, Engine.addTauG1, addTauG_powersList, Except.ok.injEq] at h1
  rw [hx.2, Engine.addTauG2, addTauG_powersList, Except.ok.injEq] at h2
  subst h1 h2
  simp [Contribution.PowersOf]

/-- `add_tau` takes the key `y · G2::one()` to `τy · G2::one()`. -/
theorem addTau_potPubkey {c c' : Contribution P1 P2} {tau y : F} {identity : Identity}
    (hy : c.potPubkey = E.g2.encode (y • E.g2One)) (h : c.addTau E tau identity = (c', .ok ())) :
    c'.potPubkey = E.g2.encode ((tau * y) • E.g2One) := by
  obtain ⟨-, -, ⟨k, hk, e⟩, -⟩ := addTau_ok_spec E h
  rw [hy, PointCodec.decodeCurve_encode, Except.ok.injEq] at hk
  rw [e, ← hk, PointCodec.encodeCurve_smul_ofSubgroup, mul_smul]

/-- The genesis contribution holds the powers of `1` and the key `1 · G2::one()`. -/
theorem genesis_powersOf (n1 n2 : Nat) :
    (Contribution.genesis E n1 n2).PowersOf E 1 ∧
    (Contribution.genesis E n1 n2).potPubkey = E.g2.encode ((1 : F) • E.g2One) := by
  refine ⟨⟨?_, ?_⟩, by rw [one_smul]; rfl⟩ <;>
    simp [Contribution.genesis, Powers.new, ← replicate_eq_powersList]

/-! ### Runs of calls -/

/-- `add_tau` called once per `(τ, identity)` in turn, stopping at the first error. -/
def Contribution.addTauRun : Contribution P1 P2 → List (F × Identity) →
    Contribution P1 P2 × Except CeremonyError Unit
  | c, [] => (c, .ok ())
  | c, (tau, identity) :: calls =>
    match c.addTau E tau identity with
    | (c', .ok ()) => c'.addTauRun calls
    | (c', .error e) => (c', .error e)

/-- A property of the running scalar that every successful call carries from `x` to
`τx` holds after a successful run, of the product of the run's scalars. -/
theorem addTauRun_induction (P : F → Contribution P1 P2 → Prop)
    (step : ∀ {c c' tau x identity}, P x c → c.addTau E tau identity = (c', .ok ()) →
      P (tau * x) c')
    {calls : List (F × Identity)} {c c' : Contribution P1 P2} {x : F} (hx : P x c)
    (h : c.addTauRun E calls = (c', .ok ())) : P ((calls.map Prod.fst).prod * x) c' := by
  induction calls generalizing c x with
  | nil => cases h; simpa using hx
  | cons call calls ih =>
    obtain ⟨tau, identity⟩ := call
    simp only [Contribution.addTauRun] at h
    split at h
    · next c1 hstep =>
      simpa [mul_assoc, mul_left_comm] using ih (step hx hstep) h
    · cases h

/-- After a successful run of at least one call, the signature is the last call's. -/
theorem addTauRun_blsSignature {calls : List (F × Identity)} (hne : calls ≠ [])
    {c c' : Contribution P1 P2} (h : c.addTauRun E calls = (c', .ok ())) :
    c'.blsSignature =
      BlsSignature.sign E (utf8Bytes (calls.getLast hne).2.toString) (calls.getLast hne).1 := by
  induction calls generalizing c with
  | nil => exact absurd rfl hne
  | cons call calls ih =>
    obtain ⟨tau, identity⟩ := call
    simp only [Contribution.addTauRun] at h
    split at h
    · next c1 hstep =>
      cases calls with
      | nil => cases h; exact (addTau_ok_spec E hstep).2.2.2
      | cons next calls => rw [List.getLast_cons (List.cons_ne_nil _ _)]; exact ih _ h
    · cases h

/-- Every successful call rewrites each vector and the key as powers of `τ` times the curve
points they parse to and signs with `τ`; it carries the transcript invariant from `x` and key
`y · G2::one()` to `τx` and `τy · G2::one()`; and every successful run from the genesis
contribution holds the powers of the product of its scalars, at the genesis sizes. -/
theorem addTau_transcript_invariant :
    (∀ (c c' : Contribution P1 P2) (tau : F) (identity : Identity),
      c.addTau E tau identity = (c', .ok ()) →
        c'.powers.g1.length = c.powers.g1.length ∧ c'.powers.g2.length = c.powers.g2.length ∧
        (∃ cs, decodeAll E.g1.decodeCurve .invalidG1Power 0 c.powers.g1 = .ok cs ∧
          c'.powers.g1 = cs.mapIdx fun i p => E.g1.encodeCurve (E.g1.smul (tau ^ i) p)) ∧
        (∃ cs, decodeAll E.g2.decodeCurve .invalidG2Power 0 c.powers.g2 = .ok cs ∧
          c'.powers.g2 = cs.mapIdx fun i p => E.g2.encodeCurve (E.g2.smul (tau ^ i) p)) ∧
        (∃ k, E.g2.decodeCurve c.potPubkey = .ok k ∧
          c'.potPubkey = E.g2.encodeCurve (E.g2.smul tau k)) ∧
        c'.blsSignature = BlsSignature.sign E (utf8Bytes identity.toString) tau) ∧
    (∀ (c c' : Contribution P1 P2) (tau : F) (identity : Identity) (x y : F),
      c.PowersOf E x → c.potPubkey = E.g2.encode (y • E.g2One) →
      c.addTau E tau identity = (c', .ok ()) →
        c'.PowersOf E (tau * x) ∧ c'.potPubkey = E.g2.encode ((tau * y) • E.g2One)) ∧
    (∀ (n1 n2 : Nat) (calls : List (F × Identity)) (c' : Contribution P1 P2),
      (Contribution.genesis E n1 n2).addTauRun E calls = (c', .ok ()) →
        c'.powers.g1.length = n1 ∧ c'.powers.g2.length = n2 ∧
        c'.PowersOf E (calls.map Prod.fst).prod ∧
        c'.potPubkey = E.g2.encode ((calls.map Prod.fst).prod • E.g2One)) := by
  refine ⟨fun c c' tau identity h => ⟨(addTau_lengths E h).1, (addTau_lengths E h).2,
    addTau_ok_spec E h⟩, fun c c' tau identity x y hx hy h =>
    ⟨addTau_powersOf E hx h, addTau_potPubkey E hy h⟩, fun n1 n2 calls c' h => ?_⟩
  obtain ⟨hx, hy⟩ := genesis_powersOf E n1 n2
  have hlen := addTauRun_induction E
    (fun _ c => c.powers.g1.length = n1 ∧ c.powers.g2.length = n2)
    (fun hx h => ⟨(addTau_lengths E h).1.trans hx.1, (addTau_lengths E h).2.trans hx.2⟩)
    (x := 1) (by simp [Contribution.genesis, Powers.new]) h
  have hp := addTauRun_induction E (fun x c => c.PowersOf E x) (addTau_powersOf E) hx h
  have hk := addTauRun_induction E (fun x c => c.potPubkey = E.g2.encode (x • E.g2One))
    (addTau_potPubkey E) hy h
  simp only [mul_one] at hp hk
  exact ⟨hlen.1, hlen.2, hp, hk⟩

/-- Two calls with `τ = 2` from the genesis contribution of sizes `2` and `1` of the small
engine reach the powers of `4`. -/
theorem addTau_transcript_invariant_two_calls :
    (Contribution.genesis toyEngine 2 1).addTauRun toyEngine [(2, .none), (2, .none)] =
      (⟨⟨[1, 4], [1]⟩, 4, ⟨some 2⟩⟩, .ok ()) ∧
    (⟨⟨[1, 4], [1]⟩, 4, ⟨some 2⟩⟩ : Contribution Nat Nat).PowersOf toyEngine 4 ∧
    (4 : Nat) = toyEngine.g2.encode ((4 : ZMod 5) • toyEngine.g2One) := by
  have h : (Contribution.genesis toyEngine 2 1).addTauRun toyEngine [(2, .none), (2, .none)] =
      (⟨⟨[1, 4], [1]⟩, 4, ⟨some 2⟩⟩, .ok ()) := by decide
  exact ⟨h, ((addTau_transcript_invariant toyEngine).2.2 2 1 _ _ h).2.2⟩

/-! ### The signature after a run -/

/-- After `k ≥ 1` calls with one identity from the key `G2::one()`, the signature is the
last scalar's. Pruning keeps it under the last call's key `τ_k · G2::one()`, and under the
accumulated key `(τ_1⋯τ_k) · G2::one()` exactly when the pairing does not tell `τ_k` from
the product: so, when `e(H(msg), G2::one()) ≠ 0` and `τ_k ≠ 0`, pruning under the accumulated
key drops it unless `τ_1⋯τ_(k-1) = 1`. -/
theorem addTauRun_signature_last_tau [DecidableEq GT] {c c' : Contribution P1 P2}
    {taus : List F} {identity : Identity} (hne : taus ≠ [])
    (hpk : c.potPubkey = E.g2.encode E.g2One)
    (h : c.addTauRun E (taus.map fun tau => (tau, identity)) = (c', .ok ())) :
    c'.blsSignature =
      ⟨some (E.g1.encode (taus.getLast hne • E.hashToCurve (utf8Bytes identity.toString)))⟩ ∧
    c'.potPubkey = E.g2.encode (taus.prod • E.g2One) ∧
    c'.blsSignature.prune E (utf8Bytes identity.toString)
      (E.g2.encode (taus.getLast hne • E.g2One)) = c'.blsSignature ∧
    (c'.blsSignature.prune E (utf8Bytes identity.toString) c'.potPubkey = c'.blsSignature ↔
      taus.getLast hne • E.pairing.pair (E.hashToCurve (utf8Bytes identity.toString)) E.g2One =
        taus.prod • E.pairing.pair (E.hashToCurve (utf8Bytes identity.toString)) E.g2One) ∧
    (E.pairing.pair (E.hashToCurve (utf8Bytes identity.toString)) E.g2One ≠ 0 →
      taus.getLast hne ≠ 0 → taus.dropLast.prod ≠ 1 →
      c'.blsSignature.prune E (utf8Bytes identity.toString) c'.potPubkey = .empty) := by
  have hsig : c'.blsSignature =
      ⟨some (E.g1.encode (taus.getLast hne • E.hashToCurve (utf8Bytes identity.toString)))⟩ := by
    rw [addTauRun_blsSignature E (by simpa using hne) h, List.getLast_map]
    rfl
  have hkey : c'.potPubkey = E.g2.encode (taus.prod • E.g2One) := by
    have := addTauRun_induction E (fun x c => c.potPubkey = E.g2.encode (x • E.g2One))
      (addTau_potPubkey E) (x := 1) (show c.potPubkey = _ by rw [one_smul]; exact hpk) h
    simpa [Function.comp_def] using this
  have hprod : taus.prod = taus.dropLast.prod * taus.getLast hne := by
    conv_lhs => rw [← List.dropLast_append_getLast hne]
    rw [List.prod_append, List.prod_singleton]
  refine ⟨hsig, hkey, ?_, ?_, fun hpair hlast hpre => ?_⟩
  · rw [hsig, BlsSignature.prune_eq_self_iff, Engine.verifySignature_smul]
    simp
  · rw [hsig, BlsSignature.prune_eq_self_iff, hkey, Engine.verifySignature_smul,
      decide_eq_true_iff]
  · -- keeping it would need `τ_k = τ_1⋯τ_(k-1) · τ_k`
    rw [hsig, BlsSignature.prune_eq_empty_iff, hkey, Engine.verifySignature_smul,
      decide_eq_false_iff_not]
    intro heq
    have hk : taus.getLast hne = taus.dropLast.prod * taus.getLast hne :=
      (smul_left_injective F hpair heq).trans hprod
    exact hpre ((mul_left_eq_self₀.1 hk.symm).resolve_right hlast)

/-- One call from the genesis contribution of the small engine. -/
theorem addTauRun_signature_last_tau_once :
    (Contribution.genesis toyEngine 1 1).addTauRun toyEngine
        ([(2 : ZMod 5)].map fun tau => (tau, Identity.none)) =
      (⟨⟨[1], [1]⟩, 2, ⟨some 2⟩⟩, .ok ()) ∧
    (⟨some 2⟩ : BlsSignature Nat).prune toyEngine (utf8Bytes Identity.none.toString) 2 =
      ⟨some 2⟩ := by
  have h : (Contribution.genesis toyEngine 1 1).addTauRun toyEngine
      ([(2 : ZMod 5)].map fun tau => (tau, Identity.none)) =
      (⟨⟨[1], [1]⟩, 2, ⟨some 2⟩⟩, .ok ()) := by decide
  exact ⟨h, (addTauRun_signature_last_tau toyEngine (List.cons_ne_nil 2 []) rfl h).2.2.1⟩

/-- Two calls with `τ = 2`: the key is `4 · G2::one()`, the signature `2 · H(msg)`, and
pruning with the key drops the signature. -/
theorem addTauRun_signature_drops_earlier_taus :
    (Contribution.genesis toyEngine 1 1).addTauRun toyEngine
        ([(2 : ZMod 5), 2].map fun tau => (tau, Identity.none)) =
      (⟨⟨[1], [1]⟩, 4, ⟨some 2⟩⟩, .ok ()) ∧
    (⟨some 2⟩ : BlsSignature Nat).prune toyEngine (utf8Bytes Identity.none.toString) 4 =
      .empty := by
  decide

/-! ### Failed calls -/

/-- A failed call never touches the key or the signature; the powers are as the engine
calls before the failing one left them. -/
theorem addTau_error_state {c c' : Contribution P1 P2} {tau : F} {identity : Identity}
    {e : CeremonyError} (h : c.addTau E tau identity = (c', .error e)) :
    c'.potPubkey = c.potPubkey ∧ c'.blsSignature = c.blsSignature ∧
    ((E.addTauG1 tau c.powers.g1 = .error e ∧ c'.powers = c.powers) ∨
     (∃ g1, E.addTauG1 tau c.powers.g1 = .ok g1 ∧ E.addTauG2 tau c.powers.g2 = .error e ∧
        c'.powers = ⟨g1, c.powers.g2⟩) ∨
     (∃ g1 g2, E.addTauG1 tau c.powers.g1 = .ok g1 ∧ E.addTauG2 tau c.powers.g2 = .ok g2 ∧
        E.addTauG2 tau [E.g2.encode E.g2One, c.potPubkey] = .error e ∧ c'.powers = ⟨g1, g2⟩)) := by
  rcases (addTau_eq_error E).1 h with ⟨h1, rfl⟩ | ⟨g1, h1, h2, rfl⟩ | ⟨g1, g2, h1, h2, h3, rfl⟩
  · exact ⟨rfl, rfl, .inl ⟨h1, rfl⟩⟩
  · exact ⟨rfl, rfl, .inr (.inl ⟨g1, h1, h2, rfl⟩)⟩
  · exact ⟨rfl, rfl, .inr (.inr ⟨g1, g2, h1, h2, h3, rfl⟩)⟩

/-- A G2 power that does not decode, after two good G1 powers. -/
theorem addTau_error_state_bad_g2 :
    (⟨⟨[1, 1], [7]⟩, 1, .empty⟩ : Contribution Nat Nat).addTau toyEngine 2 .none =
      (⟨⟨[1, 2], [7]⟩, 1, .empty⟩, .error (.invalidG2Power 0 .badEncoding)) ∧
    (⟨⟨[1, 2], [7]⟩, 1, .empty⟩ : Contribution Nat Nat).potPubkey = 1 := by
  have h : (⟨⟨[1, 1], [7]⟩, 1, .empty⟩ : Contribution Nat Nat).addTau toyEngine 2 .none =
      (⟨⟨[1, 2], [7]⟩, 1, .empty⟩, .error (.invalidG2Power 0 .badEncoding)) := by decide
  exact ⟨h, (addTau_error_state toyEngine h).1⟩

/-- `add_tau` fails on the undecodable G2 power after rewriting the G1 powers in place. -/
theorem addTau_error_rewrites_g1 :
    ((⟨⟨[1, 1], [7]⟩, 1, .empty⟩ : Contribution Nat Nat).addTau toyEngine 2 .none).2 =
      .error (.invalidG2Power 0 .badEncoding) ∧
    ((⟨⟨[1, 1], [7]⟩, 1, .empty⟩ : Contribution Nat Nat).addTau toyEngine 2 .none).1 ≠
      ⟨⟨[1, 1], [7]⟩, 1, .empty⟩ := by
  decide

/-! ### Validation and entropy after a call -/

/-- `validate` passes exactly when every G1 power, every G2 power and the public key pass
every check. -/
theorem validate_eq_ok {c : Contribution P1 P2} :
    c.validate E = .ok () ↔
      (∃ gs, decodeAll E.g1.decode .invalidG1Power 0 c.powers.g1 = .ok gs) ∧
      (∃ gs, decodeAll E.g2.decode .invalidG2Power 0 c.powers.g2 = .ok gs) ∧
      ∃ k, E.g2.decode c.potPubkey = .ok k := by
  simp only [Contribution.validate, Engine.validateG1, Engine.validateG2, map_decodeAll_singleton]
  cases decodeAll E.g1.decode .invalidG1Power 0 c.powers.g1 <;>
    cases decodeAll E.g2.decode .invalidG2Power 0 c.powers.g2 <;>
    cases E.g2.decode c.potPubkey <;> simp [bind, Except.bind, Functor.map, Except.map]

/-- `add_tau` on a contribution that passes `validate` succeeds, and what it writes passes
`validate` again: every point it multiplies is then in the subgroup, and so are the
multiples. -/
theorem addTau_validate {c : Contribution P1 P2} (tau : F) (identity : Identity)
    (h : c.validate E = .ok ()) :
    ∃ c', c.addTau E tau identity = (c', .ok ()) ∧ c'.validate E = .ok () := by
  obtain ⟨⟨gs1, h1⟩, ⟨gs2, h2⟩, ⟨k, hk⟩⟩ := (validate_eq_ok E).1 h
  have hpair : decodeAll E.g2.decode .invalidG2Power 0 [E.g2.encode E.g2One, c.potPubkey] =
      .ok [E.g2One, k] := by
    simp [decodeAll, hk]
  have hok : c.addTau E tau identity = (_, .ok ()) := (addTau_eq_ok E).2
    ⟨_, _, _, addTauG_of_decodeAll h1, addTauG_of_decodeAll h2, addTauG_of_decodeAll hpair, rfl⟩
  refine ⟨_, hok, (validate_eq_ok E).2 ⟨⟨_, decodeAll_mapIdx E.g1.decode_encode 0 _ _⟩,
    ⟨_, decodeAll_mapIdx E.g2.decode_encode 0 _ _⟩, ⟨tau ^ 1 • k, by simp⟩⟩⟩

/-- One call on the genesis contribution of the small engine, which passes `validate`. -/
theorem addTau_validate_genesis :
    (Contribution.genesis toyEngine 2 1).validate toyEngine = .ok () ∧
    ∃ c', (Contribution.genesis toyEngine 2 1).addTau toyEngine 3 .none = (c', .ok ()) ∧
      c'.validate toyEngine = .ok () := by
  have h : (Contribution.genesis toyEngine 2 1).validate toyEngine = .ok () := by decide
  exact ⟨h, addTau_validate toyEngine 3 .none h⟩

/-- A successful call with `τ ≠ 1` on a contribution without entropy adds entropy, when
`G2::one()` is not the zero of G2. -/
theorem addTau_hasEntropy [DecidableEq P2] {c c' : Contribution P1 P2} {tau : F}
    {identity : Identity} (hfree : c.hasEntropy E = false) (htau : tau ≠ 1)
    (hone : E.g2One ≠ 0) (h : c.addTau E tau identity = (c', .ok ())) :
    c'.hasEntropy E = true := by
  have hpk : c.potPubkey = E.g2.encode ((1 : F) • E.g2One) := by
    simpa [Contribution.hasEntropy] using hfree
  have hk := addTau_potPubkey E hpk h
  simp only [Contribution.hasEntropy, hk, mul_one, ne_eq, decide_eq_true_eq]
  intro heq
  have hdec := congrArg E.g2.decode heq
  rw [E.g2.decode_encode, E.g2.decode_encode, Except.ok.injEq] at hdec
  exact htau (smul_left_injective F hone (hdec.trans (one_smul F E.g2One).symm))

/-- `τ = 2` on the genesis contribution of the small engine adds entropy. -/
theorem addTau_hasEntropy_genesis :
    (Contribution.genesis toyEngine 1 1).hasEntropy toyEngine = false ∧
    (Contribution.genesis toyEngine 1 1).addTau toyEngine 2 .none =
      (⟨⟨[1], [1]⟩, 2, ⟨some 2⟩⟩, .ok ()) ∧
    (⟨⟨[1], [1]⟩, 2, ⟨some 2⟩⟩ : Contribution Nat Nat).hasEntropy toyEngine = true := by
  have h0 : (Contribution.genesis toyEngine 1 1).hasEntropy toyEngine = false := by decide
  have h : (Contribution.genesis toyEngine 1 1).addTau toyEngine 2 .none =
      (⟨⟨[1], [1]⟩, 2, ⟨some 2⟩⟩, .ok ()) := by decide
  exact ⟨h0, h, addTau_hasEntropy toyEngine h0 (by decide) (by decide) h⟩

end KzgCeremony.AddTau
