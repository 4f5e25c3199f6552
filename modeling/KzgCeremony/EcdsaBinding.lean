import KzgCeremony.AddTau

/-!
# The ECDSA binding of a batch

For an Ethereum identity, `signature/mod.rs` binds a batch's public keys to the address with an
EIP-712 signature over the typed data `PoTPubkeys`: one entry per contribution, with the lengths
of its two vectors and its public key. `EcdsaSignature::prune` keeps the signature only for an
Ethereum identity, and only when the typed data encodes and the signature verifies against the
address; a failure of either `ethers` call drops it through `.ok()?`. The EIP-712 encoding and
the signature check belong to `ethers` and are parameters here, as are the signature type and
the typed data. After any successful run of `add_tau` from the genesis contribution, the entry
the signature binds holds the genesis sizes and the key of the product of the run's scalars, and
`prune` keeps a signature exactly when the identity is an address and the typed data of those
entries encodes and verifies against it.
-/

namespace KzgCeremony.EcdsaBinding

open CurveEngine IdentityString AddTau

/-- `EcdsaSignature`: an Ethereum signature, or nothing when unsigned or pruned. -/
structure EcdsaSignature (S : Type) where
  /-- The signature, if any. -/
  signature : Option S
  deriving DecidableEq

/-- `EcdsaSignature::empty`. -/
def EcdsaSignature.empty {S : Type} : EcdsaSignature S := ⟨none⟩

section Prune

variable {S T ε ε' : Type} (encode : T → Except ε (List UInt8))
  (verify : S → List UInt8 → Address → Except ε' Unit)

/-- `EcdsaSignature::prune`, with `Eip712::encode_eip712` of the typed data as `encode` and
`Signature::verify` against an address as `verify`. -/
def EcdsaSignature.prune (sig : EcdsaSignature S) (identity : Identity) (data : T) :
    EcdsaSignature S :=
  ⟨sig.signature.bind fun s =>
    match identity with
    | .ethereum address => do
      let message ← (encode data).toOption
      (verify s message address).toOption
      some s
    | _ => none⟩

/-- Pruning keeps a present signature exactly for an Ethereum identity whose typed data
encodes and under whose address the signature verifies. -/
theorem EcdsaSignature.prune_eq_self_iff (s : S) (identity : Identity) (data : T) :
    (⟨some s⟩ : EcdsaSignature S).prune encode verify identity data = ⟨some s⟩ ↔
      ∃ address message, identity = .ethereum address ∧ encode data = .ok message ∧
        verify s message address = .ok () := by
  cases identity with
  | ethereum address =>
    cases h : encode data with
    | error e => simp [EcdsaSignature.prune, h, Except.toOption]
    | ok message =>
      cases hv : verify s message address <;> simp [EcdsaSignature.prune, h, hv, Except.toOption]
  | _ => simp [EcdsaSignature.prune]

end Prune

/-! ### The typed data -/

/-- `PubkeyTypedData`: what the signature binds of one contribution. -/
structure PubkeyTypedData (P2 : Type) where
  /-- The length of the G1 powers. -/
  numG1Powers : Nat
  /-- The length of the G2 powers. -/
  numG2Powers : Nat
  /-- The public key. -/
  potPubkey : P2
  deriving DecidableEq

/-- Modelled from the spec: `BatchContribution`, the contributions of one contributor, one
per sub-ceremony. -/
structure BatchContribution (P1 P2 : Type) where
  /-- The contributions, in sub-ceremony order. -/
  contributions : List (Contribution P1 P2)

/-- `ContributionTypedData`: the entries of `PoTPubkeys`. -/
structure ContributionTypedData (P2 : Type) where
  /-- One entry per contribution. -/
  potPubkeys : List (PubkeyTypedData P2)
  deriving DecidableEq

/-- `From<&BatchContribution> for ContributionTypedData`. -/
def ContributionTypedData.ofBatch {P1 P2 : Type} (batch : BatchContribution P1 P2) :
    ContributionTypedData P2 :=
  ⟨batch.contributions.map fun c => ⟨c.powers.g1.length, c.powers.g2.length, c.potPubkey⟩⟩

/- Each `[Module F G]` binder needs `AddCommMonoid G`, which the default order of instances finds
only after trying the rest of the algebraic hierarchy. -/
attribute [local instance (high)] AddCommGroup.toAddCommMonoid

variable {F G1 G2 GT C1 C2 P1 P2 : Type} [Field F] [AddCommGroup G1] [Module F G1]
  [AddCommGroup G2] [Module F G2] [AddCommGroup GT] [Module F GT]
  (E : Engine F G1 G2 GT C1 C2 P1 P2)

/-- After a successful run of `add_tau` from the genesis contribution, the entry the signature
binds holds the genesis sizes and the key of the product of the run's scalars. -/
theorem pubkeyTypedData_addTauRun {n1 n2 : Nat} {calls : List (F × Identity)}
    {c : Contribution P1 P2} (h : (Contribution.genesis E n1 n2).addTauRun E calls = (c, .ok ())) :
    (⟨c.powers.g1.length, c.powers.g2.length, c.potPubkey⟩ : PubkeyTypedData P2) =
      ⟨n1, n2, E.g2.encode ((calls.map Prod.fst).prod • E.g2One)⟩ := by
  have hrun := addTauRun_induction E
    (fun x c => c.powers.g1.length = n1 ∧ c.powers.g2.length = n2 ∧
      c.potPubkey = E.g2.encode (x • E.g2One))
    (fun hx h => ⟨(addTau_lengths E h).1.trans hx.1, (addTau_lengths E h).2.trans hx.2.1,
      addTau_potPubkey E hx.2.2 h⟩)
    (x := 1) ⟨by simp [Contribution.genesis, Powers.new],
      by simp [Contribution.genesis, Powers.new], by rw [one_smul]; rfl⟩ h
  rw [mul_one] at hrun
  rw [hrun.1, hrun.2.1, hrun.2.2]

/-- After a successful run of `add_tau` on the genesis contribution of each sub-ceremony, the
typed data the signature binds lists the sub-ceremonies' sizes and accumulated keys. -/
theorem ofBatch_addTauRun (subs : List ((Nat × Nat) × List (F × Identity)))
    (batch : BatchContribution P1 P2)
    (h : List.Forall₂ (fun sub c =>
      (Contribution.genesis E sub.1.1 sub.1.2).addTauRun E sub.2 = (c, .ok ())) subs
      batch.contributions) :
    (ContributionTypedData.ofBatch batch).potPubkeys = subs.map fun sub =>
      ⟨sub.1.1, sub.1.2, E.g2.encode ((sub.2.map Prod.fst).prod • E.g2One)⟩ := by
  rcases batch with ⟨cs⟩
  dsimp only [ContributionTypedData.ofBatch] at h ⊢
  induction h with
  | nil => rfl
  | cons hc _ ih => rw [List.map_cons, List.map_cons, pubkeyTypedData_addTauRun E hc, ih]

/-- After a successful run of `add_tau` on the genesis contribution of each sub-ceremony,
pruning keeps a batch's ECDSA signature exactly when the identity is an Ethereum address and
the signature verifies under it over the EIP-712 encoding of the sub-ceremonies' sizes and
accumulated keys: what the signature binds is the genesis sizes and, per sub-ceremony, the key
of the product of the run's scalars. -/
theorem prune_ofBatch_addTauRun {S ε ε' : Type}
    (encode : ContributionTypedData P2 → Except ε (List UInt8))
    (verify : S → List UInt8 → Address → Except ε' Unit) (s : S) (identity : Identity)
    (subs : List ((Nat × Nat) × List (F × Identity))) (batch : BatchContribution P1 P2)
    (h : List.Forall₂ (fun sub c =>
      (Contribution.genesis E sub.1.1 sub.1.2).addTauRun E sub.2 = (c, .ok ())) subs
      batch.contributions) :
    (⟨some s⟩ : EcdsaSignature S).prune encode verify identity (.ofBatch batch) = ⟨some s⟩ ↔
      ∃ address message, identity = .ethereum address ∧
        encode ⟨subs.map fun sub =>
          ⟨sub.1.1, sub.1.2, E.g2.encode ((sub.2.map Prod.fst).prod • E.g2One)⟩⟩ = .ok message ∧
        verify s message address = .ok () := by
  rw [EcdsaSignature.prune_eq_self_iff, ← ofBatch_addTauRun E subs batch h]

/-- One sub-ceremony of the small engine after one call with `τ = 2`, under an encoding that
lists the keys and a check that accepts the message `[2]` alone: the signature is kept. -/
theorem prune_ofBatch_addTauRun_toy :
    (⟨some ()⟩ : EcdsaSignature Unit).prune
        (fun (d : ContributionTypedData Nat) =>
          (.ok (d.potPubkeys.map fun e => e.potPubkey.toUInt8) : Except Unit (List UInt8)))
        (fun (_ : Unit) (m : List UInt8) (_ : Address) =>
          (if m = [2] then .ok () else .error () : Except Unit Unit))
        (.ethereum ⟨List.replicate 20 0, rfl⟩)
        (.ofBatch (⟨[⟨⟨[1], [1]⟩, 2, ⟨some 2⟩⟩]⟩ : BatchContribution Nat Nat)) = ⟨some ()⟩ :=
  (prune_ofBatch_addTauRun toyEngine _ _ () _ [((1, 1), [(2, .none)])] _
    (.cons (by decide) .nil)).2 ⟨_, [2], rfl, by decide, by decide⟩

end KzgCeremony.EcdsaBinding
