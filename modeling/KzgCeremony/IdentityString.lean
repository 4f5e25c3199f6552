import KzgCeremony.Text

/-!
# Identities and their string form

An `Identity` is what a contributor signs in with: nothing, an Ethereum address
or a GitHub account. Its `Display` string is the message the BLS signature binds
and the key the contributor log uses; `Serialize` writes that string and
`Deserialize` reads it back through `from_str`. The parser splits on `|` and
checks the field count before it reads the fields. Its Ethereum arm slices the
address field by bytes, which panics inside a multi-byte character. Usernames
are written unescaped, so a username holding `|` does not read back. The
parser also accepts spellings that `Display` never writes, through
`hex::decode` and `u64::from_str`: uppercase address digits, and a sign and
leading zeros on the GitHub id. These are the only ones. `Display` itself is
injective, so distinct
identities never sign the same message.
-/

namespace KzgCeremony.IdentityString

open Text

/-- An Ethereum address, `[u8; 20]`. -/
structure Address where
  /-- The address bytes. -/
  bytes : List UInt8
  /-- The array length of `[u8; 20]`. -/
  length_eq : bytes.length = 20
  deriving DecidableEq

/-- `Identity`: no account, an Ethereum address, or a GitHub id with its username. -/
inductive Identity where
  | none
  | ethereum (address : Address)
  | github (id : UInt64) (username : List Char)
  deriving DecidableEq

/-- `IdentityError`, one kind per way a string fails to parse. -/
inductive IdentityError where
  | unsupportedType
  | missingField
  | tooManyFields
  | invalidEthereumAddress
  | invalidGithubId
  deriving DecidableEq

/-- The `Display` messages of `IdentityError`, which `Deserialize` reports. -/
def IdentityError.message : IdentityError → List Char
  | .unsupportedType => "invalid identity".toList
  | .missingField => "Missing fields".toList
  | .tooManyFields => "Too many fields".toList
  | .invalidEthereumAddress => "Invalid Ethereum address".toList
  | .invalidGithubId => "Invalid Github ID".toList

/-- `Display for Identity`. -/
def Identity.toString : Identity → List Char
  | .none => []
  | .ethereum address => "eth|0x".toList ++ hexEncode address.bytes
  | .github id username => "git|".toList ++ displayU64 id ++ '|' :: username

/-- The checks of the `eth` arm after its byte slices: the `0x` prefix, then
`hex::decode` and the `try_into` of `[u8; 20]`. -/
def decodeAddress (halves : List Char × List Char) : Except IdentityError Address :=
  if halves.1 ≠ "0x".toList then .error .invalidEthereumAddress
  else match hexDecode halves.2 with
    | some bytes => if h : bytes.length = 20 then .ok ⟨bytes, h⟩ else .error .invalidEthereumAddress
    | none => .error .invalidEthereumAddress

/-- The `eth` arm of `from_str`, given the fields after the tag. The result is
`none` where `&address[..2]` or `&address[2..]` panics. -/
def parseEthereum : List (List Char) → Option (Except IdentityError Identity)
  | [] => some (.error .missingField)
  | address :: rest =>
    if rest ≠ [] then some (.error .tooManyFields)
    else if byteLen address ≠ 42 then some (.error .invalidEthereumAddress)
    else (splitAtByte address 2).map fun halves => Identity.ethereum <$> decodeAddress halves

/-- The `git` arm of `from_str`, given the fields after the tag. -/
def parseGithub : List (List Char) → Except IdentityError Identity
  | [] | [_] => .error .missingField
  | id :: username :: rest =>
    if rest ≠ [] then .error .tooManyFields
    else match parseU64 id with
      | some id => .ok (.github id username)
      | none => .error .invalidGithubId

/-- The empty-tag arm of `from_str`, given the fields after the tag. -/
def parseNone (rest : List (List Char)) : Except IdentityError Identity :=
  if rest ≠ [] then .error .tooManyFields else .ok .none

/-- `Identity::from_str`. The outer `none` stands for a panic. -/
def fromStr (s : List Char) : Option (Except IdentityError Identity) :=
  match s.splitOn '|' with
  | tag :: fields =>
    if tag = "eth".toList then parseEthereum fields
    else if tag = "git".toList then some (parseGithub fields)
    else if tag = [] then some (parseNone fields)
    else some (.error .unsupportedType)
  | [] => some (.error .unsupportedType)

/-- `Serialize for Identity`: the `Display` string, as one JSON string. -/
def serialize (identity : Identity) : List Char := identity.toString

/-- `Deserialize for Identity`: `from_str`, with the error's message as the serde error. -/
def deserialize (s : List Char) : Option (Except (List Char) Identity) :=
  (fromStr s).map (Except.mapError IdentityError.message)

/-- Whether the fields of an identity's string are free of the separator; only a
GitHub username can hold one. -/
def Identity.SeparatorFree : Identity → Prop
  | .github _ username => '|' ∉ username
  | _ => True

instance : DecidablePred Identity.SeparatorFree
  | .none => isTrue trivial
  | .ethereum _ => isTrue trivial
  | .github _ username => inferInstanceAs (Decidable ('|' ∉ username))

/-! ### Splitting on the separator -/

theorem splitOn_of_not_mem {xs : List Char} (h : '|' ∉ xs) : xs.splitOn '|' = [xs] :=
  List.splitOnP_eq_single _ xs fun x hx => by simpa using ne_of_mem_of_not_mem hx h

theorem splitOn_append_sep {xs : List Char} (h : '|' ∉ xs) (ys : List Char) :
    (xs ++ '|' :: ys).splitOn '|' = xs :: ys.splitOn '|' :=
  List.splitOnP_first _ xs (fun x hx => by simpa using ne_of_mem_of_not_mem hx h) '|' (by simp) ys

/-- A string holding the separator splits into at least two fields. -/
theorem splitOn_of_mem {ys : List Char} (h : '|' ∈ ys) :
    ∃ a b rest, ys.splitOn '|' = a :: b :: rest := by
  induction ys with
  | nil => cases h
  | cons c ys ih =>
    simp only [List.splitOn, List.splitOnP_cons]
    by_cases hc : c = '|'
    · obtain ⟨b, rest, he⟩ := List.exists_cons_of_ne_nil (List.splitOnP_ne_nil (· == '|') ys)
      exact ⟨[], b, rest, by simp [hc, he]⟩
    · obtain ⟨a, b, rest, he⟩ := ih (List.mem_of_ne_of_mem (Ne.symm hc) h)
      exact ⟨c :: a, b, rest, by simp only [List.splitOn] at he; simp [hc, he]⟩

/-- No field produced by splitting holds the separator. -/
theorem not_mem_of_mem_splitOn {xs l : List Char} (h : l ∈ xs.splitOn '|') : '|' ∉ l := by
  induction xs generalizing l with
  | nil => simp_all [List.splitOn]
  | cons c xs ih =>
    simp only [List.splitOn, List.splitOnP_cons] at h ih
    by_cases hc : c = '|'
    · rw [if_pos (by simp [hc]), List.mem_cons] at h
      rcases h with rfl | h
      · simp
      · exact ih h
    · obtain ⟨a, rest, he⟩ := List.exists_cons_of_ne_nil (List.splitOnP_ne_nil (· == '|') xs)
      rw [if_neg (by simp [hc]), he, List.modifyHead, List.mem_cons] at h
      rcases h with rfl | h
      · simp only [List.mem_cons, not_or]
        exact ⟨Ne.symm hc, ih (by simp [he])⟩
      · exact ih (by simp [he, h])

theorem sep_not_mem_hexEncode (bs : List UInt8) : '|' ∉ hexEncode bs := by
  induction bs with
  | nil => simp
  | cons b bs ih =>
    have hb : b.toNat < 256 := b.toNat_lt_size
    have hd : ∀ d < 16, '|' ≠ Nat.digitChar d := by decide
    simp [hd _ (show b.toNat / 16 < 16 by omega), hd _ (show b.toNat % 16 < 16 by omega), ih]

theorem sep_not_mem_displayU64 (n : UInt64) : '|' ∉ displayU64 n := by
  intro h
  simpa using isDigit_of_mem_toDigits h

/-! ### Reading back the `Display` string -/

/-- An `eth` string splits into its tag and its address field. -/
theorem splitOn_eth {hex : List Char} (h : '|' ∉ hex) :
    ("eth|0x".toList ++ hex).splitOn '|' = ["eth".toList, "0x".toList ++ hex] := by
  show (['e', 't', 'h'] ++ '|' :: (['0', 'x'] ++ hex)).splitOn '|' = _
  rw [splitOn_append_sep (by decide), splitOn_of_not_mem (by simpa using h)]
  rfl

/-- A `git` string splits into its tag, its id field and the fields of the rest. -/
theorem splitOn_git {idText : List Char} (h : '|' ∉ idText) (rest : List Char) :
    ("git|".toList ++ idText ++ '|' :: rest).splitOn '|' =
      "git".toList :: idText :: rest.splitOn '|' := by
  show (['g', 'i', 't'] ++ '|' :: (idText ++ '|' :: rest)).splitOn '|' = _
  rw [splitOn_append_sep (by decide), splitOn_append_sep h]
  rfl

theorem splitOn_toString_ethereum (address : Address) :
    (Identity.ethereum address).toString.splitOn '|' =
      ["eth".toList, "0x".toList ++ hexEncode address.bytes] :=
  splitOn_eth (sep_not_mem_hexEncode address.bytes)

theorem splitOn_toString_github (id : UInt64) (username : List Char) :
    (Identity.github id username).toString.splitOn '|' =
      "git".toList :: displayU64 id :: username.splitOn '|' :=
  splitOn_git (sep_not_mem_displayU64 id) username

/-- The `eth` arm accepts an address field of `0x` and forty digits of either case. -/
theorem parseEthereum_of_hexDecode {hex : List Char} {address : Address}
    (h : hexDecode hex = some address.bytes) :
    parseEthereum ["0x".toList ++ hex] = some (.ok (.ethereum address)) := by
  have hlen : byteLen ("0x".toList ++ hex) = 42 := by
    rw [byteLen_append, byteLen_of_hexDecode h, address.length_eq]; rfl
  have hsplit := splitAtByte_append (a := "0x".toList) (b := hex)
  rw [show byteLen "0x".toList = 2 from rfl] at hsplit
  rw [parseEthereum, if_neg (by simp), if_neg (not_not.2 hlen), hsplit]
  simp [decodeAddress, h, address.length_eq, Functor.map, Except.map]

theorem parseEthereum_hexEncode (address : Address) :
    parseEthereum ["0x".toList ++ hexEncode address.bytes] = some (.ok (.ethereum address)) :=
  parseEthereum_of_hexDecode (hexDecode_hexEncode address.bytes)

theorem parseGithub_displayU64 (id : UInt64) (username : List Char) :
    parseGithub (displayU64 id :: username.splitOn '|') =
      if '|' ∈ username then .error .tooManyFields else .ok (.github id username) := by
  by_cases h : '|' ∈ username
  · obtain ⟨a, b, rest, he⟩ := splitOn_of_mem h
    simp [parseGithub, he, h]
  · simp [parseGithub, splitOn_of_not_mem h, h, parseU64_displayU64]

/-- `from_str` reads the `Display` string back, unless a username holds the separator,
which makes one field too many. -/
theorem fromStr_toString (i : Identity) :
    fromStr i.toString = some (if i.SeparatorFree then .ok i else .error .tooManyFields) := by
  cases i with
  | none => rfl
  | ethereum address =>
    simp only [fromStr, splitOn_toString_ethereum, if_pos, parseEthereum_hexEncode]
    simp [Identity.SeparatorFree]
  | github id username =>
    simp only [fromStr, splitOn_toString_github, parseGithub_displayU64]
    by_cases h : '|' ∈ username <;> simp [h, Identity.SeparatorFree]

/-- `Deserialize` undoes `Serialize`, and `from_str` undoes `Display`, on every identity
whose username holds no separator; otherwise both report one field too many. -/
theorem deserialize_serialize (i : Identity) :
    fromStr i.toString = some (if i.SeparatorFree then .ok i else .error .tooManyFields) ∧
    deserialize (serialize i) =
      some (if i.SeparatorFree then .ok i else .error IdentityError.tooManyFields.message) := by
  refine ⟨fromStr_toString i, ?_⟩
  rw [deserialize, serialize, fromStr_toString]
  split_ifs <;> rfl

/-- A username holding the separator does not read back. -/
theorem fromStr_toString_separator_username :
    fromStr (Identity.github 1 "a|b".toList).toString ≠ some (.ok (.github 1 "a|b".toList)) := by
  decide

/-! ### Panics -/

theorem parseEthereum_eq_none_iff (fields : List (List Char)) :
    parseEthereum fields = none ↔
      ∃ address, fields = [address] ∧ byteLen address = 42 ∧ splitAtByte address 2 = none := by
  cases fields with
  | nil => simp [parseEthereum]
  | cons address rest =>
    by_cases hr : rest = []
    · subst hr
      by_cases hl : byteLen address = 42 <;> simp [parseEthereum, hl]
    · simp [parseEthereum, hr]

/-- The strings that split into the tag `eth` and one field. -/
theorem splitOn_eq_eth_iff {s address : List Char} :
    s.splitOn '|' = ["eth".toList, address] ↔ s = "eth|".toList ++ address ∧ '|' ∉ address := by
  constructor
  · intro h
    refine ⟨by rw [← List.intercalate_splitOn s '|', h]; simp [List.intercalate],
      @not_mem_of_mem_splitOn s address (by rw [h]; simp)⟩
  · rintro ⟨rfl, ha⟩
    show (['e', 't', 'h'] ++ '|' :: address).splitOn '|' = _
    rw [splitOn_append_sep (by decide), splitOn_of_not_mem ha]
    rfl

/-- `from_str` panics exactly on `eth|` followed by a field of 42 bytes that holds no separator
and has no prefix of two bytes: byte 2 of the address is no character boundary, so
`&address[..2]` panics. -/
theorem fromStr_eq_none_iff (s : List Char) :
    fromStr s = none ↔ ∃ address, s = "eth|".toList ++ address ∧ '|' ∉ address ∧
      byteLen address = 42 ∧ ∀ k, byteLen (address.take k) ≠ 2 := by
  have hsplit : fromStr s = none ↔ ∃ address, s.splitOn '|' = ["eth".toList, address] ∧
      byteLen address = 42 ∧ splitAtByte address 2 = none := by
    unfold fromStr
    split
    · next tag fields he =>
      rw [he]
      by_cases h1 : tag = "eth".toList
      · subst h1
        simp [parseEthereum_eq_none_iff]
      · rw [if_neg h1]
        refine ⟨fun h => ?_, fun ⟨_, ha, _⟩ => absurd (List.cons.inj ha).1 h1⟩
        split_ifs at h
    · next he => simp [he]
  simp only [hsplit, splitOn_eq_eth_iff, splitAtByte_eq_none_iff, and_assoc]

/-- An address field of 42 bytes whose second byte ends inside `é`. -/
theorem fromStr_panics_inside_char :
    fromStr ("eth|a".toList ++ 'é' :: List.replicate 39 '0') = none := by
  decide

/-- `from_str` accepts a `+` before the GitHub id, which `Display` never writes. -/
theorem fromStr_accepts_signed_id :
    fromStr "git|+123|u".toList = some (.ok (.github 123 "u".toList)) ∧
    (Identity.github 123 "u".toList).toString ≠ "git|+123|u".toList := by
  decide

/-! ### The strings `from_str` accepts -/

/-- The checks after the byte slices pass exactly on `0x` and the hex digits of the address. -/
theorem decodeAddress_eq_ok {halves : List Char × List Char} {address : Address} :
    decodeAddress halves = .ok address ↔
      halves.1 = "0x".toList ∧ hexDecode halves.2 = some address.bytes := by
  rcases address with ⟨bytes', hlen'⟩
  unfold decodeAddress
  by_cases h0 : halves.1 = "0x".toList
  · rw [if_neg (not_not.2 h0)]
    cases hexDecode halves.2 with
    | none => simp
    | some bytes =>
      by_cases hl : bytes.length = 20
      · simp [hl, h0]
      · dsimp only
        rw [dif_neg hl]
        simp only [reduceCtorEq, Option.some.injEq, false_iff, not_and]
        rintro - rfl
        exact hl hlen'
  · rw [if_pos h0]
    exact ⟨nofun, fun h => absurd h.1 h0⟩

/-- The `eth` arm accepts one field, `0x` and the address in hex digits of either case. -/
theorem parseEthereum_eq_ok {fields : List (List Char)} {i : Identity} :
    parseEthereum fields = some (.ok i) ↔ ∃ address hex, i = .ethereum address ∧
      fields = ["0x".toList ++ hex] ∧ hex.map Char.toLower = hexEncode address.bytes := by
  constructor
  · intro h
    match fields, h with
    | address :: rest, h =>
      simp only [parseEthereum] at h
      split_ifs at h with hr hl
      · cases h
      · cases h
      · obtain rfl : rest = [] := not_not.1 hr
        obtain ⟨halves, hs, hd⟩ := Option.map_eq_some'.1 h
        rcases hdec : decodeAddress halves with e | a
        · rw [hdec] at hd; cases hd
        · rw [hdec] at hd; cases hd
          obtain ⟨h0, hhex⟩ := decodeAddress_eq_ok.1 hdec
          obtain ⟨rfl, -⟩ := splitAtByte_eq_some.1 hs
          exact ⟨a, halves.2, rfl, by rw [h0], (hexEncode_hexDecode hhex).symm⟩
  · rintro ⟨address, hex, rfl, rfl, hlow⟩
    have hdec : hexDecode hex = some address.bytes := by
      rw [← hexDecode_map_toLower, hlow, hexDecode_hexEncode]
    exact parseEthereum_of_hexDecode hdec

/-- An id field that `u64::from_str` accepts holds no separator. -/
theorem sep_not_mem_of_parseU64 {idText : List Char} {id : UInt64} (h : parseU64 idText = some id) :
    '|' ∉ idText := by
  obtain ⟨sign, zeros, hsign, hz, rfl⟩ := parseU64_eq_some_iff.1 h
  simp only [List.mem_append, not_or]
  exact ⟨⟨by rcases hsign with rfl | rfl <;> decide, fun hm => absurd (hz _ hm) (by decide)⟩,
    sep_not_mem_displayU64 id⟩

/-- The `git` arm accepts an id field `u64::from_str` reads and a username field. -/
theorem parseGithub_eq_ok_iff {fields : List (List Char)} {i : Identity} :
    parseGithub fields = .ok i ↔ ∃ id username idText, i = .github id username ∧
      fields = [idText, username] ∧ parseU64 idText = some id := by
  constructor
  · intro h
    match fields, h with
    | idText :: username :: rest, h =>
      simp only [parseGithub] at h
      split_ifs at h with hr
      obtain rfl : rest = [] := not_not.1 hr
      cases hp : parseU64 idText with
      | none => rw [hp] at h; cases h
      | some id => rw [hp] at h; cases h; exact ⟨id, username, idText, rfl, rfl, hp⟩
  · rintro ⟨id, username, idText, rfl, rfl, hp⟩
    simp [parseGithub, hp]

/-- The empty-tag arm accepts nothing after the tag. -/
theorem parseNone_eq_ok {fields : List (List Char)} {i : Identity} :
    parseNone fields = .ok i ↔ i = .none ∧ fields = [] := by
  unfold parseNone
  by_cases h : fields = [] <;> simp [h, eq_comm]

/-- The strings `from_str` accepts, and what it reads from each: the empty string; `eth|0x`
and forty hex digits of either case, which `Display` writes back in lowercase; `git|`, the id in
decimal after an optional `+` and any number of leading zeros, `|`, and a username holding no
separator. Every accepted string is thus the `Display` string of its identity, up to the case of
the address digits and the sign and leading zeros of the id. -/
theorem fromStr_eq_ok_iff {s : List Char} {i : Identity} :
    fromStr s = some (.ok i) ↔
      (i = .none ∧ s = []) ∨
      (∃ address hex, i = .ethereum address ∧ s = "eth|0x".toList ++ hex ∧
        hex.map Char.toLower = hexEncode address.bytes) ∨
      (∃ id username sign zeros, i = .github id username ∧ '|' ∉ username ∧
        (sign = [] ∨ sign = ['+']) ∧ (∀ c ∈ zeros, c = '0') ∧
        s = "git|".toList ++ sign ++ zeros ++ displayU64 id ++ '|' :: username) := by
  constructor
  · intro h
    unfold fromStr at h
    split at h
    · next tag fields he =>
      have hs : s = ['|'].intercalate (tag :: fields) := by rw [← he, List.intercalate_splitOn]
      split_ifs at h with h1 h2 h3
      · obtain ⟨a, hex, rfl, rfl, hlow⟩ := parseEthereum_eq_ok.1 h
        subst h1
        exact .inr (.inl ⟨a, hex, rfl, by simp [hs, List.intercalate], hlow⟩)
      · obtain ⟨id, u, idText, rfl, rfl, hp⟩ := parseGithub_eq_ok_iff.1 (Option.some.inj h)
        obtain ⟨sign, zeros, hsign, hz, rfl⟩ := parseU64_eq_some_iff.1 hp
        have hu : '|' ∉ u := not_mem_of_mem_splitOn (by rw [he]; simp)
        subst h2
        exact .inr (.inr ⟨id, u, sign, zeros, rfl, hu, hsign, hz, by simp [hs, List.intercalate]⟩)
      · obtain ⟨rfl, rfl⟩ := parseNone_eq_ok.1 (Option.some.inj h)
        subst h3
        exact .inl ⟨rfl, hs⟩
      · cases h
    · cases h
  · rintro (⟨rfl, rfl⟩ | ⟨a, hex, rfl, rfl, hlow⟩ | ⟨id, u, sign, zeros, rfl, hu, hsign, hz, rfl⟩)
    · rfl
    · -- the digits hold no separator, since their lowercase forms are `hex::encode`'s
      have hsep : '|' ∉ hex := fun hm =>
        sep_not_mem_hexEncode a.bytes (hlow ▸ List.mem_map_of_mem Char.toLower hm)
      simp only [fromStr, splitOn_eth hsep, if_pos]
      exact parseEthereum_eq_ok.2 ⟨a, hex, rfl, rfl, hlow⟩
    · have hp : parseU64 (sign ++ zeros ++ displayU64 id) = some id :=
        parseU64_eq_some_iff.2 ⟨sign, zeros, hsign, hz, rfl⟩
      have hs : "git|".toList ++ sign ++ zeros ++ displayU64 id ++ '|' :: u =
          "git|".toList ++ (sign ++ zeros ++ displayU64 id) ++ '|' :: u := by
        simp only [List.append_assoc]
      rw [hs, fromStr, splitOn_git (sep_not_mem_of_parseU64 hp), splitOn_of_not_mem hu]
      simp only [↓reduceIte]
      exact congrArg some (parseGithub_eq_ok_iff.2 ⟨id, u, _, rfl, rfl, hp⟩)

/-! ### Distinct identities print differently -/

/-- Cutting at the first separator: two strings that agree after fields holding no separator
agree field by field. -/
theorem append_sep_inj {a a' b b' : List Char} (ha : '|' ∉ a) (ha' : '|' ∉ a')
    (h : a ++ '|' :: b = a' ++ '|' :: b') : a = a' ∧ b = b' := by
  have hs := congrArg (fun l => l.splitOn '|') h
  simp only [splitOn_append_sep ha, splitOn_append_sep ha'] at hs
  obtain rfl := (List.cons.inj hs).1
  exact ⟨rfl, (List.cons.inj (List.append_cancel_left h)).2⟩

/-- `Display` is injective: distinct identities sign distinct messages. This holds for every
identity, a username holding `|` included, since the id before it holds no separator. -/
theorem toString_injective : Function.Injective Identity.toString := by
  intro i j h
  have hhead := congrArg List.head? h
  rcases i with _ | a | ⟨id, u⟩ <;> rcases j with _ | b | ⟨id', u'⟩ <;> cases hhead
  · rfl
  · -- two addresses: `hex::decode` reads each back
    have hb := congrArg hexDecode (List.append_cancel_left h)
    rw [hexDecode_hexEncode, hexDecode_hexEncode, Option.some.injEq] at hb
    rcases a with ⟨_, _⟩; rcases b with ⟨_, _⟩
    cases hb; rfl
  · -- two GitHub accounts: the id holds no separator, and `u64::from_str` reads it back
    obtain ⟨hid, rfl⟩ := append_sep_inj (sep_not_mem_displayU64 id) (sep_not_mem_displayU64 id')
      (List.append_cancel_left (by simpa only [Identity.toString, List.append_assoc] using h))
    have := congrArg parseU64 hid
    rw [parseU64_displayU64, parseU64_displayU64, Option.some.injEq] at this
    rw [this]

end KzgCeremony.IdentityString
