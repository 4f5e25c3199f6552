import Mathlib.Data.List.AList

/-!
# The lobby and the contributor store

`SharedLobbyState` and `PersistentStorage` live in `lobby.rs` and `storage.rs`, which are not
among the sources; the handler `try_contribute` of `api/v1/lobby.rs` only calls them. Their
methods are modelled here from the spec's lobby state machine and storage contract. The
lobby holds the registered sessions by id, each with its token's unique identifier and the
two rate-limit fields, and at most one active slot. Every method runs under the one lobby
lock, so each is one function of the lobby state; the methods that touch the slot first
clear it once its deadline has come. Instants and durations are natural numbers.
-/

namespace KzgCeremony.Lobby

/-- Modelled from the spec: `SessionInfo` of the missing `lobby.rs`: the unique identifier of
the session's token, the instant of its last check-in, and whether it has not checked in. -/
structure SessionInfo where
  /-- `token.unique_identifier()`, the key of the contributor log. -/
  uid : List Char
  /-- `last_ping_time`. -/
  lastPingTime : Nat
  /-- `is_first_ping_attempt`, set at registration. -/
  isFirstPingAttempt : Bool
deriving DecidableEq, Repr

/-- Modelled from the spec: the active slot: its session, its deadline, and the session's
record, moved out of the lobby when the session was promoted. -/
structure ActiveSlot where
  /-- The session holding the slot. -/
  sessionId : Nat
  /-- The instant from which the slot counts as expired. -/
  deadline : Nat
  /-- The promoted session's record. -/
  info : SessionInfo
deriving DecidableEq, Repr

/-- Modelled from the spec: `LobbyState`, the registered sessions by id (keys unique) and
the slot, so that at most one session is active. -/
structure LobbyState where
  /-- The registered sessions. -/
  sessions : AList fun _ : Nat => SessionInfo
  /-- The active contributor, if any. -/
  active : Option ActiveSlot
deriving DecidableEq

/-- Modelled from the spec: the lobby options `try_contribute` reads: `min_checkin_delay`,
`compute_deadline`, and the capacity of the lobby. -/
structure LobbyOptions where
  /-- The least time between two check-ins of a session. -/
  minCheckinDelay : Nat
  /-- The time a promoted session has to contribute. -/
  computeDeadline : Nat
  /-- The most sessions the lobby registers. -/
  maxSessionsCount : Nat

/-- `ActiveContributorError` of the missing `lobby.rs`, with the variants the `From` impl of
`api/v1/lobby.rs` matches on. -/
inductive ActiveContributorError where
  | anotherContributionInProgress
  | notUsersTurn
  | userNotInLobby
  | notActiveContributor
  | sessionCountLimitExceeded
  | lobbySizeLimitExceeded
  | rateLimited
deriving DecidableEq, Repr

namespace LobbyState

/-- The empty lobby. -/
def empty : LobbyState := ⟨∅, none⟩

/-- Modelled from the spec: a slot whose deadline has come is cleared. -/
def expire (now : Nat) (st : LobbyState) : LobbyState :=
  match st.active with
  | some slot => if slot.deadline ≤ now then ⟨st.sessions, none⟩ else st
  | none => st

@[simp] theorem sessions_expire (now : Nat) (st : LobbyState) :
    (st.expire now).sessions = st.sessions := by
  unfold expire; split <;> [split <;> rfl; rfl]

/-- The slot after `expire`: kept exactly while its deadline is ahead. -/
theorem active_expire (now : Nat) (st : LobbyState) :
    (st.expire now).active = st.active.filter fun slot => now < slot.deadline := by
  unfold expire
  rcases st with ⟨_, _ | slot⟩
  · rfl
  · by_cases h : slot.deadline ≤ now <;> simp [h, Option.filter, Nat.not_le.1, Nat.not_lt.2]

/-- `expire` keeps the slot or clears it. -/
theorem active_expire_eq (now : Nat) (st : LobbyState) :
    (st.expire now).active = none ∨ (st.expire now).active = st.active := by
  unfold expire
  split
  · split_ifs <;> simp
  · simp

/-- A slot whose deadline is ahead survives `expire`. -/
theorem expire_of_lt {st : LobbyState} {slot : ActiveSlot} {now : Nat} (h : st.active = some slot)
    (hlt : now < slot.deadline) : st.expire now = st := by
  unfold expire
  rw [h]
  exact if_neg (Nat.not_le.2 hlt)

/-- Modelled from the spec: `modify_participant`: under the lock, run `f` on the session's
record and write the record back in place; `none` when no such session is registered. -/
def modifyParticipant {α : Type} (s : Nat) (f : SessionInfo → SessionInfo × α)
    (st : LobbyState) : LobbyState × Option α :=
  match st.sessions.lookup s with
  | some info => (⟨st.sessions.replace s (f info).1, st.active⟩, some (f info).2)
  | none => (st, none)

/-- Modelled from the spec: `insert_session` at registration: refused once the lobby holds
its capacity, otherwise the session is registered as never having checked in. The spec's
refusal of an identifier already in the contributor log reads the store, and is made where a
login reaches both (`Call.apply`). -/
def insertSession (opts : LobbyOptions) (s : Nat) (uid : List Char) (now : Nat)
    (st : LobbyState) : LobbyState × Except ActiveContributorError Unit :=
  if opts.maxSessionsCount ≤ st.sessions.keys.length then (st, .error .sessionCountLimitExceeded)
  else (⟨st.sessions.insert s ⟨uid, now, true⟩, st.active⟩, .ok ())

/-- Modelled from the spec: `enter_lobby`. A registered session is already in the lobby, so
entering changes nothing; it fails with `LobbySizeLimitExceeded` when the lobby holds more
sessions than its capacity. -/
def enterLobby (opts : LobbyOptions) (_s : Nat) (st : LobbyState) :
    LobbyState × Except ActiveContributorError Unit :=
  if opts.maxSessionsCount < st.sessions.keys.length then (st, .error .lobbySizeLimitExceeded)
  else (st, .ok ())

/-- Modelled from the spec: `set_current_contributor`, the promotion (the spec's `try_promote`
without the rate limit, which `try_contribute` checks itself). After an expired slot is
cleared, it fails while a slot is held and for an unregistered session; otherwise the session
moves into the slot with the deadline `now + compute_deadline`. -/
def setCurrentContributor (opts : LobbyOptions) (s now : Nat) (st : LobbyState) :
    LobbyState × Except ActiveContributorError Unit :=
  let st := st.expire now
  match st.active, st.sessions.lookup s with
  | some _, _ => (st, .error .anotherContributionInProgress)
  | none, none => (st, .error .userNotInLobby)
  | none, some info => (⟨st.sessions.erase s, some ⟨s, now + opts.computeDeadline, info⟩⟩, .ok ())

/-- Modelled from the spec: `clear_current_contributor`. -/
def clearCurrentContributor (st : LobbyState) : LobbyState := ⟨st.sessions, none⟩

/-- Modelled from the spec: `request_contribution_file_again`, for the session holding an
unexpired slot; a refetch is a check-in of the active session, rate limited by
`min_checkin_delay` as `lobby_try_contribute_test` expects. -/
def requestContributionFileAgain (opts : LobbyOptions) (s now : Nat) (st : LobbyState) :
    LobbyState × Except ActiveContributorError Unit :=
  let st := st.expire now
  match st.active with
  | some slot =>
    if slot.sessionId ≠ s then (st, .error .notActiveContributor)
    else if now < slot.info.lastPingTime + opts.minCheckinDelay then (st, .error .rateLimited)
    else (⟨st.sessions, some { slot with info := { slot.info with lastPingTime := now } }⟩, .ok ())
  | none => (st, .error .notActiveContributor)

/-- Modelled from the spec: `abort_contribution`: the active session gives up its slot. -/
def abortContribution (s now : Nat) (st : LobbyState) :
    LobbyState × Except ActiveContributorError Unit :=
  let st := st.expire now
  match st.active with
  | some slot =>
    if slot.sessionId = s then (⟨st.sessions, none⟩, .ok ()) else (st, .error .notActiveContributor)
  | none => (st, .error .notActiveContributor)

/-! ### What each method does to the registered sessions -/

/-- `kreplace` writes the new value under its key, if the key is present. -/
theorem dlookup_kreplace {β : Type} (a a' : Nat) (b : β) (l : List ((_ : Nat) × β)) :
    (l.kreplace a b).dlookup a' = if a' = a ∧ a' ∈ l.keys then some b else l.dlookup a' := by
  induction l with
  | nil => simp [List.kreplace]
  | cons x l ih =>
    rcases x with ⟨k, v⟩
    by_cases hk : a = k
    · subst hk
      rw [List.kreplace, List.lookmap_cons_some _ l (if_pos rfl)]
      by_cases ha : a' = a
      · subst ha; simp [List.dlookup_cons_eq]
      · simp [ha, List.dlookup_cons_ne _ (⟨a, b⟩ : (_ : ℕ) × β) ha,
          List.dlookup_cons_ne _ (⟨a, v⟩ : (_ : ℕ) × β) ha]
    · rw [List.kreplace, List.lookmap_cons_none _ l (if_neg hk), ← List.kreplace]
      by_cases ha : a' = k
      · subst ha; simp [Ne.symm hk, List.dlookup_cons_eq]
      · simp [List.dlookup_cons_ne _ (⟨k, v⟩ : (_ : ℕ) × β) ha, ih, ha]

/-- After `replace`, a present key reads the new value and every other key reads as before. -/
theorem lookup_replace {β : Type} (a a' : Nat) (b : β) (m : AList fun _ : Nat => β) :
    (m.replace a b).lookup a' = if a' = a ∧ a' ∈ m then some b else m.lookup a' := by
  simp only [AList.lookup, AList.replace, dlookup_kreplace, AList.mem_keys, AList.keys]

/-- `modify_participant` rewrites the record of `s` and no other. -/
theorem lookup_modifyParticipant {α : Type} (s s' : Nat) (f : SessionInfo → SessionInfo × α)
    (st : LobbyState) :
    (st.modifyParticipant s f).1.sessions.lookup s' =
      if s' = s then (st.sessions.lookup s).map fun info => (f info).1
      else st.sessions.lookup s' := by
  unfold modifyParticipant
  split <;> rename_i h
  · by_cases hs : s' = s
    · subst hs; simp [lookup_replace, h, ← AList.lookup_isSome]
    · simp [lookup_replace, hs]
  · split_ifs with hs
    · subst hs; simp [h]
    · rfl

/-- A closure that leaves the record as it was leaves the whole lobby as it was. -/
theorem modifyParticipant_fst_of_eq {α : Type} {s : Nat} {f : SessionInfo → SessionInfo × α}
    {st : LobbyState} {info : SessionInfo} (h : st.sessions.lookup s = some info)
    (hf : (f info).1 = info) : (st.modifyParticipant s f).1 = st := by
  simp only [modifyParticipant, h, hf]
  exact congrArg (LobbyState.mk · st.active)
    (AList.ext (List.kreplace_self st.sessions.nodupKeys (AList.mem_lookup_iff.1 h)))

@[simp] theorem active_modifyParticipant {α : Type} (s : Nat) (f : SessionInfo → SessionInfo × α)
    (st : LobbyState) : (st.modifyParticipant s f).1.active = st.active := by
  unfold modifyParticipant; split <;> rfl

@[simp] theorem sessions_clearCurrentContributor (st : LobbyState) :
    st.clearCurrentContributor.sessions = st.sessions := rfl

@[simp] theorem enterLobby_fst (opts : LobbyOptions) (s : Nat) (st : LobbyState) :
    (st.enterLobby opts s).1 = st := by
  unfold enterLobby; split <;> rfl

/-- Promotion removes at most the promoted session. -/
theorem sessions_setCurrentContributor (opts : LobbyOptions) (s now : Nat) (st : LobbyState) :
    (st.setCurrentContributor opts s now).1.sessions = st.sessions ∨
      (st.setCurrentContributor opts s now).1.sessions = st.sessions.erase s := by
  dsimp only [setCurrentContributor]; split <;> simp

@[simp] theorem sessions_requestContributionFileAgain (opts : LobbyOptions) (s now : Nat)
    (st : LobbyState) : (st.requestContributionFileAgain opts s now).1.sessions = st.sessions := by
  dsimp only [requestContributionFileAgain]; split <;> [split_ifs <;> simp; simp]

@[simp] theorem sessions_abortContribution (s now : Nat) (st : LobbyState) :
    (st.abortContribution s now).1.sessions = st.sessions := by
  dsimp only [abortContribution]; split <;> [split_ifs <;> simp; simp]

theorem sessions_insertSession (opts : LobbyOptions) (s : Nat) (uid : List Char) (now : Nat)
    (st : LobbyState) :
    (st.insertSession opts s uid now).1.sessions = st.sessions ∨
      (st.insertSession opts s uid now).1.sessions = st.sessions.insert s ⟨uid, now, true⟩ := by
  unfold insertSession; split_ifs <;> simp

/-! ### What each method can answer -/

/-- `enter_lobby` fails only with `LobbySizeLimitExceeded`. -/
theorem enterLobby_error {opts : LobbyOptions} {s : Nat} {st : LobbyState}
    {e : ActiveContributorError} (h : (st.enterLobby opts s).2 = .error e) :
    e = .lobbySizeLimitExceeded := by
  unfold enterLobby at h; split_ifs at h; cases h; rfl

/-- Within its capacity, the lobby lets every session enter. -/
theorem enterLobby_of_le {opts : LobbyOptions} {s : Nat} {st : LobbyState}
    (h : st.sessions.keys.length ≤ opts.maxSessionsCount) : st.enterLobby opts s = (st, .ok ()) :=
  if_neg (Nat.not_lt.2 h)

/-- Promotion fails only while a slot is held or for an unregistered session. -/
theorem setCurrentContributor_error {opts : LobbyOptions} {s now : Nat} {st : LobbyState}
    {e : ActiveContributorError} (h : (st.setCurrentContributor opts s now).2 = .error e) :
    e = .anotherContributionInProgress ∨ e = .userNotInLobby := by
  dsimp only [setCurrentContributor] at h; split at h <;> cases h <;> simp

/-- With no unexpired slot, a registered session is promoted. -/
theorem setCurrentContributor_of_free {opts : LobbyOptions} {s now : Nat} {st : LobbyState}
    {info : SessionInfo} (hfree : (st.expire now).active = none)
    (h : st.sessions.lookup s = some info) :
    st.setCurrentContributor opts s now =
      (⟨st.sessions.erase s, some ⟨s, now + opts.computeDeadline, info⟩⟩, .ok ()) := by
  simp only [setCurrentContributor, hfree, sessions_expire, h]

/-- A refetch answered `RateLimited` leaves the lobby as it was. -/
theorem requestContributionFileAgain_rateLimited {opts : LobbyOptions} {s now : Nat}
    {st : LobbyState} (h : (st.requestContributionFileAgain opts s now).2 = .error .rateLimited) :
    (st.requestContributionFileAgain opts s now).1 = st := by
  rcases st with ⟨sessions, _ | slot⟩
  · simp [requestContributionFileAgain, expire] at h
  · by_cases hd : slot.deadline ≤ now
    · simp [requestContributionFileAgain, expire, hd] at h
    · simp only [requestContributionFileAgain, expire, if_neg hd] at h ⊢
      split_ifs at h ⊢ <;> simp_all

/-- A refetch keeps the session and deadline of the slot `expire` leaves. -/
theorem sessionId_requestContributionFileAgain (opts : LobbyOptions) (s now : Nat)
    (st : LobbyState) :
    (st.requestContributionFileAgain opts s now).1.active.map (·.sessionId) =
      (st.expire now).active.map (·.sessionId) := by
  dsimp only [requestContributionFileAgain]
  split <;> rename_i h
  · split_ifs <;> simp [h]
  · rfl

/-- An abort clears the slot or leaves the one `expire` leaves. -/
theorem active_abortContribution (s now : Nat) (st : LobbyState) :
    (st.abortContribution s now).1.active = none ∨
      (st.abortContribution s now).1.active = (st.expire now).active := by
  dsimp only [abortContribution]
  split
  · split_ifs <;> simp
  · simp

end LobbyState

/-- Modelled from the spec: the errors of `PersistentStorage`. -/
inductive StorageError where
  | alreadyContributed
  | backendFailure
deriving DecidableEq, Repr

/-- Modelled from the spec: `PersistentStorage`: the log of contributors' unique identifiers,
and whether the backend fails every call. -/
structure Storage where
  /-- The unique identifiers recorded so far. -/
  contributors : List (List Char)
  /-- A backend that fails. -/
  failing : Bool
deriving DecidableEq, Repr

/-- Modelled from the spec: `insert_contributor`: the first insert of an identifier succeeds,
any later one fails with `AlreadyContributed`; a failing backend fails every call. -/
def Storage.insertContributor (uid : List Char) (db : Storage) :
    Storage × Except StorageError Unit :=
  if db.failing then (db, .error .backendFailure)
  else if uid ∈ db.contributors then (db, .error .alreadyContributed)
  else (⟨uid :: db.contributors, db.failing⟩, .ok ())

end KzgCeremony.Lobby
