import KzgCeremony.Lobby
import KzgCeremony.Text

/-!
# `try_contribute`

The handler of `api/v1/lobby.rs`. Under the lobby lock, `modify_participant` runs the
rate-limit closure on the caller's session; a session that is not registered may be the
active contributor asking for its file again. A session that passes hands the tail
`enter_lobby → set_current_contributor → insert_contributor` to a detached task, each step
returning early with `?` on its error. `tryContribute` runs the handler with nothing
interleaved.

The handler is not atomic: each lobby method and each storage call is one critical section,
and other requests may run between them. A login is among them; the sequencer refuses it for
an identifier the contributor log holds. `Call` lists these sections and `run` executes any
sequence of them, so every interleaving of handlers and other requests is a run, and the
handler itself is one (`tryContribute_run`). Along any run in which the session is not
registered again, the check-ins that find it pass exactly as the rate limit says
(`checkInLog_eq_rateLimit`): the first passes, and a later one passes when it comes
`min_checkin_delay` after the last that passed. Along any run before the deadline of the
active slot in which the slot is neither cleared nor given up by its holder, the holder keeps
it (`run_keeps_slot`). In any run that does not register the holder again, it is never
registered while it holds the slot, so its own `try_contribute` only refetches
(`run_holder_only_refetches`).
-/

namespace KzgCeremony.TryContribute

open Lobby LobbyState

/-- `TryContributeError`. A `TaskError` is a panicked or cancelled detached task, which the
model's task never is. -/
inductive TryContributeError where
  | unknownSessionId
  | rateLimited
  | anotherContributionInProgress
  | lobbyIsFull
  | storageError (e : StorageError)
  | taskError
deriving DecidableEq, Repr

/-- The `From<ActiveContributorError>` impl. -/
def TryContributeError.ofActiveContributorError : ActiveContributorError → TryContributeError
  | .anotherContributionInProgress | .notUsersTurn => .anotherContributionInProgress
  | .userNotInLobby | .notActiveContributor => .unknownSessionId
  | .sessionCountLimitExceeded | .lobbySizeLimitExceeded => .lobbyIsFull
  | .rateLimited => .rateLimited

/-- `to_error_code`: `TryContributeError::` and the variant's name, as `IntoStaticStr` gives it. -/
def TryContributeError.toErrorCode (e : TryContributeError) : String :=
  "TryContributeError::" ++ match e with
    | .unknownSessionId => "UnknownSessionId"
    | .rateLimited => "RateLimited"
    | .anotherContributionInProgress => "AnotherContributionInProgress"
    | .lobbyIsFull => "LobbyIsFull"
    | .storageError _ => "StorageError"
    | .taskError => "TaskError"

/-- The rate-limit closure at the instant `now` it reads: a session that has checked in before
and comes back within `min_checkin_delay` is `RateLimited` with its record untouched;
otherwise the record is stamped and the token's unique identifier returned. -/
def checkIn (opts : LobbyOptions) (now : Nat) (info : SessionInfo) :
    SessionInfo × Except TryContributeError (List Char) :=
  if info.isFirstPingAttempt = false ∧ now < info.lastPingTime + opts.minCheckinDelay then
    (info, .error .rateLimited)
  else ({ info with isFirstPingAttempt := false, lastPingTime := now }, .ok info.uid)

/-- The lobby and the contributor store, which `try_contribute` acts on. -/
structure Sequencer where
  /-- The shared lobby state. -/
  lobby : LobbyState
  /-- The persistent store. -/
  storage : Storage
deriving DecidableEq

/-- The detached task: `enter_lobby`, `set_current_contributor` and `insert_contributor`,
each returning its error early. -/
def admissionTask (opts : LobbyOptions) (s : Nat) (uid : List Char) (now : Nat)
    (sys : Sequencer) : Sequencer × Except TryContributeError Unit :=
  match sys.lobby.enterLobby opts s with
  | (lobby, .error e) => (⟨lobby, sys.storage⟩, .error (.ofActiveContributorError e))
  | (lobby, .ok ()) =>
    match lobby.setCurrentContributor opts s now with
    | (lobby, .error e) => (⟨lobby, sys.storage⟩, .error (.ofActiveContributorError e))
    | (lobby, .ok ()) =>
      match sys.storage.insertContributor uid with
      | (storage, .error e) => (⟨lobby, storage⟩, .error (.storageError e))
      | (storage, .ok ()) => (⟨lobby, storage⟩, .ok ())

/-- `try_contribute(session_id)` at the instant `now`, with nothing interleaved; the
transcript snapshot it returns on success is left out. -/
def tryContribute (opts : LobbyOptions) (s now : Nat) (sys : Sequencer) :
    Sequencer × Except TryContributeError Unit :=
  match sys.lobby.modifyParticipant s (checkIn opts now) with
  | (lobby, some (.error e)) => (⟨lobby, sys.storage⟩, .error e)
  | (lobby, some (.ok uid)) => admissionTask opts s uid now ⟨lobby, sys.storage⟩
  | (lobby, none) =>
    match lobby.requestContributionFileAgain opts s now with
    | (lobby, .error e) => (⟨lobby, sys.storage⟩, .error (.ofActiveContributorError e))
    | (lobby, .ok ()) => (⟨lobby, sys.storage⟩, .ok ())

/-! ### The handler -/

/-- A `RateLimited` check-in leaves the record as it was. -/
theorem checkIn_fst_of_error {opts : LobbyOptions} {now : Nat} {info : SessionInfo}
    {e : TryContributeError} (h : (checkIn opts now info).2 = .error e) :
    (checkIn opts now info).1 = info := by
  unfold checkIn at h ⊢; split_ifs at h ⊢; rfl

/-- `try_contribute` on a registered session: a check-in that fails answers with the lobby
as it was; one that passes runs the detached task on the stamped lobby. -/
theorem tryContribute_of_lookup {opts : LobbyOptions} {s now : Nat} {sys : Sequencer}
    {info : SessionInfo} (h : sys.lobby.sessions.lookup s = some info) :
    tryContribute opts s now sys =
      match checkIn opts now info with
      | (_, .error e) => (sys, .error e)
      | (info', .ok uid) => admissionTask opts s uid now
          ⟨⟨sys.lobby.sessions.replace s info', sys.lobby.active⟩, sys.storage⟩ := by
  rcases hc : checkIn opts now info with ⟨info', e | uid⟩
  · have hfix : (checkIn opts now info).1 = info := checkIn_fst_of_error (by rw [hc])
    have hlobby := modifyParticipant_fst_of_eq h hfix
    simp only [tryContribute, modifyParticipant, h, hc] at hlobby ⊢
    rw [hlobby]
  · simp only [tryContribute, modifyParticipant, h, hc]

/-- The detached task never answers `RateLimited`. -/
theorem admissionTask_ne_rateLimited (opts : LobbyOptions) (s : Nat) (uid : List Char) (now : Nat)
    (sys : Sequencer) : (admissionTask opts s uid now sys).2 ≠ .error .rateLimited := by
  unfold admissionTask
  split
  · rename_i e h
    obtain rfl := enterLobby_error (show (sys.lobby.enterLobby opts s).2 = .error e by rw [h])
    simp [TryContributeError.ofActiveContributorError]
  · split
    · rename_i lobby _ _ _ e h
      rcases setCurrentContributor_error (show (lobby.setCurrentContributor opts s now).2 = .error e
        by rw [h]) with rfl | rfl <;> simp [TryContributeError.ofActiveContributorError]
    · split <;> simp

/-- A call answered `RateLimited` changes neither the lobby nor the store. -/
theorem tryContribute_rateLimited {opts : LobbyOptions} {s now : Nat} {sys sys' : Sequencer}
    (h : tryContribute opts s now sys = (sys', .error .rateLimited)) : sys' = sys := by
  cases hs : sys.lobby.sessions.lookup s with
  | some info =>
    rw [tryContribute_of_lookup hs] at h
    split at h
    · exact (Prod.mk.inj h).1.symm
    · exact (admissionTask_ne_rateLimited _ _ _ _ _ (congrArg Prod.snd h)).elim
  | none =>
    simp only [tryContribute, modifyParticipant, hs] at h
    split at h <;> rename_i hr
    · have he := (Prod.mk.inj h).2
      cases ‹ActiveContributorError› <;> simp [TryContributeError.ofActiveContributorError] at he
      have hl := requestContributionFileAgain_rateLimited
        (show (sys.lobby.requestContributionFileAgain opts s now).2 = .error .rateLimited by rw [hr])
      rw [hr] at hl
      rw [← (Prod.mk.inj h).1]
      exact congrArg (Sequencer.mk · sys.storage) hl
    · cases (Prod.mk.inj h).2

/-- When the promotion succeeds and the store then fails, `try_contribute` answers with the
store's error and the session keeps the slot: nothing releases it. -/
theorem tryContribute_storageError {opts : LobbyOptions} {s now : Nat} {sys : Sequencer}
    {info : SessionInfo} {e : StorageError} (h : sys.lobby.sessions.lookup s = some info)
    (hpass : (checkIn opts now info).2 = .ok info.uid)
    (hcap : sys.lobby.sessions.keys.length ≤ opts.maxSessionsCount)
    (hfree : (sys.lobby.expire now).active = none)
    (hdb : (sys.storage.insertContributor info.uid).2 = .error e) :
    (tryContribute opts s now sys).2 = .error (.storageError e) ∧
      (tryContribute opts s now sys).1.lobby.active =
        some ⟨s, now + opts.computeDeadline, (checkIn opts now info).1⟩ := by
  rw [tryContribute_of_lookup h]
  rcases hc : checkIn opts now info with ⟨info', r⟩
  obtain rfl : r = .ok info.uid := by rw [hc] at hpass; exact hpass
  rcases hdb' : sys.storage.insertContributor info.uid with ⟨db, r⟩
  obtain rfl : r = .error e := by rw [hdb'] at hdb; exact hdb
  have hfree' : (LobbyState.expire now ⟨sys.lobby.sessions.replace s info', sys.lobby.active⟩).active
      = none := by rw [active_expire, ← hfree, active_expire]
  have hl : (sys.lobby.sessions.replace s info').lookup s = some info' := by
    simp [lookup_replace, ← AList.lookup_isSome, h]
  have hcap' : (LobbyState.mk (sys.lobby.sessions.replace s info') sys.lobby.active).sessions.keys.length
      ≤ opts.maxSessionsCount := by rwa [AList.keys_replace]
  simp only [admissionTask, enterLobby_of_le hcap', setCurrentContributor_of_free hfree' hl, hdb',
    and_self]

/-- Values for runs on fixed inputs, chosen to fit the timings of `lobby_try_contribute_test`:
a check-in delay of 15, a compute deadline of 180, ten sessions. -/
def testOptions : LobbyOptions := ⟨15, 180, 10⟩

/-- A first `try_contribute` of a registered session, against a failing store: the answer is
the store's error, and the session, which held no slot before, now holds it and can fetch
its contribution file again. -/
theorem tryContribute_keeps_slot_on_storage_error :
    let sys : Sequencer := ⟨⟨AList.singleton 1 ⟨"u".toList, 0, true⟩, none⟩, ⟨[], true⟩⟩
    sys.lobby.active = none ∧
      (tryContribute testOptions 1 0 sys).2 = .error (.storageError .backendFailure) ∧
      (tryContribute testOptions 1 0 sys).1.lobby.active = some ⟨1, 180, ⟨"u".toList, 0, false⟩⟩ ∧
      ((tryContribute testOptions 1 0 sys).1.lobby.requestContributionFileAgain testOptions 1 15).2 =
        .ok () := by
  have h := @tryContribute_storageError testOptions 1 0
    ⟨⟨AList.singleton 1 ⟨"u".toList, 0, true⟩, none⟩, ⟨[], true⟩⟩ ⟨"u".toList, 0, true⟩
    .backendFailure rfl rfl (by decide) rfl rfl
  exact ⟨rfl, h.1, h.2, by decide⟩

/-! ### Interleavings -/

/-- One critical section: a lobby method under the lock, or one call to the store. -/
inductive Call where
  /-- `modify_participant` with the rate-limit closure, at an instant. -/
  | modifyParticipant (s now : Nat)
  | enterLobby (s : Nat)
  | setCurrentContributor (s now : Nat)
  | insertContributor (uid : List Char)
  | requestContributionFileAgain (s now : Nat)
  /-- A login registering a session, refused for an identifier the store has recorded. -/
  | insertSession (s : Nat) (uid : List Char) (now : Nat)
  | clearCurrentContributor
  | abortContribution (s now : Nat)
  /-- The periodic deadline check. -/
  | tick (now : Nat)
deriving DecidableEq, Repr

/-- What a call does to the lobby and the store. -/
def Call.apply (opts : LobbyOptions) (sys : Sequencer) : Call → Sequencer
  | .modifyParticipant s now => ⟨(sys.lobby.modifyParticipant s (checkIn opts now)).1, sys.storage⟩
  | .enterLobby s => ⟨(sys.lobby.enterLobby opts s).1, sys.storage⟩
  | .setCurrentContributor s now => ⟨(sys.lobby.setCurrentContributor opts s now).1, sys.storage⟩
  | .insertContributor uid => ⟨sys.lobby, (sys.storage.insertContributor uid).1⟩
  | .requestContributionFileAgain s now =>
    ⟨(sys.lobby.requestContributionFileAgain opts s now).1, sys.storage⟩
  | .insertSession s uid now =>
    if uid ∈ sys.storage.contributors then sys
    else ⟨(sys.lobby.insertSession opts s uid now).1, sys.storage⟩
  | .clearCurrentContributor => ⟨sys.lobby.clearCurrentContributor, sys.storage⟩
  | .abortContribution s now => ⟨(sys.lobby.abortContribution s now).1, sys.storage⟩
  | .tick now => ⟨sys.lobby.expire now, sys.storage⟩

/-- A sequence of critical sections, in order. -/
def run (opts : LobbyOptions) (calls : List Call) (sys : Sequencer) : Sequencer :=
  calls.foldl (Call.apply opts) sys

@[simp] theorem run_nil (opts : LobbyOptions) (sys : Sequencer) : run opts [] sys = sys := rfl

@[simp] theorem run_cons (opts : LobbyOptions) (c : Call) (calls : List Call) (sys : Sequencer) :
    run opts (c :: calls) sys = run opts calls (c.apply opts sys) := rfl

/-- A login keeps the slot and the store; it leaves the sessions as they were or registers `s`. -/
theorem Call.apply_insertSession (opts : LobbyOptions) (s : Nat) (uid : List Char) (now : Nat)
    (sys : Sequencer) :
    ((Call.insertSession s uid now).apply opts sys).lobby.active = sys.lobby.active ∧
      ((Call.insertSession s uid now).apply opts sys).storage = sys.storage ∧
      (((Call.insertSession s uid now).apply opts sys).lobby.sessions = sys.lobby.sessions ∨
        ((Call.insertSession s uid now).apply opts sys).lobby.sessions =
          sys.lobby.sessions.insert s ⟨uid, now, true⟩) := by
  simp only [Call.apply]
  split_ifs
  · exact ⟨rfl, rfl, .inl rfl⟩
  · refine ⟨?_, rfl, sessions_insertSession opts s uid now sys.lobby⟩
    unfold LobbyState.insertSession; split_ifs <;> rfl

/-- Whether a call registers the session `s`. -/
def Call.registers (s : Nat) : Call → Bool
  | .insertSession s' _ _ => s' == s
  | _ => false

/-- The instant at which a call runs, for the calls that read the clock. -/
def Call.instant : Call → Option Nat
  | .modifyParticipant _ now | .setCurrentContributor _ now | .requestContributionFileAgain _ now
  | .insertSession _ _ now | .abortContribution _ now | .tick now => some now
  | .enterLobby _ | .insertContributor _ | .clearCurrentContributor => none

/-- Whether a call gives up the slot of session `s`: clearing the slot once a contribution is
in, or `s` aborting. -/
def Call.releases (s : Nat) : Call → Bool
  | .clearCurrentContributor => true
  | .abortContribution s' _ => s' == s
  | _ => false

/-- The detached task is a run of its critical sections, stopped at the first that fails:
a prefix of `enter_lobby`, `set_current_contributor`, `insert_contributor`. -/
theorem admissionTask_run (opts : LobbyOptions) (s : Nat) (uid : List Char) (now : Nat)
    (sys : Sequencer) : ∃ calls, calls <+: [.enterLobby s, .setCurrentContributor s now,
      .insertContributor uid] ∧ (admissionTask opts s uid now sys).1 = run opts calls sys := by
  rcases hel : sys.lobby.enterLobby opts s with ⟨lobby, e | ⟨⟩⟩ <;>
    obtain rfl : lobby = sys.lobby := by simpa [hel] using enterLobby_fst opts s sys.lobby
  · exact ⟨[.enterLobby s], by simp, by simp [admissionTask, Call.apply, hel]⟩
  · rcases hsc : sys.lobby.setCurrentContributor opts s now with ⟨lobby', e | ⟨⟩⟩
    · exact ⟨[.enterLobby s, .setCurrentContributor s now], by simp,
        by simp [admissionTask, Call.apply, hel, hsc]⟩
    · rcases hdb : sys.storage.insertContributor uid with ⟨db, e | ⟨⟩⟩ <;>
        exact ⟨_, List.prefix_refl _, by simp [admissionTask, Call.apply, hel, hsc, hdb]⟩

/-- `try_contribute` with nothing interleaved is a run: the check-in, then the refetch or a
prefix of the detached task. -/
theorem tryContribute_run (opts : LobbyOptions) (s now : Nat) (sys : Sequencer) :
    ∃ tail, (tail = [.requestContributionFileAgain s now] ∨
        ∃ uid, tail <+: [.enterLobby s, .setCurrentContributor s now, .insertContributor uid]) ∧
      (tryContribute opts s now sys).1 = run opts (.modifyParticipant s now :: tail) sys := by
  cases hs : sys.lobby.sessions.lookup s with
  | some info =>
    rw [tryContribute_of_lookup hs]
    rcases hc : checkIn opts now info with ⟨info', e | uid⟩
    · refine ⟨[], .inr ⟨[], List.nil_prefix⟩, ?_⟩
      have hfix := checkIn_fst_of_error (show (checkIn opts now info).2 = .error e by rw [hc])
      simp [Call.apply, modifyParticipant_fst_of_eq hs hfix]
    · obtain ⟨calls, hpre, hrun⟩ := admissionTask_run opts s uid now
        ⟨⟨sys.lobby.sessions.replace s info', sys.lobby.active⟩, sys.storage⟩
      refine ⟨calls, .inr ⟨uid, hpre⟩, ?_⟩
      simp [hrun, Call.apply, modifyParticipant, hs, hc]
  | none =>
    refine ⟨[.requestContributionFileAgain s now], .inl rfl, ?_⟩
    simp only [tryContribute, modifyParticipant, hs]
    split <;> rename_i hr <;> simp [Call.apply, modifyParticipant, hs, hr]

/-- `lobby_try_contribute_test`, replayed: an unknown session, a second session holding the
slot, two early calls, a promotion, an early refetch and a refetch after the delay. -/
example :
    let r1 := tryContribute testOptions 1 0 ⟨.empty, ⟨[], false⟩⟩
    let r2 := tryContribute testOptions 2 0
      (run testOptions [.insertSession 1 "a".toList 0, .insertSession 2 "b".toList 0] r1.1)
    let r3 := tryContribute testOptions 1 0 r2.1
    let r4 := tryContribute testOptions 1 5 r3.1
    let r5 := tryContribute testOptions 1 10 (run testOptions [.clearCurrentContributor] r4.1)
    let r6 := tryContribute testOptions 1 29 r5.1
    let r7 := tryContribute testOptions 1 29 r6.1
    let r8 := tryContribute testOptions 1 44 r7.1
    r1.2 = .error .unknownSessionId ∧ r2.2 = .ok () ∧ r3.2 = .error .anotherContributionInProgress ∧
      r4.2 = .error .rateLimited ∧ r5.2 = .error .rateLimited ∧ r6.2 = .ok () ∧
      r7.2 = .error .rateLimited ∧ r8.2 = .ok () := by
  decide

/-! ### The rate limit over runs -/

/-- The rate limit as the spec states it, over the instants of a session's check-ins: the
first passes, and a later one passes when it comes `delay` after the last that passed, whose
instant is `last`. -/
def rateLimit (delay : Nat) : Option Nat → List Nat → List (Nat × Bool)
  | _, [] => []
  | none, t :: ts => (t, true) :: rateLimit delay (some t) ts
  | some last, t :: ts =>
    if last + delay ≤ t then (t, true) :: rateLimit delay (some t) ts
    else (t, false) :: rateLimit delay (some last) ts

@[simp] theorem rateLimit_nil (delay : Nat) (last : Option Nat) : rateLimit delay last [] = [] := by
  cases last <;> rfl

/-- The instant of the last check-in that passed, as a session's record holds it. -/
def lastPass (info : SessionInfo) : Option Nat :=
  if info.isFirstPingAttempt then none else some info.lastPingTime

/-- One check-in is one step of the rate limit. -/
theorem rateLimit_checkIn (opts : LobbyOptions) (now : Nat) (info : SessionInfo) (ts : List Nat) :
    rateLimit opts.minCheckinDelay (lastPass info) (now :: ts) =
      (now, (checkIn opts now info).2.isOk) ::
        rateLimit opts.minCheckinDelay (lastPass (checkIn opts now info).1) ts := by
  rcases info with ⟨uid, last, _ | _⟩
  · by_cases h : last + opts.minCheckinDelay ≤ now
    · simp [rateLimit, lastPass, checkIn, h, Except.isOk, Except.toBool, Nat.not_lt.2 h]
    · simp [rateLimit, lastPass, checkIn, h, Except.isOk, Except.toBool, Nat.lt_of_not_le h]
  · simp [rateLimit, lastPass, checkIn, Except.isOk, Except.toBool]

/-- Every check-in that passes comes `delay` after `last`. -/
theorem rateLimit_pass_after (delay l : Nat) (ts : List Nat) :
    ∀ p ∈ (rateLimit delay (some l) ts).filter (·.2), l + delay ≤ p.1 := by
  induction ts generalizing l with
  | nil => simp
  | cons t ts ih =>
    by_cases h : l + delay ≤ t
    · simp only [rateLimit, if_pos h, List.filter_cons_of_pos, List.mem_cons]
      rintro p (rfl | hp)
      · exact h
      · exact le_trans (by omega) (ih t p hp)
    · simp only [rateLimit, if_neg h, List.filter_cons_of_neg, Bool.false_eq_true,
        not_false_eq_true]
      exact ih l

/-- Any two check-ins that pass the rate limit are `delay` apart. -/
theorem rateLimit_spaced (delay : Nat) (last : Option Nat) (ts : List Nat) :
    (((rateLimit delay last ts).filter (·.2)).map Prod.fst).Pairwise (fun a b => a + delay ≤ b) := by
  induction ts generalizing last with
  | nil => simp
  | cons t ts ih =>
    have hpass : ((t, true) :: rateLimit delay (some t) ts).filter (·.2) |>.map Prod.fst
        |>.Pairwise (fun a b => a + delay ≤ b) := by
      simp only [List.filter_cons_of_pos, List.map_cons, List.pairwise_cons, List.mem_map]
      exact ⟨fun _ ⟨p, hp, hpt⟩ => hpt ▸ rateLimit_pass_after delay t ts p hp, ih (some t)⟩
    cases last with
    | none => exact hpass
    | some l =>
      by_cases h : l + delay ≤ t
      · simpa only [rateLimit, if_pos h] using hpass
      · simpa only [rateLimit, if_neg h, List.filter_cons_of_neg, Bool.false_eq_true,
          not_false_eq_true] using ih (some l)

/-- What a call logs for session `s`: a check-in of `s` that finds it registered, with its
instant and whether it passed. -/
def Call.checkInOf (opts : LobbyOptions) (s : Nat) (sys : Sequencer) : Call → Option (Nat × Bool)
  | .modifyParticipant s' now =>
    if s' = s then (sys.lobby.sessions.lookup s).map fun info => (now, (checkIn opts now info).2.isOk)
    else none
  | _ => none

/-- The check-ins of `s` along a run that find it registered, in order. -/
def checkInLog (opts : LobbyOptions) (s : Nat) : Sequencer → List Call → List (Nat × Bool)
  | _, [] => []
  | sys, c :: cs => (c.checkInOf opts s sys).toList ++ checkInLog opts s (c.apply opts sys) cs

/-- The frame of a call for session `s`: unless it is a check-in of `s`, a call that does not
register `s` logs nothing for it and leaves its record as it was or removes it. -/
theorem Call.lookup_apply (opts : LobbyOptions) (sys : Sequencer) {s : Nat} (c : Call)
    (hc : c.registers s = false) :
    (∃ now, c = .modifyParticipant s now) ∨
      (c.checkInOf opts s sys = none ∧
        ((c.apply opts sys).lobby.sessions.lookup s = sys.lobby.sessions.lookup s ∨
          (c.apply opts sys).lobby.sessions.lookup s = none)) := by
  cases c with
  | modifyParticipant s' now =>
    by_cases hs : s' = s
    · exact .inl ⟨now, hs ▸ rfl⟩
    · exact .inr ⟨if_neg hs, .inl (by simp [Call.apply, lookup_modifyParticipant, Ne.symm hs])⟩
  | setCurrentContributor s' now =>
    refine .inr ⟨rfl, ?_⟩
    rcases sessions_setCurrentContributor opts s' now sys.lobby with h | h <;>
      simp only [Call.apply, h]
    · exact .inl trivial
    · by_cases hs : s = s'
      · subst hs; exact .inr (AList.lookup_erase _ _)
      · exact .inl (AList.lookup_erase_ne hs)
  | insertSession s' uid now =>
    have hs : s' ≠ s := by simpa [Call.registers] using hc
    refine .inr ⟨rfl, .inl ?_⟩
    rcases (apply_insertSession opts s' uid now sys).2.2 with h | h <;> rw [h]
    exact AList.lookup_insert_ne (Ne.symm hs)
  | _ => exact .inr ⟨rfl, .inl (by simp [Call.apply])⟩

/-- A session that is not registered, and is not registered again, logs no check-in. -/
theorem checkInLog_of_lookup_none (opts : LobbyOptions) (s : Nat) (calls : List Call)
    (sys : Sequencer) (hcalls : ∀ c ∈ calls, c.registers s = false)
    (h : sys.lobby.sessions.lookup s = none) : checkInLog opts s sys calls = [] := by
  induction calls generalizing sys with
  | nil => rfl
  | cons c cs ih =>
    have hrest := fun c' hc' => hcalls c' (List.mem_cons_of_mem c hc')
    rcases Call.lookup_apply opts sys c (hcalls c (List.mem_cons_self c cs)) with
      ⟨now, rfl⟩ | ⟨hlog, hl | hl⟩
    · simp [checkInLog, Call.checkInOf, h, ih _ hrest, Call.apply, lookup_modifyParticipant]
    · rw [checkInLog, hlog, ih _ hrest (hl.trans h)]; rfl
    · rw [checkInLog, hlog, ih _ hrest hl]; rfl

/-- Along a run that does not register `s` again, the check-ins that find `s` pass exactly as
the rate limit decides from the last passing instant its record holds. -/
theorem checkInLog_eq_rateLimit (opts : LobbyOptions) (s : Nat) (calls : List Call)
    (sys : Sequencer) (hcalls : ∀ c ∈ calls, c.registers s = false) :
    checkInLog opts s sys calls =
      rateLimit opts.minCheckinDelay ((sys.lobby.sessions.lookup s).bind lastPass)
        ((checkInLog opts s sys calls).map Prod.fst) := by
  induction calls generalizing sys with
  | nil => simp [checkInLog]
  | cons c cs ih =>
    have hrest := fun c' hc' => hcalls c' (List.mem_cons_of_mem c hc')
    cases hs : sys.lobby.sessions.lookup s with
    | none => rw [checkInLog_of_lookup_none opts s _ sys hcalls hs]; rfl
    | some info =>
      rcases Call.lookup_apply opts sys c (hcalls c (List.mem_cons_self c cs)) with
        ⟨now, rfl⟩ | ⟨hlog, hl | hl⟩
      · -- the check-in of `s`: one step of the rate limit
        have happ : ((Call.modifyParticipant s now).apply opts sys).lobby.sessions.lookup s =
            some (checkIn opts now info).1 := by
          simp [Call.apply, lookup_modifyParticipant, hs]
        simp only [checkInLog, Call.checkInOf, ↓reduceIte, hs, Option.map_some',
          Option.toList_some, List.singleton_append, List.map_cons, Option.some_bind]
        conv_lhs => rw [ih _ hrest, happ, Option.some_bind]
        rw [rateLimit_checkIn]
      · simp only [checkInLog, hlog, Option.toList_none, List.nil_append]
        conv_lhs => rw [ih _ hrest, hl, hs]
      · simp only [checkInLog, hlog, Option.toList_none, List.nil_append,
          checkInLog_of_lookup_none opts s cs _ hrest hl, List.map_nil, rateLimit_nil]

/-- The rate limit of `try_contribute` in any interleaving. Each execution of
`try_contribute` starts with a check-in, then runs the refetch or a prefix of the detached
task; a first check-in passes and clears `is_first_ping_attempt`; a `RateLimited` answer
changes neither the lobby nor the store; along any run that does not register the session
again, the check-ins that find it pass exactly as the rate limit decides from the last
passing instant, and any two that pass are `min_checkin_delay` apart. -/
theorem tryContribute_rate_limit (opts : LobbyOptions) (s : Nat) :
    (∀ now sys, ∃ tail, (tail = [.requestContributionFileAgain s now] ∨
        ∃ uid, tail <+: [.enterLobby s, .setCurrentContributor s now, .insertContributor uid]) ∧
      (tryContribute opts s now sys).1 = run opts (.modifyParticipant s now :: tail) sys) ∧
    (∀ now info, info.isFirstPingAttempt = true →
      checkIn opts now info =
        ({ info with isFirstPingAttempt := false, lastPingTime := now }, .ok info.uid)) ∧
    (∀ now sys sys', tryContribute opts s now sys = (sys', .error .rateLimited) → sys' = sys) ∧
    (∀ sys calls, (∀ c ∈ calls, c.registers s = false) →
      checkInLog opts s sys calls =
        rateLimit opts.minCheckinDelay ((sys.lobby.sessions.lookup s).bind lastPass)
          ((checkInLog opts s sys calls).map Prod.fst) ∧
      (((checkInLog opts s sys calls).filter (·.2)).map Prod.fst).Pairwise
        fun a b => a + opts.minCheckinDelay ≤ b) :=
  ⟨tryContribute_run opts s,
    fun now info h => by simp [checkIn, h],
    fun _ _ _ => tryContribute_rateLimited,
    fun sys calls hcalls => ⟨checkInLog_eq_rateLimit opts s calls sys hcalls, by
      rw [checkInLog_eq_rateLimit opts s calls sys hcalls]; exact rateLimit_spaced ..⟩⟩

/-- Session `1`, just registered, checks in at `0`, `5` and `20` with a delay of `15`: the first
and the last check-in pass. -/
theorem tryContribute_rate_limit_three_checkIns :
    let sys : Sequencer := ⟨⟨AList.singleton 1 ⟨"a".toList, 0, true⟩, none⟩, ⟨[], false⟩⟩
    let calls := [Call.modifyParticipant 1 0, .modifyParticipant 1 5, .modifyParticipant 1 20]
    (∀ c ∈ calls, c.registers 1 = false) ∧
      checkInLog testOptions 1 sys calls = [(0, true), (5, false), (20, true)] ∧
      checkInLog testOptions 1 sys calls =
        rateLimit testOptions.minCheckinDelay ((sys.lobby.sessions.lookup 1).bind lastPass)
          ((checkInLog testOptions 1 sys calls).map Prod.fst) ∧
      (((checkInLog testOptions 1 sys calls).filter (·.2)).map Prod.fst).Pairwise
        fun a b => a + testOptions.minCheckinDelay ≤ b := by
  intro sys calls
  have hcalls : ∀ c ∈ calls, c.registers 1 = false := by decide
  exact ⟨hcalls, by decide, (tryContribute_rate_limit testOptions 1).2.2.2 sys calls hcalls⟩

/-! ### What holds along every run -/

/-- One call before the deadline that does not release the slot keeps its session and
deadline; only a refetch by the holder rewrites its record. -/
theorem Call.apply_keeps_slot (opts : LobbyOptions) {sys : Sequencer} {slot : ActiveSlot}
    (hslot : sys.lobby.active = some slot) (c : Call) (hrel : c.releases slot.sessionId = false)
    (hnow : ∀ t ∈ c.instant, t < slot.deadline) :
    ∃ info, (c.apply opts sys).lobby.active = some { slot with info := info } := by
  cases c with
  | setCurrentContributor s now =>
    -- the slot is held, so the promotion fails and changes nothing
    refine ⟨slot.info, ?_⟩
    simp only [Call.apply, LobbyState.setCurrentContributor, expire_of_lt hslot (hnow now rfl), hslot]
  | requestContributionFileAgain s now =>
    simp only [Call.apply, LobbyState.requestContributionFileAgain, expire_of_lt hslot (hnow now rfl),
      hslot]
    split_ifs <;> first | exact ⟨_, rfl⟩ | exact ⟨slot.info, hslot⟩
  | insertSession s uid now =>
    exact ⟨slot.info, (apply_insertSession opts s uid now sys).1.trans hslot⟩
  | clearCurrentContributor => cases hrel
  | abortContribution s now =>
    have hs : s ≠ slot.sessionId := by simpa [Call.releases] using hrel
    refine ⟨slot.info, ?_⟩
    simp only [Call.apply, LobbyState.abortContribution, expire_of_lt hslot (hnow now rfl), hslot,
      if_neg (Ne.symm hs)]
  | tick now => exact ⟨slot.info, by simp only [Call.apply, expire_of_lt hslot (hnow now rfl), hslot]⟩
  | _ => exact ⟨slot.info, by simp [Call.apply, hslot]⟩

/-- The active contributor keeps its slot in every interleaving. Along any run before its
deadline that neither clears the slot nor has the holder abort (other sessions' logins, their
`try_contribute` handlers in whole or in part, refetches, deadline checks), the same session
holds the slot with the same deadline: no other session can take it or shorten it. -/
theorem run_keeps_slot (opts : LobbyOptions) (calls : List Call) (sys : Sequencer)
    (slot : ActiveSlot) (hslot : sys.lobby.active = some slot)
    (hcalls : ∀ c ∈ calls, c.releases slot.sessionId = false ∧ ∀ t ∈ c.instant, t < slot.deadline) :
    ∃ info, (run opts calls sys).lobby.active = some { slot with info := info } := by
  induction calls generalizing sys slot with
  | nil => exact ⟨slot.info, hslot⟩
  | cons c cs ih =>
    obtain ⟨hrel, hnow⟩ := hcalls c (List.mem_cons_self c cs)
    obtain ⟨info, hc⟩ := c.apply_keeps_slot opts hslot hrel hnow
    exact ih _ { slot with info := info } hc fun c' hc' => hcalls c' (List.mem_cons_of_mem c hc')

/-- Session `1` holds the slot until `180`; session `2` registers and calls `try_contribute`
at `20`, and the deadline check runs at `100`. -/
theorem run_keeps_slot_second_session :
    let sys : Sequencer := ⟨⟨∅, some ⟨1, 180, ⟨"a".toList, 0, false⟩⟩⟩, ⟨["a".toList], false⟩⟩
    let calls := [.insertSession 2 "b".toList 10, .modifyParticipant 2 20, .enterLobby 2,
      .setCurrentContributor 2 20, .tick 100]
    sys.lobby.active = some ⟨1, 180, ⟨"a".toList, 0, false⟩⟩ ∧
      (∀ c ∈ calls, c.releases 1 = false ∧ ∀ t ∈ c.instant, t < 180) ∧
      ∃ info, (run testOptions calls sys).lobby.active = some ⟨1, 180, info⟩ :=
  ⟨rfl, by decide, run_keeps_slot testOptions _ _ ⟨1, 180, ⟨"a".toList, 0, false⟩⟩ rfl (by decide)⟩

/-- The session holding the slot, if any. -/
def holder (sys : Sequencer) : Option Nat := sys.lobby.active.map (·.sessionId)

/-- What one call does to the slot's session: it keeps it, clears the slot, or, as a
promotion, moves a session out of the lobby into the slot. -/
theorem Call.holder_apply (opts : LobbyOptions) (sys : Sequencer) (c : Call) :
    holder (c.apply opts sys) = none ∨ holder (c.apply opts sys) = holder sys ∨
      ∃ s now, c = .setCurrentContributor s now ∧ holder (c.apply opts sys) = some s ∧
        (c.apply opts sys).lobby.sessions = sys.lobby.sessions.erase s := by
  -- `expire`, which the methods reading the clock run first, keeps the slot or clears it
  have hexp : ∀ now, (sys.lobby.expire now).active.map (·.sessionId) = none ∨
      (sys.lobby.expire now).active.map (·.sessionId) = holder sys := fun now => by
    rcases active_expire_eq now sys.lobby with h | h <;> simp [h, holder]
  cases c with
  | setCurrentContributor s now =>
    simp only [holder, Call.apply, LobbyState.setCurrentContributor]
    split
    · exact (hexp now).imp_right .inl
    · next h _ => exact .inl (by rw [h]; rfl)
    · exact .inr (.inr ⟨s, now, rfl, rfl, by simp⟩)
  | requestContributionFileAgain s now =>
    simp only [holder, Call.apply, sessionId_requestContributionFileAgain]
    exact (hexp now).imp_right .inl
  | abortContribution s now =>
    rcases active_abortContribution s now sys.lobby with h | h <;> simp only [holder, Call.apply, h]
    · exact .inl rfl
    · exact (hexp now).imp_right .inl
  | tick now => exact (hexp now).imp_right .inl
  | clearCurrentContributor => exact .inl rfl
  | insertSession s uid now =>
    exact .inr (.inl (by rw [holder, (apply_insertSession opts s uid now sys).1]; rfl))
  | _ => exact .inr (.inl (by simp [holder, Call.apply]))

/-- The session holding the slot is not registered in the lobby. -/
def HolderUnregistered (s : Nat) (sys : Sequencer) : Prop :=
  holder sys = some s → sys.lobby.sessions.lookup s = none

instance (s : Nat) : DecidablePred (HolderUnregistered s) :=
  fun _ => inferInstanceAs (Decidable (_ → _))

/-- Every call that does not register `s` keeps `s`, while it holds the slot, out of the lobby. -/
theorem Call.apply_holderUnregistered (opts : LobbyOptions) {s : Nat} {sys : Sequencer} (c : Call)
    (hc : c.registers s = false) (h : HolderUnregistered s sys) :
    HolderUnregistered s (c.apply opts sys) := by
  intro hold
  rcases c.holder_apply opts sys with hn | hsame | ⟨s', now, rfl, hs', hses⟩
  · rw [hn] at hold; cases hold
  · -- the slot's session is unchanged, and the call does not register it
    have h0 := h (hsame ▸ hold)
    rcases Call.lookup_apply opts sys c hc with ⟨now, rfl⟩ | ⟨-, hl | hl⟩
    · simp [Call.apply, lookup_modifyParticipant, h0]
    · exact hl.trans h0
    · exact hl
  · -- a promotion moves `s` out of the lobby
    rw [hs'] at hold
    cases hold
    rw [hses]
    exact AList.lookup_erase _ _

/-- With the slot held by an unregistered session, that session's `try_contribute` finds no
record, so it only asks for its file again: no admission task runs and the store is untouched. -/
theorem tryContribute_of_holder {opts : LobbyOptions} {s now : Nat} {sys : Sequencer}
    (hold : holder sys = some s) (h : HolderUnregistered s sys) :
    (tryContribute opts s now sys).1 =
      ⟨(sys.lobby.requestContributionFileAgain opts s now).1, sys.storage⟩ := by
  simp only [tryContribute, modifyParticipant, h hold]
  split <;> rename_i hr <;> rw [hr]

/-- The active contributor is never registered in the lobby, in any run that does not
register it again, from any state where it held no slot or held it unregistered (the empty
lobby, or any lobby after its login). So whenever it holds the slot, its `try_contribute` only
asks for its file again: it is never promoted a second time and never recorded twice. -/
theorem run_holder_only_refetches (opts : LobbyOptions) (s : Nat) (calls : List Call)
    (sys : Sequencer) (hcalls : ∀ c ∈ calls, c.registers s = false) (h : HolderUnregistered s sys) :
    HolderUnregistered s (run opts calls sys) ∧
      ∀ now, holder (run opts calls sys) = some s →
        (tryContribute opts s now (run opts calls sys)).1 =
          ⟨((run opts calls sys).lobby.requestContributionFileAgain opts s now).1,
            (run opts calls sys).storage⟩ := by
  have hrun : HolderUnregistered s (run opts calls sys) := by
    induction calls generalizing sys with
    | nil => exact h
    | cons c cs ih =>
      exact ih _ (fun c' hc' => hcalls c' (List.mem_cons_of_mem c hc'))
        (c.apply_holderUnregistered opts (hcalls c (List.mem_cons_self c cs)) h)
  exact ⟨hrun, fun _ hold => tryContribute_of_holder hold hrun⟩

/-- Session `1`, registered, checks in, is promoted and recorded; a later `try_contribute`
only refetches. -/
theorem run_holder_only_refetches_login :
    let sys : Sequencer := ⟨⟨AList.singleton 1 ⟨"a".toList, 0, true⟩, none⟩, ⟨[], false⟩⟩
    let calls := [.modifyParticipant 1 0, .enterLobby 1, .setCurrentContributor 1 0,
      .insertContributor "a".toList]
    (∀ c ∈ calls, c.registers 1 = false) ∧ HolderUnregistered 1 sys ∧
      holder (run testOptions calls sys) = some 1 ∧
      (tryContribute testOptions 1 10 (run testOptions calls sys)).1 =
        ⟨((run testOptions calls sys).lobby.requestContributionFileAgain testOptions 1 10).1,
          (run testOptions calls sys).storage⟩ := by
  have h := run_holder_only_refetches testOptions 1
    [.modifyParticipant 1 0, .enterLobby 1, .setCurrentContributor 1 0, .insertContributor "a".toList]
    ⟨⟨AList.singleton 1 ⟨"a".toList, 0, true⟩, none⟩, ⟨[], false⟩⟩ (by decide) (by decide)
  exact ⟨by decide, by decide, by decide, h.2 10 (by decide)⟩

end KzgCeremony.TryContribute
