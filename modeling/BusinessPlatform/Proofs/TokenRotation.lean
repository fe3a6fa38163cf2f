import BusinessPlatform.AuthService
import BusinessPlatform.Engine.Faults

/-! Rotation of refresh tokens over whole runs. What each call commits is a small
change of the token table, from which the fate of a token is read off. -/

namespace BusinessPlatform.AuthService
open Engine

variable {ι : Type} [DecidableEq ι] {crypto : Crypto} {calls : ι → AuthCall} {i : ι} {world : AuthWorld ι}
  {database : Database accounts} {writes : List (Write accounts)} {hash : String}

def RefreshToken.revoke (token : RefreshToken) (now : Nat) : RefreshToken := { token with revokedAt := some now }

/-- A login issues a token, a refresh revokes the presented one and issues its
successor, and a logout revokes the presented one. -/
inductive AuthCommits (crypto : Crypto) (database : Database accounts) : AuthCall → List (Write accounts) → Prop where
  | login {dto : LoginDto} {issued : RefreshToken} (fresh : database.get .refreshToken issued.tokenHash = none)
      (live : issued.revokedAt = none) : AuthCommits crypto database (.login dto) [.put .refreshToken issued]
  | refresh {dto : RefreshDto} {old issued : RefreshToken} (now : Nat)
      (stored : database.get .refreshToken (hashToken crypto dto.refreshToken) = some old) (unrevoked : old.revokedAt = none)
      (fresh : database.get .refreshToken issued.tokenHash = none) (live : issued.revokedAt = none) :
      AuthCommits crypto database (.refresh dto)
        [.put .refreshToken (old.revoke now), .put .refreshToken issued]
  | logout {dto : RefreshDto} {old : RefreshToken} (now : Nat)
      (stored : database.get .refreshToken (hashToken crypto dto.refreshToken) = some old)
      (unrevoked : old.revokedAt = none) :
      AuthCommits crypto database (.logout dto) [.put .refreshToken (old.revoke now)]

/-- Nobody but the calls writes the token table; others maintain the users. -/
def lawfulAuth (crypto : Crypto) (calls : ι → AuthCall) : Guarantee accounts ι
  | some i, world, writes => AuthCommits crypto world.database (calls i) writes
  | none, _, writes => ∀ write ∈ writes, write.model = .user

/-- An event of the call after which its token is not live: it is unknown, or revoked. -/
def Spent (i : ι) (hash : String) (world : AuthWorld ι) : Prop :=
  ∃ event ∈ world.trace, event.author = some i ∧
    ∀ row, (event.before.applyAll event.writes).get .refreshToken hash = some row → row.revokedAt ≠ none

/-- A refresh or a logout that ends well has spent its token, and a refresh has
committed; a call that fails has committed nothing. -/
def AuthCall.Keeps (crypto : Crypto) (i : ι) (call : AuthCall) (world : AuthWorld ι) : Prop :=
  match call with
  | .login _ => True
  | .refresh dto => world.own i ≠ [] ∧ Spent i (hashToken crypto dto.refreshToken) world
  | .logout dto => Spent i (hashToken crypto dto.refreshToken) world

abbrev AuthPost {α : Type} (crypto : Crypto) (i : ι) (call : AuthCall) : Post accounts HttpException α ι :=
  Attempt i [] (fun exception => exception = unauthorized) fun _ world => call.Keeps crypto i world

omit [DecidableEq ι] in
theorem Spent.grows {rely : Guarantee accounts ι} {before after : AuthWorld ι} (grows : Grows rely before after)
    (spent : Spent i hash before) : Spent i hash after := by
  obtain ⟨event, member, rest⟩ := spent
  exact ⟨event, Grows.member grows member, rest⟩

theorem AuthCall.Keeps.idle {call : AuthCall} {rely : Guarantee accounts ι} {before after : AuthWorld ι}
    (idle : Idle rely i before after) (keeps : call.Keeps crypto i before) : call.Keeps crypto i after := by
  cases call with
  | login dto => trivial
  | refresh dto => exact ⟨(Idle.own idle).symm ▸ keeps.1, Spent.grows (Idle.grows idle) keeps.2⟩
  | logout dto => exact Spent.grows (Idle.grows idle) keeps

private theorem answered_safe {α β : Type} {call : AuthCall} {service : Auth α} {answer : α → β}
    (safe : Safe (fun world => AuthCommits crypto world.database call) (lawfulAuth crypto calls) i (AuthPost crypto i call)
      service none world) :
    Safe (fun world => AuthCommits crypto world.database call) (lawfulAuth crypto calls) i (AuthPost crypto i call)
      (do let value ← service; pure (answer value)) none world := by
  refine Safe.bind (Safe.weaken safe ?_)
  intro result session after ended
  obtain ⟨rfl, outcome⟩ := ended
  cases result with
  | error failure => exact ⟨rfl, outcome⟩
  | ok value => exact Safe.done fun final later => ⟨rfl, AuthCall.Keeps.idle (Later.idle later) outcome⟩

private theorem login_safe {dto : LoginDto} (own : world.own i = []) :
    Safe (fun world => AuthCommits crypto world.database (.login dto)) (lawfulAuth crypto calls) i
      (AuthPost crypto i (.login dto)) (login crypto dto) none world := by
  have fails : Fails (lawfulAuth crypto calls) i (fun exception => exception = unauthorized)
      (AuthPost (α := Tokens) crypto i (.login dto)) false world := Attempt.fails own
  refine Safe.findFirst fails fun w₁ users l₁ _ fails => ?_
  refine Safe.orThrow fails rfl fun user _ => ?_
  refine Safe.orThrow fails rfl fun passwordHash _ => ?_
  refine Safe.throwIf fails rfl fun _ => ?_
  refine Safe.create fails fun w₂ l₂ row built created => ?_
  subst built
  exact ⟨.inr (.login created.fresh rfl), Safe.done fun _ _ => ⟨rfl, trivial⟩⟩

omit [DecidableEq ι] in
theorem Spent.record {label : Label accounts ι} (author : label.author = some i)
    (spent : ∀ row, (world.database.applyAll writes).get .refreshToken hash = some row → row.revokedAt ≠ none) :
    Spent i hash (world.record label writes) :=
  ⟨⟨label, world.database, writes⟩, List.mem_cons_self, author, spent⟩

theorem issued_get (issued : RefreshToken) (other : issued.tokenHash ≠ hash) :
    ((Write.put (S := accounts) .refreshToken issued).apply database).get .refreshToken hash =
      database.get .refreshToken hash := by
  rw [Database.get, Write.apply_put_same]
  exact Table.find_put_other _ other

theorem revoked_other (old : RefreshToken) (now : Nat) (other : old.tokenHash ≠ hash) :
    ((Write.put (S := accounts) .refreshToken (old.revoke now)).apply database).get .refreshToken hash =
      database.get .refreshToken hash := issued_get (old.revoke now) other

theorem revoked_get {old : RefreshToken} {now : Nat} (stored : database.get .refreshToken hash = some old) {row : RefreshToken}
    (found : (database.applyAll [.put .refreshToken (old.revoke now)]).get .refreshToken hash = some row) :
    row.revokedAt ≠ none := by
  obtain rfl : old.tokenHash = hash := (Table.find_eq_some.mp stored).2
  have put := database.get_put .refreshToken (old.revoke now)
  cases found.symm.trans put
  nofun

private theorem logout_safe {dto : RefreshDto} (own : world.own i = []) :
    Safe (fun world => AuthCommits crypto world.database (.logout dto)) (lawfulAuth crypto calls) i
      (AuthPost crypto i (.logout dto)) (logout crypto dto) none world := by
  have fails : Fails (lawfulAuth crypto calls) i (fun exception => exception = unauthorized)
      (AuthPost (α := Unit) crypto i (.logout dto)) false world := Attempt.fails own
  refine Safe.now fails fun w₁ l₁ fails => ?_
  refine Safe.updateUnique (k := hashToken crypto dto.refreshToken) ?_ fails ?_ ?_
  · intro row matched
    simp only [Bool.and_eq_true, decide_eq_true_eq] at matched
    exact matched.1
  · intro w₂ l₂ missed fails
    refine Safe.done fun w₃ l₃ => ⟨rfl, Spent.grows (Later.grows l₃) (Spent.record rfl fun row found unrevoked => ?_)⟩
    have named : row.tokenHash = hashToken crypto dto.refreshToken := (Table.find_eq_some.mp found).2
    have refused := missed row found
    simp [named, unrevoked] at refused
  · intro w₂ l₂ row found matched _
    simp only [Bool.and_eq_true, decide_eq_true_eq] at matched
    refine ⟨.inr (.logout _ found matched.2), Safe.done fun w₃ l₃ => ⟨rfl, Spent.grows (Later.grows l₃) ?_⟩⟩
    exact Spent.record rfl fun other after => revoked_get found after

abbrev RotateBody (crypto : Crypto) (calls : ι → AuthCall) (i : ι) (dto : RefreshDto) :
    Post accounts HttpException (Id × String) ι :=
  Body (fun world => AuthCommits crypto world.database (.refresh dto)) (lawfulAuth crypto calls) i
    (AuthPost crypto i (.refresh dto))

/-- The transaction of a refresh establishes its promise with its commit. -/
private theorem rotate_safe {dto : RefreshDto} {now : Nat}
    (fails : Fails (lawfulAuth crypto calls) i (fun exception => exception = unauthorized)
      (RotateBody crypto calls i dto) true world) :
    Safe Never (lawfulAuth crypto calls) i (RotateBody crypto calls i dto)
      (rotate crypto (hashToken crypto dto.refreshToken) now) (some {}) world := by
  refine Safe.findFirst fails fun w₁ tokens l₁ _ fails => ?_
  refine Safe.orThrow fails rfl fun existing _ => ?_
  refine Safe.findFirst fails fun w₂ users l₂ _ fails => ?_
  refine Safe.orThrow fails rfl fun user _ => ?_
  refine Safe.updateUniqueInside (k := hashToken crypto dto.refreshToken) ?_ fails ?_ ?_
  · intro row matched
    simp only [live, Bool.and_eq_true, decide_eq_true_eq] at matched
    exact matched.1.1
  · intro w₃ l₃ _ fails
    exact Safe.throwIf fails rfl nofun
  · intro w₃ l₃ old found matched _ fails
    simp only [live, Bool.and_eq_true, decide_eq_true_eq] at matched
    refine Safe.throwIf fails rfl fun _ => ?_
    refine Safe.createInside fails fun w₄ l₄ issued built created fails => ?_
    have changed := (Held.start _).change l₃ (updating i .refreshToken true) (setRevokedAt now) found
    obtain ⟨_, absent⟩ := Database.get_none _ (by simp) created.fresh
    have held := changed.insert l₄ ⟨some i, some (.refreshToken, .create), [], true⟩ issued absent
    refine Safe.done fun w₅ l₅ => ?_
    have held := held.later l₅
    have stored := (held.pinned ⟨.refreshToken, hashToken crypto dto.refreshToken, some old⟩ (by simp)).2
    have fresh := (held.pinned ⟨.refreshToken, issued.tokenHash, none⟩ (by simp [AccountModel.key])).2
    have own : w₅.own i = [] := Fails.ownInside (fails.idle (Later.idle l₅))
    refine ⟨_, rfl, .inr (.refresh now stored matched.1.2 fresh (by rw [built]; rfl)), fun after later => ⟨rfl, ?_⟩⟩
    have other : issued.tokenHash ≠ hashToken crypto dto.refreshToken := by
      intro same
      rw [same, stored] at fresh
      cases fresh
    refine AuthCall.Keeps.idle (Later.idle later) ⟨?_, Spent.record rfl fun row found => ?_⟩
    · rw [World.own_record_same own rfl (by simp)]
      nofun
    · exact revoked_get stored ((issued_get issued other).symm.trans found)

private theorem refresh_safe {dto : RefreshDto} (own : world.own i = []) :
    Safe (fun world => AuthCommits crypto world.database (.refresh dto)) (lawfulAuth crypto calls) i
      (AuthPost crypto i (.refresh dto)) (refresh crypto dto) none world := by
  have fails : Fails (lawfulAuth crypto calls) i (fun exception => exception = unauthorized)
      (AuthPost (α := Tokens) crypto i (.refresh dto)) false world := Attempt.fails own
  refine Safe.now fails fun w₁ l₁ fails => answered_safe ?_
  have own : (w₁.record ⟨some i, none, [], false⟩ []).own i = [] := Fails.own fails
  exact Safe.transaction (Attempt.fails own) fun w₂ l₂ fails => rotate_safe fails

theorem AuthCall.safe (own : world.own i = []) :
    Safe (lawfulAuth crypto calls (some i)) (lawfulAuth crypto calls) i (AuthPost crypto i (calls i))
      ((calls i).program crypto) none world := by
  change Safe (fun world => AuthCommits crypto world.database (calls i)) _ _ _ _ _ _
  cases calls i with
  | login dto => exact answered_safe (login_safe own)
  | refresh dto => exact answered_safe (refresh_safe own)
  | logout dto => exact answered_safe (logout_safe own)

theorem AuthCommits.keeps {call : AuthCall} (commits : AuthCommits crypto database call writes) {row : RefreshToken}
    (stored : database.get .refreshToken hash = some row) (revoked : row.revokedAt ≠ none) :
    (database.applyAll writes).get .refreshToken hash = some row := by
  have issuedOther {issued : RefreshToken} (fresh : database.get .refreshToken issued.tokenHash = none) :
      issued.tokenHash ≠ hash := by
    intro same
    rw [same, stored] at fresh
    cases fresh
  have revokedOther {presented : String} {old : RefreshToken} (found : database.get .refreshToken presented = some old)
      (unrevoked : old.revokedAt = none) : old.tokenHash ≠ hash := by
    intro same
    have named : old.tokenHash = presented := (Table.find_eq_some.mp found).2
    rw [← named, same, stored] at found
    cases found
    exact revoked unrevoked
  cases commits with
  | login fresh live => exact (issued_get _ (issuedOther fresh)).trans stored
  | @refresh dto old issued now found unrevoked fresh live =>
    exact (issued_get _ (issuedOther fresh)).trans ((revoked_other old now (revokedOther found unrevoked)).trans stored)
  | @logout dto old now found unrevoked => exact (revoked_other old now (revokedOther found unrevoked)).trans stored

/-- No live token has the hash. -/
def Dead (hash : String) (database : Database accounts) : Prop :=
  ∀ row, database.get .refreshToken hash = some row → row.revokedAt ≠ none

theorem AuthCommits.dead {call : AuthCall} (commits : AuthCommits crypto database call writes) (dead : Dead hash database)
    (unissued : ∀ row ∈ putsOf (S := accounts) .refreshToken writes, database.get .refreshToken row.tokenHash = none →
      row.tokenHash ≠ hash) : Dead hash (database.applyAll writes) := by
  have revokedOther {presented : String} {old : RefreshToken} (found : database.get .refreshToken presented = some old)
      (unrevoked : old.revokedAt = none) : old.tokenHash ≠ hash := by
    intro same
    have named : old.tokenHash = presented := (Table.find_eq_some.mp found).2
    rw [← named, same] at found
    exact dead old found unrevoked
  intro row stored
  cases commits with
  | login fresh live => exact dead row ((issued_get _ (unissued _ (by simp) fresh)).symm.trans stored)
  | @refresh dto old issued now found unrevoked fresh live =>
    have kept := (issued_get issued (unissued issued (by simp) fresh)).symm.trans stored
    exact dead row ((revoked_other old now (revokedOther found unrevoked)).symm.trans kept)
  | @logout dto old now found unrevoked =>
    exact dead row ((revoked_other old now (revokedOther found unrevoked)).symm.trans stored)

theorem AuthCommits.revokes {call : AuthCall} (commits : AuthCommits crypto database call writes) {row : RefreshToken}
    (member : row ∈ putsOf (S := accounts) .refreshToken writes) (revoked : row.revokedAt ≠ none) :
    ¬ Dead row.tokenHash database ∧ (database.applyAll writes).get .refreshToken row.tokenHash = some row := by
  have living {presented : String} {old : RefreshToken} (now : Nat) (found : database.get .refreshToken presented = some old)
      (unrevoked : old.revokedAt = none) : ¬ Dead (old.revoke now).tokenHash database := by
    intro dead
    have named : old.tokenHash = presented := (Table.find_eq_some.mp found).2
    exact dead old (named ▸ found) unrevoked
  cases commits with
  | login fresh live =>
    rw [putsOf_put_same, putsOf_nil, List.mem_singleton] at member
    exact absurd (member ▸ live) revoked
  | @refresh dto old issued now found unrevoked fresh live =>
    rw [putsOf_put_same, putsOf_put_same, putsOf_nil] at member
    rcases List.mem_cons.mp member with rfl | new
    · have other : issued.tokenHash ≠ old.tokenHash := by
        intro same
        have named : old.tokenHash = hashToken crypto dto.refreshToken := (Table.find_eq_some.mp found).2
        rw [same, named, found] at fresh
        cases fresh
      exact ⟨living now found unrevoked, (issued_get issued other).trans (database.get_put .refreshToken (old.revoke now))⟩
    · exact absurd (List.mem_singleton.mp new ▸ live) revoked
  | logout now found unrevoked =>
    rw [putsOf_put_same, putsOf_nil, List.mem_singleton] at member
    subst member
    exact ⟨living now found unrevoked, database.get_put .refreshToken _⟩

/-- The hash of the token that a call presents. -/
def AuthCall.presents (crypto : Crypto) : AuthCall → Option String
  | .login _ => none
  | .refresh dto | .logout dto => some (hashToken crypto dto.refreshToken)

/-- Tokens are random: nobody has presented one before it is issued. -/
def Unguessed (crypto : Crypto) (calls : ι → AuthCall) (state : AuthState ι) (event : Event accounts ι) : Prop :=
  ∀ row ∈ putsOf (S := accounts) .refreshToken event.writes, event.before.get .refreshToken row.tokenHash = none →
    ∀ earlier ∈ state.world.trace, ∀ j, earlier.author = some j → (calls j).presents crypto ≠ some row.tokenHash

instance {n : Nat} {calls : Fin n → AuthCall} (state : AuthState (Fin n)) (event : Event accounts (Fin n)) :
    Decidable (Unguessed crypto calls state event) :=
  inferInstanceAs (Decidable (∀ row ∈ putsOf (S := accounts) .refreshToken event.writes,
    event.before.get .refreshToken row.tokenHash = none → ∀ earlier ∈ state.world.trace, ∀ j, earlier.author = some j →
      (calls j).presents crypto ≠ some row.tokenHash))

/-- Others maintain the users; statements may fail, processes stop and time pass. -/
def AuthEnvironment (crypto : Crypto) (calls : ι → AuthCall) (state : AuthState ι) (action : Action accounts ι) : Prop :=
  (∀ writes, action = .external writes → ∀ write ∈ writes, write.model = .user) ∧ state.Records (Unguessed crypto calls) action

abbrev AuthReaches (crypto : Crypto) (calls : ι → AuthCall) : AuthState ι → AuthState ι → Prop :=
  State.Reaches (AuthEnvironment crypto calls)

theorem authSystem_valid (crypto : Crypto) (database : Database accounts) (calls : ι → AuthCall) :
    Valid (lawfulAuth crypto calls) (fun i => AuthPost crypto i (calls i)) (authSystem crypto database calls) :=
  Valid.initial fun _ => AuthCall.safe rfl

theorem AuthEnvironment.allowed {state : AuthState ι} {writes : List (Write accounts)}
    (permitted : AuthEnvironment crypto calls state (.external writes)) :
    Allowed (lawfulAuth crypto calls none) state.world writes := .inr (permitted.1 writes rfl)

omit [DecidableEq ι] in
theorem lawfulAuth_keeps {author : Option ι} (lawful : Allowed (lawfulAuth crypto calls author) world writes)
    {row : RefreshToken} (stored : world.database.get .refreshToken hash = some row) (revoked : row.revokedAt ≠ none) :
    (world.database.applyAll writes).get .refreshToken hash = some row := by
  rcases lawful with rfl | lawful
  · exact stored
  · cases author with
    | some i => exact AuthCommits.keeps lawful stored revoked
    | none =>
      rw [Database.get, Database.applyAll_other _ fun write member => by rw [lawful write member]; simp]
      exact stored

omit [DecidableEq ι] in
theorem lawfulAuth_dead {author : Option ι} (lawful : Allowed (lawfulAuth crypto calls author) world writes)
    (dead : Dead hash world.database)
    (unissued : ∀ row ∈ putsOf (S := accounts) .refreshToken writes, world.database.get .refreshToken row.tokenHash = none →
      row.tokenHash ≠ hash) : Dead hash (world.database.applyAll writes) := by
  rcases lawful with rfl | lawful
  · exact dead
  · cases author with
    | some i => exact AuthCommits.dead lawful dead unissued
    | none =>
      intro row stored
      rw [Database.get, Database.applyAll_other _ fun write member => by rw [lawful write member]; simp] at stored
      exact dead row stored

/-- What the trace of a run tells about the tokens. -/
structure Chronicle (crypto : Crypto) (calls : ι → AuthCall) (world : AuthWorld ι) : Prop where
  lawful : ∀ event ∈ world.trace, ∀ i, event.author = some i →
    event.writes = [] ∨ AuthCommits crypto event.before (calls i) event.writes
  stands : ∀ event ∈ world.trace, ∀ row ∈ putsOf (S := accounts) .refreshToken event.writes, row.revokedAt ≠ none →
    world.database.get .refreshToken row.tokenHash = some row
  once : world.trace.Pairwise fun later earlier =>
    ∀ row ∈ putsOf (S := accounts) .refreshToken later.writes, ∀ other ∈ putsOf (S := accounts) .refreshToken earlier.writes,
      row.revokedAt ≠ none → other.revokedAt ≠ none → row.tokenHash ≠ other.tokenHash
  spent : ∀ event ∈ world.trace, ∀ i hash, event.author = some i → (calls i).presents crypto = some hash →
    Dead hash (event.before.applyAll event.writes) → Dead hash world.database

omit [DecidableEq ι] in
theorem Chronicle.event {label : Label accounts ι} (chronicle : Chronicle crypto calls world)
    (lawful : Allowed (lawfulAuth crypto calls label.author) world writes)
    (unissued : ∀ row ∈ putsOf (S := accounts) .refreshToken writes, world.database.get .refreshToken row.tokenHash = none →
      ∀ earlier ∈ world.trace, ∀ j, earlier.author = some j → (calls j).presents crypto ≠ some row.tokenHash) :
    Chronicle crypto calls (world.record label writes) := by
  have revokes : ∀ row ∈ putsOf (S := accounts) .refreshToken writes, row.revokedAt ≠ none →
      ¬ Dead row.tokenHash world.database ∧
        (world.database.applyAll writes).get .refreshToken row.tokenHash = some row := by
    intro row member revoked
    rcases lawful with rfl | lawful
    · cases member
    · cases author : label.author with
      | some i =>
        rw [author] at lawful
        exact AuthCommits.revokes lawful member revoked
      | none =>
        rw [author] at lawful
        rw [putsOf_other fun write written => by rw [lawful write written]; nofun] at member
        cases member
  refine ⟨?_, ?_, ?_, ?_⟩
  · intro event member i author
    rcases List.mem_cons.mp member with rfl | old
    · change label.author = some i at author
      rw [author] at lawful
      exact lawful
    · exact chronicle.lawful event old i author
  · intro event member row stored revoked
    rcases List.mem_cons.mp member with rfl | old
    · exact (revokes row stored revoked).2
    · exact lawfulAuth_keeps lawful (chronicle.stands event old row stored revoked) revoked
  · refine List.pairwise_cons.mpr ⟨?_, chronicle.once⟩
    intro earlier old row written other stored revoked before same
    have standing := chronicle.stands earlier old other stored before
    refine (revokes row written revoked).1 fun found present => ?_
    rw [same, standing] at present
    cases present
    exact before
  · intro event member i hash author presents dead
    rcases List.mem_cons.mp member with rfl | old
    · exact dead
    · refine lawfulAuth_dead lawful (chronicle.spent event old i hash author presents dead) fun row stored fresh same => ?_
      exact unissued row stored fresh event old i author (same ▸ presents)

section Reached
variable {state later : AuthState ι} {token : String}

theorem AuthReaches.chronicle (reached : AuthReaches crypto calls (authSystem crypto database calls) state) :
    Valid (lawfulAuth crypto calls) (fun i => AuthPost crypto i (calls i)) state ∧ Chronicle crypto calls state.world := by
  refine State.Reaches.invariant (fun state => Chronicle crypto calls state.world) reached
    (authSystem_valid crypto database calls) (fun _ _ => AuthEnvironment.allowed) ⟨nofun, nofun, .nil, nofun⟩ ?_
  intro state next action valid chronicle permitted executed moves
  cases moves with
  | event label writes recorded lawful active =>
    rw [recorded]
    refine chronicle.event lawful fun row stored fresh => ?_
    exact permitted.2 next _ executed (by rw [recorded, World.record_trace]) row stored fresh
  | still same => rwa [same]
  | wait elapsed waited => rw [waited]; exact ⟨chronicle.lawful, chronicle.stands, chronicle.once, chronicle.spent⟩

/-- The call has ended well. -/
def Succeeded (state : AuthState ι) (i : ι) : Prop := ∃ tokens, (state.threads i).program = .done (.ok tokens)

omit [DecidableEq ι] in
theorem Succeeded.keeps [DecidableEq ι] (valid : Valid (lawfulAuth crypto calls) (fun i => AuthPost crypto i (calls i)) state)
    (succeeded : Succeeded state i) : (calls i).Keeps crypto i state.world := by
  obtain ⟨tokens, ended⟩ := succeeded
  exact (valid.ended ended).2

/-- A call that has not ended well has committed nothing, whether it still runs or has failed. -/
theorem uncommitted (valid : Valid (lawfulAuth crypto calls) (fun i => AuthPost crypto i (calls i)) state)
    (unfinished : ¬ Succeeded state i) : state.world.own i = [] := by
  cases program : (state.threads i).program with
  | done result =>
    cases result with
    | ok tokens => exact absurd ⟨tokens, program⟩ unfinished
    | error failure => exact (valid.ended program).2.2
  | call statement next =>
    have sound := valid.sound i
    rw [Thread.Sound, program] at sound
    exact ((sound state.world .refl).1 state.world .refl).2.2

omit [DecidableEq ι] in
/-- A refresh that has committed has replaced one token by another. -/
def Exchanged (crypto : Crypto) (calls : ι → AuthCall) (world : AuthWorld ι) (old new : String) : Prop :=
  ∃ event ∈ world.trace, ∃ i dto, event.author = some i ∧ calls i = .refresh dto ∧ hashToken crypto dto.refreshToken = old ∧
    ∃ issued ∈ putsOf (S := accounts) .refreshToken event.writes,
      event.before.get .refreshToken issued.tokenHash = none ∧ issued.tokenHash = new

omit [DecidableEq ι] in
/-- The event of an exchange revokes the old token and issues the new one alone. -/
theorem Chronicle.exchange (chronicle : Chronicle crypto calls world) {event : Event accounts ι} (member : event ∈ world.trace)
    {dto : RefreshDto} (author : event.author = some i) (call : calls i = .refresh dto) {issued : RefreshToken}
    (put : issued ∈ putsOf (S := accounts) .refreshToken event.writes)
    (fresh : event.before.get .refreshToken issued.tokenHash = none) :
    ∃ old : RefreshToken, ∃ now, old.tokenHash = hashToken crypto dto.refreshToken ∧
      event.writes = [.put .refreshToken (old.revoke now), .put .refreshToken issued] := by
  rcases chronicle.lawful event member i author with none | commits
  · rw [none] at put
    cases put
  · rw [call] at commits
    generalize same : event.writes = writes at commits put
    cases commits with
    | @refresh _ old successor now stored unrevoked absent live =>
      have named : old.tokenHash = hashToken crypto dto.refreshToken := (Table.find_eq_some.mp stored).2
      refine ⟨old, now, named, ?_⟩
      rw [putsOf_put_same, putsOf_put_same, putsOf_nil] at put
      rcases List.mem_cons.mp put with rfl | successor
      · change event.before.get .refreshToken old.tokenHash = _ at fresh
        rw [named, stored] at fresh
        cases fresh
      · rw [List.mem_singleton.mp successor]

omit [DecidableEq ι] in
theorem Chronicle.unique (chronicle : Chronicle crypto calls world) {first second : Event accounts ι}
    (one : first ∈ world.trace) (two : second ∈ world.trace) {row other : RefreshToken}
    (put : row ∈ putsOf (S := accounts) .refreshToken first.writes)
    (put' : other ∈ putsOf (S := accounts) .refreshToken second.writes)
    (revoked : row.revokedAt ≠ none) (revoked' : other.revokedAt ≠ none) (same : row.tokenHash = other.tokenHash) :
    first = second := by
  let apart (later earlier : Event accounts ι) : Prop :=
    ∀ row ∈ putsOf (S := accounts) .refreshToken later.writes, ∀ other ∈ putsOf (S := accounts) .refreshToken earlier.writes,
      row.revokedAt ≠ none → other.revokedAt ≠ none → row.tokenHash ≠ other.tokenHash
  have symmetric : Std.Symm apart :=
    ⟨fun _ _ distinct row member other member' revoked revoked' =>
      (distinct other member' row member revoked' revoked).symm⟩
  by_contra different
  exact List.Pairwise.forall (R := apart) chronicle.once one two different row put other put' revoked revoked' same

omit [DecidableEq ι] in
theorem Chronicle.successor (chronicle : Chronicle crypto calls world) {old first second : String}
    (one : Exchanged crypto calls world old first) (two : Exchanged crypto calls world old second) : first = second := by
  obtain ⟨event, member, i, dto, author, call, presented, issued, put, fresh, rfl⟩ := one
  obtain ⟨event', member', j, dto', author', call', presented', issued', put', fresh', rfl⟩ := two
  obtain ⟨row, now, named, writes⟩ := chronicle.exchange member author call put fresh
  obtain ⟨row', now', named', writes'⟩ := chronicle.exchange member' author' call' put' fresh'
  have same : event = event' := by
    have put : row.revoke now ∈ putsOf (S := accounts) .refreshToken event.writes := by
      rw [writes, putsOf_put_same]
      exact List.mem_cons_self
    have put' : row'.revoke now' ∈ putsOf (S := accounts) .refreshToken event'.writes := by
      rw [writes', putsOf_put_same]
      exact List.mem_cons_self
    exact chronicle.unique member member' put put' nofun nofun <|
      named.trans (presented.trans (presented'.symm.trans named'.symm))
  subst same
  simp only [writes, List.cons.injEq, Write.put.injEq, heq_eq_eq, true_and, and_true] at writes'
  rw [writes'.2]

omit [DecidableEq ι] in
theorem Chronicle.exchanged (chronicle : Chronicle crypto calls world) {old new : String}
    (exchanged : Exchanged crypto calls world old new) : Dead old world.database := by
  obtain ⟨event, member, i, dto, author, call, presented, issued, put, fresh, rfl⟩ := exchanged
  obtain ⟨row, now, named, writes⟩ := chronicle.exchange member author call put fresh
  intro found stored
  have stands := chronicle.stands event member (row.revoke now) (by rw [writes, putsOf_put_same]; exact List.mem_cons_self) nofun
  change world.database.get .refreshToken row.tokenHash = _ at stands
  rw [named, presented, stored] at stands
  cases stands
  nofun

omit [DecidableEq ι] in
/-- In the chain of successors of a token at most one is not revoked. -/
theorem Chronicle.chain (chronicle : Chronicle crypto calls world) {first one two : String}
    (reached : Relation.ReflTransGen (Exchanged crypto calls world) first one)
    (reached' : Relation.ReflTransGen (Exchanged crypto calls world) first two)
    (live : ¬ Dead one world.database) (live' : ¬ Dead two world.database) : one = two := by
  have last {token last : String} (living : ¬ Dead token world.database)
      (further : Relation.ReflTransGen (Exchanged crypto calls world) token last) : token = last := by
    rcases Relation.ReflTransGen.cases_head further with same | ⟨next, exchanged, _⟩
    · exact same
    · exact absurd (chronicle.exchanged exchanged) living
  rcases Relation.ReflTransGen.total_of_right_unique (r := Exchanged crypto calls world)
    (fun _ _ _ => chronicle.successor) reached reached' with further | further
  · exact last live further
  · exact (last live' further).symm

theorem Chronicle.committed (chronicle : Chronicle crypto calls world) (committed : world.own i ≠ []) :
    ∃ event ∈ world.trace, event.author = some i ∧ AuthCommits crypto event.before (calls i) event.writes := by
  obtain ⟨writes, member⟩ := List.exists_mem_of_ne_nil _ committed
  obtain ⟨event, traced, rfl⟩ := List.mem_map.mp member
  obtain ⟨traced, kept⟩ := List.mem_filter.mp traced
  simp only [Bool.and_eq_true, decide_eq_true_eq, Bool.not_eq_true'] at kept
  refine ⟨event, traced, kept.1, (chronicle.lawful event traced i kept.1).resolve_left fun none => ?_⟩
  rw [none] at kept
  cases kept.2

theorem Chronicle.ends (chronicle : Chronicle crypto calls state.world)
    (valid : Valid (lawfulAuth crypto calls) (fun i => AuthPost crypto i (calls i)) state) {hash : String}
    (presents : (calls i).presents crypto = some hash) (ended : state.world.own i ≠ [] ∨ Succeeded state i) :
    Dead hash state.world.database ∧ ∃ event ∈ state.world.trace, event.author = some i := by
  have spent : Spent i hash state.world := by
    rcases ended with committed | succeeded
    · obtain ⟨event, member, author, commits⟩ := chronicle.committed committed
      refine ⟨event, member, author, ?_⟩
      generalize event.writes = writes at commits
      generalize called : calls i = call at commits presents
      cases commits with
      | login fresh live => cases presents
      | refresh now stored unrevoked fresh live =>
        cases presents
        intro row found
        refine revoked_get stored ((issued_get _ ?_).symm.trans found)
        intro same
        rw [same, stored] at fresh
        cases fresh
      | logout now stored unrevoked =>
        cases presents
        intro row found
        exact revoked_get stored found
    · have keeps := Succeeded.keeps valid succeeded
      generalize calls i = call at keeps presents
      cases call with
      | login dto => cases presents
      | refresh dto =>
        cases presents
        exact keeps.2
      | logout dto =>
        cases presents
        exact keeps
  obtain ⟨event, member, author, dead⟩ := spent
  exact ⟨chronicle.spent event member i hash author presents dead, event, member, author⟩

/-- Once a token is dead, a refresh of it that has not committed never will. -/
theorem AuthReaches.refused (reached : AuthReaches crypto calls state later)
    (valid : Valid (lawfulAuth crypto calls) (fun i => AuthPost crypto i (calls i)) state)
    {j : ι} {dto : RefreshDto} (dead : Dead (hashToken crypto dto.refreshToken) state.world.database)
    (known : ∃ event ∈ state.world.trace, event.author = some j)
    (presents : (calls j).presents crypto = some (hashToken crypto dto.refreshToken)) (call : calls i = .refresh dto)
    (uncommitted : state.world.own i = []) : ¬ Succeeded later i ∧ later.world.own i = [] := by
  let refused (world : AuthWorld ι) : Prop :=
    Dead (hashToken crypto dto.refreshToken) world.database ∧ (∃ event ∈ world.trace, event.author = some j) ∧
      world.own i = []
  have preserved : ∀ state next action, Valid (lawfulAuth crypto calls) (fun i => AuthPost crypto i (calls i)) state →
      refused state.world → AuthEnvironment crypto calls state action → state.step action = some next →
      Moves (lawfulAuth crypto calls) state next → refused next.world := by
    intro state next action valid refused permitted executed moves
    obtain ⟨dead, ⟨event, member, author⟩, none⟩ := refused
    cases moves with
    | event label writes recorded lawful active =>
      rw [recorded]
      refine ⟨lawfulAuth_dead lawful dead fun row stored fresh same => ?_, ⟨event, List.mem_cons_of_mem _ member, author⟩, ?_⟩
      · exact permitted.2 next _ executed (by rw [recorded, World.record_trace]) row stored fresh event member j author
          (same ▸ presents)
      · by_cases mine : label.author = some i
        · rw [mine] at lawful
          rcases lawful with rfl | commits
          · rw [World.own_record_empty]
            exact none
          · change AuthCommits crypto state.world.database (calls i) writes at commits
            rw [call] at commits
            cases commits with
            | refresh now stored unrevoked fresh live => exact absurd unrevoked (dead _ stored)
        · rw [World.own_record_other i _ mine]
          exact none
    | still same => exact same ▸ ⟨dead, ⟨event, member, author⟩, none⟩
    | wait elapsed waited => exact waited ▸ ⟨dead, ⟨event, member, author⟩, none⟩
  obtain ⟨sound, _, _, none⟩ := State.Reaches.invariant (fun state => refused state.world) reached valid
    (fun _ _ => AuthEnvironment.allowed) ⟨dead, known, uncommitted⟩ preserved
  refine ⟨fun succeeded => ?_, none⟩
  have keeps := Succeeded.keeps sound succeeded
  rw [call] at keeps
  exact keeps.1 none

theorem AuthReaches.keeps (reached : AuthReaches crypto calls state later)
    (valid : Valid (lawfulAuth crypto calls) (fun i => AuthPost crypto i (calls i)) state) {row : RefreshToken}
    (stored : state.world.database.get .refreshToken hash = some row) (revoked : row.revokedAt ≠ none) :
    later.world.database.get .refreshToken hash = some row := by
  refine (State.Reaches.invariant (fun state => state.world.database.get (S := accounts) .refreshToken hash = some row)
    reached valid
    (fun _ _ => AuthEnvironment.allowed) stored ?_).2
  intro state next action _ kept _ _ moves
  cases moves with
  | event label writes recorded lawful active =>
    rw [recorded]
    exact lawfulAuth_keeps lawful kept revoked
  | still same => rwa [same]
  | wait elapsed waited => rwa [waited]

/-- In every run a token has one successor and is exchanged by one refresh, at
most one token of a chain is not revoked, a revoked token stays revoked, a refresh
that fails has committed nothing, and after a refresh or logout no other refresh of
the token succeeds or commits anything. -/
theorem refresh_tokens_rotate (reached : AuthReaches crypto calls (authSystem crypto database calls) state) :
    (∀ old one two, Exchanged crypto calls state.world old one → Exchanged crypto calls state.world old two → one = two) ∧
    (∀ i j one two, calls i = .refresh one → calls j = .refresh two →
      hashToken crypto one.refreshToken = hashToken crypto two.refreshToken → Succeeded state i → Succeeded state j → i = j) ∧
    (∀ first one two, Relation.ReflTransGen (Exchanged crypto calls state.world) first one →
      Relation.ReflTransGen (Exchanged crypto calls state.world) first two →
      ¬ Dead one state.world.database → ¬ Dead two state.world.database → one = two) ∧
    (∀ i, state.failed i → state.world.own i = []) ∧
    ∀ later, AuthReaches crypto calls state later →
      (∀ hash row, state.world.database.get .refreshToken hash = some row → row.revokedAt ≠ none →
        later.world.database.get .refreshToken hash = some row) ∧
      ∀ i j dto, (calls j).presents crypto = some (hashToken crypto dto.refreshToken) →
        state.world.own j ≠ [] ∨ Succeeded state j → calls i = .refresh dto → state.world.own i = [] →
        ¬ Succeeded later i ∧ later.world.own i = [] := by
  obtain ⟨valid, chronicle⟩ := reached.chronicle
  refine ⟨fun _ _ _ => chronicle.successor, ?_, fun _ _ _ => chronicle.chain, ?_, ?_⟩
  · intro i j one two called called' same succeeded succeeded'
    have exchanges {k : ι} {dto : RefreshDto} (called : calls k = .refresh dto) (succeeded : Succeeded state k) :
        ∃ event ∈ state.world.trace, event.author = some k ∧ ∃ row ∈ putsOf (S := accounts) .refreshToken event.writes,
          row.revokedAt ≠ none ∧ row.tokenHash = hashToken crypto dto.refreshToken := by
      have keeps := Succeeded.keeps valid succeeded
      rw [called] at keeps
      obtain ⟨event, member, author, commits⟩ := chronicle.committed keeps.1
      rw [called] at commits
      refine ⟨event, member, author, ?_⟩
      generalize event.writes = writes at commits
      cases commits with
      | @refresh _ old issued now stored unrevoked fresh live =>
        refine ⟨old.revoke now, ?_, nofun, (Table.find_eq_some.mp stored).2⟩
        rw [putsOf_put_same]
        exact List.mem_cons_self
    obtain ⟨event, member, author, row, put, revoked, named⟩ := exchanges called succeeded
    obtain ⟨event', member', author', row', put', revoked', named'⟩ := exchanges called' succeeded'
    obtain rfl := chronicle.unique member member' put put' revoked revoked' (named.trans (same.trans named'.symm))
    exact Option.some.inj (author.symm.trans author')
  · rintro i ⟨failure, ended⟩
    exact (valid.ended ended).2.2
  · intro later further
    refine ⟨fun hash row stored revoked => further.keeps valid stored revoked, ?_⟩
    intro i j dto presents ended call none
    obtain ⟨dead, known⟩ := chronicle.ends valid presents ended
    exact further.refused valid dead known presents call none

end Reached

/-- Alice logs in and her token is presented twice. -/
def demoCrypto : Crypto where
  randomBytes stamp := if stamp = 1 then "first" else "second"
  sha256 token := "sha256:" ++ token
  verify _ password := password = "password"
  signAsync _ := "access"
  normalizeEmail email := email

def demoAccounts : Database accounts := ⟨fun
  | .user => ⟨[⟨0, "alice@example.com", some "hash", .active⟩], by simp⟩
  | .refreshToken => Table.empty⟩

def demoCalls : Fin 3 → AuthCall
  | 0 => .login ⟨"alice@example.com", "password"⟩
  | _ => .refresh ⟨"first"⟩

theorem refresh_tokens_rotate_twice : ∃ state, AuthReaches demoCrypto demoCalls
    (authSystem demoCrypto demoAccounts demoCalls) state ∧ Succeeded state 1 ∧
      (∀ old one two, Exchanged demoCrypto demoCalls state.world old one →
        Exchanged demoCrypto demoCalls state.world old two → one = two) ∧
      ∀ later, AuthReaches demoCrypto demoCalls state later → ¬ Succeeded later 2 := by
  have executed : ((authSystem demoCrypto demoAccounts demoCalls).runWhile
      (fun state event => Unguessed demoCrypto demoCalls state event)
      (List.replicate 2 (.run 0 []) ++ List.replicate 7 (.run 1 []))).any
        (fun state => state.finished 1 && !state.failed 1 && (state.world.own 2).isEmpty) = true := by decide +kernel
  obtain ⟨state, ran, seen⟩ := State.Reaches.undisturbed executed rfl
  simp only [Bool.and_eq_true, decide_eq_true_eq, Bool.not_eq_true', decide_eq_false_iff_not, List.isEmpty_iff] at seen
  obtain ⟨⟨⟨result, ended⟩, unfailed⟩, none⟩ := seen
  have reached : AuthReaches demoCrypto demoCalls (authSystem demoCrypto demoAccounts demoCalls) state := by
    refine ran.weaken fun state action allowed => ⟨?_, allowed.2⟩
    rintro writes rfl
    cases allowed.1
  have succeeded : Succeeded state 1 := by
    cases result with
    | ok tokens => exact ⟨tokens, ended⟩
    | error failure => exact absurd ⟨failure, ended⟩ unfailed
  obtain ⟨successor, _, _, _, after⟩ := refresh_tokens_rotate reached
  refine ⟨state, reached, succeeded, successor, fun later further => ?_⟩
  exact ((after later further).2 2 1 ⟨"first"⟩ rfl (.inr succeeded) rfl none).1

end BusinessPlatform.AuthService
