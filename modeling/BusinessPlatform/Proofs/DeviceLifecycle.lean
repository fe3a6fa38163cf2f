import BusinessPlatform.PosDeviceService
import BusinessPlatform.Engine.Faults
import BusinessPlatform.Engine.Stability

/-! The lifecycle and the credentials of POS devices over whole runs. -/

namespace BusinessPlatform.PosDeviceService
open Engine

variable {ι : Type} [DecidableEq ι] {sha256 : Sha256} {randomBytes : ι → String} {calls : ι → DeviceCall} {i : ι}
  {world : DeviceWorld ι} {database : Database devices} {writes : List (Write devices)} {credential : String}

/-- A registration stores a new device, all others store the device that they find. -/
inductive DeviceCommits (sha256 : Sha256) (credential : String) (database : Database devices) :
    DeviceCall → List (Write devices) → Prop where
  | register {tenantId : Id} {dto : CreatePosDeviceDto} (id now : Nat) (fresh : database.get .posDevice id = none) :
      DeviceCommits sha256 credential database (.register tenantId dto)
        [.put .posDevice (registered sha256 credential tenantId dto id now)]
  | update {tenantId id : Id} {dto : UpdatePosDeviceDto} {row : PosDevice}
      (found : database.get .posDevice id = some row) :
      DeviceCommits sha256 credential database (.update tenantId id dto) [.put .posDevice ((patch dto).apply row)]
  | transition {tenantId id : Id} {action : DeviceAction} {row : PosDevice}
      (found : database.get .posDevice id = some row) (expected : row.status ∈ action.expected) :
      DeviceCommits sha256 credential database (.transition tenantId id action)
        [.put .posDevice { row with status := action.target }]
  | rotate {tenantId id : Id} {row : PosDevice} (found : database.get .posDevice id = some row)
      (live : row.status ≠ .retired) :
      DeviceCommits sha256 credential database (.rotate tenantId id)
        [.put .posDevice { row with credentialHash := sha256 credential }]

/-- A call commits once. Others maintain the stores. -/
def lawfulDevices (sha256 : Sha256) (randomBytes : ι → String) (calls : ι → DeviceCall) : Guarantee devices ι
  | some i, world, writes => world.own i = [] ∧ DeviceCommits sha256 (randomBytes i) world.database (calls i) writes
  | none, _, writes => ∀ write ∈ writes, write.model = .store

abbrev SafeDevice {α : Type} (rely : Guarantee devices ι) (sha256 : Sha256) (credential : String) (i : ι) (call : DeviceCall)
    (program : DeviceService α) (world : DeviceWorld ι) : Prop :=
  Safe (fun world writes => world.own i = [] ∧ DeviceCommits sha256 credential world.database call writes) rely i
    (fun _ _ _ => True) program none world

variable {rely : Guarantee devices ι} {call : DeviceCall} {α : Type} {tenantId id : Id}

omit [DecidableEq ι] in
private theorem fails_always {inside : Bool} :
    Fails (ε := HttpException) (α := α) rely i (fun _ => True) (fun _ _ _ => True) inside world :=
  fun _ _ _ _ _ _ => trivial

private theorem answered_safe {β : Type} {service : DeviceService α} {answer : α → β}
    (safe : SafeDevice rely sha256 credential i call service world) :
    SafeDevice rely sha256 credential i call (do let value ← service; pure (answer value)) world := by
  refine Safe.bind (Safe.weaken safe ?_)
  intro result session after _
  cases result with
  | error failure => trivial
  | ok value => exact Safe.done fun _ _ => trivial

private theorem mapNameTaken_safe {request : DeviceService α} (safe : SafeDevice rely sha256 credential i call request world) :
    SafeDevice rely sha256 credential i call (mapNameTaken request) world := by
  refine Safe.tryCatch rfl (Safe.weaken safe ?_)
  intro result session after _
  cases result with
  | ok value => trivial
  | error failure =>
    simp only
    split
    next => exact Safe.done fun _ _ => trivial
    next => exact Safe.done fun _ _ => trivial

private theorem found_of {row : PosDevice} (member : row ∈ (database.table .posDevice).rows)
    (matched : named tenantId id row = true) : database.get .posDevice id = some row := by
  simp only [named, Bool.and_eq_true, decide_eq_true_eq] at matched
  exact Table.find_eq_some.mpr ⟨member, matched.1⟩

/-- The guard of the update is evaluated on the row that is written. -/
private theorem guarded_safe {statuses : List PosDeviceStatus} {change : Change devices .posDevice} {refusal : String}
    (own : world.own i = []) (commits : ∀ (database : Database devices) row, database.get .posDevice id = some row →
      row.status ∈ statuses → DeviceCommits sha256 credential database call [.put .posDevice (change.apply row)]) :
    SafeDevice rely sha256 credential i call (guarded tenantId id statuses change refusal) world := by
  refine Safe.findFirst fails_always fun w₁ rows l₁ _ _ => ?_
  refine Safe.orThrow fails_always trivial fun device _ => Safe.throwIf fails_always trivial fun _ => ?_
  refine Safe.updateUnique (k := id) ?_ fails_always ?_ ?_
  · intro row matched
    simp only [inStatus, named, Bool.and_eq_true, decide_eq_true_eq] at matched
    exact matched.1.1
  · intro w₂ l₂ _ _
    exact Safe.throwIf fails_always trivial nofun
  · intro w₂ l₂ row found matched _
    have unwritten : w₂.own i = [] := by
      rw [Idle.own (Later.idle l₂), World.own_record_empty, Idle.own (Later.idle l₁), own]
    simp only [inStatus, Bool.and_eq_true, decide_eq_true_eq] at matched
    refine ⟨.inr ⟨unwritten, commits w₂.database row found matched.2⟩, Safe.throwIf fails_always trivial fun _ => ?_⟩
    refine Safe.findFirst fails_always fun w₃ fresh l₃ _ _ => ?_
    rw [← bind_pure (Program.orThrow ..)]
    exact Safe.orThrow fails_always trivial fun _ _ => Safe.done fun _ _ => trivial

private theorem registerDevice_safe {dto : CreatePosDeviceDto} (own : world.own i = []) :
    SafeDevice rely sha256 credential i (.register tenantId dto) (registerDevice sha256 credential tenantId dto) world := by
  refine Safe.findFirst fails_always fun w₁ rows l₁ _ _ => Safe.throwIf fails_always trivial fun _ => ?_
  refine answered_safe (mapNameTaken_safe ?_)
  rw [← bind_pure (Program.create ..)]
  refine Safe.create fails_always fun w₂ l₂ row built created => ?_
  subst built
  have unwritten : w₂.own i = [] := by
    rw [Idle.own (Later.idle l₂), World.own_record_empty, Idle.own (Later.idle l₁), own]
  exact ⟨.inr ⟨unwritten, .register _ _ created.fresh⟩, Safe.done fun _ _ => trivial⟩

private theorem updateDevice_safe {dto : UpdatePosDeviceDto} (own : world.own i = []) :
    SafeDevice rely sha256 credential i (.update tenantId id dto) (updateDevice tenantId id dto) world := by
  refine Safe.findFirst fails_always fun w₁ rows l₁ _ _ => Safe.throwIf fails_always trivial fun _ => ?_
  refine answered_safe (mapNameTaken_safe ?_)
  rw [← bind_pure (Program.update ..)]
  refine Safe.update fails_always fun w₂ l₂ row member matched _ => ?_
  have unwritten : w₂.own i = [] := by
    rw [Idle.own (Later.idle l₂), World.own_record_empty, Idle.own (Later.idle l₁), own]
  exact ⟨.inr ⟨unwritten, .update (found_of member matched)⟩, Safe.done fun _ _ => trivial⟩

theorem DeviceCall.safe (call : DeviceCall) (own : world.own i = []) :
    SafeDevice rely sha256 credential i call (call.program sha256 credential) world := by
  cases call with
  | register tenantId dto => exact answered_safe (registerDevice_safe own)
  | update tenantId id dto => exact answered_safe (updateDevice_safe own)
  | transition tenantId id action =>
    exact answered_safe (answered_safe (guarded_safe own fun _ _ found expected => .transition found expected))
  | rotate tenantId id =>
    refine answered_safe (answered_safe (guarded_safe own fun _ row found expected => .rotate found fun retired => ?_))
    rw [retired] at expected
    cases expected with
    | tail _ later => cases later with
      | tail _ last => cases last

/-- The edges of the state machine. Nothing leaves RETIRED. -/
inductive PosDeviceStatus.Next : PosDeviceStatus → PosDeviceStatus → Prop where
  | suspend : Next .active .suspended
  | resume : Next .suspended .active
  | retire {before : PosDeviceStatus} (live : before = .active ∨ before = .suspended) : Next before .retired

/-- What may have become of a device. -/
structure Follows (before after : PosDevice) : Prop where
  moves : after.status = before.status ∨ before.status.Next after.status
  retired : before.status = .retired → after.status = .retired ∧ after.credentialHash = before.credentialHash
  store : after.storeId = before.storeId

theorem Follows.refl (device : PosDevice) : Follows device device := ⟨.inl rfl, fun retired => ⟨retired, rfl⟩, rfl⟩

theorem Follows.trans {first middle last : PosDevice} (early : Follows first middle) (late : Follows middle last) :
    Follows first last := by
  refine ⟨?_, fun retired => ?_, late.store.trans early.store⟩
  · rcases early.moves with same | next
    · exact same ▸ late.moves
    · rcases late.moves with same | further
      · exact .inr (same ▸ next)
      · generalize first.status = one at next ⊢
        generalize middle.status = two at next further
        generalize last.status = three at further ⊢
        cases further with
        | suspend =>
          cases next with
          | resume => exact .inl rfl
        | resume =>
          cases next with
          | suspend => exact .inl rfl
        | retire live =>
          cases next with
          | suspend => exact .inr (.retire (.inl rfl))
          | resume => exact .inr (.retire (.inr rfl))
          | retire => exact absurd live (by simp)
  · obtain ⟨status, hash⟩ := early.retired retired
    obtain ⟨status', hash'⟩ := late.retired status
    exact ⟨status', hash'.trans hash⟩

/-- The calls that issue a new secret. -/
def DeviceCall.issues : DeviceCall → Bool
  | .register .. | .rotate .. => true
  | .update .. | .transition .. => false

/-- A commit stores one device. If the call issues a secret it has the hash of it,
otherwise the hash that it had. -/
theorem DeviceCommits.stores {call : DeviceCall} (commits : DeviceCommits sha256 credential database call writes) :
    ∃ device, writes = [.put .posDevice device] ∧
      (∀ row, database.get .posDevice device.id = some row → Follows row device) ∧
      (call.issues = true → device.credentialHash = sha256 credential) ∧
      (call.issues = false → ∃ row, database.get .posDevice device.id = some row ∧
        device.credentialHash = row.credentialHash) := by
  have known {id : Id} {row : PosDevice} (found : database.get .posDevice id = some row) :
      database.get .posDevice row.id = some row := by
    obtain rfl : row.id = id := (Table.find_eq_some.mp found).2
    exact found
  have same {id : Id} {row old : PosDevice} (found : database.get .posDevice id = some row)
      (stored : database.get .posDevice row.id = some old) : old = row := by
    exact Option.some.inj (stored.symm.trans (known found))
  cases commits with
  | register id now fresh =>
    refine ⟨_, rfl, fun row stored => ?_, fun _ => rfl, nofun⟩
    cases fresh.symm.trans stored
  | @update _ id dto row found =>
    refine ⟨_, rfl, fun old stored => ?_, nofun, fun _ => ⟨row, known found, rfl⟩⟩
    cases same found stored
    exact ⟨.inl rfl, fun retired => ⟨retired, rfl⟩, rfl⟩
  | @transition _ id action row found expected =>
    refine ⟨_, rfl, fun old stored => ?_, nofun, fun _ => ⟨row, known found, rfl⟩⟩
    cases same found stored
    refine ⟨.inr ?_, fun retired => ?_, rfl⟩
    · cases action with
      | suspend => exact List.mem_singleton.mp expected ▸ .suspend
      | resume => exact List.mem_singleton.mp expected ▸ .resume
      | retire => exact .retire (by simpa [DeviceAction.expected] using expected)
    · rw [retired] at expected
      cases action <;> simp [DeviceAction.expected] at expected
  | @rotate _ id row found live =>
    refine ⟨_, rfl, fun old stored => ?_, fun _ => rfl, nofun⟩
    cases same found stored
    exact ⟨.inl rfl, fun retired => absurd retired live, rfl⟩

theorem lawfulDevices.keeps : Keeps (lawfulDevices sha256 randomBytes calls) .posDevice Follows := by
  intro author world writes lawful
  cases author with
  | none =>
    refine ⟨erasesOf_other fun write member => ?_, fun row member => ?_⟩
    · rw [lawful write member]
      nofun
    · obtain written := mem_putsOf.mp member
      cases lawful _ written
  | some i =>
    obtain ⟨device, rfl, follows, _⟩ := lawful.2.stores
    refine ⟨rfl, fun row member old found => ?_⟩
    cases List.mem_singleton.mp member
    exact follows old found

theorem Grows.follows {before after : DeviceWorld ι} (grows : Grows (lawfulDevices sha256 randomBytes calls) before after)
    {id : Id} {device : PosDevice} (found : before.database.get .posDevice id = some device) :
    ∃ later, after.database.get .posDevice id = some later ∧ Follows device later := by
  obtain ⟨later, now, path⟩ := Grows.row lawfulDevices.keeps grows found
  refine ⟨later, now, ?_⟩
  clear now
  induction path with
  | refl => exact .refl device
  | tail _ step ih => exact ih.trans step

/-- The secret that an event issues for a device. -/
def issued (randomBytes : ι → String) (calls : ι → DeviceCall) (id : Id) (event : Event devices ι) : Option String :=
  event.author.bind fun i =>
    if (calls i).issues && (putsOf (S := devices) .posDevice event.writes).any (fun row => row.id = id) then
      some (randomBytes i)
    else none

/-- All secrets that were ever issued for a device, the last one first. `original`
tells with which one a device of the start was registered or rotated last. -/
def secrets (randomBytes : ι → String) (calls : ι → DeviceCall) (original : Id → Option String) (id : Id)
    (trace : List (Event devices ι)) : List String :=
  trace.filterMap (issued randomBytes calls id) ++ (original id).toList

/-- The stored hash is of the last secret, and no secret was issued twice. -/
structure Credentialed (sha256 : Sha256) (randomBytes : ι → String) (calls : ι → DeviceCall)
    (original : Id → Option String) (world : DeviceWorld ι) : Prop where
  current : ∀ id row, world.database.get .posDevice id = some row →
    ∃ secret, (secrets randomBytes calls original id world.trace).head? = some secret ∧ row.credentialHash = sha256 secret
  known : ∀ id, ∀ secret ∈ secrets randomBytes calls original id world.trace,
    original id = some secret ∨ ∃ i, secret = randomBytes i ∧ world.own i ≠ []
  distinct : ∀ id, (secrets randomBytes calls original id world.trace).Nodup

variable {original : Id → Option String}

omit [DecidableEq ι] in
theorem secrets_silent {label : Label devices ι} {id : Id}
    (silent : issued randomBytes calls id ⟨label, world.database, writes⟩ = none) :
    secrets randomBytes calls original id (world.record label writes).trace =
      secrets randomBytes calls original id world.trace := by
  simp [secrets, silent]

omit [DecidableEq ι] in
theorem secrets_issued {label : Label devices ι} {id : Id} {secret : String}
    (issues : issued randomBytes calls id ⟨label, world.database, writes⟩ = some secret) :
    secrets randomBytes calls original id (world.record label writes).trace =
      secret :: secrets randomBytes calls original id world.trace := by
  simp [secrets, issues]

/-- An event keeps the invariant if each device that it stores has the hash of the
secret that it issues or the hash that it had. -/
theorem Credentialed.record (credentialed : Credentialed sha256 randomBytes calls original world)
    (random : Function.Injective randomBytes) (fresh : ∀ i id, original id ≠ some (randomBytes i)) {label : Label devices ι}
    (issues : ∀ id secret, issued randomBytes calls id ⟨label, world.database, writes⟩ = some secret →
      ∃ i, secret = randomBytes i ∧ label.author = some i ∧ world.own i = [] ∧ writes ≠ [])
    (hashes : ∀ id row, (world.database.applyAll writes).get .posDevice id = some row →
      (∃ secret, issued randomBytes calls id ⟨label, world.database, writes⟩ = some secret ∧
        row.credentialHash = sha256 secret) ∨
      issued randomBytes calls id ⟨label, world.database, writes⟩ = none ∧
        ∃ old, world.database.get .posDevice id = some old ∧ row.credentialHash = old.credentialHash) :
    Credentialed sha256 randomBytes calls original (world.record label writes) := by
  have kept {i : ι} (written : world.own i ≠ []) : (world.record label writes).own i ≠ [] := by
    rw [World.own, World.record_trace, List.filter_cons]
    split
    · simp
    · exact written
  refine ⟨fun id row found => ?_, fun id secret member => ?_, fun id => ?_⟩
  · rcases hashes id row found with ⟨secret, issuing, same⟩ | ⟨silent, old, before, same⟩
    · rw [secrets_issued issuing]
      exact ⟨secret, rfl, same⟩
    · rw [secrets_silent silent, same]
      exact credentialed.current id old before
  · have earlier (member : secret ∈ secrets randomBytes calls original id world.trace) :
        original id = some secret ∨ ∃ i, secret = randomBytes i ∧ (world.record label writes).own i ≠ [] := by
      rcases credentialed.known id secret member with first | ⟨i, drawn, written⟩
      · exact .inl first
      · exact .inr ⟨i, drawn, kept written⟩
    cases issuing : issued randomBytes calls id ⟨label, world.database, writes⟩ with
    | none =>
      rw [secrets_silent issuing] at member
      exact earlier member
    | some new =>
      rw [secrets_issued issuing] at member
      rcases List.mem_cons.mp member with rfl | before
      · obtain ⟨i, drawn, author, none, written⟩ := issues id secret issuing
        refine .inr ⟨i, drawn, ?_⟩
        rw [World.own_record_same none author written]
        simp
      · exact earlier before
  · cases issuing : issued randomBytes calls id ⟨label, world.database, writes⟩ with
    | none =>
      rw [secrets_silent issuing]
      exact credentialed.distinct id
    | some new =>
      rw [secrets_issued issuing, List.nodup_cons]
      refine ⟨fun member => ?_, credentialed.distinct id⟩
      obtain ⟨i, rfl, author, none, written⟩ := issues id new issuing
      -- a call that has committed nothing has not issued its secret yet
      rcases credentialed.known id _ member with first | ⟨j, same, committed⟩
      · exact fresh i id first
      · exact committed (random same ▸ none)

theorem Credentialed.grows {before after : DeviceWorld ι} (credentialed : Credentialed sha256 randomBytes calls original before)
    (random : Function.Injective randomBytes) (fresh : ∀ i id, original id ≠ some (randomBytes i))
    (grows : Grows (lawfulDevices sha256 randomBytes calls) before after) :
    Credentialed sha256 randomBytes calls original after := by
  have unwritten (id : Id) (label : Label devices ι) (database : Database devices) (writes : List (Write devices))
      (none : putsOf (S := devices) .posDevice writes = []) :
      issued randomBytes calls id ⟨label, database, writes⟩ = .none := by
    rw [issued, none]
    cases label.author <;> simp
  refine Grows.invariant (Credentialed sha256 randomBytes calls original) grows credentialed ?_ ?_ fun _ _ holds => ?_
  · intro world label writes _ holds lawful
    cases author : label.author with
    | none =>
      rw [author] at lawful
      have other : ∀ write ∈ writes, write.model ≠ .posDevice := fun write member => by
        rw [lawful write member]
        simp
      have silent (id : Id) := unwritten id label world.database writes (putsOf_other other)
      refine holds.record random fresh (fun id secret issuing => ?_) fun id row found => .inr ⟨silent id, row, ?_, rfl⟩
      · cases (silent id).symm.trans issuing
      · rwa [Database.get, Database.applyAll_other _ other] at found
    | some i =>
      rw [author] at lawful
      obtain ⟨none, commits⟩ := lawful
      obtain ⟨device, rfl, _, issuing, silent⟩ := commits.stores
      have issue (id : Id) : issued randomBytes calls id ⟨label, world.database, [.put .posDevice device]⟩ =
          if (calls i).issues = true ∧ device.id = id then some (randomBytes i) else .none := by
        simp [issued, author]
      refine holds.record random fresh (fun id secret issuing => ?_) fun id row found => ?_
      · rw [issue] at issuing
        split at issuing
        next =>
          cases issuing
          exact ⟨i, rfl, author, none, (by simp)⟩
        next => cases issuing
      · rw [issue]
        have get : (world.database.applyAll [.put .posDevice device]).get .posDevice id =
            if device.id = id then some device else world.database.get .posDevice id := by
          rw [Database.get, Database.applyAll_cons, Database.applyAll_nil, Write.apply_put_same, Table.find_put]
          rfl
        rw [get] at found
        by_cases same : device.id = id
        · rw [if_pos same] at found
          cases found
          by_cases issues : (calls i).issues = true
          · exact .inl ⟨_, by rw [if_pos ⟨issues, same⟩], issuing issues⟩
          · refine .inr ⟨by rw [if_neg fun both => issues both.1], ?_⟩
            obtain ⟨old, stored, hash⟩ := silent (by simpa using issues)
            exact ⟨old, same ▸ stored, hash⟩
        · rw [if_neg same] at found
          exact .inr ⟨by rw [if_neg fun both => same both.2], row, found, rfl⟩
  · intro world label holds
    have silent (id : Id) := unwritten id label world.database [] rfl
    refine holds.record random fresh (fun id secret issuing => ?_) fun id row found => .inr ⟨silent id, row, found, rfl⟩
    cases (silent id).symm.trans issuing
  · exact ⟨holds.current, holds.known, holds.distinct⟩

variable {state : DeviceState ι}

omit [DecidableEq ι] in
theorem verifyCredential_iff (injective : Function.Injective sha256) {device : PosDevice} {secret presented : String}
    (hash : device.credentialHash = sha256 secret) : verifyCredential sha256 device presented = true ↔ presented = secret := by
  simp only [verifyCredential, hash]
  constructor
  · intro accepted
    split at accepted
    next => cases accepted
    next => exact injective (of_decide_eq_true accepted)
  · rintro rfl
    simp

/-- Others maintain the stores; statements may fail, processes stop and time pass. -/
def DeviceEnvironment (_ : DeviceState ι) : Action devices ι → Prop
  | .external writes => ∀ write ∈ writes, write.model = .store
  | _ => True

abbrev DeviceReaches : DeviceState ι → DeviceState ι → Prop := State.Reaches DeviceEnvironment

abbrev ValidDevices (sha256 : Sha256) (randomBytes : ι → String) (calls : ι → DeviceCall) (state : DeviceState ι) : Prop :=
  Valid (lawfulDevices sha256 randomBytes calls) (fun _ _ _ _ => True) state

theorem DeviceReaches.grows {later : DeviceState ι} (reached : DeviceReaches state later)
    (valid : ValidDevices sha256 randomBytes calls state) :
    ValidDevices sha256 randomBytes calls later ∧ Grows (lawfulDevices sha256 randomBytes calls) state.world later.world :=
  State.Reaches.valid reached valid fun _ _ permitted => .inr permitted

theorem deviceSystem_valid (database : Database devices) :
    ValidDevices sha256 randomBytes calls (deviceSystem sha256 randomBytes database calls) :=
  Valid.initial fun i => (calls i).safe rfl

/-- In every run the devices follow the state machine, a retired device keeps its
status and its hash, every device its store; and a device accepts a secret exactly if
it is the one that was issued last for it. All earlier ones are dead. -/
theorem pos_device_credentials (injective : Function.Injective sha256) (random : Function.Injective randomBytes)
    (fresh : ∀ i id, original id ≠ some (randomBytes i))
    (initial : ∀ id row, database.get .posDevice id = some row →
      ∃ secret, original id = some secret ∧ row.credentialHash = sha256 secret)
    (reached : DeviceReaches (deviceSystem sha256 randomBytes database calls) state) :
    (∀ later, DeviceReaches state later → ∀ id device, state.world.database.get .posDevice id = some device →
      ∃ after, later.world.database.get .posDevice id = some after ∧ Follows device after) ∧
    ∀ id device, state.world.database.get .posDevice id = some device →
      (∀ presented, verifyCredential sha256 device presented = true ↔
        (secrets randomBytes calls original id state.world.trace).head? = some presented) ∧
      ∀ earlier ∈ (secrets randomBytes calls original id state.world.trace).tail,
        verifyCredential sha256 device earlier = false := by
  obtain ⟨valid, grown⟩ := reached.grows (deviceSystem_valid database)
  have first : Credentialed sha256 randomBytes calls original (deviceSystem sha256 randomBytes database calls).world := by
    refine ⟨fun id row found => ?_, fun id secret member => .inl ?_, fun id => ?_⟩
    · obtain ⟨secret, issued, hash⟩ := initial id row found
      exact ⟨secret, by simp [secrets, deviceSystem, State.initial, issued], hash⟩
    · simpa [secrets, deviceSystem, State.initial] using member
    · cases known : original id <;> simp [secrets, deviceSystem, State.initial, known]
  have credentialed := first.grows random fresh grown
  refine ⟨fun later further id device found => Grows.follows (further.grows valid).2 found, fun id device found => ?_⟩
  obtain ⟨secret, last, hash⟩ := credentialed.current id device found
  have accepts (presented : String) : verifyCredential sha256 device presented = true ↔ presented = secret :=
    verifyCredential_iff injective hash
  refine ⟨fun presented => ?_, fun earlier member => ?_⟩
  · rw [accepts, last, Option.some.injEq, eq_comm]
  · obtain ⟨rest, listed⟩ := List.head?_eq_some_iff.mp last
    have distinct := credentialed.distinct id
    rw [listed, List.nodup_cons] at distinct
    rw [listed, List.tail_cons] at member
    refine Bool.eq_false_iff.mpr fun accepted => distinct.1 ?_
    exact (accepts earlier).mp accepted ▸ member

/-- A device whose credential is rotated while it is retired. -/
def demoDevices : Database devices := ⟨fun
  | .store => ⟨[⟨4, 0⟩], by simp⟩
  | .posDevice => ⟨[⟨5, 0, 4, "till", .active, "sha256:first", none, 0⟩], by simp⟩⟩

def rotateAndRetire : Fin 2 → DeviceCall
  | 0 => .rotate 0 5
  | 1 => .transition 0 5 .retire

def demoSecrets : Fin 2 → String
  | 0 => "second"
  | 1 => "unused"

abbrev demoSha256 : Sha256 := fun secret => "sha256:" ++ secret

/-- The retirement has read the device before the rotation, and commits after it. -/
theorem pos_device_credentials_rotated : ∃ state : DeviceState (Fin 2), ∃ device,
    DeviceReaches (deviceSystem demoSha256 demoSecrets demoDevices rotateAndRetire) state ∧
      state.world.database.get .posDevice 5 = some device ∧ device.status = .retired ∧
      verifyCredential demoSha256 device "second" = true ∧ verifyCredential demoSha256 device "first" = false := by
  let original (id : Id) : Option String := if id = 5 then some "first" else none
  have executed : ((deviceSystem demoSha256 demoSecrets demoDevices rotateAndRetire).run
      ([.run 1 []] ++ List.replicate 3 (.run 0 []) ++ List.replicate 2 (.run 1 []))).any (fun state =>
        (state.world.database.get .posDevice 5).any (fun device => device.status = .retired) &&
          secrets demoSecrets rotateAndRetire original 5 state.world.trace = ["second", "first"]) = true := by
    decide +kernel
  obtain ⟨state, ran, seen⟩ := State.Reaches.computed executed rfl
  simp only [Bool.and_eq_true, decide_eq_true_eq, Option.any_eq_true] at seen
  obtain ⟨⟨device, found, retired⟩, issued⟩ := seen
  have reached : DeviceReaches (deviceSystem demoSha256 demoSecrets demoDevices rotateAndRetire) state :=
    ran.weaken fun state action undisturbed => by
      cases action with
      | external writes => cases undisturbed
      | _ => trivial
  have injective : Function.Injective demoSha256 := fun first second same => by simpa [demoSha256] using same
  have random : Function.Injective demoSecrets := by
    have distinct : ∀ i j, demoSecrets i = demoSecrets j → i = j := by decide
    exact fun i j => distinct i j
  have fresh (i : Fin 2) (id : Id) : original id ≠ some (demoSecrets i) := by
    by_cases named : id = 5
    · subst named
      revert i
      decide
    · simp [original, named]
  have initial (id : Id) (row : PosDevice) (found : demoDevices.get .posDevice id = some row) :
      ∃ secret, original id = some secret ∧ row.credentialHash = demoSha256 secret := by
    obtain ⟨member, rfl⟩ := Table.find_eq_some.mp found
    cases List.mem_singleton.mp member
    exact ⟨"first", rfl, rfl⟩
  obtain ⟨accepts, dead⟩ := (pos_device_credentials injective random fresh initial reached).2 5 device found
  rw [issued] at accepts dead
  exact ⟨state, device, reached, found, retired, (accepts "second").mpr rfl, dead "first" (by simp)⟩

end BusinessPlatform.PosDeviceService
