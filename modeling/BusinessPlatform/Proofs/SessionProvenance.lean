import BusinessPlatform.Proofs.OfflineInbox
import BusinessPlatform.Engine.Reading

/-! Where offline operations come from. An operation has the tenant and the device of
its session, and a session the tenant of its device, as long as others keep to that. -/

namespace BusinessPlatform
open Engine PosOperationService

variable {ι : Type} [DecidableEq ι] {sha256 : String → String} {calls : ι → Call} {i : ι} {world after : SystemWorld ι}
  {writes : Writes} {db : Db}

/-- The session and the device of the row are of one tenant. -/
def PosSession.Owned (db : Db) (session : PosSession) : Prop :=
  ∃ device, db.get .posDevice session.deviceId = some device ∧ device.tenantId = session.tenantId

/-- The operation has been recorded in a session of its device. -/
def PosOperation.Owned (db : Db) (operation : PosOperation) : Prop :=
  ∃ session, db.get .posSession operation.sessionId = some session ∧ session.tenantId = operation.tenantId ∧
    session.deviceId = operation.deviceId

/-- Sessions and devices stay where they are, and new sessions are opened on devices
of their tenant. -/
structure KeepsSessions (db : Db) (writes : Writes) : Prop where
  sessionsStay : erasesOf (S := commerce) .posSession writes = []
  devicesStay : erasesOf (S := commerce) .posDevice writes = []
  session : ∀ row ∈ putsOf (S := commerce) .posSession writes, ∀ old, db.get .posSession row.id = some old →
    (row.tenantId, row.deviceId) = (old.tenantId, old.deviceId)
  device : ∀ row ∈ putsOf (S := commerce) .posDevice writes, ∀ old, db.get .posDevice row.id = some old →
    row.tenantId = old.tenantId
  opened : ∀ row ∈ putsOf (S := commerce) .posSession writes, row.Owned (db.applyAll writes)

/-- Every operation that is new has been recorded in a session of its device. -/
def RecordsOwned (db : Db) (writes : Writes) : Prop :=
  ∀ row ∈ putsOf (S := commerce) .posOperation writes, db.get .posOperation row.id = none → row.Owned db

/-- The calls, among others that keep the sessions. -/
def amongSessions (calls : ι → Call) : Guarantee commerce ι := fun author world writes =>
  lawful calls author world writes ∧ RecordsOwned world.database writes ∧
    (author = none → KeepsSessions world.database writes)

private theorem KeepsSessions.unwritten (internal : Internal writes) : KeepsSessions db writes := by
  have other (m : Model) (external : Model.external m = true) : ∀ write ∈ writes, write.model ≠ m := by
    intro write member same
    have own := internal write member
    rw [same, external] at own
    cases own
  have sessions := other .posSession rfl
  have devices := other .posDevice rfl
  exact ⟨erasesOf_other sessions, erasesOf_other devices, by simp [putsOf_other sessions], by simp [putsOf_other devices],
    by simp [putsOf_other sessions]⟩

private theorem amongSessions.keeps {author : Option ι} (allowed : amongSessions calls author world writes) :
    KeepsSessions world.database writes := by
  cases author with
  | none => exact allowed.2.2 rfl
  | some i => exact .unwritten allowed.1.internal

private theorem keepsSession : Keeps (amongSessions calls) .posSession fun old new =>
    (new.tenantId, new.deviceId) = (old.tenantId, old.deviceId) :=
  fun _ _ _ allowed => ⟨allowed.keeps.sessionsStay, allowed.keeps.session⟩

private theorem keepsDevice : Keeps (amongSessions calls) .posDevice fun old new => new.tenantId = old.tenantId :=
  fun _ _ _ allowed => ⟨allowed.keeps.devicesStay, allowed.keeps.device⟩

private theorem Grows.session (grows : Grows (amongSessions calls) world after) {id : Id} {old : PosSession}
    (found : world.database.get .posSession id = some old) : ∃ new, after.database.get .posSession id = some new ∧
      new.tenantId = old.tenantId ∧ new.deviceId = old.deviceId := by
  obtain ⟨new, now, same⟩ := grows.field keepsSession found (fun row => (row.tenantId, row.deviceId)) fun _ _ same => same
  exact ⟨new, now, Prod.mk.inj same⟩

private theorem Grows.owned (grows : Grows (amongSessions calls) world after) {operation : PosOperation}
    (owned : operation.Owned world.database) : operation.Owned after.database := by
  obtain ⟨session, found, tenant, device⟩ := owned
  obtain ⟨new, now, sameTenant, sameDevice⟩ := Grows.session grows found
  exact ⟨new, now, sameTenant.trans tenant, sameDevice.trans device⟩

section Recording
variable {tenantId userId : Id} {dto : RecordOfflineSaleIntentDto} {session : PosSession} {transaction : Transaction commerce}
  {operation : PosOperation}

private abbrev RecordingOwned : Commits commerce ι := fun world writes => RecordsOwned world.database writes

/-- The pending writes store one operation, of a session of its device. -/
private structure Pends (operation : PosOperation) (transaction : Transaction commerce) (world : SystemWorld ι) : Prop where
  stores : putsOf (S := commerce) .posOperation transaction.writes = [operation]
  owned : operation.Owned world.database

private theorem Pends.grows (pends : Pends operation transaction world) (grows : Grows (amongSessions calls) world after) :
    Pends operation transaction after := ⟨pends.stores, Grows.owned grows pends.owned⟩

private abbrev Pending (operation : PosOperation) {α : Type} : Post commerce HttpException α ι := fun result session world =>
  match result with
  | .ok _ => ∃ transaction, session = some transaction ∧ Pends operation transaction world
  | .error _ => True

private theorem createItems_owned {operationId : Id} {items : List OfflineSaleIntentItemDto}
    (pends : Pends operation transaction world) : Safe Never (amongSessions calls) i (Pending operation)
      (createItems tenantId operationId items) (some transaction) world := by
  induction items generalizing transaction world with
  | nil => exact Safe.done fun after later => ⟨transaction, rfl, pends.grows later.grows⟩
  | cons item rest ih =>
    refine Safe.createInside (fun _ _ _ (_ : ∀ exception, _ → True) _ _ => trivial) fun w₁ l₁ row built created _ => ih ?_
    refine ⟨?_, (pends.grows l₁.grows).owned⟩
    simp only [putsOf_append, pends.stores, putsOf_put_other row [] (by decide : Model.posOperationItem ≠ .posOperation), putsOf_nil,
      List.append_nil]

omit [DecidableEq ι] in
private theorem anything_tolerant {α : Type} : Tolerant (Anything α ι) := fun _ _ _ => trivial

private theorem insertOperation_owned (known : ∃ row, world.database.get .posSession session.id = some row ∧
      row.tenantId = tenantId ∧ row.deviceId = session.deviceId) :
    Safe Never (amongSessions calls) i (Body RecordingOwned (amongSessions calls) i (Anything _ ι))
      (insertOperation tenantId session dto) (some {}) world := by
  refine Safe.createInside (fun _ _ _ (_ : ∀ exception, _ → True) _ _ _ _ => trivial) fun w₁ l₁ operation built created _ => ?_
  have owned : operation.Owned w₁.database := by
    obtain ⟨row, found, tenant, device⟩ := known
    obtain ⟨now, there, sameTenant, sameDevice⟩ := Grows.session l₁.grows found
    rw [built]
    exact ⟨now, there, sameTenant.trans tenant, sameDevice.trans device⟩
  refine Safe.bind (Safe.weaken (createItems_owned ⟨by simp, owned⟩) fun result session' w₂ ended => ?_)
  cases result with
  | error failure => exact fun _ _ => trivial
  | ok _ =>
    obtain ⟨transaction, rfl, pends⟩ := ended
    refine Program.Reading.safe (.bind .findFirst fun _ => .bind .orThrow fun _ => .bind .findMany fun _ => .pure) anything_tolerant.body
      fun summary w₃ reads => ⟨transaction, rfl, .inr fun row member _ => ?_, fun _ _ => trivial⟩
    have final := pends.grows (Idle.grows (Reads.idle reads))
    rw [final.stores] at member
    rw [List.mem_singleton.mp member]
    exact final.owned

private theorem resolveDuplicate_reading {failure : Failure HttpException} :
    (resolveDuplicate tenantId session dto failure).Reading := by
  unfold resolveDuplicate
  split
  · exact .bind .findFirst fun _ => .bind .orThrow fun _ => .bind .findMany fun _ => .pure
  · trivial

private theorem recordOfflineSaleIntent_owned : Safe RecordingOwned (amongSessions calls) i (Anything _ ι)
    (recordOfflineSaleIntent tenantId userId dto) none world := by
  refine Safe.findFirst anything_tolerant.fails fun w₁ sessions l₁ listed fails => ?_
  cases head : sessions.head? with
  | none => exact Safe.throw fails trivial
  | some session =>
    obtain ⟨member, matched⟩ := listed_head listed head
    simp only [Bool.and_eq_true, decide_eq_true_eq] at matched
    have found : w₁.database.get .posSession session.id = some session := Table.find_eq_some.mpr ⟨member, rfl⟩
    refine Safe.throwIf fails trivial fun _ => Safe.tryCatch rfl (Safe.weaken (?_ : Safe _ _ i (Anything _ ι) _ none _) ?_)
    · refine Safe.transaction anything_tolerant.fails fun w₂ l₂ _ => ?_
      obtain ⟨now, there, tenant, device⟩ := Grows.session (.head (.empty _) l₂.grows) found
      exact insertOperation_owned ⟨now, there, tenant.trans matched.2, device⟩
    · intro result session' after _
      cases result with
      | ok summary => trivial
      | error failure =>
        simp only
        split
        · exact resolveDuplicate_reading.safe anything_tolerant fun _ _ _ => trivial
        · exact Safe.done fun _ _ => trivial

end Recording

private theorem Call.owned (known : KnownCarts world) (own : world.own i = []) :
    Safe (amongSessions calls (some i)) (amongSessions calls) i ((calls i).Post i) ((calls i).program sha256) none world := by
  have safe : Safe (lawful calls (some i)) (amongSessions calls) i ((calls i).Post i) ((calls i).program sha256) none world :=
    Safe.among (Call.safe known own) fun _ _ _ allowed => allowed.1
  by_cases records : ∃ tenantId userId dto, calls i = .recordOfflineSaleIntent tenantId userId dto
  · obtain ⟨tenantId, userId, dto, call⟩ := records
    have owned : Safe RecordingOwned (amongSessions calls) i (Answers .operation (Anything _ ι))
        ((calls i).program sha256) none world := by
      rw [call]
      exact respond_safe recordOfflineSaleIntent_owned
    exact Safe.permit (Safe.meet safe owned) fun _ _ both => ⟨both.1, both.2, nofun⟩
  · refine Safe.permit safe fun w writes allowed => ⟨allowed, fun row member fresh => ?_, nofun⟩
    rcases allowed.records with ⟨_, _, recorded⟩ | ⟨_, existing⟩
    · obtain ⟨j, tenantId, userId, dto, author, call, _⟩ := recorded.call
      cases author
      exact absurd ⟨tenantId, userId, dto, call⟩ records
    · have there := existing row member
      rw [fresh] at there
      cases there

/-- Every row comes from where it belongs. -/
structure Provenance (db : Db) : Prop where
  sessions : ∀ row ∈ (db.table .posSession).rows, row.Owned db
  operations : ∀ row ∈ (db.table .posOperation).rows, row.Owned db

private theorem Provenance.event (provenance : Provenance world.database) {label : Label commerce ι}
    (allowed : amongSessions calls label.author world writes) : Provenance (world.database.applyAll writes) := by
  have grows : Grows (amongSessions calls) world (world.record label writes) := .single (.event label writes (.inr allowed))
  constructor
  · intro row member
    rcases Database.get_found _ (Table.find_eq_some.mpr ⟨member, rfl⟩) with stored | there
    · exact allowed.keeps.opened row stored
    · obtain ⟨device, found, tenant⟩ := provenance.sessions row (Table.find_eq_some.mp there).1
      obtain ⟨now, still, same⟩ := grows.field keepsDevice found PosDevice.tenantId fun _ _ same => same
      exact ⟨now, still, same.trans tenant⟩
  · intro row member
    rcases Database.get_found _ (Table.find_eq_some.mpr ⟨member, rfl⟩) with stored | there
    · cases before : world.database.get .posOperation row.id with
      | none => exact Grows.owned grows (allowed.2.1 row stored before)
      | some old =>
        obtain ⟨now, still, same⟩ := Grows.provenance (.single (.event label writes (.inr allowed.1))) before
        have here : (world.record label writes).database.get .posOperation row.id = some row :=
          Table.find_eq_some.mpr ⟨member, rfl⟩
        cases still.symm.trans here
        simp only [PosOperation.provenance, Prod.mk.injEq] at same
        obtain ⟨session, found, tenant, device⟩ :=
          Grows.owned grows (provenance.operations old (Table.find_eq_some.mp before).1)
        rw [← same.2.2.2.1] at found
        exact ⟨session, found, tenant.trans same.2.1.symm, device.trans same.2.2.1.symm⟩
    · exact Grows.owned grows (provenance.operations row (Table.find_eq_some.mp there).1)

/-- Others edit their own tables, and keep sessions and devices. -/
def KeepsProvenance (state : SystemState ι) (action : Action commerce ι) : Prop :=
  Environment state action ∧ ∀ writes, action = .external writes → KeepsSessions state.world.database writes

theorem Shop.provenance {shop : Shop} {state : SystemState ι}
    (owned : ∀ row ∈ (shop.database.table .posSession).rows, row.Owned shop.database)
    (reached : State.Reaches KeepsProvenance (shop.system sha256 calls) state) : Provenance state.world.database := by
  have valid : Valid (amongSessions calls) (fun i => (calls i).Post i) (shop.system sha256 calls) :=
    Valid.initial fun i => Call.owned (fun id cart found => by
      rw [shop.get_unused rfl] at found
      cases found) rfl
  obtain ⟨_, grows⟩ := State.Reaches.valid reached valid fun state writes allowed => by
    refine .inr ⟨allowed.1, fun row member => ?_, fun _ => allowed.2 writes rfl⟩
    rw [(external_nothing (m := .posOperation) rfl allowed.1).1] at member
    cases member
  refine Grows.database Provenance grows ⟨owned, fun row member => ?_⟩ fun w label writes _ provenance allowed =>
    provenance.event allowed
  rw [show (shop.system sha256 calls).world.database = shop.database from rfl, shop.unused .posOperation rfl] at member
  cases member

end BusinessPlatform
