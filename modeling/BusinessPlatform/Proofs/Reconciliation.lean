import BusinessPlatform.Engine.Sequential
import BusinessPlatform.PosReconciliationService
import BusinessPlatform.Proofs.SessionProvenance

/-! Reconciliation reports. A report lists each operation once, by its status and in
the order of the device, and a device's report merges those of its sessions. -/

namespace BusinessPlatform.PosReconciliationService
open Engine

/-- The entries are the operations of a status, in ascending order. -/
structure Lists (operations : List PosOperation) (status : OperationStatus) (entries : List ReconciledOperation) : Prop where
  same : entries.Perm ((operations.filter fun operation => operation.status = status).map project)
  ascending : entries.Pairwise fun first second => first.seq < second.seq

/-- The report has each of the operations in one place. -/
structure Accounts (operations : List PosOperation) (report : Reconciliation) : Prop where
  pending : Lists operations .pending report.pending
  accepted : Lists operations .accepted report.accepted
  rejected : Lists operations .rejected report.rejected
  complete : (report.pending ++ report.accepted ++ report.rejected).Perm (operations.map project)
  unrepeated : ((report.pending ++ report.accepted ++ report.rejected).map ReconciledOperation.operationId).Nodup
  totals : report.totals = ⟨report.pending.length, report.accepted.length, report.rejected.length⟩
  results : ∀ entry ∈ report.accepted, entry.orderId.isSome = true ∧ entry.paymentId.isSome = true
  codes : ∀ entry ∈ report.rejected, entry.resultCode.isSome = true

/-- What an operation has once it is settled. -/
structure Resolved (operation : PosOperation) : Prop where
  accepted : operation.status = .accepted → operation.resultOrderId.isSome = true ∧ operation.resultPaymentId.isSome = true
  rejected : operation.status = .rejected → operation.resultCode.isSome = true
  original : operation.status ≠ .duplicate

section Sorting
variable {ρ : Type} {seq : ρ → Int} {rows other : List ρ}

theorem orderBySeq_perm : (orderBySeq seq rows).Perm rows := List.perm_insertionSort ..

theorem orderBySeq_sorted : (orderBySeq seq rows).Pairwise fun first second => seq first ≤ seq second :=
  List.pairwise_insertionSort (fun first second : ρ => seq first ≤ seq second) rows

theorem orderBySeq_ascending (distinct : (rows.map seq).Nodup) :
    (orderBySeq seq rows).Pairwise fun first second => seq first < seq second := by
  have apart : (orderBySeq seq rows).Pairwise fun first second => seq first ≠ seq second :=
    List.pairwise_map.mp ((orderBySeq_perm.map seq).nodup_iff.mpr distinct)
  exact (orderBySeq_sorted.and apart).imp fun both => lt_of_le_of_ne both.1 both.2

theorem orderBySeq_unique (ascending : rows.Pairwise fun first second => seq first < seq second) (same : rows.Perm other) :
    rows = orderBySeq seq other := by
  refine List.Perm.eq_of_pairwise (fun first second one two le ge => ?_) (ascending.imp le_of_lt) orderBySeq_sorted
    (same.trans orderBySeq_perm.symm)
  have distinct : (rows.map seq).Nodup := List.pairwise_map.mpr (ascending.imp ne_of_lt)
  have two := same.mem_iff.mpr (orderBySeq_perm.mem_iff.mp two)
  exact List.inj_on_of_nodup_map distinct one two (le_antisymm le ge)

end Sorting

theorem flatMap_keys {ρ κ : Type} [DecidableEq κ] {key : ρ → κ} {rows : List ρ} {keys : List κ} (distinct : keys.Nodup) :
    (keys.flatMap fun k => rows.filter fun row => key row = k).Perm (rows.filter fun row => key row ∈ keys) := by
  induction keys with
  | nil => simp
  | cons k rest ih =>
    obtain ⟨absent, distinct⟩ := List.nodup_cons.mp distinct
    rw [List.flatMap_cons]
    refine ((ih distinct).append_left _).trans ?_
    refine List.Perm.trans (List.Perm.of_eq ?_) (List.filter_append_perm (fun row => key row = k) _)
    rw [List.filter_filter, List.filter_filter]
    congr 1
    · refine List.filter_congr fun row _ => ?_
      by_cases same : key row = k <;> simp [same]
    · refine List.filter_congr fun row _ => ?_
      by_cases same : key row = k
      · simp [same, absent]
      · simp [same]

theorem partitionOperations_eq (operations : List PosOperation) : partitionOperations operations =
    ⟨(operations.filter fun operation => operation.status = .rejected).map project,
      (operations.filter fun operation => operation.status = .accepted ∨ operation.status = .duplicate).map project,
      (operations.filter fun operation => operation.status = .pending).map project⟩ := by
  suffices pushed : ∀ lists : Partition, operations.foldl Partition.push lists =
      ⟨lists.rejected ++ (operations.filter fun operation => operation.status = .rejected).map project,
        lists.accepted ++ (operations.filter fun operation => operation.status = .accepted ∨ operation.status = .duplicate).map project,
        lists.pending ++ (operations.filter fun operation => operation.status = .pending).map project⟩ by
    simpa [partitionOperations] using pushed ⟨[], [], []⟩
  induction operations with
  | nil => simp
  | cons operation rest ih =>
    intro lists
    rw [List.foldl_cons, ih]
    cases status : operation.status <;> simp [Partition.push, status]

section Report
variable {operations listed : List PosOperation} {status : OperationStatus} {entries : List ReconciledOperation}

private theorem lists_ordered (same : listed.Perm operations) (distinct : (operations.map PosOperation.seq).Nodup) :
    Lists operations status (((orderBySeq PosOperation.seq listed).filter fun operation => operation.status = status).map project) := by
  refine ⟨((orderBySeq_perm.trans same).filter _).map project, List.pairwise_map.mpr (List.Pairwise.filter _ ?_)⟩
  exact orderBySeq_ascending ((same.map _).nodup_iff.mpr distinct)

theorem reconcile_accounts (same : listed.Perm operations) (identified : (operations.map PosOperation.id).Nodup)
    (distinct : (operations.map PosOperation.seq).Nodup) (resolved : ∀ operation ∈ operations, Resolved operation) :
    Accounts operations (reconcile (orderBySeq PosOperation.seq listed)) := by
  have ordered : (orderBySeq PosOperation.seq listed).Perm operations := orderBySeq_perm.trans same
  have original : (orderBySeq PosOperation.seq listed).filter (fun operation => operation.status = .accepted ∨
      operation.status = .duplicate) = (orderBySeq PosOperation.seq listed).filter fun operation => operation.status = .accepted := by
    refine List.filter_congr fun operation member => ?_
    have unlike := (resolved operation (ordered.mem_iff.mp member)).original
    simp [unlike]
  have lists : partitionOperations (orderBySeq PosOperation.seq listed) = _ := partitionOperations_eq _
  rw [original] at lists
  have complete : ((partitionOperations (orderBySeq PosOperation.seq listed)).pending ++
      (partitionOperations (orderBySeq PosOperation.seq listed)).accepted ++
      (partitionOperations (orderBySeq PosOperation.seq listed)).rejected).Perm (operations.map project) := by
    have statuses := @flatMap_keys PosOperation OperationStatus _ PosOperation.status (orderBySeq PosOperation.seq listed)
      [.pending, .accepted, .rejected] (by decide)
    rw [List.filter_eq_self.mpr] at statuses
    · rw [lists]
      simpa using (statuses.trans ordered).map project
    · intro operation member
      have unlike := (resolved operation (ordered.mem_iff.mp member)).original
      cases status : operation.status <;> simp_all
  have entry {status : OperationStatus} {entry : ReconciledOperation} (member : entry ∈
      ((orderBySeq PosOperation.seq listed).filter fun operation => operation.status = status).map project) :
      ∃ operation ∈ operations, operation.status = status ∧ project operation = entry := by
    obtain ⟨operation, inside, projected⟩ := List.mem_map.mp member
    obtain ⟨inside, status⟩ := List.mem_filter.mp inside
    exact ⟨operation, ordered.mem_iff.mp inside, of_decide_eq_true status, projected⟩
  refine ⟨?_, ?_, ?_, complete, ?_, rfl, fun found member => ?_, fun found member => ?_⟩
  · rw [reconcile, lists]
    exact lists_ordered same distinct
  · rw [reconcile, lists]
    exact lists_ordered same distinct
  · rw [reconcile, lists]
    exact lists_ordered same distinct
  · refine ((complete.map _).nodup_iff).mpr ?_
    rw [List.map_map]
    exact identified
  · rw [reconcile, lists] at member
    obtain ⟨operation, inside, accepted, rfl⟩ := entry member
    exact (resolved operation inside).accepted accepted
  · rw [reconcile, lists] at member
    obtain ⟨operation, inside, rejected, rfl⟩ := entry member
    exact (resolved operation inside).rejected rejected

/-- The list of all operations merges those of any way to split them. -/
theorem Lists.merged {κ : Type} {parts : List κ} {operationsOf : κ → List PosOperation}
    {entriesOf : κ → List ReconciledOperation} (all : Lists operations status entries)
    (split : operations.Perm (parts.flatMap operationsOf))
    (each : ∀ part ∈ parts, Lists (operationsOf part) status (entriesOf part)) :
    entries = orderBySeq ReconciledOperation.seq (parts.flatMap entriesOf) := by
  refine orderBySeq_unique all.ascending (all.same.trans (((split.filter _).map project).trans ?_))
  rw [List.filter_flatMap, List.map_flatMap]
  exact List.Perm.flatMap_left _ fun part member => (each part member).same.symm

end Report

section Alone
variable {db : Db} {tenantId deviceId sessionId : Id}

private theorem getDeviceReconciliation_alone {world : World commerce Unit} (there : world.database = db) :
    Safe Never Alone () (fun result _ _ => ∀ report, result = .ok report → ∃ device listed,
      db.get .posDevice deviceId = some device ∧ device.tenantId = tenantId ∧
      listed.Perm ((db.table .posOperation).rows.filter fun row => row.deviceId = deviceId && row.tenantId = tenantId) ∧
      report = buildDeviceReport deviceId device.storeId (orderBySeq PosOperation.seq listed))
      (getDeviceReconciliation tenantId deviceId) none world := by
  refine Safe.findFirst (fun _ _ _ (_ : ∀ exception, _ → True) _ _ _ same => nomatch same) fun w₁ devices l₁ listed fails => ?_
  rw [World.view_none, Later.alone l₁, there] at listed
  cases head : devices.head? with
  | none => exact Safe.throw fails trivial
  | some device =>
    obtain ⟨member, matched⟩ := listed_head listed head
    simp only [Bool.and_eq_true, decide_eq_true_eq] at matched
    refine Safe.findMany fails fun w₂ operations l₂ scanned _ => Safe.done fun _ _ report same => ?_
    rw [World.view_none, Later.alone l₂, World.record_database, Database.applyAll_nil, Later.alone l₁, there] at scanned
    cases same
    exact ⟨device, operations, Table.find_eq_some.mpr ⟨member, matched.1⟩, matched.2, scanned, rfl⟩

private theorem getSessionReconciliation_alone {world : World commerce Unit} (there : world.database = db) :
    Safe Never Alone () (fun result _ _ => ∀ report, result = .ok report → ∃ session listed,
      db.get .posSession sessionId = some session ∧ session.tenantId = tenantId ∧
      listed.Perm ((db.table .posOperation).rows.filter fun row => row.sessionId = sessionId && row.tenantId = tenantId) ∧
      report.toReconciliation = reconcile (orderBySeq PosOperation.seq listed))
      (getSessionReconciliation tenantId sessionId) none world := by
  refine Safe.findFirst (fun _ _ _ (_ : ∀ exception, _ → True) _ _ _ same => nomatch same) fun w₁ sessions l₁ listed fails => ?_
  rw [World.view_none, Later.alone l₁, there] at listed
  cases head : sessions.head? with
  | none => exact Safe.throw fails trivial
  | some session =>
    obtain ⟨member, matched⟩ := listed_head listed head
    simp only [Bool.and_eq_true, decide_eq_true_eq] at matched
    refine Safe.findMany fails fun w₂ operations l₂ scanned _ => Safe.done fun _ _ report same => ?_
    rw [World.view_none, Later.alone l₂, World.record_database, Database.applyAll_nil, Later.alone l₁, there] at scanned
    cases same
    exact ⟨session, operations, Table.find_eq_some.mpr ⟨member, matched.1⟩, matched.2, scanned, rfl⟩

end Alone

variable {ι : Type} [DecidableEq ι] {sha256 : String → String} {calls : ι → Call} {shop : Shop}

private theorem Resolved.follows {old new : PosOperation} (follows : old.Follows new) (resolved : Resolved old) : Resolved new := by
  obtain ⟨change, kind, pending⟩ := follows
  cases kind with
  | rejected code => exact ⟨nofun, fun _ => rfl, nofun⟩
  | processed processedAt => exact ⟨resolved.accepted, resolved.rejected, resolved.original⟩
  | accepted orderId paymentId => exact ⟨fun _ => ⟨rfl, rfl⟩, nofun, nofun⟩

theorem operations_resolved {world : SystemWorld ι} (grows : Grows (lawful calls) (shop.start ι) world) :
    ∀ row ∈ (world.database.table .posOperation).rows, Resolved row := by
  refine Grows.database (fun db : Db => ∀ row ∈ (db.table .posOperation).rows, Resolved row) grows (fun row member => ?_)
    fun w label writes _ resolved allowed row member => ?_
  · rw [shop.unused .posOperation rfl] at member
    cases member
  · rcases Database.get_found _ (Table.find_eq_some.mpr ⟨member, rfl⟩) with stored | there
    · rcases allowed.records with ⟨operation, items, records⟩ | ⟨_, existing⟩
      · obtain ⟨_, _, _, _, _, _, intent⟩ := records.call
        rw [records.written, intentWrites_operations, List.mem_singleton] at stored
        subst stored
        exact ⟨by simp [intent.pending], by simp [intent.pending], by simp [intent.pending]⟩
      · obtain ⟨old, before⟩ := Option.isSome_iff_exists.mp (existing row stored)
        refine (resolved old (Table.find_eq_some.mp before).1).follows ?_
        exact (keepsOperation _ _ _ allowed).2 row stored old before
    · exact resolved row (Table.find_eq_some.mp there).1

def deviceOperations (db : Db) (deviceId : Id) : List PosOperation :=
  (db.table .posOperation).rows.filter fun row => row.deviceId = deviceId

def sessionOperations (db : Db) (sessionId : Id) : List PosOperation :=
  (db.table .posOperation).rows.filter fun row => row.sessionId = sessionId

def deviceSessions (db : Db) (deviceId : Id) : List PosSession :=
  (db.table .posSession).rows.filter fun row => row.deviceId = deviceId

/-- The call alone answers with the report. -/
def Yields {ρ : Type} (db : Db) (service : Service ρ) (report : ρ) : Prop :=
  ∃ stamp clock shown, RunsAlone (World.opened db stamp clock) service shown ∧ (shown.threads ()).program = .done (.ok report)

/-- The lists of the report are those of the sessions' reports, brought into order. -/
structure Merges (report : Reconciliation) (sessions : List PosSession) (reports : Id → SessionReconciliationReport) : Prop where
  pending : report.pending = orderBySeq ReconciledOperation.seq (sessions.flatMap fun session => (reports session.id).pending)
  accepted : report.accepted = orderBySeq ReconciledOperation.seq (sessions.flatMap fun session => (reports session.id).accepted)
  rejected : report.rejected = orderBySeq ReconciledOperation.seq (sessions.flatMap fun session => (reports session.id).rejected)

section Split
variable {db : Db} {tenantId deviceId : Id}

private theorem split_sessions (provenance : Provenance db) : (deviceOperations db deviceId).Perm
    ((deviceSessions db deviceId).flatMap fun session => sessionOperations db session.id) := by
  have distinct : ((deviceSessions db deviceId).map PosSession.id).Nodup :=
    (List.filter_sublist.map _).nodup (db.table .posSession).distinct
  have keyed := @flatMap_keys PosOperation Id _ PosOperation.sessionId (db.table .posOperation).rows _ distinct
  rw [List.flatMap_map] at keyed
  refine List.Perm.trans (List.Perm.of_eq (List.filter_congr fun row member => ?_)) keyed.symm
  obtain ⟨session, found, _, device⟩ := provenance.operations row member
  obtain ⟨stored, key⟩ := Table.find_eq_some.mp found
  rw [Bool.eq_iff_iff, decide_eq_true_eq, decide_eq_true_eq, List.mem_map]
  constructor
  · rintro rfl
    exact ⟨session, List.mem_filter.mpr ⟨stored, by simpa using device⟩, key⟩
  · rintro ⟨other, inside, same⟩
    obtain ⟨there, own⟩ := List.mem_filter.mp inside
    obtain rfl := (db.table .posSession).key_unique there stored (same.trans key.symm)
    exact device.symm.trans (of_decide_eq_true own)

private theorem device_rows (provenance : Provenance db) {device : PosDevice}
    (found : db.get .posDevice deviceId = some device) (tenant : device.tenantId = tenantId) :
    ((db.table .posOperation).rows.filter fun row => row.deviceId = deviceId && row.tenantId = tenantId) =
      deviceOperations db deviceId := by
  refine List.filter_congr fun row member => ?_
  obtain ⟨session, there, sameTenant, sameDevice⟩ := provenance.operations row member
  obtain ⟨owner, stored, owned⟩ := provenance.sessions session (Table.find_eq_some.mp there).1
  by_cases same : row.deviceId = deviceId
  · rw [sameDevice, same, found] at stored
    cases stored
    simp [same, ← sameTenant, ← owned, tenant]
  · simp [same]

private theorem session_rows (provenance : Provenance db) {session : PosSession}
    (found : db.get .posSession session.id = some session) (tenant : session.tenantId = tenantId) :
    ((db.table .posOperation).rows.filter fun row => row.sessionId = session.id && row.tenantId = tenantId) =
      sessionOperations db session.id := by
  refine List.filter_congr fun row member => ?_
  obtain ⟨own, there, sameTenant, _⟩ := provenance.operations row member
  by_cases same : row.sessionId = session.id
  · rw [same, found] at there
    cases there
    simp [same, ← sameTenant, tenant]
  · simp [same]

end Split

variable {state : SystemState ι} {tenantId deviceId : Id} {report : DeviceReconciliationReport}
  {reports : Id → SessionReconciliationReport}

/-- In every state reached the report of a device accounts for its operations, and
merges the reports of its sessions. -/
theorem reconciliation_accounts (owned : ∀ row ∈ (shop.database.table .posSession).rows, row.Owned shop.database)
    (reached : State.Reaches KeepsProvenance (shop.system sha256 calls) state)
    (device : Yields state.world.database (getDeviceReconciliation tenantId deviceId) report)
    (sessions : ∀ session ∈ deviceSessions state.world.database deviceId,
      Yields state.world.database (getSessionReconciliation tenantId session.id) (reports session.id)) :
    Accounts (deviceOperations state.world.database deviceId) report.toReconciliation ∧
      (∀ session ∈ deviceSessions state.world.database deviceId,
        Accounts (sessionOperations state.world.database session.id) (reports session.id).toReconciliation) ∧
      Merges report.toReconciliation (deviceSessions state.world.database deviceId) reports := by
  have ordinary : shop.Reaches sha256 calls state := reached.weaken fun _ _ kept => kept.1
  have provenance := Shop.provenance owned reached
  have once := oneEach_unique (Shop.Reaches.unique ordinary (m := .posOperation) rfl).committed
  have resolved := operations_resolved ordinary.valid.2
  have identified : ((state.world.database.table .posOperation).rows.map PosOperation.id).Nodup :=
    (state.world.database.table .posOperation).distinct
  -- one device uses a number once
  have numbered {rows : List PosOperation} (part : rows.Sublist (state.world.database.table .posOperation).rows)
      (one : ∀ row ∈ rows, row.deviceId = deviceId) : (rows.map PosOperation.seq).Nodup := by
    refine List.Nodup.map_on (fun first inside second also same => ?_) ((part.map _).nodup identified).of_map
    exact once first (part.subset inside) second (part.subset also) ((one first inside).trans (one second also).symm) (.inr same)
  have accounts {rows listed : List PosOperation} (part : rows.Sublist (state.world.database.table .posOperation).rows)
      (one : ∀ row ∈ rows, row.deviceId = deviceId) (same : listed.Perm rows) :
      Accounts rows (reconcile (orderBySeq PosOperation.seq listed)) :=
    reconcile_accounts same ((part.map _).nodup identified) (numbered part one) fun row member => resolved row (part.subset member)
  have whole : Accounts (deviceOperations state.world.database deviceId) report.toReconciliation := by
    obtain ⟨stamp, clock, shown, ran, done⟩ := device
    obtain ⟨row, listed, found, tenant, same, rfl⟩ :=
      (ran.valid (getDeviceReconciliation_alone rfl)).1.ended done report rfl
    refine accounts List.filter_sublist (fun row member => ?_) (same.trans (.of_eq (device_rows provenance found tenant)))
    exact of_decide_eq_true (List.mem_filter.mp member).2
  have parts : ∀ session ∈ deviceSessions state.world.database deviceId,
      Accounts (sessionOperations state.world.database session.id) (reports session.id).toReconciliation := by
    intro session member
    obtain ⟨stamp, clock, shown, ran, done⟩ := sessions session member
    obtain ⟨row, listed, found, tenant, same, reported⟩ :=
      (ran.valid (getSessionReconciliation_alone rfl)).1.ended done _ rfl
    obtain ⟨stored, own⟩ := List.mem_filter.mp member
    have here : state.world.database.get .posSession session.id = some session := Table.find_eq_some.mpr ⟨stored, rfl⟩
    cases here.symm.trans found
    rw [reported]
    refine accounts List.filter_sublist (fun row member => ?_) (same.trans (.of_eq (session_rows provenance here tenant)))
    obtain ⟨inside, of⟩ := List.mem_filter.mp member
    obtain ⟨other, there, _, same⟩ := provenance.operations row inside
    rw [of_decide_eq_true of, here] at there
    cases there
    exact same.symm.trans (of_decide_eq_true own)
  refine ⟨whole, parts, ?_, ?_, ?_⟩
  · exact whole.pending.merged (split_sessions provenance) fun session member => (parts session member).pending
  · exact whole.accepted.merged (split_sessions provenance) fun session member => (parts session member).accepted
  · exact whole.rejected.merged (split_sessions provenance) fun session member => (parts session member).rejected

/-- What a call answers, if it runs alone. -/
private def answered {ρ : Type} (db : Db) (service : Service ρ) : Option ρ :=
  ((World.opened db 50 0).execute service 2).bind fun executed => executed.1.toOption

private theorem answered_yields {ρ : Type} {db : Db} {service : Service ρ} {report : ρ}
    (executed : answered db service = some report) : Yields db service report := by
  obtain ⟨⟨result, world⟩, finished, same⟩ := Option.bind_eq_some_iff.mp executed
  obtain ⟨shown, ran, done, _⟩ := RunsAlone.executed finished
  cases result with
  | error failure => cases same
  | ok value =>
    cases same
    exact ⟨50, 0, shown, ran, done⟩

/-- An operation of the one session has been accepted. -/
theorem reconciliation_accounts_accepted : ∃ (state : SystemState (Fin 5)) (report : DeviceReconciliationReport)
    (session : SessionReconciliationReport),
    State.Reaches KeepsProvenance (Shop.demo.system (fun _ => "hash") (offlineSale 10)) state ∧ report.accepted.length = 1 ∧
      Accounts (deviceOperations state.world.database 5) report.toReconciliation ∧
      report.accepted = orderBySeq ReconciledOperation.seq session.accepted := by
  have executed : ((Shop.demo.system (fun _ => "hash") (offlineSale 10)).run (runs 0 5 ++ runs 1 7 ++ runs 2 39)).any
      (fun state => (answered state.world.database (getDeviceReconciliation 0 5)).any (fun report => report.accepted.length = 1) &&
        ((deviceSessions state.world.database 5).map PosSession.id = [6]) &&
        (answered state.world.database (getSessionReconciliation 0 6)).isSome) = true := by decide +kernel
  obtain ⟨state, ran, seen⟩ := State.Reaches.computed executed rfl
  simp only [Bool.and_eq_true, decide_eq_true_eq] at seen
  obtain ⟨⟨device, single⟩, answer⟩ := seen
  obtain ⟨report, yielded, one⟩ := (Option.any_eq_true _ _).mp device
  obtain ⟨session, found⟩ := Option.isSome_iff_exists.mp answer
  have reached : State.Reaches KeepsProvenance (Shop.demo.system (fun _ => "hash") (offlineSale 10)) state := by
    refine ran.weaken fun _ action undisturbed => ?_
    cases action with
    | run | wait => exact ⟨trivial, nofun⟩
    | fail | stop | external => cases undisturbed
  have each (own : PosSession) (member : own ∈ deviceSessions state.world.database 5) : own.id = 6 := by
    have listed : own.id ∈ (deviceSessions state.world.database 5).map PosSession.id := List.mem_map_of_mem member
    rw [single] at listed
    exact List.mem_singleton.mp listed
  have owned (row : PosSession) (member : row ∈ (Shop.demo.database.table .posSession).rows) : row.Owned Shop.demo.database := by
    cases List.mem_singleton.mp member
    exact ⟨⟨5, 0, 4, .active, "hash"⟩, rfl, rfl⟩
  obtain ⟨own, only, _⟩ := List.map_eq_singleton_iff.mp single
  obtain ⟨accounts, _, _, merged, _⟩ := @reconciliation_accounts (Fin 5) _ _ _ _ state 0 5 report (fun _ => session) owned reached
    (answered_yields yielded) fun own member => by
      rw [each own member]
      exact answered_yields found
  refine ⟨state, report, session, reached, of_decide_eq_true one, accounts, ?_⟩
  rw [merged, only, List.flatMap_singleton]

end BusinessPlatform.PosReconciliationService
