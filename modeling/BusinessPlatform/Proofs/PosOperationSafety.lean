import BusinessPlatform.Proofs.Stability

/-! `recordOfflineSaleIntent` under interference: it commits the operation with
all of its lines, or nothing. -/

namespace BusinessPlatform
open Engine PosOperationService

variable {ι : Type} [DecidableEq ι] {calls : ι → Call} {i : ι} {tenantId userId : Id}
  {dto : RecordOfflineSaleIntentDto} {world first : SystemWorld ι} {transaction : Transaction commerce}
  {pins : List (Pin commerce)}

abbrev RecordCommits (i : ι) (tenantId : Id) (dto : RecordOfflineSaleIntentDto) : Commits commerce ι :=
  fun world writes => world.own i = [] ∧ ∃ operation items,
    IntentRecorded tenantId dto world.trace.length world.database operation items ∧ writes = intentWrites operation items

abbrev RecordPost (i : ι) : Post commerce HttpException OfflineOperationSummary ι :=
  Attempt i [] (fun _ => True) fun _ _ => True

private theorem createLines_safe {commits : Commits commerce ι} {kinds : HttpException → Prop} {operationId : Id}
    {earlier : Writes} {rest : List OfflineSaleIntentItemDto} (done : List PosOperationItem)
    {post : Post commerce HttpException Unit ι}
    (unlisted : putsOf (S := commerce) .posOperationItem earlier = [])
    (kept : erasesOf (S := commerce) .posOperationItem earlier = [])
    (owned : ∀ item ∈ done, item.operationId = operationId)
    (inserted : Inserted (lawful calls) first pins earlier .posOperationItem done world transaction)
    (fails : Fails (lawful calls) i kinds post true world)
    (resume : ∀ after transaction (items : List PosOperationItem), items.map intentItem = done.map intentItem ++ rest →
      (∀ item ∈ items, item.operationId = operationId) →
      Inserted (lawful calls) first pins earlier .posOperationItem items after transaction →
      Fails (lawful calls) i kinds post true after → post (.ok ()) (some transaction) after) :
    Safe commits (lawful calls) i post (createItems tenantId operationId rest) (some transaction) world := by
  induction rest generalizing done world transaction with
  | nil =>
    exact Safe.done fun after later => resume after transaction done (by simp) owned (inserted.later later)
      (fails.idle (Later.idle later))
  | cons next rest ih =>
    refine Safe.insert inserted unlisted kept fails fun after larger item built _ inserted fails => ?_
    obtain ⟨stamp, clock, rfl⟩ := built
    refine ih _ ?_ inserted fails fun after transaction items frozen => ?_
    · intro item member
      rcases List.mem_append.mp member with earlier | new
      · exact owned item earlier
      · rw [List.mem_singleton.mp new]
    · rw [List.map_append, List.append_assoc] at frozen
      exact resume after transaction items frozen

private theorem insertOperation_safe {session : PosSession}
    (fails : Fails (lawful calls) i (fun _ => True)
      (Body (RecordCommits i tenantId dto) (lawful calls) i (RecordPost i)) true world) :
    Safe Never (lawful calls) i (Body (RecordCommits i tenantId dto) (lawful calls) i (RecordPost i))
      (insertOperation tenantId session dto) (some {}) world := by
  refine Safe.createInside fails fun w₁ l₁ operation built created fails => ?_
  have held := ((Held.start _).insert l₁ ⟨some i, some (.posOperation, .create), [], true⟩ operation created.fresh).restart
  refine Safe.bind (createLines_safe [] (by simp) (by simp) nofun (.none held) fails ?_)
  intro w₂ t₂ items frozen owned inserted fails
  refine Safe.findFirst fails fun w₃ operations l₃ _ fails => ?_
  refine Safe.orThrow fails trivial fun found _ => ?_
  refine Safe.findMany fails fun w₄ lines l₄ _ fails => ?_
  refine Safe.done fun after later => ?_
  have held := ((inserted.held.move l₃ _ fun _ => id).move l₄ _ fun _ => id).later later
  have inserted : Inserted (lawful calls) _ _ _ .posOperationItem items after t₂ :=
    ⟨held, inserted.written, inserted.distinct⟩
  have own : after.own i = [] := Fails.ownInside (fails.idle (Later.idle later))
  refine ⟨t₂, rfl, .inr ⟨own, operation, items, ⟨?_, ?_, ?_, ?_, ?_, ?_, ?_, frozen, ?_, inserted.distinct⟩, inserted.written⟩,
    fun _ _ => ⟨rfl, trivial⟩⟩
  · rw [built]
    exact (Grows.trace held.grown).length_le
  · exact (held.pinned ⟨Model.posOperation, operation.id, none⟩
      (List.mem_append_left _ (List.mem_singleton.mpr rfl))).2
  · rw [built]
  · rw [built]
    exact ⟨rfl, rfl⟩
  · rw [built]
  · rw [built]
  · rw [built]
    exact ⟨rfl, rfl, rfl⟩
  · exact fun item member => ⟨owned item member, inserted.fresh member⟩

private theorem resolveDuplicate_safe {commits : Commits commerce ι} {session : PosSession}
    {failure : Failure HttpException} (fails : Fails (lawful calls) i (fun _ => True) (RecordPost i) false world) :
    Safe commits (lawful calls) i (RecordPost i) (resolveDuplicate tenantId session dto failure) none world := by
  unfold resolveDuplicate
  split
  next =>
    refine Safe.findFirst fails fun w₁ operations l₁ _ fails => ?_
    refine Safe.orThrow fails trivial fun operation _ => ?_
    refine Safe.findMany fails fun w₂ items l₂ _ fails => ?_
    exact Safe.done fun _ _ => ⟨rfl, trivial⟩
  next => exact Safe.throw fails trivial

/-- A recorded intent is committed whole; a duplicate commits nothing. -/
theorem recordOfflineSaleIntent_safe (own : world.own i = []) :
    Safe (RecordCommits i tenantId dto) (lawful calls) i (RecordPost i)
      (recordOfflineSaleIntent tenantId userId dto) none world := by
  have fails : Fails (lawful calls) i (fun _ => True) (RecordPost i) false world := Attempt.fails own
  refine Safe.findFirst fails fun w₁ sessions l₁ _ fails => ?_
  refine Safe.orThrow fails trivial fun session _ => ?_
  refine Safe.throwIf fails trivial fun _ => ?_
  refine Safe.tryCatch rfl (Safe.weaken (Safe.transaction fails fun _ _ fails => insertOperation_safe fails) ?_)
  rintro (failure | summary) session' w ⟨rfl, outcome⟩
  · have fails : Fails (lawful calls) i (fun _ => True) (RecordPost i) false w := Attempt.fails outcome.2
    simp only
    split
    next => exact resolveDuplicate_safe fails
    next => exact Safe.failed fails fun _ _ => trivial
  · exact ⟨rfl, trivial⟩

end BusinessPlatform
