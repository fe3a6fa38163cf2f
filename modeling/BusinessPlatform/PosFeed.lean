import BusinessPlatform.Client

/-! The catalog change feed that the devices of a tenant pull. -/

namespace BusinessPlatform.PosSyncService
open Engine Program

inductive PosFeedKind where
  | product | productVariant | price | deleted
  deriving DecidableEq, Repr

structure PosFeedEvent where
  id : Id
  tenantId : Id
  feedSeq : Int
  kind : PosFeedKind
  entityId : Id
  deriving DecidableEq, Repr

inductive FeedModel where
  | posFeedEvent
  deriving DecidableEq, Repr

namespace FeedModel

abbrev Row : FeedModel → Type
  | posFeedEvent => PosFeedEvent

inductive Index where
  | feedSeq (tenantId : Id) (feedSeq : Int)
  deriving DecidableEq, Repr

def key : {m : FeedModel} → Row m → Id
  | posFeedEvent => PosFeedEvent.id

/-- `PosFeedEvent_tenantId_feedSeq_key`. -/
def indexes : {m : FeedModel} → Row m → List Index
  | posFeedEvent => fun row => [.feedSeq row.tenantId row.feedSeq]

/-- `PosFeedEvent_feedSeq_check`, on an INTEGER column. -/
def check : {m : FeedModel} → Row m → Bool
  | posFeedEvent => fun row => decide (0 < row.feedSeq) && Model.fitsInteger row.feedSeq

end FeedModel

@[reducible] def feed : Schema where
  Model := FeedModel
  Row := FeedModel.Row
  Key _ := Id
  Index := FeedModel.Index
  key := FeedModel.key
  indexes := FeedModel.indexes
  keyColumns _ := ["id"]
  columns _ := ["tenantId", "feedSeq"]
  check := FeedModel.check
  excludes _ _ := false
  parents _ := []
  cascade _ := []

structure FeedEntry where
  feedSeq : Int
  kind : PosFeedKind
  entityId : Id
  deriving DecidableEq, Repr

structure FeedPage where
  entries : List FeedEntry
  nextCursor : Rat
  deriving DecidableEq, Repr

def INVALID_FEED_CURSOR := "Invalid feed cursor"

def PosFeedEvent.entry (event : PosFeedEvent) : FeedEntry := ⟨event.feedSeq, event.kind, event.entityId⟩

/-- `orderBy: { feedSeq: 'asc' }, take: 100`. -/
def firstPage (events : List PosFeedEvent) : List PosFeedEvent :=
  (events.insertionSort fun first second => first.feedSeq ≤ second.feedSeq).take 100

/-- The cursor is any number. -/
def pullFeed (tenantId : Id) (since : Rat) : Program feed HttpException FeedPage := do
  throwIf (!since.isInt || since < 0) (.conflict INVALID_FEED_CURSOR)
  Prisma.sendInteger since.num
  let events ← findMany (S := feed) .posFeedEvent fun event => since < event.feedSeq && event.tenantId = tenantId
  let entries := firstPage events
  pure ⟨entries.map PosFeedEvent.entry, (entries.getLast?.map fun event => (event.feedSeq : Rat)).getD since⟩

end BusinessPlatform.PosSyncService
