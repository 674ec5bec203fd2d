import CostBasis.Position.Fill
import CostBasis.Position.Mark

/-!
# Position updates

Every applied fill makes one update, numbered from one on, which is offered to each update channel.
A channel holds a bounded number of updates until its reader takes them: a full channel drops the
update and the drop is counted, a channel that its reader has left is removed.
-/

namespace CostBasis

/-- One applied fill and the position after it. -/
structure Update where
  sequence : Nat
  side : Side
  quantity : Decimal
  price : Decimal
  outcome : FillOutcome
  /-- The position after the fill, marked at the price of the fill. -/
  snapshot : Snapshot
deriving DecidableEq

namespace Update

def fieldNames : List String :=
  ["sequence", "side", "fill_qty", "fill_price", "outcome", "snapshot"]

def toJson (u : Update) : Json :=
  .record
    [("sequence", .count u.sequence), ("side", u.side.toJson), ("fill_qty", u.quantity.toJson),
      ("fill_price", u.price.toJson), ("outcome", u.outcome.toJson),
      ("snapshot", u.snapshot.toJson)]

def ofJson? (j : Json) : Option Update := do
  let fields ← j.fields? fieldNames
  let sequence ← Json.required? fields "sequence" Json.count?
  let side ← Json.required? fields "side" Side.ofJson?
  let quantity ← Json.required? fields "fill_qty" Decimal.ofJson?
  let price ← Json.required? fields "fill_price" Decimal.ofJson?
  let outcome ← Json.required? fields "outcome" FillOutcome.ofJson?
  let snapshot ← Json.required? fields "snapshot" Snapshot.ofJson?
  return { sequence, side, quantity, price, outcome, snapshot }

end Update

/-- A bounded queue of updates between the publisher and one reader. -/
structure Channel where
  id : Nat
  capacity : Nat
  /-- Updates not yet taken, oldest first. -/
  queue : List Update := []
  /-- Whether the reader is still there. -/
  connected : Bool := true
deriving DecidableEq

namespace Channel

def isFull (c : Channel) : Bool := decide (c.capacity ≤ c.queue.length)

def offer (u : Update) (c : Channel) : Channel :=
  if c.isFull then c else { c with queue := c.queue ++ [u] }

end Channel

/-- The sending side of all update channels. -/
structure Publisher where
  /-- Attached channels, in the order of their opening. -/
  channels : List Channel := []
  /-- The id of the next channel. -/
  nextChannel : Nat := 0
  /-- The number of the last update. -/
  sequence : Nat := 0
  /-- Updates that full channels have dropped. -/
  dropped : Nat := 0
deriving DecidableEq

namespace Publisher

/-- Opens a channel, which holds at least one update, and gives its id. -/
def openChannel (p : Publisher) (capacity : Nat) : Publisher × Nat :=
  ({ p with
      channels := p.channels ++ [{ id := p.nextChannel, capacity := max capacity 1 }]
      nextChannel := p.nextChannel + 1 },
    p.nextChannel)

/-- The channel of an id, as long as its reader is there. -/
def channel? (p : Publisher) (id : Nat) : Option Channel :=
  p.channels.find? fun c => c.id == id && c.connected

def modify (p : Publisher) (id : Nat) (f : Channel → Channel) : Publisher :=
  { p with channels := p.channels.map fun c => if c.id = id then f c else c }

/-- Takes the oldest updates from a channel, all of them or as many as asked for; none without such a
channel. -/
def receive? (p : Publisher) (id : Nat) (limit : Option Nat) : Option (Publisher × List Update) :=
  (p.channel? id).map fun c =>
    let count := limit.getD c.queue.length
    (p.modify id fun c => { c with queue := c.queue.drop count }, c.queue.take count)

/-- Drops the reader of a channel and what it has not read; none without such a channel. -/
def disconnect? (p : Publisher) (id : Nat) : Option Publisher :=
  (p.channel? id).map fun _ => p.modify id fun c => { c with queue := [], connected := false }

def listenerCount (p : Publisher) : Nat := p.channels.length

/-- Numbers the next update and offers it to every channel. -/
def publish (p : Publisher) (side : Side) (quantity price : Decimal) (outcome : FillOutcome)
    (position : Position) : Logged Publisher :=
  let sequence := p.sequence + 1
  let update : Update :=
    { sequence, side, quantity, price, outcome, snapshot := position.snapshot price }
  let (attached, left) := p.channels.partition Channel.connected
  let full := (attached.filter Channel.isFull).length
  let dropped := p.dropped + full
  let removals := left.map fun _ =>
    (⟨.debug, "Position update channel disconnected, removing"⟩ : Event)
  let drops : List Event :=
    if full = 0 then []
    else
      [⟨.warn, s!"Position update {sequence} for {position.symbol} dropped on {full} full " ++
        s!"channel(s) (total dropped: {dropped})"⟩]
  { value := { p with channels := attached.map (Channel.offer update), sequence, dropped }
    events := removals ++ drops }

end Publisher

end CostBasis
