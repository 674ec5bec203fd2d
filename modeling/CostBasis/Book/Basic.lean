import CostBasis.Book.Publisher
import CostBasis.Execution
import CostBasis.Settings

/-!
# The book

A book holds the positions of a trading session, at most one for each symbol, in the order of their
opening.  After each fill applied to it, its subscribers see the position, in the order in which they
subscribed, and its publisher makes an update; a refused fill is seen by no one.
-/

namespace CostBasis

/-! ## Prices

A price list gives some symbols a price; a later price of a symbol replaces an earlier one. -/

/-- Prices by symbol, each symbol at most once. -/
structure Prices where
  entries : List (String × Decimal) := []
deriving DecidableEq

namespace Prices

def get? (p : Prices) (symbol : String) : Option Decimal := p.entries.lookup symbol

def insert (p : Prices) (symbol : String) (price : Decimal) : Prices :=
  { entries := (symbol, price) :: p.entries.filter fun e => e.1 != symbol }

end Prices

/-! ## Books -/

/-- Someone who is shown each position that a fill has changed. -/
structure Subscription where
  id : Nat
  label : String
deriving DecidableEq, Repr

/-- A subscriber being shown a position. -/
structure Notice where
  label : String
  position : Position
deriving DecidableEq

/-- The positions of a session. -/
structure Book where
  positions : List Position := []
  /-- The method of positions that are yet to be opened. -/
  defaultMethod : Method := Method.default
  /-- Subscribers, oldest first. -/
  subscriptions : List Subscription := []
  /-- The id of the next subscription. -/
  nextSubscription : Nat := 0
  publisher : Publisher := {}
  /-- The capacity of a channel that is opened without one. -/
  channelCapacity : Nat := defaultChannelCapacity
deriving DecidableEq

/-- What an operation on a book leaves: its answer, the book, and who was shown what. -/
structure Step (α : Type) where
  answer : α
  book : Book
  notices : List Notice := []
  events : List Event := []

namespace Book

def ofSettings (s : Settings) : Logged Book where
  value := { defaultMethod := s.defaultMethod, channelCapacity := s.channelCapacity }
  events :=
    [⟨.info, s!"Initialized PositionManager: default cost basis {s.defaultMethod}, " ++
      s!"update channel capacity {s.channelCapacity}"⟩]

def ofMethod (method : Method) : Logged Book :=
  let opened := ofSettings {}
  { opened with value := { opened.value with defaultMethod := method } }

/-! ## Positions -/

def find? (b : Book) (symbol : String) : Option Position :=
  b.positions.find? fun p => p.symbol = symbol

def positionOrNew (b : Book) (symbol : String) : Position :=
  (b.find? symbol).getD (Position.new symbol b.defaultMethod)

/-- Puts a position in the place of the one with its symbol, or at the end. -/
def putPosition (p : Position) : List Position → List Position
  | [] => [p]
  | q :: rest => if q.symbol = p.symbol then p :: rest else q :: putPosition p rest

def put (b : Book) (p : Position) : Book := { b with positions := putPosition p b.positions }

def openingEvents (b : Book) (symbol : String) : List Event :=
  match b.find? symbol with
  | some _ => []
  | none => [⟨.info, s!"Opening position ledger for {symbol} ({b.defaultMethod})"⟩]

def ensure (b : Book) (symbol : String) : Logged Book where
  value := b.put (b.positionOrNew symbol)
  events := b.openingEvents symbol

/-! ## Fills -/

def notices (b : Book) (p : Position) : List Notice :=
  b.subscriptions.map fun s => ⟨s.label, p⟩

def fillEvent (side : Side) (quantity price : Decimal) (p : Position) (outcome : FillOutcome) :
    Event :=
  ⟨.debug, s!"Fill applied: {p.symbol} {side} {quantity} @ {price} -> size {p.size}, " ++
    s!"avg {p.averagePrice}, realized {p.realizedPnl} (+{outcome.realizedPnl})"⟩

/-- Applies a fill to the position of a symbol and tells subscribers and channels of it. -/
def fill (b : Book) (symbol : String) (side : Side) (quantity price : Decimal) :
    Step (Except FillFailure FillOutcome) :=
  let entered := b.ensure symbol
  match (b.positionOrNew symbol).fill side quantity price with
  | .error failure =>
    { answer := .error failure, book := entered.value, events := entered.events }
  | .ok (position, outcome) =>
    let published := b.publisher.publish side quantity price outcome position
    { answer := .ok outcome
      book := { entered.value.put position with publisher := published.value }
      notices := b.notices position
      events :=
        entered.events ++ [fillEvent side quantity price position outcome] ++ published.events }

def apply (b : Book) (report : ExecutionReport) (side : Side) :
    Step (Except FillFailure FillOutcome) :=
  b.fill report.symbol side report.lastFillQuantity report.lastFillPrice

/-- Applies a fill to the position of a symbol and tells no one. -/
def adjust (b : Book) (symbol : String) (side : Side) (quantity price : Decimal) :
    Step (Except FillFailure FillOutcome) :=
  let entered := b.ensure symbol
  match (b.positionOrNew symbol).fill side quantity price with
  | .error failure =>
    { answer := .error failure, book := entered.value, events := entered.events }
  | .ok (position, outcome) =>
    { answer := .ok outcome, book := entered.value.put position, events := entered.events }

/-! ## Methods -/

def setMethod (b : Book) (symbol : String) (method : Method) : Step (Except MethodError Unit) :=
  let entered := b.ensure symbol
  match (b.positionOrNew symbol).setMethod method with
  | .error e => { answer := .error e, book := entered.value, events := entered.events }
  | .ok changed =>
    { answer := .ok (), book := entered.value.put changed.value
      events := entered.events ++ changed.events }

def setDefaultMethod (b : Book) (method : Method) : Logged Book where
  value := { b with defaultMethod := method }
  events :=
    if method = b.defaultMethod then []
    else [⟨.info, s!"Default cost basis method changed: {b.defaultMethod} -> {method}"⟩]

/-- Forgets every position.  Subscribers and channels stay. -/
def clear (b : Book) : Logged Book where
  value := { b with positions := [] }
  events := [⟨.info, s!"Clearing {b.positions.length} position(s)"⟩]

/-! ## Subscribers -/

def subscribe (b : Book) (label : String) : Book × Nat :=
  ({ b with
      subscriptions := b.subscriptions ++ [⟨b.nextSubscription, label⟩]
      nextSubscription := b.nextSubscription + 1 },
    b.nextSubscription)

def unsubscribe (b : Book) (id : Nat) : Book × Bool :=
  ({ b with subscriptions := b.subscriptions.filter fun s => s.id != id },
    b.subscriptions.any fun s => s.id == id)

/-- Makes a subscriber the only one and gives the id of the subscription. -/
def subscribeOnly (b : Book) (label : String) : Logged (Book × Nat) where
  value := { b with subscriptions := [] }.subscribe label
  events :=
    if b.subscriptions.isEmpty then []
    else
      [⟨.warn, s!"Replacing {b.subscriptions.length} existing position update subscriber(s)"⟩]

end Book

end CostBasis
