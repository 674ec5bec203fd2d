import CostBasis.Book.Summary
import CostBasis.Inspect

/-!
# Commands

A session is a list of commands to a book.  Each command has an answer and leaves a book, so that
laws about sessions can be stated over all lists of commands.  Queries leave the book as it is.
-/

namespace CostBasis

/-- What can be asked of a book. -/
inductive Query where
  | position (symbol : String)
  | positions
  | snapshot (symbol : String) (price : Decimal)
  | snapshots (prices : Prices)
  | summary (prices : Prices)
  | realizedPnl
  | unrealizedPnl (prices : Prices)
  | totalPnl (prices : Prices)
  | spelling

/-- What can be done to a book. -/
inductive Command where
  | fill (symbol : String) (side : Side) (quantity price : Decimal)
  | apply (report : ExecutionReport) (side : Side)
  | adjust (symbol : String) (side : Side) (quantity price : Decimal)
  | ensure (symbol : String)
  | setMethod (symbol : String) (method : Method)
  | setDefaultMethod (method : Method)
  | clear
  | subscribe (label : String)
  | subscribeOnly (label : String)
  | unsubscribe (id : Nat)
  | openChannel (capacity : Option Nat)
  | receive (channel : Nat) (limit : Option Nat)
  | disconnect (channel : Nat)
  | query (query : Query)

/-- What a command answers. -/
inductive Answer where
  | outcome (result : Except FillFailure FillOutcome)
  | methodSet (result : Except MethodError Unit)
  | position (position : Position)
  | found (position : Option Position)
  | positions (positions : List Position)
  | snapshot (snapshot : Option Snapshot)
  | snapshots (snapshots : List Snapshot)
  | summary (summary : Summary)
  | amount (amount : Decimal)
  | method (method : Method)
  | done
  | id (id : Nat)
  | removed (removed : Bool)
  | updates (updates : List Update)
  | noSuchChannel
  | noSuchSubscription
  | text (text : String)

def Step.ofFill (s : Step (Except FillFailure FillOutcome)) : Step Answer :=
  { answer := .outcome s.answer, book := s.book, notices := s.notices, events := s.events }

namespace Book

def answer (b : Book) : Query → Logged Answer
  | .position symbol => { value := .found (b.find? symbol) }
  | .positions => { value := .positions b.sortedPositions }
  | .snapshot symbol price =>
    { value := .snapshot ((b.find? symbol).map fun p => p.snapshot price) }
  | .snapshots prices => { value := .snapshots (b.snapshots prices) }
  | .summary prices =>
    let s := b.summary prices
    { value := .summary s, events := summaryEvents s }
  | .realizedPnl => { value := .amount b.totalRealizedPnl }
  | .unrealizedPnl prices => { value := .amount (b.totalUnrealizedPnl prices) }
  | .totalPnl prices => { value := .amount (b.totalPnl prices) }
  | .spelling => { value := .text b.spell }

def step (b : Book) : Command → Step Answer
  | .fill symbol side quantity price => Step.ofFill (b.fill symbol side quantity price)
  | .apply report side => Step.ofFill (b.apply report side)
  | .adjust symbol side quantity price => Step.ofFill (b.adjust symbol side quantity price)
  | .ensure symbol =>
    let entered := b.ensure symbol
    { answer := .position (b.positionOrNew symbol), book := entered.value
      events := entered.events }
  | .setMethod symbol method =>
    let s := b.setMethod symbol method
    { answer := .methodSet s.answer, book := s.book, events := s.events }
  | .setDefaultMethod method =>
    let changed := b.setDefaultMethod method
    { answer := .method method, book := changed.value, events := changed.events }
  | .clear => { answer := .done, book := b.clear.value, events := b.clear.events }
  | .subscribe label =>
    let (book, id) := b.subscribe label
    { answer := .id id, book }
  | .subscribeOnly label =>
    let changed := b.subscribeOnly label
    { answer := .id changed.value.2, book := changed.value.1, events := changed.events }
  | .unsubscribe id =>
    if id < b.nextSubscription then
      let (book, removed) := b.unsubscribe id
      { answer := .removed removed, book }
    else { answer := .noSuchSubscription, book := b }
  | .openChannel capacity =>
    let (publisher, id) := b.publisher.openChannel (capacity.getD b.channelCapacity)
    { answer := .id id, book := { b with publisher } }
  | .receive channel limit =>
    match b.publisher.receive? channel limit with
    | some (publisher, updates) =>
      { answer := .updates updates, book := { b with publisher } }
    | none => { answer := .noSuchChannel, book := b }
  | .disconnect channel =>
    match b.publisher.disconnect? channel with
    | some publisher => { answer := .done, book := { b with publisher } }
    | none => { answer := .noSuchChannel, book := b }
  | .query query =>
    let answered := b.answer query
    { answer := answered.value, book := b, events := answered.events }

def run (b : Book) : List Command → Book × List (Step Answer)
  | [] => (b, [])
  | c :: rest =>
    let s := b.step c
    let (book, steps) := s.book.run rest
    (book, s :: steps)

end Book

end CostBasis
