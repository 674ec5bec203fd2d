import CostBasis.Book.Basic
import CostBasis.Book.Summary
import CostBasis.Replay.Record

/-!
# Replay

Replaying a journal applies its fills to a book, line by line.  Blank lines say nothing; reports
without a fill are skipped; a refused fill is counted, and ends a strict replay.  A line that cannot
be read, or holds no record, ends every replay.  What was applied before the end stays applied.
-/

namespace CostBasis

/-- Counters of a replay. -/
structure Stats where
  records : Nat := 0
  applied : Nat := 0
  /-- Reports without a fill. -/
  skipped : Nat := 0
  rejected : Nat := 0
deriving DecidableEq, Repr

/-- What ends a replay before its journal does. -/
inductive StopCause where
  | unreadable
  | malformed
  | refused (error : FillError)
  | fault (fault : Fault)
deriving DecidableEq

/-- The early end of a replay, with the number of the line, from one on. -/
structure Stop where
  line : Nat
  cause : StopCause
deriving DecidableEq

def Stop.messages (s : Stop) : List String :=
  match s.cause with
  | .unreadable => [s!"Failed to read line {s.line}"]
  | .malformed => [s!"Malformed fill record on line {s.line}"]
  | .refused error => [s!"Replay stopped at line {s.line}", error.message]
  | .fault fault => [fault.message]

/-- A replay at some line of its journal. -/
structure Replay where
  book : Book
  stats : Stats := {}
  /-- The price of the last applied fill of each symbol. -/
  lastPrices : Prices := {}
  events : Array Event := #[]
  /-- Why the replay has ended early, if it has. -/
  stop : Option Stop := none

namespace Replay

def logAll (r : Replay) (events : List Event) : Replay :=
  { r with events := r.events ++ events.toArray }

def skipEvent (line : Nat) (report : ExecutionReport) : Event :=
  ⟨.debug, s!"Line {line}: {report.status.name} report for {report.symbol} carries no fill, skipping"⟩

def rejectEvent (line : Nat) (record : Record) (error : FillError) : Event :=
  ⟨.warn, s!"Line {line}: rejected {record.side} fill for {record.report.symbol} " ++
    s!"(client order {record.report.clientOrderId}): {error.message}"⟩

/-- Applies the fill of a record, which has been counted. -/
def applyFill (strict : Bool) (line : Nat) (r : Replay) (record : Record) : Replay :=
  let step := r.book.apply record.report record.side
  let r := { r with book := step.book }.logAll step.events
  match step.answer with
  | .ok _ =>
    { r with
      stats := { r.stats with applied := r.stats.applied + 1 }
      lastPrices := r.lastPrices.insert record.report.symbol record.report.lastFillPrice }
  | .error (.refused error) =>
    { r with
      stats := { r.stats with rejected := r.stats.rejected + 1 }
      stop := if strict then some ⟨line, .refused error⟩ else none }.logAll
        [rejectEvent line record error]
  | .error (.fault fault) => { r with stop := some ⟨line, .fault fault⟩ }

def feed (strict : Bool) (line : Nat) (r : Replay) : Line → Replay
  | .unreadable => { r with stop := some ⟨line, .unreadable⟩ }
  | .blank => r
  | .malformed => { r with stop := some ⟨line, .malformed⟩ }
  | .record record =>
    let counted := { r with stats := { r.stats with records := r.stats.records + 1 } }
    if record.report.HasFill then counted.applyFill strict line record
    else
      { counted with
        stats := { counted.stats with skipped := counted.stats.skipped + 1 } }.logAll
          [skipEvent line record.report]

/-- Replays lines, the first of which has the given number, until one of them ends the replay. -/
def feedAll (strict : Bool) (line : Nat) (r : Replay) : List Line → Replay
  | [] => r
  | l :: rest =>
    let next := r.feed strict line l
    if next.stop.isSome then next else next.feedAll strict (line + 1) rest

end Replay

def Book.replayLines (b : Book) (strict : Bool) (lines : List Line) : Replay :=
  Replay.feedAll strict 1 { book := b } lines

def Book.replay (b : Book) (strict : Bool) (journal : List UInt8) : Replay :=
  b.replayLines strict (journalLines journal)

/-! ## The report of a replay -/

def Stats.events (stats : Stats) (summary : Summary) : List Event :=
  let lines :=
    ["=== Replay Summary ===", s!"Records read: {stats.records}", s!"Fills applied: {stats.applied}",
      s!"Reports skipped: {stats.skipped}", s!"Fills rejected: {stats.rejected}",
      s!"Open positions: {summary.openPositions}", s!"Realized PnL: {summary.realizedPnl}",
      s!"Unrealized PnL: {summary.unrealizedPnl}", s!"Total PnL: {summary.totalPnl}"]
  let unpriced : List Event :=
    if summary.unpricedSymbols.isEmpty then []
    else [⟨.warn, "No mark price for: " ++ ", ".intercalate summary.unpricedSymbols⟩]
  lines.map (fun line => ⟨.info, line⟩) ++ unpriced

/-- A replay without records has nothing to report. -/
def Stats.HasRecords (stats : Stats) : Prop := stats.records ≠ 0

instance (stats : Stats) : Decidable stats.HasRecords :=
  inferInstanceAs (Decidable (stats.records ≠ 0))

def noRecordsMessage : String := "No fill records found in input"

end CostBasis
