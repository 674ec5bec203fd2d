import CostBasis.Execution
import CostBasis.Text.Basic
import CostBasis.Json.Parser
import CostBasis.Json.Basic
import CostBasis.Side

/-!
# Journal records

A journal holds one record a line: the side of a fill and the members of its execution report, in one
JSON object.  Because the two share an object, its unknown members are read as strictly as the known
ones: their strings have to be text, their numbers finite and their nesting bounded.
-/

namespace CostBasis

/-- One line of a journal. -/
structure Record where
  side : Side
  report : ExecutionReport
deriving DecidableEq

namespace Record

/-- The deepest nesting of a record, the record itself included. -/
def maxDepth : Nat := 127

/-- Whether a value can be read as a whole: strings with a text, finite numbers, and no more than
`depth` levels of arrays and objects. -/
def readable : (depth : Nat) → Json → Bool
  | _, .string s => s.isSome
  | _, .number n => n.double?.isSome
  | 0, .array _ => false
  | 0, .object _ => false
  | depth + 1, .array items => items.all (readable depth)
  | depth + 1, .object members => members.all fun m => m.1.isSome && readable depth m.2
  | _, _ => true

/-- Reads the state of an order, where an empty object may stand for null. -/
def status? : Json → Option OrderStatus
  | .object [(name, .object [])] => OrderStatus.ofJson? (.object [(name, .null)])
  | j => OrderStatus.ofJson? j

def toJson (r : Record) : Json := .record (("side", r.side.toJson) :: r.report.members)

def ofJson? : Json → Option Record
  | .object members => do
    let members ← Json.named? members
    let sides ← Json.select? ["side"] members
    let side ← Json.required? sides "side" Side.ofJson?
    let others := members.filter fun m => m.1 != "side"
    if others.all fun m => readable (maxDepth - 1) m.2 then
      let fields ← Json.select? ExecutionReport.fieldNames others
      let report ← ExecutionReport.ofFields? status? fields
      return { side, report }
    else none
  | _ => none

def line (r : Record) : String := r.toJson.render

end Record

/-- What a line of a journal says. -/
inductive Line where
  /-- Its bytes are no text. -/
  | unreadable
  /-- It holds nothing but blanks. -/
  | blank
  /-- It holds something else than a record. -/
  | malformed
  | record (record : Record)
deriving DecidableEq

namespace Line

def ofText (s : String) : Line :=
  if s.toList.all Text.isBlank then blank
  else
    match (Json.parse? s).bind Record.ofJson? with
    | some r => record r
    | none => malformed

def ofBytes (bytes : List UInt8) : Line :=
  match Text.decode? bytes with
  | some s => ofText s
  | none => unreadable

end Line

/-! ## Lines -/

def lineFeed : UInt8 := 10

def carriageReturn : UInt8 := 13

/-- A line that has been read to its end, given last byte first, without a carriage return there. -/
def endLine : List UInt8 → List UInt8
  | [] => []
  | b :: rest => if b = carriageReturn then rest.reverse else (b :: rest).reverse

/-- Splits bytes into lines.  `current` is the line at hand, last byte first; the last line need not
end. -/
def linesFrom (current : List UInt8) : List UInt8 → List (List UInt8)
  | [] => if current.isEmpty then [] else [current.reverse]
  | b :: rest =>
    if b = lineFeed then endLine current :: linesFrom [] rest else linesFrom (b :: current) rest

def journalLines (bytes : List UInt8) : List Line := (linesFrom [] bytes).map Line.ofBytes

/-- The lines of a journal file; none if it cannot be opened.  What cannot be read fails on its first
line. -/
def File.journal? : File → Option (List Line)
  | missing => none
  | unreadable => some [.unreadable]
  | content bytes => some (journalLines bytes)

end CostBasis
