import CostBasis.Decimal.Arithmetic

/-!
# Arithmetic that may stop a fill

The ledger does its arithmetic in two ways.  Where an amount may leave the range of the decimals the
operation is checked, and the fill is refused at a named stage.  Where the ledger relies on its own
invariants the operation is trusted, and leaving the range is a fault.
-/

namespace CostBasis

/-- A trusted operation that left the range of the decimals. -/
inductive Fault where
  | subtraction
  | multiplication
deriving DecidableEq, Repr

def Fault.message : Fault → String
  | .subtraction => "Subtraction overflowed"
  | .multiplication => "Multiplication overflowed"

/-- The checked computations of a fill. -/
inductive Stage where
  | lotCost
  | positionSize
  | averagePrice
  | realizedPnl
deriving DecidableEq, Repr

def Stage.text : Stage → String
  | .lotCost => "lot cost"
  | .positionSize => "position size"
  | .averagePrice => "average price"
  | .realizedPnl => "realized pnl"

/-- What stops a computation: a checked stage out of range, or a fault. -/
inductive Obstacle where
  | overflow (stage : Stage)
  | fault (fault : Fault)
deriving DecidableEq, Repr

namespace Obstacle

def checked {α : Type} (stage : Stage) (result : Option α) : Except Obstacle α :=
  match result with
  | some a => .ok a
  | none => .error (.overflow stage)

def subtract (a b : Decimal) : Except Obstacle Decimal :=
  match a.sub? b with
  | some d => .ok d
  | none => .error (.fault .subtraction)

def multiply (a b : Decimal) : Except Obstacle Decimal :=
  match a.mul? b with
  | some d => .ok d
  | none => .error (.fault .multiplication)

end Obstacle

end CostBasis
