import RetrySchedule.Fault

namespace RetrySchedule.Slice

def positionWidth : Nat := Nat.pow 2 63

/-- Negative positions count from the end. -/
def elementAt {α : Type} (xs : List α) (position : Int) : Except Fault α :=
  if position < -(positionWidth : Int) || positionWidth ≤ position then .error .indexWidth
  else
    let fromStart := if position < 0 then position + xs.length else position
    if fromStart < 0 then .error .indexRange
    else
      match xs[fromStart.toNat]? with
      | some x => .ok x
      | none => .error .indexRange

def get {α : Type} (xs : List α) (position : Argument) : Except Fault α :=
  match position.number?.bind Number.whole? with
  | some n => elementAt xs n
  | none => .error (.indexKind position.kind)

/-- A bound of a slice, moved into `[least, greatest]`. -/
def bound (length least greatest position : Int) : Int :=
  if position < 0 then max (position + length) least else min position greatest

/-- The elements from `start` on, `stride` places apart, before `stop` is reached. -/
def take {α : Type} (xs : List α) (start? stop? stride? : Option Int) : Except Fault (List α) :=
  let length : Int := xs.length
  let stride := stride?.getD 1
  if stride = 0 then .error .zeroStride
  else
    let (least, greatest) := if 0 < stride then ((0 : Int), length) else (-1, length - 1)
    let (first, final) := if 0 < stride then (least, greatest) else (greatest, least)
    let start := (start?.map (bound length least greatest)).getD first
    let stop := (stop?.map (bound length least greatest)).getD final
    let distance := if 0 < stride then stop - start else start - stop
    let count := if 0 < distance then (distance - 1) / stride.natAbs + 1 else 0
    .ok ((List.range count.toNat).filterMap fun (i : Nat) => xs[(start + i * stride).toNat]?)

end RetrySchedule.Slice
