import RetrySchedule.Journal
import RetrySchedule.Schedule

namespace RetrySchedule

def Argument.attempt : Argument → Except Fault Int
  | .number (.int n) => .ok n
  | other => .error (.attemptKind other.kind)

namespace Schedule

def checkAttempt (attempt : Int) : Except Fault Unit :=
  if attempt < 1 then .error (.stating (.int attempt) (.attemptBelowOne attempt)) else .ok ()

/-- The first tier whose count leaves nothing of the attempt, and its position. -/
def locate : List Tier → Int → Option (Nat × Tier)
  | [], _ => none
  | tier :: rest, attempt =>
      let remaining := attempt - tier.count
      if remaining ≤ 0 then some (0, tier)
      else (locate rest remaining).map fun (position, found) => (position + 1, found)

def exhaustedFault (budget : Number) (attempt : Int) : Fault :=
  .stating (.int attempt) (.stating budget (.exhausted budget attempt))

/-- Every tier serves as many attempts as its count says, in order, and an open last tier serves all
that follow. -/
def tierFor (s : Schedule) (attempt : Int) : Outcome Tier := do
  checkAttempt attempt
  match if attempt ≤ s.budget then locate s.tiers attempt else none with
  | some (position, tier) =>
      Outcome.leave (.tierServes attempt position (← Fault.ofNumeral tier.write))
      return tier
  | none =>
      if s.hasOpenEnd then
        Outcome.leave (.lastServes attempt (.int s.budget) (← Fault.ofNumeral s.last.write))
        return s.last
      else Outcome.fail (exhaustedFault (.int s.budget) attempt)

def waitFor (s : Schedule) (attempt : Int) : Outcome Wait := do
  return (← s.tierFor attempt).wait

end Schedule
end RetrySchedule
