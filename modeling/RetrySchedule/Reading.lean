import RetrySchedule.Journal
import RetrySchedule.Policy
import RetrySchedule.Term

namespace RetrySchedule

namespace Tier

/-- The number of attempts of a term, one if it has no rate. The rate has the form of a counting
numeral before it is read, so only its length can be refused, and that is no fault of the term. -/
def readCount (term : Text) : Option Text → Except Fault Int
  | none => .ok 1
  | some rate =>
      if Term.isCounting rate then
        match Numeral.read rate with
        | .ok count => .ok count
        | .error refused => .error (.numeral refused)
      else .error (.reading (.repeatCount term rate))

/-- The magnitude and scale of a term. The numeral is read leniently here; a numeral that is not in
the written form is found out by the shape of the whole term. -/
def readAmount (term amount : Text) : Except Fault (Int × Scale) :=
  if amount = Term.zeroAmount then .ok (0, .seconds)
  else
    match Scale.ofSuffix? amount with
    | none => .error (.reading (.noScale term))
    | some scale =>
        match Numeral.read (amount.take (amount.length - scale.symbol.length)) with
        | .ok magnitude => .ok (magnitude, scale)
        | .error refused => .error (.reading (.malformedTerm term (some refused)))

end Tier

def Schedule.terms (expression : Text) : List Text :=
  (expression.splitOn Term.separator).map Text.trim

/-- The functions that make what a reading consists of. -/
structure Makers where
  tier : Int → Scale → Int → Extent → Except Fault Tier
  schedule : List Tier → Except Fault Schedule

namespace Makers
variable (makers : Makers)

def ofTerm (term : Text) : Except Fault Tier := do
  if term.isEmpty then throw (.reading .emptyTerm)
  let parts := Term.divide term
  let count ← Tier.readCount term parts.rate
  let (magnitude, scale) ← Tier.readAmount term parts.amount
  if !Term.hasShape parts.rate.isSome parts.marked term then
    throw (.reading (.malformedTerm term none))
  makers.tier magnitude scale count (if parts.marked then .unbounded else .bounded)

/-- An open tier that others follow is refused or, under a lenient policy, closed. -/
def settle (policy : Policy) (expression term : Text) (tier : Tier) : Outcome Tier := do
  if policy.strict then
    Outcome.fail (.reading (.misplacedMarker term expression))
  else
    Outcome.leave (.markerIgnored term expression)
    makers.tier tier.magnitude tier.scale tier.count .bounded

def place (policy : Policy) (expression term : Text) (isLast : Bool) (tier : Tier) :
    Outcome Tier :=
  if tier.isOpen && !isLast then makers.settle policy expression term tier else return tier

def readTerms (policy : Policy) (expression : Text) : List Text → Outcome (List Tier)
  | [] => return []
  | term :: rest => do
      let tier ← makers.place policy expression term rest.isEmpty (← makers.ofTerm term)
      let others ← readTerms policy expression rest
      return tier :: others

def read (policy : Policy) (expression : Text) : Outcome Schedule := do
  if expression.all Text.blank then
    Outcome.fail (.reading (.blank expression))
  else if !Term.hasOutline expression then
    Outcome.fail (.reading (.outline expression))
  else
    let tiers ← makers.readTerms policy expression (Schedule.terms expression)
    let schedule ← makers.schedule tiers
    Outcome.leave (.scheduleRead expression tiers.length schedule.budget schedule.hasOpenEnd)
    return schedule

def checked : Makers :=
  ⟨Tier.ofInts, Schedule.ofTiers⟩

end Makers

def Tier.ofTerm (term : Text) : Except Fault Tier :=
  Makers.checked.ofTerm term

namespace Schedule

def readTerms (policy : Policy) (expression : Text) (terms : List Text) : Outcome (List Tier) :=
  Makers.checked.readTerms policy expression terms

def read (policy : Policy) (expression : Text) : Outcome Schedule :=
  Makers.checked.read policy expression

end Schedule
end RetrySchedule
