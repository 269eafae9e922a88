import RetrySchedule.Loose.Tier
import RetrySchedule.Selection

namespace RetrySchedule.Loose

structure Schedule where
  tiers : List Tier
  tiers_ne_nil : tiers ≠ []
  bounded_before_last : ∀ tier ∈ tiers.dropLast, tier.extent = .bounded

namespace Schedule

def ofTiers (tiers : List Tier) : Except Fault Schedule :=
  if empty : tiers = [] then .error .noTiers
  else if closed : ∀ tier ∈ tiers.dropLast, tier.extent = .bounded then
    .ok ⟨tiers, empty, closed⟩
  else .error (RetrySchedule.Schedule.blameOpen Tier.isOpen Tier.write tiers)

def ofSchedule (s : RetrySchedule.Schedule) : Schedule where
  tiers := s.tiers.map Tier.ofTier
  tiers_ne_nil := by simpa using s.tiers_ne_nil
  bounded_before_last := by
    intro tier member
    rw [← List.map_dropLast, List.mem_map] at member
    obtain ⟨proper, held, rfl⟩ := member
    exact s.bounded_before_last proper held

def toSchedule? (s : Schedule) : Option RetrySchedule.Schedule := do
  let tiers ← s.tiers.mapM Tier.toTier?
  (RetrySchedule.Schedule.ofTiers tiers).toOption

def head (s : Schedule) : Tier :=
  s.tiers.head s.tiers_ne_nil

def last (s : Schedule) : Tier :=
  s.tiers.getLast s.tiers_ne_nil

def hasOpenEnd (s : Schedule) : Bool :=
  s.last.isOpen

def inRange (result? : Option Number) : Except Fault Number :=
  match result? with
  | some x => .ok x
  | none => .error .realRange

def budget (s : Schedule) : Except Fault Number :=
  s.tiers.foldlM (fun total tier => inRange (total.add? tier.count)) (.int 0)

def write (s : Schedule) : Except NumeralFault Text := do
  return [','].intercalate (← s.tiers.mapM Tier.write)

def inspect (s : Schedule) : Except NumeralFault Text := do
  return "TierSequence(".toList ++ Argument.listed '[' ']' (← s.tiers.mapM Tier.inspect) ++ [')']

def sameTiers : List Tier → List Tier → Bool
  | [], [] => true
  | a :: as, b :: bs => a.same b && sameTiers as bs
  | _, _ => false

def same (s t : Schedule) : Bool :=
  sameTiers s.tiers t.tiers

def holds (s : Schedule) (tier : Tier) : Bool :=
  s.tiers.any tier.same

def locate : List Tier → Number → Except Fault (Option (Nat × Tier))
  | [], _ => .ok none
  | tier :: rest, attempt => do
      let remaining ← inRange (attempt.sub? tier.count)
      if remaining.le (.int 0) then return some (0, tier)
      return (← locate rest remaining).map fun (position, found) => (position + 1, found)

/-- The counts are subtracted from the attempt one by one, each time with the rounding that the
kinds ask for, and the first tier that leaves nothing serves it. Because sums and differences round
differently, no tier may be found for an attempt within the budget; it is then treated as one past
it. -/
def searchTierFor (s : Schedule) (attempt : Int) : Outcome Tier := do
  RetrySchedule.Schedule.checkAttempt attempt
  let budget ← s.budget
  let found? ← if (Number.int attempt).le budget then locate s.tiers (.int attempt) else pure none
  match found? with
  | some (position, tier) =>
      Outcome.leave (.tierServes attempt position (← Fault.ofNumeral tier.write))
      return tier
  | none =>
      if s.hasOpenEnd then
        Outcome.leave (.lastServes attempt budget (← Fault.ofNumeral s.last.write))
        return s.last
      else Outcome.fail (RetrySchedule.Schedule.exhaustedFault budget attempt)

def tierFor (s : Schedule) (attempt : Int) : Outcome Tier :=
  match s.toSchedule? with
  | some proper => Tier.ofTier <$> proper.tierFor attempt
  | none => s.searchTierFor attempt

def waitFor (s : Schedule) (attempt : Int) : Outcome Wait :=
  Tier.wait <$> s.tierFor attempt

end Schedule
end RetrySchedule.Loose
