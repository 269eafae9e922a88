import RetrySchedule.Tier

namespace RetrySchedule

/-- The tiers in the order in which they serve attempts. Only the last one may reach past its own
attempts. -/
structure Schedule where
  tiers : List Tier
  tiers_ne_nil : tiers ≠ []
  bounded_before_last : ∀ tier ∈ tiers.dropLast, tier.extent = .bounded
  deriving DecidableEq

namespace Schedule

/-- Blames the first open tier of a list, which others follow. -/
def blameOpen {α : Type} (isOpen : α → Bool) (write : α → Except NumeralFault Text)
    (tiers : List α) : Fault :=
  let position := tiers.findIdx isOpen
  match tiers[position]? with
  | some tier =>
      .showing (write tier) fun written =>
        .openBeforeEnd position written (tiers.length - position - 1)
  | none => .noTiers

def ofTiers (tiers : List Tier) : Except Fault Schedule :=
  if empty : tiers = [] then .error .noTiers
  else if closed : ∀ tier ∈ tiers.dropLast, tier.extent = .bounded then
    .ok ⟨tiers, empty, closed⟩
  else .error (blameOpen Tier.isOpen Tier.write tiers)

def head (s : Schedule) : Tier :=
  s.tiers.head s.tiers_ne_nil

def last (s : Schedule) : Tier :=
  s.tiers.getLast s.tiers_ne_nil

/-- The number of attempts that the counts of all tiers cover, the last one included. -/
def budget (s : Schedule) : Nat :=
  s.tiers.foldr (fun tier later => tier.count + later) 0

def hasOpenEnd (s : Schedule) : Bool :=
  s.last.isOpen

def text (s : Schedule) : Text :=
  [','].intercalate (s.tiers.map Tier.text)

def write (s : Schedule) : Except NumeralFault Text :=
  if s.tiers.all Tier.fits then .ok s.text else .error .tooLongToWrite

end Schedule
end RetrySchedule
