import RetrySchedule.Fault

namespace RetrySchedule

inductive Level
  | debug
  | warning
  deriving DecidableEq, Repr

inductive Activity
  | reading
  | selection
  | backoff
  deriving DecidableEq, Repr

inductive Note
  | scheduleRead (expression : Text) (tiers budget : Nat) (openEnd : Bool)
  | markerIgnored (term expression : Text)
  | tierServes (attempt : Int) (position : Nat) (tier : Text)
  | lastServes (attempt : Int) (budget : Number) (tier : Text)
  | capped (wait : Binary64) (cap : Number)
  deriving DecidableEq, Repr

namespace Note

def level : Note → Level
  | markerIgnored _ _ => .warning
  | _ => .debug

def activity : Note → Activity
  | scheduleRead _ _ _ _ | markerIgnored _ _ => .reading
  | tierServes _ _ _ | lastServes _ _ _ => .selection
  | capped _ _ => .backoff

/-- A number with two places. Integers are made doubles first, which fails for very large ones. -/
def twoPlaces (x : Number) : Except Fault Text :=
  match x.toReal? with
  | some rounded => .ok rounded.twoPlaces
  | none => .error .realRange

def number (x : Number) : Except Fault String :=
  (Fault.ofNumeral x.write).map String.ofList

def message : Note → Except Fault String
  | scheduleRead expression tiers budget openEnd => do
      let budget ← number (.int budget)
      let openEnd := String.ofList (Number.flag openEnd).text
      return "Parsed expression " ++ String.ofList (Text.quoted expression) ++
        s!" into {tiers} tier(s) (budget={budget}, unbounded_tail={openEnd})"
  | markerIgnored term expression =>
      return "Ignoring the unbounded marker of " ++ String.ofList (Text.quoted term) ++
        " because it is not the last term of " ++ String.ofList (Text.quoted expression)
  | tierServes attempt position tier => do
      let attempt ← number (.int attempt)
      return s!"Invocation {attempt} falls in tier {position} (" ++ String.ofList tier ++ ")"
  | lastServes attempt budget tier => do
      let attempt ← number (.int attempt)
      let budget ← number budget
      return s!"Invocation {attempt} exceeds the budget of {budget}, " ++
        "using the unbounded tail (" ++ String.ofList tier ++ ")"
  | capped wait cap => do
      let cap := String.ofList (← twoPlaces cap)
      return "Capping backoff delay from " ++ String.ofList wait.twoPlaces ++
        s!"s to {cap}s (max_delay={cap}s)"

end Note

structure Entry where
  note : Note
  message : String

/-- A result, and the notes left on the way to it, the oldest first. The text of a note is made when
the note is left, and a note that cannot be put into words fails the computation that leaves it. -/
structure Outcome (α : Type) where
  journal : List Entry
  result : Except Fault α

namespace Outcome

def ofResult {α : Type} (result : Except Fault α) : Outcome α :=
  ⟨[], result⟩

/-- A failed first part keeps its notes and leaves out the second. -/
def andThen {α β : Type} (first : Outcome α) (next : α → Outcome β) : Outcome β :=
  match first.result with
  | .ok value =>
      let second := next value
      ⟨first.journal ++ second.journal, second.result⟩
  | .error fault => ⟨first.journal, .error fault⟩

instance : Monad Outcome where
  pure value := ofResult (.ok value)
  bind := andThen

instance : MonadLift (Except Fault) Outcome where
  monadLift := ofResult

def fail {α : Type} (fault : Fault) : Outcome α :=
  ofResult (.error fault)

def leave (note : Note) : Outcome Unit :=
  match note.message with
  | .ok message => ⟨[⟨note, message⟩], .ok ()⟩
  | .error fault => fail fault

end Outcome
end RetrySchedule
