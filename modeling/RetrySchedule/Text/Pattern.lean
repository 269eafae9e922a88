import RetrySchedule.Text.Blank

namespace RetrySchedule.Text

/-- The form of a text. Only single characters are repeated. -/
inductive Pattern
  | words (options : List Text)
  | one (allowed : Char → Bool)
  | many (allowed : Char → Bool)
  | choice (first second : Pattern)
  | seq (first second : Pattern)

/-- What is left of a text after some number of allowed characters. -/
def runRests (allowed : Char → Bool) : Text → List Text
  | [] => [[]]
  | c :: rest => (c :: rest) :: if allowed c then runRests allowed rest else []

namespace Pattern

def rests : Pattern → Text → List Text
  | words options, t =>
      options.filterMap fun word => if word.isPrefixOf t then some (t.drop word.length) else none
  | one allowed, t =>
      match t with
      | [] => []
      | c :: rest => if allowed c then [rest] else []
  | many allowed, t => runRests allowed t
  | choice first second, t => first.rests t ++ second.rests t
  | seq first second, t => (first.rests t).flatMap second.rests

def covers (p : Pattern) (t : Text) : Bool :=
  (p.rests t).any List.isEmpty

end Pattern
end RetrySchedule.Text
