import RetrySchedule.Number

namespace RetrySchedule

/-- What callers may pass where a number, a flag or a text is meant. What is refused, and with which
words, depends on the kind that was passed. -/
inductive Argument
  | none
  | number (x : Number)
  | text (t : Text)
  | list (items : List Argument)
  | table (entries : List (Text × Argument))
  deriving Inhabited

namespace Argument

def kind : Argument → String
  | none => "NoneType"
  | number x => x.kind
  | text _ => "str"
  | list _ => "list"
  | table _ => "dict"

/-- Whether an argument is empty or zero, and so counts as absent. -/
def isVoid : Argument → Bool
  | none => true
  | number x => x.eq (.int 0)
  | text t => t.isEmpty
  | list items => items.isEmpty
  | table entries => entries.isEmpty

def number? : Argument → Option Number
  | number x => some x
  | _ => Option.none

/-- Lists and tables can be changed, so nothing that holds one is given a hash. -/
def hashable : Argument → Bool
  | list _ | table _ => false
  | _ => true

def listed (opening closing : Char) (items : List Text) : Text :=
  opening :: ([',', ' '].intercalate items ++ [closing])

mutual

def inspect : Argument → Except NumeralFault Text
  | none => .ok "None".toList
  | number x => x.write
  | text t => .ok (Text.quoted t)
  | list items => (inspectAll items).map (listed '[' ']')
  | table entries => (inspectEntries entries).map (listed '\x7b' '\x7d')

def inspectAll : List Argument → Except NumeralFault (List Text)
  | [] => .ok []
  | item :: rest => do
      let first ← inspect item
      let others ← inspectAll rest
      return first :: others

def inspectEntries : List (Text × Argument) → Except NumeralFault (List Text)
  | [] => .ok []
  | (key, item) :: rest => do
      let first ← inspect item
      let others ← inspectEntries rest
      return (Text.quoted key ++ ':' :: ' ' :: first) :: others

end

/-- An argument on its own: like `inspect`, but a text stands without quotes. -/
def display : Argument → Except NumeralFault Text
  | text t => .ok t
  | other => other.inspect

mutual

/-- Equality of arguments; numbers are compared by value, whatever their kind. -/
def same : Argument → Argument → Bool
  | none, none => true
  | number x, number y => x.eq y
  | text s, text t => s == t
  | list xs, list ys => sameAll xs ys
  | table xs, table ys => sameEntries xs ys
  | _, _ => false

def sameAll : List Argument → List Argument → Bool
  | [], [] => true
  | x :: xs, y :: ys => same x y && sameAll xs ys
  | _, _ => false

def sameEntries : List (Text × Argument) → List (Text × Argument) → Bool
  | [], [] => true
  | (k, x) :: xs, (l, y) :: ys => k == l && same x y && sameEntries xs ys
  | _, _ => false

end

end Argument
end RetrySchedule
