import LoxTokens.Fault
import LoxTokens.Log.Level

/-!
# What a scan tells about itself

A scan tells of every token and of every fault as it meets them, and at the end
how many there were.  Each of these events has a level, a message and some
named fields, and can be written as one entry of a log.
-/

namespace LoxTokens.Log

inductive Event where
  | token (token : Token)
  | fault (fault : Fault)
  /-- The scan is over, with these counts of tokens, the end included, and of
  faults, and this last line. -/
  | finished (tokens faults lines : Nat)

inductive Field where
  | text (value : List Char)
  | count (value : Nat)

def Field.chars : Field → List Char
  | text value => value
  | count value => Nat.toDigits 10 value

/-- The part of the program that events come from. -/
def target : String := "lox::scanner"

namespace Event

/-- Single tokens are the finest detail. -/
def level : Event → Level
  | token _ => .trace
  | fault _ => .debug
  | finished .. => .debug

def message : Event → String
  | token _ => "token"
  | fault f => f.message
  | finished .. => "scan finished"

def fields : Event → List (String × Field)
  | token t => [("token", .text t.chars), ("line", .count t.line)]
  | fault f => [("line", .count f.line)]
  | finished tokens faults lines =>
    [("tokens", .count tokens), ("errors", .count faults), ("lines", .count lines)]

/-- The names of all that an event tells: the message counts as a field too. -/
def fieldNames (event : Event) : List String := "message" :: event.fields.map Prod.fst

end Event

/-- A character of a message as a log shows it.  Characters that could command
a terminal are spelled out: five of the ASCII controls and all those of the
second control set. -/
def showSafely (c : Char) : List Char :=
  if c = '\x1b' then "\\x1b".toList
  else if c = '\x07' then "\\x07".toList
  else if c = '\x08' then "\\x08".toList
  else if c = '\x0c' then "\\x0c".toList
  else if c = '\x7f' then "\\x7f".toList
  else if 0x80 ≤ c.toNat ∧ c.toNat ≤ 0x9f then
    "\\u".toList ++ '{' :: Nat.toDigits 16 c.toNat ++ ['}']
  else [c]

/-- The log entry of an event: level, origin, message and fields. -/
def Event.entry (event : Event) : List Char :=
  event.level.name.toList ++ ' ' :: target.toList ++ ": ".toList ++
    event.message.toList.flatMap showSafely ++
    event.fields.flatMap fun (name, value) => ' ' :: name.toList ++ '=' :: value.chars

/-- What an observer of a scan gets to know: an event, or a fault handed over
to be reported. -/
inductive Signal where
  | event (event : Event)
  | report (fault : Fault)

end LoxTokens.Log
