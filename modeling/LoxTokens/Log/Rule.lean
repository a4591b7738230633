import LoxTokens.Log.Event
import LoxTokens.Log.Value
import LoxTokens.Text.Alphanumeric
import LoxTokens.Text.Blank
import LoxTokens.Text.Pieces
import LoxTokens.Text.Slice

/-!
# Rules for a log

A rule sets a threshold for the events that it is about.  It may ask that their
target begins with a given scope and that they have a given field.  It may also
ask for a span around them, or for a value that fits, which only the fields of
a span are looked at for; a scan opens no spans, so such a rule is about none
of its events.

As text a rule is a threshold alone, or else up to three parts in this order: a
scope, in brackets the name of a span with a field and its value in braces, and
behind an equals sign a threshold, for want of which everything is shown.

Blanks around a rule are left out where its signs are looked for, the brackets,
the braces and the equals sign.  Its parts, though, are cut out of the text as
it stands, blanks included, at the offsets at which the signs were found.  So
blanks in front shift each part to the left by their bytes, and a cut may then
even go through a character.
-/

namespace LoxTokens.Log

/-- Why a text cannot be taken for a rule. -/
inductive Misreading where
  /-- It is not written as a rule. -/
  | noRule
  /-- One of its parts begins or ends inside a character. -/
  | cutCharacter
  deriving DecidableEq

/-- What a rule asks of the fields: their name, and what the value is to be. -/
structure FieldDemand where
  name : List Char
  value : Option (List Char) := none
  deriving DecidableEq

/-- The field demand that a text writes. -/
def FieldDemand.ofText (text : List Char) : Except Misreading FieldDemand :=
  if text.isEmpty then .error .noRule
  else
    match Text.cut '=' text with
    | (name, none) => .ok { name }
    | (name, some rest) =>
      let value := (Text.cut '=' rest).1
      if isValue value then .ok { name, value } else .error .noRule

/-- A threshold for the events that meet some demands. -/
structure Rule where
  /-- What the target begins with. -/
  scope : List Char := []
  /-- The name of a span around the event. -/
  span : Option (List Char) := none
  field : Option FieldDemand := none
  threshold : Threshold := some .trace
  deriving DecidableEq

namespace Rule

/-! ### What a rule is about -/

/-- Whether an event of a scan meets the demands of a rule. -/
def isAbout (rule : Rule) (event : Event) : Bool :=
  rule.scope.isPrefixOf target.toList && rule.span.isNone &&
    rule.field.all fun demand =>
      demand.value.isNone && event.fieldNames.contains (String.ofList demand.name)

def fieldName (rule : Rule) : List Char := (rule.field.map FieldDemand.name).getD []

/-- Whether another rule about the same event is at least as special: it has a
longer scope, or with the same scope a field name no earlier in the alphabet,
where no field at all comes first. -/
def yieldsTo (rule other : Rule) : Bool :=
  rule.scope.length < other.scope.length ||
    (rule.scope.length = other.scope.length &&
      !List.lex other.fieldName rule.fieldName (fun a b => a < b))

/-! ### Rules as text -/

/-- Whether a rule may begin with a character: a letter, a number, a hyphen, a
colon, an underscore, or the bracket before a span. -/
def canBegin (c : Char) : Bool :=
  c = '[' || c = '-' || c = ':' || c = '_' || Text.isAlphanumeric c

/-- The part of a text between two offsets. -/
def part (text : List Char) (start stop : Nat) : Except Misreading (List Char) :=
  match Text.slice? text start stop with
  | some part => .ok part
  | none => .error .cutCharacter

/-- The threshold that a text names, where an empty one stands for all. -/
def assigned (text : List Char) : Except Misreading Threshold :=
  if text.isEmpty then .ok (some .trace)
  else
    match Threshold.ofText? text with
    | some threshold => .ok threshold
    | none => .error .noRule

/-- Completes a rule by the threshold behind an equals sign at some offset. -/
def withThreshold (rule : Rule) (text : List Char) (sign : Nat) : Except Misreading Rule := do
  let word ← part text (sign + 1) (Text.bytes text)
  return { rule with threshold := ← assigned word }

/-- Completes a rule by what stands behind a closing bracket at some offset,
where the signs are found in `rest`. -/
def withRest (rule : Rule) (text : List Char) (bracket : Nat) (rest : List Char) :
    Except Misreading Rule :=
  match rest with
  | '=' :: _ => rule.withThreshold text (bracket + 1)
  | _ => if rest.all Text.isBlank then .ok rule else .error .noRule

/-- Completes a rule by what stands behind an opening brace at some offset. -/
def withField (rule : Rule) (text : List Char) (brace : Nat) (rest : List Char) :
    Except Misreading Rule := do
  let (field, rest) := rest.span (· ≠ '\x7d')
  let stop := brace + 1 + Text.bytes field
  match rest with
  | [] => throw .noRule
  | _ :: rest =>
    let field ← FieldDemand.ofText (← part text (brace + 1) stop)
    match rest with
    | ']' :: rest => withRest { rule with field } text (stop + 1) rest
    | _ => throw .noRule

/-- Completes a rule by what stands behind an opening bracket at some offset. -/
def withDemands (rule : Rule) (text : List Char) (bracket : Nat) (rest : List Char) :
    Except Misreading Rule := do
  let (name, rest) := rest.span fun c => c ≠ ']' && c ≠ '\x7b'
  let stop := bracket + 1 + Text.bytes name
  match rest with
  | [] => throw .noRule
  | sign :: rest =>
    let span ← part text (bracket + 1) stop
    if sign = ']' then withRest { rule with span := some span } text stop rest
    else
      let span := if span.isEmpty then none else some span
      withField { rule with span } text stop rest

def ofText (text : List Char) : Except Misreading Rule := do
  let body := text.dropWhile Text.isBlank
  if !body.head?.any canBegin then throw .noRule
  let (word, rest) := body.span fun c => c ≠ '=' && c ≠ '['
  let sign := Text.bytes word
  match rest with
  | [] =>
    match Threshold.ofText? text with
    | some threshold => return { threshold }
    | none => return { scope := text }
  | '[' :: rest =>
    let scope ← if word.isEmpty then pure [] else part text 0 sign
    withDemands { scope } text sign rest
  | _ => withThreshold { scope := ← part text 0 sign } text sign

end Rule

end LoxTokens.Log
