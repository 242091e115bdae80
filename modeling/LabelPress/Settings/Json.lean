import LabelPress.Number.Reading
import LabelPress.Settings.Value
import LabelPress.Text.Hex

/-!
# Settings from JSON

The grammar is that of JSON with the words NaN, Infinity and -Infinity for numbers. A text that
does not follow it is refused at the offset of the first character that cannot stand there. A key
that is given again keeps its place and takes the later value.
-/

namespace LabelPress.Settings.Json

open LabelPress.Number

/-- The kinds of values that hold others. -/
inductive Nested
  | list
  | object
deriving DecidableEq, Repr

/-- Why a text gives no value. -/
inductive Failure
  /-- No value can have this character here. -/
  | malformed (offset : Nat)
  /-- An integer of more digits than may be read. -/
  | numeralTooLong (digits : Nat)
  /-- A list or an object in too many others. -/
  | tooDeep (kind : Nested)
deriving DecidableEq, Repr

/-- A reader's outcome: what it read and what follows, or a failure whose offset is counted from
the end of the text. -/
abbrev Outcome (α : Type) := Except Failure (α × List Char)

/-- Whether JSON skips the character between tokens. -/
def isSpace (c : Char) : Bool := c = ' ' || c = '\t' || c = '\n' || c = '\r'

/-- The text without the space at its start. -/
def skip (cs : List Char) : List Char := cs.dropWhile isSpace

/-- A failure at the start of what is left. -/
def stuckAt {α : Type} (cs : List Char) : Except Failure α := .error (.malformed cs.length)

/-! ## Strings -/

/-- Where a reader of a string stands: between characters, after a backslash, or within the four
digits of an escape, with their value so far and the text from the escape's letter on. -/
inductive StringState
  | between
  | escape
  | digits (left value : Nat) (start : List Char)
deriving DecidableEq, Repr

/-- The character that a letter after a backslash stands for. -/
def escaped? : Char → Option Char
  | '"' => some '"'
  | '\\' => some '\\'
  | '/' => some '/'
  | 'b' => some '\x08'
  | 'f' => some '\x0c'
  | 'n' => some '\n'
  | 'r' => some '\r'
  | 't' => some '\t'
  | _ => none

/-- The code units of a string up to its closing quote, and what follows. `opening` is the text
from the opening quote on. -/
def stringUnits (opening : List Char) : StringState → List Char → Outcome (List Nat)
  | .digits _ _ start, [] => stuckAt start
  | _, [] => stuckAt opening
  | .between, c :: rest =>
    if c = '"' then .ok ([], rest)
    else if c = '\\' then stringUnits opening .escape rest
    else if c.toNat < 0x20 then stuckAt (c :: rest)
    else (stringUnits opening .between rest).map fun r => (c.toNat :: r.1, r.2)
  | .escape, c :: rest =>
    if c = 'u' then stringUnits opening (.digits 4 0 (c :: rest)) rest
    else match escaped? c with
      | some e => (stringUnits opening .between rest).map fun r => (e.toNat :: r.1, r.2)
      | none => stuckAt ('\\' :: c :: rest)
  | .digits left value start, c :: rest =>
    match Text.hexValue? c with
    | none => stuckAt start
    | some v =>
      let value := value * 16 + v
      if 1 < left then stringUnits opening (.digits (left - 1) value start) rest
      else if rest.isEmpty then stuckAt start
      else (stringUnits opening .between rest).map fun r => (value :: r.1, r.2)

/-- The code points of code units: the two units of a surrogate pair are one character. -/
def joinUnits : List Nat → Text.CodePoints
  | [] => []
  | u :: rest =>
    match rest with
    | v :: rest' =>
      if (0xD800 ≤ u ∧ u < 0xDC00) ∧ 0xDC00 ≤ v ∧ v < 0xE000 then
        .char (Char.ofNat (0x10000 + (u - 0xD800) * 0x400 + (v - 0xDC00))) :: joinUnits rest'
      else .ofValue u :: joinUnits (v :: rest')
    | [] => [.ofValue u]

/-- A string after its opening quote. -/
def string (cs : List Char) : Outcome Text.CodePoints :=
  (stringUnits ('"' :: cs) .between cs).map fun r => (joinUnits r.1, r.2)

/-! ## Numbers -/

/-- The digits before the point: a zero alone, or a run that does not start with one. -/
def wholeDigits (cs : List Char) : List Char :=
  match cs with
  | '0' :: _ => ['0']
  | _ => cs.takeWhile Char.isDigit

/-- The digits after a point, if there are any. -/
def places (cs : List Char) : List Char :=
  match cs with
  | '.' :: rest => rest.takeWhile Char.isDigit
  | _ => []

/-- The exponent after a mantissa, if its letter, sign and digits are all there, and what
follows. -/
def exponentPart? (cs : List Char) : Option (Int × List Char) :=
  match cs with
  | c :: rest =>
    if c = 'e' ∨ c = 'E' then
      let (negative, rest) := splitSign rest
      match rest.takeWhile Char.isDigit with
      | [] => none
      | digits =>
        let n : Int := numeralValue digits
        some (if negative then -n else n, rest.dropWhile Char.isDigit)
    else none
  | [] => none

/-- A number: an integer if it has neither point nor exponent. -/
def number (cs : List Char) : Outcome Value :=
  let (negative, unsigned) := match cs with
    | '-' :: rest => (true, rest)
    | _ => (false, cs)
  let whole := wholeDigits unsigned
  if whole.isEmpty then stuckAt cs
  else
    let rest := unsigned.drop whole.length
    let fraction := places rest
    let rest := if fraction.isEmpty then rest else rest.drop (fraction.length + 1)
    match exponentPart? rest with
    | some (exponent, rest) =>
      .ok (.float (.ofDecimal negative (numeralValue (whole ++ fraction))
        (exponent - fraction.length)), rest)
    | none =>
      if !fraction.isEmpty then
        .ok (.float (.ofDecimal negative (numeralValue (whole ++ fraction)) (-fraction.length)),
          rest)
      else if Fault.digitLimit < whole.length then .error (.numeralTooLong whole.length)
      else
        let n : Int := numeralValue whole
        .ok (.int (if negative then -n else n), rest)

/-! ## Values -/

/-- The words that are values. -/
def constants : List (String × Value) :=
  [("null", .null), ("true", .bool true), ("false", .bool false), ("NaN", .float .nan),
   ("Infinity", .float (.infinite false)), ("-Infinity", .float (.infinite true))]

/-- A word that is a value, and what follows. -/
def constant? (cs : List Char) : Option (Value × List Char) :=
  constants.findSome? fun c => (c.1.toList.isPrefixOf? cs).map fun rest => (c.2, rest)

/-- How many lists and objects may lie in each other. -/
def depthLimit : Nat := 990

mutual

/-- A value, in which at most `left` lists and objects may lie in each other. Each step into a
value, an item or a member takes one unit of fuel. -/
def value (fuel left : Nat) (cs : List Char) : Outcome Value :=
  match fuel, cs with
  | 0, _ => stuckAt cs
  | _, '"' :: rest => (string rest).map fun r => (.text r.1, r.2)
  | fuel + 1, '[' :: rest =>
    match left, skip rest with
    | 0, _ => .error (.tooDeep .list)
    | _, ']' :: after => .ok (.list [], after)
    | left + 1, rest => (items fuel left rest).map fun r => (.list r.1, r.2)
  | fuel + 1, '\x7b' :: rest =>
    match left, skip rest with
    | 0, _ => .error (.tooDeep .object)
    | _, '\x7d' :: after => .ok (.object [], after)
    | left + 1, rest => (members fuel left [] rest).map fun r => (.object r.1, r.2)
  | _, _ =>
    match constant? cs with
    | some r => .ok r
    | none => number cs

/-- The items of a list from one of them up to the closing bracket. -/
def items (fuel left : Nat) (cs : List Char) : Except Failure (List Value × List Char) :=
  match fuel with
  | 0 => stuckAt cs
  | fuel + 1 => do
    let (v, rest) ← value fuel left cs
    match skip rest with
    | ']' :: after => .ok ([v], after)
    | ',' :: after => (items fuel left (skip after)).map fun r => (v :: r.1, r.2)
    | rest => stuckAt rest

/-- The members of an object from one of them up to the closing brace, written over those
before. -/
def members (fuel left : Nat) (entries : Entries Text.CodePoints Value) (cs : List Char) :
    Except Failure (Entries Text.CodePoints Value × List Char) :=
  match fuel, cs with
  | fuel + 1, '"' :: rest => do
    let (key, rest) ← string rest
    match skip rest with
    | ':' :: after =>
      let (v, rest) ← value fuel left (skip after)
      let entries := entries.put key v
      match skip rest with
      | '\x7d' :: after => .ok (entries, after)
      | ',' :: after => members fuel left entries (skip after)
      | rest => stuckAt rest
    | rest => stuckAt rest
  | _, _ => stuckAt cs

end

/-- The value that a text spells, with nothing but space around it. -/
def read (text : List Char) : Except Failure Value :=
  let outcome : Except Failure Value := do
    let (v, rest) ← value (2 * text.length + 2) depthLimit (skip text)
    match skip rest with
    | [] => .ok v
    | rest => stuckAt rest
  match outcome with
  | .error (.malformed left) => .error (.malformed (text.length - left))
  | other => other

/-- The line and the column of an offset, both counted from one. -/
def position (text : List Char) (offset : Nat) : Nat × Nat :=
  let before := text.take offset
  (before.count '\n' + 1, (before.reverse.takeWhile (· != '\n')).length + 1)

end LabelPress.Settings.Json
