/-
  MessageCatalog.Format.Template
  ────────────────────────────────
  **TEMPLATES AND THEIR RENDERING.**

  A template is text with conversions in it:

      conversion  ::=  % [number $] {flag} [width] [. [precision]] letter
      flag        ::=  - | + | 0 | space | ' character

  and `%%` for a percent sign.  It is read into segments, up to the first place
  at which it is malformed, and the segments are rendered one after the other;
  so the fault that is reported is the first one in the text, be it in the
  template or in the arguments.  A conversion without a number takes the next
  argument, one with a number leaves that count alone.
-/
import MessageCatalog.Format.Argument

namespace MessageCatalog.Format

open MessageCatalog.Text MessageCatalog.Decimal

/-! ## §1. Faults. -/

/-- The largest width and precision. -/
def maxFieldWidth : Nat := 4096

/-- Why a template cannot be filled in. -/
inductive Fault where
  /-- No argument with this number, counted from 1. -/
  | missingArgument (position : Nat)
  | unknownConversion (letter : Char)
  /-- The template ends inside a conversion. -/
  | incomplete
  /-- Argument number 0. -/
  | zeroArgumentNumber
  | widthTooLarge (max : Nat)
  deriving DecidableEq, Repr

/-- What is reported about a fault. -/
def Fault.message : Fault → String
  | .missingArgument position =>
      "too few arguments: argument " ++ toString position ++ " is missing"
  | .unknownConversion letter => "unknown conversion '%" ++ String.singleton letter ++ "'"
  | .incomplete => "incomplete conversion at the end of the template"
  | .zeroArgumentNumber => "argument numbers start at 1"
  | .widthTooLarge max => "field width exceeds " ++ toString max

/-! ## §2. Segments. -/

/-- A flag of a conversion. -/
inductive Flag where
  /-- `-`: the field is filled up on the right. -/
  | left
  /-- `+`: a number that is not negative gets a sign. -/
  | plus
  /-- `0`, a space, or a quote and a character: what the field is filled up with. -/
  | fill (c : Char)
  deriving DecidableEq, Repr

/-- A conversion. -/
structure Conversion where
  /-- The number of the argument, counted from 1. -/
  number : Option Nat
  flags : List Flag
  width : Nat
  precision : Option Nat
  letter : Char
  deriving DecidableEq, Repr

/-- A part of a template. -/
inductive Segment where
  | literal (c : Char)
  /-- `%%` -/
  | percent
  | conversion (c : Conversion)
  deriving DecidableEq, Repr

/-! ## §3. Reading. -/

/-- A run of digits at the start of the text, and the text after it. -/
def takeDigits (cs : List Char) : List Char × List Char :=
  (cs.takeWhile Char.isDigit, cs.dropWhile Char.isDigit)

/-- The argument number in front of a `$`. -/
def readNumber (cs : List Char) : Except Fault (Option Nat × List Char) :=
  match takeDigits cs with
  | (d :: ds, '$' :: rest) =>
      if digitsValue (d :: ds) = 0 then .error .zeroArgumentNumber
      else .ok (some (min (digitsValue (d :: ds)) maxWord), rest)
  | _ => .ok (none, cs)

/-- The flags at the start of the text. -/
def readFlags : List Char → Except Fault (List Flag × List Char)
  | '\'' :: c :: cs => do
      let (flags, rest) ← readFlags cs
      .ok (.fill c :: flags, rest)
  | ['\''] => .error .incomplete
  | '-' :: cs => do
      let (flags, rest) ← readFlags cs
      .ok (.left :: flags, rest)
  | '+' :: cs => do
      let (flags, rest) ← readFlags cs
      .ok (.plus :: flags, rest)
  | '0' :: cs => do
      let (flags, rest) ← readFlags cs
      .ok (.fill '0' :: flags, rest)
  | ' ' :: cs => do
      let (flags, rest) ← readFlags cs
      .ok (.fill ' ' :: flags, rest)
  | cs => .ok ([], cs)

/-- The size that a run of digits spells, 0 for an empty one. -/
def readSize (cs : List Char) : Except Fault (Nat × List Char) :=
  let (ds, rest) := takeDigits cs
  if digitsValue ds ≤ maxFieldWidth then .ok (digitsValue ds, rest)
  else .error (.widthTooLarge maxFieldWidth)

/-- A point and the size after it. -/
def readPrecision : List Char → Except Fault (Option Nat × List Char)
  | '.' :: cs => do
      let (size, rest) ← readSize cs
      .ok (some size, rest)
  | cs => .ok (none, cs)

/-- The conversion that follows a percent sign. -/
def readConversion (cs : List Char) : Except Fault (Conversion × List Char) := do
  let (number, cs) ← readNumber cs
  let (flags, cs) ← readFlags cs
  let (width, cs) ← readSize cs
  let (precision, cs) ← readPrecision cs
  match cs with
  | [] => .error .incomplete
  | letter :: rest => .ok (⟨number, flags, width, precision, letter⟩, rest)

/-- A template that has been read: its segments, and the fault that ended the
reading, if there was one. -/
abbrev Template := List Segment × Option Fault

/-- One more segment in front. -/
def Template.push (segment : Segment) (template : Template) : Template :=
  (segment :: template.1, template.2)

/-- Reads a template whose first `skip` characters belong to a segment already
read. -/
def Template.readFrom : (skip : Nat) → List Char → Template
  | _, [] => ([], none)
  | skip + 1, _ :: cs => Template.readFrom skip cs
  | 0, c :: cs =>
      if c ≠ '%' then (Template.readFrom 0 cs).push (.literal c)
      else if cs.head? = some '%' then (Template.readFrom 1 cs).push .percent
      else
        match readConversion cs with
        | .error fault => ([], some fault)
        | .ok (conversion, rest) =>
            (Template.readFrom (cs.length - rest.length) cs).push (.conversion conversion)

/-- Reads a template. -/
def Template.read (cs : List Char) : Template :=
  Template.readFrom 0 cs

/-! ## §4. One conversion. -/

/-- Whether the field is filled up on the right. -/
def Conversion.isLeft (c : Conversion) : Bool :=
  c.flags.contains .left

/-- Whether a number that is not negative gets a sign. -/
def Conversion.hasPlus (c : Conversion) : Bool :=
  c.flags.contains .plus

/-- The character that the last flag of its kind fills the field with. -/
def Conversion.fill (c : Conversion) : Char :=
  (c.flags.reverse.findSome? fun
    | .fill ch => some ch
    | _ => none).getD ' '

/-- Whether the conversion writes a decimal number, with its sign in front. -/
def Conversion.isNumeric (c : Conversion) : Bool :=
  "diufFeE".toList.contains c.letter

/-- The text of a number, with a plus sign if the conversion asks for one. -/
def Conversion.withSign (c : Conversion) (negative : Bool) (text : List Char) : List Char :=
  if c.hasPlus && !negative then '+' :: text else text

/-- A plus sign in front of an exponent that has no sign. -/
def signExponent : List Char → List Char
  | [] => []
  | 'e' :: '-' :: cs => 'e' :: '-' :: cs
  | 'e' :: cs => 'e' :: '+' :: cs
  | c :: cs => c :: signExponent cs

/-- A character in upper case, as far as it is a letter of ASCII. -/
def upper (cs : List Char) : List Char :=
  cs.map Char.toUpper

/-- The two's complement of 64 bits, in the given base. -/
def inBase (base : Nat) (v : Int64) : List Char :=
  Nat.toDigits base v.toUInt64.toNat

/-- The character with the given number, if there is one. -/
def characterOf (v : Int64) : List Char :=
  if 0 ≤ v.toInt ∧ v.toInt.toNat.isValidChar then [Char.ofNat v.toInt.toNat] else []

/-- The digits after the point when no precision is given. -/
def defaultPrecision : Nat := 6

/-- The text of an argument, before the field is filled up. -/
def Conversion.convert (c : Conversion) (arg : Argument) : Except Fault (List Char) :=
  let places := c.precision.getD defaultPrecision
  let exponential (x : Binary64) : List Char := signExponent (x.toScientific places)
  match c.letter with
  | 's' =>
      match c.precision with
      | some limit => .ok (arg.asText.take limit)
      | none => .ok arg.asText
  | 'd' | 'i' => .ok (c.withSign (decide (arg.asInteger < 0)) (decimal arg.asInteger.toInt))
  | 'u' => .ok (inBase 10 arg.asInteger)
  | 'f' | 'F' => .ok (c.withSign arg.asReal.isBelowZero (arg.asReal.toFixed places))
  | 'e' => .ok (c.withSign arg.asReal.isBelowZero (exponential arg.asReal))
  | 'E' => .ok (c.withSign arg.asReal.isBelowZero (upper (exponential arg.asReal)))
  | 'x' => .ok (inBase 16 arg.asInteger)
  | 'X' => .ok (upper (inBase 16 arg.asInteger))
  | 'o' => .ok (inBase 8 arg.asInteger)
  | 'b' => .ok (inBase 2 arg.asInteger)
  | 'c' => .ok (characterOf arg.asInteger)
  | other => .error (.unknownConversion other)

/-- The text filled up to the width of the field.  Zeros stand between the sign
and the digits of a decimal number, and never after it. -/
def Conversion.pad (c : Conversion) (body : List Char) : List Char :=
  let missing := c.width - body.length
  let zeros := c.fill = '0' && c.isNumeric
  if c.isLeft then
    body ++ List.replicate missing (if zeros then ' ' else c.fill)
  else
    match zeros, body with
    | true, '-' :: ds => '-' :: (List.replicate missing '0' ++ ds)
    | true, '+' :: ds => '+' :: (List.replicate missing '0' ++ ds)
    | _, body => List.replicate missing c.fill ++ body

/-! ## §5. Rendering. -/

/-- The text of the segments, when `used` arguments have been taken in order. -/
def render (args : List Argument) : (used : Nat) → List Segment → Except Fault (List Char)
  | _, [] => .ok []
  | used, .literal c :: rest => do
      let text ← render args used rest
      .ok (c :: text)
  | used, .percent :: rest => do
      let text ← render args used rest
      .ok ('%' :: text)
  | used, .conversion c :: rest => do
      let position := c.number.getD (used + 1)
      match args[position - 1]? with
      | none => .error (.missingArgument position)
      | some arg =>
          let body ← c.convert arg
          let text ← render args (if c.number.isSome then used else used + 1) rest
          .ok (c.pad body ++ text)

/-- The text of a template: that of its segments, unless one of them or else the
template itself is at fault. -/
def Template.render (args : List Argument) (template : Template) : Except Fault (List Char) := do
  let text ← Format.render args 0 template.1
  match template.2 with
  | none => .ok text
  | some fault => .error fault

/-- Fills the arguments into a template. -/
def sprintf (template : String) (args : List Argument) : Except Fault String :=
  ((Template.read template.toList).render args).map String.ofList

example : sprintf "%2$s=%05d" [.integer (-42), .text "x"] = .ok "x=-0042" := by rfl

end MessageCatalog.Format
