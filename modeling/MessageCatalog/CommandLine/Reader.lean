/-
  MessageCatalog.CommandLine.Reader
  ────────────────────────────────
  **READING ONE LEVEL OF A COMMAND LINE.**

  The words are read from the left.  Values are looked at late: those of an
  option or of a place are collected, and only settled when the next option or
  place begins or the words end.  So of two faults the one that is reported is
  that of the earlier option, except that a name nobody knows is reported at
  once.
-/
import MessageCatalog.CommandLine.Grammar

namespace MessageCatalog.CommandLine

/-! ## §1. What has been read. -/

/-- The values that are being collected for an option or a place. -/
structure Collected where
  name : String
  kind : ValueKind
  repeated : Bool
  values : List String
  deriving DecidableEq, Repr

/-- What the words read so far say. -/
structure Progress where
  /-- The settled values of the options and places named. -/
  given : OrderedMap String (List String) := .empty
  collected : Option Collected := none
  /-- Whether the option that is collected for has no value yet. -/
  expecting : Bool := false
  /-- How many places are full. -/
  filled : Nat := 0
  /-- Whether no word counts as an option any more. -/
  literal : Bool := false

/-- The values settled under a name. -/
def Progress.valuesOf (p : Progress) (name : String) : List String :=
  (p.given.get? name).getD []

/-- Whether something is settled under a name. -/
def Progress.has (p : Progress) (name : String) : Bool :=
  p.given.contains name

/-- Settles values under a name, which only a repeated place can do twice. -/
def Progress.note (p : Progress) (c : Collected) : Except UsageError Progress := do
  if p.has c.name && !c.repeated then .error .repetition
  c.values.forM c.kind.check
  .ok { p with given := p.given.insert c.name (p.valuesOf c.name ++ c.values) }

/-- Settles the values that were collected. -/
def Progress.settle (p : Progress) : Except UsageError Progress :=
  match p.collected with
  | none => .ok p
  | some c =>
      if c.values.isEmpty then .error .missingValue
      else Progress.note { p with collected := none, expecting := false } c

/-! ## §2. Options. -/

namespace Scope

/-- The option with a name. -/
def byName? (s : Scope) (name : String) : Option Named :=
  s.named.find? (·.long == name)

/-- The option with a letter. -/
def byLetter? (s : Scope) (letter : Char) : Option Named :=
  s.named.find? (·.short == some letter)

/-- Whether the next place takes words that look like options. -/
def nextIsRaw (s : Scope) (p : Progress) : Bool :=
  match s.places[p.filled]? with
  | some place => place.raw
  | none => false

/-- An option without a value. -/
def flag (p : Progress) (o : Named) : Except UsageError Progress := do
  let p ← p.settle
  match o.effect with
  | .help => .error .helpWanted
  | .version => .error .versionWanted
  | _ => p.note ⟨o.long, .text, false, []⟩

/-- An option, with its value if it stands in the same word. -/
def option (p : Progress) (o : Named) (value? : Option String) : Except UsageError Progress :=
  match o.effect, value? with
  | .value kind, some value => do
      let p ← p.settle
      p.note ⟨o.long, kind, false, [value]⟩
  | .value kind, none => do
      let p ← p.settle
      .ok { p with collected := some ⟨o.long, kind, false, []⟩, expecting := true }
  | _, some _ => .error .unwantedValue
  | _, none => flag p o

/-- The options of several letters, one after the other. -/
def letters (s : Scope) (p : Progress) (cs : List Char) : Except UsageError Progress :=
  cs.foldlM (fun p c =>
    match s.byLetter? c with
    | some o => flag p o
    | none => .error .unknownArgument) p

/-! ## §3. Places. -/

/-- The error for a word that no place is left for. -/
def noPlace (s : Scope) (p : Progress) (word : String) : UsageError :=
  if s.commands.isEmpty || p.literal && s.commands.contains word then .unknownArgument
  else .unknownCommand

/-- A word for the next place. -/
def fill (s : Scope) (p : Progress) (word : String) : Except UsageError Progress :=
  match s.places[p.filled]? with
  | none => .error (s.noPlace p word)
  | some place => do
      let goesOn := match p.collected with
        | some c => c.name == place.name && place.repeated
        | none => false
      let p ← if goesOn then .ok p else p.settle
      let before := match p.collected with
        | some c => c.values
        | none => []
      .ok { p with
        collected := some ⟨place.name, place.kind, place.repeated, before ++ [word]⟩
        literal := p.literal || place.raw
        filled := if place.repeated then p.filled else p.filled + 1 }

/-- A word without a name: the value that is expected, or one for a place. -/
def plainWord (s : Scope) (p : Progress) (word : String) : Except UsageError Progress :=
  match p.expecting, p.collected with
  | true, some c =>
      .ok { p with collected := some { c with values := [word] }, expecting := false }
  | _, _ => s.fill p word

/-! ## §4. Words. -/

/-- One more word. -/
def word (s : Scope) (p : Progress) (text : String) : Except UsageError Progress :=
  if p.literal then s.fill p text
  else
    match Word.ofText text with
    | .separator => .ok { p with literal := true }
    | .plain => s.plainWord p text
    | .long name value? =>
        match s.byName? name with
        | some o => option p o value?
        | none => if s.nextIsRaw p then s.plainWord p text else .error .unknownArgument
    | .short cs =>
        if s.nextIsRaw p && cs.any fun c => (s.byLetter? c).isNone then s.plainWord p text
        else s.letters p cs

/-- All words, up to a command if there is one: the command, and the words after
it. -/
def words (s : Scope) : Progress → List String →
    Except UsageError (Progress × Option (String × List String))
  | p, [] => do
      let p ← p.settle
      .ok (p, none)
  | p, text :: rest =>
      if !p.literal && s.commands.contains text then .ok (p, some (text, rest))
      else do
        let p ← s.word p text
        s.words p rest

/-- Everything that must be given. -/
def mustHave (s : Scope) : List String :=
  s.required ++ (s.places.filter Place.required).map Place.name

/-- What the words of a scope without commands say. -/
def read (s : Scope) (texts : List String) : Except UsageError Progress := do
  let (p, _) ← s.words {} texts
  if s.mustHave.all p.has then .ok p else .error .missingArgument

end Scope

end MessageCatalog.CommandLine
