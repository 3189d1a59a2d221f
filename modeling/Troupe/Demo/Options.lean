import Troupe.Decimal.Numeral
import Troupe.Playback.Duration
import Troupe.Stage.Settings

/-! # Options of the command line

Every option has a long name and one value, written after it or joined to it by an equals
sign.

* `Flag` — the options there are.
* `Options` — their values.
* `UsageError` — why a command line is refused; the first fault from the left counts.
* `Options.parse` — reads a command line.
-/

namespace Troupe.Demo

open Troupe.Decimal (Numeral)
open Troupe.Number (powerOfTwo)
open Troupe.Swap (Choreography)

/-! ## Values -/

structure Options where
  fps : Nat
  choreography : Choreography
  thenChoreography : Option Choreography
  extra : Nat
  seed : Option Nat
  width : Float32
  height : Float32
deriving Repr, Inhabited

def Options.standard : Options :=
  ⟨60, .predictive, none, 0, none, 1000, 550⟩

inductive Flag where
  | fps
  | mode
  | thenMode
  | extra
  | seed
  | width
  | height
deriving Repr, DecidableEq, Inhabited

namespace Flag

def all : List Flag :=
  [.fps, .mode, .thenMode, .extra, .seed, .width, .height]

def name : Flag → String
  | .fps => "fps"
  | .mode => "mode"
  | .thenMode => "then"
  | .extra => "extra"
  | .seed => "seed"
  | .width => "width"
  | .height => "height"

def ofName? (name : String) : Option Flag :=
  all.find? (·.name = name)

end Flag

inductive UsageError where
  | unknownArgument (argument : String)
  | missingValue (flag : Flag)
  | invalidValue (flag : Flag) (value : String)
  | repeatedFlag (flag : Flag)
  | needlessValue (argument : String)
  | helpRequested
deriving Repr, DecidableEq, Inhabited

/-! ## Reading values -/

def natOfDigits? (digits : List Char) : Option Nat :=
  if !digits.isEmpty && digits.all Char.isDigit then some (Nat.ofDigitChars 10 digits 0) else none

/-- A natural number below `2 ^ bits`, with an optional plus sign. -/
def natural? (bits : Nat) (text : String) : Option Nat :=
  let digits := match text.toList with
    | '+' :: digits => digits
    | digits => digits
  (natOfDigits? digits).filter (· < powerOfTwo bits)

/-- A natural number below `2 ^ bits` with an optional sign, where minus zero is zero. -/
def signedNatural? (bits : Nat) (text : String) : Option Nat :=
  match text.toList with
  | '-' :: digits => (natOfDigits? digits).filter (· = 0)
  | _ => natural? bits text

/-- A single-precision number: a numeral that is the whole text, or one of the names of
    infinity and `NaN` in any case with an optional sign. -/
def single? (text : String) : Option Float32 :=
  match Numeral.scan text.toList with
  | some (numeral, []) => some numeral.toSingle
  | _ =>
    let (negative, name) := match text.toList with
      | '-' :: name => (true, name)
      | '+' :: name => (false, name)
      | name => (false, name)
    let name := String.ofList (name.map Char.toLower)
    let magnitude? :=
      if name = "inf" || name = "infinity" then some (Float32.ofBits 0x7f800000)
      else if name = "nan" then some (Float32.ofBits 0x7fc00000)
      else none
    magnitude?.map fun magnitude => if negative then -magnitude else magnitude

namespace Options

/-- The options with one of them set from a text, if the text is a value of it. -/
def set? (options : Options) (flag : Flag) (value : String) : Option Options :=
  match flag with
  | .fps => (signedNatural? 32 value).map fun fps => { options with fps }
  | .mode => (Choreography.ofName? value).map fun choreography => { options with choreography }
  | .thenMode =>
    (Choreography.ofName? value).map fun choreography =>
      { options with thenChoreography := some choreography }
  | .extra => (natural? 64 value).map fun extra => { options with extra }
  | .seed => (natural? 64 value).map fun seed => { options with seed := some seed }
  | .width => (single? value).map fun width => { options with width }
  | .height => (single? value).map fun height => { options with height }

/-! ## Reading a command line -/

/-- A command line read up to some argument: the options so far, those already given, and
    the option last named with the value that followed it, which is looked at only once
    it is known that the next argument is an option, too. -/
structure Reading where
  options : Options
  given : List Flag
  pending : Option (Flag × Option String)
deriving Repr, Inhabited

/-- The reading with the value of an option, which may be given once. -/
def Reading.accept (reading : Reading) (flag : Flag) (value : String) :
    Except UsageError Reading :=
  if reading.given.contains flag then .error (.repeatedFlag flag)
  else
    match reading.options.set? flag value with
    | some options => .ok ⟨options, flag :: reading.given, none⟩
    | none => .error (.invalidValue flag value)

def Reading.settle (reading : Reading) : Except UsageError Reading :=
  match reading.pending with
  | none => .ok reading
  | some (flag, none) => .error (.missingValue flag)
  | some (flag, some value) => reading.accept flag value

/-- The name and the joined value of an argument that starts with two dashes. -/
def splitLong (body : List Char) : String × Option String :=
  match body.span (· != '=') with
  | (name, _ :: value) => (String.ofList name, some (String.ofList value))
  | (name, []) => (String.ofList name, none)

def Reading.long (reading : Reading) (argument : String) (body : List Char) :
    Except UsageError Reading :=
  let (name, value) := splitLong body
  if name = "help" then
    match value with
    | some _ => .error (.needlessValue argument)
    | none => do
      let _ ← reading.settle
      throw .helpRequested
  else
    match Flag.ofName? name with
    | none => .error (.unknownArgument argument)
    | some flag => do
      let reading ← reading.settle
      match value with
      | some value => reading.accept flag value
      | none => return { reading with pending := some (flag, none) }

/-- Reads an argument that starts with one dash; only the one for help is known. -/
def Reading.short (reading : Reading) (argument : String) (body : List Char) :
    Except UsageError Reading :=
  if body.head? = some 'h' then do
    let _ ← reading.settle
    throw .helpRequested
  else .error (.unknownArgument argument)

def Reading.argument (reading : Reading) (argument : String) : Except UsageError Reading :=
  match argument.toList with
  | '-' :: '-' :: body => reading.long argument body
  | '-' :: c :: body => reading.short argument (c :: body)
  | _ =>
    match reading.pending with
    | some (flag, none) => .ok { reading with pending := some (flag, some argument) }
    | _ => .error (.unknownArgument argument)

/-- Reads the rest of a command line. Two dashes alone end the options, and nothing may
    follow them. -/
def Reading.arguments (reading : Reading) : List String → Except UsageError Reading
  | [] => reading.settle
  | "--" :: [] => reading.settle
  | "--" :: argument :: _ => .error (.unknownArgument argument)
  | argument :: rest => do
    let reading ← reading.argument argument
    reading.arguments rest

def parse (arguments : List String) : Except UsageError Options :=
  (Reading.arguments ⟨standard, [], none⟩ arguments).map Reading.options

/-! ## What options stand for -/

def settings (options : Options) : Stage.Settings :=
  (Stage.Settings.standard.withChoreography options.choreography).withSize options.width
    options.height

/-- Nanoseconds from one frame to the next; zero frames per second count as one. -/
def frameDuration (options : Options) : Nat :=
  (Playback.Duration.ofDouble? (1 / Float.ofNat (max options.fps 1))).getD
    Playback.Duration.longest

end Options

end Troupe.Demo
