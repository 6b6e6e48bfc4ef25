import RadioGateway.CommandLine.Settings
import RadioGateway.Text.Terminal

/-!
# Reading arguments

An option that takes a value finds it behind an equals sign, behind its letter, or in the next
argument that does not look like an option. The value is looked at when the next option comes, so
the first of two faults is reported; only an argument that no option answers to comes before a value
that is still waiting.
-/

namespace RadioGateway.CommandLine

inductive UsageError where
  | unexpectedArgument (argument : String)
  | unexpectedValue (value : String) (f : Flag)
  | missingValue (f : Flag)
  | repeated (f : Flag)
  | invalidValue (value : String) (f : Flag) (fault : ValueFault)
  deriving DecidableEq, Repr

def shown (text : String) : String := String.ofList (Text.seen text.toList)

def UsageError.message : UsageError → String
  | .unexpectedArgument argument => "unexpected argument '" ++ shown argument ++ "' found"
  | .unexpectedValue value f =>
    "unexpected value '" ++ shown value ++ "' for '" ++ f.spelling ++
      "' found; no more were expected"
  | .missingValue f => "a value is required for '" ++ f.spelling ++ "' but none was supplied"
  | .repeated f => "the argument '" ++ f.spelling ++ "' cannot be used multiple times"
  | .invalidValue value f fault =>
    "invalid value '" ++ shown value ++ "' for '" ++ f.spelling ++ "': " ++ fault.message

/-- Why no settings come of the arguments: the user asks for help, or does something wrong. -/
inductive Stop where
  | help
  | wrong (e : UsageError)
  deriving DecidableEq, Repr

/-- An option that waits for its value, or whose value waits to be looked at. -/
structure Waiting where
  flag : Flag
  value : Option String

structure Reading where
  settings : Settings := {}
  seen : List Flag := []
  waiting : Option Waiting := none

namespace Reading

def set (r : Reading) (f : Flag) (text : String) : Except Stop Reading :=
  if r.seen.contains f then .error (.wrong (.repeated f))
  else
    match r.settings.set f text with
    | .ok settings => .ok { settings, seen := f :: r.seen, waiting := none }
    | .error fault => .error (.wrong (.invalidValue text f fault))

def settle (r : Reading) : Except Stop Reading :=
  match r.waiting with
  | none => .ok r
  | some ⟨f, none⟩ => .error (.wrong (.missingValue f))
  | some ⟨f, some text⟩ => { r with waiting := none }.set f text

def setFlag (r : Reading) (f : Flag) : Except Stop Reading := do
  let r ← r.settle
  if f = .help then .error .help else r.set f ""

def setAttached (r : Reading) (f : Flag) (text : List Char) : Except Stop Reading := do
  (← r.settle).set f (String.ofList text)

def await (r : Reading) (f : Flag) : Except Stop Reading :=
  r.settle.map fun r => { r with waiting := some ⟨f, none⟩ }

def unexpected (argument : List Char) : Except Stop Reading :=
  .error (.wrong (.unexpectedArgument (String.ofList argument)))

def long (r : Reading) (text : List Char) : Except Stop Reading :=
  let name := text.takeWhile (· ≠ '=')
  match Flag.ofLong? name, text.drop name.length with
  | none, _ => unexpected ('-' :: '-' :: name)
  | some f, [] => if f.takesValue then r.await f else r.setFlag f
  | some f, _ :: value =>
    if f.takesValue then r.setAttached f value
    else .error (.wrong (.unexpectedValue (String.ofList value) f))

def short (r : Reading) : List Char → Except Stop Reading
  | [] => .ok r
  | c :: rest =>
    match Flag.ofShort? c with
    | none => unexpected ['-', c]
    | some f =>
      if f.takesValue then
        match rest with
        | [] => r.await f
        | '=' :: value => r.setAttached f value
        | value => r.setAttached f value
      else do (← r.setFlag f).short rest

/-- An argument before any that consists of two dashes only. -/
def argument (r : Reading) (text : List Char) : Except Stop Reading :=
  match text, r.waiting with
  | '-' :: '-' :: rest, _ => r.long rest
  | '-' :: c :: rest, _ => r.short (c :: rest)
  | _, some ⟨f, none⟩ => .ok { r with waiting := some ⟨f, some (String.ofList text)⟩ }
  | _, _ => unexpected text

def arguments (r : Reading) : List String → Except Stop Reading
  | [] => r.settle
  | "--" :: [] => r.settle
  | "--" :: text :: _ => unexpected text.toList
  | text :: rest => do (← r.argument text.toList).arguments rest

end Reading

def Settings.ofArguments (arguments : List String) : Except Stop Settings :=
  (({} : Reading).arguments arguments).map Reading.settings

end RadioGateway.CommandLine
