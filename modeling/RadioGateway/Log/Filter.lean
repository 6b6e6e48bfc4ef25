import RadioGateway.Log.Event
import RadioGateway.Pattern.Reader
import RadioGateway.Text.Parts

/-!
# Which records are shown

A filter is a list of directives, each a level for all records or for those whose source begins with
a name; the directive with the longest name that fits decides. A filter is written with commas
between the directives and `=` between a name and its level, and may end with a slash and a pattern
that every message shown contains.
-/

namespace RadioGateway.Log

/-- The records up to a level, or none. -/
abbrev Limit := Option Level

def Limit.rank : Limit → Nat
  | none => 0
  | some l => l.rank

def Limit.admits (limit : Limit) (l : Level) : Bool := l.rank ≤ limit.rank

structure Record where
  level : Level
  source : String
  message : String
  deriving DecidableEq, Repr

/-- Levels in a column of five. -/
def Record.line (r : Record) : String :=
  r.level.name ++ String.ofList (List.replicate (5 - r.level.name.length) ' ') ++ " " ++ r.source ++
    " " ++ r.message

structure Directive where
  /-- The beginning of a source; `none` fits every record. -/
  scope : Option String
  limit : Limit
  deriving DecidableEq, Repr

structure Filter where
  /-- From the shortest scope to the longest. -/
  directives : List Directive
  /-- Occurs in every message shown. -/
  pattern : Pattern := .empty

/-- Letters in either case. -/
def limitOf? (name : String) : Option Limit :=
  match String.ofList (name.toList.map Char.toLower) with
  | "off" => some none
  | "error" => some (some .error)
  | "warn" => some (some .warn)
  | "info" => some (some .info)
  | "debug" => some (some .debug)
  | "trace" => some (some .trace)
  | _ => none

def Directive.fits (d : Directive) (source : String) : Bool :=
  match d.scope with
  | none => true
  | some name => name.toList.isPrefixOf source.toList

def Filter.shows (f : Filter) (r : Record) : Bool :=
  match f.directives.reverse.find? (·.fits r.source) with
  | none => false
  | some d => d.limit.admits r.level && f.pattern.occursIn r.message.toList

/-! ## Reading a filter -/

inductive FilterFault where
  | directive (text : String)
  | tooManySlashes (text : String)
  | pattern (text : String) (fault : Pattern.Fault)
  deriving DecidableEq, Repr

def FilterFault.message : FilterFault → String
  | .directive text => "invalid logging spec '" ++ text ++ "'"
  | .tooManySlashes text => "invalid logging spec '" ++ text ++ "' (too many '/'s)"
  | .pattern text fault =>
    "invalid regex filter - " ++
      match fault with
      | .malformed => "regex parse error:\n    " ++ text
      | .tooLarge =>
        "Compiled regex exceeds size limit of " ++ Radio.number Pattern.weightLimit ++ " bytes."
      | .asksForScripts => "error building NFA"

/-- A directive, nothing, or what cannot be understood. A name without a level shows everything. -/
def readDirective (text : List Char) : Except FilterFault (Option Directive) :=
  if (Text.trim text).isEmpty then .ok none
  else
    match Text.splitAt '=' (Text.trim text) with
    | [name] =>
      match limitOf? (String.ofList name) with
      | some limit => .ok (some ⟨none, limit⟩)
      | none => .ok (some ⟨some (String.ofList name), some .trace⟩)
    | [name, level] =>
      if (Text.trim level).isEmpty then .ok (some ⟨some (String.ofList name), some .trace⟩)
      else
        match limitOf? (String.ofList (Text.trim level)) with
        | some limit => .ok (some ⟨some (String.ofList name), limit⟩)
        | none => .error (.directive (String.ofList (Text.trim level)))
    | _ => .error (.directive (String.ofList (Text.trim text)))

def Directive.weight (d : Directive) : Nat := (d.scope.map String.utf8ByteSize).getD 0

/-- A directive replaces the one of the same scope. -/
def insertDirective (d : Directive) : List Directive → List Directive
  | [] => [d]
  | other :: rest => if other.scope = d.scope then d :: rest else other :: insertDirective d rest

/-- With no directive only errors are shown. -/
def Filter.ofDirectives (ds : List Directive) (pattern : Pattern) : Filter :=
  match ds.foldl (fun found d => insertDirective d found) [] with
  | [] => { directives := [⟨none, some .error⟩], pattern }
  | found => { directives := found.mergeSort fun a b => a.weight ≤ b.weight, pattern }

/-- The pattern behind a slash. One that cannot be understood lets everything pass. -/
def readPattern (text : List Char) : Pattern × List FilterFault :=
  match Pattern.read text with
  | .ok pattern => (pattern, [])
  | .error fault => (.empty, [.pattern (String.ofList text) fault])

/-- A filter and what of its written form could not be understood. -/
def Filter.read (text : String) : Filter × List FilterFault :=
  match Text.splitAt '/' text.toList with
  | [] => (.ofDirectives [] .empty, [])
  | directives :: rest =>
    match rest with
    | _ :: _ :: _ => (.ofDirectives [] .empty, [.tooManySlashes text])
    | _ =>
      let read := (Text.splitAt ',' directives).map readDirective
      let found := read.filterMap fun
        | .ok d => d
        | .error _ => none
      let faults := read.filterMap fun
        | .ok _ => none
        | .error fault => some fault
      let (pattern, patternFaults) := readPattern (rest.headD [])
      (.ofDirectives found pattern, faults ++ patternFaults)

end RadioGateway.Log
