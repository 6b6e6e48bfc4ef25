import RadioGateway.Pattern.Basic
import RadioGateway.Text.Blank
import RadioGateway.Text.Printable

/-!
# Reading patterns

A pattern is written with `|` between alternatives, `?`, `*`, `+` and braces behind what is
repeated, round brackets around groups and square brackets around sets. Letters that stand for
themselves in either case or for the characters of a class need tables of all scripts, which are not
there, so they can be had with ASCII only, between `(?-u:` and `)`.
-/

namespace RadioGateway.Pattern

inductive Fault where
  | malformed
  | tooLarge
  | asksForScripts
  deriving DecidableEq, Repr

structure Flags where
  caseless : Bool := false
  /-- `^` and `$` fit at every line. -/
  multiline : Bool := false
  dotAll : Bool := false
  /-- A carriage return can end a line. -/
  anyLineEnd : Bool := false
  allScripts : Bool := true
  /-- White space and comments mean nothing. -/
  spaced : Bool := false

def isHexDigit (c : Char) : Bool := c.isDigit || ('a' ≤ c && c ≤ 'f') || ('A' ≤ c && c ≤ 'F')

def digitValue (c : Char) : Nat :=
  if c.isDigit then c.toNat - '0'.toNat else c.toUpper.toNat - 'A'.toNat + 10

/-- Leaves out white space, and comments, which go from a `#` to the end of the line. -/
def skipFrom (comment : Bool) : List Char → List Char
  | [] => []
  | c :: rest =>
    if comment then skipFrom (c ≠ '\n') rest
    else if Text.isBlank c then skipFrom false rest
    else if c = '#' then skipFrom true rest
    else c :: rest

def Flags.skip (f : Flags) (text : List Char) : List Char :=
  if f.spaced then skipFrom false text else text

/-- The longest beginning of characters of a kind, where the flags may allow white space after
each. -/
def Flags.span (f : Flags) (kind : Char → Bool) : Nat → List Char → List Char × List Char
  | 0, text => ([], text)
  | fuel + 1, text =>
    match text with
    | [] => ([], [])
    | c :: rest =>
      if kind c then
        let (found, rest) := f.span kind fuel (f.skip rest)
        (c :: found, rest)
      else ([], c :: rest)

/-! ## Escapes -/

/-- What stands for a character, a class of characters or a place. -/
inductive Atom where
  | char (c : Char)
  | octet (c : Char)
  | classOf (name : String) (negated : Bool)
  | place (p : Place)

def hexValue (digits : List Char) : Nat := digits.foldl (fun n c => n * 16 + digitValue c) 0

def charOf? (n : Nat) : Option Char := if n.isValidChar then some (Char.ofNat n) else none

/-- Hexadecimal digits in braces, or `count` of them. -/
def readHex (f : Flags) (count : Nat) (text : List Char) : Option (Char × List Char) :=
  match f.skip text with
  | '{' :: rest =>
    match f.span isHexDigit rest.length (f.skip rest) with
    | ([], _) => none
    | (digits, '}' :: rest) => (charOf? (hexValue digits)).map fun c => (c, f.skip rest)
    | _ => none
  | text =>
    let (digits, rest) := f.span isHexDigit count text
    if digits.length = count then (charOf? (hexValue digits)).map fun c => (c, rest) else none

/-- The edges of words that are named in braces behind `\b`. -/
def edgeNamed? : String → Option Place
  | "start" => some .wordStart
  | "end" => some .wordEnd
  | "start-half" => some .notAfterWord
  | "end-half" => some .notBeforeWord
  | _ => none

def isEdgeLetter (c : Char) : Bool := c.isAlpha || c = '-'

def readEdge (f : Flags) (text : List Char) : Option (Place × List Char) :=
  match text with
  | '{' :: rest =>
    match f.skip rest with
    | [] => none
    | c :: inside =>
      if !isEdgeLetter c then some (.wordEdge, text)
      else
        match f.span isEdgeLetter rest.length (c :: inside) with
        | (name, '}' :: rest) => (edgeNamed? (String.ofList name)).map fun p => (p, rest)
        | _ => none
  | _ => some (.wordEdge, text)

/-- Words of ASCII letters, or of any script. -/
def Flags.wordPlace (f : Flags) (p : Place) : Atom :=
  .place (if f.allScripts then .ofAnyScript else p)

/-- ASCII characters that stand for themselves behind a backslash. -/
def standsForItself (c : Char) : Bool := c.toNat < 0x80 && !c.isAlphanum && c ≠ '<' && c ≠ '>'

def readEscape (f : Flags) : List Char → Option (Atom × List Char)
  | [] => none
  | c :: rest =>
    match c with
    | 'x' =>
      (readHex f 2 rest).map fun (c, after) =>
        (if (f.skip rest).head? = some '{' then .char c else .octet c, after)
    | 'u' => (readHex f 4 rest).map fun (c, rest) => (.char c, rest)
    | 'U' => (readHex f 8 rest).map fun (c, rest) => (.char c, rest)
    | 'd' => some (.classOf "digit" false, rest)
    | 's' => some (.classOf "space" false, rest)
    | 'w' => some (.classOf "word" false, rest)
    | 'D' => some (.classOf "digit" true, rest)
    | 'S' => some (.classOf "space" true, rest)
    | 'W' => some (.classOf "word" true, rest)
    | 'a' => some (.char '\x07', rest)
    | 'f' => some (.char '\x0c', rest)
    | 't' => some (.char '\t', rest)
    | 'n' => some (.char '\n', rest)
    | 'r' => some (.char '\r', rest)
    | 'v' => some (.char '\x0b', rest)
    | 'A' => some (.place .textStart, rest)
    | 'z' => some (.place .textEnd, rest)
    | 'b' => (readEdge f rest).map fun (p, rest) => (f.wordPlace p, rest)
    | 'B' => some (f.wordPlace .noWordEdge, rest)
    | '<' => some (f.wordPlace .wordStart, rest)
    | '>' => some (f.wordPlace .wordEnd, rest)
    | _ => if standsForItself c then some (.char c, rest) else none

/-! ## Sets -/

/-- Without a table of all scripts only an empty set can be had in both cases. -/
def Flags.fold (f : Flags) (s : CharSet) : Option CharSet :=
  if !f.caseless then some s
  else if f.allScripts then (if s.isEmpty then some s else none)
  else some s.withBothCases

/-- A set in both cases if need be, or its complement; with ASCII only, it has to be of ASCII. -/
def Flags.close (f : Flags) (negated : Bool) (s : CharSet) : Option CharSet := do
  let s ← f.fold s
  let s := if negated then s.complement else s
  if f.allScripts || s.isAscii then some s else none

def Flags.letterClass (f : Flags) (name : String) (negated : Bool) : Option CharSet :=
  if f.allScripts || negated then none else CharSet.named? name

def Flags.member (f : Flags) (c : Char) : Option Char :=
  if f.allScripts || c.toNat < 0x80 then some c else none

def Atom.member? (f : Flags) : Atom → Option Char
  | .char c | .octet c => f.member c
  | _ => none

/-- The items of a set so far: what is in them, how many there are, and how deep they are nested. -/
structure Items where
  set : CharSet := .empty
  count : Nat := 0
  depth : Nat := 0

def Items.add (u : Items) (s : CharSet) (depth : Nat) : Items :=
  { set := u.set.union s, count := u.count + 1, depth := max u.depth depth }

/-- Several items are nested deeper than a single one. -/
def Items.nesting (u : Items) : Nat := if 1 < u.count then u.depth + 1 else u.depth

inductive SetOp where
  | inter
  | diff
  | symmDiff

def SetOp.apply : SetOp → CharSet → CharSet → CharSet
  | .inter => .inter
  | .diff => .diff
  | .symmDiff => .symmDiff

inductive Pending where
  | nested (outer : Items) (negated : Bool)
  | op (kind : SetOp) (left : CharSet) (depth : Nat)

def finishOp (f : Flags) (stack : List Pending) (u : Items) :
    Option (CharSet × Nat × List Pending) :=
  match stack with
  | .op kind left depth :: stack => do
    let left ← f.fold left
    let right ← f.fold u.set
    some (kind.apply left right, max depth u.nesting + 1, stack)
  | _ => some (u.set, u.nesting, stack)

def openSet (f : Flags) (text : List Char) : Option (Bool × Items × List Char) :=
  let text := f.skip text
  let (negated, text) := match text with
    | '^' :: rest => (true, f.skip rest)
    | _ => (false, text)
  let (dashes, text) := f.span (· = '-') text.length text
  let u := dashes.foldl (fun u c => u.add (.singleton c) 0) ({} : Items)
  match text with
  | [] => none
  | ']' :: rest =>
    if dashes.isEmpty then
      match f.skip rest with
      | [] => none
      | rest => some (negated, u.add (.singleton ']') 0, rest)
    else some (negated, u, text)
  | _ => some (negated, u, text)

def readNamed (text : List Char) : Option (CharSet × Bool × List Char) :=
  match text with
  | ':' :: rest =>
    let (negated, rest) := match rest with
      | '^' :: rest => (true, rest)
      | _ => (false, rest)
    match rest.dropWhile (· ≠ ':') with
    | ':' :: ']' :: after =>
      (CharSet.named? (String.ofList (rest.takeWhile (· ≠ ':')))).map fun s => (s, negated, after)
    | _ => none
  | _ => none

def readSetAtom (f : Flags) : List Char → Option (Atom × List Char)
  | [] => none
  | '\\' :: rest => readEscape f rest
  | c :: rest => some (.char c, rest)

/-- An item of a set: a range, a character or a class. -/
def readItem (f : Flags) (text : List Char) : Option (CharSet × List Char) := do
  let (low, rest) ← readSetAtom f text
  match f.skip rest with
  | [] => none
  | '-' :: after =>
    let next := (f.skip after).head?
    if next = some ']' ∨ next = some '-' then
      let s ← single low
      some (s, '-' :: after)
    else
      let (high, rest) ← readSetAtom f (f.skip after)
      let low ← low.member? f
      let high ← high.member? f
      if low ≤ high then some (.ofRanges [(low.toNat, high.toNat)], rest) else none
  | rest =>
    let s ← single low
    some (s, rest)
where
  single : Atom → Option CharSet
    | .classOf name negated => f.letterClass name negated
    | a => (a.member? f).map .singleton

def setOp? : List Char → Option (SetOp × List Char)
  | '&' :: '&' :: rest => some (.inter, rest)
  | '-' :: '-' :: rest => some (.diff, rest)
  | '~' :: '~' :: rest => some (.symmDiff, rest)
  | _ => none

/-- A set, and how deep it is nested, from behind its opening bracket on. -/
def readSet (f : Flags) : Nat → List Pending → Items → List Char →
    Option (CharSet × Nat × List Char)
  | 0, _, _, _ => none
  | fuel + 1, stack, u, text =>
    match f.skip text with
    | [] => none
    | '[' :: rest =>
      match readNamed rest with
      | some (s, negated, rest) => do
        let s ← f.close negated s
        readSet f fuel stack (u.add s 0) rest
      | none => do
        let (negated, inner, rest) ← openSet f rest
        readSet f fuel (.nested u negated :: stack) inner rest
    | ']' :: rest => do
      let (s, depth, stack) ← finishOp f stack u
      match stack with
      | .nested outer negated :: stack => do
        let s ← f.close negated s
        if stack.isEmpty then some (s, depth + 1, rest)
        else readSet f fuel stack (outer.add s (depth + 1)) rest
      | _ => none
    | text =>
      match setOp? text with
      | some (kind, rest) => do
        let (s, depth, stack) ← finishOp f stack u
        readSet f fuel (.op kind s depth :: stack) {} rest
      | none => do
        let (s, rest) ← readItem f text
        readSet f fuel stack (u.add s 0) rest

/-! ## Repetitions -/

def readCount (f : Flags) (text : List Char) : Option (Nat × List Char) :=
  let text := Text.trimLeft text
  match f.span Char.isDigit text.length text with
  | ([], _) => none
  | (digits, rest) =>
    let n := digits.foldl (fun n c => n * 10 + digitValue c) 0
    if n < UInt32.size then some (n, f.skip (Text.trimLeft rest)) else none

/-- What follows an opening brace: how often something is repeated. -/
def readBounds (f : Flags) (text : List Char) : Option (Nat × Option Nat × List Char) := do
  let (least, rest) ← readCount f (f.skip text)
  match rest with
  | '}' :: rest => some (least, some least, f.skip rest)
  | ',' :: rest =>
    match f.skip rest with
    | '}' :: rest => some (least, none, f.skip rest)
    | rest => do
      let (most, rest) ← readCount f rest
      match rest with
      | '}' :: rest => if least ≤ most then some (least, some most, f.skip rest) else none
      | _ => none
  | _ => none

/-- Whether as little or as much as possible is repeated makes no difference here. -/
def skipHaste : List Char → List Char
  | '?' :: rest => rest
  | text => text

/-- A part that is never there is nothing. -/
def times (p : Pattern) (least : Nat) (most : Option Nat) : Pattern :=
  if most = some 0 then .empty else .repeated p least most

/-! ## Groups -/

/-- Letters beyond ASCII are not told from other characters that leave a mark. -/
def isNameStart (c : Char) : Bool := c = '_' || c.isAlpha || (0x80 ≤ c.toNat && Text.isPrintable c)

def isNameChar (c : Char) : Bool := isNameStart c || c.isDigit || c = '.' || c = '[' || c = ']'

def readName (text : List Char) : Option (List Char × List Char) :=
  match text.takeWhile (· ≠ '>'), text.dropWhile (· ≠ '>') with
  | c :: name, '>' :: rest =>
    if isNameStart c && name.all isNameChar then some (c :: name, rest) else none
  | _, _ => none

def Flags.set (f : Flags) (value : Bool) : Char → Option Flags
  | 'i' => some { f with caseless := value }
  | 'm' => some { f with multiline := value }
  | 's' => some { f with dotAll := value }
  | 'R' => some { f with anyLineEnd := value }
  | 'u' => some { f with allScripts := value }
  | 'x' => some { f with spaced := value }
  | 'U' => some f
  | _ => none

/-- Letters that are set, and behind a dash letters that are unset; none comes twice. -/
def Flags.update (f : Flags) (value : Bool) (seen : List Char) : List Char → Option Flags
  | [] => if seen.head? = some '-' then none else some f
  | c :: rest => do
    if seen.contains c then none
    else if c = '-' then f.update false (c :: seen) rest
    else (← f.set value c).update value (c :: seen) rest

/-- A part of a sequence with how deep it is nested, or flags, which cannot be repeated. -/
inductive Item where
  | part (p : Pattern) (depth : Nat)
  | setting

def Item.pattern : Item → Pattern
  | .part p _ => p
  | .setting => .empty

def Item.depth : Item → Nat
  | .part _ depth => depth
  | .setting => 0

structure Opened where
  items : List Item
  alternatives : List Item
  flags : Flags
  named : Bool

/-- What has been read; of every list the last comes first. -/
structure Reading where
  items : List Item := []
  alternatives : List Item := []
  stack : List Opened := []
  flags : Flags := {}
  names : List (List Char) := []

namespace Reading

def push (r : Reading) (p : Pattern) (depth : Nat) : Reading :=
  { r with items := .part p depth :: r.items }

/-- Several items are nested deeper than a single one. -/
def joined (join : Pattern → Pattern → Pattern) (none : Pattern) : List Item → Item
  | [] => .part none 0
  | [item] => .part item.pattern item.depth
  | item :: rest =>
    let before := rest.foldl (fun p i => join i.pattern p) item.pattern
    .part before ((item :: rest).foldl (fun depth i => max depth i.depth) 0 + 1)

def result (r : Reading) : Item :=
  joined .either .empty (joined .seq .empty r.items :: r.alternatives)

def nextAlternative (r : Reading) : Reading :=
  { r with items := [], alternatives := joined .seq .empty r.items :: r.alternatives }

def openGroup (r : Reading) (named : Bool) (inner : Flags) : Reading :=
  { r with
    items := []
    alternatives := []
    stack := ⟨r.items, r.alternatives, r.flags, named⟩ :: r.stack
    flags := inner }

def closeGroup (r : Reading) : Option Reading :=
  match r.stack with
  | [] => none
  | o :: stack =>
    let p := r.result.pattern
    let group := if o.named then Pattern.group p else p
    some { r with
      items := .part group (r.result.depth + 1) :: o.items
      alternatives := o.alternatives
      stack
      flags := o.flags }

def repeatLast (r : Reading) (least : Nat) (most : Option Nat) : Option Reading :=
  match r.items with
  | .part p depth :: items =>
    some { r with items := .part (p.times least most) (depth + 1) :: items }
  | _ => none

def named (r : Reading) (text : List Char) : Option (Reading × List Char) := do
  let (name, rest) ← readName text
  if r.names.contains name then none
  else some ({ r with names := name :: r.names }.openGroup true r.flags, rest)

/-- What follows an opening round bracket. Nothing can be asked about what stands around a match. -/
def group (r : Reading) (text : List Char) : Option (Reading × List Char) :=
  match r.flags.skip text with
  | '?' :: '=' :: _ | '?' :: '!' :: _ | '?' :: '<' :: '=' :: _ | '?' :: '<' :: '!' :: _ => none
  | '?' :: 'P' :: '<' :: rest | '?' :: '<' :: rest => r.named rest
  | '?' :: rest => do
    let letters := rest.takeWhile fun c => c ≠ ':' ∧ c ≠ ')'
    let flags ← r.flags.update true [] letters
    match rest.drop letters.length with
    | ':' :: rest => some (r.openGroup false flags, rest)
    | ')' :: rest =>
      if letters.isEmpty then none else some ({ r with items := .setting :: r.items, flags }, rest)
    | _ => none
  | rest => some (r.openGroup true r.flags, rest)

def dot (f : Flags) : Option CharSet :=
  if !f.allScripts then none
  else if f.dotAll then some .all
  else if f.anyLineEnd then some (CharSet.ofRanges [(0x0A, 0x0A), (0x0D, 0x0D)]).complement
  else some (CharSet.singleton '\n').complement

def lineStart (f : Flags) : Place :=
  if !f.multiline then .textStart else if f.anyLineEnd then .anyLineStart else .lineStart

def lineEnd (f : Flags) : Place :=
  if !f.multiline then .textEnd else if f.anyLineEnd then .anyLineEnd else .lineEnd

def atom (f : Flags) : Atom → Option Pattern
  | .char c => (f.fold (.singleton c)).map .one
  | .octet c => do
    let c ← f.member c
    (f.fold (.singleton c)).map .one
  | .classOf name negated => (f.letterClass name negated).map .one
  | .place p => some (.place p)

def primitive (r : Reading) : List Char → Option (Reading × List Char)
  | [] => none
  | '\\' :: rest => do
    let (a, rest) ← readEscape r.flags rest
    (atom r.flags a).map fun p => (r.push p 0, rest)
  | '.' :: rest => (dot r.flags).map fun s => (r.push (.one s) 0, rest)
  | '^' :: rest => some (r.push (.place (lineStart r.flags)) 0, rest)
  | '$' :: rest => some (r.push (.place (lineEnd r.flags)) 0, rest)
  | c :: rest => (atom r.flags (.char c)).map fun p => (r.push p 0, rest)

def next (r : Reading) : List Char → Option (Reading × List Char)
  | '(' :: rest => r.group rest
  | ')' :: rest => r.closeGroup.map fun r => (r, rest)
  | '|' :: rest => some (r.nextAlternative, rest)
  | '[' :: rest => do
    let (negated, items, rest) ← openSet r.flags rest
    let (s, depth, rest) ← readSet r.flags (rest.length + 1) [.nested {} negated] items rest
    some (r.push (.one s) depth, rest)
  | '?' :: rest => (r.repeatLast 0 (some 1)).map fun r => (r, skipHaste rest)
  | '*' :: rest => (r.repeatLast 0 none).map fun r => (r, skipHaste rest)
  | '+' :: rest => (r.repeatLast 1 none).map fun r => (r, skipHaste rest)
  | '{' :: rest => do
    let (least, most, rest) ← readBounds r.flags rest
    (r.repeatLast least most).map fun r => (r, skipHaste rest)
  | text => r.primitive text

def finish (r : Reading) : Nat → List Char → Option Item
  | 0, _ => none
  | fuel + 1, text =>
    match r.flags.skip text with
    | [] => if r.stack.isEmpty then some r.result else none
    | text => do
      let (r, rest) ← r.next text
      r.finish fuel rest

end Reading

def depthLimit : Nat := 250

def read (text : List Char) : Except Fault Pattern :=
  match ({} : Reading).finish (text.length + 1) text with
  | none => .error .malformed
  | some item =>
    if depthLimit < item.depth then .error .malformed
    else if weightLimit < item.pattern.weight then .error .tooLarge
    else if item.pattern.asksForScripts then .error .asksForScripts
    else .ok item.pattern

end RadioGateway.Pattern
