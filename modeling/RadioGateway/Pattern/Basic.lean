import RadioGateway.Pattern.CharSet

/-!
# Patterns

What a text may look like in some part. A pattern takes places in a text to places that lie further
on, all at once: the places between the characters are the bits of a number, the lowest standing
before the first character.
-/

namespace RadioGateway

namespace Pattern

/-- What a place between two characters may be. -/
inductive Place where
  | textStart
  | textEnd
  | lineStart
  | lineEnd
  /-- Lines that a carriage return can end as well, alone or with a line feed. -/
  | anyLineStart
  | anyLineEnd
  | wordEdge
  | noWordEdge
  | wordStart
  | wordEnd
  | notAfterWord
  | notBeforeWord
  /-- Something about words of any script. There is no table of these, so nothing is known of it. -/
  | ofAnyScript
  deriving DecidableEq, Repr

def isWordChar (c : Char) : Bool := c.isAlphanum || c = '_'

/-- Whether a place between two characters, of which each may be missing, is what is asked for. -/
def Place.holds (p : Place) (before after : Option Char) : Bool :=
  let afterWord := before.any isWordChar
  let beforeWord := after.any isWordChar
  match p with
  | .textStart => before.isNone
  | .textEnd => after.isNone
  | .lineStart => before.isNone || before = some '\n'
  | .lineEnd => after.isNone || after = some '\n'
  | .anyLineStart =>
    before.isNone || before = some '\n' || (before = some '\r' && after ≠ some '\n')
  | .anyLineEnd => after.isNone || after = some '\r' || (after = some '\n' && before ≠ some '\r')
  | .wordEdge => afterWord != beforeWord
  | .noWordEdge => afterWord == beforeWord
  | .wordStart => !afterWord && beforeWord
  | .wordEnd => afterWord && !beforeWord
  | .notAfterWord => !afterWord
  | .notBeforeWord => !beforeWord
  | .ofAnyScript => false

end Pattern

open Pattern in
inductive Pattern where
  | empty
  | one (s : CharSet)
  | place (p : Place)
  | seq (a b : Pattern)
  | either (a b : Pattern)
  | group (p : Pattern)
  /-- From `least` times up to `most` times, or any number of times above. -/
  | repeated (p : Pattern) (least : Nat) (most : Option Nat)
  deriving Repr

namespace Pattern

/-! ## Matching -/

/-- The places before the characters of a set. -/
def placesBefore (s : CharSet) : List Char → Nat
  | [] => 0
  | c :: rest => (if s.contains c then 1 else 0) ||| (placesBefore s rest <<< 1)

/-- The places of a kind, the first of them behind `before`. -/
def placesOf (p : Place) (before : Option Char) : List Char → Nat
  | [] => if p.holds before none then 1 else 0
  | c :: rest => (if p.holds before (some c) then 1 else 0) ||| (placesOf p (some c) rest <<< 1)

/-- Does a step again and again, up to `count` times, or until it changes nothing. -/
def again (step : Nat → Nat) : Nat → Nat → Nat
  | 0, places => places
  | count + 1, places =>
    let next := step places
    if next = places then places else again step count next

/-- The places that a match can lead to from one of some places. A part that is repeated more often
than the text has characters comes to a standstill, so no more rounds are needed. -/
def reach (text : List Char) : Pattern → Nat → Nat
  | .empty, places => places
  | .one s, places => (places &&& placesBefore s text) <<< 1
  | .place p, places => places &&& placesOf p none text
  | .seq a b, places => b.reach text (a.reach text places)
  | .either a b, places => a.reach text places ||| b.reach text places
  | .group p, places => p.reach text places
  | .repeated p least most, places =>
    let rounds := text.length + 1
    let further := match most with
      | none => rounds
      | some m => min (m - least) rounds
    again (fun reached => reached ||| p.reach text reached) further
      (again (p.reach text) (min least rounds) places)

def occursIn (p : Pattern) (text : List Char) : Bool :=
  p.reach text (1 <<< (text.length + 1) - 1) != 0

/-! ## Size

A pattern is built from states of thirty-two octets, and a state from which several ways lead on
takes room for each of them. -/

def stateWeight : Nat := 32

/-- The states that tell the characters beyond ASCII by their octets. -/
def wideWeight : Nat := 400

def setWeight (s : CharSet) : Nat :=
  2 * stateWeight + 8 * s.ranges.length + if s.isAscii then 0 else wideWeight

def charWeight (s : CharSet) : Nat :=
  match s.ranges with
  | [r] => if r.first = r.last then stateWeight * (Char.ofNat r.first).utf8Size else setWeight s
  | _ => setWeight s

def forkWeight : Nat := stateWeight + 8

def weight : Pattern → Nat
  | .empty | .place _ => stateWeight
  | .one s => charWeight s
  | .seq a b => a.weight + b.weight
  | .either a b => a.weight + b.weight + forkWeight
  | .group p => p.weight + 2 * stateWeight
  | .repeated p least most =>
    match most with
    | none => max least 1 * p.weight + forkWeight
    | some m => least * p.weight + (m - least) * (p.weight + forkWeight)

def weightLimit : Nat := 10485760

/-- Whether something is asked about words of any script. -/
def asksForScripts : Pattern → Bool
  | .empty | .one _ => false
  | .place p => p = .ofAnyScript
  | .seq a b | .either a b => a.asksForScripts || b.asksForScripts
  | .group p | .repeated p _ _ => p.asksForScripts

end Pattern

end RadioGateway
