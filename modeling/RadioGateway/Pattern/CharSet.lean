/-!
# Sets of characters

A set is a list of ranges of code points, in ascending order and with a gap between any two, so the
empty set is the empty list.
-/

namespace RadioGateway.Pattern

structure Range where
  first : Nat
  last : Nat
  deriving DecidableEq, Repr

structure CharSet where
  ranges : List Range
  deriving DecidableEq, Repr

namespace CharSet

def lastCode : Nat := 0x10FFFF

def empty : CharSet := ⟨[]⟩

/-- A range takes up those that it touches. -/
def insertRange (r : Range) : List Range → List Range
  | [] => [r]
  | s :: rest =>
    if r.last + 1 < s.first then r :: s :: rest
    else if s.last + 1 < r.first then s :: insertRange r rest
    else insertRange ⟨min r.first s.first, max r.last s.last⟩ rest

def ofRanges (rs : List (Nat × Nat)) : CharSet :=
  ⟨rs.foldl (fun found (first, last) => insertRange ⟨first, last⟩ found) []⟩

def singleton (c : Char) : CharSet := ⟨[⟨c.toNat, c.toNat⟩]⟩

def all : CharSet := ⟨[⟨0, lastCode⟩]⟩

def contains (s : CharSet) (c : Char) : Bool :=
  s.ranges.any fun r => r.first ≤ c.toNat && c.toNat ≤ r.last

def isEmpty (s : CharSet) : Bool := s.ranges.isEmpty

def isAscii (s : CharSet) : Bool := s.ranges.all fun r => r.last < 0x80

def union (s t : CharSet) : CharSet :=
  ⟨s.ranges.foldl (fun found r => insertRange r found) t.ranges⟩

/-- What is left out from `start` on. -/
def gaps (start : Nat) : List Range → List Range
  | [] => if start ≤ lastCode then [⟨start, lastCode⟩] else []
  | r :: rest =>
    if start < r.first then ⟨start, r.first - 1⟩ :: gaps (r.last + 1) rest
    else gaps (r.last + 1) rest

def complement (s : CharSet) : CharSet := ⟨gaps 0 s.ranges⟩

def inter (s t : CharSet) : CharSet := (s.complement.union t.complement).complement

def diff (s t : CharSet) : CharSet := s.inter t.complement

def symmDiff (s t : CharSet) : CharSet := (s.union t).diff (s.inter t)

def movePart (first last : Nat) (move : Nat → Nat) (r : Range) : Option (Nat × Nat) :=
  if max r.first first ≤ min r.last last then
    some (move (max r.first first), move (min r.last last))
  else none

/-- With every ASCII letter comes the same letter in the other case. -/
def withBothCases (s : CharSet) : CharSet :=
  let lower := s.ranges.filterMap (movePart 0x41 0x5A (· + 0x20))
  let upper := s.ranges.filterMap (movePart 0x61 0x7A (· - 0x20))
  s.union (ofRanges (lower ++ upper))

/-- The sets that have a name, all of ASCII characters. -/
def named? : String → Option CharSet
  | "alnum" => some (ofRanges [(0x30, 0x39), (0x41, 0x5A), (0x61, 0x7A)])
  | "alpha" => some (ofRanges [(0x41, 0x5A), (0x61, 0x7A)])
  | "ascii" => some (ofRanges [(0, 0x7F)])
  | "blank" => some (ofRanges [(0x09, 0x09), (0x20, 0x20)])
  | "cntrl" => some (ofRanges [(0, 0x1F), (0x7F, 0x7F)])
  | "digit" => some (ofRanges [(0x30, 0x39)])
  | "graph" => some (ofRanges [(0x21, 0x7E)])
  | "lower" => some (ofRanges [(0x61, 0x7A)])
  | "print" => some (ofRanges [(0x20, 0x7E)])
  | "punct" => some (ofRanges [(0x21, 0x2F), (0x3A, 0x40), (0x5B, 0x60), (0x7B, 0x7E)])
  | "space" => some (ofRanges [(0x09, 0x0D), (0x20, 0x20)])
  | "upper" => some (ofRanges [(0x41, 0x5A)])
  | "word" => some (ofRanges [(0x30, 0x39), (0x41, 0x5A), (0x5F, 0x5F), (0x61, 0x7A)])
  | "xdigit" => some (ofRanges [(0x30, 0x39), (0x41, 0x46), (0x61, 0x66)])
  | _ => none

end CharSet

end RadioGateway.Pattern
