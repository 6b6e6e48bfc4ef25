import RadioGateway.Text.Hex
import RadioGateway.Text.Parts

/-!
# Addresses to listen on

A host is written as an address of 32 bits, in one to four parts, or as one of 128 bits, or as the
name of this machine. A program can listen at the addresses that every machine has.
-/

namespace RadioGateway.CommandLine

def readNumber (base : Nat) (digits : List Char) : Option Nat :=
  if digits.isEmpty then none
  else
    digits.foldl (fun n c => do
      let d ← digitOf c
      if d < base then some ((← n) * base + d) else none) (some 0)
where
  digitOf (c : Char) : Option Nat :=
    if c.toNat < 0x80 then Text.hexValue? (UInt8.ofNat c.toNat) else none

/-! ## Addresses of 32 bits -/

/-- A part of an address: hexadecimal behind `0x`, octal behind `0`, or decimal. -/
def readPart : List Char → Option Nat
  | '0' :: 'x' :: digits | '0' :: 'X' :: digits => readNumber 16 digits
  | '0' :: digits => if digits.isEmpty then some 0 else readNumber 8 digits
  | digits => readNumber 10 digits

/-- Parts of eight bits each; the last takes up the bits that remain. -/
def joinParts (parts : List Nat) : Option Nat :=
  match parts.reverse with
  | [] => none
  | last :: before =>
    let count := before.length
    if count ≤ 3 ∧ before.all (· ≤ 255) ∧ last < 1 <<< (8 * (4 - count)) then
      some (before.reverse.foldl (fun n part => n * 256 + part) 0 * 1 <<< (8 * (4 - count)) + last)
    else none

def readIpv4 (text : List Char) : Option Nat :=
  do joinParts (← (Text.splitAt '.' text).mapM readPart)

/-! ## Addresses of 128 bits -/

def readOctet (digits : List Char) : Option Nat := do
  let n ← readNumber 10 digits
  if n ≤ 255 ∧ (digits.length = 1 ∨ digits.head? ≠ some '0') then some n else none

def readGroup (digits : List Char) : Option Nat :=
  if digits.length ≤ 4 then readNumber 16 digits else none

/-- The last two groups may be written as four octets. -/
def readGroups (octets : Bool) : List (List Char) → Option (List Nat)
  | [] => some []
  | [last] =>
    match Text.splitAt '.' last with
    | [a, b, c, d] => do
      if octets then
        some [(← readOctet a) * 256 + (← readOctet b), (← readOctet c) * 256 + (← readOctet d)]
      else none
    | _ => (readGroup last).map ([·])
  | group :: rest => do some ((← readGroup group) :: (← readGroups octets rest))

def splitGap : List Char → Option (List Char × List Char)
  | [] => none
  | ':' :: ':' :: rest => some ([], rest)
  | c :: rest => (splitGap rest).map fun (before, after) => (c :: before, after)

def readSide (octets : Bool) (text : List Char) : Option (List Nat) :=
  if text.isEmpty then some [] else readGroups octets (Text.splitAt ':' text)

/-- Eight groups. Two colons stand for as many groups of zero as are missing, at least one. -/
def readIpv6 (text : List Char) : Option (List Nat) := do
  match splitGap text with
  | none =>
    let groups ← readSide true text
    if groups.length = 8 then some groups else none
  | some (before, after) =>
    let before ← readSide false before
    let after ← readSide true after
    let missing := 8 - (before.length + after.length)
    if missing = 0 then none else some (before ++ List.replicate missing 0 ++ after)

/-- An address of 128 bits, which may name a network by its number behind a percent sign. -/
def readScopedIpv6 (text : List Char) : Option (List Nat) := do
  match Text.splitAt '%' text with
  | [address] => readIpv6 address
  | [address, scope] => if (← readNumber 10 scope) < UInt32.size then readIpv6 address else none
  | _ => none

/-! ## Listening -/

/-- All addresses of a machine at once, those that lead back to it, those of groups, and the one of
all. -/
def isListenableIpv4 (n : Nat) : Bool :=
  let first := n / 0x1000000
  n = 0 || first = 127 || (224 ≤ first && first < 240) || n = 0xFFFFFFFF

/-- All addresses at once, or one of 32 bits in the notation of those of 128. -/
def isListenableIpv6 (groups : List Nat) : Bool :=
  match groups with
  | [0, 0, 0, 0, 0, 0, 0, 0] => true
  | [0, 0, 0, 0, 0, 0xFFFF, high, low] => isListenableIpv4 (high * 0x10000 + low)
  | _ => false

/-- Without the square brackets around it. -/
def unbracket : List Char → List Char
  | '[' :: rest => if rest.getLast? = some ']' then rest.dropLast else '[' :: rest
  | text => text

/-- Whether a program can listen at a host. -/
def isListenable (host : String) : Bool :=
  let text := host.toList
  text.map Char.toLower = "localhost".toList ||
    (readIpv4 text).any isListenableIpv4 ||
    (readScopedIpv6 (unbracket text)).any isListenableIpv6

end RadioGateway.CommandLine
