import RadioGateway.Chip.Model
import RadioGateway.Radio.Error

/-!
# The bus to the chip

Accesses to the chip can fail. The faults to come are a list; an access that meets one has no
effect. What did take effect is kept as a trace.
-/

namespace RadioGateway.Chip

open RadioGateway.Radio (BusError RadioError)

inductive AccessKind where
  | write
  | read
  | reset
  deriving DecidableEq, Repr

/-- A fault waits for an access of its kind, at its address if it has one, and lets `skip` of them
pass. -/
structure Fault where
  kind : AccessKind
  address : Option Address
  skip : Nat
  error : BusError
  deriving DecidableEq

inductive Access where
  | write (a : Address) (bytes : List UInt8)
  | read (a : Address) (bytes : List UInt8)
  | reset
  deriving DecidableEq

structure Board where
  chip : Chip
  faults : List Fault := []
  /-- Oldest first. -/
  trace : List Access := []
  /-- Failures of the next attempts to claim the bus. -/
  claimFaults : List BusError := []

def Fault.matches (f : Fault) (kind : AccessKind) (a : Option Address) : Bool :=
  f.kind = kind && (f.address.isNone || f.address = a)

/-- The fault that an access meets, and the faults that are left. -/
def meetFault (kind : AccessKind) (a : Option Address) : List Fault → Option BusError × List Fault
  | [] => (none, [])
  | f :: rest =>
    if f.matches kind a then
      match f.skip with
      | 0 => (some f.error, rest)
      | n + 1 =>
        let (met, rest) := meetFault kind a rest
        (met, { f with skip := n } :: rest)
    else
      let (met, rest) := meetFault kind a rest
      (met, f :: rest)

/-- Work on the board that can fail; what was done before a failure stays done. -/
abbrev Bus := EStateM RadioError Board

def access {α : Type} (kind : AccessKind) (a : Option Address)
    (effect : Board → α × Board) : Bus α :=
  fun b =>
    match meetFault kind a b.faults with
    | (some e, faults) => .error (.bus e) { b with faults }
    | (none, faults) =>
      let (x, b) := effect { b with faults }
      .ok x b

def Access.looksAtFlags : Access → Bool
  | .read a _ => a = Register.irqFlags
  | _ => false

/-- Looking at the interrupt flags again and seeing the same is not traced. -/
def Board.note (b : Board) (entry : Access) : Board :=
  if entry.looksAtFlags && b.trace.getLast? = some entry then b
  else { b with trace := b.trace ++ [entry] }

def writeBytes (a : Address) (bytes : List UInt8) : Bus Unit :=
  access .write (some a) fun b =>
    ((), { b with chip := b.chip.write a bytes }.note (.write a bytes))

def readBytes (a : Address) (count : Nat) : Bus (List UInt8) :=
  access .read (some a) fun b =>
    let (chip, bytes) := b.chip.read a count
    (bytes, { b with chip }.note (.read a bytes))

def resetChip : Bus Unit :=
  access .reset none fun b => ((), { b with chip := b.chip.reset }.note .reset)

def writeByte (a : Address) (b : UInt8) : Bus Unit := writeBytes a [b]

def readByte (a : Address) : Bus UInt8 := do
  return (← readBytes a 1).headD 0

def writeAll : List (Address × List UInt8) → Bus Unit
  | [] => pure ()
  | (a, bytes) :: rest => do
    writeBytes a bytes
    writeAll rest

def claim : Bus Unit := fun b =>
  match b.claimFaults with
  | [] => .ok () b
  | e :: rest => .error (.bus e) { b with claimFaults := rest }

/-- Looks at the interrupt flags after which nothing more happens by itself: flags that are raised
already have been seen, and every transmission, frame and fault that is due has had its turn. -/
def Board.due (b : Board) : Nat :=
  let arrivals := b.chip.arrivals.foldl (fun looks f => looks + f.after + 1) 0
  let faults := b.faults.foldl (fun looks f => looks + f.skip + 1) 0
  1 + b.chip.countdown.getD 0 + arrivals + faults

end RadioGateway.Chip
