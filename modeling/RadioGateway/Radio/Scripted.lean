import RadioGateway.Radio.Error
import RadioGateway.Radio.Frame

/-!
# A scripted radio

A radio without hardware that does what it is told beforehand: it hands out queued frames and
failures in order, refuses the next opening or transmission on request, and keeps account of all
that it was asked to do.
-/

namespace RadioGateway.Radio

/-- What a receive is to come to. -/
inductive Inbound where
  | frame (f : Frame)
  | failure (reason : String)
  | crash

structure ScriptedRadio where
  inbound : List Inbound := []
  transmitted : List (List UInt8) := []
  opened : List Config := []
  nextOpenError : Option String := none
  nextSendError : Option String := none
  /-- Milliseconds that an opening takes. -/
  openDelay : Nat := 0
  sleeps : Nat := 0

namespace ScriptedRadio

def openWith (r : ScriptedRadio) (c : Config) : ScriptedRadio × Except RadioError Unit :=
  match r.nextOpenError with
  | some reason => ({ r with nextOpenError := none }, .error (.device reason))
  | none => ({ r with opened := r.opened ++ [c] }, .ok ())

def transmit (r : ScriptedRadio) (payload : List UInt8) : ScriptedRadio × Except RadioError Unit :=
  match r.nextSendError with
  | some reason => ({ r with nextSendError := none }, .error (.device reason))
  | none => ({ r with transmitted := r.transmitted ++ [payload] }, .ok ())

def takeInbound (r : ScriptedRadio) : ScriptedRadio × Option Inbound :=
  match r.inbound with
  | [] => (r, none)
  | x :: rest => ({ r with inbound := rest }, some x)

def goToSleep (r : ScriptedRadio) : ScriptedRadio := { r with sleeps := r.sleeps + 1 }

end ScriptedRadio

def crashMessage : String := "mock radio panicked during receive"

end RadioGateway.Radio
