import RadioGateway.Gateway.Buffer
import RadioGateway.Gateway.Stats
import RadioGateway.Log.Event

/-!
# The inbox

The buffer with its accounts: whatever is published is counted, and so is whatever is dropped.
-/

namespace RadioGateway.Gateway

open RadioGateway.Log (Event)
open RadioGateway.Radio (Frame Signal)

structure Inbox where
  buffer : Buffer
  stats : Stats := {}

namespace Inbox

def withCapacity (capacity : Nat) : Inbox := { buffer := .withCapacity capacity }

def publish (i : Inbox) (p : Packet) : Inbox × List Event :=
  if i.buffer.isFull then
    ({ i with stats := i.stats.recordDropped p.signal }, [.bufferFull i.buffer.capacity])
  else ({ buffer := i.buffer.push p, stats := i.stats.recordReceived p.signal }, [])

def accept (i : Inbox) (f : Frame) (timestamp : Float) : Inbox × List Event :=
  match Packet.ofFrame f timestamp with
  | .ok p =>
    let (i, log) := i.publish p
    (i, .received f.data.length f.signal :: log)
  | .error e => ({ i with stats := i.stats.recordDecodeError }, [.undecodable e])

def acceptSynthetic (i : Inbox) (timestamp : Float) : Inbox × List Event :=
  let (i, log) := i.publish (.synthetic timestamp)
  (i, .syntheticPacket :: log)

def drain (i : Inbox) : List Packet × Inbox :=
  let (packets, buffer) := i.buffer.drain
  (packets, { i with buffer })

theorem buffer_publish (i : Inbox) (p : Packet) : (i.publish p).1.buffer = i.buffer.push p := by
  unfold publish Buffer.push; split <;> simp_all

theorem received_publish (i : Inbox) (p : Packet) :
    (i.publish p).1.stats.received = i.stats.received + 1 := by
  unfold publish; split <;> rfl

theorem last_publish (i : Inbox) (p : Packet) : (i.publish p).1.stats.last = p.signal := by
  unfold publish; split <;> rfl

end Inbox

end RadioGateway.Gateway
