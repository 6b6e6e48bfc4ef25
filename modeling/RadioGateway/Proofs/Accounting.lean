import RadioGateway.Proofs.Polling

/-!
# The accounts of the buffer

Whoever knows how many places there are, what was published and when it was polled knows the buffer
and the counters: which packets found room, which did not, what each poll brought and what is still
there.
-/

namespace RadioGateway.Gateway

open RadioGateway.Radio (Signal)

namespace Inbox

variable (i : Inbox)

-- ---------------------------------------------------------------------------
-- One deed
-- ---------------------------------------------------------------------------

/-- The packets of a deed that find fewer than `limit` packets queued. -/
def admitted (limit : Nat) : Deed → List Packet
  | .publish p => if i.packets.length < limit then [p] else []
  | _ => []

def refused (limit : Nat) : Deed → List Packet
  | .publish p => if i.packets.length < limit then [] else [p]
  | _ => []

/-- What a deed hands out. -/
def drained : Deed → List Packet
  | .poll => i.drain.1
  | _ => []

theorem size_buffer : i.buffer.size = i.packets.length := i.buffer.size_eq

theorem isFull_buffer : i.buffer.isFull = true ↔ ¬i.packets.length < i.buffer.capacity := by
  rw [Buffer.isFull_iff, Nat.not_lt]
  rfl

theorem isEmpty_buffer : i.buffer.isEmpty = i.packets.isEmpty := by
  rw [Bool.eq_iff_iff, Buffer.isEmpty_iff, List.isEmpty_iff_length_eq_zero]
  rfl

/-- A packet is queued, or it is dropped and the buffer stays as it is. -/
theorem publish_queues (p : Packet) : if i.packets.length < i.buffer.capacity
    then (i.publish p).1.packets = i.packets ++ [p] ∧ (i.publish p).2 = []
    else (i.publish p).1.packets = i.packets ∧
      (i.publish p).2 = [.bufferFull i.buffer.capacity] := by
  split
  · rename_i h
    have hroom : ¬i.buffer.isFull = true := fun hf => i.isFull_buffer.mp hf h
    simp [packets, Buffer.packets_push, publish, hroom]
  · rename_i h
    have hfull : i.buffer.isFull = true := i.isFull_buffer.mpr h
    simp [packets, publish, hfull]

theorem accepted_eq_admitted (d : Deed) : i.accepted d = i.admitted i.buffer.capacity d := by
  cases d with
  | publish p =>
    by_cases h : i.packets.length < i.buffer.capacity <;>
      simp [accepted, admitted, isFull_buffer, h]
  | discard | poll | sent => rfl

theorem taken_eq_drained (d : Deed) : i.taken d = i.drained d := by cases d <;> rfl

theorem capacity_perform (d : Deed) : (i.perform d).buffer.capacity = i.buffer.capacity := by
  cases d with
  | publish p => rw [perform, buffer_publish, Buffer.capacity_push]
  | discard | poll | sent => rfl

theorem dropped_perform (d : Deed) : (i.perform d).stats.dropped =
    i.stats.dropped + (i.refused i.buffer.capacity d).length := by
  cases d with
  | publish p =>
    by_cases h : i.packets.length < i.buffer.capacity <;>
      simp [perform, publish, refused, isFull_buffer, h, Stats.recordDropped, Stats.recordReceived]
  | discard | poll | sent => rfl

theorem last_perform (d : Deed) :
    (i.perform d).stats.last = (d.published?.map Prod.snd).getD i.stats.last := by
  cases d with
  | publish p => exact last_publish i p
  | discard | poll | sent => rfl

-- ---------------------------------------------------------------------------
-- Any number of deeds
-- ---------------------------------------------------------------------------

theorem capacity_foldl (ds : List Deed) :
    (ds.foldl perform i).buffer.capacity = i.buffer.capacity := by
  induction ds generalizing i with
  | nil => rfl
  | cons d ds ih => rw [List.foldl_cons, ih, capacity_perform]

/-- Two views that agree wherever the capacity is the same see the same history. -/
theorem history_congr {see see' : Inbox → Deed → List Packet}
    (h : ∀ j d, j.buffer.capacity = i.buffer.capacity → see j d = see' j d) (ds : List Deed) :
    i.history see ds = i.history see' ds := by
  induction ds generalizing i with
  | nil => rfl
  | cons d ds ih =>
    have hrest : (i.perform d).history see ds = (i.perform d).history see' ds :=
      ih _ fun j e hj => h j e (hj.trans (i.capacity_perform d))
    rw [history, history, h i d rfl, hrest]

theorem dropped_foldl (ds : List Deed) : (ds.foldl perform i).stats.dropped =
    i.stats.dropped + (i.history (refused · i.buffer.capacity) ds).length := by
  induction ds generalizing i with
  | nil => rfl
  | cons d ds ih =>
    rw [List.foldl_cons, ih, dropped_perform, capacity_perform, history, List.length_append,
      Nat.add_assoc]

theorem last_foldl (ds : List Deed) : (ds.foldl perform i).stats.last =
    ((ds.filterMap Deed.published?).getLast?.map Prod.snd).getD i.stats.last := by
  induction ds generalizing i with
  | nil => rfl
  | cons d ds ih =>
    rw [List.foldl_cons, ih, last_perform, List.filterMap_cons]
    cases d.published? with
    | none => rfl
    | some x => cases h : (ds.filterMap Deed.published?).getLast? <;> simp [List.getLast?_cons, h]

/-- Packets are admitted in the order in which they are published. -/
theorem admitted_sublist (limit : Nat) (ds : List Deed) :
    ((i.history (admitted · limit) ds).map Packet.view).Sublist (ds.filterMap Deed.published?) := by
  induction ds generalizing i with
  | nil => exact .refl _
  | cons d ds ih =>
    rw [history, List.map_append]
    cases d with
    | publish p =>
      have hp : ((i.admitted limit (.publish p)).map Packet.view).Sublist [p.view] := by
        simp only [admitted]
        split <;> simp
      exact hp.append (ih _)
    | discard | poll | sent => exact ih _

end Inbox

-- ---------------------------------------------------------------------------
-- The accounts
-- ---------------------------------------------------------------------------

/-- The accounts are exact after whatever was done to an inbox. The next packet is admitted if fewer
than `max capacity 1` packets are queued; if not, nothing is queued and that is reported. The
packets that were drained and those that are queued are those that were admitted, in order. Received
are all that were published and dropped are those that were refused, so that what has been received
and not been dropped has been drained or is queued. The last signal is that of the last packet
published, whatever became of it. The buffer's size, emptiness and free places are those of the
queue, and who drains it twice finds nothing. -/
theorem accounts_exact (capacity : Nat) (ds : List Deed) :
    let limit := max capacity 1
    let empty := Inbox.withCapacity capacity
    let i := ds.foldl Inbox.perform empty
    let published := ds.filterMap Deed.published?
    let admitted := empty.history (Inbox.admitted · limit) ds
    let refused := empty.history (Inbox.refused · limit) ds
    let drained := empty.history Inbox.drained ds
    (∀ p : Packet, if i.packets.length < limit
      then (i.publish p).1.packets = i.packets ++ [p] ∧ (i.publish p).2 = []
      else (i.publish p).1.packets = i.packets ∧ (i.publish p).2 = [.bufferFull limit]) ∧
    admitted = drained ++ i.packets ∧
    (admitted.map Packet.view).Sublist published ∧
    i.stats.received = published.length ∧
    i.stats.dropped = refused.length ∧
    i.stats.received = i.stats.dropped + (drained.length + i.packets.length) ∧
    i.stats.last = (published.getLast?.map Prod.snd).getD {} ∧
    i.buffer.size = i.packets.length ∧
    i.buffer.isEmpty = i.packets.isEmpty ∧
    i.packets.length + i.buffer.free = limit ∧
    i.drain.1 = i.packets ∧
    i.drain.2.drain.1 = [] := by
  intro limit empty i published admitted refused drained
  have hcapacity : i.buffer.capacity = limit := empty.capacity_foldl ds
  have hadmitted : admitted = empty.history Inbox.accepted ds :=
    empty.history_congr (fun j d hj => by rw [j.accepted_eq_admitted, hj]; rfl) ds
  have hdrained : drained = empty.history Inbox.taken ds :=
    empty.history_congr (fun j d _ => (j.taken_eq_drained d).symm) ds
  have hqueue : admitted = drained ++ i.packets := by
    rw [hadmitted, hdrained]
    exact empty.packets_foldl ds
  have hlength : admitted.length + i.stats.dropped = i.stats.received := by
    rw [hadmitted]
    exact empty.length_accepted ds
  refine ⟨hcapacity ▸ i.publish_queues, hqueue, empty.admitted_sublist limit ds, ?_, ?_, ?_,
    empty.last_foldl ds, i.size_buffer, i.isEmpty_buffer,
    i.buffer.balanced.trans hcapacity, rfl, rfl⟩
  · exact (received_foldl ds empty).trans (Nat.zero_add _)
  · exact (empty.dropped_foldl ds).trans (Nat.zero_add _)
  · rw [← List.length_append, ← hqueue]
    omega

end RadioGateway.Gateway
