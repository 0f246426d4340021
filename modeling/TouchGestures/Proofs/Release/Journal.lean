import Mathlib.Data.List.ModifyLast
import Mathlib.Data.List.TakeWhile
import TouchGestures.Proofs.Outcome
import TouchGestures.Proofs.Release.Fate

namespace TouchGestures

namespace Packet

variable {p q : Packet} {consumed nonBlocking : Bool}

def judged (p : Packet) (consumed nonBlocking : Bool) : Packet :=
  { p with
    verdict := if consumed then .consumed else .unconsumed
    gestures := p.gestures.map fun g => { g with nonBlocking } }

theorem ack_eq_ok_iff : p.ack consumed nonBlocking = .ok q ↔
    p.isPending = true ∧ p.judged consumed nonBlocking = q := by
  unfold ack
  split
  · next hp => simp [judged, hp]
  · next hp => simp [hp]

end Packet

namespace Release

namespace Queue

variable {first second submitted judged : List Packet} {q q' : Queue} {gestures : List Gesture}
  {id : EventId} {consumed nonBlocking : Bool}

theorem isPending_of_mem_ready {p : Packet} (hp : p ∈ ready first) : p.isPending = false := by
  simpa using List.mem_takeWhile_imp hp

-- What is ready stays so, and what waits decides on the rest.
theorem ready_append_eq (first second : List Packet) :
    ready (first ++ second) = ready first ++ ready (waiting first ++ second) := by
  have hready : ∀ p ∈ ready first, (!p.isPending) = true := by
    intro p hp
    simp [isPending_of_mem_ready hp]
  calc ready (first ++ second)
      = ready (ready first ++ (waiting first ++ second)) := by
        rw [← List.append_assoc, ready_append_waiting]
    _ = ready first ++ ready (waiting first ++ second) := List.takeWhile_append_of_pos hready

theorem waiting_append_eq (first second : List Packet) :
    waiting (first ++ second) = waiting (waiting first ++ second) := by
  have hready : ∀ p ∈ ready first, (!p.isPending) = true := by
    intro p hp
    simp [isPending_of_mem_ready hp]
  calc waiting (first ++ second)
      = waiting (ready first ++ (waiting first ++ second)) := by
        rw [← List.append_assoc, ready_append_waiting]
    _ = waiting (waiting first ++ second) := List.dropWhile_append_of_pos hready

-- What waits no longer is what was ready and what has become so.
theorem ready_of_ready_append (hready : ∀ p ∈ first, p.isPending = false)
    (second : List Packet) :
    ready (first ++ second) = first ++ ready second ∧
      waiting (first ++ second) = waiting second := by
  have hnot : ∀ p ∈ first, (!p.isPending) = true := by simpa using hready
  exact ⟨List.takeWhile_append_of_pos hnot, List.dropWhile_append_of_pos hnot⟩

-- The submitted packets after a verdict. It is for the oldest packet that has none, if that
-- is the packet of the touch, and otherwise for the newest.
def resolve (submitted : List Packet) (id : EventId) (consumed nonBlocking : Bool) :
    List Packet :=
  match waiting submitted with
  | [] => submitted
  | oldest :: rest =>
    if oldest.eventId = id then ready submitted ++ oldest.judged consumed nonBlocking :: rest
    else submitted.modifyLast (·.judged consumed nonBlocking)

-- A verdict that is accepted reaches the packet it is for.
theorem resolve_eq (hq : q.packets = waiting submitted)
    (h : q.judge id consumed nonBlocking = .ok judged) :
    resolve submitted id consumed nonBlocking = ready submitted ++ judged := by
  unfold judge at h
  rw [hq] at h
  unfold resolve
  cases hwaiting : waiting submitted with
  | nil => simp [hwaiting] at h
  | cons oldest rest =>
    simp only [hwaiting] at h ⊢
    by_cases hid : oldest.eventId = id
    · rw [if_pos hid, map_eq_ok] at h
      obtain ⟨acked, hack, rfl⟩ := h
      rw [if_pos hid, (Packet.ack_eq_ok_iff.mp hack).2]
    · rw [if_neg hid] at h ⊢
      cases hnewest : rest.getLast? with
      | none => simp [hnewest] at h
      | some newest =>
        simp only [hnewest] at h
        split at h
        · rw [map_eq_ok] at h
          obtain ⟨acked, hack, rfl⟩ := h
          obtain ⟨older, rfl⟩ := List.getLast?_eq_some_iff.mp hnewest
          have hsubmitted : submitted = (ready submitted ++ oldest :: older) ++ [newest] := by
            rw [List.append_assoc, List.cons_append, ← hwaiting, ready_append_waiting]
          rw [hsubmitted, List.modifyLast_concat, ← hsubmitted, (Packet.ack_eq_ok_iff.mp hack).2]
          simp
        · cases h

inductive Call
  | submit (p : Packet)
  | ack (id : EventId) (consumed nonBlocking : Bool)
  deriving DecidableEq

def call (q : Queue) : Call → Except Violation (List Gesture × Queue)
  | .submit p => q.submit p
  | .ack id consumed nonBlocking => q.ack id consumed nonBlocking

-- The packets of touches that were submitted, with their verdicts so far, after a call. The
-- packets of alarms do not wait for any.
def Call.note (submitted : List Packet) : Call → List Packet
  | .submit p => if p.source.isTouch then submitted ++ [p] else submitted
  | .ack id consumed nonBlocking => resolve submitted id consumed nonBlocking

def itemsBy (q : Queue) : Call → List Item
  | .submit p =>
    if p.source.isTouch then (ready (q.packets ++ [p])).map .packet else [.alarm p q.isEmpty]
  | .ack id consumed nonBlocking =>
    match q.judge id consumed nonBlocking with
    | .ok judged => (ready judged).map .packet
    | .error _ => []

theorem forgotten_notMem_itemsBy (q : Queue) (c : Call) : .forgotten ∉ q.itemsBy c := by
  cases c with
  | submit p =>
    simp only [itemsBy]
    split <;> simp
  | ack id consumed nonBlocking =>
    simp only [itemsBy]
    split <;> simp

theorem submit_touch {p : Packet} (hp : p.source.isTouch = true) :
    q.submit p = .ok (drain q.outlet (q.packets ++ [p])) := by
  unfold submit
  cases hsource : p.source <;> simp_all [Packet.Source.isTouch]

theorem submit_other {p : Packet} (hp : p.source.isTouch = false)
    (h : q.submit p = .ok (gestures, q')) :
    q.outlet.releaseTimeout p q.isEmpty = (gestures, q'.outlet) ∧ q'.packets = q.packets := by
  unfold submit at h
  split at h
  · cases h
  · cases h
  · cases h
    exact ⟨rfl, rfl⟩
  · -- What is left are the sources of touches.
    cases hsource : p.source <;> simp_all [Packet.Source.isTouch]

-- A call lets out what the outlet makes of the items it deals with.
theorem replay_itemsBy {c : Call} (h : q.call c = .ok (gestures, q')) :
    q.outlet.replay (q.itemsBy c) = (gestures, q'.outlet) := by
  cases c with
  | submit p =>
    simp only [call, itemsBy] at h ⊢
    cases hp : p.source.isTouch with
    | true =>
      rw [submit_touch hp, drain_eq, Except.ok.injEq, Prod.mk.injEq] at h
      obtain ⟨rfl, rfl⟩ := h
      simp
    | false =>
      rw [if_neg (by simp), Outlet.replay_singleton, Outlet.take, (submit_other hp h).1]
  | ack id consumed nonBlocking =>
    simp only [call, Queue.ack] at h
    obtain ⟨judged, hjudge, hdrain⟩ := map_eq_ok.mp h
    rw [drain_eq, Prod.mk.injEq] at hdrain
    obtain ⟨rfl, rfl⟩ := hdrain
    simp [itemsBy, hjudge]

-- The items of a call are packets that were submitted and are ready now, and what it leaves
-- in the queue are those that still wait.
theorem ready_note {c : Call} (hq : q.packets = waiting submitted)
    (h : q.call c = .ok (gestures, q')) :
    ready (c.note submitted) = ready submitted ++ packetsOf (q.itemsBy c) ∧
      waiting (c.note submitted) = q'.packets := by
  cases c with
  | submit p =>
    simp only [call, itemsBy, Call.note] at h ⊢
    cases hp : p.source.isTouch with
    | true =>
      rw [submit_touch hp, drain_eq, Except.ok.injEq, Prod.mk.injEq] at h
      obtain ⟨-, rfl⟩ := h
      simp only [if_true, packetsOf_map_packet, hq]
      exact ⟨ready_append_eq submitted [p], waiting_append_eq submitted [p]⟩
    | false =>
      rw [if_neg (by simp), if_neg (by simp), (submit_other hp h).2, hq]
      simp
  | ack id consumed nonBlocking =>
    simp only [call, Queue.ack] at h
    obtain ⟨judged, hjudge, hdrain⟩ := map_eq_ok.mp h
    rw [drain_eq, Prod.mk.injEq] at hdrain
    obtain ⟨-, rfl⟩ := hdrain
    have hresolve := resolve_eq hq hjudge
    simp only [Call.note, itemsBy, hjudge, hresolve, packetsOf_map_packet]
    exact ready_of_ready_append (fun _ => isPending_of_mem_ready) judged

end Queue

-- A queue with the record of its life: the packets of touches that were submitted, with
-- their verdicts so far, what the outlet dealt with, and the gestures that were released.
structure Journal where
  queue : Queue := {}
  submitted : List Packet := []
  items : List Item := []
  released : List Gesture := []
  deriving DecidableEq

namespace Journal

open Queue (ready waiting)

variable {j j' : Journal} {c : Queue.Call}

def step (j : Journal) (c : Queue.Call) : Except Violation Journal :=
  (j.queue.call c).map fun (gestures, queue) =>
    { queue
      submitted := c.note j.submitted
      items := j.items ++ j.queue.itemsBy c
      released := j.released ++ gestures }

def run (j : Journal) : List Queue.Call → Except Violation Journal
  | [] => .ok j
  | c :: rest => do
    let j ← j.step c
    j.run rest

-- The journals of queues of which nothing is asked but what is allowed.
inductive Kept (allowed : Queue.Call → Prop) : Journal → Prop
  | start : Kept allowed {}
  | step {j j' : Journal} {c : Queue.Call} (h : Kept allowed j) (hc : allowed c)
      (hj : j.step c = .ok j') : Kept allowed j'

theorem Kept.run {allowed : Queue.Call → Prop} {calls : List Queue.Call} (h : Kept allowed j)
    (hcalls : ∀ c ∈ calls, allowed c) (hrun : j.run calls = .ok j') : Kept allowed j' := by
  induction calls generalizing j with
  | nil =>
    cases hrun
    exact h
  | cons c rest ih =>
    obtain ⟨between, hstep, hrest⟩ := bind_eq_ok.mp hrun
    exact ih (h.step (hcalls c (by simp)) hstep) (fun c hc => hcalls c (by simp [hc])) hrest

-- What holds of a queue all its life: the outlet has dealt with the packets that were ready,
-- in the order in which they were submitted, and the others are still queued.
structure Sound (j : Journal) : Prop where
  ready : packetsOf j.items = ready j.submitted
  waiting : j.queue.packets = waiting j.submitted
  replay : Outlet.replay {} j.items = (j.released, j.queue.outlet)
  unforgotten : .forgotten ∉ j.items

theorem sound_start : Sound {} where
  ready := rfl
  waiting := rfl
  replay := rfl
  unforgotten := by simp

theorem Sound.step (h : j.Sound) (hj : j.step c = .ok j') : j'.Sound := by
  obtain ⟨⟨gestures, queue⟩, hcall, rfl⟩ := map_eq_ok.mp hj
  obtain ⟨hready, hwaiting⟩ := Queue.ready_note h.waiting hcall
  refine ⟨?_, hwaiting.symm, ?_, ?_⟩
  · rw [packetsOf_append, h.ready, hready]
  · rw [Outlet.replay_append, h.replay, Queue.replay_itemsBy hcall]
  · rw [List.mem_append, not_or]
    exact ⟨h.unforgotten, Queue.forgotten_notMem_itemsBy j.queue c⟩

theorem Kept.sound {allowed : Queue.Call → Prop} (h : Kept allowed j) : j.Sound := by
  induction h with
  | start => exact sound_start
  | step _ _ hj ih => exact ih.step hj

def ofCalls (calls : List Queue.Call) : Journal :=
  match ({} : Journal).run calls with
  | .ok j => j
  | .error _ => {}

theorem kept_ofCalls {allowed : Queue.Call → Prop} {calls : List Queue.Call}
    (hcalls : ∀ c ∈ calls, allowed c) : Kept allowed (ofCalls calls) := by
  unfold ofCalls
  split
  · next j hj => exact Kept.start.run hcalls hj
  · exact Kept.start

-- A packet that awaits its verdict, with some gestures of one finger at rest.
def sample (source : Packet.Source) (id : EventId) (payloads : List Gesture.Payload) :
    Packet where
  source := source
  time := 0
  place := Place.origin
  eventId := id
  verdict := .pending
  gestures := payloads.map fun payload =>
    { payload, contactId := 0, tool := .finger, time := 0, place := Place.origin,
      contactCount := 1, bounds := Rect.zero, synthesized := false, eventId := id,
      nonBlocking := false }

end Journal

end Release

end TouchGestures
