import TouchGestures.Release.Outlet

namespace TouchGestures.Release

-- The packets of touches whose gestures have not gone out yet, oldest first. Gestures
-- leave in the order of their touches, each once the verdict on its touch is known.
structure Queue where
  packets : List Packet := []
  outlet : Outlet := {}
  deriving DecidableEq

namespace Queue

def isEmpty (q : Queue) : Bool := q.packets.isEmpty

-- The number of packets that wait for a verdict or behind one that does.
def pendingCount (q : Queue) : Nat := q.packets.length

-- Releases packets from the front for as long as they have their verdict.
def drain (outlet : Outlet) : List Packet → List Gesture × Queue
  | [] => ([], ⟨[], outlet⟩)
  | p :: rest =>
    if p.isPending then ([], ⟨p :: rest, outlet⟩)
    else
      let (released, outlet) := outlet.release p
      let (others, q) := drain outlet rest
      (released ++ others, q)

-- Takes in a packet and gives the gestures that can go out at once. The packet of an
-- alarm does so ahead of all that are waiting.
def submit (q : Queue) (p : Packet) : Except Violation (List Gesture × Queue) :=
  match p.source with
  | .undetermined | .unattributable => .error (.unfilterableSource p.source)
  | .timeout =>
    let (released, outlet) := q.outlet.releaseTimeout p q.isEmpty
    .ok (released, { q with outlet })
  | _ => .ok (drain q.outlet (q.packets ++ [p]))

-- The packets after a verdict was noted. It must be for the oldest packet, or else for
-- the newest.
def judge (q : Queue) (id : EventId) (consumed nonBlocking : Bool) :
    Except Violation (List Packet) :=
  match q.packets with
  | [] => .error (.noPendingPacket id)
  | head :: rest =>
    if head.eventId = id then
      (head.ack consumed nonBlocking).map fun head => head :: rest
    else
      match rest.getLast? with
      | none => .error (.ackOutOfOrder head.eventId id)
      | some newest =>
        if newest.eventId = id then
          (newest.ack consumed nonBlocking).map fun newest => head :: rest.dropLast ++ [newest]
        else .error (.ackOutOfOrder head.eventId id)

-- Takes in the verdict on a touch and gives the gestures that can go out by it. The
-- newest packet is held until all before it are out.
def ack (q : Queue) (id : EventId) (consumed nonBlocking : Bool) :
    Except Violation (List Gesture × Queue) :=
  (q.judge id consumed nonBlocking).map (drain q.outlet)

-- Forgets what was suppressed and what is open, as when a stream changes hands.
def forgetHistory (q : Queue) : Queue := { q with outlet := {} }

theorem drain_of_isPending {p : Packet} (h : p.isPending = true) (outlet : Outlet)
    (rest : List Packet) : drain outlet (p :: rest) = ([], ⟨p :: rest, outlet⟩) := by
  simp [drain, h]

-- What is left after draining starts with a packet that has no verdict.
theorem isPending_of_head?_drain {p : Packet} (outlet : Outlet) (packets : List Packet)
    (h : (drain outlet packets).2.packets.head? = some p) : p.isPending = true := by
  induction packets generalizing outlet with
  | nil => cases h
  | cons q rest ih =>
    by_cases hq : q.isPending = true
    · rw [drain_of_isPending hq] at h
      cases h
      exact hq
    · rw [drain, if_neg hq] at h
      exact ih _ h

end Queue

end TouchGestures.Release
