import TouchGestures.Proofs.Release.Journal

namespace TouchGestures

namespace Packet

variable {p : Packet} {consumed nonBlocking : Bool}

-- Settles the verdict of a packet that is changed in place.
def ackInPlace (consumed nonBlocking : Bool) : EStateM Violation Packet Unit := do
  let p ← get
  if !p.isPending then
    throw (.alreadyAcked p.eventId)
  modify fun p => { p with verdict := if consumed then .consumed else .unconsumed }
  modify fun p => { p with gestures := p.gestures.map fun g => { g with nonBlocking } }

theorem ack_of_isPending_eq_true (hp : p.isPending = true) :
    p.ack consumed nonBlocking = .ok (p.judged consumed nonBlocking) :=
  ack_eq_ok_iff.mpr ⟨hp, rfl⟩

theorem ack_of_isPending_eq_false (hp : p.isPending = false) :
    p.ack consumed nonBlocking = .error (.alreadyAcked p.eventId) := by
  simp [ack, hp]

-- It is settled as always, and a second time it is left as it is.
theorem run_ackInPlace (p : Packet) (consumed nonBlocking : Bool) :
    (ackInPlace consumed nonBlocking).run p =
      match p.ack consumed nonBlocking with
      | .ok acked => .ok () acked
      | .error violation => .error violation p := by
  cases hp : p.isPending with
  | true => simp [ackInPlace, ack_of_isPending_eq_true, hp, judged]
  | false => simp [ackInPlace, ack_of_isPending_eq_false, hp]

end Packet

namespace Release.Queue

variable {q q' : Queue} {c : Call} {id : EventId} {consumed nonBlocking : Bool}
  {gestures : List Gesture}

theorem headPending_of_packets_eq (h : q.HeadPending) (hpackets : q'.packets = q.packets) :
    q'.HeadPending := by
  unfold HeadPending
  rwa [hpackets]

-- Only the packets of alarms pass by without the queue being drained.
theorem headPending_call (h : q.HeadPending) (hcall : q.call c = .ok (gestures, q')) :
    q'.HeadPending := by
  cases c with
  | submit p =>
    cases hp : p.source.isTouch with
    | true =>
      rw [call, submit_touch hp, Except.ok.injEq] at hcall
      rw [show q' = (drain q.outlet (q.packets ++ [p])).2 by rw [hcall]]
      exact headPending_drain _ _
    | false => exact headPending_of_packets_eq h (submit_other hp hcall).2
  | ack id consumed nonBlocking =>
    obtain ⟨judged, -, hdrain⟩ := map_eq_ok.mp hcall
    rw [show q' = (drain q.outlet judged).2 by rw [hdrain]]
    exact headPending_drain _ _

-- Gives a packet of the queue its verdict. Whatever becomes of the packet is in the queue
-- then, also by a verdict that is refused.
def judgeAt (place : Nat) (consumed nonBlocking : Bool) : EStateM Violation Queue Unit :=
  fun q =>
    match q.packets[place]? with
    | none => .ok () q
    | some p =>
      match (Packet.ackInPlace consumed nonBlocking).run p with
      | .ok () p => .ok () { q with packets := q.packets.set place p }
      | .error violation p => .error violation { q with packets := q.packets.set place p }

-- Takes in the verdict on a touch, with the queue changed in place.
def ackInPlace (id : EventId) (consumed nonBlocking : Bool) :
    EStateM Violation Queue (List Gesture) := do
  let q ← get
  let some head := q.packets.head? | throw (.noPendingPacket id)
  if head.eventId = id then
    judgeAt 0 consumed nonBlocking
  else if q.packets.getLast?.any (·.eventId = id) then
    judgeAt (q.packets.length - 1) consumed nonBlocking
  else
    throw (.ackOutOfOrder head.eventId id)
  modifyGet fun q => drain q.outlet q.packets

-- A packet that is refused its verdict is written back as it was.
theorem run_judgeAt {place : Nat} {p : Packet} (hplace : q.packets[place]? = some p)
    (consumed nonBlocking : Bool) :
    (judgeAt place consumed nonBlocking).run q =
      match p.ack consumed nonBlocking with
      | .ok acked => .ok () { q with packets := q.packets.set place acked }
      | .error violation => .error violation q := by
  have hsame : q.packets.set place p = q.packets := by
    obtain ⟨hlt, rfl⟩ := List.getElem?_eq_some_iff.mp hplace
    exact List.set_getElem_self hlt
  change judgeAt place consumed nonBlocking q = _
  cases hack : p.ack consumed nonBlocking with
  | ok acked => simp only [judgeAt, hplace, Packet.run_ackInPlace, hack]
  | error violation => simp only [judgeAt, hplace, Packet.run_ackInPlace, hack, hsame]

-- How a verdict fares is decided by the numbers of the oldest and the newest packet.
theorem HeadPending.ack_cases (h : q.HeadPending) (id : EventId) (consumed nonBlocking : Bool) :
    (q.packets = [] ∧ q.ack id consumed nonBlocking = .error (.noPendingPacket id)) ∨
    ∃ head newest, q.packets.head? = some head ∧ q.packets.getLast? = some newest ∧
      (((head.eventId = id ∨ newest.eventId = id ∧ newest.isPending = true) ∧
          ∃ result, q.ack id consumed nonBlocking = .ok result) ∨
        (head.eventId ≠ id ∧ newest.eventId = id ∧ newest.isPending = false ∧
          q.ack id consumed nonBlocking = .error (.alreadyAcked id)) ∨
        (head.eventId ≠ id ∧ newest.eventId ≠ id ∧
          q.ack id consumed nonBlocking = .error (.ackOutOfOrder head.eventId id))) := by
  cases hq : q.packets with
  | nil => exact .inl ⟨rfl, by simp [ack, judge, hq]⟩
  | cons head rest =>
    right
    have hhead : head.isPending = true := h head (by simp [hq])
    by_cases hid : head.eventId = id
    · refine ⟨head, rest.getLast?.getD head, rfl, by simp [List.getLast?_cons], .inl ⟨.inl hid, ?_⟩⟩
      simp [ack, judge, hq, hid, Packet.ack_of_isPending_eq_true hhead]
    · cases hnewest : rest.getLast? with
      | none =>
        refine ⟨head, head, rfl, by simp [List.getLast?_cons, hnewest], .inr (.inr ⟨hid, hid, ?_⟩)⟩
        simp [ack, judge, hq, hid, hnewest]
      | some newest =>
        refine ⟨head, newest, rfl, by simp [List.getLast?_cons, hnewest], ?_⟩
        by_cases hlast : newest.eventId = id
        · cases hp : newest.isPending with
          | true =>
            refine .inl ⟨.inr ⟨hlast, rfl⟩, ?_⟩
            simp [ack, judge, hq, hid, hnewest, hlast, Packet.ack_of_isPending_eq_true hp]
          | false =>
            refine .inr (.inl ⟨hid, hlast, rfl, ?_⟩)
            simp [ack, judge, hq, hid, hnewest, hlast, Packet.ack_of_isPending_eq_false hp]
        · refine .inr (.inr ⟨hid, hlast, ?_⟩)
          simp [ack, judge, hq, hid, hnewest, hlast]

-- Changed in place, a queue comes to what it comes to otherwise, and a verdict that is refused
-- leaves nothing behind.
theorem run_ackInPlace (q : Queue) (id : EventId) (consumed nonBlocking : Bool) :
    (ackInPlace id consumed nonBlocking).run q =
      match q.ack id consumed nonBlocking with
      | .ok (gestures, q') => .ok gestures q'
      | .error violation => .error violation q := by
  cases hq : q.packets with
  | nil => simp [ackInPlace, ack, judge, hq, run_throw]
  | cons head rest =>
    by_cases hid : head.eventId = id
    · have hplace : q.packets[0]? = some head := by simp [hq]
      cases hack : head.ack consumed nonBlocking with
      | ok | error => simp [ackInPlace, ack, judge, hq, hid, run_judgeAt hplace, hack]
    · cases hnewest : rest.getLast? with
      | none => simp [ackInPlace, ack, judge, hq, hid, hnewest, List.getLast?_cons]
      | some newest =>
        obtain ⟨older, rfl⟩ := List.getLast?_eq_some_iff.mp hnewest
        have hplace : q.packets[older.length + 1]? = some newest := by simp [hq]
        by_cases hlast : newest.eventId = id
        · cases hack : newest.ack consumed nonBlocking with
          | ok | error =>
            simp [ackInPlace, ack, judge, hq, hid, hlast, List.getLast?_cons,
              run_judgeAt hplace, hack]
        · simp [ackInPlace, ack, judge, hq, hid, hlast, List.getLast?_cons]

theorem eq_of_run_ackInPlace {violation : Violation}
    (h : (ackInPlace id consumed nonBlocking).run q = .error violation q') : q' = q := by
  rw [run_ackInPlace] at h
  cases hack : q.ack id consumed nonBlocking with
  | ok result => simp [hack] at h
  | error other =>
    simp only [hack, EStateM.Result.error.injEq] at h
    exact h.2.symm

-- The queues of which anything may be asked. A verdict that is refused leaves the queue with
-- what was written into it until then.
inductive Reachable : Queue → Prop
  | start : Reachable {}
  | call {q q' : Queue} {c : Call} {gestures : List Gesture} (h : Reachable q)
    (hcall : q.call c = .ok (gestures, q')) : Reachable q'
  | refused {q q' : Queue} {id : EventId} {consumed nonBlocking : Bool} {violation : Violation}
    (h : Reachable q)
    (hack : (ackInPlace id consumed nonBlocking).run q = .error violation q') : Reachable q'
  | forgetHistory {q : Queue} (h : Reachable q) : Reachable q.forgetHistory

theorem Reachable.headPending (h : Reachable q) : q.HeadPending := by
  induction h with
  | start => exact headPending_nil {}
  | call _ hcall ih => exact headPending_call ih hcall
  | refused _ hack ih => rwa [eq_of_run_ackInPlace hack]
  | forgetHistory _ ih => exact ih

-- A verdict is taken in just if it is for the oldest packet, or for the newest and that has
-- none yet. Otherwise the queue says on which ground it is refused, and stays as it is.
theorem Reachable.ack_refused_iff (h : q.Reachable) (id : EventId) (consumed nonBlocking : Bool) :
    (∀ head ∈ q.packets.head?, head.isPending = true) ∧
    ((∃ result, q.ack id consumed nonBlocking = .ok result) ↔
      (∃ head ∈ q.packets.head?, head.eventId = id) ∨
        ∃ newest ∈ q.packets.getLast?, newest.eventId = id ∧ newest.isPending = true) ∧
    (q.ack id consumed nonBlocking = .error (.noPendingPacket id) ↔ q.packets = []) ∧
    (q.ack id consumed nonBlocking = .error (.alreadyAcked id) ↔
      (∃ head ∈ q.packets.head?, head.eventId ≠ id) ∧
        ∃ newest ∈ q.packets.getLast?, newest.eventId = id ∧ newest.isPending = false) ∧
    (∀ head ∈ q.packets.head?,
      q.ack id consumed nonBlocking = .error (.ackOutOfOrder head.eventId id) ↔
        head.eventId ≠ id ∧ ∀ newest ∈ q.packets.getLast?, newest.eventId ≠ id) ∧
    ∀ violation, q.ack id consumed nonBlocking = .error violation →
      (violation = .noPendingPacket id ∨ violation = .alreadyAcked id ∨
        ∃ head ∈ q.packets.head?, violation = .ackOutOfOrder head.eventId id) ∧
      (ackInPlace id consumed nonBlocking).run q = .error violation q := by
  have hunchanged : ∀ violation, q.ack id consumed nonBlocking = .error violation →
      (ackInPlace id consumed nonBlocking).run q = .error violation q := by
    intro violation hack
    rw [run_ackInPlace, hack]
  refine ⟨h.headPending, ?_⟩
  obtain ⟨hq, hack⟩ | ⟨head, newest, hhead, hnewest, hcase⟩ :=
    h.headPending.ack_cases id consumed nonBlocking
  · refine ⟨by simp [hq, hack], by simp [hq, hack], by simp [hq, hack], by simp [hq], ?_⟩
    intro violation hviolation
    exact ⟨.inl (by simpa [hack] using hviolation.symm), hunchanged violation hviolation⟩
  · have hsome : q.packets ≠ [] := by
      intro hnil
      simp [hnil] at hhead
    simp only [hhead, hnewest, Option.mem_some_iff, exists_eq_left', forall_eq', hsome, iff_false]
    obtain ⟨hid, result, hack⟩ | ⟨hid, hlast, hp, hack⟩ | ⟨hid, hlast, hack⟩ := hcase
    · have hjudged : ¬(head.eventId ≠ id ∧ newest.eventId = id ∧ newest.isPending = false) := by
        grind
      have hknown : ¬(head.eventId ≠ id ∧ newest.eventId ≠ id) := by
        grind
      exact ⟨by simp [hack, hid], by simp [hack], by simpa [hack] using hjudged,
        by simpa [hack] using hknown, by simp [hack]⟩
    · refine ⟨by simp [hack, hid, hlast, hp], by simp [hack], by simp [hack, hid, hlast, hp],
        by simp [hack, hlast], fun violation hviolation => ⟨?_, hunchanged violation hviolation⟩⟩
      exact .inr (.inl (Except.error.inj (hviolation.symm.trans hack)))
    · refine ⟨by simp [hack, hid, hlast], by simp [hack], by simp [hack, hlast],
        by simp [hack, hid, hlast],
        fun violation hviolation => ⟨?_, hunchanged violation hviolation⟩⟩
      exact .inr (.inr (Except.error.inj (hviolation.symm.trans hack)))

theorem reachable_of_kept {allowed : Call → Prop} {j : Journal} (h : Journal.Kept allowed j) :
    j.queue.Reachable := by
  induction h with
  | start => exact .start
  | step _ _ hj ih =>
    obtain ⟨⟨gestures, queue⟩, hcall, rfl⟩ := map_eq_ok.mp hj
    exact ih.call hcall

-- Three packets, of which the newest had its verdict before it was submitted, and the number
-- of the one ahead of it.
def judgedNewest : Queue :=
  (Journal.ofCalls [.submit (Journal.sample .sequenceStart 1 [.tapDown]),
    .submit (Journal.sample .touchMove 2 []),
    .submit { Journal.sample .touchMove 2 [] with verdict := .consumed }]).queue

theorem ack_refused_of_judgedNewest :
    judgedNewest.Reachable ∧ judgedNewest.pendingCount = 3 ∧
    (∃ result, judgedNewest.ack 1 false false = .ok result) ∧
    judgedNewest.ack 2 false false = .error (.alreadyAcked 2) ∧
    (ackInPlace 2 false false).run judgedNewest = .error (.alreadyAcked 2) judgedNewest ∧
    judgedNewest.ack 3 true false = .error (.ackOutOfOrder 1 3) := by
  have hreachable : judgedNewest.Reachable :=
    reachable_of_kept (Journal.kept_ofCalls fun _ _ => trivial)
  obtain ⟨-, htaken, -⟩ := hreachable.ack_refused_iff 1 false false
  obtain ⟨-, -, -, htwice, -, hunchanged⟩ := hreachable.ack_refused_iff 2 false false
  obtain ⟨-, -, -, -, hearly, -⟩ := hreachable.ack_refused_iff 3 true false
  have hjudged := htwice.mpr (by decide +kernel)
  refine ⟨hreachable, by decide +kernel, htaken.mpr (.inl (by decide +kernel)), hjudged,
    (hunchanged _ hjudged).2, ?_⟩
  exact (hearly (Journal.sample .sequenceStart 1 [.tapDown]) (by decide +kernel)).mpr
    (by decide +kernel)

end Release.Queue

end TouchGestures
