import TouchGestures.Release.Queue

namespace TouchGestures

namespace Packet

def unjudged (p : Packet) : Packet :=
  { p with
    verdict := .pending
    gestures := p.gestures.map fun g => { g with nonBlocking := false } }

theorem unjudged_of_ack {p q : Packet} {consumed nonBlocking : Bool}
    (h : p.ack consumed nonBlocking = .ok q) : q.unjudged = p.unjudged := by
  unfold ack at h
  split at h
  · cases h
    simp [unjudged]
  · cases h

theorem source_eq_of_unjudged {p q : Packet} (h : p.unjudged = q.unjudged) :
    p.source = q.source := by
  simpa [unjudged] using congrArg Packet.source h

theorem eventId_eq_of_unjudged {p q : Packet} (h : p.unjudged = q.unjudged) :
    p.eventId = q.eventId := by
  simpa [unjudged] using congrArg Packet.eventId h

end Packet

namespace Release

-- What an outlet has dealt with, one thing after the other.
inductive Item
  -- The packet of a touch was released.
  | packet (p : Packet)
  -- An alarm went out, with suppression if nothing was waiting.
  | alarm (p : Packet) (suppressing : Bool)
  -- What was suppressed and open was forgotten.
  | forgotten
  deriving DecidableEq

namespace Item

def packet? : Item → Option Packet
  | .packet p => some p
  | _ => none

end Item

def packetsOf (items : List Item) : List Packet := items.filterMap Item.packet?

@[simp] theorem packetsOf_nil : packetsOf [] = [] := rfl

@[simp] theorem packetsOf_append (first second : List Item) :
    packetsOf (first ++ second) = packetsOf first ++ packetsOf second := by
  simp [packetsOf]

@[simp] theorem packetsOf_map_packet (packets : List Packet) :
    packetsOf (packets.map .packet) = packets := by
  induction packets with
  | nil => rfl
  | cons p rest ih => simpa [packetsOf, Item.packet?] using ih

@[simp] theorem packetsOf_packet_cons (p : Packet) (rest : List Item) :
    packetsOf (.packet p :: rest) = p :: packetsOf rest := rfl

@[simp] theorem packetsOf_alarm_cons (p : Packet) (suppressing : Bool) (rest : List Item) :
    packetsOf (.alarm p suppressing :: rest) = packetsOf rest := rfl

@[simp] theorem packetsOf_forgotten_cons (rest : List Item) :
    packetsOf (.forgotten :: rest) = packetsOf rest := rfl

-- The alarms among some items only show presses or find them long.
def PressAlarms (items : List Item) : Prop :=
  ∀ p suppressing, .alarm p suppressing ∈ items →
    ∀ g ∈ p.gestures, g.kind = .showPress ∨ g.kind = .longPress

theorem PressAlarms.append {first second : List Item} (hfirst : PressAlarms first)
    (hsecond : PressAlarms second) : PressAlarms (first ++ second) := by
  intro p suppressing hp
  rcases List.mem_append.mp hp with hp | hp
  · exact hfirst p suppressing hp
  · exact hsecond p suppressing hp

theorem PressAlarms.of_append_left {first second : List Item}
    (h : PressAlarms (first ++ second)) : PressAlarms first :=
  fun p suppressing hp => h p suppressing (List.mem_append_left _ hp)

theorem PressAlarms.of_append_right {first second : List Item}
    (h : PressAlarms (first ++ second)) : PressAlarms second :=
  fun p suppressing hp => h p suppressing (List.mem_append_right _ hp)

theorem pressAlarms_map_packet (packets : List Packet) :
    PressAlarms (packets.map .packet) := by
  intro p suppressing hp
  simp at hp

namespace Outlet

def take (o : Outlet) : Item → List Gesture × Outlet
  | .packet p => o.release p
  | .alarm p suppressing => o.releaseTimeout p suppressing
  | .forgotten => ([], {})

def replay (o : Outlet) : List Item → List Gesture × Outlet
  | [] => ([], o)
  | item :: rest =>
    let (first, o) := o.take item
    let (others, o) := o.replay rest
    (first ++ others, o)

@[simp] theorem replay_nil (o : Outlet) : o.replay [] = ([], o) := rfl

theorem replay_cons (o : Outlet) (item : Item) (rest : List Item) :
    o.replay (item :: rest) =
      ((o.take item).1 ++ ((o.take item).2.replay rest).1, ((o.take item).2.replay rest).2) := rfl

theorem replay_append (o : Outlet) (first second : List Item) :
    o.replay (first ++ second) =
      ((o.replay first).1 ++ ((o.replay first).2.replay second).1,
        ((o.replay first).2.replay second).2) := by
  induction first generalizing o with
  | nil => simp
  | cons item rest ih => simp [replay_cons, ih]

theorem replay_singleton (o : Outlet) (item : Item) : o.replay [item] = o.take item := by
  simp [replay_cons]

end Outlet

namespace Queue

variable {q : Queue} {packets : List Packet}

def ready (packets : List Packet) : List Packet := packets.takeWhile fun p => !p.isPending

def waiting (packets : List Packet) : List Packet := packets.dropWhile fun p => !p.isPending

theorem ready_append_waiting (packets : List Packet) :
    ready packets ++ waiting packets = packets := List.takeWhile_append_dropWhile

-- Draining releases what is ready and keeps what waits.
theorem drain_eq (outlet : Outlet) (packets : List Packet) :
    drain outlet packets =
      ((outlet.replay ((ready packets).map .packet)).1,
        ⟨waiting packets, (outlet.replay ((ready packets).map .packet)).2⟩) := by
  induction packets generalizing outlet with
  | nil => rfl
  | cons p rest ih =>
    by_cases hp : p.isPending = true
    · simp [drain_of_isPending hp, ready, waiting, hp]
    · have hp : p.isPending = false := by simpa using hp
      simp only [drain, hp, ih]
      simp [ready, waiting, hp, Outlet.replay_cons, Outlet.take]

-- Nothing at the front of the queue has its verdict.
def HeadPending (q : Queue) : Prop := ∀ p ∈ q.packets.head?, p.isPending = true

theorem headPending_nil (outlet : Outlet) : HeadPending ⟨[], outlet⟩ := by
  simp [HeadPending]

theorem headPending_drain (outlet : Outlet) (packets : List Packet) :
    (drain outlet packets).2.HeadPending :=
  fun _ hp => isPending_of_head?_drain outlet packets hp

theorem HeadPending.ready_eq_nil (h : q.HeadPending) : ready q.packets = [] := by
  unfold ready
  match hq : q.packets with
  | [] => rfl
  | p :: rest =>
    have hp : p.isPending = true := h p (by simp [hq])
    simp [hp]

theorem HeadPending.waiting_eq (h : q.HeadPending) : waiting q.packets = q.packets := by
  have hsplit := ready_append_waiting q.packets
  rwa [h.ready_eq_nil, List.nil_append] at hsplit

theorem HeadPending.append {p : Packet} (h : q.HeadPending) (hp : p.isPending = true) :
    HeadPending { q with packets := q.packets ++ [p] } := by
  intro first hfirst
  match hq : q.packets with
  | [] => simp_all
  | other :: rest => exact h first (by simp_all)

-- A packet that awaits its verdict is queued, and nothing else happens.
theorem submit_of_isTouch {p : Packet} (h : q.HeadPending) (hp : p.isPending = true)
    (hs : p.source.isTouch = true) :
    q.submit p = .ok ([], { q with packets := q.packets ++ [p] }) := by
  have hnone := (h.append hp).ready_eq_nil
  have hall := (h.append hp).waiting_eq
  unfold submit
  cases hsource : p.source <;>
    simp_all [Packet.Source.isTouch, drain_eq]

-- A verdict is noted on one packet, which is the oldest or the newest.
theorem judge_cases {id : EventId} {consumed nonBlocking : Bool} {judged : List Packet}
    (h : q.judge id consumed nonBlocking = .ok judged) :
    ∃ before p acked after, q.packets = before ++ p :: after ∧ p.eventId = id ∧
      p.ack consumed nonBlocking = .ok acked ∧ judged = before ++ acked :: after ∧
      (before = [] ∨ after = []) := by
  unfold judge at h
  split at h
  · cases h
  · next head rest hq =>
    split at h
    · next hid =>
      cases hack : head.ack consumed nonBlocking with
      | error violation => simp [hack, Except.map] at h
      | ok acked =>
        simp only [hack, Except.map, Except.ok.injEq] at h
        exact ⟨[], head, acked, rest, hq, hid, hack, h.symm, .inl rfl⟩
    · split at h
      · cases h
      · next newest hnewest =>
        split at h
        · next hid =>
          cases hack : newest.ack consumed nonBlocking with
          | error violation => simp [hack, Except.map] at h
          | ok acked =>
            simp only [hack, Except.map, Except.ok.injEq] at h
            obtain ⟨older, rfl⟩ := List.getLast?_eq_some_iff.mp hnewest
            refine ⟨head :: older, newest, acked, [], by simpa using hq, hid, hack, ?_, .inr rfl⟩
            simpa using h.symm
        · cases h

-- Apart from its verdict, a verdict changes nothing about any packet.
theorem unjudged_judge {id : EventId} {consumed nonBlocking : Bool} {judged : List Packet}
    (h : q.judge id consumed nonBlocking = .ok judged) :
    judged.map Packet.unjudged = q.packets.map Packet.unjudged := by
  obtain ⟨before, p, acked, after, hq, _, hack, rfl, _⟩ := judge_cases h
  simp [hq, Packet.unjudged_of_ack hack]

end Queue

end Release

end TouchGestures
