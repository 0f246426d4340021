import TouchGestures.Channel
import TouchGestures.Proofs.ContactTable.Accepted
import TouchGestures.Proofs.Release.History

namespace TouchGestures

namespace Packet

theorem ofTouch_eq_ok {t : ContactTable} {p : Packet} (h : ofTouch t = .ok p) :
    ∃ change contact, t.latest = some change ∧ t.acting? = some contact ∧
      p = ⟨Source.ofAction change.action, change.time, contact.place, change.eventId,
        .pending, []⟩ := by
  unfold ofTouch at h
  split at h
  · cases h
  · cases h
  · next change contact hlatest hacting =>
    cases h
    exact ⟨change, contact, hlatest, hacting, rfl⟩

theorem exists_ofTouch {t : ContactTable} (hlatest : t.latest.isSome = true)
    (hacting : t.acting?.isSome = true) : ∃ p, ofTouch t = .ok p := by
  obtain ⟨change, hchange⟩ := Option.isSome_iff_exists.mp hlatest
  obtain ⟨contact, hcontact⟩ := Option.isSome_iff_exists.mp hacting
  simp [ofTouch, hchange, hcontact]

end Packet

namespace Gesture

-- The gesture without its number in a row of taps.
def untallied (g : Gesture) : Gesture :=
  match g.payload with
  | .tap _ => { g with payload := .tap 1 }
  | _ => g

theorem kind_untallied (g : Gesture) : g.untallied.kind = g.kind := by
  unfold untallied kind
  split
  · next h => rw [h]; rfl
  · rfl

theorem map_kind_of_map_untallied {first second : List Gesture}
    (h : first.map untallied = second.map untallied) : first.map kind = second.map kind := by
  have hkinds := congrArg (List.map kind) h
  simpa only [List.map_map, Function.comp_def, kind_untallied] using hkinds

end Gesture

namespace Channel

variable {c d : Channel}

abbrev detector (c : Channel) : Detector := c.pipeline.detector

abbrev queue (c : Channel) : Release.Queue := c.pipeline.queue

theorem untallied_number (thresholds : Thresholds) (previous : Option CountedTap) (g : Gesture) :
    (number thresholds previous g).1.untallied = g.untallied := by
  unfold number
  split
  · next h => simp [Gesture.untallied, h]
  · rfl

-- Numbering taps changes nothing else about any gesture.
theorem untallied_numberAll (thresholds : Thresholds) (previous : Option CountedTap)
    (gestures : List Gesture) :
    (numberAll thresholds previous gestures).1.map Gesture.untallied =
      gestures.map Gesture.untallied := by
  induction gestures generalizing previous with
  | nil => rfl
  | cons g rest ih => simp [numberAll, untallied_number, ih]

theorem collect_nil (c : Channel) : c.collect [] = c := by
  simp [collect, numberTaps, numberAll]

theorem released_collect (c : Channel) (gestures : List Gesture) :
    (c.collect gestures).released =
      c.released ++ (numberAll c.thresholds c.previousTap gestures).1 := rfl

-- A finger at some distance from the edge.
def finger (kind : Touch.Kind) (contact : ContactId) (x : Scalar) (milliseconds : Nat)
    (id : EventId) : Touch where
  kind := kind
  contact := ⟨contact, .finger, 0, 0, 1⟩
  place := ⟨⟨x, 10⟩, ⟨x, 10⟩⟩
  device := 0
  time := Duration.milliseconds milliseconds
  id := id
  synthesized := false

inductive Event
  | touch (t : Touch)
  | ack (id : EventId) (consumed nonBlocking : Bool)
  | drain
  | tick (now : Time)
  | configure (settings : ChannelSettings)
  | setDoubleTap (enabled : Bool)
  | reassign (consumer : ConsumerId)
  | forgetHistory
  deriving DecidableEq

-- Lets something happen to a channel, and gives the gestures that are released by it.
-- Those of a touch or a verdict are the ones it adds to what waits to be taken.
def step (c : Channel) : Event → Except Violation (List Gesture × Channel)
  | .touch t => (c.touch t).map fun (_, d) => (d.released.drop c.released.length, d)
  | .ack id consumed nonBlocking =>
    (c.ack id consumed nonBlocking).map fun d => (d.released.drop c.released.length, d)
  | .drain => .ok ([], c.drain.2)
  | .tick now => c.tick now
  | .configure settings => .ok ([], c.configure settings)
  | .setDoubleTap enabled => .ok ([], c.setDoubleTap enabled)
  | .reassign consumer => .ok ([], c.reassign consumer)
  | .forgetHistory => .ok ([], c.forgetHistory)

def packet? (c : Channel) (t : Touch) : Option Packet :=
  match c.contacts.touch t with
  | (false, _) => none
  | (true, contacts) =>
    (c.detector.touch contacts).bind fun (gestures, _) =>
      (Packet.ofTouch contacts).toOption.map (·.pushAll gestures)

def queuedBy (c : Channel) : Event → List Packet
  | .touch t => (c.packet? t).toList
  | _ => []

def itemsBy (c : Channel) : Event → List Release.Item
  | .ack id consumed nonBlocking =>
    match c.queue.judge id consumed nonBlocking with
    | .ok judged => (Release.Queue.ready judged).map .packet
    | .error _ => []
  | .tick now =>
    (c.detector.tick now).1.map fun g => .alarm (Packet.ofTimeout g) c.queue.isEmpty
  | .forgetHistory => [.forgotten]
  | .touch _ | .drain | .configure _ | .setDoubleTap _ | .reassign _ => []

-- A channel with the record of its life: the packets that were queued, what its outlet
-- dealt with, and the gestures that were released, all in their order.
structure Chronicle where
  channel : Channel
  queued : List Packet := []
  items : List Release.Item := []
  released : List Gesture := []
  deriving DecidableEq

def Chronicle.step (k : Chronicle) (e : Event) : Except Violation Chronicle :=
  (k.channel.step e).map fun (gestures, channel) =>
    { channel
      queued := k.queued ++ k.channel.queuedBy e
      items := k.items ++ k.channel.itemsBy e
      released := k.released ++ gestures }

def Chronicle.run (k : Chronicle) : List Event → Except Violation Chronicle
  | [] => .ok k
  | e :: rest => do
    let k ← k.step e
    k.run rest

-- The lives of channels to which nothing happens but what is allowed.
inductive Lived (allowed : Event → Prop) : Chronicle → Prop
  | start (consumer : ConsumerId) (settings : ChannelSettings) :
    Lived allowed { channel := ofSettings consumer settings }
  | step {k k' : Chronicle} {e : Event} (h : Lived allowed k) (he : allowed e)
    (hk : k.step e = .ok k') : Lived allowed k'

theorem Lived.run {allowed : Event → Prop} {k k' : Chronicle} {events : List Event}
    (h : Lived allowed k) (hevents : ∀ e ∈ events, allowed e) (hrun : k.run events = .ok k') :
    Lived allowed k' := by
  induction events generalizing k with
  | nil =>
    cases hrun
    exact h
  | cons e rest ih =>
    unfold Chronicle.run at hrun
    cases hk : k.step e with
    | error violation => simp [hk, bind, Except.bind] at hrun
    | ok between =>
      simp only [hk, bind, Except.bind] at hrun
      exact ih (h.step (hevents e (by simp)) hk) (fun e he => hevents e (by simp [he])) hrun

-- A touch that the contacts and detection accept is accepted, and its packet queued.
theorem touch_of_accept? {t : Touch} {contacts : ContactTable} {gestures : List Gesture}
    {detector : Detector} (hq : c.queue.HeadPending)
    (haccept : c.contacts.settle.accept? t = some contacts)
    (hdetect : c.detector.touch contacts = some (gestures, detector)) :
    ∃ packet, Packet.ofTouch contacts = .ok packet ∧
      c.packet? t = some (packet.pushAll gestures) ∧
      c.touch t = .ok
        (⟨true, (c.pipeline.detected contacts.action gestures detector).slopExceeded⟩,
          { c with
            contacts := contacts.settle
            pipeline := { c.pipeline.detected contacts.action gestures detector with
              queue := { c.queue with
                packets := c.queue.packets ++ [packet.pushAll gestures] } } }) := by
  obtain ⟨hacting, hlatest, -⟩ := ContactTable.accepted_note haccept
  obtain ⟨packet, hpacket⟩ := Packet.exists_ofTouch hlatest hacting
  have htouch : c.contacts.touch t = (true, contacts) := by simp [ContactTable.touch, haccept]
  have hqueued : c.packet? t = some (packet.pushAll gestures) := by
    simp [packet?, htouch, hdetect, hpacket, Except.toOption]
  refine ⟨packet, hpacket, hqueued, ?_⟩
  obtain ⟨change, contact, -, -, rfl⟩ := Packet.ofTouch_eq_ok hpacket
  have hsubmit := Release.Queue.submit_of_isTouch hq
    (p := (Packet.mk (.ofAction change.action) change.time contact.place change.eventId
      .pending []).pushAll gestures)
    (by simp [Packet.pushAll_eq, Packet.isPending])
    (by simp [Packet.pushAll_eq, Packet.Source.isTouch_ofAction])
  simp [Channel.touch, htouch, Pipeline.touch, hdetect, hpacket, Except.bind, Pipeline.detected,
    hsubmit, Pipeline.result, collect, numberTaps, numberAll]

-- A touch is turned down by the contacts, turned down by detection, or accepted and its
-- packet queued.
theorem touch_cases {t : Touch} {result : TouchResult} (hq : c.queue.HeadPending)
    (h : c.touch t = .ok (result, d)) :
    (result.accepted = false ∧ c.packet? t = none ∧
      (d = { c with contacts := c.contacts.settle } ∨ d = c)) ∨
    ∃ contacts gestures detector packet,
      result.accepted = true ∧ c.contacts.settle.accept? t = some contacts ∧
      c.detector.touch contacts = some (gestures, detector) ∧
      Packet.ofTouch contacts = .ok packet ∧ c.packet? t = some (packet.pushAll gestures) ∧
      d = { c with
        contacts := contacts.settle
        pipeline := { c.pipeline.detected contacts.action gestures detector with
          queue := { c.queue with packets := c.queue.packets ++ [packet.pushAll gestures] } } } := by
  cases haccept : c.contacts.settle.accept? t with
  | none =>
    unfold Channel.touch at h
    simp only [ContactTable.touch_of_accept?_eq_none haccept, Except.ok.injEq, Prod.mk.injEq] at h
    obtain ⟨rfl, rfl⟩ := h
    refine .inl ⟨rfl, ?_, .inl rfl⟩
    simp [packet?, ContactTable.touch_of_accept?_eq_none haccept]
  | some contacts =>
    have htouch : c.contacts.touch t = (true, contacts) := by
      simp [ContactTable.touch, haccept]
    cases hdetect : c.detector.touch contacts with
    | none =>
      unfold Channel.touch at h
      simp only [htouch, Pipeline.touch_of_detector_touch_eq_none hdetect, Pipeline.result,
        Except.ok.injEq, Prod.mk.injEq] at h
      obtain ⟨rfl, rfl⟩ := h
      exact .inl ⟨rfl, by simp [packet?, htouch, hdetect], .inr (collect_nil c)⟩
    | some detected =>
      obtain ⟨gestures, detector⟩ := detected
      obtain ⟨packet, hpacket, hsome, hok⟩ := touch_of_accept? hq haccept hdetect
      rw [hok, Except.ok.injEq, Prod.mk.injEq] at h
      obtain ⟨rfl, rfl⟩ := h
      exact .inr ⟨contacts, gestures, detector, packet, rfl, rfl, hdetect, hpacket, hsome, rfl⟩

theorem ack_eq_ok {id : EventId} {consumed nonBlocking : Bool}
    (h : c.ack id consumed nonBlocking = .ok d) :
    ∃ judged, c.queue.judge id consumed nonBlocking = .ok judged ∧
      d = { c with
        pipeline := { c.pipeline with queue := (Release.Queue.drain c.queue.outlet judged).2 }
        }.collect (Release.Queue.drain c.queue.outlet judged).1 := by
  unfold Channel.ack Pipeline.ack Release.Queue.ack at h
  cases hjudge : c.queue.judge id consumed nonBlocking with
  | error violation => simp [hjudge, Except.map] at h
  | ok judged =>
    simp only [hjudge, Except.map, Except.ok.injEq] at h
    exact ⟨judged, rfl, h.symm⟩

end Channel

end TouchGestures
