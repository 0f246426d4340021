import TouchGestures.Proofs.Channel.Chronicle
import TouchGestures.Proofs.ContactTable.Accepted
import TouchGestures.Proofs.Detector.Family
import TouchGestures.Proofs.Packet.Course

namespace TouchGestures

open Gesture (Family)
open Release (packetsOf)

namespace Pipeline

-- Alarms go out one after the other, with suppression if nothing is waiting.
theorem submitTimeouts_eq (q : Release.Queue) (gestures : List Gesture) :
    submitTimeouts q gestures =
      .ok ((q.outlet.replay (gestures.map fun g => .alarm (Packet.ofTimeout g) q.isEmpty)).1,
        { q with
          outlet :=
            (q.outlet.replay (gestures.map fun g => .alarm (Packet.ofTimeout g) q.isEmpty)).2 }) := by
  induction gestures generalizing q with
  | nil => rfl
  | cons g rest ih =>
    have hfirst : q.submit (Packet.ofTimeout g) =
        .ok ((q.outlet.releaseTimeout (Packet.ofTimeout g) q.isEmpty).1,
          { q with outlet := (q.outlet.releaseTimeout (Packet.ofTimeout g) q.isEmpty).2 }) := rfl
    simp only [submitTimeouts, hfirst, bind, Except.bind, ih]
    rfl

end Pipeline

namespace Channel

variable {c d : Channel}

theorem tick_eq (c : Channel) (now : Time) :
    c.tick now =
      .ok ({ c with
        pipeline := { c.pipeline with
          detector := (c.detector.tick now).2
          queue := { c.queue with outlet := (c.queue.outlet.replay (c.itemsBy (.tick now))).2 } }
        }.numberTaps (c.queue.outlet.replay (c.itemsBy (.tick now))).1) := by
  simp only [Channel.tick, Pipeline.tick, Pipeline.submitTimeouts_eq, Except.map, itemsBy]

namespace Chronicle

variable {k k' : Chronicle} {e : Event}

theorem step_eq_ok (h : k.step e = .ok k') :
    ∃ gestures channel, k.channel.step e = .ok (gestures, channel) ∧
      k' = ⟨channel, k.queued ++ k.channel.queuedBy e, k.items ++ k.channel.itemsBy e,
        k.released ++ gestures⟩ := by
  unfold step at h
  cases hstep : k.channel.step e with
  | error violation => simp [hstep, Except.map] at h
  | ok result =>
    simp only [hstep, Except.map, Except.ok.injEq] at h
    exact ⟨result.1, result.2, rfl, h.symm⟩

-- What holds of a channel all its life. The outlet is where its history has led it, the
-- packets it has not dealt with are those that are queued, and the packets that were
-- queued tell what is open in the detector.
structure Sound (k : Chronicle) : Prop where
  head : k.channel.queue.HeadPending
  fifo : (packetsOf k.items ++ k.channel.queue.packets).map Packet.unjudged =
    k.queued.map Packet.unjudged
  outlet : (Release.Outlet.replay {} k.items).2 = k.channel.queue.outlet
  released : k.released.map Gesture.untallied =
    (Release.Outlet.replay {} k.items).1.map Gesture.untallied
  alarms : Release.PressAlarms k.items
  settled : k.channel.contacts.leaving = none
  idle : k.channel.contacts.contacts = [] → k.channel.detector.stream = none
  detector : k.channel.detector.Sound
  course : ∀ f : Family, Packet.course f false k.queued = some (k.channel.detector.isOpen f)

theorem sound_start (consumer : ConsumerId) (settings : ChannelSettings) :
    Sound { channel := ofSettings consumer settings } where
  head := Release.Queue.headPending_nil _
  fifo := rfl
  outlet := rfl
  released := rfl
  alarms := Release.pressAlarms_map_packet []
  settled := rfl
  idle := fun _ => rfl
  detector := Detector.sound_of_stream_eq_none rfl
  course := fun _ => rfl

theorem Sound.stream_of_began {t : Touch} {contacts : ContactTable} (h : k.Sound)
    (haccept : k.channel.contacts.settle.accept? t = some contacts)
    (hbegan : contacts.action = .began) : k.channel.detector.stream = none := by
  rw [ContactTable.settle_of_leaving_eq_none h.settled] at haccept
  exact h.idle (ContactTable.contacts_eq_nil_of_began haccept hbegan)

theorem Sound.follows {t : Touch} {contacts : ContactTable} {gestures : List Gesture}
    {detector : Detector} (h : k.Sound)
    (haccept : k.channel.contacts.settle.accept? t = some contacts)
    (hdetect : k.channel.detector.touch contacts = some (gestures, detector)) :
    k.channel.detector.Follows gestures detector :=
  Detector.follows_touch (ContactTable.accepted_note haccept).1 h.detector
    (h.stream_of_began haccept) hdetect

-- The packet of an accepted touch continues the course of its stream.
theorem Sound.follow? {t : Touch} {contacts : ContactTable} {gestures : List Gesture}
    {detector : Detector} {packet : Packet} (h : k.Sound)
    (haccept : k.channel.contacts.settle.accept? t = some contacts)
    (hdetect : k.channel.detector.touch contacts = some (gestures, detector))
    (hpacket : Packet.ofTouch contacts = .ok packet) (f : Family) :
    (packet.pushAll gestures).follow? f (k.channel.detector.isOpen f) =
      some (detector.isOpen f) := by
  obtain ⟨change, contact, hlatest, -, rfl⟩ := Packet.ofTouch_eq_ok hpacket
  have haction : contacts.action = change.action := by simp [ContactTable.action, hlatest]
  rw [Packet.follow?_eq_some_iff, Packet.pushAll_eq]
  refine ⟨fun hsource => ?_, ?_, fun hcloses => ?_⟩
  · refine Detector.isOpen_of_stream_eq_none (h.stream_of_began haccept ?_)
    rw [haction]
    cases hchange : change.action <;> simp_all [Packet.Source.ofAction]
  · rw [← (h.follows haccept hdetect).run f]
    refine Family.run_congr ?_
    simp only [List.nil_append, List.map_map]
    rfl
  · rw [Packet.Source.closesSequence_ofAction, ← haction] at hcloses
    exact Detector.isOpen_of_stream_eq_none (Detector.stream_touch_of_closes hcloses hdetect)

theorem Sound.touch {t : Touch} (h : k.Sound) (hk : k.step (.touch t) = .ok k') : k'.Sound := by
  obtain ⟨gestures, channel, hstep, rfl⟩ := step_eq_ok hk
  simp only [Channel.step] at hstep
  cases htouch : k.channel.touch t with
  | error violation => simp [htouch, Except.map] at hstep
  | ok outcome =>
    obtain ⟨result, after⟩ := outcome
    simp only [htouch, Except.map, Except.ok.injEq, Prod.mk.injEq] at hstep
    obtain ⟨rfl, rfl⟩ := hstep
    obtain ⟨-, hnone, hsame⟩ | ⟨contacts, gestures, detector, packet, -, haccept, hdetect, hpacket,
      hsome, hd⟩ := touch_cases h.head htouch
    · have hsame : after = k.channel := by
        obtain hsame | hsame := hsame
        · rw [hsame, ContactTable.settle_of_leaving_eq_none h.settled]
        · exact hsame
      simpa [hsame, queuedBy, itemsBy, hnone] using h
    · have hpending : (packet.pushAll gestures).isPending = true := by
        obtain ⟨_, _, _, _, rfl⟩ := Packet.ofTouch_eq_ok hpacket
        simp [Packet.pushAll_eq, Packet.isPending]
      rw [hd]
      refine ⟨h.head.append hpending, ?_, ?_, ?_, ?_, ?_, ?_, ?_, ?_⟩
      · simp [queuedBy, itemsBy, hsome, ← h.fifo]
      · simpa [itemsBy] using h.outlet
      · simpa [itemsBy] using h.released
      · simpa [itemsBy] using h.alarms
      · exact ContactTable.leaving_settle _
      · intro hnil
        have haction := ContactTable.action_of_settle_contacts_eq_nil haccept
          (ContactTable.leaving_settle _) hnil
        exact Detector.stream_touch_of_closes haction hdetect
      · exact (h.follows haccept hdetect).sound
      · intro f
        simp only [queuedBy, hsome, Option.toList_some, Packet.course_append, h.course f,
          Option.bind_some, Packet.course_singleton]
        exact h.follow? haccept hdetect hpacket f

theorem Sound.ack {id : EventId} {consumed nonBlocking : Bool} (h : k.Sound)
    (hk : k.step (.ack id consumed nonBlocking) = .ok k') : k'.Sound := by
  obtain ⟨gestures, channel, hstep, rfl⟩ := step_eq_ok hk
  simp only [Channel.step] at hstep
  cases hack : k.channel.ack id consumed nonBlocking with
  | error violation => simp [hack, Except.map] at hstep
  | ok d =>
    simp only [hack, Except.map, Except.ok.injEq, Prod.mk.injEq] at hstep
    obtain ⟨rfl, rfl⟩ := hstep
    obtain ⟨judged, hjudge, rfl⟩ := ack_eq_ok hack
    have hitems : k.channel.itemsBy (.ack id consumed nonBlocking) =
        (Release.Queue.ready judged).map .packet := by
      simp [itemsBy, hjudge]
    have hdrain := Release.Queue.drain_eq k.channel.queue.outlet judged
    rw [hitems, released_collect, List.drop_left]
    refine ⟨?_, ?_, ?_, ?_, ?_, h.settled, h.idle, h.detector, ?_⟩
    · exact Release.Queue.headPending_drain _ _
    · have hjudged := Release.Queue.unjudged_judge hjudge
      rw [← Release.Queue.ready_append_waiting judged, List.map_append] at hjudged
      simp only [Release.packetsOf_append, Release.packetsOf_map_packet, queuedBy, List.append_nil,
        List.map_append, ← h.fifo, ← hjudged, List.append_assoc]
      simp [collect, numberTaps, hdrain]
    · simp only [Release.Outlet.replay_append, h.outlet]
      simp [collect, numberTaps, hdrain]
    · simp only [Release.Outlet.replay_append, h.outlet, List.map_append, h.released,
        untallied_numberAll, hdrain]
    · exact h.alarms.append (Release.pressAlarms_map_packet _)
    · intro f
      simp only [queuedBy, List.append_nil]
      exact h.course f

theorem Sound.tick {now : Time} (h : k.Sound) (hk : k.step (.tick now) = .ok k') : k'.Sound := by
  obtain ⟨gestures, channel, hstep, rfl⟩ := step_eq_ok hk
  simp only [Channel.step, tick_eq, Except.ok.injEq] at hstep
  simp only [numberTaps, Prod.mk.injEq] at hstep
  obtain ⟨rfl, rfl⟩ := hstep
  refine ⟨h.head, ?_, ?_, ?_, ?_, h.settled, ?_, Detector.sound_tick h.detector now, ?_⟩
  · have hnone : packetsOf (k.channel.itemsBy (.tick now)) = [] := by
      simp [itemsBy, packetsOf, List.filterMap_map, Function.comp_def, Release.Item.packet?]
    simpa [queuedBy, hnone] using h.fifo
  · simp only [Release.Outlet.replay_append, h.outlet]
  · simp only [Release.Outlet.replay_append, h.outlet, List.map_append, h.released,
      untallied_numberAll]
  · refine h.alarms.append fun p suppressing hp => ?_
    obtain ⟨g, hg, heq⟩ := List.mem_map.mp hp
    cases heq
    simpa [Packet.ofTimeout] using Detector.kind_of_mem_tick hg
  · intro hnil
    exact Detector.stream_tick_eq_none_iff.mpr (h.idle hnil)
  · intro f
    rw [Detector.isOpen_tick]
    simpa [queuedBy] using h.course f

theorem Sound.forgetHistory (h : k.Sound) (hk : k.step .forgetHistory = .ok k') : k'.Sound := by
  obtain ⟨gestures, channel, hstep, rfl⟩ := step_eq_ok hk
  cases hstep
  refine ⟨h.head, ?_, ?_, ?_, ?_, h.settled, h.idle, h.detector, ?_⟩
  · simp only [itemsBy, queuedBy, Release.packetsOf_append, Release.packetsOf_forgotten_cons,
      Release.packetsOf_nil, List.append_nil]
    exact h.fifo
  · simp [itemsBy, Release.Outlet.replay_append, Release.Outlet.replay_singleton,
      Release.Outlet.take, Channel.forgetHistory, Pipeline.forgetHistory,
      Release.Queue.forgetHistory]
  · simpa [itemsBy, Release.Outlet.replay_append, Release.Outlet.replay_singleton,
      Release.Outlet.take] using h.released
  · refine h.alarms.append fun p suppressing hp => ?_
    simp [itemsBy] at hp
  · intro f
    simp only [queuedBy, List.append_nil]
    exact h.course f

-- What keeps the packets, the contacts and what is open keeps a channel sound.
theorem Sound.replace {d : Channel} (h : k.Sound) (hqueue : d.queue = k.channel.queue)
    (hleaving : d.contacts.leaving = k.channel.contacts.leaving)
    (hcontacts : d.contacts.contacts = k.channel.contacts.contacts)
    (hstream : k.channel.detector.stream = none → d.detector.stream = none)
    (hsound : d.detector.Sound)
    (hopen : ∀ f : Family, d.detector.isOpen f = k.channel.detector.isOpen f) :
    Sound { k with channel := d } where
  head := hqueue ▸ h.head
  fifo := hqueue ▸ h.fifo
  outlet := hqueue ▸ h.outlet
  released := h.released
  alarms := h.alarms
  settled := hleaving ▸ h.settled
  idle := fun hnil => hstream (h.idle (hcontacts ▸ hnil))
  detector := hsound
  course := fun f => hopen f ▸ h.course f

-- An event that neither queues nor releases anything leaves the records alone.
theorem step_quiet {d : Channel} (hstep : k.channel.step e = .ok ([], d))
    (hqueued : k.channel.queuedBy e = []) (hitems : k.channel.itemsBy e = [])
    (hk : k.step e = .ok k') : k' = { k with channel := d } := by
  obtain ⟨gestures, channel, hstep', rfl⟩ := step_eq_ok hk
  rw [hstep] at hstep'
  cases hstep'
  simp [hqueued, hitems]

theorem Sound.step (h : k.Sound) (hk : k.step e = .ok k') : k'.Sound := by
  cases e with
  | touch t => exact h.touch hk
  | ack id consumed nonBlocking => exact h.ack hk
  | tick now => exact h.tick hk
  | forgetHistory => exact h.forgetHistory hk
  | drain =>
    rw [step_quiet rfl rfl rfl hk]
    exact h.replace rfl rfl rfl id h.detector fun _ => rfl
  | configure settings =>
    rw [step_quiet rfl rfl rfl hk]
    exact h.replace rfl rfl rfl Detector.stream_configure_eq_none_iff.mpr
      (Detector.sound_configure h.detector _) fun _ => Detector.isOpen_configure _
  | setDoubleTap enabled =>
    rw [step_quiet rfl rfl rfl hk]
    have hstream := Detector.stream_setDoubleTap k.channel.detector enabled
    refine h.replace rfl rfl rfl (fun hnone => ?_) (fun s hs => ?_) fun f => ?_
    · exact hstream.trans (Detector.stream_configure_eq_none_iff.mpr hnone)
    · exact Detector.sound_configure h.detector _ s (hstream ▸ hs)
    · exact Detector.isOpen_setDoubleTap _ _
  | reassign consumer =>
    rw [step_quiet rfl rfl rfl hk]
    exact h.replace rfl rfl rfl id h.detector fun _ => rfl

end Chronicle

theorem Lived.sound {allowed : Event → Prop} {k : Chronicle} (h : Lived allowed k) :
    k.Sound := by
  induction h with
  | start consumer settings => exact Chronicle.sound_start consumer settings
  | step _ _ hk ih => exact ih.step hk

end Channel

end TouchGestures
