import TouchGestures.Proofs.Channel.Diary
import TouchGestures.Proofs.Detector.History
import TouchGestures.Proofs.Release.Detected

namespace TouchGestures.Channel

variable {β : Type} {f : Gesture → Option β} {c d : Channel} {e : Event} {gestures : List Gesture}

-- A view of gestures as they are detected: it shows what touches bring about only, and it does
-- not show what is put on gestures on their way out.
structure View (f : Gesture → Option β) : Prop where
  detected : Gesture.Detected f
  untallied : ∀ g : Gesture, f g.untallied = f g
  marked : ∀ (g : Gesture) (id : EventId) (nonBlocking : Bool),
    f { g with eventId := id, nonBlocking } = f g

theorem View.filterMap_pushAll (hf : View f) (p : Packet) (gestures : List Gesture) :
    (p.pushAll gestures).gestures.filterMap f = p.gestures.filterMap f ++ gestures.filterMap f := by
  rw [Packet.pushAll_eq, List.filterMap_append, List.filterMap_map]
  exact congrArg (_ ++ List.filterMap · gestures)
    (funext fun g => hf.marked g p.eventId g.nonBlocking)

theorem View.filterMap_unjudged (hf : View f) (p : Packet) :
    p.unjudged.gestures.filterMap f = p.gestures.filterMap f := by
  rw [Packet.unjudged, List.filterMap_map]
  exact congrArg (List.filterMap · p.gestures) (funext fun g => hf.marked g g.eventId false)

-- What is asked of the detector when something happens to a channel. A touch that does not
-- fit the contacts does not get that far.
def opsBy (c : Channel) : Event → List Detector.Op
  | .touch t =>
    match c.contacts.touch t with
    | (true, contacts) => [.touch contacts]
    | (false, _) => []
  | .tick now => [.tick now]
  | .configure settings => [.configure settings]
  | .setDoubleTap enabled => [.setDoubleTap enabled]
  | .ack .. | .drain | .reassign _ | .forgetHistory => []

-- A touch is turned down, and detection is not asked or turns it down as well, or detection
-- does what it is asked and the gestures are queued.
theorem opsBy_touch_cases {t : Touch} {result : TouchResult} (hq : c.queue.HeadPending)
    (h : c.touch t = .ok (result, d)) :
    (c.packet? t = none ∧ d.detector = c.detector ∧
      ∀ op ∈ c.opsBy (.touch t), c.detector.perform op = ([], c.detector)) ∨
    ∃ contacts gestures, ∃ packet : Packet, c.opsBy (.touch t) = [.touch contacts] ∧
      c.detector.perform (.touch contacts) = (gestures, d.detector) ∧
      c.packet? t = some (packet.pushAll gestures) ∧ packet.gestures = [] := by
  obtain ⟨-, hnone, hsame⟩ | ⟨contacts, gestures, detector, packet, -, haccept, hdetect, hpacket,
    hqueued, rfl⟩ := touch_cases hq h
  · refine .inl ⟨hnone, by obtain rfl | rfl := hsame <;> rfl, fun op hop => ?_⟩
    cases haccept : c.contacts.settle.accept? t with
    | none => simp [opsBy, ContactTable.touch_of_accept?_eq_none haccept] at hop
    | some contacts =>
      obtain rfl : op = .touch contacts := by
        simpa [opsBy, ContactTable.touch, haccept] using hop
      cases hdetect : c.detector.touch contacts with
      | none => rw [Detector.perform, hdetect, Option.getD_none]
      | some detected =>
        obtain ⟨packet, -, hqueued, -⟩ := touch_of_accept? hq haccept hdetect
        cases hnone.symm.trans hqueued
  · refine .inr ⟨contacts, gestures, packet, by simp [opsBy, ContactTable.touch, haccept], ?_,
      hqueued, ?_⟩
    · rw [Detector.perform, hdetect, Option.getD_some]
      rfl
    · obtain ⟨_, _, -, -, rfl⟩ := Packet.ofTouch_eq_ok hpacket
      rfl

def shownBy (f : Gesture → Option β) (c : Channel) (e : Event) : List β :=
  (c.queuedBy e).flatMap fun p => p.gestures.filterMap f

-- The detector does what it is asked, and the gestures are queued.
theorem detector_step (hf : View f) (hq : c.queue.HeadPending)
    (h : c.step e = .ok (gestures, d)) :
    d.detector = c.detector.performAll (c.opsBy e) ∧
      shownBy f c e =
        (c.detector.history (c.opsBy e)).flatMap fun m => m.gestures.filterMap f := by
  unfold shownBy
  cases e with
  | touch t =>
    obtain ⟨⟨result, after⟩, htouch, heq⟩ := map_eq_ok.mp h
    cases heq
    obtain ⟨hnone, hdetector, hops⟩ | ⟨contacts, gestures, packet, hops, hperform, hqueued,
      hempty⟩ := opsBy_touch_cases hq htouch
    · obtain ⟨hstays, hnothing⟩ := Detector.performAll_of_refused hops
      rw [queuedBy, hnone, hdetector, hstays]
      refine ⟨rfl, ?_⟩
      rw [eq_comm, Option.toList_none, List.flatMap_nil, List.flatMap_eq_nil_iff]
      intro m hm
      rw [hnothing m hm]
      rfl
    · rw [queuedBy, hqueued, hops, Option.toList_some, List.flatMap_singleton,
        hf.filterMap_pushAll, hempty, List.filterMap_nil, List.nil_append, Detector.history,
        Detector.history, List.flatMap_singleton, Detector.Moment.gestures, hperform]
      exact ⟨(congrArg Prod.snd hperform).symm, rfl⟩
  | ack id consumed nonBlocking =>
    obtain ⟨after, hack, heq⟩ := map_eq_ok.mp h
    cases heq
    exact ⟨(detector_ack hack).2, rfl⟩
  | tick now =>
    rw [step, tick_eq] at h
    cases h
    refine ⟨rfl, ?_⟩
    rw [opsBy, Detector.history, Detector.history, List.flatMap_singleton, eq_comm,
      Detector.Moment.gestures]
    refine List.filterMap_eq_nil_iff.mpr fun g hg => hf.detected g ?_
    obtain hkind | hkind := Detector.kind_of_mem_tick hg <;> simp [hkind]
  | configure | setDoubleTap | drain | reassign | forgetHistory =>
    cases h
    exact ⟨rfl, rfl⟩

-- Something that happened to a channel, with the gestures that were released by it.
structure Turn where
  before : Channel
  event : Event
  released : List Gesture
  after : Channel
  deriving DecidableEq

-- What happened to a channel, one thing after the other, and the channel that came of it. A
-- contact is taken over in two turns, `Ran.enter`.
inductive Ran (settings : ChannelSettings) : List Turn → Channel → Prop
  | start (consumer : ConsumerId) : Ran settings [] (ofSettings consumer settings)
  | step {turns : List Turn} {c d : Channel} {e : Event} {gestures : List Gesture}
    (h : Ran settings turns c) (hstep : c.step e = .ok (gestures, d)) :
    Ran settings (turns ++ [⟨c, e, gestures, d⟩]) d

-- What happens to a channel when one thing follows the other, up to the first violation.
def turnsOf (c : Channel) : List Event → List Turn
  | [] => []
  | e :: rest =>
    match c.step e with
    | .ok (gestures, d) => ⟨c, e, gestures, d⟩ :: d.turnsOf rest
    | .error _ => []

def Turn.shown (f : Gesture → Option β) (x : Turn) : List β := shownBy f x.before x.event

def Turn.ops (x : Turn) : List Detector.Op := x.before.opsBy x.event

namespace Ran

variable {settings : ChannelSettings} {turns before after : List Turn} {x : Turn}

theorem exists_append_turnsOf (h : Ran settings turns c) (events : List Event) :
    ∃ d, Ran settings (turns ++ c.turnsOf events) d := by
  induction events generalizing turns c with
  | nil => exact ⟨c, by simpa [turnsOf] using h⟩
  | cons e rest ih =>
    unfold turnsOf
    split
    · next hstep =>
      obtain ⟨d, hd⟩ := ih (h.step hstep)
      exact ⟨d, by simpa using hd⟩
    · exact ⟨c, by simpa using h⟩

-- Any things may happen to a new channel.
theorem exists_turnsOf (settings : ChannelSettings) (consumer : ConsumerId) (events : List Event) :
    ∃ d, Ran settings ((ofSettings consumer settings).turnsOf events) d :=
  (start consumer).exists_append_turnsOf events

-- To take over a contact is two turns at most: its press and the verdict on that.
theorem enter {contact : Contact} {now : Time} {id : EventId} (h : Ran settings turns c)
    (henter : c.enter contact now id = .ok d) :
    ∃ entered, Ran settings (turns ++ entered) d ∧ ∀ x ∈ entered,
      x.event = .touch (contact.synthesize .pressed now id) ∨ x.event = .ack id true false := by
  obtain ⟨⟨result, between⟩, htouch, hrest⟩ := bind_eq_ok.mp henter
  obtain ⟨first, hpress⟩ : ∃ gestures,
      c.step (.touch (contact.synthesize .pressed now id)) = .ok (gestures, between) :=
    ⟨_, map_eq_ok.mpr ⟨_, htouch, rfl⟩⟩
  dsimp only at hrest
  split at hrest
  · obtain ⟨second, hverdict⟩ : ∃ gestures, between.step (.ack id true false) = .ok (gestures, d) :=
      ⟨_, map_eq_ok.mpr ⟨d, hrest, rfl⟩⟩
    have hboth := (h.step hpress).step hverdict
    rw [List.append_assoc] at hboth
    exact ⟨_, hboth, by simp⟩
  · cases hrest
    exact ⟨_, h.step hpress, by simp⟩

-- The run up to some turn is a run itself.
theorem of_split (h : Ran settings turns c) :
    ∀ before x after, turns = before ++ x :: after →
      Ran settings before x.before ∧ x.before.step x.event = .ok (x.released, x.after) := by
  induction h with
  | start consumer => intro before x after hnil; simp at hnil
  | step h hstep ih => exact forall_split_concat ih ⟨h, hstep⟩

theorem lived (h : Ran settings turns c) :
    ∃ k : Chronicle, Lived (fun _ => True) k ∧ k.channel = c ∧
      k.released = turns.flatMap (·.released) ∧
      k.queued = turns.flatMap fun x => x.before.queuedBy x.event := by
  induction h with
  | start consumer => exact ⟨_, .start consumer settings, rfl, rfl, rfl⟩
  | @step turns c d e gestures _ hstep ih =>
    obtain ⟨k, hk, rfl, hreleased, hqueued⟩ := ih
    refine ⟨⟨d, k.queued ++ k.channel.queuedBy e, k.items ++ k.channel.itemsBy e,
      k.released ++ gestures⟩, hk.step trivial (map_eq_ok.mpr ⟨_, hstep, rfl⟩), rfl, ?_, ?_⟩
    · simp [hreleased]
    · simp [hqueued]

-- The detector is where the things that were asked of it have led it, and what it detected
-- was queued.
theorem detector (h : Ran settings turns c) (hf : View f) :
    c.detector = Detector.performAll { settings } (turns.flatMap Turn.ops) ∧
      turns.flatMap (Turn.shown f) =
        (Detector.history { settings } (turns.flatMap Turn.ops)).flatMap
          fun m => m.gestures.filterMap f := by
  induction h with
  | start consumer => exact ⟨rfl, rfl⟩
  | @step turns c d e gestures h hstep ih =>
    obtain ⟨k, hk, rfl, -⟩ := h.lived
    obtain ⟨hdetector, hdetected⟩ := detector_step hf hk.sound.head hstep
    obtain ⟨hbefore, hdetectedBefore⟩ := ih
    rw [List.flatMap_append, Detector.performAll_append, ← hbefore, Detector.history_append,
      ← hbefore, List.flatMap_append, List.flatMap_append, hdetectedBefore,
      List.flatMap_singleton, List.flatMap_singleton]
    exact ⟨hdetector, congrArg (_ ++ ·) hdetected⟩

-- What is shown of the gestures that are released is some of what was detected, in its order.
theorem filterMap_released (h : Ran settings turns c) (hf : View f) :
    ((turns.flatMap (·.released)).filterMap f).Sublist (turns.flatMap (Turn.shown f)) := by
  obtain ⟨k, hk, -, hreleased, hqueued⟩ := h.lived
  have hsound := hk.sound
  have hout : k.released.filterMap f = (Release.Outlet.replay {} k.items).1.filterMap f := by
    have hsame := congrArg (List.filterMap f) hsound.released
    simpa only [List.filterMap_map, Function.comp_def, hf.untallied] using hsame
  have hin : (Release.packetsOf k.items ++ k.channel.queue.packets).flatMap
      (fun p => p.gestures.filterMap f) = k.queued.flatMap fun p => p.gestures.filterMap f := by
    have hsame := congrArg (List.flatMap fun p => p.gestures.filterMap f) hsound.fifo
    simpa only [List.flatMap_map, hf.filterMap_unjudged] using hsame
  have hdetected : turns.flatMap (Turn.shown f) =
      k.queued.flatMap fun p => p.gestures.filterMap f := by
    rw [hqueued, List.flatMap_assoc]
    rfl
  rw [← hreleased, hout, hdetected, ← hin, List.flatMap_append]
  exact (Release.Outlet.filterMap_replay hf.detected {} hsound.alarms).trans
    (List.sublist_append_left _ _)

end Ran

end TouchGestures.Channel
