import TouchGestures.Proofs.Channel.Hushed
import TouchGestures.Proofs.Channel.Standing
import TouchGestures.Proofs.Detector.Press

namespace TouchGestures

open Release (Outlet Queue)

theorem Gesture.eventId_untallied (g : Gesture) : g.untallied.eventId = g.eventId := by
  unfold untallied
  split <;> rfl

namespace Channel

-- Only touches begin or end a stream.
theorem isSome_stream_step {c d : Channel} {e : Event} {gestures : List Gesture}
    (he : ∀ t, e ≠ .touch t) (h : c.step e = .ok (gestures, d)) :
    d.detector.stream.isSome = c.detector.stream.isSome := by
  cases e with
  | touch t => exact absurd rfl (he t)
  | configure settings =>
    cases h
    exact Option.isSome_map
  | reassign consumer =>
    cases h
    rfl
  | ack | drain | tick | setDoubleTap | forgetHistory => exact (rests_step rfl h).stream

theorem queuedBy_of_ne_touch {c : Channel} {e : Event} (he : ∀ t, e ≠ .touch t) :
    c.queuedBy e = [] := by
  cases e with
  | touch t => exact absurd rfl (he t)
  | _ => rfl

namespace Chronicle

variable {k : Chronicle} {t : Touch} {p : Packet}

theorem attributed_queued (h : Lived (fun _ => True) k) : ∀ p ∈ k.queued, p.Attributed := by
  induction h with
  | start => simp
  | @step k k' e h _ hk ih =>
    obtain ⟨gestures, channel, hstep, rfl⟩ := step_eq_ok hk
    intro p hp
    rcases List.mem_append.mp hp with hp | hp
    · exact ih p hp
    · cases e with
      | touch t =>
        obtain ⟨⟨result, after⟩, htouch, -⟩ := map_eq_ok.mp hstep
        rw [queuedBy, Option.mem_toList] at hp
        obtain ⟨-, hnone, -⟩ | ⟨contacts, detected, detector, packet, -, -, -, hpacket, hsome, -⟩ :=
          touch_cases h.sound.head htouch
        · simp [hnone] at hp
        · rw [hsome, Option.some.injEq] at hp
          obtain ⟨change, contact, -, -, rfl⟩ := Packet.ofTouch_eq_ok hpacket
          exact hp ▸ Packet.attributed_pushAll _ _ rfl
      | _ => cases hp

-- When no stream is under way, the last touch that was accepted has closed one.
theorem closes_last_queued (h : Lived (fun _ => True) k)
    (hstream : k.channel.detector.stream = none) :
    ∀ p ∈ k.queued.getLast?, p.source.closesSequence = true := by
  induction h with
  | start => simp
  | @step k k' e h _ hk ih =>
    obtain ⟨gestures, channel, hstep, rfl⟩ := step_eq_ok hk
    by_cases he : ∃ t, e = .touch t
    · obtain ⟨t, rfl⟩ := he
      obtain ⟨⟨result, after⟩, htouch, heq⟩ := map_eq_ok.mp hstep
      cases heq
      obtain ⟨-, hnone, hsame⟩ | ⟨contacts, detected, detector, packet, -, haccept, hdetect,
        hpacket, hsome, rfl⟩ := touch_cases h.sound.head htouch
      · have hbefore : k.channel.detector.stream = none := by
          obtain rfl | rfl := hsame <;> exact hstream
        simpa [queuedBy, hnone] using ih hbefore
      · intro p hp
        simp only [queuedBy, hsome, Option.toList_some, List.getLast?_concat, Option.mem_def,
          Option.some.injEq] at hp
        subst hp
        obtain ⟨change, contact, hlatest, -, rfl⟩ := Packet.ofTouch_eq_ok hpacket
        have haction : contacts.action = change.action := by simp [ContactTable.action, hlatest]
        have hclosed := Detector.isSome_stream_touch (ContactTable.accepted_note haccept).1 hdetect
        have hnone : detector.stream.isSome = false := by
          rw [Option.isSome_eq_false_iff, Option.isNone_iff_eq_none]
          exact hstream
        rw [hnone, haction] at hclosed
        rw [Packet.pushAll_eq, Packet.Source.closesSequence_ofAction]
        by_contra hopen
        exact Bool.false_ne_true (hclosed.mpr (not_or.mp hopen))
    · have hne : ∀ t, e ≠ .touch t := fun t heq => he ⟨t, heq⟩
      have hbefore : k.channel.detector.stream = none := by
        have hsame := isSome_stream_step hne hstep
        rw [hstream, Option.isSome_none, eq_comm, Option.isSome_eq_false_iff,
          Option.isNone_iff_eq_none] at hsame
        exact hsame
      simpa [queuedBy_of_ne_touch hne] using ih hbefore

-- The packets that wait are the last ones that were queued.
theorem Sound.suffix_queued (h : k.Sound) :
    k.channel.queue.packets.map Packet.unjudged <:+ k.queued.map Packet.unjudged := by
  rw [← h.fifo, List.map_append]
  exact List.suffix_append _ _

theorem attributed_of_mem_packets (h : Lived (fun _ => True) k) (hp : p ∈ k.channel.queue.packets) :
    p.Attributed := by
  obtain ⟨q, hq, hsame⟩ :=
    List.mem_map.mp (h.sound.suffix_queued.subset (List.mem_map_of_mem hp))
  exact (attributed_queued h q hq).of_unjudged hsame.symm

theorem closes_last_packet (h : Lived (fun _ => True) k)
    (hstream : k.channel.detector.stream = none)
    (hp : k.channel.queue.packets.getLast? = some p) : p.source.closesSequence = true := by
  obtain ⟨before, hsplit⟩ := h.sound.suffix_queued
  have hlast := congrArg List.getLast? hsplit
  rw [List.getLast?_append, List.getLast?_map, hp, List.getLast?_map, Option.map_some,
    Option.some_or, eq_comm, Option.map_eq_some_iff] at hlast
  obtain ⟨q, hq, hsame⟩ := hlast
  rw [← Packet.source_eq_of_unjudged hsame]
  exact closes_last_queued h hstream q hq

-- The contacts of a channel were pressed anew, and nothing came of it or else a stream from
-- which nothing goes out. The older touches are those with the given numbers.
inductive Entered (k : Chronicle) (old : List EventId) : Prop
  | idle (hcontacts : k.channel.contacts.contacts = [])
    (hold : ∀ p ∈ k.channel.queue.packets, p.eventId ∈ old)
  | streaming (hhushed : k.channel.queue.Hushed old)
    (hpress : ∀ id ∈ k.channel.detector.pressId?, id ∉ old)

-- The gestures of alarms that ring while packets wait, and overtake them.
def overtaking (k : Chronicle) (now : Time) : List Gesture :=
  if k.channel.queue.packets = [] then [] else (k.channel.detector.tick now).1

-- What comes of an event on such a channel, with the gestures of the new stream that go out.
structure Proceeds (k : Chronicle) (old : List EventId) (k' : Chronicle) (given : List Gesture) :
    Prop where
  entered : k'.Entered old
  consumer : k'.channel.consumer = k.channel.consumer
  given : ∃ gestures, k'.released = k.released ++ gestures ∧
    gestures.filter (fun g => g.eventId ∉ old) = given

section Proceeds

variable {k₁ k₂ : Chronicle} {old : List EventId} {first second : List Gesture} {id : EventId}
  {consumed nonBlocking : Bool} {now : Time}

theorem Entered.proceeds_refl (h : k.Entered old) : k.Proceeds old k [] where
  entered := h
  consumer := rfl
  given := ⟨[], by simp, rfl⟩

theorem Proceeds.trans (h : k.Proceeds old k₁ first) (h' : k₁.Proceeds old k₂ second) :
    k.Proceeds old k₂ (first ++ second) where
  entered := h'.entered
  consumer := h'.consumer.trans h.consumer
  given := by
    obtain ⟨gestures, hreleased, hfirst⟩ := h.given
    obtain ⟨others, hreleased', hsecond⟩ := h'.given
    refine ⟨gestures ++ others, by rw [hreleased', hreleased, List.append_assoc], ?_⟩
    rw [List.filter_append, hfirst, hsecond]

theorem Entered.congr (h : k.Entered old) (hqueue : k₁.channel.queue = k.channel.queue)
    (hcontacts : k₁.channel.contacts.contacts = k.channel.contacts.contacts)
    (hpress : k₁.channel.detector.pressId? = k.channel.detector.pressId?) : k₁.Entered old := by
  cases h with
  | idle hnone hold => exact .idle (hcontacts.trans hnone) (hqueue ▸ hold)
  | streaming hhushed hnew => exact .streaming (hqueue ▸ hhushed) (hpress ▸ hnew)

theorem Entered.next_drain (h : k.Entered old) : k.Proceeds old (k.next .drain) [] where
  entered := by
    refine h.congr ?_ ?_ ?_ <;> rw [(Chronicle.next_drain k).1] <;> rfl
  consumer := by rw [(Chronicle.next_drain k).1]; rfl
  given := ⟨[], by rw [(Chronicle.next_drain k).2, List.append_nil], rfl⟩

theorem Entered.next_configure (h : k.Entered old) (settings : ChannelSettings) :
    k.Proceeds old (k.next (.configure settings)) [] := by
  have hnext := next_of_step (k := k) (e := .configure settings) rfl
  refine ⟨h.congr ?_ ?_ ?_, ?_, [], ?_, rfl⟩ <;> rw [hnext]
  · rfl
  · rfl
  · exact Detector.pressId?_configure _ _
  · rfl

-- A touch joins the stream, unless it would begin another.
theorem Entered.next_touch (h : k.Entered old) (hsound : k.Sound)
    (hdown : k.accepts t = true → k.channel.contacts.contacts ≠ []) :
    k.Proceeds old (k.next (.touch t)) [] := by
  obtain ⟨result, channel, htouch⟩ := exists_touch hsound t
  obtain ⟨hchannel, -, hreleased⟩ := next_of_touch hsound htouch
  refine ⟨?_, (fixed_next_touch hsound t).1, [], by rw [hreleased, List.append_nil], rfl⟩
  cases haccepts : k.accepts t with
  | false =>
    have hsame := channel_of_not_accepts hsound haccepts
    exact h.congr (by rw [hsame]) (by rw [hsame]) (by rw [hsame])
  | true =>
    have hne := hdown haccepts
    obtain ⟨hrejected, -, -⟩ | ⟨contacts, gestures, detector, packet, -, haccept, hdetect, hpacket,
      -, rfl⟩ := touch_cases hsound.head htouch
    · simp [accepts, htouch, hrejected] at haccepts
    · rw [ContactTable.settle_of_leaving_eq_none hsound.settled] at haccept
      have hbegan : contacts.action ≠ .began :=
        fun hbegan => hne ((ContactTable.action_eq_began_iff haccept).mp hbegan)
      cases h with
      | idle hcontacts _ => exact absurd hcontacts hne
      | streaming hhushed hpress =>
        obtain ⟨change, contact, hlatest, -, rfl⟩ := Packet.ofTouch_eq_ok hpacket
        refine .streaming ?_ fun id hid => ?_
        · rw [hchannel]
          refine hhushed.append ?_
          have haction : contacts.action = change.action := by simp [ContactTable.action, hlatest]
          rw [Packet.pushAll_eq]
          rw [haction] at hbegan
          cases hchange : change.action <;> simp_all [Packet.Source.ofAction]
        · rw [hchannel] at hid
          obtain hsame | hnone := Detector.pressId?_touch hbegan hdetect
          · exact hpress id (hsame ▸ hid)
          · change id ∈ detector.pressId? at hid
            rw [hnone] at hid
            cases hid

theorem detector_next_ack (k : Chronicle) (id : EventId) (consumed nonBlocking : Bool) :
    (k.next (.ack id consumed nonBlocking)).channel.detector = k.channel.detector := by
  unfold next
  split
  · next k' hk =>
    obtain ⟨gestures, channel, hstep, rfl⟩ := step_eq_ok hk
    obtain ⟨d, hack, heq⟩ := map_eq_ok.mp hstep
    cases heq
    exact (detector_ack hack).2
  · rfl

-- Whatever a verdict lets out is older than the stream.
theorem Entered.next_ack (h : k.Entered old) (hk : Lived (fun _ => True) k) (id : EventId)
    (consumed nonBlocking : Bool) :
    k.Proceeds old (k.next (.ack id consumed nonBlocking)) [] := by
  cases hack : k.channel.ack id consumed nonBlocking with
  | error violation =>
    have hsame : k.next (.ack id consumed nonBlocking) = k := by
      simp [next, step, Channel.step, hack]
    rw [hsame]
    exact h.proceeds_refl
  | ok channel =>
    obtain ⟨judged, hjudge, rfl⟩ := ack_eq_ok hack
    obtain ⟨hqueue, hitems, -⟩ := next_of_judge hjudge
    obtain ⟨-, hreleased⟩ := next_of_ack hack
    have hcontacts := contacts_next_ack k id consumed nonBlocking
    have hdetector := detector_next_ack k id consumed nonBlocking
    have hboth : (k.next (.ack id consumed nonBlocking)).Entered old ∧
        ∀ g ∈ (k.channel.queue.outlet.replay ((Queue.ready judged).map .packet)).1,
          g.eventId ∈ old := by
      cases h with
      | idle hnone hold =>
        have hjudged : ∀ p ∈ judged, p.eventId ∈ old ∧ p.Attributed := by
          intro p hp
          obtain ⟨r, hr, hsame⟩ := Queue.exists_earlier (Queue.forall₂_later_judge hjudge) hp
          rw [Packet.eventId_eq_of_unjudged hsame]
          exact ⟨hold r hr, (attributed_of_mem_packets hk hr).of_unjudged hsame⟩
        refine ⟨.idle (by rw [hcontacts, hnone]) fun p hp => ?_, fun g hg => ?_⟩
        · rw [hqueue] at hp
          exact (hjudged p (Queue.waiting_subset judged hp)).1
        · obtain ⟨p, hp, hid⟩ := Outlet.eventId_of_mem_replay
            (fun p hp => (hjudged p (Queue.ready_subset judged hp)).2) hg
          exact hid ▸ (hjudged p (Queue.ready_subset judged hp)).1
      | streaming hhushed hpress =>
        obtain ⟨hhushed', hout⟩ := hhushed.judge hjudge
        refine ⟨.streaming (hqueue ▸ hhushed') fun id hid => hpress id ?_, hout⟩
        rwa [hdetector] at hid
    refine ⟨hboth.1, (rests_next rfl).consumer, _, hreleased, ?_⟩
    have hsince := hk.sound.released_since (hk.next _).sound hreleased hitems
    rw [List.filter_eq_nil_iff]
    intro g hg
    have hmem := List.mem_map_of_mem (f := Gesture.untallied) hg
    rw [hsince] at hmem
    obtain ⟨g', hg', hsame⟩ := List.mem_map.mp hmem
    have hid : g'.eventId = g.eventId := by
      rw [← g'.eventId_untallied, hsame, g.eventId_untallied]
    simpa [hid] using hboth.2 g' hg'

theorem numberAll_of_alarms {thresholds : Thresholds} {previous : Option CountedTap}
    {gestures : List Gesture}
    (hkinds : ∀ g ∈ gestures, g.kind = .showPress ∨ g.kind = .longPress) :
    (numberAll thresholds previous gestures).1 = gestures := by
  induction gestures generalizing previous with
  | nil => rfl
  | cons g rest ih =>
    have hfirst : number thresholds previous g = (g, previous) := by
      unfold number
      split
      · next htap =>
        have hkind := hkinds g List.mem_cons_self
        simp [Gesture.kind, htap, Gesture.Payload.kind] at hkind
      · rfl
    simp only [numberAll, hfirst]
    rw [ih fun g hg => hkinds g (List.mem_cons_of_mem _ hg)]

-- Of the alarms of the stream just those go out that ring while packets wait.
theorem Entered.next_tick (h : k.Entered old) (hk : Lived (fun _ => True) k) (now : Time) :
    k.Proceeds old (k.next (.tick now)) (k.overtaking now) := by
  have htick := tick_eq k.channel now
  obtain ⟨hchannel, -, hreleased⟩ := next_of_tick htick
  have hkinds : ∀ g ∈ (k.channel.detector.tick now).1, g.kind = .showPress ∨ g.kind = .longPress :=
    fun g hg => Detector.kind_of_mem_tick hg
  have hitems : k.channel.itemsBy (.tick now) = (k.channel.detector.tick now).1.map fun g =>
      .alarm (Packet.ofTimeout g) k.channel.queue.isEmpty := rfl
  cases h with
  | idle hcontacts hold =>
    have hstream := hk.sound.idle hcontacts
    have hnone : (k.channel.detector.tick now).1 = [] := by simp [Detector.tick, hstream]
    refine ⟨.idle ?_ ?_, (rests_next rfl).consumer, [], ?_, ?_⟩
    · rw [hchannel]
      exact hcontacts
    · rw [hchannel]
      exact hold
    · rw [hreleased, hitems, hnone]
      rfl
    · simp [overtaking, hnone]
  | streaming hhushed hpress =>
    have hpress' : ∀ id ∈ (k.next (.tick now)).channel.detector.pressId?, id ∉ old := by
      intro id hid
      rw [hchannel] at hid
      exact hpress id (Detector.pressId?_tick k.channel.detector now ▸ hid)
    by_cases hempty : k.channel.queue.packets = []
    · cases hhushed with
      | behind hpackets => simp [hempty] at hpackets
      | muted hmuted hpackets =>
        have hsuppressing : k.channel.queue.isEmpty = true := by simp [Queue.isEmpty, hempty]
        rw [hsuppressing] at hitems
        obtain ⟨hout, hmuted'⟩ := hmuted.replay_alarms (k.channel.detector.tick now).1
        refine ⟨.streaming (.muted ?_ ?_) hpress', (rests_next rfl).consumer, [], ?_, ?_⟩
        · rw [hchannel, hitems]
          exact hmuted'
        · rw [hchannel]
          exact hpackets
        · rw [hreleased, hitems, hout]
          rfl
        · simp [overtaking, hempty]
    · have hwaiting : k.channel.queue.isEmpty = false := by simp [Queue.isEmpty, hempty]
      rw [hwaiting] at hitems
      have hout := Outlet.replay_alarms_of_waiting (o := k.channel.queue.outlet) hkinds
      refine ⟨.streaming ?_ hpress', (rests_next rfl).consumer,
        (k.channel.detector.tick now).1, ?_, ?_⟩
      · rw [hchannel, hitems, hout]
        exact hhushed
      · rw [hreleased, hitems, hout]
        exact congrArg (k.released ++ ·) (numberAll_of_alarms hkinds)
      · rw [overtaking, if_neg hempty, List.filter_eq_self]
        intro g hg
        simpa using hpress _ (Detector.pressId?_of_mem_tick hg)

theorem contacts_ne_nil_of_accepts (hsound : k.Sound) (hkind : t.kind ≠ .pressed)
    (haccepts : k.accepts t = true) : k.channel.contacts.contacts ≠ [] := by
  obtain ⟨contacts, -, haccept, -⟩ := (accepts_iff hsound).mp haccepts
  intro hnil
  have hmem := (ContactTable.mem_ids_of_accept? haccept).mpr hkind
  rw [ContactTable.ids_eq_nil_iff.mpr hnil] at hmem
  cases hmem

theorem Entered.answer (h : k.Entered old) (hk : Lived (fun _ => True) k) (consumed : Bool)
    (hdown : k.accepts t = true → k.channel.contacts.contacts ≠ []) :
    k.Proceeds old (k.answer t consumed) [] := by
  have htouched := h.next_touch hk.sound hdown
  unfold Chronicle.answer
  split
  · exact htouched.trans (htouched.entered.next_ack (hk.next _) t.id consumed false)
  · exact htouched

theorem Entered.inject (h : k.Entered old) (hk : Lived (fun _ => True) k)
    (handles : Touch → Bool) (hkind : t.kind ≠ .pressed) :
    k.Proceeds old (k.inject handles t) [] := by
  have hanswered := h.answer hk (handles t) (contacts_ne_nil_of_accepts hk.sound hkind)
  unfold Chronicle.inject
  split
  · exact hanswered.trans hanswered.entered.next_drain
  · exact hanswered

-- Nothing of the stream goes out when its contacts are cancelled.
theorem Entered.injectAll {touches : List Touch} (h : k.Entered old)
    (hk : Lived (fun _ => True) k) (handles : Touch → Bool)
    (hkinds : ∀ t ∈ touches, t.kind ≠ .pressed) :
    k.Proceeds old (touches.foldl (·.inject handles) k) [] := by
  induction touches generalizing k with
  | nil => exact h.proceeds_refl
  | cons t rest ih =>
    have hfirst := h.inject hk handles (hkinds t List.mem_cons_self)
    exact hfirst.trans (ih hfirst.entered (hk.inject handles t)
      fun t ht => hkinds t (List.mem_cons_of_mem _ ht))

end Proceeds

section Presses

variable {old : List EventId} {presses : List Touch}

-- The first press that is accepted begins a stream.
theorem pressId?_answer_press (hk : Lived (fun _ => True) k)
    (hcontacts : k.channel.contacts.contacts = []) (hkind : t.kind = .pressed)
    (haccepts : k.accepts t = true) (consumed : Bool) :
    (k.answer t consumed).channel.detector.pressId? = some t.id ∧
      (k.answer t consumed).channel.contacts.contacts ≠ [] := by
  obtain ⟨contacts, htakes⟩ := exists_takes hk.sound haccepts
  obtain ⟨hacting, -, hid⟩ := ContactTable.accepted_note htakes.accept
  obtain ⟨gestures, hdetect⟩ := htakes.detect
  have hbegan := (ContactTable.action_eq_began_iff htakes.accept).mpr hcontacts
  constructor
  · have hanswer : k.answer t consumed =
        (k.next (.touch t)).next (.ack t.id consumed false) := by simp [Chronicle.answer, haccepts]
    rw [hanswer, detector_next_ack, Detector.pressId?_of_began hacting hbegan hdetect, hid]
  · rw [contacts_answer, htakes.contacts]
    exact (ContactTable.accept?_press htakes.accept hkind hk.sound.settled).2

-- That stream belongs to the consumer.
theorem entered_answer_press (hk : Lived (fun _ => True) k)
    (hcontacts : k.channel.contacts.contacts = []) (hclosed : k.channel.queue.outlet.Closed)
    (hold : ∀ p ∈ k.channel.queue.packets, p.eventId ∈ old) (hkind : t.kind = .pressed)
    (hnew : t.id ∉ old) (haccepts : k.accepts t = true) :
    (k.answer t true).Entered old ∧ (k.answer t true).channel.contacts.contacts ≠ [] := by
  have hfresh : ∀ p ∈ k.channel.queue.packets, p.eventId ≠ t.id := by
    rintro p hp hid
    exact hnew (hid ▸ hold p hp)
  obtain ⟨hpress, hdown⟩ := pressId?_answer_press hk hcontacts hkind haccepts true
  refine ⟨.streaming ?_ fun id hid => ?_, hdown⟩
  · obtain ⟨added, hanswered, ⟨-, hsame⟩ | ⟨p, rfl, hconsumed, hsource, -⟩⟩ :=
      exists_answered_press hk hkind hfresh
    · rw [hsame] at hdown
      exact absurd hcontacts hdown
    · rw [hcontacts] at hsource
      by_cases hempty : k.channel.queue.packets = []
      · obtain ⟨hempty', hitems⟩ := hanswered.empty hempty
        have houtlet := (hk.answer t true).sound.outlet
        rw [hitems, Outlet.replay_append, hk.sound.outlet, List.map_singleton,
          Outlet.replay_singleton, Outlet.take] at houtlet
        refine .muted (houtlet ▸ (hclosed.release_start hsource hconsumed).2) ?_
        simp [hempty']
      · have holder : Queue.Older k.channel.queue.packets old := by
          refine ⟨hold, fun p hp => attributed_of_mem_packets hk hp, _,
            List.getLast?_eq_some_getLast hempty, ?_⟩
          exact closes_last_packet hk (hk.sound.idle hcontacts)
            (List.getLast?_eq_some_getLast hempty)
        have hpackets := congrArg Queue.packets (hanswered.waiting hempty).1
        exact .behind hpackets holder hsource hconsumed (by simp)
  · rw [hpress] at hid
    cases hid
    exact hnew

-- Contacts that are pressed anew where none is down have entered.
theorem entered_answerAll (hk : Lived (fun _ => True) k)
    (hstate : (k.channel.contacts.contacts = [] ∧ k.channel.queue.outlet.Closed ∧
      ∀ p ∈ k.channel.queue.packets, p.eventId ∈ old) ∨
      (k.Entered old ∧ k.channel.contacts.contacts ≠ []))
    (hkinds : ∀ t ∈ presses, t.kind = .pressed) (hnew : ∀ t ∈ presses, t.id ∉ old) :
    (presses.foldl (fun k t => k.answer t true) k).Entered old := by
  induction presses generalizing k with
  | nil =>
    obtain ⟨hcontacts, -, hold⟩ | ⟨hentered, -⟩ := hstate
    · exact .idle hcontacts hold
    · exact hentered
  | cons t rest ih =>
    rw [List.foldl_cons]
    refine ih (hk.answer t true) ?_ (fun u hu => hkinds u (List.mem_cons_of_mem _ hu))
      fun u hu => hnew u (List.mem_cons_of_mem _ hu)
    cases haccepts : k.accepts t with
    | false =>
      have hanswer : k.answer t true = k.next (.touch t) := by simp [Chronicle.answer, haccepts]
      rw [hanswer, channel_of_not_accepts hk.sound haccepts]
      obtain hidle | ⟨hentered, hdown⟩ := hstate
      · exact .inl hidle
      · exact .inr ⟨(hentered.next_touch hk.sound fun _ => hdown).entered, hdown⟩
    | true =>
      right
      have hkind := hkinds t List.mem_cons_self
      obtain ⟨hcontacts, hclosed, hold⟩ | ⟨hentered, hdown⟩ := hstate
      · exact entered_answer_press hk hcontacts hclosed hold hkind (hnew t List.mem_cons_self)
          haccepts
      · refine ⟨(hentered.answer hk true fun _ => hdown).entered, ?_⟩
        obtain ⟨contacts, htakes⟩ := exists_takes hk.sound haccepts
        rw [contacts_answer, htakes.contacts]
        exact (ContactTable.accept?_press htakes.accept hkind hk.sound.settled).2

theorem entered_reenter (hk : Lived (fun _ => True) k)
    (hcontacts : k.channel.contacts.contacts = [])
    (hold : ∀ p ∈ k.channel.queue.packets, p.eventId ∈ old)
    (hkinds : ∀ t ∈ presses, t.kind = .pressed) (hnew : ∀ t ∈ presses, t.id ∉ old) :
    (k.reenter presses).Entered old := by
  have hchannel := (next_forgetHistory k).1
  have hstate : (k.next .forgetHistory).channel.contacts.contacts = [] ∧
      (k.next .forgetHistory).channel.queue.outlet.Closed ∧
      ∀ p ∈ (k.next .forgetHistory).channel.queue.packets, p.eventId ∈ old := by
    rw [hchannel]
    exact ⟨hcontacts, ⟨rfl, rfl⟩, hold⟩
  exact (entered_answerAll (hk.next _) (.inl hstate) hkinds hnew).next_drain.entered

end Presses

end Chronicle

end Channel

end TouchGestures
