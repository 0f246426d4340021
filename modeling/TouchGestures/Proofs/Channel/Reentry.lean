import TouchGestures.Proofs.Channel.Pending
import TouchGestures.Proofs.Outcome
import TouchGestures.Proofs.Release.Entering

namespace TouchGestures

theorem Packet.isConsumed_of_ack {p q : Packet} {nonBlocking : Bool}
    (h : p.ack true nonBlocking = .ok q) : q.isConsumed = true := by
  unfold ack at h
  split at h
  · cases h
    rfl
  · cases h

namespace ContactTable

variable {t u : ContactTable} {touch : Touch}

-- The cancel of the oldest contact is accepted, and leaves the others.
theorem accept?_cancel {c : Contact} {rest : List Contact} (h : t.contacts = c :: rest)
    (now : Time) (id : EventId) :
    ∃ u, t.accept? (c.synthesize .cancelled now id) = some u ∧ u.action = .cancelled ∧
      u.settle.contacts = rest := by
  have hindex : t.index? c.details.id = some 0 := by
    simp [index?, h, List.findIdx?_cons, Contact.id]
  refine ⟨{ t.move (c.synthesize .cancelled now id) 0 with leaving := some c.details.id }.note
    (c.synthesize .cancelled now id) .cancelled 0, ?_, rfl, ?_⟩
  · simp only [accept?, Contact.synthesize, hindex]
  · simp [settle, note, move, h, Contact.synthesize, Contact.update, Contact.id]

-- A press that is accepted adds a contact after the others, and begins a stream if there
-- was none.
theorem press_eq_some (h : t.accept? touch = some u) (hkind : touch.kind = .pressed)
    (hleaving : t.leaving = none) :
    u.action = (if t.contacts.isEmpty then .began else .joined) ∧
      u.settle.contacts = t.contacts ++ [Contact.ofPress touch] := by
  obtain ⟨-, -, -, rfl⟩ | ⟨index, -, ⟨hmoved, -⟩ | ⟨action, -, ⟨hreleased, -⟩ | ⟨hcancelled, -⟩⟩⟩ :=
    accept?_eq_some h
  · refine ⟨rfl, ?_⟩
    rw [settle_of_leaving_eq_none (by exact hleaving), contacts_note]
  · rw [hkind] at hmoved
    cases hmoved
  · rw [hkind] at hreleased
    cases hreleased
  · rw [hkind] at hcancelled
    cases hcancelled

theorem accept?_press (h : t.accept? touch = some u) (hkind : touch.kind = .pressed)
    (hleaving : t.leaving = none) :
    u.action = (if t.contacts.isEmpty then .began else .joined) ∧ u.settle.contacts ≠ [] := by
  obtain ⟨haction, hcontacts⟩ := press_eq_some h hkind hleaving
  exact ⟨haction, by simp [hcontacts]⟩

end ContactTable

theorem Detector.exists_touch_of_cancelled (d : Detector) {t : ContactTable}
    (hlatest : t.latest.isSome = true) (haction : t.action = .cancelled) :
    ∃ result, d.touch t = some result := by
  obtain ⟨change, hchange⟩ := Option.isSome_iff_exists.mp hlatest
  have haction : change.action = .cancelled := by simpa [ContactTable.action, hchange] using haction
  simp [touch, hchange, refuses, haction]

namespace Channel.Chronicle

variable {k : Chronicle} {t : Touch}

theorem contacts_next_ack (k : Chronicle) (id : EventId) (consumed nonBlocking : Bool) :
    (k.next (.ack id consumed nonBlocking)).channel.contacts = k.channel.contacts := by
  unfold next
  split
  · next k' hk =>
    obtain ⟨gestures, channel, hstep, rfl⟩ := step_eq_ok hk
    obtain ⟨d, hack, heq⟩ := map_eq_ok.mp hstep
    obtain ⟨judged, -, rfl⟩ := ack_eq_ok hack
    cases heq
    rfl
  · rfl

theorem contacts_next_drain (k : Chronicle) :
    (k.next .drain).channel.contacts = k.channel.contacts := by
  rw [(next_drain k).1]
  rfl

theorem contacts_answer (k : Chronicle) (t : Touch) (consumed : Bool) :
    (k.answer t consumed).channel.contacts = (k.next (.touch t)).channel.contacts := by
  unfold answer
  split
  · exact contacts_next_ack _ _ _ _
  · rfl

theorem contacts_inject (k : Chronicle) (handles : Touch → Bool) (t : Touch) :
    (k.inject handles t).channel.contacts = (k.next (.touch t)).channel.contacts := by
  unfold inject
  split
  · rw [contacts_next_drain, contacts_answer]
  · exact contacts_answer _ _ _

-- Cancelling the oldest contact takes it out.
theorem contacts_inject_cancel {c : Contact} {rest : List Contact} (h : k.Sound)
    (hcontacts : k.channel.contacts.contacts = c :: rest) (handles : Touch → Bool) (now : Time)
    (id : EventId) :
    (k.inject handles (c.synthesize .cancelled now id)).channel.contacts.contacts = rest := by
  obtain ⟨contacts, haccept, haction, hrest⟩ := ContactTable.accept?_cancel hcontacts now id
  obtain ⟨⟨gestures, detector⟩, hdetect⟩ := k.channel.detector.exists_touch_of_cancelled
    (ContactTable.accepted_note haccept).2.1 haction
  rw [← ContactTable.settle_of_leaving_eq_none h.settled] at haccept
  obtain ⟨packet, -, -, htouch⟩ := touch_of_accept? h.head haccept hdetect
  rw [contacts_inject, (next_of_touch h htouch).1]
  exact hrest

-- Once the contacts of a channel are cancelled, none is down.
theorem contacts_injectAll_cancels (h : Lived (fun _ => True) k) (handles : Touch → Bool)
    (now : Time) (ids : EventIds) :
    ((k.channel.contacts.cancels now ids).1.foldl (·.inject handles) k).channel.contacts.contacts =
      [] := by
  rw [ContactTable.cancels_eq, ContactTable.live_of_leaving_eq_none h.sound.settled]
  generalize hcontacts : k.channel.contacts.contacts = contacts
  induction contacts generalizing k ids with
  | nil => exact hcontacts
  | cons c rest ih =>
    have hrest := contacts_inject_cancel h.sound hcontacts handles now ids.fresh.1
    exact ih (h.inject handles _) ids.fresh.2 hrest

-- What comes of a press that the consumer is said to have handled.
theorem exists_answered_press (h : Lived (fun _ => True) k) (hkind : t.kind = .pressed)
    (hfresh : ∀ p ∈ k.channel.queue.packets, p.eventId ≠ t.id) :
    ∃ added, Answered k [t.id] (k.answer t true) added ∧
      ((added = [] ∧ (k.answer t true).channel.contacts = k.channel.contacts) ∨
        ∃ p, added = [p] ∧ p.isConsumed = true ∧
          p.source = (if k.channel.contacts.contacts.isEmpty then .sequenceStart else .touchStart) ∧
          (k.answer t true).channel.contacts.contacts ≠ []) := by
  cases haccepts : k.accepts t with
  | false =>
    obtain ⟨hanswered, hcontacts⟩ := answered_of_rejected h haccepts true
    exact ⟨[], hanswered, .inl ⟨rfl, hcontacts⟩⟩
  | true =>
    obtain ⟨p, acked, hsome, hack, hanswered⟩ := answered_of_accepted h haccepts hfresh true
    refine ⟨[acked], hanswered, .inr ⟨acked, rfl, Packet.isConsumed_of_ack hack, ?_⟩⟩
    unfold accepts at haccepts
    cases htouch : k.channel.touch t with
    | error violation =>
      rw [htouch] at haccepts
      cases haccepts
    | ok result =>
      obtain ⟨result, channel⟩ := result
      simp only [htouch] at haccepts
      obtain ⟨hrejected, -, -⟩ | ⟨contacts, gestures, detector, packet, -, haccept, -, hpacket,
        hsome', hchannel⟩ := touch_cases h.sound.head htouch
      · rw [haccepts] at hrejected
        cases hrejected
      · rw [ContactTable.settle_of_leaving_eq_none h.sound.settled] at haccept
        obtain ⟨haction, hne⟩ := ContactTable.accept?_press haccept hkind h.sound.settled
        obtain ⟨change, contact, hlatest, -, rfl⟩ := Packet.ofTouch_eq_ok hpacket
        rw [hsome] at hsome'
        cases hsome'
        constructor
        · have hsource := Packet.source_eq_of_unjudged (Packet.unjudged_of_ack hack)
          have hchange : contacts.action = change.action := by simp [ContactTable.action, hlatest]
          rw [hsource, Packet.pushAll_eq, ← hchange, haction]
          split <;> rfl
        · rw [contacts_answer, (next_of_touch h.sound htouch).1, hchannel]
          exact hne

-- Presses that the consumer is said to have handled, one after the other.
theorem exists_entering {presses : List Touch} (h : Lived (fun _ => True) k)
    (hkinds : ∀ t ∈ presses, t.kind = .pressed) (hids : (presses.map (·.id)).Nodup)
    (hfresh : ∀ p ∈ k.channel.queue.packets, p.eventId ∉ presses.map (·.id)) :
    ∃ added, Answered k (presses.map (·.id)) (presses.foldl (fun k t => k.answer t true) k) added ∧
      Release.Entering k.channel.contacts.contacts.isEmpty added := by
  induction presses generalizing k with
  | nil => exact ⟨[], answered_nothing rfl rfl rfl, trivial⟩
  | cons t rest ih =>
    obtain ⟨added, hanswered, hadded⟩ := exists_answered_press h (hkinds t List.mem_cons_self)
      fun p hp hid => hfresh p hp (by simp [hid])
    obtain ⟨others, hothers, hentering⟩ := ih (h.answer t true)
      (fun u hu => hkinds u (List.mem_cons_of_mem _ hu)) (List.nodup_cons.mp hids).2
      (hanswered.fresh hids hfresh)
    refine ⟨added ++ others, hanswered.trans hothers, ?_⟩
    obtain ⟨rfl, hcontacts⟩ | ⟨p, rfl, hconsumed, hsource, hne⟩ := hadded
    · rwa [hcontacts] at hentering
    · refine ⟨hconsumed, hsource, ?_⟩
      rwa [List.isEmpty_eq_false_iff.mpr hne] at hentering

theorem exists_answered_reenter {presses : List Touch} (h : Lived (fun _ => True) k)
    (hkinds : ∀ t ∈ presses, t.kind = .pressed) (hids : (presses.map (·.id)).Nodup)
    (hfresh : ∀ p ∈ k.channel.queue.packets, p.eventId ∉ presses.map (·.id)) :
    ∃ added,
      Answered (k.next .forgetHistory) (presses.map (·.id)) (k.reenter presses) added ∧
        Release.Entering k.channel.contacts.contacts.isEmpty added := by
  have hchannel := (next_forgetHistory k).1
  obtain ⟨added, hanswered, hentering⟩ := exists_entering (h.next .forgetHistory) hkinds hids
    (by rwa [hchannel])
  rw [hchannel] at hentering
  exact ⟨added, hanswered.next_drain, hentering⟩

-- Whatever happens, what was released stays so.
theorem prefix_released_next (k : Chronicle) (e : Event) : k.released <+: (k.next e).released := by
  unfold next
  split
  · next k' hk =>
    obtain ⟨gestures, channel, -, rfl⟩ := step_eq_ok hk
    exact List.prefix_append _ _
  · exact List.prefix_refl _

theorem prefix_released_answer (k : Chronicle) (t : Touch) (consumed : Bool) :
    k.released <+: (k.answer t consumed).released := by
  unfold answer
  split
  · exact (prefix_released_next _ _).trans (prefix_released_next _ _)
  · exact prefix_released_next _ _

theorem prefix_released_reenter (k : Chronicle) (presses : List Touch) :
    k.released <+: (k.reenter presses).released := by
  refine List.IsPrefix.trans ?_ (prefix_released_next _ _)
  refine (prefix_released_next k .forgetHistory).trans ?_
  generalize k.next .forgetHistory = k
  induction presses generalizing k with
  | nil => exact List.prefix_refl _
  | cons t rest ih => exact (prefix_released_answer k t true).trans (ih _)

-- What is released is what comes of the items that are dealt with.
theorem Sound.released_since {k' : Chronicle} {gestures : List Gesture}
    {items : List Release.Item} (h : k.Sound) (h' : k'.Sound)
    (hreleased : k'.released = k.released ++ gestures) (hitems : k'.items = k.items ++ items) :
    gestures.map Gesture.untallied =
      (k.channel.queue.outlet.replay items).1.map Gesture.untallied := by
  have hall := h'.released
  rw [hreleased, hitems, Release.Outlet.replay_append, List.map_append, List.map_append,
    h.released, h.outlet] at hall
  exact List.append_cancel_left hall

-- When nothing is down, pressing contacts anew releases nothing.
theorem released_reenter {presses : List Touch} (h : Lived (fun _ => True) k)
    (hcontacts : k.channel.contacts.contacts = []) (hkinds : ∀ t ∈ presses, t.kind = .pressed)
    (hids : (presses.map (·.id)).Nodup)
    (hfresh : ∀ p ∈ k.channel.queue.packets, p.eventId ∉ presses.map (·.id)) :
    (k.reenter presses).released = k.released := by
  obtain ⟨added, hanswered, hentering⟩ := exists_answered_reenter h hkinds hids hfresh
  obtain ⟨hchannel, hforgotten⟩ := next_forgetHistory k
  obtain ⟨gestures, hgestures⟩ := prefix_released_reenter k presses
  have hnothing : ∃ items, (k.reenter presses).items = k.items ++ items ∧
      (k.channel.queue.outlet.replay items).1 = [] := by
    by_cases hempty : (k.next .forgetHistory).channel.queue.packets = []
    · refine ⟨.forgotten :: added.map .packet, ?_, ?_⟩
      · rw [(hanswered.empty hempty).2, hforgotten, List.append_assoc]
        rfl
      · rw [hcontacts] at hentering
        exact Release.Outlet.replay_entering (fun hfirst => by cases hfirst) ⟨rfl, rfl⟩ hentering
    · exact ⟨[.forgotten], (hanswered.waiting hempty).2.trans hforgotten, rfl⟩
  obtain ⟨items, hitems, hout⟩ := hnothing
  have hsince := h.sound.released_since (h.reenter presses).sound hgestures.symm hitems
  rw [hout, List.map_nil, List.map_eq_nil_iff] at hsince
  rw [← hgestures, hsince, List.append_nil]

end Channel.Chronicle

end TouchGestures
