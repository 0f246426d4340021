import TouchGestures.Proofs.Channel.Settling
import TouchGestures.Proofs.Release.Closing

namespace TouchGestures

open Gesture (Family)
open Release (Item Outlet packetsOf outOf firstEnding WillClose)

namespace Gesture

-- Only the kinds of gestures matter.
theorem Family.closes_congr {f : Family} {first second : List Gesture}
    (h : first.map kind = second.map kind) : f.Closes first ↔ f.Closes second := by
  induction first generalizing second with
  | nil =>
    have hnil : second = [] := by simpa using h.symm
    rw [hnil]
  | cons g rest ih =>
    match second with
    | [] => simp at h
    | g' :: rest' =>
      simp only [List.map_cons, List.cons.injEq] at h
      have hmarks : f.marks g = f.marks g' := by simp [marks, h.1]
      cases hg : f.marks g with
      | false =>
        rw [closes_cons_of_not_marks hg, closes_cons_of_not_marks (hmarks ▸ hg), ih h.2]
      | true =>
        rw [hg] at hmarks
        simp [Closes, hg, ← hmarks, h.1]

end Gesture

namespace Channel.Chronicle

variable {k k₁ k₂ : Chronicle} {f : Family} {gestures : List Gesture} {ids : List EventId}
  {added released : List Packet}

-- Whether a family is open in the packets that the outlet has dealt with.
def isOpen (k : Chronicle) (f : Family) : Bool :=
  Packet.course f false (packetsOf k.items) = some true

theorem Sound.course_items (h : k.Sound) (f : Family) :
    Packet.course f false (packetsOf k.items) = some (k.isOpen f) := by
  have hqueued := h.course f
  rw [← Packet.course_congr h.fifo] at hqueued
  obtain ⟨between, hbetween, -⟩ := Packet.course_append_eq_some hqueued
  unfold isOpen
  rw [hbetween]
  cases between <;> rfl

theorem Sound.faithful (h : k.Sound) (f : Family) :
    Outlet.Faithful f k.channel.queue.outlet (k.isOpen f) := by
  rw [← h.outlet]
  exact Outlet.faithful_replay (Outlet.faithful_empty f false) (h.course_items f) h.alarms

-- When no contact is down, the packets since some time leave everything closed.
theorem Sound.course_since (h : k.Sound) (h₁ : k₁.Sound)
    (hcontacts : k₁.channel.contacts.contacts = [])
    (hitems : packetsOf k₁.items = packetsOf k.items ++ released) (f : Family) :
    Packet.course f (k.isOpen f) (released ++ k₁.channel.queue.packets) = some false := by
  have hqueued := h₁.course f
  rw [Detector.isOpen_of_stream_eq_none (h₁.idle hcontacts), ← Packet.course_congr h₁.fifo, hitems,
    List.append_assoc, Packet.course_append, h.course_items, Option.bind_some] at hqueued
  exact hqueued

-- What is heard since some time, if all that went out are packets that leave everything
-- closed.
theorem Sound.closes_since {o : Outlet} {items : List Item} {packets : List Packet}
    (h : k.Sound) (h₁ : k₁.Sound) (hf : f ≠ .pinch)
    (hreleased : k₁.released = k.released ++ gestures) (hitems : k₁.items = k.items ++ items)
    (hout : (k.channel.queue.outlet.replay items).1 = (o.replay (packets.map .packet)).1)
    (ho : Outlet.Faithful f o (k.isOpen f))
    (hcourse : Packet.course f (k.isOpen f) packets = some false) :
    f.Closes gestures ↔ WillClose f o (k.isOpen f) (firstEnding f packets) := by
  have hsince := h.released_since h₁ hreleased hitems
  rw [hout, ← Release.Outlet.outOf_history] at hsince
  rw [Family.closes_congr (Gesture.map_kind_of_map_untallied hsince)]
  exact Outlet.closes_history ho hf hcourse

-- Cancels on a channel where nothing waits are heard at once.
theorem closes_of_cancels (h : k.Sound) (h₁ : k₁.Sound) (hf : f ≠ .pinch)
    (hanswered : Answered k ids k₁ added) (hempty : k.channel.queue.packets = [])
    (hcontacts : k₁.channel.contacts.contacts = [])
    (hreleased : k₁.released = k.released ++ gestures) (more : List Packet) :
    f.Closes gestures ↔
      WillClose f k.channel.queue.outlet (k.isOpen f) (firstEnding f (added ++ more)) := by
  obtain ⟨hqueue, hitems⟩ := hanswered.empty hempty
  have hcourse : Packet.course f (k.isOpen f) added = some false := by
    have hpackets : packetsOf k₁.items = packetsOf k.items ++ added := by simp [hitems]
    have hsince := h.course_since h₁ hcontacts hpackets f
    rwa [hqueue, List.append_nil] at hsince
  rw [Outlet.willClose_append more hcourse]
  exact h.closes_since h₁ hf hreleased hitems rfl (h.faithful f) hcourse

-- Cancels on a channel where something waits are heard with the verdicts.
theorem closes_of_settling (h : k.Sound) (h₂ : k₂.Sound) (hf : f ≠ .pinch)
    (hanswered : Answered k ids k₁ added) (hne : k.channel.queue.packets ≠ [])
    (hcontacts : k₁.channel.contacts.contacts = []) (hsettling : Settling k₁ k₂ released)
    (hempty : k₂.channel.queue.packets = []) (hreleased : k₂.released = k.released ++ gestures) :
    f.Closes gestures ↔
      WillClose f k.channel.queue.outlet (k.isOpen f) (firstEnding f released) := by
  obtain ⟨-, hitems₁⟩ := hanswered.waiting hne
  have hitems₂ : k₂.items = k.items ++ released.map .packet := by
    rw [hsettling.items, hitems₁]
  have hcontacts₂ : k₂.channel.contacts.contacts = [] := by
    rw [hsettling.contacts, hcontacts]
  have hcourse : Packet.course f (k.isOpen f) released = some false := by
    have hpackets : packetsOf k₂.items = packetsOf k.items ++ released := by simp [hitems₂]
    have hsince := h.course_since h₂ hcontacts₂ hpackets f
    rwa [hempty, List.append_nil] at hsince
  exact h.closes_since h₂ hf hreleased hitems₂ rfl (h.faithful f) hcourse

-- Contacts that are pressed anew on a channel where something waits wait behind it.
theorem Answered.reentered {kr : Chronicle} {ids' : List EventId} {entered : List Packet}
    (h : Answered k ids k₁ added) (hreentered : Answered (k₁.next .forgetHistory) ids' kr entered)
    (hne : k.channel.queue.packets ≠ []) :
    kr.channel.queue.packets = k₁.channel.queue.packets ++ entered ∧
      kr.items = k.items ++ [.forgotten] := by
  obtain ⟨hqueue₁, hitems₁⟩ := h.waiting hne
  obtain ⟨hchannel, hforgotten⟩ := next_forgetHistory k₁
  have hne₁ : (k₁.next .forgetHistory).channel.queue.packets ≠ [] := by
    rw [hchannel]
    change k₁.channel.queue.packets ≠ []
    rw [hqueue₁]
    simp [hne]
  obtain ⟨hqueue, hitems⟩ := hreentered.waiting hne₁
  constructor
  · rw [hqueue, hchannel]
    rfl
  · rw [hitems, hforgotten, hitems₁]

-- Packets that have their verdicts go out as they are, behind those before them.
theorem Settling.split {waiting judged : List Packet} (h : Settling k k₁ released)
    (hempty : k₁.channel.queue.packets = [])
    (hpackets : k.channel.queue.packets = waiting ++ judged)
    (hjudged : ∀ p ∈ judged, p.isPending = false) :
    ∃ before, List.Forall₂ Packet.Later waiting before ∧ released = before ++ judged := by
  have hlater := h.packets
  rw [hempty, List.append_nil, hpackets] at hlater
  have hfirst := List.forall₂_take waiting.length hlater
  have hsecond := List.forall₂_drop waiting.length hlater
  rw [List.take_left] at hfirst
  rw [List.drop_left] at hsecond
  have hsame := eq_of_forall₂_judged hsecond hjudged
  refine ⟨_, hfirst, ?_⟩
  rw [← hsame, List.take_append_drop]

-- So they are when the channel changes hands, but by then the history is forgotten.
theorem closes_of_reentry {kr : Chronicle} {ids' : List EventId} {entered : List Packet}
    (h : k.Sound) (h₁ : k₁.Sound) (h₂ : k₂.Sound) (hf : f ≠ .pinch)
    (hanswered : Answered k ids k₁ added) (hne : k.channel.queue.packets ≠ [])
    (hcontacts : k₁.channel.contacts.contacts = [])
    (hreentered : Answered (k₁.next .forgetHistory) ids' kr entered)
    (hentering : Release.Entering true entered) (hsettling : Settling kr k₂ released)
    (hempty : k₂.channel.queue.packets = []) (hreleased : k₂.released = k.released ++ gestures) :
    f.Closes gestures ↔ WillClose f {} (k.isOpen f) (firstEnding f released) := by
  have hitems₁ := (hanswered.waiting hne).2
  obtain ⟨hpackets, hitems⟩ := hanswered.reentered hreentered hne
  obtain ⟨before, hbefore, rfl⟩ :=
    hsettling.split hempty hpackets fun p hp => (hreentered.judged p hp).1
  have hcourse : ∀ f' : Family, Packet.course f' (k.isOpen f') before = some false := by
    intro f'
    rw [Packet.course_congr (map_unjudged_of_forall₂ hbefore)]
    have hnone : packetsOf k₁.items = packetsOf k.items ++ [] := by simp [hitems₁]
    exact h.course_since h₁ hcontacts hnone f'
  have hitems₂ : k₂.items = k.items ++ .forgotten :: (before ++ entered).map .packet := by
    rw [hsettling.items, hitems, List.append_assoc]
    rfl
  have hclosed : (Outlet.replay {} (before.map .packet)).2.Closed := by
    refine Outlet.closed_of_faithful fun f' => ?_
    exact Outlet.faithful_replay (Outlet.faithful_empty f' (k.isOpen f'))
      (by rw [Release.packetsOf_map_packet, hcourse f']) (Release.pressAlarms_map_packet before)
  have hout : (k.channel.queue.outlet.replay
      (.forgotten :: (before ++ entered).map .packet)).1 =
        (Outlet.replay {} (before.map .packet)).1 := by
    rw [Outlet.replay_cons, Outlet.take, List.nil_append, List.map_append, Outlet.replay_append,
      Outlet.replay_entering (fun hfirst => by cases hfirst) hclosed hentering, List.append_nil]
  rw [Outlet.willClose_append entered (hcourse f)]
  exact h.closes_since h₂ hf hreleased hitems₂ hout (Outlet.faithful_empty f _) (hcourse f)

end Channel.Chronicle

end TouchGestures
