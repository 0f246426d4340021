import TouchGestures.Proofs.Channel.Settling
import TouchGestures.Proofs.Release.Journal
import TouchGestures.Proofs.Release.Muted

namespace TouchGestures

open Release (Outlet Queue packetsOf)

namespace Packet

variable {p q : Packet}

theorem attributed_pushAll (p : Packet) (gestures : List Gesture) (h : p.gestures = []) :
    (p.pushAll gestures).Attributed := by
  intro g hg
  rw [pushAll_eq] at hg ⊢
  simp only [h, List.nil_append, List.mem_map] at hg
  obtain ⟨g, -, rfl⟩ := hg
  rfl

-- A verdict does not change what gestures are attributed to.
theorem Attributed.of_unjudged (h : p.Attributed) (hsame : q.unjudged = p.unjudged) :
    q.Attributed := by
  have hids : q.gestures.map (·.eventId) = p.gestures.map (·.eventId) := by
    simpa [unjudged, Function.comp_def] using
      congrArg (fun packet => packet.gestures.map (·.eventId)) hsame
  intro g hg
  have hmem : g.eventId ∈ p.gestures.map (·.eventId) := hids ▸ List.mem_map_of_mem hg
  obtain ⟨g', hg', hid⟩ := List.mem_map.mp hmem
  rw [← hid, h g' hg', eventId_eq_of_unjudged hsame]

end Packet

namespace Release.Queue

variable {q : Queue} {p : Packet} {judged : List Packet} {old : List EventId} {id : EventId}
  {consumed nonBlocking : Bool}

-- A verdict leaves all packets but one as they were.
theorem forall₂_later_judge (h : q.judge id consumed nonBlocking = .ok judged) :
    List.Forall₂ Packet.Later q.packets judged := by
  obtain ⟨before, p, acked, after, hq, -, hack, rfl, -⟩ := judge_cases h
  have hp : p.isPending = true := by
    unfold Packet.ack at hack
    split at hack
    · next hp => exact hp
    · cases hack
  refine forall₂_later_ack ?_ hp hack
  rw [hq]
  exact List.forall₂_same.mpr fun p _ => p.later_refl

theorem ready_subset (packets : List Packet) : ready packets ⊆ packets :=
  (List.takeWhile_sublist _).subset

theorem waiting_subset (packets : List Packet) : waiting packets ⊆ packets :=
  (List.dropWhile_sublist _).subset

theorem exists_earlier {first second : List Packet} (h : List.Forall₂ Packet.Later first second)
    (hp : p ∈ second) : ∃ r ∈ first, p.unjudged = r.unjudged := by
  have hmem : p.unjudged ∈ first.map Packet.unjudged :=
    map_unjudged_of_forall₂ h ▸ List.mem_map_of_mem hp
  obtain ⟨r, hr, hsame⟩ := List.mem_map.mp hmem
  exact ⟨r, hr, hsame.symm⟩

theorem source_ne_of_forall₂ {first second : List Packet} {source : Packet.Source}
    (h : List.Forall₂ Packet.Later first second) (hfirst : ∀ p ∈ first, p.source ≠ source) :
    ∀ p ∈ second, p.source ≠ source := by
  intro p hp
  obtain ⟨r, hr, hsame⟩ := exists_earlier h hp
  rw [Packet.source_eq_of_unjudged hsame]
  exact hfirst r hr

-- The packets in front of the one that starts a stream. The last of them closes what they
-- left open.
structure Older (packets : List Packet) (old : List EventId) : Prop where
  numbered : ∀ p ∈ packets, p.eventId ∈ old
  attributed : ∀ p ∈ packets, p.Attributed
  closes : ∃ p, packets.getLast? = some p ∧ p.source.closesSequence = true

namespace Older

variable {packets others : List Packet} {o : Outlet}

theorem later (h : Older packets old) (hlater : List.Forall₂ Packet.Later packets others) :
    Older others old where
  numbered := by
    intro p hp
    obtain ⟨r, hr, hsame⟩ := exists_earlier hlater hp
    rw [Packet.eventId_eq_of_unjudged hsame]
    exact h.numbered r hr
  attributed := by
    intro p hp
    obtain ⟨r, hr, hsame⟩ := exists_earlier hlater hp
    exact (h.attributed r hr).of_unjudged hsame
  closes := by
    obtain ⟨r, hr, hcloses⟩ := h.closes
    have hlast := congrArg List.getLast? (map_unjudged_of_forall₂ hlater)
    rw [List.getLast?_map, List.getLast?_map, hr, Option.map_some, Option.map_eq_some_iff] at hlast
    obtain ⟨p, hp, hsame⟩ := hlast
    exact ⟨p, hp, by rw [Packet.source_eq_of_unjudged hsame]; exact hcloses⟩

theorem waiting (h : Older packets old) (hne : waiting packets ≠ []) :
    Older (waiting packets) old where
  numbered := fun p hp => h.numbered p (waiting_subset packets hp)
  attributed := fun p hp => h.attributed p (waiting_subset packets hp)
  closes := by
    obtain ⟨p, hp, hcloses⟩ := h.closes
    refine ⟨p, ?_, hcloses⟩
    rw [← ready_append_waiting packets, List.getLast?_append] at hp
    rwa [List.getLast?_eq_some_getLast hne, Option.some_or, ← List.getLast?_eq_some_getLast hne]
      at hp

-- What goes out of the older packets is theirs.
theorem eventId_mem (h : Older packets old) (hsubset : others ⊆ packets) {g : Gesture}
    (hg : g ∈ (o.replay (others.map .packet)).1) : g.eventId ∈ old := by
  obtain ⟨p, hp, hid⟩ :=
    Outlet.eventId_of_mem_replay (fun p hp => h.attributed p (hsubset hp)) hg
  rw [hid]
  exact h.numbered p (hsubset hp)

end Older

-- The stream whose packets are the last in the queue belongs to the consumer. The packet it
-- starts with waits behind older ones, or it is out and nothing else can go out.
inductive Hushed (q : Queue) (old : List EventId) : Prop
  | behind {before rest : List Packet} {start : Packet}
    (hpackets : q.packets = before ++ start :: rest) (holder : Older before old)
    (hstart : start.source = .sequenceStart) (hconsumed : start.isConsumed = true)
    (hrest : ∀ p ∈ rest, p.source ≠ .sequenceStart)
  | muted (hmuted : q.outlet.Muted) (hpackets : ∀ p ∈ q.packets, p.source ≠ .sequenceStart)

theorem Hushed.append (h : q.Hushed old) (hp : p.source ≠ .sequenceStart) :
    Hushed { q with packets := q.packets ++ [p] } old := by
  have hadded : ∀ {packets : List Packet}, (∀ r ∈ packets, r.source ≠ .sequenceStart) →
      ∀ r ∈ packets ++ [p], r.source ≠ .sequenceStart := by
    intro packets hpackets r hr
    rcases List.mem_append.mp hr with hr | hr
    · exact hpackets r hr
    · exact List.mem_singleton.mp hr ▸ hp
  cases h with
  | @behind before rest start hpackets holder hstart hconsumed hrest =>
    exact .behind (by simp [hpackets]) holder hstart hconsumed (hadded hrest)
  | muted hmuted hpackets => exact .muted hmuted (hadded hpackets)

theorem Packet.isPending_of_isConsumed (hp : p.isConsumed = true) : p.isPending = false := by
  unfold Packet.isConsumed at hp
  unfold Packet.isPending
  simp_all

-- A verdict lets out no more than what was there before the stream.
theorem Hushed.judge (h : q.Hushed old) (hjudge : q.judge id consumed nonBlocking = .ok judged) :
    Hushed ⟨waiting judged, (q.outlet.replay ((ready judged).map .packet)).2⟩ old ∧
      ∀ g ∈ (q.outlet.replay ((ready judged).map .packet)).1, g.eventId ∈ old := by
  have hlater := forall₂_later_judge hjudge
  cases h with
  | muted hmuted hpackets =>
    have hjudged := source_ne_of_forall₂ hlater hpackets
    obtain ⟨hout, hmuted'⟩ := hmuted.replay fun p hp => hjudged p (ready_subset judged hp)
    rw [hout]
    exact ⟨.muted hmuted' fun p hp => hjudged p (waiting_subset judged hp), by simp⟩
  | @behind before rest start hpackets holder hstart hconsumed hrest =>
    rw [hpackets] at hlater
    have hfirst := List.forall₂_take before.length hlater
    have hsecond := List.forall₂_drop before.length hlater
    rw [List.take_left] at hfirst
    rw [List.drop_left] at hsecond
    obtain ⟨start', rest', hsame, hothers, hdrop⟩ := List.forall₂_cons_left_iff.mp hsecond
    have hasked := Packet.isPending_of_isConsumed hconsumed
    obtain rfl := hsame.2 hasked
    have hjudged : judged = judged.take before.length ++ start' :: rest' := by
      rw [← hdrop, List.take_append_drop]
    replace holder := holder.later hfirst
    generalize judged.take before.length = before' at hjudged holder
    subst hjudged
    have hrest' := source_ne_of_forall₂ hothers hrest
    rw [ready_append_eq, waiting_append_eq]
    by_cases hnone : waiting before' = []
    · -- The start goes out, once all that was open before it is closed.
      have hall : ready before' = before' := by
        rw [← List.append_nil (ready before'), ← hnone, ready_append_waiting]
      have hready : ready (start' :: rest') = start' :: ready rest' :=
        List.takeWhile_cons_of_pos (by simp [hasked])
      have hwaiting : waiting (start' :: rest') = waiting rest' :=
        List.dropWhile_cons_of_pos (by simp [hasked])
      obtain ⟨last, hlast, hcloses⟩ := holder.closes
      have hclosed := Outlet.closed_replay (o := q.outlet) hlast hcloses
      obtain ⟨hstarted, hmuted⟩ := hclosed.release_start hstart hconsumed
      obtain ⟨hout, hmuted'⟩ := hmuted.replay fun p hp => hrest' p (ready_subset rest' hp)
      rw [hnone, List.nil_append, hall, hready, hwaiting, List.map_append, List.map_cons,
        Outlet.replay_append, Outlet.replay_cons, Outlet.take, hstarted, hout]
      refine ⟨.muted hmuted' fun p hp => hrest' p (waiting_subset rest' hp), fun g hg => ?_⟩
      rw [List.append_nil, List.append_nil] at hg
      exact holder.eventId_mem (List.Subset.refl _) hg
    · have hhead : HeadPending ⟨waiting before', q.outlet⟩ := by
        have hdrained := headPending_drain q.outlet before'
        rw [drain_eq] at hdrained
        exact hdrained
      obtain ⟨hready, hwaiting⟩ := ready_append hhead hnone (start' :: rest')
      rw [hready, hwaiting, List.append_nil]
      exact ⟨.behind rfl (holder.waiting hnone) hstart hconsumed hrest',
        fun g hg => holder.eventId_mem (ready_subset before') hg⟩

end Release.Queue

end TouchGestures
