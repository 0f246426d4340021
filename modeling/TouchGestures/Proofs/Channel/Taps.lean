import TouchGestures.Proofs.Channel.Soundness
import TouchGestures.Proofs.Release.Taps

namespace TouchGestures

open Gesture (Family)
open Release (Item Outlet packetsOf outOf EndsCalledOffTap)

namespace Packet

-- Everything is closed after a packet that closes its sequence.
theorem course_eq_false_of_closes {f : Family} {isOpen : Bool} {packets : List Packet}
    (h : course f false packets = some isOpen)
    (hcloses : ∀ p ∈ packets.getLast?, p.source.closesSequence = true) : isOpen = false := by
  cases hlast : packets.getLast? with
  | none =>
    obtain rfl := List.getLast?_eq_none_iff.mp hlast
    simpa using h.symm
  | some p =>
    obtain ⟨before, rfl⟩ := List.getLast?_eq_some_iff.mp hlast
    obtain ⟨between, -, hp⟩ := course_append_eq_some h
    rw [course_singleton, follow?_eq_some_iff] at hp
    exact hp.2.2 (hcloses p hlast)

end Packet

namespace Channel.Chronicle

variable {k : Chronicle} {settled rest : List Item}

-- The gestures that were released while the outlet dealt with the first items.
def releasedFor (k : Chronicle) (settled : List Item) : List Gesture :=
  k.released.take (Outlet.replay {} settled).1.length

theorem map_kind_releasedFor (h : k.Sound) (hitems : k.items = settled ++ rest) :
    (k.releasedFor settled).map Gesture.kind =
      (outOf (Outlet.history {} settled)).map Gesture.kind := by
  have hkinds := Gesture.map_kind_of_map_untallied h.released
  rw [hitems, Release.Outlet.replay_append] at hkinds
  unfold releasedFor
  rw [List.map_take, hkinds, ← List.map_take, List.take_left, Release.Outlet.outOf_history]

theorem course_of_items (h : k.Sound) (hitems : k.items = settled ++ rest) (f : Family) :
    ∃ isOpen, Packet.course f false (packetsOf settled) = some isOpen := by
  have hcourse := h.course f
  rw [← Packet.course_congr h.fifo, hitems, Release.packetsOf_append, List.append_assoc] at hcourse
  obtain ⟨isOpen, hsettled, -⟩ := Packet.course_append_eq_some hcourse
  exact ⟨isOpen, hsettled⟩

theorem forgotten_notMem_items (h : Lived (· ≠ .forgetHistory) k) : .forgotten ∉ k.items := by
  induction h with
  | start => simp
  | @step _ _ e _ he hk ih =>
    obtain ⟨_, _, -, rfl⟩ := step_eq_ok hk
    rw [List.mem_append, not_or]
    refine ⟨ih, ?_⟩
    cases e with
    | ack =>
      rw [itemsBy]
      split <;> simp
    | tick => simp [itemsBy]
    | forgetHistory => exact absurd rfl he
    | touch | drain | configure | setDoubleTap | reassign => simp [itemsBy]

-- When all packets of the touch sequences so far are out, taps and their endings come in
-- pairs, unless a tap was called off for a gesture that was dropped and has gone on to its
-- own end.
theorem released_paired_iff (h : Lived (· ≠ .forgetHistory) k)
    (hitems : k.items = settled ++ rest)
    (hcloses : ∀ p ∈ (packetsOf settled).getLast?, p.source.closesSequence = true) :
    Family.tap.Paired (k.releasedFor settled) ↔
      ¬EndsCalledOffTap (Outlet.history {} settled) := by
  have hsound := h.sound
  obtain ⟨isOpen, hcourse⟩ := course_of_items hsound hitems .tap
  obtain rfl := Packet.course_eq_false_of_closes hcourse hcloses
  have hforgotten : .forgotten ∉ settled := by
    intro hmem
    exact forgotten_notMem_items h (hitems ▸ List.mem_append_left rest hmem)
  have halarms : Release.PressAlarms settled := (hitems ▸ hsound.alarms).of_append_left
  have htracks : Release.TracksTaps _ false ([] ++ Outlet.history {} settled) :=
    Release.TracksTaps.invariant.replay [] Release.TracksTaps.start
      (fun hmem => absurd hmem hforgotten) hcourse halarms
  rw [List.nil_append] at htracks
  rw [Family.paired_iff_alternate, Family.alternate_congr (map_kind_releasedFor hsound hitems)]
  constructor
  · intro hpaired hends
    exact hends.not_paired htracks.madeUp ((Family.paired_iff_alternate _).mpr hpaired)
  · intro hnot
    rw [htracks.alternates hnot, htracks.openTap_eq_none]
    rfl

def ofEvents (events : List Event) : Chronicle :=
  match ({ channel := ofSettings 1 {} } : Chronicle).run events with
  | .ok k => k
  | .error _ => { channel := ofSettings 1 {} }

theorem lived_ofEvents {events : List Event} (hevents : ∀ e ∈ events, e ≠ .forgetHistory) :
    Lived (· ≠ .forgetHistory) (ofEvents events) := by
  unfold ofEvents
  split
  · next k hk => exact Lived.run (Lived.start 1 {}) hevents hk
  · exact Lived.start 1 {}

-- A short tap that the consumer handles none of.
def tap : List Event :=
  [.touch (finger .pressed 1 10 0 1), .ack 1 false false, .touch (finger .released 1 10 50 2),
    .ack 2 false false]

theorem released_paired_of_tap :
    (∀ e ∈ tap, e ≠ .forgetHistory) ∧ (ofEvents tap).items = (ofEvents tap).items ++ [] ∧
      (∀ p ∈ (packetsOf (ofEvents tap).items).getLast?, p.source.closesSequence = true) ∧
      (Family.tap.Paired ((ofEvents tap).releasedFor (ofEvents tap).items) ↔
        ¬EndsCalledOffTap (Outlet.history {} (ofEvents tap).items)) := by
  have hevents : ∀ e ∈ tap, e ≠ .forgetHistory := by decide +kernel
  have hitems : (ofEvents tap).items = (ofEvents tap).items ++ [] := (List.append_nil _).symm
  have hcloses : ∀ p ∈ (packetsOf (ofEvents tap).items).getLast?,
      p.source.closesSequence = true := by decide +kernel
  exact ⟨hevents, hitems, hcloses, released_paired_iff (lived_ofEvents hevents) hitems hcloses⟩

-- The consumer handles the move, so that the press is not shown when its time comes, and
-- the tap is called off. When the finger lifts, the tap is completed all the same.
def lateTap : List Event :=
  [.touch (finger .pressed 1 10 0 1), .ack 1 false false, .drain, .touch (finger .moved 1 10 10 2),
    .ack 2 true false, .drain, .tick (Duration.milliseconds 150), .touch (finger .released 1 10 200 3),
    .ack 3 false false, .drain]

theorem not_paired_of_lateTap :
    Lived (· ≠ .forgetHistory) (ofEvents lateTap) ∧
      (ofEvents lateTap).channel.queue.packets = [] ∧
      (∀ p ∈ (packetsOf (ofEvents lateTap).items).getLast?, p.source.closesSequence = true) ∧
      (ofEvents lateTap).released.map Gesture.kind = [.tapDown, .tapCancel, .tap] ∧
      ¬Family.tap.Paired (ofEvents lateTap).released := by
  refine ⟨lived_ofEvents (by decide +kernel), by decide +kernel, by decide +kernel,
    by decide +kernel, ?_⟩
  rw [Family.paired_iff_alternate]
  decide +kernel

end Channel.Chronicle

end TouchGestures
