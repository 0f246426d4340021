import TouchGestures.Proofs.Channel.Taps
import TouchGestures.Proofs.Release.Spans

namespace TouchGestures.Channel.Chronicle

open Gesture (Family)
open Release (Item Outlet TracksSpan packetsOf)

variable {k : Chronicle} {settled rest : List Item} {f : Family}

-- What goes out of a channel that keeps its history is accounted for at every point.
theorem tracksSpan (hf : f ≠ .tap) (h : Lived (· ≠ .forgetHistory) k)
    (hitems : k.items = settled ++ rest) :
    ∃ isOpen, Packet.course f false (packetsOf settled) = some isOpen ∧
      TracksSpan f (Outlet.replay {} settled).2 isOpen (Outlet.history {} settled) := by
  obtain ⟨isOpen, hcourse⟩ := course_of_items h.sound hitems f
  have hforgotten : .forgotten ∉ settled := by
    intro hmem
    exact forgotten_notMem_items h (hitems ▸ List.mem_append_left rest hmem)
  have halarms : Release.PressAlarms settled := (hitems ▸ h.sound.alarms).of_append_left
  exact ⟨isOpen, hcourse, (TracksSpan.invariant hf).replay [] (TracksSpan.start f)
    (fun hmem => absurd hmem hforgotten) hcourse halarms⟩

-- Scrolls and pinches that are released begin only while none is open, go on and end only
-- while one is, and are closed once the last packet of a touch sequence is out, whatever
-- the consumer handled.
theorem released_spans (hf : f ≠ .tap) (h : Lived (· ≠ .forgetHistory) k) :
    (∃ isOpen, f.run false k.released = some isOpen) ∧
      ∀ settled rest, k.items = settled ++ rest →
        (∀ p ∈ (packetsOf settled).getLast?, p.source.closesSequence = true) →
        f.run false (k.releasedFor settled) = some false := by
  refine ⟨?_, fun settled rest hitems hcloses => ?_⟩
  · obtain ⟨isOpen, -, htracks⟩ := tracksSpan hf h (List.append_nil k.items).symm
    have hkinds := Gesture.map_kind_of_map_untallied h.sound.released
    rw [Family.run_congr hkinds, ← Release.Outlet.outOf_history]
    exact ⟨_, htracks.follows⟩
  · obtain ⟨isOpen, hcourse, htracks⟩ := tracksSpan hf h hitems
    obtain rfl := Packet.course_eq_false_of_closes hcourse hcloses
    rw [Family.run_congr (map_kind_releasedFor h.sound hitems), htracks.follows, Bool.false_and]

-- A finger that stays pinches twice with another. The consumer handles the end of the
-- first pinch and the beginning of the second.
def pinches : List Event :=
  [.touch (finger .pressed 1 10 0 1), .ack 1 false false,
    .touch (finger .pressed 2 50 10 2), .ack 2 false false,
    .touch (finger .moved 2 150 20 3), .ack 3 false false,
    .touch (finger .released 2 150 30 4), .ack 4 true false,
    .touch (finger .pressed 2 50 40 5), .ack 5 false false,
    .touch (finger .moved 2 150 50 6), .ack 6 true false,
    .touch (finger .moved 2 250 60 7), .ack 7 false false,
    .touch (finger .released 2 250 70 8), .ack 8 false false,
    .touch (finger .released 1 10 80 9), .ack 9 false false]

theorem released_spans_of_pinches :
    (∀ e ∈ pinches, e ≠ .forgetHistory) ∧
      (ofEvents pinches).released.map Gesture.kind =
        [.tapDown, .tapCancel, .scrollBegin, .scrollUpdate, .pinchBegin, .pinchEnd, .scrollUpdate,
          .scrollEnd] ∧
      (∃ isOpen, Family.pinch.run false (ofEvents pinches).released = some isOpen) ∧
      ∀ settled rest, (ofEvents pinches).items = settled ++ rest →
        (∀ p ∈ (packetsOf settled).getLast?, p.source.closesSequence = true) →
        Family.pinch.run false ((ofEvents pinches).releasedFor settled) = some false := by
  have hevents : ∀ e ∈ pinches, e ≠ .forgetHistory := by decide +kernel
  exact ⟨hevents, by decide +kernel, released_spans (by decide) (lived_ofEvents hevents)⟩

end TouchGestures.Channel.Chronicle
