import TouchGestures.Proofs.Release.Suppressed
import TouchGestures.Proofs.Router.Ack

namespace TouchGestures

open Gesture (Family)
open Release (Item Outlet packetsOf outOf)

namespace Release.Outlet

variable {before between : List Item} {start p : Packet}

-- Nothing of the touch that starts a sequence goes out if the consumer handled it.
theorem passed_start_eq_nil (o : Outlet) (hstart : start.source = .sequenceStart)
    (hconsumed : start.isConsumed = true) : o.passed start = [] :=
  passed_eq_nil (by rw [sequenceConsumed_judging_of_start hstart, hconsumed])

-- Nor does anything of the touches after it, as long as nothing is forgotten.
theorem passed_eq_nil_of_consumed (hstart : start.source = .sequenceStart)
    (hconsumed : start.isConsumed = true)
    (hbetween : ∀ q ∈ packetsOf between, q.source ≠ .sequenceStart)
    (hp : p.source ≠ .sequenceStart) (hforgotten : .forgotten ∉ between) :
    (replay {} (before ++ .packet start :: between)).2.passed p = [] := by
  have hfirst : ((replay {} before).2.release start).2.suppression.sequenceConsumed = true := by
    rw [suppression_release, sequenceConsumed_offerAll, sequenceConsumed_judging_of_start hstart,
      hconsumed]
  refine passed_eq_nil ?_
  rw [judging_of_not_start hp, replay_append, replay_cons, take]
  exact (sequenceConsumed_replay hforgotten hbetween).trans hfirst

-- After a lapse of memory, the touches since then decide.
theorem passed_eq_nil_iff_of_forgotten (halarms : PressAlarms between)
    (hbetween : ∀ q ∈ packetsOf between, q.source ≠ .sequenceStart)
    (hp : p.source ≠ .sequenceStart) (hforgotten : .forgotten ∈ between) :
    (replay {} (before ++ .packet start :: between)).2.passed p = [] ↔
      ∀ earlier g later, p.gestures = earlier ++ g :: later →
        Suppressed (packetsOf (sinceForgotten between)) p earlier g := by
  obtain ⟨old, hold⟩ := eq_append_sinceForgotten hforgotten
  have hsame : (replay {} (before ++ .packet start :: between)).2 =
      (replay {} (sinceForgotten between)).2 := by
    have hsplit : before ++ .packet start :: between =
        (before ++ .packet start :: old) ++ .forgotten :: sinceForgotten between := by
      conv_lhs => rw [hold]
      simp
    rw [hsplit, replay_append, replay_cons, take]
  have hstarts : ∀ q ∈ packetsOf (sinceForgotten between), q.source ≠ .sequenceStart := by
    intro q hq
    refine hbetween q ?_
    rw [hold, packetsOf_append, packetsOf_forgotten_cons]
    exact List.mem_append_right _ hq
  have halarms' : PressAlarms (sinceForgotten between) := by
    rw [hold, List.append_cons] at halarms
    exact halarms.of_append_right
  rw [hsame]
  exact passed_eq_nil_iff (forgotten_notMem_sinceForgotten between) hstarts halarms' hp

end Release.Outlet

namespace Session

open Channel (Chronicle)

variable {s : Session} {key : ChannelKey} {k : Chronicle}

-- What the host was given by a channel is what became of the gestures of its packets.
theorem Reached.untallied_givenBy (h : Reached Orderly s) (hnodup : s.numbers.Nodup)
    (hk : s.books key = some k) :
    (s.givenBy key).map Gesture.untallied =
      (outOf (Outlet.history {} k.items)).map Gesture.untallied := by
  have hgiven := (h.sound hnodup).handed.given key
  rw [hk, Option.map_some, Option.getD_some] at hgiven
  rw [hgiven, (h.mirrors.lived hk).sound.released, Release.Outlet.outOf_history]

-- When the consumer handled the touch that started a sequence, a later packet of the
-- sequence lets nothing out just if the history was not forgotten since then, or if the
-- touches since the last time it was account for every gesture that is dropped.
theorem Reached.sequence_silent_iff (h : Reached Orderly s) (hnodup : s.numbers.Nodup)
    (hk : s.books key = some k) {before between rest : List Item} {start p : Packet}
    (hitems : k.items = before ++ .packet start :: (between ++ .packet p :: rest))
    (hstart : start.source = .sequenceStart) (hconsumed : start.isConsumed = true)
    (hbetween : ∀ q ∈ packetsOf between, q.source ≠ .sequenceStart)
    (hp : p.source ≠ .sequenceStart) :
    (s.givenBy key).map Gesture.untallied =
        (outOf (Outlet.history {} k.items)).map Gesture.untallied ∧
      (Outlet.replay {} before).2.passed start = [] ∧
      ((Outlet.replay {} (before ++ .packet start :: between)).2.passed p = [] ↔
        .forgotten ∉ between ∨
          ∀ earlier g later, p.gestures = earlier ++ g :: later →
            Release.Suppressed (packetsOf (Release.sinceForgotten between)) p earlier g) := by
  refine ⟨h.untallied_givenBy hnodup hk, Outlet.passed_start_eq_nil _ hstart hconsumed, ?_⟩
  by_cases hforgotten : .forgotten ∈ between
  · have halarms : Release.PressAlarms between := by
      have hall := (h.mirrors.lived hk).sound.alarms
      rw [hitems, List.append_cons] at hall
      exact hall.of_append_right.of_append_left
    rw [Outlet.passed_eq_nil_iff_of_forgotten halarms hbetween hp hforgotten]
    simp [hforgotten]
  · refine iff_of_true ?_ (.inl hforgotten)
    exact Outlet.passed_eq_nil_of_consumed hstart hconsumed hbetween hp hforgotten

-- The consumer handles the press. The stream changes hands before the verdict on the move,
-- by which the history is forgotten, and what the move shows goes out after all.
def answered : Session := carried.attempt (.ack 2 false false 1)

theorem reached_answered : Reached Orderly answered := by
  have hmay : carried.Orderly (.ack 2 false false 1) := ⟨0, by decide +kernel⟩
  exact reached_carried.attempt hmay

-- The record of the channel that changes hands, and its packets.
def carriedBook : Chronicle :=
  (answered.books 0).getD { channel := Channel.ofSettings 1 {} }

def carriedPacket (n : Nat) : Packet :=
  (packetsOf carriedBook.items).getD n
    ⟨.undetermined, 0, ⟨⟨0, 0⟩, ⟨0, 0⟩⟩, 0, .pending, []⟩

theorem items_carriedBook :
    carriedBook.items = [] ++ .packet (carriedPacket 0) ::
      ([.forgotten] ++ .packet (carriedPacket 1) :: carriedBook.items.drop 3) := by
  decide +kernel

theorem sequence_silent_iff_answered :
    answered.numbers.Nodup ∧ answered.books 0 = some carriedBook ∧
      (carriedPacket 0).source = .sequenceStart ∧ (carriedPacket 0).isConsumed = true ∧
      (carriedPacket 1).source ≠ .sequenceStart ∧
      (answered.givenBy 0).map Gesture.untallied =
        (outOf (Outlet.history {} carriedBook.items)).map Gesture.untallied ∧
      (Outlet.replay {} []).2.passed (carriedPacket 0) = [] ∧
      ((Outlet.replay {} ([] ++ .packet (carriedPacket 0) :: [.forgotten])).2.passed
          (carriedPacket 1) = [] ↔
        .forgotten ∉ [Item.forgotten] ∨
          ∀ earlier g later, (carriedPacket 1).gestures = earlier ++ g :: later →
            Release.Suppressed (packetsOf (Release.sinceForgotten [.forgotten])) (carriedPacket 1)
              earlier g) := by
  have hnodup : answered.numbers.Nodup := by decide +kernel
  have hk : answered.books 0 = some carriedBook := by decide +kernel
  have hstart : (carriedPacket 0).source = .sequenceStart := by decide +kernel
  have hconsumed : (carriedPacket 0).isConsumed = true := by decide +kernel
  have hbetween : ∀ q ∈ packetsOf [.forgotten], q.source ≠ .sequenceStart := by simp
  have hp : (carriedPacket 1).source ≠ .sequenceStart := by decide +kernel
  exact ⟨hnodup, hk, hstart, hconsumed, hp,
    reached_answered.sequence_silent_iff hnodup hk items_carriedBook hstart hconsumed hbetween hp⟩

-- The consumer had handled the press, and yet the host is given what the move and the cancel
-- of the same sequence show.
theorem sequence_not_silent_of_answered :
    Reached Orderly answered ∧ answered.numbers.Nodup ∧ answered.books 0 = some carriedBook ∧
      (carriedPacket 0).source = .sequenceStart ∧ (carriedPacket 0).isConsumed = true ∧
      (carriedPacket 1).source = .touchMove ∧
      (Outlet.replay {} [.packet (carriedPacket 0), .forgotten]).2.passed (carriedPacket 1) =
        (carriedPacket 1).gestures ∧
      (carriedPacket 1).gestures.map Gesture.kind = [.tapCancel, .scrollBegin, .scrollUpdate] ∧
      (answered.givenBy 0).map Gesture.kind =
        [.tapCancel, .scrollBegin, .scrollUpdate, .scrollEnd] := by
  refine ⟨reached_answered, ?_⟩
  decide +kernel

end Session

end TouchGestures
