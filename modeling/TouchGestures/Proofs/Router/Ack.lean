import TouchGestures.Proofs.Router.Soundness

namespace TouchGestures.Session

variable {s : Session} {id : EventId}

-- An orderly host may give its next verdict on any channel at any time. The gestures that
-- go out by it do not depend on who gives it, and none do when the channel is gone.
theorem Reached.ack_of_mayAck (h : Reached Orderly s) (hnodup : s.numbers.Nodup)
    (hmay : s.MayAck id) (consumed nonBlocking : Bool) :
    ∃ gestures router,
      (∀ consumer, s.router.ack id consumed nonBlocking consumer = .ok (gestures, router)) ∧
      ∀ key, (key, id) ∈ s.awaiting → key ∉ s.router.channels →
        gestures = [] ∧ router = { s.router with orphans := s.router.orphans.erase id } := by
  have hconsistent := (h.sound hnodup).consistent
  obtain ⟨key, later, hids⟩ := mayAck_iff.mp hmay
  have hmem : (key, id) ∈ s.awaiting := mem_awaitingOn.mp (by simp [hids])
  have honly : ∀ other, (other, id) ∈ s.awaiting → other = key := by
    intro other hother
    by_contra hne
    exact hconsistent.awaitingOn_of_ne hmem hne (mem_awaitingOn.mpr hother)
  by_cases hlive : key ∈ s.router.channels
  · obtain ⟨k, p, rest, acked, channel, -, -, -, -, -, -, -, -, hack⟩ :=
      hconsistent.ack_of_live h.mirrors hids hlive consumed nonBlocking
    refine ⟨_, _, hack, fun other hother hgone => ?_⟩
    rw [honly other hother] at hgone
    exact absurd hlive hgone
  · exact ⟨_, _, hconsistent.ack_of_gone hmem hlive consumed nonBlocking,
      fun _ _ _ => ⟨rfl, rfl⟩⟩

-- A press and a move that await their verdicts.
def moved : Session :=
  ((start 3).attempt (.touch (Channel.finger .pressed 1 10 0 1) 1)).attempt
    (.touch (Channel.finger .moved 1 50 10 2) 1)

-- The stream changes hands after the first verdict, so that the second one comes late.
def carried : Session :=
  (moved.attempt (.ack 1 true false 1)).attempt (.transfer (.still 20) 1 2 .cancelling)

theorem reached_carried : Reached Orderly carried := by
  have hmoved : Reached Orderly moved := ((Reached.start {} ⟨3⟩).attempt trivial).attempt trivial
  have hfirst : moved.Orderly (.ack 1 true false 1) := ⟨0, by decide +kernel⟩
  exact (hmoved.attempt hfirst).attempt trivial

theorem ack_of_mayAck_carried :
    Reached Orderly carried ∧ carried.numbers.Nodup ∧ carried.MayAck 2 ∧
      ∃ gestures router,
        (∀ consumer, carried.router.ack 2 false false consumer = .ok (gestures, router)) ∧
        ∀ key, (key, 2) ∈ carried.awaiting → key ∉ carried.router.channels →
          gestures = [] ∧
            router = { carried.router with orphans := carried.router.orphans.erase 2 } := by
  have hnodup : carried.numbers.Nodup := by decide +kernel
  have hmay : carried.MayAck 2 := ⟨0, by decide +kernel⟩
  exact ⟨reached_carried, hnodup, hmay, reached_carried.ack_of_mayAck hnodup hmay false false⟩

end TouchGestures.Session
