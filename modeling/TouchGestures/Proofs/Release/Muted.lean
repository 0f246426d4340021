import TouchGestures.Proofs.Release.Entering

namespace TouchGestures

def Packet.Attributed (p : Packet) : Prop := ∀ g ∈ p.gestures, g.eventId = p.eventId

namespace Release.Outlet

variable {o : Outlet} {p : Packet} {packets : List Packet}

section Attributed

theorem eventId_of_mem_closeTap {g : Gesture} (hg : g ∈ (o.closeTap p).1) :
    g.eventId = p.eventId := by
  rw [closeTap, Option.mem_toList, Option.map_eq_some_iff] at hg
  obtain ⟨opener, -, rfl⟩ := hg
  rfl

theorem eventId_of_mem_closeScroll {g : Gesture} (hg : g ∈ (o.closeScroll p).1) :
    g.eventId = p.eventId := by
  rw [closeScroll, Option.mem_toList, Option.map_eq_some_iff] at hg
  obtain ⟨opener, -, rfl⟩ := hg
  rfl

theorem eventId_of_mem_offer {g out : Gesture} (hg : g.eventId = p.eventId)
    (hout : out ∈ (o.offer p g).1) : out.eventId = p.eventId := by
  unfold offer at hout
  simp only [] at hout
  split at hout
  · exact eventId_of_mem_closeTap hout
  · rw [List.mem_singleton.mp hout, hg]

theorem eventId_of_mem_offerAll {gestures : List Gesture} {out : Gesture}
    (hgestures : ∀ g ∈ gestures, g.eventId = p.eventId)
    (hout : out ∈ (o.offerAll p gestures).1) : out.eventId = p.eventId := by
  induction gestures generalizing o with
  | nil => cases hout
  | cons g rest ih =>
    rcases List.mem_append.mp hout with hout | hout
    · exact eventId_of_mem_offer (hgestures g List.mem_cons_self) hout
    · exact ih (fun g hg => hgestures g (List.mem_cons_of_mem _ hg)) hout

-- What goes out with a packet is attributed to its touch, even if it is made up.
theorem eventId_of_mem_release {out : Gesture} (hp : p.Attributed) (hout : out ∈ (o.release p).1) :
    out.eventId = p.eventId := by
  rw [release_eq] at hout
  split at hout
  · rcases List.mem_append.mp hout with hout | hout
    · exact eventId_of_mem_offerAll hp hout
    · rcases List.mem_append.mp hout with hout | hout
      · exact eventId_of_mem_closeScroll hout
      · exact eventId_of_mem_closeTap hout
  · exact eventId_of_mem_offerAll hp hout

theorem eventId_of_mem_replay {out : Gesture} (hpackets : ∀ p ∈ packets, p.Attributed)
    (hout : out ∈ (o.replay (packets.map .packet)).1) : ∃ p ∈ packets, out.eventId = p.eventId := by
  induction packets generalizing o with
  | nil => cases hout
  | cons p rest ih =>
    rw [List.map_cons, replay_cons, take] at hout
    rcases List.mem_append.mp hout with hout | hout
    · exact ⟨p, List.mem_cons_self, eventId_of_mem_release (hpackets p List.mem_cons_self) hout⟩
    · obtain ⟨q, hq, hid⟩ := ih (fun q hq => hpackets q (List.mem_cons_of_mem _ hq)) hout
      exact ⟨q, List.mem_cons_of_mem _ hq, hid⟩

end Attributed

theorem closed_release (hcloses : p.source.closesSequence = true) : (o.release p).2.Closed := by
  rw [release_eq, if_pos hcloses]
  exact ⟨rfl, rfl⟩

-- All is closed once the last of some packets has closed its sequence.
theorem closed_replay {last : Packet} (hlast : packets.getLast? = some last)
    (hcloses : last.source.closesSequence = true) :
    (o.replay (packets.map .packet)).2.Closed := by
  obtain ⟨earlier, rfl⟩ := List.getLast?_eq_some_iff.mp hlast
  rw [List.map_append, replay_append, List.map_singleton, replay_singleton, take]
  exact closed_release hcloses

-- The sequence under way belongs to the consumer, and nothing of another is open.
structure Muted (o : Outlet) : Prop where
  consumed : o.suppression.sequenceConsumed = true
  closed : o.Closed

-- From a muted outlet nothing of a packet goes out.
theorem muted_release_of_judging (hconsumed : (o.judging p).suppression.sequenceConsumed = true)
    (h : o.Closed) : (o.release p).1 = [] ∧ (o.release p).2.Muted := by
  obtain ⟨hout, hseq, hclosed⟩ := offerAll_of_sequenceConsumed (p := p) hconsumed h p.gestures
  rw [release_eq]
  split
  · refine ⟨?_, hseq, rfl, rfl⟩
    simp [hout, closeAll, closeScroll, closeTap, hclosed.1, hclosed.2]
  · exact ⟨hout, hseq, hclosed⟩

theorem Muted.release (h : o.Muted) (hp : p.source ≠ .sequenceStart) :
    (o.release p).1 = [] ∧ (o.release p).2.Muted := by
  refine muted_release_of_judging ?_ h.closed
  simpa [judging, Suppression.judge, hp] using h.consumed

-- An outlet at which all is closed is muted by the touch that starts a sequence, if the
-- consumer handled that.
theorem Closed.release_start (h : o.Closed) (hp : p.source = .sequenceStart)
    (hconsumed : p.isConsumed = true) : (o.release p).1 = [] ∧ (o.release p).2.Muted := by
  refine muted_release_of_judging ?_ h
  simpa [judging, Suppression.judge, hp] using hconsumed

theorem Muted.replay (h : o.Muted) (hpackets : ∀ p ∈ packets, p.source ≠ .sequenceStart) :
    (o.replay (packets.map .packet)).1 = [] ∧ (o.replay (packets.map .packet)).2.Muted := by
  induction packets generalizing o with
  | nil => exact ⟨rfl, h⟩
  | cons p rest ih =>
    obtain ⟨hout, hmuted⟩ := h.release (hpackets p List.mem_cons_self)
    obtain ⟨hothers, hmuted'⟩ := ih hmuted fun q hq => hpackets q (List.mem_cons_of_mem _ hq)
    rw [List.map_cons, replay_cons, take]
    exact ⟨by rw [hout, hothers, List.nil_append], hmuted'⟩

section Alarms

variable {gestures : List Gesture}

-- Showing a press or finding it long leaves what is open as it is.
theorem sendAll_of_alarms (hkinds : ∀ g ∈ gestures, g.kind = .showPress ∨ g.kind = .longPress) :
    o.sendAll gestures = o := by
  unfold sendAll
  induction gestures with
  | nil => rfl
  | cons g rest ih =>
    have hsend : o.send g = o := by
      rcases hkinds g List.mem_cons_self with hkind | hkind <;>
        simp [send, hkind, Gesture.Kind.endsTap, Gesture.Kind.endsScroll]
    rw [List.foldl_cons, hsend]
    exact ih fun g hg => hkinds g (List.mem_cons_of_mem _ hg)

-- Alarms that pass by the packets that wait go out whatever is suppressed.
theorem replay_alarms_of_waiting
    (hkinds : ∀ g ∈ gestures, g.kind = .showPress ∨ g.kind = .longPress) :
    o.replay (gestures.map fun g => .alarm (Packet.ofTimeout g) false) = (gestures, o) := by
  induction gestures with
  | nil => rfl
  | cons g rest ih =>
    have hfirst : o.sendAll [g] = o := sendAll_of_alarms fun other hother =>
      hkinds other (List.mem_singleton.mp hother ▸ List.mem_cons_self)
    have htake : o.take (.alarm (Packet.ofTimeout g) false) = ([g], o) := by
      rw [take, releaseTimeout, if_neg (by simp), Packet.ofTimeout, hfirst]
    rw [List.map_cons, replay_cons, htake, ih fun g hg => hkinds g (List.mem_cons_of_mem _ hg)]
    rfl

theorem Muted.replay_alarms (h : o.Muted) (gestures : List Gesture) :
    (o.replay (gestures.map fun g => .alarm (Packet.ofTimeout g) true)).1 = [] ∧
      (o.replay (gestures.map fun g => .alarm (Packet.ofTimeout g) true)).2.Muted := by
  induction gestures generalizing o with
  | nil => exact ⟨rfl, h⟩
  | cons g rest ih =>
    obtain ⟨hout, hseq, hclosed⟩ :=
      offerAll_of_sequenceConsumed (p := Packet.ofTimeout g) h.consumed h.closed [g]
    obtain ⟨hothers, hmuted⟩ := ih ⟨hseq, hclosed⟩
    rw [List.map_cons, replay_cons, take, releaseTimeout, if_pos rfl]
    exact ⟨by rw [Packet.ofTimeout] at hout ⊢; rw [hout]; exact hothers, hmuted⟩

end Alarms

end Release.Outlet

end TouchGestures
