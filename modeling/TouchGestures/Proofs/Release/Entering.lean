import TouchGestures.Proofs.Release.Record

namespace TouchGestures.Release

open Gesture (Family)

-- The packets of presses that the consumer is said to have handled. The first may be that
-- of a new sequence.
def Entering (first : Bool) : List Packet → Prop
  | [] => True
  | p :: rest =>
    p.isConsumed = true ∧ p.source = (if first then .sequenceStart else .touchStart) ∧
      Entering false rest

namespace Outlet

variable {o : Outlet} {p : Packet}

def Closed (o : Outlet) : Prop := o.openTap = none ∧ o.openScroll = none

theorem closed_of_faithful (h : ∀ f : Family, Faithful f o false) : o.Closed := by
  constructor
  · cases htap : o.openTap with
    | none => rfl
    | some opener =>
      obtain ⟨hopen, -⟩ := h .tap (by simp [holds, htap])
      cases hopen
  · cases hscroll : o.openScroll with
    | none => rfl
    | some opener =>
      obtain ⟨hopen, -⟩ := h .scroll (by simp [holds, hscroll])
      cases hopen

-- Nothing goes out of a sequence that belongs to the consumer once all is closed.
theorem offerAll_of_sequenceConsumed (hseq : o.suppression.sequenceConsumed = true)
    (h : o.Closed) (gestures : List Gesture) :
    (o.offerAll p gestures).1 = [] ∧
      (o.offerAll p gestures).2.suppression.sequenceConsumed = true ∧
      (o.offerAll p gestures).2.Closed := by
  induction gestures generalizing o with
  | nil => exact ⟨rfl, hseq, h⟩
  | cons g rest ih =>
    have hdrops : o.suppression.drops g.kind = true := by simp [Suppression.drops, hseq]
    have hfirst : (o.offer p g).1 = [] := by
      rw [offer_fst, fate, if_pos hdrops, h.1]
      rfl
    have hsecond := offer_snd_of_drops (p := p) hdrops
    obtain ⟨hout, hseq', hclosed⟩ := ih (o := (o.offer p g).2) (by rw [hsecond]; simpa using hseq)
      (by rw [hsecond]; exact ⟨rfl, h.2⟩)
    refine ⟨?_, hseq', hclosed⟩
    simp only [offerAll, hfirst, hout, List.append_nil]

theorem replay_entering {first : Bool} {packets : List Packet}
    (hseq : first = false → o.suppression.sequenceConsumed = true) (h : o.Closed)
    (hentering : Entering first packets) : (o.replay (packets.map .packet)).1 = [] := by
  induction packets generalizing o first with
  | nil => rfl
  | cons p rest ih =>
    obtain ⟨hconsumed, hsource, hrest⟩ := hentering
    have hjudged : (o.judging p).suppression.sequenceConsumed = true := by
      unfold judging Suppression.judge
      cases first with
      | true => simp [hsource, hconsumed]
      | false => simpa [hsource] using hseq rfl
    obtain ⟨hout, hseq', hclosed⟩ := offerAll_of_sequenceConsumed (p := p) hjudged h p.gestures
    have hopen : p.source.closesSequence = false := by
      rw [hsource]
      cases first <;> rfl
    have hrelease : o.release p = (o.judging p).offerAll p p.gestures := by
      rw [release_eq, hopen]
      rfl
    rw [List.map_cons, replay_cons, take, hrelease, hout, List.nil_append]
    exact ih (fun _ => hseq') hclosed hrest

end Outlet

end TouchGestures.Release
