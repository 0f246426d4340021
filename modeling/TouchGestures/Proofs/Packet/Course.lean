import TouchGestures.Proofs.Gesture.Family
import TouchGestures.Proofs.Release.History

namespace TouchGestures.Packet

open Gesture (Family)

variable {f : Family} {isOpen isOpen' : Bool} {p q : Packet}

-- Whether the family is open after a packet, if its gestures are in order. Sequences start
-- and end with everything closed.
def follow? (p : Packet) (f : Family) (isOpen : Bool) : Option Bool :=
  if p.source = .sequenceStart && isOpen then none
  else (f.run isOpen p.gestures).filter fun isOpen => !(p.source.closesSequence && isOpen)

-- Whether the family is open after some packets, if all are in order.
def course (f : Family) : Bool → List Packet → Option Bool
  | isOpen, [] => some isOpen
  | isOpen, p :: rest => (p.follow? f isOpen).bind fun isOpen => course f isOpen rest

theorem follow?_eq_some_iff :
    p.follow? f isOpen = some isOpen' ↔
      (p.source = .sequenceStart → isOpen = false) ∧ f.run isOpen p.gestures = some isOpen' ∧
        (p.source.closesSequence = true → isOpen' = false) := by
  unfold follow?
  by_cases hstart : p.source = .sequenceStart
  · cases isOpen <;> simp [hstart, Source.closesSequence, Option.filter_eq_some_iff]
  · simp only [hstart, decide_false, Bool.false_and, Bool.false_eq_true, if_false, false_implies,
      true_and, Option.filter_eq_some_iff]
    refine and_congr_right fun _ => ?_
    cases p.source.closesSequence <;> cases isOpen' <;> simp

@[simp] theorem course_nil : course f isOpen [] = some isOpen := rfl

theorem course_cons (p : Packet) (rest : List Packet) :
    course f isOpen (p :: rest) =
      (p.follow? f isOpen).bind fun isOpen => course f isOpen rest := rfl

@[simp] theorem course_singleton (p : Packet) : course f isOpen [p] = p.follow? f isOpen := by
  simp [course_cons]

theorem course_append (first second : List Packet) :
    course f isOpen (first ++ second) =
      (course f isOpen first).bind fun isOpen => course f isOpen second := by
  induction first generalizing isOpen with
  | nil => rfl
  | cons p rest ih =>
    cases h : p.follow? f isOpen with
    | none => simp [course_cons, h]
    | some isOpen' => simpa [course_cons, h] using ih

theorem course_append_eq_some {first second : List Packet}
    (h : course f isOpen (first ++ second) = some isOpen') :
    ∃ between, course f isOpen first = some between ∧
      course f between second = some isOpen' := by
  rw [course_append] at h
  exact Option.bind_eq_some_iff.mp h

theorem course_cons_eq_some {rest : List Packet}
    (h : course f isOpen (p :: rest) = some isOpen') :
    ∃ between, p.follow? f isOpen = some between ∧ course f between rest = some isOpen' := by
  rw [course_cons] at h
  exact Option.bind_eq_some_iff.mp h

theorem map_kind_unjudged (p : Packet) :
    p.unjudged.gestures.map Gesture.kind = p.gestures.map Gesture.kind := by
  simp only [unjudged, List.map_map]
  rfl

-- The verdict on a packet does not matter.
theorem follow?_congr (h : p.unjudged = q.unjudged) : p.follow? f isOpen = q.follow? f isOpen := by
  have hsource := source_eq_of_unjudged h
  have hkinds : p.gestures.map Gesture.kind = q.gestures.map Gesture.kind := by
    rw [← map_kind_unjudged p, h, map_kind_unjudged]
  unfold follow?
  rw [hsource, Family.run_congr hkinds]

theorem course_congr {first second : List Packet}
    (h : first.map unjudged = second.map unjudged) :
    course f isOpen first = course f isOpen second := by
  induction first generalizing second isOpen with
  | nil =>
    have hnil : second = [] := by simpa using h.symm
    rw [hnil]
  | cons p rest ih =>
    match second with
    | [] => simp at h
    | q :: rest' =>
      simp only [List.map_cons, List.cons.injEq] at h
      rw [course_cons, course_cons, follow?_congr h.1]
      cases q.follow? f isOpen with
      | none => rfl
      | some isOpen' => exact ih h.2

-- What is open stays open without an ending.
theorem course_of_no_ending {packets : List Packet}
    (hnone : ∀ p ∈ packets, ∀ g ∈ p.gestures, f.ends g.kind = false)
    (h : course f true packets = some isOpen) : isOpen = true := by
  induction packets with
  | nil => exact (Option.some.inj h).symm
  | cons p rest ih =>
    obtain ⟨between, hp, hrest⟩ := course_cons_eq_some h
    obtain ⟨-, hrun, -⟩ := follow?_eq_some_iff.mp hp
    obtain rfl := Family.run_of_no_ending (hnone p List.mem_cons_self) hrun
    exact ih (fun q hq => hnone q (List.mem_cons_of_mem p hq)) hrest

end TouchGestures.Packet
