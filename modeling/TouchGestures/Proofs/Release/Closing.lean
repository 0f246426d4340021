import TouchGestures.Proofs.Gesture.Paired
import TouchGestures.Proofs.Release.Entering

namespace TouchGestures

open Gesture (Family)

namespace Gesture.Family

variable {f : Family} {g : Gesture} {first second : List Gesture}

-- Whether the first that is heard of the family is an ending.
def Closes (f : Family) (gestures : List Gesture) : Prop :=
  ∃ g ∈ gestures.find? f.marks, f.ends g.kind = true

instance (f : Family) (gestures : List Gesture) : Decidable (f.Closes gestures) :=
  inferInstanceAs (Decidable (∃ g ∈ gestures.find? f.marks, f.ends g.kind = true))

theorem not_closes_nil : ¬f.Closes [] := by
  simp [Closes]

theorem closes_cons_of_ends (hg : f.ends g.kind = true) : f.Closes (g :: second) := by
  simp [Closes, marks, hg]

theorem not_closes_cons_of_opener (hg : g.kind = f.opener) : ¬f.Closes (g :: second) := by
  simp [Closes, marks, hg, ends_opener]

theorem closes_cons_of_not_marks (hg : f.marks g = false) :
    f.Closes (g :: second) ↔ f.Closes second := by
  simp [Closes, hg]

theorem closes_append_of_not_marks (h : ∀ g ∈ first, f.marks g = false) :
    f.Closes (first ++ second) ↔ f.Closes second := by
  induction first with
  | nil => rfl
  | cons g rest ih =>
    rw [List.cons_append, closes_cons_of_not_marks (h g (by simp))]
    exact ih fun g hg => h g (by simp [hg])

end Gesture.Family

namespace Release

def firstEnding (f : Family) (packets : List Packet) : Option (Packet × Gesture) :=
  (packets.flatMap fun p => p.gestures.map fun g => (p, g)).find? fun (_, g) => f.ends g.kind

-- Whether a gesture goes out even if the consumer handled the touch behind it, or the
-- consumer did not.
def passes : Packet × Gesture → Bool
  | (p, g) => !p.isConsumed || g.kind.isTerminating

variable {f : Family} {o : Outlet} {p : Packet} {isOpen isOpen' : Bool}

-- Whether what is open will be heard to end: it is on record, or its own ending comes and
-- goes out.
def WillClose (f : Family) (o : Outlet) (isOpen : Bool) (ending : Option (Packet × Gesture)) :
    Prop :=
  o.holds f = true ∨
    isOpen = true ∧ o.suppression.silences f = false ∧ ending.all passes = true

theorem willClose_false_iff {ending : Option (Packet × Gesture)} :
    WillClose f o false ending ↔ o.holds f = true := by
  simp [WillClose]

theorem Outlet.Faithful.holds_eq_false (h : Outlet.Faithful f o false) : o.holds f = false := by
  cases hholds : o.holds f with
  | false => rfl
  | true =>
    obtain ⟨hopen, -⟩ := h hholds
    cases hopen

-- An ending is dropped if its family is silenced, or if the consumer handled its touch and
-- it is the proper end of a tap.
theorem drops_of_ends {s : Suppression} {k : Gesture.Kind} (hk : f.ends k = true) :
    s.drops k = (s.silences f || (s.touchConsumed && !k.isTerminating)) := by
  simp [Suppression.drops, Suppression.silences, Family.antecedent_of_ends hk]

namespace Outlet

variable {g : Gesture} {tail : List Gesture}

theorem closes_of_drops (hdrops : o.suppression.drops g.kind = true) (hf : f ≠ .pinch) :
    f.Closes ((o.fate p g).out ++ tail) ↔
      (f = .tap ∧ o.holds .tap = true) ∨ f.Closes tail := by
  have hfate : o.fate p g =
      .dropped g (o.openTap.map fun opener => closing .tapCancel opener p) := by
    simp [fate, hdrops]
  rw [hfate, Fate.out, holds]
  cases htap : o.openTap with
  | none => simp
  | some opener =>
    simp only [Option.map_some, Option.toList_some, List.singleton_append, Option.isSome_some,
      and_true]
    cases f with
    | tap => simp [Family.closes_cons_of_ends (f := .tap) (g := closing .tapCancel opener p) rfl]
    | scroll =>
      rw [Family.closes_cons_of_not_marks rfl]
      simp
    | pinch => exact absurd rfl hf

theorem holds_of_drops (hdrops : o.suppression.drops g.kind = true) :
    (o.offer p g).2.holds f = (f ≠ .tap && o.holds f) := by
  rw [offer_snd_of_drops hdrops]
  cases f <;> simp [holds]

-- While its family is heard, only the proper end of a tap is ever dropped.
theorem not_passes_of_drops (hdrops : o.suppression.drops g.kind = true) (hends : f.ends g.kind = true)
    (hconsumed : o.suppression.touchConsumed = p.isConsumed)
    (hsilent : o.suppression.silences f = false) : passes (p, g) = false := by
  rw [drops_of_ends hends, hsilent, hconsumed] at hdrops
  cases hp : p.isConsumed <;> simp_all [passes]

theorem passes_of_ends_scroll (p : Packet) (hends : Family.scroll.ends g.kind = true) :
    passes (p, g) = true := by
  cases hk : g.kind <;>
    simp_all [Family.ends, Gesture.Kind.endsScroll, passes, Gesture.Kind.isTerminating]

-- Offering a gesture of the packet does not change whether what is open will be heard to
-- end, be it by this gesture or afterwards: this is so when it is dropped,
theorem closes_offer_of_drops {ending : Option (Packet × Gesture)} (h : Faithful f o isOpen)
    (hf : f ≠ .pinch) (hconsumed : o.suppression.touchConsumed = p.isConsumed)
    (hnext : f.next isOpen g.kind = some isOpen')
    (htail : f.Closes tail ↔ WillClose f (o.offer p g).2 isOpen' ending)
    (hdrops : o.suppression.drops g.kind = true) :
    f.Closes ((o.fate p g).out ++ tail) ↔
      WillClose f o isOpen (if f.ends g.kind then some (p, g) else ending) := by
  rw [closes_of_drops hdrops hf, htail]
  unfold WillClose
  rw [holds_of_drops hdrops]
  obtain ⟨hopener, rfl, -⟩ | ⟨-, hends, rfl, rfl⟩ | ⟨hne, hends, rfl, -⟩ := Family.next_cases hnext
  · have hheld := h.holds_eq_false
    have hsilent : (o.offer p g).2.suppression.silences f = true := by
      rw [offer_snd_of_drops hdrops, hopener, Suppression.silences_note_opener]
      rfl
    rw [hsilent, hheld]
    cases f <;> simp_all
  · have hnot : ¬(o.suppression.silences f = false ∧ passes (p, g) = true) := by
      rintro ⟨hsilent, hpasses⟩
      rw [not_passes_of_drops hdrops hends hconsumed hsilent] at hpasses
      cases hpasses
    have hscroll : f = .scroll → o.holds .scroll = false := by
      rintro rfl
      cases hheld : o.holds .scroll with
      | false => rfl
      | true => exact absurd ⟨(h hheld).2, passes_of_ends_scroll p hends⟩ hnot
    rw [if_pos hends]
    simp only [Option.all_some, true_and, hnot, or_false, Bool.false_eq_true, false_and]
    cases f <;> simp_all
  · rw [offer_snd_of_drops hdrops, Suppression.silences_note_of_ne _ _ hne, hends]
    cases f <;> simp_all

-- and when it goes out.
theorem closes_offer_of_not_drops {ending : Option (Packet × Gesture)} (h : Faithful f o isOpen)
    (hconsumed : o.suppression.touchConsumed = p.isConsumed)
    (hnext : f.next isOpen g.kind = some isOpen')
    (htail : f.Closes tail ↔ WillClose f (o.offer p g).2 isOpen' ending)
    (hdrops : o.suppression.drops g.kind = false) :
    f.Closes ((o.fate p g).out ++ tail) ↔
      WillClose f o isOpen (if f.ends g.kind then some (p, g) else ending) := by
  have hfate : o.fate p g = .sent g := by simp [fate, hdrops]
  rw [hfate, Fate.out, List.singleton_append]
  obtain ⟨hopener, rfl, -⟩ | ⟨-, hends, rfl, -⟩ | ⟨hne, hends, rfl, -⟩ := Family.next_cases hnext
  · rw [willClose_false_iff, h.holds_eq_false]
    simp [Family.not_closes_cons_of_opener hopener]
  · rw [drops_of_ends hends, Bool.or_eq_false_iff] at hdrops
    rw [if_pos hends]
    refine iff_of_true (Family.closes_cons_of_ends hends) (.inr ⟨rfl, hdrops.1, ?_⟩)
    rw [hconsumed] at hdrops
    cases hp : p.isConsumed <;> simp_all [passes]
  · have hmarks : f.marks g = false := by simp [Family.marks, hne, hends]
    rw [Family.closes_cons_of_not_marks hmarks, htail]
    unfold WillClose
    rw [offer_snd_of_not_drops hdrops, holds_send_of_ne hne hends, suppression_send,
      Suppression.silences_note_of_ne _ _ hne, holds_suppression, hends]
    simp

theorem closes_offer {ending : Option (Packet × Gesture)} (h : Faithful f o isOpen)
    (hf : f ≠ .pinch) (hconsumed : o.suppression.touchConsumed = p.isConsumed)
    (hnext : f.next isOpen g.kind = some isOpen')
    (htail : f.Closes tail ↔ WillClose f (o.offer p g).2 isOpen' ending) :
    f.Closes ((o.fate p g).out ++ tail) ↔
      WillClose f o isOpen (if f.ends g.kind then some (p, g) else ending) := by
  cases hdrops : o.suppression.drops g.kind with
  | true => exact closes_offer_of_drops h hf hconsumed hnext htail hdrops
  | false => exact closes_offer_of_not_drops h hconsumed hnext htail hdrops

theorem closes_fatesOf {gestures : List Gesture} {ending : Option (Packet × Gesture)}
    (h : Faithful f o isOpen) (hf : f ≠ .pinch)
    (hconsumed : o.suppression.touchConsumed = p.isConsumed)
    (hrun : f.run isOpen gestures = some isOpen')
    (htail : f.Closes tail ↔ WillClose f (o.offerAll p gestures).2 isOpen' ending) :
    f.Closes (outOf (o.fatesOf p gestures) ++ tail) ↔
      WillClose f o isOpen
        (((gestures.map fun g => (p, g)).find? fun (_, g) => f.ends g.kind).or ending) := by
  induction gestures generalizing o isOpen with
  | nil =>
    cases hrun
    simpa [fatesOf, offerAll] using htail
  | cons g rest ih =>
    obtain ⟨between, hnext, hrest⟩ := Option.bind_eq_some_iff.mp hrun
    have hothers := ih (h.offer hnext) (by rw [touchConsumed_offer, hconsumed]) hrest htail
    have hstep := closes_offer h hf hconsumed hnext hothers
    rw [fatesOf, outOf_cons, List.append_assoc, hstep, List.map_cons, List.find?_cons]
    cases hends : f.ends g.kind <;> simp [hends]

theorem willClose_judging {ending : Option (Packet × Gesture)}
    (hstart : p.source = .sequenceStart → isOpen = false) :
    WillClose f (o.judging p) isOpen ending ↔ WillClose f o isOpen ending := by
  by_cases hsource : p.source = .sequenceStart
  · rw [hstart hsource, willClose_false_iff, willClose_false_iff]
    simp [judging]
  · simp [WillClose, judging, hsource, Suppression.silences_judge_of_not_start]

-- What is closed is not closed again when the sequence ends.
theorem marks_closeAll (h : o.holds f = false) (hf : f ≠ .pinch) :
    ∀ g ∈ (o.closeAll p).1, f.marks g = false := by
  have hkinds : ∀ g ∈ (o.closeAll p).1,
      (o.openScroll.isSome = true ∧ g.kind = .scrollEnd) ∨
        (o.openTap.isSome = true ∧ g.kind = .tapCancel) := by
    intro g hg
    rcases List.mem_append.mp hg with hg | hg
    · obtain ⟨opener, hopener, rfl⟩ := Option.map_eq_some_iff.mp (Option.mem_toList.mp hg)
      exact .inl ⟨by simp [hopener], rfl⟩
    · obtain ⟨opener, hopener, rfl⟩ := Option.map_eq_some_iff.mp (Option.mem_toList.mp hg)
      have hopener : o.openTap = some opener := hopener
      exact .inr ⟨by simp [hopener], rfl⟩
  intro g hg
  cases f with
  | tap =>
    obtain ⟨-, hkind⟩ | ⟨hsome, -⟩ := hkinds g hg
    · simp [Family.marks, hkind, Family.opener, Family.ends, Gesture.Kind.endsTap]
    · rw [holds, hsome] at h
      cases h
  | scroll =>
    obtain ⟨hsome, -⟩ | ⟨-, hkind⟩ := hkinds g hg
    · rw [holds, hsome] at h
      cases h
    · simp [Family.marks, hkind, Family.opener, Family.ends, Gesture.Kind.endsScroll]
  | pinch => exact absurd rfl hf

theorem closes_fates_packet {ending : Option (Packet × Gesture)} (h : Faithful f o isOpen)
    (hf : f ≠ .pinch) (hp : p.follow? f isOpen = some isOpen')
    (htail : f.Closes tail ↔ WillClose f (o.release p).2 isOpen' ending) :
    f.Closes (outOf (o.fates (.packet p)) ++ tail) ↔
      WillClose f o isOpen ((firstEnding f [p]).or ending) := by
  obtain ⟨hstart, hrun, hcloses⟩ := Packet.follow?_eq_some_iff.mp hp
  have hconsumed : (o.judging p).suppression.touchConsumed = p.isConsumed := by
    unfold judging Suppression.judge
    simp only []
    split <;> rfl
  have hjudged := h.judging hstart
  have hending : firstEnding f [p] =
      (p.gestures.map fun g => (p, g)).find? fun (_, g) => f.ends g.kind := by
    simp [firstEnding]
  rw [hending, ← willClose_judging hstart]
  rw [release_eq] at htail
  rw [fates]
  split
  · next hclosing =>
    rw [if_pos hclosing] at htail
    obtain rfl := hcloses hclosing
    have hoffered := hjudged.offerAll p hrun
    have hheld := hoffered.holds_eq_false
    rw [outOf_append, outOf_map_closing, List.append_assoc]
    refine closes_fatesOf hjudged hf hconsumed hrun ?_
    rw [Family.closes_append_of_not_marks (marks_closeAll hheld hf), htail, willClose_false_iff,
      willClose_false_iff, hheld]
    cases f <;> simp [closeAll, closeTap, closeScroll, holds]
  · next hclosing =>
    rw [if_neg hclosing] at htail
    rw [List.append_nil]
    exact closes_fatesOf hjudged hf hconsumed hrun htail

-- Packets that leave everything closed close a family just if it is on record, or if it is
-- open in them, is not silenced, and its own ending goes out.
theorem closes_history {packets : List Packet} (h : Faithful f o isOpen) (hf : f ≠ .pinch)
    (hcourse : Packet.course f isOpen packets = some false) :
    f.Closes (outOf (o.history (packets.map .packet))) ↔
      WillClose f o isOpen (firstEnding f packets) := by
  induction packets generalizing o isOpen with
  | nil =>
    cases hcourse
    rw [willClose_false_iff, h.holds_eq_false]
    simp [history, Family.not_closes_nil]
  | cons p rest ih =>
    obtain ⟨between, hp, hrest⟩ := Packet.course_cons_eq_some hcourse
    have hothers := ih (h.release hp) hrest
    have hending : firstEnding f (p :: rest) = (firstEnding f [p]).or (firstEnding f rest) := by
      unfold firstEnding
      rw [List.flatMap_cons, List.find?_append, List.flatMap_singleton]
    rw [List.map_cons, history, outOf_append, hending]
    exact closes_fates_packet h hf hp hothers

-- Where a family is opened in the packets and closed in the end, an ending is among them.
theorem isSome_firstEnding {packets : List Packet}
    (hcourse : Packet.course f true packets = some false) :
    (firstEnding f packets).isSome = true := by
  cases hending : firstEnding f packets with
  | some ending => rfl
  | none =>
    have hnone : ∀ p ∈ packets, ∀ g ∈ p.gestures, f.ends g.kind = false := by
      intro p hp g hg
      unfold firstEnding at hending
      rw [List.find?_eq_none] at hending
      have hnot := hending (p, g) (List.mem_flatMap.mpr ⟨p, hp, List.mem_map.mpr ⟨g, hg, rfl⟩⟩)
      simpa using hnot
    have hopen := Packet.course_of_no_ending hnone hcourse
    cases hopen

-- What comes after the end does not matter.
theorem willClose_append {packets : List Packet} (more : List Packet)
    (hcourse : Packet.course f isOpen packets = some false) :
    WillClose f o isOpen (firstEnding f (packets ++ more)) ↔
      WillClose f o isOpen (firstEnding f packets) := by
  cases isOpen with
  | false => rw [willClose_false_iff, willClose_false_iff]
  | true =>
    obtain ⟨ending, hending⟩ := Option.isSome_iff_exists.mp (isSome_firstEnding hcourse)
    have hsame : firstEnding f (packets ++ more) = some ending := by
      unfold firstEnding at hending ⊢
      rw [List.flatMap_append, List.find?_append, hending, Option.some_or]
    rw [hsame, hending]

end Outlet

end Release

end TouchGestures
