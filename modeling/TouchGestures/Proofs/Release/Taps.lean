import TouchGestures.Proofs.Gesture.Paired
import TouchGestures.Proofs.Release.Record

namespace TouchGestures.Release

open Gesture (Family)

namespace Fate

-- What is made up is never an opener: a tap is called off, or a scroll ended.
def MadeUp : Fate → Prop
  | .sent _ => True
  | .dropped _ calledOff => ∀ g ∈ calledOff, g.kind = .tapCancel
  | .closing g => g.kind = .scrollEnd ∨ g.kind = .tapCancel

end Fate

-- A tap was called off because a gesture was dropped, and no tap has begun since.
def TapCalledOff (fates : List Fate) : Prop :=
  ∃ before g cancel between, fates = before ++ .dropped g (some cancel) :: between ∧
    ∀ opener, .sent opener ∈ between → opener.kind ≠ .tapDown

-- The end of a tap went out although the tap had been called off.
def EndsCalledOffTap (fates : List Fate) : Prop :=
  ∃ before g after, fates = before ++ .sent g :: after ∧ g.kind.endsTap = true ∧
    TapCalledOff before

variable {fates : List Fate} {x : Fate}

theorem TapCalledOff.append (h : TapCalledOff fates)
    (hx : ∀ opener, x = .sent opener → opener.kind ≠ .tapDown) : TapCalledOff (fates ++ [x]) := by
  obtain ⟨before, g, cancel, between, rfl, hbetween⟩ := h
  refine ⟨before, g, cancel, between ++ [x], by simp, ?_⟩
  intro opener hopener
  rcases List.mem_append.mp hopener with hmem | hmem
  · exact hbetween opener hmem
  · exact hx opener (List.mem_singleton.mp hmem).symm

theorem EndsCalledOffTap.append (h : EndsCalledOffTap fates) (rest : List Fate) :
    EndsCalledOffTap (fates ++ rest) := by
  obtain ⟨before, g, after, rfl, hends, hoff⟩ := h
  exact ⟨before, g, after ++ rest, by simp, hends, hoff⟩

-- Without a new tap, nothing among what goes out opens one.
theorem kind_ne_tapDown_of_madeUp (hmade : ∀ x ∈ fates, x.MadeUp)
    (hsent : ∀ opener, .sent opener ∈ fates → opener.kind ≠ .tapDown) :
    ∀ g ∈ outOf fates, g.kind ≠ .tapDown := by
  intro g hg
  obtain ⟨x, hx, hout⟩ := List.mem_flatMap.mp hg
  have hmade := hmade x hx
  cases x with
  | sent opener =>
    obtain rfl : g = opener := by simpa [Fate.out] using hout
    exact hsent g hx
  | dropped dropped calledOff =>
    have hkind := hmade g (by simpa [Fate.out] using hout)
    simp [hkind]
  | closing made =>
    obtain rfl : g = made := by simpa [Fate.out] using hout
    rcases hmade with hkind | hkind <;> simp [hkind]

-- When a tap ends that had been called off, the endings outnumber the taps.
theorem EndsCalledOffTap.not_paired (h : EndsCalledOffTap fates) (hmade : ∀ x ∈ fates, x.MadeUp) :
    ¬Family.tap.Paired (outOf fates) := by
  obtain ⟨_, g, after, rfl, hends, before, dropped, cancel, between, rfl, hbetween⟩ := h
  rw [Family.paired_iff_alternate]
  have hcancel : Family.tap.ends cancel.kind = true := by
    have hkind : cancel.kind = .tapCancel :=
      hmade (.dropped dropped (some cancel)) (by simp) cancel rfl
    simp [hkind, Family.ends, Gesture.Kind.endsTap]
  have hopeners : ∀ g ∈ outOf between, g.kind ≠ Family.tap.opener :=
    kind_ne_tapDown_of_madeUp (fun x hx => hmade x (by simp [hx])) hbetween
  have hrest : Family.tap.alternate false (outOf between ++ g :: outOf after) = none := by
    rw [Family.alternate_append]
    rcases Family.alternate_false_of_forall_ne_opener hopeners with hclosed | hnone
    · rw [hclosed, Option.bind_some, Family.alternate_cons_of_ends (f := .tap) hends,
        if_neg (by simp)]
    · rw [hnone, Option.bind_none]
  have hout : outOf ((before ++ .dropped dropped (some cancel) :: between) ++ .sent g :: after) =
      outOf before ++ cancel :: (outOf between ++ g :: outOf after) := by
    simp [Fate.out]
  rw [hout, Family.alternate_append]
  cases hbefore : Family.tap.alternate false (outOf before) with
  | none => simp
  | some isOpen =>
    rw [Option.bind_some, Family.alternate_cons_of_ends hcancel, hrest]
    cases isOpen <;> simp

-- As long as no tap ends that was called off, taps and their endings alternate, and the
-- outlet knows which of them is next.
structure TracksTaps (o : Outlet) (isOpen : Bool) (fates : List Fate) : Prop where
  faithful : Outlet.Faithful .tap o isOpen
  madeUp : ∀ x ∈ fates, x.MadeUp
  alternates : ¬EndsCalledOffTap fates →
    Family.tap.alternate false (outOf fates) = some o.openTap.isSome
  calledOff : isOpen = true → o.suppression.silences .tap = false → o.openTap = none →
    TapCalledOff fates

namespace TracksTaps

variable {o : Outlet} {p : Packet} {g : Gesture} {isOpen isOpen' : Bool}

theorem start : TracksTaps {} false [] where
  faithful := Outlet.faithful_empty _ _
  madeUp := by simp
  alternates := fun _ => rfl
  calledOff := by simp

theorem judging (h : TracksTaps o isOpen fates)
    (hstart : p.source = .sequenceStart → isOpen = false) :
    TracksTaps (o.judging p) isOpen fates where
  faithful := h.faithful.judging hstart
  madeUp := h.madeUp
  alternates := h.alternates
  calledOff := by
    intro hopen hsilent hnone
    have hnot : p.source ≠ .sequenceStart := by
      intro hsource
      rw [hstart hsource] at hopen
      cases hopen
    refine h.calledOff hopen ?_ hnone
    simpa [Outlet.judging, hnot, Suppression.silences_judge_of_not_start] using hsilent

theorem madeUp_fate (o : Outlet) (p : Packet) (g : Gesture) : (o.fate p g).MadeUp := by
  unfold Outlet.fate
  split
  · intro made hmade
    obtain ⟨opener, -, rfl⟩ := Option.map_eq_some_iff.mp hmade
    rfl
  · trivial

theorem madeUp_append (h : TracksTaps o isOpen fates) (hx : x.MadeUp) :
    ∀ y ∈ fates ++ [x], y.MadeUp := by
  intro y hy
  rcases List.mem_append.mp hy with hy | hy
  · exact h.madeUp y hy
  · rw [List.mem_singleton.mp hy]
    exact hx

theorem alternates_append (h : TracksTaps o isOpen fates) {isSome : Bool}
    (hx : Family.tap.alternate o.openTap.isSome x.out = some isSome)
    (hnot : ¬EndsCalledOffTap (fates ++ [x])) :
    Family.tap.alternate false (outOf (fates ++ [x])) = some isSome := by
  have hbefore := h.alternates fun hends => hnot (hends.append [x])
  rw [outOf_append, Family.alternate_append, hbefore]
  simpa using hx

-- A dropped gesture calls off the tap that is open.
theorem drop (h : TracksTaps o isOpen fates) (hdrops : o.suppression.drops g.kind = true)
    (hfaithful : Outlet.Faithful .tap (o.offer p g).2 isOpen')
    (hopen : g.kind ≠ .tapDown → isOpen' = true → isOpen = true) :
    TracksTaps (o.offer p g).2 isOpen' (fates ++ [o.fate p g]) := by
  refine ⟨hfaithful, h.madeUp_append (madeUp_fate o p g), ?_, ?_⟩
  · refine h.alternates_append ?_
    rw [Outlet.offer_snd_of_drops hdrops]
    cases htap : o.openTap with
    | none => simp [Outlet.fate, hdrops, htap, Fate.out]
    | some opener =>
      have hfate : o.fate p g = .dropped g (some (Outlet.closing .tapCancel opener p)) := by
        simp [Outlet.fate, hdrops, htap]
      rw [hfate, Fate.out, Option.toList_some, Family.alternate_cons_of_ends rfl]
      rfl
  · intro hopen' hsilent _
    rw [Outlet.offer_snd_of_drops hdrops] at hsilent
    have hne : g.kind ≠ .tapDown := by
      intro hkind
      rw [hkind] at hsilent
      simp [Suppression.silences, Suppression.note, Suppression.isDropped, Family.opener]
        at hsilent
    rw [Suppression.silences_note_of_ne (f := .tap) _ _ hne] at hsilent
    cases htap : o.openTap with
    | none =>
      refine (h.calledOff (hopen hne hopen') hsilent htap).append ?_
      simp [Outlet.fate, hdrops]
    | some opener =>
      exact ⟨fates, g, Outlet.closing .tapCancel opener p, [], by simp [Outlet.fate, hdrops, htap],
        by simp⟩

-- A gesture that goes out and neither opens a tap nor ends one changes nothing.
theorem send_other (h : TracksTaps o isOpen fates) {s : Suppression}
    (hs : s.silences .tap = o.suppression.silences .tap) (hne : g.kind ≠ .tapDown)
    (hends : g.kind.endsTap = false) :
    TracksTaps ({ o with suppression := s }.send g) isOpen (fates ++ [.sent g]) := by
  have hsame : ({ o with suppression := s }.send g).openTap = o.openTap := by
    unfold Outlet.send
    simp only [hne, hends, if_false, Bool.false_eq_true]
    split
    · rfl
    · split <;> rfl
  refine ⟨?_, h.madeUp_append trivial, ?_, ?_⟩
  · refine Outlet.Faithful.send_of_ne (f := .tap) (fun hholds => ?_) hne hends
    rw [hs]
    exact h.faithful hholds
  · refine h.alternates_append ?_
    rw [hsame, Fate.out, Family.alternate_cons_of_not_marks]
    · rfl
    · simp [Family.marks, Family.opener, Family.ends, hne, hends]
  · intro hopen hsilent hnone
    rw [Outlet.suppression_send, hs] at hsilent
    rw [hsame] at hnone
    refine (h.calledOff hopen hsilent hnone).append ?_
    rintro opener ⟨⟩
    exact hne

theorem openTap_eq_none (h : TracksTaps o false fates) : o.openTap = none := by
  cases htap : o.openTap with
  | none => rfl
  | some opener =>
    obtain ⟨hopen, -⟩ := h.faithful (by simp [Outlet.holds, htap])
    cases hopen

-- Nothing is open when a tap begins.
theorem send_opener (h : TracksTaps o false fates) (hdrops : o.suppression.drops g.kind = false)
    (hkind : g.kind = .tapDown) (hfaithful : Outlet.Faithful .tap (o.offer p g).2 isOpen') :
    TracksTaps (o.offer p g).2 isOpen' (fates ++ [.sent g]) := by
  refine ⟨hfaithful, h.madeUp_append trivial, ?_, ?_⟩
  · refine h.alternates_append ?_
    rw [h.openTap_eq_none, Fate.out, Family.alternate_cons_of_opener hkind]
    simp [Outlet.offer_snd_of_not_drops hdrops, Outlet.send, hkind]
  · intro _ _ hnone
    simp [Outlet.offer_snd_of_not_drops hdrops, Outlet.send, hkind] at hnone

-- A tap that ends is on record, unless it was called off.
theorem isSome_openTap (h : TracksTaps o true fates) (hdrops : o.suppression.drops g.kind = false)
    (hends : g.kind.endsTap = true) (hnot : ¬EndsCalledOffTap (fates ++ [.sent g])) :
    o.openTap.isSome = true := by
  cases htap : o.openTap with
  | some opener => rfl
  | none =>
    refine absurd ⟨fates, g, [], rfl, hends, h.calledOff rfl ?_ htap⟩ hnot
    cases hsilent : o.suppression.silences .tap with
    | false => rfl
    | true =>
      have hdropped := Suppression.drops_of_silences hsilent
        (Family.antecedent_of_ends (f := .tap) hends)
      rw [hdrops] at hdropped
      cases hdropped

theorem send_ending (h : TracksTaps o true fates) (hdrops : o.suppression.drops g.kind = false)
    (hne : g.kind ≠ .tapDown) (hends : g.kind.endsTap = true)
    (hfaithful : Outlet.Faithful .tap (o.offer p g).2 false) :
    TracksTaps (o.offer p g).2 false (fates ++ [.sent g]) := by
  refine ⟨hfaithful, h.madeUp_append trivial, ?_, by simp⟩
  intro hnot
  refine h.alternates_append ?_ hnot
  rw [h.isSome_openTap hdrops hends hnot, Fate.out,
    Family.alternate_cons_of_ends (f := .tap) hends]
  simp [Outlet.offer_snd_of_not_drops hdrops, Outlet.send, hne, hends]

theorem offer (h : TracksTaps o isOpen fates) (hnext : Family.tap.next isOpen g.kind = some isOpen') :
    TracksTaps (o.offer p g).2 isOpen' (fates ++ [o.fate p g]) := by
  have hfaithful := h.faithful.offer (p := p) hnext
  cases hdrops : o.suppression.drops g.kind with
  | true =>
    refine h.drop hdrops hfaithful fun hne hopen' => ?_
    obtain ⟨hopener, -, -⟩ | ⟨-, -, hopen, -⟩ | ⟨-, -, hsame, -⟩ := Family.next_cases hnext
    · exact absurd hopener hne
    · exact hopen
    · rwa [← hsame]
  | false =>
    have hfate : o.fate p g = .sent g := by simp [Outlet.fate, hdrops]
    rw [hfate]
    obtain ⟨hopener, rfl, -⟩ | ⟨hne, hends, rfl, rfl⟩ | ⟨hne, hends, rfl, -⟩ :=
      Family.next_cases hnext
    · exact h.send_opener hdrops hopener hfaithful
    · exact h.send_ending hdrops hne hends hfaithful
    · rw [Outlet.offer_snd_of_not_drops hdrops]
      exact h.send_other (Suppression.silences_note_of_ne (f := .tap) _ _ hne) hne hends

-- When a sequence ends, its tap has ended before, so that only a scroll is closed.
theorem closeAll (h : TracksTaps o false fates) :
    TracksTaps (o.closeAll p).2 false (fates ++ (o.closeAll p).1.map .closing) := by
  have hnone := h.openTap_eq_none
  have hmade : ∀ g ∈ (o.closeAll p).1, g.kind = .scrollEnd := by
    intro g hg
    have hg : g ∈ o.openScroll.map fun opener => Outlet.closing .scrollEnd opener p := by
      simpa [Outlet.closeAll, Outlet.closeScroll, Outlet.closeTap, hnone] using hg
    obtain ⟨opener, -, rfl⟩ := Option.map_eq_some_iff.mp hg
    rfl
  refine ⟨?_, ?_, ?_, by simp⟩
  · intro hholds
    cases hholds
  · intro x hx
    rcases List.mem_append.mp hx with hx | hx
    · exact h.madeUp x hx
    · obtain ⟨g, hg, rfl⟩ := List.mem_map.mp hx
      exact .inl (hmade g hg)
  · intro hnot
    have hbefore := h.alternates fun hends => hnot (hends.append _)
    rw [outOf_append, Family.alternate_append, hbefore, hnone, outOf_map_closing,
      Option.isSome_none, Option.bind_some]
    refine Family.alternate_of_not_marks fun g hg => ?_
    simp [Family.marks, hmade g hg, Family.opener, Family.ends, Gesture.Kind.endsTap]

theorem invariant : Invariant .tap TracksTaps where
  judging := judging
  offer := fun _ => offer
  closeAll := fun _ => closeAll
  offerAlarm := by
    intro o isOpen fates g p h hk
    obtain ⟨hne, hends⟩ := Outlet.ne_opener_of_alarm (f := .tap) hk
    cases hdrops : o.suppression.drops g.kind with
    | true => exact h.drop hdrops (h.faithful.offer_of_ne hne hends) fun _ => id
    | false =>
      have hfate : o.fate p g = .sent g := by simp [Outlet.fate, hdrops]
      rw [hfate, Outlet.offer_snd_of_not_drops hdrops]
      exact h.send_other (Suppression.silences_note_of_ne (f := .tap) _ _ hne) hne hends
  sendAlarm := by
    intro o isOpen fates g h hk
    obtain ⟨hne, hends⟩ := Outlet.ne_opener_of_alarm (f := .tap) hk
    exact h.send_other rfl hne hends

end TracksTaps

end TouchGestures.Release
