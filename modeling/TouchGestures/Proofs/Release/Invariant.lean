import TouchGestures.Proofs.Release.Fate

namespace TouchGestures.Release

open Gesture (Family)

-- What holds of an outlet, of whether a family is open in the packets it has dealt with,
-- and of what became of their gestures, whichever small step the outlet takes.
structure Invariant (f : Family) (P : Outlet → Bool → List Fate → Prop) : Prop where
  judging : ∀ {o isOpen fates p}, P o isOpen fates →
    (p.source = .sequenceStart → isOpen = false) → P (o.judging p) isOpen fates
  offer : ∀ {o isOpen isOpen' fates g} (p : Packet), P o isOpen fates →
    f.next isOpen g.kind = some isOpen' → P (o.offer p g).2 isOpen' (fates ++ [o.fate p g])
  closeAll : ∀ {o fates} (p : Packet), P o false fates →
    P (o.closeAll p).2 false (fates ++ (o.closeAll p).1.map .closing)
  offerAlarm : ∀ {o isOpen fates g} (p : Packet), P o isOpen fates →
    g.kind = .showPress ∨ g.kind = .longPress →
    P (o.offer p g).2 isOpen (fates ++ [o.fate p g])
  sendAlarm : ∀ {o isOpen fates g}, P o isOpen fates →
    g.kind = .showPress ∨ g.kind = .longPress → P (o.send g) isOpen (fates ++ [.sent g])

namespace Invariant

variable {f : Family} {P : Outlet → Bool → List Fate → Prop} {o : Outlet}
  {isOpen isOpen' : Bool} {fates : List Fate} {p : Packet}

theorem offerAll (hP : Invariant f P) (fates : List Fate) {gestures : List Gesture}
    (h : P o isOpen fates) (hrun : f.run isOpen gestures = some isOpen') :
    P (o.offerAll p gestures).2 isOpen' (fates ++ o.fatesOf p gestures) := by
  induction gestures generalizing o isOpen fates with
  | nil =>
    cases hrun
    simpa [Outlet.fatesOf, Outlet.offerAll] using h
  | cons g rest ih =>
    obtain ⟨between, hnext, hrest⟩ := Option.bind_eq_some_iff.mp hrun
    have hstep := ih _ (hP.offer p h hnext) hrest
    rwa [List.append_assoc, List.singleton_append] at hstep

theorem offerAlarms (hP : Invariant f P) {gestures : List Gesture} (h : P o isOpen fates)
    (hkinds : ∀ g ∈ gestures, g.kind = .showPress ∨ g.kind = .longPress) :
    P (o.offerAll p gestures).2 isOpen (fates ++ o.fatesOf p gestures) := by
  induction gestures generalizing o fates with
  | nil => simpa [Outlet.fatesOf, Outlet.offerAll] using h
  | cons g rest ih =>
    have hstep := ih (hP.offerAlarm p h (hkinds g (by simp))) fun g hg => hkinds g (by simp [hg])
    rwa [List.append_assoc, List.singleton_append] at hstep

theorem sendAll (hP : Invariant f P) {gestures : List Gesture} (h : P o isOpen fates)
    (hkinds : ∀ g ∈ gestures, g.kind = .showPress ∨ g.kind = .longPress) :
    P (o.sendAll gestures) isOpen (fates ++ gestures.map .sent) := by
  induction gestures generalizing o fates with
  | nil => simpa [Outlet.sendAll] using h
  | cons g rest ih =>
    have hstep := ih (hP.sendAlarm h (hkinds g (by simp))) fun g hg => hkinds g (by simp [hg])
    rwa [List.append_assoc, List.singleton_append] at hstep

theorem release (hP : Invariant f P) (fates : List Fate) (h : P o isOpen fates)
    (hp : p.follow? f isOpen = some isOpen') :
    P (o.release p).2 isOpen' (fates ++ o.fates (.packet p)) := by
  obtain ⟨hstart, hrun, hcloses⟩ := Packet.follow?_eq_some_iff.mp hp
  have hoffered := hP.offerAll (p := p) fates (hP.judging h hstart) hrun
  rw [Outlet.release_eq, Outlet.fates]
  split
  · next hclosing =>
    rw [hcloses hclosing] at hoffered ⊢
    rw [← List.append_assoc]
    exact hP.closeAll p hoffered
  · simpa using hoffered

theorem alarm (hP : Invariant f P) (h : P o isOpen fates)
    (hkinds : ∀ g ∈ p.gestures, g.kind = .showPress ∨ g.kind = .longPress)
    (suppressing : Bool) :
    P (o.releaseTimeout p suppressing).2 isOpen (fates ++ o.fates (.alarm p suppressing)) := by
  cases suppressing with
  | true => exact hP.offerAlarms h hkinds
  | false => exact hP.sendAll h hkinds

-- What the small steps preserve is preserved along any items whose packets are in order.
theorem replay (hP : Invariant f P) (fates : List Fate) {items : List Item} (h : P o isOpen fates)
    (hforgotten : .forgotten ∈ items → ∀ o isOpen fates, P o isOpen fates → P {} isOpen fates)
    (hcourse : Packet.course f isOpen (packetsOf items) = some isOpen')
    (halarms : PressAlarms items) :
    P (o.replay items).2 isOpen' (fates ++ o.history items) := by
  induction items generalizing o isOpen fates with
  | nil =>
    cases hcourse
    simpa [Outlet.history] using h
  | cons item rest ih =>
    have halarms' : PressAlarms rest := fun p suppressing hmem =>
      halarms p suppressing (List.mem_cons_of_mem item hmem)
    have hforgotten' := fun hmem => hforgotten (List.mem_cons_of_mem _ hmem)
    rw [Outlet.replay_cons, Outlet.history, ← List.append_assoc]
    cases item with
    | packet p =>
      obtain ⟨between, hp, hrest⟩ := Packet.course_cons_eq_some hcourse
      exact ih _ (hP.release fates h hp) hforgotten' hrest halarms'
    | alarm p suppressing =>
      exact ih _ (hP.alarm h (halarms p suppressing (by simp)) suppressing) hforgotten' hcourse
        halarms'
    | forgotten =>
      have hfresh := hforgotten (by simp) o isOpen fates h
      rw [Outlet.fates, List.append_nil]
      exact ih fates hfresh hforgotten' hcourse halarms'

end Invariant

end TouchGestures.Release
