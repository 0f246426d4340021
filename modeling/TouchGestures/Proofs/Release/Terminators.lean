import TouchGestures.Proofs.Gesture.Paired
import TouchGestures.Proofs.Release.Journal
import TouchGestures.Proofs.Release.Record
import TouchGestures.Proofs.Splits

namespace TouchGestures

open Gesture (Family)

namespace Gesture.Family

variable {f other : Family} {g : Gesture} {gestures : List Gesture}

def leftOpen (f : Family) (gestures : List Gesture) : Bool :=
  (gestures.filter f.marks).getLast?.any fun g => g.kind = f.opener

theorem leftOpen_concat_of_opener (hg : g.kind = f.opener) (gestures : List Gesture) :
    f.leftOpen (gestures ++ [g]) = true := by
  simp [leftOpen, marks, hg]

theorem leftOpen_concat_of_ends (hg : f.ends g.kind = true) (gestures : List Gesture) :
    f.leftOpen (gestures ++ [g]) = false := by
  simp [leftOpen, marks, hg, ne_opener_of_ends hg]

theorem leftOpen_concat_of_not_marks (hg : f.marks g = false) (gestures : List Gesture) :
    f.leftOpen (gestures ++ [g]) = f.leftOpen gestures := by
  simp [leftOpen, hg]

-- What ends one family has no part in another.
theorem marks_of_ends_of_ne (hg : f.ends g.kind = true) (hne : other ≠ f) :
    other.marks g = false := by
  unfold marks
  cases f <;> cases other <;> cases hk : g.kind <;>
    simp_all [ends, opener, Kind.endsTap, Kind.endsScroll]

end Gesture.Family

namespace Release

variable {f : Family} {fates : List Fate} {x : Fate}

namespace Fate

def madeUp? : Fate → Option Gesture
  | .sent _ => none
  | .dropped _ calledOff => calledOff
  | .closing g => some g

end Fate

-- An opener went out as it was, and nothing of its family has ended it or opened anew since.
def Unclosed (f : Family) (fates : List Fate) (opener : Gesture) : Prop :=
  ∃ before between, fates = before ++ .sent opener :: between ∧ opener.kind = f.opener ∧
    ∀ g ∈ outOf between, f.marks g = false

theorem Unclosed.concat {opener : Gesture} (h : Unclosed f fates opener)
    (hx : ∀ g ∈ x.out, f.marks g = false) : Unclosed f (fates ++ [x]) opener := by
  obtain ⟨before, between, rfl, hkind, hbetween⟩ := h
  refine ⟨before, between ++ [x], by simp, hkind, ?_⟩
  intro g hg
  rw [outOf_append, List.mem_append] at hg
  rcases hg with hg | hg
  · exact hbetween g hg
  · exact hx g (by simpa using hg)

-- Whatever was made up ends something that was open.
def EndsUnclosed (fates : List Fate) : Prop :=
  ∀ before x after, fates = before ++ x :: after → ∀ g ∈ x.madeUp?,
    ∃ f opener, Unclosed f before opener ∧ f.ends g.kind = true

theorem EndsUnclosed.concat (h : EndsUnclosed fates)
    (hx : ∀ g ∈ x.madeUp?, ∃ f opener, Unclosed f fates opener ∧ f.ends g.kind = true) :
    EndsUnclosed (fates ++ [x]) :=
  forall_split_concat h hx

namespace Outlet

variable {o o' : Outlet} {p : Packet} {g opener : Gesture}

-- The opener of a family that went out and has not been closed. Pinches are not recorded.
def record (o : Outlet) : Family → Option Gesture
  | .tap => o.openTap
  | .scroll => o.openScroll
  | .pinch => none

theorem record_send_of_opener (hg : g.kind = f.opener) (hf : f ≠ .pinch) :
    (o.send g).record f = some g := by
  unfold send record
  cases f <;> simp_all [Family.opener, Gesture.Kind.endsTap]

theorem record_send_of_ends (hg : f.ends g.kind = true) : (o.send g).record f = none := by
  unfold send record
  cases f <;> cases hk : g.kind <;>
    simp_all [Family.ends, Gesture.Kind.endsTap, Gesture.Kind.endsScroll]

theorem record_send_of_not_marks (hg : f.marks g = false) : (o.send g).record f = o.record f := by
  unfold send record
  cases f <;> cases hk : g.kind <;>
    simp_all [Family.marks, Family.opener, Family.ends, Gesture.Kind.endsTap,
      Gesture.Kind.endsScroll]

@[simp] theorem record_suppression (o : Outlet) (s : Suppression) (f : Family) :
    { o with suppression := s }.record f = o.record f := by
  cases f <;> rfl

-- What is on record as open is what the gestures that went out left open, and nothing was
-- made up but to close what was open.
structure Records (o : Outlet) (fates : List Fate) : Prop where
  leftOpen : ∀ f : Family, f ≠ .pinch → f.leftOpen (outOf fates) = (o.record f).isSome
  unclosed : ∀ (f : Family) (opener : Gesture), o.record f = some opener → Unclosed f fates opener
  ends : EndsUnclosed fates

namespace Records

theorem start : Records {} [] where
  leftOpen := by
    intro f _
    cases f <;> rfl
  unclosed := by
    intro f opener hrecord
    cases f <;> cases hrecord
  ends := by
    intro before x after heq
    simp at heq

theorem congr (h : Records o fates) (hsame : ∀ f, o'.record f = o.record f) : Records o' fates where
  leftOpen := fun f hf => by rw [hsame, h.leftOpen f hf]
  unclosed := fun f opener hrecord => h.unclosed f opener (by rw [← hsame, hrecord])
  ends := h.ends

-- A gesture goes out as it is.
theorem send (h : Records o fates) (g : Gesture) : Records (o.send g) (fates ++ [.sent g]) where
  leftOpen := by
    intro f hf
    have hout : outOf [.sent g] = [g] := rfl
    rw [outOf_append, hout]
    by_cases hopener : g.kind = f.opener
    · rw [Family.leftOpen_concat_of_opener hopener, record_send_of_opener hopener hf]
      rfl
    · cases hends : f.ends g.kind with
      | true => rw [Family.leftOpen_concat_of_ends hends, record_send_of_ends hends]; rfl
      | false =>
        have hmarks : f.marks g = false := by simp [Family.marks, hopener, hends]
        rw [Family.leftOpen_concat_of_not_marks hmarks, record_send_of_not_marks hmarks,
          h.leftOpen f hf]
  unclosed := by
    intro f opener hrecord
    cases hmarks : f.marks g with
    | false =>
      rw [record_send_of_not_marks hmarks] at hrecord
      exact (h.unclosed f opener hrecord).concat (by simpa [Fate.out] using hmarks)
    | true =>
      -- What closes the family leaves nothing on record.
      have hopener : g.kind = f.opener := by
        by_contra hne
        have hends : f.ends g.kind = true := by simpa [Family.marks, hne] using hmarks
        rw [record_send_of_ends hends] at hrecord
        cases hrecord
      have hf : f ≠ .pinch := by
        rintro rfl
        cases hrecord
      rw [record_send_of_opener hopener hf] at hrecord
      cases hrecord
      exact ⟨fates, [], rfl, hopener, by simp⟩
  ends := h.ends.concat (by simp [Fate.madeUp?])

-- Nothing goes out.
theorem skip (h : Records o fates) (hout : x.out = []) (hmade : x.madeUp? = none) :
    Records o (fates ++ [x]) where
  leftOpen := by
    intro f hf
    rw [outOf_append, outOf_cons, hout]
    simpa using h.leftOpen f hf
  unclosed := fun f opener hrecord => (h.unclosed f opener hrecord).concat (by simp [hout])
  ends := h.ends.concat (by simp [hmade])

-- A gesture is made up to close what is on record.
theorem close (h : Records o fates) (hrecord : o.record f = some opener) (hout : x.out = [g])
    (hmade : x.madeUp? = some g) (hends : f.ends g.kind = true) (hcleared : o'.record f = none)
    (hothers : ∀ other, other ≠ f → o'.record other = o.record other) :
    Records o' (fates ++ [x]) where
  leftOpen := by
    intro other hother
    rw [outOf_append, outOf_cons, hout, outOf_nil, List.append_nil]
    by_cases hsame : other = f
    · rw [hsame, Family.leftOpen_concat_of_ends hends, hcleared]
      rfl
    · rw [Family.leftOpen_concat_of_not_marks (Family.marks_of_ends_of_ne hends hsame),
        hothers other hsame, h.leftOpen other hother]
  unclosed := by
    intro other opener hopen
    by_cases hsame : other = f
    · rw [hsame, hcleared] at hopen
      cases hopen
    · rw [hothers other hsame] at hopen
      refine (h.unclosed other opener hopen).concat ?_
      simpa [hout] using Family.marks_of_ends_of_ne hends hsame
  ends := by
    refine h.ends.concat ?_
    rw [hmade]
    rintro made ⟨⟩
    exact ⟨f, opener, h.unclosed f opener hrecord, hends⟩

theorem offer (h : Records o fates) (p : Packet) (g : Gesture) :
    Records (o.offer p g).2 (fates ++ [o.fate p g]) := by
  cases hdrops : o.suppression.drops g.kind with
  | false =>
    have hfate : o.fate p g = .sent g := by simp [fate, hdrops]
    rw [hfate, offer_snd_of_not_drops hdrops]
    exact (h.congr fun f => record_suppression o _ f).send g
  | true =>
    have hfate : o.fate p g =
        .dropped g (o.openTap.map fun opener => closing .tapCancel opener p) := by
      simp [fate, hdrops]
    rw [hfate, offer_snd_of_drops hdrops]
    cases htap : o.openTap with
    | none =>
      refine (h.skip rfl rfl).congr fun f => ?_
      cases f <;> simp [record, htap]
    | some opener =>
      refine h.close (f := .tap) htap rfl rfl rfl rfl fun other hother => ?_
      cases other with
      | tap => exact absurd rfl hother
      | scroll => rfl
      | pinch => rfl

theorem offerAll (h : Records o fates) (p : Packet) (gestures : List Gesture) :
    Records (o.offerAll p gestures).2 (fates ++ o.fatesOf p gestures) := by
  induction gestures generalizing o fates with
  | nil => simpa [fatesOf, Outlet.offerAll] using h
  | cons g rest ih =>
    have hrest := ih (h.offer p g)
    rwa [List.append_assoc, List.singleton_append] at hrest

theorem sendAll (h : Records o fates) (gestures : List Gesture) :
    Records (o.sendAll gestures) (fates ++ gestures.map .sent) := by
  induction gestures generalizing o fates with
  | nil => simpa [Outlet.sendAll] using h
  | cons g rest ih =>
    have hrest := ih (h.send g)
    rwa [List.append_assoc, List.singleton_append] at hrest

theorem closeScroll (h : Records o fates) (p : Packet) :
    Records (o.closeScroll p).2 (fates ++ (o.closeScroll p).1.map .closing) := by
  unfold Outlet.closeScroll
  cases hscroll : o.openScroll with
  | none =>
    simp only [Option.map_none, Option.toList_none, List.map_nil, List.append_nil]
    exact h.congr fun f => by cases f <;> simp [record, hscroll]
  | some opener =>
    refine h.close (f := .scroll) hscroll rfl rfl rfl rfl fun other hother => ?_
    cases other with
    | tap => rfl
    | scroll => exact absurd rfl hother
    | pinch => rfl

theorem closeTap (h : Records o fates) (p : Packet) :
    Records (o.closeTap p).2 (fates ++ (o.closeTap p).1.map .closing) := by
  unfold Outlet.closeTap
  cases htap : o.openTap with
  | none =>
    simp only [Option.map_none, Option.toList_none, List.map_nil, List.append_nil]
    exact h.congr fun f => by cases f <;> simp [record, htap]
  | some opener =>
    refine h.close (f := .tap) htap rfl rfl rfl rfl fun other hother => ?_
    cases other with
    | tap => exact absurd rfl hother
    | scroll => rfl
    | pinch => rfl

theorem closeAll (h : Records o fates) (p : Packet) :
    Records (o.closeAll p).2 (fates ++ (o.closeAll p).1.map .closing) := by
  have hboth := (h.closeScroll p).closeTap p
  rwa [List.append_assoc, ← List.map_append] at hboth

theorem release (h : Records o fates) (p : Packet) :
    Records (o.release p).2 (fates ++ o.fates (.packet p)) := by
  have hjudged : Records (o.judging p) fates := h.congr fun f => record_suppression o _ f
  have hoffered := hjudged.offerAll p p.gestures
  rw [Outlet.release_eq, Outlet.fates]
  split
  · rw [← List.append_assoc]
    exact hoffered.closeAll p
  · simpa using hoffered

theorem take (h : Records o fates) {item : Item} (hitem : item ≠ .forgotten) :
    Records (o.take item).2 (fates ++ o.fates item) := by
  cases item with
  | packet p => exact h.release p
  | alarm p suppressing =>
    cases suppressing with
    | true => exact h.offerAll p p.gestures
    | false => exact h.sendAll p.gestures
  | forgotten => exact absurd rfl hitem

-- The record is right after any items, in whatever order their gestures come.
theorem replay (h : Records o fates) {items : List Item} (hitems : .forgotten ∉ items) :
    Records (o.replay items).2 (fates ++ o.history items) := by
  induction items generalizing o fates with
  | nil => simpa [history] using h
  | cons item rest ih =>
    rw [List.mem_cons, not_or] at hitems
    rw [replay_cons, history, ← List.append_assoc]
    exact ih (h.take (Ne.symm hitems.1)) hitems.2

end Records

-- Nothing is on record when a sequence has ended.
theorem record_release_of_closes (hp : p.source.closesSequence = true) (f : Family) :
    (o.release p).2.record f = none := by
  rw [release_eq, if_pos hp]
  cases f with
  | tap => exact openTap_closeAll _ p
  | scroll => exact openScroll_closeAll _ p
  | pinch => rfl

end Outlet

namespace Journal

variable {j : Journal} {settled rest : List Item} {p : Packet}

def releasedFor (j : Journal) (settled : List Item) : List Gesture :=
  j.released.take (Outlet.replay {} settled).1.length

theorem releasedFor_eq (h : j.Sound) (hitems : j.items = settled ++ rest) :
    j.releasedFor settled = outOf (Outlet.history {} settled) := by
  have hreleased : j.released =
      (Outlet.replay {} settled).1 ++ ((Outlet.replay {} settled).2.replay rest).1 := by
    have hreplay := congrArg Prod.fst h.replay
    rwa [hitems, Outlet.replay_append, eq_comm] at hreplay
  rw [releasedFor, hreleased, List.take_left, Outlet.outOf_history]

theorem records_of_items (h : j.Sound) (hitems : j.items = settled ++ rest) :
    (Outlet.replay {} settled).2.Records (Outlet.history {} settled) := by
  have hforgotten : .forgotten ∉ settled := fun hmem =>
    h.unforgotten (hitems ▸ List.mem_append_left rest hmem)
  simpa using Outlet.Records.start.replay hforgotten

-- Once a packet is out that ends a sequence, no tap and no scroll that was seen to begin has
-- been left open. Whatever was made up ended one that was.
theorem Kept.closed_of_closes (h : Kept (fun _ => True) j) :
    outOf (Outlet.history {} j.items) = j.released ∧
      (∀ settled p rest, j.items = settled ++ .packet p :: rest →
        p.source.closesSequence = true → ∀ f : Family, f ≠ .pinch →
          f.leftOpen (j.releasedFor (settled ++ [.packet p])) = false) ∧
      EndsUnclosed (Outlet.history {} j.items) := by
  have hsound := h.sound
  refine ⟨?_, fun settled p rest hitems hp f hf => ?_, ?_⟩
  · rw [Outlet.outOf_history, hsound.replay]
  · have hitems : j.items = (settled ++ [.packet p]) ++ rest := by rw [hitems]; simp
    rw [releasedFor_eq hsound hitems, (records_of_items hsound hitems).leftOpen f hf,
      Outlet.replay_append, Outlet.replay_singleton, Outlet.take,
      Outlet.record_release_of_closes hp]
    rfl
  · have hall : j.items = j.items ++ [] := (List.append_nil j.items).symm
    exact (records_of_items hsound hall).ends

-- A finger is pressed, found to rest long, moves, and is cancelled. No gesture of the cancel
-- closes what the move and the press have opened.
def cancelledScroll : List Queue.Call :=
  [.submit (sample .sequenceStart 1 [.tapDown]), .ack 1 false false,
    .submit { sample .timeout 1 [.longPress] with verdict := .unconsumed },
    .submit (sample .touchMove 2 [.scrollBegin Point.origin]), .ack 2 false false,
    .submit (sample .sequenceCancel 3 []), .ack 3 true false]

theorem closed_of_cancelledScroll :
    Kept (fun _ => True) (ofCalls cancelledScroll) ∧
      (ofCalls cancelledScroll).released.map Gesture.kind =
        [.tapDown, .longPress, .scrollBegin, .scrollEnd, .tapCancel] ∧
      EndsUnclosed (Outlet.history {} (ofCalls cancelledScroll).items) := by
  have hkept : Kept (fun _ => True) (ofCalls cancelledScroll) := kept_ofCalls fun _ _ => trivial
  exact ⟨hkept, by decide +kernel, hkept.closed_of_closes.2.2⟩

end Journal

end Release

end TouchGestures
