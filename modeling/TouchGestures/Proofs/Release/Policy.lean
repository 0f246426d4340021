import Mathlib.Data.List.SplitBy
import TouchGestures.Proofs.Release.Closing
import TouchGestures.Proofs.Release.Journal
import TouchGestures.Proofs.Release.Suppressed
import TouchGestures.Proofs.Release.Taps

namespace TouchGestures.Release

open Queue (ready waiting)

-- The packets of each sequence: those from a start to the next one.
def sequences (packets : List Packet) : List (List Packet) :=
  packets.splitBy fun _ q => q.source ≠ .sequenceStart

-- The gestures of some packets, each with the packet that carries it.
def carried (packets : List Packet) : List (Packet × Gesture) :=
  packets.flatMap fun p => p.gestures.map fun g => (p, g)

-- Whether a sequence belongs to the consumer.
def startConsumed (sequence : List Packet) : Bool :=
  sequence.head?.any fun p => p.source = .sequenceStart && p.isConsumed

-- Whether the latest gesture that is the antecedent of some kind was kept, if there was one.
-- The earlier gestures of the sequence are given latest first, and each was kept if the
-- sequence is not the consumer's, if its own packet lets it pass, and if its own antecedent
-- was kept.
def antecedentKept (consumed : Bool) (kind : Gesture.Kind) : List (Packet × Gesture) → Bool
  | [] => true
  | (p, g) :: earlier =>
    if kind.antecedent = some g.kind then
      !consumed && passes (p, g) && antecedentKept consumed g.kind earlier
    else antecedentKept consumed kind earlier

-- Whether a gesture is kept after the earlier ones of its sequence.
def keeps (consumed : Bool) (earlier : List (Packet × Gesture)) (entry : Packet × Gesture) :
    Bool :=
  !consumed && passes entry && antecedentKept consumed entry.2.kind earlier

def keptAfter (consumed : Bool) (earlier : List (Packet × Gesture)) :
    List (Packet × Gesture) → List Gesture
  | [] => []
  | entry :: rest =>
    (if keeps consumed earlier entry then [entry.2] else []) ++
      keptAfter consumed (entry :: earlier) rest

-- The gestures of some packets that the consumer gets to see.
def kept (packets : List Packet) : List Gesture :=
  (sequences packets).flatMap fun sequence =>
    keptAfter (startConsumed sequence) [] (carried sequence)

variable {consumed : Bool} {earlier : List (Packet × Gesture)}

theorem antecedentKept_of_opener {kind : Gesture.Kind} (h : kind.antecedent = none)
    (earlier : List (Packet × Gesture)) : antecedentKept consumed kind earlier = true := by
  induction earlier with
  | nil => rfl
  | cons entry rest ih => simpa [antecedentKept, h] using ih

theorem keptAfter_append (first second : List (Packet × Gesture)) :
    keptAfter consumed earlier (first ++ second) =
      keptAfter consumed earlier first ++
        keptAfter consumed (first.reverse ++ earlier) second := by
  induction first generalizing earlier with
  | nil => rfl
  | cons entry rest ih => simp [keptAfter, ih]

@[simp] theorem carried_cons (p : Packet) (rest : List Packet) :
    carried (p :: rest) = p.gestures.map (fun g => (p, g)) ++ carried rest := rfl

-- What is suppressed tells of the sequence so far: who it belongs to, and what became of the
-- latest opener of each family.
structure Remembers (s : Suppression) (consumed : Bool) (earlier : List (Packet × Gesture)) :
    Prop where
  sequence : s.sequenceConsumed = consumed
  openers : ∀ kind : Gesture.Kind,
    kind.antecedent.any s.isDropped = !antecedentKept consumed kind earlier

namespace Remembers

variable {s : Suppression} {p : Packet} {g : Gesture}

theorem start (consumed touchConsumed : Bool) :
    Remembers { sequenceConsumed := consumed, touchConsumed } consumed [] where
  sequence := rfl
  openers := by
    intro kind
    cases kind <;> rfl

theorem touchConsumed (h : Remembers s consumed earlier) (touchConsumed : Bool) :
    Remembers { s with touchConsumed } consumed earlier where
  sequence := h.sequence
  openers := by
    intro kind
    rw [← h.openers kind]
    cases kind <;> rfl

theorem drops_eq (h : Remembers s consumed earlier) (hp : s.touchConsumed = p.isConsumed) :
    s.drops g.kind = !keeps consumed earlier (p, g) := by
  rw [Suppression.drops, h.openers, h.sequence, hp, keeps, passes]
  cases consumed <;> cases p.isConsumed <;> cases g.kind.isTerminating <;>
    cases antecedentKept _ g.kind earlier <;> rfl

theorem note (h : Remembers s consumed earlier) (hp : s.touchConsumed = p.isConsumed) :
    Remembers (s.note g.kind (s.drops g.kind)) consumed ((p, g) :: earlier) where
  sequence := by rw [Suppression.sequenceConsumed_note, h.sequence]
  openers := by
    intro kind
    rw [antecedentKept]
    cases hkind : kind.antecedent with
    | none => simp [antecedentKept_of_opener hkind]
    | some opener =>
      rw [Option.any_some]
      by_cases hopener : opener = g.kind
      · have hnone : g.kind.antecedent = none :=
          hopener ▸ Gesture.Kind.antecedent_of_antecedent hkind
        rw [if_pos (by rw [hopener]), hopener, Suppression.isDropped_note_self _ hnone,
          h.drops_eq hp, keeps]
      · have hsame := h.openers kind
        rw [hkind, Option.any_some] at hsame
        rw [if_neg (by simpa using hopener), Suppression.isDropped_note_of_ne _ hopener, hsame]

end Remembers

namespace Outlet

variable {o : Outlet} {p : Packet}

theorem sent?_fate (h : Remembers o.suppression consumed earlier)
    (hp : o.suppression.touchConsumed = p.isConsumed) (g : Gesture) :
    (o.fate p g).sent?.toList = if keeps consumed earlier (p, g) then [g] else [] := by
  rw [fate, h.drops_eq hp]
  cases keeps consumed earlier (p, g) <;> rfl

theorem sent_fatesOf (h : Remembers o.suppression consumed earlier)
    (hp : o.suppression.touchConsumed = p.isConsumed) (gestures : List Gesture) :
    (o.fatesOf p gestures).filterMap Fate.sent? =
        keptAfter consumed earlier (gestures.map fun g => (p, g)) ∧
      Remembers (o.offerAll p gestures).2.suppression consumed
        ((gestures.map fun g => (p, g)).reverse ++ earlier) := by
  induction gestures generalizing o earlier with
  | nil => exact ⟨rfl, h⟩
  | cons g rest ih =>
    have hnote := h.note (g := g) hp
    rw [← suppression_offer (o := o) (p := p)] at hnote
    obtain ⟨hrest, hafter⟩ := ih hnote (by rw [touchConsumed_offer, hp])
    refine ⟨?_, by simpa [offerAll_cons_snd] using hafter⟩
    rw [fatesOf, List.map_cons, keptAfter, ← hrest, ← sent?_fate h hp]
    cases hsent : (o.fate p g).sent? <;> simp [hsent]

theorem touchConsumed_judging (o : Outlet) (p : Packet) :
    (o.judging p).suppression.touchConsumed = p.isConsumed := by
  unfold judging Suppression.judge
  simp only []
  split <;> rfl

theorem sent_fates_packet (o : Outlet) (p : Packet) :
    (o.fates (.packet p)).filterMap Fate.sent? =
      ((o.judging p).fatesOf p p.gestures).filterMap Fate.sent? := by
  have hclosings (gestures : List Gesture) :
      (gestures.map Fate.closing).filterMap Fate.sent? = [] := by
    simp [List.filterMap_map, Function.comp_def, Fate.sent?]
  rw [fates, List.filterMap_append]
  split <;> simp [hclosings]

-- Within a sequence just those gestures go out themselves that are kept.
theorem sent_history_sequence {rest : List Packet}
    (h : Remembers (o.judging p).suppression consumed earlier)
    (hrest : ∀ q ∈ rest, q.source ≠ .sequenceStart) :
    (o.history ((p :: rest).map .packet)).filterMap Fate.sent? =
      keptAfter consumed earlier (carried (p :: rest)) := by
  induction rest generalizing o p earlier with
  | nil =>
    have hsent := (sent_fatesOf h (touchConsumed_judging o p) p.gestures).1
    simp [history, sent_fates_packet, hsent, carried]
  | cons q rest ih =>
    obtain ⟨hsent, hafter⟩ := sent_fatesOf h (touchConsumed_judging o p) p.gestures
    have hq : Remembers ((o.release p).2.judging q).suppression consumed
        ((p.gestures.map fun g => (p, g)).reverse ++ earlier) := by
      rw [judging_of_not_start (hrest q (by simp)), suppression_release]
      exact hafter.touchConsumed q.isConsumed
    have hothers := ih hq fun q' hq' => hrest q' (by simp [hq'])
    rw [carried_cons, keptAfter_append, ← hothers, ← hsent, ← sent_fates_packet, List.map_cons,
      history, List.filterMap_append]
    rfl

theorem remembers_judging_of_start (h : p.source = .sequenceStart) :
    Remembers (o.judging p).suppression p.isConsumed [] := by
  have hjudged : (o.judging p).suppression =
      { sequenceConsumed := p.isConsumed, touchConsumed := p.isConsumed } := by
    simp [judging, Suppression.judge, h]
  rw [hjudged]
  exact Remembers.start p.isConsumed p.isConsumed

theorem remembers_judging_of_fresh (ho : o.suppression = {}) (h : p.source ≠ .sequenceStart) :
    Remembers (o.judging p).suppression false [] := by
  rw [judging_of_not_start h, ho]
  exact Remembers.start false p.isConsumed

-- One sequence after the other, from a fresh outlet or from the start of a sequence on.
theorem sent_history_flatten {groups : List (List Packet)} (hne : [] ∉ groups)
    (hcontinues : ∀ s ∈ groups, ∀ q ∈ s.tail, q.source ≠ .sequenceStart)
    (hstarts : ∀ s ∈ groups.tail, ∀ q ∈ s.head?, q.source = .sequenceStart)
    (hfirst : o.suppression = {} ∨ ∀ s ∈ groups.head?, ∀ q ∈ s.head?, q.source = .sequenceStart) :
    (o.history (groups.flatten.map .packet)).filterMap Fate.sent? =
      groups.flatMap fun sequence => keptAfter (startConsumed sequence) [] (carried sequence) := by
  induction groups generalizing o with
  | nil => rfl
  | cons s rest ih =>
    have hcons : s ≠ [] := fun hnil => hne (hnil ▸ List.mem_cons_self)
    obtain ⟨p, more, rfl⟩ := List.exists_cons_of_ne_nil hcons
    have hmore : ∀ q ∈ more, q.source ≠ .sequenceStart := by simpa using hcontinues (p :: more)
    have hsequence : (o.history ((p :: more).map .packet)).filterMap Fate.sent? =
        keptAfter (startConsumed (p :: more)) [] (carried (p :: more)) := by
      refine sent_history_sequence ?_ hmore
      by_cases hp : p.source = .sequenceStart
      · simpa [startConsumed, hp] using remembers_judging_of_start hp
      · obtain ho | hfirst := hfirst
        · simpa [startConsumed, hp] using remembers_judging_of_fresh ho hp
        · exact absurd (hfirst (p :: more) rfl p rfl) hp
    rw [List.flatten_cons, List.map_append, history_append, List.filterMap_append, hsequence,
      List.flatMap_cons]
    congr 1
    refine ih (fun hnil => hne (by simp [hnil])) (fun s hs => hcontinues s (by simp [hs]))
      (fun s hs => hstarts s (List.mem_of_mem_tail hs)) (.inr fun s hs => ?_)
    exact hstarts s (List.mem_of_mem_head? hs)

-- Only the first packet of a sequence starts one.
theorem sequences_continue {s : List Packet}
    (h : s.IsChain fun _ q => (q.source ≠ .sequenceStart : Bool) = true) :
    ∀ q ∈ s.tail, q.source ≠ .sequenceStart := by
  induction h with
  | nil => simp
  | singleton => simp
  | cons_cons hq _ ih => simpa using ⟨by simpa using hq, ih⟩

theorem sequences_start {groups : List (List Packet)}
    (h : groups.IsChain fun a b => ∃ (_ : a ≠ []) (hb : b ≠ []),
      ((b.head hb).source ≠ .sequenceStart : Bool) = false) :
    ∀ s ∈ groups.tail, ∀ q ∈ s.head?, q.source = .sequenceStart := by
  induction h with
  | nil => simp
  | singleton => simp
  | cons_cons hb _ ih =>
    obtain ⟨-, hne, hsource⟩ := hb
    intro s hs q hq
    rcases List.mem_cons.mp hs with rfl | hs
    · have hsame : s.head hne = q := List.head_of_mem_head? hq
      simpa [hsame] using hsource
    · exact ih s hs q hq

-- Just those gestures of some packets go out themselves that are kept.
theorem sent_history (packets : List Packet) :
    (history {} (packets.map .packet)).filterMap Fate.sent? = kept packets := by
  obtain ⟨hflatten, hne, hcontinues, hstarts⟩ :=
    (List.splitBy_eq_iff (l := sequences packets)).mp rfl
  have hsent := sent_history_flatten (o := {}) hne
    (fun s hs => sequences_continue (hcontinues s hs)) (sequences_start hstarts) (.inl rfl)
  rwa [← hflatten] at hsent

theorem madeUp_fatesOf (o : Outlet) (p : Packet) (gestures : List Gesture) :
    ∀ x ∈ o.fatesOf p gestures, x.MadeUp := by
  induction gestures generalizing o with
  | nil => simp [fatesOf]
  | cons g rest ih =>
    intro x hx
    rcases List.mem_cons.mp hx with rfl | hx
    · exact TracksTaps.madeUp_fate o p g
    · exact ih _ x hx

theorem madeUp_closeAll (o : Outlet) (p : Packet) :
    ∀ x ∈ (o.closeAll p).1.map Fate.closing, x.MadeUp := by
  intro x hx
  obtain ⟨g, hg, rfl⟩ := List.mem_map.mp hx
  rcases List.mem_append.mp hg with hg | hg
  · obtain ⟨opener, -, rfl⟩ := Option.map_eq_some_iff.mp (Option.mem_toList.mp hg)
    exact .inl rfl
  · obtain ⟨opener, -, rfl⟩ := Option.map_eq_some_iff.mp (Option.mem_toList.mp hg)
    exact .inr rfl

-- Whatever goes out and is not a gesture of some packet closes a tap or a scroll.
theorem madeUp_history (o : Outlet) (packets : List Packet) :
    ∀ x ∈ o.history (packets.map .packet), x.MadeUp := by
  induction packets generalizing o with
  | nil => simp [history]
  | cons p rest ih =>
    intro x hx
    rcases List.mem_append.mp hx with hx | hx
    · rcases List.mem_append.mp hx with hx | hx
      · exact madeUp_fatesOf _ p p.gestures x hx
      · split at hx
        · exact madeUp_closeAll _ p x hx
        · cases hx
    · exact ih _ x hx

end Outlet

namespace Journal

variable {j : Journal}

def ofTouch : Queue.Call → Bool
  | .submit p => p.source.isTouch
  | .ack _ _ _ => true

theorem itemsBy_ofTouch {c : Queue.Call} (hc : ofTouch c = true) (q : Queue) :
    q.itemsBy c = (packetsOf (q.itemsBy c)).map .packet := by
  cases c with
  | submit p =>
    have hp : p.source.isTouch = true := hc
    simp [Queue.itemsBy, hp]
  | ack id consumed nonBlocking =>
    simp only [Queue.itemsBy]
    split <;> simp

theorem items_of_touches (h : Kept (ofTouch · = true) j) :
    j.items = (ready j.submitted).map .packet := by
  rw [← h.sound.ready]
  induction h with
  | start => rfl
  | step _ hc hj ih =>
    obtain ⟨⟨gestures, queue⟩, -, rfl⟩ := map_eq_ok.mp hj
    simp only [packetsOf_append, List.map_append]
    rw [← ih, ← itemsBy_ofTouch hc]

-- Whenever the verdicts on touches come in, what has been released at any moment are the
-- gestures that are kept of the longest part of the packets, from the first on, whose
-- verdicts are known, with what was made up to close taps and scrolls in between. The other
-- packets are pending.
theorem Kept.released_eq_kept (h : Kept (ofTouch · = true) j) :
    outOf (Outlet.history {} ((ready j.submitted).map .packet)) = j.released ∧
      (Outlet.history {} ((ready j.submitted).map .packet)).filterMap Fate.sent? =
        kept (ready j.submitted) ∧
      (∀ x ∈ Outlet.history {} ((ready j.submitted).map .packet), x.MadeUp) ∧
      (∀ other : Journal, Kept (ofTouch · = true) other →
        ready other.submitted = ready j.submitted → other.released = j.released) ∧
      j.queue.packets = waiting j.submitted ∧
      (ready j.submitted).length + j.queue.pendingCount = j.submitted.length := by
  have hreleased {j : Journal} (h : Kept (ofTouch · = true) j) :
      outOf (Outlet.history {} ((ready j.submitted).map .packet)) = j.released := by
    rw [Outlet.outOf_history, ← items_of_touches h, h.sound.replay]
  refine ⟨hreleased h, Outlet.sent_history _, Outlet.madeUp_history _ _,
    fun other hother hsame => ?_, h.sound.waiting, ?_⟩
  · rw [← hreleased h, ← hreleased hother, hsame]
  · rw [Queue.pendingCount, h.sound.waiting, ← List.length_append, Queue.ready_append_waiting]

-- The release is judged before the move, and the move is the consumer's. So the scroll is not
-- seen to begin nor to end, and the tap is called off for it.
def judgedEarly : List Queue.Call :=
  [.submit (sample .sequenceStart 1 [.tapDown]),
    .submit (sample .touchMove 2 [.scrollBegin Point.origin, .scrollUpdate Point.origin]),
    .submit (sample .sequenceEnd 3 [.scrollEnd]), .ack 3 false false, .ack 1 false false,
    .ack 2 true false]

theorem released_eq_kept_of_judgedEarly :
    Kept (ofTouch · = true) (ofCalls judgedEarly) ∧
      (ofCalls judgedEarly).released.map Gesture.kind = [.tapDown, .tapCancel] ∧
      (kept (ready (ofCalls judgedEarly).submitted)).map Gesture.kind = [.tapDown] ∧
      (Outlet.history {} ((ready (ofCalls judgedEarly).submitted).map .packet)).filterMap
        Fate.sent? = kept (ready (ofCalls judgedEarly).submitted) := by
  have hkept : Kept (ofTouch · = true) (ofCalls judgedEarly) := kept_ofCalls (by decide +kernel)
  obtain ⟨-, hsent, -⟩ := hkept.released_eq_kept
  exact ⟨hkept, by decide +kernel, by decide +kernel, hsent⟩

end Journal

end TouchGestures.Release
