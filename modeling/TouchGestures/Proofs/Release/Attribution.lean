import TouchGestures.Proofs.Release.Muted
import TouchGestures.Proofs.Release.Terminators

namespace TouchGestures

open Gesture (Family)

-- Every kind of gesture ends one family at most.
theorem Gesture.Family.eq_of_ends {f f' : Family} {g : Gesture} (hf : f.ends g.kind = true)
    (hf' : f'.ends g.kind = true) : f = f' := by
  by_contra hne
  have hmarks := marks_of_ends_of_ne hf (Ne.symm hne)
  simp [marks, hf'] at hmarks

instance (p : Packet) : Decidable p.Attributed :=
  inferInstanceAs (Decidable (∀ g ∈ p.gestures, g.eventId = p.eventId))

theorem Packet.Attributed.judged {p : Packet} (h : p.Attributed) (consumed nonBlocking : Bool) :
    (p.judged consumed nonBlocking).Attributed := by
  intro g hg
  obtain ⟨before, hbefore, rfl⟩ := List.mem_map.mp hg
  exact h before hbefore

namespace Release

open Queue (ready waiting)

variable {f : Family} {fates : List Fate} {opener opener' : Gesture} {p : Packet}

-- What has not been closed is the last that has opened or ended the family.
theorem Unclosed.getLast? (h : Unclosed f fates opener) :
    ((outOf fates).filter f.marks).getLast? = some opener := by
  obtain ⟨before, between, rfl, hkind, hbetween⟩ := h
  have hnone : (outOf between).filter f.marks = [] := by
    simpa [List.filter_eq_nil_iff] using hbetween
  have hmarks : f.marks opener = true := by simp [Family.marks, hkind]
  simp [Fate.out, hmarks, hnone]

theorem Unclosed.unique (h : Unclosed f fates opener) (h' : Unclosed f fates opener') :
    opener = opener' :=
  Option.some.inj (h.getLast?.symm.trans h'.getLast?)

theorem Unclosed.sent_mem (h : Unclosed f fates opener) : .sent opener ∈ fates := by
  obtain ⟨before, between, rfl, -⟩ := h
  simp

-- Whatever was made up after some fates has the flag of an opener that it closes.
def Inherits (fates added : List Fate) : Prop :=
  ∀ before x after, added = before ++ x :: after → ∀ g ∈ x.madeUp?,
    ∃ f opener, Unclosed f (fates ++ before) opener ∧ f.ends g.kind = true ∧
      g.nonBlocking = opener.nonBlocking

namespace Inherits

variable {first second : List Fate} {x : Fate}

theorem nil : Inherits fates [] := by
  intro before x after heq
  simp at heq

theorem append (hfirst : Inherits fates first) (hsecond : Inherits (fates ++ first) second) :
    Inherits fates (first ++ second) := by
  refine forall_split_append hfirst ?_
  simpa [Inherits] using hsecond

theorem singleton (h : ∀ g ∈ x.madeUp?, ∃ f opener, Unclosed f fates opener ∧
    f.ends g.kind = true ∧ g.nonBlocking = opener.nonBlocking) : Inherits fates [x] :=
  forall_split_singleton (by simpa using h)

end Inherits

-- What goes out is a gesture as it was or one that was made up.
theorem Fate.mem_out_iff {x : Fate} {g : Gesture} : g ∈ x.out ↔ x = .sent g ∨ g ∈ x.madeUp? := by
  cases x <;> simp [out, madeUp?, eq_comm]

def Item.gestures : Item → List Gesture
  | .packet p => p.gestures
  | .alarm p _ => p.gestures
  | .forgotten => []

namespace Outlet

variable {o : Outlet} {g : Gesture} {gestures : List Gesture} {item : Item} {items : List Item}

theorem mem_of_sent_mem_fatesOf (h : .sent g ∈ o.fatesOf p gestures) : g ∈ gestures := by
  induction gestures generalizing o with
  | nil => cases h
  | cons first rest ih =>
    obtain hfirst | hrest := List.mem_cons.mp h
    · unfold fate at hfirst
      split at hfirst
      · cases hfirst
      · cases hfirst
        exact List.mem_cons_self
    · exact List.mem_cons_of_mem first (ih hrest)

theorem mem_gestures_of_sent_mem_fates (h : .sent g ∈ o.fates item) : g ∈ item.gestures := by
  cases item with
  | packet p =>
    obtain hoffered | hclosed := List.mem_append.mp h
    · exact mem_of_sent_mem_fatesOf hoffered
    · split at hclosed <;> simp at hclosed
  | alarm p suppressing =>
    cases suppressing with
    | true => exact mem_of_sent_mem_fatesOf h
    | false => simpa [fates, Item.gestures] using h
  | forgotten => cases h

-- What went out as it was did so with one of the items.
theorem exists_split_of_sent_mem_history (h : .sent g ∈ o.history items) :
    ∃ earlier item later, items = earlier ++ item :: later ∧
      .sent g ∈ (o.replay earlier).2.fates item := by
  induction items generalizing o with
  | nil => cases h
  | cons item rest ih =>
    obtain hfirst | hrest := List.mem_append.mp h
    · exact ⟨[], item, rest, rfl, hfirst⟩
    · obtain ⟨earlier, other, later, rfl, hsent⟩ := ih hrest
      exact ⟨item :: earlier, other, later, rfl, by rwa [replay_cons]⟩

namespace Records

theorem inherits_fate (h : Records o fates) (p : Packet) (g : Gesture) :
    Inherits fates [o.fate p g] := by
  refine .singleton fun made hmade => ?_
  unfold fate at hmade
  split at hmade
  · obtain ⟨opener, htap, rfl⟩ := Option.map_eq_some_iff.mp hmade
    exact ⟨.tap, opener, h.unclosed .tap opener htap, rfl, rfl⟩
  · cases hmade

theorem inherits_fatesOf (h : Records o fates) (p : Packet) (gestures : List Gesture) :
    Inherits fates (o.fatesOf p gestures) := by
  induction gestures generalizing o fates with
  | nil => exact .nil
  | cons g rest ih => exact (h.inherits_fate p g).append (ih (h.offer p g))

theorem inherits_closing (h : Records o fates) (payload : Gesture.Payload)
    (hends : f.ends payload.kind = true) (p : Packet) :
    Inherits fates
      (((o.record f).map fun opener => closing payload opener p).toList.map .closing) := by
  cases hrecord : o.record f with
  | none => exact .nil
  | some opener =>
    refine .singleton fun made hmade => ?_
    obtain rfl := Option.some.inj hmade
    exact ⟨f, opener, h.unclosed f opener hrecord, hends, rfl⟩

theorem inherits_closeAll (h : Records o fates) (p : Packet) :
    Inherits fates ((o.closeAll p).1.map .closing) := by
  have hboth := (h.inherits_closing (f := .scroll) .scrollEnd rfl p).append
    ((h.closeScroll p).inherits_closing (f := .tap) .tapCancel rfl p)
  rwa [← List.map_append] at hboth

-- The flag of whatever is made up while a packet is released comes from an earlier opener.
theorem inherits_fates (h : Records o fates) (p : Packet) :
    Inherits fates (o.fates (.packet p)) := by
  have hjudged : Records (o.judging p) fates := h.congr fun f => record_suppression o _ f
  refine (hjudged.inherits_fatesOf p p.gestures).append ?_
  split
  · exact (hjudged.offerAll p p.gestures).inherits_closeAll p
  · exact .nil

end Records

end Outlet

-- A packet of a touch and the flag that came with the verdict on it, if that is in.
structure Entry where
  packet : Packet
  flag : Option Bool := none
  deriving DecidableEq

namespace Entry

variable {e : Entry} {entries : List Entry} {id : EventId} {consumed nonBlocking : Bool}

def judged (e : Entry) (consumed nonBlocking : Bool) : Entry :=
  ⟨e.packet.judged consumed nonBlocking, some nonBlocking⟩

-- The entry of a packet, on which there may be a verdict from the first.
def ofPacket (p : Packet) : Option (Bool × Bool) → Entry
  | none => ⟨p, none⟩
  | some (consumed, nonBlocking) => judged ⟨p, none⟩ consumed nonBlocking

-- The entries after a verdict, which is for the packet that it reaches in the queue.
def resolve (entries : List Entry) (id : EventId) (consumed nonBlocking : Bool) : List Entry :=
  match entries.dropWhile fun e => !e.packet.isPending with
  | [] => entries
  | oldest :: rest =>
    if oldest.packet.eventId = id then
      (entries.takeWhile fun e => !e.packet.isPending) ++ oldest.judged consumed nonBlocking :: rest
    else entries.modifyLast (·.judged consumed nonBlocking)

theorem map_packet_modifyLast (entries : List Entry) (consumed nonBlocking : Bool) :
    (entries.modifyLast (·.judged consumed nonBlocking)).map packet =
      (entries.map packet).modifyLast (·.judged consumed nonBlocking) := by
  obtain rfl | ⟨before, last, rfl⟩ := List.eq_nil_or_concat' entries
  · rfl
  · simp [List.modifyLast_concat, judged]

theorem map_packet_resolve (entries : List Entry) (id : EventId) (consumed nonBlocking : Bool) :
    (resolve entries id consumed nonBlocking).map packet =
      Queue.resolve (entries.map packet) id consumed nonBlocking := by
  have hready : ready (entries.map packet) =
      (entries.takeWhile fun e => !e.packet.isPending).map packet := List.takeWhile_map ..
  have hwaiting : waiting (entries.map packet) =
      (entries.dropWhile fun e => !e.packet.isPending).map packet := List.dropWhile_map ..
  unfold resolve Queue.resolve
  rw [hready, hwaiting]
  cases entries.dropWhile fun e => !e.packet.isPending with
  | nil => rfl
  | cons oldest rest =>
    by_cases hid : oldest.packet.eventId = id
    · simp [hid, judged]
    · simp [hid, map_packet_modifyLast]

theorem mem_modifyLast (he : e ∈ entries.modifyLast (·.judged consumed nonBlocking)) :
    e ∈ entries ∨ ∃ before ∈ entries, e = before.judged consumed nonBlocking := by
  obtain rfl | ⟨earlier, last, rfl⟩ := List.eq_nil_or_concat' entries
  · exact .inl he
  · rw [List.modifyLast_concat, List.mem_append, List.mem_singleton] at he
    obtain he | rfl := he
    · exact .inl (List.mem_append_left _ he)
    · exact .inr ⟨last, by simp, rfl⟩

-- A verdict leaves every entry as it is or is noted on it.
theorem mem_resolve (he : e ∈ resolve entries id consumed nonBlocking) :
    e ∈ entries ∨ ∃ before ∈ entries, e = before.judged consumed nonBlocking := by
  have hsplit := List.takeWhile_append_dropWhile (p := fun e : Entry => !e.packet.isPending)
    (l := entries)
  unfold resolve at he
  split at he
  · exact .inl he
  · next oldest rest hwaiting =>
    split at he
    · rw [hwaiting] at hsplit
      rw [List.mem_append, List.mem_cons] at he
      obtain he | rfl | he := he
      · exact .inl (hsplit ▸ List.mem_append_left _ he)
      · exact .inr ⟨oldest, hsplit ▸ by simp, rfl⟩
      · exact .inl (hsplit ▸ List.mem_append_right _ (List.mem_cons_of_mem oldest he))
    · exact mem_modifyLast he

-- The gestures are attributed to the touch of the packet, and once the verdict on it is in,
-- all have the flag that came with that.
structure Signed (e : Entry) : Prop where
  attributed : e.packet.Attributed
  pending : e.flag = none → e.packet.isPending = true
  flagged : ∀ flag ∈ e.flag, ∀ g ∈ e.packet.gestures, g.nonBlocking = flag

theorem Signed.judged (h : e.packet.Attributed) (consumed nonBlocking : Bool) :
    (e.judged consumed nonBlocking).Signed where
  attributed := h.judged consumed nonBlocking
  pending := by simp [Entry.judged]
  flagged := by
    intro flag hflag g hg
    obtain rfl := Option.some.inj hflag
    obtain ⟨before, -, rfl⟩ := List.mem_map.mp hg
    rfl

theorem Signed.ofPacket (hpending : p.isPending = true) (hp : p.Attributed)
    (verdict : Option (Bool × Bool)) : (ofPacket p verdict).Signed := by
  cases verdict with
  | none => exact ⟨hp, fun _ => hpending, by simp [Entry.ofPacket]⟩
  | some verdict => exact .judged hp verdict.1 verdict.2

end Entry

-- A journal in which the flags of the verdicts are registered.
structure Register where
  journal : Journal := {}
  entries : List Entry := []
  deriving DecidableEq

namespace Register

-- What is asked of a queue and registered. The verdict on a packet may be in before it is
-- submitted.
inductive Request
  | submit (p : Packet) (verdict : Option (Bool × Bool))
  | ack (id : EventId) (consumed nonBlocking : Bool)
  deriving DecidableEq

namespace Request

def call : Request → Queue.Call
  | .submit p verdict => .submit (Entry.ofPacket p verdict).packet
  | .ack id consumed nonBlocking => .ack id consumed nonBlocking

def enter (entries : List Entry) : Request → List Entry
  | .submit p verdict =>
    if (Entry.ofPacket p verdict).packet.source.isTouch then entries ++ [.ofPacket p verdict]
    else entries
  | .ack id consumed nonBlocking => Entry.resolve entries id consumed nonBlocking

-- The packets of touches are new and their gestures attributed to the touch. There may be
-- any gestures, and the packets of alarms may be anything.
def Proper : Request → Prop
  | .submit p _ => p.source.isTouch = true → p.isPending = true ∧ p.Attributed
  | .ack _ _ _ => True

instance : DecidablePred Proper := fun r => by
  cases r <;> unfold Proper <;> infer_instance

theorem map_packet_enter (entries : List Entry) (r : Request) :
    (r.enter entries).map Entry.packet = r.call.note (entries.map Entry.packet) := by
  cases r with
  | submit p verdict =>
    simp only [enter, call, Queue.Call.note]
    split <;> simp
  | ack id consumed nonBlocking => exact Entry.map_packet_resolve entries id consumed nonBlocking

theorem signed_enter {entries : List Entry} {r : Request} (hr : r.Proper)
    (h : ∀ e ∈ entries, e.Signed) : ∀ e ∈ r.enter entries, e.Signed := by
  intro e he
  cases r with
  | submit p verdict =>
    simp only [enter] at he
    split at he
    · next htouch =>
      obtain ⟨hpending, hp⟩ := hr (by cases verdict <;> exact htouch)
      rw [List.mem_append, List.mem_singleton] at he
      obtain he | rfl := he
      · exact h e he
      · exact .ofPacket hpending hp verdict
    · exact h e he
  | ack id consumed nonBlocking =>
    obtain he | ⟨before, hbefore, rfl⟩ := Entry.mem_resolve he
    · exact h e he
    · exact .judged (h before hbefore).attributed consumed nonBlocking

end Request

variable {y y' : Register} {r : Request} {settled rest : List Item} {g : Gesture}

def step (y : Register) (r : Request) : Except Violation Register :=
  (y.journal.step r.call).map fun journal => { journal, entries := r.enter y.entries }

def run (y : Register) : List Request → Except Violation Register
  | [] => .ok y
  | r :: rest => do
    let y ← y.step r
    y.run rest

-- The registers of queues of which nothing improper is asked.
inductive Kept : Register → Prop
  | start : Kept {}
  | step {y y' : Register} {r : Request} (h : Kept y) (hr : r.Proper) (hy : y.step r = .ok y') :
    Kept y'

theorem Kept.run {requests : List Request} (h : Kept y) (hrequests : ∀ r ∈ requests, r.Proper)
    (hrun : y.run requests = .ok y') : Kept y' := by
  induction requests generalizing y with
  | nil =>
    cases hrun
    exact h
  | cons r rest ih =>
    obtain ⟨between, hstep, hrest⟩ := bind_eq_ok.mp hrun
    exact ih (h.step (hrequests r List.mem_cons_self) hstep)
      (fun r hr => hrequests r (List.mem_cons_of_mem _ hr)) hrest

-- The entries are those of the packets that the journal knows, and all are signed.
structure Sound (y : Register) : Prop where
  journal : y.journal.Sound
  packets : y.entries.map Entry.packet = y.journal.submitted
  signed : ∀ e ∈ y.entries, e.Signed

theorem Sound.step (h : y.Sound) (hr : r.Proper) (hy : y.step r = .ok y') : y'.Sound := by
  obtain ⟨journal, hstep, rfl⟩ := map_eq_ok.mp hy
  refine ⟨h.journal.step hstep, ?_, Request.signed_enter hr h.signed⟩
  obtain ⟨⟨gestures, queue⟩, -, rfl⟩ := map_eq_ok.mp hstep
  rw [Request.map_packet_enter, h.packets]

theorem Kept.sound (h : Kept y) : y.Sound := by
  induction h with
  | start => exact ⟨Journal.sound_start, rfl, by simp⟩
  | step _ hr hy ih => exact ih.step hr hy

-- A packet that has been released has its entry, and a flag in it.
theorem Sound.exists_flag (h : y.Sound) (hitems : y.journal.items = settled ++ .packet p :: rest) :
    ∃ flag, y.entries[(packetsOf settled).length]? = some ⟨p, some flag⟩ := by
  have hready : ready y.journal.submitted = packetsOf settled ++ p :: packetsOf rest := by
    rw [← h.journal.ready, hitems, packetsOf_append, packetsOf_packet_cons]
  have hsubmitted : y.journal.submitted[(packetsOf settled).length]? = some p := by
    rw [← Queue.ready_append_waiting y.journal.submitted, hready]
    simp
  rw [← h.packets, List.getElem?_map, Option.map_eq_some_iff] at hsubmitted
  obtain ⟨⟨packet, flag⟩, hentry, rfl⟩ := hsubmitted
  cases flag with
  | some flag => exact ⟨flag, hentry⟩
  | none =>
    have hpending := (h.signed _ (List.mem_of_getElem? hentry)).pending rfl
    have hmem : packet ∈ ready y.journal.submitted := by simp [hready]
    rw [Queue.isPending_of_mem_ready hmem] at hpending
    cases hpending

end Register

namespace Journal

variable {j : Journal} {settled rest : List Item} {g : Gesture}

def fatesWith (settled : List Item) (p : Packet) : List Fate :=
  (Outlet.replay {} settled).2.fates (.packet p)

def releasedWith (j : Journal) (settled : List Item) (p : Packet) : List Gesture :=
  (j.releasedFor (settled ++ [.packet p])).drop (j.releasedFor settled).length

-- While the outlet dealt with a packet, the gesture was made up to close what the opener
-- had begun.
def Closes (settled : List Item) (p : Packet) (g opener : Gesture) : Prop :=
  ∃ before x after f, fatesWith settled p = before ++ x :: after ∧ g ∈ x.madeUp? ∧
    Unclosed f (Outlet.history {} settled ++ before) opener ∧ f.ends g.kind = true

theorem releasedWith_eq (h : j.Sound) (hitems : j.items = settled ++ .packet p :: rest) :
    j.releasedWith settled p = outOf (fatesWith settled p) := by
  have hwith : j.items = (settled ++ [.packet p]) ++ rest := by rw [hitems]; simp
  rw [releasedWith, releasedFor_eq h hitems, releasedFor_eq h hwith, Outlet.history_append,
    outOf_append, List.drop_left]
  simp [Outlet.history, fatesWith]

theorem inherits_fatesWith (h : j.Sound) (hitems : j.items = settled ++ .packet p :: rest) :
    Inherits (Outlet.history {} settled) (fatesWith settled p) :=
  (records_of_items h hitems).inherits_fates p

theorem Closes.nonBlocking_eq (h : j.Sound) (hitems : j.items = settled ++ .packet p :: rest)
    (hcloses : Closes settled p g opener) : g.nonBlocking = opener.nonBlocking := by
  obtain ⟨before, x, after, f, hsplit, hg, hopener, hends⟩ := hcloses
  obtain ⟨f', opener', hopener', hends', hflag⟩ :=
    inherits_fatesWith h hitems before x after hsplit g hg
  obtain rfl := Family.eq_of_ends hends hends'
  rw [hflag, hopener.unique hopener']

theorem Closes.mem_releasedWith (h : j.Sound) (hitems : j.items = settled ++ .packet p :: rest)
    (hcloses : Closes settled p g opener) : g ∈ j.releasedWith settled p := by
  obtain ⟨before, x, after, f, hsplit, hg, -⟩ := hcloses
  rw [releasedWith_eq h hitems, hsplit]
  simp [Fate.mem_out_iff.mpr (.inr hg)]

-- The opener went out with an item that the outlet has dealt with by then.
theorem Closes.exists_split (hcloses : Closes settled p g opener) :
    ∃ earlier item later, settled ++ [.packet p] = earlier ++ item :: later ∧
      .sent opener ∈ (Outlet.replay {} earlier).2.fates item := by
  obtain ⟨before, x, after, f, hsplit, -, hopener, -⟩ := hcloses
  refine Outlet.exists_split_of_sent_mem_history ?_
  have hhistory : Outlet.history {} (settled ++ [.packet p]) =
      Outlet.history {} settled ++ fatesWith settled p := by
    simp [Outlet.history_append, Outlet.history, fatesWith]
  rw [hhistory, hsplit, ← List.append_assoc]
  exact List.mem_append_left _ hopener.sent_mem

-- Whatever goes out with a packet is one of its gestures or was made up.
theorem mem_or_closes (h : j.Sound) (hitems : j.items = settled ++ .packet p :: rest)
    (hg : g ∈ j.releasedWith settled p) : g ∈ p.gestures ∨ ∃ opener, Closes settled p g opener := by
  rw [releasedWith_eq h hitems] at hg
  obtain ⟨x, hx, hout⟩ := List.mem_flatMap.mp hg
  obtain rfl | hmade := Fate.mem_out_iff.mp hout
  · exact .inl (Outlet.mem_gestures_of_sent_mem_fates hx)
  · obtain ⟨before, after, hsplit⟩ := List.append_of_mem hx
    obtain ⟨f, opener, hopener, hends, -⟩ :=
      inherits_fatesWith h hitems before x after hsplit g hmade
    exact .inr ⟨opener, before, x, after, f, hsplit, hmade, hopener, hends⟩

end Journal

namespace Register

open Journal (sample fatesWith Closes)

variable {y : Register} {settled rest : List Item} {g : Gesture}

-- The gesture went out with the packet of a touch and has the flag that came with the verdict
-- on that.
def FlaggedByTouch (y : Register) (g : Gesture) : Prop :=
  ∃ earlier q later, y.journal.items = earlier ++ .packet q :: later ∧
    .sent g ∈ fatesWith earlier q ∧
    y.entries[(packetsOf earlier).length]? = some ⟨q, some g.nonBlocking⟩

theorem Sound.flaggedByTouch (h : y.Sound) {earlier later : List Item} {q : Packet}
    (hitems : y.journal.items = earlier ++ .packet q :: later)
    (hsent : .sent g ∈ fatesWith earlier q) : y.FlaggedByTouch g := by
  obtain ⟨flag, hentry⟩ := h.exists_flag hitems
  have hg : g ∈ q.gestures := Outlet.mem_gestures_of_sent_mem_fates hsent
  have hflag := (h.signed _ (List.mem_of_getElem? hentry)).flagged flag rfl g hg
  exact ⟨earlier, q, later, hitems, hsent, hflag ▸ hentry⟩

theorem Sound.flag_of_closes (h : y.Sound)
    (hitems : y.journal.items = settled ++ .packet p :: rest) (hcloses : Closes settled p g opener) :
    y.FlaggedByTouch opener ∨
      ∃ q suppressing, .alarm q suppressing ∈ settled ∧ opener ∈ q.gestures := by
  obtain ⟨earlier, item, later, hsplit, hsent⟩ := hcloses.exists_split
  cases item with
  | packet q =>
    have hpacket : y.journal.items = earlier ++ .packet q :: (later ++ rest) := by
      rw [hitems]
      simpa using congrArg (· ++ rest) hsplit
    exact .inl (h.flaggedByTouch hpacket hsent)
  | alarm q suppressing =>
    have hmem : .alarm q suppressing ∈ settled ++ [.packet p] := by simp [hsplit]
    exact .inr ⟨q, suppressing, by simpa using hmem, Outlet.mem_gestures_of_sent_mem_fates hsent⟩
  | forgotten => cases hsent

-- Whatever goes out with the packet of a touch is attributed to the touch. The gestures of
-- the packet have the flag that came with the verdict on it. The others were made up, and
-- have the flag of the opener that they close, which that has from the verdict on its own
-- touch if it is not from an alarm. So all have the flag of the packet just if all openers
-- that are closed with it do.
theorem Kept.flag_iff (h : Kept y) (hitems : y.journal.items = settled ++ .packet p :: rest) :
    ∃ flag, y.entries[(packetsOf settled).length]? = some ⟨p, some flag⟩ ∧
      (∀ g ∈ p.gestures, g.nonBlocking = flag) ∧
      (∀ g ∈ y.journal.releasedWith settled p, g.eventId = p.eventId ∧
        (g ∈ p.gestures ∨ ∃ opener, Closes settled p g opener)) ∧
      (∀ g opener, Closes settled p g opener → g ∈ y.journal.releasedWith settled p ∧
        g.nonBlocking = opener.nonBlocking ∧
        (y.FlaggedByTouch opener ∨
          ∃ q suppressing, .alarm q suppressing ∈ settled ∧ opener ∈ q.gestures)) ∧
      ((∀ g ∈ y.journal.releasedWith settled p, g.nonBlocking = flag) ↔
        ∀ g opener, Closes settled p g opener → opener.nonBlocking = flag) := by
  have hsound := h.sound
  obtain ⟨flag, hentry⟩ := hsound.exists_flag hitems
  have hsigned := hsound.signed _ (List.mem_of_getElem? hentry)
  have hown (g : Gesture) (hg : g ∈ p.gestures) : g.nonBlocking = flag :=
    hsigned.flagged flag rfl g hg
  have hreleased {g : Gesture} (hg : g ∈ y.journal.releasedWith settled p) :
      g ∈ p.gestures ∨ ∃ opener, Closes settled p g opener :=
    Journal.mem_or_closes hsound.journal hitems hg
  refine ⟨flag, hentry, hown, fun g hg => ⟨?_, hreleased hg⟩, fun g opener hcloses => ?_, ?_⟩
  · rw [Journal.releasedWith_eq hsound.journal hitems, Journal.fatesWith, Outlet.outOf_fates] at hg
    exact Outlet.eventId_of_mem_release hsigned.attributed hg
  · exact ⟨hcloses.mem_releasedWith hsound.journal hitems,
      hcloses.nonBlocking_eq hsound.journal hitems, hsound.flag_of_closes hitems hcloses⟩
  · refine ⟨fun hall g opener hcloses => ?_, fun hopeners g hg => ?_⟩
    · rw [← hcloses.nonBlocking_eq hsound.journal hitems]
      exact hall g (hcloses.mem_releasedWith hsound.journal hitems)
    · obtain hg | ⟨opener, hcloses⟩ := hreleased hg
      · exact hown g hg
      · rw [hcloses.nonBlocking_eq hsound.journal hitems]
        exact hopeners g opener hcloses

def ofRequests (requests : List Request) : Register :=
  match ({} : Register).run requests with
  | .ok y => y
  | .error _ => {}

theorem kept_ofRequests {requests : List Request} (hrequests : ∀ r ∈ requests, r.Proper) :
    Kept (ofRequests requests) := by
  unfold ofRequests
  split
  · next y hy => exact Kept.start.run hrequests hy
  · exact .start

-- A finger taps, and none of its touches has blocked. The verdict on the release comes first,
-- and the consumer has handled that.
def unblocked : List Request :=
  [.submit (Journal.sample .sequenceStart 1 [.tapDown]) none,
    .submit (Journal.sample .sequenceEnd 2 [.tap 1]) (some (true, true)), .ack 1 false true]

-- The tap is called off with the release, and has the flag of both touches.
theorem flag_iff_of_unblocked :
    Kept (ofRequests unblocked) ∧ ∃ settled p,
      (ofRequests unblocked).journal.items = settled ++ [.packet p] ∧
      ((ofRequests unblocked).journal.releasedWith settled p).map
          (fun g => (g.kind, g.eventId, g.nonBlocking)) = [(.tapCancel, 2, true)] ∧
      ∀ g opener, Closes settled p g opener → opener.nonBlocking = true := by
  have hkept : Kept (ofRequests unblocked) := kept_ofRequests (by decide +kernel)
  let press := (Journal.sample .sequenceStart 1 [.tapDown]).judged false true
  let release := (Journal.sample .sequenceEnd 2 [.tap 1]).judged true true
  have hitems : (ofRequests unblocked).journal.items = [.packet press] ++ [.packet release] := by
    decide +kernel
  have hreleased : ((ofRequests unblocked).journal.releasedWith [.packet press] release).map
      (fun g => (g.kind, g.eventId, g.nonBlocking)) = [(.tapCancel, 2, true)] := by
    decide +kernel
  have hflags : ∀ g ∈ (ofRequests unblocked).journal.releasedWith [.packet press] release,
      g.nonBlocking = true := by
    decide +kernel
  have hsecond : (ofRequests unblocked).entries[1]? = some ⟨release, some true⟩ := by
    decide +kernel
  obtain ⟨flag, hentry, -, -, -, hiff⟩ := hkept.flag_iff hitems
  have hflag : flag = true := by
    simpa [hsecond, packetsOf, Item.packet?, eq_comm] using hentry
  subst hflag
  exact ⟨hkept, [.packet press], release, hitems, hreleased, hiff.mp hflags⟩

-- The press of a tap has not blocked, but the release has.
def partlyBlocked : List Request :=
  [.submit (Journal.sample .sequenceStart 1 [.tapDown]) none, .ack 1 false true,
    .submit (Journal.sample .sequenceEnd 2 []) none, .ack 2 false false]

-- The tap is called off with the release, but has the flag of the press.
theorem not_flagged_of_partlyBlocked :
    Kept (ofRequests partlyBlocked) ∧ ∃ settled p,
      (ofRequests partlyBlocked).journal.items = settled ++ [.packet p] ∧
      (ofRequests partlyBlocked).entries[(packetsOf settled).length]? = some ⟨p, some false⟩ ∧
      ((ofRequests partlyBlocked).journal.releasedWith settled p).map
        (fun g => (g.kind, g.eventId, g.nonBlocking)) = [(.tapCancel, 2, true)] :=
  ⟨kept_ofRequests (by decide +kernel),
    [.packet ((Journal.sample .sequenceStart 1 [.tapDown]).judged false true)],
    (Journal.sample .sequenceEnd 2 []).judged false false, by decide +kernel⟩

end Register

end Release

end TouchGestures
