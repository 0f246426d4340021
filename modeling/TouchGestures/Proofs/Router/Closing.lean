import TouchGestures.Proofs.Channel.Closing
import TouchGestures.Proofs.Router.Dispatch

namespace TouchGestures

open Channel (Chronicle)
open Gesture (Family)
open Release (Item packetsOf firstEnding WillClose)

-- Nothing is released unless the outlet deals with something.
theorem Channel.Chronicle.Sound.nothing_since {k k' : Chronicle} {gestures : List Gesture}
    (h : k.Sound) (h' : k'.Sound) (hreleased : k'.released = k.released ++ gestures)
    (hitems : k'.items = k.items) : gestures = [] := by
  have hnone : k'.items = k.items ++ [] := by simp [hitems]
  have hsince := h.released_since h' hreleased hnone
  simpa using hsince

namespace Session

open Router (Handout gesturesOf)

variable {s s' s₁ s₂ : Session} {key : ChannelKey} {k k' : Chronicle} {f : Family}
  {during after : List Handout} {consumer source target : ConsumerId} {clock : Clock}

-- Nothing waits in a channel just if none of its touches awaits a verdict.
theorem Sound.packets_eq_nil_iff (h : s.Sound) (hk : s.books key = some k)
    (hlive : key ∈ s.router.channels) :
    k.channel.queue.packets = [] ↔ s.awaitingOn key = [] := by
  have haccounts := h.mirrors.accounts hk hlive
  have hpending := h.consistent.pending haccounts.live
  constructor
  · intro hempty
    rw [← hpending, Release.Queue.pendingIds, hempty]
    rfl
  · intro hnone
    exact haccounts.lived.sound.head.packets_eq_nil (hpending.trans hnone)

-- What the host is given by a channel meanwhile is what the channel releases meanwhile.
theorem Sound.released_append (h : s.Sound) (h' : s'.Sound) (hk : s.books key = some k)
    (hk' : s'.books key = some k') {handouts : List Handout}
    (hhanded : s'.handed = s.handed ++ handouts) :
    k'.released = k.released ++ gesturesOf key handouts := by
  have hgiven := h.handed.given key
  have hgiven' := h'.handed.given key
  rw [hk, Option.map_some, Option.getD_some] at hgiven
  rw [hk', Option.map_some, Option.getD_some, givenBy, hhanded, Router.gesturesOf_append] at hgiven'
  rw [← hgiven', ← hgiven, givenBy]

theorem Settles.handed (h : s.Settles s') : ∃ handouts, s'.handed = s.handed ++ handouts := by
  induction h with
  | done => exact ⟨[], (List.append_nil _).symm⟩
  | step _ hs _ ih =>
    obtain ⟨first, -, hfirst⟩ := play_router hs
    obtain ⟨others, hothers⟩ := ih
    exact ⟨first ++ others, by rw [hothers, hfirst, List.append_assoc]⟩

-- Verdicts elsewhere do nothing to a channel where nothing waits.
theorem Sound.items_of_idle (h : s.Sound) (hsettles : s.Settles s') (hnodup : s'.numbers.Nodup)
    (hk : s.books key = some k) (hempty : k.channel.queue.packets = []) :
    ∃ k', s'.books key = some k' ∧ k'.items = k.items := by
  by_cases hlive : key ∈ s.router.channels
  · obtain ⟨k', released, hk', hsettling, -⟩ :=
      h.settling_of_live hsettles hnodup hk hlive (Chronicle.settling_refl k)
    have hnothing : released ++ k'.channel.queue.packets = [] := by
      have hpackets := hsettling.packets
      rw [hempty] at hpackets
      exact List.forall₂_nil_left_iff.mp hpackets
    have hreleased : released = [] := (List.append_eq_nil_iff.mp hnothing).1
    refine ⟨k', hk', ?_⟩
    rw [hsettling.items, hreleased, List.map_nil, List.append_nil]
  · exact ⟨k, h.books_of_gone hsettles hnodup hk hlive, rfl⟩

-- Something is done in a session, and then all verdicts are given, each time with what the
-- host is given by it.
structure Resolves (s s₁ s₂ : Session) (during after : List Handout) : Prop where
  first : s.Sound
  second : s₁.Sound
  last : s₂.Sound
  settles : s₁.Settles s₂
  nodup : s₂.numbers.Nodup
  during : s₁.handed = s.handed ++ during
  after : s₂.handed = s₁.handed ++ after

-- What is open on a channel where nothing waits is heard to end at once, if at all.
theorem Resolves.closes_of_idle (h : s.Resolves s₁ s₂ during after) (hf : f ≠ .pinch)
    (hk : s.books key = some k) (hempty : k.channel.queue.packets = [])
    (hcancelled : s₁.Cancelled key k ∨ s₁.Reentered key k) :
    ∃ k₂, s₂.books key = some k₂ ∧ gesturesOf key after = [] ∧
      (f.Closes (gesturesOf key during) ↔
        WillClose f k.channel.queue.outlet (k.isOpen f)
          (firstEnding f (packetsOf (k₂.items.drop k.items.length)))) := by
  have hsound := (h.first.mirrors.lived hk).sound
  -- Whatever follows the packets of the cancels does not matter.
  obtain ⟨ids, k₁, added, kx, items, more, hkx, hk₁, hanswered, hcontacts, hreleased, hidle, hitems,
    hpackets⟩ : ∃ ids k₁ added kx items more, s₁.books key = some kx ∧ k₁.Sound ∧
      Chronicle.Answered k ids k₁ added ∧ k₁.channel.contacts.contacts = [] ∧
      kx.released = k₁.released ∧ kx.channel.queue.packets = [] ∧
      kx.items = k.items ++ items ∧ packetsOf items = added ++ more := by
    obtain ⟨ids, k₁, added, hk₁, hanswered, hcontacts⟩ |
      ⟨ids, k₁, added, ids', kr, entered, hkr, hk₁, hanswered, hcontacts, hreentered, -,
        hreleased⟩ := hcancelled
    · obtain ⟨hidle, hitems⟩ := hanswered.empty hempty
      exact ⟨ids, k₁, added, k₁, _, [], hk₁, (h.second.mirrors.lived hk₁).sound, hanswered,
        hcontacts, rfl, hidle, hitems, by simp⟩
    · obtain ⟨hidle, hitems⟩ := hanswered.empty hempty
      obtain ⟨hchannel, hforgotten⟩ := Chronicle.next_forgetHistory k₁
      obtain ⟨hidle', hitems'⟩ := hreentered.empty (by rw [hchannel]; exact hidle)
      refine ⟨ids, k₁, added, kr, added.map .packet ++ .forgotten :: entered.map .packet, entered,
        hkr, hk₁, hanswered, hcontacts, hreleased, hidle', ?_, by simp⟩
      rw [hitems', hforgotten, hitems]
      simp
  obtain ⟨k₂, hk₂, hsame⟩ := h.second.items_of_idle h.settles h.nodup hkx hidle
  have hgiven := h.first.released_append h.second hk hkx h.during
  have hlater := h.second.released_append h.last hkx hk₂ h.after
  refine ⟨k₂, hk₂, ?_, ?_⟩
  · exact (h.second.mirrors.lived hkx).sound.nothing_since (h.last.mirrors.lived hk₂).sound hlater
      hsame
  · rw [hreleased] at hgiven
    rw [hsame, hitems, List.drop_left, hpackets]
    exact Chronicle.closes_of_cancels hsound hk₁ hf hanswered hempty hcontacts hgiven more

-- What is open on a channel where something waits is heard to end by the verdicts, unless
-- the channel is gone by then.
theorem Resolves.closes_of_waiting (h : s.Resolves s₁ s₂ during after) (hf : f ≠ .pinch)
    (hk : s.books key = some k) (hne : k.channel.queue.packets ≠ [])
    (hcancelled : s₁.Cancelled key k) :
    ∃ k₂, s₂.books key = some k₂ ∧ gesturesOf key during = [] ∧
      (f.Closes (gesturesOf key after) ↔ key ∈ s₁.router.channels ∧
        WillClose f k.channel.queue.outlet (k.isOpen f)
          (firstEnding f (packetsOf (k₂.items.drop k.items.length)))) := by
  have hsound := (h.first.mirrors.lived hk).sound
  obtain ⟨ids, k₁, added, hk₁, hanswered, hcontacts⟩ := hcancelled
  have hsound₁ := (h.second.mirrors.lived hk₁).sound
  have hitems := (hanswered.waiting hne).2
  have hnothing : gesturesOf key during = [] :=
    hsound.nothing_since hsound₁ (h.first.released_append h.second hk hk₁ h.during) hitems
  have hreleased := h.first.released_append h.second hk hk₁ h.during
  rw [hnothing, List.append_nil] at hreleased
  by_cases hlive : key ∈ s₁.router.channels
  · obtain ⟨k₂, released, hk₂, hsettling, hempty⟩ :=
      h.second.settling_of_live h.settles h.nodup hk₁ hlive (Chronicle.settling_refl k₁)
    have hlater := h.second.released_append h.last hk₁ hk₂ h.after
    rw [hreleased] at hlater
    have hitems₂ : k₂.items.drop k.items.length = released.map .packet := by
      rw [hsettling.items, hitems, List.drop_left]
    refine ⟨k₂, hk₂, hnothing, ?_⟩
    rw [hitems₂, Release.packetsOf_map_packet, Chronicle.closes_of_settling hsound
      (h.last.mirrors.lived hk₂).sound hf hanswered hne hcontacts hsettling hempty hlater]
    simp [hlive]
  · have hk₂ := h.second.books_of_gone h.settles h.nodup hk₁ hlive
    have hlater : gesturesOf key after = [] :=
      hsound₁.nothing_since hsound₁ (h.second.released_append h.last hk₁ hk₂ h.after) rfl
    refine ⟨k₁, hk₂, hnothing, ?_⟩
    rw [hlater]
    simp [hlive, Family.not_closes_nil]

-- On the source's channel only what the packets that wait open themselves is still known by
-- then.
theorem Resolves.closes_of_source (h : s.Resolves s₁ s₂ during after) (hf : f ≠ .pinch)
    (hk : s.books key = some k) (hne : k.channel.queue.packets ≠ [])
    (hreentered : s₁.Reentered key k) (hlive : key ∈ s₁.router.channels) :
    ∃ k₂, s₂.books key = some k₂ ∧ gesturesOf key during = [] ∧
      (f.Closes (gesturesOf key after) ↔
        WillClose f {} (k.isOpen f)
          (firstEnding f (packetsOf (k₂.items.drop k.items.length)))) := by
  have hsound := (h.first.mirrors.lived hk).sound
  obtain ⟨ids, k₁, added, ids', kr, entered, hkr, hsound₁, hanswered, hcontacts, hpressed,
    hentering, hsame⟩ := hreentered
  have hitems₁ := (hanswered.waiting hne).2
  have hitems := (hanswered.reentered hpressed hne).2
  have hreleased := h.first.released_append h.second hk hkr h.during
  have hnothing : gesturesOf key during = [] :=
    hsound.nothing_since hsound₁ (by rw [← hsame, hreleased]) hitems₁
  rw [hnothing, List.append_nil] at hreleased
  obtain ⟨k₂, released, hk₂, hsettling, hempty⟩ :=
    h.second.settling_of_live h.settles h.nodup hkr hlive (Chronicle.settling_refl kr)
  have hlater := h.second.released_append h.last hkr hk₂ h.after
  rw [hreleased] at hlater
  have hitems₂ : k₂.items.drop k.items.length = .forgotten :: released.map .packet := by
    rw [hsettling.items, hitems, List.append_assoc, List.drop_left]
    rfl
  refine ⟨k₂, hk₂, hnothing, ?_⟩
  rw [hitems₂, Release.packetsOf_forgotten_cons, Release.packetsOf_map_packet]
  exact Chronicle.closes_of_reentry hsound hsound₁ (h.last.mirrors.lived hk₂).sound hf hanswered hne
    hcontacts hpressed hentering hsettling hempty hlater

def since (s s' : Session) : List Handout := s'.handed.drop s.handed.length

theorem since_eq {handouts : List Handout} (hhanded : s'.handed = s.handed ++ handouts) :
    s.since s' = handouts := by
  rw [since, hhanded, List.drop_left]

-- A consumer has heard something of the family begin on a channel that has not ended.
def Owes (s : Session) (f : Family) (consumer : ConsumerId) (key : ChannelKey) : Prop :=
  ∃ earlier g later, s.handed = earlier ++ ⟨⟨consumer, .gesture g⟩, key⟩ :: later ∧
    g.kind = f.opener ∧ ∀ g' ∈ gesturesOf key later, f.ends g'.kind = false

theorem Sound.book_of_owes (h : s.Sound) (howes : s.Owes f consumer key) :
    ∃ k, s.books key = some k := by
  obtain ⟨earlier, g, later, hhanded, -⟩ := howes
  have hgiven := h.handed.given key
  cases hk : s.books key with
  | some k => exact ⟨k, rfl⟩
  | none =>
    rw [hk, givenBy, hhanded, List.append_cons] at hgiven
    simp [gesturesOf, gesturesIn] at hgiven

-- Whether what a consumer has heard begin on a channel will be heard to end when touches
-- are handed over, going by the packets that the channel deals with until `s₂`. Where
-- nothing waits, the cancels are heard at once by the helper of the owner. Where something
-- waits, the target's channel is gone before the verdicts, and that of the source knows
-- only what the waiting packets open themselves.
def Closable (s s₂ : Session) (source target : ConsumerId) (f : Family) (consumer : ConsumerId)
    (key : ChannelKey) : Prop :=
  key ∈ s.router.channels ∧ ∃ k k₂, s.books key = some k ∧ s₂.books key = some k₂ ∧
    let ending := firstEnding f (packetsOf (k₂.items.drop k.items.length))
    if s.awaitingOn key = [] then
      s.router.owners[consumer]? = some key ∧ (s.router.helperFor? consumer).isSome ∧
        WillClose f k.channel.queue.outlet (k.isOpen f) ending
    else if s.router.owners[source]? = some key then WillClose f {} (k.isOpen f) ending
    else
      s.router.owners[target]? ≠ some key ∧
        WillClose f k.channel.queue.outlet (k.isOpen f) ending

theorem closable_iff (hlive : key ∈ s.router.channels) (hk : s.books key = some k)
    (hk' : s₂.books key = some k') :
    s.Closable s₂ source target f consumer key ↔
      let ending := firstEnding f (packetsOf (k'.items.drop k.items.length))
      if s.awaitingOn key = [] then
        s.router.owners[consumer]? = some key ∧ (s.router.helperFor? consumer).isSome ∧
          WillClose f k.channel.queue.outlet (k.isOpen f) ending
      else if s.router.owners[source]? = some key then WillClose f {} (k.isOpen f) ending
      else
        s.router.owners[target]? ≠ some key ∧
          WillClose f k.channel.queue.outlet (k.isOpen f) ending := by
  unfold Closable
  constructor
  · rintro ⟨-, k₁, k₂, hk₁, hk₂, hclosable⟩
    rw [hk] at hk₁
    rw [hk'] at hk₂
    cases hk₁
    cases hk₂
    exact hclosable
  · intro hclosable
    exact ⟨hlive, k, k', hk, hk', hclosable⟩

-- A transfer that hands something over is one from a consumer with a channel.
theorem Reached.owner_of_transfer (h : Reached Orderly s)
    (htrue : (s.router.transferTouches clock source target .cancelling).map (·.1) = .ok true) :
    source ≠ target ∧ ∃ moving, s.router.owners[source]? = some moving := by
  unfold Router.transferTouches at htrue
  simp only [] at htrue
  split at htrue
  · cases htrue
  · next hnot =>
    constructor
    · rintro rfl
      simp at hnot
    · cases howner : s.router.owners[source]? with
      | some moving => exact ⟨moving, rfl⟩
      | none => simp [howner, h.bound.boundTo_eq_nil howner] at hnot

-- Where nothing waits, all depends on who hears of the cancels.
theorem closes_iff_of_idle (hlive : key ∈ s.router.channels) (hk : s.books key = some k)
    (hk₂ : s₂.books key = some k') (hnone : s.awaitingOn key = []) (howned : s.router.Owned)
    (howner : ∀ handout ∈ during, s.router.owners[handout.consumer]? = some handout.key)
    (hafter : gesturesOf key after = [])
    (hcloses : f.Closes (gesturesOf key during) ↔
      WillClose f k.channel.queue.outlet (k.isOpen f)
        (firstEnding f (packetsOf (k'.items.drop k.items.length)))) :
    f.Closes (s.dispatchedTo consumer key during ++ gesturesOf key after) ↔
      s.Closable s₂ source target f consumer key := by
  rw [closable_iff hlive hk hk₂, hafter, List.append_nil, dispatchedTo_eq howned howner]
  dsimp only
  rw [if_pos hnone, ← hcloses]
  split
  · next hheard => simp [hheard]
  · next hheard => simpa [Family.not_closes_nil] using fun hown hhelper => absurd ⟨hown, hhelper⟩ hheard

-- Where something waits, nothing is heard before the verdicts.
theorem dispatchedTo_eq_nil (howned : s.router.Owned)
    (howner : ∀ handout ∈ during, s.router.owners[handout.consumer]? = some handout.key)
    (hduring : gesturesOf key during = []) : s.dispatchedTo consumer key during = [] := by
  rw [dispatchedTo_eq howned howner, hduring, ite_self]

-- What a consumer has heard begin is heard to end when touches are handed over just if it is
-- closable.
theorem Reached.closes_iff_closable (h : Reached Orderly s)
    (htrue : (s.router.transferTouches clock source target .cancelling).map (·.1) = .ok true)
    (hs : s.perform (.transfer clock source target .cancelling) = .ok s₁)
    (hnodup : s₁.numbers.Nodup) (hsettles : s₁.Settles s₂) (hf : f ≠ .pinch)
    (howes : s.Owes f consumer key) :
    f.Closes (s.dispatchedTo consumer key (s.since s₁) ++ gesturesOf key (s₁.since s₂)) ↔
      s.Closable s₂ source target f consumer key := by
  obtain ⟨hne, moving, hmoving⟩ := h.owner_of_transfer htrue
  have hsound := h.sound ((prefix_numbers_play hs).sublist.nodup hnodup)
  have hop : s.Orderly (.transfer clock source target .cancelling) := trivial
  have hsound₁ := (h.step hop hs).sound hnodup
  have hnodup₂ : s₂.numbers.Nodup := by rwa [hsettles.numbers]
  have hleads : s.Leads (s.router.transferActs clock source target .cancelling) s₁ :=
    ⟨hsound, suits_transferActs h.mirrors, hnodup, hs⟩
  obtain ⟨during, hplay, hduring⟩ := play_router hs
  obtain ⟨after, hafter⟩ := hsettles.handed
  rw [since_eq hduring, since_eq hafter]
  have hresolves : s.Resolves s₁ s₂ during after :=
    ⟨hsound, hsound₁, hsound₁.settles hsettles hnodup₂, hsettles, hnodup₂, hduring, hafter⟩
  have howner := Router.owner_of_mem_play (Router.addresses_transferActs hmoving hne) hplay
  have howned := hsound.owned
  obtain ⟨k, hk⟩ := hsound.book_of_owes howes
  by_cases hlive : key ∈ s.router.channels
  · have hrole := hleads.transfer_live hmoving hne hlive hk
    by_cases hnone : s.awaitingOn key = []
    · have hempty := (hsound.packets_eq_nil_iff hk hlive).mpr hnone
      have hcancelled : s₁.Cancelled key k ∨ s₁.Reentered key k :=
        hrole.symm.imp (fun hother => hother.2.1) fun hsource => hsource.2.1
      obtain ⟨k₂, hk₂, hnothing, hcloses⟩ := hresolves.closes_of_idle hf hk hempty hcancelled
      exact closes_iff_of_idle hlive hk hk₂ hnone howned howner hnothing hcloses
    · have hwaiting := mt (hsound.packets_eq_nil_iff hk hlive).mp hnone
      obtain ⟨hsource, hreentered, hlive₁⟩ | ⟨hsource, hcancelled, hlive₁⟩ := hrole
      · obtain ⟨k₂, hk₂, hnothing, hcloses⟩ :=
          hresolves.closes_of_source hf hk hwaiting hreentered hlive₁
        rw [dispatchedTo_eq_nil howned howner hnothing, List.nil_append,
          closable_iff hlive hk hk₂, hcloses]
        simp [hnone, hsource]
      · obtain ⟨k₂, hk₂, hnothing, hcloses⟩ :=
          hresolves.closes_of_waiting hf hk hwaiting hcancelled
        rw [dispatchedTo_eq_nil howned howner hnothing, List.nil_append,
          closable_iff hlive hk hk₂, hcloses, hlive₁]
        simp [hnone, hsource]
  · obtain ⟨hbooks, hgone⟩ := hleads.transfer_gone hmoving hne hlive
    have hk₁ := hbooks.trans hk
    have hk₂ := hsound₁.books_of_gone hsettles hnodup₂ hk₁ hgone
    have hlater := hsound₁.released_append hresolves.last hk₁ hk₂ hafter
    have hnothing : gesturesOf key after = [] := List.self_eq_append_right.mp hlater
    have hunowned : s.router.owners[consumer]? ≠ some key := fun hown => hlive (howned.live hown)
    rw [hnothing, List.append_nil, dispatchedTo_eq howned howner]
    simp [hunowned, Closable, hlive, Family.not_closes_nil]

-- A consumer with a helper has a press that awaits its verdict.
def pressed : Session :=
  ((start 4).attempt (.addHelper { serves := fun _ => true, handles := fun _ _ => false })).attempt
    (.touch (Channel.finger .pressed 1 10 0 1) 2)

-- The consumer did not handle it. Then its contact moves, and there is a press elsewhere.
def joined : Session :=
  ((pressed.attempt (.ack 1 false false 2)).attempt
    (.touch (Channel.finger .moved 1 11 10 2) 2)).attempt
    (.touch (Channel.finger .pressed 2 10 20 3) 1)

-- Neither consumer handled its press, and the move awaits its verdict.
def contended : Session := joined.attempt (.ack 3 false false 1)

-- The touches of the first are handed to the second, and then comes the verdict.
def handedOver : Session := contended.attempt (.transfer (.still 30) 1 2 .cancelling)

def settled : Session := handedOver.attempt (.ack 2 false false 2)

theorem reached_contended : Reached Orderly contended := by
  have hpressed : Reached Orderly pressed := ((Reached.start {} ⟨4⟩).attempt trivial).attempt trivial
  have hfirst : pressed.Orderly (.ack 1 false false 2) := ⟨0, by decide +kernel⟩
  have hmoved : Reached Orderly ((pressed.attempt (.ack 1 false false 2)).attempt
      (.touch (Channel.finger .moved 1 11 10 2) 2)) := (hpressed.attempt hfirst).attempt trivial
  have hjoined : Reached Orderly joined := hmoved.attempt trivial
  have hsecond : joined.Orderly (.ack 3 false false 1) := ⟨1, by decide +kernel⟩
  exact hjoined.attempt hsecond

theorem settles_handedOver : handedOver.Settles settled := by
  have hmay : handedOver.MayAck 2 := ⟨0, by decide +kernel⟩
  exact .step hmay (perform_attempt (by decide +kernel)) (.done (by decide +kernel))

theorem owes_contended : contended.Owes .tap 1 1 ∧ contended.Owes .tap 2 0 := by
  constructor
  · exact ⟨contended.handed.take 1, (contended.givenBy 1).head (by decide +kernel), [],
      by decide +kernel⟩
  · exact ⟨[], (contended.givenBy 0).head (by decide +kernel), contended.handed.drop 1,
      by decide +kernel⟩

-- The first one's helper hears at once that its press is no tap.
theorem closes_iff_closable_contended :
    Reached Orderly contended ∧
      (contended.router.transferTouches (.still 30) 1 2 .cancelling).map (·.1) = .ok true ∧
      contended.perform (.transfer (.still 30) 1 2 .cancelling) = .ok handedOver ∧
      handedOver.numbers.Nodup ∧ handedOver.Settles settled ∧ Family.tap ≠ .pinch ∧
      contended.Owes .tap 1 1 ∧
      (Family.tap.Closes (contended.dispatchedTo 1 1 (contended.since handedOver) ++
          gesturesOf 1 (handedOver.since settled)) ↔
        contended.Closable settled 1 2 .tap 1 1) := by
  have htrue : (contended.router.transferTouches (.still 30) 1 2 .cancelling).map (·.1) =
      .ok true := by decide +kernel
  have hs : contended.perform (.transfer (.still 30) 1 2 .cancelling) = .ok handedOver :=
    perform_attempt (by decide +kernel)
  have hnodup : handedOver.numbers.Nodup := by decide +kernel
  have hf : Family.tap ≠ .pinch := by decide
  exact ⟨reached_contended, htrue, hs, hnodup, settles_handedOver, hf, owes_contended.1,
    reached_contended.closes_iff_closable htrue hs hnodup settles_handedOver hf owes_contended.1⟩

-- The second one's channel goes before the verdict on the move, and its press is never heard
-- to end.
theorem not_closes_of_contended :
    Reached Orderly contended ∧
      (contended.router.transferTouches (.still 30) 1 2 .cancelling).map (·.1) = .ok true ∧
      contended.perform (.transfer (.still 30) 1 2 .cancelling) = .ok handedOver ∧
      settled.numbers.Nodup ∧ handedOver.Settles settled ∧ contended.Owes .tap 2 0 ∧
      ¬Family.tap.Closes (contended.dispatchedTo 2 0 (contended.since handedOver) ++
          gesturesOf 0 (handedOver.since settled)) := by
  refine ⟨reached_contended, by decide +kernel, perform_attempt (by decide +kernel),
    by decide +kernel, settles_handedOver, owes_contended.2, by decide +kernel⟩

end Session

end TouchGestures
