import TouchGestures.Proofs.Router.Settling

namespace TouchGestures

open Channel (Chronicle)

namespace Router

-- Whether a step is one of a transfer that does not concern a channel.
def Act.Spares (key : ChannelKey) : Act → Prop
  | .cancelChannel _ _ other => other ≠ key
  | .reenter _ other _ => other ≠ key
  | .rebind .. => True
  | _ => False

end Router

namespace Session

open Router (Act Handout mem_channels_iff)

variable {s s' between : Session} {first second acts : List Act} {key : ChannelKey} {k : Chronicle}
  {now : Time} {clock : Clock}

-- Steps that find what they take for granted lead from one session to another.
structure Leads (s : Session) (acts : List Act) (s' : Session) : Prop where
  sound : s.Sound
  suits : s.Suits acts
  nodup : s'.numbers.Nodup
  plays : s.play acts = .ok s'

theorem Suits.of_append (h : s.Suits (first ++ second)) :
    s.Suits first ∧ ∀ s', s.play first = .ok s' → s'.Suits second := by
  induction first generalizing s with
  | nil =>
    refine ⟨trivial, fun s' hs' => ?_⟩
    cases hs'
    exact h
  | cons a rest ih =>
    refine ⟨⟨h.1, fun s₁ ha => (ih (h.2 s₁ ha)).1⟩, fun s' hs' => ?_⟩
    obtain ⟨s₁, ha, hrest⟩ := bind_eq_ok.mp hs'
    exact (ih (h.2 s₁ ha)).2 s' hrest

theorem Leads.append (h : s.Leads (first ++ second) s') :
    ∃ between, s.Leads first between ∧ between.Leads second s' := by
  obtain ⟨hfirst, hsecond⟩ := h.suits.of_append
  obtain ⟨between, hplay, hrest⟩ := play_append_eq_ok h.plays
  have hnodup := (prefix_numbers_play hrest).sublist.nodup h.nodup
  exact ⟨between, ⟨h.sound, hfirst, hnodup, hplay⟩,
    ⟨h.sound.play hfirst hnodup hplay, hsecond between hplay, h.nodup, hrest⟩⟩

theorem Leads.cons {a : Act} (h : s.Leads (a :: acts) s') :
    ∃ between, s.act a = .ok between ∧ s.Proper a ∧ between.numbers.Nodup ∧
      between.Leads acts s' := by
  obtain ⟨between, ha, hrest⟩ := bind_eq_ok.mp h.plays
  have hnodup := (prefix_numbers_play hrest).sublist.nodup h.nodup
  exact ⟨between, ha, h.suits.1, hnodup,
    ⟨h.sound.act h.suits.1 hnodup ha, h.suits.2 between ha, h.nodup, hrest⟩⟩

-- A channel goes on as it was.
structure Keeps (s s' : Session) (key : ChannelKey) : Prop where
  books : s'.books key = s.books key
  live : key ∈ s'.router.channels ↔ key ∈ s.router.channels

theorem Keeps.trans (h : s.Keeps between key) (h' : between.Keeps s' key) : s.Keeps s' key :=
  ⟨h'.books.trans h.books, h'.live.trans h.live⟩

theorem amend_of_ne {r : Router} {books : Books} {other : ChannelKey} {f : Chronicle → Chronicle}
    (h : other ≠ key) : r.amend books other f key = books key := by
  simp [Router.amend, Ne.symm h]

theorem keeps_act {a : Act} (hm : s.router.Mirrors s.books) (ha : a.Spares key)
    (hact : s.act a = .ok s') : s.Keeps s' key := by
  obtain ⟨handouts, router, hr, rfl⟩ := act_eq_ok hact
  cases a with
  | cancelChannel now consumer other =>
    obtain ⟨result, hcancel, heq⟩ := map_eq_ok.mp hr
    cases heq
    exact ⟨amend_of_ne ha, Router.mem_channels_cancelChannel hcancel⟩
  | reenter clock other contacts =>
    obtain ⟨after, hreenter, heq⟩ := map_eq_ok.mp hr
    cases heq
    exact ⟨amend_of_ne ha, hm.mem_channels_reenter hreenter⟩
  | rebind contacts target =>
    cases hr
    exact ⟨rfl, Iff.rfl⟩
  | touch | ack | tick | forgetHistory | reassign | forget | configure | addHelper | removeHelper
  | setIds => exact absurd ha id

theorem keeps_play (hm : s.router.Mirrors s.books) (hacts : ∀ a ∈ acts, a.Spares key)
    (hs : s.play acts = .ok s') : s.Keeps s' key := by
  induction acts generalizing s with
  | nil =>
    cases hs
    exact ⟨rfl, Iff.rfl⟩
  | cons a rest ih =>
    obtain ⟨between, ha, hrest⟩ := bind_eq_ok.mp hs
    exact (keeps_act hm (hacts a List.mem_cons_self) ha).trans
      (ih (mirrors_act hm ha) (fun b hb => hacts b (List.mem_cons_of_mem a hb)) hrest)

theorem Leads.keeps (h : s.Leads acts s') (hacts : ∀ a ∈ acts, a.Spares key) : s.Keeps s' key :=
  keeps_play h.sound.mirrors hacts h.plays

-- Cancelling the contacts of a channel answers a touch for each, and none is down then.
theorem exists_cancelled {consumer : ConsumerId} (h : s.Sound) (hk : s.books key = some k)
    (hlive : key ∈ s.router.channels) (hnodup : s'.numbers.Nodup)
    (hact : s.act (.cancelChannel now consumer key) = .ok s') :
    ∃ ids k₁ added, s'.books key = some k₁ ∧ key ∈ s'.router.channels ∧
      Chronicle.Answered k ids k₁ added ∧ k₁.channel.contacts.contacts = [] := by
  obtain ⟨handouts, router, hr, rfl⟩ := act_eq_ok hact
  obtain ⟨result, hcancel, heq⟩ := map_eq_ok.mp hr
  cases heq
  have haccounts := h.mirrors.accounts hk hlive
  have htouches : (s.router.channels[key]?.map fun c => (c.contacts.cancels now s.router.ids).1).getD
      [] = (k.channel.contacts.cancels now s.router.ids).1 := by
    rw [haccounts.live]
    rfl
  have hnumbers : (s.numbers ++
      (k.channel.contacts.cancels now s.router.ids).1.map (·.id)).Nodup := by
    rw [← htouches]
    exact hnodup
  obtain ⟨-, hids, hdisjoint⟩ := List.nodup_append.mp hnumbers
  obtain ⟨added, hanswered⟩ := Chronicle.exists_answered_injectAll haccounts.lived hids
    (fun p hp hmem => hdisjoint _ (h.consistent.numbered haccounts.live p hp) _ hmem rfl)
    (s.router.handles consumer)
  refine ⟨_, _, added, ?_, (Router.mem_channels_cancelChannel hcancel).mpr hlive, hanswered,
    Chronicle.contacts_injectAll_cancels haccounts.lived _ _ _⟩
  simp only [Router.record, htouches]
  simp [Router.amend, hlive, hk]

-- A channel that changes hands is there afterwards.
theorem books_reassign {source target : ConsumerId} (howned : s.router.Owned)
    (hproper : s.Proper (.reassign source target key)) (hk : s.books key = some k)
    (hact : s.act (.reassign source target key) = .ok s') :
    s'.books key = some (k.next (.reassign target)) ∧ key ∈ s'.router.channels := by
  obtain ⟨handouts, router, hr, rfl⟩ := act_eq_ok hact
  cases hr
  have hlive := howned.live hproper.1
  constructor
  · simp [Router.record, Router.amend, hlive, hk]
  · rw [Router.mem_channels_displace]
    exact ⟨hlive, fun htarget => hproper.2 (howned.single hproper.1 htarget)⟩

-- Of the others it takes the place of one.
theorem books_reassign_of_ne {source target : ConsumerId} {other : ChannelKey} (hne : other ≠ key)
    (hact : s.act (.reassign source target key) = .ok s') :
    s'.books other = s.books other ∧
      (other ∈ s'.router.channels ↔
        other ∈ s.router.channels ∧ s.router.owners[target]? ≠ some other) := by
  obtain ⟨handouts, router, hr, rfl⟩ := act_eq_ok hact
  cases hr
  exact ⟨amend_of_ne hne.symm, Router.mem_channels_displace _ _ _ _ _⟩

-- Contacts that are pressed anew on a channel where none is down open what is theirs.
theorem exists_reentered {contacts : List Contact} (h : s.Sound) (hk : s.books key = some k)
    (hlive : key ∈ s.router.channels) (hcontacts : k.channel.contacts.contacts = [])
    (hnodup : s'.numbers.Nodup) (hact : s.act (.reenter clock key contacts) = .ok s') :
    ∃ ids kr entered, s'.books key = some kr ∧ key ∈ s'.router.channels ∧
      Chronicle.Answered (k.next .forgetHistory) ids kr entered ∧
      Release.Entering true entered ∧ kr.released = k.released := by
  obtain ⟨handouts, router, hr, rfl⟩ := act_eq_ok hact
  obtain ⟨after, hreenter, heq⟩ := map_eq_ok.mp hr
  cases heq
  have haccounts := h.mirrors.accounts hk hlive
  have hnumbers : (s.numbers ++
      (synthesizeAll .pressed clock contacts s.router.ids).1.map (·.id)).Nodup := by
    simpa [Router.numbersOf, hlive] using hnodup
  obtain ⟨-, hids, hdisjoint⟩ := List.nodup_append.mp hnumbers
  have hkinds : ∀ t ∈ (synthesizeAll .pressed clock contacts s.router.ids).1, t.kind = .pressed :=
    fun t ht => kind_of_mem_synthesizeAll ht
  have hfresh : ∀ p ∈ k.channel.queue.packets,
      p.eventId ∉ (synthesizeAll .pressed clock contacts s.router.ids).1.map (·.id) :=
    fun p hp hmem => hdisjoint _ (h.consistent.numbered haccounts.live p hp) _ hmem rfl
  obtain ⟨entered, hanswered, hentering⟩ :=
    Chronicle.exists_answered_reenter haccounts.lived hkinds hids hfresh
  rw [hcontacts] at hentering
  refine ⟨_, _, entered, ?_, (h.mirrors.mem_channels_reenter hreenter).mpr hlive, hanswered,
    hentering, Chronicle.released_reenter haccounts.lived hcontacts hkinds hids hfresh⟩
  simp [Router.record, Router.amend, hlive, hk]

-- The record of a channel after its contacts were cancelled.
def Cancelled (s : Session) (key : ChannelKey) (k : Chronicle) : Prop :=
  ∃ ids k₁ added, s.books key = some k₁ ∧ Chronicle.Answered k ids k₁ added ∧
    k₁.channel.contacts.contacts = []

-- The record of a channel after its contacts were cancelled and pressed anew.
def Reentered (s : Session) (key : ChannelKey) (k : Chronicle) : Prop :=
  ∃ ids k₁ added ids' kr entered, s.books key = some kr ∧ k₁.Sound ∧
    Chronicle.Answered k ids k₁ added ∧ k₁.channel.contacts.contacts = [] ∧
    Chronicle.Answered (k₁.next .forgetHistory) ids' kr entered ∧
    Release.Entering true entered ∧ kr.released = k₁.released

section Transfer

variable {consumer source target : ConsumerId} {moving : ChannelKey}
  {visits : List (Time × ConsumerId)}

theorem spares_cancels
    (howner : ∀ consumer ∈ visits.map (·.2), s.router.owners[consumer]? ≠ some key) :
    ∀ a ∈ s.router.cancelsOf visits, a.Spares key := by
  intro a ha
  obtain ⟨visit, hvisit, other, hother, rfl⟩ := Router.mem_cancelsOf.mp ha
  rintro rfl
  exact howner visit.2 (List.mem_map_of_mem hvisit) hother

-- Cancelling the contacts of some consumers, each once, reaches the channel of one of them.
theorem Leads.cancels (h : s.Leads (between.router.cancelsOf visits) s')
    (howned : between.router.Owned) (hdistinct : (visits.map (·.2)).Nodup)
    (hmem : consumer ∈ visits.map (·.2)) (howner : between.router.owners[consumer]? = some key)
    (hk : s.books key = some k) (hlive : key ∈ s.router.channels) :
    s'.Cancelled key k ∧ key ∈ s'.router.channels := by
  obtain ⟨⟨now, consumer⟩, hvisit, rfl⟩ := List.mem_map.mp hmem
  obtain ⟨earlier, later, rfl⟩ := List.append_of_mem hvisit
  rw [List.map_append, List.map_cons] at hdistinct
  obtain ⟨-, hlater, hdisjoint⟩ := List.nodup_append.mp hdistinct
  dsimp only at *
  have hspares : ∀ other, other ≠ consumer → between.router.owners[other]? ≠ some key :=
    fun other hne hother => hne (howned.single hother howner)
  have hacts : between.router.cancelActs now consumer = [.cancelChannel now consumer key] := by
    simp [Router.cancelActs, howner]
  simp only [Router.cancelsOf, List.flatMap_append, List.flatMap_cons, hacts] at h
  obtain ⟨s₁, hfirst, h⟩ := h.append
  obtain ⟨s₂, hact, -, hnodup, hlast⟩ := h.cons
  have hbefore := hfirst.keeps (spares_cancels fun other hother =>
    hspares other (hdisjoint other hother consumer List.mem_cons_self))
  have hafter := hlast.keeps (spares_cancels fun other hother =>
    hspares other fun heq => (List.nodup_cons.mp hlater).1 (heq ▸ hother))
  obtain ⟨ids, k₁, added, hk₁, hlive₁, hanswered, hcontacts⟩ := exists_cancelled h.sound
    (hbefore.books.trans hk) (hbefore.live.mpr hlive) hnodup hact
  exact ⟨⟨ids, k₁, added, hafter.books.trans hk₁, hanswered, hcontacts⟩, hafter.live.mpr hlive₁⟩

-- The steps of a transfer: the contacts of the bystanders and of the target are cancelled,
-- and then those of the source, once its channel has changed hands.
theorem Leads.transfer
    (h : s.Leads (s.router.transferActs clock source target .cancelling) s')
    (howner : s.router.owners[source]? = some moving) (hne : source ≠ target) :
    ∃ cancelled ready contacts,
      s.Leads (s.router.cancelsOf (clock.stamp (s.router.consumersExcept [source, target])))
        cancelled ∧
      cancelled.Leads (s.router.cancelsOf [((s.router.partyClock clock source target).now, target)])
        ready ∧
      ready.router.owners = s.router.owners ∧
      ready.Leads [.reassign source target moving,
        .cancelChannel (s.router.partyClock clock source target).rest.now source moving,
        .reenter (s.router.partyClock clock source target).rest.rest moving contacts,
        .rebind (s.router.boundTo source) target] s' := by
  obtain ⟨r', replacing, hacts⟩ :=
    Router.transferActs_eq clock .cancelling howner hne
  rw [hacts] at h
  obtain ⟨cancelled, hbystanders, h⟩ := h.append
  obtain ⟨ready, htarget, h⟩ := h.append
  have howners : ready.router.owners = s.router.owners :=
    (owners_of_play_cancels (s.router.cancels_cancelActs _ target) htarget.plays).trans
      (owners_of_play_cancels (s.router.cancels_cancelsOf _) hbystanders.plays)
  refine ⟨cancelled, ready, _, hbystanders, ?_, howners, h⟩
  rwa [Router.cancelsOf_singleton]

-- Nothing happens to a channel that is gone.
theorem Leads.transfer_gone (h : s.Leads (s.router.transferActs clock source target .cancelling) s')
    (howner : s.router.owners[source]? = some moving) (hne : source ≠ target)
    (hgone : key ∉ s.router.channels) :
    s'.books key = s.books key ∧ key ∉ s'.router.channels := by
  have hunowned : ∀ consumer : ConsumerId, s.router.owners[consumer]? ≠ some key :=
    fun consumer hconsumer => hgone (h.sound.owned.live hconsumer)
  have hmoving : key ≠ moving := by
    rintro rfl
    exact hunowned source howner
  obtain ⟨cancelled, ready, contacts, hbystanders, htarget, -, h⟩ := h.transfer howner hne
  have hbefore := (hbystanders.keeps (spares_cancels fun consumer _ => hunowned consumer)).trans
    (htarget.keeps (spares_cancels fun consumer _ => hunowned consumer))
  obtain ⟨moved, hact, -, -, h⟩ := h.cons
  obtain ⟨hbooks, hlive⟩ := books_reassign_of_ne hmoving hact
  have hafter : moved.Keeps s' key := h.keeps (by simp [Act.Spares, hmoving.symm])
  refine ⟨by rw [hafter.books, hbooks, hbefore.books], ?_⟩
  rw [hafter.live, hlive, hbefore.live]
  exact fun hmem => hgone hmem.1

-- The contacts of a channel other than that of the source are cancelled, and if it is the
-- target's it goes.
theorem Leads.transfer_other
    (h : s.Leads (s.router.transferActs clock source target .cancelling) s')
    (howner : s.router.owners[source]? = some moving) (hne : source ≠ target)
    (hconsumer : s.router.owners[consumer]? = some key) (hother : consumer ≠ source)
    (hk : s.books key = some k) :
    s'.Cancelled key k ∧ (key ∈ s'.router.channels ↔ consumer ≠ target) := by
  have howned := h.sound.owned
  have hlive := howned.live hconsumer
  have hmoving : key ≠ moving := by
    rintro rfl
    exact hother (howned.single hconsumer howner)
  obtain ⟨cancelled, ready, contacts, hbystanders, htarget, howners, h⟩ := h.transfer howner hne
  obtain ⟨moved, hact, -, -, h⟩ := h.cons
  obtain ⟨hbooks, hmoved⟩ := books_reassign_of_ne hmoving hact
  have hafter : moved.Keeps s' key := h.keeps (by simp [Act.Spares, hmoving.symm])
  have hready : ready.Cancelled key k ∧ key ∈ ready.router.channels := by
    by_cases heq : consumer = target
    · subst heq
      have hkeeps : s.Keeps cancelled key := by
        refine hbystanders.keeps (spares_cancels fun other hmem hsame => ?_)
        rw [Clock.map_snd_stamp, howned.single hsame hconsumer] at hmem
        exact (Router.mem_consumersExcept.mp hmem).2 (by simp)
      exact htarget.cancels howned (List.nodup_singleton _) List.mem_cons_self hconsumer
        (hkeeps.books.trans hk) (hkeeps.live.mpr hlive)
    · have hmem : consumer ∈ s.router.consumersExcept [source, target] := by
        refine Router.mem_consumersExcept.mpr ⟨?_, by simp [hother, heq]⟩
        rw [Router.hasChannel_eq_isSome, hconsumer, Option.isSome_some]
      have hkeeps : cancelled.Keeps ready key := by
        refine htarget.keeps (spares_cancels fun other hmem hsame => ?_)
        rw [List.mem_singleton.mp hmem] at hsame
        exact heq (howned.single hconsumer hsame)
      obtain ⟨⟨ids, k₁, added, hk₁, hanswered⟩, hlive₁⟩ := hbystanders.cancels howned
        (by simpa using s.router.nodup_consumersExcept _) (by simpa using hmem) hconsumer hk hlive
      exact ⟨⟨ids, k₁, added, hkeeps.books.trans hk₁, hanswered⟩, hkeeps.live.mpr hlive₁⟩
  obtain ⟨⟨ids, k₁, added, hk₁, hanswered⟩, hlive₁⟩ := hready
  refine ⟨⟨ids, k₁, added, by rw [hafter.books, hbooks, hk₁], hanswered⟩, ?_⟩
  rw [hafter.live, hmoved, howners]
  constructor
  · rintro ⟨-, hnot⟩ rfl
    exact hnot hconsumer
  · intro hnot
    exact ⟨hlive₁, fun hsame => hnot (howned.single hconsumer hsame)⟩

-- What waits in a channel that changes hands goes along.
theorem answered_of_reassigned {ids : List EventId} {k₁ : Chronicle} {added : List Packet}
    (h : Chronicle.Answered (k.next (.reassign target)) ids k₁ added) :
    Chronicle.Answered k ids k₁ added := by
  have hnext := Chronicle.next_of_step (k := k) (e := .reassign target) rfl
  simp only [hnext, Channel.queuedBy, Channel.itemsBy, List.append_nil] at h
  exact ⟨h.judged, h.queued, h.waiting, h.empty⟩

-- The contacts of the source are cancelled and pressed anew on the channel that it had.
theorem Leads.transfer_source
    (h : s.Leads (s.router.transferActs clock source target .cancelling) s')
    (howner : s.router.owners[source]? = some moving) (hne : source ≠ target)
    (hk : s.books moving = some k) :
    s'.Reentered moving k ∧ moving ∈ s'.router.channels := by
  have howned := h.sound.owned
  obtain ⟨cancelled, ready, contacts, hbystanders, htarget, -, h⟩ := h.transfer howner hne
  have hspares : ∀ consumer : ConsumerId, consumer ≠ source →
      s.router.owners[consumer]? ≠ some moving :=
    fun consumer hother hsame => hother (howned.single hsame howner)
  have hbefore := (hbystanders.keeps (spares_cancels fun other hmem => hspares other ?_)).trans
    (htarget.keeps (spares_cancels fun other hmem => hspares other ?_))
  · obtain ⟨moved, hreassign, hproper, -, hrest⟩ := h.cons
    obtain ⟨hmoved, hlive⟩ := books_reassign h.sound.owned hproper (hbefore.books.trans hk) hreassign
    obtain ⟨closed, hcancel, -, hclosed, hlast⟩ := hrest.cons
    obtain ⟨ids, k₁, added, hk₁, hlive₁, hanswered, hcontacts⟩ :=
      exists_cancelled hrest.sound hmoved hlive hclosed hcancel
    obtain ⟨opened, hreenter, -, hopened, hrebind⟩ := hlast.cons
    obtain ⟨ids', kr, entered, hkr, hlive₂, hreentered, hentering, hreleased⟩ :=
      exists_reentered hlast.sound hk₁ hlive₁ hcontacts hopened hreenter
    have hafter : opened.Keeps s' moving := hrebind.keeps (by simp [Act.Spares])
    have hsound := (hlast.sound.mirrors.lived hk₁).sound
    exact ⟨⟨ids, k₁, added, ids', kr, entered, hafter.books.trans hkr, hsound,
      answered_of_reassigned hanswered, hcontacts, hreentered, hentering, hreleased⟩,
      hafter.live.mpr hlive₂⟩
  · rintro rfl
    rw [Clock.map_snd_stamp] at hmem
    exact (Router.mem_consumersExcept.mp hmem).2 (by simp)
  · rintro rfl
    exact hne (List.mem_singleton.mp hmem)

-- What becomes of a channel that is there when touches are handed over.
theorem Leads.transfer_live (h : s.Leads (s.router.transferActs clock source target .cancelling) s')
    (howner : s.router.owners[source]? = some moving) (hne : source ≠ target)
    (hlive : key ∈ s.router.channels) (hk : s.books key = some k) :
    (s.router.owners[source]? = some key ∧ s'.Reentered key k ∧ key ∈ s'.router.channels) ∨
      (s.router.owners[source]? ≠ some key ∧ s'.Cancelled key k ∧
        (key ∈ s'.router.channels ↔ s.router.owners[target]? ≠ some key)) := by
  have howned := h.sound.owned
  obtain ⟨consumer, hconsumer⟩ := howned.owned hlive
  by_cases hsource : s.router.owners[source]? = some key
  · rw [hsource, Option.some.injEq] at howner
    subst howner
    exact .inl ⟨hsource, h.transfer_source hsource hne hk⟩
  · have hother : consumer ≠ source := by
      rintro rfl
      exact hsource hconsumer
    obtain ⟨hcancelled, hlive'⟩ := h.transfer_other howner hne hconsumer hother hk
    have htarget : consumer ≠ target ↔ s.router.owners[target]? ≠ some key :=
      not_congr ⟨fun heq => heq ▸ hconsumer, fun hsame => howned.single hconsumer hsame⟩
    exact .inr ⟨hsource, hcancelled, hlive'.trans htarget⟩

end Transfer

end Session

end TouchGestures
