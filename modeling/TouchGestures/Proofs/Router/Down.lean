import TouchGestures.Proofs.Channel.Pressing
import TouchGestures.Proofs.Router.Everywhere
import TouchGestures.Proofs.Router.HandOver

namespace TouchGestures

open Channel (Chronicle)

namespace Router

variable {r r' : Router} {consumer : ConsumerId} {key : ChannelKey} {k : Chronicle} {now : Time}

-- A made up touch binds and frees contacts like any other.
theorem bindings_inject {t : Touch} {notices : List Notice} (hk : r.Accounts key k)
    (hr : r.inject consumer key t = .ok (notices, r')) :
    r'.bindings = if k.accepts t then (r.bind t consumer).bindings else r.bindings := by
  unfold inject at hr
  simp only [hk.live] at hr
  obtain ⟨⟨result, channel⟩, htouch, hr⟩ := bind_eq_ok.mp hr
  have haccepts : k.accepts t = result.accepted := by simp [Chronicle.accepts, htouch]
  dsimp only at hr
  rw [haccepts]
  split at hr
  · next haccepted =>
    obtain ⟨acked, -, hr⟩ := bind_eq_ok.mp hr
    cases hr
    rw [if_pos haccepted]
    rfl
  · next haccepted =>
    cases hr
    rw [if_neg haccepted]
    rfl

-- Cancelling contacts frees them, and no others.
theorem bindings_injectAll_cancels {contacts : List Contact} {ids : EventIds}
    {notices : List Notice} (hk : r.Accounts key k)
    (hcontacts : k.channel.contacts.contacts = contacts)
    (hr : r.injectAll consumer key (synthesizeAll .cancelled (.still now) contacts ids).1 =
      .ok (notices, r'))
    (id : ContactId) :
    r'.bindings[id]? = if id ∈ contacts.map Contact.id then none else r.bindings[id]? := by
  induction contacts generalizing r k ids notices with
  | nil =>
    cases hr
    simp
  | cons c rest ih =>
    obtain ⟨⟨first, r₁⟩, hfirst, hr⟩ := bind_eq_ok.mp hr
    obtain ⟨⟨others, r₂⟩, hothers, hr⟩ := bind_eq_ok.mp hr
    cases hr
    have hfirst : r.inject consumer key (c.synthesize .cancelled now ids.fresh.1) =
        .ok (first, r₁) := hfirst
    have haccounts := (inject_continues hk hfirst).accounts
    have hrest := Chronicle.contacts_inject_cancel hk.lived.sound hcontacts
      (r.handles consumer) now ids.fresh.1
    have hbindings := bindings_inject hk hfirst
    rw [if_pos (Chronicle.accepts_cancel hk.lived.sound hcontacts now ids.fresh.1)] at hbindings
    have hget : r₁.bindings[id]? = if c.id = id then none else r.bindings[id]? := by
      rw [hbindings]
      simp [Router.bind, Contact.synthesize, Std.ExtTreeMap.getElem?_erase]
      rfl
    rw [ih haccounts hrest hothers, hget]
    by_cases hmem : id ∈ rest.map Contact.id
    · simp [hmem]
    · by_cases hid : c.id = id
      · simp [hid]
      · simp [hmem, hid, Ne.symm hid]

theorem bindings_cancelChannel {result : Bool × List Notice × Router} (hk : r.Accounts key k)
    (hr : r.cancelChannel now consumer key = .ok result) (id : ContactId) :
    result.2.2.bindings[id]? =
      if id ∈ k.channel.contacts.ids then none else r.bindings[id]? := by
  unfold cancelChannel at hr
  simp only [hk.live] at hr
  obtain ⟨⟨notices, r₁⟩, hinject, hr⟩ := bind_eq_ok.mp hr
  cases hr
  rw [ContactTable.cancels_eq, ContactTable.live_of_leaving_eq_none hk.lived.sound.settled]
    at hinject
  have hsame : { r with
      ids := (synthesizeAll .cancelled (.still now) k.channel.contacts.contacts
        r.ids).2 }.Accounts key k :=
    ⟨hk.live, hk.taken, hk.lived⟩
  exact bindings_injectAll_cancels hsame rfl hinject id

end Router

namespace Session

open Router (Act Op mem_channels_iff)

variable {s s' : Session} {key other : ChannelKey} {k : Chronicle} {clock : Clock}
  {source target consumer : ConsumerId} {now : Time}

-- The contacts that are down on a channel, oldest first.
def down (s : Session) (key : ChannelKey) : List ContactId :=
  ((s.books key).map (·.channel.contacts.ids)).getD []

theorem down_of_books (h : s.books key = some k) : s.down key = k.channel.contacts.ids := by
  simp [down, h]

theorem down_congr (h : s'.books key = s.books key) : s'.down key = s.down key := by
  rw [down, h, down]

theorem nodup_down (hm : s.router.Mirrors s.books) : (s.down key).Nodup := by
  cases hk : s.books key with
  | none => simp [down, hk]
  | some k =>
    rw [down_of_books hk]
    exact Chronicle.distinct_of_lived (hm.lived hk)

-- Where a step brings no touches, the same contacts stay down.
theorem down_of_rests {a : Act} (hlocal : a.isLocal = true) (hstirs : ¬a.Stirs key)
    (hact : s.act a = .ok s') : s'.down key = s.down key := by
  obtain ⟨handouts, router, hr, rfl⟩ := act_eq_ok hact
  cases hk : s.books key with
  | some k =>
    obtain ⟨k', hk', hrests⟩ := Router.rests_record hlocal hstirs hk
    rw [down_of_books hk', down_of_books hk, ContactTable.ids, ContactTable.ids, hrests.contacts]
  | none =>
    have hopened : s.router.opened s.books a = s.books := by
      cases a with
      | touch t consumer => exact absurd trivial hstirs
      | _ => rfl
    have hnone := Router.isSome_record s.router s.books a key
    rw [hopened, hk, Option.isSome_none, Option.isSome_eq_false_iff, Option.isNone_iff_eq_none]
      at hnone
    simp [down, hk, hnone]

-- The session in which a consumer has got its channel.
def withChannel (s : Session) (consumer : ConsumerId) : Session :=
  { s with
    router := (s.router.obtain consumer).2
    books := s.router.enroll s.books consumer }

theorem owner_withChannel (s : Session) (consumer : ConsumerId) :
    (s.withChannel consumer).router.owners[consumer]? = some (s.router.obtain consumer).1 :=
  (Router.getElem?_owners_obtain consumer).trans (if_pos rfl)

theorem books_withChannel (hm : s.router.Mirrors s.books) (hlive : key ∈ s.router.channels) :
    (s.withChannel consumer).books key = s.books key := by
  cases howner : s.router.owners[consumer]? with
  | some own => exact congrFun (Router.obtain_of_some howner s.books).2 key
  | none =>
    refine (congrFun (Router.obtain_of_none howner s.books).2 key).trans (if_neg ?_)
    rintro rfl
    obtain ⟨channel, hchannel⟩ := mem_channels_iff.mp hlive
    rw [hm.unopened (Nat.le_refl _)] at hchannel
    cases hchannel

-- A touch concerns the channel of the consumer that it is for, and no other.
theorem books_touch {t : Touch} (hm : s.router.Mirrors s.books) (howned : s.router.Owned)
    (hact : s.act (.touch t consumer) = .ok s') :
    (∃ k, (s.withChannel consumer).router.Accounts (s.router.obtain consumer).1 k ∧
        (s.withChannel consumer).books (s.router.obtain consumer).1 = some k ∧
        s'.books (s.router.obtain consumer).1 = some (k.next (.touch t))) ∧
      ∀ other, other ≠ (s.router.obtain consumer).1 →
        s'.books other = (s.withChannel consumer).books other := by
  have hopened : (s.withChannel consumer).router.Mirrors (s.withChannel consumer).books := hm.obtain
  have hlive : (s.router.obtain consumer).1 ∈ (s.withChannel consumer).router.channels :=
    (howned.obtain hm.nextKey_notMem).live (owner_withChannel s consumer)
  obtain ⟨channel, hchannel⟩ := mem_channels_iff.mp hlive
  obtain ⟨k, hk, haccounts⟩ := hopened.book hchannel
  obtain ⟨handouts, router, -, rfl⟩ := act_eq_ok hact
  refine ⟨⟨k, haccounts, hk, ?_⟩, fun other hne => ?_⟩
  · simp only [Router.record, Router.amend, true_and]
    exact (if_pos hlive).trans (congrArg (Option.map _) hk)
  · simp only [Router.record, Router.amend]
    exact if_neg fun heq => hne heq.1

-- What is down on a channel is freed when its contacts are cancelled, and nothing else is.
theorem cancelled_of_act (hm : s.router.Mirrors s.books) (hk : s.books key = some k)
    (hlive : key ∈ s.router.channels)
    (hact : s.act (.cancelChannel now consumer key) = .ok s') :
    (∃ k', s'.books key = some k' ∧ k'.channel.contacts.contacts = [] ∧
        k'.channel.contacts.limit = k.channel.contacts.limit) ∧
      ∀ id, s'.router.bindings[id]? =
        if id ∈ s.down key then none else s.router.bindings[id]? := by
  obtain ⟨handouts, router, hr, rfl⟩ := act_eq_ok hact
  obtain ⟨result, hcancel, heq⟩ := map_eq_ok.mp hr
  cases heq
  have haccounts := hm.accounts hk hlive
  constructor
  · refine ⟨(k.channel.contacts.cancels now s.router.ids).1.foldl
      (·.inject (s.router.handles consumer)) k, ?_,
      Chronicle.contacts_injectAll_cancels haccounts.lived _ _ _,
      ((Chronicle.evolves_injectAll k _ _).fixed haccounts.lived).2.1⟩
    simp only [Router.record, haccounts.live, Option.map_some, Option.getD_some]
    simp [Router.amend, hlive, hk]
  · intro id
    rw [down_of_books hk]
    exact Router.bindings_cancelChannel haccounts hcancel id

theorem ids_of_pressedBy {t u : ContactTable} {n : Nat}
    (h : u.contacts = (pressedBy clock t.contacts).take n) : u.ids = t.ids.take n := by
  rw [ContactTable.ids, h, List.map_take, map_id_pressedBy, ContactTable.ids]

-- A channel whose contacts are cancelled and pressed anew starts over, with as many of them
-- as there is room for.
theorem current_of_settle {replacing : Bool} (hm : s.router.Mirrors s.books)
    (hk : s.books key = some k) (hlive : key ∈ s.router.channels)
    (hs : s.play (s.router.settleActs clock source key replacing .cancelling) = .ok s') :
    (∃ k', s'.books key = some k' ∧
        k'.Current (clock.rest.read
          ((k.channel.contacts.contacts.take k.channel.contacts.limit.toNat).length - 1)) ∧
        k'.channel.contacts.limit = k.channel.contacts.limit ∧
        k'.channel.contacts.contacts =
          (pressedBy clock.rest k.channel.contacts.contacts).take
            k.channel.contacts.limit.toNat) ∧
      ∀ id, s'.router.bindings[id]? =
        if id ∈ s.down key then none else s.router.bindings[id]? := by
  have haccounts := hm.accounts hk hlive
  have hcontacts : (s.router.channels[key]?.map (·.contacts.live)).getD [] =
      k.channel.contacts.contacts := by
    rw [haccounts.live, Option.map_some, Option.getD_some,
      ContactTable.live_of_leaving_eq_none haccounts.lived.sound.settled]
  rw [Router.settleActs, hcontacts] at hs
  obtain ⟨s₁, hcancel, hs⟩ := bind_eq_ok.mp hs
  obtain ⟨s₂, hreenter, hnil⟩ := bind_eq_ok.mp hs
  cases hnil
  obtain ⟨⟨k₁, hk₁, hnil, hlimit⟩, hbindings⟩ := cancelled_of_act hm hk hlive hcancel
  have hm₁ := mirrors_act hm hcancel
  have hlive₁ : key ∈ s₁.router.channels := by
    obtain ⟨handouts, router, hr, rfl⟩ := act_eq_ok hcancel
    obtain ⟨result, hcancelled, heq⟩ := map_eq_ok.mp hr
    cases heq
    exact (Router.mem_channels_cancelChannel hcancelled).mpr hlive
  obtain ⟨handouts, router, hr, rfl⟩ := act_eq_ok hreenter
  obtain ⟨-, hsame, -⟩ := Router.quiet_act rfl hr
  have hlived := hm₁.lived hk₁
  obtain ⟨hcurrent, hpressed⟩ := Chronicle.contacts_reenter hlived hnil
    (Chronicle.distinct_of_lived haccounts.lived) clock.rest s₁.router.ids
  rw [hlimit] at hcurrent
  refine ⟨⟨_, by simp only [Router.record, Router.amend, hlive₁, hk₁, and_self, if_true,
    Option.map_some], hcurrent, ?_, ?_⟩, fun id => ?_⟩
  · rw [((Chronicle.evolves_reenter k₁ _).fixed hlived).2.1, hlimit]
  · rw [hpressed, hlimit]
  · exact (congrArg (·[id]?) hsame).trans (hbindings id)

theorem owned_play_cancels {acts : List Act} (howned : s.router.Owned)
    (hm : s.router.Mirrors s.books)
    (hcancels : ∀ a ∈ acts, ∃ now consumer key, a = .cancelChannel now consumer key)
    (hs : s.play acts = .ok s') : s'.router.Owned := by
  refine (play_induction (P := fun s => s.router.Owned ∧ s.router.Mirrors s.books)
    ⟨howned, hm⟩ ?_ hs).1
  intro s₁ s₂ a ha ⟨howned, hm⟩ hact
  obtain ⟨now, consumer, key, rfl⟩ := hcancels a ha
  refine ⟨?_, mirrors_act hm hact⟩
  obtain ⟨handouts, router, hr, rfl⟩ := act_eq_ok hact
  have hgranted : s₁.Granted (.cancelChannel now consumer key) := trivial
  exact owned_act howned hm hgranted hr

-- The steps of a transfer: everyone else's contacts are cancelled, the channel of the source
-- changes hands, it is dealt with as the manner of the transfer asks, and the contacts of
-- the source are bound to the target.
theorem transfer_eq_ok {transfer : Router.Transfer} (howner : s.router.owners[source]? = some key)
    (hne : source ≠ target) (hs : s.perform (.transfer clock source target transfer) = .ok s') :
    ∃ s₀ s₁ s₂ s₃ replacing,
      s.play (s.router.cancelsOf (clock.stamp (s.router.consumersExcept [source, target]))) =
        .ok s₀ ∧
      s₀.play (s.router.cancelActs (s.router.partyClock clock source target).now target) =
        .ok s₁ ∧
      s₁.act (.reassign source target key) = .ok s₂ ∧
      s₂.play (s₂.router.settleActs (s.router.partyClock clock source target).rest source key
        replacing transfer) = .ok s₃ ∧
      s₃.act (.rebind (s.router.boundTo source) target) = .ok s' := by
  simp only [perform, Router.acts, Router.transferActs, howner, hne, decide_false,
    Option.isNone_some, Bool.false_and, Bool.or_false, Bool.false_eq_true, if_false] at hs
  obtain ⟨s₃, hs, hrebind⟩ := play_append_eq_ok hs
  obtain ⟨s₀, hbystanders, hs⟩ := play_append_eq_ok hs
  rw [after_of_play hbystanders, Router.handOverActs] at hs
  obtain ⟨s₂, hmoving, hsettle⟩ := play_append_eq_ok hs
  rw [after_of_play hmoving] at hsettle
  obtain ⟨s₁, htarget, hreassign⟩ := play_append_eq_ok hmoving
  obtain ⟨_, hreassign, hnil⟩ := bind_eq_ok.mp hreassign
  cases hnil
  obtain ⟨_, hrebind, hnil⟩ := bind_eq_ok.mp hrebind
  cases hnil
  have howners : s₀.router.owners = s.router.owners :=
    owners_of_play_cancels (Router.cancels_cancelEachActs _ clock _) hbystanders
  rw [Router.cancelEachActs_eq] at hbystanders
  rw [Router.cancelActs_congr howners] at htarget
  exact ⟨s₀, s₁, s₂, s₃, _, hbystanders, htarget, hreassign, hsettle, hrebind⟩

-- Some contacts were cancelled, but none on the channel.
structure Undisturbed (s s' : Session) (key : ChannelKey) : Prop where
  mirrors : s'.router.Mirrors s'.books
  owned : s'.router.Owned
  owners : s'.router.owners = s.router.owners
  keeps : s.Keeps s' key

theorem undisturbed_of_cancels {visits : List (Time × ConsumerId)} (hm : s.router.Mirrors s.books)
    (howned : s.router.Owned) (howner : s.router.owners[source]? = some key)
    (hnot : source ∉ visits.map (·.2)) (hs : s.play (s.router.cancelsOf visits) = .ok s') :
    s.Undisturbed s' key := by
  have hcancels := s.router.cancels_cancelsOf visits
  have hspares : ∀ consumer ∈ visits.map (·.2), s.router.owners[consumer]? ≠ some key :=
    fun consumer hmem hsame => hnot (howned.single hsame howner ▸ hmem)
  exact ⟨mirrors_play hm hs, owned_play_cancels howned hm hcancels hs,
    owners_of_play_cancels hcancels hs, keeps_play hm (spares_cancels hspares) hs⟩

-- Until it changes hands, nothing is done to the channel of the source.
theorem undisturbed_of_transfer {s₀ s₁ : Session} (hm : s.router.Mirrors s.books)
    (howned : s.router.Owned) (howner : s.router.owners[source]? = some key) (hne : source ≠ target)
    (hbystanders : s.play
      (s.router.cancelsOf (clock.stamp (s.router.consumersExcept [source, target]))) = .ok s₀)
    (htarget : s₀.play (s.router.cancelActs now target) = .ok s₁) :
    s.Undisturbed s₀ key ∧ s.Undisturbed s₁ key := by
  have h₀ := undisturbed_of_cancels hm howned howner
    (fun hmem => (Router.mem_consumersExcept.mp (clock.map_snd_stamp _ ▸ hmem)).2 (by simp))
    hbystanders
  rw [← Router.cancelActs_congr h₀.owners, ← Router.cancelsOf_singleton] at htarget
  have h₁ := undisturbed_of_cancels h₀.mirrors h₀.owned (h₀.owners ▸ howner)
    (fun hmem => hne (List.mem_singleton.mp hmem)) htarget
  exact ⟨h₀, h₁.mirrors, h₁.owned, h₁.owners.trans h₀.owners, h₀.keeps.trans h₁.keeps⟩

theorem router_reassign (hact : s.act (.reassign source target key) = .ok s') :
    s'.router = s.router.displace source target key := by
  obtain ⟨handouts, router, hr, rfl⟩ := act_eq_ok hact
  cases hr
  rfl

-- Binding contacts concerns nothing else.
theorem rebind_eq_ok {contacts : List ContactId} (hact : s.act (.rebind contacts target) = .ok s') :
    s'.books = s.books ∧ s'.router.owners = s.router.owners ∧
      ∀ id, s'.router.bindings[id]? =
        if id ∈ contacts then some target else s.router.bindings[id]? := by
  obtain ⟨handouts, router, hr, rfl⟩ := act_eq_ok hact
  cases hr
  exact ⟨rfl, rfl, Router.getElem?_rebind _ _ _⟩

-- The target owns the channel of the source in place of its own, and the source none.
theorem owners_of_transfer {transfer : Router.Transfer}
    (howner : s.router.owners[source]? = some key) (hne : source ≠ target)
    (hs : s.perform (.transfer clock source target transfer) = .ok s') (other : ConsumerId) :
    s'.router.owners[other]? =
      if target = other then some key else if source = other then none
      else s.router.owners[other]? := by
  obtain ⟨s₀, s₁, s₂, s₃, replacing, hbystanders, htarget, hreassign, hsettle, hrebind⟩ :=
    transfer_eq_ok howner hne hs
  obtain ⟨_, hplay, -⟩ := play_router hsettle
  rw [(rebind_eq_ok hrebind).2.1, (Router.loosens_play Router.isCalm_settleActs hplay).owners,
    router_reassign hreassign, Router.getElem?_owners_displace,
    owners_of_play_cancels (s.router.cancels_cancelActs _ target) htarget,
    owners_of_play_cancels (s.router.cancels_cancelsOf _) hbystanders]

-- What becomes of the channel that changes hands concerns no other.
theorem books_settle_of_ne {replacing : Bool} {transfer : Router.Transfer}
    (hm : s.router.Mirrors s.books) (hne : other ≠ key)
    (hs : s.play (s.router.settleActs clock source key replacing transfer) = .ok s') :
    s'.books other = s.books other := by
  cases transfer with
  | cancelling =>
    exact (keeps_play hm (by simp [Router.settleActs, Act.Spares, Ne.symm hne]) hs).books
  | silent =>
    cases replacing with
    | false =>
      cases hs
      rfl
    | true =>
      have hact := play_singleton.mp hs
      obtain ⟨handouts, router, -, rfl⟩ := act_eq_ok hact
      exact amend_of_ne (Ne.symm hne)

-- With room for all of them, the same contacts are down on it, and only these may be freed.
theorem down_of_settle {replacing : Bool} {transfer : Router.Transfer}
    (hm : s.router.Mirrors s.books) (hk : s.books key = some k) (hlive : key ∈ s.router.channels)
    (hroom : k.channel.contacts.count ≤ k.channel.contacts.limit.toNat)
    (hs : s.play (s.router.settleActs clock source key replacing transfer) = .ok s') :
    s'.down key = s.down key ∧
      ∀ id, id ∉ s.down key → s'.router.bindings[id]? = s.router.bindings[id]? := by
  cases transfer with
  | cancelling =>
    obtain ⟨⟨k', hk', -, -, hcontacts⟩, hbindings⟩ := current_of_settle hm hk hlive hs
    refine ⟨?_, fun id hid => (hbindings id).trans (if_neg hid)⟩
    rw [down_of_books hk', down_of_books hk, ids_of_pressedBy hcontacts,
      List.take_of_length_le (by rwa [ContactTable.length_ids])]
  | silent =>
    cases replacing with
    | false =>
      cases hs
      exact ⟨rfl, fun _ _ => rfl⟩
    | true =>
      have hact := play_singleton.mp hs
      refine ⟨down_of_rests rfl (by simp [Act.Stirs]) hact, fun id _ => ?_⟩
      obtain ⟨handouts, router, hr, rfl⟩ := act_eq_ok hact
      exact congrArg (·[id]?) (Router.quiet_act rfl hr).2.1

-- After a transfer that cancels, the stream of the source begins anew, with as many of its
-- contacts as there is room for.
theorem contacts_of_transfer (hm : s.router.Mirrors s.books) (howned : s.router.Owned)
    (howner : s.router.owners[source]? = some key) (hne : source ≠ target)
    (hk : s.books key = some k)
    (hs : s.perform (.transfer clock source target .cancelling) = .ok s') :
    ∃ k', s'.books key = some k' ∧
      k'.Current ((s.router.entryClock clock source target).read
        ((k.channel.contacts.contacts.take k.channel.contacts.limit.toNat).length - 1)) ∧
      k'.channel.contacts.contacts =
        (pressedBy (s.router.entryClock clock source target) k.channel.contacts.contacts).take
          k.channel.contacts.limit.toNat := by
  obtain ⟨s₀, s₁, s₂, s₃, replacing, hbystanders, htarget, hreassign, hsettle, hrebind⟩ :=
    transfer_eq_ok howner hne hs
  have h₁ := (undisturbed_of_transfer hm howned howner hne hbystanders htarget).2
  have hproper : s₁.Proper (.reassign source target key) := ⟨h₁.owners ▸ howner, hne⟩
  obtain ⟨hk₂, hlive₂⟩ := books_reassign h₁.owned hproper (h₁.keeps.books.trans hk) hreassign
  obtain ⟨⟨k', hk', hcurrent, -, hcontacts⟩, -⟩ :=
    current_of_settle (mirrors_act h₁.mirrors hreassign) hk₂ hlive₂ hsettle
  rw [Chronicle.next_of_step (k := k) (e := .reassign target) rfl] at hcurrent hcontacts
  exact ⟨k', by rw [(rebind_eq_ok hrebind).1, hk'], hcurrent, hcontacts⟩

theorem current_of_transfer (hm : s.router.Mirrors s.books) (howned : s.router.Owned)
    (howner : s.router.owners[source]? = some key) (hne : source ≠ target)
    (hk : s.books key = some k)
    (hs : s.perform (.transfer clock source target .cancelling) = .ok s') :
    ∃ k', s'.books key = some k' ∧
      k'.Current ((s.router.entryClock clock source target).read
        ((k.channel.contacts.contacts.take k.channel.contacts.limit.toNat).length - 1)) ∧
      k'.channel.contacts.ids = k.channel.contacts.ids.take k.channel.contacts.limit.toNat := by
  obtain ⟨k', hk', hcurrent, hcontacts⟩ := contacts_of_transfer hm howned howner hne hk hs
  exact ⟨k', hk', hcurrent, ids_of_pressedBy hcontacts⟩

end Session

end TouchGestures
