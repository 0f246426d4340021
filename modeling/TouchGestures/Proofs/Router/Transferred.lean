import Mathlib.Data.List.Forall2
import TouchGestures.Proofs.Router.Down
import TouchGestures.Proofs.Router.Progress

namespace TouchGestures

open Channel (Chronicle)

namespace Contact

-- The same contact, whenever it is said to have come down.
structure Same (c d : Contact) : Prop where
  details : d.details = c.details
  place : d.place = c.place
  device : d.device = c.device

theorem same_refl (c : Contact) : c.Same c := ⟨rfl, rfl, rfl⟩

theorem same_pressedAt (c : Contact) (time : Time) : c.Same (c.pressedAt time) := ⟨rfl, rfl, rfl⟩

theorem forall₂_same_pressedBy (clock : Clock) (contacts : List Contact) :
    List.Forall₂ Same contacts (pressedBy clock contacts) := by
  induction contacts generalizing clock with
  | nil => exact .nil
  | cons c rest ih => exact .cons (c.same_pressedAt clock.now) (ih clock.rest)

-- Of contacts that are pressed anew as many are the same as there is room for.
theorem forall₂_same_take_iff {contacts : List Contact} {clock : Clock} {room : Nat} :
    List.Forall₂ Same contacts ((pressedBy clock contacts).take room) ↔
      contacts.length ≤ room := by
  have hall := (forall₂_same_pressedBy clock contacts).length_eq
  constructor
  · intro hsame
    have hlength := hsame.length_eq
    rw [List.length_take] at hlength
    omega
  · intro hroom
    rw [List.take_of_length_le (hall ▸ hroom)]
    exact forall₂_same_pressedBy clock contacts

end Contact

def Router.Transfer.carried (transfer : Transfer) (clock : Clock) (room : Nat)
    (contacts : List Contact) : List Contact :=
  match transfer with
  | .silent => contacts
  | .cancelling => (pressedBy clock contacts).take room

-- They are the same ones unless they are pressed anew and there is too little room.
theorem Router.Transfer.forall₂_same_carried_iff {transfer : Transfer} {clock : Clock} {room : Nat}
    {contacts : List Contact} :
    List.Forall₂ Contact.Same contacts (transfer.carried clock room contacts) ↔
      transfer = .silent ∨ contacts.length ≤ room := by
  cases transfer with
  | silent => simpa [carried, List.forall₂_same] using fun c _ => c.same_refl
  | cancelling => simpa [carried] using Contact.forall₂_same_take_iff

-- Where there is a channel to hand over, touches are handed over.
theorem Router.eq_true_of_transferTouches {r : Router} {clock : Clock} {source target : ConsumerId}
    {key : ChannelKey} {transfer : Transfer} {transferred : Bool} {result : List Notice × Router}
    (howner : r.owners[source]? = some key) (hne : source ≠ target)
    (h : r.transferTouches clock source target transfer = .ok (transferred, result)) :
    transferred = true := by
  simp only [transferTouches, howner, hne, decide_false, Option.isNone_some, Bool.false_and,
    Bool.or_false, Bool.false_eq_true, if_false] at h
  obtain ⟨bystanders, -, h⟩ := bind_eq_ok.mp h
  obtain ⟨parties, -, h⟩ := bind_eq_ok.mp h
  cases h
  rfl

-- What a transfer leaves behind: the source has nothing, the contacts that were bound to it
-- are bound to the target, and on all others nothing is down.
structure Router.HandsOver (r r' : Router) (source target : ConsumerId) : Prop where
  channel : r'.hasChannel source = false
  unbound : r'.boundTo source = []
  rebound : ∀ id ∈ r.boundTo source, r'.boundConsumer? id = some target
  others : ∀ {consumer : ConsumerId} {channel : Channel}, consumer ≠ target →
    r'.channel? consumer = some channel → channel.contacts.live = []

namespace Session

open Router (Act Op mem_channels_iff)

variable {s s' : Session} {key other : ChannelKey} {k : Chronicle}
  {source target consumer : ConsumerId} {transfer : Router.Transfer} {clock : Clock}

-- Once the contacts of a channel are cancelled, or if none is down, none is down on it
-- however many others are cancelled.
theorem down_of_cancels {acts : List Act} (hm : s.router.Mirrors s.books)
    (hlive : key ∈ s.router.channels)
    (hcancels : ∀ a ∈ acts, ∃ now consumer other, a = .cancelChannel now consumer other)
    (hkey : s.down key = [] ∨ ∃ now consumer, .cancelChannel now consumer key ∈ acts)
    (hs : s.play acts = .ok s') : s'.down key = [] := by
  induction acts generalizing s with
  | nil =>
    cases hs
    simpa using hkey
  | cons a rest ih =>
    obtain ⟨s₁, hact, hrest⟩ := bind_eq_ok.mp hs
    have hlater := fun b hb => hcancels b (List.mem_cons_of_mem a hb)
    obtain ⟨now, consumer, other, rfl⟩ := hcancels a List.mem_cons_self
    have hlive₁ : key ∈ s₁.router.channels := by
      obtain ⟨handouts, router, hr, rfl⟩ := act_eq_ok hact
      obtain ⟨result, hcancel, heq⟩ := map_eq_ok.mp hr
      cases heq
      exact (Router.mem_channels_cancelChannel hcancel).mpr hlive
    by_cases hother : other = key
    · subst hother
      obtain ⟨channel, hchannel⟩ := mem_channels_iff.mp hlive
      obtain ⟨k, hk, -⟩ := hm.book hchannel
      obtain ⟨⟨k₁, hk₁, hnil, -⟩, -⟩ := cancelled_of_act hm hk hlive hact
      refine ih (mirrors_act hm hact) hlive₁ hlater (.inl ?_) hrest
      rw [down_of_books hk₁, ContactTable.ids_eq_nil_iff, hnil]
    · have hspares : (Act.cancelChannel now consumer other).Spares key := hother
      have hkeeps := keeps_act hm hspares hact
      refine ih (mirrors_act hm hact) hlive₁ hlater ?_ hrest
      rw [down_congr hkeeps.books]
      refine hkey.imp_right fun ⟨now', consumer', hmem⟩ => ⟨now', consumer', ?_⟩
      exact (List.mem_cons.mp hmem).resolve_left fun heq => hother (by cases heq; rfl)

-- On the channel of a bystander nothing is down after a transfer.
theorem down_of_transfer (hm : s.router.Mirrors s.books) (howned : s.router.Owned)
    (howner : s.router.owners[source]? = some key) (hne : source ≠ target)
    (hs : s.perform (.transfer clock source target transfer) = .ok s')
    (hsource : consumer ≠ source) (htarget : consumer ≠ target)
    (hother : s.router.owners[consumer]? = some other) : s'.down other = [] := by
  obtain ⟨s₀, s₁, s₂, s₃, replacing, hbystanders, hcleared, hreassign, hsettle, hrebind⟩ :=
    transfer_eq_ok howner hne hs
  obtain ⟨h₀, h₁⟩ := undisturbed_of_transfer hm howned howner hne hbystanders hcleared
  have hmoving : other ≠ key := fun heq => hsource (howned.single hother (heq ▸ howner))
  have hmem : consumer ∈ s.router.consumersExcept [source, target] := by
    refine Router.mem_consumersExcept.mpr ⟨?_, by simp [hsource, htarget]⟩
    rw [Router.hasChannel_eq_isSome, hother, Option.isSome_some]
  rw [← clock.map_snd_stamp (s.router.consumersExcept [source, target])] at hmem
  obtain ⟨⟨now, consumer⟩, hvisit, rfl⟩ := List.mem_map.mp hmem
  have hacts : Act.cancelChannel now consumer other ∈
      s.router.cancelsOf (clock.stamp (s.router.consumersExcept [source, target])) :=
    Router.mem_cancelsOf.mpr ⟨_, hvisit, other, hother, rfl⟩
  have hdown₀ : s₀.down other = [] :=
    down_of_cancels hm (howned.live hother) (s.router.cancels_cancelsOf _)
      (.inr ⟨now, consumer, hacts⟩) hbystanders
  have hdown₁ : s₁.down other = [] :=
    down_of_cancels h₀.mirrors (h₀.owned.live (h₀.owners ▸ hother))
      (s.router.cancels_cancelActs _ target) (.inl hdown₀) hcleared
  have hdown₂ : s₂.down other = [] :=
    (down_congr (books_reassign_of_ne hmoving hreassign).1).trans hdown₁
  have hdown₃ : s₃.down other = [] :=
    (down_congr
      (books_settle_of_ne (mirrors_act h₁.mirrors hreassign) hmoving hsettle)).trans hdown₂
  exact (down_congr (congrFun (rebind_eq_ok hrebind).1 other)).trans hdown₃

-- What was bound to the source is bound to the target, and nothing else is bound to the source.
theorem bindings_of_transfer (howner : s.router.owners[source]? = some key)
    (hne : source ≠ target) (hs : s.perform (.transfer clock source target transfer) = .ok s') :
    (∀ id ∈ s.router.boundTo source, s'.router.boundConsumer? id = some target) ∧
      s'.router.boundTo source = [] := by
  obtain ⟨s₀, s₁, s₂, s₃, replacing, hbystanders, hcleared, hreassign, hsettle, hrebind⟩ :=
    transfer_eq_ok howner hne hs
  have hbindings := (rebind_eq_ok hrebind).2.2
  refine ⟨fun id hid => (hbindings id).trans (if_pos hid), ?_⟩
  obtain ⟨_, hplay₀, -⟩ := play_router hbystanders
  obtain ⟨_, hplay₁, -⟩ := play_router hcleared
  obtain ⟨_, hplay₃, -⟩ := play_router hsettle
  have hfirst : s.router.Loosens s₁.router :=
    (Router.loosens_play (Router.isCalm_of_cancels (s.router.cancels_cancelsOf _)) hplay₀).trans
      (Router.loosens_play (Router.isCalm_of_cancels (s.router.cancels_cancelActs _ target))
        hplay₁)
  have hlast := Router.loosens_play Router.isCalm_settleActs hplay₃
  refine List.eq_nil_iff_forall_not_mem.mpr fun id hid => ?_
  have hbound := Router.mem_boundTo.mp hid
  rw [hbindings] at hbound
  split at hbound
  · exact hne (Option.some.inj hbound).symm
  · next hnot =>
    have hbefore := hlast.bindings hbound
    rw [router_reassign hreassign, Router.bindings_displace] at hbefore
    exact hnot (Router.mem_boundTo.mpr (hfirst.bindings hbefore))

-- The contacts of the channel that changes hands.
theorem carried_of_transfer (hm : s.router.Mirrors s.books) (howned : s.router.Owned)
    (howner : s.router.owners[source]? = some key) (hne : source ≠ target)
    (hk : s.books key = some k)
    (hs : s.perform (.transfer clock source target transfer) = .ok s') :
    ∃ k', s'.books key = some k' ∧ k'.channel.contacts.contacts =
      transfer.carried (s.router.entryClock clock source target)
        k.channel.contacts.limit.toNat k.channel.contacts.contacts := by
  cases transfer with
  | cancelling =>
    obtain ⟨k', hk', -, hcontacts⟩ := contacts_of_transfer hm howned howner hne hk hs
    exact ⟨k', hk', hcontacts⟩
  | silent =>
    obtain ⟨s₀, s₁, s₂, s₃, replacing, hbystanders, hcleared, hreassign, hsettle, hrebind⟩ :=
      transfer_eq_ok howner hne hs
    have h₁ := (undisturbed_of_transfer hm howned howner hne hbystanders hcleared).2
    have hproper : s₁.Proper (.reassign source target key) := ⟨h₁.owners ▸ howner, hne⟩
    obtain ⟨hk₂, hlive₂⟩ := books_reassign h₁.owned hproper (h₁.keeps.books.trans hk) hreassign
    have hsame : (k.next (.reassign target)).channel.contacts = k.channel.contacts := by
      rw [Chronicle.next_of_step (k := k) (e := .reassign target) rfl]
      rfl
    rw [(rebind_eq_ok hrebind).1]
    cases replacing with
    | false =>
      cases hsettle
      exact ⟨_, hk₂, congrArg ContactTable.contacts hsame⟩
    | true =>
      obtain ⟨handouts, router, -, rfl⟩ := act_eq_ok (play_singleton.mp hsettle)
      refine ⟨(k.next (.reassign target)).next .forgetHistory, ?_, ?_⟩
      · simp [Router.record, Router.amend, hlive₂, hk₂]
      · have hrests : Channel.Rests (k.next (.reassign target)).channel
            ((k.next (.reassign target)).next .forgetHistory).channel :=
          Chronicle.rests_next rfl
        rw [hrests.contacts, hsame]
        rfl

theorem Reached.exists_transfer {permits : Session → Router.Op → Prop} (h : Reached permits s)
    (howner : s.router.owners[source]? = some key) (hne : source ≠ target) (clock : Clock)
    (transfer : Router.Transfer) :
    ∃ notices s', s.perform (.transfer clock source target transfer) = .ok s' ∧
      s.router.transferTouches clock source target transfer = .ok (true, notices, s'.router) := by
  obtain ⟨s', hs⟩ := exists_play h.mirrors (s.router.acts (.transfer clock source target transfer))
    fun id consumed nonBlocking consumer hmem => by cases Router.eq_of_mem_acts hmem rfl
  obtain ⟨notices, hr⟩ := perform_router hs
  obtain ⟨⟨transferred, result⟩, htransfer, rfl⟩ := map_eq_ok.mp hr
  obtain rfl := Router.eq_true_of_transferTouches howner hne htransfer
  exact ⟨_, s', hs, htransfer⟩

-- Between operations no contact is about to leave.
theorem Reached.live_eq {permits : Session → Op → Prop} {channel : Channel}
    (h : Reached permits s) (hlive : s.router.channels[key]? = some channel) :
    ∃ k, s.books key = some k ∧ k.channel = channel ∧
      channel.contacts.live = channel.contacts.contacts := by
  obtain ⟨k, hk, haccounts⟩ := h.mirrors.book hlive
  obtain rfl := haccounts.channel_eq hlive
  exact ⟨k, hk, rfl, ContactTable.live_of_leaving_eq_none haccounts.lived.sound.settled⟩

theorem Reached.handsOver {permits : Session → Op → Prop} (h : Reached permits s)
    (howner : s.router.owners[source]? = some key) (hne : source ≠ target)
    (hs : s.perform (.transfer clock source target transfer) = .ok s') :
    s.router.HandsOver s'.router source target := by
  have hreached : Reached (fun _ _ => True) s' := (h.mono fun _ _ _ => trivial).step trivial hs
  have howners := owners_of_transfer howner hne hs
  have hgone : s'.router.owners[source]? = none := by
    rw [howners, if_neg hne.symm, if_pos rfl]
  obtain ⟨hrebound, hunbound⟩ := bindings_of_transfer howner hne hs
  refine ⟨Router.hasChannel_eq_false_iff.mpr hgone, hunbound, hrebound,
    fun {consumer channel} htarget hchannel => ?_⟩
  obtain ⟨other, hother, hlive⟩ := Router.channel?_eq_some_iff.mp hchannel
  have hsource : consumer ≠ source := by
    rintro rfl
    rw [hgone] at hother
    cases hother
  rw [howners, if_neg htarget.symm, if_neg hsource.symm] at hother
  obtain ⟨k, hk, rfl, hdown⟩ := hreached.live_eq hlive
  have hnothing := down_of_transfer h.mirrors h.owned howner hne hs hsource htarget hother
  rw [down_of_books hk, ContactTable.ids_eq_nil_iff] at hnothing
  rw [hdown, hnothing]

-- A transfer from a consumer that has a channel to another one always succeeds. The target
-- has the channel then, on which are down the contacts that were, in their order. They are
-- all the same ones just if they are not pressed anew or there is room for all of them.
theorem Reached.contacts_iff_of_transfer {permits : Session → Op → Prop} {channel : Channel}
    (h : Reached permits s) (hchannel : s.router.channel? source = some channel)
    (hne : source ≠ target) (clock : Clock) (transfer : Router.Transfer) :
    ∃ notices router moved,
      s.router.transferTouches clock source target transfer = .ok (true, notices, router) ∧
      s.router.HandsOver router source target ∧
      router.channel? target = some moved ∧
      moved.contacts.live =
        transfer.carried (s.router.entryClock clock source target)
          channel.contacts.limit.toNat channel.contacts.live ∧
      (List.Forall₂ Contact.Same channel.contacts.live moved.contacts.live ↔
        transfer = .silent ∨ channel.contacts.live.length ≤ channel.contacts.limit.toNat) := by
  obtain ⟨key, howner, hlive⟩ := Router.channel?_eq_some_iff.mp hchannel
  obtain ⟨k, hk, rfl, hbefore⟩ := h.live_eq hlive
  obtain ⟨notices, s', hs, htransfer⟩ := h.exists_transfer howner hne clock transfer
  have hreached : Reached (fun _ _ => True) s' := (h.mono fun _ _ _ => trivial).step trivial hs
  have hmoved : s'.router.owners[target]? = some key :=
    (owners_of_transfer howner hne hs target).trans (if_pos rfl)
  obtain ⟨moved, hmovedLive⟩ := mem_channels_iff.mp (hreached.owned.live hmoved)
  obtain ⟨k', hk', rfl, hafter⟩ := hreached.live_eq hmovedLive
  have hdown : k'.channel.contacts.live =
      transfer.carried (s.router.entryClock clock source target)
        k.channel.contacts.limit.toNat k.channel.contacts.live := by
    obtain ⟨k₁, hk₁, hcarried⟩ := carried_of_transfer h.mirrors h.owned howner hne hk hs
    cases hk'.symm.trans hk₁
    rw [hafter, hbefore, hcarried]
  refine ⟨notices, s'.router, k'.channel, htransfer, h.handsOver howner hne hs,
    Router.channel?_eq_some_iff.mpr ⟨key, hmoved, hmovedLive⟩, hdown, ?_⟩
  rw [hdown]
  exact Router.Transfer.forall₂_same_carried_iff

-- Two fingers are down for one consumer when the settings come to allow only one.
def crowded : Session :=
  (((start 1).attempt (.touch (Channel.finger .pressed 1 10 0 1) 1)).attempt
    (.touch (Channel.finger .pressed 2 50 10 2) 1)).attempt
      (.configure { channel := { contactLimit := 1 } })

theorem reached_crowded : Reached (fun _ _ => True) crowded :=
  (((Reached.start {} ⟨1⟩).attempt trivial).attempt trivial).attempt trivial

def crowdedChannel : Channel := (crowded.router.channel? 1).getD (Channel.ofSettings 1 {})

theorem channel?_crowded : crowded.router.channel? 1 = some crowdedChannel := by
  have hsome : (crowded.router.channel? 1).isSome = true := by decide +kernel
  obtain ⟨channel, hchannel⟩ := Option.isSome_iff_exists.mp hsome
  rw [crowdedChannel, hchannel, Option.getD_some]

-- If the first consumer is told nothing, the second gets both.
theorem contacts_kept_of_crowded :
    Reached (fun _ _ => True) crowded ∧ crowdedChannel.contacts.live.map Contact.id = [1, 2] ∧
      crowdedChannel.contacts.limit = 1 ∧
      ∃ notices router moved,
        crowded.router.transferTouches (.still (Duration.milliseconds 20)) 1 2 .silent =
          .ok (true, notices, router) ∧
        crowded.router.HandsOver router 1 2 ∧ router.channel? 2 = some moved ∧
        List.Forall₂ Contact.Same crowdedChannel.contacts.live moved.contacts.live := by
  obtain ⟨notices, router, moved, htransfer, hhands, hmoved, -, hsame⟩ :=
    reached_crowded.contacts_iff_of_transfer channel?_crowded (show (1 : ConsumerId) ≠ 2 by decide)
      (.still (Duration.milliseconds 20)) .silent
  exact ⟨reached_crowded, by decide +kernel, by decide +kernel, notices, router, moved, htransfer,
    hhands, hmoved, hsame.mpr (.inl rfl)⟩

-- If the fingers are cancelled and pressed anew, the second one is not down any more, though
-- it is bound to the second consumer.
theorem contacts_lost_of_crowded :
    Reached (fun _ _ => True) crowded ∧ crowdedChannel.contacts.live.map Contact.id = [1, 2] ∧
      ((crowded.router.transferTouches (.still (Duration.milliseconds 20)) 1 2 .cancelling).map
        fun (transferred, _, router) => (transferred,
          (router.channel? 2).map fun channel => channel.contacts.live.map Contact.id,
          router.boundConsumer? 2)) = .ok (true, some [1], some 2) := by
  refine ⟨reached_crowded, ?_⟩
  decide +kernel

end Session

end TouchGestures
