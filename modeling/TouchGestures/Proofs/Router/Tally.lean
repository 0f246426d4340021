import TouchGestures.Proofs.Router.Down

namespace TouchGestures

open Channel (Chronicle)

namespace Router

variable {r r' : Router} {consumer : ConsumerId} {key : ChannelKey} {k : Chronicle}

theorem bindings_touch {t : Touch} {result : TouchResult}
    (hk : (r.obtain consumer).2.Accounts (r.obtain consumer).1 k)
    (hr : r.touch t consumer = .ok (result, r')) :
    r'.bindings =
      if k.accepts t then ((r.obtain consumer).2.bind t consumer).bindings
      else (r.obtain consumer).2.bindings := by
  obtain ⟨hnone, -, -⟩ | ⟨channel, channel', hlive, htouch, rfl⟩ := touch_cases hr
  · rw [hk.live] at hnone
    cases hnone
  · obtain rfl := hk.channel_eq hlive
    have haccepts : k.accepts t = result.accepted := by simp [Chronicle.accepts, htouch]
    rw [haccepts]
    split
    · unfold Router.bind
      split <;> rfl
    · rfl

theorem bindings_obtain (r : Router) (consumer : ConsumerId) :
    (r.obtain consumer).2.bindings = r.bindings := by
  unfold obtain
  split <;> rfl

end Router

namespace Session

open Router (Act Op mem_channels_iff)

variable {s s' : Session} {key : ChannelKey} {source target consumer : ConsumerId} {now : Time}
  {clock : Clock}

-- A contact is bound to the consumer on whose channel it is down.
def Tallied (s : Session) : Prop :=
  ∀ (id : ContactId) (consumer : ConsumerId), s.router.bindings[id]? = some consumer ↔
    ∃ key : ChannelKey, s.router.owners[consumer]? = some key ∧ id ∈ s.down key

-- There is room on every channel for what is down.
def Roomy (settings : Settings) (_ : ConsumerId) (k : Chronicle) : Prop :=
  k.channel.contacts.limit = settings.channel.contactLimit ∧
    k.channel.contacts.count ≤ settings.channel.contactLimit.toNat

theorem tallied_start (settings : Settings) (ids : EventIds) :
    Tallied { router := { settings, ids } } := by
  intro id consumer
  simp

theorem Tallied.congr (h : s.Tallied) (howners : s'.router.owners = s.router.owners)
    (hbindings : s'.router.bindings = s.router.bindings)
    (hdown : ∀ (consumer : ConsumerId) (key : ChannelKey), s.router.owners[consumer]? = some key →
      s'.down key = s.down key) : s'.Tallied := by
  intro id consumer
  rw [hbindings, howners, h id consumer]
  exact exists_congr fun key => and_congr_right fun howner => by rw [hdown consumer key howner]

-- A step that concerns but one contact.
theorem Tallied.of_contact {contact : ContactId} (h : s.Tallied)
    (howners : s'.router.owners = s.router.owners)
    (hbindings : ∀ id, id ≠ contact → s'.router.bindings[id]? = s.router.bindings[id]?)
    (hdown : ∀ id, id ≠ contact → (id ∈ s'.down key ↔ id ∈ s.down key))
    (hothers : ∀ other, other ≠ key → s'.down other = s.down other)
    (hcontact : ∀ consumer : ConsumerId, s'.router.bindings[contact]? = some consumer ↔
      ∃ key : ChannelKey, s.router.owners[consumer]? = some key ∧ contact ∈ s'.down key) :
    s'.Tallied := by
  intro id consumer
  rw [howners]
  by_cases hid : id = contact
  · subst hid
    exact hcontact consumer
  · rw [hbindings id hid, h id consumer]
    refine exists_congr fun key' => and_congr_right fun _ => ?_
    by_cases hkey : key' = key
    · rw [hkey, hdown id hid]
    · rw [hothers key' hkey]

-- A touch that a channel takes in keeps the count if it is sent where its contact belongs.
theorem Tallied.bind {t : Touch} (h : s.Tallied) (howned : s.router.Owned)
    (howners : s'.router.owners = s.router.owners)
    (howner : s.router.owners[consumer]? = some key)
    (hloyal : s.router.bindings[t.contact.id]? = if t.kind = .pressed then none else some consumer)
    (hbindings : s'.router.bindings = (s.router.bind t consumer).bindings)
    (hdown : s'.down key = ContactTable.idsAfter (s.down key) t)
    (hothers : ∀ other, other ≠ key → s'.down other = s.down other)
    (hnodup : (s.down key).Nodup) : s'.Tallied := by
  have hkept : ∀ {other : ConsumerId} {key' : ChannelKey}, other ≠ consumer →
      s.router.owners[other]? = some key' → s'.down key' = s.down key' := by
    intro other key' hne howner'
    exact hothers key' fun heq => hne (howned.single howner' (heq ▸ howner))
  unfold ContactTable.idsAfter at hdown
  unfold Router.bind at hbindings
  cases hkind : t.kind with
  | moved =>
    rw [hkind] at hbindings hdown
    refine h.congr howners hbindings fun other key' _ => ?_
    by_cases hkey : key' = key
    · rw [hkey, hdown]
    · exact hothers key' hkey
  | pressed =>
    rw [hkind] at hbindings hdown
    rw [hkind, if_pos rfl] at hloyal
    have hget : ∀ id, s'.router.bindings[id]? =
        if t.contact.id = id then some consumer else s.router.bindings[id]? := by
      simp [hbindings, Std.ExtTreeMap.getElem?_insert]
    refine h.of_contact howners (fun id (hid : id ≠ t.contact.id) => ?_) (fun id hid => ?_) hothers
      fun other => ?_
    · rw [hget, if_neg (Ne.symm hid)]
    · simp [hdown, hid]
    · rw [hget, if_pos rfl, Option.some.injEq]
      constructor
      · rintro rfl
        exact ⟨key, howner, by simp [hdown]⟩
      · rintro ⟨key', howner', hmem⟩
        by_contra hne
        rw [hkept (Ne.symm hne) howner'] at hmem
        rw [(h _ _).mpr ⟨key', howner', hmem⟩] at hloyal
        cases hloyal
  | released | cancelled =>
    rw [hkind] at hbindings hdown
    rw [hkind, if_neg (by simp)] at hloyal
    have hget : ∀ id, s'.router.bindings[id]? =
        if t.contact.id = id then none else s.router.bindings[id]? := by
      simp [hbindings, Std.ExtTreeMap.getElem?_erase]
    refine h.of_contact howners (fun id (hid : id ≠ t.contact.id) => ?_) (fun id hid => ?_) hothers
      fun other => ?_
    · rw [hget, if_neg (Ne.symm hid)]
    · rw [hdown]
      exact List.mem_erase_of_ne hid
    · rw [hget, if_pos rfl]
      refine iff_of_false (by simp) ?_
      rintro ⟨key', howner', hmem⟩
      by_cases hother : other = consumer
      · rw [hother, howner, Option.some.injEq] at howner'
        rw [← howner', hdown] at hmem
        exact hnodup.not_mem_erase hmem
      · rw [hkept hother howner'] at hmem
        rw [(h _ _).mpr ⟨key', howner', hmem⟩, Option.some.injEq] at hloyal
        exact hother hloyal

theorem Tallied.withChannel (h : s.Tallied) (hm : s.router.Mirrors s.books)
    (howned : s.router.Owned) : (s.withChannel consumer).Tallied := by
  cases howner : s.router.owners[consumer]? with
  | some key =>
    obtain ⟨hobtain, henroll⟩ := Router.obtain_of_some howner s.books
    have hsame : s.withChannel consumer = s := by simp [Session.withChannel, hobtain, henroll]
    rwa [hsame]
  | none =>
    obtain ⟨-, henroll⟩ := Router.obtain_of_none howner s.books
    have hfirst : (s.router.obtain consumer).1 = s.router.nextKey := by
      simp [Router.obtain, howner]
    have hnew : (s.withChannel consumer).down s.router.nextKey = [] := by
      simp only [Session.down, Session.withChannel, henroll, if_true]
      rfl
    have howners : ∀ other : ConsumerId, (s.withChannel consumer).router.owners[other]? =
        if consumer = other then some s.router.nextKey else s.router.owners[other]? := by
      intro other
      rw [← hfirst]
      exact Router.getElem?_owners_obtain other
    intro id other
    have hbound : (s.withChannel consumer).router.bindings[id]? = s.router.bindings[id]? :=
      congrArg (·[id]?) (Router.bindings_obtain s.router consumer)
    rw [hbound, howners, h id other]
    refine exists_congr fun key => ?_
    by_cases hother : consumer = other
    · subst hother
      rw [if_pos rfl, howner]
      refine iff_of_false (by simp) ?_
      rintro ⟨hkey, hmem⟩
      rw [← Option.some.inj hkey, hnew] at hmem
      cases hmem
    · rw [if_neg hother]
      refine and_congr_right fun howner' => ?_
      rw [down_congr (books_withChannel hm (howned.live howner'))]

theorem Tallied.touch {t : Touch} (h : s.Tallied) (hm : s.router.Mirrors s.books)
    (howned : s.router.Owned)
    (hloyal : s.router.bindings[t.contact.id]? = if t.kind = .pressed then none else some consumer)
    (hact : s.act (.touch t consumer) = .ok s') : s'.Tallied := by
  have howned' : (s.withChannel consumer).router.Owned := howned.obtain hm.nextKey_notMem
  have htallied : (s.withChannel consumer).Tallied := h.withChannel hm howned
  obtain ⟨⟨k, haccounts, hk, hk'⟩, hothers⟩ := books_touch hm howned hact
  obtain ⟨result, htouch⟩ := touch_of_act hact
  have howners : s'.router.owners = (s.withChannel consumer).router.owners :=
    Router.owners_touch htouch
  have hbindings : s'.router.bindings = if k.accepts t then
      ((s.withChannel consumer).router.bind t consumer).bindings
      else (s.withChannel consumer).router.bindings :=
    Router.bindings_touch haccounts htouch
  cases haccepts : k.accepts t with
  | false =>
    rw [haccepts, if_neg (by simp)] at hbindings
    refine htallied.congr howners hbindings fun other key _ => ?_
    by_cases hkey : key = (s.router.obtain consumer).1
    · rw [hkey, down_of_books hk', down_of_books hk,
        Chronicle.channel_of_not_accepts haccounts.lived.sound haccepts]
    · exact down_congr (hothers key hkey)
  | true =>
    rw [haccepts, if_pos rfl] at hbindings
    obtain ⟨contacts, htakes⟩ := Chronicle.exists_takes haccounts.lived.sound haccepts
    refine htallied.bind howned' howners (owner_withChannel s consumer) ?_ hbindings ?_
      (fun other hne => down_congr (hothers other hne)) (nodup_down hm.obtain)
    · exact (congrArg (·[t.contact.id]?) (Router.bindings_obtain s.router consumer)).trans hloyal
    · rw [down_of_books hk', down_of_books hk, htakes.contacts,
        ContactTable.ids_accept? haccounts.lived.sound.settled htakes.accept]

theorem Tallied.cancelChannel (h : s.Tallied) (hm : s.router.Mirrors s.books)
    (howned : s.router.Owned) (hact : s.act (.cancelChannel now consumer key) = .ok s') :
    s'.Tallied := by
  have howners : s'.router.owners = s.router.owners := by
    obtain ⟨handouts, router, hr, rfl⟩ := act_eq_ok hact
    exact Router.owners_of_act_cancelChannel hr
  have hothers : ∀ other, other ≠ key → s'.down other = s.down other := by
    intro other hne
    have hspares : (Act.cancelChannel now consumer key).Spares other := Ne.symm hne
    exact down_congr (keeps_act hm hspares hact).books
  by_cases hlive : key ∈ s.router.channels
  · obtain ⟨owner, howner⟩ := howned.owned hlive
    obtain ⟨channel, hchannel⟩ := mem_channels_iff.mp hlive
    obtain ⟨k, hk, -⟩ := hm.book hchannel
    obtain ⟨⟨k', hk', hnil, -⟩, hbindings⟩ := cancelled_of_act hm hk hlive hact
    have hempty : s'.down key = [] := by
      rw [down_of_books hk', ContactTable.ids_eq_nil_iff, hnil]
    intro id other
    rw [hbindings, howners]
    by_cases hmem : id ∈ s.down key
    · rw [if_pos hmem]
      refine iff_of_false (by simp) ?_
      rintro ⟨key', howner', hmem'⟩
      have hne : key' ≠ key := by
        rintro rfl
        rw [hempty] at hmem'
        cases hmem'
      rw [hothers key' hne] at hmem'
      have hfirst := (h id owner).mpr ⟨key, howner, hmem⟩
      rw [(h id other).mpr ⟨key', howner', hmem'⟩, Option.some.injEq] at hfirst
      rw [hfirst, howner, Option.some.injEq] at howner'
      exact hne howner'.symm
    · rw [if_neg hmem, h id other]
      refine exists_congr fun key' => and_congr_right fun _ => ?_
      by_cases hkey : key' = key
      · subst hkey
        rw [hempty]
        exact iff_of_false hmem (List.not_mem_nil)
      · rw [hothers key' hkey]
  · have hnone : s.router.channels[key]? = none := by
      rw [← Option.not_isSome_iff_eq_none, ← Std.ExtTreeMap.mem_iff_isSome_getElem?]
      exact hlive
    refine h.congr howners ?_ fun other key' howner' => hothers key' ?_
    · obtain ⟨handouts, router, hr, rfl⟩ := act_eq_ok hact
      obtain ⟨result, hcancel, heq⟩ := map_eq_ok.mp hr
      cases heq
      simp only [Router.cancelChannel, hnone] at hcancel
      cases hcancel
      rfl
    · rintro rfl
      exact hlive (howned.live howner')

-- A step that changes neither owners nor bindings nor what is down.
theorem Tallied.quiet {a : Act} (h : s.Tallied) (hquiet : a.isQuiet = true)
    (hlocal : a.isLocal = true) (hstirs : ∀ key, ¬a.Stirs key) (hact : s.act a = .ok s') :
    s'.Tallied := by
  have hdown := fun key => down_of_rests hlocal (hstirs key) hact
  obtain ⟨handouts, router, hr, rfl⟩ := act_eq_ok hact
  obtain ⟨howners, hbindings, -⟩ := Router.quiet_act hquiet hr
  exact h.congr howners hbindings fun _ key _ => hdown key

theorem Tallied.configure {settings : Settings} (h : s.Tallied)
    (hact : s.act (.configure settings) = .ok s') : s'.Tallied := by
  obtain ⟨handouts, router, hr, rfl⟩ := act_eq_ok hact
  cases hr
  refine h.congr rfl rfl fun other key _ => ?_
  simp only [down, Router.record]
  split
  · cases s.books key with
    | none => rfl
    | some k =>
      simp only [Option.map_some, Option.getD_some]
      rw [Chronicle.next_of_step (k := k) (e := .configure settings.channel) rfl]
      rfl
  · rfl

theorem Tallied.forget {forgotten : ConsumerId} (h : s.Tallied)
    (hact : s.act (.forget forgotten) = .ok s') : s'.Tallied := by
  obtain ⟨handouts, router, hr, rfl⟩ := act_eq_ok hact
  cases hr
  intro id consumer
  have hbindings : (s.router.forget forgotten).2.bindings[id]? = some consumer ↔
      s.router.bindings[id]? = some consumer ∧ consumer ≠ forgotten := by
    unfold Router.forget
    simp only []
    split <;> simp [Router.removeChannel, Option.filter_eq_some_iff]
  dsimp only
  rw [hbindings, h id consumer]
  constructor
  · rintro ⟨⟨key, howner, hmem⟩, hne⟩
    exact ⟨key, Router.owner_forget_iff.mpr ⟨howner, hne⟩, hmem⟩
  · rintro ⟨key, howner, hmem⟩
    obtain ⟨howner, hne⟩ := Router.owner_forget_iff.mp howner
    exact ⟨⟨key, howner, hmem⟩, hne⟩

theorem Tallied.cancels {acts : List Act} (h : s.Tallied) (hm : s.router.Mirrors s.books)
    (howned : s.router.Owned)
    (hcancels : ∀ a ∈ acts, ∃ now consumer key, a = .cancelChannel now consumer key)
    (hs : s.play acts = .ok s') : s'.Tallied := by
  induction acts generalizing s with
  | nil =>
    cases hs
    exact h
  | cons a rest ih =>
    obtain ⟨s₁, hact, hrest⟩ := bind_eq_ok.mp hs
    have hfirst := play_singleton.mpr hact
    have howned₁ := owned_play_cancels howned hm
      (fun b hb => hcancels b (List.mem_singleton.mp hb ▸ List.mem_cons_self)) hfirst
    obtain ⟨now, consumer, key, rfl⟩ := hcancels a List.mem_cons_self
    exact ih (h.cancelChannel hm howned hact) (mirrors_act hm hact) howned₁
      (fun b hb => hcancels b (List.mem_cons_of_mem _ hb)) hrest

theorem Tallied.bound (h : s.Tallied) : s.router.Bound := by
  intro id consumer hbound
  obtain ⟨key, howner, -⟩ := (h id consumer).mp hbound
  exact ⟨key, howner⟩

-- Nothing is down on the channel of a consumer whose contacts were cancelled.
theorem down_of_cancelActs {s₀ : Session} (hm : s.router.Mirrors s.books) (howned : s.router.Owned)
    (howners : s.router.owners = s₀.router.owners)
    (hs : s.play (s₀.router.cancelActs now consumer) = .ok s')
    (howner : s₀.router.owners[consumer]? = some key) : s'.down key = [] := by
  rw [Router.cancelActs, howner] at hs
  have hact := play_singleton.mp hs
  have hlive := howned.live (howners ▸ howner)
  obtain ⟨channel, hchannel⟩ := mem_channels_iff.mp hlive
  obtain ⟨k, hk, -⟩ := hm.book hchannel
  obtain ⟨⟨k', hk', hnil, -⟩, -⟩ := cancelled_of_act hm hk hlive hact
  rw [down_of_books hk', ContactTable.ids_eq_nil_iff, hnil]

-- Nobody else has a contact down on the channel that changes hands, and nobody a contact
-- that was down on the channel in whose place it comes.
theorem Tallied.handOver {s₁ : Session} {moving : ChannelKey} (h : s.Tallied)
    (howned : s.router.Owned) (hsource : s.router.owners[source]? = some moving)
    (htarget : ∀ key : ChannelKey, s.router.owners[target]? = some key → s.down key = [])
    (howners : ∀ other : ConsumerId, s₁.router.owners[other]? =
      if target = other then some moving else if source = other then none
      else s.router.owners[other]?)
    (hmoving : s₁.down moving = s.down moving)
    (hothers : ∀ other, other ≠ moving → s₁.down other = s.down other)
    (hbindings : ∀ id, s₁.router.bindings[id]? =
      if id ∈ s.down moving then some target else s.router.bindings[id]?) : s₁.Tallied := by
  intro id consumer
  rw [hbindings, howners]
  by_cases hmem : id ∈ s.down moving
  · rw [if_pos hmem, Option.some.injEq]
    constructor
    · rintro rfl
      exact ⟨moving, if_pos rfl, hmoving ▸ hmem⟩
    · rintro ⟨key, howner, hdown⟩
      by_contra hconsumer
      rw [if_neg hconsumer] at howner
      split at howner
      · cases howner
      · next hother =>
        have hkey : key ≠ moving := by
          rintro rfl
          exact hother (howned.single hsource howner)
        rw [hothers key hkey] at hdown
        have hbound := (h id source).mpr ⟨moving, hsource, hmem⟩
        rw [(h id consumer).mpr ⟨key, howner, hdown⟩, Option.some.injEq] at hbound
        exact hother hbound.symm
  · rw [if_neg hmem, h id consumer]
    refine exists_congr fun key => ?_
    by_cases hconsumer : target = consumer
    · subst hconsumer
      rw [if_pos rfl]
      constructor
      · rintro ⟨howner, hdown⟩
        rw [htarget key howner] at hdown
        cases hdown
      · rintro ⟨hkey, hdown⟩
        rw [← Option.some.inj hkey, hmoving] at hdown
        exact absurd hdown hmem
    · rw [if_neg hconsumer]
      by_cases hother : source = consumer
      · subst hother
        rw [if_pos rfl, hsource]
        refine iff_of_false ?_ (by simp)
        rintro ⟨hkey, hdown⟩
        rw [← Option.some.inj hkey] at hdown
        exact hmem hdown
      · rw [if_neg hother]
        refine and_congr_right fun howner => ?_
        have hkey : key ≠ moving := by
          rintro rfl
          exact hother (howned.single hsource howner)
        rw [hothers key hkey]

-- The contacts of the source stay down on the channel that changes hands, if there is room.
theorem down_of_moved {s₂ s₃ : Session} {k : Chronicle} {moving : ChannelKey} {replacing : Bool}
    {transfer : Router.Transfer} (hm : s.router.Mirrors s.books) (howned : s.router.Owned)
    (hsource : s.router.owners[source]? = some moving) (hne : source ≠ target)
    (hk : s.books moving = some k)
    (hroom : k.channel.contacts.count ≤ k.channel.contacts.limit.toNat)
    (hreassign : s.act (.reassign source target moving) = .ok s₂)
    (hsettle : s₂.play (s₂.router.settleActs clock source moving replacing transfer) = .ok s₃) :
    s₃.down moving = s.down moving ∧ (∀ other, other ≠ moving → s₃.down other = s.down other) ∧
      ∀ id, id ∉ s.down moving → s₃.router.bindings[id]? = s.router.bindings[id]? := by
  have hproper : s.Proper (.reassign source target moving) := ⟨hsource, hne⟩
  obtain ⟨hk₂, hlive₂⟩ := books_reassign howned hproper hk hreassign
  have hm₂ := mirrors_act hm hreassign
  have hreassigned := Chronicle.next_of_step (k := k) (e := .reassign target) rfl
  have hdown₂ : s₂.down moving = s.down moving := by
    rw [down_of_books hk₂, down_of_books hk, hreassigned]
    rfl
  obtain ⟨hdown₃, hbindings₃⟩ :=
    down_of_settle hm₂ hk₂ hlive₂ (by rw [hreassigned]; exact hroom) hsettle
  refine ⟨hdown₃.trans hdown₂, fun other hother => ?_, fun id hid => ?_⟩
  · rw [down_congr (books_settle_of_ne hm₂ hother hsettle),
      down_congr (books_reassign_of_ne hother hreassign).1]
  · rw [hbindings₃ id (hdown₂ ▸ hid), router_reassign hreassign, Router.bindings_displace]

theorem Tallied.transfer {transfer : Router.Transfer} (h : s.Tallied)
    (hm : s.router.Mirrors s.books) (howned : s.router.Owned) (hroomy : s.Everywhere Roomy)
    (hs : s.perform (.transfer clock source target transfer) = .ok s') : s'.Tallied := by
  by_cases hne : source = target
  · simp only [perform, Router.acts, Router.transferActs, hne, decide_true, Bool.true_or,
      if_true] at hs
    cases hs
    exact h
  cases hsource : s.router.owners[source]? with
  | none =>
    simp only [perform, Router.acts, Router.transferActs, hsource,
      h.bound.boundTo_eq_nil hsource, Option.isNone_none, List.isEmpty_nil, Bool.and_true,
      Bool.or_true, if_true] at hs
    cases hs
    exact h
  | some moving =>
    obtain ⟨s₀, s₁, s₂, s₃, replacing, hbystanders, htarget, hreassign, hsettle, hrebind⟩ :=
      transfer_eq_ok hsource hne hs
    obtain ⟨h₀, h₁⟩ := undisturbed_of_transfer hm howned hsource hne hbystanders htarget
    have htallied₀ := h.cancels hm howned (s.router.cancels_cancelsOf _) hbystanders
    have htallied₁ := htallied₀.cancels h₀.mirrors h₀.owned
      (s.router.cancels_cancelActs _ target) htarget
    have hsource₁ : s₁.router.owners[source]? = some moving := h₁.owners ▸ hsource
    have hempty : ∀ key : ChannelKey, s₁.router.owners[target]? = some key → s₁.down key = [] :=
      fun key howner => down_of_cancelActs h₀.mirrors h₀.owned h₀.owners htarget
        (h₁.owners ▸ howner)
    obtain ⟨channel, hchannel⟩ := mem_channels_iff.mp (howned.live hsource)
    obtain ⟨k, hk, -⟩ := hm.book hchannel
    obtain ⟨hlimit, hcount⟩ := hroomy source moving k hsource hk
    obtain ⟨hdown, hothers, hfreed⟩ := down_of_moved h₁.mirrors h₁.owned hsource₁ hne
      (h₁.keeps.books.trans hk) (hlimit ▸ hcount) hreassign hsettle
    obtain ⟨hbooks, -, hbindings⟩ := rebind_eq_ok hrebind
    have howners := owners_of_transfer hsource hne hs
    rw [← h₁.owners] at howners
    refine htallied₁.handOver h₁.owned hsource₁ hempty howners
      ((down_congr (congrFun hbooks _)).trans hdown)
      (fun other hother => (down_congr (congrFun hbooks _)).trans (hothers other hother))
      fun id => ?_
    have hbound : id ∈ s.router.boundTo source ↔ id ∈ s₁.down moving := by
      rw [Router.mem_boundTo, h id source, down_congr h₁.keeps.books, hsource]
      simp
    rw [hbindings, if_congr hbound rfl rfl]
    split
    · rfl
    · next hid => exact hfreed id hid

-- A host that presses only contacts that are bound to nobody, and sends all other touches to
-- the consumer to whom the contact is bound. It never lowers the limit on contacts.
def Loyal (s : Session) : Op → Prop
  | .touch t consumer =>
    s.router.boundConsumer? t.contact.id = if t.kind = .pressed then none else some consumer
  | .configure settings =>
    s.router.settings.channel.contactLimit ≤ settings.channel.contactLimit
  | _ => True

instance (s : Session) (op : Op) : Decidable (s.Loyal op) :=
  match op with
  | .touch t consumer => inferInstanceAs (Decidable
      (s.router.boundConsumer? t.contact.id = if t.kind = .pressed then none else some consumer))
  | .configure settings => inferInstanceAs (Decidable
      (s.router.settings.channel.contactLimit ≤ settings.channel.contactLimit))
  | .ack .. | .cancel .. | .cancelOn .. | .cancelExcept .. | .transfer .. | .forget _ | .tick _
  | .addHelper _ | .removeHelper _ | .setIds _ => isTrue trivial

theorem lasting_roomy : Lasting Roomy where
  opened := fun settings consumer => ⟨rfl, Nat.zero_le _⟩
  evolves := by
    intro settings consumer k k' hlived hevolves ⟨hlimit, hcount⟩
    obtain ⟨-, hlimit', hcount'⟩ := hevolves.fixed hlived
    exact ⟨hlimit'.trans hlimit, hlimit ▸ hcount' (hlimit ▸ hcount)⟩
  reassigned := by
    intro settings source target k hroomy
    rw [Chronicle.next_of_step (k := k) (e := .reassign target) rfl]
    exact hroomy

theorem Roomy.configure {settings settings' : Settings} {k : Chronicle}
    (h : Roomy settings consumer k)
    (hle : settings.channel.contactLimit ≤ settings'.channel.contactLimit) :
    Roomy settings' consumer (k.next (.configure settings'.channel)) := by
  rw [Chronicle.next_of_step (k := k) (e := .configure settings'.channel) rfl]
  exact ⟨rfl, Nat.le_trans h.2 (UInt64.le_iff_toNat_le.mp hle)⟩

theorem everywhere_roomy_of_perform {op : Op} (h : s.Everywhere Roomy)
    (hm : s.router.Mirrors s.books) (howned : s.router.Owned) (hop : s.Loyal op)
    (hs : s.perform op = .ok s') : s'.Everywhere Roomy := by
  by_cases hconfigure : ∃ settings, op = .configure settings
  · obtain ⟨settings, rfl⟩ := hconfigure
    have hact := play_singleton.mp hs
    exact h.configure (fun hroomy => hroomy.configure hop) howned hact
  · refine (play_acts_induction (P := fun s => s.router.Owned ∧ s.Everywhere Roomy) hm
      ⟨howned, h⟩ ?_ hs).2
    intro s₁ s₂ a ha hm₁ hgranted hs₁ hact
    refine ⟨?_, hs₁.2.act lasting_roomy (fun settings heq => ?_) hm₁ hs₁.1 hgranted hact⟩
    · obtain ⟨handouts, router, hr, rfl⟩ := act_eq_ok hact
      exact owned_act hs₁.1 hm₁ hgranted hr
    · exact absurd ⟨settings, Router.eq_of_mem_acts ha (heq ▸ rfl)⟩ hconfigure

theorem Tallied.perform {op : Op} (h : s.Tallied) (hm : s.router.Mirrors s.books)
    (howned : s.router.Owned) (hroomy : s.Everywhere Roomy) (hop : s.Loyal op)
    (hs : s.perform op = .ok s') : s'.Tallied := by
  have hquiet : (∀ a ∈ s.router.acts op, a.isQuiet = true ∧ a.isLocal = true ∧
      ∀ key, ¬a.Stirs key) → s'.Tallied := by
    intro hacts
    refine play_induction (P := Tallied) h (fun s₁ s₂ a ha h₁ hact => ?_) hs
    obtain ⟨hquiet, hlocal, hstirs⟩ := hacts a ha
    exact h₁.quiet hquiet hlocal hstirs hact
  cases op with
  | touch t consumer =>
    have hact := play_singleton.mp hs
    exact h.touch hm howned hop hact
  | cancel now consumer => exact h.cancels hm howned (Router.cancels_cancelActs _ _ _) hs
  | cancelOn clock consumers =>
    exact h.cancels hm howned (Router.cancels_cancelEachActs _ _ _) hs
  | cancelExcept clock spared =>
    exact h.cancels hm howned (Router.cancels_cancelEachActs _ _ _) hs
  | transfer clock source target transfer => exact h.transfer hm howned hroomy hs
  | forget consumer =>
    have hact := play_singleton.mp hs
    exact h.forget hact
  | configure settings =>
    have hact := play_singleton.mp hs
    exact h.configure hact
  | tick now =>
    refine hquiet fun a ha => ?_
    obtain ⟨key, -, rfl⟩ := List.mem_map.mp ha
    exact ⟨rfl, rfl, fun _ => id⟩
  | ack | addHelper | removeHelper | setIds =>
    refine hquiet fun a ha => ?_
    rw [List.mem_singleton.mp ha]
    exact ⟨rfl, rfl, fun _ => id⟩

theorem Reached.tallied (h : Reached Loyal s) : s.Tallied := by
  refine And.right (a := s.Everywhere Roomy) ?_
  induction h with
  | start settings ids => exact ⟨everywhere_start settings ids, tallied_start settings ids⟩
  | step h hop hs ih =>
    exact ⟨everywhere_roomy_of_perform ih.1 h.mirrors h.owned hop hs,
      ih.2.perform h.mirrors h.owned ih.1 hop hs⟩

def HasDown (s : Session) (consumer : ConsumerId) (id : ContactId) : Prop :=
  ∃ channel, s.router.channel? consumer = some channel ∧
    ∃ contact ∈ channel.contacts.live, contact.id = id

theorem hasDown_iff (hm : s.router.Mirrors s.books) (howned : s.router.Owned) {id : ContactId} :
    s.HasDown consumer id ↔
      ∃ key : ChannelKey, s.router.owners[consumer]? = some key ∧ id ∈ s.down key := by
  have hkey : ∀ {key : ChannelKey} {channel : Channel}, s.router.channels[key]? = some channel →
      (id ∈ s.down key ↔ ∃ contact ∈ channel.contacts.live, contact.id = id) := by
    intro key channel hchannel
    obtain ⟨k, hk, haccounts⟩ := hm.book hchannel
    obtain rfl := haccounts.channel_eq hchannel
    rw [down_of_books hk, ContactTable.mem_ids_iff_live haccounts.lived.sound.settled]
  constructor
  · rintro ⟨channel, hchannel, hlive⟩
    obtain ⟨key, howner, hchannel⟩ := Router.channel?_eq_some_iff.mp hchannel
    exact ⟨key, howner, (hkey hchannel).mpr hlive⟩
  · rintro ⟨key, howner, hmem⟩
    obtain ⟨channel, hchannel⟩ := mem_channels_iff.mp (howned.live howner)
    exact ⟨channel, Router.channel?_eq_some_iff.mpr ⟨key, howner, hchannel⟩,
      (hkey hchannel).mp hmem⟩

-- Whatever a loyal host does, a contact is bound to a consumer just while it is down on the
-- consumer's channel, and it is down on no other.
theorem Reached.boundConsumer?_eq_some_iff (h : Reached Loyal s) (id : ContactId)
    (consumer : ConsumerId) :
    (s.router.boundConsumer? id = some consumer ↔ s.HasDown consumer id) ∧
      (s.HasDown consumer id → ∀ other, s.HasDown other id → other = consumer) := by
  have hiff : ∀ consumer, s.router.boundConsumer? id = some consumer ↔ s.HasDown consumer id :=
    fun consumer => (h.tallied id consumer).trans (hasDown_iff h.mirrors h.owned).symm
  refine ⟨hiff consumer, fun hdown other hother => ?_⟩
  have hbound := (hiff consumer).mpr hdown
  rw [(hiff other).mpr hother] at hbound
  exact Option.some.inj hbound

-- Two consumers are touched, and the first one's stream goes to a third.
def passedOn : Session :=
  (((start 9).attempt (.touch (Channel.finger .pressed 1 10 0 1) 1)).attempt
    (.touch (Channel.finger .pressed 2 10 0 2) 2)).attempt (.transfer (.still 30) 1 3 .cancelling)

-- The second is touched again. Then there is room for more, and its stream takes the place
-- of the other.
def gathered : Session :=
  ((passedOn.attempt (.touch (Channel.finger .pressed 4 10 20 3) 2)).attempt
    (.configure { channel := { contactLimit := 20 } })).attempt (.transfer (.still 40) 2 3 .silent)

theorem reached_gathered : Reached Loyal gathered := by
  have hpassedOn : Reached Loyal passedOn :=
    (((Reached.start {} ⟨9⟩).attempt (by decide +kernel)).attempt (by decide +kernel)).attempt
      trivial
  exact ((hpassedOn.attempt (by decide +kernel)).attempt (by decide +kernel)).attempt trivial

theorem boundConsumer?_gathered :
    Reached Loyal gathered ∧
      (gathered.router.boundConsumer? 4 = some 3 ↔ gathered.HasDown 3 4) ∧
      (gathered.HasDown 3 4 → ∀ other, gathered.HasDown other 4 → other = 3) ∧
      passedOn.router.bindings.toList = [(1, 3)] ∧ gathered.router.bindings.toList = [(4, 3)] := by
  obtain ⟨hiff, honly⟩ := reached_gathered.boundConsumer?_eq_some_iff 4 3
  exact ⟨reached_gathered, hiff, honly, by decide +kernel⟩

end Session

end TouchGestures
