import TouchGestures.Proofs.Router.Handed

namespace TouchGestures

namespace Router

variable {r r' : Router} {books : Books} {key : ChannelKey} {consumer : ConsumerId} {now : Time}
  {clock : Clock}

-- Every channel has one owner, and owners have their channels.
structure Owned (r : Router) : Prop where
  live : ∀ {consumer : ConsumerId} {key : ChannelKey}, r.owners[consumer]? = some key →
    key ∈ r.channels
  single : ∀ {consumer other : ConsumerId} {key : ChannelKey}, r.owners[consumer]? = some key →
    r.owners[other]? = some key → consumer = other
  owned : ∀ {key : ChannelKey}, key ∈ r.channels →
    ∃ consumer : ConsumerId, r.owners[consumer]? = some key

theorem owned_start (settings : Settings) (ids : EventIds) : Owned { settings, ids } where
  live := by simp
  single := by simp
  owned := by simp

theorem Owned.congr (h : r.Owned) (howners : r'.owners = r.owners)
    (hlive : ∀ key, key ∈ r'.channels ↔ key ∈ r.channels) : r'.Owned where
  live := fun howner => (hlive _).mpr (h.live (howners ▸ howner))
  single := fun hfirst hsecond => h.single (howners ▸ hfirst) (howners ▸ hsecond)
  owned := fun hmem => howners ▸ h.owned ((hlive _).mp hmem)

theorem put_self {channel : Channel} (h : r.channels[key]? = some channel) : r.put key channel = r := by
  have hsame : r.channels.insert key channel = r.channels :=
    Std.ExtTreeMap.ext_getElem? fun other => by
      rw [getElem?_channels_insert]
      split
      · next heq => rw [← heq, h]
      · rfl
  rw [put, hsame]

theorem mem_channels_put {channel channel' : Channel} (h : r.channels[key]? = some channel)
    (other : ChannelKey) : other ∈ (r.put key channel').channels ↔ other ∈ r.channels := by
  rw [mem_channels_iff, mem_channels_iff, getElem?_channels_put]
  by_cases hother : key = other
  · subst hother
    simp [h]
  · simp [hother]

theorem mem_channels_of_others {channel channel' : Channel} (h : r.channels[key]? = some channel)
    (h' : r'.channels[key]? = some channel')
    (hothers : ∀ other, other ≠ key → r'.channels[other]? = r.channels[other]?)
    (other : ChannelKey) : other ∈ r'.channels ↔ other ∈ r.channels := by
  rw [mem_channels_iff, mem_channels_iff]
  by_cases hother : other = key
  · subst hother
    simp [h, h']
  · rw [hothers other hother]

-- Cancelling contacts or pressing them anew adds and removes no channel.
theorem mem_channels_inject {t : Touch} {notices : List Notice} {other : ChannelKey}
    (h : r.inject consumer key t = .ok (notices, r')) : other ∈ r'.channels ↔ other ∈ r.channels := by
  unfold inject at h
  split at h
  · cases h
    rfl
  · next channel hlive =>
    obtain ⟨⟨result, touched⟩, -, h⟩ := bind_eq_ok.mp h
    dsimp only at h
    split at h
    · obtain ⟨bindings, hbind⟩ := bind_frame r t consumer
      obtain ⟨acked, -, h⟩ := bind_eq_ok.mp h
      cases h
      rw [hbind]
      exact mem_channels_put (r := { r with bindings }) hlive other
    · cases h
      exact mem_channels_put hlive other

theorem mem_channels_injectAll {touches : List Touch} {notices : List Notice} {other : ChannelKey}
    (h : r.injectAll consumer key touches = .ok (notices, r')) :
    other ∈ r'.channels ↔ other ∈ r.channels := by
  induction touches generalizing r notices with
  | nil =>
    cases h
    rfl
  | cons t rest ih =>
    obtain ⟨⟨first, r₁⟩, hfirst, h⟩ := bind_eq_ok.mp h
    obtain ⟨⟨others, r₂⟩, hothers, h⟩ := bind_eq_ok.mp h
    cases h
    rw [ih hothers, mem_channels_inject hfirst]

theorem mem_channels_cancelChannel {result : Bool × List Notice × Router} {other : ChannelKey}
    (h : r.cancelChannel now consumer key = .ok result) :
    other ∈ result.2.2.channels ↔ other ∈ r.channels := by
  unfold cancelChannel at h
  split at h
  · cases h
    rfl
  · next channel _ =>
    obtain ⟨⟨notices, r₁⟩, hinject, h⟩ := bind_eq_ok.mp h
    cases h
    exact mem_channels_injectAll (r := { r with ids := (channel.contacts.cancels now r.ids).2 })
      hinject

theorem Mirrors.mem_channels_reenter {contacts : List Contact} {other : ChannelKey}
    (h : r.Mirrors books) (hr : r.reenter clock key contacts = .ok r') :
    other ∈ r'.channels ↔ other ∈ r.channels := by
  cases hlive : r.channels[key]? with
  | none =>
    rw [reenter_of_none hlive] at hr
    cases hr
    rfl
  | some channel =>
    obtain ⟨k, -, hk⟩ := h.book hlive
    obtain ⟨haccounts, hothers⟩ := reenter_continues hk hr
    exact mem_channels_of_others hlive haccounts.live hothers other

theorem Mirrors.nextKey_notMem (h : r.Mirrors books) : r.nextKey ∉ r.channels := by
  rw [mem_channels_iff, h.unopened (Nat.le_refl _)]
  simp

theorem Owned.obtain (h : r.Owned) (hnew : r.nextKey ∉ r.channels) :
    (r.obtain consumer).2.Owned := by
  unfold Router.obtain
  split
  · exact h
  · next hnone =>
    have hunowned : ∀ other : ConsumerId, r.owners[other]? ≠ some r.nextKey :=
      fun other howner => hnew (h.live howner)
    have hget : ∀ other : ConsumerId, (r.owners.insert consumer r.nextKey)[other]? =
        if consumer = other then some r.nextKey else r.owners[other]? := by
      simp [Std.ExtTreeMap.getElem?_insert]
    refine ⟨fun {other key} howner => ?_, fun {first second key} hfirst hsecond => ?_,
      fun {key} hmem => ?_⟩
    · dsimp only at howner
      rw [hget] at howner
      rw [Std.ExtTreeMap.mem_insert]
      split at howner
      · cases howner
        exact .inl (by simp)
      · exact .inr (h.live howner)
    · dsimp only at hfirst hsecond
      rw [hget] at hfirst hsecond
      split at hfirst
      · next heq =>
        split at hsecond
        · next heq' => exact heq.symm.trans heq'
        · cases hfirst
          exact absurd hsecond (hunowned second)
      · split at hsecond
        · cases hsecond
          exact absurd hfirst (hunowned first)
        · exact h.single hfirst hsecond
    · dsimp only at hmem ⊢
      rcases Std.ExtTreeMap.mem_insert.mp hmem with heq | hmem
      · exact ⟨consumer, by rw [hget, if_pos rfl]; simpa using heq⟩
      · obtain ⟨owner, howner⟩ := h.owned hmem
        refine ⟨owner, ?_⟩
        rw [hget, if_neg ?_, howner]
        rintro rfl
        rw [hnone] at howner
        cases howner

-- A channel leaves its owner for another one, whose own channel goes.
theorem Owned.exchange {source target : ConsumerId} (h : r.Owned) (hne : source ≠ target)
    (hsource : r.owners[source]? = some key)
    (howners : ∀ other : ConsumerId, r'.owners[other]? =
      if target = other then some key else if source = other then none else r.owners[other]?)
    (hlive : ∀ other, other ∈ r'.channels ↔
      other ∈ r.channels ∧ r.owners[target]? ≠ some other) : r'.Owned := by
  have hkeep : ∀ {other : ConsumerId} {key' : ChannelKey}, r'.owners[other]? = some key' →
      other = target ∧ key' = key ∨
        other ≠ target ∧ other ≠ source ∧ r.owners[other]? = some key' := by
    intro other key' howner
    rw [howners] at howner
    split at howner
    · next heq => exact .inl ⟨heq.symm, (Option.some.inj howner).symm⟩
    · next htarget =>
      split at howner
      · cases howner
      · next hsource => exact .inr ⟨Ne.symm htarget, Ne.symm hsource, howner⟩
  refine ⟨fun howner => ?_, fun hfirst hsecond => ?_, fun {key'} hmem => ?_⟩
  · rw [hlive]
    obtain ⟨-, rfl⟩ | ⟨htarget, -, howner⟩ := hkeep howner
    · exact ⟨h.live hsource, fun hsame => hne (h.single hsource hsame)⟩
    · exact ⟨h.live howner, fun hsame => htarget (h.single howner hsame)⟩
  · obtain ⟨rfl, rfl⟩ | ⟨-, hnot, hfirst⟩ := hkeep hfirst
    · obtain ⟨rfl, -⟩ | ⟨-, hnot, hsecond⟩ := hkeep hsecond
      · rfl
      · exact absurd (h.single hsecond hsource) hnot
    · obtain ⟨rfl, rfl⟩ | ⟨-, -, hsecond⟩ := hkeep hsecond
      · exact absurd (h.single hfirst hsource) hnot
      · exact h.single hfirst hsecond
  · obtain ⟨hmem, hnot⟩ := (hlive key').mp hmem
    obtain ⟨owner, howner⟩ := h.owned hmem
    have htarget : target ≠ owner := by
      rintro rfl
      exact hnot howner
    by_cases hown : source = owner
    · subst hown
      rw [hsource] at howner
      exact ⟨target, by rw [howners, if_pos rfl, howner]⟩
    · exact ⟨owner, by rw [howners, if_neg htarget, if_neg hown, howner]⟩

theorem owners_reassign (r : Router) (source target : ConsumerId) (key : ChannelKey) :
    (r.reassign source target key).owners = (r.owners.erase source).insert target key := by
  unfold Router.reassign
  simp only []
  split <;> rfl

theorem mem_channels_reassign (r : Router) (source target : ConsumerId) (key other : ChannelKey) :
    other ∈ (r.reassign source target key).channels ↔ other ∈ r.channels := by
  unfold Router.reassign
  simp only []
  split
  · rfl
  · next channel hchannel =>
    exact mem_channels_put
      (r := { r with owners := (r.owners.erase source).insert target key }) hchannel other

theorem getElem?_owners_displace (r : Router) (source target : ConsumerId) (key : ChannelKey)
    (other : ConsumerId) :
    (r.displace source target key).owners[other]? =
      if target = other then some key else if source = other then none else r.owners[other]? := by
  have howners : (r.displace source target key).owners = (r.owners.erase source).insert target key := by
    unfold Router.displace
    split
    · exact owners_reassign r source target key
    · exact owners_reassign _ source target key
  rw [howners]
  simp [Std.ExtTreeMap.getElem?_insert, Std.ExtTreeMap.getElem?_erase]

theorem mem_channels_displace (r : Router) (source target : ConsumerId) (key other : ChannelKey) :
    other ∈ (r.displace source target key).channels ↔
      other ∈ r.channels ∧ r.owners[target]? ≠ some other := by
  unfold Router.displace
  split
  · next hnone => simp [mem_channels_reassign, hnone]
  · next displaced hsome =>
    rw [mem_channels_reassign, hsome]
    simp [Router.removeChannel, and_comm]

-- Whether a step opens no channel, and none changes hands or goes.
def Act.keepsChannels : Act → Bool
  | .touch .. | .reassign .. | .forget .. => false
  | _ => true

theorem Owned.forget (h : r.Owned) : (r.forget consumer).2.Owned := by
  unfold Router.forget
  simp only []
  split
  · exact ⟨h.live, h.single, h.owned⟩
  · next key hkey =>
    have hget : ∀ other : ConsumerId, (r.owners.erase consumer)[other]? =
        if consumer = other then none else r.owners[other]? := by
      simp [Std.ExtTreeMap.getElem?_erase]
    have hkeep : ∀ {other : ConsumerId} {key' : ChannelKey},
        (r.owners.erase consumer)[other]? = some key' →
          other ≠ consumer ∧ r.owners[other]? = some key' := by
      intro other key' howner
      rw [hget] at howner
      split at howner
      · cases howner
      · next hne => exact ⟨Ne.symm hne, howner⟩
    refine ⟨fun howner => ?_, fun hfirst hsecond => ?_, fun {key'} hmem => ?_⟩
    · obtain ⟨hne, howner⟩ := hkeep howner
      refine Std.ExtTreeMap.mem_erase.mpr ⟨?_, h.live howner⟩
      intro hsame
      obtain rfl := Std.LawfulEqCmp.compare_eq_iff_eq.mp hsame
      exact hne (h.single howner hkey)
    · exact h.single (hkeep hfirst).2 (hkeep hsecond).2
    · obtain ⟨hne, hmem⟩ := Std.ExtTreeMap.mem_erase.mp hmem
      obtain ⟨owner, howner⟩ := h.owned hmem
      have hother : consumer ≠ owner := by
        rintro rfl
        rw [hkey] at howner
        cases howner
        simp at hne
      have howner' : (r.owners.erase consumer)[owner]? = some key' := by
        rw [hget, if_neg hother, howner]
      exact ⟨owner, howner'⟩

end Router

namespace Session

open Router (Act Mirrors mem_channels_iff)

variable {s : Session} {router : Router} {handouts : List Router.Handout}

-- Most steps leave alone who owns which channel, and let no further touch await a verdict.
theorem kept_act {a : Act} (hm : s.router.Mirrors s.books) (ha : a.keepsChannels = true)
    (hr : s.router.act a = .ok (handouts, router)) :
    router.owners = s.router.owners ∧
      (∀ key, key ∈ router.channels ↔ key ∈ s.router.channels) ∧
      ∀ {id : EventId} {key : ChannelKey}, router.events[id]? = some key →
        s.router.events[id]? = some key := by
  cases a with
  | touch | reassign | forget => cases ha
  | ack id consumed nonBlocking consumer =>
    have herase : ∀ {other : EventId} {key : ChannelKey},
        (s.router.events.erase id)[other]? = some key → s.router.events[other]? = some key := by
      intro other key hevent
      rw [Std.ExtTreeMap.getElem?_erase] at hevent
      split at hevent
      · cases hevent
      · exact hevent
    obtain ⟨⟨gestures, after⟩, hack, heq⟩ := map_eq_ok.mp hr
    cases heq
    obtain ⟨-, -, rfl⟩ | ⟨-, -, -, rfl⟩ | ⟨key, channel, channel', -, -, hlive, -, -, rfl⟩ :=
      Router.ack_cases hack
    · exact ⟨rfl, fun _ => Iff.rfl, fun hevent => hevent⟩
    · exact ⟨rfl, fun _ => Iff.rfl, herase⟩
    · exact ⟨rfl, Router.mem_channels_put
        (r := { s.router with events := s.router.events.erase id }) hlive, herase⟩
  | cancelChannel now consumer key =>
    obtain ⟨result, hcancel, heq⟩ := map_eq_ok.mp hr
    cases heq
    obtain ⟨_, _, _, hframe⟩ := Router.cancelChannel_frame hcancel
    refine ⟨by rw [hframe], fun _ => Router.mem_channels_cancelChannel hcancel, ?_⟩
    rw [hframe]
    exact id
  | reenter clock key contacts =>
    obtain ⟨after, hreenter, heq⟩ := map_eq_ok.mp hr
    cases heq
    obtain ⟨_, _, hframe⟩ := Router.reenter_frame hreenter
    refine ⟨by rw [hframe], fun _ => hm.mem_channels_reenter hreenter, ?_⟩
    rw [hframe]
    exact id
  | tick now key =>
    simp only [Router.act] at hr
    split at hr
    · cases hr
      exact ⟨rfl, fun _ => Iff.rfl, id⟩
    · next channel hlive =>
      obtain ⟨⟨gestures, channel'⟩, -, heq⟩ := map_eq_ok.mp hr
      cases heq
      exact ⟨rfl, Router.mem_channels_put hlive, id⟩
  | forgetHistory key =>
    cases hr
    unfold Router.forgetHistory
    split
    · exact ⟨rfl, fun _ => Iff.rfl, id⟩
    · next channel hlive => exact ⟨rfl, Router.mem_channels_put hlive, id⟩
  | configure settings =>
    cases hr
    exact ⟨rfl, fun key => by simp [Router.configure], id⟩
  | rebind | addHelper | removeHelper | setIds =>
    cases hr
    exact ⟨rfl, fun _ => Iff.rfl, id⟩

theorem owned_act {a : Act} (h : s.router.Owned) (hm : s.router.Mirrors s.books)
    (hgranted : s.Granted a) (hr : s.router.act a = .ok (handouts, router)) : router.Owned := by
  cases a with
  | touch t consumer =>
    obtain ⟨⟨result, after⟩, htouch, heq⟩ := map_eq_ok.mp hr
    cases heq
    have hopen : (s.router.obtain consumer).2.Owned := h.obtain hm.nextKey_notMem
    obtain ⟨-, -, rfl⟩ | ⟨channel, channel', hlive, -, hr'⟩ := Router.touch_cases htouch
    · exact hopen
    · obtain ⟨bindings, events, rfl⟩ := Router.touch_frame hr'
      exact hopen.congr rfl (Router.mem_channels_put hlive)
  | reassign source target key =>
    cases hr
    exact h.exchange hgranted.2 hgranted.1 (Router.getElem?_owners_displace _ source target key)
      (Router.mem_channels_displace _ source target key)
  | forget consumer =>
    cases hr
    exact h.forget
  | ack | cancelChannel | reenter | tick | forgetHistory | configure | rebind | addHelper
  | removeHelper | setIds =>
    obtain ⟨howners, hchannels, -⟩ := kept_act hm rfl hr
    exact h.congr howners hchannels

theorem Reached.owned {permits : Session → Router.Op → Prop} (h : Reached permits s) :
    s.router.Owned := by
  refine h.induct (P := fun s => s.router.Owned)
    (fun settings ids => Router.owned_start settings ids) ?_
  intro s s' a hm hgranted howned hact
  obtain ⟨handouts, router, hr, rfl⟩ := act_eq_ok hact
  exact owned_act howned hm hgranted hr

end Session

end TouchGestures
