import TouchGestures.Proofs.Channel.Entered
import TouchGestures.Proofs.Router.Continuing
import TouchGestures.Proofs.Router.Delivery

namespace TouchGestures

open Channel (Chronicle)

namespace Router

-- Whether a step leaves alone how the contacts of a channel were pressed, and is neither a
-- touch nor an alarm.
def Act.Retains (key : ChannelKey) : Act → Prop
  | .touch .. | .tick .. => False
  | .reenter _ other _ | .forgetHistory other | .reassign _ _ other => other ≠ key
  | _ => True

end Router

namespace Session

open Router (Act Op gesturesOf mem_channels_iff)

variable {s s' s₁ s₂ : Session} {permits : Session → Op → Prop} {target source : ConsumerId}
  {key other : ChannelKey} {old : List EventId} {k : Chronicle}
  {log given : List Gesture} {now : Time} {clock : Clock}

-- A consumer's channel by its record, on which contacts were pressed anew.
structure HasEntered (s : Session) (target : ConsumerId) (key : ChannelKey) (old : List EventId)
    (k : Chronicle) : Prop where
  book : s.books key = some k
  consumer : k.channel.consumer = target
  entered : k.Entered old

theorem HasEntered.proceed {k' : Chronicle} (h : s.HasEntered target key old k)
    (hk' : s'.books key = some k') (hproceeds : k.Proceeds old k' given) :
    s'.HasEntered target key old k' :=
  ⟨hk', hproceeds.consumer.trans h.consumer, hproceeds.entered⟩

theorem HasEntered.keep (h : s.HasEntered target key old k) (hbooks : s'.books key = s.books key) :
    ∃ k', s'.HasEntered target key old k' ∧ k.Proceeds old k' [] :=
  ⟨k, h.proceed (hbooks.trans h.book) h.entered.proceeds_refl, h.entered.proceeds_refl⟩

theorem HasEntered.amend {f : Chronicle → Chronicle} (h : s.HasEntered target key old k)
    (hbooks : s'.books = s.router.amend s.books other f)
    (hf : other = key → k.Proceeds old (f k) given) :
    ∃ k', s'.HasEntered target key old k' ∧
      k.Proceeds old k' (if other = key ∧ key ∈ s.router.channels then given else []) := by
  by_cases hother : other = key ∧ key ∈ s.router.channels
  · obtain ⟨rfl, hlive⟩ := hother
    have hk' : s'.books other = some (f k) := by simp [hbooks, Router.amend, hlive, h.book]
    rw [if_pos ⟨rfl, hlive⟩]
    exact ⟨f k, h.proceed hk' (hf rfl), hf rfl⟩
  · rw [if_neg hother]
    have hkey : ¬(key = other ∧ other ∈ s.router.channels) := by
      rintro ⟨rfl, hlive⟩
      exact hother ⟨rfl, hlive⟩
    exact h.keep (by rw [hbooks, Router.amend, if_neg hkey])

theorem HasEntered.amend_quiet {f : Chronicle → Chronicle} (h : s.HasEntered target key old k)
    (hbooks : s'.books = s.router.amend s.books other f)
    (hf : other = key → k.Proceeds old (f k) []) :
    ∃ k', s'.HasEntered target key old k' ∧ k.Proceeds old k' [] := by
  obtain ⟨k', hentered, hproceeds⟩ := h.amend hbooks hf
  rw [ite_self] at hproceeds
  exact ⟨k', hentered, hproceeds⟩

-- Verdicts, cancels and new settings let nothing out of what has entered.
theorem HasEntered.act {a : Act} (h : s.HasEntered target key old k)
    (hm : s.router.Mirrors s.books) (ha : a.Retains key) (hact : s.act a = .ok s') :
    ∃ k', s'.HasEntered target key old k' ∧ k.Proceeds old k' [] := by
  have hk := hm.lived h.book
  obtain ⟨handouts, router, -, rfl⟩ := act_eq_ok hact
  cases a with
  | ack id consumed nonBlocking consumer =>
    by_cases horphan : id ∈ s.router.orphans
    · exact h.keep (by simp [Router.record, horphan])
    · cases hawaiting : s.router.awaiting? id consumer with
      | none => exact h.keep (by simp [Router.record, horphan, hawaiting])
      | some asked =>
        have hbooks : s.router.record s.books (.ack id consumed nonBlocking consumer) =
            s.router.amend s.books asked
              fun k => (k.next (.ack id consumed nonBlocking)).next .drain := by
          simp [Router.record, horphan, hawaiting]
        refine h.amend_quiet hbooks fun _ => ?_
        have hacked := h.entered.next_ack hk id consumed nonBlocking
        exact hacked.trans hacked.entered.next_drain
  | cancelChannel now consumer cancelled =>
    have hbooks : s.router.record s.books (.cancelChannel now consumer cancelled) =
        s.router.amend s.books cancelled _ := rfl
    refine h.amend_quiet hbooks fun _ => ?_
    refine h.entered.injectAll hk _ fun t ht => ?_
    cases hchannel : s.router.channels[cancelled]? with
    | none => simp [hchannel] at ht
    | some channel =>
      rw [hchannel, Option.map_some, Option.getD_some, ContactTable.cancels_eq] at ht
      rw [kind_of_mem_synthesizeAll ht]
      simp
  | reenter | forgetHistory | reassign => exact h.keep (amend_of_ne ha)
  | configure settings =>
    have hconfigured := h.entered.next_configure settings.channel
    by_cases hlive : key ∈ s.router.channels
    · have hk' : s.router.record s.books (.configure settings) key =
          some (k.next (.configure settings.channel)) := by simp [Router.record, hlive, h.book]
      exact ⟨_, h.proceed hk' hconfigured, hconfigured⟩
    · exact h.keep (by simp [Router.record, hlive])
  | rebind | forget | addHelper | removeHelper | setIds => exact h.keep rfl
  | touch | tick => exact absurd ha id

theorem HasEntered.play {acts : List Act} (h : s.HasEntered target key old k)
    (hm : s.router.Mirrors s.books) (hacts : ∀ a ∈ acts, a.Retains key)
    (hs : s.play acts = .ok s') :
    ∃ k', s'.HasEntered target key old k' ∧ k.Proceeds old k' [] := by
  induction acts generalizing s k with
  | nil =>
    cases hs
    exact ⟨k, h, h.entered.proceeds_refl⟩
  | cons a rest ih =>
    obtain ⟨between, hact, hrest⟩ := bind_eq_ok.mp hs
    obtain ⟨k₁, hentered, hfirst⟩ := h.act hm (hacts a List.mem_cons_self) hact
    obtain ⟨k₂, hentered', hsecond⟩ := ih hentered (mirrors_act hm hact)
      (fun b hb => hacts b (List.mem_cons_of_mem a hb)) hrest
    exact ⟨k₂, hentered', hfirst.trans hsecond⟩

theorem channels_tick (hact : s.act (.tick now other) = .ok s') :
    key ∈ s'.router.channels ↔ key ∈ s.router.channels := by
  obtain ⟨handouts, router, hr, rfl⟩ := act_eq_ok hact
  simp only [Router.act] at hr
  split at hr
  · cases hr
    rfl
  · next channel hlive =>
    obtain ⟨⟨gestures, channel'⟩, -, heq⟩ := map_eq_ok.mp hr
    cases heq
    exact Router.mem_channels_put hlive key

-- An alarm rings on each of some channels, once on the one that was entered if it is there.
theorem HasEntered.ticks {keys : List ChannelKey} (h : s.HasEntered target key old k)
    (hm : s.router.Mirrors s.books) (hdistinct : keys.Nodup)
    (hs : s.play (keys.map (.tick now)) = .ok s') :
    ∃ k', s'.HasEntered target key old k' ∧
      k.Proceeds old k' (if key ∈ keys ∧ key ∈ s.router.channels then k.overtaking now else []) := by
  induction keys generalizing s k with
  | nil =>
    cases hs
    exact ⟨k, h, h.entered.proceeds_refl⟩
  | cons other rest ih =>
    obtain ⟨between, hact, hrest⟩ := bind_eq_ok.mp hs
    obtain ⟨hnot, hdistinct⟩ := List.nodup_cons.mp hdistinct
    have hlive : key ∈ between.router.channels ↔ key ∈ s.router.channels := channels_tick hact
    have hm' := mirrors_act hm hact
    have hticked := h.entered.next_tick (hm.lived h.book) now
    have hbooks : between.books = s.router.amend s.books other (·.next (.tick now)) := by
      obtain ⟨_, _, -, rfl⟩ := act_eq_ok hact
      rfl
    by_cases hother : other = key
    · subst hother
      obtain ⟨k₁, hentered, hfirst⟩ := h.amend hbooks fun _ => hticked
      obtain ⟨k₂, hentered', hsecond⟩ := ih hentered hm' hdistinct hrest
      have hboth := hfirst.trans hsecond
      simp only [hnot, false_and, if_false, List.append_nil, true_and] at hboth
      exact ⟨k₂, hentered', by simpa using hboth⟩
    · have hsame : between.books key = s.books key := by
        rw [hbooks]
        exact amend_of_ne hother
      have hentered := h.proceed (hsame.trans h.book) h.entered.proceeds_refl
      obtain ⟨k₂, hentered', hsecond⟩ := ih hentered hm' hdistinct hrest
      simp only [hlive] at hsecond
      exact ⟨k₂, hentered', by simpa [Ne.symm hother] using hsecond⟩

theorem HasEntered.owner (h : s.HasEntered target key old k) (hreached : Reached permits s)
    (hlive : key ∈ s.router.channels) : s.router.owners[target]? = some key := by
  obtain ⟨owner, howner⟩ := hreached.owned.owned hlive
  rw [← h.consumer, hreached.attributed _ _ _ howner h.book]
  exact howner

def Begins (s : Session) (t : Touch) (consumer : ConsumerId) : Prop :=
  s.router.accepts t consumer = true ∧
    ∀ channel, s.router.channel? consumer = some channel → channel.contacts.live = []

theorem HasEntered.touch {t : Touch} {consumer : ConsumerId}
    (h : s.HasEntered target key old k) (hreached : Reached permits s)
    (hnodup : s.numbers.Nodup) (hop : consumer = target → ¬s.Begins t consumer)
    (hs : s.perform (.touch t consumer) = .ok s') :
    ∃ k', s'.HasEntered target key old k' ∧ k.Proceeds old k' [] := by
  have hm := hreached.mirrors
  have howned := hreached.owned
  have hopened : s.router.owners[consumer]? = none → key ≠ s.router.nextKey := by
    rintro hnone rfl
    have hunopened := (hreached.handed hnodup).unopened _ (Nat.le_refl _)
    rw [h.book] at hunopened
    cases hunopened
  by_cases howner : s.router.owners[consumer]? = some key
  · have hconsumer : consumer = target := by
      rw [← h.consumer, hreached.attributed _ _ _ howner h.book]
    obtain ⟨-, hk', haccepts⟩ := own_touch hm howned howner h.book hs
    have hdown : k.accepts t = true → k.channel.contacts.contacts ≠ [] := by
      intro haccepted hnil
      refine hop hconsumer ⟨haccepts.trans haccepted, fun channel hchannel => ?_⟩
      obtain ⟨own, hown, hlive⟩ := Router.channel?_eq_some_iff.mp hchannel
      rw [howner, Option.some.injEq] at hown
      subst hown
      rw [(hm.accounts h.book (howned.live howner)).channel_eq hlive]
      simp [ContactTable.live, hnil]
    have htouched := h.entered.next_touch (hm.lived h.book).sound hdown
    exact ⟨_, h.proceed hk' htouched, htouched⟩
  · have hother : key ≠ (s.router.obtain consumer).1 := by
      cases hown : s.router.owners[consumer]? with
      | some own =>
        rw [(Router.obtain_of_some hown s.books).1]
        rintro rfl
        exact howner hown
      | none =>
        rw [(Router.obtain_of_none hown s.books).1]
        exact hopened hown
    have hkept : (s.withChannel consumer).books key = s.books key := by
      cases hown : s.router.owners[consumer]? with
      | some own => exact congrFun (Router.obtain_of_some hown s.books).2 key
      | none =>
        refine (congrFun (Router.obtain_of_none hown s.books).2 key).trans ?_
        exact if_neg (hopened hown)
    exact h.keep (((books_touch hm howned (play_singleton.mp hs)).2 key hother).trans hkept)

-- The operation neither begins a stream of a consumer nor hands its touches over.
def Retains (s : Session) (target : ConsumerId) : Op → Prop
  | .touch t consumer => consumer = target → ¬s.Begins t consumer
  | .transfer _ source _ _ => source ≠ target
  | _ => True

-- The gestures of alarms that ring on a channel in an operation while packets wait there.
def overtaking (s : Session) (key : ChannelKey) : Op → List Gesture
  | .tick now =>
    match s.router.channels[key]? with
    | some channel => if channel.pipeline.hasPending then (channel.detector.tick now).1 else []
    | none => []
  | _ => []

theorem retains_of_transfer {manner : Router.Transfer} {consumer : ConsumerId}
    (h : s.HasEntered target key old k) (hreached : Reached permits s)
    (hsource : source ≠ target) :
    ∀ a ∈ s.router.transferActs clock source consumer manner, a.Retains key := by
  have howned := hreached.owned
  by_cases hsame : source = consumer
  · simp [Router.transferActs, hsame]
  · cases howner : s.router.owners[source]? with
    | none =>
      simp [Router.transferActs, howner, hreached.bound.boundTo_eq_nil howner]
    | some moving =>
      have hmoving : moving ≠ key := by
        rintro rfl
        exact hsource (howned.single howner (h.owner hreached (howned.live howner)))
      obtain ⟨r', replacing, hacts⟩ := Router.transferActs_eq clock manner howner hsame
      rw [hacts]
      intro a ha
      simp only [List.mem_append, List.mem_cons, List.not_mem_nil, or_false] at ha
      obtain ha | ha | rfl | ha | rfl := ha
      · obtain ⟨_, _, _, rfl⟩ := s.router.cancels_cancelsOf _ a ha
        trivial
      · obtain ⟨_, -, rfl⟩ := Router.mem_cancelActs.mp ha
        trivial
      · exact hmoving
      · obtain rfl | ⟨live, rfl⟩ | rfl := Router.eq_of_mem_settleActs ha
        · trivial
        · exact hmoving
        · exact hmoving
      · trivial

-- Of what has entered a channel, an operation lets out just the alarms that overtake packets.
theorem HasEntered.perform {op : Op} (h : s.HasEntered target key old k)
    (hreached : Reached permits s) (hnodup : s.numbers.Nodup) (hop : s.Retains target op)
    (hs : s.perform op = .ok s') :
    ∃ k', s'.HasEntered target key old k' ∧ k.Proceeds old k' (s.overtaking key op) := by
  have hm := hreached.mirrors
  have hcancels : ∀ (consumers : List ConsumerId) (clock : Clock),
      ∀ a ∈ s.router.cancelEachActs clock consumers, a.Retains key := by
    intro consumers clock a ha
    obtain ⟨_, _, _, rfl⟩ := s.router.cancels_cancelEachActs clock consumers a ha
    trivial
  cases op with
  | touch t consumer => exact h.touch hreached hnodup hop hs
  | tick now =>
    have hdistinct : s.router.channels.keys.Nodup := s.router.channels.nodup_keys
    obtain ⟨k', hentered, hproceeds⟩ := h.ticks hm hdistinct hs
    refine ⟨k', hentered, ?_⟩
    have hgiven : s.overtaking key (.tick now) =
        if key ∈ s.router.channels.keys ∧ key ∈ s.router.channels then k.overtaking now
        else [] := by
      simp only [overtaking, Std.ExtTreeMap.mem_keys, and_self]
      split
      · next channel hlive =>
        have haccounts := hm.accounts h.book (mem_channels_iff.mpr ⟨_, hlive⟩)
        rw [haccounts.channel_eq hlive, if_pos (mem_channels_iff.mpr ⟨_, hlive⟩)]
        cases hpackets : k.channel.queue.packets <;>
          simp [Chronicle.overtaking, hpackets, Pipeline.hasPending, Release.Queue.isEmpty]
      · next hgone =>
        exact (if_neg fun hlive => by simp [mem_channels_iff, hgone] at hlive).symm
    exact hgiven ▸ hproceeds
  | transfer clock source consumer manner =>
    exact h.play hm (retains_of_transfer h hreached hop) hs
  | cancel now consumer =>
    refine h.play hm (fun a ha => ?_) hs
    obtain ⟨_, -, rfl⟩ := Router.mem_cancelActs.mp ha
    trivial
  | cancelOn clock consumers => exact h.play hm (hcancels consumers clock) hs
  | cancelExcept clock spared => exact h.play hm (hcancels _ clock) hs
  | ack | forget | configure | addHelper | removeHelper | setIds =>
    refine h.play hm (fun a ha => ?_) hs
    rw [List.mem_singleton.mp ha]
    trivial

-- The sessions to which a host can get from one before it begins another stream of a consumer
-- or hands its touches on, with the gestures of alarms that overtook packets on the way.
inductive Remains (target : ConsumerId) (key : ChannelKey) (s : Session) :
    List Gesture → Session → Prop
  | start : Remains target key s [] s
  | step {log : List Gesture} {s₁ s₂ : Session} {op : Op} (h : Remains target key s log s₁)
    (hop : s₁.Retains target op) (hs : s₁.perform op = .ok s₂) :
    Remains target key s (log ++ s₁.overtaking key op) s₂

theorem Remains.reached (h : s.Remains target key log s') (hreached : Reached permits s) :
    Reached (fun _ _ => True) s' := by
  induction h with
  | start => exact hreached.mono fun _ _ _ => trivial
  | step _ _ hs ih => exact ih.step trivial hs

theorem Remains.handed (h : s.Remains target key log s') :
    ∃ handouts, s'.handed = s.handed ++ handouts := by
  induction h with
  | start => exact ⟨[], (List.append_nil _).symm⟩
  | step _ _ hs ih =>
    obtain ⟨first, hfirst⟩ := ih
    obtain ⟨others, -, hothers⟩ := play_router hs
    exact ⟨first ++ others, by rw [hothers, hfirst, List.append_assoc]⟩

theorem HasEntered.remains (h : s₁.HasEntered target key old k) (hreached : Reached permits s₁)
    (hremains : s₁.Remains target key log s₂) (hnodup : s₂.numbers.Nodup) :
    ∃ k', s₂.HasEntered target key old k' ∧ k.Proceeds old k' log := by
  induction hremains with
  | start => exact ⟨k, h, h.entered.proceeds_refl⟩
  | step hremains hop hs ih =>
    have hnodup₁ := (prefix_numbers_play hs).sublist.nodup hnodup
    obtain ⟨k₁, hentered, hfirst⟩ := ih hnodup₁
    obtain ⟨k₂, hentered', hsecond⟩ :=
      hentered.perform (hremains.reached hreached) hnodup₁ hop hs
    exact ⟨k₂, hentered', hfirst.trans hsecond⟩

-- Where a transfer presses the contacts of the source anew, they enter.
theorem Reached.exists_hasEntered (h : Reached permits s)
    (howner : s.router.owners[source]? = some key) (hne : source ≠ target)
    (hs : s.perform (.transfer clock source target .cancelling) = .ok s₁)
    (hnodup : s₁.numbers.Nodup) :
    ∃ earlier contacts later s₀ k,
      s.router.acts (.transfer clock source target .cancelling) =
        earlier ++ .reenter (s.router.entryClock clock source target) key contacts :: later ∧
      s.play earlier = .ok s₀ ∧ s₁.HasEntered target key s₀.numbers k := by
  have hreached₁ : Reached (fun _ _ => True) s₁ := (h.mono fun _ _ _ => trivial).step trivial hs
  have howner₁ : s₁.router.owners[target]? = some key :=
    (owners_of_transfer howner hne hs target).trans (if_pos rfl)
  obtain ⟨r', replacing, hacts⟩ := Router.transferActs_eq clock .cancelling howner hne
  have hsplit : s.router.acts (.transfer clock source target .cancelling) =
      (s.router.cancelsOf (clock.stamp (s.router.consumersExcept [source, target])) ++
        s.router.cancelActs (s.router.partyClock clock source target).now target ++
          [.reassign source target key,
            .cancelChannel (s.router.partyClock clock source target).rest.now source key]) ++
        .reenter (s.router.entryClock clock source target) key
            ((r'.channels[key]?.map (·.contacts.live)).getD []) ::
          [.rebind (s.router.boundTo source) target] := by
    rw [Router.acts, hacts, Router.settleActs, Router.entryClock]
    simp only [List.append_assoc, List.cons_append, List.nil_append]
  generalize (r'.channels[key]?.map (·.contacts.live)).getD [] = contacts at hsplit
  generalize s.router.entryClock clock source target = entry at hsplit ⊢
  have hplay := hs
  rw [perform, hsplit] at hplay
  obtain ⟨s₀, hearlier, hrest⟩ := play_append_eq_ok hplay
  obtain ⟨entered, hact, hrebind⟩ := bind_eq_ok.mp hrest
  have hnodup' := (prefix_numbers_play hrebind).sublist.nodup hnodup
  obtain ⟨hbooks, -, -⟩ := rebind_eq_ok (play_singleton.mp hrebind)
  have hm₀ := mirrors_play h.mirrors hearlier
  have hproper := proper_reenter h.mirrors hsplit hearlier
  have hconsistent := consistent_play h.mirrors
    (h.consistent ((prefix_numbers_play hs).sublist.nodup hnodup))
    ((prefix_numbers_play hrest).sublist.nodup hnodup) hearlier
  have hlive₀ : key ∈ s₀.router.channels := by
    have hlive₁ := hreached₁.owned.live howner₁
    obtain ⟨_, _, hr, rfl⟩ := act_eq_ok (play_singleton.mp hrebind)
    cases hr
    obtain ⟨_, _, hr, rfl⟩ := act_eq_ok hact
    obtain ⟨_, hreenter, heq⟩ := map_eq_ok.mp hr
    cases heq
    exact (hm₀.mem_channels_reenter hreenter).mp hlive₁
  obtain ⟨channel, hchannel⟩ := mem_channels_iff.mp hlive₀
  obtain ⟨k₀, hk₀, haccounts⟩ := hm₀.book hchannel
  obtain rfl := haccounts.channel_eq hchannel
  obtain ⟨_, _, -, rfl⟩ := act_eq_ok hact
  have hk₁ : s₁.books key =
      some (k₀.reenter (synthesizeAll .pressed entry contacts s₀.router.ids).1) := by
    rw [hbooks]
    simp [Router.record, Router.amend, hlive₀, hk₀]
  have hnumbers : (s₀.numbers ++
      (synthesizeAll .pressed entry contacts s₀.router.ids).1.map (·.id)).Nodup := by
    simpa [Router.numbersOf, hlive₀] using hnodup'
  obtain ⟨-, -, hdisjoint⟩ := List.nodup_append.mp hnumbers
  refine ⟨_, contacts, _, s₀, _, hsplit, hearlier, hk₁,
    hreached₁.attributed _ _ _ howner₁ hk₁, ?_⟩
  exact Chronicle.entered_reenter haccounts.lived (hproper _ hchannel)
    (fun p hp => hconsistent.numbered hchannel p hp) (fun t ht => kind_of_mem_synthesizeAll ht)
    fun t ht hold => hdisjoint _ hold _ (List.mem_map_of_mem ht) rfl

-- When the touches of a consumer are handed over with a cancel, then of the contacts that are
-- pressed anew the host is given nothing but the alarms that overtake waiting packets, until a
-- stream begins on the new owner or its touches are handed on. Whatever else the channel gives
-- belongs to touches before that.
theorem Reached.gives_overtaking (h : Reached permits s)
    (htrue : (s.router.transferTouches clock source target .cancelling).map (·.1) = .ok true)
    (hs : s.perform (.transfer clock source target .cancelling) = .ok s₁)
    (hnodup : s₁.numbers.Nodup) :
    ∃ key earlier contacts later s₀, s.router.owners[source]? = some key ∧
      s.router.acts (.transfer clock source target .cancelling) =
        earlier ++ .reenter (s.router.entryClock clock source target) key contacts :: later ∧
      s.play earlier = .ok s₀ ∧
      ∀ log s₂, s₁.Remains target key log s₂ → s₂.numbers.Nodup →
        (gesturesOf key (s₁.since s₂)).filter (fun g => g.eventId ∉ s₀.numbers) = log := by
  have hne : source ≠ target := by
    rintro rfl
    simp [Router.transferTouches] at htrue
  obtain ⟨key, howner⟩ : ∃ key, s.router.owners[source]? = some key := by
    cases howner : s.router.owners[source]? with
    | some key => exact ⟨key, rfl⟩
    | none => simp [Router.transferTouches, howner, h.bound.boundTo_eq_nil howner] at htrue
  obtain ⟨earlier, contacts, later, s₀, k, hsplit, hearlier, hentered⟩ :=
    h.exists_hasEntered howner hne hs hnodup
  refine ⟨key, earlier, contacts, later, s₀, howner, hsplit, hearlier,
    fun log s₂ hremains hnodup₂ => ?_⟩
  have hreached₁ : Reached (fun _ _ => True) s₁ := (h.mono fun _ _ _ => trivial).step trivial hs
  obtain ⟨k', hentered', hproceeds⟩ := hentered.remains hreached₁ hremains hnodup₂
  obtain ⟨handouts, hhanded⟩ := hremains.handed
  have hgiven := (hreached₁.handed hnodup).given key
  have hgiven' := ((hremains.reached hreached₁).handed hnodup₂).given key
  obtain ⟨gestures, hreleased, hlog⟩ := hproceeds.given
  rw [hentered'.book, Option.map_some, Option.getD_some, hreleased, givenBy, hhanded,
    Router.gesturesOf_append] at hgiven'
  rw [hentered.book, Option.map_some, Option.getD_some, givenBy] at hgiven
  rw [hgiven] at hgiven'
  rw [since_eq hhanded, List.append_cancel_left hgiven', hlog]

-- A contact is down whose verdict is outstanding when its touches are handed over with a
-- cancel. Then the alarm rings of the press on the new owner.
def held : Session :=
  ((start 10).attempt (.addHelper { serves := fun _ => true, handles := fun _ _ => false })).attempt
    (.touch (Channel.finger .pressed 1 10 0 1) 1)

def entrusted : Session :=
  held.attempt (.transfer (.still (Duration.milliseconds 10)) 1 2 .cancelling)

def ringing : Session := entrusted.attempt (.tick (Duration.milliseconds 200))

theorem reached_held : Reached (fun _ _ => True) held :=
  ((Reached.start {} ⟨10⟩).attempt trivial).attempt trivial

theorem gives_overtaking_of_held :
    Reached (fun _ _ => True) held ∧
      (held.router.transferTouches (.still (Duration.milliseconds 10)) 1 2 .cancelling).map (·.1) =
        .ok true ∧
      held.perform (.transfer (.still (Duration.milliseconds 10)) 1 2 .cancelling) = .ok entrusted ∧
      entrusted.numbers.Nodup ∧
      ∃ key earlier contacts later s₀, held.router.owners[(1 : ConsumerId)]? = some key ∧
        held.router.acts (.transfer (.still (Duration.milliseconds 10)) 1 2 .cancelling) =
          earlier ++ .reenter (.still (Duration.milliseconds 10)) key contacts :: later ∧
        held.play earlier = .ok s₀ ∧
        ∀ log s₂, entrusted.Remains 2 key log s₂ → s₂.numbers.Nodup →
          (gesturesOf key (entrusted.since s₂)).filter (fun g => g.eventId ∉ s₀.numbers) = log := by
  have htrue : (held.router.transferTouches (.still (Duration.milliseconds 10)) 1 2 .cancelling).map
      (·.1) = .ok true := by decide +kernel
  have hs : held.perform (.transfer (.still (Duration.milliseconds 10)) 1 2 .cancelling) =
      .ok entrusted := perform_attempt (by decide +kernel)
  have hnodup : entrusted.numbers.Nodup := by decide +kernel
  exact ⟨reached_held, htrue, hs, hnodup, reached_held.gives_overtaking htrue hs hnodup⟩

-- The show press of the contact that was pressed anew, under a number of its own, goes to the
-- new owner: its alarm overtakes the touch whose verdict is outstanding.
theorem entered_press_shown :
    Reached (fun _ _ => True) held ∧
      (held.router.transferTouches (.still (Duration.milliseconds 10)) 1 2 .cancelling).map (·.1) =
        .ok true ∧
      held.perform (.transfer (.still (Duration.milliseconds 10)) 1 2 .cancelling) = .ok entrusted ∧
      entrusted.Remains 2 0 (entrusted.overtaking 0 (.tick (Duration.milliseconds 200))) ringing ∧
      ringing.numbers = [1, 10, 11] ∧
      (entrusted.since ringing).map (fun h => (h.consumer, h.key)) = [(2, 0)] ∧
      (gesturesOf 0 (entrusted.since ringing)).map (fun g => (g.kind, g.eventId)) =
        [(.showPress, 11)] := by
  have hremains : entrusted.Remains 2 0
      ([] ++ entrusted.overtaking 0 (.tick (Duration.milliseconds 200))) ringing :=
    .step .start trivial (perform_attempt (by decide +kernel))
  exact ⟨reached_held, by decide +kernel, perform_attempt (by decide +kernel), hremains,
    by decide +kernel, by decide +kernel, by decide +kernel⟩

end Session

end TouchGestures
