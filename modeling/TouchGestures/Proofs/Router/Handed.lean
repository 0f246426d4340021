import TouchGestures.Proofs.Router.Verdict

namespace TouchGestures

open Channel (Chronicle)

namespace Router

def gesturesOf (key : ChannelKey) (handouts : List Handout) : List Gesture :=
  gesturesIn ((handouts.filter fun handout => handout.key = key).map (·.toNotice))

@[simp] theorem gesturesOf_nil (key : ChannelKey) : gesturesOf key [] = [] := rfl

@[simp] theorem gesturesOf_append (key : ChannelKey) (first second : List Handout) :
    gesturesOf key (first ++ second) = gesturesOf key first ++ gesturesOf key second := by
  simp [gesturesOf]

theorem gesturesOf_handOut (key other : ChannelKey) (notices : List Notice) :
    gesturesOf other (handOut key notices) = if key = other then gesturesIn notices else [] := by
  unfold gesturesOf handOut
  rw [List.filter_map, List.map_map]
  split
  · next hkey =>
    subst hkey
    simp [Function.comp_def]
  · next hkey => simp [Function.comp_def, hkey]

theorem nextKey_displace (r : Router) (source target : ConsumerId) (key : ChannelKey) :
    (r.displace source target key).nextKey = r.nextKey := by
  obtain ⟨_, _, _, _, hframe⟩ := displace_frame r source target key
  rw [hframe]

theorem nextKey_forget (r : Router) (consumer : ConsumerId) :
    (r.forget consumer).2.nextKey = r.nextKey := by
  unfold forget
  simp only []
  split <;> rfl

end Router

namespace Session

open Router (Act Handout gesturesOf mem_channels_iff)

variable {s s' : Session} {key : ChannelKey}

def givenBy (s : Session) (key : ChannelKey) : List Gesture := gesturesOf key s.handed

-- The host was given just what the channels have released.
structure Handed (s : Session) : Prop where
  given : ∀ key, s.givenBy key = ((s.books key).map (·.released)).getD []
  unopened : ∀ key, s.router.nextKey ≤ key → s.books key = none

theorem handed_start (settings : Settings) (ids : EventIds) :
    Handed { router := { settings, ids } } where
  given := fun _ => rfl
  unopened := fun _ _ => rfl

section Keep

variable {router : Router} {awaiting : List (ChannelKey × EventId)} {numbers : List EventId}

theorem Handed.keep (h : s.Handed) (hnext : router.nextKey = s.router.nextKey) :
    Handed ⟨router, s.books, awaiting, numbers, s.handed ++ []⟩ where
  given := by
    rw [List.append_nil]
    exact h.given
  unopened := fun key hkey => h.unopened key (hnext ▸ hkey)

-- A channel is taken down to give something, and the host is given it.
theorem Handed.amend {f : Chronicle → Chronicle} {notices : List Notice} (h : s.Handed)
    (hm : s.router.Mirrors s.books) (hnext : router.nextKey = s.router.nextKey)
    (hlive : ∀ k, s.router.Accounts key k → (f k).released = k.released ++ gesturesIn notices)
    (hgone : key ∉ s.router.channels → gesturesIn notices = []) :
    Handed ⟨router, s.router.amend s.books key f, awaiting, numbers,
      s.handed ++ Router.handOut key notices⟩ where
  given := by
    intro other
    have hgiven := h.given other
    unfold givenBy at hgiven ⊢
    rw [Router.gesturesOf_append, Router.gesturesOf_handOut, hgiven]
    unfold Router.amend
    by_cases hother : other = key ∧ key ∈ s.router.channels
    · obtain ⟨rfl, hmem⟩ := hother
      obtain ⟨channel, hchannel⟩ := mem_channels_iff.mp hmem
      obtain ⟨k, hbook, hk⟩ := hm.book hchannel
      simp [hmem, hbook, hlive k hk]
    · dsimp only
      rw [if_neg hother]
      by_cases hkey : key = other
      · have hnone := hgone fun hmem => hother ⟨hkey.symm, hmem⟩
        simp [hkey, hnone]
      · simp [hkey]
  unopened := by
    intro other hother
    have hnone := h.unopened other (hnext ▸ hother)
    unfold Router.amend
    dsimp only
    split <;> simp [hnone]

-- A channel is taken down to give nothing, and the host is given nothing.
theorem Handed.amend_quiet {f : Chronicle → Chronicle} (h : s.Handed)
    (hm : s.router.Mirrors s.books) (hnext : router.nextKey = s.router.nextKey)
    (hquiet : ∀ k, s.router.Accounts key k → (f k).released = k.released) :
    Handed ⟨router, s.router.amend s.books key f, awaiting, numbers, s.handed ++ []⟩ := by
  have hnothing : Handed ⟨router, s.router.amend s.books key f, awaiting, numbers,
      s.handed ++ Router.handOut key []⟩ :=
    h.amend hm hnext (fun k hk => by simpa using hquiet k hk) fun _ => rfl
  exact hnothing

theorem Handed.obtain {consumer : ConsumerId} (h : s.Handed) :
    Handed ⟨(s.router.obtain consumer).2, s.router.enroll s.books consumer, awaiting, numbers,
      s.handed⟩ := by
  cases howner : s.router.owners[consumer]? with
  | some key =>
    obtain ⟨hobtain, henroll⟩ := Router.obtain_of_some howner s.books
    rw [hobtain, henroll]
    exact ⟨h.given, h.unopened⟩
  | none =>
    obtain ⟨hobtain, henroll⟩ := Router.obtain_of_none howner s.books
    rw [hobtain, henroll]
    refine ⟨fun other => ?_, fun other hother => ?_⟩
    · by_cases hother : other = s.router.nextKey
      · have hgiven := h.given other
        rw [h.unopened other (Nat.le_of_eq hother.symm)] at hgiven
        dsimp only
        rw [if_pos hother]
        exact hgiven
      · dsimp only
        rw [if_neg hother]
        exact h.given other
    · have hlt : s.router.nextKey < other := hother
      dsimp only
      rw [if_neg (Nat.ne_of_gt hlt)]
      exact h.unopened other (Nat.le_of_lt hlt)

end Keep

section Acts

variable {router : Router} {awaiting : List (ChannelKey × EventId)} {numbers : List EventId}
  {consumer : ConsumerId} {now : Time} {clock : Clock}

theorem Handed.touch {t : Touch} {result : TouchResult} (h : s.Handed)
    (hm : s.router.Mirrors s.books) (hr : s.router.touch t consumer = .ok (result, router)) :
    Handed ⟨router, s.router.record s.books (.touch t consumer), awaiting, numbers,
      s.handed ++ []⟩ := by
  have hopen : Handed ⟨(s.router.obtain consumer).2, s.router.enroll s.books consumer, s.awaiting,
    s.numbers, s.handed⟩ := h.obtain
  obtain ⟨hnone, -, rfl⟩ | ⟨channel, channel', hlive, htouch, hr'⟩ := Router.touch_cases hr
  · rw [Router.record, Router.amend_of_none hnone]
    exact hopen.keep rfl
  · refine hopen.amend_quiet hm.obtain ?_ fun k hk => ?_
    · obtain ⟨bindings, events, rfl⟩ := Router.touch_frame hr'
      rfl
    · obtain rfl := hk.channel_eq hlive
      exact (Chronicle.next_of_touch hk.lived.sound htouch).2.2

theorem Handed.ack {id : EventId} {consumed nonBlocking : Bool} {gestures : List Gesture}
    (h : s.Handed) (hm : s.router.Mirrors s.books)
    (hr : s.router.ack id consumed nonBlocking consumer = .ok (gestures, router)) :
    Handed ⟨router, s.router.record s.books (.ack id consumed nonBlocking consumer), awaiting,
      numbers, s.handed ++ Router.handOut (s.router.respondent id consumer).1
        (gestures.map fun g => ⟨(s.router.respondent id consumer).2, .gesture g⟩)⟩ := by
  obtain ⟨horphan, rfl, rfl⟩ | ⟨horphan, hgone, rfl, rfl⟩ |
    ⟨key, channel, channel', horphan, hkey, hlive, hack, rfl, rfl⟩ := Router.ack_cases hr
  · simp only [Router.record, horphan, if_true]
    exact h.keep rfl
  · simp only [Router.record, horphan, if_false]
    split
    · exact h.keep rfl
    · next key hkey =>
      rw [Router.amend_of_none (hgone key hkey)]
      exact h.keep rfl
  · have hrespondent : (s.router.respondent id consumer).1 = key := by
      simp [Router.respondent, hkey]
    simp only [Router.record, horphan, if_false, hkey, hrespondent]
    refine h.amend hm rfl (fun k hk => ?_) fun hgone => ?_
    · obtain rfl := hk.channel_eq hlive
      have hreleased := (Router.ack_continues consumer hk hack).released
      rw [gesturesIn_map_gesture] at hreleased ⊢
      exact hreleased
    · exact absurd (mem_channels_iff.mpr ⟨_, hlive⟩) hgone

theorem Handed.cancelChannel {result : Bool × List Notice × Router} (h : s.Handed)
    (hm : s.router.Mirrors s.books) (hr : s.router.cancelChannel now consumer key = .ok result) :
    Handed ⟨result.2.2, s.router.record s.books (.cancelChannel now consumer key), awaiting,
      numbers, s.handed ++ Router.handOut key result.2.1⟩ := by
  obtain ⟨_, _, _, hframe⟩ := Router.cancelChannel_frame hr
  refine h.amend hm (by rw [hframe]) (fun k hk => ?_) fun hgone => ?_
  · have hreleased := (Router.cancelChannel_continues hk hr).released
    rwa [hk.live]
  · have hnone := Std.ExtTreeMap.getElem?_eq_none hgone
    simp only [Router.cancelChannel, hnone] at hr
    cases hr
    rfl

-- Contacts that are pressed anew where none is down make nothing go out.
theorem Handed.reenter {contacts : List Contact} (h : s.Handed) (hm : s.router.Mirrors s.books)
    (hconsistent : s.Consistent) (hproper : s.Proper (.reenter clock key contacts))
    (hnodup : (s.numbers ++ s.router.numbersOf (.reenter clock key contacts)).Nodup)
    (hr : s.router.reenter clock key contacts = .ok router) :
    Handed ⟨router, s.router.record s.books (.reenter clock key contacts), awaiting, numbers,
      s.handed ++ []⟩ := by
  obtain ⟨_, _, hframe⟩ := Router.reenter_frame hr
  refine h.amend_quiet hm (by rw [hframe]) fun k hk => ?_
  have hmem : key ∈ s.router.channels := mem_channels_iff.mpr ⟨_, hk.live⟩
  have hnumbers : s.router.numbersOf (.reenter clock key contacts) =
      (synthesizeAll .pressed clock contacts s.router.ids).1.map (·.id) := by
    simp [Router.numbersOf, hmem]
  rw [hnumbers] at hnodup
  obtain ⟨-, hids, hdisjoint⟩ := List.nodup_append.mp hnodup
  refine Chronicle.released_reenter hk.lived (hproper _ hk.live)
    (fun t ht => kind_of_mem_synthesizeAll ht) hids fun p hp hid => ?_
  exact hdisjoint _ (hconsistent.numbered hk.live p hp) _ hid rfl

theorem Handed.tick {handouts : List Handout} (h : s.Handed) (hm : s.router.Mirrors s.books)
    (hr : s.router.act (.tick now key) = .ok (handouts, router)) :
    Handed ⟨router, s.router.record s.books (.tick now key), awaiting, numbers,
      s.handed ++ handouts⟩ := by
  simp only [Router.act] at hr
  split at hr
  · next hnone =>
    cases hr
    rw [Router.record, Router.amend_of_none hnone]
    exact h.keep rfl
  · next channel hlive =>
    obtain ⟨⟨gestures, channel'⟩, htick, heq⟩ := map_eq_ok.mp hr
    cases heq
    refine h.amend hm rfl (fun k hk => ?_) fun hgone => ?_
    · obtain rfl := hk.channel_eq hlive
      exact (Router.tick_continues hk htick).released
    · exact absurd (mem_channels_iff.mpr ⟨_, hlive⟩) hgone

-- Something that releases nothing.
theorem Handed.quiet {e : Channel.Event} (h : s.Handed) (hm : s.router.Mirrors s.books)
    (hnext : router.nextKey = s.router.nextKey)
    (hquiet : ∀ c : Channel, ∃ d, c.step e = .ok ([], d)) :
    Handed ⟨router, s.router.amend s.books key (·.next e), awaiting, numbers, s.handed ++ []⟩ := by
  refine h.amend_quiet hm hnext fun k hk => ?_
  obtain ⟨d, hd⟩ := hquiet k.channel
  rw [Chronicle.next_of_step hd, List.append_nil]

theorem Handed.configure {settings : Settings} (h : s.Handed) :
    Handed ⟨s.router.configure settings, s.router.record s.books (.configure settings), awaiting,
      numbers, s.handed ++ []⟩ where
  given := by
    intro other
    have hgiven := h.given other
    rw [List.append_nil]
    unfold givenBy at hgiven ⊢
    rw [hgiven]
    simp only [Router.record]
    split
    · cases s.books other with
      | none => rfl
      | some k =>
        simp only [Option.map_some, Option.getD_some]
        rw [Chronicle.next_of_step (k := k) (e := .configure settings.channel) rfl, List.append_nil]
    · rfl
  unopened := by
    intro other hother
    have hnone := h.unopened other hother
    simp [Router.record, hnone]

theorem Handed.act {a : Act} {handouts : List Handout} (h : s.Handed) (hconsistent : s.Consistent)
    (hm : s.router.Mirrors s.books) (hproper : s.Proper a)
    (hnodup : (s.numbers ++ s.router.numbersOf a).Nodup)
    (hr : s.router.act a = .ok (handouts, router)) :
    Handed ⟨router, s.router.record s.books a, awaiting, numbers, s.handed ++ handouts⟩ := by
  cases a with
  | touch t consumer =>
    obtain ⟨⟨result, after⟩, htouch, heq⟩ := map_eq_ok.mp hr
    cases heq
    exact h.touch hm htouch
  | ack id consumed nonBlocking consumer =>
    obtain ⟨⟨gestures, after⟩, hack, heq⟩ := map_eq_ok.mp hr
    cases heq
    exact h.ack hm hack
  | cancelChannel now consumer key =>
    obtain ⟨result, hcancel, heq⟩ := map_eq_ok.mp hr
    cases heq
    exact h.cancelChannel hm hcancel
  | reenter clock key contacts =>
    obtain ⟨after, hreenter, heq⟩ := map_eq_ok.mp hr
    cases heq
    exact h.reenter hm hconsistent hproper hnodup hreenter
  | tick now key => exact h.tick hm hr
  | forgetHistory key =>
    cases hr
    obtain ⟨_, hframe⟩ := Router.forgetHistory_frame s.router key
    exact h.quiet hm (by rw [hframe]) fun c => ⟨_, rfl⟩
  | reassign source target key =>
    cases hr
    refine h.quiet hm ?_ fun c => ⟨_, rfl⟩
    exact Router.nextKey_displace _ _ _ _
  | configure settings =>
    cases hr
    exact h.configure
  | forget consumer =>
    cases hr
    refine h.keep ?_
    exact Router.nextKey_forget _ _
  | rebind | addHelper | removeHelper | setIds =>
    cases hr
    exact h.keep rfl

end Acts

end Session

end TouchGestures
