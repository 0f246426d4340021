import TouchGestures.Proofs.Channel.Continuing
import TouchGestures.Proofs.Router.Down

namespace TouchGestures.Session

open Channel (Chronicle Idles idles_refl)
open Router (Act Op mem_channels_iff)

variable {s s' s₁ s₂ : Session} {key : ChannelKey} {k : Chronicle} {log : List Touch}
  {source target consumer : ConsumerId} {clock : Clock} {now : Time}

-- The operation neither cancels the contacts of a consumer nor takes its channel away. A
-- transfer does if there is anything to hand over.
def Leaves (s : Session) (target : ConsumerId) : Op → Prop
  | .cancel _ consumer => consumer ≠ target
  | .cancelOn _ consumers => target ∉ consumers
  | .cancelExcept _ spared => spared = some target
  | .transfer clock source other manner =>
    (s.router.transferTouches clock source other manner).map (·.1) = .ok false
  | .forget consumer => consumer ≠ target
  | _ => True

def acceptedFor (s : Session) (target : ConsumerId) : Op → List Touch
  | .touch t consumer => if consumer = target ∧ s.router.accepts t consumer then [t] else []
  | _ => []

-- The sessions to which a host can get from one while it leaves the stream of a consumer
-- alone, with the touches that were accepted for the consumer on the way.
inductive Proceeds (target : ConsumerId) (s : Session) : List Touch → Session → Prop
  | start : Proceeds target s [] s
  | step {log : List Touch} {s₁ s₂ : Session} {op : Op} (h : Proceeds target s log s₁)
    (hop : s₁.Leaves target op) (hs : s₁.perform op = .ok s₂) :
    Proceeds target s (log ++ s₁.acceptedFor target op) s₂

theorem Proceeds.reached {permits : Session → Op → Prop} (h : s.Proceeds target log s')
    (hreached : Reached permits s) : Reached (fun _ _ => True) s' := by
  induction h with
  | start => exact hreached.mono fun _ _ _ => trivial
  | step _ _ hs ih => exact ih.step trivial hs

-- A consumer owns a channel, which goes on from its record so far as it was.
def Holds (s : Session) (target : ConsumerId) (key : ChannelKey) (k : Chronicle) : Prop :=
  s.router.owners[target]? = some key ∧
    ∃ k', s.books key = some k' ∧ Idles k.channel k'.channel

theorem transferActs_eq_nil {manner : Router.Transfer}
    (h : (s.router.transferTouches clock source consumer manner).map (·.1) = .ok false) :
    s.router.transferActs clock source consumer manner = [] := by
  unfold Router.transferTouches at h
  unfold Router.transferActs
  simp only [] at h ⊢
  split at h
  · next hnothing => rw [if_pos hnothing]
  · obtain ⟨⟨done, rest⟩, hdone, heq⟩ := map_eq_ok.mp h
    obtain ⟨bystanders, -, hdone⟩ := bind_eq_ok.mp hdone
    split at hdone <;> obtain ⟨parties, -, hdone⟩ := bind_eq_ok.mp hdone <;> cases hdone <;>
      cases heq

-- A touch for the consumer goes to its channel.
theorem own_touch {t : Touch} (hm : s.router.Mirrors s.books) (howned : s.router.Owned)
    (howner : s.router.owners[target]? = some key) (hk : s.books key = some k)
    (hs : s.perform (.touch t target) = .ok s') :
    s'.router.owners[target]? = some key ∧ s'.books key = some (k.next (.touch t)) ∧
      s.router.accepts t target = k.accepts t := by
  obtain ⟨hobtain, henroll⟩ := Router.obtain_of_some howner s.books
  have hsame : s.withChannel target = s := by simp [withChannel, hobtain, henroll]
  have hact := play_singleton.mp hs
  obtain ⟨⟨k', haccounts, hk', hbooks⟩, -⟩ := books_touch hm howned hact
  rw [hsame, hobtain] at haccounts hk'
  rw [hobtain] at hbooks
  rw [hk, Option.some.injEq] at hk'
  subst hk'
  obtain ⟨result, htouch⟩ := touch_of_act hact
  refine ⟨?_, hbooks, ?_⟩
  · rw [Router.owners_touch htouch, hobtain]
    exact howner
  · rw [Router.accepts_of_touch htouch]
    obtain ⟨hnone, -, -⟩ | ⟨channel, channel', hlive, htouched, -⟩ := Router.touch_cases htouch
    · rw [hobtain, haccounts.live] at hnone
      cases hnone
    · rw [hobtain] at hlive
      obtain rfl := haccounts.channel_eq hlive
      simp [Chronicle.accepts, htouched]

-- Touches for others do not concern it.
theorem holds_of_other_touch {t : Touch} (hm : s.router.Mirrors s.books)
    (howned : s.router.Owned) (howner : s.router.owners[target]? = some key)
    (hk : s.books key = some k) (hne : consumer ≠ target)
    (hs : s.perform (.touch t consumer) = .ok s') : s'.Holds target key k := by
  have hact := play_singleton.mp hs
  have howners : (s.withChannel consumer).router.owners[target]? = some key := by
    refine (Router.getElem?_owners_obtain target).trans ?_
    rw [if_neg hne, howner]
  have hother : key ≠ (s.router.obtain consumer).1 := by
    rintro rfl
    exact hne ((howned.obtain hm.nextKey_notMem).single (owner_withChannel s consumer) howners)
  obtain ⟨-, hothers⟩ := books_touch hm howned hact
  refine ⟨?_, k, ?_, idles_refl _⟩
  · obtain ⟨result, htouch⟩ := touch_of_act hact
    exact (congrArg (·[target]?) (Router.owners_touch htouch)).trans howners
  · rw [hothers key hother, books_withChannel hm (howned.live howner), hk]

theorem holds_of_cancels {consumers : List ConsumerId} (hm : s.router.Mirrors s.books)
    (howned : s.router.Owned) (howner : s.router.owners[target]? = some key)
    (hk : s.books key = some k) (hnot : target ∉ consumers)
    (hs : s.play (s.router.cancelEachActs clock consumers) = .ok s') : s'.Holds target key k := by
  rw [Router.cancelEachActs_eq] at hs
  have hundisturbed :=
    undisturbed_of_cancels hm howned howner (by rwa [Clock.map_snd_stamp]) hs
  exact ⟨hundisturbed.owners ▸ howner, k, hundisturbed.keeps.books.trans hk, idles_refl _⟩

theorem holds_of_quiet {acts : List Act} (howner : s.router.owners[target]? = some key)
    (hk : s.books key = some k)
    (hacts : ∀ a ∈ acts, a.isQuiet = true ∧ a.isLocal = true ∧ ¬a.Stirs key)
    (hs : s.play acts = .ok s') : s'.Holds target key k := by
  refine play_induction (P := fun s => s.Holds target key k) ⟨howner, k, hk, idles_refl _⟩ ?_ hs
  intro s₁ s₂ a ha ⟨howner, k₁, hk₁, hidles⟩ hact
  obtain ⟨hquiet, hlocal, hstirs⟩ := hacts a ha
  obtain ⟨handouts, router, hr, rfl⟩ := act_eq_ok hact
  obtain ⟨k₂, hk₂, hrests⟩ := Router.rests_record hlocal hstirs hk₁
  exact ⟨by rw [(Router.quiet_act hquiet hr).1, howner], k₂, hk₂, hidles.trans hrests.idles⟩

theorem holds_of_configure {settings : Settings} (howned : s.router.Owned)
    (howner : s.router.owners[target]? = some key) (hk : s.books key = some k)
    (hs : s.perform (.configure settings) = .ok s') : s'.Holds target key k := by
  have hact := play_singleton.mp hs
  obtain ⟨handouts, router, hr, rfl⟩ := act_eq_ok hact
  cases hr
  refine ⟨howner, _, ?_, Chronicle.idles_configure k settings.channel⟩
  simp [Router.record, howned.live howner, hk]

theorem holds_of_forget (howner : s.router.owners[target]? = some key) (hk : s.books key = some k)
    (hne : consumer ≠ target) (hs : s.perform (.forget consumer) = .ok s') :
    s'.Holds target key k := by
  have hact := play_singleton.mp hs
  obtain ⟨handouts, router, hr, rfl⟩ := act_eq_ok hact
  cases hr
  exact ⟨Router.owner_forget_iff.mpr ⟨howner, Ne.symm hne⟩, k, hk, idles_refl _⟩

-- An operation that leaves the consumer's stream alone has a touch accepted on its channel,
-- or does not concern it.
theorem step_of_leaves {op : Op} (hm : s.router.Mirrors s.books) (howned : s.router.Owned)
    (howner : s.router.owners[target]? = some key) (hk : s.books key = some k)
    (hop : s.Leaves target op) (hs : s.perform op = .ok s') :
    (s.acceptedFor target op = [] ∧ s'.Holds target key k) ∨
      ∃ t, s.acceptedFor target op = [t] ∧ k.accepts t = true ∧
        s'.router.owners[target]? = some key ∧ s'.books key = some (k.next (.touch t)) := by
  cases op with
  | touch t consumer =>
    by_cases heq : consumer = target
    · subst heq
      obtain ⟨howner', hk', haccepts⟩ := own_touch hm howned howner hk hs
      cases hcase : k.accepts t with
      | true => exact .inr ⟨t, by simp [acceptedFor, haccepts, hcase], hcase, howner', hk'⟩
      | false =>
        refine .inl ⟨by simp [acceptedFor, haccepts, hcase], howner', _, hk', ?_⟩
        rw [Chronicle.channel_of_not_accepts (hm.lived hk).sound hcase]
        exact idles_refl _
    · exact .inl ⟨by simp [acceptedFor, heq], holds_of_other_touch hm howned howner hk heq hs⟩
  | cancel now consumer =>
    have hnot : target ∉ [consumer] := by simpa using Ne.symm hop
    have hcancels : s.play (s.router.cancelEachActs (.still now) [consumer]) = .ok s' := by
      rw [Router.cancelEachActs_eq]
      exact (congrArg s.play (s.router.cancelsOf_singleton now consumer)).trans hs
    exact .inl ⟨rfl, holds_of_cancels hm howned howner hk hnot hcancels⟩
  | cancelOn clock consumers => exact .inl ⟨rfl, holds_of_cancels hm howned howner hk hop hs⟩
  | cancelExcept clock spared =>
    refine .inl ⟨rfl, holds_of_cancels hm howned howner hk (fun hmem => ?_) hs⟩
    have hspared : spared = some target := hop
    exact (Router.mem_consumersExcept.mp hmem).2 (by simp [hspared])
  | transfer now source other manner =>
    have hnil : s.play [] = .ok s' := transferActs_eq_nil hop ▸ hs
    cases hnil
    exact .inl ⟨rfl, howner, k, hk, idles_refl _⟩
  | forget consumer => exact .inl ⟨rfl, holds_of_forget howner hk hop hs⟩
  | configure settings => exact .inl ⟨rfl, holds_of_configure howned howner hk hs⟩
  | tick now =>
    refine .inl ⟨rfl, holds_of_quiet howner hk (fun a ha => ?_) hs⟩
    obtain ⟨other, -, rfl⟩ := List.mem_map.mp ha
    exact ⟨rfl, rfl, id⟩
  | ack | addHelper | removeHelper | setIds =>
    refine .inl ⟨rfl, holds_of_quiet howner hk (fun a ha => ?_) hs⟩
    rw [List.mem_singleton.mp ha]
    exact ⟨rfl, rfl, id⟩

-- What the record of a contact's channel shows while the host leaves its stream alone,
-- if the contact was pressed anew at some time, or else if it was not.
def Tracks (s : Session) (target : ConsumerId) (key : ChannelKey) (now : Time) (pressed : Prop)
    (log : List Touch) (id : ContactId) : Prop :=
  s.router.owners[target]? = some key ∧ ∃ k, s.books key = some k ∧
    (pressed → k.Carries now log id) ∧ (¬pressed → id ∉ k.channel.contacts.ids)

theorem Proceeds.tracks {pressed : Prop} {id : ContactId} (h : s₁.Proceeds target log s₂)
    (hreached : Reached (fun _ _ => True) s₁) (hstart : s₁.Tracks target key now pressed [] id)
    (hmoves : ∀ u ∈ log, u.contact.id = id → u.kind = .moved) :
    s₂.Tracks target key now pressed log id := by
  induction h with
  | start => exact hstart
  | @step log s s' op h hop hs ih =>
    have hreached' := h.reached hreached
    obtain ⟨howner, k, hk, hcarries, hnot⟩ :=
      ih fun u hu => hmoves u (List.mem_append_left _ hu)
    have hsound := (hreached'.mirrors.lived hk).sound
    obtain ⟨hnone, howner', k', hk', hidles⟩ | ⟨t, hone, haccepts, howner', hk'⟩ :=
      step_of_leaves hreached'.mirrors hreached'.owned howner hk hop hs
    · rw [hnone, List.append_nil]
      refine ⟨howner', k', hk', fun hpressed => (hcarries hpressed).idles hidles,
        fun hpressed => ?_⟩
      rw [hidles.ids]
      exact hnot hpressed
    · rw [hone] at hmoves ⊢
      have hmoved := hmoves t (by simp)
      exact ⟨howner', _, hk', fun hpressed => (hcarries hpressed).next_touch hsound haccepts hmoved,
        fun hpressed => Chronicle.notMem_ids_next_touch hsound (hnot hpressed) fun _ => hmoved⟩

-- Of some contacts with different numbers, one is among the first if its number is.
theorem mem_take_map_id_iff {contacts : List Contact} {c : Contact} (hc : c ∈ contacts)
    (hdistinct : (contacts.map Contact.id).Nodup) (n : Nat) :
    c.id ∈ (contacts.map Contact.id).take n ↔ c ∈ contacts.take n := by
  rw [← List.map_take, List.mem_map]
  constructor
  · rintro ⟨other, hother, hid⟩
    rwa [← List.inj_on_of_nodup_map hdistinct (List.mem_of_mem_take hother) hc hid]
  · exact fun hmem => ⟨c, hmem, rfl⟩

-- When the touches of a consumer are handed over with a cancel, a contact that was down moves
-- on or is released on the new owner, as long as no touch there is younger, just if this is
-- not before the last contact was pressed anew, the contact is among those for which there
-- was room, and no contact of the new owner was cancelled since.
theorem Reached.accepted_iff_of_transfer {permits : Session → Op → Prop} (h : Reached permits s)
    {channel : Channel} {c : Contact} {t : Touch}
    (hchannel : s.router.channel? source = some channel) (hc : c ∈ channel.contacts.live)
    (htrue : (s.router.transferTouches clock source target .cancelling).map (·.1) = .ok true)
    (hs : s.perform (.transfer clock source target .cancelling) = .ok s₁)
    (hproceeds : s₁.Proceeds target log s₂)
    (hmoves : ∀ u ∈ log, u.contact.id = c.id → u.kind = .moved)
    (hid : t.contact.id = c.id) (hkind : t.kind = .moved ∨ t.kind = .released)
    (htimes : ∀ u ∈ log, u.time ≤ t.time) :
    ∃ result router, s₂.router.touch t target = .ok (result, router) ∧
      (result.accepted = true ↔
        (s.router.entryClock clock source target).read
            ((channel.contacts.live.take channel.contacts.limit.toNat).length - 1) ≤ t.time ∧
          c ∈ channel.contacts.live.take channel.contacts.limit.toNat ∧
          ∀ u ∈ log, u.kind ≠ .cancelled) := by
  have hne : source ≠ target := by
    rintro rfl
    simp [Router.transferTouches] at htrue
  obtain ⟨key, howner, hlive⟩ := Router.channel?_eq_some_iff.mp hchannel
  obtain ⟨k, hk, haccounts⟩ := h.mirrors.book hlive
  obtain rfl := haccounts.channel_eq hlive
  have hcontacts := ContactTable.live_of_leaving_eq_none haccounts.lived.sound.settled
  rw [hcontacts] at hc ⊢
  have hreached₁ : Reached (fun _ _ => True) s₁ := (h.mono fun _ _ _ => trivial).step trivial hs
  obtain ⟨k₁, hk₁, hcurrent, hids⟩ :=
    current_of_transfer h.mirrors h.owned howner hne hk hs
  generalize (s.router.entryClock clock source target).read
    ((k.channel.contacts.contacts.take k.channel.contacts.limit.toNat).length - 1) = began
    at hcurrent ⊢
  have hmem : c.id ∈ k₁.channel.contacts.ids ↔
      c ∈ k.channel.contacts.contacts.take k.channel.contacts.limit.toNat := by
    rw [hids]
    exact mem_take_map_id_iff hc (Chronicle.distinct_of_lived haccounts.lived) _
  have hstart : s₁.Tracks target key began
      (c ∈ k.channel.contacts.contacts.take k.channel.contacts.limit.toNat) [] c.id :=
    ⟨(owners_of_transfer howner hne hs target).trans (if_pos rfl), k₁, hk₁,
      fun hpressed => hcurrent.carries (hmem.mpr hpressed), fun hpressed => mt hmem.mp hpressed⟩
  obtain ⟨howner₂, k₂, hk₂, hcarries, hnot⟩ := hproceeds.tracks hreached₁ hstart hmoves
  have hreached₂ := hproceeds.reached hreached₁
  have hlive₂ := hreached₂.owned.live howner₂
  have haccounts₂ := hreached₂.mirrors.accounts hk₂ hlive₂
  have hsound := haccounts₂.lived.sound
  have hkind' : t.kind ≠ .pressed := by
    rintro hpressed
    simp [hpressed] at hkind
  have haccepts : k₂.accepts t = true ↔
      began ≤ t.time ∧ c ∈ k.channel.contacts.contacts.take k.channel.contacts.limit.toNat ∧
        ∀ u ∈ log, u.kind ≠ .cancelled := by
    by_cases hpressed : c ∈ k.channel.contacts.contacts.take k.channel.contacts.limit.toNat
    · rw [(hcarries hpressed).accepts_iff hsound hid hkind htimes, and_iff_right hpressed]
    · rw [Chronicle.accepts_eq_false_of_notMem hsound (hid ▸ hnot hpressed) hkind']
      simp [hpressed]
  obtain ⟨result, router, htouch⟩ : ∃ result router,
      s₂.router.touch t target = .ok (result, router) := by
    obtain ⟨result, channel, htouch⟩ := Chronicle.exists_touch hsound t
    have hobtain := (Router.obtain_of_some howner₂ s₂.books).1
    simp only [Router.touch, hobtain, haccounts₂.live, htouch, ok_bind]
    split <;> exact ⟨_, _, rfl⟩
  have hs₂ : ∃ s₃, s₂.perform (.touch t target) = .ok s₃ := by
    simp [perform, Router.acts, play, act, Router.act, htouch]
  obtain ⟨s₃, hs₃⟩ := hs₂
  obtain ⟨-, -, hsame⟩ := own_touch hreached₂.mirrors hreached₂.owned howner₂ hk₂ hs₃
  refine ⟨result, router, htouch, ?_⟩
  rw [← Router.accepts_of_touch htouch, hsame, haccepts]

-- The press of a finger, which the consumer left to its gestures.
def touched : Session :=
  ((start 9).attempt (.touch (Channel.finger .pressed 1 10 0 1) 1)).attempt (.ack 1 false false 1)

def touchedChannel : Channel :=
  (touched.router.channel? 1).getD (Channel.ofSettings 1 {})

def shifted (milliseconds : Nat) : Session :=
  touched.attempt (.transfer (.still (Duration.milliseconds milliseconds)) 1 2 .cancelling)

theorem reached_touched : Reached (fun _ _ => True) touched :=
  ((Reached.start {} ⟨9⟩).attempt trivial).attempt trivial

def shiftedOn : Session := (shifted 30).attempt (.touch (Channel.finger .moved 1 20 40 2) 2)

theorem proceeds_shiftedOn :
    (shifted 30).Proceeds 2 [Channel.finger .moved 1 20 40 2] shiftedOn := by
  have hlog : [] ++ (shifted 30).acceptedFor 2 (.touch (Channel.finger .moved 1 20 40 2) 2) =
      [Channel.finger .moved 1 20 40 2] := by decide +kernel
  exact hlog ▸ .step .start trivial (perform_attempt (by decide +kernel))

theorem accepted_iff_of_shiftedOn :
    Reached (fun _ _ => True) touched ∧ touched.router.channel? 1 = some touchedChannel ∧
      Contact.ofPress (Channel.finger .pressed 1 10 0 1) ∈ touchedChannel.contacts.live ∧
      (touched.router.transferTouches (.still (Duration.milliseconds 30)) 1 2 .cancelling).map
        (·.1) = .ok true ∧
      (shifted 30).Proceeds 2 [Channel.finger .moved 1 20 40 2] shiftedOn ∧
      ∃ result router,
        shiftedOn.router.touch (Channel.finger .released 1 20 50 3) 2 = .ok (result, router) ∧
        result.accepted = true := by
  have hchannel : touched.router.channel? 1 = some touchedChannel := by decide +kernel
  have hc : Contact.ofPress (Channel.finger .pressed 1 10 0 1) ∈ touchedChannel.contacts.live := by
    decide +kernel
  have htrue : (touched.router.transferTouches (.still (Duration.milliseconds 30)) 1 2
      .cancelling).map (·.1) = .ok true := by decide +kernel
  have hs : touched.perform (.transfer (.still (Duration.milliseconds 30)) 1 2 .cancelling) =
      .ok (shifted 30) := perform_attempt (by decide +kernel)
  obtain ⟨result, router, htouch, hiff⟩ := reached_touched.accepted_iff_of_transfer hchannel hc
    htrue hs proceeds_shiftedOn (by decide +kernel) (t := Channel.finger .released 1 20 50 3) rfl
    (.inr rfl) (by decide +kernel)
  exact ⟨reached_touched, hchannel, hc, htrue, proceeds_shiftedOn, result, router, htouch,
    hiff.mpr (by decide +kernel)⟩

-- If the stream changes hands at a later time than that of the finger's release, the release
-- is turned down, although no touch of the finger is younger. The finger stays down.
theorem not_accepted_of_lateShift :
    Reached (fun _ _ => True) touched ∧ touched.router.channel? 1 = some touchedChannel ∧
      Contact.ofPress (Channel.finger .pressed 1 10 0 1) ∈ touchedChannel.contacts.live ∧
      (touched.router.transferTouches (.still (Duration.milliseconds 100)) 1 2 .cancelling).map
        (·.1) = .ok true ∧
      touched.perform (.transfer (.still (Duration.milliseconds 100)) 1 2 .cancelling) =
        .ok (shifted 100) ∧
      (Channel.finger .pressed 1 10 0 1).time ≤ (Channel.finger .released 1 10 50 2).time ∧
      ((shifted 100).router.touch (Channel.finger .released 1 10 50 2) 2).map
        (fun after => (after.1.accepted, after.2.boundConsumer? 1)) = .ok (false, some 2) := by
  refine ⟨reached_touched, by decide +kernel, by decide +kernel, by decide +kernel,
    perform_attempt (by decide +kernel), by decide +kernel, by decide +kernel⟩

end TouchGestures.Session
