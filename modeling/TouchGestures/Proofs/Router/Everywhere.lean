import TouchGestures.Proofs.Router.Bound
import TouchGestures.Proofs.Router.Origin

namespace TouchGestures

namespace Router

variable {r r' : Router} {consumer : ConsumerId}

-- A touch changes hands of nothing, except that a consumer without a channel gets one.
theorem owners_touch {t : Touch} {result : TouchResult}
    (h : r.touch t consumer = .ok (result, r')) : r'.owners = (r.obtain consumer).2.owners := by
  obtain ⟨-, -, rfl⟩ | ⟨channel, channel', -, -, hr'⟩ := touch_cases h
  · rfl
  · obtain ⟨bindings, events, rfl⟩ := touch_frame hr'
    rfl

def accepts (r : Router) (t : Touch) (consumer : ConsumerId) : Bool :=
  match r.touch t consumer with
  | .ok (result, _) => result.accepted
  | .error _ => false

theorem accepts_of_touch {t : Touch} {result : TouchResult}
    (h : r.touch t consumer = .ok (result, r')) : r.accepts t consumer = result.accepted := by
  simp [accepts, h]

theorem owner_forget_iff {other : ConsumerId} {key : ChannelKey} :
    (r.forget consumer).2.owners[other]? = some key ↔
      r.owners[other]? = some key ∧ other ≠ consumer := by
  cases howner : r.owners[consumer]? with
  | none =>
    simp only [forget, howner]
    refine ⟨fun h => ⟨h, ?_⟩, And.left⟩
    rintro rfl
    rw [howner] at h
    cases h
  | some own =>
    simp only [forget, howner, removeChannel, Std.ExtTreeMap.getElem?_erase]
    by_cases hother : other = consumer
    · simp [hother]
    · simp [hother, Ne.symm hother]

-- The settings change only where they are replaced.
theorem settings_act {a : Act} {handouts : List Handout} (ha : ∀ settings, a ≠ .configure settings)
    (hr : r.act a = .ok (handouts, r')) : r'.settings = r.settings := by
  cases a with
  | touch t consumer =>
    obtain ⟨⟨result, after⟩, htouch, heq⟩ := map_eq_ok.mp hr
    cases heq
    have hobtain : (r.obtain consumer).2.settings = r.settings := by
      unfold obtain
      split <;> rfl
    obtain ⟨-, -, rfl⟩ | ⟨channel, channel', -, -, hr'⟩ := touch_cases htouch
    · exact hobtain
    · obtain ⟨bindings, events, rfl⟩ := touch_frame hr'
      exact hobtain
  | cancelChannel now consumer key =>
    obtain ⟨result, hcancel, heq⟩ := map_eq_ok.mp hr
    cases heq
    obtain ⟨_, _, _, hframe⟩ := cancelChannel_frame hcancel
    rw [hframe]
  | reassign source target key =>
    cases hr
    obtain ⟨_, _, _, _, hframe⟩ := displace_frame r source target key
    rw [hframe]
  | forget consumer =>
    cases hr
    unfold Router.forget
    simp only []
    split <;> rfl
  | rebind =>
    cases hr
    rfl
  | ack | reenter | tick | forgetHistory | configure | addHelper | removeHelper | setIds =>
    obtain ⟨-, -, hsettings | ⟨settings, hconfigure⟩⟩ := quiet_act rfl hr
    · exact hsettings
    · exact absurd hconfigure (ha settings)

end Router

namespace Session

open Channel (Chronicle Lived)
open Channel.Chronicle (Evolves)
open Router (Act Op Mirrors mem_channels_iff)

variable {s s' : Session} {a : Act} {P : Settings → ConsumerId → Chronicle → Prop}

-- Something that holds of every channel with its owner, by the settings in force.
def Everywhere (s : Session) (P : Settings → ConsumerId → Chronicle → Prop) : Prop :=
  ∀ (consumer : ConsumerId) (key : ChannelKey) (k : Chronicle),
    s.router.owners[consumer]? = some key → s.books key = some k → P s.router.settings consumer k

-- What new channels have, and what they keep while their settings stay.
structure Lasting (P : Settings → ConsumerId → Chronicle → Prop) : Prop where
  opened : ∀ settings consumer,
    P settings consumer { channel := Channel.ofSettings consumer settings.channel }
  evolves : ∀ {settings : Settings} {consumer : ConsumerId} {k k' : Chronicle},
    Lived (fun _ => True) k → Evolves (·.isLocal = true) k k' →
      P settings consumer k → P settings consumer k'
  reassigned : ∀ {settings : Settings} {source : ConsumerId} (target : ConsumerId) {k : Chronicle},
    P settings source k → P settings target (k.next (.reassign target))

-- A step that names nobody anew.
theorem Everywhere.of_local (hlasting : Lasting P) (h : s.Everywhere P)
    (hm : s.router.Mirrors s.books) (hlocal : a.isLocal = true)
    (hopened : s.router.opened s.books a = s.books)
    (howners : ∀ {consumer : ConsumerId} {key : ChannelKey},
      s'.router.owners[consumer]? = some key → s.router.owners[consumer]? = some key)
    (hact : s.act a = .ok s') : s'.Everywhere P := by
  intro consumer key k' howner hk'
  have hkept := howners howner
  obtain ⟨handouts, router, hr, rfl⟩ := act_eq_ok hact
  obtain ⟨k, hk, hevolves⟩ := Router.evolves_record hlocal hk'
  have hsettings := Router.settings_act (by rintro settings rfl; cases hlocal) hr
  rw [hopened] at hk
  exact hsettings ▸ hlasting.evolves (hm.lived hk) (hevolves.mono fun _ he => he.1)
    (h consumer key k hkept hk)

theorem Everywhere.touch {t : Touch} {consumer : ConsumerId} (hlasting : Lasting P)
    (h : s.Everywhere P) (hm : s.router.Mirrors s.books) (howned : s.router.Owned)
    (hact : s.act (.touch t consumer) = .ok s') : s'.Everywhere P := by
  intro other key k' howner hk'
  obtain ⟨result, htouch⟩ := touch_of_act hact
  rw [Router.owners_touch htouch] at howner
  obtain ⟨handouts, router, hr, rfl⟩ := act_eq_ok hact
  have hsettings := Router.settings_act (by simp) hr
  dsimp only at hk' ⊢
  obtain ⟨k, hk, hevolves⟩ := Router.evolves_record rfl hk'
  refine hsettings ▸ hlasting.evolves (hm.lived_opened hk) (hevolves.mono fun _ he => he.1) ?_
  simp only [Router.opened] at hk
  cases hbefore : s.router.owners[consumer]? with
  | some before =>
    obtain ⟨hobtain, henroll⟩ := Router.obtain_of_some hbefore s.books
    rw [hobtain] at howner
    rw [henroll] at hk
    exact h _ _ _ howner hk
  | none =>
    obtain ⟨hobtain, henroll⟩ := Router.obtain_of_none hbefore s.books
    rw [Router.getElem?_owners_obtain, hobtain] at howner
    rw [henroll] at hk
    split at howner
    · next heq =>
      cases howner
      dsimp only at hk
      rw [if_pos rfl] at hk
      cases hk
      exact heq ▸ hlasting.opened _ _
    · have hne : key ≠ s.router.nextKey := by
        rintro rfl
        obtain ⟨channel, hchannel⟩ := mem_channels_iff.mp (howned.live howner)
        rw [hm.unopened (Nat.le_refl _)] at hchannel
        cases hchannel
      dsimp only at hk
      rw [if_neg hne] at hk
      exact h _ _ _ howner hk

theorem Everywhere.reassign {source target : ConsumerId} {moving : ChannelKey}
    (hlasting : Lasting P) (h : s.Everywhere P) (howned : s.router.Owned)
    (hgranted : s.Granted (.reassign source target moving))
    (hact : s.act (.reassign source target moving) = .ok s') : s'.Everywhere P := by
  intro other key k' howner hk'
  obtain ⟨hsource, -⟩ := hgranted
  obtain ⟨handouts, router, hr, rfl⟩ := act_eq_ok hact
  have hsettings := Router.settings_act (by simp) hr
  cases hr
  dsimp only at howner hk' ⊢
  rw [hsettings]
  rw [Router.getElem?_owners_displace] at howner
  simp only [Router.record, Router.amend] at hk'
  split at howner
  · next htarget =>
    cases howner
    rw [if_pos ⟨rfl, howned.live hsource⟩] at hk'
    obtain ⟨k, hk, rfl⟩ := Option.map_eq_some_iff.mp hk'
    exact htarget ▸ hlasting.reassigned target (h source moving k hsource hk)
  · split at howner
    · cases howner
    · next hother =>
      have hne : key ≠ moving := by
        rintro rfl
        exact hother (howned.single hsource howner)
      rw [if_neg fun hkey => hne hkey.1] at hk'
      exact h _ _ _ howner hk'

theorem Everywhere.configure {settings : Settings} (h : s.Everywhere P)
    (hconfigure : ∀ {consumer : ConsumerId} {k : Chronicle}, P s.router.settings consumer k →
      P settings consumer (k.next (.configure settings.channel)))
    (howned : s.router.Owned) (hact : s.act (.configure settings) = .ok s') : s'.Everywhere P := by
  intro consumer key k' howner hk'
  obtain ⟨handouts, router, hr, rfl⟩ := act_eq_ok hact
  cases hr
  simp only [Router.record, if_pos (howned.live howner)] at hk'
  obtain ⟨k, hk, rfl⟩ := Option.map_eq_some_iff.mp hk'
  exact hconfigure (h consumer key k howner hk)

-- What lasts stays with every channel as long as new settings leave it alone.
theorem Everywhere.act (hlasting : Lasting P) (h : s.Everywhere P)
    (hconfigure : ∀ settings, a = .configure settings → ∀ {consumer : ConsumerId} {k : Chronicle},
      P s.router.settings consumer k → P settings consumer (k.next (.configure settings.channel)))
    (hm : s.router.Mirrors s.books) (howned : s.router.Owned) (hgranted : s.Granted a)
    (hact : s.act a = .ok s') : s'.Everywhere P := by
  have hcalm : a.isCalm = true → s'.router.owners = s.router.owners := by
    obtain ⟨handouts, router, hr, rfl⟩ := act_eq_ok hact
    exact fun hcalm => (Router.loosens_act hcalm hr).owners
  cases a with
  | touch t consumer => exact h.touch hlasting hm howned hact
  | reassign source target moving => exact h.reassign hlasting howned hgranted hact
  | configure settings => exact h.configure (hconfigure settings rfl) howned hact
  | rebind contacts target =>
    refine h.of_local hlasting hm rfl rfl (fun howner => ?_) hact
    obtain ⟨handouts, router, hr, rfl⟩ := act_eq_ok hact
    cases hr
    exact howner
  | forget forgotten =>
    refine h.of_local hlasting hm rfl rfl (fun howner => ?_) hact
    obtain ⟨handouts, router, hr, rfl⟩ := act_eq_ok hact
    cases hr
    exact (Router.owner_forget_iff.mp howner).1
  | ack | cancelChannel | reenter | tick | forgetHistory | addHelper | removeHelper | setIds =>
    exact h.of_local hlasting hm rfl rfl (fun howner => hcalm rfl ▸ howner) hact

theorem everywhere_start (settings : Settings) (ids : EventIds) :
    Everywhere { router := { settings, ids } } P := by
  intro consumer key k howner
  simp at howner

-- What not even new settings change is so wherever a host leads.
theorem Reached.everywhere {permits : Session → Op → Prop} (h : Reached permits s)
    (hlasting : Lasting P)
    (hconfigure : ∀ {settings settings' : Settings} {consumer : ConsumerId} {k : Chronicle},
      P settings consumer k → P settings' consumer (k.next (.configure settings'.channel))) :
    s.Everywhere P := by
  refine (h.induct (P := fun s => s.router.Owned ∧ s.Everywhere P)
    (fun settings ids => ⟨Router.owned_start settings ids, everywhere_start settings ids⟩) ?_).2
  intro s s' a hm hgranted hs hact
  have heverywhere := hs.2.act hlasting (fun _ _ => hconfigure) hm hs.1 hgranted hact
  obtain ⟨handouts, router, hr, rfl⟩ := act_eq_ok hact
  exact ⟨owned_act hs.1 hm hgranted hr, heverywhere⟩

end Session

end TouchGestures
