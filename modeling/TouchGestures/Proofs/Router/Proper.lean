import TouchGestures.Proofs.Channel.Reentry
import TouchGestures.Proofs.Router.Mirror

namespace TouchGestures

open Channel (Chronicle)

namespace Router

variable {r r' : Router} {books : Books} {consumer : ConsumerId} {key : ChannelKey} {now : Time}
  {clock : Clock}

-- No contact is down on a channel whose contacts were cancelled.
theorem contacts_of_cancelChannel {result : Bool × List Notice × Router} {channel : Channel}
    (h : Mirrors r books) (hr : r.cancelChannel now consumer key = .ok result)
    (hlive : result.2.2.channels[key]? = some channel) : channel.contacts.contacts = [] := by
  cases hbefore : r.channels[key]? with
  | none =>
    simp only [cancelChannel, hbefore] at hr
    cases hr
    rw [hbefore] at hlive
    cases hlive
  | some before =>
    obtain ⟨k, -, hk⟩ := h.book hbefore
    rw [(cancelChannel_continues hk hr).accounts.channel_eq hlive]
    exact Chronicle.contacts_injectAll_cancels hk.lived _ _ _

-- Cancelling contacts does not change who owns what.
theorem owners_of_act_cancelChannel {handouts : List Handout}
    (hr : r.act (.cancelChannel now consumer key) = .ok (handouts, r')) :
    r'.owners = r.owners := by
  obtain ⟨result, hcancel, heq⟩ := map_eq_ok.mp hr
  obtain ⟨_, _, _, hframe⟩ := cancelChannel_frame hcancel
  cases heq
  rw [hframe]

theorem mem_cancelActs {a : Act} :
    a ∈ r.cancelActs now consumer ↔
      ∃ key, r.owners[consumer]? = some key ∧ a = .cancelChannel now consumer key := by
  unfold cancelActs
  cases r.owners[consumer]? <;> simp

theorem owners_of_play_cancels {acts : List Act} {handouts : List Handout}
    (hcancels : ∀ a ∈ acts, ∃ now consumer key, a = .cancelChannel now consumer key)
    (h : r.play acts = .ok (handouts, r')) : r'.owners = r.owners := by
  induction acts generalizing r handouts with
  | nil =>
    cases h
    rfl
  | cons a rest ih =>
    obtain ⟨⟨first, r₁⟩, hact, h⟩ := bind_eq_ok.mp h
    obtain ⟨⟨others, r₂⟩, hrest, h⟩ := bind_eq_ok.mp h
    cases h
    obtain ⟨now, consumer, key, rfl⟩ := hcancels a List.mem_cons_self
    rw [ih (fun b hb => hcancels b (List.mem_cons_of_mem _ hb)) hrest,
      owners_of_act_cancelChannel hact]

theorem owners_after_cancels {acts : List Act}
    (hcancels : ∀ a ∈ acts, ∃ now consumer key, a = .cancelChannel now consumer key) :
    (r.after acts).owners = r.owners := by
  unfold after
  split
  · next hplay => exact owners_of_play_cancels hcancels hplay
  · rfl

theorem cancels_cancelActs (r : Router) (now : Time) (consumer : ConsumerId) :
    ∀ a ∈ r.cancelActs now consumer, ∃ now consumer key, a = .cancelChannel now consumer key := by
  intro a ha
  obtain ⟨key, -, rfl⟩ := mem_cancelActs.mp ha
  exact ⟨now, consumer, key, rfl⟩

theorem cancelActs_congr (h : r'.owners = r.owners) : r'.cancelActs now = r.cancelActs now := by
  funext consumer
  unfold cancelActs
  rw [h]

-- The steps by which some consumers are cancelled, each at a time of its own.
def cancelsOf (r : Router) (visits : List (Time × ConsumerId)) : List Act :=
  visits.flatMap fun (now, consumer) => r.cancelActs now consumer

theorem mem_cancelsOf {visits : List (Time × ConsumerId)} {a : Act} :
    a ∈ r.cancelsOf visits ↔
      ∃ visit ∈ visits, ∃ key, r.owners[visit.2]? = some key ∧
        a = .cancelChannel visit.1 visit.2 key := by
  simp only [cancelsOf, List.mem_flatMap, mem_cancelActs]

theorem cancels_cancelsOf (r : Router) (visits : List (Time × ConsumerId)) :
    ∀ a ∈ r.cancelsOf visits, ∃ now consumer key, a = .cancelChannel now consumer key := by
  intro a ha
  obtain ⟨⟨now, consumer⟩, -, key, -, rfl⟩ := mem_cancelsOf.mp ha
  exact ⟨now, consumer, key, rfl⟩

theorem cancelsOf_singleton (r : Router) (now : Time) (consumer : ConsumerId) :
    r.cancelsOf [(now, consumer)] = r.cancelActs now consumer :=
  List.flatMap_singleton _ _

-- Which channels are cancelled for some consumers is settled beforehand.
theorem cancelEachActs_eq (r : Router) (clock : Clock) (consumers : List ConsumerId) :
    r.cancelEachActs clock consumers = r.cancelsOf (clock.stamp consumers) := by
  induction consumers generalizing r clock with
  | nil => rfl
  | cons consumer rest ih =>
    have howners : (r.after (r.cancelActs clock.now consumer)).owners = r.owners :=
      owners_after_cancels (r.cancels_cancelActs clock.now consumer)
    rw [cancelEachActs, ih]
    simp only [cancelsOf, cancelActs_congr howners]
    rfl

theorem mem_cancelEachActs {consumers : List ConsumerId} {a : Act} :
    a ∈ r.cancelEachActs clock consumers ↔
      ∃ visit ∈ clock.stamp consumers, ∃ key, r.owners[visit.2]? = some key ∧
        a = .cancelChannel visit.1 visit.2 key := by
  rw [cancelEachActs_eq, mem_cancelsOf]

theorem cancels_cancelEachActs (r : Router) (clock : Clock) (consumers : List ConsumerId) :
    ∀ a ∈ r.cancelEachActs clock consumers,
      ∃ now consumer key, a = .cancelChannel now consumer key := by
  rw [cancelEachActs_eq]
  exact r.cancels_cancelsOf _

-- The clock when everyone else's contacts are cancelled and the two parties come to it.
def partyClock (r : Router) (clock : Clock) (source target : ConsumerId) : Clock :=
  clock.drop (r.consumersExcept [source, target]).length

-- The clock when these are done with and the contacts of the source are pressed anew.
def entryClock (r : Router) (clock : Clock) (source target : ConsumerId) : Clock :=
  (r.partyClock clock source target).rest.rest

-- The steps of a transfer from a consumer that has a channel.
theorem transferActs_eq {source target : ConsumerId} (clock : Clock) (transfer : Transfer)
    (howner : r.owners[source]? = some key) (hne : source ≠ target) :
    ∃ r' replacing, r.transferActs clock source target transfer =
      r.cancelsOf (clock.stamp (r.consumersExcept [source, target])) ++
        (r.cancelActs (r.partyClock clock source target).now target ++
          .reassign source target key ::
            (settleActs r' (r.partyClock clock source target).rest source key replacing transfer ++
              [.rebind (r.boundTo source) target])) := by
  have howners :
      (r.after (r.cancelEachActs clock (r.consumersExcept [source, target]))).owners = r.owners :=
    owners_after_cancels (r.cancels_cancelEachActs clock _)
  unfold transferActs
  simp only [howner, hne, decide_false, Option.isNone_some, Bool.false_and, Bool.or_false,
    Bool.false_eq_true, if_false, handOverActs]
  rw [cancelActs_congr howners, ← cancelEachActs_eq]
  exact ⟨_, _, by simp only [List.append_assoc, List.singleton_append]; rfl⟩

-- The operation that a step is all of, if there is one.
def Act.whole? : Act → Option Op
  | .touch t consumer => some (.touch t consumer)
  | .ack id consumed nonBlocking consumer => some (.ack id consumed nonBlocking consumer)
  | .forget consumer => some (.forget consumer)
  | .configure settings => some (.configure settings)
  | .addHelper helper => some (.addHelper helper)
  | .removeHelper id => some (.removeHelper id)
  | .setIds ids => some (.setIds ids)
  | _ => none

theorem whole?_of_mem_settleActs {source : ConsumerId} {replacing : Bool} {transfer : Transfer}
    {a : Act} (ha : a ∈ r.settleActs clock source key replacing transfer) : a.whole? = none := by
  obtain rfl | ⟨live, rfl⟩ | rfl := eq_of_mem_settleActs ha <;> rfl

theorem whole?_of_mem_handOverActs {source target : ConsumerId} {transfer : Transfer} {a : Act}
    (ha : a ∈ r.handOverActs clock source target key transfer) : a.whole? = none := by
  rcases List.mem_append.mp ha with ha | ha
  · rcases List.mem_append.mp ha with ha | ha
    · obtain ⟨key, -, rfl⟩ := mem_cancelActs.mp ha
      rfl
    · rw [List.mem_singleton.mp ha]
      rfl
  · exact whole?_of_mem_settleActs ha

theorem whole?_of_mem_transferActs {source target : ConsumerId} {transfer : Transfer} {a : Act}
    (ha : a ∈ r.transferActs clock source target transfer) : a.whole? = none := by
  unfold transferActs at ha
  simp only [] at ha
  split at ha
  · cases ha
  · rcases List.mem_append.mp ha with ha | ha
    · rcases List.mem_append.mp ha with ha | ha
      · obtain ⟨now, consumer, key, rfl⟩ := cancels_cancelEachActs _ _ _ a ha
        rfl
      · split at ha
        · exact whole?_of_mem_handOverActs ha
        · rw [Option.mem_toList, Option.map_eq_some_iff] at ha
          obtain ⟨key, -, rfl⟩ := ha
          rfl
    · rw [List.mem_singleton.mp ha]
      rfl

-- Such a step is taken in no other operation.
theorem eq_of_mem_acts {op op' : Op} {a : Act} (ha : a ∈ r.acts op) (hwhole : a.whole? = some op') :
    op = op' := by
  have hnone : a.whole? = none → op = op' := fun hnone => by
    rw [hnone] at hwhole
    cases hwhole
  cases op with
  | cancel now consumer =>
    obtain ⟨key, -, rfl⟩ := mem_cancelActs.mp ha
    exact hnone rfl
  | cancelOn | cancelExcept =>
    obtain ⟨now, consumer, key, rfl⟩ := cancels_cancelEachActs _ _ _ a ha
    exact hnone rfl
  | transfer clock source target transfer => exact hnone (whole?_of_mem_transferActs ha)
  | tick now =>
    obtain ⟨key, -, rfl⟩ := List.mem_map.mp ha
    exact hnone rfl
  | touch | ack | forget | configure | addHelper | removeHelper | setIds =>
    rw [List.mem_singleton.mp ha] at hwhole
    exact Option.some.inj hwhole

end Router

namespace Session

open Router (Act Op Mirrors Transfer)

variable {s s' : Session} {first second acts : List Act}

-- What a step takes for granted: the host gives its verdicts in order, a channel changes
-- hands from its owner, and contacts are pressed anew where none is down.
def Proper (s : Session) : Act → Prop
  | .ack id .. => s.MayAck id
  | .reassign source target key => s.router.owners[source]? = some key ∧ source ≠ target
  | .reenter _ key _ =>
    ∀ channel, s.router.channels[key]? = some channel → channel.contacts.contacts = []
  | _ => True

-- What a step takes for granted in whatever order the host gives its verdicts.
def Granted (s : Session) : Act → Prop
  | .ack .. => True
  | a => s.Proper a

theorem Proper.granted {a : Act} (h : s.Proper a) : s.Granted a := by
  cases a with
  | ack => trivial
  | _ => exact h

-- Each of some steps finds what it takes for granted.
def Suits (s : Session) : List Act → Prop
  | [] => True
  | a :: rest => s.Proper a ∧ ∀ s', s.act a = .ok s' → s'.Suits rest

theorem suits_of_forall (h : ∀ a ∈ acts, ∀ s : Session, s.Proper a) : s.Suits acts := by
  induction acts generalizing s with
  | nil => trivial
  | cons a rest ih =>
    exact ⟨h a List.mem_cons_self s, fun s' _ => ih fun b hb => h b (List.mem_cons_of_mem a hb)⟩

theorem Suits.append (hfirst : s.Suits first)
    (hsecond : ∀ s', s.play first = .ok s' → s'.Suits second) : s.Suits (first ++ second) := by
  induction first generalizing s with
  | nil => exact hsecond s rfl
  | cons a rest ih =>
    refine ⟨hfirst.1, fun s' ha => ih (hfirst.2 s' ha) fun s'' hrest => hsecond s'' ?_⟩
    rw [play, ha, ok_bind, hrest]

theorem play_append_eq_ok (h : s.play (first ++ second) = .ok s') :
    ∃ between, s.play first = .ok between ∧ between.play second = .ok s' := by
  induction first generalizing s with
  | nil => exact ⟨s, rfl, h⟩
  | cons a rest ih =>
    obtain ⟨s₁, ha, hrest⟩ := bind_eq_ok.mp h
    obtain ⟨between, hbetween, hsecond⟩ := ih hrest
    exact ⟨between, by rw [play, ha, ok_bind, hbetween], hsecond⟩

theorem after_of_play (h : s.play acts = .ok s') : s.router.after acts = s'.router := by
  obtain ⟨handouts, hplay, -⟩ := play_router h
  simp [Router.after, hplay]

theorem owners_of_play_cancels (hcancels : ∀ a ∈ acts, ∃ now consumer key,
    a = .cancelChannel now consumer key) (h : s.play acts = .ok s') :
    s'.router.owners = s.router.owners := by
  obtain ⟨handouts, hplay, -⟩ := play_router h
  exact Router.owners_of_play_cancels hcancels hplay

theorem suits_cancelActs (now : Time) (consumer : ConsumerId) :
    s.Suits (s.router.cancelActs now consumer) := by
  refine suits_of_forall fun a ha s => ?_
  obtain ⟨key, -, rfl⟩ := Router.mem_cancelActs.mp ha
  trivial

theorem suits_cancelEachActs (clock : Clock) (consumers : List ConsumerId) :
    s.Suits (s.router.cancelEachActs clock consumers) := by
  refine suits_of_forall fun a ha s => ?_
  obtain ⟨now, consumer, key, rfl⟩ := Router.cancels_cancelEachActs _ _ _ a ha
  trivial

theorem suits_settleActs {clock : Clock} {source : ConsumerId} {key : ChannelKey}
    {replacing : Bool} {transfer : Transfer} (hm : s.router.Mirrors s.books) :
    s.Suits (s.router.settleActs clock source key replacing transfer) := by
  cases transfer with
  | cancelling =>
    refine ⟨trivial, fun s₁ hact => ⟨fun channel hlive => ?_, fun _ _ => trivial⟩⟩
    obtain ⟨handouts, router, hr, rfl⟩ := act_eq_ok hact
    obtain ⟨result, hcancel, heq⟩ := map_eq_ok.mp hr
    cases heq
    exact Router.contacts_of_cancelChannel hm hcancel hlive
  | silent =>
    refine suits_of_forall fun a ha s => ?_
    obtain ⟨-, rfl⟩ : replacing = true ∧ a = .forgetHistory key := by
      simpa [Router.settleActs] using ha
    trivial

theorem suits_handOverActs {clock : Clock} {source target : ConsumerId} {key : ChannelKey}
    {transfer : Transfer} (hm : s.router.Mirrors s.books)
    (howner : s.router.owners[source]? = some key) (hne : source ≠ target) :
    s.Suits (s.router.handOverActs clock source target key transfer) := by
  have hmoving : s.Suits
      (s.router.cancelActs clock.now target ++ [.reassign source target key]) := by
    refine (suits_cancelActs clock.now target).append fun s₁ hplay =>
      ⟨⟨?_, hne⟩, fun _ _ => trivial⟩
    rw [owners_of_play_cancels (Router.cancels_cancelActs _ clock.now target) hplay, howner]
  refine hmoving.append fun s₁ hplay => ?_
  rw [after_of_play hplay]
  exact suits_settleActs (mirrors_play hm hplay)

theorem suits_transferActs {clock : Clock} {source target : ConsumerId} {transfer : Transfer}
    (hm : s.router.Mirrors s.books) :
    s.Suits (s.router.transferActs clock source target transfer) := by
  unfold Router.transferActs
  simp only []
  split
  · trivial
  · next hnot =>
    have hne : source ≠ target := by
      rintro rfl
      simp at hnot
    refine Suits.append (Suits.append (suits_cancelEachActs clock _) fun s₁ hplay => ?_)
      fun _ _ => ⟨trivial, fun _ _ => trivial⟩
    rw [after_of_play hplay]
    split
    · next key howner =>
      rw [← owners_of_play_cancels (Router.cancels_cancelEachActs _ clock _) hplay] at howner
      exact suits_handOverActs (mirrors_play hm hplay) howner hne
    · refine suits_of_forall fun a ha s => ?_
      rw [Option.mem_toList, Option.map_eq_some_iff] at ha
      obtain ⟨key, -, rfl⟩ := ha
      trivial

-- The steps of an operation find what they take for granted if the host is orderly.
theorem suits_acts {op : Op} (hm : s.router.Mirrors s.books) (hop : s.Orderly op) :
    s.Suits (s.router.acts op) := by
  cases op with
  | ack id consumed nonBlocking consumer => exact ⟨hop, fun _ _ => trivial⟩
  | cancel now consumer => exact suits_cancelActs now consumer
  | cancelOn clock consumers => exact suits_cancelEachActs clock consumers
  | cancelExcept clock spared => exact suits_cancelEachActs clock _
  | transfer clock source target transfer => exact suits_transferActs hm
  | tick now =>
    refine suits_of_forall fun a ha s => ?_
    obtain ⟨key, -, rfl⟩ := List.mem_map.mp ha
    trivial
  | touch | forget | configure | addHelper | removeHelper | setIds =>
    exact ⟨trivial, fun _ _ => trivial⟩

-- If the host is not, they still do, verdicts apart.
theorem play_acts_induction {P : Session → Prop} {op : Op} (hm : s.router.Mirrors s.books)
    (hs : P s)
    (hact : ∀ s₁ s₂ a, a ∈ s.router.acts op → s₁.router.Mirrors s₁.books → s₁.Granted a → P s₁ →
      s₁.act a = .ok s₂ → P s₂)
    (hplay : s.perform op = .ok s') : P s' := by
  have hsuits : s.Suits (s.router.acts op) → P s' := by
    unfold perform at hplay
    generalize s.router.acts op = acts at hplay hact
    intro hsuits
    induction acts generalizing s with
    | nil =>
      cases hplay
      exact hs
    | cons a rest ih =>
      obtain ⟨s₁, ha, hrest⟩ := bind_eq_ok.mp hplay
      exact ih (mirrors_act hm ha) (hact s s₁ a List.mem_cons_self hm hsuits.1.granted hs ha) hrest
        (fun s₁ s₂ b hb => hact s₁ s₂ b (List.mem_cons_of_mem a hb)) (hsuits.2 s₁ ha)
  by_cases hop : s.Orderly op
  · exact hsuits (suits_acts hm hop)
  · cases op with
    | ack id consumed nonBlocking consumer =>
      obtain ⟨s₁, ha, hrest⟩ := bind_eq_ok.mp hplay
      cases hrest
      have hgranted : s.Granted (.ack id consumed nonBlocking consumer) := trivial
      exact hact s _ _ List.mem_cons_self hm hgranted hs ha
    | _ => exact absurd trivial hop

-- What the steps preserve that find what they take for granted holds wherever a host leads.
theorem Reached.induct {permits : Session → Op → Prop} {P : Session → Prop}
    (hstart : ∀ settings ids, P { router := { settings, ids } })
    (hact : ∀ s s' a, s.router.Mirrors s.books → s.Granted a → P s → s.act a = .ok s' → P s')
    (h : Reached permits s) : P s := by
  induction h with
  | start settings ids => exact hstart settings ids
  | step h _ hs ih =>
    exact play_acts_induction h.mirrors ih (fun s₁ s₂ a _ => hact s₁ s₂ a) hs

-- Numbers are only ever added.
theorem prefix_numbers_play (h : s.play acts = .ok s') : s.numbers <+: s'.numbers := by
  refine play_induction (P := fun s' => s.numbers <+: s'.numbers) (List.prefix_refl _) ?_ h
  intro s₁ s₂ a _ hprefix ha
  obtain ⟨handouts, router, -, rfl⟩ := act_eq_ok ha
  exact hprefix.trans (List.prefix_append _ _)

end Session

end TouchGestures
