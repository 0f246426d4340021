import TouchGestures.Proofs.Router.Progress
import TouchGestures.Proofs.Router.Tally

namespace TouchGestures

namespace Router

variable {r r' : Router} {t : Touch} {consumer : ConsumerId} {result : TouchResult}

-- A touch that is taken in binds its contact or frees it, whoever the contact is bound to.
theorem bindings_of_accepted (htouch : r.touch t consumer = .ok (result, r'))
    (haccepted : result.accepted = true) : r'.bindings = (r.bind t consumer).bindings := by
  obtain ⟨-, rfl, -⟩ | ⟨channel, channel', -, -, rfl⟩ := touch_cases htouch
  · cases haccepted
  · rw [if_pos haccepted]
    unfold bind
    split
    all_goals simp [put, bindings_obtain]

theorem boundConsumer?_bind (r : Router) (t : Touch) (consumer : ConsumerId) (id : ContactId) :
    (r.bind t consumer).boundConsumer? id =
      if t.contact.id = id then
        match t.kind with
        | .pressed => some consumer
        | .moved => r.boundConsumer? id
        | .released | .cancelled => none
      else r.boundConsumer? id := by
  unfold bind boundConsumer?
  cases t.kind with
  | pressed => simp [Std.ExtTreeMap.getElem?_insert]
  | moved => simp
  | released | cancelled => simp [Std.ExtTreeMap.getElem?_erase]

end Router

namespace Session

open Router (Act Op mem_channels_iff)

variable {s s₁ s' : Session} {key : ChannelKey} {consumer : ConsumerId}
  {id : ContactId} {consumers first rest : List ConsumerId} {now : Time} {clock : Clock}

instance (s : Session) (consumer : ConsumerId) (id : ContactId) :
    Decidable (s.HasDown consumer id) :=
  decidable_of_iff ((s.router.channel? consumer).any
    (fun channel => channel.contacts.live.any (·.id = id)) = true)
    (by simp [HasDown, Option.any_eq_true])

def downFor (s : Session) (consumer : ConsumerId) : List ContactId :=
  (s.router.owners[consumer]?.map s.down).getD []

theorem downFor_of_owner (howner : s.router.owners[consumer]? = some key) :
    s.downFor consumer = s.down key := by
  simp [downFor, howner]

theorem downFor_of_no_owner (hnone : s.router.owners[consumer]? = none) :
    s.downFor consumer = [] := by
  simp [downFor, hnone]

theorem hasDown_iff_mem_downFor (hm : s.router.Mirrors s.books) (howned : s.router.Owned) :
    s.HasDown consumer id ↔ id ∈ s.downFor consumer := by
  rw [hasDown_iff hm howned]
  cases howner : s.router.owners[consumer]? with
  | none => simp [downFor_of_no_owner howner]
  | some key => simp [downFor_of_owner howner]

theorem mem_consumersExcept_of_mem_downFor {excluded : List ConsumerId}
    (hdown : id ∈ s.downFor consumer) (hnot : consumer ∉ excluded) :
    consumer ∈ s.router.consumersExcept excluded := by
  refine Router.mem_consumersExcept.mpr ⟨?_, hnot⟩
  rw [Router.hasChannel_eq_isSome]
  cases howner : s.router.owners[consumer]? with
  | none =>
    rw [downFor_of_no_owner howner] at hdown
    cases hdown
  | some key => rfl

-- What was down for some consumers is so no longer. It was freed, from whomever it was bound
-- to, and nothing else was.
structure Frees (s s' : Session) (consumers : List ConsumerId) : Prop where
  mirrors : s'.router.Mirrors s'.books
  owned : s'.router.Owned
  bindings : ∀ id, s'.router.boundConsumer? id =
    if ∃ consumer ∈ consumers, id ∈ s.downFor consumer then none else s.router.boundConsumer? id
  down : ∀ other, s'.downFor other = if other ∈ consumers then [] else s.downFor other

theorem frees_nil (hm : s.router.Mirrors s.books) (howned : s.router.Owned) : s.Frees s [] :=
  ⟨hm, howned, by simp, by simp⟩

theorem Frees.append (h : s.Frees s₁ first) (h' : s₁.Frees s' rest) :
    s.Frees s' (first ++ rest) where
  mirrors := h'.mirrors
  owned := h'.owned
  bindings := by
    intro id
    rw [h'.bindings, h.bindings]
    by_cases hfirst : ∃ consumer ∈ first, id ∈ s.downFor consumer
    · have hall : ∃ consumer ∈ first ++ rest, id ∈ s.downFor consumer := by
        obtain ⟨consumer, hmem, hdown⟩ := hfirst
        exact ⟨consumer, List.mem_append_left _ hmem, hdown⟩
      rw [if_pos hfirst, if_pos hall, ite_self]
    · rw [if_neg hfirst]
      refine if_congr ?_ rfl rfl
      constructor
      · rintro ⟨consumer, hmem, hdown⟩
        rw [h.down] at hdown
        split at hdown
        · cases hdown
        · exact ⟨consumer, List.mem_append_right _ hmem, hdown⟩
      · rintro ⟨consumer, hmem, hdown⟩
        have hnot : consumer ∉ first := fun hmem => hfirst ⟨consumer, hmem, hdown⟩
        refine ⟨consumer, (List.mem_append.mp hmem).resolve_left hnot, ?_⟩
        rwa [h.down, if_neg hnot]
  down := by
    intro other
    rw [h'.down, h.down]
    by_cases hrest : other ∈ rest
    · simp [hrest]
    · simp [hrest]

theorem frees_of_cancelActs (hm : s.router.Mirrors s.books) (howned : s.router.Owned)
    (hs : s.play (s.router.cancelActs now consumer) = .ok s') : s.Frees s' [consumer] := by
  have hcancels := s.router.cancels_cancelActs now consumer
  have howners := owners_of_play_cancels hcancels hs
  have hm' := mirrors_play hm hs
  have howned' := owned_play_cancels howned hm hcancels hs
  cases howner : s.router.owners[consumer]? with
  | none =>
    have hnone : s.downFor consumer = [] := downFor_of_no_owner howner
    simp only [Router.cancelActs, howner] at hs
    cases hs
    refine ⟨hm, howned, by simp [hnone], fun other => ?_⟩
    by_cases hother : other = consumer
    · simp [hother, hnone]
    · simp [hother]
  | some key =>
    simp only [Router.cancelActs, howner] at hs
    have hact := play_singleton.mp hs
    have hlive := howned.live howner
    obtain ⟨channel, hchannel⟩ := mem_channels_iff.mp hlive
    obtain ⟨k, hk, -⟩ := hm.book hchannel
    obtain ⟨⟨k', hk', hnil, -⟩, hbindings⟩ := cancelled_of_act hm hk hlive hact
    refine ⟨hm', howned', fun id => ?_, fun other => ?_⟩
    · simpa [downFor_of_owner howner, Router.boundConsumer?] using hbindings id
    · by_cases hother : other = consumer
      · subst hother
        rw [downFor_of_owner (howners ▸ howner), down_of_books hk', if_pos (by simp)]
        exact ContactTable.ids_eq_nil_iff.mpr hnil
      · have hspares : ∀ {key' : ChannelKey}, s.router.owners[other]? = some key' →
            s'.down key' = s.down key' := by
          intro key' howner'
          have hne : key ≠ key' := fun heq => hother (howned.single (heq ▸ howner') howner)
          exact down_congr (keeps_act hm (show (Act.cancelChannel now consumer key).Spares key'
            from hne) hact).books
        rw [downFor, downFor, howners, if_neg (by simpa using hother)]
        cases howner' : s.router.owners[other]? with
        | none => rfl
        | some key' => simpa using hspares howner'

-- Each of the consumers is dealt with as those before have left things.
theorem frees_of_cancelEachActs (hm : s.router.Mirrors s.books) (howned : s.router.Owned)
    (hs : s.play (s.router.cancelEachActs clock consumers) = .ok s') : s.Frees s' consumers := by
  induction consumers generalizing s clock with
  | nil =>
    cases hs
    exact frees_nil hm howned
  | cons consumer rest ih =>
    obtain ⟨between, hfirst, hrest⟩ := play_append_eq_ok hs
    rw [after_of_play hfirst] at hrest
    have hfrees := frees_of_cancelActs hm howned hfirst
    exact hfrees.append (ih hfrees.mirrors hfrees.owned hrest)

-- No operation but a verdict can fail.
theorem exists_perform (hm : s.router.Mirrors s.books) (op : Op)
    (hop : ∀ id consumed nonBlocking consumer, op ≠ .ack id consumed nonBlocking consumer) :
    ∃ s', s.perform op = .ok s' :=
  exists_play hm _ fun id consumed nonBlocking consumer hmem =>
    hop id consumed nonBlocking consumer (Router.eq_of_mem_acts hmem rfl)

theorem exists_cancel (hm : s.router.Mirrors s.books) (howned : s.router.Owned) (now : Time)
    (consumer : ConsumerId) :
    ∃ cancelled notices s', s.router.cancel now consumer = .ok (cancelled, notices, s'.router) ∧
      s.Frees s' [consumer] := by
  obtain ⟨s', hs'⟩ := exists_perform hm (.cancel now consumer) (by simp)
  obtain ⟨notices, hperform⟩ := perform_router hs'
  obtain ⟨⟨cancelled, result⟩, hcancel, heq⟩ := map_eq_ok.mp hperform
  obtain rfl : result = (notices, s'.router) := heq
  exact ⟨cancelled, notices, s', hcancel, frees_of_cancelActs hm howned hs'⟩

theorem exists_cancelExcept (hm : s.router.Mirrors s.books) (howned : s.router.Owned)
    (clock : Clock) (spared : Option ConsumerId) :
    ∃ notices s', s.router.cancelExcept clock spared = .ok (notices, s'.router) ∧
      s.Frees s' (s.router.consumersExcept spared.toList) := by
  obtain ⟨s', hs'⟩ := exists_perform hm (.cancelExcept clock spared) (by simp)
  obtain ⟨notices, hperform⟩ := perform_router hs'
  exact ⟨notices, s', hperform, frees_of_cancelEachActs hm howned hs'⟩

-- A contact that is bound to a consumer stays so, except that a press for another consumer
-- takes it over and that it is freed as soon as another consumer lets go of a contact with
-- the same number, by a release or by a cancel from a device or from the host.
theorem Reached.bound_until_freed {permits : Session → Op → Prop} {owner : ConsumerId}
    (h : Reached permits s) (hbound : s.router.boundConsumer? id = some owner) :
    (∀ t consumer, ∃ result router, s.router.touch t consumer = .ok (result, router) ∧
      (result.accepted = true → router.boundConsumer? id =
        if t.contact.id = id then
          match t.kind with
          | .pressed => some consumer
          | .moved => some owner
          | .released | .cancelled => none
        else some owner)) ∧
    (∀ now consumer, ∃ cancelled notices router,
      s.router.cancel now consumer = .ok (cancelled, notices, router) ∧
      (s.HasDown consumer id → router.boundConsumer? id = none) ∧
      (¬s.HasDown consumer id → router.boundConsumer? id = some owner)) ∧
    ∀ clock, ∃ notices router, s.router.cancelExcept clock (some owner) = .ok (notices, router) ∧
      ((∃ other ≠ owner, s.HasDown other id) → router.boundConsumer? id = none) ∧
      ((∀ other ≠ owner, ¬s.HasDown other id) → router.boundConsumer? id = some owner) := by
  have hdown : ∀ consumer, s.HasDown consumer id ↔ id ∈ s.downFor consumer :=
    fun consumer => hasDown_iff_mem_downFor h.mirrors h.owned
  refine ⟨fun t consumer => ?_, fun now consumer => ?_, fun clock => ?_⟩
  · obtain ⟨⟨result, router⟩, htouch⟩ := Router.exists_touch h.mirrors t consumer
    refine ⟨result, router, htouch, fun haccepted => ?_⟩
    have hbind := Router.boundConsumer?_bind s.router t consumer id
    rw [hbound] at hbind
    rw [← hbind, Router.boundConsumer?, Router.bindings_of_accepted htouch haccepted]
    rfl
  · obtain ⟨cancelled, notices, s', hcancel, hfrees⟩ :=
      exists_cancel h.mirrors h.owned now consumer
    have hbindings := hfrees.bindings id
    rw [hbound] at hbindings
    refine ⟨cancelled, notices, s'.router, hcancel, fun hhas => ?_, fun hnot => ?_⟩
    · rw [hbindings, if_pos ⟨consumer, List.mem_singleton_self consumer, (hdown consumer).mp hhas⟩]
    · rw [hbindings, if_neg]
      simpa [← hdown] using hnot
  · obtain ⟨notices, s', hcancel, hfrees⟩ :=
      exists_cancelExcept h.mirrors h.owned clock (some owner)
    have hbindings := hfrees.bindings id
    rw [hbound] at hbindings
    refine ⟨notices, s'.router, hcancel, fun ⟨other, hother, hhas⟩ => ?_, fun hnone => ?_⟩
    · have hmem := (hdown other).mp hhas
      rw [hbindings, if_pos
        ⟨other, mem_consumersExcept_of_mem_downFor hmem (by simpa using hother), hmem⟩]
    · rw [hbindings, if_neg]
      rintro ⟨other, hmem, hhas⟩
      have hother : other ≠ owner := by simpa using (Router.mem_consumersExcept.mp hmem).2
      exact hnone other hother ((hdown other).mpr hhas)

-- Two devices number a contact alike. The one is down for one consumer and the other for
-- another, for whom a further contact is down.
def doublyDown : Session :=
  (((start 1).attempt (.touch (Channel.finger .pressed 1 10 0 1) 1)).attempt
    (.touch { Channel.finger .pressed 1 50 10 2 with device := 1 } 2)).attempt
    (.touch { Channel.finger .pressed 5 90 20 3 with device := 1 } 2)

theorem reached_doublyDown : Reached (fun _ _ => True) doublyDown :=
  (((Reached.start {} ⟨1⟩).attempt trivial).attempt trivial).attempt trivial

-- When the first consumer's contacts are cancelled, only the further contact stays bound.
theorem bound_until_freed_of_doublyDown :
    Reached (fun _ _ => True) doublyDown ∧
      doublyDown.router.boundConsumer? 1 = some 2 ∧ doublyDown.router.boundConsumer? 5 = some 2 ∧
      doublyDown.HasDown 1 1 ∧ ¬doublyDown.HasDown 1 5 ∧
      ∃ cancelled notices router, doublyDown.router.cancel (Duration.milliseconds 30) 1 =
        .ok (cancelled, notices, router) ∧
        router.boundConsumer? 1 = none ∧ router.boundConsumer? 5 = some 2 := by
  have hfirst : doublyDown.router.boundConsumer? 1 = some 2 := by decide +kernel
  have hfurther : doublyDown.router.boundConsumer? 5 = some 2 := by decide +kernel
  have htwice : doublyDown.HasDown 1 1 := by decide +kernel
  have honce : ¬doublyDown.HasDown 1 5 := by decide +kernel
  obtain ⟨-, hcancels, -⟩ := reached_doublyDown.bound_until_freed hfirst
  obtain ⟨-, hcancels', -⟩ := reached_doublyDown.bound_until_freed hfurther
  obtain ⟨cancelled, notices, router, hcancel, hfreed, -⟩ :=
    hcancels (Duration.milliseconds 30) 1
  obtain ⟨cancelled', notices', router', hcancel', -, hkept⟩ :=
    hcancels' (Duration.milliseconds 30) 1
  rw [hcancel] at hcancel'
  cases hcancel'
  exact ⟨reached_doublyDown, hfirst, hfurther, htwice, honce, cancelled, notices, router, hcancel,
    hfreed htwice, hkept honce⟩

-- The contact that is down for the second consumer is bound to it no longer once the first
-- lets go of the other contact of that number, or is made to.
theorem freed_of_doublyDown :
    Reached (fun _ _ => True) doublyDown ∧
      doublyDown.router.boundConsumer? 1 = some 2 ∧ doublyDown.HasDown 2 1 ∧
      ((doublyDown.router.touch (Channel.finger .released 1 10 30 4) 1).map
        fun (result, router) => (result.accepted, router.boundConsumer? 1)) = .ok (true, none) ∧
      ((doublyDown.router.cancel (Duration.milliseconds 30) 1).map
        fun (_, _, router) => router.boundConsumer? 1) = .ok none ∧
      ((doublyDown.router.cancelExcept (.still (Duration.milliseconds 30)) (some 2)).map
        fun (_, router) => (router.boundConsumer? 1,
          (router.channel? 2).map (·.contacts.live.map (·.id)))) = .ok (none, some [1, 5]) := by
  refine ⟨reached_doublyDown, ?_⟩
  decide +kernel

end Session

end TouchGestures
