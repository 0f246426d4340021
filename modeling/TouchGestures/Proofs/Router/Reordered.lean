import TouchGestures.Proofs.Router.Orders

namespace TouchGestures

namespace Router

variable {ρ : Renumbering} {r r₁ r₁' r₂ r₂' : Router} {source target : ConsumerId}
  {transfer : Transfer} {key : ChannelKey} {key? : Option ChannelKey} {known : List EventId}
  {others others' : List Notice} {clock : Clock}

def parties (r : Router) (clock : Clock) (source target : ConsumerId) (transfer : Transfer)
    (key? : Option ChannelKey) : Except Violation (List Notice × Router) :=
  match key? with
  | some key => r.handOver clock source target key transfer
  | none => .ok ([], (r.owners[target]?.map r.forgetHistory).getD r)

def rebound (r : Router) (contacts : List ContactId) (target : ConsumerId) : Router :=
  { r with bindings := r.bindings.insertMany (contacts.map fun id => (id, target)) }

-- A transfer that goes through the bystanders in a given order.
def transferVia (r : Router) (clock : Clock) (source target : ConsumerId) (transfer : Transfer)
    (bystanders : List ConsumerId) : Except Violation (Bool × List Notice × Router) :=
  let bound := r.boundTo source
  let key? := r.owners[source]?
  if source = target || (key?.isNone && bound.isEmpty) then .ok (false, [], r)
  else do
    let (first, r) ← r.cancelEach clock bystanders
    let (others, r) ← r.parties (clock.drop bystanders.length) source target transfer key?
    .ok (true, first ++ others,
      { r with bindings := r.bindings.insertMany (bound.map fun id => (id, target)) })

theorem transferVia_consumersExcept (r : Router) (clock : Clock) (source target : ConsumerId)
    (transfer : Transfer) :
    r.transferVia clock source target transfer (r.consumersExcept [source, target]) =
      r.transferTouches clock source target transfer := by
  unfold transferVia transferTouches parties
  cases r.owners[source]? <;> rfl

def partiesActs (r : Router) (clock : Clock) (source target : ConsumerId) (transfer : Transfer)
    (key? : Option ChannelKey) : List Act :=
  match key? with
  | some key => r.handOverActs clock source target key transfer
  | none => (r.owners[target]?.map .forgetHistory).toList

theorem whole?_of_mem_partiesActs {a : Act}
    (ha : a ∈ r.partiesActs clock source target transfer key?) : a.whole? = none := by
  unfold partiesActs at ha
  cases key? with
  | some key => exact whole?_of_mem_handOverActs ha
  | none =>
    rw [Option.mem_toList, Option.map_eq_some_iff] at ha
    obtain ⟨key, -, rfl⟩ := ha
    rfl

theorem told_partiesActs (key? : Option ChannelKey) :
    r.told (r.partiesActs clock source target transfer key?) =
      r.parties clock source target transfer key? := by
  cases key? with
  | some key => exact told_handOverActs clock source target key transfer
  | none =>
    simp only [partiesActs, parties]
    cases r.owners[target]? <;> simp [told_cons, told_nil, act]

theorem settleActs_renumber (replacing : Bool) :
    (r.renumber ρ).settleActs clock source key replacing transfer =
      r.settleActs clock source key replacing transfer := by
  cases transfer with
  | cancelling =>
    simp only [settleActs, channels_renumber]
    cases r.channels[key]? <;> rfl
  | silent => rfl

-- A transfer that has something to hand over does so after the bystanders are done.
theorem transferVia_eq_ok {bystanders : List ConsumerId} {first others : List Notice}
    (hsome : ¬(source = target || (r.owners[source]?.isNone && (r.boundTo source).isEmpty)) = true)
    (hcancel : r.cancelEach clock bystanders = .ok (first, r₁))
    (hparties : r₁.parties (clock.drop bystanders.length) source target transfer
      r.owners[source]? = .ok (others, r₂)) :
    r.transferVia clock source target transfer bystanders =
      .ok (true, first ++ others, r₂.rebound (r.boundTo source) target) := by
  unfold transferVia
  rw [if_neg hsome, hcancel, ok_bind]
  dsimp only
  rw [hparties, ok_bind]
  rfl

-- The steps of such a transfer.
theorem transferActs_of_parties
    (hsome :
      ¬(source = target || (r.owners[source]?.isNone && (r.boundTo source).isEmpty)) = true) :
    r.transferActs clock source target transfer =
      r.cancelEachActs clock (r.consumersExcept [source, target]) ++
        (r.after (r.cancelEachActs clock (r.consumersExcept [source, target]))).partiesActs
          (r.partyClock clock source target) source target transfer r.owners[source]? ++
        [.rebind (r.boundTo source) target] := by
  unfold transferActs partiesActs
  refine (if_neg hsome).trans ?_
  cases r.owners[source]? <;> rfl

-- What the parties do goes the same way whatever is changed about the channels of others.
theorem parties_elsewhere {φ : ChannelKey → Channel → Channel}
    (hsource : ∀ key ∈ key?, ∀ c, φ key c = c)
    (htarget : ∀ key ∈ r.owners[target]?, ∀ c, φ key c = c)
    (hr : r.parties clock source target transfer key? = .ok (others, r₁)) :
    (r.adjust φ).parties clock source target transfer key? = .ok (others, r₁.adjust φ) := by
  cases key? with
  | some key => exact handOver_elsewhere (hsource key rfl) htarget hr
  | none =>
    have howners : (r.adjust φ).owners = r.owners := rfl
    unfold parties at hr ⊢
    cases hr
    rw [howners]
    cases howner : r.owners[target]? with
    | none => rfl
    | some key =>
      have hforget : (r.adjust φ).forgetHistory key = (r.forgetHistory key).adjust φ :=
        forgetHistory_adjust fun c => by rw [htarget key howner, htarget key howner]
      simp only [Option.map_some, Option.getD_some, hforget]

-- What the parties do does not depend on when made up touches happened to others.
theorem undate_eq_of_parties (hsame : r₁'.undate known = r₁.undate known)
    (hsource : ∀ key ∈ key?, r₁'.channels[key]? = r₁.channels[key]?)
    (htarget : ∀ key ∈ r₁.owners[target]?, r₁'.channels[key]? = r₁.channels[key]?)
    (hr : r₁.parties clock source target transfer key? = .ok (others, r₂))
    (hr' : r₁'.parties clock source target transfer key? = .ok (others', r₂')) :
    others' = others ∧ r₂'.undate known = r₂.undate known := by
  let keys := key?.toList ++ (r₁.owners[target]?).toList
  let φ := elsewhere keys fun c => c.undate known
  have howners : r₁'.owners = r₁.owners := by
    change (r₁'.undate known).owners = (r₁.undate known).owners
    rw [hsame]
  have hparty : ∀ key ∈ key?, ∀ c, φ key c = c := fun key hkey =>
    elsewhere_of_mem (List.mem_append_left _ (Option.mem_toList.mpr hkey))
  have htaken : ∀ key ∈ r₁.owners[target]?, ∀ c, φ key c = c := fun key hkey =>
    elsewhere_of_mem (List.mem_append_right _ (Option.mem_toList.mpr hkey))
  have hkeys : ∀ key ∈ keys, r₁'.channels[key]? = r₁.channels[key]? := fun key hkey =>
    (List.mem_append.mp hkey).elim (fun h => hsource key (Option.mem_toList.mp h))
      fun h => htarget key (Option.mem_toList.mp h)
  have hadjusted := parties_elsewhere hparty htaken hr
  have hadjusted' := parties_elsewhere hparty (howners ▸ htaken) hr'
  rw [adjust_elsewhere_eq_iff.mpr ⟨hkeys, hsame⟩, hadjusted, Except.ok.injEq, Prod.mk.injEq]
    at hadjusted'
  exact ⟨hadjusted'.1.symm, (adjust_elsewhere_eq_iff.mp hadjusted'.2.symm).2⟩

theorem agreeUndated_of_renumber {first second : List Notice × Router} (given : List Notice)
    (hfixed : ∀ id ∈ known, ρ id = id)
    (hrouter : second.2.undate known = (first.2.renumber ρ).undate known)
    (hheard : ∀ c, r.heard c given = (r.heard c first.1).map (·.renumber ρ))
    (htold : second.1.map (Notice.undate known) = given.map (Notice.undate known)) :
    AgreeUndated known r first second := by
  refine ⟨ρ, hfixed, hrouter, fun c => ?_⟩
  rw [← heard_undate, htold, heard_undate, hheard, List.map_map]
  rfl

end Router

namespace Session

open Router (Act Op AgreeUpTo AgreeUndated agreeUndated_of_renumber)

variable {ρ : Renumbering} {s s' : Session} {permits : Session → Op → Prop}
  {clock clock' : Clock} {source target : ConsumerId} {transfer : Router.Transfer}
  {key? : Option ChannelKey} {added known : List EventId} {r₁ r₁' : Router}
  {notices notices' : List Notice} {visits visits' : List (Time × ConsumerId)} {now : Time}

-- The steps of the parties go by contacts and not by the numbers of touches.
theorem partiesActs_renumber
    (hs : s.play (s.router.partiesActs clock source target transfer key?) = .ok s')
    (hnumbers : s'.numbers = s.numbers ++ added) (hids : ∀ id ∈ added, ρ id = id) :
    (s.router.renumber ρ).partiesActs clock source target transfer key? =
      s.router.partiesActs clock source target transfer key? := by
  cases key? with
  | none => rfl
  | some key =>
    change s.play (s.router.handOverActs clock source target key transfer) = .ok s' at hs
    have hparts := fun a (ha : a ∈ s.router.handOverActs clock source target key transfer) =>
      Router.whole?_of_mem_handOverActs ha
    unfold Router.handOverActs at hs hparts
    obtain ⟨between, hmoving, hrest⟩ := play_append_eq_ok hs
    obtain ⟨first, hfirst⟩ := prefix_numbers_play hmoving
    obtain ⟨later, hlater⟩ := prefix_numbers_play hrest
    have hadded : added = first ++ later := by
      rw [hnumbers, ← hfirst, List.append_assoc] at hlater
      exact (List.append_cancel_left hlater).symm
    obtain ⟨handouts, -, hmoving'⟩ := play_renumber (ρ := ρ)
      (fun a ha => hparts a (List.mem_append_left _ ha)) hmoving hfirst.symm
      fun id hid => hids id (hadded ▸ List.mem_append_left _ hid)
    let moving := s.router.cancelActs clock.now target ++ [.reassign source target key]
    have hafter : (s.router.renumber ρ).after moving = between.router.renumber ρ := by
      rw [Router.after, hmoving']
    have hafter' : s.router.after moving = between.router := after_of_play hmoving
    calc (s.router.renumber ρ).partiesActs clock source target transfer (some key)
        = moving ++ ((s.router.renumber ρ).after moving).settleActs clock.rest source key
            (s.router.hasChannel target) transfer := rfl
      _ = moving ++ (s.router.after moving).settleActs clock.rest source key
            (s.router.hasChannel target) transfer := by
          rw [hafter, hafter', Router.settleActs_renumber]
      _ = s.router.partiesActs clock source target transfer (some key) := rfl

theorem parties_renumber
    (hs : s.play (s.router.partiesActs clock source target transfer key?) = .ok s')
    (hnumbers : s'.numbers = s.numbers ++ added) (hids : ∀ id ∈ added, ρ id = id)
    (hparties : s.router.parties clock source target transfer key? = .ok (notices, s'.router)) :
    (s.router.renumber ρ).parties clock source target transfer key? =
      .ok (notices.map (·.renumber ρ), s'.router.renumber ρ) := by
  obtain ⟨handouts, hplay, hplay'⟩ :=
    play_renumber (fun _ => Router.whole?_of_mem_partiesActs) hs hnumbers hids
  rw [← Router.told_partiesActs, Router.told, hplay, ok_map] at hparties
  cases hparties
  rw [← Router.told_partiesActs, partiesActs_renumber hs hnumbers hids, Router.told, hplay']
  simp only [ok_map, List.map_map]
  rfl

theorem parties_of_play
    (hs : s.play (s.router.partiesActs clock source target transfer key?) = .ok s') :
    ∃ notices, s.router.parties clock source target transfer key? = .ok (notices, s'.router) := by
  obtain ⟨handouts, hplay, -⟩ := play_router hs
  exact ⟨handouts.map (·.toNotice), by rw [← Router.told_partiesActs, Router.told, hplay, ok_map]⟩

theorem exists_parties (hm : s.router.Mirrors s.books) (clock : Clock)
    (source target : ConsumerId) (transfer : Router.Transfer) (key? : Option ChannelKey) :
    ∃ notices r₁, s.router.parties clock source target transfer key? = .ok (notices, r₁) := by
  obtain ⟨s', hs'⟩ := exists_play hm (s.router.partiesActs clock source target transfer key?)
    fun id consumed nonBlocking consumer hmem => by cases Router.whole?_of_mem_partiesActs hmem
  obtain ⟨notices, hparties⟩ := parties_of_play hs'
  exact ⟨notices, s'.router, hparties⟩

-- A transfer that has something to hand over goes through the bystanders, then deals with
-- the parties, and rebinds the contacts last.
theorem transfer_in_parts
    (hsome : ¬(source = target ||
      (s.router.owners[source]?.isNone && (s.router.boundTo source).isEmpty)) = true)
    (hs : s.perform (.transfer clock source target transfer) = .ok s') :
    ∃ s₁ s₂, s.play (s.router.cancelEachActs clock (s.router.consumersExcept [source, target])) =
        .ok s₁ ∧
      s₁.play (s₁.router.partiesActs (s.router.partyClock clock source target) source target
        transfer s.router.owners[source]?) = .ok s₂ ∧
      s₂.numbers <+: s'.numbers := by
  have hs : s.play (s.router.transferActs clock source target transfer) = .ok s' := hs
  rw [Router.transferActs_of_parties hsome] at hs
  obtain ⟨s₂, hs, hrebind⟩ := play_append_eq_ok hs
  obtain ⟨s₁, hbystanders, hs⟩ := play_append_eq_ok hs
  rw [after_of_play hbystanders] at hs
  exact ⟨s₁, s₂, hbystanders, hs, prefix_numbers_play hrebind⟩

theorem Reached.agree_self (h : Reached permits s) (hnumbers : s.numbers.Nodup) :
    AgreeUpTo known s.router ([], s.router) ([], s.router) := by
  let same : Renumbering := ⟨id, Function.injective_id, rfl⟩
  have hself : s.router.renumber same = s.router := h.renumber_self hnumbers fun _ _ => rfl
  exact ⟨same, fun _ _ => rfl, hself.symm, fun c => rfl⟩

section Bulk

variable (h : Reached permits s) (hnumberless : ∀ entry ∈ s.router.helpers, entry.2.Numberless)
  (hdateless : ∀ entry ∈ s.router.helpers, entry.2.Dateless)

include h hnumberless hdateless

-- One can visit the consumers in the order of the one run at the times of the other. What
-- comes of that differs from the one in times and from the other in numbers.
theorem Reached.exists_between (hnodup : (visits.map (·.2)).Nodup)
    (horder : (visits'.map (·.2)).Perm (visits.map (·.2)))
    (hknown : ∀ id ∈ s.numbers, id ∈ known)
    (hdistinct :
      (known ++ s.router.ids.drawn ((visits.map (·.2)).map s.router.liveCount).sum).Nodup)
    (hnumbers : s.numbers.Nodup) (hcancel : s.router.cancelAt visits = .ok (notices, r₁))
    (hcancel' : s.router.cancelAt visits' = .ok (notices', r₁')) :
    ∃ (ρ : Renumbering) (between : List (Time × ConsumerId)) (given : List Notice),
      (∀ id ∈ known, ρ id = id) ∧ between.map (·.2) = visits'.map (·.2) ∧
      s.router.cancelAt between = .ok (given, r₁.renumber ρ) ∧
      (∀ c, given.filter (fun notice => notice.consumer = c) =
        (notices.filter fun notice => notice.consumer = c).map (·.renumber ρ)) ∧
      notices'.map (Notice.undate s.numbers) = given.map (Notice.undate s.numbers) ∧
      r₁'.undate s.numbers = (r₁.renumber ρ).undate s.numbers := by
  obtain ⟨between, hbetween, hperm⟩ :=
    (congrFun₂ (List.eq_map_comp_perm Prod.snd) (visits'.map (·.2)) visits).mpr horder
  have hsame : (visits'.map (·.2)).Perm (between.map (·.2)) := hbetween ▸ List.Perm.refl _
  obtain ⟨given, s₁, hgiven, -⟩ := exists_cancelAt h.mirrors h.owned between
  obtain ⟨ρ, hfixed, hrouter, htold⟩ := h.cancelAt_reordered hnumberless hnodup hperm hknown
    hdistinct hnumbers hcancel hgiven
  have hsum : ((between.map (·.2)).map s.router.liveCount).sum =
      ((visits.map (·.2)).map s.router.liveCount).sum :=
    ((hsame.symm.trans horder).map _).sum_eq
  have hnew : ∀ id ∈ s.router.ids.drawn ((between.map (·.2)).map s.router.liveCount).sum,
      id ∉ s.numbers := fun id hid hmem =>
    (List.nodup_append.mp hdistinct).2.2 id (hknown id hmem) id (hsum ▸ hid) rfl
  obtain ⟨hundated, hrouter'⟩ := Router.undate_eq_of_cancelAt h.ready hdateless hbetween
    ((hsame.symm.trans horder).nodup_iff.mpr hnodup) hnew hgiven hcancel'
  exact ⟨ρ, between, given, hfixed, hbetween.symm, hrouter ▸ hgiven, htold, hundated,
    hrouter ▸ hrouter'⟩

-- Where the numbers of all touches differ, it does not matter in which order the consumers
-- come whose contacts are cancelled, nor when each of them does.
theorem Reached.cancelExcept_reordered {spared : Option ConsumerId} {order : List ConsumerId}
    (horder : order.Perm (s.router.consumersExcept spared.toList)) :
    ∃ s', s.perform (.cancelExcept clock spared) = .ok s' ∧ (s'.numbers.Nodup →
      ∃ first second, s.router.cancelExcept clock spared = .ok first ∧
        s.router.cancelEach clock' order = .ok second ∧
        AgreeUndated s.numbers s.router first second ∧
        ((clock'.stamp order).Perm (clock.stamp (s.router.consumersExcept spared.toList)) →
          AgreeUpTo s.numbers s.router first second)) := by
  obtain ⟨s', hs'⟩ := exists_perform h.mirrors (.cancelExcept clock spared) (by simp)
  refine ⟨s', hs', fun hdistinct => ?_⟩
  have hnodup := s.router.nodup_consumersExcept spared.toList
  rw [numbers_cancelEach h.mirrors h.owned hnodup hs'] at hdistinct
  rw [← Clock.map_snd_stamp clock (s.router.consumersExcept _)] at horder hnodup hdistinct
  rw [← Clock.map_snd_stamp clock' order] at horder
  have hnumbers := (List.nodup_append.mp hdistinct).1
  obtain ⟨notices, hfirst⟩ := perform_router hs'
  have hcancel := (Router.cancelEach_eq clock _).symm.trans hfirst
  obtain ⟨notices', s₁', hcancel', -⟩ := exists_cancelAt h.mirrors h.owned (clock'.stamp order)
  refine ⟨_, _, hfirst, (Router.cancelEach_eq clock' order).trans hcancel', ?_, fun hperm => ?_⟩
  · obtain ⟨ρ, between, given, hfixed, -, -, htold, hundated, hrouter⟩ := h.exists_between
      hnumberless hdateless hnodup horder (fun _ => id) hdistinct hnumbers hcancel hcancel'
    exact agreeUndated_of_renumber given hfixed hrouter
      (fun c => Router.heard_renumber rfl (htold c)) hundated
  · obtain ⟨ρ, hfixed, hrouter, htold⟩ := h.cancelAt_reordered hnumberless hnodup hperm
      (fun _ => id) hdistinct hnumbers hcancel hcancel'
    exact ⟨ρ, hfixed, hrouter, fun c => Router.heard_renumber rfl (htold c)⟩

section Parties

variable {s₁ s₂ : Session} {r₂' : Router} {others others' : List Notice}
  {later : List EventId} (hnodup : (visits.map (·.2)).Nodup)
  (hknown : (s.numbers ++ later ++
    s.router.ids.drawn ((visits.map (·.2)).map s.router.liveCount).sum).Nodup)
  (hcancel : s.router.cancelAt visits = .ok (notices, s₁.router))
  (hcancel' : s.router.cancelAt visits' = .ok (notices', r₁'))
  (hplay : s₁.play (s₁.router.partiesActs clock source target transfer
    s.router.owners[source]?) = .ok s₂)
  (hlater : s₁.numbers ++ later = s₂.numbers)
  (hparties : s₁.router.parties clock source target transfer s.router.owners[source]? =
    .ok (others, s₂.router))
  (hparties' : r₁'.parties clock source target transfer s.router.owners[source]? =
    .ok (others', r₂'))

include hnodup hknown hcancel hcancel' hplay hlater hparties hparties'

omit hdateless in
-- The numbers that the two parties draw come after those of the bystanders, and so they
-- are the same whichever bystander comes first.
theorem Reached.agree_of_parties (hperm : visits'.Perm visits) (bound : List ContactId) :
    AgreeUpTo s.numbers s.router (notices ++ others, s₂.router.rebound bound target)
      (notices' ++ others', r₂'.rebound bound target) := by
  have hnumbers := (List.nodup_append.mp (List.nodup_append.mp hknown).1).1
  obtain ⟨ρ, hfixed, hrouter, htold⟩ := h.cancelAt_reordered hnumberless hnodup hperm
    (fun _ => List.mem_append_left later) hknown hnumbers hcancel hcancel'
  have hbetween := parties_renumber hplay hlater.symm
    (fun id hid => hfixed id (List.mem_append_right _ hid)) hparties
  rw [hrouter, hbetween] at hparties'
  cases hparties'
  refine ⟨ρ, fun id hid => hfixed id (List.mem_append_left _ hid), rfl,
    fun c => Router.heard_renumber rfl ?_⟩
  rw [List.filter_append, List.filter_append, List.map_append, htold, List.filter_map]
  rfl

-- Nor do the parties notice when the bystanders were visited.
theorem Reached.agreeUndated_of_parties (horder : (visits'.map (·.2)).Perm (visits.map (·.2)))
    (hapart : ∀ c ∈ [source, target], c ∉ visits'.map (·.2)) (bound : List ContactId) :
    AgreeUndated s.numbers s.router (notices ++ others, s₂.router.rebound bound target)
      (notices' ++ others', r₂'.rebound bound target) := by
  have hnumbers := (List.nodup_append.mp (List.nodup_append.mp hknown).1).1
  obtain ⟨ρ, between, given, hfixed, hsame, hgiven, htold, hundated, hrouter⟩ :=
    h.exists_between hnumberless hdateless hnodup horder (fun _ => List.mem_append_left later)
      hknown hnumbers hcancel hcancel'
  have hbetween := parties_renumber hplay hlater.symm
    (fun id hid => hfixed id (List.mem_append_right _ hid)) hparties
  have hkept : ∀ c ∈ [source, target], ∀ key ∈ s.router.owners[c]?,
      r₁'.channels[key]? = (s₁.router.renumber ρ).channels[key]? := fun c hc key howner =>
    (Router.channels_of_cancelAt h.ready (hapart c hc) hcancel' howner).trans
      (Router.channels_of_cancelAt h.ready (hsame ▸ hapart c hc) hgiven howner).symm
  have howners := Router.owners_of_cancelAt hgiven
  obtain ⟨rfl, hafter⟩ := Router.undate_eq_of_parties hrouter (hkept source (by simp))
    (howners ▸ hkept target (by simp)) hbetween hparties'
  refine agreeUndated_of_renumber (given ++ others.map (·.renumber ρ))
    (fun id hid => hfixed id (List.mem_append_left _ hid))
    (congrArg (·.rebound bound target) hafter) (fun c => Router.heard_renumber rfl ?_) ?_
  · rw [List.filter_append, List.filter_append, List.map_append, htold, List.filter_map]
    rfl
  · rw [List.map_append, List.map_append, hundated]

end Parties

-- A transfer does not depend on the order of the bystanders, nor on when each of them is
-- visited, as long as the clock shows the same when the two parties come to it.
theorem Reached.transfer_reordered {order : List ConsumerId}
    (horder : order.Perm (s.router.consumersExcept [source, target]))
    (hclock : clock'.drop order.length = clock.drop order.length) :
    ∃ s', s.perform (.transfer clock source target transfer) = .ok s' ∧ (s'.numbers.Nodup →
      ∃ handed first second,
        s.router.transferTouches clock source target transfer = .ok (handed, first) ∧
        s.router.transferVia clock' source target transfer order = .ok (handed, second) ∧
        AgreeUndated s.numbers s.router first second ∧
        ((clock'.stamp order).Perm
            (clock.stamp (s.router.consumersExcept [source, target])) →
          AgreeUpTo s.numbers s.router first second)) := by
  obtain ⟨s', hs'⟩ := exists_perform h.mirrors (.transfer clock source target transfer) (by simp)
  refine ⟨s', hs', fun hdistinct => ?_⟩
  rw [← Router.transferVia_consumersExcept]
  by_cases hsome : ¬(source = target ||
      (s.router.owners[source]?.isNone && (s.router.boundTo source).isEmpty)) = true
  · obtain ⟨s₁, s₂, hbystanders, hplay, hprefix⟩ := transfer_in_parts hsome hs'
    have hnodup := s.router.nodup_consumersExcept [source, target]
    have hcancelled : s.perform (.cancelOn clock (s.router.consumersExcept [source, target])) =
        .ok s₁ := hbystanders
    obtain ⟨notices, hfirst⟩ := perform_router hcancelled
    obtain ⟨notices', s₁', hsecond, hfrees⟩ :=
      exists_cancelAt h.mirrors h.owned (clock'.stamp order)
    obtain ⟨others, hparties⟩ := parties_of_play hplay
    obtain ⟨others', r₂', hparties'⟩ := exists_parties hfrees.mirrors (clock'.drop order.length)
      source target transfer s.router.owners[source]?
    obtain ⟨later, hlater⟩ := prefix_numbers_play hplay
    have hknown : (s.numbers ++ later ++ s.router.ids.drawn
        ((s.router.consumersExcept [source, target]).map s.router.liveCount).sum).Nodup := by
      have hnumbers : s₂.numbers.Nodup := hdistinct.sublist hprefix.sublist
      rw [← hlater, numbers_cancelEach h.mirrors h.owned hnodup hbystanders,
        List.append_assoc] at hnumbers
      refine (List.Perm.nodup_iff ?_).mp hnumbers
      rw [List.append_assoc]
      exact List.perm_append_comm.append_left s.numbers
    have hapart : ∀ c ∈ [source, target], c ∉ order := fun c hc hmem =>
      (Router.mem_consumersExcept.mp (horder.mem_iff.mp hmem)).2 hc
    have hclocks : clock'.drop order.length = s.router.partyClock clock source target :=
      hclock.trans (congrArg clock.drop horder.length_eq)
    have hcancel := (Router.cancelEach_eq clock _).symm.trans hfirst
    have hfirst := Router.transferVia_eq_ok hsome hfirst hparties
    have hsecond' := Router.transferVia_eq_ok hsome
      ((Router.cancelEach_eq clock' order).trans hsecond) hparties'
    rw [← Clock.map_snd_stamp clock (s.router.consumersExcept _)] at horder hnodup hknown
    rw [← Clock.map_snd_stamp clock' order] at horder hapart
    rw [hclocks] at hparties'
    exact ⟨true, _, _, hfirst, hsecond',
      h.agreeUndated_of_parties hnumberless hdateless hnodup hknown hcancel hsecond hplay hlater
        hparties hparties' horder hapart _,
      fun hperm => h.agree_of_parties hnumberless hnodup hknown hcancel hsecond hplay hlater
        hparties hparties' hperm _⟩
  · have hnothing : ∀ clock order, s.router.transferVia clock source target transfer order =
        .ok (false, [], s.router) := fun _ _ => if_pos (not_not.mp hsome)
    have hnumbers : s.numbers.Nodup := hdistinct.sublist (prefix_numbers_play hs').sublist
    have hself : AgreeUpTo s.numbers s.router ([], s.router) ([], s.router) :=
      h.agree_self hnumbers
    exact ⟨false, _, _, hnothing _ _, hnothing _ _, hself.undated, fun _ => hself⟩

omit hnumberless hdateless in
-- Alarms draw no numbers at all, and all of them ring at the same time.
theorem Reached.tickEach_reordered {keys : List ChannelKey}
    (hkeys : keys.Perm s.router.channels.keys) :
    ∃ notices notices' router, s.router.tick now = .ok (notices, router) ∧
      s.router.tickEach now keys = .ok (notices', router) ∧
      ∀ c, s.router.heard c notices' = s.router.heard c notices := by
  have hdistinct := s.router.channels.nodup_keys
  obtain ⟨channels, htick, hchannels⟩ := Router.tickEach_eq now hdistinct
  obtain ⟨channels', htick', hchannels'⟩ :=
    Router.tickEach_eq (r := s.router) now (hkeys.nodup_iff.mpr hdistinct)
  obtain rfl : channels' = channels := Std.ExtTreeMap.ext_getElem? fun key =>
    (hchannels' key).trans ((if_congr hkeys.mem_iff rfl rfl).trans (hchannels key).symm)
  refine ⟨_, _, _, htick, htick', fun c => ?_⟩
  rw [Router.heard, Router.heard, Router.filter_ringing h.owned h.named hkeys,
    Router.filter_ringing h.owned h.named (List.Perm.refl _)]

end Bulk

-- Three consumers have a finger down each, two of them the same one. The touch of the third
-- still awaits its verdict.
def company : Session :=
  ((((((start 10).attempt (.addHelper ⟨fun _ => true, fun _ _ => false⟩)).attempt
    (.touch (Channel.finger .pressed 1 10 30 1) 1)).attempt
    (.touch (Channel.finger .pressed 1 50 40 2) 2)).attempt
    (.touch (Channel.finger .pressed 3 90 50 3) 3)).attempt
    (.ack 1 false false 1)).attempt (.ack 2 false false 2)

theorem reached_company : Reached (fun _ _ => True) company :=
  ((((((Reached.start {} ⟨10⟩).attempt trivial).attempt trivial).attempt trivial).attempt
    trivial).attempt trivial).attempt trivial

theorem numberless_company : ∀ entry ∈ company.router.helpers, entry.2.Numberless := by
  have hhelpers : company.router.helpers = [(0, ⟨fun _ => true, fun _ _ => false⟩)] := rfl
  rw [hhelpers]
  intro entry hentry consumer t id
  rw [List.mem_singleton.mp hentry]

theorem dateless_company : ∀ entry ∈ company.router.helpers, entry.2.Dateless := by
  have hhelpers : company.router.helpers = [(0, ⟨fun _ => true, fun _ _ => false⟩)] := rfl
  rw [hhelpers]
  intro entry hentry consumer t time
  rw [List.mem_singleton.mp hentry]

-- A clock that goes on from one reading to the next.
def busy : Clock := ⟨fun n => 60 + (n : Int), fun n => by simp⟩

end Session

end TouchGestures
