import TouchGestures.Proofs.Detector.History

namespace TouchGestures.Detector

variable {d : Detector} {ops : List Op} {before after : List Moment} {z : Moment}

-- A double tap with the tap that it follows and the press of its stream.
structure Paired (x : Moment) (between : List Moment) (y : Moment) (since : List Moment)
    (z : Moment) (tap : LastTap) (time : Time) (location : Point) : Prop where
  completed : tap ∈ x.taps
  kept : ∀ m ∈ between, m.forgets = false
  press : y.press? = some (time, location)
  underway : ∀ m ∈ since ++ [z], m.press? = none ∧ m.before.stream.isSome
  single : ∀ m ∈ between ++ y :: since, m.doubleTaps = []
  soon : elapsed tap.time time ≤ y.before.settings.thresholds.doubleTapTimeout
  close : tap.location.distance location ≤ y.before.settings.thresholds.doubleTapSlop
  enabled : ∀ m ∈ y :: since ++ [z], m.before.settings.doubleTap = true

theorem followsTap_iff {time : Time} {location : Point} :
    d.followsTap time location = true ↔ d.settings.doubleTap = true ∧
      ∃ tap, d.lastTap = some tap ∧
        elapsed tap.time time ≤ d.settings.thresholds.doubleTapTimeout ∧
        tap.location.distance location ≤ d.settings.thresholds.doubleTapSlop := by
  cases htap : d.lastTap with
  | none => simp [followsTap, htap]
  | some tap => simp [followsTap, htap]

-- A tap that comes after another one and is no double tap with it: something was done about
-- taps between the first tap and the press of the second, or the press came too late or too far
-- away.
def Missed (moments : List Moment) (first second : LastTap) : Prop :=
  ∃ (past : List Moment) (x : Moment) (gap : List Moment) (y : Moment) (since : List Moment)
    (z : Moment) (rest : List Moment) (time : Time) (location : Point),
    moments = past ++ x :: gap ++ y :: since ++ z :: rest ∧ first ∈ x.taps ∧ second ∈ z.taps ∧
    y.press? = some (time, location) ∧
    (∀ m ∈ since ++ [z], m.press? = none ∧ m.before.stream.isSome) ∧
    ((∃ m ∈ gap, m.taps ≠ [] ∨ m.doubleTaps ≠ [] ∨ m.forgets = true) ∨
      ¬(elapsed first.time time ≤ y.before.settings.thresholds.doubleTapTimeout ∧
        first.location.distance location ≤ y.before.settings.thresholds.doubleTapSlop))

-- Double taps stay on as long as they are not switched off.
theorem doubleTap_performAll (hon : d.settings.doubleTap = true)
    (hops : ∀ op ∈ ops, op.switch? ≠ some false) :
    (d.performAll ops).settings.doubleTap = true := by
  induction ops using List.reverseRecOn with
  | nil => exact hon
  | append_singleton ops op ih =>
    have hbefore := ih fun op hop => hops op (by simp [hop])
    have hop := hops op (by simp)
    rw [performAll_concat, Moment.doubleTap_after]
    cases hswitch : op.switch? with
    | none => exact hbefore
    | some enabled =>
      cases enabled with
      | true => rfl
      | false => exact absurd hswitch hop

theorem doubleTap_of_mem_history (hon : d.settings.doubleTap = true)
    (hops : ∀ op ∈ ops, op.switch? ≠ some false) {m : Moment} (hm : m ∈ d.history ops) :
    m.before.settings.doubleTap = true := by
  obtain ⟨before, after, hsplit⟩ := List.append_of_mem hm
  obtain ⟨first, rest, op, rfl, -, rfl⟩ := exists_of_history_eq hsplit
  exact doubleTap_performAll hon fun op hop => hops op (by simp [hop])

-- While double taps are on, a tap that comes after another one is no double tap for a reason.
theorem missed_of_taps {settings : ChannelSettings} (hon : settings.doubleTap = true)
    (hops : ∀ op ∈ ops, op.switch? ≠ some false) {past gap rest : List Moment} {x z : Moment}
    {first second : LastTap} (h : history { settings } ops = past ++ x :: gap ++ z :: rest)
    (hx : first ∈ x.taps) (hz : second ∈ z.taps) :
    Missed (history { settings } ops) first second := by
  obtain ⟨ops₁, rest', op, rfl, hbefore, rfl⟩ := exists_of_history_eq h
  obtain ⟨⟨s, hs, hsingle⟩, hnone⟩ := (Moment.fate _).of_tap (List.ne_nil_of_mem hz)
  obtain ⟨begun, y, since, time, location, hbegun, hpress, hsince, hquiet, hfollows⟩ :=
    exists_press_of_stream rfl hs
  have hops₁ : ∀ op ∈ ops₁, op.switch? ≠ some false := fun op hop => hops op (by simp [hop])
  -- The stream cannot end as a double tap, and double taps are on, so the press did not follow.
  have hnot : y.before.followsTap time location = false := by
    have hall : since.all (·.before.settings.doubleTap) = true := by
      refine List.all_eq_true.mpr fun m hm => ?_
      have hmem : m ∈ history { settings } ops₁ := by
        rw [hbegun]
        simp [hm]
      exact doubleTap_of_mem_history hon hops₁ hmem
    rw [hsingle, hall, doubleTap_performAll hon hops₁] at hfollows
    simpa using hfollows.symm
  obtain ⟨ops₂, _, _, rfl, rfl, rfl⟩ := exists_of_history_eq hbegun
  obtain ⟨gap', hgap⟩ : ∃ gap', history { settings } ops₂ = past ++ x :: gap' :=
    exists_split_of_append_eq (P := (first ∈ ·.taps)) (hbefore.symm.trans hbegun) hx
      fun m hm => by simp [(hquiet m hm).1]
  refine ⟨past, x, gap', _, since, _, rest, time, location, ?_, hx, hz, hpress,
    Moment.underway_concat hsince hs hnone, ?_⟩
  · rw [h, ← hbefore, hbegun, hgap]
  · by_cases hdone : ∃ m ∈ gap', m.taps ≠ [] ∨ m.doubleTaps ≠ [] ∨ m.forgets = true
    · exact .inl hdone
    · refine .inr fun ⟨hsoon, hclose⟩ => ?_
      have htap : (performAll { settings } ops₂).lastTap = some first := by
        refine (lastTap_performAll_iff rfl).mpr ⟨past, x, gap', hgap, hx, fun m hm => ?_⟩
        have hm := not_or.mp fun hor => hdone ⟨m, hm, hor⟩
        simpa using hm
      have hcandidate : (performAll { settings } ops₂).followsTap time location = true :=
        followsTap_iff.mpr ⟨doubleTap_performAll hon fun op hop => hops₁ op (by simp [hop]),
          first, htap, hsoon, hclose⟩
      rw [hcandidate] at hnot
      cases hnot

-- Every double tap of a new detector follows a tap.
theorem exists_paired (settings : ChannelSettings)
    (h : history { settings } ops = before ++ z :: after) (hz : z.doubleTaps ≠ []) :
    ∃ first x between y since tap time location,
      before = first ++ x :: between ++ y :: since ∧
      Paired x between y since z tap time location := by
  obtain ⟨ops, rest, op, rfl, rfl, rfl⟩ := exists_of_history_eq h
  obtain ⟨⟨s, hs, hdouble⟩, hnone⟩ := (Moment.fate _).of_doubleTap hz
  obtain ⟨begun, y, since, time, location, hhistory, hpress, hsince, hquiet, hfollows⟩ :=
    exists_press_of_stream rfl hs
  rw [hdouble, eq_comm, Bool.and_eq_true, Bool.and_eq_true, List.all_eq_true] at hfollows
  obtain ⟨⟨hfollows, hallowed⟩, hnow⟩ := hfollows
  obtain ⟨hbegun, tap, htap, hsoon, hclose⟩ := followsTap_iff.mp hfollows
  obtain ⟨earlier, later, press, rfl, rfl, rfl⟩ := exists_of_history_eq hhistory
  obtain ⟨first, x, between, hfirst, hx, hbetween⟩ := (lastTap_performAll_iff rfl).mp htap
  refine ⟨first, x, between, _, since, tap, time, location, by rw [hhistory, hfirst], hx,
    fun m hm => (hbetween m hm).2.2, hpress, Moment.underway_concat hsince hs hnone,
    fun m hm => ?_, hsoon, hclose, fun m hm => ?_⟩
  · obtain hm | hm := List.mem_append.mp hm
    · exact (hbetween m hm).2.1
    · exact (hquiet m hm).2
  · obtain hm | hm := List.mem_append.mp hm
    · obtain rfl | hm := List.mem_cons.mp hm
      · exact hbegun
      · exact hallowed m hm
    · obtain rfl := List.mem_singleton.mp hm
      exact hnow

-- There is no other double tap between the tap and the double tap.
theorem Paired.doubleTaps_eq_nil {log first between since : List Moment} {x y m : Moment}
    {tap : LastTap} {time : Time} {location : Point} {i j : Nat}
    (h : Paired x between y since z tap time location)
    (hlog : log.take j = first ++ x :: between ++ y :: since) (hafter : first.length < i)
    (hbefore : i < j) (hm : log[i]? = some m) : m.doubleTaps = [] := by
  refine h.single m ?_
  rw [← List.getElem?_take_of_lt hbefore, hlog, List.append_assoc, List.cons_append,
    List.getElem?_append_right (Nat.le_of_lt hafter)] at hm
  obtain ⟨k, hk⟩ : ∃ k, i - first.length = k + 1 := ⟨i - first.length - 1, by omega⟩
  rw [hk, List.getElem?_cons_succ] at hm
  exact List.mem_of_getElem? hm

-- Every double tap of a new detector follows a tap, and no tap is followed by two.
theorem exists_partner (settings : ChannelSettings) (ops : List Op) :
    (∀ m ∈ history { settings } ops, m.taps.length + m.doubleTaps.length ≤ 1) ∧
    ∃ partner : Nat → Nat,
      Set.InjOn partner {i | ∃ z, (history { settings } ops)[i]? = some z ∧ z.doubleTaps ≠ []} ∧
      ∀ i z, (history { settings } ops)[i]? = some z → z.doubleTaps ≠ [] →
        ∃ first x between y since tap time location,
          (history { settings } ops).take i = first ++ x :: between ++ y :: since ∧
          partner i = first.length ∧ Paired x between y since z tap time location := by
  refine ⟨fun m _ => m.length_le_one, ?_⟩
  have hexists : ∀ i, ∃ partner, ∀ z, (history { settings } ops)[i]? = some z →
      z.doubleTaps ≠ [] → ∃ first x between y since tap time location,
        (history { settings } ops).take i = first ++ x :: between ++ y :: since ∧
        partner = first.length ∧ Paired x between y since z tap time location := by
    intro i
    by_cases hi : ∃ z, (history { settings } ops)[i]? = some z ∧ z.doubleTaps ≠ []
    · obtain ⟨z, hget, hz⟩ := hi
      obtain ⟨hlt, hget⟩ := List.getElem?_eq_some_iff.mp hget
      have hsplit := (List.take_append_drop i (history { settings } ops)).symm
      rw [List.drop_eq_getElem_cons hlt, hget] at hsplit
      obtain ⟨first, x, between, y, since, tap, time, location, hbefore, hpaired⟩ :=
        exists_paired settings hsplit hz
      refine ⟨first.length, fun z' hget' _ => ⟨first, x, between, y, since, tap, time, location,
        hbefore, rfl, ?_⟩⟩
      rw [List.getElem?_eq_getElem hlt, hget, Option.some.injEq] at hget'
      rwa [← hget']
    · exact ⟨0, fun z hget hz => absurd ⟨z, hget, hz⟩ hi⟩
  choose partner hpartner using hexists
  refine ⟨partner, fun i hi j hj hsame => ?_, hpartner⟩
  -- Of two double taps with one tap, the first would lie between that tap and the second.
  have hnot : ∀ {i j : Nat}, (∃ z, (history { settings } ops)[i]? = some z ∧ z.doubleTaps ≠ []) →
      (∃ z, (history { settings } ops)[j]? = some z ∧ z.doubleTaps ≠ []) →
      partner i = partner j → ¬i < j := by
    rintro i j ⟨z, hget, hz⟩ ⟨z', hget', hz'⟩ hsame hlt
    obtain ⟨first, x, between, y, since, _, _, _, hlog, hfirst, -⟩ := hpartner i z hget hz
    obtain ⟨first', x', between', y', since', _, _, _, hlog', hfirst', hpaired'⟩ :=
      hpartner j z' hget' hz'
    have hlength := congrArg List.length hlog
    simp only [List.length_take, List.length_append, List.length_cons] at hlength
    exact hz (hpaired'.doubleTaps_eq_nil hlog' (by omega) hlt hget)
  have hle := hnot hi hj hsame
  have hge := hnot hj hi hsame.symm
  omega

-- A touch by a contact that stays at one place.
def still (action : Action) (milliseconds : Nat) : Op :=
  .touch
    { limit := 16
      contacts := [⟨⟨1, .finger, 0, 0, 1⟩, ⟨⟨10, 10⟩, ⟨10, 10⟩⟩, 0, 0⟩]
      latest := some ⟨action, 0, 1, Duration.milliseconds milliseconds, false⟩ }

-- The contact is pressed and released three times. The first two taps make a double tap, and
-- the third is none, since the first tap counts once only.
def thrice : List Op :=
  [still .began 0, still .ended 50, still .began 100, still .ended 150, still .began 200,
    still .ended 250]

theorem exists_partner_of_thrice :
    (history { settings := { doubleTap := true } } thrice).map
        (fun m => (m.taps.length, m.doubleTaps.length)) =
      [(0, 0), (1, 0), (0, 0), (0, 1), (0, 0), (1, 0)] ∧
    ∃ z first x between y since tap time location,
      (history { settings := { doubleTap := true } } thrice)[3]? = some z ∧
      (history { settings := { doubleTap := true } } thrice).take 3 =
        first ++ x :: between ++ y :: since ∧
      Paired x between y since z tap time location := by
  obtain ⟨-, partner, -, hpartner⟩ := exists_partner { doubleTap := true } thrice
  refine ⟨by decide +kernel, ?_⟩
  obtain ⟨first, x, between, y, since, tap, time, location, hlog, -, hpaired⟩ :=
    hpartner 3 _ rfl (by decide +kernel)
  exact ⟨_, first, x, between, y, since, tap, time, location, rfl, hlog, hpaired⟩

end TouchGestures.Detector
