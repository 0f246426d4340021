import Mathlib.Data.List.Induction
import TouchGestures.Packet
import TouchGestures.Proofs.ContactTable.Roster

namespace TouchGestures.ContactTable

variable {t u : ContactTable} {touch : Touch} {calls : List Call}

-- The table has let go of a contact, and nothing has been asked of it since but to change
-- its limit.
def JustLeft (t : ContactTable) (calls : List Call) : Prop :=
  ∃ (earlier : List Call) (touch : Touch) (limits : List UInt64),
    calls = earlier ++ .touch touch :: limits.map .setLimit ∧
    ((t.after earlier).touch touch).1 = true ∧ (touch.kind = .released ∨ touch.kind = .cancelled)

theorem after_concat (t : ContactTable) (calls : List Call) (c : Call) :
    t.after (calls ++ [c]) = (t.after calls).call c := by
  simp [after]

-- Changes of the limit after a touch end in the touch itself or in one of the changes.
theorem concat_eq_touch_limits {c : Call} {earlier : List Call} {last : Touch}
    {limits : List UInt64}
    (h : calls ++ [c] = earlier ++ .touch last :: limits.map .setLimit) :
    (c = .touch last ∧ calls = earlier) ∨
      ∃ (others : List UInt64) (limit : UInt64), c = .setLimit limit ∧
        calls = earlier ++ .touch last :: others.map .setLimit := by
  rcases List.eq_nil_or_concat limits with rfl | ⟨others, limit, rfl⟩
  · obtain ⟨hcalls, hlast⟩ := List.append_inj' h rfl
    exact .inl ⟨List.singleton_inj.mp hlast, hcalls⟩
  · rw [List.concat_eq_append, List.map_append, ← List.cons_append, ← List.append_assoc] at h
    obtain ⟨hcalls, hlast⟩ := List.append_inj' h rfl
    exact .inr ⟨others, limit, List.singleton_inj.mp hlast, hcalls⟩

-- Only the last touch can have let go of a contact.
theorem justLeft_concat_touch :
    t.JustLeft (calls ++ [.touch touch]) ↔
      ((t.after calls).touch touch).1 = true ∧
        (touch.kind = .released ∨ touch.kind = .cancelled) := by
  constructor
  · rintro ⟨earlier, last, limits, hcalls, haccepted, hkind⟩
    obtain ⟨hlast, rfl⟩ | ⟨_, _, hlast, -⟩ := concat_eq_touch_limits hcalls
    · cases hlast
      exact ⟨haccepted, hkind⟩
    · cases hlast
  · rintro ⟨haccepted, hkind⟩
    exact ⟨calls, touch, [], rfl, haccepted, hkind⟩

theorem justLeft_concat_setLimit {limit : UInt64} :
    t.JustLeft (calls ++ [.setLimit limit]) ↔ t.JustLeft calls := by
  constructor
  · rintro ⟨earlier, last, limits, hcalls, haccepted, hkind⟩
    obtain ⟨hlast, -⟩ | ⟨others, _, -, hothers⟩ := concat_eq_touch_limits hcalls
    · cases hlast
    · exact ⟨earlier, last, others, hothers, haccepted, hkind⟩
  · rintro ⟨earlier, last, limits, rfl, haccepted, hkind⟩
    exact ⟨earlier, last, limits ++ [limit], by simp, haccepted, hkind⟩

theorem not_justLeft_concat_settle : ¬t.JustLeft (calls ++ [.settle]) := by
  rintro ⟨earlier, last, limits, hcalls, -, -⟩
  obtain ⟨hlast, -⟩ | ⟨_, _, hlast, -⟩ := concat_eq_touch_limits hcalls <;> cases hlast

-- A touch leaves a contact about to be dropped just if it is accepted and lets go of one.
theorem leaving_touch (t : ContactTable) (touch : Touch) :
    (t.touch touch).2.leaving.isSome = true ↔
      (t.touch touch).1 = true ∧ (touch.kind = .released ∨ touch.kind = .cancelled) := by
  cases haccept : t.settle.accept? touch with
  | none => simp [touch_of_accept?_eq_none haccept, leaving_settle]
  | some u =>
    have htouch : t.touch touch = (true, u) := by simp [ContactTable.touch, haccept]
    rw [htouch]
    obtain ⟨hkind, -, -, rfl⟩ | ⟨index, -, ⟨hkind, rfl⟩ | ⟨action, rfl, hkinds⟩⟩ :=
      accept?_eq_some haccept
    · simp [hkind, leaving_settle]
    · simp [hkind, move, leaving_settle]
    · obtain ⟨hkind, -⟩ | ⟨hkind, -⟩ := hkinds <;> simp [hkind]

theorem leaving_after_iff (h : t.leaving = none) (calls : List Call) :
    (t.after calls).leaving.isSome = true ↔ t.JustLeft calls := by
  induction calls using List.reverseRecOn with
  | nil => simp [after, h, JustLeft]
  | append_singleton calls c ih =>
    rw [after_concat]
    cases c with
    | touch touch => rw [justLeft_concat_touch, call, leaving_touch]
    | setLimit limit =>
      rw [justLeft_concat_setLimit, ← ih]
      rfl
    | settle =>
      rw [call, leaving_settle]
      exact iff_of_false (by simp) not_justLeft_concat_settle

instance (limit : UInt64) (calls : List Call) :
    Decidable (({ limit } : ContactTable).JustLeft calls) :=
  decidable_of_iff _ (leaving_after_iff rfl calls)

-- The contact that is about to be dropped is the one that changed last.
def Marked (t : ContactTable) : Prop :=
  ∀ id, t.leaving = some id →
    t.latest.isSome = true ∧ ∃ contact, t.acting? = some contact ∧ contact.id = id

theorem marked_of_leaving_eq_none (h : t.leaving = none) : t.Marked := by
  simp [Marked, h]

theorem marked_accept? (hsettled : t.leaving = none) (haccept : t.accept? touch = some u) :
    u.Marked := by
  obtain ⟨-, -, -, rfl⟩ | ⟨index, hindex, ⟨-, rfl⟩ | ⟨action, rfl, -⟩⟩ := accept?_eq_some haccept
  · exact marked_of_leaving_eq_none hsettled
  · exact marked_of_leaving_eq_none hsettled
  · rintro id ⟨⟩
    obtain ⟨hlt, hid, -⟩ := List.findIdx?_eq_some_iff_getElem.mp hindex
    refine ⟨rfl, t.contacts[index].update touch, ?_, ?_⟩
    · simp [acting?, actingIndex, note, move, hlt]
    · simpa [Contact.id_update] using hid

theorem Marked.call (h : t.Marked) (c : Call) : (t.call c).Marked := by
  cases c with
  | touch touch =>
    rw [ContactTable.call, ContactTable.touch]
    split
    · next u haccept => exact marked_accept? t.leaving_settle haccept
    · exact marked_of_leaving_eq_none t.leaving_settle
  | setLimit limit => exact h
  | settle => exact marked_of_leaving_eq_none t.leaving_settle

theorem Marked.after (h : t.Marked) (calls : List Call) : (t.after calls).Marked := by
  induction calls generalizing t with
  | nil => exact h
  | cons c rest ih => exact ih (h.call c)

-- Settling takes nothing but the contact that is leaving.
theorem Distinct.settle_eq (h : t.Distinct) :
    t.settle = { t with contacts := t.live, leaving := none } := by
  have hcontacts : t.settle.contacts = t.live := by
    rw [← h.live_settle, live_of_leaving_eq_none t.leaving_settle]
  rw [← hcontacts]
  unfold ContactTable.settle
  cases hleaving : t.leaving with
  | none => simp [← hleaving]
  | some id => rfl

theorem settle_eq_self_iff : t.settle = t ↔ t.leaving = none :=
  ⟨fun h => h ▸ t.leaving_settle, settle_of_leaving_eq_none⟩

-- The packet of the last touch is still the same after settling if nothing was leaving. If
-- something was, then the contact that takes its place in the table has to be where it was.
theorem ofTouch_settle_iff (h : t.Distinct) (hmarked : t.Marked) :
    Packet.ofTouch t.settle = Packet.ofTouch t ↔
      t.leaving = none ∨ ∃ lifted next, t.acting? = some lifted ∧
        t.live[t.actingIndex]? = some next ∧ next.place = lifted.place := by
  cases hleaving : t.leaving with
  | none => simp [settle_of_leaving_eq_none hleaving]
  | some id =>
    obtain ⟨hlatest, lifted, hlifted, -⟩ := hmarked id hleaving
    obtain ⟨change, hchange⟩ := Option.isSome_iff_exists.mp hlatest
    have hacting : t.settle.acting? = t.live[t.actingIndex]? := by
      rw [h.settle_eq]
      rfl
    have hsame : t.settle.latest = some change := by
      rw [h.settle_eq]
      exact hchange
    simp only [Packet.ofTouch, hsame, hchange, hacting, hlifted]
    cases t.live[t.actingIndex]? <;> simp

-- A touch that is turned down changes nothing but which contacts are tracked: the one that
-- was leaving is dropped. Hence the table stays as it was just if none was, and so does the
-- packet of the last touch unless another contact of the same place moves up.
theorem kept_iff_of_refused (limit : UInt64) (calls : List Call) (touch : Touch)
    (hrefused : ((after { limit } calls).touch touch).1 = false) :
    let start : ContactTable := { limit }
    let t := start.after calls
    let u := (t.touch touch).2
    u = { t with contacts := t.live, leaving := none } ∧
      (u = t ↔ ¬start.JustLeft calls) ∧
      (Packet.ofTouch u = Packet.ofTouch t ↔ ¬start.JustLeft calls ∨
        ∃ lifted next, t.acting? = some lifted ∧ t.live[t.actingIndex]? = some next ∧
          next.place = lifted.place) := by
  intro start t u
  have hdistinct : t.Distinct := Distinct.after (t := start) List.nodup_nil calls
  have hmarked : t.Marked := (marked_of_leaving_eq_none (t := start) rfl).after calls
  have hsettled : u = t.settle := by
    obtain ⟨-, htouch⟩ | ⟨-, v, -, htouch⟩ := hdistinct.touch_cases touch
    · exact congrArg Prod.snd htouch
    · have haccepted : (t.touch touch).1 = true := congrArg Prod.fst htouch
      cases haccepted.symm.trans hrefused
  have hleft : ¬start.JustLeft calls ↔ t.leaving = none := by
    rw [← leaving_after_iff rfl, Option.not_isSome_iff_eq_none]
  rw [hsettled, hleft]
  exact ⟨hdistinct.settle_eq, settle_eq_self_iff, ofTouch_settle_iff hdistinct hmarked⟩

def lifted : List Call :=
  [.touch (thumb.synthesize .pressed 0 1), .touch (thumb.synthesize .released 0 2)]

def liftedEarlier : List Call := lifted ++ [.settle]

-- Then a move of the thumb leaves no trace.
theorem kept_of_liftedEarlier :
    ((after { limit := 1 } liftedEarlier).touch (thumb.synthesize .moved 0 3)).1 = false ∧
      ((after { limit := 1 } liftedEarlier).touch (thumb.synthesize .moved 0 3)).2 =
        after { limit := 1 } liftedEarlier := by
  have hrefused : ((after { limit := 1 } liftedEarlier).touch
      (thumb.synthesize .moved 0 3)).1 = false := by decide +kernel
  have hnotJustLeft : ¬({ limit := 1 } : ContactTable).JustLeft liftedEarlier := by decide +kernel
  obtain ⟨-, hkept, -⟩ :=
    kept_iff_of_refused 1 liftedEarlier (thumb.synthesize .moved 0 3) hrefused
  exact ⟨hrefused, hkept.mpr hnotJustLeft⟩

-- Right after the thumb has lifted, the same move takes it out of the table, and with it
-- the packet of the release.
theorem not_kept_of_lifted :
    ((after { limit := 1 } lifted).touch (thumb.synthesize .moved 0 3)).1 = false ∧
      ((after { limit := 1 } lifted).touch (thumb.synthesize .moved 0 3)).2 ≠
        after { limit := 1 } lifted ∧
      (Packet.ofTouch (after { limit := 1 } lifted)).isOk = true ∧
      Packet.ofTouch ((after { limit := 1 } lifted).touch (thumb.synthesize .moved 0 3)).2 =
        .error (.invalidContactCount 0) := by
  decide +kernel

end TouchGestures.ContactTable
