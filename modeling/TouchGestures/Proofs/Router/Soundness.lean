import TouchGestures.Proofs.Router.Bound

namespace TouchGestures.Session

open Router (Act Op)

variable {s s' : Session} {acts : List Act}

-- What is on record agrees with the router and with what the host has seen.
structure Sound (s : Session) : Prop where
  mirrors : s.router.Mirrors s.books
  consistent : s.Consistent
  handed : s.Handed
  owned : s.router.Owned

theorem sound_start (settings : Settings) (ids : EventIds) :
    Sound { router := { settings, ids } } where
  mirrors := mirrors_start settings ids
  consistent := consistent_start settings ids
  handed := handed_start settings ids
  owned := Router.owned_start settings ids

theorem Sound.act {a : Act} (h : s.Sound) (hproper : s.Proper a) (hnodup : s'.numbers.Nodup)
    (ha : s.act a = .ok s') : s'.Sound := by
  have hmirrors := mirrors_act h.mirrors ha
  obtain ⟨handouts, router, hr, rfl⟩ := act_eq_ok ha
  exact ⟨hmirrors, h.consistent.act h.mirrors hnodup hr,
    h.handed.act h.consistent h.mirrors hproper hnodup hr, owned_act h.owned h.mirrors hproper.granted hr⟩

-- So it stays along steps that find what they take for granted.
theorem Sound.play (h : s.Sound) (hsuits : s.Suits acts) (hnodup : s'.numbers.Nodup)
    (hplay : s.play acts = .ok s') : s'.Sound := by
  induction acts generalizing s with
  | nil =>
    cases hplay
    exact h
  | cons a rest ih =>
    obtain ⟨s₁, ha, hrest⟩ := bind_eq_ok.mp hplay
    have hnodup₁ := (prefix_numbers_play hrest).sublist.nodup hnodup
    exact ih (h.act hsuits.1 hnodup₁ ha) (hsuits.2 s₁ ha) hrest

theorem Sound.perform {op : Op} (h : s.Sound) (hop : s.Orderly op) (hnodup : s'.numbers.Nodup)
    (hs : s.perform op = .ok s') : s'.Sound :=
  h.play (suits_acts h.mirrors hop) hnodup hs

theorem Reached.sound (h : Reached Orderly s) (hnodup : s.numbers.Nodup) : s.Sound := by
  induction h with
  | start settings ids => exact sound_start settings ids
  | step _ hop hs ih =>
    exact (ih ((prefix_numbers_play hs).sublist.nodup hnodup)).perform hop hnodup hs

end TouchGestures.Session
