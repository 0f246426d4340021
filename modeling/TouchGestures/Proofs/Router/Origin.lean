import TouchGestures.Proofs.Channel.Standing
import TouchGestures.Proofs.Router.Mirror

namespace TouchGestures.Router

open Channel (Chronicle Event)
open Channel.Chronicle (Evolves)

variable {r : Router} {books : Books} {key other : ChannelKey} {k k' : Chronicle}

theorem evolves_amend {P : Event → Prop} {f : Chronicle → Chronicle}
    (hf : other = key → ∀ k, Evolves P k (f k)) (h : r.amend books key f other = some k') :
    ∃ k, books other = some k ∧ Evolves P k k' := by
  unfold amend at h
  split at h
  · next hkey =>
    obtain ⟨k, hk, rfl⟩ := Option.map_eq_some_iff.mp h
    exact ⟨k, hk, hf hkey.1 k⟩
  · exact ⟨k', h, .refl⟩

theorem isSome_amend (f : Chronicle → Chronicle) :
    (r.amend books key f other).isSome = (books other).isSome := by
  unfold amend
  split
  · exact Option.isSome_map
  · rfl

-- Whether a step leaves the settings alone, and whose channels are.
def Act.isLocal : Act → Bool
  | .reassign .. | .configure _ => false
  | _ => true

-- Whether a step may bring touches to a channel.
def Act.Stirs (key : ChannelKey) : Act → Prop
  | .touch .. => True
  | .cancelChannel _ _ other | .reenter _ other _ => other = key
  | _ => False

-- The records that a step starts from.
def opened (r : Router) (books : Books) : Act → Books
  | .touch _ consumer => r.enroll books consumer
  | _ => books

-- No step opens or loses a record otherwise.
theorem isSome_record (r : Router) (books : Books) (a : Act) (key : ChannelKey) :
    (r.record books a key).isSome = (r.opened books a key).isSome := by
  cases a with
  | ack id consumed nonBlocking consumer =>
    simp only [record, opened]
    split
    · rfl
    · cases r.awaiting? id consumer with
      | none => rfl
      | some seen => exact isSome_amend _
  | configure settings =>
    simp only [record, opened]
    split
    · exact Option.isSome_map
    · rfl
  | touch | cancelChannel | reenter | tick | forgetHistory | reassign => exact isSome_amend _
  | rebind | forget | addHelper | removeHelper | setIds => rfl

theorem Mirrors.lived_opened {a : Act} (h : r.Mirrors books) (hk : r.opened books a key = some k) :
    Channel.Lived (fun _ => True) k := by
  cases a with
  | touch t consumer => exact h.obtain.lived hk
  | _ => exact h.lived hk

-- What a step makes of a channel comes of events, and of touches only where it brings some.
theorem evolves_record {a : Act} (ha : a.isLocal = true) (h : r.record books a key = some k') :
    ∃ k, r.opened books a key = some k ∧
      Evolves (fun e => e.isLocal = true ∧ (e.isStill = true ∨ a.Stirs key)) k k' := by
  have hstill : ∀ {k : Chronicle} {e : Event}, e.isLocal = true → e.isStill = true →
      Evolves (fun e => e.isLocal = true ∧ (e.isStill = true ∨ a.Stirs key)) k (k.next e) :=
    fun hlocal hstill => Evolves.refl.next ⟨hlocal, .inl hstill⟩
  have hstirs : ∀ {k k' : Chronicle}, a.Stirs key → Evolves (·.isLocal = true) k k' →
      Evolves (fun e => e.isLocal = true ∧ (e.isStill = true ∨ a.Stirs key)) k k' :=
    fun hstirs hevolves => hevolves.mono fun _ he => ⟨he, .inr hstirs⟩
  cases a with
  | touch t consumer => exact evolves_amend (fun _ _ => hstirs trivial (Evolves.refl.next rfl)) h
  | ack id consumed nonBlocking consumer =>
    by_cases horphan : id ∈ r.orphans
    · rw [record, if_pos horphan] at h
      exact ⟨k', h, .refl⟩
    · cases hkey : r.awaiting? id consumer with
      | none =>
        simp only [record, horphan, if_false, hkey] at h
        exact ⟨k', h, .refl⟩
      | some seen =>
        simp only [record, horphan, if_false, hkey] at h
        exact evolves_amend (fun _ _ => (hstill rfl rfl).trans (hstill rfl rfl)) h
  | cancelChannel now consumer other =>
    exact evolves_amend
      (fun heq _ => hstirs heq.symm (Chronicle.evolves_injectAll _ _ _)) h
  | reenter clock other contacts =>
    exact evolves_amend (fun heq _ => hstirs heq.symm (Chronicle.evolves_reenter _ _)) h
  | tick | forgetHistory => exact evolves_amend (fun _ _ => hstill rfl rfl) h
  | rebind | forget | addHelper | removeHelper | setIds => exact ⟨k', h, .refl⟩
  | reassign | configure => cases ha

-- A step that is local and brings no touches leaves the contacts alone.
theorem rests_record {a : Act} (ha : a.isLocal = true) (hstirs : ¬a.Stirs key)
    (hk : books key = some k) :
    ∃ k', r.record books a key = some k' ∧ Channel.Rests k.channel k'.channel := by
  have hopened : r.opened books a key = books key := by
    cases a with
    | touch t consumer => exact absurd trivial hstirs
    | _ => rfl
  have hsome := isSome_record r books a key
  rw [hopened, hk, Option.isSome_some, Option.isSome_iff_exists] at hsome
  obtain ⟨k', hk'⟩ := hsome
  obtain ⟨k₁, hk₁, hevolves⟩ := evolves_record ha hk'
  rw [hopened, hk, Option.some.injEq] at hk₁
  subst hk₁
  exact ⟨k', hk', (hevolves.mono fun _ he => he.2.resolve_right hstirs).rests⟩

end TouchGestures.Router
