import Pandamonium.Model.SharedCache

/-!
# Who is served by a fetch

A future is in the pending table while its fetch is in progress.  The one who fetches takes it out
where the fetch gives a value or raises, but not where it is cancelled; and one who waits and is
cancelled cancels the future of all.  Where neither happens everyone who waits is answered by the
fetch.
-/

set_option autoImplicit false

namespace Pandamonium.SharedCache

open Pandamonium.Library

variable {κ ν ε : Type} [DecidableEq κ] {w w' : Serving (Store κ ν ε) (Frame κ)} {call : ℕ}
  {key : κ} {ttl fut : ℕ}

/-- The call fetches for the key and the future. -/
def Fetches (w : Serving (Store κ ν ε) (Frame κ)) (call : ℕ) (key : κ) (fut : ℕ) : Prop :=
  ∃ ttl, w.calls.get? call = some (.fetches key ttl fut)

/-- A future is in the pending table only while a fetch for it is in progress, and nobody waits for
one that will never be done; and what those receive who waited is what the fetch has given or raised. -/
structure Served (w : Serving (Store κ ν ε) (Frame κ)) : Prop where
  inProgress : ∀ key fut, w.store.pending.get? key = some fut → ∃ call, Fetches w call key fut
  waited : ∀ call key fut, w.calls.get? call = some (.awaits key fut) →
    (∃ call', Fetches w call' key fut) ∨
      ∃ done, w.store.fetched.get? fut = some done ∧ w.store.futures.get? fut = some done
  answered : ∀ fut done, (fut, done) ∈ w.store.received → w.store.fetched.get? fut = some done

/-- Nobody is cancelled who fetches, or who waits for a future that is not done. -/
def spares (s : Store κ ν ε) : Frame κ → Occurrence ν ε → Bool
  | .fetches _ _ _, .cancelled => false
  | .awaits _ fut, .cancelled =>
    match s.futures.get? fut with
    | some .pending => false
    | _ => true
  | _, _ => true

/-- The condition on a step is one on the runs. -/
def sparing (s : Store κ ν ε) (frame : Frame κ) (o : Occurrence ν ε) : Prop :=
  spares s frame o = true

instance (s : Store κ ν ε) (frame : Frame κ) (o : Occurrence ν ε) :
    Decidable (sparing s frame o) := inferInstanceAs (Decidable (spares s frame o = true))

/-! ## Futures and fetches -/

/-- What holds of the futures, and of the callers in progress. -/
structure Kept (w : Serving (Store κ ν ε) (Frame κ)) : Prop where
  open_of_pending : ∀ key fut, w.store.pending.get? key = some fut →
    w.store.futures.get? fut = some .pending ∧ ∃ call, Fetches w call key fut
  pending_of_fetches : ∀ call key fut, Fetches w call key fut →
    w.store.pending.get? key = some fut
  single : ∀ call call' key fut, Fetches w call key fut → Fetches w call' key fut → call = call'
  distinct : ∀ key key' fut, w.store.pending.get? key = some fut →
    w.store.pending.get? key' = some fut → key = key'
  done_of_fetched : ∀ fut done, w.store.fetched.get? fut = some done →
    w.store.futures.get? fut = some done ∧ done ≠ .pending
  fetched_of_done : ∀ fut done, w.store.futures.get? fut = some done →
    done = .pending ∨ w.store.fetched.get? fut = some done
  waited : ∀ call key fut, w.calls.get? call = some (.awaits key fut) →
    w.store.pending.get? key = some fut ∨ ∃ done, w.store.fetched.get? fut = some done
  answered : ∀ fut done, (fut, done) ∈ w.store.received → w.store.fetched.get? fut = some done
  numbered : ∀ fut done, w.store.futures.get? fut = some done → fut < w.store.created

theorem Kept.served (h : Kept w) : Served w where
  inProgress := fun key fut hpending => (h.open_of_pending key fut hpending).2
  waited := by
    intro call key fut hcall
    obtain hpending | ⟨done, hdone⟩ := h.waited call key fut hcall
    · exact .inl (h.open_of_pending key fut hpending).2
    · exact .inr ⟨done, hdone, (h.done_of_fetched fut done hdone).1⟩
  answered := h.answered

theorem Kept.of_same (h : Kept w) (hpending : w'.store.pending = w.store.pending)
    (hfutures : w'.store.futures = w.store.futures) (hfetched : w'.store.fetched = w.store.fetched)
    (hcreated : w'.store.created = w.store.created)
    (hreceived : ∀ fut done, (fut, done) ∈ w'.store.received →
      w.store.fetched.get? fut = some done)
    (hfetches : ∀ call key fut, Fetches w' call key fut ↔ Fetches w call key fut)
    (hwaits : ∀ call key fut, w'.calls.get? call = some (.awaits key fut) →
      w.calls.get? call = some (.awaits key fut) ∨ w.store.pending.get? key = some fut) :
    Kept w' := by
  refine ⟨?_, ?_, ?_, ?_, ?_, ?_, ?_, ?_, ?_⟩
  · simp only [hpending, hfutures, hfetches]
    exact h.open_of_pending
  · simp only [hpending, hfetches]
    exact h.pending_of_fetches
  · simp only [hfetches]
    exact h.single
  · simp only [hpending]
    exact h.distinct
  · simp only [hfetched, hfutures]
    exact h.done_of_fetched
  · simp only [hfetched, hfutures]
    exact h.fetched_of_done
  · simp only [hpending, hfetched]
    intro call key fut hcall
    obtain hcall | hkey := hwaits call key fut hcall
    · exact h.waited call key fut hcall
    · exact .inl hkey
  · simp only [hfetched]
    exact hreceived
  · simp only [hfutures, hcreated]
    exact h.numbered

variable {s : Store κ ν ε}

omit [DecidableEq κ] in
/-- A step of a call that leaves it without a fetch, as it was before. -/
theorem fetches_follow {frame : Frame κ} {next : Option (Frame κ)}
    (hcall : w.calls.get? call = some frame) (hbefore : ∀ key ttl fut, frame ≠ .fetches key ttl fut)
    (hafter : ∀ key ttl fut, next ≠ some (.fetches key ttl fut)) (i : ℕ) (key : κ) (fut : ℕ) :
    Fetches ⟨s, Service.follow w.calls call next⟩ i key fut ↔ Fetches w i key fut := by
  unfold Fetches
  rw [Service.get?_follow_eq]
  split
  case isTrue hi =>
    subst hi
    constructor
    · rintro ⟨ttl, hnext⟩
      exact absurd hnext (hafter key ttl fut)
    · rintro ⟨ttl, hframe⟩
      exact absurd (Option.some.inj (hcall.symm.trans hframe)) (hbefore key ttl fut)
  case isFalse => exact Iff.rfl

/-- The one who waits has waited before, or waits for what is pending. -/
theorem waits_follow {next : Option (Frame κ)}
    (hafter : ∀ key fut, next = some (.awaits key fut) → w.store.pending.get? key = some fut)
    (i : ℕ) (key : κ) (fut : ℕ)
    (hi : (⟨s, Service.follow w.calls call next⟩ : Serving (Store κ ν ε) (Frame κ)).calls.get? i =
      some (.awaits key fut)) :
    w.calls.get? i = some (.awaits key fut) ∨ w.store.pending.get? key = some fut := by
  obtain hnext | hbefore := Service.get?_follow hi
  · exact .inr (hafter key fut hnext)
  · exact .inl hbefore

/-- A future is created, and its fetch begins. -/
theorem Kept.opens (h : Kept w) (hcall : w.calls.get? call = some (.enters key ttl))
    (hnone : w.store.pending.get? key = none) :
    Kept ⟨{ w.store with
      pending := w.store.pending.set key w.store.created
      futures := w.store.futures.set w.store.created .pending
      created := w.store.created + 1 },
      Service.follow w.calls call (some (.fetches key ttl w.store.created))⟩ := by
  -- a fetch that is in progress is the new one, or was before
  have hfetches : ∀ i key' fut,
      Fetches ⟨{ w.store with
        pending := w.store.pending.set key w.store.created
        futures := w.store.futures.set w.store.created .pending
        created := w.store.created + 1 },
        Service.follow w.calls call (some (.fetches key ttl w.store.created))⟩ i key' fut ↔
      (i = call ∧ key' = key ∧ fut = w.store.created) ∨ Fetches w i key' fut := by
    intro i key' fut
    unfold Fetches
    rw [Service.get?_follow_eq]
    split
    case isTrue hi =>
      subst hi
      simp only [hcall, Option.some.injEq, Frame.fetches.injEq, reduceCtorEq, exists_const, or_false,
        true_and]
      constructor
      · rintro ⟨ttl', hkey, -, hfut⟩
        exact ⟨hkey.symm, hfut.symm⟩
      · rintro ⟨hkey, hfut⟩
        exact ⟨ttl, hkey.symm, rfl, hfut.symm⟩
    case isFalse hi => simp only [hi, false_and, false_or]
  have hold : ∀ key' fut, w.store.pending.get? key' = some fut →
      key' ≠ key ∧ fut ≠ w.store.created := by
    intro key' fut hpending
    refine ⟨?_, ?_⟩
    · rintro rfl
      exact absurd (hnone.symm.trans hpending) (Option.some_ne_none fut).symm
    · exact Nat.ne_of_lt (h.numbered fut _ (h.open_of_pending key' fut hpending).1)
  refine ⟨?_, ?_, ?_, ?_, ?_, ?_, ?_, ?_, ?_⟩
  · intro key' fut hpending
    dsimp only at hpending ⊢
    rw [Dict.get?_set] at hpending
    split at hpending
    case isTrue hkey =>
      obtain rfl := Option.some.inj hpending
      exact ⟨Dict.get?_set_self _ _ _, call, (hfetches _ _ _).mpr (.inl ⟨rfl, hkey, rfl⟩)⟩
    case isFalse =>
      obtain ⟨hopen, i, hi⟩ := h.open_of_pending key' fut hpending
      rw [Dict.get?_set, if_neg (hold key' fut hpending).2]
      exact ⟨hopen, i, (hfetches _ _ _).mpr (.inr hi)⟩
  · intro i key' fut hi
    dsimp only
    obtain ⟨rfl, rfl, rfl⟩ | hi := (hfetches i key' fut).mp hi
    · exact Dict.get?_set_self _ _ _
    · have hpending := h.pending_of_fetches i key' fut hi
      rw [Dict.get?_set, if_neg (hold key' fut hpending).1, hpending]
  · intro i j key' fut hi hj
    obtain ⟨rfl, rfl, rfl⟩ | hi' := (hfetches i key' fut).mp hi
    · obtain ⟨rfl, -, -⟩ | hj' := (hfetches j _ _).mp hj
      · rfl
      · exact absurd rfl (hold _ _ (h.pending_of_fetches j _ _ hj')).2
    · obtain ⟨rfl, rfl, rfl⟩ | hj' := (hfetches j key' fut).mp hj
      · exact absurd rfl (hold _ _ (h.pending_of_fetches i _ _ hi')).2
      · exact h.single i j key' fut hi' hj'
  · intro key₁ key₂ fut h₁ h₂
    dsimp only at h₁ h₂
    rw [Dict.get?_set] at h₁ h₂
    split at h₁
    case isTrue hkey₁ =>
      obtain rfl := Option.some.inj h₁
      split at h₂
      case isTrue hkey₂ => exact hkey₁.trans hkey₂.symm
      case isFalse => exact absurd rfl (hold _ _ h₂).2
    case isFalse =>
      split at h₂
      case isTrue =>
        obtain rfl := Option.some.inj h₂
        exact absurd rfl (hold _ _ h₁).2
      case isFalse => exact h.distinct key₁ key₂ fut h₁ h₂
  · intro fut done hfetched
    obtain ⟨hdone, hnot⟩ := h.done_of_fetched fut done hfetched
    dsimp only
    rw [Dict.get?_set, if_neg (Nat.ne_of_lt (h.numbered fut done hdone))]
    exact ⟨hdone, hnot⟩
  · intro fut done hdone
    dsimp only at hdone ⊢
    rw [Dict.get?_set] at hdone
    split at hdone
    case isTrue => exact .inl (Option.some.inj hdone).symm
    case isFalse => exact h.fetched_of_done fut done hdone
  · intro i key' fut hi
    dsimp only
    obtain hnext | hbefore := Service.get?_follow hi
    · cases hnext
    · refine (h.waited i key' fut hbefore).imp_left fun hpending => ?_
      rw [Dict.get?_set, if_neg (hold key' fut hpending).1, hpending]
  · exact h.answered
  · intro fut done hdone
    dsimp only at hdone ⊢
    rw [Dict.get?_set] at hdone
    split at hdone
    case isTrue hfut => exact hfut ▸ Nat.lt_succ_self _
    case isFalse => exact Nat.lt_succ_of_lt (h.numbered fut done hdone)

/-- A fetch ends: its future is done, and no longer in the pending table. -/
theorem Kept.closes (h : Kept w) (hcall : w.calls.get? call = some (.fetches key ttl fut))
    (cache : Dict κ (ℕ × ν)) {done : Future ν ε} (hdone : done ≠ .pending) :
    Kept ⟨{ w.store with
      cache := cache
      pending := w.store.pending.erase key
      fetched := w.store.fetched.set fut done
      futures := w.store.futures.set fut done }, Service.follow w.calls call none⟩ := by
  have hthis : Fetches w call key fut := ⟨ttl, hcall⟩
  have hpending := h.pending_of_fetches call key fut hthis
  have hopen := (h.open_of_pending key fut hpending).1
  -- a fetch that is still in progress has another key and another future
  have hothers : ∀ i key' fut',
      Fetches ⟨{ w.store with
        cache := cache
        pending := w.store.pending.erase key
        fetched := w.store.fetched.set fut done
        futures := w.store.futures.set fut done }, Service.follow w.calls call none⟩ i key' fut' ↔
      i ≠ call ∧ Fetches w i key' fut' := by
    intro i key' fut'
    unfold Fetches
    rw [Service.get?_follow_eq]
    split
    case isTrue hi => simp only [hi, reduceCtorEq, exists_const, ne_eq, not_true_eq_false, false_and]
    case isFalse hi => simp only [ne_eq, hi, not_false_eq_true, true_and]
  have hunfetched : w.store.fetched.get? fut = none := by
    refine Option.eq_none_iff_forall_ne_some.mpr fun done' hfetched => ?_
    obtain ⟨hfuture, hnot⟩ := h.done_of_fetched fut done' hfetched
    exact hnot (Option.some.inj (hfuture.symm.trans hopen))
  refine ⟨?_, ?_, ?_, ?_, ?_, ?_, ?_, ?_, ?_⟩
  · intro key' fut' hpending'
    dsimp only at hpending' ⊢
    rw [Dict.get?_erase] at hpending'
    split at hpending'
    · cases hpending'
    case isFalse hkey =>
      obtain ⟨hopen', i, hi⟩ := h.open_of_pending key' fut' hpending'
      have hfut : fut' ≠ fut := by
        rintro rfl
        exact hkey (h.distinct key' key fut' hpending' hpending)
      rw [Dict.get?_set, if_neg hfut]
      refine ⟨hopen', i, (hothers _ _ _).mpr ⟨?_, hi⟩⟩
      rintro rfl
      obtain ⟨ttl', hi⟩ := hi
      exact hkey (Frame.fetches.inj (Option.some.inj (hi.symm.trans hcall))).1
  · intro i key' fut' hi
    obtain ⟨hne, hbefore⟩ := (hothers i key' fut').mp hi
    have hpending' := h.pending_of_fetches i key' fut' hbefore
    have hkey : key' ≠ key := by
      rintro rfl
      obtain rfl := Option.some.inj (hpending'.symm.trans hpending)
      exact hne (h.single i call key' fut' hbefore hthis)
    dsimp only
    rw [Dict.get?_erase, if_neg hkey, hpending']
  · intro i j key' fut' hi hj
    exact h.single i j key' fut' ((hothers _ _ _).mp hi).2 ((hothers _ _ _).mp hj).2
  · intro key₁ key₂ fut' h₁ h₂
    dsimp only at h₁ h₂
    rw [Dict.get?_erase] at h₁ h₂
    split at h₁
    · cases h₁
    · split at h₂
      · cases h₂
      · exact h.distinct key₁ key₂ fut' h₁ h₂
  · intro fut' done' hfetched
    dsimp only at hfetched ⊢
    rw [Dict.get?_set] at hfetched ⊢
    split at hfetched
    case isTrue hfut =>
      obtain rfl := Option.some.inj hfetched
      exact ⟨if_pos hfut, hdone⟩
    case isFalse hfut =>
      rw [if_neg hfut]
      exact h.done_of_fetched fut' done' hfetched
  · intro fut' done' hfuture
    dsimp only at hfuture ⊢
    rw [Dict.get?_set] at hfuture ⊢
    split at hfuture
    case isTrue hfut => exact .inr ((if_pos hfut).trans hfuture)
    case isFalse hfut =>
      rw [if_neg hfut]
      exact h.fetched_of_done fut' done' hfuture
  · intro i key' fut' hi
    dsimp only
    obtain hnext | hbefore := Service.get?_follow hi
    · cases hnext
    · rw [Dict.get?_set, Dict.get?_erase]
      by_cases hfut : fut' = fut
      · exact .inr ⟨done, if_pos hfut⟩
      · rw [if_neg hfut]
        refine (h.waited i key' fut' hbefore).imp_left fun hpending' => ?_
        rw [if_neg, hpending']
        rintro rfl
        exact hfut (Option.some.inj (hpending'.symm.trans hpending))
  · intro fut' done' hmem
    have hfetched := h.answered fut' done' hmem
    dsimp only
    rw [Dict.get?_set, if_neg, hfetched]
    rintro rfl
    exact absurd (hunfetched.symm.trans hfetched) (Option.some_ne_none done').symm
  · intro fut' done' hfuture
    dsimp only at hfuture ⊢
    rw [Dict.get?_set] at hfuture
    split at hfuture
    case isTrue hfut => exact hfut ▸ h.numbered fut _ hopen
    case isFalse => exact h.numbered fut' done' hfuture

omit [DecidableEq κ] in
/-- The owner of a pending future can set it. -/
theorem settle_of_pending (hopen : s.futures.get? fut = some .pending) (done : Future ν ε) :
    s.settle fut done = { s with futures := s.futures.set fut done } := by
  rw [Store.settle, hopen]

omit [DecidableEq κ] in
theorem settle_of_done (hdone : s.futures.get? fut ≠ some .pending) (done : Future ν ε) :
    s.settle fut done = s := by
  rw [Store.settle]
  split
  case h_1 hopen => exact absurd hopen hdone
  case h_2 => rfl

/-- A caller that leaves without a fetch, and has received what is in the list. -/
theorem Kept.leaves (h : Kept w) {frame : Frame κ} (hcall : w.calls.get? call = some frame)
    (hframe : ∀ key ttl fut, frame ≠ .fetches key ttl fut) (received : List (ℕ × Future ν ε))
    (hreceived : ∀ fut done, (fut, done) ∈ received → w.store.fetched.get? fut = some done) :
    Kept ⟨{ w.store with received := received }, Service.follow w.calls call none⟩ :=
  h.of_same rfl rfl rfl rfl hreceived (fetches_follow hcall hframe fun _ _ _ => nofun)
    (waits_follow fun _ _ => nofun)

/-- A caller finds the value in the cache, a future that is pending, or neither. -/
theorem Kept.enters (h : Kept w) (hcall : w.calls.get? call = some (.enters key ttl)) {now : ℕ}
    {next : Option (Frame κ)}
    (hadvance : advance w.store (.enters key ttl) (.enters now) = some (s, next)) :
    Kept ⟨s, Service.follow w.calls call next⟩ := by
  rw [advance] at hadvance
  split at hadvance
  case isTrue =>
    obtain ⟨rfl, rfl⟩ := Prod.mk.inj (Option.some.inj hadvance)
    exact h.leaves hcall (fun _ _ _ => nofun) w.store.received h.answered
  case isFalse =>
    split at hadvance
    case h_1 fut hpending =>
      obtain ⟨rfl, rfl⟩ := Prod.mk.inj (Option.some.inj hadvance)
      refine h.of_same rfl rfl rfl rfl h.answered
        (fetches_follow hcall (fun _ _ _ => nofun) fun _ _ _ => nofun) (waits_follow ?_)
      intro key' fut' hnext
      obtain ⟨rfl, rfl⟩ := Frame.awaits.inj (Option.some.inj hnext)
      exact hpending
    case h_2 hnone =>
      obtain ⟨rfl, rfl⟩ := Prod.mk.inj (Option.some.inj hadvance)
      exact h.opens hcall hnone

/-- The owner of the future sets it with how the fetch has ended. -/
theorem Kept.ends (h : Kept w) (hcall : w.calls.get? call = some (.fetches key ttl fut))
    (cache : Dict κ (ℕ × ν)) {done : Future ν ε} (hdone : done ≠ .pending) :
    Kept ⟨({ w.store with
      cache := cache
      pending := w.store.pending.erase key
      fetched := w.store.fetched.set fut done } : Store κ ν ε).settle fut done,
      Service.follow w.calls call none⟩ := by
  have hpending := h.pending_of_fetches call key fut ⟨ttl, hcall⟩
  rw [settle_of_pending]
  · exact h.closes hcall cache hdone
  · exact (h.open_of_pending key fut hpending).1

theorem Kept.advance (h : Kept w) {frame : Frame κ} {o : Occurrence ν ε} {next : Option (Frame κ)}
    (hcall : w.calls.get? call = some frame) (hspares : spares w.store frame o = true)
    (hadvance : advance w.store frame o = some (s, next)) :
    Kept ⟨s, Service.follow w.calls call next⟩ := by
  cases frame with
  | enters key ttl =>
    cases o with
    | enters now => exact h.enters hcall hadvance
    | cancelled =>
      obtain ⟨rfl, rfl⟩ := Prod.mk.inj (Option.some.inj hadvance)
      exact h.leaves hcall (fun _ _ _ => nofun) w.store.received h.answered
    | fetched _ _ => cases hadvance
    | failed _ => cases hadvance
    | resumes => cases hadvance
  | fetches key ttl fut =>
    cases o with
    | fetched now val =>
      obtain ⟨rfl, rfl⟩ := Prod.mk.inj (Option.some.inj hadvance)
      exact h.ends hcall _ nofun
    | failed e =>
      obtain ⟨rfl, rfl⟩ := Prod.mk.inj (Option.some.inj hadvance)
      exact h.ends hcall _ nofun
    | cancelled => cases hspares
    | enters _ => cases hadvance
    | resumes => cases hadvance
  | awaits key fut =>
    cases o with
    | resumes =>
      rw [SharedCache.advance] at hadvance
      split at hadvance
      · cases hadvance
      · cases hadvance
      case h_3 done hnot hfuture =>
        obtain ⟨rfl, rfl⟩ := Prod.mk.inj (Option.some.inj hadvance)
        have hfetched : w.store.fetched.get? fut = some done :=
          (h.fetched_of_done fut done hfuture).resolve_left hnot
        refine h.leaves hcall (fun _ _ _ => nofun) _ fun fut' done' hmem => ?_
        obtain heq | hmem := List.mem_cons.mp hmem
        · obtain ⟨rfl, rfl⟩ := Prod.mk.inj heq
          exact hfetched
        · exact h.answered fut' done' hmem
    | cancelled =>
      obtain ⟨rfl, rfl⟩ := Prod.mk.inj (Option.some.inj hadvance)
      have hdone : w.store.futures.get? fut ≠ some .pending := by
        intro hopen
        rw [spares, hopen] at hspares
        cases hspares
      rw [settle_of_done hdone]
      exact h.leaves hcall (fun _ _ _ => nofun) w.store.received h.answered
    | enters _ => cases hadvance
    | fetched _ _ => cases hadvance
    | failed _ => cases hadvance

theorem Kept.begins (h : Kept w) {frame : Frame κ} (hentry : frame.entry = true)
    (hnew : w.calls.get? call = none) : Kept { w with calls := w.calls.set call frame } := by
  have hfetches : ∀ key ttl fut, frame ≠ .fetches key ttl fut := by
    rintro key ttl fut rfl
    cases hentry
  refine h.of_same rfl rfl rfl rfl h.answered (fun i key fut => ?_) fun i key fut hi => ?_
  · unfold Fetches
    rw [Dict.get?_set]
    split
    case isTrue hi =>
      rw [hi, hnew]
      simp only [Option.some.injEq, hfetches, reduceCtorEq]
    case isFalse => exact Iff.rfl
  · rw [Dict.get?_set] at hi
    split at hi
    case isTrue =>
      obtain rfl := Option.some.inj hi
      cases hentry
    case isFalse => exact .inl hi

theorem kept_new : Kept (⟨.new, Dict.empty⟩ : Serving (Store κ ν ε) (Frame κ)) where
  open_of_pending := nofun
  pending_of_fetches := fun _ _ _ h => nomatch h.choose_spec
  single := fun _ _ _ _ h => nomatch h.choose_spec
  distinct := nofun
  done_of_fetched := nofun
  fetched_of_done := nofun
  waited := nofun
  answered := nofun
  numbered := nofun

/-- In every run in which nobody is cancelled who fetches, or who waits for a future that is not
done, a future is pending only while its fetch is in progress, and everyone who waits is answered by
the fetch. -/
theorem served_of_spares {w : Serving (Store κ ν ε) (Frame κ)}
    (hw : (service.system isNew).ReachableWhere (Service.under sparing) w) : Served w := by
  refine Kept.served (hw.invariant ?_ fun w turn w' h hok hturn => ?_)
  · rintro ⟨store, calls⟩ ⟨hstore, hcalls⟩
    obtain rfl : store = .new := hstore
    obtain rfl : calls = Dict.empty := hcalls
    exact kept_new
  · obtain ⟨call, frame, hentry, hnew, rfl⟩ |
      ⟨call, frame, o, s, next, hcall, hspares, hadvance, rfl⟩ := Service.step_cases hok hturn
    · exact h.begins hentry hnew
    · exact h.advance hcall hspares hadvance

/-! ## Two runs -/

/-- Two callers share a fetch, and a third one finds its value. -/
theorem served_shared : ∃ w : Serving (Store String ℕ String) (Frame String),
    (service.system isNew).ReachableWhere (Service.under sparing) w ∧
    (w.store.received, w.store.created) = ([(0, .result 7)], 1) ∧ Served w := by
  obtain ⟨w, hw, hseen⟩ := TransitionSystem.exists_reachableWhere_of_exec
    (service.system (isNew (κ := String) (ν := ℕ) (ε := String))) (Service.under sparing)
    (fun w => (w.store.received, w.store.created))
    [.begins 0 (.enters "rss" 5), .begins 1 (.enters "rss" 5), .goesOn 0 (.enters 0),
      .goesOn 1 (.enters 0), .goesOn 0 (.fetched 1 7), .goesOn 1 .resumes,
      .begins 2 (.enters "rss" 5), .goesOn 2 (.enters 3)]
    (v := ([(0, .result 7)], 1)) (s := ⟨.new, Dict.empty⟩) ⟨rfl, rfl⟩ (by decide +kernel)
  exact ⟨w, hw, hseen, served_of_spares hw⟩

/-- The one who fetches is cancelled, and the future stays. -/
theorem not_served_cancelled : ∃ w : Serving (Store String ℕ String) (Frame String),
    (service.system isNew).Reachable w ∧ ¬ Served w := by
  obtain ⟨w, hw, hseen⟩ := TransitionSystem.exists_reachableWhere_of_exec
    (service.system (isNew (κ := String) (ν := ℕ) (ε := String))) TransitionSystem.anyStep
    (fun w => (w.store.pending.get? "rss", w.calls.items))
    [.begins 0 (.enters "rss" 5), .goesOn 0 (.enters 0), .begins 1 (.enters "rss" 5),
      .goesOn 0 .cancelled, .goesOn 1 (.enters 0)]
    (v := (some 0, [(1, .awaits "rss" 0)])) (s := ⟨.new, Dict.empty⟩) ⟨rfl, rfl⟩
    (by decide +kernel)
  obtain ⟨hpending, hcalls⟩ := Prod.mk.inj hseen
  refine ⟨w, hw, fun h => ?_⟩
  obtain ⟨call, ttl, hcall⟩ := h.inProgress "rss" 0 hpending
  have hmem := (w.calls.mem_items_iff call _).mpr hcall
  rw [hcalls] at hmem
  cases List.mem_singleton.mp hmem

end Pandamonium.SharedCache
