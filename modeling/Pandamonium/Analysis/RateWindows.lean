import Pandamonium.Model.RateLimiter

/-!
# Calls allowed in a window

A window holds no more allowed calls of a key than the limit, and the cleanup changes no decision, in
runs in which each call is decided while the log holds all the allowed times of its key that are not
too old.  A call that takes the lock long after it read the clock may find some of them dropped.
-/

set_option autoImplicit false

namespace Pandamonium.RateLimiter

open Pandamonium.Library

variable (lim : RateLimiter)

/-- The times of the allowed calls of a key. -/
def allowedTimes (decided : List Decision) (key : String) : List ℤ :=
  (decided.filter fun d => d.allowed && decide (d.key = key)).map Decision.now

/-- Every window from a time on holds at most as many allowed calls of a key as the limit. -/
def Bounded (decided : List Decision) : Prop :=
  ∀ key start, (allowedTimes decided key).countP
    (fun t => decide (start ≤ t ∧ t < start + lim.window)) ≤ lim.maxRequests.toNat

/-- The decisions on the calls, and the log, where nothing is cleaned up. -/
def uncleaned (decided : List Decision) : List Decision × Log :=
  decided.foldl (fun before d =>
    let outcome := lim.decide d.now (before.2.times d.key)
    (before.1 ++ [⟨d.key, d.now, outcome.1⟩], before.2.set d.key outcome.2)) ([], Dict.empty)

/-- No window holds too many allowed calls, and no decision is due to the cleanup. -/
structure Limits (s : Store) : Prop where
  bounded : Bounded lim s.decided
  uncleaned : (uncleaned lim s.decided).1 = s.decided

/-- The call is decided while the log holds the allowed times of its key that are not too old, and
the cleanup that is due does not drop them. -/
def Remembers (s : Store) : Frame → Event → Prop
  | .timed key now, .takesLock =>
    lim.kept now (allowedTimes s.decided key) = lim.kept now (s.log.times key) ∧
      (lim.cleanupInterval ≤ now - s.lastCleanup →
        isStale (lim.cutoff now) (s.log.times key) = true → lim.kept now (s.log.times key) = [])
  | _, _ => True

instance (s : Store) (frame : Frame) (event : Event) : Decidable (Remembers lim s frame event) := by
  unfold Remembers
  split <;> infer_instance

/-! ## One decision -/

variable {lim}

theorem times_set (log : Log) (key key' : String) (times : List ℤ) :
    Log.times (log.set key times) key' = if key' = key then times else Log.times log key' := by
  rw [Log.times, Dict.get?_set]
  split <;> rfl

theorem allowedTimes_append (decided : List Decision) (d : Decision) (key : String) :
    allowedTimes (decided ++ [d]) key =
      allowedTimes decided key ++ if d.allowed = true ∧ d.key = key then [d.now] else [] := by
  rw [allowedTimes, List.filter_append, List.map_append]
  refine congrArg (_ ++ ·) ?_
  by_cases h : d.allowed = true ∧ d.key = key
  · simp [h]
  · rw [if_neg h, List.filter_eq_nil_iff.mpr (by simpa using h)]
    rfl

variable (lim) in
theorem times_maybeCleanup (s : Store) (now : ℤ) (key : String) :
    (s.maybeCleanup lim now).log.times key = s.log.times key ∨
      lim.cleanupInterval ≤ now - s.lastCleanup ∧
        isStale (lim.cutoff now) (s.log.times key) = true ∧
        (s.maybeCleanup lim now).log.times key = [] := by
  unfold Store.maybeCleanup
  split
  · exact Or.inl rfl
  · rename_i hdue
    simp only [Log.times, Dict.get?_foldl_erase]
    split
    · rename_i hmem
      obtain ⟨⟨k, v⟩, hitem, rfl⟩ := List.mem_map.mp hmem
      obtain ⟨hitem, hstale⟩ := List.mem_filter.mp hitem
      rw [(s.log.mem_items_iff k v).mp hitem]
      exact Or.inr ⟨Int.not_lt.mp hdue, hstale, rfl⟩
    · exact Or.inl rfl

theorem decided_maybeCleanup (s : Store) (now : ℤ) :
    (s.maybeCleanup lim now).decided = s.decided := by
  unfold Store.maybeCleanup
  split <;> rfl

theorem uncleaned_append (decided : List Decision) (d : Decision) :
    uncleaned lim (decided ++ [d]) =
      ((uncleaned lim decided).1 ++
          [⟨d.key, d.now, (lim.decide d.now ((uncleaned lim decided).2.times d.key)).1⟩],
        (uncleaned lim decided).2.set d.key
          (lim.decide d.now ((uncleaned lim decided).2.times d.key)).2) := by
  simp only [uncleaned, List.foldl_append, List.foldl_cons, List.foldl_nil]

theorem kept_sublist {times times' : List ℤ} (h : times.Sublist times') (now : ℤ) :
    (lim.kept now times).Sublist (lim.kept now times') :=
  h.filter _

theorem decide_congr {now : ℤ} {times times' : List ℤ}
    (h : lim.kept now times = lim.kept now times') :
    lim.decide now times = lim.decide now times' := by
  unfold RateLimiter.decide
  rw [h]

/-- Who is allowed finds fewer times than the limit. -/
theorem length_kept_lt {now : ℤ} {times : List ℤ} (h : (lim.decide now times).1 = true) :
    (lim.kept now times).length < lim.maxRequests.toNat := by
  unfold RateLimiter.decide at h
  split at h
  · cases h
  · omega

/-- The times a decision leaves are some of the allowed ones, with its own where it is allowed. -/
theorem snd_decide_sublist {now : ℤ} {times allowed : List ℤ} (h : times.Sublist allowed) :
    (lim.decide now times).2.Sublist
      (allowed ++ if (lim.decide now times).1 = true then [now] else []) := by
  have hkept : (lim.kept now times).Sublist allowed := List.filter_sublist.trans h
  unfold RateLimiter.decide
  split
  · simpa using hkept
  · exact hkept.append_right [now]

/-- The times in a window that goes past the reading are not too old for it. -/
theorem countP_window_le {now start : ℤ} (h : now < start + lim.window) (times : List ℤ) :
    times.countP (fun t => decide (start ≤ t ∧ t < start + lim.window)) ≤
      (lim.kept now times).length := by
  rw [RateLimiter.kept, ← List.countP_eq_length_filter]
  refine List.countP_mono_left fun t _ ht => ?_
  have ht := of_decide_eq_true ht
  exact decide_eq_true (show now - lim.window < t by omega)

theorem Bounded.append {decided : List Decision} (h : Bounded lim decided) {d : Decision}
    (hfew : d.allowed = true →
      (lim.kept d.now (allowedTimes decided d.key)).length < lim.maxRequests.toNat) :
    Bounded lim (decided ++ [d]) := by
  intro key start
  have hbefore := h key start
  rw [allowedTimes_append, List.countP_append]
  split
  · rename_i hallowed
    obtain ⟨hallowed, rfl⟩ := hallowed
    by_cases hin : start ≤ d.now ∧ d.now < start + lim.window
    · have hold := countP_window_le hin.2 (allowedTimes decided d.key)
      have hfew := hfew hallowed
      rw [List.countP_singleton, if_pos (decide_eq_true hin)]
      omega
    · rw [List.countP_singleton, if_neg (by simpa using hin)]
      exact hbefore
  · exact hbefore

/-! ## Runs -/

variable (lim) in
/-- What holds in a run: the log holds no more than it would without a cleanup, and that no more than
the allowed times. -/
structure Kept (s : Store) : Prop extends Limits lim s where
  logged : ∀ key, (s.log.times key).Sublist ((RateLimiter.uncleaned lim s.decided).2.times key)
  allowed : ∀ key, ((RateLimiter.uncleaned lim s.decided).2.times key).Sublist
    (allowedTimes s.decided key)

theorem Kept.new (now : ℤ) : Kept lim (.new now) where
  bounded _ _ := Nat.zero_le _
  uncleaned := rfl
  logged _ := List.Sublist.refl _
  allowed _ := List.Sublist.refl _

theorem Kept.check {s : Store} (h : Kept lim s) {key : String} {now : ℤ}
    (hcond : Remembers lim s (.timed key now) .takesLock) : Kept lim (s.check lim key now) := by
  obtain ⟨hall, hcleanup⟩ := hcond
  have hcleaned : ∀ k, ((s.maybeCleanup lim now).log.times k).Sublist (s.log.times k) := by
    intro k
    obtain hsame | ⟨-, -, hnone⟩ := times_maybeCleanup lim s now k
    · rw [hsame]
    · rw [hnone]
      exact List.nil_sublist _
  have hkept : lim.kept now (s.log.times key) =
      lim.kept now ((s.maybeCleanup lim now).log.times key) := by
    obtain hsame | ⟨hdue, hstale, hnone⟩ := times_maybeCleanup lim s now key
    · rw [hsame]
    · rw [hnone, hcleanup hdue hstale]
      rfl
  -- between the log and the allowed times there is nothing left for the uncleaned log
  have huncleaned : lim.kept now ((RateLimiter.uncleaned lim s.decided).2.times key) =
      lim.kept now ((s.maybeCleanup lim now).log.times key) :=
    ((kept_sublist (h.allowed key) now).trans (by rw [hall, hkept])).antisymm
      (kept_sublist ((hcleaned key).trans (h.logged key)) now)
  have hsame := decide_congr huncleaned
  refine ⟨⟨?_, ?_⟩, ?_, ?_⟩
  · refine Bounded.append (decided_maybeCleanup s now ▸ h.bounded) fun hallowed => ?_
    show (lim.kept now (allowedTimes (s.maybeCleanup lim now).decided key)).length < _
    rw [decided_maybeCleanup, hall, hkept]
    exact length_kept_lt hallowed
  all_goals simp only [Store.check, decided_maybeCleanup, uncleaned_append, hsame]
  · rw [h.uncleaned]
  · intro k
    rw [times_set, times_set]
    split
    · exact List.Sublist.refl _
    · exact (hcleaned k).trans (h.logged k)
  · intro k
    rw [times_set, allowedTimes_append]
    split
    · rename_i hk
      subst hk
      rw [← hsame]
      simpa using snd_decide_sublist (h.allowed k)
    · exact (h.allowed k).trans (List.sublist_append_left _ _)

/-- In every run in which each call is decided while the log remembers the allowed times of its key
that are not too old, no window holds too many allowed calls, and no decision is due to the
cleanup. -/
theorem limits_of_remembers {w : Serving Store Frame}
    (hw : ((service lim).system isNew).ReachableWhere (Service.under (Remembers lim)) w) :
    Limits lim w.store := by
  have hkept : Service.Holds (Kept lim) (fun _ _ => True) w := by
    refine Service.invariant ?_ (fun _ _ _ _ => trivial) ?_ hw
    · rintro s ⟨now, rfl⟩
      exact Kept.new now
    · intro s frame event s' next h _ hcond hadvance
      refine ⟨?_, fun _ _ => trivial, fun _ _ => trivial⟩
      cases frame with
      | called key =>
        cases event with
        | readsClock now =>
          obtain ⟨-, hadvance⟩ := Option.ite_none_right_eq_some.mp hadvance
          cases hadvance
          exact ⟨⟨h.bounded, h.uncleaned⟩, h.logged, h.allowed⟩
        | takesLock => cases hadvance
      | timed key now =>
        cases event with
        | readsClock now => cases hadvance
        | takesLock =>
          cases hadvance
          exact h.check hcond
  exact hkept.store.toLimits

/-! ## Two runs -/

/-- At most two calls in a minute. -/
def twoAMinute : RateLimiter := ⟨2, 60⟩

/-- A call is allowed again where the window has gone by. -/
theorem limits_inOrder : ∃ w : Serving Store Frame,
    ((service twoAMinute).system isNew).ReachableWhere
      (Service.under (Remembers twoAMinute)) w ∧
    w.store.decided.map Decision.allowed = [true, true, false, true] ∧
    Limits twoAMinute w.store := by
  obtain ⟨w, hw, hseen⟩ := TransitionSystem.exists_reachableWhere_of_exec
    ((service twoAMinute).system isNew) (Service.under (Remembers twoAMinute))
    (fun w => w.store.decided.map Decision.allowed)
    [.begins 0 (.called "ip"), .goesOn 0 (.readsClock (10 * second)), .goesOn 0 .takesLock,
      .begins 0 (.called "ip"), .begins 1 (.called "ip"), .goesOn 0 (.readsClock (20 * second)),
      .goesOn 1 (.readsClock (30 * second)), .goesOn 1 .takesLock, .goesOn 0 .takesLock,
      .begins 0 (.called "ip"), .goesOn 0 (.readsClock (200 * second)), .goesOn 0 .takesLock]
    (v := [true, true, false, true]) (s := ⟨.new 0, Dict.empty⟩) ⟨⟨0, rfl⟩, rfl⟩
    (by decide +kernel)
  exact ⟨w, hw, hseen, limits_of_remembers hw⟩

/-- A call that read the clock at 10 s takes the lock behind one that read it at 116 s, which has
dropped the times 50 s and 55 s. -/
theorem not_limits_late : ∃ w : Serving Store Frame,
    ((service twoAMinute).system isNew).Reachable w ∧ ¬ Limits twoAMinute w.store := by
  obtain ⟨w, hw, hseen⟩ := TransitionSystem.exists_reachableWhere_of_exec
    ((service twoAMinute).system isNew) TransitionSystem.anyStep
    (fun w => allowedTimes w.store.decided "ip")
    [.begins 0 (.called "ip"), .goesOn 0 (.readsClock (10 * second)),
      .begins 1 (.called "ip"), .goesOn 1 (.readsClock (50 * second)), .goesOn 1 .takesLock,
      .begins 1 (.called "ip"), .goesOn 1 (.readsClock (55 * second)), .goesOn 1 .takesLock,
      .begins 1 (.called "ip"), .goesOn 1 (.readsClock (116 * second)), .goesOn 1 .takesLock,
      .goesOn 0 .takesLock]
    (v := [50 * second, 55 * second, 116 * second, 10 * second]) (s := ⟨.new 0, Dict.empty⟩) ⟨⟨0, rfl⟩, rfl⟩
    (by decide +kernel)
  refine ⟨w, hw, fun h => ?_⟩
  have hthree := h.bounded "ip" (10 * second)
  rw [hseen] at hthree
  exact absurd hthree (by decide +kernel)

end Pandamonium.RateLimiter
