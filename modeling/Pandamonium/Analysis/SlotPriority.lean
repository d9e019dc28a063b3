import Pandamonium.Model.LocalModelSlot

/-!
# Who gets the slot

The lock keeps the callers apart.  The count of the waiting foreground is lowered by every foreground
caller that leaves, also for one that still waits; and a background caller that waits for the lock
already is not behind a foreground caller that comes later.  Where neither happens the count is right
and the foreground comes first.
-/

set_option autoImplicit false

namespace Pandamonium.LocalModel

open Pandamonium.Library

variable {w w' : Gate} {c : Caller} {label : Label}

def Caller.isForeground (c : Caller) : Bool := decide (c.workload = .foreground)

/-- The foreground callers that wait for the lock. -/
def Gate.foregroundWaiting (w : Gate) : ℕ := w.lock.count Caller.isForeground

/-- The caller comes to be in the slot. -/
def Enters (w w' : Gate) (c : Caller) : Prop := c ∉ w.inside ∧ c ∈ w'.inside

/-- At most one caller is in the slot, and the count is that of the foreground callers that wait. -/
structure Orderly (w : Gate) : Prop where
  single : w.inside.length ≤ 1
  counted : w.waitingForeground = w.foregroundWaiting

/-- No background caller enters while a foreground caller waits. -/
def ForegroundFirst (w w' : Gate) : Prop :=
  ∀ c, Enters w w' c → c.workload = .background → w.foregroundWaiting = 0

/-- A background caller waits for the lock, and was not cancelled. -/
def backgroundLive (w : Gate) : Bool :=
  w.lock.waiters.any fun place => !place.1.isForeground && !place.2.isOver

/-- A foreground caller comes only where no background caller waits for the lock, and leaves the slot
only where no foreground caller waits. -/
def spares (w : Gate) : Label → Bool
  | .arrives c _ => !(c.isForeground && backgroundLive w)
  | .leaves c => !(c.isForeground && decide (w.foregroundWaiting ≠ 0))
  | _ => true

/-- The condition on a step is one on the runs. -/
def sparing (w : Gate) (label : Label) : Prop := spares w label = true

instance : DecidableRel sparing :=
  fun w label => inferInstanceAs (Decidable (spares w label = true))

/-! ## What a step keeps -/

/-- The lock is held by the caller in the slot, and no background caller is in line with one of the
foreground. -/
structure Kept (w : Gate) : Prop where
  sound : w.lock.Sound
  held : w.inside.length = if w.lock.locked then 1 else 0
  counted : w.waitingForeground = w.foregroundWaiting
  apart : ∀ c, w.lock.Live c → c.isForeground = false → w.foregroundWaiting = 0
  sleepers : ∀ c ∈ w.sleeping, c.isForeground = false

theorem Kept.orderly (h : Kept w) : Orderly w := by
  refine ⟨?_, h.counted⟩
  rw [h.held]
  split
  · exact Nat.le_refl 1
  · exact Nat.zero_le 1

theorem backgroundLive_eq_false (h : backgroundLive w = false) (hlive : w.lock.Live c) :
    c.isForeground = true := by
  obtain ⟨place, hplace, rfl, hover⟩ := hlive
  have hnot := List.any_eq_false.mp h place hplace
  rw [hover, Bool.not_false, Bool.and_true, Bool.not_eq_true, Bool.not_eq_false'] at hnot
  exact hnot

theorem isForeground_iff : c.isForeground = true ↔ c.workload = .foreground :=
  decide_eq_true_iff

theorem isForeground_of_background (h : c.workload = .background) : c.isForeground = false := by
  rw [Caller.isForeground, h]
  rfl

theorem Kept.enter {lock : FifoLock Caller} (hsound : lock.Sound) (hlocked : lock.locked = true)
    (hinside : w.inside = []) (hcount : w.waitingForeground =
      lock.count Caller.isForeground + if c.isForeground then 1 else 0)
    (hapart : ∀ c', lock.Live c' → c'.isForeground = false →
      lock.count Caller.isForeground = 0)
    (hsleepers : ∀ c' ∈ w.sleeping, c'.isForeground = false) :
    Kept (enter { w with lock := lock } c) := by
  refine ⟨hsound, ?_, ?_, hapart, hsleepers⟩
  · show (c :: w.inside).length = if lock.locked = true then 1 else 0
    rw [hinside, hlocked]
    rfl
  · show (if c.workload = .foreground then w.waitingForeground - 1 else w.waitingForeground) =
      lock.count Caller.isForeground
    rw [hcount]
    by_cases hc : c.workload = .foreground
    · rw [if_pos hc, if_pos (isForeground_iff.mpr hc), Nat.add_sub_cancel]
    · rw [if_neg hc, if_neg (mt isForeground_iff.mp hc), Nat.add_zero]

/-- A caller comes to the lock; it counts if it is of the foreground. -/
theorem Kept.acquire (h : Kept w) {told : List Caller}
    (hbackground : c.isForeground = false → w.foregroundWaiting = 0)
    (hforeground : c.isForeground = true → ∀ c', w.lock.Live c' → c'.isForeground = true) :
    Kept (acquire { w with
      waitingForeground := w.waitingForeground + if c.isForeground then 1 else 0,
      toldToStop := told } c) := by
  have hcount := h.counted
  rw [LocalModel.acquire]
  dsimp only
  split
  case isTrue hopen =>
    have hfree : w.lock.locked = false := by
      rw [← Bool.not_eq_true']
      exact (Bool.and_eq_true_iff.mp hopen).1
    have hinside : w.inside = [] := by
      have hheld := h.held
      rw [hfree, if_neg Bool.false_ne_true] at hheld
      exact List.length_eq_zero_iff.mp hheld
    refine Kept.enter (w := { w with
      waitingForeground := w.waitingForeground + if c.isForeground then 1 else 0,
      toldToStop := told }) (h.sound.take hopen) rfl hinside ?_ h.apart h.sleepers
    rw [hcount]
    rfl
  case isFalse =>
    refine ⟨h.sound.queue c, h.held, ?_, ?_, h.sleepers⟩
    · show _ = (w.lock.queue c).count Caller.isForeground
      rw [FifoLock.count_queue, hcount]
      rfl
    · intro c' hlive hc'
      show (w.lock.queue c).count Caller.isForeground = 0
      rw [FifoLock.count_queue]
      obtain hlive | rfl := FifoLock.live_of_queue hlive
      · have hc : c.isForeground = false := by
          by_contra hc
          have hlive' := hforeground (Bool.not_eq_false _ ▸ hc) c' hlive
          rw [hc'] at hlive'
          cases hlive'
        have hzero : w.lock.count Caller.isForeground = 0 := hbackground hc
        rw [hzero, hc]
        rfl
      · have hzero : w.lock.count Caller.isForeground = 0 := hbackground hc'
        rw [hzero, hc']
        rfl

theorem mem_inside_acquire {c' : Caller} (h : c' ∈ (acquire w c).inside) :
    c' = c ∨ c' ∈ w.inside := by
  rw [acquire] at h
  split at h
  · exact List.mem_cons.mp h
  · exact .inr h

/-- What is kept is of the lock, the slot and the count. -/
theorem Kept.of_eq (h : Kept w) (hlock : w'.lock = w.lock) (hinside : w'.inside = w.inside)
    (hcount : w'.waitingForeground = w.waitingForeground)
    (hsleepers : ∀ c ∈ w'.sleeping, c.isForeground = false) : Kept w' := by
  refine ⟨hlock ▸ h.sound, ?_, ?_, ?_, hsleepers⟩
  · rw [hinside, hlock]
    exact h.held
  · rw [hcount, Gate.foregroundWaiting, hlock]
    exact h.counted
  · rw [Gate.foregroundWaiting, hlock]
    exact h.apart

/-- A background caller looks, and goes on to the lock where no foreground caller waits. -/
theorem Kept.look (h : Kept w) (hc : c.isForeground = false) (active : Bool) :
    Kept (look w c active) ∧ ForegroundFirst w (look w c active) := by
  rw [LocalModel.look]
  split
  case isTrue =>
    refine ⟨h.of_eq rfl rfl rfl fun c' hc' => ?_, fun c' hc' => absurd hc'.2 hc'.1⟩
    obtain rfl | hc' := List.mem_cons.mp hc'
    · exact hc
    · exact h.sleepers c' hc'
  case isFalse hnot =>
    have hzero : w.waitingForeground = 0 := by
      simp only [Bool.or_eq_true, decide_eq_true_eq, not_or] at hnot
      omega
    have hnone : w.foregroundWaiting = 0 := h.counted.symm.trans hzero
    refine ⟨?_, fun _ _ _ => hnone⟩
    have hkept := @Kept.acquire w c h w.toldToStop (fun _ => hnone)
      fun hfg => absurd (hc.symm.trans hfg) Bool.false_ne_true
    rw [hc] at hkept
    exact hkept

theorem Kept.arrives (h : Kept w) (active : Bool)
    (hbackground : c.isForeground = true → backgroundLive w = false) :
    Kept (arrive w c active) ∧ ForegroundFirst w (arrive w c active) := by
  rw [arrive]
  cases hc : c.workload with
  | background => exact h.look (isForeground_of_background hc) active
  | foreground =>
    have hfg : c.isForeground = true := isForeground_iff.mpr hc
    refine ⟨?_, fun c' hc' hbg => ?_⟩
    · have hkept := @Kept.acquire w c h
        ((w.current.filter fun owner => owner.workload = .background).toList ++ w.toldToStop)
        (fun hnot => absurd (hnot.symm.trans hfg) Bool.false_ne_true)
        fun _ c' hlive => backgroundLive_eq_false (hbackground hfg) hlive
      rw [hfg] at hkept
      exact hkept
    · obtain rfl | hinside := mem_inside_acquire hc'.2
      · rw [hc] at hbg
        cases hbg
      · exact absurd hinside hc'.1

theorem Kept.resumes (h : Kept w) (hwoken : (c, .woken) ∈ w.lock.waiters) :
    Kept (LocalModel.enter { w with lock := w.lock.resume c } c) ∧
      ForegroundFirst w (LocalModel.enter { w with lock := w.lock.resume c } c) := by
  have hcount := FifoLock.count_resume Caller.isForeground hwoken
  have hcounted : w.waitingForeground = w.lock.count Caller.isForeground := h.counted
  have hinside : w.inside = [] := by
    have hheld := h.held
    rw [h.sound.free_of_woken _ hwoken rfl, if_neg Bool.false_ne_true] at hheld
    exact List.length_eq_zero_iff.mp hheld
  refine ⟨Kept.enter (h.sound.resume hwoken) rfl hinside (hcounted.trans hcount.symm) ?_
    h.sleepers, ?_⟩
  · intro c' hlive hc'
    have hzero : w.lock.count Caller.isForeground = 0 :=
      h.apart c' (FifoLock.live_of_resume hlive) hc'
    omega
  · intro c' hc' hbg
    obtain rfl | hmem := List.mem_cons.mp hc'.2
    · exact h.apart c' ⟨_, hwoken, rfl, rfl⟩ (isForeground_of_background hbg)
    · exact absurd hmem hc'.1

theorem Kept.leaves (h : Kept w) (hmem : c ∈ w.inside)
    (hwaiting : c.isForeground = true → w.foregroundWaiting = 0) :
    Kept (cleanUp { w with inside := w.inside.erase c } c true) := by
  have hlength := h.held
  have hpositive := List.length_pos_of_mem hmem
  have hlocked : w.lock.locked = true := by
    by_contra hnot
    rw [if_neg hnot] at hlength
    omega
  rw [if_pos hlocked] at hlength
  have hcounted : w.waitingForeground = w.lock.count Caller.isForeground := h.counted
  have hwaits : (if c.workload = .foreground then w.waitingForeground - 1
      else w.waitingForeground) = w.waitingForeground := by
    split
    case isTrue hc =>
      have hzero : w.lock.count Caller.isForeground = 0 := hwaiting (isForeground_iff.mpr hc)
      omega
    case isFalse => rfl
  simp only [cleanUp, Bool.true_and, hlocked, if_true, hwaits]
  refine ⟨h.sound.release, ?_, ?_, ?_, h.sleepers⟩
  · show (w.inside.erase c).length = if w.lock.release.locked = true then 1 else 0
    have hreleased : w.lock.release.locked = false := FifoLock.locked_release w.lock
    rw [hreleased, if_neg Bool.false_ne_true, List.length_erase_of_mem hmem]
    omega
  · show w.waitingForeground = w.lock.release.count Caller.isForeground
    rw [FifoLock.count_release]
    exact hcounted
  · intro c' hlive hc'
    show w.lock.release.count Caller.isForeground = 0
    rw [FifoLock.count_release]
    exact h.apart c' (FifoLock.live_of_release hlive) hc'

theorem Kept.cancelled (h : Kept w) (c : Caller) :
    Kept { w with lock := w.lock.cancel c } := by
  refine ⟨h.sound.cancel c, h.held, ?_, ?_, h.sleepers⟩
  · show w.waitingForeground = (w.lock.cancel c).count Caller.isForeground
    rw [FifoLock.count_cancel]
    exact h.counted
  · intro c' hlive hc'
    show (w.lock.cancel c).count Caller.isForeground = 0
    rw [FifoLock.count_cancel]
    exact h.apart c' (FifoLock.live_of_cancel hlive) hc'

theorem Kept.unwinds (h : Kept w) {place : Caller × Ticket} (hplace : place ∈ w.lock.waiters)
    (hc : place.1 = c) :
    Kept (cleanUp { w with lock := w.lock.unwind place } c false) := by
  have hcount := FifoLock.count_unwind Caller.isForeground hplace
  have hcounted : w.waitingForeground = w.lock.count Caller.isForeground := h.counted
  have hlocked : (w.lock.unwind place).locked = w.lock.locked := FifoLock.locked_unwind w.lock place
  refine ⟨h.sound.unwind place, ?_, ?_, ?_, h.sleepers⟩
  · show w.inside.length = if (w.lock.unwind place).locked = true then 1 else 0
    rw [hlocked]
    exact h.held
  · show (if c.workload = .foreground then w.waitingForeground - 1 else w.waitingForeground) =
      (w.lock.unwind place).count Caller.isForeground
    rw [hc] at hcount
    by_cases hfg : c.workload = .foreground
    · rw [if_pos (isForeground_iff.mpr hfg)] at hcount
      rw [if_pos hfg]
      omega
    · rw [if_neg (mt isForeground_iff.mp hfg)] at hcount
      rw [if_neg hfg]
      omega
  · intro c' hlive hc'
    have hzero : w.lock.count Caller.isForeground = 0 :=
      h.apart c' (FifoLock.live_of_unwind hlive) hc'
    show (w.lock.unwind place).count Caller.isForeground = 0
    omega

theorem inside_cleanUp (w : Gate) (c : Caller) (acquired : Bool) :
    (cleanUp w c acquired).inside = w.inside := by
  rw [cleanUp]
  dsimp only
  split
  · rfl
  · rfl

/-- Where nobody enters, nobody enters before the foreground. -/
theorem foregroundFirst_of_subset (h : w'.inside ⊆ w.inside) : ForegroundFirst w w' :=
  fun _ hc _ => absurd (h hc.2) hc.1

theorem Kept.step (h : Kept w) (hspares : spares w label = true) (hstep : step w label = some w') :
    Kept w' ∧ ForegroundFirst w w' := by
  cases label with
  | arrives c active =>
    obtain ⟨-, hw'⟩ := Option.ite_none_left_eq_some.mp hstep
    obtain rfl := Option.some.inj hw'
    refine h.arrives active fun hfg => ?_
    rw [spares, hfg, Bool.true_and, Bool.not_eq_true'] at hspares
    exact hspares
  | looks c active =>
    obtain ⟨hmem, hw'⟩ := Option.ite_none_right_eq_some.mp hstep
    obtain rfl := Option.some.inj hw'
    have hawake : Kept { w with sleeping := w.sleeping.erase c } :=
      h.of_eq rfl rfl rfl fun c' hc' => h.sleepers c' (List.erase_subset hc')
    exact hawake.look (h.sleepers c hmem) active
  | resumes c =>
    obtain ⟨hwoken, hw'⟩ := Option.ite_none_right_eq_some.mp hstep
    obtain rfl := Option.some.inj hw'
    exact h.resumes hwoken
  | leaves c =>
    obtain ⟨hmem, hw'⟩ := Option.ite_none_right_eq_some.mp hstep
    obtain rfl := Option.some.inj hw'
    refine ⟨h.leaves hmem fun hfg => ?_, foregroundFirst_of_subset ?_⟩
    · rw [spares, hfg, Bool.true_and, Bool.not_eq_true'] at hspares
      exact not_not.mp (of_decide_eq_false hspares)
    · rw [inside_cleanUp]
      exact List.erase_subset
  | cancelled c =>
    rw [LocalModel.step] at hstep
    split at hstep
    · obtain rfl := Option.some.inj hstep
      have hsleepers : ∀ c' ∈ w.sleeping.erase c, c'.isForeground = false :=
        fun c' hc' => h.sleepers c' (List.erase_subset hc')
      exact ⟨h.of_eq rfl rfl rfl hsleepers, foregroundFirst_of_subset (List.Subset.refl _)⟩
    · obtain ⟨-, hw'⟩ := Option.ite_none_right_eq_some.mp hstep
      obtain rfl := Option.some.inj hw'
      exact ⟨h.cancelled c, foregroundFirst_of_subset (List.Subset.refl _)⟩
  | unwinds c =>
    obtain ⟨place, hfind, rfl⟩ := Option.map_eq_some_iff.mp hstep
    obtain ⟨hplace, hc⟩ := FifoLock.mem_of_cancelledPlace hfind
    exact ⟨h.unwinds hplace hc, foregroundFirst_of_subset (List.Subset.refl _)⟩

theorem kept_of_spares (hw : slot.ReachableWhere sparing w) : Kept w := by
  refine hw.invariant ?_ fun _ _ _ h hspares hstep => (h.step hspares hstep).1
  rintro w₀ rfl
  exact ⟨FifoLock.sound_free, rfl, rfl, fun _ _ _ => rfl, fun _ hc => absurd hc List.not_mem_nil⟩

/-- In every run in which a foreground caller comes only where no background caller waits for the
lock, and leaves only where no foreground caller waits, at most one caller is in the slot, the count
is right, and no background caller enters before one of the foreground. -/
theorem ordered_of_spares (hw : slot.ReachableWhere sparing w) :
    Orderly w ∧ ∀ label w', sparing w label → slot.step w label = some w' → ForegroundFirst w w' :=
  ⟨(kept_of_spares hw).orderly, fun _ _ hspares hstep => ((kept_of_spares hw).step hspares hstep).2⟩

/-! ## Two runs -/

/-- Foreground callers. -/
def chat (task : ℕ) : Caller := ⟨task, .foreground⟩

/-- What is seen of a gate. -/
def seen (w : Gate) : List ℕ × ℕ × ℕ :=
  (w.inside.map Caller.task, w.waitingForeground, w.foregroundWaiting)

/-- A foreground caller comes while a background caller is in the slot, which stops; another
background caller waits until the foreground has left. -/
theorem orderly_overtaken : ∃ w, slot.ReachableWhere sparing w ∧ seen w = ([3], 0, 0) ∧ Orderly w := by
  obtain ⟨w, hw, hseen⟩ := TransitionSystem.exists_reachableWhere_of_exec slot sparing seen
    [.arrives ⟨1, .background⟩ false, .arrives (chat 2) false, .arrives ⟨3, .background⟩ false,
      .leaves ⟨1, .background⟩, .resumes (chat 2), .leaves (chat 2), .looks ⟨3, .background⟩ false]
    (v := ([3], 0, 0)) rfl (by decide +kernel)
  exact ⟨w, hw, hseen, (ordered_of_spares hw).1⟩

/-- A foreground caller leaves while another one waits. -/
theorem not_orderly_left : ∃ w, slot.Reachable w ∧ ¬ Orderly w := by
  obtain ⟨w, hw, hseen⟩ := TransitionSystem.exists_reachableWhere_of_exec slot
    TransitionSystem.anyStep seen
    [.arrives (chat 1) false, .arrives (chat 2) false, .leaves (chat 1)]
    (v := ([], 0, 1)) rfl (by decide +kernel)
  obtain ⟨-, hcounts⟩ := Prod.mk.inj hseen
  obtain ⟨hcount, hwaiting⟩ := Prod.mk.inj hcounts
  refine ⟨w, hw, fun h => ?_⟩
  have hcounted := h.counted
  rw [hcount, hwaiting] at hcounted
  cases hcounted

end Pandamonium.LocalModel
