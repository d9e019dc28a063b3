import Mathlib.Data.List.Basic

/-!
# First-come-first-served locks

A lock keeps those who wait for it in the order they came in.  The one who releases it wakes the
first of them, who takes it when it next runs; until then nobody else can, since who comes meanwhile
waits behind.  One who is cancelled leaves the line when it next runs, and wakes the first in its
place where the lock is free.

`FifoLock.Sound` is kept by every operation: at most the first is awake, and only while the lock is
free.  `FifoLock.count` is how many of a kind wait.
-/

set_option autoImplicit false

namespace Pandamonium.Library

/-- What one who waits was told: it was cancelled before it was woken, or after. -/
inductive Ticket
  | pending | woken | cancelled | stopped
  deriving DecidableEq, Repr

/-- One who waits was cancelled. -/
def Ticket.isOver : Ticket → Bool
  | .cancelled => true
  | .stopped => true
  | _ => false

def Ticket.cancel : Ticket → Ticket
  | .pending => .cancelled
  | .woken => .stopped
  | t => t

structure FifoLock (κ : Type) where
  locked : Bool
  waiters : List (κ × Ticket)

namespace FifoLock

variable {κ : Type}

def free : FifoLock κ := ⟨false, []⟩

/-- Whether one who comes can take the lock at once. -/
def isOpen (l : FifoLock κ) : Bool := !l.locked && l.waiters.all fun w => decide (w.2 = .cancelled)

/-- The lock is taken. -/
def take (l : FifoLock κ) : FifoLock κ := { l with locked := true }

/-- One more waits. -/
def queue (l : FifoLock κ) (c : κ) : FifoLock κ := { l with waiters := l.waiters ++ [(c, .pending)] }

/-- The first who waits is woken, unless it was told something before. -/
def wakeFirst (l : FifoLock κ) : FifoLock κ :=
  match l.waiters with
  | (c, .pending) :: rest => { l with waiters := (c, .woken) :: rest }
  | _ => l

/-- The lock is released. -/
def release (l : FifoLock κ) : FifoLock κ := wakeFirst { l with locked := false }

/-- One who was woken takes the lock. -/
def resume [DecidableEq κ] (l : FifoLock κ) (c : κ) : FifoLock κ where
  locked := true
  waiters := l.waiters.erase (c, .woken)

/-- One who waits is cancelled. -/
def cancel [DecidableEq κ] (l : FifoLock κ) (c : κ) : FifoLock κ :=
  { l with waiters := l.waiters.map fun w => if w.1 = c then (c, w.2.cancel) else w }

/-- The place of one who was cancelled. -/
def cancelledPlace [DecidableEq κ] (l : FifoLock κ) (c : κ) : Option (κ × Ticket) :=
  l.waiters.find? fun w => decide (w.1 = c) && w.2.isOver

/-- One who was cancelled leaves the place. -/
def unwind [DecidableEq κ] (l : FifoLock κ) (w : κ × Ticket) : FifoLock κ :=
  let l := { l with waiters := l.waiters.erase w }
  if l.locked then l else l.wakeFirst

@[simp] theorem locked_wakeFirst (l : FifoLock κ) : l.wakeFirst.locked = l.locked := by
  rw [wakeFirst]
  split
  · rfl
  · rfl

@[simp] theorem locked_release (l : FifoLock κ) : l.release.locked = false := by
  rw [release, locked_wakeFirst]

@[simp] theorem locked_unwind [DecidableEq κ] (l : FifoLock κ) (w : κ × Ticket) :
    (l.unwind w).locked = l.locked := by
  rw [unwind]
  dsimp only
  split
  · rfl
  · rw [locked_wakeFirst]

theorem mem_of_cancelledPlace [DecidableEq κ] {l : FifoLock κ} {c : κ} {w : κ × Ticket}
    (h : l.cancelledPlace c = some w) : w ∈ l.waiters ∧ w.1 = c := by
  have hplace := List.find?_some h
  exact ⟨List.mem_of_find?_eq_some h, of_decide_eq_true (Bool.and_eq_true_iff.mp hplace).1⟩

/-! ## At most the first is awake -/

/-- At most the first is awake, and only while the lock is free. -/
structure Sound (l : FifoLock κ) : Prop where
  first : ∀ w ∈ l.waiters.tail, w.2 ≠ .woken
  free_of_woken : ∀ w ∈ l.waiters, w.2 = .woken → l.locked = false

variable {l : FifoLock κ} {c : κ} {w : κ × Ticket}

theorem sound_free : Sound (free : FifoLock κ) :=
  ⟨fun _ hw => absurd hw List.not_mem_nil, fun _ hw => absurd hw List.not_mem_nil⟩

theorem Sound.take (h : l.Sound) (hopen : l.isOpen = true) : l.take.Sound := by
  refine ⟨h.first, fun w hw hwoken => ?_⟩
  have hcancelled := List.all_eq_true.mp (Bool.and_eq_true_iff.mp hopen).2 w hw
  rw [of_decide_eq_true hcancelled] at hwoken
  cases hwoken

theorem Sound.queue (h : l.Sound) (c : κ) : (l.queue c).Sound := by
  obtain ⟨locked, waiters⟩ := l
  refine ⟨fun w hw => ?_, fun w hw hwoken => ?_⟩
  · cases waiters with
    | nil => exact absurd hw List.not_mem_nil
    | cons w₀ rest =>
      obtain hw | hw := List.mem_append.mp hw
      · exact h.first w hw
      · rw [List.mem_singleton.mp hw]
        exact Ticket.noConfusion
  · obtain hw | hw := List.mem_append.mp hw
    · exact h.free_of_woken w hw hwoken
    · rw [List.mem_singleton.mp hw] at hwoken
      cases hwoken

theorem Sound.wakeFirst (h : l.Sound) (hfree : l.locked = false) : l.wakeFirst.Sound := by
  obtain ⟨locked, waiters⟩ := l
  rw [FifoLock.wakeFirst]
  split
  case h_1 c rest heq =>
    obtain rfl : waiters = (c, .pending) :: rest := heq
    exact ⟨h.first, fun _ _ _ => hfree⟩
  case h_2 => exact h

theorem Sound.release (h : l.Sound) : l.release.Sound :=
  Sound.wakeFirst ⟨h.first, fun _ _ _ => rfl⟩ rfl

section Cancelling

variable [DecidableEq κ]

theorem Sound.resume (h : l.Sound) (hw : (c, .woken) ∈ l.waiters) : (l.resume c).Sound := by
  obtain ⟨locked, waiters⟩ := l
  cases waiters with
  | nil => exact absurd hw List.not_mem_nil
  | cons w₀ rest =>
    -- the one who was woken is the first
    obtain rfl | hrest := List.mem_cons.mp hw
    · have herase : (((c, Ticket.woken) :: rest).erase (c, .woken)) = rest := List.erase_cons_head _ _
      refine ⟨fun w hw' => h.first w ?_, fun w hw' hwoken => ?_⟩
      · exact List.mem_of_mem_tail (herase ▸ hw')
      · exact absurd hwoken (h.first w (herase ▸ hw'))
    · exact absurd rfl (h.first _ hrest)

theorem Sound.cancel (h : l.Sound) (c : κ) : (l.cancel c).Sound := by
  have hnot : ∀ t : Ticket, t.cancel ≠ .woken := by
    intro t
    cases t <;> exact Ticket.noConfusion
  refine ⟨fun w hw => ?_, fun w hw hwoken => ?_⟩
  · rw [FifoLock.cancel, ← List.map_tail] at hw
    obtain ⟨w₀, hw₀, rfl⟩ := List.mem_map.mp hw
    split
    · exact hnot _
    · exact h.first w₀ hw₀
  · obtain ⟨w₀, hw₀, rfl⟩ := List.mem_map.mp hw
    split at hwoken
    · exact absurd hwoken (hnot _)
    · exact h.free_of_woken w₀ hw₀ hwoken

theorem tail_erase_subset (ws : List (κ × Ticket)) (w : κ × Ticket) :
    (ws.erase w).tail ⊆ ws.tail := by
  cases ws with
  | nil => exact List.Subset.refl _
  | cons w₀ rest =>
    rw [List.erase_cons]
    split
    · exact fun _ hw' => List.mem_of_mem_tail hw'
    · exact List.erase_subset

theorem Sound.unwind (h : l.Sound) (w : κ × Ticket) : (l.unwind w).Sound := by
  have herase : Sound { l with waiters := l.waiters.erase w } :=
    ⟨fun w' hw' => h.first w' (tail_erase_subset l.waiters w hw'),
      fun w' hw' => h.free_of_woken w' (List.erase_subset hw')⟩
  rw [FifoLock.unwind]
  dsimp only
  split
  case isTrue => exact herase
  case isFalse hfree => exact herase.wakeFirst (Bool.not_eq_true _ ▸ hfree)

end Cancelling

/-! ## How many wait -/

/-- How many wait that are of the kind. -/
def count (p : κ → Bool) (l : FifoLock κ) : ℕ := l.waiters.countP fun w => p w.1

variable (p : κ → Bool)

theorem count_queue (l : FifoLock κ) (c : κ) :
    (l.queue c).count p = l.count p + if p c then 1 else 0 := by
  rw [count, FifoLock.queue, List.countP_append, List.countP_singleton]
  rfl

theorem count_wakeFirst (l : FifoLock κ) : l.wakeFirst.count p = l.count p := by
  obtain ⟨locked, waiters⟩ := l
  rw [FifoLock.wakeFirst]
  split
  case h_1 c rest heq =>
    obtain rfl : waiters = (c, .pending) :: rest := heq
    rfl
  case h_2 => rfl

theorem count_release (l : FifoLock κ) : l.release.count p = l.count p := count_wakeFirst p _

section Cancelling

variable [DecidableEq κ]

theorem count_erase {ws : List (κ × Ticket)} (hw : w ∈ ws) :
    (ws.erase w).countP (fun w => p w.1) + (if p w.1 then 1 else 0) =
      ws.countP fun w => p w.1 := by
  have hperm := (List.perm_cons_erase hw).countP_eq fun w => p w.1
  rw [List.countP_cons] at hperm
  exact hperm.symm

theorem count_resume (hw : (c, .woken) ∈ l.waiters) :
    (l.resume c).count p + (if p c then 1 else 0) = l.count p := count_erase p hw

theorem count_unwind (hw : w ∈ l.waiters) :
    (l.unwind w).count p + (if p w.1 then 1 else 0) = l.count p := by
  have herase := count_erase p hw
  rw [FifoLock.unwind]
  dsimp only
  split
  · exact herase
  · rw [count_wakeFirst]
    exact herase

theorem count_cancel (l : FifoLock κ) (c : κ) : (l.cancel c).count p = l.count p := by
  rw [count, FifoLock.cancel, List.countP_map]
  refine List.countP_congr fun w _ => ?_
  show p (if w.1 = c then (c, w.2.cancel) else w).1 = true ↔ p w.1 = true
  split
  case isTrue h => rw [h]
  case isFalse => exact Iff.rfl

end Cancelling

/-! ## Who waits and was not cancelled -/

/-- The one waits, and was not cancelled. -/
def Live (l : FifoLock κ) (c : κ) : Prop := ∃ w ∈ l.waiters, w.1 = c ∧ w.2.isOver = false

variable {c' : κ}

theorem live_of_queue (h : (l.queue c').Live c) : l.Live c ∨ c = c' := by
  obtain ⟨w, hw, hc, hlive⟩ := h
  obtain hw | hw := List.mem_append.mp hw
  · exact .inl ⟨w, hw, hc, hlive⟩
  · rw [List.mem_singleton.mp hw] at hc
    exact .inr hc.symm

theorem live_of_wakeFirst (h : l.wakeFirst.Live c) : l.Live c := by
  obtain ⟨locked, waiters⟩ := l
  rw [FifoLock.wakeFirst] at h
  split at h
  case h_1 c₀ rest heq =>
    obtain rfl : waiters = (c₀, .pending) :: rest := heq
    obtain ⟨w, hw, hc, hlive⟩ := h
    obtain rfl | hw := List.mem_cons.mp hw
    · exact ⟨(c₀, .pending), List.mem_cons_self, hc, rfl⟩
    · exact ⟨w, List.mem_cons_of_mem _ hw, hc, hlive⟩
  case h_2 => exact h

theorem live_of_release (h : l.release.Live c) : l.Live c :=
  live_of_wakeFirst (l := { l with locked := false }) h

section Cancelling

variable [DecidableEq κ]

theorem live_of_resume (h : (l.resume c').Live c) : l.Live c := by
  obtain ⟨w, hw, hlive⟩ := h
  exact ⟨w, List.erase_subset hw, hlive⟩

theorem live_of_cancel (h : (l.cancel c').Live c) : l.Live c := by
  obtain ⟨w, hw, hc, hlive⟩ := h
  obtain ⟨w₀, hw₀, rfl⟩ := List.mem_map.mp hw
  split at hlive
  case isTrue =>
    -- who is cancelled is over
    cases ht : w₀.2 <;> rw [ht] at hlive <;> cases hlive
  case isFalse hne =>
    rw [if_neg hne] at hc
    exact ⟨w₀, hw₀, hc, hlive⟩

theorem live_of_unwind (h : (l.unwind w).Live c) : l.Live c := by
  have herase : ∀ l' : FifoLock κ, l'.waiters = l.waiters.erase w → l'.Live c → l.Live c := by
    rintro l' hl' ⟨w', hw', hlive⟩
    exact ⟨w', List.erase_subset (hl' ▸ hw'), hlive⟩
  rw [FifoLock.unwind] at h
  dsimp only at h
  split at h
  · exact herase _ rfl h
  · exact herase _ rfl (live_of_wakeFirst h)

end Cancelling

end FifoLock

end Pandamonium.Library
