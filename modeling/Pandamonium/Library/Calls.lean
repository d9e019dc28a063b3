import Pandamonium.Library.Dict
import Pandamonium.Library.TransitionSystem
import Mathlib.Algebra.Ring.Nat

/-!
# Concurrent calls over a store

A service takes calls that run at the same time over one store.  Between two steps a call is its
*frame*, what it has read and where it is; a step takes the frame and an event to what becomes of
the store and to the next frame, if the call goes on.

A condition looks at the store, the frame and the event of a step.  `Service.invariant` carries a
fact of the store together with one of each frame through a run, and `Service.evolves` relates the
stores of two states of a run.
-/

set_option autoImplicit false

namespace Pandamonium.Library

/-- Which frames a call may begin with, and its steps, `none` where a step is not taken. -/
structure Service (σ φ ε : Type) where
  entry : φ → Bool
  advance : σ → φ → ε → Option (σ × Option φ)

/-- The store and the calls that are running. -/
structure Serving (σ φ : Type) where
  store : σ
  calls : Dict ℕ φ

/-- A call begins, or takes its next step. -/
inductive Turn (φ ε : Type)
  | begins (call : ℕ) (frame : φ)
  | goesOn (call : ℕ) (event : ε)

namespace Service

variable {σ φ ε : Type} (S : Service σ φ ε)

/-- The call has the next frame, or is over. -/
def follow (calls : Dict ℕ φ) (call : ℕ) : Option φ → Dict ℕ φ
  | some frame => calls.set call frame
  | none => calls.erase call

/-- A turn. -/
def step (w : Serving σ φ) : Turn φ ε → Option (Serving σ φ)
  | .begins call frame =>
    if S.entry frame ∧ (w.calls.get? call).isNone then
      some { w with calls := w.calls.set call frame }
    else none
  | .goesOn call event =>
    match w.calls.get? call with
    | none => none
    | some frame =>
      (S.advance w.store frame event).map fun after =>
        { store := after.1, calls := follow w.calls call after.2 }

/-- The runs from a store of the kind, with no call running. -/
def system (start : σ → Prop) : TransitionSystem (Serving σ φ) (Turn φ ε) where
  init := fun w => start w.store ∧ w.calls = Dict.empty
  step := S.step

/-- The condition on a turn that is one on the steps of the calls. -/
def under (cond : σ → φ → ε → Prop) (w : Serving σ φ) : Turn φ ε → Prop
  | .begins _ _ => True
  | .goesOn call event =>
    match w.calls.get? call with
    | none => True
    | some frame => cond w.store frame event

instance (cond : σ → φ → ε → Prop) [∀ s f e, Decidable (cond s f e)] :
    DecidableRel (under cond) := by
  rintro w (⟨call, frame⟩ | ⟨call, event⟩)
  case begins => exact inferInstanceAs (Decidable True)
  case goesOn =>
    simp only [under]
    cases w.calls.get? call with
    | none => exact inferInstanceAs (Decidable True)
    | some frame => exact inferInstanceAs (Decidable (cond _ _ _))

variable {S} {cond : σ → φ → ε → Prop}

theorem step_cases {w w' : Serving σ φ} {turn : Turn φ ε} (hok : under cond w turn)
    (h : S.step w turn = some w') :
    (∃ call frame, S.entry frame = true ∧ w.calls.get? call = none ∧
      w' = { w with calls := w.calls.set call frame }) ∨
    ∃ call frame event store next, w.calls.get? call = some frame ∧ cond w.store frame event ∧
      S.advance w.store frame event = some (store, next) ∧
      w' = { store := store, calls := follow w.calls call next } := by
  cases turn with
  | begins call frame =>
    obtain ⟨⟨hentry, hnew⟩, rfl⟩ :=
      Option.ite_none_right_eq_some.mp h |>.imp_right Option.some.inj
    exact .inl ⟨call, frame, hentry, Option.isNone_iff_eq_none.mp hnew, rfl⟩
  | goesOn call event =>
    simp only [step] at h
    simp only [under] at hok
    cases hframe : w.calls.get? call with
    | none =>
      rw [hframe] at h
      cases h
    | some frame =>
      simp only [hframe] at h hok
      obtain ⟨⟨store, next⟩, hadvance, rfl⟩ := Option.map_eq_some_iff.mp h
      exact .inr ⟨call, frame, event, store, next, hframe, hok, hadvance, rfl⟩

theorem get?_follow_eq (calls : Dict ℕ φ) (call i : ℕ) (next : Option φ) :
    (follow calls call next).get? i = if i = call then next else calls.get? i := by
  cases next with
  | none => exact Dict.get?_erase calls call i
  | some frame => exact Dict.get?_set calls call i frame

theorem get?_follow {calls : Dict ℕ φ} {call i : ℕ} {next : Option φ} {frame : φ}
    (h : (follow calls call next).get? i = some frame) :
    next = some frame ∨ calls.get? i = some frame := by
  cases next with
  | none =>
    rw [follow, Dict.get?_erase] at h
    split at h
    · cases h
    · exact .inr h
  | some frame' =>
    rw [follow, Dict.get?_set] at h
    split at h
    · exact .inl h
    · exact .inr h

/-- The store and the frames are as they should be. -/
structure Holds (I : σ → Prop) (J : σ → φ → Prop) (w : Serving σ φ) : Prop where
  store : I w.store
  frames : ∀ call frame, w.calls.get? call = some frame → J w.store frame

section Rules

variable {I : σ → Prop} {J : σ → φ → Prop}

/-- What the steps of the calls keep, a turn keeps: the fact of the store, that of the frame of the
call, and those of the other frames. -/
theorem Holds.turn (hentry : ∀ s frame, S.entry frame = true → I s → J s frame)
    (hstep : ∀ s frame event s' next, I s → J s frame → cond s frame event →
      S.advance s frame event = some (s', next) →
      I s' ∧ (∀ frame', next = some frame' → J s' frame') ∧ ∀ frame', J s frame' → J s' frame')
    {w w' : Serving σ φ} {turn : Turn φ ε} (h : Holds I J w) (hok : under cond w turn)
    (hturn : S.step w turn = some w') : Holds I J w' := by
  obtain ⟨call, frame, hframe, -, rfl⟩ | ⟨call, frame, event, s', next, hcall, hcond, hadvance, rfl⟩ :=
    step_cases hok hturn
  · refine ⟨h.store, fun i frame' hi => ?_⟩
    rw [Dict.get?_set] at hi
    split at hi
    · obtain rfl := Option.some.inj hi
      exact hentry _ _ hframe h.store
    · exact h.frames i frame' hi
  · obtain ⟨hstore, hnext, hothers⟩ :=
      hstep _ _ _ _ _ h.store (h.frames _ _ hcall) hcond hadvance
    refine ⟨hstore, fun i frame' hi => ?_⟩
    obtain hi | hi := get?_follow hi
    · exact hnext frame' hi
    · exact hothers frame' (h.frames i frame' hi)

theorem invariant {start : σ → Prop} (hinit : ∀ s, start s → I s)
    (hentry : ∀ s frame, S.entry frame = true → I s → J s frame)
    (hstep : ∀ s frame event s' next, I s → J s frame → cond s frame event →
      S.advance s frame event = some (s', next) →
      I s' ∧ (∀ frame', next = some frame' → J s' frame') ∧ ∀ frame', J s frame' → J s' frame')
    {w : Serving σ φ} (hw : (S.system start).ReachableWhere (under cond) w) : Holds I J w := by
  refine hw.invariant ?_ fun _ _ _ h hok hturn => h.turn hentry hstep hok hturn
  rintro w₀ ⟨hstart, hcalls⟩
  refine ⟨hinit _ hstart, fun call frame hcall => ?_⟩
  rw [hcalls] at hcall
  cases hcall

theorem evolves {start : σ → Prop} {R : σ → σ → Prop} (hrefl : ∀ s, R s s)
    (htrans : ∀ a b c, R a b → R b c → R a c)
    (hR : ∀ s frame event s' next, cond s frame event →
      S.advance s frame event = some (s', next) → R s s')
    {w w' : Serving σ φ} (hrun : (S.system start).RunWhere (under cond) w w') :
    R w.store w'.store := by
  refine hrun.evolves (I := fun _ => True) (R := fun w w' => R w.store w'.store)
    (fun w => hrefl w.store) (fun a b c => htrans a.store b.store c.store)
    (fun _ _ _ _ _ _ => trivial) ?_ trivial
  intro w turn w' _ hok hturn
  obtain ⟨call, frame, -, -, rfl⟩ | ⟨call, frame, event, s', next, -, hcond, hadvance, rfl⟩ :=
    step_cases hok hturn
  · exact hrefl w.store
  · exact hR _ _ _ _ _ hcond hadvance

end Rules

end Service

end Pandamonium.Library

/-!
## Permits

A service grants permits, its calls hold them, and each is spent once.  Where no step spends more
than what it grants and what its call lets go of, no run spends more than was granted, however its
calls interleave: what is spent and what is held together stay within what is granted.
-/

namespace Pandamonium.Library

section Sums

variable {κ β : Type} [DecidableEq κ]

/-- The sum of a number of each value. -/
def Dict.total (d : Dict κ β) (f : β → ℕ) : ℕ := (d.items.map fun item => f item.2).sum

theorem Dict.total_set (d : Dict κ β) (f : β → ℕ) (k : κ) (v : β) :
    (d.set k v).total f + ((d.get? k).map f).getD 0 = d.total f + f v := by
  obtain ⟨items, hnodup⟩ := d
  change ((assign k v items).map fun item => f item.2).sum + ((find k items).map f).getD 0 =
    (items.map fun item => f item.2).sum + f v
  clear hnodup
  induction items with
  | nil => simp [assign, find]
  | cons item items ih =>
    obtain ⟨k', v'⟩ := item
    by_cases hk : k' = k
    · simp only [assign, find, hk, if_true, List.map_cons, List.sum_cons, Option.map_some,
        Option.getD_some]
      omega
    · simp only [assign, find, hk, if_false, List.map_cons, List.sum_cons]
      omega

theorem Dict.total_erase (d : Dict κ β) (f : β → ℕ) (k : κ) :
    (d.erase k).total f + ((d.get? k).map f).getD 0 = d.total f := by
  obtain ⟨items, hnodup⟩ := d
  change ((items.filter fun item => decide (item.1 ≠ k)).map fun item => f item.2).sum +
    ((find k items).map f).getD 0 = (items.map fun item => f item.2).sum
  induction items with
  | nil => rfl
  | cons item items ih =>
    obtain ⟨k', v'⟩ := item
    obtain ⟨hnot, hnodup⟩ := List.nodup_cons.mp hnodup
    by_cases hk : k' = k
    · -- the key does not come again
      have hkept : items.filter (fun item => decide (item.1 ≠ k)) = items := by
        refine List.filter_eq_self.mpr fun item hitem => decide_eq_true fun hitemk => hnot ?_
        exact List.mem_map.mpr ⟨item, hitem, hitemk.trans hk.symm⟩
      simp only [find, hk, if_true, List.filter_cons, ne_eq, not_true_eq_false, decide_false,
        Bool.false_eq_true, if_false, Option.map_some, Option.getD_some, List.map_cons,
        List.sum_cons]
      simp only [ne_eq] at hkept
      rw [hkept]
      omega
    · have hrest := ih hnodup
      simp only [ne_eq] at hrest
      simp only [find, hk, if_false, List.filter_cons, ne_eq, not_false_eq_true, decide_true,
        if_true, List.map_cons, List.sum_cons]
      omega

/-- What one value counts for is within the sum. -/
theorem Dict.le_total {d : Dict κ β} {k : κ} {v : β} (h : d.get? k = some v) (f : β → ℕ) :
    f v ≤ d.total f := by
  have herase := d.total_erase f k
  rw [h, Option.map_some, Option.getD_some] at herase
  omega

omit [DecidableEq κ] in
theorem Dict.total_le_total {f g : β → ℕ} (h : ∀ v, f v ≤ g v) (d : Dict κ β) :
    d.total f ≤ d.total g := by
  rw [total, total]
  induction d.items with
  | nil => exact Nat.le_refl _
  | cons item items ih =>
    rw [List.map_cons, List.map_cons, List.sum_cons, List.sum_cons]
    exact Nat.add_le_add (h item.2) ih

end Sums

namespace Service

variable {σ φ ε : Type} {S : Service σ φ ε} {cond : σ → φ → ε → Prop}

/-- The permits of a call that goes on, or of one that is over. -/
def heldBy (held : φ → ℕ) (next : Option φ) : ℕ := (next.map held).getD 0

theorem total_follow (calls : Dict ℕ φ) (held : φ → ℕ) (call : ℕ) (next : Option φ) :
    (follow calls call next).total held + heldBy held (calls.get? call) =
      calls.total held + heldBy held next := by
  cases next with
  | none => exact calls.total_erase held call
  | some frame => exact calls.total_set held call frame

/-- The permit rule: what was spent and what the calls hold is within what was granted. -/
theorem permits {start : σ → Prop} (held : φ → ℕ) (spent granted : σ → ℕ)
    (hinit : ∀ s, start s → spent s ≤ granted s)
    (hentry : ∀ frame, S.entry frame = true → held frame = 0)
    (hstep : ∀ s frame event s' next, cond s frame event →
      S.advance s frame event = some (s', next) →
      spent s' + heldBy held next + granted s ≤ spent s + held frame + granted s')
    {w : Serving σ φ} (hw : (S.system start).ReachableWhere (under cond) w) :
    spent w.store + w.calls.total held ≤ granted w.store := by
  refine hw.invariant (I := fun w => spent w.store + w.calls.total held ≤ granted w.store) ?_ ?_
  · rintro w₀ ⟨hstart, hcalls⟩
    rw [hcalls]
    exact hinit _ hstart
  · intro w turn w' hle hok hturn
    obtain ⟨call, frame, hframe, -, rfl⟩ |
      ⟨call, frame, event, s', next, hcall, hcond, hadvance, rfl⟩ := step_cases hok hturn
    · have hset := w.calls.total_set held call frame
      rw [hentry frame hframe] at hset
      dsimp only at hle ⊢
      omega
    · have hfollow := total_follow w.calls held call next
      have hmoves := hstep _ _ _ _ _ hcond hadvance
      have hheld : heldBy held (w.calls.get? call) = held frame := by
        rw [hcall]
        rfl
      dsimp only at hle ⊢
      omega

end Service

end Pandamonium.Library
