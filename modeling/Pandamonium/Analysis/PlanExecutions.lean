import Pandamonium.Model.ExtensionPlans

/-!
# The executions of a plan

A decision that allows a plan is a permit to carry it out.  A call that begins an execution on such
a decision holds one, and spends it when it carries the operation out.  A call that finds the plan
authorized already, because another one is executing it or because it failed, holds none and carries
it out all the same.
-/

set_option autoImplicit false

namespace Pandamonium.ExtensionPlans

open Pandamonium.Library

variable {s s' : Store} {w w' : Serving Store Frame} {planId operatorId : String}

/-- Whether a call is about to carry out the plan. -/
def carries (planId : String) : Frame → ℕ
  | .carriesOut planId' _ => if planId' = planId then 1 else 0
  | _ => 0

/-- Each plan is carried out at most once for each approval, what is about to be carried out
included. -/
def OncePerApproval (w : Serving Store Frame) : Prop :=
  ∀ planId, w.store.executions.count planId + w.calls.total (carries planId) ≤
    w.store.approvals.count planId

/-- Whether an execution begins on the authorization of an earlier call. -/
def reusesAuthorization (s : Store) : Frame → Event → Bool
  | .executes planId operatorId, .starts sec met =>
    match (readPlans sec s).get? planId with
    | none => false
    | some plan => mayStart met operatorId plan && plan.authorized && sec.writable
  | _, _ => false

/-- Every execution begins on a decision of its own. -/
def freshlyApproved (s : Store) (frame : Frame) (event : Event) : Prop :=
  reusesAuthorization s frame event = false

instance (s : Store) (frame : Frame) (event : Event) : Decidable (freshlyApproved s frame event) :=
  inferInstanceAs (Decidable (_ = false))

/-! ## What a step counts -/

@[simp] theorem writePlans_approvals (sec : Section) (plans : Dict String Plan) (s : Store) :
    (writePlans sec plans s).approvals = s.approvals := by
  unfold writePlans
  split
  · rfl
  · rfl

@[simp] theorem writePlans_executions (sec : Section) (plans : Dict String Plan) (s : Store) :
    (writePlans sec plans s).executions = s.executions := by
  unfold writePlans
  split
  · rfl
  · rfl

@[simp] theorem record_approvals (sec : Section) (plan : Plan) (succeeded : Bool) (s : Store) :
    (record sec planId plan succeeded s).approvals = s.approvals :=
  writePlans_approvals _ _ _

@[simp] theorem record_executions (sec : Section) (plan : Plan) (succeeded : Bool) (s : Store) :
    (record sec planId plan succeeded s).executions = s.executions :=
  writePlans_executions _ _ _

/-- What is spent and held after a step, with what was granted before it, is not more than what was
spent and held before it with what is granted after it. -/
def Balanced (planId : String) (s : Store) (frame : Frame) (s' : Store) (next : Option Frame) :
    Prop :=
  s'.executions.count planId + Service.heldBy (carries planId) next + s.approvals.count planId ≤
    s.executions.count planId + carries planId frame + s'.approvals.count planId

/-- A step that counts nothing and ends the call is balanced. -/
theorem balanced_of_same {frame : Frame} (hexecutions : s'.executions = s.executions)
    (happrovals : s'.approvals = s.approvals) : Balanced planId s frame s' none := by
  unfold Balanced
  rw [hexecutions, happrovals]
  show _ + 0 + _ ≤ _
  omega

/-- The first section holds at most the permit that was granted in it. -/
theorem balanced_start {sec : Section} {met : Surroundings} {started : String}
    (hfresh : freshlyApproved s (.executes started operatorId) (.starts sec met)) :
    Balanced planId s (.executes started operatorId) (start sec met started operatorId s).1
      (start sec met started operatorId s).2 := by
  unfold freshlyApproved reusesAuthorization at hfresh
  unfold start
  cases hplan : (readPlans sec s).get? started with
  | none => exact balanced_of_same rfl rfl
  | some plan =>
    simp only [hplan] at hfresh
    dsimp only
    split
    · exact balanced_of_same rfl rfl
    · rename_i hmay
      rw [Bool.not_eq_false] at hmay
      split
      case isTrue hauthorized =>
        -- the plan is authorized, and so its new status cannot be written
        rw [hmay, hauthorized, Bool.true_and, Bool.true_and] at hfresh
        unfold begins
        rw [hfresh]
        exact balanced_of_same (by simp) (by simp)
      case isFalse =>
        cases met.verdict with
        | approvalRequired => exact balanced_of_same rfl rfl
        | deny => exact balanced_of_same rfl rfl
        | allow =>
          dsimp only [begins]
          unfold Balanced
          rw [writePlans_executions, writePlans_approvals, List.count_cons]
          cases sec.writable with
          | false =>
            show s.executions.count planId + 0 + _ ≤ s.executions.count planId + 0 + _
            omega
          | true =>
            show s.executions.count planId + (if started = planId then 1 else 0) + _ ≤
              s.executions.count planId + 0 + _
            simp only [beq_iff_eq]
            omega

theorem balanced_advance {frame : Frame} {event : Event} {next : Option Frame}
    (hfresh : freshlyApproved s frame event) (h : advance s frame event = some (s', next)) :
    Balanced planId s frame s' next := by
  cases event with
  | dies =>
    obtain ⟨rfl, rfl⟩ : s = s' ∧ none = next := by
      cases frame <;> exact Prod.mk.inj (Option.some.inj h)
    exact balanced_of_same rfl rfl
  | locks sec =>
    cases frame with
    | previews =>
      obtain ⟨-, heq⟩ := Option.ite_none_left_eq_some.mp h
      obtain ⟨rfl, rfl⟩ := Prod.mk.inj (Option.some.inj heq)
      exact balanced_of_same (by simp) (by simp)
    | configures =>
      simp only [advance] at h
      split at h
      · obtain ⟨rfl, rfl⟩ := Prod.mk.inj (Option.some.inj h)
        exact balanced_of_same rfl rfl
      · obtain ⟨rfl, rfl⟩ := Prod.mk.inj (Option.some.inj h)
        exact balanced_of_same (by simp) (by simp)
    | executes => cases h
    | carriesOut => cases h
    | records =>
      obtain ⟨rfl, rfl⟩ := Prod.mk.inj (Option.some.inj h)
      exact balanced_of_same (by simp) (by simp)
  | starts sec met =>
    cases frame with
    | executes started operatorId =>
      have hnext := Prod.mk.inj (Option.some.inj h)
      rw [← hnext.1, ← hnext.2]
      exact balanced_start hfresh
    | previews => cases h
    | configures => cases h
    | carriesOut => cases h
    | records => cases h
  | operates succeeds keepsPlans =>
    cases frame with
    | carriesOut carried plan =>
      obtain ⟨rfl, rfl⟩ := Prod.mk.inj (Option.some.inj h)
      show (carried :: s.executions).count planId + 0 + _ ≤ _
      rw [List.count_cons]
      simp only [carries, beq_iff_eq]
      omega
    | previews => cases h
    | configures => cases h
    | executes => cases h
    | records => cases h

/-- An execution that begins on the authorization of an earlier call, where every approval is used,
is one too many. -/
theorem exceeds_of_reuses {sec : Section} {met : Surroundings} {call : ℕ}
    (hcall : w.calls.get? call = some (.executes planId operatorId))
    (hreuses : reusesAuthorization w.store (.executes planId operatorId) (.starts sec met) = true)
    (hused : w.store.executions.count planId + w.calls.total (carries planId) =
      w.store.approvals.count planId)
    (hstep : service.step w (.goesOn call (.starts sec met)) = some w') : ¬ OncePerApproval w' := by
  unfold reusesAuthorization at hreuses
  cases hplan : (readPlans sec w.store).get? planId with
  | none =>
    simp only [hplan] at hreuses
    cases hreuses
  | some plan =>
    simp only [hplan, Bool.and_eq_true] at hreuses
    obtain ⟨⟨hmay, hauthorized⟩, hwritable⟩ := hreuses
    simp only [Service.step, hcall, service, advance, start, hplan, hmay, Bool.true_eq_false,
      if_false, hauthorized, if_true, begins, hwritable, Option.map_some] at hstep
    obtain rfl := Option.some.inj hstep
    intro honce
    have hmore := honce planId
    have hheld := Service.total_follow w.calls (carries planId) call
      (some (.carriesOut planId
        { plan with operatorId := some operatorId, status := .executing, authorized := true }))
    simp only [hcall, Service.heldBy, Option.map_some, Option.getD_some, carries, if_true] at hheld
    simp only [writePlans_executions, writePlans_approvals] at hmore
    omega

/-! ## Runs -/

/-- In every run in which every execution begins on a decision of its own, each plan is carried out
at most once for each approval. -/
theorem oncePerApproval_of_freshlyApproved
    (hw : (service.system unused).ReachableWhere (Service.under freshlyApproved) w) :
    OncePerApproval w := by
  intro planId
  refine Service.permits (carries planId) (fun s => s.executions.count planId)
    (fun s => s.approvals.count planId) ?_ ?_ ?_ hw
  · rintro s ⟨-, hexecutions⟩
    rw [hexecutions]
    exact Nat.zero_le _
  · intro frame hentry
    cases frame with
    | carriesOut => cases hentry
    | previews => rfl
    | configures => rfl
    | executes => rfl
    | records => rfl
  · intro s frame event s' next hfresh h
    exact balanced_advance hfresh h

/-! ## Two runs -/

/-- A section that can read and write the state. -/
def whole : Section := ⟨true, true⟩

/-- The authority store allows the call. -/
def allows : Surroundings := ⟨none, true, .allow, "d1"⟩

/-- A plan is previewed. -/
def previewed (call : ℕ) (planId : String) : List (Turn Frame Event) :=
  [.begins call (.previews planId "notes" "owner" none), .goesOn call (.locks whole)]

/-- An execution begins. -/
def begun (call : ℕ) (planId : String) : List (Turn Frame Event) :=
  [.begins call (.executes planId "owner"), .goesOn call (.starts whole allows)]

/-- The operation is carried out. -/
def ended (call : ℕ) (succeeds : Bool) : List (Turn Frame Event) :=
  [.goesOn call (.operates succeeds true), .goesOn call (.locks whole)]

/-- No plans. -/
def noPlans : Store := ⟨Dict.empty, [], []⟩

theorem init_noPlans : (service.system unused).init ⟨noPlans, Dict.empty⟩ := ⟨⟨rfl, rfl⟩, rfl⟩

/-- The executions and the approvals of the plan. -/
def counts (w : Serving Store Frame) : ℕ × ℕ :=
  (w.store.executions.count "p1", w.store.approvals.count "p1")

/-- A plan is carried out, and is not again when it is executed once more. -/
theorem oncePerApproval_completed : ∃ w,
    (service.system unused).ReachableWhere (Service.under freshlyApproved) w ∧
    counts w = (1, 1) ∧ OncePerApproval w := by
  obtain ⟨w, hw, hcounts⟩ := TransitionSystem.exists_reachableWhere_of_exec
    (service.system unused) (Service.under freshlyApproved) counts
    (previewed 1 "p1" ++ begun 2 "p1" ++ ended 2 true ++ begun 3 "p1")
    (v := (1, 1)) init_noPlans (by decide +kernel)
  exact ⟨w, hw, hcounts, oncePerApproval_of_freshlyApproved hw⟩

/-- A plan is executed again while it is executing. -/
theorem not_oncePerApproval_overlapping : ∃ w, (service.system unused).Reachable w ∧
    ¬ OncePerApproval w := by
  obtain ⟨w, hw, hcounts⟩ := TransitionSystem.exists_reachableWhere_of_exec
    (service.system unused) TransitionSystem.anyStep counts
    (previewed 1 "p1" ++ begun 2 "p1" ++ begun 3 "p1" ++ ended 2 true ++ ended 3 true)
    (v := (2, 1)) init_noPlans (by decide +kernel)
  obtain ⟨hexecutions, happrovals⟩ := Prod.mk.inj hcounts
  refine ⟨w, hw, fun h => ?_⟩
  have honce := h "p1"
  rw [hexecutions, happrovals] at honce
  omega

end Pandamonium.ExtensionPlans
