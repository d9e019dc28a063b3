import Pandamonium.Model.FeedbackStore

/-!
# What is created for a key

A call holds its key from the claim to the mark.  Where a key is claimed only while no call holds it,
and a call that has created something comes to mark the key as submitted, a key that was created for
is submitted or about to be, so it is never claimed again.
-/

set_option autoImplicit false

namespace Pandamonium.Feedback

open Pandamonium.Library

variable {repo : String} {s s' : Store} {w w' : Serving Store Frame} {key : String}

/-- The key is recorded as submitted. -/
def Store.submitted (s : Store) (key : String) : Prop :=
  ∃ record, s.submissions.get? key = some record ∧ record.status = .submitted

/-- Of a store and the same store later: at most one issue or comment was created for each key, and
what was submitted still is. -/
structure ExactlyOnce (s s' : Store) : Prop where
  created : ∀ key, s'.posts.count key ≤ 1
  kept : ∀ key, s.submitted key → s'.submitted key

/-- Whether a call has claimed the key, and has not marked it. -/
def holds (key : String) : Frame → ℕ
  | .claims _ _ _ _ => 0
  | .posts key' _ => if key' = key then 1 else 0
  | .marksSubmitted key' _ _ => if key' = key then 1 else 0
  | .marksFailed key' _ => if key' = key then 1 else 0

/-- Whether a call is about to mark the key as submitted. -/
def submits (key : String) : Frame → ℕ
  | .marksSubmitted key' _ _ => if key' = key then 1 else 0
  | _ => 0

/-- The client has read the issue or comment from GitHub's answer. -/
def Reply.isIssue : Reply → Bool
  | .issue _ _ => true
  | _ => false

/-- The key is claimed only while no call holds it, GitHub's answer to what it has created is read,
and the mark of that is written. -/
def spares (repo : String) (w : Serving Store Frame) : Turn Frame Occurrence → Bool
  | .begins _ _ => true
  | .goesOn call o =>
    match w.calls.get? call, o with
    | some (.claims key _ _ _), .claims now =>
      decide (claimState (w.store.submissions.get? key) now = .claimed →
        w.calls.total (holds key) = 0)
    | some (.posts _ decision), .answers created answer =>
      !(created && decision.sends answer) || (decision.reply repo answer).isIssue
    | some (.marksSubmitted _ _ _), .raises => false
    | _, _ => true

/-! ## Counting -/

/-- One where the key is recorded as submitted. -/
def submittedCount (s : Store) (key : String) : ℕ :=
  if (s.submissions.get? key).any fun record => decide (record.status = .submitted) then 1 else 0

theorem submittedCount_eq_one : submittedCount s key = 1 ↔ s.submitted key := by
  rw [submittedCount, Store.submitted]
  cases s.submissions.get? key with
  | none => simp
  | some record => simp

theorem submittedCount_set (record : Record) (key' : String) :
    submittedCount { s with submissions := s.submissions.set key' record } key =
      if key = key' then (if record.status = .submitted then 1 else 0)
      else submittedCount s key := by
  rw [submittedCount, Dict.get?_set]
  split
  · simp
  · rfl

theorem submittedCount_claimed (key' draftId fingerprint : String) (now : ℕ) :
    submittedCount (claimed key' draftId fingerprint now s) key =
      if key = key' then 0 else submittedCount s key :=
  submittedCount_set _ key'

theorem submittedCount_markSubmitted (key' issueUrl : String) (issueNumber : ℕ) :
    submittedCount (markSubmitted key' issueUrl issueNumber s) key =
      if key = key' then 1 else submittedCount s key :=
  submittedCount_set _ key'

theorem submittedCount_markFailed (key' error : String) :
    submittedCount (markFailed key' error s) key =
      if key = key' then 0 else submittedCount s key :=
  submittedCount_set _ key'

/-- A claim is not given for what is submitted. -/
theorem submittedCount_of_claimState {now : ℕ}
    (h : claimState (s.submissions.get? key) now = .claimed) : submittedCount s key = 0 := by
  rw [submittedCount]
  cases hrecord : s.submissions.get? key with
  | none => rfl
  | some record =>
    rw [hrecord, claimState] at h
    split at h
    · cases h
    · rename_i hstatus
      simp [hstatus]

theorem submits_le_holds (key : String) (frame : Frame) : submits key frame ≤ holds key frame := by
  cases frame with
  | marksSubmitted key' issueUrl issueNumber => exact Nat.le_refl _
  | claims key' draftId fingerprint decision => exact Nat.zero_le _
  | posts key' decision => exact Nat.zero_le _
  | marksFailed key' error => exact Nat.zero_le _

/-- At most one call holds a key, none where it is submitted; and a key that was created for is
submitted, or about to be. -/
structure Counts (w : Serving Store Frame) (key : String) : Prop where
  single : w.calls.total (holds key) + submittedCount w.store key ≤ 1
  settled : w.store.posts.count key ≤
    submittedCount w.store key + w.calls.total (submits key)

theorem Counts.created (h : Counts w key) : w.store.posts.count key ≤ 1 := by
  have hle := w.calls.total_le_total (submits_le_holds key)
  have hsingle := h.single
  have hsettled := h.settled
  omega

/-! ## Steps -/

/-- What a step does to a key that so many calls hold, with what the frame and the next one hold. -/
inductive Moves (key : String) (total : ℕ) (s s' : Store) (frame : Frame) (next : Option Frame) :
    Prop
  /-- The key is claimed. -/
  | claims (hidle : total = 0) (hs : submittedCount s key = 0) (hs' : submittedCount s' key = 0)
      (hposts : s'.posts = s.posts) (hheld : holds key frame = 0)
      (hheld' : Service.heldBy (holds key) next = 1) (hsubmits : submits key frame = 0)
      (hsubmits' : Service.heldBy (submits key) next = 0)
  /-- The call goes on, or lets go of the key. -/
  | goesOn (hs : submittedCount s' key = submittedCount s key)
      (hposts : s'.posts.count key = s.posts.count key)
      (hheld : Service.heldBy (holds key) next ≤ holds key frame)
      (hsubmits : submits key frame = 0) (hsubmits' : Service.heldBy (submits key) next = 0)
  /-- GitHub has answered, and the key is to be submitted. -/
  | posts (hs : submittedCount s' key = submittedCount s key)
      (hposts : s'.posts.count key ≤ s.posts.count key + 1)
      (hheld : Service.heldBy (holds key) next = holds key frame)
      (hsubmits : submits key frame = 0) (hsubmits' : Service.heldBy (submits key) next = 1)
  | marksSubmitted (hs : submittedCount s' key = 1) (hposts : s'.posts = s.posts)
      (hheld : holds key frame = 1) (hheld' : Service.heldBy (holds key) next = 0)
      (hsubmits : submits key frame = 1) (hsubmits' : Service.heldBy (submits key) next = 0)
  | marksFailed (hs : submittedCount s' key = 0) (hposts : s'.posts = s.posts)
      (hheld : holds key frame = 1) (hheld' : Service.heldBy (holds key) next = 0)
      (hsubmits : submits key frame = 0) (hsubmits' : Service.heldBy (submits key) next = 0)

theorem moves_other {total : ℕ} {frame : Frame} {next : Option Frame}
    (hs : submittedCount s' key = submittedCount s key)
    (hposts : s'.posts.count key = s.posts.count key) (hframe : holds key frame = 0)
    (hnext : Service.heldBy (holds key) next = 0) : Moves key total s s' frame next := by
  have hsubmits := submits_le_holds key frame
  have hsubmits' : Service.heldBy (submits key) next ≤ Service.heldBy (holds key) next := by
    cases next with
    | none => exact Nat.le_refl 0
    | some frame' => exact submits_le_holds key frame'
  exact .goesOn hs hposts (by omega) (by omega) (by omega)

theorem moves_claims {key' draftId fingerprint : String} {decision : Decision} {now : ℕ}
    {next : Option Frame} {total : ℕ}
    (hidle : key' = key → claimState (s.submissions.get? key') now = .claimed → total = 0)
    (h : advance repo s (.claims key' draftId fingerprint decision) (.claims now) =
      some (s', next)) : Moves key total s s' (.claims key' draftId fingerprint decision) next := by
  simp only [advance] at h
  split at h
  case h_1 hclaim =>
    obtain ⟨rfl, rfl⟩ := Prod.mk.inj (Option.some.inj h)
    by_cases hkey : key' = key
    · subst hkey
      refine .claims (hidle rfl hclaim) (submittedCount_of_claimState hclaim) ?_ rfl rfl
        (if_pos rfl) rfl rfl
      rw [submittedCount_claimed, if_pos rfl]
    · refine moves_other ?_ rfl rfl (if_neg hkey)
      rw [submittedCount_claimed, if_neg (Ne.symm hkey)]
  case h_2 =>
    obtain ⟨rfl, rfl⟩ := Prod.mk.inj (Option.some.inj h)
    exact moves_other rfl rfl rfl rfl
  case h_3 =>
    obtain ⟨rfl, rfl⟩ := Prod.mk.inj (Option.some.inj h)
    exact moves_other rfl rfl rfl rfl

/-- The frame after a reply holds the key at most, and is to submit it after an issue. -/
theorem moves_answers {total : ℕ} {key' : String} {decision : Decision} {created : Bool}
    {answer : Answer}
    (hread : (!(created && decision.sends answer) || (decision.reply repo answer).isIssue) = true) :
    Moves key total s
      (if created && decision.sends answer then { s with posts := key' :: s.posts } else s)
      (.posts key' decision) (afterReply key' (decision.reply repo answer)) := by
  have hnone (h : (!(created && decision.sends answer) || false) = true) :
      (created && decision.sends answer) = false := by
    rwa [Bool.or_false, Bool.not_eq_true'] at h
  by_cases hkey : key' = key
  · subst hkey
    cases hreply : decision.reply repo answer with
    | issue url number =>
      refine .posts ?_ ?_ rfl rfl (if_pos rfl)
      · split
        · rfl
        · rfl
      · split
        · exact Nat.le_of_eq List.count_cons_self
        · exact Nat.le_succ _
    | error code =>
      rw [hreply] at hread
      rw [hnone hread, if_neg Bool.false_ne_true]
      exact .goesOn rfl rfl (Nat.le_refl _) rfl rfl
    | raised =>
      rw [hreply] at hread
      rw [hnone hread, if_neg Bool.false_ne_true]
      exact .goesOn rfl rfl (Nat.zero_le _) rfl rfl
  · refine moves_other ?_ ?_ (if_neg hkey) ?_
    · split
      · rfl
      · rfl
    · split
      · exact List.count_cons_of_ne hkey
      · rfl
    · cases decision.reply repo answer with
      | issue url number => exact if_neg hkey
      | error code => exact if_neg hkey
      | raised => rfl

theorem moves_marksSubmitted {total : ℕ} (key' issueUrl : String) (issueNumber : ℕ) :
    Moves key total s (markSubmitted key' issueUrl issueNumber s)
      (.marksSubmitted key' issueUrl issueNumber) none := by
  by_cases hkey : key' = key
  · subst hkey
    refine .marksSubmitted ?_ rfl (if_pos rfl) rfl (if_pos rfl) rfl
    rw [submittedCount_markSubmitted, if_pos rfl]
  · refine moves_other ?_ rfl (if_neg hkey) rfl
    rw [submittedCount_markSubmitted, if_neg (Ne.symm hkey)]

theorem moves_marksFailed {total : ℕ} (key' error : String) :
    Moves key total s (markFailed key' error s) (.marksFailed key' error) none := by
  by_cases hkey : key' = key
  · subst hkey
    refine .marksFailed ?_ rfl (if_pos rfl) rfl rfl rfl
    rw [submittedCount_markFailed, if_pos rfl]
  · refine moves_other ?_ rfl (if_neg hkey) rfl
    rw [submittedCount_markFailed, if_neg (Ne.symm hkey)]

/-- A call that raises before it marks the key as submitted lets go of it. -/
theorem moves_raises {total : ℕ} {frame : Frame} (hsubmits : submits key frame = 0) :
    Moves key total s s frame none :=
  .goesOn rfl rfl (Nat.zero_le _) hsubmits rfl

theorem moves_of_spares (key : String) {call : ℕ} {frame : Frame} {o : Occurrence} {next : Option Frame}
    (hcall : w.calls.get? call = some frame) (hspares : spares repo w (.goesOn call o) = true)
    (h : advance repo w.store frame o = some (s', next)) :
    Moves key (w.calls.total (holds key)) w.store s' frame next := by
  simp only [spares, hcall] at hspares
  cases frame with
  | claims key' draftId fingerprint decision =>
    cases o with
    | claims now =>
      exact moves_claims (fun hkey hclaim => hkey ▸ of_decide_eq_true hspares hclaim) h
    | notFound => cases h
    | answers created answer => cases h
    | marks => cases h
    | raises => cases h
  | posts key' decision =>
    cases o with
    | claims now => cases decision <;> cases h
    | notFound =>
      cases decision with
      | new => cases h
      | existing issueNumber =>
        obtain ⟨rfl, rfl⟩ := Prod.mk.inj (Option.some.inj h)
        exact .goesOn rfl rfl (Nat.le_refl _) rfl rfl
    | answers created answer =>
      have hadvance : advance repo w.store (.posts key' decision) (.answers created answer) =
          some (if created && decision.sends answer then
              { w.store with posts := key' :: w.store.posts } else w.store,
            afterReply key' (decision.reply repo answer)) := by
        cases decision <;> rfl
      rw [hadvance] at h
      obtain ⟨rfl, rfl⟩ := Prod.mk.inj (Option.some.inj h)
      exact moves_answers hspares
    | marks => cases decision <;> cases h
    | raises =>
      have hadvance : advance repo w.store (.posts key' decision) .raises = some (w.store, none) := by
        cases decision <;> rfl
      rw [hadvance] at h
      obtain ⟨rfl, rfl⟩ := Prod.mk.inj (Option.some.inj h)
      exact moves_raises rfl
  | marksSubmitted key' issueUrl issueNumber =>
    cases o with
    | claims now => cases h
    | notFound => cases h
    | answers created answer => cases h
    | marks =>
      obtain ⟨rfl, rfl⟩ := Prod.mk.inj (Option.some.inj h)
      exact moves_marksSubmitted key' issueUrl issueNumber
    | raises => cases hspares
  | marksFailed key' error =>
    cases o with
    | claims now => cases h
    | notFound => cases h
    | answers created answer => cases h
    | marks =>
      obtain ⟨rfl, rfl⟩ := Prod.mk.inj (Option.some.inj h)
      exact moves_marksFailed key' error
    | raises =>
      obtain ⟨rfl, rfl⟩ := Prod.mk.inj (Option.some.inj h)
      exact moves_raises rfl

/-! ## Runs -/

theorem Counts.goesOn (hcounts : Counts w key) {call : ℕ} {frame : Frame} {o : Occurrence}
    {next : Option Frame} (hcall : w.calls.get? call = some frame)
    (hspares : spares repo w (.goesOn call o) = true)
    (h : advance repo w.store frame o = some (s', next)) :
    Counts ⟨s', Service.follow w.calls call next⟩ key ∧
      (submittedCount w.store key = 1 → submittedCount s' key = 1) := by
  have hholds := Service.total_follow w.calls (holds key) call next
  have hsubmits := Service.total_follow w.calls (submits key) call next
  have hframe : Service.heldBy (holds key) (w.calls.get? call) = holds key frame := by
    rw [hcall]
    rfl
  have hframe' : Service.heldBy (submits key) (w.calls.get? call) = submits key frame := by
    rw [hcall]
    rfl
  have hle := Dict.le_total hcall (holds key)
  have hle' := w.calls.total_le_total (submits_le_holds key)
  obtain ⟨hsingle, hsettled⟩ := hcounts
  suffices hgoal : ((Service.follow w.calls call next).total (holds key) +
        submittedCount s' key ≤ 1 ∧
      s'.posts.count key ≤ submittedCount s' key +
        (Service.follow w.calls call next).total (submits key)) ∧
      (submittedCount w.store key = 1 → submittedCount s' key = 1) from
    ⟨⟨hgoal.1.1, hgoal.1.2⟩, hgoal.2⟩
  cases moves_of_spares key hcall hspares h with
  | claims hidle hs hs' hposts hheld hheld' hsub hsub' =>
    have hcount := congrArg (List.count key) hposts
    omega
  | goesOn hs hposts hheld hsub hsub' => omega
  | posts hs hposts hheld hsub hsub' => omega
  | marksSubmitted hs hposts hheld hheld' hsub hsub' =>
    have hcount := congrArg (List.count key) hposts
    omega
  | marksFailed hs hposts hheld hheld' hsub hsub' =>
    have hcount := congrArg (List.count key) hposts
    omega

/-- The condition on a turn is one on the runs. -/
def sparing (repo : String) (w : Serving Store Frame) (turn : Turn Frame Occurrence) : Prop :=
  spares repo w turn = true

instance (repo : String) : DecidableRel (sparing repo) :=
  fun w turn => inferInstanceAs (Decidable (spares repo w turn = true))

theorem Counts.turn (hcounts : Counts w key) {turn : Turn Frame Occurrence}
    (hspares : sparing repo w turn) (h : (service repo).step w turn = some w') :
    Counts w' key ∧ (submittedCount w.store key = 1 → submittedCount w'.store key = 1) := by
  cases turn with
  | begins call frame =>
    obtain ⟨⟨hentry, hnone⟩, rfl⟩ :=
      Option.ite_none_right_eq_some.mp h |>.imp_right Option.some.inj
    have hholds : holds key frame = 0 := by
      cases frame with
      | claims key' draftId fingerprint decision => rfl
      | posts key' decision => cases hentry
      | marksSubmitted key' issueUrl issueNumber => cases hentry
      | marksFailed key' error => cases hentry
    have hsubmits := submits_le_holds key frame
    have htotal := w.calls.total_set (holds key) call frame
    have htotal' := w.calls.total_set (submits key) call frame
    rw [Option.isNone_iff_eq_none.mp hnone, Option.map_none, Option.getD_none] at htotal htotal'
    obtain ⟨hsingle, hsettled⟩ := hcounts
    refine ⟨⟨?_, ?_⟩, fun hkey => hkey⟩
    · dsimp only
      omega
    · dsimp only
      omega
  | goesOn call o =>
    have hstep := h
    unfold Service.step at hstep
    cases hcall : w.calls.get? call with
    | none =>
      simp only [hcall] at hstep
      cases hstep
    | some frame =>
      simp only [hcall] at hstep
      obtain ⟨⟨s', next⟩, hadvance, rfl⟩ := Option.map_eq_some_iff.mp hstep
      exact hcounts.goesOn hcall hspares hadvance

theorem counts_of_spares (hw : ((service repo).system new).ReachableWhere (sparing repo) w)
    (key : String) : Counts w key := by
  refine hw.invariant (I := fun w => Counts w key) ?_ fun _ _ _ h hok hturn => (h.turn hok hturn).1
  rintro w₀ ⟨hstore, hcalls⟩
  refine ⟨?_, ?_⟩
  · rw [hcalls, hstore]
    exact Nat.zero_le 1
  · rw [hstore]
    exact Nat.zero_le _

/-- Where a key is claimed only while no call holds it, what GitHub has created is read, and the mark
of it is written, at most one issue or comment is created for a key, and what is submitted stays so. -/
theorem exactlyOnce_of_spares
    (hw : ((service repo).system new).ReachableWhere (sparing repo) w)
    (hrun : ((service repo).system new).RunWhere (sparing repo) w w') :
    ExactlyOnce w.store w'.store := by
  refine ⟨fun key => (counts_of_spares (hw.continued hrun) key).created, fun key hkey => ?_⟩
  rw [← submittedCount_eq_one] at hkey ⊢
  exact hrun.evolves (I := fun w => Counts w key)
    (R := fun w w' => submittedCount w.store key = 1 → submittedCount w'.store key = 1)
    (fun _ => id) (fun _ _ _ hab hbc => hbc ∘ hab) (fun _ _ _ h hok hturn => (h.turn hok hturn).1)
    (fun _ _ _ h hok hturn => (h.turn hok hturn).2) (counts_of_spares hw key) hkey

/-! ## Two runs -/

/-- A report is submitted under the key, and GitHub answers. -/
def submission (call now : ℕ) (created : Bool) (answer : Answer) : List (Turn Frame Occurrence) :=
  [.begins call (.claims "k" "d1" "f1" .new), .goesOn call (.claims now),
    .goesOn call (.answers created answer), .goesOn call .marks]

/-- The issue that was created. -/
def issue : Answer := .response 201 (some ⟨7, "https://github.com/o/r/issues/7"⟩)

/-- Nothing was submitted. -/
def noStore : Store := ⟨Dict.empty, []⟩

theorem init_noStore (repo : String) : ((service repo).system new).init ⟨noStore, Dict.empty⟩ :=
  ⟨rfl, rfl⟩

/-- What was created for the key, and the status of its record. -/
def outcome (s : Store) : ℕ × Option Status :=
  (s.posts.count "k", (s.submissions.get? "k").map Record.status)

/-- GitHub is unavailable, the report is submitted again, and once more afterwards. -/
theorem exactlyOnce_retried : ∃ w w', ((service "o/r").system new).ReachableWhere (sparing "o/r") w ∧
    ((service "o/r").system new).RunWhere (sparing "o/r") w w' ∧
    (outcome w.store, outcome w'.store) = ((1, some .submitted), (1, some .submitted)) ∧
    ExactlyOnce w.store w'.store := by
  obtain ⟨w, w', hw, hrun, hseen⟩ := TransitionSystem.exists_runWhere_of_exec
    ((service "o/r").system new) (sparing "o/r") (fun w w' => (outcome w.store, outcome w'.store))
    (submission 1 0 false (.response 503 none) ++ submission 2 5 true issue)
    [.begins 3 (.claims "k" "d1" "f1" .new), .goesOn 3 (.claims 9000)]
    (v := ((1, some .submitted), (1, some .submitted))) (init_noStore "o/r") (by decide +kernel)
  exact ⟨w, w', hw, hrun, hseen, exactlyOnce_of_spares hw hrun⟩

/-- The answer to an issue that was created cannot be read, and the report is submitted again. -/
theorem not_exactlyOnce_unread : ∃ w w', ((service "o/r").system new).Reachable w ∧
    ((service "o/r").system new).Run w w' ∧ ¬ ExactlyOnce w.store w'.store := by
  obtain ⟨w, w', hw, hrun, hseen⟩ := TransitionSystem.exists_runWhere_of_exec
    ((service "o/r").system new) TransitionSystem.anyStep (fun _ w' => outcome w'.store)
    (submission 1 0 true (.response 201 none)) (submission 2 10 true issue)
    (v := (2, some .submitted)) (init_noStore "o/r") (by decide +kernel)
  refine ⟨w, w', hw, hrun, fun h => ?_⟩
  have hone := h.created "k"
  have htwo : w'.store.posts.count "k" = 2 := congrArg Prod.fst hseen
  omega

end Pandamonium.Feedback
