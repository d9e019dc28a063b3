import Pandamonium.Analysis.AuthSteps

/-!
# The sessions on disk

Every section that changes the sessions is followed by a save of the same thread, so what is in
memory is owed to the file.  A save takes its snapshot under the lock and writes it without: when
a snapshot is written that is older than one written before, the file goes back and stays so, and
a session that was revoked is there again after a restart (`not_settles_overtaken`).  As long as
snapshots are written in the order they are taken, the file has the sessions in memory whenever
no thread is in a call (`settles_of_writtenInOrder`).
-/

set_option autoImplicit false

namespace Pandamonium.Auth

open Pandamonium.Library

/-- When no thread is in a call, the file has the sessions in memory, and none that was
revoked. -/
def Settles (w : World) : Prop :=
  (∀ thread, w.idle thread) →
    w.file.content = w.manager.stored w.manager.live ∧
      ∀ token ∈ w.manager.revoked, ∀ now, ∀ entry ∈ loadSessions now w.file.content,
        entry.token ≠ token

/-- A snapshot is written only when none as new has been written before. -/
def writtenInOrder (w : World) : Label → Prop
  | .advance thread =>
    match w.threads.get? thread with
    | some (.save _ (.holding number _)) => w.file.written < number
    | _ => True
  | _ => True

instance : DecidableRel writtenInOrder := by
  intro w label
  unfold writtenInOrder
  split
  · split <;> infer_instance
  · infer_instance

/-! ## Writers -/

/-- Where a call is in its save. -/
def Call.writing : Call → Option (Writing (List String))
  | .save _ writing => some writing
  | _ => none

/-- Where each thread is in its save. -/
def World.writings (w : World) (thread : ℕ) : Option (Writing (List String)) :=
  (w.threads.get? thread).bind Call.writing

variable {w : World}

theorem writings_of_idle {thread : ℕ} (h : w.idle thread) :
    w.writings thread = none := by
  rw [World.writings, h, Option.bind_none]

theorem writings_eq {thread : ℕ} {call : Call} (h : w.threads.get? thread = some call) :
    w.writings thread = call.writing := by
  rw [World.writings, h, Option.bind_some]

theorem after_writings (w : World) (thread : ℕ) (call : Call) (manager : Manager) :
    (w.after thread call manager).writings = Function.update w.writings thread call.writing := by
  funext t
  simp only [World.writings, World.after, Dict.get?_set]
  by_cases h : t = thread
  · subst h
    simp
  · simp [h, World.writings]

theorem save_writings (w : World) (thread : ℕ) (locked : Bool) (writing : Writing (List String))
    (manager : Manager) : (w.after thread (.save locked writing) manager).writings =
      Function.update w.writings thread (some writing) :=
  after_writings ..

theorem returned_writings (w : World) (thread : ℕ) :
    (w.returned thread).writings = Function.update w.writings thread none := by
  funext t
  simp only [World.writings, World.returned, Dict.get?_erase]
  by_cases h : t = thread
  · subst h
    simp
  · simp [h, World.writings]

/-! ## The invariant -/

/-- The sessions in memory are owed to the file, and what was revoked is not in memory. -/
structure Accounted (w : World) : Prop where
  owed : Owed w.manager.stored (w.manager.stored w.manager.live) w.writings w.file
  known : ∀ token ∈ w.manager.live, (w.manager.objects.get? token).isSome = true
  gone : ∀ token ∈ w.manager.revoked,
    (w.manager.objects.get? token).isSome = true ∧ token ∉ w.manager.live

theorem accounted_started (h : Started w) : Accounted w where
  owed := Owed.initial h.content h.temporary h.counted fun thread =>
    writings_of_idle (h.threads thread)
  known := h.known
  gone := by
    intro token hmem
    rw [h.revoked] at hmem
    cases hmem

/-- A section that changes the sessions leaves its thread with a save to do. -/
theorem Accounted.change (h : Accounted w) (thread : ℕ) (locked : Bool) (holder : Option ℕ)
    {manager : Manager}
    (hknown : ∀ token ∈ manager.live, (manager.objects.get? token).isSome = true)
    (hgone : ∀ token ∈ manager.revoked,
      (manager.objects.get? token).isSome = true ∧ token ∉ manager.live) :
    Accounted { w.after thread (.save locked .due) manager with holder := holder } where
  owed := by
    have howed := h.owed.change thread manager.stored (manager.stored manager.live)
    rw [← save_writings w thread locked .due manager] at howed
    exact howed
  known := hknown
  gone := hgone

/-- Dropping sessions drops nothing that is not in memory. -/
theorem Accounted.drop (h : Accounted w) (thread : ℕ) (locked : Bool) (holder : Option ℕ)
    (p : String → Bool) :
    Accounted { w.after thread (.save locked .due) (w.manager.drop p) with holder := holder } := by
  apply h.change
  · intro token hmem
    exact h.known token (List.mem_filter.mp hmem).1
  · intro token hmem
    obtain ⟨hissued, hnot⟩ := h.gone token hmem
    exact ⟨hissued, fun hlive => hnot (List.mem_filter.mp hlive).1⟩

/-- A thread that goes in or out of a call without a save. -/
theorem Accounted.of_same {w' : World} (h : Accounted w) (hmanager : w'.manager = w.manager)
    (hfile : w'.file = w.file) (hwritings : w'.writings = w.writings) : Accounted w' := by
  obtain ⟨howed, hknown, hgone⟩ := h
  constructor
  · rw [hmanager, hfile, hwritings]
    exact howed
  · rw [hmanager]
    exact hknown
  · rw [hmanager]
    exact hgone

/-- A section that changes the accounts only. -/
theorem Accounted.of_users {w' : World} (h : Accounted w)
    (hobjects : w'.manager.objects = w.manager.objects) (hlive : w'.manager.live = w.manager.live)
    (hrevoked : w'.manager.revoked = w.manager.revoked) (hfile : w'.file = w.file)
    (hwritings : w'.writings = w.writings) : Accounted w' := by
  have hstored : w'.manager.stored = w.manager.stored := by
    funext snapshot
    simp only [Manager.stored, hobjects]
  obtain ⟨howed, hknown, hgone⟩ := h
  constructor
  · rw [hstored, hlive, hfile, hwritings]
    exact howed
  · rw [hobjects, hlive]
    exact hknown
  · rw [hobjects, hlive, hrevoked]
    exact hgone

theorem returned_same {thread : ℕ} (h : w.writings thread = none) :
    (w.returned thread).writings = w.writings := by
  rw [returned_writings, Function.update_eq_self_iff, h]

theorem after_same {thread : ℕ} {call : Call} (manager : Manager) (h : w.writings thread = none)
    (hcall : call.writing = none) :
    (w.after thread call manager).writings = w.writings := by
  rw [after_writings, hcall, Function.update_eq_self_iff, h]

theorem relabel_isSome (naming : Naming) (m : Manager) (oldUsername newUsername token : String) :
    ((m.relabel naming oldUsername newUsername).objects.get? token).isSome =
      (m.objects.get? token).isSome := by
  simp [Manager.relabel]

/-! ## Steps -/

variable {naming : Naming}

/-- A token that is drawn is new, so the one it is issued for was not revoked. -/
theorem Accounted.issue (h : Accounted w) (thread : ℕ) {username token : String} {now : ℕ}
    {manager : Manager} (hfresh : w.manager.objects.get? token = none)
    (hcreate : createSessionTrusted naming username token now w.manager = some manager) :
    Accounted (w.after thread (.save false .due) manager) := by
  obtain ⟨account, -, rfl⟩ := Option.map_eq_some_iff.mp hcreate
  refine h.change thread false w.holder ?_ ?_
  · intro token' hmem
    rw [Dict.get?_set]
    split
    · rfl
    · rcases List.mem_append.mp hmem with hmem | hmem
      · exact h.known token' hmem
      · exact absurd (List.mem_singleton.mp hmem) ‹_›
  · intro token' hmem
    obtain ⟨hissued, hnot⟩ := h.gone token' hmem
    have hne : token' ≠ token := by
      rintro rfl
      rw [hfresh] at hissued
      cases hissued
    refine ⟨by rw [Dict.get?_set, if_neg hne]; exact hissued, ?_⟩
    intro hlive
    rcases List.mem_append.mp hlive with hlive | hlive
    · exact hnot hlive
    · exact hne (List.mem_singleton.mp hlive)

theorem Accounted.revoke (h : Accounted w) (thread : ℕ) (token : String) :
    Accounted (w.after thread (.save false .due) (revokeToken token w.manager)) := by
  refine h.change thread false w.holder ?_ ?_
  · intro token' hmem
    exact h.known token' (List.mem_filter.mp hmem).1
  · intro token' hmem
    have hold : token' ∈ w.manager.revoked →
        (w.manager.objects.get? token').isSome = true ∧
          token' ∉ w.manager.live.filter fun t => !decide (t = token) := by
      intro hmem
      obtain ⟨hissued, hnot⟩ := h.gone token' hmem
      exact ⟨hissued, fun hlive => hnot (List.mem_filter.mp hlive).1⟩
    by_cases hissued : (w.manager.objects.get? token).isSome
    · have hcons : token' ∈ token :: w.manager.revoked := by
        simpa only [hissued, if_true] using hmem
      rcases List.mem_cons.mp hcons with rfl | hmem
      · exact ⟨hissued, by simp [Manager.drop]⟩
      · exact hold hmem
    · exact hold (by simpa only [hissued, Bool.false_eq_true, if_false] using hmem)

theorem Accounted.relabel (h : Accounted w) (thread : ℕ) (oldUsername newUsername : String) :
    Accounted (w.after thread (.save false .due)
      (w.manager.relabel naming oldUsername newUsername)) := by
  refine h.change thread false w.holder ?_ ?_
  · intro token hmem
    exact (relabel_isSome ..).trans (h.known token hmem)
  · intro token hmem
    obtain ⟨hissued, hnot⟩ := h.gone token hmem
    exact ⟨(relabel_isSome ..).trans hissued, hnot⟩

/-- Every step that writes in order keeps the sessions owed. -/
theorem Accounted.move {w' : World} {label : Label} (h : Accounted w)
    (hordered : writtenInOrder w label) (hmove : Move naming w label w') : Accounted w' := by
  cases hmove with
  | refused => exact h
  | created _ hcreate =>
    obtain ⟨-, hmanager⟩ := Option.ite_none_left_eq_some.mp hcreate
    obtain rfl := Option.some.inj hmanager
    exact h.of_users rfl rfl rfl rfl rfl
  | deleted _ hidle hdelete =>
    obtain ⟨-, hmanager⟩ := Option.ite_none_left_eq_some.mp hdelete
    obtain rfl := Option.some.inj hmanager
    exact h.of_users rfl rfl rfl rfl (after_same _ (writings_of_idle hidle) rfl)
  | renamed _ hidle hrename =>
    obtain ⟨-, hmap⟩ := Option.ite_none_left_eq_some.mp hrename
    obtain ⟨account, -, rfl⟩ := Option.map_eq_some_iff.mp hmap
    exact h.of_users rfl rfl rfl rfl (after_same _ (writings_of_idle hidle) rfl)
  | @issued thread username token now manager hidle hfresh hcreate =>
    exact h.issue thread hfresh hcreate
  | @dropped thread hidle locked holder p => exact h.drop thread locked holder p
  | @revoked thread hidle token => exact h.revoke thread token
  | @purged thread username hcall => exact h.drop thread false w.holder _
  | nothingPurged hcall hnone => exact h.of_same rfl rfl (returned_same (writings_eq hcall))
  | @relabelled thread oldUsername newUsername hcall =>
    exact h.relabel thread oldUsername newUsername
  | nothingRelabelled hcall hnone => exact h.of_same rfl rfl (returned_same (writings_eq hcall))
  | @taken thread locked hcall =>
    refine ⟨?_, h.known, h.gone⟩
    have hsnapshot : w.manager.stored w.manager.live = w.manager.stored w.manager.live := rfl
    have howed := h.owed.take thread hsnapshot
    rw [← save_writings w thread locked _ w.manager] at howed
    exact howed
  | @filled thread locked number snapshot hlabel hcall =>
    have hnewer : w.file.written < number := by
      simpa [writtenInOrder, hlabel, hcall] using hordered
    refine ⟨?_, h.known, h.gone⟩
    have howed := h.owed.fill (writings_eq hcall) hnewer
    rw [← save_writings w thread locked _ w.manager] at howed
    exact howed
  | replaced holder hcall =>
    refine ⟨?_, h.known, h.gone⟩
    have howed := h.owed.replace (writings_eq hcall)
    rw [← returned_writings] at howed
    exact howed

/-- In every run whose snapshots are written in the order they are taken, the file has the
sessions in memory whenever no thread is in a call. -/
theorem settles_of_writtenInOrder {w : World}
    (hw : (threads naming).ReachableWhere writtenInOrder w) : Settles w := by
  have haccounted : Accounted w :=
    hw.invariant (fun _ h => accounted_started h) fun _ _ _ h hordered hstep =>
      h.move hordered (move_of_step hstep)
  intro hidle
  have hcontent := haccounted.owed.settled fun thread => writings_of_idle (hidle thread)
  refine ⟨hcontent, ?_⟩
  rintro token hrevoked now entry hentry rfl
  rw [hcontent] at hentry
  obtain ⟨token, hlive, hsome⟩ := List.mem_filterMap.mp (List.mem_filter.mp hentry).1
  obtain ⟨session, -, rfl⟩ := Option.map_eq_some_iff.mp hsome
  exact (haccounted.gone token hrevoked).2 hlive

/-! ## Two threads -/

/-- A manager with the administrator `owner` and no session. -/
def ownerOnly : World :=
  { manager :=
      { users := Dict.empty.set "owner"
          { serial := 0
            passwordHash := "$2b$12$owner"
            created := 1000
            isAdmin := true
            privileges := adminPrivileges }
        created := 1
        objects := Dict.empty
        live := []
        revoked := [] }
    threads := Dict.empty
    holder := none
    file :=
      { content := []
        temporary := none
        taken := 0
        written := 0 } }

theorem started_ownerOnly : Started ownerOnly where
  threads := fun _ => rfl
  holder := rfl
  content := rfl
  temporary := rfl
  counted := rfl
  known := by simp [ownerOnly]
  revoked := rfl

/-- One thread issues a session and another revokes it, each saving before the other writes. -/
def inTurn : List Label :=
  [.createSessionTrusted 1 "owner" "4f1d" 2000, .advance 1, .advance 1, .advance 1,
    .revokeToken 2 "4f1d", .advance 2, .advance 2, .advance 2]

/-- The first thread has its snapshot and is overtaken by the second. -/
def overtaken : List Label :=
  [.createSessionTrusted 1 "owner" "4f1d" 2000, .advance 1,
    .revokeToken 2 "4f1d", .advance 2, .advance 2, .advance 2,
    .advance 1, .advance 1]

theorem settles_inTurn : ∃ w, ((threads plain).exec writtenInOrder ownerOnly inTurn) = some w ∧
    w.manager.revoked = ["4f1d"] ∧ Settles w := by
  obtain ⟨w, hw, hrevoked⟩ : ∃ w, (threads plain).exec writtenInOrder ownerOnly inTurn = some w ∧
      w.manager.revoked = ["4f1d"] :=
    ⟨_, rfl, rfl⟩
  exact ⟨w, hw, hrevoked, settles_of_writtenInOrder
    (TransitionSystem.reachableWhere_of_exec started_ownerOnly hw)⟩

/-- The session that was revoked is in the file when both threads are done. -/
theorem not_settles_overtaken : ∃ w, (threads plain).Reachable w ∧ ¬ Settles w := by
  obtain ⟨w, hw, hrevoked, hidle, hentry⟩ : ∃ w,
      (threads plain).exec TransitionSystem.anyStep ownerOnly overtaken = some w ∧
      w.manager.revoked = ["4f1d"] ∧ w.threads.items = [] ∧
      loadSessions 3000 w.file.content =
        [{ token := "4f1d", username := "owner", expiry := 606800 }] :=
    ⟨_, rfl, rfl, rfl, by decide⟩
  refine ⟨w, TransitionSystem.reachableWhere_of_exec started_ownerOnly hw, ?_⟩
  intro hsettles
  have hall : ∀ thread, w.idle thread := by
    intro thread
    rw [World.idle, Dict.get?, hidle]
    rfl
  obtain ⟨-, hgone⟩ := hsettles hall
  have hrevoked' : "4f1d" ∈ w.manager.revoked := by
    rw [hrevoked]
    exact List.mem_singleton_self _
  have hmem : { token := "4f1d", username := "owner", expiry := 606800 } ∈
      loadSessions 3000 w.file.content := by
    rw [hentry]
    exact List.mem_singleton_self _
  exact hgone "4f1d" hrevoked' 3000 _ hmem rfl

end Pandamonium.Auth
