import Pandamonium.Analysis.MemoryLinks
import Pandamonium.Library.FailingReads
import Pandamonium.Model.RecordFiles

/-!
# Reads that fail

A failure to read a record file is taken for an empty file.  An operation that looks for a record
then finds none and writes nothing; one that adds a record writes a file with this record alone
(`not_retainsRecords_launch`).  A failed read of the memories can also replace them by the lines of
an old text file, whatever the operation.  `retainsRecords_iff` says for every operation of the four
stores when the records are still there.
-/

set_option autoImplicit false

namespace Pandamonium

open Pandamonium.Library

/-! ## The worker broker -/

namespace Broker

/-- The task or the binding with a key. -/
def Store.Has (s : Store) : String ⊕ String → Task ⊕ Binding → Prop
  | .inl taskId, .inl task => s.tasks.get? taskId = some task
  | .inr key, .inr binding => s.bindings.get? key = some binding
  | _, _ => False

/-- What an operation makes of an empty file. -/
def FileOperation.writes : FileOperation → FailingReads.Writes (String ⊕ String) (Task ⊕ Binding)
  | .saveBinding task codexThreadId workerSessionKey =>
    if truthyText codexThreadId || truthyText workerSessionKey then
      .upsert (.inr (bindingKey task.owner task.sessionId task.worker task.workspace))
    else .nothing
  | .saveTask task => .upsert (.inl task.taskId)
  | _ => .nothing

theorem saveTask_has (task : Task) {key : String ⊕ String} {record : Task ⊕ Binding}
    (h : (saveTask Store.empty task).Has key record) : key = .inl task.taskId := by
  rcases key with key | key <;> rcases record with record | record
  · rw [Store.Has, saveTask, Dict.get?_set] at h
    split at h
    · rename_i heq
      rw [heq]
    · cases h
  · cases h
  · cases h
  · cases h

theorem saveBinding_has (task : Task) {codexThreadId workerSessionKey : Option String}
    (htruthy : (truthyText codexThreadId || truthyText workerSessionKey) = true)
    {key : String ⊕ String} {record : Task ⊕ Binding}
    (h : (saveBinding Store.empty task codexThreadId workerSessionKey).Has key record) :
    key = .inr (bindingKey task.owner task.sessionId task.worker task.workspace) := by
  rw [saveBinding, if_pos htruthy] at h
  rcases key with key | key <;> rcases record with record | record
  · cases h
  · cases h
  · cases h
  · rw [Store.Has, Dict.get?_set] at h
    split at h
    · rename_i heq
      rw [heq]
    · cases h

/-- The file of the worker broker. -/
def file (cfg : Config) :
    FailingReads.Kind Store FileOperation (String ⊕ String) (Task ⊕ Binding) where
  Has := Store.Has
  empty := Store.empty
  apply := FileOperation.apply cfg
  writes := FileOperation.writes
  nothing := by
    intro op hnothing
    cases op with
    | configure => rfl
    | saveBinding task codexThreadId workerSessionKey =>
      simp only [FileOperation.writes] at hnothing
      split at hnothing
      · cases hnothing
      · rename_i hfalsy
        simp only [FileOperation.apply, if_neg hfalsy]
    | saveTask task => cases hnothing
    | appendEvent taskId e o => rfl
    | read => rfl
  upsert := by
    intro op key hupsert
    cases op with
    | configure => cases hupsert
    | saveBinding task codexThreadId workerSessionKey =>
      simp only [FileOperation.writes] at hupsert
      split at hupsert
      · rename_i htruthy
        cases hupsert
        refine ⟨_, by rw [FileOperation.apply, if_pos htruthy], ?_, ?_⟩
        · rw [saveBinding, if_pos htruthy]
          exact ⟨.inr _, Dict.get?_set_self _ _ _⟩
        · exact fun _ _ h => saveBinding_has task htruthy h
      · cases hupsert
    | saveTask task =>
      cases hupsert
      exact ⟨_, rfl, ⟨.inl task, Dict.get?_set_self _ _ _⟩, fun _ _ h => saveTask_has task h⟩
    | appendEvent taskId e o => cases hupsert
    | read => cases hupsert
  insert := by
    intro op key record hinsert
    cases op with
    | saveBinding task codexThreadId workerSessionKey =>
      simp only [FileOperation.writes] at hinsert
      split at hinsert <;> cases hinsert
    | configure => cases hinsert
    | saveTask task => cases hinsert
    | appendEvent taskId e o => cases hinsert
    | read => cases hinsert

end Broker

/-! ## The learning candidates -/

namespace Learning

inductive Key
  | candidate (id : String)
  | promotion (id : String)
  | monitoring (id : String)

inductive Record
  | candidate (candidate : Candidate)
  | promotion (p : Promotion)
  | monitoring (metrics : Metrics)

/-- The record with a key. -/
def Store.Has (s : Store) : Key → Record → Prop
  | .candidate id, .candidate candidate => s.candidates.get? id = some candidate
  | .promotion id, .promotion p => p ∈ s.promotions ∧ p.promotionId = id
  | .monitoring id, .monitoring metrics => s.monitoring.get? id = some metrics
  | _, _ => False

/-- What an operation makes of an empty file. -/
def FileOperation.writes : FileOperation → FailingReads.Writes Key Record
  | .createCandidate candidate => .insert (.candidate candidate.candidateId) (.candidate candidate)
  | _ => .nothing

theorem promote_empty (a : Artifacts) (candidateId operatorId : String)
    (ownerScope : Option String) (automatic : Bool) (policy : Policy) (learningEnabled : Bool)
    (drawn now : String) :
    (promote a candidateId operatorId ownerScope automatic policy learningEnabled drawn now
      Store.empty).toOption = none := by
  cases learningEnabled <;> rfl

/-- A file with one candidate has nothing else. -/
theorem insertCandidate_has (candidate : Candidate) (key : Key) (record : Record) :
    Store.Has
        { Store.empty with
          candidates := Store.empty.candidates.set candidate.candidateId candidate } key record ↔
      key = .candidate candidate.candidateId ∧ record = .candidate candidate := by
  have hempty : ∀ id, Store.empty.candidates.get? id = none := fun _ => rfl
  rcases key with id | id | id <;> rcases record with candidate' | p | metrics
  · simp only [Store.Has, Dict.get?_set, hempty]
    by_cases hid : id = candidate.candidateId
    · simp [hid, eq_comm]
    · simp [hid]
  all_goals simp [Store.Has, Store.empty, Dict.empty, Dict.get?, Dict.find]

/-- The file of the learning candidates. -/
def file (a : Artifacts) : FailingReads.Kind Store FileOperation Key Record where
  Has := Store.Has
  empty := Store.empty
  apply := FileOperation.apply a
  writes := FileOperation.writes
  nothing := by
    intro op hnothing
    cases op with
    | createCandidate candidate => cases hnothing
    | evaluate => rfl
    | promote => exact promote_empty a _ _ _ _ _ _ _ _
    | demote => rfl
    | rollback => rfl
    | recordOutcome => rfl
    | read => rfl
  upsert := by
    intro op key hupsert
    cases op <;> cases hupsert
  insert := by
    intro op key record hinsert
    cases op with
    | createCandidate candidate =>
      cases hinsert
      exact ⟨_, rfl, insertCandidate_has candidate⟩
    | evaluate => cases hinsert
    | promote => cases hinsert
    | demote => cases hinsert
    | rollback => cases hinsert
    | recordOutcome => cases hinsert
    | read => cases hinsert

end Learning

/-! ## The background jobs -/

namespace BackgroundJobs

/-- What an operation makes of an empty file. -/
def FileOperation.writes : FileOperation → FailingReads.Writes String Job
  | .launch job => .upsert job.id
  | _ => .nothing

/-- The file of the background jobs. -/
def file : FailingReads.Kind Jobs FileOperation String Job where
  Has := fun jobs id job => jobs.get? id = some job
  empty := Dict.empty
  apply := FileOperation.apply
  writes := FileOperation.writes
  nothing := by
    intro op hnothing
    cases op with
    | launch job => cases hnothing
    | refresh s => rfl
    | markFollowedUp id => rfl
    | kill id now => rfl
    | read => rfl
  upsert := by
    intro op key hupsert
    cases op with
    | launch job =>
      cases hupsert
      refine ⟨_, rfl, ⟨job, Dict.get?_set_self _ _ _⟩, ?_⟩
      intro id job' h
      rw [launch, Dict.get?_set] at h
      split at h
      · assumption
      · cases h
    | refresh => cases hupsert
    | markFollowedUp => cases hupsert
    | kill => cases hupsert
    | read => cases hupsert
  insert := by
    intro op key record hinsert
    cases op <;> cases hinsert

end BackgroundJobs

/-! ## The memories -/

namespace MemoryManager

/-- The identifier that an operation may draw. -/
def FileOperation.drawn : FileOperation → List String
  | .request r => [r.drawn]
  | .read => []

/-- The identifiers that are drawn. -/
def Access.drawn (access : Access) : List String :=
  access.op.drawn ++ (access.legacy.getD []).map Prod.snd

/-- An operation whose read fails, with identifiers that no memory has. -/
structure FreshAccess extends Access where
  distinct : toAccess.drawn.Nodup
  unused : ∀ e ∈ before, e.id ∉ toAccess.drawn

/-- All memories are still there. -/
def Access.Retains (access : Access) (failure : ReadFailure) : Prop :=
  ∀ e ∈ access.before, e ∈ access.after failure

/-- The operation adds a memory, whatever it reads. -/
def FileOperation.adds : FileOperation → Bool
  | .read => false
  | .request r =>
    match r.operation with
    | .addMemory text _ _ _ _ => strip text ≠ ""
    | _ => false

/-- An operation that goes on with an empty file writes nothing, or the memory that it adds. -/
theorem apply_nil (op : FileOperation) :
    (op.adds = false ∧ op.apply [] = none) ∨
      op.adds = true ∧ ∃ e, op.apply [] = some [e] ∧ op.drawn = [e.id] := by
  cases op with
  | read => exact Or.inl ⟨rfl, rfl⟩
  | request r =>
    obtain ⟨operation, now, drawn⟩ := r
    cases operation with
    | addMemory text source category owner more =>
      by_cases htext : strip text = ""
      · refine Or.inl ⟨by simp [FileOperation.adds, htext], ?_⟩
        simp [FileOperation.apply, Request.apply, addMemory, addEntry, htext]
      · obtain ⟨e, hadd⟩ : ∃ e, addEntry
            { text := text, source := source, category := .str category, owner := owner } now
              drawn = some e := ⟨_, if_neg htext⟩
        refine Or.inr ⟨by simp [FileOperation.adds, htext],
          { e with fields := e.fields ++ more }, ?_, ?_⟩
        · simp only [FileOperation.apply, Request.apply, addMemory, hadd, Option.map_some,
            List.nil_append]
        · simp only [FileOperation.drawn, (addEntry_eq_some hadd).1]
    | replaceEntry => exact Or.inl ⟨rfl, rfl⟩
    | deleteEntry => exact Or.inl ⟨rfl, rfl⟩
    | decideCandidate => exact Or.inl ⟨rfl, rfl⟩
    | incrementUses => exact Or.inl ⟨rfl, rfl⟩
    | claimOwnerless => exact Or.inl ⟨rfl, rfl⟩
    | pinMemory => exact Or.inl ⟨rfl, rfl⟩

/-- What an operation saves has identifiers that were there or were drawn. -/
theorem apply_ids {entries saved : List Entry} {drawn : List String} (h : Linked entries drawn)
    {op : FileOperation} (hsaved : op.apply entries = some saved) :
    ∀ e ∈ saved, e.id ∈ entries.map Entry.id ∨ e.id ∈ op.drawn := by
  cases op with
  | read => cases hsaved
  | request r =>
    obtain ⟨f, added, rfl, hsucc, hadded⟩ := saves_of_apply h hsaved
    intro e he
    rcases List.mem_append.mp he with he | he
    · obtain ⟨m, hm, rfl⟩ := List.mem_map.mp he
      rw [hsucc.id m hm]
      exact Or.inl (List.mem_map_of_mem hm)
    · rcases hadded with rfl | ⟨e', rfl, hid⟩
      · cases he
      · rw [List.mem_singleton.mp he, hid]
        exact Or.inr (List.mem_singleton_self _)

theorem linked_legacy (now : Int) {lines : List (String × String)}
    (hdistinct : (lines.map Prod.snd).Nodup) :
    Linked (lines.map (legacyEntry now)) (lines.map Prod.snd) := by
  have hids : (lines.map (legacyEntry now)).map Entry.id = lines.map Prod.snd := by
    rw [List.map_map]
    rfl
  have hnone : ∀ e ∈ lines.map (legacyEntry now), ∀ a, e.supersedes ≠ some a := by
    intro e he a ha
    obtain ⟨line, -, rfl⟩ := List.mem_map.mp he
    cases ha
  constructor
  case distinct => rwa [hids]
  case single => exact fun e he _ _ a ha _ => absurd ha (hnone e he a)
  case ended => exact fun e he e' _ ha => absurd ha (hnone e he e'.id)
  case drawn =>
    intro e he
    refine ⟨?_, fun a ha => absurd ha (hnone e he a)⟩
    rw [← hids]
    exact List.mem_map_of_mem he

namespace FreshAccess

variable (access : FreshAccess)

/-- A file in which all identifiers were drawn has none of the memories. -/
theorem lost_iff {after : List Entry} (h : ∀ e ∈ after, e.id ∈ access.drawn) :
    (∀ e ∈ access.before, e ∈ after) ↔ access.before = [] := by
  constructor
  · intro hkept
    rw [List.eq_nil_iff_forall_not_mem]
    intro e he
    exact access.unused e he (h e (hkept e he))
  · intro hempty e he
    rw [hempty] at he
    cases he

theorem goOn_nil_iff : (∀ e ∈ access.before, e ∈ access.goOn access.before []) ↔
    access.op.adds = false ∨ access.before = [] := by
  unfold Access.goOn
  rcases apply_nil access.op with ⟨hadds, happly⟩ | ⟨hadds, e, happly, hdrawn⟩
  · rw [happly, hadds]
    exact ⟨fun _ => Or.inl rfl, fun _ e he => he⟩
  · rw [happly, hadds, Option.getD_some]
    simp only [Bool.true_eq_false, false_or]
    apply access.lost_iff
    intro e' he'
    rw [List.mem_singleton.mp he', Access.drawn, hdrawn]
    exact List.mem_append_left _ (List.mem_singleton_self _)

theorem goOn_legacy_iff {lines : List (String × String)} (hlegacy : access.legacy = some lines) :
    (∀ e ∈ access.before, e ∈ access.goOn (lines.map (legacyEntry access.now))
      (lines.map (legacyEntry access.now))) ↔ access.before = [] := by
  have hdrawn : access.drawn = access.op.drawn ++ lines.map Prod.snd := by
    rw [Access.drawn, hlegacy, Option.getD_some]
  have hids : (lines.map (legacyEntry access.now)).map Entry.id = lines.map Prod.snd := by
    rw [List.map_map]
    rfl
  apply access.lost_iff
  intro e he
  rw [hdrawn]
  unfold Access.goOn at he
  cases happly : access.op.apply (lines.map (legacyEntry access.now)) with
  | none =>
    rw [happly, Option.getD_none] at he
    rw [← hids]
    exact List.mem_append_right _ (List.mem_map_of_mem he)
  | some saved =>
    rw [happly, Option.getD_some] at he
    have hdistinct : (lines.map Prod.snd).Nodup :=
      (List.nodup_append.mp (hdrawn ▸ access.distinct)).2.1
    rcases apply_ids (linked_legacy access.now hdistinct) happly e he with hid | hid
    · rw [hids] at hid
      exact List.mem_append_right _ hid
    · exact List.mem_append_left _ hid

end FreshAccess

/-- The failure is raised, or the operation goes on with an empty list and adds nothing. -/
def Access.harmless (access : Access) : ReadFailure → Prop
  | .missing => access.op.adds = false
  | .permission => access.legacy = none ∧ access.op.adds = false
  | .malformed => access.legacy = none ∧ access.op.adds = false
  | .io => True
  | .undecodable => True

theorem retains_iff (access : FreshAccess) (failure : ReadFailure) :
    access.Retains failure ↔ access.harmless failure ∨ access.before = [] := by
  have hmigrate : (∀ e ∈ access.before, e ∈ access.migrate) ↔
      access.legacy = none ∧ access.op.adds = false ∨ access.before = [] := by
    unfold Access.migrate
    cases hlegacy : access.legacy with
    | none => simpa only [true_and] using access.goOn_nil_iff
    | some lines =>
      simpa only [reduceCtorEq, false_and, false_or] using access.goOn_legacy_iff hlegacy
  cases failure with
  | missing => exact access.goOn_nil_iff
  | permission => exact hmigrate
  | malformed => exact hmigrate
  | io => exact ⟨fun _ => Or.inl trivial, fun _ _ he => he⟩
  | undecodable => exact ⟨fun _ => Or.inl trivial, fun _ _ he => he⟩

end MemoryManager

/-! ## The four stores -/

/-- An operation on one of the stores, with what is in its file. -/
inductive RecordAccess
  | broker (op : Broker.FileOperation) (before : Broker.Store)
  | learning (op : Learning.FileOperation) (before : Learning.Store)
  | jobs (op : BackgroundJobs.FileOperation) (before : BackgroundJobs.Jobs)
  | memory (access : MemoryManager.FreshAccess)

variable (cfg : Broker.Config) (a : Learning.Artifacts)

/-- Every record that was in the file when it could not be read is in the file behind the
operation. -/
def RetainsRecords (failure : ReadFailure) : RecordAccess → Prop
  | .broker op before =>
    (Broker.file cfg).Retains op before
      ((Broker.file cfg).afterFailure (Broker.takenForEmpty failure) op before)
  | .learning op before =>
    (Learning.file a).Retains op before
      ((Learning.file a).afterFailure (Learning.takenForEmpty failure) op before)
  | .jobs op before =>
    BackgroundJobs.file.Retains op before
      (BackgroundJobs.file.afterFailure (BackgroundJobs.takenForEmpty failure) op before)
  | .memory access => access.Retains failure

/-- The failure is raised, or the operation writes nothing when it finds nothing, or it writes all
that there is. -/
def Harmless (failure : ReadFailure) : RecordAccess → Prop
  | .broker op before =>
    failure = .undecodable ∨ op.writes = .nothing ∨ (Broker.file cfg).Covered op before
  | .learning op before => op.writes = .nothing ∨ (Learning.file a).Covered op before
  | .jobs op before => op.writes = .nothing ∨ BackgroundJobs.file.Covered op before
  | .memory access => access.harmless failure ∨ access.before = []

/-- For every operation of the four stores and every failure, the records are still there exactly
when the failure is raised, the operation writes nothing, or it writes all that there is. -/
theorem retainsRecords_iff (failure : ReadFailure) (access : RecordAccess) :
    RetainsRecords cfg a failure access ↔ Harmless cfg a failure access := by
  cases access with
  | broker op before =>
    have htaken : Broker.takenForEmpty failure = false ↔ failure = .undecodable := by
      cases failure <;> simp [Broker.takenForEmpty]
    rw [RetainsRecords, FailingReads.Kind.retains_iff, htaken]
    rfl
  | learning op before =>
    rw [RetainsRecords, FailingReads.Kind.retains_iff]
    simp only [Learning.takenForEmpty, Bool.true_eq_false, false_or]
    rfl
  | jobs op before =>
    rw [RetainsRecords, FailingReads.Kind.retains_iff]
    simp only [BackgroundJobs.takenForEmpty, Bool.true_eq_false, false_or]
    rfl
  | memory access => exact MemoryManager.retains_iff access failure

/-! ## A job that is launched -/

/-- A job that runs. -/
def backup : BackgroundJobs.Job := BackgroundJobs.newJob "4f1d" "chat" "make backup" 71 3600 1000

/-- Another job. -/
def report : BackgroundJobs.Job := BackgroundJobs.newJob "92ac" "chat" "make report" 72 3600 1001

/-- No sessions and no adapters. -/
def Broker.Config.bare : Broker.Config where
  sessionOwner := fun _ => none
  adapters := fun _ => none
  strip := Pandamonium.strip

/-- The file is not read and the running job is lost. -/
theorem not_retainsRecords_launch :
    ¬ RetainsRecords .bare .plain .io (.jobs (.launch report) (Dict.empty.set "4f1d" backup)) := by
  intro hretains
  rcases hretains "4f1d" backup (Dict.get?_set_self _ _ _) with hkept | ⟨hreplaces, -⟩
  · have hnone : (Dict.empty.set "92ac" report : BackgroundJobs.Jobs).get? "4f1d" = none := rfl
    cases hnone.symm.trans hkept
  · have hid : "4f1d" = "92ac" := hreplaces
    exact absurd hid (by decide)

end Pandamonium
