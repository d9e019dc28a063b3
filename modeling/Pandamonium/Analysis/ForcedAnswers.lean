import Pandamonium.Model.AgentLoop
import Mathlib.Algebra.Ring.Nat

/-!
# Forced answers

What a turn of the agent loop is bounded by.  The rounds and the tools are bounded in every turn.
That a forced answer is the last one is not so: the document for a code block is added after the
calls of a forced round were discarded, and a promise, or a lookup in the memories, lets the loop go
on.
-/

set_option autoImplicit false

namespace Pandamonium.AgentLoop

open Pandamonium.Library

variable {turn : Turn} {s s' b : LoopState} {input : RoundInput}

/-- The rounds after the decision to force an answer. -/
def LoopState.forcedRounds (s : LoopState) : List RoundRecord := s.rounds.filter fun r => r.forced

/-- The limits of a turn. -/
structure Bounded (turn : Turn) (s : LoopState) : Prop where
  modelRounds : (s.rounds.countP fun r => r.askedModel) ≤ turn.maxRounds + 1
  toolsRun : 0 < turn.maxToolCalls → (s.rounds.map RoundRecord.toolsRun).sum ≤ turn.maxToolCalls
  noTool : ∀ r ∈ s.forcedRounds, r.toolsRun = 0
  lastRound : (s.forcedRounds.countP fun r => r.askedModel) ≤ 1

/-- Where an answer is forced, the reply has no code block that becomes a document, is no promise as
long as there are nudges left, and does not only look up memories. -/
def Answers (turn : Turn) (s : LoopState) (input : RoundInput) : Prop :=
  s.forceAnswer = true →
    let batch := replyBatch turn input.extraToolNames input.reply
    autoDocument turn input.reply.response { batch with toolBlocks := [] } = none ∧
      ¬ (looksLikePromise turn
          (answerText turn (cleanedRound turn batch.usedNative input.reply.response)) = true ∧
        s.intentNudgeCount < maxIntentNudges) ∧
      onlyLookups turn input.extraToolNames input.reply = false

instance : DecidableRel (Answers turn) := fun s _ =>
  inferInstanceAs (Decidable (s.forceAnswer = true → _ ∧ ¬ (_ ∧ _) ∧ _ = false))

/-! ## What a round does not change -/

/-- What only the begin and the end of a round change. -/
structure SameRound (b s : LoopState) : Prop where
  roundNum : s.roundNum = b.roundNum
  used : s.modelRoundsUsed = b.modelRoundsUsed
  pending : s.approvedExecutionPending = b.approvedExecutionPending
  reserve : s.webSynthesisReserve = b.webSynthesisReserve
  force : s.forceAnswer = b.forceAnswer
  rounds : s.rounds = b.rounds

theorem SameRound.refl (s : LoopState) : SameRound s s := ⟨rfl, rfl, rfl, rfl, rfl, rfl⟩

theorem SameRound.trans (h : SameRound b s) (h' : SameRound s s') : SameRound b s' where
  roundNum := h'.roundNum.trans h.roundNum
  used := h'.used.trans h.used
  pending := h'.pending.trans h.pending
  reserve := h'.reserve.trans h.reserve
  force := h'.force.trans h.force
  rounds := h'.rounds.trans h.rounds

section Blocks

variable (turn) (block : ToolBlock) (o : Outcome)

theorem recordRepeatedApiFailure_eq (s : LoopState) : ∃ freq outcome,
    recordRepeatedApiFailure turn block o s =
      { s with failedOutcomeFreq := freq, repeatedFailedOutcome := outcome } := by
  unfold recordRepeatedApiFailure
  split
  · exact ⟨_, _, rfl⟩
  · exact ⟨_, _, rfl⟩

theorem sameRound_handleBlock (s : LoopState) : SameRound s (handleBlock turn block o s) := by
  obtain ⟨freq, outcome, h⟩ := recordRepeatedApiFailure_eq turn block o s
  simp only [handleBlock, h]
  exact ⟨rfl, rfl, rfl, rfl, rfl, rfl⟩

theorem totalToolCalls_handleBlock (s : LoopState) :
    (handleBlock turn block o s).totalToolCalls = s.totalToolCalls + 1 := by
  obtain ⟨freq, outcome, h⟩ := recordRepeatedApiFailure_eq turn block o s
  simp only [handleBlock, h]

theorem toolEvents_handleBlock (s : LoopState) : (handleBlock turn block o s).toolEvents =
    s.toolEvents ++ [⟨s.roundNum, block.toolType, o.succeeded⟩] := by
  obtain ⟨freq, outcome, h⟩ := recordRepeatedApiFailure_eq turn block o s
  simp only [handleBlock, h]

end Blocks

/-! ## What executing blocks does -/

/-- What the execution of blocks changes of the state it begins with. -/
structure Executes (turn : Turn) (b : LoopState) (blocks : List (ToolBlock × Option NativeCall))
    (run : BatchRun) : Prop where
  same : SameRound b run.state
  counted : run.state.totalToolCalls = b.totalToolCalls + run.executed.length
  bounded : 0 < turn.maxToolCalls → b.totalToolCalls ≤ turn.maxToolCalls →
    run.state.totalToolCalls ≤ turn.maxToolCalls
  events : ∀ e ∈ run.state.toolEvents, e ∈ b.toolEvents ∨
    (e.round = b.roundNum ∧ ∃ block ∈ blocks, e.tool = block.1.toolType)

/-- One block, and the run of those behind it, which may be empty. -/
theorem Executes.cons {block : ToolBlock} {call : Option NativeCall} {o : Outcome}
    {rest : List (ToolBlock × Option NativeCall)} {run : BatchRun} {execution : Execution}
    (hleft : budgetLeft turn b = true)
    (h : Executes turn (handleBlock turn block o b) rest run) :
    Executes turn b ((block, call) :: rest) { run with executed := execution :: run.executed } where
  same := (sameRound_handleBlock turn block o b).trans h.same
  counted := by
    have hrun := h.counted
    rw [totalToolCalls_handleBlock] at hrun
    simp only [List.length_cons]
    omega
  bounded := by
    intro hpos _
    apply h.bounded hpos
    rw [totalToolCalls_handleBlock]
    simp only [budgetLeft, decide_eq_true_eq] at hleft
    omega
  events := by
    intro e he
    have hround := (sameRound_handleBlock turn block o b).roundNum
    cases h.events e he with
    | inl hold =>
      rw [toolEvents_handleBlock, List.mem_append, List.mem_singleton] at hold
      cases hold with
      | inl hold => exact .inl hold
      | inr hnew =>
        subst hnew
        exact .inr ⟨rfl, (block, call), List.mem_cons_self, rfl⟩
    | inr hnew =>
      obtain ⟨hr, other, hother, htool⟩ := hnew
      exact .inr ⟨hr.trans hround, other, List.mem_cons_of_mem _ hother, htool⟩

theorem executes_nothing (blocks : List (ToolBlock × Option NativeCall))
    (budgetHit terminal retryable : Bool) :
    Executes turn b blocks ⟨b, [], budgetHit, terminal, retryable⟩ where
  same := SameRound.refl b
  counted := by simp
  bounded := fun _ h => h
  events := fun _ he => .inl he

theorem executes_executeBlocks (outcome : ℕ → Outcome)
    (blocks : List (ToolBlock × Option NativeCall)) (i : ℕ) (b : LoopState) :
    Executes turn b blocks (executeBlocks turn outcome i b blocks) := by
  induction blocks generalizing i b with
  | nil => exact executes_nothing [] false false false
  | cons pair rest ih =>
    obtain ⟨block, call⟩ := pair
    unfold executeBlocks
    cases hleft : budgetLeft turn b with
    | false => exact executes_nothing _ true false false
    | true =>
      simp only [Bool.not_true, Bool.false_eq_true, if_false]
      split
      · exact Executes.cons hleft (executes_nothing rest _ _ _)
      · exact Executes.cons hleft (ih (i + 1) (handleBlock turn block (outcome i) b))

/-! ## What a round does -/

/-- What a round that begins with `b` has changed before it is recorded. -/
structure Changes (turn : Turn) (b s : LoopState) (executed : List Execution) : Prop where
  rounds : s.rounds = b.rounds
  roundNum : s.roundNum = b.roundNum
  used : s.modelRoundsUsed = b.modelRoundsUsed
  pending : s.approvedExecutionPending = b.approvedExecutionPending
  force : b.forceAnswer = true → s.forceAnswer = true
  counted : b.totalToolCalls + executed.length ≤ s.totalToolCalls
  bounded : 0 < turn.maxToolCalls → b.totalToolCalls ≤ turn.maxToolCalls →
    s.totalToolCalls ≤ turn.maxToolCalls
  events : ∀ e ∈ s.toolEvents, e ∈ b.toolEvents ∨
    (e.round = b.roundNum ∧ (b.forceAnswer = true → e.tool = "create_document"))
  reserve : s.webSynthesisReserve = true → b.webSynthesisReserve = true ∨
    (s.forceAnswer = true ∧
      ∃ e ∈ s.toolEvents, e.round = b.roundNum ∧ e.tool = "web_search")

/-- The round, and what it records. -/
structure RoundEffect (turn : Turn) (resumed : Bool) (b s : LoopState) (r : RoundRecord) :
    Prop where
  rounds : s.rounds = b.rounds ++ [r]
  asked : r.askedModel = !resumed
  forced : r.forced = b.forceAnswer
  changes : ∃ u, Changes turn b u r.executed ∧ s = { u with rounds := s.rounds }

variable {executed : List Execution}

theorem Changes.noted (h : Changes turn b s executed) (resumed : Bool) (fedBack : Option Feedback) :
    RoundEffect turn resumed b (s.noted (!resumed) b.forceAnswer executed fedBack)
      ⟨!resumed, b.forceAnswer, executed, fedBack⟩ where
  rounds := by simp only [LoopState.noted, h.rounds]
  asked := rfl
  forced := rfl
  changes := ⟨s, h, rfl⟩

theorem Changes.refl (b : LoopState) : Changes turn b b [] where
  rounds := rfl
  roundNum := rfl
  used := rfl
  pending := rfl
  force := id
  counted := Nat.le_refl _
  bounded := fun _ h => h
  events := fun _ he => .inl he
  reserve := .inl

theorem changes_withoutTools (answer : String) (verifierFails : Bool) (b : LoopState) :
    Changes turn b (withoutTools turn answer verifierFails b) [] := by
  obtain ⟨hrounds, hnum, hused, hpending, hforce, hcounted, hbounded, hevents, hreserve⟩ :=
    Changes.refl b
  unfold withoutTools
  split
  · exact ⟨hrounds, hnum, hused, hpending, fun _ => rfl, hcounted, hbounded, hevents, .inl⟩
  split
  · exact ⟨hrounds, hnum, hused, hpending, hforce, hcounted, hbounded, hevents, hreserve⟩
  split
  · exact ⟨hrounds, hnum, hused, hpending, hforce, hcounted, hbounded, hevents, hreserve⟩
  · exact ⟨hrounds, hnum, hused, hpending, hforce, hcounted, hbounded, hevents, hreserve⟩

/-- A document that is made of a reply is made by `create_document`. -/
theorem toolType_autoDocument {response : String} {batch : Batch} {doc : ToolBlock}
    (h : autoDocument turn response batch = some doc) : doc.toolType = "create_document" := by
  unfold autoDocument at h
  split at h
  · cases h
  split at h
  · cases h
  obtain ⟨tagged, _, hdoc⟩ := List.exists_of_findSome?_eq_some h
  unfold documentBlock at hdoc
  simp only at hdoc
  split at hdoc
  · cases hdoc
  split at hdoc
  · cases hdoc
  · cases hdoc
    rfl

theorem executedBlocks_forced (response : String) (batch : Batch) :
    executedBlocks turn true response batch =
      (autoDocument turn response { batch with toolBlocks := [] }).toList := rfl

/-- Where an answer is forced, only documents are executed. -/
theorem forced_executedBlocks {response : String} {batch : Batch} {block : ToolBlock}
    (h : block ∈ executedBlocks turn true response batch) : block.toolType = "create_document" := by
  rw [executedBlocks_forced, Option.mem_toList] at h
  exact toolType_autoDocument h

/-- The blocks of a round, executed after they were counted. -/
theorem changes_executeBlocks {blocks : List ToolBlock} (batch : Batch) (answer : String)
    (outcome : ℕ → Outcome)
    (hblocks : b.forceAnswer = true → ∀ block ∈ blocks, block.toolType = "create_document") :
    let c := countCalls blocks answer b
    let run := executeBlocks turn outcome 0 c (withCalls c.forceAnswer blocks batch)
    Changes turn b run.state run.executed := by
  intro c run
  obtain ⟨hsame, hcount, hbound, hevents⟩ : Executes turn c _ run :=
    executes_executeBlocks outcome (withCalls c.forceAnswer blocks batch) 0 c
  exact
    { rounds := hsame.rounds
      roundNum := hsame.roundNum
      used := hsame.used
      pending := hsame.pending
      force := fun hf => hsame.force.trans hf
      counted := Nat.le_of_eq hcount.symm
      bounded := hbound
      reserve := fun hr => .inl (hsame.reserve.symm.trans hr)
      events := by
        intro e he
        cases hevents e he with
        | inl hold => exact .inl hold
        | inr hnew =>
          obtain ⟨hround, pair, hpair, htool⟩ := hnew
          refine .inr ⟨hround, fun hf => ?_⟩
          obtain ⟨i, hi, hmem⟩ := List.mem_mapIdx.mp hpair
          rw [htool, ← hmem]
          exact hblocks hf _ (List.getElem_mem hi) }

theorem Changes.stopped (h : Changes turn b s executed) :
    Changes turn b { s with status := .stopped } executed :=
  ⟨h.rounds, h.roundNum, h.used, h.pending, h.force, h.counted, h.bounded, h.events, h.reserve⟩

theorem exists_of_earnsSynthesis {resumed : Bool} (h : earnsSynthesis turn resumed s = true) :
    ∃ e ∈ s.toolEvents, e.round = s.roundNum ∧ e.tool = "web_search" := by
  simp only [earnsSynthesis, Bool.and_eq_true, List.any_eq_true, decide_eq_true_eq] at h
  obtain ⟨_, e, he, ⟨hround, htool⟩, _⟩ := h
  exact ⟨e, he, hround, htool⟩

theorem Changes.afterFailure (h : Changes turn b s executed) :
    Changes turn b { s with forceAnswer := true, repeatedFailedOutcome := none } executed :=
  ⟨h.rounds, h.roundNum, h.used, h.pending, fun _ => rfl, h.counted, h.bounded, h.events,
    fun hr => (h.reserve hr).imp_right fun ⟨_, he⟩ => ⟨rfl, he⟩⟩

theorem Changes.afterSearch (h : Changes turn b s executed) {resumed : Bool}
    (hearns : earnsSynthesis turn resumed s = true) :
    Changes turn b { s with forceAnswer := true, webSynthesisReserve := true } executed :=
  ⟨h.rounds, h.roundNum, h.used, h.pending, fun _ => rfl, h.counted, h.bounded, h.events,
    fun _ => .inr ⟨rfl, h.roundNum ▸ exists_of_earnsSynthesis hearns⟩⟩

theorem Changes.afterFeedback (h : Changes turn b s executed) (resumed : Bool) :
    Changes turn b (afterFeedback turn resumed s) executed := by
  have hfirst : Changes turn b
      (if s.repeatedFailedOutcome.isSome then
        { s with forceAnswer := true, repeatedFailedOutcome := none }
      else s) executed := by
    split
    · exact h.afterFailure
    · exact h
  unfold AgentLoop.afterFeedback
  dsimp only
  generalize (if s.repeatedFailedOutcome.isSome then
      { s with forceAnswer := true, repeatedFailedOutcome := none }
    else s) = t at hfirst ⊢
  split
  · rename_i hearns
    exact hfirst.afterSearch hearns
  · exact hfirst

theorem toolsRun_le (r : RoundRecord) : r.toolsRun ≤ r.executed.length := List.countP_le_length

theorem effect_afterReply (resumed : Bool) (reply : Reply) (input : RoundInput) (b : LoopState) :
    ∃ r, RoundEffect turn resumed b (afterReply turn resumed reply input b) r := by
  unfold afterReply
  dsimp only
  split
  · exact ⟨_, Changes.noted (b := b) (s := { b with forceAnswer := true })
      ⟨rfl, rfl, rfl, rfl, fun _ => rfl, Nat.le_refl _, fun _ h => h, fun _ he => .inl he, .inl⟩
      resumed none⟩
  generalize replyBatch turn input.extraToolNames reply = batch
  generalize answerText turn (cleanedRound turn batch.usedNative reply.response) = answer
  have hblocks : b.forceAnswer = true →
      ∀ block ∈ executedBlocks turn b.forceAnswer reply.response batch,
        block.toolType = "create_document" := by
    intro hf block hblock
    rw [hf] at hblock
    exact forced_executedBlocks hblock
  split
  · exact ⟨_, (changes_withoutTools answer input.verifierFails b).noted resumed none⟩
  split
  · exact ⟨_, Changes.noted (b := b)
      (s := { countCalls _ answer b with forceAnswer := true })
      ⟨rfl, rfl, rfl, rfl, fun _ => rfl, Nat.le_refl _, fun _ h => h, fun _ he => .inl he, .inl⟩
      resumed none⟩
  have hrun : Changes turn _ _ _ := changes_executeBlocks batch answer input.outcome hblocks
  unfold withTools
  dsimp only
  split
  · exact ⟨_, hrun.noted resumed _⟩
  split
  · exact ⟨_, hrun.stopped.noted resumed none⟩
  · exact ⟨_, (hrun.afterFeedback resumed).noted resumed _⟩

/-! ## The limits, in every turn -/

theorem beginRound_cases {resumed : Bool} (h : beginRound turn s = some (resumed, b)) :
    (resumed = true ∧ s.approvedExecutionPending = true ∧
      b = { s with roundNum := s.roundNum + 1, approvedExecutionPending := false }) ∨
    (resumed = false ∧ s.approvedExecutionPending = false ∧ s.webSynthesisReserve = true ∧
      b = { s with roundNum := s.roundNum + 1, webSynthesisReserve := false }) ∨
    (resumed = false ∧ s.approvedExecutionPending = false ∧ s.webSynthesisReserve = false ∧
      s.modelRoundsUsed < turn.maxRounds ∧
      b = { s with roundNum := s.roundNum + 1, modelRoundsUsed := s.modelRoundsUsed + 1 }) := by
  unfold beginRound at h
  split at h
  · cases h
  dsimp only at h
  cases hpending : s.approvedExecutionPending with
  | true =>
    simp only [hpending, if_true, Option.some.injEq, Prod.mk.injEq] at h
    exact .inl ⟨h.1.symm, rfl, h.2.symm⟩
  | false =>
    simp only [hpending, Bool.false_eq_true, if_false] at h
    cases hreserve : s.webSynthesisReserve with
    | true =>
      simp only [hreserve, if_true, Option.some.injEq, Prod.mk.injEq] at h
      exact .inr (.inl ⟨h.1.symm, rfl, rfl, h.2.symm⟩)
    | false =>
      simp only [hreserve, Bool.false_eq_true, if_false] at h
      split at h
      · cases h
      · rename_i hless
        simp only [Option.some.injEq, Prod.mk.injEq] at h
        exact .inr (.inr ⟨h.1.symm, rfl, rfl, by omega, h.2.symm⟩)

/-- The rounds are counted, the one that synthesises a search apart, and so are the tools. -/
structure Limits (turn : Turn) (s : LoopState) : Prop where
  events : ∀ e ∈ s.toolEvents, e.round ≤ s.roundNum
  used : s.modelRoundsUsed ≤ turn.maxRounds
  asked : (s.rounds.countP fun r => r.askedModel) + s.webSynthesisReserve.toNat ≤
    s.modelRoundsUsed + s.forceAnswer.toNat
  calls : 0 < turn.maxToolCalls → s.totalToolCalls ≤ turn.maxToolCalls
  ran : (s.rounds.map RoundRecord.toolsRun).sum ≤ s.totalToolCalls
  /-- The approved call is the first one. -/
  pending : s.approvedExecutionPending = true → s.forceAnswer = false

theorem limits_begin : Limits turn (LoopState.begin turn) where
  events := fun _ he => absurd he List.not_mem_nil
  used := Nat.zero_le _
  asked := Nat.zero_le _
  calls := fun _ => Nat.zero_le _
  ran := Nat.le_refl 0
  pending := fun _ => rfl

/-- A round that has begun keeps the limits, when the model is counted as asked. -/
theorem limits_beginRound {resumed : Bool} (h : beginRound turn s = some (resumed, b))
    (hs : Limits turn s) :
    (∀ e ∈ b.toolEvents, e.round < b.roundNum) ∧ b.modelRoundsUsed ≤ turn.maxRounds ∧
      (b.rounds.countP fun r => r.askedModel) + (!resumed).toNat + b.webSynthesisReserve.toNat ≤
        b.modelRoundsUsed + b.forceAnswer.toNat ∧
      b.approvedExecutionPending = false ∧ b.rounds = s.rounds ∧
      b.totalToolCalls = s.totalToolCalls := by
  have hevents : ∀ e ∈ s.toolEvents, e.round < s.roundNum + 1 := by
    intro e he
    have hle := hs.events e he
    omega
  have hasked := hs.asked
  obtain ⟨hr, _, hb⟩ | ⟨hr, hp, hres, hb⟩ | ⟨hr, hp, hres, hlt, hb⟩ := beginRound_cases h
  · subst hr hb
    refine ⟨hevents, hs.used, ?_, rfl, rfl, rfl⟩
    simpa using hasked
  · subst hr hb
    refine ⟨hevents, hs.used, ?_, hp, rfl, rfl⟩
    simp only [hres, Bool.toNat_true, Bool.not_false, Bool.toNat_false] at hasked ⊢
    omega
  · subst hr hb
    refine ⟨hevents, hlt, ?_, hp, rfl, rfl⟩
    simp only [hres, Bool.not_false, Bool.toNat_true, Bool.toNat_false] at hasked ⊢
    omega

/-- A round from its begin on keeps the limits. -/
theorem limits_round (hs : Limits turn s) (h : round turn s input = some s') :
    Limits turn s' := by
  unfold round at h
  split at h
  · cases h
  cases hbegin : beginRound turn s with
  | none =>
    simp only [hbegin, Option.some.injEq] at h
    subst h
    exact ⟨hs.events, hs.used, hs.asked, hs.calls, hs.ran, hs.pending⟩
  | some begun =>
    obtain ⟨resumed, b⟩ := begun
    simp only [hbegin, Option.some.injEq] at h
    obtain ⟨hevents, hused, hasked, hpending, hrounds, htotal⟩ := limits_beginRound hbegin hs
    obtain ⟨r, heffect⟩ := effect_afterReply resumed (roundReply turn resumed input) input b
    rw [h] at heffect
    obtain ⟨u, hu, hs'⟩ := heffect.changes
    -- only a round without a forced answer can have searched
    have hsearch : s'.webSynthesisReserve = true → b.webSynthesisReserve = true ∨
        (s'.forceAnswer = true ∧ b.forceAnswer = false) := by
      intro hreserve
      rw [hs'] at hreserve ⊢
      cases hu.reserve hreserve with
      | inl hold => exact .inl hold
      | inr hnew =>
        obtain ⟨hforce, e, he, hround, htool⟩ := hnew
        refine .inr ⟨hforce, ?_⟩
        cases hf : b.forceAnswer with
        | false => rfl
        | true =>
          cases hu.events e he with
          | inl hold => exact absurd (hevents e hold) (by omega)
          | inr hmine =>
            have hcreate := hmine.2 hf
            rw [htool] at hcreate
            simp at hcreate
    rw [hs'] at hsearch ⊢
    exact
      { events := by
          intro e he
          have hround := hu.roundNum
          cases hu.events e he with
          | inl hold =>
            have hlt := hevents e hold
            show e.round ≤ u.roundNum
            omega
          | inr hnew =>
            show e.round ≤ u.roundNum
            omega
        used := hu.used.symm ▸ hused
        asked := by
          have hcount : (s'.rounds.countP fun r => r.askedModel) =
              (b.rounds.countP fun r => r.askedModel) + (!resumed).toNat := by
            rw [heffect.rounds, List.countP_append, List.countP_singleton, heffect.asked]
            cases resumed <;> rfl
          have husedEq := hu.used
          show (s'.rounds.countP fun r => r.askedModel) + u.webSynthesisReserve.toNat ≤
            u.modelRoundsUsed + u.forceAnswer.toNat
          have hforce := hu.force
          revert hsearch hforce hasked
          cases u.webSynthesisReserve <;> cases b.webSynthesisReserve <;>
            cases b.forceAnswer <;> cases u.forceAnswer <;> simp <;> omega
        calls := fun hpos => hu.bounded hpos (htotal.symm ▸ hs.calls hpos)
        ran := by
          show (s'.rounds.map RoundRecord.toolsRun).sum ≤ u.totalToolCalls
          have hrun := toolsRun_le r
          have hcounted := hu.counted
          have hran := hs.ran
          rw [heffect.rounds, hrounds, List.map_append, List.sum_append]
          simp only [List.map_cons, List.map_nil, List.sum_singleton]
          omega
        pending := by
          intro hp
          have hnone := (hu.pending.symm.trans hp).symm.trans hpending
          cases hnone }

theorem limits_of_reachableWhere {ok : LoopState → RoundInput → Prop}
    (h : (system turn).ReachableWhere ok s) : Limits turn s := by
  refine h.invariant (I := Limits turn) ?_ ?_
  · intro s hinit
    rw [show s = LoopState.begin turn from hinit]
    exact limits_begin
  · intro s input s' hs _ hstep
    exact limits_round hs hstep

/-! ## The last round, where an answer is forced -/

/-- No round was forced, or one was, and it has ended the turn without a tool. -/
def Concluded (s : LoopState) : Prop :=
  s.forcedRounds = [] ∨ (s.status ≠ .running ∧ ∃ r, s.forcedRounds = [r] ∧ r.executed = [])

/-- A forced round whose reply answers ends the turn. -/
theorem afterReply_answers (hforce : b.forceAnswer = true) (hs : s.forceAnswer = true)
    (hnudges : b.intentNudgeCount = s.intentNudgeCount) (h : Answers turn s input) :
    afterReply turn false input.reply input b =
      { b with status := .stopped }.noted true true [] none := by
  obtain ⟨hdocument, hpromise, hlookups⟩ := h hs
  unfold afterReply
  dsimp only
  rw [if_neg (by simp [hlookups]), hforce, executedBlocks_forced, hdocument, Option.toList_none,
    List.isEmpty_nil, if_pos rfl]
  rw [← hnudges] at hpromise
  unfold withoutTools
  rw [if_neg (by simp [hforce]), if_neg (by simp [hforce]), if_neg (by simpa using hpromise)]
  simp only [hforce, Bool.not_false]

theorem concluded_round (hlimits : Limits turn s) (hs : Concluded s) (hok : Answers turn s input)
    (h : round turn s input = some s') : Concluded s' := by
  unfold round at h
  split at h
  · cases h
  rename_i hrunning
  have hnone : s.forcedRounds = [] := by
    cases hs with
    | inl hnone => exact hnone
    | inr hdone => exact absurd hdone.1 hrunning
  cases hbegin : beginRound turn s with
  | none =>
    simp only [hbegin, Option.some.injEq] at h
    subst h
    exact .inl hnone
  | some begun =>
    obtain ⟨resumed, b⟩ := begun
    simp only [hbegin, Option.some.injEq] at h
    obtain ⟨_, _, _, _, hrounds, _⟩ := limits_beginRound hbegin hlimits
    have hforce : b.forceAnswer = s.forceAnswer ∧ b.intentNudgeCount = s.intentNudgeCount ∧
        (s.forceAnswer = true → resumed = false) := by
      obtain ⟨_, hp, hb⟩ | ⟨hr, _, _, hb⟩ | ⟨hr, _, _, _, hb⟩ := beginRound_cases hbegin
      · subst hb
        refine ⟨rfl, rfl, fun hf => ?_⟩
        rw [hlimits.pending hp] at hf
        cases hf
      · subst hb
        exact ⟨rfl, rfl, fun _ => hr⟩
      · subst hb
        exact ⟨rfl, rfl, fun _ => hr⟩
    obtain ⟨hsame, hnudges, hresumed⟩ := hforce
    cases hf : s.forceAnswer with
    | false =>
      obtain ⟨r, heffect⟩ := effect_afterReply resumed (roundReply turn resumed input) input b
      rw [h] at heffect
      refine .inl ?_
      have hr : r.forced = false := heffect.forced.trans (hsame.trans hf)
      rw [LoopState.forcedRounds, heffect.rounds, hrounds, List.filter_append,
        List.filter_singleton, hr]
      simpa [LoopState.forcedRounds] using hnone
    | true =>
      have hreply : roundReply turn resumed input = input.reply := by
        rw [roundReply, hresumed hf]
        rfl
      rw [hreply, hresumed hf, afterReply_answers (hsame.trans hf) hf hnudges hok] at h
      subst h
      refine .inr ⟨fun hrun => Status.noConfusion hrun, ⟨true, true, [], none⟩, ?_, rfl⟩
      have hlast : (LoopState.noted { b with status := .stopped } true true [] none).forcedRounds =
          s.forcedRounds ++ [⟨true, true, [], none⟩] := by
        simp only [LoopState.forcedRounds, LoopState.noted, List.filter_append, hrounds]
        rfl
      rw [hlast, hnone]
      rfl

/-- In every run whose forced replies answer, a turn asks the model once more than `max_rounds` at
most, runs no more tools than the limit, and ends with the round in which an answer is forced, which
runs none. -/
theorem bounded_of_answers (h : (system turn).ReachableWhere (Answers turn) s) :
    Bounded turn s := by
  have hlimits := limits_of_reachableWhere h
  have hconcluded : Limits turn s ∧ Concluded s := by
    refine h.invariant (I := fun s => Limits turn s ∧ Concluded s) ?_ ?_
    · intro s hinit
      rw [show s = LoopState.begin turn from hinit]
      exact And.intro limits_begin (.inl rfl)
    · intro s input s' hs hok hstep
      exact ⟨limits_round hs.1 hstep, concluded_round hs.1 hs.2 hok hstep⟩
  constructor
  · have hasked := hlimits.asked
    have hused := hlimits.used
    have hone := Bool.toNat_le s.forceAnswer
    omega
  · intro hpos
    have hran := hlimits.ran
    have hcalls := hlimits.calls hpos
    omega
  · intro r hr
    cases hconcluded.2 with
    | inl hnone =>
      rw [hnone] at hr
      cases hr
    | inr hdone =>
      obtain ⟨_, other, hlist, hexecuted⟩ := hdone
      rw [hlist, List.mem_singleton] at hr
      rw [hr, RoundRecord.toolsRun, hexecuted]
      rfl
  · cases hconcluded.2 with
    | inl hnone =>
      rw [hnone]
      exact Nat.zero_le _
    | inr hdone =>
      obtain ⟨_, other, hlist, _⟩ := hdone
      rw [hlist]
      exact List.countP_le_length

/-! ## Two turns -/

/-- A turn with one tool of the caller's, whose replies have no markup. -/
def weatherTurn : Turn where
  rt := Runtime.plain
  floatText := Json.FloatText.plain
  text := ⟨fun _ _ => none, fun _ _ => [], fun _ text => strip text, fun _ text => text⟩
  maxRounds := 5
  maxToolCalls := 3
  isApiModel := true
  guideOnly := false
  odyDocFinetuneMode := false
  odyDocStreamCreateMode := false
  odyNotesFinetuneMode := false
  odyQwenFinetuneModel := false
  lastUser := "How is the weather?"
  inSession := true
  disabledTools := []
  nativeMcpServerPrefixes := []
  verifierEnabled := false
  approvedCall := none

/-- A round in which each tool that is called succeeds. -/
def weatherRound (response : String) (nativeToolCalls : List NativeCall) : RoundInput where
  reply := ⟨response, "", nativeToolCalls⟩
  extraToolNames := ["weather"]
  outcome := fun _ => ⟨true, false, true, "", false, false, none, false, false, false, "sunny"⟩
  verifierFails := false

def weatherCall : NativeCall := ⟨some "c1", "weather", "\x7b\x7d", none⟩

/-- After an empty reply an answer is forced, and given. -/
theorem bounded_weatherTurn : ∃ s, (system weatherTurn).ReachableWhere (Answers weatherTurn) s ∧
    s.forcedRounds = [⟨true, true, [], none⟩] ∧ Bounded weatherTurn s := by
  obtain ⟨s, hs, hseen⟩ := TransitionSystem.exists_reachableWhere_of_exec (system weatherTurn)
    (Answers weatherTurn) LoopState.forcedRounds
    [weatherRound "" [weatherCall], weatherRound "" [], weatherRound "Sunny." []]
    (v := [⟨true, true, [], none⟩]) (s := .begin weatherTurn) rfl (by decide +kernel)
  exact ⟨s, hs, hseen, bounded_of_answers hs⟩

/-- The limits that hold however the model answers. -/
def Limited (turn : Turn) (s : LoopState) : Prop :=
  (s.rounds.countP fun r => r.askedModel) ≤ turn.maxRounds + 1 ∧
    (0 < turn.maxToolCalls → (s.rounds.map RoundRecord.toolsRun).sum ≤ turn.maxToolCalls)

/-- The forced answer has a long code block. -/
theorem not_bounded_weatherTurn :
    ∃ s, (system weatherTurn).Reachable s ∧ ¬ Bounded weatherTurn s := by
  obtain ⟨s, hs, hseen⟩ := TransitionSystem.exists_reachableWhere_of_exec (system weatherTurn)
    TransitionSystem.anyStep
    (fun s => s.forcedRounds.map fun r => (r.askedModel, r.toolsRun))
    [weatherRound "" [weatherCall], weatherRound "" [],
      weatherRound ("```py\n" ++ String.join (List.replicate 31 "x\n") ++ "```") []]
    (v := [(true, 1)]) (s := .begin weatherTurn) rfl (by decide +kernel)
  refine ⟨s, hs, fun h => ?_⟩
  have htool : (true, 1) ∈ s.forcedRounds.map fun r => (r.askedModel, r.toolsRun) := by
    rw [hseen]
    exact List.mem_cons_self
  obtain ⟨r, hr, hrun⟩ := List.mem_map.mp htool
  have hnone := h.noTool r hr
  rw [(Prod.mk.inj hrun).2] at hnone
  cases hnone

end Pandamonium.AgentLoop
