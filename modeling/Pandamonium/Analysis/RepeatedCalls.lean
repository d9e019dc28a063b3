import Mathlib.Data.String.Basic
import Pandamonium.Analysis.ResultDelivery

/-!
# What the loop-breaker takes for a loop

Calls are compared by what remains of them in a signature, so different calls trip the loop-breaker
where their signatures are the same often enough: fifteen in all, or round after round without an
answer.
-/

set_option autoImplicit false

namespace Pandamonium.AgentLoop

/-- The calls of a round and the answer beside them.  A tool's type is a name. -/
structure CallRound where
  blocks : List ToolBlock
  answer : String
  named : ∀ b ∈ blocks, ∃ x cs, b.toolType.toList = x :: cs ∧ x ≠ ':'

/-- What the loop-breaker knows after rounds. -/
def countRounds (turn : Turn) (rounds : List CallRound) : LoopState :=
  rounds.foldl (fun s r => countCalls r.blocks r.answer s) (LoopState.begin turn)

/-- The loop-breaker trips in one of the rounds. -/
def Trips (turn : Turn) (rounds : List CallRound) : Prop :=
  ∃ before r after, rounds = before ++ r :: after ∧
    isStalled (countRounds turn (before ++ [r])) = true

/-- All calls of the rounds. -/
def allCalls (rounds : List CallRound) : List ToolBlock := rounds.flatMap CallRound.blocks

/-- Different calls do not trip the loop-breaker, and the same calls without an answer in five rounds
in a row trip it. -/
structure BreaksLoops (turn : Turn) (rounds : List CallRound) : Prop where
  different : (allCalls rounds).Nodup → ¬ Trips turn rounds
  same : ∀ before five after, rounds = before ++ five ++ after → five.length = 5 →
    (∀ r ∈ five, r.answer = "") → (∀ r ∈ five, ∀ r' ∈ five, r.blocks.Perm r'.blocks) →
      Trips turn (before ++ five)

/-- The calls of the round have the signatures of those in one of the six rounds before, and there is
no answer. -/
def Useless (before : List CallRound) (r : CallRound) : Prop :=
  r.answer = "" ∧ ∃ r' ∈ before.drop (before.length - 6), roundSig r'.blocks = roundSig r.blocks

/-- Every one of the rounds is useless behind those before it. -/
def AllUseless : List CallRound → List CallRound → Prop
  | _, [] => True
  | before, r :: rounds => Useless before r ∧ AllUseless (before ++ [r]) rounds

/-- Fewer than fifteen calls have the same signature, and of any four rounds in a row one is not
useless. -/
structure Quiet (rounds : List CallRound) : Prop where
  fewTwins : ∀ sig, ((allCalls rounds).map callSig).count sig < 15
  noCircle : ∀ before four after, rounds = before ++ four ++ after → four.length = 4 →
    ¬ AllUseless before four

variable {turn : Turn} {rounds : List CallRound}

/-! ## The state after rounds -/

theorem countRounds_append (rounds : List CallRound) (r : CallRound) :
    countRounds turn (rounds ++ [r]) =
      countCalls r.blocks r.answer (countRounds turn rounds) :=
  List.foldl_append

theorem callFreq_countRounds (rounds : List CallRound) :
    (countRounds turn rounds).callFreq = (allCalls rounds).map callSig := by
  induction rounds using List.reverseRecOn with
  | nil => rfl
  | append_singleton rounds r ih =>
    rw [countRounds_append, countCalls, ih]
    simp [allCalls]

/-- The last six of a list that is cut to six before. -/
theorem drop_drop_append {α : Type} (l : List α) (x : α) :
    (l.drop (l.length - 6) ++ [x]).drop ((l.drop (l.length - 6) ++ [x]).length - 6) =
      (l ++ [x]).drop ((l ++ [x]).length - 6) := by
  simp only [List.length_append, List.length_drop, List.length_singleton]
  rw [← List.drop_append_of_le_length (Nat.sub_le _ _), List.drop_drop]
  congr 1
  omega

theorem recentCallSigs_countRounds (rounds : List CallRound) :
    (countRounds turn rounds).recentCallSigs =
      (rounds.drop (rounds.length - 6)).map fun r => roundSig r.blocks := by
  induction rounds using List.reverseRecOn with
  | nil => rfl
  | append_singleton rounds r ih =>
    have h := drop_drop_append (rounds.map fun r => roundSig r.blocks) (roundSig r.blocks)
    simp only [List.length_map, ← List.map_drop] at h
    rw [countRounds_append, countCalls, ih]
    dsimp only
    rw [h]
    simp [List.map_drop]

theorem stuckRounds_append (turn : Turn) (rounds : List CallRound) (r : CallRound) :
    (Useless rounds r → (countRounds turn (rounds ++ [r])).stuckRounds =
      (countRounds turn rounds).stuckRounds + 1) ∧
    (¬ Useless rounds r → (countRounds turn (rounds ++ [r])).stuckRounds = 0) := by
  have huseless : (decide (roundSig r.blocks ∈ (countRounds turn rounds).recentCallSigs) &&
      decide (r.answer = "")) = true ↔ Useless rounds r := by
    rw [recentCallSigs_countRounds, Bool.and_comm]
    simp only [Useless, Bool.and_eq_true, decide_eq_true_eq, List.mem_map]
  rw [countRounds_append, countCalls]
  exact ⟨fun h => if_pos (huseless.mpr h), fun h => if_neg (mt huseless.mp h)⟩

theorem allUseless_append (before tail : List CallRound) (r : CallRound) :
    AllUseless before (tail ++ [r]) ↔ AllUseless before tail ∧ Useless (before ++ tail) r := by
  induction tail generalizing before with
  | nil => simp [AllUseless]
  | cons r' tail ih =>
    rw [List.cons_append, AllUseless, ih, AllUseless, List.append_assoc, and_assoc]
    rfl

/-- So many rounds count as stuck as there are useless ones at the end. -/
theorem le_stuckRounds_iff (n : ℕ) (rounds : List CallRound) :
    n ≤ (countRounds turn rounds).stuckRounds ↔
      ∃ before tail, rounds = before ++ tail ∧ tail.length = n ∧ AllUseless before tail := by
  induction n generalizing rounds with
  | zero => exact iff_of_true (Nat.zero_le _) ⟨rounds, [], by simp, rfl, trivial⟩
  | succ n ih =>
    obtain rfl | ⟨rounds, r, rfl⟩ := rounds.eq_nil_or_concat'
    · refine iff_of_false (Nat.not_succ_le_zero n) ?_
      rintro ⟨before, tail, h, hlen, -⟩
      rw [(List.append_eq_nil_iff.mp h.symm).2] at hlen
      cases hlen
    · obtain ⟨huseless, hreset⟩ := stuckRounds_append turn rounds r
      constructor
      · intro h
        have hr : Useless rounds r := by
          by_contra hr
          exact Nat.not_succ_le_zero n (hreset hr ▸ h)
        rw [huseless hr, Nat.succ_le_succ_iff] at h
        obtain ⟨before, tail, rfl, hlen, hall⟩ := (ih rounds).mp h
        exact ⟨before, tail ++ [r], by simp, by simp [hlen],
          (allUseless_append ..).mpr ⟨hall, hr⟩⟩
      · rintro ⟨before, tail, h, hlen, hall⟩
        obtain rfl | ⟨tail, r', rfl⟩ := tail.eq_nil_or_concat'
        · cases hlen
        · rw [← List.append_assoc] at h
          obtain ⟨rfl, hlast⟩ := List.append_inj' h rfl
          obtain rfl := List.singleton_inj.mp hlast
          obtain ⟨hall, hr⟩ := (allUseless_append ..).mp hall
          rw [huseless hr]
          exact Nat.succ_le_succ ((ih _).mpr ⟨before, tail, rfl, by simpa using hlen, hall⟩)

/-! ## Signatures -/

/-- The name of a tool is not empty in the signature. -/
theorem name_callSig {b : ToolBlock} (h : ∃ x cs, b.toolType.toList = x :: cs ∧ x ≠ ':') :
    String.ofList ((callSig b).toList.takeWhile fun x => x != ':') ≠ "" := by
  obtain ⟨x, cs, htype, hx⟩ := h
  simp [callSig, htype, hx]

/-- A tool runs away where fifteen signatures are the same. -/
theorem runaway_iff {sigs : List String}
    (h : ∀ sig ∈ sigs, String.ofList (sig.toList.takeWhile fun x => x != ':') ≠ "") :
    ((detectRunawayCall sigs).map fun name => decide (name ≠ "")).getD false = true ↔
      ∃ sig, 15 ≤ sigs.count sig := by
  rw [detectRunawayCall]
  cases hfind : sigs.find? fun sig => decide (15 ≤ sigs.count sig) with
  | none =>
    refine iff_of_false (by simp) ?_
    rintro ⟨sig, hsig⟩
    have hmem : sig ∈ sigs := List.count_pos_iff.mp (by omega)
    exact absurd hsig (by simpa using List.find?_eq_none.mp hfind sig hmem)
  | some sig =>
    refine iff_of_true ?_ ⟨sig, by simpa using List.find?_some hfind⟩
    simpa using h sig (List.mem_of_find?_eq_some hfind)

theorem isStalled_iff (rounds : List CallRound) :
    isStalled (countRounds turn rounds) = true ↔
      (∃ before four, rounds = before ++ four ∧ four.length = 4 ∧ AllUseless before four) ∨
        ∃ sig, 15 ≤ ((allCalls rounds).map callSig).count sig := by
  have hnamed : ∀ sig ∈ (allCalls rounds).map callSig,
      String.ofList (sig.toList.takeWhile fun x => x != ':') ≠ "" := by
    simp only [allCalls, List.mem_map, List.mem_flatMap]
    rintro sig ⟨b, ⟨r, -, hb⟩, rfl⟩
    exact name_callSig (r.named b hb)
  rw [isStalled, callFreq_countRounds, Bool.or_eq_true, runaway_iff hnamed, decide_eq_true_eq,
    le_stuckRounds_iff]

/-- The order of the calls does not matter to the signature of a round. -/
theorem roundSig_perm {blocks blocks' : List ToolBlock} (h : blocks.Perm blocks') :
    roundSig blocks = roundSig blocks' := by
  have hsorted : ∀ l : List String, (l.insertionSort fun a b => ¬ b < a).Pairwise (· ≤ ·) :=
    fun l => (List.pairwise_insertionSort (r := (· ≤ ·)) l)
  have hperm := ((List.perm_insertionSort (fun a b : String => ¬ b < a) _).trans
    (h.map callSig)).trans (List.perm_insertionSort (fun a b : String => ¬ b < a) _).symm
  exact congrArg joinedSigs (hperm.eq_of_pairwise' (hsorted _) (hsorted _))

/-- The same calls, again and again, are useless. -/
theorem allUseless_same (tail : List CallRound) (before : List CallRound) (r : CallRound)
    (hanswer : ∀ r' ∈ tail, r'.answer = "") (hsame : ∀ r' ∈ tail, r.blocks.Perm r'.blocks) :
    AllUseless (before ++ [r]) tail := by
  induction tail generalizing before r with
  | nil => trivial
  | cons r' tail ih =>
    have hr' := hsame r' List.mem_cons_self
    refine ⟨⟨hanswer r' List.mem_cons_self, r, ?_, roundSig_perm hr'⟩,
      ih (before ++ [r]) r' (fun r'' h => hanswer r'' (List.mem_cons_of_mem _ h))
        fun r'' h => hr'.symm.trans (hsame r'' (List.mem_cons_of_mem _ h))⟩
    rw [List.drop_append_of_le_length (by simp)]
    simp

/-! ## Loops -/

/-- The loop-breaker trips exactly where the rounds are not quiet. -/
theorem not_trips_iff (turn : Turn) (rounds : List CallRound) :
    ¬ Trips turn rounds ↔ Quiet rounds := by
  constructor
  · intro h
    refine ⟨fun sig => ?_, fun before four after heq hlen hall => ?_⟩
    · by_contra hcount
      obtain rfl | ⟨before, r, rfl⟩ := rounds.eq_nil_or_concat'
      · simp [allCalls] at hcount
      · exact h ⟨before, r, [], rfl, (isStalled_iff _).mpr (.inr ⟨sig, Nat.le_of_not_lt hcount⟩)⟩
    · obtain rfl | ⟨init, r, rfl⟩ := four.eq_nil_or_concat'
      · cases hlen
      · exact h ⟨before ++ init, r, after, by simpa using heq,
          (isStalled_iff _).mpr (.inl ⟨before, init ++ [r], by simp, hlen, hall⟩)⟩
  · rintro ⟨hcount, hcircle⟩ ⟨before, r, after, rfl, hstalled⟩
    obtain ⟨before', four, heq, hlen, hall⟩ | ⟨sig, hsig⟩ := (isStalled_iff _).mp hstalled
    · exact hcircle before' four after (by rw [← heq]; simp) hlen hall
    · have hsub : ((allCalls (before ++ [r])).map callSig).Sublist
          ((allCalls (before ++ r :: after)).map callSig) := by
        simp [allCalls]
      have := hcount sig
      have := hsub.count_le sig
      omega

/-- The loop-breaker stops real loops only, exactly where different calls are quiet. -/
theorem breaksLoops_iff (turn : Turn) (rounds : List CallRound) :
    BreaksLoops turn rounds ↔ ((allCalls rounds).Nodup → Quiet rounds) := by
  refine ⟨fun h hnodup => (not_trips_iff turn rounds).mp (h.different hnodup), fun h =>
    ⟨fun hnodup => (not_trips_iff turn rounds).mpr (h hnodup), ?_⟩⟩
  rintro before five after - hlen hanswer hsame
  obtain ⟨r, tail, rfl⟩ := List.exists_cons_of_length_eq_add_one hlen
  have hall := allUseless_same tail before r
    (fun r' h => hanswer r' (List.mem_cons_of_mem _ h))
    fun r' h => hsame r List.mem_cons_self r' (List.mem_cons_of_mem _ h)
  obtain rfl | ⟨init, last, rfl⟩ := tail.eq_nil_or_concat'
  · cases hlen
  · refine ⟨before ++ r :: init, last, [], by simp, (isStalled_iff _).mpr (.inl ?_)⟩
    exact ⟨before ++ [r], init ++ [last], by simp, by simpa using hlen, hall⟩

/-! ## Long commands -/

/-- Commands that are the same in their first 120 characters and go on differently. -/
def longCommand (n : ℕ) : ToolBlock :=
  ⟨"bash", String.ofList (List.replicate 120 'a' ++ List.replicate n 'b')⟩

theorem callSig_longCommand (n : ℕ) :
    callSig (longCommand n) = "bash:" ++ String.ofList (List.replicate 120 'a') := by
  have hspace : ∀ x ∈ List.replicate 120 'a' ++ List.replicate n 'b', isSpace x = false := by
    intro x hx
    obtain hx | hx := List.mem_append.mp hx <;> rw [(List.mem_replicate.mp hx).2] <;> decide
  have hdrop : ∀ cs : List Char, (∀ x ∈ cs, isSpace x = false) → cs.dropWhile isSpace = cs := by
    rintro (- | ⟨x, cs⟩) h
    · rfl
    · rw [List.dropWhile_cons_of_neg (by simp [h x List.mem_cons_self])]
  have hstrip : stripChars (List.replicate 120 'a' ++ List.replicate n 'b') =
      List.replicate 120 'a' ++ List.replicate n 'b' := by
    rw [stripChars, hdrop _ hspace, hdrop _ fun x hx => hspace x (List.mem_reverse.mp hx),
      List.reverse_reverse]
  rw [callSig, longCommand, String.toList_ofList, hstrip, List.take_left' (by simp)]
  rfl

def longRound : CallRound where
  blocks := (List.range 15).map longCommand
  answer := ""
  named := by
    intro b hb
    obtain ⟨n, -, rfl⟩ := List.mem_map.mp hb
    exact ⟨'b', "ash".toList, show "bash".toList = _ by decide, by decide⟩

/-- Fifteen different commands in one round. -/
theorem not_breaksLoops_longRound : ¬ ∀ rounds, BreaksLoops weatherTurn rounds := by
  intro hall
  have h := hall [longRound]
  have hcalls : allCalls [longRound] = (List.range 15).map longCommand := List.append_nil _
  have hnodup : (allCalls [longRound]).Nodup := by
    rw [hcalls]
    refine List.Nodup.map (fun m n hmn => ?_) List.nodup_range
    have := congrArg (fun b => b.content.length) hmn
    simpa [longCommand] using this
  refine h.different hnodup ⟨[], longRound, [], rfl, (isStalled_iff _).mpr (.inr
    ⟨"bash:" ++ String.ofList (List.replicate 120 'a'), ?_⟩)⟩
  have hsig : callSig ∘ longCommand = fun _ => "bash:" ++ String.ofList (List.replicate 120 'a') :=
    funext callSig_longCommand
  rw [List.nil_append, hcalls, List.map_map, hsig, List.map_const', List.count_replicate_self,
    List.length_range]

end Pandamonium.AgentLoop
