import Pandamonium.Model.StreamFallback

/-!
# Which candidate answers

The first candidate that does not fail before its first output answers, or the last one where all
fail.  Its stream is passed on to the end, with a notice before its first output where it is not the
first candidate; what is passed on of those before it is neither output nor an error.
-/

set_option autoImplicit false

namespace Pandamonium.StreamFallback

/-- Text, thinking, tool calls and usage. -/
def Chunk.isOutput : Chunk → Bool
  | .data payload => !isModelActual payload
  | _ => false

def Chunk.isError : Chunk → Bool
  | .error _ => true
  | _ => false

/-- The output that is yielded, with the place of its candidate. -/
def Yielded.output : Yielded → Option (ℕ × Chunk)
  | .passed i chunk => if chunk.isOutput then some (i, chunk) else none
  | _ => none

def Yielded.isNotice : Yielded → Bool
  | .fallback _ _ _ => true
  | _ => false

def Yielded.isError : Yielded → Bool
  | .passed _ chunk => chunk.isError
  | .fallback _ _ _ => false
  | .noEndpoint => true
  | .lastError _ => true

/-- The stream has an error before its first output. -/
def failsFirst (chunks : List Chunk) : Bool :=
  (chunks.takeWhile fun chunk => !chunk.isOutput).any Chunk.isError

/-- The candidate at a place is the first that does not fail before its first output, or the last
one. -/
structure Chosen (stream : Candidate → List Chunk) (cands : List Candidate) (c : ℕ)
    (chosen : Candidate) : Prop where
  place : cands[c]? = some chosen
  earlier : ∀ cand ∈ cands.take c, failsFirst (stream cand) = true
  last : failsFirst (stream chosen) = true → c + 1 = cands.length

/-- What is yielded comes from the candidate that was chosen. -/
structure Answered (stream : Candidate → List Chunk) (cands : List Candidate) (c : ℕ)
    (chosen : Candidate) (ys : List Yielded) : Prop extends Chosen stream cands c chosen where
  outputs : ys.filterMap Yielded.output =
    ((stream chosen).filter Chunk.isOutput).map fun chunk => (c, chunk)
  notices : ys.countP Yielded.isNotice = if 0 < c ∧ (stream chosen).any Chunk.isOutput then 1 else 0
  precedes : ys.Pairwise fun y y' => y.output.isSome = true → y'.isNotice = false
  errors : ys.any Yielded.isError = true ↔ (∀ cand ∈ cands, failsFirst (stream cand) = true) ∨
    (failsFirst (stream chosen) = false ∧ (stream chosen).any Chunk.isError = true)

/-- Without a candidate there is an error, and with some one of them is chosen. -/
def Answers (stream : Candidate → List Chunk) (cands : List Candidate) (ys : List Yielded) : Prop :=
  (cands = [] ∧ ys = [.noEndpoint]) ∨ ∃ c chosen, Answered stream cands c chosen ys

/-! ## One candidate -/

/-- All chunks of a candidate, with the notice before the first output. -/
def delivered (i : ℕ) (notice : Yielded) (chunks : List Chunk) : List Yielded :=
  let quiet := chunks.takeWhile fun chunk => !chunk.isOutput
  let rest := chunks.dropWhile fun chunk => !chunk.isOutput
  quiet.map (.passed i) ++
    ((if 0 < i ∧ chunks.any Chunk.isOutput then [notice] else []) ++ rest.map (.passed i))

/-- Neither output nor an error. -/
def Chunk.isQuiet (chunk : Chunk) : Bool := !chunk.isOutput && !chunk.isError

theorem readStream_emitted (i : ℕ) (isLast : Bool) (notice : Yielded) (chunks : List Chunk) :
    readStream i isLast notice true chunks = (chunks.map (.passed i), none) := by
  induction chunks with
  | nil => rfl
  | cons chunk chunks ih => cases chunk <;> simp [readStream, ih]

/-- A candidate with others behind it is given up for an error before its first output. -/
theorem readStream_failing (i : ℕ) (notice : Yielded) {chunks : List Chunk}
    (h : failsFirst chunks = true) : ∃ (quiet : List Chunk) (payload : Object),
      readStream i false notice false chunks = (quiet.map (.passed i), some payload) ∧
      ∀ chunk ∈ quiet, chunk.isQuiet = true := by
  induction chunks with
  | nil => cases h
  | cons chunk chunks ih =>
    have hlater : chunk.isOutput = false → chunk.isError = false → 
        ∃ (quiet : List Chunk) (payload : Object), readStream i false notice false chunks = (quiet.map (.passed i), some payload) ∧
        ∀ chunk ∈ quiet, chunk.isQuiet = true := by
      intro hout herror
      refine ih ?_
      simpa [failsFirst, List.takeWhile_cons, hout, herror] using h
    cases chunk with
    | error payload => exact ⟨[], payload, rfl, by simp⟩
    | data payload =>
      cases hactual : isModelActual payload with
      | false => simp [failsFirst, Chunk.isOutput, hactual] at h
      | true =>
        obtain ⟨quiet, error, heq, hquiet⟩ := hlater (by simp [Chunk.isOutput, hactual]) rfl
        refine ⟨.data payload :: quiet, error, by simp [readStream, hactual, heq], ?_⟩
        simpa [Chunk.isQuiet, Chunk.isOutput, Chunk.isError, hactual] using hquiet
    | done =>
      obtain ⟨quiet, error, heq, hquiet⟩ := hlater rfl rfl
      exact ⟨.done :: quiet, error, by simp [readStream, heq],
        by simpa [Chunk.isQuiet, Chunk.isOutput, Chunk.isError] using hquiet⟩
    | other text =>
      obtain ⟨quiet, error, heq, hquiet⟩ := hlater rfl rfl
      exact ⟨.other text :: quiet, error, by simp [readStream, heq],
        by simpa [Chunk.isQuiet, Chunk.isOutput, Chunk.isError] using hquiet⟩

theorem delivered_quiet (i : ℕ) (notice : Yielded) {chunk : Chunk} (h : chunk.isOutput = false)
    (chunks : List Chunk) :
    delivered i notice (chunk :: chunks) = .passed i chunk :: delivered i notice chunks := by
  simp [delivered, h]

theorem delivered_output (i : ℕ) (notice : Yielded) {chunk : Chunk} (h : chunk.isOutput = true)
    (chunks : List Chunk) :
    delivered i notice (chunk :: chunks) =
      (if 0 < i then [notice] else []) ++ (chunk :: chunks).map (.passed i) := by
  simp [delivered, h]

theorem readStream_delivered (i : ℕ) (isLast : Bool) (notice : Yielded) {chunks : List Chunk}
    (h : failsFirst chunks = true → isLast = true) :
    readStream i isLast notice false chunks = (delivered i notice chunks, none) := by
  induction chunks with
  | nil => simp [readStream, delivered]
  | cons chunk chunks ih =>
    have hlater : chunk.isOutput = false → chunk.isError = false ∨ isLast = true →
        readStream i isLast notice false chunks = (delivered i notice chunks, none) := by
      intro hout herror
      refine ih fun hfails => ?_
      rcases herror with herror | hlast
      · exact h (by simpa [failsFirst, List.takeWhile_cons, hout, herror] using hfails)
      · exact hlast
    cases chunk with
    | error payload =>
      obtain rfl : isLast = true := h (by simp [failsFirst, Chunk.isOutput, Chunk.isError])
      rw [delivered_quiet i notice rfl]
      simp [readStream, hlater rfl (Or.inr rfl)]
    | data payload =>
      cases hactual : isModelActual payload with
      | false =>
        by_cases hi : 0 < i <;>
          simp [readStream, hactual, readStream_emitted, delivered, Chunk.isOutput, hi]
      | true =>
        have hout : (Chunk.data payload).isOutput = false := by simp [Chunk.isOutput, hactual]
        rw [delivered_quiet i notice hout]
        simp [readStream, hactual, hlater hout (Or.inl rfl)]
    | done =>
      rw [delivered_quiet i notice rfl]
      simp [readStream, hlater rfl (Or.inl rfl)]
    | other text =>
      rw [delivered_quiet i notice rfl]
      simp [readStream, hlater rfl (Or.inl rfl)]

/-! ## The candidates -/

/-- Neither output nor an error nor a notice. -/
structure Yielded.Quiet (y : Yielded) : Prop where
  output : y.output = none
  notice : y.isNotice = false
  error : y.isError = false

theorem Chunk.quiet {chunk : Chunk} (h : chunk.isQuiet = true) (i : ℕ) :
    (Yielded.passed i chunk).Quiet := by
  obtain ⟨hout, herror⟩ := Bool.and_eq_true_iff.mp h
  rw [Bool.not_eq_true'] at hout herror
  exact ⟨by simp [Yielded.output, hout], rfl, herror⟩

theorem Chosen.cons {stream : Candidate → List Chunk} {cands : List Candidate} {c : ℕ}
    {cand chosen : Candidate} (h : Chosen stream cands c chosen)
    (hfails : failsFirst (stream cand) = true) :
    Chosen stream (cand :: cands) (c + 1) chosen where
  place := h.place
  earlier := by
    rw [List.take_succ_cons]
    exact List.forall_mem_cons.mpr ⟨hfails, h.earlier⟩
  last hlast := congrArg (· + 1) (h.last hlast)

theorem readCandidates_eq (rt : Runtime) (stream : Candidate → List Chunk) (primaryModel : String)
    (i : ℕ) (lastError : Option Object) {cands : List Candidate} (hcands : cands ≠ []) :
    ∃ c chosen notes notice, Chosen stream cands c chosen ∧ notice.isNotice = true ∧
      (∀ y ∈ notes, y.Quiet) ∧
      readCandidates rt stream primaryModel i lastError cands =
        notes ++ delivered (i + c) notice (stream chosen) := by
  induction cands generalizing i lastError with
  | nil => exact absurd rfl hcands
  | cons cand cands ih =>
    by_cases hfails : failsFirst (stream cand) = true ∧ cands ≠ []
    · obtain ⟨hfails, hmore⟩ := hfails
      obtain ⟨quiet, payload, hread, hquiet⟩ := readStream_failing i
        (.fallback primaryModel cand.model (summarizeStreamError rt lastError)) hfails
      obtain ⟨c, chosen, notes, notice, hchosen, hnotice, hnotes, heq⟩ :=
        ih (i + 1) (some payload) hmore
      refine ⟨c + 1, chosen, quiet.map (.passed i) ++ notes, notice, hchosen.cons hfails, hnotice,
        fun y hy => ?_, ?_⟩
      · rcases List.mem_append.mp hy with hy | hy
        · obtain ⟨chunk, hchunk, rfl⟩ := List.mem_map.mp hy
          exact Chunk.quiet (hquiet chunk hchunk) i
        · exact hnotes y hy
      · have hempty : cands.isEmpty = false := List.isEmpty_eq_false_iff.mpr hmore
        simp only [readCandidates, hempty, hread, heq, List.append_assoc, Nat.add_assoc,
          Nat.add_comm 1 c]
    · have hread := readStream_delivered i cands.isEmpty
        (.fallback primaryModel cand.model (summarizeStreamError rt lastError))
        fun h => List.isEmpty_iff.mpr (Decidable.not_not.mp fun hmore => hfails ⟨h, hmore⟩)
      refine ⟨0, cand, [], .fallback primaryModel cand.model (summarizeStreamError rt lastError),
        ⟨rfl, by simp, fun h => ?_⟩, rfl, by simp, ?_⟩
      · have hnone : cands = [] := Decidable.not_not.mp fun hmore => hfails ⟨h, hmore⟩
        rw [hnone]
        rfl
      · simp only [readCandidates, hread, List.nil_append, Nat.add_zero]

/-! ## What is yielded -/

section Delivered

variable (i : ℕ) (notice : Yielded) (chunks : List Chunk)

theorem outputs_passed :
    (chunks.map (.passed i)).filterMap Yielded.output =
      (chunks.filter Chunk.isOutput).map fun chunk => (i, chunk) := by
  induction chunks with
  | nil => rfl
  | cons chunk chunks ih =>
    cases h : chunk.isOutput <;> simp [Yielded.output, h, ih]

theorem notices_passed : (chunks.map (.passed i)).countP Yielded.isNotice = 0 := by
  rw [List.countP_eq_zero]
  rintro y hy
  obtain ⟨chunk, -, rfl⟩ := List.mem_map.mp hy
  exact Bool.false_ne_true

theorem errors_passed :
    (chunks.map (.passed i)).any Yielded.isError = chunks.any Chunk.isError :=
  List.any_map

variable {notice} (hnotice : notice.isNotice = true)
include hnotice

theorem outputs_delivered :
    (delivered i notice chunks).filterMap Yielded.output =
      (chunks.filter Chunk.isOutput).map fun chunk => (i, chunk) := by
  have hnone : notice.output = none := by cases notice <;> first | rfl | cases hnotice
  induction chunks with
  | nil => simp [delivered]
  | cons chunk chunks ih =>
    cases hout : chunk.isOutput with
    | false =>
      rw [delivered_quiet i notice hout, List.filter_cons_of_neg (by simp [hout]), ← ih]
      simp [Yielded.output, hout]
    | true =>
      rw [delivered_output i notice hout, List.filterMap_append, outputs_passed]
      split <;> simp [hnone]

theorem notices_delivered :
    (delivered i notice chunks).countP Yielded.isNotice =
      if 0 < i ∧ chunks.any Chunk.isOutput then 1 else 0 := by
  rw [delivered, List.countP_append, List.countP_append, notices_passed, notices_passed]
  split <;> simp [hnotice]

theorem precedes_delivered :
    (delivered i notice chunks).Pairwise fun y y' =>
      y.output.isSome = true → y'.isNotice = false := by
  have hnone : notice.output = none := by cases notice <;> first | rfl | cases hnotice
  induction chunks with
  | nil => simp [delivered]
  | cons chunk chunks ih =>
    cases hout : chunk.isOutput with
    | false =>
      rw [delivered_quiet i notice hout]
      refine List.pairwise_cons.mpr ⟨fun y _ h => ?_, ih⟩
      simp [Yielded.output, hout] at h
    | true =>
      have hpassed : ((chunk :: chunks).map (Yielded.passed i)).Pairwise fun y y' =>
          y.output.isSome = true → y'.isNotice = false := by
        refine List.pairwise_map.mpr (List.pairwise_of_forall fun _ _ _ => rfl)
      rw [delivered_output i notice hout]
      split
      · exact List.pairwise_cons.mpr ⟨fun y _ h => by simp [hnone] at h, hpassed⟩
      · exact hpassed

theorem errors_delivered :
    (delivered i notice chunks).any Yielded.isError = chunks.any Chunk.isError := by
  have herror : notice.isError = false := by cases notice <;> first | rfl | cases hnotice
  induction chunks with
  | nil => simp [delivered]
  | cons chunk chunks ih =>
    cases hout : chunk.isOutput with
    | false =>
      rw [delivered_quiet i notice hout, List.any_cons, List.any_cons, ih]
      rfl
    | true =>
      rw [delivered_output i notice hout, List.any_append, errors_passed]
      split <;> simp [herror]

end Delivered

theorem any_isError_of_failsFirst {chunks : List Chunk} (h : failsFirst chunks = true) :
    chunks.any Chunk.isError = true := by
  obtain ⟨chunk, hchunk, herror⟩ := List.any_eq_true.mp h
  exact List.any_eq_true.mpr ⟨chunk, (List.takeWhile_sublist _).subset hchunk, herror⟩

/-- Every candidate has failed where the one that is chosen has. -/
theorem Chosen.failsFirst_iff {stream : Candidate → List Chunk} {cands : List Candidate} {c : ℕ}
    {chosen : Candidate} (h : Chosen stream cands c chosen) :
    (∀ cand ∈ cands, failsFirst (stream cand) = true) ↔ failsFirst (stream chosen) = true := by
  constructor
  · exact fun hall => hall chosen (List.mem_of_getElem? h.place)
  · intro hfails cand hcand
    have hall : cands.take (c + 1) = cands := by
      rw [h.last hfails, List.take_length]
    rw [← hall, List.take_add_one, h.place] at hcand
    rcases List.mem_append.mp hcand with hcand | hcand
    · exact h.earlier cand hcand
    · obtain rfl := List.mem_singleton.mp hcand
      exact hfails

/-- One candidate answers, the first that does not fail before its first output or the last one; a
notice is yielded, before the output, exactly where it has output and is not the first; and an error
is yielded exactly where all candidates fail before their output or that one fails behind its own. -/
theorem streamLlmWithFallback_answers (rt : Runtime) (stream : Candidate → List Chunk)
    (candidates : List (Option Candidate)) :
    Answers stream (dedupeCandidates candidates) (streamLlmWithFallback rt stream candidates) := by
  unfold streamLlmWithFallback
  cases hcands : dedupeCandidates candidates with
  | nil => exact Or.inl ⟨rfl, rfl⟩
  | cons primary cands =>
    obtain ⟨c, chosen, notes, notice, hchosen, hnotice, hnotes, heq⟩ :=
      readCandidates_eq rt stream primary.model 0 none (List.cons_ne_nil primary cands)
    rw [Nat.zero_add] at heq
    refine Or.inr ⟨c, chosen, hchosen, ?_, ?_, ?_, ?_⟩ <;> dsimp only <;> rw [heq]
    · rw [List.filterMap_append, outputs_delivered c (stream chosen) hnotice,
        List.filterMap_eq_nil_iff.mpr fun y hy => (hnotes y hy).output, List.nil_append]
    · rw [List.countP_append, notices_delivered c (stream chosen) hnotice,
        List.countP_eq_zero.mpr fun y hy => by simp [(hnotes y hy).notice], Nat.zero_add]
    · refine List.pairwise_append.mpr
        ⟨List.Pairwise.imp_of_mem (fun hy _ _ h => ?_) (List.pairwise_of_forall fun _ _ => trivial),
          precedes_delivered c (stream chosen) hnotice, fun y hy _ _ h => ?_⟩ <;>
      · rw [(hnotes _ hy).output] at h
        cases h
    · have hquiet : notes.any Yielded.isError = false :=
        List.any_eq_false.mpr fun y hy => by simp [(hnotes y hy).error]
      rw [List.any_append, hquiet, Bool.false_or, errors_delivered c (stream chosen) hnotice,
        hchosen.failsFirst_iff]
      cases hfails : failsFirst (stream chosen) with
      | false => simp
      | true => simpa using any_isError_of_failsFirst hfails

/-! ## A fallback that says nothing -/

/-- The claim on the notice: it is yielded exactly where the candidate that answers is not the
first. -/
def NoticesSwitch (stream : Candidate → List Chunk) (cands : List Candidate)
    (ys : List Yielded) : Prop :=
  ∀ c chosen, Chosen stream cands c chosen → (ys.any Yielded.isNotice = true ↔ 0 < c)

/-- The first candidate fails, and the second ends without output. -/
theorem not_noticesSwitch_silent :
    ¬ ∀ (rt : Runtime) (stream : Candidate → List Chunk) (candidates : List (Option Candidate)),
      NoticesSwitch stream (dedupeCandidates candidates)
        (streamLlmWithFallback rt stream candidates) := by
  intro h
  have hsilent := h .plain (fun c => if c.model = "a" then [.error []] else [.done])
    [some ⟨"u", "a", none⟩, some ⟨"u", "b", none⟩] 1 ⟨"u", "b", none⟩
    ⟨rfl, by decide, by decide⟩
  exact absurd (hsilent.mpr Nat.one_pos) (by decide)

end Pandamonium.StreamFallback
