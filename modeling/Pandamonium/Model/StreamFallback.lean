import Pandamonium.Model.Value

/-!
# Streams with fallbacks

`stream_llm_with_fallback` of `src/llm_core.py`.  A chunk is told by its first characters; of an error
and of a data chunk the object in its data is kept, which is empty where it cannot be read.
-/

set_option autoImplicit false

namespace Pandamonium.StreamFallback

structure Candidate where
  url : String
  model : String
  headers : Option Object

/-- A chunk of `stream_llm`. -/
inductive Chunk
  /-- `event: error` -/
  | error (payload : Object)
  /-- `data: `, with anything but `[DONE]` -/
  | data (payload : Object)
  /-- `data: [DONE]` -/
  | done
  | other (text : String)

/-- What the wrapper yields: chunks of the candidate at a place, and its own. -/
inductive Yielded
  | passed (candidate : ℕ) (chunk : Chunk)
  | fallback (selectedModel answeredBy reason : String)
  | noEndpoint
  | lastError (payload : Object)

variable (rt : Runtime)

/-- `_dedupe_candidates`; a malformed entry is none. -/
def dedupeCandidates (candidates : List (Option Candidate)) : List Candidate :=
  (candidates.foldl (fun (seen, out) c =>
    match c with
    | none => (seen, out)
    | some c =>
      if c.url = "" ∨ c.model = "" ∨ (c.url, c.model) ∈ seen then (seen, out)
      else ((c.url, c.model) :: seen, out ++ [c])) (([] : List (String × String)), [])).2

/-- `_summarize_stream_error` -/
def summarizeStreamError (lastError : Option Object) : String :=
  match lastError with
  | none => "primary model failed"
  | some payload =>
    let txt := payload.firstText rt ["text", "error"]
    let status := (payload.get? "status").getD .null
    let msg := (if status.truthy then "HTTP " ++ status.text rt ++ ": " else "") ++ txt
    let msg := strip (String.ofList (msg.toList.take 200))
    if msg ≠ "" then msg else "primary model failed"

/-- `event_data.get("type") == "model_actual"` -/
def isModelActual (payload : Object) : Bool :=
  match payload.get? "type" with
  | some (.str s) => decide (s = "model_actual")
  | _ => false

/-- The chunks of the candidate at a place: what is yielded, and the error that it is given up for. -/
def readStream (i : ℕ) (isLast : Bool) (notice : Yielded) :
    Bool → List Chunk → List Yielded × Option Object
  | _, [] => ([], none)
  | emitted, .error payload :: chunks =>
    if !emitted && !isLast then ([], some payload)
    else
      let rest := readStream i isLast notice emitted chunks
      (.passed i (.error payload) :: rest.1, rest.2)
  | emitted, .data payload :: chunks =>
    if isModelActual payload then
      let rest := readStream i isLast notice emitted chunks
      (.passed i (.data payload) :: rest.1, rest.2)
    else
      let rest := readStream i isLast notice true chunks
      ((if !emitted && decide (0 < i) then [notice] else []) ++ .passed i (.data payload) :: rest.1,
        rest.2)
  | emitted, chunk :: chunks =>
    let rest := readStream i isLast notice emitted chunks
    (.passed i chunk :: rest.1, rest.2)

/-- The candidates from a place on. -/
def readCandidates (stream : Candidate → List Chunk) (primaryModel : String) :
    ℕ → Option Object → List Candidate → List Yielded
  | _, lastError, [] => (lastError.map Yielded.lastError).toList
  | i, lastError, c :: cands =>
    let notice := .fallback primaryModel c.model (summarizeStreamError rt lastError)
    let read := readStream i cands.isEmpty notice false (stream c)
    match read.2 with
    | some payload => read.1 ++ readCandidates stream primaryModel (i + 1) (some payload) cands
    | none => read.1

/-- `stream_llm_with_fallback` -/
def streamLlmWithFallback (stream : Candidate → List Chunk)
    (candidates : List (Option Candidate)) : List Yielded :=
  match dedupeCandidates candidates with
  | [] => [.noEndpoint]
  | primary :: cands => readCandidates rt stream primary.model 0 none (primary :: cands)

end Pandamonium.StreamFallback
