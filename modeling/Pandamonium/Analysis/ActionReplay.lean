import Pandamonium.Model.ExternalActions

/-!
# Replayed actions

The record of an action's result is looked at before the request is sent and written when its
answer has been checked.  A call whose request waits under an identifier, or has failed under it,
is not in the record, so a second call under it goes out, with whatever content
(`not_replays_overlapped`).  `replays_of_notOverlapping` is about the runs in which that does not
happen: there a request is only ever repeated with the content it had, and a call that returned a
result is answered from the record from then on.
-/

set_option autoImplicit false

namespace Pandamonium.ExternalAgent

open Pandamonium.Library

/-- The call and the content an event is about. -/
def Event.about : Event → Option (ℕ × Content)
  | .called _ => none
  | .transmitted n content => some (n, content)
  | .returned n content _ => some (n, content)
  | .refused n content => content.map fun content => (n, content)
  | .failed n content => some (n, content)

/-- Requests under one identifier have one fingerprint, and all that a call does with a content
for which a result was returned before it was made is to return that result. -/
structure Replays (w : World) : Prop where
  content : ∀ n n' k k', .transmitted n k ∈ w.log → .transmitted n' k' ∈ w.log →
    k.requestId = k'.requestId → k.fingerprint = k'.fingerprint
  results : ∀ e n n' k result, [e, .called n', .returned n k result].Sublist w.log →
    e.about = some (n', k) → e = .returned n' k result

variable (b : Bridge)

/-- The content that a step looks up in the record. -/
def lookedUp (w : World) : Label → Option Content
  | .enter n drawn _ =>
    match w.calls.get? n with
    | some (.called ask task) =>
      match entry b w.adapter drawn ask task with
      | .ok (.ready prepared) => some prepared.content
      | _ => none
    | _ => none
  | .answer n (.payload payload) drawn _ =>
    match w.calls.get? n with
    | some (.authorizing ask task request) =>
      match received b w drawn task request payload with
      | (.ok (), a) =>
        match prepare b a drawn task ask with
        | .ok prepared => some prepared.content
        | .error _ => none
      | _ => none
    | _ => none
  | _ => none

/-- The content of the request whose answer a call waits for. -/
def Call.content : Call → Option Content
  | .waiting _ prepared => some prepared.content
  | _ => none

/-- The content of a request that has failed. -/
def Event.lost : Event → Option Content
  | .failed _ content => some content
  | _ => none

/-- No request waits under the identifier, and those that failed under it had this content. -/
structure Clear (w : World) (k : Content) : Prop where
  waiting : ∀ call ∈ w.calls.values, ∀ k' ∈ call.content, k'.requestId ≠ k.requestId
  failed : ∀ e ∈ w.log, ∀ k' ∈ e.lost, k'.requestId = k.requestId → k'.fingerprint = k.fingerprint

instance (w : World) (k : Content) : Decidable (Clear w k) :=
  decidable_of_iff
    ((∀ call ∈ w.calls.values, ∀ k' ∈ call.content, k'.requestId ≠ k.requestId) ∧
      ∀ e ∈ w.log, ∀ k' ∈ e.lost, k'.requestId = k.requestId → k'.fingerprint = k.fingerprint)
    ⟨fun h => ⟨h.1, h.2⟩, fun h => ⟨h.waiting, h.failed⟩⟩

/-- A content without a record is looked up only when no other request is, or has been left,
under way with its identifier, but for failed ones of the same content. -/
def notOverlapping (w : World) (label : Label) : Prop :=
  ∀ k ∈ lookedUp b w label, w.adapter.actionResults.get? k.requestId = none → Clear w k

instance : DecidableRel (notOverlapping b) := fun w label =>
  inferInstanceAs (Decidable (∀ k ∈ lookedUp b w label, _ → _))

/-! ## What a step does -/

/-- The content a call waits with. -/
def World.waits (w : World) (n : ℕ) : Option Content := (w.calls.get? n).bind Call.content

/-- The adapter has received something that leaves its results alone. -/
def World.heard (w : World) (a : Adapter) : World := { w with adapter := a }

/-- What the step `label` can make of the world. -/
inductive Move (w : World) (label : Label) : World → Prop
  | called (n : ℕ) (ask : Ask) (task : Object) (hidle : w.waits n = none) :
    Move w label { w.on n (.called ask task) with log := .called n :: w.log }
  | refused {n : ℕ} {a : Adapter} (hidle : w.waits n = none)
    (hresults : a.actionResults = w.adapter.actionResults) :
    Move w label ((w.heard a).over n (.refused n none))
  | asked {n : ℕ} (ask : Ask) (task : Object) (request : Request) (hidle : w.waits n = none) :
    Move w label (w.on n (.authorizing ask task request))
  | looked {n : ℕ} {a : Adapter} (ask : Ask) {prepared : Prepared} (reachable : Bool)
    (hidle : w.waits n = none) (hresults : a.actionResults = w.adapter.actionResults)
    (hcontent : lookedUp b w label = some prepared.content) :
    Move w label (look (w.heard a) n ask prepared reachable)
  | failed {n : ℕ} {a : Adapter} {k : Content} (hwaits : w.waits n = some k)
    (hresults : a.actionResults = w.adapter.actionResults) :
    Move w label ((w.heard a).over n (.failed n k))
  | answered {n : ℕ} {a : Adapter} {k : Content} {result : ActionResult}
    (hwaits : w.waits n = some k)
    (hresults : a.actionResults = w.adapter.actionResults.set k.requestId (k.fingerprint, result)) :
    Move w label ((w.heard a).over n (.returned n k result))

variable {b}

theorem receiveCapabilities_results (now : Int) (owner workspace : String) (request : Request)
    (payload : Object) (a : Adapter) :
    (receiveCapabilities b now owner workspace request payload a).2.actionResults =
      a.actionResults := by
  unfold receiveCapabilities
  split
  · rfl
  · split <;> rfl

variable {w : World} {n : ℕ}

theorem waits_of_call {call : Call} (hcall : w.calls.get? n = some call) :
    w.waits n = call.content := by
  rw [World.waits, hcall, Option.bind_some]

theorem move_of_enter {drawn : Drawn} {reachable : Bool} {ask : Ask} {task : Object}
    (hcall : w.calls.get? n = some (.called ask task)) :
    Move b w (.enter n drawn reachable) (enter b w n drawn reachable ask task) := by
  have hidle : w.waits n = none := waits_of_call hcall
  unfold enter
  split
  · exact .refused (a := w.adapter) hidle rfl
  · split
    · exact .asked ask task _ hidle
    · exact .refused (a := w.adapter) hidle rfl
  · rename_i prepared hentry
    refine .looked (a := w.adapter) ask reachable hidle rfl ?_
    simp only [lookedUp, hcall, hentry]

theorem move_of_authorize {drawn : Drawn} {reachable : Bool} {ask : Ask} {task : Object}
    {request : Request} {payload : Object}
    (hcall : w.calls.get? n = some (.authorizing ask task request)) :
    Move b w (.answer n (.payload payload) drawn reachable)
      (authorize b w n drawn reachable ask task request payload) := by
  have hidle : w.waits n = none := waits_of_call hcall
  have hresults : (received b w drawn task request payload).2.actionResults =
      w.adapter.actionResults := receiveCapabilities_results _ _ _ _ _ _
  unfold authorize
  split
  · rename_i a hreceived
    rw [hreceived] at hresults
    exact .refused hidle hresults
  · rename_i a hreceived
    rw [hreceived] at hresults
    split
    · exact .refused hidle hresults
    · rename_i prepared hprepared
      refine .looked ask reachable hidle hresults ?_
      simp only [lookedUp, hcall, hreceived, hprepared]

theorem move_of_settle {label : Label} {now : Int} {ask : Ask} {prepared : Prepared}
    {payload : Object} (hcall : w.calls.get? n = some (.waiting ask prepared)) :
    Move b w label (settle b w n now ask prepared payload) := by
  have hwaits : w.waits n = some prepared.content := waits_of_call hcall
  unfold settle
  split
  · exact .failed (a := { w.adapter with seenMessages := _ }) hwaits rfl
  · split
    · exact .failed (a := { w.adapter with seenMessages := _ }) hwaits rfl
    · exact .answered
        (a := { w.adapter with seenMessages := _, actionResults := _ }) hwaits rfl

theorem move_of_step {w' : World} {label : Label} (hstep : (actions b).step w label = some w') :
    Move b w label w' := by
  cases label with
  | call n ask task =>
    obtain ⟨hunused, hw⟩ := Option.ite_none_right_eq_some.mp hstep
    obtain rfl := Option.some.inj hw
    have hidle : w.calls.get? n = none :=
      Option.isNone_iff_eq_none.mp (Bool.and_eq_true_iff.mp hunused).1
    exact .called n ask task (by rw [World.waits, hidle, Option.bind_none])
  | enter n drawn reachable =>
    simp only [actions, step] at hstep
    split at hstep
    · rename_i ask task hcall
      obtain rfl := Option.some.inj hstep
      exact move_of_enter hcall
    · cases hstep
  | answer n answer drawn reachable =>
    cases answer with
    | payload payload =>
      simp only [actions, step] at hstep
      split at hstep
      · rename_i ask task request hcall
        obtain rfl := Option.some.inj hstep
        exact move_of_authorize hcall
      · rename_i ask prepared hcall
        obtain rfl := Option.some.inj hstep
        exact move_of_settle hcall
      · cases hstep
    | raised =>
      simp only [actions, step] at hstep
      split at hstep
      · rename_i ask task request hcall
        obtain rfl := Option.some.inj hstep
        exact .refused (a := w.adapter) (waits_of_call hcall) rfl
      · rename_i ask prepared hcall
        obtain rfl := Option.some.inj hstep
        exact .failed (a := w.adapter) (waits_of_call hcall) rfl
      · cases hstep

/-! ## The record and the requests under way -/

/-- What is in the record has been returned as it is there; a request that waits is alone under its
identifier and not in the record; and each transmitted request waits, has failed or is in the
record. -/
structure Settled (w : World) : Prop where
  recorded : ∀ n k result, .returned n k result ∈ w.log →
    w.adapter.actionResults.get? k.requestId = some (k.fingerprint, result)
  apart : ∀ n n' k k', w.waits n = some k → w.waits n' = some k' → k.requestId = k'.requestId →
    n = n'
  unrecorded : ∀ n k, w.waits n = some k → w.adapter.actionResults.get? k.requestId = none
  accounted : ∀ n k, .transmitted n k ∈ w.log → (∃ n', w.waits n' = some k) ∨
    (∃ n', .failed n' k ∈ w.log) ∨
    ∃ result, w.adapter.actionResults.get? k.requestId = some (k.fingerprint, result)
  content : ∀ n n' k k', .transmitted n k ∈ w.log → .transmitted n' k' ∈ w.log →
    k.requestId = k'.requestId → k.fingerprint = k'.fingerprint
  results : ∀ e n n' k result, [e, .returned n k result].Sublist w.log →
    e.about = some (n', k) → e = .returned n' k result

theorem settled_initial : Settled World.initial := by
  constructor
  case recorded => rintro n k result ⟨⟩
  case apart => rintro n n' k k' ⟨⟩
  case unrecorded => rintro n k ⟨⟩
  case accounted => rintro n k ⟨⟩
  case content => rintro n n' k k' ⟨⟩
  case results => rintro e n n' k result ⟨⟩

theorem waits_on (w : World) (n m : ℕ) (call : Call) :
    (w.on n call).waits m = if m = n then call.content else w.waits m := by
  simp only [World.waits, World.on, Dict.get?_set]
  split <;> rfl

theorem waits_over (w : World) (n m : ℕ) (event : Event) :
    (w.over n event).waits m = if m = n then none else w.waits m := by
  simp only [World.waits, World.over, Dict.get?_erase]
  split <;> rfl

/-- A call that does not wait goes on or ends without waiting. -/
theorem waits_unchanged {w' : World} (hidle : w.waits n = none)
    (h : ∀ m, w'.waits m = if m = n then none else w.waits m) (m : ℕ) : w'.waits m = w.waits m := by
  rw [h]
  split
  · rename_i hm
    rw [hm, hidle]
  · rfl

/-- The events before the newest are as they were, and what is new agrees with the results that
have been returned. -/
theorem results_cons {log : List Event} {e : Event} (h : Settled w) (hlog : log = e :: w.log)
    (hnew : ∀ n k result, e.about = some (n, k) →
      w.adapter.actionResults.get? k.requestId = some (k.fingerprint, result) →
      e = .returned n k result) :
    ∀ e' n n' k result, [e', .returned n k result].Sublist log → e'.about = some (n', k) →
      e' = .returned n' k result := by
  intro e' n n' k result hsub habout
  rw [hlog, List.sublist_cons_iff] at hsub
  rcases hsub with hsub | ⟨rest, hrest, hsub⟩
  · exact h.results e' n n' k result hsub habout
  · obtain ⟨rfl, rfl⟩ := List.cons.inj hrest
    have hmem : Event.returned n k result ∈ w.log := List.singleton_sublist.mp hsub
    exact hnew n' k result habout (h.recorded n k result hmem)

section Moves

variable (h : Settled w)
include h

/-- No call begins or stops to wait, and what happened beside that says no more than the record. -/
theorem Settled.quiet {w' : World} {e : Event} (hwaits : ∀ n, w'.waits n = w.waits n)
    (hadapter : w'.adapter.actionResults = w.adapter.actionResults) (hlog : w'.log = e :: w.log)
    (hsent : ∀ n k, e ≠ .transmitted n k) (hreturned : ∀ n k result, e = .returned n k result →
      w.adapter.actionResults.get? k.requestId = some (k.fingerprint, result))
    (hnew : ∀ n k result, e.about = some (n, k) →
      w.adapter.actionResults.get? k.requestId = some (k.fingerprint, result) →
      e = .returned n k result) :
    Settled w' where
  recorded := by
    intro n k result hmem
    rw [hadapter]
    rw [hlog, List.mem_cons] at hmem
    rcases hmem with he | hmem
    · exact hreturned n k result he.symm
    · exact h.recorded n k result hmem
  apart := by
    intro n n' k k' hn hn'
    rw [hwaits] at hn hn'
    exact h.apart n n' k k' hn hn'
  unrecorded := by
    intro n k hn
    rw [hadapter]
    exact h.unrecorded n k (by rwa [← hwaits])
  accounted := by
    intro n k hmem
    rw [hlog, List.mem_cons] at hmem
    rcases hmem with he | hmem
    · exact absurd he.symm (hsent n k)
    · rw [hadapter]
      rcases h.accounted n k hmem with ⟨m, hm⟩ | ⟨m, hm⟩ | hrecord
      · exact .inl ⟨m, by rwa [hwaits]⟩
      · exact .inr (.inl ⟨m, by rw [hlog]; exact List.mem_cons_of_mem _ hm⟩)
      · exact .inr (.inr hrecord)
  content := by
    intro n n' k k' hn hn' hid
    rw [hlog, List.mem_cons] at hn hn'
    rcases hn with he | hn
    · exact absurd he.symm (hsent n k)
    · rcases hn' with he | hn'
      · exact absurd he.symm (hsent n' k')
      · exact h.content n n' k k' hn hn' hid
  results := results_cons h hlog hnew

/-- A call that asks for the capabilities: nothing happens beside that. -/
theorem Settled.asked (hidle : w.waits n = none) (ask : Ask) (task : Object) (request : Request) :
    Settled (w.on n (.authorizing ask task request)) := by
  have hwaits := waits_unchanged hidle fun m => waits_on w n m (.authorizing ask task request)
  constructor
  case recorded => exact h.recorded
  case content => exact h.content
  case results => exact h.results
  case apart =>
    intro m m' k k' hm hm'
    rw [hwaits] at hm hm'
    exact h.apart m m' k k' hm hm'
  case unrecorded =>
    intro m k hm
    rw [hwaits] at hm
    exact h.unrecorded m k hm
  case accounted =>
    intro m k hmem
    rcases h.accounted m k hmem with ⟨m', hm'⟩ | hrest
    · exact .inl ⟨m', by rwa [hwaits]⟩
    · exact .inr hrest

/-- A request without a record goes out, where no other one is in the way. -/
theorem Settled.transmitted (hidle : w.waits n = none) (ask : Ask) {prepared : Prepared}
    (hunrecorded : w.adapter.actionResults.get? prepared.request.requestId = none)
    (hclear : Clear w prepared.content) :
    Settled { w.on n (.waiting ask prepared) with
      log := .transmitted n prepared.content :: w.log } := by
  have hwaits : ∀ m, World.waits { w.on n (.waiting ask prepared) with
      log := .transmitted n prepared.content :: w.log } m =
      if m = n then some prepared.content else w.waits m :=
    fun m => waits_on w n m (.waiting ask prepared)
  have hother : ∀ m k, w.waits m = some k → k.requestId ≠ prepared.content.requestId := by
    intro m k hm
    obtain ⟨call, hcall, hk⟩ := Option.bind_eq_some_iff.mp hm
    exact hclear.waiting call ((Dict.mem_values_iff _ _).mpr ⟨m, hcall⟩) k hk
  have hsame : ∀ m k, .transmitted m k ∈ w.log → k.requestId = prepared.content.requestId →
      k.fingerprint = prepared.content.fingerprint := by
    intro m k hmem hid
    rcases h.accounted m k hmem with ⟨m', hm'⟩ | ⟨m', hm'⟩ | ⟨result, hrecord⟩
    · exact absurd hid (hother m' k hm')
    · exact hclear.failed _ hm' k rfl hid
    · rw [hid] at hrecord
      exact absurd (hunrecorded.symm.trans hrecord) nofun
  constructor
  case recorded =>
    intro m k result hmem
    rcases List.mem_cons.mp hmem with he | hmem
    · cases he
    · exact h.recorded m k result hmem
  case apart =>
    intro m m' k k' hm hm' hid
    rw [hwaits] at hm hm'
    split at hm
    · cases hm
      split at hm'
      · rename_i hmn hmn'
        rw [hmn, hmn']
      · exact absurd hid.symm (hother m' k' hm')
    · split at hm'
      · cases hm'
        exact absurd hid (hother m k hm)
      · exact h.apart m m' k k' hm hm' hid
  case unrecorded =>
    intro m k hm
    rw [hwaits] at hm
    split at hm
    · cases hm
      exact hunrecorded
    · exact h.unrecorded m k hm
  case accounted =>
    intro m k hmem
    rcases List.mem_cons.mp hmem with he | hmem
    · cases he
      exact .inl ⟨n, by rw [hwaits, if_pos rfl]⟩
    · rcases h.accounted m k hmem with ⟨m', hm'⟩ | ⟨m', hm'⟩ | hrecord
      · refine .inl ⟨m', ?_⟩
        rw [hwaits, if_neg, hm']
        rintro rfl
        rw [hidle] at hm'
        cases hm'
      · exact .inr (.inl ⟨m', List.mem_cons_of_mem _ hm'⟩)
      · exact .inr (.inr hrecord)
  case content =>
    intro m m' k k' hm hm' hid
    rcases List.mem_cons.mp hm with he | hm
    · cases he
      rcases List.mem_cons.mp hm' with he | hm'
      · cases he
        rfl
      · exact (hsame m' k' hm' hid.symm).symm
    · rcases List.mem_cons.mp hm' with he | hm'
      · cases he
        exact hsame m k hm hid
      · exact h.content m m' k k' hm hm' hid
  case results =>
    apply results_cons h rfl
    intro m k result habout hrecord
    cases habout
    exact absurd (hunrecorded.symm.trans hrecord) nofun

theorem Settled.look (hidle : w.waits n = none) (ask : Ask) {prepared : Prepared} (reachable : Bool)
    (hclear : w.adapter.actionResults.get? prepared.request.requestId = none →
      Clear w prepared.content) :
    Settled (look w n ask prepared reachable) := by
  have hover := fun e => waits_unchanged hidle fun m => waits_over w n m e
  unfold ExternalAgent.look
  cases hrecord : w.adapter.actionResults.get? prepared.request.requestId with
  | some record =>
    obtain ⟨fingerprint, result⟩ := record
    simp only
    split
    · rename_i hne
      refine h.quiet (hover _) rfl rfl nofun nofun ?_
      intro m k result' habout hrecord'
      cases habout
      rw [Prepared.content, hrecord] at hrecord'
      cases hrecord'
      exact absurd rfl hne
    · rename_i hfingerprint
      rw [ne_eq, not_not] at hfingerprint
      subst hfingerprint
      refine h.quiet (hover _) rfl rfl nofun ?_ ?_
      · intro m k result' he
        cases he
        exact hrecord
      · intro m k result' habout hrecord'
        cases habout
        rw [Prepared.content, hrecord] at hrecord'
        cases hrecord'
        rfl
  | none =>
    simp only
    split
    · exact h.transmitted hidle ask hrecord (hclear hrecord)
    · refine h.quiet (hover _) rfl rfl nofun nofun ?_
      intro m k result habout hrecord'
      cases habout
      exact absurd (hrecord.symm.trans hrecord') nofun

theorem Settled.failed {k : Content} (hwaits : w.waits n = some k) :
    Settled (w.over n (.failed n k)) := by
  have hover := fun m => waits_over w n m (.failed n k)
  constructor
  case recorded =>
    intro m k' result hmem
    rcases List.mem_cons.mp hmem with he | hmem
    · cases he
    · exact h.recorded m k' result hmem
  case apart =>
    intro m m' k₁ k₂ hm hm'
    rw [hover] at hm hm'
    obtain ⟨-, hm⟩ := Option.ite_none_left_eq_some.mp hm
    obtain ⟨-, hm'⟩ := Option.ite_none_left_eq_some.mp hm'
    exact h.apart m m' k₁ k₂ hm hm'
  case unrecorded =>
    intro m k' hm
    rw [hover] at hm
    exact h.unrecorded m k' (Option.ite_none_left_eq_some.mp hm).2
  case accounted =>
    intro m k' hmem
    rcases List.mem_cons.mp hmem with he | hmem
    · cases he
    · rcases h.accounted m k' hmem with ⟨m', hm'⟩ | ⟨m', hm'⟩ | hrecord
      · by_cases hn : m' = n
        · rw [hn, hwaits] at hm'
          cases hm'
          exact .inr (.inl ⟨n, List.mem_cons_self⟩)
        · exact .inl ⟨m', by rw [hover, if_neg hn, hm']⟩
      · exact .inr (.inl ⟨m', List.mem_cons_of_mem _ hm'⟩)
      · exact .inr (.inr hrecord)
  case content =>
    intro m m' k₁ k₂ hm hm' hid
    rcases List.mem_cons.mp hm with he | hm
    · cases he
    · rcases List.mem_cons.mp hm' with he | hm'
      · cases he
      · exact h.content m m' k₁ k₂ hm hm' hid
  case results =>
    apply results_cons h rfl
    intro m k' result habout hrecord
    cases habout
    exact absurd ((h.unrecorded n k hwaits).symm.trans hrecord) nofun

/-- The answer to a request that waited is recorded and returned. -/
theorem Settled.answered {a : Adapter} {k : Content} {result : ActionResult}
    (hwaits : w.waits n = some k) (hadapter : a.actionResults =
      w.adapter.actionResults.set k.requestId (k.fingerprint, result)) :
    Settled ((w.heard a).over n (.returned n k result)) := by
  have hover := fun m => waits_over (w.heard a) n m (.returned n k result)
  have hunrecorded := h.unrecorded n k hwaits
  have hget : ∀ id, a.actionResults.get? id =
      if id = k.requestId then some (k.fingerprint, result) else w.adapter.actionResults.get? id := by
    intro id
    rw [hadapter, Dict.get?_set]
  have hkept : ∀ id record, w.adapter.actionResults.get? id = some record →
      a.actionResults.get? id = some record := by
    intro id record hrecord
    rw [hget, if_neg, hrecord]
    rintro rfl
    exact absurd (hunrecorded.symm.trans hrecord) nofun
  constructor
  case recorded =>
    intro m k' result' hmem
    rcases List.mem_cons.mp hmem with he | hmem
    · cases he
      exact (hget k.requestId).trans (if_pos rfl)
    · exact hkept _ _ (h.recorded m k' result' hmem)
  case apart =>
    intro m m' k₁ k₂ hm hm'
    rw [hover] at hm hm'
    exact h.apart m m' k₁ k₂ (Option.ite_none_left_eq_some.mp hm).2
      (Option.ite_none_left_eq_some.mp hm').2
  case unrecorded =>
    intro m k' hm
    rw [hover] at hm
    obtain ⟨hmn, hm⟩ := Option.ite_none_left_eq_some.mp hm
    refine (hget k'.requestId).trans ?_
    rw [if_neg, h.unrecorded m k' hm]
    intro hid
    exact hmn (h.apart m n k' k hm hwaits hid)
  case accounted =>
    intro m k' hmem
    rcases List.mem_cons.mp hmem with he | hmem
    · cases he
    · rcases h.accounted m k' hmem with ⟨m', hm'⟩ | ⟨m', hm'⟩ | ⟨result', hrecord⟩
      · by_cases hn : m' = n
        · rw [hn, hwaits] at hm'
          cases hm'
          exact .inr (.inr ⟨result, (hget k.requestId).trans (if_pos rfl)⟩)
        · exact .inl ⟨m', by rw [hover, if_neg hn]; exact hm'⟩
      · exact .inr (.inl ⟨m', List.mem_cons_of_mem _ hm'⟩)
      · exact .inr (.inr ⟨result', hkept _ _ hrecord⟩)
  case content =>
    intro m m' k₁ k₂ hm hm' hid
    rcases List.mem_cons.mp hm with he | hm
    · cases he
    · rcases List.mem_cons.mp hm' with he | hm'
      · cases he
      · exact h.content m m' k₁ k₂ hm hm' hid
  case results =>
    apply results_cons h rfl
    intro m k' result' habout hrecord
    cases habout
    exact absurd (hunrecorded.symm.trans hrecord) nofun

/-- What a call receives beside its result changes nothing. -/
theorem Settled.heard {a : Adapter} (hresults : a.actionResults = w.adapter.actionResults) :
    Settled (w.heard a) := by
  obtain ⟨hrecorded, hapart, hunrecorded, haccounted, hcontent, hold⟩ := h
  rw [← hresults] at hrecorded hunrecorded haccounted
  exact ⟨hrecorded, hapart, hunrecorded, haccounted, hcontent, hold⟩

end Moves

/-- A step, unless it looks up a content that is under way. -/
theorem Settled.move {w' : World} {label : Label} (h : Settled w) (hok : notOverlapping b w label)
    (hmove : Move b w label w') : Settled w' := by
  cases hmove with
  | called n ask task hidle =>
    exact h.quiet (waits_unchanged hidle fun m => waits_on w n m (.called ask task)) rfl rfl nofun
      nofun nofun
  | @refused n a hidle hresults =>
    have hheard := h.heard hresults
    exact hheard.quiet (waits_unchanged hidle fun m => waits_over (w.heard a) n m _) rfl rfl nofun
      nofun nofun
  | asked ask task request hidle => exact h.asked hidle ask task request
  | @looked n a ask prepared reachable hidle hresults hcontent =>
    refine (h.heard hresults).look (n := n) hidle ask reachable ?_
    intro hunrecorded
    have hclear : Clear w prepared.content :=
      hok prepared.content hcontent (by rw [← hresults]; exact hunrecorded)
    exact ⟨hclear.waiting, hclear.failed⟩
  | @failed n a k hwaits hresults => exact (h.heard hresults).failed hwaits
  | answered hwaits hresults => exact h.answered hwaits hresults

/-- In every run in which no content is looked up while a request with its identifier waits, or
after one with another content has failed, an action is only repeated with the content it had, and
once it has returned a result that result is all it returns. -/
theorem replays_of_notOverlapping {w : World}
    (hw : (actions b).ReachableWhere (notOverlapping b) w) : Replays w := by
  have hsettled : Settled w := by
    refine hw.invariant ?_ fun _ _ _ h hok hstep => h.move hok (move_of_step hstep)
    rintro w rfl
    exact settled_initial
  constructor
  case content => exact hsettled.content
  case results =>
    intro e n n' k result hsub
    refine hsettled.results e n n' k result (List.Sublist.trans ?_ hsub)
    exact (List.Sublist.cons _ (List.Sublist.refl _)).cons_cons e

/-! ## Two starts under one request -/

/-- A sidecar that can start tasks. -/
def sidecar : Bridge := .plain "task.start" .reversibleWrite

/-- A start that the owner has authorized under the request `req-1`. -/
def startTask : Object :=
  [("owner", .str "owner"), ("workspace", .str "notes"),
    ("_action_effect", .str "reversible_write"), ("_action_capability", .str "task.start"),
    ("_action_sidecar_version", .str "1"),
    ("_action_connection_version", .str (connectionVersion sidecar)),
    ("_action_authority_ref", .str "authority-1"), ("_action_request_id", .str "req-1"),
    ("_action_call_id", .str "call-1")]

def start (prompt : String) : Ask :=
  .action "task.start" [("prompt", .str prompt), ("permission_mode", .str "read_only")]

def startAnswer : Object :=
  sidecar.answer (stableWireId sidecar "request" "req-1:task.start:new") "message-2" "response" ++
    [("status", .str "accepted"), ("task_ref", .str "task:t1"),
      ("result", .dict [("status", .str "queued")])]

/-- A start gets the capabilities and is transmitted. -/
def firstStart : List Label :=
  [.call 1 (start "one") startTask, .enter 1 drawnNow true,
    .answer 1 (.payload (sidecar.declaring "task.start" "reversible_write")) drawnNow true]

/-- The first start times out, the second one with the same content is answered, the third gets
the same result, and one with another content is refused. -/
def repeated : List Label :=
  firstStart ++
    [Label.answer 1 .raised drawnNow true,
      .call 2 (start "one") startTask, .enter 2 drawnNow true,
      .answer 2 (.payload startAnswer) drawnNow true,
      .call 3 (start "one") startTask, .enter 3 drawnNow true,
      .call 4 (start "two") startTask, .enter 4 drawnNow true]

/-- A second start with another content comes while the first one waits. -/
def overlapped : List Label :=
  firstStart ++ [Label.call 2 (start "two") startTask, .enter 2 drawnNow true]

/-- What became of the calls: whether each event is a transmission or a result. -/
def outcomes (w : World) : List (ℕ × Bool) :=
  w.log.filterMap fun
    | .transmitted n _ => some (n, false)
    | .returned n _ _ => some (n, true)
    | _ => none

theorem replays_repeated :
    ∃ w, (actions sidecar).exec (notOverlapping sidecar) World.initial repeated = some w ∧
      outcomes w = [(3, true), (2, true), (2, false), (1, false)] ∧ Replays w := by
  have hrun : ((actions sidecar).exec (notOverlapping sidecar) World.initial repeated).map outcomes =
      some [(3, true), (2, true), (2, false), (1, false)] := by decide +kernel
  obtain ⟨w, hw, hlog⟩ := Option.map_eq_some_iff.mp hrun
  exact ⟨w, hw, hlog,
    replays_of_notOverlapping (TransitionSystem.reachableWhere_of_exec rfl hw)⟩

/-- Two requests under one identifier with different fingerprints. -/
def conflict (w : World) : Bool :=
  w.log.any fun e => w.log.any fun e' =>
    match e, e' with
    | .transmitted _ k, .transmitted _ k' =>
      decide (k.requestId = k'.requestId ∧ k.fingerprint ≠ k'.fingerprint)
    | _, _ => false

theorem not_replays_of_conflict (h : conflict w = true) : ¬ Replays w := by
  rintro ⟨hcontent, -⟩
  obtain ⟨e, he, h⟩ := List.any_eq_true.mp h
  obtain ⟨e', he', h⟩ := List.any_eq_true.mp h
  cases e with
  | transmitted n k =>
    cases e' with
    | transmitted n' k' =>
      obtain ⟨hid, hfingerprint⟩ := of_decide_eq_true h
      exact hfingerprint (hcontent n n' k k' he he' hid)
    | _ => cases h
  | _ => cases h

/-- The second start is transmitted under the identifier of the first one. -/
theorem not_replays_overlapped :
    ∃ w, (actions sidecar).Reachable w ∧ outcomes w = [(2, false), (1, false)] ∧ ¬ Replays w := by
  have hrun : ((actions sidecar).exec TransitionSystem.anyStep World.initial overlapped).map
      (fun w => (outcomes w, conflict w)) = some ([(2, false), (1, false)], true) := by
    decide +kernel
  obtain ⟨w, hw, hview⟩ := Option.map_eq_some_iff.mp hrun
  obtain ⟨hlog, hconflict⟩ := Prod.mk.inj hview
  exact ⟨w, TransitionSystem.reachableWhere_of_exec rfl hw, hlog,
    not_replays_of_conflict hconflict⟩

end Pandamonium.ExternalAgent
