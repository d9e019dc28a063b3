import Pandamonium.Analysis.RoutingRules
import Pandamonium.Model.StreamLlm

/-!
# Channels of a split answer

The routing looks at one delta at a time.  A text that comes character by character is yielded as
it is, whatever is in it, so all ways of splitting it agree just where none of them makes a rule
apply: where nothing that a rule looks for is in the text.
-/

set_option autoImplicit false

namespace Pandamonium.StreamLlm

open Pandamonium.Library

/-! ## Deltas of an answer -/

/-- A line of the answer with a delta of its content. -/
def contentLine (text : String) : Line :=
  .chunk ⟨none, some (some ⟨"", "", "", .text text, []⟩), none⟩

section Answers

variable {τ : Type} (guard : Guard τ)

/-- What is yielded for an answer that comes in the given deltas. -/
def answered (start : τ) (thinkingModel : Bool) (ds : List String) : List Event :=
  streamLlm guard start (.openAi thinkingModel (ds.map contentLine))

end Answers

/-- The text that an event adds to a channel. -/
def Event.text (thinking : Bool) : Event → String
  | .delta text isThinking => if isThinking = thinking then text else ""
  | _ => ""

/-- The concatenated text of a channel. -/
def channelText (thinking : Bool) (events : List Event) : String :=
  String.join (events.map (Event.text thinking))

/-- Whether the event is the error of a stream that is stopped. -/
def Event.isError : Event → Bool
  | .error _ => true
  | _ => false

/-- The guard against repeated tokens has not stopped the stream. -/
def Unstopped (events : List Event) : Prop := ∀ e ∈ events, e.isError = false

/-- However the text is split into deltas, its visible text and its thinking are the same, where the
guard stops neither stream. -/
def RoutesAlike (thinkingModel : Bool) (text : String) : Prop :=
  ∀ (τ : Type) (guard : Guard τ) (start : τ) (ds ds' : List String),
    String.join ds = text → String.join ds' = text →
    Unstopped (answered guard start thinkingModel ds) →
    Unstopped (answered guard start thinkingModel ds') →
    ∀ thinking, channelText thinking (answered guard start thinkingModel ds) =
      channelText thinking (answered guard start thinkingModel ds')

/-! ## The parts of an answer -/

/-- A delta of content, without the guard. -/
def routeDelta (s : Routing) (d : String) : List Part × Routing :=
  let content := stripVisibleChatTemplateArtifacts d
  if content = "" then ([], s) else routeContent s content.toList

/-- The deltas one after the other. -/
def routeAll (s : Routing) : List String → List Part × Routing
  | [] => ([], s)
  | d :: ds =>
    let routed := routeDelta s d
    let rest := routeAll routed.2 ds
    (routed.1 ++ rest.1, rest.2)

/-- All parts of an answer. -/
def routed (s : Routing) (ds : List String) : List Part :=
  (routeAll s ds).1 ++ flushRouter (routeAll s ds).2

theorem routeAll_append (s : Routing) (ds ds' : List String) :
    routeAll s (ds ++ ds') =
      ((routeAll s ds).1 ++ (routeAll (routeAll s ds).2 ds').1,
        (routeAll (routeAll s ds).2 ds').2) := by
  induction ds generalizing s with
  | nil => rfl
  | cons d ds ih =>
    rw [List.cons_append, routeAll, ih, routeAll]
    dsimp only
    rw [List.append_assoc]

theorem routed_append (s : Routing) (ds ds' : List String) :
    routed s (ds ++ ds') = (routeAll s ds).1 ++ routed (routeAll s ds).2 ds' := by
  rw [routed, routeAll_append, routed, List.append_assoc]

section Runs

variable {τ : Type} {guard : Guard τ}

theorem speak_content (guard : Guard τ) (s : OpenAi τ) (d : String) :
    (∃ text message, (guard.check s.guard text).2 = some message ∧
      .error message ∈ (speak guard s "" d).1) ∨
    ∃ g skipped, speak guard s "" d =
      (deltas (routeDelta s.routing d).1,
        some { s with guard := g, routing := (routeDelta s.routing d).2 }, skipped) := by
  rw [speak]
  simp only [if_pos]
  by_cases hd : d = ""
  · subst hd
    exact .inr ⟨s.guard, false, rfl⟩
  · rw [if_neg hd]
    by_cases hstrip : stripVisibleChatTemplateArtifacts d = ""
    · rw [if_pos hstrip, routeDelta, if_pos hstrip]
      exact .inr ⟨s.guard, true, rfl⟩
    · rw [if_neg hstrip, routeDelta, if_neg hstrip]
      split
      · rename_i message hmessage
        exact .inl ⟨_, message, hmessage, List.mem_append_right _ (List.mem_singleton_self _)⟩
      · exact .inr ⟨_, false, rfl⟩

theorem step_contentLine (guard : Guard τ) (s : OpenAi τ) (d : String) :
    (openAi guard).step s (contentLine d) =
      match speak guard s "" d with
      | (events, none, _) => (events, none)
      | (events, some s, true) => (events, some s)
      | (events, some s, false) => (events ++ [], some { s with slots := s.slots }) :=
  rfl

/-- What a delta of content does where the guard lets it pass. -/
theorem step_of_speak {s next : OpenAi τ} {d : String} {events : List Event} {skipped : Bool}
    (h : speak guard s "" d = (events, some next, skipped)) :
    (openAi guard).step s (contentLine d) = (events, some next) := by
  rw [step_contentLine, h]
  cases skipped with
  | true => rfl
  | false => exact congrArg (·, some next) (List.append_nil events)

/-- The events of a delta are those of its content. -/
theorem mem_step_of_mem_speak {s : OpenAi τ} {d : String} {e : Event}
    (h : e ∈ (speak guard s "" d).1) : e ∈ ((openAi guard).step s (contentLine d)).1 := by
  rw [step_contentLine]
  generalize speak guard s "" d = spoken at h ⊢
  obtain ⟨events, next, skipped⟩ := spoken
  cases next with
  | none => exact h
  | some s' =>
    cases skipped with
    | true => exact h
    | false => exact List.mem_append_left _ h

theorem mem_run_of_mem_step {s : OpenAi τ} {line : Line} {rest : List Line} {e : Event}
    (h : e ∈ ((openAi guard).step s line).1) : e ∈ (openAi guard).run s (line :: rest) := by
  rw [Transducer.run]
  generalize (openAi guard).step s line = stepped at h ⊢
  obtain ⟨out, next⟩ := stepped
  cases next with
  | none => exact h
  | some s' => exact List.mem_append_left _ h

/-- What is yielded for an answer in deltas of content that the guard does not stop. -/
theorem run_contentLines {s : OpenAi τ} (hslots : s.slots = .new) (ds : List String)
    (h : Unstopped ((openAi guard).run s (ds.map contentLine)) ∨
      ∀ g text, (guard.check g text).2 = none) :
    (openAi guard).run s (ds.map contentLine) = deltas (routed s.routing ds) ++ [.done] := by
  induction ds generalizing s with
  | nil =>
    change s.ended = _
    rw [OpenAi.ended, hslots]
    rfl
  | cons d ds ih =>
    obtain ⟨g, skipped, hspeak⟩ : ∃ g skipped, speak guard s "" d =
        (deltas (routeDelta s.routing d).1,
          some { s with guard := g, routing := (routeDelta s.routing d).2 }, skipped) := by
      obtain ⟨text, message, hcheck, hmessage⟩ | hspeak := speak_content guard s d
      · cases h with
        | inl h =>
          have herror := h _ (mem_run_of_mem_step (mem_step_of_mem_speak hmessage))
          exact Bool.noConfusion herror
        | inr h =>
          rw [h] at hcheck
          exact absurd hcheck nofun
      · exact hspeak
    have hrun : (openAi guard).run s ((d :: ds).map contentLine) =
        deltas (routeDelta s.routing d).1 ++ (openAi guard).run
          { s with guard := g, routing := (routeDelta s.routing d).2 } (ds.map contentLine) := by
      rw [List.map_cons, Transducer.run, step_of_speak hspeak]
    have hrest := ih (s := { s with guard := g, routing := (routeDelta s.routing d).2 }) hslots
      (h.imp_left fun h e he => h e (by rw [hrun]; exact List.mem_append_right _ he))
    rw [hrun, hrest]
    simp only [routed, routeAll, deltas, List.map_append, List.append_assoc]

/-- The text of a channel is that of its parts. -/
theorem channelText_deltas (thinking : Bool) (parts : List Part) :
    (channelText thinking (deltas parts ++ [.done])).toList = channel thinking parts := by
  rw [channelText, List.map_append, String.join_append, String.toList_append]
  have hdone : (String.join ([Event.done].map (Event.text thinking))).toList = [] := rfl
  rw [hdone, List.append_nil, String.toList_join, deltas, List.map_map, List.flatMap_map]
  induction parts with
  | nil => rfl
  | cons p parts ih =>
    obtain ⟨text, isThinking⟩ := p
    rw [List.flatMap_cons, ih]
    cases isThinking <;> cases thinking <;>
      simp [Event.text, channel]

end Runs

/-! ## Nothing is added -/

/-- A step yields no more than the text it reads and what was held back, except where it repairs
the beginning of an answer. -/
def Moves (n : ℕ) (s : Routing) (out : List Part) (s' : Routing) : Prop :=
  (size out + s'.harmonyRouter.buf.length ≤ s.harmonyRouter.buf.length + n ∧
    (s'.firstContentSent = false → s.firstContentSent = false ∧ channel false out = [])) ∨
  (s.firstContentSent = false ∧ s'.firstContentSent = true ∧
    "<think>".toList <+: channel false out)

theorem formatRoutedContent_router (s : Routing) (parts : List Part) :
    (formatRoutedContent s parts).2.harmonyRouter = s.harmonyRouter := by
  induction parts generalizing s with
  | nil => rfl
  | cons p parts ih =>
    obtain ⟨text, thinking⟩ := p
    cases thinking with
    | true => exact ih s
    | false => exact ih { s with firstContentSent := true }

/-- What is formatted is yielded as it is, except for the repair. -/
theorem formatRoutedContent_cases (s : Routing) (parts : List Part) :
    (size (formatRoutedContent s parts).1 = size parts ∧
      ((formatRoutedContent s parts).2.firstContentSent = false →
        s.firstContentSent = false ∧ channel false (formatRoutedContent s parts).1 = [])) ∨
    (s.firstContentSent = false ∧ (formatRoutedContent s parts).2.firstContentSent = true ∧
      "<think>".toList <+: channel false (formatRoutedContent s parts).1) := by
  induction parts generalizing s with
  | nil => exact .inl ⟨rfl, fun h => ⟨h, rfl⟩⟩
  | cons p parts ih =>
    obtain ⟨text, thinking⟩ := p
    cases thinking with
    | true =>
      rw [formatRoutedContent]
      dsimp only
      rw [size_cons, size_cons, channel_false_cons_true]
      exact (ih s).imp_left fun h => ⟨by rw [h.1], h.2⟩
    | false =>
      rw [formatRoutedContent]
      dsimp only
      rw [size_cons, size_cons, channel_cons_self]
      have hrest := ih { s with firstContentSent := true }
      obtain ⟨hsize, hsent⟩ | ⟨hsent, -, -⟩ := hrest
      · have hstays : (formatRoutedContent { s with firstContentSent := true }
            parts).2.firstContentSent = true := by
          rw [← Bool.not_eq_false]
          exact fun h => Bool.noConfusion (hsent h).1
        cases hrepair : s.thinkingModel && !s.firstContentSent && startsWithTag "</think" text with
        | true =>
          simp only [Bool.and_eq_true, Bool.not_eq_true'] at hrepair
          refine .inr ⟨hrepair.1.2, hstays, ?_⟩
          rw [if_pos rfl, List.append_assoc]
          exact List.prefix_append _ _
        | false =>
          refine .inl ⟨by rw [if_neg Bool.false_ne_true, hsize], fun h => ?_⟩
          rw [hstays] at h
          exact Bool.noConfusion h
      · exact Bool.noConfusion hsent

theorem moves_feedRouter (s : Routing) (text : List Char) :
    Moves text.length s (feedRouter s text).1 (feedRouter s text).2 := by
  have hfeed := size_feed_le s.harmonyRouter text
  have hformat := formatRoutedContent_cases
    { s with harmonyRouter := (s.harmonyRouter.feed text).2 } (s.harmonyRouter.feed text).1
  rw [feedRouter]
  refine hformat.imp_left fun h => ⟨?_, h.2⟩
  rw [formatRoutedContent_router, h.1]
  exact hfeed

theorem moves_of_router_eq {n : ℕ} {s s' : Routing} {out : List Part}
    (hrouter : s'.harmonyRouter = s.harmonyRouter) (hsize : size out ≤ n)
    (hsent : s'.firstContentSent = false → s.firstContentSent = false ∧ channel false out = []) :
    Moves n s out s' := by
  refine .inl ⟨?_, hsent⟩
  rw [hrouter]
  omega

theorem length_dropTag_le (text : List Char) : (dropTag text).length ≤ text.length := by
  unfold dropTag
  split
  · exact le_refl _
  · exact (List.length_drop).le.trans (Nat.sub_le _ _)

theorem moves_routeInThinkTag (s : Routing) (content : List Char) :
    Moves content.length s (routeInThinkTag s content (lstrip content)).1
      (routeInThinkTag s content (lstrip content)).2 := by
  have hstrip : (lstrip content).length ≤ content.length := List.length_dropWhile_le _ _
  rw [routeInThinkTag]
  cases hclose : findText "</think>".toList (lower content) with
  | some closeIdx =>
    dsimp only
    refine moves_of_router_eq rfl ?_ fun hsent => ?_
    · have hdrop := length_dropTag_le (content.take closeIdx)
      have htake : (content.take closeIdx).length = min closeIdx content.length :=
        List.length_take
      have hthink : (if s.thinkOpenStripped then content.take closeIdx
          else dropTag (content.take closeIdx)).length ≤ min closeIdx content.length := by
        split <;> omega
      rw [size_append, size_part, size_part, List.length_drop]
      omega
    · rw [Bool.or_eq_false_iff, Bool.not_eq_false', List.isEmpty_iff] at hsent
      refine ⟨hsent.1, ?_⟩
      rw [channel_append, channel_false_part_true, channel_part_self, hsent.2]
      rfl
  | none =>
    dsimp only
    refine moves_of_router_eq rfl ?_ fun hsent => ⟨hsent, channel_false_part_true _⟩
    have hdrop := length_dropTag_le (lstrip content)
    rw [size_part]
    split <;> omega

/-- Content without a rule is yielded, and its beginning may be repaired. -/
theorem moves_content (s : Routing) (content : List Char) (repaired : Bool)
    (hrepaired : repaired = true → s.firstContentSent = false) :
    Moves content.length s
      [(if repaired then "<think>".toList ++ content else content, false)]
      { s with firstContentSent := true } := by
  cases repaired with
  | true =>
    refine .inr ⟨hrepaired rfl, rfl, ?_⟩
    rw [if_pos rfl, channel_cons_self, List.append_assoc]
    exact List.prefix_append _ _
  | false =>
    refine moves_of_router_eq rfl ?_ fun hsent => Bool.noConfusion hsent
    rw [if_neg Bool.false_ne_true, size_cons]
    exact le_refl _

theorem moves_routeContent (s : Routing) (content : List Char) :
    Moves (replaceMmThink content).length s (routeContent s content).1
      (routeContent s content).2 := by
  rw [routeContent]
  generalize replaceMmThink content = content
  dsimp only
  split
  · exact moves_feedRouter { s with harmonyActive := true } content
  · generalize (!s.firstContentSent && !s.thinkingModel && !s.inThinkTag &&
      startsWithTag "<think" content) = opens
    split
    · exact moves_routeInThinkTag
        { s with thinkingModel := s.thinkingModel || opens, inThinkTag := s.inThinkTag || opens }
        content
    · refine moves_content
        { s with thinkingModel := s.thinkingModel || opens, inThinkTag := s.inThinkTag || opens }
        content _ fun hrepaired => ?_
      simp only [Bool.and_eq_true, Bool.not_eq_true'] at hrepaired
      exact hrepaired.1.2

theorem Moves.mono {n m : ℕ} {s s' : Routing} {out : List Part} (h : Moves n s out s')
    (hle : n ≤ m) : Moves m s out s' :=
  h.imp_left fun h => ⟨h.1.trans (Nat.add_le_add_left hle _), h.2⟩

/-- A delta yields no more than its text, but for the repair. -/
theorem moves_routeDelta (s : Routing) (d : String) :
    Moves d.toList.length s (routeDelta s d).1 (routeDelta s d).2 := by
  rw [routeDelta]
  split
  · exact moves_of_router_eq rfl (Nat.zero_le _) fun h => ⟨h, rfl⟩
  · refine (moves_routeContent s _).mono ?_
    exact (length_replaceMmThink_le _).trans (length_strip_le d)

/-- What is yielded of a text of which so much is read. -/
def Bounded (mayRepair : Bool) (n : ℕ) (s : Routing) (ps : List Part) : Prop :=
  (size ps + s.harmonyRouter.buf.length ≤ n ∧
    (s.firstContentSent = false → mayRepair = true ∧ channel false ps = [])) ∨
  (mayRepair = true ∧ s.firstContentSent = true ∧ "<think>".toList <+: channel false ps)

section Bounds

variable {mayRepair : Bool} {n m : ℕ} {s s' : Routing} {ps out : List Part}

section Bounded

variable (h : Bounded mayRepair n s ps)
include h

theorem Bounded.move (hmoves : Moves m s out s') :
    Bounded mayRepair (n + m) s' (ps ++ out) := by
  obtain ⟨hsize, hsent⟩ | ⟨hmay, hsent, hrepaired⟩ := h
  · obtain ⟨hsize', hsent'⟩ | ⟨hsent', hnow, hrepaired⟩ := hmoves
    · refine .inl ⟨?_, fun h => ?_⟩
      · rw [size_append]
        omega
      · obtain ⟨hbefore, hout⟩ := hsent' h
        obtain ⟨hmay, hps⟩ := hsent hbefore
        exact ⟨hmay, by rw [channel_append, hps, hout]; rfl⟩
    · obtain ⟨hmay, hps⟩ := hsent hsent'
      exact .inr ⟨hmay, hnow, by rwa [channel_append, hps, List.nil_append]⟩
  · obtain ⟨-, hsent'⟩ | ⟨hsent', -, -⟩ := hmoves
    · have hstays : s'.firstContentSent = true := by
        rw [← Bool.not_eq_false]
        intro h
        rw [(hsent' h).1] at hsent
        exact Bool.noConfusion hsent
      rw [Bounded, channel_append]
      exact .inr ⟨hmay, hstays, hrepaired.trans (List.prefix_append _ _)⟩
    · rw [hsent'] at hsent
      exact Bool.noConfusion hsent

theorem Bounded.routeAll (ds : List String) :
    Bounded mayRepair (n + (String.join ds).toList.length) (routeAll s ds).2
      (ps ++ (routeAll s ds).1) := by
  induction ds generalizing n s ps with
  | nil => rwa [StreamLlm.routeAll, List.append_nil]
  | cons d ds ih =>
    have hrest := ih (h.move (moves_routeDelta s d))
    rw [String.join_cons, String.toList_append, List.length_append, ← Nat.add_assoc]
    rwa [List.append_assoc] at hrest

theorem Bounded.flush :
    size (ps ++ flushRouter s) ≤ n ∨
      (mayRepair = true ∧ "<think>".toList <+: channel false (ps ++ flushRouter s)) := by
  have hflush : Moves 0 s (flushRouter s)
      { s with harmonyRouter := HarmonyRouter.new, firstContentSent :=
        (formatRoutedContent s s.harmonyRouter.flush.1).2.firstContentSent } := by
    have hdrain := size_drain_le s.harmonyRouter true
    refine (formatRoutedContent_cases s s.harmonyRouter.flush.1).imp_left fun h => ⟨?_, h.2⟩
    rw [flushRouter, h.1]
    exact (Nat.le_add_right _ _).trans hdrain
  have hend := h.move hflush
  obtain ⟨hsize, -⟩ | ⟨hmay, -, hrepaired⟩ := hend
  · exact .inl hsize
  · exact .inr ⟨hmay, hrepaired⟩

theorem Bounded.routed (ds : List String) :
    size (ps ++ routed s ds) ≤ n + (String.join ds).toList.length ∨
      (mayRepair = true ∧ "<think>".toList <+: channel false (ps ++ StreamLlm.routed s ds)) := by
  have hend := (h.routeAll ds).flush
  rwa [List.append_assoc] at hend

end Bounded

end Bounds

/-! ## Character by character -/

/-- The deltas of a text that comes character by character. -/
def singles (cs : List Char) : List String := cs.map fun x => String.ofList [x]

theorem join_singles (cs : List Char) : String.join (singles cs) = String.ofList cs := by
  rw [← String.toList_inj, String.toList_join, String.toList_ofList, singles, List.flatMap_map]
  simp

theorem routeContent_of_no_marker {s : Routing} {content : List Char}
    (hsame : replaceMmThink content = content) (hactive : s.harmonyActive = false)
    (hmarker : findText "<|".toList content = none) (hinside : s.inThinkTag = false)
    (hopens : s.thinkingModel = false → s.firstContentSent = false →
      startsWithTag "<think" content = false) :
    routeContent s content =
      ([(if s.thinkingModel && !s.firstContentSent && startsWithTag "</think" content then
          "<think>".toList ++ content else content, false)],
        { s with firstContentSent := true }) := by
  have hnever : (!s.firstContentSent && !s.thinkingModel && !s.inThinkTag &&
      startsWithTag "<think" content) = false := by
    cases hsent : s.firstContentSent with
    | true => rfl
    | false =>
      cases hthinking : s.thinkingModel with
      | true => rfl
      | false => rw [hopens hthinking hsent, Bool.and_false]
  rw [routeContent, hsame]
  dsimp only
  rw [hnever, hactive, hmarker, hinside, Bool.or_false, if_neg (by decide),
    if_neg (by decide), Bool.or_false]

/-- No rule applies to one character. -/
theorem routeDelta_singleton {s : Routing} (hactive : s.harmonyActive = false)
    (hinside : s.inThinkTag = false) (x : Char) :
    routeDelta s (String.ofList [x]) = ([([x], false)], { s with firstContentSent := true }) := by
  have hshort : [x].length < 10 := by
    rw [List.length_singleton]
    decide
  have hstrip : stripVisibleChatTemplateArtifacts (String.ofList [x]) = String.ofList [x] := by
    refine strip_of_not_occurs ?_
    rw [String.toList_ofList]
    exact Regex.not_occurs_of_length_lt (by rwa [minLength_artifact])
  have hsame : replaceMmThink [x] = [x] :=
    replaceMmThink_of_not_occurs
      (Regex.not_occurs_of_length_lt (by rwa [minLength_mmThinkOpen]))
      (Regex.not_occurs_of_length_lt (by rw [minLength_mmThinkClose]; omega))
  have hmarker : findText "<|".toList [x] = none := by
    refine (findText_eq_none_iff (by decide)).mpr fun hwithin => ?_
    have hlen := hwithin.length_le
    rw [List.length_singleton] at hlen
    exact absurd hlen (by decide)
  have hne : String.ofList [x] ≠ "" := fun h => by
    have hnil := congrArg String.toList h
    rw [String.toList_ofList] at hnil
    exact absurd hnil (List.cons_ne_nil x [])
  rw [routeDelta, hstrip, if_neg hne, String.toList_ofList,
    routeContent_of_no_marker hsame hactive hmarker hinside
      fun _ _ => startsWithTag_singleton (by decide) x,
    startsWithTag_singleton (by decide), Bool.and_false]
  rfl

theorem routeAll_singles {s : Routing} (hactive : s.harmonyActive = false)
    (hinside : s.inThinkTag = false) (cs : List Char) :
    routeAll s (singles cs) = (cs.map fun x => ([x], false),
      { s with firstContentSent := s.firstContentSent || !cs.isEmpty }) := by
  induction cs generalizing s with
  | nil =>
    rw [List.isEmpty_nil, Bool.not_true, Bool.or_false]
    rfl
  | cons x cs ih =>
    rw [singles, List.map_cons, routeAll, routeDelta_singleton hactive hinside]
    have hrest := ih (s := { s with firstContentSent := true }) hactive hinside
    rw [singles] at hrest
    dsimp only
    rw [hrest, List.isEmpty_cons, Bool.not_false, Bool.or_true, Bool.true_or]
    rfl

theorem channel_false_singles (cs : List Char) :
    channel false (cs.map fun x => ([x], false)) = cs := by
  induction cs with
  | nil => rfl
  | cons x cs ih => rw [List.map_cons, channel_cons_self, ih]; rfl

theorem channel_true_singles (cs : List Char) :
    channel true (cs.map fun x => ([x], false)) = [] := by
  induction cs with
  | nil => rfl
  | cons x cs ih => rw [List.map_cons, channel_true_cons_false, ih]

/-- The answer is shown as it is. -/
def Straight (thinkingModel : Bool) (ds : List String) : Prop :=
  channel false (routed (.new thinkingModel) ds) = (String.join ds).toList ∧
    channel true (routed (.new thinkingModel) ds) = []

/-- What comes character by character is shown as it is. -/
theorem routed_singles {s : Routing} (hactive : s.harmonyActive = false)
    (hinside : s.inThinkTag = false) (hrouter : s.harmonyRouter = .new) (cs : List Char) :
    routed s (singles cs) = cs.map fun x => ([x], false) := by
  have hflush : ∀ sent, flushRouter { s with firstContentSent := sent } = [] := by
    intro sent
    rw [flushRouter, hrouter]
    rfl
  rw [routed, routeAll_singles hactive hinside, hflush, List.append_nil]

theorem straight_singles (thinkingModel : Bool) (cs : List Char) :
    Straight thinkingModel (singles cs) := by
  rw [Straight, routed_singles rfl rfl rfl, join_singles, String.toList_ofList]
  exact ⟨channel_false_singles cs, channel_true_singles cs⟩

/-! ## Splittings that agree -/

theorem channelText_answered {τ : Type} {guard : Guard τ} {start : τ} {thinkingModel : Bool}
    {ds : List String}
    (h : Unstopped (answered guard start thinkingModel ds) ∨
      ∀ g text, (guard.check g text).2 = none) (thinking : Bool) :
    (channelText thinking (answered guard start thinkingModel ds)).toList =
      channel thinking (routed (.new thinkingModel) ds) := by
  have hrun := run_contentLines (s := ⟨.new, start, .new thinkingModel⟩) rfl ds h
  rw [answered, streamLlm, hrun, channelText_deltas]

/-- A guard that stops no stream. -/
def quietGuard : Guard Unit := ⟨fun _ _ => ((), none)⟩

theorem quietGuard_check (g : Unit) (text : String) : (quietGuard.check g text).2 = none := rfl

theorem unstopped_quietGuard (thinkingModel : Bool) (ds : List String) :
    Unstopped (answered quietGuard () thinkingModel ds) := by
  have hrun := @run_contentLines Unit quietGuard ⟨.new, (), .new thinkingModel⟩ rfl ds
    (.inr fun _ _ => rfl)
  rw [answered, streamLlm, hrun]
  intro e he
  cases List.mem_append.mp he with
  | inl he =>
    obtain ⟨p, -, rfl⟩ := List.mem_map.mp he
    rfl
  | inr he => rw [List.mem_singleton.mp he]; rfl

/-- All ways of splitting a text agree where each shows it as it is. -/
theorem routesAlike_iff_straight (thinkingModel : Bool) (text : String) :
    RoutesAlike thinkingModel text ↔
      ∀ ds, String.join ds = text → Straight thinkingModel ds := by
  constructor
  · intro h ds hds
    have hsingles : String.join (singles text.toList) = text := by
      rw [join_singles, String.ofList_toList]
    have halike : ∀ thinking, channel thinking (routed (.new thinkingModel) ds) =
        channel thinking (routed (.new thinkingModel) (singles text.toList)) := by
      intro thinking
      have hsame := h Unit quietGuard () ds (singles text.toList) hds hsingles
        (unstopped_quietGuard _ _) (unstopped_quietGuard _ _) thinking
      rw [← channelText_answered (.inr quietGuard_check) thinking, hsame,
        channelText_answered (.inr quietGuard_check) thinking]
    have hstraight := straight_singles thinkingModel text.toList
    rw [Straight, hsingles] at hstraight
    rw [Straight, halike false, halike true, hds]
    exact hstraight
  · intro h τ guard start ds ds' hds hds' hrun hrun' thinking
    rw [← String.toList_inj, channelText_answered (.inl hrun), channelText_answered (.inl hrun')]
    have hd := h ds hds
    have hd' := h ds' hds'
    rw [Straight, hds] at hd
    rw [Straight, hds'] at hd'
    cases thinking with
    | false => rw [hd.1, hd'.1]
    | true => rw [hd.2, hd'.2]

end Pandamonium.StreamLlm
