import Pandamonium.Analysis.ChannelRouting

/-!
# Answers that may be split anywhere

The ways of splitting an answer agree just where nothing that a rule of the routing looks for is in
its text.  Where something is, a splitting that keeps it in one delta takes it from what is shown,
and one that cuts it does not.
-/

set_option autoImplicit false

namespace Pandamonium.StreamLlm

open Pandamonium.Library

/-- Nothing that a rule of the routing looks for is in the text: what chat templates leave, the
alias of a think tag, a marker of the harmony format, or the think tag that is looked for at the
beginning. -/
structure Plain (thinkingModel : Bool) (text : String) : Prop where
  noArtifact : visibleChatTemplateArtifact.search text = false
  noOpening : mmThinkOpen.search text = false
  noClosing : (litIgnoringCase "</mm:think>").search text = false
  noMarker : searchMarker text.toList = none
  noTag : startsWithTag (if thinkingModel then "</think" else "<think") text.toList = false

variable {thinkingModel : Bool} {text : String} {ds : List String}

/-! ## Plain texts -/

/-- What is shown of a plain text of which so much is read. -/
structure Follows (thinkingModel : Bool) (read : List Char) (s : Routing) (ps : List Part) :
    Prop where
  thinking : s.thinkingModel = thinkingModel
  outside : s.inThinkTag = false
  unmarked : s.harmonyRouter.seenHarmony = false
  idle : s.harmonyActive = false → s.harmonyRouter.buf = []
  shows : channel false ps ++ s.harmonyRouter.buf = read
  hides : channel true ps = []
  unsent : s.firstContentSent = false → channel false ps = []

theorem Follows.new (thinkingModel : Bool) : Follows thinkingModel [] (.new thinkingModel) [] where
  thinking := rfl
  outside := rfl
  unmarked := rfl
  idle _ := rfl
  shows := rfl
  hides := rfl
  unsent _ := rfl

/-- A beginning of a plain text is not repaired, and does not open a think tag. -/
theorem Plain.not_startsWithTag (h : Plain thinkingModel text) {p : List Char}
    (hp : p <+: text.toList) :
    (thinkingModel = true → startsWithTag "</think" p = false) ∧
      (thinkingModel = false → startsWithTag "<think" p = false) := by
  have htag := h.noTag
  constructor
  · rintro rfl
    exact startsWithTag_eq_false_of_begins (by decide) htag hp
  · rintro rfl
    exact startsWithTag_eq_false_of_begins (by decide) htag hp

/-- The beginning of a plain text is formatted as it is. -/
theorem formatRoutedContent_plain {s : Routing} {emit : List Char}
    (hemit : s.thinkingModel = true → s.firstContentSent = false →
      startsWithTag "</think" emit = false) :
    ∃ sent, formatRoutedContent s (part emit false) =
      (part emit false, { s with firstContentSent := sent }) ∧
      (sent = false → s.firstContentSent = false ∧ emit = []) := by
  cases hempty : emit with
  | nil => exact ⟨s.firstContentSent, rfl, fun h => ⟨h, rfl⟩⟩
  | cons x rest =>
    refine ⟨true, ?_, fun h => Bool.noConfusion h⟩
    have hnever : (s.thinkingModel && !s.firstContentSent &&
        startsWithTag "</think" (x :: rest)) = false := by
      rw [← hempty]
      cases hthinking : s.thinkingModel with
      | false => rfl
      | true =>
        cases hsent : s.firstContentSent with
        | true => rfl
        | false => rw [hemit hthinking hsent, Bool.and_false]
    have hpart : part (x :: rest) false = [(x :: rest, false)] := rfl
    rw [hpart, formatRoutedContent, hnever]
    rfl

variable {read : List Char} {s : Routing} {ps : List Part}

section Reading

variable (h : Follows thinkingModel read s ps)
include h

/-- Where nothing is shown yet, all that is read is held back. -/
theorem Follows.buf_eq (hsent : s.firstContentSent = false) :
    s.harmonyRouter.buf = read := by
  rw [← h.shows, h.unsent hsent, List.nil_append]

/-- What is held back comes right before what is read next. -/
theorem Follows.within {content : List Char} (hread : read ++ content <+: text.toList) :
    s.harmonyRouter.buf ++ content <:+: text.toList := by
  refine List.IsInfix.trans ?_ hread.isInfix
  rw [← h.shows, List.append_assoc]
  exact (List.suffix_append _ _).isInfix

theorem Follows.feedRouter (hplain : Plain thinkingModel text) {content : List Char}
    (hread : read ++ content <+: text.toList) :
    Follows thinkingModel (read ++ content)
      (feedRouter { s with harmonyActive := true } content).2
      (ps ++ (StreamLlm.feedRouter { s with harmonyActive := true } content).1) := by
  obtain ⟨emit, rest, hcut, hfeed⟩ := feed_unmarked h.unmarked
    (searchMarker_of_within hplain.noMarker (h.within hread))
  have hemit : s.thinkingModel = true → s.firstContentSent = false →
      startsWithTag "</think" emit = false := by
    intro hthinking hsent
    have hstart : emit <+: text.toList := by
      rw [h.buf_eq hsent] at hcut
      exact (hcut ▸ List.prefix_append emit rest).trans hread
    exact (hplain.not_startsWithTag hstart).1 (h.thinking ▸ hthinking)
  obtain ⟨sent, hformat, hsent⟩ := formatRoutedContent_plain
    (s := { s with harmonyActive := true, harmonyRouter := { s.harmonyRouter with buf := rest } })
    hemit
  rw [StreamLlm.feedRouter]
  dsimp only
  rw [hfeed, hformat]
  constructor
  · exact h.thinking
  · exact h.outside
  · exact h.unmarked
  · exact fun hidle => Bool.noConfusion hidle
  · rw [channel_append, channel_part_self, List.append_assoc, ← hcut, ← List.append_assoc, h.shows]
  · rw [channel_append, channel_true_part_false, h.hides]
    rfl
  · intro hunsent
    obtain ⟨hbefore, hnone⟩ := hsent hunsent
    rw [channel_append, channel_part_self, hnone, h.unsent hbefore]
    rfl

theorem Follows.routeContent (hplain : Plain thinkingModel text) {content : List Char}
    (hread : read ++ content <+: text.toList) (hsame : replaceMmThink content = content) :
    Follows thinkingModel (read ++ content) (routeContent s content).2
      (ps ++ (StreamLlm.routeContent s content).1) := by
  by_cases hrouter : (s.harmonyActive || (findText "<|".toList content).isSome) = true
  · have hroute : StreamLlm.routeContent s content =
        StreamLlm.feedRouter { s with harmonyActive := true } content := by
      rw [StreamLlm.routeContent, hsame]
      exact if_pos hrouter
    rw [hroute]
    exact h.feedRouter hplain hread
  · simp only [Bool.or_eq_true, not_or, Bool.not_eq_true, Option.isSome_eq_false_iff,
      Option.isNone_iff_eq_none] at hrouter
    obtain ⟨hactive, hmarker⟩ := hrouter
    have hbegins : s.firstContentSent = false → content <+: text.toList := by
      intro hsent
      have hnone : read = [] := (h.buf_eq hsent).symm.trans (h.idle hactive)
      rwa [hnone, List.nil_append] at hread
    have hopens : s.thinkingModel = false → s.firstContentSent = false →
        startsWithTag "<think" content = false := fun hthinking hsent =>
      (hplain.not_startsWithTag (hbegins hsent)).2 (h.thinking ▸ hthinking)
    have hnever : (s.thinkingModel && !s.firstContentSent &&
        startsWithTag "</think" content) = false := by
      cases hthinking : s.thinkingModel with
      | false => rfl
      | true =>
        cases hsent : s.firstContentSent with
        | true => rfl
        | false =>
          rw [(hplain.not_startsWithTag (hbegins hsent)).1 (h.thinking ▸ hthinking), Bool.and_false]
    rw [routeContent_of_no_marker hsame hactive hmarker h.outside hopens, hnever]
    constructor
    · exact h.thinking
    · exact h.outside
    · exact h.unmarked
    · exact h.idle
    · have hshown := h.shows
      rw [h.idle hactive, List.append_nil] at hshown
      rw [channel_append, hshown, if_neg Bool.false_ne_true, channel_cons_self, channel_nil,
        List.append_nil, h.idle hactive, List.append_nil]
    · rw [channel_append, channel_true_cons_false, h.hides]
      rfl
    · exact fun hunsent => Bool.noConfusion hunsent

end Reading

/-- A plain text is shown as it is, however it is split. -/
theorem Follows.routeAll (h : Follows thinkingModel read s ps)
    (hplain : Plain thinkingModel text)
    (hread : read ++ (String.join ds).toList <+: text.toList) :
    Follows thinkingModel (read ++ (String.join ds).toList) (routeAll s ds).2
      (ps ++ (StreamLlm.routeAll s ds).1) := by
  induction ds generalizing read s ps with
  | nil =>
    have hnil : (String.join ([] : List String)).toList = [] := rfl
    rw [StreamLlm.routeAll, hnil, List.append_nil, List.append_nil]
    exact h
  | cons d ds ih =>
    rw [String.join_cons, String.toList_append, ← List.append_assoc] at hread ⊢
    have hd : read ++ d.toList <+: text.toList := (List.prefix_append _ _).trans hread
    have hpiece : d.toList <:+: text.toList := (List.suffix_append _ _).isInfix.trans hd.isInfix
    have hunmatched : ∀ {r : Regex}, r.lookFree = true → r.search text = false →
        ¬ r.Occurs d.toList := fun hfree hsearch hoccurs =>
      (Regex.search_eq_false_iff hfree).mp hsearch (hoccurs.mono hpiece)
    have hstrip := strip_of_not_occurs (hunmatched lookFree_artifact hplain.noArtifact)
    have hsame := replaceMmThink_of_not_occurs
      (hunmatched lookFree_mmThinkOpen hplain.noOpening)
      (hunmatched lookFree_mmThinkClose hplain.noClosing)
    have hstep : Follows thinkingModel (read ++ d.toList) (routeDelta s d).2
        (ps ++ (routeDelta s d).1) := by
      rw [routeDelta, hstrip]
      by_cases hempty : d = ""
      · rw [if_pos hempty, hempty, String.toList_empty, List.append_nil, List.append_nil]
        exact h
      · rw [if_neg hempty]
        exact h.routeContent hplain hd hsame
    have hrest := ih hstep hread
    rwa [List.append_assoc ps] at hrest

/-- Where the stream ends, what was held back is shown. -/
theorem Follows.flush (h : Follows thinkingModel text.toList s ps)
    (hplain : Plain thinkingModel text) :
    channel false (ps ++ flushRouter s) = text.toList ∧ channel true (ps ++ flushRouter s) = [] := by
  have hwithin : s.harmonyRouter.buf <:+: text.toList := by
    rw [← h.shows]
    exact (List.suffix_append _ _).isInfix
  have hemit : s.thinkingModel = true → s.firstContentSent = false →
      startsWithTag "</think" s.harmonyRouter.buf = false := by
    intro hthinking hsent
    rw [h.buf_eq hsent]
    exact (hplain.not_startsWithTag (List.prefix_refl _)).1 (h.thinking ▸ hthinking)
  obtain ⟨sent, hformat, -⟩ := formatRoutedContent_plain hemit
  rw [flushRouter, flush_unmarked h.unmarked (searchMarker_of_within hplain.noMarker hwithin), hformat,
    channel_append, channel_append, channel_part_self, channel_true_part_false, h.hides, h.shows]
  exact ⟨rfl, rfl⟩

theorem Plain.straight (h : Plain thinkingModel text) (hds : String.join ds = text) :
    Straight thinkingModel ds := by
  have hread := (Follows.new thinkingModel).routeAll h
    (show [] ++ (String.join ds).toList <+: text.toList by rw [hds]; rfl)
  rw [List.nil_append, List.nil_append, hds] at hread
  rw [Straight, routed, hds]
  exact hread.flush h

/-! ## Texts with something in them -/

/-- A piece in one delta, between characters. -/
def around (a m c : List Char) : List String := singles a ++ String.ofList m :: singles c

theorem toList_join_around (a m c : List Char) :
    (String.join (around a m c)).toList = a ++ m ++ c := by
  rw [around, String.join_append, String.join_cons, join_singles, join_singles]
  simp only [String.toList_append, String.toList_ofList, List.append_assoc]

/-- What is kept after the characters before the piece. -/
abbrev afterSingles (thinkingModel : Bool) (a : List Char) : Routing :=
  { Routing.new thinkingModel with firstContentSent := !a.isEmpty }

theorem routed_around (thinkingModel : Bool) (a m c : List Char) :
    routed (.new thinkingModel) (around a m c) =
      (a.map fun x => ([x], false)) ++
        ((routeDelta (afterSingles thinkingModel a) (String.ofList m)).1 ++
          routed (routeDelta (afterSingles thinkingModel a) (String.ofList m)).2 (singles c)) := by
  have hbefore : routeAll (.new thinkingModel) (singles a) =
      (a.map fun x => ([x], false), afterSingles thinkingModel a) :=
    routeAll_singles (s := .new thinkingModel) rfl rfl a
  rw [around, routed_append, hbefore]
  dsimp only
  rw [routed, routeAll, routed, List.append_assoc]

theorem size_eq_of_straight (h : Straight thinkingModel ds) :
    size (routed (.new thinkingModel) ds) = (String.join ds).toList.length := by
  rw [size, h.1, h.2]
  rfl

variable {c m a : List Char}

/-- What chat templates leave is removed where it comes in one delta. -/
theorem not_straight_of_artifact (hm : m ∈ visibleChatTemplateArtifact.language) :
    ¬ Straight thinkingModel (around a m c) := by
  intro hstraight
  have hsize := size_eq_of_straight hstraight
  have hremoved : stripVisibleChatTemplateArtifacts (String.ofList m) = "" :=
    strip_of_mem (by rwa [String.toList_ofList])
  have hnothing : routeDelta (afterSingles thinkingModel a) (String.ofList m) =
      ([], afterSingles thinkingModel a) := by
    rw [routeDelta, hremoved]
    rfl
  have hlen := Regex.minLength_le hm
  rw [minLength_artifact] at hlen
  rw [routed_around, hnothing, routed_singles rfl rfl rfl, toList_join_around, List.nil_append,
    ← List.map_append, size, channel_false_singles, channel_true_singles] at hsize
  simp only [List.length_append, List.length_nil] at hsize
  omega

/-- A delta of which less is yielded than it has is missed, unless the answer is repaired. -/
theorem not_straight_of_moves {k : ℕ} (hk : k < m.length)
    (hmoves : Moves k (afterSingles thinkingModel a)
      (routeDelta (afterSingles thinkingModel a) (String.ofList m)).1
      (routeDelta (afterSingles thinkingModel a) (String.ofList m)).2)
    (hrepair : ¬ "<think>".toList <+: m ++ c) : ¬ Straight thinkingModel (around a m c) := by
  intro hstraight
  have hbefore : Bounded a.isEmpty a.length (afterSingles thinkingModel a)
      (a.map fun x => ([x], false)) := by
    refine .inl ⟨?_, fun hsent => ?_⟩
    · rw [size, channel_false_singles, channel_true_singles]
      exact le_refl _
    · rw [Bool.not_eq_false'] at hsent
      exact ⟨hsent, by rw [channel_false_singles, List.isEmpty_iff.mp hsent]⟩
  have hall := (hbefore.move hmoves).routed (singles c)
  have hsize := size_eq_of_straight hstraight
  have hshown := hstraight.1
  rw [List.append_assoc, ← routed_around, join_singles, String.toList_ofList] at hall
  rw [toList_join_around] at hsize hshown
  cases hall with
  | inl h =>
    rw [hsize, List.length_append, List.length_append] at h
    omega
  | inr h =>
    obtain ⟨hempty, hrepaired⟩ := h
    rw [hshown, List.isEmpty_iff.mp hempty, List.nil_append] at hrepaired
    exact hrepair hrepaired

/-- No chat template and no alias of a think tag. -/
structure Untouched (text : List Char) : Prop where
  artifact : ¬ visibleChatTemplateArtifact.Occurs text
  opening : ¬ mmThinkOpen.Occurs text
  closing : ¬ mmThinkClose.Occurs text

theorem Untouched.mono {cs cs' : List Char} (h : Untouched cs) (hwithin : cs' <:+: cs) :
    Untouched cs' where
  artifact hoccurs := h.artifact (hoccurs.mono hwithin)
  opening hoccurs := h.opening (hoccurs.mono hwithin)
  closing hoccurs := h.closing (hoccurs.mono hwithin)

theorem ofList_ne_empty (hm : m ≠ []) : String.ofList m ≠ "" := fun h =>
  hm (by rw [← String.toList_ofList (l := m), h]; rfl)

/-- The content of a delta that has no chat template in it. -/
theorem routeDelta_of_not_occurs (hne : m ≠ []) (hartifact : ¬ visibleChatTemplateArtifact.Occurs m)
    (s : Routing) :
    routeDelta s (String.ofList m) = StreamLlm.routeContent s m := by
  have hstrip : stripVisibleChatTemplateArtifacts (String.ofList m) = String.ofList m :=
    strip_of_not_occurs (by rwa [String.toList_ofList])
  rw [routeDelta, hstrip, if_neg (ofList_ne_empty hne), String.toList_ofList]

/-- An alias of a think tag in one delta is replaced by the tag, which is shorter. -/
theorem not_straight_of_alias (hartifact : ¬ visibleChatTemplateArtifact.Occurs m)
    (hm : m ∈ mmThinkOpen.language ∨ m ∈ mmThinkClose.language) :
    ¬ Straight thinkingModel (around a m c) := by
  have hshorter := length_replaceMmThink_of_mem hm
  have hne : m ≠ [] := List.ne_nil_of_length_pos (Nat.zero_lt_of_lt hshorter)
  refine not_straight_of_moves hshorter ?_ (not_prefix_of_mem_alias hm)
  rw [routeDelta_of_not_occurs hne hartifact]
  exact moves_routeContent _ m

/-- A marker in one delta is taken by the router. -/
theorem not_straight_of_marker {marker : String} (hmarker : marker ∈ harmonyMarkers)
    (huntouched : Untouched marker.toList) :
    ¬ Straight thinkingModel (around a marker.toList c) := by
  have hbegins : ∀ marker ∈ harmonyMarkers, marker.toList.take 2 = ['<', '|'] ∧
      (findText "<|".toList marker.toList).isSome = true ∧ marker.toList ≠ [] := by decide
  obtain ⟨htake, hfound, hne⟩ := hbegins marker hmarker
  obtain ⟨hnone, hbuf⟩ := feed_marker marker hmarker
  refine not_straight_of_moves (k := 0) (List.length_pos_of_ne_nil hne) ?_ ?_
  · have hsame := replaceMmThink_of_not_occurs huntouched.opening huntouched.closing
    have hroute : StreamLlm.routeContent (afterSingles thinkingModel a) marker.toList =
        StreamLlm.feedRouter { afterSingles thinkingModel a with harmonyActive := true }
          marker.toList := by
      rw [StreamLlm.routeContent, hsame]
      exact if_pos (by rw [hfound, Bool.or_true])
    have hnew : (afterSingles thinkingModel a).harmonyRouter = HarmonyRouter.new := rfl
    rw [routeDelta_of_not_occurs hne huntouched.artifact, hroute, StreamLlm.feedRouter]
    dsimp only
    rw [hnew, hnone]
    refine .inl ⟨?_, fun hsent => ⟨hsent, rfl⟩⟩
    change 0 + (HarmonyRouter.new.feed marker.toList).2.buf.length ≤ 0
    rw [hbuf]
    exact le_refl 0
  · intro hstart
    have htwo : ("<think>".toList.take 2) = (marker.toList ++ c).take 2 := by
      obtain ⟨rest, hrest⟩ := hstart
      rw [← hrest]
      rfl
    rw [List.take_append_of_le_length, htake] at htwo
    · exact absurd htwo (by decide)
    · have hlen := congrArg List.length htake
      rw [List.length_take, List.length_cons, List.length_singleton] at hlen
      omega

/-- What comes first, in a delta of its own, is shown first. -/
theorem routed_cons (s : Routing) (d : String) (ds : List String) :
    routed s (d :: ds) = (routeDelta s d).1 ++ routed (routeDelta s d).2 ds := by
  rw [routed, routeAll, routed, List.append_assoc]

/-- The start of a think tag in one delta opens a think tag, where the model is not known to
think. -/
theorem not_straight_of_think {spaces w : List Char} (huntouched : Untouched (spaces ++ w))
    (hspaces : ∀ x ∈ spaces, isSpace x = true) (hw : lower w = "<think".toList) :
    ¬ Straight false [String.ofList (spaces ++ w), String.ofList c] := by
  have hlstrip : lstrip (spaces ++ w) = w := lstrip_spaces_append hspaces hw
  have hne : w ≠ [] := by
    rintro rfl
    exact absurd hw (by decide)
  have hsame := replaceMmThink_of_not_occurs huntouched.opening huntouched.closing
  have hmarker : findText "<|".toList (spaces ++ w) = none :=
    findText_eq_none_of_not_mem (x := '|') (by decide)
      (not_mem_spaces_append (by decide) (by decide) hspaces (by rw [hw]; decide)).1
  have hclose : findText "</think>".toList (lower (spaces ++ w)) = none :=
    findText_eq_none_of_not_mem (x := '/') (by decide)
      (not_mem_spaces_append (by decide) (by decide) hspaces (by rw [hw]; decide)).2
  have hend : findText ">".toList (lower w) = none := by rw [hw]; decide
  have hopens : startsWithTag "<think" (spaces ++ w) = true := by
    rw [startsWithTag_iff, hlstrip, hw]
  have hroute : StreamLlm.routeContent (.new false) (spaces ++ w) =
      (part (spaces ++ w) true,
        { Routing.new false with
          thinkingModel := true, inThinkTag := true, thinkOpenStripped := true }) := by
    rw [StreamLlm.routeContent, hsame, hlstrip]
    dsimp only
    rw [hmarker, hopens, routeInThinkTag, hclose, hend]
    rfl
  have hpiece : spaces ++ w ≠ [] := fun h => hne (List.append_eq_nil_iff.mp h).2
  intro hstraight
  have hhidden := hstraight.2
  rw [routed_cons, routeDelta_of_not_occurs hpiece huntouched.artifact, hroute, channel_append,
    channel_part_self, List.append_eq_nil_iff] at hhidden
  exact hpiece hhidden.1

/-- The start of a closing think tag in one delta is repaired, where the model thinks. -/
theorem not_straight_of_closeThink {spaces w : List Char} (huntouched : Untouched (spaces ++ w))
    (hspaces : ∀ x ∈ spaces, isSpace x = true) (hw : lower w = "</think".toList) :
    ¬ Straight true [String.ofList (spaces ++ w), String.ofList c] := by
  have hlstrip : lstrip (spaces ++ w) = w := lstrip_spaces_append hspaces hw
  have hpiece : spaces ++ w ≠ [] := by
    intro h
    rw [(List.append_eq_nil_iff.mp h).2] at hw
    exact absurd hw (by decide)
  have hsame := replaceMmThink_of_not_occurs huntouched.opening huntouched.closing
  have hmarker : findText "<|".toList (spaces ++ w) = none :=
    findText_eq_none_of_not_mem (x := '|') (by decide)
      (not_mem_spaces_append (by decide) (by decide) hspaces (by rw [hw]; decide)).1
  have hcloses : startsWithTag "</think" (spaces ++ w) = true := by
    rw [startsWithTag_iff, hlstrip, hw]
  intro hstraight
  have hshown := hstraight.1
  have htext : (String.join [String.ofList (spaces ++ w), String.ofList c]).toList =
      spaces ++ w ++ c := by
    rw [String.toList_join]
    simp
  rw [routed_cons, routeDelta_of_not_occurs hpiece huntouched.artifact,
    routeContent_of_no_marker hsame rfl hmarker rfl (fun hthinking => Bool.noConfusion hthinking),
    hcloses, htext] at hshown
  -- The text would start with `<think>` and with a closing tag.
  have hstart : "<think>".toList <+: spaces ++ w ++ c := by
    rw [← hshown, channel_append]
    refine List.IsPrefix.trans ?_ (List.prefix_append _ _)
    change _ <+: ("<think>".toList ++ (spaces ++ w)) ++ []
    rw [List.append_assoc]
    exact List.prefix_append _ _
  have hcloses' := startsWithTag_of_begins (by decide) hcloses (List.prefix_append _ c)
  obtain ⟨rest, hrest⟩ := hstart
  rw [← hrest, startsWithTag_iff] at hcloses'
  obtain ⟨d, hd⟩ := hcloses'
  have hsecond := congrArg (fun cs => cs.drop 1 |>.take 1) hd
  exact absurd hsecond (by
    change ¬ ['/'] = ['t']
    decide)

/-! ## The texts for which all splittings agree -/

/-- A text with something in it is not shown as it is by each splitting. -/
theorem plain_of_straight (h : ∀ ds, String.join ds = text → Straight thinkingModel ds) :
    Plain thinkingModel text := by
  have haround : ∀ {a m c : List Char}, a ++ m ++ c = text.toList →
      Straight thinkingModel (around a m c) := by
    intro a m c htext
    refine h _ ?_
    rw [← String.toList_inj, toList_join_around, htext]
  have hartifact : ¬ visibleChatTemplateArtifact.Occurs text.toList := by
    rintro ⟨m, hm, a, c, htext⟩
    exact not_straight_of_artifact hm (haround htext)
  have halias : ∀ m, m ∈ mmThinkOpen.language ∨ m ∈ mmThinkClose.language →
      ¬ m <:+: text.toList := by
    rintro m hm hwithin
    obtain ⟨a, c, htext⟩ := hwithin
    refine not_straight_of_alias (fun hoccurs => hartifact (hoccurs.mono ?_)) hm (haround htext)
    exact ⟨a, c, htext⟩
  have huntouched : Untouched text.toList :=
    ⟨hartifact, fun ⟨m, hm, hwithin⟩ => halias m (.inl hm) hwithin,
      fun ⟨m, hm, hwithin⟩ => halias m (.inr hm) hwithin⟩
  refine ⟨(Regex.search_eq_false_iff lookFree_artifact).mpr huntouched.artifact,
    (Regex.search_eq_false_iff lookFree_mmThinkOpen).mpr huntouched.opening,
    (Regex.search_eq_false_iff lookFree_mmThinkClose).mpr huntouched.closing, ?_, ?_⟩
  · refine searchMarker_eq_none_iff.mpr fun marker hmarker hwithin => ?_
    obtain ⟨a, c, htext⟩ := hwithin
    exact not_straight_of_marker hmarker (huntouched.mono ⟨a, c, htext⟩) (haround htext)
  · rw [← Bool.not_eq_true]
    intro htag
    have hjoin : ∀ {p c : List Char}, text.toList = p ++ c →
        Straight thinkingModel [String.ofList p, String.ofList c] := by
      intro p c htext
      refine h _ ?_
      rw [← String.toList_inj, String.toList_join, htext]
      simp
    cases thinkingModel with
    | true =>
      obtain ⟨spaces, w, c, htext, hspaces, hw⟩ :=
        exists_of_startsWithTag (by decide) (by decide) htag
      refine not_straight_of_closeThink (huntouched.mono ?_) hspaces hw (hjoin htext)
      exact ⟨[], c, htext.symm⟩
    | false =>
      obtain ⟨spaces, w, c, htext, hspaces, hw⟩ :=
        exists_of_startsWithTag (by decide) (by decide) htag
      refine not_straight_of_think (huntouched.mono ?_) hspaces hw (hjoin htext)
      exact ⟨[], c, htext.symm⟩

/-- All ways of splitting an answer show the same just where nothing that a rule of the routing
looks for is in its text. -/
theorem routesAlike_iff (thinkingModel : Bool) (text : String) :
    RoutesAlike thinkingModel text ↔ Plain thinkingModel text := by
  rw [routesAlike_iff_straight]
  exact ⟨plain_of_straight, fun h ds hds => h.straight hds⟩

/-- A think block that is cut in its tag is shown, and one that is not is thinking. -/
theorem not_routesAlike_thinkBlock : ¬ RoutesAlike false "<think>a</think>b" := by
  intro h
  have hsame := h Unit quietGuard () ["<think>a</think>b"] ["<thi", "nk>a</think>b"] (by decide)
    (by decide) (unstopped_quietGuard _ _) (unstopped_quietGuard _ _) true
  exact absurd hsame (by decide +kernel)

end Pandamonium.StreamLlm
