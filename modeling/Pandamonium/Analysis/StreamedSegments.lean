import Pandamonium.Analysis.SegmentBoundaries
import Mathlib.Data.List.Induction
import Mathlib.Data.Nat.Find

/-!
# Committed offsets

A renderer commits what the segmenter finds in the text so far.  A committed offset stays a boundary
of the text, unless it lies behind a closing fence whose line is not ended yet: there the text goes
on inside of a line.
-/

set_option autoImplicit false

namespace Pandamonium.Segmenter

variable {text more : Text} {render : Text → Text} {offset : ℕ}

/-- Scanning the text from its start yields a boundary at the offset. -/
def IsBoundary (text : Text) (offset : ℕ) : Prop :=
  ∃ b ∈ findBoundaries text 0, b.offset = offset

/-- Every segment that was frozen lies between boundaries of the text, and was rendered as this piece
of the text is. -/
def FrozenAtBoundaries (render : Text → Text) (s : Stream) : Prop :=
  ∀ segment ∈ s.frozen, (segment.start = 0 ∨ IsBoundary s.text segment.start) ∧
    IsBoundary s.text segment.stop ∧
    segment.html = render (slice s.text segment.start segment.stop)

/-- The text that has arrived. -/
def textOf (arrivals : List Arrival) : Text := arrivals.flatMap Arrival.chunk

/-- Whenever the text goes on, it did not end with an unfinished line that closes a fence. -/
def FinishesFences (arrivals : List Arrival) : Prop :=
  ∀ before after, arrivals = before ++ after → textOf after ≠ [] →
    endsInClose (textOf before) = false

/-! ## Offsets that stay -/

/-- A boundary at the end of the text is one of a closed fence. -/
def Settled (text : Text) (offset : ℕ) : Prop :=
  ∃ b ∈ scanAll 0 text none, b.offset = offset ∧
    (offset < text.length ∨ b.afterClosedFence = true)

theorem findBoundaries_zero (text : Text) : findBoundaries text 0 = scanAll 0 text none := by
  rw [findBoundaries_eq, List.drop_zero]

theorem Settled.isBoundary (h : Settled text offset) : IsBoundary text offset := by
  obtain ⟨b, hb, hoffset, -⟩ := h
  exact ⟨b, (findBoundaries_zero text).symm ▸ hb, hoffset⟩

theorem Settled.le_length (h : Settled text offset) : offset ≤ text.length := by
  obtain ⟨b, hb, rfl, -⟩ := h
  obtain ⟨before, after, bs, rfl, hoffset, -⟩ := exists_of_mem_scanAll hb
  rw [hoffset, List.length_append]
  omega

theorem endsInClose_iff : endsInClose text = true ↔
    ⟨text.length, true⟩ ∈ scanAll 0 text none ∧ text.getLast? ≠ some newline := by
  have h := @mem_scanAll_end_iff 0 text none
  rw [Nat.zero_add] at h
  exact h.symm

theorem Settled.append (h : Settled text offset)
    (hfinished : more = [] ∨ endsInClose text = false) : Settled (text ++ more) offset := by
  by_cases hmore : more = []
  · rw [hmore, List.append_nil]
    exact h
  have hle := h.le_length
  have hlt : offset < (text ++ more).length := by
    have := List.length_pos_of_ne_nil hmore
    rw [List.length_append]
    omega
  obtain ⟨b, hb, rfl, hinside⟩ := h
  refine ⟨b, mem_scanAll_append hb ?_ more, rfl, .inl hlt⟩
  rw [Nat.zero_add]
  by_cases hend : b.offset < text.length
  · exact .inl hend
  · -- The boundary is at the end, behind a closing line that must be ended.
    have hfence := hinside.resolve_left hend
    have heq : b.offset = text.length := by omega
    refine .inr ⟨hfence, not_not.mp fun hlast => ?_⟩
    have hclose := endsInClose_iff.mpr ⟨(by rw [← heq, ← hfence]; exact hb), hlast⟩
    rw [hfinished.resolve_left hmore] at hclose
    cases hclose

/-- An offset inside of the text is a boundary only behind a newline. -/
theorem IsBoundary.getLast?_take (h : IsBoundary text offset) (hlt : offset < text.length) :
    (text.take offset).getLast? = some newline := by
  obtain ⟨b, hb, rfl⟩ := h
  rw [findBoundaries_zero] at hb
  obtain ⟨before, after, bs, rfl, hoffset, -, hend, -⟩ := exists_of_mem_scanAll hb
  rw [Nat.zero_add] at hoffset
  rw [hoffset] at hlt ⊢
  rw [List.take_left]
  refine hend.resolve_left ?_
  rintro rfl
  simp at hlt

/-! ## One commit -/

theorem advance_cases (text : Text) (render : Text → Text) (best segStart : ℕ)
    (boundaries : List Boundary) :
    advance text render best segStart boundaries = best ∨
      ∃ b ∈ boundaries, advance text render best segStart boundaries = b.offset ∧
        (b.offset < text.length ∨ b.afterClosedFence = true) := by
  induction boundaries generalizing best segStart with
  | nil => exact .inl rfl
  | cons b boundaries ih =>
    obtain ⟨offset, afterClosedFence⟩ := b
    unfold advance
    dsimp only
    obtain hbest | ⟨b, hb, heq⟩ := ih (if afterClosedFence then offset
      else if ¬ isBlank (slice text offset
          ((boundaries.head?.map Boundary.offset).getD text.length)) ∧
        cutIsRenderSafe (slice text segStart offset) (slice text offset
          ((boundaries.head?.map Boundary.offset).getD text.length)) render then offset
      else best) offset
    · rw [hbest]
      split_ifs with hfence hsafe
      · exact .inr ⟨_, List.mem_cons_self, rfl, .inr hfence⟩
      · refine .inr ⟨_, List.mem_cons_self, rfl, .inl ?_⟩
        -- What is behind the cut is not blank, so there is something.
        by_contra hle
        dsimp only at hle
        refine hsafe.1 ?_
        rw [slice, List.drop_eq_nil_of_le]
        · rfl
        · rw [List.length_take]
          omega
      · exact .inl rfl
    · exact .inr ⟨b, List.mem_cons_of_mem _ hb, heq⟩

theorem advance_closed (text : Text) (render : Text → Text) (best segStart : ℕ)
    {boundaries : List Boundary} (hlast : boundaries.getLast? = some ⟨offset, true⟩) :
    advance text render best segStart boundaries = offset := by
  induction boundaries generalizing best segStart with
  | nil => cases hlast
  | cons b boundaries ih =>
    unfold advance
    dsimp only
    by_cases hnil : boundaries = []
    · subst hnil
      obtain rfl := Option.some.inj hlast
      rfl
    · rw [List.getLast?_cons_of_ne_nil hnil] at hlast
      exact ih _ _ hlast

/-- The scan from a committed offset is the rest of the scan of the text. -/
theorem scanAll_of_settled {committedLen : ℕ}
    (hcommitted : committedLen = 0 ∨ Settled text committedLen) :
    ∃ bs, scanAll 0 text none = bs ++ findBoundaries text committedLen ∧
      ∀ b ∈ bs, b.offset ≤ committedLen := by
  rw [findBoundaries_eq]
  obtain rfl | ⟨b, hb, rfl, -⟩ := hcommitted
  · exact ⟨[], by rw [List.drop_zero]; rfl, fun _ h => absurd h List.not_mem_nil⟩
  · obtain ⟨before, after, bs, rfl, hoffset, -, -, hscan, -, hle⟩ := exists_of_mem_scanAll hb
    rw [Nat.zero_add] at hoffset
    refine ⟨bs, ?_, hle⟩
    rw [hscan, hoffset, List.drop_left]

theorem splitFinalized_cases (render : Text → Text) {committedLen : ℕ}
    (hcommitted : committedLen = 0 ∨ Settled text committedLen) :
    splitFinalized text render committedLen = committedLen ∨
      Settled text (splitFinalized text render committedLen) := by
  obtain ⟨bs, hscan, -⟩ := scanAll_of_settled hcommitted
  obtain heq | ⟨b, hb, heq, hinside⟩ :=
    advance_cases text render committedLen committedLen (findBoundaries text committedLen)
  · exact .inl heq
  · refine .inr ⟨b, ?_, heq.symm, ?_⟩
    · rw [hscan]
      exact List.mem_append_right _ hb
    · rw [splitFinalized, heq]
      exact hinside

/-- A text that ends with an unfinished closing line is committed to its end. -/
theorem splitFinalized_endsInClose (render : Text → Text) {committedLen : ℕ}
    (hcommitted : committedLen = 0 ∨ Settled text committedLen) (hlt : committedLen < text.length)
    (hclose : endsInClose text = true) :
    splitFinalized text render committedLen = text.length := by
  obtain ⟨bs, hscan, hle⟩ := scanAll_of_settled hcommitted
  obtain ⟨hmem, -⟩ := endsInClose_iff.mp hclose
  rw [hscan] at hmem
  have hfound : ⟨text.length, true⟩ ∈ findBoundaries text committedLen := by
    refine (List.mem_append.mp hmem).resolve_left fun hbefore => ?_
    have := hle _ hbefore
    dsimp only at this
    omega
  rw [splitFinalized]
  refine advance_closed _ _ _ _ ?_
  rw [findBoundaries_eq] at hfound ⊢
  obtain ⟨before, after, bs', happend, hoffset, -, -, hscan', hlast, -⟩ :=
    exists_of_mem_scanAll hfound
  have hafter : after = [] := by
    have hlength := congrArg List.length happend
    rw [List.length_drop, List.length_append] at hlength
    dsimp only at hoffset
    exact List.length_eq_zero_iff.mp (by omega)
  rw [hscan', hafter, scanAll_nil, List.append_nil]
  exact hlast

/-! ## Every stream -/

/-- What is known of a stream whose text has never gone on in an unfinished closing line. -/
structure Held (render : Text → Text) (s : Stream) : Prop where
  committed : s.committedLen = 0 ∨ Settled s.text s.committedLen
  last : s.committedLen = 0 ∨ ∃ segment ∈ s.frozen, segment.stop = s.committedLen
  frozen : ∀ segment ∈ s.frozen, (segment.start = 0 ∨ Settled s.text segment.start) ∧
    Settled s.text segment.stop ∧
    segment.html = render (slice s.text segment.start segment.stop)
  whole : endsInClose s.text = true → ∃ segment ∈ s.frozen, segment.stop = s.text.length

theorem held_new (render : Text → Text) : Held render .new where
  committed := .inl rfl
  last := .inl rfl
  frozen _ h := absurd h List.not_mem_nil
  whole h := absurd h (by decide)

theorem slice_append {start stop : ℕ} (h : stop ≤ text.length) (more : Text) :
    slice (text ++ more) start stop = slice text start stop := by
  rw [slice, slice, List.take_append_of_le_length h]

theorem ne_nil_of_endsInClose (h : endsInClose text = true) : text ≠ [] := by
  rintro rfl
  exact absurd h (by decide)

theorem Held.update {s : Stream} (h : Held render s) {arrival : Arrival}
    (hfinished : arrival.chunk = [] ∨ endsInClose s.text = false) :
    Held render (s.update render arrival) := by
  have hsettled : ∀ offset, Settled s.text offset → Settled (s.text ++ arrival.chunk) offset :=
    fun offset hoffset => hoffset.append hfinished
  have hfrozen : ∀ segment ∈ s.frozen,
      (segment.start = 0 ∨ Settled (s.text ++ arrival.chunk) segment.start) ∧
      Settled (s.text ++ arrival.chunk) segment.stop ∧
      segment.html = render (slice (s.text ++ arrival.chunk) segment.start segment.stop) := by
    intro segment hsegment
    obtain ⟨hstart, hstop, hhtml⟩ := h.frozen segment hsegment
    rw [slice_append hstop.le_length]
    exact ⟨hstart.imp_right (hsettled _), hsettled _ hstop, hhtml⟩
  obtain ⟨c, hc⟩ : ∃ c, (if arrival.overwritten then 0 else s.committedLen) = c := ⟨_, rfl⟩
  have hcommitted : c = 0 ∨ Settled (s.text ++ arrival.chunk) c := by
    rw [← hc]
    split
    · exact .inl rfl
    · exact h.committed.imp_right (hsettled _)
  have hlast : c = 0 ∨ ∃ segment ∈ s.frozen, segment.stop = c := by
    rw [← hc]
    split
    · exact .inl rfl
    · exact h.last
  have hle : c ≤ (s.text ++ arrival.chunk).length := by
    obtain rfl | hcommitted := hcommitted
    · exact Nat.zero_le _
    · exact hcommitted.le_length
  unfold Stream.update
  dsimp only
  rw [hc]
  split
  · next hnext =>
    have hnew := (splitFinalized_cases render hcommitted).resolve_left (Nat.ne_of_gt hnext)
    refine ⟨.inr hnew, .inr ⟨_, List.mem_append_right _ List.mem_cons_self, rfl⟩, ?_, ?_⟩
    · intro segment hsegment
      obtain hsegment | hsegment := List.mem_append.mp hsegment
      · exact hfrozen segment hsegment
      · rw [List.mem_singleton.mp hsegment]
        exact ⟨hcommitted, hnew, rfl⟩
    · intro hclose
      refine ⟨_, List.mem_append_right _ List.mem_cons_self, ?_⟩
      refine splitFinalized_endsInClose render hcommitted ?_ hclose
      exact Nat.lt_of_lt_of_le hnext hnew.le_length
  · next hnext =>
    refine ⟨hcommitted, hlast, hfrozen, fun hclose => ?_⟩
    have hpos := List.length_pos_of_ne_nil (ne_nil_of_endsInClose hclose)
    have heq : c = (s.text ++ arrival.chunk).length := by
      refine Nat.le_antisymm hle (Nat.le_of_not_lt fun hlt => hnext ?_)
      rw [splitFinalized_endsInClose render hcommitted hlt hclose]
      exact hlt
    dsimp only at hpos ⊢
    rw [← heq]
    exact hlast.resolve_left (by omega)

theorem stream_concat (render : Text → Text) (arrivals : List Arrival) (arrival : Arrival) :
    stream render (arrivals ++ [arrival]) = (stream render arrivals).update render arrival := by
  rw [stream, List.foldl_append]
  rfl

theorem text_update (s : Stream) (arrival : Arrival) :
    (s.update render arrival).text = s.text ++ arrival.chunk := by
  unfold Stream.update
  dsimp only
  split_ifs <;> rfl

theorem text_stream (render : Text → Text) (arrivals : List Arrival) :
    (stream render arrivals).text = textOf arrivals := by
  induction arrivals using List.reverseRecOn with
  | nil => rfl
  | append_singleton arrivals arrival ih =>
    rw [stream_concat, text_update, ih, textOf, textOf, List.flatMap_append]
    simp

/-- What is frozen stays. -/
theorem mem_frozen_stream (render : Text → Text) (before after : List Arrival) {segment : Segment}
    (h : segment ∈ (stream render before).frozen) :
    segment ∈ (stream render (before ++ after)).frozen := by
  induction after using List.reverseRecOn with
  | nil => rwa [List.append_nil]
  | append_singleton after arrival ih =>
    rw [← List.append_assoc, stream_concat]
    unfold Stream.update
    dsimp only
    generalize (if arrival.overwritten then 0 else (stream render (before ++ after)).committedLen) = c
    split
    · exact List.mem_append_left _ ih
    · exact ih

theorem FinishesFences.held {arrivals : List Arrival} (h : FinishesFences arrivals)
    (render : Text → Text) : Held render (stream render arrivals) := by
  induction arrivals using List.reverseRecOn with
  | nil => exact held_new render
  | append_singleton arrivals arrival ih =>
    rw [stream_concat]
    refine (ih fun before after happend hafter => ?_).update ?_
    · refine h before (after ++ [arrival]) (by rw [happend, List.append_assoc]) ?_
      rw [textOf, List.flatMap_append]
      exact List.append_ne_nil_of_left_ne_nil hafter _
    · by_cases hchunk : arrival.chunk = []
      · exact .inl hchunk
      · rw [text_stream]
        exact .inr (h arrivals [arrival] rfl (by simpa [textOf] using hchunk))

/-- The first time that the text goes on in an unfinished closing line. -/
theorem exists_of_not_finishesFences {arrivals : List Arrival} (h : ¬ FinishesFences arrivals) :
    ∃ before after, arrivals = before ++ after ∧ textOf after ≠ [] ∧
      endsInClose (textOf before) = true ∧ FinishesFences before := by
  have hsome : ∃ n, ∃ before after, before.length = n ∧ arrivals = before ++ after ∧
      textOf after ≠ [] ∧ endsInClose (textOf before) = true := by
    simp only [FinishesFences, not_forall, Bool.not_eq_false] at h
    obtain ⟨before, after, happend, hafter, hclose⟩ := h
    exact ⟨_, before, after, rfl, happend, hafter, hclose⟩
  classical
  obtain ⟨before, after, hlength, happend, hafter, hclose⟩ := Nat.find_spec hsome
  refine ⟨before, after, happend, hafter, hclose, fun before' after' happend' hafter' => ?_⟩
  by_contra hclose'
  rw [Bool.not_eq_false] at hclose'
  refine Nat.find_min hsome (m := before'.length) ?_
    ⟨before', after' ++ after, rfl, by rw [happend, happend', List.append_assoc], ?_, hclose'⟩
  · have hne : after' ≠ [] := by
      rintro rfl
      exact hafter' rfl
    have := List.length_pos_of_ne_nil hne
    rw [← hlength, happend', List.length_append]
    omega
  · rw [textOf, List.flatMap_append]
    exact List.append_ne_nil_of_left_ne_nil hafter' _

/-- However a text is cut into chunks, every segment is frozen between boundaries of the whole text
exactly where the text never goes on in an unfinished line that closes a fence. -/
theorem frozenAtBoundaries_iff (render : Text → Text) (arrivals : List Arrival) :
    FrozenAtBoundaries render (stream render arrivals) ↔ FinishesFences arrivals := by
  constructor
  · intro h
    by_contra hnot
    obtain ⟨before, after, rfl, hafter, hclose, hfirst⟩ := exists_of_not_finishesFences hnot
    have hheld := hfirst.held render
    rw [← text_stream render] at hclose
    obtain ⟨segment, hsegment, hstop⟩ := hheld.whole hclose
    obtain ⟨-, hboundary, -⟩ := h segment (mem_frozen_stream render before after hsegment)
    have htext : (stream render (before ++ after)).text =
        (stream render before).text ++ textOf after := by
      rw [text_stream, text_stream, textOf, textOf, textOf, List.flatMap_append]
    have hpos := List.length_pos_of_ne_nil hafter
    rw [hstop, htext] at hboundary
    have hlast := hboundary.getLast?_take (by rw [List.length_append]; omega)
    rw [List.take_left] at hlast
    exact (endsInClose_iff.mp hclose).2 hlast
  · intro h segment hsegment
    obtain ⟨hstart, hstop, hhtml⟩ := (h.held render).frozen segment hsegment
    exact ⟨hstart.imp_right Settled.isBoundary, hstop.isBoundary, hhtml⟩

/-- The closing line of a fence arrives before its newline. -/
theorem not_frozenAtBoundaries_closingLine : ¬ FrozenAtBoundaries id
    (stream id [⟨units "```\na\n```", false⟩, ⟨units "\nb", false⟩]) := by
  intro h
  have hstop : (⟨0, 9, units "```\na\n```"⟩ : Segment) ∈
      (stream id [⟨units "```\na\n```", false⟩, ⟨units "\nb", false⟩]).frozen := by decide +kernel
  obtain ⟨-, ⟨b, hb, hoffset⟩, -⟩ := h _ hstop
  have hnone : ∀ b ∈ findBoundaries (units "```\na\n```\nb") 0, b.offset ≠ 9 := by decide +kernel
  exact hnone b hb hoffset

end Pandamonium.Segmenter
