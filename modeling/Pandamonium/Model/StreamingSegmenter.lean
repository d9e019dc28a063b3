import Mathlib.Data.List.Basic

/-!
# The streaming segmenter

`static/js/streamingSegmenter.js` and the part of `static/js/streamingRenderer.js` that freezes what
it finds.  A text is a list of UTF-16 code units, an offset counts them, and `rest` is what is left
of the text from the index of a loop on.
-/

set_option autoImplicit false

namespace Pandamonium.Segmenter

abbrev Text := List UInt16

/-- A text of ASCII characters. -/
def units (s : String) : Text := s.toList.map fun c => UInt16.ofNat c.toNat

def newline : UInt16 := 10

/-- What `String.prototype.trim` takes off. -/
def isSpace (c : UInt16) : Bool :=
  (9 ≤ c && c ≤ 13) || (0x2000 ≤ c && c ≤ 0x200a) ||
    c ∈ [32, 0xa0, 0x1680, 0x2028, 0x2029, 0x202f, 0x205f, 0x3000, 0xfeff]

/-- `text.trim() === ''` -/
def isBlank (text : Text) : Bool := text.all isSpace

/-- What `.` does not match. -/
def isTerminator (c : UInt16) : Bool := c ∈ [10, 13, 0x2028, 0x2029]

/-- The marker and the info string of a match of `FENCE_RE`. -/
structure Fence where
  marker : Text
  info : Text
  deriving DecidableEq, Repr

/-- `line.match(FENCE_RE)`: the spaces and the marker are as long as they can be, since neither may
be followed by what it is made of. -/
def matchFence (line : Text) : Option Fence :=
  let indented := line.dropWhile (· = 32)
  let fenced (c : UInt16) : Option Fence :=
    let marker := indented.takeWhile (· = c)
    let info := indented.dropWhile (· = c)
    if line.length - indented.length ≤ 3 ∧ 3 ≤ marker.length ∧ ¬ info.any isTerminator then
      some ⟨marker, info⟩
    else none
  (fenced 96).or (fenced 126)

/-- The line closes a fence that the marker has opened. -/
def Fence.closes (fence : Fence) (fenceMarker : Text) : Bool :=
  fence.marker.head? = fenceMarker.head? && fence.marker.length ≥ fenceMarker.length &&
    isBlank fence.info

structure Boundary where
  offset : ℕ
  afterClosedFence : Bool
  deriving DecidableEq, Repr

/-- The line that the rest starts with. -/
def lineOf (rest : Text) : Text := rest.takeWhile (· ≠ newline)

/-- What is behind the line and its newline. -/
def afterLine (rest : Text) : Text := rest.drop ((lineOf rest).length + 1)

/-- `afterNl` -/
def afterNl (i : ℕ) (rest : Text) : ℕ := i + (rest.length - (afterLine rest).length)

/-- The inner loop: the offset of the next line that is not blank, and what is left there. -/
def skipBlank : ℕ → ℕ → Text → ℕ × Text
  | 0, j, rest => (j, rest)
  | fuel + 1, j, rest =>
    if rest = [] then (j, rest)
    else if ¬ isBlank (lineOf rest) then (j, rest)
    else skipBlank fuel (afterNl j rest) (afterLine rest)

/-- The loop of `findBoundaries` from an index on; the marker is there while a fence is open. -/
def scan : ℕ → ℕ → Text → Option Text → List Boundary
  | 0, _, _, _ => []
  | fuel + 1, i, rest, fenceMarker =>
    if rest = [] then []
    else
      match matchFence (lineOf rest), fenceMarker with
      | some fence, none => scan fuel (afterNl i rest) (afterLine rest) (some fence.marker)
      | some fence, some marker =>
        if fence.closes marker then
          ⟨afterNl i rest, true⟩ :: scan fuel (afterNl i rest) (afterLine rest) none
        else scan fuel (afterNl i rest) (afterLine rest) (some marker)
      | none, none =>
        if isBlank (lineOf rest) then
          let (j, rest) := skipBlank fuel (afterNl i rest) (afterLine rest)
          ⟨j, false⟩ :: scan fuel j rest none
        else scan fuel (afterNl i rest) (afterLine rest) none
      | none, some marker => scan fuel (afterNl i rest) (afterLine rest) (some marker)

/-- `findBoundaries`; every turn of a loop takes a character at least. -/
def findBoundaries (text : Text) (fromOffset : ℕ) : List Boundary :=
  scan (text.length - fromOffset) fromOffset (text.drop fromOffset) none

/-- `text.slice(start, stop)` -/
def slice (text : Text) (start stop : ℕ) : Text := (text.take stop).drop start

/-- `cutIsRenderSafe` -/
def cutIsRenderSafe (before after : Text) (render : Text → Text) : Bool :=
  render before ++ render after = render (before ++ after)

/-- The loop of `splitFinalized`. -/
def advance (text : Text) (render : Text → Text) : ℕ → ℕ → List Boundary → ℕ
  | best, _, [] => best
  | best, segStart, ⟨offset, afterClosedFence⟩ :: boundaries =>
    let nextOffset := (boundaries.head?.map Boundary.offset).getD text.length
    let before := slice text segStart offset
    let after := slice text offset nextOffset
    let best :=
      if afterClosedFence then offset
      else if ¬ isBlank after ∧ cutIsRenderSafe before after render then offset
      else best
    advance text render best offset boundaries

/-- `splitFinalized` -/
def splitFinalized (text : Text) (render : Text → Text) (committedLen : ℕ) : ℕ :=
  advance text render committedLen committedLen (findBoundaries text committedLen)

/-! ## The renderer -/

/-- A call of `freeze`: the offsets of the slice and what it was rendered to. -/
structure Segment where
  start : ℕ
  stop : ℕ
  html : Text
  deriving DecidableEq, Repr

/-- What a stream renderer has been given and has frozen. -/
structure Stream where
  text : Text
  committedLen : ℕ
  frozen : List Segment

def Stream.new : Stream := ⟨[], 0, []⟩

/-- A chunk that is appended to the text, and whether the container was overwritten before, so that
`update` starts afresh. -/
structure Arrival where
  chunk : Text
  overwritten : Bool

/-- `update` -/
def Stream.update (render : Text → Text) (s : Stream) (arrival : Arrival) : Stream :=
  let fullText := s.text ++ arrival.chunk
  let committedLen := if arrival.overwritten then 0 else s.committedLen
  let next := splitFinalized fullText render committedLen
  if next > committedLen then
    { text := fullText
      committedLen := next
      frozen := s.frozen ++ [⟨committedLen, next, render (slice fullText committedLen next)⟩] }
  else { s with text := fullText, committedLen := committedLen }

def stream (render : Text → Text) (arrivals : List Arrival) : Stream :=
  arrivals.foldl (Stream.update render) .new

end Pandamonium.Segmenter
