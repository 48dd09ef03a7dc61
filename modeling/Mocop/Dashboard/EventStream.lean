import Mocop.Lib.JsValues
import Mocop.Lib.LineEnds

/-!
# `Mocop.Dashboard.EventStream`: frames of the event stream

The stream arrives in chunks, which may end anywhere: between a carriage return and its line
feed, or inside a surrogate pair. `appendStreamChunk` appends a chunk to the buffer and writes
every line end as a line feed, but for a carriage return at the end of the buffer.
`foldl_appendStreamChunk` says that the chunks do not matter, and that the lines are those of the
text.

The reader does not keep the whole buffer. After every chunk it takes the frames, which end with
an empty line, off the front. `readChunks_eq` says that the chunks do not matter to the frames
either: a frame is off the buffer only when both of its line feeds are there, and no later chunk
can change these.
-/

set_option autoImplicit false

namespace Mocop.EventStream

open JsText (carriageReturn lineFeed)
open LineEnds (unify unify_cons)

/-! ### Line ends -/

/-- `.replaceAll("\r\n", "\n")` -/
def foldPairs : JsText → JsText
  | c :: d :: rest =>
    if c = carriageReturn ∧ d = lineFeed then lineFeed :: foldPairs rest
    else c :: foldPairs (d :: rest)
  | text => text

/-- `.replace(/\r(?!$)/g, "\n")`: without the flag `m`, the assertion `$` is true at the end of
the text only. -/
def foldSingles : JsText → JsText
  | c :: d :: rest =>
    (if c = carriageReturn then lineFeed else c) :: foldSingles (d :: rest)
  | text => text

/-- The buffer with another chunk. -/
def appendStreamChunk (buffer chunk : JsText) : JsText := foldSingles (foldPairs (buffer ++ chunk))

/-- The two characters of a line end differ. -/
theorem lineFeed_ne : lineFeed ≠ carriageReturn := by decide

/-- A text is not empty after its pairs are folded. -/
theorem foldPairs_ne_nil (c : UInt16) (rest : JsText) : foldPairs (c :: rest) ≠ [] := by
  cases rest with
  | nil => simp [foldPairs]
  | cons d rest =>
    rw [foldPairs]
    split <;> simp

/-- In front of another character, a carriage return is folded. -/
theorem foldSingles_cons (c : UInt16) {rest : JsText} (hrest : rest ≠ []) :
    foldSingles (c :: rest)
      = (if c = carriageReturn then lineFeed else c) :: foldSingles rest := by
  cases rest with
  | nil => exact absurd rfl hrest
  | cons d rest => rfl

/-- A line feed stays. -/
theorem foldSingles_lineFeed (rest : JsText) :
    foldSingles (lineFeed :: rest) = lineFeed :: foldSingles rest := by
  cases rest with
  | nil => rfl
  | cons d rest => rfl

/-- The two replacements unify the line ends. -/
theorem foldSingles_foldPairs (text : JsText) :
    foldSingles (foldPairs text) = unify carriageReturn lineFeed text := by
  fun_induction unify carriageReturn lineFeed text with
  | case1 => rfl
  | case2 => rfl
  | case3 rest ih =>
    have hpair : foldPairs (carriageReturn :: lineFeed :: rest)
        = lineFeed :: foldPairs rest := by
      simp [foldPairs]
    rw [hpair, foldSingles_lineFeed, ih]
  | case4 d rest hd ih =>
    have hsingle : foldPairs (carriageReturn :: d :: rest)
        = carriageReturn :: foldPairs (d :: rest) := by
      simp [foldPairs, hd]
    rw [hsingle, foldSingles_cons _ (foldPairs_ne_nil d rest), ih, if_pos rfl]
  | case5 c d rest hc ih =>
    have hother : foldPairs (c :: d :: rest) = c :: foldPairs (d :: rest) := by
      simp [foldPairs, hc]
    rw [hother, foldSingles_cons _ (foldPairs_ne_nil d rest), ih, if_neg hc]

/-- Appending a chunk unifies the line ends of the buffer and the chunk. -/
theorem appendStreamChunk_eq (buffer chunk : JsText) :
    appendStreamChunk buffer chunk = unify carriageReturn lineFeed (buffer ++ chunk) :=
  foldSingles_foldPairs (buffer ++ chunk)

/-- The fold over the chunks, as a fold of the library. -/
theorem foldl_appendStreamChunk_eq (start : JsText) (chunks : List JsText) :
    chunks.foldl appendStreamChunk (unify carriageReturn lineFeed start)
      = unify carriageReturn lineFeed (start ++ chunks.flatten) := by
  rw [← LineEnds.foldl_unify lineFeed_ne start chunks]
  exact congrArg (fun step => chunks.foldl step (unify carriageReturn lineFeed start))
    (funext fun buffer => funext fun chunk => appendStreamChunk_eq buffer chunk)

/-- **The buffer does not depend on the chunks.** It is what the whole text gives at once; its
lines are those of the text; a carriage return is left at its end only, and exactly when the text
ends with one. -/
theorem foldl_appendStreamChunk (chunks : List JsText) :
    chunks.foldl appendStreamChunk [] = appendStreamChunk [] chunks.flatten
      ∧ LineEnds.lines carriageReturn lineFeed (chunks.foldl appendStreamChunk [])
        = LineEnds.lines carriageReturn lineFeed chunks.flatten
      ∧ carriageReturn ∉ (chunks.foldl appendStreamChunk []).dropLast
      ∧ ((chunks.foldl appendStreamChunk []).getLast? = some carriageReturn
        ↔ chunks.flatten.getLast? = some carriageReturn) := by
  have hfold : chunks.foldl appendStreamChunk []
      = unify carriageReturn lineFeed chunks.flatten :=
    foldl_appendStreamChunk_eq [] chunks
  have honce : appendStreamChunk [] chunks.flatten
      = unify carriageReturn lineFeed chunks.flatten :=
    appendStreamChunk_eq [] chunks.flatten
  rw [hfold, honce]
  exact ⟨rfl, LineEnds.lines_unify lineFeed_ne _, LineEnds.not_mem_dropLast_unify lineFeed_ne _,
    LineEnds.getLast?_unify lineFeed_ne _⟩

/-! ### Frames -/

/-- `buffer.indexOf("\n\n")` -/
def indexOfBoundary : JsText → Option ℕ
  | c :: d :: rest =>
    if c = lineFeed ∧ d = lineFeed then some 0 else (indexOfBoundary (d :: rest)).map (· + 1)
  | _ => none

/-- A boundary has its two line feeds in the buffer. -/
theorem indexOfBoundary_lt {buffer : JsText} {boundary : ℕ}
    (h : indexOfBoundary buffer = some boundary) : boundary + 2 ≤ buffer.length := by
  fun_induction indexOfBoundary buffer generalizing boundary with
  | case1 c d rest hboth =>
    simp only [Option.some.injEq] at h
    simp only [List.length_cons]
    omega
  | case2 c d rest hboth ih =>
    simp only [Option.map_eq_some_iff] at h
    obtain ⟨earlier, hearlier, rfl⟩ := h
    have hlength := ih hearlier
    simp only [List.length_cons] at hlength ⊢
    omega
  | case3 => simp at h

/-- The frames at the front of the buffer, and what is left of it. -/
def takeFrames (buffer : JsText) : List JsText × JsText :=
  match h : indexOfBoundary buffer with
  | none => ([], buffer)
  | some boundary =>
    have : (buffer.drop (boundary + 2)).length < buffer.length := by
      have hlength := indexOfBoundary_lt h
      rw [List.length_drop]
      omega
    let later := takeFrames (buffer.drop (boundary + 2))
    (buffer.take boundary :: later.1, later.2)
termination_by buffer.length

/-- One more chunk, with the frames accepted before it. -/
def readChunk (state : List JsText × JsText) (chunk : JsText) : List JsText × JsText :=
  let taken := takeFrames (appendStreamChunk state.2 chunk)
  (state.1 ++ taken.1, taken.2)

/-- The frames in one walk over the text. -/
def splitFrames : JsText → List JsText × JsText
  | c :: d :: rest =>
    if c = lineFeed ∧ d = lineFeed then ([] :: (splitFrames rest).1, (splitFrames rest).2)
    else
      match splitFrames (d :: rest) with
      | ([], left) => ([], c :: left)
      | (frame :: frames, left) => ((c :: frame) :: frames, left)
  | text => ([], text)

/-- Without a boundary there is no frame. -/
theorem splitFrames_of_none {text : JsText} (h : indexOfBoundary text = none) :
    splitFrames text = ([], text) := by
  fun_induction indexOfBoundary text with
  | case1 => simp at h
  | case2 c d rest hboth ih =>
    have hrest := ih (by simpa using h)
    simp [splitFrames, hboth, hrest]
  | case3 text hshort =>
    cases text with
    | nil => rfl
    | cons c text =>
      cases text with
      | nil => rfl
      | cons d rest => exact absurd rfl (hshort c d rest)

/-- The first frame ends at the first boundary. -/
theorem splitFrames_of_some {text : JsText} {boundary : ℕ}
    (h : indexOfBoundary text = some boundary) :
    splitFrames text
      = (text.take boundary :: (splitFrames (text.drop (boundary + 2))).1,
        (splitFrames (text.drop (boundary + 2))).2) := by
  fun_induction indexOfBoundary text generalizing boundary with
  | case1 c d rest hboth =>
    obtain rfl : 0 = boundary := by simpa using h
    simp [splitFrames, hboth]
  | case2 c d rest hboth ih =>
    simp only [Option.map_eq_some_iff] at h
    obtain ⟨earlier, hearlier, rfl⟩ := h
    have hrest := ih hearlier
    rw [splitFrames, if_neg hboth, hrest]
    rfl
  | case3 => simp at h

/-- The loop over the boundaries takes the frames of the walk. -/
theorem takeFrames_eq (buffer : JsText) : takeFrames buffer = splitFrames buffer := by
  fun_induction takeFrames buffer with
  | case1 buffer h => exact (splitFrames_of_none h).symm
  | case2 buffer boundary h hlength later ih => rw [splitFrames_of_some h, ← ih]

/-- A text without a frame is left. -/
theorem eq_of_splitFrames {text left : JsText} (h : splitFrames text = ([], left)) :
    left = text := by
  cases hboundary : indexOfBoundary text with
  | none =>
    rw [splitFrames_of_none hboundary] at h
    exact (Prod.ext_iff.mp h).2.symm
  | some boundary =>
    rw [splitFrames_of_some hboundary] at h
    simp at h

/-- A character in front of a text that has a frame. -/
theorem splitFrames_cons {c d : UInt16} {rest frame left : JsText} {frames : List JsText}
    (hboth : ¬(c = lineFeed ∧ d = lineFeed))
    (hrest : splitFrames (d :: rest) = (frame :: frames, left)) :
    splitFrames (c :: d :: rest) = ((c :: frame) :: frames, left) := by
  rw [splitFrames, if_neg hboth, hrest]

/-- A later chunk leaves the frames of a unified text as they are and continues what is left. -/
theorem splitFrames_unify_append {text : JsText} (hcr : carriageReturn ∉ text.dropLast)
    (more : JsText) :
    let continued := splitFrames
      (unify carriageReturn lineFeed ((splitFrames text).2 ++ more))
    splitFrames (unify carriageReturn lineFeed (text ++ more))
      = ((splitFrames text).1 ++ continued.1, continued.2) := by
  fun_induction splitFrames text with
  | case1 c d rest hboth ih =>
    -- A frame ends here: both line feeds stay in front of what follows.
    obtain ⟨rfl, rfl⟩ := hboth
    have hrest : carriageReturn ∉ rest.dropLast := by
      cases rest with
      | nil => simp
      | cons e rest => exact fun hmem => hcr (by simp [hmem])
    show splitFrames (unify _ _ (lineFeed :: lineFeed :: (rest ++ more))) = _
    rw [unify_cons lineFeed_ne, unify_cons lineFeed_ne, splitFrames,
      if_pos ⟨rfl, rfl⟩, ih hrest]
    rfl
  | case2 c d rest hboth left hnone ih =>
    obtain rfl := eq_of_splitFrames hnone
    rfl
  | case3 c d rest hboth frame frames left hsome ih =>
    -- The first frame goes on: its first character stays in front of the rest of it.
    have hrest : carriageReturn ∉ (d :: rest).dropLast := by
      exact fun hmem => hcr (by simp [hmem])
    have hc : c ≠ carriageReturn := by
      rintro rfl
      exact hcr (by simp)
    have hd : d ≠ carriageReturn := by
      rintro rfl
      cases rest with
      | nil => simp [splitFrames] at hsome
      | cons e rest => exact hrest (by simp)
    have hwhole := ih hrest
    rw [hsome] at hwhole
    show splitFrames (unify _ _ (c :: d :: (rest ++ more))) = _
    rw [unify_cons hc, unify_cons hd]
    rw [List.cons_append, unify_cons hd] at hwhole
    exact splitFrames_cons hboth hwhole
  | case4 text hshort =>
    simp

/-- **The frames do not depend on the chunks.** The accepted frames and the rest of the buffer
are what the whole text gives at once. -/
theorem readChunks_eq (chunks : List JsText) :
    chunks.foldl readChunk ([], []) = takeFrames (appendStreamChunk [] chunks.flatten) := by
  -- From the frames of any beginning of the text, the chunks lead to those of all of it.
  have hrun : ∀ (text : JsText),
      chunks.foldl readChunk (splitFrames (unify carriageReturn lineFeed text))
        = splitFrames (unify carriageReturn lineFeed (text ++ chunks.flatten)) := by
    induction chunks with
    | nil => simp
    | cons chunk chunks ih =>
      intro text
      have hstep : readChunk (splitFrames (unify carriageReturn lineFeed text)) chunk
          = splitFrames (unify carriageReturn lineFeed (text ++ chunk)) := by
        rw [← LineEnds.unify_append lineFeed_ne text chunk,
          splitFrames_unify_append (LineEnds.not_mem_dropLast_unify lineFeed_ne text) chunk,
          readChunk, takeFrames_eq, appendStreamChunk_eq]
      rw [List.foldl_cons, hstep, ih, List.append_assoc, List.flatten_cons]
  rw [takeFrames_eq, appendStreamChunk_eq]
  exact hrun []

end Mocop.EventStream
