import Mocop.Dashboard.EventStream
import Mocop.Lib.JsonText
import Mocop.Lib.Utf8

/-!
# `Mocop.Dashboard.StreamReader`: the event stream from the server to the dashboard

The server writes a frame for every snapshot and for every heartbeat. The dashboard reads the bytes
in chunks, which the network cuts anywhere: inside a frame, and inside a character. `StreamReader`
is what the dashboard keeps between two chunks.

`readAll_messages` says that the dashboard reads the messages of the server, all of them, in their
order and with their texts, at every moment: whatever the chunks are, and whatever part of the
next frame has arrived.
-/

set_option autoImplicit false

namespace Mocop.EventStream

open JsText (carriageReturn lineFeed ofChar ofString isWhitespace)

/-! ### The server -/

/-- What the server sends. -/
inductive Message where
  | snapshot (members : List (String × Json))
  | heartbeat

/-- The bytes of a text. -/
def bytesOf (text : List Char) : List UInt8 := text.flatMap String.utf8EncodeChar

/-- `_SSE_SNAPSHOT_PREFIX` -/
def sseSnapshotFront : List UInt8 := bytesOf "event: snapshot\ndata: ".toList

/-- `_SSE_HEARTBEAT_FRAME` -/
def sseHeartbeatFrame : List UInt8 := bytesOf "event: heartbeat\ndata: \x7b\x7d\n\n".toList

variable (repr : ℚ → List Char)

/-- The text of a snapshot. -/
def snapshotPayload (members : List (String × Json)) : List Char :=
  Json.text repr (.object members)

/-- The frame of a message. -/
def Message.frame : Message → List UInt8
  | snapshot members =>
    sseSnapshotFront ++ bytesOf (snapshotPayload repr members) ++ bytesOf ['\n', '\n']
  | heartbeat => sseHeartbeatFrame

/-! ### The dashboard -/

/-- What the dashboard takes from a frame. -/
inductive StreamEvent where
  | snapshot (data : JsText)
  | heartbeat

/-- `text.startsWith(front)`, and the text behind it. -/
def afterFront (front : String) (text : JsText) : Option JsText :=
  if (ofString front).isPrefixOf text then some (text.drop (ofString front).length) else none

/-- `text.trimStart()` -/
def trimStart (text : JsText) : JsText := text.dropWhile isWhitespace

/-- `text.trim()` -/
def trim (text : JsText) : JsText := (trimStart (trimStart text).reverse).reverse

/-- The fields of a frame. -/
structure FrameFields where
  eventName : JsText := ofString "message"
  data : List JsText := []

/-- Reads a line of a frame. -/
def readFrameLine (fields : FrameFields) (line : JsText) : FrameFields :=
  match afterFront "event:" line with
  | some name => { fields with eventName := trim name }
  | none =>
    match afterFront "data:" line with
    | some data => { fields with data := fields.data ++ [trimStart data] }
    | none => fields

/-- The event of a frame. -/
def acceptStreamFrame (frame : JsText) : Option StreamEvent :=
  let fields := (frame.splitOn lineFeed).foldl readFrameLine {}
  if fields.eventName = ofString "heartbeat" then some .heartbeat
  else if fields.eventName = ofString "snapshot" then
    some (.snapshot ([lineFeed].intercalate fields.data))
  else none

/-- What the dashboard keeps between two chunks. -/
structure StreamReader where
  decoder : TextDecoder := {}
  buffer : JsText := []

/-- Reads a chunk of bytes. -/
def StreamReader.read (reader : StreamReader) (value : List UInt8) :
    StreamReader × List StreamEvent :=
  let decoded := reader.decoder.decode value
  let taken := takeFrames (appendStreamChunk reader.buffer (decoded.2.flatMap ofChar))
  ({ decoder := decoded.1, buffer := taken.2 }, taken.1.filterMap acceptStreamFrame)

/-- Reads the chunks of a stream. -/
def StreamReader.readAll (reader : StreamReader) : List (List UInt8) → List StreamEvent
  | [] => []
  | value :: rest => (reader.read value).2 ++ (reader.read value).1.readAll rest

/-- The event of a message. -/
def Message.event : Message → StreamEvent
  | snapshot members => .snapshot ((snapshotPayload repr members).flatMap ofChar)
  | heartbeat => .heartbeat

/-! ### Chunks -/

/-- The events of the chunks are those of the frames of the whole text. -/
theorem readAll_eq (chunks : List (List UInt8)) :
    ({} : StreamReader).readAll chunks
      = (takeFrames (appendStreamChunk []
        ((({} : TextDecoder).decode chunks.flatten).2.flatMap ofChar))).1.filterMap
          acceptStreamFrame := by
  -- The decoder reads its texts chunk by chunk, and the frames of these are those of the whole.
  have hrun : ∀ (reader : StreamReader) (frames : List JsText),
      ∃ texts : List JsText,
        texts.flatten = (reader.decoder.decode chunks.flatten).2.flatMap ofChar ∧
          frames.filterMap acceptStreamFrame ++ reader.readAll chunks
          = (texts.foldl readChunk (frames, reader.buffer)).1.filterMap acceptStreamFrame := by
    induction chunks with
    | nil =>
      intro reader frames
      refine ⟨[], rfl, ?_⟩
      rw [StreamReader.readAll, List.append_nil]
      rfl
    | cons value rest ih =>
      intro reader frames
      obtain ⟨texts, htexts, hread⟩ := ih (reader.read value).1
        (frames ++ (takeFrames (appendStreamChunk reader.buffer
          ((reader.decoder.decode value).2.flatMap ofChar))).1)
      refine ⟨(reader.decoder.decode value).2.flatMap ofChar :: texts, ?_, ?_⟩
      · rw [List.flatten_cons, htexts, List.flatten_cons, TextDecoder.decode_append,
          List.flatMap_append]
        rfl
      · rw [List.filterMap_append] at hread
        rw [StreamReader.readAll, ← List.append_assoc]
        exact hread
  obtain ⟨texts, htexts, hread⟩ := hrun {} []
  rw [← htexts, ← readChunks_eq]
  exact hread

/-! ### Frames -/

/-- Without a line feed in front, the boundary is in what follows. -/
theorem indexOfBoundary_append {line : JsText} (h : lineFeed ∉ line) (rest : JsText) :
    indexOfBoundary (line ++ rest) = (indexOfBoundary rest).map (· + line.length) := by
  induction line with
  | nil => simp
  | cons c line ih =>
    have hc : c ≠ lineFeed := fun heq => h (heq ▸ List.mem_cons_self)
    have hline := ih fun hmem => h (List.mem_cons_of_mem _ hmem)
    cases hmore : line ++ rest with
    | nil =>
      obtain ⟨-, rfl⟩ := List.append_eq_nil_iff.mp hmore
      rw [List.cons_append, hmore]
      rfl
    | cons d more =>
      rw [hmore] at hline
      rw [List.cons_append, hmore, indexOfBoundary, if_neg fun hboth => hc hboth.1, hline,
        Option.map_map]
      rfl

/-- A beginning of a text without a boundary has none. -/
theorem indexOfBoundary_of_append {text more : JsText}
    (h : indexOfBoundary (text ++ more) = none) : indexOfBoundary text = none := by
  fun_induction indexOfBoundary text with
  | case1 c d rest hboth =>
    rw [List.cons_append, List.cons_append, indexOfBoundary, if_pos hboth] at h
    cases h
  | case2 c d rest hboth ih =>
    rw [List.cons_append, List.cons_append, indexOfBoundary, if_neg hboth,
      Option.map_eq_none_iff] at h
    rw [ih h]
    rfl
  | case3 => rfl

/-- Two lines without an empty one between them. -/
structure TwoLines (body : JsText) (first second : JsText) : Prop where
  eq : body = first ++ lineFeed :: second
  first_line : lineFeed ∉ first
  second_line : lineFeed ∉ second
  nonempty : second ≠ []

section TwoLines

variable {body first second : JsText}

/-- Behind two lines, the boundary starts with the end of the second one. -/
theorem TwoLines.indexOfBoundary_append (h : TwoLines body first second) (rest : JsText) :
    indexOfBoundary (body ++ rest) = (indexOfBoundary rest).map (· + body.length) := by
  obtain ⟨c, line, rfl⟩ := List.exists_cons_of_ne_nil h.nonempty
  have hc : ¬(lineFeed = lineFeed ∧ c = lineFeed) := fun hboth =>
    h.second_line (hboth.2 ▸ List.mem_cons_self)
  have hsecond := EventStream.indexOfBoundary_append h.second_line rest
  rw [h.eq, List.append_assoc, EventStream.indexOfBoundary_append h.first_line]
  show (indexOfBoundary (lineFeed :: c :: (line ++ rest))).map _ = _
  rw [List.cons_append] at hsecond
  rw [indexOfBoundary, if_neg hc, hsecond, Option.map_map, Option.map_map]
  congr 1
  funext boundary
  simp only [Function.comp_apply, List.length_append, List.length_cons]
  omega

/-- Two lines and an empty one are a frame. -/
theorem TwoLines.splitFrames_append (h : TwoLines body first second) (rest : JsText) :
    splitFrames (body ++ lineFeed :: lineFeed :: rest)
      = (body :: (splitFrames rest).1, (splitFrames rest).2) := by
  have hboundary := h.indexOfBoundary_append (lineFeed :: lineFeed :: rest)
  have hfirst : indexOfBoundary (lineFeed :: lineFeed :: rest) = some 0 := by
    rw [indexOfBoundary, if_pos ⟨rfl, rfl⟩]
  rw [hfirst, Option.map_some, Nat.zero_add] at hboundary
  have hdrop : (body ++ lineFeed :: lineFeed :: rest).drop (body.length + 2) = rest := by
    rw [← List.drop_drop, List.drop_left' rfl]
    rfl
  rw [splitFrames_of_some hboundary, List.take_left' rfl, hdrop]

/-- The beginning of a frame is not one. -/
theorem TwoLines.splitFrames_beginning (h : TwoLines body first second) {beginning : JsText}
    (hbeginning : beginning <+: body ++ [lineFeed]) :
    splitFrames beginning = ([], beginning) := by
  obtain ⟨more, hmore⟩ := hbeginning
  refine splitFrames_of_none (@indexOfBoundary_of_append _ more ?_)
  rw [hmore, h.indexOfBoundary_append]
  rfl

end TwoLines

/-! ### The texts of messages -/

/-- The code units of a visible character are no line ends. -/
theorem ne_lineEnd_of_visible {c : Char} (h : Json.isVisible c = true) :
    lineFeed ∉ ofChar c ∧ carriageReturn ∉ ofChar c := by
  have hvisible : 32 ≤ c.toNat := of_decide_eq_true h
  have hvalid : c.toNat < 0xd800 ∨ 0xdfff < c.toNat ∧ c.toNat < 0x110000 := c.valid
  have hall : ∀ unit ∈ ofChar c, 32 ≤ unit.toNat := by
    intro unit hunit
    unfold ofChar at hunit
    split at hunit
    · next hsmall =>
      rw [List.mem_singleton.mp hunit]
      rw [Nat.toUInt16, UInt16.toNat_ofNat']
      omega
    · rcases List.mem_cons.mp hunit with rfl | hunit
      · rw [Nat.toUInt16, UInt16.toNat_ofNat']
        omega
      · rw [List.mem_singleton.mp hunit]
        rw [Nat.toUInt16, UInt16.toNat_ofNat']
        omega
  exact ⟨fun hmem => absurd (hall _ hmem) (by decide),
    fun hmem => absurd (hall _ hmem) (by decide)⟩

/-- Neither are those of a visible text. -/
theorem not_mem_of_visible {text : List Char} (h : text.all Json.isVisible = true) :
    lineFeed ∉ text.flatMap ofChar ∧ carriageReturn ∉ text.flatMap ofChar := by
  refine ⟨fun hmem => ?_, fun hmem => ?_⟩ <;>
    obtain ⟨c, hc, hunit⟩ := List.mem_flatMap.mp hmem
  · exact (ne_lineEnd_of_visible (List.all_eq_true.mp h c hc)).1 hunit
  · exact (ne_lineEnd_of_visible (List.all_eq_true.mp h c hc)).2 hunit

/-- The name of the event of a message. -/
def Message.eventName : Message → String
  | snapshot _ => "snapshot"
  | heartbeat => "heartbeat"

/-- The text of the data of a message. -/
def Message.data : Message → List Char
  | snapshot members => snapshotPayload repr members
  | heartbeat => "\x7b\x7d".toList

/-- The text of a frame, without the empty line. -/
def Message.body (message : Message) : List Char :=
  ("event: ".toList ++ message.eventName.toList) ++ '\n' :: ("data: ".toList ++ message.data repr)

theorem bytesOf_append (text more : List Char) :
    bytesOf (text ++ more) = bytesOf text ++ bytesOf more := List.flatMap_append

/-- A frame is its text and an empty line. -/
theorem Message.frame_eq (message : Message) :
    message.frame repr = bytesOf (message.body repr ++ ['\n']) ++ bytesOf ['\n'] := by
  have hlast : ∀ text : List Char, (text ++ ['\n']) ++ ['\n'] = text ++ ['\n', '\n'] :=
    fun text => List.append_assoc text _ _
  rw [← bytesOf_append, hlast]
  cases message with
  | snapshot members =>
    have hfront : "event: snapshot\ndata: ".toList
        = ("event: ".toList ++ "snapshot".toList) ++ '\n' :: "data: ".toList := by decide
    have hbody : (snapshot members).body repr
        = "event: snapshot\ndata: ".toList ++ snapshotPayload repr members := by
      rw [hfront, List.append_assoc, List.cons_append]
      rfl
    rw [hbody, bytesOf_append, bytesOf_append]
    rfl
  | heartbeat =>
    have htext : "event: heartbeat\ndata: \x7b\x7d\n\n".toList
        = ("event: ".toList ++ "heartbeat".toList)
          ++ '\n' :: ("data: ".toList ++ "\x7b\x7d".toList) ++ ['\n', '\n'] := by decide
    exact congrArg bytesOf htext

variable {repr}

/-- The data of a message are visible, and start with a brace. -/
theorem Message.data_visible (hrepr : ∀ q, (repr q).all Json.isVisible = true)
    (message : Message) :
    (message.data repr).all Json.isVisible = true ∧ (message.data repr).head? = some '{' := by
  cases message with
  | snapshot members => exact ⟨Json.text_visible hrepr _, rfl⟩
  | heartbeat =>
    have hbraces : "\x7b\x7d".toList.all Json.isVisible = true := by decide
    exact ⟨hbraces, rfl⟩

/-- The code units of the text of a frame. -/
theorem Message.units (message : Message) :
    (message.body repr).flatMap ofChar
      = (ofString "event: " ++ ofString message.eventName)
        ++ lineFeed :: (ofString "data: " ++ (message.data repr).flatMap ofChar) := by
  have hline : ofChar '\n' = [lineFeed] := by decide
  unfold body ofString
  rw [List.flatMap_append, List.flatMap_append, List.flatMap_cons, List.flatMap_append, hline,
    List.singleton_append]

/-- The lines of a frame. -/
theorem Message.twoLines (hrepr : ∀ q, (repr q).all Json.isVisible = true) (message : Message) :
    TwoLines ((message.body repr).flatMap ofChar)
      (ofString "event: " ++ ofString message.eventName)
      (ofString "data: " ++ (message.data repr).flatMap ofChar) where
  eq := message.units
  first_line := by
    have hsnapshot : lineFeed ∉ ofString "event: " ++ ofString "snapshot" := by decide
    have hheartbeat : lineFeed ∉ ofString "event: " ++ ofString "heartbeat" := by decide
    cases message with
    | snapshot _ => exact hsnapshot
    | heartbeat => exact hheartbeat
  second_line := by
    have hdata := (not_mem_of_visible (message.data_visible hrepr).1).1
    rw [List.mem_append]
    exact fun h => h.elim (by decide) hdata
  nonempty := by
    have hfront : ofString "data: " ≠ [] := by decide
    exact fun hnil => hfront (List.append_eq_nil_iff.mp hnil).1

/-- A text behind its front. -/
theorem afterFront_append {front : String} {text rest : JsText}
    (h : text = ofString front ++ rest) : afterFront front text = some rest := by
  have hprefixed : (ofString front).isPrefixOf (ofString front ++ rest) = true :=
    List.isPrefixOf_iff_prefix.mpr (List.prefix_append _ _)
  rw [h, afterFront, if_pos hprefixed, List.drop_left' rfl]

/-- The first line of a frame. -/
theorem readFrameLine_name (message : Message) :
    readFrameLine {} (ofString "event: " ++ ofString message.eventName)
      = { eventName := ofString message.eventName } := by
  have hfront : ofString "event: " = ofString "event:" ++ ofString " " := by decide
  have hsnapshot : trim (ofString " " ++ ofString "snapshot") = ofString "snapshot" := by decide
  have hheartbeat : trim (ofString " " ++ ofString "heartbeat") = ofString "heartbeat" := by
    decide
  have hbehind : afterFront "event:" (ofString "event: " ++ ofString message.eventName)
      = some (ofString " " ++ ofString message.eventName) :=
    afterFront_append (by rw [hfront, List.append_assoc])
  unfold readFrameLine
  rw [hbehind]
  cases message with
  | snapshot members => exact congrArg (FrameFields.mk · []) hsnapshot
  | heartbeat => exact congrArg (FrameFields.mk · []) hheartbeat

/-- The second line of a frame. -/
theorem readFrameLine_data (hrepr : ∀ q, (repr q).all Json.isVisible = true) (message : Message) :
    readFrameLine { eventName := ofString message.eventName }
      (ofString "data: " ++ (message.data repr).flatMap ofChar)
      = { eventName := ofString message.eventName
          data := [(message.data repr).flatMap ofChar] } := by
  have hfront : ofString "data: " = ofString "data:" ++ [32] := by decide
  have hevent : ofString "event:" = 101 :: [118, 101, 110, 116, 58] := by decide
  have hother : ofString "data: " = 100 :: [97, 116, 97, 58, 32] := by decide
  have hnone : afterFront "event:" (ofString "data: " ++ (message.data repr).flatMap ofChar)
      = none := by
    rw [afterFront, hevent, hother]
    exact if_neg (by simp)
  have hbehind : afterFront "data:" (ofString "data: " ++ (message.data repr).flatMap ofChar)
      = some (32 :: (message.data repr).flatMap ofChar) :=
    afterFront_append (by rw [hfront, List.append_assoc]; rfl)
  -- The brace in front of the data is no blank.
  have htrimmed : trimStart (32 :: (message.data repr).flatMap ofChar)
      = (message.data repr).flatMap ofChar := by
    obtain ⟨rest, hrest⟩ := List.head?_eq_some_iff.mp (message.data_visible hrepr).2
    have hblank : isWhitespace 32 = true := by decide
    have hbrace : ofChar '{' = [123] ∧ ¬isWhitespace 123 = true := by decide
    rw [hrest, List.flatMap_cons, hbrace.1, List.singleton_append, trimStart,
      List.dropWhile_cons_of_pos hblank, List.dropWhile_cons_of_neg hbrace.2]
  unfold readFrameLine
  rw [hnone]
  dsimp only
  rw [hbehind]
  exact congrArg (fun data => FrameFields.mk _ [data]) htrimmed

/-- The dashboard takes the event of a message from its frame. -/
theorem Message.accept (hrepr : ∀ q, (repr q).all Json.isVisible = true) (message : Message) :
    acceptStreamFrame ((message.body repr).flatMap ofChar) = some (message.event repr) := by
  have hlines := message.twoLines hrepr
  have hsplit : ((message.body repr).flatMap ofChar).splitOn lineFeed
      = [ofString "event: " ++ ofString message.eventName,
        ofString "data: " ++ (message.data repr).flatMap ofChar] := by
    have hfree : ∀ line ∈ [ofString "event: " ++ ofString message.eventName,
        ofString "data: " ++ (message.data repr).flatMap ofChar], lineFeed ∉ line := by
      intro line hline
      rcases List.mem_cons.mp hline with rfl | hline
      · exact hlines.first_line
      · rw [List.mem_singleton.mp hline]
        exact hlines.second_line
    have hjoined := List.splitOn_intercalate lineFeed hfree (List.cons_ne_nil _ _)
    have hjoin : [lineFeed].intercalate [ofString "event: " ++ ofString message.eventName,
          ofString "data: " ++ (message.data repr).flatMap ofChar]
        = (ofString "event: " ++ ofString message.eventName)
          ++ lineFeed :: (ofString "data: " ++ (message.data repr).flatMap ofChar) := by
      simp [List.intercalate]
    rw [hlines.eq, ← hjoin]
    exact hjoined
  unfold acceptStreamFrame
  rw [hsplit, List.foldl_cons, List.foldl_cons, List.foldl_nil, readFrameLine_name,
    readFrameLine_data hrepr]
  cases message with
  | snapshot members =>
    have hne : ofString "snapshot" ≠ ofString "heartbeat" := by decide
    dsimp only [eventName]
    rw [if_neg hne, if_pos rfl, List.intercalate_singleton]
    rfl
  | heartbeat => exact if_pos rfl

/-! ### The whole stream -/

/-- The messages of a stream as one text. -/
def streamText (repr : ℚ → List Char) (messages : List Message) : List Char :=
  messages.flatMap fun message => message.body repr ++ ['\n'] ++ ['\n']

theorem streamText_cons (message : Message) (rest : List Message) :
    streamText repr (message :: rest)
      = (message.body repr ++ ['\n'] ++ ['\n']) ++ streamText repr rest := List.flatMap_cons

theorem bytesOf_streamText (messages : List Message) :
    messages.flatMap (Message.frame repr) = bytesOf (streamText repr messages) := by
  induction messages with
  | nil => rfl
  | cons message rest ih =>
    rw [List.flatMap_cons, ih, message.frame_eq, streamText_cons,
      bytesOf_append (message.body repr ++ ['\n'] ++ ['\n']),
      bytesOf_append (message.body repr ++ ['\n'])]

/-- The frames of the messages, in front of what is no frame. -/
theorem splitFrames_streamText (hrepr : ∀ q, (repr q).all Json.isVisible = true)
    (messages : List Message) {beginning : JsText}
    (hbeginning : splitFrames beginning = ([], beginning)) :
    (splitFrames ((streamText repr messages).flatMap ofChar ++ beginning)).1
      = messages.map fun message => (message.body repr).flatMap ofChar := by
  have hline : ['\n'].flatMap ofChar = [lineFeed] := by decide
  induction messages with
  | nil => exact congrArg Prod.fst hbeginning
  | cons message rest ih =>
    have hframe := (message.twoLines hrepr).splitFrames_append
      ((streamText repr rest).flatMap ofChar ++ beginning)
    have htext : (streamText repr (message :: rest)).flatMap ofChar ++ beginning
        = (message.body repr).flatMap ofChar ++ lineFeed :: lineFeed ::
          ((streamText repr rest).flatMap ofChar ++ beginning) := by
      rw [streamText_cons, List.flatMap_append, List.flatMap_append, List.flatMap_append, hline]
      simp only [List.append_assoc, List.cons_append, List.nil_append]
    rw [htext, hframe, ih, List.map_cons]

/-- A text of messages has no carriage return. -/
theorem carriageReturn_not_mem (hrepr : ∀ q, (repr q).all Json.isVisible = true)
    (message : Message) : carriageReturn ∉ (message.body repr ++ ['\n']).flatMap ofChar := by
  have hline : ofChar '\n' = [lineFeed] := by decide
  have hfront : carriageReturn ∉ ofString "event: " ++ ofString message.eventName := by
    have hsnapshot : carriageReturn ∉ ofString "event: " ++ ofString "snapshot" := by decide
    have hheartbeat : carriageReturn ∉ ofString "event: " ++ ofString "heartbeat" := by decide
    cases message with
    | snapshot _ => exact hsnapshot
    | heartbeat => exact hheartbeat
  have hdata := (not_mem_of_visible (message.data_visible hrepr).1).2
  have hname : carriageReturn ∉ ofString "data: " := by decide
  rw [List.flatMap_append, message.units, List.flatMap_cons, List.flatMap_nil, hline]
  simp only [List.mem_append, List.mem_cons, List.not_mem_nil, or_false, not_or] at hfront ⊢
  exact ⟨⟨hfront, lineFeed_ne.symm, hname, hdata⟩, lineFeed_ne.symm⟩

/-- Nor has a whole stream of them. -/
theorem carriageReturn_not_mem_streamText (hrepr : ∀ q, (repr q).all Json.isVisible = true)
    (messages : List Message) : carriageReturn ∉ (streamText repr messages).flatMap ofChar := by
  have hline : carriageReturn ∉ ['\n'].flatMap ofChar := by decide
  induction messages with
  | nil => exact List.not_mem_nil
  | cons message rest ih =>
    rw [streamText_cons, List.flatMap_append, List.flatMap_append, List.mem_append,
      List.mem_append, not_or, not_or]
    exact ⟨⟨carriageReturn_not_mem hrepr message, hline⟩, ih⟩

theorem Message.head?_body (message : Message) : (message.body repr).head? = some 'e' := by
  have hfront : "event: ".toList.head? = some 'e' := by decide
  unfold body
  rw [List.head?_append, List.head?_append, hfront, Option.some_or, Option.some_or]

/-- The text of a stream starts with the name of a field. -/
theorem head?_streamText (messages : List Message) {next : Message} {part : List Char}
    (h : part <+: next.body repr ++ ['\n']) :
    (streamText repr messages ++ part).head? ≠ some '\uFEFF' := by
  have hbody : ∀ message : Message, (message.body repr).head? = some 'e' := Message.head?_body
  have hother : some 'e' ≠ some '\uFEFF' := by decide
  cases messages with
  | nil =>
    cases part with
    | nil => exact fun hnone => by cases hnone
    | cons c rest =>
      obtain ⟨more, hmore⟩ := h
      have hhead : (next.body repr ++ ['\n']).head? = some 'e' := by
        rw [List.head?_append, hbody next]
        rfl
      rw [← hmore] at hhead
      show some c ≠ _
      rw [show some c = some 'e' from hhead]
      exact hother
  | cons message rest =>
    rw [streamText_cons, List.append_assoc, List.append_assoc, List.append_assoc,
      List.head?_append, hbody message]
    exact hother

/-- A text without a carriage return has its line ends already. -/
theorem unify_eq_self {text : JsText} (h : carriageReturn ∉ text) :
    LineEnds.unify carriageReturn lineFeed text = text := by
  induction text with
  | nil => rfl
  | cons c rest ih =>
    have hc : c ≠ carriageReturn := by
      rintro rfl
      exact h List.mem_cons_self
    rw [LineEnds.unify_cons hc, ih fun hmem => h (List.mem_cons_of_mem _ hmem)]

/-- **The dashboard reads what the server sends.** At every moment, whatever the chunks are in
which the bytes arrive, the events are those of the messages whose frames are complete: none is
lost, repeated, torn or out of order. -/
theorem readAll_messages (hrepr : ∀ q, (repr q).all Json.isVisible = true)
    {messages : List Message} {next : Message} {beginning : List UInt8}
    {chunks : List (List UInt8)}
    (hchunks : chunks.flatten = messages.flatMap (Message.frame repr) ++ beginning)
    (hbeginning : beginning <+: next.frame repr) (hne : beginning ≠ next.frame repr) :
    ({} : StreamReader).readAll chunks = messages.map (Message.event repr) := by
  -- What has arrived of the next frame is a beginning of its text, without the last line feed.
  have hcut : beginning <+: bytesOf (next.body repr ++ ['\n']) := by
    have hlast : bytesOf ['\n'] = [10] := by decide
    rw [next.frame_eq, hlast] at hbeginning hne
    exact (List.prefix_concat_iff.mp hbeginning).resolve_left hne
  have harrived := Utf8Decoder.decode_prefix hcut
  -- The decoder gives the texts of the messages and that beginning.
  have hdecoded : (({} : Utf8Decoder).decode chunks.flatten).2
      = streamText repr messages ++ (({} : Utf8Decoder).decode beginning).2 := by
    rw [hchunks, bytesOf_streamText, Utf8Decoder.decode_append, bytesOf,
      Utf8Decoder.decode_encode]
  generalize hpart : (({} : Utf8Decoder).decode beginning).2 = part at harrived hdecoded
  have hmark : (({} : Utf8Decoder).decode chunks.flatten).2.head? ≠ some '\uFEFF' := by
    rw [hdecoded]
    exact head?_streamText messages harrived
  have hunits : part.flatMap ofChar <+: (next.body repr ++ ['\n']).flatMap ofChar := by
    obtain ⟨more, hmore⟩ := harrived
    exact ⟨more.flatMap ofChar, by rw [← hmore, List.flatMap_append]⟩
  have hreturn : carriageReturn ∉ (streamText repr messages ++ part).flatMap ofChar := by
    rw [List.flatMap_append, List.mem_append, not_or]
    exact ⟨carriageReturn_not_mem_streamText hrepr messages,
      fun hmem => carriageReturn_not_mem hrepr next (hunits.subset hmem)⟩
  have hline : ['\n'].flatMap ofChar = [lineFeed] := by decide
  rw [List.flatMap_append, hline] at hunits
  have hframes := splitFrames_streamText hrepr messages
    ((next.twoLines hrepr).splitFrames_beginning hunits)
  rw [readAll_eq, TextDecoder.decode_eq hmark, hdecoded, appendStreamChunk_eq, List.nil_append,
    unify_eq_self hreturn, takeFrames_eq, List.flatMap_append, hframes, List.filterMap_map]
  rw [← List.filterMap_eq_map]
  congr 1
  funext message
  exact message.accept hrepr

private def plainNumber : ℚ → List Char := fun _ => ['0']

private def accentMessages : List Message := [.snapshot [("name", .string "é")], .heartbeat]

private def accentBytes : List UInt8 :=
  accentMessages.flatMap (Message.frame plainNumber) ++ sseHeartbeatFrame.take 9

/-- A chunk may end inside an accented letter, and the stream inside a heartbeat. -/
theorem readAll_messages_accent :
    ({} : StreamReader).readAll [accentBytes.take 32, accentBytes.drop 32]
      = accentMessages.map (Message.event plainNumber) :=
  have hvisible : ['0'].all Json.isVisible = true := by decide
  @readAll_messages plainNumber (fun _ => hvisible) accentMessages .heartbeat
    (sseHeartbeatFrame.take 9) _
    (by rw [List.flatten_cons, List.flatten_cons, List.flatten_nil, List.append_nil,
      List.take_append_drop]; rfl)
    (List.take_prefix 9 sseHeartbeatFrame) (by decide +kernel)

end Mocop.EventStream
