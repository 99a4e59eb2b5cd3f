import Intellivault.Stream.Sse

/-!
# The stream, end to end

What `format_sse` and `format_sse_comment` write, cut into chunks anywhere, is what `parseSse`
reads.  The frames hold no separator, because neither names nor comments have line ends
and `json.dumps` writes none; chunks do not matter (`readChunks_eq`); and each frame is
parsed to what it was written from (`parseFrame_event`).
-/

namespace Intellivault.Stream

open Lib

/-- What the server sends. -/
inductive Frame where
  | event (name : String) (data : Json)
  | comment (text : String)

def Frame.bytes : Frame → List UInt8
  | .event name data => formatSse name data
  | .comment text => formatSseComment text

/-- The frame, as the reader should yield it. -/
def Frame.pair : Frame → Option SseEvent
  | .event name data => some ⟨name, data⟩
  | .comment _ => none

/-- The name has no line end and no white space around it, the data are a JSON value; a comment
has no line end. -/
def Frame.Admissible : Frame → Prop
  | .event name data => '\n' ∉ name.toList ∧ trim name.toList = name.toList ∧ data.WellFormed
  | .comment text => '\n' ∉ text.toList

def eventField : List Char := ['e', 'v', 'e', 'n', 't', ':', ' ']

def dataField : List Char := ['d', 'a', 't', 'a', ':', ' ']

def commentField : List Char := [':', ' ']

/-- The lines of a frame, up to the separator. -/
def Frame.text : Frame → List Char
  | .event name data =>
      eventField ++ name.toList ++ '\n' :: (dataField ++ (Json.dumps data).toList)
  | .comment text => commentField ++ text.toList

section Lines

variable {name : String} {data : Json} {text : String}

theorem Frame.bytes_eq (f : Frame) : f.bytes = Utf8.encode (f.text ++ ['\n', '\n']) := by
  have blank : "\n\n".toList = ['\n', '\n'] := rfl
  have event : "event: ".toList = eventField := rfl
  have between : "\ndata: ".toList = '\n' :: dataField := rfl
  have comment : ": ".toList = commentField := rfl
  cases f with
  | event name data =>
      rw [bytes, formatSse, String.toList_append, String.toList_append, String.toList_append,
        String.toList_append, event, between, blank]
      simp only [text, List.append_assoc, List.cons_append]
  | comment text =>
      rw [bytes, formatSseComment, String.toList_append, String.toList_append, comment, blank]
      rfl

theorem not_mem_of_printable {cs : List Char} (printable : Json.Printable cs) : '\n' ∉ cs :=
  fun mem => absurd (printable _ mem).1 (by decide)

theorem plain_event (plain : '\n' ∉ name.toList) : '\n' ∉ eventField ++ name.toList := by
  rw [List.mem_append, not_or]
  exact ⟨by decide, plain⟩

theorem plain_data (wf : data.WellFormed) : '\n' ∉ dataField ++ (Json.dumps data).toList := by
  rw [List.mem_append, not_or]
  exact ⟨by decide, not_mem_of_printable (Json.printable_dumps data wf)⟩

theorem plain_comment (plain : '\n' ∉ text.toList) : '\n' ∉ commentField ++ text.toList := by
  rw [List.mem_append, not_or]
  exact ⟨by decide, plain⟩

/-- The separator is found at the end of the frame and not before. -/
theorem Frame.Admissible.cut {f : Frame} (ok : f.Admissible) (rest : List Char) :
    Framing.cut ['\n', '\n'] (f.text ++ (['\n', '\n'] ++ rest)) = some (f.text, rest) := by
  cases f with
  | event name data =>
      exact Framing.cut_lines (plain_event ok.1) (by decide) (Framing.cut_line (plain_data ok.2.2))
  | comment text => exact Framing.cut_line (plain_comment ok)

/-! ## One frame -/

theorem trim_of_ends {cs : List Char} {first last : Char} (head : cs.head? = some first)
    (tail : cs.getLast? = some last) (hf : isJsSpace first = false) (hl : isJsSpace last = false) :
    trim (' ' :: cs) = cs := by
  have space : isJsSpace ' ' = true := by decide
  obtain ⟨rest, rfl⟩ := List.head?_eq_some_iff.mp head
  obtain ⟨front, back⟩ := List.getLast?_eq_some_iff.mp tail
  rw [trim, List.dropWhile_cons_of_pos space, List.dropWhile_cons_of_neg (by rw [hf]; decide), back,
    List.reverse_append, List.reverse_singleton, List.singleton_append,
    List.dropWhile_cons_of_neg (by rw [hl]; decide), List.reverse_cons, List.reverse_reverse]

/-- A leading space is all that `trim` takes from a name. -/
theorem trim_space (cs : List Char) : trim (' ' :: cs) = trim cs := by
  have space : isJsSpace ' ' = true := by decide
  rw [trim, List.dropWhile_cons_of_pos space, trim]

theorem not_space_of_printable {c : Char} (printable : 32 ≤ c.toNat ∧ c.toNat ≤ 126)
    (other : c ≠ ' ') : isJsSpace c = false := by
  have code : c.toNat ≠ 32 := fun same => other (Char.toNat_inj.mp same)
  simp only [isJsSpace, decide_eq_false_iff_not]
  omega

theorem trim_dumps (wf : data.WellFormed) :
    trim (' ' :: (Json.dumps data).toList) = (Json.dumps data).toList := by
  have printable := Json.printable_dumps data wf
  obtain ⟨first, last, head, tail, hf, hl⟩ := Json.dumps_ends data wf
  exact trim_of_ends head tail
    (not_space_of_printable (printable _ (List.mem_of_mem_head? head)) hf)
    (not_space_of_printable (printable _ (List.mem_of_mem_getLast? tail)) hl)

theorem Fields.read_event (fields : Fields) (cs : List Char) :
    fields.read (eventField ++ cs) = { fields with event := trim (' ' :: cs) } := rfl

theorem Fields.read_data (fields : Fields) (cs : List Char) :
    fields.read (dataField ++ cs) = { fields with data := some (trim (' ' :: cs)) } := rfl

theorem Fields.read_comment (fields : Fields) (cs : List Char) :
    fields.read (commentField ++ cs) = fields := rfl

theorem splitOn_lines {xs ys : List Char} (hx : '\n' ∉ xs) (hy : '\n' ∉ ys) :
    (xs ++ '\n' :: ys).splitOn '\n' = [xs, ys] := by
  have lines : ∀ l ∈ [xs, ys], '\n' ∉ l :=
    List.forall_mem_cons.mpr ⟨hx, List.forall_mem_singleton.mpr hy⟩
  have joined := List.splitOn_intercalate '\n' lines (List.cons_ne_nil _ _)
  rwa [List.intercalate_cons_cons, List.intercalate_singleton, List.append_assoc] at joined

theorem splitOn_line {xs : List Char} (hx : '\n' ∉ xs) : xs.splitOn '\n' = [xs] := by
  have joined := List.splitOn_intercalate '\n' (List.forall_mem_singleton.mpr hx) (List.cons_ne_nil _ _)
  rwa [List.intercalate_singleton] at joined

theorem parseFrame_event {parse : String → Option Json} (ok : (Frame.event name data).Admissible)
    (inverts : parse (Json.dumps data) = some data) :
    parseFrame parse (Frame.event name data).text = some ⟨name, data⟩ := by
  obtain ⟨plain, trimmed, wf⟩ := ok
  rw [parseFrame, Frame.text, splitOn_lines (plain_event plain) (plain_data wf), List.foldl_cons,
    List.foldl_cons, List.foldl_nil, Fields.read_event, Fields.read_data, trim_space, trimmed,
    trim_dumps wf]
  dsimp only
  rw [String.ofList_toList, String.ofList_toList, inverts]
  rfl

theorem parseFrame_comment {parse : String → Option Json} (ok : (Frame.comment text).Admissible) :
    parseFrame parse (Frame.comment text).text = none := by
  rw [parseFrame, Frame.text, splitOn_line (plain_comment ok), List.foldl_cons, List.foldl_nil,
    Fields.read_comment]

end Lines

/-! ## The whole stream -/

/-- The text of a stream. -/
def streamText (frames : List Frame) : List Char :=
  (frames.map Frame.text).flatMap (· ++ ['\n', '\n'])

theorem bytes_streamText (frames : List Frame) :
    frames.flatMap Frame.bytes = Utf8.encode (streamText frames) := by
  induction frames with
  | nil => rfl
  | cons f frames ih =>
      rw [List.flatMap_cons, ih, Frame.bytes_eq, streamText, streamText, List.map_cons,
        List.flatMap_cons, Utf8.encode_append, Utf8.encode_append, Utf8.encode_append]

/-- A stream does not begin with a byte order mark. -/
theorem serialize_streamText (frames : List Frame) :
    (TextDecoder.serialize false (streamText frames)).2 = streamText frames := by
  cases frames with
  | nil => rfl
  | cons f frames => cases f <;> rfl

theorem decode_stream (frames : List Frame) :
    (TextDecoder.decode {} (frames.flatMap Frame.bytes)).2 = streamText frames := by
  rw [bytes_streamText, TextDecoder.decode, Utf8.feed_encode]
  exact serialize_streamText frames

theorem drain_stream {frames : List Frame} (admissible : ∀ f ∈ frames, f.Admissible) :
    Framing.drain ['\n', '\n'] (streamText frames) = (frames.map Frame.text, []) := by
  refine Framing.drain_frames fun text mem rest => ?_
  obtain ⟨f, hf, rfl⟩ := List.mem_map.mp mem
  exact (admissible f hf).cut rest

/-- **The round trip.**  However the bytes of the frames are cut into chunks, the reader yields
the events that were written, each once and in their order, and nothing for the comments. -/
theorem parseSse_format {parse : String → Option Json} (frames : List Frame)
    (admissible : ∀ f ∈ frames, f.Admissible)
    (inverts : ∀ name data, .event name data ∈ frames → parse (Json.dumps data) = some data)
    (chunks : List (List UInt8)) (whole : chunks.flatten = frames.flatMap Frame.bytes) :
    parseSse parse (some chunks) = frames.filterMap Frame.pair := by
  rw [parseSse, readChunks_eq chunks (Framing.drain_of_none rfl), List.nil_append, whole,
    decode_stream, drain_stream admissible, List.filterMap_map]
  refine List.filterMap_congr fun f hf => ?_
  cases f with
  | event name data => exact parseFrame_event (admissible _ hf) (inverts name data hf)
  | comment text => exact parseFrame_comment (admissible _ hf)

theorem readChunks_first {parse : String → Option Json} (chunks rest : List (List UInt8))
    (decoder : TextDecoder) (buffer : List Char) :
    readChunks parse decoder buffer chunks <+: readChunks parse decoder buffer (chunks ++ rest) := by
  induction chunks generalizing decoder buffer with
  | nil => exact List.nil_prefix
  | cons value chunks ih => exact (List.prefix_append_right_inj _).mpr (ih _ _)

/-- While the stream is on its way, the reader has yielded the first of the events. -/
theorem parseSse_first {parse : String → Option Json} (frames : List Frame)
    (admissible : ∀ f ∈ frames, f.Admissible)
    (inverts : ∀ name data, .event name data ∈ frames → parse (Json.dumps data) = some data)
    (chunks : List (List UInt8)) (part : chunks.flatten <+: frames.flatMap Frame.bytes) :
    parseSse parse (some chunks) <+: frames.filterMap Frame.pair := by
  obtain ⟨rest, whole⟩ := part
  have flat : (chunks ++ [rest]).flatten = frames.flatMap Frame.bytes := by
    rw [List.flatten_append, List.flatten_singleton, whole]
  rw [← parseSse_format frames admissible inverts (chunks ++ [rest]) flat]
  exact readChunks_first chunks [rest] {} []

/-- A keep-alive and a status. -/
def exampleFrames : List Frame := [.comment "keep-alive", .event "status" (.num "1")]

/-- ... one byte at a time. -/
theorem parseSse_example :
    parseSse (fun text => if text = "1" then some (.num "1") else none)
      (some ((exampleFrames.flatMap Frame.bytes).map ([·]))) = [⟨"status", .num "1"⟩] := by
  refine parseSse_format exampleFrames (fun f hf => ?_) (fun name data hf => ?_) _
    (List.flatMap_def.symm.trans (List.flatMap_singleton' _))
  · rcases List.mem_cons.mp hf with rfl | hf
    · exact (by decide : '\n' ∉ "keep-alive".toList)
    · cases List.mem_singleton.mp hf
      exact ⟨by decide, by decide, by decide, by decide⟩
  · rcases List.mem_cons.mp hf with same | hf
    · cases same
    · cases List.mem_singleton.mp hf
      rfl

end Intellivault.Stream
