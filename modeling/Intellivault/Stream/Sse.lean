import Intellivault.Lib.Framing
import Intellivault.Lib.Json
import Intellivault.Lib.Utf8

/-!
# Server-sent events

The two ends of the agent's status stream: `app/streaming.py`, which writes frames, and
`lib/sse.ts`, which reads them from a `fetch` response.  A JavaScript string is a list of
characters here; every position the reader cuts at is next to an ASCII character, so no
surrogate pair is ever cut.
-/

namespace Intellivault.Stream

open Lib

/-! ## `app/streaming.py` -/

/-- `format_sse` -/
def formatSse (event : String) (data : Json) : List UInt8 :=
  Utf8.encode ("event: " ++ event ++ "\ndata: " ++ Json.dumps data ++ "\n\n").toList

/-- `format_sse_comment` -/
def formatSseComment (text : String) : List UInt8 :=
  Utf8.encode (": " ++ text ++ "\n\n").toList

/-! ## `TextDecoder` -/

/-- A `TextDecoder` between two calls of `decode(value, { stream: true })`. -/
structure TextDecoder where
  state : Utf8.State := .start
  /-- Whether the place of a byte order mark is behind it. -/
  bomSeen : Bool := false

/-- A byte order mark at the very beginning is left out. -/
def TextDecoder.serialize (bomSeen : Bool) : List Char → Bool × List Char
  | [] => (bomSeen, [])
  | c :: cs => (true, if ¬bomSeen ∧ c.toNat = 0xFEFF then cs else c :: cs)

def TextDecoder.decode (decoder : TextDecoder) (value : List UInt8) : TextDecoder × List Char :=
  let (state, cs) := Utf8.feed decoder.state value
  let (bomSeen, cs) := serialize decoder.bomSeen cs
  (⟨state, bomSeen⟩, cs)

/-! ## `lib/sse.ts` -/

/-- The white space and line ends of JavaScript. -/
def isJsSpace (c : Char) : Bool :=
  let n := c.toNat
  (9 ≤ n ∧ n ≤ 13) ∨ n = 32 ∨ n = 0xA0 ∨ n = 0xFEFF ∨ n = 0x1680 ∨ (0x2000 ≤ n ∧ n ≤ 0x200A) ∨
    n = 0x2028 ∨ n = 0x2029 ∨ n = 0x202F ∨ n = 0x205F ∨ n = 0x3000

/-- `text.trim()` -/
def trim (cs : List Char) : List Char :=
  ((cs.dropWhile isJsSpace).reverse.dropWhile isJsSpace).reverse

/-- `SseEvent` -/
structure SseEvent where
  event : String
  data : Json
deriving DecidableEq

/-- The local variables of `parseFrame`. -/
structure Fields where
  event : List Char := "message".toList
  data : Option (List Char) := none

/-- One turn of the loop over the lines. -/
def Fields.read (fields : Fields) (line : List Char) : Fields :=
  if "event:".toList.isPrefixOf line then { fields with event := trim (line.drop 6) }
  else if "data:".toList.isPrefixOf line then { fields with data := some (trim (line.drop 5)) }
  else fields

/-- `parseFrame`; `parse` is `JSON.parse`, which answers `none` where it throws. -/
def parseFrame (parse : String → Option Json) (frame : List Char) : Option SseEvent :=
  let fields := (frame.splitOn '\n').foldl Fields.read {}
  match fields.data with
  | none => none
  | some data => (parse (String.ofList data)).map fun data => ⟨String.ofList fields.event, data⟩

/-- The loops of `parseSse`: one chunk of the body after the other, and every complete frame
in the buffer. -/
def readChunks (parse : String → Option Json) :
    TextDecoder → List Char → List (List UInt8) → List SseEvent
  | _, _, [] => []
  | decoder, buffer, value :: rest =>
      let (decoder, text) := decoder.decode value
      let (frames, buffer) := Framing.drain ['\n', '\n'] (buffer ++ text)
      frames.filterMap (parseFrame parse) ++ readChunks parse decoder buffer rest

/-- `parseSse`, of a response whose body arrives in chunks; `none` is a response without a body. -/
def parseSse (parse : String → Option Json) : Option (List (List UInt8)) → List SseEvent
  | none => []
  | some chunks => readChunks parse {} [] chunks

/-! ## Chunks -/

section Chunks

variable {parse : String → Option Json} {decoder : TextDecoder} {buffer : List Char}

theorem TextDecoder.serialize_true (cs : List Char) : serialize true cs = (true, cs) := by
  cases cs <;> rfl

theorem TextDecoder.serialize_append (bomSeen : Bool) (xs ys : List Char) :
    serialize bomSeen (xs ++ ys) =
      ((serialize (serialize bomSeen xs).1 ys).1,
        (serialize bomSeen xs).2 ++ (serialize (serialize bomSeen xs).1 ys).2) := by
  cases xs with
  | nil => rfl
  | cons x xs =>
      have first : (serialize bomSeen (x :: xs)).1 = true := rfl
      rw [first, serialize_true, List.cons_append]
      simp only [serialize]
      split <;> rfl

/-- Decoding in between changes nothing. -/
theorem TextDecoder.decode_append (decoder : TextDecoder) (xs ys : List UInt8) :
    decoder.decode (xs ++ ys) =
      (((decoder.decode xs).1.decode ys).1,
        (decoder.decode xs).2 ++ ((decoder.decode xs).1.decode ys).2) := by
  simp only [decode, Utf8.feed_append, serialize_append]

/-- **Chunks do not matter**: what is read are the frames of the whole text. -/
theorem readChunks_eq (chunks : List (List UInt8))
    (drained : Framing.drain ['\n', '\n'] buffer = ([], buffer)) :
    readChunks parse decoder buffer chunks =
      (Framing.drain ['\n', '\n'] (buffer ++ (decoder.decode chunks.flatten).2)).1.filterMap
        (parseFrame parse) := by
  induction chunks generalizing decoder buffer with
  | nil =>
      have nothing : (decoder.decode []).2 = [] := rfl
      rw [List.flatten_nil, nothing, List.append_nil, drained]
      rfl
  | cons value rest ih =>
      rw [List.flatten_cons, TextDecoder.decode_append, ← List.append_assoc, Framing.drain_append,
        List.filterMap_append, ← ih (Framing.drain_rest _)]
      rfl

end Chunks

end Intellivault.Stream
